import SparseDevice.World

/-!
# The cache of handles

A cache keeps one entry per stream. An entry is made the first time its stream is acquired; later
acquisitions find it. If it cannot be brought up nothing is kept, and the next acquisition tries
again.

An acquisition has two steps: a look-up that changes nothing, and, if that finds nothing, a
supply that looks again before it makes an entry. Several acquisitions may pass the first step
before one of them gets to the second, and then the others find what the first one made.

The slots of a cache lie in shards. Which shard a stream belongs to, and where in the shard it lies,
is drawn at random when the cache is made, and it matters only when the cache goes. So a cache brings
a layout along that is anything, and nothing but `Cache.shards` looks at it.

## Main definitions

* `Cache.lookup`, `Cache.supply`: the two steps.
* `Cache.acquire`: both steps at once.
* `Cache.acquireAll`: one acquisition after the other.
* `Cache.shards`: the slots in the order in which they go.
-/

namespace SparseDevice

/-- A cache, by the numbers of its shared entries. -/
structure Cache where
  /-- The serial number of the device that the handles come from. -/
  device : Nat
  /-- The entry of each stream. -/
  slots : Table Stream Nat
  /-- Streams by shards. A stream that is not listed lies in a shard of its own. -/
  layout : List (List Stream)
deriving DecidableEq

namespace Cache

/-- A cache without entries. -/
def new (device : Nat) (layout : List (List Stream) := []) : Cache := ⟨device, [], layout⟩

/-- The entry of a stream. -/
def lookup (c : Cache) (s : Stream) : Option Nat := c.slots.get? s

/-- Whether a stream has an entry. -/
def contains (c : Cache) (s : Stream) : Bool := (c.lookup s).isSome

/-- The number of entries. -/
def size (c : Cache) : Nat := c.slots.length

/-- The streams that have an entry. -/
def streams (c : Cache) : List Stream := c.slots.keys

/-- Slots by shards, the listed ones first. -/
def distribute : List (List Stream) → Table Stream Nat → List (Table Stream Nat)
  | [], slots => slots.map ([·])
  | shard :: layout, slots => (slots.pick shard).1 :: distribute layout (slots.pick shard).2

/-- The slots of a cache, by shards. -/
def shards (c : Cache) : List (Table Stream Nat) := distribute c.layout c.slots

/-- The entry of a stream, made and brought up if there is none. -/
def supply (w : World) (c : Cache) (s : Stream) : World × Cache × Except InitFailure Nat :=
  match c.lookup s with
  | some id => (w, c, .ok id)
  | none =>
    match (w.emit (.creating s)).prepare (.new c.device s) with
    | (w, e, .ok ()) =>
      let (w, id) := w.share e
      (w, { c with slots := c.slots.insert s id }, .ok id)
    | (w, _, .error f) => (w, c, .error f)

/-- The entry of a stream. -/
def acquire (w : World) (c : Cache) (s : Stream) : World × Cache × Except InitFailure Nat :=
  match c.lookup s with
  | some id => (w, c, .ok id)
  | none => c.supply w s

/-- A second look in the same state sees what the first one saw. -/
theorem acquire_eq_supply (w : World) (c : Cache) (s : Stream) : c.acquire w s = c.supply w s := by
  unfold acquire
  cases h : c.lookup s <;> simp [supply, h]

/-- The entries of several streams, acquired one after the other. -/
def acquireAll (w : World) (c : Cache) : List Stream → World × Cache × List (Except InitFailure Nat)
  | [] => (w, c, [])
  | s :: rest =>
    let (w, c, answer) := c.acquire w s
    let (w, c, answers) := c.acquireAll w rest
    (w, c, answer :: answers)

@[simp] theorem lookup_new (device : Nat) (layout : List (List Stream)) (s : Stream) :
    (new device layout).lookup s = none := rfl

theorem contains_iff {c : Cache} {s : Stream} :
    c.contains s = true ↔ ∃ id, c.lookup s = some id := by
  simp [contains, Option.isSome_iff_exists]

end Cache

end SparseDevice
