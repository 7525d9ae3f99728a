import SparseDevice.Context

/-!
# Sessions

A session gives names to what it works with: devices, handles, entries, caches, references and
contexts, each kind in a table of its own.

A shared entry has no owner of its own. It belongs to the caches, references and contexts that hold
its number, and it goes when the last of them does. In the same way a cache belongs to its name and
to the contexts that were made for it. Where the name is given to another cache, those contexts stay
with the one they were made for, and it goes with the last of them. Nothing is counted for that:
whoever lets go of a number looks whether anyone still holds it.

A cache goes shard by shard and slot by slot. If the handle of an entry cannot be given back on the
way, the fault ends the rest of that shard, and the other shards go all the same. What is left of the
cache is a ruin. Nobody can reach it and it never goes, so it keeps the entries in its slots for good.

## Main definitions

* `Session`: the world, the caches and the tables.
* `Session.held`, `Session.heldCaches`: the numbers of shared entries and of caches that someone
  holds.
* `Session.collect`, `Session.collectCache`: lets a shared entry or a cache go if nobody holds it.
* `Session.putEntry` and its kin: storing under a name lets go of what was there.
-/

namespace SparseDevice

/-- The world and its caches, and names for what is in them. -/
structure Session where
  world : World
  /-- The caches that somebody holds. -/
  cachePool : Pool Cache
  /-- What is left of caches that a fault has stopped from going. -/
  ruins : List Cache
  /-- Devices, by their serial number. -/
  devices : Table String Nat
  /-- Handles that no entry owns. -/
  handles : Table String Handle
  /-- Entries that are not shared. -/
  entries : Table String Entry
  /-- Caches, by their number. -/
  caches : Table String Nat
  /-- References, by the number of the shared entry. -/
  references : Table String Nat
  contexts : Table String Context
deriving DecidableEq

namespace Session

/-- A session in which nothing has happened. -/
def empty : Session := ⟨.empty, .empty, [], [], [], [], [], [], []⟩

/-- Lets something happen in the world. -/
def onWorld {β : Type} (s : Session) (f : World → World × β) : Session × β :=
  let (world, b) := f s.world
  ({ s with world }, b)

theorem onWorld_eq {β : Type} (s : Session) (f : World → World × β) :
    s.onWorld f = ({ s with world := (f s.world).1 }, (f s.world).2) := rfl

/-- The name of a device: of several, the first in the order of code points. -/
def deviceName? (s : Session) (serial : Nat) : Option String :=
  let names := Table.keys (s.devices.filter fun p => decide (p.2 = serial))
  (names.mergeSort fun a b => decide (a ≤ b)).head?

/-- The shared entry behind a reference. -/
def shared? (s : Session) (reference : String) : Option Entry :=
  (s.references.get? reference).bind s.world.pool.get?

/-- The cache that has a name, and its number. -/
def cache? (s : Session) (name : String) : Option (Nat × Cache) :=
  (s.caches.get? name).bind fun id => (s.cachePool.get? id).map (id, ·)

/-- Puts a cache in place of the one under a number. -/
def setCache (s : Session) (id : Nat) (c : Cache) : Session :=
  { s with cachePool := s.cachePool.set id c }

/-! ### Owners of shared entries and caches -/

/-- The caches that keep entries, whole or in ruins. -/
def keepers (s : Session) : List Cache := s.cachePool.vals ++ s.ruins

/-- The numbers of shared entries that a cache, a reference or a context holds, once for each. -/
def held (s : Session) : List Nat :=
  s.keepers.flatMap (·.slots.vals) ++ s.references.vals ++ s.contexts.vals.filterMap (·.entry)

/-- The numbers of caches that a name or a context holds, once for each. -/
def heldCaches (s : Session) : List Nat := s.caches.vals ++ s.contexts.vals.map (·.cache)

/-- Lets a shared entry go if nobody holds it. -/
def collect (s : Session) (id : Nat) : Session × Except Fault Unit :=
  if id ∈ s.held then (s, .ok ()) else s.onWorld (·.discard id)

/-- Lets several shared entries go. All of them are seen to; the first fault is the one that
counts. -/
def collectAll (s : Session) : List Nat → Session × Except Fault Unit
  | [] => (s, .ok ())
  | id :: rest =>
    let (s, first) := s.collect id
    let (s, later) := s.collectAll rest
    (s, first.bind fun _ => later)

/-- Leaves the slots of a cache behind, if there are any. -/
def leave (s : Session) (c : Cache) : Session :=
  if c.slots.isEmpty then s else { s with ruins := c :: s.ruins }

/-- Lets the slots of a shard go. A fault ends this, and the slots after it are left behind. -/
def collectShard (s : Session) (c : Cache) : Table Stream Nat → Session × Except Fault Unit
  | [] => (s, .ok ())
  | slot :: rest =>
    match s.collect slot.2 with
    | (s, .ok ()) => s.collectShard c rest
    | (s, .error f) => (s.leave { c with slots := rest }, .error f)

/-- Lets several shards go. All of them are seen to; the first fault is the one that counts. -/
def collectShards (s : Session) (c : Cache) : List (Table Stream Nat) → Session × Except Fault Unit
  | [] => (s, .ok ())
  | shard :: rest =>
    let (s, first) := s.collectShard c shard
    let (s, later) := s.collectShards c rest
    (s, first.bind fun _ => later)

/-- Lets a cache go if nobody holds it, and its slots with it. -/
def collectCache (s : Session) (id : Nat) : Session × Except Fault Unit :=
  if id ∈ s.heldCaches then (s, .ok ())
  else
    match s.cachePool.get? id with
    | none => (s, .ok ())
    | some c => { s with cachePool := s.cachePool.erase id }.collectShards c c.shards

/-- Lets go of what a context held: its shared entry, then its cache. -/
def collectContext (s : Session) (ctx : Context) : Session × Except Fault Unit :=
  let (s, first) := s.collectAll ctx.entry.toList
  let (s, later) := s.collectCache ctx.cache
  (s, first.bind fun _ => later)

/-! ### Letting go -/

/-- Takes an entry out of its table and gives its handle back. -/
def dropEntry (s : Session) (name : String) : Session × Except Fault Unit :=
  match s.entries.get? name with
  | none => (s, .ok ())
  | some e => { s with entries := s.entries.erase name }.onWorld (·.release e)

/-- Takes a reference out of its table. -/
def dropReference (s : Session) (name : String) : Session × Except Fault Unit :=
  match s.references.get? name with
  | none => (s, .ok ())
  | some id => { s with references := s.references.erase name }.collect id

/-- Takes a context out of its table. -/
def dropContext (s : Session) (name : String) : Session × Except Fault Unit :=
  match s.contexts.get? name with
  | none => (s, .ok ())
  | some ctx => { s with contexts := s.contexts.erase name }.collectContext ctx

/-- Takes the name of a cache out of its table. -/
def dropCache (s : Session) (name : String) : Session × Except Fault Unit :=
  match s.caches.get? name with
  | none => (s, .ok ())
  | some id => { s with caches := s.caches.erase name }.collectCache id

/-! ### Storing under a name

What was there under the name goes, after the new object is in its place. -/

/-- Stores an entry. -/
def putEntry (s : Session) (name : String) (e : Entry) : Session × Except Fault Unit :=
  let old := s.entries.get? name
  let s := { s with entries := s.entries.insert name e }
  match old with
  | none => (s, .ok ())
  | some old => s.onWorld (·.release old)

/-- Stores a reference. -/
def putReference (s : Session) (name : String) (id : Nat) : Session × Except Fault Unit :=
  let old := s.references.get? name
  { s with references := s.references.insert name id }.collectAll old.toList

/-- Stores a context. -/
def putContext (s : Session) (name : String) (ctx : Context) : Session × Except Fault Unit :=
  let old := s.contexts.get? name
  let s := { s with contexts := s.contexts.insert name ctx }
  match old with
  | none => (s, .ok ())
  | some old => s.collectContext old

/-- Stores a new cache under a number of its own. -/
def putCache (s : Session) (name : String) (c : Cache) : Session × Except Fault Unit :=
  let old := s.caches.get? name
  let (cachePool, id) := s.cachePool.add c
  let s := { s with cachePool, caches := s.caches.insert name id }
  match old with
  | none => (s, .ok ())
  | some old => s.collectCache old

theorem collect_of_mem {s : Session} {id : Nat} (h : id ∈ s.held) :
    s.collect id = (s, .ok ()) := by
  simp [collect, h]

theorem collectCache_of_mem {s : Session} {id : Nat} (h : id ∈ s.heldCaches) :
    s.collectCache id = (s, .ok ()) := by
  simp [collectCache, h]

@[simp] theorem collectAll_nil (s : Session) : s.collectAll [] = (s, .ok ()) := rfl

theorem putReference_of_get?_eq_none {s : Session} {name : String}
    (h : s.references.get? name = none) (id : Nat) :
    s.putReference name id = ({ s with references := s.references.insert name id }, .ok ()) := by
  simp [putReference, h]

end Session

end SparseDevice
