import SparseDevice.Device
import SparseDevice.Pool

/-!
# The world

What outlives every single call: the devices, the entries that several owners share, and the log of
events. A device is found by its serial number, which is its place in the list of devices. A shared
entry is found by its number in a pool.

An entry owns at most one handle. It belongs to one device and is meant for one stream. Bringing it
up makes a handle and binds it; if the binding fails, the fresh handle is given back at once.

## Main definitions

* `Event`: what the log records, and `Event.line`.
* `Entry`: the owner of a handle.
* `World`: devices, shared entries and log.
* `World.prepare`, `World.release`, `World.assign`: the life of an entry.
* `World.execute`: a routine call and its event.
-/

namespace SparseDevice

/-- What the log records. -/
inductive Event where
  /-- A cache is about to bring up an entry. -/
  | creating (stream : Stream)
  /-- An entry was brought up. -/
  | created (stream : Stream)
  /-- An entry is about to give its handle back. -/
  | destroying (stream : Stream)
  /-- A handle that could not be bound could not be given back either. -/
  | releaseFailed (stream : Stream) (status : Status)
  /-- A call ends without an answer. -/
  | fault (f : Fault)
  /-- A routine call got through. -/
  | called (entryPoint : String) (stream : Stream)
deriving DecidableEq

namespace Event

/-- An event as a line of text: its level and its message. -/
def line : Event → String
  | creating s => s!"INFO Creating native handles for stream {s.label}"
  | created s => s!"TRACE Created native handle for stream {s.label}"
  | destroying s => s!"TRACE Destroying native handle for stream {s.label}"
  | releaseFailed s status =>
    s!"WARN Failed to release unbound native handle for stream {s.label}: {status.text}"
  | fault f => s!"ERROR {f.message}"
  | called entryPoint s => s!"TRACE {entryPoint} on {s.label}"

end Event

/-- The owner of a handle. -/
structure Entry where
  /-- The serial number of the device that the handle comes from and goes back to. -/
  device : Nat
  /-- The stream that the handle is made for. -/
  stream : Stream
  /-- The handle, once it is brought up. -/
  handle : Option Handle
deriving DecidableEq

namespace Entry

/-- An entry without a handle. -/
def new (device : Nat) (stream : Stream) : Entry := ⟨device, stream, none⟩

/-- Whether the entry owns a handle. -/
def initialized (e : Entry) : Bool := e.handle.isSome

/-- The entry after its handle has gone elsewhere. -/
def emptied (e : Entry) : Entry := { e with handle := none }

@[simp] theorem initialized_new (device : Nat) (stream : Stream) :
    (new device stream).initialized = false := rfl

@[simp] theorem initialized_emptied (e : Entry) : e.emptied.initialized = false := rfl

end Entry

/-- What outlives every single call. -/
structure World where
  /-- The devices, each in the place of its serial number. -/
  devices : List Device
  /-- The entries that are shared. -/
  pool : Pool Entry
  /-- All events so far, in order. -/
  log : List Event
deriving DecidableEq

namespace World

/-- A world in which nothing has happened. -/
def empty : World := ⟨[], .empty, []⟩

/-- A device by its serial number. -/
def device (w : World) (serial : Nat) : Device := w.devices.getD serial (.new serial)

/-- Adds a device; its serial number is the number of devices before it. -/
def addDevice (w : World) : World × Nat :=
  ({ w with devices := w.devices ++ [.new w.devices.length] }, w.devices.length)

/-- Puts a device in its place. -/
def setDevice (w : World) (serial : Nat) (d : Device) : World :=
  { w with devices := w.devices.set serial d }

/-- Lets a device do something. -/
def onDevice {β : Type} (w : World) (serial : Nat) (f : Device → Device × β) : World × β :=
  let (d, b) := f (w.device serial)
  (w.setDevice serial d, b)

/-- Records an event. -/
def emit (w : World) (e : Event) : World := { w with log := w.log ++ [e] }

/-- Ends a call without an answer. -/
def raise {β : Type} (w : World) (f : Fault) : World × Except Fault β :=
  (w.emit (.fault f), .error f)

@[simp] theorem log_setDevice (w : World) (serial : Nat) (d : Device) :
    (w.setDevice serial d).log = w.log := rfl

@[simp] theorem pool_setDevice (w : World) (serial : Nat) (d : Device) :
    (w.setDevice serial d).pool = w.pool := rfl

@[simp] theorem devices_emit (w : World) (e : Event) : (w.emit e).devices = w.devices := rfl

@[simp] theorem pool_emit (w : World) (e : Event) : (w.emit e).pool = w.pool := rfl

@[simp] theorem log_emit (w : World) (e : Event) : (w.emit e).log = w.log ++ [e] := rfl

@[simp] theorem device_emit (w : World) (e : Event) (serial : Nat) :
    (w.emit e).device serial = w.device serial := rfl

theorem device_setDevice_self (w : World) {serial : Nat} (d : Device)
    (h : serial < w.devices.length) : (w.setDevice serial d).device serial = d := by
  simp [device, setDevice, List.getD_eq_getElem?_getD, h]

theorem device_setDevice_of_ne (w : World) {serial other : Nat} (d : Device)
    (h : other ≠ serial) : (w.setDevice serial d).device other = w.device other := by
  simp [device, setDevice, List.getD_eq_getElem?_getD, List.getElem?_set_ne (Ne.symm h)]

/-! ### The life of an entry -/

/-- Gives the handle of an entry back, if it has one. The entry has none afterwards, whatever the
device answers. -/
def release (w : World) (e : Entry) : World × Except Fault Unit :=
  match e.handle with
  | none => (w, .ok ())
  | some h =>
    match (w.emit (.destroying e.stream)).onDevice e.device (·.destroy h) with
    | (w, .ok ()) => (w, .ok ())
    | (w, .error s) => w.raise (.consistencyFault e.stream.label s)

/-- Brings an entry up: makes a handle and binds it. An entry that is up stays as it is. -/
def prepare (w : World) (e : Entry) : World × Entry × Except InitFailure Unit :=
  match e.handle with
  | some _ => (w, e, .ok ())
  | none =>
    match w.onDevice e.device (·.create) with
    | (w, .error s) => (w, e, .error ⟨e.stream.label, .create, s⟩)
    | (w, .ok h) =>
      match w.onDevice e.device (·.bind h e.stream) with
      | (w, .ok h) => (w.emit (.created e.stream), { e with handle := some h }, .ok ())
      | (w, .error s) =>
        match w.onDevice e.device (·.destroy h) with
        | (w, .ok ()) => (w, e, .error ⟨e.stream.label, .bindStream, s⟩)
        | (w, .error t) =>
          (w.emit (.releaseFailed e.stream t), e, .error ⟨e.stream.label, .bindStream, s⟩)

/-- The handle of an entry, which has to be up. -/
def require (w : World) (e : Entry) : World × Except Fault Handle :=
  match e.handle with
  | some h => (w, .ok h)
  | none => w.raise (.contractViolation e.stream.label)

/-- Gives the handle of `target` back and lets it take over everything from `source`. If that
fails, the handle of `source` is given back too. -/
def assign (w : World) (target source : Entry) : World × Entry × Except Fault Unit :=
  match w.release target with
  | (w, .ok ()) => (w, source, .ok ())
  | (w, .error f) => ((w.release source).1, target.emptied, .error f)

/-- Shares an entry under a number of its own. -/
def share (w : World) (e : Entry) : World × Nat :=
  let (pool, id) := w.pool.add e
  ({ w with pool }, id)

/-- Takes a shared entry out of the world and gives its handle back. -/
def discard (w : World) (id : Nat) : World × Except Fault Unit :=
  match w.pool.get? id with
  | none => (w, .ok ())
  | some e => { w with pool := w.pool.erase id }.release e

/-! ### Routine calls -/

/-- Runs a routine on a device and records the call if it got through. -/
def execute {ρ : Type} [Routine ρ] (w : World) (serial : Nat) (h : Handle) (r : ρ) :
    World × Except Trap (Except Status Reply × ρ) :=
  let (d, admitted, outcome) := (w.device serial).execute h r
  let w := w.setDevice serial d
  match admitted with
  | some stream => (w.emit (.called (Routine.entryPoint r) stream), outcome)
  | none => (w, outcome)

end World

end SparseDevice
