import SparseDevice.Request
import SparseDevice.Stream

/-!
# The device

The device makes handles, binds them to streams, takes them back and runs routines. It counts what
it does and keeps a list of the routine calls that got through. Each of the four kinds of call can
be armed with a status: the next call of that kind answers with the status instead, once.

Taking a handle back counts even when the answer is an armed status, since the handle is gone
either way. A routine looks at the handle before it looks at the armed status, so a call with an
unbound handle leaves the status armed.

## Main definitions

* `Handle`: a handle, by the device that made it and its number there.
* `Device`: counters, armed statuses and the list of calls.
* `Device.create`, `Device.bind`, `Device.destroy`: the life of a handle.
* `Routine`: what a device can run.
* `Device.begin`, `Device.execute`: a routine call.
-/

namespace SparseDevice

/-- A handle of a device. -/
structure Handle where
  /-- The serial number of the device that made the handle. -/
  issuer : Nat
  /-- The number of the handle; a device counts its handles from zero. -/
  id : Nat
  /-- The stream that the handle is bound to. -/
  stream : Option Stream
deriving DecidableEq

/-- A routine call that got through. -/
structure Call where
  entryPoint : String
  /-- The number of the handle. -/
  handle : Nat
  stream : Stream
deriving DecidableEq

/-- The four kinds of call that can be armed to fail. -/
inductive CallKind where
  | create
  | bind
  | destroy
  | routine
deriving DecidableEq

/-- What the next call of each kind answers, unless it is success. -/
structure Armed where
  create : Status
  bind : Status
  destroy : Status
  routine : Status
deriving DecidableEq

namespace Armed

/-- No kind of call is armed. -/
def clear : Armed := ⟨.success, .success, .success, .success⟩

/-- Sets what the next call of a kind answers. -/
def set (a : Armed) (kind : CallKind) (s : Status) : Armed :=
  match kind with
  | .create => { a with create := s }
  | .bind => { a with bind := s }
  | .destroy => { a with destroy := s }
  | .routine => { a with routine := s }

end Armed

/-- The state of a device. -/
structure Device where
  /-- The number that tells devices apart. -/
  serial : Nat
  /-- How many handles were made. -/
  created : Nat
  /-- How many times a handle was bound. -/
  bound : Nat
  /-- The handles that were taken back, the latest first. -/
  retired : List Handle
  /-- What the next calls answer. -/
  armed : Armed
  /-- The routine calls that got through, in order. -/
  calls : List Call
deriving DecidableEq

namespace Device

/-- A device that has done nothing yet. -/
def new (serial : Nat) : Device where
  serial
  created := 0
  bound := 0
  retired := []
  armed := .clear
  calls := []

/-- How many handles were taken back. -/
def destroyed (d : Device) : Nat := d.retired.length

/-- How many handles are out. -/
def live (d : Device) : Nat := d.created - d.destroyed

/-- Sets what the next call of a kind answers. Success disarms. -/
def arm (d : Device) (kind : CallKind) (s : Status) : Device :=
  { d with armed := d.armed.set kind s }

/-- Forgets the routine calls. -/
def clearCalls (d : Device) : Device := { d with calls := [] }

/-! ### The life of a handle -/

/-- Makes a handle. -/
def create (d : Device) : Device × Except Status Handle :=
  if d.armed.create.isSuccess then
    ({ d with created := d.created + 1 }, .ok ⟨d.serial, d.created, none⟩)
  else (d.arm .create .success, .error d.armed.create)

/-- Binds a handle to a stream. -/
def bind (d : Device) (h : Handle) (s : Stream) : Device × Except Status Handle :=
  if d.armed.bind.isSuccess then
    ({ d with bound := d.bound + 1 }, .ok { h with stream := some s })
  else (d.arm .bind .success, .error d.armed.bind)

/-- Takes a handle back. The handle is gone whatever the answer. -/
def destroy (d : Device) (h : Handle) : Device × Except Status Unit :=
  ({ d with retired := h :: d.retired }.arm .destroy .success, d.armed.destroy.toExcept)

@[simp] theorem destroyed_new (serial : Nat) : (new serial).destroyed = 0 := rfl

@[simp] theorem destroyed_destroy (d : Device) (h : Handle) :
    (d.destroy h).1.destroyed = d.destroyed + 1 := rfl

@[simp] theorem created_destroy (d : Device) (h : Handle) :
    (d.destroy h).1.created = d.created := rfl

@[simp] theorem bound_destroy (d : Device) (h : Handle) : (d.destroy h).1.bound = d.bound := rfl

/-! ### Routine calls -/

/-- Admits a routine call: the stream it runs on, or why it does not run. -/
def begin (d : Device) (h : Handle) (entryPoint : String) : Device × Except Status Stream :=
  match h.stream with
  | none => (d, .error .notInitialized)
  | some s =>
    if d.armed.routine.isSuccess then
      ({ d with calls := d.calls ++ [⟨entryPoint, h.id, s⟩] }, .ok s)
    else (d.arm .routine .success, .error d.armed.routine)

end Device

/-- What a device can run: a call that knows its name, its check and its effect. -/
class Routine (ρ : Type) where
  /-- The full name of the routine. -/
  entryPoint : ρ → String
  /-- Whether the operands fit together. -/
  check : ρ → Except Objection Unit
  /-- The reply or the status of the routine, and the call as it leaves it. -/
  perform : ρ → Except Trap (Except Status Reply × ρ)

instance {α : Type} [Zero α] [One α] [Add α] [Sub α] [Mul α] [Div α] [Scalar α] :
    Routine (Request α) where
  entryPoint := Request.entryPoint
  check := Request.check
  perform := Request.perform

instance : Routine Job where
  entryPoint := Job.entryPoint
  check := Job.check
  perform := Job.perform

namespace Device

/-- Runs a routine, if the call is admitted. With the outcome comes the stream of an admitted
call. -/
def execute {ρ : Type} [Routine ρ] (d : Device) (h : Handle) (r : ρ) :
    Device × Option Stream × Except Trap (Except Status Reply × ρ) :=
  match d.begin h (Routine.entryPoint r) with
  | (d, .error s) => (d, none, .ok (.error s, r))
  | (d, .ok stream) => (d, some stream, Routine.perform r)

end Device

end SparseDevice
