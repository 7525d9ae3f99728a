import SparseDevice.Proofs.Accounts.Counts
import SparseDevice.Proofs.Race.Smooth

/-!
# Handles that are refused

A device that is armed refuses to make a handle, or to bind the one that it made. The two refusals
leave different traces. The first uses up its own status and nothing else. The second comes when the
handle is there already, so the handle goes back at once, and if the device is armed against that as
well, this is used up on the way and only shows as a warning: the answer is why the handle could not
be bound.

Everything that a refusal does is a function of the device before it. So an entry that does not come
up leaves behind a world that can be written down, and what it does not touch can be read off.

## Main definitions

* `Device.refusal?`: why a device refuses a handle for a stream, if it does.
* `Device.refused`, `World.refuse`: the device and the world after that.

## Main results

* `World.prepare_of_refusal`, `Cache.supply_of_refusal`: an entry and an acquisition that are
  refused.
-/

namespace SparseDevice

/-! ### The device -/

namespace Device

/-- Why the device refuses a handle for a stream, if it does. -/
def refusal? (d : Device) (stream : Stream) : Option InitFailure :=
  if d.armed.create ≠ .success then some ⟨stream.label, .create, d.armed.create⟩
  else if d.armed.bind ≠ .success then some ⟨stream.label, .bindStream, d.armed.bind⟩
  else none

/-- The device after it refused to make a handle. -/
def creationRefused (d : Device) : Device := d.arm .create .success

/-- The device after it made a handle, refused to bind it and took it back. -/
def bindingRefused (d : Device) : Device :=
  { d with
    created := d.created + 1
    retired := ⟨d.serial, d.created, none⟩ :: d.retired
    armed := { d.armed with bind := .success, destroy := .success } }

/-- The device after it refused a handle. -/
def refused (d : Device) : Device :=
  if d.armed.create ≠ .success then d.creationRefused else d.bindingRefused

/-- The warning that a handle could not be taken back, if the device is armed against it. -/
def warnings (d : Device) (stream : Stream) : List Event :=
  if d.armed.create = .success ∧ d.armed.destroy ≠ .success then
    [.releaseFailed stream d.armed.destroy]
  else []

variable {d : Device} {stream : Stream}

theorem refusal?_eq_none_iff : d.refusal? stream = none ↔ d.Unarmed := by
  rw [refusal?, Unarmed]
  by_cases hcreate : d.armed.create = .success
  · by_cases hbind : d.armed.bind = .success
    · simp [hcreate, hbind]
    · simp [hcreate, hbind]
  · simp [hcreate]

theorem exists_refusal (h : ¬d.Unarmed) (stream : Stream) : ∃ f, d.refusal? stream = some f :=
  Option.ne_none_iff_exists'.mp fun hnone => h (refusal?_eq_none_iff.mp hnone)

/-- A refusal is no routine call. -/
@[simp] theorem calls_refused (d : Device) : d.refused.calls = d.calls := by
  rw [refused]
  split <;> rfl

/-- A handle that was made is taken back. -/
@[simp] theorem live_refused (d : Device) : d.refused.live = d.live := by
  rw [refused]
  split
  · rfl
  · exact Nat.add_sub_add_right ..

end Device

/-! ### The world -/

namespace World

/-- The world after a device refused a handle for a stream; what was announced stands in the log
before the warning. -/
def refuse (w : World) (announced : List Event) (serial : Nat) (stream : Stream) : World :=
  { w.setDevice serial (w.device serial).refused with
    log := w.log ++ announced ++ (w.device serial).warnings stream }

section Refuse

variable {w : World} {announced : List Event} {serial other : Nat} {stream : Stream}

@[simp] theorem log_refuse : (w.refuse announced serial stream).log =
    w.log ++ announced ++ (w.device serial).warnings stream := rfl

theorem device_refuse_self (hs : serial < w.devices.length) :
    (w.refuse announced serial stream).device serial = (w.device serial).refused :=
  device_setDevice_self w _ hs

theorem device_refuse_of_ne (h : other ≠ serial) :
    (w.refuse announced serial stream).device other = w.device other :=
  device_setDevice_of_ne w _ h

end Refuse

/-- What a device does twice in a row. -/
theorem onDevice_setDevice {β : Type} {w : World} {serial : Nat} (hs : serial < w.devices.length)
    (d : Device) (f : Device → Device × β) :
    (w.setDevice serial d).onDevice serial f = (w.setDevice serial (f d).1, (f d).2) := by
  rw [onDevice_eq, device_setDevice_self w d hs, setDevice, setDevice, setDevice, List.set_set]

/-- An entry that is refused stays down. -/
theorem prepare_of_refusal {w : World} {e : Entry} {f : InitFailure}
    (hd : e.device < w.devices.length) (he : e.handle = none)
    (hf : (w.device e.device).refusal? e.stream = some f) :
    w.prepare e = (w.refuse [] e.device e.stream, e, .error f) := by
  rw [refuse, List.append_nil, Device.refused, Device.warnings]
  generalize hdevice : w.device e.device = d at hf
  rw [Device.refusal?] at hf
  rw [prepare, he]
  simp only [onDevice_eq w, hdevice]
  rcases d.create_cases with ⟨hcreate, hc⟩ | ⟨hcreate, hc⟩
  · rw [if_neg (not_not.mpr hcreate)] at hf ⊢
    split at hf
    · next hbind =>
      cases hf
      have hb : Device.bind { d with created := d.created + 1 } ⟨d.serial, d.created, none⟩ e.stream =
          (Device.arm { d with created := d.created + 1 } .bind .success, .error d.armed.bind) := by
        rcases Device.bind_cases { d with created := d.created + 1 } ⟨d.serial, d.created, none⟩
          e.stream with ⟨hunarmed, -⟩ | ⟨-, hb⟩
        · exact absurd hunarmed hbind
        · exact hb
      -- the handle goes back whatever the device answers, and the answer is for the log only
      have hback : Device.destroy (Device.arm { d with created := d.created + 1 } .bind .success)
          ⟨d.serial, d.created, none⟩ = (d.bindingRefused, d.armed.destroy.toExcept) := rfl
      simp only [hc, onDevice_setDevice hd, hb, hback]
      by_cases hdestroy : d.armed.destroy = .success
      · rw [if_neg fun h => h.2 hdestroy, List.append_nil, hdestroy, Status.toExcept_success]
        rfl
      · rw [if_pos ⟨hcreate, hdestroy⟩, Status.toExcept_of_ne hdestroy]
        rfl
    · cases hf
  · rw [if_pos hcreate] at hf
    cases hf
    rw [if_pos hcreate, if_neg fun h => hcreate h.1, List.append_nil]
    simp only [hc]
    rfl

end World

/-- An acquisition that is refused keeps nothing. -/
theorem Cache.supply_of_refusal {w : World} {c : Cache} {stream : Stream} {f : InitFailure}
    (hd : c.device < w.devices.length) (hnone : c.lookup stream = none)
    (hf : (w.device c.device).refusal? stream = some f) :
    c.supply w stream = (w.refuse [.creating stream] c.device stream, c, .error f) := by
  have hprepare := World.prepare_of_refusal (w := w.emit (.creating stream))
    (e := .new c.device stream) hd rfl hf
  have hannounced : (w.emit (.creating stream)).refuse [] c.device stream =
      w.refuse [.creating stream] c.device stream := by
    rw [World.refuse, World.refuse, List.append_nil]
    rfl
  rw [supply, hnone]
  simp only [hprepare]
  rw [← hannounced]
  rfl

end SparseDevice
