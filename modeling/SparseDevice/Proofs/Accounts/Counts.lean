import SparseDevice.Proofs.Ownership.Acquire

/-!
# Counters of devices

A device counts the handles that it made, the bindings and the handles that it took back. Only the
life of a handle moves these counters: arming a call, clearing the list of calls and running
routines leave them as they are, and so does every look at the tables. Bringing up an entry moves
them in one of three ways, according to the stage that it gets to.

## Main definitions

* `Device.counts`: what a device counts.
* `World.Idle`: an operation that moves no counter and leaves the shared entries alone.

## Main results

* `World.prepare_counts`: the three ways in which bringing up an entry can end.
* `World.idle_execute`: routine calls move no counter.
-/

namespace SparseDevice

namespace Device

/-- The handles made, the bindings, and the handles taken back. -/
structure Counts where
  created : Nat
  bound : Nat
  destroyed : Nat
deriving DecidableEq

/-- What a device counts. -/
def counts (d : Device) : Counts := ⟨d.created, d.bound, d.destroyed⟩

@[simp] theorem counts_arm (d : Device) (kind : CallKind) (t : Status) :
    (d.arm kind t).counts = d.counts := rfl

@[simp] theorem counts_clearCalls (d : Device) : d.clearCalls.counts = d.counts := rfl

section Calls

variable {d d' : Device} {h h' : Handle} {s : Stream} {t : Status}

theorem counts_create (hc : d.create = (d', .ok h)) :
    d'.counts = { d.counts with created := d.counts.created + 1 } := by
  rw [create] at hc
  split at hc <;> cases hc
  rfl

theorem counts_create_error (hc : d.create = (d', .error t)) : d'.counts = d.counts := by
  rw [create] at hc
  split at hc <;> cases hc
  rfl

theorem counts_bind (hb : d.bind h s = (d', .ok h')) :
    d'.counts = { d.counts with bound := d.counts.bound + 1 } := by
  rw [bind] at hb
  split at hb <;> cases hb
  rfl

theorem counts_bind_error (hb : d.bind h s = (d', .error t)) : d'.counts = d.counts := by
  rw [bind] at hb
  split at hb <;> cases hb
  rfl

theorem counts_destroy {r : Except Status Unit} (hd : d.destroy h = (d', r)) :
    d'.counts = { d.counts with destroyed := d.counts.destroyed + 1 } := by
  cases hd
  rfl

end Calls

theorem counts_begin (d : Device) (h : Handle) (entryPoint : String) :
    (d.begin h entryPoint).1.counts = d.counts := by
  rcases d.begin_cases h entryPoint with ⟨-, hb⟩ | ⟨s, -, -, hb⟩ | ⟨s, -, -, hb⟩ <;> rw [hb] <;> rfl

end Device

namespace World

variable {w w' w'' : World} {serial : Nat}

/-- What the devices count, and the shared entries, are as before. -/
structure Idle (w w' : World) : Prop where
  pool : w'.pool = w.pool
  counts : ∀ i, (w'.device i).counts = (w.device i).counts

theorem Idle.refl (w : World) : Idle w w := ⟨rfl, fun _ => rfl⟩

theorem Idle.trans (h : Idle w w') (h' : Idle w' w'') : Idle w w'' :=
  ⟨h'.pool.trans h.pool, fun i => (h'.counts i).trans (h.counts i)⟩

theorem idle_emit (w : World) (e : Event) : Idle w (w.emit e) := ⟨rfl, fun _ => rfl⟩

/-- What a change of one device leaves as it is there, it leaves as it is everywhere. -/
theorem apply_setDevice {β : Type} (f : Device → β) {d : Device} (hs : serial < w.devices.length)
    (hd : f d = f (w.device serial)) (i : Nat) :
    f ((w.setDevice serial d).device i) = f (w.device i) := by
  by_cases hi : i = serial
  · rw [hi, device_setDevice_self w d hs, hd]
  · rw [device_setDevice_of_ne w d hi]

theorem idle_setDevice {d : Device} (hs : serial < w.devices.length)
    (hd : d.counts = (w.device serial).counts) : Idle w (w.setDevice serial d) :=
  ⟨rfl, apply_setDevice Device.counts hs hd⟩

theorem idle_execute {ρ : Type} [Routine ρ] (hs : serial < w.devices.length) (h : Handle) (r : ρ) :
    Idle w (w.execute serial h r).1 := by
  have hdevice : Idle w (w.setDevice serial ((w.device serial).execute h r).1) := by
    refine idle_setDevice hs ?_
    rw [Device.execute_fst, Device.counts_begin]
  rcases hx : (w.device serial).execute h r with ⟨d, admitted, outcome⟩
  rw [hx] at hdevice
  rw [execute, hx]
  cases admitted with
  | none => exact hdevice
  | some stream => exact hdevice.trans (idle_emit _ _)

/-! ### Bringing up an entry -/

/-- What a device does is all that happens to it. -/
theorem onDevice_self {β : Type} {f : Device → Device × β} {b : β}
    (hs : serial < w.devices.length) (hx : w.onDevice serial f = (w', b)) :
    f (w.device serial) = (w'.device serial, b) ∧ serial < w'.devices.length := by
  rw [onDevice_eq] at hx
  cases hx
  refine ⟨?_, by simpa [setDevice] using hs⟩
  rw [device_setDevice_self w _ hs]

/-- An entry comes up, or it fails to be made, or it fails to be bound and its handle goes back. -/
theorem prepare_counts {e : Entry} {c : Device.Counts} (hd : e.device < w.devices.length)
    (he : e.handle = none) (hc : (w.device e.device).counts = c) :
    ((w.prepare e).2.2 = .ok () ∧ ((w.prepare e).1.device e.device).counts =
        { c with created := c.created + 1, bound := c.bound + 1 }) ∨
      (∃ f, (w.prepare e).2.2 = .error f ∧ f.stage = .create ∧
        ((w.prepare e).1.device e.device).counts = c) ∨
      ∃ f, (w.prepare e).2.2 = .error f ∧ f.stage = .bindStream ∧
        ((w.prepare e).1.device e.device).counts =
          { c with created := c.created + 1, destroyed := c.destroyed + 1 } := by
  rw [prepare, he]
  rcases hcreate : w.onDevice e.device (·.create) with ⟨w₁, t | h⟩
  · obtain ⟨hmade, -⟩ := onDevice_self hd hcreate
    refine .inr (.inl ⟨_, rfl, rfl, ?_⟩)
    exact (Device.counts_create_error hmade).trans hc
  obtain ⟨hmade, hlt⟩ := onDevice_self hd hcreate
  have hone := Device.counts_create hmade
  rw [hc] at hone
  simp only
  rcases hbind : w₁.onDevice e.device (·.bind h e.stream) with ⟨w₂, t | h'⟩
  · -- the handle goes back, whatever the device answers
    obtain ⟨hbound, hlt'⟩ := onDevice_self hlt hbind
    have htwo := Device.counts_bind_error hbound
    rw [hone] at htwo
    simp only
    rcases hdestroy : w₂.onDevice e.device (·.destroy h) with ⟨w₃, r⟩
    obtain ⟨hback, -⟩ := onDevice_self hlt' hdestroy
    have hthree := Device.counts_destroy hback
    rw [htwo] at hthree
    cases r with
    | ok u => exact .inr (.inr ⟨_, rfl, rfl, hthree⟩)
    | error t => exact .inr (.inr ⟨_, rfl, rfl, hthree⟩)
  · obtain ⟨hbound, -⟩ := onDevice_self hlt hbind
    have htwo := Device.counts_bind hbound
    rw [hone] at htwo
    exact .inl ⟨rfl, htwo⟩

end World

end SparseDevice
