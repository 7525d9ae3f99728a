import SparseDevice.Proofs.Ownership.Acquire

/-!
# Tenures

While an entry is up, it has a handle for its stream. This is a tenure of the handle, and the log
records where a tenure begins and where it ends, each time with nothing but the stream. A handle
that is made and given back without a tenure, because it could not be bound, leaves no such record,
and neither do the handles that no entry owns.

`Course p w w' begun ended` says which tenures begin and which end on the way from `w` to `w'`, in
the order of the log. An operation on an entry works on one device only; `p` says which devices may
have changed, and all others are exactly as they were.

## Main definitions

* `Entry.tenures`: the tenure of an entry that is up.
* `World.opened`, `World.closed`: the streams in the log, where a tenure begins and where it ends.
* `World.Course`: what an operation does to tenures and to devices.

## Main results

* `World.course_release`, `World.course_prepare`, `World.assign_course`: the life of an entry.
* `World.course_execute`: routine calls have nothing to do with tenures.
-/

namespace SparseDevice

open Handle (Key)

/-- A handle and the stream of the entry that has it. -/
abbrev Tenure := Key × Stream

namespace Entry

/-- The tenure of an entry, if it is up. -/
def tenures (e : Entry) : List Tenure := (e.handle.map fun h => (h.key, e.stream)).toList

@[simp] theorem tenures_emptied (e : Entry) : e.emptied.tenures = [] := rfl

theorem tenures_of_handle {e : Entry} {h : Handle} (he : e.handle = some h) :
    e.tenures = [(h.key, e.stream)] := by
  rw [tenures, he]
  rfl

theorem tenures_of_none {e : Entry} (he : e.handle = none) : e.tenures = [] := by
  rw [tenures, he]
  rfl

theorem map_fst_tenures (e : Entry) : e.tenures.map Prod.fst = e.keys := by
  cases he : e.handle with
  | none => rw [tenures_of_none he, keys_of_none he, List.map_nil]
  | some h => rw [tenures_of_handle he, keys_of_handle he, List.map_singleton]

end Entry

namespace Event

/-- The stream of a tenure that begins. -/
def opened? : Event → Option Stream
  | created s => some s
  | _ => none

/-- The stream of a tenure that ends. -/
def closed? : Event → Option Stream
  | destroying s => some s
  | _ => none

end Event

namespace World

variable {p : Nat → Prop} {w w' w'' : World} {serial : Nat} {e : Entry}

/-- The streams of the tenures that began, in order. -/
def opened (w : World) : List Stream := w.log.filterMap Event.opened?

/-- The streams of the tenures that ended, in order. -/
def closed (w : World) : List Stream := w.log.filterMap Event.closed?

@[simp] theorem opened_emit (w : World) (e : Event) :
    (w.emit e).opened = w.opened ++ e.opened?.toList := by
  rw [opened, log_emit, List.filterMap_append, opened]
  cases he : e.opened? with
  | none => rw [List.filterMap_cons_none he]; rfl
  | some s => rw [List.filterMap_cons_some he]; rfl

@[simp] theorem closed_emit (w : World) (e : Event) :
    (w.emit e).closed = w.closed ++ e.closed?.toList := by
  rw [closed, log_emit, List.filterMap_append, closed]
  cases he : e.closed? with
  | none => rw [List.filterMap_cons_none he]; rfl
  | some s => rw [List.filterMap_cons_some he]; rfl

@[simp] theorem opened_setDevice (w : World) (serial : Nat) (d : Device) :
    (w.setDevice serial d).opened = w.opened := rfl

@[simp] theorem closed_setDevice (w : World) (serial : Nat) (d : Device) :
    (w.setDevice serial d).closed = w.closed := rfl

/-! ### The course of an operation -/

/-- What happens to tenures and to devices while the shared entries stay as they are. The devices
outside `p` are left alone. -/
structure Course (p : Nat → Prop) (w w' : World) (begun ended : List Tenure) : Prop where
  pool : w'.pool = w.pool
  opened : w'.opened = w.opened ++ begun.map Prod.snd
  closed : w'.closed = w.closed ++ ended.map Prod.snd
  /-- The handle of a tenure that ends was taken back. -/
  given : ∀ k, (ended.map Prod.fst).count k + w.retired.count k ≤ w'.retired.count k
  calm : ∀ i, ¬p i → w'.device i = w.device i

namespace Course

variable {begun begun' ended ended' : List Tenure}

theorem refl (p : Nat → Prop) (w : World) : Course p w w [] [] :=
  ⟨rfl, (List.append_nil _).symm, (List.append_nil _).symm, fun _ => by simp, fun _ _ => rfl⟩

theorem trans (h : Course p w w' begun ended) (h' : Course p w' w'' begun' ended') :
    Course p w w'' (begun ++ begun') (ended ++ ended') where
  pool := h'.pool.trans h.pool
  opened := by rw [h'.opened, h.opened, List.map_append, List.append_assoc]
  closed := by rw [h'.closed, h.closed, List.map_append, List.append_assoc]
  given k := by
    have hk := h.given k
    have hk' := h'.given k
    rw [List.map_append, List.count_append]
    omega
  calm i hi := (h'.calm i hi).trans (h.calm i hi)

end Course

/-- What was taken back stays so. -/
theorem Turnover.retired_le {m : List Key} {b : List (Nat × Key)} (h : Turnover w w' m b)
    (k : Key) : (b.map Prod.snd).count k + w.retired.count k ≤ w'.retired.count k := by
  have hk := h.retired.count_eq k
  rw [List.count_append] at hk
  exact Nat.le_of_eq hk.symm

/-- An event that has nothing to do with tenures. -/
theorem course_emit (p : Nat → Prop) (w : World) {e : Event} (hopened : e.opened? = none)
    (hclosed : e.closed? = none) : Course p w (w.emit e) [] [] where
  pool := rfl
  opened := by simp [hopened]
  closed := by simp [hclosed]
  given k := by simpa using (turnover_emit w e).retired_le k
  calm _ _ := rfl

/-- What happens on one device alone. -/
theorem course_onDevice {β : Type} {f : Device → Device × β} {m : List Key} {b : List (Nat × Key)}
    (hp : p serial) (ht : Turnover w (w.onDevice serial f).1 m b) :
    Course p w (w.onDevice serial f).1 [] [] where
  pool := rfl
  opened := (List.append_nil _).symm
  closed := (List.append_nil _).symm
  given k := by
    have hk := ht.retired_le k
    simp only [List.map_nil, List.count_nil]
    omega
  calm i hi := by
    have hne : i ≠ serial := fun hi' => hi (hi' ▸ hp)
    exact device_setDevice_of_ne w _ hne

theorem course_addDevice (hp : p w.devices.length) : Course p w w.addDevice.1 [] [] where
  pool := rfl
  opened := (List.append_nil _).symm
  closed := (List.append_nil _).symm
  given k := by simpa using (turnover_addDevice w).retired_le k
  calm i hi := by
    have hne : i ≠ w.devices.length := fun hi' => hi (hi' ▸ hp)
    rcases Nat.lt_or_gt_of_ne hne with hlt | hgt
    · simp [device, addDevice, List.getD_eq_getElem?_getD, List.getElem?_append_left, hlt]
    · have hlen : (w.devices ++ [Device.new w.devices.length]).length ≤ i := by simp; omega
      simp only [device, addDevice, List.getD_eq_getElem?_getD, List.getElem?_eq_none hlen,
        List.getElem?_eq_none (Nat.le_of_lt hgt)]

/-- Routine calls have nothing to do with tenures. -/
theorem course_execute {ρ : Type} [Routine ρ] (hs : serial < w.devices.length) (hp : p serial)
    (h : Handle) (r : ρ) : Course p w (w.execute serial h r).1 [] [] := by
  have ht := turnover_execute hs h r
  refine ⟨ht.pool, ?_, ?_, fun k => by simpa using ht.retired_le k, fun i hi => ?_⟩ <;>
    rw [execute] <;> rcases (w.device serial).execute h r with ⟨d, admitted, outcome⟩ <;>
    cases admitted
  · exact (List.append_nil _).symm
  · simp [Event.opened?]
  · exact (List.append_nil _).symm
  · simp [Event.closed?]
  all_goals
    have hne : i ≠ serial := fun hi' => hi (hi' ▸ hp)
    exact device_setDevice_of_ne w _ hne

/-! ### The life of an entry -/

/-- A tenure begins. -/
theorem course_created (p : Nat → Prop) (w : World) (t : Tenure) :
    Course p w (w.emit (.created t.2)) [t] [] where
  pool := rfl
  opened := opened_emit w _
  closed := closed_emit w _
  given k := by simpa using (turnover_emit w (.created t.2)).retired_le k
  calm _ _ := rfl

section Numbered

variable (hn : w.Numbered)

include hn

theorem course_create (hs : serial < w.devices.length) (hp : p serial) :
    Course p w (w.onDevice serial (·.create)).1 [] [] := by
  rcases onDevice_create_cases hn hs with ⟨w', id, hc, ht⟩ | ⟨w', t, hc, ht⟩
  · refine course_onDevice hp (m := [(serial, id)]) (b := []) ?_
    rwa [hc]
  · refine course_onDevice hp (m := []) (b := []) ?_
    rwa [hc]

omit hn in
theorem course_bind (hs : serial < w.devices.length) (hp : p serial) (h : Handle) (s : Stream) :
    Course p w (w.onDevice serial (·.bind h s)).1 [] [] := by
  rcases onDevice_bind_cases hs h s with ⟨w', hb, ht⟩ | ⟨w', t, hb, ht⟩
  · refine course_onDevice hp (m := []) (b := []) ?_
    rwa [hb]
  · refine course_onDevice hp (m := []) (b := []) ?_
    rwa [hb]

variable (hd : e.device < w.devices.length) (hp : p e.device)

include hd hp

/-- The tenure of an entry ends when the entry gives its handle back, whatever the device
answers. -/
theorem course_release : Course p w (w.release e).1 [] e.tenures := by
  rw [release]
  cases he : e.handle with
  | none =>
    rw [Entry.tenures_of_none he]
    exact .refl p w
  | some h =>
    have ht := (turnover_emit w (.destroying e.stream)).trans
      (turnover_destroy (w := w.emit (.destroying e.stream)) hn hd h)
    have hended : Course p w
        ((w.emit (.destroying e.stream)).onDevice e.device (·.destroy h)).1 [] e.tenures := by
      rw [Entry.tenures_of_handle he]
      exact ⟨rfl, opened_emit w _, closed_emit w _, ht.retired_le,
        (course_onDevice hp (turnover_destroy (w := w.emit (.destroying e.stream)) hn hd h)).calm⟩
    rcases hx : (w.emit (.destroying e.stream)).onDevice e.device (·.destroy h) with ⟨w', r⟩
    rw [hx] at hended
    simp only [hx]
    cases r with
    | ok u => exact hended
    | error t =>
      have hboth := hended.trans
        (course_emit p w' (e := .fault (.consistencyFault e.stream.label t)) rfl rfl)
      rw [List.append_nil, List.append_nil] at hboth
      exact hboth

/-- An entry comes up with a tenure, or it stays down and nothing is said of one. -/
theorem course_prepare (he : e.handle = none) :
    Course p w (w.prepare e).1 (w.prepare e).2.1.tenures [] := by
  have hcreate := course_create hn hd hp
  have hdown := Entry.tenures_of_none he
  obtain ⟨m, hmade⟩ : ∃ m, Turnover w (w.onDevice e.device (·.create)).1 m [] := by
    rcases onDevice_create_cases hn hd with ⟨w', id, hc, ht⟩ | ⟨w', t, hc, ht⟩ <;> rw [hc]
    · exact ⟨_, ht⟩
    · exact ⟨_, ht⟩
  rw [prepare, he]
  rcases hc : w.onDevice e.device (·.create) with ⟨w₁, t | h⟩ <;> rw [hc] at hcreate hmade
  · simp only [hdown]
    exact hcreate
  have hbind := course_bind (hmade.lt hd) hp h e.stream
  obtain ⟨m', hbound⟩ : ∃ m', Turnover w (w₁.onDevice e.device (·.bind h e.stream)).1 m' [] := by
    rcases onDevice_bind_cases (hmade.lt hd) h e.stream with ⟨w', hb, ht⟩ | ⟨w', t, hb, ht⟩ <;>
      rw [hb]
    · exact ⟨_, hmade.trans ht⟩
    · exact ⟨_, hmade.trans ht⟩
  simp only
  rcases hb : w₁.onDevice e.device (·.bind h e.stream) with ⟨w₂, t | h'⟩ <;> rw [hb] at hbind hbound
  · -- the fresh handle goes back without having had a tenure
    have hback := (hcreate.trans hbind).trans (course_onDevice hp
      (turnover_destroy (hbound.numbered hn) (hbound.lt hd) h))
    simp only
    rcases hx : w₂.onDevice e.device (·.destroy h) with ⟨w₃, t' | u⟩ <;> rw [hx] at hback
    · simp only [hdown]
      exact hback.trans (course_emit p w₃ (e := .releaseFailed e.stream t') rfl rfl)
    · simp only [hdown]
      exact hback
  · exact (hcreate.trans hbind).trans (course_created p w₂ (h'.key, e.stream))

end Numbered

/-- The target takes over the source, and its own tenure ends; if its handle is given back with a
fault, both tenures end. -/
theorem assign_course {target source : Entry} (hn : w.Numbered)
    (ht : target.device < w.devices.length) (hs : source.device < w.devices.length)
    (hgenuine : target.Genuine) (hp : p target.device) (hp' : p source.device) :
    (∃ w' r, w.assign target source = (w', source, r) ∧ Course p w w' [] target.tenures) ∨
      ∃ w' r, w.assign target source = (w', target.emptied, r) ∧
        Course p w w' [] (target.tenures ++ source.tenures) := by
  rw [assign]
  have hrelease := course_release hn ht hp
  have hturn := turnover_release hn ht hgenuine
  rcases hx : w.release target with ⟨w₁, f | u⟩ <;> rw [hx] at hrelease hturn
  · exact .inr ⟨_, _, rfl,
      hrelease.trans (course_release (hturn.numbered hn) (hturn.lt hs) hp')⟩
  · exact .inl ⟨w₁, _, rfl, hrelease⟩

end World

/-! ### Acquisitions end no tenure -/

namespace World

theorem closed_onDevice {β : Type} (w : World) (serial : Nat) (f : Device → Device × β) :
    (w.onDevice serial f).1.closed = w.closed := rfl

theorem closed_prepare (w : World) (e : Entry) : (w.prepare e).1.closed = w.closed := by
  rw [prepare]
  cases e.handle with
  | some h => rfl
  | none =>
    have hcreate := closed_onDevice w e.device (·.create)
    rcases hc : w.onDevice e.device (·.create) with ⟨w₁, t | h⟩ <;> rw [hc] at hcreate
    · exact hcreate
    have hbind := (closed_onDevice w₁ e.device (·.bind h e.stream)).trans hcreate
    simp only
    rcases hb : w₁.onDevice e.device (·.bind h e.stream) with ⟨w₂, t | h'⟩ <;> rw [hb] at hbind
    · have hdestroy := (closed_onDevice w₂ e.device (·.destroy h)).trans hbind
      simp only
      rcases hd : w₂.onDevice e.device (·.destroy h) with ⟨w₃, t' | u⟩ <;> rw [hd] at hdestroy
      · exact ((closed_emit w₃ _).trans (List.append_nil _)).trans hdestroy
      · exact hdestroy
    · exact ((closed_emit w₂ _).trans (List.append_nil _)).trans hbind

end World

namespace Cache

theorem closed_acquire (w : World) (c : Cache) (s : Stream) :
    (c.acquire w s).1.closed = w.closed := by
  have h := World.closed_prepare (w.emit (.creating s)) (.new c.device s)
  rw [World.closed_emit] at h
  rw [acquire_eq_supply, supply]
  cases c.lookup s with
  | some id => rfl
  | none =>
    simp only
    rcases hx : (w.emit (.creating s)).prepare (.new c.device s) with ⟨w', e, f | u⟩ <;>
      rw [hx] at h
    · exact h.trans (List.append_nil _)
    · exact h.trans (List.append_nil _)

theorem closed_acquireAll (w : World) (c : Cache) (streams : List Stream) :
    (c.acquireAll w streams).1.closed = w.closed := by
  induction streams generalizing w c with
  | nil => rfl
  | cons s rest ih => exact (ih _ _).trans (closed_acquire w c s)

end Cache

end SparseDevice
