import SparseDevice.Proofs.Table
import SparseDevice.World

/-!
# Handles made and handles taken back

A handle is known by the device that made it and its number there; binding it to a stream changes
neither. Every device counts the handles that it made and lists those that it took back, so the
world as a whole knows both. What an operation does to these two lists is all that the ownership of
handles asks of it.

## The shape of the lemmas

`Turnover w w' made back` says that `w'` comes from `w` by making `made` and taking back `back`, in
whatever order, while the shared entries stay as they are. Operations that make a handle and give it
back at once show up in both lists. Each operation of a device gets one lemma with its possible
outcomes; the operations on entries are put together from these and need not look at a device again.

## Main definitions

* `Handle.key`: what tells handles apart.
* `World.made`, `World.returns`: the handles made, and the handles taken back with their takers.
* `World.Numbered`: devices stand in the places of their serial numbers.
* `World.Turnover`: what an operation made and took back.

## Main results

* `World.nodup_made`: no handle is made twice.
* `World.turnover_release`, `World.prepare_cases`, `World.assign_cases`: the life of an entry.
-/

namespace SparseDevice

namespace Handle

/-- The serial number of a device and the number of one of its handles. -/
abbrev Key := Nat × Nat

/-- What tells handles apart. -/
def key (h : Handle) : Key := (h.issuer, h.id)

/-- A handle that comes back to the device that made it. -/
def Key.homeward (k : Key) : Nat × Key := (k.1, k)

end Handle

open Handle (Key)

namespace Device

/-- The handles that the device made. -/
def made (d : Device) : List Key := (List.range d.created).map fun id => (d.serial, id)

/-- The handles that the device took back, each with the device that took it. -/
def returns (d : Device) : List (Nat × Key) := d.retired.map fun h => (d.serial, h.key)

@[simp] theorem length_made (d : Device) : d.made.length = d.created := by simp [made]

@[simp] theorem length_returns (d : Device) : d.returns.length = d.destroyed := by
  simp [returns, destroyed]

theorem create_cases (d : Device) :
    (d.armed.create = .success ∧
        d.create = ({ d with created := d.created + 1 }, .ok ⟨d.serial, d.created, none⟩)) ∨
      (d.armed.create ≠ .success ∧
        d.create = (d.arm .create .success, .error d.armed.create)) := by
  by_cases ha : d.armed.create = .success
  · exact .inl ⟨ha, by simp [create, ha]⟩
  · exact .inr ⟨ha, by simp [create, ha]⟩

theorem bind_cases (d : Device) (h : Handle) (s : Stream) :
    (d.armed.bind = .success ∧
        d.bind h s = ({ d with bound := d.bound + 1 }, .ok { h with stream := some s })) ∨
      (d.armed.bind ≠ .success ∧ d.bind h s = (d.arm .bind .success, .error d.armed.bind)) := by
  by_cases ha : d.armed.bind = .success
  · exact .inl ⟨ha, by simp [bind, ha]⟩
  · exact .inr ⟨ha, by simp [bind, ha]⟩

/-- Without a stream a call is turned away and changes nothing. With one it is turned away by an
armed status, which is used up, or gets through. -/
theorem begin_cases (d : Device) (h : Handle) (entryPoint : String) :
    (h.stream = none ∧ d.begin h entryPoint = (d, .error .notInitialized)) ∨
      (∃ s, h.stream = some s ∧ d.armed.routine = .success ∧
        d.begin h entryPoint = ({ d with calls := d.calls ++ [⟨entryPoint, h.id, s⟩] }, .ok s)) ∨
      ∃ s, h.stream = some s ∧ d.armed.routine ≠ .success ∧
        d.begin h entryPoint = (d.arm .routine .success, .error d.armed.routine) := by
  cases hstream : h.stream with
  | none => exact .inl ⟨rfl, by rw [begin, hstream]⟩
  | some s =>
    by_cases ha : d.armed.routine = .success
    · exact .inr (.inl ⟨s, rfl, ha, by simp [begin, hstream, ha]⟩)
    · exact .inr (.inr ⟨s, rfl, ha, by simp [begin, hstream, ha]⟩)

theorem execute_fst {ρ : Type} [Routine ρ] (d : Device) (h : Handle) (r : ρ) :
    (d.execute h r).1 = (d.begin h (Routine.entryPoint r)).1 := by
  rw [execute]
  split <;> next hb => rw [hb]

end Device

namespace Entry

/-- The handle of an entry, if it has one. -/
def keys (e : Entry) : List Key := (e.handle.map Handle.key).toList

/-- The handle of an entry comes from the device of the entry. -/
def Genuine (e : Entry) : Prop := ∀ h, e.handle = some h → h.issuer = e.device

/-- An entry that is up has a handle of its device, bound to its stream. -/
def Ready (e : Entry) : Prop :=
  ∃ h, e.handle = some h ∧ h.issuer = e.device ∧ h.stream = some e.stream

@[simp] theorem keys_new (device : Nat) (s : Stream) : (new device s).keys = [] := rfl

@[simp] theorem keys_emptied (e : Entry) : e.emptied.keys = [] := rfl

theorem keys_of_handle {e : Entry} {h : Handle} (he : e.handle = some h) : e.keys = [h.key] := by
  simp [keys, he]

theorem keys_of_none {e : Entry} (he : e.handle = none) : e.keys = [] := by
  simp [keys, he]

theorem mem_keys_iff {e : Entry} {k : Key} :
    k ∈ e.keys ↔ ∃ h, e.handle = some h ∧ h.key = k := by
  simp [keys]

theorem genuine_of_none {e : Entry} (he : e.handle = none) : e.Genuine :=
  fun _ hh => absurd (he.symm.trans hh) nofun

theorem genuine_new (device : Nat) (s : Stream) : (new device s).Genuine := genuine_of_none rfl

theorem genuine_emptied (e : Entry) : e.emptied.Genuine := genuine_of_none rfl

theorem Ready.genuine {e : Entry} (he : e.Ready) : e.Genuine := by
  intro h hh
  obtain ⟨_, hh', hissuer, -⟩ := he
  cases hh.symm.trans hh'
  exact hissuer

end Entry

namespace World

variable {w w' w'' : World} {serial : Nat}

/-- The handles that were made. -/
def made (w : World) : List Key := w.devices.flatMap Device.made

/-- The handles that were taken back, each with the device that took it. -/
def returns (w : World) : List (Nat × Key) := w.devices.flatMap Device.returns

/-- The handles that were taken back. -/
def retired (w : World) : List Key := w.returns.map Prod.snd

/-- Every device stands in the place of its serial number. -/
def Numbered (w : World) : Prop := ∀ serial, (w.device serial).serial = serial

theorem device_of_lt (h : serial < w.devices.length) : w.device serial = w.devices[serial] := by
  simp [device, List.getD_eq_getElem?_getD, h]

theorem device_of_le (h : w.devices.length ≤ serial) : w.device serial = .new serial := by
  simp [device, List.getD_eq_getElem?_getD, h]

theorem device_mem (h : serial < w.devices.length) : w.device serial ∈ w.devices := by
  rw [device_of_lt h]
  exact List.getElem_mem h

theorem Numbered.exists_of_mem (hn : w.Numbered) {d : Device} (hd : d ∈ w.devices) :
    d.serial < w.devices.length ∧ w.device d.serial = d := by
  obtain ⟨i, hi, rfl⟩ := List.getElem_of_mem hd
  have hs : w.devices[i].serial = i := by rw [← device_of_lt hi, hn i]
  rw [hs]
  exact ⟨hi, device_of_lt hi⟩

theorem mem_made_iff (hn : w.Numbered) {k : Key} :
    k ∈ w.made ↔ k.2 < (w.device k.1).created := by
  constructor
  · intro hk
    obtain ⟨d, hd, hk⟩ := List.mem_flatMap.mp hk
    obtain ⟨id, hid, rfl⟩ := List.mem_map.mp hk
    rw [(hn.exists_of_mem hd).2]
    exact List.mem_range.mp hid
  · intro hk
    have hlt : k.1 < w.devices.length := by
      by_contra hge
      rw [device_of_le (Nat.not_lt.mp hge)] at hk
      exact Nat.not_lt_zero _ hk
    refine List.mem_flatMap.mpr ⟨_, device_mem hlt, List.mem_map.mpr ⟨k.2, List.mem_range.mpr hk, ?_⟩⟩
    rw [hn k.1]

/-- No handle is made twice. -/
theorem nodup_made (hn : w.Numbered) : w.made.Nodup := by
  refine List.nodup_flatMap.mpr ⟨fun d _ => ?_, ?_⟩
  · exact List.nodup_range.map fun _ _ h => congrArg Prod.snd h
  · refine List.pairwise_iff_getElem.mpr ?_
    intro i j hi hj hij k hik hjk
    obtain ⟨_, -, rfl⟩ := List.mem_map.mp hik
    obtain ⟨_, -, hk⟩ := List.mem_map.mp hjk
    have hsame : w.devices[j].serial = w.devices[i].serial := congrArg Prod.fst hk
    rw [← device_of_lt hi, ← device_of_lt hj, hn i, hn j] at hsame
    omega

/-! ### Device by device -/

theorem Numbered.serials (hn : w.Numbered) :
    w.devices.map Device.serial = List.range w.devices.length := by
  refine List.ext_getElem (by simp) ?_
  intro i hi _
  have hlt : i < w.devices.length := by simpa using hi
  rw [List.getElem_map, List.getElem_range, ← device_of_lt hlt, hn i]

/-- What carries the serial number of a device comes from that device. -/
theorem filter_flatMap_serial {μ : Type} {f : Device → List (Nat × μ)}
    (hf : ∀ d, ∀ p ∈ f d, p.1 = d.serial) {ds : List Device} (hds : (ds.map Device.serial).Nodup)
    {d : Device} (hd : d ∈ ds) :
    ((ds.flatMap f).filter fun p => decide (p.1 = d.serial)) = f d := by
  have hother : ∀ d' : Device, d'.serial ≠ d.serial →
      (f d').filter (fun p => decide (p.1 = d.serial)) = [] := by
    intro d' hne
    refine List.filter_eq_nil_iff.mpr ?_
    intro p hp
    rw [hf d' p hp]
    simpa using hne
  have hself : (f d).filter (fun p => decide (p.1 = d.serial)) = f d :=
    List.filter_eq_self.mpr fun p hp => by simpa using hf d p hp
  induction ds with
  | nil => cases hd
  | cons d' ds ih =>
    rw [List.map_cons, List.nodup_cons] at hds
    rw [List.flatMap_cons, List.filter_append]
    rcases List.mem_cons.mp hd with rfl | hmem
    · have hrest : (ds.flatMap f).filter (fun p => decide (p.1 = d.serial)) = [] := by
        refine List.filter_eq_nil_iff.mpr ?_
        intro p hp
        obtain ⟨d', hd', hp⟩ := List.mem_flatMap.mp hp
        intro hsame
        have hserial : d'.serial = d.serial := (hf d' p hp).symm.trans (by simpa using hsame)
        exact hds.1 (List.mem_map.mpr ⟨d', hd', hserial⟩)
      rw [hself, hrest, List.append_nil]
    · have hne : d'.serial ≠ d.serial :=
        fun hsame => hds.1 (List.mem_map.mpr ⟨d, hmem, hsame.symm⟩)
      rw [hother d' hne, ih hds.2 hmem, List.nil_append]

/-- A device that is not there has made nothing and taken nothing back. -/
theorem Numbered.filter_flatMap (hn : w.Numbered) {μ : Type} {f : Device → List (Nat × μ)}
    (hf : ∀ d, ∀ p ∈ f d, p.1 = d.serial) (hnew : f (.new serial) = []) :
    ((w.devices.flatMap f).filter fun p => decide (p.1 = serial)) = f (w.device serial) := by
  by_cases hlt : serial < w.devices.length
  · have hds : (w.devices.map Device.serial).Nodup := by
      rw [hn.serials]
      exact List.nodup_range
    have hfilter := filter_flatMap_serial hf hds (device_mem hlt)
    rwa [hn serial] at hfilter
  · rw [device_of_le (Nat.not_lt.mp hlt), hnew]
    refine List.filter_eq_nil_iff.mpr ?_
    intro p hp
    obtain ⟨d, hd, hp⟩ := List.mem_flatMap.mp hp
    intro hsame
    have hserial : d.serial = serial := (hf d p hp).symm.trans (by simpa using hsame)
    exact hlt (hserial ▸ (hn.exists_of_mem hd).1)

/-- The handles of a device are those that it made. -/
theorem countP_made (hn : w.Numbered) (serial : Nat) :
    (w.made.countP fun k => decide (k.1 = serial)) = (w.device serial).created := by
  have hf : ∀ d : Device, ∀ k ∈ d.made, k.1 = d.serial := by
    intro d k hk
    obtain ⟨id, -, rfl⟩ := List.mem_map.mp hk
    rfl
  rw [List.countP_eq_length_filter, made, hn.filter_flatMap hf rfl, Device.length_made]

/-- What a device took back is counted there. -/
theorem countP_returns (hn : w.Numbered) (serial : Nat) :
    (w.returns.countP fun p => decide (p.1 = serial)) = (w.device serial).destroyed := by
  have hf : ∀ d : Device, ∀ p ∈ d.returns, p.1 = d.serial := by
    intro d p hp
    obtain ⟨h, -, rfl⟩ := List.mem_map.mp hp
    rfl
  rw [List.countP_eq_length_filter, returns, hn.filter_flatMap hf rfl, Device.length_returns]

/-! ### Turnover -/

/-- `w'` comes from `w` by making some handles and taking some back. -/
structure Turnover (w w' : World) (made : List Key) (back : List (Nat × Key)) : Prop where
  pool : w'.pool = w.pool
  length_le : w.devices.length ≤ w'.devices.length
  serial : ∀ i, (w'.device i).serial = (w.device i).serial
  made : w'.made.Perm (made ++ w.made)
  returns : w'.returns.Perm (back ++ w.returns)

namespace Turnover

variable {m m' : List Key} {b b' : List (Nat × Key)}

theorem refl (w : World) : Turnover w w [] [] := ⟨rfl, Nat.le_refl _, fun _ => rfl, .refl _, .refl _⟩

theorem trans (h : Turnover w w' m b) (h' : Turnover w' w'' m' b') :
    Turnover w w'' (m' ++ m) (b' ++ b) where
  pool := h'.pool.trans h.pool
  length_le := Nat.le_trans h.length_le h'.length_le
  serial i := (h'.serial i).trans (h.serial i)
  made := by
    rw [List.append_assoc]
    exact h'.made.trans (h.made.append_left m')
  returns := by
    rw [List.append_assoc]
    exact h'.returns.trans (h.returns.append_left b')

theorem numbered (h : Turnover w w' m b) (hn : w.Numbered) : w'.Numbered :=
  fun i => (h.serial i).trans (hn i)

theorem lt (h : Turnover w w' m b) (hs : serial < w.devices.length) : serial < w'.devices.length :=
  Nat.lt_of_lt_of_le hs h.length_le

theorem retired (h : Turnover w w' m b) : w'.retired.Perm (b.map Prod.snd ++ w.retired) := by
  have := h.returns.map Prod.snd
  rwa [List.map_append] at this

end Turnover

theorem turnover_emit (w : World) (e : Event) : Turnover w (w.emit e) [] [] :=
  ⟨rfl, Nat.le_refl _, fun _ => rfl, .refl _, .refl _⟩

theorem turnover_addDevice (w : World) : Turnover w w.addDevice.1 [] [] where
  pool := rfl
  length_le := by simp [addDevice]
  serial i := by
    rcases Nat.lt_trichotomy i w.devices.length with hi | rfl | hi
    · simp [device, addDevice, List.getD_eq_getElem?_getD, List.getElem?_append_left, hi]
    · simp [device, addDevice, List.getD_eq_getElem?_getD]
    · have hlen : (w.devices ++ [Device.new w.devices.length]).length ≤ i := by simp; omega
      simp only [device, addDevice, List.getD_eq_getElem?_getD, List.getElem?_eq_none hlen,
        List.getElem?_eq_none (Nat.le_of_lt hi)]
  made := by simp [made, addDevice, Device.made, Device.new]
  returns := by simp [returns, addDevice, Device.returns, Device.new]

/-- A list over all devices grows by what it grows by at the one that changes. -/
theorem flatMap_setDevice {μ : Type} (f : Device → List μ) {new : List μ} {d : Device}
    (h : serial < w.devices.length) (hd : (f d).Perm (new ++ f (w.device serial))) :
    ((w.setDevice serial d).devices.flatMap f).Perm (new ++ w.devices.flatMap f) := by
  have hset : ((w.devices.set serial d).flatMap f).Perm
      (f d ++ (w.devices.eraseIdx serial).flatMap f) :=
    (List.set_perm_cons_eraseIdx h d).flatMap_right f
  have hget : (f (w.device serial) ++ (w.devices.eraseIdx serial).flatMap f).Perm
      (w.devices.flatMap f) := by
    rw [device_of_lt h]
    exact (List.getElem_cons_eraseIdx_perm h).flatMap_right f
  calc ((w.setDevice serial d).devices.flatMap f).Perm
        (f d ++ (w.devices.eraseIdx serial).flatMap f) := hset
    _ |>.Perm (new ++ f (w.device serial) ++ (w.devices.eraseIdx serial).flatMap f) :=
        hd.append_right _
    _ |>.Perm (new ++ w.devices.flatMap f) := by
        rw [List.append_assoc]
        exact hget.append_left new

theorem onDevice_eq {β : Type} (w : World) (serial : Nat) (f : Device → Device × β) :
    w.onDevice serial f = (w.setDevice serial (f (w.device serial)).1, (f (w.device serial)).2) :=
  rfl

/-- What happens to one device is what happens to the world. -/
theorem turnover_setDevice {d : Device} {m : List Key} {b : List (Nat × Key)}
    (h : serial < w.devices.length) (hserial : d.serial = (w.device serial).serial)
    (hmade : d.made.Perm (m ++ (w.device serial).made))
    (hreturns : d.returns.Perm (b ++ (w.device serial).returns)) :
    Turnover w (w.setDevice serial d) m b where
  pool := rfl
  length_le := by simp [setDevice]
  serial i := by
    by_cases hi : i = serial
    · rw [hi, device_setDevice_self w d h, hserial]
    · rw [device_setDevice_of_ne w d hi]
  made := flatMap_setDevice Device.made h hmade
  returns := flatMap_setDevice Device.returns h hreturns

/-! ### Devices -/

section Devices

variable (hn : w.Numbered) (hs : serial < w.devices.length)

include hn hs

theorem onDevice_create_cases :
    (∃ w' id, w.onDevice serial (·.create) = (w', .ok ⟨serial, id, none⟩) ∧
        Turnover w w' [(serial, id)] []) ∨
      ∃ w' t, w.onDevice serial (·.create) = (w', .error t) ∧ Turnover w w' [] [] := by
  rw [onDevice_eq]
  rcases (w.device serial).create_cases with ⟨-, hc⟩ | ⟨-, hc⟩ <;> rw [hc]
  · refine .inl ⟨_, (w.device serial).created, by simp only [hn serial]; rfl,
      turnover_setDevice hs (hn serial).symm ?_ (by simp [Device.returns, hn serial])⟩
    simp only [Device.made, List.range_succ, List.map_append, List.map_cons, List.map_nil,
      hn serial]
    exact List.perm_append_comm
  · exact .inr ⟨_, _, rfl, turnover_setDevice hs rfl (.refl _) (.refl _)⟩

omit hn in
theorem onDevice_bind_cases (h : Handle) (s : Stream) :
    (∃ w', w.onDevice serial (·.bind h s) = (w', .ok { h with stream := some s }) ∧
        Turnover w w' [] []) ∨
      ∃ w' t, w.onDevice serial (·.bind h s) = (w', .error t) ∧ Turnover w w' [] [] := by
  rw [onDevice_eq]
  rcases (w.device serial).bind_cases h s with ⟨-, hb⟩ | ⟨-, hb⟩ <;> rw [hb]
  · exact .inl ⟨_, rfl, turnover_setDevice hs rfl (.refl _) (.refl _)⟩
  · exact .inr ⟨_, _, rfl, turnover_setDevice hs rfl (.refl _) (.refl _)⟩

/-- A handle that is given to a device is gone, whatever the device answers. -/
theorem turnover_destroy (h : Handle) :
    Turnover w (w.onDevice serial (·.destroy h)).1 [] [(serial, h.key)] := by
  refine turnover_setDevice hs rfl (.refl _) ?_
  simp [Device.arm, Device.returns, hn serial]

omit hn in
theorem turnover_arm (kind : CallKind) (t : Status) :
    Turnover w (w.onDevice serial fun d => (d.arm kind t, ())).1 [] [] :=
  turnover_setDevice hs rfl (.refl _) (.refl _)

omit hn in
theorem turnover_clearCalls :
    Turnover w (w.onDevice serial fun d => (d.clearCalls, ())).1 [] [] :=
  turnover_setDevice hs rfl (.refl _) (.refl _)

omit hn in
/-- A routine makes no handle and takes none back. -/
theorem turnover_execute {ρ : Type} [Routine ρ] (h : Handle) (r : ρ) :
    Turnover w (w.execute serial h r).1 [] [] := by
  have hdevice : Turnover w (w.setDevice serial ((w.device serial).execute h r).1) [] [] := by
    rw [Device.execute_fst]
    rcases Device.begin_cases (w.device serial) h (Routine.entryPoint r) with
      ⟨-, hb⟩ | ⟨s, -, -, hb⟩ | ⟨s, -, -, hb⟩ <;> rw [hb]
    · exact turnover_setDevice hs rfl (.refl _) (.refl _)
    · exact turnover_setDevice hs rfl (.refl _) (.refl _)
    · exact turnover_setDevice hs rfl (.refl _) (.refl _)
  rcases hx : (w.device serial).execute h r with ⟨d, admitted, outcome⟩
  rw [hx] at hdevice
  rw [execute, hx]
  cases admitted with
  | none => exact hdevice
  | some stream => exact hdevice.trans (turnover_emit _ _)

end Devices

end World

end SparseDevice
