import SparseDevice.Proofs.Race.Machine

/-!
# Races that no fault disturbs

Where no fault is armed, the order of the steps leaves no trace at all but in the log. At any point
of such a race the cache has grown by as many entries as the device has made handles, and every
stream that is new in it was asked for. At the end each of the threads has an entry, so the streams
of the cache, the counters of the device and the answers can be read off the list of streams.

No two interleavings are compared with each other; each is compared with the list.

## Main definitions

* `Device.Unarmed`: no fault stands in the way of a new handle.
* `Cache.missing`: the streams of a list that are new to a cache.
* `Race.Smooth`: what holds at any point of such a race.
* `Race.Complete`: what the race comes to.

## Main results

* `Race.Smooth.play`: after any steps.
* `Race.Smooth.complete`: at the end.
-/

namespace SparseDevice

/-! ### Lists without repetitions -/

section EraseDups

variable {μ ν : Type} [DecidableEq μ] [DecidableEq ν]

theorem nodup_eraseDups (xs : List μ) : xs.eraseDups.Nodup := by
  induction hn : xs.length using Nat.strongRecOn generalizing xs with
  | ind n ih =>
    cases xs with
    | nil => exact List.nodup_nil
    | cons x xs =>
      rw [List.eraseDups_cons]
      have hlt : (xs.filter fun y => !y == x).length < n := by
        have hle := List.length_filter_le (fun y => !y == x) xs
        rw [List.length_cons] at hn
        omega
      refine List.nodup_cons.mpr ⟨?_, ih _ hlt _ rfl⟩
      intro hx
      simpa using (List.mem_filter.mp (List.mem_eraseDups.mp hx)).2

/-- What tells the items apart keeps their repetitions. -/
theorem eraseDups_map {f : μ → ν} {xs : List μ}
    (hf : ∀ x ∈ xs, ∀ y ∈ xs, f x = f y → x = y) :
    (xs.map f).eraseDups = xs.eraseDups.map f := by
  induction hn : xs.length using Nat.strongRecOn generalizing xs with
  | ind n ih =>
    cases xs with
    | nil => rfl
    | cons x xs =>
      have hlt : (xs.filter fun y => !y == x).length < n := by
        have hle := List.length_filter_le (fun y => !y == x) xs
        rw [List.length_cons] at hn
        omega
      have hfilter : (xs.map f).filter (fun y => !y == f x) =
          (xs.filter fun y => !y == x).map f := by
        rw [List.filter_map]
        refine congrArg (List.map f) (List.filter_congr ?_)
        intro y hy
        have hiff : f y = f x ↔ y = x :=
          ⟨hf y (List.mem_cons_of_mem x hy) x List.mem_cons_self, fun hsame => by rw [hsame]⟩
        simp [hiff]
      have hrest := ih _ hlt
        (fun y hy z hz => hf y (List.mem_cons_of_mem x (List.mem_filter.mp hy).1) z
          (List.mem_cons_of_mem x (List.mem_filter.mp hz).1)) rfl
      rw [List.map_cons, List.eraseDups_cons, List.eraseDups_cons, List.map_cons, hfilter, hrest]

end EraseDups

/-! ### Acquisitions that no fault disturbs -/

/-- No fault stands in the way of a new handle. -/
def Device.Unarmed (d : Device) : Prop :=
  d.armed.create = .success ∧ d.armed.bind = .success

instance (d : Device) : Decidable d.Unarmed :=
  inferInstanceAs (Decidable (d.armed.create = .success ∧ d.armed.bind = .success))

/-- The device after making and binding some handles. -/
def Device.grownBy (d : Device) (k : Nat) : Device :=
  { d with created := d.created + k, bound := d.bound + k }

/-- An entry comes up where no fault is armed. -/
theorem World.prepare_of_unarmed {w : World} {e : Entry} (hd : e.device < w.devices.length)
    (he : e.handle = none) (hu : (w.device e.device).Unarmed) :
    ∃ w' hd, w.prepare e = (w', { e with handle := some hd }, .ok ()) ∧
      w'.device e.device = (w.device e.device).grownBy 1 ∧
      ∀ other, other ≠ e.device → w'.device other = w.device other := by
  obtain ⟨hcreate, hbind⟩ := hu
  rw [prepare, he]
  rcases (w.device e.device).create_cases with ⟨-, hc⟩ | ⟨hne, -⟩
  · simp only [onDevice_eq, hc]
    rw [device_setDevice_self w _ hd]
    rcases Device.bind_cases { w.device e.device with created := (w.device e.device).created + 1 }
      ⟨(w.device e.device).serial, (w.device e.device).created, none⟩ e.stream with
      ⟨-, hb⟩ | ⟨hne, -⟩
    · simp only [hb]
      refine ⟨_, _, rfl, ?_, fun other hne => ?_⟩
      · rw [device_emit, device_setDevice_self _ _ (by simpa [setDevice] using hd)]
        rfl
      · rw [device_emit, device_setDevice_of_ne _ _ hne, device_setDevice_of_ne _ _ hne]
    · exact absurd hbind hne
  · exact absurd hcreate hne

/-- A stream without an entry gets one where no fault is armed. -/
theorem Cache.supply_of_unarmed {w : World} {c : Cache} {stream : Stream}
    (hd : c.device < w.devices.length) (hnone : c.lookup stream = none)
    (hu : (w.device c.device).Unarmed) :
    ∃ w' id, c.supply w stream = (w', { c with slots := c.slots.insert stream id }, .ok id) ∧
      w'.device c.device = (w.device c.device).grownBy 1 ∧
      ∀ other, other ≠ c.device → w'.device other = w.device other := by
  rw [supply, hnone]
  obtain ⟨w', h, hp, hself, hothers⟩ := World.prepare_of_unarmed (w := w.emit (.creating stream))
    (e := .new c.device stream) hd rfl hu
  simp only [hp]
  exact ⟨_, _, rfl, hself, hothers⟩

namespace Cache

/-- The streams of a list that have no entry, once each. -/
def missing (c : Cache) (streams : List Stream) : List Stream :=
  (streams.filter fun stream => !c.contains stream).eraseDups

theorem mem_missing_iff {c : Cache} {streams : List Stream} {stream : Stream} :
    stream ∈ c.missing streams ↔ stream ∈ streams ∧ c.lookup stream = none := by
  rw [missing, List.mem_eraseDups, List.mem_filter, contains]
  cases c.lookup stream <;> simp

theorem mem_streams_iff {c : Cache} {stream : Stream} :
    stream ∈ c.streams ↔ ∃ id, c.lookup stream = some id :=
  Table.mem_keys_iff

theorem length_streams (c : Cache) : c.streams.length = c.size := List.length_map _

end Cache

namespace Race

variable {w : World} {c : Cache} {r : Race}

/-- What holds at any point of a race that no fault disturbs: the cache has grown by as many entries
as the device has made handles. -/
structure Smooth (w : World) (c : Cache) (r : Race) : Prop where
  unarmed : (w.device c.device).Unarmed
  succeeding : ∀ t ∈ r.threads, ∀ f, t.phase ≠ .done (.error f)
  device : ∃ k, r.cache.size = c.size + k ∧
    r.world.device c.device = (w.device c.device).grownBy k
  others : ∀ other, other ≠ c.device → r.world.device other = w.device other
  listed : ∀ stream id, r.cache.lookup stream = some id → c.lookup stream = none →
    stream ∈ r.threads.map Thread.stream

theorem smooth_start (hu : (w.device c.device).Unarmed) (streams : List Stream) :
    (start w c streams).Smooth w c where
  unarmed := hu
  succeeding t ht f := by
    obtain ⟨stream, -, rfl⟩ := List.mem_map.mp ht
    exact nofun
  device := ⟨0, rfl, rfl⟩
  others _ _ := rfl
  listed stream id hid hnone := by
    cases hnone.symm.trans hid

/-- A thread goes on that does not change the cache. -/
theorem Smooth.idle (h : r.Smooth w c) {i : Nat} {t : Thread} (ht : r.threads[i]? = some t)
    (t' : Thread) (hturn : t.turn r.world r.cache = (r.world, r.cache, t'))
    (hphase : ∀ f, t'.phase ≠ .done (.error f)) : (r.turn i).Smooth w c := by
  have hstreams := r.streams_turn i
  rw [turn_of_getElem? ht, hturn] at hstreams ⊢
  refine { h with succeeding := fun t'' ht'' => ?_, listed := fun stream id hid hnone => ?_ }
  · rcases List.mem_or_eq_of_mem_set ht'' with hold | rfl
    · exact h.succeeding t'' hold
    · exact hphase
  · rw [hstreams]
    exact h.listed stream id hid hnone

theorem Smooth.turn (h : r.Smooth w c) (hc : r.Consistent w c) (i : Nat) :
    (r.turn i).Smooth w c := by
  cases ht : r.threads[i]? with
  | none =>
    rw [Race.turn, ht]
    exact h
  | some t =>
    have hmem : t ∈ r.threads := List.mem_of_getElem? ht
    cases hphase : t.phase with
    | waiting =>
      cases hid : r.cache.lookup t.stream with
      | some id =>
        refine h.idle ht { t with phase := .done (.ok id) } ?_ fun f hf => by cases hf
        rw [Thread.turn, hphase]
        simp only [hid]
      | none =>
        refine h.idle ht { t with phase := .missed } ?_ fun f hf => by cases hf
        rw [Thread.turn, hphase]
        simp only [hid]
    | done answer =>
      refine h.idle ht t ?_ (h.succeeding t hmem)
      rw [Thread.turn, hphase]
    | missed =>
      cases hid : r.cache.lookup t.stream with
      | some id =>
        refine h.idle ht { t with phase := .done (.ok id) } ?_ fun f hf => by cases hf
        rw [Thread.turn, hphase]
        simp only [Cache.supply, hid]
      | none =>
        obtain ⟨k, hsize, hdevice⟩ := h.device
        have hu : (r.world.device r.cache.device).Unarmed := by
          rw [hc.grown.device, hdevice]
          exact h.unarmed
        obtain ⟨w', id, hx, hself, hothers⟩ :=
          Cache.supply_of_unarmed hc.grown.cache.device_lt hid hu
        have hturn : t.turn r.world r.cache = (w',
            { r.cache with slots := r.cache.slots.insert t.stream id },
            { t with phase := .done (.ok id) }) := by
          rw [Thread.turn, hphase]
          simp only [hx]
        have hstreams := r.streams_turn i
        rw [turn_of_getElem? ht, hturn] at hstreams ⊢
        rw [hc.grown.device] at hself hothers
        exact {
          unarmed := h.unarmed
          succeeding := fun t' ht' => by
            rcases List.mem_or_eq_of_mem_set ht' with hold | rfl
            · exact h.succeeding t' hold
            · intro f hf
              cases hf
          device := by
            refine ⟨k + 1, ?_, ?_⟩
            · show ((t.stream, id) :: r.cache.slots.erase t.stream).length = c.size + (k + 1)
              rw [Table.erase_of_get?_eq_none hid, List.length_cons]
              exact congrArg (· + 1) hsize
            · rw [hself, hdevice]
              rfl
          others := fun other hne => (hothers other hne).trans (h.others other hne)
          listed := fun stream id' hid' hnone => by
            rw [hstreams]
            change (r.cache.slots.insert t.stream id).get? stream = some id' at hid'
            rw [Table.get?_insert] at hid'
            split at hid'
            · next hsame =>
              rw [hsame]
              exact List.mem_map_of_mem hmem
            · exact h.listed stream id' hid' hnone }

theorem Smooth.play (h : r.Smooth w c) (hc : r.Consistent w c) (schedule : List Nat) :
    (r.play schedule).Smooth w c := by
  induction schedule generalizing r with
  | nil => exact h
  | cons i rest ih => exact ih (h.turn hc i) (hc.turn i)

/-! ### What a race comes to -/

/-- What the answers of acquisitions amount to: how many entries there are among them, and how many
failures. -/
def outcome (answers : List (Except InitFailure Nat)) : Nat × Nat :=
  let entries := answers.filterMap (·.toOption)
  (entries.eraseDups.length, answers.length - entries.length)

/-- What a race comes to that no fault disturbs. -/
structure Complete (w : World) (c : Cache) (streams : List Stream) (r : Race) : Prop where
  succeeded : ∀ t ∈ r.threads, ∃ id, t.phase = .done (.ok id)
  /-- The streams of the cache are the old ones and those of the list. -/
  keys : r.cache.streams.Perm (c.streams ++ c.missing streams)
  /-- The device has made and bound one handle for each new stream, and nothing else. -/
  device : r.world.device c.device = (w.device c.device).grownBy (c.missing streams).length
  others : ∀ other, other ≠ c.device → r.world.device other = w.device other
  /-- There are as many entries as streams in the list, and no failures. -/
  answers : outcome r.answers = (streams.eraseDups.length, 0)

theorem Smooth.succeeded (h : r.Smooth w c) (hover : r.Over) {t : Thread} (ht : t ∈ r.threads) :
    ∃ id, t.phase = .done (.ok id) := by
  have hdone := hover t ht
  rw [Thread.answer?] at hdone
  cases hphase : t.phase with
  | waiting =>
    rw [hphase] at hdone
    cases hdone
  | missed =>
    rw [hphase] at hdone
    cases hdone
  | done answer =>
    cases answer with
    | error f => exact absurd hphase (h.succeeding t ht f)
    | ok id => exact ⟨id, rfl⟩

/-- The streams of the cache, from what is known about each of them. -/
theorem Smooth.keys (h : r.Smooth w c) (hc : r.Consistent w c) (hstart : Grown w c w c)
    {streams : List Stream} (hstreams : r.threads.map Thread.stream = streams) (hover : r.Over) :
    r.cache.streams.Perm (c.streams ++ c.missing streams) := by
  have hdisjoint : ∀ a ∈ c.streams, ∀ b ∈ c.missing streams, a ≠ b := by
    rintro a ha b hb rfl
    obtain ⟨id, hid⟩ := Cache.mem_streams_iff.mp ha
    cases (Cache.mem_missing_iff.mp hb).2.symm.trans hid
  have hnodup : (c.streams ++ c.missing streams).Nodup :=
    List.nodup_append.mpr ⟨hstart.cache.keyed, nodup_eraseDups _, hdisjoint⟩
  refine (List.perm_ext_iff_of_nodup hc.grown.cache.keyed hnodup).mpr ?_
  intro stream
  rw [List.mem_append, Cache.mem_missing_iff]
  constructor
  · intro hmem
    obtain ⟨id, hid⟩ := Cache.mem_streams_iff.mp hmem
    cases hold : c.lookup stream with
    | some id' => exact .inl (Cache.mem_streams_iff.mpr ⟨id', hold⟩)
    | none => exact .inr ⟨hstreams ▸ h.listed stream id hid hold, rfl⟩
  · rintro (hold | ⟨hlisted, -⟩)
    · obtain ⟨id, hid⟩ := Cache.mem_streams_iff.mp hold
      exact Cache.mem_streams_iff.mpr ⟨id, hc.grown.kept stream id hid⟩
    · rw [← hstreams] at hlisted
      obtain ⟨t, ht, rfl⟩ := List.mem_map.mp hlisted
      obtain ⟨id, hid⟩ := h.succeeded hover ht
      exact Cache.mem_streams_iff.mpr ⟨id, hc.answered t ht id hid⟩

/-- Threads with different streams have different entries. -/
theorem Consistent.stream_inj (h : r.Consistent w c) {stream stream' : Stream} {id : Nat}
    (hid : r.cache.lookup stream = some id) (hid' : r.cache.lookup stream' = some id) :
    stream = stream' := by
  obtain ⟨e, he, hstream, -⟩ := h.grown.cache.entry stream id hid
  obtain ⟨e', he', hstream', -⟩ := h.grown.cache.entry stream' id hid'
  cases he.symm.trans he'
  exact hstream.symm.trans hstream'

/-- When all threads have succeeded, the answers name the entry of each stream of the list. -/
theorem Smooth.outcome (h : r.Smooth w c) (hc : r.Consistent w c) {streams : List Stream}
    (hstreams : r.threads.map Thread.stream = streams) (hover : r.Over) :
    outcome r.answers = (streams.eraseDups.length, 0) := by
  let entry : Stream → Nat := fun stream => (r.cache.lookup stream).getD 0
  have hlookup : ∀ t ∈ r.threads, r.cache.lookup t.stream = some (entry t.stream) ∧
      t.phase = .done (.ok (entry t.stream)) := by
    intro t ht
    obtain ⟨id, hid⟩ := h.succeeded hover ht
    have hsome := hc.answered t ht id hid
    have hentry : entry t.stream = id := by
      show (r.cache.lookup t.stream).getD 0 = id
      rw [hsome, Option.getD_some]
    rw [hentry]
    exact ⟨hsome, hid⟩
  have hanswers : r.answers = streams.map fun stream => .ok (entry stream) := by
    rw [answers, ← hstreams, List.map_map, ← List.filterMap_eq_map]
    refine List.filterMap_congr ?_
    intro t ht
    rw [Thread.answer?, (hlookup t ht).2]
    rfl
  have hentries : (streams.map fun stream => (.ok (entry stream) : Except InitFailure Nat)).filterMap
      (·.toOption) = streams.map entry := by
    rw [List.filterMap_map, ← List.filterMap_eq_map]
    rfl
  have hinj : ∀ a ∈ streams, ∀ b ∈ streams, entry a = entry b → a = b := by
    intro a ha b hb hsame
    rw [← hstreams] at ha hb
    obtain ⟨t, ht, rfl⟩ := List.mem_map.mp ha
    obtain ⟨t', ht', rfl⟩ := List.mem_map.mp hb
    have hsome := (hlookup t ht).1
    rw [hsame] at hsome
    exact hc.stream_inj hsome (hlookup t' ht').1
  rw [Race.outcome, hanswers]
  simp only [hentries, eraseDups_map hinj, List.length_map, Nat.sub_self]

theorem Smooth.complete (h : r.Smooth w c) (hc : r.Consistent w c) (hstart : Grown w c w c)
    {streams : List Stream} (hstreams : r.threads.map Thread.stream = streams) (hover : r.Over) :
    r.Complete w c streams where
  succeeded _ ht := h.succeeded hover ht
  keys := h.keys hc hstart hstreams hover
  device := by
    obtain ⟨k, hsize, hdevice⟩ := h.device
    have hlength := (h.keys hc hstart hstreams hover).length_eq
    rw [List.length_append, Cache.length_streams, Cache.length_streams, hsize] at hlength
    have hk : k = (c.missing streams).length := by omega
    rw [hdevice, hk]
  others := h.others
  answers := h.outcome hc hstreams hover

end Race

end SparseDevice
