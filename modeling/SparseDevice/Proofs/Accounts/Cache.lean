import Mathlib.Data.List.Dedup
import SparseDevice.Proofs.Accounts.Counts
import SparseDevice.Proofs.Lifetimes.Step

/-!
# A device for one cache

A cache that has a device to itself explains all that the device counts: a binding for each of its
entries, and a handle made and taken back for each acquisition that failed at binding. What came of
the acquisitions so far is the history that the counters are compared with. The cache may only grow,
so each success in the history still holds: the entry that it led to is there, unchanged.

`Exclusive` is what every step preserves. An acquisition preserves it by moving the counters along
with the history, a step on the device that moves no counter preserves it as well, and every other
step leaves the device alone, which is what its passage says.

## Main definitions

* `Acquisition`: what came of asking a cache for the entry of a stream.
* `Session.Exclusive`: a cache has a device to itself, and its history explains the counters.

## Main results

* `Session.Exclusive.passage`: what leaves the device alone leaves the cache alone.
* `Session.Exclusive.supply`, `Session.Exclusive.acquireAll`: acquisitions.
-/

namespace SparseDevice

/-- What came of asking a cache for the entry of a stream: why there is none, or the number of the
entry and what is found under it. -/
structure Acquisition where
  stream : Stream
  answer : Except InitFailure (Nat × Option Entry)

namespace Acquisition

/-- The answer of a cache, with the entry that is found in a world. -/
def record (w : World) (asked : Stream × Except InitFailure Nat) : Acquisition :=
  ⟨asked.1, asked.2.map fun id => (id, w.pool.get? id)⟩

/-- Whether a handle was made that could not be bound. -/
def failedBind (a : Acquisition) : Bool :=
  match a.answer with
  | .ok _ => false
  | .error f => decide (f.stage = .bindStream)

/-- The stream of an acquisition that succeeded. -/
def stream? (a : Acquisition) : Option Stream :=
  match a.answer with
  | .ok _ => some a.stream
  | .error _ => none

theorem record_ok (w : World) (stream : Stream) (id : Nat) :
    record w (stream, .ok id) = ⟨stream, .ok (id, w.pool.get? id)⟩ := rfl

/-- How many of the handles that were made could not be bound. -/
def failedBinds (history : List Acquisition) : Nat := history.countP failedBind

theorem failedBinds_append (history later : List Acquisition) :
    failedBinds (history ++ later) = failedBinds history + failedBinds later :=
  List.countP_append

theorem failedBinds_singleton (a : Acquisition) :
    failedBinds [a] = if a.failedBind = true then 1 else 0 :=
  List.countP_singleton

end Acquisition

open Acquisition

theorem Table.length_insert_of_get?_eq_none {κ β : Type} [DecidableEq κ] {t : Table κ β} {k : κ}
    (h : t.get? k = none) (v : β) : (t.insert k v).length = t.length + 1 := by
  rw [Table.insert, List.length_cons, Table.erase_of_get?_eq_none h]

/-- What the device counts when an entry is made, according to what comes of it. -/
theorem Cache.supply_counts {w : World} {c : Cache} {s : Stream} {k : Device.Counts}
    (hd : c.device < w.devices.length) (hs : c.lookup s = none)
    (hk : (w.device c.device).counts = k) :
    (∃ id, (c.supply w s).2.2 = .ok id ∧ ((c.supply w s).1.device c.device).counts =
        { k with created := k.created + 1, bound := k.bound + 1 }) ∨
      (∃ f, (c.supply w s).2.2 = .error f ∧ f.stage = .create ∧
        ((c.supply w s).1.device c.device).counts = k) ∨
      ∃ f, (c.supply w s).2.2 = .error f ∧ f.stage = .bindStream ∧
        ((c.supply w s).1.device c.device).counts =
          { k with created := k.created + 1, destroyed := k.destroyed + 1 } := by
  have hprepare := World.prepare_counts (w := w.emit (.creating s)) (e := .new c.device s) hd rfl hk
  rw [supply, hs]
  rcases hx : (w.emit (.creating s)).prepare (.new c.device s) with ⟨w', e, r⟩
  rw [hx] at hprepare
  rcases hprepare with ⟨rfl, hcounts⟩ | ⟨f, rfl, hstage, hcounts⟩ | ⟨f, rfl, hstage, hcounts⟩
  · exact .inl ⟨_, rfl, hcounts⟩
  · exact .inr (.inl ⟨f, rfl, hstage, hcounts⟩)
  · exact .inr (.inr ⟨f, rfl, hstage, hcounts⟩)

namespace Session

variable {s s' : Session} {n d : Nat} {past : List Acquisition} {c : Cache}

/-- A cache has a device to itself, and what came of asking it so far explains the counters. -/
structure Exclusive (n d : Nat) (past : List Acquisition) (s : Session) (c : Cache) : Prop where
  alive : s.cachePool.get? n = some c
  device : c.device = d
  sole : ∀ n' c', s.cachePool.get? n' = some c' → c'.device = d → n' = n
  foreign : ∀ e ∈ s.entries.vals, e.device ≠ d
  kept : ∀ id e, s.world.pool.get? id = some e → e.device = d → ∃ stream, c.lookup stream = some id
  counts : (s.world.device d).counts =
    ⟨c.size + failedBinds past, c.size, failedBinds past⟩
  /-- What was acquired is still there. -/
  yields : ∀ a ∈ past, ∀ id e, a.answer = .ok (id, e) →
    c.lookup a.stream = some id ∧ s.world.pool.get? id = e
  /-- What is there was acquired. -/
  known : ∀ stream id, c.lookup stream = some id →
    ∃ a ∈ past, a.stream = stream ∧ ∃ r, a.answer = .ok r

namespace Exclusive

/-- What leaves the device alone leaves the cache alone. -/
theorem passage {p : Nat → Prop} {q : Prop} (hx : Exclusive n d past s c) (h : s.Sound)
    (h' : s'.Sound) (hpass : Passage p q s s') (hd : ¬p d)
    (halive : ∃ c', s'.cachePool.get? n = some c') :
    Exclusive n d past s' c ∧ s'.world.device d = s.world.device d := by
  have hsame : s'.cachePool.get? n = some c := by
    obtain ⟨c', hc'⟩ := halive
    rcases hpass.caches n c' hc' with ⟨c₀, hc₀, hdevice, hsame⟩ | ⟨hnew, -⟩
    · cases hx.alive.symm.trans hc₀
      rcases hsame with rfl | hp
      · exact hc'
      · rw [hdevice, hx.device] at hp
        exact absurd hp hd
    · exact absurd (h.cachePool.lt_added n c hx.alive) (Nat.not_lt.mpr hnew)
  have hpool : ∀ {stream id}, c.lookup stream = some id →
      s'.world.pool.get? id = s.world.pool.get? id :=
    fun hid => hpass.slot_kept h h' hx.alive hsame hid
  have hdevice : s'.world.device d = s.world.device d := by
    rcases hpass.calm d hd with hcalm | ⟨id, e, he, hdevice, hgone⟩
    · exact hcalm
    · -- an entry of the device cannot go, since the cache keeps it
      obtain ⟨stream, hid⟩ := hx.kept id e he hdevice
      rw [hpool hid, he] at hgone
      cases hgone
  refine ⟨?_, hdevice⟩
  exact
    { alive := hsame
      device := hx.device
      sole := fun n' c' hn' hc' => by
        rcases hpass.caches n' c' hn' with ⟨c₀, hc₀, hsame, -⟩ | ⟨-, hp⟩
        · exact hx.sole n' c₀ hc₀ (hsame.symm.trans hc')
        · exact absurd (hc' ▸ hp) hd
      foreign := fun e he hed => by
        rcases hpass.entries e he with hp | ⟨e₀, he₀, hsame⟩
        · exact hd (hed ▸ hp)
        · exact hx.foreign e₀ he₀ (hsame.trans hed)
      kept := fun id e he hed => by
        rcases hpass.shared id e he with hold | ⟨-, hp⟩
        · exact hx.kept id e hold hed
        · exact absurd (hed ▸ hp) hd
      counts := by rw [hdevice, hx.counts]
      yields := fun a ha id e hok => by
        obtain ⟨hid, he⟩ := hx.yields a ha id e hok
        exact ⟨hid, (hpool hid).trans he⟩
      known := hx.known }

/-- What moves no counter leaves the cache alone. -/
theorem idle {w : World} (hx : Exclusive n d past s c) (hw : s.world.Idle w) :
    Exclusive n d past { s with world := w } c where
  alive := hx.alive
  device := hx.device
  sole := hx.sole
  foreign := hx.foreign
  kept := by
    rw [hw.pool]
    exact hx.kept
  counts := (hw.counts d).trans hx.counts
  yields := by
    rw [hw.pool]
    exact hx.yields
  known := hx.known

/-- Names, handles, references and contexts have nothing to do with it. -/
theorem congr (hx : Exclusive n d past s c) (hw : s'.world = s.world) (he : s'.entries = s.entries)
    (hc : s'.cachePool = s.cachePool) : Exclusive n d past s' c where
  alive := by rw [hc, hx.alive]
  device := hx.device
  sole := by rw [hc]; exact hx.sole
  foreign := by rw [he]; exact hx.foreign
  kept := by rw [hw]; exact hx.kept
  counts := by rw [hw]; exact hx.counts
  yields := by rw [hw]; exact hx.yields
  known := hx.known

/-- Whoever is found adds nothing but to the history. -/
theorem hits (hx : Exclusive n d past s c) {asked : List (Stream × Except InitFailure Nat)}
    (hasked : ∀ q ∈ asked, ∃ id, q.2 = .ok id ∧ c.lookup q.1 = some id) :
    Exclusive n d (past ++ asked.map (record s.world)) s c := by
  have hrecord : ∀ a ∈ asked.map (record s.world), ∃ id, a.answer = .ok (id, s.world.pool.get? id) ∧
      c.lookup a.stream = some id := by
    intro a ha
    obtain ⟨⟨stream, r⟩, hq, rfl⟩ := List.mem_map.mp ha
    obtain ⟨id, rfl, hid⟩ := hasked _ hq
    exact ⟨id, rfl, hid⟩
  have hnone : failedBinds (asked.map (record s.world)) = 0 := by
    refine List.countP_eq_zero.mpr fun a ha => ?_
    obtain ⟨id, hok, -⟩ := hrecord a ha
    rw [failedBind, hok]
    exact nofun
  refine { hx with
    counts := ?_
    yields := fun a ha id e hok => ?_
    known := fun stream id hid => ?_ }
  · rw [failedBinds_append, hnone]
    exact hx.counts
  · rcases List.mem_append.mp ha with ha | ha
    · exact hx.yields a ha id e hok
    · obtain ⟨id', hok', hid'⟩ := hrecord a ha
      cases hok.symm.trans hok'
      exact ⟨hid', rfl⟩
  · obtain ⟨a, ha, hrest⟩ := hx.known stream id hid
    exact ⟨a, List.mem_append_left _ ha, hrest⟩

/-- What was recorded earlier is what would be recorded now. -/
theorem recorded {w : World} {q : Stream × Except InitFailure Nat} (hx : Exclusive n d past s c)
    (hq : record w q ∈ past) : record w q = record s.world q := by
  obtain ⟨stream, f | id⟩ := q
  · rfl
  · obtain ⟨-, he⟩ := hx.yields _ hq id _ rfl
    rw [record_ok, record_ok, he]

/-! ### Acquisitions -/

/-- The cache changes along with the world. -/
theorem put {w : World} {c' : Cache} {past' : List Acquisition}
    (hx : Exclusive n d past s c) (hdevice : c'.device = d)
    (hkept : ∀ id e, w.pool.get? id = some e → e.device = d → ∃ stream, c'.lookup stream = some id)
    (hcounts : (w.device d).counts =
      ⟨c'.size + failedBinds past', c'.size, failedBinds past'⟩)
    (hyields : ∀ a ∈ past', ∀ id e, a.answer = .ok (id, e) →
      c'.lookup a.stream = some id ∧ w.pool.get? id = e)
    (hknown : ∀ stream id, c'.lookup stream = some id →
      ∃ a ∈ past', a.stream = stream ∧ ∃ r, a.answer = .ok r) :
    Exclusive n d past' ({ s with world := w }.setCache n c') c' where
  alive := get?_setCache_self _ n c'
  device := hdevice
  sole n' c'' hn' hc'' := by
    rcases Pool.cases_of_get?_set hn' with ⟨hsame, -⟩ | ⟨-, hn'⟩
    · exact hsame
    · exact hx.sole n' c'' hn' hc''
  foreign := hx.foreign
  kept := hkept
  counts := hcounts
  yields := hyields
  known := hknown

/-- A cache that is put back unchanged. -/
theorem putBack {w : World} {past' : List Acquisition}
    (hx : Exclusive n d past' { s with world := w } c) :
    Exclusive n d past' ({ s with world := w }.setCache n c) c :=
  hx.put hx.device hx.kept hx.counts hx.yields hx.known

/-- An entry is made and kept. -/
theorem stock {w : World} {e : Entry} {stream : Stream} (hx : Exclusive n d past s c)
    (h : s.Sound) (hnone : c.lookup stream = none) (hpool : w.pool = s.world.pool)
    (hcounts : (w.device d).counts =
      ⟨c.size + failedBinds past + 1, c.size + 1, failedBinds past⟩) :
    Exclusive n d (past ++ [record (w.share e).1 (stream, .ok s.world.pool.added)])
      ({ s with world := (w.share e).1 }.setCache n
        { c with slots := c.slots.insert stream s.world.pool.added })
      { c with slots := c.slots.insert stream s.world.pool.added } := by
  have hget : ∀ id, (w.share e).1.pool.get? id =
      if id = s.world.pool.added then some e else s.world.pool.get? id := by
    rw [← hpool]
    exact Pool.get?_add w.pool e
  have hlookup : ∀ {stream' id}, c.lookup stream' = some id →
      (c.slots.insert stream s.world.pool.added).get? stream' = some id := by
    intro stream' id hid
    have hne : stream' ≠ stream := by
      rintro rfl
      cases hnone.symm.trans hid
    exact (Table.get?_insert_of_ne _ _ hne).trans hid
  refine hx.put hx.device (fun id e' he' hdevice => ?_) ?_ (fun a ha id e' hok => ?_)
    (fun stream' id hid => ?_)
  · rw [hget] at he'
    split at he'
    · next hid => exact ⟨stream, hid ▸ Table.get?_insert_self _ _ _⟩
    · obtain ⟨stream', hid⟩ := hx.kept id e' he' hdevice
      exact ⟨stream', hlookup hid⟩
  · rw [failedBinds_append, failedBinds_singleton]
    have hsize : Cache.size { c with slots := c.slots.insert stream s.world.pool.added } =
        c.size + 1 := Table.length_insert_of_get?_eq_none hnone _
    rw [hsize]
    refine Eq.trans hcounts ?_
    simp [failedBind, record_ok, Nat.add_right_comm]
  · rcases List.mem_append.mp ha with ha | ha
    · obtain ⟨hid, he⟩ := hx.yields a ha id e' hok
      obtain ⟨e₀, he₀, -⟩ := h.slot hx.alive hid
      refine ⟨hlookup hid, ?_⟩
      rw [hget, if_neg (Nat.ne_of_lt (h.pool.lt_added id e₀ he₀)), he]
    · cases List.mem_singleton.mp ha
      cases hok
      exact ⟨Table.get?_insert_self _ _ _, rfl⟩
  · change (c.slots.insert stream s.world.pool.added).get? stream' = some id at hid
    rw [Table.get?_insert] at hid
    split at hid
    · next hsame =>
      exact ⟨_, List.mem_append_right _ (List.mem_singleton_self _), hsame.symm, _, rfl⟩
    · obtain ⟨a, ha, hrest⟩ := hx.known stream' id hid
      exact ⟨a, List.mem_append_left _ ha, hrest⟩

/-- No entry is made; a handle that could not be bound has gone back. -/
theorem refuse {w : World} {stream : Stream} {f : InitFailure} (hx : Exclusive n d past s c)
    (hpool : w.pool = s.world.pool)
    (hcounts : (w.device d).counts =
      ⟨c.size + failedBinds (past ++ [⟨stream, .error f⟩]), c.size,
        failedBinds (past ++ [⟨stream, .error f⟩])⟩) :
    Exclusive n d (past ++ [record w (stream, .error f)]) { s with world := w } c where
  alive := hx.alive
  device := hx.device
  sole := hx.sole
  foreign := hx.foreign
  kept := by
    rw [hpool]
    exact hx.kept
  counts := hcounts
  yields a ha id e hok := by
    rcases List.mem_append.mp ha with ha | ha
    · rw [hpool]
      exact hx.yields a ha id e hok
    · cases List.mem_singleton.mp ha
      cases hok
  known stream' id hid := by
    obtain ⟨a, ha, hrest⟩ := hx.known stream' id hid
    exact ⟨a, List.mem_append_left _ ha, hrest⟩

/-- One acquisition, with the cache put back in its place or left where it is. -/
theorem supply (hx : Exclusive n d past s c) (h : s.Sound) (stream : Stream) :
    Exclusive n d
      (past ++ [record (c.acquire s.world stream).1 (stream, (c.acquire s.world stream).2.2)])
      ({ s with world := (c.acquire s.world stream).1 }.setCache n (c.acquire s.world stream).2.1)
      (c.acquire s.world stream).2.1 ∧
    ∀ f, (c.acquire s.world stream).2.2 = .error f →
      Exclusive n d (past ++ [record (c.acquire s.world stream).1 (stream, .error f)])
        { s with world := (c.acquire s.world stream).1 } c := by
  have hlt := (h.cache n c hx.alive).device_lt
  have hdevice := hx.device
  subst hdevice
  rw [Cache.acquire_eq_supply]
  rcases Cache.supply_course (p := fun _ => True) h.numbered hlt trivial stream with
    ⟨id, hid, heq⟩ | ⟨hnone, w, e, heq, hcourse, hdevice⟩ | ⟨hnone, w, f, heq, hcourse⟩
  · rw [heq]
    have hfound : ∀ q ∈ [(stream, (.ok id : Except InitFailure Nat))], ∃ id, q.2 = .ok id ∧
        c.lookup q.1 = some id :=
      List.forall_mem_singleton.mpr ⟨id, rfl, hid⟩
    exact ⟨putBack (s := s) (w := s.world) (hx.hits hfound), nofun⟩
  · have hcounts := Cache.supply_counts hlt hnone hx.counts
    rw [heq] at hcounts ⊢
    refine ⟨hx.stock h hnone hcourse.pool ?_, nofun⟩
    rcases hcounts with ⟨_, -, hcounts⟩ | ⟨f, hf, -⟩ | ⟨f, hf, -⟩
    · exact hcounts
    · cases hf
    · cases hf
  · have hcounts := Cache.supply_counts hlt hnone hx.counts
    rw [heq] at hcounts ⊢
    have hrefused : Exclusive n c.device (past ++ [record w (stream, .error f)])
        { s with world := w } c := by
      refine hx.refuse hcourse.pool ?_
      rw [failedBinds_append, failedBinds_singleton]
      rcases hcounts with ⟨id, hid, -⟩ | ⟨f', hf, hstage, hcounts⟩ | ⟨f', hf, hstage, hcounts⟩
      · cases hid
      · cases hf
        refine Eq.trans hcounts ?_
        simp [failedBind, hstage]
      · cases hf
        refine Eq.trans hcounts ?_
        simp [failedBind, hstage, Nat.add_assoc]
    refine ⟨putBack hrefused, fun f' hf => ?_⟩
    cases hf
    exact hrefused

/-- Several acquisitions, with the cache put back after the last one. -/
theorem acquireAll (hx : Exclusive n d past s c) (h : s.Sound) (streams : List Stream) :
    Exclusive n d
      (past ++ (streams.zip (c.acquireAll s.world streams).2.2).map
        (record (c.acquireAll s.world streams).1))
      ({ s with world := (c.acquireAll s.world streams).1 }.setCache n
        (c.acquireAll s.world streams).2.1)
      (c.acquireAll s.world streams).2.1 := by
  induction streams generalizing s c past with
  | nil =>
    rw [← List.append_nil past] at hx
    exact putBack (s := s) (w := s.world) hx
  | cons stream rest ih =>
    obtain ⟨hkeeps, -⟩ := supply_keeps h hx.alive stream
    obtain ⟨hfirst, -⟩ := hx.supply h stream
    have hrest := ih hfirst hkeeps.sound
    simp only [setCache, Pool.set_set] at hrest
    have hsame := hrest.recorded (List.mem_append_left _
      (List.mem_append_right past (List.mem_singleton_self _)))
    rw [hsame, List.append_assoc] at hrest
    exact hrest

end Exclusive

end Session

end SparseDevice
