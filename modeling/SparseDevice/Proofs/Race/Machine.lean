import SparseDevice.Proofs.Ownership.Entry
import SparseDevice.Proofs.Ownership.Sound

/-!
# Racing acquisitions

Several threads acquire streams from one cache at the same time. Each acquisition is two atomic
steps, since the cache is locked for either of them alone: a look-up, and a supply that looks again
before it makes an entry. In between, any number of other threads may take their steps, and one of
them may have made the entry.

## The invariant

`Grown` compares the cache and the world with those before the race: nothing that was there has
gone, and every entry that came is kept for its stream. It is what one supply preserves, so it holds
at any point of any interleaving, whatever the device answers. What threads know about the cache
stays true because the cache only grows.

## Main definitions

* `Race`: a world, a cache and its threads; `Race.turn` is one atomic step of one thread.
* `Race.play`: the steps of a schedule, in order.
* `Grown`: a cache and a world after some acquisitions.
* `Race.Consistent`: what holds at any point of a race.

## Main results

* `Grown.supply`: what a supply preserves.
* `Race.Consistent.play`: every interleaving is consistent.
* `Race.over_play`: a schedule that gives every thread two turns ends the race.
-/

namespace SparseDevice

namespace Race

/-- How far a thread has come. -/
inductive Phase where
  /-- It has not looked yet. -/
  | waiting
  /-- It has looked and found nothing. -/
  | missed
  | done (answer : Except InitFailure Nat)
deriving DecidableEq

/-- A thread that acquires a stream. -/
structure Thread where
  stream : Stream
  phase : Phase
deriving DecidableEq

namespace Thread

/-- One atomic step of a thread. -/
def turn (w : World) (c : Cache) (t : Thread) : World × Cache × Thread :=
  match t.phase with
  | .waiting =>
    match c.lookup t.stream with
    | some id => (w, c, { t with phase := .done (.ok id) })
    | none => (w, c, { t with phase := .missed })
  | .missed =>
    let (w, c, answer) := c.supply w t.stream
    (w, c, { t with phase := .done answer })
  | .done _ => (w, c, t)

/-- What a thread got, once it is done. -/
def answer? (t : Thread) : Option (Except InitFailure Nat) :=
  match t.phase with
  | .done answer => some answer
  | .waiting | .missed => none

end Thread

end Race

/-- Threads that work on one cache. -/
structure Race where
  world : World
  cache : Cache
  threads : List Race.Thread
deriving DecidableEq

namespace Race

/-- A race before its first step: one thread for each stream of a list. -/
def start (w : World) (c : Cache) (streams : List Stream) : Race :=
  ⟨w, c, streams.map (⟨·, .waiting⟩)⟩

/-- One atomic step of the thread with a number. -/
def turn (r : Race) (i : Nat) : Race :=
  match r.threads[i]? with
  | some t =>
    let (world, cache, t) := t.turn r.world r.cache
    ⟨world, cache, r.threads.set i t⟩
  | none => r

/-- The steps of a schedule, which names the thread whose turn it is. -/
def play (r : Race) (schedule : List Nat) : Race := schedule.foldl turn r

/-- All threads are done. -/
def Over (r : Race) : Prop := ∀ t ∈ r.threads, t.answer?.isSome = true

instance (r : Race) : Decidable r.Over :=
  inferInstanceAs (Decidable (∀ t ∈ r.threads, t.answer?.isSome = true))

/-- What the threads got that are done. -/
def answers (r : Race) : List (Except InitFailure Nat) := r.threads.filterMap Thread.answer?

@[simp] theorem play_nil (r : Race) : r.play [] = r := rfl

@[simp] theorem play_cons (r : Race) (i : Nat) (schedule : List Nat) :
    r.play (i :: schedule) = (r.turn i).play schedule := rfl

theorem turn_of_getElem? {r : Race} {i : Nat} {t : Thread} (ht : r.threads[i]? = some t) :
    r.turn i = ⟨(t.turn r.world r.cache).1, (t.turn r.world r.cache).2.1,
      r.threads.set i (t.turn r.world r.cache).2.2⟩ := by
  rw [turn, ht]

theorem Thread.stream_turn (w : World) (c : Cache) (t : Thread) :
    (t.turn w c).2.2.stream = t.stream := by
  rw [turn]
  cases t.phase with
  | waiting => cases c.lookup t.stream <;> rfl
  | missed => rfl
  | done answer => rfl

/-- A thread keeps its stream. -/
theorem streams_turn (r : Race) (i : Nat) :
    (r.turn i).threads.map Thread.stream = r.threads.map Thread.stream := by
  cases ht : r.threads[i]? with
  | none => rw [turn, ht]
  | some t =>
    rw [turn_of_getElem? ht]
    refine List.ext_getElem? ?_
    intro j
    rw [List.getElem?_map, List.getElem?_map]
    by_cases hj : i = j
    · subst hj
      have hlt : i < r.threads.length := (List.getElem?_eq_some_iff.mp ht).1
      rw [List.getElem?_set_self hlt, ht, Option.map_some, Option.map_some, Thread.stream_turn]
    · rw [List.getElem?_set_ne hj]

theorem streams_play (w : World) (c : Cache) (streams : List Stream) (schedule : List Nat) :
    ((start w c streams).play schedule).threads.map Thread.stream = streams := by
  have hplay : ∀ r : Race, (r.play schedule).threads.map Thread.stream =
      r.threads.map Thread.stream := by
    induction schedule with
    | nil => exact fun _ => rfl
    | cons i rest ih => exact fun r => (ih (r.turn i)).trans (streams_turn r i)
  rw [hplay, start, List.map_map]
  exact List.map_id streams

end Race

/-! ### What grows -/

/-- A cache and a world after some acquisitions from `c` in `w`: what was there is still there, and
what has come is kept for its stream. -/
structure Grown (w : World) (c : Cache) (w' : World) (c' : Cache) : Prop where
  numbered : w'.Numbered
  pool : w'.pool.Sound
  cache : c'.Sound w'
  device : c'.device = c.device
  ready : ∀ id e, w'.pool.get? id = some e → e.Ready
  kept : ∀ stream id, c.lookup stream = some id → c'.lookup stream = some id
  shared : ∀ id e, w.pool.get? id = some e → w'.pool.get? id = some e
  fresh : ∀ id e, w.pool.get? id = none → w'.pool.get? id = some e → c'.lookup e.stream = some id

/-- A cache in a sound session has grown from itself. -/
theorem Session.SoundBut.grown {s : Session} {loose looseCaches : List Nat}
    (h : s.SoundBut loose looseCaches) {n : Nat} {c : Cache} (hn : s.cachePool.get? n = some c) :
    Grown s.world c s.world c where
  numbered := h.numbered
  pool := h.pool
  cache := h.cache n c hn
  device := rfl
  ready id e he := (h.shared id e he).2
  kept _ _ hid := hid
  shared _ _ he := he
  fresh id e hnone he := by
    rw [hnone] at he
    cases he

namespace Grown

variable {w w' : World} {c c' : Cache}

/-- What happens to devices makes no difference. -/
theorem withWorld (h : Grown w c w' c') {w'' : World} {made : List Handle.Key}
    {back : List (Nat × Handle.Key)} (ht : w'.Turnover w'' made back) : Grown w c w'' c' := by
  have hget : ∀ id, w''.pool.get? id = w'.pool.get? id := fun id => by rw [ht.pool]
  exact { h with
    numbered := ht.numbered h.numbered
    pool := by
      rw [ht.pool]
      exact h.pool
    cache := h.cache.congr ht.pool ht.length_le
    ready := fun id e he => h.ready id e ((hget id).symm.trans he)
    shared := fun id e he => (hget id).trans (h.shared id e he)
    fresh := fun id e hnone he => h.fresh id e hnone ((hget id).symm.trans he) }

/-- A new entry is kept for a stream that had none. -/
theorem stock (h : Grown w c w' c') {e : Entry} {stream : Stream}
    (hnone : c'.lookup stream = none) (hready : e.Ready) (hstream : e.stream = stream)
    (hdevice : e.device = c'.device) :
    Grown w c (w'.share e).1 { c' with slots := c'.slots.insert stream w'.pool.added } := by
  have hlookup : ∀ stream' id, c'.lookup stream' = some id →
      (c'.slots.insert stream w'.pool.added).get? stream' = some id := by
    intro stream' id hid
    have hne : stream' ≠ stream := by
      rintro rfl
      cases hnone.symm.trans hid
    exact (Table.get?_insert_of_ne _ _ hne).trans hid
  have hcases : ∀ id e', (w'.share e).1.pool.get? id = some e' →
      (id = w'.pool.added ∧ e' = e) ∨ w'.pool.get? id = some e' := by
    intro id e' he'
    rw [World.share, Pool.get?_add] at he'
    split at he'
    · next hid =>
      cases he'
      exact .inl ⟨hid, rfl⟩
    · exact .inr he'
  exact {
    numbered := h.numbered
    pool := h.pool.add e
    cache := Cache.Sound.insert h.cache h.pool hstream hdevice
    device := h.device
    ready := fun id e' he' => by
      rcases hcases id e' he' with ⟨-, rfl⟩ | he'
      · exact hready
      · exact h.ready id e' he'
    kept := fun stream' id hid => hlookup stream' id (h.kept stream' id hid)
    shared := fun id e' he' => h.pool.get?_add_of_some e (h.shared id e' he')
    fresh := fun id e' hgone he' => by
      rcases hcases id e' he' with ⟨rfl, rfl⟩ | he'
      · rw [hstream]
        exact Table.get?_insert_self _ _ _
      · exact hlookup e'.stream id (h.fresh id e' hgone he') }

/-- What a supply preserves and answers. -/
theorem supply (h : Grown w c w' c') (stream : Stream) :
    Grown w c (c'.supply w' stream).1 (c'.supply w' stream).2.1 ∧
      (∀ stream' id, c'.lookup stream' = some id →
        (c'.supply w' stream).2.1.lookup stream' = some id) ∧
      (∀ id, (c'.supply w' stream).2.2 = .ok id →
        (c'.supply w' stream).2.1.lookup stream = some id) ∧
      ∀ f, (c'.supply w' stream).2.2 = .error f → c'.lookup stream = none := by
  rcases Cache.supply_cases h.numbered h.cache.device_lt stream with
    ⟨id, hid, hx⟩ | ⟨hnone, w'', e, hx, ht, hready, hstream, hdevice⟩ | ⟨hnone, w'', f, made, hx, ht⟩ <;>
    rw [hx]
  · refine ⟨h, fun _ _ hid' => hid', ?_, nofun⟩
    intro id' hid'
    cases hid'
    exact hid
  · have hgrown := (h.withWorld ht).stock hnone hready hstream hdevice
    rw [ht.pool] at hgrown
    refine ⟨hgrown, ?_, ?_, nofun⟩
    · intro stream' id hid
      have hne : stream' ≠ stream := by
        rintro rfl
        cases hnone.symm.trans hid
      exact (Table.get?_insert_of_ne _ _ hne).trans hid
    · intro id hid
      cases hid
      exact Table.get?_insert_self _ _ _
  · exact ⟨h.withWorld ht, fun _ _ hid => hid, nofun, fun _ _ => hnone⟩

end Grown

namespace Race

variable {w : World} {c : Cache} {r : Race}

/-- What holds at any point of a race, faults or not. -/
structure Consistent (w : World) (c : Cache) (r : Race) : Prop where
  grown : Grown w c r.world r.cache
  /-- What a thread got is what the cache keeps. -/
  answered : ∀ t ∈ r.threads, ∀ id, t.phase = .done (.ok id) → r.cache.lookup t.stream = some id
  /-- Only a thread whose stream had no entry goes on to make one. -/
  missed : ∀ t ∈ r.threads, t.phase = .missed → c.lookup t.stream = none
  /-- Only a thread whose stream had no entry fails. -/
  failed : ∀ t ∈ r.threads, ∀ f, t.phase = .done (.error f) → c.lookup t.stream = none

theorem consistent_start (h : Grown w c w c) (streams : List Stream) :
    (start w c streams).Consistent w c := by
  have hwaiting : ∀ t ∈ (start w c streams).threads, t.phase = .waiting := by
    intro t ht
    obtain ⟨stream, -, rfl⟩ := List.mem_map.mp ht
    rfl
  refine ⟨h, fun t ht id hid => ?_, fun t ht hmissed => ?_, fun t ht f hf => ?_⟩
  · cases (hwaiting t ht).symm.trans hid
  · cases (hwaiting t ht).symm.trans hmissed
  · cases (hwaiting t ht).symm.trans hf

/-- A thread is replaced, and the cache has grown. -/
theorem Consistent.replace (h : r.Consistent w c) {w' : World} {c' : Cache} {t : Thread} (i : Nat)
    (hgrown : Grown w c w' c')
    (hmono : ∀ stream id, r.cache.lookup stream = some id → c'.lookup stream = some id)
    (hanswered : ∀ id, t.phase = .done (.ok id) → c'.lookup t.stream = some id)
    (hmissed : t.phase = .missed → c.lookup t.stream = none)
    (hfailed : ∀ f, t.phase = .done (.error f) → c.lookup t.stream = none) :
    Consistent w c ⟨w', c', r.threads.set i t⟩ := by
  refine ⟨hgrown, fun t' ht' => ?_, fun t' ht' => ?_, fun t' ht' => ?_⟩
  · rcases List.mem_or_eq_of_mem_set ht' with hold | rfl
    · exact fun id hid => hmono _ _ (h.answered t' hold id hid)
    · exact hanswered
  · rcases List.mem_or_eq_of_mem_set ht' with hold | rfl
    · exact h.missed t' hold
    · exact hmissed
  · rcases List.mem_or_eq_of_mem_set ht' with hold | rfl
    · exact h.failed t' hold
    · exact hfailed

/-- What is not in the cache now was not there before. -/
theorem Consistent.lookup_none (h : r.Consistent w c) {stream : Stream}
    (hnone : r.cache.lookup stream = none) : c.lookup stream = none := by
  cases hid : c.lookup stream with
  | none => rfl
  | some id => cases hnone.symm.trans (h.grown.kept stream id hid)

/-- A step of a thread leaves a race consistent, whoever has made a step before. -/
theorem Consistent.turn (h : r.Consistent w c) (i : Nat) : (r.turn i).Consistent w c := by
  cases ht : r.threads[i]? with
  | none =>
    rw [Race.turn, ht]
    exact h
  | some t =>
    have hmem : t ∈ r.threads := List.mem_of_getElem? ht
    rw [turn_of_getElem? ht, Thread.turn]
    cases hphase : t.phase with
    | waiting =>
      simp only
      cases hid : r.cache.lookup t.stream with
      | some id =>
        refine h.replace i h.grown (fun _ _ hid' => hid') ?_ nofun nofun
        intro id' hid'
        cases hid'
        exact hid
      | none =>
        exact h.replace i h.grown (fun _ _ hid' => hid') nofun (fun _ => h.lookup_none hid) nofun
    | missed =>
      obtain ⟨hgrown, hmono, hanswered, hfailed⟩ := h.grown.supply t.stream
      refine h.replace i hgrown hmono (fun id hid => ?_) nofun (fun f hf => ?_)
      · exact hanswered id (by injection hid)
      · exact h.lookup_none (hfailed f (by injection hf))
    | done answer =>
      refine h.replace i h.grown (fun _ _ hid => hid) (h.answered t hmem) (h.missed t hmem)
        (h.failed t hmem)

/-- Every interleaving is consistent. -/
theorem Consistent.play (h : r.Consistent w c) (schedule : List Nat) :
    (r.play schedule).Consistent w c := by
  induction schedule generalizing r with
  | nil => exact h
  | cons i rest ih => exact ih (h.turn i)

/-! ### The end of a race -/

/-- How many turns a thread has taken. -/
def Phase.turns : Phase → Nat
  | .waiting => 0
  | .missed => 1
  | .done _ => 2

/-- A turn brings a thread at least one step on. -/
theorem Thread.turns_turn (w : World) (c : Cache) (t : Thread) :
    min 2 (t.phase.turns + 1) ≤ (t.turn w c).2.2.phase.turns := by
  rw [turn]
  cases hphase : t.phase with
  | waiting =>
    simp only
    cases c.lookup t.stream with
    | some id => exact Nat.le_succ 1
    | none => exact Nat.le_refl 1
  | missed => exact Nat.le_refl 2
  | done answer =>
    simp only [hphase]
    exact Nat.le_refl 2

theorem turns_play (schedule : List Nat) {r : Race} {i : Nat} {t : Thread}
    (ht : r.threads[i]? = some t) :
    ∃ t', (r.play schedule).threads[i]? = some t' ∧
      min 2 (t.phase.turns + schedule.count i) ≤ t'.phase.turns := by
  induction schedule generalizing r t with
  | nil =>
    refine ⟨t, ht, ?_⟩
    rw [List.count_nil]
    omega
  | cons j rest ih =>
    rw [play_cons]
    by_cases hj : j = i
    · subst hj
      have hlt : j < r.threads.length := (List.getElem?_eq_some_iff.mp ht).1
      have hturn : (r.turn j).threads[j]? = some (t.turn r.world r.cache).2.2 := by
        rw [turn_of_getElem? ht, List.getElem?_set_self hlt]
      obtain ⟨t', ht', hle⟩ := ih hturn
      have hstep := t.turns_turn r.world r.cache
      refine ⟨t', ht', ?_⟩
      rw [List.count_cons_self]
      omega
    · have hturn : (r.turn j).threads[i]? = some t := by
        cases hother : r.threads[j]? with
        | none =>
          rw [turn, hother]
          exact ht
        | some other =>
          rw [turn_of_getElem? hother, List.getElem?_set_ne hj]
          exact ht
      obtain ⟨t', ht', hle⟩ := ih hturn
      refine ⟨t', ht', ?_⟩
      rw [List.count_cons_of_ne hj]
      exact hle

/-- A schedule that gives every thread two turns ends the race. -/
theorem over_play {streams : List Stream} {schedule : List Nat}
    (hturns : ∀ i, i < streams.length → 2 ≤ schedule.count i) :
    ((start w c streams).play schedule).Over := by
  intro t ht
  have hlength : ((start w c streams).play schedule).threads.length = streams.length := by
    have hstreams := congrArg List.length (streams_play w c streams schedule)
    rwa [List.length_map] at hstreams
  obtain ⟨i, hi, rfl⟩ := List.getElem_of_mem ht
  have hlt : i < streams.length := hlength ▸ hi
  have hstart : (start w c streams).threads[i]? = some ⟨streams[i], .waiting⟩ := by
    rw [start, List.getElem?_map, List.getElem?_eq_getElem hlt, Option.map_some]
  obtain ⟨t', ht', hle⟩ := turns_play schedule hstart
  rw [List.getElem?_eq_getElem hi] at ht'
  cases ht'
  have htwo := hturns i hlt
  rw [Thread.answer?]
  cases hphase : (((start w c streams).play schedule).threads[i]).phase with
  | waiting =>
    rw [hphase] at hle
    simp only [Phase.turns] at hle
    omega
  | missed =>
    rw [hphase] at hle
    simp only [Phase.turns] at hle
    omega
  | done answer => rfl

end Race

end SparseDevice
