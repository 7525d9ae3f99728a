import SparseDevice.Proofs.Ownership.Run
import SparseDevice.Proofs.Race.Smooth

/-!
# Interleavings

Whatever the interleaving and whatever the device answers, the threads of a race agree on the entry
of a stream, and no stream gets two. Where no fault is armed, every thread succeeds, and the streams
of the cache, the counters and the answers are those of the same acquisitions done one after the
other.

The acquisitions one after the other are one of the interleavings, in which every thread takes both
of its turns in a row. So it is enough to compare any interleaving with what the list of streams
says.

## Main definitions

* `Race.Safe`: what the threads get, faults or not.
* `Session.Agrees`: a race comes to the same as its acquisitions one after the other.

## Main results

* `Race.acquireAll_eq_play`: one after the other is an interleaving.
* `Session.race_interleavings`: all interleavings.
-/

namespace SparseDevice

namespace Race

variable {w : World} {c : Cache} {r : Race}

/-! ### One after the other -/

/-- The schedule in which every thread takes its two turns in a row. -/
def oneByOne (first : Nat) : Nat → List Nat
  | 0 => []
  | count + 1 => first :: first :: oneByOne (first + 1) count

/-- Two turns in a row are an acquisition. -/
theorem Thread.turn_turn (w : World) (c : Cache) (stream : Stream) :
    (turn w c ⟨stream, .waiting⟩).2.2.turn (turn w c ⟨stream, .waiting⟩).1
        (turn w c ⟨stream, .waiting⟩).2.1 =
      ((c.acquire w stream).1, (c.acquire w stream).2.1,
        ⟨stream, .done (c.acquire w stream).2.2⟩) := by
  cases hid : c.lookup stream with
  | some id =>
    have hturn : turn w c ⟨stream, .waiting⟩ = (w, c, ⟨stream, .done (.ok id)⟩) := by
      simp only [turn, hid]
    rw [hturn, Cache.acquire, hid]
    rfl
  | none =>
    have hturn : turn w c ⟨stream, .waiting⟩ = (w, c, ⟨stream, .missed⟩) := by
      simp only [turn, hid]
    rw [hturn, Cache.acquire, hid]
    rfl

variable {w : World} {c : Cache} {r : Race}

/-- One acquisition after the other is one of the interleavings. -/
theorem play_oneByOne (w : World) (c : Cache) (before : List Thread) (streams : List Stream) :
    play ⟨w, c, before ++ streams.map (⟨·, .waiting⟩)⟩ (oneByOne before.length streams.length) =
      ⟨(c.acquireAll w streams).1, (c.acquireAll w streams).2.1,
        before ++ List.zipWith (fun stream answer => ⟨stream, .done answer⟩) streams
          (c.acquireAll w streams).2.2⟩ := by
  induction streams generalizing w c before with
  | nil => rfl
  | cons stream rest ih =>
    have hfirst : ∀ (w : World) (c : Cache) (t : Thread) (ts : List Thread),
        turn ⟨w, c, before ++ t :: ts⟩ before.length =
          ⟨(t.turn w c).1, (t.turn w c).2.1, before ++ (t.turn w c).2.2 :: ts⟩ := by
      intro w c t ts
      have ht : (before ++ t :: ts)[before.length]? = some t := by
        rw [List.getElem?_append_right (Nat.le_refl _), Nat.sub_self, List.getElem?_cons_zero]
      rw [turn_of_getElem? ht, List.set_append_right _ _ (Nat.le_refl _), Nat.sub_self,
        List.set_cons_zero]
    have hboth := Thread.turn_turn w c stream
    have hrest := ih (c.acquire w stream).1 (c.acquire w stream).2.1
      (before ++ [⟨stream, .done (c.acquire w stream).2.2⟩])
    rw [List.length_append, List.length_singleton, List.append_assoc, List.append_assoc,
      List.singleton_append, List.singleton_append] at hrest
    rw [List.map_cons, List.length_cons, oneByOne, play_cons, play_cons, hfirst, hfirst, hboth,
      hrest]
    rfl

theorem acquireAll_eq_play (w : World) (c : Cache) (streams : List Stream) :
    let r := (start w c streams).play (oneByOne 0 streams.length)
    r.world = (c.acquireAll w streams).1 ∧ r.cache = (c.acquireAll w streams).2.1 ∧
      r.answers = (c.acquireAll w streams).2.2 ∧ r.Over := by
  have hplay := play_oneByOne w c [] streams
  rw [List.nil_append, List.nil_append] at hplay
  intro r
  have hr : r = _ := hplay
  rw [hr]
  refine ⟨rfl, rfl, ?_, fun t ht => ?_⟩
  · rw [answers, ← List.map_uncurry_zip_eq_zipWith, List.filterMap_map]
    have hlength := c.length_acquireAll w streams
    refine Eq.trans ?_ (List.map_snd_zip (Nat.le_of_eq hlength))
    rw [← List.filterMap_eq_map]
    rfl
  · rw [← List.map_uncurry_zip_eq_zipWith] at ht
    obtain ⟨p, -, rfl⟩ := List.mem_map.mp ht
    rfl

/-! ### All interleavings -/

/-- What the threads of a race get, faults or not. -/
structure Safe (w : World) (c : Cache) (streams : List Stream) (r : Race) : Prop where
  /-- There is one thread for each stream of the list. -/
  streams : r.threads.map Thread.stream = streams
  /-- A stream has one entry in the cache. -/
  keyed : r.cache.slots.Keyed
  /-- What was in the cache stays there. -/
  kept : ∀ stream id, c.lookup stream = some id → r.cache.lookup stream = some id
  /-- An entry that was made in the race is the first one of its stream and the one that the cache
  keeps for it. -/
  made : ∀ id e, w.pool.get? id = none → r.world.pool.get? id = some e →
    c.lookup e.stream = none ∧ r.cache.lookup e.stream = some id
  /-- Threads get the same entry exactly if they acquire the same stream. -/
  same : ∀ t ∈ r.threads, ∀ t' ∈ r.threads, ∀ id id', t.phase = .done (.ok id) →
    t'.phase = .done (.ok id') → (id = id' ↔ t.stream = t'.stream)
  /-- A thread whose stream had an entry gets that one. -/
  cached : ∀ t ∈ r.threads, ∀ id answer, c.lookup t.stream = some id →
    t.phase = .done answer → answer = .ok id
  /-- What a thread gets is up, for its stream, and kept in the cache. -/
  usable : ∀ t ∈ r.threads, ∀ id, t.phase = .done (.ok id) →
    r.cache.lookup t.stream = some id ∧ ∃ e, r.world.pool.get? id = some e ∧ e.Ready ∧
      e.stream = t.stream ∧ e.device = c.device

theorem Consistent.safe (h : r.Consistent w c) (hstart : Grown w c w c) {streams : List Stream}
    (hstreams : r.threads.map Thread.stream = streams) : r.Safe w c streams where
  streams := hstreams
  keyed := h.grown.cache.keyed
  kept := h.grown.kept
  made id e hnone he := by
    have hid := h.grown.fresh id e hnone he
    refine ⟨?_, hid⟩
    cases hold : c.lookup e.stream with
    | none => rfl
    | some id' =>
      obtain ⟨e', he', -⟩ := hstart.cache.entry e.stream id' hold
      cases hid.symm.trans (h.grown.kept e.stream id' hold)
      cases hnone.symm.trans he'
  same t ht t' ht' id id' hid hid' := by
    have hlookup := h.answered t ht id hid
    have hlookup' := h.answered t' ht' id' hid'
    constructor
    · rintro rfl
      exact h.stream_inj hlookup hlookup'
    · intro hsame
      rw [hsame] at hlookup
      exact Option.some.inj (hlookup.symm.trans hlookup')
  cached t ht id answer hid hphase := by
    cases answer with
    | error f => cases hid.symm.trans (h.failed t ht f hphase)
    | ok id' =>
      have hlookup := h.answered t ht id' hphase
      rw [Option.some.inj ((h.grown.kept t.stream id hid).symm.trans hlookup)]
  usable t ht id hid := by
    have hlookup := h.answered t ht id hid
    obtain ⟨e, he, hstream, hdevice⟩ := h.grown.cache.entry t.stream id hlookup
    exact ⟨hlookup, e, he, h.grown.ready id e he, hstream, hdevice.trans h.grown.device⟩

end Race

namespace Session

/-- A race comes to the same as the step that acquires one stream after the other. -/
structure Agrees (s : Session) (n : Nat) (c : Cache) (streams : List Stream) (r : Race) : Prop where
  answer : (s.race n c streams).2 =
    .value (.race (Race.outcome r.answers).1 (Race.outcome r.answers).2)
  keys : ∃ c', (s.race n c streams).1.cachePool.get? n = some c' ∧ r.cache.streams.Perm c'.streams
  devices : ∀ serial, r.world.device serial = (s.race n c streams).1.world.device serial

/-- **All interleavings of racing acquisitions.** The race starts in a session after any run, and
its steps come in any order. -/
theorem race_interleavings (steps : List Step) {n : Nat} {c : Cache}
    (hn : (empty.after steps).cachePool.get? n = some c) (streams : List Stream)
    (schedule : List Nat) :
    let s := empty.after steps
    let r := (Race.start s.world c streams).play schedule
    r.Safe s.world c streams ∧
      ((s.world.device c.device).Unarmed → r.Over →
        r.Complete s.world c streams ∧ s.Agrees n c streams r) := by
  intro s r
  have hstart : Grown s.world c s.world c := (after_sound steps).grown hn
  have hconsistent : ∀ order, ((Race.start s.world c streams).play order).Consistent s.world c :=
    fun order => (Race.consistent_start hstart streams).play order
  refine ⟨(hconsistent schedule).safe hstart (Race.streams_play _ _ _ _), ?_⟩
  intro hu hover
  have hcomplete : ∀ order, ((Race.start s.world c streams).play order).Over →
      ((Race.start s.world c streams).play order).Complete s.world c streams := by
    intro order hend
    have hsmooth := (Race.smooth_start hu streams).play (Race.consistent_start hstart streams) order
    exact hsmooth.complete (hconsistent order) hstart (Race.streams_play _ _ _ _) hend
  obtain ⟨hworld, hcache, hanswers, hend⟩ := Race.acquireAll_eq_play s.world c streams
  have hrace := hcomplete schedule hover
  have hsequential := hcomplete _ hend
  refine ⟨hrace, ?_, ?_, ?_⟩
  · have hsame := hrace.answers.trans hsequential.answers.symm
    rw [hanswers] at hsame
    rw [hsame]
    rfl
  · have hkeys := hrace.keys.trans hsequential.keys.symm
    rw [hcache] at hkeys
    exact ⟨_, get?_setCache_self _ n _, hkeys⟩
  · intro serial
    show r.world.device serial = (c.acquireAll s.world streams).1.device serial
    rw [← hworld]
    by_cases hserial : serial = c.device
    · rw [hserial, hrace.device, hsequential.device]
    · rw [hrace.others serial hserial, hsequential.others serial hserial]

/-- A run after which one stream is cached. -/
def oneCached : List Step := [.addDevice "d", .addCache "c" "d", .acquire "c" ⟨1⟩ "r"]

/-- Two threads miss the same stream, and the later one to look is the first one to supply. -/
theorem oneCached_race :
    (empty.after oneCached).cachePool.get? 0 = some ⟨0, [(⟨1⟩, 0)], []⟩ ∧
      let s := empty.after oneCached
      let r := (Race.start s.world ⟨0, [(⟨1⟩, 0)], []⟩ [⟨1⟩, ⟨2⟩, ⟨2⟩]).play [0, 1, 2, 2, 1]
      r.Safe s.world ⟨0, [(⟨1⟩, 0)], []⟩ [⟨1⟩, ⟨2⟩, ⟨2⟩] ∧
        ((s.world.device 0).Unarmed ∧ r.Over) ∧
          r.Complete s.world ⟨0, [(⟨1⟩, 0)], []⟩ [⟨1⟩, ⟨2⟩, ⟨2⟩] ∧
            s.Agrees 0 ⟨0, [(⟨1⟩, 0)], []⟩ [⟨1⟩, ⟨2⟩, ⟨2⟩] r := by
  have hn : (empty.after oneCached).cachePool.get? 0 = some ⟨0, [(⟨1⟩, 0)], []⟩ := by decide +kernel
  have hu : ((empty.after oneCached).world.device 0).Unarmed := by decide +kernel
  have hover : ((Race.start (empty.after oneCached).world ⟨0, [(⟨1⟩, 0)], []⟩ [⟨1⟩, ⟨2⟩, ⟨2⟩]).play
      [0, 1, 2, 2, 1]).Over := by decide +kernel
  obtain ⟨hsafe, hend⟩ := race_interleavings oneCached hn [⟨1⟩, ⟨2⟩, ⟨2⟩] [0, 1, 2, 2, 1]
  exact ⟨hn, hsafe, ⟨hu, hover⟩, hend hu hover⟩

end Session

end SparseDevice
