import SparseDevice.Proofs.Lifetimes.Step
import SparseDevice.Proofs.Ownership.Run

/-!
# The log of lifetimes

The log names nothing but streams, so one cannot read off it which handle an event is about. What
one can do is count: for each stream, the tenures that began and did not end are those of the
entries that are up for it, however often handles moved from one entry to another and whatever the
devices answered on the way.

Behind the count stands more. The events of a step belong to single handles: a tenure that begins in
a step is that of an entry that is up after it, and one that ends is that of an entry that was up
before it, each of them once. So a handle that could not be bound appears in no event, and one that
is given back with a fault appears in one. As long as it lasts, a tenure is one of the same stream.

## Main definitions

* `Session.up`: how many entries are up for a stream.
* `Session.Records`: the events of a step, handle by handle.
* `Session.Balanced`: the count, the events of the next step, and the streams of what moves.

## Main results

* `Session.step_records`: what a step adds to the log.
* `Session.step_failed`: a step that could not bring up an entry adds nothing.
* `Session.after_tenure`: a handle has its tenure for one stream until it is taken back.
* `Session.log_balances`: the log balances after every run.
-/

namespace SparseDevice

open Handle (Key)

namespace Session

variable {s s' : Session} {begun ended : List Tenure}

/-- How many entries are up for a stream. -/
def up (s : Session) (stream : Stream) : Nat :=
  (s.entries.vals ++ s.world.pool.vals).countP fun e => e.initialized && decide (e.stream = stream)

/-- The events of a step, handle by handle: which tenures begin and which end, each once. -/
structure Records (s s' : Session) (begun ended : List Tenure) : Prop extends
    Turns s s' begun ended where
  /-- A tenure that begins is that of an entry that is up in the end. -/
  after : begun ⊆ s'.tenures
  /-- A tenure that ends is that of an entry that was up in the beginning. -/
  before : ended ⊆ s.tenures
  once : ((s.tenures ++ begun).map Prod.fst).Nodup

/-- The log balances, goes on handle by handle, and keeps to the stream of a handle. -/
structure Balanced (s : Session) : Prop where
  /-- The tenures that began and did not end are those of the entries that are up. -/
  balance : ∀ stream, s.world.log.count (.created stream) =
    s.world.log.count (.destroying stream) + s.up stream
  /-- The next step adds the events of single handles, whatever it answers. -/
  turn : ∀ t, ∃ begun ended, s.Records (s.step t).1 begun ended
  /-- A step that could not bring up an entry adds none. -/
  failed : ∀ t f, t.begins → (s.step t).2 = .failure f →
    (s.step t).1.world.opened = s.world.opened ∧ (s.step t).1.world.closed = s.world.closed
  /-- Whatever becomes of a handle, its tenure is one of the same stream. -/
  stream : ∀ later k stream stream', (k, stream) ∈ s.tenures →
    (k, stream') ∈ (s.after later).tenures → stream' = stream

/-! ### Counting -/

theorem count_tenures (es : List Entry) (stream : Stream) :
    ((es.flatMap Entry.tenures).map Prod.snd).count stream =
      es.countP fun e => e.initialized && decide (e.stream = stream) := by
  induction es with
  | nil => rfl
  | cons e es ih =>
    rw [List.flatMap_cons, List.map_append, List.count_append, ih, List.countP_cons, Nat.add_comm]
    cases he : e.handle with
    | none => simp [Entry.tenures_of_none he, Entry.initialized, he]
    | some h => simp [Entry.tenures_of_handle he, Entry.initialized, he, List.count_singleton]

theorem count_tenures_eq_up (s : Session) (stream : Stream) :
    (s.tenures.map Prod.snd).count stream = s.up stream := by
  rw [tenures, ← List.flatMap_append]
  exact count_tenures _ stream

theorem count_opened (w : World) (stream : Stream) :
    w.opened.count stream = w.log.count (.created stream) := by
  rw [World.opened, List.count_filterMap, List.count]
  refine List.countP_congr fun e _ => ?_
  cases e <;> simp [Event.opened?]

theorem count_closed (w : World) (stream : Stream) :
    w.closed.count stream = w.log.count (.destroying stream) := by
  rw [World.closed, List.count_filterMap, List.count]
  refine List.countP_congr fun e _ => ?_
  cases e <;> simp [Event.closed?]

/-- What the log says of a passage makes up for what it does to the entries. -/
theorem Turns.balance (ht : s.Turns s' begun ended)
    (hs : ∀ stream, s.world.opened.count stream = s.world.closed.count stream + s.up stream)
    (stream : Stream) :
    s'.world.opened.count stream = s'.world.closed.count stream + s'.up stream := by
  have hperm := (ht.tenures.map Prod.snd).count_eq stream
  have hstream := hs stream
  simp only [List.map_append, List.count_append, count_tenures_eq_up] at hperm
  rw [ht.opened, ht.closed, List.count_append, List.count_append]
  omega

/-! ### No handle has two tenures -/

theorem map_fst_tenures (s : Session) :
    s.tenures.map Prod.fst = s.entries.vals.flatMap Entry.keys ++
      s.world.pool.vals.flatMap Entry.keys := by
  rw [tenures, List.map_append, List.map_flatMap, List.map_flatMap]
  simp only [Entry.map_fst_tenures]

/-- A handle in a tenure is in the ledger, and so is one that was taken back. -/
theorem count_tenures_le (s : Session) (k : Key) :
    (s.tenures.map Prod.fst).count k + s.world.retired.count k ≤ s.ledger.count k := by
  rw [map_fst_tenures, ledger, owned]
  simp only [List.count_append]
  omega

/-- No handle has two tenures, and none that was taken back has one. -/
theorem tenures_apart (hnodup : s.ledger.Nodup) :
    (s.tenures.map Prod.fst).Nodup ∧ ∀ t ∈ s.tenures, t.1 ∉ s.world.retired := by
  have hone := List.nodup_iff_count_le_one.mp hnodup
  refine ⟨List.nodup_iff_count_le_one.mpr fun k => ?_, fun t ht hback => ?_⟩
  · have hle := s.count_tenures_le k
    have hk := hone k
    omega
  · have hle := s.count_tenures_le t.1
    have hk := hone t.1
    have hpos : 0 < (s.tenures.map Prod.fst).count t.1 :=
      List.count_pos_iff.mpr (List.mem_map_of_mem ht)
    have hpos' := List.count_pos_iff.mpr hback
    omega

/-- A passage keeps the handles of tenures apart. -/
theorem Turns.once (ht : s.Turns s' begun ended) (hnodup : s'.ledger.Nodup) :
    ((s.tenures ++ begun).map Prod.fst).Nodup := by
  refine (ht.tenures.map Prod.fst).nodup_iff.mp (List.nodup_iff_count_le_one.mpr fun k => ?_)
  have hgiven := ht.given k
  have hle := s'.count_tenures_le k
  have hone := List.nodup_iff_count_le_one.mp hnodup k
  rw [List.map_append, List.count_append]
  omega

/-- Tenures that begin and last are all there is to know about a passage. -/
theorem Turns.records (ht : s.Turns s' begun ended) (hafter : begun ⊆ s'.tenures)
    (hnodup : s'.ledger.Nodup) : s.Records s' begun ended where
  toTurns := ht
  after := hafter
  before := by
    intro t hended
    have hall : (s'.tenures ++ ended).Nodup :=
      ht.tenures.nodup_iff.mpr (List.Nodup.of_map _ (ht.once hnodup))
    have hmem := ht.tenures.mem_iff.mp (List.mem_append_right _ hended)
    refine (List.mem_append.mp hmem).resolve_right fun hbegun => ?_
    exact (List.nodup_append.mp hall).2.2 t (hafter hbegun) t hended rfl
  once := ht.once hnodup

/-! ### One step -/

/-- A passage on which no tenure ends. -/
theorem Turns.after_of_closed (ht : s.Turns s' begun ended)
    (hclosed : s'.world.closed = s.world.closed) : begun ⊆ s'.tenures := by
  have hended : ended = [] := by
    have h := ht.closed
    rw [hclosed] at h
    simpa using h
  intro t hbegun
  have hmem := ht.tenures.mem_iff.mpr (List.mem_append_right _ hbegun)
  rwa [hended, List.append_nil] at hmem

theorem mem_tenures_of_get? {id : Nat} {e : Entry} (he : s.world.pool.get? id = some e) :
    e.tenures ⊆ s.tenures := fun _ ht =>
  List.mem_append_right _ (List.mem_flatMap.mpr ⟨e, Table.mem_vals_of_get? he, ht⟩)

/-- What an acquisition begins is still there when the reference is stored. -/
theorem acquire_turns (h : s.Sound) {n : Nat} {c : Cache} (hn : s.cachePool.get? n = some c)
    (stream : Stream) (name : String) : ∃ begun ended,
      s.Turns (s.acquire n c stream name).1 begun ended ∧
        begun ⊆ (s.acquire n c stream name).1.tenures := by
  obtain ⟨hkeeps, hslot, -⟩ := supply_keeps h hn stream
  rw [acquire, onWorld_eq]
  rw [Cache.acquire_eq_supply] at hkeeps hslot ⊢
  rcases Cache.supply_course (p := fun _ => True) h.numbered (h.cache n c hn).device_lt trivial
    stream with ⟨id, hid, hx⟩ | ⟨-, w, e, hx, hcourse, -⟩ | ⟨-, w, f, hx, hcourse⟩ <;>
    rw [hx] at hkeeps hslot ⊢
  · obtain ⟨hanswer, -⟩ := answerShared_slot hkeeps.sound (get?_setCache_self _ n c) hid name
    have hfound : Passage (fun _ => False) False s ((s.setCache n c).answerShared id name).1 :=
      (passage_setCache hn rfl (.inl rfl)).trans h.pool hanswer
    obtain ⟨ended, ht⟩ := hfound.ends not_false
    exact ⟨[], ended, ht, List.nil_subset _⟩
  · obtain ⟨hanswer, hkept⟩ := answerShared_slot hkeeps.sound
      (get?_setCache_self _ n { c with slots := c.slots.insert stream s.world.pool.added })
      (hslot _ rfl) name
    have hstocked : s.Turns ({ s with world := (w.share e).1 }.setCache n
        { c with slots := c.slots.insert stream s.world.pool.added })
        (e.tenures ++ []) ([] ++ []) :=
      (turns_share h.pool hcourse).trans (turns_of_eq rfl rfl)
    obtain ⟨ended, ht⟩ := hanswer.ends not_false
    refine ⟨_, _, hstocked.trans ht, ?_⟩
    rw [List.append_nil, List.append_nil]
    refine mem_tenures_of_get? (hkept.trans ?_)
    rw [← hcourse.pool]
    exact Pool.get?_add_self _ _
  · have hworld : Passage (fun _ => True) False s { s with world := w } := passage_withWorld hcourse
    obtain ⟨ended, ht⟩ := hworld.ends not_false
    exact ⟨[], ended, ht, List.nil_subset _⟩

theorem named_closed {β : Type} {found : Option β} {next : β → Session × Answer}
    (hnext : ∀ b, (next b).1.world.closed = s.world.closed) :
    (s.named found next).1.world.closed = s.world.closed := by
  cases found with
  | none => rfl
  | some b => exact hnext b

/-- Steps that bring up an entry end no tenure, but for one that stores a reference. -/
theorem step_closed {t : Step} (hbegins : t.begins = true)
    (hacquire : ∀ cache stream name, t ≠ .acquire cache stream name) :
    (s.step t).1.world.closed = s.world.closed := by
  cases t with
  | prepareEntry name =>
    refine named_closed fun e => ?_
    have h := World.closed_prepare s.world e
    rw [prepareEntry, onWorld_eq]
    rcases hx : s.world.prepare e with ⟨w, e', f | u⟩ <;> rw [hx] at h <;> exact h
  | acquire cache stream name => exact absurd rfl (hacquire cache stream name)
  | race cache streams =>
    exact named_closed fun found => Cache.closed_acquireAll s.world found.2 streams
  | prepareContext name =>
    refine named_closed fun ctx => named_closed fun c => ?_
    have h := Cache.closed_acquire s.world c ctx.stream
    rw [prepareContext]
    cases ctx.entry with
    | some id => rfl
    | none =>
      rw [onWorld_eq]
      rcases hx : c.acquire s.world ctx.stream with ⟨w, c', f | id⟩ <;> rw [hx] at h <;> exact h
  | _ => cases hbegins

/-- **What a step adds to the log.** -/
theorem step_records (h : s.Sound) (hs : s.Within) (t : Step) :
    ∃ begun ended, s.Records (s.step t).1 begun ended := by
  have hnodup : (s.step t).1.ledger.Nodup := by
    obtain ⟨lost, hout, -⟩ := step_outcome h t
    exact (hs.step h t).nodup hout.sound
  have hpassage := step_passage h t
  by_cases hbegins : t.begins = true
  · by_cases hacquire : ∃ cache stream name, t = .acquire cache stream name
    · obtain ⟨cache, stream, name, rfl⟩ := hacquire
      rw [step] at hnodup ⊢
      cases hc : s.cache? cache with
      | none =>
        rw [hc] at hnodup
        exact ⟨[], [], (turns_of_eq rfl rfl).records (List.nil_subset _) hnodup⟩
      | some found =>
        rw [hc] at hnodup
        obtain ⟨begun, ended, ht, hafter⟩ := acquire_turns h (get?_of_cache? hc).2 stream name
        exact ⟨begun, ended, ht.records hafter hnodup⟩
    · obtain ⟨begun, ended, ht, -⟩ := hpassage.turns
      refine ⟨begun, ended, ht.records (ht.after_of_closed (step_closed hbegins ?_)) hnodup⟩
      intro cache stream name heq
      exact hacquire ⟨cache, stream, name, heq⟩
  · obtain ⟨ended, ht⟩ := hpassage.ends hbegins
    exact ⟨[], ended, ht.records (List.nil_subset _) hnodup⟩

/-! ### Entries that do not come up -/

theorem named_failed {β : Type} {found : Option β} {next : β → Session × Answer} {f : Failure}
    (hanswer : (s.named found next).2 = .failure f)
    (hnext : ∀ b, found = some b → (next b).2 = .failure f →
      ∃ p, World.Course p s.world (next b).1.world [] []) :
    ∃ p, World.Course p s.world (s.named found next).1.world [] [] := by
  cases found with
  | none => cases hanswer
  | some b => exact hnext b rfl hanswer

/-- A step that could not bring up an entry leaves no record of a tenure. -/
theorem step_failed (h : s.Sound) {t : Step} {f : Failure} (hbegins : t.begins = true)
    (hanswer : (s.step t).2 = .failure f) :
    (s.step t).1.world.opened = s.world.opened ∧ (s.step t).1.world.closed = s.world.closed := by
  suffices hcourse : ∃ p, World.Course p s.world (s.step t).1.world [] [] by
    obtain ⟨p, hcourse⟩ := hcourse
    exact ⟨hcourse.opened.trans (List.append_nil _), hcourse.closed.trans (List.append_nil _)⟩
  cases t with
  | prepareEntry name =>
    refine named_failed hanswer fun e he hfailed => ?_
    obtain ⟨hdevice, -⟩ := h.entry_of_get? he
    rw [prepareEntry, onWorld_eq] at hfailed ⊢
    rcases World.prepare_cases h.numbered hdevice with
      ⟨-, hx⟩ | ⟨-, w, id, hx, -⟩ | ⟨hnone, w, f', made, hx, -⟩
    · rw [hx] at hfailed
      cases hfailed
    · rw [hx] at hfailed
      cases hfailed
    · have hcourse := World.course_prepare (p := fun _ => True) h.numbered hdevice trivial hnone
      rw [hx, Entry.tenures_of_none hnone] at hcourse
      rw [hx]
      exact ⟨_, hcourse⟩
  | acquire cache stream name =>
    refine named_failed hanswer fun found hc hfailed => ?_
    obtain ⟨-, hfail⟩ := supply_passage (p := fun _ => True) (q := True) h (get?_of_cache? hc).2
      trivial trivial stream
    simp only [acquire, onWorld_eq] at hfailed ⊢
    rcases hx : found.2.acquire s.world stream with ⟨w, c', f' | id⟩ <;>
      rw [hx] at hfail hfailed
    · exact ⟨_, hfail f' rfl⟩
    · exact absurd hfailed (answerShared_ne_failure _ _ _ _)
  | race cache streams =>
    refine named_failed hanswer fun found _ hfailed => ?_
    cases hfailed
  | prepareContext name =>
    refine named_failed hanswer fun ctx hctx hanswer => named_failed hanswer fun c hn hfailed => ?_
    obtain ⟨-, hfail⟩ := supply_passage (p := fun _ => True) (q := True) h hn trivial trivial
      ctx.stream
    rw [prepareContext] at hfailed ⊢
    cases hentry : ctx.entry with
    | some id =>
      rw [hentry] at hfailed
      cases hfailed
    | none =>
      rw [hentry] at hfailed
      rw [onWorld_eq] at hfailed ⊢
      rcases hx : c.acquire s.world ctx.stream with ⟨w, c', f' | id⟩ <;>
        rw [hx] at hfail hfailed
      · exact ⟨_, hfail f' rfl⟩
      · cases hfailed
  | _ => cases hbegins

/-! ### The stream of a handle -/

/-- A handle has its tenure for the stream that it had at first, or it was taken back. -/
theorem after_tenure (h : s.Sound) (hs : s.Within) (later : List Step) {k : Key} {stream : Stream}
    (hk : (k, stream) ∈ s.tenures ∨ k ∈ s.world.retired) :
    (k, stream) ∈ (s.after later).tenures ∨ k ∈ (s.after later).world.retired := by
  refine (after_of_step (P := fun s => s.Within ∧ ((k, stream) ∈ s.tenures ∨ k ∈ s.world.retired))
    ?_ h ⟨hs, hk⟩ later (along_true s later)).2.2
  rintro s t h ⟨hs, hk⟩ -
  obtain ⟨begun, ended, ht⟩ := step_records h hs t
  refine ⟨hs.step h t, ?_⟩
  have hgiven := ht.given k
  rcases hk with hk | hk
  · rcases List.mem_append.mp (ht.tenures.mem_iff.mpr (List.mem_append_left _ hk)) with hk | hk
    · exact .inl hk
    · have hpos : 0 < (ended.map Prod.fst).count k :=
        List.count_pos_iff.mpr (List.mem_map_of_mem hk)
      exact .inr (List.count_pos_iff.mp (by omega))
  · have hpos := List.count_pos_iff.mpr hk
    exact .inr (List.count_pos_iff.mp (by omega))

/-! ### The log -/

theorem balanced_of_sound (h : s.Sound) (hs : s.Within)
    (hbalance : ∀ stream, s.world.opened.count stream =
      s.world.closed.count stream + s.up stream) : s.Balanced where
  balance stream := by
    rw [← count_opened, ← count_closed]
    exact hbalance stream
  turn t := step_records h hs t
  failed t f hbegins hanswer := step_failed h hbegins hanswer
  stream later k stream stream' hk hk' := by
    obtain ⟨hsound, hwithin⟩ := after_of_step (P := Within) (fun _ t h hs _ => hs.step h t) h hs
      later (along_true s later)
    obtain ⟨hkeys, hretired⟩ := tenures_apart (hwithin.nodup hsound)
    rcases after_tenure h hs later (.inl hk) with hlast | hlast
    · exact congrArg Prod.snd (List.inj_on_of_nodup_map hkeys hk' hlast rfl)
    · exact absurd hlast (hretired _ hk')

/-- **The log of lifetimes balances.** This holds after every run, and so after each step of it: for
each stream, the tenures that began and did not end are those of the entries that are up. Behind the
count, the events of the next step are those of single handles, one for each tenure that begins or
ends in it, and a handle that moves on takes its stream along. -/
theorem log_balances (steps : List Step) : (empty.after steps).Balanced := by
  refine balanced_of_sound (after_sound steps) (after_within steps) ?_
  refine (after_of_step (P := fun s => s.Within ∧ ∀ stream, s.world.opened.count stream =
    s.world.closed.count stream + s.up stream) ?_ sound_empty ⟨within_empty, fun _ => rfl⟩ steps
    (along_true empty steps)).2.2
  rintro s t h ⟨hs, hbalance⟩ -
  obtain ⟨begun, ended, ht⟩ := step_records h hs t
  exact ⟨hs.step h t, ht.toTurns.balance hbalance⟩

/-- An entry that could not be bound at first, was brought up, moved on and was given back with a
fault: it has begun once and ended once. -/
example :
    let w := (empty.after [.addDevice "d", .addEntry "e" "d" ⟨1⟩, .arm "d" .bind .mappingError,
      .prepareEntry "e", .prepareEntry "e", .takeEntry "e" "f",
      .arm "d" .destroy .executionFailed, .destroyEntry "f"]).world
    w.opened = [⟨1⟩] ∧ w.closed = [⟨1⟩] := by
  decide +kernel

end Session

end SparseDevice
