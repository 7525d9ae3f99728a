import SparseDevice.Proofs.Lifetimes.World

/-!
# Passages

A handle has its tenure in an entry of its own or in a shared one. A passage leads from one session
to another and says what happens to the tenures on the way: those that are there in the end and
those that ended are those that were there and those that began, and the log says so in order.

## Frames

Next to it a passage says what it left alone. Outside the devices `p` that an operation works on, a
device changes only if a shared entry of that device goes, since its handle is given back then. No
shared entry is replaced and no number is used twice, so that whatever still has its number is what
it was; the same goes for the caches of the other devices.

## Main definitions

* `Session.tenures`: the tenures of all entries.
* `Session.Turns`: which tenures begin and which end.
* `Session.Passage`: the same, and what is left alone.

## Main results

* `Session.Passage.trans`: passages may follow each other.
* `Session.passage_withEntries`, `Session.passage_withWorld`: a passage from the course of its
  world.
* `Session.passage_share`, `Session.passage_discard`: shared entries come and go.
* `Cache.supply_course`: the course of an acquisition.
-/

namespace SparseDevice

namespace Cache

variable {p : Nat → Prop} {w : World} {c : Cache}

@[simp] theorem device_acquire (w : World) (c : Cache) (s : Stream) :
    (c.acquire w s).2.1.device = c.device := by
  rw [acquire_eq_supply, supply]
  split
  · rfl
  · split <;> rfl

/-- What an acquisition can come to, with the course of its world. -/
theorem supply_course (hn : w.Numbered) (hd : c.device < w.devices.length) (hp : p c.device)
    (s : Stream) :
    (∃ id, c.lookup s = some id ∧ c.supply w s = (w, c, .ok id)) ∨
      (c.lookup s = none ∧ ∃ w' e,
        c.supply w s = ((w'.share e).1, { c with slots := c.slots.insert s w.pool.added },
            .ok w.pool.added) ∧
          World.Course p w w' e.tenures [] ∧ e.device = c.device) ∨
      (c.lookup s = none ∧ ∃ w' f,
        c.supply w s = (w', c, .error f) ∧ World.Course p w w' [] []) := by
  rw [supply]
  cases hc : c.lookup s with
  | some id => exact .inl ⟨id, rfl, rfl⟩
  | none =>
    refine .inr ?_
    have hcourse := (World.course_emit p w (e := .creating s) rfl rfl).trans
      (World.course_prepare (w := w.emit (.creating s)) (e := .new c.device s) hn hd hp rfl)
    rcases World.prepare_cases (w := w.emit (.creating s)) (e := .new c.device s) hn hd with
      ⟨⟨h, hh⟩, -⟩ | ⟨-, w', id, hx, -⟩ | ⟨-, w', f, made, hx, -⟩
    · cases hh
    · rw [hx] at hcourse
      have hpool : w'.pool = w.pool := hcourse.pool
      refine .inl ⟨rfl, w', { Entry.new c.device s with handle := some ⟨c.device, id, some s⟩ }, ?_,
        hcourse, rfl⟩
      rw [← hpool]
      simp only [hx]
      rfl
    · rw [hx] at hcourse
      refine .inr ⟨rfl, w', f, ?_, hcourse⟩
      simp only [hx]

end Cache

namespace Session

variable {p : Nat → Prop} {q : Prop} {s s' s'' : Session} {loose looseCaches : List Nat}

/-- The tenures of all entries. -/
def tenures (s : Session) : List Tenure :=
  s.entries.vals.flatMap Entry.tenures ++ s.world.pool.vals.flatMap Entry.tenures

/-- Which tenures begin and which end, in the order of the log. -/
structure Turns (s s' : Session) (begun ended : List Tenure) : Prop where
  opened : s'.world.opened = s.world.opened ++ begun.map Prod.snd
  closed : s'.world.closed = s.world.closed ++ ended.map Prod.snd
  /-- The handle of a tenure that ends was taken back. -/
  given : ∀ k, (ended.map Prod.fst).count k + s.world.retired.count k ≤ s'.world.retired.count k
  tenures : (s'.tenures ++ ended).Perm (s.tenures ++ begun)

/-- What happens to tenures, and what is left alone by an operation on the devices `p`. Tenures
begin only if `q` says so. -/
structure Passage (p : Nat → Prop) (q : Prop) (s s' : Session) : Prop where
  turns : ∃ begun ended, s.Turns s' begun ended ∧ (begun = [] ∨ q)
  /-- Another device takes back the handle of a shared entry that goes, or nothing happens there. -/
  calm : ∀ i, ¬p i → s'.world.device i = s.world.device i ∨
    ∃ id e, s.world.pool.get? id = some e ∧ e.device = i ∧ s'.world.pool.get? id = none
  shared : ∀ id e, s'.world.pool.get? id = some e →
    s.world.pool.get? id = some e ∨ (s.world.pool.added ≤ id ∧ p e.device)
  added : s.world.pool.added ≤ s'.world.pool.added
  caches : ∀ n c, s'.cachePool.get? n = some c →
    (∃ c₀, s.cachePool.get? n = some c₀ ∧ c.device = c₀.device ∧ (c = c₀ ∨ p c.device)) ∨
      (s.cachePool.added ≤ n ∧ p c.device)
  addedCaches : s.cachePool.added ≤ s'.cachePool.added
  entries : ∀ e ∈ s'.entries.vals, p e.device ∨ ∃ e₀ ∈ s.entries.vals, e₀.device = e.device

theorem turns_of_eq (hw : s'.world = s.world) (he : s'.entries = s.entries) : s.Turns s' [] [] := by
  refine ⟨?_, ?_, ?_, ?_⟩
  · simp [hw]
  · simp [hw]
  · simp [hw]
  · simp [tenures, hw, he]

theorem Turns.trans {begun begun' ended ended' : List Tenure} (h : s.Turns s' begun ended)
    (h' : s'.Turns s'' begun' ended') : s.Turns s'' (begun ++ begun') (ended ++ ended') where
  opened := by rw [h'.opened, h.opened, List.map_append, List.append_assoc]
  closed := by rw [h'.closed, h.closed, List.map_append, List.append_assoc]
  given k := by
    have hk := h.given k
    have hk' := h'.given k
    rw [List.map_append, List.count_append]
    omega
  tenures := by
    refine List.perm_iff_count.mpr fun t => ?_
    have ht := h.tenures.count_eq t
    have ht' := h'.tenures.count_eq t
    simp only [List.count_append] at ht ht' ⊢
    omega

namespace Passage

theorem refl (p : Nat → Prop) (q : Prop) (s : Session) : Passage p q s s where
  turns := ⟨[], [], turns_of_eq rfl rfl, .inl rfl⟩
  calm _ _ := .inl rfl
  shared _ _ he := .inl he
  added := Nat.le_refl _
  caches _ c hc := .inl ⟨c, hc, rfl, .inl rfl⟩
  addedCaches := Nat.le_refl _
  entries e he := .inr ⟨e, he, rfl⟩

/-- Passages may follow each other: what went on the first one does not come back. -/
theorem trans (hs : s.world.pool.Sound) (h : Passage p q s s') (h' : Passage p q s' s'') :
    Passage p q s s'' where
  turns := by
    obtain ⟨begun, ended, ht, hq⟩ := h.turns
    obtain ⟨begun', ended', ht', hq'⟩ := h'.turns
    refine ⟨_, _, ht.trans ht', ?_⟩
    rcases hq with rfl | hq
    · exact hq'
    · exact .inr hq
  calm i hi := by
    rcases h.calm i hi with hfirst | ⟨id, e, he, hdevice, hgone⟩
    · rcases h'.calm i hi with hsecond | ⟨id, e, he, hdevice, hgone⟩
      · exact .inl (hsecond.trans hfirst)
      · rcases h.shared id e he with hold | ⟨-, hp⟩
        · exact .inr ⟨id, e, hold, hdevice, hgone⟩
        · exact absurd (hdevice ▸ hp) hi
    · refine .inr ⟨id, e, he, hdevice, ?_⟩
      cases hlast : s''.world.pool.get? id with
      | none => rfl
      | some e' =>
        have hlt := hs.lt_added id e he
        rcases h'.shared id e' hlast with hmiddle | ⟨hnew, -⟩
        · cases hgone.symm.trans hmiddle
        · exact absurd (Nat.lt_of_lt_of_le hlt h.added) (Nat.not_lt.mpr hnew)
  shared id e he := by
    rcases h'.shared id e he with hmiddle | ⟨hnew, hp⟩
    · exact h.shared id e hmiddle
    · exact .inr ⟨Nat.le_trans h.added hnew, hp⟩
  added := Nat.le_trans h.added h'.added
  caches n c hc := by
    rcases h'.caches n c hc with ⟨c₁, hc₁, hdevice₁, hsame₁⟩ | ⟨hnew, hp⟩
    · rcases h.caches n c₁ hc₁ with ⟨c₀, hc₀, hdevice₀, hsame₀⟩ | ⟨hnew, hp⟩
      · refine .inl ⟨c₀, hc₀, hdevice₁.trans hdevice₀, ?_⟩
        rcases hsame₁ with rfl | hp
        · exact hsame₀
        · exact .inr hp
      · exact .inr ⟨hnew, hdevice₁ ▸ hp⟩
    · exact .inr ⟨Nat.le_trans h.addedCaches hnew, hp⟩
  addedCaches := Nat.le_trans h.addedCaches h'.addedCaches
  entries e he := by
    rcases h'.entries e he with hp | ⟨e₁, he₁, hdevice⟩
    · exact .inl hp
    · rw [← hdevice]
      exact h.entries e₁ he₁

end Passage

/-- Where no tenure begins, the tenures that end are all that happens. -/
theorem Passage.ends (h : Passage p q s s') (hq : ¬q) : ∃ ended, s.Turns s' [] ended := by
  obtain ⟨begun, ended, ht, rfl | hbegun⟩ := h.turns
  · exact ⟨ended, ht⟩
  · exact absurd hbegun hq

/-- What a cache keeps stays what it is, as long as the cache is there. -/
theorem Passage.slot_kept (hp : Passage p q s s') (h : s.SoundBut loose looseCaches) (h' : s'.Sound)
    {n : Nat} {c : Cache} {stream : Stream} {id : Nat} (hn : s.cachePool.get? n = some c)
    (hn' : s'.cachePool.get? n = some c) (hid : c.lookup stream = some id) :
    s'.world.pool.get? id = s.world.pool.get? id := by
  obtain ⟨e, he, -⟩ := h.slot hn hid
  obtain ⟨e', he', -⟩ := h'.slot hn' hid
  rcases hp.shared id e' he' with hold | ⟨hnew, -⟩
  · rw [he', hold]
  · exact absurd (h.pool.lt_added id e he) (Nat.not_lt.mpr hnew)

/-! ### One part at a time -/

/-- The table of entries and the world change together. -/
theorem passage_withEntries {w : World} {t : Table String Entry} {begun ended : List Tenure}
    (h : World.Course p s.world w begun ended) (hq : begun = [] ∨ q)
    (hdevice : ∀ e ∈ t.vals, p e.device ∨ ∃ e₀ ∈ s.entries.vals, e₀.device = e.device)
    (hperm : (t.vals.flatMap Entry.tenures ++ ended).Perm
      (s.entries.vals.flatMap Entry.tenures ++ begun)) :
    Passage p q s { s with world := w, entries := t } where
  turns := by
    refine ⟨begun, ended, ⟨h.opened, h.closed, h.given, List.perm_iff_count.mpr fun k => ?_⟩, hq⟩
    have hk := hperm.count_eq k
    simp only [tenures, h.pool, List.count_append] at hk ⊢
    omega
  calm i hi := .inl (h.calm i hi)
  shared id e he := .inl (by rwa [← h.pool])
  added := Nat.le_of_eq (by rw [h.pool])
  caches _ c hc := .inl ⟨c, hc, rfl, .inl rfl⟩
  addedCaches := Nat.le_refl _
  entries := hdevice

theorem passage_withWorld {w : World} (h : World.Course p s.world w [] []) :
    Passage p q s { s with world := w } :=
  passage_withEntries h (.inl rfl) (fun e he => .inr ⟨e, he, rfl⟩) (.refl _)

theorem passage_fault (f : Fault) :
    Passage p q s { s with world := s.world.emit (.fault f) } :=
  passage_withWorld (World.course_emit p s.world (e := .fault f) rfl rfl)

/-- A cache comes, goes or changes; names, handles, references and contexts are of no account. -/
theorem passage_withCaches (hw : s'.world = s.world) (he : s'.entries = s.entries)
    (hcaches : ∀ n c, s'.cachePool.get? n = some c →
      (∃ c₀, s.cachePool.get? n = some c₀ ∧ c.device = c₀.device ∧ (c = c₀ ∨ p c.device)) ∨
        (s.cachePool.added ≤ n ∧ p c.device))
    (hadded : s.cachePool.added ≤ s'.cachePool.added) : Passage p q s s' where
  turns := ⟨[], [], turns_of_eq hw he, .inl rfl⟩
  calm i _ := .inl (by rw [hw])
  shared id e he' := .inl (by rwa [← hw])
  added := Nat.le_of_eq (by rw [hw])
  caches := hcaches
  addedCaches := hadded
  entries e he' := .inr ⟨e, by rwa [← he], rfl⟩

theorem passage_of_eq (hw : s'.world = s.world) (he : s'.entries = s.entries)
    (hc : s'.cachePool = s.cachePool) : Passage p q s s' :=
  passage_withCaches hw he (fun _ c hn => .inl ⟨c, by rwa [← hc], rfl, .inl rfl⟩)
    (Nat.le_of_eq (by rw [hc]))

/-- A passage may begin with such a change. -/
theorem Passage.renamed (hs : s.world.pool.Sound) (h : Passage p q s' s'')
    (hw : s'.world = s.world) (he : s'.entries = s.entries) (hc : s'.cachePool = s.cachePool) :
    Passage p q s s'' :=
  (passage_of_eq hw he hc).trans hs h

theorem passage_setCache {n : Nat} {c c' : Cache} (hn : s.cachePool.get? n = some c)
    (hdevice : c'.device = c.device) (hsame : c' = c ∨ p c'.device) :
    Passage p q s (s.setCache n c') := by
  refine passage_withCaches rfl rfl (fun n' c'' hn' => .inl ?_) (Nat.le_refl _)
  rcases Pool.cases_of_get?_set hn' with ⟨rfl, rfl⟩ | ⟨-, hn'⟩
  · exact ⟨c, hn, hdevice, hsame⟩
  · exact ⟨c'', hn', rfl, .inl rfl⟩

theorem passage_eraseCache (n : Nat) :
    Passage p q s { s with cachePool := s.cachePool.erase n } := by
  refine passage_withCaches rfl rfl (fun n' c hn' => .inl ?_) (Nat.le_refl _)
  rw [Pool.get?_erase] at hn'
  split at hn'
  · cases hn'
  · exact ⟨c, hn', rfl, .inl rfl⟩

theorem passage_addCache {c : Cache} (hp : p c.device) :
    Passage p q s { s with cachePool := (s.cachePool.add c).1 } := by
  refine passage_withCaches rfl rfl (fun n' c' hn' => ?_) (Nat.le_succ _)
  rw [Pool.get?_add] at hn'
  split at hn'
  · next heq =>
    cases hn'
    exact .inr ⟨Nat.le_of_eq heq.symm, hp⟩
  · exact .inl ⟨c', hn', rfl, .inl rfl⟩

/-! ### Shared entries -/

/-- A new entry is shared. -/
theorem turns_share {w : World} {e : Entry} (hs : s.world.pool.Sound)
    (h : World.Course p s.world w e.tenures []) :
    s.Turns { s with world := (w.share e).1 } e.tenures [] := by
  refine ⟨h.opened, h.closed, h.given, List.perm_iff_count.mpr fun k => ?_⟩
  have hvals : (w.share e).1.pool.vals = e :: s.world.pool.vals := by
    rw [← h.pool] at hs ⊢
    exact hs.vals_add e
  simp only [tenures, hvals, List.flatMap_cons, List.count_append, List.count_nil]
  omega

theorem passage_share {w : World} {e : Entry} (hs : s.world.pool.Sound)
    (h : World.Course p s.world w e.tenures []) (hp : p e.device) (hq : q) :
    Passage p q s { s with world := (w.share e).1 } where
  turns := ⟨e.tenures, [], turns_share hs h, .inr hq⟩
  calm i hi := .inl (h.calm i hi)
  shared id e' he' := by
    rw [World.share, Pool.get?_add, h.pool] at he'
    split at he'
    · next hid =>
      cases he'
      rw [hid, ← h.pool]
      exact .inr ⟨Nat.le_refl _, hp⟩
    · exact .inl he'
  added := by
    rw [← h.pool]
    exact Nat.le_succ _
  caches _ c hc := .inl ⟨c, hc, rfl, .inl rfl⟩
  addedCaches := Nat.le_refl _
  entries e he := .inr ⟨e, he, rfl⟩

/-- A shared entry goes, and its tenure ends. -/
theorem passage_discard (h : s.SoundBut loose looseCaches) (id : Nat) :
    Passage p q s { s with world := (s.world.discard id).1 } := by
  rw [World.discard]
  cases he : s.world.pool.get? id with
  | none => exact .refl p q s
  | some e =>
    have hcourse := World.course_release (p := (· = e.device))
      (w := { s.world with pool := s.world.pool.erase id }) h.numbered (h.shared id e he).1 rfl
    have hget : ∀ id', ({ s.world with pool := s.world.pool.erase id } : World).pool.get? id' =
        if id' = id then none else s.world.pool.get? id' := Pool.get?_erase _ _
    refine
      { turns := ⟨[], e.tenures, ⟨hcourse.opened, hcourse.closed, hcourse.given,
          List.perm_iff_count.mpr fun k => ?_⟩, .inl rfl⟩
        calm := fun i _ => ?_
        shared := fun id' e' he' => ?_
        added := ?_
        caches := fun _ c hc => .inl ⟨c, hc, rfl, .inl rfl⟩
        addedCaches := Nat.le_refl _
        entries := fun e he => .inr ⟨e, he, rfl⟩ }
    · have hvals := ((h.pool.vals_perm_of_get? he).flatMap_right Entry.tenures).count_eq k
      simp only [tenures, hcourse.pool, List.flatMap_cons, List.count_append, List.count_nil]
        at hvals ⊢
      omega
    · by_cases hi : i = e.device
      · refine .inr ⟨id, e, he, hi.symm, ?_⟩
        simp only [hcourse.pool]
        rw [hget, if_pos rfl]
      · exact .inl (hcourse.calm i hi)
    · simp only [hcourse.pool] at he'
      rw [hget] at he'
      split at he'
      · cases he'
      · exact .inl he'
    · simp only [hcourse.pool]
      exact Nat.le_refl _

end Session

end SparseDevice
