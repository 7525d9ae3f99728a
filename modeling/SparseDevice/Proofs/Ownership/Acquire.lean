import SparseDevice.Proofs.Ownership.Collect
import SparseDevice.Session.Step

/-!
# Acquisitions

An acquisition works on a copy of the cache and puts it back afterwards. In between, a new shared
entry has no owner, so the lemmas speak of both moves at once: the world and the cache after the
acquisition, in place of those before it. That is also the form in which several acquisitions in a
row are one acquisition after the other.

## Main results

* `Session.supply_keeps`: one acquisition; the entry that it answers is kept for the stream.
* `Session.acquireAll_keeps`: several acquisitions.
* `Session.acquire_keeps`, `Session.race_keeps`, `Session.prepareContext_keeps`,
  `Session.contextHandle_keeps`: the steps that acquire.
-/

namespace SparseDevice

open Handle (Key)

theorem Cache.length_acquireAll (c : Cache) (w : World) (streams : List Stream) :
    (c.acquireAll w streams).2.2.length = streams.length := by
  induction streams generalizing c w with
  | nil => rfl
  | cons stream rest ih => rw [acquireAll, List.length_cons, List.length_cons, ih]

/-- A context has a handle, or asking it for one is a fault. -/
theorem Context.require_cases (w : World) (ctx : Context) :
    (∃ h, ctx.require w = (w, .ok h)) ∨ ∃ f, ctx.require w = (w.emit (.fault f), .error f) := by
  rw [require]
  cases ctx.entry.bind w.pool.get? with
  | none => exact .inr ⟨_, rfl⟩
  | some e => exact w.require_cases e

namespace Session

variable {s : Session} {loose looseCaches : List Nat} {n : Nat} {c : Cache}

theorem get?_setCache_self (s : Session) (n : Nat) (c : Cache) :
    (s.setCache n c).cachePool.get? n = some c := Pool.get?_set_self ..

/-- What is put back unchanged makes no difference. -/
theorem setCache_keeps (h : s.SoundBut loose looseCaches) (hn : s.cachePool.get? n = some c) :
    Keeps loose looseCaches s (s.setCache n c) := by
  have hsound : (s.setCache n c).SoundBut loose looseCaches :=
    h.setCache hn (h.cache n c hn) (fun _ _ hid => hid) (fun _ _ hid => .inl hid)
      (fun _ hid => .inr hid)
  exact hsound.keeps_of_eq rfl rfl rfl

/-- A new entry is stored for a stream that had none. -/
theorem SoundBut.keeps_stock {w : World} {e : Entry} {stream : Stream}
    (h : s.SoundBut loose looseCaches) (hn : s.cachePool.get? n = some c)
    (hnone : c.lookup stream = none) (ht : s.world.Turnover w e.keys []) (hready : e.Ready)
    (hstream : e.stream = stream) (hdevice : e.device = c.device) :
    Keeps loose looseCaches s ({ s with world := (w.share e).1 }.setCache n
      { c with slots := c.slots.insert stream w.pool.added }) := by
  have hw := h.withWorld ht
  have hlt : e.device < w.devices.length := hdevice ▸ (hw.cache n c hn).device_lt
  have hlookup : ∀ stream' id, (c.slots.insert stream w.pool.added).get? stream' = some id →
      (stream' = stream ∧ id = w.pool.added) ∨ c.lookup stream' = some id := by
    intro stream' id hid
    rw [Table.get?_insert] at hid
    split at hid
    · next hsame =>
      cases hid
      exact .inl ⟨hsame, rfl⟩
    · exact .inr hid
  have hsound : SoundBut loose looseCaches ({ s with world := (w.share e).1 }.setCache n
      { c with slots := c.slots.insert stream w.pool.added }) :=
    (hw.share hlt hready).setCache hn
      (Cache.Sound.insert (hw.cache n c hn) hw.pool hstream hdevice) ?_ ?_ ?_
  · refine hsound.outcome (m := e.keys) (b := []) ht.made ht.returns ?_
    have hvals : (w.share e).1.pool.vals = e :: s.world.pool.vals := by
      rw [← ht.pool]
      exact hw.pool.vals_add e
    have howned : owned ({ s with world := (w.share e).1 }.setCache n
        { c with slots := c.slots.insert stream w.pool.added }) =
        s.handles.vals.map Handle.key ++ (s.entries.vals.flatMap Entry.keys ++
          (e.keys ++ s.world.pool.vals.flatMap Entry.keys)) := by
      rw [← List.flatMap_cons, ← hvals]
      rfl
    rw [howned]
    refine List.perm_iff_count.mpr ?_
    intro k
    simp only [owned, List.map_nil, List.nil_append, List.append_nil, List.count_append]
    omega
  · intro stream' id hid
    show (c.slots.insert stream w.pool.added).get? stream' = some id
    have hne : stream' ≠ stream := by
      rintro rfl
      cases hnone.symm.trans hid
    exact (Table.get?_insert_of_ne _ _ hne).trans hid
  · intro stream' id hid
    rcases hlookup stream' id hid with ⟨-, rfl⟩ | hold
    · -- every entry that a cache keeps exists already, and the new one does not
      refine .inr ?_
      intro n' c' stream'' hn' hid'
      obtain ⟨e', he', -⟩ := hw.slot hn' hid'
      exact absurd (hw.pool.lt_added _ _ he') (Nat.lt_irrefl _)
    · exact .inl hold
  · intro id hid
    rcases List.mem_cons.mp hid with rfl | hid
    · exact .inl List.mem_cons_self
    · exact .inr hid

/-- One acquisition, with the cache put back in its place. -/
theorem supply_keeps (h : s.SoundBut loose looseCaches) (hn : s.cachePool.get? n = some c)
    (stream : Stream) :
    Keeps loose looseCaches s ({ s with world := (c.acquire s.world stream).1 }.setCache n
      (c.acquire s.world stream).2.1) ∧
    (∀ id, (c.acquire s.world stream).2.2 = .ok id →
      (c.acquire s.world stream).2.1.lookup stream = some id) ∧
    ∀ f, (c.acquire s.world stream).2.2 = .error f →
      Keeps loose looseCaches s { s with world := (c.acquire s.world stream).1 } := by
  rw [Cache.acquire_eq_supply]
  rcases Cache.supply_cases h.numbered (h.cache n c hn).device_lt stream with
    ⟨id, hid, hx⟩ | ⟨hnone, w, e, hx, ht, hready, hstream, hdevice⟩ | ⟨-, w, f, made, hx, ht⟩ <;>
    rw [hx]
  · refine ⟨setCache_keeps h hn, ?_, nofun⟩
    intro id' hid'
    cases hid'
    exact hid
  · rw [← ht.pool]
    refine ⟨h.keeps_stock hn hnone ht hready hstream hdevice, ?_, nofun⟩
    intro id hid
    cases hid
    exact Table.get?_insert_self _ _ _
  · have hworld := h.keeps_withWorld ht
    exact ⟨hworld.trans (setCache_keeps hworld.sound hn), nofun, fun _ _ => hworld⟩

/-- Several acquisitions, with the cache put back after the last one. -/
theorem acquireAll_keeps (h : s.SoundBut loose looseCaches) (hn : s.cachePool.get? n = some c)
    (streams : List Stream) :
    Keeps loose looseCaches s ({ s with world := (c.acquireAll s.world streams).1 }.setCache n
      (c.acquireAll s.world streams).2.1) := by
  induction streams generalizing s c with
  | nil => exact setCache_keeps h hn
  | cons stream rest ih =>
    obtain ⟨hfirst, -⟩ := supply_keeps h hn stream
    have hrest := ih hfirst.sound (get?_setCache_self _ n _)
    have hboth := hfirst.trans hrest
    simp only [setCache, Pool.set_set] at hboth
    exact hboth

/-! ### Answers -/

/-- Nothing happens under a name that nobody has. -/
theorem named_keeps {β : Type} (h : s.SoundBut loose looseCaches) {found : Option β}
    {next : β → Session × Answer}
    (hnext : ∀ b, found = some b → Keeps loose looseCaches s (next b).1) :
    Keeps loose looseCaches s (s.named found next).1 := by
  cases found with
  | none => exact h.keeps_refl
  | some b => exact hnext b rfl

theorem answerHandle_fst (s : Session) (e : Entry) :
    (s.answerHandle e).1 = { s with world := (s.world.require e).1 } := by
  rw [answerHandle, onWorld_eq]
  cases (s.world.require e).2 <;> rfl

theorem answerHandle_keeps (h : s.SoundBut loose looseCaches) (e : Entry) :
    Keeps loose looseCaches s (s.answerHandle e).1 := by
  rw [answerHandle_fst]
  rcases s.world.require_cases e with ⟨hd, hx⟩ | ⟨f, hx⟩ <;> rw [hx]
  · exact h.keeps_refl
  · exact h.keeps_idle (World.turnover_emit _ _)

/-- Besides the world, an answer with a shared entry changes one reference. -/
theorem answerShared_fst (s : Session) (id : Nat) (name : String) :
    ∃ w, (s.answerShared id name).1 =
      { s with world := w, references := s.references.insert name id } := by
  obtain ⟨w, hw⟩ := collectAll_fst { s with references := s.references.insert name id }
    (s.references.get? name).toList
  rw [← putReference] at hw
  rw [answerShared]
  rcases hx : s.putReference name id with ⟨s₁, f | u⟩ <;> rw [hx] at hw <;> subst hw
  · exact ⟨w, rfl⟩
  · simp only
    cases w.pool.get? id with
    | none => exact ⟨w, rfl⟩
    | some e => exact ⟨_, by rw [named_some, answerHandle_fst]⟩

/-- An answer with a shared entry is never a failure. -/
theorem answerShared_ne_failure (s : Session) (id : Nat) (name : String) (f : Failure) :
    (s.answerShared id name).2 ≠ .failure f := by
  intro hanswer
  rw [answerShared] at hanswer
  rcases hput : s.putReference name id with ⟨s₁, f' | u⟩ <;> rw [hput] at hanswer
  · cases hanswer
  · simp only at hanswer
    cases he : s₁.world.pool.get? id with
    | none =>
      rw [he] at hanswer
      cases hanswer
    | some e =>
      rw [he, named_some, answerHandle, onWorld_eq] at hanswer
      rcases hrequire : s₁.world.require e with ⟨w, f' | hd⟩ <;> rw [hrequire] at hanswer <;>
        cases hanswer

theorem answerShared_keeps (h : s.SoundBut loose looseCaches) {id : Nat}
    (hid : ∃ e, s.world.pool.get? id = some e) (name : String) :
    Keeps loose looseCaches s (s.answerShared id name).1 := by
  have hput := putReference_keeps h name hid
  rw [answerShared]
  rcases hx : s.putReference name id with ⟨s₁, r⟩
  rw [hx] at hput
  cases r with
  | error f => exact hput
  | ok u => exact hput.trans (named_keeps hput.sound fun e _ => answerHandle_keeps hput.sound e)

/-! ### Steps that acquire -/

theorem acquire_keeps (h : s.SoundBut loose looseCaches) (hn : s.cachePool.get? n = some c)
    (stream : Stream) (name : String) :
    Keeps loose looseCaches s (s.acquire n c stream name).1 := by
  obtain ⟨hboth, hslot, hfail⟩ := supply_keeps h hn stream
  rw [acquire, onWorld_eq]
  rcases hx : c.acquire s.world stream with ⟨w, c', r⟩
  rw [hx] at hboth hslot hfail
  cases r with
  | error f => exact hfail f rfl
  | ok id =>
    obtain ⟨e, he, -⟩ := hboth.sound.slot (get?_setCache_self _ n c') (hslot id rfl)
    exact hboth.trans (answerShared_keeps hboth.sound ⟨e, he⟩ name)

theorem race_keeps (h : s.SoundBut loose looseCaches) (hn : s.cachePool.get? n = some c)
    (streams : List Stream) : Keeps loose looseCaches s (s.race n c streams).1 :=
  acquireAll_keeps h hn streams

/-- The context that is prepared keeps its cache, so nothing gets loose. -/
theorem prepareContext_keeps (h : s.SoundBut loose looseCaches) {name : String} {ctx : Context}
    (hctx : s.contexts.get? name = some ctx) (hn : s.cachePool.get? ctx.cache = some c) :
    Keeps loose looseCaches s (s.prepareContext name ctx c).1 := by
  rw [prepareContext]
  cases hentry : ctx.entry with
  | some id => exact h.keeps_refl
  | none =>
    obtain ⟨hboth, hslot, hfail⟩ := supply_keeps h hn ctx.stream
    rw [onWorld_eq]
    rcases hx : c.acquire s.world ctx.stream with ⟨w, c', r⟩
    rw [hx] at hboth hslot hfail
    cases r with
    | error f => exact hfail f rfl
    | ok id =>
      have hput := hboth.sound.insertContext name { ctx with entry := some id }
        ⟨c', get?_setCache_self _ ctx.cache c', fun id' hid' => by
          cases hid'
          exact hslot id rfl⟩
      have hold : ({ s with world := w }.setCache ctx.cache c').contexts.get? name = some ctx := hctx
      simp only [hold, Option.toList_some, List.flatMap_cons, List.flatMap_nil, hentry,
        Option.toList_none, List.append_nil, List.nil_append, List.map_cons, List.map_nil,
        List.cons_append] at hput
      have hheld : ctx.cache ∈ ({ { s with world := w }.setCache ctx.cache c' with
          contexts := s.contexts.insert name { ctx with entry := some id } } : Session).heldCaches :=
        mem_heldCaches_iff.mpr (.inr ⟨_, List.mem_cons_self, rfl⟩)
      have hsound := hput.tightenCache (.inl hheld)
      exact hboth.trans (hsound.keeps_of_eq rfl rfl rfl)

theorem contextHandle_keeps (h : s.SoundBut loose looseCaches) {name : String} {ctx : Context}
    (hctx : s.contexts.get? name = some ctx) (target : String) :
    Keeps loose looseCaches s (s.contextHandle ctx target).1 := by
  rw [contextHandle]
  cases hentry : ctx.entry with
  | some id =>
    have hheld : id ∈ s.held :=
      mem_held_iff.mpr (.inr (.inr ⟨ctx, Table.mem_vals_of_get? hctx, hentry⟩))
    exact answerShared_keeps h (h.exists_of_held hheld) target
  | none =>
    rw [onWorld_eq]
    rcases ctx.require_cases s.world with ⟨hd, hx⟩ | ⟨f, hx⟩ <;> rw [hx]
    · exact h.keeps_refl
    · exact h.keeps_idle (World.turnover_emit _ _)

end Session

end SparseDevice
