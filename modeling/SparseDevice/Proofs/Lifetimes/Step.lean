import SparseDevice.Proofs.Lifetimes.Passage
import SparseDevice.Proofs.Ownership.Step

/-!
# Passages of steps

Every step of a session is a passage. The operations are taken in the order in which they are put
together: letting go and storing first, then acquisitions, entries and routines, and the steps last.
That a session is sound in between is what the ownership of handles has shown already.

## Main definitions

* `Step.begins`: the steps in which a tenure may begin.
* `Session.reached`: the devices that a step may work on. A step that lets go of shared entries may
  give back handles of other devices too.

## Main results

* `Session.step_passage`: every step is a passage on the devices that it may work on.
-/

namespace SparseDevice

/-- The steps in which a tenure may begin. -/
def Step.begins : Step → Bool
  | .prepareEntry _ | .acquire _ _ _ | .race _ _ | .prepareContext _ => true
  | _ => false

namespace Session

variable {p : Nat → Prop} {q : Prop} {s : Session} {loose looseCaches : List Nat} {n : Nat}
  {c : Cache} {name : String} {e : Entry}

/-! ### Letting go -/

theorem collect_passage {id : Nat} (h : s.SoundBut (id :: loose) looseCaches) :
    Passage p q s (s.collect id).1 := by
  by_cases hid : id ∈ s.held
  · rw [collect_of_mem hid]
    exact .refl p q s
  · rw [collect, if_neg hid]
    exact passage_discard h id

theorem collectAll_passage {ids : List Nat} (h : s.SoundBut (ids ++ loose) looseCaches) :
    Passage p q s (s.collectAll ids).1 := by
  induction ids generalizing s with
  | nil => exact .refl p q s
  | cons id rest ih =>
    have hsingle : Passage p q s (s.collect id).1 := collect_passage h
    have hfirst : Keeps (rest ++ loose) looseCaches s (s.collect id).1 := collect_keeps h
    exact hsingle.trans h.pool (ih hfirst.sound)

theorem leave_passage (s : Session) (c : Cache) : Passage p q s (s.leave c) := by
  obtain ⟨ruins, hleave⟩ := s.leave_eq c
  rw [hleave]
  exact passage_of_eq rfl rfl rfl

theorem collectShard_passage {shard others : Table Stream Nat}
    (h : s.SoundBut (Table.vals (shard ++ others) ++ loose) looseCaches) (c : Cache) :
    Passage p q s (s.collectShard c shard).1 := by
  induction shard generalizing s with
  | nil => exact .refl p q s
  | cons slot rest ih =>
    have hsingle : Passage p q s (s.collect slot.2).1 := collect_passage h
    have hkeeps : Keeps (Table.vals (rest ++ others) ++ loose) looseCaches s
        (s.collect slot.2).1 := collect_keeps h
    rw [collectShard]
    rcases hx : s.collect slot.2 with ⟨s₁, f | u⟩ <;> rw [hx] at hsingle hkeeps
    · exact hsingle.trans h.pool (leave_passage s₁ _)
    · exact hsingle.trans h.pool (ih hkeeps.sound)

theorem collectShards_passage {shards : List (Table Stream Nat)}
    (h : s.SoundBut (Table.vals shards.flatten ++ loose) looseCaches)
    (hc : Cache.Sound { c with slots := shards.flatten } s.world) :
    Passage p q s (s.collectShards c shards).1 := by
  induction shards generalizing s with
  | nil => exact .refl p q s
  | cons shard rest ih =>
    have hall : s.SoundBut (Table.vals (shard ++ rest.flatten) ++ loose) looseCaches := h
    obtain ⟨hkeeps, hrest⟩ := collectShard_keeps hall hc
    exact (collectShard_passage hall c).trans h.pool (ih hkeeps.sound hrest)

theorem collectCache_passage (h : s.SoundBut loose (n :: looseCaches)) :
    Passage p q s (s.collectCache n).1 := by
  by_cases hn : n ∈ s.heldCaches
  · rw [collectCache_of_mem hn]
    exact .refl p q s
  · rw [collectCache, if_neg hn]
    cases hc : s.cachePool.get? n with
    | none => exact .refl p q s
    | some c =>
      obtain ⟨hsound, hslots⟩ := h.shards hc hn
      exact (passage_eraseCache n).trans h.pool (collectShards_passage hsound hslots)

theorem collectContext_passage {ctx : Context}
    (h : s.SoundBut (ctx.entry.toList ++ loose) (ctx.cache :: looseCaches)) :
    Passage p q s (s.collectContext ctx).1 :=
  (collectAll_passage h).trans h.pool (collectCache_passage (collectAll_keeps h).sound)

theorem dropReference_passage (h : s.Sound) (name : String) :
    Passage p q s (s.dropReference name).1 := by
  rw [dropReference]
  cases hid : s.references.get? name with
  | none => exact .refl p q s
  | some id => exact (collect_passage (h.eraseReference hid)).renamed h.pool rfl rfl rfl

theorem dropContext_passage (h : s.Sound) (name : String) :
    Passage p q s (s.dropContext name).1 := by
  rw [dropContext]
  cases hctx : s.contexts.get? name with
  | none => exact .refl p q s
  | some ctx => exact (collectContext_passage (h.eraseContext hctx)).renamed h.pool rfl rfl rfl

theorem dropCache_passage (h : s.Sound) (name : String) : Passage p q s (s.dropCache name).1 := by
  rw [dropCache]
  cases hn : s.caches.get? name with
  | none => exact .refl p q s
  | some n => exact (collectCache_passage (h.eraseName hn)).renamed h.pool rfl rfl rfl

/-! ### Storing under a name -/

theorem putReference_passage (h : s.Sound) (name : String) {id : Nat}
    (hid : ∃ e, s.world.pool.get? id = some e) : Passage p q s (s.putReference name id).1 :=
  (collectAll_passage (h.insertReference name hid)).renamed h.pool rfl rfl rfl

theorem putContext_passage (h : s.Sound) (name : String) {ctx : Context}
    (hctx : ∃ c, s.cachePool.get? ctx.cache = some c ∧
      ∀ id, ctx.entry = some id → c.lookup ctx.stream = some id) :
    Passage p q s (s.putContext name ctx).1 := by
  have hsound := h.insertContext name ctx hctx
  rw [putContext]
  cases hold : s.contexts.get? name with
  | none => exact passage_of_eq rfl rfl rfl
  | some old =>
    simp only [hold, Option.toList_some, List.flatMap_cons, List.flatMap_nil, List.append_nil,
      List.map_cons, List.map_nil] at hsound
    have hold : SoundBut (old.entry.toList ++ []) (old.cache :: [])
        { s with contexts := s.contexts.insert name ctx } := by rwa [List.append_nil]
    exact (collectContext_passage hold).renamed h.pool rfl rfl rfl

theorem putCache_passage (h : s.Sound) (name : String) {device : Nat}
    (hd : device < s.world.devices.length) (hp : p device) (layout : List (List Stream)) :
    Passage p q s (s.putCache name (.new device layout)).1 := by
  have hsound := h.insertCache name hd layout
  have hadd : Passage p q s { s with cachePool := (s.cachePool.add (.new device layout)).1 } :=
    passage_addCache hp
  rw [putCache]
  cases hold : s.caches.get? name with
  | none => exact hadd.trans h.pool (passage_of_eq rfl rfl rfl)
  | some old =>
    rw [hold] at hsound
    exact hadd.trans h.pool ((collectCache_passage hsound).renamed h.pool rfl rfl rfl)

/-! ### Acquisitions -/

/-- One acquisition, with the cache put back in its place or left where it is. -/
theorem supply_passage (h : s.Sound) (hn : s.cachePool.get? n = some c) (hp : p c.device) (hq : q)
    (stream : Stream) :
    Passage p q s ({ s with world := (c.acquire s.world stream).1 }.setCache n
      (c.acquire s.world stream).2.1) ∧
    ∀ f, (c.acquire s.world stream).2.2 = .error f →
      World.Course p s.world (c.acquire s.world stream).1 [] [] := by
  rw [Cache.acquire_eq_supply]
  rcases Cache.supply_course h.numbered (h.cache n c hn).device_lt hp stream with
    ⟨id, -, hx⟩ | ⟨-, w, e, hx, hcourse, hdevice⟩ | ⟨-, w, f, hx, hcourse⟩ <;> rw [hx]
  · exact ⟨passage_setCache hn rfl (.inl rfl), nofun⟩
  · refine ⟨(passage_share h.pool hcourse (hdevice ▸ hp) hq).trans h.pool ?_, nofun⟩
    exact passage_setCache hn rfl (.inr hp)
  · refine ⟨(passage_withWorld hcourse).trans h.pool ?_, fun _ _ => hcourse⟩
    exact passage_setCache hn rfl (.inl rfl)

theorem acquireAll_passage (h : s.Sound) (hn : s.cachePool.get? n = some c) (hp : p c.device)
    (hq : q) (streams : List Stream) :
    Passage p q s ({ s with world := (c.acquireAll s.world streams).1 }.setCache n
      (c.acquireAll s.world streams).2.1) := by
  induction streams generalizing s c with
  | nil => exact passage_setCache hn rfl (.inl rfl)
  | cons stream rest ih =>
    obtain ⟨hfirst, -⟩ := supply_passage h hn hp hq stream
    obtain ⟨hkeeps, -⟩ := supply_keeps h hn stream
    have hrest := ih hkeeps.sound (get?_setCache_self _ n _) (by rwa [Cache.device_acquire])
    have hboth := hfirst.trans h.pool hrest
    simp only [setCache, Pool.set_set] at hboth
    exact hboth

theorem named_passage {β : Type} {found : Option β} {next : β → Session × Answer}
    (hnext : ∀ b, found = some b → Passage p q s (next b).1) :
    Passage p q s (s.named found next).1 := by
  cases found with
  | none => exact .refl p q s
  | some b => exact hnext b rfl

theorem answerHandle_passage (s : Session) (e : Entry) : Passage p q s (s.answerHandle e).1 := by
  rw [answerHandle_fst]
  rcases s.world.require_cases e with ⟨hd, hx⟩ | ⟨f, hx⟩ <;> rw [hx]
  · exact .refl p q s
  · exact passage_fault f

theorem answerShared_passage (h : s.Sound) {id : Nat} (hid : ∃ e, s.world.pool.get? id = some e)
    (name : String) : Passage p q s (s.answerShared id name).1 := by
  have hput := putReference_passage (p := p) (q := q) h name hid
  rw [answerShared]
  rcases hx : s.putReference name id with ⟨s₁, f | u⟩ <;> rw [hx] at hput
  · exact hput
  · exact hput.trans h.pool (named_passage fun e _ => answerHandle_passage s₁ e)

/-- An entry that a cache keeps stays when a reference is stored, even if another entry goes with
the one in whose place it is stored. -/
theorem answerShared_slot (h : s.Sound) {n : Nat} {c : Cache} {stream : Stream} {id : Nat}
    (hn : s.cachePool.get? n = some c) (hid : c.lookup stream = some id) (name : String) :
    Passage (fun _ => False) False s (s.answerShared id name).1 ∧
      (s.answerShared id name).1.world.pool.get? id = s.world.pool.get? id := by
  obtain ⟨e, he, -⟩ := h.slot hn hid
  have hanswer := answerShared_passage (p := fun _ => False) (q := False) h ⟨e, he⟩ name
  have hsound := (answerShared_keeps h ⟨e, he⟩ name).sound
  obtain ⟨w, hfst⟩ := s.answerShared_fst id name
  have hn' : (s.answerShared id name).1.cachePool.get? n = some c := by
    rw [hfst]
    exact hn
  exact ⟨hanswer, hanswer.slot_kept h hsound hn hn' hid⟩

theorem acquire_passage (h : s.Sound) (hn : s.cachePool.get? n = some c) (hp : p c.device) (hq : q)
    (stream : Stream) (name : String) : Passage p q s (s.acquire n c stream name).1 := by
  obtain ⟨hboth, hfail⟩ := supply_passage h hn hp hq stream
  obtain ⟨hkeeps, hslot, -⟩ := supply_keeps h hn stream
  rw [acquire, onWorld_eq]
  rcases hx : c.acquire s.world stream with ⟨w, c', f | id⟩ <;> rw [hx] at hboth hfail hkeeps hslot
  · exact passage_withWorld (hfail f rfl)
  · obtain ⟨e, he, -⟩ := hkeeps.sound.slot (get?_setCache_self _ n c') (hslot id rfl)
    exact hboth.trans h.pool (answerShared_passage hkeeps.sound ⟨e, he⟩ name)

theorem prepareContext_passage (h : s.Sound) {ctx : Context}
    (hn : s.cachePool.get? ctx.cache = some c) (hp : p c.device) (hq : q) :
    Passage p q s (s.prepareContext name ctx c).1 := by
  rw [prepareContext]
  cases ctx.entry with
  | some id => exact .refl p q s
  | none =>
    obtain ⟨hboth, hfail⟩ := supply_passage h hn hp hq ctx.stream
    rw [onWorld_eq]
    rcases hx : c.acquire s.world ctx.stream with ⟨w, c', f | id⟩ <;> rw [hx] at hboth hfail
    · exact passage_withWorld (hfail f rfl)
    · exact hboth.trans h.pool (passage_of_eq rfl rfl rfl)

theorem contextHandle_passage (h : s.Sound) {ctx : Context} (hctx : s.contexts.get? name = some ctx)
    (target : String) : Passage p q s (s.contextHandle ctx target).1 := by
  rw [contextHandle]
  cases hentry : ctx.entry with
  | some id =>
    have hheld : id ∈ s.held :=
      mem_held_iff.mpr (.inr (.inr ⟨ctx, Table.mem_vals_of_get? hctx, hentry⟩))
    exact answerShared_passage h (h.exists_of_held hheld) target
  | none =>
    rw [onWorld_eq]
    rcases ctx.require_cases s.world with ⟨hd, hx⟩ | ⟨f, hx⟩ <;> rw [hx]
    · exact .refl p q s
    · exact passage_fault f

/-! ### Entries that are not shared -/

/-- An entry is replaced in its place. -/
theorem passage_replaceEntry {w : World} {e' : Entry} {begun ended : List Tenure} (h : s.Sound)
    (he : s.entries.get? name = some e) (hcourse : World.Course p s.world w begun ended)
    (hq : begun = [] ∨ q) (hdevice : e'.device = e.device)
    (hperm : (e'.tenures ++ ended).Perm (e.tenures ++ begun)) :
    Passage p q s { s with world := w, entries := s.entries.insert name e' } := by
  refine passage_withEntries hcourse hq (fun e₁ he₁ => .inr ?_)
    (List.perm_iff_count.mpr fun k => ?_)
  · rcases List.mem_cons.mp he₁ with rfl | he₁
    · exact ⟨e, Table.mem_vals_of_get? he, hdevice.symm⟩
    · exact ⟨e₁, Table.mem_vals_of_mem_erase he₁, rfl⟩
  · have hinsert := (h.entries_keyed.flatMap_insert Entry.tenures name e').count_eq k
    have hk := hperm.count_eq k
    rw [he] at hinsert
    simp only [Option.toList_some, List.flatMap_cons, List.flatMap_nil, List.append_nil,
      List.count_append] at hinsert hk ⊢
    omega

theorem prepareEntry_passage (h : s.Sound) (he : s.entries.get? name = some e) (hp : p e.device)
    (hq : q) :
    Passage p q s (s.prepareEntry name e).1 := by
  obtain ⟨hdevice, -⟩ := h.entry_of_get? he
  rw [prepareEntry, onWorld_eq]
  cases hh : e.handle with
  | some hd =>
    have hx : s.world.prepare e = (s.world, e, .ok ()) := by rw [World.prepare, hh]
    rw [hx]
    exact passage_replaceEntry h he (.refl p _) (.inl rfl) rfl (.refl _)
  | none =>
    have hcourse := World.course_prepare h.numbered hdevice hp hh
    rcases World.prepare_cases h.numbered hdevice with
      ⟨-, hx⟩ | ⟨-, w, id, hx, -⟩ | ⟨-, w, f, made, hx, -⟩ <;> rw [hx] at hcourse ⊢
    · exact passage_replaceEntry h he (.refl p _) (.inl rfl) rfl (.refl _)
    · refine passage_replaceEntry h he hcourse (.inr hq) rfl ?_
      rw [Entry.tenures_of_none hh, List.append_nil]
      exact .refl _
    · rw [Entry.tenures_of_none hh] at hcourse
      exact passage_withWorld hcourse

/-- Binding a handle anew does not end its tenure. -/
theorem rebindEntry_passage (h : s.Sound) (he : s.entries.get? name = some e) (hp : p e.device)
    (stream : Stream) : Passage p q s (s.rebindEntry name e stream).1 := by
  obtain ⟨hdevice, -⟩ := h.entry_of_get? he
  rw [rebindEntry, onWorld_eq, World.require]
  cases hh : e.handle with
  | none => exact passage_fault _
  | some hd =>
    have hbind := World.course_bind hdevice hp hd stream
    simp only [onWorld_eq]
    rcases World.onDevice_bind_cases hdevice hd stream with ⟨w, hb, -⟩ | ⟨w, t, hb, -⟩ <;>
      rw [hb] at hbind ⊢
    · refine passage_replaceEntry h he hbind (.inl rfl) rfl ?_
      rw [Entry.tenures_of_handle hh]
      exact .refl _
    · exact passage_withWorld hbind

theorem destroyEntry_passage (h : s.Sound) (he : s.entries.get? name = some e) (hp : p e.device) :
    Passage p q s (s.destroyEntry name e).1 := by
  obtain ⟨hdevice, -⟩ := h.entry_of_get? he
  have hcourse := World.course_release h.numbered hdevice hp
  have hperm : (e.emptied.tenures ++ e.tenures).Perm (e.tenures ++ []) := by
    rw [Entry.tenures_emptied, List.append_nil, List.nil_append]
  exact passage_replaceEntry h he hcourse (.inl rfl) rfl hperm

theorem dropEntry_passage (h : s.Sound) (hp : ∀ e, s.entries.get? name = some e → p e.device) :
    Passage p q s (s.dropEntry name).1 := by
  rw [dropEntry]
  cases he : s.entries.get? name with
  | none => exact .refl p q s
  | some e =>
    obtain ⟨hdevice, -⟩ := h.entry_of_get? he
    refine passage_withEntries (World.course_release h.numbered hdevice (hp e he)) (.inl rfl)
      (fun e' he' => .inr ⟨e', Table.mem_vals_of_mem_erase he', rfl⟩) ?_
    have herase := h.entries_keyed.flatMap_erase Entry.tenures name
    rw [he] at herase
    simpa using List.perm_append_comm.trans herase

/-- Storing an entry ends the tenure of the one that was there. -/
theorem SoundBut.putEntry_course (h : s.SoundBut loose looseCaches) (name : String) (e : Entry)
    (hp : ∀ old, s.entries.get? name = some old → p old.device) :
    ∃ w, (s.putEntry name e).1 = { s with world := w, entries := s.entries.insert name e } ∧
      World.Course p s.world w [] ((s.entries.get? name).toList.flatMap Entry.tenures) := by
  rw [putEntry]
  cases hold : s.entries.get? name with
  | none => exact ⟨s.world, rfl, .refl p _⟩
  | some old =>
    obtain ⟨hdevice, -⟩ := h.entry_of_get? hold
    refine ⟨(s.world.release old).1, rfl, ?_⟩
    simpa using World.course_release h.numbered hdevice (hp old hold)

theorem addEntry_passage (h : s.Sound) {device : Nat} (hp : p device)
    (hold : ∀ old, s.entries.get? name = some old → p old.device) (stream : Stream) :
    Passage p q s (s.putEntry name (.new device stream)).1 := by
  obtain ⟨w, hput, hcourse⟩ := h.putEntry_course name (.new device stream) hold
  rw [hput]
  refine passage_withEntries hcourse (.inl rfl) (fun e he => ?_) ?_
  · rcases List.mem_cons.mp he with rfl | he
    · exact .inl hp
    · exact .inr ⟨e, Table.mem_vals_of_mem_erase he, rfl⟩
  · rw [List.append_nil]
    exact List.perm_append_comm.trans (h.entries_keyed.flatMap_insert Entry.tenures name _)

/-- The tenure goes from one name to another, and what was under that name ends. -/
theorem takeEntry_passage (h : s.Sound) (he : s.entries.get? name = some e) {target : String}
    (hp : ∀ old, (s.entries.insert name e.emptied).get? target = some old → p old.device) :
    Passage p q s (s.takeEntry name e target).1 := by
  obtain ⟨hdevice, hgenuine⟩ := h.entry_of_get? he
  have hempty : SoundBut [] [] { s with entries := s.entries.insert name e.emptied } :=
    h.withEntries (h.entries_keyed.insert name _)
      (h.entry_insert name hdevice (Entry.genuine_emptied e))
  obtain ⟨w, hput, hcourse⟩ := hempty.putEntry_course target e hp
  rw [takeEntry, answering, hput]
  refine passage_withEntries hcourse (.inl rfl) (fun e' he' => .inr ?_)
    (List.perm_iff_count.mpr fun k => ?_)
  · rcases List.mem_cons.mp he' with rfl | he'
    · exact ⟨e', Table.mem_vals_of_get? he, rfl⟩
    rcases List.mem_cons.mp (Table.mem_vals_of_mem_erase he') with rfl | he'
    · exact ⟨e, Table.mem_vals_of_get? he, rfl⟩
    · exact ⟨e', Table.mem_vals_of_mem_erase he', rfl⟩
  · have hleave := (h.entries_keyed.flatMap_insert Entry.tenures name e.emptied).count_eq k
    have henter := (hempty.entries_keyed.flatMap_insert Entry.tenures target e).count_eq k
    rw [he] at hleave
    simp only [Option.toList_some, List.flatMap_cons, List.flatMap_nil, List.append_nil,
      Entry.tenures_emptied, List.nil_append, List.count_append] at hleave henter ⊢
    omega

/-- The target takes over the tenure of the source, or both tenures end. -/
theorem assignEntry_passage {sourceName : String} {source : Entry} (h : s.Sound)
    (hsource : s.entries.get? sourceName = some source)
    (he : (s.entries.erase sourceName).get? name = some e) (hp : p e.device)
    (hp' : p source.device) : Passage p q s (s.assignEntry name e sourceName source).1 := by
  have herased : SoundBut [] [] { s with entries := s.entries.erase sourceName } :=
    h.withEntries (h.entries_keyed.erase sourceName)
      (fun e' he' => h.entry e' (Table.mem_vals_of_mem_erase he'))
  obtain ⟨hdevice, hgenuine⟩ := herased.entry_of_get? he
  have hmem : ∀ {e'}, p e'.device → ∀ e₁ ∈ ((s.entries.erase sourceName).insert name e').vals,
      p e₁.device ∨ ∃ e₀ ∈ s.entries.vals, e₀.device = e₁.device := by
    intro e' hpe' e₁ he₁
    rcases List.mem_cons.mp he₁ with rfl | he₁
    · exact .inl hpe'
    · exact .inr ⟨e₁, Table.mem_vals_of_mem_erase (Table.mem_vals_of_mem_erase he₁), rfl⟩
  have herase := h.entries_keyed.flatMap_erase Entry.tenures sourceName
  have hinsert := herased.entries_keyed.flatMap_insert Entry.tenures name
  rw [hsource] at herase
  simp only [he] at hinsert
  rw [assignEntry, onWorld_eq]
  rcases World.assign_course h.numbered hdevice (h.entry_of_get? hsource).1 hgenuine hp hp' with
    ⟨w, r, hx, hcourse⟩ | ⟨w, r, hx, hcourse⟩ <;> simp only [hx, answering]
  · refine passage_withEntries hcourse (.inl rfl) (hmem hp') (List.perm_iff_count.mpr fun k => ?_)
    have hk := herase.count_eq k
    have hk' := (hinsert source).count_eq k
    simp only [Option.toList_some, List.flatMap_cons, List.flatMap_nil, List.append_nil,
      List.count_append] at hk hk' ⊢
    omega
  · refine passage_withEntries hcourse (.inl rfl) (hmem hp) (List.perm_iff_count.mpr fun k => ?_)
    have hk := herase.count_eq k
    have hk' := (hinsert e.emptied).count_eq k
    simp only [Option.toList_some, List.flatMap_cons, List.flatMap_nil, List.append_nil,
      Entry.tenures_emptied, List.count_append, List.count_nil] at hk hk' ⊢
    omega

/-! ### Handles with a name and routines -/

theorem createHandle_passage (h : s.Sound) {serial : Nat} (hs : serial < s.world.devices.length)
    (hp : p serial) (name : String) : Passage p q s (s.createHandle serial name).1 := by
  have hcourse := World.course_create h.numbered hs hp
  rw [createHandle, onWorld_eq]
  rcases hx : s.world.onDevice serial (·.create) with ⟨w, t | hd⟩ <;> rw [hx] at hcourse
  · exact passage_withWorld hcourse
  · exact (passage_withWorld hcourse).trans h.pool (passage_of_eq rfl rfl rfl)

theorem bindHandle_passage (h : s.Sound) {serial : Nat} (hs : serial < s.world.devices.length)
    (hp : p serial) (hd : Handle) (stream : Stream) :
    Passage p q s (s.bindHandle serial name hd stream).1 := by
  have hcourse := World.course_bind hs hp hd stream
  rw [bindHandle, onWorld_eq]
  rcases hx : s.world.onDevice serial (·.bind hd stream) with ⟨w, t | hd'⟩ <;> rw [hx] at hcourse
  · exact passage_withWorld hcourse
  · exact (passage_withWorld hcourse).trans h.pool (passage_of_eq rfl rfl rfl)

theorem destroyHandle_passage (h : s.Sound) {serial : Nat} (hs : serial < s.world.devices.length)
    (hp : p serial) (hd : Handle) : Passage p q s (s.destroyHandle serial name hd).1 := by
  have hcourse := World.course_onDevice hp (World.turnover_destroy h.numbered hs hd)
  rw [destroyHandle, onWorld_eq]
  rcases hx : s.world.onDevice serial (·.destroy hd) with ⟨w, t | u⟩ <;> rw [hx] at hcourse
  · exact (passage_withWorld hcourse).trans h.pool (passage_of_eq rfl rfl rfl)
  · exact (passage_withWorld hcourse).trans h.pool (passage_of_eq rfl rfl rfl)

theorem run_passage (h : s.Sound) (job : Job) (target : Target)
    (hp : ∀ i ∈ s.targetDevice target, p i) : Passage p q s (s.run job target).1 := by
  obtain ⟨w, hw, rfl | ⟨f, rfl⟩ | ⟨serial, hs, hd, rfl⟩⟩ := s.run_ran job target <;> rw [hw]
  · exact .refl p q s
  · exact passage_fault f
  · exact passage_withWorld (World.course_execute (h.lt_of_targetDevice hs) (hp serial hs) hd job)

/-! ### All steps -/

/-- The device of the entry that has a name. -/
def entryDevice (s : Session) (name : String) : List Nat :=
  (s.entries.get? name).toList.map (·.device)

/-- The device of the cache that has a name. -/
def cacheDevice (s : Session) (name : String) : List Nat :=
  (s.cache? name).toList.map (·.2.device)

/-- The devices that a step may work on. -/
def reached (s : Session) : Step → List Nat
  | .addDevice _ | .addCacheWithDevice _ _ _ => [s.world.devices.length]
  | .arm device _ _ | .clearCalls device | .createHandle device _ | .bindHandle device _ _
  | .destroyHandle device _ | .addCache _ device _ => s.namedDevice device
  | .addEntry name device _ => s.namedDevice device ++ s.entryDevice name
  | .prepareEntry name | .rebindEntry name _ | .destroyEntry name | .dropEntry name =>
    s.entryDevice name
  | .takeEntry name other | .assignEntry name other => s.entryDevice name ++ s.entryDevice other
  | .acquire cache _ _ | .race cache _ => s.cacheDevice cache
  | .prepareContext name => s.contextDevice name
  | .run target _ => s.targetDevice target
  | _ => []

theorem mem_entryDevice (he : s.entries.get? name = some e) : e.device ∈ s.entryDevice name := by
  simp [entryDevice, he]

theorem mem_cacheDevice {found : Nat × Cache} (hc : s.cache? name = some found) :
    found.2.device ∈ s.cacheDevice name := by
  simp [cacheDevice, hc]

theorem addDevice_passage (h : s.Sound) (hp : p s.world.devices.length) (name : String) :
    Passage p q s (s.addDevice name).1 :=
  (passage_withWorld (World.course_addDevice hp)).trans h.pool (passage_of_eq rfl rfl rfl)

/-- **Every step is a passage on the devices that it may work on.** -/
theorem step_passage (h : s.Sound) (t : Step) :
    Passage (· ∈ s.reached t) (t.begins = true) s (s.step t).1 := by
  cases t with
  | addDevice name => exact addDevice_passage h List.mem_cons_self name
  | arm device kind status =>
    exact named_passage fun serial hs => passage_withWorld
      (World.course_onDevice (mem_namedDevice hs)
        (World.turnover_arm (h.lt_of_device hs) kind status))
  | clearCalls device =>
    exact named_passage fun serial hs => passage_withWorld
      (World.course_onDevice (mem_namedDevice hs) (World.turnover_clearCalls (h.lt_of_device hs)))
  | createHandle device name =>
    exact named_passage fun serial hs =>
      createHandle_passage h (h.lt_of_device hs) (mem_namedDevice hs) name
  | bindHandle device name stream =>
    exact named_passage fun serial hs => named_passage fun hd _ =>
      bindHandle_passage h (h.lt_of_device hs) (mem_namedDevice hs) hd stream
  | destroyHandle device name =>
    exact named_passage fun serial hs => named_passage fun hd _ =>
      destroyHandle_passage h (h.lt_of_device hs) (mem_namedDevice hs) hd
  | addEntry name device stream =>
    exact named_passage fun serial hs =>
      addEntry_passage h (List.mem_append_left _ (mem_namedDevice hs))
        (fun old hold => List.mem_append_right _ (mem_entryDevice hold)) stream
  | prepareEntry name =>
    exact named_passage fun e he => prepareEntry_passage h he (mem_entryDevice he) rfl
  | entryHandle name => exact named_passage fun e _ => answerHandle_passage s e
  | rebindEntry name stream =>
    exact named_passage fun e he => rebindEntry_passage h he (mem_entryDevice he) stream
  | takeEntry name target =>
    refine named_passage fun e he => takeEntry_passage h he fun old hold => ?_
    have hdevice := mem_entryDevice he
    rw [Table.get?_insert] at hold
    split at hold
    · cases hold
      exact List.mem_append_left _ hdevice
    · exact List.mem_append_right _ (mem_entryDevice hold)
  | assignEntry name source =>
    refine named_passage fun origin horigin => named_passage fun e he => ?_
    have he' : s.entries.get? name = some e := by
      rw [Table.get?_erase] at he
      split at he
      · cases he
      · exact he
    exact assignEntry_passage h horigin he (List.mem_append_left _ (mem_entryDevice he'))
      (List.mem_append_right _ (mem_entryDevice horigin))
  | destroyEntry name =>
    exact named_passage fun e he => destroyEntry_passage h he (mem_entryDevice he)
  | dropEntry name =>
    exact named_passage fun _ _ => dropEntry_passage h fun e he => mem_entryDevice he
  | addCache name device layout =>
    exact named_passage fun serial hs =>
      putCache_passage h name (h.lt_of_device hs) (mem_namedDevice hs) layout
  | addCacheWithDevice name device layout =>
    obtain ⟨hkeeps, hlt⟩ := addDevice_keeps h device
    exact (addDevice_passage h List.mem_cons_self device).trans h.pool
      (putCache_passage hkeeps.sound name hlt List.mem_cons_self layout)
  | acquire cache stream name =>
    exact named_passage fun found hc =>
      acquire_passage h (get?_of_cache? hc).2 (mem_cacheDevice hc) rfl stream name
  | get cache stream name =>
    refine named_passage fun found hc => ?_
    cases hid : found.2.lookup stream with
    | none =>
      simp only [hid]
      exact .refl _ _ s
    | some id =>
      simp only [hid]
      obtain ⟨e, he, -⟩ := h.slot (get?_of_cache? hc).2 hid
      exact answerShared_passage h ⟨e, he⟩ name
  | race cache streams =>
    exact named_passage fun found hc =>
      acquireAll_passage h (get?_of_cache? hc).2 (mem_cacheDevice hc) rfl streams
  | dropCache name =>
    refine named_passage fun n _ => ?_
    split
    · exact .refl _ _ s
    · exact dropCache_passage h name
  | showReference name =>
    refine named_passage fun e _ => ?_
    rw [onWorld_eq]
    rcases s.world.require_cases e with ⟨hd, hx⟩ | ⟨f, hx⟩ <;> rw [hx]
    · exact .refl _ _ s
    · exact passage_fault f
  | cloneReference name target =>
    exact named_passage fun id hid =>
      putReference_passage h target (h.reference id (Table.mem_vals_of_get? hid))
  | sameEntry name other => exact named_passage fun _ _ => named_passage fun _ _ => .refl _ _ s
  | dropReference name => exact named_passage fun _ _ => dropReference_passage h name
  | addContext name cache stream =>
    refine named_passage fun n hn => putContext_passage h name ?_
    obtain ⟨c, hc⟩ := h.name n (Table.mem_vals_of_get? hn)
    refine ⟨c, hc, fun id hid => ?_⟩
    cases hid
  | prepareContext name =>
    exact named_passage fun ctx hctx => named_passage fun c hn =>
      prepareContext_passage h hn (mem_contextDevice hctx hn) rfl
  | contextHandle name target =>
    exact named_passage fun ctx hctx => contextHandle_passage h hctx target
  | dropContext name => exact named_passage fun _ _ => dropContext_passage h name
  | run target job => exact run_passage h job target fun _ hi => hi
  | showCalls name | showHandle name | showEntry name | contains name | showCache name
  | showContext name | inspect subject name => exact named_passage fun _ _ => .refl _ _ s

end Session

end SparseDevice
