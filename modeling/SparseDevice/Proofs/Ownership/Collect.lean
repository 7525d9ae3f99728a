import SparseDevice.Proofs.Ownership.Books

/-!
# Letting go and storing

Whoever lets go of a number looks whether anyone still holds it. The lemmas here say that this keeps
a session sound: what the loose ends name is either still held or goes, and goes with its handle.
Storing under a name lets go of what was there, so it comes down to the same.

When a cache goes, the slots that are still to come are loose. Those that a fault leaves behind go
into ruins, and what is in them is there: no other slot keeps the same entry, so none went before.

## Main results

* `Session.collect_keeps`, `Session.collectAll_keeps`: shared entries that may have lost their last
  owner.
* `Session.collectCache_keeps`, `Session.collectContext_keeps`: caches and contexts.
* `Session.dropReference_keeps` and its kin, `Session.putReference_keeps` and its kin: names.
-/

namespace SparseDevice

open Handle (Key)

namespace Session

variable {s : Session} {loose looseCaches : List Nat}

/-! ### Shared entries -/

/-- Letting go of shared entries is a matter of the world alone. -/
theorem collect_fst (s : Session) (id : Nat) : ∃ w, (s.collect id).1 = { s with world := w } := by
  rw [collect]
  split
  · exact ⟨s.world, rfl⟩
  · exact ⟨_, rfl⟩

theorem collectAll_fst (s : Session) (ids : List Nat) :
    ∃ w, (s.collectAll ids).1 = { s with world := w } := by
  induction ids generalizing s with
  | nil => exact ⟨s.world, rfl⟩
  | cons id rest ih =>
    obtain ⟨w, hw⟩ := s.collect_fst id
    obtain ⟨w', hw'⟩ := ih { s with world := w }
    refine ⟨w', ?_⟩
    rw [collectAll]
    simp only [hw, hw']

/-- A number that is held, or that names nothing, is not loose. -/
theorem SoundBut.tighten {id : Nat} (h : s.SoundBut (id :: loose) looseCaches)
    (hid : id ∈ s.held ∨ s.world.pool.get? id = none) : s.SoundBut loose looseCaches := by
  refine { h with held := fun id' e he => ?_ }
  rcases h.held id' e he with hheld | hl
  · exact .inl hheld
  rcases List.mem_cons.mp hl with rfl | hl
  · rcases hid with hheld | hnone
    · exact .inl hheld
    · rw [hnone] at he
      cases he
  · exact .inr hl

theorem SoundBut.tightenCache {n : Nat} (h : s.SoundBut loose (n :: looseCaches))
    (hn : n ∈ s.heldCaches ∨ s.cachePool.get? n = none) : s.SoundBut loose looseCaches := by
  refine { h with heldCache := fun n' c hc => ?_ }
  rcases h.heldCache n' c hc with hheld | hl
  · exact .inl hheld
  rcases List.mem_cons.mp hl with rfl | hl
  · rcases hn with hheld | hnone
    · exact .inl hheld
    · rw [hnone] at hc
      cases hc
  · exact .inr hl

/-- A shared entry that nobody holds goes, and its handle goes home. -/
theorem SoundBut.discard_keeps {id : Nat} (h : s.SoundBut (id :: loose) looseCaches)
    (hid : id ∉ s.held) : Keeps loose looseCaches s { s with world := (s.world.discard id).1 } := by
  rw [World.discard]
  cases he : s.world.pool.get? id with
  | none => exact (h.tighten (.inr he)).keeps_refl
  | some e =>
    obtain ⟨hdevice, hready⟩ := h.shared id e he
    have hlist : (id :: loose).filter (· ≠ id) ⊆ loose := by
      intro id' hid'
      obtain ⟨hmem, hne⟩ := List.mem_filter.mp hid'
      exact (List.mem_cons.mp hmem).resolve_left (by simpa using hne)
    have hsound := (h.unshare hid).mono hlist (List.Subset.refl _)
    have hrelease := World.turnover_release (w := { s.world with pool := s.world.pool.erase id })
      h.numbered hdevice hready.genuine
    refine (hsound.withWorld hrelease).outcome (m := []) (b := e.keys) hrelease.made
      hrelease.returns ?_
    have hvals := (h.pool.vals_perm_of_get? he).flatMap_right Entry.keys
    refine List.perm_iff_count.mpr ?_
    intro k
    have hk := hvals.count_eq k
    simp only [owned, hrelease.pool, List.flatMap_cons, List.map_nil, List.nil_append,
      List.count_append] at hk ⊢
    omega

theorem collect_keeps {id : Nat} (h : s.SoundBut (id :: loose) looseCaches) :
    Keeps loose looseCaches s (s.collect id).1 := by
  by_cases hid : id ∈ s.held
  · rw [collect_of_mem hid]
    exact (h.tighten (.inl hid)).keeps_refl
  · rw [collect, if_neg hid]
    exact h.discard_keeps hid

theorem collectAll_keeps {ids : List Nat} (h : s.SoundBut (ids ++ loose) looseCaches) :
    Keeps loose looseCaches s (s.collectAll ids).1 := by
  induction ids generalizing s with
  | nil => exact h.keeps_refl
  | cons id rest ih =>
    have hfirst : Keeps (rest ++ loose) looseCaches s (s.collect id).1 := collect_keeps h
    exact hfirst.trans (ih hfirst.sound)

/-! ### Caches and contexts -/

/-- Letting go of one shared entry leaves the others where they are. -/
theorem SoundBut.collect_mono (h : s.SoundBut loose looseCaches) (id : Nat) :
    s.world.devices.length ≤ (s.collect id).1.world.devices.length ∧
      ∀ id', id' ≠ id → (s.collect id).1.world.pool.get? id' = s.world.pool.get? id' := by
  by_cases hid : id ∈ s.held
  · rw [collect_of_mem hid]
    exact ⟨Nat.le_refl _, fun _ _ => rfl⟩
  rw [collect, if_neg hid, onWorld_eq, World.discard]
  cases he : s.world.pool.get? id with
  | none => exact ⟨Nat.le_refl _, fun _ _ => rfl⟩
  | some e =>
    obtain ⟨hdevice, hready⟩ := h.shared id e he
    have hrelease := World.turnover_release (w := { s.world with pool := s.world.pool.erase id })
      h.numbered hdevice hready.genuine
    refine ⟨hrelease.length_le, fun id' hne => ?_⟩
    simp only [hrelease.pool]
    rw [Pool.get?_erase, if_neg hne]

theorem leave_eq (s : Session) (c : Cache) : ∃ ruins, s.leave c = { s with ruins := ruins } := by
  rw [leave]
  split
  · exact ⟨s.ruins, rfl⟩
  · exact ⟨_, rfl⟩

/-- The slots of a shard go or fall into ruins; those of the `others` are still to come. -/
theorem collectShard_keeps {c : Cache} {shard others : Table Stream Nat}
    (h : s.SoundBut (Table.vals (shard ++ others) ++ loose) looseCaches)
    (hc : Cache.Sound { c with slots := shard ++ others } s.world) :
    Keeps (others.vals ++ loose) looseCaches s (s.collectShard c shard).1 ∧
      Cache.Sound { c with slots := others } (s.collectShard c shard).1.world := by
  induction shard generalizing s with
  | nil => exact ⟨h.keeps_refl, hc⟩
  | cons slot rest ih =>
    have hkeeps : Keeps (Table.vals (rest ++ others) ++ loose) looseCaches s
        (s.collect slot.2).1 := collect_keeps h
    have htail : Cache.Sound { c with slots := rest ++ others } (s.collect slot.2).1.world := by
      obtain ⟨hlen, hget⟩ := h.collect_mono slot.2
      refine (hc.part (List.nodup_cons.mp hc.keyed).2 (List.subset_cons_self _ _)).mono hlen ?_
      intro id hid e he
      rw [hget id fun hsame => hc.not_mem_tail (hsame ▸ hid)]
      exact he
    rw [collectShard]
    rcases hx : s.collect slot.2 with ⟨s₁, f | u⟩ <;> rw [hx] at hkeeps htail
    · obtain ⟨ruins, hleave⟩ := s₁.leave_eq { c with slots := rest }
      have hrest : Cache.Sound { c with slots := rest } s₁.world :=
        htail.part htail.keyed.left (List.subset_append_left _ _)
      have hsound : SoundBut (others.vals ++ loose) looseCaches (s₁.leave { c with slots := rest }) :=
        hkeeps.sound.leave hrest fun id hid => by simpa [Table.vals, or_assoc] using hid
      rw [hleave] at hsound
      simp only [hleave]
      exact ⟨hkeeps.trans (hsound.keeps_of_eq rfl rfl rfl),
        htail.part htail.keyed.right (List.subset_append_right _ _)⟩
    · obtain ⟨hlater, hothers⟩ := ih hkeeps.sound htail
      exact ⟨hkeeps.trans hlater, hothers⟩

theorem collectShards_keeps {c : Cache} {shards : List (Table Stream Nat)}
    (h : s.SoundBut (Table.vals shards.flatten ++ loose) looseCaches)
    (hc : Cache.Sound { c with slots := shards.flatten } s.world) :
    Keeps loose looseCaches s (s.collectShards c shards).1 := by
  induction shards generalizing s with
  | nil => exact h.keeps_refl
  | cons shard rest ih =>
    have hall : s.SoundBut (Table.vals (shard ++ rest.flatten) ++ loose) looseCaches := h
    obtain ⟨hfirst, hrest⟩ := collectShard_keeps hall hc
    exact hfirst.trans (ih hfirst.sound hrest)

/-- A cache that nobody holds, taken out of its place, with its slots loose shard by shard. -/
theorem SoundBut.shards {n : Nat} {c : Cache} (h : s.SoundBut loose (n :: looseCaches))
    (hc : s.cachePool.get? n = some c) (hn : n ∉ s.heldCaches) :
    SoundBut (Table.vals c.shards.flatten ++ loose) looseCaches
        { s with cachePool := s.cachePool.erase n } ∧
      Cache.Sound { c with slots := c.shards.flatten } s.world := by
  have hsound := h.cache n c hc
  have hperm := Cache.shards_perm hsound.keyed
  refine ⟨(h.eraseCache hc hn).mono ?_ ?_, hsound.part (hsound.keyed.congr hperm) hperm.subset⟩
  · intro id hid
    rcases List.mem_append.mp hid with hid | hid
    · exact List.mem_append_left _ ((hperm.map Prod.snd).symm.subset hid)
    · exact List.mem_append_right _ hid
  · intro n' hn'
    obtain ⟨hmem, hne⟩ := List.mem_filter.mp hn'
    exact (List.mem_cons.mp hmem).resolve_left (by simpa using hne)

theorem collectCache_keeps {n : Nat} (h : s.SoundBut loose (n :: looseCaches)) :
    Keeps loose looseCaches s (s.collectCache n).1 := by
  by_cases hn : n ∈ s.heldCaches
  · rw [collectCache_of_mem hn]
    exact (h.tightenCache (.inl hn)).keeps_refl
  · rw [collectCache, if_neg hn]
    cases hc : s.cachePool.get? n with
    | none => exact (h.tightenCache (.inr hc)).keeps_refl
    | some c =>
      obtain ⟨hsound, hslots⟩ := h.shards hc hn
      have hgone : Keeps (Table.vals c.shards.flatten ++ loose) looseCaches s
          { s with cachePool := s.cachePool.erase n } := hsound.keeps_of_eq rfl rfl rfl
      exact hgone.trans (collectShards_keeps hsound hslots)

theorem collectContext_keeps {ctx : Context}
    (h : s.SoundBut (ctx.entry.toList ++ loose) (ctx.cache :: looseCaches)) :
    Keeps loose looseCaches s (s.collectContext ctx).1 := by
  have hfirst := collectAll_keeps h
  exact hfirst.trans (collectCache_keeps hfirst.sound)

/-! ### Dropping a name -/

theorem dropEntry_keeps (h : s.SoundBut loose looseCaches) (name : String) :
    Keeps loose looseCaches s (s.dropEntry name).1 := by
  rw [dropEntry]
  cases he : s.entries.get? name with
  | none => exact h.keeps_refl
  | some e =>
    obtain ⟨hdevice, hgenuine⟩ := h.entry_of_get? he
    refine h.keeps_withEntries (m := []) (b := e.keys)
      (World.turnover_release h.numbered hdevice hgenuine) (h.entries_keyed.erase name)
      (fun e' he' => h.entry e' (Table.mem_vals_of_mem_erase he')) ?_
    have := h.entries_keyed.flatMap_erase Entry.keys name
    simpa [he] using this

/-- The session without a reference, whose entry is loose then. -/
theorem SoundBut.eraseReference (h : s.SoundBut loose looseCaches) {name : String} {id : Nat}
    (hid : s.references.get? name = some id) :
    SoundBut (id :: loose) looseCaches { s with references := s.references.erase name } := by
  refine h.withReferences (h.references_keyed.erase name)
    (fun id' hid' => h.reference id' (Table.mem_vals_of_mem_erase hid')) (fun id' hid' => ?_)
    (List.subset_cons_self _ _)
  rcases List.mem_cons.mp ((h.references_keyed.vals_perm_of_get? hid).mem_iff.mp hid') with
    rfl | hid'
  · exact .inr List.mem_cons_self
  · exact .inl hid'

theorem dropReference_keeps (h : s.SoundBut loose looseCaches) (name : String) :
    Keeps loose looseCaches s (s.dropReference name).1 := by
  rw [dropReference]
  cases hid : s.references.get? name with
  | none => exact h.keeps_refl
  | some id =>
    have hsound := h.eraseReference hid
    have hgone : Keeps (id :: loose) looseCaches s
        { s with references := s.references.erase name } := hsound.keeps_of_eq rfl rfl rfl
    exact hgone.trans (collect_keeps hsound)

/-- The session without a context, whose entry and cache are loose then. -/
theorem SoundBut.eraseContext (h : s.SoundBut loose looseCaches) {name : String} {ctx : Context}
    (hctx : s.contexts.get? name = some ctx) :
    SoundBut (ctx.entry.toList ++ loose) (ctx.cache :: looseCaches)
      { s with contexts := s.contexts.erase name } := by
  refine h.withContexts (h.contexts_keyed.erase name)
    (fun ctx' hctx' => h.context ctx' (Table.mem_vals_of_mem_erase hctx'))
    (fun ctx' hctx' => ?_) (List.subset_append_right _ _) (List.subset_cons_self _ _)
  rcases List.mem_cons.mp ((h.contexts_keyed.vals_perm_of_get? hctx).mem_iff.mp hctx') with
    rfl | hctx'
  · exact ⟨.inr List.mem_cons_self, fun id hid => .inr (List.mem_append_left _ (by simp [hid]))⟩
  · exact ⟨.inl ⟨ctx', hctx', rfl⟩, fun id hid => .inl ⟨ctx', hctx', hid⟩⟩

theorem dropContext_keeps (h : s.SoundBut loose looseCaches) (name : String) :
    Keeps loose looseCaches s (s.dropContext name).1 := by
  rw [dropContext]
  cases hctx : s.contexts.get? name with
  | none => exact h.keeps_refl
  | some ctx =>
    have hsound := h.eraseContext hctx
    have hgone : Keeps (ctx.entry.toList ++ loose) (ctx.cache :: looseCaches) s
        { s with contexts := s.contexts.erase name } := hsound.keeps_of_eq rfl rfl rfl
    exact hgone.trans (collectContext_keeps hsound)

/-- The session without a name of a cache, which is loose then. -/
theorem SoundBut.eraseName (h : s.SoundBut loose looseCaches) {name : String} {n : Nat}
    (hn : s.caches.get? name = some n) :
    SoundBut loose (n :: looseCaches) { s with caches := s.caches.erase name } := by
  refine h.withNames (h.caches_keyed.erase name)
    (fun n' hn' => h.name n' (Table.mem_vals_of_mem_erase hn')) (fun n' hn' => ?_)
    (fun n' hn' => .inr (List.mem_cons_of_mem _ hn'))
  rcases List.mem_cons.mp ((h.caches_keyed.vals_perm_of_get? hn).mem_iff.mp hn') with rfl | hn'
  · exact .inr List.mem_cons_self
  · exact .inl hn'

theorem dropCache_keeps (h : s.SoundBut loose looseCaches) (name : String) :
    Keeps loose looseCaches s (s.dropCache name).1 := by
  rw [dropCache]
  cases hn : s.caches.get? name with
  | none => exact h.keeps_refl
  | some n =>
    have hsound := h.eraseName hn
    have hgone : Keeps loose (n :: looseCaches) s { s with caches := s.caches.erase name } :=
      hsound.keeps_of_eq rfl rfl rfl
    exact hgone.trans (collectCache_keeps hsound)

/-! ### Storing under a name -/

/-- Storing an entry gives back the handle of the one that was there. -/
theorem SoundBut.putEntry_world (h : s.SoundBut loose looseCaches) (name : String) (e : Entry) :
    ∃ w, (s.putEntry name e).1 = { s with world := w, entries := s.entries.insert name e } ∧
      s.world.Turnover w []
        (((s.entries.get? name).toList.flatMap Entry.keys).map Key.homeward) := by
  rw [putEntry]
  cases hold : s.entries.get? name with
  | none => exact ⟨s.world, rfl, .refl _⟩
  | some old =>
    obtain ⟨hdevice, hgenuine⟩ := h.entry_of_get? hold
    refine ⟨(s.world.release old).1, rfl, ?_⟩
    simpa using World.turnover_release h.numbered hdevice hgenuine

/-- An entry that is stored may be any entry of a known device. -/
theorem SoundBut.entry_insert (h : s.SoundBut loose looseCaches) (name : String) {e : Entry}
    (hdevice : e.device < s.world.devices.length) (hgenuine : e.Genuine) :
    ∀ e' ∈ (s.entries.insert name e).vals,
      e'.device < s.world.devices.length ∧ e'.Genuine := by
  intro e' he'
  rcases List.mem_cons.mp he' with rfl | he'
  · exact ⟨hdevice, hgenuine⟩
  · exact h.entry e' (Table.mem_vals_of_mem_erase he')

/-- A reference that is stored in place of another one makes that entry loose. -/
theorem SoundBut.insertReference (h : s.SoundBut loose looseCaches) (name : String) {id : Nat}
    (hid : ∃ e, s.world.pool.get? id = some e) :
    SoundBut ((s.references.get? name).toList ++ loose) looseCaches
      { s with references := s.references.insert name id } := by
  refine h.withReferences (h.references_keyed.insert name id) (fun id' hid' => ?_)
    (fun id' hid' => ?_) (List.subset_append_right _ _)
  · rcases List.mem_cons.mp hid' with rfl | hid'
    · exact hid
    · exact h.reference id' (Table.mem_vals_of_mem_erase hid')
  · rcases List.mem_append.mp ((h.references_keyed.vals_perm name).mem_iff.mp hid') with
      hid' | hid'
    · exact .inr (List.mem_append_left _ hid')
    · exact .inl (List.mem_cons_of_mem _ hid')

theorem putReference_keeps (h : s.SoundBut loose looseCaches) (name : String) {id : Nat}
    (hid : ∃ e, s.world.pool.get? id = some e) :
    Keeps loose looseCaches s (s.putReference name id).1 := by
  have hsound := h.insertReference name hid
  have hput : Keeps ((s.references.get? name).toList ++ loose) looseCaches s
      { s with references := s.references.insert name id } := hsound.keeps_of_eq rfl rfl rfl
  exact hput.trans (collectAll_keeps hsound)

/-- A context that is stored in place of another one makes that one loose. -/
theorem SoundBut.insertContext (h : s.SoundBut loose looseCaches) (name : String) (ctx : Context)
    (hctx : ∃ c, s.cachePool.get? ctx.cache = some c ∧
      ∀ id, ctx.entry = some id → c.lookup ctx.stream = some id) :
    SoundBut ((s.contexts.get? name).toList.flatMap (·.entry.toList) ++ loose)
      ((s.contexts.get? name).toList.map (·.cache) ++ looseCaches)
      { s with contexts := s.contexts.insert name ctx } := by
  refine h.withContexts (h.contexts_keyed.insert name ctx) (fun ctx' hctx' => ?_)
    (fun ctx' hctx' => ?_) (List.subset_append_right _ _) (List.subset_append_right _ _)
  · rcases List.mem_cons.mp hctx' with rfl | hctx'
    · exact hctx
    · exact h.context ctx' (Table.mem_vals_of_mem_erase hctx')
  · rcases List.mem_append.mp ((h.contexts_keyed.vals_perm name).mem_iff.mp hctx') with
      hctx' | hctx'
    · refine ⟨.inr (List.mem_append_left _ (List.mem_map_of_mem hctx')), fun id hid => .inr ?_⟩
      exact List.mem_append_left _ (List.mem_flatMap.mpr ⟨ctx', hctx', by simp [hid]⟩)
    · have hin := List.mem_cons_of_mem ctx hctx'
      exact ⟨.inl ⟨ctx', hin, rfl⟩, fun id hid => .inl ⟨ctx', hin, hid⟩⟩

theorem putContext_keeps (h : s.SoundBut loose looseCaches) (name : String) {ctx : Context}
    (hctx : ∃ c, s.cachePool.get? ctx.cache = some c ∧
      ∀ id, ctx.entry = some id → c.lookup ctx.stream = some id) :
    Keeps loose looseCaches s (s.putContext name ctx).1 := by
  have hsound := h.insertContext name ctx hctx
  rw [putContext]
  cases hold : s.contexts.get? name with
  | none =>
    rw [hold] at hsound
    exact hsound.keeps_of_eq rfl rfl rfl
  | some old =>
    simp only [hold, Option.toList_some, List.flatMap_cons, List.flatMap_nil, List.append_nil,
      List.map_cons, List.map_nil, List.cons_append, List.nil_append] at hsound
    have hput : Keeps (old.entry.toList ++ loose) (old.cache :: looseCaches) s
        { s with contexts := s.contexts.insert name ctx } := hsound.keeps_of_eq rfl rfl rfl
    exact hput.trans (collectContext_keeps hsound)

/-- A cache that is stored in place of another one makes that one loose. -/
theorem SoundBut.insertCache (h : s.SoundBut loose looseCaches) (name : String) {device : Nat}
    (hd : device < s.world.devices.length) (layout : List (List Stream)) :
    SoundBut loose ((s.caches.get? name).toList ++ looseCaches)
      { s with
        cachePool := (s.cachePool.add (.new device layout)).1
        caches := s.caches.insert name s.cachePool.added } := by
  have hadd := h.addCache hd layout
  refine hadd.withNames (h.caches_keyed.insert name _) (fun n hn => ?_) (fun n hn => ?_)
    (fun n hn => ?_)
  · rcases List.mem_cons.mp hn with rfl | hn
    · exact ⟨_, Pool.get?_add_self _ _⟩
    · exact hadd.name n (Table.mem_vals_of_mem_erase hn)
  · rcases List.mem_append.mp ((h.caches_keyed.vals_perm name).mem_iff.mp hn) with hn | hn
    · exact .inr (List.mem_append_left _ hn)
    · exact .inl (List.mem_cons_of_mem _ hn)
  · rcases List.mem_cons.mp hn with rfl | hn
    · exact .inl List.mem_cons_self
    · exact .inr (List.mem_append_right _ hn)

theorem putCache_keeps (h : s.SoundBut loose looseCaches) (name : String) {device : Nat}
    (hd : device < s.world.devices.length) (layout : List (List Stream)) :
    Keeps loose looseCaches s (s.putCache name (.new device layout)).1 := by
  have hsound := h.insertCache name hd layout
  rw [putCache]
  cases hold : s.caches.get? name with
  | none =>
    rw [hold] at hsound
    exact hsound.keeps_of_eq rfl rfl rfl
  | some old =>
    rw [hold] at hsound
    have hput : Keeps loose (old :: looseCaches) s
        { s with
          cachePool := (s.cachePool.add (.new device layout)).1
          caches := s.caches.insert name s.cachePool.added } := hsound.keeps_of_eq rfl rfl rfl
    exact hput.trans (collectCache_keeps hsound)

end Session

end SparseDevice
