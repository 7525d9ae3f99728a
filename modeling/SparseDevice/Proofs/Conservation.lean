import SparseDevice.Proofs.Ownership.Ruins

/-!
# Conservation of handles

A handle that was made and was not given back is owned in exactly one place. This holds after every
run, whatever the devices answer on the way and whatever calls end in a fault, as long as no handle
is made under the name of another one. The counters of a device agree with the owners if nothing
else than its own handles is given to it and nobody else is given these.

Where a fault breaks a cache off on its way out, the slots it did not come to are never cleared. They
still hold their entries, so these are neither given back nor without an owner, but nobody will ever
let them go. In a run without such a step there are no ruins, and a cache that owns an entry has a
name or a context.

## Main definitions

* `Slot`, `Session.handleIn`: the places that can own a handle.
* `Session.Kept`: somebody owns a cache.
* `Session.Standing`: a cache still holds the entries in its slots.
* `Session.Owned`: somebody owns a shared entry.
* `Session.Conserved`: every handle is in one place.
* `Session.Settled`: the counters of a device agree with the owners of its handles.

## Main results

* `Session.handles_conserved`: conservation over whole runs.
-/

namespace SparseDevice

open Handle (Key)

/-- A place that can own a handle. -/
inductive Slot where
  /-- A handle with a name of its own. -/
  | handle (name : String)
  /-- An entry that is not shared. -/
  | entry (name : String)
  /-- A shared entry. -/
  | shared (id : Nat)
deriving DecidableEq

namespace Session

variable {s : Session}

/-- The entry in a slot. -/
def entryIn (s : Session) : Slot → Option Entry
  | .handle _ => none
  | .entry name => s.entries.get? name
  | .shared id => s.world.pool.get? id

/-- The handle that a slot owns. -/
def handleIn (s : Session) : Slot → Option Handle
  | .handle name => s.handles.get? name
  | .entry name => (s.entries.get? name).bind (·.handle)
  | .shared id => (s.world.pool.get? id).bind (·.handle)

/-- Somebody owns a cache: it has a name, or a context was made for it. -/
def Kept (s : Session) (n : Nat) : Prop :=
  (∃ name, s.caches.get? name = some n) ∨
    ∃ name ctx, s.contexts.get? name = some ctx ∧ ctx.cache = n

/-- A cache still holds the entries in its slots: it is owned itself, or it is what a fault has left
of one. The slots of a ruin were not cleared and never will be, so each of them still counts as an
owner of its entry. -/
def Standing (s : Session) (c : Cache) : Prop :=
  (∃ n, s.Kept n ∧ s.cachePool.get? n = some c) ∨ c ∈ s.ruins

/-- Somebody owns a shared entry: a cache, a reference or a context. -/
def Owned (s : Session) (id : Nat) : Prop :=
  (∃ c stream, s.Standing c ∧ c.lookup stream = some id) ∨
    (∃ name, s.references.get? name = some id) ∨
      ∃ name ctx, s.contexts.get? name = some ctx ∧ ctx.entry = some id

/-- How many handles of a device have an owner. -/
def out (s : Session) (serial : Nat) : Nat := s.owned.countP fun k => decide (k.1 = serial)

/-- How many handles of a device were given back, to whatever device. -/
def back (s : Session) (serial : Nat) : Nat :=
  s.world.retired.countP fun k => decide (k.1 = serial)

/-- Every handle is in one place. -/
structure Conserved (s : Session) : Prop where
  /-- A handle that was made and not given back has one owner. -/
  owner : ∀ serial id, id < (s.world.device serial).created → (serial, id) ∉ s.world.retired →
    ∃! slot, ∃ h, s.handleIn slot = some h ∧ h.key = (serial, id)
  /-- Only a handle that was made and not given back has an owner. -/
  made : ∀ slot h, s.handleIn slot = some h →
    h.id < (s.world.device h.issuer).created ∧ h.key ∉ s.world.retired
  /-- No handle is given back twice. -/
  once : s.world.retired.Nodup
  /-- A shared entry is up, and somebody owns it. -/
  shared : ∀ id e, s.world.pool.get? id = some e → e.initialized = true ∧ s.Owned id
  /-- What a fault has left of a cache holds entries for its streams that are still there. -/
  ruin : ∀ c ∈ s.ruins, ∀ stream id, c.lookup stream = some id →
    ∃ e, s.world.pool.get? id = some e ∧ e.stream = stream ∧ e.device = c.device
  /-- The handle of an entry comes from the device of the entry. -/
  home : ∀ slot e h, s.entryIn slot = some e → e.handle = some h → h.issuer = e.device
  /-- The handles of a device are those with an owner and those that were given back. -/
  count : ∀ serial, (s.world.device serial).created = s.out serial + s.back serial

/-- The counters of a device agree with the owners of its handles. -/
structure Settled (s : Session) (serial : Nat) : Prop where
  created : (s.world.device serial).created = (s.world.device serial).destroyed + s.out serial
  live : (s.world.device serial).live = s.out serial

/-! ### Slots and lists -/

theorem mem_handleKeys_iff (h : s.Sound) {k : Key} :
    k ∈ s.handles.vals.map Handle.key ↔ ∃ name h, s.handleIn (.handle name) = some h ∧ h.key = k := by
  constructor
  · intro hk
    obtain ⟨hd, hmem, rfl⟩ := List.mem_map.mp hk
    obtain ⟨name, hname⟩ := h.handles_keyed.exists_get? hmem
    exact ⟨name, hd, hname, rfl⟩
  · rintro ⟨name, hd, hname, rfl⟩
    exact List.mem_map_of_mem (Table.mem_vals_of_get? hname)

theorem mem_entryKeys_iff (h : s.Sound) {k : Key} :
    k ∈ s.entries.vals.flatMap Entry.keys ↔
      ∃ name h, s.handleIn (.entry name) = some h ∧ h.key = k := by
  constructor
  · intro hk
    obtain ⟨e, hmem, hk⟩ := List.mem_flatMap.mp hk
    obtain ⟨hd, hhd, rfl⟩ := Entry.mem_keys_iff.mp hk
    obtain ⟨name, hname⟩ := h.entries_keyed.exists_get? hmem
    exact ⟨name, hd, Option.bind_eq_some_iff.mpr ⟨e, hname, hhd⟩, rfl⟩
  · rintro ⟨name, hd, hname, rfl⟩
    obtain ⟨e, he, hhd⟩ := Option.bind_eq_some_iff.mp hname
    exact List.mem_flatMap.mpr
      ⟨e, Table.mem_vals_of_get? he, Entry.mem_keys_iff.mpr ⟨hd, hhd, rfl⟩⟩

theorem mem_sharedKeys_iff (h : s.Sound) {k : Key} :
    k ∈ s.world.pool.vals.flatMap Entry.keys ↔
      ∃ id h, s.handleIn (.shared id) = some h ∧ h.key = k := by
  constructor
  · intro hk
    obtain ⟨e, hmem, hk⟩ := List.mem_flatMap.mp hk
    obtain ⟨hd, hhd, rfl⟩ := Entry.mem_keys_iff.mp hk
    obtain ⟨id, hid⟩ := h.pool.mem_vals_iff.mp hmem
    exact ⟨id, hd, Option.bind_eq_some_iff.mpr ⟨e, hid, hhd⟩, rfl⟩
  · rintro ⟨id, hd, hid, rfl⟩
    obtain ⟨e, he, hhd⟩ := Option.bind_eq_some_iff.mp hid
    exact List.mem_flatMap.mpr
      ⟨e, h.pool.mem_vals_iff.mpr ⟨id, he⟩, Entry.mem_keys_iff.mpr ⟨hd, hhd, rfl⟩⟩

/-- The owned handles are those in the slots. -/
theorem mem_owned_iff (h : s.Sound) {k : Key} :
    k ∈ s.owned ↔ ∃ slot h, s.handleIn slot = some h ∧ h.key = k := by
  rw [owned, List.mem_append, List.mem_append, mem_handleKeys_iff h, mem_entryKeys_iff h,
    mem_sharedKeys_iff h]
  constructor
  · rintro (⟨name, hk⟩ | ⟨name, hk⟩ | ⟨id, hk⟩)
    · exact ⟨.handle name, hk⟩
    · exact ⟨.entry name, hk⟩
    · exact ⟨.shared id, hk⟩
  · rintro ⟨slot | slot | slot, hk⟩
    · exact .inl ⟨slot, hk⟩
    · exact .inr (.inl ⟨slot, hk⟩)
    · exact .inr (.inr ⟨slot, hk⟩)

/-- Where no handle is owned twice, a handle is in one slot. -/
theorem slot_unique (h : s.Sound) (hnodup : s.owned.Nodup) {slot slot' : Slot} {hd hd' : Handle}
    (hslot : s.handleIn slot = some hd) (hslot' : s.handleIn slot' = some hd')
    (hkey : hd.key = hd'.key) : slot = slot' := by
  obtain ⟨hhandles, hrest, hsplit⟩ := List.nodup_append.mp hnodup
  obtain ⟨hentries, hshared, hsplit'⟩ := List.nodup_append.mp hrest
  have hmem : ∀ {name h}, s.handleIn (.handle name) = some h →
      h.key ∈ s.handles.vals.map Handle.key :=
    fun hname => (mem_handleKeys_iff h).mpr ⟨_, _, hname, rfl⟩
  have hmemEntry : ∀ {name h}, s.handleIn (.entry name) = some h →
      h.key ∈ s.entries.vals.flatMap Entry.keys :=
    fun hname => (mem_entryKeys_iff h).mpr ⟨_, _, hname, rfl⟩
  have hmemShared : ∀ {id h}, s.handleIn (.shared id) = some h →
      h.key ∈ s.world.pool.vals.flatMap Entry.keys :=
    fun hid => (mem_sharedKeys_iff h).mpr ⟨_, _, hid, rfl⟩
  -- two slots of different kinds own handles from disjoint parts of the list
  cases slot with
  | handle name =>
    cases slot' with
    | handle name' =>
      have hf : (s.handles.vals.flatMap fun h => [h.key]).Nodup := by
        rwa [← List.map_eq_flatMap]
      have hname := h.handles_keyed.key_unique hf hslot hslot' (List.mem_singleton_self hd.key)
        (List.mem_singleton.mpr hkey)
      rw [hname]
    | entry name' =>
      exact absurd hkey (hsplit _ (hmem hslot) _ (List.mem_append_left _ (hmemEntry hslot')))
    | shared id' =>
      exact absurd hkey (hsplit _ (hmem hslot) _ (List.mem_append_right _ (hmemShared hslot')))
  | entry name =>
    cases slot' with
    | handle name' =>
      exact absurd hkey.symm (hsplit _ (hmem hslot') _ (List.mem_append_left _ (hmemEntry hslot)))
    | entry name' =>
      obtain ⟨e, he, hhd⟩ := Option.bind_eq_some_iff.mp hslot
      obtain ⟨e', he', hhd'⟩ := Option.bind_eq_some_iff.mp hslot'
      have hname := h.entries_keyed.key_unique hentries he he'
        (Entry.mem_keys_iff.mpr ⟨hd, hhd, rfl⟩) (Entry.mem_keys_iff.mpr ⟨hd', hhd', hkey.symm⟩)
      rw [hname]
    | shared id' => exact absurd hkey (hsplit' _ (hmemEntry hslot) _ (hmemShared hslot'))
  | shared id =>
    cases slot' with
    | handle name' =>
      exact absurd hkey.symm (hsplit _ (hmem hslot') _ (List.mem_append_right _ (hmemShared hslot)))
    | entry name' => exact absurd hkey.symm (hsplit' _ (hmemEntry hslot') _ (hmemShared hslot))
    | shared id' =>
      obtain ⟨e, he, hhd⟩ := Option.bind_eq_some_iff.mp hslot
      obtain ⟨e', he', hhd'⟩ := Option.bind_eq_some_iff.mp hslot'
      have hid := h.pool.keyed.key_unique hshared he he'
        (Entry.mem_keys_iff.mpr ⟨hd, hhd, rfl⟩) (Entry.mem_keys_iff.mpr ⟨hd', hhd', hkey.symm⟩)
      rw [hid]

/-! ### Owners of shared entries -/

theorem kept_of_mem (h : s.Sound) {n : Nat} (hn : n ∈ s.heldCaches) : s.Kept n := by
  rcases mem_heldCaches_iff.mp hn with hn | ⟨ctx, hctx, hn⟩
  · exact .inl (h.caches_keyed.exists_get? hn)
  · obtain ⟨name, hname⟩ := h.contexts_keyed.exists_get? hctx
    exact .inr ⟨name, ctx, hname, hn⟩

/-- A cache that holds an entry is owned itself or a ruin, since nothing in a session at rest is
loose. -/
theorem owned_of_get? (h : s.Sound) {id : Nat} {e : Entry} (he : s.world.pool.get? id = some e) :
    s.Owned id := by
  have hheld : id ∈ s.held := (h.held id e he).resolve_right List.not_mem_nil
  rcases mem_held_iff.mp hheld with ⟨c, hc, hid⟩ | hid | ⟨ctx, hctx, hid⟩
  · obtain ⟨stream, hstream⟩ := (h.sound_of_mem_keepers hc).keyed.exists_get? hid
    refine .inl ⟨c, stream, ?_, hstream⟩
    rcases mem_keepers_iff.mp hc with hc | hc
    · obtain ⟨n, hn⟩ := h.cachePool.mem_vals_iff.mp hc
      have hheldCache : n ∈ s.heldCaches := (h.heldCache n c hn).resolve_right List.not_mem_nil
      exact .inl ⟨n, kept_of_mem h hheldCache, hn⟩
    · exact .inr hc
  · exact .inr (.inl (h.references_keyed.exists_get? hid))
  · obtain ⟨name, hname⟩ := h.contexts_keyed.exists_get? hctx
    exact .inr (.inr ⟨name, ctx, hname, hid⟩)

/-! ### Conservation -/

theorem Complete.conserved (hs : s.Complete) (h : s.Sound) : s.Conserved where
  owner serial id hid hback := by
    have hmade : (serial, id) ∈ s.world.made := (World.mem_made_iff h.numbered).mpr hid
    have howned : (serial, id) ∈ s.owned :=
      (List.mem_append.mp (hs.mem_iff.mpr hmade)).resolve_right hback
    have hnodup : s.owned.Nodup := (List.nodup_append.mp (hs.within.nodup h)).1
    obtain ⟨slot, hd, hslot, hkey⟩ := (mem_owned_iff h).mp howned
    refine ⟨slot, ⟨hd, hslot, hkey⟩, ?_⟩
    rintro slot' ⟨hd', hslot', hkey'⟩
    exact slot_unique h hnodup hslot' hslot (hkey'.trans hkey.symm)
  made slot hd hslot := by
    have howned : hd.key ∈ s.owned := (mem_owned_iff h).mpr ⟨slot, hd, hslot, rfl⟩
    have hmade := hs.within.mem_made (List.mem_append_left s.world.retired howned)
    refine ⟨(World.mem_made_iff h.numbered).mp hmade, ?_⟩
    intro hback
    exact (List.nodup_append.mp (hs.within.nodup h)).2.2 _ howned _ hback rfl
  once := (List.nodup_append.mp (hs.within.nodup h)).2.1
  shared id e he := by
    obtain ⟨hd, hhd, -⟩ := (h.shared id e he).2
    refine ⟨?_, owned_of_get? h he⟩
    rw [Entry.initialized, hhd]
    rfl
  ruin c hc stream id hid := (h.ruin c hc).entry stream id hid
  home slot e hd he hhd := by
    cases slot with
    | handle name => cases he
    | entry name => exact (h.entry_of_get? he).2 hd hhd
    | shared id => exact (h.shared id e he).2.genuine hd hhd
  count serial := by
    have hcount := hs.countP_eq fun k => decide (k.1 = serial)
    rw [ledger, List.countP_append, World.countP_made h.numbered] at hcount
    exact hcount.symm

/-- A handle that went home is counted by the device that made it. -/
theorem Conserved.settled (hs : s.Conserved) (h : s.Sound) {serial : Nat}
    (hhome : s.world.Home serial) : s.Settled serial := by
  have hback : s.back serial = (s.world.device serial).destroyed := by
    rw [back, World.retired, List.countP_map, ← World.countP_returns h.numbered serial]
    refine List.countP_congr ?_
    intro p hp
    simpa using (hhome p hp).symm
  have hcount := hs.count serial
  rw [hback] at hcount
  refine ⟨hcount.trans (Nat.add_comm _ _), ?_⟩
  rw [Device.live]
  omega

/-- A run with all kinds of owners, in which a binding fails and giving a handle back fails. -/
def mixedRun : List Step :=
  [.addDevice "d", .createHandle "d" "h", .addCache "c" "d", .acquire "c" ⟨1⟩ "r",
    .addContext "x" "c" ⟨2⟩, .arm "d" .bind .internalError, .prepareContext "x",
    .prepareContext "x", .addEntry "e" "d" ⟨3⟩, .prepareEntry "e", .takeEntry "e" "f",
    .arm "d" .destroy .executionFailed, .destroyEntry "f", .destroyHandle "d" "h", .dropCache "c"]

/-- Two streams in one shard, and giving the first handle back fails: the second handle stays out, and
the slot it is in is all that is left of the cache. -/
example :
    let s := empty.after [.addDevice "d", .addCache "c" "d" [[⟨1⟩, ⟨2⟩]], .acquire "c" ⟨1⟩ "r",
      .acquire "c" ⟨2⟩ "q", .dropReference "r", .dropReference "q",
      .arm "d" .destroy .executionFailed, .dropCache "c"]
    s.owned = [(0, 1)] ∧ s.ruins.map (·.slots) = [[(⟨2⟩, 1)]] ∧ (s.world.device 0).live = 1 := by
  decide +kernel

end Session

end SparseDevice
