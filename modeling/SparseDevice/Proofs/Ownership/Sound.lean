import SparseDevice.Proofs.Ownership.Entry
import SparseDevice.Session.State

/-!
# Sound sessions

The tables of a session point at each other: a cache at its shared entries, a reference at one of
them, a context at its cache and at the very entry that the cache keeps for its stream. `SoundBut`
says that every pointer leads somewhere and that what it leads to is what it should be.

## Loose ends

Letting go of something takes two moves: a name goes, and then whoever went with it is looked after.
In between there may be a shared entry or a cache that nobody holds. So the invariant carries two
lists of numbers that are allowed to be loose. An operation that drops a name adds to the lists, and
the one that collects takes from them; a session at rest has nothing loose and is `Sound`.

## One part at a time

An operation replaces one part of a session: the world, a table of names, a cache. For each part
there is a frame lemma that says what the new part has to bring along, and the rest of the invariant
is carried over. What happens to the handles in the meantime is a matter of its own and is left to
the books of a session.

## Main definitions

* `Cache.Sound`: a cache keeps entries of its device, each under its stream.
* `Session.SoundBut`, `Session.Sound`: the invariant, with and without loose ends.

## Main results

* `Session.SoundBut.withWorld` and its neighbours: the frame lemmas.
* `Session.SoundBut.share`, `Session.SoundBut.unshare`, `Session.SoundBut.addCache`,
  `Session.SoundBut.eraseCache`, `Session.SoundBut.leave`: shared entries and caches come and go, and
  a cache falls into ruins.
-/

namespace SparseDevice

open Handle (Key)

/-- The entry that a cache keeps for a stream is an entry of that stream and of its device. -/
structure Cache.Sound (c : Cache) (w : World) : Prop where
  device_lt : c.device < w.devices.length
  keyed : c.slots.Keyed
  entry : ∀ stream id, c.lookup stream = some id →
    ∃ e, w.pool.get? id = some e ∧ e.stream = stream ∧ e.device = c.device

theorem Cache.sound_new {w : World} {device : Nat} (h : device < w.devices.length)
    (layout : List (List Stream)) : (Cache.new device layout).Sound w :=
  ⟨h, Table.keyed_nil, fun _ _ h => nomatch h⟩

/-- A cache stays sound as long as the entries in its slots stay. -/
theorem Cache.Sound.mono {c : Cache} {w w' : World} (h : c.Sound w)
    (hlen : w.devices.length ≤ w'.devices.length)
    (hkeep : ∀ id ∈ c.slots.vals, ∀ e, w.pool.get? id = some e → w'.pool.get? id = some e) :
    c.Sound w' := by
  refine ⟨Nat.lt_of_lt_of_le h.device_lt hlen, h.keyed, ?_⟩
  intro stream id hid
  obtain ⟨e, he, hrest⟩ := h.entry stream id hid
  exact ⟨e, hkeep id (Table.mem_vals_of_get? hid) e he, hrest⟩

theorem Cache.Sound.congr {c : Cache} {w w' : World} (h : c.Sound w) (hpool : w'.pool = w.pool)
    (hlen : w.devices.length ≤ w'.devices.length) : c.Sound w' := by
  refine h.mono hlen ?_
  rw [hpool]
  exact fun _ _ _ he => he

/-- What is in a slot of a sound cache is there. -/
theorem Cache.Sound.exists_get? {c : Cache} {w : World} (h : c.Sound w) {id : Nat}
    (hid : id ∈ c.slots.vals) : ∃ e, w.pool.get? id = some e := by
  obtain ⟨stream, hstream⟩ := h.keyed.exists_get? hid
  obtain ⟨e, he, -⟩ := h.entry stream id hstream
  exact ⟨e, he⟩

/-- Some of the slots of a sound cache are sound too. -/
theorem Cache.Sound.part {c : Cache} {w : World} {t t' : Table Stream Nat}
    (h : Cache.Sound { c with slots := t } w) (hk : t'.Keyed) (hsub : t' ⊆ t) :
    Cache.Sound { c with slots := t' } w where
  device_lt := h.device_lt
  keyed := hk
  entry stream id hid := h.entry stream id (h.keyed.get?_of_mem (hsub (Table.mem_of_get? hid)))

/-- Different slots of a sound cache keep different entries. -/
theorem Cache.Sound.not_mem_tail {c : Cache} {w : World} {slot : Stream × Nat}
    {rest : Table Stream Nat} (h : Cache.Sound { c with slots := slot :: rest } w) :
    slot.2 ∉ rest.vals := by
  intro hid
  obtain ⟨hnew, hrest⟩ := List.nodup_cons.mp h.keyed
  obtain ⟨stream, hstream⟩ := Table.Keyed.exists_get? hrest hid
  have hmem := Table.mem_of_get? hstream
  obtain ⟨e, he, hfirst, -⟩ := h.entry slot.1 slot.2 (h.keyed.get?_of_mem List.mem_cons_self)
  obtain ⟨e', he', hsecond, -⟩ :=
    h.entry stream slot.2 (h.keyed.get?_of_mem (List.mem_cons_of_mem _ hmem))
  cases he.symm.trans he'
  rw [hsecond] at hfirst
  exact hnew (List.mem_map.mpr ⟨_, hmem, hfirst⟩)

theorem Cache.distribute_perm {slots : Table Stream Nat} (h : slots.Keyed)
    (layout : List (List Stream)) : (distribute layout slots).flatten.Perm slots := by
  induction layout generalizing slots with
  | nil =>
    rw [distribute, ← List.flatMap_def, List.flatMap_singleton']
  | cons shard layout ih =>
    have hpick := h.pick_perm shard
    rw [distribute, List.flatten_cons]
    exact ((ih (h.congr hpick).right).append_left _).trans hpick

/-- Each slot of a cache is in one shard. -/
theorem Cache.shards_perm {c : Cache} (h : c.slots.Keyed) : c.shards.flatten.Perm c.slots :=
  distribute_perm h c.layout

/-- The cache with one more entry is sound in the world with that entry. -/
theorem Cache.Sound.insert {c : Cache} {w : World} {e : Entry} {stream : Stream} (hc : c.Sound w)
    (hpool : w.pool.Sound) (hstream : e.stream = stream) (hdevice : e.device = c.device) :
    Cache.Sound { c with slots := c.slots.insert stream w.pool.added } (w.share e).1 where
  device_lt := hc.device_lt
  keyed := hc.keyed.insert _ _
  entry stream' id hid := by
    change (c.slots.insert stream w.pool.added).get? stream' = some id at hid
    rw [Table.get?_insert] at hid
    split at hid
    · next hsame =>
      cases hid
      exact ⟨e, Pool.get?_add_self _ _, hstream.trans hsame.symm, hdevice⟩
    · obtain ⟨e', he', hrest⟩ := hc.entry stream' id hid
      exact ⟨e', hpool.get?_add_of_some e he', hrest⟩

namespace Session

variable {s s' s'' : Session} {loose loose' looseCaches looseCaches' : List Nat}

/-! ### The invariant -/

/-- Every pointer of a session leads to what it should. Only the shared entries in `loose` and the
caches in `looseCaches` may be without an owner. -/
structure SoundBut (loose looseCaches : List Nat) (s : Session) : Prop where
  numbered : s.world.Numbered
  pool : s.world.pool.Sound
  cachePool : s.cachePool.Sound
  handles_keyed : s.handles.Keyed
  entries_keyed : s.entries.Keyed
  caches_keyed : s.caches.Keyed
  references_keyed : s.references.Keyed
  contexts_keyed : s.contexts.Keyed
  device_lt : ∀ serial ∈ s.devices.vals, serial < s.world.devices.length
  entry : ∀ e ∈ s.entries.vals, e.device < s.world.devices.length ∧ e.Genuine
  shared : ∀ id e, s.world.pool.get? id = some e → e.device < s.world.devices.length ∧ e.Ready
  cache : ∀ n c, s.cachePool.get? n = some c → c.Sound s.world
  ruin : ∀ c ∈ s.ruins, c.Sound s.world
  /-- A shared entry is kept by one cache at most. -/
  keeper : ∀ n c n' c' stream stream' id, s.cachePool.get? n = some c →
    s.cachePool.get? n' = some c' → c.lookup stream = some id → c'.lookup stream' = some id → n = n'
  name : ∀ n ∈ s.caches.vals, ∃ c, s.cachePool.get? n = some c
  reference : ∀ id ∈ s.references.vals, ∃ e, s.world.pool.get? id = some e
  context : ∀ ctx ∈ s.contexts.vals, ∃ c, s.cachePool.get? ctx.cache = some c ∧
    ∀ id, ctx.entry = some id → c.lookup ctx.stream = some id
  held : ∀ id e, s.world.pool.get? id = some e → id ∈ s.held ∨ id ∈ loose
  heldCache : ∀ n c, s.cachePool.get? n = some c → n ∈ s.heldCaches ∨ n ∈ looseCaches

/-- A session at rest: nothing is without an owner. -/
abbrev Sound (s : Session) : Prop := s.SoundBut [] []

theorem sound_empty : empty.Sound where
  numbered _ := rfl
  pool := Pool.sound_empty
  cachePool := Pool.sound_empty
  handles_keyed := Table.keyed_nil
  entries_keyed := Table.keyed_nil
  caches_keyed := Table.keyed_nil
  references_keyed := Table.keyed_nil
  contexts_keyed := Table.keyed_nil
  device_lt := nofun
  entry := nofun
  shared := nofun
  cache := nofun
  ruin := nofun
  keeper := nofun
  name := nofun
  reference := nofun
  context := nofun
  held := nofun
  heldCache := nofun

theorem mem_keepers_iff {c : Cache} :
    c ∈ s.keepers ↔ c ∈ s.cachePool.vals ∨ c ∈ s.ruins := List.mem_append

theorem mem_held_iff {id : Nat} :
    id ∈ s.held ↔ (∃ c ∈ s.keepers, id ∈ c.slots.vals) ∨ id ∈ s.references.vals ∨
      ∃ ctx ∈ s.contexts.vals, ctx.entry = some id := by
  simp [held]

theorem mem_heldCaches_iff {n : Nat} :
    n ∈ s.heldCaches ↔ n ∈ s.caches.vals ∨ ∃ ctx ∈ s.contexts.vals, ctx.cache = n := by
  simp [heldCaches]

namespace SoundBut

variable (h : s.SoundBut loose looseCaches)

include h

theorem mono (hl : loose ⊆ loose') (hc : looseCaches ⊆ looseCaches') :
    s.SoundBut loose' looseCaches' :=
  { h with
    held := fun id e he => (h.held id e he).imp_right fun hid => hl hid
    heldCache := fun n c hn => (h.heldCache n c hn).imp_right fun hn => hc hn }

/-- What a cache keeps for a stream is up. -/
theorem slot {n : Nat} {c : Cache} {stream : Stream} {id : Nat} (hn : s.cachePool.get? n = some c)
    (hid : c.lookup stream = some id) :
    ∃ e, s.world.pool.get? id = some e ∧ e.Ready ∧ e.stream = stream ∧ e.device = c.device := by
  obtain ⟨e, he, hstream, hdevice⟩ := (h.cache n c hn).entry stream id hid
  exact ⟨e, he, (h.shared id e he).2, hstream, hdevice⟩

theorem slot_of_mem {n : Nat} {c : Cache} {id : Nat} (hn : s.cachePool.get? n = some c)
    (hid : id ∈ c.slots.vals) : ∃ stream, c.lookup stream = some id :=
  (h.cache n c hn).keyed.exists_get? hid

theorem lt_of_device {device : String} {serial : Nat} (hs : s.devices.get? device = some serial) :
    serial < s.world.devices.length :=
  h.device_lt serial (Table.mem_vals_of_get? hs)

theorem entry_of_get? {name : String} {e : Entry} (he : s.entries.get? name = some e) :
    e.device < s.world.devices.length ∧ e.Genuine :=
  h.entry e (Table.mem_vals_of_get? he)

theorem sound_of_mem_keepers {c : Cache} (hc : c ∈ s.keepers) : c.Sound s.world := by
  rcases mem_keepers_iff.mp hc with hc | hc
  · obtain ⟨n, hn⟩ := h.cachePool.mem_vals_iff.mp hc
    exact h.cache n c hn
  · exact h.ruin c hc

/-- Whatever is held exists. -/
theorem exists_of_held {id : Nat} (hid : id ∈ s.held) : ∃ e, s.world.pool.get? id = some e := by
  rcases mem_held_iff.mp hid with ⟨c, hc, hid⟩ | hid | ⟨ctx, hctx, hid⟩
  · exact (h.sound_of_mem_keepers hc).exists_get? hid
  · exact h.reference id hid
  · obtain ⟨c, hn, hentry⟩ := h.context ctx hctx
    obtain ⟨e, he, -⟩ := h.slot hn (hentry id hid)
    exact ⟨e, he⟩

end SoundBut

/-! ### One part at a time

Each lemma replaces one part of a session and asks for what the invariant says about that part. -/

namespace SoundBut

variable (h : s.SoundBut loose looseCaches)

include h

theorem withWorld {w : World} {made : List Key} {back : List (Nat × Key)}
    (ht : s.world.Turnover w made back) : SoundBut loose looseCaches { s with world := w } := by
  have hget : ∀ id, w.pool.get? id = s.world.pool.get? id := fun id => by rw [ht.pool]
  exact { h with
    numbered := ht.numbered h.numbered
    pool := by
      show w.pool.Sound
      rw [ht.pool]
      exact h.pool
    device_lt := fun serial hs => ht.lt (h.device_lt serial hs)
    entry := fun e he => (h.entry e he).imp_left ht.lt
    shared := fun id e he => (h.shared id e ((hget id).symm.trans he)).imp_left ht.lt
    cache := fun n c hc => (h.cache n c hc).congr ht.pool ht.length_le
    ruin := fun c hc => (h.ruin c hc).congr ht.pool ht.length_le
    reference := fun id hid => (h.reference id hid).imp fun e he => (hget id).trans he
    held := fun id e he => h.held id e ((hget id).symm.trans he) }

theorem withDevices {t : Table String Nat} (ht : ∀ serial ∈ t.vals, serial < s.world.devices.length) :
    SoundBut loose looseCaches { s with devices := t } :=
  { h with device_lt := ht }

theorem withHandles {t : Table String Handle} (hk : t.Keyed) :
    SoundBut loose looseCaches { s with handles := t } :=
  { h with handles_keyed := hk }

theorem withEntries {t : Table String Entry} (hk : t.Keyed)
    (ht : ∀ e ∈ t.vals, e.device < s.world.devices.length ∧ e.Genuine) :
    SoundBut loose looseCaches { s with entries := t } :=
  { h with entries_keyed := hk, entry := ht }

theorem withReferences {t : Table String Nat} (hk : t.Keyed)
    (ht : ∀ id ∈ t.vals, ∃ e, s.world.pool.get? id = some e)
    (hlost : ∀ id ∈ s.references.vals, id ∈ t.vals ∨ id ∈ loose') (hl : loose ⊆ loose') :
    SoundBut loose' looseCaches { s with references := t } := by
  refine { h with references_keyed := hk, reference := ht, held := fun id e he => ?_ }
  rcases h.held id e he with hid | hid
  · rcases mem_held_iff.mp hid with hc | hr | hctx
    · exact .inl (mem_held_iff.mpr (.inl hc))
    · exact (hlost id hr).imp_left fun hid => mem_held_iff.mpr (.inr (.inl hid))
    · exact .inl (mem_held_iff.mpr (.inr (.inr hctx)))
  · exact .inr (hl hid)

theorem withNames {t : Table String Nat} (hk : t.Keyed)
    (ht : ∀ n ∈ t.vals, ∃ c, s.cachePool.get? n = some c)
    (hlost : ∀ n ∈ s.caches.vals, n ∈ t.vals ∨ n ∈ looseCaches')
    (hl : ∀ n ∈ looseCaches, n ∈ t.vals ∨ n ∈ looseCaches') :
    SoundBut loose looseCaches' { s with caches := t } := by
  refine { h with caches_keyed := hk, name := ht, heldCache := fun n c hn => ?_ }
  rcases h.heldCache n c hn with hn | hn
  · rcases mem_heldCaches_iff.mp hn with hn | hctx
    · exact (hlost n hn).imp_left fun hn => mem_heldCaches_iff.mpr (.inl hn)
    · exact .inl (mem_heldCaches_iff.mpr (.inr hctx))
  · exact (hl n hn).imp_left fun hn => mem_heldCaches_iff.mpr (.inl hn)

theorem withContexts {t : Table String Context} (hk : t.Keyed)
    (ht : ∀ ctx ∈ t.vals, ∃ c, s.cachePool.get? ctx.cache = some c ∧
      ∀ id, ctx.entry = some id → c.lookup ctx.stream = some id)
    (hlost : ∀ ctx ∈ s.contexts.vals,
      ((∃ ctx' ∈ t.vals, ctx'.cache = ctx.cache) ∨ ctx.cache ∈ looseCaches') ∧
        ∀ id, ctx.entry = some id → (∃ ctx' ∈ t.vals, ctx'.entry = some id) ∨ id ∈ loose')
    (hl : loose ⊆ loose') (hlc : looseCaches ⊆ looseCaches') :
    SoundBut loose' looseCaches' { s with contexts := t } := by
  refine { h with
    contexts_keyed := hk
    context := ht
    held := fun id e he => ?_
    heldCache := fun n c hn => ?_ }
  · rcases h.held id e he with hid | hid
    · rcases mem_held_iff.mp hid with hc | hr | ⟨ctx, hctx, hid⟩
      · exact .inl (mem_held_iff.mpr (.inl hc))
      · exact .inl (mem_held_iff.mpr (.inr (.inl hr)))
      · exact ((hlost ctx hctx).2 id hid).imp_left fun hid => mem_held_iff.mpr (.inr (.inr hid))
    · exact .inr (hl hid)
  · rcases h.heldCache n c hn with hn | hn
    · rcases mem_heldCaches_iff.mp hn with hn | ⟨ctx, hctx, rfl⟩
      · exact .inl (mem_heldCaches_iff.mpr (.inl hn))
      · exact (hlost ctx hctx).1.imp_left fun hn => mem_heldCaches_iff.mpr (.inr hn)
    · exact .inr (hlc hn)

/-- A new shared entry is loose until somebody holds it. -/
theorem share {e : Entry} (hd : e.device < s.world.devices.length) (he : e.Ready) :
    SoundBut (s.world.pool.added :: loose) looseCaches { s with world := (s.world.share e).1 } := by
  have hkeep : ∀ {id e'}, s.world.pool.get? id = some e' →
      (s.world.pool.add e).1.get? id = some e' := fun hid => h.pool.get?_add_of_some e hid
  refine { h with
    pool := h.pool.add e
    shared := fun id e' he' => ?_
    cache := fun n c hc => (h.cache n c hc).mono (Nat.le_refl _) fun _ _ _ he' => hkeep he'
    ruin := fun c hc => (h.ruin c hc).mono (Nat.le_refl _) fun _ _ _ he' => hkeep he'
    reference := fun id hid => (h.reference id hid).imp fun e' he' => hkeep he'
    held := fun id e' he' => ?_ }
  · rw [World.share, Pool.get?_add] at he'
    split at he'
    · cases he'
      exact ⟨hd, he⟩
    · exact h.shared id e' he'
  · rw [World.share, Pool.get?_add] at he'
    split at he'
    · next hid =>
      rw [hid]
      exact .inr List.mem_cons_self
    · exact (h.held id e' he').imp_right (List.mem_cons_of_mem _)

/-- A shared entry that nobody holds may go. -/
theorem unshare {id : Nat} (hid : id ∉ s.held) :
    SoundBut (loose.filter (· ≠ id)) looseCaches
      { s with world := { s.world with pool := s.world.pool.erase id } } := by
  have hkeep : ∀ {id' e}, id' ∈ s.held → s.world.pool.get? id' = some e →
      (s.world.pool.erase id).get? id' = some e := by
    intro id' e hheld he
    rw [Pool.get?_erase, if_neg (by rintro rfl; exact hid hheld), he]
  have hslots : ∀ {c : Cache}, c ∈ s.keepers → ∀ id' ∈ c.slots.vals, ∀ e,
      s.world.pool.get? id' = some e → (s.world.pool.erase id).get? id' = some e :=
    fun hc id' hid' _ he => hkeep (mem_held_iff.mpr (.inl ⟨_, hc, hid'⟩)) he
  refine { h with
    pool := h.pool.erase id
    shared := fun id' e he => ?_
    cache := fun n c hc => (h.cache n c hc).mono (Nat.le_refl _)
      (hslots (mem_keepers_iff.mpr (.inl (h.cachePool.mem_vals_iff.mpr ⟨n, hc⟩))))
    ruin := fun c hc => (h.ruin c hc).mono (Nat.le_refl _)
      (hslots (mem_keepers_iff.mpr (.inr hc)))
    reference := fun id' hid' => ?_
    held := fun id' e he => ?_ }
  · rw [Pool.get?_erase] at he
    split at he
    · cases he
    · exact h.shared id' e he
  · exact (h.reference id' hid').imp fun e he =>
      hkeep (mem_held_iff.mpr (.inr (.inl hid'))) he
  · rw [Pool.get?_erase] at he
    split at he
    · cases he
    · next hne =>
      exact (h.held id' e he).imp_right fun hl => List.mem_filter.mpr ⟨hl, by simpa using hne⟩

/-- A new cache is loose until it has a name. -/
theorem addCache {device : Nat} (hd : device < s.world.devices.length)
    (layout : List (List Stream)) :
    SoundBut loose (s.cachePool.added :: looseCaches)
      { s with cachePool := (s.cachePool.add (.new device layout)).1 } := by
  have hkeep : ∀ {n c}, s.cachePool.get? n = some c →
      (s.cachePool.add (.new device layout)).1.get? n = some c := fun hn =>
    h.cachePool.get?_add_of_some _ hn
  have hold : ∀ {n c stream id}, (s.cachePool.add (.new device layout)).1.get? n = some c →
      c.lookup stream = some id → s.cachePool.get? n = some c := by
    intro n c stream id hn hid
    rw [Pool.get?_add] at hn
    split at hn
    · cases hn
      cases hid
    · exact hn
  refine { h with
    cachePool := h.cachePool.add _
    cache := fun n c hn => ?_
    keeper := fun n c n' c' stream stream' id hn hn' hid hid' =>
      h.keeper n c n' c' stream stream' id (hold hn hid) (hold hn' hid') hid hid'
    name := fun n hn => (h.name n hn).imp fun c hc => hkeep hc
    context := fun ctx hctx => (h.context ctx hctx).imp fun c hc => hc.imp_left hkeep
    held := fun id e he => (h.held id e he).imp_left fun hid => ?_
    heldCache := fun n c hn => ?_ }
  · rw [Pool.get?_add] at hn
    split at hn
    · cases hn
      exact Cache.sound_new hd layout
    · exact h.cache n c hn
  · refine mem_held_iff.mpr ((mem_held_iff.mp hid).imp_left ?_)
    rintro ⟨c, hc, hid⟩
    refine ⟨c, mem_keepers_iff.mpr ((mem_keepers_iff.mp hc).imp_left ?_), hid⟩
    intro hc
    rw [h.cachePool.vals_add]
    exact List.mem_cons_of_mem _ hc
  · rw [Pool.get?_add] at hn
    split at hn
    · next hsame =>
      rw [hsame]
      exact .inr List.mem_cons_self
    · exact (h.heldCache n c hn).imp_right (List.mem_cons_of_mem _)

/-- A cache that nobody holds may go, and what it kept is loose then. -/
theorem eraseCache {n : Nat} {c : Cache} (hc : s.cachePool.get? n = some c) (hn : n ∉ s.heldCaches) :
    SoundBut (c.slots.vals ++ loose) (looseCaches.filter (· ≠ n))
      { s with cachePool := s.cachePool.erase n } := by
  have hold : ∀ {n' c'}, (s.cachePool.erase n).get? n' = some c' →
      n' ≠ n ∧ s.cachePool.get? n' = some c' := by
    intro n' c' hn'
    rw [Pool.get?_erase] at hn'
    split at hn'
    · cases hn'
    · next hne => exact ⟨hne, hn'⟩
  have hkeep : ∀ {n' c'}, n' ∈ s.heldCaches → s.cachePool.get? n' = some c' →
      (s.cachePool.erase n).get? n' = some c' := by
    intro n' c' hheld hn'
    rw [Pool.get?_erase, if_neg (by rintro rfl; exact hn hheld), hn']
  refine { h with
    cachePool := h.cachePool.erase n
    cache := fun n' c' hn' => h.cache n' c' (hold hn').2
    keeper := fun n₁ c₁ n₂ c₂ stream stream' id h₁ h₂ =>
      h.keeper n₁ c₁ n₂ c₂ stream stream' id (hold h₁).2 (hold h₂).2
    name := fun n' hn' => (h.name n' hn').imp fun c' hc' =>
      hkeep (mem_heldCaches_iff.mpr (.inl hn')) hc'
    context := fun ctx hctx => (h.context ctx hctx).imp fun c' hc' =>
      hc'.imp_left (hkeep (mem_heldCaches_iff.mpr (.inr ⟨ctx, hctx, rfl⟩)))
    held := fun id e he => ?_
    heldCache := fun n' c' hn' => ?_ }
  · rcases h.held id e he with hid | hid
    · rcases mem_held_iff.mp hid with ⟨c', hc', hid⟩ | hrest
      · rcases mem_keepers_iff.mp hc' with hc' | hc'
        · rcases List.mem_cons.mp ((h.cachePool.vals_perm_of_get? hc).mem_iff.mp hc') with
            rfl | hc'
          · exact .inr (List.mem_append_left _ hid)
          · exact .inl (mem_held_iff.mpr (.inl ⟨c', mem_keepers_iff.mpr (.inl hc'), hid⟩))
        · exact .inl (mem_held_iff.mpr (.inl ⟨c', mem_keepers_iff.mpr (.inr hc'), hid⟩))
      · exact .inl (mem_held_iff.mpr (.inr hrest))
    · exact .inr (List.mem_append_right _ hid)
  · obtain ⟨hne, hn'⟩ := hold hn'
    exact (h.heldCache n' c' hn').imp_right fun hl => List.mem_filter.mpr ⟨hl, by simpa using hne⟩

/-- A cache that grows by entries that no cache keeps yet takes none from the others. -/
theorem keeper_set {n : Nat} {c c' : Cache} (hc : s.cachePool.get? n = some c)
    (hnew : ∀ stream id, c'.lookup stream = some id → c.lookup stream = some id ∨
      ∀ n' c'' stream', s.cachePool.get? n' = some c'' → c''.lookup stream' ≠ some id)
    {n₁ n₂ : Nat} {c₁ c₂ : Cache} {stream₁ stream₂ : Stream} {id : Nat}
    (h₁ : (s.cachePool.set n c').get? n₁ = some c₁)
    (h₂ : (s.cachePool.set n c').get? n₂ = some c₂) (hid₁ : c₁.lookup stream₁ = some id)
    (hid₂ : c₂.lookup stream₂ = some id) : n₁ = n₂ := by
  rcases Pool.cases_of_get?_set h₁ with ⟨rfl, rfl⟩ | ⟨-, h₁'⟩ <;>
    rcases Pool.cases_of_get?_set h₂ with ⟨rfl, rfl⟩ | ⟨-, h₂'⟩
  · rfl
  · rcases hnew stream₁ id hid₁ with hold | hfresh
    · exact h.keeper _ c n₂ c₂ stream₁ stream₂ id hc h₂' hold hid₂
    · exact absurd hid₂ (hfresh n₂ c₂ stream₂ h₂')
  · rcases hnew stream₂ id hid₂ with hold | hfresh
    · exact h.keeper n₁ c₁ _ c stream₁ stream₂ id h₁' hc hid₁ hold
    · exact absurd hid₁ (hfresh n₁ c₁ stream₁ h₁')
  · exact h.keeper n₁ c₁ n₂ c₂ stream₁ stream₂ id h₁' h₂' hid₁ hid₂

/-- A cache may grow by entries that no cache keeps yet. -/
theorem setCache {n : Nat} {c c' : Cache} (hc : s.cachePool.get? n = some c)
    (hsound : c'.Sound s.world)
    (hgrow : ∀ stream id, c.lookup stream = some id → c'.lookup stream = some id)
    (hnew : ∀ stream id, c'.lookup stream = some id → c.lookup stream = some id ∨
      ∀ n' c'' stream', s.cachePool.get? n' = some c'' → c''.lookup stream' ≠ some id)
    (hl : ∀ id ∈ loose, id ∈ c'.slots.vals ∨ id ∈ loose') :
    SoundBut loose' looseCaches (s.setCache n c') := by
  have hself : (s.cachePool.set n c').get? n = some c' := Pool.get?_set_self ..
  have hother : ∀ {n' c''}, n' ≠ n → s.cachePool.get? n' = some c'' →
      (s.cachePool.set n c').get? n' = some c'' :=
    fun hne hn' => (Pool.get?_set_of_ne _ c' hne).trans hn'
  have halive : ∀ {n'}, (∃ c'', s.cachePool.get? n' = some c'') →
      ∃ c'', (s.cachePool.set n c').get? n' = some c'' := by
    rintro n' ⟨c'', hn'⟩
    by_cases hsame : n' = n
    · exact ⟨c', hsame ▸ hself⟩
    · exact ⟨c'', hother hsame hn'⟩
  have hset : SoundBut loose' looseCaches { s with cachePool := s.cachePool.set n c' } := { h with
    cachePool := h.cachePool.set hc c'
    cache := fun n' c'' hn' => by
      rcases Pool.cases_of_get?_set hn' with ⟨-, rfl⟩ | ⟨-, hn'⟩
      · exact hsound
      · exact h.cache n' c'' hn'
    keeper := fun _ _ _ _ _ _ _ h₁ h₂ hid₁ hid₂ => h.keeper_set hc hnew h₁ h₂ hid₁ hid₂
    name := fun n' hn' => halive (h.name n' hn')
    context := fun ctx hctx => by
      obtain ⟨c'', hc'', hentry⟩ := h.context ctx hctx
      by_cases hsame : ctx.cache = n
      · rw [hsame, hc] at hc''
        cases hc''
        exact ⟨c', hsame ▸ hself, fun id hid => hgrow _ _ (hentry id hid)⟩
      · exact ⟨c'', hother hsame hc'', hentry⟩
    held := fun id e he => by
      have hin : c' ∈ (s.setCache n c').keepers :=
        mem_keepers_iff.mpr (.inl (Table.mem_vals_of_get? hself))
      rcases h.held id e he with hid | hid
      · rcases mem_held_iff.mp hid with ⟨c'', hc'', hid⟩ | hrest
        · refine .inl (mem_held_iff.mpr (.inl ?_))
          rcases mem_keepers_iff.mp hc'' with hc'' | hc''
          · obtain ⟨n', hn'⟩ := h.cachePool.mem_vals_iff.mp hc''
            obtain ⟨stream, hstream⟩ := h.slot_of_mem hn' hid
            by_cases hsame : n' = n
            · rw [hsame, hc] at hn'
              cases hn'
              exact ⟨c', hin, Table.mem_vals_of_get? (hgrow _ _ hstream)⟩
            · have hin' := Table.mem_vals_of_get? (hother hsame hn')
              exact ⟨c'', mem_keepers_iff.mpr (.inl hin'), hid⟩
          · exact ⟨c'', mem_keepers_iff.mpr (.inr hc''), hid⟩
        · exact .inl (mem_held_iff.mpr (.inr hrest))
      · exact (hl id hid).imp_left fun hid => mem_held_iff.mpr (.inl ⟨c', hin, hid⟩)
    heldCache := fun n' c'' hn' => by
      rcases Pool.cases_of_get?_set hn' with ⟨rfl, -⟩ | ⟨-, hn'⟩
      · exact h.heldCache _ c hc
      · exact h.heldCache n' c'' hn' }
  exact hset

/-- Slots that are left behind still keep what is in them. -/
theorem leave {c : Cache} (hc : c.Sound s.world)
    (hl : ∀ id ∈ loose, id ∈ c.slots.vals ∨ id ∈ loose') :
    SoundBut loose' looseCaches (s.leave c) := by
  rw [Session.leave]
  split
  · next hempty =>
    have hnone : ∀ id, id ∉ c.slots.vals := by simp [List.isEmpty_iff.mp hempty, Table.vals]
    exact h.mono (fun id hid => (hl id hid).resolve_left (hnone id)) (List.Subset.refl _)
  · have hkeepers : ∀ {c'}, c' ∈ s.keepers →
        c' ∈ ({ s with ruins := c :: s.ruins } : Session).keepers := fun hc' =>
      mem_keepers_iff.mpr ((mem_keepers_iff.mp hc').imp_right (List.mem_cons_of_mem c))
    refine { h with
      ruin := fun c' hc' => ?_
      held := fun id e he => ?_ }
    · rcases List.mem_cons.mp hc' with rfl | hc'
      · exact hc
      · exact h.ruin c' hc'
    · rcases h.held id e he with hid | hid
      · refine .inl (mem_held_iff.mpr ((mem_held_iff.mp hid).imp_left ?_))
        rintro ⟨c', hc', hid⟩
        exact ⟨c', hkeepers hc', hid⟩
      · refine (hl id hid).imp_left fun hid => mem_held_iff.mpr (.inl ⟨c, ?_, hid⟩)
        exact mem_keepers_iff.mpr (.inr List.mem_cons_self)

end SoundBut

end Session

end SparseDevice
