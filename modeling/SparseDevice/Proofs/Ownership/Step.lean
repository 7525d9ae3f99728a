import SparseDevice.Proofs.Ownership.Acquire

/-!
# Steps

Every step of a session keeps it sound and balances the books, but for two kinds of step that deal
with plain handles. A handle that is made under the name of another one takes its place, and that
one is forgotten. A handle that is given back by name goes to the device that the step names, which
need not be the one that made it. The lemmas name both.

## Main definitions

* `Session.strays`: the handle that a step gives to a device of its choice.
* `Session.Spares`: a step does not make a handle under a name in use.

## Main results

* `Session.step_outcome`: what a step does to the books.
-/

namespace SparseDevice

open Handle (Key)

/-- The name under which a step makes a handle. -/
def Step.madeHandle? : Step → Option String
  | .createHandle _ name => some name
  | _ => none

/-- Running a routine through a context does nothing, ends in a fault or runs it on the device. -/
theorem Context.execute_fst {ρ : Type} [Routine ρ] (w : World) (ctx : Context) (device : Nat)
    (r : ρ) :
    (ctx.execute w device r).1 = w ∨ (∃ f, (ctx.execute w device r).1 = w.emit (.fault f)) ∨
      ∃ h, (ctx.execute w device r).1 = (w.execute device h r).1 := by
  have hrequire := ctx.require_cases w
  rw [execute]
  rcases hrequire with ⟨h, hx⟩ | ⟨f, hx⟩ <;> rw [hx]
  · simp only
    rcases Routine.check r with (e | _) | _
    · exact .inl rfl
    · exact .inl rfl
    · refine .inr (.inr ⟨h, ?_⟩)
      simp only
      rcases w.execute device h r with ⟨w', t | ⟨status | reply, r'⟩⟩ <;> rfl
  · exact .inr (.inl ⟨_, rfl⟩)

namespace Session

variable {s : Session} {loose looseCaches : List Nat} {name : String} {e : Entry}

/-! ### Entries that are not shared -/

/-- An entry is replaced in its place. -/
theorem SoundBut.keeps_replaceEntry {w : World} {e' : Entry} {m b : List Key}
    (h : s.SoundBut loose looseCaches) (he : s.entries.get? name = some e)
    (ht : s.world.Turnover w m (b.map Key.homeward))
    (hdevice : e'.device < s.world.devices.length) (hgenuine : e'.Genuine)
    (hperm : (b ++ e'.keys).Perm (m ++ e.keys)) :
    Keeps loose looseCaches s { s with world := w, entries := s.entries.insert name e' } := by
  refine h.keeps_withEntries ht (h.entries_keyed.insert name e')
    (h.entry_insert name hdevice hgenuine) ?_
  have hinsert := h.entries_keyed.flatMap_insert Entry.keys name e'
  rw [he] at hinsert
  refine List.perm_iff_count.mpr ?_
  intro k
  have hk := hperm.count_eq k
  have hk' := hinsert.count_eq k
  simp only [Option.toList_some, List.flatMap_cons, List.flatMap_nil, List.append_nil,
    List.count_append] at hk hk' ⊢
  omega

theorem prepareEntry_keeps (h : s.SoundBut loose looseCaches)
    (he : s.entries.get? name = some e) : Keeps loose looseCaches s (s.prepareEntry name e).1 := by
  obtain ⟨hdevice, hgenuine⟩ := h.entry_of_get? he
  rw [prepareEntry, onWorld_eq]
  rcases World.prepare_cases h.numbered hdevice with
    ⟨-, hp⟩ | ⟨hnone, w, id, hp, ht⟩ | ⟨-, w, f, made, hp, ht⟩ <;> rw [hp]
  · exact h.keeps_replaceEntry he (m := []) (b := []) (.refl _) hdevice hgenuine (.refl _)
  · refine h.keeps_replaceEntry he (b := []) ht hdevice (Entry.genuine_up e id _) ?_
    rw [Entry.keys_of_none hnone]
    exact .refl _
  · exact h.keeps_withWorld ht

/-- Binding a handle anew leaves it the same handle. -/
theorem rebindEntry_keeps (h : s.SoundBut loose looseCaches) (he : s.entries.get? name = some e)
    (stream : Stream) : Keeps loose looseCaches s (s.rebindEntry name e stream).1 := by
  obtain ⟨hdevice, hgenuine⟩ := h.entry_of_get? he
  rw [rebindEntry, onWorld_eq, World.require]
  cases hh : e.handle with
  | none => exact h.keeps_idle (World.turnover_emit _ _)
  | some hd =>
    simp only [onWorld_eq]
    rcases World.onDevice_bind_cases hdevice hd stream with ⟨w, hb, ht⟩ | ⟨w, t, hb, ht⟩ <;> rw [hb]
    · refine h.keeps_replaceEntry he (m := []) (b := []) ht hdevice ?_ ?_
      · intro hd' hhd'
        cases hhd'
        exact hgenuine hd hh
      · rw [Entry.keys_of_handle hh]
        exact .refl _
    · exact h.keeps_idle ht

theorem destroyEntry_keeps (h : s.SoundBut loose looseCaches)
    (he : s.entries.get? name = some e) : Keeps loose looseCaches s (s.destroyEntry name e).1 := by
  obtain ⟨hdevice, hgenuine⟩ := h.entry_of_get? he
  refine h.keeps_replaceEntry he (m := []) (b := e.keys)
    (World.turnover_release h.numbered hdevice hgenuine) hdevice (Entry.genuine_emptied e) ?_
  rw [Entry.keys_emptied, List.append_nil]
  exact .refl _

theorem addEntry_keeps (h : s.SoundBut loose looseCaches) {device : Nat}
    (hd : device < s.world.devices.length) (name : String) (stream : Stream) :
    Keeps loose looseCaches s (s.putEntry name (.new device stream)).1 := by
  obtain ⟨w, hput, ht⟩ := h.putEntry_world name (.new device stream)
  rw [hput]
  exact h.keeps_withEntries (m := []) ht (h.entries_keyed.insert name _)
    (h.entry_insert name hd (Entry.genuine_new device stream))
    (h.entries_keyed.flatMap_insert Entry.keys name _)

/-- The handle goes from one name to another, and what was under that name goes home. -/
theorem takeEntry_keeps (h : s.SoundBut loose looseCaches) (he : s.entries.get? name = some e)
    (target : String) : Keeps loose looseCaches s (s.takeEntry name e target).1 := by
  obtain ⟨hdevice, hgenuine⟩ := h.entry_of_get? he
  have hempty : SoundBut loose looseCaches
      { s with entries := s.entries.insert name e.emptied } :=
    h.withEntries (h.entries_keyed.insert name _)
      (h.entry_insert name hdevice (Entry.genuine_emptied e))
  obtain ⟨w, hput, ht⟩ := hempty.putEntry_world target e
  rw [takeEntry, answering, hput]
  refine h.keeps_withEntries (m := []) ht (hempty.entries_keyed.insert target e)
    (hempty.entry_insert target hdevice hgenuine) ?_
  have hleave := h.entries_keyed.flatMap_insert Entry.keys name e.emptied
  have henter := hempty.entries_keyed.flatMap_insert Entry.keys target e
  rw [he] at hleave
  refine List.perm_iff_count.mpr ?_
  intro k
  have hk := hleave.count_eq k
  have hk' := henter.count_eq k
  simp only [Option.toList_some, List.flatMap_cons, List.flatMap_nil, List.append_nil,
    List.nil_append, Entry.keys_emptied, List.count_append] at hk hk' ⊢
  omega

theorem assignEntry_keeps {sourceName : String} {source : Entry} (h : s.SoundBut loose looseCaches)
    (hsource : s.entries.get? sourceName = some source)
    (he : (s.entries.erase sourceName).get? name = some e) :
    Keeps loose looseCaches s (s.assignEntry name e sourceName source).1 := by
  have herased : SoundBut loose looseCaches
      { s with entries := s.entries.erase sourceName } :=
    h.withEntries (h.entries_keyed.erase sourceName)
      (fun e' he' => h.entry e' (Table.mem_vals_of_mem_erase he'))
  obtain ⟨hdevice, hgenuine⟩ := herased.entry_of_get? he
  obtain ⟨hdevice', hgenuine'⟩ := h.entry_of_get? hsource
  have herase := h.entries_keyed.flatMap_erase Entry.keys sourceName
  have hinsert := herased.entries_keyed.flatMap_insert Entry.keys name
  rw [hsource] at herase
  simp only [he] at hinsert
  rw [assignEntry, onWorld_eq]
  rcases World.assign_cases h.numbered hdevice hdevice' hgenuine hgenuine' with
    ⟨w, r, hx, ht⟩ | ⟨w, r, hx, ht⟩ <;> simp only [hx, answering]
  · refine h.keeps_withEntries (m := []) ht (herased.entries_keyed.insert name source)
      (herased.entry_insert name hdevice' hgenuine') (List.perm_iff_count.mpr fun k => ?_)
    have hk := herase.count_eq k
    have hk' := (hinsert source).count_eq k
    simp only [Option.toList_some, List.flatMap_cons, List.flatMap_nil, List.append_nil,
      List.nil_append, List.count_append] at hk hk' ⊢
    omega
  · refine h.keeps_withEntries (m := []) ht (herased.entries_keyed.insert name e.emptied)
      (herased.entry_insert name hdevice (Entry.genuine_emptied e))
      (List.perm_iff_count.mpr fun k => ?_)
    have hk := herase.count_eq k
    have hk' := (hinsert e.emptied).count_eq k
    simp only [Option.toList_some, List.flatMap_cons, List.flatMap_nil, List.append_nil,
      List.nil_append, Entry.keys_emptied, List.count_append] at hk hk' ⊢
    omega

/-! ### Handles with a name -/

/-- The table of handles and the world change together. -/
theorem SoundBut.outcome_withHandles {w : World} {t : Table String Handle} {lost made : List Key}
    {strays : List (Nat × Key)} (h : s.SoundBut loose looseCaches)
    (ht : s.world.Turnover w made strays) (hk : t.Keyed)
    (hperm : (lost ++ t.vals.map Handle.key ++ strays.map Prod.snd).Perm
      (made ++ s.handles.vals.map Handle.key)) :
    Outcome lost strays loose looseCaches s { s with world := w, handles := t } := by
  have hreturns : w.returns.Perm (strays ++ List.map Key.homeward [] ++ s.world.returns) := by
    rw [List.map_nil, List.append_nil]
    exact ht.returns
  refine ((h.withHandles hk).withWorld ht).outcome ht.made hreturns ?_
  refine List.perm_iff_count.mpr ?_
  intro k
  have hpk := hperm.count_eq k
  simp only [owned, ht.pool, List.append_nil, List.count_append] at hpk ⊢
  omega

/-- A fresh handle takes the place of the one that was under its name. -/
theorem createHandle_outcome (h : s.SoundBut loose looseCaches) {serial : Nat}
    (hs : serial < s.world.devices.length) (name : String) :
    ∃ lost, Outcome lost [] loose looseCaches s (s.createHandle serial name).1 ∧
      (s.handles.get? name = none → lost = []) := by
  rw [createHandle, onWorld_eq]
  rcases World.onDevice_create_cases h.numbered hs with ⟨w, id, hc, ht⟩ | ⟨w, t, hc, ht⟩ <;> rw [hc]
  · refine ⟨(s.handles.get? name).toList.map Handle.key,
      h.outcome_withHandles ht (h.handles_keyed.insert name _) ?_, ?_⟩
    · have hold := (h.handles_keyed.vals_perm name).map Handle.key
      refine List.perm_iff_count.mpr ?_
      intro k
      have hk := hold.count_eq k
      simp only [Table.vals_insert, List.map_append, List.map_cons, List.map_nil, List.append_nil,
        Handle.key, List.count_append, List.count_cons, List.count_nil] at hk ⊢
      omega
    · intro hfree
      rw [hfree]
      rfl
  · exact ⟨[], h.keeps_idle ht, fun _ => rfl⟩

theorem bindHandle_keeps (h : s.SoundBut loose looseCaches) {serial : Nat}
    (hs : serial < s.world.devices.length) {hd : Handle} (hhd : s.handles.get? name = some hd)
    (stream : Stream) : Keeps loose looseCaches s (s.bindHandle serial name hd stream).1 := by
  rw [bindHandle, onWorld_eq]
  rcases World.onDevice_bind_cases hs hd stream with ⟨w, hb, ht⟩ | ⟨w, t, hb, ht⟩ <;> rw [hb]
  · refine h.outcome_withHandles ht (h.handles_keyed.insert name _) ?_
    have hold := (h.handles_keyed.vals_perm_of_get? hhd).map Handle.key
    simpa [Handle.key] using hold.symm
  · exact h.keeps_idle ht

/-- A handle that is given back by name goes to the device of the step. -/
theorem destroyHandle_outcome (h : s.SoundBut loose looseCaches) {serial : Nat}
    (hs : serial < s.world.devices.length) {hd : Handle} (hhd : s.handles.get? name = some hd) :
    Outcome [] [(serial, hd.key)] loose looseCaches s (s.destroyHandle serial name hd).1 := by
  have ht := World.turnover_destroy h.numbered hs hd
  rw [destroyHandle, onWorld_eq]
  rcases hx : s.world.onDevice serial (·.destroy hd) with ⟨w, r⟩
  rw [hx] at ht
  have hgone : Outcome [] [(serial, hd.key)] loose looseCaches s
      { s with world := w, handles := s.handles.erase name } := by
    refine h.outcome_withHandles ht (h.handles_keyed.erase name) ?_
    have hold := (h.handles_keyed.vals_perm_of_get? hhd).map Handle.key
    exact List.perm_append_comm.trans hold.symm
  cases r with
  | ok u => exact hgone
  | error t => exact hgone

/-! ### Routines -/

/-- The device that has a name. -/
def namedDevice (s : Session) (device : String) : List Nat := (s.devices.get? device).toList

/-- The device of the cache of a context that has a name. -/
def contextDevice (s : Session) (name : String) : List Nat :=
  ((s.contexts.get? name).bind fun ctx => s.cachePool.get? ctx.cache).toList.map (·.device)

/-- The devices that a routine call may work on. -/
def targetDevice (s : Session) : Target → List Nat
  | .context name => s.contextDevice name
  | .handle device _ | .entry device _ | .reference device _ => s.namedDevice device

theorem mem_namedDevice {device : String} {serial : Nat} (hs : s.devices.get? device = some serial) :
    serial ∈ s.namedDevice device := by
  simp [namedDevice, hs]

theorem mem_contextDevice {ctx : Context} {c : Cache} (hctx : s.contexts.get? name = some ctx)
    (hn : s.cachePool.get? ctx.cache = some c) : c.device ∈ s.contextDevice name := by
  simp [contextDevice, hctx, hn]

theorem SoundBut.lt_of_contextDevice (h : s.SoundBut loose looseCaches) {serial : Nat}
    (hs : serial ∈ s.contextDevice name) : serial < s.world.devices.length := by
  obtain ⟨c, hc, rfl⟩ := List.mem_map.mp hs
  obtain ⟨ctx, -, hn⟩ := Option.bind_eq_some_iff.mp (Option.mem_toList.mp hc)
  exact (h.cache ctx.cache c hn).device_lt

theorem SoundBut.lt_of_targetDevice (h : s.SoundBut loose looseCaches) {target : Target}
    {serial : Nat} (hs : serial ∈ s.targetDevice target) : serial < s.world.devices.length := by
  cases target with
  | context name => exact h.lt_of_contextDevice hs
  | handle device name | entry device name | reference device name =>
    exact h.lt_of_device (Option.mem_toList.mp hs)

/-- What a routine call comes to: nothing, a fault, or the routine on the device of its target. -/
def Ran (s : Session) (devices : List Nat) (job : Job) (s' : Session) : Prop :=
  ∃ w, s' = { s with world := w } ∧
    (w = s.world ∨ (∃ f, w = s.world.emit (.fault f)) ∨
      ∃ serial ∈ devices, ∃ h, w = (s.world.execute serial h job).1)

theorem named_ran {β : Type} {devices : List Nat} {job : Job} {found : Option β}
    {next : β → Session × Answer} (hnext : ∀ b, found = some b → s.Ran devices job (next b).1) :
    s.Ran devices job (s.named found next).1 := by
  cases found with
  | none => exact ⟨s.world, rfl, .inl rfl⟩
  | some b => exact hnext b rfl

theorem runHandle_ran {devices : List Nat} {serial : Nat} (hs : serial ∈ devices) (hd : Handle)
    (job : Job) : s.Ran devices job (s.runHandle serial hd job).1 := by
  refine ⟨(s.world.execute serial hd job).1, ?_, .inr (.inr ⟨serial, hs, hd, rfl⟩)⟩
  rw [runHandle, onWorld_eq]
  rcases s.world.execute serial hd job with ⟨w, t | ⟨status | reply, r⟩⟩ <;> rfl

theorem runEntry_ran {devices : List Nat} {serial : Nat} (hs : serial ∈ devices) (e : Entry)
    (job : Job) : s.Ran devices job (s.runEntry serial e job).1 := by
  rw [runEntry, onWorld_eq, World.require]
  cases e.handle with
  | none => exact ⟨_, rfl, .inr (.inl ⟨_, rfl⟩)⟩
  | some hd => exact runHandle_ran hs hd job

theorem runContext_ran {devices : List Nat} {c : Cache} (hs : c.device ∈ devices) (ctx : Context)
    (job : Job) : s.Ran devices job (s.runContext ctx c job).1 := by
  refine ⟨(ctx.execute s.world c.device job).1, ?_, ?_⟩
  · rw [runContext, onWorld_eq]
    rcases ctx.execute s.world c.device job with ⟨w, f | ⟨error | reply, r⟩⟩ <;> rfl
  · rcases ctx.execute_fst s.world c.device job with hw | hw | ⟨hd, hw⟩
    · exact .inl hw
    · exact .inr (.inl hw)
    · exact .inr (.inr ⟨_, hs, hd, hw⟩)

theorem run_ran (s : Session) (job : Job) (target : Target) :
    s.Ran (s.targetDevice target) job (s.run job target).1 := by
  cases target with
  | context name =>
    exact named_ran fun ctx hctx => named_ran fun c hn =>
      runContext_ran (mem_contextDevice hctx hn) ctx job
  | handle device name =>
    exact named_ran fun serial hs => named_ran fun hd _ => runHandle_ran (mem_namedDevice hs) hd job
  | entry device name =>
    exact named_ran fun serial hs => named_ran fun e _ => runEntry_ran (mem_namedDevice hs) e job
  | reference device name =>
    exact named_ran fun serial hs => named_ran fun e _ => runEntry_ran (mem_namedDevice hs) e job

theorem run_keeps (h : s.SoundBut loose looseCaches) (job : Job) (target : Target) :
    Keeps loose looseCaches s (s.run job target).1 := by
  obtain ⟨w, hw, rfl | ⟨f, rfl⟩ | ⟨serial, hs, hd, rfl⟩⟩ := s.run_ran job target <;> rw [hw]
  · exact h.keeps_refl
  · exact h.keeps_idle (World.turnover_emit _ _)
  · exact h.keeps_idle (World.turnover_execute (h.lt_of_targetDevice hs) hd job)

/-! ### All steps -/

theorem addDevice_keeps (h : s.SoundBut loose looseCaches) (name : String) :
    Keeps loose looseCaches s (s.addDevice name).1 ∧
      (s.addDevice name).2 < (s.addDevice name).1.world.devices.length := by
  have ht := World.turnover_addDevice s.world
  have hlt : s.world.addDevice.2 < s.world.addDevice.1.devices.length := by
    simp [World.addDevice]
  have hworld := h.keeps_idle ht
  refine ⟨hworld.trans ?_, hlt⟩
  refine (hworld.sound.withDevices (t := s.devices.insert name s.world.addDevice.2)
    fun serial hs => ?_).keeps_of_eq rfl rfl rfl
  rcases List.mem_cons.mp hs with rfl | hs
  · exact hlt
  · exact ht.lt (h.device_lt serial (Table.mem_vals_of_mem_erase hs))

/-- The handle that a step gives to a device of its choice, with that device. -/
def strays (s : Session) : Step → List (Nat × Key)
  | .destroyHandle device handle =>
    match s.devices.get? device, s.handles.get? handle with
    | some serial, some h => [(serial, h.key)]
    | _, _ => []
  | _ => []

/-- A step does not make a handle under the name of another one. -/
def Spares (s : Session) (t : Step) : Prop := ∀ name ∈ t.madeHandle?, s.handles.get? name = none

instance (s : Session) (t : Step) : Decidable (s.Spares t) :=
  inferInstanceAs (Decidable (∀ name ∈ t.madeHandle?, s.handles.get? name = none))

/-- The number and the cache under a name. -/
theorem get?_of_cache? {p : Nat × Cache} (hp : s.cache? name = some p) :
    s.caches.get? name = some p.1 ∧ s.cachePool.get? p.1 = some p.2 := by
  obtain ⟨n, hn, hp⟩ := Option.bind_eq_some_iff.mp hp
  obtain ⟨c, hc, rfl⟩ := Option.map_eq_some_iff.mp hp
  exact ⟨hn, hc⟩

/-- The steps other than those on handles with a name keep everything. -/
theorem step_keeps (h : s.Sound) (t : Step) (hcreate : ∀ device name, t ≠ .createHandle device name)
    (hdestroy : ∀ device name, t ≠ .destroyHandle device name) :
    Keeps [] [] s (s.step t).1 := by
  cases t with
  | createHandle device name => exact absurd rfl (hcreate device name)
  | destroyHandle device name => exact absurd rfl (hdestroy device name)
  | addDevice name => exact (addDevice_keeps h name).1
  | arm device kind status =>
    exact named_keeps h fun serial hs =>
      h.keeps_idle (World.turnover_arm (h.lt_of_device hs) kind status)
  | showCalls device => exact named_keeps h fun _ _ => h.keeps_refl
  | clearCalls device =>
    exact named_keeps h fun serial hs => h.keeps_idle (World.turnover_clearCalls (h.lt_of_device hs))
  | bindHandle device name stream =>
    exact named_keeps h fun serial hs => named_keeps h fun hd hhd =>
      bindHandle_keeps h (h.lt_of_device hs) hhd stream
  | showHandle name => exact named_keeps h fun _ _ => h.keeps_refl
  | addEntry name device stream =>
    exact named_keeps h fun serial hs => addEntry_keeps h (h.lt_of_device hs) name stream
  | prepareEntry name => exact named_keeps h fun e he => prepareEntry_keeps h he
  | showEntry name => exact named_keeps h fun _ _ => h.keeps_refl
  | entryHandle name => exact named_keeps h fun e _ => answerHandle_keeps h e
  | rebindEntry name stream => exact named_keeps h fun e he => rebindEntry_keeps h he stream
  | takeEntry name target => exact named_keeps h fun e he => takeEntry_keeps h he target
  | assignEntry name source =>
    exact named_keeps h fun origin horigin => named_keeps h fun e he =>
      assignEntry_keeps h horigin he
  | destroyEntry name => exact named_keeps h fun e he => destroyEntry_keeps h he
  | dropEntry name => exact named_keeps h fun _ _ => dropEntry_keeps h name
  | addCache name device layout =>
    exact named_keeps h fun serial hs => putCache_keeps h name (h.lt_of_device hs) layout
  | addCacheWithDevice name device layout =>
    obtain ⟨hadd, hlt⟩ := addDevice_keeps h device
    exact hadd.trans (putCache_keeps hadd.sound name hlt layout)
  | acquire cache stream name =>
    exact named_keeps h fun p hp => acquire_keeps h (get?_of_cache? hp).2 stream name
  | get cache stream name =>
    refine named_keeps h ?_
    intro p hp
    cases hid : p.2.lookup stream with
    | none =>
      simp only [hid]
      exact h.keeps_refl
    | some id =>
      simp only [hid]
      obtain ⟨e, he, -⟩ := h.slot (get?_of_cache? hp).2 hid
      exact answerShared_keeps h ⟨e, he⟩ name
  | contains cache stream => exact named_keeps h fun _ _ => h.keeps_refl
  | showCache cache => exact named_keeps h fun _ _ => h.keeps_refl
  | race cache streams =>
    exact named_keeps h fun p hp => race_keeps h (get?_of_cache? hp).2 streams
  | dropCache name =>
    refine named_keeps h ?_
    intro n _
    split
    · exact h.keeps_refl
    · exact dropCache_keeps h name
  | showReference name =>
    refine named_keeps h ?_
    intro e _
    rw [onWorld_eq]
    rcases s.world.require_cases e with ⟨hd, hx⟩ | ⟨f, hx⟩ <;> rw [hx]
    · exact h.keeps_refl
    · exact h.keeps_idle (World.turnover_emit _ _)
  | cloneReference name target =>
    exact named_keeps h fun id hid =>
      putReference_keeps h target (h.reference id (Table.mem_vals_of_get? hid))
  | sameEntry name other =>
    exact named_keeps h fun _ _ => named_keeps h fun _ _ => h.keeps_refl
  | dropReference name => exact named_keeps h fun _ _ => dropReference_keeps h name
  | addContext name cache stream =>
    refine named_keeps h fun n hn => putContext_keeps h name ?_
    obtain ⟨c, hc⟩ := h.name n (Table.mem_vals_of_get? hn)
    exact ⟨c, hc, nofun⟩
  | prepareContext name =>
    exact named_keeps h fun ctx hctx => named_keeps h fun c hn => prepareContext_keeps h hctx hn
  | showContext name => exact named_keeps h fun _ _ => h.keeps_refl
  | contextHandle name target =>
    exact named_keeps h fun ctx hctx => contextHandle_keeps h hctx target
  | dropContext name => exact named_keeps h fun _ _ => dropContext_keeps h name
  | run target job => exact run_keeps h job target
  | inspect subject name => exact named_keeps h fun _ _ => h.keeps_refl

/-- **What a step does to the books.** Only a handle whose name is given to another one is
forgotten, and only a handle that is given back by name may go to another device than its own. -/
theorem step_outcome (h : s.Sound) (t : Step) :
    ∃ lost, Outcome lost (s.strays t) [] [] s (s.step t).1 ∧ (s.Spares t → lost = []) := by
  cases t with
  | createHandle device name =>
    rw [step]
    cases hs : s.devices.get? device with
    | none => exact ⟨[], h.keeps_refl, fun _ => rfl⟩
    | some serial =>
      obtain ⟨lost, hout, hlost⟩ := createHandle_outcome h (h.lt_of_device hs) name
      exact ⟨lost, hout, fun hspares => hlost (hspares name rfl)⟩
  | destroyHandle device name =>
    rw [step, strays]
    cases hs : s.devices.get? device with
    | none => exact ⟨[], h.keeps_refl, fun _ => rfl⟩
    | some serial =>
      rw [named_some]
      cases hhd : s.handles.get? name with
      | none => exact ⟨[], h.keeps_refl, fun _ => rfl⟩
      | some hd => exact ⟨[], destroyHandle_outcome h (h.lt_of_device hs) hhd, fun _ => rfl⟩
  | _ => exact ⟨[], step_keeps h _ nofun nofun, fun _ => rfl⟩

end Session

end SparseDevice
