import SparseDevice.Proofs.Ownership.Run

/-!
# Ruins

A cache falls into ruins in one kind of step only: the step ends in a fault, and a cache with two or
more entries goes in it. A fault over the only entry of a cache leaves nothing behind, and a cache
that goes without a fault goes as a whole.

## Main definitions

* `Answer.isFault`: an answer that is a fault.
* `Session.Breaks`: a step ends in a fault while a cache with two or more entries goes.
* `Session.Crumbles`: what an operation does to the ruins.

## Main results

* `Session.step_ruins`: no other step adds to the ruins.
* `Session.ruins_eq_nil`: a run without such a step leaves none.
-/

namespace SparseDevice

/-- Whether an answer is a fault. -/
def Answer.isFault : Answer → Bool
  | fault _ => true
  | missing | busy | value _ | failure _ | ran _ _ => false

namespace Session

variable {s s' : Session} {n : Nat} {c : Cache}

/-- A step ends in a fault, and a cache with two or more entries goes in it. -/
def Breaks (s : Session) (t : Step) : Prop :=
  (s.step t).2.isFault = true ∧
    ∃ p ∈ s.cachePool.items, 2 ≤ p.2.size ∧ (s.step t).1.cachePool.get? p.1 = none

instance (s : Session) (t : Step) : Decidable (s.Breaks t) :=
  inferInstanceAs (Decidable ((s.step t).2.isFault = true ∧
    ∃ p ∈ s.cachePool.items, 2 ≤ p.2.size ∧ (s.step t).1.cachePool.get? p.1 = none))

/-- An operation adds nothing to the ruins, or it ends in a fault and a cache with two or more
entries went. -/
def Crumbles (s : Session) (r : Session × Except Fault Unit) : Prop :=
  r.1.ruins = s.ruins ∨
    (∃ f, r.2 = .error f) ∧
      ∃ n c, s.cachePool.get? n = some c ∧ 2 ≤ c.size ∧ r.1.cachePool.get? n = none

/-! ### Shards -/

/-- Besides the world, letting go of a shard changes the ruins, and these only after a fault in front
of another slot. -/
theorem collectShard_cases (s : Session) (c : Cache) (shard : Table Stream Nat) :
    ∃ w ruins, (s.collectShard c shard).1 = { s with world := w, ruins := ruins } ∧
      (ruins = s.ruins ∨ (∃ f, (s.collectShard c shard).2 = .error f) ∧ 2 ≤ shard.length) := by
  induction shard generalizing s with
  | nil => exact ⟨s.world, s.ruins, rfl, .inl rfl⟩
  | cons slot rest ih =>
    obtain ⟨w, hw⟩ := s.collect_fst slot.2
    rw [collectShard]
    rcases hx : s.collect slot.2 with ⟨s₁, f | u⟩ <;> rw [hx] at hw <;> subst hw
    · cases rest with
      | nil => exact ⟨w, s.ruins, rfl, .inl rfl⟩
      | cons next rest => exact ⟨w, _, rfl, .inr ⟨⟨f, rfl⟩, by simp⟩⟩
    · obtain ⟨w', ruins, hfst, hruins⟩ := ih { s with world := w }
      refine ⟨w', ruins, hfst, hruins.imp_right ?_⟩
      rintro ⟨hf, hlength⟩
      exact ⟨hf, Nat.le_trans hlength (Nat.le_succ _)⟩

theorem collectShards_cases (s : Session) (c : Cache) (shards : List (Table Stream Nat)) :
    ∃ w ruins, (s.collectShards c shards).1 = { s with world := w, ruins := ruins } ∧
      (ruins = s.ruins ∨
        (∃ f, (s.collectShards c shards).2 = .error f) ∧ 2 ≤ shards.flatten.length) := by
  induction shards generalizing s with
  | nil => exact ⟨s.world, s.ruins, rfl, .inl rfl⟩
  | cons shard rest ih =>
    obtain ⟨w, ruins, hfst, hruins⟩ := s.collectShard_cases c shard
    obtain ⟨w', ruins', hfst', hruins'⟩ := ih { s with world := w, ruins := ruins }
    rw [collectShards, List.flatten_cons, List.length_append]
    rcases hx : s.collectShard c shard with ⟨s₁, first⟩
    rw [hx] at hfst hruins
    subst hfst
    rcases hy : collectShards { s with world := w, ruins := ruins } c rest with ⟨s₂, later⟩
    rw [hy] at hfst' hruins'
    subst hfst'
    simp only [hy]
    refine ⟨w', ruins', rfl, ?_⟩
    rcases hruins with rfl | ⟨⟨f, rfl⟩, hlength⟩
    · rcases hruins' with rfl | ⟨⟨f, rfl⟩, hlength⟩
      · exact .inl rfl
      · refine .inr ⟨?_, by omega⟩
        cases first with
        | error f' => exact ⟨f', rfl⟩
        | ok u => exact ⟨f, rfl⟩
    · exact .inr ⟨⟨f, rfl⟩, by omega⟩

/-! ### Caches and contexts -/

theorem collectCache_crumbles (hkeyed : ∀ c, s.cachePool.get? n = some c → c.slots.Keyed) :
    s.Crumbles (s.collectCache n) := by
  by_cases hn : n ∈ s.heldCaches
  · rw [collectCache_of_mem hn]
    exact .inl rfl
  rw [collectCache, if_neg hn]
  cases hc : s.cachePool.get? n with
  | none => exact .inl rfl
  | some c =>
    obtain ⟨w, ruins, hfst, hruins⟩ :=
      collectShards_cases { s with cachePool := s.cachePool.erase n } c c.shards
    rcases hruins with rfl | ⟨hf, hlength⟩
    · exact .inl (by rw [hfst])
    · rw [(Cache.shards_perm (hkeyed c hc)).length_eq] at hlength
      refine .inr ⟨hf, n, c, hc, hlength, ?_⟩
      rw [hfst, Pool.get?_erase, if_pos rfl]

/-- What a fault takes the place of does not matter to the ruins. -/
theorem Crumbles.after {r : Session × Except Fault Unit} {w : World}
    (h : Crumbles { s with world := w } r) (first : Except Fault Unit) :
    s.Crumbles (r.1, first.bind fun _ => r.2) := by
  refine h.imp_right fun ⟨⟨f, hf⟩, hgone⟩ => ⟨?_, hgone⟩
  cases first with
  | error f' => exact ⟨f', rfl⟩
  | ok u => exact ⟨f, hf⟩

theorem collectContext_crumbles (hkeyed : ∀ n c, s.cachePool.get? n = some c → c.slots.Keyed)
    (ctx : Context) : s.Crumbles (s.collectContext ctx) := by
  obtain ⟨w, hw⟩ := s.collectAll_fst ctx.entry.toList
  rw [collectContext]
  rcases hx : s.collectAll ctx.entry.toList with ⟨s₁, first⟩
  rw [hx] at hw
  subst hw
  exact (collectCache_crumbles (s := { s with world := w }) (hkeyed ctx.cache)).after first

/-- A name, a reference or a context may go first. -/
theorem Crumbles.renamed {r : Session × Except Fault Unit} (h : s'.Crumbles r)
    (hr : s'.ruins = s.ruins) (hc : s'.cachePool = s.cachePool) : s.Crumbles r := by
  rw [Crumbles, hr, hc] at h
  exact h

theorem dropContext_crumbles (hkeyed : ∀ n c, s.cachePool.get? n = some c → c.slots.Keyed)
    (name : String) : s.Crumbles (s.dropContext name) := by
  rw [dropContext]
  cases s.contexts.get? name with
  | none => exact .inl rfl
  | some ctx =>
    exact (collectContext_crumbles (s := { s with contexts := s.contexts.erase name }) hkeyed
      ctx).renamed rfl rfl

theorem dropCache_crumbles (hkeyed : ∀ n c, s.cachePool.get? n = some c → c.slots.Keyed)
    (name : String) : s.Crumbles (s.dropCache name) := by
  rw [dropCache]
  cases s.caches.get? name with
  | none => exact .inl rfl
  | some n =>
    exact (collectCache_crumbles (s := { s with caches := s.caches.erase name }) (hkeyed n)).renamed
      rfl rfl

theorem putContext_crumbles (hkeyed : ∀ n c, s.cachePool.get? n = some c → c.slots.Keyed)
    (name : String) (ctx : Context) : s.Crumbles (s.putContext name ctx) := by
  rw [putContext]
  cases s.contexts.get? name with
  | none => exact .inl rfl
  | some old =>
    exact (collectContext_crumbles (s := { s with contexts := s.contexts.insert name ctx }) hkeyed
      old).renamed rfl rfl

/-- The cache that goes is not the one that has just come, which is empty. -/
theorem putCache_crumbles (h : s.Sound) (name : String) {device : Nat}
    (hd : device < s.world.devices.length) (layout : List (List Stream)) :
    s.Crumbles (s.putCache name (.new device layout)) := by
  have hsound := h.insertCache name hd layout
  rw [putCache]
  cases s.caches.get? name with
  | none => exact .inl rfl
  | some old =>
    refine (collectCache_crumbles (n := old) (s := { s with
      cachePool := (s.cachePool.add (.new device layout)).1
      caches := s.caches.insert name s.cachePool.added }) fun c hc =>
        (hsound.cache old c hc).keyed).imp_right ?_
    rintro ⟨hf, n, c, hc, hsize, hgone⟩
    refine ⟨hf, n, c, ?_, hsize, hgone⟩
    simp only [Pool.get?_add] at hc
    split at hc
    · cases hc
      exact absurd hsize (by decide : ¬2 ≤ 0)
    · exact hc

/-! ### Steps -/

theorem breaks_of_crumbles {t : Step} {r : Session × Except Fault Unit} {a : Answer}
    (ht : s.step t = answering r a) (h : s.Crumbles r) :
    (s.step t).1.ruins = s.ruins ∨ s.Breaks t := by
  rw [Breaks, ht]
  refine h.imp_right fun ⟨⟨f, hf⟩, n, c, hc, hsize, hgone⟩ =>
    ⟨?_, (n, c), Table.mem_of_get? hc, hsize, hgone⟩
  rw [answering, hf]
  rfl

theorem named_ruins {β : Type} {found : Option β} {next : β → Session × Answer}
    (hnext : ∀ b, found = some b → (next b).1.ruins = s.ruins) :
    (s.named found next).1.ruins = s.ruins := by
  cases found with
  | none => rfl
  | some b => exact hnext b rfl

theorem putEntry_ruins (s : Session) (name : String) (e : Entry) :
    (s.putEntry name e).1.ruins = s.ruins := by
  rw [putEntry]
  cases s.entries.get? name <;> rfl

theorem putReference_ruins (s : Session) (name : String) (id : Nat) :
    (s.putReference name id).1.ruins = s.ruins := by
  obtain ⟨w, hw⟩ := collectAll_fst { s with references := s.references.insert name id }
    (s.references.get? name).toList
  rw [putReference, hw]

theorem answerShared_ruins (s : Session) (id : Nat) (name : String) :
    (s.answerShared id name).1.ruins = s.ruins := by
  obtain ⟨w, hw⟩ := s.answerShared_fst id name
  rw [hw]

theorem acquire_ruins (s : Session) (n : Nat) (c : Cache) (stream : Stream) (name : String) :
    (s.acquire n c stream name).1.ruins = s.ruins := by
  rw [Session.acquire, onWorld_eq]
  rcases c.acquire s.world stream with ⟨w, c', f | id⟩
  · rfl
  · exact answerShared_ruins ({ s with world := w }.setCache n c') id name

theorem dropEntry_ruins (s : Session) (name : String) :
    (s.dropEntry name).1.ruins = s.ruins := by
  rw [dropEntry]
  cases s.entries.get? name <;> rfl

theorem dropReference_ruins (s : Session) (name : String) :
    (s.dropReference name).1.ruins = s.ruins := by
  rw [dropReference]
  cases s.references.get? name with
  | none => rfl
  | some id =>
    obtain ⟨w, hw⟩ := collect_fst { s with references := s.references.erase name } id
    simp only [hw]

/-- **Only a step that breaks a cache adds to the ruins.** -/
theorem step_ruins (h : s.Sound) (t : Step) : (s.step t).1.ruins = s.ruins ∨ s.Breaks t := by
  have hkeyed : ∀ n c, s.cachePool.get? n = some c → c.slots.Keyed :=
    fun n c hc => (h.cache n c hc).keyed
  cases t with
  | addCache name device layout =>
    cases hs : s.devices.get? device with
    | none => exact .inl (by rw [step, hs]; rfl)
    | some serial =>
      exact breaks_of_crumbles (by rw [step, hs]; rfl)
        (putCache_crumbles h name (h.lt_of_device hs) layout)
  | addCacheWithDevice name device layout =>
    obtain ⟨hadd, hlt⟩ := addDevice_keeps h device
    exact breaks_of_crumbles rfl
      ((putCache_crumbles hadd.sound name hlt layout).renamed rfl rfl)
  | dropCache name =>
    cases hn : s.caches.get? name with
    | none => exact .inl (by rw [step, hn]; rfl)
    | some n =>
      by_cases hbusy : s.contexts.vals.any fun ctx => decide (ctx.cache = n)
      · exact .inl (by rw [step, hn, named_some, if_pos hbusy])
      · exact breaks_of_crumbles (by rw [step, hn, named_some, if_neg hbusy])
          (dropCache_crumbles hkeyed name)
  | addContext name cache stream =>
    cases hn : s.caches.get? cache with
    | none => exact .inl (by rw [step, hn]; rfl)
    | some n =>
      exact breaks_of_crumbles (by rw [step, hn]; rfl) (putContext_crumbles hkeyed name _)
  | dropContext name =>
    cases hctx : s.contexts.get? name with
    | none => exact .inl (by rw [step, hctx]; rfl)
    | some ctx =>
      exact breaks_of_crumbles (by rw [step, hctx]; rfl) (dropContext_crumbles hkeyed name)
  | addDevice name => exact .inl rfl
  | arm device kind status => exact .inl (named_ruins fun _ _ => rfl)
  | showCalls device => exact .inl (named_ruins fun _ _ => rfl)
  | clearCalls device => exact .inl (named_ruins fun _ _ => rfl)
  | createHandle device name =>
    refine .inl (named_ruins fun serial _ => ?_)
    rw [createHandle, onWorld_eq]
    rcases s.world.onDevice serial (·.create) with ⟨w, t | hd⟩ <;> rfl
  | bindHandle device name stream =>
    refine .inl (named_ruins fun serial _ => named_ruins fun hd _ => ?_)
    rw [bindHandle, onWorld_eq]
    rcases s.world.onDevice serial (·.bind hd stream) with ⟨w, t | hd⟩ <;> rfl
  | destroyHandle device name =>
    refine .inl (named_ruins fun serial _ => named_ruins fun hd _ => ?_)
    rw [destroyHandle, onWorld_eq]
    rcases s.world.onDevice serial (·.destroy hd) with ⟨w, t | u⟩ <;> rfl
  | showHandle name => exact .inl (named_ruins fun _ _ => rfl)
  | addEntry name device stream => exact .inl (named_ruins fun _ _ => putEntry_ruins s name _)
  | prepareEntry name =>
    refine .inl (named_ruins fun e _ => ?_)
    rw [prepareEntry, onWorld_eq]
    rcases s.world.prepare e with ⟨w, e, f | u⟩ <;> rfl
  | showEntry name => exact .inl (named_ruins fun _ _ => rfl)
  | entryHandle name =>
    refine .inl (named_ruins fun e _ => ?_)
    rw [answerHandle_fst]
  | rebindEntry name stream =>
    refine .inl (named_ruins fun e _ => ?_)
    rw [rebindEntry, onWorld_eq]
    rcases s.world.require e with ⟨w, f | hd⟩
    · rfl
    · simp only [onWorld_eq]
      rcases w.onDevice e.device (·.bind hd stream) with ⟨w, t | hd⟩ <;> rfl
  | takeEntry name target =>
    exact .inl (named_ruins fun e _ => putEntry_ruins
      { s with entries := s.entries.insert name e.emptied } target e)
  | assignEntry name source => exact .inl (named_ruins fun _ _ => named_ruins fun _ _ => rfl)
  | destroyEntry name => exact .inl (named_ruins fun _ _ => rfl)
  | dropEntry name => exact .inl (named_ruins fun _ _ => dropEntry_ruins s name)
  | acquire cache stream name =>
    exact .inl (named_ruins fun p _ => acquire_ruins s p.1 p.2 stream name)
  | get cache stream name =>
    refine .inl (named_ruins fun p _ => ?_)
    obtain ⟨n, c⟩ := p
    simp only
    cases c.lookup stream with
    | none => rfl
    | some id => exact answerShared_ruins s id name
  | contains cache stream => exact .inl (named_ruins fun _ _ => rfl)
  | showCache cache => exact .inl (named_ruins fun _ _ => rfl)
  | race cache streams => exact .inl (named_ruins fun _ _ => rfl)
  | showReference name =>
    refine .inl (named_ruins fun e _ => ?_)
    rw [onWorld_eq]
    rcases s.world.require e with ⟨w, f | hd⟩ <;> rfl
  | cloneReference name target =>
    exact .inl (named_ruins fun id _ => putReference_ruins s target id)
  | sameEntry name other => exact .inl (named_ruins fun _ _ => named_ruins fun _ _ => rfl)
  | dropReference name => exact .inl (named_ruins fun _ _ => dropReference_ruins s name)
  | prepareContext name =>
    refine .inl (named_ruins fun ctx _ => named_ruins fun c _ => ?_)
    rw [prepareContext]
    cases ctx.entry with
    | some id => rfl
    | none =>
      simp only [onWorld_eq]
      rcases c.acquire s.world ctx.stream with ⟨w, c, f | id⟩ <;> rfl
  | showContext name => exact .inl (named_ruins fun _ _ => rfl)
  | contextHandle name target =>
    refine .inl (named_ruins fun ctx _ => ?_)
    rw [contextHandle]
    cases ctx.entry with
    | some id => exact answerShared_ruins s id target
    | none =>
      simp only [onWorld_eq]
      rcases ctx.require s.world with ⟨w, f | hd⟩ <;> rfl
  | run target job =>
    obtain ⟨w, hw, -⟩ := s.run_ran job target
    exact .inl (by rw [step, hw])
  | inspect subject name => exact .inl (named_ruins fun _ _ => rfl)

/-- **A run in which no cache breaks leaves no ruins.** -/
theorem ruins_eq_nil {steps : List Step} (hall : Along (fun s t => ¬s.Breaks t) empty steps) :
    (empty.after steps).ruins = [] :=
  (after_of_step (P := fun s => s.ruins = []) (fun _ t h hs ht =>
    ((step_ruins h t).resolve_right ht).trans hs) sound_empty rfl steps hall).2

end Session

end SparseDevice
