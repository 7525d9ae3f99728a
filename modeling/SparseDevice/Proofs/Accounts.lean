import SparseDevice.Proofs.Accounts.Cache
import SparseDevice.Proofs.Ownership.Run

/-!
# The accounts of a cache

A device that is used by one cache alone is founded for it: nothing has been counted there when the
cache is made. From then on the counters tell how often a handle was made, bound and taken back, and
the cache explains each of them, through whatever steps the session goes and whatever the devices
are armed with, as long as somebody keeps the cache.

What the cache was asked is read off the steps. An acquisition by name, several of them at once, a
look-up that finds something and the preparation of a context all count, and each of them is
recorded with the entry that it led to.

## Main definitions

* `Session.acquisitions`, `Session.history`: what a step, or a run, asked of a cache.
* `Session.Founded`: a device on which nothing was done, and its only cache.
* `Session.Reserves`: a step does not claim a device for itself.
* `Session.Accounts`: the accounts of a cache.

## Main results

* `Session.Exclusive.step`, `Session.Exclusive.after`: a cache keeps its device to itself.
* `Session.cache_accounts`: the accounts of a cache over whole runs.
-/

namespace SparseDevice

open Acquisition

/-- The steps that work on a device without a handle being made, bound or taken back. -/
def Step.operates : Step → Bool
  | .arm _ _ _ | .clearCalls _ | .run _ _ => true
  | _ => false

namespace Cache

theorem acquire_of_lookup {c : Cache} {s : Stream} {id : Nat} (w : World)
    (hid : c.lookup s = some id) : c.acquire w s = (w, c, .ok id) := by
  rw [acquire, hid]

/-- Acquiring what is there does nothing. -/
theorem acquireAll_of_contains {c : Cache} {streams : List Stream} (w : World)
    (h : ∀ s ∈ streams, c.contains s = true) : (c.acquireAll w streams).1 = w := by
  induction streams with
  | nil => rfl
  | cons s rest ih =>
    obtain ⟨id, hid⟩ := contains_iff.mp (h s List.mem_cons_self)
    rw [acquireAll, acquire_of_lookup w hid]
    exact ih fun s hs => h s (List.mem_cons_of_mem _ hs)

end Cache

/-- What the preparation of a context asks of its cache: nothing new, if it is prepared. -/
def Context.asked (w : World) (ctx : Context) (c : Cache) :
    List (Stream × Except InitFailure Nat) :=
  match ctx.entry with
  | some id => [(ctx.stream, .ok id)]
  | none => [(ctx.stream, (c.acquire w ctx.stream).2.2)]

namespace Session

variable {s : Session} {n d : Nat} {past : List Acquisition} {c : Cache}

/-! ### What a cache is asked -/

/-- The cache that has a name, if it has that number. -/
def cacheAt (s : Session) (n : Nat) (name : String) : Option Cache :=
  (s.cache? name).bind fun p => if p.1 = n then some p.2 else none

/-- What a step asks of a cache, and the answers. -/
def asked (s : Session) (n : Nat) : Step → List (Stream × Except InitFailure Nat)
  | .acquire cache stream _ =>
    (s.cacheAt n cache).toList.map fun c => (stream, (c.acquire s.world stream).2.2)
  | .get cache stream _ =>
    (s.cacheAt n cache).toList.flatMap fun c =>
      (c.lookup stream).toList.map fun id => (stream, .ok id)
  | .race cache streams =>
    (s.cacheAt n cache).toList.flatMap fun c => streams.zip (c.acquireAll s.world streams).2.2
  | .prepareContext name =>
    (s.contexts.get? name).toList.flatMap fun ctx =>
      if ctx.cache = n then (s.cachePool.get? n).toList.flatMap (ctx.asked s.world) else []
  | _ => []

/-- What a step asks of a cache, with the entries that are there when the step is over. -/
def acquisitions (s : Session) (n : Nat) (t : Step) : List Acquisition :=
  (s.asked n t).map (record (s.step t).1.world)

/-- What a run asks of a cache. -/
def history (s : Session) (n : Nat) : List Step → List Acquisition
  | [] => []
  | t :: rest => s.acquisitions n t ++ (s.step t).1.history n rest

theorem cacheAt_of_cache? {name : String} (hc : s.cache? name = some (n, c)) :
    s.cacheAt n name = some c := by
  simp [cacheAt, hc]

theorem cache?_of_cacheAt {name : String} (hc : s.cacheAt n name = some c) :
    s.cache? name = some (n, c) := by
  obtain ⟨⟨m, c'⟩, hm, hif⟩ := Option.bind_eq_some_iff.mp hc
  split at hif
  · next heq =>
    cases hif
    exact heq ▸ hm
  · cases hif

/-! ### A device of its own -/

/-- The device that a step claims for a handle, an entry or a cache of its own. -/
def claimed (s : Session) : Step → List Nat
  | .createHandle device _ | .bindHandle device _ _ | .destroyHandle device _
  | .addEntry _ device _ | .addCache _ device _ => s.namedDevice device
  | _ => []

/-- A step does not claim a device for itself. -/
def Reserves (d : Nat) (s : Session) (t : Step) : Prop := d ∉ s.claimed t

instance (d : Nat) (s : Session) (t : Step) : Decidable (s.Reserves d t) :=
  inferInstanceAs (Decidable (d ∉ s.claimed t))

/-- A device on which nothing was done, and the only cache that goes to it. -/
structure Founded (s : Session) (n d : Nat) : Prop where
  cache : ∃ layout, s.cachePool.get? n = some (.new d layout)
  sole : ∀ p ∈ s.cachePool.items, p.2.device = d → p.1 = n
  entries : ∀ e ∈ s.entries.vals ++ s.world.pool.vals, e.device ≠ d
  counts : (s.world.device d).counts = ⟨0, 0, 0⟩

theorem Founded.exclusive (hf : s.Founded n d) : ∃ c, Exclusive n d [] s c := by
  obtain ⟨layout, hc⟩ := hf.cache
  exact ⟨.new d layout,
    { alive := hc
      device := rfl
      sole := fun _ _ hn' hc' => hf.sole _ (Table.mem_of_get? hn') hc'
      foreign := fun e he => hf.entries e (List.mem_append_left _ he)
      kept := fun _ e he hdevice =>
        absurd hdevice (hf.entries e (List.mem_append_right _ (Table.mem_vals_of_get? he)))
      counts := hf.counts
      yields := nofun
      known := nofun }⟩

/-! ### Steps -/

/-- The steps that reach the device of a cache which has it to itself: those that work on the device
without touching a handle, and acquisitions from the cache. -/
inductive Reaches (s : Session) (n : Nat) (c : Cache) : Step → Prop where
  | operates {t : Step} (ht : t.operates = true) : Reaches s n c t
  | acquire {cache : String} (hc : s.cache? cache = some (n, c)) (stream : Stream) (name : String) :
    Reaches s n c (.acquire cache stream name)
  | race {cache : String} (hc : s.cache? cache = some (n, c)) (streams : List Stream) :
    Reaches s n c (.race cache streams)
  | prepareContext {name : String} {ctx : Context} (hctx : s.contexts.get? name = some ctx)
    (hn : ctx.cache = n) : Reaches s n c (.prepareContext name)

namespace Exclusive

theorem not_mem_entryDevice (hx : Exclusive n d past s c) (name : String) :
    d ∉ s.entryDevice name := by
  intro hd
  obtain ⟨e, he, hdevice⟩ := List.mem_map.mp hd
  exact hx.foreign e (Table.mem_vals_of_get? (Option.mem_toList.mp he)) hdevice

theorem cache?_of_mem (hx : Exclusive n d past s c) {name : String}
    (hd : d ∈ s.cacheDevice name) : s.cache? name = some (n, c) := by
  obtain ⟨⟨n', c'⟩, hc, hdevice⟩ := List.mem_map.mp hd
  have hc := Option.mem_toList.mp hc
  obtain ⟨-, hn'⟩ := get?_of_cache? hc
  have hsame : n' = n := hx.sole n' c' hn' hdevice
  subst hsame
  cases hn'.symm.trans hx.alive
  exact hc

theorem mem_cacheDevice (hx : Exclusive n d past s c) {name : String} {c' : Cache}
    (hc : s.cacheAt n name = some c') : d ∈ s.cacheDevice name := by
  have hc := cache?_of_cacheAt hc
  have hmem := Session.mem_cacheDevice hc
  cases (get?_of_cache? hc).2.symm.trans hx.alive
  rwa [hx.device] at hmem

theorem context_of_mem (hx : Exclusive n d past s c) {name : String}
    (hd : d ∈ s.contextDevice name) : ∃ ctx, s.contexts.get? name = some ctx ∧ ctx.cache = n := by
  obtain ⟨c', hc', hdevice⟩ := List.mem_map.mp hd
  obtain ⟨ctx, hctx, hn'⟩ := Option.bind_eq_some_iff.mp (Option.mem_toList.mp hc')
  exact ⟨ctx, hctx, hx.sole ctx.cache c' hn' hdevice⟩

/-- A step that reaches the device does not touch its handles, or acquires from the cache. -/
theorem reaches (hx : Exclusive n d past s c) (h : s.Sound) {t : Step} (ht : s.Reserves d t)
    (hd : d ∈ s.reached t) : s.Reaches n c t := by
  have hlt : d < s.world.devices.length := hx.device ▸ (h.cache n c hx.alive).device_lt
  cases t with
  | addDevice name => exact absurd (List.mem_singleton.mp hd) (Nat.ne_of_lt hlt)
  | addCacheWithDevice name device =>
    exact absurd (List.mem_singleton.mp hd) (Nat.ne_of_lt hlt)
  | arm | clearCalls | run => exact .operates rfl
  | createHandle | bindHandle | destroyHandle | addCache => exact absurd hd ht
  | addEntry name device stream =>
    rcases List.mem_append.mp hd with hd | hd
    · exact absurd hd ht
    · exact absurd hd (hx.not_mem_entryDevice name)
  | prepareEntry name | rebindEntry name | destroyEntry name | dropEntry name =>
    exact absurd hd (hx.not_mem_entryDevice name)
  | takeEntry name other | assignEntry name other =>
    rcases List.mem_append.mp hd with hd | hd
    · exact absurd hd (hx.not_mem_entryDevice name)
    · exact absurd hd (hx.not_mem_entryDevice other)
  | acquire cache stream name => exact .acquire (hx.cache?_of_mem hd) stream name
  | race cache streams => exact .race (hx.cache?_of_mem hd) streams
  | prepareContext name =>
    obtain ⟨ctx, hctx, hn⟩ := hx.context_of_mem hd
    exact .prepareContext hctx hn
  | _ => cases hd

/-- What is asked in a step that does not reach the device is found. -/
theorem asked_hits (hx : Exclusive n d past s c) {t : Step} (hd : d ∉ s.reached t) :
    ∀ q ∈ s.asked n t, ∃ id, q.2 = .ok id ∧ c.lookup q.1 = some id := by
  intro q hq
  cases t with
  | get cache stream name =>
    obtain ⟨c', hc', hq⟩ := List.mem_flatMap.mp hq
    obtain ⟨id, hid, rfl⟩ := List.mem_map.mp hq
    have hc := (get?_of_cache? (cache?_of_cacheAt (Option.mem_toList.mp hc'))).2
    cases hc.symm.trans hx.alive
    exact ⟨id, rfl, Option.mem_toList.mp hid⟩
  | acquire cache stream name =>
    obtain ⟨c', hc', -⟩ := List.mem_map.mp hq
    exact absurd (hx.mem_cacheDevice (Option.mem_toList.mp hc')) hd
  | race cache streams =>
    obtain ⟨c', hc', -⟩ := List.mem_flatMap.mp hq
    exact absurd (hx.mem_cacheDevice (Option.mem_toList.mp hc')) hd
  | prepareContext name =>
    obtain ⟨ctx, hctx, hq⟩ := List.mem_flatMap.mp hq
    split at hq
    · next hn =>
      have hmem := mem_contextDevice (Option.mem_toList.mp hctx) (hn ▸ hx.alive)
      exact absurd (hx.device ▸ hmem) hd
    · cases hq
  | _ => cases hq

/-! #### Steps that reach the device -/

/-- An acquisition by name, after which a reference is stored. -/
theorem acquire (hx : Exclusive n d past s c) (h : s.Sound) (stream : Stream) (name : String) :
    ∃ c', Exclusive n d
      (past ++
        [record (s.acquire n c stream name).1.world (stream, (c.acquire s.world stream).2.2)])
      (s.acquire n c stream name).1 c' := by
  obtain ⟨hput, hleft⟩ := hx.supply h stream
  obtain ⟨hkeeps, hslot, -⟩ := supply_keeps h hx.alive stream
  rw [Session.acquire, onWorld_eq]
  rcases heq : c.acquire s.world stream with ⟨w, c', f | id⟩ <;> rw [heq] at hput hleft hkeeps hslot
  · exact ⟨c, hleft f rfl⟩
  · have hget := get?_setCache_self { s with world := w } n c'
    obtain ⟨hanswer, -⟩ := answerShared_slot hkeeps.sound hget (hslot id rfl) name
    obtain ⟨e, he, -⟩ := hkeeps.sound.slot hget (hslot id rfl)
    have hsound := (answerShared_keeps hkeeps.sound ⟨e, he⟩ name).sound
    obtain ⟨w', hfst⟩ := answerShared_fst ({ s with world := w }.setCache n c') id name
    obtain ⟨hlast, -⟩ := hput.passage hkeeps.sound hsound hanswer not_false
      ⟨c', by rw [hfst]; exact hget⟩
    have hsame := hlast.recorded (List.mem_append_right past (List.mem_singleton_self _))
    rw [hsame] at hlast
    exact ⟨c', hlast⟩

/-- The preparation of a context. -/
theorem prepareContext (hx : Exclusive n d past s c) (h : s.Sound) {name : String} {ctx : Context}
    (hctx : s.contexts.get? name = some ctx) (hn : ctx.cache = n) :
    ∃ c', Exclusive n d
      (past ++ (ctx.asked s.world c).map (record (s.prepareContext name ctx c).1.world))
      (s.prepareContext name ctx c).1 c' := by
  subst hn
  rw [Session.prepareContext, Context.asked]
  cases hentry : ctx.entry with
  | some id =>
    refine ⟨c, hx.hits fun q hq => ⟨id, ?_, ?_⟩⟩
    · rw [List.mem_singleton.mp hq]
    · obtain ⟨c', hc', hid⟩ := h.context ctx (Table.mem_vals_of_get? hctx)
      cases hc'.symm.trans hx.alive
      rw [List.mem_singleton.mp hq]
      exact hid id hentry
  | none =>
    obtain ⟨hput, hleft⟩ := hx.supply h ctx.stream
    rw [onWorld_eq]
    rcases heq : c.acquire s.world ctx.stream with ⟨w, c', f | id⟩ <;> rw [heq] at hput hleft
    · exact ⟨c, hleft f rfl⟩
    · exact ⟨c', hput.congr rfl rfl rfl⟩

end Exclusive

/-! #### Steps that move no counter -/

/-- A step that works on a device without touching a handle moves no counter. -/
theorem step_idle (h : s.Sound) {t : Step} (ht : t.operates = true) :
    ∃ w, (s.step t).1 = { s with world := w } ∧ s.world.Idle w := by
  cases t with
  | arm device kind status =>
    rw [step]
    cases hs : s.devices.get? device with
    | none => exact ⟨s.world, rfl, .refl _⟩
    | some serial =>
      exact ⟨_, rfl, World.idle_setDevice (h.lt_of_device hs) (Device.counts_arm _ kind status)⟩
  | clearCalls device =>
    rw [step]
    cases hs : s.devices.get? device with
    | none => exact ⟨s.world, rfl, .refl _⟩
    | some serial =>
      exact ⟨_, rfl, World.idle_setDevice (h.lt_of_device hs) (Device.counts_clearCalls _)⟩
  | run target job =>
    obtain ⟨w, hw, rfl | ⟨f, rfl⟩ | ⟨serial, hs, hd, rfl⟩⟩ := s.run_ran job target
    · exact ⟨_, hw, .refl _⟩
    · exact ⟨_, hw, World.idle_emit _ _⟩
    · exact ⟨_, hw, World.idle_execute (h.lt_of_targetDevice hs) hd job⟩
  | _ => cases ht

namespace Exclusive

/-- **A cache keeps its device to itself.** -/
theorem step (hx : Exclusive n d past s c) (h : s.Sound) {t : Step} (ht : s.Reserves d t)
    (halive : ∃ c', (s.step t).1.cachePool.get? n = some c') :
    ∃ c', Exclusive n d (past ++ s.acquisitions n t) (s.step t).1 c' := by
  obtain ⟨lost, hout, -⟩ := step_outcome h t
  by_cases hd : d ∈ s.reached t
  · cases hx.reaches h ht hd with
    | operates hoperates =>
      obtain ⟨w, hw, hidle⟩ := step_idle h hoperates
      have hnone : s.acquisitions n t = [] := by cases t <;> first | rfl | cases hoperates
      rw [hnone, List.append_nil, hw]
      exact ⟨c, hx.idle hidle⟩
    | @acquire cache hc stream name =>
      have hstep : s.step (.acquire cache stream name) = s.acquire n c stream name := by
        rw [Session.step, hc]
        rfl
      rw [acquisitions, asked, cacheAt_of_cache? hc, hstep]
      exact hx.acquire h stream name
    | @race cache hc streams =>
      have hstep : s.step (.race cache streams) = s.race n c streams := by
        rw [Session.step, hc]
        rfl
      rw [acquisitions, asked, cacheAt_of_cache? hc, hstep, Option.toList_some,
        List.flatMap_singleton]
      exact ⟨_, hx.acquireAll h streams⟩
    | @prepareContext name ctx hctx hn =>
      have hstep : s.step (.prepareContext name) = s.prepareContext name ctx c := by
        rw [Session.step, hctx, named_some, hn, hx.alive]
        rfl
      rw [acquisitions, asked, hctx, hstep, Option.toList_some, List.flatMap_singleton, if_pos hn,
        hx.alive, Option.toList_some, List.flatMap_singleton]
      exact hx.prepareContext h hctx hn
  · obtain ⟨hsame, -⟩ := hx.passage h hout.sound (step_passage h t) hd halive
    exact ⟨c, hsame.hits (hx.asked_hits hd)⟩

/-- A step that asks the cache for nothing new leaves the device exactly as it is, whatever else it
does, unless it works on the device itself. -/
theorem still (hx : Exclusive n d past s c) (h : s.Sound) {t : Step} (ht : s.Reserves d t)
    (hoperates : t.operates = false) (hasked : ∀ q ∈ s.asked n t, c.contains q.1 = true)
    (halive : ∃ c', (s.step t).1.cachePool.get? n = some c') :
    (s.step t).1.world.device d = s.world.device d := by
  obtain ⟨lost, hout, -⟩ := step_outcome h t
  by_cases hd : d ∈ s.reached t
  · cases hx.reaches h ht hd with
    | operates htrue => cases hoperates.symm.trans htrue
    | @acquire cache hc stream name =>
      rw [asked, cacheAt_of_cache? hc] at hasked
      obtain ⟨id, hid⟩ := Cache.contains_iff.mp (hasked _ (List.mem_singleton_self _))
      have hstep : (s.step (.acquire cache stream name)).1 =
          ((s.setCache n c).answerShared id name).1 := by
        rw [Session.step, hc]
        show (s.acquire n c stream name).1 = _
        rw [Session.acquire, onWorld_eq, Cache.acquire_of_lookup _ hid]
      have hput : Exclusive n d past (s.setCache n c) c := putBack (s := s) (w := s.world) hx
      have hsound := (setCache_keeps h hx.alive).sound
      obtain ⟨hanswer, -⟩ := answerShared_slot hsound hput.alive hid name
      rw [hstep] at hout halive ⊢
      exact (hput.passage hsound hout.sound hanswer not_false halive).2
    | @race cache hc streams =>
      rw [asked, cacheAt_of_cache? hc, Option.toList_some, List.flatMap_singleton] at hasked
      have hall : ∀ stream ∈ streams, c.contains stream = true := by
        intro stream hmem
        have hlength := c.length_acquireAll s.world streams
        rw [← List.map_fst_zip (Nat.le_of_eq hlength.symm)] at hmem
        obtain ⟨q, hq, rfl⟩ := List.mem_map.mp hmem
        exact hasked q hq
      have hstep : (s.step (.race cache streams)).1.world = (c.acquireAll s.world streams).1 := by
        rw [Session.step, hc]
        rfl
      rw [hstep, Cache.acquireAll_of_contains s.world hall]
    | @prepareContext name ctx hctx hn =>
      rw [asked, hctx, Option.toList_some, List.flatMap_singleton, if_pos hn, hx.alive,
        Option.toList_some, List.flatMap_singleton, Context.asked] at hasked
      have hstep : (s.step (.prepareContext name)).1 = (s.prepareContext name ctx c).1 := by
        rw [Session.step, hctx, named_some, hn, hx.alive]
        rfl
      rw [hstep, Session.prepareContext]
      cases hentry : ctx.entry with
      | some id => rfl
      | none =>
        rw [hentry] at hasked
        obtain ⟨id, hid⟩ := Cache.contains_iff.mp (hasked _ (List.mem_singleton_self _))
        rw [onWorld_eq, Cache.acquire_of_lookup _ hid]
        rfl
  · exact (hx.passage h hout.sound (step_passage h t) hd halive).2

end Exclusive

/-! ### Runs -/

/-- A cache that is gone does not come back, since no number is given out twice. -/
theorem alive_of_after (h : s.Sound) (hn : n < s.cachePool.added) (steps : List Step)
    (halive : ∃ c, (s.after steps).cachePool.get? n = some c) :
    ∃ c, s.cachePool.get? n = some c := by
  induction steps generalizing s with
  | nil => exact halive
  | cons t rest ih =>
    obtain ⟨lost, hout, -⟩ := step_outcome h t
    have hpass := step_passage h t
    obtain ⟨c, hc⟩ := ih hout.sound (Nat.lt_of_lt_of_le hn hpass.addedCaches) halive
    rcases hpass.caches n c hc with ⟨c₀, hc₀, -⟩ | ⟨hnew, -⟩
    · exact ⟨c₀, hc₀⟩
    · exact absurd hn (Nat.not_lt.mpr hnew)

namespace Exclusive

/-- The history of a cache explains the counters of its device after every run that it survives. -/
theorem after (hx : Exclusive n d past s c) (h : s.Sound) (steps : List Step)
    (hall : Along (Reserves d) s steps)
    (halive : ∃ c', (s.after steps).cachePool.get? n = some c') :
    ∃ c', Exclusive n d (past ++ s.history n steps) (s.after steps) c' := by
  induction steps generalizing s c past with
  | nil => exact ⟨c, by rwa [history, List.append_nil]⟩
  | cons t rest ih =>
    obtain ⟨lost, hout, -⟩ := step_outcome h t
    have hn := Nat.lt_of_lt_of_le (h.cachePool.lt_added n c hx.alive) (step_passage h t).addedCaches
    obtain ⟨c', hstep⟩ := hx.step h hall.1 (alive_of_after hout.sound hn rest halive)
    obtain ⟨c'', hrest⟩ := ih hstep hout.sound hall.2 halive
    rw [List.append_assoc] at hrest
    exact ⟨c'', hrest⟩

end Exclusive

/-! ### The accounts -/

/-- The accounts of a cache that has a device to itself, with what came of asking it so far. -/
structure Accounts (s : Session) (n d : Nat) (past : List Acquisition) (c : Cache) : Prop where
  bound : (s.world.device d).bound = c.size
  destroyed : (s.world.device d).destroyed = failedBinds past
  created : (s.world.device d).created = c.size + failedBinds past
  live : (s.world.device d).live = c.size
  /-- The cache keeps an entry for each stream that was ever acquired. -/
  size : c.size = (past.filterMap Acquisition.stream?).dedup.length
  /-- Whoever acquired a stream got the entry that is still there, with the same handle. -/
  yields : ∀ a ∈ past, ∀ id found, a.answer = .ok (id, found) →
    c.lookup a.stream = some id ∧ ∃ e h, found = some e ∧ s.world.pool.get? id = some e ∧
      e.handle = some h ∧ h.issuer = d ∧ h.stream = some a.stream
  /-- What asks the cache for nothing new does nothing to the device. -/
  still : ∀ t, s.Reserves d t → t.operates = false →
    (∀ q ∈ s.asked n t, c.contains q.1 = true) →
      (∃ c', (s.step t).1.cachePool.get? n = some c') →
        (s.step t).1.world.device d = s.world.device d

/-- The streams with an entry are those that were acquired. -/
theorem Exclusive.size_eq (hx : Exclusive n d past s c) (h : s.Sound) :
    c.size = (past.filterMap Acquisition.stream?).dedup.length := by
  have hsize : c.size = c.streams.length := (List.length_map _).symm
  rw [hsize]
  refine List.Perm.length_eq ((List.perm_ext_iff_of_nodup (h.cache n c hx.alive).keyed
    (List.nodup_dedup _)).mpr fun stream => ?_)
  rw [List.mem_dedup, List.mem_filterMap]
  refine Iff.trans Table.mem_keys_iff ⟨?_, ?_⟩
  · rintro ⟨id, hid⟩
    obtain ⟨a, ha, rfl, r, hr⟩ := hx.known stream id hid
    exact ⟨a, ha, by rw [Acquisition.stream?, hr]⟩
  · rintro ⟨a, ha, hstream⟩
    rw [Acquisition.stream?] at hstream
    split at hstream
    · next r hr =>
      cases hstream
      exact ⟨r.1, (hx.yields a ha r.1 r.2 hr).1⟩
    · cases hstream

theorem Exclusive.accounts (hx : Exclusive n d past s c) (h : s.Sound) : s.Accounts n d past c := by
  have hcounts := hx.counts
  rw [Device.counts, Device.Counts.mk.injEq] at hcounts
  obtain ⟨hcreated, hbound, hdestroyed⟩ := hcounts
  refine
    { bound := hbound
      destroyed := hdestroyed
      created := hcreated
      live := ?_
      size := hx.size_eq h
      yields := fun a ha id found hok => ?_
      still := fun t ht hoperates hasked halive => hx.still h ht hoperates hasked halive }
  · rw [Device.live]
    omega
  · obtain ⟨hid, hfound⟩ := hx.yields a ha id found hok
    obtain ⟨e, he, ⟨hd, hhd, hissuer, hstream⟩, hsame, hdevice⟩ := h.slot hx.alive hid
    refine ⟨hid, e, hd, hfound.symm.trans he, he, hhd, ?_, ?_⟩
    · rw [hissuer, hdevice, hx.device]
    · rw [hstream, hsame]

/-- **The accounts of a cache over whole runs.** A run is any list of steps, so this is what holds
after each of its steps, as long as somebody keeps the cache and nobody else claims its device. -/
theorem cache_accounts (before steps : List Step) (hfounded : (empty.after before).Founded n d)
    (hall : Along (Reserves d) (empty.after before) steps)
    (hc : ((empty.after before).after steps).cachePool.get? n = some c) :
    ((empty.after before).after steps).Accounts n d ((empty.after before).history n steps) c := by
  have hsound := after_sound before
  have hlast : ((empty.after before).after steps).Sound := by
    rw [← after_append]
    exact after_sound (before ++ steps)
  obtain ⟨c₀, hx₀⟩ := hfounded.exclusive
  obtain ⟨c', hx⟩ := hx₀.after hsound steps hall ⟨c, hc⟩
  cases hx.alive.symm.trans hc
  exact hx.accounts hlast

/-- A run in which making a handle, binding one and running a routine fail in turn, several streams
are acquired at once, and references and contexts come and go. -/
def troubledRun : List Step :=
  [.arm "d" .bind .mappingError, .acquire "c" ⟨1⟩ "r", .arm "d" .create .allocFailed,
    .acquire "c" ⟨1⟩ "r", .acquire "c" ⟨1⟩ "r", .addContext "x" "c" ⟨1⟩, .prepareContext "x",
    .arm "d" .routine .executionFailed,
    .run (.context "x") (.double (.offsetsOfRows [0, 2, 2] 3 [9, 9, 9, 9])),
    .arm "d" .bind .internalError, .race "c" [⟨1⟩, ⟨2⟩, ⟨3⟩], .addContext "y" "c" ⟨2⟩,
    .prepareContext "y", .arm "d" .destroy .executionFailed, .get "c" ⟨2⟩ "q", .dropReference "r",
    .dropContext "x", .contains "c" ⟨1⟩]

theorem troubledRun_accounts :
    let s := empty.after [.addCacheWithDevice "c" "d"]
    let c : Cache := ⟨0, [(⟨2⟩, 2), (⟨3⟩, 1), (⟨1⟩, 0)], []⟩
    (s.Founded 0 0 ∧ Along (Reserves 0) s troubledRun ∧
      (s.after troubledRun).cachePool.get? 0 = some c) ∧
      failedBinds (s.history 0 troubledRun) = 2 ∧
      (s.after troubledRun).Accounts 0 0 (s.history 0 troubledRun) c := by
  intro s c
  have hfounded : s.Founded 0 0 :=
    ⟨⟨[], by decide +kernel⟩, by decide +kernel, by decide +kernel, by decide +kernel⟩
  have hall : Along (Reserves 0) s troubledRun := by decide +kernel
  have hc : (s.after troubledRun).cachePool.get? 0 = some c := by decide +kernel
  exact ⟨⟨hfounded, hall, hc⟩, by decide +kernel,
    cache_accounts [.addCacheWithDevice "c" "d"] troubledRun hfounded hall hc⟩

end Session

end SparseDevice
