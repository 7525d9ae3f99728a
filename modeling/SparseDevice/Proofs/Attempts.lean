import SparseDevice.Proofs.Attempts.Refusal
import SparseDevice.Proofs.Ownership.Run

/-!
# Attempts to bring up a handle

There are three ways to ask for a handle that is not there yet: to acquire a stream that a cache does
not keep, to prepare a context on such a stream, and to prepare an entry of one's own. They come down
to the same. Either the device is not armed against making and binding a handle, and then the entry
is up; or it is, and then the answer says which of the two it refused and with what status, and
nothing has changed that anyone could hold on to: no table, no cache, no shared entry, no handle that
is out and no record of a call. What the device was armed with is used up as far as it was met.

So the same attempt can be made again. However many attempts fail, and whatever the devices are armed
with in the meantime, the next one succeeds as soon as nothing stands in its way.

## Main definitions

* `Session.attempt?`, `Session.Attempts`: what a step attempts, if it does, and the three ways to do
  so.
* `Session.Untouched`: a session in which nothing has changed but what its devices are armed with,
  what they count and the log.
* `Session.Settles`: what an attempt comes to.

## Main results

* `Session.step_of_refusal`: an attempt that fails.
* `Session.attempts_settle`: every attempt, after every run and after any attempts that failed.
-/

namespace SparseDevice

/-- An attempt to bring up a handle. -/
structure Attempt where
  /-- The serial number of the device that is asked for it. -/
  device : Nat
  /-- The stream that it is for. -/
  stream : Stream
  /-- What is recorded before the device is asked. -/
  announced : List Event
  /-- What a refusal is answered with. -/
  failure : InitFailure → Failure

/-- The steps that arm a device. -/
def Step.arms : Step → Bool
  | .arm _ _ _ => true
  | _ => false

namespace Session

/-- What a step attempts, if it is to bring up a handle that is not there yet. -/
def attempt? (s : Session) : Step → Option Attempt
  | .acquire cache stream _ =>
    (s.cache? cache).bind fun (_, c) =>
      match c.lookup stream with
      | some _ => none
      | none => some ⟨c.device, stream, [.creating stream], .initialization⟩
  | .prepareContext name =>
    (s.contexts.get? name).bind fun ctx =>
      (s.cachePool.get? ctx.cache).bind fun c =>
        match ctx.entry, c.lookup ctx.stream with
        | none, none =>
          some ⟨c.device, ctx.stream, [.creating ctx.stream], fun f => .context (.handle f)⟩
        | _, _ => none
  | .prepareEntry name =>
    (s.entries.get? name).bind fun e =>
      match e.handle with
      | some _ => none
      | none => some ⟨e.device, e.stream, [], .initialization⟩
  | _ => none

/-- The entry that a step is to bring up. -/
def entryOf? (s : Session) : Step → Option Entry
  | .acquire cache stream _ =>
    (s.cache? cache).bind fun (_, c) => (c.lookup stream).bind s.world.pool.get?
  | .prepareContext name =>
    (s.contexts.get? name).bind fun ctx => ctx.entry.bind s.world.pool.get?
  | .prepareEntry name => s.entries.get? name
  | _ => none

/-- Where a step stores a reference, the name is not in use. -/
def Spared (s : Session) : Step → Prop
  | .acquire _ _ id => s.references.get? id = none
  | _ => True

/-- Nothing that anyone could hold on to has changed. -/
structure Untouched (s s' : Session) : Prop where
  /-- Tables, caches and names are as before. -/
  tables : s' = { s with world := s'.world }
  /-- So are the shared entries, -/
  pool : s'.world.pool = s.world.pool
  /-- the records of calls, -/
  calls : ∀ serial, (s'.world.device serial).calls = (s.world.device serial).calls
  /-- and the number of handles that are out. -/
  live : ∀ serial, (s'.world.device serial).live = (s.world.device serial).live
  /-- No call has ended without an answer. -/
  faultless : ∀ f, Event.fault f ∈ s'.world.log → Event.fault f ∈ s.world.log

/-- What an attempt comes to. -/
structure Settles (s : Session) (t : Step) (a : Attempt) : Prop where
  /-- It fails exactly if the device is armed against making or binding a handle. -/
  fails_iff : (∃ f, (s.step t).2 = .failure f) ↔ ¬(s.world.device a.device).Unarmed
  /-- Then nothing is touched, and the attempt can be made again. -/
  untouched : ¬(s.world.device a.device).Unarmed →
    s.Untouched (s.step t).1 ∧ (s.step t).1.attempt? t = some a ∧
      ∀ other, other ≠ a.device → (s.step t).1.world.device other = s.world.device other
  /-- A handle that is not made: its status is used up, and nothing else happens. -/
  creation : (s.world.device a.device).armed.create ≠ .success →
    (s.step t).2 = .failure (a.failure
      ⟨a.stream.label, .create, (s.world.device a.device).armed.create⟩) ∧
    (s.step t).1.world.device a.device = (s.world.device a.device).arm .create .success ∧
    (s.step t).1.world.log = s.world.log ++ a.announced
  /-- A handle that is made and not bound: it goes back, and if that fails too there is one
  warning. -/
  binding : (s.world.device a.device).armed.create = .success →
    (s.world.device a.device).armed.bind ≠ .success →
    (s.step t).2 = .failure (a.failure
      ⟨a.stream.label, .bindStream, (s.world.device a.device).armed.bind⟩) ∧
    (s.step t).1.world.device a.device = (s.world.device a.device).bindingRefused ∧
    (s.step t).1.world.log = s.world.log ++ a.announced ++
      if (s.world.device a.device).armed.destroy = .success then []
      else [.releaseFailed a.stream (s.world.device a.device).armed.destroy]
  /-- Otherwise the entry is up. -/
  provides : (s.world.device a.device).Unarmed →
    ∃ e, (s.step t).1.entryOf? t = some e ∧ e.Ready ∧ e.stream = a.stream ∧ e.device = a.device
  /-- One handle was made and bound, and there is no fault, unless another entry goes on the way. -/
  answers : (s.world.device a.device).Unarmed → s.Spared t →
    (∃ v, (s.step t).2 = .value v) ∧
      (s.step t).1.world.device a.device = (s.world.device a.device).grownBy 1

variable {s s' s'' : Session} {t : Step} {a : Attempt}

/-! ### Sessions that are untouched -/

theorem Untouched.refl (s : Session) : s.Untouched s where
  tables := rfl
  pool := rfl
  calls _ := rfl
  live _ := rfl
  faultless _ h := h

theorem Untouched.trans (h : s.Untouched s') (h' : s'.Untouched s'') : s.Untouched s'' where
  tables := by rw [h'.tables, h.tables]
  pool := h'.pool.trans h.pool
  calls serial := (h'.calls serial).trans (h.calls serial)
  live serial := (h'.live serial).trans (h.live serial)
  faultless f hf := h.faultless f (h'.faultless f hf)

/-- What a step attempts can be attempted again. -/
theorem Untouched.attempt?_eq (h : s.Untouched s') (t : Step) : s'.attempt? t = s.attempt? t := by
  rw [h.tables]
  cases t <;> rfl

/-- A change of one device that is no call and leaves the number of its handles as it is. -/
theorem untouched_of_setDevice {serial : Nat} (hs : serial < s.world.devices.length) {d : Device}
    (hcalls : d.calls = (s.world.device serial).calls)
    (hlive : d.live = (s.world.device serial).live) {log : List Event}
    (hlog : ∀ f, Event.fault f ∈ log → Event.fault f ∈ s.world.log) :
    s.Untouched { s with world := { s.world.setDevice serial d with log } } where
  tables := rfl
  pool := rfl
  calls := World.apply_setDevice Device.calls hs hcalls
  live := World.apply_setDevice Device.live hs hlive
  faultless := hlog

/-! ### The three ways -/

/-- The steps that attempt to bring up a handle, and where they find what they need. -/
inductive Attempts (s : Session) : Step → Attempt → Prop
  | acquire {cache name : String} {stream : Stream} {n : Nat} {c : Cache}
    (hc : s.cache? cache = some (n, c)) (hnone : c.lookup stream = none) :
    Attempts s (.acquire cache stream name) ⟨c.device, stream, [.creating stream], .initialization⟩
  | prepareContext {name : String} {ctx : Context} {c : Cache}
    (hctx : s.contexts.get? name = some ctx) (hc : s.cachePool.get? ctx.cache = some c)
    (hentry : ctx.entry = none) (hnone : c.lookup ctx.stream = none) :
    Attempts s (.prepareContext name)
      ⟨c.device, ctx.stream, [.creating ctx.stream], fun f => .context (.handle f)⟩
  | prepareEntry {name : String} {e : Entry} (he : s.entries.get? name = some e)
    (hnone : e.handle = none) :
    Attempts s (.prepareEntry name) ⟨e.device, e.stream, [], .initialization⟩

theorem attempts_of_attempt? (ha : s.attempt? t = some a) : s.Attempts t a := by
  cases t with
  | acquire cache stream id =>
    obtain ⟨⟨n, c⟩, hc, ha⟩ := Option.bind_eq_some_iff.mp ha
    simp only at ha
    split at ha
    · cases ha
    · next hnone =>
      cases ha
      exact .acquire hc hnone
  | prepareContext name =>
    obtain ⟨ctx, hctx, ha⟩ := Option.bind_eq_some_iff.mp ha
    obtain ⟨c, hc, ha⟩ := Option.bind_eq_some_iff.mp ha
    split at ha
    · next hentry hnone =>
      cases ha
      exact .prepareContext hctx hc hentry hnone
    · cases ha
  | prepareEntry name =>
    obtain ⟨e, he, ha⟩ := Option.bind_eq_some_iff.mp ha
    split at ha
    · cases ha
    · next hnone =>
      cases ha
      exact .prepareEntry he hnone
  | _ => cases ha

theorem Attempts.attempt?_eq (ha : s.Attempts t a) : s.attempt? t = some a := by
  cases ha with
  | acquire hc hnone => simp only [attempt?, hc, Option.bind_some, hnone]
  | prepareContext hctx hc hentry hnone =>
    simp only [attempt?, hctx, hc, Option.bind_some, hentry, hnone]
  | prepareEntry he hnone => simp only [attempt?, he, Option.bind_some, hnone]

/-- The device of an attempt is there. -/
theorem Attempts.lt (h : s.Sound) (ha : s.Attempts t a) : a.device < s.world.devices.length := by
  cases ha with
  | acquire hc hnone => exact (h.cache _ _ (get?_of_cache? hc).2).device_lt
  | prepareContext hctx hc hentry hnone => exact (h.cache _ _ hc).device_lt
  | prepareEntry he hnone => exact (h.entry_of_get? he).1

/-- No attempt announces a fault. -/
theorem Attempts.not_mem_announced (ha : s.Attempts t a) (f : Fault) :
    Event.fault f ∉ a.announced := by
  cases ha <;> simp

/-! ### Attempts that fail -/

/-- **An attempt that fails** does what the device does to refuse it, and nothing else. -/
theorem step_of_refusal (h : s.Sound) (ha : s.Attempts t a) {f : InitFailure}
    (hf : (s.world.device a.device).refusal? a.stream = some f) :
    s.step t = ({ s with world := s.world.refuse a.announced a.device a.stream },
      .failure (a.failure f)) := by
  have hlt := ha.lt h
  cases ha with
  | acquire hc hnone =>
    have hsupply := Cache.supply_of_refusal hlt hnone hf
    rw [← Cache.acquire_eq_supply] at hsupply
    simp only [step, hc, named_some, acquire, onWorld_eq, hsupply]
  | prepareContext hctx hc hentry hnone =>
    have hsupply := Cache.supply_of_refusal hlt hnone hf
    rw [← Cache.acquire_eq_supply] at hsupply
    simp only [step, hctx, hc, named_some, prepareContext, hentry, onWorld_eq, hsupply]
  | prepareEntry he hnone =>
    have hprepare := World.prepare_of_refusal hlt hnone hf
    simp only [step, he, named_some, prepareEntry, onWorld_eq, hprepare]

/-- A refusal touches nothing. -/
theorem untouched_of_refusal (h : s.Sound) (ha : s.Attempts t a)
    (hu : ¬(s.world.device a.device).Unarmed) : s.Untouched (s.step t).1 := by
  obtain ⟨f, hf⟩ := Device.exists_refusal hu a.stream
  rw [step_of_refusal h ha hf]
  refine untouched_of_setDevice (ha.lt h) (Device.calls_refused _) (Device.live_refused _) ?_
  intro fault hfault
  rcases List.mem_append.mp hfault with hfault | hwarning
  · exact (List.mem_append.mp hfault).resolve_right (ha.not_mem_announced fault)
  · rw [Device.warnings] at hwarning
    split at hwarning
    · cases List.mem_singleton.mp hwarning
    · cases hwarning

/-! ### Attempts that succeed -/

/-- A cache keeps an entry that is up for a stream that it did not keep. -/
theorem acquire_of_unarmed (h : s.Sound) {n : Nat} {c : Cache} (hn : s.cachePool.get? n = some c)
    {stream : Stream} (hnone : c.lookup stream = none)
    (hu : (s.world.device c.device).Unarmed) :
    ∃ w id e hd, c.acquire s.world stream =
        (w, { c with slots := c.slots.insert stream id }, .ok id) ∧
      w.pool.get? id = some e ∧ e.handle = some hd ∧
      w.device c.device = (s.world.device c.device).grownBy 1 := by
  obtain ⟨hkeeps, hslot, -⟩ := supply_keeps h hn stream
  obtain ⟨w, id, hsupply, hdevice, -⟩ :=
    Cache.supply_of_unarmed (h.cache n c hn).device_lt hnone hu
  rw [← Cache.acquire_eq_supply] at hsupply
  rw [hsupply] at hkeeps hslot
  obtain ⟨e, he, ⟨hd, hhandle, -⟩, -⟩ :=
    hkeeps.sound.slot (get?_setCache_self _ n _) (hslot id rfl)
  exact ⟨w, id, e, hd, hsupply, he, hhandle, hdevice⟩

/-- A stream that is acquired is stored under the name of a reference. -/
theorem step_acquire_of_unarmed (h : s.Sound) {cache name : String} {stream : Stream} {n : Nat}
    {c : Cache} (hc : s.cache? cache = some (n, c)) (hnone : c.lookup stream = none)
    (hu : (s.world.device c.device).Unarmed) :
    ∃ w id e hd, s.step (.acquire cache stream name) = ({ s with world := w }.setCache n
        { c with slots := c.slots.insert stream id }).answerShared id name ∧
      w.pool.get? id = some e ∧ e.handle = some hd ∧
      w.device c.device = (s.world.device c.device).grownBy 1 := by
  obtain ⟨w, id, e, hd, hacquire, hrest⟩ := acquire_of_unarmed h (get?_of_cache? hc).2 hnone hu
  refine ⟨w, id, e, hd, ?_, hrest⟩
  simp only [step, hc, named_some, acquire, onWorld_eq, hacquire]

/-- A context that is prepared holds what its cache keeps. -/
theorem step_prepareContext_of_unarmed (h : s.Sound) {name : String} {ctx : Context} {c : Cache}
    (hctx : s.contexts.get? name = some ctx) (hc : s.cachePool.get? ctx.cache = some c)
    (hentry : ctx.entry = none) (hnone : c.lookup ctx.stream = none)
    (hu : (s.world.device c.device).Unarmed) :
    ∃ w id, s.step (.prepareContext name) = ({ { s with world := w }.setCache ctx.cache
        { c with slots := c.slots.insert ctx.stream id } with
          contexts := s.contexts.insert name { ctx with entry := some id } }, .done) ∧
      w.device c.device = (s.world.device c.device).grownBy 1 := by
  obtain ⟨w, id, -, -, hacquire, -, -, hdevice⟩ := acquire_of_unarmed h hc hnone hu
  refine ⟨w, id, ?_, hdevice⟩
  simp only [step, hctx, hc, named_some, prepareContext, hentry, onWorld_eq, hacquire]

/-- An entry of one's own is up when it is prepared. -/
theorem step_prepareEntry_of_unarmed (h : s.Sound) {name : String} {e : Entry}
    (he : s.entries.get? name = some e) (hnone : e.handle = none)
    (hu : (s.world.device e.device).Unarmed) :
    ∃ w e', s.step (.prepareEntry name) =
        ({ s with world := w, entries := s.entries.insert name e' }, .done) ∧
      (e'.Ready ∧ e'.stream = e.stream ∧ e'.device = e.device) ∧
      w.device e.device = (s.world.device e.device).grownBy 1 := by
  have hlt := (h.entry_of_get? he).1
  obtain ⟨w, hd, hprepare, hdevice, -⟩ := World.prepare_of_unarmed hlt hnone hu
  have hstep : s.step (.prepareEntry name) = ({ s with
      world := w, entries := s.entries.insert name { e with handle := some hd } }, .done) := by
    simp only [step, he, named_some, prepareEntry, onWorld_eq, hprepare]
  rcases World.prepare_cases h.numbered hlt with
    ⟨⟨hd', hup⟩, -⟩ | ⟨-, w', id, hcase, -⟩ | ⟨-, w', f, made, hcase, -⟩
  · cases hnone.symm.trans hup
  · cases hprepare.symm.trans hcase
    exact ⟨w, _, hstep, ⟨⟨_, rfl, rfl, rfl⟩, rfl, rfl⟩, hdevice⟩
  · cases congrArg (fun answer => answer.2.2) (hprepare.symm.trans hcase)

/-- A reference under a name that is not in use leads to the handle of the entry. -/
theorem answerShared_of_spared {name : String} (hname : s.references.get? name = none) {id : Nat}
    {e : Entry} {hd : Handle} (he : s.world.pool.get? id = some e) (hhandle : e.handle = some hd) :
    s.answerShared id name =
      ({ s with references := s.references.insert name id }, .value (.handle hd)) := by
  simp only [answerShared, putReference_of_get?_eq_none hname, he, named_some, answerHandle,
    onWorld_eq, World.require, hhandle]

/-- What a cache keeps is found by the name of the cache. -/
theorem entryOf?_acquire {cache id : String} {stream : Stream} {n shared : Nat} {c : Cache}
    {e : Entry} (hname : s.caches.get? cache = some n) (hn : s.cachePool.get? n = some c)
    (hslot : c.lookup stream = some shared) (he : s.world.pool.get? shared = some e) :
    s.entryOf? (.acquire cache stream id) = some e := by
  simp only [entryOf?, cache?, hname, hn, Option.bind_some, Option.map_some, hslot, he]

theorem provides_of_unarmed (h : s.Sound) (ha : s.Attempts t a)
    (hu : (s.world.device a.device).Unarmed) :
    ∃ e, (s.step t).1.entryOf? t = some e ∧ e.Ready ∧ e.stream = a.stream ∧ e.device = a.device := by
  obtain ⟨lost, hout, -⟩ := step_outcome h t
  have hsound := hout.sound
  cases ha with
  | @acquire cache name stream n c hc hnone =>
    obtain ⟨w, id, -, -, hstep, -⟩ := step_acquire_of_unarmed h hc hnone hu
    -- storing the reference may let another entry go, but not the one that the cache keeps
    obtain ⟨w', hfst⟩ := answerShared_fst ({ s with world := w }.setCache n
      { c with slots := c.slots.insert stream id }) id name
    rw [hstep, hfst] at hsound ⊢
    have hn := get?_setCache_self { s with world := w' } n
      { c with slots := c.slots.insert stream id }
    obtain ⟨e, he, hready⟩ := hsound.slot hn (Table.get?_insert_self _ _ _)
    exact ⟨e, entryOf?_acquire (get?_of_cache? hc).1 hn (Table.get?_insert_self _ _ _) he, hready⟩
  | prepareContext hctx hc hentry hnone =>
    obtain ⟨w, id, hstep, -⟩ := step_prepareContext_of_unarmed h hctx hc hentry hnone hu
    rw [hstep] at hsound ⊢
    obtain ⟨e, he, hready⟩ := hsound.slot (get?_setCache_self { s with world := w } _ _)
      (Table.get?_insert_self _ _ _)
    refine ⟨e, ?_, hready⟩
    simp only [entryOf?, Table.get?_insert_self, Option.bind_some]
    exact he
  | prepareEntry he hnone =>
    obtain ⟨w, e', hstep, hready, -⟩ := step_prepareEntry_of_unarmed h he hnone hu
    refine ⟨e', ?_, hready⟩
    rw [hstep]
    exact Table.get?_insert_self _ _ _

theorem answers_of_unarmed (h : s.Sound) (ha : s.Attempts t a)
    (hu : (s.world.device a.device).Unarmed) (ht : s.Spared t) :
    (∃ v, (s.step t).2 = .value v) ∧
      (s.step t).1.world.device a.device = (s.world.device a.device).grownBy 1 := by
  cases ha with
  | @acquire cache name stream n c hc hnone =>
    obtain ⟨w, id, e, hd, hstep, he, hhandle, hdevice⟩ := step_acquire_of_unarmed h hc hnone hu
    have hname : ({ s with world := w }.setCache n
        { c with slots := c.slots.insert stream id }).references.get? name = none := ht
    rw [hstep, answerShared_of_spared hname he hhandle]
    exact ⟨⟨_, rfl⟩, hdevice⟩
  | prepareContext hctx hc hentry hnone =>
    obtain ⟨w, id, hstep, hdevice⟩ := step_prepareContext_of_unarmed h hctx hc hentry hnone hu
    rw [hstep]
    exact ⟨⟨_, rfl⟩, hdevice⟩
  | prepareEntry he hnone =>
    obtain ⟨w, e', hstep, -, hdevice⟩ := step_prepareEntry_of_unarmed h he hnone hu
    rw [hstep]
    exact ⟨⟨_, rfl⟩, hdevice⟩

/-- An attempt is refused by the device or by nobody. -/
theorem ne_failure_of_unarmed (h : s.Sound) (ha : s.Attempts t a)
    (hu : (s.world.device a.device).Unarmed) (f : Failure) : (s.step t).2 ≠ .failure f := by
  cases ha with
  | acquire hc hnone =>
    obtain ⟨w, id, -, -, hstep, -⟩ := step_acquire_of_unarmed h hc hnone hu
    rw [hstep]
    exact answerShared_ne_failure _ id _ f
  | prepareContext hctx hc hentry hnone =>
    obtain ⟨w, id, hstep, -⟩ := step_prepareContext_of_unarmed h hctx hc hentry hnone hu
    rw [hstep]
    intro hanswer
    cases hanswer
  | prepareEntry he hnone =>
    obtain ⟨w, e', hstep, -⟩ := step_prepareEntry_of_unarmed h he hnone hu
    rw [hstep]
    intro hanswer
    cases hanswer

/-! ### What an attempt comes to -/

theorem settles (h : s.Sound) (ha : s.Attempts t a) : s.Settles t a where
  fails_iff := by
    constructor
    · rintro ⟨f, hf⟩ hu
      exact ne_failure_of_unarmed h ha hu f hf
    · intro hu
      obtain ⟨f, hf⟩ := Device.exists_refusal hu a.stream
      exact ⟨_, congrArg Prod.snd (step_of_refusal h ha hf)⟩
  untouched hu := by
    have huntouched := untouched_of_refusal h ha hu
    refine ⟨huntouched, (huntouched.attempt?_eq t).trans ha.attempt?_eq, fun other hother => ?_⟩
    obtain ⟨f, hf⟩ := Device.exists_refusal hu a.stream
    rw [step_of_refusal h ha hf]
    exact World.device_refuse_of_ne hother
  creation hcreate := by
    rw [step_of_refusal h ha (if_pos hcreate)]
    refine ⟨rfl, ?_, ?_⟩
    · exact (World.device_refuse_self (ha.lt h)).trans (if_pos hcreate)
    · rw [World.log_refuse, Device.warnings, if_neg fun h => hcreate h.1, List.append_nil]
  binding hcreate hbind := by
    rw [step_of_refusal h ha ((if_neg (not_not.mpr hcreate)).trans (if_pos hbind))]
    refine ⟨rfl, ?_, ?_⟩
    · exact (World.device_refuse_self (ha.lt h)).trans (if_neg (not_not.mpr hcreate))
    · rw [World.log_refuse, Device.warnings]
      by_cases hdestroy : (s.world.device a.device).armed.destroy = .success
      · rw [if_neg fun h => h.2 hdestroy, if_pos hdestroy]
      · rw [if_pos ⟨hcreate, hdestroy⟩, if_neg hdestroy]
  provides := provides_of_unarmed h ha
  answers := answers_of_unarmed h ha

/-! ### Attempts again and again -/

/-- A step that arms a device, or an attempt that fails. -/
def Fruitless (s : Session) (t : Step) : Prop :=
  t.arms = true ∨ ∃ a ∈ s.attempt? t, ¬(s.world.device a.device).Unarmed

instance (s : Session) (t : Step) : Decidable (s.Fruitless t) :=
  inferInstanceAs (Decidable (t.arms = true ∨
    ∃ a ∈ s.attempt? t, ¬(s.world.device a.device).Unarmed))

theorem Fruitless.untouched (h : s.Sound) (ht : s.Fruitless t) : s.Untouched (s.step t).1 := by
  rcases ht with harms | ⟨a, ha, hu⟩
  · cases t with
    | arm device kind status =>
      rw [step]
      cases hdevice : s.devices.get? device with
      | none => exact .refl s
      | some serial =>
        exact untouched_of_setDevice (d := (s.world.device serial).arm kind status)
          (h.lt_of_device hdevice) rfl rfl fun f (hf : Event.fault f ∈ s.world.log) => hf
    | _ => cases harms
  · exact untouched_of_refusal h (attempts_of_attempt? ha) hu

/-- **Every attempt brings up a handle or touches nothing, after every run,** and so does the same
attempt after any others that failed. -/
theorem attempts_settle {steps : List Step} (ha : (empty.after steps).attempt? t = some a) :
    (empty.after steps).Settles t a ∧
      ∀ later, Along Fruitless (empty.after steps) later →
        (empty.after steps).Untouched ((empty.after steps).after later) ∧
          ((empty.after steps).after later).Settles t a := by
  have hsound := after_sound steps
  refine ⟨settles hsound (attempts_of_attempt? ha), fun later hlater => ?_⟩
  obtain ⟨hlast, huntouched⟩ := after_of_step (P := (empty.after steps).Untouched)
    (fun s t hs huntouched ht => huntouched.trans (ht.untouched hs)) hsound (.refl _) later hlater
  refine ⟨huntouched, settles hlast (attempts_of_attempt? ?_)⟩
  rw [huntouched.attempt?_eq, ha]

/-- A run after which a device is armed against binding a handle and against taking it back. -/
def armedTwice : List Step :=
  [.addDevice "d", .addCache "c" "d", .addContext "x" "c" ⟨7⟩, .arm "d" .bind .mappingError,
    .arm "d" .destroy .internalError]

/-- An acquisition that fails with a warning; the preparation of a context on the same stream, which
fails when the device is armed against making a handle; and the acquisition again. -/
theorem armedTwice_settles :
    let s := empty.after armedTwice
    let t : Step := .acquire "c" ⟨7⟩ "r"
    let a : Attempt := ⟨0, ⟨7⟩, [.creating ⟨7⟩], .initialization⟩
    let later : List Step := [t, .arm "d" .create .allocFailed, .prepareContext "x"]
    (s.attempt? t = some a ∧ Along Fruitless s later) ∧
      ((s.step t).2 = .failure (.initialization ⟨a.stream.label, .bindStream, .mappingError⟩) ∧
        (s.step t).1.world.log =
          s.world.log ++ [.creating ⟨7⟩] ++ [.releaseFailed ⟨7⟩ .internalError]) ∧
      s.Untouched (s.after later) ∧ ∃ v, ((s.after later).step t).2 = .value v := by
  intro s t a later
  have ha : s.attempt? t = some a := rfl
  have hlater : Along Fruitless s later := by decide +kernel
  obtain ⟨hsettles, hagain⟩ := attempts_settle ha
  obtain ⟨huntouched, hlast⟩ := hagain later hlater
  have hunarmed : ((s.after later).world.device a.device).Unarmed := by decide +kernel
  have hspared : (s.after later).Spared t := rfl
  have hcreate : (s.world.device a.device).armed.create = .success := by decide +kernel
  have hbind : (s.world.device a.device).armed.bind ≠ .success := by decide +kernel
  obtain ⟨hanswer, -, hlog⟩ := hsettles.binding hcreate hbind
  exact ⟨⟨ha, hlater⟩, ⟨hanswer, hlog⟩, huntouched, (hlast.answers hunarmed hspared).1⟩

end Session

end SparseDevice
