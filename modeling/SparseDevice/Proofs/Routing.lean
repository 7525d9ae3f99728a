import SparseDevice.Proofs.Kernel.Refusal
import SparseDevice.Proofs.Ownership.Run

/-!
# Routing of routine calls

Whoever holds a shared entry holds a handle that is bound to the stream of the entry and was never
given back. For a cache and for a context this is the very stream they stand for. So a routine call
through either of them runs on that stream, and the device records the handle of the entry for it.

A step in between may do anything: devices may fail, a reference may outlive its cache, a name may
be given to another cache.

## Main definitions

* `Session.Usable`: an entry with a handle that is out and bound.
* `Session.Routed`: what a routine call answers and records.
* `Session.Routing`: every slot, reference and context leads to a usable entry, and calls through
  them are routed.
* `Session.onePrepared`: a run that prepares a context.

## Main results

* `World.execute_cases`: a call with a bound handle is admitted, unless an armed status is in the
  way.
* `Session.routing_after`: routing after every run.
-/

namespace SparseDevice

open Handle (Key)

namespace World

variable {w : World} {serial : Nat} {h : Handle} {stream : Stream}

/-- A call with a bound handle is admitted and recorded, unless an armed status is in the way, which
is used up then. -/
theorem execute_cases {ρ : Type} [Routine ρ] (hs : serial < w.devices.length)
    (hstream : h.stream = some stream) (r : ρ) :
    ∃ w' outcome, w.execute serial h r = (w', outcome) ∧ w'.pool = w.pool ∧
      (∀ other, other ≠ serial → w'.device other = w.device other) ∧
      (((w.device serial).armed.routine = .success ∧ outcome = Routine.perform r ∧
          (w'.device serial).calls =
            (w.device serial).calls ++ [⟨Routine.entryPoint r, h.id, stream⟩]) ∨
        ((w.device serial).armed.routine ≠ .success ∧
          outcome = .ok (.error (w.device serial).armed.routine, r) ∧
          (w'.device serial).calls = (w.device serial).calls)) := by
  rcases (w.device serial).begin_cases h (Routine.entryPoint r) with
    ⟨hnone, -⟩ | ⟨stream', hstream', ha, hb⟩ | ⟨stream', hstream', ha, hb⟩
  · cases hstream.symm.trans hnone
  · cases hstream.symm.trans hstream'
    rw [execute, Device.execute, hb]
    refine ⟨_, _, rfl, rfl, fun other hne => device_setDevice_of_ne w _ hne, .inl ⟨ha, rfl, ?_⟩⟩
    rw [device_emit, device_setDevice_self w _ hs]
  · cases hstream.symm.trans hstream'
    rw [execute, Device.execute, hb]
    refine ⟨_, _, rfl, rfl, fun other hne => device_setDevice_of_ne w _ hne, .inr ⟨ha, rfl, ?_⟩⟩
    rw [device_setDevice_self w _ hs]
    rfl

end World

/-- The handle of a prepared context. -/
theorem Context.require_of_handle {ctx : Context} {w : World} {id : Nat} {e : Entry} {h : Handle}
    (hid : ctx.entry = some id) (he : w.pool.get? id = some e) (hh : e.handle = some h) :
    ctx.require w = (w, .ok h) := by
  rw [Context.require, hid, Option.bind_some, he]
  simp only [World.require, hh]

/-- The status of the device behind a failure, if there is one. -/
def Failure.status? : Failure → Option Status
  | .status t => some t
  | .context (.native _ t) => some t
  | .initialization _ | .context _ => none

/-- How a context answers with what a routine returns. -/
def Answer.ofContext : Except Trap (Except Status Reply × Job) → Answer
  | .ok (.ok reply, job) => .ran (.ok reply) job
  | .ok (.error t, job) => .ran (.error (.context (.native job.entryPoint t))) job
  | .error t => .fault (.trap t)

namespace Session

variable {s : Session} {serial : Nat} {hd : Handle} {stream : Stream}

/-- The handle of an entry is out, comes from the device of the entry and is bound to its
stream. -/
structure Usable (s : Session) (e : Entry) (hd : Handle) : Prop where
  handle : e.handle = some hd
  stream : hd.stream = some e.stream
  issuer : hd.issuer = e.device
  out : hd.key ∉ s.world.retired

/-- What comes out of a routine call on a stream. The call `passes` if nothing in front of the
device turns it away. -/
structure Routed (s : Session) (r : Session × Answer) (serial : Nat) (hd : Handle)
    (stream : Stream) (job : Job) (passes : Prop) : Prop where
  /-- The call ends with an answer, or inside the routine, or inside the check that turns it away. -/
  answer : (∃ result job', r.2 = .ran result job') ∨
    (∃ t, job.perform = .error t ∧ r.2 = .fault (.trap t)) ∨
    (¬passes ∧ job.check = .error .overflow ∧ r.2 = .fault (.trap .sizeOverflow))
  /-- The device finds the handle bound. -/
  bound : ∀ e job', r.2 = .ran (.error e) job' → e.status? = some .notInitialized →
    (s.world.device serial).armed.routine = .notInitialized
  /-- A call that gets through is recorded with the handle and its stream. -/
  recorded : passes → (s.world.device serial).armed.routine = .success →
    (r.1.world.device serial).calls =
      (s.world.device serial).calls ++ [⟨job.entryPoint, hd.id, stream⟩]
  /-- Any other call is not recorded. -/
  unrecorded : ¬(passes ∧ (s.world.device serial).armed.routine = .success) →
    (r.1.world.device serial).calls = (s.world.device serial).calls
  /-- No other device takes part. -/
  others : ∀ other, other ≠ serial → r.1.world.device other = s.world.device other
  /-- The session stays as it is but for the devices and the log. -/
  frame : r.1 = { s with world := r.1.world } ∧ r.1.world.pool = s.world.pool

/-- Everything that holds a shared entry holds a usable one, and calls through it are routed. -/
structure Routing (s : Session) : Prop where
  /-- A cache keeps a usable entry of its device for each stream. -/
  slot : ∀ n c stream id, s.cachePool.get? n = some c → c.lookup stream = some id →
    ∃ e hd, s.world.pool.get? id = some e ∧ s.Usable e hd ∧ e.stream = stream ∧ e.device = c.device
  /-- Slots for different streams or of different caches have nothing in common. -/
  distinct : ∀ n c stream id n' c' stream' id', s.cachePool.get? n = some c →
    c.lookup stream = some id → s.cachePool.get? n' = some c' → c'.lookup stream' = some id' →
    (n, stream) ≠ (n', stream') → id ≠ id' ∧
      ∀ e hd e' hd', s.world.pool.get? id = some e → e.handle = some hd →
        s.world.pool.get? id' = some e' → e'.handle = some hd' → hd.key ≠ hd'.key
  /-- A reference leads to a usable entry, whether a cache keeps it or not. -/
  reference : ∀ name id, s.references.get? name = some id →
    ∃ e hd, s.world.pool.get? id = some e ∧ s.Usable e hd
  /-- A prepared context leads to the entry that its cache keeps for its stream. -/
  context : ∀ name ctx id, s.contexts.get? name = some ctx → ctx.entry = some id →
    ∃ c e hd, s.cachePool.get? ctx.cache = some c ∧ c.lookup ctx.stream = some id ∧
      s.world.pool.get? id = some e ∧ s.Usable e hd ∧ e.stream = ctx.stream ∧ e.device = c.device
  /-- A call through a prepared context that passes the check gets to the device of the cache. -/
  contextRun : ∀ name ctx id c e hd job, s.contexts.get? name = some ctx → ctx.entry = some id →
    s.cachePool.get? ctx.cache = some c → s.world.pool.get? id = some e → e.handle = some hd →
    s.Routed (s.step (.run (.context name) job)) c.device hd ctx.stream job (job.check = .ok ())
  /-- A call through a reference gets to the device that it names. -/
  referenceRun : ∀ device serial name id e hd job, s.devices.get? device = some serial →
    s.references.get? name = some id → s.world.pool.get? id = some e → e.handle = some hd →
    s.Routed (s.step (.run (.reference device name) job)) serial hd e.stream job True

/-! ### Usable entries -/

theorem Within.usable (hs : s.Within) (h : s.Sound) {id : Nat} {e : Entry}
    (he : s.world.pool.get? id = some e) : ∃ hd, s.Usable e hd := by
  obtain ⟨hd, hhd, hissuer, hstream⟩ := (h.shared id e he).2
  refine ⟨hd, hhd, hstream, hissuer, ?_⟩
  intro hback
  have howned : hd.key ∈ s.owned :=
    List.mem_append_right _ (List.mem_append_right _ (List.mem_flatMap.mpr
      ⟨e, h.pool.mem_vals_iff.mpr ⟨id, he⟩, Entry.mem_keys_iff.mpr ⟨hd, hhd, rfl⟩⟩))
  exact (List.nodup_append.mp (hs.nodup h)).2.2 _ howned _ hback rfl

/-- Shared entries with the same handle are the same. -/
theorem Within.shared_unique (hs : s.Within) (h : s.Sound) {id id' : Nat} {e e' : Entry}
    {hd hd' : Handle} (he : s.world.pool.get? id = some e) (hhd : e.handle = some hd)
    (he' : s.world.pool.get? id' = some e') (hhd' : e'.handle = some hd')
    (hkey : hd.key = hd'.key) : id = id' := by
  have howned := (List.nodup_append.mp (hs.nodup h)).1
  have hshared := (List.nodup_append.mp (List.nodup_append.mp howned).2.1).2.1
  exact h.pool.keyed.key_unique hshared he he' (Entry.mem_keys_iff.mpr ⟨hd, hhd, rfl⟩)
    (Entry.mem_keys_iff.mpr ⟨hd', hhd', hkey.symm⟩)

/-- An entry is kept in one slot. -/
theorem SoundBut.slot_unique (h : s.Sound) {n n' : Nat} {c c' : Cache} {stream stream' : Stream}
    {id : Nat} (hn : s.cachePool.get? n = some c) (hid : c.lookup stream = some id)
    (hn' : s.cachePool.get? n' = some c') (hid' : c'.lookup stream' = some id) :
    (n, stream) = (n', stream') := by
  have hsame := h.keeper n c n' c' stream stream' id hn hn' hid hid'
  obtain ⟨e, he, -, hstream, -⟩ := h.slot hn hid
  obtain ⟨e', he', -, hstream', -⟩ := h.slot hn' hid'
  cases he.symm.trans he'
  rw [hsame, ← hstream, ← hstream']

/-! ### Calls -/

section Calls

variable {w : World} {a : Answer} {job : Job} {passes : Prop}

/-- A call that gets through is answered by the routine. -/
theorem routed_of_recorded (hpool : w.pool = s.world.pool)
    (hothers : ∀ other, other ≠ serial → w.device other = s.world.device other) (hp : passes)
    (ha : (s.world.device serial).armed.routine = .success)
    (hcalls : (w.device serial).calls =
      (s.world.device serial).calls ++ [⟨job.entryPoint, hd.id, stream⟩])
    (hanswer : (∃ result job', a = .ran result job') ∨
      ∃ t, job.perform = .error t ∧ a = .fault (.trap t))
    (hbound : ∀ e job', a = .ran (.error e) job' → e.status? ≠ some .notInitialized) :
    s.Routed ({ s with world := w }, a) serial hd stream job passes where
  answer := hanswer.imp_right .inl
  bound e job' hran hstatus := absurd hstatus (hbound e job' hran)
  recorded _ _ := hcalls
  unrecorded hnot := absurd ⟨hp, ha⟩ hnot
  others := hothers
  frame := ⟨rfl, hpool⟩

/-- A call that does not get through leaves no record. -/
theorem routed_of_unrecorded {e : Failure} (hpool : w.pool = s.world.pool)
    (hothers : ∀ other, other ≠ serial → w.device other = s.world.device other)
    (hnot : ¬(passes ∧ (s.world.device serial).armed.routine = .success))
    (hcalls : (w.device serial).calls = (s.world.device serial).calls)
    (hbound : e.status? = some .notInitialized →
      (s.world.device serial).armed.routine = .notInitialized) :
    s.Routed ({ s with world := w }, .ran (.error e) job) serial hd stream job passes where
  answer := .inl ⟨_, _, rfl⟩
  bound e' job' hran hstatus := by
    cases hran
    exact hbound hstatus
  recorded hp ha := absurd ⟨hp, ha⟩ hnot
  unrecorded _ := hcalls
  others := hothers
  frame := ⟨rfl, hpool⟩

/-- A call whose check ends in an overflow leaves everything as it was. -/
theorem routed_of_overflow (hcheck : job.check = .error .overflow) :
    s.Routed (s, .fault (.trap .sizeOverflow)) serial hd stream job (job.check = .ok ()) where
  answer := .inr (.inr ⟨fun hok => (nomatch hcheck.symm.trans hok), hcheck, rfl⟩)
  bound _ _ hran := nomatch hran
  recorded hok := nomatch hcheck.symm.trans hok
  unrecorded _ := rfl
  others _ _ := rfl
  frame := ⟨rfl, rfl⟩

/-- A call on a device with a bound handle. -/
theorem runHandle_routed (hs : serial < s.world.devices.length) (hstream : hd.stream = some stream)
    (job : Job) : s.Routed (s.runHandle serial hd job) serial hd stream job True := by
  obtain ⟨w, outcome, hx, hpool, hothers, hcases⟩ := World.execute_cases hs hstream job
  rw [runHandle, onWorld_eq, hx]
  rcases hcases with ⟨ha, houtcome, hcalls⟩ | ⟨ha, rfl, hcalls⟩
  · rcases outcome with t | ⟨status | reply, job'⟩
    · refine routed_of_recorded hpool hothers trivial ha hcalls (.inr ⟨t, houtcome.symm, rfl⟩) ?_
      intro e job'' hran
      cases hran
    · refine routed_of_recorded hpool hothers trivial ha hcalls (.inl ⟨_, _, rfl⟩) ?_
      intro e job'' hran hstatus
      cases hran
      exact Job.perform_ne_notInitialized houtcome.symm (Option.some.inj hstatus)
    · refine routed_of_recorded hpool hothers trivial ha hcalls (.inl ⟨_, _, rfl⟩) ?_
      intro e job'' hran
      cases hran
  · exact routed_of_unrecorded hpool hothers (fun hnot => ha hnot.2) hcalls Option.some.inj

/-- Everything that a call through a prepared context can do. The operands are looked at first, then
the armed status, and only then the routine runs. -/
theorem runContext_cases {ctx : Context} {c : Cache} {id : Nat} {e : Entry}
    (hs : c.device < s.world.devices.length) (hid : ctx.entry = some id)
    (he : s.world.pool.get? id = some e) (hhd : e.handle = some hd)
    (hstream : hd.stream = some stream) (job : Job) :
    (∃ err, job.check = .error (.argument err) ∧
      s.runContext ctx c job = (s, .ran (.error (.context (.invalidArgument err))) job)) ∨
    (job.check = .error .overflow ∧ s.runContext ctx c job = (s, .fault (.trap .sizeOverflow))) ∨
    (job.check = .ok () ∧ ∃ w, w.pool = s.world.pool ∧
      (∀ other, other ≠ c.device → w.device other = s.world.device other) ∧
      (((s.world.device c.device).armed.routine = .success ∧
          (w.device c.device).calls =
            (s.world.device c.device).calls ++ [⟨job.entryPoint, hd.id, stream⟩] ∧
          s.runContext ctx c job = ({ s with world := w }, .ofContext job.perform)) ∨
        ((s.world.device c.device).armed.routine ≠ .success ∧
          (w.device c.device).calls = (s.world.device c.device).calls ∧
          s.runContext ctx c job = ({ s with world := w }, .ran (.error (.context
            (.native job.entryPoint (s.world.device c.device).armed.routine))) job)))) := by
  rw [runContext, onWorld_eq, Context.execute, Context.require_of_handle hid he hhd]
  rcases hcheck : (Routine.check job : Except Objection Unit) with (err | _) | _
  · exact .inl ⟨err, hcheck, rfl⟩
  · exact .inr (.inl ⟨hcheck, rfl⟩)
  · obtain ⟨w, outcome, hx, hpool, hothers, hcases⟩ := World.execute_cases hs hstream job
    refine .inr (.inr ⟨hcheck, w, hpool, hothers, ?_⟩)
    simp only
    rw [hx]
    rcases hcases with ⟨ha, rfl, hcalls⟩ | ⟨ha, rfl, hcalls⟩
    · refine .inl ⟨ha, hcalls, ?_⟩
      show _ = ({ s with world := w }, Answer.ofContext (Routine.perform job))
      rcases (Routine.perform job : Except Trap (Except Status Reply × Job)) with
        t | ⟨status | reply, job'⟩
      · rfl
      · rfl
      · rfl
    · exact .inr ⟨ha, hcalls, rfl⟩

/-- A call through a prepared context, on the device of its cache. -/
theorem runContext_routed {ctx : Context} {c : Cache} {id : Nat} {e : Entry}
    (hs : c.device < s.world.devices.length) (hid : ctx.entry = some id)
    (he : s.world.pool.get? id = some e) (hhd : e.handle = some hd)
    (hstream : hd.stream = some stream) (job : Job) :
    s.Routed (s.runContext ctx c job) c.device hd stream job (job.check = .ok ()) := by
  rcases runContext_cases hs hid he hhd hstream job with
    ⟨err, hcheck, hrun⟩ | ⟨hcheck, hrun⟩ |
      ⟨hcheck, w, hpool, hothers, ⟨ha, hcalls, hrun⟩ | ⟨ha, hcalls, hrun⟩⟩
  · have hnot : ¬(job.check = .ok () ∧ (s.world.device c.device).armed.routine = .success) :=
      fun hboth => nomatch hcheck.symm.trans hboth.1
    rw [hrun]
    exact routed_of_unrecorded rfl (fun _ _ => rfl) hnot rfl (fun hstatus => nomatch hstatus)
  · rw [hrun]
    exact routed_of_overflow hcheck
  · rw [hrun]
    cases hperform : job.perform with
    | error t =>
      exact routed_of_recorded hpool hothers hcheck ha hcalls (.inr ⟨t, hperform, rfl⟩)
        (fun _ _ hran => nomatch hran)
    | ok out =>
      obtain ⟨status | reply, job'⟩ := out
      · refine routed_of_recorded hpool hothers hcheck ha hcalls (.inl ⟨_, _, rfl⟩) ?_
        intro e job'' hran hstatus
        cases hran
        exact Job.perform_ne_notInitialized hperform (Option.some.inj hstatus)
      · exact routed_of_recorded hpool hothers hcheck ha hcalls (.inl ⟨_, _, rfl⟩)
          (fun _ _ hran => nomatch hran)
  · rw [hrun]
    exact routed_of_unrecorded hpool hothers (fun hnot => ha hnot.2) hcalls Option.some.inj

end Calls

/-! ### Routing -/

theorem Within.routing (hs : s.Within) (h : s.Sound) : s.Routing where
  slot n c stream id hn hid := by
    obtain ⟨e, he, -, hstream, hdevice⟩ := h.slot hn hid
    obtain ⟨hd, husable⟩ := hs.usable h he
    exact ⟨e, hd, he, husable, hstream, hdevice⟩
  distinct n c stream id n' c' stream' id' hn hid hn' hid' hne := by
    have hids : id ≠ id' := by
      rintro rfl
      exact hne (h.slot_unique hn hid hn' hid')
    refine ⟨hids, ?_⟩
    intro e hd e' hd' he hhd he' hhd' hkey
    exact hids (hs.shared_unique h he hhd he' hhd' hkey)
  reference name id hid := by
    obtain ⟨e, he⟩ := h.reference id (Table.mem_vals_of_get? hid)
    obtain ⟨hd, husable⟩ := hs.usable h he
    exact ⟨e, hd, he, husable⟩
  context name ctx id hctx hid := by
    obtain ⟨c, hc, hentry⟩ := h.context ctx (Table.mem_vals_of_get? hctx)
    obtain ⟨e, he, -, hstream, hdevice⟩ := h.slot hc (hentry id hid)
    obtain ⟨hd, husable⟩ := hs.usable h he
    exact ⟨c, e, hd, hc, hentry id hid, he, husable, hstream, hdevice⟩
  contextRun name ctx id c e hd job hctx hid hc he hhd := by
    obtain ⟨c', hc', hentry⟩ := h.context ctx (Table.mem_vals_of_get? hctx)
    cases hc.symm.trans hc'
    obtain ⟨e', he', ⟨hd', hhd', -, hbound⟩, hstream, -⟩ := h.slot hc (hentry id hid)
    cases he.symm.trans he'
    cases hhd.symm.trans hhd'
    rw [hstream] at hbound
    rw [Session.step, run, hctx, named_some, hc, named_some]
    exact runContext_routed (h.cache _ c hc).device_lt hid he hhd hbound job
  referenceRun device serial name id e hd job hdevice hid he hhd := by
    obtain ⟨hd', hhd', -, hbound⟩ := (h.shared id e he).2
    cases hhd.symm.trans hhd'
    have hshared : s.shared? name = some e := Option.bind_eq_some_iff.mpr ⟨id, hid, he⟩
    rw [Session.step, run, hdevice, named_some, hshared, named_some, runEntry, onWorld_eq,
      World.require, hhd]
    exact runHandle_routed (h.lt_of_device hdevice) hbound job

/-- **Whoever holds a shared entry is routed to its stream, after every run.** -/
theorem routing_after (steps : List Step) : (empty.after steps).Routing :=
  (after_within steps).routing (after_sound steps)

/-- A run after which a context is prepared. -/
def onePrepared : List Step :=
  [.addDevice "d", .addCache "c" "d", .addContext "x" "c" ⟨7⟩, .prepareContext "x"]

end Session

end SparseDevice
