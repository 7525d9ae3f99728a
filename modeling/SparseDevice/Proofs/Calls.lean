import SparseDevice.Proofs.Kernel.Sizes
import SparseDevice.Proofs.Routing

/-!
# The effects of a routine call

Four things can stop a routine call, and they are looked at in a fixed order: a context that is not
prepared, operands that do not fit together, a handle that is not bound, an armed status. Each of
them leaves the buffers alone, and all that it changes elsewhere is that an armed status is used up
or that a fault is recorded. A call that nothing stops is recorded once, before the routine starts;
so it stays recorded when the routine refuses or traps.

A context adds nothing to this but its own two checks and the name of the routine. The second check
has a way to end that the device does not know: it computes sizes from the numbers of the caller, and
a size that is too large ends the call there, before anything is recorded.

## Main definitions

* `World.Disciplined`: the effects of a call on a device.
* `Context.passOn`: what a context makes of the outcome of a call on a device.
* `Context.Admits`: a context and a device on which calls reach the routines.
* `Session.Disciplined`: the effects of a call through a context.
* `Context.Ready`, `Session.Serves`: a context through which calls reach the routines.
* `Context.executeBoth`: two calls, one after the other.

## Main results

* `Context.Ready.execute_eq`: a checked call through a context that is ready.
* `Context.execute_stopped_or_ran`, `Context.execute_cases`: how a call may end, in every world.
* `Context.done_of_execute`, `Context.unchanged_or_failed`: what a call that succeeds says, and one
  that fails.
* `Session.Serves.ready`: contexts that are ready, after every run.
* `Session.calls_disciplined`: the effects of every call, after every run.
-/

namespace SparseDevice

namespace World

theorem setDevice_device (w : World) (serial : Nat) : w.setDevice serial (w.device serial) = w := by
  have hset : w.devices.set serial (w.devices.getD serial (.new serial)) = w.devices := by
    rcases Nat.lt_or_ge serial w.devices.length with hlt | hge
    · rw [← List.getElem_eq_getD _ (h := hlt), List.set_getElem_self]
    · exact List.set_eq_of_length_le hge
  rw [setDevice, device, hset]

/-- What a routine call on a device leaves behind. -/
structure Disciplined {ρ : Type} [Routine ρ] (w : World) (serial : Nat) (h : Handle) (r : ρ) :
    Prop where
  /-- A handle that is not bound is noticed first, and nothing changes. -/
  unbound : h.stream = none → w.execute serial h r = (w, .ok (.error .notInitialized, r))
  /-- An armed status is the answer then. It is used up, and nothing else changes. -/
  armed : ∀ stream, h.stream = some stream → (w.device serial).armed.routine ≠ .success →
    w.execute serial h r = (w.setDevice serial ((w.device serial).arm .routine .success),
      .ok (.error (w.device serial).armed.routine, r))
  /-- Any other call is recorded once, however the routine ends. -/
  admitted : ∀ stream, h.stream = some stream → (w.device serial).armed.routine = .success →
    w.execute serial h r =
      ((w.setDevice serial { w.device serial with
          calls := (w.device serial).calls ++ [⟨Routine.entryPoint r, h.id, stream⟩] }).emit
        (.called (Routine.entryPoint r) stream), Routine.perform r)

theorem disciplined {ρ : Type} [Routine ρ] (w : World) (serial : Nat) (h : Handle) (r : ρ) :
    w.Disciplined serial h r where
  unbound hnone := by
    simp only [execute, Device.execute, Device.begin, hnone]
    rw [setDevice_device]
  armed stream hstream ha := by
    have hstatus : ¬(w.device serial).armed.routine.isSuccess := by simpa using ha
    simp only [execute, Device.execute, Device.begin, hstream, if_neg hstatus]
  admitted stream hstream ha := by
    have hstatus : (w.device serial).armed.routine.isSuccess := by simpa using ha
    simp only [execute, Device.execute, Device.begin, hstream, if_pos hstatus]

/-- A request comes back under its name from a device too. -/
theorem execute_entryPoint {α : Type} [Zero α] [One α] [Add α] [Sub α] [Mul α] [Div α] [Scalar α]
    {w : World} {serial : Nat} {h : Handle} {r r' : Request α} {status : Except Status Reply}
    (hx : (w.execute serial h r).2 = .ok (status, r')) : r'.entryPoint = r.entryPoint := by
  have hcases := w.disciplined serial h r
  cases hstream : h.stream with
  | none =>
    rw [hcases.unbound hstream] at hx
    cases hx
    rfl
  | some stream =>
    by_cases ha : (w.device serial).armed.routine = .success
    · rw [hcases.admitted stream hstream ha] at hx
      exact Request.perform_entryPoint hx
    · rw [hcases.armed stream hstream ha] at hx
      cases hx
      rfl

end World

namespace Context

variable {ρ : Type}

/-- What a context makes of the outcome of a call on a device: a trap ends the call, and a status
goes under the name of the routine. -/
def passOn (entryPoint : String) :
    Except Trap (Except Status Reply × ρ) → Except Fault (Except ContextError Reply × ρ)
  | .error t => .error (.trap t)
  | .ok (.error s, r) => .ok (.error (.native entryPoint s), r)
  | .ok (.ok reply, r) => .ok (.ok reply, r)

variable [Routine ρ] {ctx : Context} {w : World} {h : Handle}

theorem require_of_entry_eq_none (hnone : ctx.entry = none) (w : World) :
    ctx.require w = w.raise (.contractViolation ctx.stream.label) := by
  rw [require, hnone]
  rfl

/-- Nothing of a call is looked at in a context that is not prepared. -/
theorem execute_of_entry_eq_none (hnone : ctx.entry = none) (w : World) (device : Nat) (r : ρ) :
    ctx.execute w device r = w.raise (.contractViolation ctx.stream.label) := by
  rw [execute, require_of_entry_eq_none hnone]
  rfl

/-- A rejected call does not get to the device. -/
theorem execute_of_check_eq_argument (hrequire : ctx.require w = (w, .ok h)) {r : ρ}
    {err : ArgumentError} (hcheck : Routine.check r = .error (.argument err)) (device : Nat) :
    ctx.execute w device r = (w, .ok (.error (.invalidArgument err), r)) := by
  rw [execute, hrequire]
  simp only [hcheck]

/-- A call whose check ends in an overflow does not get to the device. -/
theorem execute_of_check_eq_overflow (hrequire : ctx.require w = (w, .ok h)) {r : ρ}
    (hcheck : Routine.check r = .error .overflow) (device : Nat) :
    ctx.execute w device r = (w, .error (.trap .sizeOverflow)) := by
  rw [execute, hrequire]
  simp only [hcheck]

section Request

variable {α : Type} [Zero α] [One α] [Add α] [Sub α] [Mul α] [Div α] [Scalar α] {r : Request α}

/-- A call that passes the check is a call on the device. -/
theorem execute_of_check_eq_ok (hrequire : ctx.require w = (w, .ok h)) (hcheck : r.check = .ok ())
    (device : Nat) :
    ctx.execute w device r =
      ((w.execute device h r).1, passOn r.entryPoint (w.execute device h r).2) := by
  have hpassed : (Routine.check r : Except Objection Unit) = .ok () := hcheck
  rw [execute, hrequire]
  simp only [hpassed]
  rcases hx : w.execute device h r with ⟨w', t | ⟨status | reply, r'⟩⟩
  · rfl
  · -- a status goes under the name of the request that comes back
    have hname : Routine.entryPoint r' = r.entryPoint :=
      World.execute_entryPoint (congrArg Prod.snd hx)
    simp only [passOn, hname]
  · rfl

/-- Nothing of the context and nothing of the device is in the way of a call. -/
def Admits (ctx : Context) (w : World) (device : Nat) : Prop :=
  ∃ h stream, ctx.require w = (w, .ok h) ∧ h.stream = some stream ∧
    (w.device device).armed.routine = .success

/-- Whatever is not stopped is answered by its routine. -/
theorem Admits.execute_eq {device : Nat} (h : ctx.Admits w device) (hcheck : r.check = .ok ()) :
    (ctx.execute w device r).2 = passOn r.entryPoint r.perform := by
  obtain ⟨h, stream, hrequire, hstream, hunarmed⟩ := h
  rw [execute_of_check_eq_ok hrequire hcheck,
    (w.disciplined device h r).admitted stream hstream hunarmed]
  rfl

/-- What stops a call has no regard to its operands, once they fit together. -/
theorem execute_stopped_or_ran (ctx : Context) (w : World) (device : Nat) (name : String) :
    (∃ w' stop, ∀ r : Request α, r.check = .ok () → r.entryPoint = name →
      ctx.execute w device r = (w', Except.map (fun e => (.error e, r)) stop)) ∨
    ctx.Admits w device ∧ ∃ w', ∀ r : Request α, r.check = .ok () → r.entryPoint = name →
      ctx.execute w device r = (w', passOn name r.perform) := by
  rcases require_cases w ctx with ⟨h, hrequire⟩ | ⟨f, hrequire⟩
  · cases hstream : h.stream with
    | none =>
      refine .inl ⟨w, .ok (.native name .notInitialized), ?_⟩
      rintro r hcheck rfl
      rw [execute_of_check_eq_ok hrequire hcheck, (w.disciplined device h r).unbound hstream]
      rfl
    | some stream =>
      by_cases ha : (w.device device).armed.routine = .success
      · refine .inr ⟨⟨h, stream, hrequire, hstream, ha⟩, (w.setDevice device { w.device device with
          calls := (w.device device).calls ++ [⟨name, h.id, stream⟩] }).emit (.called name stream), ?_⟩
        rintro r hcheck rfl
        rw [execute_of_check_eq_ok hrequire hcheck,
          (w.disciplined device h r).admitted stream hstream ha]
        rfl
      · refine .inl ⟨w.setDevice device ((w.device device).arm .routine .success),
          .ok (.native name (w.device device).armed.routine), ?_⟩
        rintro r hcheck rfl
        rw [execute_of_check_eq_ok hrequire hcheck,
          (w.disciplined device h r).armed stream hstream ha]
        rfl
  · refine .inl ⟨w.emit (.fault f), .error f, fun r _ _ => ?_⟩
    rw [execute, hrequire]
    rfl

/-- A call that is stopped is a fault, or it comes back as it was. -/
theorem execute_cases (ctx : Context) (w : World) (device : Nat) (r : Request α) :
    (∃ f, (ctx.execute w device r).2 = .error f) ∨
      (∃ e, (ctx.execute w device r).2 = .ok (.error e, r)) ∨
        ctx.Admits w device ∧ r.check = .ok () := by
  cases hcheck : r.check with
  | error o =>
    rcases require_cases w ctx with ⟨h, hrequire⟩ | ⟨f, hrequire⟩
    · cases o with
      | argument e =>
        refine .inr (.inl ⟨.invalidArgument e, ?_⟩)
        rw [execute_of_check_eq_argument hrequire hcheck]
      | overflow =>
        refine .inl ⟨.trap .sizeOverflow, ?_⟩
        rw [execute_of_check_eq_overflow hrequire hcheck]
    · refine .inl ⟨f, ?_⟩
      rw [execute, hrequire]
  | ok =>
    rcases execute_stopped_or_ran (α := α) ctx w device r.entryPoint with
      ⟨w', f | e, hstop⟩ | ⟨hadmits, -⟩
    · exact .inl ⟨f, congrArg Prod.snd (hstop r hcheck rfl)⟩
    · exact .inr (.inl ⟨e, congrArg Prod.snd (hstop r hcheck rfl)⟩)
    · exact .inr (.inr ⟨hadmits, rfl⟩)

/-- A call that fails comes back as it was, or as its routine left it when it failed. -/
theorem unchanged_or_failed {device : Nat} {e : ContextError} {r' : Request α}
    (hcall : (ctx.execute w device r).2 = .ok (.error e, r')) :
    r' = r ∨ ∃ t, r.perform = .ok (.error t, r') := by
  rcases ctx.execute_cases w device r with ⟨f, hf⟩ | ⟨e', he⟩ | ⟨hadmits, hcheck⟩
  · cases hf.symm.trans hcall
  · cases he.symm.trans hcall
    exact .inl rfl
  · rw [hadmits.execute_eq hcheck] at hcall
    rcases hperform : r.perform with t | ⟨t | reply, r₂⟩
    · rw [hperform] at hcall
      cases hcall
    · rw [hperform] at hcall
      cases hcall
      exact .inr ⟨t, rfl⟩
    · rw [hperform] at hcall
      cases hcall

/-- Where a call succeeds, nothing stopped it, it passed its check, and the routine succeeded. This
asks nothing of the world. -/
theorem admits_of_execute {device : Nat} {r' : Request α} {reply : Reply}
    (hcall : (ctx.execute w device r).2 = .ok (.ok reply, r')) :
    ctx.Admits w device ∧ r.check = .ok () ∧ r.perform = .ok (.ok reply, r') := by
  rcases ctx.execute_cases w device r with ⟨f, hf⟩ | ⟨e, he⟩ | ⟨hadmits, hcheck⟩
  · cases hf.symm.trans hcall
  · cases he.symm.trans hcall
  · refine ⟨hadmits, hcheck, ?_⟩
    rw [hadmits.execute_eq hcheck] at hcall
    rcases hperform : r.perform with t | ⟨status | reply', r₂⟩
    · rw [hperform] at hcall
      cases hcall
    · rw [hperform] at hcall
      cases hcall
    · rw [hperform] at hcall
      cases hcall
      rfl

/-- A call that succeeds passed its check, and the routine succeeded. -/
theorem done_of_execute {device : Nat} {r' : Request α} {reply : Reply}
    (hcall : (ctx.execute w device r).2 = .ok (.ok reply, r')) :
    r.check = .ok () ∧ r.perform = .ok (.ok reply, r') := (admits_of_execute hcall).2

/-! ### Contexts that are ready -/

/-- A prepared context, over a device on which nothing is in the way of the next call. -/
structure Ready (ctx : Context) (w : World) (device : Nat) : Prop where
  prepared : ∃ id e h stream, ctx.entry = some id ∧ w.pool.get? id = some e ∧
    e.handle = some h ∧ h.stream = some stream
  device_lt : device < w.devices.length
  unarmed : (w.device device).armed.routine = .success

/-- A checked call is answered by the routine, and the context stays ready. -/
theorem Ready.execute_eq {device : Nat} (hready : ctx.Ready w device) (hcheck : r.check = .ok ()) :
    (ctx.execute w device r).2 = passOn r.entryPoint r.perform ∧
      ctx.Ready (ctx.execute w device r).1 device := by
  obtain ⟨id, e, h, stream, hid, he, hh, hstream⟩ := hready.prepared
  have hadmitted := (w.disciplined device h r).admitted stream hstream hready.unarmed
  rw [execute_of_check_eq_ok (require_of_handle hid he hh) hcheck, hadmitted]
  refine ⟨rfl, ⟨id, e, h, stream, hid, he, hh, hstream⟩, ?_, ?_⟩
  · rw [World.devices_emit, World.setDevice, List.length_set]
    exact hready.device_lt
  · rw [World.device_emit, World.device_setDevice_self _ _ hready.device_lt]
    exact hready.unarmed

/-- A call whose routine succeeds is answered by the routine, and the context stays ready. -/
theorem Ready.execute {device : Nat} (hready : ctx.Ready w device) (hcheck : r.check = .ok ())
    {reply : Reply} {r' : Request α} (hperform : r.perform = .ok (.ok reply, r')) :
    (ctx.execute w device r).2 = .ok (.ok reply, r') ∧
      ctx.Ready (ctx.execute w device r).1 device := by
  obtain ⟨hanswer, hready'⟩ := hready.execute_eq hcheck
  rw [hperform] at hanswer
  exact ⟨hanswer, hready'⟩

/-- The answers of two calls, one after the other. -/
def executeBoth (ctx : Context) (w : World) (device : Nat) (r r' : Request α) :
    Except Fault (Except ContextError Reply × Request α) ×
      Except Fault (Except ContextError Reply × Request α) :=
  let (w, answer) := ctx.execute w device r
  (answer, (ctx.execute w device r').2)

theorem fst_executeBoth (ctx : Context) (w : World) (device : Nat) (r r' : Request α) :
    (ctx.executeBoth w device r r').1 = (ctx.execute w device r).2 := rfl

/-- Two checked calls are answered by their routines. -/
theorem Ready.executeBoth_eq {device : Nat} (hready : ctx.Ready w device) {r₁ r₂ : Request α}
    (hcheck₁ : r₁.check = .ok ()) (hcheck₂ : r₂.check = .ok ()) :
    ctx.executeBoth w device r₁ r₂ =
      (passOn r₁.entryPoint r₁.perform, passOn r₂.entryPoint r₂.perform) := by
  obtain ⟨hfirst, hready'⟩ := hready.execute_eq hcheck₁
  obtain ⟨hsecond, -⟩ := hready'.execute_eq hcheck₂
  exact Prod.ext hfirst hsecond

theorem Ready.executeBoth {device : Nat} (hready : ctx.Ready w device) {r₁ r₁' r₂ r₂' : Request α}
    {reply₁ reply₂ : Reply} (hcheck₁ : r₁.check = .ok ())
    (hperform₁ : r₁.perform = .ok (.ok reply₁, r₁')) (hcheck₂ : r₂.check = .ok ())
    (hperform₂ : r₂.perform = .ok (.ok reply₂, r₂')) :
    ctx.executeBoth w device r₁ r₂ = (.ok (.ok reply₁, r₁'), .ok (.ok reply₂, r₂')) := by
  rw [hready.executeBoth_eq hcheck₁ hcheck₂, hperform₁, hperform₂]
  rfl

end Request

end Context

namespace Session

/-- A context of a session through which calls reach the routines: it is prepared, and no routine of
the device of its cache is armed. -/
structure Serves (s : Session) (ctx : Context) (device : Nat) : Prop where
  named : ∃ name, s.contexts.get? name = some ctx
  initialized : ctx.initialized
  cache : ∃ c, s.cachePool.get? ctx.cache = some c ∧ c.device = device
  unarmed : (s.world.device device).armed.routine = .success

/-- A context is ready whenever nothing is armed, after every run. -/
theorem Serves.ready {steps : List Step} {ctx : Context} {device : Nat}
    (h : (empty.after steps).Serves ctx device) : ctx.Ready (empty.after steps).world device := by
  obtain ⟨name, hname⟩ := h.named
  obtain ⟨id, hid⟩ := Option.isSome_iff_exists.mp h.initialized
  obtain ⟨c, hc, rfl⟩ := h.cache
  obtain ⟨-, e, hd, -, -, he, husable, -, -⟩ :=
    ((after_within steps).routing (after_sound steps)).context name ctx id hname hid
  exact ⟨⟨id, e, hd, e.stream, hid, he, husable.handle, husable.stream⟩,
    ((after_sound steps).cache _ c hc).device_lt, h.unarmed⟩

theorem onePrepared_serves : (empty.after onePrepared).Serves ⟨0, ⟨7⟩, some 0⟩ 0 where
  named := ⟨"x", by decide +kernel⟩
  initialized := rfl
  cache := ⟨⟨0, [(⟨7⟩, 0)], []⟩, by decide +kernel, rfl⟩
  unarmed := by decide +kernel

/-- What a routine call through a context leaves behind. -/
structure Disciplined (α : Type) [Zero α] [One α] [Add α] [Sub α] [Mul α] [Div α] [Scalar α]
    (s : Session) : Prop where
  /-- Without preparation a call is a fault, whatever the call is. -/
  unprepared : ∀ name ctx, s.contexts.get? name = some ctx → ctx.entry = none →
    ∀ (device : Nat) (r : Request α),
      ctx.execute s.world device r = s.world.raise (.contractViolation ctx.stream.label)
  /-- A prepared context rejects a call or ends it over a size that is too large, which changes
  nothing either way, or passes on what a call with its handle does on the device of its cache. -/
  prepared : ∀ name ctx id, s.contexts.get? name = some ctx → ctx.entry = some id →
    ∃ c e h, s.cachePool.get? ctx.cache = some c ∧ c.device < s.world.devices.length ∧
      s.world.pool.get? id = some e ∧ e.handle = some h ∧ h.stream = some ctx.stream ∧
      ∀ r : Request α,
        (∀ err, r.check = .error (.argument err) →
          ctx.execute s.world c.device r = (s.world, .ok (.error (.invalidArgument err), r))) ∧
        (r.check = .error .overflow → (∃ size ∈ r.sums, maxSize < size) ∧
          ctx.execute s.world c.device r = (s.world, .error (.trap .sizeOverflow))) ∧
        (r.check = .ok () →
          ctx.execute s.world c.device r = ((s.world.execute c.device h r).1,
            Context.passOn r.entryPoint (s.world.execute c.device h r).2))

/-- **Every routine call has the effects of its first obstacle and no other, after every run.** -/
theorem calls_disciplined {α : Type} [Zero α] [One α] [Add α] [Sub α] [Mul α] [Div α] [Scalar α]
    (steps : List Step) :
    (∀ (w : World) (serial : Nat) (h : Handle) (r : Request α), w.Disciplined serial h r) ∧
      (empty.after steps).Disciplined α := by
  refine ⟨fun w serial h r => w.disciplined serial h r, ?_, ?_⟩
  · intro name ctx _ hnone device r
    exact Context.execute_of_entry_eq_none hnone _ device r
  · intro name ctx id hctx hid
    obtain ⟨c, e, h, hc, -, he, husable, hstream, -⟩ :=
      ((after_within steps).routing (after_sound steps)).context name ctx id hctx hid
    have hrequire := Context.require_of_handle hid he husable.handle
    refine ⟨c, e, h, hc, ((after_sound steps).cache _ c hc).device_lt, he, husable.handle, ?_, ?_⟩
    · rw [← hstream]
      exact husable.stream
    · intro r
      exact ⟨fun err hcheck => Context.execute_of_check_eq_argument hrequire hcheck c.device,
        fun hcheck => ⟨Request.sums_of_overflow hcheck,
          Context.execute_of_check_eq_overflow hrequire hcheck c.device⟩,
        fun hcheck => Context.execute_of_check_eq_ok hrequire hcheck c.device⟩

/-- A row beyond the matrix. The context rejects the call, which leaves no trace; the device records
it and then refuses it. -/
theorem onePrepared_disciplined :
    let ctx : Context := ⟨0, ⟨7⟩, some 0⟩
    let w := (empty.after onePrepared).world
    let r : Request Float := .offsetsOfRows [0, 5] 3 [9, 9, 9, 9]
    ctx.execute w 0 r = (w, .ok (.error (.invalidArgument .rowRange), r)) ∧
      w.execute 0 ⟨0, 0, some ⟨7⟩⟩ r =
        ((w.setDevice 0 { w.device 0 with calls := [⟨r.entryPoint, 0, ⟨7⟩⟩] }).emit
          (.called r.entryPoint ⟨7⟩),
          .ok (.error .invalidValue, .offsetsOfRows [0, 5] 3 [0, 1, 0, 0])) := by
  intro ctx w r
  obtain ⟨hdevice, hcontext⟩ := calls_disciplined (α := Float) onePrepared
  have hname : (empty.after onePrepared).contexts.get? "x" = some ctx := by decide +kernel
  obtain ⟨c, e, h, hc, -, -, -, -, hcalls⟩ := hcontext.prepared "x" ctx 0 hname rfl
  have hcache : (empty.after onePrepared).cachePool.get? 0 = some ⟨0, [(⟨7⟩, 0)], []⟩ := by
    decide +kernel
  cases hcache.symm.trans hc
  have hunarmed : (w.device 0).armed.routine = .success := by decide +kernel
  have hnone : (w.device 0).calls = [] := by decide +kernel
  refine ⟨(hcalls r).1 .rowRange rfl, ?_⟩
  rw [(hdevice w 0 ⟨0, 0, some ⟨7⟩⟩ r).admitted ⟨7⟩ rfl hunarmed, hnone]
  rfl

/-- The largest number of rows has one offset too many. The context neither rejects the call nor
passes it on: it leaves no record, and a call on the device does. -/
theorem onePrepared_neither :
    let ctx : Context := ⟨0, ⟨7⟩, some 0⟩
    let w := (empty.after onePrepared).world
    let h : Handle := ⟨0, 0, some ⟨7⟩⟩
    let r : Request Float := .rowsOfOffsets [] 18446744073709551615 []
    ((empty.after onePrepared).contexts.get? "x" = some ctx ∧ ctx.require w = (w, .ok h)) ∧
      ctx.execute w 0 r = (w, .error (.trap .sizeOverflow)) ∧
      ¬((∃ e r', (ctx.execute w 0 r).2 = .ok (.error (.invalidArgument e), r')) ∨
        ctx.execute w 0 r =
          ((w.execute 0 h r).1, Context.passOn r.entryPoint (w.execute 0 h r).2)) := by
  intro ctx w h r
  have hname : (empty.after onePrepared).contexts.get? "x" = some ctx := by decide +kernel
  have hrequire : ctx.require w = (w, .ok h) := by decide +kernel
  have hoverflow := Context.execute_of_check_eq_overflow hrequire (r := r) rfl 0
  refine ⟨⟨hname, hrequire⟩, hoverflow, ?_⟩
  rw [hoverflow]
  rintro (⟨e, r', hrejected⟩ | hpassed)
  · cases hrejected
  · have hunarmed : (w.device 0).armed.routine = .success := by decide +kernel
    have hrecorded := congrArg Prod.fst ((w.disciplined 0 h r).admitted ⟨7⟩ rfl hunarmed)
    have hcalls := congrArg (fun w => (World.device w 0).calls)
      ((congrArg Prod.fst hpassed).trans hrecorded)
    revert hcalls
    decide +kernel

end Session

end SparseDevice
