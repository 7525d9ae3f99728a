import SparseDevice.Request

/-!
# Statuses of routines

A routine that was admitted answers with a status of its own in two kinds of case only: what it was
asked to write does not fit what it finds, or a system has no solution. Which of them a routine can
answer is read off the request, and no operand makes it answer another one.

## Main definitions

* `Request.refusals`: the statuses that a routine can answer.

## Main results

* `Request.perform_refusal`: a routine answers no other status.
-/

namespace SparseDevice

variable {α : Type}

namespace Offsets

theorem ofRows_refusal {rowInd : List Int32} {m : Nat} {rowPtr out : List Int32} {t : Status}
    (h : ofRows rowInd m rowPtr = .ok (.error t, out)) : t = .invalidValue := by
  obtain ⟨counts, -, h⟩ := bind_eq_ok_iff.mp h
  split at h
  · cases h
    rfl
  · obtain ⟨offsets, -, h⟩ := bind_eq_ok_iff.mp h
    cases h

end Offsets

namespace Addition

theorem entriesFrom_refusal [Add α] [Mul α] {alpha beta : α} {a b c out : Csr α} {row count : Nat}
    {t : Status} (h : entriesFrom alpha a beta b row count c = .ok (.error t, out)) :
    t = .invalidValue := by
  induction count generalizing row c with
  | zero => cases h
  | succ count ih =>
    obtain ⟨merged, -, h⟩ := bind_eq_ok_iff.mp h
    obtain ⟨⟨start, stop⟩, -, h⟩ := bind_eq_ok_iff.mp h
    simp only at h
    split at h
    · obtain ⟨colInd, -, h⟩ := bind_eq_ok_iff.mp h
      obtain ⟨values, -, h⟩ := bind_eq_ok_iff.mp h
      exact ih h
    · cases h
      rfl

end Addition

namespace Tridiagonal

theorem solveAll_refusal {system : Nat → Except Trap (Option (List α))} {count stride : Nat}
    {b out : List α} {t : Status} (h : solveAll system count stride b = .ok (.error t, out)) :
    t = .executionFailed := by
  obtain ⟨-, -, h⟩ := bind_eq_ok_iff.mp h
  obtain ⟨solved, -, h⟩ := bind_eq_ok_iff.mp h
  cases solved with
  | none =>
    cases h
    rfl
  | some solved => cases h

end Tridiagonal

namespace Request

/-- The statuses besides success that a routine can answer. -/
def refusals : Request α → List Status
  | offsetsOfRows .. | sum .. => [.invalidValue]
  | solve .. | solveBatch .. => [.executionFailed]
  | rowsOfOffsets .. | product .. | productColumns .. | columns .. | sumOffsets .. => []

theorem finished_ok {after : Except Trap (Request α)} {status : Except Status Reply}
    {r : Request α} (h : finished after = .ok (status, r)) : status = .ok .done := by
  cases after with
  | error t => cases h
  | ok r' =>
    cases h
    rfl

theorem finished_map_ok {β : Type} {after : Except Trap β} {request : β → Request α}
    {status : Except Status Reply} {r : Request α}
    (h : finished (after.map request) = .ok (status, r)) : ∃ out, r = request out := by
  cases after with
  | error t => cases h
  | ok out =>
    cases h
    exact ⟨out, rfl⟩

theorem concluded_ok {β : Type} {after : Except Trap (Except Status Unit × β)}
    {request : β → Request α} {status : Except Status Reply} {r : Request α}
    (h : concluded after request = .ok (status, r)) : ∃ out, r = request out := by
  rcases after with t | ⟨s, out⟩
  · cases h
  · cases h
    exact ⟨out, rfl⟩

theorem concluded_error {β : Type} {after : Except Trap (Except Status Unit × β)}
    {request : β → Request α} {t : Status} {r : Request α}
    (h : concluded after request = .ok (.error t, r)) :
    ∃ out, after = .ok (.error t, out) ∧ r = request out := by
  rcases after with trap | ⟨status | u, out⟩
  · cases h
  · cases h
    exact ⟨out, rfl, rfl⟩
  · cases h

theorem concluded_done {β : Type} {after : Except Trap (Except Status Unit × β)}
    {request : β → Request α} {reply : Reply} {r : Request α}
    (h : concluded after request = .ok (.ok reply, r)) :
    reply = .done ∧ ∃ out, after = .ok (.ok (), out) ∧ r = request out := by
  rcases after with trap | ⟨status | u, out⟩
  · cases h
  · cases h
  · cases h
    exact ⟨rfl, out, rfl, rfl⟩

section Perform

variable [Zero α] [One α] [Add α] [Sub α] [Mul α] [Div α] [Scalar α]

/-- A routine answers no status but its refusals. -/
theorem perform_refusal {r r' : Request α} {t : Status} (h : r.perform = .ok (.error t, r')) :
    t ∈ r.refusals := by
  cases r with
  | offsetsOfRows rowInd m rowPtr =>
    obtain ⟨out, h, -⟩ := concluded_error h
    rw [Offsets.ofRows_refusal h]
    exact List.mem_singleton_self _
  | sum alpha a beta b c =>
    obtain ⟨out, h, -⟩ := concluded_error h
    rw [Addition.entriesFrom_refusal h]
    exact List.mem_singleton_self _
  | solve m n lower diagonal upper b ldb =>
    rw [perform] at h
    obtain ⟨out, h, -⟩ := concluded_error h
    rw [Tridiagonal.solveColumns] at h
    split at h
    · cases h
    · rw [Tridiagonal.solveAll_refusal h]
      exact List.mem_singleton_self _
  | solveBatch m lower diagonal upper x count stride =>
    rw [perform] at h
    obtain ⟨out, h, -⟩ := concluded_error h
    rw [Tridiagonal.solveBatch] at h
    split at h
    · cases h
    · rw [Tridiagonal.solveAll_refusal h]
      exact List.mem_singleton_self _
  | sumOffsets a b rowPtr =>
    rw [perform] at h
    cases hout : Addition.offsets a b rowPtr with
    | error trap =>
      rw [hout] at h
      cases h
    | ok out =>
      rw [hout] at h
      cases h
  | rowsOfOffsets rowPtr m rowInd => cases finished_ok h
  | product op alpha a x beta y => cases finished_ok h
  | productColumns op alpha a b ldb n beta c ldc => cases finished_ok h
  | columns a out => cases finished_ok h

/-- A request comes back under the name under which it was called. -/
theorem perform_entryPoint {r r' : Request α} {status : Except Status Reply}
    (h : r.perform = .ok (status, r')) : r'.entryPoint = r.entryPoint := by
  cases r with
  | offsetsOfRows rowInd m rowPtr =>
    obtain ⟨out, rfl⟩ := concluded_ok h
    rfl
  | rowsOfOffsets rowPtr m rowInd =>
    obtain ⟨out, rfl⟩ := finished_map_ok h
    rfl
  | product op alpha a x beta y =>
    obtain ⟨out, rfl⟩ := finished_map_ok h
    rfl
  | productColumns op alpha a b ldb n beta c ldc =>
    obtain ⟨out, rfl⟩ := finished_map_ok h
    rfl
  | columns a out =>
    obtain ⟨out, rfl⟩ := finished_map_ok h
    rfl
  | sumOffsets a b rowPtr =>
    rw [perform] at h
    cases hout : Addition.offsets a b rowPtr with
    | error t =>
      rw [hout] at h
      cases h
    | ok out =>
      rw [hout] at h
      cases h
      rfl
  | sum alpha a beta b c =>
    obtain ⟨out, rfl⟩ := concluded_ok h
    rfl
  | solve m n lower diagonal upper b ldb =>
    rw [perform] at h
    obtain ⟨out, rfl⟩ := concluded_ok h
    rfl
  | solveBatch m lower diagonal upper x count stride =>
    rw [perform] at h
    obtain ⟨out, rfl⟩ := concluded_ok h
    rfl

end Perform

theorem not_mem_refusals {r : Request α} : Status.notInitialized ∉ r.refusals := by
  cases r <;> rw [refusals] <;> decide

end Request

namespace Job

theorem ok_of_map {β : Type} {after : Except Trap (Except Status Reply × β)} {job : β → Job}
    {status : Except Status Reply} {j : Job}
    (h : (after.map fun (status, r) => (status, job r)) = .ok (status, j)) :
    ∃ r, after = .ok (status, r) ∧ j = job r := by
  rcases after with trap | ⟨s, r⟩
  · cases h
  · cases h
    exact ⟨r, rfl, rfl⟩

/-- A job comes back under the name under which it was called. -/
theorem perform_entryPoint {j j' : Job} {status : Except Status Reply}
    (h : j.perform = .ok (status, j')) : j'.entryPoint = j.entryPoint := by
  cases j with
  | single r =>
    obtain ⟨r', hr, rfl⟩ := ok_of_map h
    exact Request.perform_entryPoint hr
  | double r =>
    obtain ⟨r', hr, rfl⟩ := ok_of_map h
    exact Request.perform_entryPoint hr
  | complexSingle r =>
    obtain ⟨r', hr, rfl⟩ := ok_of_map h
    exact Request.perform_entryPoint hr
  | complexDouble r =>
    obtain ⟨r', hr, rfl⟩ := ok_of_map h
    exact Request.perform_entryPoint hr

/-- No routine claims that a handle is not bound; that is for the device to say. -/
theorem perform_ne_notInitialized {j j' : Job} {t : Status}
    (h : j.perform = .ok (.error t, j')) : t ≠ .notInitialized := by
  rintro rfl
  cases j with
  | single r =>
    obtain ⟨r', hr, -⟩ := ok_of_map h
    exact Request.not_mem_refusals (Request.perform_refusal hr)
  | double r =>
    obtain ⟨r', hr, -⟩ := ok_of_map h
    exact Request.not_mem_refusals (Request.perform_refusal hr)
  | complexSingle r =>
    obtain ⟨r', hr, -⟩ := ok_of_map h
    exact Request.not_mem_refusals (Request.perform_refusal hr)
  | complexDouble r =>
    obtain ⟨r', hr, -⟩ := ok_of_map h
    exact Request.not_mem_refusals (Request.perform_refusal hr)

end Job

end SparseDevice
