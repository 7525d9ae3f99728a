import SparseDevice.Proofs.Kernel.Requests

/-!
# Sizes that a check computes

A check adds and multiplies the numbers of the caller: so many rows have one more offset, and a dense
operand takes its stride for each column but the last. Where such a size is beyond the largest one the
check ends in an overflow, and this is the only way for it to end so. The other way round, operands
that memory can hold never let a call pass whose sizes overflow, so the routine behind the check may
compute the same sizes again.

## Main definitions

* `Request.sums`: the sizes that a check computes.
* `Request.lengths`: how many cells the operands have that these sizes are compared with.

## Main results

* `Request.sums_of_overflow`: an overflow comes from one of the sizes.
* `Request.sums_le_of_check`: a call that passes has none that is too large.
-/

namespace SparseDevice

/-! ### Where an overflow comes from -/

section Overflow

variable {p : Prop} [Decidable p] {e : ArgumentError} {size : Nat}

/-- A row of checks ends in the overflow of one of them. -/
theorem overflow_of_bind {x : Except Objection Unit} {next : Unit → Except Objection Unit}
    (h : x >>= next = .error .overflow) : x = .error .overflow ∨ next () = .error .overflow := by
  cases x with
  | error o => exact .inl h
  | ok u => exact .inr h

theorem ensure_argument_ne_overflow : ensure p (Objection.argument e) ≠ .error .overflow := by
  by_cases h : p <;> simp [ensure, h]

/-- A test that can only reject a call leaves the overflow to the tests after it. -/
theorem overflow_of_argument_bind {next : Unit → Except Objection Unit}
    (h : ensure p (Objection.argument e) >>= next = .error .overflow) :
    next () = .error .overflow :=
  (overflow_of_bind h).resolve_left ensure_argument_ne_overflow

theorem lt_of_ensure_sized (h : ensure p (Objection.sized size e) = .error .overflow) :
    maxSize < size := by
  by_cases hp : p
  · simp [ensure, hp] at h
  · rw [ensure_of_not hp, Except.error.injEq] at h
    exact Objection.sized_eq_overflow_iff.mp h

theorem lt_of_ensureDense {operand strideName : String} {rows cols stride length : Nat}
    (h : ensureDense operand strideName rows cols stride length = .error .overflow) :
    maxSize < denseLength rows cols stride := by
  rw [ensureDense] at h
  split at h
  · exact lt_of_ensure_sized h
  · exact absurd h ensure_argument_ne_overflow

end Overflow

variable {α : Type}

theorem Csr.lt_of_validate {a : Csr α} (h : a.validate = .error .overflow) :
    maxSize < a.rows + 1 := by
  rcases overflow_of_bind h with h | h
  · exact lt_of_ensure_sized h
  · -- the lengths, the ends and the order of the offsets can only reject the matrix
    have hcolumns := overflow_of_argument_bind (overflow_of_argument_bind
      (overflow_of_argument_bind h))
    split at hcolumns <;> cases hcolumns

namespace Request

/-- The sizes that a check computes. Which of them it comes to depends on the operands. -/
def sums : Request α → List Nat
  | offsetsOfRows _ m _ | rowsOfOffsets _ m _ => [m + 1]
  | product _ _ a _ _ _ => [a.rows + 1]
  | productColumns op _ a _ ldb n _ _ ldc =>
    [a.rows + 1, denseLength (a.shape op).2 n ldb, denseLength (a.shape op).1 n ldc]
  | columns a _ => [a.rows + 1, a.cols + 1]
  | sumOffsets a b _ | sum _ a _ b _ => [a.rows + 1, b.rows + 1]
  | solve m n _ _ _ _ ldb => [denseLength m n ldb]
  | solveBatch m _ _ _ _ count stride => [denseLength m count stride]

/-- How many cells the operands have that the sizes are compared with. -/
def lengths : Request α → List Nat
  | offsetsOfRows _ _ rowPtr | rowsOfOffsets rowPtr _ _ => [rowPtr.length]
  | product _ _ a _ _ _ => [a.rowPtr.length]
  | productColumns _ _ a b _ _ _ c _ => [a.rowPtr.length, b.length, c.length]
  | columns a out => [a.rowPtr.length, out.colPtr.length]
  | sumOffsets a b _ | sum _ a _ b _ => [a.rowPtr.length, b.rowPtr.length]
  | solve _ _ _ _ _ b _ => [b.length]
  | solveBatch _ _ _ _ x _ _ => [x.length]

theorem lt_of_checkTerms {a b : Csr α} (h : checkTerms a b = .error .overflow) :
    maxSize < a.rows + 1 ∨ maxSize < b.rows + 1 := by
  rcases overflow_of_bind h with h | h
  · exact .inl (Csr.lt_of_validate h)
  rcases overflow_of_bind h with h | h
  · exact .inr (Csr.lt_of_validate h)
  · exact absurd h ensure_argument_ne_overflow

/-- **A check overflows over one of its sizes only.** -/
theorem sums_of_overflow {r : Request α} (h : r.check = .error .overflow) :
    ∃ size ∈ r.sums, maxSize < size := by
  cases r with
  | offsetsOfRows rowInd m rowPtr =>
    refine ⟨m + 1, by simp [sums], ?_⟩
    rcases overflow_of_bind h with h | h
    · exact lt_of_ensure_sized h
    · exact absurd (overflow_of_argument_bind h) ensure_argument_ne_overflow
  | rowsOfOffsets rowPtr m rowInd =>
    refine ⟨m + 1, by simp [sums], ?_⟩
    rcases overflow_of_bind h with h | h
    · exact lt_of_ensure_sized h
    · exact absurd (overflow_of_argument_bind h) ensure_argument_ne_overflow
  | product op alpha a x beta y =>
    rcases overflow_of_bind h with h | h
    · exact ⟨a.rows + 1, by simp [sums], Csr.lt_of_validate h⟩
    · exact absurd h ensure_argument_ne_overflow
  | productColumns op alpha a b ldb n beta c ldc =>
    rcases overflow_of_bind h with h | h
    · exact ⟨a.rows + 1, by simp [sums], Csr.lt_of_validate h⟩
    rcases overflow_of_bind h with h | h
    · exact ⟨denseLength (a.shape op).2 n ldb, by simp [sums], lt_of_ensureDense h⟩
    · exact ⟨denseLength (a.shape op).1 n ldc, by simp [sums], lt_of_ensureDense h⟩
  | columns a out =>
    rcases overflow_of_bind h with h | h
    · exact ⟨a.rows + 1, by simp [sums], Csr.lt_of_validate h⟩
    · exact ⟨a.cols + 1, by simp [sums], lt_of_ensure_sized h⟩
  | sumOffsets a b rowPtr =>
    rcases overflow_of_bind h with h | h
    · rcases lt_of_checkTerms h with ha | hb
      · exact ⟨a.rows + 1, by simp [sums], ha⟩
      · exact ⟨b.rows + 1, by simp [sums], hb⟩
    · exact ⟨a.rows + 1, by simp [sums], lt_of_ensure_sized h⟩
  | sum alpha a beta b c =>
    rcases overflow_of_bind h with h | h
    · rcases lt_of_checkTerms h with ha | hb
      · exact ⟨a.rows + 1, by simp [sums], ha⟩
      · exact ⟨b.rows + 1, by simp [sums], hb⟩
    rcases overflow_of_bind h with h | h
    · exact ⟨a.rows + 1, by simp [sums], lt_of_ensure_sized h⟩
    · exact absurd (overflow_of_argument_bind h) ensure_argument_ne_overflow
  | solve m n lower diagonal upper b ldb =>
    exact ⟨denseLength m n ldb, by simp [sums], lt_of_ensureDense (overflow_of_argument_bind h)⟩
  | solveBatch m lower diagonal upper x count stride =>
    exact ⟨denseLength m count stride, by simp [sums],
      lt_of_ensure_sized (overflow_of_argument_bind h)⟩

/-- Each size of a call that passes is the length of an operand or less. -/
theorem sums_le_lengths {r : Request α} (h : r.check = .ok ()) :
    ∀ size ∈ r.sums, ∃ length ∈ r.lengths, size ≤ length := by
  cases r with
  | offsetsOfRows rowInd m rowPtr =>
    obtain ⟨hlength, -⟩ := check_offsetsOfRows_iff.mp h
    simp [sums, lengths, hlength]
  | rowsOfOffsets rowPtr m rowInd =>
    have hlength := (check_rowsOfOffsets_iff.mp h).length
    simp [sums, lengths, hlength]
  | product op alpha a x beta y =>
    obtain ⟨ha, -⟩ := check_product_iff.mp h
    simp [sums, lengths, ha.offsets.length]
  | productColumns op alpha a b ldb n beta c ldc =>
    obtain ⟨ha, ⟨-, hb⟩, -, hc⟩ := check_productColumns_iff.mp h
    simp [sums, lengths, ha.offsets.length, hb, hc]
  | columns a out =>
    obtain ⟨ha, hout⟩ := check_columns_iff.mp h
    simp [sums, lengths, ha.offsets.length, hout.colPtr]
  | sumOffsets a b rowPtr =>
    obtain ⟨⟨ha, hb, -⟩, -⟩ := check_sumOffsets_iff.mp h
    simp [sums, lengths, ha.offsets.length, hb.offsets.length]
  | sum alpha a beta b c =>
    obtain ⟨⟨ha, hb, -⟩, -⟩ := check_sum_iff.mp h
    simp [sums, lengths, ha.offsets.length, hb.offsets.length]
  | solve m n lower diagonal upper b ldb =>
    obtain ⟨-, -, hb⟩ := check_solve_iff.mp h
    simp [sums, lengths, hb]
  | solveBatch m lower diagonal upper x count stride =>
    obtain ⟨-, -, -, -, hx⟩ := check_solveBatch_iff.mp h
    simp [sums, lengths, hx]

/-- **A call that passes has no size that is too large,** if memory can hold its operands. -/
theorem sums_le_of_check {r : Request α} (h : r.check = .ok ())
    (hlengths : ∀ length ∈ r.lengths, length ≤ maxSize) : ∀ size ∈ r.sums, size ≤ maxSize := by
  intro size hsize
  obtain ⟨length, hlength, hle⟩ := sums_le_lengths h size hsize
  exact Nat.le_trans hle (hlengths length hlength)

end Request

/-! ### Requests of any precision -/

namespace Job

/-- The sizes that a check computes. -/
def sums : Job → List Nat
  | single r => r.sums
  | double r => r.sums
  | complexSingle r => r.sums
  | complexDouble r => r.sums

/-- How many cells the operands have that the sizes are compared with. -/
def lengths : Job → List Nat
  | single r => r.lengths
  | double r => r.lengths
  | complexSingle r => r.lengths
  | complexDouble r => r.lengths

theorem sums_of_overflow {job : Job} (h : job.check = .error .overflow) :
    ∃ size ∈ job.sums, maxSize < size := by
  cases job with
  | single r => exact Request.sums_of_overflow h
  | double r => exact Request.sums_of_overflow h
  | complexSingle r => exact Request.sums_of_overflow h
  | complexDouble r => exact Request.sums_of_overflow h

theorem sums_le_of_check {job : Job} (h : job.check = .ok ())
    (hlengths : ∀ length ∈ job.lengths, length ≤ maxSize) :
    ∀ size ∈ job.sums, size ≤ maxSize := by
  cases job with
  | single r => exact Request.sums_le_of_check h hlengths
  | double r => exact Request.sums_le_of_check h hlengths
  | complexSingle r => exact Request.sums_le_of_check h hlengths
  | complexDouble r => exact Request.sums_le_of_check h hlengths

end Job

end SparseDevice
