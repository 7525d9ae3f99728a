import SparseDevice.Proofs.Kernel.Cells
import SparseDevice.Request

/-!
# Checks that read cells

A check reads a few cells of the offset arrays, and a malformed array may lack them. The definitions
here spell out when each of them is read, in the order in which the tests are made, and trap where
the cell is missing. They turn out to be the checks themselves: the length of an array is always
tested before its cells are read, so the default value that stands in for a missing cell is never
looked at.

## Main definitions

* `Csr.validateReading`, `Request.checkReading`: the checks, with every cell read under a trap.

## Main results

* `Csr.validateReading_eq`, `Request.checkReading_eq`: no operand makes a check trap.
-/

namespace SparseDevice

/-! ### Checks with reads -/

/-- A check that may trap: what is wrong with the operands, if nothing was out of bounds. -/
abbrev Reading : Type := Except Trap (Except Objection Unit)

namespace Reading

/-- Reads the rest of a check if `p` holds and reports `e` if not. -/
def ensuring (p : Prop) [Decidable p] (e : Objection) (next : Reading) : Reading :=
  if p then next else .ok (.error e)

/-- Reads the rest of a check after another check. -/
def after (first next : Reading) : Reading := do
  match ← first with
  | .ok () => next
  | .error e => return .error e

variable {p : Prop} [Decidable p] {e : Objection}

/-- The rest is only read if the condition holds. -/
theorem ensuring_eq {next : Reading} {rest : Unit → Except Objection Unit}
    (h : p → next = .ok (rest ())) : ensuring p e next = .ok (ensure p e >>= rest) := by
  rw [ensuring, ensure]
  split
  · next hp => exact h hp
  · rfl

/-- The last condition of a check. -/
theorem ensuring_last : ensuring p e (.ok (.ok ())) = .ok (ensure p e) := by
  rw [ensuring, ensure]
  split <;> rfl

/-- The rest is only read if the first check passes. -/
theorem after_eq {first next : Reading} {check : Except Objection Unit}
    {rest : Unit → Except Objection Unit} (hfirst : first = .ok check)
    (h : check = .ok () → next = .ok (rest ())) : after first next = .ok (check >>= rest) := by
  rw [after, hfirst]
  cases check with
  | error e => rfl
  | ok u => exact h rfl

end Reading

open Reading

/-! ### Matrices -/

namespace Csr

variable {α : Type}

/-- Whether the arrays of a matrix fit together, with every cell read under a trap. -/
def validateReading (a : Csr α) : Reading :=
  ensuring (a.rowPtr.length = a.rows + 1)
    (.sized (a.rows + 1) (.entryCount "row_ptr" a.rowPtr.length (a.rows + 1))) <|
  ensuring (a.colInd.length = a.nnz) (.argument (.valueCount a.colInd.length a.nnz)) do
    let first ← Buffer.read a.rowPtr 0
    let last ← Buffer.read a.rowPtr a.rows
    ensuring (first = 0 ∧ position last = a.nnz) (.argument (.offsetEnds a.nnz first last)) <|
      ensuring (ascending a.rowPtr) (.argument .offsetOrder) <|
      .ok (match a.colInd.find? fun col => !decide (InRange col a.cols) with
        | some col => .error (.argument (.columnRange col a.cols))
        | none => .ok ())

/-- No matrix makes its own check trap. -/
theorem validateReading_eq (a : Csr α) : a.validateReading = .ok a.validate := by
  refine ensuring_eq fun hlength => ensuring_eq ?_
  intro _
  rw [Buffer.read_getD (by omega : 0 < a.rowPtr.length), Buffer.read_getD (by omega : a.rows < a.rowPtr.length)]
  exact ensuring_eq fun _ => ensuring_eq fun _ => rfl

end Csr

/-! ### Requests -/

namespace Request

variable {α : Type}

/-- Whether two matrices are sound and of one shape, with every cell read under a trap. -/
def checkTermsReading (a b : Csr α) : Reading :=
  after a.validateReading <|
  after b.validateReading <|
  ensuring (a.rows = b.rows ∧ a.cols = b.cols)
    (.argument (.termShapes a.rows a.cols b.rows b.cols)) <|
  .ok (.ok ())

/-- Whether the operands fit together, with every cell read under a trap. -/
def checkReading : Request α → Reading
  | offsetsOfRows rowInd m rowPtr => .ok (offsetsOfRows (α := α) rowInd m rowPtr).check
  | rowsOfOffsets rowPtr m rowInd =>
    ensuring (rowPtr.length = m + 1)
        (.sized (m + 1) (.entryCount "csr_row_ptr" rowPtr.length (m + 1))) do
      let first ← Buffer.read rowPtr 0
      ensuring (first = 0 ∧ ascending rowPtr) (.argument .notOffsets) do
        let last ← Buffer.read rowPtr m
        ensuring (position last = rowInd.length)
          (.argument (.entryCount "coo_row_ind" rowInd.length last.toInt)) <|
        .ok (.ok ())
  | product op _ a x _ y =>
    let (rows, cols) := a.shape op
    after a.validateReading <|
    ensuring (cols ≤ x.length ∧ rows ≤ y.length)
      (.argument (.vectorSpace rows cols x.length y.length)) <|
    .ok (.ok ())
  | productColumns op _ a b ldb n _ c ldc =>
    let (rows, inner) := a.shape op
    after a.validateReading <|
    after (.ok (ensureDense "B" "ldb" inner n ldb b.length)) <|
    .ok (ensureDense "C" "ldc" rows n ldc c.length)
  | columns a out =>
    after a.validateReading <|
    ensuring (out.values.length = a.nnz ∧ out.rowInd.length = a.nnz ∧
      out.colPtr.length = a.cols + 1) (.sized (a.cols + 1) (.columnSpace a.nnz (a.cols + 1))) <|
    .ok (.ok ())
  | sumOffsets a b rowPtr =>
    after (checkTermsReading a b) <|
    ensuring (rowPtr.length = a.rows + 1)
      (.sized (a.rows + 1) (.entryCount "c_row_ptr" rowPtr.length (a.rows + 1))) <|
    .ok (.ok ())
  | sum _ a _ b c =>
    after (checkTermsReading a b) <|
    ensuring (c.rows = a.rows ∧ c.cols = a.cols ∧ c.rowPtr.length = a.rows + 1)
        (.sized (a.rows + 1) (.sumShape a.rows a.cols)) do
      let first ← Buffer.read c.rowPtr 0
      ensuring (first = 0 ∧ ascending c.rowPtr) (.argument .sumOffsets) do
        let last ← Buffer.read c.rowPtr c.rows
        ensuring (position last ≤ c.colInd.length ∧ position last ≤ c.values.length)
          (.argument (.sumSpace (position last))) <|
        .ok (.ok ())
  | solve m n lower diagonal upper b ldb => .ok (solve m n lower diagonal upper b ldb).check
  | solveBatch m lower diagonal upper x count stride =>
    .ok (solveBatch m lower diagonal upper x count stride).check

theorem checkTermsReading_eq (a b : Csr α) : checkTermsReading a b = .ok (checkTerms a b) :=
  after_eq a.validateReading_eq fun _ => after_eq b.validateReading_eq fun _ => ensuring_last

/-- No operands make a check trap. -/
theorem checkReading_eq (r : Request α) : r.checkReading = .ok r.check := by
  cases r with
  | offsetsOfRows rowInd m rowPtr => rfl
  | rowsOfOffsets rowPtr m rowInd =>
    refine ensuring_eq ?_
    intro hlength
    rw [Buffer.read_getD (by omega : 0 < rowPtr.length)]
    refine ensuring_eq ?_
    intro _
    rw [Buffer.read_getD (by omega : m < rowPtr.length)]
    exact ensuring_last
  | product op alpha a x beta y => exact after_eq a.validateReading_eq fun _ => ensuring_last
  | productColumns op alpha a b ldb n beta c ldc =>
    exact after_eq a.validateReading_eq fun _ => after_eq rfl fun _ => rfl
  | columns a out => exact after_eq a.validateReading_eq fun _ => ensuring_last
  | sumOffsets a b rowPtr => exact after_eq (checkTermsReading_eq a b) fun _ => ensuring_last
  | sum alpha a beta b c =>
    refine after_eq (checkTermsReading_eq a b) fun _ => ensuring_eq ?_
    intro hshape
    obtain ⟨hrows, -, hlength⟩ := hshape
    rw [Buffer.read_getD (by omega : 0 < c.rowPtr.length)]
    refine ensuring_eq ?_
    intro _
    rw [Buffer.read_getD (by omega : c.rows < c.rowPtr.length)]
    exact ensuring_last
  | solve m n lower diagonal upper b ldb => rfl
  | solveBatch m lower diagonal upper x count stride => rfl

end Request

/-- Whether the operands of a job fit together, with every cell read under a trap. -/
def Job.checkReading : Job → Reading
  | single r => r.checkReading
  | double r => r.checkReading
  | complexSingle r => r.checkReading
  | complexDouble r => r.checkReading

theorem Job.checkReading_eq (j : Job) : j.checkReading = .ok j.check := by
  cases j with
  | single r => exact r.checkReading_eq
  | double r => exact r.checkReading_eq
  | complexSingle r => exact r.checkReading_eq
  | complexDouble r => exact r.checkReading_eq

end SparseDevice
