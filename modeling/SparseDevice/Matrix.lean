import SparseDevice.Argument
import SparseDevice.Precision

/-!
# Compressed sparse row matrices

A matrix is stored by rows: `rowPtr` holds where each row starts, `colInd` and `values` hold the
entries one row after the other. The type says nothing about whether the three arrays fit
together. A routine may be handed arrays that do not, and then it traps or computes what the arrays
say; `Csr.validate` is the check that rules this out.

The columns of a row may come in any order, and a column may occur more than once.

## Main definitions

* `Operation`: the matrix itself, its transpose, or its conjugate transpose.
* `Csr`: the three arrays and a shape.
* `Csr.row`: the entries of a row, read off the arrays.
* `Csr.validate`: whether the arrays fit together.
* `denseLength`: the space that a dense matrix takes.
* `ensureDense`: whether a dense operand has that space.
-/

namespace SparseDevice

/-- How a sparse operand enters a routine. -/
inductive Operation where
  | nonTranspose
  | transpose
  | conjugateTranspose
deriving DecidableEq

namespace Operation

instance : Inhabited Operation := ⟨nonTranspose⟩

/-- The name of an operation. -/
def name : Operation → String
  | nonTranspose => "NonTranspose"
  | transpose => "Transpose"
  | conjugateTranspose => "ConjugateTranspose"

/-- Whether rows and columns change places. -/
def isTransposed : Operation → Bool
  | nonTranspose => false
  | transpose | conjugateTranspose => true

@[simp] theorem default_eq : (default : Operation) = nonTranspose := rfl

end Operation

/-- The full name of the product routine. The plain product has a kernel of its own. -/
def Precision.productEntryPoint (p : Precision) : Operation → String
  | .nonTranspose => p.entryPoint "csrmv_mp"
  | .transpose | .conjugateTranspose => p.entryPoint "csrmv"

/-- A matrix by rows, its indices counted from zero. -/
structure Csr (α : Type) where
  rows : Nat
  cols : Nat
  /-- Where each row starts, and last where the last row ends. -/
  rowPtr : List Int32
  /-- The column of each entry. -/
  colInd : List Int32
  /-- The value of each entry. -/
  values : List α
deriving DecidableEq

namespace Csr

variable {α : Type}

/-- The number of entries. -/
def nnz (a : Csr α) : Nat := a.values.length

/-- Rows and columns of the matrix as it enters a routine. -/
def shape (a : Csr α) (op : Operation) : Nat × Nat :=
  if op.isTransposed then (a.cols, a.rows) else (a.rows, a.cols)

@[simp] theorem shape_nonTranspose (a : Csr α) : a.shape .nonTranspose = (a.rows, a.cols) := rfl

@[simp] theorem shape_transpose (a : Csr α) : a.shape .transpose = (a.cols, a.rows) := rfl

@[simp] theorem shape_conjugateTranspose (a : Csr α) :
    a.shape .conjugateTranspose = (a.cols, a.rows) := rfl

/-- Where the entries of a row start and end. -/
def rowRange (a : Csr α) (row : Nat) : Except Trap (Nat × Nat) := do
  let start ← Buffer.read a.rowPtr row
  let stop ← Buffer.read a.rowPtr (row + 1)
  return (position start, position stop)

/-- The entries of a row, each with its column. -/
def row (a : Csr α) (row : Nat) : Except Trap (List (Int32 × α)) := do
  let (start, stop) ← a.rowRange row
  let columns ← Buffer.segment a.colInd start stop
  let values ← Buffer.segment a.values start stop
  return columns.zip values

/-- Whether the arrays fit together: one offset more than rows, a column for each value, offsets
that run from zero to the number of values without decreasing, and every column within the
matrix. -/
def validate (a : Csr α) : Except Objection Unit := do
  ensure (a.rowPtr.length = a.rows + 1)
    (.sized (a.rows + 1) (.entryCount "row_ptr" a.rowPtr.length (a.rows + 1)))
  ensure (a.colInd.length = a.nnz) (.argument (.valueCount a.colInd.length a.nnz))
  ensure (a.rowPtr.getD 0 0 = 0 ∧ position (a.rowPtr.getD a.rows 0) = a.nnz)
    (.argument (.offsetEnds a.nnz (a.rowPtr.getD 0 0) (a.rowPtr.getD a.rows 0)))
  ensure (ascending a.rowPtr) (.argument .offsetOrder)
  match a.colInd.find? fun col => !decide (InRange col a.cols) with
  | some col => .error (.argument (.columnRange col a.cols))
  | none => .ok ()

theorem validate_eq_ok_iff {a : Csr α} :
    a.validate = .ok () ↔
      a.rowPtr.length = a.rows + 1 ∧ a.colInd.length = a.nnz ∧
        (a.rowPtr.getD 0 0 = 0 ∧ position (a.rowPtr.getD a.rows 0) = a.nnz) ∧
          ascending a.rowPtr = true ∧ ∀ col ∈ a.colInd, InRange col a.cols := by
  unfold validate
  simp only [ensure_bind_eq_ok_iff]
  refine and_congr_right fun _ => and_congr_right fun _ => and_congr_right fun _ =>
    and_congr_right fun _ => ?_
  cases hf : a.colInd.find? fun col => !decide (InRange col a.cols) with
  | none => simpa using hf
  | some col =>
    have hmem := List.mem_of_find?_eq_some hf
    have hcol := List.find?_some hf
    simp only [Bool.not_eq_eq_eq_not, Bool.not_true, decide_eq_false_iff_not] at hcol
    simpa using ⟨col, hmem, hcol⟩

end Csr

/-- The cells that a dense matrix takes, stored by columns that start `stride` apart. The number may
be beyond the largest size, and it is for a check to find out. -/
def denseLength (rows cols stride : Nat) : Nat :=
  if rows = 0 ∨ cols = 0 then 0 else stride * (cols - 1) + rows

@[simp] theorem denseLength_zero_left (cols stride : Nat) : denseLength 0 cols stride = 0 := by
  simp [denseLength]

@[simp] theorem denseLength_zero_right (rows stride : Nat) : denseLength rows 0 stride = 0 := by
  simp [denseLength]

theorem denseLength_succ {rows : Nat} (h : rows ≠ 0) (cols stride : Nat) :
    denseLength rows (cols + 1) stride = stride * cols + rows := by
  simp [denseLength, h]

/-- Whether a dense operand of `length` cells has columns that do not overlap and space for all of
them. The space is only computed if the columns do not overlap. -/
def ensureDense (operand strideName : String) (rows cols stride length : Nat) :
    Except Objection Unit :=
  ensure (rows ≤ stride ∧ denseLength rows cols stride ≤ length)
    (if rows ≤ stride then
      .sized (denseLength rows cols stride) (.denseSpace operand strideName rows cols)
    else .argument (.denseSpace operand strideName rows cols))

@[simp] theorem ensureDense_eq_ok_iff {operand strideName : String}
    {rows cols stride length : Nat} :
    ensureDense operand strideName rows cols stride length = .ok () ↔
      rows ≤ stride ∧ denseLength rows cols stride ≤ length := ensure_eq_ok_iff

end SparseDevice
