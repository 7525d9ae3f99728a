import SparseDevice.Buffer

/-!
# Rejected arguments

What can be wrong with the operands of a routine, each way a constructor with the numbers that its
message quotes. A rejected call has not touched anything.

A check computes sizes from the numbers of the caller: how many offsets so many rows have, how many
cells a dense operand takes. These are unsigned 64-bit numbers, and a size beyond the largest of them
ends the check on the spot. No operand has that many cells, so where such a size is compared with the
length of an operand the comparison fails anyway. So it is enough to look at the size once the
comparison has failed, and `ensure_sized` says so.

## Main definitions

* `ArgumentError`: the ways in which operands do not fit, and `ArgumentError.message`.
* `Objection`: why a check does not let a call pass, an overflow included.
* `ensure`: a check with the error that it reports.
-/

namespace SparseDevice

/-- What is wrong with the operands of a routine. -/
inductive ArgumentError where
  /-- An index array has the wrong length. -/
  | entryCount (array : String) (actual : Nat) (expected : Int)
  /-- A matrix has more or fewer column indices than values. -/
  | valueCount (indices values : Nat)
  /-- The row offsets of a matrix do not run from zero to the number of its values. -/
  | offsetEnds (values : Nat) (first last : Int32)
  /-- The row offsets of a matrix decrease somewhere. -/
  | offsetOrder
  /-- A matrix has an entry beside its columns. -/
  | columnRange (column : Int32) (columns : Nat)
  /-- A row index of a coordinate list is beside the rows. -/
  | rowRange
  /-- The row indices of a coordinate list decrease somewhere. -/
  | rowOrder
  /-- An array of row offsets does not start at zero or decreases somewhere. -/
  | notOffsets
  /-- The row offsets of a sum have not been computed. -/
  | sumOffsets
  /-- The vectors of a product are too short. -/
  | vectorSpace (rows columns x y : Nat)
  /-- A dense operand is too short, or its columns are closer than they are long. -/
  | denseSpace (operand stride : String) (rows columns : Nat)
  /-- The arrays for a matrix by columns have the wrong length. -/
  | columnSpace (values offsets : Nat)
  /-- The matrix that takes a sum has another shape than the terms. -/
  | sumShape (rows columns : Nat)
  /-- The matrix that takes a sum is too short. -/
  | sumSpace (values : Nat)
  /-- The terms of a sum differ in shape. -/
  | termShapes (rows columns otherRows otherColumns : Nat)
  /-- A diagonal has the wrong length. -/
  | diagonalLength (size : Nat)
  /-- The systems of a batch overlap. -/
  | batchStride (stride size : Nat)
  /-- An operand of a batch is too short. -/
  | batchSpace (needed : Nat)
  /-- Anything else, in the words of whoever found it. -/
  | other (text : String)
deriving DecidableEq

namespace ArgumentError

/-- The words for what is wrong. -/
def text : ArgumentError → String
  | entryCount array actual expected => s!"{array} has {actual} entries, expected {expected}"
  | valueCount indices values => s!"col_ind has {indices} entries but there are {values} values"
  | offsetEnds values first last =>
    s!"row_ptr must run from 0 to {values}, got {first.toInt}..{last.toInt}"
  | offsetOrder => "row_ptr is not monotonically increasing"
  | columnRange column columns =>
    s!"column index {column.toInt} out of bounds for {columns} columns"
  | rowRange => "COO row index out of bounds"
  | rowOrder => "COO row indices must be sorted"
  | notOffsets => "csr_row_ptr is not a valid offset array"
  | sumOffsets => "c.row_ptr is not a valid offset array, run csrgeam_nnz first"
  | vectorSpace rows columns x y =>
    s!"op(A) is {rows}x{columns} but x has {x} and y has {y} entries"
  | denseSpace operand stride rows columns =>
    s!"{operand} must be {rows}x{columns} with {stride} >= {rows}"
  | columnSpace values offsets =>
    s!"CSC output needs {values} values, {values} row indices and {offsets} column offsets"
  | sumShape rows columns => s!"C must be {rows}x{columns} with {rows + 1} row offsets"
  | sumSpace values => s!"C needs room for {values} non zeros"
  | termShapes rows columns otherRows otherColumns =>
    s!"A is {rows}x{columns} but B is {otherRows}x{otherColumns}"
  | diagonalLength size => s!"diagonals must have {size} entries"
  | batchStride stride size => s!"batch_stride {stride} is smaller than the system size {size}"
  | batchSpace needed => s!"every operand needs at least {needed} entries"
  | other text => text

/-- The message for what is wrong. -/
def message (e : ArgumentError) : String := "Invalid argument: " ++ e.text

end ArgumentError

/-! ### Checks -/

/-- The largest size. -/
def maxSize : Nat := 18446744073709551615

/-- Why a check does not let a call pass. -/
inductive Objection where
  /-- The operands do not fit together. -/
  | argument (e : ArgumentError)
  /-- A size that the check computes is beyond the largest one. -/
  | overflow
deriving DecidableEq

/-- What a comparison with `size` reports when it fails: that `size` is beyond the largest one, or
else `e`. -/
def Objection.sized (size : Nat) (e : ArgumentError) : Objection :=
  if size ≤ maxSize then .argument e else .overflow

theorem Objection.sized_of_le {size : Nat} (h : size ≤ maxSize) (e : ArgumentError) :
    Objection.sized size e = .argument e := by
  simp [Objection.sized, h]

theorem Objection.sized_of_lt {size : Nat} (h : maxSize < size) (e : ArgumentError) :
    Objection.sized size e = .overflow := by
  simp [Objection.sized, Nat.not_le.mpr h]

theorem Objection.sized_eq_overflow_iff {size : Nat} {e : ArgumentError} :
    Objection.sized size e = .overflow ↔ maxSize < size := by
  unfold Objection.sized
  split <;> simp <;> omega

/-- Goes on if `p` holds and reports `e` if not. -/
def ensure {ε : Type} (p : Prop) [Decidable p] (e : ε) : Except ε Unit :=
  if p then .ok () else .error e

section Ensure

variable {ε : Type} {p : Prop} [Decidable p] {e : ε}

@[simp] theorem ensure_eq_ok_iff : ensure p e = .ok () ↔ p := by
  by_cases h : p <;> simp [ensure, h]

theorem ensure_of_not (h : ¬p) : ensure p e = .error e := by simp [ensure, h]

/-- A comparison that no size beyond the largest one satisfies may as well be made before the size
is looked at. -/
theorem ensure_sized {size : Nat} (hp : p → size ≤ maxSize) (e : ArgumentError) :
    ensure p (Objection.sized size e) =
      if size ≤ maxSize then ensure p (Objection.argument e) else .error .overflow := by
  by_cases h : size ≤ maxSize
  · rw [Objection.sized_of_le h, if_pos h]
  · rw [Objection.sized_of_lt (Nat.lt_of_not_le h), if_neg h, ensure_of_not (mt hp h)]

/-- A row of checks passes if each of them does. -/
theorem ensure_bind_eq_ok_iff {α : Type} {next : Unit → Except ε α} {a : α} :
    ensure p e >>= next = .ok a ↔ p ∧ next () = .ok a := by
  by_cases h : p <;> simp [ensure, h, bind, Except.bind]

end Ensure

end SparseDevice
