import SparseDevice.Proofs.Kernel.Acceptance
import SparseDevice.Proofs.Kernel.Conversion
import SparseDevice.Proofs.Kernel.DenseProduct
import SparseDevice.Proofs.Kernel.Sorting
import SparseDevice.Request

/-!
# Checked requests

For each routine, the operands that its check lets pass, and what the routine makes of them. A check
is a few comparisons in a row; here it becomes one condition on the operands. A routine that is given
such operands has a closed form, with two exceptions: a sum is stored row by row until the offsets of
the caller do not fit, and a solver may find no solution.

## Main definitions

* `Csc.Fits`: buffers for a matrix by columns.

## Main results

* `Request.check_product_iff` and its like: what a check asks for.
* `Request.perform_product` and its like: what a checked request writes.
-/

namespace SparseDevice

variable {α : Type}

/-- The arrays have the sizes that a matrix takes by columns. -/
structure Csc.Fits (out : Csc α) (a : Csr α) : Prop where
  values : out.values.length = a.nnz
  rowInd : out.rowInd.length = a.nnz
  colPtr : out.colPtr.length = a.cols + 1

namespace Request

/-! ### What a check asks for -/

section Check

variable {m n ldb ldc count stride : Nat} {rowInd rowPtr : List Int32} {op : Operation}
  {alpha beta : α} {a b c : Csr α} {x y xs ys : List α} {out : Csc α}
  {lower diagonal upper : List α}

theorem check_offsetsOfRows_iff : (offsetsOfRows rowInd m rowPtr : Request α).check = .ok () ↔
    rowPtr.length = m + 1 ∧ (∀ row ∈ rowInd, InRange row m) ∧ rowInd.Pairwise (· ≤ ·) := by
  rw [check, ensure_bind_eq_ok_iff, ensure_bind_eq_ok_iff, ensure_eq_ok_iff,
    ascending_iff_pairwise, List.all_eq_true]
  simp only [decide_eq_true_eq]

/-- The offsets lead to as many rows as there is room for, so the length of the output is checked with
them. -/
theorem check_rowsOfOffsets_iff : (rowsOfOffsets rowPtr m rowInd : Request α).check = .ok () ↔
    IsOffsets rowPtr m rowInd.length := by
  rw [check, ensure_bind_eq_ok_iff, ensure_bind_eq_ok_iff, ensure_eq_ok_iff]
  constructor
  · rintro ⟨hlength, ⟨hzero, hascending⟩, htotal⟩
    rw [← htotal]
    exact isOffsets_of_check hlength hzero hascending
  · intro h
    exact ⟨h.length, h.check, h.last⟩

/-- A vector may be longer than its side of the matrix. -/
theorem check_product_iff : (product op alpha a x beta y).check = .ok () ↔
    a.Valid ∧ (a.shape op).2 ≤ x.length ∧ (a.shape op).1 ≤ y.length := by
  rw [check, Csr.validate_bind_eq_ok_iff]
  exact and_congr_right fun _ => ensure_eq_ok_iff

/-- The last column needs no padding behind it. -/
theorem check_productColumns_iff :
    (productColumns op alpha a xs ldb n beta ys ldc).check = .ok () ↔
      a.Valid ∧ ((a.shape op).2 ≤ ldb ∧ denseLength (a.shape op).2 n ldb ≤ xs.length) ∧
        (a.shape op).1 ≤ ldc ∧ denseLength (a.shape op).1 n ldc ≤ ys.length := by
  rw [check, Csr.validate_bind_eq_ok_iff]
  refine and_congr_right fun _ => ensure_bind_eq_ok_iff.trans ?_
  exact and_congr_right fun _ => ensure_eq_ok_iff

theorem check_columns_iff : (columns a out).check = .ok () ↔ a.Valid ∧ out.Fits a := by
  rw [check, Csr.validate_bind_eq_ok_iff, ensure_eq_ok_iff]
  refine and_congr_right fun _ => ⟨?_, fun h => ⟨h.values, h.rowInd, h.colPtr⟩⟩
  rintro ⟨hvalues, hrowInd, hcolPtr⟩
  exact ⟨hvalues, hrowInd, hcolPtr⟩

theorem check_columns (ha : a.Valid) (hout : out.Fits a) : (columns a out).check = .ok () :=
  check_columns_iff.mpr ⟨ha, hout⟩

/-- The part of the check that both calls for a sum have in common. -/
theorem checkTerms_eq_ok_iff :
    checkTerms a b = .ok () ↔ a.Valid ∧ b.Valid ∧ a.rows = b.rows ∧ a.cols = b.cols := by
  rw [checkTerms, Csr.validate_bind_eq_ok_iff, Csr.validate_bind_eq_ok_iff, ensure_eq_ok_iff]

theorem checkTerms_bind_eq_ok_iff {β : Type} {next : Unit → Except Objection β} {r : β} :
    checkTerms a b >>= next = .ok r ↔
      (a.Valid ∧ b.Valid ∧ a.rows = b.rows ∧ a.cols = b.cols) ∧ next () = .ok r := by
  rw [bind_eq_ok_iff, ← checkTerms_eq_ok_iff]
  exact ⟨fun ⟨⟨⟩, h⟩ => h, fun h => ⟨(), h⟩⟩

theorem check_sumOffsets_iff : (sumOffsets a b rowPtr).check = .ok () ↔
    (a.Valid ∧ b.Valid ∧ a.rows = b.rows ∧ a.cols = b.cols) ∧ rowPtr.length = a.rows + 1 := by
  rw [check, checkTerms_bind_eq_ok_iff, ensure_eq_ok_iff]

/-- The offsets of the sum are those of the caller; only their shape is checked. -/
theorem check_sum_iff : (sum alpha a beta b c).check = .ok () ↔
    (a.Valid ∧ b.Valid ∧ a.rows = b.rows ∧ a.cols = b.cols) ∧
      c.rows = a.rows ∧ c.cols = a.cols ∧ c.HasRoom a.rows := by
  rw [check, checkTerms_bind_eq_ok_iff, ensure_bind_eq_ok_iff, ensure_bind_eq_ok_iff,
    ensure_eq_ok_iff]
  refine and_congr_right fun _ => ⟨?_, ?_⟩
  · rintro ⟨⟨hrows, hcols, hlength⟩, ⟨hzero, hascending⟩, hcolInd, hvalues⟩
    rw [hrows] at hcolInd hvalues
    exact ⟨hrows, hcols, isOffsets_of_check hlength hzero hascending, hcolInd, hvalues⟩
  · rintro ⟨hrows, hcols, hroom⟩
    rw [hrows]
    exact ⟨⟨rfl, hcols, hroom.offsets.length⟩, hroom.offsets.check, hroom.colInd, hroom.values⟩

/-- The two outer diagonals are as long as the main one, although a cell of each is not part of the
system. -/
theorem check_solve_iff : (solve m n lower diagonal upper x ldb).check = .ok () ↔
    (lower.length = m ∧ diagonal.length = m ∧ upper.length = m) ∧
      m ≤ ldb ∧ denseLength m n ldb ≤ x.length := by
  rw [check, ensure_bind_eq_ok_iff, ensureDense_eq_ok_iff]

theorem check_solveBatch_iff : (solveBatch m lower diagonal upper x count stride).check = .ok () ↔
    m ≤ stride ∧ denseLength m count stride ≤ lower.length ∧
      denseLength m count stride ≤ diagonal.length ∧
        denseLength m count stride ≤ upper.length ∧ denseLength m count stride ≤ x.length := by
  rw [check, ensure_bind_eq_ok_iff]
  exact and_congr_right fun _ => ensure_eq_ok_iff

end Check

/-! ### What a checked request writes -/

section Perform

variable [Zero α] [One α] [Add α] [Sub α] [Mul α] [Div α] [Scalar α]
variable {m n ldb ldc : Nat} {rowInd rowPtr : List Int32} {op : Operation}
  {alpha beta : α} {a b : Csr α} {x y xs ys : List α} {out : Csc α}

/-- No counter overflows if the indices can be counted. -/
theorem perform_offsetsOfRows (hlength : rowPtr.length = m + 1)
    (hrange : ∀ row ∈ rowInd, InRange row m) (hcount : rowInd.length ≤ maxCount) :
    (offsetsOfRows rowInd m rowPtr : Request α).perform =
      .ok (.ok .done, offsetsOfRows rowInd m (Offsets.ranks rowInd m)) := by
  rw [perform, Offsets.ofRows_eq hlength hrange hcount]
  rfl

theorem perform_rowsOfOffsets (h : IsOffsets rowPtr m rowInd.length) :
    (rowsOfOffsets rowPtr m rowInd : Request α).perform =
      .ok (.ok .done, rowsOfOffsets rowPtr m (Offsets.expand rowPtr m)) := by
  rw [perform, Offsets.toRows_eq h]
  rfl

theorem perform_product (ha : a.Valid) (hx : (a.shape op).2 ≤ x.length)
    (hy : (a.shape op).1 ≤ y.length) : (product op alpha a x beta y).perform =
      .ok (.ok .done, product op alpha a x beta (Product.written op alpha a x beta y)) := by
  rw [perform, Product.vector_eq ha hx hy]
  rfl

/-- The columns are written from left to right. -/
theorem perform_productColumns (ha : a.Valid) (hxs : denseLength (a.shape op).2 n ldb ≤ xs.length)
    (hstride : (a.shape op).1 ≤ ldc) (hys : denseLength (a.shape op).1 n ldc ≤ ys.length) :
    (productColumns op alpha a xs ldb n beta ys ldc).perform =
      .ok (.ok .done, productColumns op alpha a xs ldb n beta
        (Product.writtenColumns op alpha a xs ldb (List.range n) beta ys ldc) ldc) := by
  rw [perform, Product.columns_eq ha hxs hstride hys]
  rfl

theorem perform_columns (ha : a.Valid) (hout : out.Fits a) :
    (columns a out).perform = .ok (.ok .done, columns a (Csc.transposed a)) := by
  rw [perform, Csc.ofCsr_eq ha hout.values hout.rowInd hout.colPtr]
  rfl

/-- The number of entries that is answered is where the last row ends. -/
theorem perform_sumOffsets (h : Addition.Addable a b) (hlength : rowPtr.length = a.rows + 1) :
    (sumOffsets a b rowPtr).perform =
      .ok (.ok (.count (Addition.start a b a.rows)), sumOffsets a b (Addition.starts a b)) := by
  rw [perform, Addition.offsets_eq h hlength]
  rfl

end Perform

end Request

end SparseDevice
