import SparseDevice.Proofs.Kernel.Denotation
import SparseDevice.Proofs.Kernel.Transpose

/-!
# Products with a transpose

A product with the transpose, and the plain product with the matrix that is stored as the transpose,
add up the same terms. They do so in different ways: the first folds the factor `alpha` into the
vector and adds each entry to the cell of its column, the second finishes the sum of a row before it
multiplies by `alpha`. And the rows of the stored transpose, seen by columns again, are the rows of
the matrix in another order. So it takes the laws of a commutative ring, and no others, to see that
the cells are the same.

## Main definitions

* `Csr.mapValues`: the matrix with a function applied to each value.

## Main results

* `Csc.rowEntries_transpose_eq`, `Csc.columnEntries_transpose_perm`: rows and columns of the
  transpose are columns and rows of the matrix, the latter in another order.
* `Product.written_transpose`, `Product.written_conjugateTranspose`: a transposed product is the
  plain product with the stored transpose.
* `Product.written_nonTranspose`: the plain product is a transposed product with it.
-/

namespace SparseDevice

variable {α : Type}

/-! ### Values -/

namespace Csr

/-- The matrix with a function applied to each value. -/
def mapValues (f : α → α) (a : Csr α) : Csr α := { a with values := a.values.map f }

@[simp] theorem mapValues_id (a : Csr α) : a.mapValues id = a := by
  rw [mapValues, List.map_id]

theorem rowEntries_mapValues (f : α → α) (a : Csr α) (row : Nat) :
    (a.mapValues f).rowEntries row = (a.rowEntries row).map fun entry => (entry.1, f entry.2) := by
  have hentries : (a.mapValues f).entries = a.entries.map fun entry => (entry.1, f entry.2) := by
    rw [entries, entries, mapValues, List.zip_map_right]
    rfl
  rw [rowEntries, rowEntries, hentries, ← List.map_drop, ← List.map_take]
  rfl

theorem Valid.mapValues {a : Csr α} (ha : a.Valid) (f : α → α) : (a.mapValues f).Valid := by
  have hnnz : (a.mapValues f).nnz = a.nnz := List.length_map f
  refine ⟨?_, ?_, ha.inRange⟩
  · rw [hnnz]
    exact ha.offsets
  · rw [hnnz]
    exact ha.colInd

end Csr

/-! ### Rows and columns of the transpose -/

namespace Csc

variable {a : Csr α}

/-- A row of the transpose is a column of the matrix. -/
theorem rowEntries_transpose_eq (ha : a.Valid) {column : Nat} (hcolumn : column < a.cols) :
    (transpose a).rowEntries column =
      (a.columnEntries column a.rows).map fun entry => (Int32.ofNat entry.1, entry.2) := by
  rw [rowEntries_transpose ha hcolumn, bucket, Csr.triples, filter_blocks, map_blocks,
    Csr.columnEntries, map_blocks]
  refine blocks_congr fun row _ => ?_
  rw [Csr.rowTriples, List.filter_map, List.map_map, List.map_map]
  rfl

/-- The entries of a column that lie in one row. -/
theorem bucket_columnEntries (hrows : a.rows ≤ maxCount + 1) {row : Nat} (hrow : row < a.rows)
    (column : Nat) :
    bucket (fun entry => position (Int32.ofNat entry.1)) (a.columnEntries column a.rows) row =
      (bucket (fun entry => position entry.1) (a.rowEntries row) column).map
        fun entry => (row, entry.2) := by
  rw [bucket, Csr.columnEntries, filter_blocks, blocks_of_eq_nil hrow]
  · refine List.filter_eq_self.mpr fun t ht => ?_
    obtain ⟨entry, -, rfl⟩ := List.mem_map.mp ht
    exact decide_eq_true (position_ofNat (by omega))
  · intro other hother hne
    refine List.filter_eq_nil_iff.mpr fun t ht => ?_
    obtain ⟨entry, -, rfl⟩ := List.mem_map.mp ht
    rw [decide_eq_true_eq, position_ofNat (by omega)]
    exact hne

/-- A column of the transpose is a row of the matrix, sorted by column. -/
theorem columnEntries_transpose_perm (ha : a.Valid) (hrows : a.rows ≤ maxCount + 1) {row : Nat}
    (hrow : row < a.rows) :
    ((transpose a).columnEntries row a.cols).Perm
      ((a.rowEntries row).map fun entry => (position entry.1, entry.2)) := by
  have hsorted : blocks (bucket (fun entry => position entry.1) (a.rowEntries row)) a.cols =
      (a.rowEntries row).mergeSort fun e e' => decide (e.1 ≤ e'.1) :=
    blocks_bucket_position (fun entry : Int32 × α => entry.1) fun entry hentry =>
      ha.inRange entry.1 (List.of_mem_zip (ha.mem_entries hentry)).1
  have hblocks : (transpose a).columnEntries row a.cols =
      (blocks (bucket (fun entry => position entry.1) (a.rowEntries row)) a.cols).map
        fun entry => (position entry.1, entry.2) := by
    rw [Csr.columnEntries, map_blocks]
    refine blocks_congr fun column hcolumn => ?_
    rw [rowEntries_transpose_eq ha hcolumn, bucket_map, bucket_columnEntries hrows hrow,
      List.map_map, List.map_map]
    refine List.map_congr_left fun entry hentry => ?_
    rw [(mem_bucket.mp hentry).2]
    rfl
  rw [hblocks, hsorted]
  exact (List.mergeSort_perm _ _).map _

end Csc

/-! ### Sums -/

namespace Product

section Sums

variable [CommRing α] {a : Csr α} {x : List α}

/-- What the cell of a column receives is the sum of a row of the transpose. -/
theorem received_columnEntries (ha : a.Valid) (hrows : a.rows ≤ maxCount + 1) (value : α → α)
    (alpha v : α) {column : Nat} (hcolumn : column < a.cols) :
    received value alpha x (a.columnEntries column a.rows) v =
      v + alpha * rowTotal x (((Csc.transpose a).mapValues value).rowEntries column) := by
  rw [received_eq_sum, rowTotal_eq_sum, Csr.rowEntries_mapValues,
    Csc.rowEntries_transpose_eq ha hcolumn, List.map_map, List.map_map]
  refine congrArg (fun terms => v + alpha * List.sum terms) (List.map_congr_left fun t ht => ?_)
  obtain ⟨row, hrow, ht⟩ := mem_blocks.mp ht
  obtain ⟨entry, -, rfl⟩ := List.mem_map.mp ht
  simp only [Function.comp_apply, position_ofNat (show row ≤ maxCount by omega)]

/-- What the cell of a row receives from the transpose is the sum of the row. -/
theorem received_columnEntries_transpose (ha : a.Valid) (hrows : a.rows ≤ maxCount + 1)
    (alpha v : α) {row : Nat} (hrow : row < a.rows) :
    received id alpha x ((Csc.transpose a).columnEntries row a.cols) v =
      v + alpha * rowTotal x (a.rowEntries row) := by
  have hperm := (Csc.columnEntries_transpose_perm ha hrows hrow).map
    fun entry : Nat × α => entry.2 * x.getD entry.1 0
  rw [received_eq_sum, rowTotal_eq_sum]
  simp only [id_eq]
  rw [hperm.sum_eq, List.map_map]
  rfl

end Sums

/-! ### The outputs -/

theorem written_congr [Zero α] [Add α] [Mul α] [Scalar α] {op op' : Operation} {alpha beta : α}
    {a b : Csr α} {x y : List α} (hshape : (a.shape op).1 = (b.shape op').1)
    (hcell : ∀ i v, i < (a.shape op).1 → cell op alpha a x beta i v = cell op' alpha b x beta i v) :
    written op alpha a x beta y = written op' alpha b x beta y := by
  rw [written, written, ← hshape]
  refine congrArg (y.mapIdx ·) (funext fun i => funext fun v => ?_)
  split
  · next hi => exact hcell i v hi
  · rfl

variable [CommRing α] [Scalar α] {a : Csr α}

/-- **A transposed product is the plain product with the transpose.** -/
theorem written_transpose (ha : a.Valid) (hrows : a.rows ≤ maxCount + 1) (alpha beta : α)
    (x y : List α) : written .transpose alpha a x beta y =
      written .nonTranspose alpha (Csc.transpose a) x beta y := by
  refine written_congr rfl fun column v hcolumn => ?_
  rw [cell, cell, received_columnEntries ha hrows id alpha _ hcolumn, Csr.mapValues_id]

/-- A conjugate transposed product is the plain product with the conjugate of the transpose. -/
theorem written_conjugateTranspose (ha : a.Valid) (hrows : a.rows ≤ maxCount + 1) (alpha beta : α)
    (x y : List α) : written .conjugateTranspose alpha a x beta y =
      written .nonTranspose alpha ((Csc.transpose a).mapValues Scalar.conj) x beta y := by
  refine written_congr rfl fun column v hcolumn => ?_
  rw [cell, cell, received_columnEntries ha hrows Scalar.conj alpha _ hcolumn]

/-- The plain product is the transposed product with the transpose. -/
theorem written_nonTranspose (ha : a.Valid) (hrows : a.rows ≤ maxCount + 1) (alpha beta : α)
    (x y : List α) : written .nonTranspose alpha a x beta y =
      written .transpose alpha (Csc.transpose a) x beta y := by
  refine written_congr rfl fun row v hrow => ?_
  exact (received_columnEntries_transpose ha hrows alpha _ hrow).symm

end Product

end SparseDevice
