import Mathlib.Algebra.BigOperators.Intervals
import Mathlib.Algebra.BigOperators.Ring.List
import SparseDevice.Proofs.Kernel.Product

/-!
# The matrix that the arrays denote

A cell of a sparse matrix is the sum of the entries of its row that have its column, so the order of
the entries and repeated columns are of no account. Over a commutative ring a product with a vector
is determined by these cells: the plain product sums up a row entry by entry, and the entries of one
column have a common factor; the transposed products add up the entries of a column row by row, and
the entries of one row have a common factor.

## Main definitions

* `Csr.denseEntry`: a cell of the matrix.
* `Csr.opEntry`: a cell of the matrix as it enters a routine.
* `Product.Computed`: the output of a product, by the cells of the matrix.

## Main results

* `Csr.Valid.denseEntry_eq`: a cell of the matrix, from the entries of its row.
* `Product.computed_written`: a product writes this output.
-/

namespace SparseDevice

variable {α : Type}

/-! ### Sums over buckets and blocks -/

section Sums

variable {μ : Type} [AddCommMonoid α]

theorem sum_map_bucket (key : μ → Nat) (f : μ → α) (xs : List μ) (j : Nat) :
    ((bucket key xs j).map f).sum = (xs.map fun x => if key x = j then f x else 0).sum := by
  induction xs with
  | nil => rfl
  | cons x xs ih =>
    rw [List.map_cons, List.sum_cons, ← ih, bucket, bucket, List.filter_cons]
    by_cases hx : key x = j
    · simp [hx]
    · simp [hx]

/-- The buckets take all items if the keys are small. -/
theorem sum_map_eq_sum_buckets {key : μ → Nat} {xs : List μ} {n : Nat} (hlt : ∀ x ∈ xs, key x < n)
    (f : μ → α) : (xs.map f).sum = ∑ j ∈ Finset.range n, ((bucket key xs j).map f).sum := by
  simp only [sum_map_bucket]
  induction xs with
  | nil => simp
  | cons x xs ih =>
    have hx : key x ∈ Finset.range n := Finset.mem_range.mpr (hlt x List.mem_cons_self)
    simp only [List.map_cons, List.sum_cons]
    rw [Finset.sum_add_distrib, Finset.sum_ite_eq, if_pos hx,
      ih fun y hy => hlt y (List.mem_cons_of_mem x hy)]

theorem sum_map_blocks (f : Nat → List μ) (g : μ → α) (n : Nat) :
    ((blocks f n).map g).sum = ∑ i ∈ Finset.range n, ((f i).map g).sum := by
  induction n with
  | zero => rfl
  | succ n ih => rw [blocks_succ, List.map_append, List.sum_append, ih, Finset.sum_range_succ]

/-- The sum of a range of cells. -/
theorem sum_map_window {xs : List μ} {start stop : Nat} (h : stop ≤ xs.length) (f : μ → α) (d : μ) :
    (((xs.drop start).take (stop - start)).map f).sum =
      ∑ k ∈ Finset.Ico start stop, f (xs.getD k d) := by
  have hcells : ((xs.drop start).take (stop - start)).map f =
      (List.range (stop - start)).map fun k => f (xs.getD (start + k) d) := by
    refine List.ext_getElem ?_ fun k hk hk' => ?_
    · rw [List.length_map, List.length_map, List.length_range, List.length_take, List.length_drop]
      omega
    · rw [List.length_map, List.length_range] at hk'
      rw [List.getElem_map, List.getElem_take, List.getElem_drop, List.getElem_map,
        List.getElem_range, ← List.getElem_eq_getD d]
  rw [hcells, Finset.sum_Ico_eq_sum_range]
  rfl

end Sums

/-! ### Loops as sums -/

namespace Product

variable [CommRing α]

/-- Adding one term after the other is adding their sum. -/
theorem foldl_add_eq_sum {μ : Type} (f : μ → α) (xs : List μ) (v : α) :
    xs.foldl (fun v x => v + f x) v = v + (xs.map f).sum := by
  induction xs generalizing v with
  | nil => exact (add_zero v).symm
  | cons x xs ih => rw [List.foldl_cons, ih, List.map_cons, List.sum_cons, add_assoc]

theorem rowTotal_eq_sum (x : List α) (entries : List (Int32 × α)) :
    rowTotal x entries =
      (entries.map fun entry => entry.2 * x.getD (position entry.1) 0).sum := by
  rw [rowTotal, foldl_add_eq_sum fun entry : Int32 × α => entry.2 * x.getD (position entry.1) 0,
    zero_add]

/-- The factor comes out of the sum. -/
theorem received_eq_sum (value : α → α) (alpha : α) (x : List α) (entries : List (Nat × α))
    (v : α) : received value alpha x entries v =
      v + alpha * (entries.map fun entry => value entry.2 * x.getD entry.1 0).sum := by
  rw [received,
    foldl_add_eq_sum fun entry : Nat × α => value entry.2 * (alpha * x.getD entry.1 0),
    ← List.sum_map_mul_left]
  refine congrArg (v + List.sum ·) (List.map_congr_left fun entry _ => ?_)
  exact mul_left_comm _ _ _

end Product

/-! ### Cells -/

namespace Csr

section Cells

variable [AddCommMonoid α]

/-- A cell of the matrix: the sum of the entries of row `i` that have column `j`, each as `value`
reads it. -/
def denseEntry (value : α → α) (a : Csr α) (i j : Nat) : α :=
  ∑ k ∈ Finset.Ico (offset a.rowPtr i) (offset a.rowPtr (i + 1))
    with (a.colInd.getD k 0).toInt = j, value (a.values.getD k 0)

/-- A cell of the matrix as it enters a routine. -/
def opEntry [Scalar α] (op : Operation) (a : Csr α) (i j : Nat) : α :=
  match op with
  | .nonTranspose => a.denseEntry id i j
  | .transpose => a.denseEntry id j i
  | .conjugateTranspose => a.denseEntry Scalar.conj j i

/-- A sum over a row, cell by cell. -/
theorem HasRoom.sum_map_rowEntries {a : Csr α} {n : Nat} (h : a.HasRoom n) {row : Nat}
    (hrow : row < n) (f : Int32 × α → α) :
    ((a.rowEntries row).map f).sum =
      ∑ k ∈ Finset.Ico (offset a.rowPtr row) (offset a.rowPtr (row + 1)),
        f (a.colInd.getD k 0, a.values.getD k 0) := by
  have hstop := h.le_entries hrow
  rw [rowEntries, sum_map_window hstop f (0, 0)]
  refine Finset.sum_congr rfl fun k hk => congrArg f ?_
  have hk' : k < a.entries.length := Nat.lt_of_lt_of_le (Finset.mem_Ico.mp hk).2 hstop
  have hmin := hk'
  rw [entries, List.length_zip] at hmin
  rw [← List.getElem_eq_getD (h := hk'), ← List.getElem_eq_getD (h := by omega),
    ← List.getElem_eq_getD (h := by omega)]
  exact List.getElem_zip

/-- A cell of a matrix, from the entries of its row. -/
theorem HasRoom.denseEntry_eq {a : Csr α} {n : Nat} (h : a.HasRoom n) {row : Nat} (hrow : row < n)
    (value : α → α) (column : Nat) : a.denseEntry value row column =
      ((a.rowEntries row).map fun entry : Int32 × α =>
        if entry.1.toInt = column then value entry.2 else 0).sum := by
  rw [h.sum_map_rowEntries hrow, denseEntry, Finset.sum_filter]

/-- A cell of a sound matrix, from the entries of its row that have its column. -/
theorem Valid.denseEntry_eq {a : Csr α} (ha : a.Valid) {row : Nat} (hrow : row < a.rows)
    (value : α → α) (column : Nat) : a.denseEntry value row column =
      ((bucket (fun entry => position entry.1) (a.rowEntries row) column).map
        fun entry => value entry.2).sum := by
  rw [sum_map_bucket, ha.hasRoom.denseEntry_eq hrow]
  refine congrArg List.sum (List.map_congr_left fun entry hentry => ?_)
  have hcolumn := toInt_eq_position
    (ha.inRange entry.1 (List.of_mem_zip (ha.mem_entries hentry)).1)
  simp only [hcolumn, Int.ofNat_inj]

end Cells

/-! ### Rows and columns -/

namespace Valid

variable [CommRing α] {a : Csr α}

/-- The sum of a row, column by column. -/
theorem rowTotal_eq (ha : a.Valid) {row : Nat} (hrow : row < a.rows) (x : List α) :
    Product.rowTotal x (a.rowEntries row) =
      ∑ column ∈ Finset.range a.cols, a.denseEntry id row column * x.getD column 0 := by
  rw [Product.rowTotal_eq_sum, sum_map_eq_sum_buckets fun entry => ha.column_lt]
  refine Finset.sum_congr rfl fun column _ => ?_
  rw [ha.denseEntry_eq hrow, ← List.sum_map_mul_right]
  refine congrArg List.sum (List.map_congr_left fun entry hentry => ?_)
  rw [(mem_bucket.mp hentry).2, id_eq]

/-- What the cell of a column receives, row by row. -/
theorem received_eq (ha : a.Valid) (value : α → α) (alpha : α) (x : List α) (column : Nat) (v : α) :
    Product.received value alpha x (a.columnEntries column a.rows) v =
      v + alpha * ∑ row ∈ Finset.range a.rows, a.denseEntry value row column * x.getD row 0 := by
  rw [Product.received_eq_sum, columnEntries, sum_map_blocks]
  refine congrArg (v + alpha * ·) (Finset.sum_congr rfl fun row hrow => ?_)
  rw [ha.denseEntry_eq (Finset.mem_range.mp hrow), ← List.sum_map_mul_right, List.map_map]
  rfl

end Valid

end Csr

/-! ### The output -/

namespace Product

variable [CommRing α] [Scalar α]

/-- A zero `beta` is not an exception if the zero test is exact. -/
theorem scale_eq_mul (hexact : Scalar.Exact α) (beta v : α) : scale beta v = beta * v := by
  rw [scale]
  split
  · next hzero => rw [(hexact beta).mp hzero, zero_mul]
  · rfl

/-- A cell of the output is its old content times `beta`, and `alpha` times the product of a row of
the matrix with the vector. -/
theorem cell_eq_sum (hexact : Scalar.Exact α) {a : Csr α} (ha : a.Valid) {op : Operation} {i : Nat}
    (hi : i < (a.shape op).1) (alpha beta : α) (x : List α) (v : α) :
    cell op alpha a x beta i v =
      beta * v + alpha * ∑ j ∈ Finset.range (a.shape op).2, a.opEntry op i j * x.getD j 0 := by
  cases op with
  | nonTranspose =>
    rw [cell, scale_eq_mul hexact, ha.rowTotal_eq hi]
    rfl
  | transpose =>
    rw [cell, scale_eq_mul hexact, ha.received_eq]
    rfl
  | conjugateTranspose =>
    rw [cell, scale_eq_mul hexact, ha.received_eq]
    rfl

/-- `y'` is `alpha * op(A) * x + beta * y` in the rows of `op(A)`, and `y` below them. -/
structure Computed (op : Operation) (alpha : α) (a : Csr α) (x : List α) (beta : α)
    (y y' : List α) : Prop where
  length : y'.length = y.length
  row : ∀ i, i < (a.shape op).1 → y'[i]? = some (beta * y.getD i 0 +
    alpha * ∑ j ∈ Finset.range (a.shape op).2, a.opEntry op i j * x.getD j 0)
  below : ∀ i, (a.shape op).1 ≤ i → y'[i]? = y[i]?

/-- **A product writes what the matrix says that the arrays denote.** -/
theorem computed_written (hexact : Scalar.Exact α) {a : Csr α} (ha : a.Valid) {op : Operation}
    {y : List α} (hy : (a.shape op).1 ≤ y.length) (alpha beta : α) (x : List α) :
    Computed op alpha a x beta y (written op alpha a x beta y) where
  length := length_written op alpha a x beta y
  row i hi := by
    have hcell : i < y.length := Nat.lt_of_lt_of_le hi hy
    rw [written, List.getElem?_mapIdx, List.getElem?_eq_getElem hcell, Option.map_some, if_pos hi,
      cell_eq_sum hexact ha hi, ← List.getElem_eq_getD (h := hcell)]
  below i hi := by
    rw [written, List.getElem?_mapIdx]
    simp only [if_neg (Nat.not_lt.mpr hi), Option.map_id']

end Product

end SparseDevice
