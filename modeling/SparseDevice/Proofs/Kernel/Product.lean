import SparseDevice.Kernel.Product
import SparseDevice.Proofs.Kernel.Rows

/-!
# Products, cell by cell

A product reads the vector at the columns of the matrix and writes it at the rows, or the other way
round if the matrix is transposed. Rows are counted by the loop and columns are bounded by the
soundness of the matrix, so it is enough that the operands have room for the shape of the matrix.

What a cell of the output becomes depends on its own content and on the entries of one row, or of
one column if the matrix is transposed. The order of the additions is part of the result, since no
law of arithmetic is assumed. The transposed products go through the matrix row by row; yet a cell
only sees the entries of its column, in the order of the rows.

## Main definitions

* `Csr.columnEntries`: the entries of a column, each with its row.
* `Product.cell`: what a cell of the output becomes.
* `Product.written`: the output.

## Main results

* `Product.vector_eq`: a product with a vector does not trap, and writes these cells.
-/

namespace SparseDevice

/-! ### Dense operands -/

/-- A column of a dense matrix lies within the cells that the matrix takes. -/
theorem le_denseLength {rows cols stride col : Nat} (hrows : rows ≠ 0) (hcol : col < cols) :
    col * stride + rows ≤ denseLength rows cols stride := by
  cases cols with
  | zero => exact absurd hcol (Nat.not_lt_zero _)
  | succ cols =>
    rw [denseLength_succ hrows, Nat.mul_comm]
    exact Nat.add_le_add_right (Nat.mul_le_mul_left stride (Nat.le_of_lt_succ hcol)) rows

/-- Overwriting the first cells changes each of them and none of the others. -/
theorem Buffer.splice_zero_eq_mapIdx {α : Type} {xs ys : List α} {n : Nat} {f : Nat → α → α}
    (hn : n ≤ xs.length) (hys : ys.length = n)
    (hcell : ∀ i, i < n → ys[i]? = xs[i]?.map (f i)) :
    splice xs 0 ys = xs.mapIdx fun i x => if i < n then f i x else x := by
  refine List.ext_getElem? fun i => ?_
  rw [List.getElem?_mapIdx]
  rcases Nat.lt_or_ge i n with hi | hi
  · have hwritten : (splice xs 0 ys)[0 + i]? = ys[i]? :=
      getElem?_splice_add (hys.symm ▸ hi) (Nat.zero_le _)
    rw [Nat.zero_add] at hwritten
    simp only [hwritten, hcell i hi, if_pos hi]
  · rw [getElem?_splice_of_le (by omega) (by omega)]
    simp only [if_neg (Nat.not_lt.mpr hi), Option.map_id']

/-! ### Columns of a matrix -/

namespace Csr

variable {α : Type}

/-- The entries of a column within the first `n` rows, each with its row. -/
def columnEntries (a : Csr α) (column n : Nat) : List (Nat × α) :=
  blocks (fun row => (bucket (fun entry => position entry.1) (a.rowEntries row) column).map
    fun entry => (row, entry.2)) n

theorem columnEntries_succ (a : Csr α) (column n : Nat) :
    a.columnEntries column (n + 1) = a.columnEntries column n ++
      (bucket (fun entry => position entry.1) (a.rowEntries n) column).map
        fun entry => (n, entry.2) :=
  blocks_succ _ n

/-- A column beyond the matrix has no entries. -/
theorem Valid.columnEntries_eq_nil {a : Csr α} (ha : a.Valid) {column : Nat} (h : a.cols ≤ column)
    (n : Nat) : a.columnEntries column n = [] := by
  refine List.eq_nil_iff_forall_not_mem.mpr fun t ht => ?_
  obtain ⟨row, -, ht⟩ := mem_blocks.mp ht
  obtain ⟨entry, hentry, -⟩ := List.mem_map.mp ht
  obtain ⟨hentry, hcolumn⟩ := mem_bucket.mp hentry
  exact absurd (ha.column_lt hentry) (by omega)

end Csr

namespace Product

variable {α : Type}

/-! ### The plain product -/

section Plain

variable [Zero α] [Add α] [Mul α]

/-- The sum over the entries of a row, each times the cell of `x` at its column. -/
def rowTotal (x : List α) (entries : List (Int32 × α)) : α :=
  entries.foldl (fun sum entry => sum + entry.2 * x.getD (position entry.1) 0) 0

theorem rowSum_eq {x : List α} {entries : List (Int32 × α)}
    (h : ∀ entry ∈ entries, position entry.1 < x.length) :
    rowSum x entries = .ok (rowTotal x entries) := by
  refine foldlM_eq_ok (fun sum entry hentry => ?_) 0
  have hcell := h entry hentry
  rw [Buffer.read_eq_ok hcell, ok_bind, pure_eq_ok, List.getD_eq_getElem?_getD,
    List.getElem?_eq_getElem hcell, Option.getD_some]

theorem gather_eq {a : Csr α} (ha : a.Valid) {x y : List α} (hx : a.cols ≤ x.length)
    (hy : y.length ≤ a.rows) (alpha : α) :
    gather alpha a x y =
      .ok (y.mapIdx fun row v => v + alpha * rowTotal x (a.rowEntries row)) := by
  rw [List.mapIdx_eq_zipIdx_map]
  refine mapM_eq_ok ?_
  rintro ⟨v, row⟩ hv
  have hrow : row < a.rows :=
    Nat.lt_of_lt_of_le (List.getElem?_eq_some_iff.mp (List.mk_mem_zipIdx_iff_getElem?.mp hv)).1 hy
  have hcolumns : ∀ entry ∈ a.rowEntries row, position entry.1 < x.length :=
    fun entry hentry => Nat.lt_of_lt_of_le (ha.column_lt hentry) hx
  simp only [ha.row_eq hrow, ok_bind, rowSum_eq hcolumns, pure_eq_ok]

end Plain

/-! ### The transposed products -/

section Transposed

variable [Add α] [Mul α]

/-- An entry is added to the cell of its column. The invariant: each cell has received the entries of
its column among those gone through. -/
theorem scatterRow_eq {y : List α} {entries : List (Int32 × α)}
    (h : ∀ entry ∈ entries, position entry.1 < y.length) (value : α → α) (scaled : α) :
    scatterRow value scaled entries y = .ok (y.mapIdx fun j v =>
      (bucket (fun entry => position entry.1) entries j).foldl
        (fun v entry => v + value entry.2 * scaled) v) := by
  let received (before : List (Int32 × α)) (j : Nat) (v : α) : α :=
    (bucket (fun entry => position entry.1) before j).foldl
      (fun v entry => v + value entry.2 * scaled) v
  have hloop : ∃ out, scatterRow value scaled entries y = .ok out ∧
      ∀ j, out[j]? = y[j]?.map (received entries j) := by
    refine foldlM_ok (fun before out => ∀ j, out[j]? = y[j]?.map (received before j)) ?_ ?_
    · exact fun j => Option.map_id'.symm
    · intro before entry later out hsplit hout
      have hcell : position entry.1 < out.length := by
        have hlt := h entry (mem_of_split hsplit)
        have hread := hout (position entry.1)
        rw [List.getElem?_eq_getElem hlt, Option.map_some] at hread
        exact (List.getElem?_eq_some_iff.mp hread).1
      refine ⟨_, Buffer.update_eq_ok hcell rfl, fun j => ?_⟩
      have hbefore : ∀ v, received (before ++ [entry]) j v =
          (bucket (fun entry => position entry.1) [entry] j).foldl
            (fun v entry => v + value entry.2 * scaled) (received before j v) := by
        intro v
        simp only [received, bucket_append, List.foldl_append]
      by_cases hj : position entry.1 = j
      · subst hj
        have hread := hout (position entry.1)
        rw [List.getElem?_eq_getElem hcell] at hread
        obtain ⟨v, hv, hreceived⟩ := Option.map_eq_some_iff.mp hread.symm
        rw [List.getElem?_set_self hcell, hv, Option.map_some, hbefore, hreceived]
        simp [bucket]
      · rw [List.getElem?_set_ne hj, hout j]
        refine congrArg (Option.map · y[j]?) (funext fun v => ?_)
        rw [hbefore, bucket, List.filter_cons_of_neg (by simpa using hj), List.filter_nil,
          List.foldl_nil]
  obtain ⟨out, hout, hcells⟩ := hloop
  rw [hout]
  exact congrArg Except.ok (List.mapIdx_eq_iff.mpr hcells).symm

variable [Zero α]

/-- What a cell is that receives entries of a column, each times `alpha` and the cell of `x` at its
row. -/
def received (value : α → α) (alpha : α) (x : List α) (entries : List (Nat × α)) (v : α) : α :=
  entries.foldl (fun v entry => v + value entry.2 * (alpha * x.getD entry.1 0)) v

theorem scatter_eq {a : Csr α} (ha : a.Valid) {x y : List α} (hx : a.rows ≤ x.length)
    (hy : a.cols ≤ y.length) (value : α → α) (alpha : α) :
    scatter value alpha a x y =
      .ok (y.mapIdx fun j v => received value alpha x (a.columnEntries j a.rows) v) := by
  have hloop : ∃ out, scatter value alpha a x y = .ok out ∧ out = y.mapIdx fun j v =>
      received value alpha x (a.columnEntries j (0 + a.rows)) v := by
    refine sweep_ok (fun row out =>
      out = y.mapIdx fun j v => received value alpha x (a.columnEntries j row) v) 0 a.rows
      (List.mapIdx_eq_iff.mpr fun _ => Option.map_id'.symm).symm ?_
    intro row out _ hrow hout
    have hrow' : row < a.rows := by omega
    have hcell : row < x.length := Nat.lt_of_lt_of_le hrow' hx
    have hcolumns : ∀ entry ∈ a.rowEntries row, position entry.1 < out.length := by
      intro entry hentry
      rw [hout, List.length_mapIdx]
      exact Nat.lt_of_lt_of_le (ha.column_lt hentry) hy
    have hvalue : x.getD row 0 = x[row] := by
      rw [List.getD_eq_getElem?_getD, List.getElem?_eq_getElem hcell, Option.getD_some]
    refine ⟨_, ?_, rfl⟩
    rw [Buffer.read_eq_ok hcell, ok_bind, ha.row_eq hrow', ok_bind, scatterRow_eq hcolumns, hout,
      List.mapIdx_mapIdx]
    refine congrArg (fun f => Except.ok (y.mapIdx f)) (funext fun j => funext fun v => ?_)
    simp only [Function.comp_apply, Csr.columnEntries_succ, received, List.foldl_append,
      List.foldl_map, hvalue]
  obtain ⟨out, hout, rfl⟩ := hloop
  rwa [Nat.zero_add] at hout

end Transposed

/-! ### Vectors and columns -/

variable [Zero α] [Add α] [Mul α] [Scalar α]

/-- What a cell of the output becomes that holds `v`. -/
def cell (op : Operation) (alpha : α) (a : Csr α) (x : List α) (beta : α) (i : Nat) (v : α) : α :=
  match op with
  | .nonTranspose => scale beta v + alpha * rowTotal x (a.rowEntries i)
  | .transpose => received id alpha x (a.columnEntries i a.rows) (scale beta v)
  | .conjugateTranspose => received Scalar.conj alpha x (a.columnEntries i a.rows) (scale beta v)

/-- The output. Cells past the rows of the product are left as they are. -/
def written (op : Operation) (alpha : α) (a : Csr α) (x : List α) (beta : α) (y : List α) : List α :=
  y.mapIdx fun i v => if i < (a.shape op).1 then cell op alpha a x beta i v else v

theorem length_written (op : Operation) (alpha : α) (a : Csr α) (x : List α) (beta : α)
    (y : List α) : (written op alpha a x beta y).length = y.length :=
  List.length_mapIdx

/-- The scaled output, and the rows added to it. -/
theorem gather_scaled {a : Csr α} (ha : a.Valid) {x y : List α} (hx : a.cols ≤ x.length)
    (hy : a.rows ≤ y.length) (alpha beta : α) :
    (do
      let sums ← gather alpha a x ((y.take a.rows).map (scale beta))
      return Buffer.splice y 0 sums) =
      .ok (y.mapIdx fun i v => if i < a.rows then
        scale beta v + alpha * rowTotal x (a.rowEntries i) else v) := by
  have hlength : ((y.take a.rows).map (scale beta)).length = a.rows := by
    rw [List.length_map, List.length_take_of_le hy]
  rw [gather_eq ha hx (Nat.le_of_eq hlength) alpha, ok_bind, pure_eq_ok]
  refine congrArg Except.ok (Buffer.splice_zero_eq_mapIdx hy ?_ fun i hi => ?_)
  · rw [List.length_mapIdx, hlength]
  · rw [List.getElem?_mapIdx, List.getElem?_map, List.getElem?_take_of_lt hi, Option.map_map]
    rfl

/-- The scaled output, and the rows scattered over it. -/
theorem scatter_scaled {a : Csr α} (ha : a.Valid) {x y : List α} (hx : a.rows ≤ x.length)
    (hy : a.cols ≤ y.length) (value : α → α) (alpha beta : α) :
    scatter value alpha a x (Buffer.splice y 0 ((y.take a.cols).map (scale beta))) =
      .ok (y.mapIdx fun j v => if j < a.cols then
        received value alpha x (a.columnEntries j a.rows) (scale beta v) else v) := by
  have hlength : ((y.take a.cols).map (scale beta)).length = a.cols := by
    rw [List.length_map, List.length_take_of_le hy]
  have hscaled := Buffer.splice_zero_eq_mapIdx (f := fun _ => scale beta) hy hlength fun i hi => by
    rw [List.getElem?_map, List.getElem?_take_of_lt hi]
  rw [hscaled, scatter_eq ha hx (by rwa [List.length_mapIdx]), List.mapIdx_mapIdx]
  refine congrArg (fun f => Except.ok (y.mapIdx f)) (funext fun j => funext fun v => ?_)
  rw [Function.comp_apply]
  split
  · rfl
  · next hj => rw [ha.columnEntries_eq_nil (Nat.not_lt.mp hj), received, List.foldl_nil]

/-- **A product with a vector** stays within operands that have room for the matrix, and writes its
cells. -/
theorem vector_eq {a : Csr α} (ha : a.Valid) {op : Operation} {x y : List α}
    (hx : (a.shape op).2 ≤ x.length) (hy : (a.shape op).1 ≤ y.length) (alpha beta : α) :
    vector op alpha a x beta y = .ok (written op alpha a x beta y) := by
  have hfits : 0 + (a.shape op).1 ≤ y.length := by omega
  rw [vector, Buffer.window_eq_ok hfits, ok_bind, List.drop_zero]
  cases op with
  | nonTranspose => exact gather_scaled ha hx hy alpha beta
  | transpose => exact scatter_scaled ha hx hy id alpha beta
  | conjugateTranspose => exact scatter_scaled ha hx hy Scalar.conj alpha beta

end Product

end SparseDevice
