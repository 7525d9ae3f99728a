import SparseDevice.Proofs.Kernel.Product

/-!
# Products with dense matrices, column by column

The columns of a dense matrix start `stride` cells apart, and what stands between the end of one and
the start of the next is padding. As long as a column is not longer than the stride, the cell `i` can
only belong to the column `i / stride`, so columns do not overlap.

The product is computed in place, one column after the other. A turn of the loop reads and writes its
own column of the output and nothing else, hence each column holds in the end what a product with a
vector makes of its old content. The invariant of the loop says this for the columns gone through, by
one formula for all cells, and a formula does not know in which order they were gone through.

## Main definitions

* `denseColumn`: a column of a dense matrix.
* `Product.columnsIn`: the product with the columns in any order.
* `Product.writtenColumns`: the output.

## Main results

* `Product.columnsIn_eq`: in every order, the product does not trap and writes these cells.
* `Product.denseColumn_writtenColumns`: a column of the output is a product with a vector.
-/

namespace SparseDevice

variable {α : Type}

/-! ### Columns of a dense matrix -/

/-- A column of a dense matrix with `rows` rows, whose columns start `stride` apart. -/
def denseColumn (rows stride : Nat) (xs : List α) (col : Nat) : List α :=
  (xs.drop (col * stride)).take rows

section Columns

variable {rows stride col i : Nat} {xs : List α}

theorem getElem?_denseColumn (hi : i < rows) :
    (denseColumn rows stride xs col)[i]? = xs[col * stride + i]? := by
  rw [denseColumn, List.getElem?_take_of_lt hi, List.getElem?_drop]

theorem getElem?_denseColumn_of_le (hi : rows ≤ i) : (denseColumn rows stride xs col)[i]? = none :=
  List.getElem?_take_eq_none hi

theorem length_denseColumn (h : col * stride + rows ≤ xs.length) :
    (denseColumn rows stride xs col).length = rows :=
  Buffer.length_window h

/-- The columns of a matrix that has room for them have the length of its rows. -/
theorem length_denseColumn_of_lt {cols : Nat} (h : denseLength rows cols stride ≤ xs.length)
    (hcol : col < cols) : (denseColumn rows stride xs col).length = rows := by
  rcases Nat.eq_zero_or_pos rows with rfl | hrows
  · rfl
  · exact length_denseColumn (Nat.le_trans (le_denseLength (Nat.ne_of_gt hrows) hcol) h)

/-- Two columns with the same cells. -/
theorem denseColumn_congr {stride' : Nat} {ys : List α}
    (h : ∀ i, i < rows → xs[col * stride + i]? = ys[col * stride' + i]?) :
    denseColumn rows stride xs col = denseColumn rows stride' ys col := by
  refine List.ext_getElem? fun i => ?_
  rcases Nat.lt_or_ge i rows with hi | hi
  · rw [getElem?_denseColumn hi, getElem?_denseColumn hi, h i hi]
  · rw [getElem?_denseColumn_of_le hi, getElem?_denseColumn_of_le hi]

/-- Where the cells of a column are found. -/
theorem div_mod_column (col : Nat) (hrows : rows ≤ stride) (hi : i < rows) :
    (col * stride + i) / stride = col ∧ (col * stride + i) % stride = i := by
  have hlt : i < stride := Nat.lt_of_lt_of_le hi hrows
  constructor
  · rw [Nat.mul_comm, Nat.mul_add_div (Nat.zero_lt_of_lt hlt), Nat.div_eq_of_lt hlt, Nat.add_zero]
  · rw [Nat.mul_comm, Nat.mul_add_mod, Nat.mod_eq_of_lt hlt]

/-- Whether a cell belongs to a column. -/
theorem mem_column_iff (hrows : rows ≤ stride) :
    col * stride ≤ i ∧ i < col * stride + rows ↔ i % stride < rows ∧ i / stride = col := by
  constructor
  · rintro ⟨hle, hlt⟩
    obtain ⟨k, rfl⟩ := Nat.exists_eq_add_of_le hle
    have hk : k < rows := by omega
    obtain ⟨hdiv, hmod⟩ := div_mod_column col hrows hk
    rw [hmod]
    exact ⟨hk, hdiv⟩
  · rintro ⟨hmod, rfl⟩
    have hsplit := Nat.div_add_mod i stride
    rw [Nat.mul_comm] at hsplit
    omega

end Columns

namespace Product

variable [Zero α] [Add α] [Mul α] [Scalar α]

/-! ### One column -/

/-- A turn of the loop: a column of the output is taken, computed anew and put back. -/
def column (op : Operation) (alpha : α) (a : Csr α) (b : List α) (ldb : Nat) (beta : α) (ldc : Nat)
    (c : List α) (col : Nat) : Except Trap (List α) := do
  let x ← if (a.shape op).2 = 0 then .ok [] else Buffer.window b (col * ldb) (a.shape op).2
  let y ← Buffer.window c (col * ldc) (a.shape op).1
  let y ← vector op alpha a x beta y
  return Buffer.splice c (col * ldc) y

/-- The product with the columns of a dense matrix, in the order of a list. -/
def columnsIn (op : Operation) (alpha : α) (a : Csr α) (b : List α) (ldb : Nat) (order : List Nat)
    (beta : α) (c : List α) (ldc : Nat) : Except Trap (List α) :=
  if (a.shape op).1 = 0 then .ok c else order.foldlM (column op alpha a b ldb beta ldc) c

/-- The output when the columns of a list have been computed. Cells that belong to none of them are
left as they are. -/
def writtenColumns (op : Operation) (alpha : α) (a : Csr α) (b : List α) (ldb : Nat)
    (order : List Nat) (beta : α) (c : List α) (ldc : Nat) : List α :=
  c.mapIdx fun i v =>
    if i % ldc < (a.shape op).1 ∧ i / ldc ∈ order then
      cell op alpha a (denseColumn (a.shape op).2 ldb b (i / ldc)) beta (i % ldc) v
    else v

variable {op : Operation} {alpha beta : α} {a : Csr α} {b c : List α} {n ldb ldc col i : Nat}
  {order : List Nat}

theorem columns_eq_columnsIn : columns op alpha a b ldb n beta c ldc =
    columnsIn op alpha a b ldb (List.range n) beta c ldc := by
  have hloop := sweep_eq_foldlM (fun col c => column op alpha a b ldb beta ldc c col) 0 n c
  rw [columnsIn, List.range_eq_range', ← hloop]
  rfl

theorem length_writtenColumns :
    (writtenColumns op alpha a b ldb order beta c ldc).length = c.length :=
  List.length_mapIdx

/-- Only the columns of the list are written. -/
theorem getElem?_writtenColumns (hi : i % ldc < (a.shape op).1 → i / ldc ∉ order) :
    (writtenColumns op alpha a b ldb order beta c ldc)[i]? = (c)[i]? := by
  have hskip : ¬(i % ldc < (a.shape op).1 ∧ i / ldc ∈ order) := fun h => hi h.1 h.2
  rw [writtenColumns, List.getElem?_mapIdx]
  simp only [if_neg hskip, Option.map_id']

/-- The order of the columns is not seen in the output, nor how often a column occurs. -/
theorem writtenColumns_congr {order' : List Nat} (h : ∀ j, j ∈ order ↔ j ∈ order') :
    writtenColumns op alpha a b ldb order beta c ldc =
      writtenColumns op alpha a b ldb order' beta c ldc := by
  simp only [writtenColumns, h]

/-- A column that is not in the list is untouched. -/
theorem denseColumn_writtenColumns_of_not_mem (hstride : (a.shape op).1 ≤ ldc) (hcol : col ∉ order) :
    denseColumn (a.shape op).1 ldc (writtenColumns op alpha a b ldb order beta c ldc) col =
      denseColumn (a.shape op).1 ldc c col := by
  refine denseColumn_congr fun i hi => getElem?_writtenColumns fun _ => ?_
  rwa [(div_mod_column col hstride hi).1]

/-- **A column in the list is a product with a vector.** -/
theorem denseColumn_writtenColumns (hstride : (a.shape op).1 ≤ ldc) (hcol : col ∈ order) :
    denseColumn (a.shape op).1 ldc (writtenColumns op alpha a b ldb order beta c ldc) col =
      written op alpha a (denseColumn (a.shape op).2 ldb b col) beta
        (denseColumn (a.shape op).1 ldc c col) := by
  refine List.ext_getElem? fun i => ?_
  rw [written, List.getElem?_mapIdx]
  rcases Nat.lt_or_ge i (a.shape op).1 with hi | hi
  · obtain ⟨hdiv, hmod⟩ := div_mod_column col hstride hi
    rw [getElem?_denseColumn hi, getElem?_denseColumn hi, writtenColumns, List.getElem?_mapIdx, hdiv,
      hmod]
    simp only [hi, hcol, and_self, if_true]
  · rw [getElem?_denseColumn_of_le hi, getElem?_denseColumn_of_le hi, Option.map_none]

/-- A turn succeeds if its column lies within the operands. -/
theorem column_eq (ha : a.Valid) (hb : (a.shape op).2 = 0 ∨ col * ldb + (a.shape op).2 ≤ b.length)
    (hc : col * ldc + (a.shape op).1 ≤ c.length) :
    column op alpha a b ldb beta ldc c col = .ok (Buffer.splice c (col * ldc)
      (written op alpha a (denseColumn (a.shape op).2 ldb b col) beta
        (denseColumn (a.shape op).1 ldc c col))) := by
  have hturn : ∀ x, x = denseColumn (a.shape op).2 ldb b col → x.length = (a.shape op).2 → (do
      let y ← Buffer.window c (col * ldc) (a.shape op).1
      let y ← vector op alpha a x beta y
      return Buffer.splice c (col * ldc) y) = .ok (Buffer.splice c (col * ldc)
        (written op alpha a (denseColumn (a.shape op).2 ldb b col) beta
          (denseColumn (a.shape op).1 ldc c col))) := by
    rintro x rfl hx
    have hy := length_denseColumn hc
    rw [Buffer.window_eq_ok hc, ok_bind]
    exact congrArg (· >>= fun y => .ok (Buffer.splice c (col * ldc) y))
      (vector_eq ha (Nat.le_of_eq hx.symm) (Nat.le_of_eq hy.symm) alpha beta)
  rw [column]
  split
  · next hzero => exact hturn [] (by rw [denseColumn, hzero, List.take_zero]) hzero.symm
  · next hinner =>
    have hread := hb.resolve_left hinner
    rw [Buffer.window_eq_ok hread, ok_bind]
    exact hturn _ rfl (length_denseColumn hread)

/-- What a turn adds to the output. -/
theorem splice_writtenColumns (hstride : (a.shape op).1 ≤ ldc)
    (hc : col * ldc + (a.shape op).1 ≤ c.length) :
    Buffer.splice (writtenColumns op alpha a b ldb order beta c ldc) (col * ldc)
        (written op alpha a (denseColumn (a.shape op).2 ldb b col) beta
          (denseColumn (a.shape op).1 ldc c col)) =
      writtenColumns op alpha a b ldb (order ++ [col]) beta c ldc := by
  have hlength : (written op alpha a (denseColumn (a.shape op).2 ldb b col) beta
      (denseColumn (a.shape op).1 ldc c col)).length = (a.shape op).1 := by
    rw [length_written, length_denseColumn hc]
  have hbefore : (writtenColumns op alpha a b ldb order beta c ldc).length = c.length :=
    length_writtenColumns
  refine List.ext_getElem? fun i => ?_
  by_cases hi : col * ldc ≤ i ∧ i < col * ldc + (a.shape op).1
  · obtain ⟨k, rfl⟩ := Nat.exists_eq_add_of_le hi.1
    have hk : k < (a.shape op).1 := by omega
    rw [Buffer.getElem?_splice_add (by omega) (by omega), ← getElem?_denseColumn hk,
      denseColumn_writtenColumns hstride (List.mem_append_right _ List.mem_cons_self)]
  · have hother : (Buffer.splice (writtenColumns op alpha a b ldb order beta c ldc) (col * ldc)
        (written op alpha a (denseColumn (a.shape op).2 ldb b col) beta
          (denseColumn (a.shape op).1 ldc c col)))[i]? =
        (writtenColumns op alpha a b ldb order beta c ldc)[i]? := by
      rcases Nat.lt_or_ge i (col * ldc) with hlt | hge
      · exact Buffer.getElem?_splice_of_lt hlt (by omega)
      · exact Buffer.getElem?_splice_of_le (by omega) (by omega)
    rw [hother, writtenColumns, writtenColumns, List.getElem?_mapIdx, List.getElem?_mapIdx]
    rw [mem_column_iff hstride] at hi
    have hsame : i % ldc < (a.shape op).1 ∧ i / ldc ∈ order ++ [col] ↔
        i % ldc < (a.shape op).1 ∧ i / ldc ∈ order := by
      rw [List.mem_append, List.mem_singleton]
      tauto
    simp only [hsame]

/-! ### All columns -/

/-- **The product with the columns of a dense matrix** stays within operands that have room for it,
and writes its cells, in whatever order it goes through the columns. An operand without rows is never
touched. -/
theorem columnsIn_eq (ha : a.Valid) (hb : denseLength (a.shape op).2 n ldb ≤ b.length)
    (hstride : (a.shape op).1 ≤ ldc) (hc : denseLength (a.shape op).1 n ldc ≤ c.length)
    (hnodup : order.Nodup) (hlt : ∀ col ∈ order, col < n) :
    columnsIn op alpha a b ldb order beta c ldc =
      .ok (writtenColumns op alpha a b ldb order beta c ldc) := by
  rw [columnsIn]
  split
  · next hrows =>
    refine congrArg Except.ok (List.ext_getElem? fun i => ?_)
    exact (getElem?_writtenColumns fun hi => absurd hi (by omega)).symm
  · next hrows =>
    have hloop : ∃ out, order.foldlM (column op alpha a b ldb beta ldc) c = .ok out ∧
        out = writtenColumns op alpha a b ldb order beta c ldc := by
      refine foldlM_ok (fun before out => out = writtenColumns op alpha a b ldb before beta c ldc)
        (List.ext_getElem? fun i => (getElem?_writtenColumns fun _ => List.not_mem_nil).symm) ?_
      intro before col later out hsplit hout
      have hcol : col < n := hlt col (mem_of_split hsplit)
      have hfresh : col ∉ before := by
        rw [hsplit] at hnodup
        exact fun h => (List.nodup_append.mp hnodup).2.2 col h col List.mem_cons_self rfl
      have hread : (a.shape op).2 = 0 ∨ col * ldb + (a.shape op).2 ≤ b.length := by
        rcases Nat.eq_zero_or_pos (a.shape op).2 with hzero | hpos
        · exact .inl hzero
        · exact .inr (Nat.le_trans (le_denseLength (Nat.ne_of_gt hpos) hcol) hb)
      have hwrite : col * ldc + (a.shape op).1 ≤ c.length :=
        Nat.le_trans (le_denseLength hrows hcol) hc
      refine ⟨_, ?_, rfl⟩
      rw [hout, column_eq ha hread (by rwa [length_writtenColumns]),
        denseColumn_writtenColumns_of_not_mem hstride hfresh, splice_writtenColumns hstride hwrite]
    obtain ⟨out, hout, rfl⟩ := hloop
    exact hout

theorem columns_eq (ha : a.Valid) (hb : denseLength (a.shape op).2 n ldb ≤ b.length)
    (hstride : (a.shape op).1 ≤ ldc) (hc : denseLength (a.shape op).1 n ldc ≤ c.length) :
    columns op alpha a b ldb n beta c ldc =
      .ok (writtenColumns op alpha a b ldb (List.range n) beta c ldc) := by
  rw [columns_eq_columnsIn]
  exact columnsIn_eq ha hb hstride hc List.nodup_range fun _ => List.mem_range.mp

end Product

end SparseDevice
