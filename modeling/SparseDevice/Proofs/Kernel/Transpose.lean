import SparseDevice.Proofs.Kernel.Conversion
import SparseDevice.Proofs.Kernel.Sorting

/-!
# A matrix transposed twice

The arrays by columns are a matrix by rows again, the transpose. Its rows are the columns of the
first matrix, each in the order of the rows, and its entries are the same with row and column
exchanged. So the second conversion collects the entries of each row of the first matrix column by
column: it sorts the rows, and entries of one column stay in their order.

Rows are written as indices, so there may be no more of them than indices can tell apart. Nothing of
the kind is asked of the columns: a column beyond the indices has no entries.

## Main definitions

* `Csc.transpose`: the arrays by columns, read by rows.

## Main results

* `Csc.sorted_eq_mergeSort`: the conversion sorts stably by column.
* `Csc.valid_transpose`: the transpose of a sound matrix is sound.
* `Csc.rowEntries_transpose`: the rows of the transpose.
* `Csc.rowEntries_transpose_twice`, `Csc.rowPtr_transpose_twice`: the matrix transposed twice.
* `Csc.transpose_twice_of_sorted`: a matrix with sorted rows comes back.
-/

namespace SparseDevice

namespace Csr

variable {α : Type} {a : Csr α}

/-- Rows that an index can hold are within the matrix. -/
theorem inRange_of_mem_triples (hrows : a.rows ≤ maxCount + 1) {t : Int32 × Int32 × α}
    (ht : t ∈ a.triples) : InRange t.1 a.rows := by
  obtain ⟨row, hrow, ht⟩ := mem_blocks.mp ht
  obtain ⟨entry, -, rfl⟩ := List.mem_map.mp ht
  exact inRange_ofNat hrow (by omega)

theorem Valid.inRange_column (h : a.Valid) {t : Int32 × Int32 × α} (ht : t ∈ a.triples) :
    InRange t.2.1 a.cols := by
  have hentry : t.2 ∈ a.entries := by
    rw [← h.map_snd_triples]
    exact List.mem_map_of_mem ht
  exact h.inRange _ (List.of_mem_zip hentry).1

/-- The rows of the entries are the offsets, written out. -/
theorem Valid.map_fst_triples (h : a.Valid) :
    a.triples.map (·.1) = Offsets.expand a.rowPtr a.rows := by
  rw [triples, map_blocks, Offsets.expand]
  refine blocks_congr fun row hrow => ?_
  rw [rowTriples, List.map_map, ← h.length_rowEntries hrow]
  exact List.map_const' ..

/-- The entries of one row, among all entries. -/
theorem bucket_row_triples (hrows : a.rows ≤ maxCount + 1) {row : Nat} (hrow : row < a.rows) :
    bucket (fun t => position t.1) a.triples row = a.rowTriples row := by
  rw [bucket, triples, filter_blocks, blocks_of_eq_nil hrow]
  · refine List.filter_eq_self.mpr fun t ht => ?_
    obtain ⟨entry, -, rfl⟩ := List.mem_map.mp ht
    exact decide_eq_true (position_ofNat (by omega))
  · intro other hother hne
    refine List.filter_eq_nil_iff.mpr fun t ht => ?_
    obtain ⟨entry, -, rfl⟩ := List.mem_map.mp ht
    rw [decide_eq_true_eq, position_ofNat (by omega)]
    exact hne

end Csr

namespace Csc

variable {α : Type} {a : Csr α}

/-- The entries by columns are all entries, stably sorted by column. -/
theorem sorted_eq_mergeSort (ha : a.Valid) :
    sorted a = a.triples.mergeSort fun t t' => decide (t.2.1 ≤ t'.2.1) := by
  rw [← blocks_bucket_position (fun t : Int32 × Int32 × α => t.2.1)
    fun _ ht => ha.inRange_column ht]
  rfl

theorem sorted_perm (ha : a.Valid) : (sorted a).Perm a.triples := by
  rw [sorted_eq_mergeSort ha]
  exact List.mergeSort_perm _ _

/-! ### The transpose -/

/-- The transpose of a matrix, by rows. -/
def transpose (a : Csr α) : Csr α := (transposed a).toCsr a.rows a.cols

/-- An entry of the transpose. -/
def swap (t : Int32 × Int32 × α) : Int32 × Int32 × α := (t.2.1, t.1, t.2.2)

theorem entries_transpose (a : Csr α) :
    (transpose a).entries = (sorted a).map fun t => (swap t).2 := by
  rw [Csr.entries, transpose, Csc.toCsr, transposed, List.zip_map']
  rfl

theorem isOffsets_transpose (ha : a.Valid) : IsOffsets (transpose a).rowPtr a.cols a.nnz := by
  rw [← ha.colInd]
  exact Offsets.isOffsets_ranks (fun i hi => (ha.inRange i hi).2) (ha.colInd ▸ ha.nnz_le)

/-- The transpose of a sound matrix is sound. -/
theorem valid_transpose (ha : a.Valid) (hrange : ∀ t ∈ a.triples, InRange t.1 a.rows) :
    (transpose a).Valid where
  offsets := by
    have hnnz : (transpose a).nnz = a.nnz := length_values_transposed ha
    rw [hnnz]
    exact isOffsets_transpose ha
  colInd := (length_rowInd_transposed ha).trans (length_values_transposed ha).symm
  inRange row hrow := by
    obtain ⟨t, ht, rfl⟩ := List.mem_map.mp hrow
    exact hrange t ((sorted_perm ha).mem_iff.mp ht)

/-- The rows of the transpose are the columns of the matrix. -/
theorem rowEntries_transpose (ha : a.Valid) {column : Nat} (hcolumn : column < a.cols) :
    (transpose a).rowEntries column =
      (bucket Csr.columnOf a.triples column).map fun t => (swap t).2 := by
  have hoffset : ∀ j, j ≤ a.cols → offset (transpose a).rowPtr j = Offsets.rank a.colInd j :=
    fun j hj => (holds_transposed ha).offset_eq (by rw [length_colPtr_transposed]; omega)
  have hentries : blocks (fun j => (bucket Csr.columnOf a.triples j).map fun t => (swap t).2)
      a.cols <+: (transpose a).entries :=
    ⟨[], by rw [List.append_nil, entries_transpose, sorted, map_blocks]⟩
  refine Csr.rowEntries_of_blocks hentries (isOffsets_transpose ha).zero ?_ hcolumn
  intro j hj
  rw [hoffset _ hj, hoffset _ (Nat.le_of_lt hj), List.length_map]
  exact rank_add_length_column ha j

/-- The entries of the transpose are those of the matrix, by columns. -/
theorem triples_transpose (ha : a.Valid) : (transpose a).triples = (sorted a).map swap := by
  rw [Csr.triples, sorted, map_blocks]
  refine blocks_congr fun column hcolumn => ?_
  rw [Csr.rowTriples, rowEntries_transpose ha hcolumn, List.map_map]
  refine List.map_congr_left fun t ht => ?_
  obtain ⟨ht, hkey⟩ := mem_bucket.mp ht
  have hindex : Int32.ofNat column = t.2.1 := by
    rw [← hkey]
    exact ofNat_position (ha.inRange_column ht)
  rw [Function.comp_apply, hindex]
  rfl

/-! ### Twice -/

/-- A column of the transpose holds a row of the matrix, by columns. -/
theorem bucket_triples_transpose (ha : a.Valid) (hrows : a.rows ≤ maxCount + 1) {row : Nat}
    (hrow : row < a.rows) : bucket Csr.columnOf (transpose a).triples row =
      (blocks (bucket Csr.columnOf (a.rowTriples row)) a.cols).map swap := by
  have hkey : ∀ j, bucket (fun t => Csr.columnOf (swap t)) (bucket Csr.columnOf a.triples j) row =
      bucket Csr.columnOf (a.rowTriples row) j := by
    intro j
    rw [bucket_comm, ← Csr.bucket_row_triples hrows hrow]
    rfl
  rw [triples_transpose ha, bucket_map, sorted, bucket, filter_blocks]
  exact congrArg (List.map swap) (blocks_congr fun j _ => hkey j)

theorem valid_transpose_twice (ha : a.Valid) (hrows : a.rows ≤ maxCount + 1) :
    (transpose (transpose a)).Valid := by
  refine valid_transpose (valid_transpose ha fun t => Csr.inRange_of_mem_triples hrows) ?_
  intro t ht
  rw [triples_transpose ha] at ht
  obtain ⟨t', ht', rfl⟩ := List.mem_map.mp ht
  exact ha.inRange_column ((sorted_perm ha).mem_iff.mp ht')

/-- Transposing twice sorts each row by column. -/
theorem rowEntries_transpose_twice (ha : a.Valid) (hrows : a.rows ≤ maxCount + 1) {row : Nat}
    (hrow : row < a.rows) : (transpose (transpose a)).rowEntries row =
      (a.rowEntries row).mergeSort fun e e' => decide (e.1 ≤ e'.1) := by
  have hvalid := valid_transpose ha fun t => Csr.inRange_of_mem_triples hrows
  have hblocks : (blocks (bucket Csr.columnOf (a.rowTriples row)) a.cols).map (·.2) =
      blocks (bucket (fun e => position e.1) (a.rowEntries row)) a.cols := by
    rw [map_blocks]
    refine blocks_congr fun j _ => ?_
    rw [Csr.rowTriples, bucket_map, List.map_map]
    exact List.map_id _
  calc (transpose (transpose a)).rowEntries row
      = (bucket Csr.columnOf (transpose a).triples row).map fun t => (swap t).2 :=
        rowEntries_transpose hvalid hrow
    _ = (blocks (bucket Csr.columnOf (a.rowTriples row)) a.cols).map (·.2) := by
        rw [bucket_triples_transpose ha hrows hrow, List.map_map]
        rfl
    _ = blocks (bucket (fun e => position e.1) (a.rowEntries row)) a.cols := hblocks
    _ = (a.rowEntries row).mergeSort fun e e' => decide (e.1 ≤ e'.1) :=
        blocks_bucket_position (fun e : Int32 × α => e.1) fun e he =>
          ha.inRange e.1 (List.of_mem_zip (ha.mem_entries he)).1

/-- Transposing twice restores the offsets. -/
theorem rowPtr_transpose_twice (ha : a.Valid) (hrows : a.rows ≤ maxCount + 1) :
    (transpose (transpose a)).rowPtr = a.rowPtr := by
  have hvalid := valid_transpose ha fun t => Csr.inRange_of_mem_triples hrows
  have hperm : (transpose a).colInd.Perm (Offsets.expand a.rowPtr a.rows) := by
    rw [← ha.map_fst_triples]
    exact (sorted_perm ha).map _
  calc (transpose (transpose a)).rowPtr
      = Offsets.ranks (transpose a).colInd a.rows := rfl
    _ = Offsets.ranks (Offsets.expand a.rowPtr a.rows) a.rows := Offsets.ranks_perm hperm a.rows
    _ = a.rowPtr := Offsets.ranks_expand ha.offsets hrows

/-- A matrix whose rows are sorted by column comes back. -/
theorem transpose_twice_of_sorted (ha : a.Valid) (hrows : a.rows ≤ maxCount + 1)
    (hsorted : ∀ row, row < a.rows → (a.rowEntries row).Pairwise fun e e' => e.1 ≤ e'.1) :
    transpose (transpose a) = a := by
  refine (valid_transpose_twice ha hrows).ext ha rfl rfl (rowPtr_transpose_twice ha hrows) ?_
  intro row hrow
  rw [rowEntries_transpose_twice ha hrows hrow]
  refine List.mergeSort_of_pairwise ((hsorted row hrow).imp ?_)
  intro e e' h
  exact decide_eq_true h

end Csc

end SparseDevice
