import Mathlib.Data.Finset.Card
import SparseDevice.Proofs.Kernel.Addition
import SparseDevice.Proofs.Kernel.Rows

/-!
# The pattern of a sum

A merged row is sorted by column and has one entry for each column that occurs in either row. Two
sorted rows with the same columns have them in the same places, so the pattern of a sum is fixed by
the sets of columns: coefficients, values, and the order and the number of entries of a column play
no part in it. This is why the first call can count with coefficients of its own, and why the second
call, with any others, fits the rows that were counted.

## Main definitions

* `Csr.columns`: the columns that occur in a row.
* `Addition.starts`, `Addition.summed`: the offsets of a sum and the whole sum.
* `Addition.Pattern`: the offsets and the columns of a sum, by the sets of columns of its terms.
* `Addition.Alike`: matrices with the same sets of columns.

## Main results

* `Addition.offsets_eq`: what the first call yields.
* `Addition.pattern_summed`: a sum has its pattern.
* `Addition.starts_eq`, `Addition.summed_eq`: the sets of columns determine the pattern.
-/

namespace SparseDevice

/-- The columns that occur in a row. -/
def Csr.columns {α : Type} (a : Csr α) (row : Nat) : Finset Int32 :=
  ((a.rowEntries row).map (·.1)).toFinset

theorem Csr.Valid.inRange_of_mem_columns {α : Type} {a : Csr α} (h : a.Valid) {row : Nat}
    {col : Int32} (hcol : col ∈ a.columns row) : InRange col a.cols := by
  obtain ⟨entry, hentry, rfl⟩ := List.mem_map.mp (List.mem_toFinset.mp hcol)
  exact h.inRange _ (List.of_mem_zip (h.mem_entries hentry)).1

/-- Rows that are sorted without repetition are determined by their columns. -/
theorem eq_of_sorted_of_toFinset_eq {xs ys : List Int32} (hx : xs.Pairwise (· < ·))
    (hy : ys.Pairwise (· < ·)) (h : xs.toFinset = ys.toFinset) : xs = ys := by
  have hne : ∀ {i j : Int32}, i < j → i ≠ j := by
    rintro i j hlt rfl
    exact Int32.lt_irrefl hlt
  have hperm : xs.Perm ys := List.perm_of_nodup_nodup_toFinset_eq (hx.imp hne) (hy.imp hne) h
  refine hperm.eq_of_pairwise (fun i j _ _ hij hji => ?_) hx hy
  exact absurd (Int32.lt_trans hij hji) Int32.lt_irrefl

namespace Addition

variable {α : Type}

/-- The columns in a row of a matrix, by its offsets and its columns. -/
def rowColumns (rowPtr colInd : List Int32) (row : Nat) : List Int32 :=
  (colInd.drop (offset rowPtr row)).take (offset rowPtr (row + 1) - offset rowPtr row)

theorem rowColumns_eq {c : Csr α} (h : c.Valid) (row : Nat) :
    rowColumns c.rowPtr c.colInd row = (c.rowEntries row).map (·.1) := by
  rw [rowColumns, Csr.rowEntries, List.map_take, List.map_drop, h.map_fst_entries]

/-! ### Merged rows -/

section Merged

variable [Add α]

theorem toFinset_collect (terms : List (Int32 × α)) :
    ((collect terms).map (·.1)).toFinset = (terms.map (·.1)).toFinset := by
  ext c
  rw [List.mem_toFinset, List.mem_toFinset, collect, mem_columns_foldl_insertTerm]
  simp

variable [Mul α] {a b : Csr α} {row : Nat}

/-- The columns of a merged row are those of either row. -/
theorem toFinset_merged (alpha : α) (a : Csr α) (beta : α) (b : Csr α) (row : Nat) :
    ((merged alpha a beta b row).map (·.1)).toFinset = a.columns row ∪ b.columns row := by
  rw [merged, toFinset_collect, List.map_append, List.toFinset_append, terms, terms, List.map_map,
    List.map_map]
  rfl

theorem pairwise_merged (alpha : α) (a : Csr α) (beta : α) (b : Csr α) (row : Nat) :
    ((merged alpha a beta b row).map (·.1)).Pairwise (· < ·) := pairwise_collect _

/-- A merged row has one entry for each column, whatever the coefficients. -/
theorem length_merged (alpha : α) (a : Csr α) (beta : α) (b : Csr α) (row : Nat) :
    (merged alpha a beta b row).length = (a.columns row ∪ b.columns row).card := by
  have hnodup : ((merged alpha a beta b row).map (·.1)).Nodup := by
    refine (pairwise_merged alpha a beta b row).imp ?_
    rintro i j hlt rfl
    exact Int32.lt_irrefl hlt
  rw [← toFinset_merged alpha a beta b row, List.toFinset_card_of_nodup hnodup, List.length_map]

end Merged

/-! ### What the calls yield -/

section Calls

variable [Add α] [Mul α] [One α] {a b : Csr α}

/-- Sound matrices of one shape whose entries can be counted together. -/
structure Addable (a b : Csr α) : Prop where
  left : a.Valid
  right : b.Valid
  rows : a.rows = b.rows
  cols : a.cols = b.cols
  count : a.nnz + b.nnz ≤ maxCount

theorem start_succ (alpha : α) (a : Csr α) (beta : α) (b : Csr α) (row : Nat) :
    start a b (row + 1) = start a b row + (merged alpha a beta b row).length := by
  rw [start, length_merged, length_merged]

theorem length_blocks_merged (alpha : α) (a : Csr α) (beta : α) (b : Csr α) (row : Nat) :
    (blocks (merged alpha a beta b) row).length = start a b row :=
  length_blocks rfl fun i _ => start_succ alpha a beta b i

/-- The offsets of a sum. -/
def starts (a b : Csr α) : List Int32 :=
  (List.range (a.rows + 1)).map fun row => Int32.ofNat (start a b row)

theorem length_starts (a b : Csr α) : (starts a b).length = a.rows + 1 := by
  rw [starts, List.length_map, List.length_range]

theorem holds_starts (h : Addable a b) : Holds (starts a b) (start a b) :=
  Holds.map_range fun _ hrow =>
    Nat.le_trans (start_le_nnz h.left h.right h.rows (Nat.le_of_lt_succ hrow)) h.count

theorem offset_starts (h : Addable a b) {row : Nat} (hrow : row ≤ a.rows) :
    offset (starts a b) row = start a b row :=
  (holds_starts h).offset_eq (by rw [length_starts]; omega)

theorem isOffsets_starts (h : Addable a b) : IsOffsets (starts a b) a.rows (start a b a.rows) :=
  (holds_starts h).isOffsets (length_starts a b) rfl fun _ _ => Nat.le_add_right _ _

/-- The first call leaves nothing of its buffer. -/
theorem offsets_eq (h : Addable a b) {rowPtr : List Int32} (hlength : rowPtr.length = a.rows + 1) :
    offsets a b rowPtr = .ok (start a b a.rows, starts a b) := by
  obtain ⟨out, hout, hlength', hholds⟩ := offsets_ok h.left h.right h.rows hlength h.count
  rw [hout, hholds.ext (holds_starts h) (hlength'.trans (length_starts a b).symm)]

/-- The sum of two matrices. -/
def summed (alpha : α) (a : Csr α) (beta : α) (b : Csr α) : Csr α where
  rows := a.rows
  cols := a.cols
  rowPtr := starts a b
  colInd := (blocks (merged alpha a beta b) a.rows).map (·.1)
  values := (blocks (merged alpha a beta b) a.rows).map (·.2)

theorem colInd_summed (alpha : α) (a : Csr α) (beta : α) (b : Csr α) :
    (summed alpha a beta b).colInd =
      blocks (fun row => (merged alpha a beta b row).map (·.1)) a.rows := map_blocks ..

theorem length_colInd_summed (alpha : α) (a : Csr α) (beta : α) (b : Csr α) :
    (summed alpha a beta b).colInd.length = start a b a.rows := by
  rw [summed, List.length_map, length_blocks_merged]

/-! ### The sum as a matrix -/

/-- The rows of a sum are the merged rows. -/
theorem rowEntries_summed (h : Addable a b) (alpha beta : α) {row : Nat} (hrow : row < a.rows) :
    (summed alpha a beta b).rowEntries row = merged alpha a beta b row := by
  have hoffset : ∀ i, i ≤ a.rows → offset (summed alpha a beta b).rowPtr i = start a b i :=
    fun i hi => offset_starts h hi
  have hentries : blocks (merged alpha a beta b) a.rows <+: (summed alpha a beta b).entries :=
    ⟨[], by rw [List.append_nil, summed, Csr.entries_map]⟩
  refine Csr.rowEntries_of_blocks hentries (hoffset 0 (Nat.zero_le _)) ?_ hrow
  intro i hi
  rw [hoffset _ hi, hoffset _ (Nat.le_of_lt hi), start_succ alpha a beta b i]

/-- The sum of two sound matrices of one shape is sound. -/
theorem valid_summed (h : Addable a b) (alpha beta : α) : (summed alpha a beta b).Valid where
  offsets := by
    have hnnz : (summed alpha a beta b).nnz = start a b a.rows := by
      rw [Csr.nnz, summed, List.length_map, length_blocks_merged]
    rw [hnnz]
    exact isOffsets_starts h
  colInd := by rw [summed, Csr.nnz, List.length_map, List.length_map]
  inRange col hcol := by
    obtain ⟨entry, hentry, rfl⟩ := List.mem_map.mp hcol
    obtain ⟨row, -, hentry⟩ := mem_blocks.mp hentry
    have hmem : entry.1 ∈ a.columns row ∪ b.columns row := by
      rw [← toFinset_merged alpha a beta b row, List.mem_toFinset]
      exact List.mem_map_of_mem hentry
    rcases Finset.mem_union.mp hmem with hleft | hright
    · exact h.left.inRange_of_mem_columns hleft
    · exact h.cols ▸ h.right.inRange_of_mem_columns hright

/-! ### The pattern -/

end Calls

/-- The offsets and the columns that the sum of two matrices has. -/
structure Pattern (a b : Csr α) (rowPtr colInd : List Int32) : Prop where
  /-- There is one offset more than rows. -/
  length : rowPtr.length = a.rows + 1
  first : rowPtr.getD 0 0 = 0
  /-- A row has as many entries as there are columns in either row. -/
  counts : ∀ row, row < a.rows → (rowPtr.getD (row + 1) 0).toInt =
    (rowPtr.getD row 0).toInt + (a.columns row ∪ b.columns row).card
  /-- No offset exceeds the number of entries of both matrices. -/
  bound : ∀ row, row ≤ a.rows → (rowPtr.getD row 0).toInt ≤ (a.nnz + b.nnz : Nat)
  /-- The last offset is the number of entries of the sum. -/
  total : (rowPtr.getD a.rows 0).toInt = colInd.length
  /-- The columns of a row strictly increase. -/
  increasing : ∀ row, row < a.rows → (rowColumns rowPtr colInd row).Pairwise (· < ·)
  /-- The columns of a row are those of either row. -/
  union : ∀ row, row < a.rows →
    (rowColumns rowPtr colInd row).toFinset = a.columns row ∪ b.columns row

section

variable [Add α] [Mul α] [One α] {a b : Csr α}

/-- A sum has its pattern, whatever the coefficients. -/
theorem pattern_summed (h : Addable a b) (alpha beta : α) :
    Pattern a b (starts a b) (summed alpha a beta b).colInd := by
  have hcell : ∀ row, row ≤ a.rows → ((starts a b).getD row 0).toInt = start a b row :=
    fun row hrow => (holds_starts h).toInt_getD (by rw [length_starts]; omega)
  have hcolumns : ∀ row, row < a.rows →
      rowColumns (starts a b) (summed alpha a beta b).colInd row =
        (merged alpha a beta b row).map (·.1) := by
    intro row hrow
    rw [← rowEntries_summed h alpha beta hrow]
    exact rowColumns_eq (valid_summed h alpha beta) row
  refine ⟨length_starts a b, (isOffsets_starts h).check.1, ?_, ?_, ?_, ?_, ?_⟩
  · intro row hrow
    rw [hcell _ hrow, hcell _ (Nat.le_of_lt hrow), start_succ alpha a beta b row, length_merged]
    rfl
  · intro row hrow
    rw [hcell row hrow]
    exact Int.ofNat_le.mpr (start_le_nnz h.left h.right h.rows hrow)
  · rw [hcell a.rows (Nat.le_refl _), length_colInd_summed]
  · intro row hrow
    rw [hcolumns row hrow]
    exact pairwise_merged alpha a beta b row
  · intro row hrow
    rw [hcolumns row hrow, toFinset_merged]

/-- Matrices of one shape with the same columns in each row. -/
structure Alike (a a' : Csr α) : Prop where
  rows : a'.rows = a.rows
  cols : a'.cols = a.cols
  columns : ∀ row, row < a.rows → a'.columns row = a.columns row

/-- The columns of the terms determine the columns of the sum. -/
theorem colInd_summed_eq {a' b' : Csr α} (ha : Alike a a') (hb : Alike b b')
    (hrows : a.rows = b.rows) (alpha beta alpha' beta' : α) :
    (summed alpha' a' beta' b').colInd = (summed alpha a beta b).colInd := by
  rw [colInd_summed, colInd_summed, ha.rows]
  refine blocks_congr fun row hrow => ?_
  refine eq_of_sorted_of_toFinset_eq (pairwise_merged ..) (pairwise_merged ..) ?_
  rw [toFinset_merged, toFinset_merged, ha.columns row hrow, hb.columns row (hrows ▸ hrow)]

theorem start_eq {a' b' : Csr α} (ha : Alike a a') (hb : Alike b b') (hrows : a.rows = b.rows)
    {row : Nat} (hrow : row ≤ a.rows) : start a' b' row = start a b row := by
  induction row with
  | zero => rfl
  | succ row ih =>
    rw [start, start, ih (Nat.le_of_lt hrow), length_merged, length_merged, ha.columns row hrow,
      hb.columns row (hrows ▸ hrow)]

/-- The columns of the terms determine the offsets of the sum. -/
theorem starts_eq {a' b' : Csr α} (ha : Alike a a') (hb : Alike b b') (hrows : a.rows = b.rows) :
    starts a' b' = starts a b := by
  rw [starts, starts, ha.rows]
  refine List.map_congr_left fun row hrow => ?_
  rw [start_eq ha hb hrows (Nat.le_of_lt_succ (List.mem_range.mp hrow))]

/-- Sums of matrices with the same columns differ in their values only. -/
theorem summed_eq {a' b' : Csr α} (ha : Alike a a') (hb : Alike b b') (hrows : a.rows = b.rows)
    (alpha beta alpha' beta' : α) : summed alpha' a' beta' b' =
      { summed alpha a beta b with values := (summed alpha' a' beta' b').values } := by
  calc summed alpha' a' beta' b'
      = ⟨a'.rows, a'.cols, starts a' b', (summed alpha' a' beta' b').colInd,
          (summed alpha' a' beta' b').values⟩ := rfl
    _ = { summed alpha a beta b with values := (summed alpha' a' beta' b').values } := by
        rw [ha.rows, ha.cols, starts_eq ha hb hrows,
          colInd_summed_eq ha hb hrows alpha beta alpha' beta']
        rfl

end

end Addition

end SparseDevice
