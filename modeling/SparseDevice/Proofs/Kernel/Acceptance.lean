import Mathlib.Data.Nat.Find
import SparseDevice.Proofs.Kernel.Pattern

/-!
# Sums into given offsets

The second call of a sum is handed the offsets and compares each of them with its merged row before
it writes the row. So it decides row by row what looks like one comparison of two arrays, and by the
time it meets a row that does not fit, the rows before it have been written.

That is all that has been written. Up to the first row that does not fit the given offsets are the
offsets of the sum, hence the rows stand where they would stand in the whole sum, and a call that is
refused leaves a beginning of the sum in front of cells that it has not touched. Offsets all of whose
rows fit are the offsets of the sum.

## Main definitions

* `Addition.Fits`, `Addition.FitsUpTo`: a row that fits its range, and the first one that does not.
* `Addition.stored`: a matrix into which the first rows of a sum have been stored.
* `Csr.Overwritten`: a matrix whose first cells have been written.

## Main results

* `Addition.entries_eq_stored`: the rows before the first that does not fit are stored.
* `Addition.eq_starts_iff`: every row fits the offsets of the sum, and no others.
* `Addition.entries_eq`: a sum into buffers of its size.
-/

namespace SparseDevice

variable {α : Type}

/-- The matrix `c'` has the cells of `sum` below `stop` and the cells of `c` from there on. -/
structure Csr.Overwritten (c sum : Csr α) (stop : Nat) (c' : Csr α) : Prop where
  rows : c'.rows = c.rows
  cols : c'.cols = c.cols
  rowPtr : c'.rowPtr = c.rowPtr
  colInd : c'.colInd.length = c.colInd.length
  values : c'.values.length = c.values.length
  written : ∀ k, k < stop → c'.colInd[k]? = sum.colInd[k]? ∧ c'.values[k]? = sum.values[k]?
  untouched : ∀ k, stop ≤ k → c'.colInd[k]? = c.colInd[k]? ∧ c'.values[k]? = c.values[k]?

namespace Addition

/-! ### Rows that fit -/

/-- The range of a row has a cell for each column that occurs in either row. -/
def Fits (a b : Csr α) (rowPtr : List Int32) (row : Nat) : Prop :=
  offset rowPtr (row + 1) - offset rowPtr row = (a.columns row ∪ b.columns row).card

/-- The rows before `row` fit, and `row` is the first that does not or the end. -/
structure FitsUpTo (a b : Csr α) (rowPtr : List Int32) (row : Nat) : Prop where
  le : row ≤ a.rows
  before : ∀ i, i < row → Fits a b rowPtr i
  stop : row < a.rows → ¬Fits a b rowPtr row

theorem fits_comm (a b : Csr α) (rowPtr : List Int32) (row : Nat) :
    Fits a b rowPtr row ↔ Fits b a rowPtr row := by
  rw [Fits, Fits, Finset.union_comm]

instance (a b : Csr α) (rowPtr : List Int32) (row : Nat) : Decidable (Fits a b rowPtr row) :=
  inferInstanceAs (Decidable (_ = _))

theorem exists_fitsUpTo (a b : Csr α) (rowPtr : List Int32) : ∃ row, FitsUpTo a b rowPtr row := by
  have hend : ∃ row, row < a.rows → ¬Fits a b rowPtr row :=
    ⟨a.rows, fun hlt => absurd hlt (Nat.lt_irrefl _)⟩
  refine ⟨Nat.find hend, Nat.find_min' hend fun hlt => absurd hlt (Nat.lt_irrefl _), ?_,
    Nat.find_spec hend⟩
  intro i hi
  by_contra hnot
  exact Nat.find_min hend hi fun _ => hnot

variable [Add α] [Mul α] {a b c : Csr α} {row : Nat}

theorem fits_iff (alpha : α) (a : Csr α) (beta : α) (b : Csr α) (rowPtr : List Int32) (row : Nat) :
    Fits a b rowPtr row ↔
      offset rowPtr (row + 1) - offset rowPtr row = (merged alpha a beta b row).length := by
  rw [Fits, length_merged]

section Offsets

variable [One α]

/-- As far as the rows fit, the offsets are those of the sum. -/
theorem offset_eq_start {rowPtr : List Int32} {total : Nat} (h : IsOffsets rowPtr a.rows total)
    (hrow : row ≤ a.rows) (hfits : ∀ i, i < row → Fits a b rowPtr i) :
    offset rowPtr row = start a b row := by
  induction row with
  | zero => exact h.zero
  | succ row ih =>
    have hbefore := ih (Nat.le_of_lt hrow) fun i hi => hfits i (Nat.lt_succ_of_lt hi)
    have hlength := (fits_iff 1 a 1 b rowPtr row).mp (hfits row (Nat.lt_succ_self row))
    have hmono := h.mono row (row + 1) (Nat.le_succ row) hrow
    rw [start, ← hbefore, ← hlength, Nat.add_sub_cancel' hmono]

/-- Every row fits the offsets of the sum, and no other offsets. -/
theorem eq_starts_iff (h : Addable a b) {rowPtr : List Int32} {total : Nat}
    (hrowPtr : IsOffsets rowPtr a.rows total) :
    rowPtr = starts a b ↔ ∀ row, row < a.rows → Fits a b rowPtr row := by
  constructor
  · rintro rfl row hrow
    rw [fits_iff 1 a 1 b, offset_starts h hrow, offset_starts h (Nat.le_of_lt hrow),
      start_succ 1 a 1 b, Nat.add_sub_cancel_left]
  · intro hfits
    have hlength : rowPtr.length = (starts a b).length :=
      hrowPtr.length.trans (length_starts a b).symm
    refine (hrowPtr.holds.congr fun row hrow => ?_).ext (holds_starts h) hlength
    rw [hrowPtr.length] at hrow
    have hle : row ≤ a.rows := Nat.le_of_lt_succ hrow
    exact offset_eq_start hrowPtr hle fun i hi => hfits i (Nat.lt_of_lt_of_le hi hle)

/-- No row stands in the way of the offsets of the sum, and one does of any others. -/
theorem FitsUpTo.eq_rows_iff (h : Addable a b) {rowPtr : List Int32} {total : Nat}
    (hrowPtr : IsOffsets rowPtr a.rows total) (hrow : FitsUpTo a b rowPtr row) :
    row = a.rows ↔ rowPtr = starts a b := by
  rw [eq_starts_iff h hrowPtr]
  constructor
  · rintro rfl
    exact hrow.before
  · intro hall
    by_contra hne
    have hlt := Nat.lt_of_le_of_ne hrow.le hne
    exact hrow.stop hlt (hall row hlt)

end Offsets

/-! ### Rows that are stored -/

/-- A matrix into which the rows of a sum before `row` have been stored. -/
def stored (alpha : α) (a : Csr α) (beta : α) (b c : Csr α) (row : Nat) : Csr α :=
  { c with
    colInd := Buffer.splice c.colInd 0 ((blocks (merged alpha a beta b) row).map (·.1))
    values := Buffer.splice c.values 0 ((blocks (merged alpha a beta b) row).map (·.2)) }

theorem stored_zero (alpha : α) (a : Csr α) (beta : α) (b c : Csr α) :
    stored alpha a beta b c 0 = c := by
  simp only [stored, blocks_zero, List.map_nil, Buffer.splice_nil]

variable [One α]

/-- Writing a row behind the rows before it. -/
theorem overwrite_row_eq {μ : Type} (f : Int32 × α → μ) (alpha : α) (a : Csr α) (beta : α)
    (b : Csr α) (row : Nat) {xs : List μ} (hroom : start a b (row + 1) ≤ xs.length) :
    Buffer.overwrite (Buffer.splice xs 0 ((blocks (merged alpha a beta b) row).map f))
        (start a b row) ((merged alpha a beta b row).map f) =
      .ok (Buffer.splice xs 0 ((blocks (merged alpha a beta b) (row + 1)).map f)) := by
  rw [start_succ alpha a beta b row] at hroom
  have hbefore := length_blocks_merged alpha a beta b row
  have hlength : (Buffer.splice xs 0 ((blocks (merged alpha a beta b) row).map f)).length =
      xs.length := Buffer.length_splice (by rw [List.length_map]; omega)
  rw [Buffer.overwrite_eq_ok (.inr (by rw [hlength, List.length_map]; exact hroom)), blocks_succ,
    List.map_append, ← Buffer.splice_splice (Nat.zero_le _), Nat.zero_add, List.length_map, hbefore]

section Loop

variable (ha : a.Valid) (hb : b.Valid) (hrows : a.rows = b.rows) (hc : c.HasRoom a.rows)

include ha hb hrows hc

/-- The loop goes through rows that fit and stores them. -/
theorem entriesFrom_stored (alpha beta : α) {last : Nat} (hlast : last ≤ a.rows)
    (hfits : ∀ i, i < last → Fits a b c.rowPtr i) {count : Nat} (hcount : row + count = last)
    (rest : Nat) : entriesFrom alpha a beta b row (count + rest) (stored alpha a beta b c row) =
      entriesFrom alpha a beta b last rest (stored alpha a beta b c last) := by
  induction count generalizing row with
  | zero => rw [Nat.zero_add, ← hcount, Nat.add_zero]
  | succ count ih =>
    have hrow : row < a.rows := by omega
    have hstart : offset c.rowPtr row = start a b row :=
      offset_eq_start hc.offsets (by omega) fun i hi => hfits i (by omega)
    have hnext : offset c.rowPtr (row + 1) = start a b (row + 1) :=
      offset_eq_start hc.offsets hrow fun i hi => hfits i (by omega)
    have hrange : (stored alpha a beta b c row).rowRange row =
        .ok (offset c.rowPtr row, offset c.rowPtr (row + 1)) :=
      IsOffsets.rowRange_eq (a := stored alpha a beta b c row) hc.offsets hrow
    have hstop : start a b (row + 1) ≤ offset c.rowPtr a.rows := hnext ▸ hc.offsets.le_total hrow
    have hlength := (fits_iff alpha a beta b c.rowPtr row).mp (hfits row (by omega))
    rw [show count + 1 + rest = count + rest + 1 by omega, entriesFrom,
      mergedRow_eq ha hb hrow (hrows ▸ hrow), ok_bind, hrange, ok_bind]
    simp only [hlength, if_true]
    rw [hstart, stored, overwrite_row_eq _ alpha a beta b row (Nat.le_trans hstop hc.colInd), ok_bind,
      overwrite_row_eq _ alpha a beta b row (Nat.le_trans hstop hc.values), ok_bind]
    exact ih (show row + 1 + count = last by omega)

/-- **The rows before the first that does not fit are stored,** and that row is refused. -/
theorem entries_eq_stored (alpha beta : α) (h : FitsUpTo a b c.rowPtr row) :
    entries alpha a beta b c =
      .ok (if row = a.rows then .ok () else .error .invalidValue, stored alpha a beta b c row) := by
  obtain ⟨rest, hrest⟩ := Nat.exists_eq_add_of_le h.le
  have hloop := entriesFrom_stored ha hb hrows hc alpha beta h.le h.before (Nat.zero_add row) rest
  rw [stored_zero, ← hrest] at hloop
  rw [entries, hloop]
  cases rest with
  | zero => rw [entriesFrom, if_pos (by omega)]
  | succ rest =>
    have hrow : row < a.rows := by omega
    have hrange : (stored alpha a beta b c row).rowRange row =
        .ok (offset c.rowPtr row, offset c.rowPtr (row + 1)) :=
      IsOffsets.rowRange_eq (a := stored alpha a beta b c row) hc.offsets hrow
    have hlength := mt (fits_iff alpha a beta b c.rowPtr row).mpr (h.stop hrow)
    rw [entriesFrom, mergedRow_eq ha hb hrow (hrows ▸ hrow), ok_bind, hrange, ok_bind,
      if_neg (Nat.ne_of_lt hrow)]
    simp only [hlength, if_false, pure_eq_ok]

/-- A sum that succeeds has stored all rows, each into a range of its length. -/
theorem entries_eq_ok_iff {alpha beta : α} {c' : Csr α} :
    entries alpha a beta b c = .ok (.ok (), c') ↔
      (∀ row, row < a.rows → Fits a b c.rowPtr row) ∧ c' = stored alpha a beta b c a.rows := by
  obtain ⟨row, hrow⟩ := exists_fitsUpTo a b c.rowPtr
  rw [entries_eq_stored ha hb hrows hc alpha beta hrow]
  by_cases hend : row = a.rows
  · subst hend
    rw [if_pos rfl]
    constructor
    · intro h
      cases h
      exact ⟨hrow.before, rfl⟩
    · rintro ⟨-, rfl⟩
      rfl
  · rw [if_neg hend]
    constructor
    · intro h
      cases h
    · rintro ⟨hall, -⟩
      have hlt := Nat.lt_of_le_of_ne hrow.le hend
      exact absurd (hall row hlt) (hrow.stop hlt)

end Loop

/-! ### What has been stored -/

section Stored

variable (hc : c.HasRoom a.rows) (hrow : row ≤ a.rows)
  (hfits : ∀ i, i < row → Fits a b c.rowPtr i) (alpha beta : α)

include hc hrow hfits

/-- The rows that fit end where the offsets say. -/
theorem length_blocks_of_fits :
    (blocks (merged alpha a beta b) row).length = offset c.rowPtr row := by
  rw [length_blocks_merged, offset_eq_start hc.offsets hrow hfits]

theorem length_colInd_stored : (stored alpha a beta b c row).colInd.length = c.colInd.length := by
  have hle := Nat.le_trans (hc.offsets.le_total hrow) hc.colInd
  refine Buffer.length_splice ?_
  rwa [Nat.zero_add, List.length_map, length_blocks_of_fits hc hrow hfits]

theorem length_values_stored : (stored alpha a beta b c row).values.length = c.values.length := by
  have hle := Nat.le_trans (hc.offsets.le_total hrow) hc.values
  refine Buffer.length_splice ?_
  rwa [Nat.zero_add, List.length_map, length_blocks_of_fits hc hrow hfits]

/-- Storing rows leaves the room that there is. -/
theorem hasRoom_stored : (stored alpha a beta b c row).HasRoom a.rows where
  offsets := hc.offsets
  colInd := by
    rw [length_colInd_stored hc hrow hfits]
    exact hc.colInd
  values := by
    rw [length_values_stored hc hrow hfits]
    exact hc.values

/-- An array into which the rows have been written: a beginning of all rows, and then what it held
before. -/
theorem getElem?_splice_rows {μ : Type} (f : Int32 × α → μ) {xs : List μ}
    (hroom : offset c.rowPtr a.rows ≤ xs.length) (k : Nat) :
    (Buffer.splice xs 0 ((blocks (merged alpha a beta b) row).map f))[k]? =
      if k < offset c.rowPtr row then ((blocks (merged alpha a beta b) a.rows).map f)[k]?
      else xs[k]? := by
  have hlength : ((blocks (merged alpha a beta b) row).map f).length = offset c.rowPtr row := by
    rw [List.length_map, length_blocks_of_fits hc hrow hfits]
  have hle := Nat.le_trans (hc.offsets.le_total hrow) hroom
  split
  · next hlt =>
    have hbefore := Buffer.getElem?_splice_add (hlength ▸ hlt) (Nat.zero_le xs.length)
    rw [Nat.zero_add] at hbefore
    have hprefix : (blocks (merged alpha a beta b) row).map f <+:
        (blocks (merged alpha a beta b) a.rows).map f := (blocks_prefix_blocks hrow).map f
    rw [hbefore, List.getElem?_eq_getElem (hlength ▸ hlt)]
    exact (List.prefix_iff_getElem?.mp hprefix k (hlength ▸ hlt)).symm
  · next hnot =>
    exact Buffer.getElem?_splice_of_le (by omega) (by omega)

/-- The rows that have been stored are a beginning of the sum. -/
theorem stored_overwritten : c.Overwritten (summed alpha a beta b) (offset c.rowPtr row)
    (stored alpha a beta b c row) where
  rows := rfl
  cols := rfl
  rowPtr := rfl
  colInd := length_colInd_stored hc hrow hfits alpha beta
  values := length_values_stored hc hrow hfits alpha beta
  written k hk := by
    have hcolInd := getElem?_splice_rows hc hrow hfits alpha beta Prod.fst hc.colInd k
    have hvalues := getElem?_splice_rows hc hrow hfits alpha beta Prod.snd hc.values k
    rw [if_pos hk] at hcolInd hvalues
    exact ⟨hcolInd, hvalues⟩
  untouched k hk := by
    have hcolInd := getElem?_splice_rows hc hrow hfits alpha beta Prod.fst hc.colInd k
    have hvalues := getElem?_splice_rows hc hrow hfits alpha beta Prod.snd hc.values k
    rw [if_neg (Nat.not_lt.mpr hk)] at hcolInd hvalues
    exact ⟨hcolInd, hvalues⟩

/-- A row that has been stored is read back. -/
theorem rowEntries_stored {i : Nat} (hi : i < row) :
    (stored alpha a beta b c row).rowEntries i = merged alpha a beta b i := by
  have hstart : ∀ j, j ≤ row → offset c.rowPtr j = start a b j := fun j hj =>
    offset_eq_start hc.offsets (Nat.le_trans hj hrow) fun k hk =>
      hfits k (Nat.lt_of_lt_of_le hk hj)
  have hentries : blocks (merged alpha a beta b) row <+: (stored alpha a beta b c row).entries := by
    have hpairs : (blocks (merged alpha a beta b) row).map (fun entry => (entry.1, entry.2)) =
      blocks (merged alpha a beta b) row := List.map_id _
    rw [Csr.entries, stored, Buffer.splice, Buffer.splice, List.take_zero, List.take_zero,
      List.nil_append, List.nil_append, List.zip_append (by rw [List.length_map, List.length_map]),
      List.zip_map', hpairs]
    exact List.prefix_append _ _
  refine Csr.rowEntries_of_blocks hentries hc.offsets.zero ?_ hi
  intro j hj
  show offset c.rowPtr (j + 1) = offset c.rowPtr j + _
  rw [hstart _ hj, hstart _ (Nat.le_of_lt hj), start_succ alpha a beta b j]

end Stored

/-- The offsets of the sum ask for as much room as the sum takes. -/
theorem hasRoom_starts (h : Addable a b) {rows cols : Nat} {colInd : List Int32} {values : List α}
    (hcolInd : start a b a.rows ≤ colInd.length) (hvalues : start a b a.rows ≤ values.length) :
    (⟨rows, cols, starts a b, colInd, values⟩ : Csr α).HasRoom a.rows := by
  have hoffsets := isOffsets_starts h
  exact ⟨hoffsets.last ▸ hoffsets, Nat.le_trans (Nat.le_of_eq hoffsets.last) hcolInd,
    Nat.le_trans (Nat.le_of_eq hoffsets.last) hvalues⟩

/-- The second call leaves nothing of buffers that the offsets fill. -/
theorem entries_eq (h : Addable a b) (alpha beta : α) {colInd : List Int32} {values : List α}
    (hcolInd : colInd.length = start a b a.rows) (hvalues : values.length = start a b a.rows) :
    entries alpha a beta b ⟨a.rows, a.cols, starts a b, colInd, values⟩ =
      .ok (.ok (), summed alpha a beta b) := by
  have hlength := length_blocks_merged alpha a beta b a.rows
  have hroom : (⟨a.rows, a.cols, starts a b, colInd, values⟩ : Csr α).HasRoom a.rows :=
    hasRoom_starts h (Nat.le_of_eq hcolInd.symm) (Nat.le_of_eq hvalues.symm)
  obtain ⟨row, hrow⟩ := exists_fitsUpTo a b (starts a b)
  obtain rfl := (hrow.eq_rows_iff h hroom.offsets).mpr rfl
  rw [entries_eq_stored h.left h.right h.rows hroom alpha beta hrow, if_pos rfl]
  simp only [stored, summed]
  rw [Buffer.splice_zero_of_length_eq (by rw [List.length_map]; omega),
    Buffer.splice_zero_of_length_eq (by rw [List.length_map]; omega)]

end Addition

end SparseDevice
