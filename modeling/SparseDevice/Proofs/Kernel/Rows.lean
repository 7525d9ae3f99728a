import SparseDevice.Proofs.Kernel.Blocks
import SparseDevice.Proofs.Kernel.Cells

/-!
# Matrices by their rows

The check of a matrix accepts exactly the sound ones, and a sound matrix is nothing but its rows:
its entries are the rows one after the other, and the offsets are where the rows start. So a routine
that puts rows together yields a sound matrix whose rows are those.

Index arrays are known by the numbers that they hold, and by their length.

## Main results

* `blocks_bucket_position`: sorting by an index.
* `Holds.ext`: two arrays with the same numbers are the same.
* `Holds.isOffsets`, `IsOffsets.check`: the numbers of an offset array and the checks on it.
* `Csr.validate_eq_ok_iff_valid`: the check of a matrix accepts the sound matrices.
* `Csr.Valid.entries_eq_blocks`, `Csr.rowEntries_of_blocks`, `Csr.Valid.ext`: a matrix and its rows.
-/

namespace SparseDevice

/-! ### Arrays by their numbers -/

theorem toInt_eq_position {i : Int32} {n : Nat} (h : InRange i n) : i.toInt = position i := by
  have hnonneg : 0 ≤ i.toInt := by simpa using Int32.le_iff_toInt_le.mp h.1
  rw [position_of_nonneg hnonneg, Int.toNat_of_nonneg hnonneg]

/-- An index within a range is the number of its cell. -/
theorem ofNat_position {i : Int32} {n : Nat} (h : InRange i n) : Int32.ofNat (position i) = i := by
  have hlt := i.toInt_lt
  rw [toInt_eq_position h] at hlt
  rw [← Int32.toInt_inj, toInt_ofNat_of_le (by rw [maxCount]; omega), toInt_eq_position h]

theorem position_ofNat {n : Nat} (h : n ≤ maxCount) : position (Int32.ofNat n) = n :=
  position_eq (toInt_ofNat_of_le h)

theorem inRange_ofNat {i n : Nat} (hi : i < n) (h : i ≤ maxCount) : InRange (Int32.ofNat i) n := by
  refine ⟨?_, by rwa [position_ofNat h]⟩
  rw [Int32.le_iff_toInt_le, toInt_ofNat_of_le h, Int32.toInt_zero]
  exact Int.natCast_nonneg i

/-- Indices within a range are ordered as their cells are. -/
theorem le_iff_position_le {i j : Int32} {n : Nat} (hi : InRange i n) (hj : InRange j n) :
    i ≤ j ↔ position i ≤ position j := by
  rw [Int32.le_iff_toInt_le, toInt_eq_position hi, toInt_eq_position hj, Int.ofNat_le]

theorem ascending_iff_pairwise {xs : List Int32} :
    ascending xs = true ↔ xs.Pairwise (· ≤ ·) := by
  induction xs with
  | nil => simp
  | cons i xs ih =>
    cases xs with
    | nil => simp
    | cons j xs =>
      rw [ascending_cons_cons, ih, List.pairwise_cons (l := j :: xs), List.forall_mem_cons]
      refine ⟨?_, fun ⟨⟨hij, _⟩, hrest⟩ => ⟨hij, hrest⟩⟩
      rintro ⟨hij, hrest⟩
      exact ⟨⟨hij, fun k hk => Int32.le_trans hij ((List.pairwise_cons.mp hrest).1 k hk)⟩, hrest⟩

/-- The buckets of an index are the list, stably sorted by that index. -/
theorem blocks_bucket_position {μ : Type} (index : μ → Int32) {xs : List μ} {n : Nat}
    (h : ∀ x ∈ xs, InRange (index x) n) :
    blocks (bucket (fun x => position (index x)) xs) n =
      xs.mergeSort fun x y => decide (index x ≤ index y) := by
  refine blocks_bucket_eq_mergeSort ?_ ?_ ?_ fun x hx => (h x hx).2
  · intro x y z hxy hyz
    rw [decide_eq_true_eq] at hxy hyz ⊢
    exact Int32.le_trans hxy hyz
  · intro x y
    rw [Bool.or_eq_true, decide_eq_true_eq, decide_eq_true_eq]
    exact Int32.le_total _ _
  · intro x hx y hy
    rw [decide_eq_true_eq]
    exact le_iff_position_le (h x hx) (h y hy)

namespace Holds

variable {xs ys : List Int32} {f : Nat → Nat}

/-- Two arrays with the same numbers are the same. -/
theorem ext (hx : Holds xs f) (hy : Holds ys f) (hlength : xs.length = ys.length) : xs = ys := by
  refine List.ext_getElem hlength fun i hi hi' => ?_
  rw [← Int32.toInt_inj, hx i _ (List.getElem?_eq_getElem hi),
    hy i _ (List.getElem?_eq_getElem hi')]

theorem toInt_getD (h : Holds xs f) {i : Nat} (hi : i < xs.length) : (xs.getD i 0).toInt = f i := by
  rw [getD_eq_getElem hi]
  exact h i _ (List.getElem?_eq_getElem hi)

theorem offset_eq (h : Holds xs f) {i : Nat} (hi : i < xs.length) : offset xs i = f i :=
  position_eq (h.toInt_getD hi)

/-- The array that holds given counters. -/
theorem map_range {n : Nat} (h : ∀ i, i < n → f i ≤ maxCount) :
    Holds ((List.range n).map fun i => Int32.ofNat (f i)) f := by
  intro i x hx
  obtain ⟨hi, rfl⟩ := List.getElem?_eq_some_iff.mp hx
  rw [List.length_map, List.length_range] at hi
  rw [List.getElem_map, List.getElem_range, toInt_ofNat_of_le (h i hi)]

/-- Numbers that start at zero and never decrease are offsets. -/
theorem isOffsets {n : Nat} (h : Holds xs f) (hlength : xs.length = n + 1) (hzero : f 0 = 0)
    (hmono : ∀ i, i < n → f i ≤ f (i + 1)) : IsOffsets xs n (f n) where
  length := hlength
  holds := h.congr fun i hi => (h.offset_eq hi).symm
  zero := by rw [h.offset_eq (by omega), hzero]
  mono i j hij hj := by
    rw [h.offset_eq (by omega), h.offset_eq (by omega)]
    induction hij with
    | refl => exact Nat.le_refl _
    | step _ ih => exact Nat.le_trans (ih (Nat.le_of_succ_le hj)) (hmono _ hj)
  last := h.offset_eq (by omega)

end Holds

/-- Offsets pass the checks of an offset array. -/
theorem IsOffsets.check {ptr : List Int32} {n total : Nat} (h : IsOffsets ptr n total) :
    ptr.getD 0 0 = 0 ∧ ascending ptr = true := by
  have hlength := h.length
  constructor
  · rw [← Int32.toInt_inj, h.holds.toInt_getD (by omega), h.zero]
    rfl
  · refine ascending_iff_pairwise.mpr (List.pairwise_iff_getElem.mpr fun i j hi hj hij => ?_)
    have hle := h.mono i j (Nat.le_of_lt hij) (by omega)
    rw [Int32.le_iff_toInt_le, h.holds i _ (List.getElem?_eq_getElem hi),
      h.holds j _ (List.getElem?_eq_getElem hj)]
    exact Int.ofNat_le.mpr hle

/-! ### Matrices and rows -/

namespace Csr

variable {α : Type} {a : Csr α}

/-- The check of a matrix accepts exactly the sound ones. -/
theorem validate_eq_ok_iff_valid : a.validate = .ok () ↔ a.Valid := by
  refine ⟨valid_of_validate, fun h => ?_⟩
  obtain ⟨hzero, hascending⟩ := h.offsets.check
  exact validate_eq_ok_iff.mpr
    ⟨h.offsets.length, h.colInd, ⟨hzero, h.offsets.last⟩, hascending, h.inRange⟩

theorem validate_bind_eq_ok_iff {β : Type} {next : Unit → Except Objection β} {b : β} :
    a.validate >>= next = .ok b ↔ a.Valid ∧ next () = .ok b := by
  rw [bind_eq_ok_iff, ← validate_eq_ok_iff_valid]
  exact ⟨fun ⟨⟨⟩, h⟩ => h, fun h => ⟨(), h⟩⟩

theorem Valid.map_fst_entries (h : a.Valid) : a.entries.map (·.1) = a.colInd :=
  List.map_fst_zip (Nat.le_of_eq h.colInd)

theorem Valid.map_snd_entries (h : a.Valid) : a.entries.map (·.2) = a.values :=
  List.map_snd_zip (Nat.le_of_eq h.colInd.symm)

/-- The rows one after the other are all entries. -/
theorem Valid.entries_eq_blocks (h : a.Valid) : a.entries = blocks a.rowEntries a.rows := by
  have hbefore : ∀ row, row ≤ a.rows →
      a.entries.take (offset a.rowPtr row) = blocks a.rowEntries row := by
    intro row hrow
    induction row with
    | zero => rw [h.offsets.zero, List.take_zero, blocks_zero]
    | succ row ih => rw [h.take_offset_succ hrow, ih (Nat.le_of_lt hrow), blocks_succ]
  rw [← hbefore a.rows (Nat.le_refl _), h.offsets.last, ← h.length_entries, List.take_length]

/-- The entries of a matrix that was put together from rows. Entries behind the last row are of no
account. -/
theorem rowEntries_of_blocks {f : Nat → List (Int32 × α)} {n : Nat}
    (hentries : blocks f n <+: a.entries) (hzero : offset a.rowPtr 0 = 0)
    (hstart : ∀ row, row < n →
      offset a.rowPtr (row + 1) = offset a.rowPtr row + (f row).length)
    {row : Nat} (hrow : row < n) : a.rowEntries row = f row :=
  drop_take_of_blocks_prefix hentries hzero hstart hrow

/-- Sound matrices with the same offsets and the same rows are the same. -/
theorem Valid.ext {b : Csr α} (ha : a.Valid) (hb : b.Valid) (hrows : a.rows = b.rows)
    (hcols : a.cols = b.cols) (hrowPtr : a.rowPtr = b.rowPtr)
    (hentries : ∀ row, row < a.rows → a.rowEntries row = b.rowEntries row) : a = b := by
  have hsame : a.entries = b.entries := by
    rw [ha.entries_eq_blocks, hb.entries_eq_blocks, ← hrows]
    exact blocks_congr hentries
  have hcolInd : a.colInd = b.colInd := by
    rw [← ha.map_fst_entries, ← hb.map_fst_entries, hsame]
  have hvalues : a.values = b.values := by
    rw [← ha.map_snd_entries, ← hb.map_snd_entries, hsame]
  cases a
  cases b
  simp_all only

theorem entries_map (rows cols : Nat) (rowPtr : List Int32) (entries : List (Int32 × α)) :
    (Csr.mk rows cols rowPtr (entries.map (·.1)) (entries.map (·.2))).entries = entries := by
  rw [Csr.entries, List.zip_map']
  exact List.map_id entries

end Csr

end SparseDevice
