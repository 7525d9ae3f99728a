import Mathlib.Algebra.GroupWithZero.Nat
import Mathlib.Data.List.GetD
import SparseDevice.Proofs.Kernel.Reading
import SparseDevice.Proofs.Kernel.Rows

/-!
# Matrices as lists of rows

A matrix by rows is a way to write down a list of rows: the entries of all rows one after the other,
and in front of them where each row starts. Not every list can be written down. The columns have to
be those of the matrix, and the starts have to be 32-bit numbers.

The check of a matrix accepts what was written down in this way and nothing else, and what it accepts
was written down from one list only. That list is found again by cutting the arrays at the offsets,
since the ranges of the rows tile the entries. Rows may be empty, and within a row columns may come
in any order and more than once; none of this is a reason to reject a matrix.

## Main definitions

* `Csr.ofRows`: the matrix that writes down a list of rows.
* `Csr.Encodable`: the lists of rows that can be written down.
* `Csr.ReadsAs`: the rows that the offsets cut out of the arrays.
* `Csr.Tiled`: row ranges that cover the entries without a gap and without an overlap.

## Main results

* `Csr.toRows_ofRows`, `Csr.Valid.ofRows_toRows`: writing down and reading back.
* `Csr.validate_accepts_encodings`: what the check of a matrix accepts.
-/

namespace SparseDevice

/-! ### Starts of rows -/

/-- How many items stand in the lists before a number. -/
def rowStart {μ : Type} (rows : List (List μ)) (i : Nat) : Nat :=
  ((rows.take i).map List.length).sum

section Starts

variable {μ : Type} {rows : List (List μ)} {i : Nat}

@[simp] theorem rowStart_zero (rows : List (List μ)) : rowStart rows 0 = 0 := rfl

theorem rowStart_succ (hi : i < rows.length) :
    rowStart rows (i + 1) = rowStart rows i + (rows.getD i []).length := by
  rw [rowStart, rowStart, List.take_succ_eq_append_getElem hi, List.getD_eq_getElem _ _ hi,
    List.map_append, List.sum_append, List.map_singleton, List.sum_singleton]

theorem rowStart_length (rows : List (List μ)) : rowStart rows rows.length = rows.flatten.length := by
  rw [rowStart, List.take_length, List.length_flatten]

theorem rowStart_le (rows : List (List μ)) (i : Nat) : rowStart rows i ≤ rows.flatten.length := by
  have hsplit := congrArg (fun rows => rows.flatten.length) (List.take_append_drop i rows)
  simp only [List.flatten_append, List.length_append] at hsplit
  rw [rowStart, ← List.length_flatten, ← hsplit]
  exact Nat.le_add_right _ _

/-- Lists one after the other are blocks. -/
theorem blocks_getD (rows : List (List μ)) :
    blocks (fun i => rows.getD i []) rows.length = rows.flatten := by
  have hrows : (List.range rows.length).map (fun i => rows.getD i []) = rows := by
    refine List.ext_getElem (by simp) fun i hi _ => ?_
    have hlt : i < rows.length := by simpa using hi
    rw [List.getElem_map, List.getElem_range, List.getD_eq_getElem _ _ hlt]
  rw [blocks, List.flatMap, hrows]

end Starts

/-- Every place before the last offset lies between an offset and the next one, and between these
only. -/
theorem IsOffsets.existsUnique_row {ptr : List Int32} {n total : Nat} (h : IsOffsets ptr n total)
    {k : Nat} (hk : k < offset ptr n) :
    ∃! i, i < n ∧ offset ptr i ≤ k ∧ k < offset ptr (i + 1) := by
  have hexists : ∀ j, j ≤ n → k < offset ptr j →
      ∃ i, i < n ∧ offset ptr i ≤ k ∧ k < offset ptr (i + 1) := by
    intro j hj hlt
    induction j with
    | zero => exact absurd (h.zero ▸ hlt) (Nat.not_lt_zero k)
    | succ j ih =>
      rcases Nat.lt_or_ge k (offset ptr j) with hbefore | hfrom
      · exact ih (Nat.le_of_succ_le hj) hbefore
      · exact ⟨j, hj, hfrom, hlt⟩
  obtain ⟨i, hi, hle, hlt⟩ := hexists n (Nat.le_refl n) hk
  refine ⟨i, ⟨hi, hle, hlt⟩, ?_⟩
  rintro j ⟨hj, hle', hlt'⟩
  -- of two rows the earlier one ends before the later one starts
  rcases Nat.lt_trichotomy j i with hji | hji | hij
  · have := h.mono (j + 1) i hji (Nat.le_of_lt hi)
    omega
  · exact hji
  · have := h.mono (i + 1) j hij (Nat.le_of_lt hj)
    omega

namespace Csr

variable {α : Type}

/-! ### Writing down a list of rows -/

/-- The matrix that writes down a list of rows: where they start and end, and the columns and values
of their entries. -/
def ofRows (cols : Nat) (rows : List (List (Int32 × α))) : Csr α where
  rows := rows.length
  cols := cols
  rowPtr := (List.range (rows.length + 1)).map fun i => Int32.ofNat (rowStart rows i)
  colInd := rows.flatten.map (·.1)
  values := rows.flatten.map (·.2)

/-- Rows that can be written down: their columns are columns of the matrix, and their entries can be
counted. -/
structure Encodable (cols : Nat) (rows : List (List (Int32 × α))) : Prop where
  inRange : ∀ row ∈ rows, ∀ entry ∈ row, InRange entry.1 cols
  count : rows.flatten.length ≤ maxCount

/-- The rows that a matrix writes down. -/
def toRows (a : Csr α) : List (List (Int32 × α)) := (List.range a.rows).map a.rowEntries

section OfRows

variable {cols : Nat} {rows : List (List (Int32 × α))} {i : Nat}

theorem length_rowPtr_ofRows : (ofRows cols rows).rowPtr.length = rows.length + 1 := by
  rw [ofRows, List.length_map, List.length_range]

theorem nnz_ofRows (cols : Nat) (rows : List (List (Int32 × α))) :
    (ofRows cols rows).nnz = rows.flatten.length := List.length_map _

theorem entries_ofRows : (ofRows cols rows).entries = rows.flatten := entries_map ..

theorem mem_colInd_ofRows {col : Int32} :
    col ∈ (ofRows cols rows).colInd ↔ ∃ row ∈ rows, ∃ entry ∈ row, entry.1 = col := by
  simp only [ofRows, List.mem_map, List.mem_flatten]
  constructor
  · rintro ⟨entry, ⟨row, hrow, hentry⟩, rfl⟩
    exact ⟨row, hrow, entry, hentry, rfl⟩
  · rintro ⟨row, hrow, entry, hentry, rfl⟩
    exact ⟨entry, ⟨row, hrow, hentry⟩, rfl⟩

namespace Encodable

variable (h : Encodable cols rows)

include h

theorem holds_rowPtr : Holds (ofRows cols rows).rowPtr (rowStart rows) :=
  Holds.map_range fun i _ => Nat.le_trans (rowStart_le rows i) h.count

theorem offset_eq (hi : i ≤ rows.length) : offset (ofRows cols rows).rowPtr i = rowStart rows i :=
  h.holds_rowPtr.offset_eq (by rw [length_rowPtr_ofRows]; omega)

/-- What can be written down is sound. -/
theorem valid : (ofRows cols rows).Valid where
  offsets := by
    have hoffsets := h.holds_rowPtr.isOffsets length_rowPtr_ofRows (rowStart_zero rows)
      fun i hi => rowStart_succ hi ▸ Nat.le_add_right _ _
    rwa [rowStart_length, ← nnz_ofRows cols] at hoffsets
  colInd := by rw [nnz_ofRows, ofRows, List.length_map]
  inRange col hcol := by
    obtain ⟨row, hrow, entry, hentry, rfl⟩ := mem_colInd_ofRows.mp hcol
    exact h.inRange row hrow entry hentry

/-- Each row is found again between its offsets. -/
theorem rowEntries_ofRows (hi : i < rows.length) :
    (ofRows cols rows).rowEntries i = rows.getD i [] := by
  refine rowEntries_of_blocks (f := fun i => rows.getD i []) (n := rows.length) ?_ ?_ ?_ hi
  · exact (blocks_getD rows).symm ▸ entries_ofRows ▸ List.prefix_refl _
  · rw [h.offset_eq (Nat.zero_le _), rowStart_zero]
  · intro row hrow
    rw [h.offset_eq hrow, h.offset_eq (Nat.le_of_lt hrow), rowStart_succ hrow]

/-- What is written down is read back. -/
theorem toRows_ofRows : (ofRows cols rows).toRows = rows := by
  refine List.ext_getElem (by rw [toRows, List.length_map, List.length_range, ofRows]) ?_
  intro i _ hi
  simp only [toRows, List.getElem_map, List.getElem_range]
  rw [h.rowEntries_ofRows hi, List.getD_eq_getElem _ _ hi]

end Encodable

/-- A list of rows whose matrix is sound can be written down. -/
theorem encodable_of_valid (h : (ofRows cols rows).Valid) : Encodable cols rows where
  inRange row hrow entry hentry :=
    h.inRange entry.1 (mem_colInd_ofRows.mpr ⟨row, hrow, entry, hentry, rfl⟩)
  count := nnz_ofRows cols rows ▸ h.offsets.total_le

end OfRows

/-! ### Reading the rows of a sound matrix -/

/-- The ranges of the rows cut these rows out of the arrays. -/
structure ReadsAs (a : Csr α) (rows : List (List (Int32 × α))) : Prop where
  length : rows.length = a.rows
  row : ∀ i row, rows[i]? = some row → ∃ start stop, a.rowRange i = .ok (start, stop) ∧
    Buffer.window a.colInd start (stop - start) = .ok (row.map (·.1)) ∧
      Buffer.window a.values start (stop - start) = .ok (row.map (·.2))

/-- The ranges of the rows cover the entries without a gap and without an overlap. -/
structure Tiled (a : Csr α) : Prop where
  /-- Each row has a range of its own within the arrays. -/
  range : ∀ i, i < a.rows → ∃ start stop, a.rowRange i = .ok (start, stop) ∧ start ≤ stop ∧
    stop ≤ a.nnz ∧ stop ≤ a.colInd.length
  /-- A row starts where the row before it ends. -/
  abut : ∀ i, i + 1 < a.rows → ∃ start middle stop,
    a.rowRange i = .ok (start, middle) ∧ a.rowRange (i + 1) = .ok (middle, stop)
  /-- Every entry belongs to one row. -/
  cover : ∀ k, k < a.nnz →
    ∃! i, i < a.rows ∧ ∃ start stop, a.rowRange i = .ok (start, stop) ∧ start ≤ k ∧ k < stop

theorem length_toRows (a : Csr α) : a.toRows.length = a.rows := by
  rw [toRows, List.length_map, List.length_range]

theorem getElem?_toRows {a : Csr α} {i : Nat} {row : List (Int32 × α)} (hrow : a.toRows[i]? = some row) :
    i < a.rows ∧ a.rowEntries i = row := by
  obtain ⟨hi, rfl⟩ := List.getElem?_eq_some_iff.mp hrow
  rw [length_toRows] at hi
  refine ⟨hi, ?_⟩
  simp only [toRows, List.getElem_map, List.getElem_range]

namespace Valid

variable {a : Csr α} (h : a.Valid)

include h

theorem encodable_toRows : Encodable a.cols a.toRows where
  inRange row hrow entry hentry := by
    obtain ⟨i, -, rfl⟩ := List.mem_map.mp hrow
    exact h.inRange entry.1 (List.of_mem_zip (h.mem_entries hentry)).1
  count := by
    have hflatten : a.toRows.flatten = a.entries := h.entries_eq_blocks.symm
    rw [hflatten, h.length_entries]
    exact h.offsets.total_le

/-- The offsets are where the rows start. -/
theorem offset_eq_rowStart {i : Nat} (hi : i ≤ a.rows) :
    offset a.rowPtr i = rowStart a.toRows i := by
  induction i with
  | zero => rw [h.offsets.zero, rowStart_zero]
  | succ i ih =>
    have hlt : i < a.toRows.length := by rwa [length_toRows]
    have hrow : a.toRows.getD i [] = a.rowEntries i := by
      rw [List.getD_eq_getElem _ _ hlt]
      exact (getElem?_toRows (List.getElem?_eq_getElem hlt)).2.symm
    have hmono := h.offsets.mono i (i + 1) (Nat.le_succ i) hi
    rw [rowStart_succ hlt, ← ih (Nat.le_of_succ_le hi), hrow, h.length_rowEntries hi,
      Nat.add_sub_cancel' hmono]

/-- What is read off a sound matrix writes it down again. -/
theorem ofRows_toRows : ofRows a.cols a.toRows = a := by
  have hencodable := h.encodable_toRows
  refine hencodable.valid.ext h (length_toRows a) rfl ?_ ?_
  · refine hencodable.holds_rowPtr.ext (h.offsets.holds.congr fun i hi => ?_) ?_
    · rw [h.offsets.length] at hi
      exact h.offset_eq_rowStart (Nat.le_of_lt_succ hi)
    · rw [length_rowPtr_ofRows, length_toRows, h.offsets.length]
  · intro i hi
    have hlt : i < a.toRows.length := hi
    rw [hencodable.rowEntries_ofRows hlt, List.getD_eq_getElem _ _ hlt]
    exact (getElem?_toRows (List.getElem?_eq_getElem hlt)).2.symm

/-! ### Ranges -/

theorem readsAs_toRows : a.ReadsAs a.toRows where
  length := length_toRows a
  row i row hrow := by
    obtain ⟨hi, rfl⟩ := getElem?_toRows hrow
    have hmono := h.offsets.mono i (i + 1) (Nat.le_succ i) hi
    have hstop : offset a.rowPtr i + (offset a.rowPtr (i + 1) - offset a.rowPtr i) ≤ a.nnz := by
      rw [Nat.add_sub_cancel' hmono]
      exact h.offsets.le_total hi
    refine ⟨_, _, h.offsets.rowRange_eq hi, ?_, ?_⟩
    · rw [Buffer.window_eq_ok (h.colInd.symm ▸ hstop), rowEntries, List.map_take, List.map_drop,
        h.map_fst_entries]
    · rw [Buffer.window_eq_ok hstop, rowEntries, List.map_take, List.map_drop, h.map_snd_entries]

theorem rowRange_eq_ok_iff {i start stop : Nat} (hi : i < a.rows) :
    a.rowRange i = .ok (start, stop) ↔
      offset a.rowPtr i = start ∧ offset a.rowPtr (i + 1) = stop := by
  rw [h.offsets.rowRange_eq hi, Except.ok.injEq, Prod.mk.injEq]

theorem tiled : a.Tiled where
  range i hi := by
    have hstop := h.offsets.le_total hi
    exact ⟨_, _, h.offsets.rowRange_eq hi, h.offsets.mono i (i + 1) (Nat.le_succ i) hi, hstop,
      h.colInd.symm ▸ hstop⟩
  abut i hi := by
    have hi' := Nat.lt_of_succ_lt hi
    exact ⟨_, _, _, h.offsets.rowRange_eq hi', h.offsets.rowRange_eq hi⟩
  cover k hk := by
    rw [← h.offsets.last] at hk
    obtain ⟨i, ⟨hi, hrange⟩, honly⟩ := h.offsets.existsUnique_row hk
    refine ⟨i, ⟨hi, _, _, h.offsets.rowRange_eq hi, hrange⟩, ?_⟩
    rintro j ⟨hj, start, stop, hrow, hle, hlt⟩
    obtain ⟨rfl, rfl⟩ := (h.rowRange_eq_ok_iff hj).mp hrow
    exact honly j ⟨hj, hle, hlt⟩

end Valid

/-! ### The check -/

/-- **The check of a matrix accepts what writes down a list of rows, and nothing else.** The rows are
read off between the offsets, there is only one list of them, and no arrays make the check leave
them. -/
theorem validate_accepts_encodings :
    (∀ (cols : Nat) (rows : List (List (Int32 × α))),
      ((ofRows cols rows).validate = .ok () ↔ Encodable cols rows) ∧
        (Encodable cols rows → (ofRows cols rows).ReadsAs rows)) ∧
    (∀ a : Csr α, a.validate = .ok () → a.Tiled ∧
      ∃ rows, Encodable a.cols rows ∧ ofRows a.cols rows = a ∧ a.ReadsAs rows ∧
        ∀ rows', ofRows a.cols rows' = a → rows' = rows) ∧
    ∀ a : Csr α, a.validateReading = .ok a.validate := by
  refine ⟨fun cols rows => ⟨?_, fun h => ?_⟩, fun a ha => ?_, validateReading_eq⟩
  · rw [validate_eq_ok_iff_valid]
    exact ⟨encodable_of_valid, Encodable.valid⟩
  · have hreads := h.valid.readsAs_toRows
    rwa [h.toRows_ofRows] at hreads
  · have hvalid := valid_of_validate ha
    refine ⟨hvalid.tiled, a.toRows, hvalid.encodable_toRows, hvalid.ofRows_toRows,
      hvalid.readsAs_toRows, ?_⟩
    intro rows hrows
    rw [← hrows] at hvalid
    rw [← hrows, (encodable_of_valid hvalid).toRows_ofRows]

/-- A row with unsorted and repeated columns, a row without entries, and a row with one entry. -/
theorem threeRows_encoding :
    let rows : List (List (Int32 × Int)) := [[(2, 5), (0, -1), (2, 7)], [], [(3, 8)]]
    let a : Csr Int := ⟨3, 4, [0, 3, 3, 4], [2, 0, 2, 3], [5, -1, 7, 8]⟩
    (Encodable 4 rows ∧ (ofRows 4 rows).ReadsAs rows) ∧
      (a.validate = .ok () ∧ a.Tiled) ∧ ofRows 4 rows = a ∧
        ∀ rows', ofRows 4 rows' = a → rows' = rows := by
  intro rows a
  obtain ⟨hrows, haccepted, -⟩ := validate_accepts_encodings (α := Int)
  have hencodable : Encodable 4 rows := (hrows 4 rows).1.mp rfl
  have hwritten : ofRows 4 rows = a := rfl
  obtain ⟨htiled, rows₀, -, -, -, honly⟩ := haccepted a rfl
  refine ⟨⟨hencodable, (hrows 4 rows).2 hencodable⟩, ⟨rfl, htiled⟩, hwritten, ?_⟩
  intro rows' hrows'
  rw [honly rows' hrows', honly rows hwritten]

end Csr

end SparseDevice
