import Mathlib.Data.List.Nodup
import Mathlib.Data.List.Perm.Subperm
import SparseDevice.Proofs.Kernel.Columns

/-!
# Sorting by columns

Once all entries are placed, the buffers hold the columns one after the other, and nothing of what
they held before is left. Each cell has been written once. For that the sort is run once more by a
copy of it that notes the cells in the order in which it writes them, and does the same otherwise.

## Main definitions

* `Csc.ofCsrNoting`: the conversion with the cells that it writes.
* `Csc.Placement.Noted`: the cells of a sort in progress.

## Main results

* `Csc.map_fst_ofCsrNoting`: noting the cells makes no difference.
* `Csc.ofCsrNoting_eq`: the conversion does not trap and writes each cell once.
* `Csc.ofCsr_eq`: it yields the sorted entries.
-/

namespace SparseDevice

namespace Csc

variable {α : Type}

namespace Placement

/-- Places an entry of a row in the next free cell of its column, and notes the cell. -/
def placeNoting (row : Nat) (s : Placement α × List Nat) (entry : Int32 × α) :
    Except Trap (Placement α × List Nat) := do
  let slot ← Buffer.read s.1.next (position entry.1)
  let rowInd ← Buffer.write s.1.rowInd (position slot) (Int32.ofNat row)
  let values ← Buffer.write s.1.values (position slot) entry.2
  let next ← Buffer.update s.1.next (position entry.1) (advance · 1)
  return (⟨next, rowInd, values⟩, s.2 ++ [position slot])

/-- Places the entries of a row, in order, and notes their cells. -/
def placeRowNoting (a : Csr α) (row : Nat) (s : Placement α × List Nat) :
    Except Trap (Placement α × List Nat) := do
  let entries ← a.row row
  entries.foldlM (placeNoting row) s

/-- The cell that is noted is the next free one of the column. -/
theorem placeNoting_eq {row : Nat} {s : Placement α × List Nat} {entry : Int32 × α} {slot : Int32}
    (hslot : Buffer.read s.1.next (position entry.1) = .ok slot) :
    placeNoting row s entry = do
      let p ← place row s.1 entry
      return (p, s.2 ++ [position slot]) := by
  simp only [placeNoting, place, hslot, ok_bind, bind_assoc, pure_bind]

theorem map_fst_placeNoting (row : Nat) (s : Placement α × List Nat) (entry : Int32 × α) :
    (placeNoting row s entry).map (·.1) = place row s.1 entry := by
  cases hslot : Buffer.read s.1.next (position entry.1) with
  | error t =>
    rw [placeNoting, place, hslot]
    rfl
  | ok slot =>
    rw [placeNoting_eq hslot]
    cases place row s.1 entry with
    | error t => rfl
    | ok p => rfl

theorem map_fst_placeRowNoting (a : Csr α) (row : Nat) (s : Placement α × List Nat) :
    (placeRowNoting a row s).map (·.1) = placeRow a row s.1 := by
  rw [placeRowNoting, placeRow]
  cases a.row row with
  | error t => rfl
  | ok entries => exact foldlM_map (map_fst_placeNoting row) entries s

/-! ### The cells that have been written -/

/-- The cells of a sort in which the entries `before` have been placed. -/
structure Noted (a : Csr α) (before : List (Int32 × Int32 × α)) (cells : List Nat) : Prop where
  nodup : cells.Nodup
  length : cells.length = before.length
  lt : ∀ cell ∈ cells, cell < a.nnz
  /-- A cell that has been written holds an entry of its column. -/
  taken : ∀ cell ∈ cells, ∃ j k, k < (bucket Csr.columnOf before j).length ∧
    cell = Offsets.rank a.colInd j + k

/-- An entry is placed in a cell that has not been written. -/
theorem Noted.place {a : Csr α} (ha : a.Valid) {before later : List (Int32 × Int32 × α)}
    {t : Int32 × Int32 × α} (hentries : a.entries = before.map (·.2) ++ t.2 :: later.map (·.2))
    {cells : List Nat} (h : Noted a before cells) :
    Noted a (before ++ [t]) (cells ++ [free a (before.map (·.2)) (Csr.columnOf t)]) where
  nodup := by
    refine List.nodup_append.mpr ⟨h.nodup, List.nodup_singleton _, ?_⟩
    rintro cell hcell _ hfree rfl
    obtain ⟨j, k, hk, hcell⟩ := h.taken cell hcell
    exact free_ne ha hentries hk ((List.mem_singleton.mp hfree).symm.trans hcell)
  length := by rw [List.length_append, List.length_append, h.length, List.length_singleton,
    List.length_singleton]
  lt cell hcell := by
    rcases List.mem_append.mp hcell with hcell | hcell
    · exact h.lt cell hcell
    · rw [List.mem_singleton.mp hcell]
      exact free_lt_nnz ha hentries
  taken cell hcell := by
    rcases List.mem_append.mp hcell with hcell | hcell
    · obtain ⟨j, k, hk, hcell⟩ := h.taken cell hcell
      refine ⟨j, k, ?_, hcell⟩
      rw [bucket_append, List.length_append]
      exact Nat.lt_add_right _ hk
    · refine ⟨Csr.columnOf t, (bucket Csr.columnOf before (Csr.columnOf t)).length, ?_, ?_⟩
      · have hone : (bucket Csr.columnOf [t] (Csr.columnOf t)).length = 1 := by simp [bucket]
        rw [bucket_append, List.length_append, hone]
        exact Nat.lt_succ_self _
      · rw [List.mem_singleton.mp hcell, free, tallied_columns]

/-- The cells that have been written once all entries are placed are all cells. -/
theorem Noted.perm {a : Csr α} {cells : List Nat} {before : List (Int32 × Int32 × α)}
    (h : Noted a before cells) (hall : before.length = a.nnz) :
    cells.Perm (List.range a.nnz) := by
  have hsubset : cells ⊆ List.range a.nnz := fun cell hcell =>
    List.mem_range.mpr (h.lt cell hcell)
  refine (List.subperm_of_subset h.nodup hsubset).perm_of_length_le ?_
  exact Nat.le_of_eq (List.length_range.trans (h.length.trans hall).symm)

/-! ### The whole sort -/

/-- A sort that notes its cells. -/
structure FiledNoting (a : Csr α) (before : List (Int32 × Int32 × α))
    (s : Placement α × List Nat) : Prop where
  filed : Filed a before s.1
  noted : Noted a before s.2

theorem FiledNoting.place {a : Csr α} (ha : a.Valid) {before later : List (Int32 × Int32 × α)}
    {row : Nat} {entry : Int32 × α} {s : Placement α × List Nat}
    (hsplit : a.triples = before ++ (Int32.ofNat row, entry) :: later) (h : FiledNoting a before s) :
    ∃ s', placeNoting row s entry = .ok s' ∧
      FiledNoting a (before ++ [(Int32.ofNat row, entry)]) s' := by
  have hentries : a.entries = before.map (·.2) ++ entry :: later.map (·.2) := by
    rw [← ha.map_snd_triples, hsplit, List.map_append, List.map_cons]
  obtain ⟨p, hp, hfiled⟩ := h.filed.place ha hsplit
  have hcolumn : position entry.1 < s.1.next.length := by
    rw [h.filed.placed.columns]
    exact (ha.inRange entry.1 (List.of_mem_zip (mem_of_split hentries)).1).2
  obtain ⟨slot, hread, hslot⟩ := h.filed.placed.next.read hcolumn
  refine ⟨(p, s.2 ++ [position slot]), by rw [placeNoting_eq hread, hp, ok_bind, pure_eq_ok],
    hfiled, ?_⟩
  rw [position_eq hslot]
  exact h.noted.place (t := (Int32.ofNat row, entry)) ha hentries

/-- Placing a row goes on where the rows before it end. -/
theorem FiledNoting.placeRow {a : Csr α} (ha : a.Valid) {row : Nat} (hrow : row < a.rows)
    {s : Placement α × List Nat} (h : FiledNoting a (blocks a.rowTriples row) s) :
    ∃ s', placeRowNoting a row s = .ok s' ∧
      FiledNoting a (blocks a.rowTriples (row + 1)) s' := by
  obtain ⟨later, hlater⟩ : blocks a.rowTriples (row + 1) <+: a.triples := blocks_prefix_blocks hrow
  rw [placeRowNoting, ha.row_eq hrow, ok_bind]
  rw [blocks_succ] at hlater ⊢
  refine foldlM_ok (fun placed s => FiledNoting a
    (blocks a.rowTriples row ++ placed.map fun entry => (Int32.ofNat row, entry)) s)
    (by rwa [List.map_nil, List.append_nil]) ?_
  intro placed entry rest s hsplit h
  rw [List.map_append, ← List.append_assoc]
  have hrest : a.triples = (blocks a.rowTriples row ++
      placed.map fun entry => (Int32.ofNat row, entry)) ++ (Int32.ofNat row, entry) ::
        ((rest.map fun entry => (Int32.ofNat row, entry)) ++ later) := by
    rw [← hlater, Csr.rowTriples, hsplit, List.map_append, List.map_cons, List.append_assoc,
      List.append_assoc, List.append_assoc, List.cons_append]
  exact h.place ha hrest

end Placement

/-- Stores the entries of a matrix by columns, and notes the cells. -/
def ofCsrNoting (a : Csr α) (out : Csc α) : Except Trap (Csc α × List Nat) := do
  let counts ← Offsets.tally a.colInd (List.replicate out.colPtr.length 0)
  let colPtr ← Offsets.accumulate a.cols counts
  let sorted ← sweep (Placement.placeRowNoting a) 0 a.rows
    (⟨colPtr.take a.cols, out.rowInd, out.values⟩, [])
  return (⟨sorted.1.values, sorted.1.rowInd, colPtr⟩, sorted.2)

/-- Noting the cells makes no difference. -/
theorem map_fst_ofCsrNoting (a : Csr α) (out : Csc α) :
    (ofCsrNoting a out).map (·.1) = ofCsr a out := by
  rw [ofCsrNoting, ofCsr]
  cases Offsets.tally a.colInd (List.replicate out.colPtr.length 0) with
  | error t => rfl
  | ok counts =>
    rw [ok_bind, ok_bind]
    cases Offsets.accumulate a.cols counts with
    | error t => rfl
    | ok colPtr =>
      rw [ok_bind, ok_bind, ← sweep_map (Placement.map_fst_placeRowNoting a) 0 a.rows
        (⟨colPtr.take a.cols, out.rowInd, out.values⟩, [])]
      cases sweep (Placement.placeRowNoting a) 0 a.rows
        (⟨colPtr.take a.cols, out.rowInd, out.values⟩, []) with
      | error t => rfl
      | ok s => rfl

/-- **Each cell is written once,** and once all are written nothing is left of what the buffers
held. -/
theorem ofCsrNoting_eq {a : Csr α} (ha : a.Valid) {out : Csc α}
    (hvalues : out.values.length = a.nnz) (hrowInd : out.rowInd.length = a.nnz)
    (hcolPtr : out.colPtr.length = a.cols + 1) :
    ∃ cells, ofCsrNoting a out = .ok (transposed a, cells) ∧ cells.Perm (List.range a.nnz) := by
  obtain ⟨counts, htally, haccumulate⟩ :
      ∃ counts, Offsets.tally a.colInd (List.replicate (a.cols + 1) 0) = .ok counts ∧
        Offsets.accumulate a.cols counts = .ok (transposed a).colPtr :=
    Offsets.build_eq (fun col hcol => (ha.inRange col hcol).2) (ha.colInd ▸ ha.nnz_le)
  have hstart : Placement.FiledNoting a (blocks a.rowTriples 0)
      (⟨(transposed a).colPtr.take a.cols, out.rowInd, out.values⟩, []) := by
    refine ⟨⟨⟨?_, ?_, hrowInd, hvalues⟩, ?_, ?_⟩, List.nodup_nil, rfl, ?_, ?_⟩
    · rw [List.length_take, length_colPtr_transposed]
      omega
    · intro j x hx
      rw [List.getElem?_take] at hx
      split at hx
      · exact holds_transposed ha j x hx
      · cases hx
    · rintro j k t ⟨⟩
    · rintro j k t ⟨⟩
    · rintro cell ⟨⟩
    · rintro cell ⟨⟩
  obtain ⟨s, hs, hfiled⟩ := sweep_ok
    (fun row s => Placement.FiledNoting a (blocks a.rowTriples row) s) 0 a.rows hstart
    fun row s _ hrow h => h.placeRow ha (by omega)
  rw [Nat.zero_add] at hfiled
  have hplaced := hfiled.filed.placed
  have hall : a.triples.length = a.nnz := by
    rw [← ha.length_entries, ← ha.map_snd_triples, List.length_map]
  refine ⟨s.2, ?_, hfiled.noted.perm hall⟩
  rw [ofCsrNoting, hcolPtr, htally, ok_bind, haccumulate, ok_bind, hs, ok_bind, pure_eq_ok,
    eq_map_sorted ha hfiled.filed.rowInd hplaced.rowInd,
    eq_map_sorted ha hfiled.filed.values hplaced.values]
  rfl

/-- The conversion of a sound matrix stays within buffers of the right size and leaves nothing of
them. -/
theorem ofCsr_eq {a : Csr α} (ha : a.Valid) {out : Csc α} (hvalues : out.values.length = a.nnz)
    (hrowInd : out.rowInd.length = a.nnz) (hcolPtr : out.colPtr.length = a.cols + 1) :
    ofCsr a out = .ok (transposed a) := by
  obtain ⟨cells, hcells, -⟩ := ofCsrNoting_eq ha hvalues hrowInd hcolPtr
  rw [← map_fst_ofCsrNoting, hcells]
  rfl

end Csc

end SparseDevice
