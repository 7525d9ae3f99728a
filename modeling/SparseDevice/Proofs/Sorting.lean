import SparseDevice.Proofs.Scalars
import SparseDevice.Proofs.Transposition

/-!
# Sorting by columns, through a context

The conversion to columns is a stable counting sort. The offset of a column is the number of entries
in the columns before it, and the entries stand as a stable sort by column leaves them. So none is
lost, none is altered, and the rows of a column come in order. Every cell is written once, whatever
the buffers held.

## Main definitions

* `Csc.SortedFrom`: the arrays of a matrix whose entries have been sorted.

## Main results

* `Session.columns_sorted`: what the conversion writes, after every run.
-/

namespace SparseDevice

variable {α : Type}

namespace Csc

/-- The arrays hold the entries of a matrix, sorted by column. -/
structure SortedFrom (a : Csr α) (c : Csc α) : Prop where
  length : c.rowInd.length = a.nnz ∧ c.values.length = a.nnz ∧ c.colPtr.length = a.cols + 1
  /-- The offset of a column counts the entries whose columns are smaller. -/
  offsets : ∀ j, j ≤ a.cols → (c.colPtr.getD j 0).toInt =
    a.colInd.countP fun column => decide (column.toInt < (j : Int))
  /-- The entries are those of all rows, stably sorted by column, with the column dropped. -/
  sorted : c.rowInd.zip c.values =
    (a.triples.mergeSort fun t t' => decide (t.2.1 ≤ t'.2.1)).map fun t => (t.1, t.2.2)
  /-- The rows of a column do not decrease. -/
  ascending : ∀ j, j < a.cols → ∃ entries, (c.toCsr a.rows a.cols).row j = .ok entries ∧
    (entries.map (·.1)).Pairwise (· ≤ ·)
  /-- Every entry is there, as often as it was, under its row and its column. -/
  perm : ((c.toCsr a.rows a.cols).triples.map swap).Perm a.triples

variable {a : Csr α}

/-- Entries of one column stay in the order of their rows. -/
theorem pairwise_column (hrows : a.rows ≤ maxCount + 1) (ha : a.Valid) (j : Nat) :
    ((bucket Csr.columnOf a.triples j).map (·.1)).Pairwise (· ≤ ·) := by
  have hall : (a.triples.map (·.1)).Pairwise (· ≤ ·) := by
    rw [ha.map_fst_triples]
    exact Offsets.pairwise_expand hrows
  exact hall.sublist (List.filter_sublist.map _)

theorem sortedFrom_transposed (ha : a.Valid) (hrows : a.rows ≤ maxCount + 1) :
    SortedFrom a (transposed a) where
  length := ⟨length_rowInd_transposed ha, length_values_transposed ha, length_colPtr_transposed a⟩
  offsets j hj := by
    rw [(holds_transposed ha).toInt_getD (by rw [length_colPtr_transposed]; omega),
      Offsets.rank_eq_countP_toInt ha.inRange]
  sorted := by
    rw [← sorted_eq_mergeSort ha]
    exact entries_transpose a
  ascending j hj := by
    have hvalid : (transpose a).Valid :=
      valid_transpose ha fun t => Csr.inRange_of_mem_triples hrows
    refine ⟨(transpose a).rowEntries j, hvalid.row_eq hj, ?_⟩
    rw [rowEntries_transpose ha hj, List.map_map]
    exact pairwise_column hrows ha j
  perm := by
    have hsorted : (transpose a).triples.map swap = Csc.sorted a := by
      rw [triples_transpose ha, List.map_map]
      exact List.map_id _
    exact hsorted ▸ sorted_perm ha

end Csc

namespace Session

variable [Zero α] [One α] [Add α] [Sub α] [Mul α] [Div α] [Scalar α]

/-- **The conversion to columns sorts the entries stably and writes each cell once, after every
run.** -/
theorem columns_sorted {steps : List Step} {ctx : Context} {device : Nat} {a : Csr α}
    (h : (empty.after steps).Serves ctx device) (ha : a.validate = .ok ())
    (hrows : a.rows ≤ maxCount + 1) :
    ∃ c : Csc α, Csc.SortedFrom a c ∧ ∀ out : Csc α, (Request.columns a out).check = .ok () →
      (ctx.execute (empty.after steps).world device (Request.columns a out)).2 =
        .ok (.ok .done, .columns a c) ∧
      Csc.ofCsr a out = (Csc.ofCsrNoting a out).map (·.1) ∧
      ∃ cells, Csc.ofCsrNoting a out = .ok (c, cells) ∧ cells.Perm (List.range a.nnz) := by
  have ha : a.Valid := Csr.valid_of_validate ha
  refine ⟨Csc.transposed a, Csc.sortedFrom_transposed ha hrows, ?_⟩
  intro out hcheck
  obtain ⟨-, hout⟩ := Request.check_columns_iff.mp hcheck
  exact ⟨(h.ready.execute hcheck (Request.perform_columns ha hout)).1,
    (Csc.map_fst_ofCsrNoting a out).symm,
    Csc.ofCsrNoting_eq ha hout.values hout.rowInd hout.colPtr⟩

/-- A row with a column that comes up twice, an empty row, and a row that is not sorted. -/
theorem onePrepared_sorted :
    let ctx : Context := ⟨0, ⟨7⟩, some 0⟩
    let w := (empty.after onePrepared).world
    let a : Csr Int := ⟨3, 4, [0, 3, 3, 5], [2, 0, 2, 3, 2], [1, 2, 3, 4, 5]⟩
    let out : Csc Int := ⟨[0, 0, 0, 0, 0], [9, 9, 9, 9, 9], [9, 9, 9, 9, 9]⟩
    let c : Csc Int := ⟨[2, 1, 3, 5, 4], [0, 0, 0, 2, 2], [0, 1, 1, 4, 5]⟩
    ((empty.after onePrepared).Serves ctx 0 ∧ a.validate = .ok () ∧ a.rows ≤ maxCount + 1 ∧
        (Request.columns a out).check = .ok ()) ∧
      (ctx.execute w 0 (Request.columns a out)).2 = .ok (.ok .done, .columns a c) ∧
      Csc.SortedFrom a c ∧ Csc.ofCsrNoting a out = .ok (c, [1, 0, 2, 4, 3]) := by
  intro ctx w a out c
  have ha : a.validate = .ok () := rfl
  have hrows : a.rows ≤ maxCount + 1 := by decide
  have hcheck : (Request.columns a out).check = .ok () := rfl
  have hcells : Csc.ofCsrNoting a out = .ok (c, [1, 0, 2, 4, 3]) := by decide +kernel
  obtain ⟨c', hsorted, hcalls⟩ := columns_sorted onePrepared_serves ha hrows
  obtain ⟨hcall, -, cells, hcells', -⟩ := hcalls out hcheck
  cases hcells.symm.trans hcells'
  exact ⟨⟨onePrepared_serves, ha, hrows, hcheck⟩, hcall, hsorted, hcells⟩

end Session

end SparseDevice
