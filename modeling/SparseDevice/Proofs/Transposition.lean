import SparseDevice.Proofs.Calls
import SparseDevice.Proofs.Kernel.Requests
import SparseDevice.Proofs.Kernel.Transpose

/-!
# A matrix transposed twice, through a context

The conversion to columns, run on its own output, sorts the rows of a matrix by column and leaves
the entries of one column of a row in their order. The offsets come out as they were, and if the rows
were sorted already, the whole matrix does. Values are moved and never looked at.

## Main results

* `Session.transposed_twice`: the two conversions, after every run.
-/

namespace SparseDevice

variable {α : Type}

variable [Zero α] [One α] [Add α] [Sub α] [Mul α] [Div α] [Scalar α]

namespace Session

/-- **A matrix transposed twice has its rows stably sorted by column, after every run.** -/
theorem transposed_twice {steps : List Step} {ctx : Context} {device : Nat} {a : Csr α}
    (h : (empty.after steps).Serves ctx device) (ha : a.validate = .ok ())
    (hrows : a.rows ≤ maxCount + 1) :
    ∃ c d : Csc α,
      (∀ out out' : Csc α, out.Fits a → out'.Fits (c.toCsr a.rows a.cols) →
        ctx.executeBoth (empty.after steps).world device (.columns a out)
            (.columns (c.toCsr a.rows a.cols) out') =
          (.ok (.ok .done, .columns a c), .ok (.ok .done, .columns (c.toCsr a.rows a.cols) d))) ∧
      (c.toCsr a.rows a.cols).validate = .ok () ∧
      d.colPtr = a.rowPtr ∧
      (∀ row, row < a.rows → ∃ entries, a.row row = .ok entries ∧
        (d.toCsr a.cols a.rows).row row =
          .ok (entries.mergeSort fun e e' => decide (e.1 ≤ e'.1))) ∧
      ((∀ row entries, row < a.rows → a.row row = .ok entries →
          entries.Pairwise fun e e' => e.1 ≤ e'.1) →
        d.toCsr a.cols a.rows = a) := by
  have ha : a.Valid := Csr.valid_of_validate ha
  have hvalid : (Csc.transpose a).Valid :=
    Csc.valid_transpose ha fun t => Csr.inRange_of_mem_triples hrows
  refine ⟨Csc.transposed a, Csc.transposed (Csc.transpose a), ?_,
    Csr.validate_eq_ok_iff_valid.mpr hvalid, Csc.rowPtr_transpose_twice ha hrows, ?_, ?_⟩
  · intro out out' hout hout'
    exact h.ready.executeBoth (Request.check_columns ha hout) (Request.perform_columns ha hout)
      (Request.check_columns hvalid hout') (Request.perform_columns hvalid hout')
  · intro row hrow
    refine ⟨a.rowEntries row, ha.row_eq hrow, ?_⟩
    rw [← Csc.rowEntries_transpose_twice ha hrows hrow]
    exact (Csc.valid_transpose_twice ha hrows).row_eq hrow
  · intro hsorted
    exact Csc.transpose_twice_of_sorted ha hrows fun row hrow =>
      hsorted row _ hrow (ha.row_eq hrow)

/-- Two rows with unsorted and repeated columns, and an empty one. -/
theorem onePrepared_transposed :
    let ctx : Context := ⟨0, ⟨7⟩, some 0⟩
    let a : Csr Float := ⟨3, 4, [0, 3, 3, 5], [2, 0, 2, 3, 1], [1, 2, 3, 4, 5]⟩
    ((empty.after onePrepared).Serves ctx 0 ∧ a.validate = .ok () ∧ a.rows ≤ maxCount + 1) ∧
      ∃ c d : Csc Float,
        ctx.executeBoth (empty.after onePrepared).world 0
            (.columns a ⟨[0, 0, 0, 0, 0], [9, 9, 9, 9, 9], [9, 9, 9, 9, 9]⟩)
            (.columns (c.toCsr 3 4) ⟨c.values, c.rowInd, [9, 9, 9, 9]⟩) =
          (.ok (.ok .done, .columns a c), .ok (.ok .done, .columns (c.toCsr 3 4) d)) ∧
        d.colPtr = [0, 3, 3, 5] ∧ (d.toCsr 4 3).row 0 = .ok [(0, 2), (2, 1), (2, 3)] := by
  intro ctx a
  have ha : a.validate = .ok () := rfl
  have hrows : a.rows ≤ maxCount + 1 := by decide
  obtain ⟨c, d, hcalls, hvalid, hcolPtr, hrow, -⟩ := transposed_twice onePrepared_serves ha hrows
  have hc := Csr.valid_of_validate hvalid
  obtain ⟨entries, hentries, hsorted⟩ := hrow 0 (by decide)
  have hfirst : a.row 0 = .ok [(2, 1), (0, 2), (2, 3)] := rfl
  cases hfirst.symm.trans hentries
  have hsort : ([(2, 1), (0, 2), (2, 3)] : List (Int32 × Float)).mergeSort
      (fun e e' => decide (e.1 ≤ e'.1)) = [(0, 2), (2, 1), (2, 3)] := by
    simp [List.mergeSort, List.MergeSort.Internal.splitInTwo]
  rw [hsort] at hsorted
  exact ⟨⟨onePrepared_serves, ha, hrows⟩, c, d, hcalls _ _ ⟨rfl, rfl, rfl⟩ ⟨rfl, hc.colInd, rfl⟩,
    hcolPtr, hsorted⟩

end Session

end SparseDevice
