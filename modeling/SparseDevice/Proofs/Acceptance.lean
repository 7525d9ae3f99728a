import SparseDevice.Proofs.Scalars
import SparseDevice.Proofs.Sum

/-!
# Sums into given offsets, through a context

A caller may hand the second call of a sum any offsets that a context admits. The call succeeds
exactly for the offsets that the first call writes. Otherwise it is refused at the first row that
does not fit, and by then the rows before it have been written where they belong. In either case
nothing else is written: buffers may be longer than the sum, and what is behind it stays.

## Main definitions

* `Context.SumVerdict`: the answer of a sum into given offsets.

## Main results

* `Session.sum_accepts_own_offsets`: the verdict on all offsets, after every run.
-/

namespace SparseDevice

open Addition

variable {α : Type}

namespace Context

section Verdict

variable [Scalar α]

/-- The answer of a sum into the matrix `c`, when `correct` is the sum. -/
structure SumVerdict (answer : Except Fault (Except ContextError Reply × Request α)) (alpha : α)
    (a : Csr α) (beta : α) (b c correct : Csr α) : Prop where
  accepted_iff : (∃ c', answer = .ok (.ok .done, .sum alpha a beta b c')) ↔
    c.rowPtr = correct.rowPtr
  refused_iff : (∃ c', answer = .ok (.error (.native (Request.sum alpha a beta b c).entryPoint
    .invalidValue), .sum alpha a beta b c')) ↔ c.rowPtr ≠ correct.rowPtr
  /-- The entries of the sum are written, and the cells behind them are not. -/
  accepted : ∀ c', answer = .ok (.ok .done, .sum alpha a beta b c') →
    c.Overwritten correct (offset c.rowPtr a.rows) c'
  /-- The rows before the first one that does not fit are written, and the cells behind them are
  not. -/
  refused : ∀ e c', answer = .ok (.error e, .sum alpha a beta b c') →
    ∃ row, row < a.rows ∧ FitsUpTo a b c.rowPtr row ∧
      c.Overwritten correct (offset c.rowPtr row) c'

variable {answer : Except Fault (Except ContextError Reply × Request α)} {alpha beta : α}
  {a b c c' correct : Csr α}

theorem sumVerdict_accepted (hrowPtr : c.rowPtr = correct.rowPtr)
    (hanswer : answer = .ok (.ok .done, .sum alpha a beta b c'))
    (hwritten : c.Overwritten correct (offset c.rowPtr a.rows) c') :
    SumVerdict answer alpha a beta b c correct where
  accepted_iff := iff_of_true ⟨c', hanswer⟩ hrowPtr
  refused_iff := by
    refine iff_of_false ?_ (not_not_intro hrowPtr)
    rw [hanswer]
    rintro ⟨c', hrefused⟩
    cases hrefused
  accepted c₁ hc₁ := by
    cases hanswer.symm.trans hc₁
    exact hwritten
  refused e c₁ hc₁ := by cases hanswer.symm.trans hc₁

theorem sumVerdict_refused (hrowPtr : c.rowPtr ≠ correct.rowPtr)
    (hanswer : answer = .ok (.error (.native (Request.sum alpha a beta b c).entryPoint
      .invalidValue), .sum alpha a beta b c'))
    {row : Nat} (hlt : row < a.rows) (hrow : FitsUpTo a b c.rowPtr row)
    (hwritten : c.Overwritten correct (offset c.rowPtr row) c') :
    SumVerdict answer alpha a beta b c correct where
  accepted_iff := by
    refine iff_of_false ?_ hrowPtr
    rw [hanswer]
    rintro ⟨c', haccepted⟩
    cases haccepted
  refused_iff := iff_of_true ⟨c', hanswer⟩ hrowPtr
  accepted c₁ hc₁ := by cases hanswer.symm.trans hc₁
  refused e c₁ hc₁ := by
    cases hanswer.symm.trans hc₁
    exact ⟨row, hlt, hrow, hwritten⟩

end Verdict

variable [Zero α] [One α] [Add α] [Sub α] [Mul α] [Div α] [Scalar α]

/-- The verdict is found row by row. -/
theorem Ready.sumVerdict {ctx : Context} {w : World} {device : Nat} (h : ctx.Ready w device)
    {alpha beta : α} {a b c : Csr α} (hterms : Addable a b)
    (hcheck : (Request.sum alpha a beta b c).check = .ok ()) :
    SumVerdict (ctx.execute w device (Request.sum alpha a beta b c)).2 alpha a beta b c
      (summed alpha a beta b) := by
  obtain ⟨-, -, -, hroom⟩ := Request.check_sum_iff.mp hcheck
  obtain ⟨row, hrow⟩ := exists_fitsUpTo a b c.rowPtr
  have hwritten := stored_overwritten hroom hrow.le hrow.before alpha beta
  have howned := hrow.eq_rows_iff hterms hroom.offsets
  rw [(h.execute_eq hcheck).1, Request.perform,
    entries_eq_stored hterms.left hterms.right hterms.rows hroom alpha beta hrow]
  by_cases hend : row = a.rows
  · subst hend
    rw [if_pos rfl]
    exact sumVerdict_accepted (howned.mp rfl) rfl hwritten
  · rw [if_neg hend]
    exact sumVerdict_refused (mt howned.mpr hend) rfl (Nat.lt_of_le_of_ne hrow.le hend) hrow
      hwritten

end Context

namespace Session

variable [Zero α] [One α] [Add α] [Sub α] [Mul α] [Div α] [Scalar α]

/-- **A sum accepts the offsets of its first call and no others, and writes a beginning of the
sum, after every run.** -/
theorem sum_accepts_own_offsets {steps : List Step} {ctx : Context} {device : Nat} {a b : Csr α}
    (h : (empty.after steps).Serves ctx device) (ha : a.validate = .ok ())
    (hb : b.validate = .ok ()) (hrows : a.rows = b.rows) (hcols : a.cols = b.cols)
    (hcount : a.nnz + b.nnz ≤ maxCount) (alpha beta : α) :
    ∃ correct : Csr α,
      (∀ (rowPtr colInd : List Int32) (values : List α), rowPtr.length = a.rows + 1 →
        colInd.length = correct.colInd.length → values.length = correct.colInd.length →
          ctx.executeBoth (empty.after steps).world device (.sumOffsets a b rowPtr)
              (.sum alpha a beta b ⟨a.rows, a.cols, correct.rowPtr, colInd, values⟩) =
            (.ok (.ok (.count correct.colInd.length), .sumOffsets a b correct.rowPtr),
              .ok (.ok .done, .sum alpha a beta b correct))) ∧
      (∀ row, row < a.rows → ∃ entries, mergedRow alpha a beta b row = .ok entries ∧
        ∀ rowPtr : List Int32, Fits a b rowPtr row ↔
          offset rowPtr (row + 1) - offset rowPtr row = entries.length) ∧
      ∀ c : Csr α, (Request.sum alpha a beta b c).check = .ok () →
        Context.SumVerdict (ctx.execute (empty.after steps).world device
          (Request.sum alpha a beta b c)).2 alpha a beta b c correct := by
  have hterms : Addable a b :=
    ⟨Csr.valid_of_validate ha, Csr.valid_of_validate hb, hrows, hcols, hcount⟩
  refine ⟨summed alpha a beta b, ?_, ?_, ?_⟩
  · intro rowPtr colInd values hrowPtr hcolInd hvalues
    rw [length_colInd_summed] at hcolInd hvalues ⊢
    exact h.ready.sum hterms hrowPtr hcolInd hvalues alpha beta
  · intro row hrow
    exact ⟨merged alpha a beta b row,
      mergedRow_eq hterms.left hterms.right hrow (hrows ▸ hrow) alpha beta,
      fun rowPtr => fits_iff alpha a beta b rowPtr row⟩
  · intro c hcheck
    exact h.ready.sumVerdict hterms hcheck

/-- Offsets that promise the last row an entry too many, and longer buffers. The first row is
written, the rest is not. -/
theorem onePrepared_refused :
    let ctx : Context := ⟨0, ⟨7⟩, some 0⟩
    let w := (empty.after onePrepared).world
    let a : Csr Int := ⟨2, 3, [0, 2, 3], [2, 0, 1], [1, 2, 3]⟩
    let b : Csr Int := ⟨2, 3, [0, 1, 1], [2], [4]⟩
    let c : Csr Int := ⟨2, 3, [0, 2, 4], [9, 9, 9, 9, 9], [8, 8, 8, 8, 8]⟩
    ((empty.after onePrepared).Serves ctx 0 ∧ a.validate = .ok () ∧ b.validate = .ok () ∧
        a.rows = b.rows ∧ a.cols = b.cols ∧ a.nnz + b.nnz ≤ maxCount ∧
        (Request.sum 1 a 10 b c).check = .ok ()) ∧
      ∃ correct c' : Csr Int, correct.rowPtr = [0, 2, 3] ∧
        (ctx.execute w 0 (Request.sum 1 a 10 b c)).2 = .ok (.error (.native
          (Request.sum 1 a 10 b c).entryPoint .invalidValue), .sum 1 a 10 b c') ∧
        c.Overwritten correct 2 c' := by
  intro ctx w a b c
  have ha : a.validate = .ok () := rfl
  have hb : b.validate = .ok () := rfl
  have hcount : a.nnz + b.nnz ≤ maxCount := by decide
  have hcheck : (Request.sum 1 a 10 b c).check = .ok () := rfl
  have hoffsets : (ctx.execute w 0 (Request.sumOffsets a b [0, 0, 0])).2 =
      .ok (.ok (.count 3), .sumOffsets a b [0, 2, 3]) := by
    decide +kernel
  obtain ⟨correct, hcalls, -, hverdict⟩ :=
    sum_accepts_own_offsets onePrepared_serves ha hb rfl rfl hcount 1 10
  have hboth := hcalls [0, 0, 0] (List.replicate correct.colInd.length 0)
    (List.replicate correct.colInd.length 0) rfl List.length_replicate List.length_replicate
  have hrowPtr : correct.rowPtr = [0, 2, 3] := by
    have hfirst := congrArg Prod.fst hboth
    rw [Context.fst_executeBoth, hoffsets] at hfirst
    simp only [Except.ok.injEq, Prod.mk.injEq, Request.sumOffsets.injEq] at hfirst
    exact hfirst.2.2.2.symm
  have hc := hverdict c hcheck
  obtain ⟨c', hanswer⟩ := hc.refused_iff.mpr (by rw [hrowPtr]; decide)
  obtain ⟨row, hlt, hrow, hwritten⟩ := hc.refused _ c' hanswer
  have hfits : row = 1 := by
    have hfirst : Fits a b c.rowPtr 0 := by decide +kernel
    have hrows : row < 2 := hlt
    obtain rfl | rfl : row = 0 ∨ row = 1 := by omega
    · exact absurd hfirst (hrow.stop hlt)
    · rfl
  subst hfits
  exact ⟨⟨onePrepared_serves, ha, hb, rfl, rfl, hcount, hcheck⟩, correct, c', hrowPtr, hanswer,
    hwritten⟩

end Session

end SparseDevice
