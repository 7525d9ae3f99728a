import SparseDevice.Proofs.Calls
import SparseDevice.Proofs.Kernel.Requests

/-!
# The two calls of a sum, through a context

A sum takes two calls, one for the offsets and one for the entries. They find the same pattern,
although the first knows neither coefficients nor values: the columns that occur in each row of the
terms determine it. So buffers of the size that the first call answers are filled by the second, and
what they hold is a sound matrix.

## Main results

* `Session.sum_pattern`: the two calls, after every run.
-/

namespace SparseDevice

open Addition

variable {α : Type}

namespace Request

variable {a b : Csr α}

theorem check_sumOffsets (h : Addable a b) {rowPtr : List Int32}
    (hlength : rowPtr.length = a.rows + 1) : (sumOffsets a b rowPtr).check = .ok () :=
  check_sumOffsets_iff.mpr ⟨⟨h.left, h.right, h.rows, h.cols⟩, hlength⟩

variable [One α] [Add α] [Mul α] {colInd : List Int32} {values : List α}

theorem check_sum (h : Addable a b) (hcolInd : colInd.length = start a b a.rows)
    (hvalues : values.length = start a b a.rows) (alpha beta : α) :
    (sum alpha a beta b ⟨a.rows, a.cols, starts a b, colInd, values⟩).check = .ok () :=
  check_sum_iff.mpr ⟨⟨h.left, h.right, h.rows, h.cols⟩, rfl, rfl,
    hasRoom_starts h (Nat.le_of_eq hcolInd.symm) (Nat.le_of_eq hvalues.symm)⟩

variable [Zero α] [Sub α] [Div α] [Scalar α]

theorem perform_sum (h : Addable a b) (hcolInd : colInd.length = start a b a.rows)
    (hvalues : values.length = start a b a.rows) (alpha beta : α) :
    (sum alpha a beta b ⟨a.rows, a.cols, starts a b, colInd, values⟩).perform =
      .ok (.ok .done, sum alpha a beta b (summed alpha a beta b)) := by
  rw [perform, entries_eq h alpha beta hcolInd hvalues]
  rfl

end Request

variable [Zero α] [One α] [Add α] [Sub α] [Mul α] [Div α] [Scalar α]

/-- The second call fills the buffers that the first one measures. -/
theorem Context.Ready.sum {ctx : Context} {w : World} {device : Nat} (hready : ctx.Ready w device)
    {a b : Csr α} (h : Addable a b) {rowPtr colInd : List Int32} {values : List α}
    (hrowPtr : rowPtr.length = a.rows + 1) (hcolInd : colInd.length = start a b a.rows)
    (hvalues : values.length = start a b a.rows) (alpha beta : α) :
    ctx.executeBoth w device (.sumOffsets a b rowPtr)
        (.sum alpha a beta b ⟨a.rows, a.cols, starts a b, colInd, values⟩) =
      (.ok (.ok (.count (start a b a.rows)), .sumOffsets a b (starts a b)),
        .ok (.ok .done, .sum alpha a beta b (summed alpha a beta b))) :=
  hready.executeBoth (Request.check_sumOffsets h hrowPtr) (Request.perform_sumOffsets h hrowPtr)
    (Request.check_sum h hcolInd hvalues alpha beta)
    (Request.perform_sum h hcolInd hvalues alpha beta)

namespace Session

/-- **The two calls of a sum find one pattern, which depends on the columns in each row and on
nothing else, after every run.** -/
theorem sum_pattern {steps : List Step} {ctx : Context} {device : Nat} {a b : Csr α}
    (h : (empty.after steps).Serves ctx device) (ha : a.validate = .ok ())
    (hb : b.validate = .ok ()) (hrows : a.rows = b.rows) (hcols : a.cols = b.cols)
    (hcount : a.nnz + b.nnz ≤ maxCount) :
    ∃ rowPtr colInd : List Int32, Pattern a b rowPtr colInd ∧
      ∀ a' b' : Csr α, a'.validate = .ok () → b'.validate = .ok () → Alike a a' → Alike b b' →
        a'.nnz + b'.nnz ≤ maxCount → ∀ alpha beta : α,
          ∃ values : List α,
            (⟨a.rows, a.cols, rowPtr, colInd, values⟩ : Csr α).validate = .ok () ∧
            ∀ (rowPtr' colInd' : List Int32) (values' : List α), rowPtr'.length = a.rows + 1 →
              colInd'.length = colInd.length → values'.length = colInd.length →
                ctx.executeBoth (empty.after steps).world device (.sumOffsets a' b' rowPtr')
                    (.sum alpha a' beta b' ⟨a.rows, a.cols, rowPtr, colInd', values'⟩) =
                  (.ok (.ok (.count colInd.length), .sumOffsets a' b' rowPtr),
                    .ok (.ok .done,
                      .sum alpha a' beta b' ⟨a.rows, a.cols, rowPtr, colInd, values⟩)) := by
  have hterms : Addable a b :=
    ⟨Csr.valid_of_validate ha, Csr.valid_of_validate hb, hrows, hcols, hcount⟩
  -- any coefficients show the pattern; the first call takes ones
  refine ⟨starts a b, (summed 1 a 1 b).colInd, pattern_summed hterms 1 1, ?_⟩
  intro a' b' ha' hb' hlike hlike' hcount' alpha beta
  have hterms' : Addable a' b' := by
    refine ⟨Csr.valid_of_validate ha', Csr.valid_of_validate hb', ?_, ?_, hcount'⟩
    · rw [hlike.rows, hlike'.rows, hrows]
    · rw [hlike.cols, hlike'.cols, hcols]
  have hlength : (summed 1 a 1 b).colInd.length = start a' b' a'.rows := by
    rw [length_colInd_summed, hlike.rows, start_eq hlike hlike' hrows (Nat.le_refl _)]
  have hsame := summed_eq hlike hlike' hrows 1 1 alpha beta
  refine ⟨(summed alpha a' beta b').values, ?_, ?_⟩
  · refine Csr.validate_eq_ok_iff_valid.mpr ?_
    have hvalid := valid_summed hterms' alpha beta
    rwa [hsame] at hvalid
  · intro rowPtr' colInd' values' hrowPtr' hcolInd' hvalues'
    have hcalls := h.ready.sum hterms' (hlike.rows ▸ hrowPtr') (hcolInd'.trans hlength)
      (hvalues'.trans hlength) alpha beta
    rw [hlength]
    rw [hsame, starts_eq hlike hlike' hrows, hlike.rows, hlike.cols] at hcalls
    rw [hlike.rows]
    exact hcalls

/-- Terms with unsorted and repeated columns, in other orders and with other values. -/
theorem onePrepared_sum :
    let ctx : Context := ⟨0, ⟨7⟩, some 0⟩
    let a : Csr Float := ⟨2, 3, [0, 3, 3], [2, 0, 2], [1, 2, 3]⟩
    let a' : Csr Float := ⟨2, 3, [0, 2, 2], [0, 2], [0, -1]⟩
    let b : Csr Float := ⟨2, 3, [0, 2, 3], [1, 2, 0], [4, 5, 6]⟩
    ((empty.after onePrepared).Serves ctx 0 ∧ a.validate = .ok () ∧ b.validate = .ok () ∧
        a.rows = b.rows ∧ a.cols = b.cols ∧ a.nnz + b.nnz ≤ maxCount) ∧
      ∃ rowPtr colInd : List Int32, Pattern a b rowPtr colInd ∧ ∃ values : List Float,
        ctx.executeBoth (empty.after onePrepared).world 0 (.sumOffsets a' b [9, 9, 9])
            (.sum 0 a' 1 b ⟨2, 3, rowPtr, List.replicate colInd.length 9,
              List.replicate colInd.length 8⟩) =
          (.ok (.ok (.count colInd.length), .sumOffsets a' b rowPtr),
            .ok (.ok .done, .sum 0 a' 1 b ⟨2, 3, rowPtr, colInd, values⟩)) := by
  intro ctx a a' b
  have ha : a.validate = .ok () := rfl
  have ha' : a'.validate = .ok () := rfl
  have hb : b.validate = .ok () := rfl
  have hcount : a.nnz + b.nnz ≤ maxCount := by decide
  have hlike : Alike a a' := by
    refine ⟨rfl, rfl, fun row hrow => ?_⟩
    match row, hrow with
    | 0, _ => decide
    | 1, _ => decide
  obtain ⟨rowPtr, colInd, hpattern, hcalls⟩ := sum_pattern onePrepared_serves ha hb rfl rfl hcount
  obtain ⟨values, -, hvalues⟩ := hcalls a' b ha' hb hlike ⟨rfl, rfl, fun _ _ => rfl⟩ (by decide) 0 1
  exact ⟨⟨onePrepared_serves, ha, hb, rfl, rfl, hcount⟩, rowPtr, colInd, hpattern, values,
    hvalues _ _ _ rfl List.length_replicate List.length_replicate⟩

end Session

end SparseDevice
