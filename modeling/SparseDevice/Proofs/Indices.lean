import SparseDevice.Proofs.Calls
import SparseDevice.Proofs.Kernel.Requests

/-!
# Row indices and row offsets, through a context

The two index conversions are inverse to each other. Sorted row indices go to the offsets that count
them, and these go back to the indices; offsets go to the row indices that they cut out, and these
go back to the offsets. Nothing of the buffers is left in either direction. There may be empty rows
anywhere, no rows at all, and as many rows as an index can tell apart.

## Main results

* `Session.indices_offsets_inverse`: both directions, after every run.
-/

namespace SparseDevice

namespace Context

variable {α : Type} [Zero α] [One α] [Add α] [Sub α] [Mul α] [Div α] [Scalar α]
variable {ctx : Context} {w : World} {device m : Nat} {rowInd rowPtr out out' : List Int32}

/-- Sorted indices come back from the offsets that are made of them. -/
theorem Ready.indices_back (h : ctx.Ready w device) (hrange : ∀ row ∈ rowInd, InRange row m)
    (hsorted : rowInd.Pairwise (· ≤ ·)) (hcount : rowInd.length ≤ maxCount)
    (hout : out.length = m + 1) (hout' : out'.length = rowInd.length) :
    ctx.executeBoth w device (.offsetsOfRows rowInd m out : Request α)
        (.rowsOfOffsets (Offsets.ranks rowInd m) m out') =
      (.ok (.ok .done, .offsetsOfRows rowInd m (Offsets.ranks rowInd m)),
        .ok (.ok .done, .rowsOfOffsets (Offsets.ranks rowInd m) m rowInd)) := by
  have hoffsets : IsOffsets (Offsets.ranks rowInd m) m out'.length := by
    rw [hout']
    exact Offsets.isOffsets_ranks (fun row hrow => (hrange row hrow).2) hcount
  have hback := Request.perform_rowsOfOffsets (α := α) hoffsets
  rw [Offsets.expand_ranks hrange hsorted hcount] at hback
  exact h.executeBoth (Request.check_offsetsOfRows_iff.mpr ⟨hout, hrange, hsorted⟩)
    (Request.perform_offsetsOfRows hout hrange hcount)
    (Request.check_rowsOfOffsets_iff.mpr hoffsets) hback

/-- Offsets come back from the indices that are made of them. -/
theorem Ready.offsets_back (h : ctx.Ready w device) (hm : m ≤ maxCount + 1)
    (hoffsets : IsOffsets rowPtr m out.length) (hout' : out'.length = m + 1) :
    ctx.executeBoth w device (.rowsOfOffsets rowPtr m out : Request α)
        (.offsetsOfRows (Offsets.expand rowPtr m) m out') =
      (.ok (.ok .done, .rowsOfOffsets rowPtr m (Offsets.expand rowPtr m)),
        .ok (.ok .done, .offsetsOfRows (Offsets.expand rowPtr m) m rowPtr)) := by
  have hrange : ∀ row ∈ Offsets.expand rowPtr m, InRange row m :=
    fun row hrow => Offsets.inRange_expand hm hrow
  have hcount : (Offsets.expand rowPtr m).length ≤ maxCount := by
    rw [Offsets.length_expand hoffsets (Nat.le_refl m), hoffsets.last]
    exact hoffsets.total_le
  have hback := Request.perform_offsetsOfRows (α := α) hout' hrange hcount
  rw [Offsets.ranks_expand hoffsets hm] at hback
  exact h.executeBoth (Request.check_rowsOfOffsets_iff.mpr hoffsets)
    (Request.perform_rowsOfOffsets hoffsets)
    (Request.check_offsetsOfRows_iff.mpr ⟨hout', hrange, Offsets.pairwise_expand hm⟩) hback

end Context

namespace Session

variable {α : Type} [Zero α] [One α] [Add α] [Sub α] [Mul α] [Div α] [Scalar α]

/-- **Row indices and row offsets determine each other, after every run.** -/
theorem indices_offsets_inverse {steps : List Step} {ctx : Context} {device m : Nat}
    (h : (empty.after steps).Serves ctx device) (hm : m ≤ maxCount + 1) :
    (∀ rowInd : List Int32, (∀ row ∈ rowInd, InRange row m) → rowInd.Pairwise (· ≤ ·) →
      rowInd.length ≤ maxCount →
        ∃ rowPtr : List Int32, rowPtr.length = m + 1 ∧
          (∀ i, i ≤ m → (rowPtr.getD i 0).toInt =
            rowInd.countP fun row => decide (row.toInt < (i : Int))) ∧
          ∀ out out' : List Int32, out.length = m + 1 → out'.length = rowInd.length →
            ctx.executeBoth (empty.after steps).world device
                (.offsetsOfRows rowInd m out : Request α) (.rowsOfOffsets rowPtr m out') =
              (.ok (.ok .done, .offsetsOfRows rowInd m rowPtr),
                .ok (.ok .done, .rowsOfOffsets rowPtr m rowInd))) ∧
    (∀ rowPtr : List Int32, rowPtr.length = m + 1 → rowPtr.getD 0 0 = 0 →
      rowPtr.Pairwise (· ≤ ·) →
        ∃ rowInd : List Int32, (rowInd.length : Int) = (rowPtr.getD m 0).toInt ∧
          (∀ row ∈ rowInd, InRange row m) ∧ rowInd.Pairwise (· ≤ ·) ∧
          ∀ out out' : List Int32, out.length = rowInd.length → out'.length = m + 1 →
            ctx.executeBoth (empty.after steps).world device
                (.rowsOfOffsets rowPtr m out : Request α) (.offsetsOfRows rowInd m out') =
              (.ok (.ok .done, .rowsOfOffsets rowPtr m rowInd),
                .ok (.ok .done, .offsetsOfRows rowInd m rowPtr))) := by
  refine ⟨?_, ?_⟩
  · intro rowInd hrange hsorted hcount
    have hlength := Offsets.length_ranks rowInd m
    refine ⟨Offsets.ranks rowInd m, hlength, ?_, ?_⟩
    · intro i hi
      rw [(Offsets.holds_ranks hcount m).toInt_getD (by omega), Offsets.rank_eq_countP_toInt hrange]
    · intro out out' hout hout'
      exact h.ready.indices_back hrange hsorted hcount hout hout'
  · intro rowPtr hlength hzero hsorted
    have hoffsets : IsOffsets rowPtr m (offset rowPtr m) :=
      isOffsets_of_check hlength hzero (ascending_iff_pairwise.mpr hsorted)
    have htotal : (Offsets.expand rowPtr m).length = offset rowPtr m :=
      Offsets.length_expand hoffsets (Nat.le_refl m)
    refine ⟨Offsets.expand rowPtr m, ?_, fun row hrow => Offsets.inRange_expand hm hrow,
      Offsets.pairwise_expand hm, ?_⟩
    · rw [htotal, hoffsets.holds.toInt_getD (by omega)]
    · intro out out' hout hout'
      exact h.ready.offsets_back hm (by rwa [hout, htotal]) hout'

/-- Three rows, one of them empty, in both directions. -/
theorem onePrepared_indices :
    let ctx : Context := ⟨0, ⟨7⟩, some 0⟩
    let w := (empty.after onePrepared).world
    ((empty.after onePrepared).Serves ctx 0 ∧ 3 ≤ maxCount + 1) ∧
      (∃ rowPtr : List Int32, rowPtr.length = 4 ∧
        ctx.executeBoth w 0 (.offsetsOfRows [0, 2, 2] 3 [9, 9, 9, 9] : Request Float)
            (.rowsOfOffsets rowPtr 3 [8, 8, 8]) =
          (.ok (.ok .done, .offsetsOfRows [0, 2, 2] 3 rowPtr),
            .ok (.ok .done, .rowsOfOffsets rowPtr 3 [0, 2, 2]))) ∧
      ∃ rowInd : List Int32, (rowInd.length : Int) = 3 ∧
        ctx.executeBoth w 0 (.rowsOfOffsets [0, 1, 1, 3] 3 (List.replicate rowInd.length 8) :
            Request Float) (.offsetsOfRows rowInd 3 [9, 9, 9, 9]) =
          (.ok (.ok .done, .rowsOfOffsets [0, 1, 1, 3] 3 rowInd),
            .ok (.ok .done, .offsetsOfRows rowInd 3 [0, 1, 1, 3])) := by
  intro ctx w
  have hm : 3 ≤ maxCount + 1 := by decide
  obtain ⟨hindices, hoffsets⟩ :=
    indices_offsets_inverse (α := Float) onePrepared_serves hm
  have hrange : ∀ row ∈ ([0, 2, 2] : List Int32), InRange row 3 :=
    List.forall_mem_cons.mpr ⟨by decide, List.forall_mem_cons.mpr
      ⟨by decide, List.forall_mem_singleton.mpr (by decide)⟩⟩
  obtain ⟨rowPtr, hlength, -, hthere⟩ := hindices [0, 2, 2] hrange (by decide) (by decide)
  obtain ⟨rowInd, htotal, -, -, hback⟩ := hoffsets [0, 1, 1, 3] (by decide) (by decide) (by decide)
  exact ⟨⟨onePrepared_serves, hm⟩, ⟨rowPtr, hlength, hthere _ _ (by decide) (by decide)⟩,
    rowInd, htotal, hback _ _ List.length_replicate (by decide)⟩

end Session

end SparseDevice
