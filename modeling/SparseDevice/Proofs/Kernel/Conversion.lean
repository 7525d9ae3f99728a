import SparseDevice.Proofs.Kernel.Offsets

/-!
# Row indices and row offsets determine each other

Sorted indices are runs of equal indices, one run for each row, and offsets are where the runs start.
So offsets read off sorted indices give these indices back, and indices written out from offsets have
the offsets as their ranks. That takes rows whose numbers an index can hold.

## Main results

* `Offsets.expand_ranks`: from sorted indices to offsets and back.
* `Offsets.ranks_expand`: from offsets to indices and back.
* `Offsets.pairwise_expand`, `Offsets.inRange_expand`: indices written out are sorted and in range.
-/

namespace SparseDevice

namespace Offsets

variable {indices rowPtr : List Int32} {m total : Nat}

theorem rank_eq_countP_toInt (h : ∀ i ∈ indices, InRange i m) (j : Nat) :
    rank indices j = indices.countP fun i => decide (i.toInt < (j : Int)) := by
  refine List.countP_congr fun i hi => ?_
  rw [decide_eq_true_eq, decide_eq_true_eq, toInt_eq_position (h i hi), Int.ofNat_lt]

/-- The indices that point at one cell are all the same. -/
theorem bucket_eq_replicate (h : ∀ i ∈ indices, InRange i m) (j : Nat) :
    bucket position indices j = List.replicate (tallied indices j) (Int32.ofNat j) := by
  refine List.eq_replicate_iff.mpr ⟨(List.countP_eq_length_filter ..).symm, ?_⟩
  intro i hi
  obtain ⟨hmem, rfl⟩ := mem_bucket.mp hi
  exact (ofNat_position (h i hmem)).symm

/-! ### From indices -/

theorem isOffsets_ranks (hlt : ∀ i ∈ indices, position i < m) (hcount : indices.length ≤ maxCount) :
    IsOffsets (ranks indices m) m indices.length := by
  have htotal : rank indices m = indices.length :=
    List.countP_eq_length.mpr fun i hi => decide_eq_true (hlt i hi)
  rw [← htotal]
  exact (holds_ranks hcount m).isOffsets (length_ranks indices m) (rank_zero indices)
    fun i _ => rank_mono (Nat.le_succ i)

/-- Sorted indices come back from their offsets. -/
theorem expand_ranks (hrange : ∀ i ∈ indices, InRange i m) (hsorted : indices.Pairwise (· ≤ ·))
    (hcount : indices.length ≤ maxCount) : expand (ranks indices m) m = indices := by
  have hoffset : ∀ row, row ≤ m → offset (ranks indices m) row = rank indices row :=
    fun row hrow => (holds_ranks hcount m).offset_eq (by rw [length_ranks]; omega)
  have hblock : ∀ row, row < m →
      List.replicate (offset (ranks indices m) (row + 1) - offset (ranks indices m) row)
        (Int32.ofNat row) = bucket position indices row := by
    intro row hrow
    rw [hoffset _ hrow, hoffset _ (Nat.le_of_lt hrow), rank_succ, Nat.add_sub_cancel_left,
      bucket_eq_replicate hrange]
  rw [expand, blocks_congr hblock]
  refine blocks_bucket_of_pairwise ?_ fun i hi => (hrange i hi).2
  exact hsorted.imp_of_mem fun hi hj => (le_iff_position_le (hrange _ hi) (hrange _ hj)).mp

/-! ### From offsets -/

/-- A row of an entry, as it is written out. -/
theorem mem_expand {i : Int32} {n : Nat} (h : i ∈ expand rowPtr n) :
    ∃ row, row < n ∧ i = Int32.ofNat row ∧ offset rowPtr row < offset rowPtr (row + 1) := by
  obtain ⟨row, hrow, hi⟩ := mem_blocks.mp h
  obtain ⟨hne, rfl⟩ := List.mem_replicate.mp hi
  exact ⟨row, hrow, rfl, by omega⟩

theorem inRange_expand (hm : m ≤ maxCount + 1) {i : Int32} (h : i ∈ expand rowPtr m) :
    InRange i m := by
  obtain ⟨row, hrow, rfl, -⟩ := mem_expand h
  exact inRange_ofNat hrow (by omega)

theorem pairwise_expand (hm : m ≤ maxCount + 1) : (expand rowPtr m).Pairwise (· ≤ ·) := by
  induction m with
  | zero => exact List.Pairwise.nil
  | succ m ih =>
    rw [expand_succ]
    refine List.pairwise_append.mpr ⟨ih (by omega), ?_, ?_⟩
    · exact List.pairwise_replicate.mpr (.inr Int32.le_rfl)
    · intro i hi j hj
      obtain ⟨row, hrow, rfl, -⟩ := mem_expand hi
      rw [(List.mem_replicate.mp hj).2,
        le_iff_position_le (n := m + 1) (inRange_ofNat (by omega) (by omega))
          (inRange_ofNat (by omega) (by omega)),
        position_ofNat (by omega), position_ofNat (by omega)]
      omega

/-- Offsets are the ranks of the indices that they are written out to. -/
theorem rank_expand (h : IsOffsets rowPtr m total) (hm : m ≤ maxCount + 1) {row : Nat}
    (hrow : row ≤ m) : rank (expand rowPtr m) row = offset rowPtr row := by
  -- the rows from `row` on add nothing
  have hfrom : ∀ n, row ≤ n → n ≤ m → rank (expand rowPtr n) row = offset rowPtr row := by
    intro n hle hn
    induction hle with
    | refl =>
      rw [← length_expand h hrow, rank]
      refine List.countP_eq_length.mpr fun i hi => ?_
      obtain ⟨j, hj, rfl, -⟩ := mem_expand hi
      rw [position_ofNat (by omega)]
      exact decide_eq_true hj
    | @step n hle ih =>
      have hnone : (List.replicate (offset rowPtr (n + 1) - offset rowPtr n)
          (Int32.ofNat n)).countP (fun i => decide (position i < row)) = 0 := by
        refine List.countP_eq_zero.mpr fun i hi => ?_
        rw [(List.mem_replicate.mp hi).2, position_ofNat (by omega), decide_eq_true_eq]
        exact Nat.not_lt.mpr hle
      rw [expand_succ, rank, List.countP_append, hnone, ← rank, ih (by omega), Nat.add_zero]
  exact hfrom m hrow (Nat.le_refl m)

/-- Offsets come back from the indices that they are written out to. -/
theorem ranks_expand (h : IsOffsets rowPtr m total) (hm : m ≤ maxCount + 1) :
    ranks (expand rowPtr m) m = rowPtr := by
  have hcount : (expand rowPtr m).length ≤ maxCount := by
    rw [length_expand h (Nat.le_refl m), h.last]
    exact h.total_le
  refine ((holds_ranks hcount m).congr fun row hrow => ?_).ext h.holds
    ((length_ranks _ m).trans h.length.symm)
  rw [length_ranks] at hrow
  exact rank_expand h hm (by omega)

end Offsets

end SparseDevice
