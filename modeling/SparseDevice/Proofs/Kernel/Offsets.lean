import SparseDevice.Kernel.Offsets
import SparseDevice.Proofs.Kernel.Rows

/-!
# Offsets by counting

The offsets of sorted or unsorted indices alike are a rank: cell `j` holds how many indices point
below `j`. Counting leaves the differences of the ranks in the cells, each one place late, and the
running sums put the ranks together.

A rank is at most the number of indices, so no counter overflows if that number is a counter.

## Main definitions

* `Offsets.rank`, `Offsets.ranks`: how many indices point below a cell, and the array of these
  numbers.
* `Offsets.expand`: the row of each entry, read off the offsets.

## Main results

* `Offsets.build_eq`: counting and summing yields the ranks.
* `Offsets.ofRows_eq`, `Offsets.toRows_eq`: the two conversions do not trap, the first has nothing to
  refuse, and nothing of their buffers is left.
-/

namespace SparseDevice

namespace Offsets

/-! ### Ranks -/

/-- How many indices point below a cell. -/
def rank (indices : List Int32) (j : Nat) : Nat :=
  indices.countP fun i => decide (position i < j)

/-- How many indices point at a cell. -/
def tallied (indices : List Int32) (j : Nat) : Nat :=
  indices.countP fun i => decide (position i = j)

@[simp] theorem tallied_nil (j : Nat) : tallied [] j = 0 := rfl

theorem rank_cons (i : Int32) (indices : List Int32) (j : Nat) :
    rank (i :: indices) j = rank indices j + if position i < j then 1 else 0 := by
  simp only [rank, List.countP_cons, decide_eq_true_eq]

theorem tallied_cons (i : Int32) (indices : List Int32) (j : Nat) :
    tallied (i :: indices) j = tallied indices j + if position i = j then 1 else 0 := by
  simp only [tallied, List.countP_cons, decide_eq_true_eq]

theorem tallied_append (first later : List Int32) (j : Nat) :
    tallied (first ++ later) j = tallied first j + tallied later j := List.countP_append

/-- One more index is counted at its own cell and nowhere else. -/
theorem tallied_concat (indices : List Int32) (i : Int32) (j : Nat) :
    tallied (indices ++ [i]) j =
      if j = position i then tallied indices (position i) + 1 else tallied indices j := by
  rw [tallied_append, tallied_cons, tallied_nil]
  by_cases hj : j = position i
  · rw [if_pos hj.symm, if_pos hj, hj]
  · rw [if_neg (Ne.symm hj), if_neg hj]
    rfl

theorem tallied_le_length (indices : List Int32) (j : Nat) : tallied indices j ≤ indices.length :=
  List.countP_le_length

theorem rank_le_length (indices : List Int32) (j : Nat) : rank indices j ≤ indices.length :=
  List.countP_le_length

@[simp] theorem rank_zero (indices : List Int32) : rank indices 0 = 0 := by
  induction indices with
  | nil => rfl
  | cons i indices ih => rw [rank_cons, ih, if_neg (Nat.not_lt_zero _)]

/-- Between neighbouring ranks lies what points at the cell. -/
theorem rank_succ (indices : List Int32) (j : Nat) :
    rank indices (j + 1) = rank indices j + tallied indices j := by
  induction indices with
  | nil => rfl
  | cons i indices ih =>
    rw [rank_cons, rank_cons, tallied_cons, ih]
    by_cases hlt : position i < j
    · rw [if_pos hlt, if_pos (by omega), if_neg (by omega)]
      omega
    · by_cases heq : position i = j
      · rw [if_neg hlt, if_pos (by omega), if_pos heq]
        omega
      · rw [if_neg hlt, if_neg (by omega), if_neg heq]
        omega

theorem rank_mono {indices : List Int32} {i j : Nat} (h : i ≤ j) :
    rank indices i ≤ rank indices j := by
  induction h with
  | refl => exact Nat.le_refl _
  | step _ ih =>
    rw [rank_succ]
    omega

/-- A function one place late. -/
def late (f : Nat → Nat) : Nat → Nat
  | 0 => 0
  | j + 1 => f j

/-! ### Counting and summing -/

/-- Counting leaves in each cell how many indices point at the cell before it. -/
theorem tally_ok {indices counts : List Int32} {m : Nat} (hm : counts.length = m + 1)
    (hlt : ∀ i ∈ indices, position i < m) (hcount : indices.length ≤ maxCount)
    (hzero : Holds counts fun _ => 0) :
    ∃ out, tally indices counts = .ok out ∧ out.length = m + 1 ∧
      Holds out (late (tallied indices)) := by
  refine foldlM_ok (fun before counts => counts.length = m + 1 ∧
    Holds counts (late (tallied before))) ⟨hm, ?_⟩ ?_
  · exact hzero.congr fun j _ => by cases j <;> rfl
  · intro before i later counts hsplit hinv
    obtain ⟨hlength, hholds⟩ := hinv
    have hi : position i < m := hlt i (mem_of_split hsplit)
    have hcell : position i + 1 < counts.length := by omega
    have hbefore : tallied before (position i) + 1 ≤ maxCount := by
      have hle := tallied_le_length before (position i)
      rw [hsplit, List.length_append, List.length_cons] at hcount
      omega
    have hold : counts[position i + 1].toInt = (tallied before (position i) : Int) :=
      hholds _ _ (List.getElem?_eq_getElem hcell)
    obtain ⟨next, hadvance, hnext⟩ := advance_ok hold Int32.toInt_one hbefore
    refine ⟨_, Buffer.update_eq_ok hcell hadvance, by rw [List.length_set, hlength], ?_⟩
    refine (hholds.set (position i + 1) hnext).congr ?_
    intro j _
    cases j with
    | zero => exact if_neg (by omega)
    | succ j =>
      show (if j + 1 = position i + 1 then tallied before (position i) + 1 else tallied before j) =
        tallied (before ++ [i]) j
      rw [tallied_concat]
      simp only [Nat.add_right_cancel_iff]

/-- Running sums put together what was taken apart into differences. -/
theorem runningSums_ok {xs : List Int32} {sum : Int32} {F : Nat → Nat}
    (hsum : sum.toInt = (F 0 : Int)) (hmono : ∀ j, F j ≤ F (j + 1)) (hle : ∀ j, F j ≤ maxCount)
    (h : Holds xs fun j => F (j + 1) - F j) :
    ∃ sums, runningSums sum xs = .ok sums ∧ sums.length = xs.length ∧
      Holds sums fun j => F (j + 1) := by
  induction xs generalizing sum F with
  | nil => exact ⟨[], rfl, rfl, fun j x hx => nomatch hx⟩
  | cons x xs ih =>
    have hx : x.toInt = ((F 1 - F 0 : Nat) : Int) := h 0 x rfl
    have h01 := hmono 0
    obtain ⟨next, hadvance, hnext⟩ := advance_ok hsum hx
      (by rw [Nat.add_sub_cancel' h01]; exact hle 1)
    rw [Nat.add_sub_cancel' h01] at hnext
    obtain ⟨sums, hsums, hlength, hholds⟩ := ih hnext (F := fun j => F (j + 1))
      (fun j => hmono (j + 1)) (fun j => hle (j + 1)) fun j y hy => h (j + 1) y hy
    refine ⟨next :: sums, ?_, congrArg (· + 1) hlength, fun j y hy => ?_⟩
    · rw [runningSums, hadvance, ok_bind, hsums, ok_bind, pure_eq_ok]
    · cases j with
      | zero =>
        cases hy
        exact hnext
      | succ j => exact hholds j y hy

/-- Summing turns the counts of all cells into the ranks. -/
theorem accumulate_ok {indices counts : List Int32} {m : Nat} (hm : counts.length = m + 1)
    (hcount : indices.length ≤ maxCount)
    (h : Holds counts (late (tallied indices))) :
    ∃ out, accumulate m counts = .ok out ∧ out.length = m + 1 ∧ Holds out (rank indices) := by
  -- the first cell is empty, so the sums start one cell early
  have hdiff : ∀ j, late (rank indices) (j + 1) - late (rank indices) j =
      late (tallied indices) j := by
    intro j
    cases j with
    | zero => exact rank_zero indices
    | succ j =>
      show rank indices (j + 1) - rank indices j = tallied indices j
      rw [rank_succ, Nat.add_sub_cancel_left]
  have hmono : ∀ j, late (rank indices) j ≤ late (rank indices) (j + 1) := by
    intro j
    cases j with
    | zero => exact Nat.zero_le _
    | succ j => exact rank_mono (Nat.le_succ j)
  have hle : ∀ j, late (rank indices) j ≤ maxCount := by
    intro j
    cases j with
    | zero => exact Nat.zero_le _
    | succ j => exact Nat.le_trans (rank_le_length indices j) hcount
  rw [accumulate]
  split
  · next hm0 =>
    refine ⟨counts, rfl, hm, h.congr ?_⟩
    intro j hj
    have hj0 : j = 0 := by omega
    rw [hj0, rank_zero]
    rfl
  · obtain ⟨out, hout, hlength, hholds⟩ :=
      runningSums_ok Int32.toInt_zero hmono hle (h.congr fun j _ => (hdiff j).symm)
    have hwindow : Buffer.window counts 0 (m + 1) = .ok counts := by
      rw [Buffer.window_eq_ok (by omega), List.drop_zero, ← hm, List.take_length]
    have hsplice : Buffer.splice counts 0 out = out := by
      rw [Buffer.splice, List.take_zero, Nat.zero_add, hlength, List.drop_length, List.append_nil]
      rfl
    refine ⟨out, ?_, hlength.trans hm, hholds⟩
    rw [hwindow, ok_bind, hout, ok_bind, hsplice, pure_eq_ok]

/-- The offsets of given indices. -/
def ranks (indices : List Int32) (m : Nat) : List Int32 :=
  (List.range (m + 1)).map fun j => Int32.ofNat (rank indices j)

theorem length_ranks (indices : List Int32) (m : Nat) : (ranks indices m).length = m + 1 := by
  rw [ranks, List.length_map, List.length_range]

theorem holds_ranks {indices : List Int32} (hcount : indices.length ≤ maxCount) (m : Nat) :
    Holds (ranks indices m) (rank indices) :=
  Holds.map_range fun j _ => Nat.le_trans (rank_le_length indices j) hcount

/-- Offsets do not depend on the order of the indices. -/
theorem ranks_perm {indices indices' : List Int32} (h : indices.Perm indices') (m : Nat) :
    ranks indices m = ranks indices' m :=
  List.map_congr_left fun _ _ => congrArg Int32.ofNat (h.countP_eq _)

/-- Counting and summing yields the ranks. -/
theorem build_eq {indices : List Int32} {m : Nat} (hlt : ∀ i ∈ indices, position i < m)
    (hcount : indices.length ≤ maxCount) :
    ∃ counts, tally indices (List.replicate (m + 1) 0) = .ok counts ∧
      accumulate m counts = .ok (ranks indices m) := by
  obtain ⟨counts, htally, hlength, hcounts⟩ :=
    tally_ok List.length_replicate hlt hcount (Holds.replicate_zero (m + 1))
  obtain ⟨out, hout, hlength', hholds⟩ := accumulate_ok hlength hcount hcounts
  refine ⟨counts, htally, ?_⟩
  rw [hout, hholds.ext (holds_ranks hcount m) (hlength'.trans (length_ranks indices m).symm)]

/-! ### The two conversions -/

/-- Indices within the rows are never refused. -/
theorem ofRows_eq {rowInd rowPtr : List Int32} {m : Nat} (hlength : rowPtr.length = m + 1)
    (hrange : ∀ row ∈ rowInd, InRange row m) (hcount : rowInd.length ≤ maxCount) :
    ofRows rowInd m rowPtr = .ok (.ok (), ranks rowInd m) := by
  have hknown : rowInd.takeWhile (fun row => decide (InRange row m)) = rowInd := by
    have hall : (rowInd ++ []).takeWhile (fun row => decide (InRange row m)) =
        rowInd ++ [].takeWhile fun row => decide (InRange row m) :=
      List.takeWhile_append_of_pos fun row hrow => decide_eq_true (hrange row hrow)
    rwa [List.takeWhile_nil, List.append_nil] at hall
  obtain ⟨counts, htally, haccumulate⟩ :=
    build_eq (fun row hrow => (hrange row hrow).2) hcount
  simp only [ofRows, hknown, hlength, htally, ok_bind, Nat.lt_irrefl, if_false, haccumulate,
    pure_eq_ok]

/-- The row of each entry: each row as often as its range is long. -/
def expand (rowPtr : List Int32) (m : Nat) : List Int32 :=
  blocks (fun row =>
    List.replicate (offset rowPtr (row + 1) - offset rowPtr row) (Int32.ofNat row)) m

theorem expand_succ (rowPtr : List Int32) (m : Nat) :
    expand rowPtr (m + 1) = expand rowPtr m ++
      List.replicate (offset rowPtr (m + 1) - offset rowPtr m) (Int32.ofNat m) := blocks_succ _ m

theorem length_expand {rowPtr : List Int32} {m total : Nat} (h : IsOffsets rowPtr m total)
    {row : Nat} (hrow : row ≤ m) : (expand rowPtr row).length = offset rowPtr row := by
  refine length_blocks h.zero fun i hi => ?_
  have hle := h.mono i (i + 1) (Nat.le_succ i) (Nat.le_trans hi hrow)
  rw [List.length_replicate]
  omega

/-- Each row is written over its range, and the ranges cover the buffer. -/
theorem toRows_eq {rowPtr rowInd : List Int32} {m : Nat} (h : IsOffsets rowPtr m rowInd.length) :
    toRows rowPtr m rowInd = .ok (expand rowPtr m) := by
  have hsweep : ∃ out, toRows rowPtr m rowInd = .ok out ∧
      out = Buffer.splice rowInd 0 (expand rowPtr (0 + m)) := by
    refine sweep_ok (fun row (out : List Int32) => out = Buffer.splice rowInd 0 (expand rowPtr row))
      0 m (Buffer.splice_nil rowInd 0).symm ?_
    rintro row out - hrow rfl
    obtain ⟨start, hstart, hstart'⟩ := h.read (i := row) (by omega)
    obtain ⟨stop, hstop, hstop'⟩ := h.read (i := row + 1) (by omega)
    have hmono := h.mono row (row + 1) (Nat.le_succ row) (by omega)
    have hle : offset rowPtr (row + 1) ≤ rowInd.length := h.le_total (by omega)
    have hspan : (stop.toInt - start.toInt).toNat =
        offset rowPtr (row + 1) - offset rowPtr row := by omega
    have hbefore := length_expand h (show row ≤ m by omega)
    have hlength : (Buffer.splice rowInd 0 (expand rowPtr row)).length = rowInd.length :=
      Buffer.length_splice (by omega)
    refine ⟨_, ?_, rfl⟩
    rw [hstart, ok_bind, hstop, ok_bind, position_eq hstart', hspan,
      Buffer.fill_eq_ok (.inr (by omega)), expand_succ, ← Buffer.splice_splice (Nat.zero_le _),
      Nat.zero_add, hbefore]
  obtain ⟨out, hout, rfl⟩ := hsweep
  rw [hout, Nat.zero_add,
    Buffer.splice_zero_of_length_eq ((length_expand h (Nat.le_refl m)).trans h.last)]

end Offsets

end SparseDevice
