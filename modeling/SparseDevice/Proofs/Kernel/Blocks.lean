import Mathlib.Data.List.Basic
import SparseDevice.Buffer

/-!
# Lists in blocks

An array that stores one row after the other is a list of blocks, and a routine that fills it row by
row writes one block after the other. A block starts where the blocks before it end, so it can be
cut out of the array again, and an array with the right cells from each start on is made of the
blocks.

Sorting by a key is the same in blocks: the items of each key, in the order in which they came. The
blocks of all keys together are what a stable sort makes of the list.

## Main definitions

* `blocks`: the blocks of the first numbers, one after the other.
* `bucket`: the items with a given key.

## Main results

* `drop_take_of_blocks_prefix`: a block, cut out between its start and the next one.
* `eq_map_blocks`: an array with the right cells from each start on is made of the blocks.
* `blocks_bucket_eq_mergeSort`: the buckets in order are the list, stably sorted.
* `Buffer.splice_splice`: writing one range after the other.
-/

namespace SparseDevice

variable {μ ν : Type}

/-- The blocks of the numbers below `n`, one after the other. -/
def blocks (f : Nat → List μ) (n : Nat) : List μ := (List.range n).flatMap f

section Blocks

variable {f g : Nat → List μ} {n : Nat}

@[simp] theorem blocks_zero (f : Nat → List μ) : blocks f 0 = [] := rfl

theorem blocks_succ (f : Nat → List μ) (n : Nat) : blocks f (n + 1) = blocks f n ++ f n := by
  rw [blocks, List.range_succ, List.flatMap_append, List.flatMap_singleton, blocks]

theorem mem_blocks {x : μ} : x ∈ blocks f n ↔ ∃ i, i < n ∧ x ∈ f i := by
  simp only [blocks, List.mem_flatMap, List.mem_range]

theorem blocks_congr (h : ∀ i, i < n → f i = g i) : blocks f n = blocks g n :=
  List.flatMap_congr fun i hi => h i (List.mem_range.mp hi)

theorem map_blocks (h : μ → ν) (f : Nat → List μ) (n : Nat) :
    (blocks f n).map h = blocks (fun i => (f i).map h) n := List.map_flatMap

theorem filter_blocks (p : μ → Bool) (f : Nat → List μ) (n : Nat) :
    (blocks f n).filter p = blocks (fun i => (f i).filter p) n := List.filter_flatMap

/-- All blocks but one are empty. -/
theorem blocks_of_eq_nil {i : Nat} (hi : i < n) (h : ∀ j, j < n → j ≠ i → f j = []) :
    blocks f n = f i := by
  induction n with
  | zero => exact absurd hi (Nat.not_lt_zero i)
  | succ n ih =>
    rw [blocks_succ]
    rcases Nat.lt_succ_iff_lt_or_eq.mp hi with hlt | rfl
    · rw [ih hlt fun j hj => h j (Nat.lt_succ_of_lt hj), h n (Nat.lt_succ_self n) (by omega),
        List.append_nil]
    · have hbefore : blocks f i = [] := by
        refine List.eq_nil_iff_forall_not_mem.mpr fun x hx => ?_
        obtain ⟨j, hj, hx⟩ := mem_blocks.mp hx
        rw [h j (by omega) (by omega)] at hx
        exact absurd hx List.not_mem_nil
      rw [hbefore, List.nil_append]

theorem blocks_prefix_blocks {i : Nat} (hi : i ≤ n) : blocks f i <+: blocks f n := by
  induction hi with
  | refl => exact List.prefix_refl _
  | step _ ih =>
    rw [blocks_succ]
    exact ih.trans (List.prefix_append _ _)

/-! ### Starts -/

variable {start : Nat → Nat}

theorem length_blocks (hzero : start 0 = 0)
    (hstart : ∀ i, i < n → start (i + 1) = start i + (f i).length) :
    (blocks f n).length = start n := by
  induction n with
  | zero => exact hzero.symm
  | succ n ih =>
    rw [blocks_succ, List.length_append, ih fun i hi => hstart i (Nat.lt_succ_of_lt hi),
      hstart n (Nat.lt_succ_self n)]

section Prefix

variable {xs : List μ} (hxs : blocks f n <+: xs) (hzero : start 0 = 0)
  (hstart : ∀ i, i < n → start (i + 1) = start i + (f i).length)

include hxs hzero hstart

/-- The blocks before a start, in an array that begins with the blocks. -/
theorem take_of_blocks_prefix {i : Nat} (hi : i ≤ n) : xs.take (start i) = blocks f i := by
  rw [← length_blocks hzero fun j hj => hstart j (Nat.lt_of_lt_of_le hj hi)]
  exact (List.prefix_iff_eq_take.mp ((blocks_prefix_blocks hi).trans hxs)).symm

/-- A block, cut out between its start and the next one. -/
theorem drop_take_of_blocks_prefix {i : Nat} (hi : i < n) :
    (xs.drop (start i)).take (start (i + 1) - start i) = f i := by
  have hlength : (blocks f i).length = start i :=
    length_blocks hzero fun j hj => hstart j (Nat.lt_trans hj hi)
  rw [← List.drop_take, take_of_blocks_prefix hxs hzero hstart hi, blocks_succ, ← hlength,
    List.drop_left]

end Prefix

/-- An array that holds the items of each block from its start on is made of the blocks. -/
theorem eq_map_blocks {h : μ → ν} {xs : List ν} (hzero : start 0 = 0)
    (hstart : ∀ i, i < n → start (i + 1) = start i + (f i).length) (hlength : xs.length = start n)
    (hcells : ∀ i k x, i < n → (f i)[k]? = some x → xs[start i + k]? = some (h x)) :
    xs = (blocks f n).map h := by
  have hbefore : ∀ i, i ≤ n → xs.take (start i) = (blocks f i).map h := by
    intro i hi
    induction i with
    | zero => rw [hzero, List.take_zero, blocks_zero, List.map_nil]
    | succ i ih =>
      have hblock : (xs.drop (start i)).take (f i).length = (f i).map h := by
        refine List.ext_getElem? fun k => ?_
        rw [List.getElem?_take, List.getElem?_drop, List.getElem?_map]
        split
        · next hk => rw [hcells i k _ hi (List.getElem?_eq_getElem hk), List.getElem?_eq_getElem hk,
            Option.map_some]
        · next hk => rw [List.getElem?_eq_none (Nat.le_of_not_lt hk), Option.map_none]
      rw [hstart i hi, List.take_add, ih (Nat.le_of_lt hi), hblock, blocks_succ, List.map_append]
  rw [← hbefore n (Nat.le_refl n), ← hlength, List.take_length]

end Blocks

/-! ### Buckets -/

/-- The items of a list with the key `j`, in their order. -/
def bucket (key : μ → Nat) (xs : List μ) (j : Nat) : List μ :=
  xs.filter fun x => decide (key x = j)

section Buckets

variable {key : μ → Nat} {xs : List μ} {n : Nat}

theorem mem_bucket {x : μ} {j : Nat} : x ∈ bucket key xs j ↔ x ∈ xs ∧ key x = j := by
  rw [bucket, List.mem_filter, decide_eq_true_eq]

theorem bucket_append (first later : List μ) (j : Nat) :
    bucket key (first ++ later) j = bucket key first j ++ bucket key later j :=
  List.filter_append ..

theorem bucket_map {key : ν → Nat} (f : μ → ν) (xs : List μ) (j : Nat) :
    bucket key (xs.map f) j = (bucket (fun x => key (f x)) xs j).map f := List.filter_map ..

theorem bucket_comm (key key' : μ → Nat) (xs : List μ) (i j : Nat) :
    bucket key (bucket key' xs i) j = bucket key' (bucket key xs j) i := by
  simp only [bucket, List.filter_filter, Bool.and_comm]

/-- The items with the last key stand behind all others. -/
theorem filter_lt_succ (h : xs.Pairwise fun x y => key x ≤ key y) (n : Nat) :
    (xs.filter fun x => decide (key x < n + 1)) =
      (xs.filter fun x => decide (key x < n)) ++ bucket key xs n := by
  induction xs with
  | nil => rfl
  | cons x xs ih =>
    obtain ⟨hfirst, hrest⟩ := List.pairwise_cons.mp h
    have hxs := ih hrest
    rw [bucket] at hxs ⊢
    rcases Nat.lt_or_ge (key x) n with hlt | hge
    · have hsucc : key x < n + 1 := Nat.lt_succ_of_lt hlt
      simp only [List.filter_cons, hsucc, hlt, Nat.ne_of_lt hlt, decide_true, decide_false, if_true,
        Bool.false_eq_true, if_false, List.cons_append, hxs]
    · -- no later item comes before `n` either
      have hnone : (x :: xs).filter (fun x => decide (key x < n)) = [] := by
        refine List.filter_eq_nil_iff.mpr fun y hy => ?_
        have hle : key x ≤ key y := by
          rcases List.mem_cons.mp hy with rfl | hy
          · exact Nat.le_refl _
          · exact hfirst y hy
        simpa using Nat.le_trans hge hle
      rw [hnone, List.nil_append]
      refine List.filter_congr fun y hy => ?_
      have hnot := List.filter_eq_nil_iff.mp hnone y hy
      simp only [decide_eq_true_eq] at hnot
      rw [decide_eq_decide]
      omega

/-- The buckets of a list in order of the keys are the list itself. -/
theorem blocks_bucket_of_pairwise (h : xs.Pairwise fun x y => key x ≤ key y)
    (hlt : ∀ x ∈ xs, key x < n) : blocks (bucket key xs) n = xs := by
  have hbefore : ∀ i, blocks (bucket key xs) i = xs.filter fun x => decide (key x < i) := by
    intro i
    induction i with
    | zero => simp
    | succ i ih => rw [blocks_succ, ih, filter_lt_succ h]
  rw [hbefore, List.filter_eq_self.mpr fun x hx => decide_eq_true (hlt x hx)]

section Sorting

variable {le : μ → μ → Bool} (htrans : ∀ x y z, le x y = true → le y z = true → le x z = true)
  (htotal : ∀ x y, (le x y || le y x) = true)

include htrans htotal

/-- A stable sort keeps items among which it sees no difference in their order. -/
theorem filter_mergeSort {p : μ → Bool}
    (hp : ∀ x ∈ xs, ∀ y ∈ xs, p x = true → p y = true → le x y = true) :
    (xs.mergeSort le).filter p = xs.filter p := by
  have hsame : (xs.filter p).Pairwise fun x y => le x y = true := by
    refine List.pairwise_of_forall_mem_list fun x hx y hy => ?_
    obtain ⟨hx, hpx⟩ := List.mem_filter.mp hx
    obtain ⟨hy, hpy⟩ := List.mem_filter.mp hy
    exact hp x hx y hy hpx hpy
  have hsublist := (List.sublist_mergeSort htrans htotal hsame List.filter_sublist).filter p
  simp only [List.filter_filter, Bool.and_self] at hsublist
  refine (hsublist.eq_of_length ?_).symm
  exact ((List.mergeSort_perm xs le).symm.filter _).length_eq

variable (hle : ∀ x ∈ xs, ∀ y ∈ xs, le x y = true ↔ key x ≤ key y)

include hle

/-- A stable sort keeps the items of one key in their order. -/
theorem bucket_mergeSort (j : Nat) : bucket key (xs.mergeSort le) j = bucket key xs j := by
  refine filter_mergeSort htrans htotal fun x hx y hy hxj hyj => (hle x hx y hy).mpr ?_
  exact Nat.le_of_eq ((of_decide_eq_true hxj).trans (of_decide_eq_true hyj).symm)

/-- The buckets of a list in order of the keys are the list, stably sorted. -/
theorem blocks_bucket_eq_mergeSort (hlt : ∀ x ∈ xs, key x < n) :
    blocks (bucket key xs) n = xs.mergeSort le := by
  have hmem : ∀ x ∈ xs.mergeSort le, x ∈ xs := fun x hx => List.mem_mergeSort.mp hx
  have hsorted : (xs.mergeSort le).Pairwise fun x y => key x ≤ key y :=
    (List.pairwise_mergeSort htrans htotal xs).imp_of_mem fun hx hy h =>
      (hle _ (hmem _ hx) _ (hmem _ hy)).mp h
  calc blocks (bucket key xs) n
      = blocks (bucket key (xs.mergeSort le)) n :=
        blocks_congr fun j _ => (bucket_mergeSort htrans htotal hle j).symm
    _ = xs.mergeSort le := blocks_bucket_of_pairwise hsorted fun x hx => hlt x (hmem x hx)

end Sorting

end Buckets

/-! ### Writing one range after the other -/

namespace Buffer

theorem splice_splice {xs ys zs : List μ} {start : Nat} (h : start ≤ xs.length) :
    splice (splice xs start ys) (start + ys.length) zs = splice xs start (ys ++ zs) := by
  have hlength : (xs.take start ++ ys).length = start + ys.length := by
    rw [List.length_append, List.length_take, Nat.min_eq_left h]
  have hdrop : (xs.take start ++ ys ++ xs.drop (start + ys.length)).drop
      (start + ys.length + zs.length) = xs.drop (start + (ys ++ zs).length) := by
    rw [← List.drop_drop, ← hlength, List.drop_left, hlength, List.drop_drop, List.length_append,
      Nat.add_assoc]
  have htake : (xs.take start ++ ys ++ xs.drop (start + ys.length)).take (start + ys.length) =
      xs.take start ++ ys := by
    rw [← hlength, List.take_left]
  rw [splice, splice, hdrop, htake, splice, ← List.append_assoc]

/-- An array that is written from end to end. -/
theorem splice_zero_of_length_eq {xs ys : List μ} (h : ys.length = xs.length) :
    splice xs 0 ys = ys := by
  rw [splice, List.take_zero, List.nil_append, Nat.zero_add, h, List.drop_length, List.append_nil]

end Buffer

end SparseDevice
