import SparseDevice.Matrix

/-!
# Loops and cells that do not trap

A routine is a loop over cells, and it succeeds if each of its accesses does. The lemmas on loops
take an invariant and ask for one turn: under the invariant the turn succeeds and restores it. So
every proof about a routine says what its buffers look like in the middle of the loop.

The buffers that hold numbers hold natural numbers. `Holds xs f` reads the signed cells of `xs` as
the values of a function, which is how counts and offsets are spoken about from here on.

## Main definitions

* `Holds`: the numbers in an index array.
* `offset`, `IsOffsets`: row offsets as natural numbers.
* `Csr.Valid`, `Csr.rowEntries`: a sound matrix and the entries of its rows.
* `Csr.HasRoom`: a matrix whose arrays may be longer than its offsets ask for.

## Main results

* `sweep_ok`, `foldlM_ok`, `mapM_eq_ok`: loops.
* `isOffsets_of_check`: what the checks of an offset array say about it.
* `Csr.Valid.row_eq`: the rows of a sound matrix can be read.
-/

namespace SparseDevice

/-! ### Steps and loops -/

section Loops

variable {ε σ μ ν : Type}

/-- A step that succeeded goes on with its result. -/
@[simp] theorem ok_bind (m : μ) (f : μ → Except ε ν) : (Except.ok m >>= f) = f m := rfl

theorem pure_eq_ok (m : μ) : (pure m : Except ε μ) = .ok m := rfl

theorem mem_of_split {xs before later : List μ} {x : μ} (h : xs = before ++ x :: later) :
    x ∈ xs := by
  rw [h]
  exact List.mem_append_cons_self

/-- A loop over numbers succeeds if each turn does and restores the invariant. -/
theorem sweep_ok {body : Nat → σ → Except ε σ} (I : Nat → σ → Prop) (start count : Nat) {s : σ}
    (hs : I start s)
    (hbody : ∀ i s, start ≤ i → i < start + count → I i s → ∃ s', body i s = .ok s' ∧ I (i + 1) s') :
    ∃ s', sweep body start count s = .ok s' ∧ I (start + count) s' := by
  induction count generalizing start s with
  | zero => exact ⟨s, rfl, hs⟩
  | succ count ih =>
    obtain ⟨s₁, hfirst, hs₁⟩ := hbody start s (Nat.le_refl _) (by omega) hs
    obtain ⟨s₂, hrest, hs₂⟩ := ih (start + 1) hs₁ fun i s hi hlt => hbody i s (by omega) (by omega)
    refine ⟨s₂, ?_, ?_⟩
    · rwa [sweep_succ, hfirst, ok_bind]
    · rwa [show start + 1 + count = start + (count + 1) by omega] at hs₂

/-- A loop over consecutive numbers is a loop over their list. -/
theorem sweep_eq_foldlM (body : Nat → σ → Except ε σ) (start count : Nat) (s : σ) :
    sweep body start count s = (List.range' start count).foldlM (fun s i => body i s) s := by
  induction count generalizing start s with
  | zero => rfl
  | succ count ih =>
    rw [sweep_succ, List.range'_succ, List.foldlM_cons]
    exact congrArg (body start s >>= ·) (funext fun s => ih (start + 1) s)

/-- A loop over a list succeeds if each turn does; the invariant knows the items before. -/
theorem foldlM_ok {f : σ → μ → Except ε σ} (I : List μ → σ → Prop) {xs : List μ} {s : σ}
    (hs : I [] s)
    (hbody : ∀ before x later s, xs = before ++ x :: later → I before s →
      ∃ s', f s x = .ok s' ∧ I (before ++ [x]) s') :
    ∃ s', xs.foldlM f s = .ok s' ∧ I xs s' := by
  induction xs generalizing I s with
  | nil => exact ⟨s, rfl, hs⟩
  | cons x xs ih =>
    obtain ⟨s₁, hfirst, hs₁⟩ := hbody [] x xs s rfl hs
    obtain ⟨s₂, hrest, hs₂⟩ := ih (fun before => I (x :: before)) hs₁ fun before y later s hxs =>
      hbody (x :: before) y later s (by rw [hxs]; rfl)
    refine ⟨s₂, ?_, hs₂⟩
    rwa [List.foldlM_cons, hfirst, ok_bind]

section Project

variable {τ : Type} {π : τ → σ}

/-- A loop does on a part of its state what its turns do there. -/
theorem foldlM_map {f : σ → μ → Except ε σ} {g : τ → μ → Except ε τ}
    (h : ∀ t x, (g t x).map π = f (π t) x) (xs : List μ) (t : τ) :
    (xs.foldlM g t).map π = xs.foldlM f (π t) := by
  induction xs generalizing t with
  | nil => rfl
  | cons x xs ih =>
    rw [List.foldlM_cons, List.foldlM_cons, ← h]
    cases g t x with
    | error e => rfl
    | ok t' => exact ih t'

theorem sweep_map {f : Nat → σ → Except ε σ} {g : Nat → τ → Except ε τ}
    (h : ∀ i t, (g i t).map π = f i (π t)) (start count : Nat) (t : τ) :
    (sweep g start count t).map π = sweep f start count (π t) := by
  rw [sweep_eq_foldlM, sweep_eq_foldlM]
  exact foldlM_map (fun t i => h i t) _ t

end Project

/-- A loop each of whose turns succeeds is a loop without errors. -/
theorem foldlM_eq_ok {f : σ → μ → Except ε σ} {g : σ → μ → σ} {xs : List μ}
    (hf : ∀ s, ∀ x ∈ xs, f s x = .ok (g s x)) (s : σ) : xs.foldlM f s = .ok (xs.foldl g s) := by
  induction xs generalizing s with
  | nil => rfl
  | cons x xs ih =>
    rw [List.foldlM_cons, hf s x List.mem_cons_self, ok_bind, List.foldl_cons]
    exact ih (fun s y hy => hf s y (List.mem_cons_of_mem x hy)) (g s x)

theorem mapM_eq_ok {f : μ → Except ε ν} {g : μ → ν} {xs : List μ}
    (hf : ∀ x ∈ xs, f x = .ok (g x)) : xs.mapM f = .ok (xs.map g) := by
  induction xs with
  | nil => rfl
  | cons x xs ih =>
    have hrest := ih fun y hy => hf y (List.mem_cons_of_mem x hy)
    rw [List.mapM_cons, hf x List.mem_cons_self, ok_bind, hrest, ok_bind, pure_eq_ok, List.map_cons]

end Loops

/-! ### Numbers in cells -/

/-- The largest 32-bit counter. -/
def maxCount : Nat := 2147483647

theorem position_eq {i : Int32} {n : Nat} (h : i.toInt = n) : position i = n := by
  rw [position_of_nonneg (by omega), h]
  rfl

/-- Counters add up as long as the sum is a counter. -/
theorem advance_ok {i j : Int32} {m n : Nat} (hi : i.toInt = m) (hj : j.toInt = n)
    (hle : m + n ≤ maxCount) : ∃ k, advance i j = .ok k ∧ k.toInt = (m + n : Nat) := by
  rw [maxCount] at hle
  refine ⟨Int32.ofInt (i.toInt + j.toInt), advance_eq_ok (by omega) (by omega), ?_⟩
  rw [Int32.toInt_ofInt_of_le (by omega) (by omega)]
  omega

theorem toInt_ofNat_of_le {n : Nat} (h : n ≤ maxCount) : (Int32.ofNat n).toInt = n :=
  Int32.toInt_ofNat_of_lt (by rw [maxCount] at h; omega)

/-- Cell `i` of an index array holds the number `f i`. -/
def Holds (xs : List Int32) (f : Nat → Nat) : Prop := ∀ i x, xs[i]? = some x → x.toInt = (f i : Int)

namespace Holds

variable {xs : List Int32} {f g : Nat → Nat}

theorem congr (h : Holds xs f) (hfg : ∀ i, i < xs.length → f i = g i) : Holds xs g := by
  intro i x hx
  rw [h i x hx, hfg i (List.getElem?_eq_some_iff.mp hx).1]

theorem read (h : Holds xs f) {i : Nat} (hi : i < xs.length) :
    ∃ x, Buffer.read xs i = .ok x ∧ x.toInt = f i :=
  ⟨xs[i], Buffer.read_eq_ok hi, h i xs[i] (List.getElem?_eq_getElem hi)⟩

theorem set (h : Holds xs f) (i : Nat) {x : Int32} {n : Nat} (hx : x.toInt = n) :
    Holds (xs.set i x) fun j => if j = i then n else f j := by
  intro j y hy
  show y.toInt = ((if j = i then n else f j : Nat) : Int)
  by_cases hj : j = i
  · subst hj
    rw [if_pos rfl]
    have hlt : j < xs.length := by
      have := (List.getElem?_eq_some_iff.mp hy).1
      rwa [List.length_set] at this
    rw [List.getElem?_set_self hlt] at hy
    cases hy
    exact hx
  · rw [if_neg hj]
    rw [List.getElem?_set_ne (Ne.symm hj)] at hy
    exact h j y hy

theorem le_maxCount (h : Holds xs f) {i : Nat} (hi : i < xs.length) : f i ≤ maxCount := by
  have hcell := h i xs[i] (List.getElem?_eq_getElem hi)
  have hlt := Int32.toInt_lt xs[i]
  rw [maxCount]
  omega

theorem replicate_zero (n : Nat) : Holds (List.replicate n 0) fun _ => 0 := by
  intro i x hx
  have hmem := List.mem_of_getElem? hx
  rw [List.eq_of_mem_replicate hmem]
  rfl

end Holds

theorem getD_eq_getElem {xs : List Int32} {i : Nat} (hi : i < xs.length) : xs.getD i 0 = xs[i] := by
  rw [List.getD_eq_getElem?_getD, List.getElem?_eq_getElem hi, Option.getD_some]

namespace Buffer

variable {μ : Type}

/-- A cell that is there is read as it is. -/
theorem read_getD {xs : List Int32} {i : Nat} (hi : i < xs.length) :
    read xs i = .ok (xs.getD i 0) := by
  rw [read_eq_ok hi, getD_eq_getElem hi]

theorem update_eq_ok {xs : List μ} {i : Nat} {f : μ → Except Trap μ} {b : μ} (hi : i < xs.length)
    (hf : f xs[i] = .ok b) : update xs i f = .ok (xs.set i b) := by
  rw [update, read_eq_ok hi, ok_bind, hf, ok_bind, pure_eq_ok]

theorem length_window {xs : List μ} {start count : Nat} (h : start + count ≤ xs.length) :
    ((xs.drop start).take count).length = count := by
  rw [List.length_take, List.length_drop]
  omega

theorem segment_eq_ok {xs : List μ} (start : Nat) {stop : Nat} (h : stop ≤ xs.length) :
    segment xs start stop = .ok ((xs.drop start).take (stop - start)) := by
  rw [segment]
  split
  · next hle => rw [Nat.sub_eq_zero_of_le hle, List.take_zero]
  · next hlt => exact window_eq_ok (by omega)

theorem fill_eq_ok {xs : List μ} {start count : Nat} (h : count = 0 ∨ start + count ≤ xs.length)
    (x : μ) : fill xs start count x = .ok (splice xs start (List.replicate count x)) := by
  rw [fill]
  split
  · next hzero => rw [hzero, List.replicate_zero, splice_nil]
  · next hne => rw [if_pos (h.resolve_left hne)]

theorem overwrite_eq_ok {xs ys : List μ} {start : Nat}
    (h : ys = [] ∨ start + ys.length ≤ xs.length) :
    overwrite xs start ys = .ok (splice xs start ys) := by
  rw [overwrite, if_pos (h.imp_left List.isEmpty_iff.mpr)]

end Buffer

/-! ### Offsets -/

/-- The number in a cell of an offset array. -/
def offset (ptr : List Int32) (i : Nat) : Nat := position (ptr.getD i 0)

/-- An offset array for `n` rows with `total` entries. -/
structure IsOffsets (ptr : List Int32) (n total : Nat) : Prop where
  length : ptr.length = n + 1
  holds : Holds ptr (offset ptr)
  zero : offset ptr 0 = 0
  mono : ∀ i j, i ≤ j → j ≤ n → offset ptr i ≤ offset ptr j
  last : offset ptr n = total

theorem ascending_getElem {xs : List Int32} (h : ascending xs = true) {i j : Nat}
    (hi : i < xs.length) (hj : j < xs.length) (hij : i ≤ j) : xs[i].toInt ≤ xs[j].toInt := by
  induction xs generalizing i j with
  | nil => exact absurd hj (Nat.not_lt_zero _)
  | cons x xs ih =>
    cases xs with
    | nil =>
      have hj0 : j = 0 := by simpa using hj
      have hi0 : i = 0 := by omega
      subst hj0 hi0
      exact Int.le_refl _
    | cons y ys =>
      obtain ⟨hxy, hrest⟩ := ascending_cons_cons.mp h
      cases j with
      | zero =>
        have hi0 : i = 0 := by omega
        subst hi0
        exact Int.le_refl _
      | succ j =>
        have hlt : j < (y :: ys).length := Nat.lt_of_succ_lt_succ hj
        cases i with
        | zero =>
          have hfirst := Int32.le_iff_toInt_le.mp hxy
          have htail := ih hrest (Nat.zero_lt_succ _) hlt (Nat.zero_le j)
          exact Int.le_trans hfirst htail
        | succ i =>
          exact ih hrest (Nat.lt_of_succ_lt_succ hi) hlt (Nat.le_of_succ_le_succ hij)

/-- An offset array that passes its checks. -/
theorem isOffsets_of_check {ptr : List Int32} {n : Nat} (hlength : ptr.length = n + 1)
    (hzero : ptr.getD 0 0 = 0) (hascending : ascending ptr = true) :
    IsOffsets ptr n (offset ptr n) := by
  have hpos : 0 < ptr.length := by omega
  have hfirst : ptr[0] = 0 := by rwa [← getD_eq_getElem hpos]
  have hnonneg : ∀ i (hi : i < ptr.length), 0 ≤ ptr[i].toInt := by
    intro i hi
    have hle := ascending_getElem hascending hpos hi (Nat.zero_le i)
    rw [hfirst, Int32.toInt_zero] at hle
    exact hle
  have hoffset : ∀ i (hi : i < ptr.length), (offset ptr i : Int) = ptr[i].toInt := by
    intro i hi
    rw [offset, getD_eq_getElem hi, position_of_nonneg (hnonneg i hi)]
    exact Int.toNat_of_nonneg (hnonneg i hi)
  refine ⟨hlength, fun i x hx => ?_, ?_, fun i j hij hj => ?_, rfl⟩
  · obtain ⟨hi, rfl⟩ := List.getElem?_eq_some_iff.mp hx
    exact (hoffset i hi).symm
  · rw [offset, hzero]
    rfl
  · have hle := ascending_getElem hascending (by omega) (by omega) hij
    have hi := hoffset i (by omega)
    have hj' := hoffset j (by omega)
    omega

namespace IsOffsets

variable {ptr : List Int32} {n total : Nat}

theorem read (h : IsOffsets ptr n total) {i : Nat} (hi : i ≤ n) :
    ∃ x, Buffer.read ptr i = .ok x ∧ x.toInt = offset ptr i :=
  h.holds.read (by rw [h.length]; omega)

theorem le_total (h : IsOffsets ptr n total) {i : Nat} (hi : i ≤ n) : offset ptr i ≤ total := by
  rw [← h.last]
  exact h.mono i n hi (Nat.le_refl n)

theorem total_le (h : IsOffsets ptr n total) : total ≤ maxCount := by
  rw [← h.last]
  exact h.holds.le_maxCount (by rw [h.length]; omega)

end IsOffsets

/-! ### Rows of a sound matrix -/

/-- Offsets can be read as ranges of rows. -/
theorem IsOffsets.rowRange_eq {α : Type} {a : Csr α} {n total : Nat}
    (h : IsOffsets a.rowPtr n total) {row : Nat} (hrow : row < n) :
    a.rowRange row = .ok (offset a.rowPtr row, offset a.rowPtr (row + 1)) := by
  obtain ⟨start, hstart, hstart'⟩ := h.read (Nat.le_of_lt hrow)
  obtain ⟨stop, hstop, hstop'⟩ := h.read hrow
  rw [Csr.rowRange, hstart, ok_bind, hstop, ok_bind, position_eq hstart', position_eq hstop',
    pure_eq_ok]

namespace Csr

variable {α : Type}

/-- The arrays of a matrix fit together. -/
structure Valid (a : Csr α) : Prop where
  offsets : IsOffsets a.rowPtr a.rows a.nnz
  colInd : a.colInd.length = a.nnz
  inRange : ∀ col ∈ a.colInd, InRange col a.cols

theorem valid_of_validate {a : Csr α} (h : a.validate = .ok ()) : a.Valid := by
  obtain ⟨hlength, hcolInd, ⟨hzero, hlast⟩, hascending, hrange⟩ := validate_eq_ok_iff.mp h
  refine ⟨?_, hcolInd, hrange⟩
  rw [← hlast]
  exact isOffsets_of_check hlength hzero hascending

/-- The entries of all rows, each with its column. -/
def entries (a : Csr α) : List (Int32 × α) := a.colInd.zip a.values

/-- The entries of a row, as the offsets cut them out. -/
def rowEntries (a : Csr α) (row : Nat) : List (Int32 × α) :=
  (a.entries.drop (offset a.rowPtr row)).take (offset a.rowPtr (row + 1) - offset a.rowPtr row)

/-- The offsets for `n` rows are sound, and the arrays have room for the entries that they promise.
What stands behind these entries is of no account. -/
structure HasRoom (c : Csr α) (n : Nat) : Prop where
  offsets : IsOffsets c.rowPtr n (offset c.rowPtr n)
  colInd : offset c.rowPtr n ≤ c.colInd.length
  values : offset c.rowPtr n ≤ c.values.length

namespace HasRoom

variable {c : Csr α} {n : Nat}

theorem le_entries (h : c.HasRoom n) {row : Nat} (hrow : row ≤ n) :
    offset c.rowPtr row ≤ c.entries.length := by
  rw [entries, List.length_zip]
  exact Nat.le_trans (h.offsets.le_total hrow) (Nat.le_min.mpr ⟨h.colInd, h.values⟩)

/-- A row within the arrays can be read. -/
theorem row_eq (h : c.HasRoom n) {row : Nat} (hrow : row < n) :
    c.row row = .ok (c.rowEntries row) := by
  have hle := h.offsets.le_total hrow
  have hcolumns := Buffer.segment_eq_ok (offset c.rowPtr row) (Nat.le_trans hle h.colInd)
  have hvalues := Buffer.segment_eq_ok (offset c.rowPtr row) (Nat.le_trans hle h.values)
  simp only [Csr.row, h.offsets.rowRange_eq hrow, ok_bind, hcolumns, hvalues, pure_eq_ok]
  rw [rowEntries, entries, List.zip_eq_zipWith, List.zip_eq_zipWith, List.drop_zipWith,
    List.take_zipWith]

end HasRoom

namespace Valid

variable {a : Csr α}

theorem hasRoom (h : a.Valid) : a.HasRoom a.rows where
  offsets := h.offsets.last ▸ h.offsets
  colInd := Nat.le_of_eq (h.offsets.last.trans h.colInd.symm)
  values := Nat.le_of_eq h.offsets.last

/-- A row of a sound matrix can be read. -/
theorem row_eq (h : a.Valid) {row : Nat} (hrow : row < a.rows) :
    a.row row = .ok (a.rowEntries row) := h.hasRoom.row_eq hrow

theorem mem_entries (_h : a.Valid) {row : Nat} {entry : Int32 × α}
    (hentry : entry ∈ a.rowEntries row) : entry ∈ a.entries :=
  List.mem_of_mem_drop (List.mem_of_mem_take hentry)

/-- The column of an entry is a column of the matrix. -/
theorem column_lt (h : a.Valid) {row : Nat} {entry : Int32 × α}
    (hentry : entry ∈ a.rowEntries row) : position entry.1 < a.cols :=
  (h.inRange entry.1 (List.of_mem_zip (h.mem_entries hentry)).1).2

theorem length_entries (h : a.Valid) : a.entries.length = a.nnz := by
  rw [entries, List.length_zip, h.colInd, nnz, Nat.min_self]

theorem length_rowEntries (h : a.Valid) {row : Nat} (hrow : row < a.rows) :
    (a.rowEntries row).length = offset a.rowPtr (row + 1) - offset a.rowPtr row := by
  have hle : offset a.rowPtr (row + 1) ≤ a.nnz := h.offsets.le_total hrow
  rw [rowEntries, List.length_take, List.length_drop, h.length_entries]
  omega

/-- The rows come one after the other. -/
theorem take_offset_succ (h : a.Valid) {row : Nat} (hrow : row < a.rows) :
    a.entries.take (offset a.rowPtr (row + 1)) =
      a.entries.take (offset a.rowPtr row) ++ a.rowEntries row := by
  have hle := h.offsets.mono row (row + 1) (Nat.le_succ row) hrow
  rw [rowEntries, ← List.take_add, Nat.add_sub_cancel' hle]

end Valid

end Csr

end SparseDevice
