import Mathlib.Data.List.Induction
import SparseDevice.Kernel.Addition
import SparseDevice.Proofs.Kernel.Blocks
import SparseDevice.Proofs.Kernel.Cells

/-!
# Merged rows and the offsets of a sum

A merged row has one value for each column of its terms: the terms of that column, added from left
to right in the order in which they came. A single term is its own sum, so no operation is done on
it. No law of arithmetic is needed for this, and the order is what a stable sort leaves: merging a
row is sorting its terms by column and adding up neighbours.

A merged row has at most as many entries as its terms have, since a term either joins the entry of
its column or becomes an entry of its own. Up to a given row a sum therefore has at most as many
entries as both matrices together, and this is the number that has to be a counter.

## Main definitions

* `valuesAt`: the values of a row at a column.
* `Addition.leftSum`: the sum of a list from left to right.
* `Addition.addNeighbours`: the sums of neighbouring entries of one column.
* `Addition.merged`: a row of the sum of two sound matrices.
* `Addition.start`: where a row of the sum starts.

## Main results

* `Addition.valuesAt_collect`: a merged row has one value for each column.
* `Addition.collect_eq_addNeighbours`: merging is sorting and adding up neighbours.
* `Addition.offsets_ok`: the first call does not trap and writes the starts.
-/

namespace SparseDevice

variable {α : Type}

/-! ### Values at a column -/

/-- The values of a row at a column, in the order in which the row holds them. -/
def valuesAt (entries : List (Int32 × α)) (column : Int32) : List α :=
  (entries.filter fun entry => decide (entry.1 = column)).map (·.2)

section ValuesAt

variable {entries : List (Int32 × α)} {column : Int32}

@[simp] theorem valuesAt_nil (column : Int32) : valuesAt ([] : List (Int32 × α)) column = [] := rfl

theorem valuesAt_cons (entry : Int32 × α) (rest : List (Int32 × α)) (column : Int32) :
    valuesAt (entry :: rest) column =
      if entry.1 = column then entry.2 :: valuesAt rest column else valuesAt rest column := by
  by_cases h : entry.1 = column
  · simp [valuesAt, h]
  · simp [valuesAt, h]

@[simp] theorem valuesAt_append (first later : List (Int32 × α)) (column : Int32) :
    valuesAt (first ++ later) column = valuesAt first column ++ valuesAt later column := by
  simp [valuesAt]

theorem mem_valuesAt {v : α} : v ∈ valuesAt entries column ↔ (column, v) ∈ entries := by
  simp [valuesAt]

theorem valuesAt_eq_nil (h : ∀ entry ∈ entries, entry.1 ≠ column) :
    valuesAt entries column = [] := by
  simpa [valuesAt] using h

/-- A sorted row has nothing at columns before its first one. -/
theorem valuesAt_of_lt (h : ∀ entry ∈ entries, column < entry.1) : valuesAt entries column = [] := by
  refine valuesAt_eq_nil ?_
  rintro entry hentry rfl
  exact Int32.lt_irrefl (h entry hentry)

/-- Rows that are sorted without repetition are determined by their values. -/
theorem eq_of_valuesAt_eq {xs ys : List (Int32 × α)} (hx : (xs.map (·.1)).Pairwise (· < ·))
    (hy : (ys.map (·.1)).Pairwise (· < ·)) (h : ∀ column, valuesAt xs column = valuesAt ys column) :
    xs = ys := by
  have hnodup : ∀ {zs : List (Int32 × α)}, (zs.map (·.1)).Pairwise (· < ·) → zs.Nodup := by
    intro zs hzs
    refine (List.pairwise_map.mp hzs).imp ?_
    rintro entry _ hlt rfl
    exact Int32.lt_irrefl hlt
  have hperm : xs.Perm ys := by
    refine (List.perm_ext_iff_of_nodup (hnodup hx) (hnodup hy)).mpr ?_
    rintro ⟨column, v⟩
    rw [← mem_valuesAt, ← mem_valuesAt, h column]
  refine hperm.eq_of_pairwise (fun entry entry' _ _ hlt hgt => ?_) (List.pairwise_map.mp hx)
    (List.pairwise_map.mp hy)
  exact absurd (Int32.lt_trans hlt hgt) Int32.lt_irrefl

end ValuesAt

namespace Addition

section Sorted

variable {entry next : Int32 × α} {rest : List (Int32 × α)}

/-- A sorted row stays sorted without its second entry, whatever the first value is. -/
theorem sorted_skip {v : α} (h : ((entry :: next :: rest).map (·.1)).Pairwise (· ≤ ·)) :
    (((entry.1, v) :: rest).map (·.1)).Pairwise (· ≤ ·) :=
  h.sublist ((List.sublist_cons_self _ _).cons_cons _)

/-- Columns other than the first one are behind it. -/
theorem lt_of_sorted (h : ((entry :: next :: rest).map (·.1)).Pairwise (· ≤ ·))
    (hne : ¬entry.1 = next.1) {column : Int32} (hcolumn : column ∈ (next :: rest).map (·.1)) :
    entry.1 < column := by
  obtain ⟨hfirst, hrest⟩ := List.pairwise_cons.mp h
  have hlt : entry.1 < next.1 := Int32.lt_of_le_of_ne (hfirst next.1 List.mem_cons_self) hne
  rcases List.mem_cons.mp hcolumn with rfl | hcolumn
  · exact hlt
  · exact Int32.lt_of_lt_of_le hlt ((List.pairwise_cons.mp hrest).1 column hcolumn)

end Sorted

variable [Add α]

/-! ### The columns of a merged row -/

theorem length_insertTerm_le (term : Int32 × α) (entries : List (Int32 × α)) :
    (insertTerm term entries).length ≤ entries.length + 1 := by
  induction entries with
  | nil => exact Nat.le_refl _
  | cons entry rest ih =>
    rw [insertTerm]
    split
    · exact Nat.le_refl _
    · split
      · exact Nat.le_succ _
      · exact Nat.succ_le_succ ih

theorem length_foldl_insertTerm_le (terms entries : List (Int32 × α)) :
    (terms.foldl (fun entries term => insertTerm term entries) entries).length ≤
      entries.length + terms.length := by
  induction terms generalizing entries with
  | nil => exact Nat.le_refl _
  | cons term terms ih =>
    have hfirst := length_insertTerm_le term entries
    have hrest := ih (insertTerm term entries)
    rw [List.foldl_cons, List.length_cons]
    omega

theorem length_collect_le (terms : List (Int32 × α)) : (collect terms).length ≤ terms.length := by
  have hle := length_foldl_insertTerm_le terms []
  rwa [List.length_nil, Nat.zero_add] at hle

theorem mem_columns_insertTerm {c : Int32} (term : Int32 × α) (entries : List (Int32 × α)) :
    c ∈ (insertTerm term entries).map (·.1) ↔ c = term.1 ∨ c ∈ entries.map (·.1) := by
  induction entries with
  | nil => simp [insertTerm]
  | cons entry rest ih =>
    rw [insertTerm]
    split
    · rw [List.map_cons, List.mem_cons]
    · split
      · next heq =>
        rw [List.map_cons, List.map_cons, List.mem_cons, heq]
        exact ⟨.inr, fun h => h.elim .inl id⟩
      · rw [List.map_cons, List.map_cons, List.mem_cons, List.mem_cons, ih, or_left_comm]

/-- A row that is sorted without repetition stays so. -/
theorem pairwise_insertTerm {term : Int32 × α} {entries : List (Int32 × α)}
    (h : (entries.map (·.1)).Pairwise (· < ·)) :
    ((insertTerm term entries).map (·.1)).Pairwise (· < ·) := by
  induction entries with
  | nil => exact List.pairwise_singleton _ _
  | cons entry rest ih =>
    obtain ⟨hfirst, hrest⟩ := List.pairwise_cons.mp h
    rw [insertTerm]
    split
    · next hlt =>
      refine List.pairwise_cons.mpr ⟨?_, h⟩
      intro c hc
      rcases List.mem_cons.mp hc with rfl | hc
      · exact hlt
      · exact Int32.lt_trans hlt (hfirst c hc)
    · next hnlt =>
      split
      · exact h
      · next hne =>
        refine List.pairwise_cons.mpr ⟨?_, ih hrest⟩
        intro c hc
        rcases (mem_columns_insertTerm term rest).mp hc with rfl | hc
        · exact Int32.lt_of_le_of_ne (Int32.not_lt.mp hnlt) (Ne.symm hne)
        · exact hfirst c hc

theorem pairwise_foldl_insertTerm (terms : List (Int32 × α)) {entries : List (Int32 × α)}
    (h : (entries.map (·.1)).Pairwise (· < ·)) :
    ((terms.foldl (fun entries term => insertTerm term entries) entries).map (·.1)).Pairwise
      (· < ·) := by
  induction terms generalizing entries with
  | nil => exact h
  | cons term terms ih => exact ih (pairwise_insertTerm h)

theorem mem_columns_foldl_insertTerm {c : Int32} (terms entries : List (Int32 × α)) :
    c ∈ (terms.foldl (fun entries term => insertTerm term entries) entries).map (·.1) ↔
      c ∈ terms.map (·.1) ∨ c ∈ entries.map (·.1) := by
  induction terms generalizing entries with
  | nil => simp
  | cons term terms ih =>
    rw [List.foldl_cons, ih, mem_columns_insertTerm, List.map_cons, List.mem_cons, or_left_comm,
      or_assoc]

theorem pairwise_collect (terms : List (Int32 × α)) :
    ((collect terms).map (·.1)).Pairwise (· < ·) :=
  pairwise_foldl_insertTerm terms List.Pairwise.nil

/-! ### Sums from left to right -/

/-- The sum of a list from left to right. The sum of a single value is that value, and no value has
no sum. -/
def leftSum : List α → Option α
  | [] => none
  | first :: rest => some (rest.foldl (· + ·) first)

@[simp] theorem leftSum_nil : leftSum ([] : List α) = none := rfl

@[simp] theorem leftSum_singleton (v : α) : leftSum [v] = some v := rfl

/-- The last value is added to the sum of the values before it. -/
theorem leftSum_concat (values : List α) (v : α) :
    leftSum ((leftSum values).toList ++ [v]) = leftSum (values ++ [v]) := by
  cases values with
  | nil => rfl
  | cons first rest => simp [leftSum]

/-! ### The values of a merged row -/

variable {term : Int32 × α} {entries : List (Int32 × α)}

/-- Adding a term changes nothing at other columns. -/
theorem valuesAt_insertTerm_of_ne {column : Int32} (hne : term.1 ≠ column)
    (entries : List (Int32 × α)) :
    valuesAt (insertTerm term entries) column = valuesAt entries column := by
  induction entries with
  | nil => simp [insertTerm, valuesAt_cons, hne]
  | cons entry rest ih =>
    rw [insertTerm]
    split
    · rw [valuesAt_cons, if_neg hne]
    · split
      · next heq =>
        rw [heq] at hne
        rw [valuesAt_cons, valuesAt_cons, if_neg hne, if_neg hne]
      · rw [valuesAt_cons, valuesAt_cons, ih]

/-- A term is added to the value of its column, or becomes the value of it. -/
theorem valuesAt_insertTerm_self (h : (entries.map (·.1)).Pairwise (· < ·)) :
    valuesAt (insertTerm term entries) term.1 =
      (leftSum (valuesAt entries term.1 ++ [term.2])).toList := by
  induction entries with
  | nil => simp [insertTerm, valuesAt_cons]
  | cons entry rest ih =>
    obtain ⟨hfirst, hrest⟩ := List.pairwise_cons.mp h
    have hbehind : ∀ entry' ∈ rest, entry.1 < entry'.1 := fun entry' hentry' =>
      hfirst entry'.1 (List.mem_map_of_mem hentry')
    rw [insertTerm]
    split
    · next hlt =>
      have hnone : valuesAt (entry :: rest) term.1 = [] := by
        refine valuesAt_of_lt (List.forall_mem_cons.mpr ⟨hlt, fun entry' hentry' => ?_⟩)
        exact Int32.lt_trans hlt (hbehind entry' hentry')
      rw [valuesAt_cons, if_pos rfl, hnone]
      rfl
    · split
      · next heq =>
        have hnone : valuesAt rest term.1 = [] := valuesAt_of_lt (heq ▸ hbehind)
        rw [valuesAt_cons, valuesAt_cons, if_pos heq.symm, if_pos heq.symm, hnone]
        rfl
      · next hne =>
        rw [valuesAt_cons, valuesAt_cons, if_neg (Ne.symm hne), if_neg (Ne.symm hne), ih hrest]

theorem collect_concat (terms : List (Int32 × α)) (term : Int32 × α) :
    collect (terms ++ [term]) = insertTerm term (collect terms) := List.foldl_concat ..

/-- **A merged row has one value for each column of its terms,** and that is their sum from left to
right. -/
theorem valuesAt_collect (terms : List (Int32 × α)) (column : Int32) :
    valuesAt (collect terms) column = (leftSum (valuesAt terms column)).toList := by
  induction terms using List.reverseRec with
  | nil => rfl
  | append_singleton terms term ih =>
    rw [collect_concat, valuesAt_append, valuesAt_cons, valuesAt_nil]
    by_cases hcolumn : term.1 = column
    · subst hcolumn
      rw [valuesAt_insertTerm_self (pairwise_collect terms), ih, leftSum_concat, if_pos rfl]
    · rw [valuesAt_insertTerm_of_ne hcolumn, ih, if_neg hcolumn, List.append_nil]

/-! ### Sorting and adding up neighbours -/

/-- The sums of neighbouring entries of one column, the first of which is `entry`. -/
def addInto (entry : Int32 × α) : List (Int32 × α) → List (Int32 × α)
  | [] => [entry]
  | next :: rest =>
    if entry.1 = next.1 then addInto (entry.1, entry.2 + next.2) rest
    else entry :: addInto next rest

/-- The sums of neighbouring entries of one column. -/
def addNeighbours : List (Int32 × α) → List (Int32 × α)
  | [] => []
  | entry :: rest => addInto entry rest

/-- No column is new. -/
theorem mem_columns_addInto {column : Int32} {entry : Int32 × α} {rest : List (Int32 × α)}
    (h : column ∈ (addInto entry rest).map (·.1)) : column ∈ (entry :: rest).map (·.1) := by
  induction rest generalizing entry with
  | nil => exact h
  | cons next rest ih =>
    rw [addInto] at h
    rw [List.map_cons, List.mem_cons]
    split at h
    · have hmem := List.mem_cons.mp (ih h)
      exact hmem.imp_right (List.mem_cons_of_mem next.1)
    · rw [List.map_cons, List.mem_cons] at h
      exact h.imp_right ih

variable {entry : Int32 × α} {rest : List (Int32 × α)}

/-- In a sorted row nothing is left to add up. -/
theorem pairwise_addInto (h : ((entry :: rest).map (·.1)).Pairwise (· ≤ ·)) :
    ((addInto entry rest).map (·.1)).Pairwise (· < ·) := by
  induction rest generalizing entry with
  | nil => simp [addInto]
  | cons next rest ih =>
    rw [addInto]
    split
    · exact ih (sorted_skip h)
    · next hne =>
      refine List.pairwise_cons.mpr ⟨?_, ih (List.pairwise_cons.mp h).2⟩
      intro column hcolumn
      exact lt_of_sorted h hne (mem_columns_addInto hcolumn)

theorem valuesAt_addInto (h : ((entry :: rest).map (·.1)).Pairwise (· ≤ ·)) (column : Int32) :
    valuesAt (addInto entry rest) column = (leftSum (valuesAt (entry :: rest) column)).toList := by
  induction rest generalizing entry with
  | nil =>
    rw [addInto, valuesAt_cons, valuesAt_nil]
    split <;> rfl
  | cons next rest ih =>
    rw [addInto]
    split
    · next heq =>
      rw [ih (sorted_skip h)]
      simp only [valuesAt_cons, ← heq]
      split <;> rfl
    · next hne =>
      rw [valuesAt_cons, ih (List.pairwise_cons.mp h).2, valuesAt_cons entry]
      split
      · next heq =>
        -- the first column does not come again
        have hnone : valuesAt (next :: rest) column = [] := by
          refine valuesAt_of_lt fun e he => ?_
          exact heq ▸ lt_of_sorted h hne (List.mem_map_of_mem he)
        rw [hnone]
        rfl
      · rfl

/-- **Merging is sorting the terms by column,** stably, and adding up neighbours of one column. -/
theorem collect_eq_addNeighbours (terms : List (Int32 × α)) :
    collect terms = addNeighbours (terms.mergeSort fun t t' => decide (t.1 ≤ t'.1)) := by
  have htrans : ∀ t t' t'' : Int32 × α, decide (t.1 ≤ t'.1) = true → decide (t'.1 ≤ t''.1) = true →
      decide (t.1 ≤ t''.1) = true := by
    intro t t' t'' h h'
    exact decide_eq_true (Int32.le_trans (of_decide_eq_true h) (of_decide_eq_true h'))
  have htotal : ∀ t t' : Int32 × α, (decide (t.1 ≤ t'.1) || decide (t'.1 ≤ t.1)) = true := by
    intro t t'
    rw [Bool.or_eq_true, decide_eq_true_eq, decide_eq_true_eq]
    exact Int32.le_total _ _
  have hsorted : ((terms.mergeSort fun t t' => decide (t.1 ≤ t'.1)).map (·.1)).Pairwise (· ≤ ·) :=
    List.pairwise_map.mpr ((List.pairwise_mergeSort htrans htotal terms).imp of_decide_eq_true)
  have hsame : ∀ column, valuesAt (terms.mergeSort fun t t' => decide (t.1 ≤ t'.1)) column =
      valuesAt terms column := by
    intro column
    refine congrArg (List.map (·.2)) (filter_mergeSort htrans htotal ?_)
    intro t _ t' _ ht ht'
    rw [of_decide_eq_true ht, of_decide_eq_true ht']
    exact decide_eq_true (Int32.le_refl _)
  cases hterms : terms.mergeSort fun t t' => decide (t.1 ≤ t'.1) with
  | nil =>
    have hnil : terms = [] := (hterms ▸ List.mergeSort_perm terms _).nil_eq.symm
    rw [hnil]
    rfl
  | cons entry rest =>
    rw [hterms] at hsorted hsame
    refine eq_of_valuesAt_eq (pairwise_collect terms) (pairwise_addInto hsorted) fun column => ?_
    rw [addNeighbours, valuesAt_addInto hsorted, valuesAt_collect, hsame]

/-! ### Rows of a sum -/

variable [Mul α]

/-- A row of `alpha * A + beta * B`, as the offsets of the matrices cut their rows out. -/
def merged (alpha : α) (a : Csr α) (beta : α) (b : Csr α) (row : Nat) : List (Int32 × α) :=
  collect (terms alpha (a.rowEntries row) ++ terms beta (b.rowEntries row))

theorem mergedRow_eq {a b : Csr α} (ha : a.Valid) (hb : b.Valid) {row : Nat} (hrow : row < a.rows)
    (hrow' : row < b.rows) (alpha beta : α) :
    mergedRow alpha a beta b row = .ok (merged alpha a beta b row) := by
  rw [mergedRow, ha.row_eq hrow, ok_bind, hb.row_eq hrow', ok_bind, pure_eq_ok, merged]

/-- A merged row is no longer than its two rows. -/
theorem length_merged_le {a b : Csr α} (ha : a.Valid) (hb : b.Valid) {row : Nat}
    (hrow : row < a.rows) (hrow' : row < b.rows) (alpha beta : α) :
    (merged alpha a beta b row).length ≤
      (offset a.rowPtr (row + 1) - offset a.rowPtr row) +
        (offset b.rowPtr (row + 1) - offset b.rowPtr row) := by
  have hle := length_collect_le (terms alpha (a.rowEntries row) ++ terms beta (b.rowEntries row))
  rw [List.length_append, terms, terms, List.length_map, List.length_map,
    ha.length_rowEntries hrow, hb.length_rowEntries hrow'] at hle
  exact hle

/-! ### The offsets of a sum -/

section Offsets

variable [One α]

/-- Where a row of the sum starts. -/
def start (a b : Csr α) : Nat → Nat
  | 0 => 0
  | row + 1 => start a b row + (merged 1 a 1 b row).length

theorem start_le {a b : Csr α} (ha : a.Valid) (hb : b.Valid) (hrows : a.rows = b.rows) {row : Nat}
    (hrow : row ≤ a.rows) : start a b row ≤ offset a.rowPtr row + offset b.rowPtr row := by
  induction row with
  | zero => exact Nat.zero_le _
  | succ row ih =>
    have hbefore := ih (Nat.le_of_succ_le hrow)
    have hlength := length_merged_le ha hb hrow (by omega) 1 1
    have hleft := ha.offsets.mono row (row + 1) (Nat.le_succ row) hrow
    have hright := hb.offsets.mono row (row + 1) (Nat.le_succ row) (by omega)
    rw [start]
    omega

/-- No more entries than both matrices have together. -/
theorem start_le_nnz {a b : Csr α} (ha : a.Valid) (hb : b.Valid) (hrows : a.rows = b.rows)
    {row : Nat} (hrow : row ≤ a.rows) : start a b row ≤ a.nnz + b.nnz :=
  Nat.le_trans (start_le ha hb hrows hrow)
    (Nat.add_le_add (ha.offsets.le_total hrow) (hb.offsets.le_total (hrows ▸ hrow)))

/-- Offsets in progress: the cells up to a row are written, those behind it are stale. -/
structure Started (a b : Csr α) (row : Nat) (rowPtr : List Int32) : Prop where
  length : rowPtr.length = a.rows + 1
  cells : ∀ i x, i ≤ row → rowPtr[i]? = some x → x.toInt = (start a b i : Int)

/-- Writing the next offset moves the stale cells back by one. -/
theorem Started.next {a b : Csr α} {row : Nat} {rowPtr : List Int32}
    (h : Started a b row rowPtr) {x : Int32} (hx : x.toInt = (start a b (row + 1) : Int)) :
    Started a b (row + 1) (rowPtr.set (row + 1) x) := by
  refine ⟨by rw [List.length_set, h.length], ?_⟩
  intro i y hi hy
  by_cases hi' : i = row + 1
  · subst hi'
    have hlt := (List.getElem?_eq_some_iff.mp hy).1
    rw [List.length_set] at hlt
    rw [List.getElem?_set_self hlt] at hy
    cases hy
    exact hx
  · rw [List.getElem?_set_ne (Ne.symm hi')] at hy
    exact h.cells i y (by omega) hy

/-- One turn of the loop over the rows. -/
theorem Started.turn {a b : Csr α} (ha : a.Valid) (hb : b.Valid) (hrows : a.rows = b.rows)
    (hcount : a.nnz + b.nnz ≤ maxCount) {row : Nat} (hrow : row < a.rows) {rowPtr : List Int32}
    (h : Started a b row rowPtr) : ∃ next, (do
      let merged ← mergedRow 1 a 1 b row
      let start ← Buffer.read rowPtr row
      let stop ← advance start (Int32.ofNat merged.length)
      Buffer.write rowPtr (row + 1) stop) = .ok next ∧ Started a b (row + 1) next := by
  have hlength := h.length
  have hcell : row < rowPtr.length := by omega
  have hstart := h.cells row rowPtr[row] (Nat.le_refl row) (List.getElem?_eq_getElem hcell)
  have hsum : start a b row + (merged 1 a 1 b row).length ≤ maxCount :=
    Nat.le_trans (start_le_nnz ha hb hrows hrow) hcount
  obtain ⟨stop, hadvance, hstop⟩ := advance_ok hstart (toInt_ofNat_of_le (by omega)) hsum
  refine ⟨rowPtr.set (row + 1) stop, ?_, h.next hstop⟩
  rw [mergedRow_eq ha hb hrow (hrows ▸ hrow), ok_bind, Buffer.read_eq_ok hcell, ok_bind, hadvance,
    ok_bind, Buffer.write_eq_ok (by omega)]

/-- The offsets of a sum can be counted if the entries of both matrices can be. -/
theorem offsets_ok {a b : Csr α} (ha : a.Valid) (hb : b.Valid) (hrows : a.rows = b.rows)
    {rowPtr : List Int32} (hlength : rowPtr.length = a.rows + 1)
    (hcount : a.nnz + b.nnz ≤ maxCount) :
    ∃ out, offsets a b rowPtr = .ok (start a b a.rows, out) ∧ out.length = a.rows + 1 ∧
      Holds out (start a b) := by
  have hzero : Started a b 0 (rowPtr.set 0 0) := by
    refine ⟨by rw [List.length_set, hlength], ?_⟩
    intro i x hi hx
    have hi0 : i = 0 := Nat.le_zero.mp hi
    subst hi0
    rw [List.getElem?_set_self (by omega)] at hx
    cases hx
    rfl
  obtain ⟨out, hout, hstarted⟩ := sweep_ok (Started a b) 0 a.rows hzero
    fun row out _ hrow h => h.turn ha hb hrows hcount (by omega)
  have hlength' := hstarted.length
  have hholds : Holds out (start a b) := by
    intro i x hx
    have hi := (List.getElem?_eq_some_iff.mp hx).1
    exact hstarted.cells i x (by omega) hx
  obtain ⟨last, hlast, hlast'⟩ := hholds.read (i := a.rows) (by omega)
  refine ⟨out, ?_, hlength', hholds⟩
  rw [offsets, Buffer.write_eq_ok (by omega), ok_bind, hout, ok_bind, hlast, ok_bind,
    position_eq hlast', pure_eq_ok]

end Offsets

end Addition

end SparseDevice
