import SparseDevice.Proofs.Kernel.Acceptance
import SparseDevice.Proofs.Kernel.Denotation

/-!
# The values of a sum

A cell of a sum holds the terms of its column, added from left to right in the order in which the two
rows hold them, those of the first matrix before those of the second. No law of arithmetic is needed
for this.

Over a commutative ring the order is of no account. The cells of the sum are then the sums of the
cells, and the two matrices may change places.

## Main definitions

* `Addition.cellTerms`: the terms of a cell.
* `Addition.Totals`: the cells of a sum, by their terms.

## Main results

* `Addition.valuesAt_merged`: the cells of a merged row.
* `Addition.denseEntry_stored`: the cells of a sum over a commutative ring.
* `Addition.stored_swap`: the two matrices may change places.
-/

namespace SparseDevice

variable {α : Type}

namespace Addition

/-! ### The cells of a sum -/

theorem valuesAt_terms [Mul α] (coefficient : α) (entries : List (Int32 × α)) (column : Int32) :
    valuesAt (terms coefficient entries) column =
      (valuesAt entries column).map (coefficient * ·) := by
  simp only [valuesAt, terms, List.filter_map, List.map_map]
  rfl

section Order

variable [Add α] [Mul α] {a b c : Csr α}

/-- The terms of a cell of `alpha * A + beta * B`, from a row of each matrix. -/
def cellTerms (alpha : α) (left : List (Int32 × α)) (beta : α) (right : List (Int32 × α))
    (column : Int32) : List α :=
  (valuesAt left column).map (alpha * ·) ++ (valuesAt right column).map (beta * ·)

theorem valuesAt_merged (alpha : α) (a : Csr α) (beta : α) (b : Csr α) (row : Nat)
    (column : Int32) : valuesAt (merged alpha a beta b row) column =
      (leftSum (cellTerms alpha (a.rowEntries row) beta (b.rowEntries row) column)).toList := by
  rw [merged, valuesAt_collect, valuesAt_append, valuesAt_terms, valuesAt_terms, cellTerms]

/-- The cells of the matrix `c` are the sums of their terms, in order. -/
structure Totals (alpha : α) (a : Csr α) (beta : α) (b c : Csr α) : Prop where
  rows : c.rows = a.rows
  cols : c.cols = a.cols
  /-- There is one value at each column of the terms, and none at any other column. -/
  cell : ∀ row, row < a.rows → ∃ left right entries, a.row row = .ok left ∧ b.row row = .ok right ∧
    c.row row = .ok entries ∧ ∀ column, valuesAt entries column =
      (leftSum (cellTerms alpha left beta right column)).toList

/-- A matrix into which a sum has been stored. -/
theorem totals_stored [One α] (ha : a.Valid) (hb : b.Valid) (hrows : a.rows = b.rows)
    (hcrows : c.rows = a.rows) (hccols : c.cols = a.cols) (hc : c.HasRoom a.rows)
    (hfits : ∀ row, row < a.rows → Fits a b c.rowPtr row) (alpha beta : α) :
    Totals alpha a beta b (stored alpha a beta b c a.rows) where
  rows := hcrows
  cols := hccols
  cell row hrow := by
    have hroom := hasRoom_stored hc (Nat.le_refl _) hfits alpha beta
    refine ⟨_, _, _, ha.row_eq hrow, hb.row_eq (hrows ▸ hrow), hroom.row_eq hrow, ?_⟩
    intro column
    rw [rowEntries_stored hc (Nat.le_refl _) hfits alpha beta hrow, valuesAt_merged]

end Order

/-! ### Sums over a commutative ring -/

section Ring

variable [CommRing α] {a b c : Csr α}

/-- The order of the terms is of no account. -/
theorem leftSum_perm {xs ys : List α} (h : xs.Perm ys) : leftSum xs = leftSum ys := by
  have hsum : ∀ (first : α) (rest : List α),
      leftSum (first :: rest) = some (first :: rest).sum := by
    intro first rest
    have hfold := Product.foldl_add_eq_sum id rest first
    rw [List.map_id] at hfold
    exact congrArg some hfold
  cases xs with
  | nil => rw [h.nil_eq]
  | cons x xs =>
    cases ys with
    | nil => exact absurd h.length_eq (Nat.succ_ne_zero _)
    | cons y ys => rw [hsum, hsum, h.sum_eq]

/-- Rows may change places before they are merged. -/
theorem merged_swap (alpha : α) (a : Csr α) (beta : α) (b : Csr α) (row : Nat) :
    merged beta b alpha a row = merged alpha a beta b row := by
  refine eq_of_valuesAt_eq (pairwise_merged beta b alpha a row) (pairwise_merged alpha a beta b row)
    fun column => ?_
  rw [valuesAt_merged, valuesAt_merged, cellTerms, cellTerms, leftSum_perm List.perm_append_comm]

theorem stored_swap (alpha : α) (a : Csr α) (beta : α) (b c : Csr α) (row : Nat) :
    stored beta b alpha a c row = stored alpha a beta b c row := by
  have hsame : merged beta b alpha a = merged alpha a beta b :=
    funext fun row => merged_swap alpha a beta b row
  rw [stored, stored, hsame]

/-- What a merged row contributes to a cell is what its terms contribute. -/
theorem sum_map_collect {f : Int32 × α → α} (hf : ∀ c u v, f (c, u + v) = f (c, u) + f (c, v))
    (terms : List (Int32 × α)) : ((collect terms).map f).sum = (terms.map f).sum := by
  have hinsert : ∀ (term : Int32 × α) (entries : List (Int32 × α)),
      ((insertTerm term entries).map f).sum = (entries.map f).sum + f term := by
    intro term entries
    induction entries with
    | nil => simp [insertTerm]
    | cons entry rest ih =>
      rw [insertTerm]
      split
      · simp [add_comm]
      · split
        · next heq =>
          have hterm : f (entry.1, term.2) = f term := by rw [← heq]
          simp [hf, hterm, add_right_comm]
        · simp [ih, add_assoc]
  induction terms using List.reverseRec with
  | nil => rfl
  | append_singleton terms term ih =>
    rw [collect_concat, hinsert, ih]
    simp

/-- **The cells of the sum are the sums of the cells.** -/
theorem denseEntry_stored (ha : a.Valid) (hb : b.Valid) (hrows : a.rows = b.rows)
    (hc : c.HasRoom a.rows) (hfits : ∀ row, row < a.rows → Fits a b c.rowPtr row) (alpha beta : α)
    {row : Nat} (hrow : row < a.rows) (column : Nat) :
    (stored alpha a beta b c a.rows).denseEntry id row column =
      alpha * a.denseEntry id row column + beta * b.denseEntry id row column := by
  have hroom := hasRoom_stored hc (Nat.le_refl _) hfits alpha beta
  have hterms : ∀ (coefficient : α) (entries : List (Int32 × α)),
      ((terms coefficient entries).map fun entry : Int32 × α =>
        if entry.1.toInt = column then id entry.2 else 0).sum =
      coefficient * (entries.map fun entry : Int32 × α =>
        if entry.1.toInt = column then id entry.2 else 0).sum := by
    intro coefficient entries
    rw [terms, List.map_map, ← List.sum_map_mul_left]
    refine congrArg List.sum (List.map_congr_left fun entry _ => ?_)
    simp
  rw [hroom.denseEntry_eq hrow, rowEntries_stored hc (Nat.le_refl _) hfits alpha beta hrow, merged,
    sum_map_collect, List.map_append, List.sum_append, hterms, hterms,
    ← ha.hasRoom.denseEntry_eq hrow, ← hb.hasRoom.denseEntry_eq (hrows ▸ hrow)]
  intro c u v
  split <;> simp

end Ring

end Addition

end SparseDevice
