import SparseDevice.Kernel.Columns
import SparseDevice.Proofs.Kernel.Offsets

/-!
# Placing the entries of a matrix by columns

The entries of a sound matrix are placed in the order in which they are stored, so a sort in
progress is described by the list of entries before the next one. The next free cell of a column is
its rank plus the number of its entries that were placed. The entry that is placed there has not
been counted yet, so that cell lies below the rank of the following column, and no two columns get
into each other's way.

What was placed stays in its cell: the entries of a column stand from the rank of the column on, in
the order in which they came.

## Main definitions

* `Csr.triples`: the entries of a matrix with their rows and columns.
* `Csc.Placement.Placed`, `Csc.Placement.Filed`: a sort in progress, by the entries it has placed.
* `Csc.sorted`, `Csc.transposed`: the sorted entries, and the arrays that hold them.

## Main results

* `Csc.Placement.free_ne`: no cell is written again.
* `Csc.Placement.Filed.place`: one entry is placed.
* `Csc.eq_map_sorted`: an array in which all entries have been placed.
-/

namespace SparseDevice

namespace Csr

variable {α : Type} {a : Csr α}

theorem Valid.nnz_le (h : a.Valid) : a.nnz ≤ maxCount := h.offsets.total_le

/-- The entries of a row, each with its row and its column. -/
def rowTriples (a : Csr α) (row : Nat) : List (Int32 × Int32 × α) :=
  (a.rowEntries row).map fun entry => (Int32.ofNat row, entry)

/-- The entries of all rows, each with its row and its column. -/
def triples (a : Csr α) : List (Int32 × Int32 × α) := blocks a.rowTriples a.rows

/-- The number of the column of an entry. -/
def columnOf (t : Int32 × Int32 × α) : Nat := position t.2.1

theorem map_snd_rowTriples (a : Csr α) (row : Nat) :
    (a.rowTriples row).map (·.2) = a.rowEntries row := by
  rw [rowTriples, List.map_map]
  exact List.map_id _

theorem Valid.map_snd_triples (h : a.Valid) : a.triples.map (·.2) = a.entries := by
  rw [triples, map_blocks, h.entries_eq_blocks]
  exact blocks_congr fun row _ => a.map_snd_rowTriples row

end Csr

namespace Csc

variable {α : Type}

namespace Placement

/-- A sort in which the entries `before` have been placed. -/
structure Placed (a : Csr α) (before : List (Int32 × α)) (p : Placement α) : Prop where
  columns : p.next.length = a.cols
  next : Holds p.next fun j =>
    Offsets.rank a.colInd j + Offsets.tallied (before.map (·.1)) j
  rowInd : p.rowInd.length = a.nnz
  values : p.values.length = a.nnz

/-- The next free cell of a column after the entries `before` have been placed. -/
def free (a : Csr α) (before : List (Int32 × α)) (column : Nat) : Nat :=
  Offsets.rank a.colInd column + Offsets.tallied (before.map (·.1)) column

/-- An entry that is yet to be placed finds a free cell in its column. -/
theorem free_lt_rank {a : Csr α} (ha : a.Valid) {before later : List (Int32 × α)}
    {entry : Int32 × α} (hsplit : a.entries = before ++ entry :: later) :
    free a before (position entry.1) < Offsets.rank a.colInd (position entry.1 + 1) := by
  have hcolumns : a.colInd = before.map (·.1) ++ entry.1 :: later.map (·.1) := by
    rw [← ha.map_fst_entries, hsplit, List.map_append, List.map_cons]
  rw [free, Offsets.rank_succ, Nat.add_lt_add_iff_left]
  conv_rhs => rw [hcolumns]
  rw [Offsets.tallied_append, Offsets.tallied_cons, if_pos rfl]
  omega

theorem free_lt_nnz {a : Csr α} (ha : a.Valid) {before later : List (Int32 × α)}
    {entry : Int32 × α} (hsplit : a.entries = before ++ entry :: later) :
    free a before (position entry.1) < a.nnz := by
  rw [← ha.colInd]
  exact Nat.lt_of_lt_of_le (free_lt_rank ha hsplit) (Offsets.rank_le_length a.colInd _)

/-- Placing an entry writes the next free cell of its column, which is within the buffers. -/
theorem place_ok {a : Csr α} (ha : a.Valid) {before later : List (Int32 × α)} {entry : Int32 × α}
    {p : Placement α} (hsplit : a.entries = before ++ entry :: later) (hp : Placed a before p)
    (row : Nat) : ∃ p', place row p entry = .ok p' ∧ Placed a (before ++ [entry]) p' ∧
      p'.rowInd = p.rowInd.set (free a before (position entry.1)) (Int32.ofNat row) ∧
      p'.values = p.values.set (free a before (position entry.1)) entry.2 := by
  have hslot := free_lt_nnz ha hsplit
  have hcolumn : position entry.1 < p.next.length := by
    rw [hp.columns]
    exact (ha.inRange entry.1 (List.of_mem_zip (mem_of_split hsplit)).1).2
  obtain ⟨slot, hread, hslot'⟩ := hp.next.read hcolumn
  have hrowInd : position slot < p.rowInd.length := by
    rw [position_eq hslot', hp.rowInd]
    exact hslot
  have hvalues : position slot < p.values.length := by
    rw [position_eq hslot', hp.values]
    exact hslot
  have hcell : p.next[position entry.1].toInt = (free a before (position entry.1) : Int) :=
    hp.next _ _ (List.getElem?_eq_getElem hcolumn)
  obtain ⟨next, hadvance, hnext⟩ := advance_ok hcell Int32.toInt_one
    (Nat.le_trans hslot ha.nnz_le)
  have hupdate : Buffer.update p.next (position entry.1) (advance · 1) =
      .ok (p.next.set (position entry.1) next) := Buffer.update_eq_ok hcolumn hadvance
  refine ⟨⟨p.next.set (position entry.1) next, p.rowInd.set (position slot) (Int32.ofNat row),
    p.values.set (position slot) entry.2⟩, ?_, ⟨?_, ?_, ?_, ?_⟩, ?_, ?_⟩
  · rw [place, hread, ok_bind, Buffer.write_eq_ok hrowInd, ok_bind, Buffer.write_eq_ok hvalues,
      ok_bind, hupdate, ok_bind, pure_eq_ok]
  · rw [List.length_set, hp.columns]
  · refine (hp.next.set (position entry.1) hnext).congr ?_
    intro j _
    rw [free, List.map_append, List.map_singleton, Offsets.tallied_concat]
    split
    · next hj => rw [hj, Nat.add_assoc]
    · rfl
  · rw [List.length_set, hp.rowInd]
  · rw [List.length_set, hp.values]
  · rw [position_eq hslot']
    rfl
  · rw [position_eq hslot']
    rfl

/-- An array that holds what belongs to the entries `before`, each column in its order from its
first cell on. -/
def Filled (a : Csr α) (before : List (Int32 × Int32 × α)) {μ : Type} (get : Int32 × Int32 × α → μ)
    (xs : List μ) : Prop :=
  ∀ j k t, (bucket Csr.columnOf before j)[k]? = some t →
    xs[Offsets.rank a.colInd j + k]? = some (get t)

/-- How many entries of a column have been placed. -/
theorem tallied_columns (before : List (Int32 × Int32 × α)) (j : Nat) :
    Offsets.tallied ((before.map (·.2)).map (·.1)) j = (bucket Csr.columnOf before j).length := by
  rw [Offsets.tallied, List.countP_map, List.countP_map, List.countP_eq_length_filter]
  rfl

/-- The next free cell of a column is not a cell that has been written. -/
theorem free_ne {a : Csr α} (ha : a.Valid) {before later : List (Int32 × Int32 × α)}
    {t : Int32 × Int32 × α} (hentries : a.entries = before.map (·.2) ++ t.2 :: later.map (·.2))
    {j k : Nat} (hk : k < (bucket Csr.columnOf before j).length) :
    free a (before.map (·.2)) (Csr.columnOf t) ≠ Offsets.rank a.colInd j + k := by
  have hcolumns : a.colInd =
      (before.map (·.2)).map (·.1) ++ t.2.1 :: (later.map (·.2)).map (·.1) := by
    rw [← ha.map_fst_entries, hentries, List.map_append, List.map_cons]
  have hbelow : Offsets.rank a.colInd j + k < Offsets.rank a.colInd (j + 1) := by
    rw [Offsets.rank_succ, Nat.add_lt_add_iff_left]
    refine Nat.lt_of_lt_of_le hk ?_
    rw [← tallied_columns, hcolumns, Offsets.tallied_append]
    exact Nat.le_add_right _ _
  have hfree : free a (before.map (·.2)) (Csr.columnOf t) <
      Offsets.rank a.colInd (Csr.columnOf t + 1) := free_lt_rank ha hentries
  have hstart : free a (before.map (·.2)) (Csr.columnOf t) =
      Offsets.rank a.colInd (Csr.columnOf t) +
        (bucket Csr.columnOf before (Csr.columnOf t)).length := by
    rw [free, tallied_columns]
  rcases Nat.lt_trichotomy j (Csr.columnOf t) with hlt | heq | hgt
  · have hmono : Offsets.rank a.colInd (j + 1) ≤ Offsets.rank a.colInd (Csr.columnOf t) :=
      Offsets.rank_mono hlt
    omega
  · rw [heq] at hk ⊢
    omega
  · have hmono : Offsets.rank a.colInd (Csr.columnOf t + 1) ≤ Offsets.rank a.colInd j :=
      Offsets.rank_mono hgt
    omega

/-- Writing an entry into the next free cell of its column leaves the other entries alone. -/
theorem Filled.place {a : Csr α} (ha : a.Valid) {before later : List (Int32 × Int32 × α)}
    {t : Int32 × Int32 × α} (hentries : a.entries = before.map (·.2) ++ t.2 :: later.map (·.2))
    {μ : Type} {get : Int32 × Int32 × α → μ} {xs : List μ} (h : Filled a before get xs)
    (hlength : xs.length = a.nnz) :
    Filled a (before ++ [t]) get (xs.set (free a (before.map (·.2)) (Csr.columnOf t)) (get t)) := by
  have hcell : free a (before.map (·.2)) (Csr.columnOf t) < a.nnz := free_lt_nnz ha hentries
  intro j k t' ht'
  rw [bucket_append] at ht'
  rcases Nat.lt_or_ge k (bucket Csr.columnOf before j).length with hk | hk
  · rw [List.getElem?_append_left hk] at ht'
    rw [List.getElem?_set_ne (free_ne ha hentries hk)]
    exact h j k t' ht'
  · rw [List.getElem?_append_right hk] at ht'
    obtain ⟨ht, hj⟩ := mem_bucket.mp (List.mem_of_getElem? ht')
    obtain rfl := List.mem_singleton.mp ht
    have hlast := (List.getElem?_eq_some_iff.mp ht').1
    have hone : (bucket Csr.columnOf [t'] j).length ≤ 1 := List.length_filter_le ..
    have hfree : free a (before.map (·.2)) (Csr.columnOf t') = Offsets.rank a.colInd j + k := by
      rw [free, tallied_columns, hj]
      omega
    rw [← hfree, List.getElem?_set_self (by omega)]

/-- A sort in which the entries `before` have been placed, each in its cell. -/
structure Filed (a : Csr α) (before : List (Int32 × Int32 × α)) (p : Placement α) : Prop where
  placed : Placed a (before.map (·.2)) p
  rowInd : Filled a before (·.1) p.rowInd
  values : Filled a before (·.2.2) p.values

theorem Filed.place {a : Csr α} (ha : a.Valid) {before later : List (Int32 × Int32 × α)} {row : Nat}
    {entry : Int32 × α} {p : Placement α}
    (hsplit : a.triples = before ++ (Int32.ofNat row, entry) :: later) (hp : Filed a before p) :
    ∃ p', place row p entry = .ok p' ∧ Filed a (before ++ [(Int32.ofNat row, entry)]) p' := by
  have hentries : a.entries = before.map (·.2) ++ entry :: later.map (·.2) := by
    rw [← ha.map_snd_triples, hsplit, List.map_append, List.map_cons]
  obtain ⟨p', hp', hplaced, hrowInd, hvalues⟩ := place_ok ha hentries hp.placed row
  refine ⟨p', hp', by rwa [List.map_append], ?_, ?_⟩
  · rw [hrowInd]
    exact Filled.place (t := (Int32.ofNat row, entry)) ha hentries hp.rowInd hp.placed.rowInd
  · rw [hvalues]
    exact Filled.place (t := (Int32.ofNat row, entry)) ha hentries hp.values hp.placed.values

end Placement

/-! ### The sorted matrix -/

/-- The entries of a matrix column by column, each column in the order of the rows. -/
def sorted (a : Csr α) : List (Int32 × Int32 × α) := blocks (bucket Csr.columnOf a.triples) a.cols

/-- The arrays by columns, as the entries and their columns determine them. -/
def transposed (a : Csr α) : Csc α where
  values := (sorted a).map (·.2.2)
  rowInd := (sorted a).map (·.1)
  colPtr := Offsets.ranks a.colInd a.cols

theorem holds_transposed {a : Csr α} (ha : a.Valid) :
    Holds (transposed a).colPtr (Offsets.rank a.colInd) :=
  Offsets.holds_ranks (ha.colInd ▸ ha.nnz_le) a.cols

/-- A column ends where the next one starts. -/
theorem rank_add_length_column {a : Csr α} (ha : a.Valid) (j : Nat) :
    Offsets.rank a.colInd (j + 1) =
      Offsets.rank a.colInd j + (bucket Csr.columnOf a.triples j).length := by
  rw [Offsets.rank_succ, ← Placement.tallied_columns, ha.map_snd_triples, ha.map_fst_entries]

theorem rank_cols {a : Csr α} (ha : a.Valid) : Offsets.rank a.colInd a.cols = a.nnz := by
  rw [← ha.colInd]
  exact List.countP_eq_length.mpr fun i hi => decide_eq_true (ha.inRange i hi).2

theorem length_sorted {a : Csr α} (ha : a.Valid) : (sorted a).length = a.nnz := by
  rw [← rank_cols ha]
  exact length_blocks (Offsets.rank_zero a.colInd) fun j _ => rank_add_length_column ha j

theorem length_values_transposed {a : Csr α} (ha : a.Valid) :
    (transposed a).values.length = a.nnz := by
  rw [transposed, List.length_map, length_sorted ha]

theorem length_rowInd_transposed {a : Csr α} (ha : a.Valid) :
    (transposed a).rowInd.length = a.nnz := by
  rw [transposed, List.length_map, length_sorted ha]

theorem length_colPtr_transposed (a : Csr α) : (transposed a).colPtr.length = a.cols + 1 :=
  Offsets.length_ranks a.colInd a.cols

/-- A buffer in which all entries have been placed holds the sorted entries. -/
theorem eq_map_sorted {a : Csr α} (ha : a.Valid) {μ : Type} {get : Int32 × Int32 × α → μ}
    {xs : List μ} (h : Placement.Filled a a.triples get xs) (hlength : xs.length = a.nnz) :
    xs = (sorted a).map get :=
  eq_map_blocks (Offsets.rank_zero a.colInd) (fun j _ => rank_add_length_column ha j)
    (hlength.trans (rank_cols ha).symm) fun j k t _ ht => h j k t ht

end Csc

end SparseDevice
