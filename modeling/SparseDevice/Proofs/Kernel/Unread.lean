import SparseDevice.Proofs.Kernel.Requests
import SparseDevice.Proofs.Kernel.Systems

/-!
# Operands that are not read

Some cells of the operands are there for the sake of their layout only: what stands behind the last
cell that a matrix needs, what stands between the columns of a dense matrix, and the two ends of the
diagonals of a tridiagonal system, which belong to no equation. A product with a zero `beta` moreover
overwrites its output without a look at it.

For each routine, two calls that differ in such cells compute the same. Nothing here is due to a law
of arithmetic: a cell that is multiplied by zero has been read, and zero times NaN is NaN. The cells
in question do not occur in the result at all.

## Main definitions

* `denseColumns`: the columns of a dense matrix.
* `Tridiagonal.shown`: the status of a solver and the right hand sides as it leaves them.

## Main results

* `Product.take_written_congr`, `Product.denseColumns_written_congr`: what a product depends on.
* `Tridiagonal.solve_equations_congr`: what the solution of a system depends on.
* `Tridiagonal.solveColumns_congr`, `Tridiagonal.solveBatch_congr`: what a solver depends on.
-/

namespace SparseDevice

variable {α : Type}

/-! ### Cells in front of the others -/

/-- Cells in front of the others, read with a default. -/
theorem getD_eq_of_take_eq {x x₂ : List α} {n i : Nat} (h : x.take n = x₂.take n) (hi : i < n)
    (d : α) : x.getD i d = x₂.getD i d := by
  rw [List.getD_eq_getElem?_getD, List.getD_eq_getElem?_getD, ← List.getElem?_take_of_lt hi, h,
    List.getElem?_take_of_lt hi]

/-- The columns of a dense matrix. -/
def denseColumns (rows cols stride : Nat) (xs : List α) : List (List α) :=
  (List.range cols).map (denseColumn rows stride xs)

theorem denseColumns_congr {rows cols stride : Nat} {xs ys : List α}
    (h : ∀ j, j < cols → denseColumn rows stride xs j = denseColumn rows stride ys j) :
    denseColumns rows cols stride xs = denseColumns rows cols stride ys :=
  List.map_congr_left fun j hj => h j (List.mem_range.mp hj)

namespace Csr

/-- The entries of a column lie in the rows that were gone through. -/
theorem row_lt_of_mem_columnEntries {a : Csr α} {column n : Nat} {entry : Nat × α}
    (h : entry ∈ a.columnEntries column n) : entry.1 < n := by
  obtain ⟨row, hrow, hentry⟩ := mem_blocks.mp h
  obtain ⟨e, -, rfl⟩ := List.mem_map.mp hentry
  exact hrow

end Csr

/-! ### Products -/

namespace Product

section Sums

variable [Zero α] [Add α] [Mul α] {x x₂ : List α} {n : Nat}

theorem rowTotal_congr (hx : x.take n = x₂.take n) {entries : List (Int32 × α)}
    (h : ∀ entry ∈ entries, position entry.1 < n) : rowTotal x entries = rowTotal x₂ entries :=
  List.foldl_ext _ _ _ fun sum entry hentry => by
    rw [getD_eq_of_take_eq hx (h entry hentry)]

theorem received_congr (hx : x.take n = x₂.take n) {entries : List (Nat × α)}
    (h : ∀ entry ∈ entries, entry.1 < n) (value : α → α) (alpha v : α) :
    received value alpha x entries v = received value alpha x₂ entries v :=
  List.foldl_ext _ _ _ fun v entry hentry => by
    rw [getD_eq_of_take_eq hx (h entry hentry)]

end Sums

/-- A zero `beta` does not look at the cell. -/
theorem scale_congr [Zero α] [Mul α] [Scalar α] {beta v v₂ : α}
    (hv : Scalar.isZero beta = false → v = v₂) : scale beta v = scale beta v₂ := by
  rw [scale, scale]
  split
  · rfl
  · next hbeta => rw [hv (Bool.eq_false_iff.mpr hbeta)]

variable [Zero α] [Add α] [Mul α] [Scalar α] {op : Operation} {beta : α} {a : Csr α}
  {x x₂ y y₂ : List α}

/-- A cell of the output is made of the cells of `x` at the columns of the product. -/
theorem cell_congr (ha : a.Valid) (hx : x.take (a.shape op).2 = x₂.take (a.shape op).2) {v v₂ : α}
    (hv : Scalar.isZero beta = false → v = v₂) (alpha : α) (i : Nat) :
    cell op alpha a x beta i v = cell op alpha a x₂ beta i v₂ := by
  cases op with
  | nonTranspose =>
    have hcolumns : ∀ entry ∈ a.rowEntries i, position entry.1 < a.cols :=
      fun entry hentry => ha.column_lt hentry
    rw [cell, cell, scale_congr hv, rowTotal_congr hx hcolumns]
  | transpose =>
    rw [cell, cell, scale_congr hv,
      received_congr (n := a.rows) hx fun _ hentry => Csr.row_lt_of_mem_columnEntries hentry]
  | conjugateTranspose =>
    rw [cell, cell, scale_congr hv,
      received_congr (n := a.rows) hx fun _ hentry => Csr.row_lt_of_mem_columnEntries hentry]

/-- **The result of a product with a vector** depends on the cells of `x` at its columns and, unless
`beta` is zero, on the cells of `y` at its rows. -/
theorem take_written_congr (ha : a.Valid) (hx : x.take (a.shape op).2 = x₂.take (a.shape op).2)
    (hlength : (a.shape op).1 ≤ y.length) (hlength₂ : (a.shape op).1 ≤ y₂.length)
    (hy : Scalar.isZero beta = false → y.take (a.shape op).1 = y₂.take (a.shape op).1) (alpha : α) :
    (written op alpha a x beta y).take (a.shape op).1 =
      (written op alpha a x₂ beta y₂).take (a.shape op).1 := by
  refine List.ext_getElem? fun i => ?_
  rcases Nat.lt_or_ge i (a.shape op).1 with hi | hi
  · have hcell : ∀ {y : List α}, (hy : (a.shape op).1 ≤ y.length) → y[i]? = some y[i] :=
      fun hy => List.getElem?_eq_getElem (Nat.lt_of_lt_of_le hi hy)
    have hv : Scalar.isZero beta = false → y[i] = y₂[i] := by
      intro hbeta
      have hsame := congrArg (fun y => y[i]?) (hy hbeta)
      simp only [List.getElem?_take_of_lt hi] at hsame
      rw [hcell hlength, hcell hlength₂] at hsame
      exact Option.some.inj hsame
    rw [List.getElem?_take_of_lt hi, List.getElem?_take_of_lt hi, written, written,
      List.getElem?_mapIdx, List.getElem?_mapIdx, hcell hlength, hcell hlength₂]
    simp only [Option.map_some, if_pos hi, cell_congr ha hx hv]
  · rw [List.getElem?_take_eq_none hi, List.getElem?_take_eq_none hi]

/-- The result of a product with a dense matrix depends on the columns of the two dense matrices. -/
theorem denseColumns_written_congr {alpha : α} {b b₂ c c₂ : List α} {n ldb ldc : Nat}
    (ha : a.Valid) (hstride : (a.shape op).1 ≤ ldc)
    (hb : ∀ j, j < n →
      denseColumn (a.shape op).2 ldb b j = denseColumn (a.shape op).2 ldb b₂ j)
    (hlength : denseLength (a.shape op).1 n ldc ≤ c.length)
    (hlength₂ : denseLength (a.shape op).1 n ldc ≤ c₂.length)
    (hc : Scalar.isZero beta = false → ∀ j, j < n →
      denseColumn (a.shape op).1 ldc c j = denseColumn (a.shape op).1 ldc c₂ j) :
    denseColumns (a.shape op).1 n ldc
        (writtenColumns op alpha a b ldb (List.range n) beta c ldc) =
      denseColumns (a.shape op).1 n ldc
        (writtenColumns op alpha a b₂ ldb (List.range n) beta c₂ ldc) := by
  refine denseColumns_congr fun j hj => ?_
  have hrows := length_denseColumn_of_lt hlength hj
  have hrows₂ := length_denseColumn_of_lt hlength₂ hj
  have hcolumn := take_written_congr ha (congrArg (List.take (a.shape op).2) (hb j hj))
    (Nat.le_of_eq hrows.symm) (Nat.le_of_eq hrows₂.symm)
    (fun hbeta => congrArg (List.take (a.shape op).1) (hc hbeta j hj)) alpha
  rw [List.take_of_length_le (Nat.le_of_eq ((length_written ..).trans hrows)),
    List.take_of_length_le (Nat.le_of_eq ((length_written ..).trans hrows₂))] at hcolumn
  rw [denseColumn_writtenColumns hstride (List.mem_range.mpr hj),
    denseColumn_writtenColumns hstride (List.mem_range.mpr hj), hcolumn]

end Product

/-! ### Tridiagonal systems -/

namespace Tridiagonal

theorem equations_nil_upper (lower diagonal rhs : List α) :
    equations lower diagonal [] rhs = [] := by
  cases lower <;> cases diagonal <;> rfl

section Ends

variable [Sub α] [Mul α] [Div α] [Scalar α]

/-- The unknowns from an equation on. The upper coefficient `u` of the last equation goes into a
factor that no unknown is multiplied by. -/
theorem substitute_solveBelow_congr {lower diagonal upper upper₂ rhs : List α} {u u₂ pivot x : α}
    (hlength : upper.length = upper₂.length)
    (hinit : (u :: upper).dropLast = (u₂ :: upper₂).dropLast) :
    (solveBelow (u / pivot) x (equations lower diagonal upper rhs)).map
        (substitute (u / pivot) x) =
      (solveBelow (u₂ / pivot) x (equations lower diagonal upper₂ rhs)).map
        (substitute (u₂ / pivot) x) := by
  induction upper generalizing lower diagonal upper₂ rhs u u₂ pivot x with
  | nil =>
    rw [List.eq_nil_of_length_eq_zero hlength.symm, equations_nil_upper]
    rfl
  | cons u' upper ih =>
    obtain ⟨u₂', upper₂, rfl⟩ := List.exists_cons_of_length_eq_add_one hlength.symm
    rw [List.dropLast_cons_cons, List.dropLast_cons_cons] at hinit
    obtain ⟨rfl, hlater⟩ := List.cons.inj hinit
    rcases lower with _ | ⟨l, lower⟩
    · rfl
    rcases diagonal with _ | ⟨d, diagonal⟩
    · rfl
    rcases rhs with _ | ⟨b, rhs⟩
    · rfl
    simp only [equations, solveBelow, ih (Nat.succ.inj hlength) hlater]

/-- **The ends of the diagonals have no part in the solution of a system.** -/
theorem solve_equations_congr {lower lower₂ diagonal upper upper₂ rhs : List α}
    (hlower : lower.length = lower₂.length) (htail : lower.tail = lower₂.tail)
    (hupper : upper.length = upper₂.length) (hinit : upper.dropLast = upper₂.dropLast) :
    solve (equations lower diagonal upper rhs) = solve (equations lower₂ diagonal upper₂ rhs) := by
  rcases lower with _ | ⟨l, lower⟩
  · rw [List.eq_nil_of_length_eq_zero hlower.symm]
    rfl
  obtain ⟨l₂, lower₂, rfl⟩ := List.exists_cons_of_length_eq_add_one hlower.symm
  rw [List.tail_cons, List.tail_cons] at htail
  subst htail
  rcases upper with _ | ⟨u, upper⟩
  · rw [List.eq_nil_of_length_eq_zero hupper.symm, equations_nil_upper, equations_nil_upper]
  obtain ⟨u₂, upper₂, rfl⟩ := List.exists_cons_of_length_eq_add_one hupper.symm
  rcases diagonal with _ | ⟨d, diagonal⟩
  · rfl
  rcases rhs with _ | ⟨b, rhs⟩
  · rfl
  simp only [equations, solve, substitute_solveBelow_congr (Nat.succ.inj hupper) hinit]

end Ends

/-! ### All systems -/

/-- What a call of a solver shows: its status, and the right hand sides as it leaves them. -/
def shown (m count stride : Nat) (answer : Except Status Unit × List α) :
    Except Status Unit × List (List α) :=
  (answer.1, denseColumns m count stride answer.2)

/-- Two outcomes with the same status are the same as far as `f` shows them, if `f` shows no
difference in what comes with it. -/
theorem map_congr_of_status {ε σ μ ν : Type} {r r₂ : Except ε (σ × μ)} {f : μ → ν}
    (hstatus : r.map Prod.fst = r₂.map Prod.fst)
    (h : ∀ s u u₂, r = .ok (s, u) → r₂ = .ok (s, u₂) → f u = f u₂) :
    r.map (fun p => (p.1, f p.2)) = r₂.map fun p => (p.1, f p.2) := by
  rcases r with t | ⟨s, u⟩
  · rcases r₂ with t₂ | ⟨s₂, u₂⟩ <;> cases hstatus
    rfl
  · rcases r₂ with t₂ | ⟨s₂, u₂⟩ <;> cases hstatus
    exact congrArg (fun v => Except.ok (s, v)) (h s u u₂ rfl rfl)

section All

variable {system system₂ : Nat → Except Trap (Option (List α))} {m count stride : Nat}
  {b b₂ : List α}

/-- The systems decide how a solver ends, whatever it writes over. -/
theorem solveAll_status_congr (h : ∀ i, i < count → system i = system₂ i) :
    (solveAll system count stride b).map Prod.fst =
      (solveAll system₂ count stride b₂).map Prod.fst := by
  rw [solveAll, solveAll, @solutions_congr _ system system₂ 0 count fun i _ hi => h i (by omega)]
  cases Buffer.reserve count Buffer.listBytes with
  | error t => rfl
  | ok u => rcases solutions system₂ 0 count with t | _ | solved <;> rfl

/-- A solver shows the same for the same systems, if the right hand sides are the same where it
leaves them as they are. -/
theorem solveAll_shown_congr (h : ∀ i, i < count → system i = system₂ i)
    (hsolved : ∀ out, solveAll system count stride b = .ok (.ok (), out) →
      ∀ i, i < count → system i = .ok (some (denseColumn m stride out i)))
    (hsolved₂ : ∀ out, solveAll system₂ count stride b₂ = .ok (.ok (), out) →
      ∀ i, i < count → system₂ i = .ok (some (denseColumn m stride out i)))
    (hb : ∀ i, i < count → denseColumn m stride b i = denseColumn m stride b₂ i) :
    (solveAll system count stride b).map (shown m count stride) =
      (solveAll system₂ count stride b₂).map (shown m count stride) := by
  refine map_congr_of_status (solveAll_status_congr h) fun status out out₂ hfirst hsecond => ?_
  cases status with
  | error status =>
    obtain ⟨-, rfl⟩ := solveAll_refused hfirst
    obtain ⟨-, rfl⟩ := solveAll_refused hsecond
    exact denseColumns_congr hb
  | ok =>
    refine denseColumns_congr fun i hi => ?_
    have hown := hsolved out hfirst i hi
    rw [h i hi, hsolved₂ out₂ hsecond i hi] at hown
    exact (Option.some.inj (Except.ok.inj hown)).symm

end All

variable [Sub α] [Mul α] [Div α] [Scalar α] {m count stride : Nat} {place : Nat → Nat}
  {lower diagonal upper b lower₂ diagonal₂ upper₂ b₂ : List α}

/-- A system without the ends of its diagonals. -/
theorem Placed.solve_cut_congr (h : Placed m count stride place lower diagonal upper b)
    (h₂ : Placed m count stride place lower₂ diagonal₂ upper₂ b₂) {i : Nat} (hi : i < count)
    (htail : ((lower.drop (place i)).take m).tail = ((lower₂.drop (place i)).take m).tail)
    (hdiagonal : (diagonal.drop (place i)).take m = (diagonal₂.drop (place i)).take m)
    (hinit : ((upper.drop (place i)).take m).dropLast = ((upper₂.drop (place i)).take m).dropLast)
    (hb : denseColumn m stride b i = denseColumn m stride b₂ i) :
    solve (cut m lower diagonal upper b (place i) (i * stride)) =
      solve (cut m lower₂ diagonal₂ upper₂ b₂ (place i) (i * stride)) := by
  rw [denseColumn, denseColumn] at hb
  rw [cut, cut, hdiagonal, hb]
  refine solve_equations_congr ?_ htail ?_ hinit
  · rw [Buffer.length_window (h.lower i hi), Buffer.length_window (h₂.lower i hi)]
  · rw [Buffer.length_window (h.upper i hi), Buffer.length_window (h₂.upper i hi)]

/-- What a solver shows depends on the solutions of the systems, and on the right hand sides where
one of them has none. -/
theorem Placed.solveAll_congr (h : Placed m count stride place lower diagonal upper b)
    (h₂ : Placed m count stride place lower₂ diagonal₂ upper₂ b₂) (hm : m ≤ stride)
    (hsolve : ∀ i, i < count → solve (cut m lower diagonal upper b (place i) (i * stride)) =
      solve (cut m lower₂ diagonal₂ upper₂ b₂ (place i) (i * stride)))
    (hb : ∀ i, i < count → denseColumn m stride b i = denseColumn m stride b₂ i) :
    (solveAll (fun i => solveAt m lower diagonal upper b (place i) (i * stride)) count stride b).map
        (shown m count stride) =
      (solveAll (fun i => solveAt m lower₂ diagonal₂ upper₂ b₂ (place i) (i * stride)) count stride
        b₂).map (shown m count stride) := by
  refine solveAll_shown_congr (fun i hi => ?_) (fun out hout i hi => ?_) (fun out hout i hi => ?_) hb
  · rw [h.solveAt_eq hi, h₂.solveAt_eq hi, hsolve i hi]
  · rw [h.solveAt_eq hi, (h.confined hm hout).own i hi]
    rfl
  · rw [h₂.solveAt_eq hi, (h₂.confined hm hout).own i hi]
    rfl

/-- **Systems that share their coefficients:** the ends of the diagonals and the cells between the
right hand sides are not read. -/
theorem solveColumns_congr {n ldb : Nat} (hm : m ≤ ldb) (hlower : lower.length = m)
    (hlower₂ : lower₂.length = m) (hdiagonal : diagonal.length = m) (hupper : upper.length = m)
    (hupper₂ : upper₂.length = m) (hlength : denseLength m n ldb ≤ b.length)
    (hlength₂ : denseLength m n ldb ≤ b₂.length) (htail : lower.tail = lower₂.tail)
    (hinit : upper.dropLast = upper₂.dropLast)
    (hb : ∀ j, j < n → denseColumn m ldb b j = denseColumn m ldb b₂ j) :
    (solveColumns m n lower diagonal upper b ldb).map (shown m n ldb) =
      (solveColumns m n lower₂ diagonal upper₂ b₂ ldb).map (shown m n ldb) := by
  rw [solveColumns, solveColumns]
  split
  · exact congrArg (fun xs => Except.ok (_, xs)) (denseColumns_congr hb)
  · next hne =>
    have hplaced := placed_columns hne hlower hdiagonal hupper hlength
    have hplaced₂ := placed_columns hne hlower₂ hdiagonal hupper₂ hlength₂
    have hall : ∀ {xs : List α}, xs.length = m → (xs.drop 0).take m = xs :=
      fun hxs => List.take_of_length_le (Nat.le_of_eq hxs)
    refine hplaced.solveAll_congr hplaced₂ hm (fun j hj => ?_) hb
    refine hplaced.solve_cut_congr hplaced₂ hj ?_ rfl ?_ (hb j hj)
    · rw [hall hlower, hall hlower₂, htail]
    · rw [hall hupper, hall hupper₂, hinit]

/-- **Systems with coefficients of their own:** the ends of the diagonals of each system and the
cells between the systems are not read. -/
theorem solveBatch_congr {x x₂ : List α} (hm : m ≤ stride)
    (hlower : denseLength m count stride ≤ lower.length)
    (hlower₂ : denseLength m count stride ≤ lower₂.length)
    (hdiagonal : denseLength m count stride ≤ diagonal.length)
    (hdiagonal₂ : denseLength m count stride ≤ diagonal₂.length)
    (hupper : denseLength m count stride ≤ upper.length)
    (hupper₂ : denseLength m count stride ≤ upper₂.length)
    (hlength : denseLength m count stride ≤ x.length)
    (hlength₂ : denseLength m count stride ≤ x₂.length)
    (htail : ∀ i, i < count →
      (denseColumn m stride lower i).tail = (denseColumn m stride lower₂ i).tail)
    (hsame : ∀ i, i < count → denseColumn m stride diagonal i = denseColumn m stride diagonal₂ i)
    (hinit : ∀ i, i < count →
      (denseColumn m stride upper i).dropLast = (denseColumn m stride upper₂ i).dropLast)
    (hx : ∀ i, i < count → denseColumn m stride x i = denseColumn m stride x₂ i) :
    (solveBatch m lower diagonal upper x count stride).map (shown m count stride) =
      (solveBatch m lower₂ diagonal₂ upper₂ x₂ count stride).map (shown m count stride) := by
  rw [solveBatch, solveBatch]
  split
  · exact congrArg (fun xs => Except.ok (_, xs)) (denseColumns_congr hx)
  · next hne =>
    have hplaced := placed_batch hne hlower hdiagonal hupper hlength
    have hplaced₂ := placed_batch hne hlower₂ hdiagonal₂ hupper₂ hlength₂
    refine hplaced.solveAll_congr hplaced₂ hm (fun i hi => ?_) hx
    exact hplaced.solve_cut_congr hplaced₂ hi (htail i hi) (hsame i hi) (hinit i hi) (hx i hi)

end Tridiagonal

end SparseDevice
