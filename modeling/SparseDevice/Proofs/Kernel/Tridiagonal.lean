import SparseDevice.Kernel.Tridiagonal
import SparseDevice.Proofs.Kernel.Product

/-!
# Tridiagonal systems within their operands

The systems lie in their operand like the columns of a dense matrix, so the space of a dense matrix
is what the operand has to offer. A system has as many equations as its windows have cells, and a
solution has one unknown for each equation: what is written back is as long as what was read.

Besides the operands there is the room for the solutions. It is asked for at once, and whether it is
granted depends on nothing but the number of systems.

## Main results

* `Tridiagonal.length_solve`: a solution has one unknown for each equation.
* `Tridiagonal.solveColumns_ok`, `Tridiagonal.solveBatch_ok`: the solvers do not trap if there is
  room for the solutions.
* `Tridiagonal.solveAll_noRoom`: they do if there is not.
-/

namespace SparseDevice

namespace Tridiagonal

variable {α : Type}

/-! ### The length of a solution -/

theorem length_equations {lower diagonal upper rhs : List α} {m : Nat} (hl : lower.length = m)
    (hd : diagonal.length = m) (hu : upper.length = m) (hr : rhs.length = m) :
    (equations lower diagonal upper rhs).length = m := by
  induction m generalizing lower diagonal upper rhs with
  | zero =>
    rw [List.eq_nil_of_length_eq_zero hl, equations]
    · rfl
    · rintro l lower d diagonal u upper b rhs ⟨⟩
  | succ m ih =>
    obtain ⟨l, lower, rfl⟩ := List.exists_cons_of_length_eq_add_one hl
    obtain ⟨d, diagonal, rfl⟩ := List.exists_cons_of_length_eq_add_one hd
    obtain ⟨u, upper, rfl⟩ := List.exists_cons_of_length_eq_add_one hu
    obtain ⟨b, rhs, rfl⟩ := List.exists_cons_of_length_eq_add_one hr
    have hrest := ih (Nat.succ.inj hl) (Nat.succ.inj hd) (Nat.succ.inj hu) (Nat.succ.inj hr)
    rw [equations, List.length_cons, hrest]

theorem length_substitute [Sub α] [Mul α] (factor x : α) (xs : List α) :
    (substitute factor x xs).length = xs.length + 1 := by
  cases xs <;> rfl

section Solve

variable [Sub α] [Mul α] [Div α] [Scalar α]

theorem length_solveBelow {factor x : α} {eqs : List (Equation α)} {xs : List α}
    (h : solveBelow factor x eqs = some xs) : xs.length = eqs.length := by
  induction eqs generalizing factor x xs with
  | nil =>
    cases h
    rfl
  | cons e eqs ih =>
    simp only [solveBelow] at h
    split at h
    · cases h
    · obtain ⟨rest, hrest, rfl⟩ := Option.map_eq_some_iff.mp h
      rw [length_substitute, List.length_cons, ih hrest]

/-- A solution has one unknown for each equation. -/
theorem length_solve {eqs : List (Equation α)} {xs : List α} (h : solve eqs = some xs) :
    xs.length = eqs.length := by
  cases eqs with
  | nil =>
    cases h
    rfl
  | cons e eqs =>
    simp only [solve] at h
    split at h
    · cases h
    · obtain ⟨rest, hrest, rfl⟩ := Option.map_eq_some_iff.mp h
      rw [length_substitute, List.length_cons, length_solveBelow hrest]

end Solve

/-! ### A system among others -/

section Cut

/-- The equations of a system, cut out of the operands: the coefficients start at `place` and the
right hand side starts at `start`. -/
def cut (m : Nat) (lower diagonal upper b : List α) (place start : Nat) : List (Equation α) :=
  equations ((lower.drop place).take m) ((diagonal.drop place).take m) ((upper.drop place).take m)
    ((b.drop start).take m)

/-- What both solvers do with a system: it is read out of the operands and solved. -/
def solveAt [Sub α] [Mul α] [Div α] [Scalar α] (m : Nat) (lower diagonal upper b : List α)
    (place start : Nat) : Except Trap (Option (List α)) := do
  let rhs ← Buffer.window b start m
  let lower ← Buffer.window lower place m
  let diagonal ← Buffer.window diagonal place m
  let upper ← Buffer.window upper place m
  return solve (equations lower diagonal upper rhs)

variable {m count stride : Nat} {place : Nat → Nat} {lower diagonal upper b : List α}

/-- Each of `count` systems lies within its operands; `place` is where its coefficients start. -/
structure Placed (m count stride : Nat) (place : Nat → Nat) (lower diagonal upper b : List α) :
    Prop where
  lower : ∀ i, i < count → place i + m ≤ lower.length
  diagonal : ∀ i, i < count → place i + m ≤ diagonal.length
  upper : ∀ i, i < count → place i + m ≤ upper.length
  rhs : ∀ i, i < count → i * stride + m ≤ b.length

/-- Systems that share their coefficients. -/
theorem placed_columns {ldb : Nat} (hm : m ≠ 0) (hl : lower.length = m) (hd : diagonal.length = m)
    (hu : upper.length = m) (hb : denseLength m count ldb ≤ b.length) :
    Placed m count ldb (fun _ => 0) lower diagonal upper b where
  lower _ _ := by omega
  diagonal _ _ := by omega
  upper _ _ := by omega
  rhs _ hi := Nat.le_trans (le_denseLength hm hi) hb

/-- Systems with coefficients of their own. -/
theorem placed_batch (hm : m ≠ 0) (hl : denseLength m count stride ≤ lower.length)
    (hd : denseLength m count stride ≤ diagonal.length)
    (hu : denseLength m count stride ≤ upper.length) (hb : denseLength m count stride ≤ b.length) :
    Placed m count stride (fun i => i * stride) lower diagonal upper b where
  lower _ hi := Nat.le_trans (le_denseLength hm hi) hl
  diagonal _ hi := Nat.le_trans (le_denseLength hm hi) hd
  upper _ hi := Nat.le_trans (le_denseLength hm hi) hu
  rhs _ hi := Nat.le_trans (le_denseLength hm hi) hb

namespace Placed

variable (h : Placed m count stride place lower diagonal upper b) {i : Nat} (hi : i < count)

include h hi

theorem length_cut : (cut m lower diagonal upper b (place i) (i * stride)).length = m :=
  length_equations (Buffer.length_window (h.lower i hi)) (Buffer.length_window (h.diagonal i hi))
    (Buffer.length_window (h.upper i hi)) (Buffer.length_window (h.rhs i hi))

variable [Sub α] [Mul α] [Div α] [Scalar α]

/-- A system that is read within its operands. -/
theorem solveAt_eq : solveAt m lower diagonal upper b (place i) (i * stride) =
    .ok (solve (cut m lower diagonal upper b (place i) (i * stride))) := by
  rw [solveAt, Buffer.window_eq_ok (h.rhs i hi), Buffer.window_eq_ok (h.lower i hi),
    Buffer.window_eq_ok (h.diagonal i hi), Buffer.window_eq_ok (h.upper i hi)]
  rfl

theorem length_of_solve {x : List α}
    (hx : solve (cut m lower diagonal upper b (place i) (i * stride)) = some x) : x.length = m :=
  (length_solve hx).trans (h.length_cut hi)

end Placed

end Cut

/-! ### All systems -/

/-- Solving succeeds if each system can be read, and every solution is as long as the others. -/
theorem solutions_ok {system : Nat → Except Trap (Option (List α))} {start count m : Nat}
    (h : ∀ i, start ≤ i → i < start + count →
      ∃ x, system i = .ok x ∧ ∀ xs, x = some xs → xs.length = m) :
    ∃ solved, solutions system start count = .ok solved ∧ ∀ xs, solved = some xs →
      xs.length = count ∧ ∀ x ∈ xs, x.length = m := by
  induction count generalizing start with
  | zero =>
    refine ⟨some [], rfl, ?_⟩
    intro xs hxs
    cases hxs
    exact ⟨rfl, fun x hx => nomatch hx⟩
  | succ count ih =>
    obtain ⟨first, hfirst, hlength⟩ := h start (Nat.le_refl _) (by omega)
    obtain ⟨rest, hrest, hlengths⟩ := @ih (start + 1) fun i hi hlt => h i (by omega) (by omega)
    rw [solutions, hfirst]
    cases first with
    | none => exact ⟨none, rfl, fun xs hxs => nomatch hxs⟩
    | some x =>
      refine ⟨rest.map (x :: ·), ?_, fun xs hxs => ?_⟩
      · simp only [ok_bind, hrest, pure_eq_ok]
      · obtain ⟨others, hothers, rfl⟩ := Option.map_eq_some_iff.mp hxs
        obtain ⟨hcount, hall⟩ := hlengths others hothers
        refine ⟨congrArg (· + 1) hcount, ?_⟩
        intro y hy
        rcases List.mem_cons.mp hy with rfl | hy
        · exact hlength y rfl
        · exact hall y hy

/-- Solutions that fit the operand are written over as many cells. -/
theorem length_commit {stride : Nat} {solved : List (List α)} {b : List α}
    (h : ∀ i x, solved[i]? = some x → i * stride + x.length ≤ b.length) :
    (commit stride solved b).length = b.length := by
  have hfold : ∀ (placed : List (List α × Nat)) (out : List α), out.length = b.length →
      (∀ p ∈ placed, p.2 * stride + p.1.length ≤ b.length) →
      (placed.foldl (fun b p => Buffer.splice b (p.2 * stride) p.1) out).length = b.length := by
    intro placed
    induction placed with
    | nil => exact fun out hout _ => hout
    | cons p placed ih =>
      intro out hout hp
      have hfits : p.2 * stride + p.1.length ≤ out.length := by
        rw [hout]
        exact hp p List.mem_cons_self
      exact ih _ ((Buffer.length_splice hfits).trans hout) fun q hq =>
        hp q (List.mem_cons_of_mem p hq)
  exact hfold _ b rfl fun p hp => h p.2 p.1 (List.mk_mem_zipIdx_iff_getElem?.mp hp)

variable {system : Nat → Except Trap (Option (List α))} {count stride m : Nat} {b : List α}

/-- Room for the solutions is granted, the systems can be read and their solutions fit. -/
theorem solveAll_ok (hm : m ≠ 0) (hroom : count * Buffer.listBytes ≤ Buffer.maxBytes)
    (hb : denseLength m count stride ≤ b.length)
    (h : ∀ i, i < count → ∃ x, system i = .ok x ∧ ∀ xs, x = some xs → xs.length = m) :
    ∃ status out, solveAll system count stride b = .ok (status, out) ∧ out.length = b.length := by
  obtain ⟨solved, hsolved, hlengths⟩ := @solutions_ok _ system 0 count m
    fun i _ hi => h i (by omega)
  rw [solveAll, Buffer.reserve_eq_ok hroom, ok_bind, hsolved, ok_bind]
  cases solved with
  | none => exact ⟨_, b, rfl, rfl⟩
  | some xs =>
    obtain ⟨hcount, hall⟩ := hlengths xs rfl
    refine ⟨_, _, rfl, length_commit ?_⟩
    intro i x hx
    obtain ⟨hi, rfl⟩ := List.getElem?_eq_some_iff.mp hx
    rw [hall _ (List.getElem_mem hi)]
    exact Nat.le_trans (le_denseLength hm (by omega)) hb

/-- Without room for the solutions no system is looked at. -/
theorem solveAll_noRoom (h : Buffer.maxBytes < count * Buffer.listBytes) :
    solveAll system count stride b = .error .capacityOverflow := by
  rw [solveAll, Buffer.reserve_eq_error h]
  rfl

/-! ### The two solvers -/

section Solvers

variable [Sub α] [Mul α] [Div α] [Scalar α] {n ldb : Nat} {lower diagonal upper x : List α}

theorem solveColumns_ok (hl : lower.length = m) (hd : diagonal.length = m) (hu : upper.length = m)
    (hb : denseLength m n ldb ≤ b.length)
    (hroom : m = 0 ∨ n * Buffer.listBytes ≤ Buffer.maxBytes) :
    ∃ status out, solveColumns m n lower diagonal upper b ldb = .ok (status, out) ∧
      out.length = b.length := by
  rw [solveColumns]
  split
  · exact ⟨_, b, rfl, rfl⟩
  · next hm =>
    have hplaced := placed_columns hm hl hd hu hb
    exact solveAll_ok hm (hroom.resolve_left hm) hb fun j hj =>
      ⟨_, hplaced.solveAt_eq hj, fun _ hx => hplaced.length_of_solve hj hx⟩

theorem solveBatch_ok (hl : denseLength m count stride ≤ lower.length)
    (hd : denseLength m count stride ≤ diagonal.length)
    (hu : denseLength m count stride ≤ upper.length) (hx : denseLength m count stride ≤ x.length)
    (hroom : m = 0 ∨ count * Buffer.listBytes ≤ Buffer.maxBytes) :
    ∃ status out, solveBatch m lower diagonal upper x count stride = .ok (status, out) ∧
      out.length = x.length := by
  rw [solveBatch]
  split
  · exact ⟨_, x, rfl, rfl⟩
  · next hm =>
    have hplaced := placed_batch hm hl hd hu hx
    exact solveAll_ok hm (hroom.resolve_left hm) hx fun i hi =>
      ⟨_, hplaced.solveAt_eq hi, fun _ hx => hplaced.length_of_solve hi hx⟩

end Solvers

end Tridiagonal

end SparseDevice
