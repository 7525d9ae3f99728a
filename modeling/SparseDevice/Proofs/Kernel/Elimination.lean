import Mathlib.Algebra.Field.Basic
import Mathlib.Tactic.LinearCombination
import SparseDevice.Proofs.Kernel.Systems

/-!
# Elimination in exact arithmetic

Over a field in which the zero test finds zero only, elimination without pivoting is a matter of two
invariants. Going down, an equation that has lost its lower term and was divided by its pivot reads
`X i + factor * X (i + 1) = x`; so the equations below it are those of a shorter system, in which the
unknown in front is `x - factor * X (i + 1)`. That determines the unknowns one by one, and therefore
what is found is *the* solution.

The pivot of an equation is the quotient of two neighbouring leading minors. As long as no minor
vanishes there is a next pivot, and the first minor that does vanish is the first pivot that does. The
right hand side has no part in it.

The first lower and the last upper coefficient are not part of a system. An unknown that is not there
is read as zero, so that the two terms drop out of the equations by themselves.

## Main definitions

* `Band`: the coefficients of a system, by the numbers of its equations.
* `Band.Solves`, `Band.OnlySolution`: solutions of a system.
* `Band.minor`: the leading minors of its matrix.

## Main results

* `Band.solve_onlySolution`: what is found is the only solution.
* `Band.solve_eq_none_iff`: nothing is found exactly if a leading minor vanishes.
* `Tridiagonal.solveColumns_onlySolution`, `Tridiagonal.solveBatch_onlySolution`: what the solvers
  write.
* `Tridiagonal.solveColumns_failed_iff`, `Tridiagonal.solveBatch_failed_iff`: when they fail.
-/

namespace SparseDevice

variable {K : Type}

/-- The cells of an operand from `start` on, by their numbers. -/
def Buffer.cells [Zero K] (xs : List K) (start i : Nat) : K := xs.getD (start + i) 0

/-- A range of cells, by their numbers. -/
theorem Buffer.window_eq_map [Zero K] {xs : List K} {start count : Nat}
    (h : start + count ≤ xs.length) :
    (xs.drop start).take count = (List.range count).map (cells xs start) := by
  refine window_eq_of_cells (by rw [List.length_map, List.length_range]) fun i hi => ?_
  have hcell : start + i < xs.length := by omega
  rw [List.getElem?_map, List.getElem?_range hi, Option.map_some, cells,
    List.getD_eq_getElem?_getD, List.getElem?_eq_getElem hcell, Option.getD_some]

/-- The coefficients of a tridiagonal system, by the numbers of its equations. -/
structure Band (K : Type) where
  lower : Nat → K
  diagonal : Nat → K
  upper : Nat → K

namespace Band

open Tridiagonal (Equation equations solve solveBelow substitute)

/-- The coefficients that start at `place` in three operands. -/
def read [Zero K] (lower diagonal upper : List K) (place : Nat) : Band K where
  lower := Buffer.cells lower place
  diagonal := Buffer.cells diagonal place
  upper := Buffer.cells upper place

/-- `x` solves the first `m` equations. The first of them has no lower term, and the last of them has
no upper term. -/
def Solves [Zero K] [Add K] [Mul K] (c : Band K) (m : Nat) (rhs x : Nat → K) : Prop :=
  ∀ i, i < m →
    (if i = 0 then 0 else c.lower i * x (i - 1)) + c.diagonal i * x i +
      (if i + 1 = m then 0 else c.upper i * x (i + 1)) = rhs i

/-- `x` is the one solution of the first `m` equations. -/
structure OnlySolution [Zero K] [Add K] [Mul K] (c : Band K) (m : Nat) (rhs x : Nat → K) : Prop where
  solves : c.Solves m rhs x
  unique : ∀ y, c.Solves m rhs y → ∀ i, i < m → y i = x i

/-- Without equations there is nothing to solve. -/
theorem onlySolution_of_eq_zero [Zero K] [Add K] [Mul K] {c : Band K} {m : Nat} (hm : m = 0)
    (rhs x : Nat → K) : c.OnlySolution m rhs x where
  solves i hi := by omega
  unique _ _ i hi := by omega

/-- The leading minors: each by expansion along its last row. -/
def minor [One K] [Sub K] [Mul K] (c : Band K) : Nat → K
  | 0 => 1
  | 1 => c.diagonal 0
  | k + 2 => c.diagonal (k + 1) * c.minor (k + 1) - c.lower (k + 1) * c.upper k * c.minor k

/-- Equation `i` of a system. -/
def equation (c : Band K) (rhs : Nat → K) (i : Nat) : Equation K :=
  ⟨c.lower i, c.diagonal i, c.upper i, rhs i⟩

/-! ### Unknowns and equations -/

section Fulfils

variable [Zero K] [Add K] [Mul K]

/-- The unknowns `xs` satisfy the equations, with one more unknown in front of them. -/
def Fulfils (before : K) (eqs : List (Equation K)) (xs : List K) : Prop :=
  xs.length = eqs.length ∧ ∀ i e, eqs[i]? = some e →
    e.lower * (before :: xs).getD i 0 + e.diagonal * xs.getD i 0 + e.upper * xs.getD (i + 1) 0 = e.rhs

theorem fulfils_nil {before : K} {xs : List K} : Fulfils before [] xs ↔ xs = [] := by
  constructor
  · rintro ⟨hlength, -⟩
    exact List.eq_nil_of_length_eq_zero hlength
  · rintro rfl
    exact ⟨rfl, fun i e he => by cases he⟩

theorem fulfils_cons {before x : K} {e : Equation K} {eqs : List (Equation K)} {xs : List K} :
    Fulfils before (e :: eqs) (x :: xs) ↔
      e.lower * before + e.diagonal * x + e.upper * xs.getD 0 0 = e.rhs ∧ Fulfils x eqs xs := by
  constructor
  · rintro ⟨hlength, hrows⟩
    exact ⟨hrows 0 e rfl, Nat.succ.inj hlength, fun i => hrows (i + 1)⟩
  · rintro ⟨hfirst, hlength, hrows⟩
    refine ⟨congrArg Nat.succ hlength, fun i e' he => ?_⟩
    cases i with
    | zero =>
      cases he
      exact hfirst
    | succ i => exact hrows i e' he

end Fulfils

section Field

variable [Field K]

/-- The unknowns in an array satisfy the equations of a system exactly if they solve it. -/
theorem fulfils_iff_solves (c : Band K) (m : Nat) (rhs x : Nat → K) :
    Fulfils 0 ((List.range m).map (c.equation rhs)) ((List.range m).map x) ↔ c.Solves m rhs x := by
  have hcell : ∀ i, ((List.range m).map x).getD i 0 = if i < m then x i else 0 := by
    intro i
    rw [List.getD_eq_getElem?_getD, List.getElem?_map]
    split
    · next hi => rw [List.getElem?_range hi]; rfl
    · next hi => rw [List.getElem?_eq_none (by rw [List.length_range]; omega)]; rfl
  have hrow : ∀ i, i < m → ((c.equation rhs i).lower * (0 :: (List.range m).map x).getD i 0 +
      (c.equation rhs i).diagonal * ((List.range m).map x).getD i 0 +
        (c.equation rhs i).upper * ((List.range m).map x).getD (i + 1) 0 = (c.equation rhs i).rhs ↔
      (if i = 0 then 0 else c.lower i * x (i - 1)) + c.diagonal i * x i +
        (if i + 1 = m then 0 else c.upper i * x (i + 1)) = rhs i) := by
    intro i hi
    have hbefore : (0 :: (List.range m).map x).getD i 0 = if i = 0 then 0 else x (i - 1) := by
      cases i with
      | zero => rfl
      | succ i => rw [List.getD_cons_succ, hcell, if_pos (by omega), if_neg (by omega)]; rfl
    have hafter : (if i + 1 < m then x (i + 1) else 0) = if i + 1 = m then 0 else x (i + 1) := by
      by_cases hlast : i + 1 = m
      · rw [if_pos hlast, if_neg (by omega)]
      · rw [if_neg hlast, if_pos (by omega)]
    rw [hbefore, hcell, hcell, hafter, if_pos hi, mul_ite, mul_zero, mul_ite, mul_zero]
    exact Iff.rfl
  constructor
  · rintro ⟨-, hrows⟩ i hi
    refine (hrow i hi).mp (hrows i _ ?_)
    rw [List.getElem?_map, List.getElem?_range hi]
    rfl
  · intro h
    refine ⟨by rw [List.length_map, List.length_map], fun i e he => ?_⟩
    rw [List.getElem?_map] at he
    obtain ⟨k, hk, rfl⟩ := Option.map_eq_some_iff.mp he
    obtain ⟨hi, rfl⟩ := List.getElem?_eq_some_iff.mp hk
    rw [List.length_range] at hi
    rw [List.getElem_range]
    exact (hrow i hi).mpr (h i hi)

/-! ### The solution -/

theorem substitute_eq (factor x : K) (xs : List K) :
    substitute factor x xs = (x - factor * xs.getD 0 0) :: xs := by
  cases xs with
  | nil => simp [substitute]
  | cons next rest => rfl

/-- An equation, solved for its own unknown by means of the equation before it. -/
theorem equation_iff {e : Equation K} {factor x z next : K}
    (hpivot : e.diagonal - e.lower * factor ≠ 0) :
    e.lower * (x - factor * z) + e.diagonal * z + e.upper * next = e.rhs ↔
      z = (e.rhs - e.lower * x) / (e.diagonal - e.lower * factor) -
        e.upper / (e.diagonal - e.lower * factor) * next := by
  rw [div_mul_eq_mul_div, ← sub_div, eq_div_iff hpivot]
  constructor
  · intro h
    linear_combination h
  · intro h
    linear_combination h

variable [Scalar K]

/-- The first equation is like any other, with an unknown in front of it that is zero. -/
theorem solve_eq_solveBelow (eqs : List (Equation K)) : solve eqs = solveBelow 0 0 eqs := by
  cases eqs with
  | nil => rfl
  | cons e eqs => simp only [solve, solveBelow, mul_zero, sub_zero]

/-- What is found below an equation is what satisfies the equations there. -/
theorem fulfils_iff_of_solveBelow (hexact : Scalar.Exact K) {eqs : List (Equation K)}
    {factor x : K} {xs : List K} (h : solveBelow factor x eqs = some xs) (zs : List K) :
    Fulfils (x - factor * zs.getD 0 0) eqs zs ↔ zs = xs := by
  induction eqs generalizing factor x xs zs with
  | nil =>
    cases h
    exact fulfils_nil
  | cons e eqs ih =>
    rw [solveBelow] at h
    split at h
    · cases h
    · next hpivot =>
      rw [hexact] at hpivot
      obtain ⟨ys, hys, rfl⟩ := Option.map_eq_some_iff.mp h
      rw [substitute_eq]
      cases zs with
      | nil =>
        constructor
        · rintro ⟨hlength, -⟩
          cases hlength
        · intro hnil
          cases hnil
      | cons z zs =>
        rw [fulfils_cons, List.getD_cons_zero, equation_iff hpivot, List.cons.injEq]
        constructor
        · rintro ⟨rfl, hrest⟩
          obtain rfl := (ih hys zs).mp hrest
          exact ⟨rfl, rfl⟩
        · rintro ⟨rfl, rfl⟩
          exact ⟨rfl, (ih hys _).mpr rfl⟩

/-- **What is found is the only solution.** -/
theorem solve_onlySolution (hexact : Scalar.Exact K) (c : Band K) {m : Nat} {rhs x : Nat → K}
    (h : solve ((List.range m).map (c.equation rhs)) = some ((List.range m).map x)) :
    c.OnlySolution m rhs x := by
  have hiff : ∀ y, c.Solves m rhs y ↔ (List.range m).map y = (List.range m).map x := by
    intro y
    rw [solve_eq_solveBelow] at h
    have hfulfils := fulfils_iff_of_solveBelow hexact h ((List.range m).map y)
    rwa [zero_mul, sub_zero, fulfils_iff_solves] at hfulfils
  refine ⟨(hiff x).mpr rfl, fun y hy i hi => ?_⟩
  exact List.map_inj_left.mp ((hiff y).mp hy) i (List.mem_range.mpr hi)

/-! ### The minors -/

theorem solveBelow_cons_eq_none_iff (hexact : Scalar.Exact K) {e : Equation K}
    {eqs : List (Equation K)} {factor x : K} :
    solveBelow factor x (e :: eqs) = none ↔ e.diagonal - e.lower * factor = 0 ∨
      solveBelow (e.upper / (e.diagonal - e.lower * factor))
        ((e.rhs - e.lower * x) / (e.diagonal - e.lower * factor)) eqs = none := by
  rw [solveBelow]
  by_cases hzero : e.diagonal - e.lower * factor = 0
  · rw [if_pos ((hexact _).mpr hzero)]
    exact iff_of_true rfl (.inl hzero)
  · rw [if_neg (mt (hexact _).mp hzero), Option.map_eq_none_iff, or_iff_right hzero]

/-- A search that may skip its first number. -/
theorem exists_lt_iff_of_not {p : Nat → Prop} {first last : Nat} (h : ¬p first) :
    (∃ k, first < k ∧ k ≤ last ∧ p k) ↔ ∃ k, first ≤ k ∧ k ≤ last ∧ p k := by
  constructor
  · rintro ⟨k, hlt, hle, hk⟩
    exact ⟨k, Nat.le_of_lt hlt, hle, hk⟩
  · rintro ⟨k, hfirst, hle, hk⟩
    have hne : first ≠ k := by
      rintro rfl
      exact h hk
    exact ⟨k, Nat.lt_of_le_of_ne hfirst hne, hle, hk⟩

/-- The pivot of an equation is the quotient of two leading minors. So the equations below one with a
minor that is not zero have no solution exactly if a later minor vanishes. -/
theorem solveBelow_eq_none_iff (hexact : Scalar.Exact K) (c : Band K) (rhs : Nat → K)
    {start count m : Nat} (hm : start + 1 + count = m) {factor x : K}
    (hminor : c.minor (start + 1) ≠ 0)
    (hfactor : factor * c.minor (start + 1) = c.upper start * c.minor start) :
    solveBelow factor x ((List.range' (start + 1) count).map (c.equation rhs)) = none ↔
      ∃ k, start + 1 < k ∧ k ≤ m ∧ c.minor k = 0 := by
  induction count generalizing start factor x with
  | zero =>
    constructor
    · intro h
      cases h
    · rintro ⟨k, hlt, hle, -⟩
      omega
  | succ count ih =>
    rw [List.range'_succ, List.map_cons, solveBelow_cons_eq_none_iff hexact]
    simp only [equation]
    generalize hp : c.diagonal (start + 1) - c.lower (start + 1) * factor = pivot
    have hpivot : pivot * c.minor (start + 1) = c.minor (start + 2) := by
      rw [minor]
      linear_combination -c.minor (start + 1) * hp - c.lower (start + 1) * hfactor
    by_cases hzero : pivot = 0
    · rw [hzero, zero_mul] at hpivot
      exact iff_of_true (.inl hzero) ⟨start + 2, by omega, by omega, hpivot.symm⟩
    · have hnext : c.minor (start + 2) ≠ 0 := hpivot ▸ mul_ne_zero hzero hminor
      have hfactor' : c.upper (start + 1) / pivot * c.minor (start + 2) =
          c.upper (start + 1) * c.minor (start + 1) := by
        rw [← hpivot, ← mul_assoc, div_mul_cancel₀ _ hzero]
      rw [or_iff_right hzero, ih (by omega) hnext hfactor']
      exact exists_lt_iff_of_not hnext

/-- **Nothing is found exactly if a leading minor vanishes.** -/
theorem solve_eq_none_iff (hexact : Scalar.Exact K) (c : Band K) (m : Nat) (rhs : Nat → K) :
    solve ((List.range m).map (c.equation rhs)) = none ↔ ∃ k, 1 ≤ k ∧ k ≤ m ∧ c.minor k = 0 := by
  cases m with
  | zero =>
    constructor
    · intro h
      cases h
    · rintro ⟨k, hlt, hle, -⟩
      omega
  | succ m =>
    rw [solve_eq_solveBelow, List.range_eq_range', List.range'_succ, List.map_cons,
      solveBelow_cons_eq_none_iff hexact, mul_zero, sub_zero]
    simp only [equation]
    by_cases hzero : c.diagonal 0 = 0
    · exact iff_of_true (.inl hzero) ⟨1, by omega, by omega, hzero⟩
    · have hminor : c.minor (0 + 1) ≠ 0 := hzero
      have hfactor : c.upper 0 / c.diagonal 0 * c.minor (0 + 1) = c.upper 0 * c.minor 0 := by
        rw [minor, minor, div_mul_cancel₀ _ hzero, mul_one]
      rw [or_iff_right hzero,
        solveBelow_eq_none_iff hexact c rhs (Nat.add_comm (0 + 1) m) hminor hfactor]
      exact exists_lt_iff_of_not hminor

end Field

end Band

/-! ### The systems in an operand -/

namespace Tridiagonal

theorem equations_map (lower diagonal upper rhs : Nat → K) (numbers : List Nat) :
    equations (numbers.map lower) (numbers.map diagonal) (numbers.map upper) (numbers.map rhs) =
      numbers.map fun i => ⟨lower i, diagonal i, upper i, rhs i⟩ := by
  induction numbers with
  | nil => rfl
  | cons i numbers ih =>
    simp only [List.map_cons, equations]
    rw [ih]

variable {m count stride : Nat} {place : Nat → Nat} {lower diagonal upper b out : List K}

/-- The equations that are cut out of the operands are those with the coefficients found there. -/
theorem Placed.cut_eq [Zero K] (h : Placed m count stride place lower diagonal upper b) {i : Nat}
    (hi : i < count) : cut m lower diagonal upper b (place i) (i * stride) =
      (List.range m).map ((Band.read lower diagonal upper (place i)).equation
        (Buffer.cells b (i * stride))) := by
  rw [cut, Buffer.window_eq_map (h.lower i hi), Buffer.window_eq_map (h.diagonal i hi),
    Buffer.window_eq_map (h.upper i hi), Buffer.window_eq_map (h.rhs i hi), equations_map]
  rfl

section Field

variable [Field K] [Scalar K]

/-- Each system in an operand has the solution that is written, and no other. -/
theorem Placed.onlySolution (h : Placed m count stride place lower diagonal upper b)
    (hexact : Scalar.Exact K) (hm : m ≤ stride)
    (hsolve : solveAll (fun i => solveAt m lower diagonal upper b (place i) (i * stride)) count stride
      b = .ok (.ok (), out)) :
    out.length = b.length ∧ ∀ i, i < count →
      (Band.read lower diagonal upper (place i)).OnlySolution m (Buffer.cells b (i * stride))
        (Buffer.cells out (i * stride)) := by
  have hconfined := h.confined hm hsolve
  refine ⟨hconfined.length, fun i hi => ?_⟩
  have hsystem := hconfined.own i hi
  rw [h.cut_eq hi, Buffer.window_eq_map (hconfined.length.symm ▸ h.rhs i hi)] at hsystem
  exact Band.solve_onlySolution hexact _ hsystem

/-- The solvers fail exactly on account of a system with a leading minor that vanishes. -/
theorem Placed.failed_iff_minor (h : Placed m count stride place lower diagonal upper b)
    (hexact : Scalar.Exact K) {status : Except Status Unit}
    (hsolve : solveAll (fun i => solveAt m lower diagonal upper b (place i) (i * stride)) count stride
      b = .ok (status, out)) :
    status = .error .executionFailed ↔ ∃ i, i < count ∧ ∃ k, 1 ≤ k ∧ k ≤ m ∧
      (Band.read lower diagonal upper (place i)).minor k = 0 := by
  rw [h.failed_iff hsolve]
  refine exists_congr fun i => and_congr_right fun hi => ?_
  rw [h.cut_eq hi, Band.solve_eq_none_iff hexact]

/-! ### The two solvers -/

variable {n ldb : Nat} {x : List K}

theorem solveColumns_onlySolution (hexact : Scalar.Exact K) (hm : m ≤ ldb)
    (hlower : lower.length = m) (hdiagonal : diagonal.length = m) (hupper : upper.length = m)
    (hb : denseLength m n ldb ≤ b.length)
    (h : solveColumns m n lower diagonal upper b ldb = .ok (.ok (), out)) :
    out.length = b.length ∧ ∀ j, j < n → (Band.read lower diagonal upper 0).OnlySolution m
      (Buffer.cells b (j * ldb)) (Buffer.cells out (j * ldb)) := by
  rw [solveColumns] at h
  split at h
  · next hzero =>
    cases h
    exact ⟨rfl, fun j _ => Band.onlySolution_of_eq_zero hzero _ _⟩
  · next hne => exact (placed_columns hne hlower hdiagonal hupper hb).onlySolution hexact hm h

theorem solveBatch_onlySolution (hexact : Scalar.Exact K) (hm : m ≤ stride)
    (hlower : denseLength m count stride ≤ lower.length)
    (hdiagonal : denseLength m count stride ≤ diagonal.length)
    (hupper : denseLength m count stride ≤ upper.length)
    (hx : denseLength m count stride ≤ x.length)
    (h : solveBatch m lower diagonal upper x count stride = .ok (.ok (), out)) :
    out.length = x.length ∧ ∀ i, i < count →
      (Band.read lower diagonal upper (i * stride)).OnlySolution m
        (Buffer.cells x (i * stride)) (Buffer.cells out (i * stride)) := by
  rw [solveBatch] at h
  split at h
  · next hzero =>
    cases h
    exact ⟨rfl, fun i _ => Band.onlySolution_of_eq_zero hzero _ _⟩
  · next hne => exact (placed_batch hne hlower hdiagonal hupper hx).onlySolution hexact hm h

theorem solveColumns_failed_iff (hexact : Scalar.Exact K) (hlower : lower.length = m)
    (hdiagonal : diagonal.length = m) (hupper : upper.length = m)
    (hb : denseLength m n ldb ≤ b.length) {status : Except Status Unit}
    (h : solveColumns m n lower diagonal upper b ldb = .ok (status, out)) :
    status = .error .executionFailed ↔
      0 < n ∧ ∃ k, 1 ≤ k ∧ k ≤ m ∧ (Band.read lower diagonal upper 0).minor k = 0 := by
  rw [solveColumns] at h
  split at h
  · next hzero =>
    cases h
    constructor
    · intro hstatus
      cases hstatus
    · rintro ⟨-, k, hk, hle, -⟩
      omega
  · next hne =>
    refine ((placed_columns hne hlower hdiagonal hupper hb).failed_iff_minor hexact h).trans ?_
    constructor
    · rintro ⟨j, hj, hminor⟩
      exact ⟨Nat.zero_lt_of_lt hj, hminor⟩
    · rintro ⟨hn, hminor⟩
      exact ⟨0, hn, hminor⟩

theorem solveBatch_failed_iff (hexact : Scalar.Exact K)
    (hlower : denseLength m count stride ≤ lower.length)
    (hdiagonal : denseLength m count stride ≤ diagonal.length)
    (hupper : denseLength m count stride ≤ upper.length)
    (hx : denseLength m count stride ≤ x.length) {status : Except Status Unit}
    (h : solveBatch m lower diagonal upper x count stride = .ok (status, out)) :
    status = .error .executionFailed ↔ ∃ i, i < count ∧ ∃ k, 1 ≤ k ∧ k ≤ m ∧
      (Band.read lower diagonal upper (i * stride)).minor k = 0 := by
  rw [solveBatch] at h
  split at h
  · next hzero =>
    cases h
    constructor
    · intro hstatus
      cases hstatus
    · rintro ⟨-, -, k, hk, hle, -⟩
      omega
  · next hne => exact (placed_batch hne hlower hdiagonal hupper hx).failed_iff_minor hexact h

end Field

end Tridiagonal

end SparseDevice
