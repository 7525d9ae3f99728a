import Mathlib.Data.List.Induction
import SparseDevice.Proofs.Kernel.Tridiagonal

/-!
# Tridiagonal systems one by one

The two solvers differ in where they find the coefficients of a system, and in nothing else. Where
the operands of the one hold the same cells for each system as the operands of the other, both look
at the same systems, and so everything that follows is the same: which of them has no solution, what
is written, and whether there is room at all.

A system does not notice the others either. Its solution is written over its own right hand side,
and as the right hand sides do not overlap, it is still there when all of them are written.

## Main definitions

* `Tridiagonal.Repeats`: an operand that holds the same cells for each system.
* `Tridiagonal.Confined`: an operand in which each system holds its own solution and nothing else has
  changed.

## Main results

* `Tridiagonal.solveColumns_eq_solveBatch`: systems that share their coefficients, and the same
  systems with coefficients of their own.
* `Tridiagonal.getElem?_commit`, `Tridiagonal.getElem?_commit_of_outside`: what the cells hold when
  all solutions are written.
* `Tridiagonal.solveColumns_confined`, `Tridiagonal.solveBatch_confined`: what a success writes.
* `Tridiagonal.solveColumns_one_of_solveBatch`: a system among others and the system alone.
-/

namespace SparseDevice

namespace Buffer

variable {α : Type} {xs ys : List α} {start m : Nat}

/-- A range with the cells of `ys` is `ys`. -/
theorem window_eq_of_cells (hys : ys.length = m) (h : ∀ i, i < m → xs[start + i]? = ys[i]?) :
    (xs.drop start).take m = ys := by
  refine List.ext_getElem? fun i => ?_
  rcases Nat.lt_or_ge i m with hi | hi
  · rw [List.getElem?_take_of_lt hi, List.getElem?_drop]
    exact h i hi
  · rw [List.getElem?_take_eq_none hi, List.getElem?_eq_none (Nat.le_trans (Nat.le_of_eq hys) hi)]

/-- The range of all cells. -/
theorem window_self (hxs : xs.length = m) : window xs 0 m = .ok xs := by
  rw [window_eq_ok (by omega), List.drop_zero, ← hxs, List.take_length]

end Buffer

namespace Tridiagonal

variable {α : Type}

/-! ### The same systems -/

section Congruence

variable {system system' : Nat → Except Trap (Option (List α))} {start count stride : Nat}

theorem solutions_congr (h : ∀ i, start ≤ i → i < start + count → system i = system' i) :
    solutions system start count = solutions system' start count := by
  induction count generalizing start with
  | zero => rfl
  | succ count ih =>
    have hrest := @ih (start + 1) fun i hi hlt => h i (by omega) (by omega)
    rw [solutions, solutions, h start (Nat.le_refl _) (by omega), hrest]

theorem solveAll_congr {b : List α} (h : ∀ i, i < count → system i = system' i) :
    solveAll system count stride b = solveAll system' count stride b := by
  rw [solveAll, solveAll, @solutions_congr _ system system' 0 count fun i _ hi => h i (by omega)]

end Congruence

/-- An operand that holds the `m` cells of `shared` for each of `n` systems. -/
structure Repeats (own shared : List α) (m n stride : Nat) : Prop where
  length : denseLength m n stride ≤ own.length
  cell : ∀ j i, j < n → i < m → own[j * stride + i]? = shared[i]?

/-- What a system finds in such an operand. -/
theorem Repeats.window_eq {own shared : List α} {m n stride : Nat}
    (h : Repeats own shared m n stride) (hshared : shared.length = m) (hm : m ≠ 0) {j : Nat}
    (hj : j < n) : Buffer.window own (j * stride) m = Buffer.window shared 0 m := by
  have hown : j * stride + m ≤ own.length := Nat.le_trans (le_denseLength hm hj) h.length
  rw [Buffer.window_eq_ok hown, Buffer.window_self hshared]
  exact congrArg Except.ok (Buffer.window_eq_of_cells hshared fun i => h.cell j i hj)

section Solvers

variable [Sub α] [Mul α] [Div α] [Scalar α] {m n count stride ldb : Nat}
  {lower diagonal upper lower' diagonal' upper' b x : List α}

/-- Systems that share their coefficients are solved like systems with the same coefficients
each. -/
theorem solveColumns_eq_solveBatch (hlower : lower.length = m) (hdiagonal : diagonal.length = m)
    (hupper : upper.length = m) (hlower' : Repeats lower' lower m n ldb)
    (hdiagonal' : Repeats diagonal' diagonal m n ldb) (hupper' : Repeats upper' upper m n ldb) :
    solveColumns m n lower diagonal upper b ldb =
      solveBatch m lower' diagonal' upper' b n ldb := by
  rw [solveColumns, solveBatch]
  split
  · rfl
  · next hm =>
    refine solveAll_congr fun j hj => ?_
    rw [hlower'.window_eq hlower hm hj, hdiagonal'.window_eq hdiagonal hm hj,
      hupper'.window_eq hupper hm hj]

end Solvers

/-! ### What is written -/

theorem commit_concat (stride : Nat) (solved : List (List α)) (x b : List α) :
    commit stride (solved ++ [x]) b =
      Buffer.splice (commit stride solved b) (solved.length * stride) x := by
  rw [commit, List.zipIdx_append, List.foldl_append, commit, Nat.zero_add]
  rfl

/-- Solutions with one length, each of which fits the operand. -/
structure Fitting (m stride : Nat) (solved : List (List α)) (b : List α) : Prop where
  length : ∀ x ∈ solved, x.length = m
  fits : ∀ i, i < solved.length → i * stride + m ≤ b.length

namespace Fitting

variable {m stride : Nat} {solved : List (List α)} {last b : List α}

theorem length_commit (h : Fitting m stride solved b) :
    (commit stride solved b).length = b.length := by
  refine Tridiagonal.length_commit fun i x hx => ?_
  obtain ⟨hi, rfl⟩ := List.getElem?_eq_some_iff.mp hx
  rw [h.length _ (List.getElem_mem hi)]
  exact h.fits i hi

/-- The solutions before the last one, and the last one. -/
theorem of_concat (h : Fitting m stride (solved ++ [last]) b) : Fitting m stride solved b ∧
    last.length = m ∧ solved.length * stride + m ≤ b.length := by
  have hlength : (solved ++ [last]).length = solved.length + 1 := by simp
  refine ⟨⟨fun x hx => h.length x (List.mem_append_left _ hx), fun i hi => ?_⟩, ?_, ?_⟩
  · exact h.fits i (by omega)
  · exact h.length last (List.mem_append_right _ List.mem_cons_self)
  · exact h.fits solved.length (by omega)

end Fitting

/-- Each solution stands in the place of its right hand side, since solutions of at most `stride`
cells do not overlap. -/
theorem getElem?_commit {stride m : Nat} {solved : List (List α)} {b : List α} (hm : m ≤ stride)
    (h : Fitting m stride solved b) {i k : Nat} {x : List α} (hx : solved[i]? = some x)
    (hk : k < m) : (commit stride solved b)[i * stride + k]? = x[k]? := by
  induction solved using List.reverseRecOn with
  | nil => cases hx
  | append_singleton solved last ih =>
    obtain ⟨hbefore, hlast, hend⟩ := h.of_concat
    have hroom := hbefore.length_commit
    rw [commit_concat]
    rcases Nat.lt_or_ge i solved.length with hi | hi
    · -- the last solution starts behind this one
      have hnext : (i + 1) * stride ≤ solved.length * stride := Nat.mul_le_mul_right stride hi
      rw [Nat.add_mul, Nat.one_mul] at hnext
      rw [List.getElem?_append_left hi] at hx
      rw [Buffer.getElem?_splice_of_lt (by omega) (by omega)]
      exact ih hbefore hx
    · have hi' : i = solved.length := by
        have := (List.getElem?_eq_some_iff.mp hx).1
        rw [List.length_append, List.length_singleton] at this
        omega
      subst hi'
      rw [List.getElem?_concat_length] at hx
      cases hx
      exact Buffer.getElem?_splice_add (by omega) (by omega)

/-- A cell that belongs to no right hand side is left as it is. -/
theorem getElem?_commit_of_outside {stride m : Nat} {solved : List (List α)} {b : List α}
    (h : Fitting m stride solved b) {k : Nat}
    (hk : ∀ i, i < solved.length → ¬(i * stride ≤ k ∧ k < i * stride + m)) :
    (commit stride solved b)[k]? = b[k]? := by
  induction solved using List.reverseRecOn with
  | nil => rfl
  | append_singleton solved last ih =>
    obtain ⟨hbefore, hlast, hend⟩ := h.of_concat
    have hroom := hbefore.length_commit
    rw [List.length_append, List.length_singleton] at hk
    have hout := hk solved.length (Nat.lt_succ_self _)
    rw [commit_concat, ← ih hbefore fun i hi => hk i (Nat.lt_succ_of_lt hi)]
    rcases Nat.lt_or_ge k (solved.length * stride) with hlt | hge
    · exact Buffer.getElem?_splice_of_lt hlt (by omega)
    · exact Buffer.getElem?_splice_of_le (by omega) (by omega)

/-! ### A system alone -/

section Alone

variable {system : Nat → Except Trap (Option (List α))} {start count stride : Nat} {b out : List α}

/-- The solutions are the solutions of the systems. -/
theorem solutions_get {solved : List (List α)}
    (h : solutions system start count = .ok (some solved)) : solved.length = count ∧
      ∀ i, i < count → ∃ x, solved[i]? = some x ∧ system (start + i) = .ok (some x) := by
  induction count generalizing start solved with
  | zero =>
    cases h
    exact ⟨rfl, fun i hi => absurd hi (Nat.not_lt_zero i)⟩
  | succ count ih =>
    rw [solutions] at h
    obtain ⟨first, hfirst, h⟩ := bind_eq_ok_iff.mp h
    cases first with
    | none => cases h
    | some x =>
      obtain ⟨rest, hrest, h⟩ := bind_eq_ok_iff.mp h
      cases rest with
      | none => cases h
      | some others =>
        cases h
        obtain ⟨hlength, hothers⟩ := ih hrest
        refine ⟨congrArg (· + 1) hlength, fun i hi => ?_⟩
        cases i with
        | zero => exact ⟨x, rfl, hfirst⟩
        | succ i =>
          obtain ⟨y, hy, hsystem⟩ := hothers i (by omega)
          refine ⟨y, hy, ?_⟩
          rwa [Nat.add_right_comm, Nat.add_assoc] at hsystem

/-- A success is the commit of the solutions of all systems. -/
theorem solveAll_done (h : solveAll system count stride b = .ok (.ok (), out)) :
    ∃ solved, solutions system 0 count = .ok (some solved) ∧ out = commit stride solved b := by
  rw [solveAll] at h
  obtain ⟨⟨⟩, -, h⟩ := bind_eq_ok_iff.mp h
  obtain ⟨solved, hsolved, h⟩ := bind_eq_ok_iff.mp h
  cases solved with
  | none => cases h
  | some solved =>
    cases h
    exact ⟨solved, hsolved, rfl⟩

/-- A failure is that of a system without a solution, and writes nothing. -/
theorem solveAll_refused {status : Status}
    (h : solveAll system count stride b = .ok (.error status, out)) :
    status = .executionFailed ∧ out = b := by
  rw [solveAll] at h
  obtain ⟨⟨⟩, -, h⟩ := bind_eq_ok_iff.mp h
  obtain ⟨solved, hsolved, h⟩ := bind_eq_ok_iff.mp h
  cases solved with
  | none =>
    cases h
    exact ⟨rfl, rfl⟩
  | some solved => cases h

/-- A success writes over the right hand sides and nothing else, and holds the solution of each
system in the place of its right hand side. -/
theorem solveAll_written {m : Nat} (hm : m ≤ stride)
    (hfits : ∀ i, i < count → i * stride + m ≤ b.length)
    (hlength : ∀ i x, i < count → system i = .ok (some x) → x.length = m)
    (h : solveAll system count stride b = .ok (.ok (), out)) :
    out.length = b.length ∧
      (∀ k, (∀ i, i < count → ¬(i * stride ≤ k ∧ k < i * stride + m)) → out[k]? = b[k]?) ∧
      ∀ i, i < count → system i = .ok (some ((out.drop (i * stride)).take m)) := by
  obtain ⟨solved, hsolved, rfl⟩ := solveAll_done h
  obtain ⟨hcount, hget⟩ := solutions_get hsolved
  simp only [Nat.zero_add] at hget
  have hfitting : Fitting m stride solved b := by
    refine ⟨fun x hx => ?_, fun i hi => hfits i (hcount ▸ hi)⟩
    obtain ⟨i, hi⟩ := List.getElem?_of_mem hx
    have hlt : i < count := hcount ▸ (List.getElem?_eq_some_iff.mp hi).1
    obtain ⟨y, hy, hsystem⟩ := hget i hlt
    cases hi.symm.trans hy
    exact hlength i x hlt hsystem
  refine ⟨hfitting.length_commit, fun k hk => ?_, fun i hi => ?_⟩
  · exact getElem?_commit_of_outside hfitting fun i hi => hk i (hcount ▸ hi)
  · obtain ⟨x, hx, hsystem⟩ := hget i hi
    have hwritten : ((commit stride solved b).drop (i * stride)).take m = x :=
      Buffer.window_eq_of_cells (hfitting.length x (List.mem_of_getElem? hx)) fun k hk =>
        getElem?_commit hm hfitting hx hk
    rw [hwritten, hsystem]

/-- Where there is no list of solutions, one of the systems has none. -/
theorem exists_of_solutions_eq_none (h : solutions system start count = .ok none) :
    ∃ i, start ≤ i ∧ i < start + count ∧ system i = .ok none := by
  induction count generalizing start with
  | zero => cases h
  | succ count ih =>
    rw [solutions] at h
    obtain ⟨first, hfirst, h⟩ := bind_eq_ok_iff.mp h
    cases first with
    | none => exact ⟨start, Nat.le_refl _, by omega, hfirst⟩
    | some x =>
      obtain ⟨rest, hrest, h⟩ := bind_eq_ok_iff.mp h
      cases rest with
      | some others => cases h
      | none =>
        obtain ⟨i, hle, hlt, hi⟩ := ih hrest
        exact ⟨i, by omega, by omega, hi⟩

/-- The solvers fail exactly on account of a system without a solution. -/
theorem solveAll_failed_iff {status : Except Status Unit}
    (h : solveAll system count stride b = .ok (status, out)) :
    status = .error .executionFailed ↔ ∃ i, i < count ∧ system i = .ok none := by
  rw [solveAll] at h
  obtain ⟨⟨⟩, -, h⟩ := bind_eq_ok_iff.mp h
  obtain ⟨solved, hsolved, h⟩ := bind_eq_ok_iff.mp h
  cases solved with
  | none =>
    cases h
    obtain ⟨i, -, hlt, hi⟩ := exists_of_solutions_eq_none hsolved
    exact ⟨fun _ => ⟨i, by omega, hi⟩, fun _ => rfl⟩
  | some solved =>
    cases h
    constructor
    · intro h
      cases h
    · rintro ⟨i, hi, hnone⟩
      obtain ⟨x, -, hx⟩ := (solutions_get hsolved).2 i hi
      rw [Nat.zero_add, hnone] at hx
      cases hx

end Alone

section Solvers

variable [Sub α] [Mul α] [Div α] [Scalar α] {m n count stride ldb : Nat}
  {lower diagonal upper b x out : List α}

theorem solveColumns_refused {status : Status}
    (h : solveColumns m n lower diagonal upper b ldb = .ok (.error status, out)) :
    status = .executionFailed ∧ out = b := by
  rw [solveColumns] at h
  split at h
  · cases h
  · exact solveAll_refused h

theorem solveBatch_refused {status : Status}
    (h : solveBatch m lower diagonal upper x count stride = .ok (.error status, out)) :
    status = .executionFailed ∧ out = x := by
  rw [solveBatch] at h
  split at h
  · cases h
  · exact solveAll_refused h

/-- One system is solved in place. -/
theorem solveColumns_one (hm : m ≠ 0) (hlower : lower.length = m) (hdiagonal : diagonal.length = m)
    (hupper : upper.length = m) (hb : b.length = m)
    (h : solve (equations lower diagonal upper b) = some x) :
    solveColumns m 1 lower diagonal upper b ldb = .ok (.ok (), x) := by
  have hx : x.length = m := by
    rw [length_solve h, length_equations hlower hdiagonal hupper hb]
  have hroom : Buffer.reserve 1 Buffer.listBytes = .ok () := Buffer.reserve_eq_ok (by decide)
  have hsplice : Buffer.splice b 0 x = x := by
    rw [Buffer.splice, List.take_zero, List.nil_append, Nat.zero_add, hx, ← hb, List.drop_length,
      List.append_nil]
  rw [solveColumns, if_neg hm, solveAll, hroom, ok_bind, solutions, Nat.zero_mul,
    Buffer.window_self hb, Buffer.window_self hlower, Buffer.window_self hdiagonal,
    Buffer.window_self hupper]
  simp only [ok_bind, pure_eq_ok, h, solutions, Option.map_some, commit, List.zipIdx_singleton,
    List.foldl_cons, List.foldl_nil, Nat.zero_mul, hsplice]

/-- The systems of `out` are solved, each by itself, and the other cells are those of `b`. -/
structure Confined (m count stride : Nat) (system : Nat → List (Equation α)) (b out : List α) :
    Prop where
  length : out.length = b.length
  /-- A cell between the systems or behind them is left as it is. -/
  padding : ∀ k, (∀ i, i < count → ¬(i * stride ≤ k ∧ k < i * stride + m)) → out[k]? = b[k]?
  /-- A system holds its own solution. -/
  own : ∀ i, i < count → solve (system i) = some ((out.drop (i * stride)).take m)

/-- Systems without equations. -/
theorem confined_zero (count stride : Nat) {system : Nat → List (Equation α)}
    (hsystem : ∀ i, i < count → system i = []) (b : List α) : Confined 0 count stride system b b where
  length := rfl
  padding _ _ := rfl
  own i hi := by
    rw [hsystem i hi, List.take_zero]
    rfl

section Placed

variable {place : Nat → Nat} (hplaced : Placed m count stride place lower diagonal upper b)

include hplaced

/-- The solvers fail exactly on account of a system without a solution. -/
theorem Placed.failed_iff {status : Except Status Unit}
    (h : solveAll (fun i => solveAt m lower diagonal upper b (place i) (i * stride)) count stride b =
      .ok (status, out)) :
    status = .error .executionFailed ↔
      ∃ i, i < count ∧ solve (cut m lower diagonal upper b (place i) (i * stride)) = none := by
  rw [solveAll_failed_iff h]
  refine exists_congr fun i => and_congr_right fun hi => ?_
  rw [hplaced.solveAt_eq hi, Except.ok.injEq]

/-- Each solution stands in the place of its right hand side, and nothing else is written. -/
theorem Placed.confined (hm : m ≤ stride)
    (h : solveAll (fun i => solveAt m lower diagonal upper b (place i) (i * stride)) count stride b =
      .ok (.ok (), out)) :
    Confined m count stride (fun i => cut m lower diagonal upper b (place i) (i * stride)) b out := by
  have hlength : ∀ i x, i < count →
      solveAt m lower diagonal upper b (place i) (i * stride) = .ok (some x) → x.length = m := by
    intro i x hi hx
    rw [hplaced.solveAt_eq hi] at hx
    exact hplaced.length_of_solve hi (Except.ok.inj hx)
  obtain ⟨hout, hpadding, hwritten⟩ := solveAll_written hm hplaced.rhs hlength h
  refine ⟨hout, hpadding, fun i hi => ?_⟩
  have hsystem := hwritten i hi
  rw [hplaced.solveAt_eq hi] at hsystem
  exact Except.ok.inj hsystem

end Placed

/-- Systems that share their coefficients are confined to their right hand sides. -/
theorem solveColumns_confined (hm : m ≤ ldb) (hlower : lower.length = m)
    (hdiagonal : diagonal.length = m) (hupper : upper.length = m)
    (hb : denseLength m n ldb ≤ b.length)
    (h : solveColumns m n lower diagonal upper b ldb = .ok (.ok (), out)) :
    Confined m n ldb (fun j => cut m lower diagonal upper b 0 (j * ldb)) b out := by
  rw [solveColumns] at h
  split at h
  · next hzero =>
    subst hzero
    cases h
    exact confined_zero n ldb (fun _ _ => rfl) b
  · next hne => exact (placed_columns hne hlower hdiagonal hupper hb).confined hm h

/-- Systems with coefficients of their own are confined to their right hand sides. -/
theorem solveBatch_confined (hm : m ≤ stride) (hlower : denseLength m count stride ≤ lower.length)
    (hdiagonal : denseLength m count stride ≤ diagonal.length)
    (hupper : denseLength m count stride ≤ upper.length)
    (hx : denseLength m count stride ≤ x.length)
    (h : solveBatch m lower diagonal upper x count stride = .ok (.ok (), out)) :
    Confined m count stride (fun i => cut m lower diagonal upper x (i * stride) (i * stride)) x
      out := by
  rw [solveBatch] at h
  split at h
  · next hzero =>
    subst hzero
    cases h
    exact confined_zero count stride (fun _ _ => rfl) x
  · next hne => exact (placed_batch hne hlower hdiagonal hupper hx).confined hm h

/-- **A system among others has the solution that it has alone.** -/
theorem solveColumns_one_of_solveBatch (hm : m ≤ stride)
    (hlower : denseLength m count stride ≤ lower.length)
    (hdiagonal : denseLength m count stride ≤ diagonal.length)
    (hupper : denseLength m count stride ≤ upper.length)
    (hx : denseLength m count stride ≤ x.length)
    (h : solveBatch m lower diagonal upper x count stride = .ok (.ok (), out)) {i : Nat}
    (hi : i < count) :
    solveColumns m 1 ((lower.drop (i * stride)).take m) ((diagonal.drop (i * stride)).take m)
        ((upper.drop (i * stride)).take m) ((x.drop (i * stride)).take m) ldb =
      .ok (.ok (), (out.drop (i * stride)).take m) := by
  by_cases hne : m = 0
  · rw [solveColumns, if_pos hne, hne, List.take_zero, List.take_zero]
  · have hplaced := placed_batch hne hlower hdiagonal hupper hx
    rw [solveBatch, if_neg hne] at h
    exact solveColumns_one hne (Buffer.length_window (hplaced.lower i hi))
      (Buffer.length_window (hplaced.diagonal i hi)) (Buffer.length_window (hplaced.upper i hi))
      (Buffer.length_window (hplaced.rhs i hi)) ((hplaced.confined hm h).own i hi)

end Solvers

end Tridiagonal

end SparseDevice
