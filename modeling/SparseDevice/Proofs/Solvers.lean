import SparseDevice.Proofs.Calls
import SparseDevice.Proofs.Kernel.Safety
import SparseDevice.Proofs.Kernel.Systems
import SparseDevice.Proofs.Scalars

/-!
# The two tridiagonal solvers, through a context

Systems that share their coefficients may be given to the one solver, which reads the coefficients
once, or to the other one, with the coefficients written out for each system. It makes no
difference, whatever the arithmetic is: the same systems have a solution, and the same cells are
written, those between the systems included. A batch, taken apart and solved one system at a time,
gives the same solutions as well.

## Main results

* `Session.solvers_agree`: both statements, after every run.
-/

namespace SparseDevice

variable {α : Type}

namespace Request

variable {m n count stride ldb : Nat} {lower diagonal upper lower' diagonal' upper' b x : List α}

theorem check_solve (hlower : lower.length = m) (hdiagonal : diagonal.length = m)
    (hupper : upper.length = m) (hm : m ≤ ldb) (hb : denseLength m n ldb ≤ b.length) :
    (solve m n lower diagonal upper b ldb).check = .ok () :=
  check_solve_iff.mpr ⟨⟨hlower, hdiagonal, hupper⟩, hm, hb⟩

/-- The request that solves one system of a batch alone, on the windows of its number. -/
def alone (m stride ldb number : Nat) (lower diagonal upper x : List α) : Request α :=
  let window (xs : List α) := (xs.drop (number * stride)).take m
  solve m 1 (window lower) (window diagonal) (window upper) (window x) ldb

theorem check_alone (hldb : m ≤ ldb) {number : Nat} (hnumber : number < count)
    (hlower : denseLength m count stride ≤ lower.length)
    (hdiagonal : denseLength m count stride ≤ diagonal.length)
    (hupper : denseLength m count stride ≤ upper.length)
    (hx : denseLength m count stride ≤ x.length) :
    (alone m stride ldb number lower diagonal upper x).check = .ok () := by
  by_cases hne : m = 0
  · subst hne
    refine check_solve rfl rfl rfl hldb ?_
    rw [denseLength_zero_left]
    exact Nat.zero_le _
  · have hlength : ∀ {xs : List α}, denseLength m count stride ≤ xs.length →
        ((xs.drop (number * stride)).take m).length = m :=
      fun hxs => Buffer.length_window (Nat.le_trans (le_denseLength hne hnumber) hxs)
    have hcells : denseLength m 1 ldb = m := by
      rw [denseLength_succ hne, Nat.mul_zero, Nat.zero_add]
    exact check_solve (hlength hlower) (hlength hdiagonal) (hlength hupper) hldb
      (Nat.le_of_eq (hcells.trans (hlength hx).symm))

end Request

namespace Context

variable [Zero α] [One α] [Add α] [Sub α] [Mul α] [Div α] [Scalar α]
variable {ctx : Context} {w : World} {device : Nat} {m n count stride ldb : Nat}
  {lower diagonal upper lower' diagonal' upper' b x : List α}

/-- The answers of the two solvers for the same systems: the same solutions, the same failure, or
the lack of room for the solutions of so many systems, when `b` has at least as many cells. -/
def SolveAlike (answers : Except Fault (Except ContextError Reply × Request α) ×
      Except Fault (Except ContextError Reply × Request α)) (m n : Nat)
    (shared own : List α → Request α) (b : List α) : Prop :=
  (∃ out, answers = (.ok (.ok .done, shared out), .ok (.ok .done, own out))) ∨
  answers = (.ok (.error (.native (shared b).entryPoint .executionFailed), shared b),
    .ok (.error (.native (own b).entryPoint .executionFailed), own b)) ∨
  m ≠ 0 ∧ n ≤ b.length ∧ Buffer.maxBytes < n * Buffer.listBytes ∧
    answers = (.error (.trap .capacityOverflow), .error (.trap .capacityOverflow))

theorem Ready.solveAlike (h : ctx.Ready w device) (hlower : lower.length = m)
    (hdiagonal : diagonal.length = m) (hupper : upper.length = m) (hm : m ≤ ldb)
    (hb : denseLength m n ldb ≤ b.length)
    (hlower' : Tridiagonal.Repeats lower' lower m n ldb)
    (hdiagonal' : Tridiagonal.Repeats diagonal' diagonal m n ldb)
    (hupper' : Tridiagonal.Repeats upper' upper m n ldb) :
    SolveAlike (ctx.executeBoth w device (.solve m n lower diagonal upper b ldb)
        (.solveBatch m lower' diagonal' upper' b n ldb)) m n
      (.solve m n lower diagonal upper · ldb) (.solveBatch m lower' diagonal' upper' · n ldb) b := by
  have hsame := Tridiagonal.solveColumns_eq_solveBatch (b := b) hlower hdiagonal hupper hlower'
    hdiagonal' hupper'
  rw [h.executeBoth_eq (Request.check_solve hlower hdiagonal hupper hm hb)
    (Request.check_solveBatch_iff.mpr ⟨hm, hlower'.length, hdiagonal'.length, hupper'.length, hb⟩),
    Request.perform, Request.perform, ← hsame]
  by_cases hroom : m = 0 ∨ n * Buffer.listBytes ≤ Buffer.maxBytes
  · obtain ⟨status, out, hsolve, -⟩ :=
      Tridiagonal.solveColumns_ok hlower hdiagonal hupper hb hroom
    rw [hsolve]
    cases status with
    | ok => exact .inl ⟨out, rfl⟩
    | error status =>
      obtain ⟨rfl, rfl⟩ := Tridiagonal.solveColumns_refused hsolve
      exact .inr (.inl rfl)
  · obtain ⟨hne, hmany⟩ := not_or.mp hroom
    have hmany' : Buffer.maxBytes < n * Buffer.listBytes := Nat.lt_of_not_le hmany
    rw [Tridiagonal.solveColumns, if_neg hne, Tridiagonal.solveAll_noRoom hmany']
    have hcells : n ≤ b.length := Nat.le_trans (Request.le_denseLength_self hne hm) hb
    exact .inr (.inr ⟨hne, hcells, hmany', rfl⟩)

/-- Each system of a batch that succeeds, alone. -/
theorem Ready.solve_alone (h : ctx.Ready w device) {r' : Request α} {reply : Reply}
    (hbatch : (ctx.execute w device
      (Request.solveBatch m lower diagonal upper x count stride)).2 = .ok (.ok reply, r'))
    (hldb : m ≤ ldb) :
    ∃ out, r' = .solveBatch m lower diagonal upper out count stride ∧ ∀ number, number < count →
      (ctx.execute w device (Request.alone m stride ldb number lower diagonal upper x)).2 =
        .ok (.ok .done, .alone m stride ldb number lower diagonal upper out) := by
  have hcheck : (Request.solveBatch m lower diagonal upper x count stride).check = .ok () :=
    (done_of_execute hbatch).1
  obtain ⟨hm, hlower, hdiagonal, hupper, hx⟩ := Request.check_solveBatch_iff.mp hcheck
  rw [(h.execute_eq hcheck).1, Request.perform] at hbatch
  cases hsolve : Tridiagonal.solveBatch m lower diagonal upper x count stride with
  | error t =>
    rw [hsolve] at hbatch
    cases hbatch
  | ok result =>
    obtain ⟨status, out⟩ := result
    cases status with
    | error status =>
      rw [hsolve] at hbatch
      cases hbatch
    | ok =>
      rw [hsolve] at hbatch
      cases hbatch
      refine ⟨out, rfl, fun number hnumber => ?_⟩
      refine (h.execute (Request.check_alone hldb hnumber hlower hdiagonal hupper hx) ?_).1
      rw [Request.alone, Request.perform,
        Tridiagonal.solveColumns_one_of_solveBatch hm hlower hdiagonal hupper hx hsolve hnumber]
      rfl

end Context

namespace Session

variable [Zero α] [One α] [Add α] [Sub α] [Mul α] [Div α] [Scalar α]

/-- **The two solvers agree on the same systems, and a batch on each of its systems, after every
run.** -/
theorem solvers_agree {steps : List Step} {ctx : Context} {device : Nat}
    (h : (empty.after steps).Serves ctx device) :
    (∀ (m n ldb : Nat) (lower diagonal upper b lower' diagonal' upper' : List α),
      lower.length = m → diagonal.length = m → upper.length = m → m ≤ ldb →
      denseLength m n ldb ≤ b.length → Tridiagonal.Repeats lower' lower m n ldb →
      Tridiagonal.Repeats diagonal' diagonal m n ldb → Tridiagonal.Repeats upper' upper m n ldb →
        Context.SolveAlike
          (ctx.executeBoth (empty.after steps).world device (.solve m n lower diagonal upper b ldb)
            (.solveBatch m lower' diagonal' upper' b n ldb)) m n
          (.solve m n lower diagonal upper · ldb)
          (.solveBatch m lower' diagonal' upper' · n ldb) b) ∧
    (∀ (m count stride ldb : Nat) (lower diagonal upper x : List α) (reply : Reply)
      (r' : Request α), m ≤ ldb →
      (ctx.execute (empty.after steps).world device
        (Request.solveBatch m lower diagonal upper x count stride)).2 = .ok (.ok reply, r') →
        ∃ out, r' = .solveBatch m lower diagonal upper out count stride ∧
          ∀ number, number < count →
            (ctx.execute (empty.after steps).world device
                (Request.alone m stride ldb number lower diagonal upper x)).2 =
              .ok (.ok .done, .alone m stride ldb number lower diagonal upper out)) := by
  refine ⟨?_, ?_⟩
  · intro m n ldb lower diagonal upper b lower' diagonal' upper' hlower hdiagonal hupper hm hb
      hlower' hdiagonal' hupper'
    exact h.ready.solveAlike hlower hdiagonal hupper hm hb hlower' hdiagonal' hupper'
  · intro m count stride ldb lower diagonal upper x reply r' hldb hbatch
    exact h.ready.solve_alone hbatch hldb

/-- Two systems of two equations over the integers, with a cell of padding between them, and the
coefficients of the one call repeated for the other. -/
theorem onePrepared_solvers :
    let ctx : Context := ⟨0, ⟨7⟩, some 0⟩
    let w := (empty.after onePrepared).world
    let batch (x : List Int) : Request Int :=
      .solveBatch 2 [0, 2, 9, 0, 2] [1, 1, 9, 1, 1] [0, 0, 9, 0, 0] x 2 3
    let alone := Request.alone 2 3 2 1 [0, 2, 9, 0, 2] [1, 1, 9, 1, 1] [(0 : Int), 0, 9, 0, 0]
    (empty.after onePrepared).Serves ctx 0 ∧
      Context.SolveAlike
        (ctx.executeBoth w 0 (.solve 2 2 [0, 2] [1, 1] [0, 0] [3, 7, 9, 4, 9] 3)
          (batch [3, 7, 9, 4, 9])) 2 2
        (.solve 2 2 [0, 2] [1, 1] [0, 0] · 3) batch [3, 7, 9, 4, 9] ∧
      (ctx.execute w 0 (batch [3, 7, 9, 4, 9])).2 = .ok (.ok .done, batch [3, 1, 9, 4, 1]) ∧
      (ctx.execute w 0 (alone [3, 7, 9, 4, 9])).2 = .ok (.ok .done, alone [3, 1, 9, 4, 1]) := by
  intro ctx w batch alone
  have hrepeats : ∀ u v : Int, Tridiagonal.Repeats [u, v, 9, u, v] [u, v] 2 2 3 := by
    intro u v
    refine ⟨Nat.le_refl 5, fun j i hj hi => ?_⟩
    obtain rfl | rfl : j = 0 ∨ j = 1 := by omega
    all_goals
      obtain rfl | rfl : i = 0 ∨ i = 1 := by omega
      all_goals rfl
  obtain ⟨hsame, heach⟩ := solvers_agree (α := Int) onePrepared_serves
  have hbatch : (ctx.execute w 0 (batch [3, 7, 9, 4, 9])).2 =
      .ok (.ok .done, batch [3, 1, 9, 4, 1]) := by
    decide +kernel
  obtain ⟨out, hout, halone⟩ := heach 2 2 3 2 _ _ _ _ .done _ (Nat.le_refl 2) hbatch
  cases hout
  exact ⟨onePrepared_serves, hsame 2 2 3 [0, 2] [1, 1] [0, 0] [3, 7, 9, 4, 9] _ _ _ rfl rfl rfl
    (by decide) (by decide) (hrepeats 0 2) (hrepeats 1 1) (hrepeats 0 0), hbatch,
    halone 1 (by decide)⟩

end Session

end SparseDevice
