import SparseDevice.Proofs.Calls
import SparseDevice.Proofs.Kernel.Systems
import SparseDevice.Proofs.Scalars

/-!
# What the tridiagonal solvers write, through a context

A solver writes all of its solutions or nothing. An error of any kind gives the operands back as they
were: an error of the context, a status of the device, or a system without a solution, wherever it
stands and however far its elimination went. A success writes the right hand sides and no cell
between them or behind them.

No system has a part in the solution of another. What is written for a system is determined by its
own equations, so two calls that have a system in common, of whichever solver and whatever else they
solve, write the same cells for it. All this is said of every world and every arithmetic.

## Main definitions

* `Request.system`, `Request.place`: the equations of a system and the cells of its right hand side.
* `Context.AllOrNothing`: an answer that writes the right hand sides or nothing.

## Main results

* `Context.solvers_confined`: what both solvers write, in every world.
-/

namespace SparseDevice

open Tridiagonal (cut Confined)

variable {α : Type}

namespace Request

/-- The equations of a system of a solver. -/
def system : Request α → Nat → Option (List (Tridiagonal.Equation α))
  | solve m n lower diagonal upper b ldb, i =>
    if i < n then some (cut m lower diagonal upper b 0 (i * ldb)) else none
  | solveBatch m lower diagonal upper x count stride, i =>
    if i < count then some (cut m lower diagonal upper x (i * stride) (i * stride)) else none
  | offsetsOfRows .., _ | rowsOfOffsets .., _ | product .., _ | productColumns .., _
  | columns .., _ | sumOffsets .., _ | sum .., _ => none

/-- The cells in which a solver finds the right hand side of a system and leaves its solution. -/
def place : Request α → Nat → Option (List α)
  | solve m n _ _ _ b ldb, i => if i < n then some ((b.drop (i * ldb)).take m) else none
  | solveBatch m _ _ _ x count stride, i =>
    if i < count then some ((x.drop (i * stride)).take m) else none
  | offsetsOfRows .., _ | rowsOfOffsets .., _ | product .., _ | productColumns .., _
  | columns .., _ | sumOffsets .., _ | sum .., _ => none

end Request

variable [Zero α] [One α] [Add α] [Sub α] [Mul α] [Div α] [Scalar α]

namespace Request

variable {m n ldb count stride : Nat} {lower diagonal upper b x : List α} {reply : Reply}
  {r r' : Request α}

theorem solve_confined (hcheck : (solve m n lower diagonal upper b ldb).check = .ok ())
    (hperform : (solve m n lower diagonal upper b ldb).perform = .ok (.ok reply, r')) :
    ∃ out, r' = solve m n lower diagonal upper out ldb ∧
      Confined m n ldb (fun i => cut m lower diagonal upper b 0 (i * ldb)) b out := by
  obtain ⟨⟨hlower, hdiagonal, hupper⟩, hm, hb⟩ := check_solve_iff.mp hcheck
  rw [perform] at hperform
  obtain ⟨-, out, hsolve, rfl⟩ := concluded_done hperform
  exact ⟨out, rfl, Tridiagonal.solveColumns_confined hm hlower hdiagonal hupper hb hsolve⟩

theorem solveBatch_confined
    (hcheck : (solveBatch m lower diagonal upper x count stride).check = .ok ())
    (hperform : (solveBatch m lower diagonal upper x count stride).perform =
      .ok (.ok reply, r')) :
    ∃ out, r' = solveBatch m lower diagonal upper out count stride ∧
      Confined m count stride (fun i => cut m lower diagonal upper x (i * stride) (i * stride)) x
        out := by
  obtain ⟨hm, hlower, hdiagonal, hupper, hx⟩ := check_solveBatch_iff.mp hcheck
  rw [perform] at hperform
  obtain ⟨-, out, hsolve, rfl⟩ := concluded_done hperform
  exact ⟨out, rfl, Tridiagonal.solveBatch_confined hm hlower hdiagonal hupper hx hsolve⟩

/-- A solver that fails leaves everything as it was. -/
theorem solve_refused {t : Status}
    (hperform : (solve m n lower diagonal upper b ldb).perform = .ok (.error t, r')) :
    r' = solve m n lower diagonal upper b ldb := by
  rw [perform] at hperform
  obtain ⟨out, hsolve, rfl⟩ := concluded_error hperform
  rw [(Tridiagonal.solveColumns_refused hsolve).2]

theorem solveBatch_refused {t : Status}
    (hperform : (solveBatch m lower diagonal upper x count stride).perform = .ok (.error t, r')) :
    r' = solveBatch m lower diagonal upper x count stride := by
  rw [perform] at hperform
  obtain ⟨out, hsolve, rfl⟩ := concluded_error hperform
  rw [(Tridiagonal.solveBatch_refused hsolve).2]

/-- A solver that succeeds leaves for a system what its own equations say. -/
theorem place_eq_solve (hcheck : r.check = .ok ()) (hperform : r.perform = .ok (.ok reply, r'))
    {i : Nat} {own : List (Tridiagonal.Equation α)} (hsystem : r.system i = some own) :
    r'.place i = Tridiagonal.solve own := by
  cases r with
  | solve m n lower diagonal upper b ldb =>
    obtain ⟨out, rfl, hconfined⟩ := solve_confined hcheck hperform
    rw [system] at hsystem
    split at hsystem
    · next hi =>
      cases hsystem
      rw [place, if_pos hi, hconfined.own i hi]
    · cases hsystem
  | solveBatch m lower diagonal upper x count stride =>
    obtain ⟨out, rfl, hconfined⟩ := solveBatch_confined hcheck hperform
    rw [system] at hsystem
    split at hsystem
    · next hi =>
      cases hsystem
      rw [place, if_pos hi, hconfined.own i hi]
    · cases hsystem
  | offsetsOfRows | rowsOfOffsets | product | productColumns | columns | sumOffsets | sum =>
    cases hsystem

end Request

namespace Context

/-- An answer to systems with their right hand sides in `b`: an error that writes nothing, or a
success that writes the solution of each system over its right hand side, and nothing else. -/
structure AllOrNothing (answer : Except Fault (Except ContextError Reply × Request α))
    (request : List α → Request α) (m count stride : Nat)
    (system : Nat → List (Tridiagonal.Equation α)) (b : List α) : Prop where
  refused : ∀ e r', answer = .ok (.error e, r') → r' = request b
  solved : ∀ reply r', answer = .ok (.ok reply, r') →
    ∃ out, r' = request out ∧ Confined m count stride system b out

variable {ctx : Context} {w : World} {device : Nat} {r : Request α}

/-- What stops a call writes nothing, so the routine decides. -/
theorem allOrNothing {request : List α → Request α} {m count stride : Nat}
    {system : Nat → List (Tridiagonal.Equation α)} {b : List α}
    (hrefused : ∀ t r', (request b).perform = .ok (.error t, r') → r' = request b)
    (hsolved : (request b).check = .ok () → ∀ reply r', (request b).perform = .ok (.ok reply, r') →
      ∃ out, r' = request out ∧ Confined m count stride system b out) :
    AllOrNothing (ctx.execute w device (request b)).2 request m count stride system b where
  refused e r' hanswer := by
    rcases unchanged_or_failed hanswer with rfl | ⟨t, hperform⟩
    · rfl
    · exact hrefused t r' hperform
  solved reply r' hanswer := by
    obtain ⟨hcheck, hperform⟩ := done_of_execute hanswer
    exact hsolved hcheck reply r' hperform

/-- **The solvers write all solutions or nothing, and each system by itself.** -/
theorem solvers_confined (ctx : Context) (w : World) (device : Nat) :
    (∀ (m n ldb : Nat) (lower diagonal upper b : List α),
      AllOrNothing (ctx.execute w device (Request.solve m n lower diagonal upper b ldb)).2
        (.solve m n lower diagonal upper · ldb) m n ldb
        (fun i => cut m lower diagonal upper b 0 (i * ldb)) b) ∧
    (∀ (m count stride : Nat) (lower diagonal upper x : List α),
      AllOrNothing (ctx.execute w device
          (Request.solveBatch m lower diagonal upper x count stride)).2
        (.solveBatch m lower diagonal upper · count stride) m count stride
        (fun i => cut m lower diagonal upper x (i * stride) (i * stride)) x) ∧
    (∀ (r r' : Request α) (reply : Reply),
      (ctx.execute w device r).2 = .ok (.ok reply, r') →
      ∀ (ctx₂ : Context) (w₂ : World) (device₂ : Nat) (r₂ r₂' : Request α) (reply₂ : Reply),
        (ctx₂.execute w₂ device₂ r₂).2 = .ok (.ok reply₂, r₂') →
        ∀ i j own, r.system i = some own → r₂.system j = some own → r'.place i = r₂'.place j) := by
  refine ⟨?_, ?_, ?_⟩
  · intro m n ldb lower diagonal upper b
    exact allOrNothing (fun t r' hperform => Request.solve_refused hperform)
      fun hcheck reply r' hperform => Request.solve_confined hcheck hperform
  · intro m count stride lower diagonal upper x
    exact allOrNothing (fun t r' hperform => Request.solveBatch_refused hperform)
      fun hcheck reply r' hperform => Request.solveBatch_confined hcheck hperform
  · intro r r' reply hcall ctx₂ w₂ device₂ r₂ r₂' reply₂ hcall₂ i j own hown hown₂
    obtain ⟨hcheck, hperform⟩ := done_of_execute hcall
    obtain ⟨hcheck₂, hperform₂⟩ := done_of_execute hcall₂
    rw [Request.place_eq_solve hcheck hperform hown,
      Request.place_eq_solve hcheck₂ hperform₂ hown₂]

/-- A batch whose second system runs into a zero pivot after its first equation, the same batch with
other coefficients for it, and the second system of that alone. Between the systems is a cell of
padding. -/
theorem onePrepared_confined :
    let ctx : Context := ⟨0, ⟨7⟩, some 0⟩
    let w := (Session.empty.after Session.onePrepared).world
    let stuck (x : List Int) : Request Int :=
      .solveBatch 2 [0, 2, 9, 0, 1] [1, 1, 9, 1, 1] [0, 0, 9, 1, 0] x 2 3
    let batch (x : List Int) : Request Int :=
      .solveBatch 2 [0, 2, 9, 0, 2] [1, 1, 9, 1, 1] [0, 0, 9, 0, 0] x 2 3
    let alone (b : List Int) : Request Int := .solve 2 1 [0, 2] [1, 1] [0, 0] b 2
    let failure : ContextError := .native (stuck []).entryPoint .executionFailed
    (∃ r', (ctx.execute w 0 (stuck [3, 7, 9, 4, 9])).2 = .ok (.error failure, r') ∧
        r' = stuck [3, 7, 9, 4, 9]) ∧
      ((ctx.execute w 0 (batch [3, 7, 9, 4, 9])).2 = .ok (.ok .done, batch [3, 1, 9, 4, 1]) ∧
        Confined 2 2 3 (fun i => cut 2 [0, 2, 9, 0, 2] [1, 1, 9, 1, 1] [0, 0, 9, 0, 0]
          [3, 7, 9, 4, 9] (i * 3) (i * 3)) [3, 7, 9, 4, 9] [3, 1, 9, 4, (1 : Int)]) ∧
      (ctx.execute w 0 (alone [4, 9])).2 = .ok (.ok .done, alone [4, 1]) ∧
        (batch [3, 1, 9, 4, 1]).place 1 = (alone [4, 1]).place 0 := by
  intro ctx w stuck batch alone failure
  obtain ⟨-, hbatch, hown⟩ := solvers_confined (α := Int) ctx w 0
  have hstuck : (ctx.execute w 0 (stuck [3, 7, 9, 4, 9])).2 =
      .ok (.error failure, stuck [3, 7, 9, 4, 9]) := by
    decide +kernel
  have hsolved : (ctx.execute w 0 (batch [3, 7, 9, 4, 9])).2 =
      .ok (.ok .done, batch [3, 1, 9, 4, 1]) := by
    decide +kernel
  have halone : (ctx.execute w 0 (alone [4, 9])).2 = .ok (.ok .done, alone [4, 1]) := by
    decide +kernel
  obtain ⟨out, hout, hconfined⟩ := (hbatch 2 2 3 _ _ _ _).solved .done _ hsolved
  cases hout
  exact ⟨⟨_, hstuck, (hbatch 2 2 3 _ _ _ _).refused _ _ hstuck⟩, ⟨hsolved, hconfined⟩, halone,
    hown _ _ .done hsolved ctx w 0 _ _ .done halone 1 0 _ rfl rfl⟩

end Context

end SparseDevice
