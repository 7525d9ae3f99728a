import SparseDevice.Buffer
import SparseDevice.Scalar

/-!
# Tridiagonal systems

A tridiagonal system is solved by elimination without pivoting. Going down, each equation loses its
lower term to the equation before it and is divided by its pivot; coming back up, each unknown is
found from the next one. A zero pivot ends the solution.

The lower coefficient of the first equation and the upper coefficient of the last one are never
used. Systems are solved on copies of their right hand sides, and nothing is written before all of
them are solved. Room for all copies is asked for before the first system is looked at, so a number
of systems that memory cannot hold is a trap even where the first of them has no solution.

## Main definitions

* `Tridiagonal.solve`: one system.
* `Tridiagonal.solveColumns`: systems that share their coefficients.
* `Tridiagonal.solveBatch`: systems with coefficients of their own.
-/

namespace SparseDevice

namespace Tridiagonal

variable {α : Type}

/-- `lower * X (i - 1) + diagonal * X i + upper * X (i + 1) = rhs`. -/
structure Equation (α : Type) where
  lower : α
  diagonal : α
  upper : α
  rhs : α

/-- The equations of a system, from its three diagonals and right hand side. -/
def equations : List α → List α → List α → List α → List (Equation α)
  | l :: lower, d :: diagonal, u :: upper, b :: rhs =>
    ⟨l, d, u, b⟩ :: equations lower diagonal upper rhs
  | _, _, _, _ => []

/-- The unknown `x - factor * next`, in front of the unknowns from `next` on. -/
def substitute [Sub α] [Mul α] (factor x : α) : List α → List α
  | [] => [x]
  | next :: rest => (x - factor * next) :: next :: rest

/-- Solves the equations below one that has become `X + factor * X next = x`. -/
def solveBelow [Sub α] [Mul α] [Div α] [Scalar α] (factor x : α) :
    List (Equation α) → Option (List α)
  | [] => some []
  | e :: rest =>
    let pivot := e.diagonal - e.lower * factor
    if Scalar.isZero pivot then none
    else
      let factor' := e.upper / pivot
      let x' := (e.rhs - e.lower * x) / pivot
      (solveBelow factor' x' rest).map (substitute factor' x')

/-- Solves a system; none if a pivot is zero. -/
def solve [Sub α] [Mul α] [Div α] [Scalar α] : List (Equation α) → Option (List α)
  | [] => some []
  | e :: rest =>
    if Scalar.isZero e.diagonal then none
    else
      let factor := e.upper / e.diagonal
      let x := e.rhs / e.diagonal
      (solveBelow factor x rest).map (substitute factor x)

/-- The solutions of `count` systems from `start` on; none as soon as one has no solution. -/
def solutions (system : Nat → Except Trap (Option (List α))) (start : Nat) :
    Nat → Except Trap (Option (List (List α)))
  | 0 => .ok (some [])
  | count + 1 => do
    match ← system start with
    | none => return none
    | some x =>
      let rest ← solutions system (start + 1) count
      return rest.map (x :: ·)

/-- Writes solutions over their right hand sides, which start `stride` apart. -/
def commit (stride : Nat) (solved : List (List α)) (b : List α) : List α :=
  solved.zipIdx.foldl (fun b (x, i) => Buffer.splice b (i * stride) x) b

/-- Makes room for all solutions, solves all systems and then writes all solutions, or writes
nothing. -/
def solveAll (system : Nat → Except Trap (Option (List α))) (count stride : Nat) (b : List α) :
    Except Trap (Except Status Unit × List α) := do
  Buffer.reserve count Buffer.listBytes
  match ← solutions system 0 count with
  | none => return (.error .executionFailed, b)
  | some solved => return (.ok (), commit stride solved b)

variable [Sub α] [Mul α] [Div α] [Scalar α]

/-- Solves `n` systems of `m` equations that share their diagonals. The right hand sides in `b`
start `ldb` apart and are overwritten by the solutions. -/
def solveColumns (m n : Nat) (lower diagonal upper : List α) (b : List α) (ldb : Nat) :
    Except Trap (Except Status Unit × List α) :=
  if m = 0 then .ok (.ok (), b)
  else
    solveAll (fun col => do
      let rhs ← Buffer.window b (col * ldb) m
      let lower ← Buffer.window lower 0 m
      let diagonal ← Buffer.window diagonal 0 m
      let upper ← Buffer.window upper 0 m
      return solve (equations lower diagonal upper rhs))
    n ldb b

/-- Solves `count` systems of `m` equations, all operands of which start `stride` apart. The right
hand sides in `x` are overwritten by the solutions. -/
def solveBatch (m : Nat) (lower diagonal upper : List α) (x : List α) (count stride : Nat) :
    Except Trap (Except Status Unit × List α) :=
  if m = 0 then .ok (.ok (), x)
  else
    solveAll (fun batch => do
      let rhs ← Buffer.window x (batch * stride) m
      let lower ← Buffer.window lower (batch * stride) m
      let diagonal ← Buffer.window diagonal (batch * stride) m
      let upper ← Buffer.window upper (batch * stride) m
      return solve (equations lower diagonal upper rhs))
    count stride x

end Tridiagonal

end SparseDevice
