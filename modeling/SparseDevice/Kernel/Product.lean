import SparseDevice.Matrix
import SparseDevice.Scalar

/-!
# Products with dense vectors

`y = alpha * op(A) * x + beta * y`. The output is scaled first; a zero `beta` overwrites it, so that
what it held before, infinities and NaN included, does not matter. The plain product then adds to
each output cell the finished dot product of its row. The transposed products go through the same
rows and add each entry to the output cell of its column.

**The order of operations is part of the definition,** since no law of arithmetic is assumed.

## Main definitions

* `Product.vector`: the product with one vector.
* `Product.columns`: the product with each column of a dense matrix.
-/

namespace SparseDevice

namespace Product

variable {α : Type} [Zero α] [Add α] [Mul α] [Scalar α]

/-- Scales a cell by `beta`; a zero `beta` clears it. -/
def scale (beta v : α) : α := if Scalar.isZero beta then 0 else beta * v

/-- The sum over the entries of a row, each times the cell of `x` at its column. -/
def rowSum (x : List α) (entries : List (Int32 × α)) : Except Trap α :=
  entries.foldlM (fun sum entry => do
    let v ← Buffer.read x (position entry.1)
    return sum + entry.2 * v) 0

/-- Adds the row sums to the output cells, one row after the other. -/
def gather (alpha : α) (a : Csr α) (x : List α) (y : List α) : Except Trap (List α) :=
  y.zipIdx.mapM fun (v, row) => do
    let entries ← a.row row
    let sum ← rowSum x entries
    return v + alpha * sum

/-- Adds the entries of a row to the output cells of their columns, each as `value` reads it and
times `scaled`. -/
def scatterRow (value : α → α) (scaled : α) (entries : List (Int32 × α)) (y : List α) :
    Except Trap (List α) :=
  entries.foldlM (fun y entry =>
    Buffer.update y (position entry.1) fun v => .ok (v + value entry.2 * scaled)) y

/-- Adds the rows to the output, each times `alpha` and its cell of `x`. -/
def scatter (value : α → α) (alpha : α) (a : Csr α) (x : List α) (y : List α) :
    Except Trap (List α) :=
  sweep (fun row y => do
    let v ← Buffer.read x row
    let entries ← a.row row
    scatterRow value (alpha * v) entries y)
  0 a.rows y

/-- `alpha * op(A) * x + beta * y`. Cells of `y` past the rows of `op(A)` are not scaled. -/
def vector (op : Operation) (alpha : α) (a : Csr α) (x : List α) (beta : α) (y : List α) :
    Except Trap (List α) := do
  let head ← Buffer.window y 0 (a.shape op).1
  let scaled := head.map (scale beta)
  match op with
  | .nonTranspose =>
    let sums ← gather alpha a x scaled
    return Buffer.splice y 0 sums
  | .transpose => scatter id alpha a x (Buffer.splice y 0 scaled)
  | .conjugateTranspose => scatter Scalar.conj alpha a x (Buffer.splice y 0 scaled)

/-- `alpha * op(A) * B + beta * C` for `n` columns, which start `ldb` and `ldc` apart. A `B` without
rows has no cells that could be read. -/
def columns (op : Operation) (alpha : α) (a : Csr α) (b : List α) (ldb n : Nat) (beta : α)
    (c : List α) (ldc : Nat) : Except Trap (List α) :=
  let (rows, inner) := a.shape op
  if rows = 0 then .ok c
  else
    sweep (fun col c => do
      let x ← if inner = 0 then .ok [] else Buffer.window b (col * ldb) inner
      let y ← Buffer.window c (col * ldc) rows
      let y ← vector op alpha a x beta y
      return Buffer.splice c (col * ldc) y)
    0 n c

end Product

end SparseDevice
