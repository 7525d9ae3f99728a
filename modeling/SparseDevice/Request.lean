import SparseDevice.Kernel.Addition
import SparseDevice.Kernel.Columns
import SparseDevice.Kernel.Offsets
import SparseDevice.Kernel.Product
import SparseDevice.Kernel.Tridiagonal

/-!
# Requests

A request is a call of one of the nine routines: its operands and the buffers that it writes. What
comes back is a reply or a status together with *the request as the call leaves it*, its operands
as they were and its buffers as written. So a call that writes nothing gives the request back
unchanged.

A request may be checked first. The check looks at shapes and indices only, and a request that
passes it never leaves its operands; nothing here forces the check on a caller. The check itself may
stop at a size that it cannot hold.

## Main definitions

* `Request`: the nine routines with their operands.
* `Request.entryPoint`: the full name of the routine.
* `Request.check`: whether the operands fit together.
* `Request.perform`: the routine itself.
-/

namespace SparseDevice

/-- A call of a routine, by its operands. The last operand is the buffer that the routine writes,
followed only by the numbers that say how the buffer is laid out. -/
inductive Request (α : Type) where
  /-- Row offsets from row indices. -/
  | offsetsOfRows (rowInd : List Int32) (m : Nat) (rowPtr : List Int32)
  /-- Row indices from row offsets. -/
  | rowsOfOffsets (rowPtr : List Int32) (m : Nat) (rowInd : List Int32)
  /-- The product with a vector. -/
  | product (op : Operation) (alpha : α) (a : Csr α) (x : List α) (beta : α) (y : List α)
  /-- The product with the `n` columns of a dense matrix. -/
  | productColumns (op : Operation) (alpha : α) (a : Csr α) (b : List α) (ldb n : Nat) (beta : α)
      (c : List α) (ldc : Nat)
  /-- A matrix by columns. -/
  | columns (a : Csr α) (out : Csc α)
  /-- The row offsets of a sum. -/
  | sumOffsets (a b : Csr α) (rowPtr : List Int32)
  /-- The entries of a sum. -/
  | sum (alpha : α) (a : Csr α) (beta : α) (b : Csr α) (c : Csr α)
  /-- Tridiagonal systems that share their coefficients. -/
  | solve (m n : Nat) (lower diagonal upper : List α) (b : List α) (ldb : Nat)
  /-- Tridiagonal systems with coefficients of their own. -/
  | solveBatch (m : Nat) (lower diagonal upper : List α) (x : List α) (count stride : Nat)
deriving DecidableEq

/-- What a routine answers when it succeeds. -/
inductive Reply where
  /-- Nothing but that it is done. -/
  | done
  /-- The number of entries of a sum. -/
  | count (n : Nat)
deriving DecidableEq

namespace Request

variable {α : Type}

/-- The full name of the routine. -/
def entryPoint [Scalar α] : Request α → String
  | offsetsOfRows .. => indexEntryPoint "coo2csr"
  | rowsOfOffsets .. => indexEntryPoint "csr2coo"
  | product op .. => (Scalar.precision α).productEntryPoint op
  | productColumns .. => (Scalar.precision α).entryPoint "csrmm2"
  | columns .. => (Scalar.precision α).entryPoint "csr2csc"
  | sumOffsets .. => indexEntryPoint "csrgeamNnz"
  | sum .. => (Scalar.precision α).entryPoint "csrgeam"
  | solve .. => (Scalar.precision α).entryPoint "gtsv_nopivot"
  | solveBatch .. => (Scalar.precision α).entryPoint "gtsvStridedBatch"

/-! ### The check -/

/-- Whether two matrices are sound and of one shape. -/
def checkTerms (a b : Csr α) : Except Objection Unit := do
  a.validate
  b.validate
  ensure (a.rows = b.rows ∧ a.cols = b.cols) (.argument (.termShapes a.rows a.cols b.rows b.cols))

/-- Whether the operands fit together. -/
def check : Request α → Except Objection Unit
  | offsetsOfRows rowInd m rowPtr => do
    ensure (rowPtr.length = m + 1)
      (.sized (m + 1) (.entryCount "csr_row_ptr" rowPtr.length (m + 1)))
    ensure (rowInd.all fun row => decide (InRange row m)) (.argument .rowRange)
    ensure (ascending rowInd) (.argument .rowOrder)
  | rowsOfOffsets rowPtr m rowInd => do
    ensure (rowPtr.length = m + 1)
      (.sized (m + 1) (.entryCount "csr_row_ptr" rowPtr.length (m + 1)))
    ensure (rowPtr.getD 0 0 = 0 ∧ ascending rowPtr) (.argument .notOffsets)
    ensure (position (rowPtr.getD m 0) = rowInd.length)
      (.argument (.entryCount "coo_row_ind" rowInd.length (rowPtr.getD m 0).toInt))
  | product op _ a x _ y => do
    a.validate
    let (rows, cols) := a.shape op
    ensure (cols ≤ x.length ∧ rows ≤ y.length)
      (.argument (.vectorSpace rows cols x.length y.length))
  | productColumns op _ a b ldb n _ c ldc => do
    a.validate
    let (rows, inner) := a.shape op
    ensureDense "B" "ldb" inner n ldb b.length
    ensureDense "C" "ldc" rows n ldc c.length
  | columns a out => do
    a.validate
    ensure (out.values.length = a.nnz ∧ out.rowInd.length = a.nnz ∧
      out.colPtr.length = a.cols + 1) (.sized (a.cols + 1) (.columnSpace a.nnz (a.cols + 1)))
  | sumOffsets a b rowPtr => do
    checkTerms a b
    ensure (rowPtr.length = a.rows + 1)
      (.sized (a.rows + 1) (.entryCount "c_row_ptr" rowPtr.length (a.rows + 1)))
  | sum _ a _ b c => do
    checkTerms a b
    ensure (c.rows = a.rows ∧ c.cols = a.cols ∧ c.rowPtr.length = a.rows + 1)
      (.sized (a.rows + 1) (.sumShape a.rows a.cols))
    ensure (c.rowPtr.getD 0 0 = 0 ∧ ascending c.rowPtr) (.argument .sumOffsets)
    let nnz := position (c.rowPtr.getD c.rows 0)
    ensure (nnz ≤ c.colInd.length ∧ nnz ≤ c.values.length) (.argument (.sumSpace nnz))
  | solve m n lower diagonal upper b ldb => do
    ensure (lower.length = m ∧ diagonal.length = m ∧ upper.length = m)
      (.argument (.diagonalLength m))
    ensureDense "B" "ldb" m n ldb b.length
  | solveBatch m lower diagonal upper x count stride => do
    ensure (m ≤ stride) (.argument (.batchStride stride m))
    let needed := denseLength m count stride
    ensure (needed ≤ lower.length ∧ needed ≤ diagonal.length ∧ needed ≤ upper.length ∧
      needed ≤ x.length) (.sized needed (.batchSpace needed))

/-! ### The routines -/

/-- A result without a status of its own is a success. -/
def finished (after : Except Trap (Request α)) : Except Trap (Except Status Reply × Request α) :=
  after.map fun r => (.ok .done, r)

/-- A result with a status of its own, and the request that holds what was written. -/
def concluded {β : Type} (after : Except Trap (Except Status Unit × β)) (request : β → Request α) :
    Except Trap (Except Status Reply × Request α) :=
  after.map fun (status, out) => (status.map fun _ => .done, request out)

variable [Zero α] [One α] [Add α] [Sub α] [Mul α] [Div α] [Scalar α]

/-- Runs the routine: its reply or its status, and the request as the call leaves it. -/
def perform : Request α → Except Trap (Except Status Reply × Request α)
  | offsetsOfRows rowInd m rowPtr =>
    concluded (Offsets.ofRows rowInd m rowPtr) (offsetsOfRows rowInd m ·)
  | rowsOfOffsets rowPtr m rowInd =>
    finished ((Offsets.toRows rowPtr m rowInd).map (rowsOfOffsets rowPtr m ·))
  | product op alpha a x beta y =>
    finished ((Product.vector op alpha a x beta y).map (product op alpha a x beta ·))
  | productColumns op alpha a b ldb n beta c ldc =>
    finished ((Product.columns op alpha a b ldb n beta c ldc).map
      (productColumns op alpha a b ldb n beta · ldc))
  | columns a out => finished ((Csc.ofCsr a out).map (columns a ·))
  | sumOffsets a b rowPtr =>
    (Addition.offsets a b rowPtr).map fun (n, rowPtr) => (.ok (.count n), sumOffsets a b rowPtr)
  | sum alpha a beta b c => concluded (Addition.entries alpha a beta b c) (sum alpha a beta b ·)
  | solve m n lower diagonal upper b ldb =>
    concluded (Tridiagonal.solveColumns m n lower diagonal upper b ldb)
      (solve m n lower diagonal upper · ldb)
  | solveBatch m lower diagonal upper x count stride =>
    concluded (Tridiagonal.solveBatch m lower diagonal upper x count stride)
      (solveBatch m lower diagonal upper · count stride)

end Request

/-! ### Requests of any precision -/

/-- A request in one of the four precisions. -/
inductive Job where
  | single (request : Request Float32)
  | double (request : Request Float)
  | complexSingle (request : Request (Cartesian Float32))
  | complexDouble (request : Request (Cartesian Float))

namespace Job

/-- The full name of the routine. -/
def entryPoint : Job → String
  | single r => r.entryPoint
  | double r => r.entryPoint
  | complexSingle r => r.entryPoint
  | complexDouble r => r.entryPoint

/-- Whether the operands fit together. -/
def check : Job → Except Objection Unit
  | single r => r.check
  | double r => r.check
  | complexSingle r => r.check
  | complexDouble r => r.check

/-- Runs the routine: its reply or its status, and the job as the call leaves it. -/
def perform : Job → Except Trap (Except Status Reply × Job)
  | single r => r.perform.map fun (status, r) => (status, single r)
  | double r => r.perform.map fun (status, r) => (status, double r)
  | complexSingle r => r.perform.map fun (status, r) => (status, complexSingle r)
  | complexDouble r => r.perform.map fun (status, r) => (status, complexDouble r)

end Job

end SparseDevice
