import SparseDevice.Kernel.Offsets
import SparseDevice.Matrix

/-!
# Storing a matrix by columns

A matrix by columns is its transpose by rows. The entries are put in order by a counting sort: the
columns are counted, the counts become the offset of each column, and then the entries are placed
one row after the other, each in the next free cell of its column. So the entries of a column keep
the order in which the rows hold them.

## Main definitions

* `Csc`: the three arrays by columns, and `Csc.toCsr`, which reads them as a matrix by rows.
* `Csc.ofCsr`: the conversion.
-/

namespace SparseDevice

/-- The arrays of a matrix by columns. -/
structure Csc (α : Type) where
  /-- The value of each entry. -/
  values : List α
  /-- The row of each entry. -/
  rowInd : List Int32
  /-- Where each column starts, and last where the last column ends. -/
  colPtr : List Int32
deriving DecidableEq

namespace Csc

variable {α : Type}

/-- The transpose by rows: the same arrays under other names. -/
def toCsr (c : Csc α) (rows cols : Nat) : Csr α where
  rows := cols
  cols := rows
  rowPtr := c.colPtr
  colInd := c.rowInd
  values := c.values

/-- A sort in progress. -/
structure Placement (α : Type) where
  /-- The next free cell of each column. -/
  next : List Int32
  /-- The rows of the entries placed so far. -/
  rowInd : List Int32
  /-- The values of the entries placed so far. -/
  values : List α

namespace Placement

/-- Places an entry of a row in the next free cell of its column. -/
def place (row : Nat) (p : Placement α) (entry : Int32 × α) : Except Trap (Placement α) := do
  let slot ← Buffer.read p.next (position entry.1)
  let rowInd ← Buffer.write p.rowInd (position slot) (Int32.ofNat row)
  let values ← Buffer.write p.values (position slot) entry.2
  let next ← Buffer.update p.next (position entry.1) (advance · 1)
  return ⟨next, rowInd, values⟩

/-- Places the entries of a row, in order. -/
def placeRow (a : Csr α) (row : Nat) (p : Placement α) : Except Trap (Placement α) := do
  let entries ← a.row row
  entries.foldlM (place row) p

end Placement

/-- Stores the entries of a matrix by columns, into the buffers `out`. -/
def ofCsr (a : Csr α) (out : Csc α) : Except Trap (Csc α) := do
  let counts ← Offsets.tally a.colInd (List.replicate out.colPtr.length 0)
  let colPtr ← Offsets.accumulate a.cols counts
  let sorted ← sweep (Placement.placeRow a) 0 a.rows ⟨colPtr.take a.cols, out.rowInd, out.values⟩
  return ⟨sorted.values, sorted.rowInd, colPtr⟩

end Csc

end SparseDevice
