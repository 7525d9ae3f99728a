import SparseDevice.Matrix
import SparseDevice.Scalar

/-!
# Sums of sparse matrices

`C = alpha * A + beta * B` is computed in two calls, since the caller has to make room for `C`. The
first writes the row offsets of the sum, the second the entries. Both come from the same merged
row: its columns strictly increase, and the terms of a column are added in the order in which the
two rows hold them, those of `A` first. A sum that happens to be zero stays in the pattern.

## Main definitions

* `Addition.mergedRow`: a row of the sum.
* `Addition.offsets`: the row offsets of the sum and the number of its entries.
* `Addition.entries`: the entries of the sum.
-/

namespace SparseDevice

namespace Addition

variable {α : Type}

/-- Adds a term to a row that is sorted by column: to the entry of its column, or as a new entry
where that belongs. -/
def insertTerm [Add α] (term : Int32 × α) : List (Int32 × α) → List (Int32 × α)
  | [] => [term]
  | entry :: rest =>
    if term.1 < entry.1 then term :: entry :: rest
    else if term.1 = entry.1 then (entry.1, entry.2 + term.2) :: rest
    else entry :: insertTerm term rest

/-- The sum of a list of terms, sorted by column. -/
def collect [Add α] (terms : List (Int32 × α)) : List (Int32 × α) :=
  terms.foldl (fun entries term => insertTerm term entries) []

/-- The terms of a row with their coefficient. -/
def terms [Mul α] (coefficient : α) (entries : List (Int32 × α)) : List (Int32 × α) :=
  entries.map fun entry => (entry.1, coefficient * entry.2)

/-- A row of `alpha * A + beta * B`. -/
def mergedRow [Add α] [Mul α] (alpha : α) (a : Csr α) (beta : α) (b : Csr α) (row : Nat) :
    Except Trap (List (Int32 × α)) := do
  let left ← a.row row
  let right ← b.row row
  return collect (terms alpha left ++ terms beta right)

/-- The row offsets of `A + B`, into the buffer `rowPtr`, and the number of its entries. -/
def offsets [Add α] [Mul α] [One α] (a b : Csr α) (rowPtr : List Int32) :
    Except Trap (Nat × List Int32) := do
  let rowPtr ← Buffer.write rowPtr 0 0
  let rowPtr ← sweep (fun row rowPtr => do
      let merged ← mergedRow 1 a 1 b row
      let start ← Buffer.read rowPtr row
      let stop ← advance start (Int32.ofNat merged.length)
      Buffer.write rowPtr (row + 1) stop)
    0 a.rows rowPtr
  let last ← Buffer.read rowPtr a.rows
  return (position last, rowPtr)

/-- Writes `count` rows of the sum from `row` on, each into its range of `c`. A range of another
length than its row is refused, and then the rows before it have been written. -/
def entriesFrom [Add α] [Mul α] (alpha : α) (a : Csr α) (beta : α) (b : Csr α) (row : Nat) :
    Nat → Csr α → Except Trap (Except Status Unit × Csr α)
  | 0, c => .ok (.ok (), c)
  | count + 1, c => do
    let merged ← mergedRow alpha a beta b row
    let (start, stop) ← c.rowRange row
    if stop - start = merged.length then
      let colInd ← Buffer.overwrite c.colInd start (merged.map (·.1))
      let values ← Buffer.overwrite c.values start (merged.map (·.2))
      entriesFrom alpha a beta b (row + 1) count { c with colInd, values }
    else
      return (.error .invalidValue, c)

/-- The entries of `alpha * A + beta * B`, into the matrix `c` whose row offsets are known. -/
def entries [Add α] [Mul α] (alpha : α) (a : Csr α) (beta : α) (b : Csr α) (c : Csr α) :
    Except Trap (Except Status Unit × Csr α) :=
  entriesFrom alpha a beta b 0 a.rows c

end Addition

end SparseDevice
