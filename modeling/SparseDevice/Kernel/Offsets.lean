import SparseDevice.Buffer

/-!
# Row indices and row offsets

The rows of the entries of a matrix can be stored in two ways: as the row index of each entry, in
order, or as the offset at which each row starts. Offsets come from indices by counting and running
sums; indices come from offsets by writing each row number over its range.

The counting step and the running sums are used once more for the columns of a transpose.

## Main definitions

* `Offsets.tally`, `Offsets.accumulate`: the two steps from indices to offsets.
* `Offsets.ofRows`: offsets from row indices.
* `Offsets.toRows`: row indices from offsets.
-/

namespace SparseDevice

namespace Offsets

/-- Counts each index, in the cell after the one it points at. -/
def tally (indices : List Int32) (counts : List Int32) : Except Trap (List Int32) :=
  indices.foldlM (fun counts i => Buffer.update counts (position i + 1) (advance · 1)) counts

/-- The sums of the first cells, each added to `sum`. -/
def runningSums (sum : Int32) : List Int32 → Except Trap (List Int32)
  | [] => .ok []
  | i :: rest => do
    let next ← advance sum i
    let sums ← runningSums next rest
    return next :: sums

/-- Turns the counts of `m` rows into offsets, in place. -/
def accumulate (m : Nat) (counts : List Int32) : Except Trap (List Int32) :=
  if m = 0 then .ok counts
  else do
    let head ← Buffer.window counts 0 (m + 1)
    let sums ← runningSums 0 head
    return Buffer.splice counts 0 sums

/-- Row offsets of `m` rows from the row of each entry, into the buffer `rowPtr`. An index beside
the rows is refused, and then the buffer holds the counts of the indices before it. -/
def ofRows (rowInd : List Int32) (m : Nat) (rowPtr : List Int32) :
    Except Trap (Except Status Unit × List Int32) := do
  let known := rowInd.takeWhile fun row => decide (InRange row m)
  let counts ← tally known (List.replicate rowPtr.length 0)
  if known.length < rowInd.length then
    return (.error .invalidValue, counts)
  else
    let offsets ← accumulate m counts
    return (.ok (), offsets)

/-- The row of each entry from the offsets of `m` rows, into the buffer `rowInd`. A range that runs
backwards holds no entry. -/
def toRows (rowPtr : List Int32) (m : Nat) (rowInd : List Int32) : Except Trap (List Int32) :=
  sweep (fun row rowInd => do
    let start ← Buffer.read rowPtr row
    let stop ← Buffer.read rowPtr (row + 1)
    Buffer.fill rowInd (position start) (stop.toInt - start.toInt).toNat (Int32.ofNat row))
  0 m rowInd

end Offsets

end SparseDevice
