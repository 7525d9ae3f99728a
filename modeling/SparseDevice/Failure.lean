import SparseDevice.Status

/-!
# Failures and faults

There are two kinds of bad endings. A *failure* is an answer: the caller gets it, nothing is lost,
and trying again is allowed. A *fault* ends the call on the spot: a handle was used before it was
made, a handle could not be given back, an operand was read outside its bounds, a size went beyond
the largest one, or a result was too large to be held.

## Main definitions

* `InitStage`, `InitFailure`: why a handle could not be brought up.
* `Trap`: a memory access, a counter, a size or a request for room that went out of range.
* `Fault`: everything that ends a call without an answer.
-/

namespace SparseDevice

/-- The two steps of bringing up a handle. -/
inductive InitStage where
  /-- Making the handle. -/
  | create
  /-- Binding the fresh handle to its stream. -/
  | bindStream
deriving DecidableEq

namespace InitStage

/-- The name of the step in messages. -/
def text : InitStage → String
  | create => "Create"
  | bindStream => "BindStream"

end InitStage

/-- A handle could not be brought up for a stream. -/
structure InitFailure where
  /-- The label of the stream. -/
  stream : String
  /-- The step that failed. -/
  stage : InitStage
  /-- What the device answered in that step. -/
  status : Status
deriving DecidableEq

namespace InitFailure

/-- The message of the failure. -/
def message (f : InitFailure) : String :=
  s!"Failed to initialize native handle for stream {f.stream} ({f.stage.text}): {f.status.text}"

end InitFailure

/-- A step inside a routine or its check that has no meaning. -/
inductive Trap where
  /-- A cell or a range of cells outside the operand. -/
  | outOfBounds
  /-- A 32-bit counter that left its range. -/
  | counterOverflow
  /-- A size beyond the largest unsigned 64-bit number. -/
  | sizeOverflow
  /-- Room was asked for beyond what memory can address. -/
  | capacityOverflow
deriving DecidableEq

namespace Trap

/-- The message of the trap. -/
def message : Trap → String
  | outOfBounds => "index out of bounds"
  | counterOverflow => "counter overflow"
  | sizeOverflow => "size overflow"
  | capacityOverflow => "capacity overflow"

end Trap

/-- What ends a call without an answer. -/
inductive Fault where
  /-- A handle was asked for before it was brought up. -/
  | contractViolation (stream : String)
  /-- The device refused to take a handle back. -/
  | consistencyFault (stream : String) (status : Status)
  /-- A routine left its operands. -/
  | trap (t : Trap)
deriving DecidableEq

namespace Fault

/-- The message of the fault. -/
def message : Fault → String
  | contractViolation stream =>
    s!"Native handle for stream {stream} used before it was initialized"
  | consistencyFault stream status =>
    s!"Failed to destroy native handle for stream {stream}: {status.text}"
  | trap t => t.message

end Fault

end SparseDevice
