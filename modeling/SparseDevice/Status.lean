/-!
# Status codes

Every primitive of the device answers with a status: a signed 32-bit code, zero for success. Nine
codes have a symbolic name. Any other code is a status all the same; it has no name and is shown
by its number.

## Main definitions

* `Status`: a code.
* `Status.name?`, `Status.text`: the symbolic name, and the text shown in messages.
* `Status.toExcept`: a status read as a result, so that only success goes on.
* `Status.sort`: statuses in the order of their codes.
-/

namespace SparseDevice

/-- What a primitive of the device answers. -/
structure Status where
  /-- The number behind the status; zero is success. -/
  code : Int32
deriving DecidableEq

namespace Status

/-- The call succeeded. -/
def success : Status := ⟨0⟩

/-- The handle is not bound to a stream. -/
def notInitialized : Status := ⟨1⟩

/-- There was no memory. -/
def allocFailed : Status := ⟨2⟩

/-- An operand makes no sense. -/
def invalidValue : Status := ⟨3⟩

/-- The device lacks a feature. -/
def archMismatch : Status := ⟨4⟩

/-- Memory could not be mapped. -/
def mappingError : Status := ⟨5⟩

/-- The routine could not finish. -/
def executionFailed : Status := ⟨6⟩

/-- The device failed. -/
def internalError : Status := ⟨7⟩

/-- The kind of matrix is not known. -/
def matrixTypeNotSupported : Status := ⟨8⟩

/-- The statuses that have a symbolic name, with that name. -/
def named : List (Status × String) :=
  [(success, "SUCCESS"), (notInitialized, "NOT_INITIALIZED"), (allocFailed, "ALLOC_FAILED"),
    (invalidValue, "INVALID_VALUE"), (archMismatch, "ARCH_MISMATCH"),
    (mappingError, "MAPPING_ERROR"), (executionFailed, "EXECUTION_FAILED"),
    (internalError, "INTERNAL_ERROR"), (matrixTypeNotSupported, "MATRIX_TYPE_NOT_SUPPORTED")]

/-- The symbolic name of a status, if its code has one. -/
def name? (s : Status) : Option String := named.lookup s

/-- The name of a status, or its number where it has none. -/
def text (s : Status) : String :=
  s.name?.getD s!"UNKNOWN({s.code.toInt})"

/-- Whether a status reports success. -/
def isSuccess (s : Status) : Bool := decide (s = success)

@[simp] theorem isSuccess_iff {s : Status} : s.isSuccess = true ↔ s = success := by
  simp [isSuccess]

@[simp] theorem isSuccess_success : success.isSuccess = true := rfl

/-- Success goes on; any other status is the error. -/
def toExcept (s : Status) : Except Status Unit :=
  if s.isSuccess then .ok () else .error s

@[simp] theorem toExcept_success : success.toExcept = .ok () := rfl

theorem toExcept_of_ne {s : Status} (h : s ≠ success) : s.toExcept = .error s := by
  simp [toExcept, h]

/-- Statuses in the order of their codes. -/
def sort (statuses : List Status) : List Status :=
  statuses.mergeSort fun s t => decide (s.code ≤ t.code)

theorem sort_perm (statuses : List Status) : (sort statuses).Perm statuses :=
  List.mergeSort_perm statuses _

end Status

end SparseDevice
