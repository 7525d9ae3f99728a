/-!
# Precisions and entry points

A routine comes in up to four precisions, and the device tells them apart by a letter in front of
the routine's name. A routine that only touches indices is the same for every precision and has a
letter of its own.

## Main definitions

* `Precision`: the four element types by name.
* `Precision.entryPoint`, `indexEntryPoint`: the full name under which a routine is called.
-/

namespace SparseDevice

/-- The four element types a routine comes in. -/
inductive Precision where
  | single
  | double
  | complexSingle
  | complexDouble
deriving DecidableEq

namespace Precision

/-- The letter in front of a routine's name. -/
def letter : Precision → Char
  | single => 'S'
  | double => 'D'
  | complexSingle => 'C'
  | complexDouble => 'Z'

/-- The name of the precision itself. -/
def name : Precision → String
  | single => "Single"
  | double => "Double"
  | complexSingle => "ComplexSingle"
  | complexDouble => "ComplexDouble"

/-- Whether elements have an imaginary part. -/
def isComplex : Precision → Bool
  | single | double => false
  | complexSingle | complexDouble => true

/-- The precision of pairs of elements; pairing a second time changes nothing. -/
def paired : Precision → Precision
  | single | complexSingle => complexSingle
  | double | complexDouble => complexDouble

@[simp] theorem isComplex_paired (p : Precision) : p.paired.isComplex = true := by
  cases p <;> rfl

/-- The full name of a routine for this precision. -/
def entryPoint (p : Precision) (routine : String) : String := p.letter.toString ++ routine

/-- Two precisions with the same letter are the same. -/
theorem letter_inj {p q : Precision} : p.letter = q.letter ↔ p = q := by
  cases p <;> cases q <;> decide

end Precision

/-- The letter in front of a routine that only touches indices. -/
def indexLetter : Char := 'X'

/-- The full name of a routine that only touches indices. -/
def indexEntryPoint (routine : String) : String := indexLetter.toString ++ routine

end SparseDevice
