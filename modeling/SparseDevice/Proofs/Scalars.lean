import Mathlib.Algebra.Field.Rat
import Mathlib.NumberTheory.Zsqrtd.GaussianInt
import SparseDevice.Scalar

/-!
# Element types with exact arithmetic

The integers, the rational numbers and the Gaussian integers can be elements of a matrix. The theorems
about rings and fields apply to them, and since their arithmetic can be run, they serve wherever a
result is computed.

The division of the integers and of the Gaussian integers rounds. Nothing asks for more of it.
-/

namespace SparseDevice

instance : Scalar Int where
  precision := .double
  conj x := x
  isZero x := decide (x = 0)

instance : Scalar Rat where
  precision := .double
  conj x := x
  isZero x := decide (x = 0)

theorem Scalar.exact_rat : Scalar.Exact Rat := fun _ => decide_eq_true_iff

instance : Scalar GaussianInt where
  precision := .complexDouble
  conj := star
  isZero z := decide (z = 0)

theorem Scalar.exact_gaussianInt : Scalar.Exact GaussianInt := fun _ => decide_eq_true_iff

end SparseDevice
