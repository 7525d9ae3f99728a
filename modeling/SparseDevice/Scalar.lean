import SparseDevice.Precision

/-!
# Scalars

The routines are written once for every element type. What they ask of it is arithmetic, a
conjugate and a test for zero. **No laws are asked for**: floating point arithmetic has hardly any,
and a law that only some element types satisfy belongs in the hypotheses of the theorem that needs
it. So the arithmetic comes from the usual operator classes, which a ring or a field has as well,
and `Scalar` adds only what those do not give.

## Main definitions

* `Scalar`: conjugate, zero test and precision of an element type.
* `Scalar.Exact`: a zero test that finds zero only.
* `Cartesian`: complex numbers over any real type, by their two parts.
-/

namespace SparseDevice

/-- What a routine asks of an element type besides its arithmetic. -/
class Scalar (α : Type) where
  /-- The precision by which the device names its routines for `α`. -/
  precision : Precision
  /-- The complex conjugate; the identity on a real type. -/
  conj : α → α
  /-- Whether an element counts as zero. -/
  isZero : α → Bool

/-- The zero test finds zero and nothing else, as in exact arithmetic. -/
def Scalar.Exact (α : Type) [Zero α] [Scalar α] : Prop := ∀ v : α, Scalar.isZero v = true ↔ v = 0

instance : Scalar Float32 where
  precision := .single
  conj x := x
  isZero x := x == 0

instance : Scalar Float where
  precision := .double
  conj x := x
  isZero x := x == 0

/-- A complex number, by its real and imaginary part. -/
structure Cartesian (ρ : Type) where
  re : ρ
  im : ρ
deriving DecidableEq

namespace Cartesian

variable {ρ : Type}

instance [Zero ρ] : Zero (Cartesian ρ) := ⟨⟨0, 0⟩⟩

instance [One ρ] [Zero ρ] : One (Cartesian ρ) := ⟨⟨1, 0⟩⟩

instance [Add ρ] : Add (Cartesian ρ) := ⟨fun z w => ⟨z.re + w.re, z.im + w.im⟩⟩

instance [Sub ρ] : Sub (Cartesian ρ) := ⟨fun z w => ⟨z.re - w.re, z.im - w.im⟩⟩

instance [Add ρ] [Sub ρ] [Mul ρ] : Mul (Cartesian ρ) :=
  ⟨fun z w => ⟨z.re * w.re - z.im * w.im, z.re * w.im + z.im * w.re⟩⟩

/-- The square of the absolute value. -/
def normSq [Add ρ] [Mul ρ] (z : Cartesian ρ) : ρ := z.re * z.re + z.im * z.im

/-- Division multiplies by the conjugate of the divisor and then divides each part by the square
of its absolute value. -/
instance [Add ρ] [Sub ρ] [Mul ρ] [Div ρ] : Div (Cartesian ρ) :=
  ⟨fun z w =>
    ⟨(z.re * w.re + z.im * w.im) / w.normSq, (z.im * w.re - z.re * w.im) / w.normSq⟩⟩

/-- A complex number counts as zero if both parts do. -/
instance [Neg ρ] [Scalar ρ] : Scalar (Cartesian ρ) where
  precision := (Scalar.precision ρ).paired
  conj z := ⟨z.re, -z.im⟩
  isZero z := Scalar.isZero z.re && Scalar.isZero z.im

@[simp] theorem zero_re [Zero ρ] : (0 : Cartesian ρ).re = 0 := rfl
@[simp] theorem zero_im [Zero ρ] : (0 : Cartesian ρ).im = 0 := rfl
@[simp] theorem one_re [One ρ] [Zero ρ] : (1 : Cartesian ρ).re = 1 := rfl
@[simp] theorem one_im [One ρ] [Zero ρ] : (1 : Cartesian ρ).im = 0 := rfl

@[simp] theorem add_re [Add ρ] (z w : Cartesian ρ) : (z + w).re = z.re + w.re := rfl
@[simp] theorem add_im [Add ρ] (z w : Cartesian ρ) : (z + w).im = z.im + w.im := rfl
@[simp] theorem sub_re [Sub ρ] (z w : Cartesian ρ) : (z - w).re = z.re - w.re := rfl
@[simp] theorem sub_im [Sub ρ] (z w : Cartesian ρ) : (z - w).im = z.im - w.im := rfl

@[simp] theorem mul_re [Add ρ] [Sub ρ] [Mul ρ] (z w : Cartesian ρ) :
    (z * w).re = z.re * w.re - z.im * w.im := rfl

@[simp] theorem mul_im [Add ρ] [Sub ρ] [Mul ρ] (z w : Cartesian ρ) :
    (z * w).im = z.re * w.im + z.im * w.re := rfl

end Cartesian

end SparseDevice
