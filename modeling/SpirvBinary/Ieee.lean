import SpirvBinary.Word

/-!
# Floating-point numbers as bit patterns

A module stores floating-point numbers by their bit patterns, and two constants
are the same declaration exactly when their patterns are.  Numbers are therefore
kept as patterns, and comparison as numbers is a separate relation: `Single.same`
holds of the two zeros and of no pair with a NaN in it.
-/

namespace SpirvBinary

/-- A 32-bit floating-point number, given by its bit pattern. -/
structure Single where
  /-- Sign, exponent and fraction. -/
  bits : UInt32
  deriving DecidableEq, Repr, Inhabited

/-- A 64-bit floating-point number, given by its bit pattern. -/
structure Double where
  /-- Sign, exponent and fraction. -/
  bits : UInt64
  deriving DecidableEq, Repr, Inhabited

namespace Single

/-- The bit pattern without the sign. -/
def magnitude (x : Single) : Nat := x.bits.toNat % 2147483648

/-- A number is a NaN when its magnitude lies above that of infinity. -/
def isNaN (x : Single) : Bool := 2139095040 < x.magnitude

/-- Positive and negative zero. -/
def isZero (x : Single) : Bool := x.magnitude == 0

/-- Equality as numbers: a NaN equals nothing, and the two zeros are equal. -/
def same (x y : Single) : Bool :=
  !x.isNaN && !y.isNaN && (x.bits == y.bits || (x.isZero && y.isZero))

/-- Equality of two rows of numbers. -/
def sameAll : List Single → List Single → Bool
  | [], [] => true
  | x :: xs, y :: ys => same x y && sameAll xs ys
  | _, _ => false

/-- Equality of two lists of rows of numbers. -/
def sameRows : List (List Single) → List (List Single) → Bool
  | [], [] => true
  | x :: xs, y :: ys => sameAll x y && sameRows xs ys
  | _, _ => false

end Single

end SpirvBinary
