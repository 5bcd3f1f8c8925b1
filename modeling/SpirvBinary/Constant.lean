import SpirvBinary.Ieee

/-!
# Constant values

The values that can be declared as constants: scalars, vectors and matrices of
floating-point numbers, and structs of constants.
-/

namespace SpirvBinary

/-- The value of a constant. -/
inductive Constant where
  /-- A signed number. -/
  | int (value : Int32)
  /-- An unsigned number. -/
  | word (value : UInt32)
  /-- A floating-point number. -/
  | float (value : Single)
  /-- A vector of floating-point numbers. -/
  | vector (components : List Single)
  /-- A matrix, column by column.  The first column decides the column type. -/
  | matrix (columns : List (List Single))
  /-- A value of a registered struct, field by field. -/
  | struct (name : String) (fields : List Constant)
  deriving Inhabited

namespace Constant

mutual

/-- Equality of values, with floating-point numbers compared as numbers. -/
def same : Constant → Constant → Bool
  | .int a, .int b => a == b
  | .word a, .word b => a == b
  | .float a, .float b => a.same b
  | .vector a, .vector b => Single.sameAll a b
  | .matrix a, .matrix b => Single.sameRows a b
  | .struct name fields, .struct name' fields' => name == name' && sameFields fields fields'
  | _, _ => false

/-- Equality of the fields of two structs. -/
def sameFields : List Constant → List Constant → Bool
  | [], [] => true
  | a :: as, b :: bs => same a b && sameFields as bs
  | _, _ => false

end

end Constant

end SpirvBinary
