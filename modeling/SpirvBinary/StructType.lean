/-!
# Struct types

A struct type has a name and named fields.  A field can be a struct of its own,
given in full or by the name it was registered under.
-/

namespace SpirvBinary

/-- The type of a struct's field. -/
inductive FieldType where
  /-- A signed number of 32 bits. -/
  | int
  /-- An unsigned number of 32 bits. -/
  | word
  /-- A floating-point number of 32 bits. -/
  | float
  /-- A vector of floating-point numbers. -/
  | vector (count : UInt32)
  /-- A matrix of floating-point numbers. -/
  | matrix (columns rows : UInt32)
  /-- A struct, which is registered when it has not been yet. -/
  | struct (name : String) (fields : List (String × FieldType))
  /-- A struct that must have been registered under the name. -/
  | named (name : String)
  deriving Inhabited

namespace FieldType

mutual

/-- Equality of field types. -/
def same : FieldType → FieldType → Bool
  | .int, .int => true
  | .word, .word => true
  | .float, .float => true
  | .vector a, .vector b => a == b
  | .matrix columns rows, .matrix columns' rows' => columns == columns' && rows == rows'
  | .struct name fields, .struct name' fields' => name == name' && sameFields fields fields'
  | .named a, .named b => a == b
  | _, _ => false

/-- Equality of fields, their names and order included. -/
def sameFields : List (String × FieldType) → List (String × FieldType) → Bool
  | [], [] => true
  | (a, type) :: rest, (b, type') :: rest' =>
      (a == b && same type type') && sameFields rest rest'
  | _, _ => false

end

end FieldType

/-- A struct type. -/
structure StructType where
  name : String
  /-- The fields with their names, in order. -/
  fields : List (String × FieldType)
  deriving Inhabited

/-- Equality of struct types: the same name and the same fields. -/
def StructType.same (a b : StructType) : Bool :=
  a.name == b.name && FieldType.sameFields a.fields b.fields

end SpirvBinary
