import SpirvBinary.Fault
import SpirvBinary.Id
import SpirvBinary.OrderedMap

/-!
# Declarations known to a module

Types and constants are declared once: a declaration with the same opcode and the
same operand words, a constant's type among them, is the same declaration and has
the same id.  Structs are known by name instead, so that two structs with equal
members stay apart.
-/

namespace SpirvBinary

/-- What makes two declarations of types or constants the same. -/
structure DeclarationKey where
  /-- What is declared. -/
  opcode : Opcode
  /-- The words it is declared with, the result id left out. -/
  operands : List Word
  deriving DecidableEq, Repr, Inhabited

/-- The declarations made so far. -/
structure Declarations where
  /-- The ids of types and constants. -/
  types : OrderedMap DeclarationKey Id := {}
  /-- The ids of structs by name, in the order of registration. -/
  structs : OrderedMap String Id := {}
  deriving Inhabited

namespace Declarations

/-- The id of the type or constant with the given `key`, if it has been declared. -/
def type? (known : Declarations) (key : DeclarationKey) : Option Id := known.types.get? key

/-- Notes `id` as that of the type or constant with the given `key`. -/
def insertType (known : Declarations) (key : DeclarationKey) (id : Id) : Declarations :=
  { known with types := known.types.insert key id }

/-- The id of the struct called `name`, if it has been registered. -/
def struct? (known : Declarations) (name : String) : Option Id := known.structs.get? name

/-- Notes `id` as that of the struct called `name`. -/
def insertStruct (known : Declarations) (name : String) (id : Id) : Declarations :=
  { known with structs := known.structs.insert name id }

/-- The id of the struct called `name`, which must have been registered. -/
def struct (known : Declarations) (name : String) : Except Fault Id :=
  match known.struct? name with
  | some id => .ok id
  | none => .error (.unknownStruct name)

/-- The registered structs in the order of registration. -/
def structList (known : Declarations) : List (String × Id) := known.structs.toList

/-- The number of types and constants. -/
def typeCount (known : Declarations) : Nat := known.types.size

/-- The number of structs. -/
def structCount (known : Declarations) : Nat := known.structs.size

end Declarations

end SpirvBinary
