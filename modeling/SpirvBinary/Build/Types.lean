import SpirvBinary.Build
import SpirvBinary.Literal

/-!
# Declaring types and scalar constants

Every type and constant is declared through `Build.declare`, so that declaring it
again gives the id of the first declaration.
-/

namespace SpirvBinary

/-- Where a variable lives, as an operand word. -/
abbrev StorageClass := Word

/-- The storage class of a function's variables. -/
def StorageClass.function : StorageClass := 7

namespace Build

open Opcode

/-- Declares a type. -/
def declareType (opcode : Opcode) (operands : List Word) : Build Id :=
  declare opcode none operands

/-- Declares a constant of the given `type`. -/
def declareConstant (opcode : Opcode) (type : Id) (operands : List Word) : Build Id :=
  declare opcode (some type) operands

/-! ### Types -/

def voidType : Build Id := declareType opTypeVoid []

def boolType : Build Id := declareType opTypeBool []

/-- Whole numbers of `width` bits. -/
def intType (width : Word) (signed : Bool) : Build Id :=
  declareType opTypeInt [width, flagWord signed]

/-- Floating-point numbers of `width` bits. -/
def floatType (width : Word) : Build Id := declareType opTypeFloat [width]

def vectorType (component : Id) (count : Word) : Build Id :=
  declareType opTypeVector [component.word, count]

def matrixType (column : Id) (columns : Word) : Build Id :=
  declareType opTypeMatrix [column.word, columns]

def pointerType (storage : StorageClass) (pointee : Id) : Build Id :=
  declareType opTypePointer [storage, pointee.word]

def functionType (returnType : Id) (params : List Id) : Build Id :=
  declareType opTypeFunction (returnType.word :: params.map Id.word)

/-! ### Constants -/

/-- A signed constant of 32 bits. -/
def intConstant (value : Int32) : Build Id := do
  let type ← intType 32 true
  declareConstant opConstant type [intWord value]

/-- An unsigned constant of 32 bits. -/
def wordConstant (value : Word) : Build Id := do
  let type ← intType 32 false
  declareConstant opConstant type [value]

/-- A floating-point constant of 32 bits. -/
def floatConstant (value : Single) : Build Id := do
  let type ← floatType 32
  declareConstant opConstant type [value.bits]

def boolConstant (value : Bool) : Build Id := do
  let type ← boolType
  declareConstant (if value then opConstantTrue else opConstantFalse) type []

/-- A constant of the given `type` whose `parts` are other constants. -/
def compositeConstant (type : Id) (parts : List Id) : Build Id :=
  declareConstant opConstantComposite type (parts.map Id.word)

/-! ### Types that need a constant or a struct -/

/-- Arrays of the given `length`, which is declared as an unsigned constant first. -/
def arrayType (element : Id) (length : Word) : Build Id := do
  let length ← wordConstant length
  declareType opTypeArray [element.word, length.word]

/-- Pointers to the struct that is registered under `name`. -/
def structPointer (name : String) (storage : StorageClass) : Build Id := do
  let type ← structType name
  pointerType storage type

end Build

end SpirvBinary
