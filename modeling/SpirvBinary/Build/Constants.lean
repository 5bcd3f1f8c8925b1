import SpirvBinary.Build.Types
import SpirvBinary.Constant

/-!
# Declaring constant values

A composite value is declared from the bottom up: first its type, then its parts
in order, then the value itself.
-/

namespace SpirvBinary

namespace Build

/-- Declares floating-point constants, after those already `declared`, newest first. -/
def floatConstants (declared : List Id) : List Single → Build (List Id)
  | [] => return declared.reverse
  | value :: rest => do
      let id ← floatConstant value
      floatConstants (id :: declared) rest

/-- Declares a vector with the given `components`. -/
def vectorConstant (components : List Single) : Build Id := do
  let float ← floatType 32
  let type ← vectorType float (UInt32.ofNat components.length)
  let parts ← floatConstants [] components
  compositeConstant type parts

/-- Declares vectors, after those already `declared`, newest first. -/
def vectorConstants (declared : List Id) : List (List Single) → Build (List Id)
  | [] => return declared.reverse
  | column :: rest => do
      let id ← vectorConstant column
      vectorConstants (id :: declared) rest

/-- Declares a matrix with the given `columns`.  Its column type has as many components as the
first column; the other columns are vectors of their own lengths. -/
def matrixConstant (columns : List (List Single)) : Build Id := do
  let float ← floatType 32
  let column ← vectorType float (UInt32.ofNat (columns.headD []).length)
  let type ← matrixType column (UInt32.ofNat columns.length)
  let parts ← vectorConstants [] columns
  compositeConstant type parts

mutual

/-- Declares a value. -/
def constant : Constant → Build Id
  | .int value => intConstant value
  | .word value => wordConstant value
  | .float value => floatConstant value
  | .vector components => vectorConstant components
  | .matrix columns => matrixConstant columns
  | .struct name fields => do
      let type ← structType name
      let parts ← constants [] fields
      compositeConstant type parts

/-- Declares values, after those already `declared`, newest first. -/
def constants (declared : List Id) : List Constant → Build (List Id)
  | [] => return declared.reverse
  | value :: rest => do
      let id ← constant value
      constants (id :: declared) rest

end

end Build

end SpirvBinary
