import SpirvBinary.Opcode.Catalogue

/-!
# Faults

The ways in which encoding, building, reading or exporting a module can fail.
A fault is a cause; its wording is `Fault.message`.
-/

namespace SpirvBinary

/-- Why an operation on a module failed. -/
inductive Fault where
  /-- An instruction needs more words than its sixteen-bit length field can state. -/
  | tooLong (opcode : Opcode) (wordCount : Nat)
  /-- A struct was referred to by a name that no struct was registered under. -/
  | unknownStruct (name : String)
  /-- An instruction of a function was given while no function was open. -/
  | noOpenFunction
  /-- The module was finished while functions were still open. -/
  | openFunctions (depth : Nat)
  /-- A word stream holds no whole instruction at the given position. -/
  | truncated (offset : Nat)
  /-- The place a module was written to had no room for all of it. -/
  | shortWrite
  deriving DecidableEq, Repr, Inhabited

/-- The wording of a fault. -/
def Fault.message : Fault → String
  | .tooLong opcode wordCount =>
      opcode.name ++ " needs " ++ Nat.repr wordCount
        ++ " words, which does not fit the 16-bit length field"
  | .unknownStruct name => "struct `" ++ name ++ "` used before its declaration"
  | .noOpenFunction => "no function is being assembled"
  | .openFunctions depth =>
      Nat.repr depth ++ " function(s) still open when finishing the module"
  | .truncated offset => "truncated instruction at word " ++ Nat.repr offset
  | .shortWrite => "IO error: failed to write whole buffer"

end SpirvBinary
