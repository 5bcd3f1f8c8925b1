import SpirvBinary.Word

/-!
# Opcodes

An opcode is the sixteen-bit number that says what an instruction does.  The
opcodes that the library itself writes are named here, each by its name in the
instruction set with `op` in front.
-/

namespace SpirvBinary

/-- The number that says what an instruction does. -/
structure Opcode where
  /-- The code, as it stands in the lower half of an instruction's first word. -/
  code : UInt16
  deriving DecidableEq, Repr, Inhabited

namespace Opcode

/-! ### Debug information and module settings -/

def opSource : Opcode := ⟨3⟩
def opName : Opcode := ⟨5⟩
def opMemberName : Opcode := ⟨6⟩
def opExtension : Opcode := ⟨10⟩
def opExtInstImport : Opcode := ⟨11⟩
def opMemoryModel : Opcode := ⟨14⟩
def opEntryPoint : Opcode := ⟨15⟩
def opExecutionMode : Opcode := ⟨16⟩
def opCapability : Opcode := ⟨17⟩
def opDecorate : Opcode := ⟨71⟩
def opMemberDecorate : Opcode := ⟨72⟩
def opModuleProcessed : Opcode := ⟨330⟩

/-! ### Types and constants -/

def opTypeVoid : Opcode := ⟨19⟩
def opTypeBool : Opcode := ⟨20⟩
def opTypeInt : Opcode := ⟨21⟩
def opTypeFloat : Opcode := ⟨22⟩
def opTypeVector : Opcode := ⟨23⟩
def opTypeMatrix : Opcode := ⟨24⟩
def opTypeArray : Opcode := ⟨28⟩
def opTypeStruct : Opcode := ⟨30⟩
def opTypePointer : Opcode := ⟨32⟩
def opTypeFunction : Opcode := ⟨33⟩
def opConstantTrue : Opcode := ⟨41⟩
def opConstantFalse : Opcode := ⟨42⟩
def opConstant : Opcode := ⟨43⟩
def opConstantComposite : Opcode := ⟨44⟩
def opVariable : Opcode := ⟨59⟩

/-! ### Functions -/

def opFunction : Opcode := ⟨54⟩
def opFunctionParameter : Opcode := ⟨55⟩
def opFunctionEnd : Opcode := ⟨56⟩
def opFunctionCall : Opcode := ⟨57⟩
def opLoad : Opcode := ⟨61⟩
def opStore : Opcode := ⟨62⟩
def opIAdd : Opcode := ⟨128⟩
def opSLessThan : Opcode := ⟨177⟩

/-! ### Control flow -/

def opLoopMerge : Opcode := ⟨246⟩
def opSelectionMerge : Opcode := ⟨247⟩
def opLabel : Opcode := ⟨248⟩
def opBranch : Opcode := ⟨249⟩
def opBranchConditional : Opcode := ⟨250⟩
def opReturn : Opcode := ⟨253⟩
def opReturnValue : Opcode := ⟨254⟩

end Opcode

end SpirvBinary
