import SpirvBinary.Literal
import SpirvBinary.Script.Names

/-!
# Operands with names

The operands of an instruction in a script: literals, references to ids, and
groups of operands, whose words stand one after the other.
-/

namespace SpirvBinary

/-- An operand, or a group of operands. -/
inductive Operand where
  /-- A literal. -/
  | literal (value : Literal)
  /-- An id. -/
  | id (ref : Ref)
  /-- Words as they are. -/
  | raw (words : List Word)
  /-- No operand. -/
  | none
  /-- Two operands, one after the other. -/
  | append (first second : Operand)
  /-- An operand a number of times. -/
  | replicate (count : Nat) (operand : Operand)
  deriving Inhabited

namespace Operand

/-- The words of an operand whose references are looked up in `names`. -/
def words (names : Names) : Operand → List Word
  | .literal value => value.words
  | .id ref => [names.word ref]
  | .raw words => words
  | .none => []
  | .append first second => first.words names ++ second.words names
  | .replicate count operand => (List.replicate count (operand.words names)).flatten

/-- A list of operands as one group. -/
def ofList : List Operand → Operand
  | [] => .none
  | [operand] => operand
  | operand :: rest => .append operand (ofList rest)

end Operand

/-- An instruction with names. -/
structure Template where
  opcode : Opcode
  resultType : Option Ref := none
  result : Option Ref := none
  operands : Operand := .none
  deriving Inhabited

/-- The instruction a template stands for when its references are looked up in `names`. -/
def Template.instruction (names : Names) (template : Template) : Instruction where
  opcode := template.opcode
  resultType := template.resultType.map names.id
  result := template.result.map names.id
  operands := template.operands.words names

end SpirvBinary
