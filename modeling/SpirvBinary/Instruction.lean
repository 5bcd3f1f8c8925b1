import SpirvBinary.Fault
import SpirvBinary.Id

/-!
# Instructions and their encoding

An instruction has an opcode, optionally the id of its result type, optionally
the id of its result, and operand words.  It is encoded as a first word, with
the number of words in the upper half and the opcode in the lower half, followed
by the two ids as far as they are present and the operands.  The length field has
sixteen bits, so an instruction of more than `65535` words has no encoding.

## Main definitions

* `Instruction.payload` — the words after the first one.
* `Instruction.encoding` — the words of an instruction that fits.
* `Instruction.encode` — the encoding, or the fault of one that does not fit.
-/

namespace SpirvBinary

/-- An instruction whose operands have been flattened to words. -/
structure Instruction where
  /-- What the instruction does. -/
  opcode : Opcode
  /-- The type of the result. -/
  resultType : Option Id := none
  /-- The id under which the result is known. -/
  result : Option Id := none
  /-- The operand words after the two ids. -/
  operands : List Word := []
  deriving DecidableEq, Repr, Inhabited

namespace Instruction

/-- The largest number of words that the length field can state. -/
def maxWordCount : Nat := 65535

/-- The words of an id that may be absent. -/
def slot : Option Id → List Word
  | none => []
  | some id => [id.word]

/-- The words after the first one: result type, result and operands. -/
def payload (inst : Instruction) : List Word :=
  slot inst.resultType ++ (slot inst.result ++ inst.operands)

/-- The number of words of an instruction. -/
def wordCount (inst : Instruction) : Nat :=
  (slot inst.resultType).length + (slot inst.result).length + inst.operands.length + 1

/-- An instruction has an encoding when the length field can state its `wordCount`. -/
def Fits (inst : Instruction) : Prop := inst.wordCount ≤ maxWordCount

instance (inst : Instruction) : Decidable inst.Fits := Nat.decLe _ _

/-- The words of an instruction that fits. -/
def encoding (inst : Instruction) : List Word :=
  Word.ofHalves inst.wordCount inst.opcode.code.toNat :: inst.payload

/-- The words of an instruction, or the fault of one that does not fit, `tooLong`. -/
def encode (inst : Instruction) : Except Fault (List Word) :=
  if inst.Fits then .ok inst.encoding else .error (.tooLong inst.opcode inst.wordCount)

/-- The given `words` followed by those of `inst`.  They stay as they are when the instruction is
too long. -/
def encodeAfter (words : List Word) (inst : Instruction) : List Word × Option Fault :=
  match inst.encode with
  | .ok encoded => (words ++ encoded, none)
  | .error fault => (words, some fault)

@[simp] theorem slot_none : slot none = [] := rfl

@[simp] theorem slot_some (id : Id) : slot (some id) = [id.word] := rfl

theorem length_payload (inst : Instruction) : inst.payload.length + 1 = inst.wordCount := by
  simp [payload, wordCount]
  omega

@[simp] theorem length_encoding (inst : Instruction) : inst.encoding.length = inst.wordCount := by
  simp [encoding, length_payload]

end Instruction

end SpirvBinary
