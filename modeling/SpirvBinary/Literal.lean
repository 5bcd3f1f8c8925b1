import SpirvBinary.Ieee
import SpirvBinary.Text

/-!
# Literals

A literal operand stands in an instruction as one word, as two words with the
more significant one first, or, for text, as a run of words.  Signed numbers are
stored in two's complement, and one narrower than a word is sign-extended to it.
-/

namespace SpirvBinary

/-- A value that is written into an instruction as it is. -/
inductive Literal where
  /-- An unsigned number, an enumerant or a mask. -/
  | word (value : Word)
  /-- A signed number of 32 bits. -/
  | int (value : Int32)
  /-- A signed number of 16 bits. -/
  | short (value : Int16)
  /-- An unsigned number of 64 bits. -/
  | wide (value : UInt64)
  /-- A signed number of 64 bits. -/
  | long (value : Int64)
  /-- A floating-point number of 32 bits. -/
  | single (value : Single)
  /-- A floating-point number of 64 bits. -/
  | double (value : Double)
  /-- A truth value, written as one or zero. -/
  | flag (value : Bool)
  /-- Text. -/
  | text (value : String)

/-- The word of a signed number: its two's complement. -/
def intWord (value : Int32) : Word := value.toUInt32

/-- The word of a truth value. -/
def flagWord (value : Bool) : Word := if value then 1 else 0

/-- The words a literal is written as. -/
def Literal.words : Literal → List Word
  | .word value => [value]
  | .int value => [intWord value]
  | .short value => [intWord value.toInt32]
  | .wide value => Word.pair value
  | .long value => Word.pair value.toUInt64
  | .single value => [value.bits]
  | .double value => Word.pair value.bits
  | .flag value => [flagWord value]
  | .text value => textWords value

end SpirvBinary
