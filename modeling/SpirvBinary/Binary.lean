import SpirvBinary.Chunk
import SpirvBinary.Header

/-!
# Finished modules

A finished module is its header and the words of its sections.  It is stored as
bytes, four to a word with the least significant one first, and can be exported
to a place of limited room, which is filled as far as it goes.
-/

namespace SpirvBinary

/-- A finished module. -/
structure Binary where
  header : Header
  /-- The words after the header. -/
  body : List Word
  deriving DecidableEq, Repr, Inhabited

namespace Binary

/-- All words of a module, the header's first. -/
def words (binary : Binary) : List Word := binary.header.words ++ binary.body

/-- A reader of the `body`, which starts behind the header. -/
def reader (binary : Binary) : Reader := ⟨binary.body, Header.length⟩

/-- The bytes of a stored module. -/
def bytes (binary : Binary) : List Byte := binary.words.flatMap Word.bytes

/-- Writes a module over the bytes of `buffer`.  The bytes that fit are written in any case; when
some do not fit, the write is reported as `shortWrite`. -/
def exportTo (binary : Binary) (buffer : List Byte) : List Byte × Option Fault :=
  let bytes := binary.bytes
  (bytes.take buffer.length ++ buffer.drop bytes.length,
    if bytes.length ≤ buffer.length then none else some .shortWrite)

end Binary

end SpirvBinary
