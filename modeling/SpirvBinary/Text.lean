import SpirvBinary.Word

/-!
# Text as words

Text is stored in a module by its UTF-8 bytes, four to a word with the first byte
in the least significant place, and is always followed by at least one zero byte.
The last word is filled up with zeros; text that fills its words exactly is
followed by a word of zeros.
-/

namespace SpirvBinary

/-- The `bytes` packed four to a word, with one to four zero bytes after the last one. -/
def packBytes (bytes : Array Byte) : List Word :=
  (List.range (bytes.size / 4 + 1)).map fun i =>
    Word.ofBytes (bytes.getD (4 * i) 0) (bytes.getD (4 * i + 1) 0) (bytes.getD (4 * i + 2) 0)
      (bytes.getD (4 * i + 3) 0)

@[simp] theorem length_packBytes (bytes : Array Byte) :
    (packBytes bytes).length = bytes.size / 4 + 1 := by
  simp [packBytes]

/-- The words that store a text. -/
def textWords (text : String) : List Word := packBytes text.toUTF8.data

end SpirvBinary
