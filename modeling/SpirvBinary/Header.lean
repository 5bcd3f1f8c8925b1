import SpirvBinary.Word

/-!
# The header of a module

A module opens with five words: a magic number, the version of the format, the
tool that generated the module, the bound of its ids and a reserved word.
-/

namespace SpirvBinary

/-- A version of the format. -/
structure Version where
  major : UInt8
  minor : UInt8
  deriving DecidableEq, Repr, Inhabited

namespace Version

/-- The version a module has unless another one is asked for. -/
def standard : Version := ⟨1, 6⟩

/-- The version as a word: the numbers stand in the two middle bytes. -/
def word (version : Version) : Word :=
  UInt32.ofNat (version.major.toNat * 65536 + version.minor.toNat * 256)

/-- The version that the word `w` states, whatever its other two bytes are. -/
def ofWord (w : Word) : Version :=
  ⟨UInt8.ofNat (w.toNat / 65536), UInt8.ofNat (w.toNat / 256)⟩

@[simp] theorem ofWord_word (version : Version) : ofWord version.word = version := by
  obtain ⟨major, minor⟩ := version
  have hmajor := major.toNat_lt
  have hminor := minor.toNat_lt
  have h : (word ⟨major, minor⟩).toNat = major.toNat * 65536 + minor.toNat * 256 := by
    rw [word, UInt32.toNat_ofNat', Nat.mod_eq_of_lt (by simp only; omega)]
  simp only [ofWord, h, mk.injEq]
  constructor <;> apply UInt8.toNat_inj.mp <;> rw [UInt8.toNat_ofNat'] <;> omega

end Version

/-- What a module says about itself before its first instruction. -/
structure Header where
  /-- The number by which a module is recognised. -/
  magic : Word
  /-- The word of the version. -/
  version : Word
  /-- The tool that generated the module. -/
  generator : Word
  /-- All ids of the module are below this number. -/
  bound : Word
  /-- The reserved word. -/
  schema : Word
  deriving DecidableEq, Repr, Inhabited

namespace Header

/-- The number by which a module is recognised. -/
def magicNumber : Word := 0x07230203

/-- The number of words of a header. -/
def length : Nat := 5

/-- The words of a header. -/
def words (header : Header) : List Word :=
  [header.magic, header.version, header.generator, header.bound, header.schema]

@[simp] theorem length_words (header : Header) : header.words.length = length := rfl

end Header

end SpirvBinary
