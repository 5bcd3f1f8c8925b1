/-!
# Words and bytes

A SPIR-V module is a stream of 32-bit words.  Two splittings of a word are used
throughout: into two halves of sixteen bits, which is how the first word of an
instruction holds its length and its opcode, and into four bytes, least
significant first, which is how text is packed and how a module is stored.  Both
are defined by arithmetic on `Nat`, so that `omega` sees through them.

## Main definitions

* `Word.ofHalves`, `Word.high`, `Word.low` — the sixteen-bit halves.
* `Word.ofBytes`, `Word.bytes` — the four bytes.
* `Word.pair` — a 64-bit number as two words.
-/

namespace SpirvBinary

/-- The unit of a module. -/
abbrev Word := UInt32

/-- The unit of a stored module. -/
abbrev Byte := UInt8

namespace Word

/-! ### Halves -/

/-- The word with the upper half `high` and the lower half `low`. -/
def ofHalves (high low : Nat) : Word := UInt32.ofNat (high * 65536 + low)

/-- The upper sixteen bits of a word. -/
def high (w : Word) : Nat := w.toNat / 65536

/-- The lower sixteen bits of a word. -/
def low (w : Word) : Nat := w.toNat % 65536

theorem high_lt (w : Word) : high w < 65536 := by
  have := w.toNat_lt
  unfold high
  omega

theorem low_lt (w : Word) : low w < 65536 := Nat.mod_lt _ (by decide)

theorem toNat_ofHalves {h l : Nat} (hh : h < 65536) (hl : l < 65536) :
    (ofHalves h l).toNat = h * 65536 + l := by
  rw [ofHalves, UInt32.toNat_ofNat', Nat.mod_eq_of_lt (by omega)]

theorem high_ofHalves {h l : Nat} (hh : h < 65536) (hl : l < 65536) :
    high (ofHalves h l) = h := by
  rw [high, toNat_ofHalves hh hl]
  omega

theorem low_ofHalves {h l : Nat} (hh : h < 65536) (hl : l < 65536) :
    low (ofHalves h l) = l := by
  rw [low, toNat_ofHalves hh hl]
  omega

/-- A word is made of its halves. -/
@[simp] theorem ofHalves_high_low (w : Word) : ofHalves (high w) (low w) = w := by
  apply UInt32.toNat_inj.mp
  rw [toNat_ofHalves (high_lt w) (low_lt w), high, low]
  omega

/-! ### Bytes -/

/-- The word whose bytes are `a`, `b`, `c`, `d`, the least significant first. -/
def ofBytes (a b c d : Byte) : Word :=
  UInt32.ofNat (a.toNat + 256 * b.toNat + 65536 * c.toNat + 16777216 * d.toNat)

/-- The bytes of a word, the least significant first. -/
def bytes (w : Word) : List Byte :=
  [UInt8.ofNat w.toNat, UInt8.ofNat (w.toNat / 256), UInt8.ofNat (w.toNat / 65536),
    UInt8.ofNat (w.toNat / 16777216)]

@[simp] theorem length_bytes (w : Word) : (bytes w).length = 4 := rfl

/-- The bytes of a word that was made from bytes are those bytes. -/
@[simp] theorem bytes_ofBytes (a b c d : Byte) : bytes (ofBytes a b c d) = [a, b, c, d] := by
  have ha := a.toNat_lt
  have hb := b.toNat_lt
  have hc := c.toNat_lt
  have hd := d.toNat_lt
  have h : (ofBytes a b c d).toNat
      = a.toNat + 256 * b.toNat + 65536 * c.toNat + 16777216 * d.toNat := by
    rw [ofBytes, UInt32.toNat_ofNat', Nat.mod_eq_of_lt (by omega)]
  simp only [bytes, h, List.cons.injEq, and_true]
  refine ⟨?_, ?_, ?_, ?_⟩ <;> apply UInt8.toNat_inj.mp <;> rw [UInt8.toNat_ofNat'] <;> omega

/-! ### Pairs -/

/-- The 64-bit number `n` as two words, the more significant one first. -/
def pair (n : UInt64) : List Word :=
  [UInt32.ofNat (n.toNat / 4294967296), UInt32.ofNat n.toNat]

@[simp] theorem length_pair (n : UInt64) : (pair n).length = 2 := rfl

end Word

end SpirvBinary
