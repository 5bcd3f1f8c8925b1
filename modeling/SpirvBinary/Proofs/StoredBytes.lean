import SpirvBinary.Binary

/-!
# Modules as bytes

A module is stored as the bytes of its words, four to a word and the least significant one
first.  Nothing is lost: the byte at any place is a byte of a known word, and taking the bytes
four at a time gives the words back, for these bytes and no others.

An export fills the room it is given from the front.  Where the room ends inside a word, the
first bytes of that word have been stored all the same.

## Main definitions

* `Word.byteAt` — a byte of a word by its place.
* `readWords` — the words that bytes stand for, taken four at a time.
* `Binary.fitting` — how many bytes of a module a buffer has room for.

## Main results

* `getElem?_flatMap_bytes` — the byte at a place of a stored module.
* `readWords_eq_some_iff` — reading and storing are inverse to each other.
* `Binary.exportTo_fst` — what a buffer holds after an export.
* `export_agrees_with_words` — **bytes and export of a module agree with its words.**
-/

namespace SpirvBinary

/-! ### Bytes of words -/

namespace Word

/-- The byte of the word `w` at a `place` from 0 to 3, the least significant one at 0. -/
def byteAt (w : Word) (place : Nat) : Byte := UInt8.ofNat (w.toNat >>> (8 * place))

theorem bytes_eq_byteAt (w : Word) :
    bytes w = [byteAt w 0, byteAt w 1, byteAt w 2, byteAt w 3] := by
  simp [bytes, byteAt, Nat.shiftRight_eq_div_pow]

/-- A word is made of its bytes. -/
theorem ofBytes_byteAt (w : Word) :
    ofBytes (byteAt w 0) (byteAt w 1) (byteAt w 2) (byteAt w 3) = w := by
  have hw := w.toNat_lt
  apply UInt32.toNat_inj.mp
  simp only [ofBytes, byteAt, UInt32.toNat_ofNat', UInt8.toNat_ofNat', Nat.shiftRight_eq_div_pow]
  omega

end Word

theorem length_flatMap_bytes (words : List Word) :
    (words.flatMap Word.bytes).length = 4 * words.length := by
  induction words with
  | nil => rfl
  | cons word rest ih =>
    rw [List.flatMap_cons, List.length_append, ih, Word.length_bytes, List.length_cons]
    omega

/-- The byte of stored words at the index `place` belongs to the word at a fourth of that index,
rounded down. -/
theorem getElem?_flatMap_bytes (words : List Word) (place : Nat) :
    (words.flatMap Word.bytes)[place]?
      = words[place / 4]?.map fun word => word.byteAt (place % 4) := by
  induction words generalizing place with
  | nil => simp
  | cons word rest ih =>
    rw [List.flatMap_cons, Word.bytes_eq_byteAt]
    match place with
    | 0 | 1 | 2 | 3 => rfl
    | later + 4 =>
      have hword : (later + 4) / 4 = later / 4 + 1 := by omega
      have hbyte : (later + 4) % 4 = later % 4 := by omega
      rw [hword, hbyte, List.getElem?_cons_succ, ← ih]
      rfl

/-! ### Reading words -/

/-- The words that bytes stand for, taken four at a time.  No byte may be left over. -/
def readWords : List Byte → Option (List Word)
  | [] => some []
  | a :: b :: c :: d :: rest => (readWords rest).map (Word.ofBytes a b c d :: ·)
  | _ => none

theorem readWords_flatMap_bytes (words : List Word) :
    readWords (words.flatMap Word.bytes) = some words := by
  induction words with
  | nil => rfl
  | cons word rest ih =>
    have hfour : (word :: rest).flatMap Word.bytes
        = word.byteAt 0 :: word.byteAt 1 :: word.byteAt 2 :: word.byteAt 3
          :: rest.flatMap Word.bytes := by
      rw [List.flatMap_cons, Word.bytes_eq_byteAt]
      rfl
    rw [hfour, readWords, ih, Option.map_some, Word.ofBytes_byteAt]

theorem eq_flatMap_bytes_of_readWords {bytes : List Byte} {words : List Word}
    (h : readWords bytes = some words) : bytes = words.flatMap Word.bytes := by
  fun_induction readWords bytes generalizing words with
  | case1 =>
    cases h
    rfl
  | case2 a b c d rest ih =>
    obtain ⟨others, hothers, rfl⟩ := Option.map_eq_some_iff.mp h
    rw [List.flatMap_cons, Word.bytes_ofBytes, ← ih hothers]
    rfl
  | case3 => cases h

/-- Reading by `readWords` and storing are inverse to each other. -/
theorem readWords_eq_some_iff {bytes : List Byte} {words : List Word} :
    readWords bytes = some words ↔ bytes = words.flatMap Word.bytes := by
  refine ⟨eq_flatMap_bytes_of_readWords, ?_⟩
  rintro rfl
  exact readWords_flatMap_bytes words

/-! ### Stored and exported modules -/

namespace Binary

variable (binary : Binary)

theorem length_bytes : binary.bytes.length = 4 * binary.words.length :=
  length_flatMap_bytes binary.words

/-- Modules with the same bytes have the same words. -/
theorem bytes_eq_iff {other : Binary} :
    binary.bytes = other.bytes ↔ binary.words = other.words := by
  constructor
  · intro h
    have hread : readWords binary.bytes = some other.words := readWords_eq_some_iff.mpr h
    rw [bytes, readWords_flatMap_bytes] at hread
    exact Option.some.inj hread
  · intro h
    rw [bytes, bytes, h]

variable (buffer : List Byte)

/-- The number of bytes of a module that `buffer` has room for. -/
def fitting : Nat := min buffer.length (4 * binary.words.length)

/-- The bytes that fit are stored, and what is behind them in the buffer stays. -/
theorem exportTo_fst :
    (binary.exportTo buffer).1
      = binary.bytes.take (binary.fitting buffer) ++ buffer.drop (binary.fitting buffer) := by
  rw [fitting, ← length_bytes]
  simp only [exportTo]
  rcases Nat.le_total buffer.length binary.bytes.length with h | h
  · rw [Nat.min_eq_left h, List.drop_of_length_le h, List.drop_of_length_le (Nat.le_refl _)]
  · rw [Nat.min_eq_right h, List.take_of_length_le h, List.take_of_length_le (Nat.le_refl _)]

theorem length_take_fitting :
    (binary.bytes.take (binary.fitting buffer)).length = binary.fitting buffer := by
  rw [List.length_take, length_bytes, fitting]
  omega

/-- The index `place` of a buffer holds after an export the byte that the module has there, or else
what it held before. -/
theorem getElem?_exportTo (place : Nat) :
    (binary.exportTo buffer).1[place]?
      = if place < binary.fitting buffer then
          binary.words[place / 4]?.map fun word => word.byteAt (place % 4)
        else buffer[place]? := by
  have hlength := binary.length_take_fitting buffer
  rw [exportTo_fst]
  by_cases h : place < binary.fitting buffer
  · rw [if_pos h, List.getElem?_append_left (by omega), List.getElem?_take_of_lt h, bytes,
      getElem?_flatMap_bytes]
  · rw [if_neg h, List.getElem?_append_right (by omega), hlength, List.getElem?_drop]
    congr 1
    omega

theorem exportTo_snd :
    (binary.exportTo buffer).2
      = if buffer.length < 4 * binary.words.length then some .shortWrite else none := by
  rw [← length_bytes]
  by_cases h : binary.bytes.length ≤ buffer.length
  · rw [if_neg (by omega)]
    exact if_pos h
  · rw [if_pos (by omega)]
    exact if_neg h

end Binary

/-- **Bytes and export of a module agree with its words.**  A module has four bytes for each
word; the bytes that read as its words, four at a time, are its bytes and no others, so modules
with the same bytes have the same words; and the first words are those of the header.  An export
to a buffer stores as many bytes as fit, even when that ends inside a word: each place holds
its byte of its word then, and behind them the buffer is as it was.  The export fails when the
room is too small for all words, and only then. -/
theorem export_agrees_with_words (binary : Binary) :
    binary.bytes.length = 4 * binary.words.length ∧
    (∀ bytes, readWords bytes = some binary.words ↔ bytes = binary.bytes) ∧
    binary.words.take 5 = binary.header.words ∧
    (∀ other : Binary, binary.bytes = other.bytes ↔ binary.words = other.words) ∧
    ∀ buffer : List Byte,
      let room := buffer.length
      let stored := (binary.exportTo buffer).1
      let fault := (binary.exportTo buffer).2
      let written := min room (4 * binary.words.length)
      stored.length = room ∧
      stored.take written = binary.bytes.take written ∧
      stored.drop written = buffer.drop written ∧
      (∀ place, stored[place]?
        = if place < written then
            binary.words[place / 4]?.map fun word => word.byteAt (place % 4)
          else buffer[place]?) ∧
      (fault = some .shortWrite ↔ room < 4 * binary.words.length) ∧
      (fault = none ↔ 4 * binary.words.length ≤ room) := by
  refine ⟨binary.length_bytes, fun _ => readWords_eq_some_iff, rfl,
    fun _ => binary.bytes_eq_iff, fun buffer => ?_⟩
  intro room stored fault written
  have hstored : stored = binary.bytes.take written ++ buffer.drop written :=
    binary.exportTo_fst buffer
  have hlength : (binary.bytes.take written).length = written :=
    binary.length_take_fitting buffer
  have hfault : fault = if room < 4 * binary.words.length then some .shortWrite else none :=
    binary.exportTo_snd buffer
  refine ⟨?_, ?_, ?_, binary.getElem?_exportTo buffer, ?_, ?_⟩
  · rw [hstored, List.length_append, hlength, List.length_drop]
    omega
  · rw [hstored, List.take_left' hlength]
  · rw [hstored, List.drop_left' hlength]
  · rw [hfault]
    split <;> simp [*]
  · rw [hfault, ← Nat.not_lt]
    split <;> simp [*]

/-- A room of six bytes holds the first word and half of the second one. -/
example :
    Binary.exportTo ⟨⟨0x07230203, 0x00010600, 0, 1, 0⟩, []⟩ (List.replicate 6 0xaa)
      = ([0x03, 0x02, 0x23, 0x07, 0x00, 0x06], some .shortWrite) := by
  decide

end SpirvBinary
