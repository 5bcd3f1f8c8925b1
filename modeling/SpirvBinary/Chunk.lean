import SpirvBinary.Instruction

/-!
# Reading a word stream

A word stream splits into instructions by their length fields alone, without any
knowledge of what the operands mean.  An instruction read in this way is a
`Chunk`: its opcode and all words after the first.  A `Reader` takes one chunk
after the other off a stream, and stops at the first place where no whole
instruction stands.

## Main definitions

* `Chunk.read` — the first chunk of a stream and the words after it.
* `Reader.next?` — the next item of a reader, and the reader after it.
* `Reader.drain` — all items of a reader, and the reader at the end.
-/

namespace SpirvBinary

/-- An instruction as it stands in a word stream. -/
structure Chunk where
  /-- What the instruction does. -/
  opcode : Opcode
  /-- All words after the first, ids among them. -/
  payload : List Word
  deriving DecidableEq, Repr, Inhabited

namespace Chunk

/-- The words of a chunk: the first one states their number and the opcode. -/
def words (chunk : Chunk) : List Word :=
  Word.ofHalves (chunk.payload.length + 1) chunk.opcode.code.toNat :: chunk.payload

/-- Takes the first chunk off `stream`.  The `offset` is the position of the stream's first word,
which a fault reports. -/
def read (stream : List Word) (offset : Nat) : Except Fault (Chunk × List Word) :=
  match stream with
  | [] => .error (.truncated offset)
  | first :: rest =>
      let payload := rest.take (Word.high first - 1)
      if payload.length + 1 = Word.high first then
        .ok (⟨⟨UInt16.ofNat (Word.low first)⟩, payload⟩, rest.drop (Word.high first - 1))
      else
        .error (.truncated offset)

/-- Reading a chunk uses up at least one word. -/
theorem length_lt_of_read {stream rest : List Word} {offset : Nat} {chunk : Chunk}
    (h : read stream offset = .ok (chunk, rest)) : rest.length < stream.length := by
  cases stream with
  | nil => simp [read] at h
  | cons first tail =>
    simp only [read] at h
    split at h
    · simp only [Except.ok.injEq, Prod.mk.injEq] at h
      rw [← h.2, List.length_drop, List.length_cons]
      omega
    · simp at h

end Chunk

/-- The chunk an instruction is read back as. -/
def Instruction.chunk (inst : Instruction) : Chunk := ⟨inst.opcode, inst.payload⟩

/-- A position in a word stream from which chunks are read. -/
structure Reader where
  /-- The words not yet read. -/
  stream : List Word
  /-- The position of the first of them. -/
  offset : Nat
  deriving DecidableEq, Repr, Inhabited

namespace Reader

/-- The next item of a reader and the reader after it.  After a fault nothing is
left to read. -/
def next? (reader : Reader) : Option (Except Fault Chunk × Reader) :=
  if reader.stream.isEmpty then none
  else
    match Chunk.read reader.stream reader.offset with
    | .ok (chunk, rest) => some (.ok chunk, ⟨rest, reader.offset + (chunk.payload.length + 1)⟩)
    | .error fault => some (.error fault, ⟨[], reader.offset⟩)

/-- Every item leaves fewer words to read. -/
theorem length_lt_of_next? {reader after : Reader} {item : Except Fault Chunk}
    (h : reader.next? = some (item, after)) : after.stream.length < reader.stream.length := by
  unfold next? at h
  split at h
  · simp at h
  · rename_i hne
    split at h
    · rename_i hread
      simp only [Option.some.injEq, Prod.mk.injEq] at h
      rw [← h.2]
      exact Chunk.length_lt_of_read hread
    · simp only [Option.some.injEq, Prod.mk.injEq] at h
      rw [← h.2]
      simpa [List.length_pos_iff] using hne

/-- The items of `reader` after those in `items`, which have been read already and are given newest
first. -/
def drainAfter (items : List (Except Fault Chunk)) (reader : Reader) :
    List (Except Fault Chunk) × Reader :=
  match h : reader.next? with
  | none => (items.reverse, reader)
  | some (item, after) =>
      have := length_lt_of_next? h
      drainAfter (item :: items) after
termination_by reader.stream.length

/-- All items of a reader in order, and the reader at the end. -/
def drain (reader : Reader) : List (Except Fault Chunk) × Reader := drainAfter [] reader

end Reader

end SpirvBinary
