import SpirvBinary.Chunk

/-!
# Reading what was written

The words of an instruction that fits its length field are read back as that
instruction, whatever words follow.  A reader of several instructions one after the
other therefore finds exactly them, and no word is left over.  In the other direction,
whatever is read as a chunk stood in the stream as the words of that chunk.

## Main results

* `Instruction.read_encoding` — the first instruction of a stream is read back.
* `Chunk.eq_words_of_read` — a stream begins with the words of the chunk read from it.
* `encode_read_round_trip` — **encoding and reading are inverse to each other, up to the
  longest instruction there is.**
* `Reader.drain_encodings` — a stream of instructions is read back as a whole.
-/

namespace SpirvBinary

/-- A word `first` that states the right length is read together with its `payload`. -/
theorem Chunk.read_cons {first : Word} {payload : List Word}
    (h : payload.length + 1 = Word.high first) (rest : List Word) (offset : Nat) :
    Chunk.read (first :: (payload ++ rest)) offset
      = .ok (⟨⟨UInt16.ofNat (Word.low first)⟩, payload⟩, rest) := by
  have hlen : Word.high first - 1 = payload.length := by omega
  simp only [Chunk.read, hlen, List.take_left, List.drop_left]
  rw [if_pos h]

namespace Instruction

/-- An instruction `inst` that fits is read back, and the words `rest` after it are left. -/
theorem read_encoding {inst : Instruction} (h : inst.Fits) (rest : List Word) (offset : Nat) :
    Chunk.read (inst.encoding ++ rest) offset = .ok (inst.chunk, rest) := by
  have hcount : inst.wordCount < 65536 := by
    unfold Fits maxWordCount at h
    omega
  have hcode : inst.opcode.code.toNat < 65536 := inst.opcode.code.toNat_lt
  have hhigh := Word.high_ofHalves hcount hcode
  have hlow := Word.low_ofHalves hcount hcode
  rw [encoding, List.cons_append,
    Chunk.read_cons (inst.length_payload.trans hhigh.symm) rest offset, hlow, UInt16.ofNat_toNat,
    chunk]

end Instruction

/-! ### Reading and encoding -/

/-- The word with the halves `h` and `l`, in terms of a shift. -/
theorem Word.ofHalves_eq_shift {h l : Nat} (hh : h < 65536) (hl : l < 65536) :
    Word.ofHalves h l = UInt32.ofNat h <<< 16 ||| UInt32.ofNat l := by
  have h16 : (16 : UInt32).toNat % 32 = 16 := rfl
  apply UInt32.toNat_inj.mp
  rw [toNat_ofHalves hh hl, UInt32.toNat_or, UInt32.toNat_shiftLeft, UInt32.toNat_ofNat',
    UInt32.toNat_ofNat', h16, Nat.mod_eq_of_lt (a := h) (by omega),
    Nat.mod_eq_of_lt (a := l) (by omega)]
  -- the lower half stands below the lowest bit of the upper one
  have hor := Nat.shiftLeft_add_eq_or_of_lt (b := l) (i := 16) (by omega) h
  rw [Nat.shiftLeft_eq] at hor ⊢
  rw [Nat.mod_eq_of_lt (by omega), ← hor]

/-- A `stream` from which a `chunk` is read begins with the words of that `chunk`. -/
theorem Chunk.eq_words_of_read {stream rest : List Word} {offset : Nat} {chunk : Chunk}
    (h : Chunk.read stream offset = .ok (chunk, rest)) :
    chunk.payload.length + 1 < 65536 ∧ stream = chunk.words ++ rest := by
  cases stream with
  | nil => simp [Chunk.read] at h
  | cons first tail =>
    unfold Chunk.read at h
    by_cases hlen : (tail.take (Word.high first - 1)).length + 1 = Word.high first
    · simp only [if_pos hlen, Except.ok.injEq, Prod.mk.injEq] at h
      obtain ⟨rfl, rfl⟩ := h
      have hhigh := Word.high_lt first
      have hlow : (UInt16.ofNat (Word.low first)).toNat = Word.low first := by
        rw [UInt16.toNat_ofNat', Nat.mod_eq_of_lt (Word.low_lt first)]
      refine ⟨by simp only [hlen]; exact hhigh, ?_⟩
      simp only [Chunk.words, hlen, hlow, Word.ofHalves_high_low, List.cons_append,
        List.take_append_drop]
    · simp only [if_neg hlen] at h
      cases h

/-- The first word of a `chunk` in terms of a shift. -/
theorem Chunk.words_eq_shift {chunk : Chunk} (h : chunk.payload.length + 1 < 65536) :
    chunk.words = (UInt32.ofNat (1 + chunk.payload.length) <<< 16 |||
      chunk.opcode.code.toUInt32) :: chunk.payload := by
  have hcode : UInt32.ofNat chunk.opcode.code.toNat = chunk.opcode.code.toUInt32 := by
    apply UInt32.toNat_inj.mp
    have := chunk.opcode.code.toNat_lt
    rw [UInt32.toNat_ofNat', UInt16.toNat_toUInt32, Nat.mod_eq_of_lt (by omega)]
  rw [Chunk.words, Word.ofHalves_eq_shift h chunk.opcode.code.toNat_lt, hcode, Nat.add_comm]

/-- **Encoding and reading are inverse to each other, up to the longest instruction there is.**  An
instruction `inst` of at most 65535 words has an encoding of as many words; it is put behind any
`words` that are there already, and is read back in front of any `rest` that follows, with the
result type, the result and the operands as its payload.  A longer one has no encoding: the fault
states its opcode and its word count, and the `words` that are there already stay as they are.  In
the other direction, a stream from which a chunk is read consists of the chunk, behind a first word
that states its length and its opcode, and of what is left. -/
theorem encode_read_round_trip (inst : Instruction) (words rest : List Word) (offset : Nat) :
    (inst.wordCount ≤ 65535 → ∃ encoded,
      inst.encode = .ok encoded ∧ encoded.length = inst.wordCount ∧
      inst.encodeAfter words = (words ++ encoded, none) ∧
      Chunk.read (encoded ++ rest) offset
        = .ok (⟨inst.opcode, Instruction.slot inst.resultType ++ Instruction.slot inst.result
            ++ inst.operands⟩, rest)) ∧
    (65535 < inst.wordCount →
      inst.encode = .error (.tooLong inst.opcode inst.wordCount) ∧
      inst.encodeAfter words = (words, some (.tooLong inst.opcode inst.wordCount))) ∧
    ∀ stream chunk, Chunk.read stream offset = .ok (chunk, rest) →
      stream = (UInt32.ofNat (1 + chunk.payload.length) <<< 16 |||
        chunk.opcode.code.toUInt32) :: chunk.payload ++ rest := by
  refine ⟨fun hle => ?_, fun hlt => ?_, fun stream chunk hread => ?_⟩
  · have hfits : inst.Fits := hle
    have hencode : inst.encode = .ok inst.encoding := if_pos hfits
    refine ⟨inst.encoding, hencode, inst.length_encoding, ?_, ?_⟩
    · rw [Instruction.encodeAfter, hencode]
    · rw [Instruction.read_encoding hfits, Instruction.chunk, Instruction.payload,
        List.append_assoc]
  · have hfits : ¬ inst.Fits := by
      unfold Instruction.Fits Instruction.maxWordCount
      omega
    have hencode : inst.encode = .error (.tooLong inst.opcode inst.wordCount) := if_neg hfits
    refine ⟨hencode, ?_⟩
    rw [Instruction.encodeAfter, hencode]
  · obtain ⟨hlen, hstream⟩ := Chunk.eq_words_of_read hread
    rw [← Chunk.words_eq_shift hlen]
    exact hstream

/-- A composite constant of `parts` parts. -/
def compositeOf (parts : Nat) : Instruction :=
  { opcode := Opcode.opConstantComposite, resultType := some ⟨1⟩, result := some ⟨2⟩
    operands := List.replicate parts 3 }

theorem encode_read_round_trip_compositeOf :
    (∃ encoded, (compositeOf 65532).encode = .ok encoded ∧ encoded.length = 65535 ∧
      Chunk.read (encoded ++ [9]) 5
        = .ok (⟨Opcode.opConstantComposite, 1 :: 2 :: List.replicate 65532 3⟩, [9])) ∧
    (compositeOf 65533).encodeAfter [7]
      = ([7], some (.tooLong Opcode.opConstantComposite 65536)) := by
  have hcount : ∀ parts, (compositeOf parts).wordCount = parts + 3 := by
    intro parts
    simp [compositeOf, Instruction.wordCount]
    omega
  have hlongest := (encode_read_round_trip (compositeOf 65532) [] [9] 5).1
    (by have h := hcount 65532; omega)
  have hlonger := (encode_read_round_trip (compositeOf 65533) [7] [] 0).2.1
    (by have h := hcount 65533; omega)
  obtain ⟨encoded, hencode, hlength, -, hread⟩ := hlongest
  refine ⟨⟨encoded, hencode, by rw [hlength, hcount], hread⟩, ?_⟩
  rw [hlonger.2, hcount]
  rfl

namespace Reader

/-- A reader at an instruction `inst` that fits gives that instruction and goes on behind it. -/
theorem next?_encoding {inst : Instruction} (h : inst.Fits) (rest : List Word) (offset : Nat) :
    next? ⟨inst.encoding ++ rest, offset⟩
      = some (.ok inst.chunk, ⟨rest, offset + inst.wordCount⟩) := by
  have hne : (inst.encoding ++ rest).isEmpty = false := by simp [Instruction.encoding]
  simp only [next?, hne, Instruction.read_encoding h, Bool.false_eq_true, if_false,
    Instruction.chunk, Instruction.length_payload]

theorem drainAfter_of_none {reader : Reader} (h : reader.next? = none)
    (items : List (Except Fault Chunk)) : drainAfter items reader = (items.reverse, reader) := by
  rw [drainAfter]
  split
  · rfl
  · next hsome => rw [h] at hsome; cases hsome

theorem drainAfter_of_some {reader after : Reader} {item : Except Fault Chunk}
    (h : reader.next? = some (item, after)) (items : List (Except Fault Chunk)) :
    drainAfter items reader = drainAfter (item :: items) after := by
  rw [drainAfter]
  split
  · next hnone => rw [h] at hnone; cases hnone
  · next hsome => rw [h] at hsome; cases hsome; rfl

theorem drainAfter_encodings (insts : List Instruction) :
    ∀ (items : List (Except Fault Chunk)) (offset : Nat), (∀ inst ∈ insts, inst.Fits) →
      drainAfter items ⟨insts.flatMap Instruction.encoding, offset⟩
        = (items.reverse ++ insts.map fun inst => .ok inst.chunk,
            ⟨[], offset + (insts.flatMap Instruction.encoding).length⟩) := by
  induction insts with
  | nil =>
    intro items offset _
    rw [drainAfter_of_none rfl]
    simp
  | cons inst insts ih =>
    intro items offset h
    have hinst : inst.Fits := h inst List.mem_cons_self
    have hrest : ∀ other ∈ insts, other.Fits :=
      fun other hother => h other (List.mem_cons_of_mem inst hother)
    rw [List.flatMap_cons, drainAfter_of_some (next?_encoding hinst _ offset),
      ih (.ok inst.chunk :: items) (offset + inst.wordCount) hrest]
    simp [Nat.add_assoc]

/-- Instructions `insts` that fit, one after the other, are read back in order; nothing is left. -/
theorem drain_encodings {insts : List Instruction} (h : ∀ inst ∈ insts, inst.Fits)
    (offset : Nat) :
    drain ⟨insts.flatMap Instruction.encoding, offset⟩
      = (insts.map fun inst => .ok inst.chunk,
          ⟨[], offset + (insts.flatMap Instruction.encoding).length⟩) := by
  rw [drain, drainAfter_encodings insts [] offset h]
  rfl

end Reader

end SpirvBinary
