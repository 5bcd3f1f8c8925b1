import Mathlib.Data.List.Basic
import SpirvBinary.Proofs.Reading

/-!
# How a stream comes apart

A stream of words comes apart in one way only: into the chunks that stand at its front, one
after the other, and a rest in front of which no whole chunk stands.  The rest is empty or
starts with a word whose length field is zero or larger than what is left.

A reader follows this split.  It gives the chunks in order and ends there when nothing is left;
otherwise it gives one fault more, which states how far it came, and nothing after it.  So no
word is passed over, and a stream is read without a fault exactly when it consists of chunks.

## Main definitions

* `Chunk.Fits` — the length field of a chunk can state its length.
* `Blocked` — no whole chunk stands in front of some words.
* `Splits` — a stream comes apart into chunks and a rest.
* `Reader.Gives` — what a reader gives item by item, until it gives no more.

## Main results

* `exists_splits`, `Splits.unique` — every stream splits, and in one way only.
* `Splits.gives` — a reader gives the chunks of the split, and a fault for the rest.
* `reader_gives_split` — **a reader loses no word and accepts exactly the chunks one after the
  other.**
-/

namespace SpirvBinary

/-! ### Chunks at the front of a stream -/

/-- The length field of a chunk can state its length. -/
def Chunk.Fits (chunk : Chunk) : Prop := 1 + chunk.payload.length ≤ 65535

instance Chunk.decidableFits (chunk : Chunk) : Decidable chunk.Fits := Nat.decLe _ _

/-- No whole chunk stands in front of `words`: the first one states no length, or more words than
there are. -/
def Blocked (words : List Word) : Prop :=
  ∃ first rest, words = first :: rest ∧ (Word.high first = 0 ∨ words.length < Word.high first)

/-- A `chunk` is read back, and the `rest` after it is left. -/
theorem Chunk.read_words {chunk : Chunk} (h : chunk.Fits) (rest : List Word) (offset : Nat) :
    Chunk.read (chunk.words ++ rest) offset = .ok (chunk, rest) := by
  unfold Chunk.Fits at h
  have hcount : chunk.payload.length + 1 < 65536 := by omega
  have hcode : chunk.opcode.code.toNat < 65536 := chunk.opcode.code.toNat_lt
  have hhigh := Word.high_ofHalves hcount hcode
  have hlow := Word.low_ofHalves hcount hcode
  rw [Chunk.words, List.cons_append, Chunk.read_cons hhigh.symm rest offset, hlow,
    UInt16.ofNat_toNat]

theorem Blocked.read {words : List Word} (h : Blocked words) (offset : Nat) :
    Chunk.read words offset = .error (.truncated offset) := by
  obtain ⟨first, rest, rfl, hlength⟩ := h
  have hshort : ¬ (rest.take (Word.high first - 1)).length + 1 = Word.high first := by
    rw [List.length_take]
    rw [List.length_cons] at hlength
    omega
  simp only [Chunk.read]
  rw [if_neg hshort]

/-- In front of a stream stands a chunk, or the stream is blocked. -/
theorem Chunk.exists_or_blocked {stream : List Word} (hne : stream ≠ []) :
    (∃ chunk rest, Chunk.Fits chunk ∧ stream = chunk.words ++ rest) ∨ Blocked stream := by
  cases hread : Chunk.read stream 0 with
  | ok result =>
    obtain ⟨hlength, hstream⟩ := Chunk.eq_words_of_read hread
    refine .inl ⟨result.1, result.2, ?_, hstream⟩
    unfold Chunk.Fits
    omega
  | error fault =>
    obtain ⟨first, rest, rfl⟩ := List.exists_cons_of_ne_nil hne
    refine .inr ⟨first, rest, rfl, ?_⟩
    by_contra hlength
    have hwhole : (rest.take (Word.high first - 1)).length + 1 = Word.high first := by
      rw [List.length_take]
      rw [List.length_cons] at hlength
      omega
    simp only [Chunk.read, if_pos hwhole] at hread
    cases hread

/-! ### Splits -/

/-- The words of `stream` come apart into `chunks` at its front and a `rest` without one. -/
structure Splits (stream : List Word) (chunks : List Chunk) (rest : List Word) : Prop where
  words : stream = chunks.flatMap Chunk.words ++ rest
  fits : ∀ chunk ∈ chunks, chunk.Fits
  blocked : rest = [] ∨ Blocked rest

/-- Every stream splits. -/
theorem exists_splits (stream : List Word) : ∃ chunks rest, Splits stream chunks rest := by
  induction hn : stream.length using Nat.strongRecOn generalizing stream with
  | ind n ih =>
    by_cases hne : stream = []
    · exact ⟨[], [], by simp [hne], by simp, .inl rfl⟩
    · rcases Chunk.exists_or_blocked hne with ⟨chunk, later, hfits, rfl⟩ | hblocked
      · have hlt : later.length < n := by
          rw [← hn, List.length_append, Chunk.words, List.length_cons]
          omega
        obtain ⟨chunks, rest, hsplits⟩ := ih later.length hlt later rfl
        refine ⟨chunk :: chunks, rest, ?_, ?_, hsplits.blocked⟩
        · rw [List.flatMap_cons, List.append_assoc, ← hsplits.words]
        · exact List.forall_mem_cons.mpr ⟨hfits, hsplits.fits⟩
      · exact ⟨[], stream, by simp, by simp, .inr hblocked⟩

/-! ### Readers -/

/-- A reader gives items one after the other, and then no more.  Each is what `next?` says. -/
inductive Reader.Gives : Reader → List (Except Fault Chunk) → Reader → Prop
  | stop {reader : Reader} (h : reader.next? = none) : Gives reader [] reader
  | item {reader next last : Reader} {item : Except Fault Chunk}
      {items : List (Except Fault Chunk)} (h : reader.next? = some (item, next))
      (later : Gives next items last) : Gives reader (item :: items) last

/-- Draining a reader collects what it gives. -/
theorem Reader.Gives.drain_eq {reader last : Reader} {items : List (Except Fault Chunk)}
    (h : reader.Gives items last) : reader.drain = (items, last) := by
  suffices hafter : ∀ before, drainAfter before reader = (before.reverse ++ items, last) from
    hafter []
  induction h with
  | stop h =>
    intro before
    rw [drainAfter_of_none h, List.append_nil]
  | item h _ ih =>
    intro before
    rw [drainAfter_of_some h, ih, List.reverse_cons, List.append_assoc, List.singleton_append]

/-- The faults that the `rest` of a stream gives rise to, when it stands at `offset`. -/
def restFaults (rest : List Word) (offset : Nat) : List Fault :=
  if rest = [] then [] else [.truncated offset]

/-- A reader gives the `chunks` of the split, and a fault for the `rest`. -/
theorem Splits.gives {stream rest : List Word} {chunks : List Chunk}
    (h : Splits stream chunks rest) (offset : Nat) :
    ∃ last, Reader.Gives ⟨stream, offset⟩
      (chunks.map .ok
        ++ (restFaults rest (offset + (chunks.flatMap Chunk.words).length)).map .error) last := by
  induction chunks generalizing stream offset with
  | nil =>
    obtain rfl : stream = rest := h.words
    rcases h.blocked with rfl | hblocked
    · exact ⟨_, .stop rfl⟩
    · have hne : stream ≠ [] := by
        obtain ⟨first, later, rfl, -⟩ := hblocked
        exact List.cons_ne_nil first later
      have hnext : Reader.next? ⟨stream, offset⟩
          = some (.error (.truncated offset), ⟨[], offset⟩) := by
        simp [Reader.next?, hne, hblocked.read]
      refine ⟨⟨[], offset⟩, ?_⟩
      simp only [restFaults, if_neg hne, List.map_nil, List.nil_append, List.map_cons,
        List.flatMap_nil, List.length_nil, Nat.add_zero]
      exact .item hnext (.stop rfl)
  | cons chunk chunks ih =>
    have hfits : chunk.Fits := h.fits chunk List.mem_cons_self
    have hstream : stream = chunk.words ++ (chunks.flatMap Chunk.words ++ rest) := by
      rw [h.words, List.flatMap_cons, List.append_assoc]
    have hlater : Splits (chunks.flatMap Chunk.words ++ rest) chunks rest :=
      ⟨rfl, fun other hother => h.fits other (List.mem_cons_of_mem _ hother), h.blocked⟩
    have hnext : Reader.next? ⟨stream, offset⟩ = some (.ok chunk,
        ⟨chunks.flatMap Chunk.words ++ rest, offset + (chunk.payload.length + 1)⟩) := by
      have hne : stream.isEmpty = false := by
        rw [hstream]
        rfl
      simp only [Reader.next?, hne, Bool.false_eq_true, if_false]
      rw [hstream, Chunk.read_words hfits]
    obtain ⟨last, hgives⟩ := ih hlater (offset + (chunk.payload.length + 1))
    have hoffset : offset + (chunk.payload.length + 1) + (chunks.flatMap Chunk.words).length
        = offset + ((chunk :: chunks).flatMap Chunk.words).length := by
      rw [List.flatMap_cons, List.length_append, Chunk.words, List.length_cons]
      omega
    rw [hoffset] at hgives
    exact ⟨last, .item hnext hgives⟩

/-- A stream splits in one way only. -/
theorem Splits.unique {stream rest rest' : List Word} {chunks chunks' : List Chunk}
    (h : Splits stream chunks rest) (h' : Splits stream chunks' rest') :
    chunks = chunks' ∧ rest = rest' := by
  obtain ⟨last, hgives⟩ := h.gives 0
  obtain ⟨last', hgives'⟩ := h'.gives 0
  -- both are what a reader gives, with the chunks as the items that are no faults
  have hitems := congrArg (fun drained => drained.1.filterMap Except.toOption)
    (hgives.drain_eq.symm.trans hgives'.drain_eq)
  have hchunks : ∀ (chunks : List Chunk) (faults : List Fault),
      (chunks.map Except.ok ++ faults.map Except.error).filterMap Except.toOption = chunks := by
    intro chunks faults
    rw [List.filterMap_append, List.filterMap_map, List.filterMap_map]
    change chunks.filterMap some ++ faults.filterMap (fun _ => none) = chunks
    simp
  simp only [hchunks] at hitems
  subst hitems
  exact ⟨rfl, List.append_cancel_left (h.words.symm.trans h'.words)⟩

/-- **A reader loses no word and accepts exactly the chunks one after the other.**  From any
stream and any position it gives, after finitely many items, no more: first chunks, whose words
are the part of the stream that it has used up, then at most one fault.  A fault comes exactly
when something is left; it states the position of what is left, which starts with a word whose
length field is zero or larger than the number of words left.  And a stream consists of the
words of given chunks exactly when nothing is left and they are the chunks that are read. -/
theorem reader_gives_split (stream : List Word) (offset : Nat) :
    ∃ (chunks : List Chunk) (faults : List Fault) (rest : List Word) (last : Reader),
      let words := fun chunk : Chunk => (UInt32.ofNat (1 + chunk.payload.length) <<< 16 |||
        chunk.opcode.code.toUInt32) :: chunk.payload
      let used := chunks.flatMap words
      Reader.Gives ⟨stream, offset⟩ (chunks.map .ok ++ faults.map .error) last ∧
      Reader.drain ⟨stream, offset⟩ = (chunks.map .ok ++ faults.map .error, last) ∧
      stream = used ++ rest ∧
      (faults = [] ↔ used = stream) ∧
      (faults = [] ∨ faults = [.truncated (offset + used.length)] ∧
        ∃ first later, rest = first :: later ∧
          (Word.high first = 0 ∨ rest.length < Word.high first)) ∧
      ∀ split : List Chunk,
        ((∀ chunk ∈ split, chunk.Fits) ∧ stream = split.flatMap words) ↔
          (faults = [] ∧ split = chunks) := by
  obtain ⟨chunks, rest, hsplits⟩ := exists_splits stream
  obtain ⟨last, hgives⟩ := hsplits.gives offset
  have hwords : ∀ split : List Chunk, (∀ chunk ∈ split, chunk.Fits) →
      split.flatMap (fun chunk => (UInt32.ofNat (1 + chunk.payload.length) <<< 16 |||
        chunk.opcode.code.toUInt32) :: chunk.payload) = split.flatMap Chunk.words := by
    intro split hfits
    refine List.flatMap_congr fun chunk hchunk => (Chunk.words_eq_shift ?_).symm
    have hlength := hfits chunk hchunk
    unfold Chunk.Fits at hlength
    omega
  have hfaults : ∀ position, restFaults rest position = [] ↔ rest = [] := by
    intro position
    by_cases hrest : rest = [] <;> simp [restFaults, hrest]
  refine ⟨chunks, restFaults rest (offset + (chunks.flatMap Chunk.words).length), rest, last, ?_⟩
  intro words used
  have hused : used = chunks.flatMap Chunk.words := hwords chunks hsplits.fits
  rw [hused, hfaults]
  refine ⟨hgives, hgives.drain_eq, hsplits.words, ?_, ?_, fun split => ⟨?_, ?_⟩⟩
  · rw [hsplits.words]
    simp
  · rcases hsplits.blocked with hrest | hblocked
    · exact .inl hrest
    · obtain ⟨first, later, hrest, hlength⟩ := hblocked
      refine .inr ⟨?_, first, later, hrest, hlength⟩
      rw [restFaults, if_neg (by simp [hrest])]
  · rintro ⟨hfits, hstream⟩
    have hsplit : Splits stream split [] :=
      ⟨by rw [List.append_nil, ← hwords split hfits, hstream], hfits, .inl rfl⟩
    obtain ⟨rfl, rfl⟩ := hsplits.unique hsplit
    exact ⟨rfl, rfl⟩
  · rintro ⟨hrest, rfl⟩
    refine ⟨hsplits.fits, ?_⟩
    change stream = used
    rw [hused, hsplits.words, hrest, List.append_nil]

/-- Two chunks, and behind them a word that states no length. -/
def zeroLength : List Word := [0x00020011, 1, 0x00010013, 0x0000ffff, 7]

theorem reader_gives_split_zeroLength :
    Reader.drain ⟨zeroLength, 5⟩
        = ([.ok ⟨⟨17⟩, [1]⟩, .ok ⟨⟨19⟩, []⟩, .error (.truncated 8)], ⟨[], 8⟩) ∧
      (¬ ∃ split : List Chunk, (∀ chunk ∈ split, chunk.Fits) ∧
        zeroLength = split.flatMap fun chunk => (UInt32.ofNat (1 + chunk.payload.length) <<< 16 |||
          chunk.opcode.code.toUInt32) :: chunk.payload) ∧
      ∃ last, Reader.drain ⟨zeroLength.take 3, 5⟩
        = ([.ok ⟨⟨17⟩, [1]⟩, .ok ⟨⟨19⟩, []⟩], last) := by
  have hdrain : Reader.drain ⟨zeroLength, 5⟩
      = ([.ok ⟨⟨17⟩, [1]⟩, .ok ⟨⟨19⟩, []⟩, .error (.truncated 8)], ⟨[], 8⟩) := by cbv
  refine ⟨hdrain, ?_, ?_⟩
  · rintro ⟨split, hfits, hwords⟩
    obtain ⟨chunks, faults, rest, last, -, hgiven, -, -, -, hsplit⟩ :=
      reader_gives_split zeroLength 5
    obtain ⟨rfl, -⟩ := (hsplit split).mp ⟨hfits, hwords⟩
    -- without a fault no item of the reader would be one
    have hfault : (.error (.truncated 8) : Except Fault Chunk) ∈ chunks.map .ok := by
      rw [hdrain] at hgiven
      have hitems := (Prod.mk.inj hgiven).1
      rw [List.map_nil, List.append_nil] at hitems
      rw [← hitems]
      simp
    simp at hfault
  · obtain ⟨chunks, faults, rest, last, -, hgiven, -, -, -, hsplit⟩ :=
      reader_gives_split (zeroLength.take 3) 5
    obtain ⟨rfl, rfl⟩ := (hsplit [⟨⟨17⟩, [1]⟩, ⟨⟨19⟩, []⟩]).mp ⟨by decide, by decide⟩
    exact ⟨last, hgiven⟩

end SpirvBinary
