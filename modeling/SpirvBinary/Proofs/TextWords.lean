import Mathlib.Data.List.Basic
import SpirvBinary.Proofs.Primitives
import SpirvBinary.Proofs.Reading

/-!
# Text in words delimits itself

Text is stored by its bytes, four to a word, and one to four zero bytes come after it.  So a
reader that unpacks words up to the first one with a zero byte finds the bytes of a text that
has no zero character, and stops right behind it, whatever words follow.

Text may therefore stand in the middle of an instruction.  What follows for the directives that
state a text is that their instructions are written in different ways for different arguments.

## Main definitions

* `textBytes` — the bytes of a text.
* `NulFree` — a text without a zero character.
* `readText` — the bytes of a text at the front of some words, and the words behind it.
* `TextDirective` — the directives that state a text.

## Main results

* `flatMap_bytes_packBytes` — packed bytes are the bytes and then zeros.
* `readText_textWords` — a text is read back, whatever words follow.
* `text_words_delimit` — **text delimits itself, and directives that state a text are
  determined by their words.**
-/

namespace SpirvBinary

open Opcode

/-! ### Packed bytes -/

/-- What `P` says of fewer than four bytes, and of four bytes in front of others when it holds of
the others, holds of all bytes. -/
theorem bytes_by_fours {P : List Byte → Prop} (short : ∀ bytes, bytes.length < 4 → P bytes)
    (four : ∀ a b c d rest, P rest → P (a :: b :: c :: d :: rest)) : ∀ bytes, P bytes
  | [] => short [] (by simp)
  | [a] => short [a] (by simp)
  | [a, b] => short [a, b] (by simp)
  | [a, b, c] => short [a, b, c] (by simp)
  | a :: b :: c :: d :: rest => four a b c d rest (bytes_by_fours short four rest)

/-- Fewer than four bytes are packed into one word, filled up with zeros. -/
theorem packBytes_of_short {bytes : List Byte} (h : bytes.length < 4) :
    ∃ word, packBytes bytes.toArray = [word] ∧
      Word.bytes word = bytes ++ List.replicate (4 - bytes.length) 0 := by
  match bytes with
  | [] | [a] | [a, b] | [a, b, c] => exact ⟨_, by simp [packBytes]; rfl, by simp⟩
  | a :: b :: c :: d :: rest =>
    simp only [List.length_cons] at h
    omega

/-- The first four bytes are packed into the first word. -/
theorem packBytes_cons (a b c d : Byte) (rest : List Byte) :
    packBytes (a :: b :: c :: d :: rest).toArray
      = Word.ofBytes a b c d :: packBytes rest.toArray := by
  have hcount : (a :: b :: c :: d :: rest).toArray.size / 4 + 1
      = rest.toArray.size / 4 + 1 + 1 := by
    simp
    omega
  have hget : ∀ i, (a :: b :: c :: d :: rest).toArray.getD (i + 4) 0 = rest.toArray.getD i 0 := by
    intro i
    simp only [Array.getD_eq_getD_getElem?, List.getElem?_toArray, List.getElem?_cons_succ]
  have hplace : ∀ i k, 4 * Nat.succ i + k = 4 * i + k + 4 := by omega
  rw [packBytes, hcount, List.range_succ_eq_map, List.map_cons, List.map_map]
  congr 1
  refine List.map_congr_left fun i _ => ?_
  simp only [Function.comp_apply, ← hget]
  rw [hplace i 1, hplace i 2, hplace i 3, Nat.mul_succ]

/-- Packed by `packBytes`, bytes are followed by one to four zeros. -/
theorem flatMap_bytes_packBytes (bytes : List Byte) :
    (packBytes bytes.toArray).flatMap Word.bytes
      = bytes ++ List.replicate (4 - bytes.length % 4) 0 := by
  induction bytes using bytes_by_fours with
  | short bytes h =>
    obtain ⟨word, hpack, hbytes⟩ := packBytes_of_short h
    rw [hpack, List.flatMap_singleton, hbytes, Nat.mod_eq_of_lt h]
  | four a b c d rest ih =>
    have hlength : (a :: b :: c :: d :: rest).length % 4 = rest.length % 4 := by
      simp only [List.length_cons]
      omega
    rw [packBytes_cons, List.flatMap_cons, ih, Word.bytes_ofBytes, hlength]
    rfl

/-! ### Reading text -/

/-- The bytes before the first zero byte of some words, and the words behind the one it stands
in. -/
def readText : List Word → Option (List Byte × List Word)
  | [] => none
  | word :: rest =>
      if 0 ∈ Word.bytes word then some ((Word.bytes word).takeWhile (· ≠ 0), rest)
      else (readText rest).map fun found => (Word.bytes word ++ found.1, found.2)

theorem readText_packBytes {bytes : List Byte} (h : 0 ∉ bytes) (rest : List Word) :
    readText (packBytes bytes.toArray ++ rest) = some (bytes, rest) := by
  induction bytes using bytes_by_fours with
  | short bytes hshort =>
    obtain ⟨word, hpack, hbytes⟩ := packBytes_of_short hshort
    obtain ⟨more, hmore⟩ : ∃ more, 4 - bytes.length = more + 1 := ⟨3 - bytes.length, by omega⟩
    rw [hmore, List.replicate_succ] at hbytes
    have hzero : 0 ∈ Word.bytes word := by
      rw [hbytes]
      simp
    have hbefore : (Word.bytes word).takeWhile (· ≠ 0) = bytes := by
      rw [hbytes, List.takeWhile_append_of_pos, List.takeWhile_cons_of_neg (by simp),
        List.append_nil]
      intro byte hbyte
      have hne : byte ≠ 0 := fun heq => h (heq ▸ hbyte)
      simpa using hne
    rw [hpack, List.singleton_append, readText, if_pos hzero, hbefore]
  | four a b c d later ih =>
    have hlater : 0 ∉ later := fun hmem => h (by simp [hmem])
    have hzero : 0 ∉ Word.bytes (Word.ofBytes a b c d) := by
      rw [Word.bytes_ofBytes]
      intro hmem
      refine h ?_
      rw [show a :: b :: c :: d :: later = [a, b, c, d] ++ later from rfl]
      exact List.mem_append_left _ hmem
    rw [packBytes_cons, List.cons_append, readText, if_neg hzero, ih hlater, Word.bytes_ofBytes]
    rfl

/-! ### Bytes of text -/

/-- The bytes of a text. -/
def textBytes (text : String) : List Byte := text.toUTF8.data.toList

/-- The text has no zero character. -/
def NulFree (text : String) : Prop := '\x00' ∉ text.toList

instance (text : String) : Decidable (NulFree text) := inferInstanceAs (Decidable (_ ∉ _))

theorem textWords_eq (text : String) : textWords text = packBytes (textBytes text).toArray := rfl

/-- The bytes of a text are those of its characters. -/
theorem textBytes_eq_flatMap (text : String) :
    textBytes text = text.toList.flatMap String.utf8EncodeChar := by
  rw [textBytes, String.toUTF8_eq_toByteArray, ← String.utf8Encode_toList, List.utf8Encode,
    List.toList_data_toByteArray]

/-- Texts with the same bytes are the same. -/
theorem textBytes_injective {text other : String} (h : textBytes text = textBytes other) :
    text = other := by
  apply String.toByteArray_inj.mp
  apply ByteArray.ext
  exact Array.toList_inj.mp h

/-- Only the zero character has a zero byte. -/
theorem zero_mem_utf8EncodeChar {c : Char} : 0 ∈ String.utf8EncodeChar c ↔ c = '\x00' := by
  have hzero : c = '\x00' ↔ c.val.toNat = 0 := by
    rw [Char.ext_iff, ← UInt32.toNat_inj]
    rfl
  have hbyte : ∀ n, (0 : Byte) = UInt8.ofNat n ↔ n % 256 = 0 := by
    intro n
    rw [← UInt8.toNat_inj, UInt8.toNat_ofNat']
    exact eq_comm
  rw [hzero]
  -- each byte of a longer encoding has its highest bit set
  fun_cases String.utf8EncodeChar c
  all_goals
    simp only [List.mem_cons, List.not_mem_nil, or_false, hbyte]
    omega

theorem NulFree.zero_not_mem {text : String} (h : NulFree text) : 0 ∉ textBytes text := by
  rw [textBytes_eq_flatMap, List.mem_flatMap]
  rintro ⟨c, hc, hzero⟩
  rw [zero_mem_utf8EncodeChar] at hzero
  exact h (hzero ▸ hc)

/-- A text without a zero character is read back, whatever the `rest` is that follows. -/
theorem readText_textWords {text : String} (h : NulFree text) (rest : List Word) :
    readText (textWords text ++ rest) = some (textBytes text, rest) :=
  readText_packBytes h.zero_not_mem rest

/-- The words of a text and the `rest` that follows it can be told apart. -/
theorem textWords_append_inj {text other : String} (h : NulFree text) (h' : NulFree other)
    {rest rest' : List Word} (heq : textWords text ++ rest = textWords other ++ rest') :
    text = other ∧ rest = rest' := by
  have hread := readText_textWords h rest
  rw [heq, readText_textWords h' rest', Option.some.injEq, Prod.mk.injEq] at hread
  exact ⟨textBytes_injective hread.1.symm, hread.2.symm⟩

/-! ### Directives that state a text -/

/-- The directives that state a text, with their arguments. -/
inductive TextDirective where
  | entryPoint (model : Word) (function : Id) (name : String) (interface : List Id)
  | nameId (target : Id) (name : String)
  | nameMember (type : Id) (member : Word) (name : String)
  | useExtension (name : String)
  | importInstructions (name : String)
  | processedBy (process : String)
  deriving DecidableEq, Repr, Inhabited

namespace TextDirective

/-- Carries out a directive. -/
def perform : TextDirective → Build Unit
  | .entryPoint model function name interface => Build.entryPoint model function name interface
  | .nameId target name => Build.nameId target name
  | .nameMember type member name => Build.nameMember type member name
  | .useExtension name => Build.useExtension name
  | .importInstructions name => do
      let _ ← Build.importInstructions name
      return ()
  | .processedBy process => Build.processedBy process

/-- The text that a directive states. -/
def text : TextDirective → String
  | .entryPoint _ _ name _ | .nameId _ name | .nameMember _ _ name | .useExtension name
  | .importInstructions name | .processedBy name => name

/-- The opcode of a directive's instruction. -/
def opcode : TextDirective → Opcode
  | .entryPoint .. => opEntryPoint
  | .nameId .. => opName
  | .nameMember .. => opMemberName
  | .useExtension .. => opExtension
  | .importInstructions .. => opExtInstImport
  | .processedBy .. => opModuleProcessed

/-- The operand words of a directive's instruction. -/
def operands : TextDirective → List Word
  | .entryPoint model function name interface =>
      model :: function.word :: (textWords name ++ interface.map Id.word)
  | .nameId target name => target.word :: textWords name
  | .nameMember type member name => type.word :: member :: textWords name
  | .useExtension name | .importInstructions name | .processedBy name => textWords name

/-- The result of a directive's instruction, when it is carried out with `next` as the next id. -/
def result (next : Id) : TextDirective → Option Id
  | .importInstructions _ => some next
  | _ => none

/-- The instruction of a directive, when it is carried out with `next` as the next id. -/
def instruction (directive : TextDirective) (next : Id) : Instruction :=
  { opcode := directive.opcode, result := directive.result next, operands := directive.operands }

variable {directive other : TextDirective}

/-- A directive that succeeds has written its instruction, which fits, and nothing else. -/
theorem written_of_perform {d e : Draft} (h : directive.perform d = .ok () e) :
    (directive.instruction d.ids.next).Fits ∧
      ∃ s, e.layout.entries = d.layout.entries ++ [(s, directive.instruction d.ids.next)] := by
  have hemit : ∀ {s : Section} {inst : Instruction} {d e : Draft},
      Build.emit s inst d = .ok () e →
        inst.Fits ∧ e.layout.entries = d.layout.entries ++ [(s, inst)] := by
    intro s inst d e h
    by_cases hfits : inst.Fits
    · rw [Build.emit_of_fits hfits] at h
      cases h
      exact ⟨hfits, by simp [Layout.entries]⟩
    · rw [Build.emit_of_not_fits hfits] at h
      cases h
  cases directive with
  | importInstructions name =>
    -- the id is taken before the instruction is written
    obtain ⟨id, f, himport, hpure⟩ := exists_of_bind_ok h
    cases hpure
    obtain ⟨_, g, hfresh, hrest⟩ := exists_of_bind_ok himport
    rw [Build.freshId_run] at hfresh
    cases hfresh
    obtain ⟨_, f, hwrite, hpure⟩ := exists_of_bind_ok hrest
    cases hpure
    obtain ⟨hfits, hentries⟩ := hemit hwrite
    exact ⟨hfits, _, hentries⟩
  | _ =>
    obtain ⟨hfits, hentries⟩ := hemit h
    exact ⟨hfits, _, hentries⟩

/-- The `opcode` and the `operands` determine a directive and all its arguments. -/
theorem eq_of_operands (h : NulFree directive.text) (h' : NulFree other.text)
    (hopcode : directive.opcode = other.opcode) (hoperands : directive.operands = other.operands) :
    directive = other := by
  have htext : ∀ {text text' : String}, textWords text = textWords text' → NulFree text →
      NulFree text' → text = text' := by
    intro text text' heq hfree hfree'
    exact (textWords_append_inj hfree hfree' (congrArg (· ++ []) heq)).1
  have hid : ∀ {id id' : Id}, id.word = id'.word → id = id' := by
    rintro ⟨_⟩ ⟨_⟩ rfl
    rfl
  cases directive <;> cases other
  case entryPoint.entryPoint model function name interface model' function' name' interface' =>
    change NulFree name at h
    change NulFree name' at h'
    obtain ⟨rfl, hrest⟩ := List.cons.inj hoperands
    obtain ⟨hfunction, hrest⟩ := List.cons.inj hrest
    obtain ⟨rfl, hinterface⟩ := textWords_append_inj h h' hrest
    rw [hid hfunction, List.map_injective_iff.mpr (fun _ _ => hid) hinterface]
  case nameId.nameId =>
    obtain ⟨htarget, hname⟩ := List.cons.inj hoperands
    rw [hid htarget, htext hname h h']
  case nameMember.nameMember =>
    obtain ⟨htype, hrest⟩ := List.cons.inj hoperands
    obtain ⟨rfl, hname⟩ := List.cons.inj hrest
    rw [hid htype, htext hname h h']
  case useExtension.useExtension name name' =>
    rw [show name = name' from htext hoperands h h']
  case importInstructions.importInstructions name name' =>
    rw [show name = name' from htext hoperands h h']
  case processedBy.processedBy process process' =>
    rw [show process = process' from htext hoperands h h']
  all_goals exact absurd hopcode (by simp only [opcode]; decide)

/-- An import has a result, and the other directives have none. -/
theorem length_slot_result (next : Id) :
    (Instruction.slot (directive.result next)).length
      = if directive.opcode = opExtInstImport then 1 else 0 := by
  cases directive <;> rfl

/-- The words of an instruction that fits determine its opcode, and with it how many of them
come before the operands. -/
theorem eq_of_encoding (h : NulFree directive.text) (h' : NulFree other.text) {next next' : Id}
    (hfits : (directive.instruction next).Fits) (hfits' : (other.instruction next').Fits)
    (heq : (directive.instruction next).encoding = (other.instruction next').encoding) :
    directive = other := by
  have hread := Instruction.read_encoding hfits [] 0
  rw [heq, Instruction.read_encoding hfits', Except.ok.injEq, Prod.mk.injEq] at hread
  obtain ⟨hopcode, hpayload⟩ := Chunk.mk.inj hread.1
  change other.opcode = directive.opcode at hopcode
  change Instruction.slot (other.result next') ++ other.operands
    = Instruction.slot (directive.result next) ++ directive.operands at hpayload
  have hslots : (Instruction.slot (other.result next')).length
      = (Instruction.slot (directive.result next)).length := by
    rw [length_slot_result, length_slot_result, hopcode]
  exact eq_of_operands h h' hopcode.symm (List.append_inj hpayload hslots).2.symm

end TextDirective

/-- **Text delimits itself, and directives that state a text are determined by their words.**
Any text is stored in one word more than a quarter of the number of its bytes, rounded down,
and the bytes of these words are its own and then one to four zeros.  A text without a zero
character is read back, up to the first word with a zero byte, and the words behind it are left
as they are.  So when two directives that state such texts have been carried out, each has
written one instruction, and the instructions have the same opcode and operands only if the
directives and all their arguments are the same; so too when their words are the same. -/
theorem text_words_delimit :
    (∀ text : String,
      (textWords text).length = (textBytes text).length / 4 + 1 ∧
      ∃ zeros, 1 ≤ zeros ∧ zeros ≤ 4 ∧
        (textWords text).flatMap Word.bytes = textBytes text ++ List.replicate zeros 0) ∧
    (∀ text : String, NulFree text → ∀ rest : List Word,
      readText (textWords text ++ rest) = some (textBytes text, rest)) ∧
    ∀ first second : TextDirective, NulFree first.text → NulFree second.text →
      ∀ d e d' e' : Draft, first.perform d = .ok () e → second.perform d' = .ok () e' →
        ∃ s inst s' inst', e.layout.entries = d.layout.entries ++ [(s, inst)] ∧
          e'.layout.entries = d'.layout.entries ++ [(s', inst')] ∧
          (inst.opcode = inst'.opcode ∧ inst.operands = inst'.operands ↔ first = second) ∧
          (inst.encoding = inst'.encoding → first = second) := by
  refine ⟨fun text => ⟨?_, 4 - (textBytes text).length % 4, by omega, by omega, ?_⟩,
    fun text h rest => readText_textWords h rest, ?_⟩
  · rw [textWords_eq, length_packBytes]
    rfl
  · exact flatMap_bytes_packBytes _
  · intro first second hfirst hsecond d e d' e' hrun hrun'
    obtain ⟨hfits, s, hwritten⟩ := TextDirective.written_of_perform hrun
    obtain ⟨hfits', s', hwritten'⟩ := TextDirective.written_of_perform hrun'
    refine ⟨s, _, s', _, hwritten, hwritten', ⟨fun heq => ?_, ?_⟩, fun heq => ?_⟩
    · exact TextDirective.eq_of_operands hfirst hsecond heq.1 heq.2
    · rintro rfl
      exact ⟨rfl, rfl⟩
    · exact TextDirective.eq_of_encoding hfirst hsecond hfits hfits' heq

/-- Entry points whose names fill their words, with a variable more and a variable less behind
the word of zeros. -/
theorem text_words_delimit_mainEntryPoints :
    let first : TextDirective := .entryPoint 4 ⟨1⟩ "main" [⟨0⟩, ⟨3⟩]
    let second : TextDirective := .entryPoint 4 ⟨1⟩ "main" [⟨3⟩]
    NulFree "main" ∧ readText (textWords "main" ++ [0, 3]) = some ([109, 97, 105, 110], [0, 3]) ∧
      first.perform {} = .ok () (after first.perform {}) ∧
      second.perform {} = .ok () (after second.perform {}) ∧
      ∃ s inst s' inst', (after first.perform {}).layout.entries = [(s, inst)] ∧
        (after second.perform {}).layout.entries = [(s', inst')] ∧
        ¬ (inst.opcode = inst'.opcode ∧ inst.operands = inst'.operands) := by
  intro first second
  have hfree : NulFree "main" := by decide
  have hfirst : first.perform {} = .ok () (after first.perform {}) := rfl
  have hsecond : second.perform {} = .ok () (after second.perform {}) := rfl
  obtain ⟨-, hread, hdirectives⟩ := text_words_delimit
  obtain ⟨s, inst, s', inst', hwritten, hwritten', hiff, -⟩ :=
    hdirectives first second hfree hfree {} _ {} _ hfirst hsecond
  exact ⟨hfree, hread "main" hfree [0, 3], hfirst, hsecond, s, inst, s', inst', hwritten,
    hwritten', fun heq => absurd (hiff.mp heq) (by decide)⟩

/-- A zero character can make up a word of zeros of its own, so it has to be left out. -/
example : textWords "main\x00\x00\x00\x00\x02" = textWords "main" ++ [2] := by decide

end SpirvBinary
