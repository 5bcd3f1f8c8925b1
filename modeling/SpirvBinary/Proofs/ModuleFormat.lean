import SpirvBinary.Proofs.AppendLogs
import SpirvBinary.Proofs.Reading

/-!
# The format of finished modules

The entries of a layout are the log of a build: an instruction is added, with its
section, exactly when appending it succeeds, and nothing is ever taken away.  From this
follows what a finished module looks like, whatever operations were carried out before: five
header words, then the encodings of the logged instructions section by section; and
reading the module gives these instructions back.

## Main definitions

* `Written` — how the layout of a draft can grow.
* `Layout.arranged` — the logged instructions in module order.

## Main results

* `written_law` — every operation only adds instructions.
* `Layout.drain_sectionWords` — the words of a section are read back to its instructions.
* `Build.emit_encodes` — what one append does to the entries and to the words of sections.
* `finish_of_run` — **what finishing a module gives, after any run.**
-/

namespace SpirvBinary

/-! ### How a layout grows -/

/-- The settings of `d` and `d'` are the same, and the entries of `d'` are those of `d` with
others added after them. -/
structure Written (d d' : Draft) : Prop where
  settings : d'.settings = d.settings
  log : ∃ added, d'.layout.entries = d.layout.entries ++ added

/-- A change from `d` to `d'` that keeps settings and layout writes nothing. -/
theorem Written.of_eq {d d' : Draft} (hsettings : d'.settings = d.settings)
    (hlayout : d'.layout = d.layout) : Written d d' :=
  ⟨hsettings, [], by rw [hlayout, List.append_nil]⟩

theorem Written.trans {d e f : Draft} (hde : Written d e) (hef : Written e f) : Written d f := by
  obtain ⟨added, hadded⟩ := hde.log
  obtain ⟨added', hadded'⟩ := hef.log
  refine ⟨hef.settings.trans hde.settings, added ++ added', ?_⟩
  rw [hadded', hadded, List.append_assoc]

theorem emit_written (s : Section) (inst : Instruction) : Moves Written (Build.emit s inst) := by
  intro d
  by_cases h : inst.Fits
  · rw [after_of_ok (Build.emit_of_fits h s d)]
    exact ⟨rfl, [(s, inst)], Layout.entries_add d.layout s h⟩
  · rw [after_of_error (Build.emit_of_not_fits h s d)]
    exact Written.of_eq rfl rfl

/-- Every operation moves along `Written`: it only adds instructions. -/
theorem written_law : Law Written := by
  have hfresh : Moves Written Build.freshId := fun _ => Written.of_eq rfl rfl
  have hdeclaration : DeclarationLaw Written :=
    DeclarationLaw.of_notes (fun _ => Written.of_eq rfl rfl) (fun _ _ _ => Written.trans)
      (fun _ _ => Written.of_eq rfl rfl) hfresh emit_written fun _ _ => Written.of_eq rfl rfl
  exact Law.of_functions hdeclaration hfresh emit_written fun _ _ => Written.of_eq rfl rfl

/-- Raw commands, too, only add instructions. -/
theorem raw_written (names : Names) {operation : Command} (h : operation.IsRaw) :
    Moves Written (operation.perform names) :=
  written_law.perform_raw
    (declare_moves written_law.refl written_law.trans written_law.journal written_law.freshId
      emit_written fun _ _ => Written.of_eq rfl rfl)
    emit_written (updateFunction_moves written_law.refl fun _ _ => Written.of_eq rfl rfl) names h

/-- The draft after a run has the `settings` it was given. -/
theorem settings_draftAfter {τ : Type} (settings : Settings) (lenient : Bool)
    (script : Script τ) : (script.draftAfter settings lenient).settings = settings := by
  have huses : script.Uses fun _ => True := script.uses_of_forall fun _ => trivial
  exact (written_law.draftAfter (fun names _ hraw _ => raw_written names hraw) huses settings
    lenient).settings

/-! ### The words of sections -/

/-- The words of the section `s` are read back to its instructions. -/
theorem Layout.drain_sectionWords (layout : Layout) (s : Section) :
    Reader.drain ⟨layout.sectionWords s, 0⟩
      = (((layout.instructions s).map Instruction.chunk).map .ok,
          ⟨[], (layout.sectionWords s).length⟩) := by
  have hdrain := Reader.drain_encodings (fun _ => layout.fits_of_mem_instructions (s := s)) 0
  rw [Nat.zero_add] at hdrain
  rw [List.map_map]
  exact hdrain

/-- An append of `inst` to the section `s` that succeeds adds one entry, and to the words of
`s` what `encodeAfter` adds to them; no other section changes.  One that is refused changes
nothing, and `encodeAfter` reports the same fault. -/
theorem Build.emit_encodes (s : Section) (inst : Instruction) (d : Draft) :
    match Build.emit s inst d with
    | .ok _ e =>
        e.layout.entries = d.layout.entries ++ [(s, inst)] ∧
          inst.encodeAfter (d.layout.sectionWords s) = (e.layout.sectionWords s, none) ∧
          ∀ s', s ≠ s' → e.layout.sectionWords s' = d.layout.sectionWords s'
    | .error fault e =>
        e = d ∧ inst.encodeAfter (d.layout.sectionWords s)
          = (d.layout.sectionWords s, some fault) := by
  have hencode := d.layout.encodeAfter_sectionWords s inst
  cases happend : d.layout.append s inst with
  | ok layout =>
    obtain ⟨hentries, hwords⟩ := Layout.entries_append happend
    rw [happend] at hencode
    rw [Build.emit_of_append happend]
    refine ⟨hentries, hencode, fun s' hs => ?_⟩
    rw [hwords, if_neg hs, List.append_nil]
  | error fault =>
    rw [happend] at hencode
    rw [Build.emit_of_append_error happend]
    exact ⟨rfl, hencode⟩

/-! ### Finished modules -/

/-- The word of a `version` in terms of shifts. -/
theorem Version.word_eq_shift (version : Version) :
    version.word = version.major.toUInt32 <<< 16 ||| version.minor.toUInt32 <<< 8 := by
  have hmajor := version.major.toNat_lt
  have hminor := version.minor.toNat_lt
  have h16 : (16 : UInt32).toNat % 32 = 16 := rfl
  have h8 : (8 : UInt32).toNat % 32 = 8 := rfl
  apply UInt32.toNat_inj.mp
  rw [word, UInt32.toNat_ofNat', UInt32.toNat_or, UInt32.toNat_shiftLeft, UInt32.toNat_shiftLeft]
  simp only [UInt8.toNat_toUInt32, Nat.shiftLeft_eq]
  rw [h16, h8, Nat.mod_eq_of_lt (by omega), Nat.mod_eq_of_lt (by omega),
    Nat.mod_eq_of_lt (by omega)]
  -- the minor version stands below the lowest bit of the major one
  have hor := Nat.shiftLeft_add_eq_or_of_lt (b := version.minor.toNat * 2 ^ 8) (i := 16)
    (by omega) version.major.toNat
  rw [Nat.shiftLeft_eq] at hor
  omega

/-- The instructions of a `layout` in module order: section by section, and within a section in the
order in which they were appended. -/
def Layout.arranged (layout : Layout) : List Instruction :=
  Section.all.flatMap layout.instructions

/-- The words of all sections of a `layout` in terms of its entries. -/
theorem Layout.words_eq_log (layout : Layout) :
    layout.words = Section.all.flatMap fun s =>
      (layout.entries.filter fun entry => entry.1 = s).flatMap fun entry => entry.2.encoding := by
  have hsection : layout.sectionWords = fun s =>
      (layout.entries.filter fun entry => entry.1 = s).flatMap fun entry => entry.2.encoding := by
    funext s
    rw [sectionWords, instructions, List.flatMap_map]
  rw [words, hsection]

theorem Layout.words_eq_arranged (layout : Layout) :
    layout.words = layout.arranged.flatMap Instruction.encoding := by
  rw [words, arranged, List.flatMap_assoc]
  rfl

theorem Layout.fits_of_mem_arranged (layout : Layout) :
    ∀ inst ∈ layout.arranged, inst.Fits := by
  intro inst hinst
  obtain ⟨s, -, hs⟩ := List.mem_flatMap.mp hinst
  exact layout.fits_of_mem_instructions hs

/-- **What finishing a module gives, after any run.**  An append that succeeds adds its
instruction to the entries, and its encoding to the words of its section; one that is refused
changes nothing.  Every run has exactly one `log` of the appends that succeeded in it, and
the entries of its draft are this log; all logged instructions have an encoding.  When no
function is open, the words of the module are the header and then, for each section in module
order, the encodings of what was appended to that section; the header states the version that
was asked for; and reading the module gives back the logged instructions in the same order,
each with its opcode and with the result type, the result and the operands as its payload, and
no word is left over.  When functions are open, there is no module, and the fault tells how
many they are. -/
theorem finish_of_run {τ : Type} (settings : Settings) (lenient : Bool) (script : Script τ) :
    let start : Session τ := { draft := { settings := settings } }
    let draft := script.draftAfter settings lenient
    (∀ s inst d,
      match Build.emit s inst d with
      | .ok _ e =>
          e.layout.entries = d.layout.entries ++ [(s, inst)] ∧
            inst.encodeAfter (d.layout.sectionWords s) = (e.layout.sectionWords s, none) ∧
            ∀ s', s ≠ s' → e.layout.sectionWords s' = d.layout.sectionWords s'
      | .error fault e =>
          e = d ∧ inst.encodeAfter (d.layout.sectionWords s)
            = (d.layout.sectionWords s, some fault)) ∧
    ∃ log, (∀ other, Run.Appends (script.run lenient) start other ↔ other = log) ∧
      draft.layout.entries = log ∧
      (∀ entry ∈ log, entry.2.encode = .ok entry.2.encoding) ∧
      (draft.openFunctions = [] → ∃ binary draft', Build.finish draft = .ok binary draft' ∧
        binary.words
          = [Header.magicNumber,
              settings.version.major.toUInt32 <<< 16 ||| settings.version.minor.toUInt32 <<< 8,
              settings.generator, draft.ids.last + 1, 0]
            ++ (Section.all.flatMap fun s =>
                (log.filter fun entry => entry.1 = s).flatMap fun entry => entry.2.encoding) ∧
        Version.ofWord binary.header.version = settings.version ∧
        binary.reader.drain
          = (Section.all.flatMap fun s => (log.filter fun entry => entry.1 = s).map fun entry =>
                .ok ⟨entry.2.opcode, Instruction.slot entry.2.resultType
                  ++ Instruction.slot entry.2.result ++ entry.2.operands⟩,
              ⟨[], binary.words.length⟩)) ∧
      ∀ depth, 0 < depth → draft.openFunctions.length = depth →
        Build.finish draft = .error (.openFunctions depth) draft := by
  intro start draft
  refine ⟨Build.emit_encodes, draft.layout.entries, script.appends_iff settings lenient, rfl,
    fun entry hentry => if_pos (draft.layout.fits_of_mem hentry), fun hclosed => ?_, ?_⟩
  · obtain ⟨draft', hfinish⟩ := Build.finish_of_closed hclosed
    have hsettings : draft.settings = settings := settings_draftAfter settings lenient script
    refine ⟨draft.binary, draft', hfinish, ?_, ?_, ?_⟩
    · rw [← Version.word_eq_shift, ← Layout.words_eq_log, ← hsettings]
      rfl
    · rw [← hsettings]
      exact Version.ofWord_word _
    · have hread := Reader.drain_encodings draft.layout.fits_of_mem_arranged Header.length
      rw [← Layout.words_eq_arranged] at hread
      refine hread.trans (Prod.ext ?_ ?_)
      · simp only [Layout.arranged, List.map_flatMap, Layout.instructions, List.map_map,
          Function.comp_def, Instruction.chunk, Instruction.payload, List.append_assoc]
      · simp only [Binary.words, List.length_append, Header.length_words]
        rfl
  · rintro depth hdepth rfl
    exact Build.finish_of_open (List.ne_nil_of_length_pos hdepth)

/-- A capability, a function with a name in which a lookup fails, and an end where nothing is
open. -/
def voidMain : Script Unit :=
  .command ⟨(), none, false⟩ (.capability 1) <|
  .defineFunction ⟨(), none, false⟩ (some "main") none []
    (.command ⟨(), none, true⟩ (.structPointer "Missing" 2) <|
    .command ⟨(), none, false⟩ .returnVoid .done) <|
  .command ⟨(), none, true⟩ .endFunction .done

theorem finish_of_run_voidMain :
    ∃ log, Run.Appends (voidMain.run false) {} log ∧
      log.map (fun entry => (entry.1, entry.2.opcode))
        = [(.capabilities, .opCapability), (.globalDeclarations, .opTypeVoid),
           (.globalDeclarations, .opTypeFunction), (.debugNames, .opName),
           (.functionDefinitions, .opFunction), (.functionDefinitions, .opLabel),
           (.functionDefinitions, .opReturn), (.functionDefinitions, .opFunctionEnd)] ∧
      ∃ binary draft', Build.finish (voidMain.draftAfter {} false) = .ok binary draft' ∧
        binary.reader.drain
          = (Section.all.flatMap fun s => (log.filter fun entry => entry.1 = s).map fun entry =>
                .ok ⟨entry.2.opcode, Instruction.slot entry.2.resultType
                  ++ Instruction.slot entry.2.result ++ entry.2.operands⟩,
              ⟨[], binary.words.length⟩) := by
  obtain ⟨-, log, hlog, hentries, -, hfinish, -⟩ := finish_of_run {} false voidMain
  have hclosed : (voidMain.draftAfter {} false).openFunctions = [] := by decide +kernel
  obtain ⟨binary, draft', hrun, -, -, hdrain⟩ := hfinish hclosed
  refine ⟨log, (hlog log).mpr rfl, ?_, binary, draft', hrun, hdrain⟩
  rw [← hentries]
  decide +kernel

end SpirvBinary
