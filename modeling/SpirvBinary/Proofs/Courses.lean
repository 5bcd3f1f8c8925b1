import SpirvBinary.Proofs.Runs

/-!
# Courses of elementary operations

Whatever a build does, it does by a few elementary operations, one after the other: an id
is handed out, a type or constant is declared, a struct or a variable of the module is
declared, an instruction is written to a section, a function is staged, an event is noted.
A *course* is a sequence of elementary operations, together with a log of the global
declarations that were written on the way and of who wrote them.  Every run is a course,
and a course may stop anywhere, in the middle of a construct or of a declaration with
parts as well.

What an elementary operation can do to the declarations of a draft is said once, by
`Effect`.  Everything else about courses follows from it.

## Main definitions

* `Draft.globals` — the global declarations of a draft.
* `Idle` — nothing is declared.
* `Elementary`, `Elementary.draftAfter` — the elementary operations.
* `Author` — who writes a global declaration.
* `Effect` — what an elementary operation does to the declarations of a draft.
* `Course` — a sequence of elementary operations of some kind, with its log.
* `Precedes` — a course leads from one draft to another.

## Main results

* `Elementary.effect` — every elementary operation has such an effect.
* `Precedes.law` — all operations that are not raw are courses.
* `Precedes.run` — every run is a course.
-/

namespace SpirvBinary

open Opcode

/-! ### Global declarations -/

/-- The global declarations of a draft, in the order in which they were written. -/
def Draft.globals (d : Draft) : List Instruction := d.layout.instructions .globalDeclarations

/-- Nothing has been declared from the draft `d` to the draft `e`, and ids have at most been handed
out. -/
structure Idle (d e : Draft) : Prop where
  globals : e.globals = d.globals
  known : e.known = d.known
  count : d.ids.count ≤ e.ids.count

namespace Idle

theorem of_eq {d e : Draft} (hlayout : e.layout = d.layout) (hknown : e.known = d.known)
    (hids : e.ids = d.ids) : Idle d e :=
  ⟨by rw [Draft.globals, Draft.globals, hlayout], hknown, Nat.le_of_eq (by rw [hids])⟩

theorem refl (d : Draft) : Idle d d := of_eq rfl rfl rfl

theorem trans {d e f : Draft} (hde : Idle d e) (hef : Idle e f) : Idle d f :=
  ⟨hef.globals.trans hde.globals, hef.known.trans hde.known, Nat.le_trans hde.count hef.count⟩

theorem bind {α β : Type} {x : Build α} {k : α → Build β} (hx : Moves Idle x)
    (hk : ∀ a, Moves Idle (k a)) : Moves Idle (x >>= k) :=
  Moves.bind (R := Idle) (fun _ _ _ => trans) hx hk

theorem freshId : Moves Idle Build.freshId := fun _ => ⟨rfl, rfl, Nat.le_succ _⟩

theorem emit {s : Section} (hs : s ≠ .globalDeclarations) (inst : Instruction) :
    Moves Idle (Build.emit s inst) := by
  intro d
  by_cases h : inst.Fits
  · rw [after_of_ok (Build.emit_of_fits h s d)]
    exact ⟨Layout.instructions_add_of_ne d.layout hs h, rfl, Nat.le_refl _⟩
  · rw [after_of_error (Build.emit_of_not_fits h s d)]
    exact refl d

theorem nameMembers (type : Id) (fields : List (String × FieldType)) (index : Nat) :
    Moves Idle (Build.nameMembers type index fields) :=
  (Moves.composes (R := Idle) refl fun _ _ _ => trans).nameMembers (emit (by decide)) type fields
    index

theorem nameStruct (type : Id) (name : String) (fields : List (String × FieldType)) :
    Moves Idle (do
      Build.nameId type name
      Build.nameMembers type 0 fields
      return type) :=
  bind (emit (by decide) _) fun _ => bind (nameMembers _ _ _) fun _ => Moves.pure refl _

/-- Whatever declares nothing is `Idle`. -/
theorem staging : StagingLaw Idle :=
  .of_functions refl (fun _ _ _ => trans) (fun _ _ => of_eq rfl rfl rfl) freshId
    (fun _ inst hs => emit hs inst) fun _ _ => of_eq rfl rfl rfl

end Idle

/-! ### Elementary operations -/

/-- The operations that all others are made of. -/
inductive Elementary where
  /-- Hands out an id. -/
  | freshId
  /-- Declares a type, or a constant of a type. -/
  | declare (opcode : Opcode) (type : Option Id) (operands : List Word)
  /-- Declares a struct with the given `fields`, whose types have been declared as `members`. -/
  | declareStruct (name : String) (fields : List (String × FieldType)) (members : List Id)
  /-- Declares a variable of the module. -/
  | globalVariable (pointer : Id) (storage : StorageClass)
  /-- Writes an instruction to a section. -/
  | emit (s : Section) (inst : Instruction)
  /-- Opens, closes or fills functions. -/
  | stage (functions : List StagedFunction)
  /-- Notes events. -/
  | note (events : List Event)

/-- Who writes a global declaration. -/
inductive Author where
  /-- The declaration of types and constants. -/
  | declaration
  /-- The registration of structs. -/
  | struct
  /-- The declaration of variables of the module. -/
  | globalVariable
  /-- The caller, who gives an instruction as it is. -/
  | caller
  deriving DecidableEq, Repr, Inhabited

namespace Elementary

/-- The draft after an elementary operation, whether it succeeds or fails.  It is `after` for all
that are computations. -/
def draftAfter : Elementary → Draft → Draft
  | .freshId, d => after Build.freshId d
  | .declare opcode type operands, d => after (Build.declare opcode type operands) d
  | .declareStruct name fields members, d => after (Build.declareStruct name fields members) d
  | .globalVariable pointer storage, d => after (Build.globalVariable pointer storage) d
  | .emit s inst, d => after (Build.emit s inst) d
  | .stage functions, d => { d with openFunctions := functions }
  | .note events, d => { d with journal := events }

/-- Who writes the global declarations that an operation writes. -/
def author : Elementary → Author
  | .declare .. => .declaration
  | .declareStruct .. => .struct
  | .globalVariable .. => .globalVariable
  | _ => .caller

/-- No instruction is written to `globalDeclarations` as it is. -/
def SparesGlobals : Elementary → Prop
  | .emit s _ => s ≠ .globalDeclarations
  | _ => True

/-- Types and constants are declared by opcodes of their own. -/
def KeepsKinds : Elementary → Prop
  | .declare opcode type _ => SpirvBinary.KeepsKinds opcode type
  | _ => True

/-- Both `SparesGlobals` and `KeepsKinds`. -/
def Orderly (op : Elementary) : Prop := op.SparesGlobals ∧ op.KeepsKinds

end Elementary

/-- The global declarations that `op` writes when it is performed on `d`, with their author. -/
def Elementary.entries (op : Elementary) (d : Draft) : List (Author × Instruction) :=
  ((op.draftAfter d).globals.drop d.globals.length).map (Prod.mk op.author)

theorem Elementary.entries_of_eq {op : Elementary} {d : Draft}
    (h : (op.draftAfter d).globals = d.globals) : op.entries d = [] := by
  rw [entries, h, List.drop_length, List.map_nil]

theorem Elementary.entries_of_append {op : Elementary} {d : Draft} {inst : Instruction}
    (h : (op.draftAfter d).globals = d.globals ++ [inst]) :
    op.entries d = [(op.author, inst)] := by
  rw [entries, h, List.drop_left, List.map_singleton]

/-! ### Effects -/

/-- What an elementary operation can do to the declarations of the draft `d`, and what it
writes. -/
inductive Effect (d : Draft) : Elementary → List (Author × Instruction) → Draft → Prop
  /-- Nothing is declared. -/
  | idle {op : Elementary} {e : Draft} (h : Idle d e) : Effect d op [] e
  /-- A type or constant that was not known is written under the next id, and noted. -/
  | declared {opcode : Opcode} {type : Option Id} {operands : List Word} {e : Draft}
      (unknown : d.known.type? ⟨opcode, Instruction.slot type ++ operands⟩ = none)
      (fits : (Instruction.mk opcode type (some d.ids.next) operands).Fits)
      (globals : e.globals = d.globals ++ [⟨opcode, type, some d.ids.next, operands⟩])
      (known : e.known
        = d.known.insertType ⟨opcode, Instruction.slot type ++ operands⟩ d.ids.next)
      (count : d.ids.count < e.ids.count) :
      Effect d (.declare opcode type operands)
        [(.declaration, ⟨opcode, type, some d.ids.next, operands⟩)] e
  /-- A struct whose name was not registered is written under the next id, and noted. -/
  | registered {name : String} {fields : List (String × FieldType)} {members : List Id}
      {e : Draft} (unknown : d.known.struct? name = none)
      (globals : e.globals
        = d.globals ++ [⟨opTypeStruct, none, some d.ids.next, members.map Id.word⟩])
      (known : e.known = d.known.insertStruct name d.ids.next)
      (count : d.ids.count < e.ids.count) :
      Effect d (.declareStruct name fields members)
        [(.struct, ⟨opTypeStruct, none, some d.ids.next, members.map Id.word⟩)] e
  /-- A variable is written under the next id. -/
  | allotted {pointer : Id} {storage : StorageClass} {e : Draft}
      (globals : e.globals = d.globals ++ [⟨opVariable, some pointer, some d.ids.next, [storage]⟩])
      (known : e.known = d.known) (count : d.ids.count < e.ids.count) :
      Effect d (.globalVariable pointer storage)
        [(.globalVariable, ⟨opVariable, some pointer, some d.ids.next, [storage]⟩)] e
  /-- An instruction is written as it is. -/
  | emitted {inst : Instruction} {e : Draft} (globals : e.globals = d.globals ++ [inst])
      (known : e.known = d.known) (count : d.ids.count ≤ e.ids.count) :
      Effect d (.emit .globalDeclarations inst) [(.caller, inst)] e

theorem Effect.of_idle {op : Elementary} {d : Draft} (h : Idle d (op.draftAfter d)) :
    Effect d op (op.entries d) (op.draftAfter d) := by
  rw [Elementary.entries_of_eq h.globals]
  exact .idle h

theorem effect_declare (opcode : Opcode) (type : Option Id) (operands : List Word) (d : Draft) :
    let op := Elementary.declare opcode type operands
    Effect d op (op.entries d) (op.draftAfter d) := by
  intro op
  cases hfound : d.known.type? ⟨opcode, Instruction.slot type ++ operands⟩ with
  | some id =>
    have hafter : op.draftAfter d = _ := after_of_ok (Build.declare_of_known hfound)
    refine .of_idle ?_
    rw [hafter]
    exact .of_eq rfl rfl rfl
  | none =>
    by_cases hfits : (Instruction.mk opcode type (some d.ids.next) operands).Fits
    · have hafter : op.draftAfter d = _ := after_of_ok (Build.declare_of_fits hfound hfits)
      have hglobals : (op.draftAfter d).globals
          = d.globals ++ [⟨opcode, type, some d.ids.next, operands⟩] := by
        rw [hafter]
        exact Layout.instructions_add_self d.layout _ hfits
      rw [Elementary.entries_of_append hglobals]
      refine .declared hfound hfits hglobals ?_ ?_
      · rw [hafter]
      · rw [hafter]
        exact Nat.lt_succ_self _
    · -- the id that was taken stays unused
      have hafter : op.draftAfter d = _ := after_of_error (Build.declare_of_not_fits hfound hfits)
      refine .of_idle ?_
      rw [hafter]
      exact ⟨rfl, rfl, Nat.le_succ _⟩

theorem effect_declareStruct (name : String) (fields : List (String × FieldType))
    (members : List Id) (d : Draft) :
    let op := Elementary.declareStruct name fields members
    Effect d op (op.entries d) (op.draftAfter d) := by
  intro op
  cases hfound : d.known.struct? name with
  | some id =>
    have hafter : op.draftAfter d = _ :=
      after_of_ok (Build.declareStruct_of_known hfound fields members)
    refine .of_idle ?_
    rw [hafter]
    exact .of_eq rfl rfl rfl
  | none =>
    by_cases hfits : (Instruction.mk opTypeStruct none (some d.ids.next)
        (members.map Id.word)).Fits
    · -- the names that are written afterwards do not touch what has been declared
      have h := Idle.nameStruct d.ids.next name fields
        { d with
          ids := d.ids.advance
          known := d.known.insertStruct name d.ids.next
          layout := d.layout.add .globalDeclarations _ hfits
          journal := .structAdded name d.ids.next :: d.journal }
      rw [after, ← Build.declareStruct_of_fits hfound fields hfits, ← after] at h
      change Idle _ (op.draftAfter d) at h
      have hglobals : (op.draftAfter d).globals
          = d.globals ++ [⟨opTypeStruct, none, some d.ids.next, members.map Id.word⟩] :=
        h.globals.trans (Layout.instructions_add_self d.layout _ hfits)
      rw [Elementary.entries_of_append hglobals]
      exact .registered hfound hglobals h.known h.count
    · have hafter : op.draftAfter d = _ :=
        after_of_error (Build.declareStruct_of_not_fits hfound fields hfits)
      refine .of_idle ?_
      rw [hafter]
      exact ⟨rfl, rfl, Nat.le_succ _⟩

theorem effect_globalVariable (pointer : Id) (storage : StorageClass) (d : Draft) :
    let op := Elementary.globalVariable pointer storage
    Effect d op (op.entries d) (op.draftAfter d) := by
  intro op
  have hfits : (Instruction.mk opVariable (some pointer) (some d.ids.next) [storage]).Fits := by
    simp [Instruction.Fits, Instruction.wordCount, Instruction.maxWordCount]
  have hafter : op.draftAfter d = { d with
      ids := d.ids.advance
      layout := d.layout.add .globalDeclarations _ hfits } := by
    change after (Build.globalVariable pointer storage) d = _
    rw [Build.globalVariable, after_bind_of_ok (Build.freshId_run d),
      after_bind_of_ok (Build.emit_of_fits hfits _ _)]
    rfl
  have hglobals : (op.draftAfter d).globals
      = d.globals ++ [⟨opVariable, some pointer, some d.ids.next, [storage]⟩] := by
    rw [hafter]
    exact Layout.instructions_add_self d.layout _ hfits
  rw [Elementary.entries_of_append hglobals]
  refine .allotted hglobals ?_ ?_
  · rw [hafter]
  · rw [hafter]
    exact Nat.lt_succ_self _

theorem effect_emit (s : Section) (inst : Instruction) (d : Draft) :
    let op := Elementary.emit s inst
    Effect d op (op.entries d) (op.draftAfter d) := by
  intro op
  by_cases hs : s = .globalDeclarations
  · subst hs
    by_cases h : inst.Fits
    · have hafter : op.draftAfter d = _ := after_of_ok (Build.emit_of_fits h _ d)
      have hglobals : (op.draftAfter d).globals = d.globals ++ [inst] := by
        rw [hafter]
        exact Layout.instructions_add_self d.layout _ h
      rw [Elementary.entries_of_append hglobals]
      refine .emitted hglobals ?_ ?_
      · rw [hafter]
      · exact Nat.le_of_eq (by rw [hafter])
    · have hafter : op.draftAfter d = _ := after_of_error (Build.emit_of_not_fits h _ d)
      refine .of_idle ?_
      rw [hafter]
      exact Idle.refl d
  · exact .of_idle (Idle.emit hs inst d)

/-- Every elementary operation has an `Effect`. -/
theorem Elementary.effect (op : Elementary) (d : Draft) :
    Effect d op (op.entries d) (op.draftAfter d) := by
  cases op with
  | freshId => exact .of_idle (Idle.freshId d)
  | declare opcode type operands => exact effect_declare opcode type operands d
  | declareStruct name fields members => exact effect_declareStruct name fields members d
  | globalVariable pointer storage => exact effect_globalVariable pointer storage d
  | emit s inst => exact effect_emit s inst d
  | stage functions => exact .of_idle (.of_eq rfl rfl rfl)
  | note events => exact .of_idle (.of_eq rfl rfl rfl)

/-! ### Courses -/

/-- From the draft `d` elementary operations that are `allowed` lead to another, one after the
other.  The log lists the global declarations written on the way and their authors. -/
inductive Course (allowed : Elementary → Prop) (d : Draft) :
    List (Author × Instruction) → Draft → Prop
  | start : Course allowed d [] d
  | step {log : List (Author × Instruction)} {e : Draft} (course : Course allowed d log e)
      {op : Elementary} (hop : allowed op) :
      Course allowed d (log ++ op.entries e) (op.draftAfter e)

/-- Elementary operations that are `allowed` lead from the draft `d` to the draft `e`. -/
def Precedes (allowed : Elementary → Prop) (d e : Draft) : Prop := ∃ log, Course allowed d log e

namespace Course

variable {allowed : Elementary → Prop} {d e f : Draft} {log log' : List (Author × Instruction)}

theorem trans (hde : Course allowed d log e) (hef : Course allowed e log' f) :
    Course allowed d (log ++ log') f := by
  induction hef with
  | start => rwa [List.append_nil]
  | step _ hop ih =>
    rw [← List.append_assoc]
    exact ih.step hop

/-- What holds at the start of a course and is kept by every `Effect` of an allowed operation holds
at its end. -/
theorem induction {P : List (Author × Instruction) → Draft → Prop}
    (course : Course allowed d log e) (start : P [] d)
    (step : ∀ log e op entries f, allowed op → Effect e op entries f → P log e →
      P (log ++ entries) f) : P log e := by
  induction course with
  | start => exact start
  | step _ hop ih => exact step _ _ _ _ _ hop (Elementary.effect _ _) ih

end Course

namespace Precedes

variable {allowed : Elementary → Prop} {d e f : Draft}

theorem refl (d : Draft) : Precedes allowed d d := ⟨[], .start⟩

theorem trans (hde : Precedes allowed d e) (hef : Precedes allowed e f) : Precedes allowed d f := by
  obtain ⟨log, hlog⟩ := hde
  obtain ⟨log', hlog'⟩ := hef
  exact ⟨log ++ log', hlog.trans hlog'⟩

theorem of_op (op : Elementary) (hop : allowed op) (d : Draft) :
    Precedes allowed d (op.draftAfter d) := ⟨_, Course.start.step hop⟩

theorem declare {opcode : Opcode} {type : Option Id} {operands : List Word} {id : Id}
    (h : Build.declare opcode type operands d = .ok id e)
    (hop : allowed (.declare opcode type operands)) : Precedes allowed d e := by
  rw [← after_of_ok h]
  exact of_op (.declare opcode type operands) hop d

end Precedes

/-! ### Runs are courses -/

/-- The command writes no instruction to `globalDeclarations` as it is. -/
def Command.SparesGlobals : Command → Prop
  | .emit s _ | .emitResult s _ _ => s ≠ .globalDeclarations
  | _ => True

namespace Precedes

variable {allowed : Elementary → Prop}

/-- All operations that are not raw are courses of operations that are `Orderly`. -/
theorem law (h : ∀ op : Elementary, op.SparesGlobals → op.KeepsKinds → allowed op) :
    Law (Precedes allowed) := by
  refine Law.of_sections (.of_declare refl (fun _ _ _ => trans) ?_ ?_ ?_) ?_ ?_ ?_ ?_
  · exact fun d events => of_op (.note events) (h _ trivial trivial) d
  · exact fun opcode type operands hkinds d =>
      of_op (.declare opcode type operands) (h _ trivial hkinds) d
  · exact fun name fields members d =>
      of_op (.declareStruct name fields members) (h _ trivial trivial) d
  · exact fun d => of_op .freshId (h _ trivial trivial) d
  · exact fun s inst hs d => of_op (.emit s inst) (h _ hs trivial) d
  · exact fun pointer storage d =>
      of_op (.globalVariable pointer storage) (h _ trivial trivial) d
  · exact fun d functions => of_op (.stage functions) (h _ trivial trivial) d

/-- Raw commands are courses, too, as far as what they write and declare is `allowed`. -/
theorem perform_raw (h : ∀ op : Elementary, op.SparesGlobals → op.KeepsKinds → allowed op)
    (names : Names) {operation : Command} (hraw : operation.IsRaw)
    (hemit : operation.SparesGlobals ∨ ∀ s inst, allowed (.emit s inst))
    (hdeclare : operation.KeepsKinds ∨
      ∀ opcode type operands, allowed (.declare opcode type operands)) :
    Moves (Precedes allowed) (operation.perform names) := by
  have hlaw := law h
  have hstage : ∀ f, Moves (Precedes allowed) (Build.updateFunction f) :=
    updateFunction_moves refl fun d functions =>
      of_op (.stage functions) (h _ trivial trivial) d
  have hwrite : ∀ s inst, (s ≠ .globalDeclarations ∨ ∀ s inst, allowed (.emit s inst)) →
      Moves (Precedes allowed) (Build.emit s inst) := by
    intro s inst hs d
    exact of_op (.emit s inst) (hs.elim (fun hs => h _ hs trivial) fun hall => hall s inst) d
  have hdecl : ∀ opcode type operands, (SpirvBinary.KeepsKinds opcode type ∨
      ∀ opcode type operands, allowed (.declare opcode type operands)) →
      Moves (Precedes allowed) (Build.declare opcode type operands) := by
    intro opcode type operands hkinds d
    exact of_op (.declare opcode type operands)
      (hkinds.elim (fun hkinds => h _ trivial hkinds) fun hall => hall opcode type operands) d
  cases operation with
  | emit s template => exact hlaw.answerDone (hwrite s _ hemit)
  | emitResult s opcode operands =>
    exact hlaw.answerId (hlaw.bind hlaw.freshId fun id =>
      hlaw.bind (hwrite s _ hemit) fun _ => hlaw.pure id)
  | declareType opcode operands => exact hlaw.answerId (hdecl opcode none _ hdeclare)
  | declareConstant opcode type operands => exact hlaw.answerId (hdecl opcode _ _ hdeclare)
  | pushHead template => exact hlaw.answerDone (hstage _)
  | pushBody template => exact hlaw.answerDone (hstage _)
  | label block => exact hlaw.answerDone (hstage _)
  | _ => exact hraw.elim

/-- Every run is a course. -/
theorem run {τ : Type} (script : Script τ) (lenient : Bool) :
    Moves (OnDrafts (Precedes fun _ => True)) (script.run lenient) :=
  have huses : script.Uses fun _ => True := script.uses_of_forall fun _ => trivial
  (law fun _ _ _ => trivial).run
    (fun names _ hraw _ => perform_raw (fun _ _ _ => trivial) names hraw
      (.inr fun _ _ => trivial) (.inr fun _ _ _ => trivial))
    script huses lenient

/-- A run that writes no instruction to the global declarations as it is is a course of
operations that do not. -/
theorem draftAfter_of_sparesGlobals {τ : Type} {script : Script τ}
    (huses : script.Uses Command.SparesGlobals) (settings : Settings) (lenient : Bool) :
    Precedes Elementary.SparesGlobals { settings := settings }
      (script.draftAfter settings lenient) :=
  (law fun _ hop _ => hop).draftAfter
    (fun names _ hraw hop => perform_raw (fun _ hop _ => hop) names hraw (.inl hop)
      (.inr fun _ _ _ => trivial))
    huses settings lenient

/-- A run that does not mix types and constants up either is a course of operations that are
`Orderly`. -/
theorem draftAfter_of_orderly {τ : Type} {script : Script τ}
    (huses : script.Uses fun operation => operation.SparesGlobals ∧ operation.KeepsKinds)
    (settings : Settings) (lenient : Bool) :
    Precedes Elementary.Orderly { settings := settings } (script.draftAfter settings lenient) :=
  (law fun _ hop hkinds => ⟨hop, hkinds⟩).draftAfter
    (fun names _ hraw hop => perform_raw (fun _ hop hkinds => ⟨hop, hkinds⟩) names hraw
      (.inl hop.1) (.inl hop.2))
    huses settings lenient

end Precedes

end SpirvBinary
