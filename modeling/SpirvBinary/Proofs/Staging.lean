import SpirvBinary.Proofs.Statements

/-!
# Staging instructions

What the operations of a function body do to a draft: they stage instructions in the
innermost open function, in its head or in its body, and may declare types and constants.
In an open function they succeed, apart from declarations that do not fit and structs
that are not registered.

## Main definitions

* `Declares` — only declarations are made.
* `Stages` — instructions are staged in the innermost function, and beyond that only
  declarations are made.
* `LoopIds.Noted` — the constants of a loop are the declared ones.

## Main results

* `stages_declarationLaw` — declarations stage nothing.
* `beginIfThen_succeeds`, `beginIfThenElse_succeeds`, `endArm_succeeds`,
  `beginLoop_succeeds`, `endLoop_succeeds` — what the parts of the constructs stage.
-/

namespace SpirvBinary

open Opcode

/-- An instruction with few `operands` has an encoding, whatever its ids are. -/
theorem Instruction.fits_of_length {opcode : Opcode} {type : Option Id} {operands : List Word}
    (h : operands.length ≤ 65532) (result : Option Id) :
    (Instruction.mk opcode type result operands).Fits := by
  have hslot : ∀ id, (slot id).length ≤ 1 := fun id => by cases id <;> simp
  have htype := hslot type
  have hresult := hslot result
  simp only [Fits, wordCount, maxWordCount]
  omega

/-! ### Staging -/

/-- The `function` with more instructions at the ends of its head and its body: `head` and
`body`. -/
def StagedFunction.stage (head body : List Instruction) (function : StagedFunction) :
    StagedFunction :=
  ⟨head.reverse ++ function.newestHead, body.reverse ++ function.newestBody⟩

/-- From the draft `d` to the draft `e`, only declarations and names have been written.  The types
and constants known in `d` are still known, and what has become known is the result of an
instruction that was written. -/
structure Declares (d e : Draft) : Prop where
  known : ∀ key id, d.known.type? key = some id → e.known.type? key = some id
  written : ∃ added, e.layout.newest = added ++ d.layout.newest ∧
    (∀ entry ∈ added, entry.1 ≠ Section.functionDefinitions) ∧
    ∀ key id, e.known.type? key = some id →
      d.known.type? key = some id ∨ ∃ entry ∈ added, entry.2.result = some id

namespace Declares

variable {d e f : Draft}

theorem of_eq (hknown : ∀ key, e.known.type? key = d.known.type? key)
    (hlayout : e.layout = d.layout) : Declares d e := by
  refine ⟨fun key id h => (hknown key).trans h, [], ?_, by simp, fun key id h => ?_⟩
  · rw [hlayout]
    rfl
  · exact Or.inl ((hknown key).symm.trans h)

theorem trans (hde : Declares d e) (hef : Declares e f) : Declares d f := by
  obtain ⟨added, hadded, hsection, hnoted⟩ := hde.written
  obtain ⟨added', hadded', hsection', hnoted'⟩ := hef.written
  refine ⟨fun key id h => hef.known key id (hde.known key id h), added' ++ added, ?_, ?_, ?_⟩
  · rw [hadded', hadded, List.append_assoc]
  · intro entry hentry
    rcases List.mem_append.mp hentry with h | h
    · exact hsection' entry h
    · exact hsection entry h
  · intro key id h
    rcases hnoted' key id h with h' | ⟨entry, hentry, hresult⟩
    · rcases hnoted key id h' with h'' | ⟨entry, hentry, hresult⟩
      · exact Or.inl h''
      · exact Or.inr ⟨entry, List.mem_append_right _ hentry, hresult⟩
    · exact Or.inr ⟨entry, List.mem_append_left _ hentry, hresult⟩

end Declares

/-- From the draft `d` to the draft `e`, the instructions `head` and `body` have been added to the
head and the body of the innermost function, and beyond that only declarations have been made. -/
structure Stages (head body : List Instruction) (d e : Draft) : Prop extends Declares d e where
  functions : e.openFunctions = d.openFunctions.modifyHead (·.stage head body)

namespace Stages

variable {head head' body body' : List Instruction} {d e f : Draft} {α : Type}

/-- Staging nothing leaves the open functions as they are. -/
theorem of_declares (h : Declares d e) (hfunctions : e.openFunctions = d.openFunctions) :
    Stages [] [] d e := by
  refine ⟨h, ?_⟩
  rw [hfunctions]
  cases d.openFunctions <;> rfl

/-- A draft `e` that differs from `d` in its ids, its structs and its journal only. -/
theorem of_eq (hfunctions : e.openFunctions = d.openFunctions)
    (hknown : ∀ key, e.known.type? key = d.known.type? key) (hlayout : e.layout = d.layout) :
    Stages [] [] d e := of_declares (.of_eq hknown hlayout) hfunctions

theorem refl (d : Draft) : Stages [] [] d d := of_eq rfl (fun _ => rfl) rfl

theorem trans (hde : Stages head body d e) (hef : Stages head' body' e f) :
    Stages (head ++ head') (body ++ body') d f := by
  refine ⟨hde.toDeclares.trans hef.toDeclares, ?_⟩
  rw [hef.functions, hde.functions]
  cases d.openFunctions with
  | nil => rfl
  | cons innermost outer => simp [StagedFunction.stage]

/-- What is done from `e` to `f` without staging anything does not count. -/
theorem rest (hde : Stages head body d e) (hef : Stages [] [] e f) : Stages head body d f := by
  have h := hde.trans hef
  rwa [List.append_nil, List.append_nil] at h

theorem isOpen (h : Stages head body d e) (hd : d.openFunctions ≠ []) : e.openFunctions ≠ [] := by
  rw [h.functions]
  cases hcases : d.openFunctions with
  | nil => exact absurd hcases hd
  | cons innermost outer => simp

end Stages

/-! ### Declarations -/

theorem emit_stages {s : Section} (hs : s ≠ .functionDefinitions) (inst : Instruction) :
    Moves (Stages [] []) (Build.emit s inst) := by
  intro d
  by_cases h : inst.Fits
  · rw [after_of_ok (Build.emit_of_fits h s d)]
    refine Stages.of_declares ⟨fun _ _ h => h, [(s, inst)], rfl, ?_, fun _ _ => Or.inl⟩ rfl
    intro entry hentry
    rw [List.mem_singleton.mp hentry]
    exact hs
  · rw [after_of_error (Build.emit_of_not_fits h s d)]
    exact Stages.refl d

theorem declare_stages (opcode : Opcode) (type : Option Id) (operands : List Word) :
    Moves (Stages [] []) (Build.declare opcode type operands) := by
  intro d
  cases hfound : d.known.type? ⟨opcode, Instruction.slot type ++ operands⟩ with
  | some id =>
    rw [after_of_ok (Build.declare_of_known hfound)]
    exact Stages.of_eq rfl (fun _ => rfl) rfl
  | none =>
    by_cases hfits : (Instruction.mk opcode type (some d.ids.next) operands).Fits
    · rw [after_of_ok (Build.declare_of_fits hfound hfits)]
      refine Stages.of_declares ⟨?_, [(.globalDeclarations, _)], rfl, by simp, ?_⟩ rfl
      · -- what was known has another key than what was not
        intro key id hkey
        have hne : (⟨opcode, Instruction.slot type ++ operands⟩ : DeclarationKey) ≠ key := by
          rintro rfl
          rw [hfound] at hkey
          cases hkey
        exact (OrderedMap.get?_insert_of_ne _ _ hne).trans hkey
      · intro key id hkey
        by_cases heq : (⟨opcode, Instruction.slot type ++ operands⟩ : DeclarationKey) = key
        · right
          subst heq
          have hid := (OrderedMap.get?_insert_self _ _ _).symm.trans hkey
          exact ⟨_, List.mem_singleton.mpr rfl, hid⟩
        · left
          exact (OrderedMap.get?_insert_of_ne _ _ heq).symm.trans hkey
    · rw [after_of_error (Build.declare_of_not_fits hfound hfits)]
      exact Stages.of_eq rfl (fun _ => rfl) rfl

theorem declareStruct_stages (name : String) (fields : List (String × FieldType))
    (members : List Id) : Moves (Stages [] []) (Build.declareStruct name fields members) :=
  (Moves.composes (R := Stages [] []) Stages.refl fun _ _ _ => Stages.rest).declareStruct
    (fun _ => Stages.refl) (fun _ _ => Stages.of_eq rfl (fun _ => rfl) rfl)
    (fun _ => Stages.of_eq rfl (fun _ => rfl) rfl) (emit_stages (by decide))
    (emit_stages (by decide)) (fun _ _ _ => Stages.of_eq rfl (fun _ => rfl) rfl) name fields members

/-- Declarations stage nothing. -/
theorem stages_declarationLaw : DeclarationLaw (Stages [] []) :=
  .of_declare Stages.refl (fun _ _ _ => Stages.rest)
    (fun _ _ => Stages.of_eq rfl (fun _ => rfl) rfl)
    (fun opcode type operands _ => declare_stages opcode type operands) declareStruct_stages

/-! ### Operations of a function body

Each operation is described from the point of view of a draft that lies further back: what
had been staged since then, and what has been staged after the operation. -/

namespace Stages

variable {head body : List Instruction} {d e : Draft}

/-- A declaration that fits succeeds, and its id is known afterwards. -/
theorem declare (h : Stages head body d e) {opcode : Opcode} {type : Option Id}
    {operands : List Word} (hfits : ∀ id, (Instruction.mk opcode type (some id) operands).Fits) :
    Succeeds (Build.declare opcode type operands) e fun id f => Stages head body d f ∧
      f.known.type? ⟨opcode, Instruction.slot type ++ operands⟩ = some id := by
  have hmoves := declare_stages opcode type operands e
  cases hfound : e.known.type? ⟨opcode, Instruction.slot type ++ operands⟩ with
  | some id =>
    have hrun := Build.declare_of_known hfound
    rw [after_of_ok hrun] at hmoves
    exact ⟨id, _, hrun, h.rest hmoves, hfound⟩
  | none =>
    have hrun := Build.declare_of_fits hfound (hfits _)
    rw [after_of_ok hrun] at hmoves
    exact ⟨_, _, hrun, h.rest hmoves, OrderedMap.get?_insert_self _ _ _⟩

theorem freshId (h : Stages head body d e) :
    Succeeds Build.freshId e fun _ f => Stages head body d f :=
  ⟨_, _, rfl, h.rest (of_eq rfl (fun _ => rfl) rfl)⟩

/-- Staging `head'` and `body'` succeeds in an open function. -/
theorem updateFunction (h : Stages head body d e) (hd : d.openFunctions ≠ [])
    (head' body' : List Instruction) :
    Succeeds (Build.updateFunction (·.stage head' body')) e fun _ f =>
      Stages (head ++ head') (body ++ body') d f := by
  cases hopen : e.openFunctions with
  | nil => exact absurd hopen (h.isOpen hd)
  | cons innermost outer =>
    refine ⟨_, _, Build.updateFunction_of_open hopen _,
      h.trans ⟨.of_eq (fun _ => rfl) rfl, ?_⟩⟩
    rw [hopen]
    rfl

theorem pushBody (h : Stages head body d e) (hd : d.openFunctions ≠ []) (inst : Instruction) :
    Succeeds (Build.pushBody inst) e fun _ f => Stages head (body ++ [inst]) d f := by
  have hstage := h.updateFunction hd [] [inst]
  rwa [List.append_nil] at hstage

theorem pushHead (h : Stages head body d e) (hd : d.openFunctions ≠ []) (inst : Instruction) :
    Succeeds (Build.pushHead inst) e fun _ f => Stages (head ++ [inst]) body d f := by
  have hstage := h.updateFunction hd [inst] []
  rwa [List.append_nil] at hstage

theorem emitBody (h : Stages head body d e) (hd : d.openFunctions ≠ []) (opcode : Opcode)
    (type : Id) (operands : List Word) :
    Succeeds (Build.emitBody opcode type operands) e fun id f =>
      Stages head (body ++ [.typed opcode type id operands]) d f :=
  h.freshId.bind fun _ _ _ h => (h.pushBody hd _).bind fun _ _ _ h => Succeeds.pure h

theorem localVariable (h : Stages head body d e) (hd : d.openFunctions ≠ []) (pointee : Id) :
    Succeeds (Build.localVariable pointee) e fun id f =>
      ∃ pointer, Stages (head ++ [.localVariable pointer id]) body d f := by
  refine (h.declare fun id => Instruction.fits_of_length (by simp) (some id)).bind
    fun pointer _ _ h => ?_
  exact h.1.freshId.bind fun _ _ _ h =>
    (h.pushHead hd _).bind fun _ _ _ h => Succeeds.pure ⟨pointer, h⟩

end Stages

/-! ### Constants of loops -/

/-- The key of the type of signed numbers of 32 bits. -/
def intKey : DeclarationKey := ⟨opTypeInt, [32, 1]⟩

/-- The key of a constant of the type `int` with a `value`. -/
def intConstantKey (int : Id) (value : Int32) : DeclarationKey :=
  ⟨opConstant, [int.word, intWord value]⟩

/-- The type and the constants of a loop, as `ids` has them, are those declared in the draft
`d`. -/
structure LoopIds.Noted (ids : LoopIds) (d : Draft) : Prop where
  int : d.known.type? intKey = some ids.int
  zero : d.known.type? (intConstantKey ids.int 0) = some ids.zero
  one : d.known.type? (intConstantKey ids.int 1) = some ids.one
  limit : d.known.type? (intConstantKey ids.int ids.count) = some ids.limit

theorem LoopIds.Noted.mono {ids : LoopIds} {head body : List Instruction} {d e : Draft}
    (h : ids.Noted d) (hde : Stages head body d e) : ids.Noted e :=
  ⟨hde.known _ _ h.int, hde.known _ _ h.zero, hde.known _ _ h.one, hde.known _ _ h.limit⟩

theorem intType_succeeds (d : Draft) :
    Succeeds (Build.intType 32 true) d fun int e =>
      Stages [] [] d e ∧ e.known.type? intKey = some int :=
  (Stages.refl d).declare fun id => Instruction.fits_of_length (by simp) (some id)

theorem boolType_succeeds (d : Draft) :
    Succeeds Build.boolType d fun _ e => Stages [] [] d e :=
  ((Stages.refl d).declare fun id => Instruction.fits_of_length (by simp) (some id)).mono
    fun _ _ h => h.1

theorem intConstant_succeeds {d : Draft} {int : Id} (hint : d.known.type? intKey = some int)
    (value : Int32) :
    Succeeds (Build.intConstant value) d fun id e =>
      Stages [] [] d e ∧ e.known.type? (intConstantKey int value) = some id := by
  refine (intType_succeeds d).bind fun int' e _ h => ?_
  -- the type has been declared before, so it is the same one
  have heq : int' = int := Option.some.inj (h.2.symm.trans (h.1.known _ _ hint))
  subst heq
  exact h.1.declare fun id => Instruction.fits_of_length (by simp) (some id)

/-- The constants of a loop, declared in front of what follows, `k`. -/
theorem loopConstants_succeed {α : Type} (count : Int32) (d : Draft)
    {k : Id → Id → Id → Id → Id → Build α} {P : α → Draft → Prop}
    (hk : ∀ int bool zero one limit e, Stages [] [] d e → e.known.type? intKey = some int →
      e.known.type? (intConstantKey int 0) = some zero →
      e.known.type? (intConstantKey int 1) = some one →
      e.known.type? (intConstantKey int count) = some limit →
      Succeeds (k int bool zero one limit) e P) :
    Succeeds (do
      let int ← Build.intType 32 true
      let bool ← Build.boolType
      let zero ← Build.intConstant 0
      let one ← Build.intConstant 1
      let limit ← Build.intConstant count
      k int bool zero one limit) d P := by
  refine (intType_succeeds d).bind fun int d1 _ h1 => ?_
  refine (boolType_succeeds d1).bind fun bool d2 _ h2 => ?_
  have hint2 := h2.known _ _ h1.2
  refine (intConstant_succeeds hint2 0).bind fun zero d3 _ h3 => ?_
  have hint3 := h3.1.known _ _ hint2
  refine (intConstant_succeeds hint3 1).bind fun one d4 _ h4 => ?_
  have hint4 := h4.1.known _ _ hint3
  refine (intConstant_succeeds hint4 count).bind fun limit d5 _ h5 => ?_
  refine hk int bool zero one limit d5 ?_ (h5.1.known _ _ hint4) ?_ (h5.1.known _ _ h4.2) h5.2
  · exact (((h1.1.rest h2).rest h3.1).rest h4.1).rest h5.1
  · exact h5.1.known _ _ (h4.1.known _ _ h3.2)

/-! ### Constructs -/

section

variable {d : Draft} (hd : d.openFunctions ≠ [])

include hd

theorem beginIfThen_succeeds (condition : Id) :
    Succeeds (Build.beginIfThen condition) d fun merge e => ∃ onTrue,
      Stages [] (Instruction.selection condition onTrue merge merge) d e := by
  refine (Stages.refl d).freshId.bind fun onTrue _ _ h => ?_
  refine h.freshId.bind fun merge _ _ h => ?_
  refine Succeeds.bind ((h.pushBody hd _).bind fun _ _ _ h => h.pushBody hd _) fun _ _ _ h => ?_
  exact (h.pushBody hd _).bind fun _ _ _ h => Succeeds.pure ⟨onTrue, h⟩

theorem beginIfThenElse_succeeds (condition : Id) :
    Succeeds (Build.beginIfThenElse condition) d fun labels e => ∃ onTrue,
      Stages [] (Instruction.selection condition onTrue labels.1 labels.2) d e := by
  refine (Stages.refl d).freshId.bind fun onTrue _ _ h => ?_
  refine h.freshId.bind fun onFalse _ _ h => ?_
  refine h.freshId.bind fun merge _ _ h => ?_
  refine Succeeds.bind ((h.pushBody hd _).bind fun _ _ _ h => h.pushBody hd _) fun _ _ _ h => ?_
  exact (h.pushBody hd _).bind fun _ _ _ h => Succeeds.pure ⟨onTrue, h⟩

theorem endArm_succeeds (merge next : Id) :
    Succeeds (Build.endArm merge next) d fun _ e =>
      Stages [] (Instruction.endArm merge next) d e :=
  ((Stages.refl d).pushBody hd _).bind fun _ _ _ h => h.pushBody hd _

theorem beginLoop_succeeds (count : Int32) :
    Succeeds (Build.beginLoop count) d fun frame e => ∃ ids : LoopIds,
      ids.toLoopFrame = frame ∧ ids.count = count ∧ ids.Noted e ∧
        Stages [.localVariable ids.pointer ids.counter] ids.opening d e := by
  refine loopConstants_succeed count d
    fun int bool zero one limit c hdc hint hzero hone hlimit => ?_
  -- what follows is described from the draft in which the constants are known
  have hc := hdc.isOpen hd
  refine ((Stages.refl c).localVariable hc int).bind fun counter _ _ h => ?_
  obtain ⟨pointer, h⟩ := h
  refine (h.pushBody hc _).bind fun _ _ _ h => ?_
  refine h.freshId.bind fun header _ _ h => ?_
  refine h.freshId.bind fun check _ _ h => ?_
  refine h.freshId.bind fun body _ _ h => ?_
  refine h.freshId.bind fun advance _ _ h => ?_
  refine h.freshId.bind fun merge _ _ h => ?_
  refine (h.pushBody hc _).bind fun _ _ _ h => ?_
  refine (h.pushBody hc _).bind fun _ _ _ h => ?_
  refine (h.pushBody hc _).bind fun _ _ _ h => ?_
  refine (h.pushBody hc _).bind fun _ _ _ h => ?_
  refine (h.pushBody hc _).bind fun _ _ _ h => ?_
  refine (h.emitBody hc _ _ _).bind fun index _ _ h => ?_
  refine (h.emitBody hc _ _ _).bind fun inRange _ _ h => ?_
  refine (h.pushBody hc _).bind fun _ _ _ h => ?_
  refine (h.pushBody hc _).bind fun _ e _ h => Succeeds.pure ?_
  refine ⟨⟨⟨int, one, counter, header, advance, merge, index⟩, count, bool, zero, limit, pointer,
    check, body, inRange, default, default⟩, rfl, rfl, ?_, hdc.trans h⟩
  exact LoopIds.Noted.mono ⟨hint, hzero, hone, hlimit⟩ h

theorem endLoop_succeeds (ids : LoopIds) :
    Succeeds (Build.endLoop ids.toLoopFrame) d fun _ e => ∃ current next,
      Stages [] { ids with current := current, next := next }.closing d e := by
  refine ((Stages.refl d).pushBody hd _).bind fun _ _ _ h => ?_
  refine (h.pushBody hd _).bind fun _ _ _ h => ?_
  refine (h.emitBody hd _ _ _).bind fun current _ _ h => ?_
  refine (h.emitBody hd _ _ _).bind fun next _ _ h => ?_
  refine (h.pushBody hd _).bind fun _ _ _ h => ?_
  refine (h.pushBody hd _).bind fun _ _ _ h => ?_
  exact (h.pushBody hd _).mono fun _ _ h => ⟨current, next, h⟩

end

end SpirvBinary
