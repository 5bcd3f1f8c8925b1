import SpirvBinary.Build.Functions
import SpirvBinary.Build.Structs
import SpirvBinary.Proofs.Moves

/-!
# What the primitive operations do

One equation for each way in which a primitive operation can end: the result or the
fault, and the draft it leaves.  Everything else is put together from these operations,
so no other proof opens them.
-/

namespace SpirvBinary

namespace Build

variable {d : Draft}

theorem get_run (d : Draft) : (get : Build Draft) d = .ok d d := rfl

theorem freshId_run (d : Draft) :
    freshId d = .ok d.ids.next { d with ids := d.ids.advance } := rfl

/-! ### Writing -/

theorem emit_of_append {s : Section} {inst : Instruction} {layout : Layout}
    (h : d.layout.append s inst = .ok layout) :
    emit s inst d = .ok () { d with layout := layout } := by
  change (ofExcept (d.layout.append s inst) >>= _) d = _
  rw [h]
  rfl

theorem emit_of_append_error {s : Section} {inst : Instruction} {fault : Fault}
    (h : d.layout.append s inst = .error fault) : emit s inst d = .error fault d := by
  change (ofExcept (d.layout.append s inst) >>= _) d = _
  rw [h]
  rfl

theorem emit_of_fits {inst : Instruction} (h : inst.Fits) (s : Section) (d : Draft) :
    emit s inst d = .ok () { d with layout := d.layout.add s inst h } :=
  emit_of_append (d.layout.append_of_fits s h)

theorem emit_of_not_fits {inst : Instruction} (h : ¬ inst.Fits) (s : Section) (d : Draft) :
    emit s inst d = .error (.tooLong inst.opcode inst.wordCount) d :=
  emit_of_append_error (d.layout.append_of_not_fits s h)

/-! ### Declaring -/

theorem findType_of_known {key : DeclarationKey} {id : Id} (h : d.known.type? key = some id) :
    findType key d = .ok (some id) { d with journal := .typeFound key id :: d.journal } := by
  rw [findType, bind_of_ok (get_run d), h]
  rfl

theorem findType_of_unknown {key : DeclarationKey} (h : d.known.type? key = none) :
    findType key d = .ok none d := by
  rw [findType, bind_of_ok (get_run d), h]
  rfl

theorem declare_of_known {opcode : Opcode} {type : Option Id} {operands : List Word} {id : Id}
    (h : d.known.type? ⟨opcode, Instruction.slot type ++ operands⟩ = some id) :
    declare opcode type operands d = .ok id
      { d with
        journal := .typeFound ⟨opcode, Instruction.slot type ++ operands⟩ id :: d.journal } := by
  rw [declare, bind_of_ok (findType_of_known h)]
  rfl

theorem declare_of_fits {opcode : Opcode} {type : Option Id} {operands : List Word}
    (hnone : d.known.type? ⟨opcode, Instruction.slot type ++ operands⟩ = none)
    (hfits : (Instruction.mk opcode type (some d.ids.next) operands).Fits) :
    declare opcode type operands d = .ok d.ids.next
      { d with
        ids := d.ids.advance
        known := d.known.insertType ⟨opcode, Instruction.slot type ++ operands⟩ d.ids.next
        layout := d.layout.add .globalDeclarations _ hfits
        journal := .typeAdded ⟨opcode, Instruction.slot type ++ operands⟩ d.ids.next
          :: d.journal } := by
  rw [declare, bind_of_ok (findType_of_unknown hnone)]
  change (emit .globalDeclarations ⟨opcode, type, some d.ids.next, operands⟩ >>= _) _ = _
  rw [bind_of_ok (emit_of_fits hfits _ _)]
  rfl

theorem declare_of_not_fits {opcode : Opcode} {type : Option Id} {operands : List Word}
    (hnone : d.known.type? ⟨opcode, Instruction.slot type ++ operands⟩ = none)
    (hfits : ¬ (Instruction.mk opcode type (some d.ids.next) operands).Fits) :
    declare opcode type operands d
      = .error (.tooLong opcode (Instruction.mk opcode type (some d.ids.next) operands).wordCount)
          { d with ids := d.ids.advance } := by
  rw [declare, bind_of_ok (findType_of_unknown hnone)]
  change (emit .globalDeclarations ⟨opcode, type, some d.ids.next, operands⟩ >>= _) _ = _
  rw [bind_of_error (emit_of_not_fits hfits _ _)]

/-! ### Structs -/

theorem findStruct_run (name : String) (d : Draft) :
    findStruct name d = .ok (d.known.struct? name) d := rfl

theorem structType_of_known {name : String} {id : Id} (h : d.known.struct? name = some id) :
    structType name d = .ok id d := by
  change ofExcept (d.known.struct name) d = _
  rw [Declarations.struct, h]
  rfl

theorem structType_of_unknown {name : String} (h : d.known.struct? name = none) :
    structType name d = .error (.unknownStruct name) d := by
  change ofExcept (d.known.struct name) d = _
  rw [Declarations.struct, h]
  rfl

theorem declareStruct_of_known {name : String} {id : Id} (h : d.known.struct? name = some id)
    (fields : List (String × FieldType)) (members : List Id) :
    declareStruct name fields members d
      = .ok id { d with journal := .structAddedByMember name id :: d.journal } := by
  rw [declareStruct, bind_of_ok (findStruct_run name d), h]
  rfl

theorem declareStruct_of_not_fits {name : String} (hnone : d.known.struct? name = none)
    (fields : List (String × FieldType)) {members : List Id}
    (hfits : ¬ (Instruction.mk Opcode.opTypeStruct none (some d.ids.next)
      (members.map Id.word)).Fits) :
    declareStruct name fields members d
      = .error (.tooLong Opcode.opTypeStruct (Instruction.mk Opcode.opTypeStruct none
          (some d.ids.next) (members.map Id.word)).wordCount) { d with ids := d.ids.advance } := by
  rw [declareStruct, bind_of_ok (findStruct_run name d), hnone]
  change (emit .globalDeclarations ⟨_, none, some d.ids.next, members.map Id.word⟩ >>= _) _ = _
  rw [bind_of_error (emit_of_not_fits hfits _ _)]

/-- A struct that fits is written and noted under `name`, and named after that. -/
theorem declareStruct_of_fits {name : String} (hnone : d.known.struct? name = none)
    (fields : List (String × FieldType)) {members : List Id}
    (hfits : (Instruction.mk Opcode.opTypeStruct none (some d.ids.next)
      (members.map Id.word)).Fits) :
    declareStruct name fields members d
      = (do
          nameId d.ids.next name
          nameMembers d.ids.next 0 fields
          return d.ids.next : Build Id)
        { d with
          ids := d.ids.advance
          known := d.known.insertStruct name d.ids.next
          layout := d.layout.add .globalDeclarations _ hfits
          journal := .structAdded name d.ids.next :: d.journal } := by
  rw [declareStruct, bind_of_ok (findStruct_run name d), hnone]
  change (emit .globalDeclarations ⟨_, none, some d.ids.next, members.map Id.word⟩ >>= _) _ = _
  rw [bind_of_ok (emit_of_fits hfits _ _)]
  rfl

/-! ### Staging -/

theorem updateFunction_of_open {innermost : StagedFunction} {outer : List StagedFunction}
    (h : d.openFunctions = innermost :: outer) (f : StagedFunction → StagedFunction) :
    updateFunction f d = .ok () { d with openFunctions := f innermost :: outer } := by
  rw [updateFunction, bind_of_ok (get_run d), h]
  rfl

theorem updateFunction_of_closed (h : d.openFunctions = []) (f : StagedFunction → StagedFunction) :
    updateFunction f d = .error .noOpenFunction d := by
  rw [updateFunction, bind_of_ok (get_run d), h]
  rfl

theorem closeFunction_of_open {innermost : StagedFunction} {outer : List StagedFunction}
    (h : d.openFunctions = innermost :: outer) :
    closeFunction d = emitAll .functionDefinitions innermost.instructions
      { d with
        openFunctions := outer
        journal := .functionWritten innermost.newestHead.length innermost.newestBody.length
          :: d.journal } := by
  rw [closeFunction, bind_of_ok (get_run d), h]
  rfl

theorem flushFunction_of_open {innermost : StagedFunction} {outer : List StagedFunction}
    (h : d.openFunctions = innermost :: outer) :
    flushFunction d = emitAll .functionDefinitions innermost.instructions
      { d with
        openFunctions := {} :: outer
        journal := .functionWritten innermost.newestHead.length innermost.newestBody.length
          :: d.journal } := by
  rw [flushFunction, bind_of_ok (get_run d), h]
  rfl

theorem closeFunction_of_closed (h : d.openFunctions = []) :
    closeFunction d = .error .noOpenFunction d := by
  rw [closeFunction, bind_of_ok (get_run d), h]
  rfl

/-! ### Beginning functions -/

/-- Begins a function whose type has been declared as `type`. -/
def beginTyped (returnType : Id) (paramTypes : List Id) (control : Word) (type : Id) :
    Build FunctionDef := do
  openFunction
  let id ← freshId
  pushHead
    { opcode := Opcode.opFunction, resultType := some returnType, result := some id
      operands := [control, type.word] }
  let params ← pushParams [] paramTypes
  let entry ← freshId
  pushHead { opcode := Opcode.opLabel, result := some entry }
  return { id := id, returnType := returnType, type := type, params := params, entry := entry }

theorem beginFunction_eq (returnType : Id) (paramTypes : List Id) (control : Word) :
    beginFunction returnType paramTypes control
      = functionType returnType paramTypes >>= beginTyped returnType paramTypes control := rfl

/-- Begins a function with a `returnType` and gives it its `name`, if it has one. -/
def beginNamed (name : Option String) (paramTypes : List Id) (returnType : Id) :
    Build FunctionDef := do
  let function ← beginFunction returnType paramTypes 0
  match name with
  | some name => nameId function.id name
  | none => pure ()
  return function

theorem beginNamedFunction_some (name : Option String) (returnType : Id) (paramTypes : List Id) :
    beginNamedFunction name (some returnType) paramTypes
      = beginNamed name paramTypes returnType := rfl

theorem beginNamedFunction_none (name : Option String) (paramTypes : List Id) :
    beginNamedFunction name none paramTypes = voidType >>= beginNamed name paramTypes := rfl

/-! ### Finishing -/

/-- A draft `d` with no open function is finished to the module it stands for. -/
theorem finish_of_closed (h : d.openFunctions = []) : ∃ d', finish d = .ok d.binary d' := by
  have hempty : d.openFunctions.isEmpty = true := by rw [h]; rfl
  refine ⟨{ d with
    journal := .finished d.binary.header.bound d.known.typeCount d.known.structCount
      d.binary.words.length :: d.journal }, ?_⟩
  change (if d.openFunctions.isEmpty = true then _ else _ : Build Binary) d = _
  rw [if_pos hempty]
  rfl

theorem finish_of_open (h : d.openFunctions ≠ []) :
    finish d = .error (.openFunctions d.openFunctions.length) d := by
  have hempty : ¬ d.openFunctions.isEmpty = true := by simpa using h
  change (if d.openFunctions.isEmpty = true then _ else _ : Build Binary) d = _
  rw [if_neg hempty]
  rfl

theorem finish_succeeds_iff :
    (∃ binary e, finish d = .ok binary e) ↔ d.openFunctions = [] := by
  constructor
  · rintro ⟨binary, e, hfinish⟩
    by_contra hopen
    rw [finish_of_open hopen] at hfinish
    cases hfinish
  · intro hclosed
    exact ⟨d.binary, finish_of_closed hclosed⟩

theorem eq_binary_of_finish {binary : Binary} {d' : Draft} (h : finish d = .ok binary d') :
    binary = d.binary := by
  by_cases hclosed : d.openFunctions = []
  · obtain ⟨e, he⟩ := finish_of_closed hclosed
    rw [he] at h
    cases h
    rfl
  · rw [finish_of_open hclosed] at h
    cases h

end Build

end SpirvBinary
