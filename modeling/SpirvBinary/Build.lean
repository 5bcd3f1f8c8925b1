import SpirvBinary.Draft

/-!
# Building

A build is a computation on a draft that may fail.  A failure does not undo what
was done before it: ids stay handed out and instructions stay written, so that a
caller who goes on after a failure continues from the draft as it was left.

## Main definitions

* `Build` — computations on a draft.
* `Build.freshId`, `Build.emit` — the next id, and an instruction for a section.
* `Build.findType`, `Build.noteType`, `Build.declare` — declarations made once.
* `Build.finish` — the finished module.
-/

namespace SpirvBinary

/-- A computation on a module under construction, which keeps the draft when it fails. -/
abbrev Build := EStateM Fault Draft

namespace Build

/-! ### Ids, sections and the journal -/

/-- Adds `event` to the journal. -/
def log (event : Event) : Build Unit :=
  modify fun draft => { draft with journal := event :: draft.journal }

/-- Hands out the next id. -/
def freshId : Build Id :=
  modifyGet fun draft => (draft.ids.next, { draft with ids := draft.ids.advance })

/-- Passes on a result or the fault in its place. -/
def ofExcept {α : Type} : Except Fault α → Build α
  | .ok value => pure value
  | .error fault => throw fault

/-- Writes `inst` to the section `s`. -/
def emit (s : Section) (inst : Instruction) : Build Unit := do
  let draft ← get
  let layout ← ofExcept (draft.layout.append s inst)
  set { draft with layout := layout }

/-- Writes an instruction without a type to the section `s`, with a fresh result id. -/
def emitResult (s : Section) (opcode : Opcode) (operands : List Word) : Build Id := do
  let id ← freshId
  emit s { opcode := opcode, result := some id, operands := operands }
  return id

/-! ### Known declarations -/

/-- The id of the type or constant with the given `key`, if it has been declared. -/
def findType (key : DeclarationKey) : Build (Option Id) := do
  let draft ← get
  match draft.known.type? key with
  | some id =>
      log (.typeFound key id)
      return some id
  | none => return none

/-- Notes `id` as that of the type or constant with the given `key`. -/
def noteType (key : DeclarationKey) (id : Id) : Build Unit := do
  log (.typeAdded key id)
  modify fun draft => { draft with known := draft.known.insertType key id }

/-- Notes the type or constant with the given `key` under a fresh id without writing it. -/
def reserveType (key : DeclarationKey) : Build Id := do
  let id ← freshId
  noteType key id
  return id

/-- The id of a struct, if one is registered under `name`. -/
def findStruct (name : String) : Build (Option Id) := do
  return (← get).known.struct? name

/-- Notes `id` as that of the struct called `name`. -/
def noteStruct (name : String) (id : Id) : Build Unit := do
  log (.structAdded name id)
  modify fun draft => { draft with known := draft.known.insertStruct name id }

/-- Notes a struct called `name` under a fresh id without writing it. -/
def reserveStruct (name : String) : Build Id := do
  let id ← freshId
  noteStruct name id
  return id

/-- The id of the struct that must be registered under `name`. -/
def structType (name : String) : Build Id := do
  ofExcept ((← get).known.struct name)

/-- Declares a type, or a constant of the given `type`, unless the same declaration was made
before.  Only what has been written is noted; an id that was taken for a declaration that turned
out too long stays unused. -/
def declare (opcode : Opcode) (type : Option Id) (operands : List Word) : Build Id := do
  let key : DeclarationKey := ⟨opcode, Instruction.slot type ++ operands⟩
  match ← findType key with
  | some id => return id
  | none =>
      let id ← freshId
      emit .globalDeclarations
        { opcode := opcode, resultType := type, result := some id, operands := operands }
      noteType key id
      return id

/-! ### Finishing -/

/-- The finished module.  All functions must have been closed. -/
def finish : Build Binary := do
  let draft ← get
  if draft.openFunctions.isEmpty then
    let binary := draft.binary
    log (.finished binary.header.bound draft.known.typeCount draft.known.structCount
      binary.words.length)
    return binary
  else
    throw (.openFunctions draft.openFunctions.length)

end Build

end SpirvBinary
