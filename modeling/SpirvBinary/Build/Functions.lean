import SpirvBinary.Build.Directives

/-!
# Functions

Functions are opened and closed like brackets.  The innermost open function
receives head and body instructions until it is closed, and is then written to
the module; a function that is opened while another one is open is thus written
before it.

## Main definitions

* `FunctionDef` — the ids of a function that has been begun.
* `Build.openFunction`, `Build.closeFunction` — the brackets.
* `Build.beginFunction`, `Build.endFunction` — the brackets with the instructions
  that every function starts and ends with.
* `Build.defineFunction` — a whole function, in any monad that building lifts to.
-/

namespace SpirvBinary

/-- A parameter of a function. -/
structure Param where
  id : Id
  type : Id
  deriving DecidableEq, Repr, Inhabited

/-- The ids of a function. -/
structure FunctionDef where
  id : Id
  returnType : Id
  /-- The function type. -/
  type : Id
  params : List Param
  /-- The label of the entry block. -/
  entry : Id
  deriving DecidableEq, Repr, Inhabited

namespace Build

open Opcode

/-! ### Open functions -/

/-- Opens a function in which nothing is staged. -/
def openFunction : Build Unit :=
  modify fun draft => { draft with openFunctions := {} :: draft.openFunctions }

/-- Changes by `f` what the innermost open function has staged. -/
def updateFunction (f : StagedFunction → StagedFunction) : Build Unit := do
  let draft ← get
  match draft.openFunctions with
  | [] => throw .noOpenFunction
  | innermost :: outer => set { draft with openFunctions := f innermost :: outer }

/-- Stages an instruction in the head of the innermost open function. -/
def pushHead (inst : Instruction) : Build Unit := updateFunction (·.pushHead inst)

/-- Stages an instruction in the body of the innermost open function. -/
def pushBody (inst : Instruction) : Build Unit := updateFunction (·.pushBody inst)

/-- Writes instructions to the section `s` up to the first that is too long. -/
def emitAll (s : Section) : List Instruction → Build Unit
  | [] => return ()
  | inst :: rest => do
      emit s inst
      emitAll s rest

/-- Writes the instructions of `function`, head first. -/
def writeFunction (function : StagedFunction) : Build Unit := do
  log (.functionWritten function.newestHead.length function.newestBody.length)
  emitAll .functionDefinitions function.instructions

/-- Writes what the innermost open function has staged and keeps it open, with
nothing staged.  What could not be written is dropped. -/
def flushFunction : Build Unit := do
  let draft ← get
  match draft.openFunctions with
  | [] => throw .noOpenFunction
  | innermost :: outer =>
      set { draft with openFunctions := {} :: outer }
      writeFunction innermost

/-- Writes and closes the innermost open function.  It is closed even when some of
it could not be written. -/
def closeFunction : Build Unit := do
  let draft ← get
  match draft.openFunctions with
  | [] => throw .noOpenFunction
  | innermost :: outer =>
      set { draft with openFunctions := outer }
      writeFunction innermost

/-! ### Body instructions -/

/-- Stages a body instruction with the given `type` and a fresh result id.  The id is taken even
when no function is open. -/
def emitBody (opcode : Opcode) (type : Id) (operands : List Word) : Build Id := do
  let id ← freshId
  pushBody { opcode := opcode, resultType := some type, result := some id, operands := operands }
  return id

/-- Starts the block of a label. -/
def label (label : Id) : Build Unit := pushBody { opcode := opLabel, result := some label }

/-- Ends a block with a jump to `target`. -/
def branch (target : Id) : Build Unit :=
  pushBody { opcode := opBranch, operands := [target.word] }

/-- Ends a block with a jump to `onTrue` or `onFalse`. -/
def branchConditional (condition onTrue onFalse : Id) : Build Unit :=
  pushBody
    { opcode := opBranchConditional, operands := [condition.word, onTrue.word, onFalse.word] }

/-- Returns from a function without a value. -/
def returnVoid : Build Unit := pushBody { opcode := opReturn }

/-- Returns `value` from a function. -/
def returnValue (value : Id) : Build Unit :=
  pushBody { opcode := opReturnValue, operands := [value.word] }

/-- Reads the variable `pointer`, whose content is of the given `type`. -/
def load (type pointer : Id) : Build Id := emitBody opLoad type [pointer.word]

/-- Writes `value` to the variable `pointer`. -/
def store (pointer value : Id) : Build Unit :=
  pushBody { opcode := opStore, operands := [pointer.word, value.word] }

/-- Calls `function`, which returns a value of type `returnType`. -/
def call (function returnType : Id) (arguments : List Id) : Build Id :=
  emitBody opFunctionCall returnType (function.word :: arguments.map Id.word)

/-- Declares a variable of a function in its entry block, for contents of type `pointee`. -/
def localVariable (pointee : Id) : Build Id := do
  let pointer ← pointerType StorageClass.function pointee
  let id ← freshId
  pushHead
    { opcode := opVariable, resultType := some pointer, result := some id
      operands := [StorageClass.function] }
  return id

/-! ### Whole functions -/

/-- Stages parameters, after those already `staged`, newest first. -/
def pushParams (staged : List Param) : List Id → Build (List Param)
  | [] => return staged.reverse
  | type :: rest => do
      let id ← freshId
      pushHead { opcode := opFunctionParameter, resultType := some type, result := some id }
      pushParams (⟨id, type⟩ :: staged) rest

/-- Opens a function and stages its definition, its parameters and its entry label. -/
def beginFunction (returnType : Id) (paramTypes : List Id) (control : Word) :
    Build FunctionDef := do
  let type ← functionType returnType paramTypes
  openFunction
  let id ← freshId
  pushHead
    { opcode := opFunction, resultType := some returnType, result := some id
      operands := [control, type.word] }
  let params ← pushParams [] paramTypes
  let entry ← freshId
  pushHead { opcode := opLabel, result := some entry }
  return { id := id, returnType := returnType, type := type, params := params, entry := entry }

/-- Ends and closes the innermost open function. -/
def endFunction : Build Unit := do
  pushBody { opcode := opFunctionEnd }
  closeFunction

/-- Begins a function that may have a `name`, and returns nothing unless a `returnType` is
given. -/
def beginNamedFunction (name : Option String) (returnType : Option Id) (paramTypes : List Id) :
    Build FunctionDef := do
  let returnType ← match returnType with
    | some type => pure type
    | none => voidType
  let function ← beginFunction returnType paramTypes 0
  match name with
  | some name => nameId function.id name
  | none => pure ()
  return function

/-- Defines a function by what happens between its beginning and its end.  The body
receives the parameters and has to end every block, the entry block included.  A
failure leaves the function open. -/
def defineFunction {m : Type → Type} [Monad m] [MonadLiftT Build m] (name : Option String)
    (returnType : Option Id) (paramTypes : List Id) (body : FunctionDef → m Unit) :
    m FunctionDef := do
  let function ← monadLift (beginNamedFunction name returnType paramTypes)
  body function
  monadLift endFunction
  return function

end Build

end SpirvBinary
