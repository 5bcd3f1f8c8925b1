import SpirvBinary.Build.ControlFlow
import SpirvBinary.Proofs.Primitives
import SpirvBinary.Script.Command

/-!
# Operations along a relation

Every operation of the library is put together from a few parts: ids are handed out,
declarations are made once, structs are declared, directives are written, functions
are opened and closed, and instructions are staged with or without a fresh result.
A relation between drafts that these parts move along is a `Law`.  All operations move
along a law, so what holds of all runs is proved by showing that a relation is one.

To move along a relation is one property of computations among others.  What declarations
and the instructions of bodies are put together from is said for any property that composes,
so that it can be used for other ones as well.

Where a relation tells the beginnings and ends of functions from everything else, only the
operations that leave these to others move along it.  They are the ordinary ones, and such a
relation is an `OrdinaryLaw`.

## Main definitions

* `KeepsKinds` — types and constants are declared by opcodes of their own.
* `Instruction.IsInner` — an instruction that no function begins or ends with.
* `Composes` — a property of computations that is kept when they follow one another.
* `ConstantParts`, `DeclarationParts`, `BodyParts` — a property that the parts of types and
  constants have, of all declarations, or ids and the instructions of function bodies.
* `OperationParts` — a property that the parts of all operations have.
* `DeclarationLaw`, `OrdinaryLaw`, `Law` — relations that the parts of all declarations, of
  ordinary operations, and of all operations, move along.
* `BodyLaw` — relations that the instructions of function bodies move along.
* `StagingLaw` — relations that whatever declares nothing moves along.
* `Command.IsDeclaration` — the commands that declare or look up.
* `Command.KeepsKinds` — a command does not mix types and constants up.
* `Command.IsRaw` — the commands that take an instruction or an opcode as it is.
* `Command.IsOrdinary` — the commands that are not raw and neither open nor close functions.

## Main results

* `DeclarationParts.perform` — every declaration has a property that its parts have.
* `OperationParts.perform` — every command that does more than look at the draft has a
  property that the parts of all operations have.
* `OrdinaryLaw.perform` — every ordinary command moves along an ordinary law.
* `Law.perform` — every command that is not raw moves along a law.
-/

namespace SpirvBinary

open Opcode

/-! ### Kinds of opcodes and sections -/

/-- The opcodes by which the library declares types. -/
def typeOpcodes : List Opcode :=
  [opTypeVoid, opTypeBool, opTypeInt, opTypeFloat, opTypeVector, opTypeMatrix, opTypeArray,
    opTypePointer, opTypeFunction]

/-- The opcodes by which the library declares constants. -/
def constantOpcodes : List Opcode :=
  [opConstantTrue, opConstantFalse, opConstant, opConstantComposite]

/-- The opcodes that functions begin and end with: `opFunction`, `opFunctionParameter` and
`opFunctionEnd`. -/
def functionOpcodes : List Opcode := [opFunction, opFunctionParameter, opFunctionEnd]

/-- The instruction `inst` is none that functions begin or end with. -/
def Instruction.IsInner (inst : Instruction) : Prop := inst.opcode ∉ functionOpcodes

instance (inst : Instruction) : Decidable inst.IsInner := inferInstanceAs (Decidable (_ ∉ _))

/-- A declaration without a type does not use an `opcode` of constants, and one with a type does
not use an `opcode` of types. -/
def KeepsKinds (opcode : Opcode) : Option Id → Prop
  | none => opcode ∉ constantOpcodes
  | some _ => opcode ∉ typeOpcodes

/-- The sections before a module's declarations. -/
def Section.IsPreamble (s : Section) : Prop :=
  s ∉ [Section.globalDeclarations, .functionDeclarations, .functionDefinitions]

instance (s : Section) : Decidable s.IsPreamble := inferInstanceAs (Decidable (s ∉ _))

/-! ### Properties of computations -/

/-- A property `P` of computations that those put together from others have when the others do. -/
structure Composes (P : {α : Type} → Build α → Prop) : Prop where
  pure : ∀ {α : Type} (a : α), P (Pure.pure a : Build α)
  bind : ∀ {α β : Type} {x : Build α} {k : α → Build β}, P x → (∀ a, P (k a)) → P (x >>= k)

/-- Moves along a reflexive and transitive relation `R` compose. -/
theorem Moves.composes {R : Draft → Draft → Prop} (hrefl : ∀ d, R d d)
    (htrans : ∀ d e f, R d e → R e f → R d f) : Composes (Moves R) :=
  ⟨Moves.pure hrefl, Moves.bind htrans⟩

namespace Composes

variable {P : {α : Type} → Build α → Prop}

theorem answerId (hP : Composes P) {action : Build Id} (h : P action) :
    P (Command.answerId action) := hP.bind h fun id => hP.pure (Reply.id id)

theorem answerDone (hP : Composes P) {action : Build Unit} (h : P action) :
    P (Command.answerDone action) := hP.bind h fun _ => hP.pure Reply.done

/-- A declaration is put together from a lookup, an id, an instruction and a note. -/
theorem declare (hP : Composes P) (hfind : ∀ key, P (Build.findType key))
    (hfresh : P Build.freshId) (hemit : ∀ inst, P (Build.emit .globalDeclarations inst))
    (hnote : ∀ key id, P (Build.noteType key id)) (opcode : Opcode) (type : Option Id)
    (operands : List Word) : P (Build.declare opcode type operands) := by
  refine hP.bind (hfind _) fun found => ?_
  cases found with
  | some id => exact hP.pure id
  | none =>
    exact hP.bind hfresh fun id => hP.bind (hemit _) fun _ =>
      hP.bind (hnote _ id) fun _ => hP.pure id

theorem emitAll (hP : Composes P) {s : Section} (hemit : ∀ inst, P (Build.emit s inst))
    (insts : List Instruction) : P (Build.emitAll s insts) := by
  induction insts with
  | nil => exact hP.pure ()
  | cons inst rest ih => exact hP.bind (hemit inst) fun _ => ih

theorem nameMembers (hP : Composes P) (hname : ∀ inst, P (Build.emit .debugNames inst))
    (type : Id) (fields : List (String × FieldType)) (index : Nat) :
    P (Build.nameMembers type index fields) := by
  induction fields generalizing index with
  | nil => exact hP.pure ()
  | cons field rest ih => exact hP.bind (hname _) fun _ => ih (index + 1)

theorem declareStruct (hP : Composes P) (hfind : ∀ name, P (Build.findStruct name))
    (hlog : ∀ event, P (Build.log event)) (hfresh : P Build.freshId)
    (hemit : ∀ inst, P (Build.emit .globalDeclarations inst))
    (hname : ∀ inst, P (Build.emit .debugNames inst))
    (hnote : ∀ name id, P (Build.noteStruct name id)) (name : String)
    (fields : List (String × FieldType)) (members : List Id) :
    P (Build.declareStruct name fields members) := by
  refine hP.bind (hfind name) fun found => ?_
  cases found with
  | some id => exact hP.bind (hlog _) fun _ => hP.pure id
  | none =>
    exact hP.bind hfresh fun id => hP.bind (hemit _) fun _ =>
      hP.bind (hnote name id) fun _ => hP.bind (hname _) fun _ =>
        hP.bind (hP.nameMembers hname id fields 0) fun _ => hP.pure id

end Composes

/-! ### Parts of declarations -/

/-- A property `P` of computations that the parts of types and constants have. -/
structure ConstantParts (P : {α : Type} → Build α → Prop) : Prop extends Composes P where
  structType : ∀ name, P (Build.structType name)
  declare : ∀ opcode type operands, KeepsKinds opcode type →
    P (Build.declare opcode type operands)

/-- A property `P` of computations that the parts of all declarations have. -/
structure DeclarationParts (P : {α : Type} → Build α → Prop) : Prop extends ConstantParts P where
  log : ∀ event, P (Build.log event)
  findType : ∀ key, P (Build.findType key)
  findStruct : ∀ name, P (Build.findStruct name)
  declareStruct : ∀ name fields members, P (Build.declareStruct name fields members)

/-! ### Types and constants -/

namespace ConstantParts

variable {P : {α : Type} → Build α → Prop}

theorem declareType (hP : ConstantParts P) {opcode : Opcode} (h : opcode ∉ constantOpcodes)
    (operands : List Word) : P (Build.declareType opcode operands) :=
  hP.declare opcode none operands h

theorem declareConstant (hP : ConstantParts P) {opcode : Opcode} (h : opcode ∉ typeOpcodes)
    (type : Id) (operands : List Word) : P (Build.declareConstant opcode type operands) :=
  hP.declare opcode (some type) operands h

theorem voidType (hP : ConstantParts P) : P Build.voidType := hP.declareType (by decide) _

theorem boolType (hP : ConstantParts P) : P Build.boolType := hP.declareType (by decide) _

theorem intType (hP : ConstantParts P) (width : Word) (signed : Bool) :
    P (Build.intType width signed) := hP.declareType (by decide) _

theorem floatType (hP : ConstantParts P) (width : Word) : P (Build.floatType width) :=
  hP.declareType (by decide) _

theorem vectorType (hP : ConstantParts P) (component : Id) (count : Word) :
    P (Build.vectorType component count) := hP.declareType (by decide) _

theorem matrixType (hP : ConstantParts P) (column : Id) (columns : Word) :
    P (Build.matrixType column columns) := hP.declareType (by decide) _

theorem pointerType (hP : ConstantParts P) (storage : StorageClass) (pointee : Id) :
    P (Build.pointerType storage pointee) := hP.declareType (by decide) _

theorem functionType (hP : ConstantParts P) (returnType : Id) (params : List Id) :
    P (Build.functionType returnType params) := hP.declareType (by decide) _

theorem intConstant (hP : ConstantParts P) (value : Int32) : P (Build.intConstant value) :=
  hP.bind (hP.intType 32 true) fun type => hP.declareConstant (by decide) type _

theorem wordConstant (hP : ConstantParts P) (value : Word) : P (Build.wordConstant value) :=
  hP.bind (hP.intType 32 false) fun type => hP.declareConstant (by decide) type _

theorem floatConstant (hP : ConstantParts P) (value : Single) :
    P (Build.floatConstant value) :=
  hP.bind (hP.floatType 32) fun type => hP.declareConstant (by decide) type _

theorem boolConstant (hP : ConstantParts P) (value : Bool) : P (Build.boolConstant value) :=
  hP.bind hP.boolType fun type => by
    cases value <;> exact hP.declareConstant (by decide) type _

theorem compositeConstant (hP : ConstantParts P) (type : Id) (parts : List Id) :
    P (Build.compositeConstant type parts) := hP.declareConstant (by decide) type _

theorem arrayType (hP : ConstantParts P) (element : Id) (length : Word) :
    P (Build.arrayType element length) :=
  hP.bind (hP.wordConstant length) fun _ => hP.declareType (by decide) _

theorem structPointer (hP : ConstantParts P) (name : String) (storage : StorageClass) :
    P (Build.structPointer name storage) :=
  hP.bind (hP.structType name) fun type => hP.pointerType storage type

theorem floatConstants (hP : ConstantParts P) (values : List Single) (declared : List Id) :
    P (Build.floatConstants declared values) := by
  induction values generalizing declared with
  | nil => exact hP.pure declared.reverse
  | cons value rest ih => exact hP.bind (hP.floatConstant value) fun id => ih (id :: declared)

theorem vectorConstant (hP : ConstantParts P) (components : List Single) :
    P (Build.vectorConstant components) :=
  hP.bind (hP.floatType 32) fun float =>
    hP.bind (hP.vectorType float _) fun type =>
      hP.bind (hP.floatConstants components []) fun parts => hP.compositeConstant type parts

theorem vectorConstants (hP : ConstantParts P) (columns : List (List Single))
    (declared : List Id) : P (Build.vectorConstants declared columns) := by
  induction columns generalizing declared with
  | nil => exact hP.pure declared.reverse
  | cons column rest ih =>
    exact hP.bind (hP.vectorConstant column) fun id => ih (id :: declared)

theorem matrixConstant (hP : ConstantParts P) (columns : List (List Single)) :
    P (Build.matrixConstant columns) :=
  hP.bind (hP.floatType 32) fun float =>
    hP.bind (hP.vectorType float _) fun column =>
      hP.bind (hP.matrixType column _) fun type =>
        hP.bind (hP.vectorConstants columns []) fun parts => hP.compositeConstant type parts

mutual

theorem constant (hP : ConstantParts P) : ∀ value : Constant, P (Build.constant value)
  | .int value => by rw [Build.constant]; exact hP.intConstant value
  | .word value => by rw [Build.constant]; exact hP.wordConstant value
  | .float value => by rw [Build.constant]; exact hP.floatConstant value
  | .vector components => by rw [Build.constant]; exact hP.vectorConstant components
  | .matrix columns => by rw [Build.constant]; exact hP.matrixConstant columns
  | .struct name fields => by
      rw [Build.constant]
      exact hP.bind (hP.structType name) fun type =>
        hP.bind (hP.constants fields []) fun parts => hP.compositeConstant type parts

theorem constants (hP : ConstantParts P) :
    ∀ (values : List Constant) (declared : List Id), P (Build.constants declared values)
  | [], declared => by rw [Build.constants]; exact hP.pure declared.reverse
  | value :: rest, declared => by
      rw [Build.constants]
      exact hP.bind (hP.constant value) fun id => hP.constants rest (id :: declared)

end

end ConstantParts

/-! ### Structs -/

namespace DeclarationParts

variable {P : {α : Type} → Build α → Prop}

mutual

theorem fieldType (hP : DeclarationParts P) : ∀ type : FieldType, P (Build.fieldType type)
  | .int => by rw [Build.fieldType]; exact hP.intType 32 true
  | .word => by rw [Build.fieldType]; exact hP.intType 32 false
  | .float => by rw [Build.fieldType]; exact hP.floatType 32
  | .vector count => by
      rw [Build.fieldType]
      exact hP.bind (hP.floatType 32) fun float => hP.vectorType float count
  | .matrix columns rows => by
      rw [Build.fieldType]
      exact hP.bind (hP.floatType 32) fun float =>
        hP.bind (hP.vectorType float rows) fun column => hP.matrixType column columns
  | .struct name fields => by
      rw [Build.fieldType]
      refine hP.bind (hP.findStruct name) fun found => ?_
      cases found with
      | some id => exact hP.bind (hP.log _) fun _ => hP.pure id
      | none =>
        exact hP.bind (hP.fieldTypes fields []) fun members =>
          hP.declareStruct name fields members
  | .named name => by rw [Build.fieldType]; exact hP.structType name

theorem fieldTypes (hP : DeclarationParts P) :
    ∀ (fields : List (String × FieldType)) (declared : List Id),
      P (Build.fieldTypes declared fields)
  | [], declared => by rw [Build.fieldTypes]; exact hP.pure declared.reverse
  | (_, type) :: rest, declared => by
      rw [Build.fieldTypes]
      exact hP.bind (hP.fieldType type) fun id => hP.fieldTypes rest (id :: declared)

end

theorem registerStruct (hP : DeclarationParts P) (struct : StructType) :
    P (Build.registerStruct struct) := hP.fieldType _

end DeclarationParts

/-- The commands that declare a type, a constant or a struct, or look one up. -/
def Command.IsDeclaration : Command → Prop
  | .voidType | .boolType | .intType .. | .floatType .. | .vectorType .. | .matrixType ..
  | .arrayType .. | .pointerType .. | .functionType .. | .intConstant .. | .wordConstant ..
  | .floatConstant .. | .boolConstant .. | .compositeConstant .. | .constant ..
  | .registerStruct .. | .structType .. | .structPointer .. => True
  | .declareType opcode _ => KeepsKinds opcode none
  | .declareConstant opcode _ _ => opcode ∉ typeOpcodes
  | _ => False

/-- A command that declares by an `opcode` of its own does not use one of the other kind. -/
def Command.KeepsKinds : Command → Prop
  | .declareType opcode _ => opcode ∉ constantOpcodes
  | .declareConstant opcode _ _ => opcode ∉ typeOpcodes
  | _ => True

/-- Every declaration `operation` has a property `P` that the parts of types and constants have,
and the registration of a struct if `operation` is one. -/
theorem ConstantParts.perform {P : {α : Type} → Build α → Prop} (hP : ConstantParts P)
    (names : Names) {operation : Command} (h : operation.IsDeclaration)
    (hstruct : ∀ struct, operation = .registerStruct struct → P (Build.registerStruct struct)) :
    P (operation.perform names) := by
  cases operation with
  | voidType => exact hP.answerId hP.voidType
  | boolType => exact hP.answerId hP.boolType
  | intType width signed => exact hP.answerId (hP.intType width signed)
  | floatType width => exact hP.answerId (hP.floatType width)
  | vectorType component count => exact hP.answerId (hP.vectorType _ count)
  | matrixType column columns => exact hP.answerId (hP.matrixType _ columns)
  | arrayType element length => exact hP.answerId (hP.arrayType _ length)
  | pointerType storage pointee => exact hP.answerId (hP.pointerType storage _)
  | functionType returnType params => exact hP.answerId (hP.functionType _ _)
  | intConstant value => exact hP.answerId (hP.intConstant value)
  | wordConstant value => exact hP.answerId (hP.wordConstant value)
  | floatConstant value => exact hP.answerId (hP.floatConstant value)
  | boolConstant value => exact hP.answerId (hP.boolConstant value)
  | compositeConstant type parts => exact hP.answerId (hP.compositeConstant _ _)
  | constant value => exact hP.answerId (hP.constant value)
  | registerStruct struct => exact hP.answerId (hstruct struct rfl)
  | structType name => exact hP.answerId (hP.structType name)
  | structPointer name storage => exact hP.answerId (hP.structPointer name storage)
  | declareType opcode operands => exact hP.answerId (hP.declareType h _)
  | declareConstant opcode type operands => exact hP.answerId (hP.declareConstant h _ _)
  | _ => exact h.elim

/-- Every declaration `operation` has a property `P` that the parts of all declarations have. -/
theorem DeclarationParts.perform {P : {α : Type} → Build α → Prop} (hP : DeclarationParts P)
    (names : Names) {operation : Command} (h : operation.IsDeclaration) :
    P (operation.perform names) :=
  hP.toConstantParts.perform names h fun struct _ => hP.registerStruct struct

/-! ### Laws of declarations -/

/-- Looking a declaration up changes nothing but the journal. -/
theorem findType_moves {R : Draft → Draft → Prop} (hrefl : ∀ d, R d d)
    (hjournal : ∀ d events, R d { d with journal := events }) (key : DeclarationKey) :
    Moves R (Build.findType key) := by
  intro d
  cases h : d.known.type? key with
  | some id =>
    rw [after_of_ok (Build.findType_of_known h)]
    exact hjournal d _
  | none =>
    rw [after_of_ok (Build.findType_of_unknown h)]
    exact hrefl d

theorem structType_moves {R : Draft → Draft → Prop} (hrefl : ∀ d, R d d) (name : String) :
    Moves R (Build.structType name) := by
  intro d
  change R d (after (Build.ofExcept (d.known.struct name)) d)
  cases d.known.struct name <;> exact hrefl d

/-- A relation `R` between drafts that the parts of all declarations move along. -/
structure DeclarationLaw (R : Draft → Draft → Prop) : Prop extends DeclarationParts (Moves R) where
  refl : ∀ d, R d d
  trans : ∀ d e f, R d e → R e f → R d f
  journal : ∀ d events, R d { d with journal := events }

/-- Lookups and notes move along every relation `R` that the journal does. -/
theorem DeclarationLaw.of_declare {R : Draft → Draft → Prop} (hrefl : ∀ d, R d d)
    (htrans : ∀ d e f, R d e → R e f → R d f)
    (hjournal : ∀ d events, R d { d with journal := events })
    (hdeclare : ∀ opcode type operands, KeepsKinds opcode type →
      Moves R (Build.declare opcode type operands))
    (hstruct : ∀ name fields members, Moves R (Build.declareStruct name fields members)) :
    DeclarationLaw R :=
  { Moves.composes hrefl htrans with
    log := fun event d => hjournal d (event :: d.journal)
    findType := findType_moves hrefl hjournal
    findStruct := fun _ => hrefl
    structType := structType_moves hrefl
    declare := hdeclare
    declareStruct := hstruct
    refl := hrefl
    trans := htrans
    journal := hjournal }

/-! ### Laws of ordinary operations -/

/-- The commands that are given no instruction or opcode as it is, and leave it to others to
open and close functions, to begin and to end them. -/
def Command.IsOrdinary : Command → Prop
  | .emit .. | .emitResult .. | .declareType .. | .declareConstant .. | .pushHead ..
  | .pushBody .. | .label .. | .openFunction | .closeFunction | .beginFunction ..
  | .endFunction => False
  | .emitBody opcode _ _ => opcode ∉ functionOpcodes
  | _ => True

/-- A relation `R` between drafts that the parts of ordinary operations move along. -/
structure OrdinaryLaw (R : Draft → Draft → Prop) : Prop extends DeclarationLaw R where
  freshId : Moves R Build.freshId
  directive : ∀ s inst, s.IsPreamble → inst.result = none → Moves R (Build.emit s inst)
  importInstructions : ∀ name, Moves R (Build.importInstructions name)
  globalVariable : ∀ pointer storage, Moves R (Build.globalVariable pointer storage)
  pushBody : ∀ opcode operands, opcode ∉ functionOpcodes →
    Moves R (Build.pushBody { opcode := opcode, operands := operands })
  emitBody : ∀ opcode type operands, opcode ∉ functionOpcodes →
    Moves R (Build.emitBody opcode type operands)
  localVariable : ∀ pointee, Moves R (Build.localVariable pointee)
  ifThen : ∀ condition,
    Bracket R (Build.beginIfThen condition) fun merge => Build.endArm merge merge
  ifThenElse : ∀ condition,
    DoubleBracket R (Build.beginIfThenElse condition)
      (fun labels => Build.endArm labels.2 labels.1) fun labels => Build.endArm labels.2 labels.2
  countedLoop : ∀ count, Bracket R (Build.beginLoop count) Build.endLoop

namespace OrdinaryLaw

variable {R : Draft → Draft → Prop}

theorem nameId (law : OrdinaryLaw R) (target : Id) (name : String) :
    Moves R (Build.nameId target name) := law.directive _ _ (by decide) rfl

/-- A directive is a command that writes one instruction before the declarations. -/
theorem answerDirective (law : OrdinaryLaw R) (s : Section) (opcode : Opcode)
    (operands : List Word) (h : s.IsPreamble) :
    Moves R (Command.answerDone (Build.emit s { opcode := opcode, operands := operands })) :=
  law.answerDone (law.directive s _ h rfl)

/-- Every ordinary `operation` moves along an ordinary law. -/
theorem perform (law : OrdinaryLaw R) (names : Names) {operation : Command}
    (h : operation.IsOrdinary) : Moves R (operation.perform names) := by
  cases operation with
  | voidType | boolType | intType | floatType | vectorType | matrixType | arrayType
  | pointerType | functionType | intConstant | wordConstant | floatConstant | boolConstant
  | compositeConstant | constant | registerStruct | structType | structPointer =>
    exact law.toDeclarationLaw.perform names trivial
  | emit | emitResult | declareType | declareConstant | pushHead | pushBody | label
  | openFunction | closeFunction | beginFunction | endFunction => exact h.elim
  | capability | useExtension | memoryModel | entryPoint | executionMode | sourceLanguage
  | nameId | nameMember | processedBy | decorate | decorateMember =>
    exact law.answerDirective _ _ _ (by decide)
  | branch | returnVoid | returnValue | store =>
    exact law.answerDone (law.pushBody _ _ (by decide))
  | structList | sectionWords | bound => exact law.refl
  | freshId => exact law.answerId law.freshId
  | globalVariable pointer storage => exact law.answerId (law.globalVariable _ storage)
  | importInstructions name => exact law.answerId (law.importInstructions name)
  | emitBody opcode type operands => exact law.answerId (law.emitBody opcode _ _ h)
  | call callee arguments => exact law.answerId (law.emitBody opFunctionCall _ _ (by decide))
  | localVariable pointee => exact law.answerId (law.localVariable _)
  | load type pointer => exact law.answerId (law.emitBody opLoad _ _ (by decide))
  | findType opcode operands =>
    exact law.bind (law.findType _) fun found => law.pure (Reply.found found)
  | findStruct name =>
    exact law.bind (law.findStruct name) fun found => law.pure (Reply.found found)

end OrdinaryLaw

/-! ### Laws of all operations -/

/-- Hands out an id and stages the instruction `inst id` that is made with it, by `push`. -/
def Build.stageFresh (push : Instruction → Build Unit) (inst : Id → Instruction) : Build Id := do
  let id ← Build.freshId
  push (inst id)
  return id

/-- A relation `R` between drafts that the parts of all operations move along. -/
structure Law (R : Draft → Draft → Prop) : Prop extends DeclarationLaw R where
  freshId : Moves R Build.freshId
  directive : ∀ s inst, s.IsPreamble → inst.result = none → Moves R (Build.emit s inst)
  importInstructions : ∀ name, Moves R (Build.importInstructions name)
  globalVariable : ∀ pointer storage, Moves R (Build.globalVariable pointer storage)
  openFunction : Moves R Build.openFunction
  closeFunction : Moves R Build.closeFunction
  pushBody : ∀ inst, inst.result = none → Moves R (Build.pushBody inst)
  freshBody : ∀ inst, (∀ id, (inst id).result = some id) →
    Moves R (Build.stageFresh Build.pushBody inst)
  freshHead : ∀ inst, (∀ id, (inst id).result = some id) →
    Moves R (Build.stageFresh Build.pushHead inst)
  ifThen : ∀ condition,
    Bracket R (Build.beginIfThen condition) fun merge => Build.endArm merge merge
  ifThenElse : ∀ condition,
    DoubleBracket R (Build.beginIfThenElse condition)
      (fun labels => Build.endArm labels.2 labels.1) fun labels => Build.endArm labels.2 labels.2
  countedLoop : ∀ count, Bracket R (Build.beginLoop count) Build.endLoop

namespace Law

variable {R : Draft → Draft → Prop}

/-- What follows a fresh instruction may use its id: `k id`. -/
theorem stageFresh_bind (law : Law R) {α : Type} {push : Instruction → Build Unit}
    {inst : Id → Instruction} {k : Id → Build α} (hinst : Moves R (Build.stageFresh push inst))
    (hk : ∀ id, Moves R (k id)) :
    Moves R (Build.freshId >>= fun id => push (inst id) >>= fun _ => k id) := by
  have h := law.bind hinst hk
  simpa only [Build.stageFresh, bind_assoc, pure_bind] using h

theorem emitBody (law : Law R) (opcode : Opcode) (type : Id) (operands : List Word) :
    Moves R (Build.emitBody opcode type operands) :=
  law.freshBody (fun id => ⟨opcode, some type, some id, operands⟩) fun _ => rfl

theorem localVariable (law : Law R) (pointee : Id) : Moves R (Build.localVariable pointee) :=
  law.bind (law.pointerType _ pointee) fun pointer =>
    law.freshHead (fun id => ⟨opVariable, some pointer, some id, _⟩) fun _ => rfl

theorem pushParams (law : Law R) (types : List Id) (staged : List Param) :
    Moves R (Build.pushParams staged types) := by
  induction types generalizing staged with
  | nil => exact law.pure staged.reverse
  | cons type rest ih =>
    exact law.stageFresh_bind
      (law.freshHead (fun id => ⟨opFunctionParameter, some type, some id, []⟩) fun _ => rfl)
      fun id => ih (⟨id, type⟩ :: staged)

theorem beginFunction (law : Law R) (returnType : Id) (paramTypes : List Id) (control : Word) :
    Moves R (Build.beginFunction returnType paramTypes control) :=
  law.bind (law.functionType returnType paramTypes) fun type =>
    law.bind law.openFunction fun _ =>
      law.stageFresh_bind
        (law.freshHead (fun id => ⟨opFunction, some returnType, some id, [control, type.word]⟩)
          fun _ => rfl)
        fun _ => law.bind (law.pushParams paramTypes []) fun _ =>
          law.stageFresh_bind
            (law.freshHead (fun id => ⟨opLabel, none, some id, []⟩) fun _ => rfl)
            fun _ => law.pure _

theorem endFunction (law : Law R) : Moves R Build.endFunction :=
  law.bind (law.pushBody _ rfl) fun _ => law.closeFunction

/-- Ordinary operations move along a law of all operations. -/
theorem ordinary (law : Law R) : OrdinaryLaw R :=
  { law with
    pushBody := fun _ _ _ => law.pushBody _ rfl
    emitBody := fun opcode type operands _ => law.emitBody opcode type operands
    localVariable := law.localVariable }

theorem beginNamed (law : Law R) (name : Option String) (paramTypes : List Id)
    (returnType : Id) : Moves R (Build.beginNamed name paramTypes returnType) := by
  refine law.bind (law.beginFunction returnType paramTypes 0) fun function => ?_
  cases name with
  | some name => exact law.bind (law.ordinary.nameId function.id name) fun _ => law.pure function
  | none => exact law.pure function

theorem beginNamedFunction (law : Law R) (name : Option String) (returnType : Option Id)
    (paramTypes : List Id) : Moves R (Build.beginNamedFunction name returnType paramTypes) := by
  cases returnType with
  | some type =>
    rw [Build.beginNamedFunction_some]
    exact law.beginNamed name paramTypes type
  | none =>
    rw [Build.beginNamedFunction_none]
    exact law.bind law.voidType (law.beginNamed name paramTypes)

/-- A function with a body that moves along `R` moves along it. -/
theorem defineFunction (law : Law R) (name : Option String) (returnType : Option Id)
    (paramTypes : List Id) :
    Bracket R (Build.beginNamedFunction name returnType paramTypes) fun _ => Build.endFunction :=
  Bracket.of_moves law.trans (law.beginNamedFunction name returnType paramTypes)
    fun _ => law.endFunction

end Law

/-! ### Commands -/

/-- The commands that write an instruction or an opcode as they are given it. -/
def Command.IsRaw : Command → Prop
  | .emit .. | .emitResult .. | .declareType .. | .declareConstant .. | .pushHead ..
  | .pushBody .. | .label .. => True
  | _ => False

namespace Law

variable {R : Draft → Draft → Prop}

/-- Every `operation` that is not raw moves along a law. -/
theorem perform (law : Law R) (names : Names) {operation : Command} (h : ¬ operation.IsRaw) :
    Moves R (operation.perform names) := by
  by_cases hordinary : operation.IsOrdinary
  · exact law.ordinary.perform names hordinary
  · cases operation with
    | openFunction => exact law.answerDone law.openFunction
    | closeFunction => exact law.answerDone law.closeFunction
    | beginFunction returnType params control =>
      exact law.bind (law.beginFunction _ _ control) fun function =>
        law.pure (Reply.function function)
    | endFunction => exact law.answerDone law.endFunction
    | emitBody opcode type operands => exact law.answerId (law.emitBody opcode _ _)
    | emit | emitResult | declareType | declareConstant | pushHead | pushBody | label =>
      exact absurd trivial h
    | _ => exact absurd trivial hordinary

end Law

/-! ### Showing that a relation is a law -/

/-- Declarations move along a relation `R` that ids, written instructions and notes move along. -/
theorem declare_moves {R : Draft → Draft → Prop} (hrefl : ∀ d, R d d)
    (htrans : ∀ d e f, R d e → R e f → R d f)
    (hjournal : ∀ d events, R d { d with journal := events }) (hfresh : Moves R Build.freshId)
    (hemit : ∀ s inst, Moves R (Build.emit s inst))
    (hknown : ∀ d known, R d { d with known := known }) (opcode : Opcode) (type : Option Id)
    (operands : List Word) : Moves R (Build.declare opcode type operands) :=
  (Moves.composes hrefl htrans).declare (findType_moves hrefl hjournal) hfresh (hemit _)
    (fun _ _ d => htrans _ _ _ (hjournal d _) (hknown _ _)) opcode type operands

/-- A relation `R` that ids, written instructions and notes move along is a law of declarations. -/
theorem DeclarationLaw.of_notes {R : Draft → Draft → Prop} (hrefl : ∀ d, R d d)
    (htrans : ∀ d e f, R d e → R e f → R d f)
    (hjournal : ∀ d events, R d { d with journal := events }) (hfresh : Moves R Build.freshId)
    (hemit : ∀ s inst, Moves R (Build.emit s inst))
    (hknown : ∀ d known, R d { d with known := known }) : DeclarationLaw R :=
  .of_declare hrefl htrans hjournal
    (fun opcode type operands _ =>
      declare_moves hrefl htrans hjournal hfresh hemit hknown opcode type operands)
    ((Moves.composes hrefl htrans).declareStruct (fun _ => hrefl) (fun _ d => hjournal d _) hfresh
      (hemit _) (hemit _) fun _ _ d => htrans _ _ _ (hjournal d _) (hknown _ _))

/-- Staging moves along a relation `R` that does not look at open functions. -/
theorem updateFunction_moves {R : Draft → Draft → Prop} (hrefl : ∀ d, R d d)
    (hfunctions : ∀ d functions, R d { d with openFunctions := functions })
    (f : StagedFunction → StagedFunction) : Moves R (Build.updateFunction f) := by
  intro d
  cases h : d.openFunctions with
  | nil =>
    rw [after_of_error (Build.updateFunction_of_closed h f)]
    exact hrefl d
  | cons innermost outer =>
    rw [after_of_ok (Build.updateFunction_of_open h f)]
    exact hfunctions d _

/-- A property `P` of computations that ids and the instructions of function bodies have. -/
structure BodyParts (P : {α : Type} → Build α → Prop) : Prop extends Composes P where
  freshId : P Build.freshId
  pushInner : ∀ inst, inst.IsInner → P (Build.pushBody inst)

namespace BodyParts

variable {P : {α : Type} → Build α → Prop}

theorem stageFresh (hP : BodyParts P) {push : Instruction → Build Unit}
    (hpush : ∀ inst, P (push inst)) (inst : Id → Instruction) :
    P (Build.stageFresh push inst) :=
  hP.bind hP.freshId fun id => hP.bind (hpush _) fun _ => hP.pure id

theorem emitInner (hP : BodyParts P) {opcode : Opcode} (h : opcode ∉ functionOpcodes) (type : Id)
    (operands : List Word) : P (Build.emitBody opcode type operands) :=
  hP.bind hP.freshId fun id => hP.bind (hP.pushInner _ h) fun _ => hP.pure id

theorem label (hP : BodyParts P) (block : Id) : P (Build.label block) :=
  hP.pushInner _ (show opLabel ∉ _ by decide)

theorem branch (hP : BodyParts P) (target : Id) : P (Build.branch target) :=
  hP.pushInner _ (show opBranch ∉ _ by decide)

theorem branchConditional (hP : BodyParts P) (condition onTrue onFalse : Id) :
    P (Build.branchConditional condition onTrue onFalse) :=
  hP.pushInner _ (show opBranchConditional ∉ _ by decide)

theorem store (hP : BodyParts P) (pointer value : Id) : P (Build.store pointer value) :=
  hP.pushInner _ (show opStore ∉ _ by decide)

theorem endArm (hP : BodyParts P) (merge next : Id) : P (Build.endArm merge next) :=
  hP.bind (hP.branch merge) fun _ => hP.label next

theorem selectionHead (hP : BodyParts P) (condition onTrue onFalse merge : Id) :
    P (Build.selectionHead condition onTrue onFalse merge) :=
  hP.bind (hP.pushInner _ (show opSelectionMerge ∉ _ by decide)) fun _ =>
    hP.branchConditional condition onTrue onFalse

theorem beginIfThen (hP : BodyParts P) (condition : Id) : P (Build.beginIfThen condition) :=
  hP.bind hP.freshId fun onTrue => hP.bind hP.freshId fun merge =>
    hP.bind (hP.selectionHead _ _ _ _) fun _ => hP.bind (hP.label onTrue) fun _ =>
      hP.pure merge

theorem beginIfThenElse (hP : BodyParts P) (condition : Id) :
    P (Build.beginIfThenElse condition) :=
  hP.bind hP.freshId fun onTrue => hP.bind hP.freshId fun onFalse =>
    hP.bind hP.freshId fun merge => hP.bind (hP.selectionHead _ _ _ _) fun _ =>
      hP.bind (hP.label onTrue) fun _ => hP.pure (onFalse, merge)

/-- The beginning of a loop declares a type and constants, and a variable for its counter. -/
theorem beginLoop (hP : BodyParts P) (constants : ConstantParts P)
    (hlocal : ∀ pointee, P (Build.localVariable pointee)) (count : Int32) :
    P (Build.beginLoop count) :=
  hP.bind (constants.intType 32 true) fun int => hP.bind constants.boolType fun bool =>
    hP.bind (constants.intConstant 0) fun zero =>
    hP.bind (constants.intConstant 1) fun one =>
    hP.bind (constants.intConstant count) fun limit => hP.bind (hlocal int) fun counter =>
    hP.bind (hP.store counter zero) fun _ => hP.bind hP.freshId fun header =>
    hP.bind hP.freshId fun check => hP.bind hP.freshId fun body =>
    hP.bind hP.freshId fun advance => hP.bind hP.freshId fun merge =>
    hP.bind (hP.branch header) fun _ => hP.bind (hP.label header) fun _ =>
    hP.bind (hP.pushInner _ (show opLoopMerge ∉ _ by decide)) fun _ =>
    hP.bind (hP.branch check) fun _ => hP.bind (hP.label check) fun _ =>
    hP.bind (hP.emitInner (by decide) int _) fun index =>
    hP.bind (hP.emitInner (by decide) bool _) fun inRange =>
    hP.bind (hP.branchConditional inRange body merge) fun _ =>
    hP.bind (hP.label body) fun _ => hP.pure _

theorem endLoop (hP : BodyParts P) (frame : LoopFrame) : P (Build.endLoop frame) :=
  hP.bind (hP.branch frame.advance) fun _ => hP.bind (hP.label frame.advance) fun _ =>
    hP.bind (hP.emitInner (by decide) frame.int _) fun _ =>
    hP.bind (hP.emitInner (by decide) frame.int _) fun next =>
    hP.bind (hP.store frame.counter next) fun _ => hP.bind (hP.branch frame.header) fun _ =>
    hP.label frame.merge

end BodyParts

/-! ### Parts of all operations -/

/-- A property `P` of computations that the parts of all operations have which register no
struct. -/
structure QuietParts (P : {α : Type} → Build α → Prop) : Prop extends Composes P where
  log : ∀ event, P (Build.log event)
  freshId : P Build.freshId
  emit : ∀ s inst, P (Build.emit s inst)
  findType : ∀ key, P (Build.findType key)
  noteType : ∀ key id, P (Build.noteType key id)
  findStruct : ∀ name, P (Build.findStruct name)
  structType : ∀ name, P (Build.structType name)
  openFunction : P Build.openFunction
  updateFunction : ∀ f, P (Build.updateFunction f)
  closeFunction : P Build.closeFunction

/-- A property `P` of computations that the parts of all operations have. -/
structure OperationParts (P : {α : Type} → Build α → Prop) : Prop extends QuietParts P where
  noteStruct : ∀ name id, P (Build.noteStruct name id)

/-- The commands that only look at a draft. -/
def Command.IsQuery : Command → Prop
  | .structList | .sectionWords _ | .bound => True
  | _ => False

namespace QuietParts

variable {P : {α : Type} → Build α → Prop}

theorem declare (hP : QuietParts P) (opcode : Opcode) (type : Option Id)
    (operands : List Word) : P (Build.declare opcode type operands) :=
  hP.toComposes.declare hP.findType hP.freshId (hP.emit _) hP.noteType opcode type operands

theorem constants (hP : QuietParts P) : ConstantParts P :=
  ⟨hP.toComposes, hP.structType, fun opcode type operands _ => hP.declare opcode type operands⟩

theorem body (hP : QuietParts P) : BodyParts P :=
  ⟨hP.toComposes, hP.freshId, fun _ _ => hP.updateFunction _⟩

theorem pushParams (hP : QuietParts P) (types : List Id) (staged : List Param) :
    P (Build.pushParams staged types) := by
  induction types generalizing staged with
  | nil => exact hP.pure staged.reverse
  | cons type rest ih =>
    exact hP.bind hP.freshId fun id => hP.bind (hP.updateFunction _) fun _ =>
      ih (⟨id, type⟩ :: staged)

theorem localVariable (hP : QuietParts P) (pointee : Id) : P (Build.localVariable pointee) :=
  hP.bind (hP.constants.pointerType _ pointee) fun _ => hP.bind hP.freshId fun id =>
    hP.bind (hP.updateFunction _) fun _ => hP.pure id

theorem beginFunction (hP : QuietParts P) (returnType : Id) (paramTypes : List Id)
    (control : Word) : P (Build.beginFunction returnType paramTypes control) :=
  hP.bind (hP.constants.functionType returnType paramTypes) fun _ =>
    hP.bind hP.openFunction fun _ => hP.bind hP.freshId fun _ =>
    hP.bind (hP.updateFunction _) fun _ => hP.bind (hP.pushParams paramTypes []) fun _ =>
    hP.bind hP.freshId fun _ => hP.bind (hP.updateFunction _) fun _ => hP.pure _

theorem endFunction (hP : QuietParts P) : P Build.endFunction :=
  hP.bind (hP.updateFunction _) fun _ => hP.closeFunction

theorem beginNamed (hP : QuietParts P) (name : Option String) (paramTypes : List Id)
    (returnType : Id) : P (Build.beginNamed name paramTypes returnType) := by
  refine hP.bind (hP.beginFunction returnType paramTypes 0) fun function => ?_
  cases name with
  | some name => exact hP.bind (hP.emit _ _) fun _ => hP.pure function
  | none => exact hP.pure function

theorem beginNamedFunction (hP : QuietParts P) (name : Option String)
    (returnType : Option Id) (paramTypes : List Id) :
    P (Build.beginNamedFunction name returnType paramTypes) := by
  cases returnType with
  | some type =>
    rw [Build.beginNamedFunction_some]
    exact hP.beginNamed name paramTypes type
  | none =>
    rw [Build.beginNamedFunction_none]
    exact hP.bind hP.constants.voidType (hP.beginNamed name paramTypes)

theorem beginLoop (hP : QuietParts P) (count : Int32) : P (Build.beginLoop count) :=
  hP.body.beginLoop hP.constants hP.localVariable count

/-- An instruction `inst id` may be written with a fresh result `id`. -/
theorem emitFresh (hP : QuietParts P) (s : Section) (inst : Id → Instruction) :
    P (do
      let id ← Build.freshId
      Build.emit s (inst id)
      return id) :=
  hP.bind hP.freshId fun id => hP.bind (hP.emit s _) fun _ => hP.pure id

theorem emitBody (hP : QuietParts P) (opcode : Opcode) (type : Id) (operands : List Word) :
    P (Build.emitBody opcode type operands) :=
  hP.bind hP.freshId fun id => hP.bind (hP.updateFunction _) fun _ => hP.pure id

/-- Every `operation` that does more than look at the draft has such a property, if the
registration of a struct has it where `operation` is one. -/
theorem perform (hP : QuietParts P) (names : Names) {operation : Command}
    (h : ¬ operation.IsQuery)
    (hstruct : ∀ struct, operation = .registerStruct struct → P (Build.registerStruct struct)) :
    P (operation.perform names) := by
  cases operation with
  | voidType | boolType | intType | floatType | vectorType | matrixType | arrayType
  | pointerType | functionType | intConstant | wordConstant | floatConstant | boolConstant
  | compositeConstant | constant | registerStruct | structType | structPointer =>
    exact hP.constants.perform names trivial hstruct
  | declareType opcode operands => exact hP.answerId (hP.declare opcode none _)
  | declareConstant opcode type operands => exact hP.answerId (hP.declare opcode _ _)
  | freshId => exact hP.answerId hP.freshId
  | emitResult | importInstructions | globalVariable =>
    exact hP.answerId (hP.emitFresh _ fun id => _)
  | emit | capability | useExtension | memoryModel | entryPoint | executionMode | sourceLanguage
  | nameId | nameMember | processedBy | decorate | decorateMember =>
    exact hP.answerDone (hP.emit _ _)
  | openFunction => exact hP.answerDone hP.openFunction
  | closeFunction => exact hP.answerDone hP.closeFunction
  | pushHead | pushBody | label | branch | returnVoid | returnValue | store =>
    exact hP.answerDone (hP.updateFunction _)
  | emitBody | call | load => exact hP.answerId (hP.emitBody _ _ _)
  | beginFunction returnType params control =>
    exact hP.bind (hP.beginFunction _ _ control) fun function =>
      hP.pure (Reply.function function)
  | endFunction => exact hP.answerDone hP.endFunction
  | localVariable pointee => exact hP.answerId (hP.localVariable _)
  | findType opcode operands =>
    exact hP.bind (hP.findType _) fun found => hP.pure (Reply.found found)
  | findStruct name =>
    exact hP.bind (hP.findStruct name) fun found => hP.pure (Reply.found found)
  | structList | sectionWords | bound => exact absurd trivial h

end QuietParts

namespace OperationParts

variable {P : {α : Type} → Build α → Prop}

theorem declarations (hP : OperationParts P) : DeclarationParts P where
  toConstantParts := hP.constants
  log := hP.log
  findType := hP.findType
  findStruct := hP.findStruct
  declareStruct := hP.toComposes.declareStruct hP.findStruct hP.log hP.freshId (hP.emit _)
    (hP.emit _) hP.noteStruct

/-- Every command that does more than look at the draft has a property `P` that the parts of all
operations have. -/
theorem perform (hP : OperationParts P) (names : Names) {operation : Command}
    (h : ¬ operation.IsQuery) : P (operation.perform names) :=
  hP.toQuietParts.perform names h fun struct _ => hP.declarations.registerStruct struct

end OperationParts

/-- A relation `R` that ids and the instructions of function bodies move along. -/
structure BodyLaw (R : Draft → Draft → Prop) : Prop extends BodyParts (Moves R) where
  refl : ∀ d, R d d
  trans : ∀ d e f, R d e → R e f → R d f

namespace BodyLaw

variable {R : Draft → Draft → Prop}

theorem of_inner (hrefl : ∀ d, R d d) (htrans : ∀ d e f, R d e → R e f → R d f)
    (hfresh : Moves R Build.freshId)
    (hinner : ∀ inst, inst.IsInner → Moves R (Build.pushBody inst)) : BodyLaw R :=
  ⟨⟨Moves.composes hrefl htrans, hfresh, hinner⟩, hrefl, htrans⟩

/-! The constructs as a whole. -/

theorem ifThen (law : BodyLaw R) (condition : Id) :
    Bracket R (Build.beginIfThen condition) fun merge => Build.endArm merge merge :=
  Bracket.of_moves law.trans (law.beginIfThen condition) fun merge => law.endArm merge merge

theorem ifThenElse (law : BodyLaw R) (condition : Id) :
    DoubleBracket R (Build.beginIfThenElse condition)
      (fun labels => Build.endArm labels.2 labels.1) fun labels => Build.endArm labels.2 labels.2 :=
  DoubleBracket.of_moves law.trans (law.beginIfThenElse condition)
    (fun labels => law.endArm labels.2 labels.1) fun labels => law.endArm labels.2 labels.2

theorem countedLoop (law : BodyLaw R) (declarations : DeclarationLaw R)
    (hlocal : ∀ pointee, Moves R (Build.localVariable pointee)) (count : Int32) :
    Bracket R (Build.beginLoop count) Build.endLoop :=
  Bracket.of_moves law.trans (law.beginLoop declarations.toConstantParts hlocal count) law.endLoop

end BodyLaw

/-- A relation `R` that does not look at open functions, and that ids, events and instructions
outside the global declarations move along. -/
structure StagingLaw (R : Draft → Draft → Prop) : Prop extends BodyLaw R where
  journal : ∀ d events, R d { d with journal := events }
  emit : ∀ s inst, s ≠ .globalDeclarations → Moves R (Build.emit s inst)
  functions : ∀ d functions, R d { d with openFunctions := functions }

namespace StagingLaw

variable {R : Draft → Draft → Prop}

theorem of_functions (hrefl : ∀ d, R d d) (htrans : ∀ d e f, R d e → R e f → R d f)
    (hjournal : ∀ d events, R d { d with journal := events }) (hfresh : Moves R Build.freshId)
    (hemit : ∀ s inst, s ≠ .globalDeclarations → Moves R (Build.emit s inst))
    (hfunctions : ∀ d functions, R d { d with openFunctions := functions }) : StagingLaw R :=
  ⟨.of_inner hrefl htrans hfresh fun _ _ => updateFunction_moves hrefl hfunctions _, hjournal,
    hemit, hfunctions⟩

theorem pushHead (law : StagingLaw R) (inst : Instruction) : Moves R (Build.pushHead inst) :=
  updateFunction_moves law.refl law.functions _

theorem pushBody (law : StagingLaw R) (inst : Instruction) : Moves R (Build.pushBody inst) :=
  updateFunction_moves law.refl law.functions _

theorem emitBody (law : StagingLaw R) (opcode : Opcode) (type : Id) (operands : List Word) :
    Moves R (Build.emitBody opcode type operands) := law.stageFresh law.pushBody _

theorem pushParams (law : StagingLaw R) (types : List Id) (staged : List Param) :
    Moves R (Build.pushParams staged types) := by
  induction types generalizing staged with
  | nil => exact law.pure staged.reverse
  | cons type rest ih =>
    exact law.bind law.freshId fun id =>
      law.bind (law.pushHead _) fun _ => ih (⟨id, type⟩ :: staged)

theorem importInstructions (law : StagingLaw R) (name : String) :
    Moves R (Build.importInstructions name) :=
  law.bind law.freshId fun id => law.bind (law.emit _ _ (by decide)) fun _ => law.pure id

theorem openFunction (law : StagingLaw R) : Moves R Build.openFunction :=
  fun d => law.functions d _

theorem emitAll (law : StagingLaw R) (insts : List Instruction) :
    Moves R (Build.emitAll .functionDefinitions insts) := by
  induction insts with
  | nil => exact law.pure ()
  | cons inst rest ih => exact law.bind (law.emit _ inst (by decide)) fun _ => ih

theorem closeFunction (law : StagingLaw R) : Moves R Build.closeFunction := by
  intro d
  cases h : d.openFunctions with
  | nil =>
    rw [after_of_error (Build.closeFunction_of_closed h)]
    exact law.refl d
  | cons innermost outer =>
    rw [after, Build.closeFunction_of_open h, ← after]
    exact law.trans _ _ _ (law.trans _ _ _ (law.functions d outer) (law.journal _ _))
      (law.emitAll innermost.instructions _)

theorem endFunction (law : StagingLaw R) : Moves R Build.endFunction :=
  law.bind (law.pushBody _) fun _ => law.closeFunction

end StagingLaw

/-- A relation `R` is a law when declarations, ids, variables of the module, instructions written
to other sections and all that is done to open functions move along it. -/
theorem Law.of_pushes {R : Draft → Draft → Prop} (law : DeclarationLaw R)
    (hfresh : Moves R Build.freshId)
    (hemit : ∀ s inst, s ≠ .globalDeclarations → s ≠ .functionDefinitions →
      Moves R (Build.emit s inst))
    (hglobal : ∀ pointer storage, Moves R (Build.globalVariable pointer storage))
    (hopen : Moves R Build.openFunction) (hclose : Moves R Build.closeFunction)
    (hhead : ∀ inst, Moves R (Build.pushHead inst))
    (hbody : ∀ inst, Moves R (Build.pushBody inst)) : Law R := by
  have body : BodyLaw R := .of_inner law.refl law.trans hfresh fun inst _ => hbody inst
  have hlocal : ∀ pointee, Moves R (Build.localVariable pointee) :=
    fun pointee => law.bind (law.pointerType _ pointee) fun _ => body.stageFresh hhead _
  exact
    { law with
      freshId := hfresh
      directive := fun s inst hs _ => hemit s inst (fun h => hs (by rw [h]; decide))
        fun h => hs (by rw [h]; decide)
      importInstructions := fun _ => law.bind hfresh fun id =>
        law.bind (hemit _ _ (by decide) (by decide)) fun _ => law.pure id
      globalVariable := hglobal
      openFunction := hopen
      closeFunction := hclose
      pushBody := fun inst _ => hbody inst
      freshBody := fun inst _ => body.stageFresh hbody inst
      freshHead := fun inst _ => body.stageFresh hhead inst
      ifThen := body.ifThen
      ifThenElse := body.ifThenElse
      countedLoop := body.countedLoop law hlocal }

/-- A relation `R` that does not look at open functions is a law when declarations, ids, variables
of the module and instructions written to other sections move along it. -/
theorem Law.of_sections {R : Draft → Draft → Prop} (law : DeclarationLaw R)
    (hfresh : Moves R Build.freshId)
    (hemit : ∀ s inst, s ≠ .globalDeclarations → Moves R (Build.emit s inst))
    (hglobal : ∀ pointer storage, Moves R (Build.globalVariable pointer storage))
    (hfunctions : ∀ d functions, R d { d with openFunctions := functions }) : Law R := by
  have staging : StagingLaw R :=
    .of_functions law.refl law.trans law.journal hfresh hemit hfunctions
  exact Law.of_pushes law hfresh (fun s inst hs _ => hemit s inst hs) hglobal
    staging.openFunction staging.closeFunction staging.pushHead staging.pushBody

/-- A relation `R` that does not look at open functions is a law when declarations, ids and written
instructions move along it. -/
theorem Law.of_functions {R : Draft → Draft → Prop} (law : DeclarationLaw R)
    (hfresh : Moves R Build.freshId) (hemit : ∀ s inst, Moves R (Build.emit s inst))
    (hfunctions : ∀ d functions, R d { d with openFunctions := functions }) : Law R :=
  Law.of_sections law hfresh (fun s inst _ => hemit s inst)
    (fun _ _ => law.bind hfresh fun id => law.bind (hemit _ _) fun _ => law.pure id) hfunctions

/-- A relation `R` that declarations, the instructions of bodies and local variables move along is
an ordinary law. -/
theorem OrdinaryLaw.of_body {R : Draft → Draft → Prop} (law : DeclarationLaw R)
    (body : BodyLaw R)
    (hemit : ∀ s inst, s ≠ .functionDefinitions → Moves R (Build.emit s inst))
    (hvariable : ∀ inst, inst.opcode = opVariable → Moves R (Build.pushHead inst)) :
    OrdinaryLaw R := by
  have hlocal : ∀ pointee, Moves R (Build.localVariable pointee) :=
    fun pointee => law.bind (law.pointerType _ pointee) fun _ => law.bind body.freshId fun id =>
      law.bind (hvariable _ rfl) fun _ => law.pure id
  exact
    { law with
      freshId := body.freshId
      directive := fun s inst hs _ => hemit s inst fun h => hs (by rw [h]; decide)
      importInstructions := fun _ => law.bind body.freshId fun id =>
        law.bind (hemit _ _ (by decide)) fun _ => law.pure id
      globalVariable := fun _ _ => law.bind body.freshId fun id =>
        law.bind (hemit _ _ (by decide)) fun _ => law.pure id
      pushBody := fun _ _ h => body.pushInner _ h
      emitBody := fun _ type operands h => body.emitInner h type operands
      localVariable := hlocal
      ifThen := body.ifThen
      ifThenElse := body.ifThenElse
      countedLoop := body.countedLoop law hlocal }

/-- Raw commands move along a law that all declarations, all written and all staged
instructions move along. -/
theorem Law.perform_raw {R : Draft → Draft → Prop} (law : Law R)
    (hdeclare : ∀ opcode type operands, Moves R (Build.declare opcode type operands))
    (hemit : ∀ s inst, Moves R (Build.emit s inst))
    (hstage : ∀ f, Moves R (Build.updateFunction f)) (names : Names) {operation : Command}
    (h : operation.IsRaw) : Moves R (operation.perform names) := by
  cases operation with
  | emit s template => exact law.answerDone (hemit s _)
  | emitResult s opcode operands =>
    exact law.answerId (law.bind law.freshId fun id => law.bind (hemit s _) fun _ => law.pure id)
  | declareType opcode operands => exact law.answerId (hdeclare opcode none _)
  | declareConstant opcode type operands => exact law.answerId (hdeclare opcode _ _)
  | pushHead template => exact law.answerDone (hstage _)
  | pushBody template => exact law.answerDone (hstage _)
  | label block => exact law.answerDone (hstage _)
  | _ => exact h.elim

end SpirvBinary
