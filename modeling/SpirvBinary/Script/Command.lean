import SpirvBinary.Build.Constants
import SpirvBinary.Build.Structs
import SpirvBinary.Script.Operand

/-!
# Commands

A command is a single build operation as data, with references in the place of
ids.  Performing it under names for ids gives a reply.

## Main definitions

* `Command` — the operations without a body of their own.
* `Reply` — what an operation answers.
* `Command.perform` — carries out a command.
-/

namespace SpirvBinary

/-- A build operation without a body. -/
inductive Command where
  -- ids and raw instructions
  | freshId
  | emit (s : Section) (template : Template)
  | emitResult (s : Section) (opcode : Opcode) (operands : Operand)
  -- types
  | declareType (opcode : Opcode) (operands : Operand)
  | voidType
  | boolType
  | intType (width : Word) (signed : Bool)
  | floatType (width : Word)
  | vectorType (component : Ref) (count : Word)
  | matrixType (column : Ref) (columns : Word)
  | arrayType (element : Ref) (length : Word)
  | pointerType (storage : StorageClass) (pointee : Ref)
  | functionType (returnType : Ref) (params : List Ref)
  -- constants and variables
  | declareConstant (opcode : Opcode) (type : Ref) (operands : Operand)
  | intConstant (value : Int32)
  | wordConstant (value : Word)
  | floatConstant (value : Single)
  | boolConstant (value : Bool)
  | compositeConstant (type : Ref) (parts : List Ref)
  | constant (value : Constant)
  | globalVariable (pointer : Ref) (storage : StorageClass)
  -- structs
  | registerStruct (struct : StructType)
  | structType (name : String)
  | structPointer (name : String) (storage : StorageClass)
  -- settings, names and decorations
  | capability (value : Word)
  | useExtension (name : String)
  | importInstructions (name : String)
  | memoryModel (addressing memory : Word)
  | entryPoint (model : Word) (function : Ref) (name : String) (interface : List Ref)
  | executionMode (function : Ref) (mode : Word) (literals : List Word)
  | sourceLanguage (language version : Word)
  | nameId (target : Ref) (name : String)
  | nameMember (type : Ref) (member : Word) (name : String)
  | processedBy (process : String)
  | decorate (target : Ref) (decoration : Word) (literals : List Word)
  | decorateMember (type : Ref) (member decoration : Word) (literals : List Word)
  -- functions
  | openFunction
  | closeFunction
  | pushHead (template : Template)
  | pushBody (template : Template)
  | emitBody (opcode : Opcode) (type : Ref) (operands : Operand)
  | beginFunction (returnType : Ref) (params : List Ref) (control : Word)
  | endFunction
  | call (callee : Callee) (arguments : List Ref)
  | localVariable (pointee : Ref)
  | label (block : Ref)
  | branch (target : Ref)
  | returnVoid
  | returnValue (value : Ref)
  | load (type pointer : Ref)
  | store (pointer value : Ref)
  -- questions
  | findType (opcode : Opcode) (operands : Operand)
  | findStruct (name : String)
  | structList
  | sectionWords (s : Section)
  | bound
  deriving Inhabited

/-- What an operation answers. -/
inductive Reply where
  /-- Nothing. -/
  | done
  /-- The id of its result. -/
  | id (id : Id)
  /-- The id that was looked for, if there is one. -/
  | found (id : Option Id)
  /-- The function that was begun or defined. -/
  | function (function : FunctionDef)
  /-- The id of a loop's index. -/
  | index (id : Id)
  /-- The registered structs. -/
  | structs (structs : List (String × Id))
  /-- The words of a section. -/
  | words (words : List Word)
  /-- The bound of the ids handed out. -/
  | bound (bound : Word)
  deriving DecidableEq, Repr, Inhabited

/-- Carries out `action`, which answers nothing. -/
def Command.answerDone (action : Build Unit) : Build Reply := do
  action
  return .done

/-- Carries out `action`, which answers an id. -/
def Command.answerId (action : Build Id) : Build Reply := do
  let id ← action
  return .id id

/-- Carries out a command whose references are looked up in `names`. -/
def Command.perform (names : Names) : Command → Build Reply
  | .freshId => answerId Build.freshId
  | .emit s template => answerDone (Build.emit s (template.instruction names))
  | .emitResult s opcode operands => answerId (Build.emitResult s opcode (operands.words names))
  | .declareType opcode operands => answerId (Build.declareType opcode (operands.words names))
  | .voidType => answerId Build.voidType
  | .boolType => answerId Build.boolType
  | .intType width signed => answerId (Build.intType width signed)
  | .floatType width => answerId (Build.floatType width)
  | .vectorType component count => answerId (Build.vectorType (names.id component) count)
  | .matrixType column columns => answerId (Build.matrixType (names.id column) columns)
  | .arrayType element length => answerId (Build.arrayType (names.id element) length)
  | .pointerType storage pointee => answerId (Build.pointerType storage (names.id pointee))
  | .functionType returnType params =>
      answerId (Build.functionType (names.id returnType) (params.map names.id))
  | .declareConstant opcode type operands =>
      answerId (Build.declareConstant opcode (names.id type) (operands.words names))
  | .intConstant value => answerId (Build.intConstant value)
  | .wordConstant value => answerId (Build.wordConstant value)
  | .floatConstant value => answerId (Build.floatConstant value)
  | .boolConstant value => answerId (Build.boolConstant value)
  | .compositeConstant type parts =>
      answerId (Build.compositeConstant (names.id type) (parts.map names.id))
  | .constant value => answerId (Build.constant value)
  | .globalVariable pointer storage => answerId (Build.globalVariable (names.id pointer) storage)
  | .registerStruct struct => answerId (Build.registerStruct struct)
  | .structType name => answerId (Build.structType name)
  | .structPointer name storage => answerId (Build.structPointer name storage)
  | .capability value => answerDone (Build.capability value)
  | .useExtension name => answerDone (Build.useExtension name)
  | .importInstructions name => answerId (Build.importInstructions name)
  | .memoryModel addressing memory => answerDone (Build.memoryModel addressing memory)
  | .entryPoint model function name interface =>
      answerDone (Build.entryPoint model (names.id function) name (interface.map names.id))
  | .executionMode function mode literals =>
      answerDone (Build.executionMode (names.id function) mode literals)
  | .sourceLanguage language version => answerDone (Build.sourceLanguage language version)
  | .nameId target name => answerDone (Build.nameId (names.id target) name)
  | .nameMember type member name => answerDone (Build.nameMember (names.id type) member name)
  | .processedBy process => answerDone (Build.processedBy process)
  | .decorate target decoration literals =>
      answerDone (Build.decorate (names.id target) decoration literals)
  | .decorateMember type member decoration literals =>
      answerDone (Build.decorateMember (names.id type) member decoration literals)
  | .openFunction => answerDone Build.openFunction
  | .closeFunction => answerDone Build.closeFunction
  | .pushHead template => answerDone (Build.pushHead (template.instruction names))
  | .pushBody template => answerDone (Build.pushBody (template.instruction names))
  | .emitBody opcode type operands =>
      answerId (Build.emitBody opcode (names.id type) (operands.words names))
  | .beginFunction returnType params control => do
      let function ← Build.beginFunction (names.id returnType) (params.map names.id) control
      return .function function
  | .endFunction => answerDone Build.endFunction
  | .call callee arguments =>
      let target := names.callee callee
      answerId (Build.call target.1 target.2 (arguments.map names.id))
  | .localVariable pointee => answerId (Build.localVariable (names.id pointee))
  | .label block => answerDone (Build.label (names.id block))
  | .branch target => answerDone (Build.branch (names.id target))
  | .returnVoid => answerDone Build.returnVoid
  | .returnValue value => answerDone (Build.returnValue (names.id value))
  | .load type pointer => answerId (Build.load (names.id type) (names.id pointer))
  | .store pointer value => answerDone (Build.store (names.id pointer) (names.id value))
  | .findType opcode operands => do
      let id ← Build.findType ⟨opcode, operands.words names⟩
      return .found id
  | .findStruct name => do
      let id ← Build.findStruct name
      return .found id
  | .structList => do
      let draft ← get
      return .structs draft.known.structList
  | .sectionWords s => do
      let draft ← get
      return .words (draft.layout.sectionWords s)
  | .bound => do
      let draft ← get
      return .bound draft.ids.bound

end SpirvBinary
