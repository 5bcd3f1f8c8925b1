import SpirvBinary.Binary
import SpirvBinary.Journal
import SpirvBinary.Layout

/-!
# Modules under construction

A draft holds everything a module under construction consists of: the supply of
ids, the declarations made, the instructions written to the sections, and the
functions that have been opened and not closed.  The instructions of an open
function are staged in two parts, the head and the body, and reach the module
only when the function is closed, head first; so a variable can still be added to
the head while the body is being given.

## Main definitions

* `StagedFunction` — the instructions of an open function.
* `Draft` — a module under construction.
* `Draft.binary` — the module a draft without open functions stands for.
-/

namespace SpirvBinary

/-- The instructions of a function that has not been closed. -/
structure StagedFunction where
  /-- The definition, its parameters, the entry label and the variables, newest first. -/
  newestHead : List Instruction := []
  /-- All other instructions, newest first. -/
  newestBody : List Instruction := []
  deriving DecidableEq, Repr, Inhabited

namespace StagedFunction

/-- The head in order. -/
def head (function : StagedFunction) : List Instruction := function.newestHead.reverse

/-- The body in order. -/
def body (function : StagedFunction) : List Instruction := function.newestBody.reverse

/-- All instructions in the order in which they are written. -/
def instructions (function : StagedFunction) : List Instruction :=
  function.head ++ function.body

/-- Adds `inst` to the head. -/
def pushHead (function : StagedFunction) (inst : Instruction) : StagedFunction :=
  { function with newestHead := inst :: function.newestHead }

/-- Adds `inst` to the body. -/
def pushBody (function : StagedFunction) (inst : Instruction) : StagedFunction :=
  { function with newestBody := inst :: function.newestBody }

/-- Nothing is staged. -/
def isEmpty (function : StagedFunction) : Bool :=
  function.newestHead.isEmpty && function.newestBody.isEmpty

@[simp] theorem head_pushHead (function : StagedFunction) (inst : Instruction) :
    (function.pushHead inst).head = function.head ++ [inst] := by
  simp [head, pushHead]

@[simp] theorem body_pushHead (function : StagedFunction) (inst : Instruction) :
    (function.pushHead inst).body = function.body := rfl

@[simp] theorem head_pushBody (function : StagedFunction) (inst : Instruction) :
    (function.pushBody inst).head = function.head := rfl

@[simp] theorem body_pushBody (function : StagedFunction) (inst : Instruction) :
    (function.pushBody inst).body = function.body ++ [inst] := by
  simp [body, pushBody]

end StagedFunction

/-- What a module's header states besides what follows from its contents. -/
structure Settings where
  /-- The version of the format. -/
  version : Version := Version.standard
  /-- The tool that generates the module; zero is an unregistered one. -/
  generator : Word := 0
  deriving DecidableEq, Repr, Inhabited

/-- A module under construction. -/
structure Draft where
  settings : Settings := {}
  ids : IdSupply := {}
  known : Declarations := {}
  layout : Layout := {}
  /-- The open functions, the innermost first. -/
  openFunctions : List StagedFunction := []
  /-- What happened so far, newest first. -/
  journal : List Event := []
  deriving Inhabited

/-- The sizes of a draft. -/
structure Gauge where
  /-- The last id handed out. -/
  lastId : Word
  /-- The number of words in all sections. -/
  words : Nat
  /-- The number of declared types and constants. -/
  types : Nat
  /-- The number of registered structs. -/
  structs : Nat
  deriving DecidableEq, Repr, Inhabited

namespace Draft

/-- The sizes of a draft. -/
def gauge (draft : Draft) : Gauge where
  lastId := draft.ids.last
  words := draft.layout.wordCount
  types := draft.known.typeCount
  structs := draft.known.structCount

/-- The events of a draft in order. -/
def events (draft : Draft) : List Event := draft.journal.reverse

/-- The header of the module a draft stands for. -/
def header (draft : Draft) : Header where
  magic := Header.magicNumber
  version := draft.settings.version.word
  generator := draft.settings.generator
  bound := draft.ids.bound
  schema := 0

/-- The module a draft stands for when its open functions are left out. -/
def binary (draft : Draft) : Binary := ⟨draft.header, draft.layout.words⟩

end Draft

end SpirvBinary
