import SpirvBinary.Declarations

/-!
# The journal of a build

A build keeps a journal of what happened in it: which declarations were found or
added, which structs were registered, which functions were written out and how
large the finished module is.  An event is kept as data; its wording is
`Event.message`.
-/

namespace SpirvBinary

/-- How much detail an event carries. -/
inductive Level where
  /-- The steps of a build one by one. -/
  | trace
  /-- The milestones of a build. -/
  | debug
  deriving DecidableEq, Repr, Inhabited

/-- The name of a level. -/
def Level.name : Level → String
  | .trace => "TRACE"
  | .debug => "DEBUG"

/-- Something that happened in a build. -/
inductive Event where
  /-- A type or constant was looked up and had been declared. -/
  | typeFound (key : DeclarationKey) (id : Id)
  /-- A type or constant was added to the known declarations. -/
  | typeAdded (key : DeclarationKey) (id : Id)
  /-- A struct was added to the known declarations. -/
  | structAdded (name : String) (id : Id)
  /-- A struct was to be registered and had been before. -/
  | structKnown (name : String) (id : Id)
  /-- A struct was registered while its own members were being declared. -/
  | structAddedByMember (name : String) (id : Id)
  /-- The instructions of a function are about to be written. -/
  | functionWritten (head body : Nat)
  /-- The module was finished. -/
  | finished (bound : Word) (types structs words : Nat)
  deriving DecidableEq, Repr, Inhabited

/-- The text of a list of words: decimal numbers in square brackets. -/
def wordListText (words : List Word) : String :=
  "[" ++ String.intercalate ", " (words.map fun w => Nat.repr w.toNat) ++ "]"

namespace Event

/-- The level of an event. -/
def level : Event → Level
  | .functionWritten .. | .finished .. => .debug
  | _ => .trace

/-- The text of a declaration and its id. -/
def declarationText (key : DeclarationKey) (id : Id) : String :=
  key.opcode.name ++ " " ++ wordListText key.operands ++ " -> " ++ id.text

/-- The wording of an event. -/
def message : Event → String
  | .typeFound key id => "type cache hit: " ++ declarationText key id
  | .typeAdded key id => "type cache insert: " ++ declarationText key id
  | .structAdded name id => "struct `" ++ name ++ "` registered as " ++ id.text
  | .structKnown name id => "struct `" ++ name ++ "` already registered as " ++ id.text
  | .structAddedByMember name id =>
      "struct `" ++ name ++ "` registered by one of its members as " ++ id.text
  | .functionWritten head body =>
      "flushing function: " ++ Nat.repr head ++ " head, " ++ Nat.repr body
        ++ " body instructions"
  | .finished bound types structs words =>
      "module finished: bound " ++ Nat.repr bound.toNat ++ ", " ++ Nat.repr types
        ++ " cached types, " ++ Nat.repr structs ++ " structs, " ++ Nat.repr words ++ " words"

/-- The line an event is reported as. -/
def line (event : Event) : String := event.level.name ++ " " ++ event.message

end Event

end SpirvBinary
