import SpirvBinary.Build.Functions

/-!
# Names for ids

The steps of a script refer to ids by number or by a name that an earlier step
gave to its result.  Names can be given again; the last binding counts.  A name
that was never bound stands for id zero.
-/

namespace SpirvBinary

/-- A reference to an id. -/
inductive Ref where
  /-- The id itself. -/
  | given (id : Id)
  /-- The id bound to a name. -/
  | named (name : String)
  deriving DecidableEq, Repr, Inhabited

/-- A reference to a function that is called. -/
inductive Callee where
  /-- The id of the function and of its return type. -/
  | given (function returnType : Ref)
  /-- The function bound to a name. -/
  | named (name : String)
  deriving DecidableEq, Repr, Inhabited

/-- What the names of a script stand for. -/
structure Names where
  /-- The ids bound to names, newest first. -/
  ids : List (String × Id) := []
  /-- The functions bound to names, newest first. -/
  functions : List (String × FunctionDef) := []
  deriving Inhabited

namespace Names

/-- The id a reference stands for.  A name that is not bound stands for the id `0`. -/
def id (names : Names) : Ref → Id
  | .given id => id
  | .named name => (names.ids.lookup name).getD ⟨0⟩

/-- The word of a reference as an operand. -/
def word (names : Names) (ref : Ref) : Word := (names.id ref).word

/-- The function and its return type that a reference stands for. -/
def callee (names : Names) : Callee → Id × Id
  | .given function returnType => (names.id function, names.id returnType)
  | .named name =>
      match names.functions.lookup name with
      | some function => (function.id, function.returnType)
      | none => (⟨0⟩, ⟨0⟩)

/-- Binds `name` to `id`. -/
def bind (names : Names) (name : String) (id : Id) : Names :=
  { names with ids := (name, id) :: names.ids }

/-- Binds the parameters of a function called `name` to `name.p0`, `name.p1` and so on,
counting from an index. -/
def bindParams (names : Names) (name : String) (index : Nat) : List Param → Names
  | [] => names
  | param :: rest =>
      (names.bind (name ++ ".p" ++ Nat.repr index) param.id).bindParams name (index + 1) rest

/-- Binds `name` to `function`.  The name also stands for the function's id, and the name with a
suffix for its return type, its type, its entry label and its parameters. -/
def bindFunction (names : Names) (name : String) (function : FunctionDef) : Names :=
  let names := { names with functions := (name, function) :: names.functions }
  let names := names.bind name function.id
  let names := names.bind (name ++ ".ret") function.returnType
  let names := names.bind (name ++ ".ty") function.type
  let names := names.bind (name ++ ".entry") function.entry
  names.bindParams name 0 function.params

end Names

end SpirvBinary
