import SpirvBinary.Build

/-!
# The registry of declarations on its own

The known declarations of a draft can be used without writing anything: looked up,
and noted under ids that are fresh or chosen by the caller.  A step is one such use
as data, and a sequence of steps runs to its end whether or not some of them fail.
-/

namespace SpirvBinary

/-- A use of the known declarations. -/
inductive RegistryStep where
  /-- Takes a fresh id. -/
  | freshId
  /-- Looks a type or constant up. -/
  | findType (key : DeclarationKey)
  /-- Notes a type or constant under a fresh id. -/
  | reserveType (key : DeclarationKey)
  /-- Notes a type or constant under a given id. -/
  | noteType (key : DeclarationKey) (id : Id)
  /-- Looks a struct up. -/
  | findStruct (name : String)
  /-- Notes a struct under a fresh id. -/
  | reserveStruct (name : String)
  /-- Notes a struct under a given id. -/
  | noteStruct (name : String) (id : Id)
  /-- Looks up a struct that must be there. -/
  | structType (name : String)
  /-- Lists the structs. -/
  | structList
  /-- Asks for the sizes. -/
  | gauge
  deriving Inhabited

/-- What a use of the known declarations answers. -/
inductive RegistryAnswer where
  | done
  | id (id : Id)
  | found (id : Option Id)
  | structs (structs : List (String × Id))
  | gauge (gauge : Gauge)
  deriving Inhabited

namespace RegistryStep

/-- Carries out a step. -/
def perform : RegistryStep → Build RegistryAnswer
  | .freshId => do return .id (← Build.freshId)
  | .findType key => do return .found (← Build.findType key)
  | .reserveType key => do return .id (← Build.reserveType key)
  | .noteType key id => do
      Build.noteType key id
      return .done
  | .findStruct name => do return .found (← Build.findStruct name)
  | .reserveStruct name => do return .id (← Build.reserveStruct name)
  | .noteStruct name id => do
      Build.noteStruct name id
      return .done
  | .structType name => do return .id (← Build.structType name)
  | .structList => do return .structs (← get).known.structList
  | .gauge => do return .gauge (← get).gauge

/-- Carries out steps one after the other, after those whose `answers` are given newest first. -/
def performAfter (answers : List (Except Fault RegistryAnswer)) (draft : Draft) :
    List RegistryStep → List (Except Fault RegistryAnswer) × Draft
  | [] => (answers.reverse, draft)
  | step :: rest =>
      match step.perform draft with
      | .ok answer after => performAfter (.ok answer :: answers) after rest
      | .error fault after => performAfter (.error fault :: answers) after rest

/-- Carries out `steps` on a draft in which nothing has been declared.  Gives their answers in
order and the draft at the end. -/
def performAll (steps : List RegistryStep) : List (Except Fault RegistryAnswer) × Draft :=
  performAfter [] {} steps

end RegistryStep

end SpirvBinary
