import SpirvBinary.Build.Directives
import SpirvBinary.StructType

/-!
# Registering structs

A struct is registered by name.  Its members' types are declared first, from left
to right, and structs among them are registered on the way; then the struct
itself is declared, and it and its members are named.  A name that is registered
already stays as it is, whatever the new fields are.  That also holds when a
member has registered the very name whose registration it is part of.
-/

namespace SpirvBinary

namespace Build

open Opcode

/-- Names the members of the struct `type`, counting from `index`. -/
def nameMembers (type : Id) (index : Nat) : List (String × FieldType) → Build Unit
  | [] => return ()
  | (name, _) :: rest => do
      nameMember type (UInt32.ofNat index) name
      nameMembers type (index + 1) rest

/-- Declares and names a struct whose fields' types have been declared as `members`, unless one of
the members has registered its name. -/
def declareStruct (name : String) (fields : List (String × FieldType)) (members : List Id) :
    Build Id := do
  match ← findStruct name with
  | some id =>
      log (.structAddedByMember name id)
      return id
  | none =>
      let id ← freshId
      emit .globalDeclarations
        { opcode := opTypeStruct, result := some id, operands := members.map Id.word }
      noteStruct name id
      nameId id name
      nameMembers id 0 fields
      return id

mutual

/-- Declares the type of a field. -/
def fieldType : FieldType → Build Id
  | .int => intType 32 true
  | .word => intType 32 false
  | .float => floatType 32
  | .vector count => do
      let float ← floatType 32
      vectorType float count
  | .matrix columns rows => do
      let float ← floatType 32
      let column ← vectorType float rows
      matrixType column columns
  | .struct name fields => do
      match ← findStruct name with
      | some id =>
          log (.structKnown name id)
          return id
      | none =>
          let members ← fieldTypes [] fields
          declareStruct name fields members
  | .named name => structType name

/-- Declares the types of fields, after those already `declared`, newest first. -/
def fieldTypes (declared : List Id) : List (String × FieldType) → Build (List Id)
  | [] => return declared.reverse
  | (_, type) :: rest => do
      let id ← fieldType type
      fieldTypes (id :: declared) rest

end

/-- Registers a struct and gives the id its name has from then on. -/
def registerStruct (struct : StructType) : Build Id :=
  fieldType (.struct struct.name struct.fields)

end Build

end SpirvBinary
