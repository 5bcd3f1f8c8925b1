import SpirvBinary.Build.Types

/-!
# Settings, names and decorations of a module

One function for each kind of instruction that stands before a module's
declarations.  Each writes to the section its instruction belongs to.
-/

namespace SpirvBinary

namespace Build

open Opcode

/-- The capability the module needs. -/
def capability (capability : Word) : Build Unit :=
  emit .capabilities { opcode := opCapability, operands := [capability] }

/-- An extension the module needs. -/
def useExtension (name : String) : Build Unit :=
  emit .extensions { opcode := opExtension, operands := textWords name }

/-- Imports the set of extended instructions called `name` and gives it an id. -/
def importInstructions (name : String) : Build Id :=
  emitResult .extInstImports opExtInstImport (textWords name)

/-- How the module addresses memory and orders accesses to it. -/
def memoryModel (addressing memory : Word) : Build Unit :=
  emit .memoryModel { opcode := opMemoryModel, operands := [addressing, memory] }

/-- A `function` in which execution may start, and the variables of its `interface`. -/
def entryPoint (model : Word) (function : Id) (name : String) (interface : List Id) :
    Build Unit :=
  emit .entryPoints
    { opcode := opEntryPoint
      operands := model :: function.word :: (textWords name ++ interface.map Id.word) }

/-- How an entry point is executed. -/
def executionMode (entryPoint : Id) (mode : Word) (literals : List Word) : Build Unit :=
  emit .executionModes
    { opcode := opExecutionMode, operands := entryPoint.word :: mode :: literals }

/-- The language the module was written in. -/
def sourceLanguage (language version : Word) : Build Unit :=
  emit .debugSources { opcode := opSource, operands := [language, version] }

/-- The name of the id `target`. -/
def nameId (target : Id) (name : String) : Build Unit :=
  emit .debugNames { opcode := opName, operands := target.word :: textWords name }

/-- The name of the member of the struct `type` with the index `member`. -/
def nameMember (type : Id) (member : Word) (name : String) : Build Unit :=
  emit .debugNames
    { opcode := opMemberName, operands := type.word :: member :: textWords name }

/-- A process the module went through. -/
def processedBy (process : String) : Build Unit :=
  emit .debugModuleProcessed { opcode := opModuleProcessed, operands := textWords process }

/-- Decorates the id `target`. -/
def decorate (target : Id) (decoration : Word) (literals : List Word) : Build Unit :=
  emit .annotations { opcode := opDecorate, operands := target.word :: decoration :: literals }

/-- Decorates the member of the struct `type` with the index `member`. -/
def decorateMember (type : Id) (member decoration : Word) (literals : List Word) : Build Unit :=
  emit .annotations
    { opcode := opMemberDecorate, operands := type.word :: member :: decoration :: literals }

/-- Declares a variable of the module, given the type `pointer` of pointers to it. -/
def globalVariable (pointer : Id) (storage : StorageClass) : Build Id := do
  let id ← freshId
  emit .globalDeclarations
    { opcode := opVariable, resultType := some pointer, result := some id, operands := [storage] }
  return id

end Build

end SpirvBinary
