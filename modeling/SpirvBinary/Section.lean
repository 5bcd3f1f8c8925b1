/-!
# Sections

The instructions of a module stand in thirteen sections, in a fixed order.  Which
section an instruction belongs to is decided by whoever writes it; nothing here
looks at opcodes.
-/

namespace SpirvBinary

/-- A part of a module's logical layout. -/
inductive Section where
  /-- Capabilities the module needs. -/
  | capabilities
  /-- Extensions the module needs. -/
  | extensions
  /-- Imported sets of extended instructions. -/
  | extInstImports
  /-- The memory model. -/
  | memoryModel
  /-- Entry points. -/
  | entryPoints
  /-- Execution modes of the entry points. -/
  | executionModes
  /-- Debug strings and sources. -/
  | debugSources
  /-- Debug names of ids and members. -/
  | debugNames
  /-- The processes the module went through. -/
  | debugModuleProcessed
  /-- Decorations. -/
  | annotations
  /-- Types, constants and variables of the module. -/
  | globalDeclarations
  /-- Functions without a body. -/
  | functionDeclarations
  /-- Functions with a body. -/
  | functionDefinitions
  deriving DecidableEq, Repr, Inhabited

/-- All sections in the order in which a module holds them. -/
def Section.all : List Section :=
  [.capabilities, .extensions, .extInstImports, .memoryModel, .entryPoints, .executionModes,
    .debugSources, .debugNames, .debugModuleProcessed, .annotations, .globalDeclarations,
    .functionDeclarations, .functionDefinitions]

theorem Section.mem_all (s : Section) : s ∈ Section.all := by cases s <;> decide

end SpirvBinary
