import SpirvBinary.Word
import SpirvBinary.Opcode
import SpirvBinary.Opcode.Catalogue
import SpirvBinary.Id
import SpirvBinary.Fault
import SpirvBinary.Ieee
import SpirvBinary.Text
import SpirvBinary.Literal
import SpirvBinary.Instruction
import SpirvBinary.Chunk
import SpirvBinary.Section
import SpirvBinary.Layout
import SpirvBinary.OrderedMap
import SpirvBinary.Declarations
import SpirvBinary.Journal
import SpirvBinary.Header
import SpirvBinary.Binary
import SpirvBinary.Draft
import SpirvBinary.Build
import SpirvBinary.Build.Types
import SpirvBinary.Constant
import SpirvBinary.Build.Constants
import SpirvBinary.StructType
import SpirvBinary.Build.Directives
import SpirvBinary.Build.Structs
import SpirvBinary.Build.Functions
import SpirvBinary.Build.ControlFlow
import SpirvBinary.Script.Names
import SpirvBinary.Script.Operand
import SpirvBinary.Script.Command
import SpirvBinary.Script
import SpirvBinary.Registry
import SpirvBinary.Proofs.Moves
import SpirvBinary.Proofs.Primitives
import SpirvBinary.Proofs.Operations
import SpirvBinary.Proofs.Runs
import SpirvBinary.Proofs.Reading
import SpirvBinary.Proofs.AppendLogs
import SpirvBinary.Proofs.ModuleFormat
import SpirvBinary.Proofs.ResultIds
import SpirvBinary.Proofs.Statements
import SpirvBinary.Proofs.Staging
import SpirvBinary.Proofs.Lowering
import SpirvBinary.Proofs.FlowIds
import SpirvBinary.Proofs.Blocks
import SpirvBinary.Proofs.KnownDeclarations
import SpirvBinary.Proofs.Execution
import SpirvBinary.Proofs.Simulation
import SpirvBinary.Proofs.FunctionMeaning
import SpirvBinary.Proofs.Courses
import SpirvBinary.Proofs.DeclaredOnce
import SpirvBinary.Proofs.Glossary
import SpirvBinary.Proofs.ConstantValues
import SpirvBinary.Proofs.ClosedDrafts
import SpirvBinary.Proofs.DeclaredBefore
import SpirvBinary.Proofs.StructRegistry
import SpirvBinary.Proofs.StructTraversal
import SpirvBinary.Proofs.StructLayouts
import SpirvBinary.Proofs.Histories
import SpirvBinary.Proofs.StagedCalls
import SpirvBinary.Proofs.WholeFunctions
import SpirvBinary.Proofs.FunctionCalls
import SpirvBinary.Proofs.FailedRegistrations
import SpirvBinary.Proofs.Agreement
import SpirvBinary.Proofs.Interleaving
import SpirvBinary.Proofs.Streams
import SpirvBinary.Proofs.TextWords
import SpirvBinary.Proofs.Calls
import SpirvBinary.Proofs.DeclarationOutcomes
import SpirvBinary.Proofs.DeclaredAgain
import SpirvBinary.Proofs.InsertionLogs
import SpirvBinary.Proofs.StoredBytes
