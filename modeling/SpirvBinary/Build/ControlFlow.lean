import SpirvBinary.Build.Functions

/-!
# Structured control flow

Selections and counted loops are written as labelled blocks.  Each construct opens
its own blocks and leaves a fresh merge block as the current one, so an arm or a
loop body must not end the block it is given.

A construct is made of a beginning, what its caller puts in, and an end.  The
beginning and the end are computations on a draft; the whole works in any monad
that building lifts to.

## Main definitions

* `Build.ifThen`, `Build.ifThenElse` — selections.
* `Build.countedLoop` — a loop that counts from zero up to a limit.
-/

namespace SpirvBinary

/-- What the end of a loop needs to know of its beginning. -/
structure LoopFrame where
  /-- The type of the counter's value. -/
  int : Id
  /-- The constant one. -/
  one : Id
  /-- The variable that counts. -/
  counter : Id
  /-- The label at which every round starts. -/
  header : Id
  /-- The label of the block that advances the counter. -/
  advance : Id
  /-- The label behind the loop. -/
  merge : Id
  /-- The counter's value in the current round. -/
  index : Id
  deriving DecidableEq, Repr, Inhabited

namespace Build

open Opcode

variable {m : Type → Type} [Monad m] [MonadLiftT Build m]

/-! ### Selections -/

/-- Ends a block with a choice between `onTrue` and `onFalse`, two blocks that meet again at
`merge`. -/
def selectionHead (condition onTrue onFalse merge : Id) : Build Unit := do
  pushBody { opcode := opSelectionMerge, operands := [merge.word, 0] }
  branchConditional condition onTrue onFalse

/-- Begins a selection with one arm and starts the arm.  Gives the merge label. -/
def beginIfThen (condition : Id) : Build Id := do
  let onTrue ← freshId
  let merge ← freshId
  selectionHead condition onTrue merge merge
  label onTrue
  return merge

/-- Begins a selection with two arms and starts the first.  Gives the label of the
second arm and the merge label. -/
def beginIfThenElse (condition : Id) : Build (Id × Id) := do
  let onTrue ← freshId
  let onFalse ← freshId
  let merge ← freshId
  selectionHead condition onTrue onFalse merge
  label onTrue
  return (onFalse, merge)

/-- Ends the current block with a jump to `merge`, and starts the block `next`. -/
def endArm (merge next : Id) : Build Unit := do
  branch merge
  label next

/-- Does what `arm` says only when `condition` holds. -/
def ifThen (condition : Id) (arm : m Unit) : m Unit := do
  let merge ← monadLift (beginIfThen condition)
  arm
  monadLift (endArm merge merge)

/-- Does what `onTrue` or `onFalse` says, depending on `condition`. -/
def ifThenElse (condition : Id) (onTrue onFalse : m Unit) : m Unit := do
  let labels ← monadLift (beginIfThenElse condition)
  onTrue
  monadLift (endArm labels.2 labels.1)
  onFalse
  monadLift (endArm labels.2 labels.2)

/-! ### Counted loops -/

/-- Begins a loop over `0, 1, …, count - 1` and starts its body. -/
def beginLoop (count : Int32) : Build LoopFrame := do
  let int ← intType 32 true
  let bool ← boolType
  let zero ← intConstant 0
  let one ← intConstant 1
  let limit ← intConstant count
  let counter ← localVariable int
  store counter zero
  let header ← freshId
  let check ← freshId
  let body ← freshId
  let advance ← freshId
  let merge ← freshId
  branch header
  label header
  pushBody { opcode := opLoopMerge, operands := [merge.word, advance.word, 0] }
  branch check
  label check
  let index ← load int counter
  let inRange ← emitBody opSLessThan bool [index.word, limit.word]
  branchConditional inRange body merge
  label body
  return { int, one, counter, header, advance, merge, index }

/-- Ends the body of a loop, advances the counter and starts the next round. -/
def endLoop (frame : LoopFrame) : Build Unit := do
  branch frame.advance
  label frame.advance
  let current ← load frame.int frame.counter
  let next ← emitBody opIAdd frame.int [current.word, frame.one.word]
  store frame.counter next
  branch frame.header
  label frame.merge

/-- Does something for each of the numbers `0, 1, …, count - 1`, and not at all when
the count is not positive.  The body receives the id of the number, which is also
the result. -/
def countedLoop (count : Int32) (body : Id → m Unit) : m Id := do
  let frame ← monadLift (beginLoop count)
  body frame.index
  monadLift (endLoop frame)
  return frame.index

end Build

end SpirvBinary
