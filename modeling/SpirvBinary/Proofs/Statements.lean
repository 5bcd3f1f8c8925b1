import SpirvBinary.Proofs.Runs

/-!
# Function bodies

The body of a function is a script of statements: instructions and variables,
declarations, selections and loops, nested in any way.  A *flow* is such a body with
all its ids filled in.  It does not say where ids come from, only which instruction
each statement stands for and which ids its constructs use, so it can be compared both
with the instructions that are staged for a body and with what a body means.

## Main definitions

* `Command.IsStatement`, `Script.IsBody` — what a function body is made of.
* `Script.DeclarationsSucceed` — no declaration fails while a body is carried out.
* `Flow` — a body with its ids.
* `Flow.head`, `Flow.body` — the instructions of a flow.
* `Flow.statements` — those that statements stand for.
* `Script.Resolves` — a flow fills in the ids of a body.
-/

namespace SpirvBinary

open Opcode

/-! ### Statements -/

namespace Opcode

/-- The opcodes that end a block. -/
def terminators : List Opcode :=
  [opBranch, opBranchConditional, opReturn, opReturnValue,
    -- switch, kill, unreachable
    ⟨251⟩, ⟨252⟩, ⟨255⟩,
    -- the ends of invocations and rays, and the emission of mesh tasks
    ⟨4416⟩, ⟨4448⟩, ⟨4449⟩, ⟨5294⟩]

/-- The opcodes that make up the structure of functions and blocks: labels, `terminators`, merges,
and the instructions around a function. -/
def structural : List Opcode :=
  [opLabel, opSelectionMerge, opLoopMerge, opFunction, opFunctionParameter, opFunctionEnd]
    ++ terminators

end Opcode

/-- The commands a function body is made of.  Instructions must not be `structural`, and must be
small enough to have an encoding. -/
def Command.IsStatement : Command → Prop
  | .emitBody opcode _ operands =>
      opcode ∉ structural ∧ ∀ names, (operands.words names).length ≤ 65532
  | .call _ arguments => arguments.length ≤ 65531
  | .load .. | .store .. | .localVariable .. => True
  | operation => operation.IsDeclaration

/-- The commands that return from a function. -/
def Command.IsReturn : Command → Prop
  | .returnVoid | .returnValue _ => True
  | _ => False

namespace Script

variable {τ : Type}

/-- A script of statements, selections and loops. -/
def IsBody : Script τ → Prop
  | .done => True
  | .command _ operation next => operation.IsStatement ∧ next.IsBody
  | .ifThen _ _ arm next => arm.IsBody ∧ next.IsBody
  | .ifThenElse _ _ onTrue onFalse next => onTrue.IsBody ∧ onFalse.IsBody ∧ next.IsBody
  | .countedLoop _ _ body next => body.IsBody ∧ next.IsBody
  | .defineFunction .. | .build .. => False

/-- One script, and then `last`. -/
def append : Script τ → Script τ → Script τ
  | .done, last => last
  | .command mark operation next, last => .command mark operation (next.append last)
  | .ifThen mark condition arm next, last => .ifThen mark condition arm (next.append last)
  | .ifThenElse mark condition onTrue onFalse next, last =>
      .ifThenElse mark condition onTrue onFalse (next.append last)
  | .countedLoop mark count body next, last => .countedLoop mark count body (next.append last)
  | .defineFunction mark name returnType params body next, last =>
      .defineFunction mark name returnType params body (next.append last)
  | .build mark plan script next, last => .build mark plan script (next.append last)

theorem run_append (first last : Script τ) (lenient : Bool) :
    (first.append last).run lenient = first.run lenient >>= fun _ => last.run lenient := by
  induction first with
  | done => simp only [append, run, pure_bind]
  | command mark operation next ih => simp only [append, run, ih, bind_assoc]
  | ifThen mark condition arm next _ ih => simp only [append, run, ih, bind_assoc]
  | ifThenElse mark condition onTrue onFalse next _ _ ih => simp only [append, run, ih, bind_assoc]
  | countedLoop mark count body next _ ih => simp only [append, run, ih, bind_assoc]
  | defineFunction mark name returnType params body next _ ih =>
    simp only [append, run, ih, bind_assoc]
  | build mark plan script next _ ih => simp only [append, run, ih, bind_assoc]

/-- While a body is carried out from the session `s`, each of its declarations succeeds in the
session it is made in. -/
def DeclarationsSucceed : Script τ → Session τ → Prop
  | .done, _ => True
  | .command mark operation next, s =>
      (operation.IsDeclaration → ∃ reply d, operation.perform s.names s.draft = .ok reply d) ∧
        next.DeclarationsSucceed (after ((Script.command mark operation .done).run false) s)
  | .ifThen mark condition arm next, s =>
      arm.DeclarationsSucceed (after (Run.lift (Build.beginIfThen (s.names.id condition))) s) ∧
        next.DeclarationsSucceed (after ((Script.ifThen mark condition arm .done).run false) s)
  | .ifThenElse mark condition onTrue onFalse next, s =>
      onTrue.DeclarationsSucceed
          (after (Run.lift (Build.beginIfThenElse (s.names.id condition))) s) ∧
        onFalse.DeclarationsSucceed
          (after (do
            let labels ← Run.lift (Build.beginIfThenElse (s.names.id condition))
            onTrue.run false
            Run.lift (Build.endArm labels.2 labels.1)) s) ∧
        next.DeclarationsSucceed
          (after ((Script.ifThenElse mark condition onTrue onFalse .done).run false) s)
  | .countedLoop mark count body next, s =>
      body.DeclarationsSucceed
          (after (do
            let frame ← Run.lift (Build.beginLoop count)
            Run.bindIndex mark.name frame.index) s) ∧
        next.DeclarationsSucceed (after ((Script.countedLoop mark count body .done).run false) s)
  | .defineFunction .., _ => True
  | .build .., _ => True

end Script

/-! ### Flows -/

namespace Instruction

/-- The start of the `block`. -/
def label (block : Id) : Instruction := { opcode := opLabel, result := some block }

/-- A jump to `target`. -/
def branch (target : Id) : Instruction := { opcode := opBranch, operands := [target.word] }

/-- A jump to `onTrue` or to `onFalse`, as the `condition` says. -/
def branchConditional (condition onTrue onFalse : Id) : Instruction :=
  { opcode := opBranchConditional, operands := [condition.word, onTrue.word, onFalse.word] }

/-- The announcement of the block `merge` where a selection ends. -/
def selectionMerge (merge : Id) : Instruction :=
  { opcode := opSelectionMerge, operands := [merge.word, 0] }

/-- The announcement of the block `merge` where a loop ends, and of the block `advance` where its
counter advances. -/
def loopMerge (merge advance : Id) : Instruction :=
  { opcode := opLoopMerge, operands := [merge.word, advance.word, 0] }

/-- An instruction with a `type` and a `result`. -/
def typed (opcode : Opcode) (type result : Id) (operands : List Word) : Instruction :=
  { opcode := opcode, resultType := some type, result := some result, operands := operands }

/-- A read of the variable at `pointer`. -/
def load (type result pointer : Id) : Instruction := typed opLoad type result [pointer.word]

/-- A write of `value` to the variable at `pointer`. -/
def store (pointer value : Id) : Instruction :=
  { opcode := opStore, operands := [pointer.word, value.word] }

/-- A variable of a function, with the pointer type `type`. -/
def localVariable (type result : Id) : Instruction :=
  typed opVariable type result [StorageClass.function]

/-- The end of a block that chooses between the blocks `onTrue` and `onFalse`, and the start of the
first. -/
def selection (condition onTrue onFalse merge : Id) : List Instruction :=
  [selectionMerge merge, branchConditional condition onTrue onFalse, label onTrue]

/-- The end of a block that jumps to the block `merge`, and the start of the block `next`. -/
def endArm (merge next : Id) : List Instruction := [branch merge, label next]

end Instruction

/-- The ids of a loop, and how often it is meant to run. -/
structure LoopIds extends LoopFrame where
  count : Int32
  /-- The type of the comparison. -/
  bool : Id
  /-- The constant zero. -/
  zero : Id
  /-- The constant the counter is compared with. -/
  limit : Id
  /-- The type of the variable that counts. -/
  pointer : Id
  /-- The label of the block that compares. -/
  check : Id
  /-- The label of the block the body starts in. -/
  body : Id
  /-- The outcome of the comparison. -/
  inRange : Id
  /-- The counter's value before it is advanced. -/
  current : Id
  /-- The counter's value after it has been advanced. -/
  next : Id
  deriving DecidableEq, Repr, Inhabited

namespace LoopIds

open Instruction

/-- The instructions before the body of a loop with the given `ids`. -/
def opening (ids : LoopIds) : List Instruction :=
  [store ids.counter ids.zero, branch ids.header,
    label ids.header, loopMerge ids.merge ids.advance, branch ids.check,
    label ids.check, load ids.int ids.index ids.counter,
    typed opSLessThan ids.bool ids.inRange [ids.index.word, ids.limit.word],
    branchConditional ids.inRange ids.body ids.merge,
    label ids.body]

/-- The instructions after the body of a loop with the given `ids`. -/
def closing (ids : LoopIds) : List Instruction :=
  [branch ids.advance,
    label ids.advance, load ids.int ids.current ids.counter,
    typed opIAdd ids.int ids.next [ids.current.word, ids.one.word],
    store ids.counter ids.next, branch ids.header,
    label ids.merge]

end LoopIds

/-- A function body with its ids. -/
inductive Flow where
  /-- Nothing more. -/
  | done
  /-- An instruction. -/
  | instruction (inst : Instruction) (next : Flow)
  /-- A variable, which stands in the entry block wherever it is declared. -/
  | localVariable (inst : Instruction) (next : Flow)
  /-- A selection with one arm. -/
  | ifThen (condition onTrue merge : Id) (arm next : Flow)
  /-- A selection with two arms. -/
  | ifThenElse (condition onTrue onFalse merge : Id) (first second next : Flow)
  /-- A counted loop. -/
  | loop (ids : LoopIds) (body next : Flow)

namespace Flow

open Instruction

/-- The variables of a flow, in the order of their declaration. -/
def head : Flow → List Instruction
  | .done => []
  | .instruction _ next => next.head
  | .localVariable inst next => inst :: next.head
  | .ifThen _ _ _ arm next => arm.head ++ next.head
  | .ifThenElse _ _ _ _ first second next => first.head ++ (second.head ++ next.head)
  | .loop ids body next =>
    Instruction.localVariable ids.pointer ids.counter :: (body.head ++ next.head)

/-- The instructions of a flow apart from its variables.  They start in the block that is
open before them, and leave a block open. -/
def body : Flow → List Instruction
  | .done => []
  | .instruction inst next => inst :: next.body
  | .localVariable _ next => next.body
  | .ifThen condition onTrue merge arm next =>
      selection condition onTrue merge merge ++ (arm.body ++ (endArm merge merge ++ next.body))
  | .ifThenElse condition onTrue onFalse merge first second next =>
      selection condition onTrue onFalse merge ++ (first.body ++ (endArm merge onFalse
        ++ (second.body ++ (endArm merge merge ++ next.body))))
  | .loop ids body next => ids.opening ++ (body.body ++ (ids.closing ++ next.body))

/-- The instructions that the statements of a flow stand for, apart from variables. -/
def statements : Flow → List Instruction
  | .done => []
  | .instruction inst next => inst :: next.statements
  | .localVariable _ next => next.statements
  | .ifThen _ _ _ arm next => arm.statements ++ next.statements
  | .ifThenElse _ _ _ _ first second next =>
      first.statements ++ (second.statements ++ next.statements)
  | .loop _ body next => body.statements ++ next.statements

/-- One flow, and then `last`. -/
def append : Flow → Flow → Flow
  | .done, last => last
  | .instruction inst next, last => .instruction inst (next.append last)
  | .localVariable inst next, last => .localVariable inst (next.append last)
  | .ifThen condition onTrue merge arm next, last =>
      .ifThen condition onTrue merge arm (next.append last)
  | .ifThenElse condition onTrue onFalse merge first second next, last =>
      .ifThenElse condition onTrue onFalse merge first second (next.append last)
  | .loop ids body next, last => .loop ids body (next.append last)

theorem head_append (first last : Flow) : (first.append last).head = first.head ++ last.head := by
  induction first with
  | done => rfl
  | instruction inst next ih => exact ih
  | localVariable inst next ih => simp only [append, head, ih, List.cons_append]
  | ifThen condition onTrue merge arm next _ ih => simp only [append, head, ih, List.append_assoc]
  | ifThenElse condition onTrue onFalse merge first second next _ _ ih =>
    simp only [append, head, ih, List.append_assoc]
  | loop ids body next _ ih =>
    simp only [append, head, ih, List.append_assoc, List.cons_append]

theorem body_append (first last : Flow) : (first.append last).body = first.body ++ last.body := by
  induction first with
  | done => rfl
  | instruction inst next ih => simp only [append, body, ih, List.cons_append]
  | localVariable inst next ih => exact ih
  | ifThen condition onTrue merge arm next _ ih => simp only [append, body, ih, List.append_assoc]
  | ifThenElse condition onTrue onFalse merge first second next _ _ ih =>
    simp only [append, body, ih, List.append_assoc]
  | loop ids body next _ ih => simp only [append, Flow.body, ih, List.append_assoc]

end Flow

/-! ### Filling in ids -/

/-- The `names` after a step with the given `reply` has bound its `name`. -/
def Reply.bindTo (name : Option String) (reply : Reply) (names : Names) : Names :=
  match name, reply with
  | some name, .id result => names.bind name result
  | some name, .function result => names.bindFunction name result
  | _, _ => names

/-- A statement with the given `reply` stands for the first part of a flow, and another flow
follows, the rest of it.  A declaration stands for no part of a flow. -/
def Command.Resolves (names : Names) (reply : Reply) : Command → Flow → Flow → Prop
  | .emitBody opcode type operands, flow, rest => ∃ id, reply = .id id ∧
      flow = .instruction (.typed opcode (names.id type) id (operands.words names)) rest
  | .load type pointer, flow, rest => ∃ id, reply = .id id ∧
      flow = .instruction (.load (names.id type) id (names.id pointer)) rest
  | .call callee arguments, flow, rest => ∃ id, reply = .id id ∧
      flow = .instruction (.typed opFunctionCall (names.callee callee).2 id
        ((names.callee callee).1.word :: (arguments.map names.id).map Id.word)) rest
  | .store pointer value, flow, rest => reply = .done ∧
      flow = .instruction (.store (names.id pointer) (names.id value)) rest
  | .localVariable _, flow, rest => ∃ pointer id, reply = .id id ∧
      flow = .localVariable (.localVariable pointer id) rest
  | _, flow, rest => flow = rest

/-- A flow fills in the ids of a body, which starts with the names `names` and ends with
`names'`. -/
def Script.Resolves {τ : Type} : Script τ → Names → Flow → Names → Prop
  | .done, names, flow, names' => flow = .done ∧ names' = names
  | .command mark operation next, names, flow, names' =>
      ∃ reply rest, operation.Resolves names reply flow rest ∧
        next.Resolves (reply.bindTo mark.name names) rest names'
  | .ifThen _ condition arm next, names, flow, names' =>
      ∃ onTrue merge inner rest between,
        flow = .ifThen (names.id condition) onTrue merge inner rest ∧
          arm.Resolves names inner between ∧ next.Resolves between rest names'
  | .ifThenElse _ condition onTrue onFalse next, names, flow, names' =>
      ∃ trueLabel falseLabel merge first second rest middle between,
        flow = .ifThenElse (names.id condition) trueLabel falseLabel merge first second rest ∧
          onTrue.Resolves names first middle ∧ onFalse.Resolves middle second between ∧
            next.Resolves between rest names'
  | .countedLoop mark count body next, names, flow, names' =>
      ∃ ids inner rest between, flow = .loop ids inner rest ∧ ids.count = count ∧
        body.Resolves ((Reply.id ids.index).bindTo mark.name names) inner between ∧
          next.Resolves between rest names'
  | .defineFunction .., _, _, _ => False
  | .build .., _, _, _ => False

theorem Command.Resolves.append {names : Names} {reply : Reply} {operation : Command}
    {flow rest : Flow} (h : operation.Resolves names reply flow rest) (last : Flow) :
    operation.Resolves names reply (flow.append last) (rest.append last) := by
  cases operation with
  | emitBody | load | call =>
    obtain ⟨id, hreply, rfl⟩ := h
    exact ⟨id, hreply, rfl⟩
  | store =>
    obtain ⟨hreply, rfl⟩ := h
    exact ⟨hreply, rfl⟩
  | localVariable =>
    obtain ⟨pointer, id, hreply, rfl⟩ := h
    exact ⟨pointer, id, hreply, rfl⟩
  | _ => exact congrArg (Flow.append · last) h

theorem Script.Resolves.append {τ : Type} {first last : Script τ} {names middle names' : Names}
    {flow flow' : Flow} (h : first.Resolves names flow middle)
    (h' : last.Resolves middle flow' names') :
    (first.append last).Resolves names (flow.append flow') names' := by
  induction first generalizing names flow with
  | done =>
    obtain ⟨rfl, rfl⟩ := h
    exact h'
  | command mark operation next ih =>
    obtain ⟨reply, rest, hop, hrest⟩ := h
    exact ⟨reply, rest.append flow', hop.append flow', ih hrest⟩
  | ifThen mark condition arm next _ ih =>
    obtain ⟨onTrue, merge, inner, rest, between, rfl, harm, hrest⟩ := h
    exact ⟨onTrue, merge, inner, _, between, rfl, harm, ih hrest⟩
  | ifThenElse mark condition onTrue onFalse next _ _ ih =>
    obtain ⟨trueLabel, falseLabel, merge, first, second, rest, middle, between, rfl, htrue, hfalse,
      hrest⟩ := h
    exact ⟨trueLabel, falseLabel, merge, first, second, _, middle, between, rfl, htrue, hfalse,
      ih hrest⟩
  | countedLoop mark count body next _ ih =>
    obtain ⟨ids, inner, rest, between, rfl, hcount, hbody, hrest⟩ := h
    exact ⟨ids, inner, _, between, rfl, hcount, hbody, ih hrest⟩
  | defineFunction => exact h.elim
  | build => exact h.elim

end SpirvBinary
