import SpirvBinary.Build.ControlFlow
import SpirvBinary.Script.Command

/-!
# Scripts

A script is a sequence of build steps as data.  A step is a command, a control
construct with scripts for its bodies, a function with a script for its body, or
the build of an independent module.  Running a script carries out its steps one
after the other, remembers under names the ids they result in, and keeps a trace
of what every step answered.

A step that fails ends the sequence it stands in, and with it the construct whose
body that sequence is, unless the step is tolerant: then its fault is recorded in
the trace and the sequence goes on.

## Main definitions

* `Script` — sequences of steps.
* `Session` — a draft with its names and its trace.
* `Script.run` — carries out a script in a session.
* `Plan.build` — builds a module by a script.
-/

namespace SpirvBinary

/-! ### Steps -/

/-- What is noted at a step, besides what it does.  The tag is copied to the trace and
is the caller's own. -/
structure Mark (τ : Type) where
  tag : τ
  /-- The name to bind to the result. -/
  name : Option String := none
  /-- A failure of the step is only recorded. -/
  tolerant : Bool := false

/-- What ends a build early, and which settings it uses. -/
inductive Manner where
  /-- No step ends the build. -/
  | everyStep
  /-- The first step that fails ends the build. -/
  | untilFault
  /-- The first step that fails ends the build, which uses the standard settings. -/
  | standard
  deriving DecidableEq, Repr, Inhabited

/-- How a module is built. -/
structure Plan where
  manner : Manner := .everyStep
  settings : Settings := {}
  deriving DecidableEq, Repr, Inhabited

namespace Plan

/-- Each step of the build is tolerant. -/
def lenient (plan : Plan) : Bool := plan.manner = .everyStep

/-- The draft a build starts from. -/
def draft (plan : Plan) : Draft :=
  match plan.manner with
  | .standard => {}
  | _ => { settings := plan.settings }

end Plan

/-- A sequence of build steps. -/
inductive Script (τ : Type) where
  /-- No more steps. -/
  | done
  /-- A command. -/
  | command (mark : Mark τ) (operation : Command) (next : Script τ)
  /-- A selection with one arm. -/
  | ifThen (mark : Mark τ) (condition : Ref) (arm next : Script τ)
  /-- A selection with two arms. -/
  | ifThenElse (mark : Mark τ) (condition : Ref) (onTrue onFalse next : Script τ)
  /-- A counted loop.  The name of the step is bound to the index before the body runs. -/
  | countedLoop (mark : Mark τ) (count : Int32) (body next : Script τ)
  /-- A function.  Its parameters are bound before the body runs. -/
  | defineFunction (mark : Mark τ) (name : Option String) (returnType : Option Ref)
      (params : List Ref) (body next : Script τ)
  /-- The build of another module, with names of its own. -/
  | build (mark : Mark τ) (plan : Plan) (script next : Script τ)

/-! ### Sessions -/

/-- What the trace says about a step. -/
inductive Report (τ : Type) where
  /-- A step that answered, or failed, and the sizes of the draft after it. -/
  | step (tag : τ) (answer : Except Fault Reply) (gauge : Gauge)
  /-- A step that built another module, with that build's trace. -/
  | built (tag : τ) (trace : List (Report τ)) (binary : Binary) (gauge : Gauge)

/-- A draft on which a script runs, with the names bound so far and the trace. -/
structure Session (τ : Type) where
  draft : Draft := {}
  names : Names := {}
  /-- The reports of the steps that are over, newest first. -/
  newest : List (Report τ) := []

namespace Session

/-- The reports of the steps that are over, in the order in which they ended. -/
def trace {τ : Type} (session : Session τ) : List (Report τ) := session.newest.reverse

/-- Adds `report` to the trace. -/
def record {τ : Type} (session : Session τ) (report : Report τ) : Session τ :=
  { session with newest := report :: session.newest }

end Session

/-- A computation in a session, which keeps the session when it fails. -/
abbrev Run (τ : Type) := EStateM Fault (Session τ)

namespace Run

variable {τ : Type}

/-- Carries out `action` on the draft of a session. -/
def lift {α : Type} (action : Build α) : Run τ α := fun session =>
  match action session.draft with
  | .ok value draft => .ok value { session with draft := draft }
  | .error fault draft => .error fault { session with draft := draft }

instance : MonadLift Build (Run τ) := ⟨lift⟩

/-- Changes the names of a session. -/
def updateNames (f : Names → Names) : Run τ Unit :=
  modify fun session => { session with names := f session.names }

/-- Binds `name`, if the step has one, to what the step answered. -/
def bindReply (name : Option String) (reply : Reply) : Run τ Unit :=
  match name, reply with
  | some name, .id id => updateNames (·.bind name id)
  | some name, .function function => updateNames (·.bindFunction name function)
  | _, _ => return ()

/-- Binds `name`, if the loop has one, to its index. -/
def bindIndex (name : Option String) (index : Id) : Run τ Unit :=
  match name with
  | some name => updateNames (·.bind name index)
  | none => return ()

/-- Binds the parameters of `function`, if it has a `name` in the script. -/
def bindParams (name : Option String) (function : FunctionDef) : Run τ Unit :=
  match name with
  | some name => updateNames (·.bindParams name 0 function.params)
  | none => return ()

/-- Carries out `step` and records its report.  When it fails the fault is recorded, and passed on
unless the step is tolerant. -/
def attempt (tolerant : Bool) (mark : Mark τ) (step : Run τ (Gauge → Report τ)) : Run τ Unit :=
  fun session =>
    match step session with
    | .ok report after => .ok () (after.record (report after.draft.gauge))
    | .error fault after =>
        let recorded := after.record (.step mark.tag (.error fault) after.draft.gauge)
        if tolerant || mark.tolerant then .ok () recorded else .error fault recorded

/-- The report of a step that answered, after its name has been bound. -/
def answer (mark : Mark τ) (reply : Reply) : Run τ (Gauge → Report τ) := do
  bindReply mark.name reply
  return .step mark.tag (.ok reply)

end Run

/-- The outcome of a build by a script. -/
structure Built (τ : Type) where
  trace : List (Report τ)
  /-- The module, or why there is none. -/
  outcome : Except Fault Binary
  /-- What happened, in order. -/
  events : List Event

namespace Plan

variable {τ : Type}

/-- Builds a module by `steps` that run in a session of their own. -/
def buildBy (plan : Plan) (steps : Run τ Unit) : Built τ :=
  let all : Run τ Binary := do
    steps
    Run.lift Build.finish
  match all { draft := plan.draft } with
  | .ok binary session => ⟨session.trace, .ok binary, session.draft.events⟩
  | .error fault session => ⟨session.trace, .error fault, session.draft.events⟩

end Plan

namespace Run

variable {τ : Type}

/-- The report of a step that built another module.  What happened in that build, `built.events`,
is noted whether or not it succeeded. -/
def answerBuilt (mark : Mark τ) (built : Built τ) : Run τ (Gauge → Report τ) := do
  modify fun session =>
    { session with
      draft := { session.draft with journal := built.events.reverse ++ session.draft.journal } }
  match built.outcome with
  | .ok binary => return .built mark.tag built.trace binary
  | .error fault => throw fault

end Run

namespace Script

variable {τ : Type}

/-- Carries out the steps of a script.  If it is `lenient` each of its steps is tolerant; that does
not extend to the steps of their bodies. -/
def run (lenient : Bool) : Script τ → Run τ Unit
  | .done => return ()
  | .command mark operation next => do
      Run.attempt lenient mark do
        let session ← get
        let reply ← Run.lift (operation.perform session.names)
        Run.answer mark reply
      next.run lenient
  | .ifThen mark condition arm next => do
      Run.attempt lenient mark do
        let session ← get
        Build.ifThen (session.names.id condition) (arm.run false)
        Run.answer mark .done
      next.run lenient
  | .ifThenElse mark condition onTrue onFalse next => do
      Run.attempt lenient mark do
        let session ← get
        Build.ifThenElse (session.names.id condition) (onTrue.run false) (onFalse.run false)
        Run.answer mark .done
      next.run lenient
  | .countedLoop mark count body next => do
      Run.attempt lenient mark do
        let index ← Build.countedLoop count fun index => do
          Run.bindIndex mark.name index
          body.run false
        Run.answer mark (.index index)
      next.run lenient
  | .defineFunction mark name returnType params body next => do
      Run.attempt lenient mark do
        let session ← get
        let function ← Build.defineFunction name (returnType.map session.names.id)
          (params.map session.names.id) fun function => do
            Run.bindParams mark.name function
            body.run false
        Run.answer mark (.function function)
      next.run lenient
  | .build mark plan script next => do
      Run.attempt lenient mark (Run.answerBuilt mark (plan.buildBy (script.run plan.lenient)))
      next.run lenient

end Script

/-- Builds a module by a script. -/
def Plan.build {τ : Type} (plan : Plan) (script : Script τ) : Built τ :=
  plan.buildBy (script.run plan.lenient)

end SpirvBinary
