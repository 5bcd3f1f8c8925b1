import SpirvBinary.Proofs.DeclaredOnce
import SpirvBinary.Proofs.Histories
import SpirvBinary.Proofs.ModuleFormat

/-!
# Functions are written as a whole

Where functions are opened and closed only by the operations that begin and end them, a
function reaches the module with everything that belongs to it and with nothing else: its
definition, its parameters, its entry label, its variables, its body and its end.  Functions
may be begun inside of others, ended in the wrong place or not at all, and calls may fail in
between; none of this mixes two functions up.

## Main definitions

* `FunctionEvent`, `FunctionEvent.Happens` — what happens to functions.
* `functionScheme` — what it does to the functions that are open.
* `Content.WellFormed` — a function consists of what it should consist of.
* `Command.KeepsFunctionsWhole` — a command does not meddle with functions.
* `FunctionEvent.HappensInside` — what happens to functions between their beginnings and ends.

## Main results

* `History.definitions_eq`, `History.drain_definitions` — what the function definitions of a
  draft are after a history, and that they are read back.
* `History.wellFormed` — functions that have been closed consist of what they should.
* `History.finish_iff` — when the module can be finished.
* `inside_law` — ordinary operations are events inside of functions, and declarations.
-/

namespace SpirvBinary

open Opcode

/-- A function that has been begun: what it was asked for, and the ids it has got. -/
structure Begun where
  paramTypes : List Id
  /-- The function control mask. -/
  control : Word
  function : FunctionDef
  deriving DecidableEq, Repr

/-- The key of the type of a function: `OpTypeFunction`, its return type and those of its
parameters. -/
def Begun.typeKey (start : Begun) : DeclarationKey :=
  ⟨opTypeFunction, start.function.returnType.word :: start.paramTypes.map Id.word⟩

/-- What happens to functions. -/
inductive FunctionEvent where
  /-- A function is begun. -/
  | begun (start : Begun)
  /-- A variable is added to the head of the innermost function. -/
  | localVariable (inst : Instruction)
  /-- An instruction is added to the body of the innermost function. -/
  | statement (inst : Instruction)
  /-- The innermost function is ended and written. -/
  | ended
  /-- The innermost function is ended, but cannot be written as a whole. -/
  | broken

/-- The event happens to the draft `d` and leaves another one. -/
def FunctionEvent.Happens (d : Draft) : FunctionEvent → Draft → Prop
  | .begun start, e =>
      Build.beginFunction start.function.returnType start.paramTypes start.control d
        = .ok start.function e
  | .localVariable inst, e => inst.opcode = opVariable ∧ Build.pushHead inst d = .ok () e
  | .statement inst, e => inst.IsInner ∧ Build.pushBody inst d = .ok () e
  | .ended, e => Build.endFunction d = .ok () e
  | .broken, e => d.openFunctions ≠ [] ∧ ∃ fault, Build.endFunction d = .error fault e

/-- Functions begin with their definition, parameters and entry label, and end with
`OpFunctionEnd`. -/
def functionScheme : Scheme FunctionEvent Begun where
  kind
    | .begun start => .opening start
    | .localVariable inst => .inner [inst] []
    | .statement inst => .inner [] [inst]
    | .ended => .closing
    | .broken => .closing
  prologue start := start.function.beginning start.control
  epilogue := [.functionEnd]

/-- All instructions of a function: its `beginning`, its variables, its body and its end. -/
def Content.definition (content : Content Begun) : List Instruction :=
  content.function.function.beginning content.function.control ++ content.head ++ content.body
    ++ [.functionEnd]

/-- What holds of any event: parameters are of the `paramTypes` that were asked for, heads are
given variables only, and bodies nothing that begins or ends a function. -/
def FunctionEvent.IsProper : FunctionEvent → Prop
  | .begun start => start.function.params.map Param.type = start.paramTypes
  | .localVariable inst => inst.opcode = opVariable
  | .statement inst => inst.IsInner
  | .ended | .broken => True

/-- The parameters of a function are those it was asked for, its type is declared in `d` with them,
there are only variables in its head, and nothing in its body begins or ends a function. -/
structure Content.WellFormed (content : Content Begun) (d : Draft) : Prop where
  params : content.function.function.params.map Param.type = content.function.paramTypes
  type : d.known.type? content.function.typeKey = some content.function.function.type
  head : ∀ inst ∈ content.head, inst.opcode = opVariable
  body : ∀ inst ∈ content.body, inst.IsInner

/-! ### What the events do -/

/-- A function that is begun is opened with what it begins with, and its type is known. -/
theorem leads_beginFunction (returnType : Id) (paramTypes : List Id) (control : Word)
    (d : Draft) :
    Leads (Build.beginFunction returnType paramTypes control) d
      (fun function e =>
        let start : Begun := ⟨paramTypes, control, function⟩
        Declares d e ∧ function.returnType = returnType ∧
          function.params.map Param.type = paramTypes ∧
          e.known.type? start.typeKey = some function.type ∧
          e.openFunctions = .stage (function.beginning control) [] {} :: d.openFunctions)
      (Stages [] [] d) := by
  have hmoves := stages_declarationLaw.functionType returnType paramTypes d
  rw [Build.beginFunction_eq]
  cases hrun : Build.functionType returnType paramTypes d with
  | error fault c =>
    rw [after_of_error hrun] at hmoves
    exact .of_error (bind_of_error hrun) hmoves
  | ok type c =>
    rw [after_of_ok hrun] at hmoves
    obtain ⟨function, e, hbegin, hce, hreturn, htype, hparams, hopen⟩ :=
      beginTyped_succeeds returnType type paramTypes control c
    refine .of_ok ((bind_of_ok hrun).trans hbegin)
      ⟨hmoves.toDeclares.trans hce, hreturn, hparams, ?_, ?_⟩
    · have hknown : c.known.type? ⟨opTypeFunction, returnType.word :: paramTypes.map Id.word⟩
          = some type := Build.type?_of_declare hrun
      rw [Begun.typeKey, hreturn, htype]
      exact hce.known _ _ hknown
    · rw [hopen, hmoves.openFunctions_eq]

/-- Ending the `innermost` function writes it up to the first instruction that is too long, and
closes it in any case. -/
theorem endFunction_writes {d : Draft} {innermost : StagedFunction} {outer : List StagedFunction}
    (hopen : d.openFunctions = innermost :: outer) :
    ∃ e, Writes (innermost.instructions ++ [.functionEnd]) Build.endFunction d e ∧
      e.openFunctions = outer := by
  have hpush := Build.updateFunction_of_open hopen (·.pushBody .functionEnd)
  obtain ⟨e, hwrites, houter⟩ := closeFunction_writes
    (d := { d with openFunctions := innermost.pushBody .functionEnd :: outer }) rfl
  have hinstructions : (innermost.pushBody .functionEnd).instructions
      = innermost.instructions ++ [.functionEnd] := by
    rw [StagedFunction.instructions, StagedFunction.head_pushBody, StagedFunction.body_pushBody,
      ← List.append_assoc]
    rfl
  rw [hinstructions] at hwrites
  exact ⟨e, hwrites.of_run (bind_of_ok hpush) rfl rfl rfl, houter⟩

theorem endFunction_of_closed {d : Draft} (h : d.openFunctions = []) :
    Build.endFunction d = .error .noOpenFunction d :=
  bind_of_error (Build.updateFunction_of_closed h (·.pushBody .functionEnd))

/-- Whether or not it can be written, a function that is ended is closed, as a `closing` event
says. -/
theorem endFunction_step {d : Draft} {event : FunctionEvent}
    (hkind : functionScheme.kind event = .closing) (hopen : d.openFunctions ≠ []) :
    functionScheme.Step d event (after Build.endFunction d) := by
  cases hfunctions : d.openFunctions with
  | nil => exact absurd hfunctions hopen
  | cons innermost outer =>
    obtain ⟨e, hwrites, houter⟩ := endFunction_writes hfunctions
    rw [hwrites.after_eq, Scheme.Step, hkind, hfunctions]
    exact ⟨houter, hwrites.definitions⟩

/-- Staging by `f` that succeeded has changed the innermost function and nothing else. -/
theorem eq_of_updateFunction {f : StagedFunction → StagedFunction} {d e : Draft}
    (h : Build.updateFunction f d = .ok () e) :
    e = { d with openFunctions := d.openFunctions.modifyHead f } := by
  rw [← after_updateFunction, after_of_ok h]

namespace FunctionEvent.Happens

variable {d e : Draft} {event : FunctionEvent}

/-- Both `ended` and `broken` take a function that is open. -/
theorem eq_after (h : event.Happens d e) (hkind : functionScheme.kind event = .closing) :
    d.openFunctions ≠ [] ∧ e = after Build.endFunction d := by
  cases event with
  | begun | localVariable | statement => cases hkind
  | ended =>
    refine ⟨fun hclosed => ?_, (after_of_ok h).symm⟩
    cases (endFunction_of_closed hclosed).symm.trans h
  | broken =>
    obtain ⟨hopen, fault, hrun⟩ := h
    exact ⟨hopen, (after_of_error hrun).symm⟩

/-- An event does to the functions that are open what `functionScheme` says. -/
theorem step (h : event.Happens d e) : functionScheme.Step d event e := by
  cases event with
  | begun start =>
    obtain ⟨hdeclares, -, -, -, hopen⟩ := (leads_beginFunction _ _ _ d).ok h
    exact ⟨hopen, hdeclares.functionDefinitions⟩
  | localVariable inst =>
    have he := eq_of_updateFunction (f := (·.stage [inst] [])) h.2
    rw [he]
    exact ⟨rfl, rfl⟩
  | statement inst =>
    have he := eq_of_updateFunction (f := (·.stage [] [inst])) h.2
    rw [he]
    exact ⟨rfl, rfl⟩
  | ended | broken =>
    obtain ⟨hopen, rfl⟩ := h.eq_after rfl
    exact endFunction_step rfl hopen

/-- Types and constants that are known stay known. -/
theorem known (h : event.Happens d e) {key : DeclarationKey} {id : Id}
    (hkey : d.known.type? key = some id) : e.known.type? key = some id := by
  cases event with
  | begun start => exact ((leads_beginFunction _ _ _ d).ok h).1.known key id hkey
  | localVariable inst => rwa [eq_of_updateFunction h.2]
  | statement inst => rwa [eq_of_updateFunction h.2]
  | ended | broken =>
    obtain ⟨hopen, rfl⟩ := h.eq_after rfl
    obtain ⟨innermost, outer, hfunctions⟩ := List.exists_cons_of_ne_nil hopen
    obtain ⟨f, hwrites, -⟩ := endFunction_writes hfunctions
    rwa [hwrites.after_eq, hwrites.known]

theorem isProper (h : event.Happens d e) : event.IsProper := by
  cases event with
  | begun start => exact ((leads_beginFunction _ _ _ d).ok h).2.2.1
  | localVariable inst => exact h.1
  | statement inst => exact h.1
  | ended | broken => trivial

end FunctionEvent.Happens

/-! ### What holds along a history -/

namespace History

variable {settings : Settings} {events : List FunctionEvent} {d : Draft}

theorem reflectsFunctions
    (history : History FunctionEvent.Happens { settings := settings } events d) :
    functionScheme.Reflects events d :=
  history.reflects FunctionEvent.Happens.step rfl rfl

/-- The type of a function that has been `begun` is declared. -/
theorem type_known (history : History FunctionEvent.Happens { settings := settings } events d)
    {start : Begun} (h : .begun start ∈ events) :
    d.known.type? start.typeKey = some start.function.type := by
  induction history with
  | start => cases h
  | aside _ hef ih => exact hef.known _ _ (ih h)
  | event _ hef ih =>
    rcases List.mem_cons.mp h with rfl | h
    · exact ((leads_beginFunction _ _ _ _).ok hef).2.2.2.1
    · exact hef.known (ih h)

/-- Functions that have been closed are `WellFormed`. -/
theorem wellFormed (history : History FunctionEvent.Happens { settings := settings } events d)
    {content : Content Begun} (h : content ∈ functionScheme.closed events) :
    content.WellFormed d := by
  have hproper := history.forall_mem FunctionEvent.Happens.isProper
  -- whatever belongs to a function comes from an event, and each kind of event gives one part
  obtain ⟨⟨opening, hopening, hkind⟩, hhead, hbody⟩ := Scheme.exists_of_mem_closed h
  have hbegun : .begun content.function ∈ events := by
    cases opening with
    | begun start => cases hkind; exact hopening
    | _ => cases hkind
  refine ⟨hproper _ hbegun, history.type_known hbegun, fun inst hinst => ?_, fun inst hinst => ?_⟩
  · obtain ⟨event, hevent, hmem⟩ := hhead inst hinst
    cases event with
    | localVariable other =>
      rw [List.mem_singleton.mp hmem]
      exact hproper _ hevent
    | _ => cases hmem
  · obtain ⟨event, hevent, hmem⟩ := hbody inst hinst
    cases event with
    | statement other =>
      rw [List.mem_singleton.mp hmem]
      exact hproper _ hevent
    | _ => cases hmem

/-- What has been written of the functions that were closed, each up to the first instruction
that is too long. -/
theorem definitions_eq
    (history : History FunctionEvent.Happens { settings := settings } events d) :
    d.definitions = (functionScheme.closed events).flatMap fun content =>
      content.definition.takeWhile fun inst => inst.Fits :=
  history.reflectsFunctions.definitions

/-- Where no event is `broken`, all instructions of the functions that were ended fit. -/
theorem fits (history : History FunctionEvent.Happens { settings := settings } events d)
    (hbroken : .broken ∉ events) :
    ∀ content ∈ functionScheme.closed events, ∀ inst ∈ content.definition, inst.Fits := by
  induction history with
  | start => exact fun _ h => nomatch h
  | aside _ _ ih => exact ih hbroken
  | @event past e f history event hef ih =>
    rw [List.mem_cons, not_or] at hbroken
    have hpast := ih hbroken.2
    cases event with
    | begun start => rwa [Scheme.closed_of_opening rfl]
    | localVariable inst => rwa [Scheme.closed_of_inner rfl]
    | statement inst => rwa [Scheme.closed_of_inner rfl]
    | broken => exact absurd rfl hbroken.1
    | ended =>
      -- an end that succeeded has written all of the function that was open
      have hfunctions := history.reflectsFunctions.functions
      rw [Scheme.closed_of_closing rfl]
      cases hopened : functionScheme.openings past with
      | nil => rwa [List.append_nil]
      | cons opened outer =>
        rw [hopened] at hfunctions
        obtain ⟨function, functions, hfunction, -, hopen⟩ :=
          List.forall₂_cons_left_iff.mp hfunctions
        obtain ⟨_, hwrites, -⟩ := endFunction_writes hopen
        have hfits := hwrites.fits_of_ok hef
        rw [hfunction.instructions] at hfits
        intro content hcontent
        rcases List.mem_append.mp hcontent with h | h
        · exact hpast content h
        · rw [List.mem_singleton.mp h]
          exact hfits

/-- Where no event is `broken`, the words of the function definitions are read back to all
instructions of all functions that were ended. -/
theorem drain_definitions
    (history : History FunctionEvent.Happens { settings := settings } events d)
    (hbroken : .broken ∉ events) :
    Reader.drain ⟨d.layout.sectionWords .functionDefinitions, 0⟩
      = (((functionScheme.closed events).flatMap Content.definition).map fun inst =>
          .ok inst.chunk, ⟨[], (d.layout.sectionWords .functionDefinitions).length⟩) := by
  -- where everything fits, nothing is cut off
  have hwhole : d.definitions = (functionScheme.closed events).flatMap Content.definition := by
    rw [history.definitions_eq]
    refine List.flatMap_congr fun content hcontent => ?_
    exact List.takeWhile_eq_self_iff.mpr (by simpa using history.fits hbroken content hcontent)
  have hdrain := d.layout.drain_sectionWords .functionDefinitions
  rw [← hwhole]
  rwa [List.map_map] at hdrain

/-- A module can be finished when every function that has been `begun` has been ended, and only
then. -/
theorem finish_iff (history : History FunctionEvent.Happens { settings := settings } events d) :
    (∃ binary e, Build.finish d = .ok binary e) ↔
      ((functionScheme.closed events).map Content.function).Perm
        (functionScheme.opened events) := by
  -- a draft can be finished when no function is open, and those that are open are missing
  -- among the ones that have been closed
  have hlength := history.reflectsFunctions.functions.length_eq
  have hperm := functionScheme.closed_append_openings_perm events
  rw [Build.finish_succeeds_iff, ← List.length_eq_zero_iff, ← hlength]
  constructor
  · intro hopenings
    rwa [List.length_eq_zero_iff.mp hopenings, List.map_nil, List.append_nil] at hperm
  · intro hclosed
    have hsame := hperm.length_eq.trans hclosed.length_eq.symm
    rw [List.length_append, List.length_map, List.length_map] at hsame
    omega

end History

/-! ### What happens inside of functions -/

/-- The command opens, closes and fills functions in no other way than by beginning and
ending them, and gives them no instruction that functions begin or end with. -/
def Command.KeepsFunctionsWhole : Command → Prop
  | .openFunction | .closeFunction | .pushHead _ | .pushBody _ => False
  | .emit s _ | .emitResult s _ _ => s ≠ .functionDefinitions
  | .emitBody opcode _ _ => opcode ∉ functionOpcodes
  | _ => True

/-- The event begins or ends a function. -/
def FunctionEvent.isBracket : FunctionEvent → Bool
  | .begun _ | .ended | .broken => true
  | .localVariable _ | .statement _ => false

theorem FunctionEvent.kind_of_not_isBracket {event : FunctionEvent}
    (h : event.isBracket = false) : ∃ head body, functionScheme.kind event = .inner head body := by
  cases event with
  | begun | ended | broken => cases h
  | localVariable inst => exact ⟨[inst], [], rfl⟩
  | statement inst => exact ⟨[], [inst], rfl⟩

/-- The event happens to the draft `d`, leaves `e`, and neither begins nor ends a function. -/
def FunctionEvent.HappensInside (d : Draft) (event : FunctionEvent) (e : Draft) : Prop :=
  event.Happens d e ∧ event.isBracket = false

/-- Staging by `f` is an `event` where a function is open, and nothing where none is. -/
theorem updateFunction_inside (event : FunctionEvent) {f : StagedFunction → StagedFunction}
    (hevent : ∀ {d e}, Build.updateFunction f d = .ok () e → event.HappensInside d e) :
    Moves (Traced FunctionEvent.HappensInside) (Build.updateFunction f) := by
  intro d
  cases hopen : d.openFunctions with
  | nil =>
    rw [after_of_error (Build.updateFunction_of_closed hopen f)]
    exact .refl d
  | cons innermost outer =>
    have hrun := Build.updateFunction_of_open hopen f
    rw [after_of_ok hrun]
    exact .of_step event (hevent hrun)

theorem pushInner_inside {inst : Instruction} (h : inst.IsInner) :
    Moves (Traced FunctionEvent.HappensInside) (Build.pushBody inst) :=
  updateFunction_inside (.statement inst) fun hrun => ⟨⟨h, hrun⟩, rfl⟩

theorem pushVariable_inside {inst : Instruction} (h : inst.opcode = opVariable) :
    Moves (Traced FunctionEvent.HappensInside) (Build.pushHead inst) :=
  updateFunction_inside (.localVariable inst) fun hrun => ⟨⟨h, hrun⟩, rfl⟩

theorem inside_body : BodyLaw (Traced FunctionEvent.HappensInside) :=
  .of_inner Traced.refl (fun _ _ _ => Traced.trans) Traced.freshId fun _ => pushInner_inside

/-- Ordinary operations are sequences of events that happen inside of functions, and of
declarations. -/
theorem inside_law : OrdinaryLaw (Traced FunctionEvent.HappensInside) :=
  OrdinaryLaw.of_body Traced.declarationLaw inside_body (fun _ inst hs => Traced.emit hs inst)
    fun _ => pushVariable_inside

/-- So is every command that keeps functions whole, other than `beginFunction` and
`endFunction`. -/
theorem perform_inside (names : Names) {operation : Command}
    (h : operation.KeepsFunctionsWhole)
    (hbegin : ∀ returnType params control, operation ≠ .beginFunction returnType params control)
    (hend : operation ≠ .endFunction) :
    Moves (Traced FunctionEvent.HappensInside) (operation.perform names) := by
  by_cases hordinary : operation.IsOrdinary
  · exact inside_law.perform names hordinary
  · cases operation with
    | emit s template => exact inside_law.answerDone (Traced.emit h _)
    | emitResult s opcode operands =>
      exact inside_law.answerId (inside_law.bind inside_law.freshId fun id =>
        inside_law.bind (Traced.emit h _) fun _ => inside_law.pure id)
    | declareType opcode operands => exact inside_law.answerId (Traced.declare opcode none _)
    | declareConstant opcode type operands =>
      exact inside_law.answerId (Traced.declare opcode _ _)
    | label block =>
      exact inside_law.answerDone (pushInner_inside (show opLabel ∉ functionOpcodes by decide))
    | beginFunction returnType params control => exact absurd rfl (hbegin _ _ _)
    | endFunction => exact absurd rfl hend
    | emitBody => exact absurd h hordinary
    | openFunction | closeFunction | pushHead | pushBody => exact h.elim
    | _ => exact absurd trivial hordinary

end SpirvBinary
