import SpirvBinary.Proofs.Calls
import SpirvBinary.Proofs.WholeFunctions

/-!
# The functions of a run

Functions are begun and ended by commands of their own, and by the steps that define a function
around a body.  Which functions a run begins and ends, and which it answers to its callers, can
be told from the calls that it makes: a function is begun where a call for it succeeds, it is
ended where the call for that does, and a caller is answered the function that was begun for
it.  Bodies may begin and end functions on their own, and calls may fail.

A run that opens, fills and closes functions in no other way has a history with just these
beginnings and ends.  So what the function definitions of its draft are, and whether they are
complete, follows from its calls.

## Main definitions

* `FunctionCall` — what is noted of a call that begins or ends a function.
* `Script.functionCalls` — what is noted while a script is carried out.
* `Session.functions` — the functions that the trace of a session answers.
* `Brackets`, `Bracketing` — drafts and sessions are as the notes say.

## Main results

* `Script.bracketing` — the functions of a run are begun, ended and answered as is noted.
* `functions_of_run` — **the function definitions are complete functions, not mixed up.**
-/

namespace SpirvBinary

open Opcode

variable {τ α β : Type}

/-! ### Notes -/

/-- What is noted of the calls that begin and end functions. -/
inductive FunctionCall where
  /-- A function is begun. -/
  | begun (start : Begun)
  /-- The innermost function is ended and written. -/
  | ended
  /-- The innermost function is ended, but an instruction of it is too long to be written. -/
  | broken
  /-- A caller is answered the function that was begun for it. -/
  | answered (function : FunctionDef)
  deriving DecidableEq, Repr

namespace FunctionCall

/-- The event that a note is about.  An `answered` function is none. -/
def event? : FunctionCall → Option FunctionEvent
  | .begun start => some (.begun start)
  | .ended => some .ended
  | .broken => some .broken
  | .answered _ => none

/-- The function that is answered. -/
def answer? : FunctionCall → Option FunctionDef
  | .answered function => some function
  | _ => none

end FunctionCall

/-- The note on beginning a function on the draft `d`. -/
def beginCalls (returnType : Id) (paramTypes : List Id) (control : Word) (d : Draft) :
    List FunctionCall :=
  match Build.beginFunction returnType paramTypes control d with
  | .ok function _ => [.begun ⟨paramTypes, control, function⟩]
  | .error _ _ => []

/-- The note on beginning a function that is defined around a body.  Where no `returnType` is
given, the type of nothing is declared first. -/
def beginNamedCalls (returnType : Option Id) (paramTypes : List Id) (d : Draft) :
    List FunctionCall :=
  match returnType with
  | some type => beginCalls type paramTypes 0 d
  | none =>
      match Build.voidType d with
      | .ok type e => beginCalls type paramTypes 0 e
      | .error _ _ => []

/-- The note on ending a function on the draft `d`.  There is none where no function is open. -/
def endCalls (d : Draft) : List FunctionCall :=
  match Build.endFunction d with
  | .ok _ _ => [.ended]
  | .error (.tooLong _ _) _ => [.broken]
  | .error _ _ => []

/-- The notes on a command that is performed on the draft `d`. -/
def Command.functionCalls (names : Names) (d : Draft) : Command → List FunctionCall
  | .beginFunction returnType params control =>
      match Build.beginFunction (names.id returnType) (params.map names.id) control d with
      | .ok function _ => [.begun ⟨params.map names.id, control, function⟩, .answered function]
      | .error _ _ => []
  | .endFunction => endCalls d
  | _ => []

/-- What is noted while a script is carried out in the session `s`, in order.  A function that
is defined around a body is begun before the body and ended after it, and is answered when
both have succeeded.  The build of another module has functions of its own. -/
def Script.functionCalls (lenient : Bool) : Script τ → Session τ → List FunctionCall
  | .done, _ => []
  | .command mark operation next, s =>
      operation.functionCalls s.names s.draft ++
        callsAfter ((Script.command mark operation .done).run lenient) s
          fun _ t => next.functionCalls lenient t
  | .ifThen mark condition arm next, s =>
      callsAfter (Run.lift (Build.beginIfThen (s.names.id condition))) s
          (fun _ t => arm.functionCalls false t) ++
        callsAfter ((Script.ifThen mark condition arm .done).run lenient) s
          fun _ t => next.functionCalls lenient t
  | .ifThenElse mark condition onTrue onFalse next, s =>
      callsAfter (Run.lift (Build.beginIfThenElse (s.names.id condition))) s
          (fun labels t => onTrue.functionCalls false t ++
            callsAfter (onTrue.run false) t fun _ u =>
              callsAfter (Run.lift (Build.endArm labels.2 labels.1)) u
                fun _ v => onFalse.functionCalls false v) ++
        callsAfter ((Script.ifThenElse mark condition onTrue onFalse .done).run lenient) s
          fun _ t => next.functionCalls lenient t
  | .countedLoop mark count body next, s =>
      callsAfter (Run.lift (Build.beginLoop count)) s
          (fun frame t => callsAfter (Run.bindIndex mark.name frame.index) t
            fun _ u => body.functionCalls false u) ++
        callsAfter ((Script.countedLoop mark count body .done).run lenient) s
          fun _ t => next.functionCalls lenient t
  | .defineFunction mark name returnType params body next, s =>
      let first : Run τ FunctionDef := Run.lift (Build.beginNamedFunction name
        (returnType.map s.names.id) (params.map s.names.id))
      let inside (function : FunctionDef) : Run τ Unit := do
        Run.bindParams mark.name function
        body.run false
      beginNamedCalls (returnType.map s.names.id) (params.map s.names.id) s.draft ++
        callsAfter first s (fun function t =>
          callsAfter (Run.bindParams mark.name function) t (fun _ u =>
            body.functionCalls false u) ++
          callsAfter (inside function) t fun _ u => endCalls u.draft) ++
        callsAfter first s (fun function t => callsAfter (inside function) t fun _ u =>
          callsAfter (Run.lift Build.endFunction) u fun _ _ => [.answered function]) ++
        callsAfter ((Script.defineFunction mark name returnType params body .done).run lenient) s
          fun _ t => next.functionCalls lenient t
  | .build mark plan script next, s =>
      callsAfter ((Script.build mark plan script .done).run lenient) s
        fun _ t => next.functionCalls lenient t

/-! ### Answers -/

/-- The function that a report answers, if its reply is one. -/
def Report.function? : Report τ → Option FunctionDef
  | .step _ (.ok (.function function)) _ => some function
  | _ => none

/-- The functions that the trace of a session answers, in order. -/
def Session.functions (s : Session τ) : List FunctionDef := s.trace.filterMap Report.function?

theorem Session.functions_record (s : Session τ) (report : Report τ) :
    (s.record report).functions = s.functions ++ report.function?.toList := by
  rw [functions, record, trace, List.reverse_cons, List.filterMap_append, functions, trace,
    List.filterMap_cons]
  cases report.function? <;> rfl

/-- The note on a reply. -/
def Reply.functionCalls : Reply → List FunctionCall
  | .function answer => [.answered answer]
  | _ => []

theorem Reply.answered_mem_functionCalls {reply : Reply} {answer : FunctionDef} :
    .answered answer ∈ reply.functionCalls ↔ reply = .function answer := by
  cases reply <;> simp [functionCalls, eq_comm]

/-! ### Drafts are as the notes say -/

/-- From the draft `d` to the draft `e` functions are begun and ended as `calls` says. -/
def Brackets (d : Draft) (calls : List FunctionCall) (e : Draft) : Prop :=
  ∃ past, History FunctionEvent.Happens d past e ∧
    past.filter FunctionEvent.isBracket = (calls.filterMap FunctionCall.event?).reverse

namespace Brackets

variable {d e f : Draft} {calls calls' : List FunctionCall}

theorem refl (d : Draft) : Brackets d [] d := ⟨[], .start, rfl⟩

theorem append (hde : Brackets d calls e) (hef : Brackets e calls' f) :
    Brackets d (calls ++ calls') f := by
  obtain ⟨past, hpast, hcalls⟩ := hde
  obtain ⟨past', hpast', hcalls'⟩ := hef
  refine ⟨past' ++ past, hpast.trans hpast', ?_⟩
  rw [List.filter_append, hcalls, hcalls', List.filterMap_append, List.reverse_append]

/-- What happens inside of functions is not noted. -/
theorem of_inside (h : Traced FunctionEvent.HappensInside d e) : Brackets d [] e := by
  obtain ⟨past, history⟩ := h
  refine ⟨past, history.mono fun h => h.1, List.filter_eq_nil_iff.mpr fun event hevent => ?_⟩
  rw [history.forall_mem (P := fun event => event.isBracket = false) (fun h => h.2) event hevent]
  exact Bool.false_ne_true

/-- A reply does not touch the draft. -/
theorem reply (reply : Reply) (d : Draft) : Brackets d reply.functionCalls d :=
  ⟨[], .start, by cases reply <;> rfl⟩

theorem of_step {call : FunctionCall} (event : FunctionEvent) (h : event.Happens d e)
    (hcall : call.event? = some event) (hevent : event.isBracket = true) :
    Brackets d [call] e := by
  refine ⟨[event], History.start.event h, ?_⟩
  rw [List.filter_cons_of_pos hevent, List.filterMap_cons_some hcall]
  rfl

/-- The computation `x` is noted, and `k` after it happens inside of functions. -/
theorem bind_inside {x : Build α} {k : α → Build β} (hx : Brackets d calls (after x d))
    (hk : ∀ a, Moves (Traced FunctionEvent.HappensInside) (k a)) :
    Brackets d calls (after (x >>= k) d) := by
  cases hrun : x d with
  | ok a e =>
    rw [after_of_ok hrun] at hx
    rw [after_bind_of_ok hrun, ← List.append_nil calls]
    exact hx.append (of_inside (hk a e))
  | error fault e =>
    rw [after_of_error hrun] at hx
    rwa [after_bind_of_error hrun]

/-- A function is begun, or its type is too long to declare and nothing happens. -/
theorem beginFunction (returnType : Id) (paramTypes : List Id) (control : Word) (d : Draft) :
    Brackets d (beginCalls returnType paramTypes control d)
      (after (Build.beginFunction returnType paramTypes control) d) := by
  have hleads := leads_beginFunction returnType paramTypes control d
  rw [beginCalls]
  cases hrun : Build.beginFunction returnType paramTypes control d with
  | ok function e =>
    have hreturn : function.returnType = returnType := (hleads.ok hrun).2.1
    rw [after_of_ok hrun]
    rw [← hreturn] at hrun
    exact of_step (.begun ⟨paramTypes, control, function⟩) hrun rfl rfl
  | error fault e =>
    rw [after_of_error hrun]
    exact of_inside (.of_stages (hleads.error hrun))

/-- A function that is open is closed whether or not all of it can be written. -/
theorem endFunction (d : Draft) : Brackets d (endCalls d) (after Build.endFunction d) := by
  rw [endCalls]
  cases hopen : d.openFunctions with
  | nil =>
    have hrun := endFunction_of_closed hopen
    rw [hrun, after_of_error hrun]
    exact refl d
  | cons innermost outer =>
    obtain ⟨e, hwrites, -⟩ := endFunction_writes hopen
    rcases Instruction.all_fit_or_first (innermost.instructions ++ [.functionEnd]) with
      hfits | ⟨kept, inst, rest, heq, hkept, hinst⟩
    · have hrun := hwrites.ok hfits
      rw [hrun, after_of_ok hrun]
      exact of_step .ended hrun rfl rfl
    · have hrun := hwrites.error kept inst rest heq hkept hinst
      rw [hrun, after_of_error hrun]
      exact of_step .broken ⟨by rw [hopen]; exact List.cons_ne_nil _ _, _, hrun⟩ rfl rfl

theorem beginNamed (name : Option String) (paramTypes : List Id) (returnType : Id) (d : Draft) :
    Brackets d (beginCalls returnType paramTypes 0 d)
      (after (Build.beginNamed name paramTypes returnType) d) := by
  refine (beginFunction returnType paramTypes 0 d).bind_inside fun function => ?_
  cases name with
  | some name =>
    exact inside_law.bind (inside_law.nameId function.id name) fun _ => inside_law.pure function
  | none => exact inside_law.pure function

theorem beginNamedFunction (name : Option String) (returnType : Option Id)
    (paramTypes : List Id) (d : Draft) :
    Brackets d (beginNamedCalls returnType paramTypes d)
      (after (Build.beginNamedFunction name returnType paramTypes) d) := by
  cases returnType with
  | some type => exact beginNamed name paramTypes type d
  | none =>
    rw [Build.beginNamedFunction_none, beginNamedCalls]
    have hvoid := inside_law.voidType d
    cases hrun : Build.voidType d with
    | ok type e =>
      rw [after_of_ok hrun] at hvoid
      rw [after_bind_of_ok hrun]
      exact (of_inside hvoid).append (beginNamed name paramTypes type e)
    | error fault e =>
      rw [after_of_error hrun] at hvoid
      rw [after_bind_of_error hrun]
      exact of_inside hvoid

end Brackets

/-! ### Sessions are as the notes say -/

/-- From the session `s` to the session `t` functions are begun and ended as `calls` says, the
answers of `calls` are added to the trace, and whatever is answered has been begun. -/
structure Bracketing (s : Session τ) (calls : List FunctionCall) (t : Session τ) : Prop where
  brackets : Brackets s.draft calls t.draft
  answers : t.functions = s.functions ++ calls.filterMap FunctionCall.answer?
  begun : ∀ function, .answered function ∈ calls →
    ∃ start, .begun start ∈ calls ∧ start.function = function

namespace Bracketing

variable {s t : Session τ} {calls : List FunctionCall}

theorem chain : Chain (Bracketing : Session τ → List FunctionCall → Session τ → Prop) where
  refl s := ⟨.refl s.draft, (List.append_nil _).symm, fun _ h => nomatch h⟩
  append {s t u calls calls'} h h' := by
    refine ⟨h.brackets.append h'.brackets, ?_, fun function hmem => ?_⟩
    · rw [h'.answers, h.answers, List.filterMap_append, List.append_assoc]
    · rcases List.mem_append.mp hmem with hmem | hmem
      · obtain ⟨start, hstart, hfunction⟩ := h.begun function hmem
        exact ⟨start, List.mem_append_left _ hstart, hfunction⟩
      · obtain ⟨start, hstart, hfunction⟩ := h'.begun function hmem
        exact ⟨start, List.mem_append_right _ hstart, hfunction⟩

/-- Carried out on the draft of a session, `action` answers nothing by itself. -/
theorem lift {action : Build α} (h : Brackets s.draft calls (after action s.draft))
    (hnone : ∀ function, .answered function ∉ calls) :
    Bracketing s calls (after (Run.lift action) s) := by
  have hanswers : calls.filterMap FunctionCall.answer? = [] := by
    refine List.filterMap_eq_nil_iff.mpr fun call hcall => ?_
    cases call with
    | answered function => exact absurd hcall (hnone function)
    | _ => rfl
  rw [Run.after_lift]
  exact ⟨h, by rw [hanswers, List.append_nil]; rfl, fun function hmem => absurd hmem (hnone _)⟩

theorem lift_inside {action : Build α}
    (h : Moves (Traced FunctionEvent.HappensInside) action) (s : Session τ) :
    Bracketing s [] (after (Run.lift action) s) :=
  lift (.of_inside (h s.draft)) fun _ hmem => nomatch hmem

theorem bindIndex (name : Option String) (index : Id) (s : Session τ) :
    Bracketing s [] (after (Run.bindIndex name index) s) := by
  cases name <;> exact ⟨.refl _, (List.append_nil _).symm, fun _ hmem => nomatch hmem⟩

theorem bindParams (name : Option String) (function : FunctionDef) (s : Session τ) :
    Bracketing s [] (after (Run.bindParams name function) s) := by
  cases name <;> exact ⟨.refl _, (List.append_nil _).symm, fun _ hmem => nomatch hmem⟩

/-- A report that answers no function is recorded. -/
theorem record (h : Bracketing s calls t) {report : Report τ} (hnone : report.function? = none) :
    Bracketing s calls (t.record report) := by
  refine ⟨h.brackets, ?_, h.begun⟩
  rw [Session.functions_record, hnone, Option.toList_none, List.append_nil]
  exact h.answers

/-- The `reply` is recorded.  If it is a function, that has been begun. -/
theorem record_reply (h : Bracketing s calls t) {reply : Reply}
    (hbegun : ∀ answer, reply = .function answer →
      ∃ start, .begun start ∈ calls ∧ start.function = answer) (tag : τ) (gauge : Gauge) :
    Bracketing s (calls ++ reply.functionCalls) (t.record (.step tag (.ok reply) gauge)) := by
  refine ⟨h.brackets.append (.reply reply t.draft), ?_, fun answer hmem => ?_⟩
  · rw [Session.functions_record, h.answers, List.filterMap_append, List.append_assoc]
    cases reply <;> rfl
  · have hstart : ∃ start, .begun start ∈ calls ∧ start.function = answer := by
      rcases List.mem_append.mp hmem with hmem | hmem
      · exact h.begun answer hmem
      · exact hbegun answer (Reply.answered_mem_functionCalls.mp hmem)
    obtain ⟨start, hmem, hfunction⟩ := hstart
    exact ⟨start, List.mem_append_left _ hmem, hfunction⟩

/-- A step that replies `reply a`, where `a` is the result of the computation `x`. -/
theorem attempt {x : Run τ α} (reply : α → Reply) (tolerant : Bool) (mark : Mark τ)
    (h : Bracketing s calls (after x s))
    (hbegun : ∀ a t, x s = .ok a t → ∀ answer, reply a = .function answer →
      ∃ start, .begun start ∈ calls ∧ start.function = answer) :
    Bracketing s (calls ++ callsAfter x s fun a _ => (reply a).functionCalls)
      (after (Run.attempt tolerant mark (x >>= fun a => Run.answer mark (reply a))) s) := by
  cases hrun : x s with
  | error fault t =>
    rw [after_of_error hrun] at h
    have hafter : after (Run.attempt tolerant mark (x >>= fun a => Run.answer mark (reply a))) s
        = t.record (.step mark.tag (.error fault) t.draft.gauge) := by
      have hstep := bind_of_error (k := fun a => Run.answer mark (reply a)) hrun
      simp only [after, Run.attempt, hstep]
      cases tolerant || mark.tolerant <;> rfl
    rw [hafter, callsAfter, hrun, List.append_nil]
    exact h.record rfl
  | ok a t =>
    rw [after_of_ok hrun] at h
    -- at most the name of the step is bound before its reply is recorded
    obtain ⟨names, hanswer⟩ : ∃ names, Run.answer mark (reply a) t
        = .ok (.step mark.tag (.ok (reply a))) { t with names := names } := by
      cases hname : mark.name with
      | none => exact ⟨t.names, by rw [Run.answer, hname]; rfl⟩
      | some name =>
        rw [Run.answer, hname]
        cases reply a <;> exact ⟨_, rfl⟩
    have hafter : after (Run.attempt tolerant mark (x >>= fun a => Run.answer mark (reply a))) s
        = ({ t with names := names } : Session τ).record
            (.step mark.tag (.ok (reply a)) t.draft.gauge) := by
      have hstep : (x >>= fun a => Run.answer mark (reply a)) s = _ :=
        (bind_of_ok hrun).trans hanswer
      simp only [after, Run.attempt, hstep]
    have hnamed : Bracketing s calls { t with names := names } := ⟨h.brackets, h.answers, h.begun⟩
    rw [hafter, callsAfter, hrun]
    exact hnamed.record_reply (hbegun a t hrun) _ _

/-- A step that reads the session first is noted as what it does with it. -/
theorem attempt_get_bind {k : Session τ → Run τ (Gauge → Report τ)} {tolerant : Bool}
    {mark : Mark τ} (h : Bracketing s calls (after (Run.attempt tolerant mark (k s)) s)) :
    Bracketing s calls (after (Run.attempt tolerant mark (MonadState.get >>= k)) s) := h

/-- The build of another module answers no function of this one. -/
theorem attempt_built (tolerant : Bool) (mark : Mark τ) (built : Built τ) (s : Session τ) :
    Bracketing s [] (after (Run.attempt tolerant mark (Run.answerBuilt mark built)) s) := by
  have hnoted : Bracketing s [] { s with
      draft := { s.draft with journal := built.events.reverse ++ s.draft.journal } } :=
    ⟨.of_inside (inside_law.journal s.draft _), (List.append_nil _).symm,
      fun _ hmem => nomatch hmem⟩
  cases houtcome : built.outcome with
  | ok binary =>
    simp only [after, Run.attempt, Run.answerBuilt, houtcome]
    exact hnoted.record rfl
  | error fault =>
    simp only [after, Run.attempt, Run.answerBuilt, houtcome]
    cases tolerant || mark.tolerant <;> exact hnoted.record rfl

end Bracketing

/-! ### Runs -/

theorem answered_not_mem_beginCalls {returnType : Id} {paramTypes : List Id} {control : Word}
    {d : Draft} (function : FunctionDef) :
    .answered function ∉ beginCalls returnType paramTypes control d := by
  rw [beginCalls]
  split <;> simp

theorem answered_not_mem_beginNamedCalls {returnType : Option Id} {paramTypes : List Id}
    {d : Draft} (function : FunctionDef) :
    .answered function ∉ beginNamedCalls returnType paramTypes d := by
  cases returnType with
  | some type => exact answered_not_mem_beginCalls function
  | none =>
    rw [beginNamedCalls]
    split
    · exact answered_not_mem_beginCalls function
    · exact List.not_mem_nil

theorem answered_not_mem_endCalls {d : Draft} (function : FunctionDef) :
    .answered function ∉ endCalls d := by
  rw [endCalls]
  split <;> simp

/-- A function that `beginNamedFunction` gives has been begun. -/
theorem exists_begun_of_beginNamedFunction {name : Option String} {returnType : Option Id}
    {paramTypes : List Id} {d e : Draft} {function : FunctionDef}
    (h : Build.beginNamedFunction name returnType paramTypes d = .ok function e) :
    ∃ start, .begun start ∈ beginNamedCalls returnType paramTypes d ∧
      start.function = function := by
  have hbegin : ∀ {type d}, Build.beginNamed name paramTypes type d = .ok function e →
      ∃ start, .begun start ∈ beginCalls type paramTypes 0 d ∧ start.function = function := by
    intro type d hrun
    obtain ⟨begun, c, hbegun, hname⟩ := exists_of_bind_ok hrun
    have hsame : begun = function := by
      cases name with
      | none => cases hname; rfl
      | some name =>
        obtain ⟨_, _, _, hpure⟩ := exists_of_bind_ok hname
        cases hpure
        rfl
    refine ⟨⟨paramTypes, 0, begun⟩, ?_, hsame⟩
    rw [beginCalls, hbegun]
    exact List.mem_singleton_self _
  cases returnType with
  | some type => exact hbegin h
  | none =>
    rw [Build.beginNamedFunction_none] at h
    obtain ⟨type, c, hvoid, hrun⟩ := exists_of_bind_ok h
    rw [beginNamedCalls, hvoid]
    exact hbegin hrun

/-- The only command that replies a function is `beginFunction`. -/
theorem Command.eq_beginFunction {names : Names} {operation : Command} {d e : Draft}
    {function : FunctionDef} (h : operation.perform names d = .ok (.function function) e) :
    ∃ returnType params control, operation = .beginFunction returnType params control := by
  cases operation with
  | beginFunction returnType params control => exact ⟨_, _, _, rfl⟩
  | _ =>
    obtain ⟨_, _, _, hreply⟩ := exists_of_bind_ok h
    cases hreply

/-- A command that begins no function replies none. -/
theorem callsAfter_perform_eq_nil {operation : Command} (s : Session τ)
    (hbegin : ∀ returnType params control,
      operation ≠ .beginFunction returnType params control) :
    callsAfter (Run.lift (operation.perform s.names)) s (fun reply _ => reply.functionCalls)
      = [] := by
  cases hrun : (Run.lift (operation.perform s.names) : Run τ Reply) s with
  | error fault t => rw [callsAfter, hrun]
  | ok reply t =>
    rw [callsAfter, hrun]
    cases reply with
    | function answer =>
      obtain ⟨_, _, _, rfl⟩ := Command.eq_beginFunction (Run.lift_eq_ok hrun)
      exact absurd rfl (hbegin _ _ _)
    | _ => rfl

/-- A command that begins a function notes it, and answers it. -/
theorem functionCalls_beginFunction (returnType : Ref) (params : List Ref) (control : Word)
    (s : Session τ) :
    let operation := Command.beginFunction returnType params control
    operation.functionCalls s.names s.draft
      = beginCalls (s.names.id returnType) (params.map s.names.id) control s.draft ++
        callsAfter (Run.lift (operation.perform s.names)) s
          fun reply _ => reply.functionCalls := by
  intro operation
  have hperform : operation.perform s.names
      = Build.beginFunction (s.names.id returnType) (params.map s.names.id) control >>=
          fun function => pure (.function function) := rfl
  cases hrun : Build.beginFunction (s.names.id returnType) (params.map s.names.id) control
      s.draft with
  | ok function e =>
    simp only [operation, Command.functionCalls, beginCalls, callsAfter, Run.lift, hperform,
      bind_of_ok hrun, hrun]
    rfl
  | error fault e =>
    simp only [operation, Command.functionCalls, beginCalls, callsAfter, Run.lift, hperform,
      bind_of_error hrun, hrun]
    rfl

/-- A command begins, ends and answers functions as is noted. -/
theorem Command.bracketing {operation : Command} (h : operation.KeepsFunctionsWhole)
    (tolerant : Bool) (mark : Mark τ) (s : Session τ) :
    Bracketing s (operation.functionCalls s.names s.draft)
      (after (Run.attempt tolerant mark
        (Run.lift (operation.perform s.names) >>= fun reply => Run.answer mark reply)) s) := by
  by_cases hbegin : ∃ returnType params control,
      operation = .beginFunction returnType params control
  · obtain ⟨returnType, params, control, rfl⟩ := hbegin
    have hbrackets : Brackets s.draft
        (beginCalls (s.names.id returnType) (params.map s.names.id) control s.draft)
        (after ((Command.beginFunction returnType params control).perform s.names) s.draft) :=
      (Brackets.beginFunction _ _ control s.draft).bind_inside fun function => inside_law.pure _
    rw [functionCalls_beginFunction]
    refine (Bracketing.lift hbrackets answered_not_mem_beginCalls).attempt id tolerant mark ?_
    intro reply t hrun answer hreply
    obtain ⟨function, e, hfunction, hpure⟩ := exists_of_bind_ok (Run.lift_eq_ok hrun)
    cases hpure
    cases hreply
    refine ⟨⟨params.map s.names.id, control, answer⟩, ?_, rfl⟩
    rw [beginCalls, hfunction]
    exact List.mem_singleton_self _
  · have hother : ∀ returnType params control,
        operation ≠ .beginFunction returnType params control :=
      fun returnType params control heq => hbegin ⟨returnType, params, control, heq⟩
    have hbrackets : Brackets s.draft (operation.functionCalls s.names s.draft)
        (after (operation.perform s.names) s.draft) := by
      by_cases hend : operation = .endFunction
      · subst hend
        exact (Brackets.endFunction s.draft).bind_inside fun _ => inside_law.pure _
      · have hinside := Brackets.of_inside (perform_inside s.names h hother hend s.draft)
        cases operation with
        | beginFunction => exact absurd rfl (hother _ _ _)
        | endFunction => exact absurd rfl hend
        | _ => exact hinside
    have hnone : ∀ answer, .answered answer ∉ operation.functionCalls s.names s.draft := by
      intro answer
      cases operation with
      | beginFunction => exact absurd rfl (hother _ _ _)
      | endFunction => exact answered_not_mem_endCalls answer
      | _ => exact List.not_mem_nil
    rw [← List.append_nil (operation.functionCalls s.names s.draft),
      ← callsAfter_perform_eq_nil s hother]
    refine (Bracketing.lift hbrackets hnone).attempt id tolerant mark ?_
    intro reply t hrun answer hreply
    obtain ⟨_, _, _, heq⟩ := Command.eq_beginFunction ((Run.lift_eq_ok hrun).trans
      (congrArg (fun reply => EStateM.Result.ok reply t.draft) hreply))
    exact absurd heq (hother _ _ _)

/-- A step whose `reply` is no function adds nothing to the notes of what it does. -/
theorem Bracketing.attempt_of_ne {x : Run τ α} (reply : α → Reply)
    (hreply : ∀ a answer, reply a ≠ .function answer) {calls : List FunctionCall}
    {s : Session τ} (h : Bracketing s calls (after x s)) (tolerant : Bool) (mark : Mark τ) :
    Bracketing s calls
      (after (Run.attempt tolerant mark (x >>= fun a => Run.answer mark (reply a))) s) := by
  have hnone : ∀ a, (reply a).functionCalls = [] := by
    intro a
    cases heq : reply a with
    | function answer => exact absurd heq (hreply a answer)
    | _ => rfl
  have hstep := h.attempt reply tolerant mark fun a _ _ answer heq => absurd heq (hreply a answer)
  simp only [hnone] at hstep
  rwa [callsAfter_nil, List.append_nil] at hstep

/-- A function that is defined around what is done `inside` is begun, ended and answered as is
noted. -/
theorem Bracketing.defineFunction {calls : FunctionDef → Session τ → List FunctionCall}
    {inside : FunctionDef → Run τ Unit}
    (hinside : ∀ function t, Bracketing t (calls function t) (after (inside function) t))
    (name : Option String) (returnType : Option Id) (paramTypes : List Id) (tolerant : Bool)
    (mark : Mark τ) (s : Session τ) :
    let first : Run τ FunctionDef :=
      Run.lift (Build.beginNamedFunction name returnType paramTypes)
    Bracketing s
      (beginNamedCalls returnType paramTypes s.draft ++
        callsAfter first s (fun function t => calls function t ++
          callsAfter (inside function) t fun _ u => endCalls u.draft) ++
        callsAfter first s fun function t => callsAfter (inside function) t fun _ u =>
          callsAfter (Run.lift Build.endFunction) u fun _ _ => [.answered function])
      (after (Run.attempt tolerant mark
        (Build.defineFunction name returnType paramTypes inside >>=
          fun function => Run.answer mark (.function function))) s) := by
  intro first
  let whole : Run τ FunctionDef := do
    let function ← first
    inside function
    Run.lift Build.endFunction
    return function
  have hfirst : Bracketing s (beginNamedCalls returnType paramTypes s.draft) (after first s) :=
    .lift (.beginNamedFunction name returnType paramTypes s.draft)
      answered_not_mem_beginNamedCalls
  have hwhole : Bracketing s
      (beginNamedCalls returnType paramTypes s.draft ++
        callsAfter first s fun function t => calls function t ++
          callsAfter (inside function) t fun _ u => endCalls u.draft) (after whole s) := by
    refine Bracketing.chain.bind hfirst fun function t _ => ?_
    refine Bracketing.chain.bind (hinside function t) fun _ u _ => ?_
    exact Bracketing.chain.bind_left
      (.lift (.endFunction u.draft) answered_not_mem_endCalls) fun _ v => chain.refl v
  have hanswered : callsAfter whole s (fun function _ => [FunctionCall.answered function])
      = callsAfter first s fun function t => callsAfter (inside function) t fun _ u =>
          callsAfter (Run.lift Build.endFunction) u fun _ _ => [.answered function] := by
    simp only [whole, callsAfter_bind]
    rfl
  rw [← hanswered]
  refine hwhole.attempt Reply.function tolerant mark fun function t hrun answer heq => ?_
  obtain ⟨begun, u, hbegun, hrest⟩ := exists_of_bind_ok hrun
  obtain ⟨start, hstart, hfunction⟩ :=
    exists_begun_of_beginNamedFunction (Run.lift_eq_ok hbegun)
  -- what is answered is the function that was begun, whatever its body has done
  have hsame : function = begun := by
    obtain ⟨_, _, _, hrest⟩ := exists_of_bind_ok hrest
    obtain ⟨_, _, _, hrest⟩ := exists_of_bind_ok hrest
    cases hrest
    rfl
  cases heq
  exact ⟨start, List.mem_append_left _ hstart, hfunction.trans hsame.symm⟩

/-- The functions of a run are begun, ended and answered as `functionCalls` notes. -/
theorem Script.bracketing {script : Script τ} (huses : script.Uses Command.KeepsFunctionsWhole)
    (lenient : Bool) (s : Session τ) :
    Bracketing s (script.functionCalls lenient s) (after (script.run lenient) s) := by
  have chain : Chain (Bracketing : Session τ → List FunctionCall → Session τ → Prop) :=
    Bracketing.chain
  induction script generalizing lenient s with
  | done => exact chain.refl s
  | command mark operation next ih =>
    refine chain.next (.attempt_get_bind ?_) fun t => ih huses.2 lenient t
    exact operation.bracketing huses.1 lenient mark s
  | ifThen mark condition arm next iharm ih =>
    refine chain.next (.attempt_get_bind (.attempt_of_ne (fun _ => .done)
      (fun _ _ h => nomatch h) ?_ lenient mark)) fun t => ih huses.2 lenient t
    refine chain.bind_right (.lift_inside (inside_body.beginIfThen _) s) fun merge t _ => ?_
    exact chain.bind_left (iharm huses.1 false t) fun _ u =>
      .lift_inside (inside_body.endArm merge merge) u
  | ifThenElse mark condition onTrue onFalse next ihtrue ihfalse ih =>
    refine chain.next (.attempt_get_bind (.attempt_of_ne (fun _ => .done)
      (fun _ _ h => nomatch h) ?_ lenient mark)) fun t => ih huses.2.2 lenient t
    refine chain.bind_right (.lift_inside (inside_body.beginIfThenElse _) s) fun labels t _ => ?_
    refine chain.bind (ihtrue huses.1 false t) fun _ u _ => ?_
    refine chain.bind_right (.lift_inside (inside_body.endArm labels.2 labels.1) u)
      fun _ v _ => ?_
    exact chain.bind_left (ihfalse huses.2.1 false v) fun _ w =>
      .lift_inside (inside_body.endArm labels.2 labels.2) w
  | countedLoop mark count body next ihbody ih =>
    refine chain.next (Bracketing.attempt_of_ne Reply.index (fun _ _ h => nomatch h) ?_
      lenient mark) fun t => ih huses.2 lenient t
    refine chain.bind_right (.lift_inside (inside_body.beginLoop inside_law.toConstantParts
      inside_law.localVariable count) s) fun frame t _ => ?_
    refine chain.bind_left ?_ fun _ u => chain.bind_left
      (.lift_inside (inside_body.endLoop frame) u) fun _ v => chain.refl v
    exact chain.bind_right (.bindIndex mark.name frame.index t) fun _ u _ => ihbody huses.1 false u
  | defineFunction mark name returnType params body next ihbody ih =>
    refine chain.next (.attempt_get_bind (.defineFunction (fun function t => ?_) name _ _ lenient
      mark s)) fun t => ih huses.2 lenient t
    exact chain.bind_right (.bindParams mark.name function t) fun _ u _ => ihbody huses.1 false u
  | build mark plan script next _ ih =>
    exact chain.next (Bracketing.attempt_built lenient mark _ s) fun t => ih huses lenient t

/-! ### The function definitions of a run -/

/-- **The function definitions are complete functions, not mixed up.**  Take a run that opens,
fills and closes functions only by beginning and ending them, and the `calls` that are noted
in it.  The functions that the trace answers are the noted answers, each of which has been
begun.  The run is a sequence of `events`, with declarations between them, whose beginnings and
ends are those that are noted.  The function definitions are those of the functions that were
ended, in this order: for each, what it begins with, the variables and then the instructions
that were added while it was the innermost one, and its end, up to the first instruction that
is too long.  If no function was too long to be written when it was ended, the words of the
section split into all instructions of all these functions.  The parameters of each are of the
types it was asked for, its type is declared with them, nothing but variables stands between
its entry label and its body, and nothing in its body begins or ends a function.  The module
can be finished exactly when each function that was begun is one of these, once. -/
theorem functions_of_run {script : Script τ} (huses : script.Uses Command.KeepsFunctionsWhole)
    (settings : Settings) (lenient : Bool) :
    let start : Session τ := { draft := { settings := settings } }
    let calls := script.functionCalls lenient start
    let brackets := (calls.filterMap FunctionCall.event?).reverse
    let d := script.draftAfter settings lenient
    (after (script.run lenient) start).functions = calls.filterMap FunctionCall.answer? ∧
    (∀ function, .answered function ∈ calls →
      ∃ start, .begun start ∈ calls ∧ start.function = function) ∧
    ∃ events, History FunctionEvent.Happens { settings := settings } events d ∧
      events.filter FunctionEvent.isBracket = brackets ∧
      let functions := functionScheme.closed events
      functions.map Content.function = (functionScheme.closed brackets).map Content.function ∧
      d.definitions = (functions.flatMap fun content =>
        content.definition.takeWhile fun inst => inst.Fits) ∧
      (.broken ∉ calls →
        Reader.drain ⟨d.layout.sectionWords .functionDefinitions, 0⟩
          = ((functions.flatMap Content.definition).map fun inst => .ok inst.chunk,
              ⟨[], (d.layout.sectionWords .functionDefinitions).length⟩)) ∧
      (∀ content ∈ functions, content.WellFormed d) ∧
      ((∃ binary e, Build.finish d = .ok binary e) ↔
        (functions.map Content.function).Perm (functionScheme.opened brackets)) := by
  intro start calls brackets d
  obtain ⟨⟨events, history, hsame⟩, hanswers, hbegun⟩ := script.bracketing huses lenient start
  have hevents : events.filter FunctionEvent.isBracket = brackets := hsame
  have hbracket : ∀ event : FunctionEvent, event.isBracket = false →
      ∃ head body, functionScheme.kind event = .inner head body :=
    fun event => event.kind_of_not_isBracket
  refine ⟨hanswers, hbegun, events, history, hevents, ?_, history.definitions_eq, fun hbroken => ?_,
    fun content h => history.wellFormed h, ?_⟩
  · rw [← hevents, Scheme.closed_filter hbracket]
  · refine history.drain_definitions fun hmem => hbroken ?_
    -- an end that failed is noted as such
    have hnoted : FunctionEvent.broken ∈ brackets := by
      rw [← hevents]
      exact List.mem_filter.mpr ⟨hmem, rfl⟩
    obtain ⟨call, hcall, hevent⟩ := List.mem_filterMap.mp (List.mem_reverse.mp hnoted)
    cases call with
    | broken => exact hcall
    | _ => cases hevent
  · rw [← hevents, Scheme.opened_filter hbracket]
    exact history.finish_iff

/-- A function is defined inside of one that was begun before.  In its body a lookup fails, and
the function is ended there already, so that its own end is the end of the outer one. -/
def endedInBody : Script Unit :=
  .command ⟨(), none, false⟩ (.beginFunction (.given ⟨1⟩) [.given ⟨2⟩] 0) <|
  .command ⟨(), none, false⟩ (.store (.given ⟨3⟩) (.given ⟨3⟩)) <|
  .defineFunction ⟨(), none, false⟩ (some "inner") none []
    (.command ⟨(), none, true⟩ (.structPointer "Missing" 2) <|
    .command ⟨(), none, false⟩ .returnVoid <|
    .command ⟨(), none, false⟩ .endFunction <|
    .command ⟨(), none, false⟩ .returnVoid .done) <|
  .command ⟨(), none, true⟩ .endFunction .done

theorem functions_of_run_endedInBody :
    let outer : FunctionDef := ⟨⟨2⟩, ⟨1⟩, ⟨1⟩, [⟨⟨3⟩, ⟨2⟩⟩], ⟨4⟩⟩
    let inner : FunctionDef := ⟨⟨7⟩, ⟨5⟩, ⟨6⟩, [], ⟨8⟩⟩
    let d := endedInBody.draftAfter {} false
    endedInBody.Uses Command.KeepsFunctionsWhole ∧
    endedInBody.functionCalls false {}
      = [.begun ⟨[⟨2⟩], 0, outer⟩, .answered outer, .begun ⟨[], 0, inner⟩, .ended, .ended,
         .answered inner] ∧
    (after (endedInBody.run false) {}).functions = [outer, inner] ∧
    ∃ events, History FunctionEvent.Happens {} events d ∧
      (functionScheme.closed events).map Content.function = [⟨[], 0, inner⟩, ⟨[⟨2⟩], 0, outer⟩] ∧
      Reader.drain ⟨d.layout.sectionWords .functionDefinitions, 0⟩
        = (((functionScheme.closed events).flatMap Content.definition).map
            fun inst => .ok inst.chunk,
            ⟨[], (d.layout.sectionWords .functionDefinitions).length⟩) ∧
      d.definitions.map Instruction.opcode
        = [opFunction, opLabel, opReturn, opFunctionEnd,
           opFunction, opFunctionParameter, opLabel, opStore, opReturn, opFunctionEnd] ∧
      ∃ binary e, Build.finish d = .ok binary e := by
  intro outer inner d
  have huses : endedInBody.Uses Command.KeepsFunctionsWhole := by
    simp [endedInBody, Script.Uses, Command.KeepsFunctionsWhole]
  have hcalls : endedInBody.functionCalls false {}
      = [.begun ⟨[⟨2⟩], 0, outer⟩, .answered outer, .begun ⟨[], 0, inner⟩, .ended, .ended,
         .answered inner] := by
    decide +kernel
  have hopcodes : (endedInBody.draftAfter {} false).definitions.map Instruction.opcode
      = [opFunction, opLabel, opReturn, opFunctionEnd,
         opFunction, opFunctionParameter, opLabel, opStore, opReturn, opFunctionEnd] := by
    decide +kernel
  obtain ⟨hanswers, -, events, history, -, hclosed, -, hdrain, -, hfinish⟩ :=
    functions_of_run huses {} false
  have hbroken : .broken ∉ endedInBody.functionCalls false {} := by
    rw [hcalls]
    simp
  rw [hcalls] at hanswers hclosed hfinish
  refine ⟨huses, hcalls, hanswers, events, history, hclosed, hdrain hbroken, hopcodes,
    hfinish.mpr ?_⟩
  rw [hclosed]
  exact .refl _

end SpirvBinary
