import SpirvBinary.Proofs.Runs

/-!
# What is appended in a run

A build writes by appending one instruction to one section, and an append succeeds or is
refused.  The *log* of a computation lists the appends that succeed while it is carried out,
each with its section and its instruction, in the order in which they are made.  It is read
off the steps of the computation: where the computation stops, or goes on, after a failure,
and which appends it makes on which drafts.  The layout is not asked for it.

Every run has exactly one log, and the log is what the run adds to the layout: no append that
succeeded is lost, put elsewhere or out of order, and nothing is added in any other way.

## Main definitions

* `Build.Appends` — `Appends x d log` says that `log` is the log of `x` on the draft `d`.
* `Run.Appends` — the same for what is carried out in a session.
* `Build.Logged` — a computation has a log on every draft.

## Main results

* `Build.Appends.entries_after`, `Run.Appends.entries_after` — the entries of the layout grow
  by the log.
* `Build.Logged.parts` — the parts of all operations have logs.
* `Script.appends_iff` — every run has exactly one log.
-/

namespace SpirvBinary

variable {τ α β : Type}

/-! ### Logs of computations on a draft -/

/-- Carried out on the draft `d`, the computation `x` makes the successful appends `log`. -/
inductive Build.Appends :
    {α : Type} → Build α → Draft → List (Section × Instruction) → Prop
  /-- An append of `inst` to the section `s` that succeeds is logged. -/
  | appended {s : Section} {inst : Instruction} {d : Draft} {layout : Layout}
      (h : d.layout.append s inst = .ok layout) : Appends (Build.emit s inst) d [(s, inst)]
  /-- An append that is refused is not. -/
  | refused {s : Section} {inst : Instruction} {d : Draft} {fault : Fault}
      (h : d.layout.append s inst = .error fault) : Appends (Build.emit s inst) d []
  | pure {α : Type} (a : α) (d : Draft) : Appends (Pure.pure a) d []
  | throw {α : Type} (fault : Fault) (d : Draft) : Appends (MonadExcept.throw fault : Build α) d []
  | get (d : Draft) : Appends MonadState.get d []
  /-- Anything but the layout may be changed. -/
  | modifyGet {α : Type} {f : Draft → α × Draft} {d : Draft}
      (h : (f d).2.layout = d.layout) : Appends (MonadState.modifyGet f) d []
  | set {d e : Draft} (h : e.layout = d.layout) : Appends (MonadState.set e) d []
  /-- What `k` does after a success of `x` is logged after it. -/
  | bind_ok {α β : Type} {x : Build α} {k : α → Build β} {d e : Draft} {a : α}
      {log log' : List (Section × Instruction)} (run : x d = .ok a e) (first : Appends x d log)
      (second : Appends (k a) e log') : Appends (x >>= k) d (log ++ log')
  /-- A failure of `x` ends a computation, and its log. -/
  | bind_error {α β : Type} {x : Build α} {k : α → Build β} {d e : Draft} {fault : Fault}
      {log : List (Section × Instruction)} (run : x d = .error fault e)
      (first : Appends x d log) : Appends (x >>= k) d log

/-- The entries of the layout grow by the `log`. -/
theorem Build.Appends.entries_after {x : Build α} {d : Draft}
    {log : List (Section × Instruction)} (h : Appends x d log) :
    (after x d).layout.entries = d.layout.entries ++ log := by
  induction h with
  | appended h =>
    rw [after_of_ok (Build.emit_of_append h)]
    exact (Layout.entries_append h).1
  | refused h =>
    rw [after_of_error (Build.emit_of_append_error h), List.append_nil]
  | pure a d => exact (List.append_nil _).symm
  | throw fault d => exact (List.append_nil _).symm
  | get d => exact (List.append_nil _).symm
  | @modifyGet α f d h =>
    change (f d).2.layout.entries = _
    rw [h, List.append_nil]
  | @set d e h =>
    change e.layout.entries = _
    rw [h, List.append_nil]
  | bind_ok run _ _ ih ih' =>
    rw [after_bind_of_ok run, ih', ← after_of_ok run, ih, List.append_assoc]
  | bind_error run _ ih =>
    rw [after_bind_of_error run, ← after_of_error run, ih]

/-- On every draft the computation `x` has a log. -/
def Build.Logged (x : Build α) : Prop := ∀ d, ∃ log, Build.Appends x d log

namespace Build.Logged

open Build (Appends)

theorem bind {x : Build α} {k : α → Build β} (hx : Logged x) (hk : ∀ a, Logged (k a)) :
    Logged (x >>= k) := by
  intro d
  obtain ⟨log, hlog⟩ := hx d
  cases hrun : x d with
  | ok a e =>
    obtain ⟨log', hlog'⟩ := hk a e
    exact ⟨log ++ log', .bind_ok hrun hlog hlog'⟩
  | error fault e => exact ⟨log, .bind_error hrun hlog⟩

theorem composes : Composes Logged := ⟨fun a d => ⟨[], .pure a d⟩, bind⟩

/-- A computation that reads the draft `d` first has the log of `k d`. -/
theorem get_bind {k : Draft → Build α} (h : ∀ d, ∃ log, Appends (k d) d log) :
    Logged (MonadState.get >>= k) := by
  intro d
  obtain ⟨log, hlog⟩ := h d
  exact ⟨[] ++ log, .bind_ok rfl (.get d) hlog⟩

theorem emit (s : Section) (inst : Instruction) : Logged (Build.emit s inst) := by
  intro d
  cases h : d.layout.append s inst with
  | ok layout => exact ⟨_, .appended h⟩
  | error fault => exact ⟨_, .refused h⟩

theorem modifyGet {f : Draft → α × Draft} (h : ∀ d, (f d).2.layout = d.layout) :
    Logged (MonadState.modifyGet f) := fun d => ⟨[], .modifyGet (h d)⟩

theorem log (event : Event) : Logged (Build.log event) := modifyGet fun _ => rfl

theorem findType (key : DeclarationKey) : Logged (Build.findType key) := by
  refine get_bind fun d => ?_
  cases d.known.type? key with
  | some id => exact bind (log _) (fun _ => composes.pure _) d
  | none => exact composes.pure _ d

theorem structType (name : String) : Logged (Build.structType name) := by
  refine get_bind fun d => ?_
  cases d.known.struct name with
  | ok id => exact composes.pure id d
  | error fault => exact ⟨[], .throw fault d⟩

theorem updateFunction (f : StagedFunction → StagedFunction) :
    Logged (Build.updateFunction f) := by
  refine get_bind fun d => ?_
  cases d.openFunctions with
  | nil => exact ⟨[], .throw _ d⟩
  | cons innermost outer => exact ⟨[], .set rfl⟩

/-- A function that is closed is written after it has been taken off the open ones. -/
theorem closeFunction : Logged Build.closeFunction := by
  refine get_bind fun d => ?_
  cases d.openFunctions with
  | nil => exact ⟨[], .throw _ d⟩
  | cons innermost outer =>
    obtain ⟨written, hwritten⟩ := bind (log _)
      (fun _ => composes.emitAll (emit _) innermost.instructions)
      { d with openFunctions := outer }
    exact ⟨[] ++ written, .bind_ok rfl (.set rfl) hwritten⟩

/-- The parts of all operations have logs. -/
theorem parts : OperationParts Logged where
  toComposes := composes
  log := log
  freshId := modifyGet fun _ => rfl
  emit := emit
  findType := findType
  noteType := fun _ _ => bind (log _) fun _ => modifyGet fun _ => rfl
  findStruct := fun _ => get_bind fun d => composes.pure _ d
  noteStruct := fun _ _ => bind (log _) fun _ => modifyGet fun _ => rfl
  structType := structType
  openFunction := modifyGet fun _ => rfl
  updateFunction := updateFunction
  closeFunction := closeFunction

theorem perform (names : Names) (operation : Command) : Logged (operation.perform names) := by
  by_cases hquery : operation.IsQuery
  · cases operation with
    | structList | sectionWords | bound => exact get_bind fun d => composes.pure _ d
    | _ => exact hquery.elim
  · exact parts.perform names hquery

end Build.Logged

/-! ### Logs of runs -/

/-- Carried out in the session `s`, the computation `x` makes the successful appends `log` on
the draft of the session. -/
inductive Run.Appends :
    {α : Type} → Run τ α → Session τ → List (Section × Instruction) → Prop
  | lift {α : Type} {action : Build α} {s : Session τ} {log : List (Section × Instruction)}
      (h : Build.Appends action s.draft log) : Appends (Run.lift action) s log
  /-- Whether or not a failure of `step` is tolerated, what it has appended stays. -/
  | attempt {tolerant : Bool} {mark : Mark τ} {step : Run τ (Gauge → Report τ)} {s : Session τ}
      {log : List (Section × Instruction)} (h : Appends step s log) :
      Appends (Run.attempt tolerant mark step) s log
  | pure {α : Type} (a : α) (s : Session τ) : Appends (Pure.pure a) s []
  | throw {α : Type} (fault : Fault) (s : Session τ) :
      Appends (MonadExcept.throw fault : Run τ α) s []
  | get (s : Session τ) : Appends MonadState.get s []
  | modifyGet {α : Type} {f : Session τ → α × Session τ} {s : Session τ}
      (h : (f s).2.draft.layout = s.draft.layout) : Appends (MonadState.modifyGet f) s []
  | bind_ok {α β : Type} {x : Run τ α} {k : α → Run τ β} {s t : Session τ} {a : α}
      {log log' : List (Section × Instruction)} (run : x s = .ok a t) (first : Appends x s log)
      (second : Appends (k a) t log') : Appends (x >>= k) s (log ++ log')
  | bind_error {α β : Type} {x : Run τ α} {k : α → Run τ β} {s t : Session τ} {fault : Fault}
      {log : List (Section × Instruction)} (run : x s = .error fault t)
      (first : Appends x s log) : Appends (x >>= k) s log

namespace Run.Appends

variable {x : Run τ α} {s : Session τ} {log : List (Section × Instruction)}

/-- The entries of the layout grow by the `log`. -/
theorem entries_after (h : Appends x s log) :
    (after x s).draft.layout.entries = s.draft.layout.entries ++ log := by
  induction h with
  | lift h =>
    rw [Run.after_lift]
    exact h.entries_after
  | attempt _ ih => rw [Run.draft_after_attempt, ih]
  | pure a s => exact (List.append_nil _).symm
  | throw fault s => exact (List.append_nil _).symm
  | get s => exact (List.append_nil _).symm
  | @modifyGet α f s h =>
    change (f s).2.draft.layout.entries = _
    rw [h, List.append_nil]
  | bind_ok run _ _ ih ih' =>
    rw [after_bind_of_ok run, ih', ← after_of_ok run, ih, List.append_assoc]
  | bind_error run _ ih =>
    rw [after_bind_of_error run, ← after_of_error run, ih]

end Run.Appends

/-- In every session the computation `x` has a log. -/
def Run.Logged (x : Run τ α) : Prop := ∀ s, ∃ log, Run.Appends x s log

namespace Run.Logged

theorem pure (a : α) : Logged (Pure.pure a : Run τ α) := fun s => ⟨[], .pure a s⟩

theorem bind {x : Run τ α} {k : α → Run τ β} (hx : Logged x) (hk : ∀ a, Logged (k a)) :
    Logged (x >>= k) := by
  intro s
  obtain ⟨log, hlog⟩ := hx s
  cases hrun : x s with
  | ok a t =>
    obtain ⟨log', hlog'⟩ := hk a t
    exact ⟨log ++ log', .bind_ok hrun hlog hlog'⟩
  | error fault t => exact ⟨log, .bind_error hrun hlog⟩

theorem get_bind {k : Session τ → Run τ α} (h : ∀ s, Logged (k s)) :
    Logged (MonadState.get >>= k) := bind (fun s => ⟨[], .get s⟩) h

theorem lift {action : Build α} (h : Build.Logged action) :
    Logged (Run.lift action : Run τ α) := by
  intro s
  obtain ⟨log, hlog⟩ := h s.draft
  exact ⟨log, .lift hlog⟩

theorem attempt {tolerant : Bool} {mark : Mark τ} {step : Run τ (Gauge → Report τ)}
    (h : Logged step) : Logged (Run.attempt tolerant mark step) := by
  intro s
  obtain ⟨log, hlog⟩ := h s
  exact ⟨log, .attempt hlog⟩

theorem updateNames (f : Names → Names) : Logged (Run.updateNames f : Run τ Unit) :=
  fun _ => ⟨[], .modifyGet rfl⟩

theorem bindIndex (name : Option String) (index : Id) :
    Logged (Run.bindIndex name index : Run τ Unit) := by
  cases name with
  | some name => exact updateNames fun names => names.bind name index
  | none => exact pure ()

theorem bindParams (name : Option String) (function : FunctionDef) :
    Logged (Run.bindParams name function : Run τ Unit) := by
  cases name with
  | some name => exact updateNames fun names => names.bindParams name 0 function.params
  | none => exact pure ()

theorem answer (mark : Mark τ) (reply : Reply) : Logged (Run.answer mark reply) := by
  refine bind ?_ fun _ => pure _
  unfold Run.bindReply
  split
  · exact updateNames _
  · exact updateNames _
  · exact pure ()

/-- The build of another module, `built`, appends to the sections of that module only. -/
theorem answerBuilt (mark : Mark τ) (built : Built τ) : Logged (Run.answerBuilt mark built) := by
  refine bind (fun _ => ⟨[], .modifyGet rfl⟩) fun _ => ?_
  cases built.outcome with
  | ok binary => exact pure _
  | error fault => exact fun s => ⟨[], .throw fault s⟩

end Run.Logged

open Build.Logged in
/-- Every `script` has a log, in every session. -/
theorem Script.logged (script : Script τ) (lenient : Bool) : Run.Logged (script.run lenient) := by
  induction script generalizing lenient with
  | done => exact .pure ()
  | command mark operation next ih =>
    refine .bind (.attempt (.get_bind fun s => ?_)) fun _ => ih lenient
    exact .bind (.lift (perform s.names operation)) fun reply => .answer mark reply
  | ifThen mark condition arm next iharm ih =>
    refine .bind (.attempt (.get_bind fun s => ?_)) fun _ => ih lenient
    refine .bind ?_ fun _ => .answer mark .done
    exact .bind (.lift (parts.body.beginIfThen _)) fun merge => .bind (iharm false) fun _ =>
      .lift (parts.body.endArm merge merge)
  | ifThenElse mark condition onTrue onFalse next ihtrue ihfalse ih =>
    refine .bind (.attempt (.get_bind fun s => ?_)) fun _ => ih lenient
    refine .bind ?_ fun _ => .answer mark .done
    exact .bind (.lift (parts.body.beginIfThenElse _)) fun labels =>
      .bind (ihtrue false) fun _ => .bind (.lift (parts.body.endArm labels.2 labels.1)) fun _ =>
      .bind (ihfalse false) fun _ => .lift (parts.body.endArm labels.2 labels.2)
  | countedLoop mark count body next ihbody ih =>
    refine .bind (.attempt ?_) fun _ => ih lenient
    refine .bind ?_ fun index => .answer mark (.index index)
    exact .bind (.lift (parts.beginLoop count)) fun frame =>
      .bind (.bind (.bindIndex mark.name frame.index) fun _ => ihbody false) fun _ =>
      .bind (.lift (parts.body.endLoop frame)) fun _ => .pure _
  | defineFunction mark name returnType params body next ihbody ih =>
    refine .bind (.attempt (.get_bind fun s => ?_)) fun _ => ih lenient
    refine .bind ?_ fun function => .answer mark (.function function)
    exact .bind (.lift (parts.beginNamedFunction name _ _)) fun function =>
      .bind (.bind (.bindParams mark.name function) fun _ => ihbody false) fun _ =>
      .bind (.lift parts.endFunction) fun _ => .pure _
  | build mark plan script next _ ih =>
    exact .bind (.attempt (.answerBuilt mark _)) fun _ => ih lenient

/-- Every run from a new draft has exactly one `log`, and its layout consists of it. -/
theorem Script.appends_iff (settings : Settings) (lenient : Bool) (script : Script τ)
    (log : List (Section × Instruction)) :
    Run.Appends (script.run lenient) { draft := { settings := settings } } log ↔
      log = (script.draftAfter settings lenient).layout.entries := by
  have hentries : ∀ {log}, Run.Appends (script.run lenient) { draft := { settings := settings } }
      log → (script.draftAfter settings lenient).layout.entries = log := fun h => h.entries_after
  refine ⟨fun h => (hentries h).symm, ?_⟩
  rintro rfl
  obtain ⟨log, h⟩ := script.logged lenient { draft := { settings := settings } }
  rwa [hentries h]

end SpirvBinary
