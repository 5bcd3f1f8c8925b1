import SpirvBinary.Proofs.Staging

/-!
# What is staged for a function body

Carrying out a body in an open function succeeds when its declarations do, and stages
the instructions of a flow that fills in the ids of the body.  When the function is
closed these instructions are written as a whole.

## Main definitions

* `Script.Staged` — a flow of a script has been staged.
* `Flow.Plain` — the statements of a flow do not belong to the structure of blocks.

## Main results

* `Script.run_stages` — **carrying out a body stages a flow of it.**
* `defineFunction_writes` — a function with such a body is written as a whole.
-/

namespace SpirvBinary

open Opcode

/-! ### Constants of a flow -/

/-- The constants of all loops of a flow are those that `d` knows. -/
def Flow.Noted (d : Draft) : Flow → Prop
  | .done => True
  | .instruction _ next => next.Noted d
  | .localVariable _ next => next.Noted d
  | .ifThen _ _ _ arm next => arm.Noted d ∧ next.Noted d
  | .ifThenElse _ _ _ _ first second next => first.Noted d ∧ second.Noted d ∧ next.Noted d
  | .loop ids body next => ids.Noted d ∧ body.Noted d ∧ next.Noted d

theorem Flow.Noted.mono {flow : Flow} {head body : List Instruction} {d e : Draft}
    (h : flow.Noted d) (hde : Stages head body d e) : flow.Noted e := by
  induction flow with
  | done => trivial
  | instruction inst next ih => exact ih h
  | localVariable inst next ih => exact ih h
  | ifThen condition onTrue merge arm next iharm ih => exact ⟨iharm h.1, ih h.2⟩
  | ifThenElse condition onTrue onFalse merge first second next ihfirst ihsecond ih =>
    exact ⟨ihfirst h.1, ihsecond h.2.1, ih h.2.2⟩
  | loop ids body next ihbody ih => exact ⟨h.1.mono hde, ihbody h.2.1, ih h.2.2⟩

theorem Flow.Noted.append {first last : Flow} {d : Draft} (h : first.Noted d)
    (h' : last.Noted d) : (first.append last).Noted d := by
  induction first with
  | done => exact h'
  | instruction inst next ih => exact ih h
  | localVariable inst next ih => exact ih h
  | ifThen condition onTrue merge arm next _ ih => exact ⟨h.1, ih h.2⟩
  | ifThenElse condition onTrue onFalse merge first second next _ _ ih =>
    exact ⟨h.1, h.2.1, ih h.2.2⟩
  | loop ids body next _ ih => exact ⟨h.1, h.2.1, ih h.2.2⟩

/-! ### Statements -/

/-- A declaration that succeeds stages nothing. -/
theorem Command.declaration_succeeds {operation : Command} {names : Names} {d : Draft}
    (h : operation.IsDeclaration) (hok : ∃ reply e, operation.perform names d = .ok reply e) :
    Succeeds (operation.perform names) d fun _ e => Stages [] [] d e := by
  obtain ⟨reply, e, hrun⟩ := hok
  have hmoves := stages_declarationLaw.perform names h d
  rw [after_of_ok hrun] at hmoves
  exact ⟨reply, e, hrun, hmoves⟩

/-- From `d` to `e` a flow of the statement `operation` has been staged, and it was answered by
`reply`. -/
def Command.Staged (operation : Command) (names : Names) (reply : Reply) (d e : Draft) : Prop :=
  ∃ flow : Flow, operation.Resolves names reply flow .done ∧ Stages flow.head flow.body d e ∧
    flow.Noted e

theorem Command.staged_of_emitBody {operation : Command} {names : Names} {d : Draft}
    (hd : d.openFunctions ≠ []) {opcode : Opcode} {type : Id} {operands : List Word}
    (hperform : operation.perform names
      = Command.answerId (Build.emitBody opcode type operands))
    (hresolves : ∀ id, operation.Resolves names (.id id)
      (.instruction (.typed opcode type id operands) .done) .done) :
    Succeeds (operation.perform names) d fun reply e => operation.Staged names reply d e := by
  rw [hperform]
  exact ((Stages.refl d).emitBody hd opcode type operands).bind fun id e _ h =>
    Succeeds.pure ⟨_, hresolves id, h, trivial⟩

/-- In an open function a statement succeeds, and a flow of it is `Staged`.  Of a declaration `hok`
says that it succeeds. -/
theorem Command.perform_staged {operation : Command} {names : Names} {d : Draft}
    (hd : d.openFunctions ≠ []) (h : operation.IsStatement)
    (hok : operation.IsDeclaration → ∃ reply e, operation.perform names d = .ok reply e) :
    Succeeds (operation.perform names) d fun reply e => operation.Staged names reply d e := by
  cases operation with
  | emitBody opcode type operands => exact staged_of_emitBody hd rfl fun id => ⟨id, rfl, rfl⟩
  | load type pointer => exact staged_of_emitBody hd rfl fun id => ⟨id, rfl, rfl⟩
  | call callee arguments => exact staged_of_emitBody hd rfl fun id => ⟨id, rfl, rfl⟩
  | store pointer value =>
    exact ((Stages.refl d).pushBody hd _).bind fun _ e _ h =>
      Succeeds.pure ⟨_, ⟨rfl, rfl⟩, h, trivial⟩
  | localVariable pointee =>
    refine ((Stages.refl d).localVariable hd _).bind fun id e _ h => Succeeds.pure ?_
    obtain ⟨pointer, h⟩ := h
    exact ⟨_, ⟨pointer, id, rfl, rfl⟩, h, trivial⟩
  | _ =>
    refine Succeeds.mono (declaration_succeeds ?_ ?_) fun reply e h =>
      ⟨.done, rfl, h, trivial⟩
    · exact h
    · exact hok h

/-! ### Sessions -/

namespace Run

variable {τ α : Type} {s : Session τ}

theorem lift_succeeds {action : Build α} {P : α → Draft → Prop}
    (h : Succeeds action s.draft P) :
    Succeeds (lift action : Run τ α) s fun a t => P a t.draft ∧ t.names = s.names := by
  obtain ⟨a, e, hrun, hP⟩ := h
  refine ⟨a, { s with draft := e }, ?_, hP, rfl⟩
  rw [lift, hrun]

theorem answer_succeeds (mark : Mark τ) (reply : Reply) (s : Session τ) :
    Succeeds (answer mark reply) s fun _ t =>
      t.draft = s.draft ∧ t.names = reply.bindTo mark.name s.names := by
  have hbind : Succeeds (bindReply mark.name reply) s fun _ t =>
      t.draft = s.draft ∧ t.names = reply.bindTo mark.name s.names := by
    cases mark.name with
    | none => exact ⟨(), s, rfl, rfl, rfl⟩
    | some name => cases reply <;> exact ⟨(), _, rfl, rfl, rfl⟩
  exact hbind.bind fun _ _ _ h => Succeeds.pure h

theorem bindIndex_succeeds (name : Option String) (index : Id) (s : Session τ) :
    Succeeds (bindIndex name index) s fun _ t =>
      t.draft = s.draft ∧ t.names = (Reply.id index).bindTo name s.names := by
  cases name <;> exact ⟨(), _, rfl, rfl, rfl⟩

/-- A `step` that succeeds is recorded, which changes neither the draft nor the names.  A step that
reads the session first is compared with `step'`, what it does then. -/
theorem attempt_succeeds {step step' : Run τ (Gauge → Report τ)} {P : Draft → Names → Prop}
    (tolerant : Bool) (mark : Mark τ) (hstep : step s = step' s)
    (h : Succeeds step' s fun _ t => P t.draft t.names) :
    Succeeds (attempt tolerant mark step) s fun _ t => P t.draft t.names := by
  obtain ⟨report, t, hrun, hP⟩ := h
  refine ⟨(), t.record (report t.draft.gauge), ?_, hP⟩
  rw [attempt, hstep, hrun]

end Run

/-! ### Bodies -/

namespace Script

variable {τ : Type}

/-- From the session `s` to the session `t`, a flow of the script has been staged. -/
def Staged (script : Script τ) (s t : Session τ) : Prop :=
  ∃ flow : Flow, script.Resolves s.names flow t.names ∧
    Stages flow.head flow.body s.draft t.draft ∧ flow.Noted t.draft

theorem Staged.append {first last : Script τ} {s t u : Session τ} (h : first.Staged s t)
    (h' : last.Staged t u) : (first.append last).Staged s u := by
  obtain ⟨flow, hresolves, hstages, hnoted⟩ := h
  obtain ⟨flow', hresolves', hstages', hnoted'⟩ := h'
  refine ⟨flow.append flow', hresolves.append hresolves', ?_, ?_⟩
  · rw [Flow.head_append, Flow.body_append]
    exact hstages.trans hstages'
  · exact (hnoted.mono hstages').append hnoted'

theorem Staged.isOpen {script : Script τ} {s t : Session τ} (h : script.Staged s t)
    (hs : s.draft.openFunctions ≠ []) : t.draft.openFunctions ≠ [] := by
  obtain ⟨flow, -, hstages, -⟩ := h
  exact hstages.isOpen hs

/-- Carrying out the script in an open function stages a flow of it, if its declarations
succeed. -/
def RunStages (script : Script τ) : Prop :=
  ∀ s : Session τ, s.draft.openFunctions ≠ [] → script.DeclarationsSucceed s →
    Succeeds (script.run false) s fun _ t => script.Staged s t

/-- The script `last` is staged behind `first`. -/
theorem append_stages {first last : Script τ} {s : Session τ} (hs : s.draft.openFunctions ≠ [])
    (hfirst : Succeeds (first.run false) s fun _ t => first.Staged s t) (hlast : last.RunStages)
    (hdecl : last.DeclarationsSucceed (after (first.run false) s)) :
    Succeeds ((first.append last).run false) s fun _ t => (first.append last).Staged s t := by
  rw [run_append]
  refine hfirst.bind fun _ t hrun h => ?_
  rw [after_of_ok hrun] at hdecl
  exact (hlast t (h.isOpen hs) hdecl).mono fun _ u h' => h.append h'

/-- A `step` is staged when `step'` is, which is what it does in `s`. -/
theorem attempt_staged {script : Script τ} {s : Session τ} (mark : Mark τ)
    {step : Run τ (Gauge → Report τ)} (step' : Run τ (Gauge → Report τ))
    (hstep : step s = step' s) (h : Succeeds step' s fun _ t => script.Staged s t) :
    Succeeds (Run.attempt false mark step >>= fun _ => Script.done.run false) s fun _ t =>
      script.Staged s t :=
  (Run.attempt_succeeds (P := fun d names => ∃ flow : Flow,
    script.Resolves s.names flow names ∧ Stages flow.head flow.body s.draft d ∧ flow.Noted d)
    false mark hstep h).bind fun _ _ _ h => Succeeds.pure h

/-- An answer that binds no name, as `hreply` says, changes nothing. -/
theorem answer_staged {α : Type} {script : Script τ} {s : Session τ} (mark : Mark τ)
    {x : Run τ α} {reply : α → Reply}
    (hreply : ∀ a name names, (reply a).bindTo name names = names)
    (h : Succeeds x s fun _ t => script.Staged s t) :
    Succeeds (x >>= fun a => Run.answer mark (reply a)) s fun _ t => script.Staged s t := by
  refine h.bind fun a t _ h => ?_
  refine (Run.answer_succeeds mark (reply a) t).mono fun _ u hu => ?_
  rw [Staged, hu.1, hu.2, hreply]
  exact h

theorem command_stages (mark : Mark τ) {operation : Command} (hop : operation.IsStatement)
    {s : Session τ} (hs : s.draft.openFunctions ≠ [])
    (hok : operation.IsDeclaration → ∃ reply d, operation.perform s.names s.draft = .ok reply d) :
    Succeeds ((Script.command mark operation .done).run false) s fun _ t =>
      (Script.command mark operation .done).Staged s t := by
  rw [run]
  refine attempt_staged mark (Run.lift (operation.perform s.names) >>= Run.answer mark) rfl ?_
  refine (Run.lift_succeeds (Command.perform_staged hs hop hok)).bind fun reply t _ h => ?_
  obtain ⟨⟨flow, hresolves, hstages, hnoted⟩, hnames⟩ := h
  refine (Run.answer_succeeds mark reply t).mono fun _ u hu => ?_
  refine ⟨flow, ⟨reply, .done, hresolves, rfl, ?_⟩, ?_, ?_⟩
  · rw [hu.2, hnames]
  · rwa [hu.1]
  · rwa [hu.1]

theorem ifThen_stages (mark : Mark τ) (condition : Ref) {arm : Script τ} (harm : arm.RunStages)
    {s : Session τ} (hs : s.draft.openFunctions ≠ [])
    (hdecl : arm.DeclarationsSucceed
      (after (Run.lift (Build.beginIfThen (s.names.id condition))) s)) :
    Succeeds ((Script.ifThen mark condition arm .done).run false) s fun _ t =>
      (Script.ifThen mark condition arm .done).Staged s t := by
  have hstep : Succeeds (Build.ifThen (s.names.id condition) (arm.run false)) s fun _ t =>
      (Script.ifThen mark condition arm .done).Staged s t := by
    refine (Run.lift_succeeds (beginIfThen_succeeds hs _)).bind fun merge t hrun h => ?_
    obtain ⟨⟨onTrue, hbegin⟩, hnames⟩ := h
    rw [after_of_ok hrun] at hdecl
    have ht := hbegin.isOpen hs
    refine (harm t ht hdecl).bind fun _ u _ h => ?_
    obtain ⟨inner, hresolves, hinner, hnoted⟩ := h
    refine (Run.lift_succeeds (endArm_succeeds (hinner.isOpen ht) merge merge)).mono
      fun _ v hv => ?_
    refine ⟨.ifThen (s.names.id condition) onTrue merge inner .done,
      ⟨onTrue, merge, inner, .done, u.names, rfl, hnames ▸ hresolves, rfl, hv.2⟩, ?_,
      hnoted.mono hv.1, trivial⟩
    simpa only [Flow.head, Flow.body, List.append_nil, List.nil_append] using
      hbegin.trans (hinner.trans hv.1)
  rw [run]
  exact attempt_staged mark _ rfl
    (answer_staged mark (fun _ name _ => by cases name <;> rfl) hstep)

theorem ifThenElse_stages (mark : Mark τ) (condition : Ref) {onTrue onFalse : Script τ}
    (htrue : onTrue.RunStages) (hfalse : onFalse.RunStages) {s : Session τ}
    (hs : s.draft.openFunctions ≠ [])
    (hdecl : onTrue.DeclarationsSucceed
      (after (Run.lift (Build.beginIfThenElse (s.names.id condition))) s))
    (hdecl' : onFalse.DeclarationsSucceed (after (do
      let labels ← Run.lift (Build.beginIfThenElse (s.names.id condition))
      onTrue.run false
      Run.lift (Build.endArm labels.2 labels.1)) s)) :
    Succeeds ((Script.ifThenElse mark condition onTrue onFalse .done).run false) s fun _ t =>
      (Script.ifThenElse mark condition onTrue onFalse .done).Staged s t := by
  have hstep : Succeeds
      (Build.ifThenElse (s.names.id condition) (onTrue.run false) (onFalse.run false)) s
      fun _ t => (Script.ifThenElse mark condition onTrue onFalse .done).Staged s t := by
    refine (Run.lift_succeeds (beginIfThenElse_succeeds hs _)).bind fun labels t hrun h => ?_
    obtain ⟨⟨trueLabel, hbegin⟩, hnames⟩ := h
    rw [after_of_ok hrun] at hdecl
    have ht := hbegin.isOpen hs
    refine (htrue t ht hdecl).bind fun _ u hrun' h => ?_
    obtain ⟨first, hresolves, hfirst, hnoted⟩ := h
    have hu := hfirst.isOpen ht
    refine (Run.lift_succeeds (endArm_succeeds hu labels.2 labels.1)).bind fun _ v hrun'' hv => ?_
    rw [after_bind_of_ok hrun, after_bind_of_ok hrun', after_of_ok hrun''] at hdecl'
    have hvopen := hv.1.isOpen hu
    refine (hfalse v hvopen hdecl').bind fun _ w _ h => ?_
    obtain ⟨second, hresolves', hsecond, hnoted'⟩ := h
    refine (Run.lift_succeeds (endArm_succeeds (hsecond.isOpen hvopen) labels.2 labels.2)).mono
      fun _ x hx => ?_
    refine ⟨.ifThenElse (s.names.id condition) trueLabel labels.1 labels.2 first second .done,
      ⟨trueLabel, labels.1, labels.2, first, second, .done, u.names, w.names, rfl,
        hnames ▸ hresolves, hv.2 ▸ hresolves', rfl, hx.2⟩, ?_,
      (hnoted.mono hv.1).mono (hsecond.trans hx.1), hnoted'.mono hx.1, trivial⟩
    simpa only [Flow.head, Flow.body, List.append_nil, List.nil_append] using
      hbegin.trans (hfirst.trans (hv.1.trans (hsecond.trans hx.1)))
  rw [run]
  exact attempt_staged mark _ rfl
    (answer_staged mark (fun _ name _ => by cases name <;> rfl) hstep)

theorem countedLoop_stages (mark : Mark τ) (count : Int32) {body : Script τ}
    (hbody : body.RunStages) {s : Session τ} (hs : s.draft.openFunctions ≠ [])
    (hdecl : body.DeclarationsSucceed (after (do
      let frame ← Run.lift (Build.beginLoop count)
      Run.bindIndex mark.name frame.index) s)) :
    Succeeds ((Script.countedLoop mark count body .done).run false) s fun _ t =>
      (Script.countedLoop mark count body .done).Staged s t := by
  have hstep : Succeeds (Build.countedLoop count fun index => do
      Run.bindIndex mark.name index
      body.run false) s fun _ t => (Script.countedLoop mark count body .done).Staged s t := by
    refine (Run.lift_succeeds (beginLoop_succeeds hs count)).bind fun frame t hrun h => ?_
    obtain ⟨⟨ids, rfl, hcount, hids, hbegin⟩, hnames⟩ := h
    have ht := hbegin.isOpen hs
    refine Succeeds.bind (P := fun _ v => ∃ inner : Flow,
      body.Resolves ((Reply.id ids.index).bindTo mark.name s.names) inner v.names ∧
        Stages inner.head inner.body t.draft v.draft ∧ inner.Noted v.draft) ?_ fun _ v _ h => ?_
    · refine (Run.bindIndex_succeeds mark.name ids.index t).bind fun _ u hrun' hu => ?_
      rw [after_bind_of_ok hrun, after_of_ok hrun'] at hdecl
      refine (hbody u (by rwa [hu.1]) hdecl).mono fun _ v h => ?_
      obtain ⟨inner, hresolves, hinner, hnoted⟩ := h
      rw [hu.2, hnames] at hresolves
      rw [hu.1] at hinner
      exact ⟨inner, hresolves, hinner, hnoted⟩
    · obtain ⟨inner, hresolves, hinner, hnoted⟩ := h
      refine Succeeds.bind (Run.lift_succeeds (endLoop_succeeds (hinner.isOpen ht) ids))
        fun _ w _ h => Succeeds.pure ?_
      obtain ⟨⟨current, next, hend⟩, hnames'⟩ := h
      -- the ids of the end are known only now
      refine ⟨.loop { ids with current := current, next := next } inner .done,
        ⟨{ ids with current := current, next := next }, inner, .done, v.names, rfl, hcount,
          hresolves, rfl, hnames'⟩, ?_, ?_, hnoted.mono hend, trivial⟩
      · have hall := hbegin.trans (hinner.trans hend)
        simp only [List.append_nil] at hall
        simp only [Flow.head, Flow.body, List.append_nil]
        exact hall
      · have hids' := hids.mono (hinner.trans hend)
        exact ⟨hids'.int, hids'.zero, hids'.one, hids'.limit⟩
  rw [run]
  exact attempt_staged mark _ rfl
    (answer_staged mark (fun _ name _ => by cases name <;> rfl) hstep)

/-- **Carrying out a body stages a flow of it.** In an open function all statements of a
body succeed when the declarations do. -/
theorem run_stages {script : Script τ} (h : script.IsBody) : script.RunStages := by
  induction script with
  | done => exact fun s _ _ => Succeeds.pure ⟨.done, ⟨rfl, rfl⟩, Stages.refl _, trivial⟩
  | command mark operation next ih =>
    exact fun s hs hdecl =>
      append_stages hs (command_stages mark h.1 hs hdecl.1) (ih h.2) hdecl.2
  | ifThen mark condition arm next iharm ih =>
    exact fun s hs hdecl =>
      append_stages hs (ifThen_stages mark condition (iharm h.1) hs hdecl.1) (ih h.2) hdecl.2
  | ifThenElse mark condition onTrue onFalse next ihtrue ihfalse ih =>
    exact fun s hs hdecl =>
      append_stages hs (ifThenElse_stages mark condition (ihtrue h.1) (ihfalse h.2.1) hs hdecl.1
        hdecl.2.1) (ih h.2.2) hdecl.2.2
  | countedLoop mark count body next ihbody ih =>
    exact fun s hs hdecl =>
      append_stages hs (countedLoop_stages mark count (ihbody h.1) hs hdecl.1) (ih h.2) hdecl.2
  | defineFunction => exact h.elim
  | build => exact h.elim

end Script

/-! ### The instructions of a flow -/

/-- The statements of a flow are not `structural`, and have an encoding. -/
def Flow.Plain : Flow → Prop
  | .done => True
  | .instruction inst next => (inst.opcode ∉ structural ∧ inst.Fits) ∧ next.Plain
  | .localVariable inst next => (∃ pointer id, inst = .localVariable pointer id) ∧ next.Plain
  | .ifThen _ _ _ arm next => arm.Plain ∧ next.Plain
  | .ifThenElse _ _ _ _ first second next => first.Plain ∧ second.Plain ∧ next.Plain
  | .loop _ body next => body.Plain ∧ next.Plain

theorem Command.Resolves.plain {operation : Command} {names : Names} {reply : Reply}
    {flow rest : Flow} (h : operation.Resolves names reply flow rest)
    (hop : operation.IsStatement) (hrest : rest.Plain) : flow.Plain := by
  cases operation with
  | emitBody opcode type operands =>
    obtain ⟨id, -, rfl⟩ := h
    exact ⟨⟨hop.1, Instruction.fits_of_length (hop.2 names) _⟩, hrest⟩
  | load type pointer =>
    obtain ⟨id, -, rfl⟩ := h
    exact ⟨⟨(by decide : opLoad ∉ structural), Instruction.fits_of_length (by simp) _⟩, hrest⟩
  | call callee arguments =>
    obtain ⟨id, -, rfl⟩ := h
    have hlength : arguments.length ≤ 65531 := hop
    have hfits : ((names.callee callee).1.word :: (arguments.map names.id).map Id.word).length
        ≤ 65532 := by
      rw [List.length_cons, List.length_map, List.length_map]
      omega
    exact ⟨⟨(by decide : opFunctionCall ∉ structural), Instruction.fits_of_length hfits _⟩, hrest⟩
  | store pointer value =>
    obtain ⟨-, rfl⟩ := h
    exact ⟨⟨(by decide : opStore ∉ structural), Instruction.fits_of_length (by simp) _⟩, hrest⟩
  | localVariable pointee =>
    obtain ⟨pointer, id, -, rfl⟩ := h
    exact ⟨⟨pointer, id, rfl⟩, hrest⟩
  | _ =>
    have heq : flow = rest := h
    rwa [heq]

theorem Script.Resolves.plain {τ : Type} {script : Script τ} {names names' : Names} {flow : Flow}
    (h : script.Resolves names flow names') (hbody : script.IsBody) : flow.Plain := by
  induction script generalizing names flow names' with
  | done =>
    obtain ⟨rfl, -⟩ := h
    trivial
  | command mark operation next ih =>
    obtain ⟨reply, rest, hop, hrest⟩ := h
    exact hop.plain hbody.1 (ih hrest hbody.2)
  | ifThen mark condition arm next iharm ih =>
    obtain ⟨onTrue, merge, inner, rest, between, rfl, harm, hrest⟩ := h
    exact ⟨iharm harm hbody.1, ih hrest hbody.2⟩
  | ifThenElse mark condition onTrue onFalse next ihtrue ihfalse ih =>
    obtain ⟨trueLabel, falseLabel, merge, first, second, rest, middle, between, rfl, htrue, hfalse,
      hrest⟩ := h
    exact ⟨ihtrue htrue hbody.1, ihfalse hfalse hbody.2.1, ih hrest hbody.2.2⟩
  | countedLoop mark count body next ihbody ih =>
    obtain ⟨ids, inner, rest, between, rfl, hcount, hinner, hrest⟩ := h
    exact ⟨ihbody hinner hbody.1, ih hrest hbody.2⟩
  | defineFunction => exact h.elim
  | build => exact h.elim

namespace Flow

theorem Plain.head {flow : Flow} (h : flow.Plain) :
    ∀ inst ∈ flow.head, ∃ pointer id, inst = .localVariable pointer id := by
  intro inst hinst
  induction flow with
  | done => cases hinst
  | instruction _ next ih => exact ih h.2 hinst
  | localVariable _ next ih =>
    rcases List.mem_cons.mp hinst with rfl | hinst
    · exact h.1
    · exact ih h.2 hinst
  | ifThen condition onTrue merge arm next iharm ih =>
    rcases List.mem_append.mp hinst with hinst | hinst
    · exact iharm h.1 hinst
    · exact ih h.2 hinst
  | ifThenElse condition onTrue onFalse merge first second next ihfirst ihsecond ih =>
    simp only [Flow.head, List.mem_append] at hinst
    rcases hinst with hinst | hinst | hinst
    · exact ihfirst h.1 hinst
    · exact ihsecond h.2.1 hinst
    · exact ih h.2.2 hinst
  | loop ids body next ihbody ih =>
    simp only [Flow.head, List.mem_cons, List.mem_append] at hinst
    rcases hinst with rfl | hinst | hinst
    · exact ⟨_, _, rfl⟩
    · exact ihbody h.1 hinst
    · exact ih h.2 hinst

theorem Plain.statements {flow : Flow} (h : flow.Plain) :
    ∀ inst ∈ flow.statements, inst.opcode ∉ structural ∧ inst.Fits := by
  intro inst hinst
  induction flow with
  | done => cases hinst
  | instruction _ next ih =>
    rcases List.mem_cons.mp hinst with rfl | hinst
    · exact h.1
    · exact ih h.2 hinst
  | localVariable _ next ih => exact ih h.2 hinst
  | ifThen condition onTrue merge arm next iharm ih =>
    rcases List.mem_append.mp hinst with hinst | hinst
    · exact iharm h.1 hinst
    · exact ih h.2 hinst
  | ifThenElse condition onTrue onFalse merge first second next ihfirst ihsecond ih =>
    simp only [Flow.statements, List.mem_append] at hinst
    rcases hinst with hinst | hinst | hinst
    · exact ihfirst h.1 hinst
    · exact ihsecond h.2.1 hinst
    · exact ih h.2.2 hinst
  | loop ids body next ihbody ih =>
    rcases List.mem_append.mp hinst with hinst | hinst
    · exact ihbody h.1 hinst
    · exact ih h.2 hinst

/-- What is in the `body` of a flow and does not come from a statement is small. -/
theorem mem_body {flow : Flow} {inst : Instruction} (h : inst ∈ flow.body) :
    inst ∈ flow.statements ∨ inst.operands.length ≤ 3 := by
  have hselection : ∀ condition onTrue onFalse merge,
      inst ∈ Instruction.selection condition onTrue onFalse merge → inst.operands.length ≤ 3 := by
    intro condition onTrue onFalse merge h
    simp only [Instruction.selection, List.mem_cons, List.not_mem_nil, or_false] at h
    rcases h with rfl | rfl | rfl <;> exact Nat.le_of_ble_eq_true rfl
  have hendArm : ∀ merge next, inst ∈ Instruction.endArm merge next →
      inst.operands.length ≤ 3 := by
    intro merge next h
    simp only [Instruction.endArm, List.mem_cons, List.not_mem_nil, or_false] at h
    rcases h with rfl | rfl <;> exact Nat.le_of_ble_eq_true rfl
  induction flow with
  | done => cases h
  | instruction _ next ih =>
    rcases List.mem_cons.mp h with rfl | h
    · exact Or.inl List.mem_cons_self
    · exact (ih h).imp_left (List.mem_cons_of_mem _)
  | localVariable _ next ih => exact ih h
  | ifThen condition onTrue merge arm next iharm ih =>
    simp only [body, List.mem_append] at h
    rcases h with h | h | h | h
    · exact Or.inr (hselection _ _ _ _ h)
    · exact (iharm h).imp_left (List.mem_append_left _)
    · exact Or.inr (hendArm _ _ h)
    · exact (ih h).imp_left (List.mem_append_right _)
  | ifThenElse condition onTrue onFalse merge first second next ihfirst ihsecond ih =>
    simp only [body, List.mem_append] at h
    simp only [Flow.statements, List.mem_append]
    rcases h with h | h | h | h | h | h
    · exact Or.inr (hselection _ _ _ _ h)
    · exact (ihfirst h).imp_left Or.inl
    · exact Or.inr (hendArm _ _ h)
    · exact (ihsecond h).imp_left fun h => Or.inr (Or.inl h)
    · exact Or.inr (hendArm _ _ h)
    · exact (ih h).imp_left fun h => Or.inr (Or.inr h)
  | loop ids body next ihbody ih =>
    simp only [Flow.body, List.mem_append] at h
    rcases h with h | h | h | h
    · simp only [LoopIds.opening, List.mem_cons, List.not_mem_nil, or_false] at h
      rcases h with rfl | rfl | rfl | rfl | rfl | rfl | rfl | rfl | rfl | rfl <;>
        exact Or.inr (Nat.le_of_ble_eq_true rfl)
    · exact (ihbody h).imp_left (List.mem_append_left _)
    · simp only [LoopIds.closing, List.mem_cons, List.not_mem_nil, or_false] at h
      rcases h with rfl | rfl | rfl | rfl | rfl | rfl | rfl <;>
        exact Or.inr (Nat.le_of_ble_eq_true rfl)
    · exact (ih h).imp_left (List.mem_append_right _)

/-- All instructions of a `Plain` flow have an encoding. -/
theorem Plain.fits {flow : Flow} (h : flow.Plain) :
    ∀ inst ∈ flow.head ++ flow.body, inst.Fits := by
  intro inst hinst
  rcases List.mem_append.mp hinst with hhead | hbody
  · obtain ⟨pointer, id, rfl⟩ := h.head inst hhead
    exact Instruction.fits_of_length (by simp) _
  · rcases mem_body hbody with hstatement | hsmall
    · exact (h.statements inst hstatement).2
    · exact Instruction.fits_of_length (by omega) inst.result

end Flow

/-! ### The beginning and the end of a function -/

/-- The declaration of a parameter. -/
def Param.instruction (param : Param) : Instruction :=
  .typed opFunctionParameter param.type param.id []

/-- The instructions of a function before its first block. -/
def FunctionDef.prologue (function : FunctionDef) : List Instruction :=
  .typed opFunction function.returnType function.id [0, function.type.word]
    :: function.params.map Param.instruction

/-- The instruction `OpFunctionEnd` behind the last block of a function. -/
def Instruction.functionEnd : Instruction := { opcode := opFunctionEnd }

/-- The instructions that a function begins with, its entry label included. -/
def FunctionDef.beginning (function : FunctionDef) (control : Word) : List Instruction :=
  .typed opFunction function.returnType function.id [control, function.type.word]
    :: function.params.map Param.instruction ++ [.label function.entry]

theorem Stages.pushParams {head body : List Instruction} {d e : Draft}
    (h : Stages head body d e) (hd : d.openFunctions ≠ []) (types : List Id)
    (staged : List Param) :
    Succeeds (Build.pushParams staged types) e fun params f => ∃ added : List Param,
      params = staged.reverse ++ added ∧ added.map Param.type = types ∧
        Stages (head ++ added.map Param.instruction) body d f := by
  induction types generalizing staged head e with
  | nil =>
    refine Succeeds.pure ⟨[], (List.append_nil _).symm, rfl, ?_⟩
    rwa [List.map_nil, List.append_nil]
  | cons type rest ih =>
    refine h.freshId.bind fun id _ _ h => ?_
    refine (h.pushHead hd _).bind fun _ _ _ h => ?_
    refine (ih h (⟨id, type⟩ :: staged)).mono fun params f hf => ?_
    obtain ⟨added, hparams, htypes, hstages⟩ := hf
    refine ⟨⟨id, type⟩ :: added, ?_, ?_, ?_⟩
    · rw [hparams, List.reverse_cons, List.append_assoc]
      rfl
    · rw [List.map_cons, htypes]
    · rw [List.append_assoc] at hstages
      exact hstages

/-- A function of the declared type `type` is opened, and begins with its parameters and its entry
label. -/
theorem beginTyped_succeeds (returnType type : Id) (paramTypes : List Id) (control : Word)
    (d : Draft) :
    Succeeds (Build.beginTyped returnType paramTypes control type) d fun function e =>
      Declares d e ∧ function.returnType = returnType ∧ function.type = type ∧
        function.params.map Param.type = paramTypes ∧
        e.openFunctions = .stage (function.beginning control) [] {} :: d.openFunctions := by
  -- the draft in which the function has been opened is the point of reference
  let opened : Draft := { d with openFunctions := {} :: d.openFunctions }
  have hopened : opened.openFunctions ≠ [] := List.cons_ne_nil _ _
  refine Succeeds.bind (P := fun _ e => e = opened) ⟨(), opened, rfl, rfl⟩ fun _ e _ he => ?_
  rw [he]
  refine (Stages.refl opened).freshId.bind fun id _ _ h => ?_
  refine (h.pushHead hopened _).bind fun _ _ _ h => ?_
  refine (h.pushParams hopened paramTypes []).bind fun params _ _ h => ?_
  obtain ⟨added, rfl, htypes, h⟩ := h
  refine h.freshId.bind fun entry _ _ h => ?_
  refine (h.pushHead hopened _).bind fun _ f _ h => Succeeds.pure ⟨?_, rfl, rfl, htypes, ?_⟩
  · have hde : Declares d opened := .of_eq (fun _ => rfl) rfl
    exact hde.trans h.toDeclares
  · rw [h.functions]
    rfl

/-- A function that is not too long to declare is opened with its prologue and its entry
label. -/
theorem beginFunction_succeeds (returnType : Id) {paramTypes : List Id}
    (hparams : paramTypes.length ≤ 65532) (d : Draft) :
    Succeeds (Build.beginFunction returnType paramTypes 0) d fun function e =>
      Declares d e ∧ e.openFunctions = StagedFunction.stage
        (function.prologue ++ [.label function.entry]) [] {} :: d.openFunctions := by
  have hfits : ∀ id, (Instruction.mk opTypeFunction none (some id)
      (returnType.word :: paramTypes.map Id.word)).Fits := by
    intro id
    simp only [Instruction.Fits, Instruction.wordCount, Instruction.maxWordCount,
      Instruction.slot_none, Instruction.slot_some, List.length_cons, List.length_map,
      List.length_nil]
    omega
  rw [Build.beginFunction_eq]
  refine ((Stages.refl d).declare hfits).bind fun type c _ hdc => ?_
  refine (beginTyped_succeeds returnType type paramTypes 0 c).mono fun function e he => ?_
  obtain ⟨hce, -, -, -, hopen⟩ := he
  refine ⟨hdc.1.toDeclares.trans hce, ?_⟩
  have hfunctions : c.openFunctions = d.openFunctions := by
    rw [hdc.1.functions]
    cases d.openFunctions <;> rfl
  rw [hopen, hfunctions]
  rfl

/-- Beginning a function whose return type has been declared, with the `name` that it is given. -/
theorem beginNamed_succeeds {name : Option String} (returnType : Id) {paramTypes : List Id}
    (hname : ∀ text, name = some text → (textWords text).length ≤ 65533)
    (hparams : paramTypes.length ≤ 65532) {c d : Draft} (hdc : Stages [] [] d c) :
    Succeeds (Build.beginNamed name paramTypes returnType) c fun function e =>
      Declares d e ∧ e.openFunctions = StagedFunction.stage
        (function.prologue ++ [.label function.entry]) [] {} :: d.openFunctions := by
  have hfunctions : c.openFunctions = d.openFunctions := by
    rw [hdc.functions]
    cases d.openFunctions <;> rfl
  refine (beginFunction_succeeds returnType hparams c).bind fun function e _ he => ?_
  rw [hfunctions] at he
  cases name with
  | none => exact Succeeds.pure ⟨hdc.toDeclares.trans he.1, he.2⟩
  | some text =>
    have hfits : (Instruction.mk opName none none (function.id.word :: textWords text)).Fits := by
      have := hname text rfl
      simp only [Instruction.Fits, Instruction.wordCount, Instruction.maxWordCount,
        Instruction.slot_none, List.length_nil, List.length_cons]
      omega
    have hrun := Build.emit_of_fits hfits .debugNames e
    have hmoves := emit_stages (s := .debugNames) (by decide)
      ⟨opName, none, none, function.id.word :: textWords text⟩ e
    rw [after_of_ok hrun] at hmoves
    exact Succeeds.bind ⟨(), _, hrun, (hdc.toDeclares.trans he.1).trans hmoves.toDeclares, he.2⟩
      fun _ _ _ h => Succeeds.pure h

theorem beginNamedFunction_succeeds {name : Option String} (returnType : Option Id)
    {paramTypes : List Id} (hname : ∀ text, name = some text → (textWords text).length ≤ 65533)
    (hparams : paramTypes.length ≤ 65532) (d : Draft) :
    Succeeds (Build.beginNamedFunction name returnType paramTypes) d fun function e =>
      Declares d e ∧ e.openFunctions = StagedFunction.stage
        (function.prologue ++ [.label function.entry]) [] {} :: d.openFunctions := by
  cases returnType with
  | some type =>
    rw [Build.beginNamedFunction_some]
    exact beginNamed_succeeds type hname hparams (Stages.refl d)
  | none =>
    rw [Build.beginNamedFunction_none]
    refine Succeeds.bind (P := fun _ c => Stages [] [] d c) ?_
      fun type c _ => beginNamed_succeeds type hname hparams
    exact ((Stages.refl d).declare fun id => Instruction.fits_of_length (by simp) (some id)).mono
      fun _ _ h => h.1

/-- The layout after the instructions `insts`, all of which fit, have been added to the
section `s`. -/
def Layout.addAll (layout : Layout) (s : Section) (insts : List Instruction)
    (h : ∀ inst ∈ insts, inst.Fits) : Layout where
  newest := (insts.map fun inst => (s, inst)).reverse ++ layout.newest
  fits := by
    intro entry hentry
    rcases List.mem_append.mp hentry with hnew | hold
    · obtain ⟨inst, hinst, rfl⟩ := List.mem_map.mp (List.mem_reverse.mp hnew)
      exact h inst hinst
    · exact layout.fits entry hold

/-- Adding `inst` and then the `rest` adds them all. -/
theorem Layout.addAll_cons (layout : Layout) (s : Section) {inst : Instruction}
    {rest : List Instruction} (hinst : inst.Fits) (hrest : ∀ other ∈ rest, other.Fits) :
    (layout.add s inst hinst).addAll s rest hrest
      = layout.addAll s (inst :: rest) (List.forall_mem_cons.mpr ⟨hinst, hrest⟩) := by
  refine Layout.ext ?_
  simp only [addAll, add, List.map_cons, List.reverse_cons, List.append_assoc,
    List.singleton_append]

theorem Build.emitAll_of_fits {insts : List Instruction} (h : ∀ inst ∈ insts, inst.Fits)
    (s : Section) (d : Draft) :
    Build.emitAll s insts d = .ok ()
      { d with layout := d.layout.addAll s insts h } := by
  induction insts generalizing d with
  | nil => rfl
  | cons inst rest ih =>
    rw [Build.emitAll, bind_of_ok (Build.emit_of_fits (h inst List.mem_cons_self) s d),
      ih fun inst hinst => h inst (List.mem_cons_of_mem _ hinst)]
    simp only [Layout.addAll_cons]

/-- The instructions `kept` before one that is too long are written. -/
theorem Build.emitAll_of_not_fits {kept : List Instruction} (h : ∀ inst ∈ kept, inst.Fits)
    {inst : Instruction} (hinst : ¬ inst.Fits) (rest : List Instruction) (s : Section) (d : Draft) :
    Build.emitAll s (kept ++ inst :: rest) d = .error (.tooLong inst.opcode inst.wordCount)
      { d with layout := d.layout.addAll s kept h } := by
  induction kept generalizing d with
  | nil =>
    rw [List.nil_append, Build.emitAll, bind_of_error (Build.emit_of_not_fits hinst s d)]
    rfl
  | cons first kept ih =>
    rw [List.cons_append, Build.emitAll,
      bind_of_ok (Build.emit_of_fits (h first List.mem_cons_self) s d),
      ih fun inst hinst => h inst (List.mem_cons_of_mem _ hinst)]
    simp only [Layout.addAll_cons]

/-- Closing a function writes its `head` and its `body`. -/
theorem endFunction_succeeds {d : Draft} {head body : List Instruction}
    {outer : List StagedFunction}
    (hopen : d.openFunctions = StagedFunction.stage head body {} :: outer)
    (hfits : ∀ inst ∈ head ++ body, inst.Fits) :
    Succeeds Build.endFunction d fun _ e => e.openFunctions = outer ∧ e.known = d.known ∧
      e.ids = d.ids ∧ e.layout.newest = ((head ++ body ++ [Instruction.functionEnd]).map
        fun inst => (Section.functionDefinitions, inst)).reverse ++ d.layout.newest := by
  have hpush := Build.updateFunction_of_open hopen (·.pushBody Instruction.functionEnd)
  refine Succeeds.bind (P := fun _ e => e = _) ⟨(), _, hpush, rfl⟩ fun _ e _ he => ?_
  subst he
  let innermost := (StagedFunction.stage head body {}).pushBody .functionEnd
  have hinstructions : innermost.instructions = head ++ body ++ [.functionEnd] := by
    simp [innermost, StagedFunction.instructions, StagedFunction.head, StagedFunction.body,
      StagedFunction.stage, StagedFunction.pushBody]
  have hclose := Build.closeFunction_of_open (d := { d with openFunctions := innermost :: outer })
    rfl
  rw [hinstructions, Build.emitAll_of_fits] at hclose
  · exact ⟨(), _, hclose, rfl, rfl, rfl, rfl⟩
  · intro inst hinst
    rcases List.mem_append.mp hinst with h | h
    · exact hfits inst h
    · rw [List.mem_singleton.mp h]
      exact Instruction.fits_of_length (by decide) _

/-! ### Functions -/

/-- The instruction by which a function returns, `OpReturn` or `OpReturnValue`. -/
def Command.returnInstruction (names : Names) : Command → Instruction
  | .returnValue value => { opcode := opReturnValue, operands := [(names.id value).word] }
  | _ => { opcode := opReturn }

theorem Command.returnInstruction_fits (names : Names) (ending : Command) :
    (ending.returnInstruction names).Fits := by
  cases ending <;> exact Instruction.fits_of_length (by simp) _

theorem Command.perform_return {ending : Command} (h : ending.IsReturn) {names : Names} {d : Draft}
    {innermost : StagedFunction} {outer : List StagedFunction}
    (hopen : d.openFunctions = innermost :: outer) :
    Succeeds (ending.perform names) d fun _ e => e =
      { d with
        openFunctions := innermost.pushBody (ending.returnInstruction names) :: outer } := by
  have hpush := Build.updateFunction_of_open hopen (·.pushBody (ending.returnInstruction names))
  cases ending with
  | returnVoid => exact Succeeds.bind ⟨(), _, hpush, rfl⟩ fun _ _ _ h => Succeeds.pure h
  | returnValue value => exact Succeeds.bind ⟨(), _, hpush, rfl⟩ fun _ _ _ h => Succeeds.pure h
  | _ => exact h.elim

/-- Begins a function and binds its parameters, as `Run.defineFunction` does before the body is
carried out. -/
def Run.enterFunction {τ : Type} (bound name : Option String) (returnType : Option Id)
    (paramTypes : List Id) : Run τ Unit := do
  let function ← lift (Build.beginNamedFunction name returnType paramTypes)
  bindParams bound function

/-- The sessions that the definition of a function goes through, and the `flow` it writes.  The
function is `opened`, its body is carried out, and what has been staged is written when it is
`closed`. -/
structure FunctionRun {τ : Type} (name : Option String) (returnType : Option Id)
    (paramTypes : List Id) (body : Script τ) (ending : Command) (function : FunctionDef)
    (flow : Flow) (s opened closed t : Session τ) : Prop where
  begins : Build.beginNamedFunction name returnType paramTypes s.draft = .ok function opened.draft
  declares : Declares s.draft opened.draft
  opens : opened.draft.openFunctions = StagedFunction.stage
    (function.prologue ++ [.label function.entry]) [] {} :: s.draft.openFunctions
  runs : body.run false opened = .ok () closed
  resolves : body.Resolves opened.names flow closed.names
  stages : Stages flow.head flow.body opened.draft closed.draft
  noted : flow.Noted closed.draft
  openFunctions : t.draft.openFunctions = s.draft.openFunctions
  ids : t.draft.ids.count = closed.draft.ids.count
  known : t.draft.known = closed.draft.known
  writes : t.draft.layout.newest = ((function.prologue ++ .label function.entry :: flow.head
    ++ flow.body ++ [ending.returnInstruction closed.names, .functionEnd]).map fun inst =>
      (Section.functionDefinitions, inst)).reverse ++ closed.draft.layout.newest

theorem StagedFunction.stage_stage (head head' body body' : List Instruction)
    (function : StagedFunction) :
    (function.stage head body).stage head' body'
      = function.stage (head ++ head') (body ++ body') := by
  simp [stage]

/-- A return that ends a body stages its instruction. -/
theorem Script.run_return {τ : Type} (mark : Mark τ) {ending : Command} (h : ending.IsReturn)
    {s : Session τ} {innermost : StagedFunction} {outer : List StagedFunction}
    (hopen : s.draft.openFunctions = innermost :: outer) :
    Succeeds ((Script.command mark ending .done).run false) s fun _ t => t.draft =
      { s.draft with
        openFunctions := innermost.stage [] [ending.returnInstruction s.names] :: outer } := by
  have hstep : Succeeds (Run.lift (ending.perform s.names) >>= Run.answer mark) s fun _ t =>
      t.draft = { s.draft with
        openFunctions := innermost.stage [] [ending.returnInstruction s.names] :: outer } := by
    refine (Run.lift_succeeds (Command.perform_return h hopen)).bind fun reply t _ ht => ?_
    exact (Run.answer_succeeds mark reply t).mono fun _ u hu => hu.1.trans ht.1
  rw [run]
  refine Succeeds.bind (Run.attempt_succeeds (P := fun d _ => d = { s.draft with
    openFunctions := innermost.stage [] [ending.returnInstruction s.names] :: outer })
    false mark ?_ hstep) fun _ _ _ h => Succeeds.pure h
  rfl

/-- A function with a body of statements that ends with a return is written as a whole, when
its name, its parameters and the declarations of its body are. -/
theorem defineFunction_writes {τ : Type} (s : Session τ) {body : Script τ} (hbody : body.IsBody)
    {ending : Command} (hending : ending.IsReturn) (mark : Mark τ) (bound : Option String)
    {name : Option String} (returnType : Option Id) {paramTypes : List Id}
    (hname : ∀ text, name = some text → (textWords text).length ≤ 65533)
    (hparams : paramTypes.length ≤ 65532)
    (hdecl : body.DeclarationsSucceed
      (after (Run.enterFunction bound name returnType paramTypes) s)) :
    Succeeds (Build.defineFunction name returnType paramTypes fun function => do
      Run.bindParams bound function
      (body.append (.command mark ending .done)).run false) s fun function t =>
        ∃ flow closed, FunctionRun name returnType paramTypes body ending function flow s
          (after (Run.enterFunction bound name returnType paramTypes) s) closed t := by
  refine (Run.lift_succeeds (beginNamedFunction_succeeds returnType hname hparams s.draft)).bind
    fun function t hbegin h => ?_
  obtain ⟨⟨hdeclares, hopens⟩, -⟩ := h
  have hbound : Succeeds (Run.bindParams bound function) t fun _ u => u.draft = t.draft := by
    cases bound <;> exact ⟨(), _, rfl, rfl⟩
  obtain ⟨_, opened, hopened, hdraft⟩ := hbound
  have hafter : after (Run.enterFunction bound name returnType paramTypes) s = opened := by
    rw [Run.enterFunction, after_bind_of_ok hbegin, after_of_ok hopened]
  rw [hafter] at hdecl ⊢
  have hbegins := Run.lift_eq_ok hbegin
  rw [← hdraft] at hdeclares hopens hbegins
  have hopen : opened.draft.openFunctions ≠ [] := by
    rw [hopens]
    exact List.cons_ne_nil _ _
  obtain ⟨_, closed, hruns, flow, hresolves, hstages, hnoted⟩ :=
    Script.run_stages hbody opened hopen hdecl
  have hclosed : closed.draft.openFunctions = StagedFunction.stage
      (function.prologue ++ [.label function.entry] ++ flow.head) flow.body {}
        :: s.draft.openFunctions := by
    rw [hstages.functions, hopens, List.modifyHead_cons, StagedFunction.stage_stage]
    rfl
  obtain ⟨_, u, hreturn, hu⟩ := Script.run_return mark hending hclosed
  have hinner : (do
      Run.bindParams bound function
      (body.append (.command mark ending .done)).run false : Run τ Unit) t = .ok () u := by
    rw [bind_of_ok hopened, Script.run_append, bind_of_ok hruns, hreturn]
  have hopens' : u.draft.openFunctions = StagedFunction.stage
      (function.prologue ++ [.label function.entry] ++ flow.head)
      (flow.body ++ [ending.returnInstruction closed.names]) {} :: s.draft.openFunctions := by
    rw [hu, StagedFunction.stage_stage, List.append_nil]
  refine Succeeds.bind (P := fun _ u' => u' = u) ⟨(), u, hinner, rfl⟩ fun _ u' _ hu' => ?_
  subst hu'
  refine Succeeds.bind (Run.lift_succeeds (endFunction_succeeds hopens' ?_)) fun _ v _ hv =>
    Succeeds.pure ⟨flow, closed, ?_⟩
  · -- the instructions of the flow are those of a plain one, and all others are small
    have hplain := (hresolves.plain hbody).fits
    intro inst hinst
    simp only [FunctionDef.prologue, List.mem_append, List.mem_cons, List.mem_map,
      List.not_mem_nil, or_false] at hinst
    rcases hinst with (((rfl | ⟨param, -, rfl⟩) | rfl) | hinst) | hinst | rfl
    · exact Instruction.fits_of_length (by simp) _
    · exact Instruction.fits_of_length (by simp) _
    · exact Instruction.fits_of_length (by simp) _
    · exact hplain inst (List.mem_append_left _ hinst)
    · exact hplain inst (List.mem_append_right _ hinst)
    · exact Command.returnInstruction_fits _ _
  · obtain ⟨⟨hfunctions, hknown, hids, hlayout⟩, -⟩ := hv
    rw [hu] at hknown hids hlayout
    refine ⟨hbegins, hdeclares, hopens, hruns, hresolves, hstages, hnoted, hfunctions, ?_, hknown,
      ?_⟩
    · rw [hids]
    · rw [hlayout]
      simp only [List.append_assoc, List.cons_append, List.nil_append]

/-! ### What has been written -/

theorem Layout.instructions_added {layout layout' : Layout}
    {added : List (Section × Instruction)} (h : layout'.newest = added ++ layout.newest)
    (s : Section) :
    layout'.instructions s = layout.instructions s
      ++ (added.reverse.filter fun entry => entry.1 = s).map Prod.snd := by
  simp only [instructions, entries, h, List.reverse_append, List.filter_append, List.map_append]

/-- Declarations do not add to the function definitions. -/
theorem Declares.functionDefinitions {d e : Draft} (h : Declares d e) :
    e.layout.instructions .functionDefinitions = d.layout.instructions .functionDefinitions := by
  obtain ⟨added, hadded, hsection, -⟩ := h.written
  have hnone : (added.reverse.filter fun entry => entry.1 = Section.functionDefinitions) = [] := by
    refine List.filter_eq_nil_iff.mpr fun entry hentry => ?_
    have hne := hsection entry (List.mem_reverse.mp hentry)
    simpa using hne
  rw [Layout.instructions_added hadded, hnone, List.map_nil, List.append_nil]

/-- A function is added to the function definitions as a whole. -/
theorem FunctionRun.functionDefinitions {τ : Type} {name : Option String} {returnType : Option Id}
    {paramTypes : List Id} {body : Script τ} {ending : Command} {function : FunctionDef}
    {flow : Flow} {s opened closed t : Session τ}
    (run : FunctionRun name returnType paramTypes body ending function flow s opened closed t) :
    t.draft.layout.instructions .functionDefinitions
      = s.draft.layout.instructions .functionDefinitions
        ++ (function.prologue ++ .label function.entry :: flow.head ++ flow.body
          ++ [ending.returnInstruction closed.names, .functionEnd]) := by
  have hall : ∀ insts : List Instruction,
      ((insts.map fun inst => (Section.functionDefinitions, inst)).filter fun entry =>
        entry.1 = Section.functionDefinitions).map Prod.snd = insts := by
    intro insts
    rw [List.filter_eq_self.mpr (by simp), List.map_map]
    exact List.map_id _
  rw [Layout.instructions_added run.writes, List.reverse_reverse, hall,
    run.stages.toDeclares.functionDefinitions, run.declares.functionDefinitions]

end SpirvBinary
