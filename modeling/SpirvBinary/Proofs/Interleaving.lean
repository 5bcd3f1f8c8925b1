import Mathlib.Data.List.Perm.Basic
import SpirvBinary.Proofs.Agreement
import SpirvBinary.Proofs.DeclaredOnce
import SpirvBinary.Proofs.Statements

/-!
# Steps that may change places

A module has its sections in a fixed order, whatever the order was in which they were
written.  So steps that only write to a section may be moved past steps that do not, and so
may lookups of structs.  The other steps, those that hand out ids, declare, register structs
or work on functions, have to stay in order, for what they answer depends on it.

Two runs of the same steps are compared here.  The steps that have to stay in order are in
the same order in both, and so are, for each section, the steps that write to it; all others
are in any order.  Then every step answers the same and writes the same in both, and the
modules are equal.

## Main definitions

* `Script.steps` — the steps of a script, one by one.
* `Script.isFree` — a step that only writes one instruction, or only looks up a struct.
* `Visit`, `Plan.visits` — the steps of a build, with what each has written and answered.

## Main results

* `build_interleaved` — **a module does not depend on how its sections are interleaved.**
-/

namespace SpirvBinary

variable {τ : Type}

/-! ### Steps -/

namespace Script

/-- The steps of a script, each one as a script of its own. -/
def steps : Script τ → List (Script τ)
  | .done => []
  | .command mark operation next => .command mark operation .done :: next.steps
  | .ifThen mark condition arm next => .ifThen mark condition arm .done :: next.steps
  | .ifThenElse mark condition onTrue onFalse next =>
      .ifThenElse mark condition onTrue onFalse .done :: next.steps
  | .countedLoop mark count body next => .countedLoop mark count body .done :: next.steps
  | .defineFunction mark name returnType params body next =>
      .defineFunction mark name returnType params body .done :: next.steps
  | .build mark plan script next => .build mark plan script .done :: next.steps

end Script

/-- The reference does not depend on names. -/
def Ref.isGiven : Ref → Bool
  | .given _ => true
  | .named _ => false

/-- The operand does not depend on names. -/
def Operand.isGiven : Operand → Bool
  | .literal _ | .raw _ | .none => true
  | .id ref => ref.isGiven
  | .append first second => first.isGiven && second.isGiven
  | .replicate _ operand => operand.isGiven

/-- The instruction does not depend on names. -/
def Template.isGiven (template : Template) : Bool :=
  template.resultType.all Ref.isGiven && template.result.all Ref.isGiven &&
    template.operands.isGiven

/-- A command that writes one instruction, with ids that are given. -/
def Command.isDirective : Command → Bool
  | .capability .. | .useExtension .. | .memoryModel .. | .sourceLanguage .. | .processedBy .. =>
      true
  | .emit _ template => template.isGiven
  | .entryPoint _ function _ interface => function.isGiven && interface.all Ref.isGiven
  | .executionMode target .. | .nameId target .. | .nameMember target .. | .decorate target ..
  | .decorateMember target .. => target.isGiven
  | _ => false

/-- A step that only writes one instruction, or that looks a struct up and binds no name.  Only
such steps may change places with others. -/
def Script.isFree : Script τ → Bool
  | .command mark (.structType _) .done => mark.name.isNone
  | .command _ operation .done => operation.isDirective
  | _ => false

/-! ### Visits -/

/-- A step of a run, with what it has written and what has been answered in its course. -/
structure Visit (τ : Type) where
  step : Script τ
  written : List (Section × Instruction)
  /-- The answers of the steps of its bodies, and its own, which is the last. -/
  told : List (τ × Except Fault Reply)

namespace Visit

/-- What the step has written to the section `s`. -/
def instructions (visit : Visit τ) (s : Section) : List Instruction :=
  (visit.written.filter fun entry => entry.1 = s).map Prod.snd

/-- The step has written to the section `s`. -/
def writes (visit : Visit τ) (s : Section) : Bool := !(visit.instructions s).isEmpty

/-- The step has not failed. -/
def succeeded (visit : Visit τ) : Bool :=
  match visit.told.getLast? with
  | some (_, .error _) => false
  | _ => true

/-- The steps that have written to the section `s`, in order. -/
def writers (all : List (Visit τ)) (s : Section) : List (Script τ) :=
  (all.filter fun visit => visit.writes s).map Visit.step

end Visit

/-- Only the visits that write to the section `sec` count for it. -/
theorem Visit.flatMap_writers (all : List (Visit τ)) (sec : Section) :
    ((all.filter fun visit => visit.writes sec).flatMap fun visit => visit.instructions sec)
      = all.flatMap fun visit => visit.instructions sec := by
  induction all with
  | nil => rfl
  | cons visit rest ih =>
    by_cases h : visit.instructions sec = []
    · rw [List.filter_cons, if_neg (by simp [writes, h]), ih, List.flatMap_cons, h, List.nil_append]
    · rw [List.filter_cons, if_pos (by simp [writes, h]), List.flatMap_cons, ih, List.flatMap_cons]

/-- The visits of the given steps when they are carried out one after the other from a session. -/
def visits (lenient : Bool) : List (Script τ) → Session τ → List (Visit τ)
  | [], _ => []
  | step :: rest, s =>
      let t := after (step.run lenient) s
      { step := step
        written := t.draft.layout.entries.drop s.draft.layout.entries.length
        told := (t.trace.drop s.trace.length).map Report.answer } :: visits lenient rest t

/-- The visits of a build of `script`. -/
def Plan.visits (plan : Plan) (script : Script τ) : List (Visit τ) :=
  SpirvBinary.visits plan.lenient script.steps { draft := plan.draft }

/-! ### What a session is continued from -/

/-- All of a session that what follows depends on: neither its `layout`, nor its journal and
reports. -/
def Session.core (s : Session τ) : Draft × Names :=
  ({ s.draft with layout := {}, journal := [] }, s.names)

theorem Session.Tracks.core {start start' s s' : Session τ}
    (h : Session.Tracks start start' s s') : s'.core = s.core := by
  obtain ⟨new, layout, journal, -, -, hdraft⟩ := h.draft
  rw [Session.core, Session.core, h.names, hdraft]

theorem Session.tracks_of_core {s s' : Session τ} (h : s'.core = s.core) :
    Session.Tracks s s' s s' := by
  obtain ⟨hdraft, hnames⟩ := Prod.mk.inj h
  refine ⟨⟨[], s'.draft.layout, s'.draft.journal, rfl, rfl, ?_⟩, hnames, [], rfl, rfl⟩
  simp only [Draft.mk.injEq, true_and, and_true] at hdraft
  obtain ⟨hsettings, hids, hknown, hfunctions⟩ := hdraft
  rw [← hsettings, ← hids, ← hknown, ← hfunctions]

/-- From sessions with the same `core` a step goes on in the same way. -/
theorem Script.run_of_core {step : Script τ} {lenient : Bool} {s s' t : Session τ}
    (hcore : s'.core = s.core) (hrun : step.run lenient s = .ok () t) :
    ∃ t' written told, step.run lenient s' = .ok () t' ∧ t'.core = t.core ∧
      t.draft.layout.entries = s.draft.layout.entries ++ written ∧
      t'.draft.layout.entries = s'.draft.layout.entries ++ written ∧
      t.trace.map Report.answer = s.trace.map Report.answer ++ told ∧
      t'.trace.map Report.answer = s'.trace.map Report.answer ++ told := by
  rcases (step.run_agrees lenient s s' (Session.tracks_of_core hcore)).elim with
    ⟨_, _, u, t', hu, hrun', -, ht⟩ | ⟨fault, u, t', hu, -⟩
  · rw [hrun] at hu
    cases hu
    obtain ⟨new, layout, journal, hnew, hlayout, hdraft⟩ := ht.draft
    obtain ⟨told, htold, htold'⟩ := ht.reports
    refine ⟨t', new.reverse, told.reverse, hrun', ht.core, ?_, ?_, ?_, ?_⟩
    · rw [Layout.entries, hnew, List.reverse_append, Layout.entries]
    · rw [hdraft, Layout.entries, hlayout, List.reverse_append, Layout.entries]
    · rw [Session.trace, List.map_reverse, htold, List.reverse_append, Session.trace,
        List.map_reverse]
    · rw [Session.trace, List.map_reverse, htold', List.reverse_append, Session.trace,
        List.map_reverse]
  · rw [hrun] at hu
    cases hu

/-! ### Runs as lists of visits -/

/-- The step of `visit` takes the session `s` to the session `t`, and writes and tells what the
visit says. -/
structure Visit.Takes (visit : Visit τ) (lenient : Bool) (s t : Session τ) : Prop where
  run : visit.step.run lenient s = .ok () t
  written : t.draft.layout.entries = s.draft.layout.entries ++ visit.written
  told : t.trace.map Report.answer = s.trace.map Report.answer ++ visit.told

/-- Visits take a session to another one, one after the other. -/
inductive Passes (lenient : Bool) : List (Visit τ) → Session τ → Session τ → Prop
  | nil (s : Session τ) : Passes lenient [] s s
  | cons {visit : Visit τ} {rest : List (Visit τ)} {s t u : Session τ}
      (takes : visit.Takes lenient s t) (passes : Passes lenient rest t u) :
      Passes lenient (visit :: rest) s u

namespace Passes

variable {lenient : Bool} {all all' : List (Visit τ)} {s s' t t' : Session τ}

theorem exists_cons (step : Script τ) {next : Script τ}
    (ih : ∀ s t, next.run lenient s = .ok () t →
      ∃ rest, rest.map Visit.step = next.steps ∧ Passes lenient rest s t)
    (hrun : (step.append next).run lenient s = .ok () t) :
    ∃ all, all.map Visit.step = step :: next.steps ∧ Passes lenient all s t := by
  rw [Script.run_append] at hrun
  obtain ⟨_, u, hstep, hnext⟩ := exists_of_bind_ok hrun
  obtain ⟨_, written, told, -, -, hwritten, -, htold, -⟩ := Script.run_of_core rfl hstep
  obtain ⟨rest, hrest, hpasses⟩ := ih u t hnext
  refine ⟨⟨step, written, told⟩ :: rest, ?_, .cons ⟨hstep, hwritten, htold⟩ hpasses⟩
  rw [List.map_cons, hrest]

/-- A run that succeeds is a list of visits. -/
theorem exists_of_run {script : Script τ} (hrun : script.run lenient s = .ok () t) :
    ∃ all, all.map Visit.step = script.steps ∧ Passes lenient all s t := by
  induction script generalizing s t with
  | done =>
    cases hrun
    exact ⟨[], rfl, .nil s⟩
  | command mark operation next ih =>
    exact exists_cons (.command mark operation .done) (fun _ _ => ih) hrun
  | ifThen mark condition arm next _ ih =>
    exact exists_cons (.ifThen mark condition arm .done) (fun _ _ => ih) hrun
  | ifThenElse mark condition onTrue onFalse next _ _ ih =>
    exact exists_cons (.ifThenElse mark condition onTrue onFalse .done) (fun _ _ => ih) hrun
  | countedLoop mark count body next _ ih =>
    exact exists_cons (.countedLoop mark count body .done) (fun _ _ => ih) hrun
  | defineFunction mark name returnType params body next _ ih =>
    exact exists_cons (.defineFunction mark name returnType params body .done) (fun _ _ => ih) hrun
  | build mark plan script next _ ih =>
    exact exists_cons (.build mark plan script .done) (fun _ _ => ih) hrun

/-- The visits `all` are those of their steps. -/
theorem visits_eq (h : Passes lenient all s t) : visits lenient (all.map Visit.step) s = all := by
  induction h with
  | nil s => rfl
  | @cons visit rest s t u takes _ ih =>
    rw [List.map_cons, visits, after_of_ok takes.run, ih, takes.written, List.drop_left,
      List.map_drop, takes.told, List.drop_left' (List.length_map _)]

theorem eq_foldl (h : Passes lenient all s t) :
    t = (all.map Visit.step).foldl (fun s step => after (step.run lenient) s) s := by
  induction h with
  | nil s => rfl
  | cons takes _ ih => rw [List.map_cons, List.foldl_cons, after_of_ok takes.run, ← ih]

/-- The same steps lead from the same session through the same visits to the same session. -/
theorem unique (h : Passes lenient all s t) (h' : Passes lenient all' s t')
    (hsteps : all.map Visit.step = all'.map Visit.step) : all = all' ∧ t = t' := by
  constructor
  · rw [← h.visits_eq, hsteps, h'.visits_eq]
  · rw [h.eq_foldl, hsteps, ← h'.eq_foldl]

/-- What the section `sec` holds in the end is what the visits have written to it. -/
theorem instructions (h : Passes lenient all s t) (sec : Section) :
    t.draft.layout.instructions sec =
      s.draft.layout.instructions sec ++ all.flatMap fun visit => visit.instructions sec := by
  induction h with
  | nil s => rw [List.flatMap_nil, List.append_nil]
  | cons takes _ ih =>
    rw [ih, List.flatMap_cons, ← List.append_assoc]
    simp only [Layout.instructions, takes.written, List.filter_append, List.map_append,
      Visit.instructions]

/-- A `visit` takes place in the course of the run. -/
theorem exists_takes (h : Passes lenient all s t) {visit : Visit τ} (hvisit : visit ∈ all) :
    ∃ u v, visit.Takes lenient u v ∧ Precedes (fun _ => True) u.draft t.draft := by
  have hmoves : ∀ {visit : Visit τ} {u v : Session τ}, visit.Takes lenient u v →
      Precedes (fun _ => True) u.draft v.draft := by
    intro visit u v htakes
    have hrun := Precedes.run visit.step lenient u
    rw [after_of_ok htakes.run] at hrun
    exact hrun
  suffices hall : Precedes (fun _ => True) s.draft t.draft ∧
      (visit ∈ all → ∃ u v, visit.Takes lenient u v ∧ Precedes (fun _ => True) u.draft t.draft) from
    hall.2 hvisit
  clear hvisit
  induction h with
  | nil s => exact ⟨.refl _, nofun⟩
  | cons takes _ ih =>
    refine ⟨(hmoves takes).trans ih.1, fun hmem => ?_⟩
    rcases List.mem_cons.mp hmem with rfl | hmem
    · exact ⟨_, _, takes, (hmoves takes).trans ih.1⟩
    · exact ih.2 hmem

end Passes

/-! ### Free steps -/

theorem Names.id_of_given {ref : Ref} (h : ref.isGiven) (names : Names) :
    names.id ref = ({} : Names).id ref := by
  cases ref with
  | given id => rfl
  | named name => cases h

theorem Names.ids_of_given {refs : List Ref} (h : refs.all Ref.isGiven) (names : Names) :
    refs.map names.id = refs.map ({} : Names).id := by
  refine List.map_congr_left fun ref href => ?_
  exact Names.id_of_given (List.all_eq_true.mp h ref href) names

theorem Operand.words_of_given {operand : Operand} (h : operand.isGiven) (names : Names) :
    operand.words names = operand.words {} := by
  induction operand with
  | literal | raw | none => rfl
  | id ref => rw [words, words, Names.word, Names.word, Names.id_of_given h names]
  | append first second ihfirst ihsecond =>
    rw [isGiven, Bool.and_eq_true] at h
    rw [words, words, ihfirst h.1, ihsecond h.2]
  | replicate count operand ih => rw [words, words, ih h]

theorem Template.instruction_of_given {template : Template} (h : template.isGiven)
    (names : Names) : template.instruction names = template.instruction {} := by
  have hslot : ∀ {ref : Option Ref}, ref.all Ref.isGiven →
      ref.map names.id = ref.map ({} : Names).id := by
    intro ref href
    cases ref with
    | none => rfl
    | some ref => exact congrArg some (Names.id_of_given href names)
  rw [isGiven, Bool.and_eq_true, Bool.and_eq_true] at h
  rw [instruction, instruction, hslot h.1.1, hslot h.1.2, Operand.words_of_given h.2 names]

/-- A directive writes one and the same instruction `inst` under all names. -/
theorem Command.perform_directive {operation : Command} (h : operation.isDirective) :
    ∃ sec inst, ∀ names, operation.perform names = answerDone (Build.emit sec inst) := by
  suffices hnames : ∀ names, operation.perform names = operation.perform {} by
    suffices hemit : ∃ sec inst, operation.perform {} = answerDone (Build.emit sec inst) by
      obtain ⟨sec, inst, hemit⟩ := hemit
      exact ⟨sec, inst, fun names => (hnames names).trans hemit⟩
    cases operation with
    | emit | capability | useExtension | memoryModel | entryPoint | executionMode
    | sourceLanguage | nameId | nameMember | processedBy | decorate | decorateMember =>
      exact ⟨_, _, rfl⟩
    | _ => cases h
  intro names
  cases operation with
  | capability | useExtension | memoryModel | sourceLanguage | processedBy => rfl
  | emit sec template => rw [perform, perform, Template.instruction_of_given h names]
  | entryPoint model function name interface =>
    rw [isDirective, Bool.and_eq_true] at h
    rw [perform, perform, Names.id_of_given h.1 names, Names.ids_of_given h.2 names]
  | executionMode | nameId | nameMember | decorate | decorateMember =>
    rw [perform, perform, Names.id_of_given h names]
  | _ => cases h

/-- A free step is a lookup without a name, or a directive. -/
theorem Script.free_cases {step : Script τ} (h : step.isFree) :
    (∃ mark name, step = .command mark (.structType name) .done ∧ mark.name = none) ∨
      ∃ mark operation, step = .command mark operation .done ∧ operation.isDirective := by
  unfold isFree at h
  split at h
  · exact .inl ⟨_, _, rfl, Option.isNone_iff_eq_none.mp h⟩
  · exact .inr ⟨_, _, rfl, h⟩
  · cases h

section Commands

variable {mark : Mark τ} {operation : Command} {s : Session τ} {d : Draft}

/-- The report of a command that answers `reply` and binds no name. -/
theorem Script.command_of_ok {reply : Reply} (h : operation.perform s.names s.draft = .ok reply d)
    (hname : (Run.bindReply mark.name reply : Run τ Unit) = pure ()) (lenient : Bool) :
    (Script.command mark operation .done).run lenient s
      = .ok () (({ s with draft := d } : Session τ).record
          (.step mark.tag (.ok reply) d.gauge)) := by
  have hlift : (Run.lift (operation.perform s.names) : Run τ Reply) s
      = .ok reply { s with draft := d } := by
    rw [Run.lift, h]
  have hstep : (do
        let session ← get
        let reply ← Run.lift (operation.perform session.names)
        Run.answer mark reply : Run τ (Gauge → Report τ)) s
      = .ok (.step mark.tag (.ok reply)) { s with draft := d } := by
    change (Run.lift (operation.perform s.names) >>= fun reply => Run.answer mark reply) s = _
    rw [bind_of_ok hlift, Run.answer, hname]
    rfl
  rw [Script.run]
  refine (bind_of_ok (a := ()) ?_).trans rfl
  rw [Run.attempt, hstep]

/-- A command that fails changes nothing but the trace when it changes no draft. -/
theorem Script.command_of_error {fault : Fault}
    (h : operation.perform s.names s.draft = .error fault s.draft) {lenient : Bool}
    {t : Session τ} (hrun : (Script.command mark operation .done).run lenient s = .ok () t) :
    t = s.record (.step mark.tag (.error fault) s.draft.gauge) := by
  have hlift : (Run.lift (operation.perform s.names) : Run τ Reply) s = .error fault s := by
    rw [Run.lift, h]
  have hstep : (do
        let session ← get
        let reply ← Run.lift (operation.perform session.names)
        Run.answer mark reply : Run τ (Gauge → Report τ)) s = .error fault s := by
    change (Run.lift (operation.perform s.names) >>= fun reply => Run.answer mark reply) s = _
    rw [bind_of_error hlift]
  rw [Script.run] at hrun
  obtain ⟨_, u, hattempt, hdone⟩ := exists_of_bind_ok hrun
  rw [Run.attempt, hstep] at hattempt
  dsimp only at hattempt
  split at hattempt
  · cases hattempt
    cases hdone
    rfl
  · cases hattempt

end Commands

namespace Visit.Takes

variable {visit visit' : Visit τ} {lenient : Bool} {s s' t t' : Session τ} {mark : Mark τ}

/-- A visit of which only one `report` is left. -/
theorem of_record {d : Draft} {report : Report τ} {written : List (Section × Instruction)}
    (h : visit.Takes lenient s (({ s with draft := d } : Session τ).record report))
    (hd : d.layout.entries = s.draft.layout.entries ++ written) :
    visit.written = written ∧ visit.told = [report.answer] := by
  constructor
  · exact List.append_cancel_left (h.written.symm.trans hd)
  · refine List.append_cancel_left (h.told.symm.trans ?_)
    rw [Session.record, Session.trace, List.reverse_cons, List.map_append]
    rfl

/-- A directive writes its instruction `inst` if it fits. -/
theorem directive {operation : Command} {sec : Section} {inst : Instruction}
    (h : visit.Takes lenient s t) (hstep : visit.step = .command mark operation .done)
    (hemit : ∀ names, operation.perform names = Command.answerDone (Build.emit sec inst)) :
    t.core = s.core ∧
      (visit.written, visit.told) = if inst.Fits then ([(sec, inst)], [(mark.tag, .ok .done)])
        else ([], [(mark.tag, .error (.tooLong inst.opcode inst.wordCount))]) := by
  have hrun := h.run
  rw [hstep] at hrun
  by_cases hfits : inst.Fits
  · have hperform : operation.perform s.names s.draft = .ok .done
        { s.draft with layout := s.draft.layout.add sec inst hfits } := by
      rw [hemit, Command.answerDone, bind_of_ok (Build.emit_of_fits hfits sec s.draft)]
      rfl
    have hname : (Run.bindReply mark.name .done : Run τ Unit) = pure () := by
      cases mark.name <;> rfl
    rw [Script.command_of_ok hperform hname] at hrun
    cases hrun
    obtain ⟨hwritten, htold⟩ := h.of_record (List.reverse_cons (a := (sec, inst)))
    rw [if_pos hfits, hwritten, htold]
    exact ⟨rfl, rfl⟩
  · have hperform : operation.perform s.names s.draft
        = .error (.tooLong inst.opcode inst.wordCount) s.draft := by
      rw [hemit, Command.answerDone, bind_of_error (Build.emit_of_not_fits hfits sec s.draft)]
    cases Script.command_of_error hperform hrun
    obtain ⟨hwritten, htold⟩ := h.of_record (List.append_nil _).symm
    rw [if_neg hfits, hwritten, htold]
    exact ⟨rfl, rfl⟩

/-- A lookup of `name` answers what is known. -/
theorem lookup {name : String} (h : visit.Takes lenient s t)
    (hstep : visit.step = .command mark (.structType name) .done) (hname : mark.name = none) :
    t.core = s.core ∧ visit.written = [] ∧
      visit.told = [(mark.tag, (s.draft.known.struct name).map Reply.id)] := by
  have hrun := h.run
  rw [hstep] at hrun
  rw [Declarations.struct]
  cases hknown : s.draft.known.struct? name with
  | some id =>
    have hperform : (Command.structType name).perform s.names s.draft = .ok (.id id) s.draft := by
      rw [Command.perform, Command.answerId, bind_of_ok (Build.structType_of_known hknown)]
      rfl
    rw [Script.command_of_ok hperform (by rw [hname]; rfl)] at hrun
    cases hrun
    obtain ⟨hwritten, htold⟩ := h.of_record (List.append_nil _).symm
    exact ⟨rfl, hwritten, htold⟩
  | none =>
    have hperform : (Command.structType name).perform s.names s.draft
        = .error (.unknownStruct name) s.draft := by
      rw [Command.perform, Command.answerId, bind_of_error (Build.structType_of_unknown hknown)]
    cases Script.command_of_error hperform hrun
    obtain ⟨hwritten, htold⟩ := h.of_record (List.append_nil _).symm
    exact ⟨rfl, hwritten, htold⟩

/-- A free step leaves the `core` as it is, everything that others depend on. -/
theorem core_of_free (h : visit.Takes lenient s t) (hfree : visit.step.isFree) :
    t.core = s.core := by
  rcases Script.free_cases hfree with ⟨mark, name, hstep, hname⟩ | ⟨mark, operation, hstep, hop⟩
  · exact (h.lookup hstep hname).1
  · obtain ⟨sec, inst, hemit⟩ := Command.perform_directive hop
    exact (h.directive hstep hemit).1

/-- A free step writes and answers the same wherever it succeeds, provided that names are
registered with the same ids. -/
theorem eq_of_free (h : visit.Takes lenient s t) (h' : visit'.Takes lenient s' t')
    (hsame : visit.step = visit'.step) (hfree : visit.step.isFree) (hok : visit.succeeded)
    (hok' : visit'.succeeded) {known : Declarations}
    (hknown : ∀ name id, s.draft.known.struct? name = some id → known.struct? name = some id)
    (hknown' : ∀ name id, s'.draft.known.struct? name = some id →
      known.struct? name = some id) : visit = visit' := by
  suffices heq : visit.written = visit'.written ∧ visit.told = visit'.told by
    cases visit
    cases visit'
    cases hsame
    cases heq.1
    cases heq.2
    rfl
  rcases Script.free_cases hfree with ⟨mark, name, hstep, hname⟩ | ⟨mark, operation, hstep, hop⟩
  · obtain ⟨-, hwritten, htold⟩ := h.lookup hstep hname
    obtain ⟨-, hwritten', htold'⟩ := h'.lookup (hsame.symm.trans hstep) hname
    refine ⟨hwritten.trans hwritten'.symm, ?_⟩
    -- a lookup that succeeds answers the id that is known in the end
    have hanswer : ∀ {v : Visit τ} {d : Draft}, v.succeeded →
        (∀ name id, d.known.struct? name = some id → known.struct? name = some id) →
        v.told = [(mark.tag, (d.known.struct name).map Reply.id)] →
        v.told = [(mark.tag, (known.struct name).map Reply.id)] := by
      intro v d hv hd htold
      rw [htold, Declarations.struct, Declarations.struct]
      cases hfound : d.known.struct? name with
      | some id => rw [hd name id hfound]
      | none =>
        rw [succeeded, htold, Declarations.struct, hfound] at hv
        cases hv
    rw [hanswer hok hknown htold, hanswer hok' hknown' htold']
  · obtain ⟨sec, inst, hemit⟩ := Command.perform_directive hop
    have heq :=
      (h.directive hstep hemit).2.trans (h'.directive (hsame.symm.trans hstep) hemit).2.symm
    exact ⟨congrArg Prod.fst heq, congrArg Prod.snd heq⟩

end Visit.Takes

/-! ### Runs with the free steps left out -/

/-- The steps that are not free go on alone as they do among the free ones. -/
theorem Passes.tied {lenient : Bool} {all : List (Visit τ)} {s s' t : Session τ}
    (h : Passes lenient all s t) (hcore : s'.core = s.core) :
    ∃ t', Passes lenient (all.filter fun visit => !visit.step.isFree) s' t' ∧ t'.core = t.core := by
  induction h generalizing s' with
  | nil s => exact ⟨s', .nil s', hcore⟩
  | @cons visit rest s t u takes _ ih =>
    by_cases hfree : visit.step.isFree
    · rw [List.filter_cons_of_neg (by simp [hfree])]
      exact ih (hcore.trans (takes.core_of_free hfree).symm)
    · rw [List.filter_cons_of_pos (by simp [hfree])]
      obtain ⟨t', written, told, hrun, hcore', hwritten, hwritten', htold, htold'⟩ :=
        Script.run_of_core hcore takes.run
      rw [takes.written] at hwritten
      rw [takes.told] at htold
      cases List.append_cancel_left hwritten
      cases List.append_cancel_left htold
      obtain ⟨u', hpasses, hu⟩ := ih hcore'
      exact ⟨u', .cons ⟨hrun, hwritten', htold'⟩ hpasses, hu⟩

/-! ### Two runs of the same steps -/

/-- Visits `all` and `all'` of the same steps in the same order are the same, when those that are
not free are and free steps have the same visits. -/
theorem Visit.eq_of_steps {all all' : List (Visit τ)}
    (hsteps : all.map Visit.step = all'.map Visit.step)
    (htied : (all.filter fun visit => !visit.step.isFree)
      = all'.filter fun visit => !visit.step.isFree)
    (hfree : ∀ visit ∈ all, ∀ visit' ∈ all', visit.step.isFree → visit.step = visit'.step →
      visit = visit') : all = all' := by
  induction all generalizing all' with
  | nil => exact (List.map_eq_nil_iff.mp hsteps.symm).symm
  | cons visit rest ih =>
    cases all' with
    | nil => cases hsteps
    | cons visit' rest' =>
      obtain ⟨hstep, hrest⟩ := List.cons.inj hsteps
      have hfree' : ∀ v ∈ rest, ∀ v' ∈ rest', v.step.isFree → v.step = v'.step → v = v' :=
        fun v hv v' hv' => hfree v (List.mem_cons_of_mem _ hv) v' (List.mem_cons_of_mem _ hv')
      have hstep : visit.step = visit'.step := hstep
      by_cases h : visit.step.isFree
      · have h' : visit'.step.isFree := hstep ▸ h
        rw [List.filter_cons_of_neg (by simp [h]), List.filter_cons_of_neg (by simp [h'])] at htied
        rw [hfree visit List.mem_cons_self visit' List.mem_cons_self h hstep,
          ih hrest htied hfree']
      · have h' : ¬ visit'.step.isFree := hstep ▸ h
        rw [List.filter_cons_of_pos (by simp [h]), List.filter_cons_of_pos (by simp [h'])] at htied
        obtain ⟨hvisit, htied⟩ := List.cons.inj htied
        rw [hvisit, ih hrest htied hfree']

/-- Visits `all` and `all'` of free steps are the same in some order when their steps are. -/
theorem Visit.perm_of_steps {all all' : List (Visit τ)}
    (hsteps : (all.map Visit.step).Perm (all'.map Visit.step))
    (hall : ∀ visit ∈ all, visit.step.isFree)
    (hfree : ∀ visit ∈ all, ∀ visit' ∈ all', visit.step.isFree → visit.step = visit'.step →
      visit = visit') : all.Perm all' := by
  -- the visits on the one side, in the order that the steps have on the other side
  obtain ⟨middle, hmap, hperm⟩ : ∃ middle : List (Visit τ),
      all.map Visit.step = middle.map Visit.step ∧ middle.Perm all' := by
    have hcomp := congrFun (congrFun (List.eq_map_comp_perm Visit.step) (all.map Visit.step)) all'
    exact hcomp.mpr hsteps
  have hmiddle : ∀ visit ∈ middle, visit.step.isFree := by
    intro visit hvisit
    have hmem : visit.step ∈ middle.map Visit.step := List.mem_map_of_mem hvisit
    rw [← hmap] at hmem
    obtain ⟨other, hother, heq⟩ := List.mem_map.mp hmem
    exact heq ▸ hall other hother
  have heq : all = middle := by
    refine Visit.eq_of_steps hmap ?_ fun visit hvisit visit' hvisit' =>
      hfree visit hvisit visit' (hperm.subset hvisit')
    rw [List.filter_eq_nil_iff.mpr fun visit hvisit => by simp [hall visit hvisit],
      List.filter_eq_nil_iff.mpr fun visit hvisit => by simp [hmiddle visit hvisit]]
  rw [heq]
  exact hperm

/-- The steps of a build that succeeds take place one after the other. -/
theorem Plan.passes_of_build {plan : Plan} {script : Script τ} {binary : Binary}
    (h : (plan.build script).outcome = .ok binary) :
    ∃ t, Passes plan.lenient (plan.visits script) { draft := plan.draft } t ∧
      (plan.visits script).map Visit.step = script.steps ∧ binary = t.draft.binary := by
  unfold Plan.build Plan.buildBy at h
  cases hrun : (do
      script.run plan.lenient
      Run.lift Build.finish : Run τ Binary) { draft := plan.draft } with
  | error fault u =>
    simp only [hrun] at h
    cases h
  | ok result u =>
    simp only [hrun] at h
    cases h
    obtain ⟨_, t, hsteps, hfinish⟩ := exists_of_bind_ok hrun
    obtain ⟨all, hall, hpasses⟩ := Passes.exists_of_run hsteps
    have hvisits : plan.visits script = all := by
      rw [Plan.visits, ← hall]
      exact hpasses.visits_eq
    rw [hvisits]
    exact ⟨t, hpasses, hall, Build.eq_binary_of_finish (Run.lift_eq_ok hfinish)⟩

/-- A module is determined by what its sections hold and by the `core` of the session. -/
theorem Session.binary_eq {s s' : Session τ} (hcore : s'.core = s.core)
    (hsections : ∀ sec, s'.draft.layout.instructions sec = s.draft.layout.instructions sec) :
    s'.draft.binary = s.draft.binary := by
  have hwords : s'.draft.layout.words = s.draft.layout.words := by
    unfold Layout.words
    refine List.flatMap_congr fun sec _ => ?_
    rw [Layout.sectionWords, Layout.sectionWords, hsections]
  have hids : s'.draft.ids = s.draft.ids := congrArg (fun core : Draft × Names => core.1.ids) hcore
  have hsettings : s'.draft.settings = s.draft.settings :=
    congrArg (fun core : Draft × Names => core.1.settings) hcore
  rw [Draft.binary, Draft.binary, hwords, Draft.header, Draft.header, hids, hsettings]

/-- Steps that are not free have the same visits in two runs in which they have the same
order, and the sessions in the end differ in what has been written and reported only. -/
theorem Passes.tied_eq {lenient : Bool} {all all' : List (Visit τ)} {s t t' : Session τ}
    (h : Passes lenient all s t) (h' : Passes lenient all' s t')
    (hsteps : ((all.map Visit.step).filter fun step => !step.isFree)
      = (all'.map Visit.step).filter fun step => !step.isFree) :
    (all.filter fun visit => !visit.step.isFree) = (all'.filter fun visit => !visit.step.isFree) ∧
      t.core = t'.core := by
  obtain ⟨u, hpasses, hcore⟩ := h.tied rfl
  obtain ⟨u', hpasses', hcore'⟩ := h'.tied rfl
  rw [List.filter_map, List.filter_map] at hsteps
  obtain ⟨hvisits, hend⟩ := hpasses.unique hpasses' hsteps
  refine ⟨hvisits, ?_⟩
  rw [← hcore, hend, hcore']

/-- Free steps have the same visits in two runs that succeed and end alike. -/
theorem Passes.free_eq {lenient : Bool} {all all' : List (Visit τ)} {s s' t t' : Session τ}
    (h : Passes lenient all s t) (h' : Passes lenient all' s' t') (hcore : t.core = t'.core)
    (hok : ∀ visit ∈ all, visit.succeeded) (hok' : ∀ visit ∈ all', visit.succeeded) :
    ∀ visit ∈ all, ∀ visit' ∈ all', visit.step.isFree → visit.step = visit'.step →
      visit = visit' := by
  intro visit hvisit visit' hvisit' hfree hstep
  obtain ⟨u, v, htakes, hprecedes⟩ := h.exists_takes hvisit
  obtain ⟨u', v', htakes', hprecedes'⟩ := h'.exists_takes hvisit'
  have hknown : t.draft.known = t'.draft.known :=
    congrArg (fun core : Draft × Names => core.1.known) hcore
  refine htakes.eq_of_free htakes' hstep hfree (hok visit hvisit) (hok' visit' hvisit')
    (fun name id => hprecedes.struct?) fun name id hfound => ?_
  rw [hknown]
  exact hprecedes'.struct? hfound

/-- **A module does not depend on how its sections are interleaved.**  Take two builds whose
steps all succeed, and whose steps are the same in another order.  The steps that are not
free, those that hand out ids, declare, register structs or work on functions, have the same
order in both, and so have, for each section, the steps that have written to it.  Then the
modules are equal; every step has written and answered the same in both builds; and the
steps that are not free have answered it in the same order. -/
theorem build_interleaved (plan : Plan) {script script' : Script τ} {binary binary' : Binary}
    (hbuilt : (plan.build script).outcome = .ok binary)
    (hbuilt' : (plan.build script').outcome = .ok binary')
    (hok : ∀ visit ∈ plan.visits script, visit.succeeded)
    (hok' : ∀ visit ∈ plan.visits script', visit.succeeded)
    (hperm : script'.steps.Perm script.steps)
    (htied : (script'.steps.filter fun step => !step.isFree)
      = script.steps.filter fun step => !step.isFree)
    (hwriters : ∀ sec, Visit.writers (plan.visits script') sec
      = Visit.writers (plan.visits script) sec) :
    binary' = binary ∧ (plan.visits script').Perm (plan.visits script) ∧
      ((plan.visits script').filter fun visit => !visit.step.isFree)
        = (plan.visits script).filter fun visit => !visit.step.isFree := by
  obtain ⟨t, hpasses, hsteps, rfl⟩ := Plan.passes_of_build hbuilt
  obtain ⟨t', hpasses', hsteps', rfl⟩ := Plan.passes_of_build hbuilt'
  rw [← hsteps, ← hsteps'] at htied hperm
  obtain ⟨hvisits, hcore⟩ := hpasses'.tied_eq hpasses htied
  have hfree := hpasses'.free_eq hpasses hcore hok' hok
  refine ⟨Session.binary_eq hcore fun sec => ?_, ?_, hvisits⟩
  · -- the writers of a section are the same, and so they have written the same
    rw [hpasses'.instructions, hpasses.instructions, ← Visit.flatMap_writers,
      ← Visit.flatMap_writers (plan.visits script), Visit.eq_of_steps (hwriters sec)]
    · rw [List.filter_comm, hvisits, List.filter_comm]
    · exact fun visit hvisit visit' hvisit' =>
        hfree visit (List.mem_filter.mp hvisit).1 visit' (List.mem_filter.mp hvisit').1
  · have hfrees : ((plan.visits script').filter fun visit => visit.step.isFree).Perm
        ((plan.visits script).filter fun visit => visit.step.isFree) := by
      refine Visit.perm_of_steps ?_ (fun visit hvisit => (List.mem_filter.mp hvisit).2)
        fun visit hvisit visit' hvisit' =>
          hfree visit (List.mem_filter.mp hvisit).1 visit' (List.mem_filter.mp hvisit').1
      have h := hperm.filter Script.isFree
      rwa [List.filter_map, List.filter_map] at h
    have hsplit : ∀ all : List (Visit τ), ((all.filter fun visit => visit.step.isFree) ++
        all.filter fun visit => !visit.step.isFree).Perm all :=
      fun all => List.filter_append_perm (fun visit => visit.step.isFree) all
    have happend := hfrees.append_right ((plan.visits script').filter fun visit =>
      !visit.step.isFree)
    nth_rewrite 2 [hvisits] at happend
    exact (hsplit _).symm.trans (happend.trans (hsplit _))

/-- A type and a struct. -/
def frogSteps : Script Nat :=
  .command ⟨0, none, false⟩ .voidType <|
  .command ⟨1, none, false⟩ (.registerStruct ⟨"Frog", [("x", .float)]⟩) .done

/-- A function that has a name. -/
def mainSteps : Script Nat :=
  .defineFunction ⟨2, none, false⟩ (some "main") none []
    (.command ⟨3, none, false⟩ .returnVoid .done) .done

/-- A lookup, and instructions for sections that are not written otherwise. -/
def freeSteps : Script Nat :=
  .command ⟨4, none, false⟩ (.structType "Frog") <|
  .command ⟨5, none, false⟩ (.entryPoint 4 (.given ⟨5⟩) "main" []) <|
  .command ⟨6, none, false⟩ (.emit .annotations ⟨Opcode.opDecorate, none, none, .raw [3, 2]⟩) <|
  .command ⟨7, none, false⟩ (.capability 1) .done

/-- The free steps at the end. -/
def freeLast : Script Nat := frogSteps.append (mainSteps.append freeSteps)

/-- The free steps before the function. -/
def freeBetween : Script Nat := frogSteps.append (freeSteps.append mainSteps)

/-- The tag of the first step of a script. -/
def Script.tag? : Script τ → Option τ
  | .done => none
  | .command mark .. | .ifThen mark .. | .ifThenElse mark .. | .countedLoop mark ..
  | .defineFunction mark .. | .build mark .. => some mark.tag

/-- Two lists of `steps` that can be told apart by their tags are the same when their tags
are. -/
theorem Script.eq_of_tags [DecidableEq τ] (steps : List (Script τ))
    (hfind : ∀ step ∈ steps, steps.find? (fun other => other.tag? = step.tag?) = some step)
    {chosen chosen' : List (Script τ)} (hsub : chosen ⊆ steps) (hsub' : chosen' ⊆ steps)
    (htags : chosen.map Script.tag? = chosen'.map Script.tag?) : chosen = chosen' := by
  have hback : ∀ {list}, list ⊆ steps →
      (list.map Script.tag?).map (fun tag => steps.find? fun other => other.tag? = tag)
        = list.map some := by
    intro list hlist
    rw [List.map_map]
    exact List.map_congr_left fun step hstep => hfind step (hlist hstep)
  have hsome : chosen.map some = chosen'.map some := by
    rw [← hback hsub, ← hback hsub', htags]
  exact List.map_injective_iff.mpr (Option.some_injective _) hsome

theorem build_interleaved_freeBetween :
    ∃ binary, (({} : Plan).build freeLast).outcome = .ok binary ∧
      (({} : Plan).build freeBetween).outcome = .ok binary ∧
      (({} : Plan).visits freeBetween).Perm (({} : Plan).visits freeLast) := by
  have hsome : ∀ {built : Built Nat}, built.outcome.isOk →
      ∃ binary, built.outcome = .ok binary := by
    intro built h
    cases hbuilt : built.outcome with
    | ok binary => exact ⟨binary, rfl⟩
    | error fault =>
      rw [hbuilt] at h
      cases h
  have hlast : (({} : Plan).build freeLast).outcome.isOk := by decide +kernel
  have hbetween : (({} : Plan).build freeBetween).outcome.isOk := by decide +kernel
  obtain ⟨binary, hbuilt⟩ := hsome hlast
  obtain ⟨binary', hbuilt'⟩ := hsome hbetween
  have hok : (({} : Plan).visits freeLast).all Visit.succeeded := by decide +kernel
  have hok' : (({} : Plan).visits freeBetween).all Visit.succeeded := by decide +kernel
  have hperm : freeBetween.steps.Perm freeLast.steps :=
    have hswap : (freeSteps.steps ++ mainSteps.steps).Perm (mainSteps.steps ++ freeSteps.steps) :=
      List.perm_append_comm
    hswap.append_left frogSteps.steps
  have hwriters : ∀ sec, Visit.writers (({} : Plan).visits freeBetween) sec
      = Visit.writers (({} : Plan).visits freeLast) sec := by
    have htags : ∀ sec ∈ Section.all,
        (Visit.writers (({} : Plan).visits freeBetween) sec).map Script.tag?
          = (Visit.writers (({} : Plan).visits freeLast) sec).map Script.tag? := by decide +kernel
    have hsub : ∀ {script binary sec}, (({} : Plan).build script).outcome = .ok binary →
        script.steps ⊆ freeLast.steps →
        Visit.writers (({} : Plan).visits script) sec ⊆ freeLast.steps := by
      intro script binary sec hbuilt hsteps
      obtain ⟨_, -, hvisits, -⟩ := Plan.passes_of_build hbuilt
      rw [← hvisits] at hsteps
      exact List.Subset.trans (List.map_subset _ (List.filter_subset_self _)) hsteps
    intro sec
    refine Script.eq_of_tags freeLast.steps ?_ (hsub hbuilt' hperm.subset)
      (hsub hbuilt (List.Subset.refl _)) (htags sec sec.mem_all)
    simp [freeLast, frogSteps, mainSteps, freeSteps, Script.append, Script.steps, Script.tag?]
  obtain ⟨heq, hvisits, -⟩ := build_interleaved {} hbuilt hbuilt' (List.all_eq_true.mp hok)
    (List.all_eq_true.mp hok') hperm rfl hwriters
  exact ⟨binary, hbuilt, heq ▸ hbuilt', hvisits⟩

end SpirvBinary
