import SpirvBinary.Proofs.Runs

/-!
# Runs that agree

What a build does does not depend on what it has written.  From two drafts with the same
ids, declarations and open functions the same instructions are added to what each of them
holds, the same is answered, and the drafts are alike again.

Two things do look at what has been written: a command asks for the words of a section, and
the trace records the sizes of the draft.  Neither tells anything to the steps that follow,
so runs still agree when these are left out of what is compared.

## Main definitions

* `Agree` — two computations take related states to related states.
* `Draft.Tracks` — two drafts are alike but for what was written at first.
* `Oblivious` — a computation does not depend on what has been written.
* `Report.answer` — what a step has answered, without sizes and words.
* `Session.Tracks` — two sessions are alike but for what was written and answered at first.

## Main results

* `Oblivious.perform` — all commands but one are oblivious.
* `Script.run_agrees` — every script agrees with itself in sessions that are alike.
-/

namespace SpirvBinary

variable {σ τ α β : Type}

/-! ### Computations that agree -/

/-- Two computations have ended in the same way, in states that are related by `R`, with results
that are related by `Q`. -/
inductive Agreed (R : σ → σ → Prop) (Q : α → α → Prop) :
    EStateM.Result Fault σ α → EStateM.Result Fault σ α → Prop
  | ok {a a' : α} {s s' : σ} (result : Q a a') (state : R s s') :
      Agreed R Q (.ok a s) (.ok a' s')
  | error {fault : Fault} {s s' : σ} (state : R s s') :
      Agreed R Q (.error fault s) (.error fault s')

theorem Agreed.mono {R : σ → σ → Prop} {Q Q' : α → α → Prop} {r r' : EStateM.Result Fault σ α}
    (h : Agreed R Q r r') (hQ : ∀ a a', Q a a' → Q' a a') : Agreed R Q' r r' := by
  cases h with
  | ok ha hs => exact .ok (hQ _ _ ha) hs
  | error hs => exact .error hs

/-- Either both have succeeded, or both have failed. -/
theorem Agreed.elim {R : σ → σ → Prop} {Q : α → α → Prop} {r r' : EStateM.Result Fault σ α}
    (h : Agreed R Q r r') :
    (∃ a a' s s', r = .ok a s ∧ r' = .ok a' s' ∧ Q a a' ∧ R s s') ∨
      ∃ fault s s', r = .error fault s ∧ r' = .error fault s' ∧ R s s' := by
  cases h with
  | ok ha hs => exact .inl ⟨_, _, _, _, rfl, rfl, ha, hs⟩
  | error hs => exact .inr ⟨_, _, _, rfl, rfl, hs⟩

/-- From states that are related by `R` the computations `x` and `x'` lead to related results in
related states, or fail for the same reason. -/
def Agree (R : σ → σ → Prop) (Q : α → α → Prop) (x x' : EStateM Fault σ α) : Prop :=
  ∀ s s', R s s' → Agreed R Q (x s) (x' s')

namespace Agree

variable {R : σ → σ → Prop} {Q : α → α → Prop} {Q' : β → β → Prop} {x x' : EStateM Fault σ α}

theorem pure {a a' : α} (h : Q a a') :
    Agree R Q (Pure.pure a : EStateM Fault σ α) (Pure.pure a') :=
  fun _ _ hs => .ok h hs

theorem bind {k k' : α → EStateM Fault σ β} (hx : Agree R Q x x')
    (hk : ∀ a a', Q a a' → Agree R Q' (k a) (k' a')) : Agree R Q' (x >>= k) (x' >>= k') := by
  intro s s' hs
  rcases (hx s s' hs).elim with
    ⟨a, a', t, t', hrun, hrun', ha, ht⟩ | ⟨fault, t, t', hrun, hrun', ht⟩
  · rw [bind_of_ok hrun, bind_of_ok hrun']
    exact hk a a' ha t t' ht
  · rw [bind_of_error hrun, bind_of_error hrun']
    exact .error ht

theorem bind_eq {k k' : α → EStateM Fault σ β} (hx : Agree R Eq x x')
    (hk : ∀ a, Agree R Q' (k a) (k' a)) : Agree R Q' (x >>= k) (x' >>= k') := by
  refine hx.bind fun a a' ha => ?_
  rw [ha]
  exact hk a'

/-- Computations that read the state first agree when `k` and `k'` do, what they do with the states
they have read. -/
theorem get_bind {k k' : σ → EStateM Fault σ α}
    (h : ∀ s s', R s s' → Agreed R Q (k s s) (k' s' s')) :
    Agree R Q (MonadState.get >>= k) (MonadState.get >>= k') := h

theorem mono {Q' : α → α → Prop} (h : Agree R Q x x') (hQ : ∀ a a', Q a a' → Q' a a') :
    Agree R Q' x x' := fun s s' hs => (h s s' hs).mono hQ

end Agree

/-! ### Drafts that are alike -/

/-- The drafts `d` and `d'` are alike, but for their journals and for `old` and `old'`, which had
been written at first. -/
def Draft.Tracks (old old' : List (Section × Instruction)) (d d' : Draft) : Prop :=
  ∃ new layout journal, d.layout.newest = new ++ old ∧ layout.newest = new ++ old' ∧
    d' = { d with layout := layout, journal := journal }

namespace Draft.Tracks

variable {old old' : List (Section × Instruction)} {d d' : Draft}

theorem known (h : Draft.Tracks old old' d d') : d'.known = d.known := by
  obtain ⟨new, layout, journal, -, -, rfl⟩ := h
  rfl

theorem openFunctions (h : Draft.Tracks old old' d d') : d'.openFunctions = d.openFunctions := by
  obtain ⟨new, layout, journal, -, -, rfl⟩ := h
  rfl

/-- An `event` that is noted in both journals changes nothing of that. -/
theorem note (h : Draft.Tracks old old' d d') (event : Event) :
    Draft.Tracks old old' { d with journal := event :: d.journal }
      { d' with journal := event :: d'.journal } := by
  obtain ⟨new, layout, journal, hnew, hlayout, rfl⟩ := h
  exact ⟨new, layout, event :: journal, hnew, hlayout, rfl⟩

end Draft.Tracks

/-- From drafts that are alike the computation `x` leads to the same result, and to drafts that are
alike. -/
def Oblivious (x : Build α) : Prop :=
  ∀ old old', Agree (Draft.Tracks old old') Eq x x

namespace Oblivious

theorem composes : Composes Oblivious where
  pure := fun _ _ _ => Agree.pure rfl
  bind := fun hx hk old old' => (hx old old').bind_eq fun a => hk a old old'

theorem log (event : Event) : Oblivious (Build.log event) := by
  rintro old old' d _ ⟨new, layout, journal, hnew, hlayout, rfl⟩
  exact .ok rfl ⟨new, layout, event :: journal, hnew, hlayout, rfl⟩

theorem freshId : Oblivious Build.freshId := by
  rintro old old' d _ ⟨new, layout, journal, hnew, hlayout, rfl⟩
  exact .ok rfl ⟨new, layout, journal, hnew, hlayout, rfl⟩

theorem emit (s : Section) (inst : Instruction) : Oblivious (Build.emit s inst) := by
  rintro old old' d _ ⟨new, layout, journal, hnew, hlayout, rfl⟩
  by_cases hfits : inst.Fits
  · rw [Build.emit_of_fits hfits, Build.emit_of_fits hfits]
    exact .ok rfl ⟨(s, inst) :: new, layout.add s inst hfits, journal,
      congrArg ((s, inst) :: ·) hnew, congrArg ((s, inst) :: ·) hlayout, rfl⟩
  · rw [Build.emit_of_not_fits hfits, Build.emit_of_not_fits hfits]
    exact .error ⟨new, layout, journal, hnew, hlayout, rfl⟩

/-! ### Declarations -/

theorem findType (key : DeclarationKey) : Oblivious (Build.findType key) := by
  intro old old' d d' hd
  cases h : d.known.type? key with
  | some id =>
    have h' : d'.known.type? key = some id := hd.known ▸ h
    rw [Build.findType_of_known h, Build.findType_of_known h']
    exact .ok rfl (hd.note _)
  | none =>
    have h' : d'.known.type? key = none := hd.known ▸ h
    rw [Build.findType_of_unknown h, Build.findType_of_unknown h']
    exact .ok rfl hd

theorem noteType (key : DeclarationKey) (id : Id) : Oblivious (Build.noteType key id) := by
  rintro old old' d _ ⟨new, layout, journal, hnew, hlayout, rfl⟩
  exact .ok rfl ⟨new, layout, _ :: journal, hnew, hlayout, rfl⟩

theorem findStruct (name : String) : Oblivious (Build.findStruct name) := by
  rintro old old' d _ ⟨new, layout, journal, hnew, hlayout, rfl⟩
  exact .ok rfl ⟨new, layout, journal, hnew, hlayout, rfl⟩

theorem noteStruct (name : String) (id : Id) : Oblivious (Build.noteStruct name id) := by
  rintro old old' d _ ⟨new, layout, journal, hnew, hlayout, rfl⟩
  exact .ok rfl ⟨new, layout, _ :: journal, hnew, hlayout, rfl⟩

theorem structType (name : String) : Oblivious (Build.structType name) := by
  intro old old' d d' hd
  cases h : d.known.struct? name with
  | some id =>
    have h' : d'.known.struct? name = some id := hd.known ▸ h
    rw [Build.structType_of_known h, Build.structType_of_known h']
    exact .ok rfl hd
  | none =>
    have h' : d'.known.struct? name = none := hd.known ▸ h
    rw [Build.structType_of_unknown h, Build.structType_of_unknown h']
    exact .error hd

/-! ### Functions -/

theorem updateFunction (f : StagedFunction → StagedFunction) :
    Oblivious (Build.updateFunction f) := by
  intro old old' d d' hd
  cases h : d.openFunctions with
  | nil =>
    have h' : d'.openFunctions = [] := hd.openFunctions.trans h
    rw [Build.updateFunction_of_closed h, Build.updateFunction_of_closed h']
    exact .error hd
  | cons innermost outer =>
    have h' : d'.openFunctions = innermost :: outer := hd.openFunctions.trans h
    rw [Build.updateFunction_of_open h, Build.updateFunction_of_open h']
    obtain ⟨new, layout, journal, hnew, hlayout, rfl⟩ := hd
    exact .ok rfl ⟨new, layout, journal, hnew, hlayout, rfl⟩

theorem openFunction : Oblivious Build.openFunction := by
  rintro old old' d _ ⟨new, layout, journal, hnew, hlayout, rfl⟩
  exact .ok rfl ⟨new, layout, journal, hnew, hlayout, rfl⟩

theorem closeFunction : Oblivious Build.closeFunction := by
  intro old old' d d' hd
  cases h : d.openFunctions with
  | nil =>
    have h' : d'.openFunctions = [] := hd.openFunctions.trans h
    rw [Build.closeFunction_of_closed h, Build.closeFunction_of_closed h']
    exact .error hd
  | cons innermost outer =>
    have h' : d'.openFunctions = innermost :: outer := hd.openFunctions.trans h
    rw [Build.closeFunction_of_open h, Build.closeFunction_of_open h']
    obtain ⟨new, layout, journal, hnew, hlayout, rfl⟩ := hd
    exact composes.emitAll (emit _) _ old old' _ _ ⟨new, layout, _ :: journal, hnew, hlayout, rfl⟩

theorem parts : OperationParts Oblivious :=
  ⟨⟨composes, log, freshId, emit, findType, noteType, findStruct, structType, openFunction,
    updateFunction, closeFunction⟩, noteStruct⟩

/-- All commands but `sectionWords` are oblivious. -/
theorem perform (names : Names) {operation : Command} (h : ∀ s, operation ≠ .sectionWords s) :
    Oblivious (operation.perform names) := by
  by_cases hquery : operation.IsQuery
  · cases operation with
    | structList | bound =>
      rintro old old' d _ ⟨new, layout, journal, hnew, hlayout, rfl⟩
      exact .ok rfl ⟨new, layout, journal, hnew, hlayout, rfl⟩
    | sectionWords s => exact absurd rfl (h s)
    | _ => exact hquery.elim
  · exact parts.perform names hquery

end Oblivious

/-! ### Answers -/

/-- A reply without the words of a section. -/
def Reply.withoutWords : Reply → Reply
  | .words _ => .words []
  | reply => reply

/-- What a step has answered, under its tag.  Sizes are left out, and so are words. -/
def Report.answer : Report τ → τ × Except Fault Reply
  | .step tag (.ok reply) _ => (tag, .ok reply.withoutWords)
  | .step tag (.error fault) _ => (tag, .error fault)
  | .built tag _ _ _ => (tag, .ok .done)

/-- From drafts that are alike a command leads to the same reply, but for words. -/
theorem Command.perform_agrees (old old' : List (Section × Instruction)) (names : Names)
    (operation : Command) :
    Agree (Draft.Tracks old old') (fun reply reply' => reply.withoutWords = reply'.withoutWords)
      (operation.perform names) (operation.perform names) := by
  by_cases h : ∃ s, operation = .sectionWords s
  · obtain ⟨s, rfl⟩ := h
    exact fun d d' hd => .ok rfl hd
  · have hne : ∀ s, operation ≠ .sectionWords s := fun s heq => h ⟨s, heq⟩
    exact (Oblivious.perform names hne old old').mono fun _ _ heq => congrArg _ heq

/-! ### Sessions that are alike -/

/-- The sessions `s` and `s'` are alike, but for what had been written and reported in `start` and
`start'`. -/
structure Session.Tracks (start start' s s' : Session τ) : Prop where
  draft : Draft.Tracks start.draft.layout.newest start'.draft.layout.newest s.draft s'.draft
  names : s'.names = s.names
  reports : ∃ told, s.newest.map Report.answer = told ++ start.newest.map Report.answer ∧
    s'.newest.map Report.answer = told ++ start'.newest.map Report.answer

section Sessions

variable {start start' : Session τ}

/-- Reports may be added that have the same `answer`. -/
theorem Session.Tracks.record {s s' : Session τ} (h : Session.Tracks start start' s s')
    {report report' : Report τ} (hreport : report.answer = report'.answer) :
    Session.Tracks start start' (s.record report) (s'.record report') := by
  obtain ⟨told, htold, htold'⟩ := h.reports
  refine ⟨h.draft, h.names, report.answer :: told, ?_, ?_⟩
  · rw [Session.record, List.map_cons, htold, List.cons_append]
  · rw [Session.record, List.map_cons, htold', hreport, List.cons_append]

namespace Run

theorem lift_agrees {Q : α → α → Prop} {action : Build α}
    (h : Agree (Draft.Tracks start.draft.layout.newest start'.draft.layout.newest) Q action
      action) :
    Agree (Session.Tracks start start') Q (lift action) (lift action) := by
  intro s s' hs
  unfold lift
  rcases (h _ _ hs.draft).elim with
    ⟨a, a', d, d', hrun, hrun', ha, hd⟩ | ⟨fault, d, d', hrun, hrun', hd⟩
  · rw [hrun, hrun']
    exact .ok ha ⟨hd, hs.names, hs.reports⟩
  · rw [hrun, hrun']
    exact .error ⟨hd, hs.names, hs.reports⟩

theorem lift_oblivious {action : Build α} (h : Oblivious action) :
    Agree (Session.Tracks start start') Eq (lift action) (lift action) := lift_agrees (h _ _)

/-- A `step` that tells the same is recorded with the same, and passed on or not alike. -/
theorem attempt_agrees (tolerant : Bool) (mark : Mark τ) {step : Run τ (Gauge → Report τ)}
    (h : Agree (Session.Tracks start start')
      (fun report report' => ∀ gauge gauge', (report gauge).answer = (report' gauge').answer)
      step step) :
    Agree (Session.Tracks start start') Eq (attempt tolerant mark step)
      (attempt tolerant mark step) := by
  intro s s' hs
  unfold attempt
  rcases (h s s' hs).elim with ⟨a, a', t, t', hrun, hrun', ha, ht⟩ | ⟨fault, t, t', hrun, hrun', ht⟩
  · rw [hrun, hrun']
    exact .ok rfl (ht.record (ha _ _))
  · rw [hrun, hrun']
    dsimp only
    split
    · exact .ok rfl (ht.record rfl)
    · exact .error (ht.record rfl)

theorem updateNames_agrees (f : Names → Names) :
    Agree (Session.Tracks start start') Eq (updateNames f) (updateNames f) :=
  fun _ _ hs => .ok rfl ⟨hs.draft, congrArg f hs.names, hs.reports⟩

/-- Words are not bound to names. -/
theorem bindReply_withoutWords (name : Option String) (reply : Reply) :
    bindReply name reply.withoutWords = (bindReply name reply : Run τ Unit) := by
  cases name <;> cases reply <;> rfl

theorem bindReply_agrees (name : Option String) (reply : Reply) :
    Agree (Session.Tracks start start') Eq (bindReply name reply) (bindReply name reply) := by
  unfold bindReply
  split
  · exact updateNames_agrees _
  · exact updateNames_agrees _
  · exact Agree.pure rfl

theorem answer_agrees (mark : Mark τ) {reply reply' : Reply}
    (h : reply.withoutWords = reply'.withoutWords) :
    Agree (Session.Tracks start start')
      (fun report report' => ∀ gauge gauge', (report gauge).answer = (report' gauge').answer)
      (answer mark reply) (answer mark reply') := by
  unfold answer
  rw [← bindReply_withoutWords mark.name reply, ← bindReply_withoutWords mark.name reply', h]
  refine (bindReply_agrees mark.name _).bind_eq fun _ => Agree.pure fun _ _ => ?_
  rw [Report.answer, Report.answer, h]

theorem bindIndex_agrees (name : Option String) (index : Id) :
    Agree (Session.Tracks start start') Eq (bindIndex name index) (bindIndex name index) := by
  cases name with
  | some name => exact updateNames_agrees fun names => names.bind name index
  | none => exact Agree.pure rfl

theorem bindParams_agrees (name : Option String) (function : FunctionDef) :
    Agree (Session.Tracks start start') Eq (bindParams name function)
      (bindParams name function) := by
  cases name with
  | some name => exact updateNames_agrees fun names => names.bindParams name 0 function.params
  | none => exact Agree.pure rfl

/-- The build of another module is the same, whatever has been written in this one. -/
theorem answerBuilt_agrees (mark : Mark τ) (built : Built τ) :
    Agree (Session.Tracks start start')
      (fun report report' => ∀ gauge gauge', (report gauge).answer = (report' gauge').answer)
      (answerBuilt mark built) (answerBuilt mark built) := by
  intro s s' hs
  obtain ⟨new, layout, journal, hnew, hlayout, hdraft⟩ := hs.draft
  have ht : Session.Tracks start start'
      { s with draft := { s.draft with journal := built.events.reverse ++ s.draft.journal } }
      { s' with
        draft := { s'.draft with journal := built.events.reverse ++ s'.draft.journal } } := by
    refine ⟨⟨new, layout, built.events.reverse ++ journal, hnew, hlayout, ?_⟩, hs.names, hs.reports⟩
    rw [hdraft]
  unfold answerBuilt
  cases built.outcome with
  | ok binary => exact .ok (fun _ _ => rfl) ht
  | error fault => exact .error ht

end Run

/-- Every script agrees with itself in sessions that are alike. -/
theorem Script.run_agrees (script : Script τ) (lenient : Bool) :
    Agree (Session.Tracks start start') Eq (script.run lenient) (script.run lenient) := by
  induction script generalizing lenient with
  | done => exact Agree.pure rfl
  | command mark operation next ih =>
    refine (Run.attempt_agrees lenient mark ?_).bind_eq fun _ => ih lenient
    refine Agree.get_bind fun s s' hs => ?_
    rw [hs.names]
    refine (Run.lift_agrees (operation.perform_agrees _ _ s.names)).bind ?_ s s' hs
    exact fun _ _ h => Run.answer_agrees mark h
  | ifThen mark condition arm next iharm ih =>
    refine (Run.attempt_agrees lenient mark ?_).bind_eq fun _ => ih lenient
    refine Agree.get_bind fun s s' hs => ?_
    rw [hs.names]
    refine Agree.bind_eq ?_ (fun _ => Run.answer_agrees mark rfl) s s' hs
    exact (Run.lift_oblivious (Oblivious.parts.body.beginIfThen _)).bind_eq fun merge =>
      (iharm false).bind_eq fun _ => Run.lift_oblivious (Oblivious.parts.body.endArm merge merge)
  | ifThenElse mark condition onTrue onFalse next ihtrue ihfalse ih =>
    refine (Run.attempt_agrees lenient mark ?_).bind_eq fun _ => ih lenient
    refine Agree.get_bind fun s s' hs => ?_
    rw [hs.names]
    refine Agree.bind_eq ?_ (fun _ => Run.answer_agrees mark rfl) s s' hs
    exact (Run.lift_oblivious (Oblivious.parts.body.beginIfThenElse _)).bind_eq fun labels =>
      (ihtrue false).bind_eq fun _ =>
      (Run.lift_oblivious (Oblivious.parts.body.endArm labels.2 labels.1)).bind_eq fun _ =>
      (ihfalse false).bind_eq fun _ =>
      Run.lift_oblivious (Oblivious.parts.body.endArm labels.2 labels.2)
  | countedLoop mark count body next ihbody ih =>
    refine (Run.attempt_agrees lenient mark ?_).bind_eq fun _ => ih lenient
    refine Agree.bind_eq ?_ fun index => Run.answer_agrees mark rfl
    refine (Run.lift_oblivious (Oblivious.parts.beginLoop count)).bind_eq fun frame => ?_
    refine Agree.bind_eq ?_ fun _ =>
      (Run.lift_oblivious (Oblivious.parts.body.endLoop frame)).bind_eq fun _ => Agree.pure rfl
    exact (Run.bindIndex_agrees mark.name frame.index).bind_eq fun _ => ihbody false
  | defineFunction mark name returnType params body next ihbody ih =>
    refine (Run.attempt_agrees lenient mark ?_).bind_eq fun _ => ih lenient
    refine Agree.get_bind fun s s' hs => ?_
    rw [hs.names]
    refine Agree.bind_eq ?_ (fun function => Run.answer_agrees mark rfl) s s' hs
    refine (Run.lift_oblivious (Oblivious.parts.beginNamedFunction name _ _)).bind_eq
      fun function => ?_
    refine Agree.bind_eq ?_ fun _ =>
      (Run.lift_oblivious Oblivious.parts.endFunction).bind_eq fun _ => Agree.pure rfl
    exact (Run.bindParams_agrees mark.name function).bind_eq fun _ => ihbody false
  | build mark plan script next _ ih =>
    exact (Run.attempt_agrees lenient mark (Run.answerBuilt_agrees mark _)).bind_eq
      fun _ => ih lenient

end Sessions

end SpirvBinary
