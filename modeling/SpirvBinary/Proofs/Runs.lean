import SpirvBinary.Proofs.Operations
import SpirvBinary.Script

/-!
# Runs along a relation

A run of build operations is a script that is carried out from a new draft: steps in
any order, constructs and functions nested in any way, failing steps that end the
sequence they stand in or are tolerated.  The draft after a run is the draft after its
last step, so the drafts in the middle of a run are those after the scripts that stop
there.

## Main definitions

* `Script.Uses` — all commands of a script are of some kind.
* `Script.draftAfter` — the draft a script leaves when it starts from a new one.

## Main results

* `Law.run` — a script moves along a law when its raw commands do.
-/

namespace SpirvBinary

variable {τ α : Type} {R : Draft → Draft → Prop}

/-- All commands of a script, those in its bodies included, are `allowed`.  What happens in the
build of another module does not count. -/
def Script.Uses (allowed : Command → Prop) : Script τ → Prop
  | .done => True
  | .command _ operation next => allowed operation ∧ next.Uses allowed
  | .ifThen _ _ arm next => arm.Uses allowed ∧ next.Uses allowed
  | .ifThenElse _ _ onTrue onFalse next =>
      onTrue.Uses allowed ∧ onFalse.Uses allowed ∧ next.Uses allowed
  | .countedLoop _ _ body next => body.Uses allowed ∧ next.Uses allowed
  | .defineFunction _ _ _ _ body next => body.Uses allowed ∧ next.Uses allowed
  | .build _ _ _ next => next.Uses allowed

theorem Script.uses_of_forall {allowed : Command → Prop} (h : ∀ operation, allowed operation)
    (script : Script τ) : script.Uses allowed := by
  induction script with
  | done => trivial
  | command _ operation _ ih => exact ⟨h operation, ih⟩
  | ifThen _ _ _ _ iharm ih => exact ⟨iharm, ih⟩
  | ifThenElse _ _ _ _ _ ihtrue ihfalse ih => exact ⟨ihtrue, ihfalse, ih⟩
  | countedLoop _ _ _ _ ihbody ih => exact ⟨ihbody, ih⟩
  | defineFunction _ _ _ _ _ _ ihbody ih => exact ⟨ihbody, ih⟩
  | build _ _ _ _ _ ih => exact ih

/-- The draft that the `script` leaves when it starts from a new one with the given `settings`. -/
def Script.draftAfter (settings : Settings) (lenient : Bool) (script : Script τ) : Draft :=
  (after (script.run lenient) { draft := { settings := settings } }).draft

/-! ### Sessions -/

/-- The drafts of the sessions `s` and `t` are related by `R`. -/
def OnDrafts (R : Draft → Draft → Prop) (s t : Session τ) : Prop := R s.draft t.draft

namespace Run

theorem after_lift (action : Build α) (s : Session τ) :
    after (lift action) s = { s with draft := after action s.draft } := by
  cases h : action s.draft with
  | ok a d => simp only [after, lift, h]
  | error fault d => simp only [after, lift, h]

theorem lift_eq_ok {action : Build α} {s t : Session τ} {a : α} (h : lift action s = .ok a t) :
    action s.draft = .ok a t.draft := by
  cases hd : action s.draft with
  | ok b d =>
    simp only [lift, hd, EStateM.Result.ok.injEq] at h
    rw [← h.1, ← h.2]
  | error fault d => simp only [lift, hd] at h; cases h

theorem lift_eq_error {action : Build α} {s t : Session τ} {fault : Fault}
    (h : lift action s = .error fault t) : action s.draft = .error fault t.draft := by
  cases hd : action s.draft with
  | ok b d => simp only [lift, hd] at h; cases h
  | error fault d =>
    simp only [lift, hd, EStateM.Result.error.injEq] at h
    rw [← h.1, ← h.2]

theorem draft_after_lift_bind_pure {β : Type} (action : Build α) (b : β) (s : Session τ) :
    (after (do let _ ← lift action; return b : Run τ β) s).draft = after action s.draft := by
  cases h : (lift action : Run τ α) s with
  | ok a t => rw [after_bind_of_ok h, after_of_ok (lift_eq_ok h)]; rfl
  | error fault t => rw [after_bind_of_error h, after_of_error (lift_eq_error h)]

/-- An attempt leaves the draft as the `step` does. -/
theorem draft_after_attempt (tolerant : Bool) (mark : Mark τ) (step : Run τ (Gauge → Report τ))
    (s : Session τ) : (after (attempt tolerant mark step) s).draft = (after step s).draft := by
  cases h : step s with
  | ok report t => simp only [after, attempt, h, Session.record]
  | error fault t =>
    simp only [after, attempt, h]
    cases tolerant || mark.tolerant <;> rfl

theorem draft_after_bindReply (name : Option String) (reply : Reply) (s : Session τ) :
    (after (bindReply name reply) s).draft = s.draft := by
  cases name with
  | none => rfl
  | some name => cases reply <;> rfl

theorem draft_after_answer (mark : Mark τ) (reply : Reply) (s : Session τ) :
    (after (answer mark reply) s).draft = s.draft := by
  cases h : bindReply mark.name reply s with
  | ok _ t =>
    rw [answer, after_bind_of_ok h, ← draft_after_bindReply mark.name reply s, after_of_ok h]
    rfl
  | error fault t =>
    rw [answer, after_bind_of_error h, ← draft_after_bindReply mark.name reply s, after_of_error h]

/-- The events of `built`, the build of another module, are added to the journal. -/
theorem draft_after_answerBuilt (mark : Mark τ) (built : Built τ) (s : Session τ) :
    (after (answerBuilt mark built) s).draft
      = { s.draft with journal := built.events.reverse ++ s.draft.journal } := by
  cases h : built.outcome with
  | ok binary => simp only [answerBuilt, h]; rfl
  | error fault => simp only [answerBuilt, h]; rfl

end Run

namespace Law

theorem session_refl (law : Law R) (s : Session τ) : OnDrafts R s s := law.refl s.draft

theorem session_trans (law : Law R) (s t u : Session τ) (hst : OnDrafts R s t)
    (htu : OnDrafts R t u) : OnDrafts R s u := law.trans _ _ _ hst htu

theorem session_bind (law : Law R) {β : Type} {x : Run τ α} {k : α → Run τ β}
    (hx : Moves (OnDrafts R) x) (hk : ∀ a, Moves (OnDrafts R) (k a)) :
    Moves (OnDrafts R) (x >>= k) := Moves.bind law.session_trans hx hk

theorem lift {action : Build α} (h : Moves R action) :
    Moves (OnDrafts R) (Run.lift action : Run τ α) := by
  intro s
  rw [Run.after_lift]
  exact h s.draft

/-- A computation `x` that keeps the draft moves along a law. -/
theorem keep (law : Law R) {x : Run τ α} (h : ∀ s, (after x s).draft = s.draft) :
    Moves (OnDrafts R) x := by
  intro s
  rw [OnDrafts, h s]
  exact law.refl s.draft

theorem attempt {tolerant : Bool} {mark : Mark τ} {step : Run τ (Gauge → Report τ)}
    (h : Moves (OnDrafts R) step) : Moves (OnDrafts R) (Run.attempt tolerant mark step) := by
  intro s
  rw [OnDrafts, Run.draft_after_attempt]
  exact h s

theorem answer (law : Law R) (mark : Mark τ) (reply : Reply) :
    Moves (OnDrafts R) (Run.answer mark reply) := law.keep (Run.draft_after_answer mark reply)

/-- A bracket of `first` and `second` around a `body` that moves along `R` moves along it. -/
theorem session_bracket (law : Law R) {β γ : Type} {first : Build α} {second : α → Build β}
    (h : Bracket R first second) {body : α → Run τ Unit}
    (hbody : ∀ a, Moves (OnDrafts R) (body a)) {close : α → Run τ γ}
    (hclose : ∀ a s, (after (close a) s).draft = after (second a) s.draft) :
    Moves (OnDrafts R) (do
      let a ← Run.lift first
      body a
      close a) := by
  intro s
  have hst : OnDrafts R s (after (Run.lift first) s) := Law.lift (fun d => (h d).1) s
  cases hfirst : (Run.lift first : Run τ α) s with
  | error fault t =>
    rw [after_bind_of_error hfirst, ← after_of_error hfirst]
    exact hst
  | ok a t =>
    rw [after_bind_of_ok hfirst]
    rw [after_of_ok hfirst] at hst
    have htu := hbody a t
    cases hrun : body a t with
    | error fault u =>
      rw [after_bind_of_error hrun, ← after_of_error hrun]
      exact law.session_trans _ _ _ hst htu
    | ok _ u =>
      rw [after_bind_of_ok hrun, OnDrafts, hclose]
      rw [after_of_ok hrun] at htu
      exact (h s.draft).2 a t.draft (Run.lift_eq_ok hfirst) u.draft htu

/-- The same for `body` and `body'` in the gaps of a double bracket. -/
theorem session_doubleBracket (law : Law R) {β γ : Type} {first : Build α}
    {second : α → Build β} {third : α → Build γ} (h : DoubleBracket R first second third)
    {body body' : Run τ Unit} (hbody : Moves (OnDrafts R) body)
    (hbody' : Moves (OnDrafts R) body') :
    Moves (OnDrafts R) (do
      let a ← Run.lift first
      body
      let _ ← Run.lift (second a)
      body'
      Run.lift (third a)) := by
  intro s
  have hst : OnDrafts R s (after (Run.lift first) s) := Law.lift (fun d => (h d).1) s
  cases hfirst : (Run.lift first : Run τ α) s with
  | error fault t =>
    rw [after_bind_of_error hfirst, ← after_of_error hfirst]
    exact hst
  | ok a t =>
    rw [after_bind_of_ok hfirst]
    rw [after_of_ok hfirst] at hst
    have hgaps := (h s.draft).2 a t.draft (Run.lift_eq_ok hfirst)
    -- from here on the end of the first gap plays the part of a bracket of its own
    have hinner : ∀ u, OnDrafts R t u → OnDrafts R s (after (do
        let _ ← Run.lift (second a)
        body'
        Run.lift (third a)) u) := by
      intro u htu
      have hsv := (hgaps u.draft htu).1
      cases hsecond : (Run.lift (second a) : Run τ β) u with
      | error fault v =>
        rw [after_bind_of_error hsecond, OnDrafts,
          ← after_of_error (Run.lift_eq_error hsecond)]
        exact hsv
      | ok b v =>
        rw [after_bind_of_ok hsecond]
        rw [after_of_ok (Run.lift_eq_ok hsecond)] at hsv
        have hvw := hbody' v
        cases hrun : body' v with
        | error fault w =>
          rw [after_bind_of_error hrun, ← after_of_error hrun]
          exact law.trans _ _ _ hsv hvw
        | ok _ w =>
          rw [after_bind_of_ok hrun, OnDrafts, Run.after_lift]
          rw [after_of_ok hrun] at hvw
          exact (hgaps u.draft htu).2 b v.draft (Run.lift_eq_ok hsecond) w.draft hvw
    have htu := hbody t
    cases hrun : body t with
    | error fault u =>
      rw [after_bind_of_error hrun, ← after_of_error hrun]
      exact law.session_trans _ _ _ hst htu
    | ok _ u =>
      rw [after_bind_of_ok hrun]
      rw [after_of_ok hrun] at htu
      exact hinner u htu

/-! ### Scripts -/

/-- The build of another module leaves the draft as it is, apart from the journal. -/
theorem answerBuilt (law : Law R) (mark : Mark τ) (built : Built τ) :
    Moves (OnDrafts R) (Run.answerBuilt mark built) := by
  intro s
  rw [OnDrafts, Run.draft_after_answerBuilt]
  exact law.journal s.draft _

/-- A `script` moves along a law when its raw commands do. -/
theorem run (law : Law R) {allowed : Command → Prop}
    (hraw : ∀ names operation, operation.IsRaw → allowed operation →
      Moves R (operation.perform names))
    (script : Script τ) (huses : script.Uses allowed) (lenient : Bool) :
    Moves (OnDrafts R) (script.run lenient) := by
  have hperform : ∀ names operation, allowed operation → Moves R (operation.perform names) := by
    intro names operation h
    by_cases hop : operation.IsRaw
    · exact hraw names operation hop h
    · exact law.perform names hop
  induction script generalizing lenient with
  | done => exact Moves.pure law.session_refl ()
  | command mark operation next ih =>
    refine law.session_bind (attempt ?_) fun _ => ih huses.2 lenient
    refine Moves.get_bind fun s => ?_
    exact law.session_bind (Law.lift (hperform s.names operation huses.1))
      (fun reply => law.answer mark reply) s
  | ifThen mark condition arm next iharm ih =>
    refine law.session_bind (attempt ?_) fun _ => ih huses.2 lenient
    refine Moves.get_bind fun s => ?_
    refine law.session_bind ?_ (fun _ => law.answer mark .done) s
    exact law.session_bracket (law.ifThen _) (fun _ => iharm huses.1 false)
      fun merge t => congrArg Session.draft (Run.after_lift _ t)
  | ifThenElse mark condition onTrue onFalse next ihtrue ihfalse ih =>
    refine law.session_bind (attempt ?_) fun _ => ih huses.2.2 lenient
    refine Moves.get_bind fun s => ?_
    refine law.session_bind ?_ (fun _ => law.answer mark .done) s
    exact law.session_doubleBracket (law.ifThenElse _) (ihtrue huses.1 false)
      (ihfalse huses.2.1 false)
  | countedLoop mark count body next ihbody ih =>
    refine law.session_bind (attempt ?_) fun _ => ih huses.2 lenient
    refine law.session_bind ?_ fun index => law.answer mark (.index index)
    refine law.session_bracket (law.countedLoop count) (fun frame => ?_) fun frame t => ?_
    · refine law.session_bind (law.keep fun t => ?_) fun _ => ihbody huses.1 false
      cases mark.name <;> rfl
    · exact Run.draft_after_lift_bind_pure _ _ t
  | defineFunction mark name returnType params body next ihbody ih =>
    refine law.session_bind (attempt ?_) fun _ => ih huses.2 lenient
    refine Moves.get_bind fun s => ?_
    refine law.session_bind ?_ (fun function => law.answer mark (.function function)) s
    refine law.session_bracket (law.defineFunction name _ _) (fun function => ?_)
      fun function t => ?_
    · refine law.session_bind (law.keep fun t => ?_) fun _ => ihbody huses.1 false
      cases mark.name <;> rfl
    · exact Run.draft_after_lift_bind_pure _ _ t
  | build mark plan script next _ ih =>
    exact law.session_bind (attempt (law.answerBuilt mark _)) fun _ => ih huses lenient

/-- A relation `R` that a `script` moves along relates the new draft to the one it leaves. -/
theorem draftAfter (law : Law R) {allowed : Command → Prop}
    (hraw : ∀ names operation, operation.IsRaw → allowed operation →
      Moves R (operation.perform names))
    {script : Script τ} (huses : script.Uses allowed) (settings : Settings) (lenient : Bool) :
    R { settings := settings } (script.draftAfter settings lenient) :=
  law.run hraw script huses lenient { draft := { settings := settings } }

end Law

end SpirvBinary
