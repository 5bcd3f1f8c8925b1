import SpirvBinary.Proofs.Courses

/-!
# The calls of a run

While a script is carried out its commands are called one after the other, those in the bodies
of constructs and functions included, until a step fails that is not tolerated.  Every call is
made on a draft of its own.  Between two calls of a run there is nothing but elementary
operations, so the draft that a call leaves precedes the drafts of all later ones.

## Main definitions

* `Call` — a command with the names it is performed under and the draft it is performed on.
* `Script.calls` — the calls that are made while a script is carried out, in order.
* `Script.commands` — the commands of a script.
* `Linked` — calls follow one another on the way from one draft to another.
* `Chain` — a relation that is kept when notes on a run follow one another.
* `GapLaw` — a relation that a run moves along between its calls.
* `Script.drafts` — the drafts that a run comes across.

## Main results

* `Script.operations_sublist` — the calls of a run are calls of the commands of its script.
* `linked_calls` — the calls of a run follow one another on the way from the draft it starts
  from to the draft it leaves.
* `Linked.pairwise` — what a call leaves precedes what later calls start from.
-/

namespace SpirvBinary

/-- A command with the names it is performed under and the draft it is performed on. -/
structure Call where
  operation : Command
  names : Names
  draft : Draft
  deriving Inhabited

namespace Call

/-- What is carried out by a call. -/
def action (call : Call) : Build Reply := call.operation.perform call.names

/-- What a call answers. -/
def answer (call : Call) : Except Fault Reply :=
  match call.action call.draft with
  | .ok reply _ => .ok reply
  | .error fault _ => .error fault

theorem answer_eq_ok_iff {call : Call} {reply : Reply} :
    call.answer = .ok reply ↔ ∃ e, call.action call.draft = .ok reply e := by
  rw [answer]
  cases call.action call.draft with
  | ok reply' e => simp
  | error fault e => simp

/-- The draft that a call leaves. -/
def left (call : Call) : Draft := after call.action call.draft

/-- A call that answers the id of `x` succeeds and fails as `x` does, and leaves the same
draft. -/
theorem answer_of_answerId {call : Call} {x : Build Id}
    (haction : call.action = Command.answerId x) :
    (∀ {id e}, x call.draft = .ok id e → call.answer = .ok (.id id) ∧ call.left = e) ∧
      ∀ {fault e}, x call.draft = .error fault e → call.answer = .error fault ∧ call.left = e := by
  refine ⟨fun {id e} hrun => ?_, fun {fault e} hrun => ?_⟩
  · have h : call.action call.draft = .ok (.id id) e := by
      rw [haction]
      exact bind_of_ok hrun
    exact ⟨answer_eq_ok_iff.mpr ⟨e, h⟩, after_of_ok h⟩
  · have h : call.action call.draft = .error fault e := by
      rw [haction]
      exact bind_of_error hrun
    exact ⟨by rw [answer, h], after_of_error h⟩

/-- The id that such a call is answered with is that of `x`. -/
theorem run_of_answerId {call : Call} {x : Build Id} (haction : call.action = Command.answerId x)
    {id : Id} (h : call.answer = .ok (.id id)) : x call.draft = .ok id call.left := by
  obtain ⟨hok, herror⟩ := answer_of_answerId haction
  cases hrun : x call.draft with
  | ok id' e =>
    obtain ⟨hanswer, hleft⟩ := hok hrun
    cases hanswer.symm.trans h
    rw [hleft]
  | error fault e => cases (herror hrun).1.symm.trans h

end Call

section Calls

variable {τ α β ε : Type}

/-- What is noted after a computation `x` in the session `s`, if it succeeds: `calls a t`,
when its result is `a` and it leaves the session `t`. -/
def callsAfter (x : Run τ α) (s : Session τ) (calls : α → Session τ → List ε) : List ε :=
  match x s with
  | .ok a t => calls a t
  | .error _ _ => []

@[simp] theorem callsAfter_nil (x : Run τ α) (s : Session τ) :
    callsAfter x s (fun _ _ => ([] : List ε)) = [] := by
  rw [callsAfter]
  split <;> rfl

theorem callsAfter_bind (x : Run τ α) (k : α → Run τ β) (s : Session τ)
    (calls : β → Session τ → List ε) :
    callsAfter (x >>= k) s calls = callsAfter x s fun a t => callsAfter (k a) t calls := by
  cases hrun : x s with
  | ok a t => simp only [callsAfter, bind_of_ok hrun, hrun]
  | error fault t => simp only [callsAfter, bind_of_error hrun, hrun]

/-- The calls that are made while a script is carried out, in order.  The build of another module
has calls of its own, on drafts of its own, and they are not among them. -/
def Script.calls (lenient : Bool) : Script τ → Session τ → List Call
  | .done, _ => []
  | .command mark operation next, s =>
      [⟨operation, s.names, s.draft⟩] ++
        callsAfter ((Script.command mark operation .done).run lenient) s
          fun _ t => next.calls lenient t
  | .ifThen mark condition arm next, s =>
      callsAfter (Run.lift (Build.beginIfThen (s.names.id condition))) s
          (fun _ t => arm.calls false t) ++
        callsAfter ((Script.ifThen mark condition arm .done).run lenient) s
          fun _ t => next.calls lenient t
  | .ifThenElse mark condition onTrue onFalse next, s =>
      callsAfter (Run.lift (Build.beginIfThenElse (s.names.id condition))) s
          (fun labels t => onTrue.calls false t ++
            callsAfter (onTrue.run false) t fun _ u =>
              callsAfter (Run.lift (Build.endArm labels.2 labels.1)) u
                fun _ v => onFalse.calls false v) ++
        callsAfter ((Script.ifThenElse mark condition onTrue onFalse .done).run lenient) s
          fun _ t => next.calls lenient t
  | .countedLoop mark count body next, s =>
      callsAfter (Run.lift (Build.beginLoop count)) s
          (fun frame t => callsAfter (Run.bindIndex mark.name frame.index) t
            fun _ u => body.calls false u) ++
        callsAfter ((Script.countedLoop mark count body .done).run lenient) s
          fun _ t => next.calls lenient t
  | .defineFunction mark name returnType params body next, s =>
      callsAfter (Run.lift (Build.beginNamedFunction name (returnType.map s.names.id)
            (params.map s.names.id))) s
          (fun function t => callsAfter (Run.bindParams mark.name function) t
            fun _ u => body.calls false u) ++
        callsAfter ((Script.defineFunction mark name returnType params body .done).run lenient) s
          fun _ t => next.calls lenient t
  | .build mark plan script next, s =>
      callsAfter ((Script.build mark plan script .done).run lenient) s
        fun _ t => next.calls lenient t

/-- The commands of a script, in order, with those in the bodies of its steps.  The build of
another module has commands of its own. -/
def Script.commands : Script τ → List Command
  | .done => []
  | .command _ operation next => [operation] ++ next.commands
  | .ifThen _ _ arm next => arm.commands ++ next.commands
  | .ifThenElse _ _ onTrue onFalse next =>
      (onTrue.commands ++ onFalse.commands) ++ next.commands
  | .countedLoop _ _ body next => body.commands ++ next.commands
  | .defineFunction _ _ _ _ body next => body.commands ++ next.commands
  | .build _ _ _ next => next.commands

theorem callsAfter_sublist {x : Run τ α} {s : Session τ} {calls : α → Session τ → List Call}
    {commands : List Command}
    (h : ∀ a t, ((calls a t).map Call.operation).Sublist commands) :
    ((callsAfter x s calls).map Call.operation).Sublist commands := by
  rw [callsAfter]
  split
  · exact h _ _
  · exact List.nil_sublist _

/-- The calls of a run are calls of the `commands` of its script, each of which is called at most
once, and in the order in which they stand there. -/
theorem Script.operations_sublist (script : Script τ) (lenient : Bool) (s : Session τ) :
    ((script.calls lenient s).map Call.operation).Sublist script.commands := by
  induction script generalizing lenient s with
  | done => exact List.nil_sublist _
  | command mark operation next ih =>
    rw [calls, List.map_append]
    exact (List.Sublist.refl _).append (callsAfter_sublist fun _ t => ih lenient t)
  | ifThen mark condition arm next iharm ih =>
    rw [calls, List.map_append]
    exact (callsAfter_sublist fun _ t => iharm false t).append
      (callsAfter_sublist fun _ t => ih lenient t)
  | ifThenElse mark condition onTrue onFalse next ihtrue ihfalse ih =>
    rw [calls, List.map_append]
    refine List.Sublist.append (callsAfter_sublist fun labels t => ?_)
      (callsAfter_sublist fun _ t => ih lenient t)
    rw [List.map_append]
    exact (ihtrue false t).append (callsAfter_sublist fun _ _ =>
      callsAfter_sublist fun _ v => ihfalse false v)
  | countedLoop mark count body next ihbody ih =>
    rw [calls, List.map_append]
    exact (callsAfter_sublist fun _ _ => callsAfter_sublist fun _ u => ihbody false u).append
      (callsAfter_sublist fun _ t => ih lenient t)
  | defineFunction mark name returnType params body next ihbody ih =>
    rw [calls, List.map_append]
    exact (callsAfter_sublist fun _ _ => callsAfter_sublist fun _ u => ihbody false u).append
      (callsAfter_sublist fun _ t => ih lenient t)
  | build mark plan script next _ ih =>
    rw [calls]
    exact callsAfter_sublist fun _ t => ih lenient t

/-- The drafts that a run from a new draft with `settings` comes across: those its commands are
performed on, and the one it leaves. -/
def Script.drafts (settings : Settings) (lenient : Bool) (script : Script τ) : List Draft :=
  (script.calls lenient { draft := { settings := settings } }).map Call.draft
    ++ [script.draftAfter settings lenient]

/-! ### Calls that follow one another -/

/-- The `calls` follow one another on the way from the draft `d` to the draft `e`: from what a
call leaves to the draft of the next one there is a step of the relation `R`, as there is before
the first call and after the last. -/
def Linked (R : Draft → Draft → Prop) (d : Draft) (calls : List Call) (e : Draft) : Prop :=
  match calls with
  | [] => R d e
  | call :: calls => R d call.draft ∧ Linked R call.left calls e

namespace Linked

variable {R : Draft → Draft → Prop} {d e f : Draft} {calls calls' : List Call}

theorem of_step (trans : ∀ d e f, R d e → R e f → R d f) (hde : R d e) (h : Linked R e calls f) :
    Linked R d calls f := by
  cases calls with
  | nil => exact trans _ _ _ hde h
  | cons call rest => exact ⟨trans _ _ _ hde h.1, h.2⟩

theorem append (trans : ∀ d e f, R d e → R e f → R d f) (h : Linked R d calls e)
    (h' : Linked R e calls' f) : Linked R d (calls ++ calls') f := by
  induction calls generalizing d with
  | nil => exact of_step trans h h'
  | cons call rest ih => exact ⟨h.1, ih h.2⟩

/-- What holds of `d` and is kept by the steps of `R` and by the calls holds of every draft that
is called on, and of `e`. -/
theorem induction {P : Draft → Prop} (h : Linked R d calls e) (start : P d)
    (step : ∀ d e, R d e → P d → P e) (call : ∀ call ∈ calls, P call.draft → P call.left) :
    (∀ call ∈ calls, P call.draft) ∧ P e := by
  induction calls generalizing d with
  | nil => exact ⟨List.forall_mem_nil _, step _ _ h start⟩
  | cons first rest ih =>
    have hfirst : P first.draft := step _ _ h.1 start
    obtain ⟨hrest, hend⟩ := ih h.2 (call first List.mem_cons_self hfirst)
      fun later hlater => call later (List.mem_cons_of_mem _ hlater)
    exact ⟨List.forall_mem_cons.mpr ⟨hfirst, hrest⟩, hend⟩

/-- The calls before a `call` lead to its draft, and those after it start from what it leaves. -/
theorem split {call : Call} (h : Linked R d (calls ++ call :: calls') e) :
    Linked R d calls call.draft ∧ Linked R call.left calls' e := by
  induction calls generalizing d with
  | nil => exact h
  | cons first rest ih => exact ⟨⟨h.1, (ih h.2).1⟩, (ih h.2).2⟩

/-- A command leads from the draft it is performed on to a later one. -/
theorem precedes_left (call : Call) : Precedes (fun _ => True) call.draft call.left := by
  by_cases hraw : call.operation.IsRaw
  · exact Precedes.perform_raw (fun _ _ _ => trivial) call.names hraw (.inr fun _ _ => trivial)
      (.inr fun _ _ _ => trivial) call.draft
  · exact (Precedes.law fun _ _ _ => trivial).perform call.names hraw call.draft

/-- The draft `d` that the `calls` start from precedes the draft of each, and the draft `e` they
lead to. -/
theorem precedes (h : Linked (Precedes fun _ => True) d calls e) :
    (∀ call ∈ calls, Precedes (fun _ => True) d call.draft) ∧ Precedes (fun _ => True) d e :=
  h.induction (.refl d) (fun _ _ hstep hd => hd.trans hstep)
    fun call _ hd => hd.trans (precedes_left call)

/-- The draft that a call leaves precedes the drafts of all later ones. -/
theorem pairwise (h : Linked (Precedes fun _ => True) d calls e) :
    calls.Pairwise fun first later => Precedes (fun _ => True) first.left later.draft := by
  induction calls generalizing d with
  | nil => exact .nil
  | cons first rest ih => exact .cons (precedes h.2).1 (ih h.2)

end Linked

/-! ### Notes that follow one another -/

/-- A relation `L s calls t` between sessions and what is noted from one to the other, which is
kept when notes follow one another. -/
structure Chain (L : Session τ → List ε → Session τ → Prop) : Prop where
  refl : ∀ s, L s [] s
  append : ∀ {s t u calls calls'}, L s calls t → L t calls' u → L s (calls ++ calls') u

namespace Chain

variable {L : Session τ → List ε → Session τ → Prop} {s : Session τ} {x : Run τ α}
  {k : α → Run τ β} {calls : List ε} {calls' : α → Session τ → List ε}

/-- The notes of `x` and then those of `k`, which goes on with the result. -/
theorem bind (chain : Chain L) (hx : L s calls (after x s))
    (hk : ∀ a t, x s = .ok a t → L t (calls' a t) (after (k a) t)) :
    L s (calls ++ callsAfter x s calls') (after (x >>= k) s) := by
  cases hrun : x s with
  | ok a t =>
    rw [after_of_ok hrun] at hx
    rw [after_bind_of_ok hrun, callsAfter, hrun]
    exact chain.append hx (hk a t hrun)
  | error fault t =>
    rw [after_of_error hrun] at hx
    rw [after_bind_of_error hrun, callsAfter, hrun, List.append_nil]
    exact hx

/-- Notes are taken in `k` only, the second of two computations. -/
theorem bind_right (chain : Chain L) (hx : L s [] (after x s))
    (hk : ∀ a t, x s = .ok a t → L t (calls' a t) (after (k a) t)) :
    L s (callsAfter x s calls') (after (x >>= k) s) := chain.bind hx hk

/-- Notes are taken in `x` only, the first of two computations. -/
theorem bind_left (chain : Chain L) (hx : L s calls (after x s))
    (hk : ∀ a t, L t [] (after (k a) t)) : L s calls (after (x >>= k) s) := by
  rw [← List.append_nil calls, ← callsAfter_nil x s]
  exact chain.bind hx fun a t _ => hk a t

/-- A computation that reads the session first is noted as what it does with it. -/
theorem get_bind (_chain : Chain L) {k : Session τ → Run τ α} (h : L s calls (after (k s) s)) :
    L s calls (after (MonadState.get >>= k) s) := h

/-- The notes of a `step` and then those of the rest of a script. -/
theorem next (chain : Chain L) {lenient : Bool} {mark : Mark τ}
    {step : Run τ (Gauge → Report τ)} {next : Script τ} {later : Session τ → List ε}
    (hstep : L s calls (after (Run.attempt lenient mark step) s))
    (hnext : ∀ t, L t (later t) (after (next.run lenient) t)) :
    L s
      (calls ++ callsAfter (Run.attempt lenient mark step >>= fun _ => Script.done.run lenient) s
        fun _ t => later t)
      (after (Run.attempt lenient mark step >>= fun _ => next.run lenient) s) := by
  have hsame : callsAfter (Run.attempt lenient mark step >>= fun _ => Script.done.run lenient) s
        (fun _ t => later t)
      = callsAfter (Run.attempt lenient mark step) s fun _ t => later t := by
    cases hrun : Run.attempt lenient mark step s with
    | ok _ t => rw [callsAfter, callsAfter, bind_of_ok hrun, hrun]; rfl
    | error fault t => rw [callsAfter, callsAfter, bind_of_error hrun, hrun]
  rw [hsame]
  exact chain.bind hstep fun _ t _ => hnext t

end Chain

/-! ### Runs -/

/-- Calls that are `Linked` are a chain. -/
theorem linked_chain {R : Draft → Draft → Prop} (refl : ∀ d, R d d)
    (trans : ∀ d e f, R d e → R e f → R d f) :
    Chain fun (s : Session τ) calls (t : Session τ) => Linked R s.draft calls t.draft :=
  ⟨fun s => refl s.draft, Linked.append trans⟩

end Calls

/-- A relation `R` between drafts that whatever a run does between its calls moves along: it
enters and leaves the bodies of constructs, begins and ends the functions that are defined
around a body, and notes events. -/
structure GapLaw (R : Draft → Draft → Prop) : Prop where
  refl : ∀ d, R d d
  trans : ∀ d e f, R d e → R e f → R d f
  journal : ∀ d events, R d { d with journal := events }
  beginIfThen : ∀ condition, Moves R (Build.beginIfThen condition)
  beginIfThenElse : ∀ condition, Moves R (Build.beginIfThenElse condition)
  endArm : ∀ merge next, Moves R (Build.endArm merge next)
  beginLoop : ∀ count, Moves R (Build.beginLoop count)
  endLoop : ∀ frame, Moves R (Build.endLoop frame)
  beginNamedFunction : ∀ name returnType paramTypes,
    Moves R (Build.beginNamedFunction name returnType paramTypes)
  endFunction : Moves R Build.endFunction

/-- What is kept by the `parts` of all operations but the registration of structs is a `GapLaw`, as
no struct is registered between the calls of a run. -/
theorem GapLaw.of_parts {R : Draft → Draft → Prop} (refl : ∀ d, R d d)
    (trans : ∀ d e f, R d e → R e f → R d f)
    (journal : ∀ d events, R d { d with journal := events }) (parts : QuietParts (Moves R)) :
    GapLaw R where
  refl := refl
  trans := trans
  journal := journal
  beginIfThen := parts.body.beginIfThen
  beginIfThenElse := parts.body.beginIfThenElse
  endArm := parts.body.endArm
  beginLoop := parts.beginLoop
  endLoop := parts.body.endLoop
  beginNamedFunction := parts.beginNamedFunction
  endFunction := parts.endFunction

/-- What a run does between its calls is a course. -/
theorem Precedes.gaps : GapLaw (Precedes fun _ => True) :=
  have law : Law (Precedes fun _ => True) := law fun _ _ _ => trivial
  have staging : StagingLaw (Precedes fun _ => True) :=
    .of_functions law.refl law.trans law.journal law.freshId
      (fun s inst _ d => .of_op (.emit s inst) trivial d)
      fun d functions => .of_op (.stage functions) trivial d
  { refl := law.refl
    trans := law.trans
    journal := law.journal
    beginIfThen := staging.beginIfThen
    beginIfThenElse := staging.beginIfThenElse
    endArm := staging.endArm
    beginLoop := fun count d => (law.countedLoop count d).1
    endLoop := staging.endLoop
    beginNamedFunction := law.beginNamedFunction
    endFunction := staging.endFunction }

/-- The calls of a run follow one another on the way from the draft it starts from to the
draft it leaves, along any relation `R` that it moves along between them. -/
theorem linked_calls {τ : Type} {R : Draft → Draft → Prop} (law : GapLaw R) (script : Script τ)
    (lenient : Bool) (s : Session τ) :
    Linked R s.draft (script.calls lenient s) (after (script.run lenient) s).draft := by
  have chain : Chain fun (s : Session τ) calls (t : Session τ) =>
      Linked R s.draft calls t.draft := linked_chain law.refl law.trans
  have lift : ∀ {α : Type} {action : Build α}, Moves R action →
      ∀ s : Session τ, R s.draft (after (Run.lift action) s).draft :=
    fun {α action} h => Law.lift h
  have keep : ∀ {α : Type} {x : Run τ α}, (∀ s, (after x s).draft = s.draft) →
      ∀ s, R s.draft (after x s).draft := by
    intro α x h s
    rw [h s]
    exact law.refl s.draft
  have answer : ∀ mark reply (s : Session τ), R s.draft (after (Run.answer mark reply) s).draft :=
    fun mark reply => keep (Run.draft_after_answer mark reply)
  -- recording a report does not touch the draft
  have attempt : ∀ {tolerant mark} {step : Run τ (Gauge → Report τ)} {s : Session τ} {calls},
      Linked R s.draft calls (after step s).draft →
      Linked R s.draft calls (after (Run.attempt tolerant mark step) s).draft := by
    intro tolerant mark step s calls h
    rwa [Run.draft_after_attempt]
  induction script generalizing lenient s with
  | done => exact law.refl s.draft
  | command mark operation next ih =>
    refine chain.next (attempt (chain.get_bind ?_)) fun t => ih lenient t
    refine chain.bind_left ?_ fun reply => answer mark reply
    rw [Run.after_lift]
    exact ⟨law.refl _, law.refl _⟩
  | ifThen mark condition arm next iharm ih =>
    refine chain.next (attempt (chain.get_bind ?_)) fun t => ih lenient t
    refine chain.bind_left ?_ fun _ => answer mark .done
    refine chain.bind_right (lift (law.beginIfThen _) s) fun merge t _ => ?_
    exact chain.bind_left (iharm false t) fun _ => lift (law.endArm merge merge)
  | ifThenElse mark condition onTrue onFalse next ihtrue ihfalse ih =>
    refine chain.next (attempt (chain.get_bind ?_)) fun t => ih lenient t
    refine chain.bind_left ?_ fun _ => answer mark .done
    refine chain.bind_right (lift (law.beginIfThenElse _) s) fun labels t _ => ?_
    refine chain.bind (ihtrue false t) fun _ u _ => ?_
    refine chain.bind_right (lift (law.endArm labels.2 labels.1) u) fun _ v _ => ?_
    exact chain.bind_left (ihfalse false v) fun _ => lift (law.endArm labels.2 labels.2)
  | countedLoop mark count body next ihbody ih =>
    refine chain.next (attempt ?_) fun t => ih lenient t
    refine chain.bind_left ?_ fun index => answer mark _
    refine chain.bind_right (lift (law.beginLoop count) s) fun frame t _ => ?_
    refine chain.bind_left ?_ fun _ u => chain.bind_left (lift (law.endLoop frame) u)
      fun _ v => law.refl v.draft
    refine chain.bind_right (keep (fun u => ?_) t) fun _ u _ => ihbody false u
    cases mark.name <;> rfl
  | defineFunction mark name returnType params body next ihbody ih =>
    refine chain.next (attempt (chain.get_bind ?_)) fun t => ih lenient t
    refine chain.bind_left ?_ fun function => answer mark _
    refine chain.bind_right (lift (law.beginNamedFunction name _ _) s) fun function t _ => ?_
    refine chain.bind_left ?_ fun _ u => chain.bind_left (lift law.endFunction u)
      fun _ v => law.refl v.draft
    refine chain.bind_right (keep (fun u => ?_) t) fun _ u _ => ihbody false u
    cases mark.name <;> rfl
  | build mark plan script next _ ih =>
    have hbuilt : Linked R s.draft [] (after (Run.answerBuilt mark
        (plan.buildBy (script.run plan.lenient))) s).draft := by
      rw [Run.draft_after_answerBuilt]
      exact law.journal s.draft _
    exact chain.next (attempt hbuilt) fun t => ih lenient t

/-- Every draft that a run comes across is preceded by the draft it starts from. -/
theorem Script.precedes_drafts {τ : Type} {script : Script τ} {settings : Settings}
    {lenient : Bool} {d : Draft} (hd : d ∈ script.drafts settings lenient) :
    Precedes (fun _ => True) { settings := settings } d := by
  have hlinked := linked_calls Precedes.gaps script lenient { draft := { settings := settings } }
  rcases List.mem_append.mp hd with hcall | hend
  · obtain ⟨call, hmem, rfl⟩ := List.mem_map.mp hcall
    exact hlinked.precedes.1 call hmem
  · rw [List.mem_singleton.mp hend]
    exact hlinked.precedes.2

end SpirvBinary
