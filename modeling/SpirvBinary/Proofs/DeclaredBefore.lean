import SpirvBinary.Proofs.ClosedDrafts

/-!
# Declaration before use

In a module everything has to be declared before it is referred to.  In a run of the
operations that declare types, constants, structs and variables this holds as soon as the
ids that are handed to these operations are ids that such operations have answered before.

## Main definitions

* `Command.arguments` — the references of a command to types and parts.
* `Session.returned` — the ids that declarations have answered.
* `Script.DrawsOn` — commands are handed such ids only, at every step of a run.
* `Session.Sound` — the draft is closed and knows what declarations have answered.

## Main results

* `yields_perform` — commands that are handed known ids keep a draft closed.
* `leads_run` — runs that draw on what declarations have answered keep a session sound.
* `declared_before_use` — **global declarations refer to earlier ones only.**
-/

namespace SpirvBinary

open Opcode

/-! ### Commands -/

namespace Command

/-- The ids that a command is handed as those of types, of the parts of a constant, and of
the pointers of variables. -/
def arguments : Command → List Ref
  | .vectorType component _ => [component]
  | .matrixType column _ => [column]
  | .arrayType element _ => [element]
  | .pointerType _ pointee => [pointee]
  | .functionType returnType params => returnType :: params
  | .compositeConstant type parts => type :: parts
  | .globalVariable pointer _ => [pointer]
  | .beginFunction returnType params _ => returnType :: params
  | .localVariable pointee => [pointee]
  | _ => []

/-- The command does not choose the opcode or the words of a global declaration itself, as
`declareType` and `declareConstant` do. -/
def IsTyped : Command → Prop
  | .declareType .. | .declareConstant .. => False
  | .emit s _ | .emitResult s _ _ => s ≠ .globalDeclarations
  | _ => True

end Command

/-- What is known of the `reply` of a command: the id that a declaration answers is known. -/
def Command.Answers (operation : Command) (reply : Reply) (d : Draft) : Prop :=
  operation.IsDeclaration → ∀ id, reply = .id id → d.Knows id

/-- Commands that are handed known ids secure a draft, and declarations answer known ids. -/
theorem yields_perform {d : Draft} (names : Names) {operation : Command}
    (htyped : operation.IsTyped) (hargs : ∀ ref ∈ operation.arguments, d.Knows (names.id ref)) :
    Yields (operation.perform names) d operation.Answers := by
  have staging := Idle.staging
  have hargs' : ∀ id ∈ operation.arguments.map names.id, d.Knows id := by
    intro id hid
    obtain ⟨ref, href, rfl⟩ := List.mem_map.mp hid
    exact hargs ref href
  have hdeclared : ∀ {action : Build Id}, Supplies action d →
      Yields (Command.answerId action) d operation.Answers := by
    intro action h
    refine Yields.bind h fun id e _ hid => .pure fun _ id' heq => ?_
    cases heq
    exact hid
  have hother : ∀ {α : Type} {action : Build α} {reply : α → Reply}, ¬ operation.IsDeclaration →
      (Yields action d fun _ _ => True) →
      Yields (do let a ← action; return reply a) d operation.Answers :=
    fun hnot h => Yields.bind h fun _ _ _ _ => .pure fun hop => absurd hop hnot
  cases operation with
  | voidType => exact hdeclared (supplies_voidType d)
  | boolType => exact hdeclared (supplies_boolType d)
  | intType width signed => exact hdeclared (supplies_intType width signed d)
  | floatType width => exact hdeclared (supplies_floatType width d)
  | vectorType component count =>
    exact hdeclared (supplies_vectorType (hargs _ List.mem_cons_self) count)
  | matrixType column columns =>
    exact hdeclared (supplies_matrixType (hargs _ List.mem_cons_self) columns)
  | arrayType element length =>
    exact hdeclared (supplies_arrayType (hargs _ List.mem_cons_self) length)
  | pointerType storage pointee =>
    exact hdeclared (supplies_pointerType (hargs _ List.mem_cons_self) storage)
  | functionType returnType params => exact hdeclared (supplies_functionType hargs')
  | intConstant value => exact hdeclared (supplies_intConstant value d)
  | wordConstant value => exact hdeclared (supplies_wordConstant value d)
  | floatConstant value => exact hdeclared (supplies_floatConstant value d)
  | boolConstant value => exact hdeclared (supplies_boolConstant value d)
  | compositeConstant type parts =>
    obtain ⟨htype, hparts⟩ := List.forall_mem_cons.mp hargs'
    exact hdeclared (supplies_compositeConstant htype hparts)
  | constant value => exact hdeclared (supplies_constant value d)
  | registerStruct struct => exact hdeclared (supplies_fieldType _ d)
  | structType name => exact hdeclared (supplies_structType name d)
  | structPointer name storage => exact hdeclared (supplies_structPointer name storage d)
  | globalVariable pointer storage =>
    exact hother id (yields_globalVariable (hargs _ List.mem_cons_self) storage)
  | beginFunction returnType params control =>
    exact hother id (yields_beginFunction hargs' control)
  | localVariable pointee => exact hother id (yields_localVariable (hargs _ List.mem_cons_self))
  | emit s template => exact hother id (.of_idle (Idle.emit htyped _) d)
  | emitResult s opcode operands =>
    exact hother id (.of_idle (Idle.bind Idle.freshId fun id =>
      Idle.bind (Idle.emit htyped _) fun _ => staging.pure id) d)
  | declareType | declareConstant => exact htyped.elim
  | capability | useExtension | memoryModel | entryPoint | executionMode | sourceLanguage
  | nameId | nameMember | processedBy | decorate | decorateMember =>
    exact hother id (.of_idle (Idle.emit (by decide) _) d)
  | pushHead | pushBody | label | branch | returnVoid | returnValue | store =>
    exact hother id (.of_idle (updateFunction_moves staging.refl staging.functions _) d)
  | emitBody | call | load => exact hother id (.of_idle (staging.emitBody _ _ _) d)
  | freshId => exact hother id (.of_idle staging.freshId d)
  | importInstructions name => exact hother id (.of_idle (staging.importInstructions name) d)
  | openFunction => exact hother id (.of_idle staging.openFunction d)
  | closeFunction => exact hother id (.of_idle staging.closeFunction d)
  | endFunction => exact hother id (.of_idle staging.endFunction d)
  | findType opcode operands =>
    exact hother id (.of_idle (findType_moves staging.refl staging.journal _) d)
  | findStruct | structList | sectionWords | bound =>
    exact .of_ok rfl ⟨.refl d, fun hop => hop.elim⟩

/-! ### Runs that draw on what was answered

The tags of steps are the caller's own and are copied to the trace, so a run can label the
steps that are declarations and find in its trace what they have answered. -/

section Runs

variable {τ : Type} (declares : τ → Bool)

/-- The id that a step has answered whose label `declares` something. -/
def Report.returned? : Report τ → Option Id
  | .step tag (.ok (.id id)) _ => if declares tag then some id else none
  | _ => none

/-- The ids that the steps have answered whose labels declare something. -/
def Session.returned (s : Session τ) : List Id := s.newest.filterMap (Report.returned? declares)

namespace Script

/-- Whatever has a label that `declares` something is a declaration of a type, a constant or a
struct. -/
def LabelsDeclarations : Script τ → Prop
  | .done => True
  | .command mark operation next =>
      (declares mark.tag → operation.IsDeclaration) ∧ next.LabelsDeclarations
  | .ifThen _ _ arm next => arm.LabelsDeclarations ∧ next.LabelsDeclarations
  | .ifThenElse _ _ onTrue onFalse next =>
      onTrue.LabelsDeclarations ∧ onFalse.LabelsDeclarations ∧ next.LabelsDeclarations
  | .countedLoop _ _ body next => body.LabelsDeclarations ∧ next.LabelsDeclarations
  | .defineFunction _ _ _ _ body next => body.LabelsDeclarations ∧ next.LabelsDeclarations
  | .build _ _ _ next => next.LabelsDeclarations

/-- At every step of the run of a script from a session, the ids that are handed over as
`arguments` have been answered by declarations before. -/
def DrawsOn (lenient : Bool) : Script τ → Session τ → Prop
  | .done, _ => True
  | .command mark operation next, s =>
      (∀ ref ∈ operation.arguments, s.names.id ref ∈ s.returned declares) ∧
        Leads ((Script.command mark operation .done).run lenient) s
          (fun _ t => next.DrawsOn lenient t) fun _ => True
  | .ifThen mark condition arm next, s =>
      (Leads (Run.lift (Build.beginIfThen (s.names.id condition))) s
        (fun _ t => arm.DrawsOn false t) fun _ => True) ∧
        Leads ((Script.ifThen mark condition arm .done).run lenient) s
          (fun _ t => next.DrawsOn lenient t) fun _ => True
  | .ifThenElse mark condition onTrue onFalse next, s =>
      (Leads (Run.lift (Build.beginIfThenElse (s.names.id condition))) s
        (fun labels t => onTrue.DrawsOn false t ∧
          Leads (onTrue.run false) t
            (fun _ u => Leads (Run.lift (Build.endArm labels.2 labels.1)) u
              (fun _ v => onFalse.DrawsOn false v) fun _ => True) fun _ => True) fun _ => True) ∧
        Leads ((Script.ifThenElse mark condition onTrue onFalse .done).run lenient) s
          (fun _ t => next.DrawsOn lenient t) fun _ => True
  | .countedLoop mark count body next, s =>
      (Leads (Run.lift (Build.beginLoop count)) s
        (fun frame t => Leads (Run.bindIndex mark.name frame.index) t
          (fun _ u => body.DrawsOn false u) fun _ => True) fun _ => True) ∧
        Leads ((Script.countedLoop mark count body .done).run lenient) s
          (fun _ t => next.DrawsOn lenient t) fun _ => True
  | .defineFunction mark name returnType params body next, s =>
      (∀ ref ∈ returnType.toList ++ params, s.names.id ref ∈ s.returned declares) ∧
        (Leads (Run.lift (Build.beginNamedFunction name (returnType.map s.names.id)
            (params.map s.names.id))) s
          (fun function t => Leads (Run.bindParams mark.name function) t
            (fun _ u => body.DrawsOn false u) fun _ => True) fun _ => True) ∧
        Leads ((Script.defineFunction mark name returnType params body .done).run lenient) s
          (fun _ t => next.DrawsOn lenient t) fun _ => True
  | .build mark plan script next, s =>
      Leads ((Script.build mark plan script .done).run lenient) s
        (fun _ t => next.DrawsOn lenient t) fun _ => True

/-- Whether a script draws on declarations is found out by running it. -/
instance decidableDrawsOn : (lenient : Bool) → (script : Script τ) → (s : Session τ) →
    Decidable (script.DrawsOn declares lenient s)
  | _, .done, _ => inferInstanceAs (Decidable True)
  | lenient, .command _ _ next, _ =>
      have := decidableDrawsOn lenient next
      inferInstanceAs (Decidable (_ ∧ Leads _ _ _ _))
  | lenient, .ifThen _ _ arm next, _ =>
      have := decidableDrawsOn false arm
      have := decidableDrawsOn lenient next
      inferInstanceAs (Decidable (Leads _ _ _ _ ∧ Leads _ _ _ _))
  | lenient, .ifThenElse _ _ onTrue onFalse next, _ =>
      have := decidableDrawsOn false onTrue
      have := decidableDrawsOn false onFalse
      have := decidableDrawsOn lenient next
      inferInstanceAs (Decidable (Leads _ _ _ _ ∧ Leads _ _ _ _))
  | lenient, .countedLoop _ _ body next, _ =>
      have := decidableDrawsOn false body
      have := decidableDrawsOn lenient next
      inferInstanceAs (Decidable (Leads _ _ _ _ ∧ Leads _ _ _ _))
  | lenient, .defineFunction _ _ _ _ body next, _ =>
      have := decidableDrawsOn false body
      have := decidableDrawsOn lenient next
      inferInstanceAs (Decidable (_ ∧ Leads _ _ _ _ ∧ Leads _ _ _ _))
  | lenient, .build _ _ _ next, _ =>
      have := decidableDrawsOn lenient next
      inferInstanceAs (Decidable (Leads _ _ _ _))

end Script

/-- The draft of a session is closed, and what declarations have `returned` is known. -/
structure Session.Sound (s : Session τ) : Prop where
  closed : s.draft.Closed
  knows : ∀ id ∈ s.returned declares, s.draft.Knows id

variable {declares} {s t : Session τ}

theorem Session.Sound.of_secures (h : s.Sound declares) (hsecures : Secures s.draft t.draft)
    (hnewest : t.newest = s.newest) : t.Sound declares := by
  refine ⟨hsecures.closed h.closed, fun id hid => hsecures.knows id (h.knows id ?_)⟩
  rwa [Session.returned, hnewest] at hid

theorem leads_lift {α : Type} {x : Build α} {P : α → Draft → Prop} (h : s.Sound declares)
    (hx : Yields x s.draft P) :
    Leads (Run.lift x) s (fun a t => t.Sound declares ∧ P a t.draft) (Session.Sound declares) := by
  unfold Yields Leads at hx
  cases hrun : x s.draft with
  | ok a d =>
    rw [hrun] at hx
    have hlift : (Run.lift x : Run τ α) s = .ok a { s with draft := d } := by
      rw [Run.lift, hrun]
    exact .of_ok hlift ⟨h.of_secures hx.1 rfl, hx.2⟩
  | error fault d =>
    rw [hrun] at hx
    have hlift : (Run.lift x : Run τ α) s = .error fault { s with draft := d } := by
      rw [Run.lift, hrun]
    exact .of_error hlift (h.of_secures hx rfl)

theorem leads_lift_idle {α : Type} {x : Build α} (h : s.Sound declares) (hx : Moves Idle x) :
    Leads (Run.lift x) s (fun _ t => t.Sound declares) (Session.Sound declares) :=
  (leads_lift h (.of_idle hx s.draft)).mono (fun _ _ h => h.1) fun _ h => h

theorem leads_bindIndex (h : s.Sound declares) (name : Option String) (index : Id) :
    Leads (Run.bindIndex name index) s (fun _ t => t.Sound declares) (Session.Sound declares) := by
  cases name <;> exact .of_ok rfl ⟨h.closed, h.knows⟩

theorem leads_bindParams (h : s.Sound declares) (name : Option String) (function : FunctionDef) :
    Leads (Run.bindParams name function) s (fun _ t => t.Sound declares)
      (Session.Sound declares) := by
  cases name <;> exact .of_ok rfl ⟨h.closed, h.knows⟩

/-- The `report` of a step is sound in a session `t` whose draft knows the id it has answered. -/
def SoundReport (declares : τ → Bool) (report : Gauge → Report τ) (t : Session τ) : Prop :=
  t.Sound declares ∧ ∀ gauge id, (report gauge).returned? declares = some id → t.draft.Knows id

theorem leads_answer {mark : Mark τ} {reply : Reply} (h : s.Sound declares)
    (hreply : declares mark.tag → ∀ id, reply = .id id → s.draft.Knows id) :
    Leads (Run.answer mark reply) s (SoundReport declares) (Session.Sound declares) := by
  have hbind : ∃ names, Run.bindReply mark.name reply s = .ok () { s with names := names } := by
    cases mark.name with
    | none => exact ⟨s.names, rfl⟩
    | some name => cases reply <;> exact ⟨_, rfl⟩
  obtain ⟨names, hbind⟩ := hbind
  refine Leads.of_ok (bind_of_ok hbind) ⟨⟨h.closed, h.knows⟩, fun gauge id hid => ?_⟩
  cases reply with
  | id answered =>
    by_cases hlabel : declares mark.tag
    · simp only [Report.returned?, hlabel, if_true, Option.some.injEq] at hid
      exact hreply hlabel id (by rw [hid])
    · simp only [Report.returned?, hlabel] at hid
      cases hid
  | _ => cases hid

theorem leads_attempt {tolerant : Bool} {mark : Mark τ} {step : Run τ (Gauge → Report τ)}
    (h : Leads step s (SoundReport declares) (Session.Sound declares)) :
    Leads (Run.attempt tolerant mark step) s (fun _ t => t.Sound declares)
      (Session.Sound declares) := by
  unfold Leads at h
  cases hstep : step s with
  | ok report t =>
    rw [hstep] at h
    have hrun : Run.attempt tolerant mark step s
        = .ok () (t.record (report t.draft.gauge)) := by rw [Run.attempt, hstep]
    refine .of_ok hrun ⟨h.1.closed, fun id hid => ?_⟩
    obtain ⟨other, hother, hreturned⟩ := List.mem_filterMap.mp hid
    rcases List.mem_cons.mp hother with rfl | hold
    · exact h.2 _ id hreturned
    · exact h.1.knows id (List.mem_filterMap.mpr ⟨other, hold, hreturned⟩)
  | error fault t =>
    rw [hstep] at h
    have hrecorded : (t.record (.step mark.tag (.error fault) t.draft.gauge)).Sound declares :=
      ⟨h.closed, h.knows⟩
    by_cases htolerant : (tolerant || mark.tolerant) = true
    · have hrun : Run.attempt tolerant mark step s
          = .ok () (t.record (.step mark.tag (.error fault) t.draft.gauge)) := by
        simp only [Run.attempt, hstep, if_pos htolerant]
      exact .of_ok hrun hrecorded
    · have hrun : Run.attempt tolerant mark step s
          = .error fault (t.record (.step mark.tag (.error fault) t.draft.gauge)) := by
        simp only [Run.attempt, hstep, if_neg htolerant]
      exact .of_error hrun hrecorded

/-- A step and then the rest of a script. -/
theorem leads_next {step : Run τ Unit} {next : Script τ} {lenient : Bool}
    (hstep : Leads step s (fun _ t => t.Sound declares) (Session.Sound declares))
    (hdraws : Leads (step >>= fun _ => Script.done.run lenient) s
      (fun _ t => next.DrawsOn declares lenient t) fun _ => True)
    (hnext : ∀ t : Session τ, t.Sound declares → next.DrawsOn declares lenient t →
      Leads (next.run lenient) t (fun _ u => u.Sound declares) (Session.Sound declares)) :
    Leads (step >>= fun _ => next.run lenient) s (fun _ t => t.Sound declares)
      (Session.Sound declares) := by
  cases hrun : step s with
  | ok a t =>
    have hsound : t.Sound declares := hstep.ok hrun
    have hrest : next.DrawsOn declares lenient t := hdraws.ok (bind_of_ok hrun)
    have hlead := hnext t hsound hrest
    unfold Leads at hlead ⊢
    rwa [bind_of_ok hrun]
  | error fault t =>
    unfold Leads at hstep
    rw [hrun] at hstep
    exact .of_error (bind_of_error hrun) hstep

/-- A step whose `reply` is no id of a declaration. -/
theorem leads_answer_of_ne {α : Type} {x : Run τ α} {mark : Mark τ} {reply : α → Reply}
    (h : Leads x s (fun _ t => t.Sound declares) (Session.Sound declares))
    (hreply : ∀ a id, reply a ≠ .id id) :
    Leads (do let a ← x; Run.answer mark (reply a)) s (SoundReport declares)
      (Session.Sound declares) :=
  Leads.bind h fun a _ ht => leads_answer ht fun _ id heq => absurd heq (hreply a id)

/-- A run that hands over what declarations have answered keeps a session sound. -/
theorem leads_run {script : Script τ} (htyped : script.Uses Command.IsTyped)
    (hlabels : script.LabelsDeclarations declares) (lenient : Bool) (hs : s.Sound declares)
    (hdraws : script.DrawsOn declares lenient s) :
    Leads (script.run lenient) s (fun _ t => t.Sound declares) (Session.Sound declares) := by
  have staging := Idle.staging
  induction script generalizing lenient s with
  | done => exact .of_ok rfl hs
  | command mark operation next ih =>
    obtain ⟨hargs, hnext⟩ := hdraws
    refine leads_next (leads_attempt (.get_bind ?_)) hnext
      fun t ht => ih htyped.2 hlabels.2 lenient ht
    refine Leads.bind (leads_lift hs (yields_perform s.names htyped.1 fun ref href =>
      hs.knows _ (hargs ref href))) fun reply t ht => ?_
    exact leads_answer ht.1 fun hlabel => ht.2 (hlabels.1 hlabel)
  | ifThen mark condition arm next iharm ih =>
    obtain ⟨harm, hnext⟩ := hdraws
    refine leads_next (leads_attempt (.get_bind (leads_answer_of_ne ?_ (by simp))))
      hnext fun t ht => ih htyped.2 hlabels.2 lenient ht
    refine Leads.bind ((leads_lift_idle hs (staging.beginIfThen _)).and harm) fun merge t ht => ?_
    refine Leads.bind (iharm htyped.1 hlabels.1 false ht.1 ht.2) fun _ u hu => ?_
    exact leads_lift_idle hu (staging.endArm merge merge)
  | ifThenElse mark condition onTrue onFalse next ihtrue ihfalse ih =>
    obtain ⟨harms, hnext⟩ := hdraws
    refine leads_next (leads_attempt (.get_bind (leads_answer_of_ne ?_ (by simp))))
      hnext fun t ht => ih htyped.2.2 hlabels.2.2 lenient ht
    refine Leads.bind ((leads_lift_idle hs (staging.beginIfThenElse _)).and harms)
      fun labels t ht => ?_
    obtain ⟨ht, htrue, hfalse⟩ := ht
    refine Leads.bind ((ihtrue htyped.1 hlabels.1 false ht htrue).and hfalse) fun _ u hu => ?_
    refine Leads.bind ((leads_lift_idle hu.1 (staging.endArm labels.2 labels.1)).and hu.2)
      fun _ v hv => ?_
    refine Leads.bind (ihfalse htyped.2.1 hlabels.2.1 false hv.1 hv.2) fun _ w hw => ?_
    exact leads_lift_idle hw (staging.endArm labels.2 labels.2)
  | countedLoop mark count body next ihbody ih =>
    obtain ⟨hbody, hnext⟩ := hdraws
    refine leads_next (leads_attempt (leads_answer_of_ne ?_ (by simp)))
      hnext fun t ht => ih htyped.2 hlabels.2 lenient ht
    refine Leads.bind ((leads_lift hs (yields_beginLoop count s.draft)).and hbody)
      fun frame t ht => ?_
    refine Leads.bind (P := fun _ u => u.Sound declares) ?_ fun _ u hu => ?_
    · refine Leads.bind ((leads_bindIndex ht.1.1 mark.name frame.index).and ht.2) fun _ u hu => ?_
      exact ihbody htyped.1 hlabels.1 false hu.1 hu.2
    · exact Leads.bind (leads_lift_idle hu (staging.endLoop frame)) fun _ v hv => .of_ok rfl hv
  | defineFunction mark name returnType params body next ihbody ih =>
    obtain ⟨hargs, hbody, hnext⟩ := hdraws
    refine leads_next (leads_attempt (.get_bind (leads_answer_of_ne ?_ (by simp))))
      hnext fun t ht => ih htyped.2 hlabels.2 lenient ht
    have hknows : ∀ id ∈ (returnType.map s.names.id).toList ++ params.map s.names.id,
        s.draft.Knows id := by
      intro id hid
      rw [Option.toList_map, ← List.map_append] at hid
      obtain ⟨ref, href, rfl⟩ := List.mem_map.mp hid
      exact hs.knows _ (hargs ref href)
    refine Leads.bind ((leads_lift hs (yields_beginNamedFunction name hknows)).and hbody)
      fun function t ht => ?_
    refine Leads.bind (P := fun _ u => u.Sound declares) ?_ fun _ u hu => ?_
    · refine Leads.bind ((leads_bindParams ht.1.1 mark.name function).and ht.2) fun _ u hu => ?_
      exact ihbody htyped.1 hlabels.1 false hu.1 hu.2
    · exact Leads.bind (leads_lift_idle hu staging.endFunction) fun _ v hv => .of_ok rfl hv
  | build mark plan script next _ ih =>
    refine leads_next (leads_attempt ?_) hdraws fun t ht => ih htyped hlabels lenient ht
    -- the other module has a session of its own, and only what happened is noted
    have hnoted : ∀ journal, ({ s with draft := { s.draft with journal := journal } } :
        Session τ).Sound declares := fun journal =>
      hs.of_secures (.of_idle (staging.journal s.draft journal)) rfl
    rw [Run.answerBuilt]
    refine Leads.bind (P := fun _ t => t.Sound declares) (.of_ok rfl (hnoted _)) fun _ t ht => ?_
    cases (plan.buildBy (script.run plan.lenient)).outcome with
    | ok binary => exact .of_ok rfl ⟨ht, by simp [Report.returned?]⟩
    | error fault => exact .of_error rfl ht

/-- **Global declarations refer to earlier ones only.**  In a run of typed operations that are
handed no ids of types and parts but those that declarations have answered before, as `DrawsOn`
says, each id that a global declaration refers to is the result of a declaration before it.  Steps
may fail on the way; every moment of a run is the end of a run that stops there. -/
theorem declared_before_use {script : Script τ} (htyped : script.Uses Command.IsTyped)
    (hlabels : script.LabelsDeclarations declares) (settings : Settings) (lenient : Bool)
    (hdraws : script.DrawsOn declares lenient { draft := { settings := settings } })
    (before : List Instruction) (inst : Instruction) (rest : List Instruction)
    (hglobals : (script.draftAfter settings lenient).globals = before ++ inst :: rest) :
    ∀ id ∈ inst.references, ∃ earlier ∈ before, earlier.result = some id := by
  have hnew : ({ draft := { settings := settings } } : Session τ).Sound declares :=
    ⟨Draft.closed_new settings, fun _ hid => nomatch hid⟩
  have hsound := (leads_run htyped hlabels lenient hnew hdraws).after
  intro id hid
  exact mem_resultsOf.mp (hsound.closed.ordered before inst rest hglobals id hid)

end Runs

/-- A pointer to a struct that is not known yet, then the struct and a value of it, and a
function with a loop in which an array is declared. -/
def arrayInLoop : Script Bool :=
  .command ⟨true, none, true⟩ (.structPointer "Light" 2) <|
  .command ⟨true, some "light", false⟩ (.registerStruct ⟨"Light", [("power", .float)]⟩) <|
  .command ⟨true, some "half", false⟩ (.floatConstant ⟨1056964608⟩) <|
  .command ⟨true, none, false⟩ (.compositeConstant (.named "light") [.named "half"]) <|
  .defineFunction ⟨false, none, false⟩ none none [.named "light"]
    (.countedLoop ⟨false, none, false⟩ 3
      (.command ⟨true, some "lights", false⟩ (.arrayType (.named "light") 4) <|
      .command ⟨false, none, false⟩ (.localVariable (.named "lights")) .done) <|
    .command ⟨false, none, false⟩ .returnVoid .done) .done

/-- The array refers to the struct and to its length, which have been declared. -/
theorem declared_before_use_arrayInLoop :
    (arrayInLoop.draftAfter {} false).globals[14]?
        = some ⟨opTypeArray, none, some ⟨26⟩, [2, 25]⟩ ∧
      ∀ id ∈ [⟨2⟩, ⟨25⟩], ∃ earlier ∈ (arrayInLoop.draftAfter {} false).globals.take 14,
        earlier.result = some id := by
  have htyped : arrayInLoop.Uses Command.IsTyped := by
    simp [arrayInLoop, Script.Uses, Command.IsTyped]
  have hlabels : arrayInLoop.LabelsDeclarations id := by
    simp [arrayInLoop, Script.LabelsDeclarations, Command.IsDeclaration]
  have hdraws : arrayInLoop.DrawsOn id false { draft := { settings := {} } } := by decide +kernel
  have harray : (arrayInLoop.draftAfter {} false).globals[14]?
      = some ⟨opTypeArray, none, some ⟨26⟩, [2, 25]⟩ := by decide +kernel
  refine ⟨harray, ?_⟩
  obtain ⟨hlength, hget⟩ := List.getElem?_eq_some_iff.mp harray
  have hsplit := (List.take_append_drop 14 (arrayInLoop.draftAfter {} false).globals).symm
  rw [List.drop_eq_getElem_cons hlength, hget] at hsplit
  exact declared_before_use htyped hlabels {} false hdraws _ _ _ hsplit

end SpirvBinary
