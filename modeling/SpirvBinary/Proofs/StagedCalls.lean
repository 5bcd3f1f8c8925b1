import SpirvBinary.Proofs.Histories

/-!
# Nested staging

Functions are staged by four calls: one opens a function, two add an instruction to the head
or the body of the innermost one, and one closes it.  Whatever calls are made, in whatever
order, the function definitions consist of what was pushed: for each function that was
closed, in the order of closing, what was pushed to its head while it was the innermost one,
and then what was pushed to its body, up to the first instruction that is too long.

## Main definitions

* `StagingCall`, `StagingCall.Made` — the calls, and that one is made.
* `stagingScheme` — what they do to the functions that are open.
* `Command.SparesDefinitions` — a command does not write to the function definitions itself.

## Main results

* `made_law` — all operations are sequences of such calls and of declarations.
* `staging_of_run` — **nested staging loses, repeats and mixes nothing.**
-/

namespace SpirvBinary

/-- A call that opens, fills or closes a function. -/
inductive StagingCall where
  | openFunction
  | pushHead (inst : Instruction)
  | pushBody (inst : Instruction)
  | closeFunction
  deriving DecidableEq, Repr, Inhabited

namespace StagingCall

/-- Carries out a call. -/
def perform : StagingCall → Build Unit
  | .openFunction => Build.openFunction
  | .pushHead inst => Build.pushHead inst
  | .pushBody inst => Build.pushBody inst
  | .closeFunction => Build.closeFunction

/-- The call is made on the draft `d`, and leaves `e` whether it succeeds or fails. -/
def Made (d : Draft) (call : StagingCall) (e : Draft) : Prop := e = after call.perform d

end StagingCall

/-- Calls do what they say. -/
def stagingScheme : Scheme StagingCall Unit where
  kind
    | .openFunction => .opening ()
    | .pushHead inst => .inner [inst] []
    | .pushBody inst => .inner [] [inst]
    | .closeFunction => .closing
  prologue _ := []
  epilogue := []

/-! ### What the calls do -/

/-- A call does to the functions that are open what `stagingScheme` says. -/
theorem StagingCall.Made.step {d e : Draft} {call : StagingCall} (h : call.Made d e) :
    stagingScheme.Step d call e := by
  rw [StagingCall.Made] at h
  subst h
  cases call with
  | openFunction => exact ⟨rfl, rfl⟩
  | pushHead inst =>
    change stagingScheme.Step d _ (after (Build.updateFunction (·.stage [inst] [])) d)
    rw [after_updateFunction]
    exact ⟨rfl, rfl⟩
  | pushBody inst =>
    change stagingScheme.Step d _ (after (Build.updateFunction (·.stage [] [inst])) d)
    rw [after_updateFunction]
    exact ⟨rfl, rfl⟩
  | closeFunction =>
    cases hopen : d.openFunctions with
    | nil =>
      have hafter : after StagingCall.closeFunction.perform d = d :=
        after_of_error (Build.closeFunction_of_closed hopen)
      rw [hafter]
      refine ⟨?_, ?_⟩
      · rw [hopen]
        rfl
      · rw [hopen, List.append_nil]
    | cons innermost outer =>
      obtain ⟨e, hwrites, houter⟩ := closeFunction_writes hopen
      have hafter : after StagingCall.closeFunction.perform d = e := hwrites.after_eq
      rw [hafter]
      refine ⟨?_, ?_⟩
      · rw [houter, hopen]
        rfl
      · -- the scheme adds nothing to a function when it is closed
        have hcut : stagingScheme.cut innermost.instructions
            = innermost.instructions.takeWhile fun inst => inst.Fits :=
          congrArg _ (List.append_nil _)
        rw [hwrites.definitions, hopen, ← hcut]

/-- Without an open function a call that needs one fails and changes nothing. -/
theorem StagingCall.perform_of_closed {call : StagingCall} (hcall : call ≠ .openFunction)
    {d : Draft} (h : d.openFunctions = []) : call.perform d = .error .noOpenFunction d := by
  cases call with
  | openFunction => exact absurd rfl hcall
  | pushHead inst => exact Build.updateFunction_of_closed h _
  | pushBody inst => exact Build.updateFunction_of_closed h _
  | closeFunction => exact Build.closeFunction_of_closed h

/-- The fault `noOpenFunction` is reported in no other case. -/
theorem StagingCall.openFunctions_eq_nil {call : StagingCall} {d e : Draft}
    (h : call.perform d = .error .noOpenFunction e) : d.openFunctions = [] := by
  cases hopen : d.openFunctions with
  | nil => rfl
  | cons innermost outer =>
    exfalso
    cases call with
    | openFunction => cases h
    | pushHead inst =>
      have hrun := Build.updateFunction_of_open hopen (·.pushHead inst)
      cases hrun.symm.trans h
    | pushBody inst =>
      have hrun := Build.updateFunction_of_open hopen (·.pushBody inst)
      cases hrun.symm.trans h
    | closeFunction =>
      obtain ⟨f, hwrites, -⟩ := closeFunction_writes hopen
      rcases Instruction.all_fit_or_first innermost.instructions with
        hfits | ⟨kept, inst, rest, heq, hkept, hinst⟩
      · cases (hwrites.ok hfits).symm.trans h
      · cases (hwrites.error kept inst rest heq hkept hinst).symm.trans h

/-! ### Runs -/

theorem StagingCall.moves (call : StagingCall) : Moves (Traced StagingCall.Made) call.perform :=
  fun _ => .of_step call rfl

/-- All operations are sequences of calls that are `Made`, and of declarations. -/
theorem made_law : Law (Traced StagingCall.Made) :=
  Law.of_pushes Traced.declarationLaw Traced.freshId (fun _ inst _ hs => Traced.emit hs inst)
    (fun _ _ => Traced.bind Traced.freshId fun id =>
      Traced.bind (Traced.emit (by decide) _) fun _ => Moves.pure Traced.refl id)
    (StagingCall.moves .openFunction) (StagingCall.moves .closeFunction)
    (fun inst => StagingCall.moves (.pushHead inst)) fun inst => StagingCall.moves (.pushBody inst)

/-- The command writes no instruction to `functionDefinitions` as it is. -/
def Command.SparesDefinitions : Command → Prop
  | .emit s _ | .emitResult s _ _ => s ≠ .functionDefinitions
  | _ => True

theorem raw_made (names : Names) {operation : Command} (hraw : operation.IsRaw)
    (h : operation.SparesDefinitions) :
    Moves (Traced StagingCall.Made) (operation.perform names) := by
  cases operation with
  | emit s template => exact made_law.answerDone (Traced.emit h _)
  | emitResult s opcode operands =>
    exact made_law.answerId (made_law.bind made_law.freshId fun id =>
      made_law.bind (Traced.emit h _) fun _ => made_law.pure id)
  | declareType opcode operands => exact made_law.answerId (Traced.declare opcode none _)
  | declareConstant opcode type operands => exact made_law.answerId (Traced.declare opcode _ _)
  | pushHead template => exact made_law.answerDone (StagingCall.moves (.pushHead _))
  | pushBody template => exact made_law.answerDone (StagingCall.moves (.pushBody _))
  | label block => exact made_law.answerDone (StagingCall.moves (.pushBody _))
  | _ => exact hraw.elim

/-- **Nested staging loses, repeats and mixes nothing.**  A run that does not write to the
function definitions itself is a sequence of calls that open, fill and close functions, and
of declarations between them.  After any such sequence, from a new draft on, the function
definitions are the encodings of what was pushed: for each call that closed a function, in
order, what was pushed to the head of this function and then what was pushed to its body,
each while it was the innermost one, up to the first instruction that is too long.  The
functions that are still open hold what was pushed to them.  Calls other than the opening of
a function report that none is open exactly when this is so, and then change nothing.  Closing
a function fails exactly when an instruction is too long, reports the first such one and
closes the function nevertheless; flushing it instead leaves it open with nothing staged. -/
theorem staging_of_run {τ : Type} {script : Script τ}
    (huses : script.Uses Command.SparesDefinitions) (settings : Settings) (lenient : Bool) :
    (∃ calls, History StagingCall.Made { settings := settings } calls
      (script.draftAfter settings lenient)) ∧
    ∀ calls d, History StagingCall.Made { settings := settings } calls d →
      d.layout.sectionWords .functionDefinitions
        = (stagingScheme.written calls).flatMap Instruction.encoding ∧
      List.Forall₂ (stagingScheme.Agrees calls) (stagingScheme.openings calls) d.openFunctions ∧
      (∀ call : StagingCall, call ≠ .openFunction →
        ((∃ e, call.perform d = .error .noOpenFunction e) ↔ stagingScheme.openings calls = []) ∧
        (stagingScheme.openings calls = [] → call.perform d = .error .noOpenFunction d)) ∧
      (∀ opened outer, stagingScheme.openings calls = opened :: outer →
        ∃ e, Writes (stagingScheme.instructions (stagingScheme.content opened calls))
            Build.closeFunction d e ∧
          e.openFunctions = d.openFunctions.tail) ∧
      ∀ innermost outer, d.openFunctions = innermost :: outer →
        ∃ e, Writes innermost.instructions Build.flushFunction d e ∧
          e.openFunctions = {} :: outer := by
  refine ⟨made_law.draftAfter (fun names _ hraw h => raw_made names hraw h) huses settings lenient,
    fun calls d history => ?_⟩
  have hreflects : stagingScheme.Reflects calls d :=
    history.reflects StagingCall.Made.step rfl rfl
  have hfunctions := hreflects.functions
  -- as many functions are open as the calls say
  have hempty : d.openFunctions = [] ↔ stagingScheme.openings calls = [] := by
    rw [← List.length_eq_zero_iff, ← hfunctions.length_eq, List.length_eq_zero_iff]
  refine ⟨?_, hfunctions, fun call hcall => ⟨⟨?_, fun h => ⟨d, ?_⟩⟩, fun h => ?_⟩, ?_,
    fun innermost outer hopen => flushFunction_writes hopen⟩
  · rw [← hreflects.definitions]
    rfl
  · rintro ⟨e, hrun⟩
    exact hempty.mp (StagingCall.openFunctions_eq_nil hrun)
  · exact StagingCall.perform_of_closed hcall (hempty.mpr h)
  · exact StagingCall.perform_of_closed hcall (hempty.mpr h)
  · intro opened outer hopened
    rw [hopened] at hfunctions
    obtain ⟨function, functions, hfunction, -, hopen⟩ := List.forall₂_cons_left_iff.mp hfunctions
    obtain ⟨e, hwrites, houter⟩ := closeFunction_writes hopen
    rw [hfunction.instructions] at hwrites
    exact ⟨e, hwrites, by rw [houter, hopen]; rfl⟩

/-- Two nested functions with pushes before, in and after the inner one, a call too many to
close them, and a function that stays open. -/
def nestedPushes : Script Unit :=
  .command ⟨(), none, true⟩ (.pushHead { opcode := Opcode.opReturn }) <|
  .command ⟨(), none, false⟩ .openFunction <|
  .command ⟨(), none, false⟩ (.pushBody { opcode := Opcode.opReturn }) <|
  .command ⟨(), none, false⟩ .openFunction <|
  .command ⟨(), none, false⟩ (.pushBody { opcode := Opcode.opFunctionEnd }) <|
  .command ⟨(), none, false⟩ .closeFunction <|
  .command ⟨(), none, false⟩ (.pushHead { opcode := Opcode.opLabel }) <|
  .command ⟨(), none, false⟩ .closeFunction <|
  .command ⟨(), none, true⟩ .closeFunction <|
  .command ⟨(), none, false⟩ .openFunction .done

theorem staging_of_run_nestedPushes :
    ∃ calls, History StagingCall.Made {} calls (nestedPushes.draftAfter {} false) ∧
      (nestedPushes.draftAfter {} false).layout.sectionWords .functionDefinitions
        = (stagingScheme.written calls).flatMap Instruction.encoding ∧
      (nestedPushes.draftAfter {} false).layout.sectionWords .functionDefinitions
        = [65592, 65784, 65789] ∧
      (stagingScheme.openings calls).length = 1 := by
  have huses : nestedPushes.Uses Command.SparesDefinitions := by
    simp [nestedPushes, Script.Uses, Command.SparesDefinitions]
  obtain ⟨⟨calls, history⟩, hall⟩ := staging_of_run huses {} false
  obtain ⟨hwords, hfunctions, -⟩ := hall calls _ history
  have hvalue : (nestedPushes.draftAfter {} false).layout.sectionWords .functionDefinitions
      = [65592, 65784, 65789] := by decide +kernel
  have hopen : (nestedPushes.draftAfter {} false).openFunctions.length = 1 := by decide +kernel
  exact ⟨calls, history, hwords, hvalue, hfunctions.length_eq.trans hopen⟩

end SpirvBinary
