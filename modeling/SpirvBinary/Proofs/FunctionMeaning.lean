import SpirvBinary.Proofs.KnownDeclarations
import SpirvBinary.Proofs.Simulation

/-!
# Functions do what their bodies mean

A machine that executes the instructions of a function gets from its first block to its
return, and performs the statements of the body just as the body means it.  The machine has to
start in a state in which the constants of the module have their values, and the statements
of the body must not write the counters of its loops.

## Main definitions

* `State.HoldsConstants` — the declared numbers have their values.

## Main results

* `executes_of_defineFunction` — **functions do what their bodies mean.**
-/

namespace SpirvBinary

open Opcode

variable {κ ω : Type}

/-! ### Constants -/

/-- Every constant that `declarations` make a signed number of 32 bits has the value of its
word. -/
def State.HoldsConstants (s : State κ ω) (declarations : List Instruction) : Prop :=
  ∀ int id word, { opcode := opTypeInt, result := some int, operands := [32, 1] } ∈ declarations →
    .typed opConstant int id [word] ∈ declarations → s.value id = .int word.toInt32

theorem Draft.Declared.int {d : Draft} {int : Id} (h : d.Declared intKey int) :
    { opcode := opTypeInt, result := some int, operands := [32, 1] }
      ∈ d.layout.instructions .globalDeclarations := by
  obtain ⟨type, operands, hkey, hkinds, hmem⟩ := h
  cases type with
  | none =>
    obtain rfl : [32, 1] = operands := hkey
    exact hmem
  | some type => exact absurd (by decide : opTypeInt ∈ typeOpcodes) hkinds

theorem Draft.Declared.intConstant {d : Draft} {int id : Id} {value : Int32}
    (h : d.Declared (intConstantKey int value) id) :
    .typed opConstant int id [intWord value] ∈ d.layout.instructions .globalDeclarations := by
  obtain ⟨type, operands, hkey, hkinds, hmem⟩ := h
  cases type with
  | none => exact absurd (by decide : opConstant ∈ constantOpcodes) hkinds
  | some type =>
    obtain ⟨hword, hoperands⟩ := List.cons.inj hkey
    obtain rfl : [intWord value] = operands := hoperands
    obtain rfl : int = type := by
      cases int
      cases type
      exact congrArg Id.mk hword
    exact hmem

/-- The constants of a loop have their values when all declared numbers have. -/
theorem LoopIds.Noted.holds {ids : LoopIds} {d : Draft} (h : ids.Noted d) (hd : d.KnownDeclared)
    {s : State κ ω} (hs : s.HoldsConstants (d.layout.instructions .globalDeclarations)) :
    ids.Holds s := by
  have hvalue : ∀ {id : Id} {value : Int32},
      d.known.type? (intConstantKey ids.int value) = some id → s.value id = .int value := by
    intro id value hid
    rw [hs ids.int id (intWord value) (hd _ _ h.int).1.int (hd _ _ hid).1.intConstant, intWord,
      Int32.toInt32_toUInt32]
  exact ⟨hvalue h.zero, hvalue h.one, hvalue h.limit⟩

namespace Flow

theorem Noted.mem {flow : Flow} {d : Draft} (h : flow.Noted d) {ids : LoopIds}
    (hids : ids ∈ flow.loops) : ids.Noted d := by
  induction flow with
  | done => cases hids
  | instruction inst next ih => exact ih h hids
  | localVariable inst next ih => exact ih h hids
  | ifThen condition onTrue merge arm next iharm ih =>
    rcases List.mem_append.mp hids with hids | hids
    · exact iharm h.1 hids
    · exact ih h.2 hids
  | ifThenElse condition onTrue onFalse merge first second next ihfirst ihsecond ih =>
    simp only [loops, List.mem_append] at hids
    rcases hids with hids | hids | hids
    · exact ihfirst h.1 hids
    · exact ihsecond h.2.1 hids
    · exact ih h.2.2 hids
  | loop ids body next ihbody ih =>
    simp only [loops, List.mem_cons, List.mem_append] at hids
    rcases hids with rfl | hids | hids
    · exact h.1
    · exact ihbody h.2.1 hids
    · exact ih h.2.2 hids

/-! ### The ids of loops -/

theorem counter_mem_head {flow : Flow} {ids : LoopIds} (hids : ids ∈ flow.loops) :
    Instruction.localVariable ids.pointer ids.counter ∈ flow.head := by
  induction flow with
  | done => cases hids
  | instruction inst next ih => exact ih hids
  | localVariable inst next ih => exact List.mem_cons_of_mem _ (ih hids)
  | ifThen condition onTrue merge arm next iharm ih =>
    simp only [loops, head, List.mem_append] at hids ⊢
    exact hids.imp iharm ih
  | ifThenElse condition onTrue onFalse merge first second next ihfirst ihsecond ih =>
    simp only [loops, head, List.mem_append] at hids ⊢
    exact hids.imp ihfirst (Or.imp ihsecond ih)
  | loop ids' body next ihbody ih =>
    simp only [loops, head, List.mem_cons, List.mem_append] at hids ⊢
    exact hids.imp (fun heq => by rw [heq]) (Or.imp ihbody ih)

/-- The results of statements and the ids of loops stand apart from each other in the
instructions of a flow. -/
theorem results_le (flow : Flow) :
    (resultsOf flow.statements : Multiset Id) + (flow.loops.flatMap LoopIds.own : Multiset Id)
      ≤ resultsOf flow.body := by
  induction flow with
  | done => exact le_rfl
  | instruction inst next ih =>
    have hcons : ∀ insts, resultsOf (inst :: insts) = resultsOf [inst] ++ resultsOf insts :=
      resultsOf_append [inst]
    simp only [statements, loops, body]
    rw [hcons next.statements, hcons next.body, ← Multiset.coe_add, ← Multiset.coe_add, add_assoc]
    exact add_le_add le_rfl ih
  | localVariable inst next ih => exact ih
  | ifThen condition onTrue merge arm next iharm ih =>
    simp only [statements, loops, body, resultsOf_append, List.flatMap_append, ← Multiset.coe_add]
    refine le_of_eq_of_le ?_ (le_trans (add_le_add iharm ih) (le_of_le_of_eq
      (Multiset.le_add_right _ (resultsOf (Instruction.selection condition onTrue merge merge)
        + resultsOf (Instruction.endArm merge merge) : Multiset Id)) ?_)) <;> abel
  | ifThenElse condition onTrue onFalse merge first second next ihfirst ihsecond ih =>
    simp only [statements, loops, body, resultsOf_append, List.flatMap_append, ← Multiset.coe_add]
    refine le_of_eq_of_le ?_ (le_trans (add_le_add ihfirst (add_le_add ihsecond ih))
      (le_of_le_of_eq (Multiset.le_add_right _
        (resultsOf (Instruction.selection condition onTrue onFalse merge)
          + (resultsOf (Instruction.endArm merge onFalse)
            + resultsOf (Instruction.endArm merge merge)) : Multiset Id)) ?_)) <;> abel
  | loop ids body next ihbody ih =>
    have hown : (ids.own : Multiset Id) ≤ resultsOf ids.opening + resultsOf ids.closing :=
      Multiset.coe_le.mpr ids.own_sublist.subperm
    simp only [statements, loops, Flow.body, resultsOf_append, List.flatMap_append,
      List.flatMap_cons, ← Multiset.coe_add]
    refine le_of_eq_of_le ?_ (le_of_le_of_eq (add_le_add hown (add_le_add ihbody ih)) ?_) <;> abel

theorem statements_subset (flow : Flow) : flow.statements ⊆ flow.body := by
  induction flow with
  | done => exact List.Subset.refl _
  | instruction inst next ih => exact List.cons_subset_cons inst ih
  | localVariable inst next ih => exact ih
  | ifThen condition onTrue merge arm next iharm ih =>
    simp only [statements, body]
    grind
  | ifThenElse condition onTrue onFalse merge first second next ihfirst ihsecond ih =>
    simp only [statements, body]
    grind
  | loop ids body next ihbody ih =>
    simp only [statements, Flow.body]
    grind

/-- The ids of loops are different, and are not results of statements. -/
theorem own_nodup {flow : Flow} (h : (resultsOf flow.body).Nodup) {ids : LoopIds}
    (hids : ids ∈ flow.loops) :
    ids.own.Nodup ∧ ∀ id ∈ ids.own, id ∉ resultsOf flow.statements := by
  have hnodup : (resultsOf flow.statements ++ flow.loops.flatMap LoopIds.own).Nodup := by
    have hle := flow.results_le
    rw [Multiset.coe_add] at hle
    exact Multiset.coe_nodup.mp (Multiset.nodup_of_le hle (Multiset.coe_nodup.mpr h))
  obtain ⟨-, hown, hapart⟩ := List.nodup_append.mp hnodup
  refine ⟨(List.nodup_flatMap.mp hown).1 ids hids, fun id hid hmem => ?_⟩
  exact hapart id hmem id (List.mem_flatMap.mpr ⟨ids, hids, hid⟩) rfl

end Flow

/-! ### Functions -/

/-- An instruction by which a loop counts is not among `statements`, when these keep the
counter. -/
theorem LoopIds.counting_not_mem {ids : LoopIds} {m : Machine κ ω} {statements : List Instruction}
    (hown : ∀ id ∈ ids.own, id ∉ resultsOf statements) (hcounter : m.isVariable ids.counter)
    (hkeeps : ∀ inst ∈ statements, ∀ s : State κ ω,
      (m.execute inst s).cell ids.counter = s.cell ids.counter) (world : ω) :
    ∀ inst ∈ ids.counting, inst ∉ statements := by
  have hresult : ∀ inst id, inst.result = some id → id ∈ ids.own → inst ∉ statements :=
    fun inst id hinst hid hmem => hown id hid (mem_resultsOf.mpr ⟨inst, hmem, hinst⟩)
  -- a write of another value changes the counter
  have hstore : ∀ value, Instruction.store ids.counter value ∉ statements := by
    intro value hmem
    have hcell := hkeeps _ hmem ⟨fun _ => .flag true, fun _ => .flag false, world⟩
    rw [Machine.execute_store hcounter, State.cell_write_self] at hcell
    cases hcell
  intro inst hinst
  simp only [counting, List.mem_cons, List.not_mem_nil, or_false] at hinst
  rcases hinst with rfl | rfl | rfl | rfl | rfl | rfl
  · exact hstore _
  · exact hresult _ ids.index rfl (by simp [own])
  · exact hresult _ ids.inRange rfl (by simp [own])
  · exact hresult _ ids.current rfl (by simp [own])
  · exact hresult _ ids.next rfl (by simp [own])
  · exact hstore _

/-- The instructions of a function with the given `flow` and the instruction `last` at its end. -/
def FunctionDef.code (function : FunctionDef) (flow : Flow) (last : Instruction) :
    List Instruction :=
  function.prologue ++ .label function.entry :: flow.head ++ flow.body ++ [last, .functionEnd]

theorem FunctionDef.code_eq (function : FunctionDef) (flow : Flow) (last : Instruction) :
    function.code flow last = function.prologue ++ (.label function.entry :: (flow.head ++ flow.body
      ++ [last]) ++ [.functionEnd]) := by
  simp only [code, List.append_assoc, List.cons_append, List.nil_append]

theorem FunctionDef.prologue_ne_label (function : FunctionDef) :
    ∀ inst ∈ function.prologue, inst.opcode ≠ opLabel := by
  intro inst hinst
  rcases List.mem_cons.mp hinst with rfl | hinst
  · exact (by decide : opFunction ≠ opLabel)
  · obtain ⟨param, -, rfl⟩ := List.mem_map.mp hinst
    exact (by decide : opFunctionParameter ≠ opLabel)

namespace FunctionRun

variable {τ : Type} {name : Option String} {returnType : Option Id} {paramTypes : List Id}
  {body : Script τ} {ending : Command} {function : FunctionDef} {flow : Flow}
  {s opened closed t : Session τ}

theorem loop_noted (run : FunctionRun name returnType paramTypes body ending function flow s opened
    closed t) {ids : LoopIds} (hids : ids ∈ flow.loops) : ids.Noted t.draft := by
  have h := run.noted.mem hids
  constructor
  all_goals rw [run.known]
  exacts [h.int, h.zero, h.one, h.limit]

/-- A machine for a function that watches its statements `Hosts` the flow of the function. -/
theorem hosts (run : FunctionRun name returnType paramTypes body ending function flow s opened
    closed t) (hbody : body.IsBody) (hs : s.draft.KnownDeclared)
    (hcount : t.draft.ids.count < 4294967296) {m : Machine κ ω}
    (hcode : m.code = function.code flow (ending.returnInstruction closed.names))
    (hwatched : m.watched = flow.statements) (world : ω)
    (hkeeps : ∀ inst ∈ flow.statements, ∀ ids ∈ flow.loops, ∀ state : State κ ω,
      (m.execute inst state).cell ids.counter = state.cell ids.counter) : m.Hosts flow := by
  have hplain := run.resolves.plain hbody
  obtain ⟨-, hresults, -⟩ := run.parts_nodup hbody hcount
  have hcounters : ∀ ids ∈ flow.loops, m.isVariable ids.counter := by
    intro ids hids
    refine List.any_eq_true.mpr ⟨.localVariable ids.pointer ids.counter, ?_, ?_⟩
    · have hmem := Flow.counter_mem_head hids
      rw [hcode, FunctionDef.code]
      simp only [List.mem_append, List.mem_cons]
      grind
    · simp [Instruction.localVariable, Instruction.typed]
  refine ⟨?_, fun inst hinst => ⟨(hplain.statements inst hinst).1, hwatched ▸ hinst⟩, ?_,
    fun ids hids => ?_, hcounters, fun ids hids => ?_, ?_⟩
  · -- there are no labels outside of the blocks
    have hprologue : labelsOf function.prologue = [] :=
      List.filterMap_eq_nil_iff.mpr fun inst hinst =>
        if_neg (function.prologue_ne_label inst hinst)
    have hend : labelsOf [Instruction.functionEnd] = [] := rfl
    rw [hcode, function.code_eq, labelsOf_append, labelsOf_append, hprologue, hend,
      List.nil_append, List.append_nil]
    exact run.labels_nodup hbody hcount
  · intro inst hinst pointer hpointer state
    obtain ⟨ids, hids, rfl⟩ := List.mem_map.mp hpointer
    exact hkeeps inst hinst ids hids state
  · rw [hwatched]
    exact ids.counting_not_mem (Flow.own_nodup hresults hids).2 (hcounters ids hids)
      (fun inst hinst => hkeeps inst hinst ids hids) world
  · have hne := (List.nodup_cons.mp (Flow.own_nodup hresults hids).1).1
    exact fun heq => hne (by rw [heq]; exact List.mem_cons_self)
  · -- constants have been declared, so the flow does not give them values
    intro ids hids id hid hmem
    have hnoted := run.loop_noted hids
    have hknown : ∀ key, t.draft.known.type? key = some id → False := fun key hkey =>
      run.known_not_mem hbody hs hcount hkey (by
        rw [resultsOf_append]
        exact List.mem_append_right _ hmem)
    simp only [LoopIds.constants, List.mem_cons, List.not_mem_nil, or_false] at hid
    rcases hid with rfl | rfl | rfl
    · exact hknown _ hnoted.zero
    · exact hknown _ hnoted.one
    · exact hknown _ hnoted.limit

/-- A machine passes over the `head` of a flow, the variables of a function. -/
theorem head_reaches (run : FunctionRun name returnType paramTypes body ending function flow s
    opened closed t) (hbody : body.IsBody) (hcount : t.draft.ids.count < 4294967296)
    {m : Machine κ ω} (hwatched : m.watched = flow.statements) (rest : List Instruction)
    (p : Progress κ ω) : m.Reaches ⟨flow.head ++ rest, p⟩ ⟨rest, p⟩ := by
  have hplain := run.resolves.plain hbody
  obtain ⟨-, -, hapart⟩ := run.parts_nodup hbody hcount
  -- a variable has another result than every statement
  have hnot : ∀ inst ∈ flow.head, inst ∉ m.watched := by
    intro inst hinst hmem
    obtain ⟨pointer, id, rfl⟩ := hplain.head inst hinst
    rw [hwatched] at hmem
    have hhead : id ∈ resultsOf flow.head := mem_resultsOf.mpr ⟨_, hinst, rfl⟩
    exact hapart id hhead (mem_resultsOf.mpr ⟨_, flow.statements_subset hmem, rfl⟩)
  have hpass : ∀ insts : List Instruction, insts ⊆ flow.head →
      m.Reaches ⟨insts ++ rest, p⟩ ⟨rest, p⟩ := by
    intro insts
    induction insts with
    | nil => exact fun _ => .refl
    | cons inst insts ih =>
      intro hsubset
      obtain ⟨hinst, hinsts⟩ := List.cons_subset.mp hsubset
      obtain ⟨pointer, id, rfl⟩ := hplain.head inst hinst
      refine .silent (by decide : opVariable ∉ structural) (hnot _ hinst) ?_
      rw [m.execute_localVariable]
      exact ih hinsts
  exact hpass flow.head (List.Subset.refl _)

end FunctionRun

/-- A machine starts behind the entry label of its function. -/
theorem Machine.start_code {m : Machine κ ω} {function : FunctionDef} {flow : Flow}
    {last : Instruction} (hcode : m.code = function.code flow last) (s : State κ ω) :
    m.start s = ⟨flow.head ++ (flow.body ++ [last, .functionEnd]), ⟨s, []⟩⟩ := by
  have hdrop : m.code.dropWhile (fun inst => inst.opcode ≠ opLabel)
      = .label function.entry :: (flow.head ++ (flow.body ++ [last, .functionEnd])) := by
    rw [hcode, FunctionDef.code, List.append_assoc, List.append_assoc,
      List.dropWhile_append_of_pos fun inst hinst => by
        simpa using function.prologue_ne_label inst hinst]
    rfl
  rw [start, hdrop, List.tail_cons]

/-- **Functions do what their bodies mean.** Let a function be defined by a body of statements
that ends with a return, after any run in which types and constants are not mixed up.  Then
the definition succeeds, and a flow of the body stands in the code that is added to the
function definitions.  A machine for that code gets from its first block to the return.  The
statements it performs on the way, and the states in which it performs them, are those of the
meaning of the flow, provided that the ids have not run out, that the machine starts with the
declared numbers in place, and that no statement writes the counter of a loop. -/
theorem executes_of_defineFunction {τ : Type} (settings : Settings) (earlier : Script τ)
    (hearlier : earlier.Uses Command.KeepsKinds) (lenient : Bool) (s : Session τ)
    (hs : after (earlier.run lenient) { draft := { settings := settings } } = s)
    (body : Script τ) (hbody : body.IsBody) (ending : Command) (hending : ending.IsReturn)
    (mark : Mark τ) (bound name : Option String) (returnType : Option Id) (paramTypes : List Id)
    (hname : ∀ text, name = some text → (textWords text).length ≤ 65533)
    (hparams : paramTypes.length ≤ 65532)
    (hdecl : body.DeclarationsSucceed
      (after (Run.enterFunction bound name returnType paramTypes) s)) :
    ∃ function t, (Build.defineFunction name returnType paramTypes fun function => do
        Run.bindParams bound function
        (body.append (.command mark ending .done)).run false : Run τ FunctionDef) s
          = .ok function t ∧
      ∃ flow names,
        body.Resolves (after (Run.enterFunction bound name returnType paramTypes) s).names flow
          names ∧
        t.draft.layout.instructions .functionDefinitions
          = s.draft.layout.instructions .functionDefinitions
            ++ function.code flow (ending.returnInstruction names) ∧
        (t.draft.ids.count < 4294967296 → ∀ (m : Machine κ ω) (initial : State κ ω),
          m.code = function.code flow (ending.returnInstruction names) →
          m.watched = flow.statements →
          initial.HoldsConstants (t.draft.layout.instructions .globalDeclarations) →
          (∀ inst ∈ flow.statements, ∀ ids ∈ flow.loops, ∀ state : State κ ω,
            (m.execute inst state).cell ids.counter = state.cell ids.counter) →
          ∃ q, m.Reaches (m.start initial)
              ⟨[ending.returnInstruction names, .functionEnd], q⟩ ∧
            flow.Executes m ⟨initial, []⟩ q) := by
  obtain ⟨function, t, hrun, flow, closed, run⟩ :=
    defineFunction_writes s hbody hending mark bound returnType hname hparams hdecl
  have hdeclared : s.draft.KnownDeclared := by
    rw [← hs]
    exact knownDeclared_draftAfter hearlier settings lenient
  refine ⟨function, t, hrun, flow, closed.names, run.resolves, run.functionDefinitions,
    fun hcount m initial hcode hwatched hconstants hkeeps => ?_⟩
  have hosts := run.hosts hbody hdeclared hcount hcode hwatched initial.world hkeeps
  obtain ⟨hhead, -, -⟩ := run.parts_nodup hbody hcount
  have hholds : ∀ ids ∈ flow.loops, ids.Holds initial := fun ids hids =>
    (run.loop_noted hids).holds (run.knownDeclared hbody hdeclared) hconstants
  have hsuffix : flow.body ++ [ending.returnInstruction closed.names, .functionEnd] <:+ m.code := by
    rw [hcode, FunctionDef.code, List.append_assoc]
    exact List.suffix_append _ _
  obtain ⟨q, hreaches, hexecutes⟩ := hosts.simulates (p := ⟨initial, []⟩)
    ⟨List.Subset.refl _, List.Subset.refl _, List.Subset.refl _⟩ hhead hsuffix hholds
  refine ⟨q, ?_, hexecutes⟩
  rw [Machine.start_code hcode]
  exact (run.head_reaches hbody hcount hwatched _ _).trans hreaches

/-- A choice inside two loops, one in the other. -/
def choiceInLoops : Script Unit :=
  .command ⟨(), some "bool", false⟩ .boolType
    (.countedLoop ⟨(), some "i", false⟩ 2
      (.countedLoop ⟨(), some "j", false⟩ 3
        (.command ⟨(), some "c", false⟩
          (.emitBody opSLessThan (.named "bool") (.append (.id (.named "j")) (.id (.named "i"))))
          (.ifThen ⟨(), none, false⟩ (.named "c")
            (.command ⟨(), none, false⟩ (.emitBody ⟨83⟩ (.named "bool") (.id (.named "c"))) .done)
            .done))
        .done)
      .done)

/-- A machine that counts how often it meets an instruction without a fixed meaning. -/
def tally (code watched : List Instruction) : Machine Unit Nat where
  code := code
  meaning := ⟨fun _ _ => .other (), fun _ s => s.cell, fun _ s => s.world + 1⟩
  watched := watched

/-- A state with the constants of `choiceInLoops`. -/
def tallyStart : State Unit Nat where
  value id :=
    .int (if id.word = 7 then 0 else if id.word = 8 then 1 else if id.word = 9 then 2 else 3)
  cell _ := .other ()
  world := 0

theorem executes_of_defineFunction_choiceInLoops :
    ∃ function t flow names, (Build.defineFunction none none [] fun function => do
        Run.bindParams none function
        (choiceInLoops.append (.command ⟨(), none, false⟩ .returnVoid .done)).run false
          : Run Unit FunctionDef) {} = .ok function t ∧
      choiceInLoops.Resolves (after (Run.enterFunction none none none []) ({} : Session Unit)).names
        flow names ∧
      t.draft.ids.count = 35 ∧
      tallyStart.HoldsConstants (t.draft.layout.instructions .globalDeclarations) ∧
      let m := tally (function.code flow { opcode := opReturn }) flow.statements
      ∃ q, m.Reaches (m.start tallyStart) ⟨[{ opcode := opReturn }, .functionEnd], q⟩ ∧
        flow.Executes m ⟨tallyStart, []⟩ q := by
  have hbody : choiceInLoops.IsBody := by
    refine ⟨trivial, ⟨⟨⟨by decide, fun names => ?_⟩, ⟨⟨by decide, fun names => ?_⟩, trivial⟩,
      trivial⟩, trivial⟩, trivial⟩
    · simp [Operand.words]
    · simp [Operand.words]
  have hdecl : ∀ s : Session Unit, choiceInLoops.DeclarationsSucceed s := by
    intro s
    refine ⟨fun _ => ?_, ⟨⟨⟨fun h => h.elim, ⟨fun h => h.elim, trivial⟩, trivial⟩, trivial⟩,
      trivial⟩⟩
    obtain ⟨id, d, hrun, -⟩ := boolType_succeeds s.draft
    exact ⟨.id id, d, bind_of_ok hrun⟩
  obtain ⟨function, t, hrun, flow, names, hresolves, -, hexecutes⟩ :=
    executes_of_defineFunction (κ := Unit) (ω := Nat) {} .done trivial false {} rfl choiceInLoops
      hbody .returnVoid trivial ⟨(), none, false⟩ none none none [] (by simp) (by simp) (hdecl _)
  have hcount : (after (Build.defineFunction none none [] fun function => do
        Run.bindParams none function
        (choiceInLoops.append (.command ⟨(), none, false⟩ .returnVoid .done)).run false
          : Run Unit FunctionDef) {}).draft.ids.count = 35 := by
    decide +kernel
  have hdeclarations : (after (Build.defineFunction none none [] fun function => do
        Run.bindParams none function
        (choiceInLoops.append (.command ⟨(), none, false⟩ .returnVoid .done)).run false
          : Run Unit FunctionDef) {}).draft.layout.instructions .globalDeclarations
        = [⟨opTypeVoid, none, some ⟨1⟩, []⟩, ⟨opTypeFunction, none, some ⟨2⟩, [1]⟩,
          ⟨opTypeBool, none, some ⟨5⟩, []⟩, ⟨opTypeInt, none, some ⟨6⟩, [32, 1]⟩,
          ⟨opConstant, some ⟨6⟩, some ⟨7⟩, [0]⟩, ⟨opConstant, some ⟨6⟩, some ⟨8⟩, [1]⟩,
          ⟨opConstant, some ⟨6⟩, some ⟨9⟩, [2]⟩, ⟨opTypePointer, none, some ⟨10⟩, [7, 6]⟩,
          ⟨opConstant, some ⟨6⟩, some ⟨19⟩, [3]⟩] := by
    decide +kernel
  rw [after_of_ok hrun] at hcount hdeclarations
  have hconstants : tallyStart.HoldsConstants
      (t.draft.layout.instructions .globalDeclarations) := by
    rw [hdeclarations]
    intro int id word _ hmem
    have hcases : int = ⟨6⟩ ∧ id = ⟨7⟩ ∧ word = 0 ∨ int = ⟨6⟩ ∧ id = ⟨8⟩ ∧ word = 1 ∨
        int = ⟨6⟩ ∧ id = ⟨9⟩ ∧ word = 2 ∨ int = ⟨6⟩ ∧ id = ⟨19⟩ ∧ word = 3 := by
      simpa [Instruction.typed, opConstant, opTypeVoid, opTypeFunction, opTypeBool, opTypeInt,
        opTypePointer] using hmem
    rcases hcases with ⟨-, rfl, rfl⟩ | ⟨-, rfl, rfl⟩ | ⟨-, rfl, rfl⟩ | ⟨-, rfl, rfl⟩ <;> rfl
  refine ⟨function, t, flow, names, hrun, hresolves, hcount, hconstants, ?_⟩
  refine hexecutes (by omega) _ tallyStart rfl rfl hconstants ?_
  intro inst hinst ids _ state
  -- the statements are a comparison and a copy
  have hstatement : inst.opcode = opSLessThan ∨ inst.opcode = ⟨83⟩ := by
    obtain ⟨_, _, rfl, ids, inner, rest, _, rfl, -, hinner, rfl, -⟩ := hresolves
    obtain ⟨ids', inner', rest', _, rfl, -, hinner', rfl, -⟩ := hinner
    obtain ⟨_, _, ⟨_, -, rfl⟩, _, _, arm, _, _, rfl, harm, rfl, -⟩ := hinner'
    obtain ⟨_, _, ⟨_, -, rfl⟩, rfl, -⟩ := harm
    simp only [Flow.statements, List.mem_append, List.mem_cons, List.not_mem_nil, or_false] at hinst
    rcases hinst with rfl | rfl
    · exact Or.inl rfl
    · exact Or.inr rfl
  have hop : inst.opcode ≠ opStore := by
    rcases hstatement with hop | hop <;> rw [hop] <;> decide
  rw [Machine.cell_execute _ hop rfl]

end SpirvBinary
