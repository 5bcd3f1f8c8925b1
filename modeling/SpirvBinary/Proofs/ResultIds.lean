import Mathlib.Algebra.Order.Group.Multiset
import SpirvBinary.Proofs.Runs

/-!
# Result ids

Operations take the ids of their results from the supply, and use each of them for at
most one result.  Some ids are handed out well before they are used: the label of a merge
block is reserved before the arms of a selection are built, and used after them.  So the
invariant that runs keep speaks of the numbers handed out since an earlier draft, of
those that results were given, and of those that are held back.

## Main definitions

* `Draft.resultIds` — the results of all instructions, written or staged.
* `Places` — results are added, and no id is handed out.
* `Grows` — all results added since a draft have numbers of their own.
* `Command.TakesNoResult` — the command is not given the id of a result.

## Main results

* `grows_law` — every operation gives its results numbers of their own.
* `resultIds_of_run` — **results are unique and below the bound, after any run.**
-/

namespace SpirvBinary

open Opcode

/-- The results of the instructions that have been written to the `layout`. -/
def Layout.resultIds (layout : Layout) : List Id :=
  layout.entries.filterMap fun entry => entry.2.result

/-- The results of the instructions that are staged in the `function`. -/
def StagedFunction.resultIds (function : StagedFunction) : List Id :=
  function.instructions.filterMap Instruction.result

/-- The results of all instructions of the draft `d`, written to a section or staged in an open
function. -/
def Draft.resultIds (d : Draft) : List Id :=
  d.layout.resultIds ++ d.openFunctions.flatMap StagedFunction.resultIds

/-! ### Adding results without handing out ids -/

/-- From the draft `d` to the draft `d'` no id is handed out, and at most the results `ids` are
added. -/
structure Places (ids : List Id) (d d' : Draft) : Prop where
  count : d'.ids.count = d.ids.count
  results : (d'.resultIds : Multiset Id) ≤ d.resultIds + (ids : Multiset Id)

theorem Places.of_eq {d d' : Draft} (hcount : d'.ids.count = d.ids.count)
    (hlayout : d'.layout = d.layout) (hopen : d'.openFunctions = d.openFunctions) :
    Places [] d d' := by
  refine ⟨hcount, ?_⟩
  rw [Draft.resultIds, Draft.resultIds, hlayout, hopen]
  exact Multiset.le_add_right _ _

theorem Places.trans {ids ids' : List Id} {d e f : Draft} (hde : Places ids d e)
    (hef : Places ids' e f) : Places (ids ++ ids') d f := by
  refine ⟨hef.count.trans hde.count, ?_⟩
  calc (f.resultIds : Multiset Id)
      ≤ e.resultIds + (ids' : Multiset Id) := hef.results
    _ ≤ d.resultIds + (ids : Multiset Id) + (ids' : Multiset Id) :=
        add_le_add_left hde.results _
    _ = d.resultIds + ((ids ++ ids' : List Id) : Multiset Id) := by
        rw [← Multiset.coe_add, add_assoc]

/-- Fewer results are at most as many. -/
theorem Places.of_nil {d d' : Draft} (h : Places [] d d') (ids : List Id) : Places ids d d' :=
  ⟨h.count, h.results.trans (add_le_add_right (Multiset.zero_le _) _)⟩

theorem Layout.resultIds_add (layout : Layout) (s : Section) {inst : Instruction}
    (h : inst.Fits) :
    (layout.add s inst h).resultIds
      = layout.resultIds ++ inst.result.toList := by
  simp only [resultIds, entries_add, List.filterMap_append, List.filterMap_cons,
    List.filterMap_nil]
  cases inst.result <;> rfl

theorem emit_places (s : Section) (inst : Instruction) :
    Moves (Places inst.result.toList) (Build.emit s inst) := by
  intro d
  by_cases h : inst.Fits
  · rw [after_of_ok (Build.emit_of_fits h s d)]
    refine ⟨rfl, le_of_eq ?_⟩
    simp only [Draft.resultIds, Layout.resultIds_add, ← Multiset.coe_add]
    rw [add_right_comm]
  · rw [after_of_error (Build.emit_of_not_fits h s d)]
    exact (Places.of_eq rfl rfl rfl).of_nil _

/-- Staging by `f` adds the results `ids` when `f` does. -/
theorem updateFunction_places {ids : List Id} {f : StagedFunction → StagedFunction}
    (hf : ∀ function, ((f function).resultIds : Multiset Id)
      = (function.resultIds : Multiset Id) + (ids : Multiset Id)) :
    Moves (Places ids) (Build.updateFunction f) := by
  intro d
  cases h : d.openFunctions with
  | nil =>
    rw [after_of_error (Build.updateFunction_of_closed h f)]
    exact (Places.of_eq rfl rfl rfl).of_nil _
  | cons innermost outer =>
    rw [after_of_ok (Build.updateFunction_of_open h f)]
    refine ⟨rfl, le_of_eq ?_⟩
    simp only [Draft.resultIds, h, List.flatMap_cons, ← Multiset.coe_add, hf]
    rw [add_right_comm (innermost.resultIds : Multiset Id), ← add_assoc]

theorem pushHead_places (inst : Instruction) :
    Moves (Places inst.result.toList) (Build.pushHead inst) := by
  refine updateFunction_places fun function => ?_
  simp only [StagedFunction.resultIds, StagedFunction.instructions, StagedFunction.head_pushHead,
    StagedFunction.body_pushHead, List.filterMap_append, ← Multiset.coe_add]
  rw [add_right_comm]
  cases hresult : inst.result <;> simp [hresult]

theorem pushBody_places (inst : Instruction) :
    Moves (Places inst.result.toList) (Build.pushBody inst) := by
  refine updateFunction_places fun function => ?_
  simp only [StagedFunction.resultIds, StagedFunction.instructions, StagedFunction.head_pushBody,
    StagedFunction.body_pushBody, List.filterMap_append, ← Multiset.coe_add]
  rw [← add_assoc]
  cases hresult : inst.result <;> simp [hresult]

theorem emitAll_places (s : Section) (insts : List Instruction) :
    Moves (Places (insts.filterMap Instruction.result)) (Build.emitAll s insts) := by
  induction insts with
  | nil => exact fun d => Places.of_eq rfl rfl rfl
  | cons inst rest ih =>
    have hids : (inst :: rest).filterMap Instruction.result
        = inst.result.toList ++ rest.filterMap Instruction.result := by
      rw [List.filterMap_cons]
      cases inst.result <;> rfl
    intro d
    rw [hids]
    have hde := emit_places s inst d
    cases h : Build.emit s inst d with
    | ok u e =>
      rw [Build.emitAll, after_bind_of_ok h]
      rw [after_of_ok h] at hde
      exact hde.trans (ih e)
    | error fault e =>
      -- what comes after an instruction that does not fit is dropped
      rw [Build.emitAll, after_bind_of_error h]
      rw [after_of_error h] at hde
      exact hde.trans ((Places.of_eq rfl rfl rfl).of_nil _)

/-- Closing a function moves results from the staged instructions to the written ones. -/
theorem closeFunction_places : Moves (Places []) Build.closeFunction := by
  intro d
  cases h : d.openFunctions with
  | nil =>
    rw [after_of_error (Build.closeFunction_of_closed h)]
    exact Places.of_eq rfl rfl rfl
  | cons innermost outer =>
    rw [after, Build.closeFunction_of_open h, ← after]
    have hwrite := emitAll_places .functionDefinitions innermost.instructions
      { d with
        openFunctions := outer
        journal := .functionWritten innermost.newestHead.length innermost.newestBody.length
          :: d.journal }
    refine ⟨hwrite.count, hwrite.results.trans (le_of_eq ?_)⟩
    simp only [Draft.resultIds, h, List.flatMap_cons, ← Multiset.coe_add,
      StagedFunction.resultIds, Multiset.coe_nil, add_zero]
    rw [add_assoc]
    exact congrArg _ (add_comm _ _)

theorem openFunction_places : Moves (Places []) Build.openFunction :=
  fun _ => ⟨rfl, Multiset.le_add_right _ _⟩

/-! ### Numbers of results -/

/-- Since the draft `d`, results have been added to `d'` under different numbers that were handed
out since.  The numbers `held` were handed out since, too, and belong to no result yet. -/
structure Grows (held : List Nat) (d d' : Draft) : Prop where
  count : d.ids.count ≤ d'.ids.count
  range : ∀ n ∈ held, d.ids.count < n ∧ n ≤ d'.ids.count
  numbers : ∃ numbers : List Nat,
    (d'.resultIds : Multiset Id) ≤ d.resultIds + (numbers.map Id.ofNat : Multiset Id) ∧
      numbers.Nodup ∧ ∀ n ∈ numbers, (d.ids.count < n ∧ n ≤ d'.ids.count) ∧ n ∉ held

namespace Grows

variable {held held' : List Nat} {d e f : Draft}

theorem refl (d : Draft) : Grows [] d d :=
  ⟨le_rfl, by simp, [], Multiset.le_add_right _ _, List.nodup_nil, by simp⟩

/-- What happens in a gap, from `e` to `f`, takes its numbers from those handed out in the gap, so
it leaves those in `held` alone. -/
theorem gap (hde : Grows held d e) (hef : Grows [] e f) : Grows held d f := by
  obtain ⟨numbers, hle, hnodup, hnumbers⟩ := hde.numbers
  obtain ⟨numbers', hle', hnodup', hnumbers'⟩ := hef.numbers
  refine ⟨hde.count.trans hef.count, fun n hn => ?_, numbers ++ numbers', ?_, ?_, ?_⟩
  · exact ⟨(hde.range n hn).1, (hde.range n hn).2.trans hef.count⟩
  · calc (f.resultIds : Multiset Id)
        ≤ e.resultIds + (numbers'.map Id.ofNat : Multiset Id) := hle'
      _ ≤ d.resultIds + (numbers.map Id.ofNat : Multiset Id)
            + (numbers'.map Id.ofNat : Multiset Id) := add_le_add_left hle _
      _ = d.resultIds + ((numbers ++ numbers').map Id.ofNat : Multiset Id) := by
          rw [List.map_append, ← Multiset.coe_add, add_assoc]
  · refine hnodup.append hnodup' fun n hn hn' => ?_
    have h1 := (hnumbers n hn).1.2
    have h2 := (hnumbers' n hn').1.1
    omega
  · intro n hn
    rcases List.mem_append.mp hn with h | h
    · exact ⟨⟨(hnumbers n h).1.1, (hnumbers n h).1.2.trans hef.count⟩, (hnumbers n h).2⟩
    · have hrange := (hnumbers' n h).1
      refine ⟨⟨hde.count.trans_lt hrange.1, hrange.2⟩, fun hheld => ?_⟩
      have := (hde.range n hheld).2
      omega

/-- A number that is handed out is held. -/
theorem fresh (h : Grows held d e) :
    Grows ((e.ids.count + 1) :: held) d { e with ids := e.ids.advance } := by
  obtain ⟨numbers, hle, hnodup, hnumbers⟩ := h.numbers
  have hcount := h.count
  refine ⟨?_, ?_, numbers, hle, hnodup, ?_⟩
  · rw [IdSupply.count_advance]
    omega
  · intro n hn
    rw [IdSupply.count_advance]
    rcases List.mem_cons.mp hn with rfl | hn
    · omega
    · have := h.range n hn
      omega
  · intro n hn
    have hrange := (hnumbers n hn).1
    rw [IdSupply.count_advance, List.mem_cons]
    refine ⟨by omega, ?_⟩
    rintro (rfl | hheld)
    · omega
    · exact (hnumbers n hn).2 hheld

/-- A number `n` in `held` is given to a result, and is no longer in `held'`. -/
theorem place {n : Nat} (h : Grows held d e) (hplaces : Places [Id.ofNat n] e f)
    (hn : n ∈ held) (hheld : ∀ m ∈ held', m ∈ held ∧ m ≠ n) : Grows held' d f := by
  obtain ⟨numbers, hle, hnodup, hnumbers⟩ := h.numbers
  have hcount := hplaces.count
  refine ⟨by have := h.count; omega, fun m hm => ?_, n :: numbers, ?_, ?_, ?_⟩
  · have := h.range m (hheld m hm).1
    omega
  · calc (f.resultIds : Multiset Id)
        ≤ e.resultIds + ([Id.ofNat n] : Multiset Id) := hplaces.results
      _ ≤ d.resultIds + (numbers.map Id.ofNat : Multiset Id) + ([Id.ofNat n] : Multiset Id) :=
          add_le_add_left hle _
      _ = d.resultIds + ((n :: numbers).map Id.ofNat : Multiset Id) := by
          rw [add_assoc, Multiset.coe_add, List.map_cons]
          exact congrArg _ (Multiset.coe_eq_coe.mpr (List.perm_append_singleton _ _))
  · exact List.nodup_cons.mpr ⟨fun hmem => (hnumbers n hmem).2 hn, hnodup⟩
  · intro m hm
    rw [hcount]
    rcases List.mem_cons.mp hm with rfl | hm
    · exact ⟨h.range m hn, fun hmem => (hheld m hmem).2 rfl⟩
    · exact ⟨(hnumbers m hm).1, fun hmem => (hnumbers m hm).2 (hheld m hmem).1⟩

theorem of_places (h : Places [] d e) : Grows [] d e :=
  ⟨h.count.ge, by simp, [], h.results, List.nodup_nil, by simp⟩

/-- What is held may be given up. -/
theorem drop (h : Grows held d e) : Grows [] d e := by
  obtain ⟨numbers, hle, hnodup, hnumbers⟩ := h.numbers
  exact ⟨h.count, by simp, numbers, hle, hnodup, fun n hn => ⟨(hnumbers n hn).1, by simp⟩⟩

theorem trans (hde : Grows [] d e) (hef : Grows [] e f) : Grows [] d f := hde.gap hef

theorem bind {α β : Type} {x : Build α} {k : α → Build β} (hx : Moves (Grows []) x)
    (hk : ∀ a, Moves (Grows []) (k a)) : Moves (Grows []) (x >>= k) :=
  Moves.bind (R := Grows []) (fun _ _ _ => trans) hx hk

end Grows

/-! ### Operations and numbers -/

section

variable {held held' : List Nat} {d e : Draft} {α : Type}

/-- A fresh id that `place` gives to one result is used up, whatever the `rest` is. -/
theorem freshId_bind_grows {place : Id → Build Unit} {rest : Id → Build α}
    (hplace : ∀ id, Moves (Places [id]) (place id)) (hrest : ∀ id, Moves (Grows []) (rest id)) :
    Moves (Grows []) (Build.freshId >>= fun id => place id >>= fun _ => rest id) := by
  intro d
  rw [after_bind_of_ok (Build.freshId_run d)]
  have hfresh := (Grows.refl d).fresh
  have hplaced := hplace d.ids.next { d with ids := d.ids.advance }
  have hused : Grows [] d (after (place d.ids.next) { d with ids := d.ids.advance }) :=
    hfresh.place hplaced List.mem_cons_self (by simp)
  cases h : place d.ids.next { d with ids := d.ids.advance } with
  | ok u e =>
    rw [after_bind_of_ok h]
    rw [after_of_ok h] at hused
    exact hused.trans (hrest d.ids.next e)
  | error fault e =>
    rw [after_bind_of_error h]
    rwa [after_of_error h] at hused

theorem Places.moves_grows {x : Build α} (h : Moves (Places []) x) : Moves (Grows []) x :=
  fun d => Grows.of_places (h d)

/-- What a computation `x` does in a gap keeps the numbers `held`. -/
theorem leads_gap {x : Build α} (hx : Moves (Grows []) x) (h : Grows held d e) :
    Leads x e (fun _ f => Grows held d f) (Grows [] d) :=
  (Leads.of_moves hx).mono (fun _ _ => h.gap) fun _ hf => h.drop.gap hf

/-- A block that starts with the number `n` of `held` uses it up. -/
theorem leads_label {n : Nat} (held' : List Nat) (h : Grows held d e) (hn : n ∈ held)
    (hheld : ∀ m ∈ held', m ∈ held ∧ m ≠ n) :
    Leads (Build.label (Id.ofNat n)) e (fun _ f => Grows held' d f) (Grows [] d) :=
  (Leads.of_moves (pushBody_places _)).mono (fun _ _ hf => h.place hf hn hheld)
    fun _ hf => h.place hf hn (by simp)

end

/-! ### The law -/

theorem pushBody_grows {inst : Instruction} (h : inst.result = none) :
    Moves (Grows []) (Build.pushBody inst) := by
  have hplaces := pushBody_places inst
  rw [h] at hplaces
  exact Places.moves_grows hplaces

theorem emit_grows {inst : Instruction} (h : inst.result = none) (s : Section) :
    Moves (Grows []) (Build.emit s inst) := by
  have hplaces := emit_places s inst
  rw [h] at hplaces
  exact Places.moves_grows hplaces

/-- A fresh instruction `inst id` is given a number of its own. -/
theorem stageFresh_grows {push : Instruction → Build Unit}
    (hpush : ∀ inst, Moves (Places inst.result.toList) (push inst)) (inst : Id → Instruction)
    (hinst : ∀ id, (inst id).result = some id) :
    Moves (Grows []) (Build.stageFresh push inst) := by
  refine freshId_bind_grows (fun id => ?_) fun id => Moves.pure Grows.refl id
  have h := hpush (inst id)
  rwa [hinst] at h

theorem grows_journal (d : Draft) (events : List Event) :
    Grows [] d { d with journal := events } := Grows.of_places (Places.of_eq rfl rfl rfl)

theorem declare_grows (opcode : Opcode) (type : Option Id) (operands : List Word) :
    Moves (Grows []) (Build.declare opcode type operands) := by
  refine Grows.bind (findType_moves Grows.refl grows_journal _) fun found => ?_
  cases found with
  | some id => exact Moves.pure Grows.refl id
  | none =>
    exact freshId_bind_grows
      (fun id => emit_places .globalDeclarations ⟨opcode, type, some id, operands⟩)
      fun id => Places.moves_grows fun d => Places.of_eq rfl rfl rfl

theorem nameMembers_grows (type : Id) (fields : List (String × FieldType)) (index : Nat) :
    Moves (Grows []) (Build.nameMembers type index fields) := by
  induction fields generalizing index with
  | nil => exact Moves.pure Grows.refl ()
  | cons field rest ih =>
    exact Grows.bind (emit_grows rfl _) fun _ => ih (index + 1)

theorem declareStruct_grows (name : String) (fields : List (String × FieldType))
    (members : List Id) : Moves (Grows []) (Build.declareStruct name fields members) := by
  refine Grows.bind (x := Build.findStruct name) Grows.refl fun found => ?_
  cases found with
  | some id => exact fun d => grows_journal d _
  | none =>
    refine freshId_bind_grows (fun id => emit_places .globalDeclarations
      ⟨opTypeStruct, none, some id, members.map Id.word⟩) fun id => ?_
    refine Grows.bind (x := Build.noteStruct name id) ?_ fun _ => ?_
    · exact Places.moves_grows fun d => Places.of_eq rfl rfl rfl
    · exact Grows.bind (emit_grows rfl _) fun _ =>
        Grows.bind (nameMembers_grows id fields 0) fun _ => Moves.pure Grows.refl id

theorem grows_declarationLaw : DeclarationLaw (Grows []) :=
  .of_declare Grows.refl (fun _ _ _ => Grows.trans) grows_journal
    (fun opcode type operands _ => declare_grows opcode type operands) declareStruct_grows

theorem emitBody_grows (opcode : Opcode) (type : Id) (operands : List Word) :
    Moves (Grows []) (Build.emitBody opcode type operands) :=
  stageFresh_grows pushBody_places (fun id => ⟨opcode, some type, some id, operands⟩)
    fun _ => rfl

/-! ### Labels that are reserved -/

section

variable {held held' : List Nat} {d e : Draft}

theorem leads_selectionHead (h : Grows held d e) (condition onTrue onFalse merge : Id) :
    Leads (Build.selectionHead condition onTrue onFalse merge) e (fun _ f => Grows held d f)
      (Grows [] d) :=
  (leads_gap (pushBody_grows rfl) h).bind fun _ _ h => leads_gap (pushBody_grows rfl) h

theorem leads_endArm {n : Nat} (held' : List Nat) (h : Grows held d e) (merge : Id)
    (hn : n ∈ held) (hheld : ∀ m ∈ held', m ∈ held ∧ m ≠ n) :
    Leads (Build.endArm merge (Id.ofNat n)) e (fun _ f => Grows held' d f) (Grows [] d) :=
  (leads_gap (pushBody_grows rfl) h).bind fun _ _ h => leads_label held' h hn hheld

end

/-- The beginning of a selection with one arm holds back the label `merge`. -/
theorem leads_beginIfThen (condition : Id) (d : Draft) :
    Leads (Build.beginIfThen condition) d
      (fun merge e => merge = Id.ofNat (d.ids.count + 2) ∧ Grows [d.ids.count + 2] d e)
      (Grows [] d) := by
  refine (leads_selectionHead (Grows.refl d).fresh.fresh _ _ _ _).bind fun _ e h => ?_
  refine (leads_label [d.ids.count + 2] h (n := d.ids.count + 1) (by simp) ?_).bind
    fun _ f h => ⟨rfl, h⟩
  intro m hm
  simp only [List.mem_singleton] at hm
  simp [hm]

theorem ifThen_grows (condition : Id) :
    Bracket (Grows []) (Build.beginIfThen condition) fun merge => Build.endArm merge merge := by
  intro d
  have hbegin := leads_beginIfThen condition d
  refine ⟨(hbegin.mono (fun _ _ h => h.2.drop) fun _ h => h).after, fun merge e hrun f hef => ?_⟩
  obtain ⟨rfl, hde⟩ := hbegin.ok hrun
  exact (leads_endArm [] (hde.gap hef) _ List.mem_cons_self (by simp)).after

/-- The beginning of a selection with two arms holds back two `labels`. -/
theorem leads_beginIfThenElse (condition : Id) (d : Draft) :
    Leads (Build.beginIfThenElse condition) d
      (fun labels e => labels = (Id.ofNat (d.ids.count + 2), Id.ofNat (d.ids.count + 3)) ∧
        Grows [d.ids.count + 2, d.ids.count + 3] d e)
      (Grows [] d) := by
  refine (leads_selectionHead (Grows.refl d).fresh.fresh.fresh _ _ _ _).bind fun _ e h => ?_
  refine (leads_label [d.ids.count + 2, d.ids.count + 3] h (n := d.ids.count + 1) (by simp)
    ?_).bind fun _ f h => ⟨rfl, h⟩
  intro m hm
  simp only [List.mem_cons, List.not_mem_nil, or_false] at hm
  rcases hm with rfl | rfl <;> simp

theorem ifThenElse_grows (condition : Id) :
    DoubleBracket (Grows []) (Build.beginIfThenElse condition)
      (fun labels => Build.endArm labels.2 labels.1)
      fun labels => Build.endArm labels.2 labels.2 := by
  intro d
  have hbegin := leads_beginIfThenElse condition d
  refine ⟨(hbegin.mono (fun _ _ h => h.2.drop) fun _ h => h).after, fun labels e hrun f hef => ?_⟩
  obtain ⟨rfl, hde⟩ := hbegin.ok hrun
  have hmiddle := leads_endArm [d.ids.count + 3] (hde.gap hef) (Id.ofNat (d.ids.count + 3))
    List.mem_cons_self (by simp)
  refine ⟨(hmiddle.mono (fun _ _ h => h.drop) fun _ h => h).after, fun _ g hrun' h hgh => ?_⟩
  exact (leads_endArm [] ((hmiddle.ok hrun').gap hgh) _ List.mem_cons_self (by simp)).after

/-- The beginning of a loop holds back `frame.advance`, the label of the block that advances the
counter, and `frame.merge`, that of the block behind the loop. -/
theorem leads_beginLoop (count : Int32) (d : Draft) :
    Leads (Build.beginLoop count) d
      (fun frame e => ∃ n, frame.advance = Id.ofNat (n + 4) ∧ frame.merge = Id.ofNat (n + 5) ∧
        Grows [n + 4, n + 5] d e)
      (Grows [] d) := by
  have law := grows_declarationLaw
  have hlocal : ∀ int, Moves (Grows []) (Build.localVariable int) := fun int =>
    law.bind (law.pointerType _ int) fun pointer =>
      stageFresh_grows pushHead_places (fun id => ⟨opVariable, some pointer, some id, _⟩)
        fun _ => rfl
  -- the declarations and the counter need nothing to be held
  refine (leads_gap (law.intType 32 true) (Grows.refl d)).bind fun int _ h => ?_
  refine (leads_gap law.boolType h).bind fun bool _ h => ?_
  refine (leads_gap (law.intConstant 0) h).bind fun zero _ h => ?_
  refine (leads_gap (law.intConstant 1) h).bind fun one _ h => ?_
  refine (leads_gap (law.intConstant count) h).bind fun limit _ h => ?_
  refine (leads_gap (hlocal int) h).bind fun counter _ h => ?_
  refine (leads_gap (pushBody_grows rfl) h).bind fun _ e h => ?_
  -- five labels are reserved, and three of them are used here
  refine (leads_gap (pushBody_grows rfl) h.fresh.fresh.fresh.fresh.fresh).bind fun _ _ h => ?_
  refine (leads_label [e.ids.count + 2, e.ids.count + 3, e.ids.count + 4, e.ids.count + 5] h
    (n := e.ids.count + 1) (by simp) (by simp)).bind fun _ _ h => ?_
  refine (leads_gap (pushBody_grows rfl) h).bind fun _ _ h => ?_
  refine (leads_gap (pushBody_grows rfl) h).bind fun _ _ h => ?_
  refine (leads_label [e.ids.count + 3, e.ids.count + 4, e.ids.count + 5] h
    (n := e.ids.count + 2) (by simp) (by simp)).bind fun _ _ h => ?_
  refine (leads_gap (emitBody_grows _ _ _) h).bind fun index _ h => ?_
  refine (leads_gap (emitBody_grows _ _ _) h).bind fun inRange _ h => ?_
  refine (leads_gap (pushBody_grows rfl) h).bind fun _ _ h => ?_
  refine (leads_label [e.ids.count + 4, e.ids.count + 5] h (n := e.ids.count + 3) (by simp)
    (by simp)).bind fun _ _ h => ?_
  exact ⟨e.ids.count, rfl, rfl, h⟩

theorem countedLoop_grows (count : Int32) :
    Bracket (Grows []) (Build.beginLoop count) Build.endLoop := by
  intro d
  have hbegin := leads_beginLoop count d
  refine ⟨(hbegin.mono (fun _ _ h => ?_) fun _ h => h).after, fun frame e hrun f hef => ?_⟩
  · obtain ⟨n, -, -, h⟩ := h
    exact h.drop
  · obtain ⟨n, hadvance, hmerge, hde⟩ := hbegin.ok hrun
    have hend : Leads (Build.endLoop frame) f (fun _ => Grows [] d) (Grows [] d) := by
      rw [Build.endLoop, hadvance, hmerge]
      refine (leads_gap (pushBody_grows rfl) (hde.gap hef)).bind fun _ _ h => ?_
      refine (leads_label [n + 5] h (by simp) (by simp)).bind fun _ _ h => ?_
      refine (leads_gap (emitBody_grows _ _ _) h).bind fun current _ h => ?_
      refine (leads_gap (emitBody_grows _ _ _) h).bind fun next _ h => ?_
      refine (leads_gap (pushBody_grows rfl) h).bind fun _ _ h => ?_
      refine (leads_gap (pushBody_grows rfl) h).bind fun _ _ h => ?_
      exact leads_label [] h (by simp) (by simp)
    exact hend.after

/-- Every operation gives its results numbers of their own. -/
theorem grows_law : Law (Grows []) where
  toDeclarationLaw := grows_declarationLaw
  freshId := fun d => (Grows.refl d).fresh.drop
  directive := fun s _ _ h => emit_grows h s
  importInstructions := fun name => freshId_bind_grows
    (fun id => emit_places _ ⟨opExtInstImport, none, some id, textWords name⟩)
    fun id => Moves.pure Grows.refl id
  globalVariable := fun pointer storage => freshId_bind_grows
    (fun id => emit_places _ ⟨opVariable, some pointer, some id, [storage]⟩)
    fun id => Moves.pure Grows.refl id
  openFunction := Places.moves_grows openFunction_places
  closeFunction := Places.moves_grows closeFunction_places
  pushBody := fun _ h => pushBody_grows h
  freshBody := fun inst h => stageFresh_grows pushBody_places inst h
  freshHead := fun inst h => stageFresh_grows pushHead_places inst h
  ifThen := ifThen_grows
  ifThenElse := ifThenElse_grows
  countedLoop := countedLoop_grows

/-! ### Runs -/

/-- The command is not given the id of a result. -/
def Command.TakesNoResult : Command → Prop
  | .emit _ template | .pushHead template | .pushBody template => template.result = none
  | .label _ => False
  | _ => True

theorem raw_grows (names : Names) (operation : Command) (hraw : operation.IsRaw)
    (h : operation.TakesNoResult) : Moves (Grows []) (operation.perform names) := by
  have hresult : ∀ template : Template, template.result = none →
      (template.instruction names).result = none := by
    intro template htemplate
    rw [Template.instruction, htemplate]
    rfl
  cases operation with
  | emit s template => exact grows_law.answerDone (emit_grows (hresult template h) s)
  | emitResult s opcode operands =>
    exact grows_law.answerId (freshId_bind_grows
      (fun id => emit_places s ⟨opcode, none, some id, operands.words names⟩)
      fun id => Moves.pure Grows.refl id)
  | declareType opcode operands => exact grows_law.answerId (declare_grows opcode none _)
  | declareConstant opcode type operands => exact grows_law.answerId (declare_grows opcode _ _)
  | pushHead template =>
    have hplaces := pushHead_places (template.instruction names)
    rw [hresult template h] at hplaces
    exact grows_law.answerDone (Places.moves_grows hplaces)
  | pushBody template => exact grows_law.answerDone (pushBody_grows (hresult template h))
  | label block => exact h.elim
  | _ => exact hraw.elim

/-- Below the limit of the supply, `Id.ofNat n` has the number `n`. -/
theorem Id.toNat_ofNat {n : Nat} (h : n < 4294967296) : (Id.ofNat n).word.toNat = n :=
  UInt32.toNat_ofNat_of_lt' h

/-- As long as the supply does not start over, the results `added` from `d` to `e` are different,
and are among the ids handed out meanwhile. -/
theorem Grows.added {d e : Draft} (h : Grows [] d e) {added : List Id}
    (hadded : (d.resultIds : Multiset Id) + (added : Multiset Id) ≤ (e.resultIds : Multiset Id))
    (hcount : e.ids.count < 4294967296) :
    added.Nodup ∧ ∀ id ∈ added, d.ids.count < id.word.toNat ∧ id.word.toNat ≤ e.ids.count := by
  obtain ⟨numbers, hle, hnodup, hnumbers⟩ := h.numbers
  have hsub : (added : Multiset Id) ≤ (numbers.map Id.ofNat : Multiset Id) :=
    le_of_add_le_add_left (hadded.trans hle)
  have hnumber : ∀ n ∈ numbers, (Id.ofNat n).word.toNat = n := fun n hn =>
    Id.toNat_ofNat (by have := (hnumbers n hn).1.2; omega)
  constructor
  · have hmap : (numbers.map Id.ofNat).Nodup := by
      refine List.Nodup.map_on (fun m hm n hn h => ?_) hnodup
      rw [← hnumber m hm, ← hnumber n hn, h]
    exact Multiset.coe_nodup.mp (Multiset.nodup_of_le hsub (Multiset.coe_nodup.mpr hmap))
  · intro id hid
    obtain ⟨n, hn, rfl⟩ := List.mem_map.mp (Multiset.mem_coe.mp (Multiset.mem_of_le hsub hid))
    rw [hnumber n hn]
    exact (hnumbers n hn).1

/-- **Results are unique and below the bound.**  After the run of a `script` that chooses no result
itself and takes fewer than 2 ^ 32 - 1 ids, all results of its draft, written or staged, are
different and lie between one and the last id handed out.  So the results of a finished module are
not zero and less than its bound. -/
theorem resultIds_of_run {τ : Type} (settings : Settings) (lenient : Bool) (script : Script τ)
    (huses : script.Uses Command.TakesNoResult)
    (hcount : (script.draftAfter settings lenient).ids.count < 4294967295) :
    let draft := script.draftAfter settings lenient
    draft.resultIds.Nodup ∧
      (∀ id ∈ draft.resultIds, 1 ≤ id.word.toNat ∧ id.word.toNat ≤ draft.ids.last.toNat) ∧
      ∀ binary final, Build.finish draft = .ok binary final →
        ∀ entry ∈ draft.layout.entries, ∀ id, entry.2.result = some id →
          id.word ≠ 0 ∧ id.word < binary.header.bound := by
  intro draft
  have hgrows : Grows [] { settings := settings } draft :=
    grows_law.draftAfter raw_grows huses settings lenient
  have hlimit : draft.ids.count < 4294967295 := hcount
  have hall : (({ settings := settings } : Draft).resultIds : Multiset Id)
      + (draft.resultIds : Multiset Id) ≤ draft.resultIds := (zero_add _).le
  obtain ⟨hnodup, hids⟩ := hgrows.added hall (by omega)
  have hlast : draft.ids.last.toNat = draft.ids.count := Id.toNat_ofNat (by omega)
  have hrange : ∀ id ∈ draft.resultIds,
      1 ≤ id.word.toNat ∧ id.word.toNat ≤ draft.ids.last.toNat := by
    intro id hid
    rw [hlast]
    exact hids id hid
  refine ⟨hnodup, hrange, ?_⟩
  · intro binary final hfinish entry hentry id hid
    rw [Build.eq_binary_of_finish hfinish]
    have hmem : id ∈ draft.resultIds :=
      List.mem_append_left _ (List.mem_filterMap.mpr ⟨entry, hentry, hid⟩)
    obtain ⟨hlow, hhigh⟩ := hrange id hmem
    have hbound : draft.ids.bound.toNat = draft.ids.count + 1 := by
      rw [IdSupply.bound, UInt32.toNat_add, hlast, UInt32.toNat_one]
      exact Nat.mod_eq_of_lt (by omega)
    refine ⟨fun hzero => ?_, UInt32.lt_iff_toNat_lt.mpr ?_⟩
    · rw [hzero] at hlow
      exact absurd hlow (by decide)
    · change id.word.toNat < draft.ids.bound.toNat
      omega

/-- A step that fails, and then a function with a selection inside a loop. -/
def selectionInLoop : Script Unit :=
  .command ⟨(), none, true⟩ .endFunction
    (.defineFunction ⟨(), none, false⟩ none none []
      (.countedLoop ⟨(), some "i", false⟩ 3
        (.ifThen ⟨(), none, false⟩ (.given ⟨18⟩)
          (.command ⟨(), none, false⟩ (.emitBody opIAdd (.given ⟨5⟩) (.id (.named "i"))) .done)
          .done)
        (.command ⟨(), none, false⟩ .returnVoid .done))
      .done)

theorem resultIds_of_run_selectionInLoop :
    (selectionInLoop.draftAfter {} false).ids.count = 23 ∧
      (selectionInLoop.draftAfter {} false).resultIds.Nodup := by
  have huses : selectionInLoop.Uses Command.TakesNoResult := by
    simp [selectionInLoop, Script.Uses, Command.TakesNoResult]
  have hcount : (selectionInLoop.draftAfter {} false).ids.count = 23 := by decide +kernel
  exact ⟨hcount, (resultIds_of_run {} false selectionInLoop huses (by rw [hcount]; decide)).1⟩

end SpirvBinary
