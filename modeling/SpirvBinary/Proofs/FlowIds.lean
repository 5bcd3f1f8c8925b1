import Mathlib.Tactic.Abel
import SpirvBinary.Proofs.Lowering
import SpirvBinary.Proofs.ResultIds

/-!
# The ids of a flow

The results of the instructions that are staged for a function body are new: they differ
from each other and from the entry label of the function.

## Main results

* `FunctionRun.results_nodup` — the entry label and the results of a flow are different.
-/

namespace SpirvBinary

/-- The results of a list of instructions. -/
def resultsOf (insts : List Instruction) : List Id := insts.filterMap Instruction.result

@[simp] theorem resultsOf_nil : resultsOf [] = [] := rfl

@[simp] theorem resultsOf_append (first last : List Instruction) :
    resultsOf (first ++ last) = resultsOf first ++ resultsOf last := List.filterMap_append

theorem mem_resultsOf {insts : List Instruction} {id : Id} :
    id ∈ resultsOf insts ↔ ∃ inst ∈ insts, inst.result = some id := List.mem_filterMap

theorem StagedFunction.resultIds_stage (head body : List Instruction) (function : StagedFunction) :
    ((function.stage head body).resultIds : Multiset Id)
      = function.resultIds + (resultsOf head + resultsOf body : Multiset Id) := by
  simp only [resultIds, instructions, stage, StagedFunction.head, StagedFunction.body,
    List.reverse_append, List.reverse_reverse, List.filterMap_append, ← Multiset.coe_add, resultsOf]
  abel

theorem Layout.resultIds_added {layout layout' : Layout} {added : List (Section × Instruction)}
    (h : layout'.newest = added ++ layout.newest) :
    (layout'.resultIds : Multiset Id)
      = layout.resultIds + (resultsOf (added.map Prod.snd) : Multiset Id) := by
  have hadded : (added.reverse.filterMap fun entry => entry.2.result)
      = (resultsOf (added.map Prod.snd)).reverse := by
    rw [resultsOf, List.filterMap_map, List.filterMap_reverse]
    rfl
  simp only [resultIds, entries, h, List.reverse_append, List.filterMap_append, hadded,
    ← Multiset.coe_add, Multiset.coe_reverse]

/-- The results of `head` and `body`, which have been staged, and of what has been `added` to the
layout are the new results of the draft. -/
theorem Stages.resultIds {head body : List Instruction} {d e : Draft} (h : Stages head body d e)
    (hd : d.openFunctions ≠ []) {added : List (Section × Instruction)}
    (hadded : e.layout.newest = added ++ d.layout.newest) :
    (e.resultIds : Multiset Id) = d.resultIds + ((resultsOf (added.map Prod.snd)
      ++ (resultsOf head ++ resultsOf body) : List Id) : Multiset Id) := by
  cases hopen : d.openFunctions with
  | nil => exact absurd hopen hd
  | cons innermost outer =>
    have hfunctions := h.functions
    rw [hopen, List.modifyHead_cons] at hfunctions
    simp only [Draft.resultIds, hfunctions, hopen, List.flatMap_cons, ← Multiset.coe_add,
      Layout.resultIds_added hadded, StagedFunction.resultIds_stage]
    abel

/-! ### Bodies hand out their ids themselves -/

theorem Command.IsStatement.takesNoResult {operation : Command} (h : operation.IsStatement) :
    operation.TakesNoResult := by
  cases operation with
  | emit | pushHead | pushBody | label => exact h.elim
  | _ => trivial

/-- The commands of a body are `allowed` when all statements are. -/
theorem Script.IsBody.uses {τ : Type} {allowed : Command → Prop} {script : Script τ}
    (h : script.IsBody)
    (hallowed : ∀ operation : Command, operation.IsStatement → allowed operation) :
    script.Uses allowed := by
  induction script with
  | done => trivial
  | command mark operation next ih => exact ⟨hallowed operation h.1, ih h.2⟩
  | ifThen mark condition arm next iharm ih => exact ⟨iharm h.1, ih h.2⟩
  | ifThenElse mark condition onTrue onFalse next ihtrue ihfalse ih =>
    exact ⟨ihtrue h.1, ihfalse h.2.1, ih h.2.2⟩
  | countedLoop mark count body next ihbody ih => exact ⟨ihbody h.1, ih h.2⟩
  | defineFunction => exact h.elim
  | build => exact h.elim

theorem Script.IsBody.takesNoResult {τ : Type} {script : Script τ} (h : script.IsBody) :
    script.Uses Command.TakesNoResult := h.uses fun _ => Command.IsStatement.takesNoResult

namespace FunctionRun

variable {τ : Type} {name : Option String} {returnType : Option Id} {paramTypes : List Id}
  {body : Script τ} {ending : Command} {function : FunctionDef} {flow : Flow}
  {s opened closed t : Session τ}

theorem isOpen (run : FunctionRun name returnType paramTypes body ending function flow s opened
    closed t) : opened.draft.openFunctions ≠ [] := by
  rw [run.opens]
  exact List.cons_ne_nil _ _

/-- The entry label is handed out before the body is carried out. -/
theorem entry_le (run : FunctionRun name returnType paramTypes body ending function flow s opened
    closed t) (hcount : opened.draft.ids.count < 4294967296) :
    function.entry.word.toNat ≤ opened.draft.ids.count := by
  have hgrows := grows_law.beginNamedFunction name returnType paramTypes s.draft
  rw [after_of_ok run.begins] at hgrows
  obtain ⟨added, hlayout, -, -⟩ := run.declares.written
  have hempty : (({} : StagedFunction).resultIds : Multiset Id) = 0 := rfl
  have hlabel : (resultsOf [.label function.entry] : Multiset Id) = [function.entry] := rfl
  have hresults : (opened.draft.resultIds : Multiset Id)
      = s.draft.resultIds + ([function.entry] : Multiset Id)
        + (resultsOf (added.map Prod.snd) + resultsOf function.prologue : Multiset Id) := by
    simp only [Draft.resultIds, run.opens, List.flatMap_cons, ← Multiset.coe_add,
      Layout.resultIds_added hlayout, StagedFunction.resultIds_stage, resultsOf_append, hempty,
      hlabel, resultsOf_nil, Multiset.coe_nil]
    abel
  have hadded : (s.draft.resultIds : Multiset Id) + ([function.entry] : Multiset Id)
      ≤ opened.draft.resultIds := by
    rw [hresults]
    exact Multiset.le_add_right _ _
  exact ((hgrows.added hadded hcount).2 _ List.mem_cons_self).2

/-- What is `added` while a body is carried out, and the flow that is staged, have results of their
own. -/
theorem added_nodup (run : FunctionRun name returnType paramTypes body ending function flow s
    opened closed t) (hbody : body.IsBody) (hcount : closed.draft.ids.count < 4294967296)
    {added : List (Section × Instruction)}
    (hadded : closed.draft.layout.newest = added ++ opened.draft.layout.newest) :
    (resultsOf (added.map Prod.snd) ++ (resultsOf flow.head ++ resultsOf flow.body)).Nodup ∧
      ∀ id ∈ resultsOf (added.map Prod.snd) ++ (resultsOf flow.head ++ resultsOf flow.body),
        opened.draft.ids.count < id.word.toNat := by
  have hgrows : Grows [] opened.draft closed.draft := by
    have h := grows_law.run raw_grows body hbody.takesNoResult false opened
    rwa [after_of_ok run.runs] at h
  obtain ⟨hnodup, hids⟩ := hgrows.added (run.stages.resultIds run.isOpen hadded).ge hcount
  exact ⟨hnodup, fun id hid => (hids id hid).1⟩

theorem count_le (run : FunctionRun name returnType paramTypes body ending function flow s opened
    closed t) (hbody : body.IsBody) : opened.draft.ids.count ≤ closed.draft.ids.count := by
  have h := grows_law.run raw_grows body hbody.takesNoResult false opened
  rw [after_of_ok run.runs] at h
  exact h.count

/-- The entry label of a function and the results of its flow are different. -/
theorem results_nodup (run : FunctionRun name returnType paramTypes body ending function flow s
    opened closed t) (hbody : body.IsBody) (hcount : t.draft.ids.count < 4294967296) :
    (function.entry :: resultsOf (flow.head ++ flow.body)).Nodup := by
  rw [run.ids] at hcount
  obtain ⟨added, hlayout, -, -⟩ := run.stages.written
  obtain ⟨hnodup, hids⟩ := run.added_nodup hbody hcount hlayout
  have hentry := run.entry_le (by have := run.count_le hbody; omega)
  rw [resultsOf_append, List.nodup_cons]
  refine ⟨fun hmem => ?_, (List.nodup_append.mp hnodup).2.1⟩
  have := hids _ (List.mem_append_right _ hmem)
  omega

/-- The variables in the `head` of a flow and the instructions of its `body` have results of their
own. -/
theorem parts_nodup (run : FunctionRun name returnType paramTypes body ending function flow s
    opened closed t) (hbody : body.IsBody) (hcount : t.draft.ids.count < 4294967296) :
    (resultsOf flow.head).Nodup ∧ (resultsOf flow.body).Nodup ∧
      ∀ id ∈ resultsOf flow.head, id ∉ resultsOf flow.body := by
  have hnodup := (List.nodup_cons.mp (run.results_nodup hbody hcount)).2
  rw [resultsOf_append] at hnodup
  obtain ⟨hhead, hrest, hapart⟩ := List.nodup_append.mp hnodup
  exact ⟨hhead, hrest, fun id hid hmem => hapart id hid id hmem rfl⟩

end FunctionRun

end SpirvBinary
