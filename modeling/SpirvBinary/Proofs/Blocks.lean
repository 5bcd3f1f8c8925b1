import Mathlib.Logic.Relation
import SpirvBinary.Proofs.FlowIds

/-!
# Block graphs

The instructions of a function with a body of statements fall into basic blocks.  While
a flow is laid out there is always one open block, which receives the instructions to
come; a construct closes it, lays out blocks of its own, and leaves its merge block open.
All jumps of a construct go to labels of the construct itself, so no target lies outside
of the function.

## Main definitions

* `Block` — a label, an interior and a terminator.
* `Flow.split` — the blocks that a flow closes, and the block it leaves open.
* `Instruction.targets` — the labels an instruction refers to.
* `MergesGuarded` — every merge is followed by the branch it belongs to.
* `Reaches` — a block can be reached from another one.

## Main results

* `split_code` — the blocks of a flow are its instructions.
* `blocks_of_defineFunction` — **a function is a well-formed block graph.**
-/

namespace SpirvBinary

open Opcode

/-! ### Blocks -/

/-- A basic block. -/
structure Block where
  label : Id
  /-- What stands between the label and the terminator. -/
  interior : List Instruction
  terminator : Instruction
  deriving DecidableEq, Repr, Inhabited

/-- The instructions of a block. -/
def Block.instructions (block : Block) : List Instruction :=
  .label block.label :: (block.interior ++ [block.terminator])

/-- An instruction that neither starts nor ends a block: it is not `OpLabel`, and not one of the
`terminators`. -/
def Instruction.IsInterior (inst : Instruction) : Prop :=
  inst.opcode ≠ opLabel ∧ inst.opcode ∉ terminators

/-- The label of a block is its only one, and its `terminator` is its only one. -/
structure Block.IsBasic (block : Block) : Prop where
  interior : ∀ inst ∈ block.interior, inst.IsInterior
  terminator : block.terminator.opcode ∈ terminators

/-- A block that has not been ended. -/
structure OpenBlock where
  label : Id
  interior : List Instruction := []

namespace OpenBlock

/-- A block with `insts` behind what it has. -/
def add (block : OpenBlock) (insts : List Instruction) : OpenBlock :=
  ⟨block.label, block.interior ++ insts⟩

/-- A block that is ended by `terminator`. -/
def close (block : OpenBlock) (terminator : Instruction) : Block :=
  ⟨block.label, block.interior, terminator⟩

/-- The instructions of an open block. -/
def instructions (block : OpenBlock) : List Instruction := .label block.label :: block.interior

theorem instructions_close (block : OpenBlock) (terminator : Instruction) :
    (block.close terminator).instructions = block.instructions ++ [terminator] := rfl

theorem instructions_add (block : OpenBlock) (insts : List Instruction) :
    (block.add insts).instructions = block.instructions ++ insts := rfl

end OpenBlock

open Instruction in
/-- The blocks that a flow closes when it goes on in the open block that is given, and the block it
leaves open. -/
def Flow.split : Flow → OpenBlock → List Block × OpenBlock
  | .done, block => ([], block)
  | .instruction inst next, block => next.split (block.add [inst])
  | .localVariable _ next, block => next.split block
  | .ifThen condition onTrue merge arm next, block =>
      let inner := arm.split ⟨onTrue, []⟩
      let rest := next.split ⟨merge, []⟩
      ((block.add [selectionMerge merge]).close (branchConditional condition onTrue merge)
        :: (inner.1 ++ inner.2.close (branch merge) :: rest.1), rest.2)
  | .ifThenElse condition onTrue onFalse merge first second next, block =>
      let inner := first.split ⟨onTrue, []⟩
      let inner' := second.split ⟨onFalse, []⟩
      let rest := next.split ⟨merge, []⟩
      ((block.add [selectionMerge merge]).close (branchConditional condition onTrue onFalse)
        :: (inner.1 ++ inner.2.close (branch merge)
        :: (inner'.1 ++ inner'.2.close (branch merge) :: rest.1)), rest.2)
  | .loop ids body next, block =>
      let inner := body.split ⟨ids.body, []⟩
      let rest := next.split ⟨ids.merge, []⟩
      ((block.add [store ids.counter ids.zero]).close (branch ids.header)
        :: ⟨ids.header, [loopMerge ids.merge ids.advance], branch ids.check⟩
        :: ⟨ids.check, [load ids.int ids.index ids.counter,
            typed opSLessThan ids.bool ids.inRange [ids.index.word, ids.limit.word]],
          branchConditional ids.inRange ids.body ids.merge⟩
        :: (inner.1 ++ inner.2.close (branch ids.advance)
        :: ⟨ids.advance, [load ids.int ids.current ids.counter,
            typed opIAdd ids.int ids.next [ids.current.word, ids.one.word],
            store ids.counter ids.next], branch ids.header⟩ :: rest.1), rest.2)

/-- The blocks of a flow are the instructions of its `body`, `block` in front of them. -/
theorem Flow.split_code (flow : Flow) (block : OpenBlock) (rest : List Instruction) :
    (flow.split block).1.flatMap Block.instructions
        ++ ((flow.split block).2.instructions ++ rest)
      = block.instructions ++ (flow.body ++ rest) := by
  induction flow generalizing block rest with
  | done => rfl
  | instruction inst next ih =>
    rw [split, ih, OpenBlock.instructions_add, body, List.append_assoc]
    rfl
  | localVariable inst next ih => exact ih block rest
  | ifThen condition onTrue merge arm next iharm ih =>
    simp only [split, body, List.flatMap_cons, List.flatMap_append, List.append_assoc, ih,
      OpenBlock.instructions_close, OpenBlock.instructions_add, iharm]
    rfl
  | ifThenElse condition onTrue onFalse merge first second next ihfirst ihsecond ih =>
    simp only [split, body, List.flatMap_cons, List.flatMap_append, List.append_assoc, ih,
      OpenBlock.instructions_close, OpenBlock.instructions_add, ihfirst, ihsecond]
    rfl
  | loop ids body next ihbody ih =>
    simp only [split, Flow.body, List.flatMap_cons, List.flatMap_append, List.append_assoc, ih,
      OpenBlock.instructions_close, OpenBlock.instructions_add, ihbody]
    rfl

/-! ### Basic blocks -/

theorem Instruction.isInterior_of_not_structural {inst : Instruction}
    (h : inst.opcode ∉ structural) : inst.IsInterior := by
  refine ⟨fun hlabel => h ?_, fun hmem => h (List.mem_append_right _ hmem)⟩
  rw [hlabel]
  decide

theorem Instruction.isInterior_of_opcode {inst : Instruction} (opcode : Opcode)
    (h : opcode ≠ opLabel ∧ opcode ∉ terminators) (hinst : inst.opcode = opcode) :
    inst.IsInterior := by
  rw [IsInterior, hinst]
  exact h

/-- The instructions in the blocks of a loop, apart from its body. -/
theorem LoopIds.isInterior (ids : LoopIds) :
    ∀ inst ∈ [Instruction.loopMerge ids.merge ids.advance]
        ++ ([Instruction.load ids.int ids.index ids.counter,
          .typed opSLessThan ids.bool ids.inRange [ids.index.word, ids.limit.word]]
        ++ [Instruction.load ids.int ids.current ids.counter,
          .typed opIAdd ids.int ids.next [ids.current.word, ids.one.word],
          .store ids.counter ids.next]), inst.IsInterior := by
  have hall : ∀ opcode ∈ [opLoopMerge, opLoad, opSLessThan, opIAdd, opStore],
      opcode ≠ opLabel ∧ opcode ∉ terminators := by decide
  intro inst hinst
  refine Instruction.isInterior_of_opcode _ (hall inst.opcode ?_) rfl
  simp only [List.cons_append, List.nil_append, List.mem_cons, List.not_mem_nil, or_false] at hinst
  rcases hinst with rfl | rfl | rfl | rfl | rfl | rfl <;>
    simp [Instruction.loopMerge, Instruction.load, Instruction.typed, Instruction.store]

/-- A `Plain` flow closes basic blocks only, and what it leaves in the open block neither starts
nor ends a block. -/
theorem Flow.Plain.split_basic {flow : Flow} (h : flow.Plain) (block : OpenBlock)
    (hblock : ∀ inst ∈ block.interior, inst.IsInterior) :
    (∀ closed ∈ (flow.split block).1, closed.IsBasic) ∧
      ∀ inst ∈ (flow.split block).2.interior, inst.IsInterior := by
  have hadd : ∀ {block : OpenBlock} {inst : Instruction},
      (∀ inst ∈ block.interior, inst.IsInterior) → inst.IsInterior →
        ∀ i ∈ (block.add [inst]).interior, i.IsInterior := by
    intro block inst hblock hinst i hi
    rcases List.mem_append.mp hi with hi | hi
    · exact hblock i hi
    · rw [List.mem_singleton.mp hi]
      exact hinst
  have hselection : ∀ merge, (Instruction.selectionMerge merge).IsInterior := fun merge =>
    Instruction.isInterior_of_opcode opSelectionMerge (by decide) rfl
  have hstore : ∀ pointer value, (Instruction.store pointer value).IsInterior :=
    fun pointer value => Instruction.isInterior_of_opcode opStore (by decide) rfl
  -- the blocks that a construct opens start with nothing in them
  have hempty : ∀ inst ∈ ([] : List Instruction), inst.IsInterior := by simp
  have hbranch : opBranch ∈ terminators := by decide
  have hconditional : opBranchConditional ∈ terminators := by decide
  induction flow generalizing block with
  | done => exact ⟨by simp [split], hblock⟩
  | instruction inst next ih =>
    exact ih h.2 _ (hadd hblock (Instruction.isInterior_of_not_structural h.1.1))
  | localVariable inst next ih => exact ih h.2 block hblock
  | ifThen condition onTrue merge arm next iharm ih =>
    obtain ⟨hinner, hopen⟩ := iharm h.1 ⟨onTrue, []⟩ hempty
    obtain ⟨hrest, hopen'⟩ := ih h.2 ⟨merge, []⟩ hempty
    refine ⟨fun closed hclosed => ?_, hopen'⟩
    simp only [split, List.mem_cons, List.mem_append] at hclosed
    rcases hclosed with rfl | hclosed | rfl | hclosed
    · exact ⟨hadd hblock (hselection merge), hconditional⟩
    · exact hinner closed hclosed
    · exact ⟨hopen, hbranch⟩
    · exact hrest closed hclosed
  | ifThenElse condition onTrue onFalse merge first second next ihfirst ihsecond ih =>
    obtain ⟨hfirst, hopen⟩ := ihfirst h.1 ⟨onTrue, []⟩ hempty
    obtain ⟨hsecond, hopen'⟩ := ihsecond h.2.1 ⟨onFalse, []⟩ hempty
    obtain ⟨hrest, hopen''⟩ := ih h.2.2 ⟨merge, []⟩ hempty
    refine ⟨fun closed hclosed => ?_, hopen''⟩
    simp only [split, List.mem_cons, List.mem_append] at hclosed
    rcases hclosed with rfl | hclosed | rfl | hclosed | rfl | hclosed
    · exact ⟨hadd hblock (hselection merge), hconditional⟩
    · exact hfirst closed hclosed
    · exact ⟨hopen, hbranch⟩
    · exact hsecond closed hclosed
    · exact ⟨hopen', hbranch⟩
    · exact hrest closed hclosed
  | loop ids body next ihbody ih =>
    obtain ⟨hinner, hopen⟩ := ihbody h.1 ⟨ids.body, []⟩ hempty
    obtain ⟨hrest, hopen'⟩ := ih h.2 ⟨ids.merge, []⟩ hempty
    have hids := ids.isInterior
    refine ⟨fun closed hclosed => ?_, hopen'⟩
    simp only [split, List.mem_cons, List.mem_append] at hclosed
    rcases hclosed with rfl | rfl | rfl | hclosed | rfl | rfl | hclosed
    · exact ⟨hadd hblock (hstore _ _), hbranch⟩
    · exact ⟨fun inst hinst => hids inst (List.mem_append_left _ hinst), hbranch⟩
    · exact ⟨fun inst hinst => hids inst (List.mem_append_right _ (List.mem_append_left _ hinst)),
        hconditional⟩
    · exact hinner closed hclosed
    · exact ⟨hopen, hbranch⟩
    · exact ⟨fun inst hinst => hids inst (List.mem_append_right _ (List.mem_append_right _ hinst)),
        hbranch⟩
    · exact hrest closed hclosed

/-! ### Labels and targets -/

/-- The labels among `insts`. -/
def labelsOf (insts : List Instruction) : List Id :=
  insts.filterMap fun inst => if inst.opcode = opLabel then inst.result else none

@[simp] theorem labelsOf_append (first last : List Instruction) :
    labelsOf (first ++ last) = labelsOf first ++ labelsOf last := List.filterMap_append

/-- Labels are results. -/
theorem labelsOf_sublist (insts : List Instruction) :
    (labelsOf insts).Sublist (resultsOf insts) := by
  induction insts with
  | nil => exact List.Sublist.slnil
  | cons inst rest ih =>
    by_cases hlabel : inst.opcode = opLabel
    · cases hresult : inst.result with
      | none => simpa [labelsOf, resultsOf, hlabel, hresult] using ih
      | some id => simpa [labelsOf, resultsOf, hlabel, hresult] using ih
    · cases hresult : inst.result with
      | none => simpa [labelsOf, resultsOf, hlabel, hresult] using ih
      | some id =>
        have hcons := ih.trans (List.sublist_cons_self id (resultsOf rest))
        simpa [labelsOf, resultsOf, hlabel, hresult] using hcons

theorem labelsOf_of_isInterior {insts : List Instruction}
    (h : ∀ inst ∈ insts, inst.IsInterior) : labelsOf insts = [] := by
  refine List.filterMap_eq_nil_iff.mpr fun inst hinst => ?_
  rw [if_neg (h inst hinst).1]

/-- The labels of basic blocks are all labels among their instructions. -/
theorem labelsOf_blocks {blocks : List Block} (h : ∀ block ∈ blocks, block.IsBasic) :
    labelsOf (blocks.flatMap Block.instructions) = blocks.map Block.label := by
  induction blocks with
  | nil => rfl
  | cons block rest ih =>
    have hbasic := h block List.mem_cons_self
    have hlabel : opLabel ∉ terminators := by decide
    have hterminator : labelsOf [block.terminator] = [] := by
      have hne : block.terminator.opcode ≠ opLabel := by
        intro heq
        exact hlabel (heq ▸ hbasic.terminator)
      simp [labelsOf, hne]
    have hblock : labelsOf block.instructions = [block.label] := by
      have hcons : block.instructions
          = [.label block.label] ++ (block.interior ++ [block.terminator]) := rfl
      rw [hcons, labelsOf_append, labelsOf_append, labelsOf_of_isInterior hbasic.interior,
        hterminator]
      rfl
    rw [List.flatMap_cons, labelsOf_append, hblock,
      ih fun block hblock => h block (List.mem_cons_of_mem _ hblock)]
    rfl

/-- The labels of blocks that `inst` refers to. -/
def Instruction.targets (inst : Instruction) : List Word :=
  if inst.opcode = opBranch ∨ inst.opcode = opSelectionMerge then inst.operands.take 1
  else if inst.opcode = opBranchConditional then (inst.operands.drop 1).take 2
  else if inst.opcode = opLoopMerge then inst.operands.take 2
  else []

theorem Instruction.targets_of_not_structural {inst : Instruction}
    (h : inst.opcode ∉ structural) : inst.targets = [] := by
  have hne : ∀ opcode ∈ structural, inst.opcode ≠ opcode := by
    rintro opcode hopcode rfl
    exact h hopcode
  rw [targets, if_neg, if_neg, if_neg]
  · exact hne opLoopMerge (by decide)
  · exact hne opBranchConditional (by decide)
  · rintro (heq | heq)
    · exact hne opBranch (by decide) heq
    · exact hne opSelectionMerge (by decide) heq

/-- The instructions `insts` refer to `labels` only. -/
def TargetsWithin (labels : List Id) (insts : List Instruction) : Prop :=
  ∀ inst ∈ insts, ∀ word ∈ inst.targets, (⟨word⟩ : Id) ∈ labels

namespace TargetsWithin

variable {labels labels' : List Id} {insts insts' : List Instruction}

theorem mono (h : TargetsWithin labels insts) (hsub : labels ⊆ labels') :
    TargetsWithin labels' insts := fun inst hinst word hword => hsub (h inst hinst word hword)

theorem append (h : TargetsWithin labels insts) (h' : TargetsWithin labels insts') :
    TargetsWithin labels (insts ++ insts') := by
  intro inst hinst
  rcases List.mem_append.mp hinst with hinst | hinst
  · exact h inst hinst
  · exact h' inst hinst

theorem of_targets_eq (h : ∀ inst ∈ insts, inst.targets = []) : TargetsWithin labels insts := by
  intro inst hinst word hword
  rw [h inst hinst] at hword
  cases hword

theorem selection (condition onTrue onFalse merge : Id) :
    TargetsWithin [onTrue, onFalse, merge]
      (Instruction.selection condition onTrue onFalse merge) := by
  intro inst hinst word hword
  simp only [Instruction.selection, List.mem_cons, List.not_mem_nil, or_false] at hinst
  rcases hinst with rfl | rfl | rfl
  · rw [List.mem_singleton.mp hword]
    simp
  · rcases List.mem_pair.mp hword with rfl | rfl <;> simp
  · cases hword

theorem endArm (merge next : Id) : TargetsWithin [merge] (Instruction.endArm merge next) := by
  intro inst hinst word hword
  simp only [Instruction.endArm, List.mem_cons, List.not_mem_nil, or_false] at hinst
  rcases hinst with rfl | rfl
  · rw [List.mem_singleton.mp hword]
    simp
  · cases hword

theorem opening (ids : LoopIds) :
    TargetsWithin [ids.header, ids.check, ids.body, ids.advance, ids.merge] ids.opening := by
  intro inst hinst word hword
  simp only [LoopIds.opening, List.mem_cons, List.not_mem_nil, or_false] at hinst
  rcases hinst with rfl | rfl | rfl | rfl | rfl | rfl | rfl | rfl | rfl | rfl
  · cases hword
  · rw [List.mem_singleton.mp hword]
    simp
  · cases hword
  · rcases List.mem_pair.mp hword with rfl | rfl <;> simp
  · rw [List.mem_singleton.mp hword]
    simp
  · cases hword
  · cases hword
  · cases hword
  · rcases List.mem_pair.mp hword with rfl | rfl <;> simp
  · cases hword

theorem closing (ids : LoopIds) :
    TargetsWithin [ids.header, ids.check, ids.body, ids.advance, ids.merge] ids.closing := by
  intro inst hinst word hword
  simp only [LoopIds.closing, List.mem_cons, List.not_mem_nil, or_false] at hinst
  rcases hinst with rfl | rfl | rfl | rfl | rfl | rfl | rfl
  · rw [List.mem_singleton.mp hword]
    simp
  · cases hword
  · cases hword
  · cases hword
  · cases hword
  · rw [List.mem_singleton.mp hword]
    simp
  · cases hword

end TargetsWithin

/-- All jumps and merges of a flow refer to labels of the flow itself. -/
theorem Flow.Plain.targetsWithin {flow : Flow} (h : flow.Plain) :
    TargetsWithin (labelsOf flow.body) flow.body := by
  have hselection : ∀ condition onTrue onFalse merge,
      labelsOf (Instruction.selection condition onTrue onFalse merge) = [onTrue] :=
    fun _ _ _ _ => rfl
  have hendArm : ∀ merge next, labelsOf (Instruction.endArm merge next) = [next] :=
    fun _ _ => rfl
  induction flow with
  | done => exact TargetsWithin.of_targets_eq (by simp [body])
  | instruction inst next ih =>
    have hinst : TargetsWithin (labelsOf next.body) [inst] :=
      TargetsWithin.of_targets_eq fun i hi => by
        rw [List.mem_singleton.mp hi]
        exact Instruction.targets_of_not_structural h.1.1
    have hlabel : inst.opcode ≠ opLabel := (Instruction.isInterior_of_not_structural h.1.1).1
    have hlabels : labelsOf (inst :: next.body) = labelsOf next.body := by
      simp [labelsOf, hlabel]
    rw [body, hlabels]
    exact hinst.append (ih h.2)
  | localVariable inst next ih => exact ih h.2
  | ifThen condition onTrue merge arm next iharm ih =>
    simp only [body, labelsOf_append, hselection, hendArm]
    refine ((TargetsWithin.selection _ _ _ _).mono ?_).append (((iharm h.1).mono ?_).append
      (((TargetsWithin.endArm _ _).mono ?_).append ((ih h.2).mono ?_)))
    all_goals intro id hid
    all_goals simp only [List.mem_append, List.mem_cons, List.not_mem_nil, or_false] at hid ⊢
    all_goals grind
  | ifThenElse condition onTrue onFalse merge first second next ihfirst ihsecond ih =>
    simp only [body, labelsOf_append, hselection, hendArm]
    refine ((TargetsWithin.selection _ _ _ _).mono ?_).append (((ihfirst h.1).mono ?_).append
      (((TargetsWithin.endArm _ _).mono ?_).append (((ihsecond h.2.1).mono ?_).append
      (((TargetsWithin.endArm _ _).mono ?_).append ((ih h.2.2).mono ?_)))))
    all_goals intro id hid
    all_goals simp only [List.mem_append, List.mem_cons, List.not_mem_nil, or_false] at hid ⊢
    all_goals grind
  | loop ids body next ihbody ih =>
    have hopening : labelsOf ids.opening = [ids.header, ids.check, ids.body] := rfl
    have hclosing : labelsOf ids.closing = [ids.advance, ids.merge] := rfl
    simp only [Flow.body, labelsOf_append, hopening, hclosing]
    refine ((TargetsWithin.opening _).mono ?_).append (((ihbody h.1).mono ?_).append
      (((TargetsWithin.closing _).mono ?_).append ((ih h.2).mono ?_)))
    all_goals intro id hid
    all_goals simp only [List.mem_append, List.mem_cons, List.not_mem_nil, or_false] at hid ⊢
    all_goals grind

/-! ### Merges -/

/-- Every `OpSelectionMerge` is followed by a conditional branch, and every `OpLoopMerge` by a
branch. -/
def MergesGuarded (insts : List Instruction) : Prop :=
  ∀ i inst, insts[i]? = some inst →
    (inst.opcode = opSelectionMerge →
      ∃ next, insts[i + 1]? = some next ∧ next.opcode = opBranchConditional) ∧
    (inst.opcode = opLoopMerge → ∃ next, insts[i + 1]? = some next ∧ next.opcode = opBranch)

namespace MergesGuarded

variable {inst next : Instruction} {rest : List Instruction}

/-- An instruction that is not a merge may stand in front of `rest`. -/
theorem cons (h : MergesGuarded rest) (opcode : Opcode) (hinst : inst.opcode = opcode)
    (hne : opcode ≠ opSelectionMerge ∧ opcode ≠ opLoopMerge) : MergesGuarded (inst :: rest) := by
  intro i inst' hinst'
  cases i with
  | zero =>
    cases hinst'
    rw [hinst]
    exact ⟨fun heq => absurd heq hne.1, fun heq => absurd heq hne.2⟩
  | succ i => exact h i inst' hinst'

/-- A merge of a selection may stand in front of a conditional branch. -/
theorem cons_selection (h : MergesGuarded (next :: rest)) (hinst : inst.opcode = opSelectionMerge)
    (hnext : next.opcode = opBranchConditional) : MergesGuarded (inst :: next :: rest) := by
  intro i inst' hinst'
  cases i with
  | zero =>
    cases hinst'
    rw [hinst]
    exact ⟨fun _ => ⟨next, rfl, hnext⟩, fun heq => absurd heq (by decide)⟩
  | succ i => exact h i inst' hinst'

/-- A merge of a loop may stand in front of a branch. -/
theorem cons_loop (h : MergesGuarded (next :: rest)) (hinst : inst.opcode = opLoopMerge)
    (hnext : next.opcode = opBranch) : MergesGuarded (inst :: next :: rest) := by
  intro i inst' hinst'
  cases i with
  | zero =>
    cases hinst'
    rw [hinst]
    exact ⟨fun heq => absurd heq (by decide), fun _ => ⟨next, rfl, hnext⟩⟩
  | succ i => exact h i inst' hinst'

theorem selection (h : MergesGuarded rest) (condition onTrue onFalse merge : Id) :
    MergesGuarded (Instruction.selection condition onTrue onFalse merge ++ rest) :=
  cons_selection ((h.cons opLabel rfl (by decide)).cons opBranchConditional rfl (by decide))
    rfl rfl

theorem endArm (h : MergesGuarded rest) (merge next : Id) :
    MergesGuarded (Instruction.endArm merge next ++ rest) :=
  (h.cons opLabel rfl (by decide)).cons opBranch rfl (by decide)

theorem opening (h : MergesGuarded rest) (ids : LoopIds) : MergesGuarded (ids.opening ++ rest) := by
  refine cons ?_ opStore rfl (by decide)
  refine cons ?_ opBranch rfl (by decide)
  refine cons ?_ opLabel rfl (by decide)
  refine cons_loop ?_ rfl rfl
  refine cons ?_ opBranch rfl (by decide)
  refine cons ?_ opLabel rfl (by decide)
  refine cons ?_ opLoad rfl (by decide)
  refine cons ?_ opSLessThan rfl (by decide)
  refine cons ?_ opBranchConditional rfl (by decide)
  exact cons h opLabel rfl (by decide)

theorem closing (h : MergesGuarded rest) (ids : LoopIds) : MergesGuarded (ids.closing ++ rest) := by
  refine cons ?_ opBranch rfl (by decide)
  refine cons ?_ opLabel rfl (by decide)
  refine cons ?_ opLoad rfl (by decide)
  refine cons ?_ opIAdd rfl (by decide)
  refine cons ?_ opStore rfl (by decide)
  refine cons ?_ opBranch rfl (by decide)
  exact cons h opLabel rfl (by decide)

end MergesGuarded

/-- The merges of a `Plain` flow are guarded, when those of the `rest` are that follows it. -/
theorem Flow.Plain.mergesGuarded {flow : Flow} (h : flow.Plain) {rest : List Instruction}
    (hrest : MergesGuarded rest) : MergesGuarded (flow.body ++ rest) := by
  induction flow generalizing rest with
  | done => exact hrest
  | instruction inst next ih =>
    refine (ih h.2 hrest).cons inst.opcode rfl ⟨fun heq => h.1.1 ?_, fun heq => h.1.1 ?_⟩
    · rw [heq]
      decide
    · rw [heq]
      decide
  | localVariable inst next ih => exact ih h.2 hrest
  | ifThen condition onTrue merge arm next iharm ih =>
    simp only [body, List.append_assoc]
    exact (iharm h.1 ((ih h.2 hrest).endArm _ _)).selection _ _ _ _
  | ifThenElse condition onTrue onFalse merge first second next ihfirst ihsecond ih =>
    simp only [body, List.append_assoc]
    exact (ihfirst h.1 ((ihsecond h.2.1 ((ih h.2.2 hrest).endArm _ _)).endArm _ _)).selection
      _ _ _ _
  | loop ids body next ihbody ih =>
    simp only [Flow.body, List.append_assoc]
    exact (ihbody h.1 ((ih h.2 hrest).closing ids)).opening ids

/-! ### Reachable blocks -/

/-- The block with the label `source` can jump to the block with the label `target`. -/
def Jumps (blocks : List Block) (source target : Id) : Prop :=
  ∃ block ∈ blocks, block.label = source ∧ target.word ∈ block.terminator.targets

/-- Along `Jumps` the second label can be reached from the first. -/
def Reaches (blocks : List Block) : Id → Id → Prop := Relation.ReflTransGen (Jumps blocks)

/-- All blocks of a flow, and the block it leaves open, are reached from `block`, in which it
starts. -/
theorem Flow.reaches_split (flow : Flow) (block : OpenBlock) {blocks : List Block}
    (hsub : ∀ closed ∈ (flow.split block).1, closed ∈ blocks) :
    (∀ closed ∈ (flow.split block).1, Reaches blocks block.label closed.label) ∧
      Reaches blocks block.label (flow.split block).2.label := by
  induction flow generalizing block with
  | done => exact ⟨by simp [split], .refl⟩
  | instruction inst next ih => exact ih (block.add [inst]) hsub
  | localVariable inst next ih => exact ih block hsub
  | ifThen condition onTrue merge arm next iharm ih =>
    simp only [split, List.mem_cons, List.mem_append] at hsub
    have hhead := hsub _ (Or.inl rfl)
    obtain ⟨hinner, hopen⟩ := iharm ⟨onTrue, []⟩ fun closed h => hsub closed (by grind)
    obtain ⟨hrest, hopen'⟩ := ih ⟨merge, []⟩ fun closed h => hsub closed (by grind)
    have htrue : Reaches blocks block.label onTrue := .single ⟨_, hhead, rfl, List.mem_cons_self⟩
    have hmerge : Reaches blocks block.label merge :=
      .single ⟨_, hhead, rfl, List.mem_cons_of_mem _ List.mem_cons_self⟩
    refine ⟨fun closed hclosed => ?_, hmerge.trans hopen'⟩
    simp only [split, List.mem_cons, List.mem_append] at hclosed
    rcases hclosed with rfl | hclosed | rfl | hclosed
    · exact .refl
    · exact htrue.trans (hinner closed hclosed)
    · exact htrue.trans hopen
    · exact hmerge.trans (hrest closed hclosed)
  | ifThenElse condition onTrue onFalse merge first second next ihfirst ihsecond ih =>
    simp only [split, List.mem_cons, List.mem_append] at hsub
    have hhead := hsub _ (Or.inl rfl)
    obtain ⟨hfirst, hopen⟩ := ihfirst ⟨onTrue, []⟩ fun closed h => hsub closed (by grind)
    obtain ⟨hsecond, hopen'⟩ := ihsecond ⟨onFalse, []⟩ fun closed h => hsub closed (by grind)
    obtain ⟨hrest, hopen''⟩ := ih ⟨merge, []⟩ fun closed h => hsub closed (by grind)
    have htrue : Reaches blocks block.label onTrue := .single ⟨_, hhead, rfl, List.mem_cons_self⟩
    have hfalse : Reaches blocks block.label onFalse :=
      .single ⟨_, hhead, rfl, List.mem_cons_of_mem _ List.mem_cons_self⟩
    -- the merge block is reached from the end of the first arm
    have hmerge : Reaches blocks block.label merge := (htrue.trans hopen).tail
      ⟨(first.split ⟨onTrue, []⟩).2.close (.branch merge), hsub _ (by grind), rfl,
        List.mem_cons_self⟩
    refine ⟨fun closed hclosed => ?_, hmerge.trans hopen''⟩
    simp only [split, List.mem_cons, List.mem_append] at hclosed
    rcases hclosed with rfl | hclosed | rfl | hclosed | rfl | hclosed
    · exact .refl
    · exact htrue.trans (hfirst closed hclosed)
    · exact htrue.trans hopen
    · exact hfalse.trans (hsecond closed hclosed)
    · exact hfalse.trans hopen'
    · exact hmerge.trans (hrest closed hclosed)
  | loop ids body next ihbody ih =>
    simp only [split, List.mem_cons, List.mem_append] at hsub
    have hentry := hsub _ (Or.inl rfl)
    have hheader := hsub _ (Or.inr (Or.inl rfl))
    have hcheck := hsub _ (Or.inr (Or.inr (Or.inl rfl)))
    obtain ⟨hinner, hopen⟩ := ihbody ⟨ids.body, []⟩ fun closed h => hsub closed (by grind)
    obtain ⟨hrest, hopen'⟩ := ih ⟨ids.merge, []⟩ fun closed h => hsub closed (by grind)
    -- the way leads over the header and the check to the body and to the merge block
    have toHeader : Reaches blocks block.label ids.header :=
      .single ⟨_, hentry, rfl, List.mem_cons_self⟩
    have toCheck : Reaches blocks block.label ids.check :=
      toHeader.tail ⟨_, hheader, rfl, List.mem_cons_self⟩
    have toBody : Reaches blocks block.label ids.body :=
      toCheck.tail ⟨_, hcheck, rfl, List.mem_cons_self⟩
    have toMerge : Reaches blocks block.label ids.merge :=
      toCheck.tail ⟨_, hcheck, rfl, List.mem_cons_of_mem _ List.mem_cons_self⟩
    have toAdvance : Reaches blocks block.label ids.advance := (toBody.trans hopen).tail
      ⟨(body.split ⟨ids.body, []⟩).2.close (.branch ids.advance), hsub _ (by grind), rfl,
        List.mem_cons_self⟩
    refine ⟨fun closed hclosed => ?_, toMerge.trans hopen'⟩
    simp only [split, List.mem_cons, List.mem_append] at hclosed
    rcases hclosed with rfl | rfl | rfl | hclosed | rfl | rfl | hclosed
    · exact .refl
    · exact toHeader
    · exact toCheck
    · exact toBody.trans (hinner closed hclosed)
    · exact toBody.trans hopen
    · exact toAdvance
    · exact toMerge.trans (hrest closed hclosed)

/-! ### Functions -/

/-- The blocks of a function with the label `entry`, the given flow and the instruction `last` at
its end. -/
def Flow.blocks (entry : Id) (last : Instruction) (flow : Flow) : List Block :=
  let parts := flow.split ⟨entry, flow.head⟩
  parts.1 ++ [parts.2.close last]

theorem Flow.blocks_code (entry : Id) (last : Instruction) (flow : Flow) :
    (flow.blocks entry last).flatMap Block.instructions
      = .label entry :: (flow.head ++ flow.body ++ [last]) := by
  have hcode := flow.split_code ⟨entry, flow.head⟩ [last]
  simp only [blocks, List.flatMap_append, List.flatMap_cons, List.flatMap_nil, List.append_nil,
    OpenBlock.instructions_close]
  rw [hcode]
  simp only [OpenBlock.instructions, List.cons_append, List.append_assoc]

/-- The first block of a function is the one with the entry label. -/
theorem Flow.head_split (flow : Flow) (block : OpenBlock) (last : Instruction) :
    (((flow.split block).1 ++ [(flow.split block).2.close last]).map Block.label).head?
      = some block.label := by
  induction flow generalizing block with
  | done => rfl
  | instruction inst next ih => exact ih (block.add [inst])
  | localVariable inst next ih => exact ih block
  | ifThen => rfl
  | ifThenElse => rfl
  | loop => rfl

/-- The blocks form a graph that starts at `entry`: they are basic blocks, every label that is
referred to is one of theirs, every merge is guarded, and every block can be reached. -/
structure IsBlockGraph (entry : Id) (blocks : List Block) : Prop where
  basic : ∀ block ∈ blocks, block.IsBasic
  first : (blocks.map Block.label).head? = some entry
  targets : TargetsWithin (blocks.map Block.label) (blocks.flatMap Block.instructions)
  merges : MergesGuarded (blocks.flatMap Block.instructions)
  reachable : ∀ block ∈ blocks, Reaches blocks entry block.label

/-- The facts about the return `ending` that matter for blocks. -/
theorem Command.returnInstruction_facts (names : Names) (ending : Command) :
    (ending.returnInstruction names).opcode ∈ terminators ∧
      (ending.returnInstruction names).targets = [] ∧
      (ending.returnInstruction names).result = none ∧
      MergesGuarded [ending.returnInstruction names] := by
  have hempty : MergesGuarded [] := by
    intro i inst hinst
    cases hinst
  have hreturn : opReturn ∈ terminators := by decide
  have hvalue : opReturnValue ∈ terminators := by decide
  cases ending with
  | returnValue value => exact ⟨hvalue, rfl, rfl, hempty.cons opReturnValue rfl (by decide)⟩
  | _ => exact ⟨hreturn, rfl, rfl, hempty.cons opReturn rfl (by decide)⟩

theorem Flow.Plain.isBlockGraph {flow : Flow} (h : flow.Plain) (entry : Id) (names : Names)
    (ending : Command) :
    IsBlockGraph entry (flow.blocks entry (ending.returnInstruction names)) := by
  obtain ⟨hterminator, htargets, -, hguarded⟩ := ending.returnInstruction_facts names
  have hvariable : ∀ inst ∈ flow.head, inst.opcode = opVariable := by
    intro inst hinst
    obtain ⟨pointer, id, rfl⟩ := h.head inst hinst
    rfl
  obtain ⟨hclosed, hopen⟩ := h.split_basic ⟨entry, flow.head⟩ fun inst hinst =>
    Instruction.isInterior_of_opcode opVariable (by decide) (hvariable inst hinst)
  have hbasic : ∀ block ∈ flow.blocks entry (ending.returnInstruction names), block.IsBasic := by
    intro block hblock
    rcases List.mem_append.mp hblock with hblock | hblock
    · exact hclosed block hblock
    · rw [List.mem_singleton.mp hblock]
      exact ⟨hopen, hterminator⟩
  refine ⟨hbasic, flow.head_split ⟨entry, flow.head⟩ _, ?_, ?_, ?_⟩
  · -- only the flow refers to labels, and its labels are among those of the blocks
    rw [← labelsOf_blocks hbasic, flow.blocks_code]
    have hhead : ∀ labels, TargetsWithin labels flow.head := fun labels =>
      TargetsWithin.of_targets_eq fun inst hinst => Instruction.targets_of_not_structural (by
        rw [hvariable inst hinst]
        decide)
    have hentry : ∀ labels, TargetsWithin labels [.label entry] := fun labels =>
      TargetsWithin.of_targets_eq fun inst hinst => by
        rw [List.mem_singleton.mp hinst]
        rfl
    have hlast : ∀ labels, TargetsWithin labels [ending.returnInstruction names] := fun labels =>
      TargetsWithin.of_targets_eq fun inst hinst => by
        rw [List.mem_singleton.mp hinst]
        exact htargets
    refine (hentry _).append (((hhead _).append (h.targetsWithin.mono ?_)).append (hlast _))
    intro id hid
    have hcons : labelsOf (.label entry :: (flow.head ++ flow.body
        ++ [ending.returnInstruction names]))
          = entry :: labelsOf (flow.head ++ flow.body ++ [ending.returnInstruction names]) := rfl
    rw [hcons, labelsOf_append, labelsOf_append]
    exact List.mem_cons_of_mem _ (List.mem_append_left _ (List.mem_append_right _ hid))
  · -- there are no merges among the variables in front of the flow
    rw [flow.blocks_code]
    have hinsts : ∀ insts : List Instruction, (∀ inst ∈ insts, inst.opcode = opVariable) →
        MergesGuarded (insts ++ (flow.body ++ [ending.returnInstruction names])) := by
      intro insts
      induction insts with
      | nil => exact fun _ => h.mergesGuarded hguarded
      | cons inst rest ih =>
        intro hall
        exact (ih fun i hi => hall i (List.mem_cons_of_mem _ hi)).cons opVariable
          (hall inst List.mem_cons_self) (by decide)
    rw [List.append_assoc]
    exact (hinsts flow.head hvariable).cons opLabel rfl (by decide)
  · -- the entry block is the one that is open when the flow begins
    have hsub : ∀ closed ∈ (flow.split ⟨entry, flow.head⟩).1,
        closed ∈ flow.blocks entry (ending.returnInstruction names) :=
      fun closed => List.mem_append_left _
    obtain ⟨hreached, hlast⟩ := flow.reaches_split ⟨entry, flow.head⟩ hsub
    intro block hblock
    rcases List.mem_append.mp hblock with hblock | hblock
    · exact hreached block hblock
    · rw [List.mem_singleton.mp hblock]
      exact hlast

/-- The labels of a function are different. -/
theorem FunctionRun.labels_nodup {τ : Type} {name : Option String} {returnType : Option Id}
    {paramTypes : List Id} {body : Script τ} {ending : Command} {function : FunctionDef}
    {flow : Flow} {s opened closed t : Session τ}
    (run : FunctionRun name returnType paramTypes body ending function flow s opened closed t)
    (hbody : body.IsBody) (hcount : t.draft.ids.count < 4294967296) :
    (labelsOf (.label function.entry
      :: (flow.head ++ flow.body ++ [ending.returnInstruction closed.names]))).Nodup := by
  refine (labelsOf_sublist _).nodup ?_
  have hlast : resultsOf [ending.returnInstruction closed.names] = [] := by
    simp [resultsOf, (ending.returnInstruction_facts closed.names).2.2.1]
  have hcons : ∀ insts, resultsOf (.label function.entry :: insts)
      = function.entry :: resultsOf insts := fun _ => rfl
  rw [hcons, resultsOf_append, hlast, List.append_nil]
  exact run.results_nodup hbody hcount

/-- **A function is a well-formed block graph.** Defining a function by a body of statements
that ends with a return succeeds, as long as its instructions are small enough and the
declarations in its body succeed.  What is added to the function definitions are the
declarations of the function and its parameters, basic blocks that hold the instructions
of the statements, and the end of the function.  The blocks form a graph that starts at
the entry block, and their labels are different when the supply of ids has not started
over. -/
theorem blocks_of_defineFunction {τ : Type} (s : Session τ) (body : Script τ)
    (hbody : body.IsBody) (ending : Command) (hending : ending.IsReturn) (mark : Mark τ)
    (bound name : Option String) (returnType : Option Id) (paramTypes : List Id)
    (hname : ∀ text, name = some text → (textWords text).length ≤ 65533)
    (hparams : paramTypes.length ≤ 65532)
    (hdecl : body.DeclarationsSucceed
      (after (Run.enterFunction bound name returnType paramTypes) s)) :
    ∃ function t, (Build.defineFunction name returnType paramTypes fun function => do
        Run.bindParams bound function
        (body.append (.command mark ending .done)).run false : Run τ FunctionDef) s
          = .ok function t ∧
      ∃ flow names blocks,
        body.Resolves (after (Run.enterFunction bound name returnType paramTypes) s).names flow
          names ∧
        blocks.flatMap Block.instructions = .label function.entry
          :: (flow.head ++ flow.body ++ [ending.returnInstruction names]) ∧
        t.draft.layout.instructions .functionDefinitions
          = s.draft.layout.instructions .functionDefinitions ++ (function.prologue
            ++ blocks.flatMap Block.instructions ++ [.functionEnd]) ∧
        IsBlockGraph function.entry blocks ∧
        (t.draft.ids.count < 4294967296 → (blocks.map Block.label).Nodup) := by
  obtain ⟨function, t, hrun, flow, closed, run⟩ :=
    defineFunction_writes s hbody hending mark bound returnType hname hparams hdecl
  have hplain := run.resolves.plain hbody
  have hgraph := hplain.isBlockGraph function.entry closed.names ending
  have hcode := flow.blocks_code function.entry (ending.returnInstruction closed.names)
  refine ⟨function, t, hrun, flow, closed.names, _, run.resolves, hcode, ?_,
    hgraph, fun hcount => ?_⟩
  · rw [run.functionDefinitions, hcode]
    simp only [List.append_assoc, List.cons_append, List.nil_append]
  · rw [← labelsOf_blocks hgraph.basic, hcode]
    exact run.labels_nodup hbody hcount

/-- A selection with a variable in one of its arms, inside a loop. -/
def choiceInLoop : Script Unit :=
  .command ⟨(), some "bool", false⟩ .boolType
    (.countedLoop ⟨(), some "i", false⟩ 3
      (.command ⟨(), some "c", false⟩
        (.emitBody opSLessThan (.named "bool") (.append (.id (.named "i")) (.id (.named "i"))))
        (.ifThenElse ⟨(), none, false⟩ (.named "c")
          (.command ⟨(), some "v", false⟩ (.localVariable (.named "bool")) .done)
          (.command ⟨(), none, false⟩ (.store (.named "v") (.named "c")) .done)
          .done))
      .done)

theorem blocks_of_defineFunction_choiceInLoop :
    ∃ function t, (Build.defineFunction (some "f") none [] fun function => do
        Run.bindParams none function
        (choiceInLoop.append (.command ⟨(), none, false⟩ .returnVoid .done)).run false
          : Run Unit FunctionDef) {} = .ok function t ∧ t.draft.ids.count = 26 ∧
      ∃ blocks, t.draft.layout.instructions .functionDefinitions
          = function.prologue ++ blocks.flatMap Block.instructions ++ [.functionEnd] ∧
        IsBlockGraph function.entry blocks ∧ (blocks.map Block.label).Nodup := by
  have hbody : choiceInLoop.IsBody := by
    refine ⟨trivial, ⟨⟨by decide, fun names => ?_⟩, ⟨trivial, trivial⟩, ⟨trivial, trivial⟩,
      trivial⟩, trivial⟩
    simp [Operand.words]
  have hdecl : ∀ s : Session Unit, choiceInLoop.DeclarationsSucceed s := by
    intro s
    refine ⟨fun _ => ?_, ⟨⟨fun h => h.elim, ⟨fun h => h.elim, trivial⟩,
      ⟨fun h => h.elim, trivial⟩, trivial⟩, trivial⟩⟩
    obtain ⟨id, d, hrun, -⟩ := boolType_succeeds s.draft
    exact ⟨.id id, d, bind_of_ok hrun⟩
  obtain ⟨function, t, hrun, flow, names, blocks, -, -, hwritten, hgraph, hnodup⟩ :=
    blocks_of_defineFunction {} choiceInLoop hbody .returnVoid trivial ⟨(), none, false⟩ none
      (some "f") none [] (by rintro text ⟨⟩; decide) (by simp) (hdecl _)
  have hcount : (after (Build.defineFunction (some "f") none [] fun function => do
        Run.bindParams none function
        (choiceInLoop.append (.command ⟨(), none, false⟩ .returnVoid .done)).run false
          : Run Unit FunctionDef) {}).draft.ids.count = 26 := by
    decide +kernel
  rw [after_of_ok hrun] at hcount
  refine ⟨function, t, hrun, hcount, blocks, ?_, hgraph, hnodup (by omega)⟩
  rw [hwritten]
  rfl

end SpirvBinary
