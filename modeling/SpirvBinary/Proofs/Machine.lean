import Mathlib.Logic.Function.Basic
import Mathlib.Logic.Relation
import SpirvBinary.Proofs.Blocks

/-!
# Executing a function

A machine that executes the instructions of a function block by block.  Jumps, merges, reads
and writes of the function's variables, comparisons and sums of signed numbers of 32 bits
have the meaning of the instruction set.  All other instructions may mean anything, as long
as they give a value to no id but their own result.  What they do to variables and to
the world outside of the function is up to a `Meaning`.

A machine has a list of instructions that are watched, and keeps a record of the states in
which it performed them.

## Main definitions

* `State` — what ids and variables hold.
* `Meaning` — what instructions without a fixed meaning do.
* `Machine.execute` — what an instruction does to a state.
* `Machine.step?` — one step of a machine.
* `Machine.Reaches` — a machine gets from one configuration to another.
-/

namespace SpirvBinary

open Opcode

/-! ### States -/

/-- What an id or a variable can hold.  Contents in `κ` are for the instructions without a fixed
meaning. -/
inductive Value (κ : Type) where
  /-- A signed number of 32 bits. -/
  | int (number : Int32)
  /-- A truth value. -/
  | flag (truth : Bool)
  /-- Anything else. -/
  | other (content : κ)
  deriving DecidableEq, Repr

/-- A condition holds when it is the `flag` for that. -/
def Value.isTrue {κ : Type} : Value κ → Bool
  | .flag truth => truth
  | _ => false

/-- What ids and the variables of a function hold, and what the `world` is like otherwise. -/
structure State (κ ω : Type) where
  value : Id → Value κ
  /-- The contents of variables. -/
  cell : Id → Value κ
  world : ω

variable {κ ω : Type}

namespace State

/-- A state in which `id` has been given a value. -/
def assign (s : State κ ω) (id : Id) (value : Value κ) : State κ ω :=
  { s with value := Function.update s.value id value }

/-- A state in which the variable `pointer` has been written. -/
def write (s : State κ ω) (pointer : Id) (value : Value κ) : State κ ω :=
  { s with cell := Function.update s.cell pointer value }

@[simp] theorem value_assign_self (s : State κ ω) (id : Id) (value : Value κ) :
    (s.assign id value).value id = value := Function.update_self ..

theorem value_assign_of_ne {s : State κ ω} {id other : Id} {value : Value κ} (h : other ≠ id) :
    (s.assign id value).value other = s.value other := Function.update_of_ne h ..

@[simp] theorem cell_assign (s : State κ ω) (id : Id) (value : Value κ) :
    (s.assign id value).cell = s.cell := rfl

@[simp] theorem cell_write_self (s : State κ ω) (pointer : Id) (value : Value κ) :
    (s.write pointer value).cell pointer = value := Function.update_self ..

theorem cell_write_of_ne {s : State κ ω} {pointer other : Id} {value : Value κ}
    (h : other ≠ pointer) : (s.write pointer value).cell other = s.cell other :=
  Function.update_of_ne h ..

end State

/-! ### Instructions -/

/-- What the instructions without a fixed meaning do: the values of their results, the
contents of variables and the world after them. -/
structure Meaning (κ ω : Type) where
  value : Instruction → State κ ω → Value κ
  cell : Instruction → State κ ω → Id → Value κ
  world : Instruction → State κ ω → ω

/-- The state after `inst`, which has no fixed meaning. -/
def Meaning.apply (meaning : Meaning κ ω) (inst : Instruction) (s : State κ ω) : State κ ω :=
  let changed : State κ ω := ⟨s.value, meaning.cell inst s, meaning.world inst s⟩
  match inst.result with
  | some id => changed.assign id (meaning.value inst s)
  | none => changed

/-- A machine for the instructions of one function. -/
structure Machine (κ ω : Type) where
  code : List Instruction
  meaning : Meaning κ ω
  /-- The instructions of which a `Progress` keeps a record. -/
  watched : List Instruction

namespace Machine

/-- The id is a variable of the function. -/
def isVariable (m : Machine κ ω) (id : Id) : Bool :=
  m.code.any fun inst => inst.opcode = opVariable && inst.result = some id

/-- The state after an instruction with a fixed meaning: a read or write of a variable, or a
comparison or sum of two numbers. -/
def standard? (m : Machine κ ω) (inst : Instruction) (s : State κ ω) : Option (State κ ω) :=
  match inst.result, inst.operands with
  | some id, [pointer] =>
      if inst.opcode = opLoad ∧ m.isVariable ⟨pointer⟩ then some (s.assign id (s.cell ⟨pointer⟩))
      else none
  | none, [pointer, value] =>
      if inst.opcode = opStore ∧ m.isVariable ⟨pointer⟩ then
        some (s.write ⟨pointer⟩ (s.value ⟨value⟩))
      else none
  | some id, [left, right] =>
      match s.value ⟨left⟩, s.value ⟨right⟩ with
      | .int a, .int b =>
          if inst.opcode = opSLessThan then some (s.assign id (.flag (a < b)))
          else if inst.opcode = opIAdd then some (s.assign id (.int (a + b)))
          else none
      | _, _ => none
  | _, _ => none

/-- What `inst` does when it does not belong to the structure of blocks.  A variable is there from
the start, so its declaration does nothing. -/
def execute (m : Machine κ ω) (inst : Instruction) (s : State κ ω) : State κ ω :=
  if inst.opcode = opVariable then s else (m.standard? inst s).getD (m.meaning.apply inst s)

theorem execute_of_standard {m : Machine κ ω} {inst : Instruction} {s t : State κ ω}
    (hop : inst.opcode ≠ opVariable) (h : m.standard? inst s = some t) : m.execute inst s = t := by
  rw [execute, if_neg hop, h, Option.getD_some]

theorem execute_localVariable (m : Machine κ ω) (type result : Id) (s : State κ ω) :
    m.execute (.localVariable type result) s = s := if_pos rfl

theorem execute_load {m : Machine κ ω} {pointer : Id} (h : m.isVariable pointer)
    (type result : Id) (s : State κ ω) :
    m.execute (.load type result pointer) s = s.assign result (s.cell pointer) :=
  execute_of_standard (by decide : opLoad ≠ opVariable) (if_pos ⟨rfl, h⟩)

theorem execute_store {m : Machine κ ω} {pointer : Id} (h : m.isVariable pointer) (value : Id)
    (s : State κ ω) : m.execute (.store pointer value) s = s.write pointer (s.value value) :=
  execute_of_standard (by decide : opStore ≠ opVariable) (if_pos ⟨rfl, h⟩)

theorem execute_lessThan {m : Machine κ ω} {left right : Id} {a b : Int32} {s : State κ ω}
    (ha : s.value left = .int a) (hb : s.value right = .int b) (type result : Id) :
    m.execute (.typed opSLessThan type result [left.word, right.word]) s
      = s.assign result (.flag (a < b)) := by
  refine execute_of_standard (by decide : opSLessThan ≠ opVariable) ?_
  simp only [standard?, Instruction.typed, ha, hb, if_pos]

theorem execute_add {m : Machine κ ω} {left right : Id} {a b : Int32} {s : State κ ω}
    (ha : s.value left = .int a) (hb : s.value right = .int b) (type result : Id) :
    m.execute (.typed opIAdd type result [left.word, right.word]) s
      = s.assign result (.int (a + b)) := by
  refine execute_of_standard (by decide : opIAdd ≠ opVariable) ?_
  simp only [standard?, Instruction.typed, ha, hb, if_pos,
    if_neg (by decide : opIAdd ≠ opSLessThan)]

/-- What an instruction with a fixed meaning does: it `assign`s a value to its result or `write`s a
variable. -/
theorem standard?_cases {m : Machine κ ω} {inst : Instruction} {s t : State κ ω}
    (h : m.standard? inst s = some t) :
    (∃ id value, inst.result = some id ∧ t = s.assign id value) ∨
      ∃ pointer value, inst.opcode = opStore ∧ t = s.write pointer value := by
  simp only [standard?] at h
  split at h
  · split at h
    · cases h
      exact Or.inl ⟨_, _, by assumption, rfl⟩
    · cases h
  · split at h
    · rename_i hstore
      cases h
      exact Or.inr ⟨_, _, hstore.1, rfl⟩
    · cases h
  · split at h
    · split at h
      · cases h
        exact Or.inl ⟨_, _, by assumption, rfl⟩
      · split at h
        · cases h
          exact Or.inl ⟨_, _, by assumption, rfl⟩
        · cases h
    · cases h
  · cases h

/-- An instruction gives a value to no id but its result. -/
theorem value_execute (m : Machine κ ω) {inst : Instruction} {id : Id}
    (h : inst.result ≠ some id) (s : State κ ω) : (m.execute inst s).value id = s.value id := by
  have hassign : ∀ (t : State κ ω) (result : Id) (value : Value κ), inst.result = some result →
      (t.assign result value).value id = t.value id := by
    intro t result value hresult
    refine State.value_assign_of_ne fun heq => h ?_
    rw [hresult, heq]
  rw [execute]
  split
  · rfl
  · cases ht : m.standard? inst s with
    | none =>
      cases hresult : inst.result with
      | none => simp only [Option.getD_none, Meaning.apply, hresult]
      | some result =>
        simp only [Option.getD_none, Meaning.apply, hresult, hassign _ result _ hresult]
    | some t =>
      rcases standard?_cases ht with ⟨result, value, hresult, rfl⟩ | ⟨pointer, value, -, rfl⟩
      · exact hassign s result value hresult
      · rfl

/-- An instruction other than `OpStore` keeps the variables when its meaning does. -/
theorem cell_execute (m : Machine κ ω) {inst : Instruction} {s : State κ ω}
    (hop : inst.opcode ≠ opStore) (hmeaning : m.meaning.cell inst s = s.cell) :
    (m.execute inst s).cell = s.cell := by
  rw [execute]
  split
  · rfl
  · cases ht : m.standard? inst s with
    | none =>
      cases hresult : inst.result with
      | none => simp only [Option.getD_none, Meaning.apply, hresult, hmeaning]
      | some result =>
        simp only [Option.getD_none, Meaning.apply, hresult, State.cell_assign, hmeaning]
    | some t =>
      rcases standard?_cases ht with ⟨result, value, -, rfl⟩ | ⟨pointer, value, hstore, -⟩
      · rfl
      · exact absurd hstore hop

end Machine

/-! ### Steps -/

/-- A state, and a `trace` of what has happened so far: the watched instructions that have been
performed, each with the state it was performed in. -/
structure Progress (κ ω : Type) where
  state : State κ ω
  trace : List (Instruction × State κ ω) := []

/-- Where a machine stands: the instructions in front of it, and what lies behind it. -/
structure Config (κ ω : Type) where
  rest : List Instruction
  progress : Progress κ ω

/-- The instructions behind the label `target`. -/
def afterLabel (target : Id) : List Instruction → Option (List Instruction)
  | [] => none
  | inst :: rest =>
      if inst.opcode = opLabel ∧ inst.result = some target then some rest
      else afterLabel target rest

theorem afterLabel_append {target : Id} {before : List Instruction}
    (h : target ∉ labelsOf before) (rest : List Instruction) :
    afterLabel target (before ++ .label target :: rest) = some rest := by
  induction before with
  | nil => exact if_pos ⟨rfl, rfl⟩
  | cons inst before ih =>
    have hne : ¬ (inst.opcode = opLabel ∧ inst.result = some target) := by
      rintro ⟨hlabel, hresult⟩
      exact h (List.mem_filterMap.mpr ⟨inst, List.mem_cons_self, by rw [if_pos hlabel, hresult]⟩)
    rw [List.cons_append, afterLabel, if_neg hne]
    refine ih fun hmem => h ?_
    rw [← List.singleton_append, labelsOf_append]
    exact List.mem_append_right _ hmem

namespace Machine

/-- Executes an instruction and records it. -/
def observe (m : Machine κ ω) (inst : Instruction) (p : Progress κ ω) : Progress κ ω :=
  ⟨m.execute inst p.state, p.trace ++ [(inst, p.state)]⟩

/-- Executes an instruction, and records it when it is watched. -/
def perform (m : Machine κ ω) (inst : Instruction) (p : Progress κ ω) : Progress κ ω :=
  if inst ∈ m.watched then m.observe inst p else ⟨m.execute inst p.state, p.trace⟩

/-- Where a machine goes on after `inst`, which belongs to the structure of blocks.  At a return it
does not go on. -/
def follow? (m : Machine κ ω) (inst : Instruction) (rest : List Instruction) (s : State κ ω) :
    Option (List Instruction) :=
  if inst.opcode = opBranch then
    match inst.operands with
    | [target] => afterLabel ⟨target⟩ m.code
    | _ => none
  else if inst.opcode = opBranchConditional then
    match inst.operands with
    | [condition, onTrue, onFalse] =>
        afterLabel (if (s.value ⟨condition⟩).isTrue then ⟨onTrue⟩ else ⟨onFalse⟩) m.code
    | _ => none
  else if inst.opcode = opSelectionMerge ∨ inst.opcode = opLoopMerge then some rest
  else none

/-- One step of a machine. -/
def step? (m : Machine κ ω) : Config κ ω → Option (Config κ ω)
  | ⟨[], _⟩ => none
  | ⟨inst :: rest, p⟩ =>
      if inst.opcode ∈ structural then (m.follow? inst rest p.state).map (⟨·, p⟩)
      else some ⟨rest, m.perform inst p⟩

/-- A machine gets from one configuration to another by `step?`. -/
def Reaches (m : Machine κ ω) : Config κ ω → Config κ ω → Prop :=
  Relation.ReflTransGen fun c c' => m.step? c = some c'

/-- A machine starts in the first block of its function. -/
def start (m : Machine κ ω) (s : State κ ω) : Config κ ω :=
  ⟨(m.code.dropWhile fun inst => inst.opcode ≠ opLabel).tail, ⟨s, []⟩⟩

namespace Reaches

variable {m : Machine κ ω} {rest : List Instruction} {p : Progress κ ω} {c : Config κ ω}

theorem observe {inst : Instruction} (hinst : inst.opcode ∉ Opcode.structural)
    (hwatched : inst ∈ m.watched) (h : m.Reaches ⟨rest, m.observe inst p⟩ c) :
    m.Reaches ⟨inst :: rest, p⟩ c := by
  refine .head ?_ h
  rw [step?, if_neg hinst, perform, if_pos hwatched]

theorem silent {inst : Instruction} (hinst : inst.opcode ∉ Opcode.structural)
    (hwatched : inst ∉ m.watched) (h : m.Reaches ⟨rest, ⟨m.execute inst p.state, p.trace⟩⟩ c) :
    m.Reaches ⟨inst :: rest, p⟩ c := by
  refine .head ?_ h
  rw [step?, if_neg hinst, perform, if_neg hwatched]

theorem structural {inst : Instruction} {rest' : List Instruction}
    (hinst : inst.opcode ∈ Opcode.structural) (hfollow : m.follow? inst rest p.state = some rest')
    (h : m.Reaches ⟨rest', p⟩ c) : m.Reaches ⟨inst :: rest, p⟩ c := by
  refine .head ?_ h
  rw [step?, if_pos hinst, hfollow, Option.map_some]

theorem branch {target : Id} {rest' : List Instruction}
    (hjump : afterLabel target m.code = some rest') (h : m.Reaches ⟨rest', p⟩ c) :
    m.Reaches ⟨.branch target :: rest, p⟩ c :=
  structural (by decide : opBranch ∈ Opcode.structural) hjump h

theorem branchConditional {condition onTrue onFalse : Id} {rest' : List Instruction}
    (hjump : afterLabel (if (p.state.value condition).isTrue then onTrue else onFalse) m.code
      = some rest') (h : m.Reaches ⟨rest', p⟩ c) :
    m.Reaches ⟨.branchConditional condition onTrue onFalse :: rest, p⟩ c :=
  structural (by decide : opBranchConditional ∈ Opcode.structural) hjump h

theorem selectionMerge {merge : Id} (h : m.Reaches ⟨rest, p⟩ c) :
    m.Reaches ⟨.selectionMerge merge :: rest, p⟩ c :=
  structural (by decide : opSelectionMerge ∈ Opcode.structural) rfl h

theorem loopMerge {merge advance : Id} (h : m.Reaches ⟨rest, p⟩ c) :
    m.Reaches ⟨.loopMerge merge advance :: rest, p⟩ c :=
  structural (by decide : opLoopMerge ∈ Opcode.structural) rfl h

end Reaches

/-- The label `target` in front of `rest`, in code with different labels, leads to `rest`. -/
theorem afterLabel_code {m : Machine κ ω} (hlabels : (labelsOf m.code).Nodup) {target : Id}
    (before : List Instruction) {rest : List Instruction}
    (h : before ++ .label target :: rest <:+ m.code) :
    afterLabel target m.code = some rest := by
  obtain ⟨first, hcode⟩ := h
  rw [← hcode, ← List.append_assoc] at hlabels ⊢
  refine afterLabel_append (fun hmem => ?_) rest
  have hlabel : target ∈ labelsOf (.label target :: rest) := List.mem_cons_self
  rw [labelsOf_append] at hlabels
  exact (List.nodup_append.mp hlabels).2.2 target hmem target hlabel rfl

end Machine

end SpirvBinary
