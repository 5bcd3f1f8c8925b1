import Mathlib.Data.Finset.Card
import Mathlib.Data.List.Dedup
import SpirvBinary.Proofs.DeclaredOnce
import SpirvBinary.Registry

/-!
# The registry of declarations as a log of insertions

Inserting a key into an ordered map again replaces its value and makes it the newest key.  So
all that a map can be asked is a question about the log of its insertions: a key has the value
of its last insertion, and the entries are those last insertions, in the order in which they
were made.

The registry consists of two such maps, which are filled and asked in any order.  What is
inserted depends on the steps alone, since the ids that are handed out are numbered from one.
After any steps, whatever follows them, the next one is answered from the two logs.

## Main definitions

* `LastAt` — an entry is the last one of its key in a log, and where it stands.
* `latest` — the last entries of all keys of a log.
* `OrderedMap.Records` — a map holds the last entries of a log.
* `RegistryStep.typeLog`, `RegistryStep.structLog` — what steps insert.
* `Follows` — a draft has the ids and the known declarations that steps leave.

## Main results

* `OrderedMap.Records.insert` — an insertion is one more entry of the log.
* `Follows.step` — every step adds to the logs what it inserts.
* `registry_refines_log` — **the registry answers from the logs of its insertions.**
-/

namespace SpirvBinary

/-! ### Last entries -/

section Logs

variable {κ ν : Type}

/-- The `entry` stands in `log` at the index `place`, and no entry at a later index has its key. -/
def LastAt (log : List (κ × ν)) (place : Nat) (entry : κ × ν) : Prop :=
  log[place]? = some entry ∧ entry.1 ∉ (log.drop (place + 1)).map Prod.fst

variable {log : List (κ × ν)} {first entry : κ × ν} {place : Nat}

@[simp] theorem not_lastAt_nil : ¬ LastAt ([] : List (κ × ν)) place entry := by
  simp [LastAt]

@[simp] theorem lastAt_cons_zero :
    LastAt (first :: log) 0 entry ↔ first = entry ∧ entry.1 ∉ log.map Prod.fst := by
  simp [LastAt]

@[simp] theorem lastAt_cons_succ :
    LastAt (first :: log) (place + 1) entry ↔ LastAt log place entry := by
  simp [LastAt]

/-- The entry `first` in front of a log is a last one if its key is not in the log; the others are
the last ones of the log. -/
theorem exists_lastAt_cons :
    (∃ place, LastAt (first :: log) place entry) ↔
      (first = entry ∧ entry.1 ∉ log.map Prod.fst) ∨ ∃ place, LastAt log place entry := by
  constructor
  · rintro ⟨place, h⟩
    cases place with
    | zero => exact .inl (lastAt_cons_zero.mp h)
    | succ place => exact .inr ⟨place, lastAt_cons_succ.mp h⟩
  · rintro (h | ⟨place, h⟩)
    · exact ⟨0, lastAt_cons_zero.mpr h⟩
    · exact ⟨place + 1, lastAt_cons_succ.mpr h⟩

variable [DecidableEq κ]

/-- The last entries of all keys, in the order of the log. -/
def latest : List (κ × ν) → List (κ × ν)
  | [] => []
  | entry :: later =>
      if entry.1 ∈ later.map Prod.fst then latest later else entry :: latest later

/-- Of each key there is one last entry, and they are ordered by it. -/
theorem keys_latest (log : List (κ × ν)) :
    (latest log).map Prod.fst = (log.map Prod.fst).dedup := by
  induction log with
  | nil => rfl
  | cons entry later ih =>
    by_cases h : entry.1 ∈ later.map Prod.fst
    · rw [latest, if_pos h, List.map_cons, List.dedup_cons_of_mem h, ih]
    · rw [latest, if_neg h, List.map_cons, List.map_cons, List.dedup_cons_of_notMem h, ih]

theorem mem_latest_iff : entry ∈ latest log ↔ ∃ place, LastAt log place entry := by
  induction log with
  | nil => simp [latest]
  | cons first later ih =>
    rw [exists_lastAt_cons, ← ih, latest]
    by_cases h : first.1 ∈ later.map Prod.fst
    · -- the first entry is followed by another one of its key
      have hfirst : ¬ (first = entry ∧ entry.1 ∉ later.map Prod.fst) := by
        rintro ⟨rfl, hlast⟩
        exact hlast h
      rw [if_pos h]
      simp only [hfirst, false_or]
    · have hfirst : (first = entry ∧ entry.1 ∉ later.map Prod.fst) ↔ entry = first := by
        constructor
        · rintro ⟨rfl, -⟩
          rfl
        · rintro rfl
          exact ⟨rfl, h⟩
      rw [if_neg h, List.mem_cons, hfirst]

/-- The list `latest` is ordered by the places of its entries in the log. -/
theorem pairwise_latest (log : List (κ × ν)) :
    (latest log).Pairwise fun a b => ∃ i j, i < j ∧ LastAt log i a ∧ LastAt log j b := by
  induction log with
  | nil => exact .nil
  | cons first later ih =>
    have hlater : (latest later).Pairwise fun a b =>
        ∃ i j, i < j ∧ LastAt (first :: later) i a ∧ LastAt (first :: later) j b := by
      refine ih.imp ?_
      rintro a b ⟨i, j, hij, ha, hb⟩
      exact ⟨i + 1, j + 1, by omega, lastAt_cons_succ.mpr ha, lastAt_cons_succ.mpr hb⟩
    by_cases hfirst : first.1 ∈ later.map Prod.fst
    · rwa [latest, if_pos hfirst]
    · rw [latest, if_neg hfirst]
      refine .cons (fun b hb => ?_) hlater
      obtain ⟨j, hj⟩ := mem_latest_iff.mp hb
      exact ⟨0, j + 1, by omega, lastAt_cons_zero.mpr ⟨rfl, hfirst⟩, lastAt_cons_succ.mpr hj⟩

/-- The entry `new` at the end of a log takes the place of the last one of its key. -/
theorem latest_snoc (log : List (κ × ν)) (new : κ × ν) :
    latest (log ++ [new]) = (latest log).filter (fun entry => entry.1 ≠ new.1) ++ [new] := by
  induction log with
  | nil => rfl
  | cons first later ih =>
    rw [List.cons_append, latest, latest, ih]
    by_cases hnew : first.1 = new.1
    · -- the first entry is no longer a last one, and it is dropped if it was
      rw [if_pos (by simp [hnew])]
      split
      · rfl
      · rw [List.filter_cons_of_neg (by simpa using hnew)]
    · have hmem : first.1 ∈ (later ++ [new]).map Prod.fst ↔ first.1 ∈ later.map Prod.fst := by
        simp [hnew]
      by_cases hlater : first.1 ∈ later.map Prod.fst
      · rw [if_pos (hmem.mpr hlater), if_pos hlater]
      · rw [if_neg (mt hmem.mp hlater), if_neg hlater,
          List.filter_cons_of_pos (by simpa using hnew), List.cons_append]

end Logs

/-! ### Maps that record a log -/

namespace OrderedMap

variable {κ ν : Type} [DecidableEq κ] {map : OrderedMap κ ν} {log : List (κ × ν)} {key : κ}

/-- The entries of `map` are the `latest` ones of `log`. -/
def Records (map : OrderedMap κ ν) (log : List (κ × ν)) : Prop := map.toList = latest log

/-- Inserts an entry, if there is one. -/
def insert? (map : OrderedMap κ ν) : Option (κ × ν) → OrderedMap κ ν
  | some entry => map.insert entry.1 entry.2
  | none => map

namespace Records

theorem insert (h : map.Records log) (entry : κ × ν) :
    (map.insert entry.1 entry.2).Records (log ++ [entry]) := by
  rw [Records, toList_insert, latest_snoc, h]

theorem insert? (h : map.Records log) (added? : Option (κ × ν)) :
    (map.insert? added?).Records (log ++ added?.toList) := by
  cases added? with
  | none => rwa [Option.toList_none, List.append_nil]
  | some entry => exact h.insert entry

theorem keys (h : map.Records log) : map.toList.map Prod.fst = (log.map Prod.fst).dedup := by
  rw [h, keys_latest]

theorem get?_eq_some_iff (h : map.Records log) {value : ν} :
    map.get? key = some value ↔ ∃ place, LastAt log place (key, value) := by
  rw [OrderedMap.get?_eq_some_iff, h, mem_latest_iff]

theorem get?_eq_none_iff (h : map.Records log) :
    map.get? key = none ↔ key ∉ log.map Prod.fst := by
  rw [OrderedMap.get?_eq_none_iff, h.keys, List.mem_dedup]

theorem size_eq (h : map.Records log) : map.size = (log.map Prod.fst).toFinset.card := by
  rw [List.card_toFinset, ← h.keys, List.length_map, toList, List.length_reverse, size]

end Records

end OrderedMap

/-! ### What steps insert -/

/-- The key as one list of words, its opcode first. -/
def DeclarationKey.words (key : DeclarationKey) : List Word :=
  key.opcode.code.toUInt32 :: key.operands

/-- Keys with the same words have the same opcode and the same operands. -/
theorem DeclarationKey.words_eq_iff {key other : DeclarationKey} :
    key.words = other.words ↔ key.opcode = other.opcode ∧ key.operands = other.operands := by
  obtain ⟨⟨code⟩, operands⟩ := key
  obtain ⟨⟨code'⟩, operands'⟩ := other
  have hcode : code.toUInt32 = code'.toUInt32 ↔ code = code' := by
    rw [← UInt32.toNat_inj, ← UInt16.toNat_inj, UInt16.toNat_toUInt32, UInt16.toNat_toUInt32]
  simp only [words, List.cons.injEq, hcode, Opcode.mk.injEq]

namespace RegistryStep

/-- The step takes a fresh id. -/
def takesId : RegistryStep → Bool
  | .freshId | .reserveType _ | .reserveStruct _ => true
  | _ => false

/-- The type or constant that a step inserts when `taken` fresh ids have been handed out before. -/
def addedType? (taken : Nat) : RegistryStep → Option (DeclarationKey × Id)
  | .reserveType key => some (key, Id.ofNat (taken + 1))
  | .noteType key id => some (key, id)
  | _ => none

/-- The struct that a step inserts when `taken` fresh ids have been handed out before. -/
def addedStruct? (taken : Nat) : RegistryStep → Option (String × Id)
  | .reserveStruct name => some (name, Id.ofNat (taken + 1))
  | .noteStruct name id => some (name, id)
  | _ => none

/-- What steps insert when `taken` fresh ids have been handed out before; `added?` says it of each
step. -/
def logAfter {κ : Type} (added? : Nat → RegistryStep → Option (κ × Id)) (taken : Nat) :
    List RegistryStep → List (κ × Id)
  | [] => []
  | step :: rest =>
      (added? taken step).toList ++ logAfter added? (taken + step.takesId.toNat) rest

/-- The types and constants that steps insert, in order. -/
def typeLog (steps : List RegistryStep) : List (DeclarationKey × Id) := logAfter addedType? 0 steps

/-- The structs that steps insert, in order. -/
def structLog (steps : List RegistryStep) : List (String × Id) := logAfter addedStruct? 0 steps

theorem logAfter_snoc {κ : Type} (added? : Nat → RegistryStep → Option (κ × Id)) (taken : Nat)
    (steps : List RegistryStep) (step : RegistryStep) :
    logAfter added? taken (steps ++ [step])
      = logAfter added? taken steps ++ (added? (taken + steps.countP takesId) step).toList := by
  induction steps generalizing taken with
  | nil => simp [logAfter]
  | cons first rest ih =>
    have htaken : taken + first.takesId.toNat + rest.countP takesId
        = taken + (first :: rest).countP takesId := by
      rw [List.countP_cons]
      cases first.takesId
      · simp
      · simp only [Bool.toNat_true, if_true]
        omega
    rw [List.cons_append, logAfter, logAfter, ih, htaken, List.append_assoc]

/-! ### What steps do -/

/-- The answer of a step. -/
def outcome (step : RegistryStep) (d : Draft) : Except Fault RegistryAnswer :=
  match step.perform d with
  | .ok answer _ => .ok answer
  | .error fault _ => .error fault

/-- The draft that `steps` leave when they start from `d`. -/
def draftAfter (d : Draft) (steps : List RegistryStep) : Draft :=
  steps.foldl (fun d step => after step.perform d) d

theorem performAfter_cons (answers : List (Except Fault RegistryAnswer)) (d : Draft)
    (step : RegistryStep) (rest : List RegistryStep) :
    performAfter answers d (step :: rest)
      = performAfter (step.outcome d :: answers) (after step.perform d) rest := by
  rw [performAfter, outcome, after]
  cases step.perform d <;> rfl

theorem performAfter_snd (answers : List (Except Fault RegistryAnswer)) (d : Draft)
    (steps : List RegistryStep) : (performAfter answers d steps).2 = draftAfter d steps := by
  induction steps generalizing answers d with
  | nil => rfl
  | cons step rest ih =>
    rw [performAfter_cons, ih]
    rfl

/-- The `answers` that have been given stay. -/
theorem prefix_performAfter (answers : List (Except Fault RegistryAnswer)) (d : Draft)
    (steps : List RegistryStep) : answers.reverse <+: (performAfter answers d steps).1 := by
  induction steps generalizing answers d with
  | nil => exact List.prefix_refl _
  | cons step rest ih =>
    rw [performAfter_cons]
    refine List.IsPrefix.trans ?_ (ih _ _)
    rw [List.reverse_cons]
    exact List.prefix_append _ _

/-- A `step` is answered from the draft that the steps `before` it leave. -/
theorem answer_performAfter (answers : List (Except Fault RegistryAnswer)) (d : Draft)
    (before : List RegistryStep) (step : RegistryStep) (rest : List RegistryStep) :
    (performAfter answers d (before ++ step :: rest)).1[answers.length + before.length]?
      = some (step.outcome (draftAfter d before)) := by
  induction before generalizing answers d with
  | nil =>
    rw [List.nil_append, performAfter_cons]
    obtain ⟨more, hmore⟩ :=
      prefix_performAfter (step.outcome d :: answers) (after step.perform d) rest
    rw [← hmore, List.reverse_cons, List.append_assoc]
    simp [draftAfter]
  | cons first before ih =>
    have hplace : answers.length + (first :: before).length
        = (first.outcome d :: answers).length + before.length := by
      simp only [List.length_cons]
      omega
    rw [List.cons_append, performAfter_cons, hplace, ih]
    rfl

theorem answer_performAll (before : List RegistryStep) (step : RegistryStep)
    (rest : List RegistryStep) :
    (performAll (before ++ step :: rest)).1[before.length]?
      = some (step.outcome (draftAfter {} before)) := by
  have h := answer_performAfter [] {} before step rest
  rwa [List.length_nil, Nat.zero_add] at h

/-- What a `step` does to the ids and the known declarations of the draft `d`. -/
theorem after_perform (step : RegistryStep) (d : Draft) :
    (after step.perform d).ids.count = d.ids.count + step.takesId.toNat ∧
      (after step.perform d).known.types = d.known.types.insert? (step.addedType? d.ids.count) ∧
      (after step.perform d).known.structs
        = d.known.structs.insert? (step.addedStruct? d.ids.count) := by
  cases step with
  | freshId | reserveType key | noteType key id | findStruct name | reserveStruct name
  | noteStruct name id | structList | gauge => exact ⟨rfl, rfl, rfl⟩
  | findType key =>
    cases h : d.known.type? key with
    | none =>
      rw [perform, after_bind_of_ok (Build.findType_of_unknown h)]
      exact ⟨rfl, rfl, rfl⟩
    | some id =>
      rw [perform, after_bind_of_ok (Build.findType_of_known h)]
      exact ⟨rfl, rfl, rfl⟩
  | structType name =>
    cases h : d.known.struct? name with
    | none =>
      rw [perform, after_bind_of_error (Build.structType_of_unknown h)]
      exact ⟨rfl, rfl, rfl⟩
    | some id =>
      rw [perform, after_bind_of_ok (Build.structType_of_known h)]
      exact ⟨rfl, rfl, rfl⟩

end RegistryStep

open RegistryStep

/-- The draft `d` is what `steps` leave, as far as ids and known declarations are concerned. -/
structure Follows (steps : List RegistryStep) (d : Draft) : Prop where
  taken : d.ids.count = steps.countP takesId
  types : d.known.types.Records (typeLog steps)
  structs : d.known.structs.Records (structLog steps)

namespace Follows

variable {steps : List RegistryStep} {d : Draft}

/-- Another `step` adds to the logs what it inserts. -/
theorem step (h : Follows steps d) (step : RegistryStep) :
    Follows (steps ++ [step]) (after step.perform d) := by
  obtain ⟨hids, htypes, hstructs⟩ := after_perform step d
  refine ⟨?_, ?_, ?_⟩
  · rw [hids, h.taken, List.countP_append, List.countP_singleton]
    cases step.takesId <;> rfl
  · rw [htypes, typeLog, logAfter_snoc, Nat.zero_add, ← h.taken]
    exact h.types.insert? _
  · rw [hstructs, structLog, logAfter_snoc, Nat.zero_add, ← h.taken]
    exact h.structs.insert? _

theorem draftAfter (steps : List RegistryStep) : Follows steps (draftAfter {} steps) := by
  induction steps using List.reverseRecOn with
  | nil => exact ⟨rfl, rfl, rfl⟩
  | append_singleton steps last ih =>
    rw [RegistryStep.draftAfter, List.foldl_append]
    exact ih.step last

end Follows

/-! ### Answers -/

namespace RegistryStep

variable {d : Draft}

theorem outcome_findType (key : DeclarationKey) (d : Draft) :
    (findType key).outcome d = .ok (.found (d.known.type? key)) := by
  cases h : d.known.type? key with
  | none =>
    rw [outcome, perform, bind_of_ok (Build.findType_of_unknown h)]
    rfl
  | some id =>
    rw [outcome, perform, bind_of_ok (Build.findType_of_known h)]
    rfl

theorem outcome_structType_of_known {name : String} {id : Id}
    (h : d.known.struct? name = some id) : (structType name).outcome d = .ok (.id id) := by
  rw [outcome, perform, bind_of_ok (Build.structType_of_known h)]
  rfl

theorem outcome_structType_of_unknown {name : String} (h : d.known.struct? name = none) :
    (structType name).outcome d = .error (.unknownStruct name) := by
  rw [outcome, perform, bind_of_error (Build.structType_of_unknown h)]

end RegistryStep

namespace Follows

variable {steps : List RegistryStep} {d : Draft}

/-- A type or constant is found under the id of the last insertion with its `key`. -/
theorem findType (h : Follows steps d) (key : DeclarationKey) :
    ∃ found, (RegistryStep.findType key).outcome d = .ok (.found found) ∧
      (∀ id, found = some id ↔ ∃ place, LastAt (typeLog steps) place (key, id)) ∧
      (found = none ↔ key ∉ (typeLog steps).map Prod.fst) :=
  ⟨d.known.type? key, outcome_findType key d, fun _ => h.types.get?_eq_some_iff,
    h.types.get?_eq_none_iff⟩

/-- A struct is found under the id of the last insertion with its `name`. -/
theorem findStruct (h : Follows steps d) (name : String) :
    ∃ found, (RegistryStep.findStruct name).outcome d = .ok (.found found) ∧
      (∀ id, found = some id ↔ ∃ place, LastAt (structLog steps) place (name, id)) ∧
      (found = none ↔ name ∉ (structLog steps).map Prod.fst) :=
  ⟨d.known.struct? name, rfl, fun _ => h.structs.get?_eq_some_iff, h.structs.get?_eq_none_iff⟩

/-- A struct that must be there is missed exactly when it was never inserted. -/
theorem structType (h : Follows steps d) (name : String) :
    ((RegistryStep.structType name).outcome d = .error (.unknownStruct name) ↔
        name ∉ (structLog steps).map Prod.fst) ∧
      ∀ id, (RegistryStep.structType name).outcome d = .ok (.id id) ↔
        ∃ place, LastAt (structLog steps) place (name, id) := by
  rw [← h.structs.get?_eq_none_iff]
  simp only [← h.structs.get?_eq_some_iff]
  change (_ ↔ d.known.struct? name = none) ∧ ∀ id, _ ↔ d.known.struct? name = some id
  cases hfound : d.known.struct? name with
  | none => simp [outcome_structType_of_unknown hfound]
  | some other => simp [outcome_structType_of_known hfound]

/-- The structs are listed by their last insertions. -/
theorem structList (h : Follows steps d) :
    (∀ entry, entry ∈ d.known.structList ↔ ∃ place, LastAt (structLog steps) place entry) ∧
      (∀ name, (d.known.structList.map Prod.fst).count name
        = if name ∈ (structLog steps).map Prod.fst then 1 else 0) ∧
      d.known.structList.Pairwise fun a b =>
        ∃ i j, i < j ∧ LastAt (structLog steps) i a ∧ LastAt (structLog steps) j b := by
  have hlist : d.known.structList = latest (structLog steps) := h.structs
  refine ⟨fun entry => ?_, fun name => ?_, ?_⟩
  · rw [hlist, mem_latest_iff]
  · rw [hlist, keys_latest, List.count_dedup]
  · rw [hlist]
    exact pairwise_latest _

end Follows

/-- **The registry answers from the logs of its insertions.**  Whatever steps come before a
step and after it:

* a type or constant is found under the id of the last insertion with its opcode and its
  operands, and not found if there is none; written as one list of words, the opcode first,
  keys that differ in one of the two stay different;
* a struct is found under the id of its last insertion, and one that must be there is missed,
  with its name in the fault, exactly when it was never inserted;
* what is inserted under a fresh id is answered with the number of that id;
* the number of types and constants is that of the different keys inserted, and insertions of
  structs do not change it;
* each struct that was inserted is listed once, with the id of its last insertion, and the list
  is ordered by these insertions. -/
theorem registry_refines_log (before rest : List RegistryStep) :
    let answer := fun step => (performAll (before ++ step :: rest)).1[before.length]?
    let count := fun steps => (performAll steps).2.known.typeCount
    let types := typeLog before
    let structs := structLog before
    let fresh := Id.ofNat (before.countP takesId + 1)
    (∀ key other : DeclarationKey,
      key.words = other.words ↔ key.opcode = other.opcode ∧ key.operands = other.operands) ∧
    (∀ opcode operands, ∃ found,
      answer (.findType ⟨opcode, operands⟩) = some (.ok (.found found)) ∧
      (∀ id, found = some id ↔ ∃ place, LastAt types place (⟨opcode, operands⟩, id)) ∧
      (found = none ↔ ⟨opcode, operands⟩ ∉ types.map Prod.fst)) ∧
    (∀ name, ∃ found, answer (.findStruct name) = some (.ok (.found found)) ∧
      (∀ id, found = some id ↔ ∃ place, LastAt structs place (name, id)) ∧
      (found = none ↔ name ∉ structs.map Prod.fst)) ∧
    (∀ name,
      (answer (.structType name) = some (.error (.unknownStruct name)) ↔
        name ∉ structs.map Prod.fst) ∧
      ∀ id, answer (.structType name) = some (.ok (.id id)) ↔
        ∃ place, LastAt structs place (name, id)) ∧
    (∀ key, answer (.reserveType key) = some (.ok (.id fresh))) ∧
    (∀ name, answer (.reserveStruct name) = some (.ok (.id fresh))) ∧
    (∃ gauge, answer .gauge = some (.ok (.gauge gauge)) ∧ gauge.types = count before ∧
      gauge.types = (types.map Prod.fst).toFinset.card) ∧
    (∀ name id, count (before ++ [.noteStruct name id]) = count before ∧
      count (before ++ [.reserveStruct name]) = count before) ∧
    ∃ list, answer .structList = some (.ok (.structs list)) ∧
      (∀ entry, entry ∈ list ↔ ∃ place, LastAt structs place entry) ∧
      (∀ name, (list.map Prod.fst).count name = if name ∈ structs.map Prod.fst then 1 else 0) ∧
      list.Pairwise fun a b => ∃ i j, i < j ∧ LastAt structs i a ∧ LastAt structs j b := by
  intro answer count types structs fresh
  have hanswer : ∀ step, answer step = some (step.outcome (draftAfter {} before)) :=
    fun step => answer_performAll before step rest
  have hcount : ∀ steps, count steps = (draftAfter {} steps).known.typeCount := by
    intro steps
    simp only [count, performAll, performAfter_snd]
  have hfollows := Follows.draftAfter before
  have hfresh : (draftAfter {} before).ids.next = fresh := by
    rw [IdSupply.next, hfollows.taken]
  simp only [hanswer, hcount, Option.some.injEq]
  refine ⟨fun _ _ => DeclarationKey.words_eq_iff, fun _ _ => hfollows.findType _,
    hfollows.findStruct, hfollows.structType, fun _ => ?_, fun _ => ?_, ?_, fun name id => ?_, ?_⟩
  · rw [← hfresh]
    rfl
  · rw [← hfresh]
    rfl
  · exact ⟨(draftAfter {} before).gauge, rfl, rfl, hfollows.types.size_eq⟩
  · simp only [RegistryStep.draftAfter, List.foldl_append]
    exact ⟨rfl, rfl⟩
  · exact ⟨(draftAfter {} before).known.structList, rfl, hfollows.structList⟩

/-- A struct that is inserted again is the last one of the list. -/
example :
    let steps := [.reserveStruct "Cat", .reserveStruct "Frog", .noteStruct "Cat" ⟨9⟩]
    (performAll steps).2.known.structList = [("Frog", ⟨2⟩), ("Cat", ⟨9⟩)] := by
  decide

end SpirvBinary
