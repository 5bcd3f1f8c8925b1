import Mathlib.Data.List.Nodup
import SpirvBinary.Proofs.Calls
import SpirvBinary.Proofs.FlowIds

/-!
# Types and constants are declared once

A declaration is looked up before it is written, and noted after it has been written.  So
the types and constants that a draft knows are the declarations that were written for
them, one for one and in the same order, also after declarations that failed; what is
known stays known under the same id, and two declarations have one id only if they are
the same.

## Main definitions

* `Instruction.Declares` — an instruction is the declaration of a key under an id.
* `Declarations.Mirrors` — the known types and constants are the given declarations.
* `writtenBy` — the global declarations of one author.
* `Numbered` — ids whose numbers increase.
* `Call.key?` — what a call declares.

## Main results

* `Course.numbered` — what the library declares has increasing numbers.
* `Precedes.type?` — what is known stays known.
* `known_mirrors_globals` — **the known types and constants are the written ones.**
* `declare_id_eq_iff` — **two declarations have the same id when they are the same, and
  only then.**
-/

namespace SpirvBinary

open Opcode

/-! ### Ordered maps -/

theorem OrderedMap.nodup_keys {κ ν : Type} (map : OrderedMap κ ν) :
    (map.toList.map Prod.fst).Nodup := by
  rw [toList, List.map_reverse]
  exact List.nodup_reverse.mpr map.nodup

namespace OrderedMap

variable {κ ν : Type} [DecidableEq κ] {map : OrderedMap κ ν} {key : κ} {value : ν}

theorem get?_eq_none_iff : map.get? key = none ↔ key ∉ map.toList.map Prod.fst := by
  simp only [get?, toList, Option.map_eq_none_iff, List.find?_eq_none, List.map_reverse,
    List.mem_reverse, List.mem_map, decide_eq_true_eq, not_exists, not_and]

/-- A `key` that is new becomes the last one. -/
theorem toList_insert_of_none (h : map.get? key = none) (value : ν) :
    (map.insert key value).toList = map.toList ++ [(key, value)] := by
  have hkeep : map.toList.filter (fun entry => entry.1 ≠ key) = map.toList := by
    refine List.filter_eq_self.mpr fun entry hentry => ?_
    have hne : entry.1 ≠ key := fun heq =>
      get?_eq_none_iff.mp h (heq ▸ List.mem_map_of_mem hentry)
    simpa using hne
  rw [toList_insert, hkeep]

theorem mem_toList_of_get? (h : map.get? key = some value) : (key, value) ∈ map.toList := by
  obtain ⟨entry, hfind, rfl⟩ := Option.map_eq_some_iff.mp h
  have hkey : entry.1 = key := by simpa using List.find?_some hfind
  rw [← hkey]
  exact List.mem_reverse.mpr (List.mem_of_find?_eq_some hfind)

theorem get?_eq_some_iff : map.get? key = some value ↔ (key, value) ∈ map.toList := by
  refine ⟨mem_toList_of_get?, fun hmem => ?_⟩
  cases hget : map.get? key with
  | none => exact absurd (List.mem_map_of_mem hmem) (get?_eq_none_iff.mp hget)
  | some other =>
    have heq := List.inj_on_of_nodup_map map.nodup_keys (mem_toList_of_get? hget) hmem rfl
    rw [(Prod.mk.inj heq).2]

/-- The map after the insertions `entries` holds them in their order, when their keys are
distinct and new. -/
theorem toList_foldl_insert {entries : List (κ × ν)}
    (h : (map.toList ++ entries).map Prod.fst |>.Nodup) :
    (entries.foldl (fun map entry => map.insert entry.1 entry.2) map).toList
      = map.toList ++ entries := by
  induction entries generalizing map with
  | nil => exact (List.append_nil _).symm
  | cons entry rest ih =>
    have hnone : map.get? entry.1 = none := by
      rw [List.map_append, List.map_cons] at h
      exact get?_eq_none_iff.mpr fun hmem =>
        (List.nodup_append.mp h).2.2 _ hmem _ List.mem_cons_self rfl
    have hlist := toList_insert_of_none hnone entry.2
    rw [List.foldl_cons, ih, hlist, List.append_assoc, List.singleton_append]
    rwa [hlist, List.append_assoc, List.singleton_append]

end OrderedMap

/-! ### Increasing numbers -/

/-- The `ids` have increasing numbers, which are above `low` and at most `high`. -/
def Numbered (low high : Nat) (ids : List Id) : Prop :=
  ∃ numbers : List Nat, numbers.Pairwise (· < ·) ∧ (∀ n ∈ numbers, low < n ∧ n ≤ high) ∧
    ids = numbers.map Id.ofNat

namespace Numbered

variable {low mid high : Nat} {ids : List Id}

theorem nil (low high : Nat) : Numbered low high [] := ⟨[], .nil, by simp, rfl⟩

theorem mono (h : Numbered low mid ids) (hle : mid ≤ high) : Numbered low high ids := by
  obtain ⟨numbers, hlt, hrange, hids⟩ := h
  exact ⟨numbers, hlt, fun n hn => ⟨(hrange n hn).1, (hrange n hn).2.trans hle⟩, hids⟩

/-- The id with the number `mid + 1`, the next one of a supply, comes after those handed out
before. -/
theorem snoc (h : Numbered low mid ids) (hlow : low ≤ mid) (hhigh : mid < high) :
    Numbered low high (ids ++ [Id.ofNat (mid + 1)]) := by
  obtain ⟨numbers, hlt, hrange, rfl⟩ := h
  refine ⟨numbers ++ [mid + 1], ?_, ?_, by simp⟩
  · refine List.pairwise_append.mpr ⟨hlt, List.pairwise_singleton _ _, fun n hn m hm => ?_⟩
    have := (hrange n hn).2
    rw [List.mem_singleton] at hm
    omega
  · intro n hn
    rcases List.mem_append.mp hn with hn | hn
    · have := hrange n hn
      omega
    · rw [List.mem_singleton] at hn
      omega

/-- Ids with increasing numbers are distinct as long as the numbers are below `high`, where they do
not start over. -/
theorem nodup (h : Numbered low high ids) (hhigh : high < 4294967296) : ids.Nodup := by
  obtain ⟨numbers, hlt, hrange, rfl⟩ := h
  refine List.Nodup.map_on (fun n hn m hm heq => ?_) (hlt.imp Nat.ne_of_lt)
  have hword := congrArg (fun id => id.word.toNat) heq
  have hn' := (hrange n hn).2
  have hm' := (hrange m hm).2
  simpa only [Id.toNat_ofNat (hn'.trans_lt hhigh), Id.toNat_ofNat (hm'.trans_lt hhigh)]
    using hword

end Numbered

/-! ### The log of a course -/

/-- The global declarations of `log` that one `author` wrote. -/
def writtenBy (author : Author) (log : List (Author × Instruction)) : List Instruction :=
  (log.filter fun entry => entry.1 = author).map Prod.snd

theorem writtenBy_append (author : Author) (log log' : List (Author × Instruction)) :
    writtenBy author (log ++ log') = writtenBy author log ++ writtenBy author log' := by
  simp [writtenBy]

theorem writtenBy_nil (author : Author) : writtenBy author [] = [] := rfl

theorem writtenBy_self (author : Author) (inst : Instruction) :
    writtenBy author [(author, inst)] = [inst] := by
  simp [writtenBy]

theorem writtenBy_of_ne {author other : Author} (h : other ≠ author) (inst : Instruction) :
    writtenBy author [(other, inst)] = [] := by
  simp [writtenBy, h]

/-- What an entry of a log can be, when its operations are `allowed`. -/
inductive Logged (allowed : Elementary → Prop) : Author × Instruction → Prop
  | declaration {opcode : Opcode} {type : Option Id} {operands : List Word} {id : Id}
      (h : allowed (.declare opcode type operands)) :
      Logged allowed (.declaration, ⟨opcode, type, some id, operands⟩)
  | struct {id : Id} {members : List Word} :
      Logged allowed (.struct, ⟨opTypeStruct, none, some id, members⟩)
  | globalVariable {pointer id : Id} {storage : StorageClass} :
      Logged allowed (.globalVariable, ⟨opVariable, some pointer, some id, [storage]⟩)
  | caller {inst : Instruction} (h : allowed (.emit .globalDeclarations inst)) :
      Logged allowed (.caller, inst)

/-- The results of the global declarations that the library wrote itself. -/
def ownResults (log : List (Author × Instruction)) : List Id :=
  resultsOf ((log.filter fun entry => entry.1 ≠ .caller).map Prod.snd)

theorem ownResults_append (log log' : List (Author × Instruction)) :
    ownResults (log ++ log') = ownResults log ++ ownResults log' := by
  simp [ownResults, resultsOf_append]

/-- What one author wrote is a part of what the library wrote itself. -/
theorem resultsOf_writtenBy_sublist {author : Author} (hauthor : author ≠ .caller)
    (log : List (Author × Instruction)) :
    (resultsOf (writtenBy author log)).Sublist (ownResults log) := by
  refine ((List.monotone_filter_right log fun entry h => ?_).map Prod.snd).filterMap _
  simp only [decide_eq_true_eq] at h ⊢
  rwa [h]

namespace Course

variable {allowed : Elementary → Prop} {d e : Draft} {log : List (Author × Instruction)}

/-- The `log` lists what has been added to the global declarations. -/
theorem globals (course : Course allowed d log e) :
    e.globals = d.globals ++ log.map Prod.snd := by
  refine course.induction (P := fun log e => e.globals = d.globals ++ log.map Prod.snd)
    (by simp) fun log e op entries f _ effect ih => ?_
  cases effect with
  | idle h => rw [h.globals, ih, List.append_nil]
  | declared _ _ hglobals => simp [hglobals, ih]
  | registered _ hglobals => simp [hglobals, ih]
  | allotted hglobals => simp [hglobals, ih]
  | emitted hglobals => simp [hglobals, ih]

/-- Ids are never taken back, and what the library declares is `Numbered` by them. -/
theorem numbered (course : Course allowed d log e) :
    d.ids.count ≤ e.ids.count ∧ Numbered d.ids.count e.ids.count (ownResults log) := by
  refine course.induction (P := fun log e =>
    d.ids.count ≤ e.ids.count ∧ Numbered d.ids.count e.ids.count (ownResults log))
    ⟨le_rfl, .nil _ _⟩ fun log e op entries f _ effect ih => ?_
  obtain ⟨hle, hnumbered⟩ := ih
  rw [ownResults_append]
  cases effect with
  | idle h =>
    refine ⟨hle.trans h.count, ?_⟩
    simpa [ownResults, resultsOf] using hnumbered.mono h.count
  | declared _ _ _ _ hcount => exact ⟨hle.trans hcount.le, hnumbered.snoc hle hcount⟩
  | registered _ _ _ hcount => exact ⟨hle.trans hcount.le, hnumbered.snoc hle hcount⟩
  | allotted _ _ hcount => exact ⟨hle.trans hcount.le, hnumbered.snoc hle hcount⟩
  | emitted _ _ hcount =>
    refine ⟨hle.trans hcount, ?_⟩
    simpa [ownResults, resultsOf] using hnumbered.mono hcount

/-- Whatever stands in the `log` was written by an operation that is `allowed`. -/
theorem logged (course : Course allowed d log e) : ∀ entry ∈ log, Logged allowed entry := by
  refine course.induction (P := fun log _ => ∀ entry ∈ log, Logged allowed entry)
    (by simp) fun log e op entries f hop effect ih entry hentry => ?_
  rcases List.mem_append.mp hentry with hold | hnew
  · exact ih entry hold
  · cases effect with
    | idle => simp at hnew
    | declared => exact List.mem_singleton.mp hnew ▸ .declaration hop
    | registered => exact List.mem_singleton.mp hnew ▸ .struct
    | allotted => exact List.mem_singleton.mp hnew ▸ .globalVariable
    | emitted => exact List.mem_singleton.mp hnew ▸ .caller hop

/-- The results of the global declarations are distinct when the library writes them all. -/
theorem results_nodup (hspares : ∀ op, allowed op → op.SparesGlobals)
    (course : Course allowed d log e) (hd : d.globals = []) (hcount : e.ids.count < 4294967296) :
    (resultsOf e.globals).Nodup := by
  have hown : ownResults log = resultsOf e.globals := by
    rw [course.globals, hd, List.nil_append, ownResults, List.filter_eq_self.mpr]
    intro entry hentry
    cases course.logged entry hentry with
    | caller h => exact absurd rfl (hspares _ h)
    | _ => rfl
  rw [← hown]
  exact course.numbered.2.nodup hcount

end Course

/-! ### What is known stays known -/

namespace Precedes

variable {allowed : Elementary → Prop} {d e : Draft}

/-- A type or constant keeps the `id` of its `key`. -/
theorem type? (h : Precedes allowed d e) {key : DeclarationKey} {id : Id}
    (hkey : d.known.type? key = some id) : e.known.type? key = some id := by
  obtain ⟨log, course⟩ := h
  refine course.induction (P := fun _ e => e.known.type? key = some id) hkey
    fun log e op entries f _ effect ih => ?_
  cases effect with
  | idle h => rwa [h.known]
  | declared hunknown _ _ hknown =>
    rw [hknown]
    refine (OrderedMap.get?_insert_of_ne _ _ fun heq => ?_).trans ih
    rw [heq, ih] at hunknown
    cases hunknown
  | registered _ _ hknown => rw [hknown]; exact ih
  | allotted _ hknown => rwa [hknown]
  | emitted _ hknown => rwa [hknown]

/-- A struct keeps its id. -/
theorem struct? (h : Precedes allowed d e) {name : String} {id : Id}
    (hname : d.known.struct? name = some id) : e.known.struct? name = some id := by
  obtain ⟨log, course⟩ := h
  refine course.induction (P := fun _ e => e.known.struct? name = some id) hname
    fun log e op entries f _ effect ih => ?_
  cases effect with
  | idle h => rwa [h.known]
  | declared _ _ _ hknown => rw [hknown]; exact ih
  | registered hunknown _ hknown =>
    rw [hknown]
    refine (OrderedMap.get?_insert_of_ne _ _ fun heq => ?_).trans ih
    rw [heq, ih] at hunknown
    cases hunknown
  | allotted _ hknown => rwa [hknown]
  | emitted _ hknown => rwa [hknown]

end Precedes

/-! ### Known declarations mirror written ones -/

/-- The key of a declaration: its opcode and its words, the result left out. -/
def Instruction.key (inst : Instruction) : DeclarationKey :=
  ⟨inst.opcode, slot inst.resultType ++ inst.operands⟩

/-- The instruction `inst` declares what `key` stands for as `id`.  The words after its first one
are the id and the words of the key; the type of a constant comes before the id. -/
def Instruction.Declares (inst : Instruction) (key : DeclarationKey) (id : Id) : Prop :=
  inst.opcode = key.opcode ∧ inst.result = some id ∧
    (inst.resultType = none ∧ inst.payload = id.word :: key.operands ∨
      ∃ type words, inst.resultType = some type ∧ key.operands = type.word :: words ∧
        inst.payload = type.word :: id.word :: words)

theorem Instruction.declares_of_key {inst : Instruction} {id : Id} (h : inst.result = some id) :
    inst.Declares inst.key id := by
  obtain ⟨opcode, resultType, result, operands⟩ := inst
  cases h
  cases resultType with
  | none => exact ⟨rfl, rfl, .inl ⟨rfl, rfl⟩⟩
  | some type => exact ⟨rfl, rfl, .inr ⟨type, operands, rfl, rfl, rfl⟩⟩

/-- The known types and constants are the declarations `declared`, in the same order. -/
structure Declarations.Mirrors (known : Declarations) (declared : List Instruction) : Prop where
  entries : declared.map (fun inst => (inst.key, inst.result))
    = known.types.toList.map fun entry => (entry.1, some entry.2)

namespace Declarations.Mirrors

variable {known : Declarations} {declared : List Instruction}

theorem map_key (h : known.Mirrors declared) :
    declared.map Instruction.key = known.types.toList.map Prod.fst := by
  have hkeys := congrArg (List.map Prod.fst) h.entries
  simpa only [List.map_map, Function.comp_def] using hkeys

/-- The known ids are the results of the instructions `declared`. -/
theorem resultsOf_eq (h : known.Mirrors declared) :
    resultsOf declared = known.types.toList.map Prod.snd := by
  have hids := congrArg (List.filterMap Prod.snd) h.entries
  simp only [List.filterMap_map, Function.comp_def, List.filterMap_eq_map'] at hids
  exact hids

/-- Every instruction that is `declared` has its entry, and the other way round. -/
theorem forall₂ (h : known.Mirrors declared) :
    List.Forall₂ (fun inst entry => inst.Declares entry.1 entry.2) declared
      known.types.toList := by
  have heq : List.Forall₂ (· = ·) (declared.map fun inst => (inst.key, inst.result))
      (known.types.toList.map fun entry => (entry.1, some entry.2)) := by
    rw [h.entries]
    exact List.forall₂_refl _
  rw [List.forall₂_map_left_iff, List.forall₂_map_right_iff] at heq
  refine heq.imp fun inst entry hentry => ?_
  rw [← congrArg Prod.fst hentry]
  exact Instruction.declares_of_key (congrArg Prod.snd hentry)

theorem typeCount (h : known.Mirrors declared) : known.typeCount = declared.length := by
  have hlength := congrArg List.length h.map_key
  rw [List.length_map, List.length_map, OrderedMap.toList, List.length_reverse] at hlength
  exact hlength.symm

/-- No two of the instructions `declared` have the same key. -/
theorem keys (h : known.Mirrors declared) : (declared.map Instruction.key).Nodup := by
  rw [h.map_key]
  exact known.types.nodup_keys

theorem snoc (h : known.Mirrors declared) {inst : Instruction} {id : Id}
    (hresult : inst.result = some id) (hnew : known.type? inst.key = none) :
    (known.insertType inst.key id).Mirrors (declared ++ [inst]) := by
  have hlist : (known.insertType inst.key id).types.toList
      = known.types.toList ++ [(inst.key, id)] := OrderedMap.toList_insert_of_none hnew id
  constructor
  rw [hlist, List.map_append, List.map_append, h.entries, List.map_singleton,
    List.map_singleton, hresult]

end Declarations.Mirrors

/-- In every course from a new draft the known types and constants are those that have been
written for them. -/
theorem Course.mirrors {allowed : Elementary → Prop} {settings : Settings}
    {log : List (Author × Instruction)} {d : Draft}
    (course : Course allowed { settings := settings } log d) :
    d.known.Mirrors (writtenBy .declaration log) := by
  refine course.induction (P := fun log d => d.known.Mirrors (writtenBy .declaration log))
    ⟨rfl⟩ fun log e op entries f _ effect ih => ?_
  rw [writtenBy_append]
  cases effect with
  | idle h => rwa [h.known, writtenBy_nil, List.append_nil]
  | @declared opcode type operands _ hunknown _ _ hknown =>
    let inst : Instruction := ⟨opcode, type, some e.ids.next, operands⟩
    rw [hknown, writtenBy_self]
    exact ih.snoc (show inst.result = some e.ids.next from rfl) hunknown
  | registered _ _ hknown =>
    rw [hknown, writtenBy_of_ne (by decide), List.append_nil]
    exact ⟨ih.entries⟩
  | allotted _ hknown => rwa [hknown, writtenBy_of_ne (by decide), List.append_nil]
  | emitted _ hknown => rwa [hknown, writtenBy_of_ne (by decide), List.append_nil]

/-- The known ids of a course from a new draft have increasing numbers. -/
theorem Course.ids_nodup {allowed : Elementary → Prop} {settings : Settings}
    {log : List (Author × Instruction)} {d : Draft}
    (course : Course allowed { settings := settings } log d) (hcount : d.ids.count < 4294967296) :
    (d.known.types.toList.map Prod.snd).Nodup := by
  rw [← course.mirrors.resultsOf_eq]
  exact (resultsOf_writtenBy_sublist (by decide) log).nodup (course.numbered.2.nodup hcount)

/-- The registered structs are those that have been written as such, in the same order. -/
theorem Course.structs {allowed : Elementary → Prop} {settings : Settings}
    {log : List (Author × Instruction)} {d : Draft}
    (course : Course allowed { settings := settings } log d) :
    d.known.structs.toList.map Prod.snd = resultsOf (writtenBy .struct log) := by
  refine course.induction (P := fun log d =>
    d.known.structs.toList.map Prod.snd = resultsOf (writtenBy .struct log))
    rfl fun log e op entries f _ effect ih => ?_
  rw [writtenBy_append]
  cases effect with
  | idle h => rwa [h.known, writtenBy_nil, List.append_nil]
  | declared _ _ _ hknown =>
    rw [hknown, writtenBy_of_ne (by decide), List.append_nil]
    exact ih
  | @registered name _ _ _ hunknown _ hknown =>
    have hlist : (e.known.insertStruct name e.ids.next).structs.toList
        = e.known.structs.toList ++ [(name, e.ids.next)] :=
      OrderedMap.toList_insert_of_none hunknown _
    rw [hknown, hlist, writtenBy_self, List.map_append, resultsOf_append, ih]
    rfl
  | allotted _ hknown => rwa [hknown, writtenBy_of_ne (by decide), List.append_nil]
  | emitted _ hknown => rwa [hknown, writtenBy_of_ne (by decide), List.append_nil]

/-- **The known types and constants are the written ones.**  Take a run that writes no
instruction to the global declarations as it is, and any log of the global declarations
that leads to the draft it leaves.  Apart from the structs and variables that the library
wrote as such, the global declarations and the known types and constants correspond one to
one, in the same order: what is known has its declaration, and nothing is declared twice. -/
theorem known_mirrors_globals {τ : Type} {script : Script τ}
    (huses : script.Uses Command.SparesGlobals) (settings : Settings) (lenient : Bool) :
    let d := script.draftAfter settings lenient
    (∃ log, Course Elementary.SparesGlobals { settings := settings } log d) ∧
    ∀ log, Course Elementary.SparesGlobals { settings := settings } log d →
      let declared := writtenBy .declaration log
      d.globals = log.map Prod.snd ∧
      (∀ entry ∈ log, entry.1 = .declaration ∨
        entry.1 = .struct ∧ entry.2.opcode = opTypeStruct ∨
        entry.1 = .globalVariable ∧ entry.2.opcode = opVariable) ∧
      List.Forall₂ (fun inst entry => inst.Declares entry.1 entry.2) declared
        d.known.types.toList ∧
      (∀ key id, d.known.type? key = some id ↔ (key, id) ∈ d.known.types.toList) ∧
      (declared.map Instruction.key).Nodup ∧
      (d.ids.count < 4294967295 → (resultsOf declared).Nodup) ∧
      d.known.typeCount = declared.length := by
  intro d
  refine ⟨Precedes.draftAfter_of_sparesGlobals huses settings lenient, fun log course => ?_⟩
  have hmirrors := course.mirrors
  refine ⟨course.globals, fun entry hentry => ?_, hmirrors.forall₂,
    fun _ _ => OrderedMap.get?_eq_some_iff, hmirrors.keys, fun hcount => ?_, hmirrors.typeCount⟩
  · cases course.logged entry hentry with
    | declaration => exact .inl rfl
    | struct => exact .inr (.inl ⟨rfl, rfl⟩)
    | globalVariable => exact .inr (.inr ⟨rfl, rfl⟩)
    | caller h => exact absurd rfl h
  · rw [hmirrors.resultsOf_eq]
    exact course.ids_nodup (hcount.trans (by decide))

/-- A struct, a type that is declared with the same opcode and then once more, a variable,
and a step that fails. -/
def mixedDeclarations : Script Unit :=
  .command ⟨(), none, false⟩ (.registerStruct ⟨"Pair", [("a", .float), ("b", .vector 2)]⟩) <|
  .command ⟨(), none, false⟩ (.declareType opTypeStruct .none) <|
  .command ⟨(), some "pointer", false⟩ (.structPointer "Pair" 6) <|
  .command ⟨(), none, false⟩ (.globalVariable (.named "pointer") 6) <|
  .command ⟨(), none, true⟩ (.structPointer "Triple" 6) <|
  .command ⟨(), none, false⟩ (.declareType opTypeStruct .none) .done

theorem known_mirrors_globals_mixedDeclarations :
    mixedDeclarations.Uses Command.SparesGlobals ∧
      (mixedDeclarations.draftAfter {} false).globals.length = 6 ∧
      ∃ log, Course Elementary.SparesGlobals {} log (mixedDeclarations.draftAfter {} false) ∧
        (writtenBy .declaration log).length = 4 := by
  have huses : mixedDeclarations.Uses Command.SparesGlobals := by
    simp [mixedDeclarations, Script.Uses, Command.SparesGlobals]
  obtain ⟨⟨log, course⟩, hall⟩ := known_mirrors_globals huses {} false
  obtain ⟨-, -, -, -, -, -, hcount⟩ := hall log course
  refine ⟨huses, by decide +kernel, log, course, ?_⟩
  rw [← hcount]
  decide +kernel

/-! ### The same id for the same declaration -/

/-- A declaration that succeeds is known from then on, with the `id` it was answered with. -/
theorem Build.type?_of_declare {opcode : Opcode} {type : Option Id} {operands : List Word}
    {id : Id} {d e : Draft} (h : declare opcode type operands d = .ok id e) :
    e.known.type? ⟨opcode, Instruction.slot type ++ operands⟩ = some id := by
  cases hfound : d.known.type? ⟨opcode, Instruction.slot type ++ operands⟩ with
  | some known =>
    rw [declare_of_known hfound] at h
    cases h
    exact hfound
  | none =>
    by_cases hfits : (Instruction.mk opcode type (some d.ids.next) operands).Fits
    · rw [declare_of_fits hfound hfits] at h
      cases h
      exact OrderedMap.get?_insert_self _ _ _
    · rw [declare_of_not_fits hfound hfits] at h
      cases h

/-- A course from a new draft knows no id under two keys. -/
theorem Precedes.key_eq {allowed : Elementary → Prop} {settings : Settings} {d : Draft}
    (h : Precedes allowed { settings := settings } d) (hcount : d.ids.count < 4294967296)
    {key key' : DeclarationKey} {id : Id} (hkey : d.known.type? key = some id)
    (hkey' : d.known.type? key' = some id) : key = key' := by
  obtain ⟨log, course⟩ := h
  have hmem := OrderedMap.get?_eq_some_iff.mp hkey
  have hmem' := OrderedMap.get?_eq_some_iff.mp hkey'
  exact congrArg Prod.fst (List.inj_on_of_nodup_map (course.ids_nodup hcount) hmem hmem' rfl)

/-- In a course from a new draft, the `first` and the `second` of two declarations have the same
id exactly when their keys are the same, and then the `second` changes nothing but the
journal. -/
theorem Precedes.declare_twice {settings : Settings} {d₁ e₁ d₂ e₂ : Draft}
    {opcode₁ opcode₂ : Opcode} {type₁ type₂ : Option Id} {operands₁ operands₂ : List Word}
    {id₁ id₂ : Id} (start : Precedes (fun _ => True) { settings := settings } d₁)
    (first : Build.declare opcode₁ type₁ operands₁ d₁ = .ok id₁ e₁)
    (between : Precedes (fun _ => True) e₁ d₂)
    (second : Build.declare opcode₂ type₂ operands₂ d₂ = .ok id₂ e₂)
    (hcount : e₂.ids.count < 4294967295) :
    let key₁ : DeclarationKey := ⟨opcode₁, Instruction.slot type₁ ++ operands₁⟩
    let key₂ : DeclarationKey := ⟨opcode₂, Instruction.slot type₂ ++ operands₂⟩
    (id₁ = id₂ ↔ key₁ = key₂) ∧ (key₁ = key₂ → e₂ = { d₂ with journal := e₂.journal }) := by
  intro key₁ key₂
  have hd₂ : d₂.known.type? key₁ = some id₁ := between.type? (Build.type?_of_declare first)
  -- a key that is known is found again, and nothing is declared
  have hagain : key₁ = key₂ → id₁ = id₂ ∧ e₂ = { d₂ with journal := e₂.journal } := by
    intro hkeys
    rw [hkeys] at hd₂
    rw [Build.declare_of_known hd₂] at second
    cases second
    exact ⟨rfl, rfl⟩
  refine ⟨⟨fun hids => ?_, fun hkeys => (hagain hkeys).1⟩, fun hkeys => (hagain hkeys).2⟩
  have hlast : Precedes (fun _ => True) d₂ e₂ := Precedes.declare second trivial
  have hall : Precedes (fun _ => True) { settings := settings } e₂ :=
    ((start.trans (Precedes.declare first trivial)).trans between).trans hlast
  have he₂ : e₂.known.type? key₂ = some id₁ := hids ▸ Build.type?_of_declare second
  exact hall.key_eq (hcount.trans (by decide)) (hlast.type? hd₂) he₂

/-- The key of the one declaration that a `call` makes: its opcode, and then its words, with the
type before them if it has one. -/
def Call.key? (call : Call) : Option DeclarationKey :=
  let word (ref : Ref) : Word := (call.names.id ref).word
  match call.operation with
  | .declareType opcode operands => some ⟨opcode, operands.words call.names⟩
  | .declareConstant opcode type operands => some ⟨opcode, word type :: operands.words call.names⟩
  | .voidType => some ⟨opTypeVoid, []⟩
  | .boolType => some ⟨opTypeBool, []⟩
  | .intType width signed => some ⟨opTypeInt, [width, flagWord signed]⟩
  | .floatType width => some ⟨opTypeFloat, [width]⟩
  | .vectorType component count => some ⟨opTypeVector, [word component, count]⟩
  | .matrixType column columns => some ⟨opTypeMatrix, [word column, columns]⟩
  | .pointerType storage pointee => some ⟨opTypePointer, [storage, word pointee]⟩
  | .functionType returnType params => some ⟨opTypeFunction, word returnType :: params.map word⟩
  | .compositeConstant type parts => some ⟨opConstantComposite, word type :: parts.map word⟩
  | _ => none

/-- A `call` with a `key` does nothing but declare it. -/
theorem Call.action_of_key? {call : Call} {key : DeclarationKey} (h : call.key? = some key) :
    ∃ opcode type operands, key = ⟨opcode, Instruction.slot type ++ operands⟩ ∧
      call.action = Command.answerId (Build.declare opcode type operands) := by
  obtain ⟨operation, names, d⟩ := call
  cases operation with
  | declareType | voidType | boolType | intType | floatType | vectorType | matrixType
  | pointerType =>
    cases h
    exact ⟨_, none, _, rfl, rfl⟩
  | declareConstant =>
    cases h
    exact ⟨_, some _, _, rfl, rfl⟩
  | functionType returnType params =>
    cases h
    refine ⟨_, none, _, rfl, ?_⟩
    rw [action, Command.perform, Build.functionType, List.map_map]
    rfl
  | compositeConstant type parts =>
    cases h
    refine ⟨opConstantComposite, some _, parts.map fun ref => (names.id ref).word, rfl, ?_⟩
    rw [action, Command.perform, Build.compositeConstant, List.map_map]
    rfl
  | _ => cases h

/-- **Two declarations have the same id when they are the same, and only then.**  Take two calls
of a run, at whatever depth of its constructs and functions, that declare something, the `first`
with the key `key₁` and the `later` with the key `key₂`, and are answered with ids.  Whatever
else the run does, the ids are the same exactly when the keys are, and then the `later` call
changes nothing but the journal.  Runs are courses, so this is also true of any two declarations
that are made as parts of other operations. -/
theorem declare_id_eq_iff (settings : Settings) :
    (∀ {τ : Type} (script : Script τ) (lenient : Bool),
      (script.calls lenient { draft := { settings := settings } }).Pairwise fun first later =>
        ∀ {key₁ key₂ : DeclarationKey} {id₁ id₂ : Id},
          first.key? = some key₁ → later.key? = some key₂ →
          first.answer = .ok (.id id₁) → later.answer = .ok (.id id₂) →
          later.left.ids.count < 4294967295 →
          (id₁ = id₂ ↔ key₁ = key₂) ∧
            (key₁ = key₂ → later.left = { later.draft with journal := later.left.journal })) ∧
    (∀ {τ : Type} (script : Script τ) (lenient : Bool),
      Moves (OnDrafts (Precedes fun _ => True)) (script.run lenient)) ∧
    ∀ {d₁ e₁ d₂ e₂ : Draft} {opcode₁ opcode₂ : Opcode} {type₁ type₂ : Option Id}
      {operands₁ operands₂ : List Word} {id₁ id₂ : Id},
      Precedes (fun _ => True) { settings := settings } d₁ →
      Build.declare opcode₁ type₁ operands₁ d₁ = .ok id₁ e₁ →
      Precedes (fun _ => True) e₁ d₂ →
      Build.declare opcode₂ type₂ operands₂ d₂ = .ok id₂ e₂ →
      e₂.ids.count < 4294967295 →
      let key₁ : DeclarationKey := ⟨opcode₁, Instruction.slot type₁ ++ operands₁⟩
      let key₂ : DeclarationKey := ⟨opcode₂, Instruction.slot type₂ ++ operands₂⟩
      (id₁ = id₂ ↔ key₁ = key₂) ∧ (key₁ = key₂ → e₂ = { d₂ with journal := e₂.journal }) := by
  refine ⟨fun script lenient => ?_, fun script lenient => Precedes.run script lenient,
    fun start first between second hcount => start.declare_twice first between second hcount⟩
  have hlinked := linked_calls Precedes.gaps script lenient { draft := { settings := settings } }
  refine hlinked.pairwise.imp_of_mem ?_
  intro first later hfirst _ hbetween key₁ key₂ id₁ id₂ hkey₁ hkey₂ hanswer₁ hanswer₂ hcount
  obtain ⟨opcode₁, type₁, operands₁, rfl, haction₁⟩ := Call.action_of_key? hkey₁
  obtain ⟨opcode₂, type₂, operands₂, rfl, haction₂⟩ := Call.action_of_key? hkey₂
  exact (hlinked.precedes.1 first hfirst).declare_twice (Call.run_of_answerId haction₁ hanswer₁)
    hbetween (Call.run_of_answerId haction₂ hanswer₂) hcount

/-- A type, another one that begins with the same word, and in a loop the first one again, by
its opcode. -/
def intAroundFloat : Script Unit :=
  .command ⟨(), none, false⟩ (.intType 32 false) <|
  .command ⟨(), none, false⟩ (.floatType 32) <|
  .defineFunction ⟨(), none, false⟩ none none []
    (.countedLoop ⟨(), none, false⟩ 3
      (.command ⟨(), none, false⟩ (.declareType opTypeInt (.raw [32, 0])) .done) <|
    .command ⟨(), none, false⟩ .returnVoid .done) .done

theorem declare_id_eq_iff_intAroundFloat :
    ∃ int float again last : Call, intAroundFloat.calls false {} = [int, float, again, last] ∧
      int.key? = some ⟨opTypeInt, [32, 0]⟩ ∧ int.answer = .ok (.id ⟨1⟩) ∧
      float.key? = some ⟨opTypeFloat, [32]⟩ ∧ float.answer = .ok (.id ⟨2⟩) ∧
      (Id.mk 1 = Id.mk 2 ↔ DeclarationKey.mk opTypeInt [32, 0] = ⟨opTypeFloat, [32]⟩) ∧
      again.key? = some ⟨opTypeInt, [32, 0]⟩ ∧ again.answer = .ok (.id ⟨1⟩) ∧
      again.left = { again.draft with journal := again.left.journal } := by
  have hcalls : (intAroundFloat.calls false {}).map
        (fun call => (call.key?, call.answer, call.left.ids.count))
      = [(some ⟨opTypeInt, [32, 0]⟩, .ok (.id ⟨1⟩), 1),
         (some ⟨opTypeFloat, [32]⟩, .ok (.id ⟨2⟩), 2),
         (some ⟨opTypeInt, [32, 0]⟩, .ok (.id ⟨1⟩), 20),
         (none, .ok .done, 22)] := by decide +kernel
  obtain ⟨int, _, heq, hint, hrest⟩ := List.map_eq_cons_iff.mp hcalls
  obtain ⟨float, _, rfl, hfloat, hrest⟩ := List.map_eq_cons_iff.mp hrest
  obtain ⟨again, _, rfl, hagain, hrest⟩ := List.map_eq_cons_iff.mp hrest
  obtain ⟨last, _, rfl, -, hrest⟩ := List.map_eq_cons_iff.mp hrest
  rw [List.map_eq_nil_iff.mp hrest] at heq
  simp only [Prod.mk.injEq] at hint hfloat hagain
  have hpairs := (declare_id_eq_iff {}).1 intAroundFloat false
  rw [heq] at hpairs
  have hfirst := (List.pairwise_cons.mp hpairs).1
  have hne := hfirst float (by simp) hint.1 hfloat.1 hint.2.1 hfloat.2.1
    (by rw [hfloat.2.2]; decide)
  have hsame := hfirst again (by simp) hint.1 hagain.1 hint.2.1 hagain.2.1
    (by rw [hagain.2.2]; decide)
  exact ⟨int, float, again, last, heq, hint.1, hint.2.1, hfloat.1, hfloat.2.1, hne.1, hagain.1,
    hagain.2.1, hsame.2 rfl⟩

end SpirvBinary
