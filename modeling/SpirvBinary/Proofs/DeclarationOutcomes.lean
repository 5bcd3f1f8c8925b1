import SpirvBinary.Proofs.Calls
import SpirvBinary.Proofs.ConstantValues
import SpirvBinary.Proofs.StructTraversal

/-!
# When a declaration succeeds

A declaration that is known already is answered at once, whatever its length.  Yet no
declaration that is too long ever becomes known, so whether a type or a constant can be
declared does not depend on what has been declared before: it depends on its length, and on
nothing else.

The value of a composite constant is declared from the bottom up.  On the way a number of
checks is made, in an order that is a matter of the value alone: the name of a struct is looked
up before its fields are declared, and the number of parts of a composite is checked when all
of them have been.  The declaration ends at the first check that is not passed.

## Main definitions

* `Check` — what is checked when a value is declared.
* `Constant.checks` — the checks of a value, in order.
* `Ends` — a computation ends at the first of its checks that is not passed.

## Main results

* `declare_succeeds_iff`, `declare_of_long` — declarations succeed or fail by their length.
* `ends_constant` — declaring a value ends at the first check that is not passed.
* `declaration_outcomes` — **the outcome of a declaration depends on its size and on the
  registered names.**
-/

namespace SpirvBinary

open Opcode

/-! ### Single declarations -/

section Declare

variable (opcode : Opcode) (type : Option Id) (operands : List Word) {settings : Settings}
  {d : Draft}

theorem Instruction.wordCount_declaration (id : Id) :
    (Instruction.mk opcode type (some id) operands).wordCount
      = 2 + (Instruction.slot type ++ operands).length := by
  rw [Instruction.wordCount, List.length_append]
  change (Instruction.slot type).length + 1 + operands.length + 1 = _
  omega

theorem Instruction.length_slot_some_append (id : Id) :
    (Instruction.slot (some id) ++ operands).length = 1 + operands.length :=
  List.length_append

/-- A declaration fits when there is room for its opcode and its result. -/
theorem Instruction.fits_declaration_iff (id : Id) :
    (Instruction.mk opcode type (some id) operands).Fits
      ↔ (Instruction.slot type ++ operands).length ≤ 65533 := by
  rw [Instruction.Fits, Instruction.wordCount_declaration, Instruction.maxWordCount]
  omega

/-- A declaration that is too long is not known, so it is refused; an id has been taken for
it. -/
theorem declare_of_long (hd : Precedes (fun _ => True) { settings := settings } d)
    (h : 65533 < (Instruction.slot type ++ operands).length) :
    Build.declare opcode type operands d
      = .error (.tooLong opcode (2 + (Instruction.slot type ++ operands).length))
          { d with ids := ⟨d.ids.count + 1⟩ } := by
  have hunknown : d.known.type? ⟨opcode, Instruction.slot type ++ operands⟩ = none := by
    cases hknown : d.known.type? ⟨opcode, Instruction.slot type ++ operands⟩ with
    | none => rfl
    | some id =>
      have hlength := hd.length_le hknown
      simp only at hlength
      omega
  have hfits : ¬ (Instruction.mk opcode type (some d.ids.next) operands).Fits := by
    rw [Instruction.fits_declaration_iff]
    omega
  rw [Build.declare_of_not_fits hunknown hfits, Instruction.wordCount_declaration]
  rfl

/-- A declaration that is short enough succeeds, whether it is known or not. -/
theorem declare_of_short (h : (Instruction.slot type ++ operands).length ≤ 65533) :
    ∃ id e, Build.declare opcode type operands d = .ok id e ∧
      e.known.structNames = d.known.structNames := by
  cases hknown : d.known.type? ⟨opcode, Instruction.slot type ++ operands⟩ with
  | some id => exact ⟨id, _, Build.declare_of_known hknown, rfl⟩
  | none =>
    have hfits := (Instruction.fits_declaration_iff opcode type operands d.ids.next).mpr h
    exact ⟨_, _, Build.declare_of_fits hknown hfits, rfl⟩

theorem declare_succeeds_iff (hd : Precedes (fun _ => True) { settings := settings } d) :
    (∃ id e, Build.declare opcode type operands d = .ok id e)
      ↔ (Instruction.slot type ++ operands).length ≤ 65533 := by
  refine ⟨fun ⟨id, e, hrun⟩ => ?_, fun h => ?_⟩
  · by_contra hlong
    rw [declare_of_long opcode type operands hd (by omega)] at hrun
    cases hrun
  · obtain ⟨id, e, hrun, -⟩ := declare_of_short opcode type operands h
    exact ⟨id, e, hrun⟩

end Declare

/-! ### Checks -/

/-- What is checked when a value is declared. -/
inductive Check where
  /-- A struct is registered under the name. -/
  | registered (name : String)
  /-- A composite has no more parts than can be stated. -/
  | parts (count : Nat)
  deriving DecidableEq, Repr, Inhabited

/-- The fault of a check that is not passed, given the `names` under which structs are
registered. -/
def Check.fault? (names : List String) : Check → Option Fault
  | .registered name => if name ∈ names then none else some (.unknownStruct name)
  | .parts count =>
      if count ≤ 65532 then none else some (.tooLong opConstantComposite (3 + count))

/-- The fault of the first of the `checks` that is not passed. -/
def firstFault (names : List String) (checks : List Check) : Option Fault :=
  checks.findSome? (Check.fault? names)

namespace Constant

mutual

/-- The checks that are made when a value is declared, in order. -/
def checks : Constant → List Check
  | .int _ | .word _ | .float _ => []
  | .vector components => [.parts components.length]
  | .matrix columns => columns.map (fun column => .parts column.length) ++ [.parts columns.length]
  | .struct name fields => .registered name :: (checksAll fields ++ [.parts fields.length])

/-- The checks of values that are declared one after the other. -/
def checksAll : List Constant → List Check
  | [] => []
  | value :: rest => value.checks ++ checksAll rest

end

theorem checksAll_eq (values : List Constant) : checksAll values = values.flatMap checks := by
  induction values with
  | nil => rw [checksAll, List.flatMap_nil]
  | cons value rest ih => rw [checksAll, List.flatMap_cons, ih]

end Constant

/-- All `checks` are passed exactly when all names are registered and no composite has too many
parts. -/
theorem firstFault_eq_none_iff {names : List String} {checks : List Check} :
    firstFault names checks = none ↔
      (∀ name, .registered name ∈ checks → name ∈ names) ∧
        ∀ count, .parts count ∈ checks → count ≤ 65532 := by
  rw [firstFault, List.findSome?_eq_none_iff]
  constructor
  · intro h
    refine ⟨fun name hname => ?_, fun count hcount => ?_⟩
    · by_contra hunknown
      have hfault := h _ hname
      rw [Check.fault?, if_neg hunknown] at hfault
      cases hfault
    · by_contra hlong
      have hfault := h _ hcount
      rw [Check.fault?, if_neg hlong] at hfault
      cases hfault
  · rintro ⟨hnames, hcounts⟩ check hcheck
    cases check with
    | registered name => rw [Check.fault?, if_pos (hnames name hcheck)]
    | parts count => rw [Check.fault?, if_pos (hcounts count hcheck)]

/-! ### Computations that end at a check -/

/-- From every draft of a run the computation `x` makes `checks`, one after the other, and ends
with the fault of the first that is not passed.  When all are passed it succeeds, with a result
that satisfies `P`, and no struct has been registered. -/
def Ends {α : Type} (x : Build α) (checks : List Check) (P : α → Prop) : Prop :=
  ∀ (settings : Settings) (d : Draft), Precedes (fun _ => True) { settings := settings } d →
    match x d, firstFault d.known.structNames checks with
    | .ok a e, none =>
        Precedes (fun _ => True) d e ∧ e.known.structNames = d.known.structNames ∧ P a
    | .error fault _, some fault' => fault = fault'
    | _, _ => False

namespace Ends

variable {α β : Type} {x : Build α} {k : α → Build β} {checks checks' : List Check}
  {P : α → Prop} {Q : β → Prop}

theorem pure {a : α} (h : P a) : Ends (Pure.pure a : Build α) [] P :=
  fun _ d _ => ⟨.refl d, rfl, h⟩

theorem bind (hx : Ends x checks P) (hk : ∀ a, P a → Ends (k a) checks' Q) :
    Ends (x >>= k) (checks ++ checks') Q := by
  intro settings d hd
  have hfirst := hx settings d hd
  have hfaults : firstFault d.known.structNames (checks ++ checks')
      = (firstFault d.known.structNames checks).or (firstFault d.known.structNames checks') :=
    List.findSome?_append
  rw [hfaults]
  cases hrun : x d with
  | ok a e =>
    rw [hrun] at hfirst
    rw [bind_of_ok hrun]
    cases hchecks : firstFault d.known.structNames checks with
    | some fault => rw [hchecks] at hfirst; exact hfirst.elim
    | none =>
      rw [hchecks] at hfirst
      obtain ⟨hde, hnames, ha⟩ := hfirst
      have hsecond := hk a ha settings e (hd.trans hde)
      rw [hnames] at hsecond
      rw [Option.none_or]
      split at hsecond
      · exact ⟨hde.trans hsecond.1, hsecond.2⟩
      · exact hsecond
      · exact hsecond.elim
  | error fault e =>
    rw [hrun] at hfirst
    rw [bind_of_error hrun]
    cases hchecks : firstFault d.known.structNames checks with
    | some fault' => rw [hchecks] at hfirst; exact hfirst
    | none => rw [hchecks] at hfirst; exact hfirst.elim

theorem mono {P' : α → Prop} (hx : Ends x checks P) (h : ∀ a, P a → P' a) : Ends x checks P' := by
  intro settings d hd
  have hend := hx settings d hd
  split at hend
  · exact ⟨hend.1, hend.2.1, h _ hend.2.2⟩
  · exact hend
  · exact hend.elim

/-- A `loop` that collects one result of `f` for each item makes the checks of the items in
order. -/
theorem collect {f : β → Build α} (loop : List α → List β → Build (List α))
    {checksOf : β → List Check} (hnil : ∀ done, loop done [] = Pure.pure done.reverse)
    (hcons : ∀ done b rest, loop done (b :: rest) = f b >>= fun a => loop (a :: done) rest)
    {items : List β} (hf : ∀ b ∈ items, Ends (f b) (checksOf b) fun _ => True) (done : List α) :
    Ends (loop done items) (items.flatMap checksOf)
      fun results => results.length = done.length + items.length := by
  induction items generalizing done with
  | nil =>
    rw [hnil]
    exact .pure (by simp)
  | cons b rest ih =>
    rw [hcons, List.flatMap_cons]
    refine .bind (hf b List.mem_cons_self) fun a _ => ?_
    refine (ih (fun c hc => hf c (List.mem_cons_of_mem _ hc)) (a :: done)).mono fun results h => ?_
    rw [h, List.length_cons, List.length_cons]
    omega

/-! ### The parts of values -/

theorem declare (opcode : Opcode) (type : Option Id) (operands : List Word)
    (h : (Instruction.slot type ++ operands).length ≤ 65533) :
    Ends (Build.declare opcode type operands) [] fun _ => True := by
  intro settings d hd
  obtain ⟨id, e, hrun, hnames⟩ := declare_of_short (d := d) opcode type operands h
  rw [hrun]
  exact ⟨.declare hrun trivial, hnames, trivial⟩

theorem composite (type : Id) (parts : List Id) :
    Ends (Build.compositeConstant type parts) [.parts parts.length] fun _ => True := by
  intro settings d hd
  have hlength : (Instruction.slot (some type) ++ parts.map Id.word).length = 1 + parts.length := by
    rw [Instruction.length_slot_some_append, List.length_map]
  by_cases hshort : parts.length ≤ 65532
  · have hchecks : firstFault d.known.structNames [.parts parts.length] = none := by
      simp [firstFault, Check.fault?, hshort]
    rw [hchecks]
    exact declare opConstantComposite (some type) _ (by omega) settings d hd
  · have hchecks : firstFault d.known.structNames [.parts parts.length]
        = some (.tooLong opConstantComposite (3 + parts.length)) := by
      simp [firstFault, Check.fault?, hshort]
    have hrun := declare_of_long opConstantComposite (some type) (parts.map Id.word) hd (by omega)
    rw [hchecks, Build.compositeConstant, Build.declareConstant, hrun, hlength, ← Nat.add_assoc]

theorem structType (name : String) :
    Ends (Build.structType name) [.registered name] fun _ => True := by
  intro settings d hd
  cases hname : d.known.struct? name with
  | some id =>
    have hchecks : firstFault d.known.structNames [.registered name] = none := by
      simp [firstFault, Check.fault?, Declarations.mem_structNames hname]
    rw [hchecks, Build.structType_of_known hname]
    exact ⟨.refl d, rfl, trivial⟩
  | none =>
    have hchecks : firstFault d.known.structNames [.registered name]
        = some (.unknownStruct name) := by
      simp [firstFault, Check.fault?, Declarations.struct?_eq_none_iff.mp hname]
    rw [hchecks, Build.structType_of_unknown hname]

theorem declareType {opcode : Opcode} {operands : List Word} (h : operands.length ≤ 65533) :
    Ends (Build.declareType opcode operands) [] fun _ => True :=
  declare opcode none operands h

theorem declareConstant {opcode : Opcode} {operands : List Word} (h : operands.length ≤ 65532)
    (type : Id) : Ends (Build.declareConstant opcode type operands) [] fun _ => True :=
  declare opcode (some type) operands (by rw [Instruction.length_slot_some_append]; omega)

/-- A type is declared first, for which no check is made, and then `k` goes on with its id. -/
theorem declareType_bind {opcode : Opcode} {operands : List Word} {k : Id → Build α}
    (h : operands.length ≤ 65533) (hk : ∀ id, Ends (k id) checks P) :
    Ends (Build.declareType opcode operands >>= k) checks P :=
  bind (declareType h) fun id _ => hk id

theorem floatConstant (value : Single) : Ends (Build.floatConstant value) [] fun _ => True :=
  declareType_bind (by simp) fun type => declareConstant (by simp) type

/-- The parts of a composite are declared one after the other by a `loop`, and then the
composite. -/
theorem composite_of_parts {f : β → Build Id} (loop : List Id → List β → Build (List Id))
    {checksOf : β → List Check} (hnil : ∀ done, loop done [] = Pure.pure done.reverse)
    (hcons : ∀ done b rest, loop done (b :: rest) = f b >>= fun id => loop (id :: done) rest)
    {items : List β} (hf : ∀ b ∈ items, Ends (f b) (checksOf b) fun _ => True) (type : Id) :
    Ends (do let parts ← loop [] items; Build.compositeConstant type parts)
      (items.flatMap checksOf ++ [.parts items.length]) fun _ => True := by
  refine (collect loop hnil hcons hf []).bind fun parts hlength => ?_
  rw [List.length_nil, Nat.zero_add] at hlength
  rw [← hlength]
  exact composite type parts

theorem vectorConstant (components : List Single) :
    Ends (Build.vectorConstant components) [.parts components.length] fun _ => True := by
  refine declareType_bind (by simp) fun float => declareType_bind (by simp) fun type => ?_
  have hnone : components.flatMap (fun _ => ([] : List Check)) = [] := by simp
  have hparts := composite_of_parts Build.floatConstants (fun _ => rfl) (fun _ _ _ => rfl)
    (fun value (_ : value ∈ components) => floatConstant value) type
  rwa [hnone] at hparts

theorem matrixConstant (columns : List (List Single)) :
    Ends (Build.matrixConstant columns) (Constant.matrix columns).checks fun _ => True := by
  refine declareType_bind (by simp) fun float => declareType_bind (by simp) fun column =>
    declareType_bind (by simp) fun type => ?_
  have hparts := composite_of_parts Build.vectorConstants (fun _ => rfl) (fun _ _ _ => rfl)
    (fun column (_ : column ∈ columns) => vectorConstant column) type
  rwa [← List.map_eq_flatMap] at hparts

mutual

/-- Declaring a value makes its `checks`. -/
theorem constant : ∀ value : Constant, Ends (Build.constant value) value.checks fun _ => True
  | .int value | .word value => by
      rw [Build.constant, Constant.checks]
      exact declareType_bind (by simp) fun type => declareConstant (by simp) type
  | .float value => by
      rw [Build.constant, Constant.checks]
      exact floatConstant value
  | .vector components => by
      rw [Build.constant, Constant.checks]
      exact vectorConstant components
  | .matrix columns => by
      rw [Build.constant]
      exact matrixConstant columns
  | .struct name fields => by
      rw [Build.constant, Constant.checks, Constant.checksAll_eq]
      refine bind (structType name) fun type _ => ?_
      exact composite_of_parts Build.constants (fun _ => by rw [Build.constants])
        (fun _ _ _ => by rw [Build.constants]) (constants fields) type

theorem constants : ∀ values : List Constant, ∀ value ∈ values,
    Ends (Build.constant value) value.checks fun _ => True
  | [], _, h => nomatch h
  | first :: rest, value, h => by
      rcases List.mem_cons.mp h with heq | hrest
      · rw [heq]
        exact constant first
      · exact constants rest value hrest

end

/-! ### Outcomes -/

variable {settings : Settings} {d : Draft}

/-- A computation that ends at a check succeeds exactly when all are passed. -/
theorem succeeds_iff (h : Ends x checks P)
    (hd : Precedes (fun _ => True) { settings := settings } d) :
    (∃ a e, x d = .ok a e) ↔ firstFault d.known.structNames checks = none := by
  have hend := h settings d hd
  split at hend
  · next hrun hnone => exact ⟨fun _ => hnone, fun _ => ⟨_, _, hrun⟩⟩
  · next hrun hsome => simp [hrun, hsome]
  · exact hend.elim

/-- It fails with `fault` exactly when that is the one of the first check that is not passed. -/
theorem fails_iff (h : Ends x checks P)
    (hd : Precedes (fun _ => True) { settings := settings } d) (fault : Fault) :
    (∃ e, x d = .error fault e) ↔ firstFault d.known.structNames checks = some fault := by
  have hend := h settings d hd
  split at hend
  · next hrun hnone => simp [hrun, hnone]
  · next hrun hsome => simp [hrun, hsome, hend]
  · exact hend.elim

end Ends

/-- **The outcome of a declaration depends on its size and on the registered names.**  On every
draft that a run comes across, whatever it knows already, a type or a constant can be declared
exactly when it is not too long; otherwise nothing changes but that an id is taken.  A value can
be declared exactly when the names of its structs are registered and none of its composites has
too many parts; otherwise the fault is that of the first check of the value that is not
passed. -/
theorem declaration_outcomes {τ : Type} {script : Script τ} {settings : Settings}
    {lenient : Bool} {d : Draft} (hd : d ∈ script.drafts settings lenient) :
    (∀ opcode operands,
      ((∃ id e, Build.declareType opcode operands d = .ok id e) ↔ operands.length ≤ 65533) ∧
        (65533 < operands.length →
          Build.declareType opcode operands d
            = .error (.tooLong opcode (2 + operands.length))
                { d with ids := ⟨d.ids.count + 1⟩ })) ∧
      (∀ opcode type operands,
        ((∃ id e, Build.declareConstant opcode type operands d = .ok id e)
            ↔ operands.length ≤ 65532) ∧
          (65532 < operands.length →
            Build.declareConstant opcode type operands d
              = .error (.tooLong opcode (3 + operands.length))
                  { d with ids := ⟨d.ids.count + 1⟩ })) ∧
      ∀ value : Constant,
        ((∃ id e, Build.constant value d = .ok id e) ↔
          (∀ name, .registered name ∈ value.checks → name ∈ d.known.structNames) ∧
            ∀ count, .parts count ∈ value.checks → count ≤ 65532) ∧
          ∀ fault, (∃ e, Build.constant value d = .error fault e) ↔
            firstFault d.known.structNames value.checks = some fault := by
  have hd := Script.precedes_drafts hd
  refine ⟨fun opcode operands => ⟨?_, fun hlong => ?_⟩,
    fun opcode type operands => ⟨?_, fun hlong => ?_⟩,
    fun value => ⟨?_, (Ends.constant value).fails_iff hd⟩⟩
  · exact declare_succeeds_iff opcode none operands hd
  · exact declare_of_long opcode none operands hd hlong
  · refine (declare_succeeds_iff opcode (some type) operands hd).trans ?_
    rw [Instruction.length_slot_some_append]
    omega
  · have hrun := declare_of_long opcode (some type) operands hd
      (by rw [Instruction.length_slot_some_append]; omega)
    rwa [Instruction.length_slot_some_append, ← Nat.add_assoc] at hrun
  · rw [(Ends.constant value).succeeds_iff hd, firstFault_eq_none_iff]

/-- A struct is registered, and a value of it is declared in a function. -/
def lightInFunction : Script Unit :=
  .command ⟨(), none, false⟩ (.registerStruct ⟨"Light", [("power", .float)]⟩) <|
  .defineFunction ⟨(), none, false⟩ none none []
    (.command ⟨(), none, false⟩ (.constant (.struct "Light" [.float ⟨1056964608⟩])) <|
    .command ⟨(), none, false⟩ .returnVoid .done) .done

/-- The vector has too many components.  This is found out before the struct, whose name is
not registered, is looked up, and after the one around both has been found. -/
theorem declaration_outcomes_lightInFunction :
    lightInFunction.draftAfter {} false ∈ lightInFunction.drafts {} false ∧
      ∃ e, Build.constant (.struct "Light"
          [.vector (List.replicate 65533 ⟨0⟩), .struct "Lamp" []])
        (lightInFunction.draftAfter {} false) = .error (.tooLong opConstantComposite 65536) e := by
  have hmem : lightInFunction.draftAfter {} false ∈ lightInFunction.drafts {} false :=
    List.mem_append_right _ List.mem_cons_self
  have hnames : (lightInFunction.draftAfter {} false).known.structNames = ["Light"] := by
    decide +kernel
  refine ⟨hmem, ((declaration_outcomes hmem).2.2 _).2 _ |>.mpr ?_⟩
  rw [hnames, Constant.checks, Constant.checksAll, Constant.checks, List.length_replicate]
  rfl

end SpirvBinary
