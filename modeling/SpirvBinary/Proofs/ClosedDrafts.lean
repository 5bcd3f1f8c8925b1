import SpirvBinary.Proofs.DeclaredOnce

/-!
# Drafts in which everything is declared before it is used

A global declaration refers to others by their ids: a vector to the type of its components,
a function to the types of its parameters, a composite to its type and its parts.  In a
closed draft everything is declared before it is referred to, and whatever is known as a
type, a constant or a struct is declared.  Operations take care of what they declare on the
way, so they keep a draft closed as soon as the ids that are handed to them are known.

## Main definitions

* `Instruction.references` — the ids that a global declaration refers to.
* `Draft.Knows` — an id is known as that of a type, a constant or a struct.
* `Draft.Closed` — everything is declared before it is used, and what is known is declared.
* `Secures` — what was closed stays closed, and what was known stays known.
* `Yields`, `Supplies` — a computation secures a draft, and gives something, or a known id.

## Main results

* `Secures.of_op` — referring to what is known keeps a draft closed.
* `supplies_constant`, `supplies_fieldType` — values and structs are declared with all their
  types and parts.
* `yields_beginNamedFunction`, `yields_beginLoop` — so are the types of functions and the
  constants of loops.
-/

namespace SpirvBinary

open Opcode

/-! ### References -/

/-- The words among `operands` of a global declaration that are ids: the component of a vector, the
column of a matrix, the target of a pointer, the element and the length of an array, the types of a
function, the members of a struct, the parts of a composite. -/
def referenceWords (opcode : Opcode) (operands : List Word) : List Word :=
  if opcode ∈ [opTypeVector, opTypeMatrix] then operands.take 1
  else if opcode = opTypePointer then operands.drop 1
  else if opcode ∈ [opTypeArray, opTypeFunction, opTypeStruct, opConstantComposite] then operands
  else []

/-- The ids that a global declaration refers to: its type and its `referenceWords`. -/
def Instruction.references (inst : Instruction) : List Id :=
  inst.resultType.toList ++ (referenceWords inst.opcode inst.operands).map Id.mk

/-- The ids that an elementary operation refers to in what it declares. -/
def Elementary.references : Elementary → List Id
  | .declare opcode type operands => (Instruction.mk opcode type none operands).references
  | .declareStruct _ _ members => members
  | .globalVariable pointer _ => [pointer]
  | .emit .globalDeclarations inst => inst.references
  | _ => []

theorem references_struct (id : Id) (members : List Id) :
    (Instruction.mk opTypeStruct none (some id) (members.map Id.word)).references = members := by
  change [] ++ (members.map Id.word).map Id.mk = members
  rw [List.nil_append, List.map_map]
  exact List.map_id members

/-! ### Closed drafts -/

namespace Draft

/-- The draft `d` knows `id` as that of a type, a constant or a struct. -/
def Knows (d : Draft) (id : Id) : Prop :=
  (∃ key, d.known.type? key = some id) ∨ ∃ name, d.known.struct? name = some id

/-- Everything is declared before it is referred to, and whatever is known is declared. -/
structure Closed (d : Draft) : Prop where
  ordered : ∀ before inst rest, d.globals = before ++ inst :: rest →
    ∀ id ∈ inst.references, id ∈ resultsOf before
  declared : ∀ id, d.Knows id → id ∈ resultsOf d.globals

theorem closed_new (settings : Settings) : Closed { settings := settings } := by
  constructor
  · intro before inst rest h
    cases before <;> cases h
  · rintro id (⟨key, hkey⟩ | ⟨name, hname⟩)
    · cases hkey
    · cases hname

/-- A declaration `inst` that refers to what is known, and under whose id at most becomes known,
keeps a draft closed. -/
theorem Closed.snoc {d e : Draft} (h : d.Closed) {inst : Instruction}
    (hglobals : e.globals = d.globals ++ [inst]) (hrefs : ∀ id ∈ inst.references, d.Knows id)
    (hknows : ∀ id, e.Knows id → d.Knows id ∨ inst.result = some id) : e.Closed := by
  constructor
  · intro before other rest hsplit id hid
    rw [hglobals] at hsplit
    -- the declaration that refers to the id is an old one or the new one
    rcases List.eq_nil_or_concat rest with rfl | ⟨rest, last, rfl⟩
    · obtain ⟨hbefore, hinst⟩ := List.append_inj' hsplit rfl
      cases hinst
      rw [← hbefore]
      exact h.declared id (hrefs id hid)
    · rw [List.concat_eq_append, ← List.cons_append, ← List.append_assoc] at hsplit
      exact h.ordered before other rest (List.append_inj' hsplit rfl).1 id hid
  · intro id hid
    rw [hglobals, resultsOf_append]
    rcases hknows id hid with hold | hnew
    · exact List.mem_append_left _ (h.declared id hold)
    · exact List.mem_append_right _ (mem_resultsOf.mpr ⟨inst, List.mem_singleton_self _, hnew⟩)

end Draft

/-- From `d` to `e` what was closed stays closed, and what was known stays known. -/
structure Secures (d e : Draft) : Prop where
  closed : d.Closed → e.Closed
  knows : ∀ id, d.Knows id → e.Knows id

namespace Secures

theorem refl (d : Draft) : Secures d d := ⟨fun h => h, fun _ h => h⟩

theorem trans (d e f : Draft) (hde : Secures d e) (hef : Secures e f) : Secures d f :=
  ⟨fun h => hef.closed (hde.closed h), fun id h => hef.knows id (hde.knows id h)⟩

theorem of_idle {d e : Draft} (h : Idle d e) : Secures d e := by
  have hknows : ∀ id, e.Knows id ↔ d.Knows id := fun id => by rw [Draft.Knows, h.known, Draft.Knows]
  refine ⟨fun hclosed => ⟨?_, ?_⟩, fun id => (hknows id).mpr⟩
  · rw [h.globals]
    exact hclosed.ordered
  · intro id hid
    rw [h.globals]
    exact hclosed.declared id ((hknows id).mp hid)

/-- The operation `op` secures a draft when it refers to what is known. -/
theorem of_op (op : Elementary) {d : Draft} (hrefs : ∀ id ∈ op.references, d.Knows id) :
    Secures d (op.draftAfter d) := by
  have hcourse : Precedes (fun _ => True) d (op.draftAfter d) := Precedes.of_op op trivial d
  have hknows : ∀ id, d.Knows id → (op.draftAfter d).Knows id := by
    rintro id (⟨key, hkey⟩ | ⟨name, hname⟩)
    · exact .inl ⟨key, hcourse.type? hkey⟩
    · exact .inr ⟨name, hcourse.struct? hname⟩
  refine ⟨fun hclosed => ?_, hknows⟩
  have heffect := op.effect d
  generalize op.draftAfter d = e, op.entries d = entries at heffect
  cases heffect with
  | idle h => exact (of_idle h).closed hclosed
  | @declared opcode type operands _ _ _ hglobals hknown =>
    refine hclosed.snoc hglobals hrefs fun id hid => ?_
    rw [Draft.Knows, hknown] at hid
    rcases hid with ⟨key, hkey⟩ | hname
    · by_cases heq : ⟨opcode, Instruction.slot type ++ operands⟩ = key
      · subst heq
        exact .inr ((OrderedMap.get?_insert_self _ _ _).symm.trans hkey)
      · exact .inl (.inl ⟨key, (OrderedMap.get?_insert_of_ne _ _ heq).symm.trans hkey⟩)
    · exact .inl (.inr hname)
  | @registered name _ members _ _ hglobals hknown =>
    rw [← references_struct d.ids.next members] at hrefs
    refine hclosed.snoc hglobals hrefs fun id hid => ?_
    rw [Draft.Knows, hknown] at hid
    rcases hid with hkey | ⟨name', hname⟩
    · exact .inl (.inl hkey)
    · by_cases heq : name = name'
      · subst heq
        exact .inr ((OrderedMap.get?_insert_self _ _ _).symm.trans hname)
      · exact .inl (.inr ⟨name', (OrderedMap.get?_insert_of_ne _ _ heq).symm.trans hname⟩)
  | allotted hglobals hknown =>
    refine hclosed.snoc hglobals hrefs fun id hid => .inl ?_
    rwa [Draft.Knows, hknown] at hid
  | emitted hglobals hknown =>
    refine hclosed.snoc hglobals hrefs fun id hid => .inl ?_
    rwa [Draft.Knows, hknown] at hid

end Secures

/-! ### Operations that supply known ids -/

/-- The computation `x` secures the draft `d`, and what it gives satisfies `P`. -/
def Yields {α : Type} (x : Build α) (d : Draft) (P : α → Draft → Prop) : Prop :=
  Leads x d (fun a e => Secures d e ∧ P a e) (Secures d)

/-- The computation `x` secures the draft `d` and gives an id that is known. -/
def Supplies (x : Build Id) (d : Draft) : Prop := Yields x d fun id e => e.Knows id

namespace Yields

variable {α β : Type} {x : Build α} {k : α → Build β} {d : Draft} {P : α → Draft → Prop}
  {Q : β → Draft → Prop}

theorem bind (hx : Yields x d P) (hk : ∀ a e, Secures d e → P a e → Yields (k a) e Q) :
    Yields (x >>= k) d Q := Leads.bind_along Secures.trans hx hk

theorem pure {a : α} (h : P a d) : Yields (Pure.pure a) d P := Leads.of_ok rfl ⟨.refl d, h⟩

/-- What is `Idle` secures a draft. -/
theorem of_idle (h : Moves Idle x) (d : Draft) : Yields x d fun _ _ => True :=
  (Leads.of_moves fun d => Secures.of_idle (h d)).mono (fun _ _ h => ⟨h, trivial⟩) fun _ h => h

end Yields

section Supplying

variable {d : Draft}

theorem supplies_declare {opcode : Opcode} {type : Option Id} {operands : List Word}
    (htype : ∀ id ∈ type, d.Knows id)
    (hrefs : ∀ word ∈ referenceWords opcode operands, d.Knows ⟨word⟩) :
    Supplies (Build.declare opcode type operands) d := by
  have hsecures : Secures d (after (Build.declare opcode type operands) d) := by
    refine Secures.of_op (.declare opcode type operands) fun id hid => ?_
    rcases List.mem_append.mp hid with hid | hid
    · exact htype id (Option.mem_toList.mp hid)
    · obtain ⟨word, hword, rfl⟩ := List.mem_map.mp hid
      exact hrefs word hword
  cases hrun : Build.declare opcode type operands d with
  | ok id e =>
    exact .of_ok hrun ⟨after_of_ok hrun ▸ hsecures, .inl ⟨_, Build.type?_of_declare hrun⟩⟩
  | error fault e => exact .of_error hrun (after_of_error hrun ▸ hsecures)

theorem supplies_declareType {opcode : Opcode} {operands : List Word}
    (hrefs : ∀ word ∈ referenceWords opcode operands, d.Knows ⟨word⟩) :
    Supplies (Build.declareType opcode operands) d :=
  supplies_declare (fun _ h => nomatch h) hrefs

theorem supplies_declareConstant {opcode : Opcode} {type : Id} {operands : List Word}
    (htype : d.Knows type) (hrefs : ∀ word ∈ referenceWords opcode operands, d.Knows ⟨word⟩) :
    Supplies (Build.declareConstant opcode type operands) d :=
  supplies_declare (fun _ h => Option.some.inj h ▸ htype) hrefs

/-- A type that refers to no other. -/
theorem supplies_plainType {opcode : Opcode} {operands : List Word}
    (h : referenceWords opcode operands = []) (d : Draft) :
    Supplies (Build.declareType opcode operands) d :=
  supplies_declareType (h ▸ List.forall_mem_nil _)

theorem supplies_intType (width : Word) (signed : Bool) (d : Draft) :
    Supplies (Build.intType width signed) d := supplies_plainType rfl d

theorem supplies_floatType (width : Word) (d : Draft) : Supplies (Build.floatType width) d :=
  supplies_plainType rfl d

theorem supplies_boolType (d : Draft) : Supplies Build.boolType d := supplies_plainType rfl d

theorem supplies_voidType (d : Draft) : Supplies Build.voidType d := supplies_plainType rfl d

theorem supplies_vectorType {component : Id} (h : d.Knows component) (count : Word) :
    Supplies (Build.vectorType component count) d :=
  supplies_declareType fun _ hword => List.mem_singleton.mp hword ▸ h

theorem supplies_matrixType {column : Id} (h : d.Knows column) (columns : Word) :
    Supplies (Build.matrixType column columns) d :=
  supplies_declareType fun _ hword => List.mem_singleton.mp hword ▸ h

theorem supplies_pointerType {pointee : Id} (h : d.Knows pointee) (storage : StorageClass) :
    Supplies (Build.pointerType storage pointee) d :=
  supplies_declareType fun _ hword => List.mem_singleton.mp hword ▸ h

/-- The words of known ids are words of known ids. -/
theorem knows_of_mem_map {ids : List Id} (h : ∀ id ∈ ids, d.Knows id) :
    ∀ word ∈ ids.map Id.word, d.Knows ⟨word⟩ := by
  intro word hword
  obtain ⟨id, hid, rfl⟩ := List.mem_map.mp hword
  exact h id hid

theorem supplies_functionType {returnType : Id} {params : List Id}
    (h : ∀ id ∈ returnType :: params, d.Knows id) :
    Supplies (Build.functionType returnType params) d :=
  supplies_declareType (knows_of_mem_map h)

theorem supplies_compositeConstant {type : Id} {parts : List Id} (htype : d.Knows type)
    (hparts : ∀ id ∈ parts, d.Knows id) : Supplies (Build.compositeConstant type parts) d :=
  supplies_declareConstant htype (knows_of_mem_map hparts)

/-- A constant without parts, of a type that refers to no other. -/
theorem supplies_scalar {opcode opcode' : Opcode} {operands words : List Word}
    (h : referenceWords opcode operands = []) (h' : referenceWords opcode' words = [])
    (d : Draft) :
    Supplies (do
      let type ← Build.declareType opcode operands
      Build.declareConstant opcode' type words) d :=
  Yields.bind (supplies_plainType h d) fun _ _ _ htype =>
    supplies_declareConstant htype (h' ▸ List.forall_mem_nil _)

theorem supplies_intConstant (value : Int32) (d : Draft) : Supplies (Build.intConstant value) d :=
  supplies_scalar rfl rfl d

theorem supplies_wordConstant (value : Word) (d : Draft) : Supplies (Build.wordConstant value) d :=
  supplies_scalar rfl rfl d

theorem supplies_floatConstant (value : Single) (d : Draft) :
    Supplies (Build.floatConstant value) d := supplies_scalar rfl rfl d

theorem supplies_boolConstant (value : Bool) (d : Draft) :
    Supplies (Build.boolConstant value) d := by
  cases value <;> exact supplies_scalar rfl rfl d

theorem supplies_arrayType {element : Id} (h : d.Knows element) (length : Word) :
    Supplies (Build.arrayType element length) d := by
  refine Yields.bind (supplies_wordConstant length d) fun length e hde hlength => ?_
  refine supplies_declareType fun word hword => ?_
  rcases List.mem_pair.mp hword with rfl | rfl
  · exact hde.knows element h
  · exact hlength

theorem supplies_structType (name : String) (d : Draft) : Supplies (Build.structType name) d := by
  cases hname : d.known.struct? name with
  | some id => exact .of_ok (Build.structType_of_known hname) ⟨.refl d, .inr ⟨name, hname⟩⟩
  | none => exact .of_error (Build.structType_of_unknown hname) (.refl d)

theorem supplies_structPointer (name : String) (storage : StorageClass) (d : Draft) :
    Supplies (Build.structPointer name storage) d :=
  Yields.bind (supplies_structType name d) fun _ _ _ htype => supplies_pointerType htype storage

/-- Ids that are collected by a `loop`, one after the other, are known in the end. -/
theorem yields_collect {β : Type} {f : β → Build Id} (loop : List Id → List β → Build (List Id))
    (hnil : ∀ declared, loop declared [] = return declared.reverse)
    (hcons : ∀ declared item rest,
      loop declared (item :: rest) = f item >>= fun id => loop (id :: declared) rest)
    {items : List β} (hf : ∀ item ∈ items, ∀ d, Supplies (f item) d) (d : Draft) :
    Yields (loop [] items) d fun ids e => ∀ id ∈ ids, e.Knows id := by
  have hcollect := Leads.collect (I := fun _ => True) Secures.refl Secures.trans
    (fun _ _ _ h => h) (P := fun _ id e => e.Knows id) (fun _ id _ _ hde => hde.knows id) hnil hcons
    (fun item hitem d _ => hf item hitem d) [] (s := d) trivial
  refine hcollect.mono ?_ fun _ h => h
  rintro _ e ⟨hde, ids, rfl, hids⟩
  refine ⟨hde, ?_⟩
  clear hcollect hf
  induction hids with
  | nil => exact List.forall_mem_nil _
  | cons hid _ ih => exact List.forall_mem_cons.mpr ⟨hid, ih⟩

theorem supplies_vectorConstant (components : List Single) (d : Draft) :
    Supplies (Build.vectorConstant components) d := by
  refine Yields.bind (supplies_floatType 32 d) fun float d₁ _ hfloat => ?_
  refine Yields.bind (supplies_vectorType hfloat _) fun type d₂ _ htype => ?_
  refine Yields.bind (yields_collect Build.floatConstants (fun _ => rfl) (fun _ _ _ => rfl)
    (fun value _ => supplies_floatConstant value) d₂) fun parts d₃ h₃ hparts => ?_
  exact supplies_compositeConstant (h₃.knows type htype) hparts

theorem supplies_matrixConstant (columns : List (List Single)) (d : Draft) :
    Supplies (Build.matrixConstant columns) d := by
  refine Yields.bind (supplies_floatType 32 d) fun float d₁ _ hfloat => ?_
  refine Yields.bind (supplies_vectorType hfloat _) fun column d₂ _ hcolumn => ?_
  refine Yields.bind (supplies_matrixType hcolumn _) fun type d₃ _ htype => ?_
  refine Yields.bind (yields_collect Build.vectorConstants (fun _ => rfl) (fun _ _ _ => rfl)
    (fun column _ => supplies_vectorConstant column) d₃) fun parts d₄ h₄ hparts => ?_
  exact supplies_compositeConstant (h₄.knows type htype) hparts

mutual

theorem supplies_constant : ∀ (value : Constant) (d : Draft), Supplies (Build.constant value) d
  | .int value, d => by rw [Build.constant]; exact supplies_intConstant value d
  | .word value, d => by rw [Build.constant]; exact supplies_wordConstant value d
  | .float value, d => by rw [Build.constant]; exact supplies_floatConstant value d
  | .vector components, d => by rw [Build.constant]; exact supplies_vectorConstant components d
  | .matrix columns, d => by rw [Build.constant]; exact supplies_matrixConstant columns d
  | .struct name fields, d => by
      rw [Build.constant]
      refine Yields.bind (supplies_structType name d) fun type d₁ _ htype => ?_
      refine Yields.bind (yields_collect Build.constants (fun _ => by rw [Build.constants])
        (fun _ _ _ => by rw [Build.constants]) (supplies_constants fields) d₁)
        fun parts d₂ h₂ hparts => ?_
      exact supplies_compositeConstant (h₂.knows type htype) hparts

theorem supplies_constants : ∀ (values : List Constant), ∀ value ∈ values, ∀ d,
    Supplies (Build.constant value) d
  | [], _, h => nomatch h
  | value :: values, other, h => by
      rcases List.mem_cons.mp h with heq | h
      · exact heq ▸ supplies_constant value
      · exact supplies_constants values other h

end

/-! ### Structs -/

/-- A struct that is declared is registered from then on. -/
theorem Build.struct?_of_declareStruct {name : String} {fields : List (String × FieldType)}
    {members : List Id} {id : Id} {e : Draft} (h : declareStruct name fields members d = .ok id e) :
    e.known.struct? name = some id := by
  cases hname : d.known.struct? name with
  | some known =>
    rw [declareStruct_of_known hname] at h
    cases h
    exact hname
  | none =>
    by_cases hfits : (Instruction.mk opTypeStruct none (some d.ids.next)
        (members.map Id.word)).Fits
    · rw [declareStruct_of_fits hname fields hfits] at h
      -- naming changes neither what is known nor the id that is answered
      have hknown : e.known = d.known.insertStruct name d.ids.next := by
        rw [← after_of_ok h]
        exact (Idle.nameStruct d.ids.next name fields _).known
      obtain ⟨_, _, -, h⟩ := exists_of_bind_ok h
      obtain ⟨_, _, -, h⟩ := exists_of_bind_ok h
      cases h
      rw [hknown]
      exact OrderedMap.get?_insert_self _ _ _
    · rw [declareStruct_of_not_fits hname fields hfits] at h
      cases h

theorem supplies_declareStruct (name : String) (fields : List (String × FieldType))
    {members : List Id} (h : ∀ id ∈ members, d.Knows id) :
    Supplies (Build.declareStruct name fields members) d := by
  have hsecures : Secures d (after (Build.declareStruct name fields members) d) :=
    Secures.of_op (.declareStruct name fields members) h
  cases hrun : Build.declareStruct name fields members d with
  | ok id e =>
    exact .of_ok hrun ⟨after_of_ok hrun ▸ hsecures,
      .inr ⟨name, Build.struct?_of_declareStruct hrun⟩⟩
  | error fault e => exact .of_error hrun (after_of_error hrun ▸ hsecures)

mutual

theorem supplies_fieldType : ∀ (type : FieldType) (d : Draft), Supplies (Build.fieldType type) d
  | .int, d => by rw [Build.fieldType]; exact supplies_intType 32 true d
  | .word, d => by rw [Build.fieldType]; exact supplies_intType 32 false d
  | .float, d => by rw [Build.fieldType]; exact supplies_floatType 32 d
  | .vector count, d => by
      rw [Build.fieldType]
      exact Yields.bind (supplies_floatType 32 d) fun _ _ _ hfloat =>
        supplies_vectorType hfloat count
  | .matrix columns rows, d => by
      rw [Build.fieldType]
      refine Yields.bind (supplies_floatType 32 d) fun float d₁ _ hfloat => ?_
      refine Yields.bind (supplies_vectorType hfloat rows) fun column d₂ _ hcolumn => ?_
      exact supplies_matrixType hcolumn columns
  | .struct name fields, d => by
      rw [Build.fieldType, Supplies, Yields, Leads, bind_of_ok (Build.findStruct_run name d)]
      cases hname : d.known.struct? name with
      | some id => exact ⟨.of_idle (.of_eq rfl rfl rfl), .inr ⟨name, hname⟩⟩
      | none =>
        exact Yields.bind (yields_collect Build.fieldTypes (fun _ => by rw [Build.fieldTypes])
          (fun _ _ _ => by rw [Build.fieldTypes]) (supplies_fieldTypes fields) d)
          fun members e _ hmembers => supplies_declareStruct name fields hmembers
  | .named name, d => by rw [Build.fieldType]; exact supplies_structType name d

theorem supplies_fieldTypes : ∀ (fields : List (String × FieldType)), ∀ field ∈ fields, ∀ d,
    Supplies (Build.fieldType field.2) d
  | [], _, h => nomatch h
  | (name, type) :: fields, other, h => by
      rcases List.mem_cons.mp h with heq | h
      · exact heq ▸ supplies_fieldType type
      · exact supplies_fieldTypes fields other h

end

/-! ### Variables, functions and loops -/

theorem yields_globalVariable {pointer : Id} (h : d.Knows pointer) (storage : StorageClass) :
    Yields (Build.globalVariable pointer storage) d fun _ _ => True := by
  have hsecures : Secures d (after (Build.globalVariable pointer storage) d) :=
    Secures.of_op (.globalVariable pointer storage) fun _ hid => List.mem_singleton.mp hid ▸ h
  cases hrun : Build.globalVariable pointer storage d with
  | ok id e => exact .of_ok hrun ⟨after_of_ok hrun ▸ hsecures, trivial⟩
  | error fault e => exact .of_error hrun (after_of_error hrun ▸ hsecures)

theorem yields_localVariable {pointee : Id} (h : d.Knows pointee) :
    Yields (Build.localVariable pointee) d fun _ _ => True :=
  Yields.bind (supplies_pointerType h _) fun pointer e _ _ =>
    .of_idle (Idle.staging.stageFresh Idle.staging.pushHead fun id =>
      ⟨opVariable, some pointer, some id, [StorageClass.function]⟩) e

theorem yields_beginFunction {returnType : Id} {params : List Id}
    (h : ∀ id ∈ returnType :: params, d.Knows id) (control : Word) :
    Yields (Build.beginFunction returnType params control) d fun _ _ => True := by
  have staging := Idle.staging
  refine Yields.bind (supplies_functionType h) fun type e _ _ => .of_idle ?_ e
  exact staging.bind staging.openFunction fun _ => staging.bind staging.freshId fun _ =>
    staging.bind (staging.pushHead _) fun _ => staging.bind (staging.pushParams params []) fun _ =>
    staging.bind staging.freshId fun _ => staging.bind (staging.pushHead _) fun _ => staging.pure _

theorem yields_beginNamed (name : Option String) {returnType : Id} {params : List Id}
    (h : ∀ id ∈ returnType :: params, d.Knows id) :
    Yields (Build.beginNamed name params returnType) d fun _ _ => True := by
  refine Yields.bind (yields_beginFunction h 0) fun function e _ _ => .of_idle ?_ e
  cases name with
  | some name => exact Idle.bind (Idle.emit (by decide) _) fun _ => Idle.staging.pure function
  | none => exact Idle.staging.pure function

theorem yields_beginNamedFunction (name : Option String) {returnType : Option Id}
    {params : List Id} (h : ∀ id ∈ returnType.toList ++ params, d.Knows id) :
    Yields (Build.beginNamedFunction name returnType params) d fun _ _ => True := by
  cases returnType with
  | some type =>
    rw [Build.beginNamedFunction_some]
    exact yields_beginNamed name h
  | none =>
    rw [Build.beginNamedFunction_none]
    refine Yields.bind (supplies_voidType d) fun type e hde htype => yields_beginNamed name ?_
    exact List.forall_mem_cons.mpr ⟨htype, fun id hid => hde.knows id (h id hid)⟩

theorem yields_beginLoop (count : Int32) (d : Draft) :
    Yields (Build.beginLoop count) d fun _ _ => True := by
  have staging := Idle.staging
  refine Yields.bind (supplies_intType 32 true d) fun int d₁ _ hint => ?_
  refine Yields.bind (supplies_boolType d₁) fun bool d₂ h₂ _ => ?_
  refine Yields.bind (supplies_intConstant 0 d₂) fun zero d₃ h₃ _ => ?_
  refine Yields.bind (supplies_intConstant 1 d₃) fun one d₄ h₄ _ => ?_
  refine Yields.bind (supplies_intConstant count d₄) fun limit d₅ h₅ _ => ?_
  have hint' : d₅.Knows int := h₅.knows _ (h₄.knows _ (h₃.knows _ (h₂.knows _ hint)))
  refine Yields.bind (yields_localVariable hint') fun counter d₆ _ _ => .of_idle ?_ d₆
  exact staging.bind (staging.pushBody _) fun _ => staging.bind staging.freshId fun _ =>
    staging.bind staging.freshId fun _ => staging.bind staging.freshId fun _ =>
    staging.bind staging.freshId fun _ => staging.bind staging.freshId fun _ =>
    staging.bind (staging.pushBody _) fun _ => staging.bind (staging.pushBody _) fun _ =>
    staging.bind (staging.pushBody _) fun _ => staging.bind (staging.pushBody _) fun _ =>
    staging.bind (staging.pushBody _) fun _ => staging.bind (staging.emitBody _ _ _) fun _ =>
    staging.bind (staging.emitBody _ _ _) fun _ => staging.bind (staging.pushBody _) fun _ =>
    staging.bind (staging.pushBody _) fun _ => staging.pure _

end Supplying

end SpirvBinary
