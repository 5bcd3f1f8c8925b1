import SpirvBinary.Literal
import SpirvBinary.Proofs.Operations

/-!
# Reading constants off declarations

What ids stand for is a *glossary*: the declarations of types and constants, and the names
of structs.  The value of a constant is read at an id by the cases of the value, following
ids to the declarations of its type and of its parts.  Where an id has one declaration and
one name at most, one value at most is read at it.

## Main definitions

* `Glossary`, `Glossary.Reads` — what ids stand for, and which value is read at an id.
* `Glossary.Within` — what one glossary says another one says too.
* `Glossary.Unambiguous` — no id has two declarations or two names.

## Main results

* `Glossary.Within.reads` — what is read in a glossary is read in a larger one.
* `Glossary.Reads.unique` — at most one value is read at an id.
-/

namespace SpirvBinary

open Opcode

/-! ### Reading values -/

/-- What ids stand for: the declarations of types and constants, and the names of
structs. -/
structure Glossary where
  /-- The id is declared by the opcode and the words of a `DeclarationKey`. -/
  declares : Id → DeclarationKey → Prop
  /-- The id is that of a struct with a name. -/
  names : Id → String → Prop

namespace Glossary

/-- The floating-point number `value` of 32 bits is read at `id`. -/
def ReadsFloat (g : Glossary) (value : Single) (id : Id) : Prop :=
  ∃ type, g.declares id ⟨opConstant, [type.word, value.bits]⟩ ∧
    g.declares type ⟨opTypeFloat, [32]⟩

/-- The id `type` is that of the vectors of `length` floating-point numbers. -/
def IsVectorType (g : Glossary) (length : Nat) (type : Id) : Prop :=
  ∃ float count, g.declares type ⟨opTypeVector, [float.word, count]⟩ ∧ count.toNat = length ∧
    g.declares float ⟨opTypeFloat, [32]⟩

/-- A vector with the given `components` is read at `id`: a composite of as many floating-point
numbers as its type says. -/
def ReadsVector (g : Glossary) (components : List Single) (id : Id) : Prop :=
  ∃ type parts, g.declares id ⟨opConstantComposite, type.word :: parts.map Id.word⟩ ∧
    g.IsVectorType components.length type ∧ List.Forall₂ g.ReadsFloat components parts

/-- A matrix with the given `columns` is read at `id`: a composite of as many vectors as its type
says.  The length of the first one is that of the column type. -/
def ReadsMatrix (g : Glossary) (columns : List (List Single)) (id : Id) : Prop :=
  ∃ type parts, g.declares id ⟨opConstantComposite, type.word :: parts.map Id.word⟩ ∧
    (∃ column count, g.declares type ⟨opTypeMatrix, [column.word, count]⟩ ∧
      count.toNat = columns.length ∧ g.IsVectorType (columns.headD []).length column) ∧
    List.Forall₂ g.ReadsVector columns parts

mutual

/-- A value is read at an id. -/
def Reads (g : Glossary) : Constant → Id → Prop
  | .int value, id => ∃ type, g.declares id ⟨opConstant, [type.word, intWord value]⟩ ∧
      g.declares type ⟨opTypeInt, [32, 1]⟩
  | .word value, id => ∃ type, g.declares id ⟨opConstant, [type.word, value]⟩ ∧
      g.declares type ⟨opTypeInt, [32, 0]⟩
  | .float value, id => g.ReadsFloat value id
  | .vector components, id => g.ReadsVector components id
  | .matrix columns, id => g.ReadsMatrix columns id
  | .struct name fields, id => ∃ type parts,
      g.declares id ⟨opConstantComposite, type.word :: parts.map Id.word⟩ ∧
        g.names type name ∧ ReadsAll g fields parts

/-- Values are read at ids, one at each.  The lists have the same length. -/
def ReadsAll (g : Glossary) : List Constant → List Id → Prop
  | [], [] => True
  | value :: values, id :: ids => Reads g value id ∧ ReadsAll g values ids
  | _, _ => False

end

variable {g g' : Glossary}

theorem readsAll_of_forall₂ {values : List Constant} {ids : List Id}
    (h : List.Forall₂ g.Reads values ids) : g.ReadsAll values ids := by
  induction h with
  | nil => trivial
  | cons hvalue _ ih => exact ⟨hvalue, ih⟩

/-! ### Glossaries that agree -/

/-- What `g` says of types and constants of the library and of structs is also said by `g'`. -/
structure Within (g g' : Glossary) : Prop where
  declares : ∀ id {opcode words}, opcode ∈ typeOpcodes ++ constantOpcodes →
    g.declares id ⟨opcode, words⟩ → g'.declares id ⟨opcode, words⟩
  names : ∀ id name, g.names id name → g'.names id name

namespace Within

theorem readsFloat (h : g.Within g') {value : Single} {id : Id} (hread : g.ReadsFloat value id) :
    g'.ReadsFloat value id := by
  obtain ⟨type, hid, htype⟩ := hread
  exact ⟨type, h.declares _ (by decide) hid, h.declares _ (by decide) htype⟩

theorem isVectorType (h : g.Within g') {length : Nat} {type : Id}
    (htype : g.IsVectorType length type) : g'.IsVectorType length type := by
  obtain ⟨float, count, htype, hcount, hfloat⟩ := htype
  exact ⟨float, count, h.declares _ (by decide) htype, hcount,
    h.declares _ (by decide) hfloat⟩

theorem readsVector (h : g.Within g') {components : List Single} {id : Id}
    (hread : g.ReadsVector components id) : g'.ReadsVector components id := by
  obtain ⟨type, parts, hid, htype, hparts⟩ := hread
  exact ⟨type, parts, h.declares _ (by decide) hid, h.isVectorType htype,
    hparts.imp fun _ _ => h.readsFloat⟩

theorem readsMatrix (h : g.Within g') {columns : List (List Single)} {id : Id}
    (hread : g.ReadsMatrix columns id) : g'.ReadsMatrix columns id := by
  obtain ⟨type, parts, hid, ⟨column, count, htype, hcount, hcolumn⟩, hparts⟩ := hread
  exact ⟨type, parts, h.declares _ (by decide) hid,
    ⟨column, count, h.declares _ (by decide) htype, hcount, h.isVectorType hcolumn⟩,
    hparts.imp fun _ _ => h.readsVector⟩

mutual

theorem reads (h : g.Within g') : ∀ (value : Constant) (id : Id), g.Reads value id →
    g'.Reads value id
  | .int value, id, ⟨type, hid, htype⟩ =>
      ⟨type, h.declares _ (by decide) hid, h.declares _ (by decide) htype⟩
  | .word value, id, ⟨type, hid, htype⟩ =>
      ⟨type, h.declares _ (by decide) hid, h.declares _ (by decide) htype⟩
  | .float value, id, hread => h.readsFloat hread
  | .vector components, id, hread => h.readsVector hread
  | .matrix columns, id, hread => h.readsMatrix hread
  | .struct name fields, id, ⟨type, parts, hid, htype, hparts⟩ =>
      ⟨type, parts, h.declares _ (by decide) hid, h.names type name htype,
        readsAll h fields parts hparts⟩

theorem readsAll (h : g.Within g') : ∀ (values : List Constant) (ids : List Id),
    g.ReadsAll values ids → g'.ReadsAll values ids
  | [], [], _ => trivial
  | value :: values, id :: ids, ⟨hvalue, hvalues⟩ =>
      ⟨reads h value id hvalue, readsAll h values ids hvalues⟩

end

end Within

/-! ### One value at an id -/

/-- An id stands for one thing only. -/
structure Unambiguous (g : Glossary) : Prop where
  key : ∀ {id key key'}, g.declares id key → g.declares id key' → key = key'
  name : ∀ {id name name'}, g.names id name → g.names id name' → name = name'
  apart : ∀ {id name key}, g.names id name → ¬ g.declares id key

/-- The constructors of values. -/
inductive Kind where
  | int | word | float | vector | matrix | struct
  deriving DecidableEq

/-- The kind of a value. -/
def kindOf : Constant → Kind
  | .int _ => .int
  | .word _ => .word
  | .float _ => .float
  | .vector _ => .vector
  | .matrix _ => .matrix
  | .struct .. => .struct

/-- The kind of the values of a type that is declared by `key`. -/
def kindOfType? (key : DeclarationKey) : Option Kind :=
  if key = ⟨opTypeInt, [32, 1]⟩ then some .int
  else if key = ⟨opTypeInt, [32, 0]⟩ then some .word
  else if key = ⟨opTypeFloat, [32]⟩ then some .float
  else if key.opcode = opTypeVector then some .vector
  else if key.opcode = opTypeMatrix then some .matrix
  else none

/-- The id `type` is that of a type of values of a `kind`. -/
def IsTypeOf (g : Glossary) (kind : Kind) (type : Id) : Prop :=
  (∃ key, g.declares type key ∧ kindOfType? key = some kind) ∨
    kind = .struct ∧ ∃ name, g.names type name

theorem IsTypeOf.unique (hg : g.Unambiguous) {kind kind' : Kind} {type : Id}
    (h : g.IsTypeOf kind type) (h' : g.IsTypeOf kind' type) : kind = kind' := by
  rcases h with ⟨key, hkey, hkind⟩ | ⟨rfl, name, hname⟩ <;>
    rcases h' with ⟨key', hkey', hkind'⟩ | ⟨rfl, name', hname'⟩
  · rw [hg.key hkey hkey', hkind', Option.some.injEq] at hkind
    exact hkind.symm
  · exact absurd hkey (hg.apart hname')
  · exact absurd hkey' (hg.apart hname)
  · rfl

/-- A value is read at a constant whose type is one of its kind, as `kindOf` says. -/
theorem Reads.exists_type {value : Constant} {id : Id} (h : g.Reads value id) :
    ∃ opcode type words, g.declares id ⟨opcode, type.word :: words⟩ ∧
      g.IsTypeOf (kindOf value) type := by
  cases value with
  | int value =>
    obtain ⟨type, hid, htype⟩ := h
    exact ⟨_, type, _, hid, .inl ⟨_, htype, rfl⟩⟩
  | word value =>
    obtain ⟨type, hid, htype⟩ := h
    exact ⟨_, type, _, hid, .inl ⟨_, htype, rfl⟩⟩
  | float value =>
    obtain ⟨type, hid, htype⟩ := h
    exact ⟨_, type, _, hid, .inl ⟨_, htype, rfl⟩⟩
  | vector components =>
    obtain ⟨type, parts, hid, ⟨float, count, htype, -⟩, -⟩ := h
    exact ⟨_, type, _, hid, .inl ⟨_, htype, rfl⟩⟩
  | matrix columns =>
    obtain ⟨type, parts, hid, ⟨column, count, htype, -⟩, -⟩ := h
    exact ⟨_, type, _, hid, .inl ⟨_, htype, rfl⟩⟩
  | struct name fields =>
    obtain ⟨type, parts, hid, hname, -⟩ := h
    exact ⟨_, type, _, hid, .inr ⟨rfl, name, hname⟩⟩

theorem Reads.kindOf_eq (hg : g.Unambiguous) {value value' : Constant} {id : Id}
    (h : g.Reads value id) (h' : g.Reads value' id) : kindOf value = kindOf value' := by
  obtain ⟨opcode, type, words, hid, htype⟩ := h.exists_type
  obtain ⟨opcode', type', words', hid', htype'⟩ := h'.exists_type
  have hkeys := hg.key hid hid'
  simp only [DeclarationKey.mk.injEq, List.cons.injEq] at hkeys
  have heq : type = type' := congrArg Id.mk hkeys.2.1
  rw [heq] at htype
  exact htype.unique hg htype'

/-- A composite has one `type` and one list of `parts`. -/
theorem Unambiguous.composite (hg : g.Unambiguous) {id type type' : Id} {parts parts' : List Id}
    (h : g.declares id ⟨opConstantComposite, type.word :: parts.map Id.word⟩)
    (h' : g.declares id ⟨opConstantComposite, type'.word :: parts'.map Id.word⟩) :
    type = type' ∧ parts = parts' := by
  have hkeys := hg.key h h'
  simp only [DeclarationKey.mk.injEq, List.cons.injEq, true_and] at hkeys
  have hword : Function.Injective Id.word := fun a b hab => congrArg Id.mk hab
  exact ⟨hword hkeys.1, List.map_injective_iff.mpr hword hkeys.2⟩

/-- A constant has one word. -/
theorem Unambiguous.constant (hg : g.Unambiguous) {id type type' : Id} {word word' : Word}
    (h : g.declares id ⟨opConstant, [type.word, word]⟩)
    (h' : g.declares id ⟨opConstant, [type'.word, word']⟩) : word = word' := by
  have hkeys := hg.key h h'
  simp only [DeclarationKey.mk.injEq, List.cons.injEq, and_true, true_and] at hkeys
  exact hkeys.2

theorem ReadsFloat.unique (hg : g.Unambiguous) : Relator.LeftUnique g.ReadsFloat := by
  rintro value value' id ⟨type, hid, -⟩ ⟨type', hid', -⟩
  exact congrArg Single.mk (hg.constant hid hid')

theorem ReadsVector.unique (hg : g.Unambiguous) : Relator.LeftUnique g.ReadsVector := by
  rintro components components' id ⟨type, parts, hid, -, hparts⟩ ⟨type', parts', hid', -, hparts'⟩
  obtain ⟨-, rfl⟩ := hg.composite hid hid'
  exact List.left_unique_forall₂' (ReadsFloat.unique hg) hparts hparts'

theorem ReadsMatrix.unique (hg : g.Unambiguous) : Relator.LeftUnique g.ReadsMatrix := by
  rintro columns columns' id ⟨type, parts, hid, -, hparts⟩ ⟨type', parts', hid', -, hparts'⟩
  obtain ⟨-, rfl⟩ := hg.composite hid hid'
  exact List.left_unique_forall₂' (ReadsVector.unique hg) hparts hparts'

mutual

/-- At most one value is read at an id. -/
theorem Reads.unique (hg : g.Unambiguous) : ∀ (value value' : Constant) (id : Id),
    g.Reads value id → g.Reads value' id → value = value'
  | .int value, value', id, h, h' => by
      have hkind := h.kindOf_eq hg h'
      cases value' with
      | int value' =>
        obtain ⟨type, hid, -⟩ := h
        obtain ⟨type', hid', -⟩ := h'
        exact congrArg (fun word => Constant.int (Int32.ofUInt32 word)) (hg.constant hid hid')
      | _ => cases hkind
  | .word value, value', id, h, h' => by
      have hkind := h.kindOf_eq hg h'
      cases value' with
      | word value' =>
        obtain ⟨type, hid, -⟩ := h
        obtain ⟨type', hid', -⟩ := h'
        rw [hg.constant hid hid']
      | _ => cases hkind
  | .float value, value', id, h, h' => by
      have hkind := h.kindOf_eq hg h'
      cases value' with
      | float value' => rw [ReadsFloat.unique hg h h']
      | _ => cases hkind
  | .vector components, value', id, h, h' => by
      have hkind := h.kindOf_eq hg h'
      cases value' with
      | vector components' => rw [ReadsVector.unique hg h h']
      | _ => cases hkind
  | .matrix columns, value', id, h, h' => by
      have hkind := h.kindOf_eq hg h'
      cases value' with
      | matrix columns' => rw [ReadsMatrix.unique hg h h']
      | _ => cases hkind
  | .struct name fields, value', id, h, h' => by
      have hkind := h.kindOf_eq hg h'
      cases value' with
      | struct name' fields' =>
        obtain ⟨type, parts, hid, hname, hparts⟩ := h
        obtain ⟨type', parts', hid', hname', hparts'⟩ := h'
        obtain ⟨rfl, rfl⟩ := hg.composite hid hid'
        rw [hg.name hname hname', ReadsAll.unique hg fields fields' parts hparts hparts']
      | _ => cases hkind

theorem ReadsAll.unique (hg : g.Unambiguous) : ∀ (values values' : List Constant) (ids : List Id),
    g.ReadsAll values ids → g.ReadsAll values' ids → values = values'
  | [], [], [], _, _ => rfl
  | value :: values, value' :: values', id :: ids, ⟨hvalue, hvalues⟩, ⟨hvalue', hvalues'⟩ => by
      rw [Reads.unique hg value value' id hvalue hvalue',
        ReadsAll.unique hg values values' ids hvalues hvalues']
  | [], _ :: _, [], _, h' => h'.elim
  | [], _ :: _, _ :: _, h, _ => h.elim
  | _ :: _, [], [], h, _ => h.elim
  | _ :: _, [], _ :: _, _, h' => h'.elim

end

end Glossary

end SpirvBinary
