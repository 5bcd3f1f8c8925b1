import Mathlib.Data.List.Pairwise
import SpirvBinary.Proofs.DeclaredOnce
import SpirvBinary.Proofs.Glossary
import SpirvBinary.Proofs.ModuleFormat

/-!
# Constants are read back to their values

The value of a constant can be read off the global declarations of a module: from the id
of the constant one follows ids to the declarations of its type and of its parts.  A build
answers an id at which the given value is read, and no other value is read there.

The proof goes through two glossaries.  In the glossary of what a draft knows a value is
read as soon as it has been declared, because what is known stays known.  The glossary of
the words of a module agrees with it, because types and constants that are known have been
written, under ids that no other global declaration has.

## Main definitions

* `Chunk.definition?`, `definitions` — the types and constants that a module declares.
* `Declarations.glossary`, `Glossary.ofChunks` — the glossaries of a draft and of a module.

## Main results

* `leads_constant` — the value is read at the id that declaring it answers.
* `constant_reads_back` — **exactly the declared value is read back from the module.**
-/

namespace SpirvBinary

open Opcode

/-! ### Values are read where they are declared -/

/-- The glossary of what is `known`. -/
def Declarations.glossary (known : Declarations) : Glossary where
  declares id key := known.type? key = some id
  names id name := known.struct? name = some id

/-- What `d` knows is known in `e`, which comes after it. -/
theorem Precedes.within {allowed : Elementary → Prop} {d e : Draft} (h : Precedes allowed d e) :
    d.known.glossary.Within e.known.glossary :=
  ⟨fun _ _ _ _ hkey => h.type? hkey, fun _ _ hname => h.struct? hname⟩

/-- A known declaration fits the length field, with its opcode and its result. -/
theorem Precedes.length_le {allowed : Elementary → Prop} {settings : Settings} {d : Draft}
    (h : Precedes allowed { settings := settings } d) {key : DeclarationKey} {id : Id}
    (hkey : d.known.type? key = some id) : key.operands.length ≤ 65533 := by
  obtain ⟨log, course⟩ := h
  refine course.induction
    (P := fun _ d => ∀ key id, d.known.type? key = some id → key.operands.length ≤ 65533)
    (fun _ _ h => nomatch h) (fun log e op entries f _ effect ih key id hkey => ?_) key id hkey
  cases effect with
  | idle h => exact ih key id (h.known ▸ hkey)
  | @declared opcode type operands _ _ hfits _ hknown =>
    rw [hknown] at hkey
    by_cases heq : ⟨opcode, Instruction.slot type ++ operands⟩ = key
    · rw [← heq]
      simp only [Instruction.Fits, Instruction.wordCount, Instruction.maxWordCount,
        Instruction.slot_some, List.length_singleton] at hfits
      rw [List.length_append]
      omega
    · exact ih key id ((OrderedMap.get?_insert_of_ne _ _ heq).symm.trans hkey)
  | registered _ _ hknown => rw [hknown] at hkey; exact ih key id hkey
  | allotted _ hknown => exact ih key id (hknown ▸ hkey)
  | emitted _ hknown => exact ih key id (hknown ▸ hkey)

/-- So the number of `parts` of a known composite can be stated by a word. -/
theorem Precedes.parts_lt {allowed : Elementary → Prop} {settings : Settings} {d : Draft}
    (h : Precedes allowed { settings := settings } d) {id type : Id} {parts : List Id}
    (hid : d.known.glossary.declares id ⟨opConstantComposite, type.word :: parts.map Id.word⟩) :
    parts.length < 4294967296 := by
  have hlength := h.length_le hid
  simp only [List.length_cons, List.length_map] at hlength
  omega

section Declaring

variable {d : Draft}

/-- A declaration that succeeds is known from then on. -/
theorem leads_declare (opcode : Opcode) (type : Option Id) (hkinds : KeepsKinds opcode type)
    (operands : List Word) (d : Draft) :
    Leads (Build.declare opcode type operands) d
      (fun id e => Precedes Elementary.Orderly d e ∧
        e.known.glossary.declares id ⟨opcode, Instruction.slot type ++ operands⟩)
      (Precedes Elementary.Orderly d) := by
  have hmoves : Moves (Precedes Elementary.Orderly) (Build.declare opcode type operands) :=
    Precedes.of_op (.declare opcode type operands) ⟨trivial, hkinds⟩
  cases hrun : Build.declare opcode type operands d with
  | ok id e => exact .of_ok hrun ⟨after_of_ok hrun ▸ hmoves d, Build.type?_of_declare hrun⟩
  | error fault e => exact .of_error hrun (after_of_error hrun ▸ hmoves d)

theorem leads_declareType {opcode : Opcode} (h : opcode ∉ constantOpcodes) (operands : List Word)
    (d : Draft) :
    Leads (Build.declareType opcode operands) d
      (fun id e => Precedes Elementary.Orderly d e ∧
        e.known.glossary.declares id ⟨opcode, operands⟩)
      (Precedes Elementary.Orderly d) := leads_declare opcode none h operands d

theorem leads_declareConstant {opcode : Opcode} (h : opcode ∉ typeOpcodes) (type : Id)
    (operands : List Word) (d : Draft) :
    Leads (Build.declareConstant opcode type operands) d
      (fun id e => Precedes Elementary.Orderly d e ∧
        e.known.glossary.declares id ⟨opcode, type.word :: operands⟩)
      (Precedes Elementary.Orderly d) := leads_declare opcode (some type) h operands d

/-- A constant of a type that is declared before it, by an `opcode` for types. -/
theorem leads_scalar {opcode : Opcode} (h : opcode ∉ constantOpcodes) (operands : List Word)
    (word : Word) (d : Draft) :
    Leads (do
        let type ← Build.declareType opcode operands
        Build.declareConstant opConstant type [word]) d
      (fun id e => Precedes Elementary.Orderly d e ∧ ∃ type,
        e.known.glossary.declares id ⟨opConstant, [type.word, word]⟩ ∧
          e.known.glossary.declares type ⟨opcode, operands⟩)
      (Precedes Elementary.Orderly d) := by
  refine Leads.bind_along (fun _ _ _ => .trans) (leads_declareType h operands d)
    fun type e _ htype => ?_
  refine (leads_declareConstant (by decide) type [word] e).mono ?_ fun _ h => h
  rintro id f ⟨hef, hid⟩
  exact ⟨hef, type, hid, hef.type? htype⟩

theorem leads_floatConstant (value : Single) (d : Draft) :
    Leads (Build.floatConstant value) d
      (fun id e => Precedes Elementary.Orderly d e ∧ e.known.glossary.ReadsFloat value id)
      (Precedes Elementary.Orderly d) := leads_scalar (by decide) [32] value.bits d

variable {settings : Settings}

/-- The parts of a composite that are declared one after the other by `f`, and read as `reads`
says. -/
theorem leads_parts {β : Type} (reads : Glossary → β → Id → Prop)
    (hreads : ∀ {g g' : Glossary}, g.Within g' → ∀ value id, reads g value id → reads g' value id)
    {f : β → Build Id} (loop : List Id → List β → Build (List Id))
    (hnil : ∀ declared, loop declared [] = return declared.reverse)
    (hcons : ∀ declared value rest,
      loop declared (value :: rest) = f value >>= fun id => loop (id :: declared) rest)
    (values : List β)
    (hf : ∀ value ∈ values, ∀ d, Precedes Elementary.Orderly { settings := settings } d →
      Leads (f value) d
        (fun id e => Precedes Elementary.Orderly d e ∧ reads e.known.glossary value id)
        (Precedes Elementary.Orderly d))
    (hd : Precedes Elementary.Orderly { settings := settings } d) :
    Leads (loop [] values) d
      (fun parts e => Precedes Elementary.Orderly d e ∧
        List.Forall₂ (reads e.known.glossary) values parts)
      (Precedes Elementary.Orderly d) := by
  have hcollect := Leads.collect Precedes.refl (fun _ _ _ => Precedes.trans)
    (fun _ _ hde hd => hd.trans hde) (P := fun value id e => reads e.known.glossary value id)
    (fun value id _ _ hde hid => hreads hde.within value id hid) hnil hcons hf [] hd
  refine hcollect.mono ?_ fun _ h => h
  rintro _ e ⟨hde, parts, rfl, hparts⟩
  exact ⟨hde, hparts⟩

theorem leads_vectorConstant (components : List Single)
    (hd : Precedes Elementary.Orderly { settings := settings } d) :
    Leads (Build.vectorConstant components) d
      (fun id e => Precedes Elementary.Orderly d e ∧ e.known.glossary.ReadsVector components id)
      (Precedes Elementary.Orderly d) := by
  refine Leads.bind_along (fun _ _ _ => .trans) (leads_declareType (by decide) _ d)
    fun float d₁ h₁ hfloat => ?_
  refine Leads.bind_along (fun _ _ _ => .trans) (leads_declareType (by decide) _ d₁)
    fun type d₂ h₂ htype => ?_
  refine Leads.bind_along (fun _ _ _ => .trans)
    (leads_parts Glossary.ReadsFloat (fun h _ _ => h.readsFloat) Build.floatConstants
      (fun _ => rfl) (fun _ _ _ => rfl) components
      (fun value _ e _ => leads_floatConstant value e) ((hd.trans h₁).trans h₂))
    fun parts d₃ h₃ hparts => ?_
  refine (leads_declareConstant (by decide) type _ d₃).mono ?_ fun _ h => h
  rintro id e ⟨h₄, hid⟩
  have he := (((hd.trans h₁).trans h₂).trans h₃).trans h₄
  refine ⟨h₄, type, parts, hid, ⟨float, _, (h₃.trans h₄).type? htype, ?_,
    (h₂.trans (h₃.trans h₄)).type? hfloat⟩, hparts.imp fun _ _ => h₄.within.readsFloat⟩
  rw [hparts.length_eq]
  exact UInt32.toNat_ofNat_of_lt' (he.parts_lt hid)

/-- A vector that has been declared has fewer components than there are words. -/
theorem Precedes.components_lt {components : List Single} {id : Id}
    (hd : Precedes Elementary.Orderly { settings := settings } d)
    (h : d.known.glossary.ReadsVector components id) : components.length < 4294967296 := by
  obtain ⟨type, parts, hid, -, hparts⟩ := h
  rw [hparts.length_eq]
  exact hd.parts_lt hid

theorem leads_matrixConstant (columns : List (List Single))
    (hd : Precedes Elementary.Orderly { settings := settings } d) :
    Leads (Build.matrixConstant columns) d
      (fun id e => Precedes Elementary.Orderly d e ∧ e.known.glossary.ReadsMatrix columns id)
      (Precedes Elementary.Orderly d) := by
  refine Leads.bind_along (fun _ _ _ => .trans) (leads_declareType (by decide) _ d)
    fun float d₁ h₁ hfloat => ?_
  refine Leads.bind_along (fun _ _ _ => .trans) (leads_declareType (by decide) _ d₁)
    fun column d₂ h₂ hcolumn => ?_
  refine Leads.bind_along (fun _ _ _ => .trans) (leads_declareType (by decide) _ d₂)
    fun type d₃ h₃ htype => ?_
  refine Leads.bind_along (fun _ _ _ => .trans)
    (leads_parts Glossary.ReadsVector (fun h _ _ => h.readsVector) Build.vectorConstants
      (fun _ => rfl) (fun _ _ _ => rfl) columns
      (fun column _ e he => leads_vectorConstant column he) (((hd.trans h₁).trans h₂).trans h₃))
    fun parts d₄ h₄ hparts => ?_
  refine (leads_declareConstant (by decide) type _ d₄).mono ?_ fun _ h => h
  rintro id e ⟨h₅, hid⟩
  have he := ((((hd.trans h₁).trans h₂).trans h₃).trans h₄).trans h₅
  have hvectors := hparts.imp fun _ _ => h₅.within.readsVector
  refine ⟨h₅, type, parts, hid, ⟨column, _, (h₄.trans h₅).type? htype, ?_, float, _,
    (h₃.trans (h₄.trans h₅)).type? hcolumn, ?_,
    (h₂.trans (h₃.trans (h₄.trans h₅))).type? hfloat⟩, hvectors⟩
  · rw [hparts.length_eq]
    exact UInt32.toNat_ofNat_of_lt' (he.parts_lt hid)
  · -- the first column has been declared, so its length is small
    refine UInt32.toNat_ofNat_of_lt' ?_
    cases hvectors with
    | nil => decide
    | cons hfirst _ => exact he.components_lt hfirst

theorem leads_structType (name : String) (d : Draft) :
    Leads (Build.structType name) d
      (fun id e => Precedes Elementary.Orderly d e ∧ e.known.glossary.names id name)
      (Precedes Elementary.Orderly d) := by
  cases hname : d.known.struct? name with
  | some id => exact .of_ok (Build.structType_of_known hname) ⟨.refl d, hname⟩
  | none => exact .of_error (Build.structType_of_unknown hname) (.refl d)

mutual

/-- Declaring a `value` answers an id at which the value is read. -/
theorem leads_constant : ∀ (value : Constant) (d : Draft),
    Precedes Elementary.Orderly { settings := settings } d →
      Leads (Build.constant value) d
        (fun id e => Precedes Elementary.Orderly d e ∧ e.known.glossary.Reads value id)
        (Precedes Elementary.Orderly d)
  | .int value, d, _ => by
      rw [Build.constant]
      exact leads_scalar (by decide) [32, 1] (intWord value) d
  | .word value, d, _ => by
      rw [Build.constant]
      exact leads_scalar (by decide) [32, 0] value d
  | .float value, d, _ => by
      rw [Build.constant]
      exact leads_floatConstant value d
  | .vector components, d, hd => by
      rw [Build.constant]
      exact leads_vectorConstant components hd
  | .matrix columns, d, hd => by
      rw [Build.constant]
      exact leads_matrixConstant columns hd
  | .struct name fields, d, hd => by
      rw [Build.constant]
      refine Leads.bind_along (fun _ _ _ => .trans) (leads_structType name d)
        fun type d₁ h₁ htype => ?_
      refine Leads.bind_along (fun _ _ _ => .trans)
        (leads_parts Glossary.Reads (fun h => h.reads) Build.constants
          (fun _ => by rw [Build.constants]) (fun _ _ _ => by rw [Build.constants]) fields
          (leads_constants fields) (hd.trans h₁))
        fun parts d₂ h₂ hparts => ?_
      refine (leads_declareConstant (by decide) type _ d₂).mono ?_ fun _ h => h
      rintro id e ⟨h₃, hid⟩
      exact ⟨h₃, type, parts, hid, (h₂.trans h₃).struct? htype,
        Glossary.readsAll_of_forall₂ (hparts.imp fun _ _ => h₃.within.reads _ _)⟩

theorem leads_constants : ∀ (values : List Constant), ∀ value ∈ values, ∀ d,
    Precedes Elementary.Orderly { settings := settings } d →
      Leads (Build.constant value) d
        (fun id e => Precedes Elementary.Orderly d e ∧ e.known.glossary.Reads value id)
        (Precedes Elementary.Orderly d)
  | [], _, h => nomatch h
  | value :: values, other, h => by
      rcases List.mem_cons.mp h with heq | h
      · exact heq ▸ leads_constant value
      · exact leads_constants values other h

end

end Declaring

/-! ### The glossary of a module -/

/-- The type or constant that a chunk declares.  A type is declared by its result and its
words, a constant by its type, its result and its words. -/
def Chunk.definition? (chunk : Chunk) : Option (Id × DeclarationKey) :=
  if chunk.opcode ∈ typeOpcodes then
    match chunk.payload with
    | result :: words => some (⟨result⟩, ⟨chunk.opcode, words⟩)
    | [] => none
  else if chunk.opcode ∈ constantOpcodes then
    match chunk.payload with
    | type :: result :: words => some (⟨result⟩, ⟨chunk.opcode, type :: words⟩)
    | _ => none
  else none

/-- The types and constants that `chunks` declare. -/
def definitions (chunks : List Chunk) : OrderedMap Id DeclarationKey :=
  (chunks.filterMap Chunk.definition?).foldl (fun map entry => map.insert entry.1 entry.2) {}

/-- The glossary of a module: types and constants as its `chunks` declare them, and the structs
that are registered under names and declared by a chunk. -/
def Glossary.ofChunks (chunks : List Chunk) (known : Declarations) : Glossary where
  declares id key := (definitions chunks).get? id = some key
  names id name := known.struct? name = some id ∧
    ∃ members, ⟨opTypeStruct, id.word :: members⟩ ∈ chunks

namespace Chunk

theorem definition?_type {opcode : Opcode} (h : opcode ∈ typeOpcodes) (id : Id)
    (words : List Word) :
    (Chunk.mk opcode (id.word :: words)).definition? = some (id, ⟨opcode, words⟩) := by
  simp only [definition?, if_pos h]

theorem definition?_constant {opcode : Opcode} (h : opcode ∈ constantOpcodes) (type : Word)
    (id : Id) (words : List Word) :
    (Chunk.mk opcode (type :: id.word :: words)).definition?
      = some (id, ⟨opcode, type :: words⟩) := by
  have hdisjoint : ∀ opcode ∈ constantOpcodes, opcode ∉ typeOpcodes := by decide
  simp only [definition?, if_neg (hdisjoint opcode h), if_pos h]

theorem definition?_other {opcode : Opcode} (h : opcode ∉ typeOpcodes ++ constantOpcodes)
    (payload : List Word) : (Chunk.mk opcode payload).definition? = none := by
  rw [List.mem_append, not_or] at h
  simp only [definition?, if_neg h.1, if_neg h.2]

end Chunk

/-- Where kinds are kept apart, the chunk of a global declaration is read by `Chunk.definition?` as
what it declares. -/
theorem Logged.definition?_chunk {entry : Author × Instruction}
    (h : Logged Elementary.Orderly entry) :
    entry.2.chunk.definition? =
      if entry.2.opcode ∈ typeOpcodes ++ constantOpcodes then
        entry.2.result.map fun id => (id, entry.2.key)
      else none := by
  by_cases hopcode : entry.2.opcode ∈ typeOpcodes ++ constantOpcodes
  · rw [if_pos hopcode]
    cases h with
    | @declaration opcode type operands id hop =>
      have hkinds : KeepsKinds opcode type := hop.2
      cases type with
      | none =>
        have htype : opcode ∈ typeOpcodes := (List.mem_append.mp hopcode).resolve_right hkinds
        exact Chunk.definition?_type htype id operands
      | some type =>
        have hconstant : opcode ∈ constantOpcodes :=
          (List.mem_append.mp hopcode).resolve_left hkinds
        exact Chunk.definition?_constant hconstant type.word id operands
    | struct => exact absurd hopcode (show opTypeStruct ∉ _ by decide)
    | globalVariable => exact absurd hopcode (show opVariable ∉ _ by decide)
    | caller h => exact absurd rfl h.1
  · rw [if_neg hopcode]
    exact Chunk.definition?_other hopcode _

/-! ### The glossaries of a draft and of its module -/

section Module

variable {settings : Settings} {log : List (Author × Instruction)} {d : Draft}

/-- Two global declarations with the same result are the same. -/
theorem Course.eq_of_result (course : Course Elementary.Orderly { settings := settings } log d)
    (hcount : d.ids.count < 4294967296) {inst inst' : Instruction} {id : Id}
    (hmem : inst ∈ d.globals) (hmem' : inst' ∈ d.globals) (h : inst.result = some id)
    (h' : inst'.result = some id) : inst = inst' := by
  have hnodup := course.results_nodup (fun _ hop => hop.1) rfl hcount
  have hpairs := List.pairwise_filterMap.mp hnodup
  have hsymm : Std.Symm fun a b : Instruction => ∀ id, a.result = some id → ∀ id',
      b.result = some id' → id ≠ id' := ⟨fun a b hab id hid id' hid' => (hab id' hid' id hid).symm⟩
  by_contra hne
  exact hpairs.forall hmem hmem' hne id h id h' rfl

/-- The `definitions` that are read off a module are its global declarations of types and
constants. -/
theorem Course.toList_definitions
    (course : Course Elementary.Orderly { settings := settings } log d)
    (hcount : d.ids.count < 4294967296) :
    (definitions (d.globals.map Instruction.chunk)).toList
      = (d.globals.filter fun inst => inst.opcode ∈ typeOpcodes ++ constantOpcodes).filterMap
        fun inst => inst.result.map fun id => (id, inst.key) := by
  have hentries : (d.globals.map Instruction.chunk).filterMap Chunk.definition?
      = (d.globals.filter fun inst => inst.opcode ∈ typeOpcodes ++ constantOpcodes).filterMap
        fun inst => inst.result.map fun id => (id, inst.key) := by
    rw [List.filterMap_map, List.filterMap_filter]
    refine List.filterMap_congr fun inst hinst => ?_
    rw [course.globals] at hinst
    obtain ⟨entry, hentry, rfl⟩ := List.mem_map.mp hinst
    simpa using (course.logged entry hentry).definition?_chunk
  -- no id is the result of two global declarations, so no insertion replaces another one
  have hkeys : (((d.globals.filter fun inst => inst.opcode ∈ typeOpcodes ++ constantOpcodes
      ).filterMap fun inst => inst.result.map fun id => (id, inst.key)).map Prod.fst).Nodup := by
    have hsublist := (List.filter_sublist (l := d.globals)
      (p := fun inst => inst.opcode ∈ typeOpcodes ++ constantOpcodes)).filterMap Instruction.result
    have hnodup := hsublist.nodup (course.results_nodup (fun _ hop => hop.1) rfl hcount)
    rw [List.map_filterMap]
    simp only [Option.map_map, Function.comp_def, Option.map_id_fun']
    exact hnodup
  rw [definitions, hentries]
  exact OrderedMap.toList_foldl_insert hkeys

theorem Course.get?_definitions
    (course : Course Elementary.Orderly { settings := settings } log d)
    (hcount : d.ids.count < 4294967296) {id : Id} {key : DeclarationKey} :
    (definitions (d.globals.map Instruction.chunk)).get? id = some key ↔
      ∃ inst ∈ d.globals, inst.opcode ∈ typeOpcodes ++ constantOpcodes ∧
        inst.result = some id ∧ inst.key = key := by
  rw [OrderedMap.get?_eq_some_iff, course.toList_definitions hcount]
  simp only [List.mem_filterMap, List.mem_filter, decide_eq_true_eq, Option.map_eq_some_iff,
    Prod.mk.injEq]
  constructor
  · rintro ⟨inst, ⟨hmem, hopcode⟩, _, hresult, rfl, hkey⟩
    exact ⟨inst, hmem, hopcode, hresult, hkey⟩
  · rintro ⟨inst, hmem, hopcode, hresult, hkey⟩
    exact ⟨inst, ⟨hmem, hopcode⟩, id, hresult, rfl, hkey⟩

/-- A registered struct has its global declaration. -/
theorem Course.struct_mem (course : Course Elementary.Orderly { settings := settings } log d)
    {name : String} {id : Id} (h : d.known.struct? name = some id) :
    ∃ members, ⟨opTypeStruct, none, some id, members⟩ ∈ d.globals := by
  have hid : id ∈ resultsOf (writtenBy .struct log) := by
    rw [← course.structs]
    exact List.mem_map_of_mem (OrderedMap.mem_toList_of_get? h)
  obtain ⟨inst, hinst, hresult⟩ := mem_resultsOf.mp hid
  obtain ⟨⟨author, _⟩, hentry, rfl⟩ := List.mem_map.mp hinst
  obtain ⟨hmem, hauthor⟩ := List.mem_filter.mp hentry
  cases course.logged _ hmem with
  | @struct _ members =>
    cases hresult
    refine ⟨members, ?_⟩
    rw [course.globals]
    exact List.mem_map_of_mem hmem
  | _ => simp at hauthor

/-- Whatever a draft knows stands in its module. -/
theorem Course.within (course : Course Elementary.Orderly { settings := settings } log d)
    (hcount : d.ids.count < 4294967296) :
    d.known.glossary.Within (.ofChunks (d.globals.map Instruction.chunk) d.known) := by
  constructor
  · intro id opcode words hopcode hknown
    have hmem := OrderedMap.get?_eq_some_iff.mp hknown
    have hentry : (⟨opcode, words⟩, some id) ∈
        (writtenBy .declaration log).map fun inst => (inst.key, inst.result) := by
      rw [course.mirrors.entries]
      exact List.mem_map.mpr ⟨_, hmem, rfl⟩
    obtain ⟨inst, hinst, heq⟩ := List.mem_map.mp hentry
    obtain ⟨hkey, hresult⟩ := Prod.mk.inj heq
    refine (course.get?_definitions hcount).mpr ⟨inst, ?_, ?_, hresult, hkey⟩
    · rw [course.globals]
      exact (List.filter_sublist.map Prod.snd).subset hinst
    · have heq : inst.opcode = opcode := congrArg DeclarationKey.opcode hkey
      rwa [heq]
  · intro id name hname
    obtain ⟨members, hmem⟩ := course.struct_mem hname
    exact ⟨hname, members, List.mem_map_of_mem hmem⟩

/-- An id stands for one thing only in a module. -/
theorem Course.unambiguous (course : Course Elementary.Orderly { settings := settings } log d)
    (hcount : d.ids.count < 4294967296) :
    (Glossary.ofChunks (d.globals.map Instruction.chunk) d.known).Unambiguous := by
  constructor
  · intro id key key' h h'
    exact Option.some.inj (h.symm.trans h')
  · intro id name name' h h'
    have hnodup : (d.known.structs.toList.map Prod.snd).Nodup := by
      rw [course.structs]
      exact (resultsOf_writtenBy_sublist (by decide) log).nodup (course.numbered.2.nodup hcount)
    exact congrArg Prod.fst (List.inj_on_of_nodup_map hnodup
      (OrderedMap.mem_toList_of_get? h.1) (OrderedMap.mem_toList_of_get? h'.1) rfl)
  · intro id name key hname hkey
    obtain ⟨members, hmem⟩ := course.struct_mem hname.1
    obtain ⟨inst, hinst, hopcode, hresult, -⟩ := (course.get?_definitions hcount).mp hkey
    rw [course.eq_of_result hcount hinst hmem hresult rfl] at hopcode
    exact absurd hopcode (show opTypeStruct ∉ _ by decide)

end Module

/-- **Exactly the declared value is read back from the module.**  Take a run that writes no
instruction to the global declarations as it is and keeps types and constants apart, and a
value that is declared after it.  The words of the global declarations split into chunks,
and following ids through them, from the id that was answered, one reads the value and no
other, bit for bit. -/
theorem constant_reads_back {τ : Type} {script : Script τ}
    (huses : script.Uses fun operation => operation.SparesGlobals ∧ operation.KeepsKinds)
    (settings : Settings) (lenient : Bool) {value : Constant} {id : Id} {d : Draft}
    (hrun : Build.constant value (script.draftAfter settings lenient) = .ok id d)
    (hcount : d.ids.count < 4294967295) :
    ∃ chunks : List Chunk,
      Reader.drain ⟨d.layout.sectionWords .globalDeclarations, 0⟩
        = (chunks.map .ok, ⟨[], (d.layout.sectionWords .globalDeclarations).length⟩) ∧
      ∀ other, (Glossary.ofChunks chunks d.known).Reads other id ↔ other = value := by
  have hstart := Precedes.draftAfter_of_orderly huses settings lenient
  obtain ⟨hmove, hread⟩ := (leads_constant value _ hstart).ok hrun
  obtain ⟨log, course⟩ := hstart.trans hmove
  have hcount' : d.ids.count < 4294967296 := hcount.trans (by decide)
  refine ⟨d.globals.map Instruction.chunk, d.layout.drain_sectionWords _,
    fun other => ⟨fun hother => ?_, ?_⟩⟩
  · have hvalue := (course.within hcount').reads value id hread
    exact Glossary.Reads.unique (course.unambiguous hcount') other value id hother hvalue
  · rintro rfl
    exact (course.within hcount').reads _ id hread

/-- A struct, a vector whose component is declared later, and a step that fails. -/
def registerMixed : Script Unit :=
  .command ⟨(), none, false⟩ (.registerStruct ⟨"Mixed", [("m", .matrix 2 1), ("x", .float)]⟩) <|
  .command ⟨(), none, false⟩ (.compositeConstant (.given ⟨2⟩) [.given ⟨6⟩]) <|
  .command ⟨(), none, true⟩ (.constant (.struct "Other" [])) .done

/-- A value with columns of different lengths, a NaN, a negative zero, and a signed and an
unsigned number with the same word. -/
def mixedValue : Constant :=
  .struct "Mixed" [.matrix [[⟨1065353216⟩], []], .float ⟨2143289344⟩, .float ⟨2147483648⟩,
    .int (-1), .word 4294967295]

theorem constant_reads_back_mixedValue :
    ∃ id d, Build.constant mixedValue (registerMixed.draftAfter {} false) = .ok id d ∧
      ∃ chunks : List Chunk, Reader.drain ⟨d.layout.sectionWords .globalDeclarations, 0⟩
          = (chunks.map .ok, ⟨[], (d.layout.sectionWords .globalDeclarations).length⟩) ∧
        ∀ other, (Glossary.ofChunks chunks d.known).Reads other id ↔ other = mixedValue := by
  have huses : registerMixed.Uses fun operation =>
      operation.SparesGlobals ∧ operation.KeepsKinds := by
    simp [registerMixed, Script.Uses, Command.SparesGlobals, Command.KeepsKinds]
  have hok : Succeeds (Build.constant mixedValue) (registerMixed.draftAfter {} false)
      fun _ d => d.ids.count = 16 := by decide +kernel
  obtain ⟨id, d, hrun, hcount⟩ := hok
  exact ⟨id, d, hrun, constant_reads_back huses {} false hrun (by rw [hcount]; decide)⟩

end SpirvBinary
