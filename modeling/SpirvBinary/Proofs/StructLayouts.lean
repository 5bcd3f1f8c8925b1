import SpirvBinary.Proofs.ConstantValues
import SpirvBinary.Proofs.StructRegistry
import SpirvBinary.Proofs.StructTraversal

/-!
# Structs are read back to their fields

Registering a struct writes one declaration for each struct of its tree that is registered
on the way, with one member for each field.  What type a member has can be read off the
global declarations: from its id one follows ids to the declarations of its parts, or finds
it to be the id of a struct that is registered under a name.  The names of a struct and of
its members are written together with it.

## Main definitions

* `MemberType`, `Glossary.ReadsMember` — what a member can be, and reading it at an id.
* `Registration` — a struct that is registered, with its id and those of its members.
* `Registers` — what the registration of structs adds to a draft.

## Main results

* `leads_fieldType` — declaring a field registers what the traversal of its tree says.
* `registerStruct_reads_back` — **registered structs are read back to their fields.**
-/

namespace SpirvBinary

open Opcode

/-! ### Reading members -/

/-- What the type of a member can be read as. -/
inductive MemberType where
  | int
  | word
  | float
  | vector (count : Word)
  | matrix (columns rows : Word)
  /-- The struct that is registered under a name. -/
  | struct (name : String)
  deriving DecidableEq

/-- What the type of a field is read as: a struct given in full is one with its name. -/
def FieldType.member : FieldType → MemberType
  | .int => .int
  | .word => .word
  | .float => .float
  | .vector count => .vector count
  | .matrix columns rows => .matrix columns rows
  | .struct name _ => .struct name
  | .named name => .struct name

namespace Glossary

variable {g g' : Glossary}

/-- The type of a member is read at an id, as the glossary `g` says. -/
def ReadsMember (g : Glossary) : MemberType → Id → Prop
  | .int, id => g.declares id ⟨opTypeInt, [32, 1]⟩
  | .word, id => g.declares id ⟨opTypeInt, [32, 0]⟩
  | .float, id => g.declares id ⟨opTypeFloat, [32]⟩
  | .vector count, id => g.IsVectorType count.toNat id
  | .matrix columns rows, id => ∃ column, g.declares id ⟨opTypeMatrix, [column.word, columns]⟩ ∧
      g.IsVectorType rows.toNat column
  | .struct name, id => g.names id name

theorem Within.readsMember (h : g.Within g') {member : MemberType} {id : Id}
    (hread : g.ReadsMember member id) : g'.ReadsMember member id := by
  cases member with
  | int => exact h.declares _ (by decide) hread
  | word => exact h.declares _ (by decide) hread
  | float => exact h.declares _ (by decide) hread
  | vector count => exact h.isVectorType hread
  | matrix columns rows =>
    obtain ⟨column, hid, hcolumn⟩ := hread
    exact ⟨column, h.declares _ (by decide) hid, h.isVectorType hcolumn⟩
  | struct name => exact h.names id name hread

/-- The length `count` of a vector type is determined by its id. -/
theorem IsVectorType.unique (hg : g.Unambiguous) {count count' : Word} {id : Id}
    (h : g.IsVectorType count.toNat id) (h' : g.IsVectorType count'.toNat id) : count = count' := by
  obtain ⟨float, word, hid, hword, -⟩ := h
  obtain ⟨float', word', hid', hword', -⟩ := h'
  have hkeys := hg.key hid hid'
  simp only [DeclarationKey.mk.injEq, List.cons.injEq, and_true, true_and] at hkeys
  rw [hkeys.2] at hword
  exact UInt32.toNat_inj.mp (hword.symm.trans hword')

/-- The kind of the values of a member. -/
def kindOfMember : MemberType → Kind
  | .int => .int
  | .word => .word
  | .float => .float
  | .vector _ => .vector
  | .matrix .. => .matrix
  | .struct _ => .struct

theorem ReadsMember.isTypeOf {member : MemberType} {id : Id} (h : g.ReadsMember member id) :
    g.IsTypeOf (kindOfMember member) id := by
  cases member with
  | int => exact .inl ⟨_, h, rfl⟩
  | word => exact .inl ⟨_, h, rfl⟩
  | float => exact .inl ⟨_, h, rfl⟩
  | vector count =>
    obtain ⟨float, word, hid, -⟩ := h
    exact .inl ⟨_, hid, rfl⟩
  | matrix columns rows =>
    obtain ⟨column, hid, -⟩ := h
    exact .inl ⟨_, hid, rfl⟩
  | struct name => exact .inr ⟨rfl, name, h⟩

/-- At most one `member` is read at an id. -/
theorem ReadsMember.unique (hg : g.Unambiguous) {member member' : MemberType} {id : Id}
    (h : g.ReadsMember member id) (h' : g.ReadsMember member' id) : member = member' := by
  have hkind : kindOfMember member = kindOfMember member' := h.isTypeOf.unique hg h'.isTypeOf
  cases member <;> cases member' <;> cases hkind
  case int.int.refl => rfl
  case word.word.refl => rfl
  case float.float.refl => rfl
  case vector.vector.refl => rw [IsVectorType.unique hg h h']
  case matrix.matrix.refl =>
    obtain ⟨column, hid, hcolumn⟩ := h
    obtain ⟨column', hid', hcolumn'⟩ := h'
    have hkeys := hg.key hid hid'
    simp only [DeclarationKey.mk.injEq, List.cons.injEq, and_true, true_and] at hkeys
    have heq : column = column' := congrArg Id.mk hkeys.1
    subst heq
    rw [hkeys.2, IsVectorType.unique hg hcolumn hcolumn']
  case struct.struct.refl => rw [hg.name h h']

end Glossary

/-! ### What a registration adds -/

/-- A struct that is registered, with its id and those of its members' types. -/
structure Registration where
  node : StructType
  id : Id
  members : List Id

namespace Registration

/-- The declaration of the struct. -/
def instruction (r : Registration) : Instruction :=
  { opcode := opTypeStruct, result := some r.id, operands := r.members.map Id.word }

/-- The entry of the registry. -/
def entry (r : Registration) : String × Id := (r.node.name, r.id)

end Registration

/-- The names of the `fields` of the struct `type`, counted from `index`. -/
def memberNames (type : Id) (index : Nat) (fields : List (String × FieldType)) :
    List Instruction :=
  (fields.zipIdx index).map fun (field, i) =>
    { opcode := opMemberName, operands := type.word :: UInt32.ofNat i :: textWords field.1 }

/-- The name of the struct, and then those of its members. -/
def Registration.names (r : Registration) : List Instruction :=
  { opcode := opName, operands := r.id.word :: textWords r.node.name }
    :: memberNames r.id 0 r.node.fields

/-- The names that are written in a draft, in order. -/
def Draft.names (d : Draft) : List Instruction := d.layout.instructions .debugNames

/-- No section but the global declarations and the names has changed from `d` to `e`. -/
def Draft.SameElsewhere (d e : Draft) : Prop :=
  ∀ s, s ≠ .globalDeclarations → s ≠ .debugNames → e.layout.instructions s = d.layout.instructions s

/-- From `d` to `e` the structs `regs` are registered, one after the other, and nothing else is
declared than types. -/
structure Registers (regs : List Registration) (d e : Draft) : Prop where
  precedes : Precedes Elementary.Orderly d e
  structs : e.known.structList = d.known.structList ++ regs.map Registration.entry
  globals : ∃ added, e.globals = d.globals ++ added ∧
    added.filter (fun inst => inst.opcode = opTypeStruct) = regs.map Registration.instruction
  names : e.names = d.names ++ regs.flatMap Registration.names
  elsewhere : d.SameElsewhere e
  members : ∀ r ∈ regs, List.Forall₂
    (fun field member => e.known.glossary.ReadsMember field.2.member member)
    r.node.fields r.members

namespace Registers

variable {regs regs' : List Registration} {d e f : Draft}

theorem trans (hde : Registers regs d e) (hef : Registers regs' e f) :
    Registers (regs ++ regs') d f := by
  obtain ⟨added, hadded, hstructs⟩ := hde.globals
  obtain ⟨added', hadded', hstructs'⟩ := hef.globals
  refine ⟨hde.precedes.trans hef.precedes, ?_, ⟨added ++ added', ?_, ?_⟩, ?_,
    fun s h h' => (hef.elsewhere s h h').trans (hde.elsewhere s h h'), ?_⟩
  · rw [hef.structs, hde.structs, List.map_append, List.append_assoc]
  · rw [hadded', hadded, List.append_assoc]
  · rw [List.filter_append, hstructs, hstructs', List.map_append]
  · rw [hef.names, hde.names, List.flatMap_append, List.append_assoc]
  · intro r hr
    rcases List.mem_append.mp hr with hr | hr
    · exact (hde.members r hr).imp fun _ _ => hef.precedes.within.readsMember
    · exact hef.members r hr

/-- Where the registry and the names are the same and no struct is among what is `added`, none is
registered. -/
theorem nil {added : List Instruction} (hprecedes : Precedes Elementary.Orderly d e)
    (hknown : e.known.structs = d.known.structs) (hglobals : e.globals = d.globals ++ added)
    (hadded : ∀ inst ∈ added, inst.opcode ≠ opTypeStruct) (hnames : e.names = d.names)
    (helsewhere : d.SameElsewhere e) : Registers [] d e := by
  refine ⟨hprecedes, ?_, ⟨added, hglobals, ?_⟩, ?_, helsewhere, fun r hr => nomatch hr⟩
  · rw [Declarations.structList, hknown, List.map_nil, List.append_nil]
    rfl
  · rw [List.map_nil, List.filter_eq_nil_iff]
    intro inst hinst
    simpa using hadded inst hinst
  · rw [hnames, List.flatMap_nil, List.append_nil]

theorem refl (d : Draft) : Registers [] d d :=
  nil (.refl d) rfl (List.append_nil _).symm (fun _ h => nomatch h) rfl fun _ _ _ => rfl

/-- Notes change nothing of that. -/
theorem note (d : Draft) (events : List Event) : Registers [] d { d with journal := events } :=
  nil (.of_op (.note events) ⟨trivial, trivial⟩ d) rfl (List.append_nil _).symm
    (fun _ h => nomatch h) rfl fun _ _ _ => rfl

/-- The names that are registered afterwards. -/
theorem structNames (h : Registers regs d e) :
    e.known.structNames
      = d.known.structNames ++ (regs.map Registration.node).map StructType.name := by
  rw [Declarations.structNames, h.structs, List.map_append, List.map_map, List.map_map]
  rfl

end Registers

/-! ### Declaring field types -/

/-- Declaring a type that is not a struct registers none. -/
theorem leads_memberType {opcode : Opcode} (hconstant : opcode ∉ constantOpcodes)
    (hstruct : opcode ≠ opTypeStruct) (operands : List Word) (d : Draft) :
    Leads (Build.declareType opcode operands) d
      (fun id e => Registers [] d e ∧ e.known.glossary.declares id ⟨opcode, operands⟩)
      (fun _ => True) := by
  suffices h : Leads (Build.declare opcode none operands) d
      (fun _ e => Precedes Elementary.Orderly d e → Registers [] d e) fun _ => True from
    ((leads_declareType hconstant operands d).and h).mono
      (fun _ _ h => ⟨h.2 h.1.1, h.1.2⟩) fun _ _ => trivial
  cases hfound : d.known.type? ⟨opcode, Instruction.slot none ++ operands⟩ with
  | some id => exact .of_ok (Build.declare_of_known hfound) fun _ => .note d _
  | none =>
    by_cases hfits : (Instruction.mk opcode none (some d.ids.next) operands).Fits
    · refine .of_ok (Build.declare_of_fits hfound hfits) fun hprecedes => ?_
      refine .nil hprecedes rfl (Layout.instructions_add_self d.layout _ hfits) ?_ ?_ ?_
      · intro inst hinst
        rw [List.mem_singleton.mp hinst]
        exact hstruct
      · exact Layout.instructions_add_of_ne d.layout (by decide) hfits
      · exact fun s hs _ => Layout.instructions_add_of_ne d.layout hs.symm hfits
    · exact .of_error (Build.declare_of_not_fits hfound hfits) trivial

/-- From `d` to `e` nothing is written but the names `added`. -/
structure WritesNames (added : List Instruction) (d e : Draft) : Prop where
  idle : Idle d e
  names : e.names = d.names ++ added
  elsewhere : d.SameElsewhere e

theorem WritesNames.trans {added added' : List Instruction} {d e f : Draft}
    (hde : WritesNames added d e) (hef : WritesNames added' e f) :
    WritesNames (added ++ added') d f :=
  ⟨hde.idle.trans hef.idle, by rw [hef.names, hde.names, List.append_assoc],
    fun s h h' => (hef.elsewhere s h h').trans (hde.elsewhere s h h')⟩

theorem leads_emitName (inst : Instruction) (d : Draft) :
    Leads (Build.emit .debugNames inst) d (fun _ => WritesNames [inst] d) (fun _ => True) := by
  by_cases h : inst.Fits
  · have hidle := Idle.emit (s := .debugNames) (by decide) inst d
    rw [after_of_ok (Build.emit_of_fits h _ d)] at hidle
    exact .of_ok (Build.emit_of_fits h _ d) ⟨hidle, Layout.instructions_add_self d.layout _ h,
      fun s _ hs => Layout.instructions_add_of_ne d.layout hs.symm h⟩
  · exact .of_error (Build.emit_of_not_fits h _ d) trivial

theorem leads_nameMembers (type : Id) (fields : List (String × FieldType)) (index : Nat)
    (d : Draft) :
    Leads (Build.nameMembers type index fields) d
      (fun _ => WritesNames (memberNames type index fields) d) (fun _ => True) := by
  induction fields generalizing index d with
  | nil => exact .of_ok rfl ⟨.refl d, (List.append_nil _).symm, fun _ _ _ => rfl⟩
  | cons field rest ih =>
    refine (leads_emitName _ d).bind fun _ e he => ?_
    exact (ih (index + 1) e).mono (fun _ _ hf => he.trans hf) fun _ h => h

/-- The names of the struct `r` and of its members are written, and nothing is declared. -/
theorem leads_nameStruct (r : Registration) (d : Draft) :
    Leads (do
        Build.nameId r.id r.node.name
        Build.nameMembers r.id 0 r.node.fields
        return r.id) d
      (fun id e => id = r.id ∧ WritesNames r.names d e) (fun _ => True) := by
  refine (leads_emitName _ d).bind fun _ e he => ?_
  refine (leads_nameMembers r.id r.node.fields 0 e).bind fun _ f hf => ?_
  exact .of_ok rfl ⟨rfl, he.trans hf⟩

/-- The struct `node` is registered when its name is not. -/
theorem leads_declareStruct (node : StructType) {members : List Id} {d : Draft}
    (hunknown : d.known.struct? node.name = none)
    (hmembers : List.Forall₂
      (fun field member => d.known.glossary.ReadsMember field.2.member member)
      node.fields members) :
    Leads (Build.declareStruct node.name node.fields members) d
      (fun id e => Registers [⟨node, id, members⟩] d e ∧ e.known.struct? node.name = some id)
      (fun _ => True) := by
  cases hrun : Build.declareStruct node.name node.fields members d with
  | error fault e => exact .of_error hrun trivial
  | ok id e =>
    refine .of_ok hrun ?_
    have hprecedes : Precedes Elementary.Orderly d e := by
      rw [← after_of_ok hrun]
      exact .of_op (.declareStruct node.name node.fields members) ⟨trivial, trivial⟩ d
    by_cases hfits : (Instruction.mk opTypeStruct none (some d.ids.next)
        (members.map Id.word)).Fits
    · rw [Build.declareStruct_of_fits hunknown node.fields hfits] at hrun
      obtain ⟨rfl, hidle, hnames, helsewhere⟩ :=
        (leads_nameStruct ⟨node, d.ids.next, members⟩ _).ok hrun
      have hstruct : e.known.struct? node.name = some d.ids.next := by
        rw [hidle.known]
        exact OrderedMap.get?_insert_self _ _ _
      refine ⟨⟨hprecedes, ?_, ?_, ?_, fun s hs hs' => ?_, ?_⟩, hstruct⟩
      · rw [hidle.known]
        exact Declarations.structList_insertStruct hunknown _
      · exact ⟨_, hidle.globals.trans (Layout.instructions_add_self d.layout _ hfits), rfl⟩
      · rw [hnames, List.flatMap_singleton]
        exact congrArg (· ++ _) (Layout.instructions_add_of_ne d.layout (by decide) hfits)
      · exact (helsewhere s hs hs').trans (Layout.instructions_add_of_ne d.layout hs.symm hfits)
      · intro r hr
        rw [List.mem_singleton.mp hr]
        exact hmembers.imp fun _ _ => hprecedes.within.readsMember
    · rw [Build.declareStruct_of_not_fits hunknown node.fields hfits] at hrun
      cases hrun

theorem leads_vectorType (count : Word) (d : Draft) :
    Leads (do
        let float ← Build.floatType 32
        Build.vectorType float count) d
      (fun id e => Registers [] d e ∧ e.known.glossary.IsVectorType count.toNat id)
      (fun _ => True) := by
  refine (leads_memberType (by decide) (by decide) [32] d).bind fun float e he => ?_
  refine (leads_memberType (by decide) (by decide) _ e).mono (fun id f hf => ?_) fun _ h => h
  exact ⟨he.1.trans hf.1, float, count, hf.2, rfl, hf.1.precedes.type? he.2⟩

/-- A field that is not a struct given in full registers none, as `htraverse` says. -/
theorem leads_plainField {type : FieldType} {d : Draft}
    (htraverse : type.traverse d.known.structNames = ([], none))
    (h : Leads (Build.fieldType type) d
      (fun id e => Registers [] d e ∧ e.known.glossary.ReadsMember type.member id)
      (fun _ => True)) :
    Leads (Build.fieldType type) d
      (fun id e => ∃ regs, Registers regs d e ∧
        type.traverse d.known.structNames = (regs.map Registration.node, none) ∧
        e.known.glossary.ReadsMember type.member id)
      (fun _ => True) :=
  h.mono (fun _ _ he => ⟨[], he.1, htraverse, he.2⟩) fun _ h => h

/-- A struct whose name was not registered before its `fields` were declared is registered after
them, unless one of them has done so. -/
theorem leads_structAfterFields {name : String} {fields : List (String × FieldType)} {d e : Draft}
    {regs : List Registration} {members : List Id} (hname : d.known.struct? name = none)
    (hregs : Registers regs d e)
    (htraverse : FieldType.traverseAll d.known.structNames fields
      = (regs.map Registration.node, none))
    (hmembers : List.Forall₂
      (fun field member => e.known.glossary.ReadsMember field.2.member member) fields members) :
    Leads (Build.declareStruct name fields members) e
      (fun id f => ∃ regs, Registers regs d f ∧
        (FieldType.struct name fields).traverse d.known.structNames
          = (regs.map Registration.node, none) ∧
        f.known.struct? name = some id)
      (fun _ => True) := by
  have hknown := Declarations.struct?_eq_none_iff.mp hname
  have hnames := hregs.structNames
  cases hagain : e.known.struct? name with
  | some id =>
    refine .of_ok (Build.declareStruct_of_known hagain fields members)
      ⟨regs, ?_, FieldType.traverse_struct_of_inner hknown htraverse ?_, hagain⟩
    · simpa using hregs.trans (.note e _)
    · rw [← hnames]
      exact Declarations.mem_structNames hagain
  | none =>
    refine (leads_declareStruct ⟨name, fields⟩ hagain hmembers).mono
      (fun id f hf => ?_) fun _ h => h
    refine ⟨regs ++ [⟨⟨name, fields⟩, id, members⟩], hregs.trans hf.1, ?_, hf.2⟩
    rw [List.map_append]
    refine FieldType.traverse_struct_of_not_mem hknown htraverse ?_
    rw [← hnames]
    exact Declarations.struct?_eq_none_iff.mp hagain

mutual

/-- Declaring the `type` of a field registers what `traverse` says of its tree, and the type is
read at the id that is answered. -/
theorem leads_fieldType : ∀ (type : FieldType) (d : Draft),
    Leads (Build.fieldType type) d
      (fun id e => ∃ regs, Registers regs d e ∧
        type.traverse d.known.structNames = (regs.map Registration.node, none) ∧
        e.known.glossary.ReadsMember type.member id)
      (fun _ => True)
  | .int, d => by
      refine leads_plainField (by simp only [FieldType.traverse]) ?_
      rw [Build.fieldType]
      exact leads_memberType (by decide) (by decide) _ d
  | .word, d => by
      refine leads_plainField (by simp only [FieldType.traverse]) ?_
      rw [Build.fieldType]
      exact leads_memberType (by decide) (by decide) _ d
  | .float, d => by
      refine leads_plainField (by simp only [FieldType.traverse]) ?_
      rw [Build.fieldType]
      exact leads_memberType (by decide) (by decide) _ d
  | .vector count, d => by
      refine leads_plainField (by simp only [FieldType.traverse]) ?_
      rw [Build.fieldType]
      exact leads_vectorType count d
  | .matrix columns rows, d => by
      refine leads_plainField (by simp only [FieldType.traverse]) ?_
      rw [Build.fieldType, ← bind_assoc]
      refine (leads_vectorType rows d).bind fun column e he => ?_
      refine (leads_memberType (by decide) (by decide) _ e).mono (fun id f hf => ?_) fun _ h => h
      exact ⟨he.1.trans hf.1, column, hf.2, hf.1.precedes.within.isVectorType he.2⟩
  | .named name, d => by
      cases hname : d.known.struct? name with
      | some id =>
        have hmem := Declarations.mem_structNames hname
        refine leads_plainField (FieldType.traverse_named_of_mem hmem) ?_
        rw [Build.fieldType]
        exact .of_ok (Build.structType_of_known hname) ⟨.refl d, hname⟩
      | none =>
        rw [Build.fieldType]
        exact .of_error (Build.structType_of_unknown hname) trivial
  | .struct name fields, d => by
      rw [Build.fieldType]
      have hfind : Leads (Build.findStruct name) d
        (fun found e => d.known.struct? name = found ∧ d = e) (fun _ => True) :=
          .of_ok (Build.findStruct_run name d) ⟨rfl, rfl⟩
      refine hfind.bind ?_
      rintro found _ ⟨hname, rfl⟩
      cases found with
      | some id =>
        refine .of_ok rfl ⟨[], .note d _, ?_, hname⟩
        exact FieldType.traverse_struct_of_mem (Declarations.mem_structNames hname)
      | none =>
        -- the fields come first, and may register the name themselves
        refine (leads_fieldTypes fields [] d).bind ?_
        rintro members e ⟨regs, _, rfl, hregs, htraverse, hmembers⟩
        exact leads_structAfterFields hname hregs htraverse hmembers

theorem leads_fieldTypes : ∀ (fields : List (String × FieldType)) (declared : List Id) (d : Draft),
    Leads (Build.fieldTypes declared fields) d
      (fun ids e => ∃ regs members, ids = declared.reverse ++ members ∧ Registers regs d e ∧
        FieldType.traverseAll d.known.structNames fields
          = (regs.map Registration.node, none) ∧
        List.Forall₂ (fun field member => e.known.glossary.ReadsMember field.2.member member)
          fields members)
      (fun _ => True)
  | [], declared, d => by
      rw [Build.fieldTypes]
      exact .of_ok rfl ⟨[], [], (List.append_nil _).symm, .refl d,
        by rw [FieldType.traverseAll]; rfl, .nil⟩
  | (name, type) :: rest, declared, d => by
      rw [Build.fieldTypes]
      refine (leads_fieldType type d).bind ?_
      rintro id e ⟨regs, hregs, htype, hid⟩
      refine (leads_fieldTypes rest (id :: declared) e).mono ?_ fun _ h => h
      rintro _ f ⟨regs', members, rfl, hregs', hrest, hmembers⟩
      refine ⟨regs ++ regs', id :: members, by simp, hregs.trans hregs', ?_, .cons ?_ hmembers⟩
      · rw [List.map_append]
        rw [hregs.structNames] at hrest
        exact FieldType.traverseAll_cons htype hrest
      · exact hregs'.precedes.within.readsMember hid

end

/-- **Registered structs are read back to their fields.**  Take a run that writes no
instruction to the global declarations as it is and keeps types and constants apart, and a
struct that is registered after it.  The structs that the call writes are structs of the
given tree, those that its traversal finds, no two with one name and none with a name that
was registered before.  Each is written once, in the order of the traversal, under the id
that is registered under its name, with one member for each field; and following ids through
the chunks of the global declarations, one reads at each member the type of its field and
no other.  The names that are written are, for each of these structs, its own and then those
of its members; no other section changes. -/
theorem registerStruct_reads_back {τ : Type} {script : Script τ}
    (huses : script.Uses fun operation => operation.SparesGlobals ∧ operation.KeepsKinds)
    (settings : Settings) (lenient : Bool) {struct : StructType} {id : Id} {d : Draft}
    (hrun : Build.registerStruct struct (script.draftAfter settings lenient) = .ok id d)
    (hcount : d.ids.count < 4294967295) :
    let before := script.draftAfter settings lenient
    ∃ (regs : List Registration) (added : List Instruction) (chunks : List Chunk),
      (regs.map Registration.node).Sublist struct.nodes ∧
      struct.traverse before.known.structNames = (regs.map Registration.node, none) ∧
      (regs.map fun r => r.node.name).Nodup ∧
      (∀ r ∈ regs, before.known.struct? r.node.name = none ∧
        d.known.struct? r.node.name = some r.id) ∧
      d.known.struct? struct.name = some id ∧
      d.globals = before.globals ++ added ∧
      (added.filter fun inst => inst.opcode = opTypeStruct) = regs.map Registration.instruction ∧
      Reader.drain ⟨d.layout.sectionWords .globalDeclarations, 0⟩
        = (chunks.map .ok, ⟨[], (d.layout.sectionWords .globalDeclarations).length⟩) ∧
      (∀ r ∈ regs, List.Forall₂
        (fun field member => ∀ other,
          (Glossary.ofChunks chunks d.known).ReadsMember other member ↔ other = field.2.member)
        r.node.fields r.members) ∧
      d.names = before.names ++ regs.flatMap Registration.names ∧
      before.SameElsewhere d := by
  intro before
  have hstart := Precedes.draftAfter_of_orderly huses settings lenient
  obtain ⟨regs, hregs, htraverse, hid⟩ :=
    (leads_fieldType (.struct struct.name struct.fields) before).ok hrun
  obtain ⟨added, hadded, hstructs⟩ := hregs.globals
  have hprecedes := hstart.trans hregs.precedes
  obtain ⟨log, course⟩ := hprecedes
  have hcount' : d.ids.count < 4294967296 := hcount.trans (by decide)
  -- no name is registered twice, so the new ones differ from each other and from the old ones
  have hnodup : (before.known.structNames ++ regs.map fun r => r.node.name).Nodup := by
    have hnames := hregs.structNames
    rw [List.map_map] at hnames
    exact hnames ▸ d.known.structs.nodup_keys
  have hentries : ∀ r ∈ regs, (r.node.name, r.id) ∈ d.known.structList := by
    intro r hr
    rw [hregs.structs]
    exact List.mem_append_right _ (List.mem_map_of_mem (f := Registration.entry) hr)
  refine ⟨regs, added, d.globals.map Instruction.chunk, ?_, htraverse,
    (List.nodup_append.mp hnodup).2.1, fun r hr => ⟨?_, ?_⟩, hid, hadded, hstructs,
    d.layout.drain_sectionWords _, fun r hr => ?_, hregs.names, hregs.elsewhere⟩
  · have hsublist := FieldType.traverse_sublist (.struct struct.name struct.fields)
      before.known.structNames
    rwa [htraverse] at hsublist
  · refine Declarations.struct?_eq_none_iff.mpr fun hmem => ?_
    exact (List.nodup_append.mp hnodup).2.2 _ hmem _
      (List.mem_map_of_mem (f := fun r : Registration => r.node.name) hr) rfl
  · exact OrderedMap.get?_eq_some_iff.mpr (hentries r hr)
  · refine (hregs.members r hr).imp fun field member hmember other => ⟨fun hother => ?_, ?_⟩
    · exact Glossary.ReadsMember.unique (course.unambiguous hcount') hother
        ((course.within hcount').readsMember hmember)
    · rintro rfl
      exact (course.within hcount').readsMember hmember

/-- A struct with all kinds of fields, among them two different structs with one name. -/
def sceneStruct : StructType :=
  ⟨"Scene", [("camera", .struct "Camera" [("view", .matrix 4 3), ("lens", .named "Mixed")]),
    ("twin", .struct "Camera" [("angle", .int)]), ("axis", .vector 3), ("count", .word)]⟩

theorem registerStruct_reads_back_sceneStruct :
    ∃ id d, Build.registerStruct sceneStruct (registerMixed.draftAfter {} false) = .ok id d ∧
      ∃ (regs : List Registration) (chunks : List Chunk),
        (regs.map fun r => r.node.name) = ["Camera", "Scene"] ∧
        Reader.drain ⟨d.layout.sectionWords .globalDeclarations, 0⟩
          = (chunks.map .ok, ⟨[], (d.layout.sectionWords .globalDeclarations).length⟩) ∧
        ∀ r ∈ regs, List.Forall₂
          (fun field member => ∀ other,
            (Glossary.ofChunks chunks d.known).ReadsMember other member ↔ other = field.2.member)
          r.node.fields r.members := by
  have huses : registerMixed.Uses fun operation =>
      operation.SparesGlobals ∧ operation.KeepsKinds := by
    simp [registerMixed, Script.Uses, Command.SparesGlobals, Command.KeepsKinds]
  have hok : Succeeds (Build.registerStruct sceneStruct) (registerMixed.draftAfter {} false)
      fun _ d => d.ids.count < 4294967295 := by decide +kernel
  obtain ⟨id, d, hrun, hcount⟩ := hok
  obtain ⟨regs, added, chunks, -, htraverse, -, -, -, -, -, hdrain, hread, -⟩ :=
    registerStruct_reads_back huses {} false hrun hcount
  refine ⟨id, d, hrun, regs, chunks, ?_, hdrain, hread⟩
  have hnames : (registerMixed.draftAfter {} false).known.structNames = ["Mixed"] := by
    decide +kernel
  have hnodes : (sceneStruct.traverse ["Mixed"]).1.map StructType.name = ["Camera", "Scene"] := by
    decide +kernel
  rw [hnames] at htraverse
  rwa [htraverse, List.map_map] at hnodes

end SpirvBinary
