import SpirvBinary.Proofs.Calls
import SpirvBinary.Proofs.StructLayouts

/-!
# Registrations that fail

Registering a struct goes through the tree of its fields, and can end in the middle of it.
Three things can stand in the way: a name is asked for under which no struct is registered,
a struct has more fields than a declaration can have members, or one of the names that are
written for a struct is too long.  Whatever was registered before stays registered.

When all structs of the tree fit, only a missing name is left.  The registration then fails
exactly when the traversal of the tree finds one, and it reports the first.

A struct whose registration fails is not registered afterwards, with one exception: a struct
of the same name among its fields may have been, on its own account.  A name that is too long
is found only after the struct has been registered, so that this struct is left without all of
its names.  As long as that does not happen to a name, whatever is answered for it is written
as a whole.

## Main definitions

* `StructType.Fits` — a struct and its names are not too long for their instructions.
* `Halts` — a registration ends in the middle of a tree.
* `Registration.WrittenIn` — a struct is declared and named as a whole.
* `Fault.Unnames`, `Call.Unnames` — a struct is left without all of its names.
* `Draft.WritesWhole` — what is registered under a name is written as a whole.
* `SparesStructs` — no struct is registered from one draft to another.

## Main results

* `fieldType_halts` — what stands in the way when the type of a field cannot be declared.
* `registerStruct_follows_traversal` — **a registration succeeds exactly when its traversal
  finds every name.**
* `Call.writesWhole_left` — what is registered under a name stays written as a whole.
* `lookup_of_failed_registration` — **what a registration that fails leaves under its name.**
-/

namespace SpirvBinary

open Opcode

/-! ### Structs that fit -/

/-- A struct has no more fields than a declaration can have members, and its name and those
of its fields fit the instructions that state them. -/
def StructType.Fits (node : StructType) : Prop :=
  node.fields.length + 2 ≤ 65535 ∧ (textWords node.name).length + 2 ≤ 65535 ∧
    ∀ field ∈ node.fields, (textWords field.1).length + 3 ≤ 65535

instance (node : StructType) : Decidable node.Fits :=
  inferInstanceAs (Decidable (_ ∧ _ ∧ _))

theorem StructType.Fits.instruction {r : Registration} (h : r.node.Fits)
    (hmembers : r.members.length = r.node.fields.length) : r.instruction.Fits := by
  have hfields := h.1
  simp [Registration.instruction, Instruction.Fits, Instruction.wordCount,
    Instruction.maxWordCount, hmembers]
  omega

theorem StructType.Fits.names {r : Registration} (h : r.node.Fits) :
    ∀ inst ∈ r.names, inst.Fits := by
  intro inst hinst
  rcases List.mem_cons.mp hinst with rfl | hmember
  · have hname := h.2.1
    simp [Instruction.Fits, Instruction.wordCount, Instruction.maxWordCount]
    omega
  · obtain ⟨⟨field, index⟩, hfield, rfl⟩ := List.mem_map.mp hmember
    have hname := h.2.2 field (List.fst_mem_of_mem_zipIdx hfield)
    simp [Instruction.Fits, Instruction.wordCount, Instruction.maxWordCount]
    omega

/-! ### Where registrations end -/

/-- From `d` to `e` the struct `r` is registered, whatever names are written. -/
structure Notes (r : Registration) (d e : Draft) : Prop where
  precedes : Precedes Elementary.Orderly d e
  structs : e.known.structList = d.known.structList ++ [r.entry]

/-- A registration that starts from `d` ends in the middle of a tree with the structs `nodes`,
whose traversal `way` says where a name is missing.  The structs that were registered before are
listed. -/
inductive Halts (nodes : List StructType) (way : List StructType × Option String) (d : Draft) :
    List Registration → Fault → Draft → Prop
  /-- The traversal asks for a name in vain. -/
  | missing {regs : List Registration} {name : String} {e : Draft} (registers : Registers regs d e)
      (stops : way = (regs.map Registration.node, some name)) :
      Halts nodes way d regs (.unknownStruct name) e
  /-- A struct has too many fields. -/
  | oversized {regs : List Registration} {r : Registration} {e : Draft}
      (registers : Registers regs d e) (node : r.node ∈ nodes)
      (members : r.members.length = r.node.fields.length) (long : ¬ r.instruction.Fits) :
      Halts nodes way d regs (.tooLong opTypeStruct r.instruction.wordCount) e
  /-- A struct has been registered, but one of its names is too long. -/
  | unnamed {regs : List Registration} {r : Registration} {inst : Instruction} {m e : Draft}
      (registers : Registers regs d m) (node : r.node ∈ nodes) (notes : Notes r m e)
      (name : inst ∈ r.names) (long : ¬ inst.Fits) :
      Halts nodes way d regs (.tooLong inst.opcode inst.wordCount) e

namespace Halts

variable {nodes nodes' : List StructType} {way way' : List StructType × Option String}
  {d e f : Draft} {regs regs' : List Registration} {fault : Fault}

/-- A registration that ends in a part of a tree, with the structs `nodes`, ends in the tree, with
the structs `nodes'`. -/
theorem imp (h : Halts nodes way d regs fault e) (hnodes : nodes ⊆ nodes')
    (hway : ∀ new missing, way = (new, some missing) → way' = (new, some missing)) :
    Halts nodes' way' d regs fault e := by
  cases h with
  | missing hregs hstops => exact .missing hregs (hway _ _ hstops)
  | oversized hregs hnode hmembers hlong => exact .oversized hregs (hnodes hnode) hmembers hlong
  | unnamed hregs hnode hnotes hname hlong =>
    exact .unnamed hregs (hnodes hnode) hnotes hname hlong

/-- The structs `regs` may have been registered before. -/
theorem prepend (hregs : Registers regs d e) (h : Halts nodes way e regs' fault f) :
    Halts nodes (regs.map Registration.node ++ way.1, way.2) d (regs ++ regs') fault f := by
  cases h with
  | missing hregs' hstops =>
    refine .missing (hregs.trans hregs') ?_
    rw [hstops, List.map_append]
  | oversized hregs' hnode hmembers hlong =>
    exact .oversized (hregs.trans hregs') hnode hmembers hlong
  | unnamed hregs' hnode hnotes hname hlong =>
    exact .unnamed (hregs.trans hregs') hnode hnotes hname hlong

/-- When all of `nodes` fit, a name is missing. -/
theorem missing_of_fits (h : Halts nodes way d regs fault e) (hfits : ∀ node ∈ nodes, node.Fits) :
    ∃ name, way = (regs.map Registration.node, some name) ∧ fault = .unknownStruct name ∧
      Registers regs d e := by
  cases h with
  | missing hregs hstops => exact ⟨_, hstops, rfl, hregs⟩
  | oversized _ hnode hmembers hlong =>
    exact absurd ((hfits _ hnode).instruction hmembers) hlong
  | unnamed _ hnode _ hname hlong => exact absurd ((hfits _ hnode).names _ hname) hlong

end Halts

/-! ### Declaring a struct in vain -/

theorem emitName_error {inst : Instruction} {d e : Draft} {fault : Fault}
    (h : Build.emit .debugNames inst d = .error fault e) :
    ¬ inst.Fits ∧ fault = .tooLong inst.opcode inst.wordCount := by
  by_cases hfits : inst.Fits
  · rw [Build.emit_of_fits hfits] at h
    cases h
  · rw [Build.emit_of_not_fits hfits] at h
    cases h
    exact ⟨hfits, rfl⟩

theorem nameMembers_error {type : Id} {fields : List (String × FieldType)} {index : Nat}
    {d e : Draft} {fault : Fault} (h : Build.nameMembers type index fields d = .error fault e) :
    ∃ inst ∈ memberNames type index fields, ¬ inst.Fits ∧
      fault = .tooLong inst.opcode inst.wordCount := by
  induction fields generalizing index d with
  | nil => cases h
  | cons field rest ih =>
    rcases exists_of_bind_error h with hfirst | ⟨_, _, -, hrest⟩
    · exact ⟨_, List.mem_cons_self, emitName_error hfirst⟩
    · obtain ⟨inst, hinst, hlong⟩ := ih hrest
      exact ⟨inst, List.mem_cons_of_mem _ hinst, hlong⟩

/-- When the struct `r` cannot be named, one of its names is too long. -/
theorem nameStruct_error {r : Registration} {d e : Draft} {fault : Fault}
    (h : (do
        Build.nameId r.id r.node.name
        Build.nameMembers r.id 0 r.node.fields
        return r.id : Build Id) d = .error fault e) :
    ∃ inst ∈ r.names, ¬ inst.Fits ∧ fault = .tooLong inst.opcode inst.wordCount := by
  rcases exists_of_bind_error h with hname | ⟨_, _, -, hmembers⟩
  · exact ⟨_, List.mem_cons_self, emitName_error hname⟩
  · rcases exists_of_bind_error hmembers with hmembers | ⟨_, _, -, hpure⟩
    · obtain ⟨inst, hinst, hlong⟩ := nameMembers_error hmembers
      exact ⟨inst, List.mem_cons_of_mem _ hinst, hlong⟩
    · cases hpure

/-- A struct `node` that cannot be declared has too many fields, or is registered but has too long
a name. -/
theorem declareStruct_halts {node : StructType} {members : List Id} {d e : Draft} {fault : Fault}
    (hmembers : members.length = node.fields.length)
    (h : Build.declareStruct node.name node.fields members d = .error fault e)
    (way : List StructType × Option String) : Halts [node] way d [] fault e := by
  have hprecedes : Precedes Elementary.Orderly d e := by
    rw [← after_of_error h]
    exact .of_op (.declareStruct node.name node.fields members) ⟨trivial, trivial⟩ d
  let r : Registration := ⟨node, d.ids.next, members⟩
  cases hfound : d.known.struct? node.name with
  | some id =>
    rw [Build.declareStruct_of_known hfound] at h
    cases h
  | none =>
    by_cases hfits : r.instruction.Fits
    · rw [Build.declareStruct_of_fits hfound node.fields hfits] at h
      have hidle : Idle { d with
          ids := d.ids.advance
          known := d.known.insertStruct node.name r.id
          layout := d.layout.add .globalDeclarations r.instruction hfits
          journal := .structAdded node.name r.id :: d.journal } e := by
        rw [← after_of_error h]
        exact .nameStruct r.id node.name node.fields _
      obtain ⟨inst, hinst, hlong, rfl⟩ := nameStruct_error (r := r) h
      refine .unnamed (r := r) (.refl d) List.mem_cons_self ⟨hprecedes, ?_⟩ hinst hlong
      rw [hidle.known]
      exact Declarations.structList_insertStruct hfound _
    · rw [Build.declareStruct_of_not_fits hfound node.fields hfits] at h
      cases h
      have hregs : Registers [] d { d with ids := d.ids.advance } :=
        .nil hprecedes rfl (List.append_nil _).symm (fun _ h => nomatch h) rfl fun _ _ _ => rfl
      exact .oversized (r := r) hregs List.mem_cons_self hmembers hfits

/-! ### Declaring field types in vain -/

/-- A type of few operands can always be declared. -/
theorem declareType_ne_error {opcode : Opcode} {operands : List Word}
    (h : operands.length ≤ 65532) {d e : Draft} {fault : Fault} :
    Build.declareType opcode operands d ≠ .error fault e := by
  intro herror
  have hfits : ∀ id, (Instruction.mk opcode none (some id) operands).Fits :=
    fun id => Instruction.fits_of_length h (some id)
  obtain ⟨id, f, hok, -⟩ := (Stages.refl d).declare hfits
  rw [Build.declareType, hok] at herror
  cases herror

theorem vectorType_ne_error {count : Word} {d e : Draft} {fault : Fault} :
    (do
      let float ← Build.floatType 32
      Build.vectorType float count) d ≠ .error fault e := by
  intro herror
  rcases exists_of_bind_error herror with hfloat | ⟨_, _, -, hvector⟩
  · exact declareType_ne_error (by simp) hfloat
  · exact declareType_ne_error (by simp) hvector

/-- A struct ends in the middle of its `fields`, or when it is its own turn. -/
theorem struct_halts {name : String} {fields : List (String × FieldType)} {d e : Draft}
    {fault : Fault} (h : Build.fieldType (.struct name fields) d = .error fault e)
    (hfields : ∀ e, Build.fieldTypes [] fields d = .error fault e →
      ∃ regs, Halts (FieldType.nodesAll fields)
        (FieldType.traverseAll d.known.structNames fields) d regs fault e ∧
        regs.map Registration.node ⊆ FieldType.nodesAll fields) :
    ∃ regs, Halts (FieldType.struct name fields).nodes
      ((FieldType.struct name fields).traverse d.known.structNames) d regs fault e ∧
      regs.map Registration.node ⊆ FieldType.nodesAll fields := by
  have hnodes : FieldType.nodesAll fields ⊆ (FieldType.struct name fields).nodes := by
    rw [FieldType.nodes]
    exact List.subset_append_left _ _
  rw [Build.fieldType, bind_of_ok (Build.findStruct_run name d)] at h
  cases hname : d.known.struct? name with
  | some id =>
    rw [hname] at h
    cases h
  | none =>
    rw [hname] at h
    have hknown := Declarations.struct?_eq_none_iff.mp hname
    rcases exists_of_bind_error h with hfail | ⟨members, m, hok, hfail⟩
    · obtain ⟨regs, hhalts, hregs⟩ := hfields e hfail
      exact ⟨regs, hhalts.imp hnodes fun _ _ => FieldType.traverse_struct_of_missing hknown, hregs⟩
    · obtain ⟨regs, _, rfl, hregs, htraverse, hmembers⟩ := (leads_fieldTypes fields [] d).ok hok
      have hself : Halts [⟨name, fields⟩] ([], none) m [] fault e :=
        declareStruct_halts hmembers.length_eq.symm hfail _
      have hhalts := Halts.prepend hregs hself
      rw [List.append_nil regs] at hhalts
      refine ⟨regs, hhalts.imp ?_ fun _ _ heq => ?_, ?_⟩
      · rw [FieldType.nodes]
        exact List.subset_append_right _ _
      · cases heq
      · have hsublist := FieldType.traverseAll_sublist fields d.known.structNames
        rw [htraverse] at hsublist
        exact hsublist.subset

mutual

/-- When the `type` of a field cannot be declared, its registration `Halts` in the middle of the
field's tree. -/
theorem fieldType_halts : ∀ (type : FieldType) {d e : Draft} {fault : Fault},
    Build.fieldType type d = .error fault e →
      ∃ regs, Halts type.nodes (type.traverse d.known.structNames) d regs fault e ∧
        regs.map Registration.node ⊆ type.nodes
  | .int, _, _, _, h | .word, _, _, _, h | .float, _, _, _, h => by
      rw [Build.fieldType] at h
      exact absurd h (declareType_ne_error (by simp))
  | .vector count, _, _, _, h => by
      rw [Build.fieldType] at h
      exact absurd h vectorType_ne_error
  | .matrix columns rows, _, _, _, h => by
      rw [Build.fieldType, ← bind_assoc] at h
      rcases exists_of_bind_error h with hcolumn | ⟨_, _, -, hmatrix⟩
      · exact absurd hcolumn vectorType_ne_error
      · exact absurd hmatrix (declareType_ne_error (by simp))
  | .named name, d, _, _, h => by
      rw [Build.fieldType] at h
      cases hname : d.known.struct? name with
      | some id =>
        rw [Build.structType_of_known hname] at h
        cases h
      | none =>
        rw [Build.structType_of_unknown hname] at h
        cases h
        have hknown := Declarations.struct?_eq_none_iff.mp hname
        exact ⟨[], .missing (.refl d) (FieldType.traverse_named_of_not_mem hknown), by simp⟩
  | .struct name fields, d, _, _, h => by
      obtain ⟨regs, hhalts, hregs⟩ := struct_halts h fun _ => fieldTypes_halts fields
      refine ⟨regs, hhalts, List.Subset.trans hregs ?_⟩
      rw [FieldType.nodes]
      exact List.subset_append_left _ _

theorem fieldTypes_halts : ∀ (fields : List (String × FieldType)) {declared : List Id}
    {d e : Draft} {fault : Fault}, Build.fieldTypes declared fields d = .error fault e →
      ∃ regs, Halts (FieldType.nodesAll fields)
        (FieldType.traverseAll d.known.structNames fields) d regs fault e ∧
        regs.map Registration.node ⊆ FieldType.nodesAll fields
  | [], _, _, _, _, h => by
      rw [Build.fieldTypes] at h
      cases h
  | (name, type) :: rest, declared, d, _, _, h => by
      rw [Build.fieldTypes] at h
      rw [FieldType.nodesAll]
      rcases exists_of_bind_error h with hfirst | ⟨id, m, hok, hrest⟩
      · obtain ⟨regs, hhalts, hregs⟩ := fieldType_halts type hfirst
        refine ⟨regs, hhalts.imp (List.subset_append_left _ _) fun _ _ hway => ?_,
          List.Subset.trans hregs (List.subset_append_left _ _)⟩
        exact FieldType.traverseAll_cons_of_missing hway
      · obtain ⟨regs, hregs, htype, -⟩ := (leads_fieldType type d).ok hok
        obtain ⟨regs', hhalts, hregs'⟩ := fieldTypes_halts rest hrest
        have hnodes : regs.map Registration.node ⊆ type.nodes := by
          have hsublist := FieldType.traverse_sublist type d.known.structNames
          rw [htype] at hsublist
          exact hsublist.subset
        refine ⟨regs ++ regs', (Halts.prepend hregs hhalts).imp (List.subset_append_right _ _)
          fun _ _ hway => ?_, ?_⟩
        · rw [FieldType.traverseAll_cons htype (Prod.mk.eta).symm, ← hregs.structNames, hway]
        · rw [List.map_append]
          exact List.append_subset.mpr ⟨List.Subset.trans hnodes (List.subset_append_left _ _),
            List.Subset.trans hregs' (List.subset_append_right _ _)⟩

end

/-! ### Registrations and their traversals -/

/-- **A registration succeeds exactly when its traversal finds every name.**  Take a `struct` all
structs of whose tree fit, themselves and their names, and any draft `d`.  If the traversal of the
tree from the names that are registered asks for no name in vain, the struct is registered and its
id is answered; otherwise the first name that is missing is reported.  Either way the registry has
grown by the structs that the traversal has passed, in its order. -/
theorem registerStruct_follows_traversal {struct : StructType}
    (hfits : ∀ node ∈ struct.nodes, node.Fits) (d : Draft) :
    let way := struct.traverse d.known.structNames
    ((∃ id e, Build.registerStruct struct d = .ok id e) ↔ way.2 = none) ∧
    (way.2 = none → ∃ (id : Id) (e : Draft) (regs : List Registration),
      Build.registerStruct struct d = .ok id e ∧ e.known.struct? struct.name = some id ∧
      way.1 = regs.map Registration.node ∧
      e.known.structList = d.known.structList ++ regs.map Registration.entry) ∧
    ∀ missing, way.2 = some missing → ∃ (e : Draft) (regs : List Registration),
      Build.registerStruct struct d = .error (.unknownStruct missing) e ∧
      way.1 = regs.map Registration.node ∧
      e.known.structList = d.known.structList ++ regs.map Registration.entry := by
  intro way
  cases hrun : Build.registerStruct struct d with
  | ok id e =>
    obtain ⟨regs, hregs, htraverse, hid⟩ :=
      (leads_fieldType (.struct struct.name struct.fields) d).ok hrun
    have hway : way = (regs.map Registration.node, none) := htraverse
    rw [hway]
    refine ⟨⟨fun _ => rfl, fun _ => ⟨id, e, rfl⟩⟩, fun _ => ?_, nofun⟩
    exact ⟨id, e, regs, rfl, hid, rfl, hregs.structs⟩
  | error fault e =>
    obtain ⟨regs, hhalts, -⟩ := fieldType_halts (.struct struct.name struct.fields) hrun
    obtain ⟨name, htraverse, rfl, hregs⟩ := hhalts.missing_of_fits hfits
    have hway : way = (regs.map Registration.node, some name) := htraverse
    rw [hway]
    refine ⟨⟨?_, nofun⟩, nofun, ?_⟩
    · rintro ⟨_, _, h⟩
      cases h
    · intro missing hmissing
      cases hmissing
      exact ⟨e, regs, rfl, rfl, hregs.structs⟩

/-- A struct with a struct of its own name two levels below, and with a name that is only
registered later. -/
def forestStruct : StructType :=
  ⟨"Forest", [("tree", .struct "Tree" [("trunk", .struct "Tree" [("height", .float)])]),
    ("twin", .named "Tree"), ("bush", .named "Bush"), ("shrub", .struct "Bush" [])]⟩

theorem registerStruct_follows_traversal_forestStruct :
    ∃ (e : Draft) (regs : List Registration),
      Build.registerStruct forestStruct { settings := {} } = .error (.unknownStruct "Bush") e ∧
      regs.map Registration.node = [⟨"Tree", [("height", .float)]⟩] ∧
      e.known.structList = regs.map Registration.entry := by
  have hfits : ∀ node ∈ forestStruct.nodes, node.Fits := by decide
  have hway : forestStruct.traverse [] = ([⟨"Tree", [("height", .float)]⟩], some "Bush") := by
    rfl
  obtain ⟨-, -, hmissing⟩ := registerStruct_follows_traversal hfits { settings := {} }
  obtain ⟨e, regs, hrun, hnodes, hstructs⟩ := hmissing "Bush" (congrArg Prod.snd hway)
  exact ⟨e, regs, hrun, hnodes.symm.trans (congrArg Prod.fst hway), hstructs⟩

/-! ### What is left under the name -/

/-- The struct `r` is written as a whole in `d`: its declaration has a member for each field, and
its name and those of its fields stand together among the names. -/
structure Registration.WrittenIn (r : Registration) (d : Draft) : Prop where
  members : r.members.length = r.node.fields.length
  declared : r.instruction ∈ d.globals
  named : r.names <:+: d.names

/-- What has been written to the section `s` stays at its front. -/
theorem Written.instructions_grow {d e : Draft} (h : Written d e) (s : Section) :
    d.layout.instructions s <+: e.layout.instructions s := by
  obtain ⟨added, hadded⟩ := h.log
  simp only [Layout.instructions, hadded, List.filter_append, List.map_append]
  exact List.prefix_append _ _

/-- What elementary operations do to a layout is to add instructions. -/
theorem Elementary.written (op : Elementary) : ∀ d, Written d (op.draftAfter d) := by
  cases op with
  | freshId => exact written_law.freshId
  | declare opcode type operands =>
    exact declare_moves written_law.refl written_law.trans written_law.journal written_law.freshId
      emit_written (fun _ _ => Written.of_eq rfl rfl) opcode type operands
  | declareStruct name fields members => exact written_law.declareStruct name fields members
  | globalVariable pointer storage => exact written_law.globalVariable pointer storage
  | emit s inst => exact emit_written s inst
  | stage functions => exact fun _ => Written.of_eq rfl rfl
  | note events => exact fun _ => Written.of_eq rfl rfl

theorem Precedes.written {allowed : Elementary → Prop} {d e : Draft} (h : Precedes allowed d e) :
    Written d e := by
  obtain ⟨log, course⟩ := h
  induction course with
  | start => exact Written.of_eq rfl rfl
  | step _ _ ih => exact ih.trans (Elementary.written _ _)

theorem Registration.WrittenIn.mono {r : Registration} {d e : Draft} (hr : r.WrittenIn d)
    (h : Written d e) : r.WrittenIn e :=
  ⟨hr.members, (h.instructions_grow .globalDeclarations).subset hr.declared,
    hr.named.trans (h.instructions_grow .debugNames).isInfix⟩

theorem Registers.writtenIn {regs : List Registration} {r : Registration} {d e : Draft}
    (h : Registers regs d e) (hr : r ∈ regs) : r.WrittenIn e := by
  obtain ⟨added, hadded, hstructs⟩ := h.globals
  refine ⟨(h.members r hr).length_eq.symm, ?_, ?_⟩
  · have hmem : r.instruction ∈ regs.map Registration.instruction := List.mem_map_of_mem hr
    rw [← hstructs] at hmem
    rw [hadded]
    exact List.mem_append_right _ (List.mem_filter.mp hmem).1
  · obtain ⟨before, later, rfl⟩ := List.append_of_mem hr
    rw [h.names, List.flatMap_append, List.flatMap_cons, ← List.append_assoc, ← List.append_assoc]
    exact List.infix_append _ _ _

/-- A `name` that becomes known is that of one of `regs`, the structs that were registered. -/
theorem Declarations.struct?_of_appended {known known' : Declarations} {name : String}
    {regs : List Registration} (hnone : known.struct? name = none)
    (h : known'.structList = known.structList ++ regs.map Registration.entry) :
    known'.struct? name = none ∨
      ∃ r ∈ regs, r.node.name = name ∧ known'.struct? name = some r.id := by
  cases hfound : known'.struct? name with
  | none => exact .inl rfl
  | some id =>
    have hmem : (name, id) ∈ known'.structList := OrderedMap.mem_toList_of_get? hfound
    rw [h] at hmem
    rcases List.mem_append.mp hmem with hold | hnew
    · have hname := Declarations.struct?_eq_none_iff.mp hnone
      exact absurd (List.mem_map_of_mem (f := Prod.fst) hold) hname
    · obtain ⟨r, hr, hentry⟩ := List.mem_map.mp hnew
      cases hentry
      exact .inr ⟨r, hr, rfl, rfl⟩

/-- The `fault` says that a name is too long that is written for a struct called `name`, one of
`nodes`: its own, or one of its fields'. -/
def Fault.Unnames (fault : Fault) (nodes : List StructType) (name : String) : Prop :=
  ∃ r : Registration, r.node ∈ nodes ∧ r.node.name = name ∧
    ∃ inst ∈ r.names, ¬ inst.Fits ∧ fault = .tooLong inst.opcode inst.wordCount

/-- After a registration that has failed, a struct is known under `name` only if one of `regs`
has it, those registered on the way, or if it could not be named. -/
theorem Halts.struct? {nodes : List StructType} {way : List StructType × Option String}
    {regs : List Registration} {fault : Fault} {name : String} {d e : Draft}
    (h : Halts nodes way d regs fault e) (hnone : d.known.struct? name = none)
    (hnamed : ¬ fault.Unnames nodes name) :
    e.known.struct? name = none ∨
      ∃ r ∈ regs, r.node.name = name ∧ e.known.struct? name = some r.id ∧ r.WrittenIn e := by
  -- the structs registered on the way have their names; one that could not be named is another
  have hknown : ∀ {m : Draft}, Registers regs d m → Precedes Elementary.Orderly m e →
      (∃ r ∈ regs, r.node.name = name ∧ e.known.struct? name = some r.id) →
      ∃ r ∈ regs, r.node.name = name ∧ e.known.struct? name = some r.id ∧ r.WrittenIn e := by
    rintro m hregs hprecedes ⟨r, hr, hname, hid⟩
    exact ⟨r, hr, hname, hid, (hregs.writtenIn hr).mono hprecedes.written⟩
  cases h with
  | missing hregs _ =>
    exact (Declarations.struct?_of_appended hnone hregs.structs).imp_right (hknown hregs (.refl e))
  | oversized hregs _ _ _ =>
    exact (Declarations.struct?_of_appended hnone hregs.structs).imp_right (hknown hregs (.refl e))
  | @unnamed r inst m _ hregs hnode hnotes hinst hlong =>
    have hstructs : e.known.structList
        = d.known.structList ++ (regs ++ [r]).map Registration.entry := by
      rw [hnotes.structs, hregs.structs, List.map_append, List.append_assoc]
      rfl
    refine (Declarations.struct?_of_appended hnone hstructs).imp_right fun h => ?_
    obtain ⟨r', hr', hname, hid⟩ := h
    rcases List.mem_append.mp hr' with hr' | hr'
    · exact hknown hregs hnotes.precedes ⟨r', hr', hname, hid⟩
    · rw [List.mem_singleton.mp hr'] at hname
      exact absurd ⟨r, hnode, hname, inst, hinst, hlong, rfl⟩ hnamed

/-! ### What stays written as a whole -/

/-- What is registered under `name` in the draft `d`, if anything is, is written as a whole. -/
def Draft.WritesWhole (d : Draft) (name : String) : Prop :=
  d.known.struct? name = none ∨
    ∃ r : Registration, r.node.name = name ∧ d.known.struct? name = some r.id ∧ r.WrittenIn d

theorem Draft.WritesWhole.exists_of_struct? {d : Draft} {name : String} {id : Id}
    (h : d.WritesWhole name) (hid : d.known.struct? name = some id) :
    ∃ r : Registration, r.node.name = name ∧ r.id = id ∧ r.WrittenIn d := by
  rcases h with hnone | ⟨r, hname, hr, hwritten⟩
  · cases hnone.symm.trans hid
  · exact ⟨r, hname, Option.some.inj (hr.symm.trans hid), hwritten⟩

/-- A registration keeps what is written as a whole, unless a struct called `name` cannot be
named. -/
theorem registerStruct_writesWhole {struct : StructType} {name : String} {d : Draft}
    (h : d.WritesWhole name)
    (hnamed : ∀ {fault e}, Build.registerStruct struct d = .error fault e →
      ¬ fault.Unnames struct.nodes name) :
    (after (Build.registerStruct struct) d).WritesWhole name := by
  rcases h with hnone | ⟨r, hname, hr, hwritten⟩
  · cases hrun : Build.registerStruct struct d with
    | ok id e =>
      obtain ⟨regs, hregs, -⟩ := (leads_fieldType (.struct struct.name struct.fields) d).ok hrun
      rw [after_of_ok hrun]
      refine (Declarations.struct?_of_appended hnone hregs.structs).imp_right ?_
      rintro ⟨r, hr, hname, hid⟩
      exact ⟨r, hname, hid, hregs.writtenIn hr⟩
    | error fault e =>
      obtain ⟨regs, hhalts, -⟩ := fieldType_halts (.struct struct.name struct.fields) hrun
      rw [after_of_error hrun]
      refine (hhalts.struct? hnone (hnamed hrun)).imp_right ?_
      rintro ⟨r, -, hr⟩
      exact ⟨r, hr⟩
  · have hprecedes : Precedes (fun _ => True) d (after (Build.registerStruct struct) d) :=
      (Precedes.law fun _ _ _ => trivial).registerStruct struct d
    exact .inr ⟨r, hname, hprecedes.struct? hr, hwritten.mono hprecedes.written⟩

/-- A registration that succeeds answers a struct that is written as a whole, if what was known
under its name is, as `WritesWhole` says. -/
theorem registerStruct_answers_written {struct : StructType} {id : Id} {d e : Draft}
    (hknown : d.WritesWhole struct.name) (h : Build.registerStruct struct d = .ok id e) :
    ∃ r : Registration, r.node.name = struct.name ∧ r.id = id ∧ r.WrittenIn e := by
  obtain ⟨-, -, -, hid⟩ := (leads_fieldType (.struct struct.name struct.fields) d).ok h
  have hleft : (after (Build.registerStruct struct) d).WritesWhole struct.name :=
    registerStruct_writesWhole hknown fun herror => by cases h.symm.trans herror
  rw [after_of_ok h] at hleft
  exact hleft.exists_of_struct? hid

/-- From the draft `d` to the draft `e` instructions may be written, but no struct is
registered. -/
structure SparesStructs (d e : Draft) : Prop where
  written : Written d e
  structs : e.known.structs = d.known.structs

namespace SparesStructs

variable {d e f : Draft}

theorem of_eq (hsettings : e.settings = d.settings) (hlayout : e.layout = d.layout)
    (hstructs : e.known.structs = d.known.structs) : SparesStructs d e :=
  ⟨.of_eq hsettings hlayout, hstructs⟩

theorem refl (d : Draft) : SparesStructs d d := of_eq rfl rfl rfl

theorem trans (hde : SparesStructs d e) (hef : SparesStructs e f) : SparesStructs d f :=
  ⟨hde.written.trans hef.written, hef.structs.trans hde.structs⟩

theorem emit (s : Section) (inst : Instruction) : Moves SparesStructs (Build.emit s inst) := by
  intro d
  refine ⟨emit_written s inst d, ?_⟩
  by_cases h : inst.Fits
  · rw [after_of_ok (Build.emit_of_fits h s d)]
  · rw [after_of_error (Build.emit_of_not_fits h s d)]

/-- Structs are registered by nothing but `noteStruct`, which is none of the quiet parts. -/
theorem parts : QuietParts (Moves SparesStructs) where
  toComposes := Moves.composes refl fun _ _ _ => trans
  log := fun _ _ => of_eq rfl rfl rfl
  freshId := fun _ => of_eq rfl rfl rfl
  emit := emit
  findType := findType_moves refl fun _ _ => of_eq rfl rfl rfl
  noteType := fun _ _ _ => of_eq rfl rfl rfl
  findStruct := fun _ => refl
  structType := structType_moves refl
  openFunction := fun _ => of_eq rfl rfl rfl
  updateFunction := updateFunction_moves refl fun _ _ => of_eq rfl rfl rfl
  closeFunction := (StagingLaw.of_functions refl (fun _ _ _ => trans)
    (fun _ _ => of_eq rfl rfl rfl) (fun _ => of_eq rfl rfl rfl) (fun s inst _ => emit s inst)
    fun _ _ => of_eq rfl rfl rfl).closeFunction

theorem gaps : GapLaw SparesStructs :=
  .of_parts refl (fun _ _ _ => trans) (fun _ _ => of_eq rfl rfl rfl) parts

theorem perform (names : Names) {operation : Command}
    (h : ∀ struct, operation ≠ .registerStruct struct) :
    Moves SparesStructs (operation.perform names) := by
  by_cases hquery : operation.IsQuery
  · cases operation with
    | structList | sectionWords | bound => exact refl
    | _ => exact hquery.elim
  · exact parts.perform names hquery fun struct heq => absurd heq (h struct)

theorem writesWhole {name : String} (hstep : SparesStructs d e) (h : d.WritesWhole name) :
    e.WritesWhole name := by
  have hsame : e.known.struct? name = d.known.struct? name := by
    rw [Declarations.struct?, Declarations.struct?, hstep.structs]
  rcases h with hnone | ⟨r, hname, hr, hwritten⟩
  · exact .inl (hsame.trans hnone)
  · exact .inr ⟨r, hname, hsame.trans hr, hwritten.mono hstep.written⟩

end SparesStructs

/-- The `call` is a registration that fails because a struct called `name` cannot be named. -/
def Call.Unnames (call : Call) (name : String) : Prop :=
  ∃ struct fault, call.operation = .registerStruct struct ∧ call.answer = .error fault ∧
    fault.Unnames struct.nodes name

/-- What a registration does to the draft of the call it is made by. -/
theorem Call.action_of_registerStruct {call : Call} {struct : StructType}
    (h : call.operation = .registerStruct struct) :
    call.action = Command.answerId (Build.registerStruct struct) := by
  rw [action, h]
  rfl

/-- Whatever is called keeps what is written as a whole under `name`, unless a struct called so
cannot be named. -/
theorem Call.writesWhole_left {call : Call} {name : String} (hnamed : ¬ call.Unnames name)
    (h : call.draft.WritesWhole name) : call.left.WritesWhole name := by
  by_cases hstruct : ∃ struct, call.operation = .registerStruct struct
  · obtain ⟨struct, hop⟩ := hstruct
    obtain ⟨hok, herror⟩ := answer_of_answerId (action_of_registerStruct hop)
    have hafter := registerStruct_writesWhole h fun {fault e} hrun hunnamed =>
      hnamed ⟨struct, fault, hop, (herror hrun).1, hunnamed⟩
    cases hrun : Build.registerStruct struct call.draft with
    | ok id e => rwa [(hok hrun).2, ← after_of_ok hrun]
    | error fault e => rwa [(herror hrun).2, ← after_of_error hrun]
  · exact (SparesStructs.perform call.names (fun struct hop => hstruct ⟨struct, hop⟩)
      call.draft).writesWhole h

/-- **What a registration that fails leaves under its name.**  Take a struct whose name is not
registered in the draft `d`, and whose registration fails there with a `fault`, for another
reason than that its own name, or one of its fields' names, is too long.  In the draft `e` that
it leaves, the name is still not registered, or a struct of that name among its fields has been
registered before, and is written as a whole.  So a registration `again` under the name that
succeeds in `e` is answered with a struct that is written as a whole.  The same holds for any
`later` registration of a run that has such a call `failed`, if no registration `between` the two
fails because a struct of that name cannot be named. -/
theorem lookup_of_failed_registration {struct : StructType} {fault : Fault} {d e : Draft}
    (hnone : d.known.struct? struct.name = none)
    (hrun : Build.registerStruct struct d = .error fault e)
    (hnamed : ¬ fault.Unnames struct.nodes struct.name) :
    (e.known.struct? struct.name = none ∨
      ∃ r : Registration, r.node ∈ FieldType.nodesAll struct.fields ∧
        r.node.name = struct.name ∧ e.known.struct? struct.name = some r.id ∧ r.WrittenIn e) ∧
    (∀ (again : StructType) (id : Id) (f : Draft), again.name = struct.name →
      Build.registerStruct again e = .ok id f →
      ∃ r : Registration, r.node.name = struct.name ∧ r.id = id ∧ r.WrittenIn f) ∧
    ∀ {τ : Type} (script : Script τ) (lenient : Bool) (s : Session τ)
      (before between rest : List Call) (failed later : Call) (again : StructType) (id : Id),
      script.calls lenient s = before ++ failed :: (between ++ later :: rest) →
      failed.operation = .registerStruct struct → failed.draft = d →
      (∀ call ∈ between, ¬ call.Unnames struct.name) →
      later.operation = .registerStruct again → again.name = struct.name →
      later.answer = .ok (.id id) →
      ∃ r : Registration, r.node.name = struct.name ∧ r.id = id ∧ r.WrittenIn later.left := by
  obtain ⟨regs, hhalts, hregs⟩ := struct_halts hrun fun _ => fieldTypes_halts struct.fields
  have hleft := hhalts.struct? hnone hnamed
  have hwhole : e.WritesWhole struct.name := hleft.imp_right fun ⟨r, _, hr⟩ => ⟨r, hr⟩
  refine ⟨hleft.imp_right ?_, fun again id f hagain hok => ?_, ?_⟩
  · rintro ⟨r, hr, hwritten⟩
    exact ⟨r, hregs (List.mem_map_of_mem hr), hwritten⟩
  · rw [← hagain] at hwhole ⊢
    exact registerStruct_answers_written hwhole hok
  · intro τ script lenient s before between rest failed later again id hcalls hfailed hdraft
      hbetween hlater hagain hanswer
    have hlinked := linked_calls SparesStructs.gaps script lenient s
    rw [hcalls] at hlinked
    -- the invariant holds where the failure ends, and is kept up to the later registration
    have hstart : failed.left = e := by
      rw [← hdraft] at hrun
      exact ((Call.answer_of_answerId (Call.action_of_registerStruct hfailed)).2 hrun).2
    rw [← hstart] at hwhole
    have hreached : later.draft.WritesWhole struct.name :=
      (hlinked.split.2.split.1.induction hwhole (fun _ _ => SparesStructs.writesWhole)
        fun call hcall => call.writesWhole_left (hbetween call hcall)).2
    rw [← hagain] at hreached ⊢
    exact registerStruct_answers_written hreached
      (Call.run_of_answerId (Call.action_of_registerStruct hlater) hanswer)

/-- A struct with a struct of its own name as a field, before one that is missing. -/
def knotStruct : StructType :=
  ⟨"Knot", [("inner", .struct "Knot" [("value", .float)]), ("other", .named "Other")]⟩

theorem registerStruct_knotStruct :
    ∃ e, Build.registerStruct knotStruct { settings := {} } = .error (.unknownStruct "Other") e ∧
      e.known.struct? "Knot" = some ⟨2⟩ :=
  ⟨_, rfl, rfl⟩

/-- A registration that fails, a lookup that fails, and a registration under the first name. -/
def knotAgain : Script Unit :=
  .command ⟨(), none, true⟩ (.registerStruct knotStruct) <|
  .command ⟨(), none, true⟩ (.structPointer "Other" 2) <|
  .command ⟨(), none, false⟩ (.registerStruct ⟨"Knot", []⟩) .done

theorem lookup_of_failed_registration_knotStruct :
    ∃ e, Build.registerStruct knotStruct { settings := {} } = .error (.unknownStruct "Other") e ∧
      (∃ r : Registration, r.node = ⟨"Knot", [("value", .float)]⟩ ∧ r.id = ⟨2⟩ ∧ r.WrittenIn e) ∧
      (∀ (again : StructType) (id : Id) (f : Draft), again.name = "Knot" →
        Build.registerStruct again e = .ok id f →
        ∃ r : Registration, r.node.name = "Knot" ∧ r.id = id ∧ r.WrittenIn f) ∧
      ∃ failed lookup later : Call, knotAgain.calls false {} = [failed, lookup, later] ∧
        failed.answer = .error (.unknownStruct "Other") ∧ later.answer = .ok (.id ⟨2⟩) ∧
        ∃ r : Registration, r.node.name = "Knot" ∧ r.id = ⟨2⟩ ∧ r.WrittenIn later.left := by
  obtain ⟨e, hrun, hknot⟩ := registerStruct_knotStruct
  have hnone : ({ settings := {} } : Draft).known.struct? knotStruct.name = none := rfl
  have hnamed : ¬ (Fault.unknownStruct "Other").Unnames knotStruct.nodes knotStruct.name := nofun
  obtain ⟨hleft, hagain, hlater⟩ := lookup_of_failed_registration hnone hrun hnamed
  refine ⟨e, hrun, ?_, hagain, ?_⟩
  · have hid : e.known.struct? knotStruct.name = some ⟨2⟩ := hknot
    have hnodes : FieldType.nodesAll knotStruct.fields = [⟨"Knot", [("value", .float)]⟩] := rfl
    rw [hid, hnodes] at hleft
    rcases hleft with hnone | ⟨r, hnode, -, hr, hwritten⟩
    · cases hnone
    · exact ⟨r, List.mem_singleton.mp hnode, (Option.some.inj hr).symm, hwritten⟩
  · have hops : (knotAgain.calls false {}).map Call.operation = knotAgain.commands :=
      (knotAgain.operations_sublist false {}).eq_of_length (by decide +kernel)
    have hanswers : (knotAgain.calls false {}).map Call.answer
        = [.error (.unknownStruct "Other"), .error (.unknownStruct "Other"), .ok (.id ⟨2⟩)] := by
      decide +kernel
    have hdraft : (knotAgain.calls false {}).head?.map Call.draft = some { settings := {} } := rfl
    obtain ⟨failed, _, hcalls, hfailed, hrest⟩ := List.map_eq_cons_iff.mp hops
    obtain ⟨lookup, _, rfl, hlookup, hrest⟩ := List.map_eq_cons_iff.mp hrest
    obtain ⟨later, _, rfl, hlast, hrest⟩ := List.map_eq_cons_iff.mp hrest
    rw [List.map_eq_nil_iff.mp hrest] at hcalls
    rw [hcalls] at hanswers hdraft
    simp only [List.map_cons, List.map_nil, List.cons.injEq] at hanswers
    have hbetween : ∀ call ∈ [lookup], ¬ call.Unnames knotStruct.name := by
      rintro call hcall ⟨struct, fault, hop, -⟩
      rw [List.mem_singleton.mp hcall, hlookup] at hop
      cases hop
    refine ⟨failed, lookup, later, hcalls, hanswers.1, hanswers.2.2.1, ?_⟩
    exact hlater knotAgain false {} [] [lookup] [] failed later ⟨"Knot", []⟩ ⟨2⟩ hcalls hfailed
      (Option.some.inj hdraft) hbetween hlast rfl hanswers.2.2.1

/-- A registration that fails may leave its name registered. -/
theorem failed_registration_registers_knotStruct :
    ({ settings := {} } : Draft).known.struct? knotStruct.name = none ∧
    ∃ e, Build.registerStruct knotStruct { settings := {} } = .error (.unknownStruct "Other") e ∧
      e.known.struct? knotStruct.name ≠ none := by
  obtain ⟨e, hrun, hknot⟩ := registerStruct_knotStruct
  exact ⟨rfl, e, hrun, fun hnone => Option.some_ne_none _ (hknot.symm.trans hnone)⟩

end SpirvBinary
