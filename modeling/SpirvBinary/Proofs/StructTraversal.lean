import SpirvBinary.Proofs.DeclaredOnce

/-!
# Which structs of a tree are registered

A struct may have structs among its fields, given in full or by name.  Registering it goes
through this tree from left to right.  A struct whose name is registered by then is left out
with everything below it; any other one is registered on the way out, after its fields,
unless one of them has registered the name meanwhile.  A field that only names a struct asks
for a name that must be registered by then.

The traversal is a function of the tree and of the names registered before; it does not
mention ids, instructions or drafts.

## Main definitions

* `FieldType.nodes` — all structs of a tree, each after the structs among its fields.
* `FieldType.traverse` — the structs that are registered, and the first name that is missing.
* `Declarations.structNames` — the names that are registered.

## Main results

* `traverse_sublist` — what is registered are structs of the tree, in the order of the tree.
-/

namespace SpirvBinary

namespace FieldType

mutual

/-- The structs of a tree, each one after those among its fields. -/
def nodes : FieldType → List StructType
  | .struct name fields => nodesAll fields ++ [⟨name, fields⟩]
  | _ => []

/-- The structs of the trees of fields, in the order of the fields. -/
def nodesAll : List (String × FieldType) → List StructType
  | [] => []
  | (_, type) :: rest => type.nodes ++ nodesAll rest

end

mutual

/-- The structs that are registered on the way through a tree, given the names `known` before, and
the name at which the way ends when a struct is asked for in vain. -/
def traverse (known : List String) : FieldType → List StructType × Option String
  | .struct name fields =>
      if name ∈ known then ([], none)
      else
        match traverseAll known fields with
        | (new, some missing) => (new, some missing)
        | (new, none) =>
            if name ∈ known ++ new.map StructType.name then (new, none)
            else (new ++ [⟨name, fields⟩], none)
  | .named name => if name ∈ known then ([], none) else ([], some name)
  | _ => ([], none)

/-- The same for the trees of fields, one after the other. -/
def traverseAll (known : List String) :
    List (String × FieldType) → List StructType × Option String
  | [] => ([], none)
  | (_, type) :: rest =>
      match type.traverse known with
      | (new, some missing) => (new, some missing)
      | (new, none) =>
          let later := traverseAll (known ++ new.map StructType.name) rest
          (new ++ later.1, later.2)

end

/-! ### The steps of a traversal -/

section Steps

variable {known : List String} {name missing : String} {fields : List (String × FieldType)}
  {field : String × FieldType} {new later : List StructType}

theorem traverse_struct_of_mem (h : name ∈ known) :
    (FieldType.struct name fields).traverse known = ([], none) := by
  rw [traverse, if_pos h]

/-- A struct is registered after the structs `new` of its fields. -/
theorem traverse_struct_of_not_mem (h : name ∉ known)
    (hfields : traverseAll known fields = (new, none))
    (hnew : name ∉ known ++ new.map StructType.name) :
    (FieldType.struct name fields).traverse known = (new ++ [⟨name, fields⟩], none) := by
  rw [traverse, if_neg h, hfields]
  simp only [if_neg hnew]

/-- A struct is not, if its name is among those of the structs `new` that its fields have
registered. -/
theorem traverse_struct_of_inner (h : name ∉ known)
    (hfields : traverseAll known fields = (new, none))
    (hnew : name ∈ known ++ new.map StructType.name) :
    (FieldType.struct name fields).traverse known = (new, none) := by
  rw [traverse, if_neg h, hfields]
  simp only [if_pos hnew]

/-- A struct is not, either, if a name is `missing` in its fields. -/
theorem traverse_struct_of_missing (h : name ∉ known)
    (hfields : traverseAll known fields = (new, some missing)) :
    (FieldType.struct name fields).traverse known = (new, some missing) := by
  rw [traverse, if_neg h, hfields]

theorem traverse_named_of_mem (h : name ∈ known) :
    (FieldType.named name).traverse known = ([], none) := by
  rw [traverse, if_pos h]

theorem traverse_named_of_not_mem (h : name ∉ known) :
    (FieldType.named name).traverse known = ([], some name) := by
  rw [traverse, if_neg h]

theorem traverseAll_cons {result : Option String} (hfield : field.2.traverse known = (new, none))
    (hfields : traverseAll (known ++ new.map StructType.name) fields = (later, result)) :
    traverseAll known (field :: fields) = (new ++ later, result) := by
  rw [traverseAll, hfield]
  simp only [hfields]

theorem traverseAll_cons_of_missing (hfield : field.2.traverse known = (new, some missing)) :
    traverseAll known (field :: fields) = (new, some missing) := by
  rw [traverseAll, hfield]

end Steps

mutual

/-- What `traverse` registers are structs of the tree, in the order of the tree. -/
theorem traverse_sublist : ∀ (type : FieldType) (known : List String),
    (type.traverse known).1.Sublist type.nodes
  | .struct name fields, known => by
      have hfields := traverseAll_sublist fields known
      rw [nodes, traverse]
      -- the struct itself is the last one, and comes in only when its name is still free
      split
      · exact List.nil_sublist _
      · split
        · next hall => rw [hall] at hfields; exact hfields.trans (List.sublist_append_left _ _)
        · next hall =>
          rw [hall] at hfields
          split
          · exact hfields.trans (List.sublist_append_left _ _)
          · exact hfields.append (List.Sublist.refl _)
  | .named name, known => by
      rw [traverse]
      split <;> exact List.nil_sublist _
  | .int, _ | .word, _ | .float, _ | .vector _, _ | .matrix _ _, _ => by
      simp only [traverse, List.nil_sublist]

theorem traverseAll_sublist : ∀ (fields : List (String × FieldType)) (known : List String),
    (traverseAll known fields).1.Sublist (nodesAll fields)
  | [], _ => by
      rw [traverseAll]
      exact List.nil_sublist _
  | (_, type) :: rest, known => by
      have htype := traverse_sublist type known
      rw [traverseAll, nodesAll]
      split
      · next h => rw [h] at htype; exact htype.trans (List.sublist_append_left _ _)
      · next h =>
        rw [h] at htype
        exact htype.append (traverseAll_sublist rest _)

end

end FieldType

/-- The structs of the tree of a struct, itself the last. -/
def StructType.nodes (struct : StructType) : List StructType :=
  (FieldType.struct struct.name struct.fields).nodes

/-- The structs that are registered together with `struct`, given the names `known` before, and the
name at which the registration ends when it is asked for in vain. -/
def StructType.traverse (struct : StructType) (known : List String) :
    List StructType × Option String :=
  (FieldType.struct struct.name struct.fields).traverse known

/-! ### Registered names -/

/-- The names of the registered structs, in the order of registration. -/
def Declarations.structNames (known : Declarations) : List String :=
  known.structList.map Prod.fst

theorem Declarations.struct?_eq_none_iff {known : Declarations} {name : String} :
    known.struct? name = none ↔ name ∉ known.structNames := OrderedMap.get?_eq_none_iff

theorem Declarations.mem_structNames {known : Declarations} {name : String} {id : Id}
    (h : known.struct? name = some id) : name ∈ known.structNames :=
  List.mem_map_of_mem (OrderedMap.mem_toList_of_get? h)

end SpirvBinary
