import SpirvBinary.Proofs.DeclaredOnce

/-!
# The registry of structs only grows at its end

A struct is noted when its declaration has been written, and only under a name that is not
registered at that moment.  Noting a name again would move its entry to the end and give it
another id; as this never happens, the registry is a list to which entries are only ever
added, one for each struct that was written, in the same order.

## Main results

* `Precedes.structList_grows` — entries keep their places and their ids.
* `Course.written_structs` — the entries are the structs that were written as such.
* `structs_of_run` — **the registry only grows, and mirrors the written structs.**
-/

namespace SpirvBinary

open Opcode

/-- A new struct becomes the last entry. -/
theorem Declarations.structList_insertStruct {known : Declarations} {name : String}
    (h : known.struct? name = none) (id : Id) :
    (known.insertStruct name id).structList = known.structList ++ [(name, id)] :=
  OrderedMap.toList_insert_of_none h id

/-- Asking for a struct changes nothing, and finds `id` exactly when it is registered under
`name`. -/
theorem Build.structType_eq_ok_iff {name : String} {id : Id} {d e : Draft} :
    structType name d = .ok id e ↔ d.known.struct? name = some id ∧ d = e := by
  cases h : d.known.struct? name with
  | some registered =>
    rw [structType_of_known h, EStateM.Result.ok.injEq, Option.some.injEq]
  | none =>
    rw [structType_of_unknown h]
    constructor
    · intro hrun
      cases hrun
    · rintro ⟨hname, -⟩
      cases hname

/-- Whatever is registered in `d` keeps its id and its place in `e`. -/
theorem Precedes.structList_grows {allowed : Elementary → Prop} {d e : Draft}
    (h : Precedes allowed d e) : d.known.structList <+: e.known.structList := by
  obtain ⟨log, course⟩ := h
  refine course.induction (P := fun _ e => d.known.structList <+: e.known.structList)
    (List.prefix_refl _) fun log e op entries f _ effect ih => ?_
  cases effect with
  | idle h => rwa [h.known]
  | declared _ _ _ hknown =>
    rw [hknown]
    exact ih
  | registered hunknown _ hknown =>
    rw [hknown, Declarations.structList_insertStruct hunknown]
    exact ih.trans (List.prefix_append _ _)
  | allotted _ hknown => rwa [hknown]
  | emitted _ hknown => rwa [hknown]

/-- The entries of the registry are the structs in `log` that have been written as such, one for
one and in the same order. -/
theorem Course.written_structs {allowed : Elementary → Prop} {settings : Settings}
    {log : List (Author × Instruction)} {d : Draft}
    (course : Course allowed { settings := settings } log d) :
    List.Forall₂ (fun inst entry => inst.opcode = opTypeStruct ∧ inst.result = some entry.2)
      (writtenBy .struct log) d.known.structList := by
  refine course.induction (P := fun log d => List.Forall₂
    (fun inst entry => inst.opcode = opTypeStruct ∧ inst.result = some entry.2)
    (writtenBy .struct log) d.known.structList) .nil fun log e op entries f _ effect ih => ?_
  rw [writtenBy_append]
  cases effect with
  | idle h => rwa [h.known, writtenBy_nil, List.append_nil]
  | declared _ _ _ hknown =>
    rw [hknown, writtenBy_of_ne (by decide), List.append_nil]
    exact ih
  | registered hunknown _ hknown =>
    rw [hknown, Declarations.structList_insertStruct hunknown, writtenBy_self]
    exact List.rel_append ih (.cons ⟨rfl, rfl⟩ .nil)
  | allotted _ hknown => rwa [hknown, writtenBy_of_ne (by decide), List.append_nil]
  | emitted _ hknown => rwa [hknown, writtenBy_of_ne (by decide), List.append_nil]

/-- The ids of the registry are distinct, as those of all that the library declares. -/
theorem Course.structIds_nodup {allowed : Elementary → Prop} {settings : Settings}
    {log : List (Author × Instruction)} {d : Draft}
    (course : Course allowed { settings := settings } log d) (hcount : d.ids.count < 4294967296) :
    (d.known.structList.map Prod.snd).Nodup := by
  have hids : d.known.structList.map Prod.snd = resultsOf (writtenBy .struct log) :=
    course.structs
  rw [hids]
  exact (resultsOf_writtenBy_sublist (by decide) log).nodup (course.numbered.2.nodup hcount)

/-- **The registry only grows, and mirrors the written structs.**  Whatever a script does, from
whatever session it starts, the registry afterwards is the registry before with entries added
at its end, and a struct that could be asked for is answered with the same id.  After a run
from a new draft no name and no id is registered twice, and in any log of the global
declarations that leads to the draft the structs that were written as such are the entries
of the registry, one for one and in the same order. -/
theorem structs_of_run {τ : Type} (settings : Settings) (lenient : Bool) (script : Script τ) :
    (∀ s : Session τ,
      let t := after (script.run lenient) s
      s.draft.known.structList <+: t.draft.known.structList ∧
      ∀ name id, Build.structType name s.draft = .ok id s.draft →
        Build.structType name t.draft = .ok id t.draft) ∧
    let d := script.draftAfter settings lenient
    (d.known.structList.map Prod.fst).Nodup ∧
    (d.ids.count < 4294967295 → (d.known.structList.map Prod.snd).Nodup) ∧
    (∃ log, Course (fun _ => True) { settings := settings } log d) ∧
    ∀ log, Course (fun _ => True) { settings := settings } log d →
      d.globals = log.map Prod.snd ∧
      List.Forall₂ (fun inst entry => inst.opcode = opTypeStruct ∧ inst.result = some entry.2)
        (writtenBy .struct log) d.known.structList := by
  have hrun := Precedes.run script lenient
  obtain ⟨log, course⟩ := hrun { draft := { settings := settings } }
  refine ⟨fun s => ⟨(hrun s).structList_grows, fun name id hname => ?_⟩, OrderedMap.nodup_keys _,
    fun hcount => course.structIds_nodup (hcount.trans (by decide)), ⟨log, course⟩,
    fun log course => ⟨course.globals, course.written_structs⟩⟩
  rw [Build.structType_eq_ok_iff] at hname ⊢
  exact ⟨(hrun s).struct? hname.1, rfl⟩

/-- A struct with a member of its own name, a struct that fails behind a member of its own,
and the first one once more with other fields. -/
def nestedNames : Script Unit :=
  .command ⟨(), none, false⟩ (.registerStruct
    ⟨"Node", [("next", .struct "Node" [("value", .float)]), ("also", .named "Node")]⟩) <|
  .command ⟨(), none, true⟩ (.registerStruct
    ⟨"List", [("length", .struct "Length" [("value", .word)]), ("end", .named "End")]⟩) <|
  .command ⟨(), none, false⟩ (.registerStruct ⟨"Node", [("value", .int)]⟩) .done

theorem structs_of_run_nestedNames :
    (nestedNames.draftAfter {} false).known.structList = [("Node", ⟨2⟩), ("Length", ⟨4⟩)] ∧
      (nestedNames.draftAfter {} false).ids.count = 4 ∧
      ((nestedNames.draftAfter {} false).known.structList.map Prod.snd).Nodup ∧
      ∃ log, Course (fun _ => True) {} log (nestedNames.draftAfter {} false) ∧
        (writtenBy .struct log).length = 2 := by
  have hlist : (nestedNames.draftAfter {} false).known.structList
      = [("Node", ⟨2⟩), ("Length", ⟨4⟩)] := by decide +kernel
  have hcount : (nestedNames.draftAfter {} false).ids.count = 4 := by decide +kernel
  obtain ⟨-, -, hids, ⟨log, course⟩, hlogs⟩ := structs_of_run {} false nestedNames
  refine ⟨hlist, hcount, hids (by rw [hcount]; decide), log, course, ?_⟩
  rw [(hlogs log course).2.length_eq, hlist]
  rfl

end SpirvBinary
