import SpirvBinary.Proofs.FlowIds

/-!
# Known declarations have been written

A type or constant is noted when its declaration has been written, so whatever is known
stands among the global declarations, under an id that was handed out before.  This holds
in every run in which types are not declared by opcodes of constants and constants not by
opcodes of types: then a key determines how the id and the type of a declaration stand
between its operands.

## Main definitions

* `Draft.KnownDeclared` — what is known has been declared.

## Main results

* `knownDeclared_draftAfter` — what is known has been declared, after every run.
* `FunctionRun.known_not_mem` — a known type or constant is not a result of a flow.
-/

namespace SpirvBinary

open Opcode

/-- The declaration that `key` stands for has been written with the result `id`. -/
def Draft.Declared (d : Draft) (key : DeclarationKey) (id : Id) : Prop :=
  ∃ type operands, key.operands = Instruction.slot type ++ operands ∧
    KeepsKinds key.opcode type ∧
      ⟨key.opcode, type, some id, operands⟩ ∈ d.layout.instructions .globalDeclarations

/-- Every type or constant that is known has been declared, and has an id that has been
handed out. -/
def Draft.KnownDeclared (d : Draft) : Prop :=
  ∀ key id, d.known.type? key = some id → d.Declared key id ∧ ∃ n ≤ d.ids.count, id = Id.ofNat n

theorem Layout.mem_instructions {layout : Layout} {s : Section} {inst : Instruction} :
    inst ∈ layout.instructions s ↔ (s, inst) ∈ layout.newest := by
  simp [instructions, entries]

theorem Draft.Declared.mono {d e : Draft} {key : DeclarationKey} {id : Id}
    (h : d.Declared key id) (hlayout : d.layout.newest ⊆ e.layout.newest) :
    e.Declared key id := by
  obtain ⟨type, operands, hkey, hkinds, hmem⟩ := h
  exact ⟨type, operands, hkey, hkinds,
    Layout.mem_instructions.mpr (hlayout (Layout.mem_instructions.mp hmem))⟩

theorem Draft.KnownDeclared.mono {d e : Draft} (h : d.KnownDeclared)
    (hknown : ∀ key, e.known.type? key = d.known.type? key) (hcount : d.ids.count ≤ e.ids.count)
    (hlayout : d.layout.newest ⊆ e.layout.newest) : e.KnownDeclared := by
  intro key id hkey
  rw [hknown] at hkey
  obtain ⟨hdeclared, n, hn, hid⟩ := h key id hkey
  exact ⟨hdeclared.mono hlayout, n, hn.trans hcount, hid⟩

/-! ### All operations declare what they note -/

/-- What `e` knows has been declared if what `d` knows has been. -/
def KeepsDeclared (d e : Draft) : Prop := d.KnownDeclared → e.KnownDeclared

namespace KeepsDeclared

theorem refl (d : Draft) : KeepsDeclared d d := fun h => h

theorem trans (d e f : Draft) (hde : KeepsDeclared d e) (hef : KeepsDeclared e f) :
    KeepsDeclared d f := fun h => hef (hde h)

/-- A draft `e` that differs from `d` in its structs, its open functions and its journal only. -/
theorem of_eq {d e : Draft} (hknown : ∀ key, e.known.type? key = d.known.type? key)
    (hids : e.ids = d.ids) (hlayout : e.layout = d.layout) : KeepsDeclared d e :=
  fun h => h.mono hknown (by rw [hids]) (by rw [hlayout]; exact List.Subset.refl _)

theorem freshId : Moves KeepsDeclared Build.freshId :=
  fun _ h => h.mono (fun _ => rfl) (Nat.le_succ _) (List.Subset.refl _)

theorem emit (s : Section) (inst : Instruction) : Moves KeepsDeclared (Build.emit s inst) := by
  intro d h
  by_cases hfits : inst.Fits
  · rw [after_of_ok (Build.emit_of_fits hfits s d)]
    exact h.mono (fun _ => rfl) le_rfl (List.subset_cons_self _ _)
  · rw [after_of_error (Build.emit_of_not_fits hfits s d)]
    exact h

theorem declare {opcode : Opcode} {type : Option Id} (hkinds : KeepsKinds opcode type)
    (operands : List Word) : Moves KeepsDeclared (Build.declare opcode type operands) := by
  intro d h
  cases hfound : d.known.type? ⟨opcode, Instruction.slot type ++ operands⟩ with
  | some id =>
    rw [after_of_ok (Build.declare_of_known hfound)]
    exact h
  | none =>
    by_cases hfits : (Instruction.mk opcode type (some d.ids.next) operands).Fits
    · rw [after_of_ok (Build.declare_of_fits hfound hfits)]
      intro key id hkey
      by_cases heq : (⟨opcode, Instruction.slot type ++ operands⟩ : DeclarationKey) = key
      · -- what has just been noted has just been written
        subst heq
        have hid := Option.some.inj ((OrderedMap.get?_insert_self _ _ _).symm.trans hkey)
        subst hid
        refine ⟨⟨type, operands, rfl, hkinds, ?_⟩, _, le_rfl, rfl⟩
        exact Layout.mem_instructions.mpr List.mem_cons_self
      · have hold := (OrderedMap.get?_insert_of_ne _ _ heq).symm.trans hkey
        obtain ⟨hdeclared, n, hn, hid⟩ := h key id hold
        exact ⟨hdeclared.mono (List.subset_cons_self _ _), n, hn.trans (Nat.le_succ _), hid⟩
    · -- an id has been taken for nothing
      rw [after_of_error (Build.declare_of_not_fits hfound hfits)]
      exact h.mono (fun _ => rfl) (Nat.le_succ _) (List.Subset.refl _)

/-- Structs are not noted as types. -/
theorem declareStruct (name : String) (fields : List (String × FieldType)) (members : List Id) :
    Moves KeepsDeclared (Build.declareStruct name fields members) :=
  (Moves.composes refl trans).declareStruct (fun _ => refl)
    (fun _ _ => of_eq (fun _ => rfl) rfl rfl) freshId (emit _) (emit _)
    (fun _ _ _ => of_eq (fun _ => rfl) rfl rfl) name fields members

theorem law : Law KeepsDeclared :=
  Law.of_functions
    (.of_declare refl trans (fun _ _ => of_eq (fun _ => rfl) rfl rfl)
      (fun _ _ operands hkinds => declare hkinds operands) declareStruct)
    freshId emit fun _ _ => of_eq (fun _ => rfl) rfl rfl

end KeepsDeclared

/-! ### Runs -/

theorem raw_keepsDeclared (names : Names) (operation : Command) (hraw : operation.IsRaw)
    (h : operation.KeepsKinds) : Moves KeepsDeclared (operation.perform names) := by
  have law := KeepsDeclared.law
  have hstage : ∀ f, Moves KeepsDeclared (Build.updateFunction f) := fun f =>
    updateFunction_moves KeepsDeclared.refl (fun _ _ => .of_eq (fun _ => rfl) rfl rfl) f
  cases operation with
  | emit s template => exact law.answerDone (KeepsDeclared.emit s _)
  | emitResult s opcode operands =>
    exact law.answerId (law.bind law.freshId fun id =>
      law.bind (KeepsDeclared.emit s _) fun _ => law.pure id)
  | declareType opcode operands => exact law.answerId (law.declareType h _)
  | declareConstant opcode type operands => exact law.answerId (law.declareConstant h _ _)
  | pushHead template => exact law.answerDone (hstage _)
  | pushBody template => exact law.answerDone (hstage _)
  | label block => exact law.answerDone (hstage _)
  | _ => exact hraw.elim

/-- What is known after a run has been declared. -/
theorem knownDeclared_draftAfter {τ : Type} {script : Script τ}
    (h : script.Uses Command.KeepsKinds) (settings : Settings) (lenient : Bool) :
    (script.draftAfter settings lenient).KnownDeclared := by
  refine KeepsDeclared.law.draftAfter raw_keepsDeclared h settings lenient fun key id hkey => ?_
  cases hkey

theorem Command.IsStatement.keepsKinds {operation : Command} (h : operation.IsStatement) :
    operation.KeepsKinds := by
  cases operation with
  | declareType | declareConstant => exact h
  | _ => trivial

theorem Script.IsBody.keepsKinds {τ : Type} {script : Script τ} (h : script.IsBody) :
    script.Uses Command.KeepsKinds := h.uses fun _ => Command.IsStatement.keepsKinds

/-! ### Functions -/

namespace FunctionRun

variable {τ : Type} {name : Option String} {returnType : Option Id} {paramTypes : List Id}
  {body : Script τ} {ending : Command} {function : FunctionDef} {flow : Flow}
  {s opened closed t : Session τ}

theorem opened_knownDeclared (run : FunctionRun name returnType paramTypes body ending function
    flow s opened closed t) (hs : s.draft.KnownDeclared) : opened.draft.KnownDeclared := by
  have h := KeepsDeclared.law.beginNamedFunction name returnType paramTypes s.draft hs
  rwa [after_of_ok run.begins] at h

theorem knownDeclared (run : FunctionRun name returnType paramTypes body ending function
    flow s opened closed t) (hbody : body.IsBody) (hs : s.draft.KnownDeclared) :
    t.draft.KnownDeclared := by
  have h := KeepsDeclared.law.run raw_keepsDeclared body hbody.keepsKinds false opened
    (run.opened_knownDeclared hs)
  rw [after_of_ok run.runs] at h
  -- closing the function only adds to what is written
  refine h.mono (fun _ => by rw [run.known]) run.ids.ge ?_
  rw [run.writes]
  exact List.subset_append_right _ _

/-- A known type or constant is not a result of a flow. -/
theorem known_not_mem (run : FunctionRun name returnType paramTypes body ending function flow s
    opened closed t) (hbody : body.IsBody) (hs : s.draft.KnownDeclared)
    (hcount : t.draft.ids.count < 4294967296) {key : DeclarationKey} {id : Id}
    (hkey : t.draft.known.type? key = some id) : id ∉ resultsOf (flow.head ++ flow.body) := by
  rw [run.ids] at hcount
  rw [run.known] at hkey
  obtain ⟨added, hlayout, -, hnoted⟩ := run.stages.written
  obtain ⟨hnodup, hids⟩ := run.added_nodup hbody hcount hlayout
  rw [resultsOf_append]
  intro hmem
  rcases hnoted key id hkey with hold | ⟨entry, hentry, hresult⟩
  · -- it was known when the body began, so its id is an old one
    obtain ⟨-, n, hn, rfl⟩ := run.opened_knownDeclared hs key id hold
    have hnew := hids _ (List.mem_append_right _ hmem)
    have hle := run.count_le hbody
    rw [Id.toNat_ofNat (by omega)] at hnew
    omega
  · -- it was declared in the body, so it is the result of another instruction
    have hdeclared : id ∈ resultsOf (added.map Prod.snd) :=
      mem_resultsOf.mpr ⟨entry.2, List.mem_map_of_mem hentry, hresult⟩
    exact (List.nodup_append.mp hnodup).2.2 id hdeclared id hmem rfl

end FunctionRun

end SpirvBinary
