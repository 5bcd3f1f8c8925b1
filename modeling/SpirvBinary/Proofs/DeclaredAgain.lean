import SpirvBinary.Proofs.Calls
import SpirvBinary.Proofs.ClosedDrafts

/-!
# Declaring again

What has been declared once can be declared again at any later time: the answer is the same, and
nothing is written.  For a type or a constant by itself this is so because it is known from then
on and keeps its id.  A declaration with parts declares each of its parts again, and each of them
is answered with the id it had the first time, so that the next part is asked for with the same
operands as before.  Along computations that follow one another this is an invariant of its own:
what has succeeded is *settled* from then on.

## Main definitions

* `Settled` — on every later draft a computation gives one and the same result, and nothing
  changes but the journal.
* `Repeats` — a computation that has succeeded is settled.
* `Command.IsDeclaring` — the commands that declare, by any opcode.

## Main results

* `Settled.bind`, `Repeats.parts` — what is put together from parts that are settled is settled.
* `Repeats.perform` — every declaration is settled once it has succeeded.
* `declared_again` — **declaring again answers the same id and changes nothing.**
-/

namespace SpirvBinary

variable {α β : Type} {x : Build α} {k : α → Build β} {a : α} {b : β} {d e : Draft}

/-! ### Settled computations -/

/-- On every draft that comes after `d`, the computation `x` gives the result `a`, and changes
nothing but the journal. -/
def Settled (x : Build α) (a : α) (d : Draft) : Prop :=
  ∀ e, Precedes (fun _ => True) d e → ∃ events, x e = .ok a { e with journal := events }

namespace Settled

theorem mono (h : Settled x a d) (hde : Precedes (fun _ => True) d e) : Settled x a e :=
  fun f hef => h f (hde.trans hef)

theorem pure (a : α) (d : Draft) : Settled (Pure.pure a) a d := fun e _ => ⟨e.journal, rfl⟩

theorem bind (hx : Settled x a d) (hk : Settled (k a) b d) : Settled (x >>= k) b d := by
  intro e hde
  obtain ⟨events, hrun⟩ := hx e hde
  -- what the first computation notes in the journal leads to one more later draft
  have hnoted : Precedes (fun _ => True) e { e with journal := events } :=
    .of_op (.note events) trivial e
  obtain ⟨events', hrun'⟩ := hk _ (hde.trans hnoted)
  exact ⟨events', (bind_of_ok hrun).trans hrun'⟩

/-- What is known stays known under the same id. -/
theorem declare {opcode : Opcode} {type : Option Id} {operands : List Word} {id : Id}
    (h : d.known.type? ⟨opcode, Instruction.slot type ++ operands⟩ = some id) :
    Settled (Build.declare opcode type operands) id d :=
  fun _ hde => ⟨_, Build.declare_of_known (hde.type? h)⟩

theorem structType {name : String} {id : Id} (h : d.known.struct? name = some id) :
    Settled (Build.structType name) id d :=
  fun e hde => ⟨e.journal, Build.structType_of_known (hde.struct? h)⟩

/-- A struct whose name is registered is not looked at any further. -/
theorem registerStruct {struct : StructType} {id : Id}
    (h : d.known.struct? struct.name = some id) : Settled (Build.registerStruct struct) id d := by
  intro e hde
  refine ⟨.structKnown struct.name id :: e.journal, ?_⟩
  rw [Build.registerStruct, Build.fieldType, bind_of_ok (Build.findStruct_run struct.name e),
    hde.struct? h]
  rfl

end Settled

/-! ### Computations that can be repeated -/

/-- The computation `x` is a course, and settled when it has succeeded. -/
structure Repeats (x : Build α) : Prop where
  moves : Moves (Precedes fun _ => True) x
  settled : ∀ {d e : Draft} {a : α}, x d = .ok a e → Settled x a e

/-- The name of a struct that has been registered has the `id` that was answered. -/
theorem Build.struct?_of_registerStruct {struct : StructType} {id : Id}
    (h : registerStruct struct d = .ok id e) : e.known.struct? struct.name = some id := by
  rw [registerStruct, fieldType, bind_of_ok (findStruct_run struct.name d)] at h
  cases hname : d.known.struct? struct.name with
  | some known =>
    rw [hname] at h
    cases h
    exact hname
  | none =>
    rw [hname] at h
    obtain ⟨members, f, -, h⟩ := exists_of_bind_ok h
    exact struct?_of_declareStruct h

namespace Repeats

theorem pure (a : α) : Repeats (Pure.pure a : Build α) where
  moves := Moves.pure .refl a
  settled := by
    intro d e b h
    cases h
    exact .pure a d

theorem bind (hx : Repeats x) (hk : ∀ a, Repeats (k a)) : Repeats (x >>= k) where
  moves := Moves.bind (fun _ _ _ => .trans) hx.moves fun a => (hk a).moves
  settled := by
    intro d f b h
    obtain ⟨a, e, hrun, hrun'⟩ := exists_of_bind_ok h
    have hef : Precedes (fun _ => True) e f := after_of_ok hrun' ▸ (hk a).moves e
    exact ((hx.settled hrun).mono hef).bind ((hk a).settled hrun')

theorem declare (opcode : Opcode) (type : Option Id) (operands : List Word) :
    Repeats (Build.declare opcode type operands) where
  moves := fun d => .of_op (.declare opcode type operands) trivial d
  settled := fun h => .declare (Build.type?_of_declare h)

theorem structType (name : String) : Repeats (Build.structType name) where
  moves := structType_moves .refl name
  settled := by
    intro d e id h
    cases hname : d.known.struct? name with
    | some known =>
      rw [Build.structType_of_known hname] at h
      cases h
      exact .structType hname
    | none =>
      rw [Build.structType_of_unknown hname] at h
      cases h

/-- All that types and constants are made of `Repeats`. -/
theorem parts : ConstantParts Repeats where
  pure := pure
  bind := bind
  structType := structType
  declare := fun opcode type operands _ => declare opcode type operands

/-- The parts of a struct are not asked for again when its name is registered, so they need not
be settled. -/
theorem registerStruct (struct : StructType) : Repeats (Build.registerStruct struct) where
  moves := (Precedes.law fun _ _ _ => trivial).registerStruct struct
  settled := fun h => .registerStruct (Build.struct?_of_registerStruct h)

end Repeats

/-! ### Commands -/

/-- The commands that declare a type, a constant or a struct, or look one up by a name, whatever
their opcode is. -/
def Command.IsDeclaring : Command → Prop
  | .declareType .. | .declareConstant .. => True
  | operation => operation.IsDeclaration

/-- Every declaration `Repeats`. -/
theorem Repeats.perform (names : Names) {operation : Command} (h : operation.IsDeclaring) :
    Repeats (operation.perform names) := by
  cases operation with
  | declareType opcode operands => exact parts.answerId (declare opcode none _)
  | declareConstant opcode type operands => exact parts.answerId (declare opcode _ _)
  | _ => exact parts.perform names h fun struct _ => registerStruct struct

/-- **Declaring again answers the same id and changes nothing.**  Take two calls of a run, at
whatever depth of its constructs and functions, of which the first declares something and is
answered with an id.  If the later one does the same, whatever succeeds or fails between them,
it is answered with the same id and leaves the draft as it is, apart from the journal. -/
theorem declared_again {τ : Type} (script : Script τ) (lenient : Bool) (s : Session τ) :
    (script.calls lenient s).Pairwise fun first later =>
      first.operation.IsDeclaring → later.action = first.action →
        ∀ id, first.answer = .ok (.id id) →
          later.answer = .ok (.id id) ∧
            ∃ events, later.left = { later.draft with journal := events } := by
  refine (linked_calls Precedes.gaps script lenient s).pairwise.imp ?_
  intro first later hprecedes hdeclaring hsame id hanswer
  obtain ⟨e, hrun⟩ := Call.answer_eq_ok_iff.mp hanswer
  have hsettled : Settled first.action (.id id) e :=
    (Repeats.perform first.names hdeclaring).settled hrun
  have he : first.left = e := after_of_ok hrun
  obtain ⟨events, hagain⟩ := hsettled later.draft (he ▸ hprecedes)
  rw [← hsame] at hagain
  exact ⟨Call.answer_eq_ok_iff.mpr ⟨_, hagain⟩, events, after_of_ok hagain⟩

/-- A value of a struct. -/
def halfLight : Constant := .struct "Light" [.float ⟨1056964608⟩]

/-- A struct and, in a loop, a value of it; a failure; and the struct and the value again. -/
def lightAgain : Script Unit :=
  .command ⟨(), none, false⟩ (.registerStruct ⟨"Light", [("power", .float)]⟩) <|
  .defineFunction ⟨(), none, false⟩ none none []
    (.countedLoop ⟨(), none, false⟩ 3
      (.command ⟨(), none, false⟩ (.constant halfLight) .done) <|
    .command ⟨(), none, false⟩ .returnVoid .done) <|
  .command ⟨(), none, true⟩ (.structPointer "Lamp" 2) <|
  .command ⟨(), none, false⟩ (.registerStruct ⟨"Light", [("power", .float)]⟩) <|
  .command ⟨(), none, false⟩ (.constant halfLight) .done

/-- The value that was declared in the loop is declared again at the end of the run. -/
theorem declared_again_lightAgain :
    ∃ first later : Call, (lightAgain.calls false {})[1]? = some first ∧
      (lightAgain.calls false {})[5]? = some later ∧
      first.operation = .constant halfLight ∧ later.operation = .constant halfLight ∧
      first.answer = .ok (.id ⟨22⟩) ∧ later.answer = .ok (.id ⟨22⟩) ∧
      ∃ events, later.left = { later.draft with journal := events } := by
  have hops : (lightAgain.calls false {}).map Call.operation = lightAgain.commands :=
    (lightAgain.operations_sublist false {}).eq_of_length (by decide +kernel)
  have hfirst : (lightAgain.calls false {})[1]?.map Call.answer = some (.ok (.id ⟨22⟩)) := by
    decide +kernel
  have hlater : (lightAgain.calls false {})[5]?.map Call.operation
      = some (.constant halfLight) := by
    rw [← List.getElem?_map, hops]
    rfl
  obtain ⟨first, hcall, hanswer⟩ := Option.map_eq_some_iff.mp hfirst
  obtain ⟨later, hcall', hop'⟩ := Option.map_eq_some_iff.mp hlater
  have hop : first.operation = .constant halfLight := by
    have hget : lightAgain.commands[1]? = some first.operation := by
      rw [← hops, List.getElem?_map, hcall]
      rfl
    exact (Option.some.inj hget).symm
  obtain ⟨hi, hget⟩ := List.getElem?_eq_some_iff.mp hcall
  obtain ⟨hj, hget'⟩ := List.getElem?_eq_some_iff.mp hcall'
  have hpairwise := List.pairwise_iff_getElem.mp (declared_again lightAgain false {}) 1 5 hi hj
    (by decide)
  rw [hget, hget', hop] at hpairwise
  have hsame : later.action = first.action := by
    rw [Call.action, Call.action, hop, hop']
    rfl
  exact ⟨first, later, hcall, hcall', hop, hop', hanswer, hpairwise trivial hsame _ hanswer⟩

end SpirvBinary
