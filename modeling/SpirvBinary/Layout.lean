import SpirvBinary.Instruction
import SpirvBinary.Section

/-!
# The layout of a module under construction

A layout holds the instructions written so far, each with the section it was
written to.  Instructions are only ever added, and only those that fit their
length field, so that the words of a section are the encodings of its
instructions one after the other.

## Main definitions

* `Layout.append` — adds an instruction to a section.
* `Layout.instructions`, `Layout.sectionWords` — what a section holds.
* `Layout.words` — the words of all sections in module order.
-/

namespace SpirvBinary

theorem Layout.fits_nil : ∀ entry ∈ ([] : List (Section × Instruction)), entry.2.Fits :=
  List.forall_mem_nil _

/-- The instructions written so far. -/
structure Layout where
  /-- Instructions with their sections, the newest first. -/
  newest : List (Section × Instruction) := []
  /-- Each of them fits its length field. -/
  fits : ∀ entry ∈ newest, entry.2.Fits := by exact Layout.fits_nil

namespace Layout

instance : Inhabited Layout := ⟨{}⟩

/-- Two layouts with the same instructions are the same. -/
theorem ext {layout layout' : Layout} (h : layout.newest = layout'.newest) :
    layout = layout' := by
  cases layout
  cases layout'
  cases h
  rfl

/-- The instructions of all sections in the order in which they were written. -/
def entries (layout : Layout) : List (Section × Instruction) := layout.newest.reverse

/-- Adds the instruction `inst`, which fits, to the section `s`. -/
def add (layout : Layout) (s : Section) (inst : Instruction) (h : inst.Fits) : Layout where
  newest := (s, inst) :: layout.newest
  fits := List.forall_mem_cons.mpr ⟨h, layout.fits⟩

/-- Adds the instruction `inst` to the section `s`, unless it is too long. -/
def append (layout : Layout) (s : Section) (inst : Instruction) : Except Fault Layout :=
  if h : inst.Fits then .ok (layout.add s inst h)
  else .error (.tooLong inst.opcode inst.wordCount)

/-- The instructions of the section `s` in order. -/
def instructions (layout : Layout) (s : Section) : List Instruction :=
  (layout.entries.filter fun entry => entry.1 = s).map Prod.snd

/-- The words of the section `s`. -/
def sectionWords (layout : Layout) (s : Section) : List Word :=
  (layout.instructions s).flatMap Instruction.encoding

/-- The words of all sections in module order. -/
def words (layout : Layout) : List Word := Section.all.flatMap layout.sectionWords

/-- The number of words in all sections together. -/
def wordCount (layout : Layout) : Nat :=
  layout.newest.foldl (fun total entry => total + entry.2.wordCount) 0

/-! ### What adding an instruction does -/

variable (layout : Layout) (s : Section) {inst : Instruction}

theorem fits_of_mem {entry : Section × Instruction} (h : entry ∈ layout.entries) :
    entry.2.Fits :=
  layout.fits entry (List.mem_reverse.mp h)

/-- All instructions of the section `s` fit. -/
theorem fits_of_mem_instructions {s : Section} (h : inst ∈ layout.instructions s) :
    inst.Fits := by
  obtain ⟨entry, hentry, rfl⟩ := List.mem_map.mp h
  exact layout.fits_of_mem (List.mem_filter.mp hentry).1

@[simp] theorem newest_add (h : inst.Fits) :
    (layout.add s inst h).newest = (s, inst) :: layout.newest := rfl

/-- By `add` an instruction comes after all others. -/
@[simp] theorem entries_add (h : inst.Fits) :
    (layout.add s inst h).entries = layout.entries ++ [(s, inst)] :=
  List.reverse_cons

@[simp] theorem instructions_add_self (h : inst.Fits) :
    (layout.add s inst h).instructions s = layout.instructions s ++ [inst] := by
  simp [instructions]

/-- A section `s'` other than `s` stays as it is. -/
theorem instructions_add_of_ne {s s' : Section} (hs : s ≠ s') (h : inst.Fits) :
    (layout.add s inst h).instructions s' = layout.instructions s' := by
  simp [instructions, hs]

@[simp] theorem sectionWords_add_self (h : inst.Fits) :
    (layout.add s inst h).sectionWords s = layout.sectionWords s ++ inst.encoding := by
  simp [sectionWords]

theorem sectionWords_add_of_ne {s s' : Section} (hs : s ≠ s') (h : inst.Fits) :
    (layout.add s inst h).sectionWords s' = layout.sectionWords s' := by
  rw [sectionWords, instructions_add_of_ne layout hs h, sectionWords]

theorem append_of_fits (h : inst.Fits) : layout.append s inst = .ok (layout.add s inst h) :=
  dif_pos h

theorem append_of_not_fits (h : ¬ inst.Fits) :
    layout.append s inst = .error (.tooLong inst.opcode inst.wordCount) :=
  dif_neg h

/-- An instruction that `append` adds is the last entry, and its encoding follows the words of
its section `s`. -/
theorem entries_append {layout after : Layout} {s : Section}
    (h : layout.append s inst = .ok after) :
    after.entries = layout.entries ++ [(s, inst)] ∧
      ∀ s', after.sectionWords s'
        = layout.sectionWords s' ++ if s = s' then inst.encoding else [] := by
  by_cases hfits : inst.Fits
  · rw [append_of_fits layout s hfits] at h
    cases h
    refine ⟨entries_add layout s hfits, fun s' => ?_⟩
    by_cases hs : s = s'
    · subst hs
      rw [if_pos rfl, sectionWords_add_self]
    · rw [if_neg hs, List.append_nil, sectionWords_add_of_ne layout hs hfits]
  · rw [append_of_not_fits layout s hfits] at h
    cases h

/-- What `append` does to a section is what `encodeAfter` does to its words. -/
theorem encodeAfter_sectionWords (inst : Instruction) :
    inst.encodeAfter (layout.sectionWords s) =
      match layout.append s inst with
      | .ok after => (after.sectionWords s, none)
      | .error fault => (layout.sectionWords s, some fault) := by
  by_cases h : inst.Fits
  · rw [append_of_fits layout s h, Instruction.encodeAfter, Instruction.encode, if_pos h]
    simp
  · rw [append_of_not_fits layout s h, Instruction.encodeAfter, Instruction.encode, if_neg h]

end Layout

end SpirvBinary
