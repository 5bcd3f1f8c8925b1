import Mathlib.Data.List.TakeWhile
import SpirvBinary.Proofs.Lowering

/-!
# Histories of nested functions

Functions are opened and closed like brackets, and what is staged goes to the innermost one
that is open.  A *history* lists what has happened to the open functions of a draft, event by
event and the newest first, and leaves out whatever does not touch them.  From a history
alone one can tell which functions are open, what each of them has been given while it was
the innermost one, and what has been written when functions were closed.

A function is known by the place of its opening in the history.  Ids would not do, because
they start over when all of them have been handed out.

What the events of a history do is given by a `Scheme`, so that one can look at single calls
as well as at whole beginnings and ends of functions.

## Main definitions

* `Writes` — instructions are written up to the first that is too long.
* `Nesting`, `Scheme` — what events do to the functions that are open.
* `Scheme.openings`, `Scheme.share` — what a history says: the functions that are open, and
  what one of them has been given.
* `Scheme.closed`, `Scheme.written` — the functions that have been closed, in order, and what
  has been written of them.
* `History` — the events that lead from one draft to another.
* `Scheme.Reflects` — a draft is as a history says.

## Main results

* `closeFunction_writes`, `flushFunction_writes` — what becomes of a function's instructions.
* `Scheme.closed_append_openings_perm` — what has been opened has been closed or is open.
* `Scheme.Reflects.step` — events keep drafts and histories in accord.
* `History.reflects` — a draft is as any history that leads to it says.
-/

namespace SpirvBinary

/-- The function definitions of a draft, in the order in which they were written. -/
def Draft.definitions (d : Draft) : List Instruction := d.layout.instructions .functionDefinitions

/-! ### Writing the instructions of functions -/

/-- The instructions `insts` either fit all, or there is a first one that does not. -/
theorem Instruction.all_fit_or_first (insts : List Instruction) :
    (∀ inst ∈ insts, inst.Fits) ∨
      ∃ kept inst rest, insts = kept ++ inst :: rest ∧ (∀ other ∈ kept, other.Fits) ∧
        ¬ inst.Fits := by
  induction insts with
  | nil => exact .inl fun _ h => nomatch h
  | cons first insts ih =>
    by_cases hfirst : first.Fits
    · rcases ih with h | ⟨kept, inst, rest, rfl, hkept, hinst⟩
      · exact .inl (List.forall_mem_cons.mpr ⟨hfirst, h⟩)
      · exact .inr ⟨first :: kept, inst, rest, rfl, List.forall_mem_cons.mpr ⟨hfirst, hkept⟩, hinst⟩
    · exact .inr ⟨[], first, insts, rfl, by simp, hfirst⟩

/-- Instructions that are added to a section `s` are added to no other section `s'`. -/
theorem Layout.instructions_addAll (layout : Layout) (s s' : Section) (insts : List Instruction)
    (h : ∀ inst ∈ insts, inst.Fits) :
    (layout.addAll s insts h).instructions s'
      = layout.instructions s' ++ if s = s' then insts else [] := by
  rw [Layout.instructions_added rfl, List.reverse_reverse]
  congr 1
  by_cases h : s = s'
  · rw [if_pos h, List.filter_eq_self.mpr (by simp [h]), List.map_map]
    exact List.map_id _
  · rw [if_neg h, List.filter_eq_nil_iff.mpr (by simp [h]), List.map_nil]

/-- Carried out on the draft `d`, the computation `x` writes `insts` to the function definitions up
to the first that is too long, touches nothing else of the module, and leaves `e`.  It fails
exactly when there is such an instruction, and reports it. -/
structure Writes (insts : List Instruction) (x : Build Unit) (d e : Draft) : Prop where
  definitions : e.definitions = d.definitions ++ insts.takeWhile fun inst => inst.Fits
  elsewhere : ∀ s, s ≠ .functionDefinitions → e.layout.instructions s = d.layout.instructions s
  known : e.known = d.known
  ids : e.ids = d.ids
  ok : (∀ inst ∈ insts, inst.Fits) → x d = .ok () e
  error : ∀ kept inst rest, insts = kept ++ inst :: rest → (∀ other ∈ kept, other.Fits) →
    ¬ inst.Fits → x d = .error (.tooLong inst.opcode inst.wordCount) e

namespace Writes

variable {insts : List Instruction} {x y : Build Unit} {d d' e : Draft}

theorem after_eq (h : Writes insts x d e) : after x d = e := by
  rcases Instruction.all_fit_or_first insts with hfits | ⟨kept, inst, rest, heq, hkept, hinst⟩
  · exact after_of_ok (h.ok hfits)
  · exact after_of_error (h.error kept inst rest heq hkept hinst)

/-- When the writing succeeds, all of `insts` fit. -/
theorem fits_of_ok (h : Writes insts x d e) {f : Draft} (hrun : x d = .ok () f) :
    ∀ inst ∈ insts, inst.Fits := by
  rcases Instruction.all_fit_or_first insts with hfits | ⟨kept, inst, rest, heq, hkept, hinst⟩
  · exact hfits
  · rw [h.error kept inst rest heq hkept hinst] at hrun
    cases hrun

/-- What comes before the writing, from `d` to `d'`, may change open functions and the journal. -/
theorem of_run (h : Writes insts y d' e) (hrun : x d = y d') (hlayout : d'.layout = d.layout)
    (hknown : d'.known = d.known) (hids : d'.ids = d.ids) : Writes insts x d e where
  definitions := by rw [h.definitions, Draft.definitions, hlayout]; rfl
  elsewhere := fun s hs => by rw [h.elsewhere s hs, hlayout]
  known := h.known.trans hknown
  ids := h.ids.trans hids
  ok := fun hfits => hrun.trans (h.ok hfits)
  error := fun kept inst rest heq hkept hinst => hrun.trans (h.error kept inst rest heq hkept hinst)

end Writes

/-- The instructions of `insts` before the first that is too long all fit. -/
theorem Instruction.fits_of_mem_takeWhile {insts : List Instruction} {inst : Instruction}
    (h : inst ∈ insts.takeWhile fun inst => inst.Fits) : inst.Fits := by
  simpa using List.mem_takeWhile_imp h

theorem emitAll_writes (insts : List Instruction) (d : Draft) :
    Writes insts (Build.emitAll .functionDefinitions insts) d
      { d with
        layout := d.layout.addAll .functionDefinitions (insts.takeWhile fun inst => inst.Fits)
          fun _ => Instruction.fits_of_mem_takeWhile } where
  definitions := by
    have h := d.layout.instructions_addAll .functionDefinitions .functionDefinitions
      (insts.takeWhile fun inst => inst.Fits) fun _ => Instruction.fits_of_mem_takeWhile
    rwa [if_pos rfl] at h
  elsewhere := by
    intro s hs
    have h := d.layout.instructions_addAll .functionDefinitions s
      (insts.takeWhile fun inst => inst.Fits) fun _ => Instruction.fits_of_mem_takeWhile
    rwa [if_neg hs.symm, List.append_nil] at h
  known := rfl
  ids := rfl
  ok := by
    intro hfits
    have hall : insts.takeWhile (fun inst => inst.Fits) = insts :=
      List.takeWhile_eq_self_iff.mpr (by simpa using hfits)
    simp only [hall]
    exact Build.emitAll_of_fits hfits _ d
  error := by
    rintro kept inst rest rfl hkept hinst
    have hcut : (kept ++ inst :: rest).takeWhile (fun inst => inst.Fits) = kept := by
      rw [List.takeWhile_append_of_pos (by simpa using hkept),
        List.takeWhile_cons_of_neg (by simpa using hinst), List.append_nil]
    simp only [hcut]
    exact Build.emitAll_of_not_fits hkept hinst rest _ d

/-- Closing the `innermost` function writes its instructions up to the first that is too long, and
closes it in any case. -/
theorem closeFunction_writes {d : Draft} {innermost : StagedFunction}
    {outer : List StagedFunction} (hopen : d.openFunctions = innermost :: outer) :
    ∃ e, Writes innermost.instructions Build.closeFunction d e ∧ e.openFunctions = outer := by
  exact ⟨_, (emitAll_writes innermost.instructions _).of_run
    (Build.closeFunction_of_open hopen) rfl rfl rfl, rfl⟩

/-- Flushing the `innermost` function writes the same, and leaves it open with nothing staged. -/
theorem flushFunction_writes {d : Draft} {innermost : StagedFunction}
    {outer : List StagedFunction} (hopen : d.openFunctions = innermost :: outer) :
    ∃ e, Writes innermost.instructions Build.flushFunction d e ∧
      e.openFunctions = {} :: outer := by
  exact ⟨_, (emitAll_writes innermost.instructions _).of_run
    (Build.flushFunction_of_open hopen) rfl rfl rfl, rfl⟩

/-! ### Schemes -/

/-- What an event does to the functions that are open.  Functions are described by `β`. -/
inductive Nesting (β : Type) where
  /-- A function is opened. -/
  | opening (function : β)
  /-- Instructions are added to the head and the body of the innermost function. -/
  | inner (head body : List Instruction)
  /-- The innermost function is closed. -/
  | closing

namespace Nesting

variable {β : Type}

/-- What is added to the head of a function. -/
def head : Nesting β → List Instruction
  | .inner head _ => head
  | _ => []

/-- What is added to the body of a function. -/
def body : Nesting β → List Instruction
  | .inner _ body => body
  | _ => []

end Nesting

/-- A function with what it has been given. -/
structure Content (β : Type) where
  function : β
  head : List Instruction
  body : List Instruction

/-- What the events `ε` of a history do to functions that are described by `β`. -/
structure Scheme (ε β : Type) where
  kind : ε → Nesting β
  /-- What the head of a function starts with. -/
  prologue : β → List Instruction
  /-- What is added to the body of a function when it is closed. -/
  epilogue : List Instruction

namespace Scheme

variable {ε β : Type} (S : Scheme ε β)

/-! ### What a history says -/

/-- The functions that are open after a history, the innermost first, each with its place: the
number of events before its opening. -/
def openings : List ε → List (Nat × β)
  | [] => []
  | event :: past =>
      match S.kind event with
      | .opening function => (past.length, function) :: openings past
      | .inner .. => openings past
      | .closing => (openings past).tail

/-- The place of the innermost function after the events `past`, as in `openings`. -/
def innermost (past : List ε) : Option Nat := (S.openings past).head?.map Prod.fst

/-- What the function opened at `place` has been given while it was the innermost one, in order: of
each event the `part` that is asked for, which is `Nesting.head` or `Nesting.body`. -/
def share (part : Nesting β → List Instruction) (place : Nat) : List ε → List Instruction
  | [] => []
  | event :: past =>
      share part place past ++ if S.innermost past = some place then part (S.kind event) else []

/-- The function `opened`, given by its place and its description, with what it has been given by
the events `past`. -/
def content (opened : Nat × β) (past : List ε) : Content β :=
  ⟨opened.2, S.share Nesting.head opened.1 past, S.share Nesting.body opened.1 past⟩

/-- The instructions of a function before it is closed, head first. -/
def instructions (content : Content β) : List Instruction :=
  S.prologue content.function ++ content.head ++ content.body

/-- What is written of `insts` when their function is closed: all of them and the epilogue, up to
the first that is too long. -/
def cut (insts : List Instruction) : List Instruction :=
  (insts ++ S.epilogue).takeWhile fun inst => inst.Fits

/-- The functions that have been closed, in the order in which they were. -/
def closed : List ε → List (Content β)
  | [] => []
  | event :: past => closed past ++
      match S.kind event, S.openings past with
      | .closing, opened :: _ => [S.content opened past]
      | _, _ => []

/-- What has been written by the events `past`, function by function. -/
def written (past : List ε) : List Instruction :=
  (S.closed past).flatMap fun content => S.cut (S.instructions content)

/-- The functions that have been opened by the events `past`, the newest first. -/
def opened (past : List ε) : List β :=
  past.filterMap fun event =>
    match S.kind event with
    | .opening function => some function
    | _ => none

section Openings

variable {S} {event : ε} {past : List ε}

theorem openings_of_opening {function : β} (h : S.kind event = .opening function) :
    S.openings (event :: past) = (past.length, function) :: S.openings past := by
  rw [openings, h]

theorem openings_of_inner {head body : List Instruction} (h : S.kind event = .inner head body) :
    S.openings (event :: past) = S.openings past := by
  rw [openings, h]

theorem openings_of_closing (h : S.kind event = .closing) :
    S.openings (event :: past) = (S.openings past).tail := by
  rw [openings, h]

/-- A function that is open was opened before. -/
theorem lt_of_mem_openings {opened : Nat × β} (h : opened ∈ S.openings past) :
    opened.1 < past.length := by
  induction past with
  | nil => cases h
  | cons event past ih =>
    rw [List.length_cons]
    cases hkind : S.kind event with
    | opening function =>
      rw [openings_of_opening hkind] at h
      rcases List.mem_cons.mp h with rfl | h
      · exact Nat.lt_succ_self _
      · exact Nat.lt_succ_of_lt (ih h)
    | inner head body =>
      rw [openings_of_inner hkind] at h
      exact Nat.lt_succ_of_lt (ih h)
    | closing =>
      rw [openings_of_closing hkind] at h
      exact Nat.lt_succ_of_lt (ih (List.mem_of_mem_tail h))

/-- A function that is open was opened by an event of `past`. -/
theorem exists_of_mem_openings {opened : Nat × β} (h : opened ∈ S.openings past) :
    ∃ event ∈ past, S.kind event = .opening opened.2 := by
  induction past with
  | nil => cases h
  | cons event past ih =>
    have hpast : opened ∈ S.openings past →
        ∃ other ∈ event :: past, S.kind other = .opening opened.2 := by
      intro h
      obtain ⟨other, hother, hkind⟩ := ih h
      exact ⟨other, List.mem_cons_of_mem _ hother, hkind⟩
    cases hkind : S.kind event with
    | opening function =>
      rw [openings_of_opening hkind] at h
      rcases List.mem_cons.mp h with rfl | h
      · exact ⟨event, List.mem_cons_self, hkind⟩
      · exact hpast h
    | inner head body =>
      rw [openings_of_inner hkind] at h
      exact hpast h
    | closing =>
      rw [openings_of_closing hkind] at h
      exact hpast (List.mem_of_mem_tail h)

/-- Outer functions have a smaller place than inner ones. -/
theorem openings_pairwise (past : List ε) :
    (S.openings past).Pairwise fun inner outer => outer.1 < inner.1 := by
  induction past with
  | nil => exact .nil
  | cons event past ih =>
    cases hkind : S.kind event with
    | opening function =>
      rw [openings_of_opening hkind]
      exact .cons (fun _ h => lt_of_mem_openings h) ih
    | inner head body => rwa [openings_of_inner hkind]
    | closing =>
      rw [openings_of_closing hkind]
      exact ih.tail

theorem innermost_of_cons {opened : Nat × β} {outer : List (Nat × β)}
    (h : S.openings past = opened :: outer) : S.innermost past = some opened.1 := by
  rw [innermost, h]
  rfl

end Openings

section Shares

variable {S} {event : ε} {past : List ε} {part : Nesting β → List Instruction} {place : Nat}

theorem share_of_innermost (h : S.innermost past = some place) :
    S.share part place (event :: past) = S.share part place past ++ part (S.kind event) := by
  rw [share, if_pos h]

theorem share_of_not_innermost (h : S.innermost past ≠ some place) :
    S.share part place (event :: past) = S.share part place past := by
  rw [share, if_neg h, List.append_nil]

theorem share_of_nil (h : part (S.kind event) = []) :
    S.share part place (event :: past) = S.share part place past := by
  rw [share, h, ite_self, List.append_nil]

/-- A function that is opened at a `place` after all events of `past` has been given nothing. -/
theorem share_eq_nil (h : past.length ≤ place) : S.share part place past = [] := by
  induction past with
  | nil => rfl
  | cons event past ih =>
    rw [List.length_cons] at h
    rw [share_of_not_innermost, ih (by omega)]
    -- the innermost function has been opened before, so it has a smaller place
    intro hinnermost
    obtain ⟨opened, hopened, rfl⟩ := Option.map_eq_some_iff.mp hinnermost
    have hlt := lt_of_mem_openings (List.mem_of_mem_head? hopened)
    omega

/-- Whatever is in the `share` of a function was given by an event. -/
theorem mem_share {inst : Instruction} (h : inst ∈ S.share part place past) :
    ∃ event ∈ past, inst ∈ part (S.kind event) := by
  induction past with
  | nil => cases h
  | cons event past ih =>
    rcases List.mem_append.mp h with h | h
    · obtain ⟨other, hother, hinst⟩ := ih h
      exact ⟨other, List.mem_cons_of_mem _ hother, hinst⟩
    · split at h
      · exact ⟨event, List.mem_cons_self, h⟩
      · cases h

end Shares

section Closed

variable {S} {event : ε} {past : List ε}

theorem closed_of_opening {function : β} (h : S.kind event = .opening function) :
    S.closed (event :: past) = S.closed past := by
  rw [closed, h]
  exact List.append_nil _

theorem closed_of_inner {head body : List Instruction} (h : S.kind event = .inner head body) :
    S.closed (event :: past) = S.closed past := by
  rw [closed, h]
  exact List.append_nil _

theorem closed_of_closing (h : S.kind event = .closing) :
    S.closed (event :: past) = S.closed past ++
      match S.openings past with
      | opened :: _ => [S.content opened past]
      | [] => [] := by
  rw [closed, h]
  cases S.openings past <;> rfl

/-- A function that has been closed was opened and filled by events. -/
theorem exists_of_mem_closed {content : Content β} (h : content ∈ S.closed past) :
    (∃ event ∈ past, S.kind event = .opening content.function) ∧
      (∀ inst ∈ content.head, ∃ event ∈ past, inst ∈ (S.kind event).head) ∧
      ∀ inst ∈ content.body, ∃ event ∈ past, inst ∈ (S.kind event).body := by
  induction past with
  | nil => cases h
  | cons event past ih =>
    have hlater : ∀ {P : ε → Prop}, (∃ other ∈ past, P other) →
        ∃ other ∈ event :: past, P other := by
      rintro P ⟨other, hother, hP⟩
      exact ⟨other, List.mem_cons_of_mem _ hother, hP⟩
    rcases List.mem_append.mp h with h | h
    · obtain ⟨hopening, hhead, hbody⟩ := ih h
      exact ⟨hlater hopening, fun inst hinst => hlater (hhead inst hinst),
        fun inst hinst => hlater (hbody inst hinst)⟩
    · split at h
      · next opened outer _ hopened =>
        rw [List.mem_singleton] at h
        subst h
        have hmem : opened ∈ S.openings past := by rw [hopened]; exact List.mem_cons_self
        exact ⟨hlater (exists_of_mem_openings hmem), fun inst hinst => hlater (mem_share hinst),
          fun inst hinst => hlater (mem_share hinst)⟩
      · cases h

/-- Every function that has been `opened` has been closed or is open, once. -/
theorem closed_append_openings_perm (past : List ε) :
    ((S.closed past).map Content.function ++ (S.openings past).map Prod.snd).Perm
      (S.opened past) := by
  induction past with
  | nil => exact .refl _
  | cons event past ih =>
    -- an opening adds to both sides, a closing moves a function from one part to the other
    cases hkind : S.kind event with
    | opening function =>
      have hopened : S.opened (event :: past) = function :: S.opened past := by
        rw [opened, List.filterMap_cons, hkind]
        rfl
      rw [closed_of_opening hkind, openings_of_opening hkind, hopened]
      exact List.perm_middle.trans (ih.cons function)
    | inner head body =>
      have hopened : S.opened (event :: past) = S.opened past := by
        rw [opened, List.filterMap_cons, hkind]
        rfl
      rwa [closed_of_inner hkind, openings_of_inner hkind, hopened]
    | closing =>
      have hopened : S.opened (event :: past) = S.opened past := by
        rw [opened, List.filterMap_cons, hkind]
        rfl
      rw [closed_of_closing hkind, openings_of_closing hkind, hopened]
      cases hopenings : S.openings past with
      | nil =>
        rw [hopenings] at ih
        simpa using ih
      | cons innermost outer =>
        rw [hopenings] at ih
        rw [List.map_append, List.append_assoc]
        exact ih

end Closed

section Brackets

/-! What is only staged can be left out of a history: the functions that are open, those that
have been closed and those that have been opened are still the same, in the same order. -/

variable {S} {p : ε → Bool}
  (hp : ∀ event, p event = false → ∃ head body, S.kind event = .inner head body)

include hp

theorem openings_filter (past : List ε) :
    (S.openings (past.filter p)).map Prod.snd = (S.openings past).map Prod.snd := by
  induction past with
  | nil => rfl
  | cons event past ih =>
    cases hevent : p event with
    | false =>
      obtain ⟨head, body, hkind⟩ := hp event hevent
      rw [List.filter_cons_of_neg (by simp [hevent]), openings_of_inner hkind, ih]
    | true =>
      rw [List.filter_cons_of_pos hevent]
      cases hkind : S.kind event with
      | opening function =>
        rw [openings_of_opening hkind, openings_of_opening hkind, List.map_cons, List.map_cons, ih]
      | inner head body => rw [openings_of_inner hkind, openings_of_inner hkind, ih]
      | closing =>
        rw [openings_of_closing hkind, openings_of_closing hkind, List.map_tail, ih,
          List.map_tail]

theorem closed_filter (past : List ε) :
    (S.closed (past.filter p)).map Content.function = (S.closed past).map Content.function := by
  induction past with
  | nil => rfl
  | cons event past ih =>
    cases hevent : p event with
    | false =>
      obtain ⟨head, body, hkind⟩ := hp event hevent
      rw [List.filter_cons_of_neg (by simp [hevent]), closed_of_inner hkind, ih]
    | true =>
      rw [List.filter_cons_of_pos hevent]
      cases hkind : S.kind event with
      | opening function => rw [closed_of_opening hkind, closed_of_opening hkind, ih]
      | inner head body => rw [closed_of_inner hkind, closed_of_inner hkind, ih]
      | closing =>
        -- the innermost open function is the same one, though it may have another place
        have hopenings := openings_filter hp past
        rw [closed_of_closing hkind, closed_of_closing hkind, List.map_append, List.map_append, ih]
        congr 1
        cases hfiltered : S.openings (past.filter p) with
        | nil =>
          rw [hfiltered, List.map_nil] at hopenings
          rw [List.map_eq_nil_iff.mp hopenings.symm]
        | cons opened outer =>
          rw [hfiltered, List.map_cons] at hopenings
          obtain ⟨opened', outer', hpast, hsame, -⟩ := List.map_eq_cons_iff.mp hopenings.symm
          rw [hpast]
          exact congrArg (fun function => [function]) hsame.symm

theorem opened_filter (past : List ε) : S.opened (past.filter p) = S.opened past := by
  rw [opened, opened, List.filterMap_filter]
  refine List.filterMap_congr fun event _ => ?_
  cases hevent : p event with
  | false =>
    obtain ⟨head, body, hkind⟩ := hp event hevent
    rw [hkind]
    rfl
  | true => rfl

end Brackets

/-! ### Drafts and histories -/

/-- What `event` does to the draft `d`, according to the scheme. -/
def Step (d : Draft) (event : ε) (e : Draft) : Prop :=
  match S.kind event with
  | .opening function =>
      e.openFunctions = .stage (S.prologue function) [] {} :: d.openFunctions ∧
        e.definitions = d.definitions
  | .inner head body =>
      e.openFunctions = d.openFunctions.modifyHead (·.stage head body) ∧
        e.definitions = d.definitions
  | .closing =>
      e.openFunctions = d.openFunctions.tail ∧
        e.definitions = d.definitions ++
          match d.openFunctions with
          | innermost :: _ => S.cut innermost.instructions
          | [] => []

/-- The open `function` has staged what the events `past` have given to the one that was
`opened`. -/
def Agrees (past : List ε) (opened : Nat × β) (function : StagedFunction) : Prop :=
  function.head = S.prologue opened.2 ++ S.share Nesting.head opened.1 past ∧
    function.body = S.share Nesting.body opened.1 past

/-- The open functions and the function definitions of the draft `d` are as the events `past`
say. -/
structure Reflects (past : List ε) (d : Draft) : Prop where
  functions : List.Forall₂ (S.Agrees past) (S.openings past) d.openFunctions
  definitions : d.definitions = S.written past

end Scheme

/-- Staging changes the innermost function, if there is one, and nothing else. -/
theorem after_updateFunction (f : StagedFunction → StagedFunction) (d : Draft) :
    after (Build.updateFunction f) d
      = { d with openFunctions := d.openFunctions.modifyHead f } := by
  cases h : d.openFunctions with
  | nil =>
    rw [after_of_error (Build.updateFunction_of_closed h f), List.modifyHead_nil, ← h]
  | cons innermost outer =>
    rw [after_of_ok (Build.updateFunction_of_open h f)]
    rfl

theorem StagedFunction.head_stage (head body : List Instruction) (function : StagedFunction) :
    (function.stage head body).head = function.head ++ head := by
  simp [StagedFunction.stage, StagedFunction.head]

theorem StagedFunction.body_stage (head body : List Instruction) (function : StagedFunction) :
    (function.stage head body).body = function.body ++ body := by
  simp [StagedFunction.stage, StagedFunction.body]

/-- Declarations and names leave the open functions as they are. -/
theorem Stages.openFunctions_eq {d e : Draft} (h : Stages [] [] d e) :
    e.openFunctions = d.openFunctions := by
  rw [h.functions]
  cases d.openFunctions <;> rfl

namespace Scheme

variable {ε β : Type} {S : Scheme ε β} {event : ε} {past : List ε} {d e : Draft}

theorem Agrees.instructions {opened : Nat × β} {function : StagedFunction}
    (h : S.Agrees past opened function) :
    function.instructions = S.instructions (S.content opened past) := by
  rw [StagedFunction.instructions, h.1, h.2]
  rfl

/-- An `event` that gives nothing to a function leaves its share as it is. -/
theorem Agrees.cons_of_nil (hhead : (S.kind event).head = []) (hbody : (S.kind event).body = [])
    {opened : Nat × β} {function : StagedFunction} (h : S.Agrees past opened function) :
    S.Agrees (event :: past) opened function := by
  rw [Agrees, share_of_nil hhead, share_of_nil hbody]
  exact h

/-- An event that happens while a function other than `opened` is the innermost one does so,
too. -/
theorem Agrees.cons_of_ne {opened : Nat × β} (hne : S.innermost past ≠ some opened.1)
    {function : StagedFunction} (h : S.Agrees past opened function) :
    S.Agrees (event :: past) opened function := by
  rw [Agrees, share_of_not_innermost hne, share_of_not_innermost hne]
  exact h

namespace Reflects

/-- What stages nothing does not count as an event. -/
theorem aside (h : S.Reflects past d) (hde : Stages [] [] d e) : S.Reflects past e := by
  refine ⟨?_, hde.toDeclares.functionDefinitions.trans h.definitions⟩
  rw [hde.openFunctions_eq]
  exact h.functions

theorem opening (h : S.Reflects past d) {function : β} (hkind : S.kind event = .opening function)
    (hopen : e.openFunctions = .stage (S.prologue function) [] {} :: d.openFunctions)
    (hdefinitions : e.definitions = d.definitions) : S.Reflects (event :: past) e := by
  have hhead : (S.kind event).head = [] := by rw [hkind]; rfl
  have hbody : (S.kind event).body = [] := by rw [hkind]; rfl
  refine ⟨?_, ?_⟩
  · rw [hopen, openings_of_opening hkind]
    -- the place of the new function is the length of the history, so it has no share yet
    refine .cons ⟨?_, ?_⟩ (h.functions.imp fun _ _ => Agrees.cons_of_nil hhead hbody)
    · rw [share_of_nil hhead, share_eq_nil (Nat.le_refl _), List.append_nil,
        StagedFunction.head_stage]
      rfl
    · rw [share_of_nil hbody, share_eq_nil (Nat.le_refl _), StagedFunction.body_stage]
      rfl
  · rw [hdefinitions, h.definitions, written, written, closed_of_opening hkind]

theorem inner (h : S.Reflects past d) {head body : List Instruction}
    (hkind : S.kind event = .inner head body)
    (hopen : e.openFunctions = d.openFunctions.modifyHead (·.stage head body))
    (hdefinitions : e.definitions = d.definitions) : S.Reflects (event :: past) e := by
  refine ⟨?_, by rw [hdefinitions, h.definitions, written, written, closed_of_inner hkind]⟩
  rw [hopen, openings_of_inner hkind]
  have hfunctions := h.functions
  have hpairwise := S.openings_pairwise past
  cases hopened : S.openings past with
  | nil =>
    rw [hopened, List.forall₂_nil_left_iff] at hfunctions
    rw [hfunctions]
    exact .nil
  | cons opened outer =>
    have hinnermost := innermost_of_cons hopened
    rw [hopened] at hfunctions hpairwise
    obtain ⟨function, functions, hfunction, houter, heq⟩ := List.forall₂_cons_left_iff.mp hfunctions
    rw [heq]
    refine .cons ⟨?_, ?_⟩ ?_
    · rw [StagedFunction.head_stage, hfunction.1, share_of_innermost hinnermost, hkind,
        List.append_assoc]
      rfl
    · rw [StagedFunction.body_stage, hfunction.2, share_of_innermost hinnermost, hkind]
      rfl
    · -- the functions around the innermost one were opened before it
      have hlt := (List.pairwise_cons.mp hpairwise).1
      refine ((List.forall₂_and_left (p := fun other => other.1 < opened.1) _ _).mpr
        ⟨hlt, houter⟩).imp fun other _ hother => ?_
      refine hother.2.cons_of_ne fun heq => ?_
      have hplace := Option.some.inj (hinnermost.symm.trans heq)
      have := hother.1
      omega

theorem closing (h : S.Reflects past d) (hkind : S.kind event = .closing)
    (hopen : e.openFunctions = d.openFunctions.tail)
    (hdefinitions : e.definitions = d.definitions ++
      match d.openFunctions with
      | innermost :: _ => S.cut innermost.instructions
      | [] => []) : S.Reflects (event :: past) e := by
  have hhead : (S.kind event).head = [] := by rw [hkind]; rfl
  have hbody : (S.kind event).body = [] := by rw [hkind]; rfl
  have hfunctions := h.functions
  have hagrees : List.Forall₂ (S.Agrees (event :: past)) (S.openings past) d.openFunctions :=
    hfunctions.imp fun _ _ => Agrees.cons_of_nil hhead hbody
  refine ⟨?_, ?_⟩
  · rw [hopen, openings_of_closing hkind, ← List.drop_one, ← List.drop_one]
    exact List.forall₂_drop 1 hagrees
  · rw [hdefinitions, h.definitions, written, written, closed_of_closing hkind,
      List.flatMap_append]
    cases hopened : S.openings past with
    | nil =>
      rw [hopened, List.forall₂_nil_left_iff] at hfunctions
      rw [hfunctions, List.flatMap_nil]
    | cons opened outer =>
      rw [hopened] at hfunctions
      obtain ⟨function, functions, hfunction, -, heq⟩ := List.forall₂_cons_left_iff.mp hfunctions
      rw [heq, List.flatMap_singleton, ← hfunction.instructions]

/-- An `event` that is a `Step` keeps draft and history in accord. -/
theorem step (h : S.Reflects past d) (hstep : S.Step d event e) :
    S.Reflects (event :: past) e := by
  unfold Step at hstep
  cases hkind : S.kind event with
  | opening function =>
    rw [hkind] at hstep
    exact h.opening hkind hstep.1 hstep.2
  | inner head body =>
    rw [hkind] at hstep
    exact h.inner hkind hstep.1 hstep.2
  | closing =>
    rw [hkind] at hstep
    exact h.closing hkind hstep.1 hstep.2

end Reflects

end Scheme

/-! ### Histories -/

/-- Events lead from the draft `d` to another, one after the other, each by a `step`.  Between
them, declarations and names may have been written.  The newest event comes first. -/
inductive History {ε : Type} (step : Draft → ε → Draft → Prop) (d : Draft) :
    List ε → Draft → Prop
  | start : History step d [] d
  | aside {past : List ε} {e f : Draft} (history : History step d past e)
      (hef : Stages [] [] e f) : History step d past f
  | event {past : List ε} {e f : Draft} (history : History step d past e) {event : ε}
      (hef : step e event f) : History step d (event :: past) f

/-- Some events lead from `d` to `e`. -/
def Traced {ε : Type} (step : Draft → ε → Draft → Prop) (d e : Draft) : Prop :=
  ∃ past, History step d past e

namespace History

variable {ε : Type} {step : Draft → ε → Draft → Prop} {past past' : List ε} {d e f : Draft}

theorem trans (hde : History step d past e) (hef : History step e past' f) :
    History step d (past' ++ past) f := by
  induction hef with
  | start => exact hde
  | aside _ h ih => exact ih.aside h
  | event _ h ih => exact ih.event h

/-- Events that happen by `step` may happen by `step'` as well. -/
theorem mono {step' : Draft → ε → Draft → Prop} (history : History step d past e)
    (h : ∀ {d event e}, step d event e → step' d event e) : History step' d past e := by
  induction history with
  | start => exact .start
  | aside _ hef ih => exact ih.aside hef
  | event _ hef ih => exact ih.event (h hef)

/-- What holds of all events that can happen by `step` holds of those that have. -/
theorem forall_mem (history : History step d past e) {P : ε → Prop}
    (h : ∀ {d event e}, step d event e → P event) : ∀ event ∈ past, P event := by
  induction history with
  | start => exact fun _ hmem => nomatch hmem
  | aside _ _ ih => exact ih
  | event _ hstep ih => exact List.forall_mem_cons.mpr ⟨h hstep, ih⟩

/-- A draft is as any history that leads to it says, when its events do what the scheme `S`
says. -/
theorem reflects {β : Type} {S : Scheme ε β} (history : History step d past e)
    (hstep : ∀ {d event e}, step d event e → S.Step d event e) (hopen : d.openFunctions = [])
    (hdefinitions : d.definitions = []) : S.Reflects past e := by
  induction history with
  | start =>
    refine ⟨?_, hdefinitions⟩
    rw [hopen]
    exact .nil
  | aside _ h ih => exact ih.aside h
  | event _ h ih => exact ih.step (hstep h)

end History

namespace Traced

variable {ε : Type} {step : Draft → ε → Draft → Prop} {d e f : Draft}

theorem refl (d : Draft) : Traced step d d := ⟨[], .start⟩

theorem trans (hde : Traced step d e) (hef : Traced step e f) : Traced step d f := by
  obtain ⟨past, hpast⟩ := hde
  obtain ⟨past', hpast'⟩ := hef
  exact ⟨past' ++ past, hpast.trans hpast'⟩

theorem of_stages (h : Stages [] [] d e) : Traced step d e := ⟨[], History.start.aside h⟩

theorem of_step (event : ε) (h : step d event e) : Traced step d e :=
  ⟨[event], History.start.event h⟩

theorem bind {α γ : Type} {x : Build α} {k : α → Build γ} (hx : Moves (Traced step) x)
    (hk : ∀ a, Moves (Traced step) (k a)) : Moves (Traced step) (x >>= k) :=
  Moves.bind (R := Traced step) (fun _ _ _ => trans) hx hk

theorem freshId : Moves (Traced step) Build.freshId :=
  fun _ => of_stages (.of_eq rfl (fun _ => rfl) rfl)

theorem emit {s : Section} (hs : s ≠ .functionDefinitions) (inst : Instruction) :
    Moves (Traced step) (Build.emit s inst) := fun d => of_stages (emit_stages hs inst d)

theorem declare (opcode : Opcode) (type : Option Id) (operands : List Word) :
    Moves (Traced step) (Build.declare opcode type operands) :=
  fun d => of_stages (declare_stages opcode type operands d)

/-- Declarations are no events. -/
theorem declarationLaw : DeclarationLaw (Traced step) :=
  .of_declare refl (fun _ _ _ => trans)
    (fun d events => of_stages (stages_declarationLaw.journal d events))
    (fun opcode type operands _ => declare opcode type operands)
    fun name fields members d => of_stages (declareStruct_stages name fields members d)

end Traced

end SpirvBinary
