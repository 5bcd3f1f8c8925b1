import SpirvBinary.Proofs.Machine

/-!
# What a function body means

The meaning of a flow does not mention labels or jumps.  Statements are executed in order, a
selection chooses an arm by the value that its condition has when the selection begins, and a
loop runs its body as often as its count says, with its index holding the number of the round.
Between the rounds a loop may change its own ids and its counter and nothing else.

## Main definitions

* `LoopIds.Rounds` — the rounds of a loop.
* `Flow.Executes` — a flow takes one state, with what happened before it, to another.

## Main results

* `Flow.Executes.frame` — what a flow leaves alone.
-/

namespace SpirvBinary

open Opcode

variable {κ ω : Type}

/-! ### Loops -/

namespace LoopIds

/-- The ids that a loop gives values to. -/
def own (ids : LoopIds) : List Id := [ids.index, ids.inRange, ids.current, ids.next]

theorem own_sublist (ids : LoopIds) :
    ids.own.Sublist (resultsOf ids.opening ++ resultsOf ids.closing) := by
  have hresults : resultsOf ids.opening ++ resultsOf ids.closing
      = [ids.header, ids.check, ids.index, ids.inRange, ids.body, ids.advance, ids.current,
        ids.next, ids.merge] := rfl
  rw [hresults]
  exact .cons _ (.cons _ (.cons_cons _ (.cons_cons _ (.cons _ (.cons _ (.cons_cons _
    (.cons_cons _ (.cons _ .slnil))))))))

/-- From `p` to `q` nothing but the `own` ids of a loop and its counter has changed, and nothing
was recorded. -/
structure KeepsOthers (ids : LoopIds) (p q : Progress κ ω) : Prop where
  value : ∀ id, id ∉ ids.own → q.state.value id = p.state.value id
  cell : ∀ pointer, pointer ≠ ids.counter → q.state.cell pointer = p.state.cell pointer
  world : q.state.world = p.state.world
  trace : q.trace = p.trace

namespace KeepsOthers

variable {ids : LoopIds} {p q r : Progress κ ω}

theorem refl (p : Progress κ ω) : ids.KeepsOthers p p :=
  ⟨fun _ _ => rfl, fun _ _ => rfl, rfl, rfl⟩

theorem trans (hpq : ids.KeepsOthers p q) (hqr : ids.KeepsOthers q r) : ids.KeepsOthers p r where
  value := fun id hid => (hqr.value id hid).trans (hpq.value id hid)
  cell := fun pointer h => (hqr.cell pointer h).trans (hpq.cell pointer h)
  world := hqr.world.trans hpq.world
  trace := hqr.trace.trans hpq.trace

theorem assign (h : ids.KeepsOthers p q) {id : Id} (hid : id ∈ ids.own) (value : Value κ) :
    ids.KeepsOthers p ⟨q.state.assign id value, q.trace⟩ where
  value := fun other hother => by
    have hne : other ≠ id := fun heq => hother (heq ▸ hid)
    exact (State.value_assign_of_ne hne).trans (h.value other hother)
  cell := h.cell
  world := h.world
  trace := h.trace

theorem write (h : ids.KeepsOthers p q) (value : Value κ) :
    ids.KeepsOthers p ⟨q.state.write ids.counter value, q.trace⟩ where
  value := h.value
  cell := fun pointer hne => (State.cell_write_of_ne hne).trans (h.cell pointer hne)
  world := h.world
  trace := h.trace

end KeepsOthers

/-- The rounds of a loop from one with the given number on, as many as are given.  In each round
the index holds the number of the round when `body` begins, and in the end it holds the number of
rounds that there have been. -/
def Rounds (ids : LoopIds) (body : Progress κ ω → Progress κ ω → Prop) :
    Nat → Nat → Progress κ ω → Progress κ ω → Prop
  | round, 0, p, q => ids.KeepsOthers p q ∧ q.state.value ids.index = .int (Int32.ofNat round)
  | round, rounds + 1, p, q => ∃ r u, ids.KeepsOthers p r ∧
      r.state.value ids.index = .int (Int32.ofNat round) ∧ body r u ∧
        ids.Rounds body (round + 1) rounds u q

/-- What a loop does for itself from `p` to `q`, before a round, belongs to the round. -/
theorem Rounds.after {ids : LoopIds} {body : Progress κ ω → Progress κ ω → Prop}
    {round rounds : Nat} {p q r : Progress κ ω} (hpq : ids.KeepsOthers p q)
    (h : ids.Rounds body round rounds q r) : ids.Rounds body round rounds p r := by
  cases rounds with
  | zero => exact ⟨hpq.trans h.1, h.2⟩
  | succ rounds =>
    obtain ⟨u, v, hqu, hindex, hbody, hrest⟩ := h
    exact ⟨u, v, hpq.trans hqu, hindex, hbody, hrest⟩

end LoopIds

/-! ### Flows -/

namespace Flow

/-- The loops of a flow. -/
def loops : Flow → List LoopIds
  | .done => []
  | .instruction _ next => next.loops
  | .localVariable _ next => next.loops
  | .ifThen _ _ _ arm next => arm.loops ++ next.loops
  | .ifThenElse _ _ _ _ first second next => first.loops ++ (second.loops ++ next.loops)
  | .loop ids body next => ids :: (body.loops ++ next.loops)

theorem resultsOf_head_loop (ids : LoopIds) (body next : Flow) :
    resultsOf (Flow.loop ids body next).head
      = ids.counter :: (resultsOf body.head ++ resultsOf next.head) := by
  simp only [head, resultsOf, Instruction.localVariable, Instruction.typed,
    List.filterMap_cons, List.filterMap_append]

/-- A flow leads from one point to another.  The machine `m` only says what each statement does. -/
def Executes (m : Machine κ ω) : Flow → Progress κ ω → Progress κ ω → Prop
  | .done, p, q => q = p
  | .instruction inst next, p, q => next.Executes m (m.observe inst p) q
  | .localVariable _ next, p, q => next.Executes m p q
  | .ifThen condition _ _ arm next, p, q =>
      ∃ r, (if (p.state.value condition).isTrue then arm.Executes m p r else r = p) ∧
        next.Executes m r q
  | .ifThenElse condition _ _ _ first second next, p, q =>
      ∃ r, (if (p.state.value condition).isTrue then first.Executes m p r
        else second.Executes m p r) ∧ next.Executes m r q
  | .loop ids body next, p, q =>
      ∃ r, ids.Rounds (body.Executes m) 0 ids.count.toInt.toNat p r ∧ next.Executes m r q

end Flow

/-! ### What is left alone -/

/-- From `s` to `t` only `results` have got new values, and of the `counters` only those among
`locals` have been written. -/
structure Frame (results locals counters : List Id) (s t : State κ ω) : Prop where
  value : ∀ id, id ∉ results → t.value id = s.value id
  cell : ∀ pointer ∈ counters, pointer ∉ locals → t.cell pointer = s.cell pointer

namespace Frame

variable {results locals counters : List Id} {s t u : State κ ω}

theorem refl (s : State κ ω) : Frame results locals counters s s :=
  ⟨fun _ _ => rfl, fun _ _ _ => rfl⟩

theorem trans (hst : Frame results locals counters s t)
    (htu : Frame results locals counters t u) : Frame results locals counters s u where
  value := fun id hid => (htu.value id hid).trans (hst.value id hid)
  cell := fun pointer hmem hnot =>
    (htu.cell pointer hmem hnot).trans (hst.cell pointer hmem hnot)

theorem mono {results' locals' : List Id} (h : Frame results locals counters s t)
    (hresults : results ⊆ results') (hlocals : locals ⊆ locals') :
    Frame results' locals' counters s t where
  value := fun id hid => h.value id fun hmem => hid (hresults hmem)
  cell := fun pointer hmem hnot => h.cell pointer hmem fun hmem' => hnot (hlocals hmem')

theorem of_keepsOthers {ids : LoopIds} {p q : Progress κ ω} (h : ids.KeepsOthers p q)
    (hown : ids.own ⊆ results) (hcounter : ids.counter ∈ locals) :
    Frame results locals counters p.state q.state where
  value := fun id hid => h.value id fun hmem => hid (hown hmem)
  cell := fun pointer _ hnot => h.cell pointer fun heq => hnot (heq ▸ hcounter)

/-- The rounds of a loop leave alone what its body leaves alone, apart from its own ids and
its counter. -/
theorem of_rounds {ids : LoopIds} {body : Progress κ ω → Progress κ ω → Prop}
    (hown : ids.own ⊆ results) (hcounter : ids.counter ∈ locals)
    (hbody : ∀ p q, body p q → Frame results locals counters p.state q.state)
    {round rounds : Nat} {p q : Progress κ ω} (h : ids.Rounds body round rounds p q) :
    Frame results locals counters p.state q.state := by
  induction rounds generalizing round p with
  | zero => exact of_keepsOthers h.1 hown hcounter
  | succ rounds ih =>
    obtain ⟨r, u, hpr, -, hru, hrest⟩ := h
    exact ((of_keepsOthers hpr hown hcounter).trans (hbody r u hru)).trans (ih hrest)

end Frame

/-- A flow gives values to results of its instructions only, and writes no `counters` but its own
when its statements write none. -/
theorem Flow.Executes.frame {m : Machine κ ω} {flow : Flow} {counters : List Id}
    (hkeeps : ∀ inst ∈ flow.statements, ∀ pointer ∈ counters, ∀ s : State κ ω,
      (m.execute inst s).cell pointer = s.cell pointer)
    {p q : Progress κ ω} (h : flow.Executes m p q) :
    Frame (resultsOf flow.body) (resultsOf flow.head) counters p.state q.state := by
  induction flow generalizing p q with
  | done =>
    obtain rfl : q = p := h
    exact Frame.refl _
  | instruction inst next ih =>
    have hnext := ih (fun i hi => hkeeps i (List.mem_cons_of_mem _ hi)) h
    have hresults : resultsOf next.body ⊆ resultsOf (inst :: next.body) :=
      (List.sublist_cons_self inst next.body).filterMap _ |>.subset
    refine Frame.trans ⟨fun id hid => ?_, fun pointer hmem _ => ?_⟩
      (hnext.mono hresults (List.Subset.refl _))
    · refine m.value_execute (fun hresult => hid ?_) p.state
      exact mem_resultsOf.mpr ⟨inst, List.mem_cons_self, hresult⟩
    · exact hkeeps inst List.mem_cons_self pointer hmem p.state
  | localVariable inst next ih =>
    exact (ih hkeeps h).mono (List.Subset.refl _)
      ((List.sublist_cons_self inst next.head).filterMap _ |>.subset)
  | ifThen condition onTrue merge arm next iharm ih =>
    obtain ⟨r, hfirst, hnext⟩ := h
    simp only [statements, List.mem_append] at hkeeps
    have hframe := ih (fun i hi => hkeeps i (Or.inr hi)) hnext
    simp only [body, head, resultsOf_append]
    refine Frame.trans ?_ (hframe.mono (by grind) (by grind))
    -- an arm that is not chosen leaves everything alone
    split at hfirst
    · exact (iharm (fun i hi => hkeeps i (Or.inl hi)) hfirst).mono (by grind) (by grind)
    · rw [hfirst]
      exact Frame.refl _
  | ifThenElse condition onTrue onFalse merge first second next ihfirst ihsecond ih =>
    obtain ⟨r, hchoice, hnext⟩ := h
    simp only [statements, List.mem_append] at hkeeps
    have hframe := ih (fun i hi => hkeeps i (Or.inr (Or.inr hi))) hnext
    simp only [body, head, resultsOf_append]
    refine Frame.trans ?_ (hframe.mono (by grind) (by grind))
    split at hchoice
    · exact (ihfirst (fun i hi => hkeeps i (Or.inl hi)) hchoice).mono (by grind) (by grind)
    · exact (ihsecond (fun i hi => hkeeps i (Or.inr (Or.inl hi))) hchoice).mono (by grind)
        (by grind)
  | loop ids body next ihbody ih =>
    obtain ⟨r, hrounds, hnext⟩ := h
    simp only [statements, List.mem_append] at hkeeps
    have hframe := ih (fun i hi => hkeeps i (Or.inr hi)) hnext
    have hown := ids.own_sublist.subset
    rw [resultsOf_head_loop]
    simp only [Flow.body, resultsOf_append]
    -- the counter of the loop stands in front of the variables of its body
    refine Frame.trans (Frame.of_rounds ?_ List.mem_cons_self (fun p q hbody => ?_) hrounds)
      (hframe.mono (by grind) (by grind))
    · exact fun id hid => by have := hown hid; grind
    · exact (ihbody (fun i hi => hkeeps i (Or.inl hi)) hbody).mono (by grind) (by grind)

end SpirvBinary
