import SpirvBinary.Proofs.Execution

/-!
# Executing a flow

Wherever the instructions of a flow stand in the code of a machine, the machine gets from the
first of them to what follows them, along the meaning of the flow.  For a loop this is an
induction on the rounds that are left, with the counter holding the number of the round
whenever the machine is at the header.

## Main definitions

* `Machine.Hosts` — what a machine and the flow of its function have to do with each other.
* `LoopIds.Placed` — a loop stands in the code of a machine.

## Main results

* `LoopIds.Placed.rounds_reach` — a machine runs the rounds of a loop.
* `Machine.Hosts.simulates` — **a machine executes a flow.**
-/

namespace SpirvBinary

open Opcode

variable {κ ω : Type}

/-! ### Machines and flows -/

namespace LoopIds

/-- The instructions of a loop behind its header label and up to the label of its body. -/
def checking (ids : LoopIds) : List Instruction :=
  [.loopMerge ids.merge ids.advance, .branch ids.check,
    .label ids.check, .load ids.int ids.index ids.counter,
    .typed opSLessThan ids.bool ids.inRange [ids.index.word, ids.limit.word],
    .branchConditional ids.inRange ids.body ids.merge,
    .label ids.body]

/-- The instructions by which a loop counts. -/
def counting (ids : LoopIds) : List Instruction :=
  [.store ids.counter ids.zero, .load ids.int ids.index ids.counter,
    .typed opSLessThan ids.bool ids.inRange [ids.index.word, ids.limit.word],
    .load ids.int ids.current ids.counter,
    .typed opIAdd ids.int ids.next [ids.current.word, ids.one.word],
    .store ids.counter ids.next]

/-- What a loop has done for itself from `p` on when it is back at its header. -/
theorem keepsOthers_closing (ids : LoopIds) (p : Progress κ ω) (number sum : Value κ) :
    ids.KeepsOthers p ⟨((p.state.assign ids.current number).assign ids.next sum).write ids.counter
      sum, p.trace⟩ :=
  (((KeepsOthers.refl p).assign (by simp [own]) number).assign (by simp [own]) sum).write sum

/-- While there are `rounds` left, and only then, the number of a round is below the limit. -/
theorem ofNat_lt_iff {count : Int32} {round rounds : Nat}
    (h : round + rounds = count.toInt.toNat) : Int32.ofNat round < count ↔ 0 < rounds := by
  have hlt := count.toInt_lt
  rw [Int32.lt_iff_toInt_lt, Int32.toInt_ofNat_of_lt (by omega)]
  omega

/-- The constants of a loop. -/
def constants (ids : LoopIds) : List Id := [ids.zero, ids.one, ids.limit]

/-- The `constants` of a loop have their values in `s`. -/
structure Holds (ids : LoopIds) (s : State κ ω) : Prop where
  zero : s.value ids.zero = .int 0
  one : s.value ids.one = .int 1
  limit : s.value ids.limit = .int ids.count

theorem Holds.of_eq {ids : LoopIds} {s t : State κ ω} (h : ids.Holds s)
    (heq : ∀ id ∈ ids.constants, t.value id = s.value id) : ids.Holds t where
  zero := (heq _ (by simp [constants])).trans h.zero
  one := (heq _ (by simp [constants])).trans h.one
  limit := (heq _ (by simp [constants])).trans h.limit

end LoopIds

/-- A machine for a function with the given `flow`.  Labels are different, statements are watched
and do not write the counters of loops, and what loops do for themselves is not watched. -/
structure Machine.Hosts (m : Machine κ ω) (flow : Flow) : Prop where
  labels : (labelsOf m.code).Nodup
  statements : ∀ inst ∈ flow.statements, inst.opcode ∉ structural ∧ inst ∈ m.watched
  keeps : ∀ inst ∈ flow.statements, ∀ pointer ∈ flow.loops.map (·.counter), ∀ s : State κ ω,
    (m.execute inst s).cell pointer = s.cell pointer
  counting : ∀ ids ∈ flow.loops, ∀ inst ∈ ids.counting, inst ∉ m.watched
  counters : ∀ ids ∈ flow.loops, m.isVariable ids.counter
  indices : ∀ ids ∈ flow.loops, ids.index ≠ ids.inRange
  constants : ∀ ids ∈ flow.loops, ∀ id ∈ ids.constants, id ∉ resultsOf flow.body

/-- What `flow` consists of is found in `root`. -/
structure Flow.Part (flow root : Flow) : Prop where
  statements : flow.statements ⊆ root.statements
  loops : flow.loops ⊆ root.loops
  results : resultsOf flow.body ⊆ resultsOf root.body

namespace Flow.Part

variable {root : Flow}

theorem instruction {inst : Instruction} {next : Flow}
    (h : (Flow.instruction inst next).Part root) : next.Part root := by
  obtain ⟨hstatements, hloops, hresults⟩ := h
  have hbody : resultsOf next.body ⊆ resultsOf (inst :: next.body) :=
    ((List.sublist_cons_self inst next.body).filterMap _).subset
  exact ⟨(List.cons_subset.mp hstatements).2, hloops, List.Subset.trans hbody hresults⟩

theorem localVariable {inst : Instruction} {next : Flow}
    (h : (Flow.localVariable inst next).Part root) : next.Part root :=
  ⟨h.statements, h.loops, h.results⟩

theorem ifThen {condition onTrue merge : Id} {arm next : Flow}
    (h : (Flow.ifThen condition onTrue merge arm next).Part root) :
    arm.Part root ∧ next.Part root := by
  obtain ⟨hstatements, hloops, hresults⟩ := h
  simp only [Flow.statements, Flow.loops, Flow.body, resultsOf_append, List.append_subset]
    at hstatements hloops hresults
  exact ⟨⟨hstatements.1, hloops.1, hresults.2.1⟩, hstatements.2, hloops.2, hresults.2.2.2⟩

theorem ifThenElse {condition onTrue onFalse merge : Id} {first second next : Flow}
    (h : (Flow.ifThenElse condition onTrue onFalse merge first second next).Part root) :
    first.Part root ∧ second.Part root ∧ next.Part root := by
  obtain ⟨hstatements, hloops, hresults⟩ := h
  simp only [Flow.statements, Flow.loops, Flow.body, resultsOf_append, List.append_subset]
    at hstatements hloops hresults
  exact ⟨⟨hstatements.1, hloops.1, hresults.2.1⟩,
    ⟨hstatements.2.1, hloops.2.1, hresults.2.2.2.1⟩,
    hstatements.2.2, hloops.2.2, hresults.2.2.2.2.2⟩

theorem loop {ids : LoopIds} {body next : Flow} (h : (Flow.loop ids body next).Part root) :
    ids ∈ root.loops ∧ ids.own ⊆ resultsOf root.body ∧ body.Part root ∧ next.Part root := by
  obtain ⟨hstatements, hloops, hresults⟩ := h
  simp only [Flow.statements, Flow.loops, Flow.body, resultsOf_append, List.append_subset,
    List.cons_subset] at hstatements hloops hresults
  have hown := List.Subset.trans ids.own_sublist.subset
    (List.append_subset.mpr ⟨hresults.1, hresults.2.2.1⟩)
  exact ⟨hloops.1, hown, ⟨hstatements.1, hloops.2.1, hresults.2.1⟩, hstatements.2, hloops.2.2,
    hresults.2.2.2⟩

end Flow.Part

/-! ### Loops -/

/-- The instructions of a loop stand in the code of `m`, around those of its `body` and before
those `behind` it.  The machine does not watch what the loop does for itself, and the ids of the
loop are different as far as it matters. -/
structure LoopIds.Placed (ids : LoopIds) (m : Machine κ ω) (body behind : List Instruction) :
    Prop where
  labels : (labelsOf m.code).Nodup
  code : ids.opening ++ (body ++ (ids.closing ++ behind)) <:+ m.code
  counter : m.isVariable ids.counter
  counting : ∀ inst ∈ ids.counting, inst ∉ m.watched
  constants : ∀ id ∈ ids.constants, id ∉ ids.own
  indices : ids.index ≠ ids.inRange

namespace LoopIds.Placed

variable {m : Machine κ ω} {ids : LoopIds} {body behind : List Instruction}

theorem afterHeader (h : ids.Placed m body behind) : afterLabel ids.header m.code
    = some (ids.checking ++ (body ++ (ids.closing ++ behind))) :=
  Machine.afterLabel_code h.labels (ids.opening.take 2) h.code

theorem afterCheck (h : ids.Placed m body behind) : afterLabel ids.check m.code
    = some (ids.checking.drop 3 ++ (body ++ (ids.closing ++ behind))) :=
  Machine.afterLabel_code h.labels (ids.opening.take 5) h.code

theorem afterBody (h : ids.Placed m body behind) : afterLabel ids.body m.code
    = some (body ++ (ids.closing ++ behind)) :=
  Machine.afterLabel_code h.labels (ids.opening.take 9) h.code

theorem afterAdvance (h : ids.Placed m body behind) : afterLabel ids.advance m.code
    = some (ids.closing.drop 2 ++ behind) := by
  refine Machine.afterLabel_code h.labels (ids.opening ++ (body ++ ids.closing.take 1)) ?_
  simpa [closing] using h.code

theorem afterMerge (h : ids.Placed m body behind) : afterLabel ids.merge m.code
    = some behind := by
  refine Machine.afterLabel_code h.labels (ids.opening ++ (body ++ ids.closing.take 6)) ?_
  simpa [closing] using h.code

variable {p : Progress κ ω} {k : Int32}

/-- At the header a loop reads its counter `k` and goes on to its `body` or `behind` the loop. -/
theorem checking_reaches (h : ids.Placed m body behind) (hholds : ids.Holds p.state)
    (hk : p.state.cell ids.counter = .int k) :
    m.Reaches ⟨ids.checking ++ (body ++ (ids.closing ++ behind)), p⟩
      ⟨if k < ids.count then body ++ (ids.closing ++ behind) else behind,
        ⟨(p.state.assign ids.index (.int k)).assign ids.inRange (.flag (k < ids.count)),
          p.trace⟩⟩ := by
  have hload : m.execute (.load ids.int ids.index ids.counter) p.state
      = p.state.assign ids.index (.int k) := by
    rw [Machine.execute_load h.counter, hk]
  have hlimit : (p.state.assign ids.index (.int k)).value ids.limit = .int ids.count := by
    have hne : ids.limit ≠ ids.index := fun heq =>
      h.constants ids.limit (by simp [LoopIds.constants]) (by simp [own, heq])
    rw [State.value_assign_of_ne hne, hholds.limit]
  have hless := m.execute_lessThan (State.value_assign_self p.state ids.index (.int k)) hlimit
    ids.bool ids.inRange
  refine .loopMerge (.branch h.afterCheck ?_)
  refine .silent (by decide : opLoad ∉ structural) (h.counting _ (by simp [LoopIds.counting])) ?_
  rw [hload]
  refine .silent (by decide : opSLessThan ∉ structural)
    (h.counting _ (by simp [LoopIds.counting])) ?_
  rw [hless]
  refine .branchConditional ?_ .refl
  rw [State.value_assign_self]
  by_cases hlt : k < ids.count
  · simpa only [Value.isTrue, hlt, decide_true, if_true] using h.afterBody
  · simpa only [Value.isTrue, hlt, decide_false, Bool.false_eq_true, if_false] using h.afterMerge

/-- At the end of its `body` a loop advances its counter `k` and goes back to its header. -/
theorem closing_reaches (h : ids.Placed m body behind) (hholds : ids.Holds p.state)
    (hk : p.state.cell ids.counter = .int k) :
    m.Reaches ⟨ids.closing ++ behind, p⟩
      ⟨ids.checking ++ (body ++ (ids.closing ++ behind)),
        ⟨((p.state.assign ids.current (.int k)).assign ids.next (.int (k + 1))).write ids.counter
          (.int (k + 1)), p.trace⟩⟩ := by
  have hload : m.execute (.load ids.int ids.current ids.counter) p.state
      = p.state.assign ids.current (.int k) := by
    rw [Machine.execute_load h.counter, hk]
  have hone : (p.state.assign ids.current (.int k)).value ids.one = .int 1 := by
    have hne : ids.one ≠ ids.current := fun heq =>
      h.constants ids.one (by simp [LoopIds.constants]) (by simp [own, heq])
    rw [State.value_assign_of_ne hne, hholds.one]
  have hadd := m.execute_add (State.value_assign_self p.state ids.current (.int k)) hone
    ids.int ids.next
  refine .branch h.afterAdvance ?_
  refine .silent (by decide : opLoad ∉ structural) (h.counting _ (by simp [LoopIds.counting])) ?_
  rw [hload]
  refine .silent (by decide : opIAdd ∉ structural) (h.counting _ (by simp [LoopIds.counting])) ?_
  rw [hadd]
  refine .silent (by decide : opStore ∉ structural) (h.counting _ (by simp [LoopIds.counting])) ?_
  rw [Machine.execute_store h.counter, State.value_assign_self]
  exact .branch h.afterHeader .refl

/-- What a loop has done for itself when it goes on to its body or behind the loop. -/
theorem keepsOthers_checking (h : ids.Placed m body behind) (p : Progress κ ω)
    (number outcome : Value κ) :
    ids.KeepsOthers p ⟨(p.state.assign ids.index number).assign ids.inRange outcome, p.trace⟩ ∧
      ((p.state.assign ids.index number).assign ids.inRange outcome).value ids.index
        = number := by
  refine ⟨((KeepsOthers.refl p).assign (by simp [own]) number).assign (by simp [own]) outcome, ?_⟩
  rw [State.value_assign_of_ne h.indices, State.value_assign_self]

/-- From its header on a loop runs the rounds that are left, and then goes on `behind` them.  The
counter holds the number of the round at the header, and the body, which `Executes` describes,
keeps it. -/
theorem rounds_reach (h : ids.Placed m body behind) {Inv : State κ ω → Prop}
    {Executes : Progress κ ω → Progress κ ω → Prop} (hholds : ∀ s, Inv s → ids.Holds s)
    (hkeeps : ∀ p q : Progress κ ω, ids.KeepsOthers p q → Inv p.state → Inv q.state)
    (hbody : ∀ p : Progress κ ω, Inv p.state → ∃ q,
      m.Reaches ⟨body ++ (ids.closing ++ behind), p⟩ ⟨ids.closing ++ behind, q⟩ ∧ Executes p q ∧
        Inv q.state ∧ q.state.cell ids.counter = p.state.cell ids.counter)
    {round rounds : Nat} (hrounds : round + rounds = ids.count.toInt.toNat)
    (hp : Inv p.state) (hround : p.state.cell ids.counter = .int (Int32.ofNat round)) :
    ∃ q, m.Reaches ⟨ids.checking ++ (body ++ (ids.closing ++ behind)), p⟩ ⟨behind, q⟩ ∧
      ids.Rounds Executes round rounds p q ∧ Inv q.state := by
  -- the counter tells the round at the header, so the number of rounds left tells the outcome
  induction rounds generalizing round p with
  | zero =>
    have hcheck := h.checking_reaches (hholds _ hp) hround
    rw [if_neg (by rw [ofNat_lt_iff hrounds]; omega)] at hcheck
    have hleft := h.keepsOthers_checking p (.int (Int32.ofNat round))
      (.flag (Int32.ofNat round < ids.count))
    exact ⟨_, hcheck, hleft, hkeeps _ _ hleft.1 hp⟩
  | succ rounds ih =>
    have hcheck := h.checking_reaches (hholds _ hp) hround
    rw [if_pos (by rw [ofNat_lt_iff hrounds]; omega)] at hcheck
    obtain ⟨hentered, hindex⟩ := h.keepsOthers_checking p (.int (Int32.ofNat round))
      (.flag (Int32.ofNat round < ids.count))
    obtain ⟨u, hreaches, hexecutes, hu, hcell⟩ := hbody _ (hkeeps _ _ hentered hp)
    have hclose := h.closing_reaches (hholds _ hu) (hcell.trans hround)
    have hleft := keepsOthers_closing ids u (.int (Int32.ofNat round))
      (.int (Int32.ofNat round + 1))
    -- the counter holds the number of the next round
    have hnext : Int32.ofNat round + 1 = Int32.ofNat (round + 1) := by simp [Int32.ofNat_add]
    have hrounds' : round + 1 + rounds = ids.count.toInt.toNat := by omega
    obtain ⟨q, hrest, hmore, hq⟩ := ih hrounds' (hkeeps _ _ hleft hu)
      (by rw [State.cell_write_self, hnext])
    exact ⟨q, hcheck.trans (hreaches.trans (hclose.trans hrest)),
      ⟨_, u, hentered, hindex, hexecutes, hmore.after hleft⟩, hq⟩

end LoopIds.Placed

/-! ### Flows -/

namespace Machine.Hosts

variable {m : Machine κ ω} {root flow : Flow} {p q : Progress κ ω}

theorem frame (hosts : m.Hosts root) (hpart : flow.Part root) (h : flow.Executes m p q) :
    Frame (resultsOf flow.body) (resultsOf flow.head) (root.loops.map (·.counter))
      p.state q.state :=
  h.frame fun inst hinst => hosts.keeps inst (hpart.statements hinst)

/-- The constants of loops keep their values. -/
theorem holds (hosts : m.Hosts root) {s t : State κ ω}
    (heq : ∀ id, id ∉ resultsOf root.body → t.value id = s.value id)
    (hs : ∀ ids ∈ root.loops, ids.Holds s) : ∀ ids ∈ root.loops, ids.Holds t :=
  fun ids hids => (hs ids hids).of_eq fun id hid => heq id (hosts.constants ids hids id hid)

theorem holds_after (hosts : m.Hosts root) (hpart : flow.Part root) (h : flow.Executes m p q)
    (hp : ∀ ids ∈ root.loops, ids.Holds p.state) : ∀ ids ∈ root.loops, ids.Holds q.state :=
  hosts.holds (fun id hid => (hosts.frame hpart h).value id fun hmem => hid (hpart.results hmem)) hp

/-- The `arm` of a selection leads to what follows the selection. -/
theorem arm_reaches (hosts : m.Hosts root) {arm next : Flow} (hpart : arm.Part root)
    {merge label : Id} {behind rest : List Instruction}
    (harm : ∃ r, m.Reaches ⟨arm.body ++ (Instruction.endArm merge label ++ behind), p⟩
      ⟨Instruction.endArm merge label ++ behind, r⟩ ∧ arm.Executes m p r)
    (hmerge : afterLabel merge m.code = some (next.body ++ rest))
    (hp : ∀ ids ∈ root.loops, ids.Holds p.state)
    (hnext : ∀ r : Progress κ ω, (∀ ids ∈ root.loops, ids.Holds r.state) →
      ∃ q, m.Reaches ⟨next.body ++ rest, r⟩ ⟨rest, q⟩ ∧ next.Executes m r q) :
    ∃ r q, m.Reaches ⟨arm.body ++ (Instruction.endArm merge label ++ behind), p⟩ ⟨rest, q⟩ ∧
      arm.Executes m p r ∧ next.Executes m r q := by
  obtain ⟨r, hreaches, hexecutes⟩ := harm
  obtain ⟨q, hreaches', hexecutes'⟩ := hnext r (hosts.holds_after hpart hexecutes hp)
  exact ⟨r, q, hreaches.trans (Reaches.branch hmerge hreaches'), hexecutes, hexecutes'⟩

/-- A loop of `root` stands in the code with what belongs to it. -/
theorem placed (hosts : m.Hosts root) {ids : LoopIds} (hids : ids ∈ root.loops)
    (hown : ids.own ⊆ resultsOf root.body) {body behind : List Instruction}
    (hcode : ids.opening ++ (body ++ (ids.closing ++ behind)) <:+ m.code) :
    ids.Placed m body behind where
  labels := hosts.labels
  code := hcode
  counter := hosts.counters ids hids
  counting := hosts.counting ids hids
  constants := fun id hid hmem => hosts.constants ids hids id hid (hown hmem)
  indices := hosts.indices ids hids

/-- **A machine executes a flow.**  Where the instructions of a `flow` stand in its code, a machine
gets from the first of them to the `rest` that follows them, along the meaning of the flow. -/
theorem simulates (hosts : m.Hosts root) (hpart : flow.Part root)
    (hhead : (resultsOf flow.head).Nodup) {rest : List Instruction}
    (hcode : flow.body ++ rest <:+ m.code) (hp : ∀ ids ∈ root.loops, ids.Holds p.state) :
    ∃ q, m.Reaches ⟨flow.body ++ rest, p⟩ ⟨rest, q⟩ ∧ flow.Executes m p q := by
  induction flow generalizing rest p with
  | done => exact ⟨p, .refl, rfl⟩
  | instruction inst next ih =>
    obtain ⟨hopcode, hwatched⟩ := hosts.statements inst (hpart.statements List.mem_cons_self)
    have hp' : ∀ ids ∈ root.loops, ids.Holds (m.observe inst p).state := by
      refine hosts.holds (fun id hid => m.value_execute (fun hresult => hid ?_) _) hp
      exact hpart.results (mem_resultsOf.mpr ⟨inst, List.mem_cons_self, hresult⟩)
    obtain ⟨q, hreaches, hexecutes⟩ :=
      ih hpart.instruction hhead ((List.suffix_cons inst _).trans hcode) hp'
    exact ⟨q, .observe hopcode hwatched hreaches, hexecutes⟩
  | localVariable inst next ih =>
    have hnext : (resultsOf next.head).Nodup :=
      hhead.sublist ((List.sublist_cons_self inst next.head).filterMap _)
    exact ih hpart.localVariable hnext hcode hp
  | ifThen condition onTrue merge arm next iharm ih =>
    obtain ⟨hparm, hpnext⟩ := hpart.ifThen
    simp only [Flow.head, resultsOf_append] at hhead
    simp only [Flow.body, List.append_assoc] at hcode ⊢
    have htrue : afterLabel onTrue m.code
        = some (arm.body ++ (Instruction.endArm merge merge ++ (next.body ++ rest))) :=
      afterLabel_code hosts.labels
        [.selectionMerge merge, .branchConditional condition onTrue merge] hcode
    have hmerge : afterLabel merge m.code = some (next.body ++ rest) := by
      refine afterLabel_code hosts.labels
        (Instruction.selection condition onTrue merge merge ++ (arm.body ++ [.branch merge])) ?_
      simpa [Instruction.endArm] using hcode
    have hcode' := (List.suffix_append _ _).trans hcode
    -- what follows the selection is executed from wherever the arm leads
    have hnext := fun r => ih (p := r) hpnext (List.Nodup.of_append_right hhead)
      ((List.suffix_append_of_suffix (List.suffix_append _ _)).trans hcode')
    by_cases hcondition : (p.state.value condition).isTrue
    · obtain ⟨r, q, hreaches, harm, hexecutes⟩ := hosts.arm_reaches hparm
        (iharm hparm (List.Nodup.of_append_left hhead) hcode' hp) hmerge hp hnext
      refine ⟨q, .selectionMerge (.branchConditional ?_ hreaches), r, ?_, hexecutes⟩
      · rwa [if_pos hcondition]
      · rwa [if_pos hcondition]
    · obtain ⟨q, hreaches, hexecutes⟩ := hnext p hp
      refine ⟨q, .selectionMerge (.branchConditional ?_ hreaches), p, ?_, hexecutes⟩
      · rwa [if_neg hcondition]
      · rw [if_neg hcondition]
  | ifThenElse condition onTrue onFalse merge first second next ihfirst ihsecond ih =>
    obtain ⟨hpfirst, hpsecond, hpnext⟩ := hpart.ifThenElse
    simp only [Flow.head, resultsOf_append] at hhead
    simp only [Flow.body, List.append_assoc] at hcode ⊢
    have htrue : afterLabel onTrue m.code
        = some (first.body ++ (Instruction.endArm merge onFalse ++ (second.body
          ++ (Instruction.endArm merge merge ++ (next.body ++ rest))))) :=
      afterLabel_code hosts.labels
        [.selectionMerge merge, .branchConditional condition onTrue onFalse] hcode
    have hfalse : afterLabel onFalse m.code
        = some (second.body ++ (Instruction.endArm merge merge ++ (next.body ++ rest))) := by
      refine afterLabel_code hosts.labels
        (Instruction.selection condition onTrue onFalse merge ++ (first.body ++ [.branch merge])) ?_
      simpa [Instruction.endArm] using hcode
    have hmerge : afterLabel merge m.code = some (next.body ++ rest) := by
      refine afterLabel_code hosts.labels
        (Instruction.selection condition onTrue onFalse merge ++ (first.body
          ++ (Instruction.endArm merge onFalse ++ (second.body ++ [.branch merge])))) ?_
      simpa [Instruction.endArm] using hcode
    have hcode' := (List.suffix_append _ _).trans hcode
    have hcode'' := (List.suffix_append_of_suffix (List.suffix_append _ _)).trans hcode'
    have hheads := List.Nodup.of_append_right hhead
    have hnext := fun r => ih (p := r) hpnext (List.Nodup.of_append_right hheads)
      ((List.suffix_append_of_suffix (List.suffix_append _ _)).trans hcode'')
    by_cases hcondition : (p.state.value condition).isTrue
    · obtain ⟨r, q, hreaches, harm, hexecutes⟩ := hosts.arm_reaches hpfirst
        (ihfirst hpfirst (List.Nodup.of_append_left hhead) hcode' hp) hmerge hp hnext
      refine ⟨q, .selectionMerge (.branchConditional ?_ hreaches), r, ?_, hexecutes⟩
      · rwa [if_pos hcondition]
      · rwa [if_pos hcondition]
    · obtain ⟨r, q, hreaches, harm, hexecutes⟩ := hosts.arm_reaches hpsecond
        (ihsecond hpsecond (List.Nodup.of_append_left hheads) hcode'' hp) hmerge hp hnext
      refine ⟨q, .selectionMerge (.branchConditional ?_ hreaches), r, ?_, hexecutes⟩
      · rwa [if_neg hcondition]
      · rwa [if_neg hcondition]
  | loop ids body next ihbody ih =>
    obtain ⟨hids, hown, hpbody, hpnext⟩ := hpart.loop
    rw [Flow.resultsOf_head_loop, List.nodup_cons] at hhead
    obtain ⟨hcounter, hhead⟩ := hhead
    simp only [Flow.body, List.append_assoc] at hcode ⊢
    have hcode' := (List.suffix_append _ _).trans hcode
    have hplaced := hosts.placed hids hown hcode
    have hkeeps : ∀ p q : Progress κ ω, ids.KeepsOthers p q →
        (∀ ids ∈ root.loops, ids.Holds p.state) → ∀ ids ∈ root.loops, ids.Holds q.state :=
      fun p q h => hosts.holds fun id hid => h.value id fun hmem => hid (hown hmem)
    -- loops in the body have counters of their own
    have hbody : ∀ p : Progress κ ω, (∀ ids ∈ root.loops, ids.Holds p.state) → ∃ q,
        m.Reaches ⟨body.body ++ (ids.closing ++ (next.body ++ rest)), p⟩
          ⟨ids.closing ++ (next.body ++ rest), q⟩ ∧ body.Executes m p q ∧
          (∀ ids ∈ root.loops, ids.Holds q.state) ∧
            q.state.cell ids.counter = p.state.cell ids.counter := by
      intro p hp
      obtain ⟨q, hreaches, hexecutes⟩ :=
        ihbody hpbody (List.Nodup.of_append_left hhead) hcode' hp
      refine ⟨q, hreaches, hexecutes, hosts.holds_after hpbody hexecutes hp, ?_⟩
      refine (hosts.frame hpbody hexecutes).cell _ (List.mem_map_of_mem hids) fun hmem => ?_
      exact hcounter (List.mem_append_left _ hmem)
    -- the counter is reset, whatever it held when the loop was left the last time
    have hreset : ids.KeepsOthers p ⟨p.state.write ids.counter (.int 0), p.trace⟩ :=
      (LoopIds.KeepsOthers.refl p).write (.int 0)
    obtain ⟨r, hreaches, hrounds, hr⟩ := hplaced.rounds_reach
      (fun s (hs : ∀ ids ∈ root.loops, ids.Holds s) => hs ids hids) hkeeps hbody
      (Nat.zero_add _) (hkeeps _ _ hreset hp) (State.cell_write_self _ _ _)
    obtain ⟨q, hreaches', hexecutes⟩ := ih hpnext (List.Nodup.of_append_right hhead)
      ((List.suffix_append_of_suffix (List.suffix_append _ _)).trans hcode') hr
    refine ⟨q, ?_, r, hrounds.after hreset, hexecutes⟩
    refine .silent (by decide : opStore ∉ structural)
      (hosts.counting ids hids _ (by simp [LoopIds.counting])) ?_
    rw [execute_store (hosts.counters ids hids), (hp ids hids).zero]
    exact .branch hplaced.afterHeader (hreaches.trans hreaches')

end Machine.Hosts

end SpirvBinary
