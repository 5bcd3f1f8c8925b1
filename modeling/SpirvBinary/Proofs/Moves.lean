import Mathlib.Data.List.Forall2
import SpirvBinary.Fault

/-!
# What a computation leaves behind

A build keeps its draft when it fails, so every computation leaves a state behind,
`after`.  A computation moves along a relation when the state it starts from and the
state it leaves are related, whatever its outcome is.  Along a reflexive and transitive
relation moves compose, and a property of all runs is proved by finding the relation
that every operation moves along.

## Main definitions

* `after` — the state a computation leaves.
* `Moves` — a computation moves along a relation.
* `Leads` — what holds after a computation that succeeds, and after one that fails.
* `Succeeds` — a computation succeeds, and what holds then.
* `Bracket` — two computations move along a relation together, when whatever happens
  between them does.
* `DoubleBracket` — the same for three computations and what happens in the two gaps.
-/

namespace SpirvBinary

variable {σ α β γ : Type}

/-- The state that the computation `x` leaves when it starts from `s`, whether it succeeds or
fails. -/
def after (x : EStateM Fault σ α) (s : σ) : σ :=
  match x s with
  | .ok _ s' => s'
  | .error _ s' => s'

theorem after_of_ok {x : EStateM Fault σ α} {s t : σ} {a : α} (h : x s = .ok a t) :
    after x s = t := by
  rw [after, h]

theorem after_of_error {x : EStateM Fault σ α} {s t : σ} {fault : Fault}
    (h : x s = .error fault t) : after x s = t := by
  rw [after, h]

/-! ### Running two computations one after the other -/

theorem bind_of_ok {x : EStateM Fault σ α} {k : α → EStateM Fault σ β} {s t : σ} {a : α}
    (h : x s = .ok a t) : (x >>= k) s = k a t := by
  change EStateM.bind x k s = k a t
  rw [EStateM.bind, h]

theorem bind_of_error {x : EStateM Fault σ α} {k : α → EStateM Fault σ β} {s t : σ}
    {fault : Fault} (h : x s = .error fault t) : (x >>= k) s = .error fault t := by
  change EStateM.bind x k s = .error fault t
  rw [EStateM.bind, h]

/-- If `x` and then `k` succeed one after the other, both succeed. -/
theorem exists_of_bind_ok {x : EStateM Fault σ α} {k : α → EStateM Fault σ β} {s u : σ} {b : β}
    (h : (x >>= k) s = .ok b u) : ∃ a t, x s = .ok a t ∧ k a t = .ok b u := by
  cases hx : x s with
  | ok a t =>
    rw [bind_of_ok hx] at h
    exact ⟨a, t, rfl, h⟩
  | error fault t =>
    rw [bind_of_error hx] at h
    cases h

/-- If `x` followed by `k` fails, `x` does, or `x` succeeds and `k` fails after it. -/
theorem exists_of_bind_error {x : EStateM Fault σ α} {k : α → EStateM Fault σ β} {s u : σ}
    {fault : Fault} (h : (x >>= k) s = .error fault u) :
    x s = .error fault u ∨ ∃ a t, x s = .ok a t ∧ k a t = .error fault u := by
  cases hx : x s with
  | ok a t =>
    rw [bind_of_ok hx] at h
    exact .inr ⟨a, t, rfl, h⟩
  | error fault' t =>
    rw [bind_of_error hx] at h
    cases h
    exact .inl rfl

theorem after_bind_of_ok {x : EStateM Fault σ α} {k : α → EStateM Fault σ β} {s t : σ} {a : α}
    (h : x s = .ok a t) : after (x >>= k) s = after (k a) t := by
  rw [after, bind_of_ok h, after]

theorem after_bind_of_error {x : EStateM Fault σ α} {k : α → EStateM Fault σ β} {s t : σ}
    {fault : Fault} (h : x s = .error fault t) : after (x >>= k) s = t :=
  after_of_error (bind_of_error h)

/-! ### Moving along a relation -/

/-- The computation `x` moves along the relation `R`: wherever it starts, `R` leads to the state
that it leaves. -/
def Moves (R : σ → σ → Prop) (x : EStateM Fault σ α) : Prop := ∀ s, R s (after x s)

namespace Moves

variable {R : σ → σ → Prop}

theorem pure (hrefl : ∀ s, R s s) (a : α) : Moves R (Pure.pure a : EStateM Fault σ α) := hrefl

theorem bind (htrans : ∀ s t u, R s t → R t u → R s u) {x : EStateM Fault σ α}
    {k : α → EStateM Fault σ β} (hx : Moves R x) (hk : ∀ a, Moves R (k a)) :
    Moves R (x >>= k) := by
  intro s
  have hs := hx s
  cases h : x s with
  | ok a t =>
    rw [after_bind_of_ok h]
    rw [after_of_ok h] at hs
    exact htrans _ _ _ hs (hk a t)
  | error fault t =>
    rw [after_bind_of_error h]
    rwa [after_of_error h] at hs

/-- A computation that reads the state first moves along `R` when what it does with the state, `k
s`, does. -/
theorem get_bind {k : σ → EStateM Fault σ α} (h : ∀ s, R s (after (k s) s)) :
    Moves R (MonadState.get >>= k) := h

end Moves

/-! ### Where a computation leads -/

/-- From the state `s` the computation `x` leads to a result and a state that satisfy `P`, or fails
in a state that satisfies `E`. -/
def Leads (x : EStateM Fault σ α) (s : σ) (P : α → σ → Prop) (E : σ → Prop) : Prop :=
  match x s with
  | .ok a t => P a t
  | .error _ t => E t

instance (x : EStateM Fault σ α) (s : σ) (P : α → σ → Prop) (E : σ → Prop)
    [∀ a t, Decidable (P a t)] [∀ t, Decidable (E t)] : Decidable (Leads x s P E) :=
  match h : x s with
  | .ok a t => decidable_of_iff (P a t) (by rw [Leads, h])
  | .error _ t => decidable_of_iff (E t) (by rw [Leads, h])

namespace Leads

variable {x : EStateM Fault σ α} {k : α → EStateM Fault σ β} {s : σ} {P : α → σ → Prop}
  {Q : β → σ → Prop} {E : σ → Prop}

theorem of_ok {a : α} {t : σ} (h : x s = .ok a t) (hP : P a t) : Leads x s P E := by
  unfold Leads
  rw [h]
  exact hP

theorem of_error {fault : Fault} {t : σ} (h : x s = .error fault t) (hE : E t) :
    Leads x s P E := by
  unfold Leads
  rw [h]
  exact hE

theorem bind (hx : Leads x s P E) (hk : ∀ a t, P a t → Leads (k a) t Q E) :
    Leads (x >>= k) s Q E := by
  unfold Leads at hx
  cases h : x s with
  | ok a t =>
    rw [h] at hx
    unfold Leads
    rw [bind_of_ok h]
    exact hk a t hx
  | error fault t =>
    rw [h] at hx
    exact of_error (bind_of_error h) hx

/-- A computation that reads the state `s` first leads where `k s` leads. -/
theorem get_bind {k : σ → EStateM Fault σ α} (h : Leads (k s) s P E) :
    Leads (MonadState.get >>= k) s P E := h

theorem of_moves {R : σ → σ → Prop} (h : Moves R x) : Leads x s (fun _ t => R s t) (R s) := by
  have hs := h s
  cases hx : x s with
  | ok a t => exact of_ok hx (after_of_ok hx ▸ hs)
  | error fault t => exact of_error hx (after_of_error hx ▸ hs)

/-- Along a transitive relation `R` the computations `x` and `k` lead one after the other. -/
theorem bind_along {R : σ → σ → Prop} (htrans : ∀ s t u, R s t → R t u → R s u)
    (hx : Leads x s (fun a t => R s t ∧ P a t) (R s))
    (hk : ∀ a t, R s t → P a t → Leads (k a) t (fun b u => R t u ∧ Q b u) (R t)) :
    Leads (x >>= k) s (fun b u => R s u ∧ Q b u) (R s) := by
  unfold Leads at hx
  cases h : x s with
  | ok a t =>
    rw [h] at hx
    have hlead := hk a t hx.1 hx.2
    unfold Leads at hlead ⊢
    rw [bind_of_ok h]
    cases h' : k a t with
    | ok b u =>
      rw [h'] at hlead
      exact ⟨htrans _ _ _ hx.1 hlead.1, hlead.2⟩
    | error fault u =>
      rw [h'] at hlead
      exact htrans _ _ _ hx.1 hlead
  | error fault t =>
    rw [h] at hx
    exact of_error (bind_of_error h) hx

theorem mono {P' : α → σ → Prop} {E' : σ → Prop} (h : Leads x s P E)
    (hP : ∀ a t, P a t → P' a t) (hE : ∀ t, E t → E' t) : Leads x s P' E' := by
  unfold Leads at h
  cases hx : x s with
  | ok a t =>
    rw [hx] at h
    exact of_ok hx (hP a t h)
  | error fault t =>
    rw [hx] at h
    exact of_error hx (hE t h)

/-- Two conditions `P` and `P'` on a result hold together. -/
theorem and {P' : α → σ → Prop} (h : Leads x s P E) (h' : Leads x s P' fun _ => True) :
    Leads x s (fun a t => P a t ∧ P' a t) E := by
  unfold Leads at h h'
  cases hx : x s with
  | ok a t =>
    rw [hx] at h h'
    exact of_ok hx ⟨h, h'⟩
  | error fault t =>
    rw [hx] at h
    exact of_error hx h

/-- A `loop` that collects one result `f b` for each item `b` of a list, newest first, leads to
results that stand for their items, provided that what holds of a result goes on holding along
`R`. -/
theorem collect {R : σ → σ → Prop} (hrefl : ∀ s, R s s) (htrans : ∀ s t u, R s t → R t u → R s u)
    {I : σ → Prop} (hI : ∀ s t, R s t → I s → I t) {P : β → α → σ → Prop}
    (hmono : ∀ b a s t, R s t → P b a s → P b a t) {f : β → EStateM Fault σ α}
    {loop : List α → List β → EStateM Fault σ (List α)}
    (hnil : ∀ done, loop done [] = Pure.pure done.reverse)
    (hcons : ∀ done b rest, loop done (b :: rest) = f b >>= fun a => loop (a :: done) rest)
    {items : List β}
    (hf : ∀ b ∈ items, ∀ s, I s → Leads (f b) s (fun a t => R s t ∧ P b a t) (R s))
    (done : List α) (hs : I s) :
    Leads (loop done items) s
      (fun results t => R s t ∧ ∃ new, results = done.reverse ++ new ∧
        List.Forall₂ (fun b a => P b a t) items new) (R s) := by
  induction items generalizing done s with
  | nil =>
    rw [hnil]
    exact of_ok rfl ⟨hrefl s, [], (List.append_nil _).symm, .nil⟩
  | cons b rest ih =>
    rw [hcons]
    refine bind_along htrans (hf b List.mem_cons_self s hs) fun a t hst ha => ?_
    have hrest := ih (fun c hc => hf c (List.mem_cons_of_mem _ hc)) (a :: done) (hI s t hst hs)
    refine hrest.mono (fun results u hu => ?_) fun _ hu => hu
    obtain ⟨htu, new, rfl, hnew⟩ := hu
    exact ⟨htu, a :: new, by simp, .cons (hmono b a t u htu ha) hnew⟩

/-- What holds at both ends holds of the state that `x` leaves. -/
theorem after (h : Leads x s (fun _ => E) E) : E (after x s) := by
  unfold Leads at h
  cases hx : x s with
  | ok a t => rw [hx] at h; rwa [after_of_ok hx]
  | error fault t => rw [hx] at h; rwa [after_of_error hx]

/-- What holds on success holds of the result `a` of a computation that succeeds. -/
theorem ok {a : α} {t : σ} (h : Leads x s P E) (hx : x s = .ok a t) : P a t := by
  unfold Leads at h
  rwa [hx] at h

theorem error {fault : Fault} {t : σ} (h : Leads x s P E) (hx : x s = .error fault t) : E t := by
  unfold Leads at h
  rwa [hx] at h

end Leads

/-! ### Computations that succeed -/

/-- From the state `s` the computation `x` succeeds, with a result and a state that satisfy `P`. -/
def Succeeds (x : EStateM Fault σ α) (s : σ) (P : α → σ → Prop) : Prop :=
  ∃ a t, x s = .ok a t ∧ P a t

theorem leads_iff_succeeds {x : EStateM Fault σ α} {s : σ} {P : α → σ → Prop} :
    (Leads x s P fun _ => False) ↔ Succeeds x s P := by
  unfold Leads Succeeds
  cases x s <;> simp

instance (x : EStateM Fault σ α) (s : σ) (P : α → σ → Prop) [∀ a t, Decidable (P a t)] :
    Decidable (Succeeds x s P) :=
  decidable_of_iff (Leads x s P fun _ => False) leads_iff_succeeds

namespace Succeeds

variable {x : EStateM Fault σ α} {k : α → EStateM Fault σ β} {s : σ} {P : α → σ → Prop}
  {Q : β → σ → Prop}

theorem pure {a : α} (h : P a s) : Succeeds (Pure.pure a : EStateM Fault σ α) s P :=
  ⟨a, s, rfl, h⟩

/-- What follows may use how the first computation `x` has ended. -/
theorem bind (hx : Succeeds x s P)
    (hk : ∀ a t, x s = .ok a t → P a t → Succeeds (k a) t Q) : Succeeds (x >>= k) s Q := by
  obtain ⟨a, t, hrun, hP⟩ := hx
  obtain ⟨b, u, hrun', hQ⟩ := hk a t hrun hP
  refine ⟨b, u, ?_, hQ⟩
  rw [bind_of_ok hrun, hrun']

theorem mono {P' : α → σ → Prop} (hx : Succeeds x s P) (h : ∀ a t, P a t → P' a t) :
    Succeeds x s P' := by
  obtain ⟨a, t, hrun, hP⟩ := hx
  exact ⟨a, t, hrun, h a t hP⟩

end Succeeds

/-! ### Brackets -/

/-- The computations `first` and `second` move along `R` as a whole when what is done between them
moves along it.  The `second` may use what the `first` has reserved. -/
def Bracket (R : σ → σ → Prop) (first : EStateM Fault σ α) (second : α → EStateM Fault σ β) :
    Prop :=
  ∀ s, R s (after first s) ∧
    ∀ a t, first s = .ok a t → ∀ u, R t u → R s (after (second a) u)

theorem Bracket.of_moves {R : σ → σ → Prop} (htrans : ∀ s t u, R s t → R t u → R s u)
    {first : EStateM Fault σ α} {second : α → EStateM Fault σ β} (hfirst : Moves R first)
    (hsecond : ∀ a, Moves R (second a)) : Bracket R first second := by
  intro s
  refine ⟨hfirst s, fun a t h u htu => ?_⟩
  have hst := hfirst s
  rw [after_of_ok h] at hst
  exact htrans _ _ _ (htrans _ _ _ hst htu) (hsecond a u)

/-- The computations `first`, `second` and `third` move along `R` as a whole when what is done in
the two gaps between them moves along it. -/
def DoubleBracket (R : σ → σ → Prop) (first : EStateM Fault σ α)
    (second : α → EStateM Fault σ β) (third : α → EStateM Fault σ γ) : Prop :=
  ∀ s, R s (after first s) ∧
    ∀ a t, first s = .ok a t → ∀ u, R t u → R s (after (second a) u) ∧
      ∀ b v, second a u = .ok b v → ∀ w, R v w → R s (after (third a) w)

theorem DoubleBracket.of_moves {R : σ → σ → Prop} (htrans : ∀ s t u, R s t → R t u → R s u)
    {first : EStateM Fault σ α} {second : α → EStateM Fault σ β} {third : α → EStateM Fault σ γ}
    (hfirst : Moves R first) (hsecond : ∀ a, Moves R (second a))
    (hthird : ∀ a, Moves R (third a)) : DoubleBracket R first second third := by
  intro s
  refine ⟨hfirst s, fun a t h u htu => ?_⟩
  have hsu := (Bracket.of_moves htrans hfirst hsecond s).2 a t h u htu
  refine ⟨hsu, fun b v hv w hvw => ?_⟩
  rw [after_of_ok hv] at hsu
  exact htrans _ _ _ (htrans _ _ _ hsu hvw) (hthird a w)

end SpirvBinary
