import Mathlib.Logic.Basic

/-!
# Runs of a labelled transition relation

A concurrent program is a relation `step s l t`: from the state `s` some
goroutine, caller or outside party performs the action labelled `l` and leaves
the state `t`.  A run is any finite sequence of such steps, so a schedule is
nothing but a choice of steps.  `Reach` restricts runs by a predicate
`allowed` on the state before a step and its label; a fault assumption ("a
store call that returns an error had no effect") is such a predicate.

Every safety result of the development is an instance of `Reach.invariant`,
every statement of the form "and it stays so" is an instance of
`Reach.preorder`, that an end can be reached is an instance of
`Reach.exists_final`, and a system that contains another one inherits its results
through `Reach.simulation`.
-/

namespace LabelledRuns

universe u v

variable {σ : Type u} {ℓ : Type v}

/-- The states reached from `s` by steps that `allowed` admits. -/
inductive Reach (step : σ → ℓ → σ → Prop) (allowed : σ → ℓ → Prop) (s : σ) : σ → Prop
  | refl : Reach step allowed s s
  | tail {t u : σ} {l : ℓ} (before : Reach step allowed s t)
      (admitted : allowed t l) (last : step t l u) : Reach step allowed s u

variable {step : σ → ℓ → σ → Prop} {allowed allowed' : σ → ℓ → Prop} {s t u : σ}

/-- Runs compose. -/
theorem Reach.trans (hst : Reach step allowed s t) (htu : Reach step allowed t u) :
    Reach step allowed s u := by
  induction htu with
  | refl => exact hst
  | tail _ admitted last ih => exact ih.tail admitted last

/-- A run that keeps a stricter discipline keeps a laxer one. -/
theorem Reach.mono (hsub : ∀ x l, allowed x l → allowed' x l)
    (h : Reach step allowed s t) : Reach step allowed' s t := by
  induction h with
  | refl => exact .refl
  | tail _ admitted last ih => exact ih.tail (hsub _ _ admitted) last

/-- **Invariant rule.**  What holds at the start and is kept by every admitted
step holds in every state reached. -/
theorem Reach.invariant {P : σ → Prop} (hinit : P s)
    (hstep : ∀ x l y, P x → allowed x l → step x l y → P y)
    (h : Reach step allowed s t) : P t := by
  induction h with
  | refl => exact hinit
  | tail _ admitted last ih => exact hstep _ _ _ ih admitted last

/-- **Monotonicity rule.**  A preorder that contains every step contains every
run. -/
theorem Reach.preorder {R : σ → σ → Prop} (hrefl : ∀ x, R x x)
    (htrans : ∀ x y z, R x y → R y z → R x z)
    (hstep : ∀ x l y, step x l y → R x y)
    (h : Reach step allowed s t) : R s t := by
  induction h with
  | refl => exact hrefl s
  | tail _ _ last ih => exact htrans _ _ _ ih (hstep _ _ _ last)

/-- A run stays within what every admitted step keeps. -/
theorem Reach.within {P : σ → Prop} (hinit : P s)
    (hstep : ∀ x l y, P x → allowed x l → step x l y → P y)
    (h : Reach step allowed s t) : Reach step (fun x l => allowed x l ∧ P x) s t := by
  induction h with
  | refl => exact .refl
  | tail before admitted last ih => exact ih.tail ⟨admitted, before.invariant hinit hstep⟩ last

/-- A quantity that no step lowers is, along a run, at most what it is in the end. -/
theorem Reach.bounded (m : σ → Nat) (hstep : ∀ x l y, step x l y → m x ≤ m y)
    (h : Reach step allowed s t) : Reach step (fun x l => allowed x l ∧ m x ≤ m t) s t := by
  induction h with
  | refl => exact .refl
  | tail _ admitted last ih =>
      have hle := hstep _ _ _ last
      exact (ih.mono fun x l hx => ⟨hx.1, Nat.le_trans hx.2 hle⟩).tail ⟨admitted, hle⟩ last

/-- **Simulation rule.**  If every step of a run is, seen through `view`, nothing or a
step of another relation, then the run is a run of that relation. -/
theorem Reach.simulation {τ : Type u} {ℓ' : Type v} {step' : τ → ℓ' → τ → Prop} (view : σ → τ)
    (hstep : ∀ x l y, allowed x l → step x l y →
      view y = view x ∨ ∃ l', step' (view x) l' (view y))
    (h : Reach step allowed s t) : Reach step' (fun _ _ => True) (view s) (view t) := by
  induction h with
  | refl => exact .refl
  | tail _ admitted last ih =>
      rcases hstep _ _ _ admitted last with heq | ⟨l', hl'⟩
      · rw [heq]
        exact ih
      · exact ih.tail trivial hl'

/-- **Progress rule.**  If every state with `P` that is not final has an admitted
step to a state with `P` and a smaller potential, a final state can be reached. -/
theorem Reach.exists_final {P final : σ → Prop} (potential : σ → Nat)
    (hstep : ∀ x, P x → ¬ final x →
      ∃ l y, allowed x l ∧ step x l y ∧ P y ∧ potential y < potential x)
    (hs : P s) : ∃ t, Reach step allowed s t ∧ P t ∧ final t := by
  induction hn : potential s using Nat.strongRecOn generalizing s with
  | ind n ih =>
      by_cases hfinal : final s
      · exact ⟨s, .refl, hs, hfinal⟩
      · obtain ⟨l, y, hadmitted, hlast, hy, hless⟩ := hstep s hs hfinal
        obtain ⟨t, hrun, ht⟩ := ih _ (hn ▸ hless) hy rfl
        exact ⟨t, (Reach.refl.tail hadmitted hlast).trans hrun, ht⟩

/-- **Termination rule.**  If every admitted step from a state with `P` keeps `P` and
lowers the potential, no sequence of states is a run without end. -/
theorem not_endless {P : σ → Prop} (potential : σ → Nat)
    (hkeep : ∀ x l y, P x → allowed x l → step x l y → P y)
    (hless : ∀ x l y, P x → allowed x l → step x l y → potential y < potential x)
    (f : Nat → σ) (hstart : P (f 0)) :
    ¬ ∀ k, ∃ l, allowed (f k) l ∧ step (f k) l (f (k + 1)) := by
  intro hsteps
  have hpays : ∀ k, P (f k) ∧ potential (f k) + k ≤ potential (f 0) := by
    intro k
    induction k with
    | zero => exact ⟨hstart, Nat.le_refl _⟩
    | succ k ih =>
        obtain ⟨l, hadmitted, hstep⟩ := hsteps k
        have hlow := hless _ _ _ ih.1 hadmitted hstep
        exact ⟨hkeep _ _ _ ih.1 hadmitted hstep, by omega⟩
  have hover := (hpays (potential (f 0) + 1)).2
  omega

end LabelledRuns
