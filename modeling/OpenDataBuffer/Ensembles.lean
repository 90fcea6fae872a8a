import Mathlib.Algebra.BigOperators.Group.Finset.Basic
import Mathlib.Algebra.GroupWithZero.Nat
import Mathlib.Algebra.Order.BigOperators.Group.Finset
import Mathlib.Tactic.Choose
import OpenDataBuffer.LabelledRuns

/-!
# Processes side by side

Some processes share a part of their states, a store for example.  Every member
has a state of its own, with the shared part in it.  One member moves at a time;
the others stay where they are and see what became of the shared part.

`sees t x y` says that a member which was in state `x` is in state `y` after
another one came to `t`.
-/

namespace Ensembles

open LabelledRuns

universe u v w

variable {ι : Type u} {σ : Type v} {ℓ : Type w}

/-- Member `i` moves. -/
inductive MemberStep (step : ι → σ → ℓ → σ → Prop) (sees : σ → σ → σ → Prop) (S : ι → σ) :
    ι × ℓ → (ι → σ) → Prop
  | moves {i : ι} {l : ℓ} {T : ι → σ} (hstep : step i (S i) l (T i))
      (hothers : ∀ j, j ≠ i → sees (T i) (S j) (T j)) : MemberStep step sees S (i, l) T

/-- The runs of the members side by side. -/
abbrev EnsembleRun (step : ι → σ → ℓ → σ → Prop) (sees : σ → σ → σ → Prop) (S T : ι → σ) : Prop :=
  Reach (MemberStep step sees) (fun _ _ => True) S T

variable {step : ι → σ → ℓ → σ → Prop} {sees : σ → σ → σ → Prop} {S T : ι → σ}

/-- The member that moved and the others are all members. -/
theorem all_members {P : ι → σ → Prop} {i : ι} (hmoved : P i (T i))
    (hothers : ∀ j, j ≠ i → P j (T j)) (j : ι) : P j (T j) := by
  by_cases hj : j = i
  · rw [hj]
    exact hmoved
  · exact hothers j hj

/-- **Invariants of members.**  What a member keeps by its own steps, and does not
lose by what it sees of the others, it keeps in the company of the others. -/
theorem EnsembleRun.invariant {P : ι → σ → Prop} (hinit : ∀ i, P i (S i))
    (hstep : ∀ i x l y, P i x → step i x l y → P i y)
    (hsees : ∀ i t x y, P i x → sees t x y → P i y)
    (h : EnsembleRun step sees S T) (i : ι) : P i (T i) := by
  have hall : ∀ i, P i (T i) := by
    refine Reach.invariant (P := fun X => ∀ i, P i (X i)) hinit ?_ h
    rintro X l Y hX - ⟨hmoves, hothers⟩ j
    rename_i i l
    by_cases hj : j = i
    · subst hj
      exact hstep j _ _ _ (hX j) hmoves
    · exact hsees j _ _ _ (hX j) (hothers j hj)
  exact hall i

/-- A member can run while the others rest and keep what they see nothing against. -/
theorem EnsembleRun.of_member_keeping (hsees : ∀ t x, ∃ y, sees t x y) {allowed : σ → ℓ → Prop}
    {P : ι → σ → Prop} (hkeep : ∀ j t x y, P j x → sees t x y → P j y) {i : ι} {t : σ}
    (hrest : ∀ j, j ≠ i → P j (S j)) (h : Reach (step i) allowed (S i) t) :
    ∃ T, EnsembleRun step sees S T ∧ T i = t ∧ ∀ j, j ≠ i → P j (T j) := by
  induction h with
  | refl => exact ⟨S, .refl, rfl, hrest⟩
  | @tail x y l before admitted last ih =>
      obtain ⟨X, hX, rfl, hkept⟩ := ih
      choose view hview using hsees y
      classical
      refine ⟨fun j => if j = i then y else view (X j), hX.tail trivial (l := (i, l)) ?_,
        if_pos rfl, fun j hj => ?_⟩
      · constructor
        · simpa using last
        · intro j hj
          simpa [hj] using hview (X j)
      · simpa [hj] using hkeep j y (X j) _ (hkept j hj) (hview (X j))

/-- A member can run while the others rest. -/
theorem EnsembleRun.of_member (hsees : ∀ t x, ∃ y, sees t x y) {allowed : σ → ℓ → Prop} {i : ι}
    {t : σ} (h : Reach (step i) allowed (S i) t) : ∃ T, EnsembleRun step sees S T ∧ T i = t := by
  obtain ⟨T, hT, ht, -⟩ := EnsembleRun.of_member_keeping (P := fun _ _ => True) hsees
    (fun _ _ _ _ _ _ => trivial) (fun _ _ => trivial) h
  exact ⟨T, hT, ht⟩

/-- **Potentials of members.**  A member that moves and pays for what its step costs
each of the others lowers the sum of the potentials. -/
theorem potential_decreases [Fintype ι] (potential : ι → σ → Nat) (cost : Nat) {i : ι}
    (hmoved : potential i (T i) + cost * Fintype.card ι < potential i (S i))
    (hothers : ∀ j, j ≠ i → potential j (T j) ≤ potential j (S j) + cost) :
    ∑ j, potential j (T j) < ∑ j, potential j (S j) := by
  classical
  have hrest : ∑ j ∈ Finset.univ.erase i, potential j (T j) ≤
      ∑ j ∈ Finset.univ.erase i, potential j (S j) + cost * Fintype.card ι :=
    calc ∑ j ∈ Finset.univ.erase i, potential j (T j)
        ≤ ∑ j ∈ Finset.univ.erase i, (potential j (S j) + cost) :=
          Finset.sum_le_sum fun j hj => hothers j (Finset.ne_of_mem_erase hj)
      _ = ∑ j ∈ Finset.univ.erase i, potential j (S j) + (Finset.univ.erase i).card * cost := by
          rw [Finset.sum_add_distrib, Finset.sum_const_nat fun _ _ => rfl]
      _ ≤ ∑ j ∈ Finset.univ.erase i, potential j (S j) + cost * Fintype.card ι := by
          rw [Nat.mul_comm cost]
          exact Nat.add_le_add_left (Nat.mul_le_mul_right _ (Finset.card_le_univ _)) _
  rw [← Finset.add_sum_erase _ _ (Finset.mem_univ i),
    ← Finset.add_sum_erase _ _ (Finset.mem_univ i)]
  omega

end Ensembles
