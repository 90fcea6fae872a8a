/-!
# Blocks of a concatenation, recovered from their first positions

Blocks laid out one behind the other are known from their first positions: the
piece between two of them is a block, and the last piece runs to the end.
-/

namespace Pieces

universe u

variable {α : Type u}

/-- The first positions of blocks laid out from position `n` on. -/
def startsFrom (n : Nat) : List (List α) → List Nat
  | [] => []
  | block :: rest => n :: startsFrom (n + block.length) rest

/-- The pieces of a list between the given positions. -/
def cutAt (xs : List α) : List Nat → List (List α)
  | [] => []
  | [s] => [xs.drop s]
  | s :: s' :: rest => (xs.take s').drop s :: cutAt xs (s' :: rest)

/-- Another block behind the blocks laid out so far. -/
theorem startsFrom_concat (n : Nat) (blocks : List (List α)) (block : List α) :
    startsFrom n (blocks ++ [block]) = startsFrom n blocks ++ [n + blocks.flatten.length] := by
  induction blocks generalizing n with
  | nil => simp [startsFrom]
  | cons first rest ih =>
      simp only [List.cons_append, startsFrom, ih, List.flatten_cons, List.length_append,
        Nat.add_assoc]

/-- Blocks start at the first index or behind it. -/
theorem le_of_mem_startsFrom {n s : Nat} {blocks : List (List α)} (h : s ∈ startsFrom n blocks) :
    n ≤ s := by
  induction blocks generalizing n with
  | nil => simp [startsFrom] at h
  | cons block rest ih =>
      rcases List.mem_cons.mp h with rfl | h
      · exact Nat.le_refl s
      · exact Nat.le_trans (Nat.le_add_right n _) (ih h)

/-- Blocks that are not empty start at increasing positions. -/
theorem startsFrom_increasing (n : Nat) {blocks : List (List α)} (h : ∀ b ∈ blocks, b ≠ []) :
    (startsFrom n blocks).Pairwise (· < ·) := by
  induction blocks generalizing n with
  | nil => exact List.Pairwise.nil
  | cons block rest ih =>
      have hpos : 0 < block.length := List.length_pos_iff.mpr (h block List.mem_cons_self)
      refine List.Pairwise.cons ?_ (ih _ fun b hb => h b (List.mem_cons_of_mem _ hb))
      intro s hs
      have hle := le_of_mem_startsFrom hs
      omega

/-- Cutting at the first positions gives the blocks back. -/
theorem cutAt_startsFrom (before : List α) (blocks : List (List α)) :
    cutAt (before ++ blocks.flatten) (startsFrom before.length blocks) = blocks := by
  induction blocks generalizing before with
  | nil => rfl
  | cons block rest ih =>
      cases rest with
      | nil => simp [startsFrom, cutAt]
      | cons next rest =>
          have hrest := ih (before ++ block)
          have hpiece : ((before ++ (block :: next :: rest).flatten).take
              (before.length + block.length)).drop before.length = block := by
            simp [List.take_append]
          simp only [startsFrom, cutAt, hpiece]
          simpa [startsFrom] using hrest

end Pieces
