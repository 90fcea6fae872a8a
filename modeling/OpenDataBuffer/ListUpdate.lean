import Mathlib.Algebra.BigOperators.Group.Multiset.Basic
import Mathlib.Algebra.GroupWithZero.Nat

/-!
# Lists as pools of processes

A pool of identical processes is a list of their states; a process is named by
its position.  One process moves by `List.set`, a new one arrives at the end.
The lemmas say what is found at a position afterwards, and how a quantity
summed over the pool changes.
-/

namespace ListUpdate

universe u v

variable {α : Type u} {M : Type v}

/-- Reading a list back after one position was replaced. -/
theorem getElem?_set_cases {l : List α} {i j : Nat} {a b : α}
    (h : (l.set i a)[j]? = some b) : (j = i ∧ b = a) ∨ (j ≠ i ∧ l[j]? = some b) := by
  by_cases hij : i = j
  · subst hij
    rw [List.getElem?_set_self'] at h
    cases hl : l[i]? with
    | none => simp [hl] at h
    | some x => simp [hl] at h; exact Or.inl ⟨rfl, h.symm⟩
  · rw [List.getElem?_set_ne hij] at h
    exact Or.inr ⟨fun hji => hij hji.symm, h⟩

/-- Reading a list back after one element was appended. -/
theorem getElem?_concat_cases {l : List α} {j : Nat} {a b : α}
    (h : (l ++ [a])[j]? = some b) : (j = l.length ∧ b = a) ∨ l[j]? = some b := by
  by_cases hj : j < l.length
  · rw [List.getElem?_append_left hj] at h
    exact Or.inr h
  · rw [List.getElem?_append_right (Nat.le_of_not_lt hj)] at h
    cases hd : j - l.length with
    | zero => simp [hd] at h; exact Or.inl ⟨by omega, h.symm⟩
    | succ d => simp [hd] at h

/-- The position that was replaced. -/
theorem getElem?_set_same {l : List α} {i : Nat} {a b : α} (h : l[i]? = some a) :
    (l.set i b)[i]? = some b := by
  have hi : i < l.length := (List.getElem?_eq_some_iff.mp h).1
  exact List.getElem?_set_self hi

/-- What some process has after one moved. -/
theorem exists_mem_set {P : α → Prop} {l : List α} {i : Nat} {a : α}
    (h : ∃ x ∈ l.set i a, P x) : (∃ x ∈ l, P x) ∨ P a := by
  obtain ⟨x, hx, hP⟩ := h
  rcases List.mem_or_eq_of_mem_set hx with hold | rfl
  · exact Or.inl ⟨x, hold, hP⟩
  · exact Or.inr hP

/-- A sum over a pool, split at the process that moves: the rest is the same
whatever that process becomes. -/
theorem sum_map_set [AddCommMonoid M] (f : α → M) {l : List α} {i : Nat} {a : α}
    (h : l[i]? = some a) :
    ∃ rest, (l.map f).sum = f a + rest ∧ ∀ b, ((l.set i b).map f).sum = f b + rest := by
  induction l generalizing i with
  | nil => simp at h
  | cons x xs ih =>
      cases i with
      | zero =>
          have hx : x = a := by simpa using h
          subst hx
          exact ⟨(xs.map f).sum, by simp, fun b => by simp⟩
      | succ i =>
          have htail : xs[i]? = some a := by simpa using h
          obtain ⟨rest, hsum, hset⟩ := ih htail
          refine ⟨f x + rest, ?_, fun b => ?_⟩
          · rw [List.map_cons, List.sum_cons, hsum, add_left_comm]
          · rw [List.set_cons_succ, List.map_cons, List.sum_cons, hset, add_left_comm]

/-- The same without the rest, for quantities that cancel. -/
theorem sum_map_set_add [AddCommMonoid M] (f : α → M) {l : List α} {i : Nat} {a b : α}
    (h : l[i]? = some a) : ((l.set i b).map f).sum + f a = (l.map f).sum + f b := by
  obtain ⟨rest, hsum, hset⟩ := sum_map_set f h
  rw [hsum, hset, add_right_comm, add_right_comm (f a), add_comm (f b)]

/-- If no share grows by more than `c`, the sum grows by at most `c` for each process. -/
theorem sum_map_le_add {f g : α → Nat} {c : Nat} (h : ∀ a, f a ≤ g a + c) (l : List α) :
    (l.map f).sum ≤ (l.map g).sum + c * l.length := by
  induction l with
  | nil => simp
  | cons x xs ih =>
      have hx := h x
      rw [List.map_cons, List.sum_cons, List.map_cons, List.sum_cons, List.length_cons,
        Nat.mul_succ]
      omega

/-- A process that moves without changing its share leaves the sum alone. -/
theorem sum_map_set_eq [AddCommMonoid M] (f : α → M) {l : List α} {i : Nat} {a b : α}
    (h : l[i]? = some a) (hf : f b = f a) : ((l.set i b).map f).sum = (l.map f).sum := by
  obtain ⟨rest, hsum, hset⟩ := sum_map_set f h
  rw [hset, hsum, hf]

/-- What a pool holds, one of its processes holds. -/
theorem exists_of_mem_sum {β : Type v} {f : α → Multiset β} {l : List α} {b : β}
    (h : b ∈ (l.map f).sum) : ∃ (i : Nat) (x : α), l[i]? = some x ∧ b ∈ f x := by
  induction l with
  | nil => simp at h
  | cons x xs ih =>
      rw [List.map_cons, List.sum_cons] at h
      rcases Multiset.mem_add.mp h with hhead | htail
      · exact ⟨0, x, rfl, hhead⟩
      · obtain ⟨i, y, hy, hb⟩ := ih htail
        exact ⟨i + 1, y, hy, hb⟩

theorem mem_sum_of_getElem? {β : Type v} {f : α → Multiset β} {l : List α} {i : Nat} {x : α}
    {b : β} (hx : l[i]? = some x) (hb : b ∈ f x) : b ∈ (l.map f).sum := by
  obtain ⟨rest, hsum, -⟩ := sum_map_set f hx
  rw [hsum]
  exact Multiset.mem_add.mpr (Or.inl hb)

/-- What a pool holds once, only one of its processes holds. -/
theorem index_unique {β : Type v} {f : α → Multiset β} {l : List α}
    (hnodup : (l.map f).sum.Nodup) {i j : Nat} {x y : α} {b : β} (hx : l[i]? = some x)
    (hy : l[j]? = some y) (hbx : b ∈ f x) (hby : b ∈ f y) : i = j := by
  induction l generalizing i j with
  | nil => simp at hx
  | cons z zs ih =>
      rw [List.map_cons, List.sum_cons, Multiset.nodup_add] at hnodup
      obtain ⟨-, htail, hdisjoint⟩ := hnodup
      cases i with
      | zero =>
          cases j with
          | zero => rfl
          | succ j =>
              obtain rfl : z = x := by simpa using hx
              have hrest := mem_sum_of_getElem? (l := zs) (i := j) (by simpa using hy) hby
              exact absurd hrest (Multiset.disjoint_left.mp hdisjoint hbx)
      | succ i =>
          have hi : zs[i]? = some x := by simpa using hx
          cases j with
          | zero =>
              obtain rfl : z = y := by simpa using hy
              have hrest := mem_sum_of_getElem? hi hbx
              exact absurd hrest (Multiset.disjoint_left.mp hdisjoint hby)
          | succ j =>
              have hj : zs[j]? = some y := by simpa using hy
              rw [ih htail hi hj]

/-- Processes without a share sum up to nothing. -/
theorem sum_map_eq_zero [AddCommMonoid M] {f : α → M} {l : List α} (h : ∀ x ∈ l, f x = 0) :
    (l.map f).sum = 0 :=
  List.sum_eq_zero (by simpa using h)

end ListUpdate
