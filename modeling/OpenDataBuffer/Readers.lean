/-!
# Rules for readers that can fail

A reader returns a value or an error.  `Meets allowed r post` says that the
value, if there is one, has a property, and that an error, if there is one, is
of an allowed kind.  The rules follow the ways readers are built: a value, one
reader after another, and a check that gives up.
-/

namespace Readers

universe u v w

variable {ε : Type u} {α : Type v} {β : Type v}

/-- The value returned satisfies `post`; an error returned is allowed. -/
def Meets (allowed : ε → Prop) (r : Except ε α) (post : α → Prop) : Prop :=
  match r with
  | .ok a => post a
  | .error e => allowed e

variable {allowed : ε → Prop} {r : Except ε α} {post : α → Prop}

theorem Meets.pure {a : α} (h : post a) : Meets allowed (Pure.pure a) post := h

/-- One reader after another. -/
theorem Meets.bind {f : α → Except ε β} {post' : β → Prop} (h : Meets allowed r post)
    (hf : ∀ a, post a → Meets allowed (f a) post') : Meets allowed (r >>= f) post' := by
  cases r with
  | ok a => exact hf a h
  | error e => exact h

/-- A check that gives up with an allowed error. -/
theorem Meets.check {c : Prop} [Decidable c] {e : ε} (he : allowed e)
    (h : ¬ c → Meets allowed r post) :
    Meets allowed (if c then .error e else r) post := by
  by_cases hc : c
  · rw [if_pos hc]
    exact he
  · rw [if_neg hc]
    exact h hc

/-- A reader meets what follows from what it meets. -/
theorem Meets.mono {post' : α → Prop} (h : Meets allowed r post) (hpost : ∀ a, post a → post' a) :
    Meets allowed r post' := by
  cases r with
  | ok a => exact hpost a h
  | error e => exact h

/-- What is known of a value that was returned. -/
theorem Meets.ok {a : α} (h : Meets allowed r post) (hr : r = .ok a) : post a := by
  subst hr
  exact h

/-- A reader that meets a specification returns an allowed error or a value. -/
theorem Meets.cases (h : Meets allowed r post) :
    (∃ e, r = .error e ∧ allowed e) ∨ ∃ a, r = .ok a ∧ post a := by
  cases r with
  | ok a => exact Or.inr ⟨a, rfl, h⟩
  | error e => exact Or.inl ⟨e, rfl, h⟩

end Readers
