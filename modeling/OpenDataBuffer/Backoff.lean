import Mathlib.Tactic.Linarith
import Mathlib.Tactic.Ring

/-!
# Waiting between attempts

An upload or a manifest commit that failed is tried again after a wait that
doubles with every attempt, up to ten seconds.  A `time.Duration` is a number of
nanoseconds in an `int64`, and Go's multiplication wraps around; `Int64` does the
same here.

The loop doubles only what is below the bound, so a product never reaches twice
the bound and the wrap-around never happens.  `min_doubleBackoff` is the loop in
exact arithmetic, and `backoffFor_toInt` the function.
-/

namespace OpenDataBuffer

/-- `time.Duration`. -/
abbrev Duration := Int64

def Millisecond : Duration := 1000000

def Second : Duration := 1000000000

def DefaultUploadInitialBackoff : Duration := 100 * Millisecond

def DefaultManifestInitialBackoff : Duration := 100 * Millisecond

def maxBackoff : Duration := 10 * Second

/-- The loop of `backoffFor`, with that many rounds left. -/
def doubleBackoff : Nat → Duration → Duration
  | 0, d => d
  | n + 1, d => if d < maxBackoff then doubleBackoff n (d * 2) else d

def backoffFor (attempt : Nat) (initial : Duration) : Duration :=
  let d := doubleBackoff attempt initial
  if maxBackoff < d then maxBackoff else d

/-- A configured first wait, or the default where it is not positive. -/
def initialBackoff (configured default : Duration) : Duration :=
  if configured ≤ 0 then default else configured

def uploadInitialBackoff (configured : Duration) : Duration :=
  initialBackoff configured DefaultUploadInitialBackoff

def manifestInitialBackoff (configured : Duration) : Duration :=
  initialBackoff configured DefaultManifestInitialBackoff

/-- A backoff that is not set, or is negative, is replaced by its default. -/
theorem initialBackoff_pos {configured default : Duration} (h : 0 < default) :
    0 < initialBackoff configured default := by
  unfold initialBackoff
  by_cases hc : configured ≤ 0
  · rwa [if_pos hc]
  · rw [if_neg hc]
    exact Int64.not_le.mp hc

theorem maxBackoff_toInt : maxBackoff.toInt = 10 ^ 10 := by decide

/-- A wait below the bound doubles without wrap-around. -/
theorem double_exact {d : Duration} (hpos : 0 < d) (hlt : d < maxBackoff) :
    (d * 2).toInt = d.toInt * 2 := by
  have hlow : (0 : Int) < d.toInt := Int64.lt_iff_toInt_lt.mp hpos
  have hhigh : d.toInt < 10 ^ 10 := maxBackoff_toInt ▸ Int64.lt_iff_toInt_lt.mp hlt
  have htwo : (2 : Int64).toInt = 2 := by decide
  rw [Int64.toInt_mul, htwo]
  exact Int.bmod_eq_of_le (by omega) (by omega)

/-- Below the cap a backoff is doubled without overflow. -/
theorem double_pos {d : Duration} (hpos : 0 < d) (hlt : d < maxBackoff) : 0 < d * 2 := by
  have hlow : (0 : Int) < d.toInt := Int64.lt_iff_toInt_lt.mp hpos
  apply Int64.lt_iff_toInt_lt.mpr
  rw [double_exact hpos hlt]
  show (0 : Int) < d.toInt * 2
  omega

/-- Doubling keeps a backoff positive. -/
theorem doubleBackoff_pos (n : Nat) {d : Duration} (hpos : 0 < d) : 0 < doubleBackoff n d := by
  induction n generalizing d with
  | zero => exact hpos
  | succ n ih =>
      unfold doubleBackoff
      by_cases hlt : d < maxBackoff
      · rw [if_pos hlt]
        exact ih (double_pos hpos hlt)
      · rwa [if_neg hlt]

/-- One more round works on what the rounds before it left. -/
theorem doubleBackoff_succ (n : Nat) (d : Duration) :
    doubleBackoff (n + 1) d =
      if doubleBackoff n d < maxBackoff then doubleBackoff n d * 2 else doubleBackoff n d := by
  induction n generalizing d with
  | zero => rfl
  | succ n ih =>
      by_cases hlt : d < maxBackoff
      · have hround : ∀ k, doubleBackoff (k + 1) d = doubleBackoff k (d * 2) := fun k =>
          if_pos hlt
        rw [hround, hround, ih]
      · have hround : ∀ k, doubleBackoff (k + 1) d = d := fun k => if_neg hlt
        rw [hround, hround, if_neg hlt]

/-- Up to the bound, the loop computes the product. -/
theorem min_doubleBackoff (n : Nat) {d : Duration} (hpos : 0 < d) :
    min (10 ^ 10) (doubleBackoff n d).toInt = min (10 ^ 10) (d.toInt * 2 ^ n) := by
  induction n generalizing d with
  | zero => simp [doubleBackoff]
  | succ n ih =>
      unfold doubleBackoff
      by_cases hlt : d < maxBackoff
      · rw [if_pos hlt, ih (double_pos hpos hlt), double_exact hpos hlt]
        congr 1
        ring
      · rw [if_neg hlt]
        have hge : (10 : Int) ^ 10 ≤ d.toInt :=
          maxBackoff_toInt ▸ Int64.le_iff_toInt_le.mp (Int64.not_lt.mp hlt)
        have hgrow : d.toInt ≤ d.toInt * 2 ^ (n + 1) :=
          le_mul_of_one_le_right (by omega) (one_le_pow₀ (by decide))
        rw [min_eq_left hge, min_eq_left (hge.trans hgrow)]

/-- The wait in exact arithmetic. -/
theorem backoffFor_toInt (attempt : Nat) {initial : Duration} (hpos : 0 < initial) :
    (backoffFor attempt initial).toInt = min (10 ^ 10) (initial.toInt * 2 ^ attempt) := by
  rw [← min_doubleBackoff attempt hpos]
  unfold backoffFor
  by_cases hcap : maxBackoff < doubleBackoff attempt initial
  · have hle : (10 : Int) ^ 10 ≤ (doubleBackoff attempt initial).toInt :=
      maxBackoff_toInt ▸ (Int64.lt_iff_toInt_lt.mp hcap).le
    rw [if_pos hcap, maxBackoff_toInt, min_eq_left hle]
  · have hle : (doubleBackoff attempt initial).toInt ≤ 10 ^ 10 :=
      maxBackoff_toInt ▸ Int64.le_iff_toInt_le.mp (Int64.not_lt.mp hcap)
    rw [if_neg hcap, min_eq_right hle]

/-- Backoffs compare as their capped powers do. -/
theorem backoffFor_le_iff {a b : Nat} {d e : Duration} (hd : 0 < d) (he : 0 < e) :
    backoffFor a d ≤ backoffFor b e ↔
      min (10 ^ 10) (d.toInt * 2 ^ a) ≤ min (10 ^ 10) (e.toInt * 2 ^ b) := by
  rw [Int64.le_iff_toInt_le, backoffFor_toInt a hd, backoffFor_toInt b he]

/-- **The wait is the capped product.**  It is the smaller of ten seconds and
the first wait doubled once per attempt, no doubling in the loop wraps around,
it is positive and bounded, and it grows with the attempt and with the first
wait.  The first waits the producer works with are positive. -/
theorem backoffFor_capped_doubling (attempt : Nat) {initial : Duration} (hpos : 0 < initial) :
    (backoffFor attempt initial).toInt = min (10 ^ 10) (initial.toInt * 2 ^ attempt) ∧
    (∀ i, doubleBackoff i initial < maxBackoff →
      doubleBackoff (i + 1) initial = doubleBackoff i initial * 2 ∧
        (doubleBackoff i initial * 2).toInt = (doubleBackoff i initial).toInt * 2) ∧
    (0 < backoffFor attempt initial ∧ backoffFor attempt initial ≤ maxBackoff) ∧
    (∀ later, attempt ≤ later → backoffFor attempt initial ≤ backoffFor later initial) ∧
    (∀ larger, initial ≤ larger → backoffFor attempt initial ≤ backoffFor attempt larger) ∧
    ∀ configured, 0 < uploadInitialBackoff configured ∧ 0 < manifestInitialBackoff configured := by
  have hvalue := backoffFor_toInt attempt hpos
  have hinitial : (0 : Int) < initial.toInt := Int64.lt_iff_toInt_lt.mp hpos
  refine ⟨hvalue, ?_, ⟨?_, ?_⟩, ?_, ?_, ?_⟩
  · intro i hlt
    rw [doubleBackoff_succ, if_pos hlt]
    exact ⟨rfl, double_exact (doubleBackoff_pos i hpos) hlt⟩
  · apply Int64.lt_iff_toInt_lt.mpr
    rw [hvalue]
    exact lt_min (by decide) (by positivity)
  · apply Int64.le_iff_toInt_le.mpr
    rw [hvalue, maxBackoff_toInt]
    exact min_le_left _ _
  · intro later hle
    rw [backoffFor_le_iff hpos hpos]
    gcongr
    decide
  · intro larger hle
    have hlarger : initial.toInt ≤ larger.toInt := Int64.le_iff_toInt_le.mp hle
    rw [backoffFor_le_iff hpos (Int64.lt_of_lt_of_le hpos hle)]
    gcongr
  · intro configured
    exact ⟨initialBackoff_pos (by decide), initialBackoff_pos (by decide)⟩

/-- The default first wait on the seventh attempt: 6.4 seconds; on the eighth
the bound. -/
theorem backoffFor_capped_doubling_default :
    (backoffFor 6 DefaultUploadInitialBackoff).toInt = 6400000000 ∧
      (backoffFor 7 DefaultUploadInitialBackoff).toInt = 10 ^ 10 :=
  ⟨(backoffFor_capped_doubling 6 (by decide)).1.trans (by decide),
    (backoffFor_capped_doubling 7 (by decide)).1.trans (by decide)⟩

end OpenDataBuffer
