import Mathlib.Tactic.Linarith
import Mathlib.Tactic.Ring

/-!
# Fixed-width little-endian fields and byte slices

A field of `w` bytes holds a natural number below `256 ^ w`, least significant
byte first.  `putLE w n` writes the field, dropping the bits that do not fit;
`getLE` reads one.  The two round trips are `getLE_putLE` and `putLE_getLE`.

`slice` is a bounds-checked half-open slice.  The framing lemmas at the end
say where the middle of a concatenation is found again.
-/

namespace LittleEndian

/-- The `w` little-endian bytes of `n`. -/
def putLE : Nat → Nat → List UInt8
  | 0, _ => []
  | w + 1, n => UInt8.ofNat (n % 256) :: putLE w (n / 256)

/-- The number whose little-endian bytes are given. -/
def getLE : List UInt8 → Nat
  | [] => 0
  | b :: bs => b.toNat + 256 * getLE bs

@[simp] theorem putLE_length (w n : Nat) : (putLE w n).length = w := by
  induction w generalizing n with
  | zero => rfl
  | succ w ih => simp [putLE, ih]

/-- Reading a written field gives the number back, reduced to the width. -/
theorem getLE_putLE_mod (w n : Nat) : getLE (putLE w n) = n % 256 ^ w := by
  induction w generalizing n with
  | zero => simp [putLE, getLE, Nat.mod_one]
  | succ w ih =>
      have hsplit : n % (256 * 256 ^ w) = n % 256 + 256 * (n / 256 % 256 ^ w) := Nat.mod_mul
      simp [putLE, getLE, ih, Nat.pow_succ', hsplit]

/-- Reading a written field gives the number back when it fits. -/
theorem getLE_putLE {w n : Nat} (h : n < 256 ^ w) : getLE (putLE w n) = n := by
  rw [getLE_putLE_mod, Nat.mod_eq_of_lt h]

theorem getLE_lt : ∀ bs : List UInt8, getLE bs < 256 ^ bs.length
  | [] => Nat.one_pos
  | b :: bs => by
      have hrest := getLE_lt bs
      have hbyte : b.toNat < 256 := b.toNat_lt
      simp only [getLE, List.length_cons, Nat.pow_succ]
      omega

/-- Writing a field that was read reproduces its bytes. -/
theorem putLE_getLE (bs : List UInt8) : putLE bs.length (getLE bs) = bs := by
  induction bs with
  | nil => rfl
  | cons b bs ih =>
      have hb : b.toNat < 256 := b.toNat_lt
      have hlow : (b.toNat + 256 * getLE bs) % 256 = b.toNat := by omega
      have hhigh : (b.toNat + 256 * getLE bs) / 256 = getLE bs := by omega
      simp [putLE, getLE, hlow, hhigh, ih]

/-- `data[lo:hi]`, or `none` when the bounds are not inside `data`. -/
def slice (data : List UInt8) (lo hi : Nat) : Option (List UInt8) :=
  if lo ≤ hi ∧ hi ≤ data.length then some ((data.take hi).drop lo) else none

/-- The middle of a concatenation is the slice between its ends. -/
theorem slice_append (before middle after : List UInt8) :
    slice (before ++ (middle ++ after)) before.length (before.length + middle.length)
      = some middle := by
  have hin : before.length ≤ before.length + middle.length ∧
      before.length + middle.length ≤ (before ++ (middle ++ after)).length := by
    simp only [List.length_append]
    omega
  rw [slice, if_pos hin, List.take_append, List.drop_append]
  simp

/-- A concatenation of frames, cut around the frame of one element. -/
theorem flatMap_split {α β : Type} (frame : α → List β) {xs : List α} {i : Nat}
    (h : i < xs.length) :
    xs.flatMap frame = (xs.take i).flatMap frame ++
      (frame xs[i] ++ (xs.drop (i + 1)).flatMap frame) := by
  have hcut : xs = xs.take i ++ xs[i] :: xs.drop (i + 1) := by simp
  calc xs.flatMap frame = (xs.take i ++ xs[i] :: xs.drop (i + 1)).flatMap frame := by rw [← hcut]
    _ = _ := by rw [List.flatMap_append, List.flatMap_cons]

/-- A slice inside the bounds exists. -/
theorem slice_isSome {data : List UInt8} {lo hi : Nat} (hlo : lo ≤ hi)
    (hhi : hi ≤ data.length) : slice data lo hi = some ((data.take hi).drop lo) := by
  rw [slice, if_pos ⟨hlo, hhi⟩]

/-- The data from one offset on, cut at a later one. -/
theorem drop_cut (data : List UInt8) (lo hi : Nat) (hlo : lo ≤ hi) (hhi : hi ≤ data.length) :
    ∃ part, part = (data.take hi).drop lo ∧ part.length = hi - lo ∧
      data.drop lo = part ++ data.drop hi := by
  refine ⟨_, rfl, ?_, ?_⟩
  · rw [List.length_drop, List.length_take, Nat.min_eq_left hhi]
  · have hcut : lo ≤ (data.take hi).length := by
      rw [List.length_take, Nat.min_eq_left hhi]
      exact hlo
    calc data.drop lo = (data.take hi ++ data.drop hi).drop lo := by rw [List.take_append_drop]
      _ = (data.take hi).drop lo ++ data.drop hi := List.drop_append_of_le_length hcut

end LittleEndian
