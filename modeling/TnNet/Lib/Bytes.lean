import Mathlib

/-!
# Fields of byte strings

`be16 d i` reads the big-endian field at position `i` of a byte string and `setBe16 d i x` writes it.
Reading behind a write gives the value, or what another field had.

`leBytes k x` are the `k` bytes of a word in memory, the low byte first, and `beBytes k x` the high byte
first.  `splice d i l` is `d` with `l` written at position `i`.
-/

set_option autoImplicit false

namespace Bytes

variable {a b d : List UInt8} {i j : Nat}

/-- The two-byte field at a position, the high byte first. -/
def be16 (d : List UInt8) (i : Nat) : Nat := (d.getD i 0).toNat * 256 + (d.getD (i + 1) 0).toNat

/-- Write a two-byte field. -/
def setBe16 (d : List UInt8) (i x : Nat) : List UInt8 :=
  (d.set i (UInt8.ofNat (x / 256))).set (i + 1) (UInt8.ofNat x)

theorem be16_lt (d : List UInt8) (i : Nat) : be16 d i < 65536 := by
  have h1 := (d.getD i 0).toNat_lt
  have h2 := (d.getD (i + 1) 0).toNat_lt
  unfold be16
  omega

@[simp] theorem length_setBe16 (d : List UInt8) (i x : Nat) : (setBe16 d i x).length = d.length := by
  simp [setBe16]

theorem be16_setBe16 (h : i + 1 < d.length) (x : Nat) : be16 (setBe16 d i x) i = x % 65536 := by
  have h0 : i < d.length := by omega
  have h1 : ((setBe16 d i x).getD i 0).toNat = x / 256 % 256 := by
    simp [setBe16, List.getD_eq_getElem?_getD, h0]
  have h2 : ((setBe16 d i x).getD (i + 1) 0).toNat = x % 256 := by
    simp [setBe16, List.getD_eq_getElem?_getD, h]
  unfold be16
  rw [h1, h2]
  omega

theorem getD_setBe16 (h : j ≠ i ∧ j ≠ i + 1) (x : Nat) : (setBe16 d i x).getD j 0 = d.getD j 0 := by
  simp [setBe16, List.getD_eq_getElem?_getD, Ne.symm h.1, Ne.symm h.2]

theorem be16_setBe16_of_ne (h : j + 1 < i ∨ i + 1 < j) (x : Nat) :
    be16 (setBe16 d i x) j = be16 d j := by
  unfold be16
  rw [getD_setBe16 (by omega), getD_setBe16 (by omega)]

theorem getD_append_left (h : i < a.length) : (a ++ b).getD i 0 = a.getD i 0 := by
  simp [List.getD_eq_getElem?_getD, List.getElem?_append_left h]

theorem be16_append (h : i + 1 < a.length) : be16 (a ++ b) i = be16 a i := by
  unfold be16
  rw [getD_append_left (by omega), getD_append_left h]

theorem setBe16_append (h : i + 1 < a.length) (x : Nat) :
    setBe16 (a ++ b) i x = setBe16 a i x ++ b := by
  unfold setBe16
  rw [List.set_append_left _ _ (by omega), List.set_append_left _ _ (by simpa using h)]

/-- Write bytes at a position. -/
def splice (d : List UInt8) (i : Nat) (l : List UInt8) : List UInt8 :=
  d.take i ++ l ++ d.drop (i + l.length)

section Splice

variable {l : List UInt8} {k : Nat}

@[simp] theorem length_splice (h : i + l.length ≤ d.length) : (splice d i l).length = d.length := by
  simp only [splice, List.length_append, List.length_take, List.length_drop]
  omega

theorem splice_zero (d l : List UInt8) : splice d 0 l = l ++ d.drop l.length := by simp [splice]

/-- The bytes in front. -/
theorem take_splice (h : k ≤ i) (hi : i ≤ d.length) : (splice d i l).take k = d.take k := by
  unfold splice
  rw [List.append_assoc, List.take_append_of_le_length (by rw [List.length_take]; omega), List.take_take,
    Nat.min_eq_left h]

theorem drop_splice_of_le (h : k ≤ i) (hi : i ≤ d.length) :
    (splice d i l).drop k = splice (d.drop k) (i - k) l := by
  unfold splice
  rw [List.append_assoc, List.drop_append_of_le_length (by rw [List.length_take]; omega), List.drop_take,
    List.drop_drop, List.append_assoc]
  congr 3
  omega

end Splice

/-- The bytes of a word, the low byte first. -/
def leBytes : Nat → Nat → List UInt8
  | 0, _ => []
  | k + 1, x => UInt8.ofNat x :: leBytes k (x / 256)

@[simp] theorem length_leBytes (k x : Nat) : (leBytes k x).length = k := by
  induction k generalizing x with
  | zero => rfl
  | succ k ih => simp [leBytes, ih]

/-- The bytes of a word, the high byte first. -/
def beBytes (k x : Nat) : List UInt8 := (leBytes k x).reverse

/-- The bytes determine the word. -/
theorem leBytes_inj {k x y : Nat} (hx : x < 256 ^ k) (hy : y < 256 ^ k)
    (h : leBytes k x = leBytes k y) : x = y := by
  induction k generalizing x y with
  | zero =>
    rw [Nat.pow_zero] at hx hy
    omega
  | succ k ih =>
    simp only [leBytes, List.cons.injEq] at h
    obtain ⟨h1, h2⟩ := h
    have hlow : x % 256 = y % 256 := by simpa using congrArg UInt8.toNat h1
    rw [Nat.pow_succ] at hx hy
    have hhigh := ih (Nat.div_lt_of_lt_mul (by rwa [Nat.mul_comm]))
      (Nat.div_lt_of_lt_mul (by rwa [Nat.mul_comm])) h2
    omega

end Bytes
