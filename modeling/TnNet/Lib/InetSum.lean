import Mathlib.Data.Nat.ModEq
import Mathlib.Tactic.Ring

/-!
# The Internet checksum

Sums of 16-bit words modulo 65535.  `val l` is the little-endian number of a byte string: since
`256 * 256` is 1 modulo 65535 it stands for the sum of its words, and `val_append` says what follows
from the length of a string for the string behind it.

* `val_words` — the sum of the words, with the odd byte at the end.
* `reduce_modEq`, `reduce_le` — adding the halves of a 32-bit sum.
* `reduce_eq_iff` — a sum is the negative zero exactly when it is a non-zero multiple of 65535.
-/

set_option autoImplicit false

namespace InetSum

variable {a b l : List UInt8} {x y : Nat}

/-- The little-endian number. -/
def val : List UInt8 → Nat
  | [] => 0
  | c :: l => c.toNat + 256 * val l

/-- The word of two bytes. -/
def halfWord (c0 c1 : UInt8) : Nat := c0.toNat + 256 * c1.toNat

/-- The sum of the words. -/
def words : List UInt8 → Nat
  | c0 :: c1 :: l => halfWord c0 c1 + words l
  | _ => 0

/-- The byte that is no part of a word. -/
def oddByte : List UInt8 → Option UInt8
  | [] => none
  | [c] => some c
  | _ :: _ :: l => oddByte l

/-- The value of a byte that waits for the next one. -/
def pend : Option UInt8 → Nat
  | none => 0
  | some c => c.toNat

theorem val_append (a b : List UInt8) : val (a ++ b) = val a + 256 ^ a.length * val b := by
  induction a with
  | nil => simp [val]
  | cons c a ih =>
    simp only [List.cons_append, val, ih, List.length_cons, pow_succ]
    ring

theorem pow_even (n : Nat) : 256 ^ (2 * n) ≡ 1 [MOD 65535] := by
  rw [pow_mul]
  exact (Nat.ModEq.pow n (by decide : 256 ^ 2 ≡ 1 [MOD 65535])).trans (by rw [one_pow])

/-- Behind a string of even length. -/
theorem val_append_even (ha : a.length % 2 = 0) (b : List UInt8) :
    val (a ++ b) ≡ val a + val b [MOD 65535] := by
  rw [val_append]
  have h := (pow_even (a.length / 2)).mul_right (val b)
  rw [show 2 * (a.length / 2) = a.length by omega, one_mul] at h
  exact h.add_left (val a)

/-- Behind a string of odd length. -/
theorem val_append_odd (ha : a.length % 2 = 1) (b : List UInt8) :
    val (a ++ b) ≡ val a + 256 * val b [MOD 65535] := by
  rw [val_append]
  have h := ((pow_even (a.length / 2)).mul_right 256).mul_right (val b)
  rw [← pow_succ, show 2 * (a.length / 2) + 1 = a.length by omega, one_mul] at h
  exact h.add_left (val a)

theorem words_le (l : List UInt8) : words l ≤ 65535 * (l.length / 2) := by
  induction l using words.induct with
  | case1 c0 c1 l ih =>
    have h0 := c0.toNat_lt
    have h1 := c1.toNat_lt
    simp only [words, halfWord, List.length_cons]
    omega
  | case2 l h =>
    unfold words
    split
    · exact absurd rfl (h _ _ _)
    · omega

theorem oddByte_isSome (l : List UInt8) : (oddByte l).isSome ↔ l.length % 2 = 1 := by
  induction l using oddByte.induct with
  | case1 => simp [oddByte]
  | case2 c => simp [oddByte]
  | case3 c0 c1 l ih =>
    simp only [oddByte, List.length_cons, ih]
    omega

theorem val_words (l : List UInt8) : words l + pend (oddByte l) ≡ val l [MOD 65535] := by
  induction l using oddByte.induct with
  | case1 => rfl
  | case2 c => simp [words, oddByte, pend, val, Nat.ModEq]
  | case3 c0 c1 l ih =>
    have h := ih.add_left (halfWord c0 c1)
    simp only [words, oddByte, val, halfWord, Nat.ModEq] at h ⊢
    omega

theorem words_eq_zero : words l + pend (oddByte l) = 0 ↔ val l = 0 := by
  induction l using oddByte.induct with
  | case1 => simp [words, oddByte, pend, val]
  | case2 c => simp [words, oddByte, pend, val]
  | case3 c0 c1 l ih =>
    simp only [words, halfWord, oddByte, val] at ih ⊢
    omega

theorem val_append_eq_zero : val (a ++ b) = 0 ↔ val a = 0 ∧ val b = 0 := by
  induction a with
  | nil => simp [val]
  | cons c a ih =>
    simp only [List.cons_append, val]
    omega

theorem words_append (ha : a.length % 2 = 0) (b : List UInt8) : words (a ++ b) = words a + words b := by
  induction a using oddByte.induct with
  | case1 => simp [words]
  | case2 c => simp at ha
  | case3 c0 c1 l ih =>
    have hl := ih (by simp only [List.length_cons] at ha; omega)
    simp only [List.cons_append, words, hl]
    omega

theorem oddByte_append (ha : a.length % 2 = 0) (b : List UInt8) : oddByte (a ++ b) = oddByte b := by
  induction a using oddByte.induct with
  | case1 => rfl
  | case2 c => simp at ha
  | case3 c0 c1 l ih => exact ih (by simp only [List.length_cons] at ha; omega)

/-! ## The sum of the halves -/

/-- The sum of the halves of a 32-bit number, with the carry. -/
def reduce (x : Nat) : Nat :=
  let s := x % 65536 + x / 65536
  if 65535 < s then s - 65535 else s

theorem reduce_le (hx : x < 2 ^ 32) : reduce x ≤ 65535 := by
  unfold reduce
  dsimp only
  split <;> omega

theorem reduce_modEq (x : Nat) : reduce x ≡ x [MOD 65535] := by
  unfold reduce Nat.ModEq
  dsimp only
  split <;> omega

theorem reduce_eq_zero : reduce x = 0 ↔ x = 0 := by
  unfold reduce
  dsimp only
  split <;> omega

theorem reduce_eq_iff (hx : x < 2 ^ 32) : reduce x = 65535 ↔ x ≠ 0 ∧ x ≡ 0 [MOD 65535] := by
  have h1 := reduce_le hx
  have h2 := reduce_modEq x
  have h3 := reduce_eq_zero (x := x)
  unfold Nat.ModEq at *
  omega

/-- The complement in the place of a zero makes the sum a multiple. -/
theorem reduce_complement (hx : x < 2 ^ 32) (hy : y ≡ x + (65535 - reduce x) [MOD 65535]) :
    y ≡ 0 [MOD 65535] := by
  have h1 := reduce_le hx
  have h2 := reduce_modEq x
  unfold Nat.ModEq at *
  omega

/-! ## One's complement addition -/

/-- The 16-bit words of a byte string in network order, an odd byte padded with a zero byte. -/
def beWords : List UInt8 → List Nat
  | [] => []
  | [c] => [256 * c.toNat]
  | c0 :: c1 :: l => (256 * c0.toNat + c1.toNat) :: beWords l

/-- One's complement addition of 16-bit numbers: the carry is added in. -/
def onesAdd (x y : Nat) : Nat := if 65535 < x + y then x + y - 65535 else x + y

def onesSum (ws : List Nat) : Nat := ws.foldl onesAdd 0

/-- The checksum of a byte string: the complement of the one's complement sum of its words. -/
def checksum (l : List UInt8) : Nat := 65535 - onesSum (beWords l)

/-- The number with the bytes exchanged. -/
def swap16 (x : Nat) : Nat := x % 256 * 256 + x / 256

theorem beWords_le (l : List UInt8) : ∀ w ∈ beWords l, w ≤ 65535 := by
  induction l using beWords.induct with
  | case1 => simp [beWords]
  | case2 c =>
    have hc := c.toNat_lt
    simp only [beWords, List.mem_singleton, forall_eq]
    omega
  | case3 c0 c1 l ih =>
    have h0 := c0.toNat_lt
    have h1 := c1.toNat_lt
    intro w hw
    rcases List.mem_cons.mp hw with rfl | hw
    · omega
    · exact ih w hw

/-- Exchanging the bytes is multiplication by 256. -/
theorem val_beWords (l : List UInt8) : val l ≡ 256 * (beWords l).sum [MOD 65535] := by
  induction l using beWords.induct with
  | case1 => rfl
  | case2 c =>
    simp only [val, beWords, List.sum_singleton, Nat.ModEq]
    omega
  | case3 c0 c1 l ih =>
    simp only [val, beWords, List.sum_cons, Nat.ModEq] at ih ⊢
    omega

theorem beWords_eq_zero (l : List UInt8) : (beWords l).sum = 0 ↔ val l = 0 := by
  induction l using beWords.induct with
  | case1 => simp [val, beWords]
  | case2 c => simp [val, beWords]
  | case3 c0 c1 l ih =>
    simp only [val, beWords, List.sum_cons]
    omega

/-- The one's complement sum is the sum modulo 65535, and 0 only for zeros. -/
theorem foldl_onesAdd {ws : List Nat} (hws : ∀ w ∈ ws, w ≤ 65535) (hx : x ≤ 65535) :
    ws.foldl onesAdd x ≤ 65535 ∧ ws.foldl onesAdd x ≡ x + ws.sum [MOD 65535] ∧
      (ws.foldl onesAdd x = 0 ↔ x + ws.sum = 0) := by
  induction ws generalizing x with
  | nil => exact ⟨hx, rfl, Iff.rfl⟩
  | cons w ws ih =>
    have hw := hws w List.mem_cons_self
    have hadd : onesAdd x w ≤ 65535 ∧ onesAdd x w ≡ x + w [MOD 65535] ∧
        (onesAdd x w = 0 ↔ x + w = 0) := by
      unfold onesAdd Nat.ModEq
      split <;> omega
    obtain ⟨h1, h2, h3⟩ := ih (fun w hw => hws w (List.mem_cons_of_mem _ hw)) hadd.1
    rw [List.foldl_cons, List.sum_cons]
    refine ⟨h1, ?_, ?_⟩
    · rw [← Nat.add_assoc]
      exact h2.trans (hadd.2.1.add_right _)
    · omega

/-- A byte string with its checksum in it. -/
theorem checksum_eq_zero_iff : checksum l = 0 ↔ val l ≡ 0 [MOD 65535] ∧ val l ≠ 0 := by
  obtain ⟨h1, h2, h3⟩ := @foldl_onesAdd 0 _ (beWords_le l) (by omega)
  have hv := val_beWords l
  have hb := beWords_eq_zero l
  unfold checksum onesSum
  simp only [Nat.zero_add] at h2 h3
  generalize (beWords l).foldl onesAdd 0 = y at *
  generalize (beWords l).sum = z at *
  unfold Nat.ModEq at *
  omega

/-- **The order of the bytes**: a sum of words in the order of the CPU is the one's complement sum in
    network order with its bytes exchanged. -/
theorem reduce_eq_onesSum (hx : x < 2 ^ 32) (hm : x ≡ val l [MOD 65535]) (hz : x = 0 ↔ val l = 0) :
    reduce x = swap16 (onesSum (beWords l)) := by
  obtain ⟨h1, h2, h3⟩ := @foldl_onesAdd 0 _ (beWords_le l) (by omega)
  have hr1 := reduce_le hx
  have hr2 := reduce_modEq x
  have hr3 := reduce_eq_zero (x := x)
  have hv := val_beWords l
  have hb := beWords_eq_zero l
  unfold onesSum swap16
  simp only [Nat.zero_add] at h2 h3
  generalize (beWords l).foldl onesAdd 0 = y at *
  generalize (beWords l).sum = z at *
  unfold Nat.ModEq at *
  omega

theorem swap16_complement (h : x ≤ 65535) : swap16 (65535 - x) = 65535 - swap16 x := by
  unfold swap16
  omega

end InetSum
