import Mathlib.Data.BitVec
import Mathlib.Tactic.Ring

/-!
# Modular sequence arithmetic

Protocols number an unbounded stream with `w`-bit words and compare two words through the
signed value of their difference.  A word `x` stands for the position `n` of the stream,
relative to the word `b` at position `0`, when `x = b + n` modulo `2 ^ w` (`At b x n`).

* `sdist x y` — the signed value of `x - y`.
* `At.sdist` — for positions less than half the number space apart, `sdist` is their exact
  difference; `At.eq_iff` — and two words are equal exactly when the positions are.
* `At.of_sdist` — every word has a position relative to a known one.
-/

set_option autoImplicit false

namespace SeqArith

variable {w : Nat}

/-- The signed distance from `y` to `x`. -/
def sdist (x y : BitVec w) : Int := (x - y).toInt

/-- `x` is the word of position `n` when `b` is the word of position `0`. -/
def At (b x : BitVec w) (n : Int) : Prop := x = b + BitVec.ofInt w n

theorem At.base (b : BitVec w) : At b b 0 := by simp [At]

theorem At.add {b x : BitVec w} {n : Int} (h : At b x n) (k : Int) :
    At b (x + BitVec.ofInt w k) (n + k) := by
  unfold At at *
  rw [h, BitVec.ofInt_add, BitVec.add_assoc]

theorem At.addNat {b x : BitVec w} {n : Int} (h : At b x n) (k : Nat) :
    At b (x + BitVec.ofNat w k) (n + k) := by
  have := h.add k
  rwa [BitVec.ofInt_natCast] at this

/-- Moving the origin. -/
theorem At.shift {b x : BitVec w} {n : Int} (h : At b x n) (k : Int) :
    At (b + BitVec.ofInt w k) x (n - k) := by
  unfold At at *
  rw [h, BitVec.add_assoc, ← BitVec.ofInt_add]
  congr 2
  omega

theorem At.sub_eq {b x y : BitVec w} {m n : Int} (hx : At b x m) (hy : At b y n) :
    x - y = BitVec.ofInt w (m - n) := by
  unfold At at *
  rw [hx, hy, BitVec.sub_eq_iff_eq_add, BitVec.add_comm b (BitVec.ofInt w n), ← BitVec.add_assoc,
    ← BitVec.ofInt_add, Int.sub_add_cancel, BitVec.add_comm]

/-- **Signed distance is exact within half the number space.** -/
theorem At.sdist {b x y : BitVec w} {m n : Int} (hx : At b x m) (hy : At b y n)
    (hl : -(2 ^ w : Nat) ≤ (m - n) * 2) (hu : (m - n) * 2 < (2 ^ w : Nat)) :
    sdist x y = m - n := by
  unfold SeqArith.sdist
  rw [hx.sub_eq hy, BitVec.toInt_ofInt, Int.bmod_eq_of_le_mul_two hl hu]

/-- Words determine positions less than the number space apart. -/
theorem At.eq_iff {b x y : BitVec w} {m n : Int} (hx : At b x m) (hy : At b y n)
    (hl : -(2 ^ w : Nat) < m - n) (hu : m - n < (2 ^ w : Nat)) : x = y ↔ m = n := by
  constructor
  · intro h
    have h0 : BitVec.ofInt w (m - n) = 0#w := by rw [← hx.sub_eq hy, h, BitVec.sub_self]
    have h1 : (m - n) % (2 ^ w : Nat) = 0 := by
      have := congrArg BitVec.toInt h0
      rw [BitVec.toInt_ofInt] at this
      simp only [BitVec.toInt_zero] at this
      exact Int.emod_eq_zero_of_dvd (Int.dvd_of_bmod_eq_zero this)
    obtain ⟨k, hk⟩ := Int.dvd_of_emod_eq_zero h1
    rcases Int.lt_trichotomy k 0 with hk0 | hk0 | hk0
    · have : ((2 ^ w : Nat) : Int) * k ≤ ((2 ^ w : Nat) : Int) * (-1) :=
        Int.mul_le_mul_of_nonneg_left (by omega) (by omega)
      omega
    · subst hk0; omega
    · have : ((2 ^ w : Nat) : Int) * 1 ≤ ((2 ^ w : Nat) : Int) * k :=
        Int.mul_le_mul_of_nonneg_left (by omega) (by omega)
      omega
  · rintro rfl
    rw [hx, hy]

/-- Every word has a position next to a known one. -/
theorem At.of_sdist {b y : BitVec w} {n : Int} (hy : At b y n) (x : BitVec w) :
    At b x (n + SeqArith.sdist x y) := by
  have h := hy.add (SeqArith.sdist x y)
  unfold SeqArith.sdist at h
  rw [BitVec.ofInt_toInt] at h
  have e : y + (x - y) = x := by
    rw [BitVec.add_comm, BitVec.sub_add_cancel]
  rw [e] at h
  exact h

theorem sdist_self (x : BitVec w) : sdist x x = 0 := by simp [sdist]

theorem sdist_bounds (x y : BitVec w) :
    -(2 ^ w : Nat) ≤ sdist x y * 2 ∧ sdist x y * 2 < (2 ^ w : Nat) := by
  have h1 := BitVec.le_two_mul_toInt (x := x - y)
  have h2 := BitVec.two_mul_toInt_lt (x := x - y)
  unfold sdist
  push_cast
  omega

end SeqArith
