import Mathlib.Data.Nat.Bitwise
import TnNet.Lib.Move

/-!
# `bcopy`

`bcopy` of `tn_net_utils.c` over the memory of the CPU.  The areas do not wrap around the end of the
memory.  A word is loaded and stored whole; a word access that is not aligned has no result.

`bcopy_memmove` — for any addresses and any length every word access is aligned, the destination gets
the bytes that the source held before the call, and no other byte changes.
-/

set_option autoImplicit false

namespace TnNet.Mem

open Move (move Moved)

/-! ## The model -/

/-- `sizeof(word)`. -/
def wsize : Nat := 4

def wmask : Nat := wsize - 1

/-- The memory and the two pointers. -/
structure Cursor where
  mem : Nat → UInt8
  dst : Nat
  src : Nat

/-- `TLOOP`. -/
def tloop (s : Cursor → Option Cursor) : Nat → Cursor → Option Cursor
  | 0, c => some c
  | t + 1, c => (s c).bind (tloop s t)

/-- `TLOOP1`: the counter is decremented before it is tested. -/
def tloop1 (s : Cursor → Option Cursor) (t : Nat) (c : Cursor) : Option Cursor :=
  (s c).bind (tloop s ((t + 2 ^ 32 - 1) % 2 ^ 32))

/-- `*dst++ = *src++`. -/
def byteUp (c : Cursor) : Option Cursor :=
  some ⟨Function.update c.mem c.dst (c.mem c.src), c.dst + 1, c.src + 1⟩

/-- `*(word *)dst = *(word *)src; src += wsize; dst += wsize`. -/
def wordUp (c : Cursor) : Option Cursor :=
  if c.src % wsize = 0 ∧ c.dst % wsize = 0 then
    some ⟨move c.mem c.dst c.src wsize, c.dst + wsize, c.src + wsize⟩
  else none

/-- `*--dst = *--src`. -/
def byteDown (c : Cursor) : Option Cursor :=
  some ⟨Function.update c.mem (c.dst - 1) (c.mem (c.src - 1)), c.dst - 1, c.src - 1⟩

/-- `src -= wsize; dst -= wsize; *(word *)dst = *(word *)src`. -/
def wordDown (c : Cursor) : Option Cursor :=
  if (c.src - wsize) % wsize = 0 ∧ (c.dst - wsize) % wsize = 0 then
    some ⟨move c.mem (c.dst - wsize) (c.src - wsize) wsize, c.dst - wsize, c.src - wsize⟩
  else none

/-- Copy forward. -/
def copyForward (length : Nat) (c : Cursor) : Option Cursor :=
  if (c.src ||| c.dst) &&& wmask ≠ 0 then
    let t := if (c.src ^^^ c.dst) &&& wmask ≠ 0 ∨ length < wsize then length else wsize - (c.src &&& wmask)
    (tloop1 byteUp t c).bind fun c =>
      (tloop wordUp ((length - t) / wsize) c).bind fun c => tloop byteUp ((length - t) &&& wmask) c
  else (tloop wordUp (length / wsize) c).bind fun c => tloop byteUp (length &&& wmask) c

/-- Copy backward; the pointers are behind the areas. -/
def copyBackward (length : Nat) (c : Cursor) : Option Cursor :=
  if (c.src ||| c.dst) &&& wmask ≠ 0 then
    let t := if (c.src ^^^ c.dst) &&& wmask ≠ 0 ∨ length ≤ wsize then length else c.src &&& wmask
    (tloop1 byteDown t c).bind fun c =>
      (tloop wordDown ((length - t) / wsize) c).bind fun c => tloop byteDown ((length - t) &&& wmask) c
  else (tloop wordDown (length / wsize) c).bind fun c => tloop byteDown (length &&& wmask) c

/-- `bcopy`. -/
def bcopy (mem : Nat → UInt8) (src dst length : Nat) : Option (Nat → UInt8) :=
  if length = 0 ∨ dst = src then some mem
  else if dst < src then (copyForward length ⟨mem, dst, src⟩).map Cursor.mem
  else (copyBackward length ⟨mem, dst + length, src + length⟩).map Cursor.mem

/-! ## The low bits -/

theorem and_wmask (n : Nat) : n &&& wmask = n % wsize := Nat.and_two_pow_sub_one_eq_mod n 2

theorem or_wmask (a b : Nat) : (a ||| b) &&& wmask = 0 ↔ a % wsize = 0 ∧ b % wsize = 0 := by
  rw [and_wmask]
  unfold wsize
  rw [show (4 : Nat) = 2 ^ 2 from rfl, Nat.or_mod_two_pow, Nat.or_eq_zero_iff]

theorem xor_wmask (a b : Nat) : (a ^^^ b) &&& wmask = 0 ↔ a % wsize = b % wsize := by
  rw [and_wmask]
  unfold wsize
  rw [show (4 : Nat) = 2 ^ 2 from rfl, Nat.xor_mod_two_pow, Nat.xor_eq_zero_iff]

/-! ## The loops -/

variable {mem m : Nat → UInt8} {dst src length k t u : Nat}

/-- One step upward, over `u` bytes. -/
def unitUp (u : Nat) (c : Cursor) : Option Cursor :=
  if c.src % u = 0 ∧ c.dst % u = 0 then some ⟨move c.mem c.dst c.src u, c.dst + u, c.src + u⟩ else none

/-- One step downward. -/
def unitDown (u : Nat) (c : Cursor) : Option Cursor :=
  if (c.src - u) % u = 0 ∧ (c.dst - u) % u = 0 then
    some ⟨move c.mem (c.dst - u) (c.src - u) u, c.dst - u, c.src - u⟩
  else none

theorem move_one (m : Nat → UInt8) (dst src : Nat) : move m dst src 1 = Function.update m dst (m src) := by
  funext a
  unfold move
  rcases eq_or_ne a dst with rfl | ha
  · simp
  · rw [Function.update_of_ne ha, if_neg (by omega)]

theorem byteUp_eq : byteUp = unitUp 1 := by
  funext c
  simp [byteUp, unitUp, move_one, Nat.mod_one]

theorem byteDown_eq : byteDown = unitDown 1 := by
  funext c
  simp [byteDown, unitDown, move_one, Nat.mod_one]

theorem wordUp_eq : wordUp = unitUp wsize := rfl

theorem wordDown_eq : wordDown = unitDown wsize := rfl

/-- `do { s; } while (--t)` with a counter that is not zero. -/
theorem tloop1_eq (s : Cursor → Option Cursor) (ht : 0 < t) (hlt : t < 2 ^ 32) (c : Cursor) :
    tloop1 s t c = tloop s t c := by
  obtain ⟨n, rfl⟩ := Nat.exists_eq_add_of_lt ht
  have hn : (0 + n + 1 + 2 ^ 32 - 1) % 2 ^ 32 = n := by omega
  rw [tloop1, hn, Nat.zero_add]
  rfl

/-- **The loop upward**, from the byte at `k` on. -/
theorem tloop_up (hle : dst ≤ src) (hm : Moved mem m dst src 0 k)
    (ha : 0 < t → (src + k) % u = 0 ∧ (dst + k) % u = 0) :
    ∃ m', tloop (unitUp u) t ⟨m, dst + k, src + k⟩ = some ⟨m', dst + (k + t * u),
      src + (k + t * u)⟩ ∧ Moved mem m' dst src 0 (k + t * u) := by
  induction t generalizing m k with
  | zero => exact ⟨m, by simp [tloop], by simpa using hm⟩
  | succ t ih =>
    obtain ⟨h1, h2⟩ := ha (Nat.succ_pos t)
    have hnext : ∀ a, (a + k) % u = 0 → (a + (k + u)) % u = 0 := by
      intro a h
      rw [← Nat.add_assoc, Nat.add_mod_right, h]
    obtain ⟨m', hr, hm'⟩ := ih (hm.up (Nat.zero_le k) hle u) fun _ => ⟨hnext src h1, hnext dst h2⟩
    have hk : k + u + t * u = k + (t + 1) * u := by
      rw [Nat.succ_mul]
      omega
    rw [hk] at hr hm'
    refine ⟨m', ?_, hm'⟩
    simp only [tloop, unitUp, h1, h2, and_self, if_true, Option.bind_some, Nat.add_assoc]
    exact hr

/-- **The loop downward**, to the byte at `k`. -/
theorem tloop_down (hle : src ≤ dst) (hk : k + t * u ≤ length) (hm : Moved mem m dst src (k + t * u) length)
    (ha : 0 < t → (src + k) % u = 0 ∧ (dst + k) % u = 0) :
    ∃ m', tloop (unitDown u) t ⟨m, dst + (k + t * u), src + (k + t * u)⟩ =
    some ⟨m', dst + k, src + k⟩ ∧
      Moved mem m' dst src k length := by
  induction t generalizing m with
  | zero => exact ⟨m, by simp [tloop], by simpa using hm⟩
  | succ t ih =>
    obtain ⟨h1, h2⟩ := ha (Nat.succ_pos t)
    have hsucc : k + (t + 1) * u = k + t * u + u := by rw [Nat.succ_mul, Nat.add_assoc]
    rw [hsucc] at hk hm ⊢
    obtain ⟨m', hr, hm'⟩ := ih (by omega) (hm.down hk hle) fun _ => ⟨h1, h2⟩
    refine ⟨m', ?_, hm'⟩
    have hsub : ∀ a, a + (k + t * u + u) - u = a + (k + t * u) := by
      intro a
      omega
    have hmod : ∀ a, (a + k) % u = 0 → (a + (k + t * u)) % u = 0 := by
      intro a h
      rw [← Nat.add_assoc, Nat.add_mul_mod_self_right, h]
    simp only [tloop, unitDown, hsub, hmod src h1, hmod dst h2, and_self, if_true, Option.bind_some]
    exact hr

/-! ## Both directions -/

/-- What is behind the prologue is copied in words and bytes. -/
theorem words_up (hle : dst ≤ src) (ht : t ≤ length) (hm : Moved mem m dst src 0 t)
    (ha : wsize ≤ length - t → (src + t) % wsize = 0 ∧ (dst + t) % wsize = 0) :
    ∃ c, ((tloop wordUp ((length - t) / wsize) ⟨m, dst + t, src + t⟩).bind fun c =>
      tloop byteUp ((length - t) &&& wmask) c) = some c ∧ Moved mem c.mem dst src 0 length := by
  have hword : 0 < (length - t) / wsize → (src + t) % wsize = 0 ∧ (dst + t) % wsize = 0 :=
    fun h => ha ((Nat.div_pos_iff.mp h).2)
  obtain ⟨m₁, hr₁, hm₁⟩ := tloop_up hle hm hword
  obtain ⟨m₂, hr₂, hm₂⟩ :=
    tloop_up (t := (length - t) % wsize) (u := 1) hle hm₁ fun _ => ⟨Nat.mod_one _, Nat.mod_one _⟩
  have hlen : t + (length - t) / wsize * wsize + (length - t) % wsize * 1 = length := by
    have := Nat.div_add_mod' (length - t) wsize
    omega
  rw [hlen] at hr₂ hm₂
  refine ⟨⟨m₂, dst + length, src + length⟩, ?_, hm₂⟩
  rw [wordUp_eq, hr₁, Option.bind_some, byteUp_eq, and_wmask, hr₂]

theorem copyForward_moved (mem : Nat → UInt8) (hlt : dst < src) (h0 : 0 < length) (hlen : length < 2 ^ 31) :
    ∃ c, copyForward length ⟨mem, dst, src⟩ = some c ∧ Moved mem c.mem dst src 0 length := by
  have hle := Nat.le_of_lt hlt
  have hstart := Moved.refl mem dst src 0
  unfold copyForward
  dsimp only
  split
  · generalize ht : (if (src ^^^ dst) &&& wmask ≠ 0 ∨ length < wsize then length
      else wsize - (src &&& wmask)) = t
    have hspec : 0 < t ∧ t ≤ length ∧
        (wsize ≤ length - t → (src + t) % wsize = 0 ∧ (dst + t) % wsize = 0) := by
      split at ht
      · unfold wsize
        omega
      · rename_i h
        rw [not_or, not_not, xor_wmask] at h
        rw [and_wmask] at ht
        unfold wsize at *
        omega
    obtain ⟨h1, h2, h3⟩ := hspec
    obtain ⟨m₁, hr₁, hm₁⟩ :=
      tloop_up (t := t) (u := 1) hle hstart fun _ => ⟨Nat.mod_one _, Nat.mod_one _⟩
    rw [Nat.mul_one, Nat.zero_add] at hr₁ hm₁
    obtain ⟨c, hr, hm⟩ := words_up hle h2 hm₁ h3
    refine ⟨c, ?_, hm⟩
    rw [tloop1_eq _ h1 (by omega), byteUp_eq]
    rw [byteUp_eq] at hr
    exact (congrArg (Option.bind · _) hr₁).trans hr
  · rename_i h
    rw [not_not, or_wmask] at h
    exact words_up hle (Nat.zero_le length) hstart fun _ => h

/-- The same downward; the bytes up to `length - t` remain. -/
theorem words_down (hle : src ≤ dst) (ht : k ≤ length) (hm : Moved mem m dst src k length)
    (ha : wsize ≤ k → (src + k) % wsize = 0 ∧ (dst + k) % wsize = 0) :
    ∃ c, ((tloop wordDown (k / wsize) ⟨m, dst + k, src + k⟩).bind fun c =>
      tloop byteDown (k &&& wmask) c) = some c ∧ Moved mem c.mem dst src 0 length := by
  have hk : k % wsize + k / wsize * wsize = k := by
    rw [Nat.add_comm]
    exact Nat.div_add_mod' k wsize
  have hmod : ∀ a, (a + k) % wsize = 0 → (a + k % wsize) % wsize = 0 := by
    intro a h
    rwa [Nat.add_mod_mod]
  have hword : 0 < k / wsize → (src + k % wsize) % wsize = 0 ∧ (dst + k % wsize) % wsize = 0 := by
    intro h
    obtain ⟨h1, h2⟩ := ha (Nat.div_pos_iff.mp h).2
    exact ⟨hmod src h1, hmod dst h2⟩
  have hm₀ : Moved mem m dst src (k % wsize + k / wsize * wsize) length := by rwa [hk]
  obtain ⟨m₁, hr₁, hm₁⟩ := tloop_down hle (by omega) hm₀ hword
  have hzero : 0 + k % wsize * 1 = k % wsize := by omega
  rw [← hzero] at hm₁
  obtain ⟨m₂, hr₂, hm₂⟩ := tloop_down hle (by omega) hm₁ fun _ => ⟨Nat.mod_one _, Nat.mod_one _⟩
  rw [hk] at hr₁
  rw [hzero] at hr₂
  refine ⟨⟨m₂, dst + 0, src + 0⟩, ?_, hm₂⟩
  rw [wordDown_eq, hr₁, Option.bind_some, byteDown_eq, and_wmask, hr₂]

theorem copyBackward_moved (mem : Nat → UInt8) (hlt : src < dst) (h0 : 0 < length)
    (hlen : length < 2 ^ 31) : ∃ c, copyBackward length ⟨mem, dst + length, src + length⟩ = some c ∧
      Moved mem c.mem dst src 0 length := by
  have hle := Nat.le_of_lt hlt
  have hstart := Moved.refl mem dst src length
  unfold copyBackward
  dsimp only
  split
  · rename_i hor
    generalize ht : (if (src + length ^^^ (dst + length)) &&& wmask ≠ 0 ∨ length ≤ wsize then length
      else (src + length) &&& wmask) = t
    have hspec : 0 < t ∧ t ≤ length ∧
        (wsize ≤ length - t → (src + (length - t)) % wsize = 0 ∧ (dst + (length - t)) % wsize = 0) := by
      split at ht
      · unfold wsize
        omega
      · rename_i h
        rw [not_or, not_not, xor_wmask] at h
        rw [ne_eq, or_wmask] at hor
        rw [and_wmask] at ht
        unfold wsize at *
        omega
    obtain ⟨h1, h2, h3⟩ := hspec
    have hsum : length - t + t * 1 = length := by omega
    have hm₀ : Moved mem mem dst src (length - t + t * 1) length := by rwa [hsum]
    obtain ⟨m₁, hr₁, hm₁⟩ :=
      tloop_down hle (Nat.le_of_eq hsum) hm₀ fun _ => ⟨Nat.mod_one _, Nat.mod_one _⟩
    rw [hsum] at hr₁
    obtain ⟨c, hr, hm⟩ := words_down hle (Nat.sub_le length t) hm₁ h3
    refine ⟨c, ?_, hm⟩
    rw [tloop1_eq _ h1 (by omega), byteDown_eq]
    rw [byteDown_eq] at hr
    exact (congrArg (Option.bind · _) hr₁).trans hr
  · rename_i h
    rw [not_not, or_wmask] at h
    exact words_down hle (Nat.le_refl length) hstart fun _ => h

/-- **`bcopy` moves.**  The paths agree, since the bytes of the source and the frame leave one memory. -/
theorem bcopy_memmove (mem : Nat → UInt8) (src dst length : Nat) (hlen : length < 2 ^ 31) :
    ∃ mem', bcopy mem src dst length = some mem' ∧ (∀ i < length, mem' (dst + i) = mem (src + i)) ∧
      ∀ a, (a < dst ∨ dst + length ≤ a) → mem' a = mem a := by
  have hmoved : ∃ mem', bcopy mem src dst length = some mem' ∧ Moved mem mem' dst src 0 length := by
    unfold bcopy
    split
    · rename_i h
      refine ⟨mem, rfl, ?_⟩
      rcases h with rfl | rfl
      · exact .refl mem dst src 0
      · exact ⟨fun _ _ _ => rfl, fun _ _ => rfl⟩
    · rename_i h
      rw [not_or] at h
      split
      · obtain ⟨c, hr, hm⟩ := copyForward_moved mem ‹dst < src› (Nat.pos_of_ne_zero h.1) hlen
        exact ⟨c.mem, by rw [hr]; rfl, hm⟩
      · obtain ⟨c, hr, hm⟩ := copyBackward_moved mem (by omega : src < dst)
          (Nat.pos_of_ne_zero h.1) hlen
        exact ⟨c.mem, by rw [hr]; rfl, hm⟩
  obtain ⟨mem', hr, hm⟩ := hmoved
  exact ⟨mem', hr, fun i hi => hm.copied i (Nat.zero_le i) hi, fun a ha => hm.frame a (by omega)⟩

/-- Ten bytes move up by a word: two words and two bytes, downward. -/
theorem bcopy_memmove_overlap : ∃ mem', bcopy UInt8.ofNat 6 10 10 = some mem' ∧
    (∀ i < 10, mem' (10 + i) = UInt8.ofNat (6 + i)) ∧ ∀ a, (a < 10 ∨ 10 + 10 ≤ a) →
    mem' a = UInt8.ofNat a :=
  bcopy_memmove UInt8.ofNat 6 10 10 (by decide)

end TnNet.Mem
