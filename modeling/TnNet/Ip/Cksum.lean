import TnNet.Lib.InetSum

/-!
# `in4_cksum`

The checksum over a chain (`in_cksum`, the call of `in4_cksum` without a pseudo header).  A descriptor is
given by whether `m_data` is an odd address, and its bytes.  Words are those of the little-endian CPU.
The unrolled loops add the words of the longest part whose length is a multiple of 8.

`inCksum_eq` — the result is the complement of the sum of the first `len` bytes of the chain, wherever
the chain is cut and whatever the alignments.
-/

set_option autoImplicit false

namespace TnNet.Ip

open InetSum

/-- `sum`, and `s_util.c[0]` when `mlen` is -1. -/
structure Cksum where
  sum : Nat := 0
  c0 : Option UInt8 := none

/-- The words of a descriptor behind the byte that was taken to reach an even address. -/
def cksumWords (swapped : Option UInt8) (sum : Nat) (data : List UInt8) : Cksum :=
  let n := data.length / 8 * 8
  let sum := sum + words (data.take n)
  let rest := data.drop n
  if rest = [] ∧ swapped = none then ⟨sum, none⟩
  else
    let sum := reduce sum + words rest
    match swapped with
    | none => ⟨sum, oddByte rest⟩
    | some c0 =>
      let sum := reduce sum * 256
      match oddByte rest with
      | some c1 => ⟨sum + halfWord c0 c1, none⟩
      | none => ⟨sum, some c0⟩

/-- The bytes of a descriptor from an even or odd address on. -/
def cksumData (sum : Nat) (odd : Bool) (data : List UInt8) : Cksum :=
  match odd, data with
  | true, c0 :: data => cksumWords (some c0) (reduce sum * 256) data
  | _, data => cksumWords none sum data

/-- One descriptor: the sum, and the length that is left. -/
def cksumMbuf (s : Cksum) (len : Nat) (odd : Bool) (data : List UInt8) : Cksum × Nat :=
  match s.c0, data with
  | _, [] => (s, len)
  | some c0, c1 :: data =>
    (cksumData (s.sum + halfWord c0 c1) (!odd) (data.take (len - 1)), len - 1 - data.length)
  | none, data => (cksumData s.sum odd (data.take len), len - data.length)

/-- The loop over the chain. -/
def cksumChain : Cksum → Nat → List (Bool × List UInt8) → Cksum
  | s, _, [] => s
  | s, len, (odd, data) :: l =>
    if len = 0 then s
    else
      let r := cksumMbuf s len odd data
      cksumChain r.1 r.2 l

/-- `in_cksum`. -/
def inCksum (chain : List (Bool × List UInt8)) (len : Nat) : Nat :=
  let s := cksumChain {} len chain
  65535 - reduce (s.sum + pend s.c0)

/-! ## What the sum stands for -/

/-- The sum of the bytes `a`. -/
structure Sums (a : List UInt8) (s : Cksum) : Prop where
  modEq : s.sum + pend s.c0 ≡ val a [MOD 65535]
  zero : s.sum + pend s.c0 = 0 ↔ val a = 0
  odd : s.c0.isSome ↔ a.length % 2 = 1
  le : s.sum ≤ 65535 * (256 + a.length / 2)

variable {a b data : List UInt8} {s : Cksum} {sum len n : Nat} {c0 c1 : UInt8}

/-- The words of the part that is a multiple of 8 and of the rest. -/
theorem words_split (data : List UInt8) :
    words (data.take (data.length / 8 * 8)) + words (data.drop (data.length / 8 * 8)) = words data ∧
      oddByte (data.drop (data.length / 8 * 8)) = oddByte data := by
  have heven : (data.take (data.length / 8 * 8)).length % 2 = 0 := by
    rw [List.length_take]
    omega
  have h1 := words_append heven (data.drop (data.length / 8 * 8))
  have h2 := oddByte_append heven (data.drop (data.length / 8 * 8))
  rw [List.take_append_drop] at h1 h2
  exact ⟨h1.symm, h2.symm⟩

/-- The words from an even address on, behind an even number of bytes. -/
theorem cksumWords_none (hn : (a ++ data).length ≤ 100000) (hm : sum ≡ val a [MOD 65535])
    (hz : sum = 0 ↔ val a = 0) (ha : a.length % 2 = 0) (hle : sum ≤ 65535 * (256 + a.length / 2)) :
    Sums (a ++ data) (cksumWords none sum data) := by
  obtain ⟨hw, ho⟩ := words_split data
  have hwle := words_le data
  have hval := val_append_even ha data
  have hdata := val_words data
  have hdz := words_eq_zero (l := data)
  have hodd := oddByte_isSome data
  rw [List.length_append] at hn
  have hzero := val_append_eq_zero (a := a) (b := data)
  unfold cksumWords
  simp only [and_true]
  generalize htake : words (data.take (data.length / 8 * 8)) = t at hw ⊢
  generalize data.drop (data.length / 8 * 8) = rest at hw ho ⊢
  split
  · rename_i hrest
    subst hrest
    have hnone : oddByte data = none := ho.symm
    rw [hnone] at hdata hdz hodd
    simp only [words, pend, Nat.add_zero] at hw hdata hdz
    constructor
    · simp only [pend, Nat.add_zero, hw]
      exact (hm.add hdata).trans hval.symm
    · simp only [pend, hw]
      omega
    · simp only [Option.isSome_none, Bool.false_eq_true, false_iff] at hodd ⊢
      rw [List.length_append]
      omega
    · rw [List.length_append]
      simp only
      omega
  · have hlt : sum + t < 2 ^ 32 := by omega
    have hred := reduce_le hlt
    have hrz := reduce_eq_zero (x := sum + t)
    have hrm := reduce_modEq (sum + t)
    rw [ho]
    constructor
    · refine Nat.ModEq.trans ?_ ((hm.add hdata).trans hval.symm)
      refine ((hrm.add_right (words rest)).add_right (pend (oddByte data))).trans ?_
      rw [← hw]
      exact congrArg (· % 65535) (by omega)
    · simp only
      omega
    · rw [hodd, List.length_append]
      omega
    · rw [List.length_append]
      simp only
      omega

/-- The words from an odd address on: the sum is swapped before and behind them. -/
theorem cksumWords_some (hn : (a ++ c0 :: data).length ≤ 100000) (hm : sum ≡ 256 * val a [MOD 65535])
    (hz : sum = 0 ↔ val a = 0) (ha : a.length % 2 = 0) (hle : sum ≤ 65535 * 256) :
    Sums (a ++ c0 :: data) (cksumWords (some c0) sum data) := by
  obtain ⟨hw, ho⟩ := words_split data
  have hwle := words_le data
  have hval := val_append_even ha (c0 :: data)
  have hdata := val_words data
  have hdz := words_eq_zero (l := data)
  have hodd := oddByte_isSome data
  rw [List.length_append, List.length_cons] at hn
  have hzero := val_append_eq_zero (a := a) (b := c0 :: data)
  unfold cksumWords
  simp only [reduceCtorEq, and_false, if_false]
  rw [ho]
  generalize htake : words (data.take (data.length / 8 * 8)) = t at hw ⊢
  generalize words (data.drop (data.length / 8 * 8)) = r at hw ⊢
  have hrm := reduce_modEq (sum + t)
  have hrz := reduce_eq_zero (x := sum + t)
  have hrl := reduce_le (x := sum + t) (by omega)
  generalize reduce (sum + t) = u at hrm hrz hrl ⊢
  have hrm' := reduce_modEq (u + r)
  have hrz' := reduce_eq_zero (x := u + r)
  have hrl' := reduce_le (x := u + r) (by omega)
  generalize reduce (u + r) = w at hrm' hrz' hrl' ⊢
  have hcons : val (c0 :: data) = c0.toNat + 256 * val data := rfl
  have hc0 := c0.toNat_lt
  cases hb : oddByte data with
  | some c1 =>
    rw [hb] at hdata hdz hodd
    have hc1 := c1.toNat_lt
    have hp : pend (some c1) = c1.toNat := rfl
    simp only [hp] at hdata hdz
    constructor
    · simp only [pend, halfWord, hcons, Nat.ModEq] at hm hval hdata hrm hrm' ⊢
      omega
    · simp only [pend, halfWord]
      omega
    · simp only [Option.isSome_some, true_iff] at hodd
      simp only [Option.isSome_none, Bool.false_eq_true, false_iff, List.length_append, List.length_cons]
      omega
    · simp only [Option.isSome_some, true_iff] at hodd
      simp only [halfWord, List.length_append, List.length_cons]
      omega
  | none =>
    rw [hb] at hdata hdz hodd
    have hp : pend none = 0 := rfl
    simp only [hp, Nat.add_zero] at hdata hdz
    constructor
    · simp only [pend, hcons, Nat.ModEq] at hm hval hdata hrm hrm' ⊢
      omega
    · simp only [pend]
      omega
    · simp only [Option.isSome_none, Bool.false_eq_true, false_iff] at hodd
      simp only [Option.isSome_some, true_iff, List.length_append, List.length_cons]
      omega
    · simp only [List.length_append, List.length_cons]
      omega

theorem cksumData_sums (odd : Bool) (hn : (a ++ data).length ≤ 100000) (hm : sum ≡ val a [MOD 65535])
    (hz : sum = 0 ↔ val a = 0) (ha : a.length % 2 = 0) (hle : sum ≤ 65535 * (256 + a.length / 2)) :
    Sums (a ++ data) (cksumData sum odd data) := by
  unfold cksumData
  split
  · have hlt : sum < 2 ^ 32 := by
      rw [List.length_append] at hn
      omega
    have h1 := reduce_le hlt
    have h2 := reduce_eq_zero (x := sum)
    refine cksumWords_some hn ?_ (by omega) ha (by omega)
    rw [Nat.mul_comm]
    exact ((reduce_modEq sum).trans hm).mul_left 256
  · exact cksumWords_none hn hm hz ha hle

/-- One descriptor. -/
theorem cksumMbuf_sums (hs : Sums a s) (odd : Bool) (hl : 0 < len) (hn : a.length + len ≤ 100000) :
    Sums (a ++ data.take len) (cksumMbuf s len odd data).1 ∧
      (cksumMbuf s len odd data).2 = len - data.length := by
  obtain ⟨hm, hz, hodd, hle⟩ := hs
  cases data with
  | nil =>
    have hnil : cksumMbuf s len odd [] = (s, len) := by
      unfold cksumMbuf
      cases s.c0 <;> rfl
    rw [hnil, List.take_nil, List.append_nil]
    exact ⟨⟨hm, hz, hodd, hle⟩, rfl⟩
  | cons c1 data =>
    obtain ⟨k, rfl⟩ : ∃ k, len = k + 1 := ⟨len - 1, by omega⟩
    cases hc : s.c0 with
    | none =>
      rw [hc] at hm hz hodd
      have hpar : a.length % 2 = 0 := by
        simp only [Option.isSome_none, Bool.false_eq_true, false_iff] at hodd
        omega
      unfold cksumMbuf
      rw [hc]
      refine ⟨cksumData_sums odd ?_ hm hz hpar hle, rfl⟩
      rw [List.length_append, List.length_take]
      omega
    | some c0 =>
      rw [hc] at hm hz hodd
      have hpar : a.length % 2 = 1 := hodd.mp rfl
      have hval := val_append_odd hpar [c1]
      simp only [val, Nat.mul_zero, Nat.add_zero] at hval
      have hdata : Sums ((a ++ [c1]) ++ data.take k)
          (cksumData (s.sum + halfWord c0 c1) (!odd) (data.take k)) := by
        apply cksumData_sums
        · simp only [List.length_append, List.length_cons, List.length_nil, List.length_take]
          omega
        · simp only [pend, halfWord, Nat.ModEq] at hm hval ⊢
          omega
        · have h1 := val_append_eq_zero (a := a) (b := [c1])
          simp only [pend, halfWord, val] at hz h1 ⊢
          omega
        · rw [List.length_append]
          simp only [List.length_cons, List.length_nil]
          omega
        · have hc0 := c0.toNat_lt
          have hc1 := c1.toNat_lt
          simp only [halfWord, List.length_append, List.length_cons, List.length_nil]
          omega
      rw [List.append_assoc, List.singleton_append] at hdata
      unfold cksumMbuf
      rw [hc]
      refine ⟨hdata, ?_⟩
      simp only [List.length_cons]
      omega

/-- **The chain**: the first `len` bytes. -/
theorem cksumChain_sums (chain : List (Bool × List UInt8)) (hs : Sums a s) (hn : a.length + len ≤ 100000) :
    Sums (a ++ (chain.flatMap Prod.snd).take len) (cksumChain s len chain) := by
  induction chain generalizing a s len with
  | nil => simpa [cksumChain] using hs
  | cons m l ih =>
    obtain ⟨odd, data⟩ := m
    unfold cksumChain
    split
    · rename_i h0
      simpa [h0] using hs
    · rename_i h0
      obtain ⟨h1, h2⟩ := @cksumMbuf_sums _ data _ _ hs odd (Nat.pos_of_ne_zero h0) hn
      have h3 := @ih _ _ (len - data.length) h1 (by
        rw [List.length_append, List.length_take]
        omega)
      rw [List.append_assoc, ← List.take_append] at h3
      dsimp only
      rw [h2]
      exact h3

theorem sums_nil : Sums [] {} := by
  constructor <;> simp [pend, val, Nat.ModEq]

/-- The result of `in_cksum`: the complement of the sum of the first `len` bytes. -/
theorem inCksum_eq (chain : List (Bool × List UInt8)) (hn : len ≤ 100000) :
    ∃ x, x < 2 ^ 32 ∧ inCksum chain len = 65535 - reduce x ∧
      x ≡ val ((chain.flatMap Prod.snd).take len) [MOD 65535] ∧
      (x = 0 ↔ val ((chain.flatMap Prod.snd).take len) = 0) := by
  have h : Sums ([] ++ _) (cksumChain {} len chain) := cksumChain_sums chain sums_nil (by simpa using hn)
  rw [List.nil_append] at h
  refine ⟨_, ?_, rfl, h.modEq, h.zero⟩
  have h1 := h.le
  have h2 : pend (cksumChain {} len chain).c0 < 256 := by
    cases (cksumChain {} len chain).c0 with
    | none => decide
    | some c => exact c.toNat_lt
  rw [List.length_take] at h1
  omega

/-- A checksum of 0. -/
theorem inCksum_eq_zero (chain : List (Bool × List UInt8)) (hn : len ≤ 100000)
    (hm : val ((chain.flatMap Prod.snd).take len) ≡ 0 [MOD 65535])
    (hz : val ((chain.flatMap Prod.snd).take len) ≠ 0) : inCksum chain len = 0 := by
  obtain ⟨x, hx, heq, hmod, hzero⟩ := inCksum_eq chain hn
  have h := (reduce_eq_iff hx).mpr ⟨fun h0 => hz (hzero.mp h0), hmod.trans hm⟩
  omega

end TnNet.Ip
