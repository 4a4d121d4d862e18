import Mathlib.Data.BitVec
import TnNet.Ip.Cksum

/-!
# `in4_cksum` with its pseudo header

The sum is an `int`, here the 32 bits of it; `REDUCE` takes them for an unsigned number.
`cksumChain32_toNat` says that no carry is lost: the sum is the one of `cksumChain`, which is not
bounded.

`in4Cksum_eq` — the checksum is that of the pseudo header and the bytes, wherever the chain is cut and
whatever the alignments; the IP header lies in the first descriptor, or there is no pseudo header.
-/

set_option autoImplicit false

namespace TnNet.Ip

open InetSum

/-! ## The accumulator -/

/-- `sum`, and `s_util.c[0]` when `mlen` is -1. -/
structure Cksum32 where
  sum : BitVec 32 := 0
  c0 : Option UInt8 := none

/-- `sum += *w++` for the words. -/
def addWords (sum : BitVec 32) : List UInt8 → BitVec 32
  | c0 :: c1 :: l => addWords (sum + BitVec.ofNat 32 (halfWord c0 c1)) l
  | _ => sum

/-- `REDUCE`, with `ADDCARRY`. -/
def reduce32 (sum : BitVec 32) : BitVec 32 :=
  let x := (sum.extractLsb' 0 16).setWidth 32 + (sum.extractLsb' 16 16).setWidth 32
  if 65535 < x.toInt then x - 65535 else x

/-- The words of a descriptor behind the byte that was taken to reach an even address. -/
def cksumWords32 (swapped : Option UInt8) (sum : BitVec 32) (data : List UInt8) : Cksum32 :=
  let n := data.length / 8 * 8
  let sum := addWords sum (data.take n)
  let rest := data.drop n
  if rest = [] ∧ swapped = none then ⟨sum, none⟩
  else
    let sum := addWords (reduce32 sum) rest
    match swapped with
    | none => ⟨sum, oddByte rest⟩
    | some c0 =>
      let sum := reduce32 sum <<< 8
      match oddByte rest with
      | some c1 => ⟨sum + BitVec.ofNat 32 (halfWord c0 c1), none⟩
      | none => ⟨sum, some c0⟩

/-- The bytes of a descriptor from an even or odd address on. -/
def cksumData32 (sum : BitVec 32) (odd : Bool) (data : List UInt8) : Cksum32 :=
  match odd, data with
  | true, c0 :: data => cksumWords32 (some c0) (reduce32 sum <<< 8) data
  | _, data => cksumWords32 none sum data

/-- One descriptor: the sum, and the length that is left. -/
def cksumMbuf32 (s : Cksum32) (len : Nat) (odd : Bool) (data : List UInt8) : Cksum32 × Nat :=
  match s.c0, data with
  | _, [] => (s, len)
  | some c0, c1 :: data =>
    (cksumData32 (s.sum + BitVec.ofNat 32 (halfWord c0 c1)) (!odd) (data.take (len - 1)),
      len - 1 - data.length)
  | none, data => (cksumData32 s.sum odd (data.take len), len - data.length)

/-- The loop over the chain. -/
def cksumChain32 : Cksum32 → Nat → List (Bool × List UInt8) → Cksum32
  | s, _, [] => s
  | s, len, (odd, data) :: l =>
    if len = 0 then s
    else
      let r := cksumMbuf32 s len odd data
      cksumChain32 r.1 r.2 l

/-- Skip the part in front of `off`. -/
def skipOff : List (Bool × List UInt8) → Nat → List (Bool × List UInt8)
  | [], _ => []
  | (odd, data) :: l, off =>
    if off = 0 ∨ off < data.length then (odd ^^ decide (off % 2 = 1), data.drop off) :: l
    else skipOff l (off - data.length)

/-- `u.ipov`: the addresses are those of the IP header. -/
def ipovly (iphdr : List UInt8) (nxt : UInt8) (len : Nat) : List UInt8 :=
  List.replicate 9 0 ++ [nxt, UInt8.ofNat (len / 256), UInt8.ofNat len] ++ (iphdr.drop 12).take 8

/-- What is summed in front of the data. -/
def pseudoHdr (iphdr : List UInt8) (nxt : UInt8) (len : Nat) : List UInt8 :=
  if nxt ≠ 0 then ipovly iphdr nxt len else []

/-- The accumulator behind the loops of `in4_cksum`. -/
def in4Sum (m : Bool × List UInt8) (l : List (Bool × List UInt8)) (nxt : UInt8) (off len : Nat) : Cksum32 :=
  cksumChain32 ⟨addWords 0 (pseudoHdr m.2 nxt len), none⟩ len (skipOff (m :: l) off)

/-- `in4_cksum` of the chain `m :: l`; there is no result when it calls `tn_net_panic`. -/
def in4Cksum (m : Bool × List UInt8) (l : List (Bool × List UInt8)) (nxt : UInt8) (off len : Nat) :
    Option Nat :=
  if nxt ≠ 0 ∧ (off < 20 ∨ m.2.length < 20) then none
  else
    let s := in4Sum m l nxt off len
    some (~~~ reduce32 (s.sum + BitVec.ofNat 32 (pend s.c0)) &&& 0xffff).toNat

/-! ## No carry is lost -/

variable {a data : List UInt8} {s : Cksum} {x : Cksum32} {sum : BitVec 32} {len n : Nat}
  {swapped : Option UInt8} {c0 c1 : UInt8}

theorem halfWord_lt (c0 c1 : UInt8) : halfWord c0 c1 < 65536 := by
  have h0 := c0.toNat_lt
  have h1 := c1.toNat_lt
  unfold halfWord
  omega

theorem add_halfWord (h : sum.toNat + halfWord c0 c1 < 2 ^ 32) :
    (sum + BitVec.ofNat 32 (halfWord c0 c1)).toNat = sum.toNat + halfWord c0 c1 := by
  have hw := halfWord_lt c0 c1
  rw [BitVec.toNat_add, BitVec.toNat_ofNat]
  omega

theorem addWords_toNat (h : sum.toNat + words data < 2 ^ 32) :
    (addWords sum data).toNat = sum.toNat + words data := by
  induction sum, data using addWords.induct with
  | case1 sum c0 c1 l ih =>
    simp only [words] at h
    have hadd := @add_halfWord sum c0 c1 (by omega)
    unfold addWords words
    rw [ih (by omega), hadd]
    omega
  | case2 l sum hl =>
    rcases l with _ | ⟨c0, _ | ⟨c1, l⟩⟩
    · rfl
    · rfl
    · exact absurd rfl (hl c0 c1 l)

theorem reduce32_toNat (sum : BitVec 32) : (reduce32 sum).toNat = reduce sum.toNat := by
  have hx : ((sum.extractLsb' 0 16).setWidth 32 + (sum.extractLsb' 16 16).setWidth 32).toNat =
      sum.toNat % 65536 + sum.toNat / 65536 := by
    have hsum := sum.isLt
    have hhigh : sum.toNat / 65536 < 65536 := by omega
    have hlow : sum.toNat % 65536 < 65536 := by omega
    rw [BitVec.toNat_add, BitVec.toNat_setWidth, BitVec.toNat_setWidth, BitVec.extractLsb'_toNat,
      BitVec.extractLsb'_toNat, Nat.shiftRight_zero, Nat.shiftRight_eq_div_pow]
    simp only [Nat.reducePow]
    generalize sum.toNat % 65536 = y at hlow ⊢
    generalize sum.toNat / 65536 = z at hhigh ⊢
    omega
  have hlt := sum.isLt
  unfold reduce32 reduce
  dsimp only
  generalize (sum.extractLsb' 0 16).setWidth 32 + (sum.extractLsb' 16 16).setWidth 32 = y at hx ⊢
  have hint : y.toInt = y.toNat := by
    rw [BitVec.toInt_eq_toNat_of_lt]
    omega
  rw [hint, hx]
  split
  · rw [if_pos (by omega), BitVec.toNat_sub_of_le, hx]
    · rfl
    · rw [BitVec.le_def, hx]
      change 65535 ≤ _
      omega
  · rw [if_neg (by omega), hx]

theorem shiftLeft_toNat (h : sum.toNat ≤ 65535) : (sum <<< 8).toNat = sum.toNat * 256 := by
  rw [BitVec.toNat_shiftLeft, Nat.shiftLeft_eq]
  omega

/-- The bounded accumulator is the exact one. -/
structure Exact32 (x : Cksum32) (s : Cksum) : Prop where
  sum : x.sum.toNat = s.sum
  c0 : x.c0 = s.c0

theorem cksumWords32_toNat (h : sum.toNat + words data < 2 ^ 32) (hw : words data < 2 ^ 31) :
    Exact32 (cksumWords32 swapped sum data) (cksumWords swapped sum.toNat data) := by
  obtain ⟨hsplit, -⟩ := words_split data
  have hfst := @addWords_toNat (data.take (data.length / 8 * 8)) sum (by omega)
  have hred := reduce_le (x := sum.toNat + words (data.take (data.length / 8 * 8))) (by omega)
  unfold cksumWords32 cksumWords
  dsimp only
  split
  · exact ⟨hfst, rfl⟩
  · have hsum :=
      @addWords_toNat (data.drop (data.length / 8 * 8))
        (reduce32 (addWords sum (data.take (data.length / 8 * 8))))
      (by rw [reduce32_toNat, hfst]; omega)
    rw [reduce32_toNat, hfst] at hsum
    cases swapped with
    | none => exact ⟨hsum, rfl⟩
    | some c0 =>
      have hr := reduce32_toNat (addWords (reduce32 (addWords sum (data.take (data.length / 8 * 8))))
        (data.drop (data.length / 8 * 8)))
      rw [hsum] at hr
      have hle := reduce_le (x := reduce (sum.toNat + words (data.take (data.length / 8 * 8))) +
        words (data.drop (data.length / 8 * 8))) (by omega)
      have hshl := shiftLeft_toNat (hr.trans_le hle)
      rw [hr] at hshl
      dsimp only
      cases oddByte (data.drop (data.length / 8 * 8)) with
      | none => exact ⟨hshl, rfl⟩
      | some c1 =>
        have hc := halfWord_lt c0 c1
        refine ⟨?_, rfl⟩
        dsimp only
        rw [add_halfWord (by omega), hshl]

theorem cksumData32_toNat (odd : Bool) (h : sum.toNat + words data < 2 ^ 32) (hn : data.length ≤ 65535) :
    Exact32 (cksumData32 sum odd data) (cksumData sum.toNat odd data) := by
  have hw := words_le data
  have heven := @cksumWords32_toNat data sum none h (by omega)
  cases odd with
  | false => exact heven
  | true =>
    cases data with
    | nil => exact heven
    | cons c0 rest =>
      have hrest := words_le rest
      have hr := reduce32_toNat sum
      have hle := reduce_le (x := sum.toNat) (by omega)
      have hshl := @shiftLeft_toNat (reduce32 sum) (by omega)
      rw [hr] at hshl
      rw [List.length_cons] at hn
      unfold cksumData32 cksumData
      dsimp only
      rw [← hshl]
      exact cksumWords32_toNat (by omega) (by omega)

theorem cksumMbuf32_toNat (hx : Exact32 x s) (hs : Sums a s) (odd : Bool) (hl : len ≤ 65535)
    (hn : a.length + len ≤ 70000) : Exact32 (cksumMbuf32 x len odd data).1 (cksumMbuf s len odd data).1 ∧
      (cksumMbuf32 x len odd data).2 = (cksumMbuf s len odd data).2 := by
  obtain ⟨hsum, hc⟩ := hx
  have hle := hs.le
  cases data with
  | nil =>
    unfold cksumMbuf32 cksumMbuf
    cases hx : x.c0 <;> rw [← hc, hx] <;> exact ⟨⟨hsum, hc⟩, rfl⟩
  | cons c1 data =>
    unfold cksumMbuf32 cksumMbuf
    rw [hc]
    cases hc0 : s.c0 with
    | none =>
      have hw := words_le ((c1 :: data).take len)
      rw [List.length_take] at hw
      refine ⟨?_, rfl⟩
      dsimp only
      rw [← hsum]
      exact cksumData32_toNat odd (by omega) (by rw [List.length_take]; omega)
    | some c0 =>
      have hw := words_le (data.take (len - 1))
      have hc := halfWord_lt c0 c1
      rw [List.length_take] at hw
      have hadd := @add_halfWord x.sum c0 c1 (by omega)
      refine ⟨?_, rfl⟩
      dsimp only
      rw [← hsum, ← hadd]
      exact cksumData32_toNat _ (by omega) (by rw [List.length_take]; omega)

/-- **No carry is lost.** -/
theorem cksumChain32_toNat (chain : List (Bool × List UInt8)) (hx : Exact32 x s) (hs : Sums a s)
    (hl : len ≤ 65535) (hn : a.length + len ≤ 70000) : Exact32 (cksumChain32 x len chain)
    (cksumChain s len chain) := by
  induction chain generalizing a x s len with
  | nil => exact hx
  | cons m l ih =>
    obtain ⟨odd, data⟩ := m
    unfold cksumChain32 cksumChain
    split
    · exact hx
    · rename_i h0
      obtain ⟨h1, h2⟩ := @cksumMbuf32_toNat a data s x len hx hs odd hl hn
      obtain ⟨h3, h4⟩ := @cksumMbuf_sums a data s len hs odd (Nat.pos_of_ne_zero h0) (by omega)
      dsimp only
      rw [h2]
      refine ih h1 h3 (by omega) ?_
      rw [h4, List.length_append, List.length_take]
      omega

/-! ## The checksum -/

variable {m : Bool × List UInt8} {l : List (Bool × List UInt8)} {nxt : UInt8} {off : Nat} {ip : List UInt8}

/-- The pseudo header: the addresses, a zero byte, the protocol and the length. -/
def pseudoHeader (ip : List UInt8) (nxt : UInt8) (len : Nat) : List UInt8 :=
  if nxt ≠ 0 then (ip.drop 12).take 8 ++ [0, nxt, UInt8.ofNat (len / 256), UInt8.ofNat len] else []

/-- The bytes `off .. off + len - 1` of a chain. -/
def slice (chain : List (Bool × List UInt8)) (off len : Nat) : List UInt8 :=
  ((chain.flatMap Prod.snd).drop off).take len

theorem flatMap_skipOff (chain : List (Bool × List UInt8)) (off : Nat) :
    (skipOff chain off).flatMap Prod.snd = (chain.flatMap Prod.snd).drop off := by
  induction chain generalizing off with
  | nil => simp [skipOff]
  | cons m l ih =>
    obtain ⟨odd, data⟩ := m
    unfold skipOff
    split
    · rename_i h
      have h0 : off - data.length = 0 := by omega
      simp [List.drop_append, h0]
    · rename_i h
      have hle : data.length ≤ off := by omega
      simp [List.drop_append, List.drop_eq_nil_of_le hle, ih]

/-- The overlay has the sum of the pseudo header. -/
theorem val_pseudoHdr (hip : nxt ≠ 0 → 20 ≤ ip.length) :
    (pseudoHdr ip nxt len).length % 2 = 0 ∧ (pseudoHdr ip nxt len).length ≤ 20 ∧
      (pseudoHeader ip nxt len).length % 2 = 0 ∧
      val (pseudoHdr ip nxt len) ≡ val (pseudoHeader ip nxt len) [MOD 65535] ∧
      (val (pseudoHdr ip nxt len) = 0 ↔ val (pseudoHeader ip nxt len) = 0) := by
  unfold pseudoHdr pseudoHeader
  by_cases h0 : nxt = 0
  · rw [if_neg (by simpa using h0), if_neg (by simpa using h0)]
    exact ⟨rfl, Nat.zero_le _, rfl, rfl, Iff.rfl⟩
  · rw [if_pos h0, if_pos h0]
    have haddr : ((ip.drop 12).take 8).length = 8 := by
      have := hip h0
      simp
      omega
    unfold ipovly
    generalize (ip.drop 12).take 8 = addrs at haddr ⊢
    generalize UInt8.ofNat (len / 256) = c1
    generalize UInt8.ofNat len = c2
    have h1 := val_append_even (a := List.replicate 9 0 ++ [nxt, c1, c2]) (by simp) addrs
    have h2 := val_append_even (a := addrs) (by omega) [0, nxt, c1, c2]
    have h3 : val (List.replicate 9 0 ++ [nxt, c1, c2]) =
        256 ^ 9 * (nxt.toNat + 256 * (c1.toNat + 256 * c2.toNat)) := by
      simp [val, List.replicate]
      omega
    have h4 : val [0, nxt, c1, c2] = 256 * (nxt.toNat + 256 * (c1.toNat + 256 * c2.toNat)) := by
      simp [val]
    refine ⟨by simp [haddr], by simp [haddr], by simp [haddr], ?_, ?_⟩
    · unfold Nat.ModEq at *
      omega
    · have h5 := val_append_eq_zero (a := List.replicate 9 0 ++ [nxt, c1, c2]) (b := addrs)
      have h6 := val_append_eq_zero (a := addrs) (b := [0, nxt, c1, c2])
      rw [h5, h6, h3, h4]
      omega

theorem sums_words {p : List UInt8} (hp : p.length % 2 = 0) : Sums p ⟨words p, none⟩ := by
  have hodd : oddByte p = none := by
    have h := oddByte_isSome p
    cases ho : oddByte p with
    | none => rfl
    | some c =>
      rw [ho, Option.isSome_some, hp] at h
      simp at h
  have hmod := val_words p
  have hz := words_eq_zero (l := p)
  have hle := words_le p
  rw [hodd] at hmod hz
  constructor
  case modEq => exact hmod
  case zero => exact hz
  case odd => simp [hp]
  case le =>
    simp only
    omega

/-- The accumulator of `in4_cksum` and the sum without bounds. -/
theorem in4Sum_exact (hip : nxt ≠ 0 → 20 ≤ m.2.length) (hlen : len ≤ 65535) :
    Exact32 (in4Sum m l nxt off len)
      (cksumChain ⟨words (pseudoHdr m.2 nxt len), none⟩ len (skipOff (m :: l) off)) := by
  obtain ⟨heven, hle, -⟩ := @val_pseudoHdr len nxt m.2 hip
  have hw := words_le (pseudoHdr m.2 nxt len)
  have hsum := @addWords_toNat (pseudoHdr m.2 nxt len) 0 (by
    change 0 + _ < _
    omega)
  have hinit : Exact32 ⟨addWords 0 (pseudoHdr m.2 nxt len), none⟩
      ⟨words (pseudoHdr m.2 nxt len), none⟩ :=
    ⟨by simpa using hsum, rfl⟩
  exact cksumChain32_toNat _ hinit (sums_words heven) hlen (by omega)

/-- The complement, cut to 16 bits. -/
theorem complement_toNat (h : sum.toNat ≤ 65535) : (~~~ sum &&& 0xffff).toNat = 65535 - sum.toNat := by
  rw [BitVec.toNat_and, BitVec.toNat_not]
  change _ &&& (2 ^ 16 - 1) = _
  rw [Nat.and_two_pow_sub_one_eq_mod]
  omega

/-- The sum without bounds, with the byte that waits. -/
def exactSum (m : Bool × List UInt8) (l : List (Bool × List UInt8)) (nxt : UInt8) (off len : Nat) : Nat :=
  let s := cksumChain ⟨words (pseudoHdr m.2 nxt len), none⟩ len (skipOff (m :: l) off)
  s.sum + pend s.c0

/-- The sum stands for the bytes, and fits in 32 bits. -/
theorem exactSum_spec (hip : nxt ≠ 0 → 20 ≤ m.2.length) (hlen : len ≤ 65535) :
    exactSum m l nxt off len < 2 ^ 32 ∧
      exactSum m l nxt off len ≡ val (pseudoHdr m.2 nxt len ++ slice (m :: l) off len) [MOD 65535] ∧
      (exactSum m l nxt off len = 0 ↔ val (pseudoHdr m.2 nxt len ++ slice (m :: l) off len) = 0) := by
  obtain ⟨heven, hle, -⟩ := @val_pseudoHdr len nxt m.2 hip
  have hs :=
    @cksumChain_sums (pseudoHdr m.2 nxt len) _ len (skipOff (m :: l) off) (sums_words heven) (by omega)
  rw [flatMap_skipOff] at hs
  refine ⟨?_, hs.modEq, hs.zero⟩
  have hbound := hs.le
  have hpend : pend (cksumChain ⟨words (pseudoHdr m.2 nxt len), none⟩ len (skipOff (m :: l) off)).c0 <
      256 := by
    cases (cksumChain ⟨words (pseudoHdr m.2 nxt len), none⟩ len (skipOff (m :: l) off)).c0 with
    | none => decide
    | some c => exact c.toNat_lt
  rw [List.length_append, List.length_take] at hbound
  unfold exactSum
  dsimp only
  omega

/-- What `in4_cksum` returns. -/
theorem in4Cksum_some (hip : nxt ≠ 0 → 20 ≤ off ∧ 20 ≤ m.2.length) (hlen : len ≤ 65535) :
    in4Cksum m l nxt off len = some (65535 - reduce (exactSum m l nxt off len)) := by
  obtain ⟨hsum, hc0⟩ := @in4Sum_exact len m l nxt off (fun h0 => (hip h0).2) hlen
  obtain ⟨hlt, -⟩ := @exactSum_spec len m l nxt off (fun h0 => (hip h0).2) hlen
  have hadd : ((in4Sum m l nxt off len).sum + BitVec.ofNat 32 (pend (in4Sum m l nxt off len).c0)).toNat =
      exactSum m l nxt off len := by
    unfold exactSum at hlt ⊢
    dsimp only at hlt ⊢
    rw [hc0, BitVec.toNat_add, hsum, BitVec.toNat_ofNat]
    omega
  have hred :=
    reduce32_toNat ((in4Sum m l nxt off len).sum + BitVec.ofNat 32 (pend (in4Sum m l nxt off len).c0))
  rw [hadd] at hred
  have hle := reduce_le hlt
  unfold in4Cksum
  rw [if_neg (by rintro ⟨h0, h1⟩; have := hip h0; omega)]
  dsimp only
  rw [complement_toNat (by omega), hred]

/-- **`in4_cksum`.**  The checksum is the one of the pseudo header and the bytes `off .. off + len - 1`,
    in the byte order of the CPU, and the accumulator is the sum without bounds. -/
theorem in4Cksum_eq (m : Bool × List UInt8) (l : List (Bool × List UInt8)) (nxt : UInt8) (off len : Nat)
    (hip : nxt ≠ 0 → 20 ≤ off ∧ 20 ≤ m.2.length) (hlen : len ≤ 65535) :
    in4Cksum m l nxt off len =
    some (swap16 (checksum (pseudoHeader m.2 nxt len ++ slice (m :: l) off len))) ∧
      (in4Sum m l nxt off len).sum.toNat =
        (cksumChain ⟨words (pseudoHdr m.2 nxt len), none⟩ len (skipOff (m :: l) off)).sum := by
  refine ⟨?_, (in4Sum_exact (fun h0 => (hip h0).2) hlen).sum⟩
  obtain ⟨heven, -, heven', hval, hzero⟩ := @val_pseudoHdr len nxt m.2 fun h0 => (hip h0).2
  obtain ⟨hx, hmod, hz⟩ := @exactSum_spec len m l nxt off (fun h0 => (hip h0).2) hlen
  have h1 := val_append_even heven (slice (m :: l) off len)
  have h2 := val_append_even heven' (slice (m :: l) off len)
  have hred := reduce_eq_onesSum hx ((hmod.trans h1).trans ((hval.add_right _).trans h2.symm))
    (by rw [hz, val_append_eq_zero, val_append_eq_zero, hzero])
  have hle : onesSum (beWords (pseudoHeader m.2 nxt len ++ slice (m :: l) off len)) ≤ 65535 :=
    (foldl_onesAdd (beWords_le _) (by omega)).1
  rw [in4Cksum_some hip hlen, hred, checksum, swap16_complement hle]

/-- An IP header from 10.0.0.1 to 10.0.0.2. -/
def cksumHdr : List UInt8 := [0x45, 0, 0, 23, 0, 0, 0, 0, 64, 17, 0, 0, 10, 0, 0, 1, 10, 0, 0, 2]

/-- Three bytes behind the header, in descriptors of no and of one byte and at odd addresses. -/
theorem in4Cksum_eq_split :
    in4Cksum (true, cksumHdr) [(false, []), (true, [1]), (true, [2]), (false, [3])] 17 20 3 =
      some (swap16 (checksum (pseudoHeader cksumHdr 17 3 ++ [1, 2, 3]))) ∧
    (in4Sum (true, cksumHdr) [(false, []), (true, [1]), (true, [2]), (false, [3])] 17 20 3).sum.toNat =
      (cksumChain ⟨words (pseudoHdr cksumHdr 17 3), none⟩ 3
        (skipOff [(true, cksumHdr), (false, []), (true, [1]), (true, [2]), (false, [3])] 20)).sum :=
  in4Cksum_eq (true, cksumHdr) _ 17 20 3 (fun _ => ⟨by decide, by decide⟩) (by decide)

/-- An IP header that does not lie in the first descriptor: `tn_net_panic` is called. -/
theorem split_header_panics :
    in4Cksum (false, cksumHdr.take 10) [(false, cksumHdr.drop 10 ++ [1, 2, 3])] 17 20 3 ≠
      some (swap16 (checksum (pseudoHeader cksumHdr 17 3 ++
        slice [(false, cksumHdr.take 10), (false, cksumHdr.drop 10 ++ [1, 2, 3])] 20 3))) := by
  have hpanic : in4Cksum (false, cksumHdr.take 10) [(false, cksumHdr.drop 10 ++ [1, 2, 3])] 17 20 3 =
      none := rfl
  rw [hpanic]
  exact Option.some_ne_none _ |>.symm

end TnNet.Ip
