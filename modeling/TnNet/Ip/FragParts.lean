import Mathlib.Data.List.Forall2
import TnNet.Ip.Output

/-!
# Headers and ranges of fragments

What `ip4_fragment` computes with: the header of a fragment, and the ranges of the datagram its loop
goes through.

* `fragHdr_of_off` — the header with its length, offset and checksum.
* `slices_spec`, `slices_flatten` — the ranges follow each other and make up the datagram.
-/

set_option autoImplicit false

namespace TnNet.Ip

open Bytes InetSum TnNet.Mem

/-! ## Fields -/

section Fields

variable {d : List UInt8} {i j x : Nat}

@[simp] theorem length_setLe16 (d : List UInt8) (i x : Nat) : (setLe16 d i x).length = d.length := by
  simp [setLe16]

theorem getD_setLe16 (h : j ≠ i ∧ j ≠ i + 1) (x : Nat) : (setLe16 d i x).getD j 0 = d.getD j 0 := by
  simp [setLe16, List.getD_eq_getElem?_getD, Ne.symm h.1, Ne.symm h.2]

theorem be16_setLe16_of_ne (h : j + 1 < i ∨ i + 1 < j) (x : Nat) : be16 (setLe16 d i x) j = be16 d j := by
  unfold be16
  rw [getD_setLe16 (by omega), getD_setLe16 (by omega)]

/-- A word that was 0 is set. -/
theorem val_setLe16 {a b : List UInt8} (ha : a.length % 2 = 0) (hx : x < 65536) :
    val (setLe16 (a ++ 0 :: 0 :: b) a.length x) ≡ val (a ++ 0 :: 0 :: b) + x [MOD 65535] := by
  have hset : setLe16 (a ++ 0 :: 0 :: b) a.length x = a ++ UInt8.ofNat x :: UInt8.ofNat (x / 256) :: b := by
    unfold setLe16
    rw [List.set_append_right _ _ (by omega), Nat.sub_self, List.set_cons_zero,
      List.set_append_right _ _ (by omega), Nat.add_sub_cancel_left]
    rfl
  have h1 := val_append_even ha (UInt8.ofNat x :: UInt8.ofNat (x / 256) :: b)
  have h2 := val_append_even ha (0 :: 0 :: b)
  rw [hset]
  have h0 : (0 : UInt8).toNat = 0 := rfl
  have h3 : (UInt8.ofNat x).toNat + 256 * (UInt8.ofNat (x / 256)).toNat = x := by
    rw [UInt8.toNat_ofNat', UInt8.toNat_ofNat']
    omega
  simp only [val, h0, Nat.ModEq] at h1 h2 ⊢
  omega

theorem val_ne_zero {c : UInt8} {l : List UInt8} (hc : c.toNat ≠ 0) : val (c :: l) ≠ 0 := by
  unfold val
  omega

end Fields

/-! ## The header of a fragment -/

/-- The header of the range of `len` bytes from `off` on, in the datagram with the header `ip`; `mf`
    says that more follow. -/
structure FragHdr (ip : List UInt8) (off len : Nat) (mf : Prop) (hdr : List UInt8) : Prop where
  length : hdr.length = 20
  ipLen : be16 hdr 2 = 20 + len
  off : (be16 hdr 6 &&& IP_OFFMASK) * 8 = off - 20
  mf : be16 hdr 6 &&& IP_MF ≠ 0 ↔ mf
  other : ∀ j, j ∉ [2, 3, 6, 7, 10, 11] → hdr.getD j 0 = ip.getD j 0
  sum : val hdr ≡ 0 [MOD 65535]

/-- The checksum makes the sum of the header a multiple. -/
theorem sum_modEq {ip : List UInt8} (hl : ip.length = 20) (chain : List (Bool × List UInt8))
    (hc : (chain.flatMap Prod.snd).take 20 = setBe16 ip 10 0) :
    val (setLe16 (setBe16 ip 10 0) 10 (inCksum chain 20)) ≡ 0 [MOD 65535] := by
  obtain ⟨x, hx, heq, hmod, -⟩ := inCksum_eq chain (show 20 ≤ 100000 by omega)
  rw [hc] at hmod
  have hsplit : setBe16 ip 10 0 = ip.take 10 ++ 0 :: 0 :: ip.drop 12 := by
    apply List.ext_getElem
    · simp [hl]
    · intro j h1 h2
      rw [length_setBe16, hl] at h1
      simp only [setBe16, List.getElem_set]
      rcases Nat.lt_or_ge j 10 with hj | hj
      · rw [if_neg (by omega), if_neg (by omega), List.getElem_append_left (by simp [hl, hj]),
          List.getElem_take]
      · rw [List.getElem_append_right (by simp [hl, hj])]
        simp only [List.length_take, hl]
        rcases Nat.lt_or_ge j 12 with hj2 | hj2
        · obtain rfl | rfl : j = 10 ∨ j = 11 := by omega
          all_goals rfl
        · obtain ⟨k, rfl⟩ : ∃ k, j = k + 12 := ⟨j - 12, by omega⟩
          rw [if_neg (by omega), if_neg (by omega)]
          simp only [show k + 12 - min 10 20 = k + 2 by omega, List.getElem_cons_succ, List.getElem_drop]
          congr 1
          omega
  have hlen : (ip.take 10).length = 10 := by simp [hl]
  have hval := val_setLe16 (a := ip.take 10) (b := ip.drop 12) (x := inCksum chain 20) (by rw [hlen])
    (by rw [heq]; omega)
  rw [hlen, ← hsplit] at hval
  refine reduce_complement hx (hval.trans ?_)
  rw [heq]
  exact hmod.symm.add_right _

/-- The field `ip_off` of a fragment, in the words of the loop. -/
def fragOff (ip : List UInt8) (off : Nat) (last : Bool) : Nat :=
  let ipOff := (off - 20) / 8 + (be16 ip 6 &&& 0xdfff)
  let ipOff := if be16 ip 6 &&& IP_MF ≠ 0 then ipOff ||| IP_MF else ipOff
  if last then ipOff else ipOff ||| IP_MF

/-- The flags and the offset, when the datagram is no fragment itself. -/
theorem fragOff_spec {ip : List UInt8} {off : Nat} (last : Bool)
    (hflags : be16 ip 6 &&& (IP_MF ||| IP_OFFMASK) = 0) (h8 : 8 ∣ off - 20) (hoff : off < 65536) :
    fragOff ip off last < 65536 ∧ (fragOff ip off last &&& IP_OFFMASK) * 8 = off - 20 ∧
      (fragOff ip off last &&& IP_MF ≠ 0 ↔ last = false) := by
  have hlt := be16_lt ip 6
  have hmod : be16 ip 6 % 16384 = 0 := by
    rw [← Nat.and_two_pow_sub_one_eq_mod (be16 ip 6) 14]
    exact hflags
  obtain ⟨k, hk⟩ : ∃ k, be16 ip 6 = k * 16384 := ⟨be16 ip 6 / 16384, by omega⟩
  have hk4 : k = 0 ∨ k = 1 ∨ k = 2 ∨ k = 3 := by omega
  have hmf : be16 ip 6 &&& IP_MF = 0 := by
    rw [hk]
    obtain rfl | rfl | rfl | rfl := hk4 <;> rfl
  have hkeep : be16 ip 6 &&& 0xdfff = be16 ip 6 := by
    rw [hk]
    obtain rfl | rfl | rfl | rfl := hk4 <;> rfl
  have hfrag : fragOff ip off last = if last then (off - 20) / 8 + be16 ip 6
      else ((off - 20) / 8 + be16 ip 6) ||| IP_MF := by
    unfold fragOff
    dsimp only
    rw [hmf, if_neg (show ¬ (0 : Nat) ≠ 0 by simp), hkeep]
  generalize hx : (off - 20) / 8 + be16 ip 6 = x at hfrag
  have hxlt : x < 65536 := by omega
  have hxoff : x &&& IP_OFFMASK = (off - 20) / 8 := by
    show x &&& 2 ^ 13 - 1 = _
    rw [Nat.and_two_pow_sub_one_eq_mod]
    omega
  -- the offset takes 13 bits, the flags begin at bit 14
  have hxmf : x &&& IP_MF = 0 := by
    have hbit : Nat.testBit x 13 = false := by
      rw [Nat.testBit_eq_decide_div_mod_eq, decide_eq_false_iff_not]
      omega
    show x &&& 2 ^ 13 = 0
    rw [Nat.and_two_pow, hbit]
    rfl
  cases last with
  | true =>
    simp only [if_true] at hfrag
    rw [hfrag, hxoff, hxmf]
    exact ⟨hxlt, by omega, by simp⟩
  | false =>
    simp only [Bool.false_eq_true, if_false] at hfrag
    rw [hfrag, Nat.and_or_distrib_right, Nat.and_or_distrib_right, hxoff, hxmf]
    refine ⟨Nat.or_lt_two_pow (n := 16) hxlt (by decide), ?_, by decide⟩
    have : IP_MF &&& IP_OFFMASK = 0 := rfl
    rw [this, Nat.or_zero]
    omega

/-- The header of a packet of `ip4_fragment` with the `ip_off` field `x`. -/
theorem fragHdr_of_off {ip : List UInt8} {off len x : Nat} {mf : Prop} (hl : ip.length = 20)
    (hx : x < 65536) (hoff : (x &&& IP_OFFMASK) * 8 = off - 20) (hmf : x &&& IP_MF ≠ 0 ↔ mf)
    (hlen : 20 + len < 65536) (chain : List (Bool × List UInt8))
    (hc : (chain.flatMap Prod.snd).take 20 = setBe16 (setBe16 (setBe16 ip 2 (len + 20)) 6 x) 10 0) :
    FragHdr ip off len mf
      (setLe16 (setBe16 (setBe16 (setBe16 ip 2 (len + 20)) 6 x) 10 0) 10 (inCksum chain 20)) := by
  have h6 : be16 (setLe16 (setBe16 (setBe16 (setBe16 ip 2 (len + 20)) 6 x) 10 0) 10 (inCksum chain 20))
      6 = x := by
    rw [be16_setLe16_of_ne (by omega), be16_setBe16_of_ne (by omega), be16_setBe16 (by simp [hl]),
      Nat.mod_eq_of_lt hx]
  constructor
  case length => simp [hl]
  case ipLen =>
    rw [be16_setLe16_of_ne (by omega), be16_setBe16_of_ne (by omega), be16_setBe16_of_ne (by omega),
      be16_setBe16 (by omega)]
    omega
  case off => rw [h6, hoff]
  case mf => rwa [h6]
  case other =>
    intro j hj
    simp only [List.mem_cons, List.not_mem_nil, or_false, not_or] at hj
    rw [getD_setLe16 (by omega), getD_setBe16 (by omega), getD_setBe16 (by omega), getD_setBe16 (by omega)]
  case sum => exact sum_modEq (by simp [hl]) chain hc

/-! ## The ranges of the datagram -/

/-- The ranges behind the first fragment: where each begins and its length. -/
def slices (ipLen fragLen : Nat) : Nat → Nat → List (Nat × Nat)
  | 0, _ => []
  | n + 1, off =>
    if off < ipLen then
      (off, min fragLen (ipLen - off)) :: slices ipLen fragLen n (off + min fragLen (ipLen - off))
    else []

section Slices

variable {ipLen fragLen n off : Nat} {s : Nat × Nat}

theorem slices_of_le (h : ipLen ≤ off) : slices ipLen fragLen n off = [] := by
  cases n with
  | zero => rfl
  | succ n => rw [slices, if_neg (by omega)]

/-- Each range begins at a multiple of 8 of the payload; all but the last one have the full length. -/
theorem slices_spec (hf : 0 < fragLen) (h8 : 8 ∣ fragLen) (ho : 20 ≤ off) (hoff : 8 ∣ off - 20) :
    ∀ s ∈ slices ipLen fragLen n off, off ≤ s.1 ∧ 8 ∣ s.1 - 20 ∧ 0 < s.2 ∧ s.2 ≤ fragLen ∧
      s.1 + s.2 ≤ ipLen ∧ (s.1 + s.2 < ipLen → s.2 = fragLen) := by
  induction n generalizing off with
  | zero => simp [slices]
  | succ n ih =>
    unfold slices
    split
    · rename_i hlt
      intro s hs
      rcases List.mem_cons.mp hs with rfl | hs
      · refine ⟨le_refl _, hoff, ?_⟩
        simp only
        omega
      · rcases Nat.le_total fragLen (ipLen - off) with hle | hle
        · rw [Nat.min_eq_left hle] at hs
          obtain ⟨h1, h2⟩ := ih (by omega) (by omega) s hs
          exact ⟨by omega, h2⟩
        · rw [Nat.min_eq_right hle, slices_of_le (by omega)] at hs
          cases hs
    · simp

/-- The ranges follow each other, and only the last one ends where the datagram does. -/
theorem slices_index (hn : ipLen ≤ off + n) (hf : 0 < fragLen) (i : Nat)
    (hs : (slices ipLen fragLen n off)[i]? = some s) :
    s.1 = off + (((slices ipLen fragLen n off).take i).map Prod.snd).sum ∧
      (s.1 + s.2 < ipLen ↔ i + 1 ≠ (slices ipLen fragLen n off).length) := by
  induction n generalizing off i with
  | zero => simp [slices] at hs
  | succ n ih =>
    unfold slices at hs ⊢
    split at hs
    · rename_i hlt
      rw [if_pos hlt]
      cases i with
      | zero =>
        cases hs
        refine ⟨by simp, ?_⟩
        rw [List.length_cons]
        rcases Nat.lt_or_ge (off + min fragLen (ipLen - off)) ipLen with hmore | hge
        · have hpos : 0 < (slices ipLen fragLen n (off + min fragLen (ipLen - off))).length := by
            cases n with
            | zero => omega
            | succ n =>
              rw [slices, if_pos hmore, List.length_cons]
              omega
          simp only [hmore, true_iff]
          omega
        · rw [slices_of_le hge, List.length_nil]
          simp only [Nat.zero_add, ne_eq, not_true_eq_false, iff_false, Nat.not_lt]
          exact hge
      | succ i =>
        rw [List.getElem?_cons_succ] at hs
        obtain ⟨h1, h2⟩ := ih (by omega) i hs
        refine ⟨?_, h2.trans ?_⟩
        · rw [h1, List.take_succ_cons, List.map_cons, List.sum_cons]
          omega
        · rw [List.length_cons]
          omega
    · simp at hs

/-- The ranges are all that is behind `off`. -/
theorem slices_flatten {α : Type} (hn : ipLen ≤ off + n) (hf : 0 < fragLen) (data : List α)
    (hd : data.length = ipLen) :
    ((slices ipLen fragLen n off).map fun s => (data.drop s.1).take s.2).flatten = data.drop off := by
  induction n generalizing off with
  | zero => simp [slices, List.drop_eq_nil_of_le (show data.length ≤ off by omega)]
  | succ n ih =>
    unfold slices
    split
    · rename_i hlt
      rw [List.map_cons, List.flatten_cons, ih (by omega)]
      simp only
      rw [← List.drop_drop, List.take_append_drop]
    · simp [List.drop_eq_nil_of_le (show data.length ≤ off by omega)]

/-- The last range ends where the datagram does. -/
theorem slices_last (hlt : off < ipLen) (hn : ipLen ≤ off + n) (hf : 0 < fragLen) :
    ∃ s ∈ slices ipLen fragLen n off, s.1 + s.2 = ipLen := by
  induction n generalizing off with
  | zero => omega
  | succ n ih =>
    rw [slices, if_pos hlt]
    rcases Nat.lt_or_ge (off + min fragLen (ipLen - off)) ipLen with hlt' | hge
    · obtain ⟨s, hs, heq⟩ := ih hlt' (by omega)
      exact ⟨s, List.mem_cons_of_mem _ hs, heq⟩
    · refine ⟨_, List.mem_cons_self, ?_⟩
      simp only
      omega

end Slices

end TnNet.Ip
