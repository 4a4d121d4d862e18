import TnNet.Ip.OutputOnce
import Mathlib.Data.Nat.Bitwise

/-!
# What `ip_output` makes of the don't-fragment flag

`ip_output` keeps of `ip_off` what the constant `IP_DF` has in the order of the CPU, and asks for the
flag in network order.  On a little-endian CPU the two have no bit in common: the bit that is kept is
one of the fragment offset, `KEPT`.

* `be16_maskIpOff` — `ip_off` behind the mask.
* `ipOutput_dontFragment_iff` — when the flag is honoured: hardly ever when it is set.
-/

set_option autoImplicit false

namespace TnNet.Ip

open Bytes TnNet.Mem TnNet.Mem.Heap

variable {h : Heap} {mem : Bufs} {l m : List Block} {mp d : Block} {rc : Int} {ni : Netif}

/-- `IP_DF` in the order of the CPU, as the header has it. -/
def KEPT : Nat := 0x40

/-- The don't-fragment flag is set in a header. -/
def HasDf (ip : List UInt8) : Prop := be16 ip 6 &&& IP_DF ≠ 0

instance (ip : List UInt8) : Decidable (HasDf ip) := inferInstanceAs (Decidable (_ ≠ _))

/-- The flag is honoured on the interface `n`, for the packet `mp :: l` that is given to `ip_output`. -/
@[mk_iff] structure DontFragment (n : Netif) (h : Heap) (mem : Bufs) (mp : Block) (l : List Block)
    (o : Output) : Prop where
  big : HasDf (iphdr mem h mp) → n.ifMtu < be16 (iphdr mem h mp) 2 →
    o.rc = EMSGSIZE ∧ o.freed = mp :: l ∧ o.given = []
  kept : HasDf (iphdr mem h mp) → (be16 (iphdr mem h mp) 2 : Int) ≤ n.ifMtu →
    ∀ m l', m :: l' ∈ o.given → HasDf (iphdr o.mem h m)
  clear : ¬ HasDf (iphdr mem h mp) → (be16 (iphdr mem h mp) 2 : Int) ≤ n.ifMtu →
    ∀ m l', m :: l' ∈ o.given → be16 (iphdr o.mem h m) 6 = 0

/-- A packet that is small enough is not sent: a broadcast that is not allowed, or no `output_func`. -/
def Unsent (n : Netif) (ip : List UInt8) : Prop :=
  (ipDst ip = BitVec.allOnes 32 ∧ n.broadcast = false) ∨ n.outputFunc = none

/-- When the flag is honoured.  With the flag: a broadcast that is too large, or nothing is sent.
    Without it: the bit that the mask keeps is clear, or nothing is sent whole. -/
def DfHonoured (n : Netif) (ip : List UInt8) : Prop :=
  if HasDf ip then
    if n.ifMtu < be16 ip 2 then ipDst ip = BitVec.allOnes 32 ∧ n.broadcast = true else Unsent n ip
  else (be16 ip 2 : Int) ≤ n.ifMtu → Unsent n ip ∨ be16 ip 6 &&& KEPT = 0

/-! ## Headers -/

theorem be16_maskIpOff {ip : List UInt8} (hl : 8 ≤ ip.length) :
    be16 (maskIpOff ip) 6 = be16 ip 6 &&& KEPT := by
  have h6 : (maskIpOff ip).getD 6 0 = 0 := by
    unfold maskIpOff
    rw [List.getD_eq_getElem?_getD, List.getElem?_set_ne (by decide), List.getElem?_set_self (by omega)]
    rfl
  have h7 : (maskIpOff ip).getD 7 0 = ip.getD 7 0 &&& 0x40 := by
    unfold maskIpOff
    rw [List.getD_eq_getElem?_getD, List.getElem?_set_self (by rw [List.length_set]; omega)]
    rfl
  have hkept : ∀ a b : Nat, (a * 256 + b) &&& KEPT = b &&& KEPT := by
    intro a b
    rw [show KEPT = 2 ^ 6 from rfl, Nat.and_two_pow, Nat.and_two_pow, Nat.testBit_eq_decide_div_mod_eq,
      Nat.testBit_eq_decide_div_mod_eq]
    have hdiv : (a * 256 + b) / 2 ^ 6 % 2 = b / 2 ^ 6 % 2 := by omega
    rw [hdiv]
  unfold be16
  rw [h6, h7, hkept, UInt8.toNat_and]
  simp [KEPT]

theorem be16_outputHdr {ip : List UInt8} (hl : 8 ≤ ip.length) (id : Nat) :
    be16 (outputHdr ip id) 6 = be16 ip 6 &&& KEPT := by
  unfold outputHdr
  rw [be16_setBe16_of_ne (by omega), be16_maskIpOff (by simpa using hl)]
  unfold be16
  simp [List.getD_eq_getElem?_getD, List.getElem?_set_ne]

/-- The checksum is written into the header; `ip_off` stays. -/
theorem be16_sumIphdr (hd : h.dbuf mp = some d) (chain : List Block) :
    be16 (iphdr (sumIphdr mem h mp chain) h mp) 6 = be16 (iphdr mem h mp) 6 := by
  have hl : (iphdr mem h mp).length = 20 := by rw [iphdr_eq hd rfl, length_bufBytes]
  have hset : ∀ mem ip, ip.length = 20 → iphdr (setIphdr mem h mp ip) h mp = ip := fun mem ip hip => by
    rw [iphdr_eq hd rfl, (iphdr_setIphdr hd rfl hip).1]
  unfold sumIphdr
  dsimp only
  rw [hset mem _ (by simpa using hl)]
  rw [hset _ _ (by simpa using hl), be16_setLe16_of_ne (by omega), be16_setBe16_of_ne (by omega)]

/-! ## A packet that is too large -/

theorem sendPackets_rc (func : Option OutputFunc) (packets : List (List Block)) (h : Heap) (hrc : rc ≠ 0) :
    (sendPackets func packets rc h).2.1 = rc := by
  induction packets generalizing h with
  | nil => rfl
  | cons m rest ih =>
    unfold sendPackets
    rw [if_neg hrc]
    exact ih (h.mFreem m)

/-- How `ip4_fragment` ends. -/
theorem ip4Fragment_cases (h : Heap) (mem : Bufs) (mp : Block) (l : List Block) (ifMtu : Int) :
    ((ip4Fragment h mem mp l ifMtu).rc = EMSGSIZE ∧ (ip4Fragment h mem mp l ifMtu).freed = mp :: l) ∨
      (ip4Fragment h mem mp l ifMtu).wild = true ∨ (ip4Fragment h mem mp l ifMtu).rc = ENOBUFS ∨
      ((ip4Fragment h mem mp l ifMtu).rc = 0 ∧ (ip4Fragment h mem mp l ifMtu).packets ≠ []) := by
  unfold ip4Fragment
  dsimp only
  split
  · exact .inl ⟨rfl, rfl⟩
  split
  · exact .inr (.inl rfl)
  · exact .inr (.inr (.inl rfl))
  · exact .inr (.inr (.inr ⟨rfl, List.cons_ne_nil _ _⟩))

/-- A packet that is fragmented is not freed once with `EMSGSIZE` and nothing sent. -/
theorem sendFragments_sends (hdf : be16 (iphdr mem h mp) 6 &&& IP_DF = 0) :
    ¬ ((sendFragments h mem ni mp l).rc = EMSGSIZE ∧ (sendFragments h mem ni mp l).freed = mp :: l ∧
      (sendFragments h mem ni mp l).given = []) := by
  rintro ⟨hrc, hfreed, hgiven⟩
  unfold sendFragments at hrc hfreed hgiven
  rw [if_neg (by simp [hdf])] at hrc hfreed hgiven
  dsimp only at hrc hfreed hgiven
  have hcases := ip4Fragment_cases h mem mp l ni.ifMtu
  generalize ip4Fragment h mem mp l ni.ifMtu = r at *
  cases hw : r.wild with
  | true =>
    rw [hw, if_pos rfl] at hrc
    exact absurd (show (0 : Int) = EMSGSIZE from hrc) (by decide)
  | false =>
    rw [hw, if_neg Bool.false_ne_true] at hrc hfreed hgiven
    rcases hcases with ⟨hr, hf⟩ | hr | hr | ⟨hr, hp⟩
    · -- freed by both functions
      rw [if_pos (by rw [hr]; decide)] at hfreed
      simp [hf] at hfreed
    · exact absurd hr (by simp [hw])
    · rw [if_pos (by rw [hr]; decide)] at hrc
      exact absurd (hr.symm.trans hrc) (by decide)
    · rw [if_neg (by simp [hr])] at hrc hgiven
      obtain ⟨m, rest, hm⟩ := List.exists_cons_of_ne_nil hp
      rw [hm] at hrc hgiven
      cases hf : ni.outputFunc with
      | some f => simp [sendPackets, hf] at hgiven
      | none =>
        have hinval : EINVAL ≠ 0 := by decide
        simp only [sendPackets, hf, if_true, sendPackets_rc _ _ _ hinval] at hrc
        exact absurd hrc (by decide)

/-! ## Every packet -/

/-- What is sent whole is the packet itself. -/
theorem given_sendWhole (h : Heap) (mem : Bufs) (ni : Netif) (mp : Block) (l : List Block) :
    (sendWhole h mem ni mp l).given = if ni.outputFunc = none then [] else [mp :: l] := by
  unfold sendWhole
  cases ni.outputFunc <;> simp [dropPacket]

theorem mem_sendWhole (h : Heap) (mem : Bufs) (ni : Netif) (mp : Block) (l : List Block) :
    (sendWhole h mem ni mp l).mem = sumIphdr mem h mp (mp :: l) := by
  unfold sendWhole
  cases ni.outputFunc <;> rfl

/-- `ip_output` on the interface it has found. -/
theorem ipOutput_eq {tnet : Netifs} {ni : Option Netif} {n : Netif} (id : Nat) (hd : h.dbuf mp = some d)
    (hn : ni.or (ipRouteOut tnet (ipDst (iphdr mem h mp))) = some n) :
    ipOutput tnet ni id h mem mp l =
    outputOn h (setIphdr mem h mp (outputHdr (iphdr mem h mp) id)) n mp l := by
  have hl : (iphdr mem h mp).length = 20 := by rw [iphdr_eq hd rfl, length_bufBytes]
  obtain ⟨-, -, hdst, -⟩ := outputHdr_spec hl id
  rw [← hdst] at hn
  unfold ipOutput
  dsimp only
  rw [show setBe16 (maskIpOff ((iphdr mem h mp).set 0 0x45)) 4 id =
    outputHdr (iphdr mem h mp) id from rfl, hn]

/-- A packet that is small enough: the flag is not on what is given. -/
theorem whole_honoured {n : Netif} {ip : List UInt8} (hd : h.dbuf mp = some d)
    (hip : be16 (iphdr mem h mp) 6 = be16 ip 6 &&& KEPT)
    (hnb : ¬ (ipDst ip = BitVec.allOnes 32 ∧ n.broadcast = false)) :
    ((∀ m l', m :: l' ∈ (sendWhole h mem n mp l).given →
      HasDf (iphdr (sendWhole h mem n mp l).mem h m)) ↔
        Unsent n ip) ∧
      ((∀ m l', m :: l' ∈ (sendWhole h mem n mp l).given →
        be16 (iphdr (sendWhole h mem n mp l).mem h m) 6 = 0) ↔
        Unsent n ip ∨ be16 ip 6 &&& KEPT = 0) := by
  have hun : Unsent n ip ↔ n.outputFunc = none := or_iff_right hnb
  rw [hun, given_sendWhole, mem_sendWhole]
  by_cases hf : n.outputFunc = none
  · simp [hf]
  · have hdf : ¬ HasDf (iphdr (sumIphdr mem h mp (mp :: l)) h mp) := by
      unfold HasDf
      rw [be16_sumIphdr hd, hip, Nat.and_assoc]
      simp [KEPT, IP_DF]
    rw [if_neg hf]
    simp only [List.mem_singleton, List.cons.injEq, hf, iff_false, false_or]
    constructor
    · exact fun hall => hdf (hall mp l ⟨rfl, rfl⟩)
    · rw [← hip, ← be16_sumIphdr hd (mp :: l)]
      refine ⟨fun hall => hall mp l ⟨rfl, rfl⟩, ?_⟩
      rintro h0 m l' ⟨rfl, rfl⟩
      exact h0

/-- On an interface, with the header `ip_output` has written in front. -/
theorem outputOn_honoured_iff {n : Netif} {mem1 : Bufs} (hd : h.dbuf mp = some d)
    (hlen : be16 (iphdr mem1 h mp) 2 = be16 (iphdr mem h mp) 2)
    (hdst : ipDst (iphdr mem1 h mp) = ipDst (iphdr mem h mp)) (hdf : be16 (iphdr mem1 h mp) 6 &&& IP_DF = 0)
    (hoff : be16 (iphdr mem1 h mp) 6 = be16 (iphdr mem h mp) 6 &&& KEPT) :
    DontFragment n h mem mp l (outputOn h mem1 n mp l) ↔ DfHonoured n (iphdr mem h mp) := by
  rw [dontFragment_iff]
  unfold outputOn DfHonoured
  dsimp only
  rw [hlen, hdst]
  by_cases hb : ipDst (iphdr mem h mp) = BitVec.allOnes 32 ∧ n.broadcast = false
  · -- the broadcast is not allowed
    have hun : Unsent n (iphdr mem h mp) := .inl hb
    have hrc : EADDRNOTAVAIL ≠ EMSGSIZE := by decide
    rw [if_pos hb]
    simp [dropPacket, hun, hb.2, hrc]
  rw [if_neg hb]
  by_cases hbig : n.ifMtu < be16 (iphdr mem h mp) 2
  · have hnle : ¬ (be16 (iphdr mem h mp) 2 : Int) ≤ n.ifMtu := by omega
    by_cases hdst : ipDst (iphdr mem h mp) = BitVec.allOnes 32
    · have hallow : n.broadcast = true := by simpa [hdst] using hb
      rw [if_pos ⟨hdst, hbig⟩]
      simp [dropPacket, hnle, hdst, hallow]
    · rw [if_neg fun hc => hdst hc.1, if_neg hnle]
      have hsends := @sendFragments_sends h mem1 l mp n hdf
      have hno : ¬ (ipDst (iphdr mem h mp) = BitVec.allOnes 32 ∧ n.broadcast = true) := fun hc => hdst hc.1
      simp only [hsends, hno, hbig, hnle]
      simp
  · have hle : (be16 (iphdr mem h mp) 2 : Int) ≤ n.ifMtu := by omega
    rw [if_neg fun hc => hbig hc.2, if_pos hle]
    obtain ⟨hkept, hclear⟩ := whole_honoured (l := l) hd hoff hb
    by_cases hset : HasDf (iphdr mem h mp)
    · simp [hbig, hle, hset, hkept]
    · simp [hle, hset, hclear]

/-- **The don't-fragment flag is honoured** exactly under `DfHonoured`: a packet with the flag that is too
    large is fragmented, unless it is a broadcast, and a packet that is sent whole has lost the flag. -/
theorem ipOutput_dontFragment_iff (tnet : Netifs) (ni : Option Netif) (id : Nat) (h : Heap) (mem : Bufs)
    (mp : Block) (l : List Block) (hd : h.dbuf mp ≠ none) :
    (∀ n, ni.or (ipRouteOut tnet (ipDst (iphdr mem h mp))) = some n →
      DontFragment n h mem mp l (ipOutput tnet ni id h mem mp l)) ↔
    ∀ n, ni.or (ipRouteOut tnet (ipDst (iphdr mem h mp))) = some n → DfHonoured n (iphdr mem h mp) := by
  obtain ⟨d, hd⟩ := Option.ne_none_iff_exists'.mp hd
  refine forall_congr' fun n => imp_congr_right fun hn => ?_
  have hl : (iphdr mem h mp).length = 20 := by rw [iphdr_eq hd rfl, length_bufBytes]
  obtain ⟨hl1, hlen, hdst, hdf⟩ := outputHdr_spec hl id
  have hoff : be16 (outputHdr (iphdr mem h mp) id) 6 = be16 (iphdr mem h mp) 6 &&& KEPT :=
    be16_outputHdr (by omega) id
  have hip1 : iphdr (setIphdr mem h mp (outputHdr (iphdr mem h mp) id)) h mp =
      outputHdr (iphdr mem h mp) id := by
    rw [iphdr_eq hd rfl, (iphdr_setIphdr hd rfl hl1).1]
  rw [ipOutput_eq id hd hn]
  rw [← hip1] at hlen hdst hdf hoff
  exact outputOn_honoured_iff hd hlen hdst hdf hoff

/-- A packet without the flag goes out with a clear `ip_off`. -/
theorem ipOutput_dontFragment_small :
    DontFragment ethernet small.heap smallBufs ⟨.lobuf, 0⟩ []
      (ipOutput ⟨[ethernet], none⟩ none 7 small.heap smallBufs ⟨.lobuf, 0⟩ []) := by
  have hdf : ¬ HasDf (iphdr smallBufs small.heap ⟨.lobuf, 0⟩) := by decide +kernel
  have hoff : be16 (iphdr smallBufs small.heap ⟨.lobuf, 0⟩) 6 &&& KEPT = 0 := by decide +kernel
  refine (ipOutput_dontFragment_iff ⟨[ethernet], none⟩ none 7 small.heap smallBufs ⟨.lobuf, 0⟩ []
    (by decide +kernel)).mpr
    (fun n hn => ?_) ethernet rfl
  unfold DfHonoured
  rw [if_neg hdf]
  exact fun _ => .inr hoff

/-- The same packet with the flag. -/
def flaggedBufs : Bufs := fun b i => if i = 6 then 0x40 else smallBufs b i

/-- A packet of 36 bytes with the flag is sent in two fragments to an MTU of 28. -/
theorem flagged_fragmented :
    ¬ ∀ (tnet : Netifs) (ni : Option Netif) (id : Nat) (h : Heap) (mem : Bufs) (mp : Block)
      (l : List Block),
      h.dbuf mp ≠ none → ∀ n, ni.or (ipRouteOut tnet (ipDst (iphdr mem h mp))) = some n →
        DontFragment n h mem mp l (ipOutput tnet ni id h mem mp l) := by
  intro hall
  have hbig :=
    (hall ⟨[keeping], none⟩ none 7 small.heap flaggedBufs ⟨.lobuf, 0⟩ [] (by decide +kernel)
      keeping ?_).big
  · have hdf : HasDf (iphdr flaggedBufs small.heap ⟨.lobuf, 0⟩) := by decide +kernel
    have hlen : keeping.ifMtu < be16 (iphdr flaggedBufs small.heap ⟨.lobuf, 0⟩) 2 := by decide +kernel
    have hrc : (ipOutput ⟨[keeping], none⟩ none 7 small.heap flaggedBufs ⟨.lobuf, 0⟩ []).rc = 0 ∧
        (ipOutput ⟨[keeping], none⟩ none 7 small.heap flaggedBufs ⟨.lobuf, 0⟩ []).given.length = 2 := by
      decide +kernel
    have hgiven := (hbig hdf hlen).2.2
    rw [hgiven] at hrc
    exact absurd hrc.2 (by decide)
  · rfl

end TnNet.Ip
