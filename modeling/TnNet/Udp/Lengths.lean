import TnNet.Ip.Packet
import TnNet.Udp.Input

/-!
# The lengths `udp_input` tests

`udp_input` compares `uh_ulen` with `ip_len` only.  `udpInput_checked_iff`: a chain is queued with a
length that fits the packet, or freed, exactly when the first descriptor holds the options, `in4_cksum`
does not panic, and the packet is not one with a length in the gap that the other tests let through.
-/

set_option autoImplicit false

namespace TnNet.Udp

open Bytes TnNet.Mem TnNet.Mem.Heap TnNet.Pcb
open TnNet.Ip (iphdr setIphdr in4Cksum)
open TnNet.Icmp (ipHl icmpError)

variable {tnet : Ip.Netifs} {ni : Ip.Netif} {id iphlen i : Nat} {h h1 : Heap} {mem mem1 mem' : Bufs}
  {udb : List UdpPcb} {mb : Block} {l : List Block} {bcast : Bool} {saveIp : List UInt8}

/-! ## The lengths -/

/-- `uh_ulen`, and `ip_len`. -/
def uhUlen (mem : Bufs) (h : Heap) (mb : Block) (iphlen : Nat) : Nat := be16 (udphdr mem h mb iphlen) 4

def ipLen (mem : Bufs) (h : Heap) (mb : Block) : Nat := be16 (iphdr mem h mb) 2

/-- The length of the IP header. -/
def ipHlen (mem : Bufs) (h : Heap) (mb : Block) : Nat := ipHl (iphdr mem h mb) * 4

/-- The packet as received has room for a datagram of the length. -/
def Fits (mem : Bufs) (h : Heap) (mb : Block) (ulen : Nat) : Prop :=
  udphdrSize ≤ ulen ∧ ipHlen mem h mb + ulen ≤ ipLen mem h mb

/-- A chain is queued with a length that fits; else it is freed, and no socket changes. -/
structure Checked (h : Heap) (mem : Bufs) (udb : List UdpPcb) (mb : Block) (l : List Block)
    (r : UdpIn) : Prop where
  fits : r.queued ≠ none → ∃ h1 mem1 iphlen, stripped h mem mb = some (h1, mem1, iphlen) ∧
    Fits mem h mb (uhUlen mem1 h1 mb iphlen)
  freed : r.queued = none → r.freed = mb :: l ∧ r.udb = udb ∧ r.wild = false ∧ r.panic = false

/-! ## The tests -/

/-- `tn_net_panic` is called. -/
def Panics (mem : Bufs) (h : Heap) (mb : Block) (iphlen : Nat) : Prop :=
  uhUlen mem h mb iphlen ≤ ipLen mem h mb ∧ be16 (udphdr mem h mb iphlen) 6 ≠ 0 ∧
    (iphlen < 20 ∨ (h.bytes mem mb).length < 20)

/-- The block has a socket, with room for the chain in its queue. -/
def HasRoom (udb : List UdpPcb) (mb : Block) (l : List Block) (i : Nat) : Prop :=
  ∃ so q, (udb[i]?).bind UdpPcb.inpSocket = some so ∧ so.soTdata = some q ∧
    tnQueueSendPolling q (.data mb l) ≠ none

/-- The checksum is right or absent, and there is a socket for the packet. -/
structure Addressed (h : Heap) (mem : Bufs) (udb : List UdpPcb) (mb : Block) (l : List Block)
    (iphlen : Nat) (mem' : Bufs) (i : Nat) : Prop where
  cksum : rxCksum mem h mb l iphlen (uhUlen mem h mb iphlen) = some (mem', 0)
  lookup : rxLookup mem' h udb mb iphlen = some i
  room : HasRoom udb mb l i

/-- A length that does not fit and is not tested: it is less than that of the header, or more than what
    is behind the IP header. -/
def InGap (mem : Bufs) (h : Heap) (mb : Block) (ulen : Nat) : Prop :=
  ulen ≤ ipLen mem h mb ∧ (ulen < udphdrSize ∨ ipLen mem h mb < ipHlen mem h mb + ulen)

theorem inGap_iff {ulen : Nat} : InGap mem h mb ulen ↔ ulen ≤ ipLen mem h mb ∧ ¬ Fits mem h mb ulen := by
  unfold InGap Fits
  omega

/-! ## The options -/

section Writes

variable {d : Block} {pos k : Nat} {data : List UInt8} {b : UInt8}

/-- A header of `k` bytes when its first byte and the bytes behind it are written. -/
theorem bufBytes_header (hk : 0 < k) :
    bufBytes (writeBuf (writeBuf mem (some d) (pos + k) data) (some d) pos [b]) (some d) pos k =
      (bufBytes mem (some d) pos k).set 0 b := by
  have hfirst := @bufBytes_splice (writeBuf mem (some d) (pos + k) data) d pos k 0 [b] (by simp; omega)
  have hkeep : bufBytes (writeBuf mem (some d) (pos + k) data) (some d) pos k =
      bufBytes mem (some d) pos k :=
    (only_writeBuf mem d (pos + k) rfl).bufBytes (.inr (.inl (Nat.le_refl _)))
  rw [hkeep, Nat.add_zero, splice_zero] at hfirst
  have hset : ∀ x : List UInt8, 0 < x.length → [b] ++ x.drop [b].length = x.set 0 b := by
    intro x hx
    cases x with
    | nil => simp at hx
    | cons c x => rfl
  rw [hfirst, hset _ (by simpa [bufBytes] using hk)]

/-- The bytes behind the header. -/
theorem bufBytes_behind (hk : 0 < k) :
    bufBytes (writeBuf (writeBuf mem (some d) (pos + k) data) (some d) pos [b]) (some d) (pos + k)
    data.length = data := by
  have hfirst : Only d pos 1 (writeBuf mem (some d) (pos + k) data)
      (writeBuf (writeBuf mem (some d) (pos + k) data) (some d) pos [b]) := only_writeBuf _ d pos rfl
  rw [hfirst.bufBytes (.inr (.inr (by omega))), bufBytes_writeBuf]

end Writes

/-- What `ip_stripoptions` does. -/
structure Strips (h : Heap) (mem : Bufs) (mb : Block) (h1 : Heap) (mem1 : Bufs) : Prop where
  refs : SameRefs h h1
  other : ∀ x, x ≠ mb → h1.mb x = h.mb x
  mData : (h1.mb mb).mData = (h.mb mb).mData
  mLen : (h1.mb mb).mLen = (h.mb mb).mLen - (ipHlen mem h mb - 20)
  hdr : ∃ b, iphdr mem1 h1 mb = (iphdr mem h mb).set 0 b
  rest : bufBytes mem1 (h.dbuf mb) ((h.mb mb).mData + 20) ((h.mb mb).mLen - ipHlen mem h mb) =
    bufBytes mem (h.dbuf mb) ((h.mb mb).mData + ipHlen mem h mb) ((h.mb mb).mLen - ipHlen mem h mb)

theorem ipStripoptions_spec (hs : ipStripoptions h mem mb = some (h1, mem1)) : Strips h mem mb h1 mem1 := by
  unfold ipStripoptions at hs
  dsimp only at hs
  split at hs
  · cases hs
  simp only [Option.some.injEq, Prod.mk.injEq] at hs
  rw [← ipHlen] at hs
  obtain ⟨hh, hm⟩ := hs
  have hrefs : SameRefs h h1 := by
    rw [← hh]
    exact sameRefs_set h mb _ _ _
  have hdata : (h1.mb mb).mData = (h.mb mb).mData := by rw [← hh, set_mb_self]
  refine ⟨hrefs, fun x hx => by rw [← hh, set_mb_ne hx], hdata, by rw [← hh, set_mb_self], ?_, ?_⟩
  · refine ⟨(iphdr mem h mb).getD 0 0 &&& 0xf0 ||| 5, ?_⟩
    generalize (iphdr mem h mb).getD 0 0 &&& 0xf0 ||| 5 = b at hm ⊢
    unfold iphdr
    rw [dbuf_refs hrefs, hdata, ← hm]
    cases h.dbuf mb with
    | none => rfl
    | some d => exact bufBytes_header (by decide)
  · rw [← hm]
    cases h.dbuf mb with
    | none => rfl
    | some d =>
      have hbehind := @bufBytes_behind mem d (h.mb mb).mData 20
        (bufBytes mem (some d) ((h.mb mb).mData + ipHlen mem h mb) ((h.mb mb).mLen - ipHlen mem h mb))
        ((iphdr mem h mb).getD 0 0 &&& 0xf0 ||| 5) (by decide)
      rwa [length_bufBytes] at hbehind

theorem getD_stripped {j : Nat} (hs : stripped h mem mb = some (h1, mem1, iphlen)) (hj : 0 < j) :
    (iphdr mem1 h1 mb).getD j 0 = (iphdr mem h mb).getD j 0 := by
  unfold stripped at hs
  dsimp only at hs
  split at hs
  · obtain ⟨⟨h2, mem2⟩, hstrip, heq⟩ := Option.map_eq_some_iff.mp hs
    simp only [Prod.mk.injEq] at heq
    obtain ⟨rfl, rfl, -⟩ := heq
    obtain ⟨b, hb⟩ := (ipStripoptions_spec hstrip).hdr
    have hne : 0 ≠ j := by omega
    simp [hb, List.getD_eq_getElem?_getD, hne]
  · simp only [Option.some.injEq, Prod.mk.injEq] at hs
    obtain ⟨rfl, rfl, -⟩ := hs
    rfl

/-- The fields of the header that are not the first byte. -/
theorem be16_stripped {j : Nat} (hs : stripped h mem mb = some (h1, mem1, iphlen)) (hj : 0 < j) :
    be16 (iphdr mem1 h1 mb) j = be16 (iphdr mem h mb) j := by
  unfold be16
  rw [getD_stripped hs hj, getD_stripped hs (Nat.succ_pos j)]

theorem ipLen_stripped (hs : stripped h mem mb = some (h1, mem1, iphlen)) :
    ipLen mem1 h1 mb = ipLen mem h mb :=
  be16_stripped hs Nat.two_pos

/-! ## What the parts do -/

/-- The chain is freed, and nothing else. -/
structure Dropped (udb : List UdpPcb) (mb : Block) (l : List Block) (r : UdpIn) : Prop where
  queued : r.queued = none
  freed : r.freed = mb :: l
  udb : r.udb = udb
  wild : r.wild = false
  panic : r.panic = false

theorem rxDrop_dropped : Dropped udb mb l (rxDrop h mem udb mb l) := ⟨rfl, rfl, rfl, rfl, rfl⟩

/-- `icmp_error` frees the packet it is about. -/
theorem icmpError_freed (type code : UInt8) (dest : BitVec 32) :
    (icmpError tnet ni id h mem mb l bcast type code dest).freed = mb :: l := by
  unfold icmpError
  dsimp only
  split
  · rfl
  split
  · rfl
  split
  · rfl
  split <;> rfl

theorem rxNoPort_dropped : Dropped udb mb l (rxNoPort tnet ni id h mem udb mb l bcast iphlen saveIp) := by
  unfold rxNoPort
  split
  · exact rxDrop_dropped
  · exact ⟨rfl, icmpError_freed _ _ _, rfl, rfl, rfl⟩

/-- The chain is queued when there is room for it. -/
theorem rxQueue_spec : (HasRoom udb mb l i ∧ (rxQueue h mem udb mb l i).queued = some i ∧
      (rxQueue h mem udb mb l i).heap = h ∧ (rxQueue h mem udb mb l i).mem = mem) ∨
    (¬ HasRoom udb mb l i ∧ Dropped udb mb l (rxQueue h mem udb mb l i)) := by
  unfold HasRoom rxQueue
  cases hso : (udb[i]?).bind UdpPcb.inpSocket with
  | none => exact .inr ⟨by simp, rxDrop_dropped⟩
  | some so =>
    cases hq : so.soTdata with
    | none => exact .inr ⟨by simp [hq], by simpa [hq] using rxDrop_dropped⟩
    | some q =>
      cases hsend : tnQueueSendPolling q (.data mb l) with
      | none => exact .inr ⟨by simp [hq, hsend], by simpa [hq, hsend] using rxDrop_dropped⟩
      | some q' => exact .inl ⟨⟨so, q, rfl, hq, by simp [hsend]⟩, by simp [hq, hsend]⟩

/-- The test of the checksum ends, or the length of the header or of the first descriptor is too small. -/
theorem rxCksum_eq_none_iff (len : Nat) : rxCksum mem h mb l iphlen len = none ↔
    be16 (udphdr mem h mb iphlen) 6 ≠ 0 ∧ (iphlen < 20 ∨ (h.bytes mem mb).length < 20) := by
  have hudp : IPPROTO_UDP ≠ 0 := by decide
  unfold rxCksum
  by_cases h0 : be16 (udphdr mem h mb iphlen) 6 = 0
  · simp [h0]
  · rw [if_neg h0, Option.map_eq_none_iff]
    unfold in4CksumMb in4Cksum
    simp only [hudp, h0, ne_eq, not_false_eq_true, true_and, ite_eq_left_iff]
    simp
    omega

/-- How `udp_input` ends behind the options. -/
inductive Ends (h : Heap) (mem : Bufs) (udb : List UdpPcb) (mb : Block) (l : List Block) (iphlen : Nat)
    (r : UdpIn) : Prop
  | panic (hp : Panics mem h mb iphlen) (hr : r.panic = true) (hq : r.queued = none)
  | queued (mem' : Bufs) (i : Nat) (hp : ¬ Panics mem h mb iphlen)
      (hlen : uhUlen mem h mb iphlen ≤ ipLen mem h mb) (ha : Addressed h mem udb mb l iphlen mem' i)
      (hq : r.queued = some i) (hh : r.heap = h) (hm : r.mem = mem')
  | dropped (hp : ¬ Panics mem h mb iphlen)
      (ha : uhUlen mem h mb iphlen ≤ ipLen mem h mb → ¬ ∃ mem' i, Addressed h mem udb mb l iphlen mem' i)
      (hd : Dropped udb mb l r)

theorem udpInputStripped_ends :
    Ends h mem udb mb l iphlen (udpInputStripped tnet ni id h mem udb mb l bcast iphlen) := by
  have hnone := @rxCksum_eq_none_iff iphlen h mem mb l (uhUlen mem h mb iphlen)
  have hpanics : Panics mem h mb iphlen ↔ uhUlen mem h mb iphlen ≤ ipLen mem h mb ∧
      rxCksum mem h mb l iphlen (uhUlen mem h mb iphlen) = none := by
    unfold Panics
    rw [hnone]
  unfold udpInputStripped
  dsimp only
  rw [← uhUlen, ← ipLen]
  by_cases hlen : ipLen mem h mb < uhUlen mem h mb iphlen
  · rw [if_pos hlen]
    exact .dropped (fun hp => by have := hp.1; omega) (fun hle => by omega) rxDrop_dropped
  rw [if_neg hlen]
  rw [Nat.not_lt] at hlen
  cases hsum : rxCksum mem h mb l iphlen (uhUlen mem h mb iphlen) with
  | none => exact .panic (hpanics.mpr ⟨hlen, hsum⟩) rfl rfl
  | some r =>
    obtain ⟨mem', x⟩ := r
    have hp : ¬ Panics mem h mb iphlen := by
      rw [hpanics, hsum]
      simp
    dsimp only
    by_cases hx : x = 0
    · rw [if_neg (not_not.mpr hx)]
      subst hx
      cases hfound : rxLookup mem' h udb mb iphlen with
      | none =>
        refine .dropped hp (fun _ => ?_) rxNoPort_dropped
        rintro ⟨mem'', i, ha⟩
        have heq : mem' = mem'' := by simpa using hsum.symm.trans ha.cksum
        rw [heq, ha.lookup] at hfound
        cases hfound
      | some i =>
        rcases @rxQueue_spec i h mem' udb mb l with ⟨hroom, hq, hh, hm⟩ | ⟨hroom, hd⟩
        · exact .queued mem' i hp hlen ⟨hsum, hfound, hroom⟩ hq hh hm
        · refine .dropped hp (fun _ => ?_) hd
          rintro ⟨mem'', j, ha⟩
          have heq : mem' = mem'' := by simpa using hsum.symm.trans ha.cksum
          rw [heq, ha.lookup] at hfound
          exact hroom (Option.some_inj.mp hfound ▸ ha.room)
    · rw [if_pos hx]
      refine .dropped hp (fun _ => ?_) rxDrop_dropped
      rintro ⟨mem'', i, ha⟩
      have heq : x = 0 := by simpa using congrArg (Option.map Prod.snd) (hsum.symm.trans ha.cksum)
      exact hx heq

/-! ## Every packet -/

/-- **The lengths of a datagram.**  A chain is queued with a length that fits, or freed, exactly when
    the first descriptor holds the options, `in4_cksum` does not panic, and no packet with a length in
    the gap passes the other tests. -/
theorem udpInput_checked_iff (tnet : Ip.Netifs) (ni : Ip.Netif) (id : Nat) (h : Heap) (mem : Bufs)
    (udb : List UdpPcb) (mb : Block) (l : List Block) (bcast : Bool) :
    Checked h mem udb mb l (udpInput tnet ni id h mem udb mb l bcast) ↔
      ∃ h1 mem1 iphlen, stripped h mem mb = some (h1, mem1, iphlen) ∧ ¬ Panics mem1 h1 mb iphlen ∧
        ¬ (InGap mem h mb (uhUlen mem1 h1 mb iphlen) ∧ ∃ mem' i,
          Addressed h1 mem1 udb mb l iphlen mem' i) := by
  unfold udpInput
  cases hs : stripped h mem mb with
  | none =>
    refine iff_of_false (fun hc => ?_) (by simp)
    have hwild := (hc.freed rfl).2.2.1
    cases hwild
  | some s =>
    obtain ⟨h1, mem1, iphlen⟩ := s
    have hiplen := ipLen_stripped hs
    have hcond : (∃ h2 mem2 k, some (h1, mem1, iphlen) = some (h2, mem2, k) ∧ ¬ Panics mem2 h2 mb k ∧
        ¬ (InGap mem h mb (uhUlen mem2 h2 mb k) ∧ ∃ mem' i, Addressed h2 mem2 udb mb l k mem' i)) ↔
        ¬ Panics mem1 h1 mb iphlen ∧
          ¬ (InGap mem h mb (uhUlen mem1 h1 mb iphlen) ∧ ∃ mem' i,
            Addressed h1 mem1 udb mb l iphlen mem' i) := by
      simp [and_assoc]
    rw [hcond, inGap_iff, ← hiplen]
    dsimp only
    cases @udpInputStripped_ends tnet ni id iphlen h1 mem1 udb mb l bcast with
    | panic hp hr hq =>
      refine iff_of_false (fun hc => ?_) (fun hc => hc.1 hp)
      have hno := (hc.freed hq).2.2.2
      rw [hr] at hno
      cases hno
    | queued mem' i hp hlen ha hq hh hm =>
      constructor
      · intro hc
        obtain ⟨h2, mem2, k, hs2, hfit⟩ := hc.fits (by simp [hq])
        rw [hs] at hs2
        simp only [Option.some.injEq, Prod.mk.injEq] at hs2
        obtain ⟨rfl, rfl, rfl⟩ := hs2
        exact ⟨hp, fun hgap => hgap.1.2 hfit⟩
      · rintro ⟨-, hgap⟩
        have hfit : Fits mem h mb (uhUlen mem1 h1 mb iphlen) := by
          by_contra hno
          exact hgap ⟨⟨hlen, hno⟩, mem', i, ha⟩
        exact ⟨fun _ => ⟨h1, mem1, iphlen, hs, hfit⟩, fun hno => by rw [hq] at hno; cases hno⟩
    | dropped hp ha hd =>
      refine iff_of_true ⟨fun hno => absurd hd.queued hno,
        fun _ => ⟨hd.freed, hd.udb, hd.wild, hd.panic⟩⟩ ⟨hp, ?_⟩
      rintro ⟨hgap, hto⟩
      exact ha hgap.1 hto

/-- A descriptor with a packet of 30 bytes from 10.0.0.2 to 10.0.0.1. -/
def rxRun : List HeapEvent := [.get .MB_MID1 false, .fill ⟨.lobuf, 0⟩ 30 0 30]

def rxHeap : Heap := (rxRun.foldl Owners.step Owners.start).heap

/-- A datagram without a checksum; `uh_ulen` is 4. -/
def shortBufs : Bufs := fun _ i =>
  [0x45, 0, 0, 30, 0, 1, 0, 0, 64, 17, 0x66, 0xcc, 10, 0, 0, 2, 10, 0, 0, 1, 0, 7, 0, 9, 0, 4, 0, 0,
    1, 2].getD i 0

/-- A block with the port 9, and its socket. -/
def port9 : List UdpPcb := [⟨{ inpLport := 0x0900 }, some { soTdata := some {} }⟩]

/-- A length that is less than that of the header is queued. -/
theorem short_length_queued :
    ¬ ∀ (tnet : Ip.Netifs) (ni : Ip.Netif) (id : Nat) (h : Heap) (mem : Bufs) (udb : List UdpPcb)
      (mb : Block) (l : List Block) (bcast : Bool),
      Checked h mem udb mb l (udpInput tnet ni id h mem udb mb l bcast) := by
  intro hall
  obtain ⟨hfits, -⟩ :=
    hall ⟨[], none⟩ ⟨true, true, 1500, 0, 0, none⟩ 0 rxHeap shortBufs port9 ⟨.lobuf, 0⟩ [] false
  have hqueued : (udpInput ⟨[], none⟩ ⟨true, true, 1500, 0, 0, none⟩ 0 rxHeap shortBufs port9
      ⟨.lobuf, 0⟩ [] false).queued = some 0 := by decide +kernel
  obtain ⟨h1, mem1, iphlen, hs, hulen, -⟩ := hfits (by rw [hqueued]; exact Option.some_ne_none 0)
  have hstripped : (stripped rxHeap shortBufs ⟨.lobuf, 0⟩).map
      (fun s => uhUlen s.2.1 s.1 ⟨.lobuf, 0⟩ s.2.2) = some 4 := by
    decide +kernel
  rw [hs] at hstripped
  have hfour := Option.some_inj.mp hstripped
  dsimp only at hfour
  unfold udphdrSize at hulen
  omega

end TnNet.Udp
