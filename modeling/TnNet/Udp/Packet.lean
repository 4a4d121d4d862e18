import TnNet.Ip.Input
import TnNet.Udp.Recv
import TnNet.Udp.Release

/-!
# A datagram on the wire

* `IsUdp` — an IP packet without options with a UDP datagram in it, both checksums right.
* `isUdp_udpHdrs` — the headers that `udp_output` and `ip_output` write, and the data, are one.
-/

set_option autoImplicit false

namespace TnNet.Udp

open Bytes InetSum TnNet.Mem TnNet.Mem.Heap TnNet.Pcb
open TnNet.Ip (ipDst setLe16 outputHdr maskIpOff pseudoHeader slice in4Cksum_eq)
open TnNet.Icmp (ipSrc sentHdr)

variable {h : Heap} {mem : Bufs} {m : Block} {l : List Block} {data ip : List UInt8} {id : Nat}

/-! ## Checksums that are written -/

/-- The complement of the sum, in the byte order of the CPU. -/
theorem swap16_checksum (a : List UInt8) : swap16 (checksum a) + val a ≡ 0 [MOD 65535] := by
  obtain ⟨h1, h2, -⟩ := @foldl_onesAdd 0 _ (beWords_le a) (by omega)
  have hv := val_beWords a
  unfold checksum onesSum swap16
  simp only [Nat.zero_add] at h2
  generalize (beWords a).foldl onesAdd 0 = y at *
  generalize (beWords a).sum = z at *
  unfold Nat.ModEq at *
  omega

/-- A word that was 0 gets the checksum. -/
theorem checksum_filled {a b : List UInt8} {x : Nat} (ha : a.length % 2 = 0) (hne : val a ≠ 0)
    (hx : x < 65536) (hsum : x ≡ swap16 (checksum (a ++ 0 :: 0 :: b)) [MOD 65535]) :
    checksum (a ++ (leBytes 2 x ++ b)) = 0 := by
  have h0 := swap16_checksum (a ++ 0 :: 0 :: b)
  have h1 := val_append_even ha (leBytes 2 x ++ b)
  have h2 := val_append_even ha (0 :: 0 :: b)
  have hval : val (leBytes 2 x ++ b) = x + val (0 :: 0 :: b) := by
    simp only [leBytes, List.cons_append, List.nil_append, val, UInt8.toNat_zero, UInt8.toNat_ofNat']
    omega
  rw [hval] at h1
  rw [checksum_eq_zero_iff]
  constructor
  · have h3 : x + val (a ++ 0 :: 0 :: b) ≡ 0 [MOD 65535] := (hsum.add_right _).trans h0
    refine h1.trans (Nat.ModEq.trans ?_ h3)
    rw [Nat.add_left_comm]
    exact h2.symm.add_left x
  · rw [ne_eq, val_append_eq_zero, not_and]
    exact fun hc => absurd hc hne

/-- The checksum of a datagram. -/
theorem in4CksumMb_eq {n : Nat} (h20 : 20 ≤ (h.bytes mem m).length) (hn : n ≤ 65535) :
    in4CksumMb mem h m l IPPROTO_UDP 20 n =
    some (swap16 (checksum (pseudoHeader (h.bytes mem m) IPPROTO_UDP n ++
      ((h.chainBytes mem (m :: l)).drop 20).take n))) := by
  have hflat : ((decide ((h.mb m).mData % 2 = 1), h.bytes mem m) ::
      l.map fun b => (decide ((h.mb b).mData % 2 = 1), h.bytes mem b)).flatMap Prod.snd =
      h.chainBytes mem (m :: l) := by
    rw [Heap.chainBytes_cons, List.flatMap_cons, List.flatMap_map]
    rfl
  unfold in4CksumMb
  dsimp only
  rw [(in4Cksum_eq _ _ IPPROTO_UDP 20 n (fun _ => ⟨Nat.le_refl 20, h20⟩) hn).1]
  unfold slice
  rw [hflat]

/-! ## The format -/

/-- The ends of a datagram. -/
structure Endpoints where
  src : BitVec 32
  dst : BitVec 32
  sport : BitVec 16
  dport : BitVec 16
  deriving DecidableEq, Repr

/-- An IP packet without options with a datagram in it. -/
structure IsUdp (e : Endpoints) (data pkt : List UInt8) : Prop where
  hl : pkt.getD 0 0 = 0x45
  length : pkt.length = 28 + data.length
  len : be16 pkt 2 = 28 + data.length
  off : be16 pkt 6 = 0
  proto : pkt.getD 9 0 = IPPROTO_UDP
  sum : checksum (pkt.take 20) = 0
  src : ipSrc pkt = e.src
  dst : ipDst pkt = e.dst
  sport : portAt pkt 20 = e.sport
  dport : portAt pkt 22 = e.dport
  ulen : be16 pkt 24 = 8 + data.length
  usum : be16 pkt 26 ≠ 0
  cksum : checksum (pseudoHeader pkt IPPROTO_UDP (8 + data.length) ++ pkt.drop 20) = 0
  data : pkt.drop 28 = data

/-- The headers `udp_output` and `ip_output` write; `sum` and `x` are the checksums, as the CPU has them. -/
def udpHdrs (e : Endpoints) (len id sum x : Nat) : List UInt8 :=
  [0x45, 0] ++ beBytes 2 (28 + len) ++ beBytes 2 id ++ [0, 0, 255, IPPROTO_UDP] ++ leBytes 2 sum ++
    beBytes 4 e.src.toNat ++ beBytes 4 e.dst.toNat ++ leBytes 2 e.sport.toNat ++
    leBytes 2 e.dport.toNat ++ beBytes 2 (len + 8) ++ leBytes 2 x

section Fields

variable {d a : List UInt8} {e : Endpoints} {len sum x j k : Nat}

theorem addr_beBytes (a : BitVec 32) :
    BitVec.ofNat 32 (be16 (beBytes 4 a.toNat) 0 * 65536 + be16 (beBytes 4 a.toNat) 2) = a := by
  have h := a.isLt
  refine BitVec.eq_of_toNat_eq ?_
  simp only [beBytes, leBytes, List.reverse_cons, List.reverse_nil, List.nil_append, List.cons_append, be16,
    List.getD_cons_zero, List.getD_cons_succ, Nat.reduceAdd, UInt8.toNat_ofNat', BitVec.toNat_ofNat]
  omega

theorem be16_beBytes (hx : x < 65536) : be16 (beBytes 2 x) 0 = x := by
  simp only [beBytes, leBytes, List.reverse_cons, List.reverse_nil, List.nil_append, List.cons_append, be16,
    List.getD_cons_zero, List.getD_cons_succ, Nat.reduceAdd, UInt8.toNat_ofNat']
  omega

theorem portAt_leBytes (p : BitVec 16) : portAt (leBytes 2 p.toNat) 0 = p := by
  have h := p.isLt
  refine BitVec.eq_of_toNat_eq ?_
  simp only [leBytes, portAt, List.getD_cons_zero, List.getD_cons_succ, Nat.reduceAdd, UInt8.toNat_ofNat',
    BitVec.toNat_ofNat]
  omega

/-- A byte of what is at the place `k`. -/
theorem getD_at (ha : a <+: d.drop k) (hj : j < a.length) : d.getD (k + j) 0 = a.getD j 0 := by
  obtain ⟨b, hb⟩ := ha
  rw [← getD_append_left hj (b := b), hb]
  simp [List.getD_eq_getElem?_getD]

theorem be16_at (ha : a <+: d.drop k) (hj : j + 1 < a.length) : be16 d (k + j) = be16 a j := by
  unfold be16
  rw [Nat.add_assoc, getD_at ha (by omega), getD_at ha hj]

theorem portAt_at (ha : a <+: d.drop k) (hj : j + 1 < a.length) : portAt d (k + j) = portAt a j := by
  unfold portAt
  rw [Nat.add_assoc, getD_at ha (by omega), getD_at ha hj]

/-- An address at the place `k`. -/
theorem addr_at {a : BitVec 32} (ha : beBytes 4 a.toNat <+: d.drop k) :
    BitVec.ofNat 32 (be16 d k * 65536 + be16 d (k + 2)) = a := by
  have h0 : be16 d (k + 0) = be16 (beBytes 4 a.toNat) 0 := be16_at ha (by simp [beBytes])
  have h2 : be16 d (k + 2) = be16 (beBytes 4 a.toNat) 2 := be16_at ha (by simp [beBytes])
  rw [Nat.add_zero] at h0
  rw [h0, h2, addr_beBytes]

/-- The parts of the headers. -/
theorem udpHdrs_fields (e : Endpoints) (len id sum x : Nat) :
    beBytes 2 (28 + len) <+: (udpHdrs e len id sum x).drop 2 ∧ [0, 0] <+: (udpHdrs e len id sum x).drop 6 ∧
    beBytes 4 e.src.toNat <+: (udpHdrs e len id sum x).drop 12 ∧
    beBytes 4 e.dst.toNat <+: (udpHdrs e len id sum x).drop 16 ∧
    leBytes 2 e.sport.toNat <+: (udpHdrs e len id sum x).drop 20 ∧
    leBytes 2 e.dport.toNat <+: (udpHdrs e len id sum x).drop 22 ∧
    beBytes 2 (len + 8) <+: (udpHdrs e len id sum x).drop 24 ∧
    leBytes 2 x <+: (udpHdrs e len id sum x).drop 26 :=
  ⟨⟨_, rfl⟩, ⟨_, rfl⟩, ⟨_, rfl⟩, ⟨_, rfl⟩, ⟨_, rfl⟩, ⟨_, rfl⟩,
    ⟨_, rfl⟩, ⟨[], rfl⟩⟩

end Fields

theorem isUdp_udpHdrs {e : Endpoints} {sum x : Nat} (hlen : data.length ≤ 65507) (hx : 0 < x ∧ x < 65536)
    (hsum : val ((udpHdrs e data.length id sum x).take 20) ≡ 0 [MOD 65535])
    (hcksum : checksum (pseudoHeader (udpHdrs e data.length id sum x) IPPROTO_UDP (8 + data.length) ++
      ((udpHdrs e data.length id sum x).drop 20 ++ data)) = 0) :
    IsUdp e data (udpHdrs e data.length id sum x ++ data) := by
  have hfields := udpHdrs_fields e data.length id sum x
  have h28 : (udpHdrs e data.length id sum x).length = 28 := rfl
  have hver : (udpHdrs e data.length id sum x).getD 0 0 = 0x45 := rfl
  have hproto : (udpHdrs e data.length id sum x).getD 9 0 = IPPROTO_UDP := rfl
  generalize udpHdrs e data.length id sum x = hdrs at *
  have hat : ∀ {a : List UInt8} {k : Nat}, a <+: hdrs.drop k → a <+: (hdrs ++ data).drop k := fun ha => by
    rw [List.drop_append]
    exact ha.trans (List.prefix_append _ _)
  obtain ⟨hl, hoff, hsrc, hdst, hsport, hdport, hulen, husum⟩ := hfields
  constructor
  case hl => rw [getD_append_left (by omega), hver]
  case length => rw [List.length_append, h28]
  case len => exact (be16_at (hat hl) (Nat.lt_succ_self 1)).trans (be16_beBytes (by omega))
  case off =>
    have h0 : be16 (hdrs ++ data) (6 + 0) = be16 [0, 0] 0 := be16_at (hat hoff) (Nat.lt_succ_self 1)
    exact h0
  case proto => rw [getD_append_left (by omega), hproto]
  case sum =>
    rw [List.take_append_of_le_length (by omega), checksum_eq_zero_iff]
    refine ⟨hsum, fun h0 => ?_⟩
    cases hdrs with
    | nil => cases h28
    | cons c l =>
      rw [List.getD_cons_zero] at hver
      rw [List.take_succ_cons, hver, val] at h0
      have h45 : (0x45 : UInt8).toNat = 69 := rfl
      omega
  case src => exact addr_at (hat hsrc)
  case dst => exact addr_at (hat hdst)
  case sport => exact (portAt_at (hat hsport) (Nat.lt_succ_self 1)).trans (portAt_leBytes e.sport)
  case dport => exact (portAt_at (hat hdport) (Nat.lt_succ_self 1)).trans (portAt_leBytes e.dport)
  case ulen =>
    rw [Nat.add_comm 8]
    exact (be16_at (hat hulen) (Nat.lt_succ_self 1)).trans (be16_beBytes (by omega))
  case usum =>
    have h0 := @be16_at _ _ 0 26 (hat husum) (Nat.lt_succ_self 1)
    rw [h0]
    simp only [leBytes, be16, List.getD_cons_zero, List.getD_cons_succ, Nat.reduceAdd, UInt8.toNat_ofNat']
    omega
  case cksum =>
    have h1 : pseudoHeader (hdrs ++ data) IPPROTO_UDP (8 + data.length) =
        pseudoHeader hdrs IPPROTO_UDP (8 + data.length) := by
      unfold pseudoHeader
      rw [List.drop_append_of_le_length (by omega),
        List.take_append_of_le_length (by rw [List.length_drop]; omega)]
    rw [h1, List.drop_append_of_le_length (by omega)]
    exact hcksum
  case data => rw [List.drop_left' h28]

/-! ## The headers as they are written -/

/-- A list of 8 bytes. -/
theorem exists_eight {old : List UInt8} (h8 : old.length = 8) :
    ∃ o0 o1 o2 o3 o4 o5 o6 o7, old = [o0, o1, o2, o3, o4, o5, o6, o7] := by
  match old, h8 with
  | [o0, o1, o2, o3, o4, o5, o6, o7], _ => exact ⟨o0, o1, o2, o3, o4, o5, o6, o7, rfl⟩

/-- The bytes of the headers, and then those of `ip_output`. -/
theorem udpHdrs_written {old : List UInt8} {e : Endpoints} {inp : Inpcb} {x len sum : Nat}
    (h8 : old.length = 8) (he : e = ⟨inp.inpLaddr, inp.inpFaddr, inp.inpLport, inp.inpFport⟩) :
    let ip := (udpiphdr old inp len).take 20
    sentHdr (((setBe16 (setBe16 ip 2 (udpiphdrSize + len)) 6 0).set 8 255).set 1 0) id sum ++
      ((udpiphdr old inp len).take 26 ++ leBytes 2 x).drop 20 = udpHdrs e len id sum x := by
  obtain ⟨o0, o1, o2, o3, o4, o5, o6, o7, rfl⟩ := exists_eight h8
  subst he
  have h64 : UInt8.ofNat 0 &&& 0x40 = 0 := rfl
  simp only [udpiphdr, udpHdrs, udpiphdrSize, beBytes, leBytes, List.reverse_cons, List.reverse_nil,
    List.nil_append, List.cons_append, List.take_succ_cons, List.take_zero, List.drop_succ_cons,
    List.drop_zero, sentHdr, outputHdr, setLe16, setBe16, maskIpOff, List.set_cons_zero,
    List.set_cons_succ, List.getD_cons_zero, List.getD_cons_succ, h64]

/-- The checksum that `udp_output` writes. -/
theorem udpHdrs_cksum {old : List UInt8} {e : Endpoints} {inp : Inpcb} {x sum : Nat} (h8 : old.length = 8)
    (he : e = ⟨inp.inpLaddr, inp.inpFaddr, inp.inpLport, inp.inpFport⟩) (hx : x < 65536)
    (hsum : x ≡ swap16
      (checksum (pseudoHeader (udpiphdr old inp data.length) IPPROTO_UDP (8 + data.length) ++
      ((udpiphdr old inp data.length).drop 20 ++ data))) [MOD 65535]) :
    checksum (pseudoHeader (udpHdrs e data.length id sum x) IPPROTO_UDP (8 + data.length) ++
      ((udpHdrs e data.length id sum x).drop 20 ++ data)) = 0 := by
  obtain ⟨o0, o1, o2, o3, o4, o5, o6, o7, rfl⟩ := exists_eight h8
  subst he
  have hps : pseudoHeader
      (udpHdrs ⟨inp.inpLaddr, inp.inpFaddr, inp.inpLport, inp.inpFport⟩ data.length id sum x)
      IPPROTO_UDP (8 + data.length) =
      pseudoHeader (udpiphdr [o0, o1, o2, o3, o4, o5, o6, o7] inp data.length) IPPROTO_UDP
      (8 + data.length) := by
    unfold pseudoHeader
    congr 2
  -- the ports and the length are in front of the checksum
  have hold : (udpiphdr [o0, o1, o2, o3, o4, o5, o6, o7] inp data.length).drop 20 =
      (leBytes 2 inp.inpLport.toNat ++ leBytes 2 inp.inpFport.toNat ++ beBytes 2 (data.length + 8)) ++
      [0, 0] := rfl
  have hnew : (udpHdrs ⟨inp.inpLaddr, inp.inpFaddr, inp.inpLport, inp.inpFport⟩ data.length id sum
      x).drop 20 =
      (leBytes 2 inp.inpLport.toNat ++ leBytes 2 inp.inpFport.toNat ++ beBytes 2 (data.length + 8)) ++
        leBytes 2 x := rfl
  have hpl : (pseudoHeader (udpiphdr [o0, o1, o2, o3, o4, o5, o6, o7] inp data.length) IPPROTO_UDP
    (8 + data.length)).length = 12 := rfl
  have hpv : val (pseudoHeader (udpiphdr [o0, o1, o2, o3, o4, o5, o6, o7] inp data.length) IPPROTO_UDP
      (8 + data.length)) ≠ 0 := by
    unfold pseudoHeader
    rw [if_pos (by decide), ne_eq, val_append_eq_zero, not_and]
    intro _ h0
    rw [val, val] at h0
    have h17 : IPPROTO_UDP.toNat = 17 := rfl
    omega
  rw [hold] at hsum
  rw [hps, hnew]
  generalize pseudoHeader (udpiphdr [o0, o1, o2, o3, o4, o5, o6, o7] inp data.length) IPPROTO_UDP
    (8 + data.length) = ps at *
  have hport : (leBytes 2 inp.inpLport.toNat ++ leBytes 2 inp.inpFport.toNat ++
    beBytes 2 (data.length + 8)).length = 6 := rfl
  generalize leBytes 2 inp.inpLport.toNat ++ leBytes 2 inp.inpFport.toNat ++
    beBytes 2 (data.length + 8) = ports at *
  rw [List.append_assoc, ← List.append_assoc ps]
  refine checksum_filled ?_ ?_ hx ?_
  · rw [List.length_append]
    omega
  · rw [ne_eq, val_append_eq_zero, not_and]
    exact fun h0 => absurd h0 hpv
  · rwa [List.append_assoc, ← List.append_assoc ps] at hsum

end TnNet.Udp
