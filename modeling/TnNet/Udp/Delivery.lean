import TnNet.Udp.Sent

/-!
# A datagram from one host to the other

The packet of `udp_s_sendto` on the wire, and what the task of the interface, `ipv4_input`, `udp_input` and
`udp_s_recvfrom` of the other host make of it.

* `frame_queued` — a frame with a datagram for a socket is put into its queue.
* `queued_received` — what is then received is its data, with its source.
* `udp_crosses` — what one host sends, the other receives.
-/

set_option autoImplicit false

namespace TnNet.Udp

open Bytes InetSum TnNet.Mem TnNet.Mem.Heap TnNet.Pcb
open TnNet.Ip (iphdr ipDst ipV pseudoHeader hasAddr ipAddrIsbroadcast classANet RxPacket ValidHdr
  ForHost Goes stripEth
  netIface1RxTaskFunc ipv4Input)
open TnNet.Icmp (ipHl ipSrc)

variable {h : Heap} {own : Finset Block} {limbo : Set Block} {mem : Bufs} {m : Block}
  {pkt data : List UInt8} {e : Endpoints} {tnet : Ip.Netifs} {ni : Ip.Netif} {loopback : Bool}
  {udb : List UdpPcb} {id i j k : Nat}

/-! ## The frame -/

/-- A frame with an IP packet: the Ethernet header is in front, padding and the CRC are behind. -/
structure IsFrame (pkt frame : List UInt8) : Prop where
  type : be16 frame 12 = Ip.ETHERTYPE_IP
  inside : pkt <+: frame.drop Ip.etherHdrSize
  len : Ip.etherFraming + pkt.length ≤ frame.length

/-- The host takes datagrams for its block `j`. -/
structure Listens (tnet : Ip.Netifs) (ni : Ip.Netif) (loopback : Bool) (udb : List UdpPcb)
    (e : Endpoints) (m : Block) (j : Nat) : Prop where
  up : ni.up = true
  loop : loopback = true ∨ classANet e.dst ≠ Ip.IN_LOOPBACKNET ∧ classANet e.src ≠ Ip.IN_LOOPBACKNET
  here : hasAddr tnet e.dst = true
  src : ipAddrIsbroadcast ni e.src = false ∧ inMulticast e.src = false
  lookup : inPcblookup (udb.map UdpPcb.inp) e.src e.sport e.dst e.dport true = some j
  room : HasRoom udb m [] j

/-- The interface passes the packet to `ipv4_input`. -/
theorem rxTask_ip (hp : RxPacket h own limbo m []) (hf : IsFrame pkt (h.bytes mem m)) (hup : ni.up = true) :
    (∃ bcast, netIface1RxTaskFunc tnet ni loopback h mem m =
      .ipv4Input bcast (ipv4Input tnet ni loopback (stripEth h m) mem m [])) ∧
    RxPacket (stripEth h m) own limbo m [] ∧ ∃ pad, (stripEth h m).chainBytes mem [m] = pkt ++ pad := by
  obtain ⟨dd, hd⟩ := hp.exists_dbuf List.mem_cons_self
  have hlen : (h.bytes mem m).length = (h.mb m).mLen := Ip.length_packet hd
  have hfl := hf.len
  unfold Ip.etherFraming at hfl
  obtain ⟨hrx, hbytes⟩ := Ip.stripEth_spec hp (by unfold Ip.etherFraming; omega)
  have heh : bufBytes mem (h.dbuf m) (h.mb m).mData Ip.etherHdrSize =
      (h.bytes mem m).take Ip.etherHdrSize := by
    have h1 := bufBytes_drop_take mem (h.dbuf m) (h.mb m).mData (h.mb m).mLen 0 Ip.etherHdrSize
    rw [List.drop_zero, Nat.add_zero, Nat.sub_zero, Nat.min_eq_left (by unfold Ip.etherHdrSize; omega)]
      at h1
    exact h1.symm
  refine ⟨?_, hrx, ?_⟩
  · unfold netIface1RxTaskFunc
    rw [if_neg (by simp [hup])]
    dsimp only
    rw [heh, Ip.be16_take (by decide), hf.type, if_pos rfl]
    exact ⟨_, rfl⟩
  · obtain ⟨tail, htail⟩ := hf.inside
    rw [hbytes, ← htail]
    rw [List.take_append, List.take_of_length_le (by unfold Ip.etherFraming; omega)]
    exact ⟨_, rfl⟩

/-- The packet is for the host. -/
theorem isUdp_accepted (hudp : IsUdp e data pkt) (hl : Listens tnet ni loopback udb e m j)
    (pad : List UInt8) (port : Nat) :
    ValidHdr loopback (pkt ++ pad) ∧ ForHost tnet ni port (pkt ++ pad) ∧ Goes (pkt ++ pad) .udpInput := by
  have hlen := hudp.length
  have hbe : ∀ i, i < 19 → be16 (pkt ++ pad) i = be16 pkt i := fun i hi => be16_append (by omega)
  have h0 : (pkt ++ pad).getD 0 0 = 0x45 := (getD_append_left (by omega)).trans hudp.hl
  have h9 : (pkt ++ pad).getD 9 0 = IPPROTO_UDP := (getD_append_left (by omega)).trans hudp.proto
  have hhl : ipHl (pkt ++ pad) = 5 := by
    unfold ipHl
    rw [h0]
    rfl
  have hsrc : ipSrc (pkt ++ pad) = e.src := by
    rw [← hudp.src]
    unfold ipSrc
    rw [hbe 12 (by decide), hbe 14 (by decide)]
  have hdst : ipDst (pkt ++ pad) = e.dst := by
    rw [← hudp.dst]
    unfold ipDst
    rw [hbe 16 (by decide), hbe 18 (by decide)]
  refine ⟨?_, ?_, ?_⟩
  · constructor
    case version =>
      unfold ipV
      rw [h0]
      rfl
    case hlen =>
      rw [hhl]
      decide
    case loop => rw [hsrc, hdst]; exact hl.loop
    case sum =>
      rw [hhl, List.take_append_of_le_length (by omega)]
      exact hudp.sum
    case len =>
      rw [hhl, hbe 2 (by decide), hudp.len, List.length_append]
      omega
  · unfold ForHost
    rw [hdst, hsrc, if_pos hl.here]
    exact hl.src
  · unfold Goes
    rw [hbe 6 (by decide), hudp.off, h9]
    rfl

/-! ## The queue -/

/-- Nothing is changed behind what is written. -/
theorem drop_splice_of_ge {d a : List UInt8} {i k : Nat} (hi : i ≤ d.length) (hk : i + a.length ≤ k) :
    (splice d i a).drop k = d.drop k := by
  have hl : (d.take i ++ a).length = i + a.length := by
    rw [List.length_append, List.length_take, Nat.min_eq_left hi]
  unfold splice
  rw [List.drop_append, List.drop_of_length_le (by omega), List.nil_append, List.drop_drop, hl]
  congr 1
  omega

theorem getD_splice_of_ne {d a : List UInt8} {i j : Nat} (hi : i ≤ d.length)
    (hj : j < i ∨ i + a.length ≤ j) : (splice d i a).getD j 0 = d.getD j 0 := by
  rcases hj with hj | hj
  · have h1 := take_splice (l := a) (Nat.succ_le_of_lt hj) hi
    rw [← Ip.getD_take (Nat.lt_succ_self j), h1, Ip.getD_take (Nat.lt_succ_self j)]
  · have h1 := drop_splice_of_ge hi hj
    have h2 : ∀ l : List UInt8, l.getD j 0 = (l.drop j).getD 0 0 := fun l => by
      simp [List.getD_eq_getElem?_getD]
    rw [h2, h1, ← h2]

/-- A descriptor with a datagram; the checksum of the IP header has been cleared. -/
structure Holds (h : Heap) (own : Finset Block) (limbo : Set Block) (mem : Bufs) (m : Block) (e : Endpoints)
    (data pkt : List UInt8) : Prop where
  bufs : OwnBufs h own limbo [m]
  bytes : h.bytes mem m = splice pkt 10 [0, 0]
  udp : IsUdp e data pkt

namespace Holds

variable (hh : Holds h own limbo mem m e data pkt)
include hh

theorem mLen : (h.mb m).mLen = 28 + data.length := by
  obtain ⟨d, hd⟩ := hh.bufs.exists_dbuf List.mem_cons_self
  have hl := hh.udp.length
  have h1 : (h.bytes mem m).length = (h.mb m).mLen := Ip.length_packet hd
  rw [← h1, hh.bytes, length_splice (by simp only [List.length_cons, List.length_nil]; omega), hl]

theorem getD_ip (hi : i < 20) (hne : i < 10 ∨ 12 ≤ i) : (iphdr mem h m).getD i 0 = pkt.getD i 0 := by
  have hm := hh.mLen
  have hl := hh.udp.length
  rw [Ip.iphdr_eq_take (by omega), hh.bytes, Ip.getD_take hi, getD_splice_of_ne (by omega) hne]

theorem be16_ip (hi : i + 1 < 20) (hne : i + 1 < 10 ∨ 12 ≤ i) : be16 (iphdr mem h m) i = be16 pkt i := by
  unfold be16
  rw [hh.getD_ip (by omega) (by omega), hh.getD_ip hi (by omega)]

theorem ipHlen_eq : ipHlen mem h m = 20 := by
  unfold ipHlen ipHl
  rw [hh.getD_ip (by decide) (by decide), hh.udp.hl]
  rfl

theorem udphdr_eq : udphdr mem h m 20 = (pkt.drop 20).take 8 := by
  have hm := hh.mLen
  have hl := hh.udp.length
  have h1 := bufBytes_drop_take mem (h.dbuf m) (h.mb m).mData (h.mb m).mLen 20 8
  have h2 := @drop_splice_of_ge pkt [0, 0] 10 20 (by omega) (by decide)
  rw [Nat.min_eq_left (by omega)] at h1
  rw [← h2, ← hh.bytes]
  exact h1.symm

theorem getD_udp (hi : i < 8) : (udphdr mem h m 20).getD i 0 = pkt.getD (20 + i) 0 := by
  rw [hh.udphdr_eq, Ip.getD_take hi]
  simp [List.getD_eq_getElem?_getD]

theorem be16_udp (hi : i + 1 < 8) : be16 (udphdr mem h m 20) i = be16 pkt (20 + i) := by
  unfold be16
  rw [hh.getD_udp (by omega), hh.getD_udp hi, Nat.add_assoc]

theorem portAt_udp (hi : i + 1 < 8) : portAt (udphdr mem h m 20) i = portAt pkt (20 + i) := by
  unfold portAt
  rw [hh.getD_udp (by omega), hh.getD_udp hi, Nat.add_assoc]

theorem uhUlen_eq : uhUlen mem h m 20 = 8 + data.length := (hh.be16_udp (by decide)).trans hh.udp.ulen

theorem ipLen_eq : ipLen mem h m = 28 + data.length := (hh.be16_ip (by decide) (by decide)).trans hh.udp.len

theorem datagram : Datagram h own limbo mem m [] where
  held := hh.bufs.held
  own := hh.bufs.own
  nodup := hh.bufs.nodup
  hl := hh.ipHlen_eq.ge
  hdr := by
    rw [hh.ipHlen_eq, hh.mLen]
    unfold udphdrSize
    omega

end Holds

theorem Holds.rxCksum_eq (hh : Holds h own limbo mem m e data pkt) (hmax : data.length ≤ 65507) :
    ∃ mem', rxCksum mem h m [] 20 (uhUlen mem h m 20) = some (mem', 0) := by
  have hm := hh.mLen
  have hl := hh.udp.length
  obtain ⟨d, hd⟩ := hh.bufs.exists_dbuf List.mem_cons_self
  have hbl : (h.bytes mem m).length = (h.mb m).mLen := Ip.length_packet hd
  have h6 : be16 (udphdr mem h m 20) 6 ≠ 0 := by
    rw [hh.be16_udp (by decide)]
    exact hh.udp.usum
  have hpseudo : pseudoHeader (splice pkt 10 [0, 0]) IPPROTO_UDP (8 + data.length) =
      pseudoHeader pkt IPPROTO_UDP (8 + data.length) := by
    unfold pseudoHeader
    rw [drop_splice_of_ge (by omega) (by decide)]
  have hchain : h.chainBytes mem [m] = splice pkt 10 [0, 0] := by
    rw [Heap.chainBytes_cons, hh.bytes]
    exact List.append_nil _
  unfold rxCksum
  rw [if_neg h6, hh.uhUlen_eq, in4CksumMb_eq (by omega) (by omega), hh.bytes, hchain, hpseudo,
    drop_splice_of_ge (by omega) (by decide), List.take_of_length_le (by rw [List.length_drop]; omega),
    hh.udp.cksum]
  exact ⟨_, rfl⟩

/-- **A datagram for a socket is put into its queue.** -/
theorem Holds.queued (hh : Holds h own limbo mem m e data pkt) (hmax : data.length ≤ 65507) (id : Nat)
    (bcast : Bool)
    (hlookup : inPcblookup (udb.map UdpPcb.inp) e.src e.sport e.dst e.dport true = some j)
    (hroom : HasRoom udb m [] j) :
    (udpInput tnet ni id h mem udb m [] bcast).queued = some j := by
  obtain ⟨d, hd⟩ := hh.bufs.exists_dbuf List.mem_cons_self
  have hhl := hh.ipHlen_eq
  have hstrip : stripped h mem m = some (h, mem, 20) := by
    unfold stripped
    dsimp only
    unfold ipHlen at hhl
    rw [hhl, if_neg (by decide)]
  obtain ⟨mem1, hck⟩ := hh.rxCksum_eq hmax
  have honly := rxCksum_only hd hck
  have hip : iphdr mem1 h m = iphdr mem h m := by
    unfold iphdr
    rw [hd, honly.bufBytes (.inr (.inl (by omega)))]
  have hport : ∀ i, i + 1 < 6 → portAt (udphdr mem1 h m 20) i = portAt (udphdr mem h m 20) i := by
    intro i hi
    have hbyte : ∀ j, j < 6 → mem1 d ((h.mb m).mData + 20 + j) = mem d ((h.mb m).mData + 20 + j) :=
      fun j hj => honly d _ (.inr (.inl (by omega)))
    unfold portAt udphdr udphdrSize
    rw [hd, getD_bufBytes (by omega), getD_bufBytes (by omega), getD_bufBytes (by omega),
      getD_bufBytes (by omega), hbyte i (by omega), hbyte (i + 1) (by omega)]
  have hsrc : ipSrc (iphdr mem h m) = e.src := by
    rw [← hh.udp.src]
    unfold ipSrc
    rw [hh.be16_ip (by decide) (by decide), hh.be16_ip (by decide) (by decide)]
  have hdst : ipDst (iphdr mem h m) = e.dst := by
    rw [← hh.udp.dst]
    unfold ipDst
    rw [hh.be16_ip (by decide) (by decide), hh.be16_ip (by decide) (by decide)]
  have hfound : rxLookup mem1 h udb m 20 = some j := by
    unfold rxLookup
    dsimp only
    rw [hip, hsrc, hdst, hport 0 (by decide), hport 2 (by decide), hh.portAt_udp (by decide),
      hh.portAt_udp (by decide), hh.udp.sport, hh.udp.dport]
    exact hlookup
  have haddr : Addressed h mem udb m [] 20 mem1 j := ⟨hck, hfound, hroom⟩
  unfold udpInput
  rw [hstrip]
  dsimp only
  cases @udpInputStripped_ends tnet ni id 20 h mem udb m [] bcast with
  | panic hp hr hno =>
    have h20 := hp.2.2
    rw [Ip.length_packet hd, hh.mLen] at h20
    omega
  | dropped hp ha hdrop => exact absurd ⟨mem1, j, haddr⟩ (ha (by rw [hh.uhUlen_eq, hh.ipLen_eq]; omega))
  | queued mem2 k hp hlen ha hq hh2 hm =>
    have hmem : mem1 = mem2 := by simpa using haddr.cksum.symm.trans ha.cksum
    have hjk := haddr.lookup.symm.trans (hmem ▸ ha.lookup)
    rw [hq, hjk]

/-! ## `udp_s_recvfrom` -/

/-- The user has the data, up to the room there is for it, and the source. -/
structure Received (e : Endpoints) (data : List UInt8) (mem : Bufs) (len : Nat) (r : RecvOut) : Prop where
  bytes : r.bytes mem = data.take len
  rc : r.rc = if data.length ≤ len then (data.length : Int) else -TnNet.Ip.EMSGSIZE
  sender : r.sender =
    some (⟨sockaddrInSize, AF_INET, (htons e.sport).toNat, e.src.toNat⟩, IP4_SIN_ADDR_SIZE)

/-- A port as `udp_s_recvfrom` stores it. -/
theorem be16_of_portAt {d : List UInt8} {p : BitVec 16} (hp : portAt d k = p) :
    be16 d k = (htons p).toNat := by
  have h1 := (d.getD k 0).toNat_lt
  have h2 := (d.getD (k + 1) 0).toNat_lt
  rw [← hp, htons_toNat]
  unfold portAt be16
  rw [BitVec.toNat_ofNat]
  omega

theorem Holds.received {h2 : Heap} {mem2 : Bufs} {so : Socket} {q : RxQueue}
    {wake : Option RxItem} {len : Nat} {bcast : Bool} (hh : Holds h own limbo mem m e data pkt)
    (hq : (udpInput tnet ni id h mem udb m [] bcast).queued = some j)
    (hkept : Kept (udpInput tnet ni id h mem udb m [] bcast).heap
      (udpInput tnet ni id h mem udb m [] bcast).mem h2 mem2
      [m])
    (hso : so.soTdata = some q) (hget : (rxGet so q wake).map Prod.fst = some (.data m []))
      (hlen : 0 < len) :
    Received e data mem2 len (udpSRecvfrom h2 mem2 so wake len) := by
  obtain ⟨d, hd⟩ := hh.bufs.exists_dbuf List.mem_cons_self
  obtain ⟨⟨item, q'⟩, hr, rfl⟩ := Option.map_eq_some_iff.mp hget
  have hdat := hh.datagram
  have ht := taken_of_kept hdat hd (udpInput_queued hd hdat.hl hq) hkept
  have hpl : payloadLen mem h m = data.length := by
    unfold payloadLen
    rw [hh.ipHlen_eq, hh.uhUlen_eq]
    unfold udphdrSize
    omega
  have hdel := (rxTransfer_delivers hdat hd ht hlen (some q')).mpr (by
    rw [hpl, hh.ipHlen_eq, hh.mLen]
    unfold udphdrSize
    omega)
  unfold udpSRecvfrom
  rw [hso]
  dsimp only
  rw [hr]
  dsimp only
  obtain ⟨hbytes, -, hrc, hsender, -⟩ := hdel
  have hchain : (h.chainBytes mem [m]).drop (20 + udphdrSize) = data := by
    rw [Heap.chainBytes_cons, hh.bytes]
    have hl := hh.udp.length
    have h28 := @drop_splice_of_ge pkt [0, 0] 10 28 (by omega) (by decide)
    rw [hh.udp.data] at h28
    simp only [Heap.chainBytes, List.flatMap_nil, List.append_nil]
    exact h28
  rw [hpl] at hbytes hrc
  rw [hh.ipHlen_eq, hchain] at hbytes
  rw [hh.ipHlen_eq, hh.be16_udp (by decide), hh.be16_ip (by decide) (by decide),
    hh.be16_ip (by decide) (by decide)]
    at hsender
  have hsrc : be16 pkt 12 * 65536 + be16 pkt 14 = e.src.toNat := by
    have h12 := be16_lt pkt 12
    have h14 := be16_lt pkt 14
    rw [← hh.udp.src]
    unfold ipSrc
    rw [BitVec.toNat_ofNat]
    omega
  rw [be16_of_portAt hh.udp.sport, hsrc] at hsender
  refine ⟨?_, hrc, hsender⟩
  rw [hbytes]
  rcases Nat.le_total data.length len with hle | hle
  · rw [Nat.min_eq_left hle, List.take_length, List.take_of_length_le hle]
  · rw [Nat.min_eq_right hle]

/-! ## From one host to the other -/

/-- The host delivers the data of a frame in the descriptor `m`, through the queue of the block `j`. -/
def Delivers (tnet : Ip.Netifs) (ni : Ip.Netif) (loopback : Bool) (id : Nat) (h : Heap) (mem : Bufs)
    (udb : List UdpPcb) (m : Block) (j : Nat) (e : Endpoints) (data : List UInt8) : Prop :=
  ∃ bcast r, netIface1RxTaskFunc tnet ni loopback h mem m = .ipv4Input bcast r ∧ r.next = some .udpInput ∧
    (udpInput tnet ni id r.heap r.mem udb m [] bcast).queued = some j ∧
    ∀ h2 mem2 so q wake len, Kept (udpInput tnet ni id r.heap r.mem udb m [] bcast).heap
      (udpInput tnet ni id r.heap r.mem udb m [] bcast).mem h2 mem2 [m] →
      so.soTdata = some q → (rxGet so q wake).map Prod.fst = some (.data m []) → 0 < len →
      Received e data mem2 len (udpSRecvfrom h2 mem2 so wake len)

theorem frame_delivers (hp : RxPacket h own limbo m []) (hudp : IsUdp e data pkt)
    (hf : IsFrame pkt (h.bytes mem m)) (hmax : data.length ≤ 65507)
    (hl : Listens tnet ni loopback udb e m j) (id : Nat) :
    Delivers tnet ni loopback id h mem udb m j e data := by
  obtain ⟨⟨bcast, htask⟩, hrx, pad, hpad⟩ :=
    @rxTask_ip h own limbo mem m pkt tnet ni loopback hp hf hl.up
  obtain ⟨hv, hfor, hgoes⟩ :=
    isUdp_accepted hudp hl pad (Ip.uhDport mem (stripEth h m) m (ipHl (pkt ++ pad) * 4))
  have hlen := hudp.length
  have h20 : 20 ≤ ((stripEth h m).mb m).mLen := by
    obtain ⟨d, hd⟩ := hrx.exists_dbuf List.mem_cons_self
    have h1 := congrArg List.length hpad
    rw [Heap.chainBytes_cons, List.length_append, Ip.length_packet hd, List.length_append] at h1
    simp only [Heap.chainBytes, List.flatMap_nil, List.length_nil] at h1
    omega
  obtain ⟨h', mem', htrim, hs⟩ :=
    @Ip.ipv4Input_valid _ own limbo mem m [] tnet ni loopback _ hrx hpad h20 hv
  have hnext := (hs.next .udpInput).mpr ⟨hfor, hgoes⟩
  obtain ⟨-, hheap, hmem⟩ := hs.pass (by rw [hnext]; exact Option.some_ne_none _)
  have hh : Holds h' own limbo mem' m e data pkt := by
    refine ⟨hrx.toOwnBufs.same htrim.data.refs fun b _ => htrim.data.dbhdr b, ?_, hudp⟩
    have h1 := htrim.bytes
    rw [be16_append (by omega), hudp.len, ← hlen, List.take_left] at h1
    simpa [Heap.chainBytes] using h1
  refine ⟨bcast, _, htask, hnext, ?_, ?_⟩
  · rw [hheap, hmem]
    exact hh.queued hmax id bcast hl.lookup hl.room
  · rw [hheap, hmem]
    intro h2 mem2 so q wake len hkept hso hget hpos
    exact hh.received (hh.queued hmax id bcast hl.lookup hl.room) hkept hso hget hpos

/-- **What one host sends, the other receives.**  A call of `udp_s_sendto` with free buffers gives the
    interface one packet; when it arrives in a frame at a host that has a socket for it,
    `udp_s_recvfrom` has its data and its source. -/
theorem udp_crosses (tnet : Pcb.Netifs) (ni : Ip.Netif) (f : TnNet.Ip.OutputFunc) (fuel : Nat)
    (wake : Nat → Heap → Heap) (nbio : Bool) (id : Nat) (h : Heap) (own : Finset Block)
    (limbo : Set Block) (mem : Bufs) (s : Inpcbs) (i : Nat) (inp : Inpcb) (held : Bool)
    (buf dest : Option (List UInt8)) (a : SendArgs) (r : SendOut) (hw : WakeKeeps wake)
    (hheld : Heap.Held h own limbo) (hget : s.pcbs[i]? = some inp)
    (ha : sendArgs wake nbio h mem s held buf dest = .ok a) (hroom : HeaderRoom a.heap)
    (hcan : CanSend tnet s inp (dest.getD []))
    (hfit : Fits1 tnet.toIp ni f (sendDst tnet inp (dest.getD [])).1 (28 + (buf.getD []).length))
    (hr : udpSSendto tnet fuel wake nbio id h mem s i held buf dest = some r) :
    ∃ e pkt h' chain, SentFrom tnet inp (dest.getD []) e ∧ Emits f pkt h' chain r ∧
      r.rc = (if 0 < (f h' chain).2 then -(f h' chain).2 else (f h' chain).2) ∧
      pkt.length = 28 + (buf.getD []).length ∧
      ∀ tnet2 ni2 loopback h2 own2 limbo2 mem2 udb m j id2, RxPacket h2 own2 limbo2 m [] →
      IsFrame pkt (h2.bytes mem2 m) →
        Listens tnet2 ni2 loopback udb e m j →
        Delivers tnet2 ni2 loopback id2 h2 mem2 udb m j e (buf.getD []) := by
  obtain ⟨e, pkt, h', chain, hfrom, hudp, hem, hrc⟩ := sendto_emits hw hheld hget ha hroom hcan hfit hr
  refine ⟨e, pkt, h', chain, hfrom, hem, hrc, hudp.length, ?_⟩
  intro tnet2 ni2 loopback h2 own2 limbo2 mem2 udb m j id2 hp hf hl
  have hmax := (sendArgs_ready hw hheld ha).len
  unfold UDP_MAX_TX_SIZE at hmax
  exact frame_delivers hp hudp hf (by omega) hl id2

/-- The interface of 10.0.0.1, which frees what it is given. -/
def eth1 : Pcb.Netif :=
  ⟨⟨true, true, 1500, 0x0a000001, 0xffffff00, some fun h chain => (h.mFreem chain, 0)⟩, 0x0a0000ff⟩

/-- A descriptor with a frame of 64 bytes. -/
def wireRun : List HeapEvent := [.get .MB_MID1 false, .fill ⟨.lobuf, 0⟩ 64 0 64]

def wireOwners : Owners := wireRun.foldl Owners.step Owners.start

def wireHeap : Heap :=
  wireOwners.heap.set ⟨.lobuf, 0⟩
    { wireOwners.heap.mb ⟨.lobuf, 0⟩ with pkthdr := true, mLen := 64, mTlen := BitVec.ofNat 20 64 }

/-- The packet behind an Ethernet header. -/
def wireBufs (pkt : List UInt8) : Bufs := fun _ i =>
  ([2, 0, 0, 0, 0, 2, 2, 0, 0, 0, 0, 1, 8, 0] ++ pkt).getD i 0

theorem wire_rxPacket : RxPacket wireHeap wireOwners.own ∅ ⟨.lobuf, 0⟩ [] where
  held := (held_run wireRun (by decide)).same (sameRefs_pkthdr ..)
  own := by decide +kernel
  nodup := by decide
  pkthdr := rfl
  tlen := by decide +kernel

theorem wire_isFrame (hl : pkt.length = 32) : IsFrame pkt (wireHeap.bytes (wireBufs pkt) ⟨.lobuf, 0⟩) := by
  have hbuf : ∃ d, wireHeap.dbuf ⟨.lobuf, 0⟩ = some d := wire_rxPacket.exists_dbuf List.mem_cons_self
  have hdesc : (wireHeap.mb ⟨.lobuf, 0⟩).mData = 0 ∧ (wireHeap.mb ⟨.lobuf, 0⟩).mLen = 64 := by
    decide +kernel
  have hbytes : wireHeap.bytes (wireBufs pkt) ⟨.lobuf, 0⟩ =
      [2, 0, 0, 0, 0, 2, 2, 0, 0, 0, 0, 1, 8, 0] ++ pkt ++ List.replicate 18 0 := by
    obtain ⟨d, hd⟩ := hbuf
    unfold Heap.bytes
    rw [hd, hdesc.1, hdesc.2]
    apply List.ext_getElem
    · simp [bufBytes, hl]
    · intro i h1 h2
      simp only [bufBytes, wireBufs, List.getElem_map, List.getElem_range, Nat.zero_add]
      rcases Nat.lt_or_ge i 46 with hi | hi
      · rw [List.getElem_append_left (by simp [hl]; omega), List.getD_eq_getElem?_getD,
          List.getElem?_eq_getElem (by simp [hl]; omega)]
        rfl
      · rw [List.getElem_append_right (by simp [hl]; omega), List.getElem_replicate,
          List.getD_eq_getElem?_getD, List.getElem?_eq_none (by simp [hl]; omega)]
        rfl
  rw [hbytes, List.append_assoc]
  refine ⟨(be16_append (by simp)).trans (by decide), ⟨List.replicate 18 0, rfl⟩, ?_⟩
  simp [Ip.etherFraming, hl]

theorem wire_listens :
    Listens ⟨[Ip.eth2], none⟩ Ip.eth2 false port9 ⟨0x0a000001, 0x0a000002, 0x0104, 0x0900⟩
    ⟨.lobuf, 0⟩ 0 where
  up := rfl
  loop := .inr (by decide)
  here := by decide
  src := by decide
  lookup := by decide
  room := ⟨_, _, rfl, rfl, by decide⟩

/-- Four bytes from a connected socket of 10.0.0.1 to the port 9 of 10.0.0.2. -/
theorem udp_crosses_four : ∃ r pkt h' chain,
    udpSSendto ⟨[eth1], none⟩ 0 (fun _ h => h) true 7 Owners.start.heap
      (fun _ _ => 0) connected 0 false (some [1, 2, 3, 4]) none = some r ∧
    Emits (fun h chain => (h.mFreem chain, 0)) pkt h' chain r ∧ r.rc = 0 ∧
    Delivers ⟨[Ip.eth2], none⟩ Ip.eth2 false 1 wireHeap (wireBufs pkt) port9 ⟨.lobuf, 0⟩ 0
      ⟨0x0a000001, 0x0a000002, 0x0104, 0x0900⟩ [1, 2, 3, 4] := by
  have hroom : (sendArgs (fun _ h => h) true Owners.start.heap (fun _ _ => 0) connected false
      (some [1, 2, 3, 4])
      none).toOption.any (fun a => a.heap.free .lobuf != [] && a.heap.free .drvLobuf != []) = true := by
    decide +kernel
  have hsome : (udpSSendto ⟨[eth1], none⟩ 0 (fun _ h => h) true 7 Owners.start.heap (fun _ _ => 0)
      connected 0 false
      (some [1, 2, 3, 4]) none).isSome = true := by decide +kernel
  obtain ⟨r, hr⟩ := Option.isSome_iff_exists.mp hsome
  cases ha : sendArgs (fun _ h => h) true Owners.start.heap (fun _ _ => 0) connected false
    (some [1, 2, 3, 4]) none with
  | error x =>
    rw [ha] at hroom
    cases hroom
  | ok a =>
    rw [ha] at hroom
    simp only [Except.toOption, Option.any_some, Bool.and_eq_true, bne_iff_ne] at hroom
    have hcan : CanSend ⟨[eth1], none⟩ connected (connected.pcbs.getD 0 {})
        ((none : Option (List UInt8)).getD []) := by
      unfold CanSend
      rw [if_pos (show (none : Option (List UInt8)).getD [] = [] from rfl)]
      decide
    obtain ⟨e, pkt, h', chain, hfrom, hem, hrc, hlen, hdel⟩ := udp_crosses ⟨[eth1], none⟩ eth1.toNetif
      (fun h chain => (h.mFreem chain, 0)) 0 (fun _ h => h) true 7 Owners.start.heap Owners.start.own ∅
      (fun _ _ => 0)
      connected 0 _ false (some [1, 2, 3, 4]) none a r (fun _ h own limbo hh => ⟨limbo, hh, fun _ _ => rfl⟩)
      (held_run [] trivial) rfl ha hroom hcan ⟨rfl, rfl, by decide, fun _ => rfl⟩ hr
    obtain ⟨src, dst, sport, dport⟩ := e
    have hdst : (dst, dport) = (0x0a000002, 0x0900) := hfrom.dst
    have hsrc : src = 0x0a000001 := hfrom.src
    have hsport : sport = 0x0104 := hfrom.sport (.inl rfl)
    obtain ⟨rfl, rfl⟩ := Prod.mk.inj hdst
    subst hsrc hsport
    exact ⟨r, pkt, h', chain, hr, hem, hrc,
      hdel _ _ _ _ _ _ _ _ _ _ _ wire_rxPacket (wire_isFrame hlen) wire_listens⟩

end TnNet.Udp
