import TnNet.Udp.Lengths

/-!
# What `udp_s_recvfrom` delivers

`recvfrom_delivers_iff`: a datagram that `udp_input` has queued is delivered exactly when the part of it
that is copied lies in the first descriptor.  `udp_s_recvfrom` moves `m_data` behind the headers, but
copies up to `m_len` bytes, and so from behind the data of the first descriptor when there are more.
-/

set_option autoImplicit false

namespace TnNet.Udp

open Bytes TnNet.Mem TnNet.Mem.Heap TnNet.Pcb
open TnNet.Ip (iphdr EMSGSIZE)
open TnNet.Icmp (ipHl)

variable {tnet : Ip.Netifs} {ni : Ip.Netif} {id iphlen i : Nat} {h h1 h2 : Heap} {mem mem1 mem2 mem' : Bufs}
  {udb : List UdpPcb} {mb b d : Block} {l chain : List Block} {bcast : Bool} {own : Finset Block}
  {limbo : Set Block}

/-! ## The statement -/

/-- A packet with a whole IP header and UDP header in its first descriptor; the descriptors are those of
    the driver. -/
structure Datagram (h : Heap) (own : Finset Block) (limbo : Set Block) (mem : Bufs) (mb : Block)
    (l : List Block) : Prop where
  held : Heap.Held h own limbo
  own : ∀ b ∈ mb :: l, b ∈ own ∧ (h.mb b).dbhdr = true
  nodup : (mb :: l).Nodup
  hl : 20 ≤ ipHlen mem h mb
  hdr : ipHlen mem h mb + udphdrSize ≤ (h.mb mb).mLen

/-- The descriptors of a chain and their buffers have not changed. -/
structure Kept (h : Heap) (mem : Bufs) (h2 : Heap) (mem2 : Bufs) (chain : List Block) : Prop where
  mb : ∀ b ∈ chain, h2.mb b = h.mb b
  bytes : ∀ b ∈ chain, ∀ d, h.dbuf b = some d → mem2 d = mem d

/-- The length of the payload. -/
def payloadLen (mem : Bufs) (h : Heap) (mb : Block) : Nat := uhUlen mem h mb (ipHlen mem h mb) - udphdrSize

/-- The places of the bytes of a chain. -/
def chainPlaces (h : Heap) (chain : List Block) : List (Block × Nat) :=
  chain.flatMap fun b => places h b (h.mb b).mLen

/-- The places of the payload behind headers without options. -/
def payloadPlaces (h : Heap) (mb : Block) (l : List Block) (n : Nat) : List (Block × Nat) :=
  ((chainPlaces h (mb :: l)).drop udpiphdrSize).take n

/-- The datagram received in `h` and `mem` is delivered by a call in `h2` and `mem2` with `len` bytes of
    room. -/
structure Delivered (h : Heap) (mem : Bufs) (mb : Block) (l : List Block) (h2 : Heap)
    (mem2 : Bufs) (len : Nat) (r : RecvOut) : Prop where
  bytes : r.bytes mem2 = ((h.chainBytes mem (mb :: l)).drop (ipHlen mem h mb + udphdrSize)).take
    (min (payloadLen mem h mb) len)
  inside : ∀ p ∈ r.copied, p ∈ payloadPlaces h2 mb l (payloadLen mem h mb)
  rc : r.rc = if payloadLen mem h mb ≤ len then (payloadLen mem h mb : Int) else -EMSGSIZE
  sender : r.sender = some (⟨sockaddrInSize, AF_INET, be16 (udphdr mem h mb (ipHlen mem h mb)) 0,
    be16 (iphdr mem h mb) 12 * 65536 + be16 (iphdr mem h mb) 14⟩, IP4_SIN_ADDR_SIZE)
  freed : r.freed = mb :: l

/-! ## Bytes and places -/

theorem getD_bufBytes {pos n j : Nat} (hj : j < n) :
    (bufBytes mem (some d) pos n).getD j 0 = mem d (pos + j) := by
  simp [bufBytes, List.getD_eq_getElem?_getD, hj]

theorem be16_bufBytes {pos n j : Nat} (hj : j + 1 < n) :
    be16 (bufBytes mem (some d) pos n) j = (mem d (pos + j)).toNat * 256 + (mem d (pos + j + 1)).toNat := by
  unfold be16
  rw [getD_bufBytes (by omega), getD_bufBytes hj, Nat.add_assoc]

theorem bufBytes_ext {e : Block} {p q n : Nat}
    (heq : bufBytes mem1 (some d) p n = bufBytes mem (some e) q n) {j : Nat}
    (hj : j < n) : mem1 d (p + j) = mem e (q + j) := by
  rw [← @getD_bufBytes mem1 d p n j hj, heq, getD_bufBytes hj]

theorem places_eq (hd : h.dbuf b = some d) (n : Nat) :
    places h b n = (List.range n).map fun i => (d, (h.mb b).mData + i) := by
  unfold places
  rw [hd]

theorem mem_places (hd : h.dbuf b = some d) {e : Block} {n p : Nat} :
    (e, p) ∈ places h b n ↔ e = d ∧ (h.mb b).mData ≤ p ∧ p < (h.mb b).mData + n := by
  rw [places_eq hd, List.mem_map]
  constructor
  · rintro ⟨i, hi, heq⟩
    rw [List.mem_range] at hi
    simp only [Prod.mk.injEq] at heq
    exact ⟨heq.1.symm, by omega, by omega⟩
  · rintro ⟨rfl, hle, hlt⟩
    exact ⟨p - (h.mb b).mData, List.mem_range.mpr (by omega), by simp; omega⟩

/-- The bytes of the first descriptor. -/
theorem chainBytes_first (hd : h.dbuf mb = some d) {j n : Nat} (hn : j + n ≤ (h.mb mb).mLen) :
    ((h.chainBytes mem (mb :: l)).drop j).take n = (List.range n).map fun i =>
    mem d ((h.mb mb).mData + j + i) := by
  have hlen : (h.bytes mem mb).length = (h.mb mb).mLen := Ip.length_packet hd
  have htake := bufBytes_drop_take mem (h.dbuf mb) (h.mb mb).mData (h.mb mb).mLen j n
  rw [Nat.min_eq_left (by omega)] at htake
  unfold Heap.chainBytes
  rw [List.flatMap_cons, List.drop_append_of_le_length (by omega), List.take_append_of_le_length
    (by rw [List.length_drop]; omega)]
  refine htake.trans ?_
  rw [hd]
  rfl

/-! ## The chain in the queue -/

section Descriptors

variable (hdat : Datagram h own limbo mem mb l)
include hdat

/-- Each descriptor is primary, and has a data buffer. -/
theorem Datagram.dbuf (hb : b ∈ mb :: l) : h.pri b = some b ∧ ∃ d, h.dbuf b = some d := by
  obtain ⟨hown, hhdr⟩ := hdat.own b hb
  exact ⟨by simp [pri, hhdr], exists_dbuf hdat.held.sharing hown⟩

/-- It is its own. -/
theorem Datagram.dbuf_ne (hb : b ∈ l) : h.dbuf b ≠ h.dbuf mb := by
  intro heq
  have hb' : b ∈ mb :: l := List.mem_cons_of_mem _ hb
  have hmb : mb ∈ mb :: l := List.mem_cons_self
  have hpb := (hdat.dbuf hb').1
  have hpm := (hdat.dbuf hmb).1
  have hroot := isRoot_of_pri (hdat.own b hb').1 hpb
  have hroot' := isRoot_of_pri (hdat.own mb hmb).1 hpm
  have hsame : (h.mb b).mDbuf = (h.mb mb).mDbuf := by simpa [Heap.dbuf, hpb, hpm] using heq
  have hbm := hdat.held.sharing.inj b mb hroot hroot' hsame
  exact (List.nodup_cons.mp hdat.nodup).1 (hbm ▸ hb)

end Descriptors

theorem stripped_spec (h20 : 20 ≤ ipHlen mem h mb) (hs : stripped h mem mb = some (h1, mem1, iphlen)) :
    Strips h mem mb h1 mem1 ∧ iphlen = 20 := by
  unfold stripped at hs
  dsimp only at hs
  rw [← ipHlen] at hs
  split at hs
  · obtain ⟨⟨h2, mem2⟩, hstrip, heq⟩ := Option.map_eq_some_iff.mp hs
    simp only [Prod.mk.injEq] at heq
    obtain ⟨rfl, rfl, rfl⟩ := heq
    exact ⟨ipStripoptions_spec hstrip, rfl⟩
  · have hk : ipHlen mem h mb = 20 := by omega
    simp only [Option.some.injEq, Prod.mk.injEq] at hs
    obtain ⟨rfl, rfl, rfl⟩ := hs
    refine ⟨⟨SameRefs.refl h, fun _ _ => rfl,
      rfl, by simp [hk], ⟨(iphdr mem h mb).getD 0 0, ?_⟩, by rw [hk]⟩, hk⟩
    cases hip : iphdr mem h mb with
    | nil => rfl
    | cons c l => rfl

/-- The test of the checksum writes `uh_sum`. -/
theorem rxCksum_only {len x : Nat} (hd : h.dbuf mb = some d)
    (hs : rxCksum mem h mb l iphlen len = some (mem', x)) :
    Only d ((h.mb mb).mData + iphlen + 6) 2 mem mem' := by
  unfold rxCksum at hs
  split at hs
  · simp only [Option.some.injEq, Prod.mk.injEq] at hs
    rw [← hs.1]
    exact fun _ _ _ => rfl
  · obtain ⟨y, -, heq⟩ := Option.map_eq_some_iff.mp hs
    simp only [Prod.mk.injEq] at heq
    rw [← heq.1, hd]
    exact only_writeBuf mem d _ (length_leBytes 2 y)

/-- The chain in the queue: the headers without options and without the checksum, and the payload. -/
structure InQueue (h : Heap) (mem : Bufs) (mb d : Block) (h' : Heap) (mem' : Bufs) : Prop where
  refs : SameRefs h h'
  other : ∀ b, b ≠ mb → h'.mb b = h.mb b
  mData : (h'.mb mb).mData = (h.mb mb).mData
  mLen : (h'.mb mb).mLen = (h.mb mb).mLen - (ipHlen mem h mb - 20)
  hdr : ∀ j, 0 < j → j < 20 → mem' d ((h.mb mb).mData + j) = mem d ((h.mb mb).mData + j)
  udp : ∀ j, j < (h.mb mb).mLen - ipHlen mem h mb → j ≠ 6 → j ≠ 7 →
    mem' d ((h.mb mb).mData + 20 + j) = mem d ((h.mb mb).mData + ipHlen mem h mb + j)

/-- What `udp_input` puts into a queue. -/
theorem udpInput_queued (hd : h.dbuf mb = some d) (h20 : 20 ≤ ipHlen mem h mb)
    (hq : (udpInput tnet ni id h mem udb mb l bcast).queued = some i) :
    InQueue h mem mb d (udpInput tnet ni id h mem udb mb l bcast).heap
    (udpInput tnet ni id h mem udb mb l bcast).mem := by
  unfold udpInput at hq ⊢
  cases hs : stripped h mem mb with
  | none =>
    rw [hs] at hq
    cases hq
  | some s =>
    obtain ⟨h1, mem1, iphlen⟩ := s
    rw [hs] at hq
    dsimp only at hq ⊢
    obtain ⟨hstrips, rfl⟩ := stripped_spec h20 hs
    cases @udpInputStripped_ends tnet ni id 20 h1 mem1 udb mb l bcast with
    | panic hp hr hno =>
      rw [hno] at hq
      cases hq
    | dropped hp ha hdrop =>
      rw [hdrop.queued] at hq
      cases hq
    | queued mem' j hp hlen ha hq' hh hm =>
      have hd1 : h1.dbuf mb = some d := (dbuf_refs hstrips.refs mb).trans hd
      have honly := rxCksum_only hd1 ha.cksum
      rw [hstrips.mData] at honly
      rw [hh, hm]
      refine ⟨hstrips.refs, hstrips.other, hstrips.mData, hstrips.mLen, fun j h0 hj => ?_,
        fun j hj h6 h7 => ?_⟩
      · have hget := getD_stripped hs h0
        unfold iphdr at hget
        rw [hd1, hd, hstrips.mData, getD_bufBytes hj, getD_bufBytes hj] at hget
        rw [honly d _ (.inr (.inl (by omega))), hget]
      · have hrest := hstrips.rest
        rw [hd] at hrest
        rw [honly d _ (.inr (by omega))]
        exact bufBytes_ext hrest hj

/-! ## The loop -/

theorem rxLoop_done {rdLen : Int} {k : Nat} (hle : rdLen ≤ k) (chain : List Block) :
    rxLoop h rdLen chain k = (k, []) := by
  cases chain with
  | nil => rfl
  | cons b l => rw [rxLoop, if_pos (by omega)]

theorem rxLoop_toNat (rdLen : Int) (chain : List Block) :
    rxLoop h rdLen chain 0 = rxLoop h rdLen.toNat chain 0 := by
  rcases Int.lt_or_le rdLen 0 with hneg | hpos
  · rw [rxLoop_done (by omega), rxLoop_done (by omega)]
  · rw [Int.toNat_of_nonneg hpos]

/-- What the first descriptor gives: what is to be copied, or all it has. -/
theorem rxLoop_cons {n : Nat} (hn : 0 < n) : rxLoop h n (mb :: l) 0 =
    ((rxLoop h n l (min n (h.mb mb).mLen)).1, places h mb (min n (h.mb mb).mLen) ++
      (rxLoop h n l (min n (h.mb mb).mLen)).2) := by
  have hbytes : (if (n : Int) - (0 : Nat) < (h.mb mb).mLen then ((n : Int) - (0 : Nat)).toNat
      else (h.mb mb).mLen) = min n (h.mb mb).mLen := by
    split <;> omega
  rw [rxLoop, if_neg (by omega), hbytes]
  dsimp only
  rw [Nat.zero_add]

/-- All that is to be copied lies in the first descriptor. -/
theorem rxLoop_first {n : Nat} (hle : n ≤ (h.mb mb).mLen) :
    rxLoop h n (mb :: l) 0 = (n, places h mb n) := by
  rcases Nat.eq_zero_or_pos n with rfl | hn
  · rw [rxLoop_done (by omega)]
    unfold places
    split <;> rfl
  · rw [rxLoop_cons hn, Nat.min_eq_left hle, rxLoop_done (by omega), List.append_nil]

theorem mem_rxLoop (hd : h.dbuf mb = some d) {k n : Nat} (hn : k < n) (hk : k < (h.mb mb).mLen) :
    (d, (h.mb mb).mData + k) ∈ (rxLoop h n (mb :: l) 0).2 := by
  rw [rxLoop_cons (by omega)]
  exact List.mem_append_left _ ((mem_places hd).mpr ⟨rfl, by omega, by omega⟩)

/-! ## Every call -/

/-- The chain when it is taken from the queue. -/
structure Taken (h : Heap) (mem : Bufs) (mb : Block) (l : List Block) (d : Block) (h2 : Heap)
    (mem2 : Bufs) : Prop where
  dbuf : ∀ b ∈ mb :: l, h2.dbuf b = h.dbuf b
  mData : (h2.mb mb).mData = (h.mb mb).mData
  mLen : (h2.mb mb).mLen = (h.mb mb).mLen - (ipHlen mem h mb - 20)
  hdr : ∀ j, 0 < j → j < 20 → mem2 d ((h.mb mb).mData + j) = mem d ((h.mb mb).mData + j)
  udp : ∀ j, j < (h.mb mb).mLen - ipHlen mem h mb → j ≠ 6 → j ≠ 7 →
    mem2 d ((h.mb mb).mData + 20 + j) = mem d ((h.mb mb).mData + ipHlen mem h mb + j)

theorem taken_of_kept (hdat : Datagram h own limbo mem mb l) (hd : h.dbuf mb = some d)
    (hq : InQueue h mem mb d h1 mem1) (hkept : Kept h1 mem1 h2 mem2 (mb :: l)) :
    Taken h mem mb l d h2 mem2 := by
  have hd1 : h1.dbuf mb = some d := (dbuf_refs hq.refs mb).trans hd
  have hbuf := hkept.bytes mb List.mem_cons_self d hd1
  have hmb := hkept.mb mb List.mem_cons_self
  refine ⟨fun b hb => ?_, by rw [hmb, hq.mData], by rw [hmb, hq.mLen], ?_, ?_⟩
  · have hpri := (hq.refs.keeps b).pri.trans (hdat.dbuf hb).1
    rw [← dbuf_refs hq.refs b]
    unfold Heap.dbuf
    rw [pri_congr (hkept.mb b hb), hpri, Option.bind_some, Option.bind_some, hkept.mb b hb]
  · rw [hbuf]
    exact hq.hdr
  · rw [hbuf]
    exact hq.udp

section Transfer

variable (ht : Taken h mem mb l d h2 mem2) (hd : h.dbuf mb = some d)
include ht hd

/-- The fields of the IP header, as `udp_s_recvfrom` reads them. -/
theorem Taken.be16_ip {j : Nat} (h0 : 0 < j) (hj : j + 1 < 20) :
    be16 (bufBytes mem2 (h2.dbuf mb) (h2.mb mb).mData udpiphdrSize) j = be16 (iphdr mem h mb) j := by
  unfold iphdr udpiphdrSize
  rw [ht.dbuf mb List.mem_cons_self, hd, ht.mData, be16_bufBytes (by omega), be16_bufBytes hj,
    ht.hdr j h0 (by omega), Nat.add_assoc, ht.hdr (j + 1) (by omega) hj]

/-- The fields of the UDP header. -/
theorem Taken.be16_udp (hhdr : ipHlen mem h mb + udphdrSize ≤ (h.mb mb).mLen) {j : Nat} (hj : j + 1 < 6) :
    be16 (bufBytes mem2 (h2.dbuf mb) (h2.mb mb).mData udpiphdrSize) (20 + j) =
    be16 (udphdr mem h mb (ipHlen mem h mb)) j := by
  unfold udphdrSize at hhdr
  have h1 := ht.udp j (by omega) (by omega) (by omega)
  have h2 := ht.udp (j + 1) (by omega) (by omega) (by omega)
  unfold udphdr udpiphdrSize udphdrSize
  rw [ht.dbuf mb List.mem_cons_self, hd, ht.mData, be16_bufBytes (by omega),
    be16_bufBytes (by omega), ← Nat.add_assoc, h1]
  rw [Nat.add_assoc _ j 1, Nat.add_assoc _ j 1, h2]

end Transfer

/-- A place behind the data of the first descriptor is not one of the payload. -/
theorem not_mem_payloadPlaces (hdat : Datagram h own limbo mem mb l) (ht : Taken h mem mb l d h2 mem2)
    (hd : h.dbuf mb = some d) (n : Nat) : (d, (h2.mb mb).mData + (h2.mb mb).mLen) ∉
    payloadPlaces h2 mb l n := by
  intro hmem
  have hchain := List.mem_of_mem_drop (List.mem_of_mem_take hmem)
  obtain ⟨b, hb, hp⟩ := List.mem_flatMap.mp hchain
  rcases List.mem_cons.mp hb with rfl | hbl
  · have hp := (mem_places ((ht.dbuf b hb).trans hd)).mp hp
    omega
  · obtain ⟨e, he⟩ := (hdat.dbuf hb).2
    have hp := (mem_places ((ht.dbuf b hb).trans he)).mp hp
    exact hdat.dbuf_ne hbl (by rw [he, hd, hp.1])

/-- The places of the payload in the first descriptor. -/
theorem mem_payloadPlaces (hd : h2.dbuf mb = some d) {k m n : Nat} (hk : k < m) (hm : m ≤ n)
    (hmLen : udpiphdrSize + m ≤ (h2.mb mb).mLen) :
    (d, (h2.mb mb).mData + udpiphdrSize + k) ∈ payloadPlaces h2 mb l n := by
  have hlen : (places h2 mb (h2.mb mb).mLen).length = (h2.mb mb).mLen := by simp [places_eq hd]
  unfold payloadPlaces chainPlaces
  rw [List.flatMap_cons, List.drop_append_of_le_length (by omega), List.mem_take_iff_getElem]
  refine ⟨k, by simp [hlen]; omega, ?_⟩
  rw [List.getElem_append_left (by simp [hlen]; omega)]
  simp [places_eq hd, Nat.add_assoc]

/-- The transfer of a chain. -/
theorem rxTransfer_delivers (hdat : Datagram h own limbo mem mb l) (hd : h.dbuf mb = some d)
    (ht : Taken h mem mb l d h2 mem2) {len : Nat} (hlen : 0 < len) (q : Option RxQueue) :
    Delivered h mem mb l h2 mem2 len (rxTransfer h2 mem2 q mb l len) ↔
      min (payloadLen mem h mb) len ≤ (h.mb mb).mLen - (ipHlen mem h mb + udphdrSize) := by
  have hhdr := hdat.hdr
  have h20 := hdat.hl
  have hmLen := ht.mLen
  have hd2 : h2.dbuf mb = some d := (ht.dbuf mb List.mem_cons_self).trans hd
  have hulen : be16 (bufBytes mem2 (h2.dbuf mb) (h2.mb mb).mData udpiphdrSize) 24 =
      uhUlen mem h mb (ipHlen mem h mb) :=
    ht.be16_udp hd hhdr (j := 4) (by omega)
  have hport : be16 (bufBytes mem2 (h2.dbuf mb) (h2.mb mb).mData udpiphdrSize) 20 =
      be16 (udphdr mem h mb (ipHlen mem h mb)) 0 := ht.be16_udp hd hhdr (j := 0) (by omega)
  have haddr := ht.be16_ip hd (j := 12) (by omega) (by omega)
  have haddr' := ht.be16_ip hd (j := 14) (by omega) (by omega)
  have hn : (min ((uhUlen mem h mb (ipHlen mem h mb) : Int) - (udphdrSize : Nat)) (len : Int)).toNat =
      min (payloadLen mem h mb) len := by
    unfold payloadLen
    omega
  have hmb : ((h2.trim mb (h2.mb mb).mLen ((h2.mb mb).mData + udpiphdrSize)).mb mb).mLen =
      (h2.mb mb).mLen := by
    simp [Heap.trim]
  have hmd : ((h2.trim mb (h2.mb mb).mLen ((h2.mb mb).mData + udpiphdrSize)).mb mb).mData =
      (h2.mb mb).mData + udpiphdrSize := by
    simp [Heap.trim]
  have hd3 : (h2.trim mb (h2.mb mb).mLen ((h2.mb mb).mData + udpiphdrSize)).dbuf mb = some d :=
    (Ip.dbuf_trim _ _ _ _ _).trans hd2
  unfold rxTransfer
  dsimp only
  rw [hulen, hport, haddr, haddr', rxLoop_toNat, hn]
  unfold udphdrSize at hhdr ⊢
  rcases Nat.lt_or_ge ((h.mb mb).mLen - (ipHlen mem h mb + 8)) (min (payloadLen mem h mb) len) with
    hbeyond | hfits
  · -- the byte behind the data of the first descriptor is copied
    refine iff_of_false (fun hdel => ?_) (Nat.not_le.mpr hbeyond)
    have hmem := mem_rxLoop (l := l) hd3 hbeyond (by rw [hmb]; omega)
    rw [hmd] at hmem
    have hplace : (h2.mb mb).mData + udpiphdrSize + ((h.mb mb).mLen - (ipHlen mem h mb + 8)) =
        (h2.mb mb).mData + (h2.mb mb).mLen := by
      unfold udpiphdrSize
      omega
    rw [hplace] at hmem
    exact not_mem_payloadPlaces hdat ht hd _ (hdel.inside _ hmem)
  · refine iff_of_true ?_ hfits
    rw [rxLoop_first (by rw [hmb]; omega), places_eq hd3, hmd]
    constructor
    case freed => rfl
    case sender => rfl
    case rc =>
      unfold payloadLen udphdrSize
      dsimp only
      by_cases hle : uhUlen mem h mb (ipHlen mem h mb) - 8 ≤ len
      · rw [if_neg (by omega), if_pos hle]
        omega
      · rw [if_pos (by omega), if_neg hle]
    case inside =>
      intro p hp
      obtain ⟨k, hk, rfl⟩ := List.mem_map.mp hp
      exact mem_payloadPlaces hd2 (List.mem_range.mp hk) (Nat.min_le_left _ _)
        (by unfold udpiphdrSize; omega)
    case bytes =>
      rw [chainBytes_first hd (by unfold udphdrSize; omega)]
      unfold RecvOut.bytes
      rw [List.map_map]
      refine List.map_congr_left fun k hk => ?_
      rw [List.mem_range] at hk
      have hbyte := ht.udp (8 + k) (by omega) (by omega) (by omega)
      have hpos : (h2.mb mb).mData + udpiphdrSize + k = (h.mb mb).mData + 20 + (8 + k) := by
        rw [ht.mData]
        unfold udpiphdrSize
        omega
      dsimp only [Function.comp_apply]
      rw [hpos, hbyte]
      unfold udphdrSize
      congr 1
      omega

/-- **A datagram is delivered** exactly when what is copied of its payload lies in the first descriptor. -/
theorem recvfrom_delivers_iff (tnet : Ip.Netifs) (ni : Ip.Netif) (id : Nat) (h : Heap) (own : Finset Block)
    (limbo : Set Block) (mem : Bufs) (udb : List UdpPcb) (mb : Block) (l : List Block) (bcast : Bool)
    (i : Nat) (h2 : Heap) (mem2 : Bufs) (so : Socket) (q : RxQueue) (wake : Option RxItem) (len : Nat)
    (hdat : Datagram h own limbo mem mb l)
    (hqueued : (udpInput tnet ni id h mem udb mb l bcast).queued = some i)
    (hkept : Kept (udpInput tnet ni id h mem udb mb l bcast).heap
      (udpInput tnet ni id h mem udb mb l bcast).mem h2 mem2
      (mb :: l))
    (hso : so.soTdata = some q) (hget : (rxGet so q wake).map Prod.fst = some (.data mb l))
      (hlen : 0 < len) :
    Delivered h mem mb l h2 mem2 len (udpSRecvfrom h2 mem2 so wake len) ↔
      min (payloadLen mem h mb) len ≤ (h.mb mb).mLen - (ipHlen mem h mb + udphdrSize) := by
  obtain ⟨d, hd⟩ := (hdat.dbuf (b := mb) List.mem_cons_self).2
  obtain ⟨⟨item, q'⟩, hr, rfl⟩ := Option.map_eq_some_iff.mp hget
  have ht := taken_of_kept hdat hd (udpInput_queued hd hdat.hl hqueued) hkept
  unfold udpSRecvfrom
  rw [hso]
  dsimp only
  rw [hr]
  exact rxTransfer_delivers hdat hd ht hlen (some q')

/-- Two descriptors with 36 and 8 bytes. -/
def twoRun : List HeapEvent :=
  [.get .MB_MID1 false, .fill ⟨.lobuf, 0⟩ 36 0 44, .get .MB_MID1 false, .fill ⟨.lobuf, 1⟩ 8 0 0]

def two : Owners := twoRun.foldl Owners.step Owners.start

/-- A datagram from 10.0.0.2 to 10.0.0.1 with 16 bytes, as it is behind its reassembly. -/
def twoBufs : Bufs := fun b i =>
  if b.idx = 0 then
    [0x45, 0, 0, 44, 0, 1, 0, 0, 64, 17, 0x66, 0xbe, 10, 0, 0, 2, 10, 0, 0, 1, 0, 7, 0, 9, 0, 24, 0, 0,
      1, 2, 3, 4, 5, 6, 7, 8].getD i 0
  else [9, 10, 11, 12, 13, 14, 15, 16].getD i 0

def twoChain : List Block := [⟨.lobuf, 1⟩]

def twoIn : UdpIn :=
  udpInput ⟨[], none⟩ ⟨true, true, 1500, 0, 0, none⟩ 0 two.heap twoBufs port9 ⟨.lobuf, 0⟩
    twoChain false

/-- The socket behind `udp_input`. -/
def twoQueue : RxQueue := { fifo := [.data ⟨.lobuf, 0⟩ twoChain] }

theorem two_datagram : Datagram two.heap two.own ∅ twoBufs ⟨.lobuf, 0⟩ twoChain where
  held := held_run twoRun (by decide)
  own := by decide +kernel
  nodup := by decide
  hl := by decide +kernel
  hdr := by decide +kernel

/-- The first eight bytes are taken. -/
theorem recvfrom_delivers_eight : Delivered two.heap twoBufs ⟨.lobuf, 0⟩ twoChain twoIn.heap twoIn.mem 8
      (udpSRecvfrom twoIn.heap twoIn.mem { soTdata := some twoQueue } none (8 : Nat)) ↔
    min (payloadLen twoBufs two.heap ⟨.lobuf, 0⟩) 8 ≤
      (two.heap.mb ⟨.lobuf, 0⟩).mLen - (ipHlen twoBufs two.heap ⟨.lobuf, 0⟩ + udphdrSize) :=
  recvfrom_delivers_iff ⟨[], none⟩ ⟨true, true, 1500, 0, 0, none⟩ 0 two.heap two.own ∅ twoBufs port9
    ⟨.lobuf, 0⟩ twoChain
    false 0 twoIn.heap twoIn.mem { soTdata := some twoQueue } twoQueue none 8 two_datagram
    (by decide +kernel) ⟨fun _ _ => rfl, fun _ _ _ _ => rfl⟩ rfl rfl (by decide)

/-- Half of a datagram is read from behind the data of its first descriptor. -/
theorem reassembled_misread :
    ¬ ∀ (tnet : Ip.Netifs) (ni : Ip.Netif) (id : Nat) (h : Heap) (own : Finset Block)
      (limbo : Set Block) (mem : Bufs)
      (udb : List UdpPcb) (mb : Block) (l : List Block) (bcast : Bool) (i : Nat) (h2 : Heap)
      (mem2 : Bufs) (so : Socket) (q : RxQueue) (wake : Option RxItem) (len : Nat),
      Datagram h own limbo mem mb l → (udpInput tnet ni id h mem udb mb l bcast).queued = some i →
      Kept (udpInput tnet ni id h mem udb mb l bcast).heap
      (udpInput tnet ni id h mem udb mb l bcast).mem h2 mem2
        (mb :: l) →
      so.soTdata = some q → (rxGet so q wake).map Prod.fst = some (.data mb l) → 0 < len →
      Delivered h mem mb l h2 mem2 len (udpSRecvfrom h2 mem2 so wake len) := by
  intro hall
  have hdel :=
    hall ⟨[], none⟩ ⟨true, true, 1500, 0, 0, none⟩ 0 two.heap two.own ∅ twoBufs port9 ⟨.lobuf, 0⟩
      twoChain false 0
    twoIn.heap twoIn.mem { soTdata := some twoQueue } twoQueue none 100 two_datagram (by decide +kernel)
    ⟨fun _ _ => rfl, fun _ _ _ _ => rfl⟩ rfl rfl (by decide)
  have hread : (udpSRecvfrom twoIn.heap twoIn.mem { soTdata := some twoQueue } none (100 : Nat)).bytes
      twoIn.mem = [1, 2, 3, 4, 5, 6, 7, 8, 0, 0, 0, 0, 0, 0, 0, 0] := by decide +kernel
  have hsent : ((two.heap.chainBytes twoBufs (⟨.lobuf, 0⟩ :: twoChain)).drop
      (ipHlen twoBufs two.heap ⟨.lobuf, 0⟩ + udphdrSize)).take (min
      (payloadLen twoBufs two.heap ⟨.lobuf, 0⟩) 100) =
        [1, 2, 3, 4, 5, 6, 7, 8, 9, 10, 11, 12, 13, 14, 15, 16] := by decide +kernel
  have hbytes := hread.symm.trans (hdel.bytes.trans hsent)
  exact absurd hbytes (by decide)

end TnNet.Udp
