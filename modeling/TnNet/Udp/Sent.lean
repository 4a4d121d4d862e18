import TnNet.Udp.Packet

/-!
# The packet `udp_s_sendto` sends

* `ipOutput_whole` — a chain that fits the interface is given to it with a new header.
* `udpSend_emits` — behind `udp_output` it is a packet with the addresses of the block and the data.
* `sendto_emits` — the data are those of the user, the addresses those of the block or of the caller.
-/

set_option autoImplicit false

namespace TnNet.Udp

open Bytes InetSum TnNet.Mem TnNet.Mem.Heap TnNet.Pcb
open TnNet.Ip (iphdr setIphdr ipDst ipOutput ipRouteOut outputOn sendWhole sumIphdr inCksumMb
  outputHdr maskIpOff
  OutputFunc pseudoHeader slice in4Cksum_eq)
open TnNet.Icmp (sentHdr)

variable {h h' h1 : Heap} {own : Finset Block} {limbo : Set Block} {mem mem' : Bufs} {m mb b c d : Block}
  {l chain : List Block} {pkt ip data : List UInt8} {tnet : Ip.Netifs} {ni : Ip.Netif} {id n : Nat}
  {f : OutputFunc}

/-! ## `ip_output` of a chain -/

/-- A packet that fits the interface. -/
structure Fits1 (tnet : Ip.Netifs) (ni : Ip.Netif) (f : OutputFunc) (dst : BitVec 32)
    (len : Nat) : Prop where
  route : ipRouteOut tnet dst = some ni
  func : ni.outputFunc = some f
  mtu : (len : Int) ≤ ni.ifMtu
  bcast : dst = BitVec.allOnes 32 → ni.broadcast = true

theorem ipOutput_whole (ho : OwnBufs h own limbo (m :: l)) (h20 : 20 ≤ (h.mb m).mLen)
    (hpkt : h.chainBytes mem (m :: l) = pkt) (hfit : Fits1 tnet ni f (ipDst pkt) (be16 pkt 2)) (id : Nat) :
    ∃ mem' sum, ipOutput tnet none id h mem m l =
        { heap := (f h (m :: l)).1, mem := mem', rc := (f h (m :: l)).2, packets := [m :: l],
          given := [m :: l] } ∧
      h.chainBytes mem' (m :: l) = sentHdr (pkt.take 20) id sum ++ pkt.drop 20 ∧
      val (sentHdr (pkt.take 20) id sum) ≡ 0 [MOD 65535] := by
  obtain ⟨d, hd⟩ := ho.exists_dbuf List.mem_cons_self
  have hdn : h.dbuf m ≠ none := by rw [hd]; exact Option.some_ne_none d
  have hlen : 20 ≤ pkt.length := by
    rw [← hpkt, Heap.chainBytes_cons, List.length_append, Ip.length_packet hd]
    omega
  have hl : (pkt.take 20).length = 20 := by
    rw [List.length_take]
    omega
  have htake := Icmp.sameHdr_take pkt
  obtain ⟨hl1, hlen1, hdst1, -⟩ := Ip.outputHdr_spec hl id
  have hhdr : ∀ mem, iphdr mem h m = (h.chainBytes mem (m :: l)).take 20 :=
    fun mem => Ip.iphdr_chain h20 hdn
  have hset : ∀ mem ip, ip.length = 20 → h.chainBytes (setIphdr mem h m ip) (m :: l) =
      ip ++ (h.chainBytes mem (m :: l)).drop 20 := fun mem ip hl => Ip.chainBytes_setIphdr ho h20 hl
  have hout := hset mem (outputHdr (pkt.take 20) id) hl1
  unfold ipOutput
  dsimp only
  rw [Option.none_or, hhdr mem, hpkt]
  have hfold : setBe16 (maskIpOff ((pkt.take 20).set 0 0x45)) 4 id = outputHdr (pkt.take 20) id := rfl
  rw [hfold]
  rw [hdst1, htake.dst, hfit.route]
  dsimp only
  rw [hpkt] at hout
  generalize setIphdr mem h m (outputHdr (pkt.take 20) id) = mem1 at hout ⊢
  have hip1 : iphdr mem1 h m = outputHdr (pkt.take 20) id := by rw [hhdr, hout, List.take_left' hl1]
  unfold outputOn
  dsimp only
  have hbcast : ¬ (ipDst pkt = BitVec.allOnes 32 ∧ ni.broadcast = false) := by
    rintro ⟨hall, hno⟩
    rw [hfit.bcast hall] at hno
    cases hno
  have hlong : ¬ (ipDst pkt = BitVec.allOnes 32 ∧ ni.ifMtu < be16 pkt 2) := fun hc => by
    have := hfit.mtu
    omega
  rw [hip1, hdst1, hlen1, htake.len, htake.dst, if_neg hbcast, if_neg hlong, if_pos hfit.mtu]
  unfold sendWhole
  rw [hfit.func]
  dsimp only
  unfold sumIphdr
  dsimp only
  rw [hip1]
  have hl2 : (setBe16 (outputHdr (pkt.take 20) id) 10 0).length = 20 := by simp [hl1]
  have hzero := hset mem1 _ hl2
  rw [hout, List.drop_left' hl1] at hzero
  generalize setIphdr mem1 h m (setBe16 (outputHdr (pkt.take 20) id) 10 0) = mem2 at hzero ⊢
  have hip2 : iphdr mem2 h m = setBe16 (outputHdr (pkt.take 20) id) 10 0 := by
    rw [hhdr, hzero, List.take_left' hl2]
  rw [hip2]
  refine ⟨_, inCksumMb mem2 h (m :: l) 20, rfl, ?_, ?_⟩
  · rw [hset _ _ (by simp [hl1]), hzero, List.drop_left' hl2]
    rfl
  · refine Ip.sum_modEq hl1 _ ?_
    rw [List.flatMap_map]
    exact (congrArg (List.take 20) hzero).trans (List.take_left' hl2)

/-! ## `udp_output` -/

/-- The interface has been given one packet, in the heap `h`. -/
structure Emits (f : OutputFunc) (pkt : List UInt8) (h : Heap) (chain : List Block)
    (r : SendOut) : Prop where
  given : r.given = [chain]
  bytes : h.chainBytes r.mem chain = pkt
  heap : r.heap = (f h chain).1.mFreem r.freed

/-- The descriptor of the headers, in front of the data. -/
structure Headed (h h' : Heap) (own : Finset Block) (limbo : Set Block) (m : Block) (l : List Block)
    (len : Nat) : Prop where
  bufs : OwnBufs h' (insert m own) limbo (m :: l)
  mLen : (h'.mb m).mLen = udpiphdrSize
  mTlen : (h'.mb m).mTlen = BitVec.ofNat 20 (udpiphdrSize + len)
  rest : ∀ mem, h'.chainBytes mem l = h.chainBytes mem l

theorem headed_spec (ho : OwnBufs h own limbo (mb :: l)) (hget : h.mbGet .MB_MIN true = (h1, some m))
    (len : Nat) :
    let h2 := h1.set m { h1.mb m with
      mLen := udpiphdrSize, mTlen := BitVec.ofNat 20 (udpiphdrSize + len), pkthdr := true }
    Headed h (h2.set mb { h2.mb mb with pkthdr := false }) own limbo m (mb :: l) len := by
  intro h2
  have ha := ho.mbGet (by decide) hget
  have hr2 : SameRefs h1 h2 := sameRefs_pkthdr ..
  have hr3 : SameRefs h2 (h2.set mb { h2.mb mb with pkthdr := false }) := sameRefs_pkthdr ..
  have hne : ∀ b ∈ mb :: l, b ≠ m := fun b hb hbm => (List.nodup_cons.mp ha.bufs.nodup).1 (hbm ▸ hb)
  have h2m : ∀ b, b ≠ m → h2.mb b = h1.mb b := fun b hb => set_mb_ne hb _
  have h3m : (h2.set mb { h2.mb mb with pkthdr := false }).mb m = h2.mb m :=
    set_mb_ne (hne mb List.mem_cons_self).symm _
  have hrest : ∀ b ∈ mb :: l, ((h2.set mb { h2.mb mb with pkthdr := false }).mb b).mData =
      (h1.mb b).mData ∧ ((h2.set mb { h2.mb mb with pkthdr := false }).mb b).mLen = (h1.mb b).mLen ∧
      ((h2.set mb { h2.mb mb with pkthdr := false }).mb b).dbhdr = (h1.mb b).dbhdr := by
    intro b hb
    rcases eq_or_ne b mb with rfl | hbm
    · rw [set_mb_self, h2m b (hne b hb)]
      exact ⟨rfl, rfl, rfl⟩
    · rw [set_mb_ne hbm, h2m b (hne b hb)]
      exact ⟨rfl, rfl, rfl⟩
  constructor
  case bufs =>
    refine ha.bufs.same (hr2.trans hr3) fun b hb => ?_
    rcases List.mem_cons.mp hb with rfl | hb
    · rw [h3m, show h2.mb b = _ from set_mb_self h1 b _]
    · exact (hrest b hb).2.2
  case mLen => rw [h3m, set_mb_self]
  case mTlen => rw [h3m, set_mb_self]
  case rest =>
    intro mem
    rw [chainBytes_refs mem (hr2.trans hr3) fun b hb => ⟨(hrest b hb).1, (hrest b hb).2.1⟩]
    exact ha.chainBytes (fun b hb => (ho.own b hb).1) mem

/-- The headers of a packet are written. -/
theorem written_spec {old : List UInt8} {inp : Inpcb} (hh : Headed h h' own limbo m (mb :: l) data.length)
    (h8 : old.length = 8) (hdata : h.chainBytes mem (mb :: l) = data)
    (hmax : data.length ≤ UDP_MAX_TX_SIZE) :
    let mem1 := writeBuf mem (h'.dbuf m) (h'.mb m).mData (udpiphdr old inp data.length)
    let sum := (in4CksumMb mem1 h' m (mb :: l) IPPROTO_UDP 20 ((h'.mb m).mTlen.toNat - 20)).getD 0
    let x := if sum = 0 then 0xffff else sum
    let mem2 := writeBuf mem1 (h'.dbuf m) ((h'.mb m).mData + 26) (leBytes 2 x)
    (0 < x ∧ x < 65536) ∧
      h'.chainBytes mem2 (m :: mb :: l) = (udpiphdr old inp data.length).take 26 ++ leBytes 2 x ++ data ∧
      x ≡ swap16 (checksum (pseudoHeader (udpiphdr old inp data.length) IPPROTO_UDP (8 + data.length) ++
        ((udpiphdr old inp data.length).drop 20 ++ data))) [MOD 65535] := by
  unfold UDP_MAX_TX_SIZE at hmax
  have h28 : (udpiphdr old inp data.length).length = 28 := by
    obtain ⟨o0, o1, o2, o3, o4, o5, o6, o7, rfl⟩ := exists_eight h8
    rfl
  have htlen : (h'.mb m).mTlen.toNat - 20 = 8 + data.length := by
    rw [hh.mTlen, BitVec.toNat_ofNat]
    unfold udpiphdrSize
    omega
  have hmLen : (h'.mb m).mLen = 28 := hh.mLen
  rw [htlen]
  generalize udpiphdr old inp data.length = hdr at h28 ⊢
  intro mem1 sum x mem2
  obtain ⟨d, hd⟩ := hh.bufs.exists_dbuf List.mem_cons_self
  have hlen := fun mem => @Ip.length_packet h' mem m d hd
  have h1 : h'.chainBytes mem1 (m :: mb :: l) = hdr ++ data := by
    have hw := @OwnBufs.chainBytes_writeBuf h' _ limbo mem (mb :: l) m hdr 0 hh.bufs (by omega)
    rw [Nat.add_zero, splice_zero, List.drop_of_length_le (by rw [hlen]; omega), List.append_nil,
      hh.rest, hdata] at hw
    exact hw
  have hfirst : h'.bytes mem1 m = hdr := by
    rw [Heap.chainBytes_cons] at h1
    exact (List.append_inj h1 (by rw [hlen]; omega)).1
  have hrest : h'.chainBytes mem1 (mb :: l) = data := by
    rw [Heap.chainBytes_cons, hfirst] at h1
    exact List.append_cancel_left h1
  have hsum : sum = swap16
      (checksum (pseudoHeader hdr IPPROTO_UDP (8 + data.length) ++ (hdr.drop 20 ++ data))) := by
    show (in4CksumMb mem1 h' m (mb :: l) IPPROTO_UDP 20 (8 + data.length)).getD 0 = _
    rw [in4CksumMb_eq (by rw [hfirst]; omega) (by omega), Option.getD_some, hfirst, h1,
      List.drop_append_of_le_length (by omega), List.take_of_length_le]
    rw [List.length_append, List.length_drop]
    omega
  rw [← hsum]
  have hle : sum ≤ 65535 := by
    have hck : checksum (pseudoHeader hdr IPPROTO_UDP (8 + data.length) ++ (hdr.drop 20 ++ data)) ≤ 65535 :=
      Nat.sub_le ..
    rw [hsum]
    unfold swap16
    omega
  refine ⟨?_, ?_, ?_⟩
  · show 0 < (if sum = 0 then 0xffff else sum) ∧ (if sum = 0 then 0xffff else sum) < 65536
    split <;> omega
  · have hw := @OwnBufs.chainBytes_writeBuf h' _ limbo mem1 (mb :: l) m (leBytes 2 x) 26 hh.bufs
      (by rw [length_leBytes]; omega)
    rw [hrest, hfirst] at hw
    unfold splice at hw
    rw [length_leBytes, List.drop_of_length_le (by omega), List.append_nil] at hw
    exact hw
  · show (if sum = 0 then 0xffff else sum) ≡ sum [MOD 65535]
    split
    · rename_i h0
      rw [h0]
      rfl
    · rfl

/-- The fields `ip_output` looks at. -/
theorem udpIp_fields {old : List UInt8} {inp : Inpcb} {len : Nat} (h8 : old.length = 8) (hlen : len ≤ 65507)
    (hip : ip = ((setBe16 (setBe16 ((udpiphdr old inp len).take 20) 2 (udpiphdrSize + len)) 6 0).set 8
      255).set 1 0) :
    ip.length = 20 ∧ ipDst ip = inp.inpFaddr ∧ be16 ip 2 = 28 + len := by
  have hl : ip.length = 20 := by
    obtain ⟨o0, o1, o2, o3, o4, o5, o6, o7, rfl⟩ := exists_eight h8
    rw [hip]
    simp [udpiphdr, beBytes]
  obtain ⟨hls, -, hsame⟩ := @Icmp.sentHdr_spec ip hl 0 0
  have hw :=
    @udpHdrs_written 0 old ⟨inp.inpLaddr, inp.inpFaddr, inp.inpLport, inp.inpFport⟩ inp 0 len 0 h8 rfl
  dsimp only at hw
  rw [← hip] at hw
  have hfields := udpHdrs_fields ⟨inp.inpLaddr, inp.inpFaddr, inp.inpLport, inp.inpFport⟩ len 0 0 0
  rw [← hw] at hfields
  obtain ⟨h2, -, -, h16, -⟩ := hfields
  have hdst := addr_at h16
  have hbe := @be16_at _ _ 0 2 h2 (Nat.lt_succ_self 1)
  rw [be16_append (by rw [hls]; decide), be16_append (by rw [hls]; decide)] at hdst
  rw [be16_append (by rw [hls]; decide), be16_beBytes (by omega)] at hbe
  exact ⟨hl, hsame.dst.symm.trans hdst, hsame.len.symm.trans hbe⟩

theorem udpSend_emits {tnet : Pcb.Netifs} {s : Inpcbs} {i : Nat} {inp : Inpcb} {held : Bool}
    {temp : Option TempConn} (ho : OwnBufs h own limbo (mb :: l))
    (hdata : h.chainBytes mem (mb :: l) = data) (hlen : (h.mb mb).mTlen.toNat = data.length)
    (hmax : data.length ≤ UDP_MAX_TX_SIZE) (hinp : s.pcbs.getD i {} = inp)
    (hroom : HeaderRoom h) (hfit : Fits1 tnet.toIp ni f inp.inpFaddr (28 + data.length)) :
    ∃ pkt h' chain, IsUdp ⟨inp.inpLaddr, inp.inpFaddr, inp.inpLport, inp.inpFport⟩ data pkt ∧
      Emits f pkt h' chain (udpSend tnet id h mem s i held mb l temp) ∧
      (udpSend tnet id h mem s i held mb l temp).rc = (f h' chain).2 := by
  unfold UDP_MAX_TX_SIZE at hmax
  have hsome : (h.mbGet .MB_MIN true).2 ≠ none := by
    rw [ne_eq, mbGet_eq_none_iff (by decide)]
    exact not_or.mpr hroom
  cases hget : h.mbGet .MB_MIN true with
  | mk h1 r =>
  cases r with
  | none => exact absurd (by rw [hget]) hsome
  | some m =>
  have hh := headed_spec ho hget data.length
  unfold udpSend
  dsimp only at hh ⊢
  rw [hget, hlen, hinp]
  dsimp only
  generalize (h1.set m { h1.mb m with
    mLen := udpiphdrSize, mTlen := BitVec.ofNat 20 (udpiphdrSize + data.length), pkthdr :=
      true }).set mb _ = h3 at hh ⊢
  obtain ⟨d, hd⟩ := hh.bufs.exists_dbuf List.mem_cons_self
  have h8 : (bufBytes mem (h3.dbuf m) (h3.mb m).mData 8).length = 8 := by rw [hd, length_bufBytes]
  generalize bufBytes mem (h3.dbuf m) (h3.mb m).mData 8 = old at h8 ⊢
  obtain ⟨hx, hbytes, hsum⟩ := @written_spec h h3 own limbo mem m mb l data old inp hh h8 hdata
    (by unfold UDP_MAX_TX_SIZE; omega)
  generalize (if (in4CksumMb _ h3 m (mb :: l) IPPROTO_UDP 20 _).getD 0 = 0 then 0xffff else _) =
    x at hx hbytes hsum ⊢
  generalize writeBuf _ (h3.dbuf m) ((h3.mb m).mData + 26) (leBytes 2 x) = mem2 at hbytes ⊢
  have h20 : 20 ≤ (h3.mb m).mLen := by rw [hh.mLen]; decide
  have h28 : (udpiphdr old inp data.length).length = 28 := by
    obtain ⟨o0, o1, o2, o3, o4, o5, o6, o7, rfl⟩ := exists_eight h8
    rfl
  have hip : iphdr mem2 h3 m = (udpiphdr old inp data.length).take 20 := by
    rw [Ip.iphdr_chain (l := mb :: l) h20 (by rw [hd]; exact Option.some_ne_none d), hbytes,
      List.append_assoc, List.take_append_of_le_length (by rw [List.length_take]; omega),
      List.take_take]
    rfl
  rw [hip]
  have hfields := @udpIp_fields _ old inp data.length h8 (by omega) rfl
  have hwritten :=
    fun id sum => @udpHdrs_written id old ⟨inp.inpLaddr, inp.inpFaddr, inp.inpLport, inp.inpFport⟩ inp x
    data.length sum h8 rfl
  dsimp only at hwritten
  generalize ((setBe16 (setBe16 ((udpiphdr old inp data.length).take 20) 2 (udpiphdrSize + data.length))
    6 0).set 8
    255).set 1 0 = ip at hfields hwritten ⊢
  obtain ⟨hl, hdst, hbe⟩ := hfields
  have hset : h3.chainBytes (setIphdr mem2 h3 m ip) (m :: mb :: l) =
      ip ++ (((udpiphdr old inp data.length).take 26 ++ leBytes 2 x).drop 20 ++ data) := by
    rw [Ip.chainBytes_setIphdr hh.bufs h20 hl, hbytes, List.drop_append_of_le_length]
    rw [List.length_append, List.length_take]
    omega
  obtain ⟨mem', sum, hout, hpkt, hval⟩ :=
    @ipOutput_whole h3 _ limbo (setIphdr mem2 h3 m ip) m (mb :: l) _ tnet.toIp ni f
    hh.bufs h20 hset
    (by
      unfold ipDst at hdst ⊢
      rw [be16_append (by omega), be16_append (by omega), be16_append (by omega), hdst, hbe]
      exact hfit) id
  rw [hout]
  rw [List.take_left' hl, List.drop_left' hl, ← List.append_assoc, hwritten] at hpkt
  rw [List.take_left' hl] at hval
  refine ⟨_, h3, m :: mb :: l, isUdp_udpHdrs (by omega) hx ?_ (udpHdrs_cksum h8 rfl hx.2 hsum),
    ⟨rfl, hpkt, rfl⟩, rfl⟩
  rw [← hwritten, List.take_left' (Icmp.sentHdr_spec hl id sum).1]
  exact hval

/-! ## The copy of the data -/

/-- The other tasks keep what is not theirs. -/
def WakeKeeps (wake : Nat → Heap → Heap) : Prop :=
  ∀ k h own limbo, Heap.Held h own limbo →
    ∃ limbo', Heap.Held (wake k h) own limbo' ∧ ∀ b ∈ own, (wake k h).mb b = h.mb b

/-- The descriptors `new` have been filled with the data; what was there is as it was. -/
structure Filled (h : Heap) (mem : Bufs) (h' : Heap) (mem' : Bufs) (old new : List Block)
    (data : List UInt8) : Prop where
  bufs : ∃ own limbo, OwnBufs h' own limbo (old ++ new)
  same : ∀ b ∈ old, h'.mb b = h.mb b ∧ h'.bytes mem' b = h.bytes mem b
  bytes : h'.chainBytes mem' new = data

theorem Filled.trans {h2 : Heap} {mem2 : Bufs} {old new new' : List Block} {data' : List UInt8}
    (h12 : Filled h mem h1 mem' old new data) (h23 : Filled h1 mem' h2 mem2 (old ++ new) new' data') :
    Filled h mem h2 mem2 old (new ++ new') (data ++ data') := by
  constructor
  case bufs => rw [← List.append_assoc]; exact h23.bufs
  case same =>
    intro b hb
    obtain ⟨h3, h4⟩ := h23.same b (List.mem_append_left _ hb)
    obtain ⟨h5, h6⟩ := h12.same b hb
    exact ⟨h3.trans h5, h4.trans h6⟩
  case bytes =>
    have hnew : h2.chainBytes mem2 new = h1.chainBytes mem' new :=
      List.flatMap_congr fun b hb => (h23.same b (List.mem_append_right _ hb)).2
    unfold Heap.chainBytes at hnew ⊢
    rw [List.flatMap_append, hnew]
    exact congrArg₂ _ h12.bytes h23.bytes

/-- A descriptor is obtained and filled. -/
theorem filled_get {k : DbType} {tx : Bool} {old : List Block} (ho : OwnBufs h own limbo old)
    (hq : Heap.dbufPool k tx ≠ .lobuf) (hget : h.mbGet k tx = (h1, some mb)) (data : List UInt8) :
    Filled h mem (h1.set mb { h1.mb mb with mLen := data.length })
    (writeBuf mem (h1.dbuf mb) (h1.mb mb).mData data) old
      [mb] data := by
  have ha := ho.mbGet hq hget
  have hr : SameRefs h1 (h1.set mb { h1.mb mb with mLen := data.length }) := sameRefs_set ..
  have hne : ∀ b ∈ old, b ≠ mb := fun b hb hbm => (List.nodup_cons.mp ha.bufs.nodup).1 (hbm ▸ hb)
  have hmb : (h1.set mb { h1.mb mb with mLen := data.length }).mb mb =
      { h1.mb mb with mLen := data.length } :=
    set_mb_self ..
  have hbufs : OwnBufs (h1.set mb { h1.mb mb with mLen := data.length }) (insert mb own) limbo
      (mb :: old) := by
    refine ha.bufs.same hr fun b hb => ?_
    rcases eq_or_ne b mb with rfl | hbm
    · rw [hmb]
    · rw [set_mb_ne hbm]
  have hd := dbuf_refs hr mb
  constructor
  case bufs => exact ⟨_, limbo, hbufs.held, fun b hb => hbufs.own b (by simpa [or_comm] using hb),
      (List.perm_append_singleton mb old).nodup_iff.mpr hbufs.nodup⟩
  case same =>
    intro b hb
    have h2 : h1.mb b = h.mb b := ha.same b (.inl (ho.own b hb).1)
    refine ⟨by rw [set_mb_ne (hne b hb), h2], ?_⟩
    have hother :=
      @OwnBufs.bytes_other _ _ limbo mem _ mb b hbufs List.mem_cons_self (List.mem_cons_of_mem _ hb)
      (hne b hb) (h1.mb mb).mData data
    rw [hd] at hother
    rw [hother]
    have h3 := ha.chainBytes (l := [b]) (by simpa using (ho.own b hb).1) mem
    simp only [Heap.chainBytes, List.flatMap_cons, List.flatMap_nil, List.append_nil] at h3
    rw [← h3]
    unfold Heap.bytes
    rw [dbuf_refs hr, set_mb_ne (hne b hb)]
  case bytes =>
    obtain ⟨d, hdb⟩ := hbufs.exists_dbuf List.mem_cons_self
    have hone := hbufs.sublist (l := [mb]) (by simp)
    have hs :=
      @OwnBufs.chainBytes_writeBuf _ _ limbo mem [] mb data 0 hone (by rw [hmb]; exact (Nat.zero_add _).le)
    rw [Nat.add_zero, splice_zero, List.drop_of_length_le (by rw [Ip.length_packet hdb, hmb]), hmb, hd]
      at hs
    simpa [Heap.chainBytes] using hs

theorem filled_nil {old : List Block} (ho : OwnBufs h own limbo old) : Filled h mem h mem old [] [] :=
  ⟨⟨own, limbo, by rwa [List.append_nil]⟩, fun _ _ => ⟨rfl, rfl⟩, rfl⟩

/-- The wait for a buffer. -/
theorem txGet_spec {wake : Nat → Heap → Heap} (hw : WakeKeeps wake) {old : List Block}
    (ho : OwnBufs h own limbo old) (nbio : Bool) (k : Nat) : ∃ h0 limbo0,
    txGet wake nbio k h = h0.mbGet .MB_MID1 true ∧ OwnBufs h0 own limbo0 old ∧
      ∀ mem, Filled h mem h0 mem old [] [] := by
  cases nbio with
  | true => exact ⟨h, limbo, rfl, ho, fun mem => filled_nil ho⟩
  | false =>
    obtain ⟨limbo0, hheld, hmb⟩ := hw k h own limbo ho.held
    have hsame : ∀ b ∈ old, (wake k h).mb b = h.mb b := fun b hb => hmb b (ho.own b hb).1
    have h0 : OwnBufs (wake k h) own limbo0 old := by
      refine ⟨hheld, fun b hb => ?_, ho.nodup⟩
      rw [hsame b hb]
      exact ho.own b hb
    refine ⟨wake k h, limbo0, rfl, h0, fun mem => ⟨?_, fun b hb => ⟨hsame b hb, ?_⟩, rfl⟩⟩
    · exact ⟨own, limbo0, by rwa [List.append_nil]⟩
    have hdbuf : (wake k h).dbuf b = h.dbuf b := by
      unfold Heap.dbuf
      rw [h0.primary hb, ho.primary hb, Option.bind_some, Option.bind_some, hsame b hb]
    unfold Heap.bytes
    rw [hdbuf, hsame b hb]

/-- The loop fills descriptors with the data, unless a buffer is missing. -/
theorem txLoop_filled {wake : Nat → Heap → Heap} {nbio : Bool} (hw : WakeKeeps wake)
    (extra : List Block) (n : Nat) (hn : data.length ≤ n) (ho : OwnBufs h own limbo (extra ++ chain))
    (hok : (txLoop wake nbio n data chain h mem).2.2.2 = true) :
    ∃ new, (txLoop wake nbio n data chain h mem).2.2.1 = chain ++ new ∧
      Filled h mem (txLoop wake nbio n data chain h mem).1 (txLoop wake nbio n data chain h mem).2.1
      (extra ++ chain)
        new data := by
  induction n generalizing data chain h mem own limbo with
  | zero =>
    obtain rfl := List.eq_nil_of_length_eq_zero (Nat.le_zero.mp hn)
    exact ⟨[], (List.append_nil _).symm, filled_nil ho⟩
  | succ n ih =>
    unfold txLoop at hok ⊢
    by_cases hdata : data = []
    · rw [if_pos hdata]
      subst hdata
      exact ⟨[], (List.append_nil _).symm, filled_nil ho⟩
    rw [if_neg hdata] at hok ⊢
    obtain ⟨h0, limbo0, hget0, ho0, hwait⟩ := txGet_spec hw ho nbio data.length
    rw [hget0] at hok ⊢
    cases hget : h0.mbGet .MB_MID1 true with
    | mk h1 r =>
    rw [hget] at hok
    cases r with
    | none => cases hok
    | some mb =>
    dsimp only at hok ⊢
    have hmin : min data.length TNNET_MID1_BUF_SIZE = (data.take TNNET_MID1_BUF_SIZE).length := by
      rw [List.length_take, Nat.min_comm]
    rw [hmin] at hok ⊢
    have hfill :=
      @filled_get h0 h1 own limbo0 mem mb _ _ _ ho0 (by decide) hget (data.take TNNET_MID1_BUF_SIZE)
    obtain ⟨own1, limbo1, ho1⟩ := hfill.bufs
    have hpos := List.length_pos_of_ne_nil hdata
    rw [List.append_assoc] at ho1
    obtain ⟨new, hnew, hrest⟩ := ih (by unfold TNNET_MID1_BUF_SIZE; rw [List.length_drop]; omega) ho1 hok
    refine ⟨mb :: new, by rw [hnew, List.append_assoc, List.singleton_append], ?_⟩
    rw [← List.append_assoc] at hrest
    have hall :=
      (hwait mem).trans ((by rwa [List.append_nil] : Filled _ _ _ _ ((extra ++ chain) ++ []) _ _).trans
      (by rwa [List.append_nil]))
    rw [List.nil_append, List.nil_append, List.take_append_drop, List.singleton_append] at hall
    exact hall

/-! ## The address of the caller -/

/-- The `struct sockaddr__in` in the buffer of the caller. -/
def destNam (buf : List UInt8) : Nam where
  mLen := buf.length
  sinFamily := (buf.getD 1 0).toNat
  sinPort := portAt buf 2
  sinAddr := BitVec.ofNat 32 (be16 buf 4 * 65536 + be16 buf 6)

/-- A copy of the buffer, with its length as the first byte. -/
structure HasAddr (h : Heap) (mem : Bufs) (nam : Block) (buf : List UInt8) : Prop where
  mLen : (h.mb nam).mLen = buf.length
  bytes : h.bytes mem nam = UInt8.ofNat buf.length :: buf.tail

theorem sockargs_spec {buf : List UInt8} {nam : Block} (hheld : Heap.Held h own limbo) (hne : buf ≠ [])
    (hr : sockargs h mem buf = (h', mem', .ok nam)) :
    (∃ own limbo, OwnBufs h' own limbo [nam]) ∧ HasAddr h' mem' nam buf := by
  have ho : OwnBufs h own limbo [] := ⟨hheld, fun b hb => absurd hb List.not_mem_nil, List.nodup_nil⟩
  have hpos := List.length_pos_of_ne_nil hne
  unfold sockargs at hr
  split at hr
  · cases hr
  cases hget : h.mbGet .MB_MID1 false with
  | mk h1 r =>
  rw [hget] at hr
  cases r with
  | none => cases hr
  | some mb =>
  have hd : (h1.set mb { h1.mb mb with mLen := buf.length }).dbuf mb = h1.dbuf mb :=
    dbuf_refs (sameRefs_set ..) mb
  have hmb : (h1.set mb { h1.mb mb with mLen := buf.length }).mb mb =
      { h1.mb mb with mLen := buf.length } :=
    set_mb_self ..
  have hfill := @filled_get h h1 own limbo mem mb _ _ _ ho (by decide) hget buf
  dsimp only at hr
  simp only [Prod.mk.injEq, Except.ok.injEq] at hr
  obtain ⟨rfl, rfl, rfl⟩ := hr
  obtain ⟨own', limbo', ho'⟩ := hfill.bufs
  have hbytes := hfill.bytes
  have hw :=
    @OwnBufs.chainBytes_writeBuf _ own' limbo' (writeBuf mem (h1.dbuf mb) (h1.mb mb).mData buf) [] mb
    [UInt8.ofNat buf.length] 0 ho' (by rw [hmb]; exact hpos)
  simp only [Heap.chainBytes, List.flatMap_cons, List.flatMap_nil, List.append_nil] at hbytes hw
  rw [hbytes, Nat.add_zero, splice_zero] at hw
  exact ⟨⟨own', limbo', ho'⟩, by rw [hmb], hw.trans (by simp)⟩

theorem sockaddrIn_eq {buf : List UInt8} {nam : Block} (ha : HasAddr h mem nam buf)
    (h16 : buf.length = sockaddrInSize) : sockaddrIn mem h nam = destNam buf := by
  cases buf with
  | nil => cases h16
  | cons c rest =>
  have hbytes := ha.bytes
  have hm : (h.mb nam).mLen = 16 := ha.mLen.trans h16
  unfold Heap.bytes at hbytes
  rw [hm] at hbytes
  unfold sockaddrIn destNam portAt
  dsimp only
  rw [hbytes, hm, h16]
  rfl

/-- What the part in front of `udp_output` leaves: the data in a chain, and the address. -/
structure Ready (dest data : List UInt8) (a : SendArgs) : Prop where
  bufs : ∃ own limbo, OwnBufs a.heap own limbo (a.mbAddr.toList ++ a.mb :: a.l)
  bytes : a.heap.chainBytes a.mem (a.mb :: a.l) = data
  tlen : (a.heap.mb a.mb).mTlen.toNat = data.length
  len : data.length ≤ UDP_MAX_TX_SIZE
  addr : ∀ nam, a.mbAddr = some nam → HasAddr a.heap a.mem nam dest
  connected : a.mbAddr = none ↔ dest = []

theorem sendArgs_ready {wake : Nat → Heap → Heap} {nbio held : Bool} {s : Inpcbs}
    {buf dest : Option (List UInt8)} {a : SendArgs} (hw : WakeKeeps wake)
    (hheld : Heap.Held h own limbo) (ha : sendArgs wake nbio h mem s held buf dest = .ok a) :
    Ready (dest.getD []) (buf.getD []) a := by
  unfold sendArgs at ha
  dsimp only at ha
  generalize buf.getD [] = data at ha ⊢
  generalize dest.getD [] = dst at ha ⊢
  split at ha
  · cases ha
  rename_i hdata
  rw [not_or, Nat.not_lt] at hdata
  obtain ⟨h1, mem1, nam, hnam, hok⟩ : ∃ h1 mem1 nam, (if dst = [] then (h, mem, Except.ok none) else
      ((sockargs h mem dst).1, (sockargs h mem dst).2.1, (sockargs h mem dst).2.2.map some)) = (h1,
        mem1, nam) ∧
      ∀ mbAddr, nam = .ok mbAddr → (∃ own limbo, OwnBufs h1 own limbo mbAddr.toList) ∧
      (mbAddr = none ↔ dst = []) ∧
        ∀ b, mbAddr = some b → HasAddr h1 mem1 b dst := by
    by_cases hdst : dst = []
    · refine ⟨h, mem, .ok none, if_pos hdst, fun mbAddr hm => ?_⟩
      cases hm
      refine ⟨⟨own, limbo, hheld, fun b hb => absurd hb List.not_mem_nil,
        List.nodup_nil⟩, by simp [hdst], fun b hb => ?_⟩
      cases hb
    · refine ⟨_, _, _, if_neg hdst, fun mbAddr hm => ?_⟩
      cases hs : sockargs h mem dst with
      | mk h1 r =>
      obtain ⟨mem1, r⟩ := r
      rw [hs] at hm
      cases r with
      | error rc => cases hm
      | ok nam =>
        cases hm
        obtain ⟨hbufs, haddr⟩ := sockargs_spec hheld hdst hs
        exact ⟨hbufs, by simp [hdst], fun b hb => by cases hb; exact haddr⟩
  rw [hnam] at ha
  cases nam with
  | error rc => cases ha
  | ok mbAddr =>
  obtain ⟨⟨own1, limbo1, ho⟩, hconn, haddr⟩ := hok mbAddr rfl
  dsimp only at ha
  have hloop :=
    @txLoop_filled h1 own1 limbo1 mem1 [] data wake nbio hw mbAddr.toList data.length (Nat.le_refl _)
    (by rwa [List.append_nil])
  generalize txLoop wake nbio data.length data [] h1 mem1 = loop at ha hloop
  obtain ⟨h2, mem2, chain, ok⟩ := loop
  cases ok with
  | false => cases ha
  | true =>
  obtain ⟨new, hnew, hfill⟩ := hloop rfl
  dsimp only at hnew hfill
  rw [List.nil_append] at hnew
  subst hnew
  rw [List.append_nil] at hfill
  cases chain with
  | nil => cases ha
  | cons mb l =>
  simp only [Except.ok.injEq] at ha
  subst ha
  obtain ⟨own2, limbo2, ho2⟩ := hfill.bufs
  have hr : SameRefs h2
      (h2.set mb { h2.mb mb with pkthdr := true, mTlen := BitVec.ofNat 20 data.length }) := by
    have := sameRefs_pkthdr h2 mb true (h2.mb mb).mLen (BitVec.ofNat 20 data.length)
    exact this
  have hmb : ∀ b, ((h2.set mb { h2.mb mb with pkthdr := true, mTlen := BitVec.ofNat 20 data.length }).mb
      b).mData = (h2.mb b).mData ∧ ((h2.set mb
        { h2.mb mb with pkthdr := true, mTlen := BitVec.ofNat 20 data.length }).mb b).mLen =
      (h2.mb b).mLen ∧ ((h2.set mb
        { h2.mb mb with pkthdr := true, mTlen := BitVec.ofNat 20 data.length }).mb b).dbhdr =
      (h2.mb b).dbhdr := by
    intro b
    rcases eq_or_ne b mb with rfl | hne
    · rw [set_mb_self]
      exact ⟨rfl, rfl, rfl⟩
    · rw [set_mb_ne hne]
      exact ⟨rfl, rfl, rfl⟩
  refine ⟨⟨own2, limbo2, ho2.same hr fun b _ => (hmb b).2.2⟩, ?_, ?_, hdata.2, fun nam hn => ?_, hconn⟩
  · exact (chainBytes_refs mem2 hr fun b _ => ⟨(hmb b).1, (hmb b).2.1⟩).trans hfill.bytes
  · have hle := hdata.2
    unfold UDP_MAX_TX_SIZE at hle
    simp only [set_mb_self, BitVec.toNat_ofNat]
    omega
  · obtain ⟨hmb1, hbytes1⟩ :=
      hfill.same nam (by rw [show mbAddr = some nam from hn]; exact List.mem_singleton_self nam)
    obtain ⟨hlen, hbytes⟩ := haddr nam hn
    refine ⟨by rw [(hmb nam).2.1, hmb1, hlen], ?_⟩
    rw [← hbytes, ← hbytes1]
    unfold Heap.bytes
    rw [dbuf_refs hr, (hmb nam).1, (hmb nam).2.1]

/-! ## The addresses -/

section Addresses

variable {tnet : Pcb.Netifs} {fuel i : Nat} {s : Inpcbs} {inp : Inpcb} {nam : Nam}

/-- The block when it is connected. -/
structure Linked (tnet : Pcb.Netifs) (inp : Inpcb) (addr : BitVec 32) (port : BitVec 16)
    (b : Inpcb) : Prop where
  faddr : b.inpFaddr = addr
  fport : b.inpFport = port
  laddr : localAddr tnet inp addr = some b.inpLaddr
  lport : inp.inpLaddr ≠ 0 ∨ inp.inpLport ≠ 0 → b.inpLport = inp.inpLport

theorem connectTo_linked {ifAddr addr : BitVec 32} {port : BitVec 16} {r : Pcbd}
    (hget : s.pcbs[i]? = some inp)
    (hl : localAddr tnet inp addr = some (if inp.inpLaddr = 0 then ifAddr else inp.inpLaddr))
    (hr : connectTo tnet fuel s i inp ifAddr addr port = some r) (hrc : r.rc = 0) :
    ∃ b, r.s.pcbs[i]? = some b ∧ Linked tnet inp addr port b := by
  have hi := (List.getElem?_eq_some_iff.mp hget).1
  unfold connectTo at hr
  have hfree : ¬ (inPcblookup s.pcbs addr port (if inp.inpLaddr ≠ 0 then inp.inpLaddr else ifAddr)
      inp.inpLport
      false).isSome = true := by
    intro hfound
    rw [if_pos hfound] at hr
    rw [← Option.some_inj.mp hr] at hrc
    cases hrc
  rw [if_neg hfree] at hr
  obtain ⟨s1, hs1, hr⟩ := Option.map_eq_some_iff.mp hr
  obtain ⟨b1, hb1, hkeep⟩ : ∃ b1, s1.pcbs[i]? = some b1 ∧
      (inp.inpLaddr ≠ 0 ∨ inp.inpLport ≠ 0 → b1 = inp) := by
    split at hs1
    · rename_i hfresh
      obtain ⟨r1, hr1, rfl⟩ := Option.map_eq_some_iff.mp hs1
      have hlen := inPcbbind_length hr1
      exact ⟨_, List.getElem?_eq_getElem (by omega), fun hno => absurd hfresh (not_and_or.mpr hno)⟩
    · rw [← Option.some_inj.mp hs1]
      exact ⟨inp, hget, fun _ => rfl⟩
  rw [← hr]
  refine ⟨_, by rw [List.getElem?_modify_eq, hb1]; rfl, rfl, rfl, ?_, fun hno => by rw [hkeep hno]⟩
  rw [hl]
  dsimp only
  split
  · rfl
  · rename_i hne
    rw [hkeep (.inl hne)]

theorem inPcbconnect_linked {r : Pcbd} (hget : s.pcbs[i]? = some inp)
    (hr : inPcbconnect tnet fuel s i nam = some r) (hrc : r.rc = 0) : ∃ b,
    r.s.pcbs[i]? = some b ∧ Linked tnet inp (connectAddr tnet nam.sinAddr) nam.sinPort b := by
  unfold inPcbconnect at hr
  rw [hget] at hr
  dsimp only at hr
  have hfail : ∀ rc : Int, rc ≠ 0 → ¬ (some ⟨rc, s⟩ : Option Pcbd) = some r := by
    intro rc hne h0
    rw [← Option.some_inj.mp h0] at hrc
    exact hne hrc
  split at hr
  · exact absurd hr (hfail _ (by decide))
  split at hr
  · exact absurd hr (hfail _ (by decide))
  split at hr
  · exact absurd hr (hfail _ (by decide))
  split at hr
  · rename_i hfree
    split at hr
    · exact absurd hr (hfail _ (by decide))
    · rename_i ni hroute
      exact connectTo_linked hget (by simp [localAddr, hfree, hroute]) hr hrc
  · rename_i hset
    exact connectTo_linked hget (by unfold localAddr; rw [if_neg hset, if_neg hset]) hr hrc

end Addresses

/-! ## `udp_s_sendto` -/

/-- The foreign address and port: those of the block, or those in the buffer of the caller. -/
def sendDst (tnet : Pcb.Netifs) (inp : Inpcb) (dest : List UInt8) : BitVec 32 × BitVec 16 :=
  if dest = [] then (inp.inpFaddr, inp.inpFport)
  else (connectAddr tnet (destNam dest).sinAddr, (destNam dest).sinPort)

/-- The block is connected, or can be for the call. -/
def CanSend (tnet : Pcb.Netifs) (s : Inpcbs) (inp : Inpcb) (dest : List UInt8) : Prop :=
  if dest = [] then inp.inpFaddr ≠ 0 else inp.inpFaddr = 0 ∧ Connects tnet s inp (destNam dest)

/-- The ends of what is sent. -/
structure SentFrom (tnet : Pcb.Netifs) (inp : Inpcb) (dest : List UInt8) (e : Endpoints) : Prop where
  dst : (e.dst, e.dport) = sendDst tnet inp dest
  src : if dest = [] then e.src = inp.inpLaddr else localAddr tnet inp e.dst = some e.src
  sport : dest = [] ∨ inp.inpLaddr ≠ 0 ∨ inp.inpLport ≠ 0 → e.sport = inp.inpLport

theorem udpOutput_emits {tnet : Pcb.Netifs} {fuel i : Nat} {held : Bool} {s : Inpcbs} {inp : Inpcb}
    {dest : List UInt8} {a : SendArgs} {r : SendOut} (ha : Ready dest data a)
    (hget : s.pcbs[i]? = some inp) (hroom : HeaderRoom a.heap) (hcan : CanSend tnet s inp dest)
    (hfit : Fits1 tnet.toIp ni f (sendDst tnet inp dest).1 (28 + data.length))
    (hr : udpOutput tnet fuel id a.heap a.mem s i inp held a.mb a.l a.mbAddr = some r) :
    ∃ e pkt h' chain, SentFrom tnet inp dest e ∧ IsUdp e data pkt ∧ Emits f pkt h' chain r ∧
    r.rc = (f h' chain).2 := by
  obtain ⟨own, limbo, ho⟩ := ha.bufs
  have hmax := ha.len
  have htlen := ha.tlen
  have ho' := ho.sublist (List.sublist_append_right a.mbAddr.toList (a.mb :: a.l))
  have hconn := ha.connected
  unfold udpOutput at hr
  unfold CanSend at hcan
  unfold sendDst at hfit
  dsimp only at hr
  rw [if_neg (by unfold UDP_MAX_TX_SIZE at hmax; unfold udpiphdrSize IP_MAXPACKET; omega)] at hr
  cases hm : a.mbAddr with
  | none =>
    obtain rfl := hconn.mp hm
    rw [hm] at hr
    rw [if_pos rfl] at hcan hfit
    dsimp only at hr
    rw [if_neg hcan] at hr
    obtain ⟨pkt, h', chain, hudp, hem, hrc⟩ :=
      @udpSend_emits _ _ _ _ _ _ data ni id f tnet s i inp held none ho'
      ha.bytes htlen hmax (by rw [List.getD_eq_getElem?_getD, hget]; rfl) hroom hfit
    rw [Option.some_inj] at hr
    rw [hr] at hem hrc
    exact ⟨_, pkt, h', chain, ⟨rfl, by rw [if_pos rfl], fun _ => rfl⟩, hudp, hem, hrc⟩
  | some nam =>
    have hne : dest ≠ [] := fun h0 => by rw [hconn.mpr h0] at hm; cases hm
    rw [hm] at hr
    rw [if_neg hne] at hcan hfit
    obtain ⟨hfree, hcon⟩ := hcan
    rw [hfree] at hr
    dsimp only at hr
    rw [if_neg (not_not.mpr rfl), sockaddrIn_eq (ha.addr nam hm) hcon.1] at hr
    cases hc : inPcbconnect tnet fuel s i (destNam dest) with
    | none =>
      rw [hc] at hr
      cases hr
    | some c =>
      have hrc := (inPcbconnect_spec hget hc).rc.mpr hcon
      obtain ⟨b, hb, hlink⟩ := inPcbconnect_linked hget hc hrc
      rw [hc] at hr
      dsimp only at hr
      rw [hrc, if_neg (not_not.mpr rfl), Option.some_inj] at hr
      obtain ⟨pkt, h', chain, hudp, hem, hrc⟩ :=
        @udpSend_emits _ _ _ _ _ _ data ni id f tnet c.s i b (splnet held).2
        (some ⟨nam, inp.inpLaddr, (splnet held).1⟩) ho' ha.bytes htlen hmax
        (by rw [List.getD_eq_getElem?_getD, hb]; rfl) hroom (by rw [hlink.faddr]; exact hfit)
      rw [hr] at hem hrc
      refine ⟨_, pkt, h', chain, ⟨?_, ?_, ?_⟩, hudp, hem, hrc⟩
      · unfold sendDst
        rw [if_neg hne, ← hlink.faddr, ← hlink.fport]
      · rw [if_neg hne, hlink.faddr]
        exact hlink.laddr
      · exact fun hno => hlink.lport (hno.resolve_left hne)

theorem sendto_emits {tnet : Pcb.Netifs} {fuel i : Nat} {wake : Nat → Heap → Heap} {nbio held : Bool}
    {s : Inpcbs} {inp : Inpcb} {buf dest : Option (List UInt8)} {a : SendArgs} {r : SendOut}
    (hw : WakeKeeps wake) (hheld : Heap.Held h own limbo) (hget : s.pcbs[i]? = some inp)
    (ha : sendArgs wake nbio h mem s held buf dest = .ok a) (hroom : HeaderRoom a.heap)
    (hcan : CanSend tnet s inp (dest.getD []))
    (hfit : Fits1 tnet.toIp ni f (sendDst tnet inp (dest.getD [])).1 (28 + (buf.getD []).length))
    (hr : udpSSendto tnet fuel wake nbio id h mem s i held buf dest = some r) :
    ∃ e pkt h' chain, SentFrom tnet inp (dest.getD []) e ∧ IsUdp e (buf.getD []) pkt ∧
    Emits f pkt h' chain r ∧
      r.rc = if 0 < (f h' chain).2 then -(f h' chain).2 else (f h' chain).2 := by
  unfold udpSSendto at hr
  rw [hget, ha] at hr
  dsimp only at hr
  obtain ⟨r1, hr1, rfl⟩ := Option.map_eq_some_iff.mp hr
  obtain ⟨e, pkt, h', chain, hfrom, hudp, hem, hrc⟩ :=
    udpOutput_emits (sendArgs_ready hw hheld ha) hget hroom hcan hfit hr1
  exact ⟨e, pkt, h', chain, hfrom, hudp, ⟨hem.given, hem.bytes, hem.heap⟩, by dsimp only; rw [hrc]⟩

end TnNet.Udp
