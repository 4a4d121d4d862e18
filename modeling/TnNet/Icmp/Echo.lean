import TnNet.Icmp.Defs
import TnNet.Ip.DontFragment
import TnNet.Ip.Packet

/-!
# Which pings are answered

`icmpInput_answers_iff`: a well-formed echo request is answered exactly when its header has no options
and its payload has at least 28 bytes.  `ICMP_ADVLENMIN` is the length of an error message, and is
compared with `ip_len`, which counts the header; `ip_output` writes the length of a header without
options in front of the options.

The packet in a descriptor is followed as a byte string: each write is a `splice`.
-/

set_option autoImplicit false

namespace TnNet.Icmp

open Bytes InetSum TnNet.Mem TnNet.Mem.Heap TnNet.Ip

variable {h : Heap} {own : Finset Block} {limbo : Set Block} {mem : Bufs} {b d m mb : Block}
  {l : List UInt8} {ip pkt : List UInt8} {i k : Nat} {tnet : Netifs} {ni : Netif} {id : Nat}

/-! ## Headers -/

/-- What the headers of the request and of its answer have in common. -/
structure SameHdr (ip ip' : List UInt8) : Prop where
  len : be16 ip' 2 = be16 ip 2
  src : ipSrc ip' = ipSrc ip
  dst : ipDst ip' = ipDst ip

theorem reflectHdr_spec (hl : ip.length = 20) :
    (reflectHdr ip).length = 20 ∧ ipHl (reflectHdr ip) = ipHl ip ∧ be16 (reflectHdr ip) 2 = be16 ip 2 ∧
      ipSrc (reflectHdr ip) = ipDst ip ∧ ipDst (reflectHdr ip) = ipSrc ip := by
  match ip, hl with
  | [_, _, _, _, _, _, _, _, _, _, _, _, _, _, _, _, _, _, _, _], _ => exact ⟨rfl, rfl, rfl, rfl, rfl⟩

/-- Only the first 20 bytes matter. -/
theorem sameHdr_take (pkt : List UInt8) : SameHdr pkt (pkt.take 20) := by
  have hbe : ∀ j, j + 1 < 20 → be16 (pkt.take 20) j = be16 pkt j := by
    intro j hj
    have hget : ∀ i, i < 20 → (pkt.take 20).getD i 0 = pkt.getD i 0 := by
      intro i hi
      simp [List.getD_eq_getElem?_getD, hi]
    unfold be16
    rw [hget j (by omega), hget (j + 1) hj]
  constructor
  · exact hbe 2 (by decide)
  · unfold ipSrc
    rw [hbe 12 (by decide), hbe 14 (by decide)]
  · unfold ipDst
    rw [hbe 16 (by decide), hbe 18 (by decide)]

theorem ipHl_take (pkt : List UInt8) : ipHl (pkt.take 20) = ipHl pkt := by
  unfold ipHl
  simp [List.getD_eq_getElem?_getD]

/-- The header that goes out: `ip_output` has written its length and its checksum. -/
def sentHdr (ip : List UInt8) (id sum : Nat) : List UInt8 :=
  setLe16 (setBe16 (outputHdr ip id) 10 0) 10 sum

theorem sentHdr_spec (hl : ip.length = 20) (id sum : Nat) :
    (sentHdr ip id sum).length = 20 ∧ ipHl (sentHdr ip id sum) = 5 ∧ SameHdr ip (sentHdr ip id sum) := by
  have hbe : ∀ j, j ∉ [0, 4, 5, 6, 7, 10, 11] → j + 1 ∉ [0, 4, 5, 6, 7, 10, 11] →
      be16 (sentHdr ip id sum) j = be16 ip j := by
    intro j h1 h2
    have hj : j + 1 < 10 ∨ 10 + 1 < j := by
      simp only [List.mem_cons, List.not_mem_nil, or_false, not_or] at h1 h2
      omega
    unfold sentHdr
    rw [be16_setLe16_of_ne hj, be16_setBe16_of_ne hj, be16_outputHdr_of_ne id (by simp_all) (by simp_all)]
  refine ⟨by simp [sentHdr, (outputHdr_spec hl id).1], ?_, ?_⟩
  · have h0 : (sentHdr ip id sum).getD 0 0 = 0x45 := by
      unfold sentHdr outputHdr
      rw [getD_setLe16 (by decide), getD_setBe16 (by decide), getD_setBe16 (by decide)]
      simp [maskIpOff, List.getD_eq_getElem?_getD, hl]
    unfold ipHl
    rw [h0]
    rfl
  · constructor
    · exact hbe 2 (by decide) (by decide)
    · unfold ipSrc
      rw [hbe 12 (by decide) (by decide), hbe 14 (by decide) (by decide)]
    · unfold ipDst
      rw [hbe 16 (by decide) (by decide), hbe 18 (by decide) (by decide)]

/-! ## The answer goes out -/

/-- The packet with its ICMP checksum written. -/
def sumIcmp (odd : Bool) (pkt : List UInt8) : List UInt8 :=
  let hlen := ipHl pkt * 4
  let zero := splice pkt (hlen + 2) (leBytes 2 0)
  splice zero (hlen + 2) (leBytes 2 (inCksum [(odd, zero.drop hlen)] (be16 pkt 2 - hlen)))

/-- `ip_output` of a packet that is sent whole. -/
theorem output_whole {f : OutputFunc} (hd : h.dbuf b = some d) (h20 : 20 ≤ (h.mb b).mLen)
    (hdst : ipDst (h.bytes mem b) ≠ BitVec.allOnes 32) (hmtu : (be16 (h.bytes mem b) 2 : Int) ≤ ni.ifMtu)
    (hf : ni.outputFunc = some f) :
    (ipOutput tnet (some ni) id h mem b []).given = [[b]] ∧
    (ipOutput tnet (some ni) id h mem b []).freed = [] ∧
      ∃ sum, h.bytes (ipOutput tnet (some ni) id h mem b []).mem b =
        sentHdr ((h.bytes mem b).take 20) id sum ++ (h.bytes mem b).drop 20 := by
  have hl : ((h.bytes mem b).take 20).length = 20 := by
    rw [List.length_take, length_packet hd]
    omega
  have htake := sameHdr_take (h.bytes mem b)
  obtain ⟨hl1, hlen1, hdst1, -⟩ := outputHdr_spec hl id
  have hout := @bytes_setIphdr h mem b _ _ hd h20 hl1
  have hpkt : ipOutput tnet (some ni) id h mem b [] =
      outputOn h (setIphdr mem h b (outputHdr ((h.bytes mem b).take 20) id)) ni b [] := by
    rw [ipOutput_eq id hd rfl, iphdr_eq_take h20]
  rw [hpkt]
  generalize setIphdr mem h b (outputHdr ((h.bytes mem b).take 20) id) = mem1 at hout ⊢
  have hhdr : iphdr mem1 h b = outputHdr ((h.bytes mem b).take 20) id := by
    rw [iphdr_eq_take h20, hout, List.take_left' hl1]
  unfold outputOn
  dsimp only
  rw [hhdr, hdst1, hlen1, htake.len, htake.dst, if_neg fun hc => hdst hc.1, if_neg fun hc => hdst hc.1,
    if_pos hmtu]
  unfold sendWhole
  rw [hf]
  refine ⟨rfl, rfl, ?_⟩
  dsimp only
  unfold sumIphdr
  dsimp only
  rw [hhdr]
  have hl2 : (setBe16 (outputHdr ((h.bytes mem b).take 20) id) 10 0).length = 20 := by simp [hl1]
  have hzero := @bytes_setIphdr h mem1 b _ _ hd h20 hl2
  generalize setIphdr mem1 h b (setBe16 (outputHdr ((h.bytes mem b).take 20) id) 10 0) = mem2 at hzero ⊢
  refine ⟨inCksumMb mem2 h [b] 20, ?_⟩
  rw [iphdr_eq_take h20, hzero, List.take_left' hl2, bytes_setIphdr hd h20 (by simp [hl1]), hzero,
    List.drop_left' hl2, hout, List.drop_left' hl1]
  rfl

/-- `icmp_send`, in place. -/
theorem icmpSend_eq (hd : h.dbuf b = some d) (h20 : 20 ≤ (h.mb b).mLen)
    (hin : ipHl (h.bytes mem b) * 4 + 4 ≤ (h.mb b).mLen) :
    ∃ odd mem', icmpSend tnet ni id h mem b [] = ⟨h, [b], ipOutput tnet (some ni) id h mem' b []⟩ ∧
      h.bytes mem' b = sumIcmp odd (h.bytes mem b) := by
  have htake := sameHdr_take (h.bytes mem b)
  unfold icmpSend sumIcmp
  dsimp only
  rw [iphdr_eq_take h20, ipHl_take, htake.len]
  generalize hk : ipHl (h.bytes mem b) * 4 = hlen at hin ⊢
  rw [trim_trim (by omega)]
  have hmData : ((h.trim b ((h.mb b).mLen - hlen) ((h.mb b).mData + hlen)).mb b).mData =
      (h.mb b).mData + hlen := by
    simp [Heap.trim]
  have htrim : ∀ mem', (h.trim b ((h.mb b).mLen - hlen) ((h.mb b).mData + hlen)).bytes mem' b =
      (h.bytes mem' b).drop hlen := fun mem' => bytes_trim hlen
  rw [dbuf_trim, hmData, Nat.add_assoc]
  have hzero := @bytes_writeBuf h mem b d (leBytes 2 0) (hlen + 2) hd (by rw [length_leBytes]; omega)
  generalize writeBuf mem (h.dbuf b) ((h.mb b).mData + (hlen + 2)) (leBytes 2 0) = mem1 at hzero ⊢
  refine ⟨decide (((h.mb b).mData + hlen) % 2 = 1), _, rfl, ?_⟩
  rw [bytes_writeBuf hd (by rw [length_leBytes]; omega), hzero]
  unfold inCksumMb
  rw [List.map_cons, List.map_nil, htrim, hzero, hmData]

/-- The packet with the addresses exchanged. -/
def reflectPkt (pkt : List UInt8) : List UInt8 := reflectHdr (pkt.take 20) ++ pkt.drop 20

theorem reflectPkt_spec (h20 : 20 ≤ pkt.length) :
    (reflectPkt pkt).length = pkt.length ∧ (reflectPkt pkt).take 20 = reflectHdr (pkt.take 20) ∧
      ipHl (reflectPkt pkt) = ipHl pkt ∧ be16 (reflectPkt pkt) 2 = be16 pkt 2 ∧
      ipSrc (reflectPkt pkt) = ipDst pkt ∧ ipDst (reflectPkt pkt) = ipSrc pkt := by
  have hl : (pkt.take 20).length = 20 := by
    rw [List.length_take]
    omega
  obtain ⟨hl1, hhl, hlen, hsrc, hdst⟩ := reflectHdr_spec hl
  have htake : (reflectPkt pkt).take 20 = reflectHdr (pkt.take 20) := List.take_left' hl1
  have h1 := sameHdr_take pkt
  have h2 := sameHdr_take (reflectPkt pkt)
  rw [htake] at h2
  refine ⟨?_, htake, ?_, ?_, ?_, ?_⟩
  · unfold reflectPkt
    rw [List.length_append, hl1, List.length_drop]
    omega
  · rw [← ipHl_take (reflectPkt pkt), htake, hhl, ipHl_take]
  · rw [← h2.len, hlen, h1.len]
  · rw [← h2.src, hsrc, h1.dst]
  · rw [← h2.dst, hdst, h1.src]

theorem sumIcmp_spec (odd : Bool) (h5 : 5 ≤ ipHl pkt) (hin : ipHl pkt * 4 + 4 ≤ pkt.length) :
    (sumIcmp odd pkt).length = pkt.length ∧ (sumIcmp odd pkt).take 20 = pkt.take 20 := by
  have hzero : (splice pkt (ipHl pkt * 4 + 2) (leBytes 2 0)).length = pkt.length :=
    length_splice (by rw [length_leBytes]; omega)
  unfold sumIcmp
  dsimp only
  generalize inCksum _ _ = x
  constructor
  · rw [length_splice (by rw [length_leBytes, hzero]; omega), hzero]
  · rw [take_splice (by omega) (by omega), take_splice (by omega) (by omega)]

/-- What `icmp_reflect` sends. -/
theorem icmpReflect_sends {f : OutputFunc} (hd : h.dbuf b = some d) (h5 : 5 ≤ ipHl (h.bytes mem b))
    (hin : ipHl (h.bytes mem b) * 4 + 4 ≤ (h.mb b).mLen) (hsrc : ipSrc (h.bytes mem b) ≠ BitVec.allOnes 32)
    (hmtu : (be16 (h.bytes mem b) 2 : Int) ≤ ni.ifMtu) (hf : ni.outputFunc = some f) :
    ∃ odd hdr, (icmpReflect tnet ni id h mem b []).output.given = [[b]] ∧
      (icmpReflect tnet ni id h mem b []).output.freed = [] ∧
      (icmpReflect tnet ni id h mem b []).heap.bytes (icmpReflect tnet ni id h mem b []).output.mem b =
        hdr ++ (sumIcmp odd (reflectPkt (h.bytes mem b))).drop 20 ∧
      hdr.length = 20 ∧ ipHl hdr = 5 ∧ be16 hdr 2 = be16 (h.bytes mem b) 2 ∧
      ipSrc hdr = ipDst (h.bytes mem b) ∧ ipDst hdr = ipSrc (h.bytes mem b) := by
  have h20 : 20 ≤ (h.mb b).mLen := by omega
  have hlen := @length_packet h mem b _ hd
  obtain ⟨hl1, htake, hhl, hip1, hsrc1, hdst1⟩ := @reflectPkt_spec (h.bytes mem b) (by omega)
  have hl : (reflectHdr ((h.bytes mem b).take 20)).length = 20 := by
    rw [← htake, List.length_take]
    omega
  have hpkt := @bytes_setIphdr h mem b _ _ hd h20 hl
  unfold icmpReflect
  rw [iphdr_eq_take h20]
  generalize setIphdr mem h b (reflectHdr ((h.bytes mem b).take 20)) = mem1 at hpkt ⊢
  change h.bytes mem1 b = reflectPkt (h.bytes mem b) at hpkt
  obtain ⟨odd, mem2, hsend, hsum⟩ := @icmpSend_eq h mem1 b d tnet ni id hd h20 (by rw [hpkt, hhl]; omega)
  rw [hpkt] at hsum
  obtain ⟨hl2, htake2⟩ := @sumIcmp_spec (reflectPkt (h.bytes mem b)) odd (by omega) (by omega)
  have hsame1 := sameHdr_take (reflectPkt (h.bytes mem b))
  have hsame2 := sameHdr_take (sumIcmp odd (reflectPkt (h.bytes mem b)))
  rw [htake2] at hsame2
  have hdst2 : ipDst (h.bytes mem2 b) = ipSrc (h.bytes mem b) := by
    rw [hsum, ← hsame2.dst, hsame1.dst, hdst1]
  have hip2 : be16 (h.bytes mem2 b) 2 = be16 (h.bytes mem b) 2 := by
    rw [hsum, ← hsame2.len, hsame1.len, hip1]
  obtain ⟨hgiven, hfreed, sum, hbytes⟩ := @output_whole h mem2 b d tnet ni id f hd h20 (by rwa [hdst2])
    (by rwa [hip2]) hf
  rw [hsum, htake2] at hbytes
  have hl3 : ((reflectPkt (h.bytes mem b)).take 20).length = 20 := by rw [htake, hl]
  obtain ⟨hl4, hhl4, hsame⟩ := sentHdr_spec hl3 id sum
  rw [hsend]
  refine ⟨odd, _, hgiven, hfreed, hbytes, hl4, hhl4, ?_, ?_, ?_⟩
  · rw [hsame.len, hsame1.len, hip1]
  · rw [hsame.src, hsame1.src, hsrc1]
  · rw [hsame.dst, hsame1.dst, hdst1]

/-! ## The buffer of the driver -/

/-- A copy of the packet in a buffer of its own; the packet is freed. -/
structure Moved (own : Finset Block) (h : Heap) (mem : Bufs) (mb tx : Block) (h' : Heap)
    (mem' : Bufs) : Prop where
  dbuf : h'.dbuf tx ≠ none
  mLen : (h'.mb tx).mLen = (h.mb mb).mLen
  bytes : h'.bytes mem' tx = h.bytes mem mb

theorem moved {tx : Block} {h1 : Heap} (hh : Held h own limbo) (hmb : mb ∈ own)
    (hrx : rxMid1 (h.mb mb) = true) (hget : h.mbGet .MB_MID1 true = (h1, some tx)) :
    let h2 := h1.set tx { h1.mb tx with
      dbhdr := (h1.mb mb).dbhdr, pkthdr := (h1.mb mb).pkthdr, noalloc := (h1.mb mb).noalloc
      mLen := (h1.mb mb).mLen, mTlen := (h1.mb mb).mTlen }
    Moved own h mem mb tx (h2.mFreem [mb])
      (writeBuf mem (h2.dbuf tx) (h2.mb tx).mData (h2.bytes mem mb)) := by
  have hheld := hh.mbGet .MB_MID1 true
  have hfresh := mbGet_result hh .MB_MID1 true (by decide)
  rw [hget] at hheld hfresh
  obtain ⟨dt, hfresh⟩ := hfresh
  simp only [Option.toFinset_some, Finset.singleton_union] at hheld
  have hne : mb ≠ tx := by
    rintro rfl
    exact hfresh.notUse.1 (.inl hmb)
  -- the request has the flags of a new descriptor
  have hdbhdr : (h.mb mb).dbhdr = true := by
    unfold rxMid1 at hrx
    simp only [Bool.and_eq_true] at hrx
    exact hrx.1.2
  have hnoalloc : (h.mb mb).noalloc = false := by
    obtain ⟨d, hr⟩ := hh.sharing.root mb (isRoot_of_pri hmb (by simp [pri, hdbhdr]))
    exact hr.noalloc
  rw [hfresh.same mb (.inl hmb), hdbhdr, hnoalloc]
  dsimp only
  have hset : ({ h1.mb tx with
      dbhdr := true, pkthdr := (h.mb mb).pkthdr, noalloc := false, mLen := (h.mb mb).mLen
      mTlen := (h.mb mb).mTlen } : Desc) =
      { h1.mb tx with pkthdr := (h.mb mb).pkthdr, mLen := (h.mb mb).mLen, mTlen := (h.mb mb).mTlen } := by
    rw [hfresh.desc]
    rfl
  rw [hset]
  have hrefs := sameRefs_pkthdr h1 tx (h.mb mb).pkthdr (h.mb mb).mLen (h.mb mb).mTlen
  have hmLen : ((h1.set tx { h1.mb tx with
      pkthdr := (h.mb mb).pkthdr, mLen := (h.mb mb).mLen, mTlen :=
        (h.mb mb).mTlen }).mb tx).mLen = (h.mb mb).mLen := by
    simp
  have hsame2 : ∀ x ∈ h.InUse own, Same h (h1.set tx { h1.mb tx with
      pkthdr := (h.mb mb).pkthdr, mLen := (h.mb mb).mLen, mTlen := (h.mb mb).mTlen }) x := by
    intro x hx
    refine .of_eq ?_
    rw [set_mb_ne, hfresh.same x hx]
    rintro rfl
    exact hfresh.notUse.1 hx
  have hdbuf : h1.dbuf tx = some dt := by
    have hdesc : (h1.mb tx).dbhdr = true ∧ (h1.mb tx).mDbuf = some dt := by
      have heq : h1.mb tx = primDesc tx dt (h1.mb tx).mDbtype := hfresh.desc
      rw [heq]
      exact ⟨rfl, rfl⟩
    simp [dbuf, pri, hdesc]
  have hheld2 := hheld.same hrefs
  rw [← dbuf_refs hrefs] at hdbuf
  generalize h1.set tx { h1.mb tx with
    pkthdr := (h.mb mb).pkthdr, mLen := (h.mb mb).mLen, mTlen := (h.mb mb).mTlen } = h2 at *
  have hbytes : h2.bytes mem mb = h.bytes mem mb := Same.bytes hsame2 hmb
  have hlen : (h.bytes mem mb).length = (h.mb mb).mLen := by
    obtain ⟨d, hd⟩ := exists_dbuf hh.sharing hmb
    exact length_packet hd
  have htx : tx ∈ insert tx own \ [mb].toFinset := by simp [hne.symm]
  have hfree : ∀ x ∈ h2.InUse (insert tx own \ [mb].toFinset), Same h2 (h2.mFreem [mb]) x := fun x hx =>
    mFreem_same hheld2 (List.nodup_singleton mb) (by simp [hmb]) hx
  rw [hbytes]
  constructor
  case dbuf =>
    rw [dbuf_keeps (fun x hx => (hfree x hx).keeps) htx, hdbuf]
    exact Option.some_ne_none dt
  case mLen => rw [(hfree tx (.inl htx)).mLen, hmLen]
  case bytes =>
    rw [Same.bytes hfree htx]
    have hw := @bytes_writeBuf h2 mem tx dt (h.bytes mem mb) 0 hdbuf (by omega)
    have hall : (h2.bytes mem tx).drop (h.bytes mem mb).length = [] := by
      rw [List.drop_eq_nil_iff, length_packet hdbuf]
      omega
    rw [Nat.add_zero, splice_zero, hall, List.append_nil] at hw
    exact hw

/-- What the answer to a request is, before `ip_output` writes its header. -/
structure Sends (mb : Block) (pkt : List UInt8) (o : IcmpOut) (c : OutputCall) (b : Block)
    (hdr : List UInt8) (odd : Bool) : Prop where
  sent : o.sent = some c
  given : c.output.given = [[b]]
  once : (o.freed ++ c.output.freed ++ c.output.given.flatten).Perm (mb :: o.obtained)
  bytes : c.heap.bytes c.output.mem b = hdr ++ (sumIcmp odd (reflectPkt pkt)).drop 20
  length : hdr.length = 20
  hl : ipHl hdr = 5
  len : be16 hdr 2 = be16 pkt 2
  src : ipSrc hdr = ipDst pkt
  dst : ipDst hdr = ipSrc pkt

theorem echoReply_sends {f : OutputFunc} (hh : Held h own limbo) (hmb : mb ∈ own)
    (hroom : (h.mbGet .MB_MID1 true).2 ≠ none) (h5 : 5 ≤ ipHl (h.bytes mem mb))
    (hin : ipHl (h.bytes mem mb) * 4 + 4 ≤ (h.mb mb).mLen)
    (hsrc : ipSrc (h.bytes mem mb) ≠ BitVec.allOnes 32)
    (hmtu : (be16 (h.bytes mem mb) 2 : Int) ≤ ni.ifMtu) (hf : ni.outputFunc = some f) :
    ∃ c b hdr odd, Sends mb (h.bytes mem mb) (echoReply tnet ni id h mem mb []) c b hdr odd := by
  unfold echoReply
  split
  · rename_i hrx
    cases hget : h.mbGet .MB_MID1 true with
    | mk h1 r =>
      cases r with
      | none => exact absurd (by rw [hget]) hroom
      | some tx =>
        obtain ⟨hdbuf, hlen, hbytes⟩ := @moved h own limbo mem mb tx h1 hh hmb hrx hget
        obtain ⟨d, hd⟩ := Option.ne_none_iff_exists'.mp hdbuf
        dsimp only
        dsimp only at hd hlen hbytes
        generalize writeBuf mem _ _ _ = mem2 at *
        generalize Heap.mFreem _ [mb] = h2 at *
        rw [← hbytes] at h5 hin hsrc hmtu ⊢
        rw [← hlen] at hin
        obtain ⟨odd, hdr, hgiven, hfreed, hout, hl, hhl, hip, hs, ht⟩ :=
          @icmpReflect_sends h2 mem2 tx d tnet ni id f hd h5 hin hsrc hmtu hf
        refine ⟨_, tx, hdr, odd, ⟨rfl, hgiven, ?_, hout, hl, hhl, hip, hs, ht⟩⟩
        rw [hfreed, hgiven]
        exact List.Perm.refl _
  · obtain ⟨d, hd⟩ := exists_dbuf hh.sharing hmb
    obtain ⟨odd, hdr, hgiven, hfreed, hout, hl, hhl, hip, hs, ht⟩ :=
      @icmpReflect_sends h mem mb d tnet ni id f hd h5 hin hsrc hmtu hf
    refine ⟨_, mb, hdr, odd, ⟨rfl, hgiven, ?_, hout, hl, hhl, hip, hs, ht⟩⟩
    rw [hfreed, hgiven]
    exact List.Perm.refl _

/-! ## Requests and answers -/

/-- A well-formed echo request to the interface. -/
structure EchoRequest (ni : Netif) (pkt : List UInt8) : Prop where
  hl : 5 ≤ ipHl pkt
  len : be16 pkt 2 = pkt.length
  min : ipHl pkt * 4 + ICMP_MINLEN ≤ pkt.length
  mtu : (pkt.length : Int) ≤ ni.ifMtu
  proto : pkt.getD 9 0 = IPPROTO_ICMP
  src : ipSrc pkt ≠ BitVec.allOnes 32
  dst : ipDst pkt = ni.ipAddr
  type : pkt.getD (ipHl pkt * 4) 0 = ICMP_ECHO
  sum : checksum (pkt.drop (ipHl pkt * 4)) = 0

/-- The answer to a request: behind the header of `ip_hl` words is an echo reply with the code, the
    identifier, the sequence number and the payload of the request. -/
structure EchoReply (req rep : List UInt8) : Prop where
  src : ipSrc rep = ipDst req
  dst : ipDst rep = ipSrc req
  len : be16 rep 2 = rep.length
  type : rep.getD (ipHl rep * 4) 0 = ICMP_ECHOREPLY
  code : rep.getD (ipHl rep * 4 + 1) 0 = req.getD (ipHl req * 4 + 1) 0
  data : rep.drop (ipHl rep * 4 + 4) = req.drop (ipHl req * 4 + 4)
  sum : checksum (rep.drop (ipHl rep * 4)) = 0

/-- The request in `mb` is answered by one packet, and its descriptor is freed or reused once. -/
structure Answered (h : Heap) (mem : Bufs) (mb : Block) (o : IcmpOut) (c : OutputCall)
    (b : Block) : Prop where
  sent : o.sent = some c
  given : c.output.given = [[b]]
  reply : EchoReply (h.bytes mem mb) (c.heap.bytes c.output.mem b)
  once : (o.freed ++ c.output.freed ++ c.output.given.flatten).Perm (mb :: o.obtained)

/-- The request with its type overwritten. -/
def typed (pkt : List UInt8) : List UInt8 := splice pkt (ipHl pkt * 4) [ICMP_ECHOREPLY]

theorem typed_spec (h5 : 5 ≤ ipHl pkt) (hin : ipHl pkt * 4 + 4 ≤ pkt.length) :
    (typed pkt).length = pkt.length ∧ ipHl (typed pkt) = ipHl pkt ∧ SameHdr pkt (typed pkt) := by
  have htake : (typed pkt).take 20 = pkt.take 20 := take_splice (by omega) (by omega)
  have h1 := sameHdr_take pkt
  have h2 := sameHdr_take (typed pkt)
  rw [htake] at h2
  refine ⟨length_splice (by simp; omega), ?_, ?_⟩
  · rw [← ipHl_take (typed pkt), htake, ipHl_take]
  · exact ⟨by rw [← h2.len, h1.len], by rw [← h2.src, h1.src], by rw [← h2.dst, h1.dst]⟩

/-- A checksum of zero behind a header that is written. -/
theorem checksum_written {b0 b1 : UInt8} {rest : List UInt8} {odd : Bool} {n : Nat}
    (hn : n = rest.length + 4) (hle : n ≤ 100000) :
    checksum (b0 :: b1 :: (leBytes 2 (inCksum [(odd, b0 :: b1 :: 0 :: 0 :: rest)] n) ++ rest)) = 0 := by
  obtain ⟨x, hx, heq, hmod, hz⟩ := @inCksum_eq n [(odd, b0 :: b1 :: 0 :: 0 :: rest)] hle
  have hall : (([(odd, b0 :: b1 :: 0 :: 0 :: rest)] : List (Bool × List UInt8)).flatMap Prod.snd).take n =
      b0 :: b1 :: 0 :: 0 :: rest := by
    simp [hn]
  rw [hall] at hmod hz
  have hle := reduce_le hx
  have hc0 : (UInt8.ofNat (65535 - reduce x)).toNat + 256 * (UInt8.ofNat ((65535 - reduce x) / 256)).toNat =
      65535 - reduce x := by
    rw [UInt8.toNat_ofNat', UInt8.toNat_ofNat']
    omega
  have hval : val (b0 :: b1 :: (leBytes 2 (65535 - reduce x) ++ rest)) =
      val (b0 :: b1 :: 0 :: 0 :: rest) + 65536 * (65535 - reduce x) := by
    simp only [leBytes, List.cons_append, List.nil_append, val, UInt8.toNat_zero]
    omega
  rw [heq, checksum_eq_zero_iff, hval]
  constructor
  · refine reduce_complement hx ?_
    unfold Nat.ModEq at hmod ⊢
    omega
  · have h0 := reduce_eq_zero (x := x)
    omega

/-- The ICMP part of the answer to a request whose header has no options. -/
theorem sumIcmp_drop {odd : Bool} (hhl : ipHl pkt = 5) (hin : 24 ≤ pkt.length)
    (hlen : be16 pkt 2 = pkt.length) : ∃ c0 c1, (sumIcmp odd (reflectPkt (typed pkt))).drop 20 =
        ICMP_ECHOREPLY :: pkt.getD 21 0 :: c0 :: c1 :: pkt.drop 24 ∧
      checksum ((sumIcmp odd (reflectPkt (typed pkt))).drop 20) = 0 := by
  obtain ⟨hl1, hhl1, hsame⟩ := @typed_spec pkt (by omega) (by omega)
  obtain ⟨hl2, htake, hhl2, hip2, -⟩ := @reflectPkt_spec (typed pkt) (by omega)
  have hbound := be16_lt pkt 2
  have hdata : pkt.drop 20 =
      pkt.getD 20 0 :: pkt.getD 21 0 :: pkt.getD 22 0 :: pkt.getD 23 0 :: pkt.drop 24 := by
    have hcons : ∀ i, i < pkt.length → pkt.drop i = pkt.getD i 0 :: pkt.drop (i + 1) := by
      intro i hi
      rw [List.drop_eq_getElem_cons hi, List.getD_eq_getElem?_getD, List.getElem?_eq_getElem hi]
      rfl
    rw [hcons 20 (by omega), hcons 21 (by omega), hcons 22 (by omega), hcons 23 (by omega)]
  have hrest : (reflectPkt (typed pkt)).drop 20 = ICMP_ECHOREPLY :: pkt.drop 21 := by
    have hl3 : (reflectHdr ((typed pkt).take 20)).length = 20 := by
      rw [← htake, List.length_take]
      omega
    unfold reflectPkt
    rw [List.drop_left' hl3]
    unfold typed
    rw [hhl, drop_splice_of_le (by omega) (by omega), Nat.sub_self, splice_zero, List.drop_drop]
    rfl
  have h21 : pkt.drop 21 = pkt.getD 21 0 :: pkt.getD 22 0 :: pkt.getD 23 0 :: pkt.drop 24 := by
    have h := congrArg (List.drop 1) hdata
    rwa [List.drop_drop] at h
  rw [h21] at hrest
  generalize hrefl : reflectPkt (typed pkt) = r at *
  have hzlen : (splice r 22 (leBytes 2 0)).length = r.length :=
    length_splice (by rw [length_leBytes]; omega)
  have hzero : (splice r 22 (leBytes 2 0)).drop 20 =
      ICMP_ECHOREPLY :: pkt.getD 21 0 :: 0 :: 0 :: pkt.drop 24 := by
    rw [drop_splice_of_le (by omega) (by omega), hrest]
    rfl
  have hsum : ∀ x, (splice (splice r 22 (leBytes 2 0)) 22 (leBytes 2 x)).drop 20 =
      ICMP_ECHOREPLY :: pkt.getD 21 0 :: (leBytes 2 x ++ pkt.drop 24) := by
    intro x
    rw [drop_splice_of_le (by omega) (by omega), hzero]
    rfl
  unfold sumIcmp
  dsimp only
  rw [hhl2, hhl1, hhl, hsum, hzero]
  refine ⟨_, _, rfl, ?_⟩
  apply checksum_written
  · rw [hip2, hsame.len, hlen, List.length_drop]
    omega
  · rw [hip2, hsame.len]
    omega

/-! ## The reply -/

/-- A request that is too short for an error message is dropped. -/
theorem icmpInput_dropped (hd : h.dbuf mb = some d) (hreq : EchoRequest ni (h.bytes mem mb))
    (hshort : (h.mb mb).mLen < ipHl (h.bytes mem mb) * 4 + ICMP_ADVLENMIN) :
    (icmpInput tnet ni id h mem mb []).sent = none := by
  have hlen := @length_packet h mem mb _ hd
  have h5 := hreq.hl
  have hmin := hreq.min
  have hip := hreq.len
  have htake := sameHdr_take (h.bytes mem mb)
  unfold icmpInput
  dsimp only
  unfold ICMP_MINLEN at *
  rw [iphdr_eq_take (by omega), ipHl_take, htake.len, if_neg (by omega), if_pos]
  · rfl
  · unfold ICMP_ADVLENMIN at *
    omega

/-- A request that is long enough: its type is overwritten. -/
theorem icmpInput_echo (hd : h.dbuf mb = some d) (hreq : EchoRequest ni (h.bytes mem mb))
    (hlong : ipHl (h.bytes mem mb) * 4 + ICMP_ADVLENMIN ≤ (h.mb mb).mLen) :
    ∃ mem', icmpInput tnet ni id h mem mb [] = echoReply tnet ni id h mem' mb [] ∧
      h.bytes mem' mb = typed (h.bytes mem mb) := by
  have hlen := @length_packet h mem mb _ hd
  have h5 := hreq.hl
  have hmin := hreq.min
  have hip := hreq.len
  have hbound := be16_lt (h.bytes mem mb) 2
  have htake := sameHdr_take (h.bytes mem mb)
  unfold icmpInput
  dsimp only
  unfold ICMP_MINLEN ICMP_ADVLENMIN at *
  rw [iphdr_eq_take (by omega), ipHl_take, htake.len, if_neg (by omega), if_neg (by omega)]
  generalize hk : ipHl (h.bytes mem mb) * 4 = hlen' at *
  have hmData : ((h.trim mb ((h.mb mb).mLen - hlen') ((h.mb mb).mData + hlen')).mb mb).mData =
      (h.mb mb).mData + hlen' := by
    simp [Heap.trim]
  have hmLen : ((h.trim mb ((h.mb mb).mLen - hlen') ((h.mb mb).mData + hlen')).mb mb).mLen =
      (h.mb mb).mLen - hlen' := by
    simp [Heap.trim]
  have hbytes : (h.trim mb ((h.mb mb).mLen - hlen') ((h.mb mb).mData + hlen')).bytes mem mb =
      (h.bytes mem mb).drop hlen' := bytes_trim hlen'
  have hsum : inCksumMb mem (h.trim mb ((h.mb mb).mLen - hlen') ((h.mb mb).mData + hlen')) [mb]
      (be16 (h.bytes mem mb) 2) = 0 := by
    have hvalid := checksum_eq_zero_iff.mp hreq.sum
    rw [hk] at hvalid
    unfold inCksumMb
    rw [List.map_cons, List.map_nil, hbytes]
    refine inCksum_eq_zero _ (by omega) ?_ ?_
    all_goals
      simp only [List.flatMap_cons, List.flatMap_nil, List.append_nil]
      rw [List.take_of_length_le (by rw [List.length_drop]; omega)]
    · exact hvalid.1
    · exact hvalid.2
  have htype : bufBytes mem ((h.trim mb ((h.mb mb).mLen - hlen') ((h.mb mb).mData + hlen')).dbuf mb)
      ((h.trim mb ((h.mb mb).mLen - hlen') ((h.mb mb).mData + hlen')).mb mb).mData 1 = [ICMP_ECHO] := by
    have h1 := bufBytes_drop_take mem (h.dbuf mb) (h.mb mb).mData (h.mb mb).mLen hlen' 1
    rw [Nat.min_eq_left (by omega)] at h1
    have h2 := hreq.type
    rw [hk, List.getD_eq_getElem?_getD, List.getElem?_eq_getElem (by omega)] at h2
    rw [dbuf_trim, hmData, ← h1]
    change ((h.bytes mem mb).drop hlen').take 1 = _
    rw [List.drop_eq_getElem_cons (by omega)]
    exact congrArg (fun x => [x]) h2
  rw [if_neg (by rw [hsum]; simp), if_pos htype, trim_trim (by omega), dbuf_trim, hmData]
  refine ⟨_, rfl, ?_⟩
  rw [bytes_writeBuf hd (by simp; omega)]
  unfold typed
  rw [hk]

/-- **An echo request is answered** exactly when its header has no options and its payload has at least
    28 bytes. -/
theorem icmpInput_answers_iff (tnet : Netifs) (ni : Netif) (id : Nat) (h : Heap) (own : Finset Block)
    (limbo : Set Block) (mem : Bufs) (mb : Block) (hh : Held h own limbo) (hmb : mb ∈ own)
    (hreq : EchoRequest ni (h.bytes mem mb)) (hroom : (h.mbGet .MB_MID1 true).2 ≠ none)
    (hf : ni.outputFunc ≠ none) :
    (∃ c b, Answered h mem mb (icmpInput tnet ni id h mem mb []) c b) ↔
      ipHl (h.bytes mem mb) = 5 ∧ 20 + ICMP_MINLEN + 28 ≤ (h.bytes mem mb).length := by
  obtain ⟨d, hd⟩ := exists_dbuf hh.sharing hmb
  obtain ⟨f, hf⟩ := Option.ne_none_iff_exists'.mp hf
  have hlen := @length_packet h mem mb _ hd
  have h5 := hreq.hl
  rcases Nat.lt_or_ge (h.mb mb).mLen (ipHl (h.bytes mem mb) * 4 + ICMP_ADVLENMIN) with hshort | hlong
  · -- the packet is dropped
    have hnone := @icmpInput_dropped _ _ _ _ tnet _ id hd hreq hshort
    unfold ICMP_ADVLENMIN ICMP_MINLEN at *
    refine iff_of_false ?_ (by omega)
    rintro ⟨c, b, ha⟩
    rw [ha.sent] at hnone
    cases hnone
  obtain ⟨mem', hecho, htyped⟩ := @icmpInput_echo _ _ _ _ tnet _ id hd hreq hlong
  unfold ICMP_ADVLENMIN ICMP_MINLEN at *
  obtain ⟨hl1, hhl1, hsame⟩ := @typed_spec (h.bytes mem mb) h5 (by omega)
  have hmtu := hreq.mtu
  obtain ⟨c, b, hdr, odd, hsends⟩ := @echoReply_sends h own limbo mem' mb tnet ni id f hh hmb hroom
    (by rw [htyped, hhl1]; omega) (by rw [htyped, hhl1]; omega) (by rw [htyped, hsame.src]; exact hreq.src)
    (by rw [htyped, hsame.len, hreq.len]; exact hmtu) hf
  rw [hecho]
  rw [htyped] at hsends
  obtain ⟨hl2, -, hhl2, -⟩ := @reflectPkt_spec (typed (h.bytes mem mb)) (by omega)
  obtain ⟨hl3, -⟩ := @sumIcmp_spec (reflectPkt (typed (h.bytes mem mb))) odd (by omega) (by omega)
  have hout := hsends.bytes
  have hhdr := hsends.length
  have hhl : ipHl (c.heap.bytes c.output.mem b) = 5 := by
    rw [hout, ← ipHl_take, List.take_left' hhdr, hsends.hl]
  constructor
  · -- the length of the header has changed, the place of the ICMP part has not
    rintro ⟨c', b', ha⟩
    obtain rfl : c = c' := Option.some_inj.mp (hsends.sent.symm.trans ha.sent)
    have hb : b = b' := by simpa using hsends.given.symm.trans ha.given
    subst hb
    have hdata := congrArg List.length ha.reply.data
    rw [hhl, hout] at hdata
    simp only [List.length_drop, List.length_append, hhdr, hl3, hl2, hl1] at hdata
    omega
  · rintro ⟨hhl5, -⟩
    obtain ⟨c0, c1, hdrop, hsum⟩ := @sumIcmp_drop (h.bytes mem mb) odd hhl5 (by omega) hreq.len
    have hsame' := sameHdr_take (c.heap.bytes c.output.mem b)
    rw [hout, List.take_left' hhdr, ← hout] at hsame'
    have hrep : (c.heap.bytes c.output.mem b).drop 20 =
        ICMP_ECHOREPLY :: (h.bytes mem mb).getD 21 0 :: c0 :: c1 :: (h.bytes mem mb).drop 24 := by
      rw [hout, List.drop_left' hhdr, hdrop]
    refine ⟨c, b, hsends.sent, hsends.given, ?_, hsends.once⟩
    constructor
    case src => rw [← hsame'.src, hsends.src, hsame.dst]
    case dst => rw [← hsame'.dst, hsends.dst, hsame.src]
    case len =>
      rw [← hsame'.len, hsends.len, hsame.len, hreq.len, hout]
      simp only [List.length_drop, List.length_append, hhdr, hl3, hl2, hl1]
      omega
    case type =>
      have h20 := congrArg (fun l => l.getD 0 0) hrep
      rw [hhl]
      simpa [List.getD_eq_getElem?_getD] using h20
    case code =>
      have h21 := congrArg (fun l => l.getD 1 0) hrep
      rw [hhl, hhl5]
      simpa [List.getD_eq_getElem?_getD] using h21
    case data =>
      have h24 := congrArg (List.drop 4) hrep
      rw [List.drop_drop] at h24
      rw [hhl, hhl5]
      exact h24
    case sum =>
      rw [hhl, hout, List.drop_left' hhdr]
      exact hsum

/-- A descriptor with a ping of `n` bytes from 10.0.0.2 to 10.0.0.1. -/
def pingRun (n : Nat) : List HeapEvent := [.get .MB_MID1 false, .fill ⟨.lobuf, 0⟩ n 0 (BitVec.ofNat 20 n)]

def pinged (n : Nat) : Owners := (pingRun n).foldl Owners.step Owners.start

def pingBufs (n : Nat) : Bufs := fun _ i =>
  [0x45, 0, 0, UInt8.ofNat n, 0, 1, 0, 0, 64, 1, 0, 0, 10, 0, 0, 2, 10, 0, 0, 1, 8, 0, 0xf7, 0xfd, 0, 1,
    0, 1].getD i 0

/-- A ping with 32 bytes of payload, from a buffer of the interface. -/
theorem icmpInput_answers_long : (∃ c b, Answered (pinged 60).heap (pingBufs 60) ⟨.lobuf, 0⟩
      (icmpInput ⟨[ethernet], none⟩ ethernet 7 (pinged 60).heap (pingBufs 60) ⟨.lobuf, 0⟩ []) c b) ↔
    ipHl ((pinged 60).heap.bytes (pingBufs 60) ⟨.lobuf, 0⟩) = 5 ∧
      20 + ICMP_MINLEN + 28 ≤ ((pinged 60).heap.bytes (pingBufs 60) ⟨.lobuf, 0⟩).length := by
  refine icmpInput_answers_iff ⟨[ethernet], none⟩ ethernet 7 (pinged 60).heap (pinged 60).own ∅
    (pingBufs 60) ⟨.lobuf, 0⟩
    (held_run (pingRun 60) (by decide)) (by decide +kernel) ?_ (by decide +kernel) (Option.some_ne_none _)
  constructor <;> decide +kernel

/-- A ping without payload is not answered. -/
theorem short_ping_dropped :
    ¬ ∀ (tnet : Netifs) (ni : Netif) (id : Nat) (h : Heap) (own : Finset Block) (limbo : Set Block)
      (mem : Bufs) (mb : Block), Held h own limbo → mb ∈ own → EchoRequest ni (h.bytes mem mb) →
      (h.mbGet .MB_MID1 true).2 ≠ none → ni.outputFunc ≠ none →
      ∃ c b, Answered h mem mb (icmpInput tnet ni id h mem mb []) c b := by
  intro hall
  have hreq : EchoRequest ethernet ((pinged 28).heap.bytes (pingBufs 28) ⟨.lobuf, 0⟩) := by
    constructor <;> decide +kernel
  obtain ⟨c, b, ha⟩ :=
    hall ⟨[ethernet], none⟩ ethernet 7 (pinged 28).heap (pinged 28).own ∅ (pingBufs 28) ⟨.lobuf, 0⟩
    (held_run (pingRun 28) (by decide)) (by decide +kernel) hreq (by decide +kernel) (Option.some_ne_none _)
  have hnone : (icmpInput ⟨[ethernet], none⟩ ethernet 7 (pinged 28).heap (pingBufs 28) ⟨.lobuf, 0⟩
      []).sent = none := by
    have hdbuf : (pinged 28).heap.dbuf ⟨.lobuf, 0⟩ = some ⟨.m1buf, 0⟩ := by decide +kernel
    exact icmpInput_dropped hdbuf hreq (by decide +kernel)
  rw [ha.sent] at hnone
  cases hnone

end TnNet.Icmp
