import TnNet.Icmp.Echo
import TnNet.Mem.Adj
import TnNet.Mem.OwnBufs
import TnNet.Udp.Output

/-!
# Input of a packet

`ipv4_input` and `ip_addr_isbroadcast` of `tn_ip_input.c`.  The packet is a chain `m :: l`, and `m_data`
of `m` is at the IP header; `loopback` is `IFF_LOOPBACK` of the interface.  `next` says which routine
takes the packet; behind `ip4_reasm` the function goes on with `ipSwitch`, which only looks at `ip_p`.

`ipv4Input_handles` — a packet is passed on exactly when the bytes of its header say that it is valid
and for this host, and then it is its first `ip_len` bytes; every other packet is freed, once.
-/

set_option autoImplicit false

namespace TnNet.Ip

open Bytes InetSum TnNet.Mem TnNet.Mem.Heap
open TnNet.Icmp (ipHl ipSrc IPPROTO_ICMP)
open TnNet.Udp (IPPROTO_UDP)
open TnNet.Pcb (inMulticast)

def IPPROTO_IPV4 : Nat := 4

def IPPROTO_TCP : UInt8 := 6

def MAX_IP_HDR_LEN : Nat := 128 - 40

def IN_LOOPBACKNET : Nat := 127

def DHCP_CLIENT_PORT : Nat := 68

/-- The routine that takes a packet. -/
inductive Next where
  | ip4Reasm
  | icmpInput
  | udpInput
  | tcpInput
  deriving DecidableEq

/-- What a call leaves. -/
structure IpIn where
  heap : Heap
  mem : Bufs
  next : Option Next := none
  freed : List Block := []

/-- `ip_addr_isbroadcast`. -/
def ipAddrIsbroadcast (ni : Netif) (addr : BitVec 32) : Bool :=
  if addr = 0 ∨ addr = BitVec.allOnes 32 then true
  else if ni.broadcast = false then false
  else if addr = ni.ipAddr then false
  else decide (ni.ipAddr &&& ni.netmask = addr &&& ni.netmask ∧ addr &&& ~~~ni.netmask = ~~~ni.netmask)

/-- `ip_v`. -/
def ipV (ip : List UInt8) : Nat := (ip.getD 0 0).toNat / 16

/-- `IN_CLASSA_NSHIFT` of an address. -/
def classANet (addr : BitVec 32) : Nat := addr.toNat / 2 ^ 24

/-- The list of interfaces has one that is up and has the address. -/
def hasAddr (tnet : Netifs) (dst : BitVec 32) : Bool :=
  tnet.netifList.any fun ni => ni.up && (decide (dst = ni.ipAddr) || ipAddrIsbroadcast ni dst)

/-- `uh_dport` behind the IP header. -/
def uhDport (mem : Bufs) (h : Heap) (m : Block) (hlen : Nat) : Nat :=
  be16 (bufBytes mem (h.dbuf m) ((h.mb m).mData + hlen) 4) 2

/-- Free the packet and return. -/
def inDrop (h : Heap) (mem : Bufs) (m : Block) (l : List Block) : IpIn :=
  { heap := h.mFreem (m :: l), mem, freed := m :: l }

/-- The input routine of a protocol. -/
def ipProto (p : UInt8) : Option Next :=
  if p = IPPROTO_ICMP then some .icmpInput
  else if p = IPPROTO_UDP then some .udpInput
  else if p = IPPROTO_TCP then some .tcpInput
  else none

/-- The switch at the end of `ipv4_input`. -/
def ipSwitch (h : Heap) (mem : Bufs) (m : Block) (l : List Block) (p : UInt8) : IpIn :=
  match ipProto p with
  | none => inDrop h mem m l
  | some x => { heap := h, mem, next := some x }

/-- The packet is cut to the length in its header. -/
def cutTail (h : Heap) (m : Block) (l : List Block) (len : Nat) : Heap :=
  let tlen := (h.mb m).mTlen.toNat
  if len < tlen then
    if (h.mb m).mLen = tlen then h.set m { h.mb m with mLen := len, mTlen := BitVec.ofNat 20 len }
    else h.mAdj (m :: l) (len - tlen)
  else h

/-- The part of `ipv4_input` behind the test of the addresses. -/
def ipFragment (h : Heap) (mem : Bufs) (m : Block) (l : List Block) (hlen : Nat) : IpIn :=
  let ip := iphdr mem h m
  let off := be16 ip 6
  -- `~(IP_DF | IP_RF)`
  if off &&& 0x3fff = 0 then ipSwitch h mem m l (ip.getD 9 0)
  else if off &&& IP_MF ≠ 0 ∧ (be16 ip 2 - hlen = 0 ∨ (be16 ip 2 - hlen) % 8 ≠ 0) then inDrop h mem m l
  else { heap := h, mem, next := some .ip4Reasm }

/-- The part of `ipv4_input` behind the trim: the addresses. -/
def ipAddressed (tnet : Netifs) (ni : Netif) (h : Heap) (mem : Bufs) (m : Block) (l : List Block)
    (hlen : Nat) : IpIn :=
  let ip := iphdr mem h m
  let found := hasAddr tnet (ipDst ip)
  let dhcp :=
    !found && decide (ip.getD 9 0 = IPPROTO_UDP) && decide (uhDport mem h m hlen = DHCP_CLIENT_PORT)
  if dhcp = false ∧ (ipAddrIsbroadcast ni (ipSrc ip) ∨ inMulticast (ipSrc ip)) then inDrop h mem m l
  else if found = false ∧ dhcp = false then inDrop h mem m l
  else ipFragment h mem m l hlen

/-- `ipv4_input`. -/
def ipv4Input (tnet : Netifs) (ni : Netif) (loopback : Bool) (h : Heap) (mem : Bufs) (m : Block)
    (l : List Block) :
    IpIn :=
  if (h.mb m).mLen < 20 then inDrop h mem m l
  else
    let ip := iphdr mem h m
    let hlen := ipHl ip * 4
    if ipV ip ≠ IPPROTO_IPV4 then inDrop h mem m l
    else if hlen < 20 ∨ MAX_IP_HDR_LEN < hlen then inDrop h mem m l
    else if (classANet (ipDst ip) = IN_LOOPBACKNET ∨ classANet (ipSrc ip) = IN_LOOPBACKNET) ∧
      loopback = false then
      inDrop h mem m l
    else
      let sum := inCksumMb mem h (m :: l) hlen
      let mem := setIphdr mem h m (setLe16 ip 10 sum)
      if sum ≠ 0 then inDrop h mem m l
      else if be16 ip 2 < hlen then inDrop h mem m l
      else if (h.mb m).mTlen.toNat < be16 ip 2 then inDrop h mem m l
      else ipAddressed tnet ni (cutTail h m l (be16 ip 2)) mem m l hlen

variable {h h' : Heap} {own : Finset Block} {limbo : Set Block} {mem : Bufs} {m : Block} {l : List Block}
  {tnet : Netifs} {ni : Netif} {loopback : Bool} {pkt ip : List UInt8} {len hlen : Nat}
  {ok ok' : Next → Prop} {r : IpIn}

/-! ## The specification -/

/-- The header of a packet is valid. -/
structure ValidHdr (loopback : Bool) (pkt : List UInt8) : Prop where
  version : ipV pkt = IPPROTO_IPV4
  hlen : 20 ≤ ipHl pkt * 4 ∧ ipHl pkt * 4 ≤ MAX_IP_HDR_LEN
  loop : loopback = true ∨ classANet (ipDst pkt) ≠ IN_LOOPBACKNET ∧
    classANet (ipSrc pkt) ≠ IN_LOOPBACKNET
  sum : checksum (pkt.take (ipHl pkt * 4)) = 0
  len : ipHl pkt * 4 ≤ be16 pkt 2 ∧ be16 pkt 2 ≤ pkt.length

/-- A packet is for this host: it has an address of it and the source is one host, or it is for the DHCP
    client. -/
def ForHost (tnet : Netifs) (ni : Netif) (port : Nat) (pkt : List UInt8) : Prop :=
  if hasAddr tnet (ipDst pkt) = true then
    ipAddrIsbroadcast ni (ipSrc pkt) = false ∧ inMulticast (ipSrc pkt) = false
  else pkt.getD 9 0 = IPPROTO_UDP ∧ port = DHCP_CLIENT_PORT

/-- Where a packet goes: a fragment to `ip4_reasm`, a whole one to its protocol. -/
def Goes (pkt : List UInt8) (x : Next) : Prop :=
  if be16 pkt 6 &&& 0x3fff = 0 then ipProto (pkt.getD 9 0) = some x
  else x = .ip4Reasm ∧
    (be16 pkt 6 &&& IP_MF ≠ 0 → ipHl pkt * 4 < be16 pkt 2 ∧ (be16 pkt 2 - ipHl pkt * 4) % 8 = 0)

/-- A packet as the driver passes it up. -/
structure RxPacket (h : Heap) (own : Finset Block) (limbo : Set Block) (m : Block) (l : List Block) :
    Prop extends
    OwnBufs h own limbo (m :: l) where
  pkthdr : (h.mb m).pkthdr = true
  tlen : (h.mb m).mTlen.toNat = h.chainLen (m :: l)

/-- The fields of the header that the tests look at. -/
structure SameFields (pkt ip : List UInt8) : Prop extends Icmp.SameHdr pkt ip where
  version : ipV ip = ipV pkt
  hl : ipHl ip = ipHl pkt
  off : be16 ip 6 = be16 pkt 6
  proto : ip.getD 9 0 = pkt.getD 9 0

/-- The packet is passed on under a condition, and is otherwise freed. -/
structure Sorted (h : Heap) (mem : Bufs) (m : Block) (l : List Block) (ok : Next → Prop)
    (r : IpIn) : Prop where
  next : ∀ x, r.next = some x ↔ ok x
  drop : r.next = none → r.freed = m :: l ∧ ∃ h', SameRefs h h' ∧ r.heap = h'.mFreem (m :: l)
  pass : r.next ≠ none → r.freed = [] ∧ r.heap = h ∧ r.mem = mem

/-! ## The tests -/

theorem sameFields_take (pkt : List UInt8) : SameFields pkt (pkt.take 20) where
  toSameHdr := Icmp.sameHdr_take pkt
  version := by
    unfold ipV
    rw [getD_take (by decide)]
  hl := Icmp.ipHl_take pkt
  off := be16_take (by decide)
  proto := getD_take (by decide)

/-- The checksum is not one of the fields. -/
theorem SameFields.setSum (hf : SameFields pkt ip) (x : Nat) : SameFields pkt (setLe16 ip 10 x) where
  len := by rw [be16_setLe16_of_ne (by decide), hf.len]
  src := by
    rw [← hf.src]
    unfold ipSrc
    rw [be16_setLe16_of_ne (by decide), be16_setLe16_of_ne (by decide)]
  dst := by
    rw [← hf.dst]
    unfold ipDst
    rw [be16_setLe16_of_ne (by decide), be16_setLe16_of_ne (by decide)]
  version := by
    rw [← hf.version]
    unfold ipV
    rw [getD_setLe16 (by decide)]
  hl := by
    rw [← hf.hl]
    unfold ipHl
    rw [getD_setLe16 (by decide)]
  off := by rw [be16_setLe16_of_ne (by decide), hf.off]
  proto := by rw [getD_setLe16 (by decide), hf.proto]

theorem sorted_drop (hr : SameRefs h h') (mem' : Bufs) (hno : ∀ x, ¬ ok x) :
    Sorted h mem m l ok (inDrop h' mem' m l) where
  next x := iff_of_false (by simp [inDrop]) (hno x)
  drop _ := ⟨rfl, h', hr, rfl⟩
  pass hp := absurd rfl hp

theorem sorted_pass {x : Next} (hok : ∀ y, ok y ↔ x = y) :
    Sorted h mem m l ok { heap := h, mem, next := some x } where
  next y := by rw [hok, Option.some_inj]
  drop hc := by cases hc
  pass _ := ⟨rfl, rfl, rfl⟩

/-- A part of the tests from the rest. -/
theorem Sorted.imp (hs : Sorted h mem m l ok r) (hok : ∀ x, ok x ↔ ok' x) : Sorted h mem m l ok' r :=
  ⟨fun x => (hs.next x).trans (hok x), hs.drop, hs.pass⟩

theorem sorted_ipSwitch (p : UInt8) :
    Sorted h mem m l (fun x => ipProto p = some x) (ipSwitch h mem m l p) := by
  unfold ipSwitch
  cases hp : ipProto p with
  | none => exact sorted_drop (.refl h) mem fun x hx => by cases hx
  | some y => exact sorted_pass fun x => Option.some_inj

theorem sorted_ipFragment (hf : SameFields pkt (iphdr mem h m)) :
    Sorted h mem m l (Goes pkt) (ipFragment h mem m l (ipHl pkt * 4)) := by
  unfold ipFragment Goes
  dsimp only
  rw [hf.off, hf.proto, hf.len]
  by_cases h1 : be16 pkt 6 &&& 0x3fff = 0
  · simp only [if_pos h1]
    exact sorted_ipSwitch _
  · simp only [if_neg h1]
    split
    · rename_i hc
      refine sorted_drop (.refl h) mem fun x hx => ?_
      obtain ⟨h2, h3⟩ := hx.2 hc.1
      omega
    · rename_i hc
      refine sorted_pass fun x => ⟨fun hx => hx.1.symm, fun hx => ⟨hx.symm, fun hmf => ?_⟩⟩
      simp only [not_and, not_or, not_not] at hc
      have := hc hmf
      omega

theorem sorted_ipAddressed (hf : SameFields pkt (iphdr mem h m)) :
    Sorted h mem m l (fun x => ForHost tnet ni (uhDport mem h m (ipHl pkt * 4)) pkt ∧ Goes pkt x)
      (ipAddressed tnet ni h mem m l (ipHl pkt * 4)) := by
  unfold ipAddressed ForHost
  dsimp only
  rw [hf.dst, hf.src, hf.proto]
  generalize uhDport mem h m (ipHl pkt * 4) = port
  by_cases hfound : hasAddr tnet (ipDst pkt) = true
  · simp only [hfound, if_true, Bool.not_true, Bool.false_and, true_and, Bool.true_eq_false,
      false_and, if_false]
    split
    · rename_i hc
      refine sorted_drop (.refl h) mem fun x hx => ?_
      rcases hc with hc | hc
      · rw [hx.1.1] at hc
        cases hc
      · rw [hx.1.2] at hc
        cases hc
    · rename_i hc
      rw [not_or, Bool.not_eq_true, Bool.not_eq_true] at hc
      exact (sorted_ipFragment hf).imp fun x => (and_iff_right hc).symm
  · rw [Bool.not_eq_true] at hfound
    by_cases hdhcp : pkt.getD 9 0 = IPPROTO_UDP ∧ port = DHCP_CLIENT_PORT
    · simp only [hfound, hdhcp, decide_true, Bool.not_false, Bool.and_true, Bool.true_eq_false,
        false_and, if_false, and_false, Bool.false_eq_true]
      exact (sorted_ipFragment hf).imp fun x => (and_iff_right ⟨trivial, trivial⟩).symm
    · have hd : (!false && decide (pkt.getD 9 0 = IPPROTO_UDP) && decide (port = DHCP_CLIENT_PORT)) =
          false := by
        simpa using hdhcp
      rw [hfound, hd]
      simp only [Bool.false_eq_true, if_false, true_and, and_self, if_true]
      have hno : ∀ x, ¬ ((pkt.getD 9 0 = IPPROTO_UDP ∧ port = DHCP_CLIENT_PORT) ∧ Goes pkt x) :=
        fun x hx => hdhcp hx.1
      split
      · exact sorted_drop (.refl h) mem hno
      · exact sorted_drop (.refl h) mem hno

/-! ## The packet -/

theorem iphdr_chain (h20 : 20 ≤ (h.mb m).mLen) (hd : h.dbuf m ≠ none) :
    iphdr mem h m = (h.chainBytes mem (m :: l)).take 20 := by
  obtain ⟨d, hd⟩ := Option.ne_none_iff_exists'.mp hd
  rw [iphdr_eq_take h20, Heap.chainBytes_cons,
    List.take_append_of_le_length (by rw [length_packet hd]; exact h20)]

theorem inCksumMb_eq_zero_iff (hle : hlen ≤ 65535) :
    inCksumMb mem h (m :: l) hlen = 0 ↔ checksum ((h.chainBytes mem (m :: l)).take hlen) = 0 := by
  have hbytes : ((m :: l).map fun b => (decide ((h.mb b).mData % 2 = 1), h.bytes mem b)).flatMap Prod.snd =
      h.chainBytes mem (m :: l) := by
    rw [List.flatMap_map]
    rfl
  obtain ⟨x, hx, heq, hmod, hz⟩ := inCksum_eq
    ((m :: l).map fun b => (decide ((h.mb b).mData % 2 = 1), h.bytes mem b))
    (show hlen ≤ 100000 from hle.trans (by decide))
  rw [hbytes] at hmod hz
  have hiff := reduce_eq_iff hx
  have hred := reduce_le hx
  have h0 : inCksumMb mem h (m :: l) hlen = 65535 - reduce x := heq
  rw [h0, checksum_eq_zero_iff]
  unfold Nat.ModEq at *
  omega

/-- Only lengths change; a descriptor has a buffer of its own as before. -/
structure SameHead (h h' : Heap) : Prop extends SameData h h' where
  dbhdr : ∀ x, (h'.mb x).dbhdr = (h.mb x).dbhdr

theorem SameHead.refl (h : Heap) : SameHead h h := ⟨⟨.refl h, fun _ => rfl⟩, fun _ => rfl⟩

theorem SameHead.trans {h1 h2 h3 : Heap} (h12 : SameHead h1 h2) (h23 : SameHead h2 h3) : SameHead h1 h3 :=
  ⟨h12.toSameData.trans h23.toSameData, fun x => (h23.dbhdr x).trans (h12.dbhdr x)⟩

theorem sameHead_trim (h : Heap) (b : Block) (n : Nat) : SameHead h (h.trim b n (h.mb b).mData) := by
  refine ⟨sameData_trim h b n, fun x => ?_⟩
  rcases eq_or_ne x b with rfl | hx
  · simp [Heap.trim]
  · rw [Heap.trim, set_mb_ne hx]

theorem sameHead_adjTlen (h : Heap) (b : Block) (f : BitVec 20 → BitVec 20) :
    SameHead h (h.adjTlen b f) := by
  refine ⟨(sameData_adjTlen h b f).1, fun x => ?_⟩
  unfold Heap.adjTlen
  split
  · rcases eq_or_ne x b with rfl | hx
    · simp
    · rw [set_mb_ne hx]
  · rfl

theorem sameHead_zero (l : List Block) (h : Heap) :
    SameHead h (l.foldl (fun h b => h.trim b 0 (h.mb b).mData) h) := by
  induction l generalizing h with
  | nil => exact .refl h
  | cons b l ih => exact (sameHead_trim h b 0).trans (ih _)

theorem sameHead_adjKeep (chain : List Block) (count : Nat) (h : Heap) :
    SameHead h (adjKeep chain count h) := by
  induction chain generalizing count h with
  | nil => exact .refl h
  | cons b l ih =>
    unfold adjKeep
    split
    · exact (sameHead_trim h b count).trans (sameHead_zero l _)
    · exact ih _ _

/-- `m_adj` from the tail leaves `m_data` where it is. -/
theorem sameHead_mAdj {n : Int} (hn : n < 0) (chain : List Block) : SameHead h (h.mAdj chain n) := by
  unfold Heap.mAdj
  cases chain with
  | nil => exact .refl h
  | cons mp l =>
    dsimp only
    rw [if_neg (by omega)]
    split
    · exact (sameHead_trim ..).trans (sameHead_adjTlen ..)
    · exact (sameHead_adjTlen ..).trans (sameHead_adjKeep ..)

/-- What the trim leaves. -/
structure CutTail (h h' : Heap) (m : Block) (l : List Block) (len : Nat) : Prop where
  data : SameHead h h'
  bytes : ∀ mem, h'.chainBytes mem (m :: l) = (h.chainBytes mem (m :: l)).take len
  tlen : (h'.mb m).mTlen.toNat = len

theorem cutTail_spec (hp : RxPacket h own limbo m l) (hle : len ≤ (h.mb m).mTlen.toNat) :
    CutTail h (cutTail h m l len) m l len := by
  have hown : ∀ b ∈ m :: l, b ∈ own := fun b hb => (hp.own b hb).1
  have hlen := fun mem => length_chainBytes mem hp.held.sharing hown
  have htlen := hp.tlen
  unfold cutTail
  dsimp only
  split
  · rename_i hlt
    have hnat : (BitVec.ofNat 20 len).toNat = len := tlen_ofNat hle
    split
    · -- the packet lies in the first descriptor
      rename_i hone
      have href := sameRefs_set h m len (h.mb m).mData (BitVec.ofNat 20 len)
      have hmb : ∀ b ∈ l, (h.set m { h.mb m with mLen := len, mTlen := BitVec.ofNat 20 len }).mb b =
          h.mb b := by
        intro b hb
        refine set_mb_ne ?_ _
        rintro rfl
        exact (List.nodup_cons.mp hp.nodup).1 hb
      refine ⟨⟨⟨href, fun x => ?_⟩, fun x => ?_⟩, fun mem => ?_, by simp [hnat]⟩
      · rcases eq_or_ne x m with rfl | hx
        · simp
        · rw [set_mb_ne hx]
      · rcases eq_or_ne x m with rfl | hx
        · simp
        · rw [set_mb_ne hx]
      · have hrest : h.chainBytes mem l = [] := by
          have h1 := hlen mem
          obtain ⟨d, hd⟩ := exists_dbuf hp.held.sharing (hown m List.mem_cons_self)
          rw [Heap.chainBytes_cons, List.length_append, length_packet hd, ← htlen] at h1
          exact List.eq_nil_of_length_eq_zero (by omega)
        have hm := bytes_keeps mem (fun y _ => href.keeps y) (hown m List.mem_cons_self) (by simp)
          (by simp only [set_mb_self]; omega)
        rw [Heap.chainBytes_cons, chainBytes_of_frame mem href hmb, hrest, Heap.chainBytes_cons, hrest,
          List.append_nil, List.append_nil, hm, set_mb_self]
    · have hcut := cut_mAdj hp.held hp.nodup hown hp.pkthdr hp.tlen ((len : Int) - (h.mb m).mTlen.toNat)
      have hneg : (len : Int) - (h.mb m).mTlen.toNat < 0 := by omega
      refine ⟨sameHead_mAdj hneg _, fun mem => ?_, ?_⟩
      · rw [hcut.bytes, cut_take hneg, hlen, ← htlen]
        congr 1
        omega
      · have h1 := length_chainBytes (fun _ _ => 0)
          (hp.held.same (sameHead_mAdj hneg (m :: l)).refs).sharing hown
        rw [hcut.tlen, ← h1, hcut.bytes, cut_take hneg, List.length_take, hlen, ← htlen]
        omega
  · refine ⟨.refl h, fun mem => ?_, by omega⟩
    rw [List.take_of_length_le]
    rw [hlen]
    omega

/-- The packet when its header is written. -/
theorem chainBytes_setIphdr (ho : OwnBufs h own limbo (m :: l)) (h20 : 20 ≤ (h.mb m).mLen)
    (hl : ip.length = 20) :
    h.chainBytes (setIphdr mem h m ip) (m :: l) = ip ++ (h.chainBytes mem (m :: l)).drop 20 := by
  obtain ⟨d, hd⟩ := ho.exists_dbuf List.mem_cons_self
  have hw := @OwnBufs.chainBytes_writeBuf h own limbo mem l m ip 0 ho (by omega)
  rw [Nat.add_zero, splice_zero, hl] at hw
  unfold setIphdr
  rw [hw, Heap.chainBytes_cons, List.append_assoc,
    List.drop_append_of_le_length (by rw [length_packet hd]; exact h20)]

/-- Nothing behind the header is written. -/
theorem RxPacket.uhDport_eq (hp : RxPacket h own limbo m l) (h20 : 20 ≤ hlen) (hl : ip.length = 20)
    (hs : SameData h h') :
    uhDport (setIphdr mem h m ip) h' m hlen = uhDport mem h m hlen := by
  obtain ⟨d, hd⟩ := hp.exists_dbuf List.mem_cons_self
  have honly := only_writeBuf mem d (h.mb m).mData hl
  unfold uhDport setIphdr
  rw [dbuf_refs hs.refs, hs.mData, hd, honly.bufBytes (.inr (.inr (by omega)))]

/-- A write in front of a cut. -/
theorem take_splice_of_le {d a : List UInt8} {i k : Nat} (h : i + a.length ≤ k) :
    (splice d i a).take k = splice (d.take k) i a := by
  have hi : i ≤ k := by omega
  unfold splice
  rw [List.take_append, List.take_take, Nat.min_eq_left hi, List.drop_take,
    List.take_of_length_le (by rw [List.length_append, List.length_take]; omega)]
  rcases Nat.lt_or_ge d.length i with hd | hd
  · rw [List.drop_eq_nil_of_le (by omega), List.take_nil, List.take_nil]
  · rw [List.length_append, List.length_take, Nat.min_eq_left hd]

/-- Clearing the checksum. -/
theorem setLe16_take (h20 : 20 ≤ pkt.length) :
    setLe16 (pkt.take 20) 10 0 ++ pkt.drop 20 = splice pkt 10 [0, 0] := by
  have hset : setLe16 (pkt.take 20) 10 0 = splice (pkt.take 20) 10 [0, 0] := by
    match hk : pkt.take 20, (by rw [List.length_take]; omega : (pkt.take 20).length = 20) with
    | [_, _, _, _, _, _, _, _, _, _, _, _, _, _, _, _, _, _, _, _], _ => rfl
  rw [hset]
  unfold splice
  rw [List.take_take, List.append_assoc, List.append_assoc, ← List.append_assoc _ _ (pkt.drop 20)]
  have h12 : (pkt.take 20).drop (10 + 2) ++ pkt.drop 20 = pkt.drop (10 + 2) := by
    rw [List.drop_take, show 20 - (10 + 2) = 8 by decide, show pkt.drop 20 = (pkt.drop (10 + 2)).drop 8 by
      rw [List.drop_drop], List.take_append_drop]
  simpa using h12

/-- The tests of the header. -/
theorem ipv4Input_cases (hp : RxPacket h own limbo m l) (hpkt : h.chainBytes mem (m :: l) = pkt) :
    (¬ (20 ≤ (h.mb m).mLen ∧ ValidHdr loopback pkt) ∧
      ∃ mem', ipv4Input tnet ni loopback h mem m l = inDrop h mem' m l) ∨
    (20 ≤ (h.mb m).mLen ∧ ValidHdr loopback pkt ∧ ipv4Input tnet ni loopback h mem m l =
      ipAddressed tnet ni (cutTail h m l (be16 pkt 2)) (setIphdr mem h m (setLe16 (pkt.take 20) 10 0)) m l
        (ipHl pkt * 4)) := by
  have hown : ∀ b ∈ m :: l, b ∈ own := fun b hb => (hp.own b hb).1
  obtain ⟨d, hd⟩ := exists_dbuf hp.held.sharing (hown m List.mem_cons_self)
  have hlen : pkt.length = (h.mb m).mTlen.toNat := by
    rw [← hpkt, length_chainBytes mem hp.held.sharing hown, hp.tlen]
  unfold ipv4Input
  by_cases h20 : (h.mb m).mLen < 20
  · rw [if_pos h20]
    exact .inl ⟨fun hc => by omega, mem, rfl⟩
  rw [if_neg h20]
  have hip := @iphdr_chain h mem m l (by omega) (by rw [hd]; exact Option.some_ne_none d)
  have hf := sameFields_take pkt
  dsimp only
  rw [hip, hpkt, hf.version, hf.hl, hf.dst, hf.src, hf.len]
  by_cases hv : ipV pkt ≠ IPPROTO_IPV4
  · rw [if_pos hv]
    exact .inl ⟨fun hc => hv hc.2.version, mem, rfl⟩
  rw [if_neg hv]
  by_cases hl : ipHl pkt * 4 < 20 ∨ MAX_IP_HDR_LEN < ipHl pkt * 4
  · rw [if_pos hl]
    refine .inl ⟨fun hc => ?_, mem, rfl⟩
    have := hc.2.hlen
    omega
  rw [if_neg hl]
  by_cases hlo : (classANet (ipDst pkt) = IN_LOOPBACKNET ∨ classANet (ipSrc pkt) = IN_LOOPBACKNET) ∧
    loopback = false
  · rw [if_pos hlo]
    refine .inl ⟨fun hc => ?_, mem, rfl⟩
    rcases hc.2.loop with hc | hc
    · rw [hlo.2] at hc
      cases hc
    · exact hlo.1.elim hc.1 hc.2
  rw [if_neg hlo]
  unfold MAX_IP_HDR_LEN at hl
  have hsum := @inCksumMb_eq_zero_iff h mem m l (ipHl pkt * 4) (by omega)
  rw [hpkt] at hsum
  by_cases hs : inCksumMb mem h (m :: l) (ipHl pkt * 4) = 0
  swap
  · rw [if_pos hs]
    exact .inl ⟨fun hc => hs (hsum.mpr hc.2.sum), _, rfl⟩
  rw [if_neg (not_not.mpr hs), hs]
  by_cases h1 : be16 pkt 2 < ipHl pkt * 4
  · rw [if_pos h1]
    refine .inl ⟨fun hc => ?_, _, rfl⟩
    have := hc.2.len
    omega
  rw [if_neg h1]
  by_cases h2 : (h.mb m).mTlen.toNat < be16 pkt 2
  · rw [if_pos h2]
    refine .inl ⟨fun hc => ?_, _, rfl⟩
    have := hc.2.len
    omega
  rw [if_neg h2]
  refine .inr ⟨by omega, ⟨not_not.mp hv, ?_, ?_, hsum.mp hs, by omega⟩, rfl⟩
  · unfold MAX_IP_HDR_LEN
    omega
  · rw [not_and, Bool.not_eq_false] at hlo
    by_cases hc : loopback = true
    · exact .inl hc
    · refine .inr ?_
      by_contra hn
      rw [not_and_or, not_not, not_not] at hn
      exact hc (hlo hn)

/-- The packet behind the tests of its header: what is left of it is `ip_len` bytes, without a checksum. -/
structure Trimmed (h : Heap) (m : Block) (l : List Block) (pkt : List UInt8) (h' : Heap)
    (mem' : Bufs) : Prop where
  data : SameHead h h'
  bytes : h'.chainBytes mem' (m :: l) = splice (pkt.take (be16 pkt 2)) 10 [0, 0]
  tlen : (h'.mb m).mTlen.toNat = be16 pkt 2

/-- A packet with a valid header. -/
theorem ipv4Input_valid (hp : RxPacket h own limbo m l) (hpkt : h.chainBytes mem (m :: l) = pkt)
    (h20 : 20 ≤ (h.mb m).mLen) (hv : ValidHdr loopback pkt) : ∃ h' mem', Trimmed h m l pkt h' mem' ∧
      Sorted h' mem' m l (fun x => ForHost tnet ni (uhDport mem h m (ipHl pkt * 4)) pkt ∧ Goes pkt x)
        (ipv4Input tnet ni loopback h mem m l) := by
  rcases @ipv4Input_cases h own limbo mem m l tnet ni loopback pkt hp hpkt with ⟨hno, -⟩ | ⟨-, -, heq⟩
  · exact absurd ⟨h20, hv⟩ hno
  have hown : ∀ b ∈ m :: l, b ∈ own := fun b hb => (hp.own b hb).1
  have hlen : pkt.length = (h.mb m).mTlen.toNat := by
    rw [← hpkt, length_chainBytes mem hp.held.sharing hown, hp.tlen]
  have hcut : CutTail h (cutTail h m l (be16 pkt 2)) m l (be16 pkt 2) :=
    cutTail_spec hp (by rw [← hlen]; exact hv.len.2)
  have hl : (setLe16 (pkt.take 20) 10 0).length = 20 := by
    have := hv.hlen.1
    have := hv.len
    rw [length_setLe16, List.length_take]
    omega
  obtain ⟨d, hd⟩ := exists_dbuf hp.held.sharing (hown m List.mem_cons_self)
  have hip : iphdr (setIphdr mem h m (setLe16 (pkt.take 20) 10 0)) (cutTail h m l (be16 pkt 2)) m =
      setLe16 (pkt.take 20) 10 0 := by
    unfold iphdr
    rw [dbuf_refs hcut.data.refs, hcut.data.mData, hd]
    exact (iphdr_setIphdr hd rfl hl).1
  have hs :=
    @sorted_ipAddressed (cutTail h m l (be16 pkt 2))
      (setIphdr mem h m (setLe16 (pkt.take 20) 10 0)) m l tnet ni
    pkt (by rw [hip]; exact (sameFields_take pkt).setSum 0)
  rw [hp.uhDport_eq hv.hlen.1 hl hcut.data.toSameData] at hs
  refine ⟨_, _, ⟨hcut.data, ?_, hcut.tlen⟩, heq ▸ hs⟩
  have h1 := hv.hlen.1
  have h2 := hv.len
  rw [hcut.bytes, chainBytes_setIphdr hp.toOwnBufs h20 hl, hpkt, setLe16_take (by omega),
    take_splice_of_le (by simp only [List.length_cons, List.length_nil]; omega)]

/-- What `ipv4_input` does with a packet of the bytes `pkt`. -/
structure Handled (tnet : Netifs) (ni : Netif) (loopback : Bool) (h : Heap) (own : Finset Block)
    (limbo : Set Block) (mem : Bufs) (m : Block) (l : List Block) (pkt : List UInt8)
    (r : IpIn) : Prop where
  next : ∀ x, r.next = some x ↔ 20 ≤ (h.mb m).mLen ∧ ValidHdr loopback pkt ∧
    ForHost tnet ni (uhDport mem h m (ipHl pkt * 4)) pkt ∧ Goes pkt x
  drop : r.next = none → r.freed = m :: l ∧ Heap.Held r.heap (own \ (m :: l).toFinset) limbo
  pass : r.next ≠ none → r.freed = [] ∧ Heap.Held r.heap own limbo ∧
    r.heap.chainBytes r.mem (m :: l) = splice (pkt.take (be16 pkt 2)) 10 [0, 0] ∧
    (r.heap.mb m).mTlen.toNat = be16 pkt 2

/-- **What `ipv4_input` passes on.**  A packet goes on exactly when its header is valid and it is for
    this host; it is then the first `ip_len` bytes of what was received, with a checksum of 0.  Every
    other packet is freed. -/
theorem ipv4Input_handles (tnet : Netifs) (ni : Netif) (loopback : Bool) (h : Heap) (own : Finset Block)
    (limbo : Set Block) (mem : Bufs) (m : Block) (l : List Block) (hp : RxPacket h own limbo m l) :
    Handled tnet ni loopback h own limbo mem m l (h.chainBytes mem (m :: l))
    (ipv4Input tnet ni loopback h mem m l) := by
  have hown : ∀ b ∈ m :: l, b ∈ own := fun b hb => (hp.own b hb).1
  have hfree : ∀ h', SameRefs h h' → Heap.Held (h'.mFreem (m :: l)) (own \ (m :: l).toFinset) limbo :=
    fun h' hr => (hp.held.same hr).mFreem hp.nodup hown
  generalize hpkt : h.chainBytes mem (m :: l) = pkt
  rcases @ipv4Input_cases h own limbo mem m l tnet ni loopback pkt hp hpkt with
    ⟨hno, mem', heq⟩ | ⟨h20, hv, -⟩
  · rw [heq]
    refine ⟨fun x => iff_of_false (by simp [inDrop]) fun hc => hno ⟨hc.1, hc.2.1⟩,
      fun _ => ⟨rfl, hfree h (.refl h)⟩, ?_⟩
    exact fun hc => absurd rfl hc
  · obtain ⟨h1, mem1, htrim, hs⟩ :=
      @ipv4Input_valid h own limbo mem m l tnet ni loopback pkt hp hpkt h20 hv
    constructor
    case next => exact fun x => (hs.next x).trans (by simp only [h20, hv, true_and])
    case drop =>
      intro hn
      obtain ⟨hf, h', hr, hh⟩ := hs.drop hn
      rw [hh]
      exact ⟨hf, hfree h' (htrim.data.refs.trans hr)⟩
    case pass =>
      intro hn
      obtain ⟨hf, hh, hm⟩ := hs.pass hn
      rw [hh, hm]
      exact ⟨hf, hp.held.same htrim.data.refs, htrim.bytes, htrim.tlen⟩

/-! ## The task of the interface -/

def ETHERTYPE_IP : Nat := 0x0800

def ETHERTYPE_ARP : Nat := 0x0806

/-- `sizeof(struct ether_header)`, and with the CRC. -/
def etherHdrSize : Nat := 14

def etherFraming : Nat := 18

/-- What `net_iface1_rx_task_func` does with an mbuf of its queue. -/
inductive RxTask where
  | ipv4Input (bcast : Bool) (r : IpIn)
  | arpInput
  | freed (h : Heap)

/-- The Ethernet header and the CRC are removed. -/
def stripEth (h : Heap) (mb : Block) : Heap :=
  let len := (h.mb mb).mLen - etherFraming
  h.set mb { h.mb mb with mLen := len, mData := (h.mb mb).mData + etherHdrSize,
                          mTlen := BitVec.ofNat 20 len }

/-- One turn of `net_iface1_rx_task_func` with a frame of 18 bytes or more, which is its header and its
    CRC; `bcast` is `M_BCAST | M_MCAST`. -/
def netIface1RxTaskFunc (tnet : Netifs) (ni : Netif) (loopback : Bool) (h : Heap) (mem : Bufs)
    (mb : Block) : RxTask :=
  if ni.up = false then .freed (h.mFreem [mb])
  else
    let eh := bufBytes mem (h.dbuf mb) (h.mb mb).mData etherHdrSize
    if be16 eh 12 = ETHERTYPE_IP then
      .ipv4Input (decide (eh.take 6 = List.replicate 6 0xff) || decide (eh.getD 0 0 &&& 1 ≠ 0))
        (ipv4Input tnet ni loopback (stripEth h mb) mem mb [])
    else if be16 eh 12 = ETHERTYPE_ARP then .arpInput
    else .freed (h.mFreem [mb])

/-- The packet in a frame. -/
theorem stripEth_spec (hp : RxPacket h own limbo m []) (hlen : etherFraming ≤ (h.mb m).mLen) :
    RxPacket (stripEth h m) own limbo m [] ∧
      ∀ mem, (stripEth h m).chainBytes mem [m] =
        ((h.bytes mem m).drop etherHdrSize).take ((h.mb m).mLen - etherFraming) := by
  have href : SameRefs h (stripEth h m) := sameRefs_set ..
  have hmb : (stripEth h m).mb m = { h.mb m with
      mLen := (h.mb m).mLen - etherFraming, mData := (h.mb m).mData + etherHdrSize
      mTlen := BitVec.ofNat 20 ((h.mb m).mLen - etherFraming) } := set_mb_self ..
  have htlen : (h.mb m).mTlen.toNat = (h.mb m).mLen := by simpa [Heap.chainLen] using hp.tlen
  refine ⟨⟨⟨hp.held.same href, ?_, hp.nodup⟩, ?_, ?_⟩, fun mem => ?_⟩
  · intro b hb
    obtain rfl := List.mem_singleton.mp hb
    obtain ⟨h1, h2⟩ := hp.own b hb
    rw [hmb]
    exact ⟨h1, h2⟩
  · rw [hmb]
    exact hp.pkthdr
  · have hlt := (h.mb m).mTlen.isLt
    simp only [Heap.chainLen, List.map_cons, List.map_nil, List.sum_cons, List.sum_nil, hmb,
      BitVec.toNat_ofNat]
    rw [Nat.mod_eq_of_lt (by omega), Nat.add_zero]
  · have h1 :=
      bufBytes_drop_take mem (h.dbuf m) (h.mb m).mData (h.mb m).mLen etherHdrSize
        ((h.mb m).mLen - etherFraming)
    unfold etherFraming etherHdrSize at *
    rw [Nat.min_eq_left (by omega)] at h1
    rw [Heap.chainBytes_cons]
    unfold Heap.bytes
    rw [dbuf_refs href, hmb, h1]
    simp [Heap.chainBytes]

/-- A descriptor with 46 bytes. -/
def frameRun : List HeapEvent := [.get .MB_MID1 false, .fill ⟨.lobuf, 0⟩ 46 14 46]

def frameOwners : Owners := frameRun.foldl Owners.step Owners.start

/-- The descriptor with `M_PKTHDR`. -/
def frameHeap : Heap :=
  frameOwners.heap.set ⟨.lobuf, 0⟩
    { frameOwners.heap.mb ⟨.lobuf, 0⟩ with pkthdr := true, mLen := 46, mTlen := BitVec.ofNat 20 46 }

/-- A datagram of 30 bytes from 10.0.0.1 to 10.0.0.2, with the padding of its frame. -/
def frameBufs : Bufs := fun _ i =>
  [0x45, 0, 0, 30, 0, 1, 0, 0, 255, 17, 0xa7, 0xcb, 10, 0, 0, 1, 10, 0, 0, 2, 1, 4, 0, 9, 0, 10, 0, 0, 0x68,
    0x69].getD (i - 14) 0

def eth2 : Netif := ⟨true, true, 1500, 0x0a000002, 0xffffff00, none⟩

theorem frame_rxPacket : RxPacket frameHeap frameOwners.own ∅ ⟨.lobuf, 0⟩ [] where
  held := (held_run frameRun (by decide)).same (sameRefs_pkthdr ..)
  own := by decide +kernel
  nodup := by decide
  pkthdr := rfl
  tlen := by decide +kernel

/-- The padding is cut off. -/
theorem ipv4Input_handles_frame :
    Handled ⟨[eth2], none⟩ eth2 false frameHeap frameOwners.own ∅ frameBufs ⟨.lobuf, 0⟩ []
      (frameHeap.chainBytes frameBufs [⟨.lobuf, 0⟩])
      (ipv4Input ⟨[eth2], none⟩ eth2 false frameHeap frameBufs ⟨.lobuf, 0⟩ []) ∧
    (ipv4Input ⟨[eth2], none⟩ eth2 false frameHeap frameBufs ⟨.lobuf, 0⟩ []).next = some .udpInput ∧
    ((ipv4Input ⟨[eth2], none⟩ eth2 false frameHeap frameBufs ⟨.lobuf, 0⟩ []).heap.mb
      ⟨.lobuf, 0⟩).mLen = 30 :=
  ⟨ipv4Input_handles ⟨[eth2], none⟩ eth2 false frameHeap frameOwners.own ∅ frameBufs ⟨.lobuf, 0⟩ []
    frame_rxPacket, by decide +kernel, by decide +kernel⟩

end TnNet.Ip
