import TnNet.Ip.Output

/-!
# ICMP

`icmp_input`, `icmp_reflect`, `icmp_send` and `icmp_error` of `tn_icmp.c`, over the heap of descriptors and
the bytes of the data buffers.  A packet is a chain `mb :: l`; `m_data` of `mb` is at the IP header, and
`ipv4_input` has checked that `ip_len` is at least `hlen`.

`freed` is what `m_freem` is called on here; what `ip_output` frees stands in the result of its call.  The
flags `M_BCAST` and `M_MCAST` of the packet that `icmp_error` answers are an argument.
-/

set_option autoImplicit false

namespace TnNet.Icmp

open Bytes TnNet.Mem TnNet.Ip

def ICMP_ECHOREPLY : UInt8 := 0

def ICMP_UNREACH : UInt8 := 3

def ICMP_REDIRECT : UInt8 := 5

def ICMP_ECHO : UInt8 := 8

def ICMP_PARAMPROB : UInt8 := 12

def ICMP_UNREACH_PORT : UInt8 := 3

def ICMP_UNREACH_NEEDFRAG : UInt8 := 4

def ICMP_MINLEN : Nat := 8

def ICMP_ADVLENMIN : Nat := 8 + 20 + 8

/-- `ICMP_INFOTYPE`: the informational types. -/
def icmpInfotype (type : UInt8) : Bool := [0, 8, 9, 10, 13, 14, 15, 16, 17, 18].contains type

def IPPROTO_ICMP : UInt8 := 1

def MAXTTL : UInt8 := 255

/-- `ip_hl`. -/
def ipHl (ip : List UInt8) : Nat := (ip.getD 0 0 &&& 0xf).toNat

/-- `ip_src`. -/
def ipSrc (ip : List UInt8) : BitVec 32 := BitVec.ofNat 32 (be16 ip 12 * 65536 + be16 ip 14)

/-- A call of `ip_output`: the heap and the packet it is given, and what it does. -/
structure OutputCall where
  heap : Heap
  packet : List Block
  output : Ip.Output

/-- What a call leaves, with the descriptors that `mb_get` gave and those that were freed. -/
structure IcmpOut where
  heap : Heap
  mem : Bufs
  obtained : List Block := []
  freed : List Block := []
  sent : Option OutputCall := none

/-- Free the packet and return. -/
def drop (h : Heap) (mem : Bufs) (m : List Block) : IcmpOut := { heap := h.mFreem m, mem, freed := m }

/-- `icmp_send`. -/
def icmpSend (tnet : Netifs) (ni : Netif) (id : Nat) (h : Heap) (mem : Bufs) (mb : Block)
    (l : List Block) : OutputCall :=
  let ip := iphdr mem h mb
  let hlen := ipHl ip * 4
  let h := h.trim mb ((h.mb mb).mLen - hlen) ((h.mb mb).mData + hlen)
  let mem := writeBuf mem (h.dbuf mb) ((h.mb mb).mData + 2) (leBytes 2 0)
  let mem :=
    writeBuf mem (h.dbuf mb) ((h.mb mb).mData + 2)
      (leBytes 2 (inCksumMb mem h (mb :: l) (be16 ip 2 - hlen)))
  let h := h.trim mb ((h.mb mb).mLen + hlen) ((h.mb mb).mData - hlen)
  ⟨h, mb :: l, ipOutput tnet (some ni) id h mem mb l⟩

/-- The header with the addresses exchanged. -/
def reflectHdr (ip : List UInt8) : List UInt8 :=
  (ip.set 8 MAXTTL).take 12 ++ (ip.drop 16).take 4 ++ (ip.drop 12).take 4

/-- `icmp_reflect`. -/
def icmpReflect (tnet : Netifs) (ni : Netif) (id : Nat) (h : Heap) (mem : Bufs) (mb : Block)
    (l : List Block) :
    OutputCall :=
  icmpSend tnet ni id h (setIphdr mem h mb (reflectHdr (iphdr mem h mb))) mb l

/-- `icmp_reflect` as the last step. -/
def reflected (c : OutputCall) (obtained freed : List Block) : IcmpOut :=
  { heap := c.output.heap, mem := c.output.mem, obtained, freed, sent := some c }

/-- The data buffer is one of `MB_MID1` outside the memory of the driver. -/
def rxMid1 (d : Desc) : Bool :=
  (d.mDbuf.map fun b => b.pool.drv).getD false == false && d.dbhdr && d.mDbtype == .MB_MID1

/-- The answer to an echo request, whose type is overwritten. -/
def echoReply (tnet : Netifs) (ni : Netif) (id : Nat) (h : Heap) (mem : Bufs) (mb : Block)
    (l : List Block) : IcmpOut :=
  if rxMid1 (h.mb mb) then
    match h.mbGet .MB_MID1 true with
    | (h, none) => drop h mem (mb :: l)
    | (h, some tx) =>
      let d := h.mb mb
      let h := h.set tx { h.mb tx with
        dbhdr := d.dbhdr, pkthdr := d.pkthdr, noalloc := d.noalloc, mLen := d.mLen, mTlen := d.mTlen }
      let mem := writeBuf mem (h.dbuf tx) (h.mb tx).mData (h.bytes mem mb)
      reflected (icmpReflect tnet ni id (h.mFreem (mb :: l)) mem tx []) [tx] (mb :: l)
  else reflected (icmpReflect tnet ni id h mem mb l) [] []

/-- `icmp_input`. -/
def icmpInput (tnet : Netifs) (ni : Netif) (id : Nat) (h : Heap) (mem : Bufs) (mb : Block)
    (l : List Block) : IcmpOut :=
  let ip := iphdr mem h mb
  let hlen := ipHl ip * 4
  let icmplen := be16 ip 2
  if icmplen < ICMP_MINLEN then drop h mem (mb :: l)
  else if (h.mb mb).mLen < hlen + min icmplen ICMP_ADVLENMIN then drop h mem (mb :: l)
  else
    let h := h.trim mb ((h.mb mb).mLen - hlen) ((h.mb mb).mData + hlen)
    if inCksumMb mem h (mb :: l) icmplen ≠ 0 then drop h mem (mb :: l)
    else
      if Heap.bufBytes mem (h.dbuf mb) (h.mb mb).mData 1 = [ICMP_ECHO] then
        let mem := writeBuf mem (h.dbuf mb) (h.mb mb).mData [ICMP_ECHOREPLY]
        echoReply tnet ni id (h.trim mb ((h.mb mb).mLen + hlen) ((h.mb mb).mData - hlen)) mem mb l
      else drop h mem (mb :: l)

/-- The ICMP header and the start of the packet it is about, as `icmp_error` writes them; the checksum
    is what was in the buffer. -/
def errorMsg (ni : Netif) (old oip : List UInt8) (mLen : Nat) (type code : UInt8) (dest : BitVec 32) :
    List UInt8 :=
  let hun :=
    if type = ICMP_REDIRECT then beBytes 4 dest.toNat
    else if type = ICMP_PARAMPROB then [code, 0, 0, 0]
    else if type = ICMP_UNREACH ∧ code = ICMP_UNREACH_NEEDFRAG then
      0 :: 0 :: beBytes 2 (ni.ifMtu % 65536).toNat
    else [0, 0, 0, 0]
  let code := if type = ICMP_PARAMPROB then 0 else code
  [type, code] ++ (old.drop 2).take 2 ++ hun ++ setBe16 oip 2 mLen

/-- `icmp_error`; `bcast` is `M_BCAST | M_MCAST` of the packet. -/
def icmpError (tnet : Netifs) (ni : Netif) (id : Nat) (h : Heap) (mem : Bufs) (n : Block)
    (l : List Block) (bcast : Bool) (type code : UInt8) (dest : BitVec 32) : IcmpOut :=
  let oip := iphdr mem h n
  let oiplen := ipHl oip * 4
  if be16 oip 6 &&& 0x9fff ≠ 0 then drop h mem (n :: l)
  else if oip.getD 9 0 = IPPROTO_ICMP ∧ type ≠ ICMP_REDIRECT ∧ oiplen + ICMP_MINLEN ≤ (h.mb n).mLen ∧
      icmpInfotype ((Heap.bufBytes mem (h.dbuf n) ((h.mb n).mData + oiplen) 1).getD 0 0) =
      false then drop h mem (n :: l)
  else if bcast then drop h mem (n :: l)
  else
    match h.mbGet .MB_MID1 true with
    | (h, none) => drop h mem (n :: l)
    | (h, some m) =>
      let icmplen := oiplen + min 8 (be16 oip 2)
      let h := h.set m { h.mb m with mLen := icmplen + ICMP_MINLEN }
      let old := Heap.bufBytes mem (h.dbuf m) ((h.mb m).mData + 20) 4
      let org := Heap.bufBytes mem (h.dbuf n) (h.mb n).mData icmplen
      let mem :=
        writeBuf mem (h.dbuf m) ((h.mb m).mData + 20) (errorMsg ni old org (h.mb n).mLen type code dest)
      let nip := setBe16 oip 2 ((h.mb m).mLen + 20)
      let nip := ((nip.set 0 (nip.getD 0 0 &&& 0xf0 ||| 5)).set 9 IPPROTO_ICMP).set 1 0
      let mem := setIphdr mem h m nip
      let h := h.mFreem (n :: l)
      let len := (h.mb m).mLen + 20
      let h := h.set m { h.mb m with mLen := len, mTlen := BitVec.ofNat 20 len }
      reflected (icmpReflect tnet ni id h mem m []) [m] (n :: l)

end TnNet.Icmp
