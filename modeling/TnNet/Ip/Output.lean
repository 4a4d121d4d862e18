import TnNet.Ip.Cksum
import TnNet.Ip.Reasm
import TnNet.Mem.Bytes

/-!
# `ip_output` and `ip4_fragment`

The output of a packet, over the heap of descriptors and the bytes of the data buffers.  The packet is
the chain `mp :: l`; `ip` is the header at `m_data` of `mp`.  `ip_output` writes `ip_hl`, so a header has
no options here and `ip_optcopy` has nothing to do: `hlen` and `mhlen` are `sizeof(struct ip)`.

Packets that follow each other by `m_nextpkt` are a list of chains.  `made` are the packets
`ip4_fragment` has linked behind the original one, `freed` the descriptors `m_free` was called on, in
order, and `given` what `output_func` was called with.  `wild` says that `m_copym` has written through
`NULL`: nothing is known of what follows.
-/

set_option autoImplicit false

namespace TnNet.Ip

open Bytes TnNet.Mem

def EINVAL : Int := 22

def EMSGSIZE : Int := 40

def EADDRNOTAVAIL : Int := 49

def ENOBUFS : Int := 55

def TERR_WSTATE : Int := -3

/-! ## Headers in data buffers -/

/-- The `struct ip` at `m_data`. -/
def iphdr (mem : Bufs) (h : Heap) (m : Block) : List UInt8 :=
  Heap.bufBytes mem (h.dbuf m) (h.mb m).mData 20

def setIphdr (mem : Bufs) (h : Heap) (m : Block) (ip : List UInt8) : Bufs :=
  writeBuf mem (h.dbuf m) (h.mb m).mData ip

/-- Write a two-byte field in the byte order of the CPU. -/
def setLe16 (d : List UInt8) (i x : Nat) : List UInt8 :=
  (d.set i (UInt8.ofNat x)).set (i + 1) (UInt8.ofNat (x / 256))

/-- `in_cksum`. -/
def inCksumMb (mem : Bufs) (h : Heap) (chain : List Block) (len : Nat) : Nat :=
  inCksum (chain.map fun b => (decide ((h.mb b).mData % 2 = 1), h.bytes mem b)) len

/-- `ip_sum = 0; ip_sum = in_cksum(m, hlen)`. -/
def sumIphdr (mem : Bufs) (h : Heap) (m : Block) (chain : List Block) : Bufs :=
  let mem := setIphdr mem h m (setBe16 (iphdr mem h m) 10 0)
  setIphdr mem h m (setLe16 (iphdr mem h m) 10 (inCksumMb mem h chain 20))

/-! ## Fragmentation -/

/-- How the loop of `ip4_fragment` ends. -/
inductive FragEnd where
  | ok
  | enobufs
  | wild
  deriving DecidableEq

/-- The loop of `ip4_fragment`; the number bounds the turns, `off` grows in each. -/
def fragLoop (m0 : List Block) (mp : Block) :
    Nat → Nat → Nat → Heap → Bufs → List (List Block) → Heap × Bufs × List (List Block) × FragEnd
  | 0, _, _, h, mem, made => (h, mem, made, .ok)
  | n + 1, off, fragLen, h, mem, made =>
    let ip := iphdr mem h mp
    if off < be16 ip 2 then
      match h.mbGet .MB_MID1 true with
      | (h, none) => (h, mem, made, .enobufs)
      | (h, some m) =>
        let h := h.set m { h.mb m with pkthdr := true, mLen := 20 }
        let ipOff := (off - 20) / 8 + (be16 ip 6 &&& 0xdfff)
        let ipOff := if be16 ip 6 &&& IP_MF ≠ 0 then ipOff ||| IP_MF else ipOff
        let last := decide (be16 ip 2 ≤ off + fragLen)
        let fragLen := if last then be16 ip 2 - off else fragLen
        let ipOff := if last then ipOff else ipOff ||| IP_MF
        let mem := setIphdr mem h m (setBe16 ip 2 (fragLen + 20))
        match h.mCopym m0 off fragLen .MB_NOWAIT with
        | (h, .null) => (h, mem, made ++ [[m]], .enobufs)
        | (h, .chain copies) =>
          let h := h.set m { h.mb m with mTlen := BitVec.ofNat 20 (20 + fragLen) }
          let mem := setIphdr mem h m (setBe16 (iphdr mem h m) 6 ipOff)
          let mem := sumIphdr mem h m (m :: copies)
          fragLoop m0 mp n (off + fragLen) fragLen h mem (made ++ [m :: copies])
        -- with `MB_NOWAIT` the call does not wait, but it may write through `NULL`
        | (h, _) => (h, mem, made ++ [[m]], .wild)
    else (h, mem, made, .ok)

/-- What a call leaves: the packets in `m_nextpkt` order when the return value is 0. -/
structure FragOut where
  heap : Heap
  mem : Bufs
  rc : Int
  packets : List (List Block) := []
  made : List (List Block) := []
  freed : List Block := []
  wild : Bool := false

/-- `ip4_fragment`. -/
def ip4Fragment (h : Heap) (mem : Bufs) (mp : Block) (l : List Block) (ifMtu : Int) : FragOut :=
  let fragLen := (ifMtu - 20) / 8 * 8
  if fragLen < 8 then { heap := h.mFreem (mp :: l), mem, rc := EMSGSIZE, freed := mp :: l }
  else
    let firstlen := fragLen.toNat
    match fragLoop (mp :: l) mp (be16 (iphdr mem h mp) 2) (20 + firstlen) firstlen h mem [] with
    | (heap, mem, made, .wild) => { heap, mem, made, rc := 0, wild := true }
    | (h, mem, made, .enobufs) =>
      { heap := ((mp :: l) :: made).foldl Heap.mFreem h, mem, made, rc := ENOBUFS
        freed := (mp :: l) ++ made.flatten }
    | (h, mem, made, .ok) =>
      let h := h.set mp { h.mb mp with pkthdr := true }
      let r := h.mAdjFree (mp :: l) (20 + firstlen - be16 (iphdr mem h mp) 2)
      let h := r.1.set mp { r.1.mb mp with mTlen := BitVec.ofNat 20 (20 + firstlen) }
      let mem := setIphdr mem h mp (setBe16 (iphdr mem h mp) 2 (h.mb mp).mTlen.toNat)
      let mem := setIphdr mem h mp (setBe16 (iphdr mem h mp) 6 (be16 (iphdr mem h mp) 6 ||| IP_MF))
      let mem := sumIphdr mem h mp r.2.1
      { heap := h, mem, made, rc := 0, packets := r.2.1 :: made, freed := r.2.2 }

/-! ## `ip_output` -/

/-- `output_func` of an interface: what it does to the heap, and its return value. -/
abbrev OutputFunc := Heap → List Block → Heap × Int

/-- `struct tn_netif`. -/
structure Netif where
  up : Bool
  broadcast : Bool
  ifMtu : Int
  ipAddr : BitVec 32
  netmask : BitVec 32
  outputFunc : Option OutputFunc

/-- The interfaces of `tnet`. -/
structure Netifs where
  netifList : List Netif
  netifDefault : Option Netif

/-- `ip_route_out`. -/
def ipRouteOut (tnet : Netifs) (dst : BitVec 32) : Option Netif :=
  match tnet.netifList.find? fun ni => ni.up && decide (dst &&& ni.netmask = ni.ipAddr &&& ni.netmask) with
  | some ni => some ni
  | none => tnet.netifDefault.filter fun ni => ni.up

/-- `ip_dst`. -/
def ipDst (ip : List UInt8) : BitVec 32 := BitVec.ofNat 32 (be16 ip 16 * 65536 + be16 ip 18)

structure Output where
  heap : Heap
  mem : Bufs
  rc : Int
  /-- What was to be sent when it came to that: the packet or its fragments. -/
  packets : List (List Block) := []
  made : List (List Block) := []
  given : List (List Block) := []
  freed : List Block := []
  wild : Bool := false

/-- The loop that sends the packets, or frees them behind the first error. -/
def sendPackets (outputFunc : Option OutputFunc) :
    List (List Block) → Int → Heap → Heap × Int × List (List Block) × List Block
  | [], rc, h => (h, rc, [], [])
  | m :: rest, rc, h =>
    if rc = 0 then
      match outputFunc with
      | some f =>
        let r := sendPackets outputFunc rest (f h m).2 (f h m).1
        (r.1, r.2.1, m :: r.2.2.1, r.2.2.2)
      | none =>
        let r := sendPackets outputFunc rest EINVAL (h.mFreem m)
        (r.1, r.2.1, r.2.2.1, m ++ r.2.2.2)
    else
      let r := sendPackets outputFunc rest rc (h.mFreem m)
      (r.1, r.2.1, r.2.2.1, m ++ r.2.2.2)

/-- A packet that is not sent. -/
def dropPacket (h : Heap) (mem : Bufs) (m0 : List Block) (rc : Int) : Output :=
  { heap := h.mFreem m0, mem, rc, freed := m0 }

/-- A packet that is small enough for the interface. -/
def sendWhole (h : Heap) (mem : Bufs) (ni : Netif) (mp : Block) (l : List Block) : Output :=
  let mem := sumIphdr mem h mp (mp :: l)
  match ni.outputFunc with
  | some f =>
    { heap := (f h (mp :: l)).1, mem, rc := (f h (mp :: l)).2, packets := [mp :: l], given := [mp :: l] }
  | none => dropPacket h mem (mp :: l) TERR_WSTATE

/-- A packet that is too large for the interface: `ip_off` is tested for `htons(IP_DF)`. -/
def sendFragments (h : Heap) (mem : Bufs) (ni : Netif) (mp : Block) (l : List Block) : Output :=
  if be16 (iphdr mem h mp) 6 &&& IP_DF ≠ 0 then dropPacket h mem (mp :: l) EMSGSIZE
  else
    let r := ip4Fragment h mem mp l ni.ifMtu
    if r.wild then { heap := r.heap, mem := r.mem, rc := 0, made := r.made, freed := r.freed, wild := true }
    else if r.rc ≠ 0 then
      { heap := r.heap.mFreem (mp :: l), mem := r.mem, rc := r.rc, made := r.made
        freed := r.freed ++ (mp :: l) }
    else
      let s := sendPackets ni.outputFunc r.packets 0 r.heap
      { heap := s.1, mem := r.mem, rc := s.2.1, packets := r.packets, made := r.made, given := s.2.2.1
        freed := r.freed ++ s.2.2.2 }

/-- `ip_off &= IP_DF`, where `IP_DF` is not in network order. -/
def maskIpOff (ip : List UInt8) : List UInt8 := (ip.set 6 0).set 7 (ip.getD 7 0 &&& 0x40)

/-- `ip_output` on an interface. -/
def outputOn (h : Heap) (mem : Bufs) (ni : Netif) (mp : Block) (l : List Block) : Output :=
  let ip := iphdr mem h mp
  if ipDst ip = BitVec.allOnes 32 ∧ ni.broadcast = false then dropPacket h mem (mp :: l) EADDRNOTAVAIL
  else if ipDst ip = BitVec.allOnes 32 ∧ ni.ifMtu < be16 ip 2 then dropPacket h mem (mp :: l) EMSGSIZE
  else if (be16 ip 2 : Int) ≤ ni.ifMtu then sendWhole h mem ni mp l
  else sendFragments h mem ni mp l

/-- `ip_output`; `id` is `tn_net_random_id()`. -/
def ipOutput (tnet : Netifs) (ni : Option Netif) (id : Nat) (h : Heap) (mem : Bufs) (mp : Block)
    (l : List Block) : Output :=
  let ip := setBe16 (maskIpOff ((iphdr mem h mp).set 0 0x45)) 4 id
  let mem := setIphdr mem h mp ip
  match ni.or (ipRouteOut tnet (ipDst ip)) with
  | none => dropPacket h mem (mp :: l) EINVAL
  | some ni => outputOn h mem ni mp l

end TnNet.Ip
