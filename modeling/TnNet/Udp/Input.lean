import TnNet.Icmp.Defs
import TnNet.Lib.Ring
import TnNet.Udp.Output

/-!
# Receiving a datagram

`udp_input` of `tn_udp.c`, with `ip_stripoptions`, and `udp_s_recvfrom` of `tn_sockets_udp.c`.  The
packet is a chain `mb :: l`, and `m_data` of `mb` is at its IP header.

`queued` is the place of the block whose socket was given the chain, `freed` are the descriptors
`m_freem` was called on.  `wild` is a call of `bcopy` with a negative length, `panic` one of
`tn_net_panic`, which does not return.  `copied` are the bytes that were copied to the user, by data
buffer and place in it.
-/

set_option autoImplicit false

namespace TnNet.Udp

open Bytes TnNet.Mem TnNet.Pcb
open TnNet.Ip (iphdr setIphdr ipDst EMSGSIZE)
open TnNet.Icmp (ipHl ipSrc icmpError IcmpOut ICMP_UNREACH ICMP_UNREACH_PORT)

def EWOULDBLOCK : Int := 35

def ETIMEOUT : Int := 100

def ENOTDATA : Int := 101

def EDHCPT1 : Int := 102

def EDHCPT2 : Int := 103

def UDP_SOCK_RX_QUEUE_SIZE : Nat := 4

def IP4_SIN_ADDR_SIZE : Nat := 8

/-- `sizeof(struct udphdr)`. -/
def udphdrSize : Nat := 8

/-! ## The receive queue -/

/-- The items of `queueRx`. -/
inductive RxItem where
  | data (mb : Block) (l : List Block)
  | DHCP_T1_EXPIRED_EVENT
  | DHCP_T2_EXPIRED_EVENT
  | null
  deriving DecidableEq

/-- `queueRx`: the items in its ring buffer, the tasks that wait for an item, and the items that tasks
    were given. -/
structure RxQueue where
  idDque : Bool := true
  fifo : List RxItem := []
  waitReceive : List Nat := []
  given : List (Nat × RxItem) := []
  deriving DecidableEq

/-- `tn_queue_send_polling`, when there is no error. -/
def tnQueueSendPolling (q : RxQueue) (item : RxItem) : Option RxQueue :=
  if q.idDque = false then none
  else
    match q.waitReceive with
    | task :: tasks => some { q with waitReceive := tasks, given := q.given ++ [(task, item)] }
    | [] =>
      if q.fifo.length < RingBuf.capacity UDP_SOCK_RX_QUEUE_SIZE then
        some { q with fifo := q.fifo ++ [item] } else none

/-- `tn_queue_receive_polling`, when there is no error. -/
def tnQueueReceivePolling (q : RxQueue) : Option (RxItem × RxQueue) :=
  match q.fifo with
  | item :: fifo => if q.idDque then some (item, { q with fifo }) else none
  | [] => none

/-- `struct socket`, with the `udp_socket` at `so_tdata`. -/
structure Socket where
  nbio : Bool := false
  soTdata : Option RxQueue
  deriving DecidableEq

/-- A block behind `udb`, with its socket. -/
structure UdpPcb where
  inp : Inpcb
  inpSocket : Option Socket
  deriving DecidableEq

/-! ## `udp_input` -/

/-- `ip_stripoptions`; there is no result when the header is longer than the first descriptor. -/
def ipStripoptions (h : Heap) (mem : Bufs) (m : Block) : Option (Heap × Bufs) :=
  let d := h.mb m
  let ip := iphdr mem h m
  let hlen := ipHl ip * 4
  let olen := hlen - 20
  if d.mLen < hlen then none
  else
    let mem :=
      writeBuf mem (h.dbuf m) (d.mData + 20) (Heap.bufBytes mem (h.dbuf m) (d.mData + hlen) (d.mLen - hlen))
    let tlen := if d.pkthdr then d.mTlen - BitVec.ofNat 20 olen else d.mTlen
    some (h.set m { d with mLen := d.mLen - olen, mTlen := tlen },
      writeBuf mem (h.dbuf m) d.mData [ip.getD 0 0 &&& 0xf0 ||| 5])

/-- The `struct udphdr` behind the IP header. -/
def udphdr (mem : Bufs) (h : Heap) (mb : Block) (iphlen : Nat) : List UInt8 :=
  Heap.bufBytes mem (h.dbuf mb) ((h.mb mb).mData + iphlen) udphdrSize

/-- A port of a header, as the CPU reads it. -/
def portAt (uh : List UInt8) (i : Nat) : BitVec 16 :=
  BitVec.ofNat 16 ((uh.getD i 0).toNat + 256 * (uh.getD (i + 1) 0).toNat)

/-- What a call leaves. -/
structure UdpIn where
  heap : Heap
  mem : Bufs
  udb : List UdpPcb
  queued : Option Nat := none
  freed : List Block := []
  icmp : Option IcmpOut := none
  wild : Bool := false
  panic : Bool := false

/-- Free the chain and return. -/
def rxDrop (h : Heap) (mem : Bufs) (udb : List UdpPcb) (mb : Block) (l : List Block) : UdpIn :=
  { heap := h.mFreem (mb :: l), mem, udb, freed := mb :: l }

/-- The chain is for the block at place `i`. -/
def rxQueue (h : Heap) (mem : Bufs) (udb : List UdpPcb) (mb : Block) (l : List Block) (i : Nat) : UdpIn :=
  match (udb[i]?).bind UdpPcb.inpSocket with
  | none => rxDrop h mem udb mb l
  | some so =>
    match so.soTdata with
    | none => rxDrop h mem udb mb l
    | some q =>
      match tnQueueSendPolling q (.data mb l) with
      | none => rxDrop h mem udb mb l
      | some q =>
        { heap := h, mem, queued := some i
          udb := udb.modify i fun p => { p with inpSocket := some { so with soTdata := some q } } }

/-- There is no block for the chain; `saveIp` is the copy of the IP header. -/
def rxNoPort (tnet : Ip.Netifs) (ni : Ip.Netif) (id : Nat) (h : Heap) (mem : Bufs) (udb : List UdpPcb)
    (mb : Block) (l : List Block) (bcast : Bool) (iphlen : Nat) (saveIp : List UInt8) : UdpIn :=
  if bcast then rxDrop h mem udb mb l
  else
    let mem := setIphdr mem h mb saveIp
    let mem := setIphdr mem h mb (setBe16 (iphdr mem h mb) 2 (be16 (iphdr mem h mb) 2 + iphlen))
    let r := icmpError tnet ni id h mem mb l bcast ICMP_UNREACH ICMP_UNREACH_PORT 0
    { heap := r.heap, mem := r.mem, udb, freed := r.freed, icmp := some r }

/-- `in_pcblookup` for the addresses and ports of the packet. -/
def rxLookup (mem : Bufs) (h : Heap) (udb : List UdpPcb) (mb : Block) (iphlen : Nat) : Option Nat :=
  let ip := iphdr mem h mb
  let uh := udphdr mem h mb iphlen
  inPcblookup (udb.map UdpPcb.inp) (ipSrc ip) (portAt uh 0) (ipDst ip) (portAt uh 2) true

/-- The buffers behind the test of `uh_sum`, and what `uh_sum` is then; there is no result when
    `in4_cksum` panics. -/
def rxCksum (mem : Bufs) (h : Heap) (mb : Block) (l : List Block) (iphlen len : Nat) :
    Option (Bufs × Nat) :=
  if be16 (udphdr mem h mb iphlen) 6 = 0 then some (mem, 0)
  else
    (in4CksumMb mem h mb l IPPROTO_UDP iphlen len).map fun x =>
      (writeBuf mem (h.dbuf mb) ((h.mb mb).mData + iphlen + 6) (leBytes 2 x), x)

/-- `udp_input` behind the options. -/
def udpInputStripped (tnet : Ip.Netifs) (ni : Ip.Netif) (id : Nat) (h : Heap) (mem : Bufs)
    (udb : List UdpPcb) (mb : Block) (l : List Block) (bcast : Bool) (iphlen : Nat) : UdpIn :=
  let len := be16 (udphdr mem h mb iphlen) 4
  let saveIp := iphdr mem h mb
  if be16 saveIp 2 < len then rxDrop h mem udb mb l
  else
    match rxCksum mem h mb l iphlen len with
    | none => { heap := h, mem, udb, panic := true }
    | some (mem, uhSum) =>
      if uhSum ≠ 0 then rxDrop h mem udb mb l
      else
        match rxLookup mem h udb mb iphlen with
        | none => rxNoPort tnet ni id h mem udb mb l bcast iphlen saveIp
        | some i => rxQueue h mem udb mb l i

/-- The heap, the buffers and `iphlen` when the options have been stripped, if there were any. -/
def stripped (h : Heap) (mem : Bufs) (mb : Block) : Option (Heap × Bufs × Nat) :=
  let iphlen := ipHl (iphdr mem h mb) * 4
  if 20 < iphlen then (ipStripoptions h mem mb).map fun s => (s.1, s.2, 20) else some (h, mem, iphlen)

/-- `udp_input`; `bcast` is `M_BCAST | M_MCAST` of the packet. -/
def udpInput (tnet : Ip.Netifs) (ni : Ip.Netif) (id : Nat) (h : Heap) (mem : Bufs) (udb : List UdpPcb)
    (mb : Block) (l : List Block) (bcast : Bool) : UdpIn :=
  match stripped h mem mb with
  | none => { heap := h, mem, udb, wild := true }
  | some (h, mem, iphlen) => udpInputStripped tnet ni id h mem udb mb l bcast iphlen

/-! ## `udp_s_recvfrom` -/

/-- `struct sockaddr__in`, in the byte order of the CPU. -/
structure Sockaddr where
  sinLen : Nat
  sinFamily : Nat
  sinPort : Nat
  sinAddr : Nat
  deriving DecidableEq

/-- What a call leaves; `so` is the queue of the socket. -/
structure RecvOut where
  rc : Int
  heap : Heap
  queue : Option RxQueue
  sender : Option (Sockaddr × Nat) := none
  copied : List (Block × Nat) := []
  freed : List Block := []

/-- The places of `n` bytes from `m_data` on. -/
def places (h : Heap) (mb : Block) (n : Nat) : List (Block × Nat) :=
  match h.dbuf mb with
  | none => []
  | some d => (List.range n).map fun i => (d, (h.mb mb).mData + i)

/-- The loop of `udp_s_recvfrom`: `rx_len`, and what is copied. -/
def rxLoop (h : Heap) (rdLen : Int) : List Block → Nat → Nat × List (Block × Nat)
  | [], rxLen => (rxLen, [])
  | mb :: l, rxLen =>
    if rdLen - rxLen ≤ 0 then (rxLen, [])
    else
      let nbytes := if rdLen - rxLen < (h.mb mb).mLen then (rdLen - rxLen).toNat else (h.mb mb).mLen
      let r := rxLoop h rdLen l (rxLen + nbytes)
      (r.1, places h mb nbytes ++ r.2)

/-- The part of `udp_s_recvfrom` in which the chain is transferred to the user. -/
def rxTransfer (h : Heap) (mem : Bufs) (queue : Option RxQueue) (mb : Block) (l : List Block)
    (len : Int) : RecvOut :=
  let ui := Heap.bufBytes mem (h.dbuf mb) (h.mb mb).mData udpiphdrSize
  let udpMsgLen : Int := be16 ui 24 - udphdrSize
  let sin : Sockaddr := ⟨sockaddrInSize, AF_INET, be16 ui 20, be16 ui 12 * 65536 + be16 ui 14⟩
  let h := h.trim mb (h.mb mb).mLen ((h.mb mb).mData + udpiphdrSize)
  let r := rxLoop h (min udpMsgLen len) (mb :: l) 0
  { rc := if r.1 < udpMsgLen ∧ r.1 ≠ 0 then -EMSGSIZE else r.1
    heap := h.mFreem (mb :: l), queue, sender := some (sin, IP4_SIN_ADDR_SIZE), copied :=
  r.2, freed := mb :: l }

/-- `tn_queue_receive`, or `tn_queue_receive_polling`, when there is no error; `wake` is what a task
    that waits is given, and nothing at the timeout. -/
def rxGet (so : Socket) (q : RxQueue) (wake : Option RxItem) : Option (RxItem × RxQueue) :=
  match tnQueueReceivePolling q with
  | some r => some r
  | none => if so.nbio || !q.idDque then none else wake.map fun item => (item, q)

/-- `udp_s_recvfrom`. -/
def udpSRecvfrom (h : Heap) (mem : Bufs) (so : Socket) (wake : Option RxItem) (len : Int) : RecvOut :=
  match so.soTdata with
  | none => { rc := -Pcb.EINVAL, heap := h, queue := none }
  | some q =>
    match rxGet so q wake with
    | none => { rc := if so.nbio then -EWOULDBLOCK else -ETIMEOUT, heap := h, queue := some q }
    | some (.DHCP_T1_EXPIRED_EVENT, q) => { rc := -EDHCPT1, heap := h, queue := some q }
    | some (.DHCP_T2_EXPIRED_EVENT, q) => { rc := -EDHCPT2, heap := h, queue := some q }
    | some (.null, q) => { rc := -ENOTDATA, heap := h, queue := some q }
    | some (.data mb l, q) => rxTransfer h mem (some q) mb l len

/-- The bytes the user has. -/
def RecvOut.bytes (r : RecvOut) (mem : Bufs) : List UInt8 := r.copied.map fun p => mem p.1 p.2

end TnNet.Udp
