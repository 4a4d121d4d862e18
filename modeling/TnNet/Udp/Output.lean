import TnNet.Ip.Cksum4
import TnNet.Pcb.Defs

/-!
# Sending a datagram

`udp_s_sendto` of `tn_sockets_udp.c`, with `sockargs`, and `udp_output` of `tn_udp.c`.  The socket is
known by the place of its block in the list behind `udb`; a user buffer is the list of its bytes, and a
length that is not positive is that of an empty list.

`held` says that the calling task is the holder of the lock of the network.  `wake` is what the other
tasks have done to the heap when a wait for a buffer ends.  `obtained` are the descriptors that `mb_get`
gave, `freed` those that `m_freem` was called on, and `given` the chains `ip_output` was called with.
-/

set_option autoImplicit false

namespace TnNet.Udp

open Bytes TnNet.Mem TnNet.Pcb
open TnNet.Ip (iphdr setIphdr ipOutput in4Cksum EMSGSIZE)

def EISCONN : Int := 56

def ENOTCONN : Int := 57

def IP_MAXPACKET : Nat := 65535

def UDP_MAX_TX_SIZE : Nat := 4096

def TNNET_MID1_BUF_SIZE : Nat := 128

def IPPROTO_UDP : UInt8 := 17

/-- `sizeof(struct udpiphdr)`. -/
def udpiphdrSize : Nat := 28

/-- `splnet`, which returns 1 to the holder. -/
def splnet (held : Bool) : Nat × Bool := (if held then 1 else 0, true)

/-- `splx`. -/
def splx (sm : Nat) (held : Bool) : Bool := if sm ≠ 0 then held else false

/-- What a call leaves. -/
structure SendOut where
  rc : Int
  heap : Heap
  mem : Bufs
  s : Inpcbs
  held : Bool
  obtained : List Block := []
  freed : List Block := []
  given : List (List Block) := []

/-- The `struct sockaddr__in` in an mbuf. -/
def sockaddrIn (mem : Bufs) (h : Heap) (nam : Block) : Nam :=
  let sin := Heap.bufBytes mem (h.dbuf nam) (h.mb nam).mData 16
  { mLen := (h.mb nam).mLen
    sinFamily := (sin.getD 1 0).toNat
    sinPort := BitVec.ofNat 16 ((sin.getD 2 0).toNat + 256 * (sin.getD 3 0).toNat)
    sinAddr := BitVec.ofNat 32 (be16 sin 4 * 65536 + be16 sin 6) }

/-- `sockargs`. -/
def sockargs (h : Heap) (mem : Bufs) (buf : List UInt8) : Heap × Bufs × Except Int Block :=
  if TNNET_MID1_BUF_SIZE < buf.length then (h, mem, .error Pcb.EINVAL)
  else
    match h.mbGet .MB_MID1 false with
    | (h, none) => (h, mem, .error Ip.ENOBUFS)
    | (h, some mb) =>
      let mem := writeBuf mem (h.dbuf mb) (h.mb mb).mData buf
      let h := h.set mb { h.mb mb with mLen := buf.length }
      (h, writeBuf mem (h.dbuf mb) (h.mb mb).mData [UInt8.ofNat buf.length], .ok mb)

/-! ## `udp_output` -/

/-- What is kept while the block is temporarily connected. -/
structure TempConn where
  mbAddr : Block
  laddr : BitVec 32
  sm : Nat

/-- The local address is restored, and the block disconnected. -/
def restore (temp : Option TempConn) (s : Inpcbs) (i : Nat) : Inpcbs :=
  match temp with
  | none => s
  | some t =>
    { s with pcbs := s.pcbs.modify i fun b => { b with inpLaddr := t.laddr, inpFaddr := 0, inpFport := 0 } }

def unlock (temp : Option TempConn) (held : Bool) : Bool :=
  match temp with
  | none => held
  | some t => splx t.sm held

/-- `struct udpiphdr`, over what the buffer had; the checksum is 0. -/
def udpiphdr (old : List UInt8) (inp : Inpcb) (len : Nat) : List UInt8 :=
  old.take 8 ++ [0, IPPROTO_UDP] ++ beBytes 2 (len + 8) ++ beBytes 4 inp.inpLaddr.toNat ++
    beBytes 4 inp.inpFaddr.toNat ++
    leBytes 2 inp.inpLport.toNat ++ leBytes 2 inp.inpFport.toNat ++ beBytes 2 (len + 8) ++ [0, 0]

/-- `in4_cksum` of a chain. -/
def in4CksumMb (mem : Bufs) (h : Heap) (m : Block) (l : List Block) (nxt : UInt8) (off len : Nat) :
    Option Nat :=
  let desc := fun b => (decide ((h.mb b).mData % 2 = 1), h.bytes mem b)
  in4Cksum (desc m) (l.map desc) nxt off len

/-- The part of `udp_output` in which the header is made and the packet is sent. -/
def udpSend (tnet : Pcb.Netifs) (id : Nat) (h : Heap) (mem : Bufs) (s : Inpcbs) (i : Nat) (held : Bool)
    (mb : Block) (l : List Block) (temp : Option TempConn) : SendOut :=
  let len := (h.mb mb).mTlen.toNat
  match h.mbGet .MB_MIN true with
  | (heap, none) => { rc := Ip.ENOBUFS, heap, mem, s := restore temp s i, held := unlock temp held }
  | (h, some m) =>
    let h :=
      h.set m { h.mb m with mLen := udpiphdrSize, mTlen := BitVec.ofNat 20 (udpiphdrSize + len),
                            pkthdr := true }
    let h := h.set mb { h.mb mb with pkthdr := false }
    let old := Heap.bufBytes mem (h.dbuf m) (h.mb m).mData 8
    let mem := writeBuf mem (h.dbuf m) (h.mb m).mData (udpiphdr old (s.pcbs.getD i {}) len)
    -- the guard of `in4_cksum` holds: the header lies in the first descriptor
    let sum := (in4CksumMb mem h m (mb :: l) IPPROTO_UDP 20 ((h.mb m).mTlen.toNat - 20)).getD 0
    let mem := writeBuf mem (h.dbuf m) ((h.mb m).mData + 26) (leBytes 2 (if sum = 0 then 0xffff else sum))
    let ip := setBe16 (setBe16 (iphdr mem h m) 2 (udpiphdrSize + len)) 6 0
    let mem := setIphdr mem h m ((ip.set 8 255).set 1 0)
    let o := ipOutput tnet.toIp none id h mem m (mb :: l)
    { rc := o.rc, heap := o.heap.mFreem (temp.map TempConn.mbAddr).toList, mem := o.mem,
      s := restore temp s i
      held := unlock temp held, obtained := [m], freed := (temp.map TempConn.mbAddr).toList, given :=
      [m :: mb :: l] }

/-- The data and the address are freed. -/
def sendDrop (rc : Int) (h : Heap) (mem : Bufs) (s : Inpcbs) (held : Bool) (mb : Block) (l : List Block)
    (mbAddr : Option Block) : SendOut :=
  { rc, heap := (h.mFreem (mb :: l)).mFreem mbAddr.toList, mem, s, held, freed := mb :: l ++ mbAddr.toList }

/-- `udp_output` of the chain `mb :: l`, for the block `inp` at place `i`; there is no result when the
    search for a port takes more than `fuel` turns. -/
def udpOutput (tnet : Pcb.Netifs) (fuel id : Nat) (h : Heap) (mem : Bufs) (s : Inpcbs) (i : Nat)
    (inp : Inpcb) (held : Bool) (mb : Block) (l : List Block)
    (mbAddr : Option Block) : Option SendOut :=
  let drop (rc : Int) (s : Inpcbs) (held : Bool) := some (sendDrop rc h mem s held mb l mbAddr)
  if IP_MAXPACKET < (h.mb mb).mTlen.toNat + udpiphdrSize then drop EMSGSIZE s held
  else
    match mbAddr with
    | none =>
      if inp.inpFaddr = 0 then drop ENOTCONN s held else some (udpSend tnet id h mem s i held mb l none)
    | some nam =>
      if inp.inpFaddr ≠ 0 then drop EISCONN s held
      else
        let (sm, held) := splnet held
        match inPcbconnect tnet fuel s i (sockaddrIn mem h nam) with
        | none => none
        | some r =>
          if r.rc ≠ 0 then drop r.rc r.s (splx sm held)
          else some (udpSend tnet id h mem r.s i held mb l (some ⟨nam, inp.inpLaddr, sm⟩))

/-! ## `udp_s_sendto` -/

/-- `mb_get` in the loop of `udp_s_sendto`; `k` is the length that is still to be copied. -/
def txGet (wake : Nat → Heap → Heap) (nbio : Bool) (k : Nat) (h : Heap) : Heap × Option Block :=
  (if nbio then h else wake k h).mbGet .MB_MID1 true

/-- The loop that copies the data into a chain; the number bounds the turns.  There is no chain when
    `mb_get` has failed: it has been freed. -/
def txLoop (wake : Nat → Heap → Heap) (nbio : Bool) : Nat → List UInt8 → List Block →
    Heap → Bufs → Heap × Bufs × List Block × Bool
  | 0, _, chain, h, mem => (h, mem, chain, true)
  | n + 1, data, chain, h, mem =>
    if data = [] then (h, mem, chain, true)
    else
      match txGet wake nbio data.length h with
      | (h, none) => (h.mFreem chain, mem, chain, false)
      | (h, some mb) =>
        let mem := writeBuf mem (h.dbuf mb) (h.mb mb).mData (data.take TNNET_MID1_BUF_SIZE)
        let h := h.set mb { h.mb mb with mLen := min data.length TNNET_MID1_BUF_SIZE }
        txLoop wake nbio n (data.drop TNNET_MID1_BUF_SIZE) (chain ++ [mb]) h mem

/-- The arguments of `udp_output`. -/
structure SendArgs where
  heap : Heap
  mem : Bufs
  mb : Block
  l : List Block
  mbAddr : Option Block

/-- The part of `udp_s_sendto` in front of `udp_output`: its arguments, or the result of the call. -/
def sendArgs (wake : Nat → Heap → Heap) (nbio : Bool) (h : Heap) (mem : Bufs) (s : Inpcbs) (held : Bool)
    (buf dest : Option (List UInt8)) : Except SendOut SendArgs :=
  let data := buf.getD []
  if data = [] ∨ UDP_MAX_TX_SIZE < data.length then .error { rc := -Pcb.EINVAL, heap := h, mem, s, held }
  else
    let (h, mem, nam) := if dest.getD [] = [] then (h, mem, .ok none) else
      let r := sockargs h mem (dest.getD [])
      (r.1, r.2.1, r.2.2.map some)
    match nam with
    | .error rc => .error { rc := -rc, heap := h, mem, s, held }
    | .ok mbAddr =>
      match txLoop wake nbio data.length data [] h mem with
      | (h, mem, chain, false) =>
        .error { rc := -Ip.ENOBUFS, heap := h.mFreem mbAddr.toList, mem, s, held,
                 obtained := mbAddr.toList ++ chain
                 freed := chain ++ mbAddr.toList }
      -- not reached: there is something to copy
      | (h, mem, [], true) =>
        .error { rc := -Pcb.EINVAL, heap := h, mem, s, held, obtained := mbAddr.toList }
      | (h, mem, mb :: l, true) =>
        .ok ⟨h.set mb { h.mb mb with pkthdr := true, mTlen := BitVec.ofNat 20 data.length }, mem,
          mb, l, mbAddr⟩

/-- `udp_s_sendto` for the block at place `i`. -/
def udpSSendto (tnet : Pcb.Netifs) (fuel : Nat) (wake : Nat → Heap → Heap) (nbio : Bool) (id : Nat)
    (h : Heap) (mem : Bufs) (s : Inpcbs) (i : Nat) (held : Bool)
    (buf dest : Option (List UInt8)) : Option SendOut :=
  match s.pcbs[i]? with
  | none => some { rc := -Pcb.EINVAL, heap := h, mem, s, held }
  | some inp =>
    match sendArgs wake nbio h mem s held buf dest with
    | .error r => some r
    | .ok a =>
      (udpOutput tnet fuel id a.heap a.mem s i inp held a.mb a.l a.mbAddr).map fun r =>
        { r with
          rc := if 0 < r.rc then -r.rc else r.rc
          obtained := a.mbAddr.toList ++ (a.mb :: a.l) ++ r.obtained }

end TnNet.Udp
