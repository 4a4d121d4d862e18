import TnNet.Ip.Output

/-!
# Protocol control blocks

`in_pcblookup`, `in_pcbbind` and `in_pcbconnect` of `tn_in_pcb.c` over the list behind `udb` or `tcb`.
A block is known by its place in the list.  The high byte of an address is its first one.  A port is the
number the little-endian CPU has for the two bytes in network order; the port counter in the head of the
list is in the order of the CPU.
-/

set_option autoImplicit false

namespace TnNet.Pcb

def IPPORT_RESERVED : Nat := 1024

def IPPORT_USERRESERVED : Nat := 5000

def EINVAL : Int := 22

def EAFNOSUPPORT : Int := 47

def EADDRINUSE : Int := 48

def EADDRNOTAVAIL : Int := 49

def AF_INET : Nat := 2

/-- `sizeof(struct sockaddr__in)`. -/
def sockaddrInSize : Nat := 16

/-- `struct inpcb`; `reuseport` is `SO_REUSEPORT` of its socket. -/
structure Inpcb where
  inpFaddr : BitVec 32 := 0
  inpLaddr : BitVec 32 := 0
  inpFport : BitVec 16 := 0
  inpLport : BitVec 16 := 0
  reuseport : Bool := false
  deriving DecidableEq, Repr

/-- The head of a list, with its port counter, and the list. -/
structure Inpcbs where
  inpLport : BitVec 16
  pcbs : List Inpcb
  deriving DecidableEq, Repr

/-- The mbuf `nam` with a `struct sockaddr__in`. -/
structure Nam where
  mLen : Nat
  sinFamily : Nat
  sinPort : BitVec 16
  sinAddr : BitVec 32
  deriving DecidableEq, Repr

/-- `struct tn_netif`, with its broadcast address. -/
structure Netif extends Ip.Netif where
  ifBroadaddr : BitVec 32

structure Netifs where
  netifList : List Netif
  netifDefault : Option Netif

/-- What `ip_output` uses of the interfaces. -/
def Netifs.toIp (tnet : Netifs) : Ip.Netifs :=
  ⟨tnet.netifList.map Netif.toNetif, tnet.netifDefault.map Netif.toNetif⟩

def htons (x : BitVec 16) : BitVec 16 := x.extractLsb' 0 8 ++ x.extractLsb' 8 8

def ntohs (x : BitVec 16) : BitVec 16 := htons x

/-! ## `in_pcblookup` -/

/-- `wildcard`, or `continue`. -/
def wildcard (faddr laddr : BitVec 32) (fport lport : BitVec 16) (inp : Inpcb) : Option Nat :=
  if inp.inpLport ≠ lport then none
  else if inp.inpLaddr ≠ 0 ∧ laddr ≠ 0 ∧ inp.inpLaddr ≠ laddr then none
  else
    let local' := if inp.inpLaddr ≠ 0 then (if laddr = 0 then 1 else 0) else (if laddr ≠ 0 then 1 else 0)
    if inp.inpFaddr ≠ 0 ∧ faddr ≠ 0 ∧ (inp.inpFaddr ≠ faddr ∨ inp.inpFport ≠ fport) then none
    else some (local' + if inp.inpFaddr ≠ 0 then (if faddr = 0 then 1 else 0)
      else (if faddr ≠ 0 then 1 else 0))

/-- The loop of `in_pcblookup` from the block at place `i` on. -/
def lookupLoop (faddr laddr : BitVec 32) (fport lport : BitVec 16) (wild : Bool) :
    List Inpcb → Nat → Option Nat → Nat → Option Nat
  | [], _, found, _ => found
  | inp :: rest, i, found, matchwild =>
    match wildcard faddr laddr fport lport inp with
    | none => lookupLoop faddr laddr fport lport wild rest (i + 1) found matchwild
    | some w =>
      if w ≠ 0 ∧ wild = false then lookupLoop faddr laddr fport lport wild rest (i + 1) found matchwild
      else if w < matchwild then
        if w = 0 then some i else lookupLoop faddr laddr fport lport wild rest (i + 1) (some i) w
      else lookupLoop faddr laddr fport lport wild rest (i + 1) found matchwild

/-- `in_pcblookup`: the place of the block. -/
def inPcblookup (pcbs : List Inpcb) (faddr : BitVec 32) (fport : BitVec 16) (laddr : BitVec 32)
    (lport : BitVec 16) (wild : Bool) : Option Nat :=
  lookupLoop faddr laddr fport lport wild pcbs 0 none 3

/-! ## `in_pcbbind` -/

/-- `IN_MULTICAST`, of an address in network byte order. -/
def inMulticast (addr : BitVec 32) : Bool := decide (addr.extractLsb' 28 4 = 0xe)

/-- `tn_ifwithaddr`. -/
def tnIfwithaddr (tnet : Netifs) (addr : BitVec 32) : Option Netif :=
  tnet.netifList.find? fun ni =>
    decide (addr = ni.ipAddr) || (ni.broadcast && decide (ni.ifBroadaddr ≠ 0 ∧ ni.ifBroadaddr = addr))

/-- `tn_ip_route`. -/
def tnIpRoute (tnet : Netifs) (dst : BitVec 32) : Option Netif :=
  match tnet.netifList.find? fun ni =>
    ni.up && decide (dst &&& ni.netmask = ni.ipAddr &&& ni.netmask) with
  | some ni => some ni
  | none => tnet.netifDefault.filter fun ni => ni.up

/-- The step of the port counter: `inp_lport++` in the first comparison. -/
def nextPort (inpLport : BitVec 16) : BitVec 16 :=
  if inpLport.toNat < IPPORT_RESERVED ∨ IPPORT_USERRESERVED < (inpLport + 1).toNat then
    BitVec.ofNat 16 IPPORT_RESERVED
  else inpLport + 1

/-- The search for a port that is not in use: the port counter behind it.  The number bounds the turns. -/
def portLoop (pcbs : List Inpcb) (laddr : BitVec 32) : Nat → BitVec 16 → Option (BitVec 16)
  | 0, _ => none
  | fuel + 1, inpLport =>
    let inpLport := nextPort inpLport
    if (inPcblookup pcbs 0 0 laddr (htons inpLport) false).isSome then portLoop pcbs laddr fuel inpLport
    else some inpLport

/-- The return value of a call, and the list behind it. -/
structure Pcbd where
  rc : Int
  s : Inpcbs
  deriving DecidableEq, Repr

/-- The part of `in_pcbbind` in which `inp_laddr` is set. -/
def bindAddr (tnet : Netifs) (s : Inpcbs) (i : Nat) (inp : Inpcb) (nam : Nam) : Except Int Inpcbs :=
  if nam.mLen ≠ sockaddrInSize then .error EINVAL
  else if inMulticast nam.sinAddr = false ∧ nam.sinAddr ≠ 0 ∧ (tnIfwithaddr tnet nam.sinAddr).isNone then
    .error EADDRNOTAVAIL
  else
    let t := if nam.sinPort ≠ 0 then
      (inPcblookup s.pcbs 0 0 nam.sinAddr nam.sinPort false).bind fun j => s.pcbs[j]? else none
    if t.any fun t => !(inp.reuseport && t.reuseport) then .error EADDRINUSE
    else .ok { s with pcbs := s.pcbs.set i { inp with inpLaddr := nam.sinAddr } }

/-- The part of `in_pcbbind` in which `inp_lport` is set. -/
def bindPort (fuel : Nat) (s : Inpcbs) (i : Nat) (lport : BitVec 16) : Option Pcbd :=
  match s.pcbs[i]? with
  | none => some ⟨EINVAL, s⟩
  | some inp =>
    if lport = 0 then
      (portLoop s.pcbs inp.inpLaddr fuel s.inpLport).map fun inpLport =>
        ⟨0, inpLport, s.pcbs.set i { inp with inpLport := htons inpLport }⟩
    else some ⟨0, { s with pcbs := s.pcbs.set i { inp with inpLport := lport } }⟩

/-- `in_pcbbind` for the block at place `i`; there is no result when the search for a port takes more than
    `fuel` turns. -/
def inPcbbind (tnet : Netifs) (fuel : Nat) (s : Inpcbs) (i : Nat) (nam : Option Nam) : Option Pcbd :=
  match s.pcbs[i]? with
  | none => some ⟨EINVAL, s⟩
  | some inp =>
    if inp.inpLport ≠ 0 ∨ inp.inpLaddr ≠ 0 then some ⟨EINVAL, s⟩
    else
      match nam with
      | none => bindPort fuel s i 0
      | some nam =>
        match bindAddr tnet s i inp nam with
        | .error rc => some ⟨rc, s⟩
        | .ok s => bindPort fuel s i nam.sinPort

/-! ## `in_pcbconnect` -/

/-- The foreign address that is meant by the one in `nam`. -/
def connectAddr (tnet : Netifs) (addr : BitVec 32) : BitVec 32 :=
  match tnet.netifDefault with
  | none => addr
  | some ni =>
    if ni.up then
      if addr = 0 then ni.ipAddr
      else if addr = BitVec.allOnes 32 ∧ ni.broadcast then ni.ifBroadaddr
      else addr
    else addr

/-- The part of `in_pcbconnect` behind its checks; `ifAddr` is the address of the interface. -/
def connectTo (tnet : Netifs) (fuel : Nat) (s : Inpcbs) (i : Nat) (inp : Inpcb) (ifAddr addr : BitVec 32)
    (port : BitVec 16) : Option Pcbd :=
  if (inPcblookup s.pcbs addr port (if inp.inpLaddr ≠ 0 then inp.inpLaddr else ifAddr) inp.inpLport
      false).isSome then some ⟨EADDRINUSE, s⟩
  else
    let bound := if inp.inpLaddr = 0 ∧ inp.inpLport = 0 then (inPcbbind tnet fuel s i none).map Pcbd.s
      else some s
    bound.map fun s =>
      ⟨0, { s with pcbs := s.pcbs.modify i fun b =>
        { b with inpLaddr := if inp.inpLaddr = 0 then ifAddr else b.inpLaddr, inpFaddr := addr,
                 inpFport := port } }⟩

/-- `in_pcbconnect`. -/
def inPcbconnect (tnet : Netifs) (fuel : Nat) (s : Inpcbs) (i : Nat) (nam : Nam) : Option Pcbd :=
  match s.pcbs[i]? with
  | none => some ⟨EINVAL, s⟩
  | some inp =>
    if nam.mLen ≠ sockaddrInSize then some ⟨EINVAL, s⟩
    else if nam.sinFamily ≠ AF_INET then some ⟨EAFNOSUPPORT, s⟩
    else if nam.sinPort = 0 then some ⟨EADDRNOTAVAIL, s⟩
    else
      let addr := connectAddr tnet nam.sinAddr
      if inp.inpLaddr = 0 then
        match tnIpRoute tnet addr with
        | none => some ⟨EADDRNOTAVAIL, s⟩
        | some ni => connectTo tnet fuel s i inp ni.ipAddr addr nam.sinPort
      else connectTo tnet fuel s i inp 0 addr nam.sinPort

end TnNet.Pcb
