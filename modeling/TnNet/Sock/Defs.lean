import TnNet.Tcp.Defs

/-!
# TCP sockets and their blocks

The socket layer of `tn_tcp_sockets.c`, `tn_tcp_sockets2.c`, `tn_in_pcb.c` and `tn_tcp_subr.c`: the blocks a
socket is made of, how they are obtained, linked and given back.

A socket has four blocks: the `socket_tcp` and the `tcpcb` come from the pool of 128-byte blocks
(`m1buf_mpool`), the `socket_ex` and the `inpcb` from the pool of 32-byte blocks (`lobuf_mpool`).  The
state says of each block what it is in use as.  Every access of the source to one of these blocks is an
access here, and an access to a block that is not in use as what it is taken for is a fault, as is the
return of a block that is not in use.

Left out are the data in the buffers, the addresses and ports, the timers and the segments, the temporary
block of `sorflush`, and the wakeups apart from their access to the socket.
-/

set_option autoImplicit false

namespace TnSock

open TnNet (TcpState)

/-! ## Blocks -/

/-- The use of a 128-byte block. -/
inductive Mid1Use where
  | socket
  | tcpcb
  deriving DecidableEq, Repr

/-- The use of a 32-byte block. -/
inductive MinUse where
  | socketEx
  | inpcb
  deriving DecidableEq, Repr

/-- `struct socket_tcp`, the flags of `so_state` and `so_options` one by one. -/
structure SocketTcp (N M : Nat) where
  nofdref : Bool := false
  isConnected : Bool := false
  isConnecting : Bool := false
  isDisconnecting : Bool := false
  cantSendMore : Bool := false
  cantRcvMore : Bool := false
  nbio : Bool := false
  acceptConn : Bool := false
  linger : Bool := false
  soLinger : Int := 0
  soPcb : Option (Fin M) := none
  soHead : Option (Fin N) := none
  soQ0 : Option (Fin N) := none
  soQ : Option (Fin N) := none
  soQ0len : Int := 0
  soQlen : Int := 0
  soQlimit : Int := 0
  soError : Nat := 0
  sndHiwat : Nat := 0
  rcvHiwat : Nat := 0
  socketEx : Option (Fin M) := none
  deriving DecidableEq, Repr

/-- `struct inpcb`. -/
structure Inpcb (N : Nat) where
  inpSocket : Option (Fin N) := none
  inpPpcb : Option (Fin N) := none
  deriving DecidableEq, Repr

/-- `struct tcpcb`. -/
structure Tcpcb (M : Nat) where
  tInpcb : Option (Fin M) := none
  tState : TcpState := .closed
  tSofterror : Nat := 0
  deriving DecidableEq, Repr

/-- What goes wrong in a call. -/
inductive Fault (N M : Nat) where
  /-- Access to a block that is not in use as what it is taken for. -/
  | freedMid1 (a : Fin N)
  | freedMin (a : Fin M)
  /-- Return of a block that is not in use. -/
  | mid1Twice (a : Fin N)
  | minTwice (a : Fin M)
  | nullPtr
  /-- `tn_net_panic`. -/
  | panic
  /-- A walk over more blocks than there are. -/
  | loop
  deriving DecidableEq, Repr

/-- The sockets: `N` 128-byte blocks and `M` 32-byte blocks, what each is in use as, and its contents. -/
structure Net (N M : Nat) where
  mid1 : Fin N → Option Mid1Use
  lo : Fin M → Option MinUse
  so : Fin N → SocketTcp N M
  tp : Fin N → Tcpcb M
  inp : Fin M → Inpcb N
  /-- The list behind `tnet->tcb`. -/
  tcb : List (Fin M)
  /-- The list `tnet->so_tcp_ex`. -/
  soTcpEx : List (Fin M)

variable {N M : Nat} {α β : Type}

/-- No block is in use. -/
def Net.init (N M : Nat) : Net N M where
  mid1 _ := none
  lo _ := none
  so _ := {}
  tp _ := {}
  inp _ := {}
  tcb := []
  soTcpEx := []

def Net.setSo (n : Net N M) (a : Fin N) (f : SocketTcp N M → SocketTcp N M) : Net N M :=
  { n with so := Function.update n.so a (f (n.so a)) }

def Net.setInp (n : Net N M) (i : Fin M) (f : Inpcb N → Inpcb N) : Net N M :=
  { n with inp := Function.update n.inp i (f (n.inp i)) }

def Net.setTp (n : Net N M) (t : Fin N) (f : Tcpcb M → Tcpcb M) : Net N M :=
  { n with tp := Function.update n.tp t (f (n.tp t)) }

def Net.useMid1 (n : Net N M) (a : Fin N) (u : Option Mid1Use) : Net N M :=
  { n with mid1 := Function.update n.mid1 a u }

def Net.useMin (n : Net N M) (i : Fin M) (u : Option MinUse) : Net N M :=
  { n with lo := Function.update n.lo i u }

/-! ## Calls -/

/-- A call: it ends with a value, or at a fault. -/
def Call (N M : Nat) (α : Type) := Net N M → Except (Fault N M) (α × Net N M)

instance : Monad (Call N M) where
  pure a n := .ok (a, n)
  bind x f n :=
    match x n with
    | .ok (a, n') => f a n'
    | .error e => .error e

def fail (e : Fault N M) : Call N M α := fun _ => .error e

def view (f : Net N M → α) : Call N M α := fun n => .ok (f n, n)

def change (f : Net N M → Net N M) : Call N M Unit := fun n => .ok ((), f n)

def deref : Option α → Call N M α
  | some a => pure a
  | none => fail .nullPtr

def onlyIf (c : Prop) [Decidable c] (x : Call N M Unit) : Call N M Unit := if c then x else pure ()

def readSo (a : Fin N) : Call N M (SocketTcp N M) := fun n =>
  if n.mid1 a = some .socket then .ok (n.so a, n) else .error (.freedMid1 a)

def writeSo (a : Fin N) (f : SocketTcp N M → SocketTcp N M) : Call N M Unit := fun n =>
  if n.mid1 a = some .socket then .ok ((), n.setSo a f) else .error (.freedMid1 a)

def readTp (t : Fin N) : Call N M (Tcpcb M) := fun n =>
  if n.mid1 t = some .tcpcb then .ok (n.tp t, n) else .error (.freedMid1 t)

def writeTp (t : Fin N) (f : Tcpcb M → Tcpcb M) : Call N M Unit := fun n =>
  if n.mid1 t = some .tcpcb then .ok ((), n.setTp t f) else .error (.freedMid1 t)

def readInp (i : Fin M) : Call N M (Inpcb N) := fun n =>
  if n.lo i = some .inpcb then .ok (n.inp i, n) else .error (.freedMin i)

def writeInp (i : Fin M) (f : Inpcb N → Inpcb N) : Call N M Unit := fun n =>
  if n.lo i = some .inpcb then .ok ((), n.setInp i f) else .error (.freedMin i)

/-- Access to a `socket_ex`. -/
def touchEx (e : Fin M) : Call N M Unit := fun n =>
  if n.lo e = some .socketEx then .ok ((), n) else .error (.freedMin e)

/-- Access to one block after the other. -/
def touchAll (touch : Fin M → Call N M Unit) : List (Fin M) → Call N M Unit
  | [] => pure ()
  | e :: es => do
    touch e
    touchAll touch es

/-! ## The pools -/

/-- `tn_net_alloc_mid1`; `r` is the block the pool has for the caller, if any.  A block in use is never
    given. -/
def tnNetAllocMid1 (r : Option (Fin N)) (u : Mid1Use) : Call N M (Option (Fin N)) := fun n =>
  match r with
  | some a => if n.mid1 a = none then .ok (some a, n.useMid1 a (some u)) else .ok (none, n)
  | none => .ok (none, n)

/-- `tn_net_alloc_min`. -/
def tnNetAllocMin (r : Option (Fin M)) (u : MinUse) : Call N M (Option (Fin M)) := fun n =>
  match r with
  | some a => if n.lo a = none then .ok (some a, n.useMin a (some u)) else .ok (none, n)
  | none => .ok (none, n)

/-- `tn_net_free_mid1`. -/
def tnNetFreeMid1 (a : Fin N) : Call N M Unit := fun n =>
  if n.mid1 a = none then .error (.mid1Twice a) else .ok ((), n.useMid1 a none)

/-- `tn_net_free_min`. -/
def tnNetFreeMin (a : Fin M) : Call N M Unit := fun n =>
  if n.lo a = none then .error (.minTwice a) else .ok ((), n.useMin a none)

/-! ## The queues of a listening socket -/

/-- `so_q0` and `so_q`. -/
inductive SoQ where
  | soQ0
  | soQ
  deriving DecidableEq, Repr

def SocketTcp.link (s : SocketTcp N M) : SoQ → Option (Fin N)
  | .soQ0 => s.soQ0
  | .soQ => s.soQ

def SocketTcp.setLink (s : SocketTcp N M) (x : Option (Fin N)) : SoQ → SocketTcp N M
  | .soQ0 => { s with soQ0 := x }
  | .soQ => { s with soQ := x }

def SocketTcp.addLen (s : SocketTcp N M) (d : Int) : SoQ → SocketTcp N M
  | .soQ0 => { s with soQ0len := s.soQ0len + d }
  | .soQ => { s with soQlen := s.soQlen + d }

/-- The walk of `soqinsque` to the last socket.  A walk over more than `N` blocks never ends. -/
def lastOf (q : SoQ) : Nat → Fin N → Call N M (Fin N)
  | 0, _ => fail .loop
  | fuel + 1, a => do
    let s ← readSo a
    match s.link q with
    | none => pure a
    | some b => lastOf q fuel b

/-- `soqinsque`. -/
def soqinsque (head so : Fin N) (q : SoQ) : Call N M Unit := do
  writeSo so fun s => { s with soHead := some head }
  writeSo head fun s => s.addLen 1 q
  writeSo so fun s => s.setLink none q
  let last ← lastOf q N head
  writeSo last fun s => s.setLink (some so) q

/-- The walk of `soqremque` to the socket before `so`. -/
def prevOf (q : SoQ) (so : Fin N) : Nat → Fin N → Call N M (Option (Fin N))
  | 0, _ => fail .loop
  | fuel + 1, prev => do
    let p ← readSo prev
    match p.link q with
    | none => pure none
    | some next => if next = so then pure (some prev) else prevOf q so fuel next

/-- `soqremque`. -/
def soqremque (so : Fin N) (q : SoQ) : Call N M Bool := do
  let s ← readSo so
  let head ← deref s.soHead
  match ← prevOf q so N head with
  | none => pure false
  | some prev =>
    let next ← readSo so
    writeSo prev fun p => p.setLink (next.link q) q
    writeSo head fun h => h.addLen (-1) q
    writeSo so fun s => { s with soQ0 := none, soQ := none, soHead := none }
    pure true

/-! ## Sockets -/

/-- The walk of `tn_socket_tcp_alloc` to the end of `so_tcp_ex`, and the new last entry. -/
def appendEx (e : Fin M) : Call N M Unit := do
  touchAll touchEx (← view fun n => n.soTcpEx)
  change fun n => { n with soTcpEx := n.soTcpEx ++ [e] }

/-- The walk of `tn_socket_tcp_release` to the entry, which leaves `so_tcp_ex`. -/
def unlinkEx (e : Fin M) : Call N M Unit := do
  touchAll touchEx (← view fun n => n.soTcpEx.takeWhile fun x => x ≠ e)
  touchEx e
  change fun n => { n with soTcpEx := n.soTcpEx.erase e }

/-- `tn_socket_tcp_alloc`, with the blocks the pools have for it. -/
def tnSocketTcpAlloc (rso : Option (Fin N)) (rex : Option (Fin M)) : Call N M (Option (Fin N)) := do
  match ← tnNetAllocMid1 rso .socket with
  | none => pure none
  | some so =>
    writeSo so fun _ => {}
    match ← tnNetAllocMin rex .socketEx with
    | none =>
      tnNetFreeMid1 so
      pure none
    | some e =>
      writeSo so fun s => { s with socketEx := some e }
      appendEx e
      pure (some so)

/-- `tn_socket_tcp_release`. -/
def tnSocketTcpRelease (so : Fin N) : Call N M Unit := do
  let s ← readSo so
  let e ← deref s.socketEx
  unlinkEx e
  touchEx e
  tnNetFreeMin e
  tnNetFreeMid1 so

/-- `sorflush`. -/
def sorflush (so : Fin N) : Call N M Unit :=
  writeSo so fun s => { s with cantRcvMore := true, rcvHiwat := 0 }

/-- `soqremque(tnet, so, 0) || soqremque(tnet, so, 1)`. -/
def soqremqueAny (so : Fin N) : Call N M Bool := do
  if ← soqremque so .soQ0 then pure true else soqremque so .soQ

/-- `sofree` takes the socket off the queue of its listening socket. -/
def sofreeDequeue (so : Fin N) : Call N M Unit := do
  if ← soqremqueAny so then
    writeSo so fun s => { s with soHead := none }
  else
    fail .panic

/-- `sofree`. -/
def sofree (so : Fin N) : Call N M Int := do
  let s ← readSo so
  onlyIf (s.nofdref = true) do
    touchEx (← deref s.socketEx)
  if s.soPcb ≠ none then
    pure (-1)
  else
    onlyIf (s.soHead ≠ none) (sofreeDequeue so)
    writeSo so fun s => { s with sndHiwat := 0 }
    sorflush so
    tnSocketTcpRelease so
    pure 0

/-- `tn_net_wakeup(&so->socket_ex->so_wait_sem)`. -/
def wakeSocket (so : Fin N) : Call N M Unit := do
  let s ← readSo so
  touchEx (← deref s.socketEx)

/-- `soisconnected`. -/
def soisconnected (so : Fin N) : Call N M Unit := do
  let s ← readSo so
  writeSo so fun s => { s with isConnecting := false, isDisconnecting := false, isConnected := true }
  match s.soHead with
  | none => wakeSocket so
  | some head =>
    if ← soqremque so .soQ0 then
      soqinsque head so .soQ
      wakeSocket head
    else
      wakeSocket so

/-- `soisdisconnecting`. -/
def soisdisconnecting (so : Fin N) : Call N M Unit := do
  writeSo so fun s =>
    { s with isConnecting := false, isDisconnecting := true, cantRcvMore := true, cantSendMore := true }
  wakeSocket so

/-- `soisdisconnected`. -/
def soisdisconnected (so : Fin N) : Call N M Unit := do
  writeSo so fun s =>
    { s with isConnecting := false, isConnected := false, isDisconnecting := false,
             cantRcvMore := true, cantSendMore := true }
  wakeSocket so

/-! ## Buffer space -/

def MSIZE : Nat := 128
def MCLBYTES : Nat := 1024

/-- `tnet->sb_max`. -/
def sbMax : Nat := 256 * 1024

/-- `tnet->tcp_sendspace`. -/
def tcpSendspace : Nat := 1024 * 4

/-- `tnet->tcp_recvspace`. -/
def tcpRecvspace : Nat := 1536

def ENOBUFS : Nat := 55
def EINVAL : Nat := 22
def EALREADY : Nat := 37
def ENOTCONN : Nat := 57
def ECONNABORTED : Nat := 53
def ETIMEDOUT : Nat := 60

/-- The test of `sbreserve`. -/
def sbFits (cc : Nat) : Bool := decide (cc ≤ sbMax * MCLBYTES / (MSIZE + MCLBYTES))

/-- `soreserve`. -/
def soreserve (so : Fin N) (sndcc rcvcc : Nat) : Call N M Nat := do
  if sbFits sndcc then
    writeSo so fun s => { s with sndHiwat := sndcc }
    if sbFits rcvcc then
      writeSo so fun s => { s with rcvHiwat := rcvcc }
      pure 0
    else
      writeSo so fun s => { s with sndHiwat := 0 }
      pure ENOBUFS
  else
    pure ENOBUFS

/-! ## Protocol control blocks -/

/-- Access to an `inpcb`. -/
def touchInp (i : Fin M) : Call N M Unit := do
  let _ ← readInp i
  pure ()

/-- `insque(inp, &tnet->tcb)`. -/
def insque (i : Fin M) : Call N M Unit := do
  touchAll touchInp (← view fun n => n.tcb.head?.toList)
  change fun n => { n with tcb := i :: n.tcb }

/-- The entries before and after an entry. -/
def adjacent (x : Fin M) : List (Fin M) → List (Fin M)
  | a :: b :: l =>
    if a = x then [b] else if b = x then a :: l.head?.toList else adjacent x (b :: l)
  | _ => []

/-- `remque(inp)`. -/
def remque (i : Fin M) : Call N M Unit := do
  touchInp i
  touchAll touchInp (← view fun n => adjacent i n.tcb)
  change fun n => { n with tcb := n.tcb.erase i }

/-- `in_pcballoc`, with the block the pool has for it. -/
def inPcballoc (so : Fin N) (r : Option (Fin M)) : Call N M Nat := do
  match ← tnNetAllocMin r .inpcb with
  | none => pure ENOBUFS
  | some i =>
    writeInp i fun _ => { inpSocket := some so }
    insque i
    writeSo so fun s => { s with soPcb := some i }
    pure 0

/-- `in_pcbdetach`. -/
def inPcbdetach (i : Fin M) : Call N M Unit := do
  let p ← readInp i
  let so ← deref p.inpSocket
  writeSo so fun s => { s with soPcb := none }
  let _ ← sofree so
  remque i
  tnNetFreeMin i

/-- `tcp_newtcpcb`. -/
def tcpNewtcpcb (i : Fin M) (r : Option (Fin N)) : Call N M (Option (Fin N)) := do
  match ← tnNetAllocMid1 r .tcpcb with
  | none => pure none
  | some t =>
    writeTp t fun _ => { tInpcb := some i }
    writeInp i fun p => { p with inpPpcb := some t }
    pure (some t)

/-- `tcp_attach` undoes a half-made attachment. -/
def tcpUnattach (so : Fin N) (i : Fin M) : Call N M Nat := do
  let nofd := (← readSo so).nofdref
  writeSo so fun s => { s with nofdref := false }
  inPcbdetach i
  writeSo so fun s => { s with nofdref := s.nofdref || nofd }
  pure ENOBUFS

/-- `tcp_attach` reserves buffer space for a socket that has none. -/
def attachReserve (so : Fin N) : Call N M Nat := do
  let s ← readSo so
  if s.sndHiwat = 0 ∨ s.rcvHiwat = 0 then soreserve so tcpSendspace tcpRecvspace else pure 0

/-- `tcp_attach`, with the blocks the pools have for it. -/
def tcpAttach (so : Fin N) (rinp : Option (Fin M)) (rtp : Option (Fin N)) : Call N M Nat := do
  let error ← attachReserve so
  if error ≠ 0 then
    pure error
  else
    let error ← inPcballoc so rinp
    if error ≠ 0 then
      pure error
    else
      let i ← deref (← readSo so).soPcb
      match ← tcpNewtcpcb i rtp with
      | none => tcpUnattach so i
      | some t =>
        writeTp t fun t => { t with tState := .closed }
        pure 0

/-! ## Closing a connection -/

/-- `tp->t_inpcb->inp_socket`. -/
def socketOf (t : Fin N) : Call N M (Fin N) := do
  let i ← deref (← readTp t).tInpcb
  deref (← readInp i).inpSocket

/-- `tcp_close`. -/
def tcpClose (t : Fin N) : Call N M Unit := do
  let i ← deref (← readTp t).tInpcb
  let so ← deref (← readInp i).inpSocket
  tnNetFreeMid1 t
  writeInp i fun p => { p with inpPpcb := none }
  soisdisconnected so
  inPcbdetach i

/-- `tcp_drop`. -/
def tcpDrop (t : Fin N) (errno : Nat) : Call N M Unit := do
  let so ← socketOf t
  let tcb ← readTp t
  onlyIf (tcb.tState.haveRcvdSyn = true) do
    writeTp t fun t => { t with tState := .closed }
  let errno := if errno = ETIMEDOUT ∧ tcb.tSofterror ≠ 0 then tcb.tSofterror else errno
  writeSo so fun s => { s with soError := errno }
  tcpClose t

/-- The state `tcp_usrclosed` moves to from an open connection. -/
def usrclosedState : TcpState → TcpState
  | .synReceived | .established => .finWait1
  | .closeWait => .lastAck
  | s => s

/-- `tcp_usrclosed`; the result says whether the control block is still there. -/
def tcpUsrclosed (t : Fin N) : Call N M Bool := do
  let tcb ← readTp t
  if tcb.tState = .closed ∨ tcb.tState = .listen ∨ tcb.tState = .synSent then
    writeTp t fun t => { t with tState := .closed }
    tcpClose t
    pure false
  else
    writeTp t fun t => { t with tState := usrclosedState t.tState }
    onlyIf (TcpState.finWait2.num ≤ (usrclosedState tcb.tState).num) do
      soisdisconnected (← socketOf t)
    pure true

/-- `tcp_disconnect`. -/
def tcpDisconnect (t : Fin N) : Call N M Unit := do
  let so ← socketOf t
  let tcb ← readTp t
  if ¬ tcb.tState.haveEstablished then
    tcpClose t
  else
    let s ← readSo so
    if s.linger ∧ s.soLinger = 0 then
      tcpDrop t 0
    else
      soisdisconnecting so
      let _ ← tcpUsrclosed t
      pure ()

/-- `sodisconnect`. -/
def sodisconnect (so : Fin N) : Call N M Nat := do
  let s ← readSo so
  match s.soPcb with
  | none => pure EINVAL
  | some i =>
    match (← readInp i).inpPpcb with
    | none => pure EINVAL
    | some t =>
      if ¬ s.isConnected then
        pure ENOTCONN
      else if s.isDisconnecting then
        pure EALREADY
      else
        tcpDisconnect t
        pure 0

end TnSock
