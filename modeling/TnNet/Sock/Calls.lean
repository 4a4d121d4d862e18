import TnNet.Sock.Defs
import TnNet.Lib.Run

/-!
# The socket calls

`sonewconn`, which `tcp_input` calls for a SYN to a listening socket, and the user's calls `tcp_s_socket`,
`tcp_s_listen`, `tcp_s_accept` and `tcp_s_close`.
-/

set_option autoImplicit false

namespace TnSock

open TnNet (TcpState)

variable {N M : Nat}

/-- The blocks the pools have for the four requests of a new socket. -/
structure Grants (N M : Nat) where
  so : Option (Fin N)
  ex : Option (Fin M)
  inp : Option (Fin M)
  tp : Option (Fin N)

def TCP_LINGERTIME : Int := 120

def lingerDefault (s : SocketTcp N M) : SocketTcp N M :=
  if s.linger ∧ s.soLinger = 0 then { s with soLinger := TCP_LINGERTIME } else s

/-- The new socket of `sonewconn` takes over the options and the state of the listening one. -/
def cloneOf (h s : SocketTcp N M) : SocketTcp N M :=
  { s with
    linger := h.linger, acceptConn := false, soLinger := h.soLinger
    isConnected := h.isConnected, isConnecting := h.isConnecting, isDisconnecting := h.isDisconnecting
    cantSendMore := h.cantSendMore, cantRcvMore := h.cantRcvMore, nbio := h.nbio, nofdref := true }

/-- `sonewconn` from `tcp_attach` on. -/
def newconnAttach (so : Fin N) (g : Grants N M) : Call N M (Option (Fin N)) := do
  let rc ← tcpAttach so g.inp g.tp
  if rc ≠ 0 then
    let _ ← soqremque so .soQ0
    tnSocketTcpRelease so
    pure none
  else
    writeSo so lingerDefault
    pure (some so)

/-- `sonewconn`.  `so_qlimit` is never negative. -/
def sonewconn (head : Fin N) (g : Grants N M) : Call N M (Option (Fin N)) := do
  let h ← readSo head
  if h.soQlen + h.soQ0len > 3 * h.soQlimit / 2 then
    pure none
  else
    match ← tnSocketTcpAlloc g.so g.ex with
    | none => pure none
    | some so =>
      writeSo so (cloneOf h)
      let _ ← soreserve so h.sndHiwat h.rcvHiwat
      soqinsque head so .soQ0
      newconnAttach so g

def AF_INET : Int := 2
def SOCK_STREAM : Int := 1

/-- `tcp_s_socket`; `avail` is the result of `tn_tcp_check_avaliable_mem`. -/
def tcpSSocket (domain type : Int) (avail : Bool) (g : Grants N M) : Call N M (Option (Fin N)) := do
  if domain ≠ AF_INET ∨ type ≠ SOCK_STREAM ∨ avail = false then
    pure none
  else
    match ← tnSocketTcpAlloc g.so g.ex with
    | none => pure none
    | some so =>
      let rc ← tcpAttach so g.inp g.tp
      if rc ≠ 0 then
        writeSo so fun s => { s with nofdref := true }
        let _ ← sofree so
        pure none
      else
        writeSo so lingerDefault
        pure (some so)

def SOMAXCONN : Int := 5

/-- `tcp_s_listen`; `rc` is the result of `in_pcbbind`, which is called for a socket with no port. -/
def tcpSListen (s : Fin N) (backlog : Int) (rc : Nat) : Call N M Int := do
  match (← readSo s).soPcb with
  | none => pure (-EINVAL)
  | some i =>
    let p ← readInp i
    if rc ≠ 0 then
      pure (-rc)
    else
      match p.inpPpcb with
      | none => pure (-EINVAL)
      | some t =>
        writeTp t fun t => { t with tState := .listen }
        writeSo s fun s =>
          { s with
            acceptConn := s.acceptConn || s.soQ.isNone
            soQlimit := min (max backlog 0) SOMAXCONN }
        pure 0

/-- The end of `tcp_s_accept`, or that it waits. -/
inductive Accepted (N : Nat) where
  | error
  | wait
  | socket (a : Fin N)
  deriving DecidableEq, Repr

/-- `tcp_s_accept` takes the first socket off `so_q`. -/
def acceptFirst (i : Fin M) (so : SocketTcp N M) : Call N M (Accepted N) := do
  let aso ← deref so.soQ
  if ← soqremque aso .soQ then
    let a ← readSo aso
    if a.nofdref then
      writeSo aso fun s => { s with nofdref := false }
      touchInp i
      pure (.socket aso)
    else
      fail .panic
  else
    fail .panic

/-- `tcp_s_accept`; `nam` says whether there is an mbuf for the peer's address. -/
def tcpSAccept (s : Fin N) (nam : Bool) : Call N M (Accepted N) := do
  let so ← readSo s
  match so.soPcb with
  | none => pure .error
  | some i =>
    if ¬ so.acceptConn ∨ (so.nbio ∧ so.soQlen = 0) then
      pure .error
    else if so.soQlen = 0 ∧ so.soError = 0 ∧ ¬ so.cantRcvMore then
      touchEx (← deref so.socketEx)
      pure .wait
    else if so.soQlen = 0 ∨ so.soError ≠ 0 then
      writeSo s fun s => { s with soError := 0 }
      pure .error
    else if nam then
      acceptFirst i so
    else
      pure .error

/-- The loops of `tcp_s_close` over the queues of a listening socket. -/
def abortQueue (q : SoQ) (so t : Fin N) : Nat → Call N M Unit
  | 0 => fail .loop
  | fuel + 1 => do
    let s ← readSo so
    onlyIf (s.link q ≠ none) do
      tcpDrop t ECONNABORTED
      abortQueue q so t fuel

/-- The return value of `tcp_s_close`, or that it waits for the connection to end. -/
inductive Closed where
  | done (rc : Int)
  | wait
  deriving DecidableEq, Repr

/-- `tcp_s_close` from the label `drop` on. -/
def closeDrop (so t : Fin N) (error : Nat) : Call N M Closed := do
  let s ← readSo so
  onlyIf (s.soPcb ≠ none) do
    let tcb ← readTp t
    if TcpState.listen.num < tcb.tState.num then tcpDisconnect t else tcpClose t
  writeSo so fun s => { s with nofdref := true }
  let _ ← sofree so
  pure (.done (-error))

/-- `tcp_s_close` waits for a connection that lingers. -/
def closeLinger (so t : Fin N) : Call N M Closed := do
  let s ← readSo so
  if s.linger ∧ ¬ (s.isDisconnecting ∧ s.nbio) ∧ s.isConnected then
    touchEx (← deref s.socketEx)
    pure .wait
  else
    closeDrop so t 0

/-- `tcp_s_close` behind its loops. -/
def closeSocket (so t : Fin N) : Call N M Closed := do
  let s ← readSo so
  if s.soPcb = none then
    writeSo so fun s => { s with nofdref := true }
    let _ ← sofree so
    pure (.done 0)
  else if ¬ s.isConnected then
    closeDrop so t 0
  else if s.isDisconnecting then
    closeLinger so t
  else
    let error ← sodisconnect so
    if error ≠ 0 then closeDrop so t error else closeLinger so t

/-- `tcp_s_close`. -/
def tcpSClose (so : Fin N) : Call N M Closed := do
  let s ← readSo so
  match s.soPcb with
  | none => pure (.done (-EINVAL))
  | some i =>
    match (← readInp i).inpPpcb with
    | none => pure (.done (-EINVAL))
    | some t =>
      if s.nofdref then
        pure (.done 0)
      else
        onlyIf (s.acceptConn = true) do
          abortQueue .soQ0 so t (N + 1)
          abortQueue .soQ so t (N + 1)
        closeSocket so t

end TnSock
