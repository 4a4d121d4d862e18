import TnNet.Tcp.Output

/-!
# Socket states, `tcp_close`, `tcp_drop`, `tcp_disconnect`

The state changes of `tn_tcp_sockets2.c` (`soisconnected`, `soisdisconnected`, ...) and the
functions of `tn_tcp_subr.c` that end a connection.

A function that may release the control block returns a `Res`: the connection it leaves, whether
the block is gone, and the calls of `tcp_output` made on the way.
-/

set_option autoImplicit false

namespace TnNet

/-! ## Socket states -/

/-- `soisconnected`, on the flags of `so_state`. -/
def soisconnected (so : SocketTcp) : SocketTcp :=
  { so with ssIsconnecting := false, ssIsdisconnecting := false, ssIsconnected := true }

/-- `soisdisconnected`. -/
def soisdisconnected (so : SocketTcp) : SocketTcp :=
  { so with
    ssIsconnecting := false, ssIsconnected := false, ssIsdisconnecting := false
    ssCantrcvmore := true, ssCantsendmore := true }

/-- `soisdisconnecting`. -/
def soisdisconnecting (so : SocketTcp) : SocketTcp :=
  { so with
    ssIsconnecting := false, ssIsdisconnecting := true
    ssCantrcvmore := true, ssCantsendmore := true }

/-- `socantsendmore`. -/
def socantsendmore (so : SocketTcp) : SocketTcp := { so with ssCantsendmore := true }

/-- `socantrcvmore`. -/
def socantrcvmore (so : SocketTcp) : SocketTcp := { so with ssCantrcvmore := true }

/-- `sorflush`: the receive buffer is zeroed, its limits included. -/
def sorflush (so : SocketTcp) : SocketTcp :=
  { so with ssCantrcvmore := true, soRcv := { sbLog := so.soRcv.sbLog } }

/-! ## Ending a connection -/

/-- What a function leaves of a connection. -/
structure Res where
  conn : Conn
  gone : Bool := false
  calls : List OutCall := []

/-- The connection, while its control block exists. -/
def Res.next (r : Res) : Option Conn := if r.gone then none else some r.conn

/-- The result of a call of `tcp_output`. -/
def callOutput (env : Nat → SendEnv) (c : Conn) : Res :=
  ⟨(tcpOutput env c).conn, false, [⟨env, c⟩]⟩

/-- `tcp_close`, on the connection: the block is released by the caller's `gone`. -/
def tcpClose (c : Conn) : Conn :=
  { tp := { tcpCanceltimers c.tp with tSegq := [], tTemplate := false }
    so := soisdisconnected c.so }

/-- `tcp_drop`. -/
def tcpDrop (env : Nat → SendEnv) (errno : Int) (c : Conn) : Res :=
  let r : Res :=
    if c.tp.tState.haveRcvdSyn then callOutput env { c with tp := { c.tp with tState := .closed } }
    else ⟨c, false, []⟩
  let errno :=
    if errno = ETIMEDOUT ∧ r.conn.tp.tSofterror ≠ 0 then r.conn.tp.tSofterror else errno
  ⟨tcpClose { r.conn with so := { r.conn.so with soError := errno } }, true, r.calls⟩

/-- The state `tcp_usrclosed` moves to. -/
def usrclosedState : TcpState → TcpState
  | .closed => .closed
  | .listen => .closed
  | .synSent => .closed
  | .synReceived => .finWait1
  | .established => .finWait1
  | .closeWait => .lastAck
  | s => s

/-- `tcp_usrclosed`. -/
def tcpUsrclosed (c : Conn) : Res :=
  let c1 := { c with tp := { c.tp with tState := usrclosedState c.tp.tState } }
  if c1.tp.tState = .closed then ⟨tcpClose c1, true, []⟩
  else if TcpState.finWait2.num ≤ c1.tp.tState.num then
    ⟨{ c1 with so := soisdisconnected c1.so }, false, []⟩
  else ⟨c1, false, []⟩

/-- `tp = tcp_usrclosed(tp); if(tp) tcp_output(tp)`. -/
def usrclosedOutput (env : Nat → SendEnv) (c : Conn) : Res :=
  if (tcpUsrclosed c).gone then tcpUsrclosed c else callOutput env (tcpUsrclosed c).conn

/-- `tcp_disconnect`. -/
def tcpDisconnect (env : Nat → SendEnv) (c : Conn) : Res :=
  if c.tp.tState.num < TcpState.established.num then ⟨tcpClose c, true, []⟩
  else if c.so.soLingerOpt ∧ c.so.soLinger = 0 then tcpDrop env 0 c
  else
    let so := soisdisconnecting c.so
    usrclosedOutput env { c with so := { so with soRcv := sbflush so.soRcv } }

end TnNet
