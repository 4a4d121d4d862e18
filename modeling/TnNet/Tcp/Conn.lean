import TnNet.Lib.Run
import TnNet.Tcp.Timer

/-!
# A connection as a machine

The user calls of `tn_tcp_sockets.c` on a connection, and the machine whose events are arriving
segments, timer ticks, calls of `tcp_output` and user calls.  A run starts where the code starts
a connection: in `soconnect` behind `tcp_sendseqinit` (`activeOpen`) or with a socket that
`sonewconn` has made for a listener (`passiveOpen`).

`tcp_s_send` appends and sends at most 128 bytes at a time while it holds the lock; `tcpSSend` is
one such round.  `tcp_s_close` may wait between `sodisconnect` and the label `drop`; its two
halves are the events `disconnect` and `detach`.
-/

set_option autoImplicit false

namespace TnNet

/-! ## User calls -/

/-- One round of `tcp_s_send`. -/
def tcpSSend (data : List UInt8) (oob : Bool) (env : Nat → SendEnv) (c : Conn) : Res :=
  if c.so.ssCantsendmore ∨ c.so.soError ≠ 0 ∨ ¬ c.so.ssIsconnected ∨ sbspace c.so.soSnd ≤ 0 ∨
      data = [] then ⟨c, false, []⟩
  else
    let so := { c.so with soSnd := sbappend c.so.soSnd [{ mData := data.take 128 }] }
    if oob then
      forceOutput env
        { tp := { c.tp with sndUp := c.tp.sndUna + BitVec.ofNat 32 so.soSnd.sbCc }, so := so }
    else callOutput env { c with so := so }

/-- `tcp_s_recv`; without `env` it has returned in front of `tcp_output` (zero copy without
    memory). -/
def tcpSRecv (n : Nat) (env : Option (Nat → SendEnv)) (c : Conn) : Res :=
  if c.so.soRcv.sbData = [] ∨
      (¬ c.so.ssCantrcvmore ∧ ¬ c.so.ssIsconnected ∧ ¬ c.so.ssIsconnecting) then ⟨c, false, []⟩
  else
    let c1 := { c with so := { c.so with soRcv := sbdrop c.so.soRcv n } }
    match env with
    | some env => callOutput env c1
    | none => ⟨c1, false, []⟩

/-- `tcp_s_shutdown`. -/
def tcpSShutdown (rd wr : Bool) (env : Nat → SendEnv) (c : Conn) : Res :=
  let c1 := if rd then { c with so := sorflush c.so } else c
  if wr then usrclosedOutput env { c1 with so := socantsendmore c1.so } else ⟨c1, false, []⟩

/-- `sodisconnect`, as `tcp_s_close` calls it. -/
def sodisconnect (env : Nat → SendEnv) (c : Conn) : Res :=
  if ¬ c.so.ssIsconnected ∨ c.so.ssIsdisconnecting then ⟨c, false, []⟩ else tcpDisconnect env c

/-- `tcp_s_close` from the label `drop`. -/
def tcpDetach (env : Nat → SendEnv) (c : Conn) : Res :=
  let r := if TcpState.listen.num < c.tp.tState.num then tcpDisconnect env c
    else ⟨tcpClose c, true, []⟩
  { r with conn := { r.conn with so := { r.conn.so with ssNofdref := true } } }

/-- The limit of `sbreserve`: `sb_max * MCLBYTES / (MSIZE + MCLBYTES)`. -/
def sbreserveMax : Nat := 233016

/-- `sbreserve`. -/
def sbreserve (sb : Sockbuf) (cc : Nat) : Sockbuf :=
  if sbreserveMax < cc then sb else { sb with sbHiwat := cc }

/-- The socket options the protocol code reads. -/
inductive Sockopt where
  | sndbuf (cc : Nat)
  | rcvbuf (cc : Nat)
  | keepalive (on : Bool)
  | linger (on : Bool) (time : Int)

/-- `s_setsockopt`. -/
def setsockopt (so : SocketTcp) : Sockopt → SocketTcp
  | .sndbuf cc => { so with soSnd := sbreserve so.soSnd cc }
  | .rcvbuf cc => { so with soRcv := sbreserve so.soRcv cc }
  | .keepalive on => { so with soKeepalive := on }
  | .linger on time => { so with soLingerOpt := on, soLinger := time }

/-! ## The machine -/

/-- What can happen to a connection. -/
inductive Event where
  | input (e : InEnv) (s : Seg)
  | output (env : Nat → SendEnv)
  | slowtimo (env : Nat → Nat → SendEnv)
  | fasttimo (env : Nat → SendEnv)
  | send (data : List UInt8) (oob : Bool) (env : Nat → SendEnv)
  | recv (n : Nat) (env : Option (Nat → SendEnv))
  | shutdown (rd wr : Bool) (env : Nat → SendEnv)
  | disconnect (env : Nat → SendEnv)
  | detach (env : Nat → SendEnv)
  | accept
  | sockopt (o : Sockopt)

/-- One event. -/
def connStep (c : Conn) : Event → Res
  | .input e s => tcpInput e s c
  | ev =>
    -- a socket in state LISTEN lives inside the call of `tcp_input` that has made it
    if c.tp.tState = .listen then ⟨c, false, []⟩
    else
      match ev with
      | .input e s => tcpInput e s c
      | .output env => callOutput env c
      | .slowtimo env => tcpSlowtimo env c
      | .fasttimo env => tcpFasttimo env c
      | .send data oob env => tcpSSend data oob env c
      | .recv n env => tcpSRecv n env c
      | .shutdown rd wr env => tcpSShutdown rd wr env c
      | .disconnect env => sodisconnect env c
      | .detach env => tcpDetach env c
      | .accept => ⟨{ c with so := { c.so with ssNofdref := false } }, false, []⟩
      | .sockopt o => ⟨{ c with so := setsockopt c.so o }, false, []⟩

/-- The step of the machine; the observations are the calls of `tcp_output`. -/
def connMachine : Machine.Step Conn Event OutCall := fun c ev =>
  ((connStep c ev).next, (connStep c ev).calls)

/-- A socket no connection has used. -/
structure FreshSocket (so : SocketTcp) : Prop where
  snd_data : so.soSnd.sbData = []
  snd_log : so.soSnd.sbLog = []
  snd_hiwat : so.soSnd.sbHiwat ≤ sbreserveMax
  rcv_data : so.soRcv.sbData = []
  rcv_log : so.soRcv.sbLog = []
  rcv_hiwat : so.soRcv.sbHiwat ≤ sbreserveMax
  isconnected : so.ssIsconnected = false

/-- A socket in `soconnect`, behind `tcp_sendseqinit`. -/
def activeOpen (iss : BitVec 32) (so : SocketTcp) : Conn :=
  { tp := tcpSendseqinit
      { tcpNewtcpcb with
        tTemplate := true, tState := .synSent, timerKeep := TCPTV_KEEP_INIT, iss := iss }
    so := { so with ssIsconnected := false, ssIsdisconnecting := false, ssIsconnecting := true } }

/-- A socket made by `sonewconn` in `tcp_input`. -/
def passiveOpen (so : SocketTcp) : Conn :=
  { tp := { tcpNewtcpcb with tState := .listen }, so := so }

/-- Where a connection starts. -/
inductive Start : Conn → Prop where
  | active (iss : BitVec 32) (so : SocketTcp) (h : FreshSocket so) : Start (activeOpen iss so)
  | passive (so : SocketTcp) (h : FreshSocket so) : Start (passiveOpen so)

/-- A socket as `tcp_s_socket` makes it. -/
def newSocket : SocketTcp := { soSnd := { sbHiwat := 4096 }, soRcv := { sbHiwat := 1536 } }

theorem newSocket_fresh : FreshSocket newSocket := by constructor <;> decide

/-- The SYN of an active open with `iss = 1` and the SYN of the peer that acknowledges it. -/
def connectEvents (win : BitVec 16) : List Event :=
  [.output fun _ => {},
   .input {} (Seg.bare { thSeq := 100, thAck := 2, thFlags := { syn := true, ack := true }, thWin := win })]

end TnNet
