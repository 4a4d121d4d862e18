import TnNet.Tcp.Input

/-!
# TCP timers

Transcription of `tn_tcp_timer.c` for one connection: `tcp_timers`, the body of the loops of
`tcp_slowtimo` and `tcp_fasttimo`.  A timer is a `short`; `timerTick` is the test
`t_timer[i] && --t_timer[i] == 0`.
-/

set_option autoImplicit false

namespace TnNet

/-- The control block with which a retransmit timeout calls `tcp_output`. -/
def rexmtTp (tp : Tcpcb) : Tcpcb :=
  let shift := tp.tRxtshift + 1
  let rxtcur := rangeset (tcpRexmtval tp * tcpBackoff shift) tp.tRttmin TCPTV_REXMTMAX
  { tp with
    tRxtshift := shift
    tRxtcur := rxtcur
    timerRexmt := rxtcur
    tRttvar := if TCP_MAXRXTSHIFT / 4 < shift then s16 (tp.tRttvar + tp.tSrtt / 8) else tp.tRttvar
    tSrtt := if TCP_MAXRXTSHIFT / 4 < shift then 0 else tp.tSrtt
    sndNxt := tp.sndUna
    tRtt := 0
    sndCwnd := BitVec.ofNat 32 tp.tMaxseg
    sndSsthresh := halfWindow tp
    tDupacks := 0 }

/-- `tcp_timers(TCPT_REXMT)`. -/
def timersRexmt (env : Nat → SendEnv) (c : Conn) : Res :=
  if TCP_MAXRXTSHIFT < c.tp.tRxtshift + 1 then
    tcpDrop env (if c.tp.tSofterror ≠ 0 then c.tp.tSofterror else ETIMEDOUT)
      { c with tp := { c.tp with tRxtshift := TCP_MAXRXTSHIFT } }
  else callOutput env { c with tp := rexmtTp c.tp }

/-- `t_force = 1; tcp_output(tp); t_force = 0`. -/
def forceOutput (env : Nat → SendEnv) (c : Conn) : Res :=
  let r := callOutput env { c with tp := { c.tp with tForce := true } }
  { r with conn := { r.conn with tp := { r.conn.tp with tForce := false } } }

/-- `tcp_timers(TCPT_PERSIST)`. -/
def timersPersist (env : Nat → SendEnv) (c : Conn) : Res :=
  forceOutput env { c with tp := tcpSetpersist c.tp }

/-- `tcp_timers(TCPT_KEEP)`. -/
def timersKeep (env : Nat → SendEnv) (c : Conn) : Res :=
  if c.tp.tState.num < TcpState.established.num then tcpDrop env ETIMEDOUT c
  else if c.so.soKeepalive ∧ c.tp.tState.num ≤ TcpState.closeWait.num then
    if tcpKeepidle + tcpMaxidle ≤ c.tp.tIdle then tcpDrop env ETIMEDOUT c
    else ⟨{ c with tp := { c.tp with timerKeep := tcpKeepintvl } }, false, []⟩
  else ⟨{ c with tp := { c.tp with timerKeep := tcpKeepidle } }, false, []⟩

/-- `tcp_timers(TCPT_2MSL)`. -/
def timers2msl (c : Conn) : Res := ⟨tcpClose c, true, []⟩

/-- The timer after a tick. -/
def timerTick (t : Int) : Int := if t = 0 then 0 else s16 (t - 1)

/-- Has the timer expired with this tick? -/
def timerExpired (t : Int) : Bool := decide (t ≠ 0) && decide (s16 (t - 1) = 0)

theorem timerTick_zero {t : Int} (h : t = 0) : timerTick t = 0 := by simp [timerTick, h]

theorem timerExpired_ne {t : Int} (h : timerExpired t = true) : t ≠ 0 := by
  simp only [timerExpired, Bool.and_eq_true, decide_eq_true_eq] at h
  exact h.1

/-- Continue with `f` while the control block exists. -/
def Res.andThen (r : Res) (f : Conn → Res) : Res :=
  if r.gone then r
  else { f r.conn with calls := r.calls ++ (f r.conn).calls }

/-- The tick of `TCPT_REXMT`. -/
def tickRexmt (env : Nat → SendEnv) (c : Conn) : Res :=
  let c1 := { c with tp := { c.tp with timerRexmt := timerTick c.tp.timerRexmt } }
  if timerExpired c.tp.timerRexmt then timersRexmt env c1 else ⟨c1, false, []⟩

/-- The tick of `TCPT_PERSIST`. -/
def tickPersist (env : Nat → SendEnv) (c : Conn) : Res :=
  let c1 := { c with tp := { c.tp with timerPersist := timerTick c.tp.timerPersist } }
  if timerExpired c.tp.timerPersist then timersPersist env c1 else ⟨c1, false, []⟩

/-- The tick of `TCPT_KEEP`. -/
def tickKeep (env : Nat → SendEnv) (c : Conn) : Res :=
  let c1 := { c with tp := { c.tp with timerKeep := timerTick c.tp.timerKeep } }
  if timerExpired c.tp.timerKeep then timersKeep env c1 else ⟨c1, false, []⟩

/-- The tick of `TCPT_2MSL`. -/
def tick2msl (c : Conn) : Res :=
  let c1 := { c with tp := { c.tp with timer2msl := timerTick c.tp.timer2msl } }
  if timerExpired c.tp.timer2msl then timers2msl c1 else ⟨c1, false, []⟩

/-- The counters behind the timer loop. -/
def tickCounters (c : Conn) : Res :=
  ⟨{ c with tp := { c.tp with
      tIdle := s16 (c.tp.tIdle + 1)
      tRtt := if c.tp.tRtt ≠ 0 then s16 (c.tp.tRtt + 1) else 0 } }, false, []⟩

/-- `tcp_slowtimo` for one connection; `env i` are the passes of the timer with number `i`. -/
def tcpSlowtimo (env : Nat → Nat → SendEnv) (c : Conn) : Res :=
  if c.so.ssNofdref ∧ TcpState.closeWait.num < c.tp.tState.num ∧ c.tp.timer2msl ≤ 0 then
    ⟨tcpClose c, true, []⟩
  else
    ((((tickRexmt (env 0) c).andThen (tickPersist (env 1))).andThen (tickKeep (env 2))).andThen
      tick2msl).andThen tickCounters

/-- `tcp_fasttimo` for one connection. -/
def tcpFasttimo (env : Nat → SendEnv) (c : Conn) : Res :=
  if c.tp.delack then
    callOutput env { c with tp := { c.tp with delack := false, acknow := true } }
  else ⟨c, false, []⟩

end TnNet
