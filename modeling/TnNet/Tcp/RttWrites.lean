import TnNet.Tcp.Rules

/-!
# Writes to the round-trip time

`t_rtt`, `t_srtt`, `t_rttvar`, `t_rxtcur` and the cells of `t_timer[]` are `short`s, and arithmetic
is done on them at five places: `tcp_xmit_timer`, `TCPT_REXMT`, `tcp_setpersist`, and in
`tcp_slowtimo` the countdown of the timers and the count of `t_rtt`.  `rttWrites c ev` lists the
places an event comes to, each with the values it works on.
-/

set_option autoImplicit false

namespace TnNet

/-- A place that does arithmetic on the `short`s, with what it finds there. -/
inductive RttWrite where
  /-- `tcp_xmit_timer(tp, tp->t_rtt)` -/
  | xmit (tp : Tcpcb)
  /-- `tcp_timers(TCPT_REXMT)`, while `t_rxtshift` has not reached its limit -/
  | rexmt (tp : Tcpcb)
  /-- `tcp_setpersist` -/
  | persist (tp : Tcpcb)
  /-- `t_timer[i] && --t_timer[i] == 0` -/
  | tick (t : Int)
  /-- `if(tp->t_rtt) tp->t_rtt++` -/
  | count (t : Int)

/-! ## Measurements of `tcp_input` -/

/-- The control block behind a SYN in state `SYN_SENT`. -/
def synSentTp (x : InSt) : Tcpcb :=
  { tcpRcvseqinit { synSentUna x with timerRexmt := 0, irs := x.th.thSeq } with acknow := true }

/-- The control block that is measured in state `SYN_SENT`. -/
def synSentMeasure (x : InSt) : Option Tcpcb :=
  let c := (tcpPresent { tp := { synSentTp x with tState := .established }
                         so := soisconnected x.so }).1
  if (x.tiflags.ack ∧ seqGt (synSentTp x).sndUna (synSentTp x).iss) ∧ c.tp.tRtt ≠ 0 then some c.tp
  else none

/-- The control block that an ACK measures. -/
def ackMeasure (x : InSt) : Option Tcpcb :=
  let tp := ackDeflate x.tp
  if ¬ seqLeq x.th.thAck x.tp.sndUna ∧ ¬ seqGt x.th.thAck x.tp.sndMax ∧ tp.tRtt ≠ 0 ∧
      seqGt x.th.thAck tp.tRtseq then some tp
  else none

/-- The control block with which `tcp_input` calls `tcp_xmit_timer`. -/
def inputMeasure (e : InEnv) (s : Seg) (c : Conn) : Option Tcpcb :=
  if c.tp.tState = .closed then none
  else
    match (inputSetup e s c).tp.tState with
    | .listen => none
    | .synSent =>
      (inputSynSent e (inputSetup e s c)).toOption.bind fun _ => synSentMeasure (inputSetup e s c)
    | _ => (inputAck e s c).toOption.bind ackMeasure

/-! ## The persist state in `tcp_output` -/

/-- A pass without a reason to send may enter the persist state. -/
def quietWrites (idle : Bool) (c : Conn) : List RttWrite :=
  if tcpOutputWanted idle c = false ∧ c.so.soSnd.sbCc ≠ 0 ∧ (planTp c).timerRexmt = 0 ∧
      (planTp c).timerPersist = 0 then [.persist { planTp c with tRxtshift := 0 }]
  else []

/-- The writes behind a pass. -/
def Pass.writes (p : Pass) (c : Conn) (again : Conn → List RttWrite) : List RttWrite :=
  match p.ret with
  | some _ => []
  | none => again { c with tp := p.tp }

/-- The passes of a call. -/
def outputLoopWrites (idle : Bool) : Nat → (Nat → SendEnv) → Conn → List RttWrite
  | 0, _, _ => []
  | fuel + 1, env, c =>
    quietWrites idle c ++ (tcpOutputPass (env 0) idle c).writes c fun c' =>
      outputLoopWrites idle fuel (fun i => env (i + 1)) c'

/-- The writes of a call of `tcp_output`. -/
def outputWrites (k : OutCall) : List RttWrite :=
  outputLoopWrites (decide (k.pre.tp.sndMax = k.pre.tp.sndUna)) (k.pre.so.soSnd.sbCc + 2) k.env
    { k.pre with tp := idleTp k.pre.tp }

/-! ## Timers -/

/-- The writes of `f`, if the control block still exists. -/
def Res.writes (r : Res) (f : Conn → List RttWrite) : List RttWrite :=
  if r.gone then [] else f r.conn

/-- The tick of `TCPT_REXMT`. -/
def rexmtWrites (c : Conn) : List RttWrite :=
  .tick c.tp.timerRexmt ::
    if timerExpired c.tp.timerRexmt ∧ c.tp.tRxtshift + 1 ≤ TCP_MAXRXTSHIFT then
      [.rexmt { c.tp with timerRexmt := timerTick c.tp.timerRexmt }]
    else []

/-- The tick of `TCPT_PERSIST`. -/
def persistWrites (c : Conn) : List RttWrite :=
  .tick c.tp.timerPersist ::
    if timerExpired c.tp.timerPersist then
      [.persist { c.tp with timerPersist := timerTick c.tp.timerPersist }]
    else []

/-- The timers of a connection, and the count of `t_rtt` behind them. -/
def timerWrites (env : Nat → Nat → SendEnv) (c : Conn) : List RttWrite :=
  let r1 := tickRexmt (env 0) c
  let r2 := r1.andThen (tickPersist (env 1))
  let r3 := r2.andThen (tickKeep (env 2))
  let r4 := r3.andThen tick2msl
  rexmtWrites c ++ (r1.writes persistWrites ++ (r2.writes (fun d => [.tick d.tp.timerKeep]) ++
    (r3.writes (fun d => [.tick d.tp.timer2msl]) ++ r4.writes fun d => [.count d.tp.tRtt])))

/-- The writes of `tcp_slowtimo` itself. -/
def slowWrites (env : Nat → Nat → SendEnv) (c : Conn) : List RttWrite :=
  if c.so.ssNofdref ∧ TcpState.closeWait.num < c.tp.tState.num ∧ c.tp.timer2msl ≤ 0 then []
  else timerWrites env c

section

variable {S : RttWrite → Prop} {c : Conn}

theorem Pass.forall_writes {p : Pass} {again : Conn → List RttWrite}
    (h : ∀ w ∈ again { c with tp := p.tp }, S w) : ∀ w ∈ p.writes c again, S w := by
  unfold Pass.writes
  cases p.ret with
  | some err => simp
  | none => exact h

theorem Res.forall_writes {r : Res} {f : Conn → List RttWrite} :
    (∀ w ∈ r.writes f, S w) ↔ (r.gone = false → ∀ w ∈ f r.conn, S w) := by
  unfold Res.writes
  cases r.gone <;> simp

theorem forall_rexmtWrites : (∀ w ∈ rexmtWrites c, S w) ↔ S (.tick c.tp.timerRexmt) ∧
    (timerExpired c.tp.timerRexmt = true → c.tp.tRxtshift + 1 ≤ TCP_MAXRXTSHIFT →
      S (.rexmt { c.tp with timerRexmt := timerTick c.tp.timerRexmt })) := by
  unfold rexmtWrites
  rw [List.forall_mem_cons]
  split
  · rename_i h
    simp [h.1, h.2]
  · rename_i h
    simp only [List.not_mem_nil, false_implies, implies_true, and_true, iff_self_and]
    exact fun _ h1 h2 => absurd ⟨h1, h2⟩ h

theorem forall_persistWrites : (∀ w ∈ persistWrites c, S w) ↔ S (.tick c.tp.timerPersist) ∧
    (timerExpired c.tp.timerPersist = true →
      S (.persist { c.tp with timerPersist := timerTick c.tp.timerPersist })) := by
  unfold persistWrites
  rw [List.forall_mem_cons]
  split
  · rename_i h
    simp [h]
  · rename_i h
    simp [h]

end

/-! ## Events -/

/-- The writes of an event, without those of the calls of `tcp_output`. -/
def ownWrites (c : Conn) : Event → List RttWrite
  | .input e s => (inputMeasure e s c).toList.map .xmit
  | .slowtimo env => if c.tp.tState = .listen then [] else slowWrites env c
  | _ => []

/-- The writes of an event. -/
def rttWrites (c : Conn) (ev : Event) : List RttWrite :=
  ownWrites c ev ++ (connStep c ev).calls.flatMap outputWrites

end TnNet
