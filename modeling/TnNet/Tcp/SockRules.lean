import TnNet.Tcp.Rules
import TnNet.Tcp.SendRules

/-!
# Rules for the state of a socket

The socket of a connection, `so_state`, `so_error` and the two buffers, changes together with
`t_state` and at few places.  `SockInv A R P` lists them: what `P` has to survive, with `A` for the
sockets an ACK of new data may take `n` bytes from and `R` for the sockets the user may shut down in
`SYN_RECEIVED`.  This module walks through `tcp_input`, the timers and the user
calls once.

* `tcpInput_sock`, `connStep_sock` — the rules for the events.
* `Readable` — what `tcp_s_recv` tests before it looks at the buffer; `readable_run` — it holds of
  every socket with data, when the user does not shut down a socket he does not have yet.
-/

set_option autoImplicit false

namespace TnNet

/-! ## Error codes of the user calls -/

def EINTR : Int := 4
def EINVAL : Int := 22
def EWOULDBLOCK : Int := 35
def ENOTCONN : Int := 57

/-! ## Moves of a socket -/

/-- `tcp_s_recv` does not return `-ENOTCONN`. -/
def Readable (so : SocketTcp) : Prop :=
  so.ssCantrcvmore = true ∨ so.ssIsconnected = true ∨ so.ssIsconnecting = true

/-- What `P` has to survive. -/
structure SockInv (A : TcpState → SocketTcp → Nat → Prop) (R : SocketTcp → Prop)
    (P : TcpState → SocketTcp → Prop) : Prop where
  synReceived : ∀ {st so}, P st so → st = .listen ∨ st = .synSent → P .synReceived so
  connected : ∀ {st so}, P st so → st = .synSent ∨ st = .synReceived →
    P .established (soisconnected so)
  append : ∀ {st so} m, P st so → st.haveEstablished = true → so.ssCantrcvmore = false →
    P st { so with soRcv := sbappend so.soRcv m }
  ack : ∀ {st so} n, P st so → A st so n → P st { so with soSnd := sbdrop so.soSnd n }
  finWait2 : ∀ {so}, P .finWait1 so → P .finWait2 so
  disconnected : ∀ {st so}, P st so → TcpState.finWait1.num ≤ st.num →
    P st (soisdisconnected so)
  timeWait : ∀ {st so}, P st so → st = .closing ∨ st = .finWait2 → P .timeWait so
  cantrcvmore : ∀ {st so}, P st so → P st (socantrcvmore so)
  closeWait : ∀ {st so}, P st (socantrcvmore so) → st = .synReceived ∨ st = .established →
    P .closeWait (socantrcvmore so)
  closing : ∀ {so}, P .finWait1 so → P .closing so
  recv : ∀ {st so} n, P st so → P st { so with soRcv := sbdrop so.soRcv n }
  rcvFlush : ∀ {st so}, P st so → P st (sorflush so)
  flushed : ∀ {so}, R so → R (sorflush so)
  shutdown : ∀ {st so}, P st so → usrclosedState st ≠ .closed → (st = .synReceived → R so) →
    P (usrclosedState st) (socantsendmore so)
  disconnect : ∀ {st so}, P st so → TcpState.established.num ≤ st.num →
    P (usrclosedState st)
      { soisdisconnecting so with soRcv := sbflush (soisdisconnecting so).soRcv }
  nofdref : ∀ {st so} b, P st so → P st { so with ssNofdref := b }
  rcvbuf : ∀ {st so} n, P st so → P st { so with soRcv := sbreserve so.soRcv n }
  keepalive : ∀ {st so} on, P st so → P st { so with soKeepalive := on }
  linger : ∀ {st so} on t, P st so → P st { so with soLingerOpt := on, soLinger := t }

variable {A : TcpState → SocketTcp → Nat → Prop} {R : SocketTcp → Prop}
  {P : TcpState → SocketTcp → Prop}

/-- `P`, of a connection that has its control block; `tcp_close` has shut the socket of one that has
    none. -/
structure Res.Sock (P : TcpState → SocketTcp → Prop) (r : Res) : Prop where
  conn : r.gone = false → P r.conn.tp.tState r.conn.so
  shut : r.gone = true → r.conn.so.ssCantsendmore = true

def FlowSock (P : TcpState → SocketTcp → Prop) : Flow → Prop
  | .ok x => P x.tp.tState x.so
  | .error r => r.Sock P

/-! ## Results -/

section

variable {c d : Conn} {r : Res} {x : InSt} {e : InEnv} {s : Seg}

theorem Res.Sock.same (h : P c.tp.tState c.so) : Res.Sock P ⟨c, false, []⟩ :=
  ⟨fun _ => h, fun hg => by cases hg⟩

theorem Res.Sock.gone (h : r.gone = true) (hs : r.conn.so.ssCantsendmore = true) : r.Sock P :=
  ⟨fun hg => absurd (h.symm.trans hg) (by decide), fun _ => hs⟩

theorem callOutput_sock (env : Nat → SendEnv) (h : P c.tp.tState c.so) : (callOutput env c).Sock P := by
  refine ⟨fun _ => ?_, fun hg => by cases hg⟩
  obtain ⟨h1, h2⟩ := tcpOutput_kept env c
  have h3 : (tcpOutput env c).conn.tp.tState = c.tp.tState := field_of_kept _ h2 fun _ => rfl
  show P (tcpOutput env c).conn.tp.tState (tcpOutput env c).conn.so
  rw [h1, h3]
  exact h

theorem forceOutput_sock (env : Nat → SendEnv) (h : P c.tp.tState c.so) :
    (forceOutput env c).Sock P :=
  ⟨(callOutput_sock env (c := { c with tp := { c.tp with tForce := true } }) h).conn,
    fun hg => by cases hg⟩

theorem Res.Sock.andThen {f : Conn → Res} (hr : r.Sock P)
    (hf : ∀ d, P d.tp.tState d.so → (f d).Sock P) : (r.andThen f).Sock P := by
  unfold Res.andThen
  split
  · exact hr
  · rename_i hg
    have h := hf r.conn (hr.conn (by simpa using hg))
    exact ⟨h.conn, h.shut⟩

theorem FlowSock.bind {f : Flow} {g : InSt → Flow} (hf : FlowSock P f)
    (hg : ∀ x, f = .ok x → P x.tp.tState x.so → FlowSock P (g x)) : FlowSock P (f >>= g) := by
  cases f with
  | ok x => exact hg x rfl hf
  | error r => exact hf

theorem exitDropafterack_sock (rst : Bool) (h : P c.tp.tState c.so) :
    FlowSock P (exitDropafterack e rst c) := by
  unfold exitDropafterack
  split
  · exact Res.Sock.same h
  · exact callOutput_sock e.out (c := { c with tp := { c.tp with acknow := true } }) h

/-! ## `tcp_input` -/

theorem core_sock {c d : Conn} (h : c.core = d.core) : c.tp.tState = d.tp.tState :=
  field_of_kept (fun c : Conn => c.tp.tState) h fun _ => rfl

theorem leftTrim_so (x : InSt) : (leftTrim x).so = x.so := by
  unfold leftTrim leftCut leftSyn InSt.so
  dsimp only
  repeat' split
  all_goals rfl

theorem inputChecks_sock (h : P x.tp.tState x.so) : FlowSock P (inputChecks e x) := by
  have hl : P (leftTrim x).tp.tState (leftTrim x).so := by
    rw [leftTrim_so, show (leftTrim x).tp.tState = x.tp.tState from core_sock (leftTrim_core x)]
    exact h
  unfold inputChecks
  refine FlowSock.bind ?_ fun y _ hy => ?_
  · unfold afterClose
    split
    · exact Res.Sock.gone rfl rfl
    · exact hl
  refine FlowSock.bind ?_ fun y _ hy => ?_
  · unfold rightTrim
    dsimp only
    split
    · split
      · split
        · exact Res.Sock.gone rfl rfl
        · split
          · exact hy
          · exact exitDropafterack_sock _ hy
      · exact hy
    · exact hy
  refine FlowSock.bind ?_ fun y _ hy => ?_
  · unfold checkRst
    split
    · split
      · exact Res.Sock.gone rfl rfl
      · split
        · exact exitDropafterack_sock _ hy
        · exact Res.Sock.gone rfl rfl
      all_goals first | exact Res.Sock.gone rfl rfl | exact hy
    · exact hy
  refine FlowSock.bind ?_ fun y _ hy => ?_
  · unfold checkSyn
    split
    · split
      · exact Res.Sock.same hy
      · exact Res.Sock.gone rfl rfl
    · exact hy
  unfold checkAck
  split
  · exact hy
  · exact Res.Sock.same hy

/-- The bytes of the queue are appended. -/
theorem presentLoop_sock (hS : SockInv A R P) {st : TcpState} (hst : st.haveEstablished = true)
    (qs : List Tcpqent) (nxt : BitVec 32) (fin : Bool) {so : SocketTcp} (h : P st so) :
    P st { so with soRcv := (presentLoop so.ssCantrcvmore qs nxt so.soRcv fin).soRcv } := by
  induction qs generalizing nxt fin so with
  | nil => exact h
  | cons q qs ih =>
    unfold presentLoop
    split
    · cases hc : so.ssCantrcvmore with
      | true =>
        have := ih (nxt + q.tcpqeTcp.thReseqlen.setWidth 32) q.tcpqeTcp.thFlags.fin h
        rw [hc] at this
        exact this
      | false =>
        have := ih (nxt + q.tcpqeTcp.thReseqlen.setWidth 32) q.tcpqeTcp.thFlags.fin
          (hS.append q.tcpqeM h hst hc)
        dsimp only at this
        rw [hc] at this
        exact this
    · exact h

theorem tcpPresent_sock (hS : SockInv A R P) (h : P c.tp.tState c.so) :
    P (tcpPresent c).1.tp.tState (tcpPresent c).1.so := by
  unfold tcpPresent
  split
  · split
    · exact h
    · exact presentLoop_sock hS ‹_› _ _ _ h
  · exact h

theorem tcpReass_sock (hS : SockInv A R P) (tiqe : Bool) (th : TcpHdr) (m : Chain) (tlen : Nat)
    (h : P c.tp.tState c.so) :
    P (tcpReass tiqe c th m tlen).1.tp.tState (tcpReass tiqe c th m tlen).1.so := by
  unfold tcpReass
  split
  · split
    · exact h
    · rename_i segq _
      exact tcpPresent_sock hS (c := { c with tp := { c.tp with tSegq := segq } }) h
  · exact h

theorem doData_sock (hS : SockInv A R P) (h : P x.tp.tState x.so) :
    P (doData e x).1.tp.tState (doData e x).1.so := by
  unfold doData
  split
  · split
    · rename_i ho
      simp only [inOrder, Bool.and_eq_true, decide_eq_true_eq] at ho
      unfold inOrderConn
      dsimp only
      split
      · exact h
      · rename_i hc
        exact hS.append _ h (by rw [ho.2]; rfl) (by simpa using hc)
    · exact tcpReass_sock hS e.tiqe x.th (mAdj x.m x.hdroptlen) x.tlen h
  · exact h

theorem finAdvance_sock (hS : SockInv A R P) (h : P c.tp.tState c.so) :
    P (finAdvance c).tp.tState (finAdvance c).so ∧
      (c.tp.tState.haveRcvdFin = false → (finAdvance c).so = socantrcvmore c.so) := by
  unfold finAdvance
  split
  · rename_i hr
    exact ⟨h, fun hc => by rw [hc] at hr; cases hr⟩
  · exact ⟨hS.cantrcvmore h, fun _ => rfl⟩

theorem finAdvance_tState (c : Conn) : (finAdvance c).tp.tState = c.tp.tState := by
  unfold finAdvance
  split <;> rfl

theorem doFin_sock (hS : SockInv A R P) (fin : Bool) (h : P c.tp.tState c.so) :
    P (doFin fin c).tp.tState (doFin fin c).so := by
  unfold doFin
  split
  swap
  · exact h
  obtain ⟨h1, h2⟩ := finAdvance_sock hS h
  have hst := finAdvance_tState c
  have half : ∀ st, c.tp.tState = st → st = .synReceived ∨ st = .established →
      P .closeWait (finAdvance c).so := by
    intro st he hor
    have hso := h2 (by rw [he]; rcases hor with rfl | rfl <;> rfl)
    rw [hso] at h1 ⊢
    rw [hst, he] at h1
    exact hS.closeWait h1 hor
  unfold finState
  split
  · rename_i he
    exact half _ (hst.symm.trans he) (.inl rfl)
  · rename_i he
    exact half _ (hst.symm.trans he) (.inr rfl)
  · rename_i he
    rw [he] at h1
    exact hS.closing h1
  · rename_i he
    rw [he] at h1
    exact hS.timeWait (hS.disconnected h1 (by decide)) (.inr rfl)
  · exact h1
  · exact h1

theorem synReceivedConn_sock (hS : SockInv A R P) (h : P x.tp.tState x.so)
    (hst : x.tp.tState = .synReceived) :
    P (synReceivedConn x).tp.tState (synReceivedConn x).so :=
  tcpPresent_sock hS (c := ⟨{ x.tp with tState := .established }, soisconnected x.so⟩)
    (hS.connected h (.inr hst))

theorem ackSynReceived_sock (hS : SockInv A R P) (h : P x.tp.tState x.so) :
    FlowSock P (ackSynReceived x) := by
  unfold ackSynReceived
  split
  · split
    · exact Res.Sock.same h
    · exact synReceivedConn_sock hS h ‹_›
  · exact h

/-- The segment acknowledges new data. -/
def acksNew (x : InSt) : Bool :=
  !seqLeq x.th.thAck x.tp.sndUna && !seqGt x.th.thAck x.tp.sndMax

theorem enterFinWait2_sock (hS : SockInv A R P) (hst : c.tp.tState = .finWait1)
    (h : P c.tp.tState c.so) : P (enterFinWait2 c).tp.tState (enterFinWait2 c).so := by
  rw [hst] at h
  unfold enterFinWait2
  split
  · exact hS.finWait2 (hS.disconnected h (by decide))
  · exact hS.finWait2 h

theorem enterTimeWait_sock (hS : SockInv A R P) (hst : c.tp.tState = .closing)
    (h : P c.tp.tState c.so) : P (enterTimeWait c).tp.tState (enterTimeWait c).so := by
  rw [hst] at h
  exact hS.timeWait (hS.disconnected h (by decide)) (.inl rfl)

theorem ackProcess_sock (hS : SockInv A R P) (h : P x.tp.tState x.so)
    (hA : acksNew x = true → A x.tp.tState x.so (ackDrop x)) : FlowSock P (ackProcess e x) := by
  unfold ackProcess ackDup ackNew
  split
  · split
    · split
      · exact h
      · dsimp only
        split
        · have hc : (callOutput e.out { x.conn with tp := fastRexmtTp x }).Sock P :=
            callOutput_sock e.out (c := { x.conn with tp := fastRexmtTp x }) h
          exact ⟨hc.conn, fun hg => by cases hg⟩
        · split
          · exact callOutput_sock e.out (c := ⟨{ x.tp with
              tDupacks := s16 (x.tp.tDupacks + 1)
              sndCwnd := x.tp.sndCwnd + BitVec.ofNat 32 x.tp.tMaxseg }, x.so⟩) h
          · exact h
    · exact h
  rename_i hle
  split
  · exact exitDropafterack_sock _ (c := { x.conn with tp := ackDeflate x.tp }) h
  rename_i hgt
  have ha : P (ackConn x).tp.tState (ackConn x).so := by
    rw [ackConn_tState]
    exact hS.ack _ h (hA (by simp [acksNew, hle, hgt]))
  have hst : (ackConn x).tp.tState = x.tp.tState := ackConn_tState x
  unfold ackState
  split
  · rename_i h1
    show P (if ourfinisacked x then _ else _ : InSt).tp.tState
      (if ourfinisacked x then _ else _ : InSt).so
    split
    · exact enterFinWait2_sock hS h1 ha
    · exact ha
  · rename_i h1
    show P (if ourfinisacked x then _ else _ : InSt).tp.tState
      (if ourfinisacked x then _ else _ : InSt).so
    split
    · exact enterTimeWait_sock hS h1 ha
    · exact ha
  · split
    · exact Res.Sock.gone rfl rfl
    · exact ha
  · exact exitDropafterack_sock _ (c := ⟨{ (ackConn x).tp with timer2msl := 2 * TCPTV_MSL },
      (ackConn x).so⟩) ha
  · exact ha

theorem synSentConn_sock (hS : SockInv A R P) (h : P x.tp.tState x.so) (hst : x.tp.tState = .synSent) :
    P (synSentConn x).tp.tState (synSentConn x).so := by
  unfold synSentConn
  dsimp only
  split
  · have h1 := tcpPresent_sock hS (c := ⟨{ tcpRcvseqinit { synSentUna x with
        timerRexmt := 0, irs := x.th.thSeq } with acknow := true, tState := .established },
      soisconnected x.so⟩) (hS.connected h (.inl hst))
    split
    · have hx : ∀ tp rtt, (tcpXmitTimer tp rtt).tState = tp.tState := fun tp rtt =>
        field_of_kept Tcpcb.tState (tcpXmitTimer_kept tp rtt) fun _ => rfl
      show P (tcpXmitTimer _ _).tState _
      rw [hx]
      exact h1
    · exact h1
  · exact hS.synReceived h (.inr hst)

theorem trimThenStep6_sock (h : P x.tp.tState x.so) :
    P (trimThenStep6 x).tp.tState (trimThenStep6 x).so := by
  unfold trimThenStep6
  dsimp only
  split <;> exact h

theorem inputHead_sock (hS : SockInv A R P) (h : P c.tp.tState c.so)
    (hA : ∀ x, inputAck e s c = .ok x → acksNew x = true → A x.tp.tState x.so (ackDrop x)) :
    FlowSock P (inputHead e s (inputSetup e s c)) := by
  have hso : (inputSetup e s c).so = c.so := rfl
  have h0 : P (inputSetup e s c).tp.tState (inputSetup e s c).so := by
    rw [inputSetup_tState, hso]
    exact h
  unfold inputHead
  split
  · rename_i hst
    unfold inputListen
    split
    · exact Res.Sock.gone rfl rfl
    · split
      · exact Res.Sock.gone rfl rfl
      · exact trimThenStep6_sock (hS.synReceived h0 (.inl hst))
  · rename_i hst
    unfold inputSynSent
    split
    · exact Res.Sock.same h0
    · split
      · split
        · exact Res.Sock.gone rfl rfl
        · exact Res.Sock.same h0
      · split
        · exact Res.Sock.same h0
        · exact trimThenStep6_sock (synSentConn_sock hS h0 hst)
  · refine FlowSock.bind (inputChecks_sock h0) fun y hy1 hy => ?_
    refine FlowSock.bind (ackSynReceived_sock hS hy) fun z hz1 hz => ?_
    refine ackProcess_sock hS hz (hA z ?_)
    unfold inputAck
    rw [hy1]
    exact hz1

theorem tcpInput_sock (hS : SockInv A R P) (h : P c.tp.tState c.so)
    (hA : ∀ x, inputAck e s c = .ok x → acksNew x = true → A x.tp.tState x.so (ackDrop x)) :
    (tcpInput e s c).Sock P := by
  have hh := inputHead_sock (e := e) (s := s) hS h hA
  unfold tcpInput
  split
  · exact Res.Sock.same h
  · revert hh
    cases inputHead e s (inputSetup e s c) with
    | error r => exact id
    | ok x =>
      intro hx
      have hu : P (step6 x).tp.tState (step6 x).so := by
        have hst : (step6 x).tp.tState = x.tp.tState := by
          unfold step6 updateWindow
          dsimp only
          repeat' split
          all_goals rfl
        have hso : (step6 x).so = x.so := by
          unfold step6 updateWindow
          dsimp only
          repeat' split
          all_goals rfl
        rw [hst, hso]
        exact hx
      have hd := doFin_sock hS (doData e (step6 x)).2 (doData_sock (e := e) hS hu)
      show (inputTail e x).Sock P
      unfold inputTail inputOutput
      dsimp only
      split
      · exact callOutput_sock e.out hd
      · exact Res.Sock.same hd

/-! ## Timers and user calls -/

theorem tickRexmt_sock (env : Nat → SendEnv) (h : P c.tp.tState c.so) : (tickRexmt env c).Sock P := by
  unfold tickRexmt timersRexmt
  dsimp only
  split
  · split
    · exact Res.Sock.gone rfl rfl
    · exact callOutput_sock env
        (c := ⟨rexmtTp { c.tp with timerRexmt := timerTick c.tp.timerRexmt }, c.so⟩) h
  · exact Res.Sock.same (c := { c with tp := { c.tp with timerRexmt := timerTick c.tp.timerRexmt } }) h

theorem tcpSetpersist_tState (tp : Tcpcb) : (tcpSetpersist tp).tState = tp.tState := by
  unfold tcpSetpersist
  rfl

theorem tickPersist_sock (env : Nat → SendEnv) (h : P c.tp.tState c.so) :
    (tickPersist env c).Sock P := by
  unfold tickPersist timersPersist
  dsimp only
  split
  · refine forceOutput_sock env (c := ⟨tcpSetpersist { c.tp with
      timerPersist := timerTick c.tp.timerPersist }, c.so⟩) ?_
    rw [tcpSetpersist_tState]
    exact h
  · exact Res.Sock.same
      (c := { c with tp := { c.tp with timerPersist := timerTick c.tp.timerPersist } }) h

theorem tickKeep_sock (env : Nat → SendEnv) (h : P c.tp.tState c.so) : (tickKeep env c).Sock P := by
  unfold tickKeep timersKeep
  dsimp only
  split
  · split
    · exact Res.Sock.gone rfl rfl
    · split
      · split
        · exact Res.Sock.gone rfl rfl
        · exact Res.Sock.same (c := { c with tp := { c.tp with timerKeep := tcpKeepintvl } }) h
      · exact Res.Sock.same (c := { c with tp := { c.tp with timerKeep := tcpKeepidle } }) h
  · exact Res.Sock.same (c := { c with tp := { c.tp with timerKeep := timerTick c.tp.timerKeep } }) h

theorem tick2msl_sock (h : P c.tp.tState c.so) : (tick2msl c).Sock P := by
  unfold tick2msl
  dsimp only
  split
  · exact Res.Sock.gone rfl rfl
  · exact Res.Sock.same (c := { c with tp := { c.tp with timer2msl := timerTick c.tp.timer2msl } }) h

theorem tcpSlowtimo_sock (env : Nat → Nat → SendEnv) (h : P c.tp.tState c.so) :
    (tcpSlowtimo env c).Sock P := by
  unfold tcpSlowtimo
  split
  · exact Res.Sock.gone rfl rfl
  · have h1 := (tickRexmt_sock (env 0) h).andThen fun d hd => tickPersist_sock (env 1) hd
    have h2 := (h1.andThen fun d hd => tickKeep_sock (env 2) hd).andThen fun d hd => tick2msl_sock hd
    exact h2.andThen fun d hd => ⟨fun _ => hd, fun hg => by cases hg⟩

theorem tcpFasttimo_sock (env : Nat → SendEnv) (h : P c.tp.tState c.so) :
    (tcpFasttimo env c).Sock P := by
  unfold tcpFasttimo
  split
  · exact callOutput_sock env (c := ⟨{ c.tp with delack := false, acknow := true }, c.so⟩) h
  · exact Res.Sock.same h

theorem usrclosed_num (st : TcpState) (h : usrclosedState st ≠ .closed) :
    TcpState.finWait1.num ≤ (usrclosedState st).num := by
  revert h
  cases st <;> decide

/-- `tcp_usrclosed` and `tcp_output`, from a socket that `P` survives in the new state. -/
theorem usrclosedOutput_sock (hS : SockInv A R P) (env : Nat → SendEnv)
    (h : usrclosedState c.tp.tState ≠ .closed → P (usrclosedState c.tp.tState) c.so) :
    (usrclosedOutput env c).Sock P := by
  by_cases hc : usrclosedState c.tp.tState = .closed
  · have hu : (tcpUsrclosed c).gone = true := by
      unfold tcpUsrclosed
      dsimp only
      rw [if_pos hc]
    unfold usrclosedOutput
    rw [if_pos hu]
    refine Res.Sock.gone hu ?_
    unfold tcpUsrclosed
    dsimp only
    rw [if_pos hc]
    rfl
  have h1 := h hc
  by_cases hn : TcpState.finWait2.num ≤ (usrclosedState c.tp.tState).num
  · have hu : tcpUsrclosed c = ⟨⟨{ c.tp with tState := usrclosedState c.tp.tState },
        soisdisconnected c.so⟩, false, []⟩ := by
      unfold tcpUsrclosed
      dsimp only
      rw [if_neg hc, if_pos hn]
    unfold usrclosedOutput
    rw [hu]
    exact callOutput_sock env (hS.disconnected h1 (usrclosed_num _ hc))
  · have hu : tcpUsrclosed c = ⟨⟨{ c.tp with tState := usrclosedState c.tp.tState }, c.so⟩,
        false, []⟩ := by
      unfold tcpUsrclosed
      dsimp only
      rw [if_neg hc, if_neg hn]
    unfold usrclosedOutput
    rw [hu]
    exact callOutput_sock env h1

theorem tcpSShutdown_sock (hS : SockInv A R P) (rd wr : Bool) (env : Nat → SendEnv)
    (h : P c.tp.tState c.so) (hheld : c.tp.tState = .synReceived → R c.so) :
    (tcpSShutdown rd wr env c).Sock P := by
  have h1 : P c.tp.tState (if rd then sorflush c.so else c.so) ∧
      (c.tp.tState = .synReceived → R (if rd then sorflush c.so else c.so)) := by
    split
    · exact ⟨hS.rcvFlush h, fun hst => hS.flushed (hheld hst)⟩
    · exact ⟨h, hheld⟩
  have hc : (if rd then { c with so := sorflush c.so } else c) =
      (⟨c.tp, if rd then sorflush c.so else c.so⟩ : Conn) := by
    split <;> rfl
  unfold tcpSShutdown
  dsimp only
  rw [hc]
  generalize (if rd then sorflush c.so else c.so) = so at h1
  split
  · exact usrclosedOutput_sock hS env (c := ⟨c.tp, socantsendmore so⟩)
      fun hcl => hS.shutdown h1.1 hcl h1.2
  · exact Res.Sock.same h1.1

theorem tcpDisconnect_sock (hS : SockInv A R P) (env : Nat → SendEnv) (h : P c.tp.tState c.so) :
    (tcpDisconnect env c).Sock P := by
  unfold tcpDisconnect
  split
  · exact Res.Sock.gone rfl rfl
  split
  · exact Res.Sock.gone rfl rfl
  · rename_i hst _
    exact usrclosedOutput_sock hS env (c := ⟨c.tp, { soisdisconnecting c.so with
      soRcv := sbflush (soisdisconnecting c.so).soRcv }⟩)
      fun _ => hS.disconnect h (Nat.le_of_not_lt hst)

/-- **Rule for an event.**  The data of the user are left to the invariant. -/
theorem connStep_sock (hS : SockInv A R P) {ev : Event} (h : P c.tp.tState c.so)
    (hheld : ∀ rd wr env, ev = .shutdown rd wr env → c.tp.tState = .synReceived → R c.so)
    (hA : ∀ e s x, ev = .input e s → inputAck e s c = .ok x → acksNew x = true →
      A x.tp.tState x.so (ackDrop x))
    (hsend : ∀ data oob env, ev = .send data oob env → Appends c (data.take 128) →
      c.so.soError = 0 →
      P c.tp.tState { c.so with soSnd := sbappend c.so.soSnd [{ mData := data.take 128 }] })
    (hbuf : ∀ n, ev = .sockopt (.sndbuf n) →
      P c.tp.tState { c.so with soSnd := sbreserve c.so.soSnd n }) :
    (connStep c ev).Sock P := by
  have go : ∀ r : Res, r.Sock P →
      (if c.tp.tState = .listen then ⟨c, false, []⟩ else r : Res).Sock P := by
    intro r hr
    split
    · exact .same h
    · exact hr
  cases ev with
  | input e s => exact tcpInput_sock hS h fun x => hA e s x rfl
  | output env => exact go _ (callOutput_sock env h)
  | slowtimo env => exact go _ (tcpSlowtimo_sock env h)
  | fasttimo env => exact go _ (tcpFasttimo_sock env h)
  | send data oob env =>
    refine go _ ?_
    unfold tcpSSend
    split
    · exact .same h
    rename_i hg
    simp only [not_or, Bool.not_eq_true, not_not, Int.not_le, Bool.not_eq_false] at hg
    obtain ⟨h1, h2, h3, h4, -⟩ := hg
    have hp := hsend data oob env rfl ⟨h1, h3, h4, by simp⟩ h2
    dsimp only
    split
    · refine forceOutput_sock env ?_
      exact hp
    · exact callOutput_sock env (c := ⟨c.tp, _⟩) hp
  | recv n env =>
    refine go _ ?_
    unfold tcpSRecv
    split
    · exact .same h
    dsimp only
    split
    · exact callOutput_sock _ (c := ⟨c.tp, { c.so with soRcv := sbdrop c.so.soRcv n }⟩) (hS.recv n h)
    · exact .same (c := ⟨c.tp, { c.so with soRcv := sbdrop c.so.soRcv n }⟩) (hS.recv n h)
  | shutdown rd wr env => exact go _ (tcpSShutdown_sock hS rd wr env h (hheld rd wr env rfl))
  | disconnect env =>
    refine go _ ?_
    unfold sodisconnect
    split
    · exact .same h
    · exact tcpDisconnect_sock hS env h
  | detach env =>
    refine go _ ?_
    unfold tcpDetach
    dsimp only
    split
    · have hd := tcpDisconnect_sock hS env h
      exact ⟨fun hg => hS.nofdref true (hd.conn hg), hd.shut⟩
    · exact Res.Sock.gone rfl rfl
  | accept => exact go _ (.same (c := ⟨c.tp, { c.so with ssNofdref := false }⟩) (hS.nofdref false h))
  | sockopt o =>
    refine go _ ?_
    cases o with
    | sndbuf n => exact .same (c := ⟨c.tp, _⟩) (hbuf n rfl)
    | rcvbuf n => exact .same (c := ⟨c.tp, _⟩) (hS.rcvbuf n h)
    | keepalive on => exact .same (c := ⟨c.tp, _⟩) (hS.keepalive on h)
    | linger on time => exact .same (c := ⟨c.tp, _⟩) (hS.linger on time h)

theorem Res.Sock.next (h : r.Sock P) (hn : r.next = some d) : P d.tp.tState d.so := by
  unfold Res.next at hn
  split at hn
  · cases hn
  · rename_i hg
    cases hn
    exact h.conn (by simpa using hg)

end

/-! ## Readable sockets -/

/-- An established connection and a socket with data are readable. -/
def ReadableIn (st : TcpState) (so : SocketTcp) : Prop :=
  (st.haveEstablished = true → Readable so) ∧ (so.soRcv.sbData ≠ [] → Readable so)

theorem readableIn_inv : SockInv (fun _ _ _ => True) Readable ReadableIn := by
  have all : ∀ {st so}, Readable so → ReadableIn st so := fun h => ⟨fun _ => h, fun _ => h⟩
  constructor
  case synReceived => exact fun h _ => ⟨fun hc => absurd hc (by decide), h.2⟩
  case connected => exact fun _ _ => all (.inr (.inl rfl))
  case append =>
    intro st so m h hst _
    have hr : Readable so := h.1 hst
    exact all hr
  case ack => exact fun n h _ => h
  case finWait2 => exact fun h => ⟨fun _ => h.1 rfl, h.2⟩
  case disconnected => exact fun _ _ => all (.inl rfl)
  case timeWait =>
    intro st so h hor
    have hr : Readable so := h.1 (by rcases hor with rfl | rfl <;> rfl)
    exact all hr
  case cantrcvmore => exact fun _ => all (.inl rfl)
  case closeWait => exact fun _ _ => all (.inl rfl)
  case closing => exact fun h => ⟨fun _ => h.1 rfl, h.2⟩
  case recv =>
    intro st so n h
    refine ⟨h.1, fun hd => h.2 fun hc => hd ?_⟩
    show so.soRcv.sbData.drop n = []
    rw [hc, List.drop_nil]
  case rcvFlush => exact fun _ => all (.inl rfl)
  case flushed => exact fun _ => .inl rfl
  case shutdown =>
    intro st so h hcl hheld
    have hr : Readable so := by
      by_cases hs : st = .synReceived
      · exact hheld hs
      · refine h.1 ?_
        revert hcl hs
        cases st <;> decide
    exact all hr
  case disconnect => exact fun _ _ => all (.inl rfl)
  case nofdref => exact fun b h => h
  case rcvbuf =>
    intro st so n h
    have he : (sbreserve so.soRcv n).sbData = so.soRcv.sbData := by
      unfold sbreserve
      split <;> rfl
    exact ⟨h.1, fun hd => h.2 fun hc => hd (he.trans hc)⟩
  case keepalive => exact fun on h => h
  case linger => exact fun on t h => h

/-- The user has a handle of the socket he shuts down: one of a listener is his when it has been
    connected. -/
def Held (c : Conn) : Event → Prop
  | .shutdown _ _ _ => c.tp.tState = .synReceived → Readable c.so
  | _ => True

instance (c : Conn) : ∀ ev, Decidable (Held c ev)
  | .shutdown _ _ _ => inferInstanceAs (Decidable (_ → _ ∨ _ ∨ _))
  | .input _ _ => .isTrue trivial
  | .output _ => .isTrue trivial
  | .slowtimo _ => .isTrue trivial
  | .fasttimo _ => .isTrue trivial
  | .send _ _ _ => .isTrue trivial
  | .recv _ _ => .isTrue trivial
  | .disconnect _ => .isTrue trivial
  | .detach _ => .isTrue trivial
  | .accept => .isTrue trivial
  | .sockopt _ => .isTrue trivial

/-- **A socket with data is readable.** -/
theorem readable_run {c₀ c : Conn} (hc : Start c₀) {es : List Event}
    (hg : Machine.Guarded connMachine Held (some c₀) es)
    (hs : (Machine.run connMachine (some c₀) es).1 = some c) (hd : c.so.soRcv.sbData ≠ []) :
    Readable c.so := by
  have hstart : ReadableIn c₀.tp.tState c₀.so := by
    cases hc with
    | active iss so h => exact ⟨fun hc => absurd (show TcpState.synSent.haveEstablished = true from hc)
      (by decide), fun hd => absurd h.rcv_data hd⟩
    | passive so h => exact ⟨fun hc => absurd (show TcpState.listen.haveEstablished = true from hc)
      (by decide), fun hd => absurd h.rcv_data hd⟩
  refine ((Machine.run_invariant (fun c => ReadableIn c.tp.tState c.so) (fun _ => True) ?_ ?_ hg).1 c
    hs).2 hd
  · intro d ev h hheld
    refine ⟨fun d' hd' => ?_, fun _ _ => trivial⟩
    refine (connStep_sock readableIn_inv h ?_ (fun _ _ _ _ _ _ => trivial) ?_ ?_).next hd'
    · rintro rd wr env rfl
      exact hheld
    · exact fun _ _ _ _ _ _ => h
    · exact fun _ _ => h
  · intro d hd
    cases hd
    exact hstart

end TnNet
