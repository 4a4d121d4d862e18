import TnNet.Tcp.RttWrites

/-!
# Rules for the pace of a connection

The fields of congestion control, of the round-trip time and of the timers are written at few
places.  `PaceInv S P` lists them: what `P` has to survive, with `S` for the writes of the
round-trip time that an event makes.  This module walks through `tcp_output`, `tcp_input`, the
timers and the user calls once.

* `tcpOutputPass_pace` — a pass of `tcp_output`.
* `inputAck_pace` — the control block in front of ACK processing.
* `tcpInput_pace`, `tcpSlowtimo_pace`, `connStep_pace` — the rules for the events.

The counters at the end of `tcp_slowtimo` are left to the invariant.
-/

set_option autoImplicit false

namespace TnNet

open SeqArith

/-- The fields of pacing. -/
structure Pace where
  tMaxseg : Nat
  sndCwnd : BitVec 32
  sndSsthresh : BitVec 32
  tDupacks : Int
  tRxtshift : Nat
  tRxtcur : Int
  tRttmin : Int
  tRtt : Int
  tSrtt : Int
  tRttvar : Int
  timerRexmt : Int
  timerPersist : Int
  timerKeep : Int
  timer2msl : Int

def Tcpcb.pace (tp : Tcpcb) : Pace where
  tMaxseg := tp.tMaxseg
  sndCwnd := tp.sndCwnd
  sndSsthresh := tp.sndSsthresh
  tDupacks := tp.tDupacks
  tRxtshift := tp.tRxtshift
  tRxtcur := tp.tRxtcur
  tRttmin := tp.tRttmin
  tRtt := tp.tRtt
  tSrtt := tp.tSrtt
  tRttvar := tp.tRttvar
  timerRexmt := tp.timerRexmt
  timerPersist := tp.timerPersist
  timerKeep := tp.timerKeep
  timer2msl := tp.timer2msl

/-- The control block of the third duplicate ACK, in the fields of pacing. -/
def fastPace (tp : Tcpcb) : Tcpcb :=
  { tp with
    tDupacks := s16 (tp.tDupacks + 1)
    sndSsthresh := halfWindow tp
    timerRexmt := 0
    tRtt := 0
    sndCwnd := BitVec.ofNat 32 tp.tMaxseg }

/-- The congestion window behind a fast retransmit. -/
def backPace (tp : Tcpcb) : Tcpcb :=
  { tp with sndCwnd := tp.sndSsthresh + BitVec.ofNat 32 tp.tMaxseg * BitVec.ofInt 32 tp.tDupacks }

/-- The MTU of an interface is an `int`. -/
def MtuOk (mtu : Int) : Prop := mtu < 2147483648

/-- What `P` has to survive, when `S` holds of the writes. -/
structure PaceInv (S : RttWrite → Prop) (P : Tcpcb → Prop) : Prop where
  congr : ∀ {tp tp' : Tcpcb}, P tp → tp'.pace = tp.pace → P tp'
  mss : ∀ tp offer (ifMtu : Option Int), offer < 65536 → (∀ m, ifMtu = some m → MtuOk m) → P tp →
    P (tcpMss tp offer ifMtu).1
  quench : ∀ tp, P tp → P { tp with sndCwnd := BitVec.ofNat 32 tp.tMaxseg }
  leavePersist : ∀ tp, P tp → P { tp with timerPersist := 0, tRxtshift := 0 }
  stopRexmt : ∀ tp, P tp → P { tp with timerRexmt := 0 }
  armRexmt : ∀ tp, P tp → P { tp with timerRexmt := tp.tRxtcur }
  enterPersist : ∀ tp, P tp → P (tcpSetpersist { tp with tRxtshift := 0 })
  startRtt : ∀ tp, P tp → tp.tRtt = 0 → P { tp with tRtt := 1 }
  xmitTimer : ∀ tp, P tp → tp.tRtt ≠ 0 → S (.xmit tp) → P (tcpXmitTimer tp tp.tRtt)
  noDupacks : ∀ tp, P tp → P { tp with tDupacks := 0 }
  dupack : ∀ tp, P tp → s16 (tp.tDupacks + 1) < 3 → P { tp with tDupacks := s16 (tp.tDupacks + 1) }
  fastRexmt : ∀ tp, P tp → s16 (tp.tDupacks + 1) = 3 → P (fastPace tp)
  fastBack : ∀ tp, P tp → tp.tDupacks = 3 → P (backPace tp)
  inflate : ∀ tp, P tp → 3 < s16 (tp.tDupacks + 1) → P { tp with
    tDupacks := s16 (tp.tDupacks + 1), sndCwnd := tp.sndCwnd + BitVec.ofNat 32 tp.tMaxseg }
  deflate : ∀ tp, P tp → P (ackDeflate tp)
  openCwnd : ∀ tp, P tp → P (ackCwnd tp)
  cancel : ∀ tp, P tp → P (tcpCanceltimers tp)
  setKeep : ∀ tp, P tp → P { tp with timerKeep := 2 }
  set2msl : ∀ tp, P tp → P { tp with timer2msl := 4 }
  tickRexmt : ∀ tp, P tp → P { tp with timerRexmt := timerTick tp.timerRexmt }
  tickPersist : ∀ tp, P tp → P { tp with timerPersist := timerTick tp.timerPersist }
  tickKeep : ∀ tp, P tp → P { tp with timerKeep := timerTick tp.timerKeep }
  tick2msl : ∀ tp, P tp → P { tp with timer2msl := timerTick tp.timer2msl }
  rexmt : ∀ tp, P tp → tp.tRxtshift + 1 ≤ TCP_MAXRXTSHIFT → S (.rexmt tp) → P (rexmtTp tp)
  giveUp : ∀ tp, P tp → P { tp with tRxtshift := TCP_MAXRXTSHIFT }
  setpersist : ∀ tp, P tp → S (.persist tp) → P (tcpSetpersist tp)

variable {S : RttWrite → Prop} {P : Tcpcb → Prop}

/-- `P`, of a connection. -/
def OnTp (P : Tcpcb → Prop) (c : Conn) : Prop := P c.tp

/-! ## `tcp_output` -/

theorem idleTp_pace (hP : PaceInv S P) {tp : Tcpcb} (h : P tp) : P (idleTp tp) := by
  unfold idleTp
  split
  · exact hP.quench _ h
  · exact h

theorem planTp_pace (hP : PaceInv S P) {c : Conn} (h : P c.tp) : P (planTp c) := by
  have hf : P (forceTp c.tp) := by
    unfold forceTp
    split
    · exact hP.leavePersist _ h
    · exact h
  unfold planTp
  split
  · exact hP.congr (hP.stopRexmt _ hf) rfl
  · exact hf

theorem synTp_pace (hP : PaceInv S P) {c : Conn} (h : P c.tp) : P (synTp c) := by
  have h1 : P { planTp c with sndNxt := c.tp.iss } := hP.congr (planTp_pace hP h) rfl
  unfold synTp
  split
  · dsimp only
    split
    · exact h1
    · exact hP.mss _ 0 none (by decide) (fun _ hm => by cases hm) h1
  · exact planTp_pace hP h

theorem urgTp_pace (hP : PaceInv S P) {c : Conn} (h : P c.tp) : P (urgTp c) := by
  refine hP.congr (synTp_pace hP h) ?_
  rw [urgTp_eq, synTp_eq]
  rfl

theorem transmitTp_pace (hP : PaceInv S P) (syn fin : Bool) (len : Int) {tp : Tcpcb} (h : P tp) :
    P (transmitTp syn fin len tp) := by
  have harm : ∀ tp2 : Tcpcb, P tp2 → tp2.tRxtcur = tp.tRxtcur →
      P (if tp.timerRexmt = 0 ∧ nextSeq syn fin len tp.sndNxt ≠ tp.sndUna then
        if tp.timerPersist ≠ 0 then
          { tp2 with timerRexmt := tp.tRxtcur, timerPersist := 0, tRxtshift := 0 }
        else { tp2 with timerRexmt := tp.tRxtcur }
      else tp2) := by
    intro tp2 h2 hcur
    rw [← hcur]
    split
    · split
      · exact hP.armRexmt _ (hP.leavePersist _ h2)
      · exact hP.armRexmt _ h2
    · exact h2
  unfold transmitTp
  dsimp only
  refine harm _ ?_ ?_
  · split
    · split
      · rename_i h0
        exact hP.congr (hP.startRtt _ h h0) rfl
      · exact hP.congr h rfl
    · exact hP.congr h rfl
  · split
    · split <;> rfl
    · rfl

theorem advanceTp_pace (hP : PaceInv S P) {c : Conn} (h : P c.tp) : P (advanceTp c) := by
  have hu := urgTp_pace hP h
  unfold advanceTp
  split
  · exact transmitTp_pace hP _ _ _ hu
  · unfold probeTp
    split
    · exact hP.congr hu rfl
    · exact hu

theorem outTp_pace (hP : PaceInv S P) (error : Int) {tp : Tcpcb} (h : P tp) :
    P (outTp error tp).1 := by
  unfold outTp
  split
  · exact hP.quench _ h
  · split
    · exact hP.congr h rfl
    · exact h

/-- **Rule for a pass.** -/
theorem tcpOutputPass_pace (hP : PaceInv S P) (e : SendEnv) (idle : Bool) {c : Conn} (h : P c.tp) :
    P (tcpOutputPass e idle c).tp := by
  have hcase := tcpOutputPass_cases e idle c
  generalize tcpOutputPass e idle c = p at hcase ⊢
  cases hcase with
  | quiet =>
    dsimp only
    unfold quietTp
    split
    · exact hP.enterPersist _ (planTp_pace hP h)
    · exact planTp_pace hP h
  | nobufs => exact outTp_pace hP _ (synTp_pace hP h)
  | failed => exact outTp_pace hP _ (advanceTp_pace hP h)
  | sent =>
    dsimp only
    unfold sentTp
    dsimp only
    split <;> exact hP.congr (advanceTp_pace hP h) rfl

theorem tcpOutput_pace (hP : PaceInv S P) (env : Nat → SendEnv) {c : Conn} (h : P c.tp) :
    P (tcpOutput env c).conn.tp :=
  tcpOutput_invariant (P := OnTp P) (fun _ hc => idleTp_pace hP hc)
    (fun e idle _ hc => tcpOutputPass_pace hP e idle hc) env c h

theorem callOutput_pace (hP : PaceInv S P) (env : Nat → SendEnv) {c : Conn} (h : P c.tp) :
    (callOutput env c).Ok (OnTp P) := by
  refine ⟨fun _ => tcpOutput_pace hP env h, fun k hk => ?_⟩
  rw [show k = ⟨env, c⟩ by simpa [callOutput] using hk]
  exact h

theorem tcpDrop_pace (hP : PaceInv S P) (env : Nat → SendEnv) (errno : Int) {c : Conn}
    (h : P c.tp) : (tcpDrop env errno c).Ok (OnTp P) := by
  refine ⟨fun hg => by simp [tcpDrop] at hg, fun k hk => ?_⟩
  unfold tcpDrop at hk
  dsimp only at hk
  split at hk
  · have h1 : P { c.tp with tState := .closed } := hP.congr h rfl
    exact (callOutput_pace hP env (c := { c with tp := { c.tp with tState := .closed } }) h1).calls
      k hk
  · simp at hk

/-! ## `tcp_input` -/

variable {e : InEnv} {s : Seg}

theorem tcpDooptions_pace (hP : PaceInv S P) (hm : MtuOk e.ifMtu) (syn : Bool) (opt : List UInt8)
    {tp : Tcpcb} (h : P tp) : P (tcpDooptions syn e.ifMtu opt tp) :=
  dooptionsLoop_rule (Q := P) syn e.ifMtu
    (fun tp' offer ho h' => hP.mss tp' offer _ ho (fun m hm' => by cases hm'; exact hm) h') _ opt tp h

theorem inputSetup_pace (hP : PaceInv S P) (hm : MtuOk e.ifMtu) {c : Conn} (h : P c.tp) :
    P (inputSetup e s c).tp := by
  have hk : P { c.tp with tIdle := 0, timerKeep := tcpKeepidle } := hP.congr (hP.setKeep _ h) rfl
  unfold inputSetup InSt.tp
  dsimp only
  split
  · exact hP.congr hk rfl
  · exact hP.congr (tcpDooptions_pace hP hm _ s.opt hk) rfl

theorem listenConn_pace (hP : PaceInv S P) (hm : MtuOk e.ifMtu) {x : InSt} (h : P x.tp) :
    P (listenConn e s x).tp := by
  have h1 : P { x.tp with tTemplate := true } := hP.congr h rfl
  exact hP.congr (hP.setKeep _ (tcpDooptions_pace hP hm s.th.thFlags.syn s.opt h1)) rfl

theorem tcpPresent_pace (hP : PaceInv S P) {c : Conn} (h : P c.tp) : P (tcpPresent c).1.tp :=
  hP.congr h (field_of_kept (fun c : Conn => c.tp.pace) (tcpPresent_kept c) fun _ => rfl)

theorem synSentTp_pace (hP : PaceInv S P) {x : InSt} (h : P x.tp) (st : TcpState) :
    P { synSentTp x with tState := st } := by
  refine hP.congr (hP.stopRexmt _ h) ?_
  unfold synSentTp synSentUna
  split <;> rfl

theorem synSentConn_pace (hP : PaceInv S P) {x : InSt} (hS : ∀ tp, synSentMeasure x = some tp →
    S (.xmit tp)) (h : P x.tp) : P (synSentConn x).tp := by
  unfold synSentConn
  dsimp only
  split
  · rename_i hc
    have hp := tcpPresent_pace hP (c := ⟨_, soisconnected x.so⟩) (synSentTp_pace hP h .established)
    split
    · rename_i hr
      exact hP.xmitTimer _ hp hr (hS _ (if_pos ⟨hc, hr⟩))
    · exact hp
  · exact synSentTp_pace hP h _

theorem trimThenStep6_pace (hP : PaceInv S P) {x : InSt} (h : P x.tp) : P (trimThenStep6 x).tp := by
  unfold trimThenStep6
  dsimp only
  split <;> exact hP.congr h rfl

theorem exitDropafterack_pace {I : InSt → Prop} (hP : PaceInv S P) (rst : Bool) {c : Conn}
    (h : P c.tp) : FlowOk I (OnTp P) (exitDropafterack e rst c) := by
  unfold exitDropafterack
  split
  · exact Res.Ok.same h
  · have h1 : P { c.tp with acknow := true } := hP.congr h rfl
    exact callOutput_pace hP e.out (c := { c with tp := { c.tp with acknow := true } }) h1

/-- `P` of the control block of the locals. -/
def InSt.OnTp (P : Tcpcb → Prop) (x : InSt) : Prop := P x.tp

theorem inputChecks_pace (hP : PaceInv S P) {x : InSt} (h : P x.tp) :
    FlowOk (InSt.OnTp P) (OnTp P) (inputChecks e x) := by
  have hl : P (leftTrim x).tp := by
    unfold InSt.tp
    rcases leftTrim_conn x with h1 | h1
    · rw [h1]
      exact h
    · rw [h1]
      exact hP.congr h rfl
  unfold inputChecks
  refine FlowOk.bind (I := InSt.OnTp P) ?_ fun y _ hy => ?_
  · unfold afterClose
    split
    · exact Res.Ok.gone _
    · exact hl
  refine FlowOk.bind (I := InSt.OnTp P) ?_ fun y _ hy => ?_
  · unfold rightTrim
    dsimp only
    split
    · split
      · split
        · exact Res.Ok.gone _
        · split
          · exact hP.congr hy rfl
          · exact exitDropafterack_pace hP _ hy
      · exact hP.congr hy rfl
    · exact hy
  refine FlowOk.bind (I := InSt.OnTp P) ?_ fun y _ hy => ?_
  · unfold checkRst
    split
    · split
      · exact Res.Ok.gone _
      · split
        · exact exitDropafterack_pace hP _ hy
        · exact Res.Ok.gone _
      all_goals first | exact Res.Ok.gone _ | exact hy
    · exact hy
  refine FlowOk.bind (I := InSt.OnTp P) ?_ fun y _ hy => ?_
  · unfold checkSyn
    split
    · split
      · exact Res.Ok.same hy
      · exact tcpDrop_pace hP e.out ECONNRESET hy
    · exact hy
  unfold checkAck
  split
  · exact hy
  · exact Res.Ok.same hy

theorem ackSynReceived_pace (hP : PaceInv S P) {x : InSt} (h : P x.tp) :
    FlowOk (InSt.OnTp P) (OnTp P) (ackSynReceived x) := by
  unfold ackSynReceived
  split
  · split
    · exact Res.Ok.same h
    · have h1 : P { x.tp with tState := .established } := hP.congr h rfl
      exact hP.congr (tcpPresent_pace hP (c := ⟨_, soisconnected x.so⟩) h1) rfl
  · exact h

/-- **In front of ACK processing.** -/
theorem inputAck_pace (hP : PaceInv S P) (hm : MtuOk e.ifMtu) {c : Conn} (h : P c.tp) :
    FlowOk (InSt.OnTp P) (OnTp P) (inputAck e s c) :=
  FlowOk.bind (inputChecks_pace hP (inputSetup_pace hP hm h)) fun _ _ hx =>
    ackSynReceived_pace hP hx

theorem ackDup_pace (hP : PaceInv S P) {x : InSt} (h : P x.tp) :
    FlowOk (InSt.OnTp P) (OnTp P) (ackDup e x) := by
  unfold ackDup
  split
  · split
    · exact hP.noDupacks _ h
    · dsimp only
      split
      · rename_i h3
        have h1 : P (fastRexmtTp x) := hP.congr (hP.fastRexmt _ h h3) rfl
        have hout := callOutput_pace hP e.out (c := { x.conn with tp := fastRexmtTp x }) h1
        refine ⟨fun _ => ?_, hout.calls⟩
        have hd : (callOutput e.out { x.conn with tp := fastRexmtTp x }).conn.tp.tDupacks = 3 :=
          (field_of_kept Tcpcb.tDupacks (tcpOutput_kept e.out _).2 fun _ => rfl).trans h3
        exact hP.congr (hP.fastBack _ (hout.conn rfl) hd) rfl
      · split
        · rename_i h3
          have h1 := hP.inflate _ h h3
          exact callOutput_pace hP e.out (c := { x.conn with tp := _ }) h1
        · rename_i h1 h2
          exact hP.dupack _ h (by omega)
  · exact hP.noDupacks _ h

theorem ackTimer_pace (hP : PaceInv S P) (ack : BitVec 32) {tp : Tcpcb}
    (hS : tp.tRtt ≠ 0 → seqGt ack tp.tRtseq = true → S (.xmit tp)) (h : P tp) :
    P (ackTimer ack tp) := by
  have hx : P (if tp.tRtt ≠ 0 ∧ seqGt ack tp.tRtseq then tcpXmitTimer tp tp.tRtt else tp) := by
    split
    · rename_i hr
      exact hP.xmitTimer _ h hr.1 (hS hr.1 hr.2)
    · exact h
  unfold ackTimer
  generalize (if tp.tRtt ≠ 0 ∧ seqGt ack tp.tRtseq then tcpXmitTimer tp tp.tRtt else tp) = tp1 at hx
  dsimp only
  split
  · exact hP.stopRexmt _ hx
  · split
    · exact hP.armRexmt _ hx
    · exact hx

theorem ackConn_pace (hP : PaceInv S P) {x : InSt}
    (hS : ∀ tp, ackMeasure x = some tp → S (.xmit tp)) (hle : ¬ seqLeq x.th.thAck x.tp.sndUna)
    (hgt : ¬ seqGt x.th.thAck x.tp.sndMax) (h : P x.tp) : P (ackConn x).tp :=
  hP.congr (hP.openCwnd _ (ackTimer_pace hP x.th.thAck
    (fun hr hs => hS _ (if_pos ⟨hle, hgt, hr, hs⟩)) (hP.deflate _ h))) rfl

theorem enterTimeWait_pace (hP : PaceInv S P) {c : Conn} (h : P c.tp) : P (enterTimeWait c).tp :=
  hP.congr (hP.set2msl _ (hP.cancel _ h)) rfl

theorem ackState_pace (hP : PaceInv S P) (fin : Bool) {x : InSt} (h : P x.tp) :
    FlowOk (InSt.OnTp P) (OnTp P) (ackState e fin x) := by
  unfold ackState
  split
  · show P (if fin then _ else x).tp
    split
    · show P (enterFinWait2 x.conn).tp
      unfold enterFinWait2
      split
      · exact hP.congr (hP.set2msl _ h) rfl
      · exact hP.congr h rfl
    · exact h
  · show P (if fin then _ else x).tp
    split
    · exact enterTimeWait_pace hP h
    · exact h
  · split
    · exact Res.Ok.gone _
    · exact h
  · exact exitDropafterack_pace hP _ (hP.set2msl _ h)
  · exact h

theorem ackProcess_pace (hP : PaceInv S P) {x : InSt} (hS : ∀ tp, ackMeasure x = some tp →
    S (.xmit tp)) (h : P x.tp) : FlowOk (InSt.OnTp P) (OnTp P) (ackProcess e x) := by
  unfold ackProcess ackNew
  split
  · exact ackDup_pace hP h
  · rename_i hle
    split
    · exact exitDropafterack_pace hP _ (hP.deflate _ h)
    · rename_i hgt
      have hc := ackConn_pace hP hS hle hgt h
      exact ackState_pace hP _ hc

theorem inputHead_pace (hP : PaceInv S P) (hm : MtuOk e.ifMtu) {c : Conn}
    (hcl : c.tp.tState ≠ .closed) (hS : ∀ tp, inputMeasure e s c = some tp → S (.xmit tp)) (h : P c.tp) :
    FlowOk (InSt.OnTp P) (OnTp P) (inputHead e s (inputSetup e s c)) := by
  have h0 := inputSetup_pace (s := s) hP hm h
  unfold inputMeasure at hS
  rw [if_neg hcl] at hS
  revert hS
  unfold inputHead
  cases (inputSetup e s c).tp.tState
  case listen =>
    intro _
    dsimp only
    unfold inputListen
    split
    · exact tcpDrop_pace hP e.out ECONNABORTED h0
    · split
      · exact tcpDrop_pace hP e.out ENOBUFS h0
      · exact trimThenStep6_pace hP (x := { inputSetup e s c with conn := _ })
          (listenConn_pace hP hm h0)
  case synSent =>
    dsimp only
    unfold inputSynSent
    split
    · exact fun _ => Res.Ok.same h0
    · split
      · split
        · exact fun _ => tcpDrop_pace hP e.out ECONNREFUSED h0
        · exact fun _ => Res.Ok.same h0
      · split
        · exact fun _ => Res.Ok.same h0
        · exact fun hS => trimThenStep6_pace hP (x := { inputSetup e s c with conn := _ })
            (synSentConn_pace hP hS h0)
  all_goals
    intro hS
    refine FlowOk.bind (inputChecks_pace hP h0) fun y hy1 hy =>
      FlowOk.bind (ackSynReceived_pace hP hy) fun z hz1 hz =>
        ackProcess_pace hP (fun tp hz2 => hS tp ?_) hz
    have hack : inputAck e s c = .ok z := by
      unfold inputAck
      rw [hy1]
      exact hz1
    dsimp only
    rw [hack]
    exact hz2

theorem step6_pace (hP : PaceInv S P) {x : InSt} (h : P x.tp) : P (step6 x).tp := by
  have hu : P (updateWindow x).tp := by
    unfold updateWindow
    split
    · exact hP.congr h rfl
    · exact h
  unfold step6
  dsimp only
  split
  · exact hP.congr hu rfl
  · exact hu

theorem doFin_pace (hP : PaceInv S P) (fin : Bool) {c : Conn} (h : P c.tp) : P (doFin fin c).tp := by
  have ha : P (finAdvance c).tp := by
    unfold finAdvance
    split
    · exact h
    · exact hP.congr h rfl
  unfold doFin
  split
  · generalize finAdvance c = d at ha ⊢
    unfold finState
    split
    · exact hP.congr ha rfl
    · exact hP.congr ha rfl
    · exact hP.congr ha rfl
    · exact enterTimeWait_pace hP ha
    · exact hP.congr (hP.set2msl _ ha) rfl
    · exact ha
  · exact h

/-- **Rule for `tcp_input`.** -/
theorem tcpInput_pace (hP : PaceInv S P) (hm : MtuOk e.ifMtu) {c : Conn}
    (hS : ∀ tp, inputMeasure e s c = some tp → S (.xmit tp)) (h : P c.tp) :
    (tcpInput e s c).Ok (OnTp P) := by
  unfold tcpInput
  split
  · exact .same h
  · rename_i hcl
    have hh := inputHead_pace hP hm hcl hS h
    revert hh
    cases inputHead e s (inputSetup e s c) with
    | error r => exact id
    | ok x =>
      intro hx
      have hd : P (doData e (step6 x)).1.tp := hP.congr (step6_pace hP hx)
        (field_of_kept (fun c : Conn => c.tp.pace) (doData_kept e (step6 x)) fun _ => rfl)
      have hf := doFin_pace hP (doData e (step6 x)).2 hd
      show (inputTail e x).Ok (OnTp P)
      unfold inputTail inputOutput
      dsimp only
      split
      · exact callOutput_pace hP e.out hf
      · exact .same hf

/-! ## Timers -/

theorem forceOutput_pace (hP : PaceInv S P) (env : Nat → SendEnv) {c : Conn} (h : P c.tp) :
    (forceOutput env c).Ok (OnTp P) := by
  have hf : P { c.tp with tForce := true } := hP.congr h rfl
  have hc := callOutput_pace hP env (c := { c with tp := { c.tp with tForce := true } }) hf
  exact ⟨fun hg => hP.congr (hc.conn hg) rfl, hc.calls⟩

theorem tickRexmt_pace (hP : PaceInv S P) (env : Nat → SendEnv) {c : Conn}
    (hS : ∀ w ∈ rexmtWrites c, S w) (h : P c.tp) : (tickRexmt env c).Ok (OnTp P) := by
  have h1 := hP.tickRexmt _ h
  unfold tickRexmt
  dsimp only
  split
  · rename_i hexp
    unfold timersRexmt
    split
    · have h2 := hP.giveUp _ h1
      exact tcpDrop_pace hP env _ (c := { c with tp := _ }) h2
    · rename_i hs
      have hw := (forall_rexmtWrites.mp hS).2 hexp (not_lt.mp hs)
      have h2 := hP.rexmt _ h1 (not_lt.mp hs) hw
      exact callOutput_pace hP env (c := { c with tp := _ }) h2
  · exact .same h1

theorem tickPersist_pace (hP : PaceInv S P) (env : Nat → SendEnv) {c : Conn}
    (hS : ∀ w ∈ persistWrites c, S w) (h : P c.tp) : (tickPersist env c).Ok (OnTp P) := by
  have h1 := hP.tickPersist _ h
  unfold tickPersist
  dsimp only
  split
  · rename_i hexp
    have h2 := hP.setpersist _ h1 ((forall_persistWrites.mp hS).2 hexp)
    exact forceOutput_pace hP env (c := { c with tp := _ }) h2
  · exact .same h1

theorem tickKeep_pace (hP : PaceInv S P) (env : Nat → SendEnv) {c : Conn} (h : P c.tp) :
    (tickKeep env c).Ok (OnTp P) := by
  have h1 := hP.tickKeep _ h
  have hkeep := hP.setKeep _ h1
  unfold tickKeep timersKeep
  dsimp only
  split
  · split
    · exact tcpDrop_pace hP env _ (c := { c with tp := _ }) h1
    · split
      · split
        · exact tcpDrop_pace hP env _ (c := { c with tp := _ }) h1
        · exact .same (hP.congr hkeep rfl)
      · exact .same (hP.congr hkeep rfl)
  · exact .same h1

theorem tick2msl_pace (hP : PaceInv S P) {c : Conn} (h : P c.tp) : (tick2msl c).Ok (OnTp P) := by
  unfold tick2msl
  dsimp only
  split
  · exact .gone _
  · exact .same (hP.tick2msl _ h)

/-- The four timers of a connection. -/
def tickTimers (env : Nat → Nat → SendEnv) (c : Conn) : Res :=
  (((tickRexmt (env 0) c).andThen (tickPersist (env 1))).andThen (tickKeep (env 2))).andThen tick2msl

theorem Res.Ok.andThen_conn {Q : Conn → Prop} {r : Res} {f : Conn → Res} (hr : r.Ok Q)
    (hf : r.gone = false → Q r.conn → (f r.conn).Ok Q) : (r.andThen f).Ok Q := by
  unfold Res.andThen
  split
  · exact hr
  · rename_i hg
    have hg : r.gone = false := by simpa using hg
    have hc := hf hg (hr.conn hg)
    refine ⟨hc.conn, fun k hk => ?_⟩
    rcases List.mem_append.mp hk with hk | hk
    · exact hr.calls k hk
    · exact hc.calls k hk

/-- The writes of the timers, each with the control block it finds. -/
structure TimersPace (P : Tcpcb → Prop) (env : Nat → Nat → SendEnv) (c : Conn) : Prop where
  rexmt : (tickRexmt (env 0) c).Ok (OnTp P)
  persist : ((tickRexmt (env 0) c).andThen (tickPersist (env 1))).Ok (OnTp P)
  keep : (((tickRexmt (env 0) c).andThen (tickPersist (env 1))).andThen (tickKeep (env 2))).Ok
    (OnTp P)
  all : (tickTimers env c).Ok (OnTp P)

theorem tickTimers_pace (hP : PaceInv S P) (env : Nat → Nat → SendEnv) {c : Conn}
    (hS : ∀ w ∈ timerWrites env c, S w) (h : P c.tp) : TimersPace P env c := by
  unfold timerWrites at hS
  dsimp only at hS
  rw [List.forall_mem_append, List.forall_mem_append] at hS
  obtain ⟨hS1, hS2, -⟩ := hS
  have h1 := tickRexmt_pace hP (env 0) hS1 h
  have h2 := h1.andThen_conn fun hg h => tickPersist_pace hP (env 1) (Res.forall_writes.mp hS2 hg) h
  have h3 := h2.andThen fun c h => tickKeep_pace hP (env 2) (c := c) h
  exact ⟨h1, h2, h3, h3.andThen fun _ h => tick2msl_pace hP h⟩

/-- **Rule for `tcp_slowtimo`**, with the counters behind the timers. -/
theorem tcpSlowtimo_pace (hP : PaceInv S P) (env : Nat → Nat → SendEnv) {c : Conn}
    (hS : ∀ w ∈ slowWrites env c, S w) (h : P c.tp)
    (hcount : ∀ d : Conn, P d.tp → S (.count d.tp.tRtt) → P (tickCounters d).conn.tp) :
    (tcpSlowtimo env c).Ok (OnTp P) := by
  unfold slowWrites at hS
  unfold tcpSlowtimo
  split
  · exact .gone _
  · rename_i hopen
    rw [if_neg hopen] at hS
    have ht := (tickTimers_pace hP env hS h).all
    have hw : (tickTimers env c).gone = false → S (.count (tickTimers env c).conn.tp.tRtt) := by
      unfold timerWrites at hS
      simp only [List.forall_mem_append, Res.forall_writes, List.forall_mem_singleton] at hS
      exact hS.2.2.2.2
    exact ht.andThen_conn fun hg hd => .same (hcount _ hd (hw hg))

/-! ## User calls -/

theorem usrclosedOutput_pace (hP : PaceInv S P) (env : Nat → SendEnv) {c : Conn} (h : P c.tp) :
    (usrclosedOutput env c).Ok (OnTp P) := by
  have hu : P (tcpUsrclosed c).conn.tp ∨ (tcpUsrclosed c).gone = true := by
    unfold tcpUsrclosed
    dsimp only
    split
    · exact .inr rfl
    · split <;> exact .inl (hP.congr h rfl)
  unfold usrclosedOutput
  split
  · rename_i hg
    unfold tcpUsrclosed at hg ⊢
    dsimp only at hg ⊢
    split
    · exact .gone _
    · rename_i hc
      rw [if_neg hc] at hg
      split at hg <;> simp at hg
  · rename_i hg
    exact callOutput_pace hP env (hu.resolve_right hg)

theorem tcpDisconnect_pace (hP : PaceInv S P) (env : Nat → SendEnv) {c : Conn} (h : P c.tp) :
    (tcpDisconnect env c).Ok (OnTp P) := by
  unfold tcpDisconnect
  split
  · exact .gone _
  · split
    · exact tcpDrop_pace hP env 0 h
    · exact usrclosedOutput_pace hP env (c := { c with so := _ }) h

theorem tcpSSend_pace (hP : PaceInv S P) (data : List UInt8) (oob : Bool) (env : Nat → SendEnv)
    {c : Conn} (h : P c.tp) : (tcpSSend data oob env c).Ok (OnTp P) := by
  unfold tcpSSend
  split
  · exact .same h
  · dsimp only
    split
    · have h1 : ∀ up, P { c.tp with sndUp := up } := fun _ => hP.congr h rfl
      exact forceOutput_pace hP env (c := ⟨_, _⟩) (h1 _)
    · exact callOutput_pace hP env (c := { c with so := _ }) h

theorem tcpDetach_pace (hP : PaceInv S P) (env : Nat → SendEnv) {c : Conn} (h : P c.tp) :
    (tcpDetach env c).Ok (OnTp P) := by
  unfold tcpDetach
  dsimp only
  split
  · have hd := tcpDisconnect_pace hP env h
    exact ⟨hd.conn, hd.calls⟩
  · exact .gone _

/-- **Rule for an event.** -/
theorem connStep_pace (hP : PaceInv S P) {c : Conn} {ev : Event} (h : P c.tp)
    (hm : ∀ e s, ev = .input e s → MtuOk e.ifMtu) (hS : ∀ w ∈ ownWrites c ev, S w)
    (hcount : ∀ d : Conn, P d.tp → S (.count d.tp.tRtt) → P (tickCounters d).conn.tp) :
    (connStep c ev).Ok (OnTp P) := by
  have go : ∀ r : Res, r.Ok (OnTp P) →
      (if c.tp.tState = .listen then ⟨c, false, []⟩ else r).Ok (OnTp P) := by
    intro r hr
    split
    · exact .same h
    · exact hr
  cases ev with
  | input e s =>
    exact tcpInput_pace hP (hm e s rfl) (fun tp ht => hS _ (by simp [ownWrites, ht])) h
  | output env => exact go _ (callOutput_pace hP env h)
  | slowtimo env =>
    show Res.Ok _ (if c.tp.tState = .listen then ⟨c, false, []⟩ else tcpSlowtimo env c)
    dsimp only [ownWrites] at hS
    split
    · exact .same h
    · rename_i hl
      rw [if_neg hl] at hS
      exact tcpSlowtimo_pace hP env hS h hcount
  | fasttimo env =>
    refine go _ ?_
    unfold tcpFasttimo
    split
    · have h1 : P { c.tp with delack := false, acknow := true } := hP.congr h rfl
      exact callOutput_pace hP env (c := { c with tp := _ }) h1
    · exact .same h
  | send data oob env => exact go _ (tcpSSend_pace hP data oob env h)
  | recv n env =>
    refine go _ ?_
    unfold tcpSRecv
    split
    · exact .same h
    · dsimp only
      split
      · exact callOutput_pace hP _ (c := { c with so := _ }) h
      · exact .same h
  | shutdown rd wr env =>
    refine go _ ?_
    unfold tcpSShutdown
    dsimp only
    have h1 : P (if rd then { c with so := sorflush c.so } else c).tp := by
      split <;> exact h
    split
    · exact usrclosedOutput_pace hP env (c := ⟨_, _⟩) h1
    · exact .same h1
  | disconnect env =>
    refine go _ ?_
    unfold sodisconnect
    split
    · exact .same h
    · exact tcpDisconnect_pace hP env h
  | detach env => exact go _ (tcpDetach_pace hP env h)
  | accept => exact go _ (.same h)
  | sockopt o => exact go _ (.same h)

end TnNet
