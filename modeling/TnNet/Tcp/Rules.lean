import TnNet.Tcp.Conn

/-!
# Rules for invariants of a connection

An invariant `P` of a connection holds in every state between two events, and in front of every
call of `tcp_output` (`Res.Ok`).  This module walks through `tcp_input`, the timers and the user
calls once; an invariant is then given by what it says about the few places that write the
fields it is about.

* `Conn.core` — the connection without the fields no invariant here reads; `Stable` — `P` reads
  only the core and survives `tcp_output`, `tcp_dooptions` and the state change of `tcp_drop`.
* `inputChecks_flow` — what the trimming and the tests of the flag bits let through (`Checked`).
* `tcpInput_ok`, `tcpSlowtimo_ok`, `connStep_ok` — the rules.
-/

set_option autoImplicit false

namespace TnNet

open SeqArith

/-- `P` holds of the connection that is left and in front of every call of `tcp_output`. -/
structure Res.Ok (P : Conn → Prop) (r : Res) : Prop where
  conn : r.gone = false → P r.conn
  calls : ∀ k ∈ r.calls, P k.pre

/-- The connection without its bookkeeping fields. -/
def Conn.core (c : Conn) : Conn :=
  { tp := { c.tp with
      tTemplate := false, sndUp := 0, sndWl1 := 0, sndWl2 := 0, rcvWnd := 0, rcvUp := 0
      sndCwnd := 0, sndSsthresh := 0, tRtseq := 0, maxSndwnd := 0, tRxtshift := 0, tDupacks := 0
      acknow := false, delack := false, nodelay := false, noopt := false, timerKeep := 0
      timer2msl := 0, tIdle := 0, tRtt := 0, tSrtt := 0, tRttvar := 0, tForce := false
      tSofterror := 0 }
    so := { c.so with
      soAcceptconn := false, soLingerOpt := false, soKeepalive := false, soReuseport := false
      soLinger := 0, ssNofdref := false, ssIsconnecting := false, ssIsdisconnecting := false
      ssNbio := false, soError := 0 } }

/-- What every invariant has to survive. -/
structure Stable (P : Conn → Prop) : Prop where
  core : ∀ {c c' : Conn}, P c → c'.core = c.core → P c'
  output : ∀ env c, P c → P (tcpOutput env c).conn
  options : ∀ syn mtu opt c, P c → P { c with tp := tcpDooptions syn mtu opt c.tp }
  drop : ∀ c, P c → P { c with tp := { c.tp with tState := .closed } }

variable {P : Conn → Prop}

/-! ## Results -/

theorem Res.Ok.same {c : Conn} (h : P c) : Res.Ok P ⟨c, false, []⟩ :=
  ⟨fun _ => h, fun _ hk => by simp at hk⟩

theorem Res.Ok.gone (c : Conn) : Res.Ok P ⟨c, true, []⟩ :=
  ⟨fun h => by simp at h, fun _ hk => by simp at hk⟩

theorem callOutput_ok (hP : Stable P) (env : Nat → SendEnv) {c : Conn} (h : P c) :
    (callOutput env c).Ok P := by
  refine ⟨fun _ => hP.output env c h, fun k hk => ?_⟩
  rw [show k = ⟨env, c⟩ by simpa [callOutput] using hk]
  exact h

theorem tcpDrop_ok (hP : Stable P) (env : Nat → SendEnv) (errno : Int) {c : Conn} (h : P c) :
    (tcpDrop env errno c).Ok P := by
  refine ⟨fun hg => by simp [tcpDrop] at hg, fun k hk => ?_⟩
  unfold tcpDrop at hk
  dsimp only at hk
  split at hk
  · exact (callOutput_ok hP env (hP.drop c h)).calls k hk
  · simp at hk

theorem Res.Ok.andThen {r : Res} {f : Conn → Res} (hr : r.Ok P) (hf : ∀ c, P c → (f c).Ok P) :
    (r.andThen f).Ok P := by
  unfold Res.andThen
  split
  · exact hr
  · rename_i hg
    have hc := hf r.conn (hr.conn (by simpa using hg))
    refine ⟨hc.conn, fun k hk => ?_⟩
    rcases List.mem_append.mp hk with hk | hk
    · exact hr.calls k hk
    · exact hc.calls k hk

/-! ## Phases of `tcp_input` -/

/-- `I` holds of the locals behind a phase; a result is `Ok`. -/
def FlowOk (I : InSt → Prop) (P : Conn → Prop) : Flow → Prop
  | .ok x => I x
  | .error r => r.Ok P

theorem FlowOk.bind {I J : InSt → Prop} {f : Flow} {g : InSt → Flow} (hf : FlowOk I P f)
    (hg : ∀ x, f = .ok x → I x → FlowOk J P (g x)) : FlowOk J P (f >>= g) := by
  cases f with
  | ok x => exact hg x rfl hf
  | error r => exact hf

theorem FlowOk.map {I J : InSt → Prop} {f : Flow} {g : InSt → InSt} (hf : FlowOk I P f)
    (hg : ∀ x, I x → J (g x)) : FlowOk J P (f.map g) := by
  cases f with
  | ok x => exact hg x hf
  | error r => exact hf

theorem exitDrop_ok {I : InSt → Prop} {c : Conn} (h : P c) : FlowOk I P (exitDrop c) :=
  Res.Ok.same h

theorem exitClose_ok {I : InSt → Prop} (c : Conn) : FlowOk I P (exitClose c) :=
  Res.Ok.gone _

theorem exitDropafterack_ok {I : InSt → Prop} (hP : Stable P) (e : InEnv) (rst : Bool) {c : Conn}
    (h : P c) : FlowOk I P (exitDropafterack e rst c) := by
  unfold exitDropafterack
  split
  · exact exitDrop_ok h
  · exact callOutput_ok hP e.out (hP.core h rfl)

/-- What the trimming at the right edge lets through. -/
inductive RightTrimmed (x : InSt) : InSt → Prop where
  | inside (h : rightDrop x ≤ 0) : RightTrimmed x x
  | cut (h : 0 < rightDrop x) (hl : rightDrop x < x.tlen) :
      RightTrimmed x (rightCut x (rightDrop x))
  | probe (h : 0 < rightDrop x) (hl : (x.tlen : Int) ≤ rightDrop x) (hw : x.tp.rcvWnd = 0)
      (hs : x.th.thSeq = x.tp.rcvNxt) :
      RightTrimmed x (rightCut (x.setTp { x.tp with acknow := true }) (rightDrop x))

/-- What the phases up to ACK processing let through. -/
structure Checked (x y : InSt) : Prop where
  trim : RightTrimmed (leftTrim x) y
  ack : y.tiflags.ack = true
  syn : y.tiflags.syn = false

theorem leftTrim_conn (x : InSt) :
    (leftTrim x).conn = x.conn ∨
      (leftTrim x).conn = { x.conn with tp := { x.tp with acknow := true } } := by
  unfold leftTrim leftSyn
  dsimp only
  repeat' split
  all_goals first | exact .inl rfl | exact .inr rfl

theorem leftTrim_core (x : InSt) : (leftTrim x).conn.core = x.conn.core := by
  rcases leftTrim_conn x with h | h
  · rw [h]
  · rw [h]
    rfl

theorem rightTrim_ok (hP : Stable P) (e : InEnv) {x : InSt} (h : P x.conn) :
    FlowOk (RightTrimmed x) P (rightTrim e x) := by
  unfold rightTrim
  dsimp only
  split
  · rename_i h0
    split
    · rename_i hl
      split
      · exact exitClose_ok _
      · split
        · rename_i hw
          exact .probe h0 hl hw.1 hw.2
        · exact exitDropafterack_ok hP e _ h
    · rename_i hl
      exact .cut h0 (by omega)
  · rename_i h0
    exact .inside (by omega)

theorem checkRst_ok (hP : Stable P) (e : InEnv) {x : InSt} (h : P x.conn) :
    FlowOk (· = x) P (checkRst e x) := by
  unfold checkRst
  split
  · split
    · exact exitClose_ok _
    · split
      · exact exitDropafterack_ok hP e _ h
      · exact exitClose_ok _
    all_goals first | exact exitClose_ok _ | exact Eq.refl x
  · exact Eq.refl x

theorem checkSyn_ok (hP : Stable P) (e : InEnv) {x : InSt} (h : P x.conn) :
    FlowOk (fun y => y = x ∧ x.tiflags.syn = false) P (checkSyn e x) := by
  unfold checkSyn
  split
  · split
    · exact exitDrop_ok h
    · exact tcpDrop_ok hP e.out ECONNRESET h
  · rename_i hs
    exact ⟨rfl, by simpa using hs⟩

theorem checkAck_ok {x : InSt} (h : P x.conn) :
    FlowOk (fun y => y = x ∧ x.tiflags.ack = true) P (checkAck x) := by
  unfold checkAck
  split
  · rename_i ha
    exact ⟨rfl, ha⟩
  · exact exitDrop_ok h

theorem RightTrimmed.core {x y : InSt} (h : RightTrimmed x y) : y.conn.core = x.conn.core := by
  cases h <;> rfl

/-- **The phases up to ACK processing** only trim the segment. -/
theorem inputChecks_flow (hP : Stable P) (e : InEnv) {x : InSt} (h : P x.conn) :
    FlowOk (Checked x) P (inputChecks e x) := by
  have hl : P (leftTrim x).conn := hP.core h (leftTrim_core x)
  unfold inputChecks
  refine FlowOk.bind (I := (· = leftTrim x)) ?_ ?_
  · unfold afterClose
    split
    · exact exitClose_ok _
    · exact Eq.refl (leftTrim x)
  rintro x1 - rfl
  refine FlowOk.bind (rightTrim_ok hP e hl) fun y _ hy => ?_
  have hy' : P y.conn := hP.core hl hy.core
  refine FlowOk.bind (checkRst_ok hP e hy') ?_
  rintro y1 - rfl
  refine FlowOk.bind (checkSyn_ok hP e hy') ?_
  rintro y2 - ⟨rfl, hs⟩
  have hc := checkAck_ok (P := P) hy'
  revert hc
  cases checkAck y2 with
  | error r => exact id
  | ok z =>
    rintro ⟨rfl, ha⟩
    exact ⟨hy, ha, hs⟩

/-- The connection behind ACK processing. -/
def ackedConn (fin : Bool) (c : Conn) : Conn :=
  match c.tp.tState with
  | .finWait1 => if fin then enterFinWait2 c else c
  | .closing => if fin then enterTimeWait c else c
  | _ => c

/-- What an invariant says about the phases of `tcp_input`: `I` holds of the locals up to the tests
    of the flag bits, `K` in front of the ACK tests and `T` in front of `step6`. -/
structure InputInv (P : Conn → Prop) (I K T : InSt → Prop) (e : InEnv) (s : Seg) (c : Conn) :
    Prop where
  conn : ∀ x, I x → P x.conn
  setup : c.tp.tState ≠ .closed → I (inputSetup e s c)
  checks : ∀ y, I (inputSetup e s c) → c.tp.tState ≠ .listen → c.tp.tState ≠ .synSent →
    Checked (inputSetup e s c) y → I y
  listen : ∀ x, I x → x = inputSetup e s c → c.tp.tState = .listen → s.th.thFlags.ack = false →
    s.th.thFlags.syn = true → T (trimThenStep6 { x with conn := listenConn e s x })
  synSent : ∀ x, I x → x = inputSetup e s c → c.tp.tState = .synSent →
    (x.tiflags.ack = true →
      seqLeq x.th.thAck x.tp.iss = false ∧ seqGt x.th.thAck x.tp.sndMax = false) →
    x.tiflags.syn = true → T (trimThenStep6 { x with conn := synSentConn x })
  synReceived : ∀ x, I x → Checked (inputSetup e s c) x →
    inputChecks e (inputSetup e s c) = .ok x → x.tp.tState = .synReceived →
    seqGt x.tp.sndUna x.th.thAck = false →
    seqGt x.th.thAck x.tp.sndMax = false → K { x with conn := synReceivedConn x }
  other : ∀ x, I x → Checked (inputSetup e s c) x → x.tp.tState ≠ .listen →
    x.tp.tState ≠ .synSent → x.tp.tState ≠ .synReceived → K x
  dup : ∀ x, K x → seqLeq x.th.thAck x.tp.sndUna = true → T x
  beyond : ∀ x, K x → seqGt x.th.thAck x.tp.sndMax = true → P x.conn
  connT : ∀ x, T x → P x.conn
  dupacks : ∀ x n, T x → T (x.setTp { x.tp with tDupacks := n })
  fastRexmt : ∀ x, T x → x.th.thAck = x.tp.sndUna →
    P { x.conn with tp := fastRexmtTp x } ∧ P (fastRexmt e x).conn
  ackNew : ∀ x b, K x → inputAck e s c = .ok x → x.tiflags.ack = true →
    seqLeq x.th.thAck x.tp.sndUna = false → seqGt x.th.thAck x.tp.sndMax = false →
    ¬ (x.tp.tState = .lastAck ∧ ourfinisacked x = true) →
    T { x with conn := ackedConn (ourfinisacked x) (ackConn x), needoutput := b }
  tail : ∀ x, T x → inputHead e s (inputSetup e s c) = .ok x →
    P (doFin (doData e (step6 x)).2 (doData e (step6 x)).1)

variable {I K T : InSt → Prop} {e : InEnv} {s : Seg} {c : Conn}

@[simp] theorem inputSetup_tState (e : InEnv) (s : Seg) (c : Conn) :
    (inputSetup e s c).tp.tState = c.tp.tState := by
  unfold inputSetup InSt.tp
  dsimp only
  split
  · rfl
  · have h := congrArg Tcpcb.tState (tcpDooptions_kept s.th.thFlags.syn e.ifMtu s.opt
      { c.tp with tIdle := 0, timerKeep := tcpKeepidle })
    exact h

/-- The segment's setup is invisible to an invariant. -/
theorem inputSetup_ok (hP : Stable P) (e : InEnv) (s : Seg) {c : Conn} (h : P c) :
    P (inputSetup e s c).conn := by
  have h0 : P { c with tp := { c.tp with tIdle := 0, timerKeep := tcpKeepidle } } := hP.core h rfl
  unfold inputSetup
  dsimp only
  split
  · exact hP.core h0 rfl
  · exact hP.core (hP.options s.th.thFlags.syn e.ifMtu s.opt _ h0) rfl

theorem inputListen_ok (hP : Stable P) (hI : InputInv P I K T e s c) {x : InSt} (h : I x)
    (hx : x = inputSetup e s c) (hs : c.tp.tState = .listen) :
    FlowOk T P ((inputListen e s x).map trimThenStep6) := by
  have hc := hI.conn x h
  have hf' : x.tiflags = s.th.thFlags := by rw [hx]; rfl
  unfold inputListen
  split
  · exact tcpDrop_ok hP e.out ECONNABORTED hc
  · rename_i hf
    simp only [not_or, Bool.not_eq_true, Bool.not_eq_false] at hf
    split
    · exact tcpDrop_ok hP e.out ENOBUFS hc
    · exact hI.listen x h hx hs (hf' ▸ hf.2.1) (hf' ▸ hf.2.2)

theorem inputSynSent_ok (hP : Stable P) (hI : InputInv P I K T e s c) {x : InSt} (h : I x)
    (hx : x = inputSetup e s c) (hs : c.tp.tState = .synSent) :
    FlowOk T P ((inputSynSent e x).map trimThenStep6) := by
  have hc := hI.conn x h
  unfold inputSynSent
  split
  · exact exitDrop_ok hc
  · rename_i ha
    split
    · split
      · exact tcpDrop_ok hP e.out ECONNREFUSED hc
      · exact exitDrop_ok hc
    · split
      · exact exitDrop_ok hc
      · rename_i hsyn
        refine hI.synSent x h hx hs (fun hack => ?_) (by simpa using hsyn)
        simpa [hack] using ha

theorem Checked.tState {x y : InSt} (h : Checked x y) : y.tp.tState = x.tp.tState :=
  field_of_kept (fun c : Conn => c.tp.tState) (h.trim.core.trans (leftTrim_core x)) fun _ => rfl

theorem ackSynReceived_ok (hI : InputInv P I K T e s c) {x : InSt} (h : I x)
    (hx : inputChecks e (inputSetup e s c) = .ok x) (hch : Checked (inputSetup e s c) x)
    (h1 : x.tp.tState ≠ .listen) (h2 : x.tp.tState ≠ .synSent) :
    FlowOk (fun y => K y ∧ y.tiflags.ack = true) P (ackSynReceived x) := by
  unfold ackSynReceived
  split
  · rename_i hs
    split
    · exact exitDrop_ok (hI.conn x h)
    · rename_i hr
      simp only [not_or, Bool.not_eq_true] at hr
      exact ⟨hI.synReceived x h hch hx hs hr.1 hr.2, hch.ack⟩
  · rename_i hs
    exact ⟨hI.other x h hch h1 h2 hs, hch.ack⟩

theorem ackDup_ok (hP : Stable P) (hI : InputInv P I K T e s c) {x : InSt} (h : T x) :
    FlowOk T P (ackDup e x) := by
  unfold ackDup
  split
  · split
    · exact hI.dupacks x 0 h
    · rename_i hr
      simp only [not_or, not_not] at hr
      dsimp only
      split
      · obtain ⟨h1, h2⟩ := hI.fastRexmt x h hr.2
        exact ⟨fun _ => h2, (callOutput_ok hP e.out h1).calls⟩
      · split
        · exact callOutput_ok hP e.out (hP.core (hI.connT x h) rfl)
        · exact hI.dupacks x _ h
  · exact hI.dupacks x 0 h

/-- The control block without the fields of the round-trip time and of congestion control. -/
def rttKept (tp : Tcpcb) : Tcpcb :=
  { tp with
    sndCwnd := 0, tRxtshift := 0, tRxtcur := 0, tDupacks := 0, tRtt := 0, tSrtt := 0, tRttvar := 0
    tSofterror := 0, timerRexmt := 0 }

theorem tcpXmitTimer_kept (tp : Tcpcb) (rtt : Int) :
    rttKept (tcpXmitTimer tp rtt) = rttKept tp := by
  unfold tcpXmitTimer
  dsimp only
  split <;> rfl

theorem ackTimer_kept (ack : BitVec 32) (tp : Tcpcb) : rttKept (ackTimer ack tp) = rttKept tp := by
  have h1 : rttKept (if tp.tRtt ≠ 0 ∧ seqGt ack tp.tRtseq then tcpXmitTimer tp tp.tRtt else tp) =
      rttKept tp := by
    split
    · exact tcpXmitTimer_kept tp _
    · rfl
  have h2 : ∀ tp1 : Tcpcb, rttKept (if ack = tp1.sndMax then { tp1 with timerRexmt := 0 }
      else if tp1.timerPersist = 0 then { tp1 with timerRexmt := tp1.tRxtcur } else tp1) =
      rttKept tp1 := by
    intro tp1
    split
    · rfl
    · split <;> rfl
  exact (h2 _).trans h1

/-- The fields ACK processing computes without looking at the acknowledgement. -/
theorem ackRtt_kept (x : InSt) :
    rttKept (ackCwnd (ackTimer x.th.thAck (ackDeflate x.tp))) = rttKept x.tp := by
  have h := ackTimer_kept x.th.thAck (ackDeflate x.tp)
  exact h

theorem ackConn_tState (x : InSt) : (ackConn x).tp.tState = x.tp.tState := by
  have h := field_of_kept Tcpcb.tState (ackRtt_kept x) fun _ => rfl
  exact h

theorem ackState_ok (hP : Stable P) (hIP : ∀ x, I x → P x.conn) (fin : Bool) {x : InSt}
    (h : ¬ (x.tp.tState = .lastAck ∧ fin = true) →
      I { x with conn := ackedConn fin x.conn }) : FlowOk I P (ackState e fin x) := by
  unfold ackState
  have hx : x.conn.tp.tState = x.tp.tState := rfl
  unfold ackedConn at h
  rw [hx] at h
  split
  · rename_i hs
    simp only [hs] at h
    cases fin
    · exact h (by simp)
    · exact h (by simp)
  · rename_i hs
    simp only [hs] at h
    cases fin
    · exact h (by simp)
    · exact h (by simp)
  · rename_i hs
    simp only [hs] at h
    cases fin
    · exact h (by simp)
    · exact exitClose_ok _
  · rename_i hs
    simp only [hs] at h
    exact exitDropafterack_ok hP e _ (hP.core (hIP _ (h (by simp))) rfl)
  · rename_i h1 h2 h3 h4
    have := h fun hla => h3 hla.1
    split at this
    · rename_i hs
      exact absurd hs h1
    · rename_i hs
      exact absurd hs h2
    · exact this

theorem ackProcess_ok (hP : Stable P) (hI : InputInv P I K T e s c) {x : InSt} (h : K x)
    (hx : inputAck e s c = .ok x) (ha : x.tiflags.ack = true) :
    FlowOk T P (ackProcess e x) := by
  unfold ackProcess
  split
  · rename_i hl
    exact ackDup_ok hP hI (hI.dup x h hl)
  · rename_i hl
    unfold ackNew
    split
    · rename_i hg
      exact exitDropafterack_ok hP e _ (hP.core (hI.beyond x h hg) rfl)
    · rename_i hg
      refine ackState_ok hP hI.connT _ fun hn => ?_
      refine hI.ackNew x _ h hx ha (by simpa using hl) (by simpa using hg) fun hla => hn ?_
      exact ⟨(ackConn_tState x).trans hla.1, hla.2⟩

theorem inputHead_ok (hP : Stable P) (hI : InputInv P I K T e s c) (h : I (inputSetup e s c)) :
    FlowOk T P (inputHead e s (inputSetup e s c)) := by
  unfold inputHead
  split
  · rename_i hs
    exact inputListen_ok hP hI h rfl (by simpa using hs)
  · rename_i hs
    exact inputSynSent_ok hP hI h rfl (by simpa using hs)
  · rename_i h1 h2
    rw [inputSetup_tState] at h1 h2
    refine FlowOk.bind (inputChecks_flow hP e (hI.conn _ h)) fun y hy hch => ?_
    have hst : y.tp.tState = c.tp.tState := hch.tState.trans (inputSetup_tState e s c)
    refine FlowOk.bind (ackSynReceived_ok hI (hI.checks y h h1 h2 hch) hy hch
      (hst.symm ▸ h1) (hst.symm ▸ h2)) ?_
    rintro z hz ⟨hIz, ha⟩
    refine ackProcess_ok hP hI hIz ?_ ha
    unfold inputAck
    rw [hy]
    exact hz

/-- **Rule for `tcp_input`.** -/
theorem tcpInput_ok (hP : Stable P) (hI : InputInv P I K T e s c) (h : P c) :
    (tcpInput e s c).Ok P := by
  unfold tcpInput
  split
  · exact .same h
  · rename_i hcl
    have hh := inputHead_ok hP hI (hI.setup hcl)
    have htail := hI.tail
    revert hh htail
    cases inputHead e s (inputSetup e s c) with
    | error r => exact fun hr _ => hr
    | ok x =>
      intro hx htail
      have ht := htail x hx rfl
      show (inputTail e x).Ok P
      unfold inputTail inputOutput
      dsimp only
      split
      · exact callOutput_ok hP e.out ht
      · exact .same ht

/-! ## The receiving side -/

/-- The connection without the fields of the receiving side. -/
def Conn.rcvKept (c : Conn) : Conn :=
  { tp := { c.tp with tSegq := [], rcvNxt := 0, acknow := false, delack := false }
    so := { c.so with soRcv := {} } }

theorem tcpPresent_kept (c : Conn) : (tcpPresent c).1.rcvKept = c.rcvKept := by
  unfold tcpPresent
  split
  · split <;> rfl
  · rfl

theorem tcpReass_kept (tiqe : Bool) (c : Conn) (th : TcpHdr) (m : Chain) (tlen : Nat) :
    (tcpReass tiqe c th m tlen).1.rcvKept = c.rcvKept := by
  unfold tcpReass
  split
  · split
    · rfl
    · rw [tcpPresent_kept]
      rfl
  · rfl

/-- **Frame of the segment text.** -/
theorem doData_kept (e : InEnv) (x : InSt) : (doData e x).1.rcvKept = x.conn.rcvKept := by
  unfold doData
  split
  · split
    · unfold inOrderConn Conn.rcvKept
      dsimp only
      split <;> rfl
    · have h := tcpReass_kept e.tiqe x.conn x.th (mAdj x.m x.hdroptlen) x.tlen
      rw [← h]
      rfl
  · rfl

theorem tcpPresent_fin {c : Conn} (h : (tcpPresent c).2 = true) :
    c.tp.tState.haveEstablished = true := by
  unfold tcpPresent at h
  split at h
  · assumption
  · cases h

theorem tcpReass_fin {tiqe : Bool} {c : Conn} {th : TcpHdr} {m : Chain} {tlen : Nat}
    (h : (tcpReass tiqe c th m tlen).2 = true) : c.tp.tState.haveEstablished = true := by
  unfold tcpReass at h
  split at h
  · split at h
    · cases h
    · have he := tcpPresent_fin h
      exact he
  · cases h

/-- A FIN is processed only on an established connection that has not seen one. -/
theorem doData_fin {e : InEnv} {x : InSt} (h : (doData e x).2 = true) :
    x.tp.tState.haveEstablished = true ∧ x.tp.tState.haveRcvdFin = false := by
  unfold doData at h
  split at h
  · rename_i ht
    simp only [hasText, Bool.and_eq_true, Bool.not_eq_true'] at ht
    refine ⟨?_, ht.2⟩
    split at h
    · rename_i ho
      simp only [inOrder, Bool.and_eq_true, decide_eq_true_eq] at ho
      rw [ho.2]
      rfl
    · exact tcpReass_fin h
  · cases h

/-! ## Timers -/

/-- What an invariant says about the timers and the user calls. -/
structure UserInv (P : Conn → Prop) : Prop where
  tickRexmt : ∀ c, P c → P { c with tp := { c.tp with timerRexmt := timerTick c.tp.timerRexmt } }
  rexmt : ∀ c, P c → timerExpired c.tp.timerRexmt = true →
    P { c with tp := rexmtTp { c.tp with timerRexmt := timerTick c.tp.timerRexmt } }
  tickPersist : ∀ c, P c →
    P { c with tp := { c.tp with timerPersist := timerTick c.tp.timerPersist } }
  persist : ∀ c, P c → timerExpired c.tp.timerPersist = true →
    P { c with tp := tcpSetpersist { c.tp with timerPersist := timerTick c.tp.timerPersist } }
  sbdrop : ∀ c n, P c → P { c with so := { c.so with soRcv := sbdrop c.so.soRcv n } }
  cantsendmore : ∀ c, P c → P { c with so := socantsendmore c.so }
  disconnecting : ∀ c, P c → P { c with so := soisdisconnecting c.so }
  disconnected : ∀ c, P c → P { c with so := soisdisconnected c.so }
  usrclosed : ∀ c, P c → c.so.ssCantsendmore = true → usrclosedState c.tp.tState ≠ .closed →
    P { c with tp := { c.tp with tState := usrclosedState c.tp.tState } }
  sndbuf : ∀ c n, P c → P { c with so := { c.so with soSnd := sbreserve c.so.soSnd n } }

theorem forceOutput_ok (hP : Stable P) (env : Nat → SendEnv) {c : Conn} (h : P c) :
    (forceOutput env c).Ok P := by
  have hf : P { c with tp := { c.tp with tForce := true } } := hP.core h rfl
  have hc := callOutput_ok hP env hf
  exact ⟨fun hg => hP.core (hc.conn hg) rfl, hc.calls⟩

theorem tickRexmt_ok (hP : Stable P) (hU : UserInv P) (env : Nat → SendEnv) {c : Conn} (h : P c) :
    (tickRexmt env c).Ok P := by
  unfold tickRexmt
  dsimp only
  split
  · rename_i he
    unfold timersRexmt
    split
    · exact tcpDrop_ok hP env _ (hP.core (hU.tickRexmt c h) rfl)
    · exact callOutput_ok hP env (hU.rexmt c h he)
  · exact .same (hU.tickRexmt c h)

theorem tickPersist_ok (hP : Stable P) (hU : UserInv P) (env : Nat → SendEnv) {c : Conn}
    (h : P c) : (tickPersist env c).Ok P := by
  unfold tickPersist
  dsimp only
  split
  · rename_i he
    exact forceOutput_ok hP env (hU.persist c h he)
  · exact .same (hU.tickPersist c h)

theorem tickKeep_ok (hP : Stable P) (env : Nat → SendEnv) {c : Conn} (h : P c) :
    (tickKeep env c).Ok P := by
  unfold tickKeep timersKeep
  dsimp only
  split
  · split
    · exact tcpDrop_ok hP env _ (hP.core h rfl)
    · split
      · split
        · exact tcpDrop_ok hP env _ (hP.core h rfl)
        · exact .same (hP.core h rfl)
      · exact .same (hP.core h rfl)
  · exact .same (hP.core h rfl)

/-- **Rule for `tcp_slowtimo`.** -/
theorem tcpSlowtimo_ok (hP : Stable P) (hU : UserInv P) (env : Nat → Nat → SendEnv) {c : Conn}
    (h : P c) : (tcpSlowtimo env c).Ok P := by
  unfold tcpSlowtimo
  split
  · exact .gone _
  · refine Res.Ok.andThen (.andThen (.andThen (.andThen (tickRexmt_ok hP hU _ h)
      fun c h => tickPersist_ok hP hU _ h) fun c h => tickKeep_ok hP _ h) ?_) ?_
    · intro c h
      unfold tick2msl
      dsimp only
      split
      · exact .gone _
      · exact .same (hP.core h rfl)
    · intro c h
      exact .same (hP.core h rfl)

/-! ## User calls -/

theorem usrclosedOutput_ok (hP : Stable P) (hU : UserInv P) (env : Nat → SendEnv) {c : Conn}
    (h : P c) (hs : c.so.ssCantsendmore = true) : (usrclosedOutput env c).Ok P := by
  unfold usrclosedOutput
  split
  · rename_i hg
    unfold tcpUsrclosed at hg ⊢
    dsimp only at hg ⊢
    split
    · exact .gone _
    · rename_i hc
      split at hg
      · rename_i hc'
        exact absurd hc' hc
      · split at hg <;> simp at hg
  · rename_i hg
    refine callOutput_ok hP env ?_
    unfold tcpUsrclosed at hg ⊢
    dsimp only at hg ⊢
    split
    · rename_i hc
      simp [hc] at hg
    · rename_i hc
      have h1 := hU.usrclosed c h hs hc
      split
      · exact hU.disconnected _ h1
      · exact h1

theorem tcpDisconnect_ok (hP : Stable P) (hU : UserInv P) (env : Nat → SendEnv) {c : Conn}
    (h : P c) : (tcpDisconnect env c).Ok P := by
  unfold tcpDisconnect
  split
  · exact .gone _
  · split
    · exact tcpDrop_ok hP env 0 h
    · exact usrclosedOutput_ok hP hU env (hU.sbdrop _ _ (hU.disconnecting c h)) rfl

/-- The connection with data appended to the send buffer. -/
def appendConn (c : Conn) (chunk : List UInt8) : Conn :=
  { c with so := { c.so with soSnd := sbappend c.so.soSnd [{ mData := chunk }] } }

/-- `tcp_s_send` may append `chunk`. -/
structure Appends (c : Conn) (chunk : List UInt8) : Prop where
  cantsendmore : c.so.ssCantsendmore = false
  isconnected : c.so.ssIsconnected = true
  space : 0 < sbspace c.so.soSnd
  len : chunk.length ≤ 128

theorem tcpSSend_ok (hP : Stable P) (data : List UInt8) (oob : Bool) (env : Nat → SendEnv)
    {c : Conn} (h : P c)
    (happ : Appends c (data.take 128) → P (appendConn c (data.take 128))) :
    (tcpSSend data oob env c).Ok P := by
  unfold tcpSSend
  split
  · exact .same h
  · rename_i hg
    simp only [not_or, Bool.not_eq_true, not_not, Int.not_le, Bool.not_eq_false] at hg
    obtain ⟨h1, -, h3, h4, -⟩ := hg
    have ha := happ ⟨h1, h3, h4, by simp⟩
    dsimp only
    split
    · exact forceOutput_ok hP env (hP.core ha rfl)
    · exact callOutput_ok hP env ha

theorem tcpSRecv_ok (hP : Stable P) (hU : UserInv P) (n : Nat) (env : Option (Nat → SendEnv))
    {c : Conn} (h : P c) : (tcpSRecv n env c).Ok P := by
  unfold tcpSRecv
  split
  · exact .same h
  · dsimp only
    split
    · exact callOutput_ok hP _ (hU.sbdrop c n h)
    · exact .same (hU.sbdrop c n h)

theorem tcpFasttimo_ok (hP : Stable P) (env : Nat → SendEnv) {c : Conn} (h : P c) :
    (tcpFasttimo env c).Ok P := by
  unfold tcpFasttimo
  split
  · exact callOutput_ok hP env (hP.core h rfl)
  · exact .same h

theorem tcpSShutdown_ok (hP : Stable P) (hU : UserInv P) (rd wr : Bool) (env : Nat → SendEnv)
    {c : Conn} (h : P c) (hflush : rd = true → P { c with so := sorflush c.so }) :
    (tcpSShutdown rd wr env c).Ok P := by
  have h1 : P (if rd then { c with so := sorflush c.so } else c) := by
    split
    · exact hflush ‹_›
    · exact h
  unfold tcpSShutdown
  dsimp only
  split
  · exact usrclosedOutput_ok hP hU env (hU.cantsendmore _ h1) rfl
  · exact .same h1

theorem sodisconnect_ok (hP : Stable P) (hU : UserInv P) (env : Nat → SendEnv) {c : Conn}
    (h : P c) : (sodisconnect env c).Ok P := by
  unfold sodisconnect
  split
  · exact .same h
  · exact tcpDisconnect_ok hP hU env h

theorem tcpDetach_ok (hP : Stable P) (hU : UserInv P) (env : Nat → SendEnv) {c : Conn}
    (h : P c) : (tcpDetach env c).Ok P := by
  unfold tcpDetach
  dsimp only
  split
  · have hd := tcpDisconnect_ok hP hU env h
    exact ⟨fun hg => hP.core (hd.conn hg) rfl, hd.calls⟩
  · exact .gone _

/-- **Rule for an event.**  The input of a segment, the data of the user and the two calls that
    set the size of the receive buffer are left to the invariant. -/
theorem connStep_ok (hP : Stable P) (hU : UserInv P) {c : Conn} {ev : Event} (h : P c)
    (hin : ∀ e s, ev = .input e s → (tcpInput e s c).Ok P)
    (hsend : ∀ data oob env, ev = .send data oob env → Appends c (data.take 128) →
      P (appendConn c (data.take 128)))
    (hflush : ∀ wr env, ev = .shutdown true wr env → P { c with so := sorflush c.so })
    (hbuf : ∀ n, ev = .sockopt (.rcvbuf n) →
      P { c with so := { c.so with soRcv := sbreserve c.so.soRcv n } }) :
    (connStep c ev).Ok P := by
  have go : ∀ r : Res, r.Ok P → (if c.tp.tState = .listen then ⟨c, false, []⟩ else r).Ok P := by
    intro r hr
    split
    · exact .same h
    · exact hr
  cases ev with
  | input e s => exact hin e s rfl
  | output env => exact go _ (callOutput_ok hP env h)
  | slowtimo env => exact go _ (tcpSlowtimo_ok hP hU env h)
  | fasttimo env => exact go _ (tcpFasttimo_ok hP env h)
  | send data oob env => exact go _ (tcpSSend_ok hP data oob env h (hsend data oob env rfl))
  | recv n env => exact go _ (tcpSRecv_ok hP hU n env h)
  | shutdown rd wr env =>
    exact go _ (tcpSShutdown_ok hP hU rd wr env h fun hr => hflush wr env (by rw [hr]))
  | disconnect env => exact go _ (sodisconnect_ok hP hU env h)
  | detach env => exact go _ (tcpDetach_ok hP hU env h)
  | accept => exact go _ (.same (hP.core h rfl))
  | sockopt o =>
    refine go _ (.same ?_)
    cases o with
    | sndbuf n => exact hU.sndbuf c n h
    | rcvbuf n => exact hbuf n rfl
    | keepalive on => exact hP.core h rfl
    | linger on time => exact hP.core h rfl

theorem Res.Ok.next {r : Res} (h : r.Ok P) {c : Conn} (hn : r.next = some c) : P c := by
  unfold Res.next at hn
  split at hn
  · cases hn
  · rename_i hgone
    cases hn
    exact h.conn (by simpa using hgone)

/-- **Rule for runs.**  An invariant whose steps are `Ok` under a condition holds in every state
    of a run that meets the condition, and in front of every call of `tcp_output`. -/
theorem connRun_ok (cond : Conn → Event → Prop)
    (hstep : ∀ c ev, P c → cond c ev → (connStep c ev).Ok P) {c : Conn} {es : List Event}
    (h : P c) (hg : Machine.Guarded connMachine cond (some c) es) :
    (∀ c', (Machine.run connMachine (some c) es).1 = some c' → P c') ∧
      ∀ k ∈ (Machine.run connMachine (some c) es).2, P k.pre := by
  refine Machine.run_invariant P (fun k => P k.pre) ?_ (fun c' hc => by cases hc; exact h) hg
  intro s ev hs hc
  have hok := hstep s ev hs hc
  exact ⟨fun s' hs' => hok.next hs', hok.calls⟩

end TnNet
