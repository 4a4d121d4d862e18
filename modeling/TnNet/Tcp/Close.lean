import TnNet.Tcp.Rules

/-!
# Closing a connection

`tcp_s_close` without `SO_LINGER` is the event `disconnect` followed by `detach`: it moves the
connection to `FIN_WAIT_1` or `LAST_ACK`, keeps the send buffer and takes the descriptor away
(`SS_NOFDREF`).  From then on the connection hears from timers and from the peer only
(`closedEvent`).

* `ClosingP` — as long as our FIN is not acknowledged, exactly the acknowledged bytes have left
  the send buffer.
* `tcpInput_waits` — what ends such a connection in `tcp_input`.
* `close_graceful` — both over whole runs.  `tcp_slowtimo` releases every connection without a
  descriptor that is in one of these states, so the runs have no slow tick there.
-/

set_option autoImplicit false

namespace TnNet

open SeqArith

/-- The states in which our FIN waits for its acknowledgement. -/
def TcpState.awaitsFinAck : TcpState → Bool
  | .finWait1 => true
  | .closing => true
  | .lastAck => true
  | _ => false

/-- The states behind a close. -/
def TcpState.userClosed : TcpState → Bool
  | .finWait1 => true
  | .closing => true
  | .lastAck => true
  | .finWait2 => true
  | .timeWait => true
  | .closed => true
  | _ => false

/-- The bytes of `c₀` that have been acknowledged, and only these, have left the send buffer. -/
def Unacked (c₀ c : Conn) : Prop :=
  ∃ k, k ≤ c₀.so.soSnd.sbCc ∧ c.so.soSnd.sbData = c₀.so.soSnd.sbData.drop k ∧
    c.tp.sndUna = c₀.tp.sndUna + BitVec.ofNat 32 k

/-- The invariant behind a close of `c₀`. -/
def ClosingP (c₀ c : Conn) : Prop :=
  c.tp.tState.userClosed = true ∧ (c.tp.tState.awaitsFinAck = true → Unacked c₀ c)

theorem Unacked.refl (c : Conn) : Unacked c c := ⟨0, Nat.zero_le _, rfl, by simp⟩

variable {c₀ c c' : Conn}

/-- The fields the invariant reads. -/
def Conn.closePart (c : Conn) : TcpState × BitVec 32 × List UInt8 :=
  (c.tp.tState, c.tp.sndUna, c.so.soSnd.sbData)

theorem ClosingP.congr (h : ClosingP c₀ c) (hk : c'.closePart = c.closePart) : ClosingP c₀ c' := by
  simp only [Conn.closePart, Prod.mk.injEq] at hk
  obtain ⟨h1, h2, h3⟩ := hk
  unfold ClosingP Unacked at h ⊢
  rw [h1, h2, h3]
  exact h

/-- A change of the state that does not go back to waiting. -/
theorem ClosingP.setState (h : ClosingP c₀ c) {st : TcpState} (h1 : st.userClosed = true)
    (h2 : st.awaitsFinAck = true → c.tp.tState.awaitsFinAck = true)
    (hk : c'.closePart = (st, c.tp.sndUna, c.so.soSnd.sbData)) : ClosingP c₀ c' := by
  simp only [Conn.closePart, Prod.mk.injEq] at hk
  obtain ⟨e1, e2, e3⟩ := hk
  refine ⟨e1 ▸ h1, fun hw => ?_⟩
  obtain ⟨k, g1, g2, g3⟩ := h.2 (h2 (e1 ▸ hw))
  exact ⟨k, g1, e3.trans g2, e2.trans g3⟩

/-! ## `tcp_output`, timers, user calls -/

theorem closingP_stable (c₀ : Conn) : Stable (ClosingP c₀) where
  core h hc := h.congr (field_of_kept Conn.closePart hc fun _ => rfl)
  output env c h := by
    obtain ⟨hso, htp⟩ := tcpOutput_kept env c
    refine h.congr ?_
    unfold Conn.closePart
    rw [hso, field_of_kept Tcpcb.tState htp fun _ => rfl, field_of_kept Tcpcb.sndUna htp fun _ => rfl]
  options syn mtu opt c h := h.congr (field_of_kept (fun tp => Conn.closePart { c with tp := tp })
    (tcpDooptions_kept syn mtu opt c.tp) fun _ => rfl)
  drop c h := h.setState rfl (fun hw => by cases hw) rfl

theorem closingP_user (c₀ : Conn) : UserInv (ClosingP c₀) where
  tickRexmt _ h := h.congr rfl
  rexmt _ h _ := h.congr rfl
  tickPersist _ h := h.congr rfl
  persist _ h _ := h.congr rfl
  sbdrop _ _ h := h.congr rfl
  cantsendmore _ h := h.congr rfl
  disconnecting _ h := h.congr rfl
  disconnected _ h := h.congr rfl
  usrclosed c h _ _ := by
    have hs : usrclosedState c.tp.tState = c.tp.tState := by
      have h1 := h.1
      revert h1
      cases c.tp.tState <;> decide
    refine h.congr ?_
    unfold Conn.closePart
    rw [hs]
  sndbuf c n h := by
    refine h.congr ?_
    unfold sbreserve
    split <;> rfl

/-! ## `tcp_input` -/

/-- An ACK of a part of the data. -/
theorem Unacked.ack {x : InSt} (h : Unacked c₀ x.conn)
    (hnew : seqLeq x.th.thAck x.tp.sndUna = false) (hfin : ourfinisacked x = false) :
    Unacked c₀ (ackConn x) := by
  obtain ⟨k, h1, h2, h3⟩ := h
  have hpos : 0 < ackAcked x := by
    unfold seqLeq at hnew
    have := of_decide_eq_false hnew
    unfold ackAcked
    omega
  have hle : ackAcked x ≤ x.so.soSnd.sbCc := by
    unfold ourfinisacked at hfin
    have := of_decide_eq_false hfin
    omega
  have hdrop : TnNet.ackDrop x = (ackAcked x).toNat := by
    unfold TnNet.ackDrop
    rw [hfin]
    rfl
  have hcc : x.so.soSnd.sbCc = c₀.so.soSnd.sbCc - k := by
    have := congrArg List.length h2
    rwa [List.length_drop] at this
  refine ⟨k + (ackAcked x).toNat, by omega, ?_, ?_⟩
  · show x.so.soSnd.sbData.drop (TnNet.ackDrop x) = _
    have h2' : x.so.soSnd.sbData = c₀.so.soSnd.sbData.drop k := h2
    rw [hdrop, h2', List.drop_drop]
  · have hat : x.th.thAck = x.tp.sndUna + BitVec.ofInt 32 (0 + ackAcked x) :=
      (At.base x.tp.sndUna).of_sdist x.th.thAck
    have hn : ackAcked x = ((ackAcked x).toNat : Int) := (Int.toNat_of_nonneg hpos.le).symm
    have h3' : x.tp.sndUna = c₀.tp.sndUna + BitVec.ofNat 32 k := h3
    rw [Int.zero_add, hn, BitVec.ofInt_natCast, h3'] at hat
    show x.th.thAck = _
    rw [hat, BitVec.ofNat_add, BitVec.add_assoc]

/-- The state behind an acknowledgement. -/
def ackedState (fin : Bool) : TcpState → TcpState
  | .finWait1 => if fin then .finWait2 else .finWait1
  | .closing => if fin then .timeWait else .closing
  | s => s

theorem ackedConn_closePart (fin : Bool) (c : Conn) :
    (ackedConn fin c).closePart = (ackedState fin c.tp.tState, c.tp.sndUna, c.so.soSnd.sbData) := by
  unfold ackedConn
  split
  · rename_i hs
    rw [hs]
    cases fin
    · simp [Conn.closePart, hs, ackedState]
    · unfold enterFinWait2
      simp only [if_true]
      split <;> rfl
  · rename_i hs
    rw [hs]
    cases fin
    · simp [Conn.closePart, hs, ackedState]
    · rfl
  · rename_i h1 h2
    unfold Conn.closePart
    have : ackedState fin c.tp.tState = c.tp.tState := by
      revert h1 h2
      cases c.tp.tState <;> simp [ackedState]
    rw [this]

theorem ClosingP.acked {x : InSt} (h : ClosingP c₀ x.conn)
    (hnew : seqLeq x.th.thAck x.tp.sndUna = false)
    (hlast : ¬ (x.tp.tState = .lastAck ∧ ourfinisacked x = true)) :
    ClosingP c₀ (ackedConn (ourfinisacked x) (ackConn x)) := by
  have hk := ackedConn_closePart (ourfinisacked x) (ackConn x)
  rw [ackConn_tState] at hk
  have h1 : x.tp.tState.userClosed = true := h.1
  simp only [Conn.closePart, Prod.mk.injEq] at hk
  obtain ⟨e1, e2, e3⟩ := hk
  have huc : (ackedState (ourfinisacked x) x.tp.tState).userClosed = true := by
    revert h1
    cases x.tp.tState <;> cases ourfinisacked x <;> decide
  refine ⟨e1 ▸ huc, fun hw => ?_⟩
  rw [e1] at hw
  -- the state still waits, so this ACK was not for the FIN
  have hno : ourfinisacked x = false ∧ x.tp.tState.awaitsFinAck = true := by
    revert hw hlast
    cases x.tp.tState <;> cases ourfinisacked x <;> simp [ackedState, TcpState.awaitsFinAck]
  obtain ⟨k, g1, g2, g3⟩ := (h.2 hno.2).ack hnew hno.1
  exact ⟨k, g1, e3.trans g2, e2.trans g3⟩

theorem doFin_closingP (fin : Bool) (h : ClosingP c₀ c) : ClosingP c₀ (doFin fin c) := by
  unfold doFin
  split
  · have h1 : ClosingP c₀ (finAdvance c) := by
      unfold finAdvance
      split
      · exact h
      · exact h.congr rfl
    generalize finAdvance c = d at h1 ⊢
    have hs := h1.1
    unfold finState
    split <;> rename_i hst
    · rw [hst] at hs
      cases hs
    · rw [hst] at hs
      cases hs
    · exact h1.setState rfl (fun _ => by rw [hst]; rfl) rfl
    · exact h1.setState rfl (fun hw => by cases hw) rfl
    · exact h1.congr rfl
    · exact h1
  · exact h

theorem step6_closePart (x : InSt) : (step6 x).conn.closePart = x.conn.closePart := by
  have hu : (updateWindow x).conn.closePart = x.conn.closePart := by
    unfold updateWindow
    split <;> rfl
  rw [← hu]
  unfold step6
  dsimp only
  split <;> rfl

/-- **Behind a close `tcp_input` keeps the unacknowledged bytes.** -/
theorem closingP_input (c₀ : Conn) (e : InEnv) (s : Seg) (h : ClosingP c₀ c) :
    InputInv (ClosingP c₀) (fun x => ClosingP c₀ x.conn) (fun x => ClosingP c₀ x.conn)
      (fun x => ClosingP c₀ x.conn) e s c where
  conn _ hx := hx
  connT _ hx := hx
  setup _ := inputSetup_ok (closingP_stable c₀) e s h
  checks y hx _ _ hy := (closingP_stable c₀).core hx (hy.trim.core.trans (leftTrim_core _))
  listen x _ _ hs _ _ := by
    have := h.1
    rw [hs] at this
    cases this
  synSent x _ _ hs _ _ := by
    have := h.1
    rw [hs] at this
    cases this
  synReceived x hx _ _ hs _ _ := by
    have := hx.1
    rw [show x.conn.tp.tState = .synReceived from hs] at this
    cases this
  other _ hx _ _ _ _ := hx
  dup _ hx _ := hx
  beyond _ hx _ := hx
  dupacks _ _ hx := hx.congr rfl
  fastRexmt x hx _ := by
    have h1 : ClosingP c₀ { x.conn with tp := fastRexmtTp x } := hx.congr rfl
    exact ⟨h1, ((closingP_stable c₀).output e.out _ h1).congr rfl⟩
  ackNew x _ hx _ _ hl _ hn := hx.acked hl hn
  tail x hx _ := by
    refine doFin_closingP _ (hx.congr ?_)
    have hd := field_of_kept Conn.closePart (doData_kept e (step6 x)) fun _ => rfl
    exact hd.trans (step6_closePart x)

/-! ## What ends the connection -/

/-- The connection waits for the ACK of its FIN, or it does not for the reason `G`. -/
def Waits (G : Prop) (c : Conn) : Prop := G ∨ c.tp.tState.awaitsFinAck = true

/-- The control block is there and waits, or the reason is `G`. -/
def Res.Waits (G : Prop) (r : Res) : Prop :=
  G ∨ (r.gone = false ∧ r.conn.tp.tState.awaitsFinAck = true)

/-- A phase that ends the connection, or its waiting, does so for the reason `G`. -/
def Ends (G : Prop) (I : InSt → Prop) : Flow → Prop
  | .ok x => I x
  | .error r => r.Waits G

theorem Ends.bind {G : Prop} {I J : InSt → Prop} {f : Flow} {g : InSt → Flow} (hf : Ends G I f)
    (hg : ∀ x, I x → Ends G J (g x)) : Ends G J (f >>= g) := by
  cases f with
  | ok x => exact hg x hf
  | error r => exact hf

theorem Ends.reason {G : Prop} {I : InSt → Prop} (hG : G) (hI : ∀ x, I x) (f : Flow) :
    Ends G I f := by
  cases f with
  | ok x => exact hI x
  | error r => exact .inl hG

theorem callOutput_awaits (env : Nat → SendEnv) {d : Conn} (h : d.tp.tState.awaitsFinAck = true) :
    (callOutput env d).gone = false ∧ (callOutput env d).conn.tp.tState.awaitsFinAck = true := by
  refine ⟨rfl, ?_⟩
  show (tcpOutput env d).conn.tp.tState.awaitsFinAck = true
  rwa [field_of_kept Tcpcb.tState (tcpOutput_kept env d).2 fun _ => rfl]

theorem callOutput_waits {G : Prop} (env : Nat → SendEnv) {d : Conn}
    (h : d.tp.tState.awaitsFinAck = true) : (callOutput env d).Waits G :=
  .inr (callOutput_awaits env h)

theorem exitDrop_ends {G : Prop} {I : InSt → Prop} {d : Conn}
    (h : d.tp.tState.awaitsFinAck = true) : Ends G I (exitDrop d) :=
  .inr ⟨rfl, h⟩

theorem exitDropafterack_ends {G : Prop} {I : InSt → Prop} (e : InEnv) (rst : Bool) {d : Conn}
    (h : d.tp.tState.awaitsFinAck = true) : Ends G I (exitDropafterack e rst d) := by
  unfold exitDropafterack
  split
  · exact exitDrop_ends h
  · exact callOutput_waits e.out h

/-- The ACK covers the data and the FIN behind it. -/
def acksFin (c : Conn) (s : Seg) : Bool :=
  s.th.thFlags.ack && decide ((c.so.soSnd.sbCc : Int) < sdist s.th.thAck c.tp.sndUna) &&
    !seqGt s.th.thAck c.tp.sndMax

/-- The fields the tests of an ACK read. -/
def Conn.ackPart (c : Conn) : TcpState × BitVec 32 × BitVec 32 × Sockbuf :=
  (c.tp.tState, c.tp.sndUna, c.tp.sndMax, c.so.soSnd)

/-- The locals still have the flags and the ACK of the segment. -/
structure SameAck (s : Seg) (c : Conn) (x : InSt) : Prop where
  part : x.conn.ackPart = c.ackPart
  rst : x.tiflags.rst = s.th.thFlags.rst
  ack : x.tiflags.ack = s.th.thFlags.ack
  syn : x.tiflags.syn = true → s.th.thFlags.syn = true
  thAck : x.th.thAck = s.th.thAck

theorem ackPart_options (syn : Bool) (mtu : Int) (opt : List UInt8) (c : Conn) :
    Conn.ackPart { c with tp := tcpDooptions syn mtu opt c.tp } = c.ackPart :=
  field_of_kept (fun tp => Conn.ackPart { c with tp := tp }) (tcpDooptions_kept syn mtu opt c.tp)
    fun _ => rfl

theorem inputSetup_sameAck (e : InEnv) (s : Seg) (c : Conn) : SameAck s c (inputSetup e s c) := by
  refine ⟨?_, rfl, rfl, id, rfl⟩
  unfold inputSetup
  dsimp only
  split
  · rfl
  · exact ackPart_options _ _ _ { c with tp := { c.tp with tIdle := 0, timerKeep := tcpKeepidle } }

theorem SameAck.leftTrim {s : Seg} {x : InSt} (h : SameAck s c x) :
    SameAck s c (TnNet.leftTrim x) := by
  refine ⟨?_, ?_, ?_, ?_, ?_⟩
  · rw [← h.part]
    exact field_of_kept Conn.ackPart (leftTrim_core x) fun _ => rfl
  · rw [← h.rst]
    unfold TnNet.leftTrim leftSyn
    dsimp only
    repeat' split
    all_goals rfl
  · rw [← h.ack]
    unfold TnNet.leftTrim leftSyn
    dsimp only
    repeat' split
    all_goals rfl
  · intro hs
    refine h.syn ?_
    revert hs
    unfold TnNet.leftTrim leftSyn
    dsimp only
    repeat' split
    all_goals first | exact id | exact fun hs => by cases hs
  · rw [← h.thAck]
    unfold TnNet.leftTrim leftSyn
    dsimp only
    repeat' split
    all_goals rfl

theorem SameAck.rightTrimmed {s : Seg} {x y : InSt} (h : SameAck s c x) (ht : RightTrimmed x y) :
    SameAck s c y := by
  cases ht with
  | inside => exact h
  | cut => exact ⟨h.part, h.rst, h.ack, h.syn, h.thAck⟩
  | probe => exact ⟨h.part, h.rst, h.ack, h.syn, h.thAck⟩

theorem SameAck.tState {s : Seg} {x : InSt} (h : SameAck s c x) : x.tp.tState = c.tp.tState :=
  congrArg Prod.fst h.part

/-- What may end a connection that waits for the ACK of its FIN. -/
def closeReason (c : Conn) (s : Seg) : Prop := s.th.thFlags.rst = true ∨ acksFin c s = true

/-- `ourfinisacked` is about the ACK of the segment. -/
theorem SameAck.acksFin {s : Seg} {x : InSt} (h : SameAck s c x) (ha : x.tiflags.ack = true)
    (hm : seqGt x.th.thAck x.tp.sndMax = false) (hf : ourfinisacked x = true) :
    TnNet.acksFin c s = true := by
  have hp := h.part
  simp only [Conn.ackPart, Prod.mk.injEq] at hp
  obtain ⟨-, h2, h3, h4⟩ := hp
  have hf' : (x.conn.so.soSnd.sbCc : Int) < sdist x.th.thAck x.conn.tp.sndUna :=
    of_decide_eq_true hf
  have hm' : seqGt x.th.thAck x.conn.tp.sndMax = false := hm
  unfold TnNet.acksFin
  rw [← h.ack, ha, ← h2, ← h3, ← h4, ← h.thAck, hm', decide_eq_true hf']
  rfl

section Reasons

variable {e : InEnv} {s : Seg} (hst : c.tp.tState.awaitsFinAck = true)
  (hsyn : s.th.thFlags.syn = false)
include hst

theorem rightTrim_ends {x : InSt} (h : SameAck s c x) :
    Ends (closeReason c s) (SameAck s c) (rightTrim e x) := by
  have htw : timeWaitRestart x = false := by
    have hne : c.tp.tState ≠ .timeWait := by
      intro hs
      rw [hs] at hst
      cases hst
    unfold timeWaitRestart
    rw [h.tState, decide_eq_false hne]
    simp
  unfold rightTrim
  dsimp only
  rw [htw]
  split
  · rename_i h0
    split
    · rename_i hle
      simp only [Bool.false_eq_true, if_false]
      split
      · rename_i hw
        exact h.rightTrimmed (.probe h0 hle hw.1 hw.2)
      · exact exitDropafterack_ends e _ (h.tState ▸ hst)
    · rename_i hle
      exact h.rightTrimmed (.cut h0 (by omega))
  · exact h

theorem checkRst_ends {x : InSt} (h : SameAck s c x) :
    Ends (closeReason c s) (SameAck s c) (checkRst e x) := by
  unfold checkRst
  split
  · rename_i hr
    have hG : closeReason c s := .inl (h.rst ▸ hr)
    split
    · exact .inl hG
    · split
      · exact exitDropafterack_ends e _ (h.tState ▸ hst)
      · exact .inl hG
    all_goals first | exact .inl hG | exact h
  · exact h

include hsyn

/-- The phases up to ACK processing end a closing connection only for a RST. -/
theorem inputChecks_ends {x : InSt} (h : SameAck s c x) (htext : (TnNet.leftTrim x).tlen = 0) :
    Ends (closeReason c s) (fun y => SameAck s c y ∧ y.tiflags.ack = true) (inputChecks e x) := by
  unfold inputChecks
  refine Ends.bind (I := SameAck s c) ?_ fun y hy => ?_
  · unfold afterClose
    split
    · rename_i ha
      exact absurd htext ha.2.2
    · exact h.leftTrim
  refine Ends.bind (rightTrim_ends hst hy) fun y hy => ?_
  refine Ends.bind (checkRst_ends hst hy) fun y hy => ?_
  refine Ends.bind (I := SameAck s c) ?_ fun y hy => ?_
  · unfold checkSyn
    split
    · rename_i hs
      have := hy.syn hs
      rw [hsyn] at this
      cases this
    · exact hy
  unfold checkAck
  split
  · rename_i ha
    exact ⟨hy, ha⟩
  · exact exitDrop_ends (hy.tState ▸ hst)

omit hsyn

theorem ackProcess_ends {x : InSt} (h : SameAck s c x) (ha : x.tiflags.ack = true) :
    Ends (closeReason c s) (fun y => Waits (closeReason c s) y.conn) (ackProcess e x) := by
  have hw : x.tp.tState.awaitsFinAck = true := h.tState ▸ hst
  unfold ackProcess
  split
  · unfold ackDup
    split
    · split
      · exact .inr hw
      · dsimp only
        split
        · exact callOutput_waits (G := closeReason c s) e.out (d := ⟨fastRexmtTp x, x.so⟩) hw
        · split
          · exact callOutput_waits e.out hw
          · exact .inr hw
    · exact .inr hw
  · unfold ackNew
    split
    · exact exitDropafterack_ends e _ hw
    · rename_i hm
      cases hf : ourfinisacked x with
      | true =>
        have hG : closeReason c s := .inr (h.acksFin ha (Bool.eq_false_of_not_eq_true hm) hf)
        exact Ends.reason hG (fun _ => .inl hG) _
      | false =>
        have hw' : (ackConn x).tp.tState.awaitsFinAck = true := by rwa [ackConn_tState]
        unfold ackState
        split
        · exact .inr hw'
        · exact .inr hw'
        · exact .inr hw'
        · exact exitDropafterack_ends e _ hw'
        · exact .inr hw'

end Reasons

theorem doFin_waits {G : Prop} {d : Conn} (fin : Bool) (h : Waits G d) : Waits G (doFin fin d) := by
  rcases h with hG | h
  · exact .inl hG
  refine .inr ?_
  unfold doFin
  split
  · have h1 : (finAdvance d).tp.tState.awaitsFinAck = true := by
      unfold finAdvance
      split
      · exact h
      · exact h
    generalize finAdvance d = d' at h1 ⊢
    unfold finState
    split
    -- of the states a FIN changes only FIN_WAIT_1 waits
    all_goals first | exact h1 | rfl | skip
    all_goals
      rename_i hs
      rw [hs] at h1
      cases h1
  · exact h

theorem inputTail_waits {G : Prop} (e : InEnv) {x : InSt} (h : Waits G x.conn) :
    (inputTail e x).Waits G := by
  have h6 : (step6 x).conn.tp.tState = x.conn.tp.tState := congrArg Prod.fst (step6_closePart x)
  have hd : (doData e (step6 x)).1.tp.tState = (step6 x).conn.tp.tState :=
    field_of_kept (fun c : Conn => c.tp.tState) (doData_kept e (step6 x)) fun _ => rfl
  have hf : Waits G (doFin (doData e (step6 x)).2 (doData e (step6 x)).1) := by
    refine doFin_waits _ ?_
    unfold Waits
    rwa [hd, h6]
  unfold inputTail inputOutput
  dsimp only
  rcases hf with hG | hf
  · exact .inl hG
  split
  · exact callOutput_waits e.out hf
  · exact .inr ⟨rfl, hf⟩

/-- **What ends a connection that waits for the ACK of its FIN.** -/
theorem tcpInput_waits {e : InEnv} {s : Seg} (hst : c.tp.tState.awaitsFinAck = true)
    (hsyn : s.th.thFlags.syn = false) (htext : (leftTrim (inputSetup e s c)).tlen = 0) :
    (tcpInput e s c).Waits (closeReason c s) := by
  have hhead : Ends (closeReason c s) (fun y => Waits (closeReason c s) y.conn)
      (inputHead e s (inputSetup e s c)) := by
    unfold inputHead
    split
    · rename_i hs
      rw [inputSetup_tState] at hs
      rw [hs] at hst
      cases hst
    · rename_i hs
      rw [inputSetup_tState] at hs
      rw [hs] at hst
      cases hst
    · refine Ends.bind (inputChecks_ends hst hsyn (inputSetup_sameAck e s c) htext) fun y hy => ?_
      refine Ends.bind (I := (· = y)) ?_ ?_
      · unfold ackSynReceived
        rw [hy.1.tState]
        split
        · rename_i hsr
          rw [hsr] at hst
          cases hst
        · exact Eq.refl y
      · rintro y1 rfl
        exact ackProcess_ends hst hy.1 hy.2
  unfold tcpInput
  split
  · rename_i hcl
    rw [hcl] at hst
    cases hst
  · revert hhead
    cases inputHead e s (inputSetup e s c) with
    | error r => exact id
    | ok x => exact inputTail_waits e

/-! ## Runs -/

/-- What can happen behind the close: timers, calls of `tcp_output` and segments without SYN and
    without new text. -/
def closedEvent (c : Conn) : Event → Prop
  | .input e s => s.th.thFlags.syn = false ∧ (leftTrim (inputSetup e s c)).tlen = 0
  | .output _ => True
  | .slowtimo _ => True
  | .fasttimo _ => True
  | _ => False

/-- No slow tick while the FIN waits for its acknowledgement. -/
def noSlowTick (c : Conn) : Event → Prop
  | .slowtimo _ => c.tp.tState.awaitsFinAck = false
  | _ => True

/-- `tcp_s_close`. -/
def closeEvents (env env' : Nat → SendEnv) : List Event := [.disconnect env, .detach env']

/-- The connection waits for the ACK of its FIN and has the unacknowledged bytes of `c₀`. -/
def Lingers (c₀ c : Conn) : Prop := c.tp.tState.awaitsFinAck = true ∧ Unacked c₀ c

/-- The event that ends the waiting. -/
def Finishes (c : Conn) (ev : Event) : Prop := ∃ e s, ev = .input e s ∧ closeReason c s

theorem lingers_closingP (h : Lingers c₀ c) : ClosingP c₀ c := by
  obtain ⟨h1, h2⟩ := h
  refine ⟨?_, fun _ => h2⟩
  revert h1
  cases c.tp.tState <;> decide

/-- One event behind the close. -/
theorem lingers_step {ev : Event} (h : Lingers c₀ c) (hc : closedEvent c ev)
    (ht : noSlowTick c ev) :
    Finishes c ev ∨ ∃ c', (connMachine c ev).1 = some c' ∧ Lingers c₀ c' := by
  have hcl := lingers_closingP h
  have hok : (connStep c ev).Ok (ClosingP c₀) := by
    refine connStep_ok (closingP_stable c₀) (closingP_user c₀) hcl ?_ ?_ ?_ ?_
    · rintro e s -
      exact tcpInput_ok (closingP_stable c₀) (closingP_input c₀ e s hcl) hcl
    · rintro data oob env rfl
      cases hc
    · rintro wr env rfl
      cases hc
    · rintro n rfl
      cases hc
  -- what is left to show is that the control block is there and waits
  have hres : Finishes c ev ∨ ((connStep c ev).gone = false ∧
      (connStep c ev).conn.tp.tState.awaitsFinAck = true) := by
    have hl : c.tp.tState ≠ .listen := by
      intro hs
      have := h.1
      rw [hs] at this
      cases this
    cases ev with
    | input e s =>
      rcases tcpInput_waits (e := e) h.1 hc.1 hc.2 with hG | hw
      · exact .inl ⟨e, s, rfl, hG⟩
      · exact .inr hw
    | output env =>
      refine .inr ?_
      simp only [connStep, if_neg hl]
      exact callOutput_awaits env h.1
    | slowtimo env =>
      have := h.1.symm.trans ht
      cases this
    | fasttimo env =>
      refine .inr ?_
      simp only [connStep, if_neg hl]
      unfold tcpFasttimo
      split
      · exact callOutput_awaits env h.1
      · exact ⟨rfl, h.1⟩
    | _ => cases hc
  rcases hres with hf | ⟨hg, hw⟩
  · exact .inl hf
  · refine .inr ⟨(connStep c ev).conn, ?_, hw, (hok.conn hg).2 hw⟩
    show (connStep c ev).next = _
    unfold Res.next
    rw [hg]
    rfl

/-- `tcp_disconnect` without `SO_LINGER` starts or repeats the shutdown. -/
theorem tcpDisconnect_awaits (env : Nat → SendEnv) {d : Conn} (hl : d.so.soLingerOpt = false)
    (hst : (usrclosedState d.tp.tState).awaitsFinAck = true)
    (hsy : TcpState.established.num ≤ d.tp.tState.num) :
    (tcpDisconnect env d).gone = false ∧
      (tcpDisconnect env d).conn.closePart =
        (usrclosedState d.tp.tState, d.tp.sndUna, d.so.soSnd.sbData) ∧
      (tcpDisconnect env d).conn.so.soLingerOpt = false := by
  obtain ⟨d1, hd1⟩ : ∃ d1 : Conn, d1 =
      { d with so := { soisdisconnecting d.so with soRcv := sbflush (soisdisconnecting d.so).soRcv } } :=
    ⟨_, rfl⟩
  obtain ⟨d2, hd2⟩ : ∃ d2 : Conn, d2 =
      { d1 with tp := { d1.tp with tState := usrclosedState d1.tp.tState } } := ⟨_, rfl⟩
  have hu : tcpUsrclosed d1 = ⟨d2, false, []⟩ := by
    have hst1 : usrclosedState d1.tp.tState ≠ .closed ∧
        ¬ TcpState.finWait2.num ≤ (usrclosedState d1.tp.tState).num := by
      rw [hd1]
      revert hst
      show _ → usrclosedState d.tp.tState ≠ .closed ∧ _
      cases usrclosedState d.tp.tState <;> decide
    unfold tcpUsrclosed
    rw [if_neg hst1.1, if_neg hst1.2, hd2]
  have heq : tcpDisconnect env d = callOutput env d2 := by
    unfold tcpDisconnect
    rw [if_neg (by omega), if_neg (by simp [hl])]
    show usrclosedOutput env _ = _
    rw [← hd1]
    unfold usrclosedOutput
    rw [hu]
    rfl
  obtain ⟨hso, htp⟩ := tcpOutput_kept env d2
  rw [heq]
  refine ⟨rfl, ?_, ?_⟩
  · show Conn.closePart (tcpOutput env d2).conn = _
    unfold Conn.closePart
    rw [hso, field_of_kept Tcpcb.tState htp fun _ => rfl, field_of_kept Tcpcb.sndUna htp fun _ => rfl,
      hd2, hd1]
    rfl
  · show (tcpOutput env d2).conn.so.soLingerOpt = false
    rw [hso, hd2, hd1]
    exact hl

theorem tcpDetach_awaits (env : Nat → SendEnv) {d : Conn} (hl : d.so.soLingerOpt = false)
    (hst : (usrclosedState d.tp.tState).awaitsFinAck = true)
    (hsy : TcpState.established.num ≤ d.tp.tState.num) :
    (tcpDetach env d).gone = false ∧
      (tcpDetach env d).conn.closePart =
        (usrclosedState d.tp.tState, d.tp.sndUna, d.so.soSnd.sbData) := by
  have hlt : TcpState.listen.num < d.tp.tState.num := by
    have : TcpState.listen.num < TcpState.established.num := by decide
    omega
  obtain ⟨h1, h2, -⟩ := tcpDisconnect_awaits env hl hst hsy
  unfold tcpDetach
  rw [if_pos hlt]
  exact ⟨h1, h2⟩

/-- The states `tcp_s_close` closes gracefully. -/
theorem usrclosed_awaits {st : TcpState} (h : st = .established ∨ st = .closeWait) :
    (usrclosedState st).awaitsFinAck = true ∧ TcpState.established.num ≤ st.num ∧
      TcpState.established.num ≤ (usrclosedState st).num ∧
      usrclosedState (usrclosedState st) = usrclosedState st := by
  rcases h with rfl | rfl <;> decide

/-- **`tcp_s_close` starts the shutdown and keeps the send buffer.** -/
theorem close_lingers (env env' : Nat → SendEnv)
    (hst : c.tp.tState = .established ∨ c.tp.tState = .closeWait)
    (hl : c.so.soLingerOpt = false) :
    ∃ c₁, (Machine.run connMachine (some c) (closeEvents env env')).1 = some c₁ ∧ Lingers c c₁ := by
  obtain ⟨h1, h2, h3, h4⟩ := usrclosed_awaits hst
  have hnl : c.tp.tState ≠ .listen := by
    rcases hst with h | h <;> rw [h] <;> decide
  -- behind `sodisconnect` the connection is unchanged or in the shutdown
  obtain ⟨d, hd, hdl, hdn, hu, hdsy, h5, h6⟩ : ∃ d, (connMachine c (.disconnect env)).1 = some d ∧
      d.so.soLingerOpt = false ∧ d.tp.tState ≠ .listen ∧
      (usrclosedState d.tp.tState).awaitsFinAck = true ∧
      TcpState.established.num ≤ d.tp.tState.num ∧ d.tp.sndUna = c.tp.sndUna ∧
      d.so.soSnd.sbData = c.so.soSnd.sbData := by
    have hs : connStep c (.disconnect env) = sodisconnect env c := if_neg hnl
    unfold connMachine
    rw [hs]
    unfold sodisconnect
    split
    · exact ⟨c, rfl, hl, hnl, h1, h2, rfl, rfl⟩
    · obtain ⟨g1, g2, g3⟩ := tcpDisconnect_awaits env hl h1 h2
      simp only [Conn.closePart, Prod.mk.injEq] at g2
      obtain ⟨e1, e2, e3⟩ := g2
      refine ⟨(tcpDisconnect env c).conn, ?_, g3, ?_, ?_, ?_, e2, e3⟩
      · simp [Res.next, g1]
      · rw [e1]
        intro hs'
        rw [hs'] at h1
        cases h1
      · rw [e1, h4]
        exact h1
      · rw [e1]
        exact h3
  obtain ⟨g1, g2⟩ := tcpDetach_awaits env' hdl hu hdsy
  have hdet : connStep d (.detach env') = tcpDetach env' d := if_neg hdn
  refine ⟨(tcpDetach env' d).conn, ?_, ?_, 0, Nat.zero_le _, ?_, ?_⟩
  · simp only [closeEvents, Machine.run, hd]
    simp [connMachine, hdet, Res.next, g1]
  · rw [show (tcpDetach env' d).conn.tp.tState = _ from congrArg Prod.fst g2]
    exact hu
  · rw [show (tcpDetach env' d).conn.so.soSnd.sbData = _ from congrArg (fun p => p.2.2) g2]
    exact h6
  · rw [show (tcpDetach env' d).conn.tp.sndUna = _ from congrArg (fun p => p.2.1) g2]
    simpa using h5

/-- **Close is graceful.**  A connection the user has closed keeps its control block and the bytes
    that are not acknowledged to the end of the run, or up to a RST or the ACK of its FIN, when no
    slow tick comes while the FIN is not acknowledged. -/
theorem close_graceful (env env' : Nat → SendEnv) {fs : List Event}
    (hst : c.tp.tState = .established ∨ c.tp.tState = .closeWait)
    (hl : c.so.soLingerOpt = false)
    (hg : Machine.Guarded connMachine (fun c ev => closedEvent c ev ∧ noSlowTick c ev)
      (Machine.run connMachine (some c) (closeEvents env env')).1 fs) :
    (∃ c', (Machine.run connMachine (some c) (closeEvents env env' ++ fs)).1 = some c' ∧
        Lingers c c') ∨
      ∃ fs₁ ev fs₂ c', fs = fs₁ ++ ev :: fs₂ ∧
        (Machine.run connMachine (some c) (closeEvents env env' ++ fs₁)).1 = some c' ∧
        Lingers c c' ∧ Finishes c' ev := by
  obtain ⟨c₁, hr, hc₁⟩ := close_lingers env env' hst hl
  rw [hr] at hg
  have happ : ∀ gs, (Machine.run connMachine (some c) (closeEvents env env' ++ gs)).1 =
      (Machine.run connMachine (some c₁) gs).1 := by
    intro gs
    rw [Machine.run_append, hr]
  rcases Machine.run_until (Lingers c) Finishes (fun d ev hd hc => lingers_step hd hc.1 hc.2) hc₁ hg
    with ⟨c', h1, h2⟩ | ⟨fs₁, ev, fs₂, c', h1, h2, h3, h4⟩
  · exact .inl ⟨c', (happ fs).trans h1, h2⟩
  · exact .inr ⟨fs₁, ev, fs₂, c', h1, (happ fs₁).trans h2, h3, h4⟩

instance (c : Conn) : ∀ ev, Decidable (closedEvent c ev)
  | .input _ _ => inferInstanceAs (Decidable (_ ∧ _))
  | .output _ | .slowtimo _ | .fasttimo _ => isTrue trivial
  | .send .. | .recv .. | .shutdown .. | .disconnect _ | .detach _ | .accept | .sockopt _ => isFalse id

instance (c : Conn) : ∀ ev, Decidable (noSlowTick c ev)
  | .slowtimo _ => inferInstanceAs (Decidable (_ = _))
  | .input .. | .output _ | .fasttimo _ | .send .. | .recv .. | .shutdown .. | .disconnect _ | .detach _
  | .accept | .sockopt _ => isTrue trivial

/-- Three bytes are sent on an established connection. -/
def sentEvents : List Event := connectEvents 100 ++ [.send [1, 2, 3] false fun _ => {}]

/-- The connection behind these events. -/
def sentRun : Option Conn := (Machine.run connMachine (some (activeOpen 1 newSocket)) sentEvents).1

theorem sentRun_isSome : sentRun.isSome = true := by decide +kernel

/-- The connection with three bytes in flight. -/
def sentConn : Conn := sentRun.get sentRun_isSome

/-- `tcp_s_close` with memory for every segment. -/
def plainClose : List Event := closeEvents (fun _ => {}) fun _ => {}

theorem plainClose_isSome :
    (Machine.run connMachine (some sentConn) plainClose).1.isSome = true := by decide +kernel

/-- An ACK of two of the three bytes. -/
def ackOfTwo : Seg :=
  Seg.bare { thSeq := 101, thAck := 4, thFlags := { ack := true }, thWin := 100 }

/-- The peer acknowledges two of the three bytes behind the close: the connection is kept, with the
    third byte. -/
theorem close_graceful_partial_ack :
    ∃ c', (Machine.run connMachine (some sentConn) (plainClose ++ [.input {} ackOfTwo])).1 =
      some c' ∧ c'.tp.tState.awaitsFinAck = true ∧ Unacked sentConn c' := by
  have hst : sentConn.tp.tState = .established := by decide +kernel
  have hl : sentConn.so.soLingerOpt = false := by decide +kernel
  have hg : Machine.Guarded connMachine (fun c ev => closedEvent c ev ∧ noSlowTick c ev)
      (Machine.run connMachine (some sentConn) plainClose).1 [.input {} ackOfTwo] := by
    decide +kernel
  rcases close_graceful _ _ (.inl hst) hl hg with h | ⟨fs₁, ev, fs₂, d, h1, h2, -, e, s, rfl, h4⟩
  · exact h
  · exfalso
    -- the ACK is the only event, and it does not cover the FIN
    cases fs₁ with
    | cons f fs => simp at h1
    | nil =>
      simp only [List.nil_append, List.cons.injEq, Event.input.injEq] at h1
      obtain ⟨⟨-, rfl⟩, -⟩ := h1
      rw [List.append_nil] at h2
      have hd : d = (Machine.run connMachine (some sentConn) plainClose).1.get
          plainClose_isSome := by
        simp only [plainClose, h2, Option.get_some]
      rw [hd] at h4
      revert h4
      unfold closeReason
      decide +kernel

/-- The retransmission limit is reached with this event. -/
def rexmtLimit (c : Conn) (ev : Event) : Prop :=
  (∃ env, ev = .slowtimo env) ∧ timerExpired c.tp.timerRexmt = true ∧
    TCP_MAXRXTSHIFT < c.tp.tRxtshift + 1

/-- The first slow tick behind the close releases a connection with three bytes and the FIN in
    flight. -/
theorem slow_tick_ends_close :
    ¬ ∀ (c₀ c : Conn) (es fs : List Event) (env env' : Nat → SendEnv), Start c₀ →
      (Machine.run connMachine (some c₀) es).1 = some c →
      (c.tp.tState = .established ∨ c.tp.tState = .closeWait) → c.so.soLingerOpt = false →
      Machine.Guarded connMachine closedEvent
        (Machine.run connMachine (some c) (closeEvents env env')).1 fs →
      (∃ c', (Machine.run connMachine (some c) (closeEvents env env' ++ fs)).1 = some c' ∧
          Lingers c c') ∨
        ∃ fs₁ ev fs₂ c', fs = fs₁ ++ ev :: fs₂ ∧
          (Machine.run connMachine (some c) (closeEvents env env' ++ fs₁)).1 = some c' ∧
          Lingers c c' ∧ (Finishes c' ev ∨ rexmtLimit c' ev) := by
  intro h
  have hst : sentConn.tp.tState = .established := by decide +kernel
  have hl : sentConn.so.soLingerOpt = false := by decide +kernel
  have hg : Machine.Guarded connMachine closedEvent
      (Machine.run connMachine (some sentConn) plainClose).1 [.slowtimo fun _ _ => {}] := by
    decide +kernel
  have hend : (Machine.run connMachine (some sentConn)
      (plainClose ++ [.slowtimo fun _ _ => {}])).1.isNone = true := by decide +kernel
  have hrun : (Machine.run connMachine (some (activeOpen 1 newSocket)) sentEvents).1 =
      some sentConn := (Option.some_get sentRun_isSome).symm
  rcases h _ _ _ _ _ _ (.active 1 newSocket newSocket_fresh) hrun (.inl hst) hl hg with
    ⟨c', h1, -⟩ | ⟨fs₁, ev, fs₂, d, h1, h2, -, h4⟩
  · have h1' : (Machine.run connMachine (some sentConn)
        (plainClose ++ [.slowtimo fun _ _ => {}])).1 = some c' := h1
    rw [h1'] at hend
    cases hend
  · cases fs₁ with
    | cons f fs => simp at h1
    | nil =>
      simp only [List.nil_append, List.cons.injEq] at h1
      obtain ⟨rfl, -⟩ := h1
      rcases h4 with ⟨e, s, h5, -⟩ | ⟨-, h5, -⟩
      · cases h5
      · rw [List.append_nil] at h2
        have hd : d = (Machine.run connMachine (some sentConn) plainClose).1.get
            plainClose_isSome := by
          simp only [plainClose, h2, Option.get_some]
        rw [hd] at h5
        revert h5
        decide +kernel

end TnNet
