import TnNet.Tcp.RecvText

/-!
# Frames of the receiving side

What the phases of `tcp_input`, the FIN step and `tcp_output` do to the fields of the receiving
side.

* `tcpOutput_adv_rule` — `tcp_output` writes `rcv_adv` only, and sets it at most
  `tcp_recvspace` and at most the free space ahead of `rcv_nxt` (`AdvMove`).
* `listenConn_rcvSide`, `synSentConn_rcvSide` — a SYN numbers the receiving side anew (`synced`).
* `ackedConn_rcvSide`, `doFin_rcvSide` — the state changes behind an ACK and behind a FIN.
-/

set_option autoImplicit false

namespace TnNet

open SeqArith ByteStream

/-! ## `tcp_output` -/

/-- What a pass of `tcp_output` does to `rcv_adv`. -/
def AdvMove (v : RcvSide) (a : BitVec 32) : Prop :=
  a = v.rcvAdv ∨
    ∃ w : Int, 0 < w ∧ w ≤ 1536 ∧ (0 ≤ sbspace v.soRcv → w ≤ sbspace v.soRcv) ∧
      a = v.rcvNxt + BitVec.ofInt 32 w

theorem urgTp_rcvAdv (c : Conn) : (urgTp c).rcvAdv = c.tp.rcvAdv := by
  rw [urgTp_eq, planTp_eq]

theorem advanceTp_rcvAdv (c : Conn) : (advanceTp c).rcvAdv = c.tp.rcvAdv := by
  rw [← urgTp_rcvAdv c]
  unfold advanceTp transmitTp probeTp
  dsimp only
  repeat' split
  all_goals rfl

theorem outTp_rcvAdv (error : Int) (tp : Tcpcb) : (outTp error tp).1.rcvAdv = tp.rcvAdv := by
  unfold outTp
  split
  · rfl
  · split <;> rfl

/-- A window that moves `rcv_adv` is the free space, not the old offer. -/
theorem sendWindow_move {c : Conn}
    (h : seqGt (c.tp.rcvNxt + BitVec.ofInt 32 (sendWindow c)) c.tp.rcvAdv = true) :
    sendWindow c ≤ 1536 ∧ (0 ≤ sbspace c.so.soRcv → sendWindow c ≤ sbspace c.so.soRcv) := by
  have hself : c.tp.rcvNxt + BitVec.ofInt 32 (sdist c.tp.rcvAdv c.tp.rcvNxt) = c.tp.rcvAdv := by
    unfold sdist
    rw [BitVec.ofInt_toInt, BitVec.add_comm, BitVec.sub_add_cancel]
  have hno : seqGt c.tp.rcvAdv c.tp.rcvAdv = false := by simp [seqGt, sdist_self]
  unfold sendWindow tcpRecvspace at h ⊢
  dsimp only at h ⊢
  generalize sbspace c.so.soRcv = win at h ⊢
  have hw : ∀ win' : Int, (win' = win ∨ win' = 0) →
      (if win' < 0 ∨ 1536 < win' then (1536 : Int) else win') ≤ 1536 ∧
        (0 ≤ win → (if win' < 0 ∨ 1536 < win' then (1536 : Int) else win') ≤ win) := by
    intro win' hw'
    split <;> omega
  have hz := hw (if win < (c.so.soRcv.sbHiwat : Int) / 4 ∧ win < (synTp c).tMaxseg then 0 else win)
    (by split <;> simp)
  generalize (if win < (c.so.soRcv.sbHiwat : Int) / 4 ∧ win < (synTp c).tMaxseg then (0 : Int)
    else win) = w1 at h hz ⊢
  generalize (if w1 < 0 ∨ 1536 < w1 then (1536 : Int) else w1) = w2 at h hz ⊢
  split
  · rename_i hlt
    rw [if_pos hlt, hself, hno] at h
    cases h
  · exact hz

theorem sentTp_adv (c : Conn) : AdvMove c.rcvSide (sentTp c).rcvAdv := by
  have hnx : (advanceTp c).rcvNxt = c.tp.rcvNxt :=
    field_of_kept Tcpcb.rcvNxt (advanceTp_kept c) fun _ => rfl
  unfold sentTp
  dsimp only
  rw [advanceTp_rcvAdv, hnx]
  split
  · rename_i h
    have hw : sendWin c = sendWindow c := by
      unfold sendWin at h ⊢
      split
      · rename_i hr
        simp [hr] at h
      · rfl
    rw [hw] at h ⊢
    obtain ⟨h1, h2⟩ := sendWindow_move h.2
    exact .inr ⟨sendWindow c, h.1, h1, h2, rfl⟩
  · exact .inl (advanceTp_rcvAdv c)

/-- A pass of `tcp_output` on the receiving side. -/
theorem tcpOutputPass_rcvSide (e : SendEnv) (idle : Bool) (c : Conn) :
    ∃ a, AdvMove c.rcvSide a ∧
      Conn.rcvSide { c with tp := (tcpOutputPass e idle c).tp } = { c.rcvSide with rcvAdv := a } := by
  have hk := tcpOutputPass_kept e idle c
  refine ⟨(tcpOutputPass e idle c).tp.rcvAdv, ?_, ?_⟩
  · have h := tcpOutputPass_cases e idle c
    generalize tcpOutputPass e idle c = p at h ⊢
    cases h with
    | quiet =>
      refine .inl ?_
      unfold quietTp
      split <;> rw [planTp_eq] <;> rfl
    | nobufs =>
      refine .inl ?_
      rw [outTp_rcvAdv, synTp_eq, planTp_eq]
      rfl
    | failed =>
      refine .inl ?_
      rw [outTp_rcvAdv, advanceTp_rcvAdv]
      rfl
    | sent => exact sentTp_adv c
  · have h1 := field_of_kept Tcpcb.tState hk fun _ => rfl
    have h2 := field_of_kept Tcpcb.tSegq hk fun _ => rfl
    have h3 := field_of_kept Tcpcb.rcvNxt hk fun _ => rfl
    have h4 := field_of_kept Tcpcb.irs hk fun _ => rfl
    unfold Conn.rcvSide
    dsimp only
    rw [h1, h2, h3, h4]

/-- **Rule for `tcp_output`.** -/
theorem tcpOutput_adv_rule {Q : RcvSide → Prop}
    (hQ : ∀ v a, Q v → AdvMove v a → Q { v with rcvAdv := a }) (env : Nat → SendEnv) {c : Conn}
    (h : Q c.rcvSide) : Q (tcpOutput env c).conn.rcvSide := by
  refine tcpOutput_invariant (P := fun c => Q c.rcvSide) (fun c hc => ?_) (fun e idle c hc => ?_)
    env c h
  · have hi : Conn.rcvSide { c with tp := idleTp c.tp } = c.rcvSide := by
      unfold idleTp
      split <;> rfl
    rw [hi]
    exact hc
  · obtain ⟨a, ha, he⟩ := tcpOutputPass_rcvSide e idle c
    rw [he]
    exact hQ _ a hc ha

/-! ## The SYN -/

/-- The receiving side behind a SYN with sequence number `irs`. -/
def RcvSide.synced (v : RcvSide) (irs : BitVec 32) (st : TcpState) : RcvSide :=
  { v with tState := st, irs := irs, rcvNxt := irs + 1, rcvAdv := irs + 1 }

theorem trimThenStep6_rcvSide (x : InSt) : (trimThenStep6 x).conn.rcvSide = x.conn.rcvSide := by
  unfold trimThenStep6
  dsimp only
  split <;> rfl

theorem listenConn_rcvSide (e : InEnv) (s : Seg) (x : InSt) :
    (listenConn e s x).rcvSide = x.conn.rcvSide.synced x.th.thSeq .synReceived := by
  have h := rcvSide_options s.th.thFlags.syn e.ifMtu s.opt
    { x.conn with tp := { x.tp with tTemplate := true } }
  unfold listenConn RcvSide.synced
  have hq := congrArg RcvSide.tSegq h
  unfold Conn.rcvSide at hq ⊢
  dsimp only at hq ⊢
  exact congrArg (fun q => RcvSide.mk _ q _ _ _ _ _) hq

/-- With nothing queued there is nothing to deliver. -/
theorem tcpPresent_nil {c : Conn} (h : c.tp.tSegq = []) : (tcpPresent c).1.rcvSide = c.rcvSide := by
  unfold tcpPresent
  split
  · split
    · rfl
    · rw [h]
      unfold presentLoop Conn.rcvSide
      rw [h]
  · rfl

theorem xmitTimer_rcvSide (c : Conn) (rtt : Int) :
    Conn.rcvSide { c with tp := tcpXmitTimer c.tp rtt } = c.rcvSide :=
  field_of_kept (fun tp => Conn.rcvSide { c with tp := tp }) (tcpXmitTimer_kept c.tp rtt)
    fun _ => rfl

theorem synSentConn_rcvSide {x : InSt} (h : x.tp.tSegq = []) :
    ∃ st, (st = .established ∨ st = .synReceived) ∧
      (synSentConn x).rcvSide = x.conn.rcvSide.synced x.th.thSeq st := by
  have hu : ∀ tp, tp = synSentUna x → tp.tSegq = x.tp.tSegq := by
    rintro tp rfl
    unfold synSentUna
    split <;> rfl
  unfold synSentConn
  dsimp only
  split
  · refine ⟨.established, .inl rfl, ?_⟩
    have hp := tcpPresent_nil (c := { tp := { tcpRcvseqinit
      { synSentUna x with timerRexmt := 0, irs := x.th.thSeq } with
        acknow := true, tState := .established }, so := soisconnected x.so }) ((hu _ rfl).trans h)
    split
    · rw [xmitTimer_rcvSide, hp]
      unfold Conn.rcvSide RcvSide.synced tcpRcvseqinit
      dsimp only
      rw [hu _ rfl]
      rfl
    · rw [hp]
      unfold Conn.rcvSide RcvSide.synced tcpRcvseqinit
      dsimp only
      rw [hu _ rfl]
      rfl
  · refine ⟨.synReceived, .inr rfl, ?_⟩
    unfold Conn.rcvSide RcvSide.synced tcpRcvseqinit
    dsimp only
    rw [hu _ rfl]
    rfl

/-! ## ACK and FIN -/

theorem synReceivedConn_rcvSide (x : InSt) :
    (synReceivedConn x).rcvSide =
      (tcpPresent { tp := { x.tp with tState := .established }, so := soisconnected x.so }).1.rcvSide :=
  rfl

theorem ackConn_rcvSide (x : InSt) : (ackConn x).rcvSide = x.conn.rcvSide := by
  have hk := ackRtt_kept x
  have h1 := field_of_kept (fun tp : Tcpcb => Conn.rcvSide { x.conn with tp := tp }) hk fun _ => rfl
  exact h1

/-- The state changes behind an ACK. -/
inductive AckMove (v : RcvSide) : RcvSide → Prop where
  | same : AckMove v v
  | finWait2 (h : v.tState = .finWait1) : AckMove v { v with tState := .finWait2 }
  | timeWait (h : v.tState = .closing) :
      AckMove v { v with tState := .timeWait, ssCantrcvmore := true }

theorem ackedConn_rcvSide (fin : Bool) (c : Conn) :
    AckMove c.rcvSide (ackedConn fin c).rcvSide := by
  unfold ackedConn
  split
  · rename_i hs
    split
    · unfold enterFinWait2
      split
      · rename_i hc
        have hc' : c.rcvSide.ssCantrcvmore = true := hc
        have he : (⟨{ c.tp with tState := .finWait2, timer2msl := tcpMaxidle },
            soisdisconnected c.so⟩ : Conn).rcvSide = { c.rcvSide with tState := .finWait2 } := by
          unfold Conn.rcvSide soisdisconnected at *
          dsimp only at *
          rw [hc']
        rw [he]
        exact .finWait2 hs
      · exact .finWait2 hs
    · exact .same
  · rename_i hs
    split
    · exact .timeWait hs
    · exact .same
  · exact .same

theorem updateWindow_rcvSide (x : InSt) : (updateWindow x).conn.rcvSide = x.conn.rcvSide := by
  unfold updateWindow
  split <;> rfl

theorem step6_rcvSide (x : InSt) : (step6 x).conn.rcvSide = x.conn.rcvSide := by
  rw [← updateWindow_rcvSide x]
  unfold step6
  dsimp only
  split <;> rfl

/-- `step6` does not touch the text. -/
theorem step6_textAt (x : InSt) {S : Peer} {b : BitVec 32} {p : Int} (h : x.TextAt S b p) :
    (step6 x).TextAt S b p := by
  have hu : (updateWindow x).TextAt S b p := by
    unfold updateWindow
    split <;> exact h
  unfold step6
  dsimp only
  split <;> exact hu

theorem step6_tlen (x : InSt) :
    (step6 x).tlen = x.tlen ∧ (step6 x).th = x.th ∧ (step6 x).tiflags = x.tiflags := by
  have hu : (updateWindow x).tlen = x.tlen ∧ (updateWindow x).th = x.th ∧
      (updateWindow x).tiflags = x.tiflags := by
    unfold updateWindow
    split <;> exact ⟨rfl, rfl, rfl⟩
  unfold step6
  dsimp only
  split <;> exact hu

/-- The receiving side behind the FIN step. -/
theorem doFin_rcvSide {c : Conn} (he : c.tp.tState.haveEstablished = true)
    (hf : c.tp.tState.haveRcvdFin = false) :
    ∃ st : TcpState, st.haveRcvdFin = true ∧ (doFin true c).rcvSide =
      { c.rcvSide with tState := st, rcvNxt := c.tp.rcvNxt + 1, ssCantrcvmore := true } := by
  have ha : finAdvance c =
      ⟨{ c.tp with acknow := true, rcvNxt := c.tp.rcvNxt + 1 }, socantrcvmore c.so⟩ := by
    unfold finAdvance
    rw [hf]
    rfl
  unfold doFin
  rw [if_pos rfl, ha]
  unfold finState
  dsimp only
  cases hs : c.tp.tState <;> rw [hs] at he hf
  all_goals first
    | exact ⟨.closeWait, rfl, rfl⟩
    | exact ⟨.closing, rfl, rfl⟩
    | exact ⟨.timeWait, rfl, rfl⟩
    | (exfalso; revert he hf; decide)

/-- Before the connection is established no text moves `rcv_nxt`. -/
theorem doData_synReceived {e : InEnv} {x : InSt} (h : x.tp.tState = .synReceived) :
    (doData e x).1.tp.rcvNxt = x.tp.rcvNxt := by
  have hp : ∀ c : Conn, c.tp.tState = .synReceived → (tcpPresent c).1.tp.rcvNxt = c.tp.rcvNxt := by
    intro c hc
    unfold tcpPresent
    rw [hc]
    rfl
  unfold doData
  split
  · split
    · rename_i ho
      simp [inOrder, h] at ho
    · unfold outOfOrder tcpReass
      dsimp only
      split
      · split
        · rfl
        · exact hp _ h
      · rfl
  · rfl

end TnNet
