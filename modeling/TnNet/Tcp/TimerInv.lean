import TnNet.Tcp.Rules

/-!
# The retransmit and the persist timer

`TimerInv`: the two timers are never both running, `t_rxtcur` lies in its range and `t_rttmin`
keeps its value.  The invariant survives every event.

Principal result: `rexmt_persist_exclusive`.
-/

set_option autoImplicit false

namespace TnNet

open SeqArith

/-- One of the two timers is stopped. -/
def TimerExcl (tp : Tcpcb) : Prop := tp.timerRexmt = 0 ∨ tp.timerPersist = 0

/-- The invariant of the timers. -/
structure TimerInv (c : Conn) : Prop where
  excl : TimerExcl c.tp
  rxtcur_ge : 2 ≤ c.tp.tRxtcur
  rxtcur_le : c.tp.tRxtcur ≤ 128
  rttmin : c.tp.tRttmin = 2

/-- The fields the invariant reads. -/
def Tcpcb.timers (tp : Tcpcb) : Int × Int × Int × Int :=
  (tp.timerRexmt, tp.timerPersist, tp.tRxtcur, tp.tRttmin)

theorem TimerInv.congr {c c' : Conn} (h : TimerInv c) (hk : c'.tp.timers = c.tp.timers) :
    TimerInv c' := by
  obtain ⟨h1, h2, h3, h4⟩ := h
  simp only [Tcpcb.timers, Prod.mk.injEq] at hk
  obtain ⟨k1, k2, k3, k4⟩ := hk
  exact ⟨by unfold TimerExcl at *; rw [k1, k2]; exact h1, k3 ▸ h2, k3 ▸ h3, k4 ▸ h4⟩

/-! ## `tcp_output` -/

theorem planTp_excl {c : Conn} (h : TimerExcl c.tp) : TimerExcl (planTp c) := by
  have hf : TimerExcl (forceTp c.tp) := by
    unfold forceTp
    split
    · exact .inr rfl
    · exact h
  unfold planTp
  split
  · exact .inl rfl
  · exact hf

theorem transmitTp_excl (syn fin : Bool) (len : Int) {tp : Tcpcb} (h : TimerExcl tp) :
    TimerExcl (transmitTp syn fin len tp) := by
  unfold transmitTp
  dsimp only
  repeat' split
  all_goals first | exact .inr rfl | exact h | skip
  -- the retransmit timer is armed without a running persist timer
  all_goals exact .inr (not_not.mp ‹¬ tp.timerPersist ≠ 0›)

theorem advanceTp_excl {c : Conn} (h : TimerExcl c.tp) : TimerExcl (advanceTp c) := by
  have hu : TimerExcl (urgTp c) := by
    rw [urgTp_eq]
    exact planTp_excl h
  unfold advanceTp
  split
  · exact transmitTp_excl _ _ _ hu
  · unfold probeTp
    split <;> exact hu

theorem tcpOutputPass_excl (e : SendEnv) (idle : Bool) {c : Conn} (h : TimerExcl c.tp) :
    TimerExcl (tcpOutputPass e idle c).tp := by
  have hcase := tcpOutputPass_cases e idle c
  generalize tcpOutputPass e idle c = p at hcase ⊢
  have ho : ∀ error tp, TimerExcl tp → TimerExcl (outTp error tp).1 := by
    intro error tp h
    unfold outTp
    split
    · exact h
    · split <;> exact h
  cases hcase with
  | quiet =>
    dsimp only
    unfold quietTp
    split
    · rename_i hq
      exact .inl hq.2.1
    · exact planTp_excl h
  | nobufs =>
    refine ho _ _ ?_
    rw [synTp_eq]
    exact planTp_excl h
  | failed => exact ho _ _ (advanceTp_excl h)
  | sent =>
    dsimp only
    unfold sentTp
    dsimp only
    split <;> exact advanceTp_excl h

theorem tcpOutput_timerInv (env : Nat → SendEnv) {c : Conn} (h : TimerInv c) :
    TimerInv (tcpOutput env c).conn := by
  have hk := (tcpOutput_kept env c).2
  have h1 : (tcpOutput env c).conn.tp.tRxtcur = c.tp.tRxtcur :=
    field_of_kept _ hk fun _ => rfl
  have h2 : (tcpOutput env c).conn.tp.tRttmin = c.tp.tRttmin :=
    field_of_kept _ hk fun _ => rfl
  refine ⟨?_, h1 ▸ h.rxtcur_ge, h1 ▸ h.rxtcur_le, h2 ▸ h.rttmin⟩
  refine tcpOutput_invariant (P := fun c => TimerExcl c.tp) ?_ ?_ env c h.excl
  · intro c hc
    unfold idleTp
    split <;> exact hc
  · intro e idle c hc
    exact tcpOutputPass_excl e idle hc

/-! ## The other functions -/

theorem timerInv_stable : Stable TimerInv where
  core h hk := h.congr (field_of_kept (fun c => c.tp.timers) hk fun _ => rfl)
  output env _ h := tcpOutput_timerInv env h
  options syn mtu opt c h :=
    h.congr (field_of_kept Tcpcb.timers (tcpDooptions_kept syn mtu opt c.tp) fun _ => rfl)
  drop _ h := h.congr rfl

/-- A new `t_rxtcur` stays in its range. -/
theorem rxtcur_bounds (value : Int) {rttmin : Int} (h : rttmin = 2) :
    2 ≤ rangeset value rttmin TCPTV_REXMTMAX ∧ rangeset value rttmin TCPTV_REXMTMAX ≤ 128 := by
  subst h
  exact rangeset_bounds value (by decide)

theorem tcpXmitTimer_timerInv {tp : Tcpcb} {so : SocketTcp} (rtt : Int) (h : TimerInv ⟨tp, so⟩) :
    TimerInv ⟨tcpXmitTimer tp rtt, so⟩ := by
  obtain ⟨h1, -, -, h4⟩ := h
  have hk : ∀ tp1 : Tcpcb, tp1.tRttmin = 2 → TimerExcl tp1 → TimerInv
      ⟨{ tp1 with
          tRtt := 0
          tRxtshift := 0
          tRxtcur := rangeset (tcpRexmtval tp1) tp1.tRttmin TCPTV_REXMTMAX
          tSofterror := 0 }, so⟩ := by
    intro tp1 hm he
    obtain ⟨hl, hu⟩ := rxtcur_bounds (tcpRexmtval tp1) hm
    exact ⟨he, hl, hu, hm⟩
  unfold tcpXmitTimer
  dsimp only
  split
  · exact hk _ h4 h1
  · exact hk _ h4 h1

theorem tcpPresent_timers (c : Conn) : (tcpPresent c).1.tp.timers = c.tp.timers :=
  field_of_kept (fun c => c.tp.timers) (tcpPresent_kept c) fun _ => rfl

theorem ackTimer_timerInv {tp : Tcpcb} {so : SocketTcp} (ack : BitVec 32)
    (h : TimerInv ⟨tp, so⟩) : TimerInv ⟨ackTimer ack tp, so⟩ := by
  have hx : TimerInv ⟨if tp.tRtt ≠ 0 ∧ seqGt ack tp.tRtseq then tcpXmitTimer tp tp.tRtt else tp,
      so⟩ := by
    split
    · exact tcpXmitTimer_timerInv _ h
    · exact h
  revert hx
  unfold ackTimer
  generalize (if tp.tRtt ≠ 0 ∧ seqGt ack tp.tRtseq then tcpXmitTimer tp tp.tRtt else tp) = tp1
  intro hx
  dsimp only
  split
  · exact ⟨.inl rfl, hx.rxtcur_ge, hx.rxtcur_le, hx.rttmin⟩
  · split
    · rename_i hp
      exact ⟨.inr hp, hx.rxtcur_ge, hx.rxtcur_le, hx.rttmin⟩
    · exact hx

theorem synSentConn_timerInv {x : InSt} (h : TimerInv x.conn) : TimerInv (synSentConn x) := by
  have hu : (synSentUna x).timers = x.tp.timers := by
    unfold synSentUna
    split <;> rfl
  simp only [Tcpcb.timers, Prod.mk.injEq] at hu
  obtain ⟨-, -, u3, u4⟩ := hu
  have h0 : ∀ so st, TimerInv ⟨{ tcpRcvseqinit { synSentUna x with
      timerRexmt := 0, irs := x.th.thSeq } with acknow := true, tState := st }, so⟩ := fun so st =>
    ⟨.inl rfl, u3 ▸ h.rxtcur_ge, u3 ▸ h.rxtcur_le, u4 ▸ h.rttmin⟩
  unfold synSentConn
  dsimp only
  split
  · have hp := (h0 (soisconnected x.so) .established).congr (tcpPresent_timers _)
    split
    · exact tcpXmitTimer_timerInv _ hp
    · exact hp
  · exact h0 _ _

theorem listenConn_timers (e : InEnv) (s : Seg) (x : InSt) :
    (listenConn e s x).tp.timers = x.tp.timers := by
  have h := field_of_kept Tcpcb.timers
    (tcpDooptions_kept s.th.thFlags.syn e.ifMtu s.opt { x.tp with tTemplate := true }) fun _ => rfl
  exact h

theorem trimThenStep6_timers (x : InSt) : (trimThenStep6 x).conn.tp.timers = x.tp.timers := by
  unfold trimThenStep6
  dsimp only
  split <;> rfl

theorem step6_timers (x : InSt) : (step6 x).conn.tp.timers = x.tp.timers := by
  have hu : (updateWindow x).tp.timers = x.tp.timers := by
    unfold updateWindow
    split <;> rfl
  unfold step6
  dsimp only
  split <;> exact hu

theorem doFin_timerInv (fin : Bool) {c : Conn} (h : TimerInv c) : TimerInv (doFin fin c) := by
  have ha : TimerInv (finAdvance c) := by
    unfold finAdvance
    split
    · exact h
    · exact h.congr rfl
  unfold doFin
  split
  · generalize finAdvance c = d at ha ⊢
    unfold finState
    split
    · exact ha.congr rfl
    · exact ha.congr rfl
    · exact ha.congr rfl
    · exact ⟨.inl rfl, ha.rxtcur_ge, ha.rxtcur_le, ha.rttmin⟩
    · exact ha.congr rfl
    · exact ha
  · exact h

theorem ackConn_timerInv {x : InSt} (h : TimerInv x.conn) : TimerInv (ackConn x) := by
  have h1 : TimerInv ⟨ackDeflate x.tp, x.so⟩ := h.congr rfl
  exact (ackTimer_timerInv x.th.thAck h1).congr rfl

theorem ackedConn_timerInv (fin : Bool) {c : Conn} (h : TimerInv c) :
    TimerInv (ackedConn fin c) := by
  unfold ackedConn enterFinWait2 enterTimeWait
  split
  · split
    · split <;> exact h.congr rfl
    · exact h
  · split
    · exact ⟨.inl rfl, h.rxtcur_ge, h.rxtcur_le, h.rttmin⟩
    · exact h
  · exact h

theorem timerInv_input (e : InEnv) (s : Seg) {c : Conn} (h : TimerInv c) :
    InputInv TimerInv (fun x => TimerInv x.conn) (fun x => TimerInv x.conn)
      (fun x => TimerInv x.conn) e s c where
  conn _ hx := hx
  connT _ hx := hx
  setup _ := inputSetup_ok timerInv_stable e s h
  checks y hx _ _ hy := timerInv_stable.core hx (hy.trim.core.trans (leftTrim_core _))
  listen x hx _ _ _ _ := hx.congr ((trimThenStep6_timers _).trans (listenConn_timers e s x))
  synSent x hx _ _ _ _ := (synSentConn_timerInv hx).congr (trimThenStep6_timers _)
  synReceived x hx _ _ _ _ _ := by
    refine TimerInv.congr (c := x.conn) hx ?_
    unfold synReceivedConn
    dsimp only
    exact tcpPresent_timers _
  other _ hx _ _ _ _ := hx
  dup _ hx _ := hx
  beyond _ hx _ := hx
  dupacks x n hx := hx.congr rfl
  fastRexmt x hx _ := by
    have h1 : TimerInv { x.conn with tp := fastRexmtTp x } :=
      ⟨.inl rfl, hx.rxtcur_ge, hx.rxtcur_le, hx.rttmin⟩
    exact ⟨h1, (tcpOutput_timerInv e.out h1).congr rfl⟩
  ackNew x b hx _ _ _ _ _ := ackedConn_timerInv _ (ackConn_timerInv hx)
  tail x hx _ := by
    refine doFin_timerInv _ (hx.congr ?_)
    have hd := field_of_kept (fun c => c.tp.timers) (doData_kept e (step6 x)) fun _ => rfl
    exact Eq.trans hd (step6_timers x)

theorem tcpSetpersist_pos (tp : Tcpcb) : (tcpSetpersist tp).timerPersist ≠ 0 := by
  have h : (10 : Int) ≤ (tcpSetpersist tp).timerPersist :=
    (rangeset_bounds _ (show TCPTV_PERSMIN ≤ TCPTV_PERSMAX by decide)).1
  omega

theorem timerInv_user : UserInv TimerInv where
  tickRexmt c h := by
    refine ⟨?_, h.rxtcur_ge, h.rxtcur_le, h.rttmin⟩
    rcases h.excl with hr | hp
    · exact .inl (timerTick_zero hr)
    · exact .inr hp
  rexmt c h he := by
    obtain ⟨hl, hu⟩ := rxtcur_bounds
      (tcpRexmtval c.tp * tcpBackoff (c.tp.tRxtshift + 1)) h.rttmin
    -- the expired timer was running, so the persist timer is stopped
    exact ⟨.inr (h.excl.resolve_left (timerExpired_ne he)), hl, hu, h.rttmin⟩
  tickPersist c h := by
    refine ⟨?_, h.rxtcur_ge, h.rxtcur_le, h.rttmin⟩
    rcases h.excl with hr | hp
    · exact .inl hr
    · exact .inr (timerTick_zero hp)
  persist c h he :=
    ⟨.inl (h.excl.resolve_right (timerExpired_ne he)), h.rxtcur_ge, h.rxtcur_le, h.rttmin⟩
  sbdrop c n h := h.congr rfl
  cantsendmore c h := h.congr rfl
  disconnecting c h := h.congr rfl
  disconnected c h := h.congr rfl
  usrclosed c h _ _ := h.congr rfl
  sndbuf c n h := h.congr rfl

theorem timerInv_start {c : Conn} (h : Start c) : TimerInv c := by
  have hr : 2 ≤ tcpNewtcpcb.tRxtcur ∧ tcpNewtcpcb.tRxtcur ≤ 128 :=
    rangeset_bounds 12 (show 2 ≤ TCPTV_REXMTMAX by decide)
  cases h with
  | active iss so _ => exact ⟨.inl rfl, hr.1, hr.2, rfl⟩
  | passive so _ => exact ⟨.inl rfl, hr.1, hr.2, rfl⟩

theorem timerInv_step (c : Conn) (ev : Event) (h : TimerInv c) : (connStep c ev).Ok TimerInv :=
  connStep_ok timerInv_stable timerInv_user h
    (fun e s _ => tcpInput_ok timerInv_stable (timerInv_input e s h) h)
    (fun _ _ _ _ _ => h.congr rfl) (fun _ _ _ => h.congr rfl) (fun _ _ => h.congr rfl)

theorem timerInv_run {c : Conn} (hc : Start c) (es : List Event) :
    (∀ c', (Machine.run connMachine (some c) es).1 = some c' → TimerInv c') ∧
      ∀ k ∈ (Machine.run connMachine (some c) es).2, TimerInv k.pre :=
  connRun_ok (fun _ _ => True) (fun c ev h _ => timerInv_step c ev h) (timerInv_start hc)
    (Machine.guarded_true _ _ _)

/-- **Retransmit and persist are mutually exclusive**, in every state of every run, in front of
    every call of `tcp_output` and behind it. -/
theorem rexmt_persist_exclusive {c : Conn} (hc : Start c) (es : List Event) :
    (∀ c', (Machine.run connMachine (some c) es).1 = some c' →
      ¬ (c'.tp.timerRexmt ≠ 0 ∧ c'.tp.timerPersist ≠ 0)) ∧
    ∀ k ∈ (Machine.run connMachine (some c) es).2,
      ¬ (k.pre.tp.timerRexmt ≠ 0 ∧ k.pre.tp.timerPersist ≠ 0) ∧
      ¬ (k.res.conn.tp.timerRexmt ≠ 0 ∧ k.res.conn.tp.timerPersist ≠ 0) := by
  have hex : ∀ {tp : Tcpcb}, TimerExcl tp → ¬ (tp.timerRexmt ≠ 0 ∧ tp.timerPersist ≠ 0) := by
    rintro tp (h | h) ⟨h1, h2⟩
    · exact h1 h
    · exact h2 h
  obtain ⟨h1, h2⟩ := timerInv_run hc es
  exact ⟨fun c' hc' => hex (h1 c' hc').excl,
    fun k hk => ⟨hex (h2 k hk).excl, hex (tcpOutput_timerInv k.env (h2 k hk)).excl⟩⟩

/-- A SYN that is sent arms the retransmit timer and not the persist timer. -/
theorem rexmt_persist_exclusive_syn_sent :
    (Machine.run connMachine (some (activeOpen 1 {})) [.output fun _ => {}]).1.map
        (fun c => (c.tp.timerRexmt, c.tp.timerPersist)) = some (12, 0) ∧
      ∀ c', (Machine.run connMachine (some (activeOpen 1 {})) [.output fun _ => {}]).1 = some c' →
        ¬ (c'.tp.timerRexmt ≠ 0 ∧ c'.tp.timerPersist ≠ 0) :=
  ⟨by decide +kernel,
    (rexmt_persist_exclusive (.active 1 {} (by constructor <;> decide)) [.output fun _ => {}]).1⟩

end TnNet
