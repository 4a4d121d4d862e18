import TnNet.Tcp.TimerInv
import TnNet.Tcp.SendRules

/-!
# Stalls of the sender

A sender with unacknowledged data waits for the peer unless the retransmit timer or the persist
timer runs.  `tcp_output` enters the persist state only where it has no reason to send.  The
branch for a window that has shrunk to zero stops the retransmit timer; when there is a reason to
send all the same (a pure ACK, a window update) or no memory for the packet, the call returns
with both timers stopped.

* `Stall` — the states from which a call of `tcp_output` returns so;
* `tcpOutput_running` — every other call leaves a timer running, and this one does not;
* `no_silent_stall` — the same for the calls of every run.
-/

set_option autoImplicit false

namespace TnNet

open SeqArith

/-- One of the two timers of the output side runs. -/
def Tcpcb.running (tp : Tcpcb) : Prop := tp.timerRexmt ≠ 0 ∨ tp.timerPersist ≠ 0

instance (tp : Tcpcb) : Decidable tp.running := inferInstanceAs (Decidable (_ ∨ _))

/-- The retransmit timer is stopped, or a closed window stops it. -/
def rexmtStops (tp : Tcpcb) : Prop :=
  tp.timerRexmt = 0 ∨ (useWin tp = 0 ∧ tp.sndNxt ≠ tp.sndUna)

/-- The persist timer is stopped, or an open window stops it in a forced call. -/
def persistStops (tp : Tcpcb) : Prop :=
  tp.timerPersist = 0 ∨ (tp.tForce = true ∧ sndWin tp ≠ 0)

/-- No memory for the packet, or no room in the window for a byte of it. -/
def nothingNew (e : SendEnv) (c : Conn) : Prop :=
  e.mbGet = false ∨
    (e.mCopy = false ∧ sndOff c.tp < min (c.so.soSnd.sbCc : Int) (useWin c.tp)) ∨
    useWin c.tp = 0 ∨ (useWin c.tp < 0 ∧ c.tp.sndNxt = c.tp.sndUna)

/-- A pass stops both timers, has a reason to send and sends nothing that arms a timer. -/
def StallPass (e : SendEnv) (idle : Bool) (c : Conn) : Prop :=
  rexmtStops c.tp ∧ persistStops c.tp ∧ tcpOutputWanted idle c = true ∧ nothingNew e c

instance (e : SendEnv) (idle : Bool) (c : Conn) : Decidable (StallPass e idle c) := by
  unfold StallPass rexmtStops persistStops nothingNew
  infer_instance

/-- The states from which a call of `tcp_output` leaves both timers stopped. -/
def Stall (e : SendEnv) (c : Conn) : Prop :=
  StallPass e (decide (c.tp.sndMax = c.tp.sndUna)) { c with tp := idleTp c.tp }

instance (e : SendEnv) (c : Conn) : Decidable (Stall e c) :=
  inferInstanceAs (Decidable (StallPass _ _ _))

section

variable {c : Conn} {e : SendEnv} {U N M : Int}

/-! ## One pass -/

theorem SndInv.planTp_rexmt (h : SndInv c U N M) :
    (planTp c).timerRexmt = 0 ↔ rexmtStops c.tp := by
  have hoff := h.off
  have hspan := h.span
  have h1 := h.una_le
  have h2 := h.nxt_le
  have hne : c.tp.sndNxt ≠ c.tp.sndUna ↔ N ≠ U := not_congr (h.nxt.eq_iff h.una (by omega) (by omega))
  have hft : (forceTp c.tp).timerRexmt = c.tp.timerRexmt := by
    unfold forceTp
    split <;> rfl
  unfold rexmtStops
  rw [hne]
  unfold planTp
  split
  · rename_i hs
    unfold rawLen at hs
    refine ⟨fun _ => .inr ⟨hs.2, by omega⟩, fun _ => rfl⟩
  · rename_i hs
    rw [hft]
    refine ⟨.inl, fun hor => hor.resolve_right ?_⟩
    rintro ⟨hw, hN⟩
    refine hs ⟨?_, hw⟩
    unfold rawLen
    omega

theorem planTp_persist_iff (c : Conn) : (planTp c).timerPersist = 0 ↔ persistStops c.tp := by
  have hpl : (planTp c).timerPersist = (forceTp c.tp).timerPersist := by
    unfold planTp
    split <;> rfl
  rw [hpl]
  unfold forceTp persistStops
  split
  · rename_i hs
    exact ⟨fun _ => .inr hs, fun _ => rfl⟩
  · rename_i hs
    exact ⟨.inl, fun hor => hor.resolve_right hs⟩

theorem SndInv.planTp_running (h : SndInv c U N M) :
    (planTp c).running ↔ ¬ (rexmtStops c.tp ∧ persistStops c.tp) := by
  rw [← h.planTp_rexmt, ← planTp_persist_iff]
  unfold Tcpcb.running
  tauto

theorem transmitTp_running (syn fin : Bool) (len : Int) {tp : Tcpcb} (hr : tp.tRxtcur ≠ 0) :
    (transmitTp syn fin len tp).running ↔
      tp.running ∨ nextSeq syn fin len tp.sndNxt ≠ tp.sndUna := by
  have ht : ∀ tp1 tp2 : Tcpcb, tp1.timerRexmt = tp2.timerRexmt →
      tp1.timerPersist = tp2.timerPersist → (tp1.running ↔ tp2.running) := by
    intro tp1 tp2 h1 h2
    unfold Tcpcb.running
    rw [h1, h2]
  unfold transmitTp
  dsimp only
  generalize nextSeq syn fin len tp.sndNxt = nxt
  obtain ⟨tp2, htp2⟩ : ∃ tp2, tp2 = (if seqGt nxt tp.sndMax then
      if tp.tRtt = 0 then
        { tp with sndNxt := nxt, sentfin := tp.sentfin || fin, sndMax := nxt, tRtt := 1
                  tRtseq := tp.sndNxt }
      else { tp with sndNxt := nxt, sentfin := tp.sentfin || fin, sndMax := nxt }
    else { tp with sndNxt := nxt, sentfin := tp.sentfin || fin }) := ⟨_, rfl⟩
  have h2 : tp2.timerRexmt = tp.timerRexmt ∧ tp2.timerPersist = tp.timerPersist := by
    rw [htp2]
    split
    · split <;> exact ⟨rfl, rfl⟩
    · exact ⟨rfl, rfl⟩
  rw [← htp2]
  split
  · rename_i hs
    have : ∀ tp3 : Tcpcb, tp3.timerRexmt = tp.tRxtcur → tp3.running := by
      intro tp3 h3
      exact .inl (h3 ▸ hr)
    split
    · exact ⟨fun _ => .inr hs.2, fun _ => this _ rfl⟩
    · exact ⟨fun _ => .inr hs.2, fun _ => this _ rfl⟩
  · rename_i hs
    rw [ht tp2 tp h2.1 h2.2]
    refine ⟨.inl, fun hor => hor.elim id fun hne => .inl fun h0 => hs ⟨h0, hne⟩⟩

/-- What follows `ip_output` leaves the timers alone. -/
theorem outTp_running (error : Int) (tp : Tcpcb) : (outTp error tp).1.running ↔ tp.running := by
  unfold outTp
  split
  · exact Iff.rfl
  · split <;> exact Iff.rfl

theorem sentTp_running (c : Conn) : (sentTp c).running ↔ (advanceTp c).running := by
  unfold sentTp
  dsimp only
  split <;> exact Iff.rfl

theorem advanceTp_running (hr : c.tp.tRxtcur ≠ 0) :
    (advanceTp c).running ↔ (planTp c).running ∨
      nextSeq (tcpOutflags c.tp.tState).syn (sendFin c) (sendLen c) (finBackTp c).sndNxt ≠
        c.tp.sndUna := by
  have h1 : (urgTp c).running ↔ (planTp c).running := by
    rw [urgTp_eq]
    exact Iff.rfl
  have h2 : (urgTp c).tRxtcur = c.tp.tRxtcur := by rw [urgTp_eq, planTp_eq]
  have h3 : (urgTp c).sndNxt = (finBackTp c).sndNxt := by rw [urgTp_eq]
  have h4 : (urgTp c).sndUna = c.tp.sndUna := by rw [urgTp_eq, planTp_eq]
  unfold advanceTp
  split
  · rw [transmitTp_running _ _ _ (h2 ▸ hr), h1, h3, h4]
  · rename_i hp
    simp only [not_or] at hp
    -- a probe: the persist timer runs
    have hrun : (urgTp c).running := .inr hp.2
    have hprobe : (probeTp (sendLen c) (urgTp c)).running := by
      unfold probeTp
      split <;> exact hrun
    exact ⟨fun _ => .inl (h1.mp hrun), fun _ => hprobe⟩

theorem sendOpen_flags {s : TcpState} (h : s.sendOpen = true) :
    (tcpOutflags s).syn = false ∧ (tcpOutflags s).fin = false := by
  cases s <;> simp_all [TcpState.sendOpen, tcpOutflags]

/-- The packet leaves `snd_nxt` at `snd_una`. -/
theorem SndInv.nextSeq_una (h : SndInv c U N M) (hst : c.tp.tState.sendOpen = true)
    (hcc : c.so.soSnd.sbCc ≠ 0) :
    nextSeq (tcpOutflags c.tp.tState).syn (sendFin c) (sendLen c) (finBackTp c).sndNxt =
        c.tp.sndUna ↔
      useWin c.tp = 0 ∨ (useWin c.tp < 0 ∧ c.tp.sndNxt = c.tp.sndUna) := by
  obtain ⟨hsyn, hnf⟩ := sendOpen_flags hst
  have hfin : sendFin c = false := by simp [sendFin, planFin, hnf]
  have hseq : (finBackTp c).sndNxt = (planTp c).sndNxt := by
    rw [finBackTp_sndNxt, if_neg (by simp [hfin]), synTp_of_not_syn (by simp [hsyn])]
  have hspan := h.span
  have hoff := h.off
  have h1 := h.una_le
  have h2 := h.nxt_le
  have hlow := h.maxseg.1
  have hnn := planLen_nonneg c
  have hle : planLen c ≠ 0 → N - U + planLen c ≤ c.so.soSnd.sbCc := fun hl => (h.planLen_le hl).2
  have hccle := h.cc_le
  unfold sbreserveMax at hccle
  -- where the length computation leaves `snd_nxt`
  obtain ⟨N1, hN1, hcase, hcl⟩ : ∃ N1, At c.tp.iss (TnNet.planTp c).sndNxt N1 ∧
      (N1 = N ∨ N1 = U) ∧ (N1 ≠ N → useWin c.tp = 0) ∧ (useWin c.tp = 0 → N1 = U) := by
    unfold TnNet.planTp
    split
    · rename_i hs
      exact ⟨U, h.una, .inr rfl, fun _ => hs.2, fun _ => rfl⟩
    · rename_i hs
      refine ⟨N, ?_, .inl rfl, fun hne => absurd rfl hne, fun hw => ?_⟩
      · unfold forceTp
        split <;> exact h.nxt
      · have hr : ¬ rawLen c < 0 := fun hr => hs ⟨hr, hw⟩
        unfold rawLen at hr
        omega
  have hz : planLen c = 0 ↔ ¬ sndOff c.tp < min (c.so.soSnd.sbCc : Int) (useWin c.tp) := by
    rw [← h.planLen_ne_zero, not_not]
  rw [hseq, hsyn, hfin, h.sendLen_eq,
    (nextSeq_at hN1 false false (planLen c)).eq_iff h.una
      (by simp only [Bool.toNat_false]; omega) (by simp only [Bool.toNat_false]; omega),
    h.nxt.eq_iff h.una (by omega) (by omega)]
  simp only [Bool.toNat_false]
  omega

/-- **One pass leaves a timer running unless it stalls.** -/
theorem SndInv.pass_running (h : SndInv c U N M) (hr : c.tp.tRxtcur ≠ 0)
    (hst : c.tp.tState.sendOpen = true) (hcc : c.so.soSnd.sbCc ≠ 0) (e : SendEnv) (idle : Bool) :
    (tcpOutputPass e idle c).tp.running ↔ ¬ StallPass e idle c := by
  have hplan := h.planTp_running
  have hnew : nothingNew e c ↔ sendData e c = none ∨
      nextSeq (tcpOutflags c.tp.tState).syn (sendFin c) (sendLen c) (finBackTp c).sndNxt =
        c.tp.sndUna := by
    rw [h.sendData_none, h.planLen_ne_zero, h.nextSeq_una hst hcc, or_assoc]
    exact Iff.rfl
  have hstall : StallPass e idle c ↔
      ¬ (planTp c).running ∧ tcpOutputWanted idle c = true ∧ nothingNew e c := by
    rw [hplan, not_not, and_assoc]
    exact Iff.rfl
  rw [hstall, hnew]
  have hadv := advanceTp_running (c := c) hr
  have hcase := tcpOutputPass_cases e idle c
  generalize tcpOutputPass e idle c = p at hcase ⊢
  cases hcase with
  | quiet hw =>
    -- no reason to send: the persist state is entered if no timer runs
    have hq : (quietTp c).running := by
      unfold quietTp
      split
      · exact .inr (tcpSetpersist_pos _)
      · rename_i hn
        by_cases h0 : (planTp c).timerRexmt = 0
        · exact .inr fun h1 => hn ⟨hcc, h0, h1⟩
        · exact .inl h0
    simp [hw, hq]
  | nobufs hw hd =>
    have hs : (synTp c).running ↔ (planTp c).running := by
      rw [synTp_eq]
      exact Iff.rfl
    rw [outTp_running, hs]
    simp [hw, hd]
  | failed data hw hd he =>
    rw [outTp_running, hadv]
    by_cases hR : (planTp c).running <;> simp [hR, hw, hd]
  | sent data hw hd he =>
    rw [sentTp_running, hadv]
    by_cases hR : (planTp c).running <;> simp [hR, hw, hd]

/-! ## A call -/

theorem transmitTp_rexmt {syn fin : Bool} {len : Int} {tp : Tcpcb} (hr : tp.tRxtcur ≠ 0)
    (hn : nextSeq syn fin len tp.sndNxt ≠ tp.sndUna) :
    (transmitTp syn fin len tp).timerRexmt ≠ 0 := by
  unfold transmitTp
  dsimp only
  split
  · split
    · exact hr
    · exact hr
  · rename_i hs
    have h0 : tp.timerRexmt ≠ 0 := fun h0 => hs ⟨h0, hn⟩
    split
    · split
      · exact h0
      · exact h0
    · exact h0

/-- A pass that is repeated has armed the retransmit timer. -/
theorem Again.rexmt {tp : Tcpcb} (ha : Again c tp) (h : SndInv c U N M) (hr : c.tp.tRxtcur ≠ 0) :
    tp.timerRexmt ≠ 0 := by
  obtain ⟨S, N', M', hS, hA⟩ := h.advanced
  have hp := probing_eq_false ha.win
  obtain ⟨hN', -⟩ := hA.transmit hp
  have hspan := hA.inv.span
  have hle := hA.inv.nxt_le
  have hlow := h.maxseg.1
  have hSU := hS.una_le
  have hlen : sendLen c = c.tp.tMaxseg := by
    have := ha.raw
    rw [h.sendLen_eq]
    unfold planLen
    omega
  have h2 : (urgTp c).tRxtcur = c.tp.tRxtcur := by rw [urgTp_eq, planTp_eq]
  have h3 : (urgTp c).sndNxt = (finBackTp c).sndNxt := by rw [urgTp_eq]
  have h4 : (urgTp c).sndUna = c.tp.sndUna := by rw [urgTp_eq, planTp_eq]
  have h5 : (urgTp c).timerPersist = (planTp c).timerPersist := by rw [urgTp_eq]
  have hne : nextSeq (tcpOutflags c.tp.tState).syn (sendFin c) (sendLen c) (urgTp c).sndNxt ≠
      (urgTp c).sndUna := by
    rw [h3, h4]
    intro heq
    have := ((nextSeq_at hS.seq _ _ _).eq_iff h.una (by omega) (by omega)).mp heq
    omega
  have hadv : advanceTp c =
      transmitTp (tcpOutflags c.tp.tState).syn (sendFin c) (sendLen c) (urgTp c) := by
    unfold advanceTp
    rw [if_pos]
    rw [h5]
    unfold probing at hp
    cases hf : c.tp.tForce with
    | false => simp
    | true => simpa [hf] using hp
  have hs : (sentTp c).timerRexmt = (advanceTp c).timerRexmt := by
    unfold sentTp
    dsimp only
    split <;> rfl
  rw [ha.tp_eq, hs, hadv]
  exact transmitTp_rexmt (h2 ▸ hr) hne

/-- **A call of `tcp_output` leaves a timer running unless it stalls.** -/
theorem tcpOutput_running (h : SndInv c U N M) (hr : c.tp.tRxtcur ≠ 0)
    (hst : c.tp.tState.sendOpen = true) (hcc : c.so.soSnd.sbCc ≠ 0) (env : Nat → SendEnv) :
    (tcpOutput env c).conn.tp.running ↔ ¬ Stall (env 0) c := by
  have hik : outKept (idleTp c.tp) = outKept c.tp := by
    unfold idleTp
    split <;> rfl
  -- in front of a repeated pass the retransmit timer runs and the window is open
  obtain ⟨A, hA⟩ : ∃ A : Conn → Prop, A = fun c' => c'.so = c.so ∧ outKept c'.tp = outKept c.tp ∧
    (∃ N' M', SndInv c' U N' M') ∧ c'.tp.timerRexmt ≠ 0 ∧ sndWin c'.tp ≠ 0 := ⟨_, rfl⟩
  have hnext : ∀ {c' : Conn} {N' M' : Int} (e : SendEnv) (idle : Bool), SndInv c' U N' M' →
      c'.so = c.so → outKept c'.tp = outKept c.tp → (tcpOutputPass e idle c').ret = none →
      A { c' with tp := (tcpOutputPass e idle c').tp } := by
    intro c' N' M' e idle hinv hso hk hret
    have hag := hinv.again hret
    have hrx : c'.tp.tRxtcur = c.tp.tRxtcur := field_of_kept Tcpcb.tRxtcur hk fun _ => rfl
    obtain ⟨N2, M2, hinv2, -⟩ := hinv.pass e idle
    rw [hA]
    refine ⟨hso, (tcpOutputPass_kept e idle c').trans hk, ⟨N2, M2, hinv2⟩,
      hag.rexmt hinv (hrx ▸ hr), ?_⟩
    rw [hag.win_tp]
    exact hag.win
  have hpass : ∀ {c' : Conn} {N' M' : Int} (e : SendEnv) (idle : Bool), SndInv c' U N' M' →
      c'.so = c.so → outKept c'.tp = outKept c.tp →
      ((tcpOutputPass e idle c').tp.running ↔ ¬ StallPass e idle c') := by
    intro c' N' M' e idle hinv hso hk
    have hrx : c'.tp.tRxtcur = c.tp.tRxtcur := field_of_kept Tcpcb.tRxtcur hk fun _ => rfl
    have hts : c'.tp.tState = c.tp.tState := field_of_kept Tcpcb.tState hk fun _ => rfl
    exact hinv.pass_running (hrx ▸ hr) (hts ▸ hst) (hso ▸ hcc) e idle
  have hgo : ∀ {c'}, A c' → ∀ e idle, ¬ StallPass e idle c' := by
    intro c' hc' e idle hs
    rw [hA] at hc'
    obtain ⟨-, -, -, hrx, hw⟩ := hc'
    rcases hs.1 with h0 | ⟨h0, -⟩
    · exact hrx h0
    · unfold useWin at h0
      rw [if_neg (by tauto)] at h0
      exact hw h0
  by_cases hs : Stall (env 0) c
  · -- the call ends with the stalling pass
    have hB := tcpOutput_first_rule (A := fun _ _ => False)
      (B := fun _ c' => ¬ c'.tp.running) env c rfl (fun _ hrun => ?_) (fun hret => ?_)
      (fun _ _ _ _ hA => hA.elim) (fun _ _ _ _ hA => hA.elim) (fun _ _ hA => hA.elim)
    · simp [hs, hB]
    · exact (hpass _ _ h.idle rfl hik).mp hrun hs
    · have hc' := hnext _ _ h.idle rfl hik hret
      rw [hA] at hc'
      exact (hpass _ _ h.idle rfl hik).mp (.inl hc'.2.2.2.1) hs
  · have hB := tcpOutput_first_rule (A := fun _ c' => A c') (B := fun _ c' => c'.tp.running) env c
      rfl (fun _ => (hpass _ _ h.idle rfl hik).mpr hs) (fun hret => hnext _ _ h.idle rfl hik hret)
      ?_ ?_ ?_
    · simp [hs, hB]
    · intro e idle out c' hc' hret
      rw [hA] at hc'
      obtain ⟨hso, hk, ⟨N', M', hinv⟩, -⟩ := hc'
      exact hnext e idle hinv hso hk hret
    · intro e idle out c' hc'
      have hns := hgo hc' e idle
      rw [hA] at hc'
      obtain ⟨hso, hk, ⟨N', M', hinv⟩, -⟩ := hc'
      exact (hpass e idle hinv hso hk).mpr hns
    · intro out c' hc'
      rw [hA] at hc'
      exact .inl hc'.2.2.2.1

end

/-- **No silent sender stall**: in every run, a call of `tcp_output` on an open connection with data
    in the send buffer leaves a timer running, if and only if it starts from no `Stall`. -/
theorem no_silent_stall {c : Conn} (hc : Start c) (es : List Event) :
    ∀ k ∈ (Machine.run connMachine (some c) es).2,
      (k.pre.tp.tState = .established ∨ k.pre.tp.tState = .closeWait) →
      k.res.conn.so.soSnd.sbCc ≠ 0 →
      ((k.res.conn.tp.timerRexmt ≠ 0 ∨ k.res.conn.tp.timerPersist ≠ 0) ↔
        ¬ Stall (k.env 0) k.pre) := by
  intro k hk hst hcc
  obtain ⟨U, N, M, h⟩ := (sndInv_run hc es).2 k hk
  have ht := (timerInv_run hc es).2 k hk
  have hopen : k.pre.tp.tState.sendOpen = true := by
    rcases hst with hst | hst <;> rw [hst] <;> rfl
  have hso : k.res.conn.so = k.pre.so := (tcpOutput_kept k.env k.pre).1
  have hge := ht.rxtcur_ge
  exact tcpOutput_running h (by omega) hopen (hso ▸ hcc) k.env

/-- A byte in flight when a segment arrives out of order and closes the window. -/
def stallEvents : List Event :=
  connectEvents 1000 ++
    [.send [7] false fun _ => {},
     .input {} (Seg.ofByte { thSeq := 111, thAck := 2, thFlags := { ack := true } } 9)]

/-- The byte arms the retransmit timer; the ACK of the segment out of order leaves no timer. -/
theorem no_silent_stall_closed_window :
    (∃ k ∈ (Machine.run connMachine (some (activeOpen 1 newSocket)) stallEvents).2,
      k.pre.tp.tState = .established ∧ k.res.conn.so.soSnd.sbCc ≠ 0 ∧ ¬ Stall (k.env 0) k.pre) ∧
    (∃ k ∈ (Machine.run connMachine (some (activeOpen 1 newSocket)) stallEvents).2,
      k.pre.tp.tState = .established ∧ k.res.conn.so.soSnd.sbCc ≠ 0 ∧ Stall (k.env 0) k.pre) ∧
    ∀ k ∈ (Machine.run connMachine (some (activeOpen 1 newSocket)) stallEvents).2,
      (k.pre.tp.tState = .established ∨ k.pre.tp.tState = .closeWait) →
      k.res.conn.so.soSnd.sbCc ≠ 0 →
      ((k.res.conn.tp.timerRexmt ≠ 0 ∨ k.res.conn.tp.timerPersist ≠ 0) ↔
        ¬ Stall (k.env 0) k.pre) :=
  ⟨by decide +kernel, by decide +kernel,
    no_silent_stall (.active 1 newSocket newSocket_fresh) stallEvents⟩

/-- The closed window stops the retransmit timer, and the pure ACK does not enter the persist
    state. -/
theorem pure_ack_stalls :
    ¬ ∀ (c : Conn), Start c → ∀ es : List Event,
      ∀ k ∈ (Machine.run connMachine (some c) es).2,
        (k.pre.tp.tState = .established ∨ k.pre.tp.tState = .closeWait) →
        k.res.conn.so.soSnd.sbCc ≠ 0 →
        k.res.conn.tp.timerRexmt ≠ 0 ∨ k.res.conn.tp.timerPersist ≠ 0 := by
  intro h
  have hrun := h _ (.active 1 newSocket newSocket_fresh) stallEvents
  revert hrun
  decide +kernel

end TnNet
