import TnNet.Tcp.Close
import TnNet.Tcp.FinSent

/-!
# The acknowledgement of the FIN

`tcp_input` takes our FIN for acknowledged when an ACK covers more than `sb_cc` bytes.

* `SndInv.passFin`, `tcpOutput_fin` — the call of `tcp_output` that sets `TF_SENTFIN` has sent a
  FIN right behind the send buffer.
* `FinOut` — in every run `TF_SENTFIN` stands for a packet of the run with such a FIN.
* `fin_acked` — the moves out of `FIN_WAIT_1`, `CLOSING` and `LAST_ACK` wait for an ACK of that
  FIN, unless the ACK covers our SYN alone.
* `syn_acked_as_fin` — the ACK of the SYN brings a connection that was shut down in `SYN_RECEIVED`
  to `FIN_WAIT_2`, with no FIN sent.
-/

set_option autoImplicit false

namespace TnNet

open SeqArith

/-- The sequence number of the FIN of a packet. -/
def Emit.finSeq (em : Emit) : BitVec 32 :=
  nextSeq em.thFlags.syn false em.data.length em.thSeq

/-- The packet has a FIN, at position `F`. -/
def FinPlaced (b : BitVec 32) (F : Int) (em : Emit) : Prop :=
  em.thFlags.fin = true ∧ At b em.finSeq F

section

variable {c : Conn} {U N M : Int}

/-! ## The call that sets the bit -/

theorem advanceTp_sentfin (c : Conn) :
    (advanceTp c).sentfin = (c.tp.sentfin || (!probing c && sendFin c)) := by
  obtain ⟨-, hufin, -⟩ := urgTp_fields c
  cases hpr : probing c with
  | true =>
    rw [advanceTp_probing hpr, (probeTp_spec _ _).2.2.1, hufin]
    simp
  | false =>
    rw [advanceTp_transmit hpr, (transmitTp_spec _ _ _ _).2.2.1, hufin]
    simp

/-- A pass that sets the bit sends. -/
theorem tcpOutputPass_setsFin {e : SendEnv} {idle : Bool} (h0 : c.tp.sentfin = false)
    (h1 : (tcpOutputPass e idle c).tp.sentfin = true) :
    probing c = false ∧ sendFin c = true ∧
      ∃ d, sendData e c = some d ∧ (tcpOutputPass e idle c).emit = some (sendEmit e c d) := by
  have hadv : (advanceTp c).sentfin = true → probing c = false ∧ sendFin c = true := by
    intro h
    simpa [advanceTp_sentfin, h0] using h
  have hcase := tcpOutputPass_cases e idle c
  generalize tcpOutputPass e idle c = p at hcase h1 ⊢
  cases hcase with
  | quiet =>
    have hq : (quietTp c).sentfin = c.tp.sentfin := by
      have hs : (quietTp c).sentfin = (planTp c).sentfin := by
        unfold quietTp tcpSetpersist
        split <;> rfl
      rw [hs, planTp_eq]
    have h1' : (quietTp c).sentfin = true := h1
    rw [hq, h0] at h1'
    cases h1'
  | nobufs =>
    have hs : (synTp c).sentfin = c.tp.sentfin := by rw [synTp_eq, planTp_eq]
    have ho := congrArg (fun c : Conn => c.tp.sentfin) (outTp_sndPart ENOBUFS (synTp c) c.so)
    have h1' : (synTp c).sentfin = true := ho.symm.trans h1
    rw [hs, h0] at h1'
    cases h1'
  | failed data hw hd he =>
    have ho := congrArg (fun c : Conn => c.tp.sentfin) (outTp_sndPart e.ipOutput (advanceTp c) c.so)
    obtain ⟨g1, g2⟩ := hadv (ho.symm.trans h1)
    exact ⟨g1, g2, data, hd, rfl⟩
  | sent data hw hd he =>
    have ho := congrArg (fun c : Conn => c.tp.sentfin) (sentTp_sndPart c c.so)
    obtain ⟨g1, g2⟩ := hadv (ho.symm.trans h1)
    exact ⟨g1, g2, data, hd, rfl⟩

/-- **The pass that sets the bit** sends its FIN behind all data. -/
theorem SndInv.passFin (h : SndInv c U N M) {e : SendEnv} {idle : Bool}
    (h0 : c.tp.sentfin = false) (h1 : (tcpOutputPass e idle c).tp.sentfin = true) :
    ∃ em ∈ (tcpOutputPass e idle c).emit.toList, ∃ F, FinPlaced c.tp.iss F em ∧
      U + c.so.soSnd.sbCc ≤ F ∧ F ≤ Max.max (U + c.so.soSnd.sbCc) 1 := by
  obtain ⟨hpr, hfin, d, hd, hem⟩ := tcpOutputPass_setsFin h0 h1
  obtain ⟨S, N', M', hS, hA⟩ := h.advanced
  obtain ⟨hlen, -⟩ := sendData_spec hd
  have hsyn : (tcpOutflags c.tp.tState).syn = false := by
    cases hs : (tcpOutflags c.tp.tState).syn with
    | false => rfl
    | true =>
      rw [(hS.syn hs).2.2.2] at hfin
      cases hfin
  have hnew := hS.fin_new hfin h0
  -- `snd_max` counts the FIN
  obtain ⟨hN, hM⟩ := hA.transmit hpr
  have hmax := hA.inv.max_le
  have hle : S + sendLen c ≤ Max.max (U + (c.so.soSnd.sbCc : Int)) 1 := by
    rw [hsyn, hfin] at hN
    simp only [Bool.toNat_false, Bool.toNat_true] at hN
    have hmax' : M' ≤ Max.max (U + (c.so.soSnd.sbCc : Int)) 1 + 1 := hmax
    omega
  refine ⟨sendEmit e c d, by simp [hem], S + sendLen c, ⟨hfin, ?_⟩, hnew, hle⟩
  have hseq := nextSeq_at hS.seq (tcpOutflags c.tp.tState).syn false d.length
  rw [hlen] at hseq
  have heq : S + (tcpOutflags c.tp.tState).syn.toNat + (false.toNat : Int) + sendLen c =
      S + sendLen c := by
    rw [hsyn]
    simp
  rw [heq] at hseq
  unfold Emit.finSeq
  show At c.tp.iss (nextSeq (tcpOutflags c.tp.tState).syn false d.length (finBackTp c).sndNxt) _
  rw [hlen]
  exact hseq

/-- **The call that sets the bit** has sent its FIN behind all data. -/
theorem tcpOutput_fin (h : SndInv c U N M) (env : Nat → SendEnv) (h0 : c.tp.sentfin = false)
    (h1 : (tcpOutput env c).conn.tp.sentfin = true) :
    ∃ em ∈ (tcpOutput env c).out, ∃ F, FinPlaced c.tp.iss F em ∧
      U + c.so.soSnd.sbCc ≤ F ∧ F ≤ max (U + c.so.soSnd.sbCc) 1 := by
  obtain ⟨A, hA⟩ : ∃ A : List Emit → Conn → Prop, A = fun out c1 =>
      c1.so = c.so ∧ c1.tp.iss = c.tp.iss ∧ (∃ N' M', SndInv c1 U N' M') ∧
      (c1.tp.sentfin = true → ∃ em ∈ out, ∃ F, FinPlaced c.tp.iss F em ∧
        U + c.so.soSnd.sbCc ≤ F ∧ F ≤ max (U + c.so.soSnd.sbCc) 1) := ⟨_, rfl⟩
  have hpass : ∀ e idle out c1, A out c1 →
      A (out ++ (tcpOutputPass e idle c1).emit.toList)
        { c1 with tp := (tcpOutputPass e idle c1).tp } := by
    intro e idle out c1 hc1
    rw [hA] at hc1 ⊢
    obtain ⟨hso, hiss, ⟨N1, M1, hinv⟩, hfin⟩ := hc1
    obtain ⟨N2, M2, hinv2, -, -⟩ := hinv.pass e idle
    have hk : (tcpOutputPass e idle c1).tp.iss = c1.tp.iss :=
      field_of_kept Tcpcb.iss (tcpOutputPass_kept e idle c1) fun _ => rfl
    refine ⟨hso, hk.trans hiss, ⟨N2, M2, hinv2⟩, fun hs => ?_⟩
    cases hb : c1.tp.sentfin with
    | true =>
      obtain ⟨em, hem, hF⟩ := hfin hb
      exact ⟨em, List.mem_append_left _ hem, hF⟩
    | false =>
      obtain ⟨em, hem, hF⟩ := hinv.passFin hb hs
      rw [hso, hiss] at hF
      exact ⟨em, List.mem_append_right _ hem, hF⟩
  have hloop := tcpOutput_rule (A := A) (B := A) (fun e idle out c1 hc1 _ => hpass e idle out c1 hc1)
    hpass (fun _ _ hc1 => hc1) env c (by
      have hi : idleTp c.tp = { c.tp with sndCwnd := (idleTp c.tp).sndCwnd } := by
        unfold idleTp
        split <;> rfl
      rw [hA]
      refine ⟨rfl, by rw [hi], ⟨N, M, h.idle⟩, fun hs => ?_⟩
      rw [hi] at hs
      rw [show c.tp.sentfin = true from hs] at h0
      cases h0)
  rw [hA] at hloop
  exact hloop.2.2.2 h1

end

/-! ## The end of the send buffer over a run -/

/-- A property of the number of bytes queued and of the end of the send buffer; with `off`, the
    user can queue no more. -/
def EndP (R : Int → Int → Prop) (off : Bool) (c : Conn) (U : Int) : Prop :=
  R c.so.soSnd.sbLog.length (U + c.so.soSnd.sbCc) ∧ (off = true → c.so.ssCantsendmore = true)

section

variable {R : Int → Int → Prop} {off : Bool} {c : Conn} {e : InEnv} {s : Seg}

theorem endP_extra (R : Int → Int → Prop) (off : Bool) : SndExtra (EndP R off) where
  keep {c c' U} h hdata hlog _ _ _ hoff := by
    obtain ⟨h1, h2⟩ := h
    have hcc : c'.so.soSnd.sbCc = c.so.soSnd.sbCc := congrArg List.length hdata
    unfold EndP
    rw [hlog, hcc]
    exact ⟨h1, fun ho => hoff (h2 ho)⟩

/-- The end of the send buffer does not go back. -/
theorem endP_input (hR : ∀ {l m n}, R l m → m ≤ n → R l n) :
    SndInput (EndP R off) (fun x U => EndP R off x.conn U) e s c where
  connect {d d'} h _ hcc hsnd _ hoff := by
    obtain ⟨h1, h2⟩ := h
    unfold EndP
    rw [hsnd, hoff]
    exact ⟨hR h1 (by omega), h2⟩
  estab {x} h _ _ _ _ _ := by
    obtain ⟨hso, -, -, -, hoff⟩ := synReceivedConn_snd x
    obtain ⟨h1, h2⟩ := h
    show R (synReceivedConn x).so.soSnd.sbLog.length (0 + (synReceivedConn x).so.soSnd.sbCc) ∧
      (off = true → (synReceivedConn x).so.ssCantsendmore = true)
    rw [hso, hoff]
    exact ⟨h1, h2⟩
  other h _ := h
  dup h _ := h
  beyond _ h _ := h
  ack {x U N M A} hinv h _ _ hA hlt hle := by
    obtain ⟨h1, h2⟩ := h
    have hdrop := hinv.ackDrop hA hlt hle
    have hcc : (ackConn x).so.soSnd.sbCc = x.so.soSnd.sbCc - ackDrop x := List.length_drop
    refine ⟨hR h1 ?_, h2⟩
    show U + (x.so.soSnd.sbCc : Int) ≤ A + ((ackConn x).so.soSnd.sbCc : Int)
    omega
  window {x U N M} _ h _ _ _ hw := by
    unfold updateWindow
    rw [if_pos hw]
    exact h

/-- All bytes the user has queued lie in front of the end of the send buffer. -/
def LogBelow : Conn → Int → Prop := EndP (fun l m => l ≤ m) false

/-- Position `F` is behind all bytes, and no more of them can be queued. -/
def FinBehind (F : Int) : Conn → Int → Prop :=
  EndP (fun l m => l ≤ m ∧ l ≤ F ∧ F ≤ max m 1) true

theorem logBelow_step (h : SndP LogBelow c) (ev : Event) : (connStep c ev).Ok (SndP LogBelow) := by
  refine sndP_step (endP_extra _ _) ev h (fun e s _ => endP_input fun h1 h2 => Int.le_trans h1 h2)
    fun data oob env U _ hE _ => ?_
  have h1 : (c.so.soSnd.sbLog.length : Int) ≤ U + (c.so.soSnd.sbData.length : Int) := hE.1
  refine ⟨?_, fun ho => by cases ho⟩
  simp only [appendConn, sbappend, Sockbuf.sbCc, List.length_append]
  omega

theorem finBehind_step {F : Int} (h : SndP (FinBehind F) c) (ev : Event) :
    (connStep c ev).Ok (SndP (FinBehind F)) := by
  refine sndP_step (endP_extra _ _) ev h (fun e s _ => endP_input fun h1 h2 => ?_)
    fun data oob env U _ hE ha => ?_
  · omega
  · have hopen := ha.1
    rw [hE.2 rfl] at hopen
    cases hopen

/-- The position of `snd_una` is determined by the connection. -/
theorem SndP.una_unique {U N M : Int} (h : SndInv c U N M) (hb : LogBelow c U) {c' : Conn}
    {U' N' M' : Int} (h' : SndInv c' U' N' M') (hb' : LogBelow c' U')
    (hso : c'.so.soSnd = c.so.soSnd) (hiss : c'.tp.iss = c.tp.iss)
    (huna : c'.tp.sndUna = c.tp.sndUna) : U' = U := by
  have hu := h'.una
  rw [hiss, huna] at hu
  have h1 := h.una_le
  have h2 := h.nxt_le
  have h3 := h.log_le
  have h4 := h'.una_le
  have h5 := h'.nxt_le
  have h6 := h'.log_le
  have h7 := h.cc_le
  have hb1 : (c.so.soSnd.sbLog.length : Int) ≤ U + c.so.soSnd.sbCc := hb.1
  have hb2 : (c'.so.soSnd.sbLog.length : Int) ≤ U' + c'.so.soSnd.sbCc := hb'.1
  rw [hso] at h6 hb2
  unfold sbreserveMax at h7
  exact (hu.eq_iff h.una (by omega) (by omega)).mp rfl

/-! ## `iss` -/

theorem iss_stable (b : BitVec 32) : Stable fun c => c.tp.iss = b where
  core h hk := by
    have h1 := congrArg (fun c : Conn => c.tp.iss) hk
    exact h1.trans h
  output env c h := (field_of_kept Tcpcb.iss (tcpOutput_kept env c).2 fun _ => rfl).trans h
  options syn mtu opt c h :=
    (field_of_kept Tcpcb.iss (tcpDooptions_kept syn mtu opt c.tp) fun _ => rfl).trans h
  drop _ h := h

theorem iss_user (b : BitVec 32) : UserInv fun c => c.tp.iss = b := by
  constructor
  all_goals intros
  all_goals assumption

theorem iss_input {b : BitVec 32} (h : c.tp.iss = b) (hl : c.tp.tState ≠ .listen) :
    InputInv (fun c => c.tp.iss = b) (fun x => x.conn.tp.iss = b) (fun x => x.conn.tp.iss = b)
      (fun x => x.conn.tp.iss = b) e s c where
  conn _ hx := hx
  setup _ := inputSetup_ok (iss_stable b) e s h
  checks y hx _ _ hch := (iss_stable b).core hx (hch.trim.core.trans (leftTrim_core _))
  listen x _ _ hs := absurd hs hl
  synSent x hx _ _ _ _ := by
    have h1 := congrArg (fun c : Conn => c.tp.iss)
      (trimThenStep6_sndPart { x with conn := synSentConn x })
    have h2 := congrArg (fun p : BitVec 32 × BitVec 32 × List UInt8 => p.1) (synSentConn_frame x)
    exact h1.trans (h2.trans hx)
  synReceived x hx _ _ _ _ _ := by
    have h1 := field_of_kept (fun c : Conn => c.tp.iss) (tcpPresent_kept
      ⟨{ x.tp with tState := .established }, soisconnected x.so⟩) fun _ => rfl
    exact h1.trans hx
  other _ hx _ _ _ _ := hx
  dup _ hx _ := hx
  beyond _ hx _ := hx
  connT _ hx := hx
  dupacks _ _ hx := hx
  fastRexmt x hx _ := by
    have h1 : (tcpOutput e.out { x.conn with tp := fastRexmtTp x }).conn.tp.iss = b :=
      (iss_stable b).output _ _ hx
    exact ⟨hx, h1⟩
  ackNew x _ hx _ _ _ _ _ := by
    have h1 := congrArg (fun p : BitVec 32 × BitVec 32 × List UInt8 => p.1)
      (ackedConn_frame (ourfinisacked x) (ackConn x))
    have h2 := field_of_kept Tcpcb.iss (ackRtt_kept x) fun _ => rfl
    exact h1.trans (h2.trans hx)
  tail x hx _ := by
    have hu : (step6 x).tp.iss = x.tp.iss := by
      unfold step6 updateWindow
      dsimp only
      repeat' split
      all_goals rfl
    have hd : (doData e (step6 x)).1.tp.iss = x.tp.iss :=
      (field_of_kept (fun c : Conn => c.tp.iss) (doData_kept e (step6 x)) fun _ => rfl).trans hu
    have hf : ∀ fin (d : Conn), (doFin fin d).tp.iss = d.tp.iss := by
      intro fin d
      unfold doFin finState finAdvance enterTimeWait
      repeat' split
      all_goals rfl
    exact (hf _ _).trans (hd.trans hx)

/-- `iss` is chosen once. -/
theorem connStep_iss (hl : c.tp.tState ≠ .listen) (ev : Event) :
    (connStep c ev).Ok fun d => d.tp.iss = c.tp.iss := by
  refine connStep_ok (iss_stable _) (iss_user _) rfl ?_ ?_ ?_ ?_
  · exact fun e s _ => tcpInput_ok (iss_stable _) (iss_input rfl hl) rfl
  · exact fun _ _ _ _ _ => rfl
  · exact fun _ _ _ => rfl
  · exact fun _ _ => rfl

/-! ## The FIN of a run -/

/-- If the bit is set, a call of the run has sent a FIN behind all bytes. -/
structure FinOut (c : Conn) (hist : List OutCall) : Prop where
  log : SndP LogBelow c
  fin : c.tp.sentfin = true → ∃ k ∈ hist, ∃ em ∈ k.res.out, ∃ F,
    FinPlaced c.tp.iss F em ∧ SndP (FinBehind F) c

/-- The FIN of the call that has set the bit. -/
theorem finBehind_of_call {d : Conn} {k : OutCall} (hpre : SndP LogBelow k.pre)
    (h0 : k.pre.tp.sentfin = false) (hd : SndP LogBelow d) (hs : d.tp.sentfin = true)
    (heq : d.finPart = k.res.conn.finPart) :
    ∃ em ∈ k.res.out, ∃ F, FinPlaced d.tp.iss F em ∧ SndP (FinBehind F) d := by
  obtain ⟨U, N, M, h1, h2⟩ := hpre
  obtain ⟨U', N', M', h3, h4⟩ := hd
  obtain ⟨hso, hk⟩ := tcpOutput_kept k.env k.pre
  have hiss : k.res.conn.tp.iss = k.pre.tp.iss := field_of_kept Tcpcb.iss hk fun _ => rfl
  have huna : k.res.conn.tp.sndUna = k.pre.tp.sndUna := field_of_kept Tcpcb.sndUna hk fun _ => rfl
  have hso' : k.res.conn.so = k.pre.so := hso
  simp only [Conn.finPart, Prod.mk.injEq] at heq
  obtain ⟨e1, e2, e3, e4⟩ := heq
  rw [hiss] at e1
  rw [huna] at e2
  rw [hso'] at e3
  have hU := SndP.una_unique h1 h2 h3 h4 e3 e1 e2
  subst hU
  obtain ⟨em, hem, F, hF, hlo, hhi⟩ := tcpOutput_fin h1 k.env h0 (e4.symm.trans hs)
  have hlog : (k.pre.so.soSnd.sbLog.length : Int) ≤ U' + k.pre.so.soSnd.sbCc := h2.1
  refine ⟨em, hem, F, e1.symm ▸ hF, U', N', M', h3, ?_, fun _ => h3.sent_off hs⟩
  show (d.so.soSnd.sbLog.length : Int) ≤ U' + d.so.soSnd.sbCc ∧ (d.so.soSnd.sbLog.length : Int) ≤ F ∧
    F ≤ max (U' + d.so.soSnd.sbCc) 1
  rw [e3]
  omega

theorem FinOut.step {hist : List OutCall} (h : FinOut c hist) (ev : Event) {d : Conn}
    (hd : (connMachine c ev).1 = some d) : FinOut d (hist ++ (connMachine c ev).2) := by
  have hd' : (connStep c ev).next = some d := hd
  have hlog := logBelow_step h.log ev
  refine ⟨hlog.next hd', fun hs => ?_⟩
  have hgone : (connStep c ev).gone = false ∧ (connStep c ev).conn = d := by
    unfold Res.next at hd'
    split at hd'
    · cases hd'
    · rename_i hg
      exact ⟨by simpa using hg, Option.some.inj hd'⟩
  obtain ⟨hg, rfl⟩ := hgone
  rcases connStep_traced c ev hg hs with h1 | ⟨k, hk, h0, heq⟩
  · obtain ⟨k, hk, em, hem, F, hF, hE⟩ := h.fin h1
    have hl : c.tp.tState ≠ .listen := by
      obtain ⟨U, N, M, hinv, -⟩ := h.log
      have := hinv.sent_state h1
      rintro hs
      rw [hs] at this
      cases this
    have hiss := (connStep_iss hl ev).conn hg
    refine ⟨k, List.mem_append_left _ hk, em, hem, F, ?_, (finBehind_step hE ev).conn hg⟩
    rw [hiss]
    exact hF
  · obtain ⟨em, hem, hF⟩ := finBehind_of_call (hlog.calls k hk) h0 (hlog.conn hg) hs heq
    exact ⟨k, List.mem_append_right _ hk, em, hem, hF⟩

theorem finOut_start (h : Start c) : FinOut c [] := by
  have hinv := sndInv_start h
  have hno : c.tp.sentfin = false ∧ c.so.soSnd.sbLog = [] := by
    cases h with
    | active iss so h => exact ⟨rfl, h.snd_log⟩
    | passive so h => exact ⟨rfl, h.snd_log⟩
  refine ⟨⟨0, 0, 0, hinv, ?_, fun ho => by cases ho⟩, fun hs => ?_⟩
  · rw [hno.2]
    show (0 : Int) ≤ 0 + (c.so.soSnd.sbCc : Int)
    omega
  · rw [hno.1] at hs
    cases hs

/-- **`TF_SENTFIN` stands for a FIN of the run.** -/
theorem finOut_run {c₀ : Conn} (hc : Start c₀) {es : List Event}
    (hr : (Machine.run connMachine (some c₀) es).1 = some c) :
    FinOut c (Machine.run connMachine (some c₀) es).2 :=
  Machine.run_record FinOut (fun _ ev _ _ h _ hd => h.step ev hd) (finOut_start hc)
    (Machine.guarded_true _ _ es) hr

end

/-! ## ACK processing -/

/-- ACK processing takes our FIN for acknowledged: it moves from `FIN_WAIT_1` to `FIN_WAIT_2`, from
    `CLOSING` to `TIME_WAIT`, or closes in `LAST_ACK`. -/
def finMoves (e : InEnv) (x : InSt) : Bool :=
  match x.tp.tState, ackProcess e x with
  | .finWait1, .ok y => decide (y.tp.tState = .finWait2)
  | .closing, .ok y => decide (y.tp.tState = .timeWait)
  | .lastAck, .error r => r.gone
  | _, _ => false

/-- The segment acknowledges our SYN and nothing else, on a connection the user has closed without
    queueing a byte. -/
def AcksSynAlone (c : Conn) (s : Seg) : Prop :=
  c.tp.tState.awaitsFinAck = true ∧ c.so.soSnd.sbLog = [] ∧ c.tp.sndUna = c.tp.iss ∧
    s.th.thAck = c.tp.iss + 1

instance (c : Conn) (s : Seg) : Decidable (AcksSynAlone c s) :=
  inferInstanceAs (Decidable (_ ∧ _))

/-- No such segment arrives. -/
def NoSynAlone (c : Conn) : Event → Prop
  | .input _ s => ¬ AcksSynAlone c s
  | _ => True

instance (c : Conn) : ∀ ev, Decidable (NoSynAlone c ev)
  | .input _ _ => inferInstanceAs (Decidable (¬ _))
  | .output _ | .slowtimo _ | .fasttimo _ | .send .. | .recv .. | .shutdown .. | .disconnect _ | .detach _
  | .accept | .sockopt _ => isTrue trivial

section

variable {c : Conn} {e : InEnv} {s : Seg} {x : InSt}

/-- ACK processing leaves the state alone. -/
def StaysIn (st : TcpState) : Flow → Prop
  | .ok y => y.tp.tState = st
  | .error r => r.gone = false

theorem ackDup_stays (e : InEnv) (x : InSt) : StaysIn x.tp.tState (ackDup e x) := by
  unfold ackDup
  dsimp only
  repeat' split
  all_goals rfl

theorem exitDropafterack_stays (e : InEnv) (rst : Bool) (d : Conn) (st : TcpState) :
    StaysIn st (exitDropafterack e rst d) := by
  unfold exitDropafterack
  split <;> rfl

theorem finMoves_of_stays (h : StaysIn x.tp.tState (ackProcess e x)) : finMoves e x = false := by
  unfold finMoves
  cases ha : ackProcess e x with
  | ok y =>
    rw [ha] at h
    have hy : y.tp.tState = x.tp.tState := h
    cases hs : x.tp.tState <;> simp [hy, hs]
  | error r =>
    rw [ha] at h
    have hr : r.gone = false := h
    cases hs : x.tp.tState <;> simp [hr]

/-- **The moves** are those of a new ACK that covers more than the send buffer. -/
theorem finMoves_acked (h : finMoves e x = true) :
    x.tp.tState.awaitsFinAck = true ∧ seqLeq x.th.thAck x.tp.sndUna = false ∧
      seqGt x.th.thAck x.tp.sndMax = false ∧ ourfinisacked x = true := by
  have hst : (ackConn x).tp.tState = x.tp.tState := ackConn_tState x
  have haw : x.tp.tState.awaitsFinAck = true := by
    unfold finMoves at h
    revert h
    cases x.tp.tState <;> cases ackProcess e x <;> simp [TcpState.awaitsFinAck]
  -- in all other cases the state stays
  have hstay : ¬ StaysIn x.tp.tState (ackProcess e x) := fun hk => by
    rw [finMoves_of_stays hk] at h
    cases h
  unfold ackProcess ackNew at hstay
  cases hl : seqLeq x.th.thAck x.tp.sndUna with
  | true =>
    rw [if_pos hl] at hstay
    exact absurd (ackDup_stays e x) hstay
  | false =>
    rw [if_neg (by simp [hl])] at hstay
    cases hg : seqGt x.th.thAck x.tp.sndMax with
    | true =>
      rw [if_pos hg] at hstay
      exact absurd (exitDropafterack_stays e _ _ _) hstay
    | false =>
      rw [if_neg (by simp [hg])] at hstay
      refine ⟨haw, rfl, rfl, ?_⟩
      cases hf : ourfinisacked x with
      | true => rfl
      | false =>
        refine absurd ?_ hstay
        rw [hf]
        unfold ackState
        split
        · exact hst
        · exact hst
        · exact hst
        · exact exitDropafterack_stays e _ _ _
        · exact hst

/-- The locals in front of ACK processing, in a state that waits for the ACK of the FIN. -/
theorem inputAck_conn (hx : inputAck e s c = .ok x) (hs : x.tp.tState.awaitsFinAck = true) :
    c.tp.tState = x.tp.tState ∧ x.conn.core = (inputSetup e s c).conn.core ∧
      x.th.thAck = s.th.thAck := by
  have hP : Stable fun _ => True :=
    ⟨fun _ _ => trivial, fun _ _ _ => trivial, fun _ _ _ _ _ => trivial, fun _ _ => trivial⟩
  unfold inputAck at hx
  have hch := inputChecks_flow hP e (x := inputSetup e s c) trivial
  revert hx hch
  cases inputChecks e (inputSetup e s c) with
  | error r =>
    intro hx
    cases hx
  | ok y =>
    intro hx hch
    have hch' : Checked (inputSetup e s c) y := hch
    have hy : ackSynReceived y = .ok x := hx
    have hxy : x = y := by
      unfold ackSynReceived at hy
      split at hy
      · split at hy
        · cases hy
        · -- a connection that leaves `SYN_RECEIVED` is in `ESTABLISHED`
          cases hy
          have hst : (synReceivedConn y).tp.tState = .established := synReceivedConn_tState y
          have hs' : (synReceivedConn y).tp.tState.awaitsFinAck = true := hs
          rw [hst] at hs'
          cases hs'
      · cases hy
        rfl
    subst hxy
    exact ⟨(hch'.tState.trans (inputSetup_tState e s c)).symm,
      hch'.trim.core.trans (leftTrim_core _), ((inputSetup_hdrOk e s c).checked hch').ack⟩

theorem inputAck_finPart (hx : inputAck e s c = .ok x) (hs : x.tp.tState.awaitsFinAck = true) :
    x.conn.finPart = c.finPart := by
  obtain ⟨hst, hcore, -⟩ := inputAck_conn hx hs
  have h1 := field_of_kept Conn.finPart hcore fun _ => rfl
  have hl : c.tp.tState ≠ .listen := by
    rintro hl
    rw [← hst, hl] at hs
    cases hs
  have h2 : (inputSetup e s c).conn.finPart = c.finPart := by
    unfold inputSetup
    dsimp only
    rw [if_neg hl]
    have hk := tcpDooptions_kept s.th.thFlags.syn e.ifMtu s.opt
      { c.tp with tIdle := 0, timerKeep := tcpKeepidle }
    have := field_of_kept (fun tp => Conn.finPart ⟨tp, c.so⟩) hk fun _ => rfl
    exact this
  exact h1.trans h2

/-- Nothing but the SYN acknowledged. -/
theorem synAlone_of_ack {U A : Int} (hx : inputAck e s c = .ok x)
    (hs : x.tp.tState.awaitsFinAck = true) (huna : At x.conn.tp.iss x.conn.tp.sndUna U)
    (hack : At x.conn.tp.iss x.th.thAck A) (hlog : x.so.soSnd.sbLog = []) (hU : U = 0) (hA : A = 1) :
    AcksSynAlone c s := by
  obtain ⟨hst, -, hth⟩ := inputAck_conn hx hs
  have hp := inputAck_finPart hx hs
  simp only [Conn.finPart, Prod.mk.injEq] at hp
  obtain ⟨p1, p2, p3, -⟩ := hp
  subst hU hA
  refine ⟨hst ▸ hs, p3 ▸ hlog, ?_, ?_⟩
  · rw [← p2, ← p1]
    simpa [At] using huna
  · rw [← hth, ← p1]
    exact hack

/-- **The FIN counts as acknowledged only when it is**, in a run in which no ACK covers our SYN
    alone behind a close. -/
theorem fin_acked {c₀ : Conn} {es : List Event} (hc : Start c₀)
    (hg : Machine.Guarded connMachine NoSynAlone (some c₀) (es ++ [.input e s]))
    (hr : (Machine.run connMachine (some c₀) es).1 = some c)
    (hx : inputAck e s c = .ok x) (hm : finMoves e x = true) :
    c.tp.sentfin = true ∧ ∃ k ∈ (Machine.run connMachine (some c₀) es).2, ∃ em ∈ k.res.out,
      em.thFlags.fin = true ∧ seqGt s.th.thAck em.finSeq = true := by
  have hcond : ¬ AcksSynAlone c s := by
    have h1 := (Machine.guarded_append hg).2
    rw [hr] at h1
    exact h1.1
  obtain ⟨hst, hl, hgt, hacked⟩ := finMoves_acked hm
  obtain ⟨-, hcore, hth⟩ := inputAck_conn hx hst
  have hp := inputAck_finPart hx hst
  simp only [Conn.finPart, Prod.mk.injEq] at hp
  obtain ⟨p1, p2, p3, p4⟩ := hp
  have hout := finOut_run hc hr
  -- what the invariant says about the acknowledgement
  have key : ∀ {U N M : Int}, SndInv x.conn U N M →
      (x.conn.so.soSnd.sbLog.length : Int) ≤ U + x.conn.so.soSnd.sbCc →
      ∃ A, At x.conn.tp.iss x.th.thAck A ∧ U + x.conn.so.soSnd.sbCc < A ∧ A ≤ M ∧
        (U + x.conn.so.soSnd.sbCc = 0 → A ≠ 1) := by
    intro U N M hinv hlog
    obtain ⟨A, hA, hUA, hAM⟩ := hinv.ackPos hl hgt
    have hcc : (x.conn.so.soSnd.sbCc : Int) < A - U := by
      have := hinv.ackAcked hA hUA hAM
      rw [← this]
      exact of_decide_eq_true hacked
    refine ⟨A, hA, by omega, hAM, fun h0 h1 => hcond ?_⟩
    have hU := hinv.una_nonneg
    have hlen : x.so.soSnd.sbLog = [] := List.eq_nil_of_length_eq_zero (by
      show x.conn.so.soSnd.sbLog.length = 0
      omega)
    exact synAlone_of_ack hx hst hinv.una hA hlen (by omega) h1
  have hE : ∀ {E : Conn → Int → Prop}, SndExtra E → SndP E c → SndP E x.conn := fun hE h =>
    (sndP_stable hE).core (inputSetup_ok (sndP_stable hE) e s h) hcore
  cases hsent : c.tp.sentfin with
  | false =>
    obtain ⟨U, N, M, hinv, hlog⟩ := hE (endP_extra _ _) hout.log
    obtain ⟨A, -, h1, h2, h3⟩ := key hinv hlog.1
    have hM := hinv.max_le_data (p4.trans hsent)
    have hU := hinv.una_nonneg
    omega
  | true =>
    obtain ⟨k, hk, em, hem, F, ⟨hfin, hF⟩, hEF⟩ := hout.fin hsent
    obtain ⟨U, N, M, hinv, hbeh⟩ := hE (endP_extra _ _) hEF
    obtain ⟨⟨hlog, hlo, hhi⟩, -⟩ := hbeh
    obtain ⟨A, hA, h1, h2, h3⟩ := key hinv hlog
    have hM := hinv.log_le
    have hU := hinv.una_nonneg
    refine ⟨rfl, k, hk, em, hem, hfin, ?_⟩
    rw [← p1] at hF
    rw [← hth, seqGt_at hA hF (by omega) (by omega)]
    simp only [decide_eq_true_eq]
    omega

end

/-- Does ACK processing of the segment take the FIN for acknowledged? -/
def movesOn (e : InEnv) (s : Seg) (c : Conn) : Bool :=
  match inputAck e s c with
  | .ok x => finMoves e x
  | .error _ => false

theorem movesOn_ok {e : InEnv} {s : Seg} {c : Conn} (h : movesOn e s c = true) :
    ∃ x, inputAck e s c = .ok x ∧ finMoves e x = true := by
  unfold movesOn at h
  split at h
  · rename_i x hx
    exact ⟨x, hx, h⟩
  · cases h

/-- A connection with `iss = 1` is opened and shut down. -/
def shutdownEvents : List Event := connectEvents 1000 ++ [.shutdown false true fun _ => {}]

/-- The ACK of the FIN of that connection. -/
def ackOfFin : Seg :=
  Seg.bare { thSeq := 101, thAck := 3, thFlags := { ack := true }, thWin := 1000 }

/-- The FIN with sequence number 2 is acknowledged. -/
theorem fin_acked_shutdown :
    ∃ c x, (Machine.run connMachine (some (activeOpen 1 newSocket)) shutdownEvents).1 = some c ∧
      inputAck {} ackOfFin c = .ok x ∧ finMoves {} x = true ∧ c.tp.sentfin = true ∧
      ∃ k ∈ (Machine.run connMachine (some (activeOpen 1 newSocket)) shutdownEvents).2,
        ∃ em ∈ k.res.out, em.thFlags.fin = true ∧ seqGt ackOfFin.th.thAck em.finSeq = true := by
  have hm : (Machine.run connMachine (some (activeOpen 1 newSocket)) shutdownEvents).1.any
      (movesOn {} ackOfFin) = true := by decide +kernel
  have hg : Machine.Guarded connMachine NoSynAlone (some (activeOpen 1 newSocket))
      (shutdownEvents ++ [.input {} ackOfFin]) := by decide +kernel
  obtain ⟨c, hr, hc⟩ := (Option.any_eq_true _ _).mp hm
  obtain ⟨x, hx, hmove⟩ := movesOn_ok hc
  exact ⟨c, x, hr, hx, hmove, fin_acked (.active 1 newSocket newSocket_fresh) hg hr hx hmove⟩

/-- The SYN of an active open with `iss = 1` crosses the SYN of the peer, and the user shuts down
    in `SYN_RECEIVED`, with no buffer for the FIN. -/
def crossEvents : List Event :=
  [.output fun _ => {},
   .input {} (Seg.bare { thSeq := 100, thFlags := { syn := true }, thWin := 1000 }),
   .shutdown false true fun _ => { mbGet := false }]

/-- The ACK of our SYN. -/
def ackOfSyn : Seg :=
  Seg.bare { thSeq := 101, thAck := 2, thFlags := { ack := true }, thWin := 1000 }

/-- The ACK of the SYN is taken for the ACK of a FIN that has not been sent. -/
theorem syn_acked_as_fin :
    ¬ ∀ (c₀ c : Conn) (es : List Event) (e : InEnv) (s : Seg) (x : InSt), Start c₀ →
      (Machine.run connMachine (some c₀) es).1 = some c → inputAck e s c = .ok x →
      finMoves e x = true → c.tp.sentfin = true ∧
        ∃ k ∈ (Machine.run connMachine (some c₀) es).2, ∃ em ∈ k.res.out,
          em.thFlags.fin = true ∧ seqGt s.th.thAck em.finSeq = true := by
  intro h
  have hm : (Machine.run connMachine (some (activeOpen 1 newSocket)) crossEvents).1.any
      (movesOn {} ackOfSyn) = true := by decide +kernel
  obtain ⟨c, hr, hc⟩ := (Option.any_eq_true _ _).mp hm
  obtain ⟨x, hx, hmove⟩ := movesOn_ok hc
  have hno := (h _ c crossEvents {} ackOfSyn x (.active 1 newSocket newSocket_fresh) hr hx hmove).2
  revert hno
  decide +kernel

end TnNet
