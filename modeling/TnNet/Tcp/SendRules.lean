import TnNet.Tcp.SendInv

/-!
# Rules for properties of the sending side

`SndP E`: the invariant of the sending side, with a property `E` of the connection and the
position of `snd_una` on top.  `SndExtra` and `SndInput` say what `E` has to satisfy, in terms of
the few places that move `snd_una`, the send buffer or the window; the rest of the code is walked
through here.

Principal results: `sndP_stable`, `sndP_input`, `sndP_user`, `sndP_step`.
-/

set_option autoImplicit false

namespace TnNet

open SeqArith

/-- The invariant with a property on top. -/
def SndP (E : Conn → Int → Prop) (c : Conn) : Prop := ∃ U N M, SndInv c U N M ∧ E c U

/-- The states in which data may be sent. -/
def TcpState.sendOpen : TcpState → Bool
  | .established | .closeWait => true
  | _ => false

/-- `E` reads only the data of the send buffer, the window and whether the connection is open
    for sending. -/
structure SndExtra (E : Conn → Int → Prop) : Prop where
  keep : ∀ {c c' : Conn} {U : Int}, E c U →
    c'.so.soSnd.sbData = c.so.soSnd.sbData → c'.so.soSnd.sbLog = c.so.soSnd.sbLog →
    c'.tp.sndWnd = c.tp.sndWnd →
    (c'.so.ssIsconnected = true → c.so.ssIsconnected = true) →
    (c'.tp.tState.sendOpen = true → c.tp.tState.sendOpen = true) →
    (c.so.ssCantsendmore = true → c'.so.ssCantsendmore = true) → E c' U

/-- The header fields ACK processing reads are those of the segment. -/
structure HdrOk (s : Seg) (x : InSt) : Prop where
  ack : x.th.thAck = s.th.thAck
  win : x.th.thWin = s.th.thWin
  flag : x.tiflags.ack = s.th.thFlags.ack

/-- What `E` says about `tcp_input`; `F` stands for it in front of the ACK tests. -/
structure SndInput (E : Conn → Int → Prop) (F : InSt → Int → Prop) (e : InEnv) (s : Seg)
    (c : Conn) : Prop where
  connect : ∀ {d d' : Conn}, E d 0 → d.so.soSnd.sbLog = [] → d.so.soSnd.sbCc = 0 →
    d'.so.soSnd = d.so.soSnd → d'.tp.sndWnd = d.tp.sndWnd →
    d'.so.ssCantsendmore = d.so.ssCantsendmore → E d' 1
  estab : ∀ {x : InSt}, E x.conn 0 → inputChecks e (inputSetup e s c) = .ok x → HdrOk s x →
    x.tp.tState = .synReceived → seqGt x.tp.sndUna x.th.thAck = false →
    seqGt x.th.thAck x.tp.sndMax = false → F { x with conn := synReceivedConn x } 0
  other : ∀ {x : InSt} {U : Int}, E x.conn U → x.tp.tState ≠ .synReceived → F x U
  dup : ∀ {x : InSt} {U : Int}, F x U → seqLeq x.th.thAck x.tp.sndUna = true → E x.conn U
  beyond : ∀ {x : InSt} {U N M : Int}, SndInv x.conn U N M → F x U →
    seqGt x.th.thAck x.tp.sndMax = true → E x.conn U
  ack : ∀ {x : InSt} {U N M A : Int}, SndInv x.conn U N M → F x U → HdrOk s x →
    inputAck e s c = .ok x → At x.tp.iss x.th.thAck A → U < A → A ≤ M → E (ackConn x) A
  window : ∀ {x : InSt} {U N M : Int}, SndInv x.conn U N M → E x.conn U → HdrOk s x →
    x.tp.tState.haveEstablished = true → inputHead e s (inputSetup e s c) = .ok x →
    windowUpdate x = true → E (updateWindow x).conn U

variable {E : Conn → Int → Prop} {F : InSt → Int → Prop}

/-! ## Stability -/

section

variable {c c' : Conn} {U N M : Int}

theorem SndExtra.same (hE : SndExtra E) (h : E c U) (hk : c'.sndPart = c.sndPart) : E c' U := by
  have h1 : c'.so.soSnd = c.so.soSnd := congrArg (fun c => c.so.soSnd) hk
  have h2 : c'.tp.sndWnd = c.tp.sndWnd := congrArg (fun c => c.tp.sndWnd) hk
  have h3 : c'.so.ssIsconnected = c.so.ssIsconnected := congrArg (fun c => c.so.ssIsconnected) hk
  have h4 : c'.tp.tState = c.tp.tState := congrArg (fun c => c.tp.tState) hk
  have h5 : c'.so.ssCantsendmore = c.so.ssCantsendmore :=
    congrArg (fun c => c.so.ssCantsendmore) hk
  exact hE.keep h (by rw [h1]) (by rw [h1]) h2 (by rw [h3]; exact id) (by rw [h4]; exact id)
    (by rw [h5]; exact id)

theorem SndP.congr (hE : SndExtra E) (h : SndP E c) (hk : c'.sndPart = c.sndPart) : SndP E c' := by
  obtain ⟨U, N, M, h1, h2⟩ := h
  exact ⟨U, N, M, h1.congr hk, hE.same h2 hk⟩

/-- A new value of `t_maxseg`. -/
theorem SndInv.setMaxseg (h : SndInv c U N M) {tp : Tcpcb} (hm : MaxsegOk tp)
    (hk : optKept tp = optKept c.tp) : SndInv { c with tp := tp } U N M := by
  have hp : Conn.sndPart { c with tp := { tp with tMaxseg := c.tp.tMaxseg } } = c.sndPart := by
    have := field_of_kept (fun tp => Conn.sndPart ⟨{ tp with tMaxseg := c.tp.tMaxseg }, c.so⟩) hk
      fun _ => rfl
    exact this
  have h1 := h.congr hp
  exact ⟨h1.una, h1.nxt, h1.max, h1.una_nonneg, h1.una_le, h1.nxt_le, h1.max_le, h1.max_le_data,
    h1.log_le, h1.log_le_data, h1.end_le, h1.fin_sent, h1.sent_off, h1.sent_state, h1.closed_off,
    h1.pre, h1.suffix, h1.cc_le, h1.hiwat_le, hm, h1.persist⟩

/-- A change of the state that keeps the sending side. -/
theorem SndInv.setState (h : SndInv c U N M) {s : TcpState}
    (hfin : (tcpOutflags s).fin = true → (tcpOutflags c.tp.tState).fin = true ∨
      c.tp.sentfin = false)
    (hoff : s.sendClosed = true → c.so.ssCantsendmore = true)
    (hnofin : s.noFin = true → c.tp.tState.noFin = true)
    (hpre : s.preEst = true → c.tp.tState.preEst = true) :
    SndInv { c with tp := { c.tp with tState := s } } U N M where
  una := h.una
  nxt := h.nxt
  max := h.max
  una_nonneg := h.una_nonneg
  una_le := h.una_le
  nxt_le := h.nxt_le
  max_le := h.max_le
  max_le_data := h.max_le_data
  log_le := h.log_le
  log_le_data := h.log_le_data
  end_le := h.end_le
  fin_sent hf hs := by
    rcases hfin hf with hf' | hf'
    · exact h.fin_sent hf' hs
    · exact absurd (hs.symm.trans hf') (by decide)
  sent_off := h.sent_off
  sent_state hs := by
    have := h.sent_state hs
    cases hp : s.noFin with
    | false => rfl
    | true => rw [hnofin hp] at this; cases this
  closed_off := hoff
  pre hp := h.pre (hpre hp)
  suffix := h.suffix
  cc_le := h.cc_le
  hiwat_le := h.hiwat_le
  maxseg := h.maxseg
  persist := h.persist

/-- A change of the socket that keeps the send buffer. -/
theorem SndInv.setSo (h : SndInv c U N M) (so : SocketTcp) (hs : so.soSnd = c.so.soSnd)
    (hoff : c.so.ssCantsendmore = true → so.ssCantsendmore = true)
    (hcon : so.ssIsconnected = true → c.so.ssIsconnected = true ∨ c.tp.tState.preEst = false) :
    SndInv { c with so := so } U N M where
  una := h.una
  nxt := h.nxt
  max := h.max
  una_nonneg := h.una_nonneg
  una_le := h.una_le
  nxt_le := h.nxt_le
  max_le := by
    show M ≤ Max.max (U + so.soSnd.sbCc) 1 + 1
    rw [hs]
    exact h.max_le
  max_le_data hf := by
    show M ≤ Max.max (U + so.soSnd.sbCc) 1
    rw [hs]
    exact h.max_le_data hf
  log_le := by
    show M ≤ so.soSnd.sbLog.length + 2
    rw [hs]
    exact h.log_le
  log_le_data hf := by
    show M ≤ so.soSnd.sbLog.length + 1
    rw [hs]
    exact h.log_le_data hf
  end_le := by
    show so.soSnd.sbCc ≠ 0 → U + so.soSnd.sbCc ≤ so.soSnd.sbLog.length + 1
    rw [hs]
    exact h.end_le
  fin_sent hf hsent := by
    show U + so.soSnd.sbCc + 1 ≤ M
    rw [hs]
    exact h.fin_sent hf hsent
  sent_off hsent := hoff (h.sent_off hsent)
  sent_state := h.sent_state
  closed_off hc := hoff (h.closed_off hc)
  pre hp := by
    obtain ⟨p1, p2, p3, p4⟩ := h.pre hp
    refine ⟨p1, by rw [hs]; exact p2, by rw [hs]; exact p3, ?_⟩
    show so.ssIsconnected = false
    cases hc : so.ssIsconnected with
    | false => rfl
    | true =>
      rcases hcon hc with h' | h'
      · rw [p4] at h'; cases h'
      · have hp' : c.tp.tState.preEst = true := hp
        rw [h'] at hp'; cases hp'
  suffix := by
    show so.soSnd.sbData <:+ so.soSnd.sbLog
    rw [hs]
    exact h.suffix
  cc_le := by
    show so.soSnd.sbCc ≤ _
    rw [hs]
    exact h.cc_le
  hiwat_le := by
    show so.soSnd.sbHiwat ≤ _
    rw [hs]
    exact h.hiwat_le
  maxseg := h.maxseg
  persist hp := by
    show 1 ≤ U + (so.soSnd.sbCc : Int)
    rw [hs]
    exact h.persist hp

/-- The sending side of a connection that has sent nothing. -/
theorem sndInv_fresh (h1 : c.tp.sndUna = c.tp.iss) (h2 : c.tp.sndNxt = c.tp.iss)
    (h3 : c.tp.sndMax = c.tp.iss) (hpre : c.tp.tState.preEst = true) (hfin : c.tp.sentfin = false)
    (hdata : c.so.soSnd.sbData = []) (hlog : c.so.soSnd.sbLog = [])
    (hcon : c.so.ssIsconnected = false) (hhi : c.so.soSnd.sbHiwat ≤ sbreserveMax)
    (hm : MaxsegOk c.tp) (hper : c.tp.timerPersist = 0) : SndInv c 0 0 0 := by
  have hcc : c.so.soSnd.sbCc = 0 := by rw [Sockbuf.sbCc, hdata]; rfl
  have hno : c.tp.sentfin ≠ true := by rw [hfin]; decide
  have hcl : c.tp.tState.sendClosed ≠ true := by
    revert hpre
    cases c.tp.tState <;> simp [TcpState.preEst, TcpState.sendClosed]
  refine ⟨?_, ?_, ?_, by omega, by omega, by omega, by omega, fun _ => by omega, by omega,
    fun _ => by omega, fun hne => absurd hcc hne, fun _ hs => absurd hs hno, fun hs => absurd hs hno,
    fun hs => absurd hs hno,
    fun hc => absurd hc hcl, fun _ => ⟨rfl, hcc, hlog, hcon⟩, ?_, by omega, hhi, hm,
    fun hp => absurd hper hp⟩
  · rw [h1]
    exact At.base _
  · rw [h2]
    exact At.base _
  · rw [h3]
    exact At.base _
  · rw [hdata]
    exact List.nil_suffix

/-- `snd_una` moves to `A`, and the bytes in front of it leave the send buffer. -/
theorem SndInv.unaMoved (h : SndInv c U N M) {A N' : Int} {n : Nat}
    (hiss : c'.tp.iss = c.tp.iss) (huna : At c.tp.iss c'.tp.sndUna A)
    (hnxt : At c.tp.iss c'.tp.sndNxt N') (hmax : c'.tp.sndMax = c.tp.sndMax)
    (h1 : U < A) (h2 : A ≤ N') (h3 : N' ≤ M) (hsnd : c'.so.soSnd = sbdrop c.so.soSnd n)
    (hn : (n : Int) = min (A - U) c.so.soSnd.sbCc) (hsent : c'.tp.sentfin = c.tp.sentfin)
    (hfin : (tcpOutflags c'.tp.tState).fin = true →
      (tcpOutflags c.tp.tState).fin = true ∧ A - U ≤ c.so.soSnd.sbCc)
    (hclosed : c'.tp.tState.sendClosed = true → c'.so.ssCantsendmore = true)
    (hoff : c.so.ssCantsendmore = true → c'.so.ssCantsendmore = true)
    (hnofin : c'.tp.tState.noFin = true → c.tp.tState.noFin = true)
    (hpre : c'.tp.tState.preEst = false) (hseg : c'.tp.tMaxseg = c.tp.tMaxseg) :
    SndInv c' A N' M := by
  have hU := h.una_nonneg
  -- the end of the buffer stays where it is, unless the FIN is acknowledged
  have hcc : A + (c'.so.soSnd.sbCc : Int) = Max.max (U + c.so.soSnd.sbCc) A := by
    have : c'.so.soSnd.sbCc = c.so.soSnd.sbCc - n := by
      rw [hsnd]
      exact List.length_drop
    omega
  have hlog : c.so.soSnd.sbLog = c'.so.soSnd.sbLog := by rw [hsnd]; rfl
  refine ⟨by rw [hiss]; exact huna, by rw [hiss]; exact hnxt, by rw [hiss, hmax]; exact h.max,
    by omega, h2, h3, ?_, fun hs => ?_, hlog ▸ h.log_le, fun hs => hlog ▸ h.log_le_data (hsent ▸ hs),
    fun hne => ?_, fun hf hs => ?_, fun hs => hoff (h.sent_off (hsent ▸ hs)),
    fun hs => ?_, hclosed, fun hp => ?_, ?_, ?_, ?_, ?_, fun _ => by omega⟩
  · have := h.max_le
    omega
  · have := h.max_le_data (hsent ▸ hs)
    omega
  · have := h.end_le (by omega)
    rw [← hlog]
    omega
  · obtain ⟨hf', hle⟩ := hfin hf
    have := h.fin_sent hf' (hsent ▸ hs)
    omega
  · have := h.sent_state (hsent ▸ hs)
    cases hp : c'.tp.tState.noFin with
    | false => rfl
    | true =>
      rw [hnofin hp] at this
      cases this
  · rw [hpre] at hp
    cases hp
  · rw [hsnd]
    exact (List.drop_suffix n _).trans h.suffix
  · have := h.cc_le
    omega
  · rw [hsnd]
    exact h.hiwat_le
  · unfold MaxsegOk
    rw [hseg]
    exact h.maxseg

end

theorem sndP_stable (hE : SndExtra E) : Stable (SndP E) where
  core h hk := h.congr hE (field_of_kept Conn.sndPart hk fun _ => rfl)
  output env c h := by
    obtain ⟨U, N, M, h1, h2⟩ := h
    obtain ⟨N', M', h3, -, -⟩ := tcpOutput_sndInv env h1
    obtain ⟨hso, hk⟩ := tcpOutput_kept env c
    have hw : (tcpOutput env c).conn.tp.sndWnd = c.tp.sndWnd := field_of_kept _ hk fun _ => rfl
    have hst : (tcpOutput env c).conn.tp.tState = c.tp.tState := field_of_kept _ hk fun _ => rfl
    exact ⟨U, N', M', h3, hE.keep h2 (by rw [hso]) (by rw [hso]) hw (by rw [hso]; exact id)
      (by rw [hst]; exact id) (by rw [hso]; exact id)⟩
  options syn mtu opt c h := by
    obtain ⟨U, N, M, h1, h2⟩ := h
    have hk := tcpDooptions_kept syn mtu opt c.tp
    have hw : (tcpDooptions syn mtu opt c.tp).sndWnd = c.tp.sndWnd :=
      field_of_kept _ hk fun _ => rfl
    have hst : (tcpDooptions syn mtu opt c.tp).tState = c.tp.tState :=
      field_of_kept _ hk fun _ => rfl
    exact ⟨U, N, M, h1.setMaxseg (tcpDooptions_maxsegOk h1.maxseg syn mtu opt) hk,
      hE.keep h2 rfl rfl hw id (by rw [hst]; exact id) id⟩
  drop c h := by
    obtain ⟨U, N, M, h1, h2⟩ := h
    exact ⟨U, N, M, h1.setState (by simp [tcpOutflags]) (by simp [TcpState.sendClosed])
      (by simp [TcpState.noFin]) (by simp [TcpState.preEst]),
      hE.keep h2 rfl rfl rfl id (by simp [TcpState.sendOpen]) id⟩

/-! ## ACK processing -/

section

variable {x : InSt} {U N M A : Int}

theorem SndInv.ackAcked (h : SndInv x.conn U N M) (hA : At x.tp.iss x.th.thAck A) (h1 : U < A)
    (h2 : A ≤ M) : ackAcked x = A - U := by
  have := h.span
  exact hA.sdist h.una (by omega) (by omega)

theorem SndInv.ackDrop (h : SndInv x.conn U N M) (hA : At x.tp.iss x.th.thAck A) (h1 : U < A)
    (h2 : A ≤ M) : (ackDrop x : Int) = min (A - U) x.so.soSnd.sbCc := by
  unfold TnNet.ackDrop ourfinisacked
  rw [h.ackAcked hA h1 h2]
  simp only [decide_eq_true_eq]
  split <;> omega

/-- The position an acceptable ACK stands for. -/
theorem SndInv.ackPos (h : SndInv x.conn U N M) (hl : seqLeq x.th.thAck x.tp.sndUna = false)
    (hg : seqGt x.th.thAck x.tp.sndMax = false) :
    ∃ A, At x.tp.iss x.th.thAck A ∧ U < A ∧ A ≤ M := by
  have hA := h.una.of_sdist x.th.thAck
  have hb := sdist_bounds x.th.thAck x.conn.tp.sndUna
  have hspan := h.span
  have hle1 := h.una_le
  have hle2 := h.nxt_le
  have hl' : ¬ sdist x.th.thAck x.conn.tp.sndUna ≤ 0 := of_decide_eq_false hl
  have hg' : seqGt x.th.thAck x.conn.tp.sndMax = false := hg
  rw [seqGt_at hA h.max (by omega) (by omega), decide_eq_false_iff_not] at hg'
  exact ⟨_, hA, by omega, by omega⟩

/-- The greater of `snd_nxt` and the acknowledgement. -/
theorem SndInv.nxtMax (h : SndInv x.conn U N M) (hA : At x.tp.iss x.th.thAck A) (h1 : U < A)
    (h2 : A ≤ M) : At x.conn.tp.iss
      (if seqLt x.conn.tp.sndNxt x.th.thAck then x.th.thAck else x.conn.tp.sndNxt) (Max.max N A) := by
  have hspan := h.span
  have hle1 := h.una_le
  have hle2 := h.nxt_le
  rw [seqLt_at h.nxt hA (by omega) (by omega)]
  by_cases hlt : N < A
  · have hA' : At x.conn.tp.iss x.th.thAck A := hA
    simpa [hlt, Int.max_eq_right (Int.le_of_lt hlt)] using hA'
  · simpa [hlt, Int.max_eq_left (Int.not_lt.mp hlt)] using h.nxt

theorem ackedConn_cases (fin : Bool) (c : Conn) :
    ackedConn fin c = c ∧ ¬ (c.tp.tState = .finWait1 ∧ fin = true) ∧
        ¬ (c.tp.tState = .closing ∧ fin = true) ∨
      c.tp.tState = .finWait1 ∧ fin = true ∧ ackedConn fin c = enterFinWait2 c ∨
      c.tp.tState = .closing ∧ fin = true ∧ ackedConn fin c = enterTimeWait c := by
  unfold ackedConn
  cases hs : c.tp.tState <;> cases fin <;> simp

/-- **An acceptable ACK keeps the invariant.** -/
theorem SndInv.acked (h : SndInv x.conn U N M) (hA : At x.tp.iss x.th.thAck A) (h1 : U < A)
    (h2 : A ≤ M) (hpre : x.tp.tState.preEst = false)
    (hlast : ¬ (x.tp.tState = .lastAck ∧ ourfinisacked x = true)) :
    SndInv (ackedConn (ourfinisacked x) (ackConn x)) A (Max.max N A) M := by
  have hk := ackRtt_kept x
  have hacked := h.ackAcked hA h1 h2
  have hdrop := h.ackDrop hA h1 h2
  have hst := ackConn_tState x
  have hnle := h.nxt_le
  have hnxt : At x.conn.tp.iss (ackConn x).tp.sndNxt (Max.max N A) := by
    have hn : (ackCwnd (ackTimer x.th.thAck (ackDeflate x.tp))).sndNxt = x.conn.tp.sndNxt :=
      field_of_kept Tcpcb.sndNxt hk fun _ => rfl
    have := h.nxtMax hA h1 h2
    rw [← hn] at this
    exact this
  have hiss : (ackConn x).tp.iss = x.conn.tp.iss := by
    have := field_of_kept Tcpcb.iss hk fun _ => rfl
    exact this
  have hmax : (ackConn x).tp.sndMax = x.conn.tp.sndMax := by
    have := field_of_kept Tcpcb.sndMax hk fun _ => rfl
    exact this
  have hsent : (ackConn x).tp.sentfin = x.conn.tp.sentfin := by
    have := field_of_kept Tcpcb.sentfin hk fun _ => rfl
    exact this
  have hseg : (ackConn x).tp.tMaxseg = x.conn.tp.tMaxseg := by
    have := field_of_kept Tcpcb.tMaxseg hk fun _ => rfl
    exact this
  have huna : At x.conn.tp.iss (ackConn x).tp.sndUna A := hA
  have hsnd : (ackConn x).so.soSnd = sbdrop x.conn.so.soSnd (TnNet.ackDrop x) := rfl
  have hcant : (ackConn x).so.ssCantsendmore = x.conn.so.ssCantsendmore := rfl
  have hclosed : x.conn.tp.tState.sendClosed = true → (ackConn x).so.ssCantsendmore = true :=
    h.closed_off
  clear hk
  generalize ackConn x = d at *
  rcases ackedConn_cases (ourfinisacked x) d with ⟨hc, hn1, hn2⟩ | ⟨hs, hf, hc⟩ |
    ⟨hs, hf, hc⟩
  · rw [hc]
    rw [hst] at hn1 hn2
    refine h.unaMoved hiss huna hnxt hmax h1 (by omega) (by omega) hsnd hdrop hsent ?_ ?_ (hcant ▸ id)
      (hst ▸ id) ?_ hseg
    · rw [hst]
      intro hfin
      refine ⟨hfin, ?_⟩
      -- a state that sends FIN is left when the FIN is acknowledged
      have hnf : ourfinisacked x = false := by
        cases hb : ourfinisacked x with
        | false => rfl
        | true =>
          rw [hb] at hn1 hn2 hlast
          exfalso
          revert hfin hn1 hn2 hlast
          cases x.tp.tState <;> simp [tcpOutflags]
      unfold ourfinisacked at hnf
      rw [decide_eq_false_iff_not, hacked] at hnf
      exact Int.not_lt.mp hnf
    · rw [hst]
      exact hclosed
    · rw [hst]
      exact hpre
  · rw [hst] at hs
    have hoff := hclosed (by rw [show x.conn.tp.tState = .finWait1 from hs]; rfl)
    rw [hc]
    unfold enterFinWait2
    split
    · exact h.unaMoved hiss huna hnxt hmax h1 (by omega) (by omega) hsnd hdrop hsent
        (by simp [tcpOutflags]) (fun _ => rfl) (fun _ => rfl) (fun hf => by cases hf) rfl hseg
    · exact h.unaMoved hiss huna hnxt hmax h1 (by omega) (by omega) hsnd hdrop hsent
        (by simp [tcpOutflags]) (fun _ => hoff) (fun _ => hoff) (fun hf => by cases hf) rfl hseg
  · rw [hc]
    exact h.unaMoved hiss huna hnxt hmax h1 (by omega) (by omega) hsnd hdrop hsent
      (by simp [enterTimeWait, tcpOutflags]) (fun _ => rfl) (fun _ => rfl) (fun hf => by cases hf)
      rfl hseg

end

/-! ## The rule for `tcp_input` -/

section

variable {s : Seg} {e : InEnv} {c : Conn} {x : InSt} {U N M : Int}

theorem inputSetup_hdrOk (e : InEnv) (s : Seg) (c : Conn) : HdrOk s (inputSetup e s c) :=
  ⟨rfl, rfl, rfl⟩

theorem HdrOk.leftTrim (h : HdrOk s x) : HdrOk s (leftTrim x) := by
  have hs : HdrOk s (leftSyn x) := by
    unfold leftSyn
    split
    · exact ⟨h.ack, h.win, h.flag⟩
    · exact h
  unfold TnNet.leftTrim
  dsimp only
  split
  · generalize (if x.tiflags.syn = true then sdist x.tp.rcvNxt x.th.thSeq - 1 else
      sdist x.tp.rcvNxt x.th.thSeq) = todrop
    split
    · exact ⟨hs.ack, hs.win, hs.flag⟩
    · exact ⟨hs.ack, hs.win, hs.flag⟩
  · exact h

theorem HdrOk.checked {y : InSt} (h : HdrOk s x) (hc : Checked x y) : HdrOk s y := by
  have hl := h.leftTrim
  cases hc.trim with
  | inside => exact hl
  | cut => exact ⟨hl.ack, hl.win, hl.flag⟩
  | probe => exact ⟨hl.ack, hl.win, hl.flag⟩

theorem HdrOk.trimThenStep6 (h : HdrOk s x) : HdrOk s (trimThenStep6 x) := by
  unfold TnNet.trimThenStep6
  dsimp only
  split
  · exact ⟨h.ack, h.win, h.flag⟩
  · exact ⟨h.ack, h.win, h.flag⟩

theorem trimThenStep6_sndPart (x : InSt) : (trimThenStep6 x).conn.sndPart = x.conn.sndPart := by
  unfold trimThenStep6
  dsimp only
  split <;> rfl

/-- A SYN accepted in state `LISTEN` starts the sending side. -/
theorem SndInv.listen (h : SndInv x.conn U N M) (hs : x.tp.tState = .listen) :
    SndInv (listenConn e s x) 0 0 0 := by
  obtain ⟨hU, hcc, hlog, hcon⟩ := h.pre (by rw [show x.conn.tp.tState = .listen from hs]; rfl)
  have hm0 : MaxsegOk { x.tp with tTemplate := true } := h.maxseg
  have hm := tcpDooptions_maxsegOk hm0 s.th.thFlags.syn e.ifMtu s.opt
  have hk := tcpDooptions_kept s.th.thFlags.syn e.ifMtu s.opt { x.tp with tTemplate := true }
  have hfin : (listenConn e s x).tp.sentfin = x.conn.tp.sentfin := by
    have := field_of_kept Tcpcb.sentfin hk fun _ => rfl
    exact this
  have hper : (listenConn e s x).tp.timerPersist = x.conn.tp.timerPersist := by
    have := field_of_kept Tcpcb.timerPersist hk fun _ => rfl
    exact this
  have hnofin : x.conn.tp.sentfin = false := by
    cases hb : x.conn.tp.sentfin with
    | false => rfl
    | true =>
      have := h.sent_state hb
      rw [show x.conn.tp.tState = .listen from hs] at this
      cases this
  have hnp : x.conn.tp.timerPersist = 0 := by
    by_contra hp
    have := h.persist hp
    omega
  exact sndInv_fresh rfl rfl rfl rfl (hfin.trans hnofin) (List.eq_nil_of_length_eq_zero hcc) hlog
    hcon h.hiwat_le hm (hper.trans hnp)

theorem listenConn_extra (hE : SndExtra E) (h : E x.conn U) : E (listenConn e s x) U := by
  have hk := tcpDooptions_kept s.th.thFlags.syn e.ifMtu s.opt { x.tp with tTemplate := true }
  have hw : (listenConn e s x).tp.sndWnd = x.conn.tp.sndWnd := by
    have := field_of_kept Tcpcb.sndWnd hk fun _ => rfl
    exact this
  exact hE.keep h rfl rfl hw id (fun ho => by cases ho) id

theorem tcpPresent_sndPart (c : Conn) : (tcpPresent c).1.sndPart = c.sndPart :=
  field_of_kept Conn.sndPart (tcpPresent_kept c) fun _ => rfl

theorem xmitTimer_sndPart (c : Conn) :
    Conn.sndPart (if c.tp.tRtt ≠ 0 then { c with tp := tcpXmitTimer c.tp c.tp.tRtt } else c) =
      c.sndPart := by
  split
  · exact field_of_kept (fun tp => Conn.sndPart ⟨tp, c.so⟩) (tcpXmitTimer_kept _ _) fun _ => rfl
  · rfl

/-- The sending side behind the ACK of our SYN in state `SYN_SENT`. -/
theorem synSentConn_sndPart (hack : x.tiflags.ack = true) (hgt : seqGt x.th.thAck x.tp.iss = true) :
    (synSentConn x).sndPart = Conn.sndPart ⟨{ x.tp with
      sndUna := x.th.thAck
      sndNxt := if seqLt x.tp.sndNxt x.th.thAck then x.th.thAck else x.tp.sndNxt
      tState := .established }, soisconnected x.so⟩ := by
  have hu : synSentUna x = { x.tp with
      sndUna := x.th.thAck
      sndNxt := if seqLt x.tp.sndNxt x.th.thAck then x.th.thAck else x.tp.sndNxt } := if_pos hack
  unfold synSentConn
  rw [hu]
  dsimp only
  rw [if_pos ⟨hack, hgt⟩]
  exact (xmitTimer_sndPart _).trans ((tcpPresent_sndPart _).trans rfl)

/-- The ACK of our SYN in state `SYN_SENT`. -/
theorem SndInv.synSent (h : SndInv x.conn U N M) (hs : x.tp.tState = .synSent)
    (hl : seqLeq x.th.thAck x.tp.iss = false) (hg : seqGt x.th.thAck x.tp.sndMax = false) :
    seqGt x.th.thAck x.tp.iss = true ∧ SndInv ⟨{ x.tp with
      sndUna := x.th.thAck
      sndNxt := if seqLt x.tp.sndNxt x.th.thAck then x.th.thAck else x.tp.sndNxt
      tState := .established }, soisconnected x.so⟩ 1 1 1 := by
  have hs' : x.conn.tp.tState = .synSent := hs
  obtain ⟨hU, hcc, -, -⟩ := h.pre (by rw [hs']; rfl)
  have hM : M ≤ 1 := by
    have hnf : x.conn.tp.sentfin = false := by
      cases hb : x.conn.tp.sentfin with
      | false => rfl
      | true =>
        have := h.sent_state hb
        rw [hs'] at this
        cases this
    have := h.max_le_data hnf
    omega
  have hiss : x.conn.tp.sndUna = x.conn.tp.iss := by
    have := h.una
    rw [hU] at this
    simpa [At] using this
  obtain ⟨A, hA, hA1, hA2⟩ := h.ackPos (x := x) (by
    show seqLeq x.th.thAck x.conn.tp.sndUna = false
    rw [hiss]
    exact hl) hg
  obtain rfl : A = 1 := by omega
  obtain rfl : M = 1 := by omega
  have hnle := h.nxt_le
  have hnxt := h.nxtMax hA (by omega) (by omega)
  rw [Int.max_eq_right (by omega)] at hnxt
  refine ⟨(seqGt_at hA (At.base _) (by omega) (by omega)).trans rfl, ?_⟩
  exact h.unaMoved (n := 0) rfl hA hnxt rfl (by omega) (by omega) (by omega) rfl (by omega) rfl
    (fun hf => by cases hf) (fun hc => by cases hc) id (fun _ => by rw [hs']; rfl) rfl rfl

theorem SndP.synSent (hE : SndExtra E) (hF : SndInput E F e s c) (h : SndP E x.conn)
    (hs : x.tp.tState = .synSent)
    (ha : x.tiflags.ack = true →
      seqLeq x.th.thAck x.tp.iss = false ∧ seqGt x.th.thAck x.tp.sndMax = false) :
    SndP E (synSentConn x) := by
  obtain ⟨U, N, M, h1, h2⟩ := h
  have hs' : x.conn.tp.tState = .synSent := hs
  cases hack : x.tiflags.ack with
  | true =>
    obtain ⟨hgt, hinv⟩ := h1.synSent hs (ha hack).1 (ha hack).2
    obtain ⟨rfl, hcc, hlog, -⟩ := h1.pre (by rw [hs']; rfl)
    refine SndP.congr hE ⟨1, 1, 1, hinv, ?_⟩ (synSentConn_sndPart hack hgt)
    exact hF.connect h2 hlog hcc rfl rfl rfl
  | false =>
    have hc : synSentConn x = ⟨{ x.tp with
        timerRexmt := 0, irs := x.th.thSeq, rcvAdv := x.th.thSeq + 1, rcvNxt := x.th.thSeq + 1
        acknow := true, tState := .synReceived }, x.so⟩ := by
      unfold synSentConn synSentUna
      rw [hack]
      rfl
    rw [hc]
    have hinv := h1.setState (s := .synReceived) (fun hf => by cases hf) (fun hf => by cases hf)
      (fun _ => by rw [hs']; rfl) (fun _ => by rw [hs']; rfl)
    refine SndP.congr (c := ⟨{ x.conn.tp with tState := .synReceived }, x.conn.so⟩) hE
      ⟨U, N, M, hinv, ?_⟩ rfl
    exact hE.keep h2 rfl rfl rfl id (fun ho => by cases ho) id

/-- Leaving `SYN_RECEIVED`. -/
theorem SndInv.synReceived (h : SndInv x.conn U N M) (hs : x.tp.tState = .synReceived) :
    U = 0 ∧ SndInv (synReceivedConn x) 0 N M := by
  have hs' : x.conn.tp.tState = .synReceived := hs
  obtain ⟨rfl, -⟩ := h.pre (by rw [hs']; rfl)
  refine ⟨rfl, ?_⟩
  have h1 := h.setState (s := .established) (fun hf => by cases hf) (fun hf => by cases hf)
    (fun _ => by rw [hs']; rfl) (fun hf => by cases hf)
  have h2 := h1.setSo (soisconnected x.conn.so) rfl id (fun _ => .inr rfl)
  exact h2.congr ((tcpPresent_sndPart _).trans rfl)

/-- The sending side of the connection that leaves `SYN_RECEIVED`. -/
theorem synReceivedConn_snd (x : InSt) :
    (synReceivedConn x).so.soSnd = x.so.soSnd ∧ (synReceivedConn x).tp.sndUna = x.tp.sndUna ∧
      (synReceivedConn x).tp.sndMax = x.tp.sndMax ∧
      (synReceivedConn x).tp.sndWnd = x.tp.sndWnd ∧
      (synReceivedConn x).so.ssCantsendmore = x.so.ssCantsendmore := by
  have hk := tcpPresent_kept ⟨{ x.tp with tState := .established }, soisconnected x.so⟩
  have h1 := field_of_kept (fun c : Conn => c.so.soSnd) hk fun _ => rfl
  have h2 := field_of_kept (fun c : Conn => c.tp.sndUna) hk fun _ => rfl
  have h3 := field_of_kept (fun c : Conn => c.tp.sndMax) hk fun _ => rfl
  have h4 := field_of_kept (fun c : Conn => c.tp.sndWnd) hk fun _ => rfl
  have h5 := field_of_kept (fun c : Conn => c.so.ssCantsendmore) hk fun _ => rfl
  exact ⟨h1, h2, h3, h4, h5⟩

theorem synReceivedConn_tState (x : InSt) : (synReceivedConn x).tp.tState = .established := by
  have := field_of_kept (fun c : Conn => c.tp.tState) (tcpPresent_kept
    ⟨{ x.tp with tState := .established }, soisconnected x.so⟩) fun _ => rfl
  exact this

/-- The fast retransmit. -/
theorem SndP.fastRexmt (hE : SndExtra E) (h : SndP E x.conn) (ha : x.th.thAck = x.tp.sndUna) :
    SndP E { x.conn with tp := fastRexmtTp x } ∧ SndP E (fastRexmt e x).conn := by
  obtain ⟨U, N, M, h1, h2⟩ := h
  have hle1 := h1.una_le
  have hle2 := h1.nxt_le
  have hspan := h1.span
  have hinv : SndInv { x.conn with tp := fastRexmtTp x } U U M := by
    refine h1.moved rfl rfl rfl h1.maxseg h1.persist ?_ h1.max (Int.le_refl U) (by omega) h1.max_le
      h1.max_le_data h1.log_le h1.log_le_data (fun hs hf => h1.fin_sent hf hs) .inl
    show At x.conn.tp.iss x.th.thAck U
    rw [ha]
    exact h1.una
  have hE1 : E { x.conn with tp := fastRexmtTp x } U := hE.keep h2 rfl rfl rfl id id id
  refine ⟨⟨U, U, M, hinv, hE1⟩, ?_⟩
  -- behind the call `snd_nxt` is set back to the greater of its two values
  obtain ⟨N', M', hout, hMM, -⟩ := tcpOutput_sndInv e.out hinv
  obtain ⟨hso, hk⟩ := tcpOutput_kept e.out { x.conn with tp := fastRexmtTp x }
  have hiss : (tcpOutput e.out { x.conn with tp := fastRexmtTp x }).conn.tp.iss = x.conn.tp.iss :=
    (field_of_kept Tcpcb.iss hk fun _ => rfl).trans rfl
  have hw : (tcpOutput e.out { x.conn with tp := fastRexmtTp x }).conn.tp.sndWnd =
      x.conn.tp.sndWnd := (field_of_kept Tcpcb.sndWnd hk fun _ => rfl).trans rfl
  have hst : (tcpOutput e.out { x.conn with tp := fastRexmtTp x }).conn.tp.tState =
      x.conn.tp.tState := (field_of_kept Tcpcb.tState hk fun _ => rfl).trans rfl
  unfold TnNet.fastRexmt callOutput
  generalize (tcpOutput e.out { x.conn with tp := fastRexmtTp x }).conn = d at *
  have hnxt := h1.nxt
  rw [← hiss] at hnxt
  have hspan' := hout.span
  have hle3 := hout.una_le
  have hle4 := hout.nxt_le
  refine ⟨U, Max.max N' N, M', ?_, ?_⟩
  · exact hout.moved rfl rfl rfl hout.maxseg hout.persist
      (seqMax_at hnxt hout.nxt (by omega) (by omega)) hout.max (by omega) (by omega) hout.max_le
      hout.max_le_data hout.log_le hout.log_le_data (fun hs hf => hout.fin_sent hf hs) .inl
  · refine hE.keep h2 ?_ ?_ hw ?_ ?_ ?_
    · rw [hso]
    · rw [hso]
    · rw [hso]
      exact id
    · rw [show (fastRexmtBack x.tp.sndNxt d.tp).tState = d.tp.tState from rfl, hst]
      exact id
    · rw [hso]
      exact id

theorem SndP.window (hF : SndInput E F e s c) (h : SndP E x.conn) (hh : HdrOk s x)
    (hpre : x.tiflags.ack = true → x.tp.tState.haveEstablished = true)
    (hx : inputHead e s (inputSetup e s c) = .ok x) : SndP E (updateWindow x).conn := by
  obtain ⟨U, N, M, h1, h2⟩ := h
  cases hw : windowUpdate x with
  | false =>
    unfold updateWindow
    rw [hw]
    exact ⟨U, N, M, h1, h2⟩
  | true =>
    have hack : x.tiflags.ack = true := by
      simp only [windowUpdate, Bool.and_eq_true] at hw
      exact hw.1
    refine ⟨U, N, M, ?_, hF.window h1 h2 hh (hpre hack) hx hw⟩
    unfold updateWindow
    rw [if_pos hw]
    exact h1.moved rfl rfl rfl h1.maxseg h1.persist h1.nxt h1.max h1.una_le h1.nxt_le h1.max_le
      h1.max_le_data h1.log_le h1.log_le_data (fun hs hf => h1.fin_sent hf hs) .inl

/-- The FIN step leaves the sending side open or closed as it was. -/
theorem SndP.doFin (hE : SndExtra E) (h : SndP E c) (fin : Bool)
    (hest : fin = true → c.tp.tState.haveEstablished = true) : SndP E (doFin fin c) := by
  unfold TnNet.doFin
  split
  · rename_i hfin
    have hadv : (finAdvance c).sndPart = c.sndPart := by
      unfold finAdvance
      split <;> rfl
    have hst : (finAdvance c).tp.tState = c.tp.tState := congrArg (fun c => c.tp.tState) hadv
    have h' := h.congr hE hadv
    have he := hest hfin
    rw [← hst] at he
    generalize finAdvance c = d at *
    obtain ⟨U, N, M, h1, h2⟩ := h'
    unfold finState
    split
    · rename_i hs
      rw [hs] at he
      cases he
    · rename_i hs
      exact ⟨U, N, M, h1.setState (fun hf => by cases hf) (fun hf => by cases hf)
        (fun _ => by rw [hs]; rfl) (fun hf => by cases hf),
        hE.keep h2 rfl rfl rfl id (fun _ => by rw [hs]; rfl) id⟩
    · rename_i hs
      have hoff := h1.closed_off (by rw [hs]; rfl)
      exact ⟨U, N, M, h1.setState (fun _ => .inl (by rw [hs]; rfl)) (fun _ => hoff)
        (fun hf => by cases hf) (fun hf => by cases hf),
        hE.keep h2 rfl rfl rfl id (fun ho => by cases ho) id⟩
    · rename_i hs
      have hoff := h1.closed_off (by rw [hs]; rfl)
      have h3 := h1.setState (s := .timeWait) (fun hf => by cases hf) (fun _ => hoff)
        (fun hf => by cases hf) (fun hf => by cases hf)
      have h4 := h3.setSo (soisdisconnected d.so) rfl (fun _ => rfl) (fun hc => by cases hc)
      refine ⟨U, N, M, ?_, hE.keep h2 rfl rfl rfl (fun hc => by cases hc)
        (fun ho => by cases ho) (fun _ => rfl)⟩
      exact h4.moved rfl rfl rfl h4.maxseg (fun hp => absurd rfl hp) h4.nxt h4.max h4.una_le
        h4.nxt_le h4.max_le h4.max_le_data h4.log_le
        h4.log_le_data (fun hs hf => h4.fin_sent hf hs) .inl
    · exact SndP.congr hE ⟨U, N, M, h1, h2⟩ rfl
    · exact ⟨U, N, M, h1, h2⟩
  · exact h

theorem SndExtra.acked (hE : SndExtra E) (fin : Bool) (h : E c U) : E (ackedConn fin c) U := by
  rcases ackedConn_cases fin c with ⟨hc, -⟩ | ⟨-, -, hc⟩ | ⟨-, -, hc⟩
  · rw [hc]
    exact h
  · rw [hc]
    unfold enterFinWait2
    split
    · exact hE.keep h rfl rfl rfl (fun hc => by cases hc) (fun ho => by cases ho) (fun _ => rfl)
    · exact hE.keep h rfl rfl rfl id (fun ho => by cases ho) id
  · rw [hc]
    exact hE.keep h rfl rfl rfl (fun hc => by cases hc) (fun ho => by cases ho) (fun _ => rfl)

theorem ackedConn_haveEstablished (fin : Bool) (h : c.tp.tState.haveEstablished = true) :
    (ackedConn fin c).tp.tState.haveEstablished = true := by
  rcases ackedConn_cases fin c with ⟨hc, -⟩ | ⟨-, -, hc⟩ | ⟨-, -, hc⟩
  · rw [hc]
    exact h
  · rw [hc]
    unfold enterFinWait2
    split <;> rfl
  · rw [hc]
    rfl

theorem synSentConn_haveEstablished (hack : x.tiflags.ack = true)
    (hl : seqLeq x.th.thAck x.tp.iss = false) :
    (synSentConn x).tp.tState.haveEstablished = true := by
  have hgt : seqGt x.th.thAck x.tp.iss = true := by
    have := of_decide_eq_false hl
    exact decide_eq_true (by omega)
  have hst : (synSentConn x).tp.tState = .established :=
    congrArg (fun c : Conn => c.tp.tState) (synSentConn_sndPart hack hgt)
  rw [hst]
  rfl

theorem haveEstablished_preEst {s : TcpState} (h : s.haveEstablished = true) : s.preEst = false := by
  cases s <;> simp_all [TcpState.haveEstablished, TcpState.preEst, TcpState.num]

/-- **The sending side under `tcp_input`.** -/
theorem sndP_input (hE : SndExtra E) (hF : SndInput E F e s c) (h : SndP E c) :
    InputInv (SndP E) (fun x => HdrOk s x ∧ x.tp.tState ≠ .closed ∧ SndP E x.conn)
      (fun x => HdrOk s x ∧ x.tp.tState.haveEstablished = true ∧
        ∃ U N M, SndInv x.conn U N M ∧ F x U)
      (fun x => HdrOk s x ∧ (x.tiflags.ack = true → x.tp.tState.haveEstablished = true) ∧
        SndP E x.conn) e s c where
  conn _ hx := hx.2.2
  setup hcl := ⟨inputSetup_hdrOk e s c, (inputSetup_tState e s c).symm ▸ hcl,
    inputSetup_ok (sndP_stable hE) e s h⟩
  checks y hx _ _ hch := by
    refine ⟨hx.1.checked hch, hch.tState.symm ▸ hx.2.1, (sndP_stable hE).core hx.2.2 ?_⟩
    exact hch.trim.core.trans (leftTrim_core _)
  listen x hx hsetup hs hack _ := by
    have hh : HdrOk s (trimThenStep6 { x with conn := listenConn e s x }) :=
      HdrOk.trimThenStep6 ⟨hx.1.ack, hx.1.win, hx.1.flag⟩
    refine ⟨hh, fun ha => ?_, ?_⟩
    · rw [hh.flag, hack] at ha
      cases ha
    refine SndP.congr hE ?_ (trimThenStep6_sndPart _)
    have hs' : x.tp.tState = .listen := by rw [hsetup, inputSetup_tState, hs]
    obtain ⟨U, N, M, h1, h2⟩ := hx.2.2
    obtain ⟨rfl, -⟩ := h1.pre (by rw [show x.conn.tp.tState = .listen from hs']; rfl)
    exact ⟨0, 0, 0, h1.listen hs', listenConn_extra hE h2⟩
  synSent x hx hsetup hs ha _ := by
    have hh : HdrOk s (trimThenStep6 { x with conn := synSentConn x }) :=
      HdrOk.trimThenStep6 ⟨hx.1.ack, hx.1.win, hx.1.flag⟩
    have hs' : x.tp.tState = .synSent := by rw [hsetup, inputSetup_tState, hs]
    have hst : (trimThenStep6 { x with conn := synSentConn x }).conn.tp.tState =
        (synSentConn x).tp.tState := by
      have := congrArg (fun c : Conn => c.tp.tState)
        (trimThenStep6_sndPart { x with conn := synSentConn x })
      exact this
    refine ⟨hh, fun hack => ?_, SndP.congr hE (hx.2.2.synSent hE hF hs' ha) (trimThenStep6_sndPart _)⟩
    have hack' : x.tiflags.ack = true := by rw [hx.1.flag, ← hh.flag, hack]
    show (trimThenStep6 { x with conn := synSentConn x }).conn.tp.tState.haveEstablished = true
    rw [hst]
    exact synSentConn_haveEstablished hack' (ha hack').1
  synReceived x hx _ hch hs hu hm := by
    obtain ⟨U, N, M, h1, h2⟩ := hx.2.2
    obtain ⟨rfl, h3⟩ := h1.synReceived hs
    refine ⟨⟨hx.1.ack, hx.1.win, hx.1.flag⟩, ?_, 0, N, M, h3, hF.estab h2 hch hx.1 hs hu hm⟩
    show (synReceivedConn x).tp.tState.haveEstablished = true
    rw [synReceivedConn_tState]
    rfl
  other x hx _ hs1 hs2 hs3 := by
    obtain ⟨U, N, M, h1, h2⟩ := hx.2.2
    refine ⟨hx.1, ?_, U, N, M, h1, hF.other h2 hs3⟩
    have hs0 := hx.2.1
    revert hs0 hs1 hs2 hs3
    cases x.tp.tState <;> simp [TcpState.haveEstablished, TcpState.num]
  dup x hx hl := by
    obtain ⟨hh, hpre, U, N, M, h1, h2⟩ := hx
    exact ⟨hh, fun _ => hpre, U, N, M, h1, hF.dup h2 hl⟩
  beyond x hx hg := by
    obtain ⟨hh, -, U, N, M, h1, h2⟩ := hx
    exact ⟨U, N, M, h1, hF.beyond h1 h2 hg⟩
  connT _ hx := hx.2.2
  dupacks x n hx := ⟨⟨hx.1.ack, hx.1.win, hx.1.flag⟩, hx.2.1, SndP.congr hE hx.2.2 rfl⟩
  fastRexmt x hx ha := hx.2.2.fastRexmt hE ha
  ackNew x b hx hin _ hl hg hlast := by
    obtain ⟨hh, hpre, U, N, M, h1, h2⟩ := hx
    obtain ⟨A, hA, hA1, hA2⟩ := h1.ackPos hl hg
    have hpre' : (ackConn x).tp.tState.haveEstablished = true := by
      rw [ackConn_tState]
      exact hpre
    exact ⟨⟨hh.ack, hh.win, hh.flag⟩, fun _ => ackedConn_haveEstablished _ hpre',
      A, Max.max N A, M, h1.acked hA hA1 hA2 (haveEstablished_preEst hpre) hlast,
      hE.acked _ (hF.ack h1 h2 hh hin hA hA1 hA2)⟩
  tail x hx hin := by
    have h1 := hx.2.2.window hF hx.1 hx.2.1 hin
    have h2 : SndP E (step6 x).conn := by
      refine h1.congr hE ?_
      unfold step6
      dsimp only
      split <;> rfl
    have hk := doData_kept e (step6 x)
    have h3 : SndP E (doData e (step6 x)).1 :=
      h2.congr hE (field_of_kept Conn.sndPart hk fun _ => rfl)
    refine h3.doFin hE _ fun hfin => ?_
    rw [field_of_kept (fun c : Conn => c.tp.tState) hk fun _ => rfl]
    exact (doData_fin hfin).1

/-- What the phases in front of `step6` keep of the sending side. -/
def Conn.sndFrame (c : Conn) : BitVec 32 × BitVec 32 × List UInt8 :=
  (c.tp.iss, c.tp.sndMax, c.so.soSnd.sbLog)

theorem synSentConn_frame (x : InSt) : (synSentConn x).sndFrame = x.conn.sndFrame := by
  have hu : Conn.sndFrame ⟨synSentUna x, x.so⟩ = x.conn.sndFrame := by
    unfold synSentUna
    split <;> rfl
  unfold synSentConn
  dsimp only
  rw [← hu]
  split
  · have h1 := xmitTimer_sndPart (tcpPresent
      { tp := { tcpRcvseqinit { synSentUna x with timerRexmt := 0, irs := x.th.thSeq } with
                acknow := true, tState := .established }
        so := soisconnected x.so }).1
    have h2 := field_of_kept Conn.sndFrame (h1.trans (tcpPresent_sndPart _)) fun _ => rfl
    exact h2
  · rfl

theorem ackedConn_frame (fin : Bool) (c : Conn) : (ackedConn fin c).sndFrame = c.sndFrame := by
  rcases ackedConn_cases fin c with ⟨hc, -⟩ | ⟨-, -, hc⟩ | ⟨-, -, hc⟩
  · rw [hc]
  · rw [hc]
    unfold enterFinWait2
    split <;> rfl
  · rw [hc]
    rfl

theorem inputHead_frame (hl : c.tp.tState ≠ .listen)
    (hx : inputHead e s (inputSetup e s c) = .ok x) : x.conn.sndFrame = c.sndFrame := by
  have hP : Stable fun _ => True :=
    ⟨fun _ _ => trivial, fun _ _ _ => trivial, fun _ _ _ _ _ => trivial, fun _ _ => trivial⟩
  have hsetup : (inputSetup e s c).conn.sndFrame = c.sndFrame := by
    unfold inputSetup
    dsimp only
    rw [if_neg hl]
    have hk := tcpDooptions_kept s.th.thFlags.syn e.ifMtu s.opt
      { c.tp with tIdle := 0, timerKeep := tcpKeepidle }
    have := field_of_kept (fun tp => Conn.sndFrame ⟨tp, c.so⟩) hk fun _ => rfl
    exact this
  have hI : InputInv (fun _ => True) (fun x => x.conn.sndFrame = c.sndFrame)
      (fun x => x.conn.sndFrame = c.sndFrame) (fun x => x.conn.sndFrame = c.sndFrame) e s c :=
    { conn := fun _ _ => trivial
      setup := fun _ => hsetup
      checks := fun y hx _ _ hch => by
        rw [← hx]
        exact field_of_kept Conn.sndFrame (hch.trim.core.trans (leftTrim_core _)) fun _ => rfl
      listen := fun _ _ _ hs _ _ => absurd hs hl
      synSent := fun x hx _ _ _ _ => by
        rw [← hx, ← synSentConn_frame x]
        have := field_of_kept Conn.sndFrame (trimThenStep6_sndPart { x with conn := synSentConn x })
          fun _ => rfl
        exact this
      synReceived := fun x hx _ _ _ _ _ => by
        rw [← hx]
        have := field_of_kept Conn.sndFrame (tcpPresent_kept
          ⟨{ x.tp with tState := .established }, soisconnected x.so⟩) fun _ => rfl
        exact this
      other := fun _ hx _ _ _ _ => hx
      dup := fun _ hx _ => hx
      beyond := fun _ _ _ => trivial
      connT := fun _ _ => trivial
      dupacks := fun _ _ hx => hx
      fastRexmt := fun _ _ _ => ⟨trivial, trivial⟩
      ackNew := fun x _ hx _ _ _ _ _ => by
        rw [← hx]
        have := field_of_kept (fun tp => Conn.sndFrame ⟨tp, x.so⟩) (ackRtt_kept x) fun _ => rfl
        exact (ackedConn_frame _ _).trans this
      tail := fun _ _ _ => trivial }
  have hh := inputHead_ok hP hI hsetup
  rw [hx] at hh
  exact hh

end

/-! ## Timers, user calls and runs -/

section

variable {c : Conn} {U N M : Int}

/-- A retransmit timeout pulls `snd_nxt` back. -/
theorem SndInv.rexmt (h : SndInv c U N M) (t : Int) :
    SndInv { c with tp := rexmtTp { c.tp with timerRexmt := t } } U U M := by
  have h1 := h.una_le
  have h2 := h.nxt_le
  exact h.moved rfl rfl rfl h.maxseg h.persist h.una h.max (Int.le_refl U) (by omega) h.max_le
    h.max_le_data h.log_le h.log_le_data (fun hs hf => h.fin_sent hf hs) .inl

/-- Only the persist timer changes. -/
theorem SndInv.setPersist (h : SndInv c U N M) {tp : Tcpcb}
    (hk : Conn.sndPart ⟨{ tp with timerPersist := c.tp.timerPersist }, c.so⟩ = c.sndPart)
    (hp : tp.timerPersist ≠ 0 → c.tp.timerPersist ≠ 0) : SndInv { c with tp := tp } U N M := by
  have h1 := h.congr hk
  exact ⟨h1.una, h1.nxt, h1.max, h1.una_nonneg, h1.una_le, h1.nxt_le, h1.max_le, h1.max_le_data,
    h1.log_le, h1.log_le_data, h1.end_le, h1.fin_sent, h1.sent_off, h1.sent_state, h1.closed_off,
    h1.pre, h1.suffix, h1.cc_le, h1.hiwat_le, h1.maxseg, fun hne => h.persist (hp hne)⟩

/-- The user appends to the send buffer. -/
theorem SndInv.append (h : SndInv c U N M) {chunk : List UInt8} (ha : Appends c chunk) :
    SndInv (appendConn c chunk) U N M := by
  unfold appendConn
  obtain ⟨hopen, hcon, hsp, hl⟩ := ha
  have hcc : ∀ sb : Sockbuf, (sbappend sb [{ mData := chunk }]).sbCc = sb.sbCc + chunk.length := by
    intro sb
    simp [sbappend, Sockbuf.sbCc]
  have hspace : c.so.soSnd.sbCc < c.so.soSnd.sbHiwat := by
    have h1 := h.cc_le
    have h2 := h.hiwat_le
    unfold sbreserveMax at h1 h2
    rw [sbspace_eq (by omega) (by omega)] at hsp
    omega
  have hnf : c.tp.sentfin = false := by
    cases hb : c.tp.sentfin with
    | false => rfl
    | true =>
      rw [h.sent_off hb] at hopen
      cases hopen
  have hlog : (sbappend c.so.soSnd [{ mData := chunk }]).sbLog.length =
      c.so.soSnd.sbLog.length + chunk.length := by
    simp [sbappend]
  refine ⟨h.una, h.nxt, h.max, h.una_nonneg, h.una_le, h.nxt_le, ?_, fun hs => ?_, ?_,
    fun hs => ?_, fun _ => ?_, fun _ hs => ?_, h.sent_off, h.sent_state, h.closed_off, fun hp => ?_, ?_,
    ?_, h.hiwat_le, h.maxseg, fun hp => ?_⟩
  · have := h.max_le
    rw [hcc]
    omega
  · have := h.max_le_data hs
    rw [hcc]
    omega
  · have := h.log_le
    rw [hlog]
    omega
  · have := h.log_le_data hs
    rw [hlog]
    omega
  · have h1 := h.log_le_data hnf
    have h2 := h.una_le
    have h3 := h.nxt_le
    have h4 := h.end_le
    rw [hlog, hcc]
    omega
  · rw [show c.tp.sentfin = true from hs] at hnf
    cases hnf
  · rw [(h.pre hp).2.2.2] at hcon
    cases hcon
  · obtain ⟨pre, hpre⟩ := h.suffix
    refine ⟨pre, ?_⟩
    simp only [sbappend, ← List.append_assoc, hpre]
  · have := h.hiwat_le
    rw [hcc]
    omega
  · have := h.persist hp
    rw [hcc]
    omega

theorem usrclosedState_spec (s : TcpState) (h : usrclosedState s ≠ .closed) :
    ((usrclosedState s).noFin = true → s.noFin = true) ∧
    ((usrclosedState s).preEst = true → s.preEst = true) ∧
    ((usrclosedState s).sendOpen = true → s.sendOpen = true) ∧
    ((tcpOutflags (usrclosedState s)).fin = true →
      (tcpOutflags s).fin = true ∨ s.noFin = true) := by
  cases s <;> simp_all [usrclosedState, TcpState.noFin, TcpState.preEst, TcpState.sendOpen,
    tcpOutflags]

theorem SndInv.usrclosed (h : SndInv c U N M) (hoff : c.so.ssCantsendmore = true)
    (hs : usrclosedState c.tp.tState ≠ .closed) :
    SndInv { c with tp := { c.tp with tState := usrclosedState c.tp.tState } } U N M := by
  obtain ⟨h1, h2, -, h4⟩ := usrclosedState_spec _ hs
  refine h.setState (fun hf => (h4 hf).imp_right fun hn => ?_) (fun _ => hoff) h1 h2
  cases hb : c.tp.sentfin with
  | false => rfl
  | true =>
    rw [h.sent_state hb] at hn
    cases hn

end

/-- **The sending side under timers and user calls.** -/
theorem sndP_user (hE : SndExtra E) : UserInv (SndP E) where
  tickRexmt c h := SndP.congr hE h rfl
  rexmt c h _ := by
    obtain ⟨U, N, M, h1, h2⟩ := h
    exact ⟨U, U, M, h1.rexmt _, hE.keep h2 rfl rfl rfl id id id⟩
  tickPersist c h := by
    obtain ⟨U, N, M, h1, h2⟩ := h
    refine ⟨U, N, M, h1.setPersist rfl fun hp h0 => hp (timerTick_zero h0), ?_⟩
    exact hE.keep h2 rfl rfl rfl id id id
  persist c h he := by
    obtain ⟨U, N, M, h1, h2⟩ := h
    refine ⟨U, N, M, h1.setPersist rfl fun _ => timerExpired_ne he, ?_⟩
    exact hE.keep h2 rfl rfl rfl id id id
  sbdrop c n h := SndP.congr hE h rfl
  cantsendmore c h := by
    obtain ⟨U, N, M, h1, h2⟩ := h
    exact ⟨U, N, M, h1.setSo _ rfl (fun _ => rfl) .inl, hE.keep h2 rfl rfl rfl id id fun _ => rfl⟩
  disconnecting c h := by
    obtain ⟨U, N, M, h1, h2⟩ := h
    exact ⟨U, N, M, h1.setSo _ rfl (fun _ => rfl) .inl, hE.keep h2 rfl rfl rfl id id fun _ => rfl⟩
  disconnected c h := by
    obtain ⟨U, N, M, h1, h2⟩ := h
    exact ⟨U, N, M, h1.setSo _ rfl (fun _ => rfl) (fun hc => by cases hc),
      hE.keep h2 rfl rfl rfl (fun hc => by cases hc) id fun _ => rfl⟩
  usrclosed c h hoff hs := by
    obtain ⟨U, N, M, h1, h2⟩ := h
    exact ⟨U, N, M, h1.usrclosed hoff hs,
      hE.keep h2 rfl rfl rfl id (usrclosedState_spec _ hs).2.2.1 id⟩
  sndbuf c n h := by
    obtain ⟨U, N, M, h1, h2⟩ := h
    unfold sbreserve
    split
    · exact ⟨U, N, M, h1, h2⟩
    · rename_i hn
      refine ⟨U, N, M, ?_, hE.keep h2 rfl rfl rfl id id id⟩
      exact ⟨h1.una, h1.nxt, h1.max, h1.una_nonneg, h1.una_le, h1.nxt_le, h1.max_le,
        h1.max_le_data, h1.log_le, h1.log_le_data, h1.end_le, h1.fin_sent, h1.sent_off, h1.sent_state,
        h1.closed_off, h1.pre, h1.suffix, h1.cc_le, Nat.not_lt.mp hn, h1.maxseg, h1.persist⟩

/-- **One event keeps the invariant of the sending side.** -/
theorem sndP_step (hE : SndExtra E) {c : Conn} (ev : Event) (h : SndP E c)
    (hF : ∀ e s, ev = .input e s → SndInput E F e s c)
    (happ : ∀ data oob env U, ev = .send data oob env → E c U → Appends c (data.take 128) →
      E (appendConn c (data.take 128)) U) : (connStep c ev).Ok (SndP E) := by
  have hP := sndP_stable hE
  refine connStep_ok hP (sndP_user hE) h (fun e s hev => ?_)
    (fun data oob env hev ha => ?_) (fun _ _ _ => h.congr hE rfl) fun n _ => h.congr hE rfl
  · exact tcpInput_ok hP (sndP_input hE (hF e s hev) h) h
  · obtain ⟨U, N, M, h1, h2⟩ := h
    exact ⟨U, N, M, h1.append ha, happ data oob env U hev h2 ha⟩

theorem sndInv_start {c : Conn} (h : Start c) : SndInv c 0 0 0 := by
  have hm : MaxsegOk tcpNewtcpcb := by unfold MaxsegOk; decide
  cases h with
  | active iss so h =>
    exact sndInv_fresh rfl rfl rfl rfl rfl h.snd_data h.snd_log rfl h.snd_hiwat hm rfl
  | passive so h =>
    exact sndInv_fresh rfl rfl rfl rfl rfl h.snd_data h.snd_log h.isconnected h.snd_hiwat hm rfl

theorem sndInv_step {c : Conn} (h : ∃ U N M, SndInv c U N M) (ev : Event) :
    (connStep c ev).Ok fun c => ∃ U N M, SndInv c U N M := by
  have hE : SndExtra fun _ _ => True := ⟨fun _ _ _ _ _ _ _ => trivial⟩
  have hF : ∀ e s, SndInput (fun _ _ => True) (fun _ _ => True) e s c := fun e s =>
    ⟨fun _ _ _ _ _ _ => trivial, fun _ _ _ _ _ _ => trivial, fun _ _ => trivial,
      fun _ _ => trivial, fun _ _ _ => trivial, fun _ _ _ _ _ _ _ => trivial,
      fun _ _ _ _ _ _ => trivial⟩
  have hP : ∀ {c}, SndP (fun _ _ => True) c → ∃ U N M, SndInv c U N M := by
    rintro c ⟨U, N, M, h, -⟩
    exact ⟨U, N, M, h⟩
  obtain ⟨U, N, M, h⟩ := h
  have hok := sndP_step hE ev ⟨U, N, M, h, trivial⟩ (fun e s _ => hF e s)
    fun _ _ _ _ _ _ _ => trivial
  exact ⟨fun hg => hP (hok.conn hg), fun k hk => hP (hok.calls k hk)⟩

/-- **The invariant of the sending side holds in every run.** -/
theorem sndInv_run {c : Conn} (hc : Start c) (es : List Event) :
    (∀ c', (Machine.run connMachine (some c) es).1 = some c' → ∃ U N M, SndInv c' U N M) ∧
      ∀ k ∈ (Machine.run connMachine (some c) es).2, ∃ U N M, SndInv k.pre U N M :=
  connRun_ok (fun _ _ => True) (fun _ ev h _ => sndInv_step h ev) ⟨0, 0, 0, sndInv_start hc⟩
    (Machine.guarded_true _ _ es)

end TnNet
