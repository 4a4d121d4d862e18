import TnNet.Tcp.Rules

/-!
# The sending side

Positions are counted from `iss`.  `SndInv c U N M`: the words `snd_una`, `snd_nxt` and `snd_max`
stand for the positions `U ≤ N ≤ M`, and nothing behind the send buffer (and the FIN) has been
sent.

* `SndInv.placed` — where one pass of `tcp_output` places its segment.
* `tcpOutput_sndInv` — a call of `tcp_output` keeps the invariant with the same `U`.
* `SndP` — the invariant with a property of the connection and `U` on top; `sndP_input`,
  `sndP_user` — what that property has to satisfy for the rules of a connection.
-/

set_option autoImplicit false

namespace TnNet

open SeqArith

/-- The states behind a close by the user. -/
def TcpState.sendClosed : TcpState → Bool
  | .finWait1 | .closing | .lastAck | .finWait2 | .timeWait => true
  | _ => false

/-- The states in front of `ESTABLISHED`. -/
def TcpState.preEst : TcpState → Bool
  | .listen | .synSent | .synReceived => true
  | _ => false

/-- The states in which no FIN has been sent. -/
def TcpState.noFin : TcpState → Bool
  | .listen | .synSent | .synReceived | .established | .closeWait => true
  | _ => false

/-- The invariant of the sending side. -/
structure SndInv (c : Conn) (U N M : Int) : Prop where
  una : At c.tp.iss c.tp.sndUna U
  nxt : At c.tp.iss c.tp.sndNxt N
  max : At c.tp.iss c.tp.sndMax M
  una_nonneg : 0 ≤ U
  una_le : U ≤ N
  nxt_le : N ≤ M
  max_le : M ≤ Max.max (U + c.so.soSnd.sbCc) 1 + 1
  max_le_data : c.tp.sentfin = false → M ≤ Max.max (U + c.so.soSnd.sbCc) 1
  log_le : M ≤ c.so.soSnd.sbLog.length + 2
  log_le_data : c.tp.sentfin = false → M ≤ c.so.soSnd.sbLog.length + 1
  end_le : c.so.soSnd.sbCc ≠ 0 → U + c.so.soSnd.sbCc ≤ c.so.soSnd.sbLog.length + 1
  fin_sent : (tcpOutflags c.tp.tState).fin = true → c.tp.sentfin = true →
    U + c.so.soSnd.sbCc + 1 ≤ M
  sent_off : c.tp.sentfin = true → c.so.ssCantsendmore = true
  sent_state : c.tp.sentfin = true → c.tp.tState.noFin = false
  closed_off : c.tp.tState.sendClosed = true → c.so.ssCantsendmore = true
  pre : c.tp.tState.preEst = true →
    U = 0 ∧ c.so.soSnd.sbCc = 0 ∧ c.so.soSnd.sbLog = [] ∧ c.so.ssIsconnected = false
  suffix : c.so.soSnd.sbData <:+ c.so.soSnd.sbLog
  cc_le : c.so.soSnd.sbCc ≤ sbreserveMax + 128
  hiwat_le : c.so.soSnd.sbHiwat ≤ sbreserveMax
  maxseg : MaxsegOk c.tp
  persist : c.tp.timerPersist ≠ 0 → 1 ≤ U + c.so.soSnd.sbCc

/-- The fields the invariant reads. -/
def Conn.sndPart (c : Conn) : Conn :=
  { tp := {
      iss := c.tp.iss, sndUna := c.tp.sndUna, sndNxt := c.tp.sndNxt, sndMax := c.tp.sndMax
      sndWnd := c.tp.sndWnd, tState := c.tp.tState, sentfin := c.tp.sentfin
      tMaxseg := c.tp.tMaxseg, timerPersist := c.tp.timerPersist }
    so := {
      soSnd := c.so.soSnd, ssCantsendmore := c.so.ssCantsendmore
      ssIsconnected := c.so.ssIsconnected } }

section

variable {c c' : Conn} {U N M : Int}

theorem SndInv.congr (h : SndInv c U N M) (hk : c'.sndPart = c.sndPart) : SndInv c' U N M := by
  have h1 : SndInv c.sndPart U N M :=
    ⟨h.una, h.nxt, h.max, h.una_nonneg, h.una_le, h.nxt_le, h.max_le, h.max_le_data, h.log_le,
      h.log_le_data, h.end_le, h.fin_sent, h.sent_off, h.sent_state, h.closed_off, h.pre, h.suffix,
      h.cc_le, h.hiwat_le, h.maxseg, h.persist⟩
  rw [← hk] at h1
  exact ⟨h1.una, h1.nxt, h1.max, h1.una_nonneg, h1.una_le, h1.nxt_le, h1.max_le, h1.max_le_data,
    h1.log_le, h1.log_le_data, h1.end_le, h1.fin_sent, h1.sent_off, h1.sent_state, h1.closed_off,
    h1.pre, h1.suffix, h1.cc_le, h1.hiwat_le, h1.maxseg, h1.persist⟩

/-- The positions are close together. -/
theorem SndInv.span (h : SndInv c U N M) : M - U ≤ 233146 := by
  have h1 := h.max_le
  have h2 := h.cc_le
  have h3 := h.una_nonneg
  unfold sbreserveMax at h2
  omega

theorem SndInv.off (h : SndInv c U N M) : sndOff c.tp = N - U := by
  have h1 := h.span
  have h2 := h.una_le
  have h3 := h.nxt_le
  exact h.nxt.sdist h.una (by omega) (by omega)

/-! ## One pass of `tcp_output` -/

theorem planLen_nonneg (c : Conn) : 0 ≤ planLen c := by
  unfold planLen
  omega

theorem SndInv.planLen_le (h : SndInv c U N M) (hl : planLen c ≠ 0) :
    0 < rawLen c ∧ N - U + planLen c ≤ c.so.soSnd.sbCc := by
  have h1 := h.off
  unfold planLen rawLen at *
  omega

/-- `snd_nxt` behind the length computation. -/
theorem SndInv.plan (h : SndInv c U N M) :
    ∃ N1, At c.tp.iss (planTp c).sndNxt N1 ∧ (N1 = N ∨ N1 = U ∧ planLen c = 0) := by
  unfold planTp
  split
  · rename_i hs
    refine ⟨U, h.una, .inr ⟨rfl, ?_⟩⟩
    unfold planLen
    have := h.maxseg.1
    omega
  · refine ⟨N, ?_, .inl rfl⟩
    unfold forceTp
    split <;> exact h.nxt

theorem tcpOutflags_syn {s : TcpState} (h : (tcpOutflags s).syn = true) :
    s.preEst = true ∧ (tcpOutflags s).fin = false := by
  cases s <;> simp_all [tcpOutflags, TcpState.preEst]

theorem tcpOutflags_fin {s : TcpState} (h : (tcpOutflags s).fin = true) :
    s.sendClosed = true ∧ s.noFin = false := by
  cases s <;> simp_all [tcpOutflags, TcpState.sendClosed, TcpState.noFin]

theorem SndInv.planLen_pre (h : SndInv c U N M) (hp : c.tp.tState.preEst = true) :
    planLen c = 0 := by
  by_contra hl
  have h1 := (h.planLen_le hl).2
  have h2 := (h.pre hp).2.1
  have h3 := planLen_nonneg c
  have h4 := h.una_le
  omega

theorem synTp_sndNxt_syn (hs : (tcpOutflags c.tp.tState).syn = true) :
    (synTp c).sndNxt = c.tp.iss := by
  unfold synTp
  rw [if_pos hs]
  dsimp only
  split
  · rfl
  · rw [tcpMss_eq]

theorem synTp_of_not_syn (hs : ¬ (tcpOutflags c.tp.tState).syn = true) : synTp c = planTp c := by
  unfold synTp
  rw [if_neg hs]

theorem SndInv.synTp_maxseg (h : SndInv c U N M) : MaxsegOk (synTp c) := by
  have hp : MaxsegOk (planTp c) := by
    rw [planTp_eq]
    exact h.maxseg
  unfold synTp
  dsimp only
  split
  · split
    · exact hp
    · have hp' : MaxsegOk { planTp c with sndNxt := c.tp.iss } := hp
      exact tcpMss_maxsegOk hp' (by decide) none
  · exact hp

/-- The options never cut the data. -/
theorem SndInv.optCuts (h : SndInv c U N M) : optCuts c = false := by
  have hm := h.synTp_maxseg.1
  unfold TnNet.optCuts optLen
  rw [decide_eq_false_iff_not]
  by_cases hs : (tcpOutflags c.tp.tState).syn = true
  · have hl := h.planLen_pre (tcpOutflags_syn hs).1
    split <;> omega
  · have he : (synTp c).tMaxseg = c.tp.tMaxseg := by
      rw [synTp_of_not_syn hs, planTp_eq]
    have : planLen c ≤ c.tp.tMaxseg := by
      unfold planLen
      omega
    rw [if_neg (by tauto)]
    omega

theorem SndInv.sendLen_eq (h : SndInv c U N M) : sendLen c = planLen c := by
  simp [sendLen, h.optCuts]

theorem SndInv.sendFin_eq (h : SndInv c U N M) : sendFin c = planFin c := by
  simp [sendFin, h.optCuts]

/-- Made a second time, the test for a FIN sent again finds nothing more to do. -/
theorem finBack_finBack (fin : Bool) (tp : Tcpcb) :
    (finBack fin (finBack fin tp)).sndNxt =
      if fin = true ∧ tp.sentfin = true ∧ tp.sndNxt = tp.sndMax then tp.sndNxt - 1
      else tp.sndNxt := by
  by_cases hb : fin = true ∧ tp.sentfin = true ∧ tp.sndNxt = tp.sndMax
  · have h1 : finBack fin tp = { tp with sndNxt := tp.sndNxt - 1 } := if_pos hb
    rw [if_pos hb, h1]
    unfold finBack
    rw [if_neg]
    rintro ⟨-, -, h2⟩
    rw [← hb.2.2] at h2
    revert h2
    generalize tp.sndNxt = x
    bv_omega
  · have h1 : finBack fin tp = tp := if_neg hb
    rw [if_neg hb, h1, h1]

theorem finBackTp_sndNxt (c : Conn) :
    (finBackTp c).sndNxt =
      if sendFin c = true ∧ c.tp.sentfin = true ∧ (synTp c).sndNxt = c.tp.sndMax then
        (synTp c).sndNxt - 1 else (synTp c).sndNxt := by
  have hs : (synTp c).sentfin = c.tp.sentfin := by rw [synTp_eq, planTp_eq]
  have hm : (synTp c).sndMax = c.tp.sndMax := by rw [synTp_eq, planTp_eq]
  rw [finBackTp, finBack_finBack, hs, hm]

/-- Where a pass places its segment: at position `S`. -/
structure Placed (c : Conn) (U N M S : Int) : Prop where
  seq : At c.tp.iss (finBackTp c).sndNxt S
  una_le : U ≤ S
  le_max : S ≤ M
  len_nonneg : 0 ≤ sendLen c
  data : sendLen c ≠ 0 → S = N ∧ N - U + sendLen c ≤ c.so.soSnd.sbCc
  syn : (tcpOutflags c.tp.tState).syn = true → S = 0 ∧ U = 0 ∧ sendLen c = 0 ∧ sendFin c = false
  fin : sendFin c = true → (tcpOutflags c.tp.tState).fin = true
  fin_new : sendFin c = true → c.tp.sentfin = false → U + c.so.soSnd.sbCc ≤ S + sendLen c
  fin_again : sendFin c = true → c.tp.sentfin = true → S + sendLen c + 1 ≤ M

/-- **Every pass places its segment between `snd_una` and `snd_max`.** -/
theorem SndInv.placed (h : SndInv c U N M) : ∃ S, Placed c U N M S := by
  obtain ⟨N1, hN1, hcase⟩ := h.plan
  have hspan := h.span
  have h1 := h.una_le
  have h2 := h.nxt_le
  have h3 := h.una_nonneg
  have hnn := planLen_nonneg c
  have hle : planLen c ≠ 0 → N - U + planLen c ≤ c.so.soSnd.sbCc := fun hl => (h.planLen_le hl).2
  have hcc := h.cc_le
  unfold sbreserveMax at hcc
  have hfinS : planFin c = true → (tcpOutflags c.tp.tState).fin = true := by
    intro hf
    simp only [planFin, Bool.and_eq_true] at hf
    exact hf.1
  -- the FIN goes out only behind all data
  have hfin : planFin c = true → U + c.so.soSnd.sbCc ≤ N1 + planLen c := by
    intro hf
    simp only [planFin, Bool.and_eq_true, Bool.not_eq_true'] at hf
    rw [seqLt_at (hN1.add (planLen c)) (h.una.addNat c.so.soSnd.sbCc) (by omega) (by omega),
      decide_eq_false_iff_not] at hf
    omega
  by_cases hs : (tcpOutflags c.tp.tState).syn = true
  · -- a SYN is sent from `iss`
    obtain ⟨hpre, hnf⟩ := tcpOutflags_syn hs
    have hU := (h.pre hpre).1
    have hl := h.planLen_pre hpre
    have hf : sendFin c = false := by
      rw [h.sendFin_eq]
      simp [planFin, hnf]
    have hseq : (finBackTp c).sndNxt = c.tp.iss := by
      rw [finBackTp_sndNxt, if_neg (by simp [hf]), synTp_sndNxt_syn hs]
    rw [← h.sendLen_eq] at hl
    refine ⟨0, ?_, by omega, by omega, by omega, fun hne => absurd hl hne, fun _ => ⟨rfl, hU, hl, hf⟩,
      ?_, ?_, ?_⟩
    · rw [hseq]
      exact At.base _
    all_goals
      intro hf'
      rw [hf] at hf'
      cases hf'
  · have hsyn := congrArg Tcpcb.sndNxt (synTp_of_not_syn hs)
    rw [← h.sendLen_eq] at hcase hnn hle hfin
    rw [← h.sendFin_eq] at hfin hfinS
    by_cases hb : sendFin c = true ∧ c.tp.sentfin = true ∧ (planTp c).sndNxt = c.tp.sndMax
    · -- the FIN is sent again: it keeps its sequence number
      obtain ⟨hf, hsent, heq⟩ := hb
      have hM := h.fin_sent (hfinS hf) hsent
      have hN1M : N1 = M := (hN1.eq_iff h.max (by omega) (by omega)).mp heq
      have hl : sendLen c = 0 := by
        by_contra hl
        have := hle hl
        omega
      have hseq : (finBackTp c).sndNxt = (planTp c).sndNxt - 1 := by
        rw [finBackTp_sndNxt, hsyn, if_pos ⟨hf, hsent, heq⟩]
      have hat : At c.tp.iss (finBackTp c).sndNxt (M - 1) := by
        have := hN1.add (-1)
        rw [hseq, BitVec.sub_eq_add_neg]
        rwa [hN1M] at this
      exact ⟨M - 1, hat, by omega, by omega, by omega, fun hne => absurd hl hne,
        fun h' => absurd h' hs, hfinS, fun _ hns => absurd (hsent.symm.trans hns) (by decide),
        fun _ _ => by omega⟩
    · have hseq : (finBackTp c).sndNxt = (planTp c).sndNxt := by
        rw [finBackTp_sndNxt, hsyn, if_neg hb]
      have hN1M : sendFin c = true → c.tp.sentfin = true → N1 ≠ M := by
        intro hf hsent hNM
        exact hb ⟨hf, hsent, (hN1.eq_iff h.max (by omega) (by omega)).mpr hNM⟩
      refine ⟨N1, hseq ▸ hN1, by omega, by omega, hnn, fun hne => ?_, fun h' => absurd h' hs, hfinS,
        fun hf _ => hfin hf, fun hf hsent => ?_⟩
      · have := hle hne
        omega
      · have hM := h.fin_sent (hfinS hf) hsent
        have hne := hN1M hf hsent
        by_cases hl : sendLen c = 0
        · omega
        · have := hle hl
          omega

/-- A pass that leaves everything else alone keeps the invariant when it keeps the positions in
    order. -/
theorem SndInv.moved (h : SndInv c U N M) {tp : Tcpcb} {N' M' : Int}
    (hiss : tp.iss = c.tp.iss) (huna : tp.sndUna = c.tp.sndUna) (hst : tp.tState = c.tp.tState)
    (hmaxseg : MaxsegOk tp) (hper : tp.timerPersist ≠ 0 → 1 ≤ U + c.so.soSnd.sbCc)
    (hnxt : At c.tp.iss tp.sndNxt N') (hmax : At c.tp.iss tp.sndMax M')
    (h1 : U ≤ N') (h2 : N' ≤ M') (h3 : M' ≤ Max.max (U + c.so.soSnd.sbCc) 1 + 1)
    (h4 : tp.sentfin = false → M' ≤ Max.max (U + c.so.soSnd.sbCc) 1)
    (h7 : M' ≤ c.so.soSnd.sbLog.length + 2)
    (h8 : tp.sentfin = false → M' ≤ c.so.soSnd.sbLog.length + 1)
    (h5 : tp.sentfin = true → (tcpOutflags c.tp.tState).fin = true →
      U + c.so.soSnd.sbCc + 1 ≤ M')
    (h6 : tp.sentfin = true → c.tp.sentfin = true ∨ (tcpOutflags c.tp.tState).fin = true) :
    SndInv { c with tp := tp } U N' M' where
  una := by
    show At tp.iss tp.sndUna U
    rw [hiss, huna]
    exact h.una
  nxt := by
    show At tp.iss tp.sndNxt N'
    rw [hiss]
    exact hnxt
  max := by
    show At tp.iss tp.sndMax M'
    rw [hiss]
    exact hmax
  una_nonneg := h.una_nonneg
  una_le := h1
  nxt_le := h2
  max_le := h3
  max_le_data := h4
  log_le := h7
  log_le_data := h8
  end_le := h.end_le
  fin_sent hf hs := h5 hs (hst ▸ hf)
  sent_off hs := by
    rcases h6 hs with h' | h'
    · exact h.sent_off h'
    · exact h.closed_off (tcpOutflags_fin h').1
  sent_state hs := by
    show tp.tState.noFin = false
    rw [hst]
    rcases h6 hs with h' | h'
    · exact h.sent_state h'
    · exact (tcpOutflags_fin h').2
  closed_off hc := h.closed_off (hst ▸ hc)
  pre hp := h.pre (hst ▸ hp)
  suffix := h.suffix
  cc_le := h.cc_le
  hiwat_le := h.hiwat_le
  maxseg := hmaxseg
  persist := hper

/-! ## A call of `tcp_output` -/

/-- The fields a pass leaves alone, in terms of `outKept`. -/
theorem outKept_snd {tp tp' : Tcpcb} (h : outKept tp' = outKept tp) :
    tp'.iss = tp.iss ∧ tp'.sndUna = tp.sndUna ∧ tp'.tState = tp.tState :=
  ⟨field_of_kept _ h fun _ => rfl, field_of_kept _ h fun _ => rfl, field_of_kept _ h fun _ => rfl⟩

theorem planTp_persist (c : Conn) (h : (planTp c).timerPersist ≠ 0) : c.tp.timerPersist ≠ 0 := by
  intro h0
  apply h
  unfold planTp forceTp
  split <;> split <;> first | rfl | exact h0

/-- `snd_nxt` in front of the header allocation. -/
theorem SndInv.synNxt (h : SndInv c U N M) :
    ∃ N2, At c.tp.iss (synTp c).sndNxt N2 ∧ U ≤ N2 ∧ N2 ≤ M := by
  have h1 := h.una_le
  have h2 := h.nxt_le
  by_cases hs : (tcpOutflags c.tp.tState).syn = true
  · have hU := (h.pre (tcpOutflags_syn hs).1).1
    refine ⟨0, ?_, by omega, by omega⟩
    rw [synTp_sndNxt_syn hs]
    exact At.base _
  · obtain ⟨N1, hN1, hcase⟩ := h.plan
    rw [synTp_of_not_syn hs]
    exact ⟨N1, hN1, by omega, by omega⟩

/-- A pass that moves only `snd_nxt`. -/
theorem SndInv.movedNxt (h : SndInv c U N M) {tp : Tcpcb} {N' : Int}
    (htp : outKept tp = outKept c.tp) (hm : MaxsegOk tp) (hnxt : At c.tp.iss tp.sndNxt N')
    (h1 : U ≤ N') (h2 : N' ≤ M) (hmax : tp.sndMax = c.tp.sndMax)
    (hfin : tp.sentfin = c.tp.sentfin) (hper : tp.timerPersist ≠ 0 → 1 ≤ U + c.so.soSnd.sbCc) :
    SndInv { c with tp := tp } U N' M := by
  obtain ⟨k1, k2, k3⟩ := outKept_snd htp
  exact h.moved k1 k2 k3 hm hper hnxt (hmax ▸ h.max) h1 h2 h.max_le
    (fun hs => h.max_le_data (hfin ▸ hs)) h.log_le (fun hs => h.log_le_data (hfin ▸ hs))
    (fun hs hf => h.fin_sent hf (hfin ▸ hs))
    (fun hs => .inl (hfin ▸ hs))

theorem nextSeq_at {b nxt : BitVec 32} {S : Int} (h : At b nxt S) (syn fin : Bool) (len : Int) :
    At b (nextSeq syn fin len nxt) (S + syn.toNat + fin.toNat + len) := by
  have hb : ∀ {x : BitVec 32} {n : Int} (f : Bool), At b x n →
      At b (x + if f = true then 1 else 0) (n + f.toNat) := by
    intro x n f hx
    cases f
    · simpa using hx
    · exact hx.add 1
  exact (hb fin (hb syn h)).add len

theorem transmitTp_spec (syn fin : Bool) (len : Int) (tp : Tcpcb) :
    (transmitTp syn fin len tp).sndNxt = nextSeq syn fin len tp.sndNxt ∧
    (transmitTp syn fin len tp).sndMax =
      (if seqGt (nextSeq syn fin len tp.sndNxt) tp.sndMax then nextSeq syn fin len tp.sndNxt
        else tp.sndMax) ∧
    (transmitTp syn fin len tp).sentfin = (tp.sentfin || fin) ∧
    (transmitTp syn fin len tp).tMaxseg = tp.tMaxseg ∧
    ((transmitTp syn fin len tp).timerPersist ≠ 0 → tp.timerPersist ≠ 0) := by
  unfold transmitTp
  dsimp only
  repeat' split
  all_goals simp_all

theorem probeTp_spec (len : Int) (tp : Tcpcb) :
    (probeTp len tp).sndNxt = tp.sndNxt ∧
    (probeTp len tp).sndMax =
      (if seqGt (tp.sndNxt + BitVec.ofInt 32 len) tp.sndMax then tp.sndNxt + BitVec.ofInt 32 len
        else tp.sndMax) ∧
    (probeTp len tp).sentfin = tp.sentfin ∧ (probeTp len tp).tMaxseg = tp.tMaxseg ∧
    (probeTp len tp).timerPersist = tp.timerPersist := by
  unfold probeTp
  split <;> simp

/-- The greater of two words, in terms of positions. -/
theorem seqMax_at {b x y : BitVec 32} {m n : Int} (hx : At b x m) (hy : At b y n)
    (hl : -2147483648 ≤ m - n) (hu : m - n < 2147483648) :
    At b (if seqGt x y then x else y) (Max.max n m) := by
  rw [seqGt_at hx hy hl hu]
  by_cases hnm : n < m
  · simpa [hnm, Int.max_eq_right (Int.le_of_lt hnm)] using hx
  · simpa [hnm, Int.max_eq_left (Int.not_lt.mp hnm)] using hy

/-- Is the pass in the transmit state, or a probe of the persist state? -/
def probing (c : Conn) : Bool := c.tp.tForce && decide ((planTp c).timerPersist ≠ 0)

/-- What a pass that sends leaves, for a segment at position `S`. -/
structure Advanced (c : Conn) (U M S N' M' : Int) : Prop where
  inv : SndInv { c with tp := advanceTp c } U N' M'
  le : M ≤ M'
  transmit : probing c = false →
    N' = S + (tcpOutflags c.tp.tState).syn.toNat + (sendFin c).toNat + sendLen c ∧
      M' = Max.max M N'
  probe : probing c = true → N' = S ∧ M' = Max.max M (S + sendLen c)

section

variable {S : Int}

/-- The position behind a segment at `S`. -/
def segEnd (c : Conn) (S : Int) : Int :=
  S + (tcpOutflags c.tp.tState).syn.toNat + (sendFin c).toNat + sendLen c

theorem Placed.segEnd_syn (hS : Placed c U N M S) (hs : (tcpOutflags c.tp.tState).syn = true) :
    segEnd c S = 1 := by
  obtain ⟨h1, -, h3, h4⟩ := hS.syn hs
  unfold segEnd
  rw [h1, h3, h4, hs]
  rfl

theorem segEnd_of_not_syn (c : Conn) (S : Int) (hs : (tcpOutflags c.tp.tState).syn = false) :
    segEnd c S = S + (sendFin c).toNat + sendLen c := by
  unfold segEnd
  rw [hs]
  simp

/-- A segment without a FIN ends below a bound of all data. -/
theorem Placed.segEnd_le_data (hS : Placed c U N M S) {B : Int} (hB : 1 ≤ B)
    (hdata : sendLen c ≠ 0 → S + sendLen c ≤ B) (hM : M ≤ B) (hf : sendFin c = false) :
    segEnd c S ≤ B := by
  have hle := hS.le_max
  cases hs : (tcpOutflags c.tp.tState).syn with
  | true => rwa [hS.segEnd_syn hs]
  | false =>
    rw [segEnd_of_not_syn c S hs, hf]
    simp only [Bool.toNat_false]
    by_cases hl : sendLen c = 0
    · omega
    · have := hdata hl
      omega

/-- Any segment ends one behind it at the most: a second FIN is below `snd_max`. -/
theorem Placed.segEnd_le (hS : Placed c U N M S) {B : Int} (hB : 1 ≤ B)
    (hdata : sendLen c ≠ 0 → S + sendLen c ≤ B) (hM : M ≤ B + 1)
    (hMdata : c.tp.sentfin = false → M ≤ B) : segEnd c S ≤ B + 1 := by
  have hle := hS.le_max
  cases hf : sendFin c with
  | false =>
    exact hS.segEnd_le_data (by omega) (fun hl => by have := hdata hl; omega) hM hf
  | true =>
    cases hs : (tcpOutflags c.tp.tState).syn with
    | true =>
      have := hS.segEnd_syn hs
      omega
    | false =>
      rw [segEnd_of_not_syn c S hs, hf]
      simp only [Bool.toNat_true]
      cases hsf : c.tp.sentfin with
      | true =>
        have := hS.fin_again hf hsf
        omega
      | false =>
        have := hMdata hsf
        by_cases hl : sendLen c = 0
        · omega
        · have := hdata hl
          omega

theorem Placed.data_le (hS : Placed c U N M S) (hl : sendLen c ≠ 0) :
    S + sendLen c ≤ U + c.so.soSnd.sbCc := by
  have := hS.data hl
  omega

theorem Placed.log_le (hS : Placed c U N M S) (h : SndInv c U N M) (hl : sendLen c ≠ 0) :
    S + sendLen c ≤ c.so.soSnd.sbLog.length + 1 := by
  have h1 := hS.data_le hl
  have h2 := hS.una_le
  have h3 := hS.len_nonneg
  have h4 := h.end_le (by omega)
  omega

/-- What the steps before the last one leave of the control block. -/
theorem urgTp_fields (c : Conn) :
    (urgTp c).sndMax = c.tp.sndMax ∧ (urgTp c).sentfin = c.tp.sentfin ∧
    (urgTp c).sndNxt = (finBackTp c).sndNxt ∧ (urgTp c).timerPersist = (planTp c).timerPersist ∧
    (urgTp c).tMaxseg = (synTp c).tMaxseg := by
  refine ⟨?_, ?_, ?_, ?_, ?_⟩
  · rw [urgTp_eq, planTp_eq]
  · rw [urgTp_eq, planTp_eq]
  · rw [urgTp_eq]
  · rw [urgTp_eq]
  · rw [urgTp_eq]

theorem advanceTp_probing (hpr : probing c = true) :
    advanceTp c = probeTp (sendLen c) (urgTp c) := by
  obtain ⟨-, -, -, hper, -⟩ := urgTp_fields c
  unfold advanceTp
  rw [if_neg]
  simp only [probing, Bool.and_eq_true, decide_eq_true_eq] at hpr
  rw [hper]
  tauto

theorem advanceTp_transmit (hpr : probing c = false) :
    advanceTp c = transmitTp (tcpOutflags c.tp.tState).syn (sendFin c) (sendLen c) (urgTp c) := by
  obtain ⟨-, -, -, hper, -⟩ := urgTp_fields c
  unfold advanceTp
  rw [if_pos]
  simp only [probing, Bool.and_eq_false_iff, decide_eq_false_iff_not] at hpr
  rw [hper]
  cases hf : c.tp.tForce
  · simp
  · exact .inr (Classical.not_not.mp (hpr.resolve_left (by simp [hf])))

/-- **A probe of the persist state**: only `snd_max` may move. -/
theorem Placed.probed (hS : Placed c U N M S) (h : SndInv c U N M) (hpr : probing c = true) :
    Advanced c U M S S (Max.max M (S + sendLen c)) := by
  have hspan := h.span
  have hcc := h.cc_le
  unfold sbreserveMax at hcc
  have g0 := h.una_nonneg
  have g1 := hS.una_le
  have g2 := hS.le_max
  have g3 := hS.len_nonneg
  have hdata := fun hl => hS.data_le hl
  have hlog := fun hl => hS.log_le h hl
  obtain ⟨k1, k2, k3⟩ := outKept_snd (advanceTp_kept c)
  obtain ⟨humax, hufin, hunxt, huper, huseg⟩ := urgTp_fields c
  obtain ⟨t1, t2, t3, t4, t5⟩ := probeTp_spec (sendLen c) (urgTp c)
  rw [← advanceTp_probing hpr] at t1 t2 t3 t4 t5
  rw [hunxt] at t1
  rw [hunxt, humax] at t2
  rw [hufin] at t3
  have hm : At c.tp.iss (advanceTp c).sndMax (Max.max M (S + sendLen c)) := by
    rw [t2]
    exact seqMax_at (hS.seq.add _) h.max (by omega) (by omega)
  refine ⟨h.moved k1 k2 k3 ?_ ?_ (t1 ▸ hS.seq) hm g1 (by omega) ?_ ?_ ?_ ?_ ?_ ?_, by omega,
    fun hn => absurd hpr (by simp [hn]), fun _ => ⟨rfl, rfl⟩⟩
  · unfold MaxsegOk
    rw [t4, huseg]
    exact h.synTp_maxseg
  · rw [t5, huper]
    exact fun hp => h.persist (planTp_persist c hp)
  · have := h.max_le
    omega
  · intro hs
    have := h.max_le_data (t3 ▸ hs)
    omega
  · have := h.log_le
    omega
  · intro hs
    have := h.log_le_data (t3 ▸ hs)
    omega
  · intro hs hf
    have := h.fin_sent hf (t3 ▸ hs)
    omega
  · intro hs
    exact .inl (t3 ▸ hs)

/-- **A pass in the transmit state**: `snd_nxt` goes behind the segment. -/
theorem Placed.transmitted (hS : Placed c U N M S) (h : SndInv c U N M)
    (hpr : probing c = false) : Advanced c U M S (segEnd c S) (Max.max M (segEnd c S)) := by
  have hspan := h.span
  have hcc := h.cc_le
  unfold sbreserveMax at hcc
  have g0 := h.una_nonneg
  have g1 := hS.una_le
  have g2 := hS.le_max
  have g3 := hS.len_nonneg
  have hdata : sendLen c ≠ 0 → S + sendLen c ≤ Max.max (U + c.so.soSnd.sbCc) 1 := fun hl => by
    have := hS.data_le hl
    omega
  have hlog := fun hl => hS.log_le h hl
  obtain ⟨k1, k2, k3⟩ := outKept_snd (advanceTp_kept c)
  obtain ⟨humax, hufin, hunxt, huper, huseg⟩ := urgTp_fields c
  obtain ⟨t1, t2, t3, t4, t5⟩ :=
    transmitTp_spec (tcpOutflags c.tp.tState).syn (sendFin c) (sendLen c) (urgTp c)
  rw [← advanceTp_transmit hpr] at t1 t2 t3 t4 t5
  rw [hunxt] at t1
  rw [hunxt, humax] at t2
  rw [hufin] at t3
  have hseq : At c.tp.iss (nextSeq (tcpOutflags c.tp.tState).syn (sendFin c) (sendLen c)
      (finBackTp c).sndNxt) (segEnd c S) := nextSeq_at hS.seq _ _ _
  -- the segment is short
  have hge : S ≤ segEnd c S := by
    unfold segEnd
    omega
  have hend := hS.segEnd_le (by omega) hdata h.max_le h.max_le_data
  have hm : At c.tp.iss (advanceTp c).sndMax (Max.max M (segEnd c S)) := by
    rw [t2]
    exact seqMax_at hseq h.max (by omega) (by omega)
  refine ⟨h.moved k1 k2 k3 ?_ ?_ (t1 ▸ hseq) hm (by omega) (by omega) ?_ ?_ ?_ ?_ ?_ ?_,
    by omega, fun _ => ⟨rfl, rfl⟩, fun hp => absurd hp (by simp [hpr])⟩
  · unfold MaxsegOk
    rw [t4, huseg]
    exact h.synTp_maxseg
  · intro hp
    exact h.persist (planTp_persist c (huper ▸ t5 hp))
  · exact Int.max_le.mpr ⟨h.max_le, hend⟩
  · intro hs
    rw [t3, Bool.or_eq_false_iff] at hs
    have hM := h.max_le_data hs.1
    exact Int.max_le.mpr ⟨hM, hS.segEnd_le_data (by omega) hdata hM hs.2⟩
  · have hM := h.log_le
    have := hS.segEnd_le (by omega) hlog (by omega) h.log_le_data
    omega
  · intro hs
    rw [t3, Bool.or_eq_false_iff] at hs
    have hM := h.log_le_data hs.1
    exact Int.max_le.mpr ⟨hM, hS.segEnd_le_data (by omega) hlog hM hs.2⟩
  · intro hs hf
    rw [t3, Bool.or_eq_true] at hs
    cases hsf : c.tp.sentfin with
    | true =>
      have := h.fin_sent hf hsf
      omega
    | false =>
      have hfin : sendFin c = true := hs.resolve_left (by simp [hsf])
      have := hS.fin_new hfin hsf
      unfold segEnd
      simp only [hfin, Bool.toNat_true]
      omega
  · intro hs
    rw [t3, Bool.or_eq_true] at hs
    exact hs.imp_right hS.fin

end

/-- **The control block handed to `ip_output`.** -/
theorem SndInv.advanced (h : SndInv c U N M) :
    ∃ S N' M', Placed c U N M S ∧ Advanced c U M S N' M' := by
  obtain ⟨S, hS⟩ := h.placed
  cases hpr : probing c with
  | true => exact ⟨S, _, _, hS, hS.probed h hpr⟩
  | false => exact ⟨S, _, _, hS, hS.transmitted h hpr⟩

/-! ## The packets of a call -/

/-- A packet at position `S`, with all of its data below `M'`: the data are the bytes of the send
    buffer from `S` on, and lie inside the window unless the call is forced. -/
structure EmitAt (c : Conn) (U M' S : Int) (em : Emit) : Prop where
  seq : At c.tp.iss em.thSeq S
  una_le : U ≤ S
  end_le : S + em.data.length ≤ M'
  data : em.data ≠ [] →
    em.data = (c.so.soSnd.sbData.drop (S - U).toNat).take em.data.length ∧
      S - U + em.data.length ≤ c.so.soSnd.sbCc
  window : em.data ≠ [] → em.forced = false → S - U + em.data.length ≤ c.tp.sndWnd.toNat

theorem sendData_spec {e : SendEnv} {d : List UInt8} (hd : sendData e c = some d) :
    (d.length : Int) = sendLen c ∧ (d ≠ [] →
      d = (c.so.soSnd.sbData.drop (sndOff c.tp).toNat).take d.length) := by
  unfold sendData at hd
  split at hd
  · split at hd
    · rename_i hne
      unfold mCopy at hd
      split at hd
      · rename_i hm
        cases hd
        have hlen : ((c.so.soSnd.sbData.drop (sndOff c.tp).toNat).take (sendLen c).toNat).length =
            (sendLen c).toNat := by
          rw [List.length_take, List.length_drop]
          omega
        exact ⟨by omega, fun _ => by rw [hlen]⟩
      · cases hd
    · rename_i hz
      cases hd
      exact ⟨by simp; omega, fun h => absurd rfl h⟩
  · cases hd

/-- When the buffers for the packet can not be allocated. -/
theorem SndInv.sendData_none (h : SndInv c U N M) (e : SendEnv) :
    sendData e c = none ↔ e.mbGet = false ∨ (e.mCopy = false ∧ planLen c ≠ 0) := by
  have hcopy : planLen c ≠ 0 →
      (mCopy e.mCopy c.so.soSnd.sbData (sndOff c.tp) (planLen c) = none ↔ e.mCopy = false) := by
    intro hl
    have hnn := planLen_nonneg c
    have hfit := (h.planLen_le hl).2
    have hoff := h.off
    have hle := h.una_le
    have hcc : (c.so.soSnd.sbCc : Int) = c.so.soSnd.sbData.length := rfl
    unfold mCopy
    split
    · rename_i hm
      simp [hm.1]
    · rename_i hm
      simp only [true_iff]
      cases hb : e.mCopy with
      | false => rfl
      | true => exact absurd ⟨hb, by omega, by omega, by omega⟩ hm
  unfold sendData
  rw [h.sendLen_eq]
  cases hmb : e.mbGet with
  | false => simp
  | true =>
    by_cases hl : planLen c = 0
    · simp [hl]
    · simp [hl, hcopy hl]

theorem SndInv.planLen_ne_zero (h : SndInv c U N M) :
    planLen c ≠ 0 ↔ sndOff c.tp < min (c.so.soSnd.sbCc : Int) (useWin c.tp) := by
  have hlow := h.maxseg.1
  unfold planLen rawLen
  omega

theorem sndWin_le (tp : Tcpcb) : sndWin tp ≤ tp.sndWnd.toNat := by
  unfold sndWin
  have hle : ∀ x : BitVec 32, x.toInt ≤ x.toNat := by
    intro x
    rw [BitVec.toInt_eq_toNat_cond]
    split <;> omega
  split
  · exact hle _
  · rename_i h
    have h1 := hle tp.sndCwnd
    have h2 : tp.sndCwnd.toNat ≤ tp.sndWnd.toNat := by
      simpa [BitVec.lt_def] using h
    omega

/-- The packet of a pass. -/
theorem SndInv.emit (h : SndInv c U N M) {e : SendEnv} {d : List UInt8}
    (hd : sendData e c = some d) {S N' M' : Int} (hS : Placed c U N M S)
    (hA : Advanced c U M S N' M') : EmitAt c U M' S (sendEmit e c d) := by
  obtain ⟨hlen, hdata⟩ := sendData_spec hd
  have hend : S + sendLen c ≤ M' := by
    have hle := hA.le
    cases hp : probing c with
    | true =>
      have := (hA.probe hp).2
      omega
    | false =>
      have := hA.transmit hp
      omega
  have hl : d ≠ [] → sendLen c ≠ 0 := by
    intro hne h0
    rw [h0] at hlen
    exact hne (List.eq_nil_of_length_eq_zero (by omega))
  refine ⟨hS.seq, hS.una_le, by show S + d.length ≤ M'; omega, fun hne => ?_, fun hne hf => ?_⟩
  · obtain ⟨hSN, hcc⟩ := hS.data (hl hne)
    refine ⟨?_, by show S - U + d.length ≤ _; omega⟩
    have hd' := hdata hne
    rw [h.off, ← hSN] at hd'
    exact hd'
  · obtain ⟨hSN, -⟩ := hS.data (hl hne)
    have hlp : planLen c ≠ 0 := by
      rw [← h.sendLen_eq]
      exact hl hne
    have hraw := (h.planLen_le hlp).1
    have hw : useWin c.tp = sndWin c.tp := by
      unfold useWin
      have hf' : c.tp.tForce = false := hf
      simp [hf']
    have hle : planLen c ≤ rawLen c := by
      unfold planLen
      omega
    have hoff := h.off
    have hww := sndWin_le c.tp
    rw [h.sendLen_eq] at hlen
    show S - U + d.length ≤ _
    unfold rawLen at hle
    omega

theorem outTp_sndPart (error : Int) (tp : Tcpcb) (so : SocketTcp) :
    Conn.sndPart ⟨(outTp error tp).1, so⟩ = Conn.sndPart ⟨tp, so⟩ := by
  unfold outTp
  split
  · rfl
  · split <;> rfl

theorem sentTp_sndPart (c : Conn) (so : SocketTcp) :
    Conn.sndPart ⟨sentTp c, so⟩ = Conn.sndPart ⟨advanceTp c, so⟩ := by
  unfold sentTp
  dsimp only
  split <;> rfl

/-- The packet of a pass, with its position. -/
def PassEmit (e : SendEnv) (c : Conn) (U N M N' M' : Int) (em : Emit) : Prop :=
  ∃ S d, Placed c U N M S ∧ Advanced c U M S N' M' ∧ sendData e c = some d ∧ em = sendEmit e c d

/-- **One pass keeps the invariant**, with the same `snd_una`. -/
theorem SndInv.pass (h : SndInv c U N M) (e : SendEnv) (idle : Bool) :
    ∃ N' M', SndInv { c with tp := (tcpOutputPass e idle c).tp } U N' M' ∧ M ≤ M' ∧
      ∀ em ∈ (tcpOutputPass e idle c).emit, PassEmit e c U N M N' M' em := by
  have hcase := tcpOutputPass_cases e idle c
  generalize tcpOutputPass e idle c = p at hcase ⊢
  have hper : (TnNet.planTp c).timerPersist ≠ 0 → 1 ≤ U + c.so.soSnd.sbCc := fun hp =>
    h.persist (planTp_persist c hp)
  have h1 := h.una_le
  have h2 := h.nxt_le
  cases hcase with
  | quiet =>
    obtain ⟨N1, hN1, hcase⟩ := h.plan
    have hq : quietTp c = { TnNet.planTp c with
        tRxtshift := (quietTp c).tRxtshift, timerPersist := (quietTp c).timerPersist } := by
      unfold quietTp
      split <;> rfl
    refine ⟨N1, M, h.movedNxt (quietTp_kept c) ?_ ?_ (by omega) (by omega) ?_ ?_ fun hp => ?_,
      Int.le_refl M, fun em hem => by simp at hem⟩
    · rw [hq, planTp_eq]
      exact h.maxseg
    · rw [hq]
      exact hN1
    · rw [hq, planTp_eq]
    · rw [hq, planTp_eq]
    · unfold quietTp at hp
      split at hp
      · have := h.una_nonneg
        omega
      · exact hper hp
  | nobufs =>
    obtain ⟨N2, hN2, hle1, hle2⟩ := h.synNxt
    have hsyn : SndInv { c with tp := synTp c } U N2 M := by
      refine h.movedNxt (synTp_kept c) h.synTp_maxseg hN2 hle1 hle2 ?_ ?_ fun hp => hper ?_
      · rw [synTp_eq, planTp_eq]
      · rw [synTp_eq, planTp_eq]
      · rw [synTp_eq] at hp
        exact hp
    exact ⟨N2, M, hsyn.congr (outTp_sndPart _ _ _), Int.le_refl M, fun em hem => by simp at hem⟩
  | failed data hw hd he =>
    obtain ⟨S, N', M', hS, hA⟩ := h.advanced
    exact ⟨N', M', hA.inv.congr (outTp_sndPart _ _ _), hA.le,
      fun em hem => ⟨S, data, hS, hA, hd, (Option.some_inj.mp hem).symm⟩⟩
  | sent data hw hd he =>
    obtain ⟨S, N', M', hS, hA⟩ := h.advanced
    exact ⟨N', M', hA.inv.congr (sentTp_sndPart _ _), hA.le,
      fun em hem => ⟨S, data, hS, hA, hd, (Option.some_inj.mp hem).symm⟩⟩

theorem probing_eq_false {c : Conn} (h : sndWin c.tp ≠ 0) : probing c = false := by
  unfold probing TnNet.planTp forceTp
  cases hf : c.tp.tForce with
  | false => rfl
  | true =>
    simp only [h, ne_eq, not_false_eq_true, and_self, if_true]
    split <;> rfl

theorem sentTp_sndCwnd (hs : (tcpOutflags c.tp.tState).syn = false) :
    (sentTp c).sndCwnd = c.tp.sndCwnd := by
  have hu : (urgTp c).sndCwnd = c.tp.sndCwnd := by
    have hsyn := synTp_of_not_syn (c := c) (by simp [hs])
    rw [urgTp_eq]
    show (synTp c).sndCwnd = _
    rw [hsyn, planTp_eq]
  have ha : (advanceTp c).sndCwnd = (urgTp c).sndCwnd := by
    unfold advanceTp transmitTp probeTp
    dsimp only
    repeat' split
    all_goals rfl
  rw [← hu, ← ha]
  unfold sentTp
  dsimp only
  split <;> rfl

/-- What holds when a pass is repeated with the control block `tp`. -/
structure Again (c : Conn) (tp : Tcpcb) : Prop where
  tp_eq : tp = sentTp c
  raw : c.tp.tMaxseg < rawLen c
  win : sndWin c.tp ≠ 0
  syn : (tcpOutflags c.tp.tState).syn = false
  win_tp : sndWin tp = sndWin c.tp

/-- **A pass is repeated only behind a full segment** into an open window. -/
theorem SndInv.again (h : SndInv c U N M) {e : SendEnv} {idle : Bool}
    (hr : (tcpOutputPass e idle c).ret = none) : Again c (tcpOutputPass e idle c).tp := by
  have hcase := tcpOutputPass_cases e idle c
  generalize tcpOutputPass e idle c = p at hcase hr ⊢
  cases hcase with
  | quiet => cases hr
  | nobufs => cases hr
  | failed => cases hr
  | sent data hw hd he =>
    have halot : sendAlot c = true := by
      by_contra hn
      simp [hn] at hr
    have hlow := h.maxseg.1
    have hraw : c.tp.tMaxseg < rawLen c := by
      simp only [sendAlot, h.optCuts, Bool.or_false, planAlot, decide_eq_true_eq] at halot
      omega
    have hsyn : (tcpOutflags c.tp.tState).syn = false := by
      cases hs : (tcpOutflags c.tp.tState).syn with
      | false => rfl
      | true =>
        have hl := h.planLen_pre (tcpOutflags_syn hs).1
        unfold planLen at hl
        omega
    have hwin : sndWin c.tp ≠ 0 := by
      intro h0
      have h1 : useWin c.tp ≤ 1 := by
        unfold useWin
        split <;> omega
      have hoff := h.off
      have hle := h.una_le
      unfold rawLen at hraw
      omega
    refine ⟨rfl, hraw, hwin, hsyn, ?_⟩
    have hwnd : (sentTp c).sndWnd = c.tp.sndWnd :=
      field_of_kept Tcpcb.sndWnd (sentTp_kept c) fun _ => rfl
    unfold sndWin
    rw [hwnd, sentTp_sndCwnd hsyn]

theorem SndInv.idle (h : SndInv c U N M) : SndInv { c with tp := idleTp c.tp } U N M := by
  refine h.congr ?_
  unfold idleTp
  split <;> rfl

theorem EmitAt.congr {M' M'' S : Int} {em : Emit} (h : EmitAt c U M' S em)
    (hso : c'.so = c.so) (hk : outKept c'.tp = outKept c.tp) (hle : M' ≤ M'') :
    EmitAt c' U M'' S em := by
  have h1 : c'.tp.iss = c.tp.iss := field_of_kept _ hk fun _ => rfl
  have h2 : c'.tp.sndWnd = c.tp.sndWnd := field_of_kept _ hk fun _ => rfl
  exact ⟨h1 ▸ h.seq, h.una_le, Int.le_trans h.end_le hle, hso ▸ h.data, h2 ▸ h.window⟩

/-- **A call of `tcp_output` keeps the invariant**, and every packet has its place. -/
theorem tcpOutput_sndInv (env : Nat → SendEnv) (h : SndInv c U N M) :
    ∃ N' M', SndInv (tcpOutput env c).conn U N' M' ∧ M ≤ M' ∧
      ∀ em ∈ (tcpOutput env c).out, ∃ S, EmitAt c U M' S em := by
  obtain ⟨A, hA⟩ : ∃ A : List Emit → Conn → Prop, A = fun out c1 =>
      c1.so = c.so ∧ outKept c1.tp = outKept c.tp ∧
      ∃ N' M', SndInv c1 U N' M' ∧ M ≤ M' ∧ ∀ em ∈ out, ∃ S, EmitAt c U M' S em := ⟨_, rfl⟩
  have hpass : ∀ e idle out c1, A out c1 →
      A (out ++ (tcpOutputPass e idle c1).emit.toList)
        { c1 with tp := (tcpOutputPass e idle c1).tp } := by
    intro e idle out c1 h1
    rw [hA] at h1 ⊢
    obtain ⟨hso, hk, N1, M1, hinv, hle, hem⟩ := h1
    obtain ⟨N2, M2, hinv2, hle2, hem2⟩ := hinv.pass e idle
    refine ⟨hso, (tcpOutputPass_kept e idle c1).trans hk, N2, M2, hinv2, by omega, fun em hm => ?_⟩
    rcases List.mem_append.mp hm with hm | hm
    · obtain ⟨S, hS⟩ := hem em hm
      exact ⟨S, hS.congr rfl rfl hle2⟩
    · obtain ⟨S, d, hS, hA, hd, rfl⟩ := hem2 em (by simpa using hm)
      exact ⟨S, (hinv.emit hd hS hA).congr hso.symm hk.symm (Int.le_refl M2)⟩
  have hloop := tcpOutput_rule (A := A) (B := A) (fun e idle out c1 h1 _ => hpass e idle out c1 h1)
    hpass (fun _ _ h1 => h1) env c (by
      rw [hA]
      refine ⟨rfl, ?_, N, M, h.idle, Int.le_refl M, fun em hm => by simp at hm⟩
      unfold idleTp
      split <;> rfl)
  rw [hA] at hloop
  obtain ⟨-, -, hres⟩ := hloop
  exact hres

end

end TnNet
