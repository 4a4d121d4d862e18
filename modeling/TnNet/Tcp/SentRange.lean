import TnNet.Tcp.SendRules

/-!
# What is sent can be acknowledged

A packet is acknowledgeable when an ACK of all of it passes the tests of `tcp_input`: it starts at
`snd_una` or behind it and ends at `snd_max` or in front of it.  The persist branch of
`tcp_output` sets `snd_max` to the end of the data and does not count a FIN that goes out with
the probe.

* `FinProbe` — the states from which a call of `tcp_output` sends such a probe;
* `tcpOutput_acknowledgeable` — every other call sends acknowledgeable packets, and this one
  does not;
* `sent_acknowledgeable` — the same for the calls of every run.
-/

set_option autoImplicit false

namespace TnNet

open SeqArith

/-- The sequence number behind a packet. -/
def Emit.endSeq (em : Emit) : BitVec 32 :=
  nextSeq em.thFlags.syn em.thFlags.fin em.data.length em.thSeq

/-- An ACK of the whole packet is neither old nor an ACK of unsent data. -/
def Acknowledgeable (tp : Tcpcb) (em : Emit) : Prop :=
  seqLeq tp.sndUna em.thSeq = true ∧ seqGt em.endSeq tp.sndMax = false

instance (tp : Tcpcb) (em : Emit) : Decidable (Acknowledgeable tp em) :=
  inferInstanceAs (Decidable (_ ∧ _))

/-- A forced call in the persist state, with the window closed and nothing but the last byte in
    front of a FIN that has not been sent, and with memory for the packet. -/
def FinProbe (e : SendEnv) (c : Conn) : Prop :=
  c.tp.tForce = true ∧ c.tp.timerPersist ≠ 0 ∧ sndWin (idleTp c.tp) = 0 ∧
    (tcpOutflags c.tp.tState).fin = true ∧ c.tp.sentfin = false ∧
    ((c.so.soSnd.sbCc : Int) ≤ 1 ∨ (c.so.soSnd.sbCc : Int) ≤ sndOff c.tp) ∧
    e.mbGet = true ∧ (e.mCopy = true ∨ (c.so.soSnd.sbCc : Int) ≤ sndOff c.tp)

instance (e : SendEnv) (c : Conn) : Decidable (FinProbe e c) :=
  inferInstanceAs (Decidable (_ ∧ _))

/-- A packet between the positions `U` and `M`. -/
def SentAt (b : BitVec 32) (U M : Int) (em : Emit) : Prop :=
  ∃ S, At b em.thSeq S ∧ U ≤ S ∧
    S + em.thFlags.syn.toNat + em.thFlags.fin.toNat + em.data.length ≤ M

section

variable {c : Conn} {e : SendEnv} {U N M N' M' : Int} {em : Emit}

theorem SentAt.mono {b : BitVec 32} (h : SentAt b U M em) (hle : M ≤ M') : SentAt b U M' em := by
  obtain ⟨S, h1, h2, h3⟩ := h
  exact ⟨S, h1, h2, by omega⟩

theorem SentAt.acknowledgeable (hem : SentAt c.tp.iss U M em) (h : SndInv c U N M) :
    Acknowledgeable c.tp em := by
  obtain ⟨S, h1, h2, h3⟩ := hem
  have hspan := h.span
  constructor
  · rw [seqLeq_at h.una h1 (by omega) (by omega)]
    simpa using h2
  · unfold Emit.endSeq
    rw [seqGt_at (nextSeq_at h1 _ _ _) h.max (by omega) (by omega)]
    simpa using h3

/-! ## One pass -/

/-- The pass sends a FIN for the first time, as a probe. -/
def finProbePass (c : Conn) : Bool := probing c && sendFin c && !c.tp.sentfin

theorem probing_state (h : SndInv c U N M) (hp : probing c = true) :
    (tcpOutflags c.tp.tState).syn = false ∧ 1 ≤ U + c.so.soSnd.sbCc := by
  simp only [probing, Bool.and_eq_true, decide_eq_true_eq] at hp
  have hper := h.persist (planTp_persist c hp.2)
  refine ⟨?_, hper⟩
  cases hs : (tcpOutflags c.tp.tState).syn with
  | false => rfl
  | true =>
    obtain ⟨hU, hcc, -⟩ := h.pre (tcpOutflags_syn hs).1
    omega

theorem PassEmit.sentAt (h : SndInv c U N M) (hem : PassEmit e c U N M N' M' em)
    (hf : finProbePass c = false) : SentAt c.tp.iss U M' em := by
  obtain ⟨S, d, hS, hA, hd, rfl⟩ := hem
  obtain ⟨hlen, -⟩ := sendData_spec hd
  refine ⟨S, hS.seq, hS.una_le, ?_⟩
  show S + (tcpOutflags c.tp.tState).syn.toNat + (sendFin c).toNat + (d.length : Int) ≤ M'
  have hle := hA.le
  cases hp : probing c with
  | false =>
    obtain ⟨h1, h2⟩ := hA.transmit hp
    omega
  | true =>
    obtain ⟨-, h2⟩ := hA.probe hp
    rw [(probing_state h hp).1]
    simp only [finProbePass, hp, Bool.true_and] at hf
    cases hfin : sendFin c with
    | false =>
      simp only [Bool.toNat_false]
      omega
    | true =>
      -- the FIN has been sent before, and `snd_max` counts it
      have hsent : c.tp.sentfin = true := by simpa [hfin] using hf
      have := hS.fin_again hfin hsent
      simp only [Bool.toNat_false, Bool.toNat_true]
      omega

theorem PassEmit.not_acknowledgeable (h : SndInv c U N M) (hem : PassEmit e c U N M N' M' em)
    (hf : finProbePass c = true) {tp : Tcpcb} (hmax : At c.tp.iss tp.sndMax M') :
    ¬ Acknowledgeable tp em := by
  obtain ⟨S, d, hS, hA, hd, rfl⟩ := hem
  obtain ⟨hlen, -⟩ := sendData_spec hd
  simp only [finProbePass, Bool.and_eq_true, Bool.not_eq_true'] at hf
  obtain ⟨⟨hp, hfin⟩, hns⟩ := hf
  obtain ⟨-, hM'⟩ := hA.probe hp
  obtain ⟨hsyn, hper⟩ := probing_state h hp
  have hnew := hS.fin_new hfin hns
  have hold := h.max_le_data hns
  have hspan := h.span
  have hS1 := hS.una_le
  have hS2 := hS.le_max
  have hend : At c.tp.iss (sendEmit e c d).endSeq (S + sendLen c + 1) := by
    have := nextSeq_at hS.seq (tcpOutflags c.tp.tState).syn (sendFin c) d.length
    rw [hsyn, hfin, hlen] at this
    unfold Emit.endSeq
    show At c.tp.iss (nextSeq (tcpOutflags c.tp.tState).syn (sendFin c) d.length _) _
    rw [hsyn, hfin, hlen]
    have heq : S + (false.toNat : Int) + (true.toNat : Int) + sendLen c = S + sendLen c + 1 := by
      simp only [Bool.toNat_false, Bool.toNat_true]
      omega
    rwa [heq] at this
  rintro ⟨-, h2⟩
  rw [seqGt_at hend hmax (by omega) (by omega), decide_eq_false_iff_not] at h2
  omega

/-! ## The condition -/

theorem planLen_closed (h : SndInv c U N M) (hf : c.tp.tForce = true) (hw : sndWin c.tp = 0) :
    planLen c = max (min (c.so.soSnd.sbCc : Int) 1 - (N - U)) 0 := by
  have hu : useWin c.tp = 1 := by
    unfold useWin
    rw [if_pos ⟨hf, hw⟩]
  have hlow := h.maxseg.1
  have hle := h.una_le
  unfold planLen rawLen
  rw [hu, h.off]
  omega

theorem planTp_closed (hf : c.tp.tForce = true) (hw : sndWin c.tp = 0) : planTp c = c.tp := by
  have hu : useWin c.tp = 1 := by
    unfold useWin
    rw [if_pos ⟨hf, hw⟩]
  have hft : forceTp c.tp = c.tp := by
    unfold forceTp
    rw [if_neg (by simp [hw])]
  unfold planTp
  rw [if_neg (by omega), hft]

/-- What a FIN probe is, in terms of the state in front of the pass. -/
theorem SndInv.finProbePass_iff (h : SndInv c U N M) :
    finProbePass c = true ↔ c.tp.tForce = true ∧ c.tp.timerPersist ≠ 0 ∧ sndWin c.tp = 0 ∧
      (tcpOutflags c.tp.tState).fin = true ∧ c.tp.sentfin = false ∧
      ((c.so.soSnd.sbCc : Int) ≤ 1 ∨ (c.so.soSnd.sbCc : Int) ≤ sndOff c.tp) := by
  have hspan := h.span
  have hoff := h.off
  have h1 := h.una_le
  have h2 := h.nxt_le
  have hcc := h.cc_le
  unfold sbreserveMax at hcc
  have hfin : c.tp.tForce = true → sndWin c.tp = 0 → (sendFin c = true ↔
      (tcpOutflags c.tp.tState).fin = true ∧
        ((c.so.soSnd.sbCc : Int) ≤ 1 ∨ (c.so.soSnd.sbCc : Int) ≤ sndOff c.tp)) := by
    intro hf hw
    have hl := planLen_closed h hf hw
    rw [h.sendFin_eq, planFin, planTp_closed hf hw,
      seqLt_at (h.nxt.add _) (h.una.addNat _) (by omega) (by omega)]
    simp only [Bool.and_eq_true, Bool.not_eq_true', decide_eq_false_iff_not]
    refine and_congr_right fun _ => ?_
    omega
  constructor
  · intro hp
    simp only [finProbePass, Bool.and_eq_true, Bool.not_eq_true'] at hp
    obtain ⟨⟨hp, hs⟩, hns⟩ := hp
    have hw : sndWin c.tp = 0 := by
      by_contra hw
      rw [probing_eq_false hw] at hp
      cases hp
    simp only [probing, Bool.and_eq_true, decide_eq_true_eq] at hp
    obtain ⟨g1, g2⟩ := (hfin hp.1 hw).mp hs
    exact ⟨hp.1, planTp_persist c hp.2, hw, g1, hns, g2⟩
  · rintro ⟨hf, hper, hw, hst, hns, hlen⟩
    simp only [finProbePass, probing, planTp_closed hf hw, (hfin hf hw).mpr ⟨hst, hlen⟩, hf, hns]
    simpa using hper

theorem finProbePass_wanted (hf : finProbePass c = true) (idle : Bool) :
    tcpOutputWanted idle c = true := by
  simp only [finProbePass, Bool.and_eq_true, Bool.not_eq_true', sendFin] at hf
  simp [tcpOutputWanted, hf.1.2.1, hf.2]

theorem SndInv.finProbePass_data (h : SndInv c U N M) (hf : finProbePass c = true) (e : SendEnv) :
    sendData e c ≠ none ↔
      e.mbGet = true ∧ (e.mCopy = true ∨ (c.so.soSnd.sbCc : Int) ≤ sndOff c.tp) := by
  obtain ⟨hforce, -, hw, -, -, hlen⟩ := h.finProbePass_iff.mp hf
  have hl := planLen_closed h hforce hw
  have hoff := h.off
  have hle := h.una_le
  have hzero : planLen c = 0 ↔ (c.so.soSnd.sbCc : Int) ≤ sndOff c.tp := by omega
  rw [ne_eq, h.sendData_none, ← hzero]
  cases e.mbGet <;> cases e.mCopy <;> simp

end

/-! ## A call -/

theorem finProbe_iff {c : Conn} {U N M : Int} (h : SndInv c U N M) (e : SendEnv) :
    FinProbe e c ↔ finProbePass { c with tp := idleTp c.tp } = true ∧
      sendData e { c with tp := idleTp c.tp } ≠ none := by
  have hi : idleTp c.tp = { c.tp with sndCwnd := (idleTp c.tp).sndCwnd } := by
    unfold idleTp
    split <;> rfl
  have hinv := h.idle
  have hoff : sndOff (idleTp c.tp) = sndOff c.tp := by rw [hi]; rfl
  constructor
  · rintro ⟨h1, h2, h3, h4, h5, h6, h7, h8⟩
    have hp : finProbePass { c with tp := idleTp c.tp } = true := by
      refine hinv.finProbePass_iff.mpr ⟨?_, ?_, h3, ?_, ?_, ?_⟩
      · rw [hi]
        exact h1
      · rw [hi]
        exact h2
      · rw [hi]
        exact h4
      · rw [hi]
        exact h5
      · rw [hoff]
        exact h6
    refine ⟨hp, (hinv.finProbePass_data hp e).mpr ⟨h7, ?_⟩⟩
    rw [hoff]
    exact h8
  · rintro ⟨hp, hd⟩
    obtain ⟨h7, h8⟩ := (hinv.finProbePass_data hp e).mp hd
    obtain ⟨h1, h2, h3, h4, h5, h6⟩ := hinv.finProbePass_iff.mp hp
    rw [hoff] at h6 h8
    rw [hi] at h1 h2 h4 h5
    exact ⟨h1, h2, h3, h4, h5, h6, h7, h8⟩

/-- A pass that is no FIN probe. -/
theorem SndInv.passSent {c : Conn} {U N M : Int} (h : SndInv c U N M)
    (hf : finProbePass c = false) (e : SendEnv) (idle : Bool) {out : List Emit}
    (hout : ∀ em ∈ out, SentAt c.tp.iss U M em) :
    ∃ N' M', SndInv { c with tp := (tcpOutputPass e idle c).tp } U N' M' ∧
      ∀ em ∈ out ++ (tcpOutputPass e idle c).emit.toList,
        SentAt (tcpOutputPass e idle c).tp.iss U M' em := by
  obtain ⟨N', M', hinv, hle, hem⟩ := h.pass e idle
  have hiss : (tcpOutputPass e idle c).tp.iss = c.tp.iss :=
    field_of_kept Tcpcb.iss (tcpOutputPass_kept e idle c) fun _ => rfl
  refine ⟨N', M', hinv, fun em hm => ?_⟩
  rw [hiss]
  rcases List.mem_append.mp hm with hm | hm
  · exact (hout em hm).mono hle
  · exact (hem em (by simpa using hm)).sentAt h hf

/-- A call whose first pass is a FIN probe. -/
theorem SndInv.finProbe_call {c : Conn} {U N M : Int} (h : SndInv c U N M) (env : Nat → SendEnv)
    (hf : finProbePass { c with tp := idleTp c.tp } = true) :
    (∀ em ∈ (tcpOutput env c).out, Acknowledgeable (tcpOutput env c).conn.tp em) ↔
      sendData (env 0) { c with tp := idleTp c.tp } = none := by
  obtain ⟨p, hp⟩ : ∃ p, p = tcpOutputPass (env 0) (decide (c.tp.sndMax = c.tp.sndUna))
    { c with tp := idleTp c.tp } := ⟨_, rfl⟩
  have hinv := h.idle
  obtain ⟨N1, M1, hinv1, -, hem1⟩ := hinv.pass (env 0) (decide (c.tp.sndMax = c.tp.sndUna))
  have hkept := tcpOutputPass_kept (env 0) (decide (c.tp.sndMax = c.tp.sndUna))
    { c with tp := idleTp c.tp }
  rw [← hp] at hinv1 hem1 hkept
  have hiss : p.tp.iss = (idleTp c.tp).iss := field_of_kept Tcpcb.iss hkept fun _ => rfl
  -- the window is closed, so the pass is not repeated
  have hret : p.ret ≠ none := by
    intro hr
    rw [hp] at hr
    exact absurd (hinv.finProbePass_iff.mp hf).2.2.1 (hinv.again hr).win
  have hmax : At (idleTp c.tp).iss p.tp.sndMax M1 := by
    rw [← hiss]
    exact hinv1.max
  have hres : (∀ em ∈ p.emit.toList, Acknowledgeable p.tp em) ↔ p.emit = none := by
    constructor
    · intro hall
      cases hemit : p.emit with
      | none => rfl
      | some em =>
        refine absurd (hall em (by simp [hemit])) ?_
        exact (hem1 em hemit).not_acknowledgeable hinv hf hmax
    · intro hnone em hem
      simp [hnone] at hem
  have hB := tcpOutput_first_rule (A := fun _ _ => False)
    (B := fun out c' => (∀ em ∈ out, Acknowledgeable c'.tp em) ↔ p.emit = none) env c hp
    (fun _ => hres) (fun hr => absurd hr hret) (fun _ _ _ _ hA => hA.elim)
    (fun _ _ _ _ hA => hA.elim) (fun _ _ hA => hA.elim)
  rw [hB]
  have hw := finProbePass_wanted hf (decide (c.tp.sndMax = c.tp.sndUna))
  have hcase := tcpOutputPass_cases (env 0) (decide (c.tp.sndMax = c.tp.sndUna))
    { c with tp := idleTp c.tp }
  rw [← hp] at hcase
  cases hcase with
  | quiet hq =>
    rw [hw] at hq
    cases hq
  | nobufs _ hd => simp [hd]
  | failed data _ hd _ => simp [hd]
  | sent data _ hd _ => simp [hd]

/-- **A call of `tcp_output` sends acknowledgeable packets unless it is a FIN probe.** -/
theorem tcpOutput_acknowledgeable {c : Conn} {U N M : Int} (h : SndInv c U N M)
    (env : Nat → SendEnv) :
    (∀ em ∈ (tcpOutput env c).out, Acknowledgeable (tcpOutput env c).conn.tp em) ↔
      ¬ FinProbe (env 0) c := by
  rw [finProbe_iff h]
  by_cases hf : finProbePass { c with tp := idleTp c.tp } = true
  · rw [h.finProbe_call env hf]
    simp [hf]
  · have hf' : finProbePass { c with tp := idleTp c.tp } = false := by simpa using hf
    -- no later pass is a FIN probe either: it has an open window
    have hopen : ∀ {c' : Conn}, sndWin c'.tp ≠ 0 → finProbePass c' = false := by
      intro c' hw
      simp [finProbePass, probing_eq_false hw]
    have hnil : ∀ em ∈ ([] : List Emit), SentAt (idleTp c.tp).iss U M em := fun _ hm => by simp at hm
    have hB := tcpOutput_first_rule
      (A := fun out c' => sndWin c'.tp ≠ 0 ∧ ∃ N' M', SndInv c' U N' M' ∧
        ∀ em ∈ out, SentAt c'.tp.iss U M' em)
      (B := fun out c' => ∃ N' M', SndInv c' U N' M' ∧ ∀ em ∈ out, SentAt c'.tp.iss U M' em)
      env c rfl (fun _ => ?_) (fun hr => ?_) ?_ ?_ (fun _ _ hA => hA.2)
    · obtain ⟨N', M', hinv', hem⟩ := hB
      exact ⟨fun _ hp => hf hp.1, fun _ em hm => (hem em hm).acknowledgeable hinv'⟩
    · exact h.idle.passSent hf' _ _ hnil
    · have hag := h.idle.again hr
      refine ⟨?_, h.idle.passSent hf' _ _ hnil⟩
      rw [hag.win_tp]
      exact hag.win
    · rintro e idle out c' ⟨hw, N', M', hinv', hem⟩ hr
      have hag := hinv'.again hr
      refine ⟨?_, hinv'.passSent (hopen hw) e idle hem⟩
      rw [hag.win_tp]
      exact hw
    · rintro e idle out c' ⟨hw, N', M', hinv', hem⟩
      exact hinv'.passSent (hopen hw) e idle hem

/-- **Everything sent is acknowledgeable**: in every run, a call of `tcp_output` sends only packets
    that can be acknowledged, if and only if it is no FIN probe. -/
theorem sent_acknowledgeable {c : Conn} (hc : Start c) (es : List Event) :
    ∀ k ∈ (Machine.run connMachine (some c) es).2,
      (∀ em ∈ k.res.out, Acknowledgeable k.res.conn.tp em) ↔ ¬ FinProbe (k.env 0) k.pre := by
  intro k hk
  obtain ⟨U, N, M, h⟩ := (sndInv_run hc es).2 k hk
  exact tcpOutput_acknowledgeable h k.env

/-- One byte and a close against a closed window, up to the expiry of the persist timer. -/
def finProbeEvents : List Event :=
  connectEvents 0 ++
    [.send [7] false fun _ => {}, .shutdown false true fun _ => {}] ++
    List.replicate 10 (.slowtimo fun _ _ => {})

/-- In this run the SYN is acknowledgeable and the last probe is a FIN probe. -/
theorem sent_acknowledgeable_fin_probe :
    (∃ k ∈ (Machine.run connMachine (some (activeOpen 1 newSocket)) finProbeEvents).2,
      FinProbe (k.env 0) k.pre) ∧
    (∃ k ∈ (Machine.run connMachine (some (activeOpen 1 newSocket)) finProbeEvents).2,
      k.res.out ≠ [] ∧ ¬ FinProbe (k.env 0) k.pre) ∧
    ∀ k ∈ (Machine.run connMachine (some (activeOpen 1 newSocket)) finProbeEvents).2,
      (∀ em ∈ k.res.out, Acknowledgeable k.res.conn.tp em) ↔ ¬ FinProbe (k.env 0) k.pre :=
  ⟨by decide +kernel, by decide +kernel,
    sent_acknowledgeable (.active 1 newSocket newSocket_fresh) finProbeEvents⟩

/-- The persist probe with the FIN ends behind `snd_max`. -/
theorem fin_probe_not_acknowledgeable :
    ¬ ∀ (c : Conn), Start c → ∀ es : List Event,
      ∀ k ∈ (Machine.run connMachine (some c) es).2,
        ∀ em ∈ k.res.out, Acknowledgeable k.res.conn.tp em := by
  intro h
  have hrun := h _ (.active 1 newSocket newSocket_fresh) finProbeEvents
  revert hrun
  decide +kernel

end TnNet
