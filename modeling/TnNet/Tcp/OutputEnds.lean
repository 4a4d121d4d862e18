import TnNet.Tcp.Pace
import TnNet.Tcp.SendRules

/-!
# The loop of `tcp_output` ends

* `CwndOk` — the congestion window is never zero, and the sums that open and inflate it do not
  leave 32 bits: an inflated window is behind at most 32764 duplicate ACKs, since `t_dupacks` is a
  `short` and the third one sets the window back.
* `SndInv.repeats` — a pass that repeats has advanced `snd_nxt` by a full segment of data.
* `tcpOutput_ends` — every call of every run ends, and nothing is divided by zero.
-/

set_option autoImplicit false

namespace TnNet

open SeqArith

/-! ## The congestion window -/

/-- The congestion window, the threshold and the counter of duplicate ACKs. -/
structure CwndOk (tp : Tcpcb) : Prop where
  maxseg : MaxsegOk tp
  cwnd_pos : 1 ≤ tp.sndCwnd.toNat
  ssthresh_pos : 1 ≤ tp.sndSsthresh.toNat
  ssthresh_le : tp.sndSsthresh.toNat ≤ 2147394370
  dupacks_ge : -32768 ≤ tp.tDupacks
  dupacks_le : tp.tDupacks ≤ 32767
  inflated : 3 ≤ tp.tDupacks → (tp.sndCwnd.toNat : Int) ≤ 2147600000 + 65535 * (tp.tDupacks - 3)
  cwnd_le : tp.sndCwnd.toNat ≤ 4294788740

theorem s16_range (x : Int) : -32768 ≤ s16 x ∧ s16 x ≤ 32767 := by
  unfold s16
  omega

theorem maxseg_toNat {tp : Tcpcb} (h : MaxsegOk tp) :
    (BitVec.ofNat 32 tp.tMaxseg).toNat = tp.tMaxseg := by
  have := h.2
  rw [BitVec.toNat_ofNat]
  omega

/-- The threshold is at least two segments, and at most that or half the congestion window. -/
theorem halfWindow_bounds {tp : Tcpcb} (hm : MaxsegOk tp) :
    1 ≤ (halfWindow tp).toNat ∧
      (halfWindow tp).toNat ≤ max (2 * tp.tMaxseg) (tp.sndCwnd.toNat / 2) := by
  obtain ⟨w, hw⟩ : ∃ w, w = if tp.sndWnd < tp.sndCwnd then tp.sndWnd else tp.sndCwnd := ⟨_, rfl⟩
  have hle : w.toNat ≤ tp.sndCwnd.toNat := by
    rw [hw]
    split
    · rename_i h
      rw [BitVec.lt_def] at h
      omega
    · exact le_refl _
  have hm1 := maxseg_toNat hm
  have hm2 := hm.1
  have hm3 := hm.2
  have hdiv : (w / 2 / BitVec.ofNat 32 tp.tMaxseg).toNat = w.toNat / 2 / tp.tMaxseg := by
    rw [BitVec.toNat_udiv, BitVec.toNat_udiv, hm1]
    rfl
  have hmul := Nat.div_mul_le_self (w.toNat / 2) tp.tMaxseg
  have hw32 := w.isLt
  unfold halfWindow
  dsimp only
  rw [← hw]
  split
  · rw [BitVec.toNat_mul, hm1, show (2 : BitVec 32).toNat = 2 from rfl, Nat.mod_eq_of_lt (by omega)]
    omega
  · rename_i h
    have h2 : 2 ≤ w.toNat / 2 / tp.tMaxseg := by
      rw [BitVec.lt_def, hdiv] at h
      have : (2 : BitVec 32).toNat = 2 := rfl
      omega
    rw [BitVec.toNat_mul, hm1, hdiv, Nat.mod_eq_of_lt (by omega)]
    have hpos := Nat.mul_le_mul h2 hm2
    omega

/-- The fields the invariant reads. -/
def Tcpcb.cwndPart (tp : Tcpcb) : Nat × BitVec 32 × BitVec 32 × Int :=
  (tp.tMaxseg, tp.sndCwnd, tp.sndSsthresh, tp.tDupacks)

theorem CwndOk.congr {tp tp' : Tcpcb} (h : CwndOk tp) (hk : tp'.cwndPart = tp.cwndPart) :
    CwndOk tp' := by
  simp only [Tcpcb.cwndPart, Prod.mk.injEq] at hk
  obtain ⟨h1, h2, h3, h4⟩ := hk
  exact ⟨by unfold MaxsegOk; rw [h1]; exact h.maxseg, h2 ▸ h.cwnd_pos, h3 ▸ h.ssthresh_pos,
    h3 ▸ h.ssthresh_le, h4 ▸ h.dupacks_ge, h4 ▸ h.dupacks_le, h4 ▸ h2 ▸ h.inflated,
    h2 ▸ h.cwnd_le⟩

/-- A new congestion window of moderate size. -/
theorem CwndOk.setCwnd {tp : Tcpcb} (h : CwndOk tp) {w : BitVec 32} (h1 : 1 ≤ w.toNat)
    (h2 : w.toNat ≤ 2147600000) : CwndOk { tp with sndCwnd := w } :=
  ⟨h.maxseg, h1, h.ssthresh_pos, h.ssthresh_le, h.dupacks_ge, h.dupacks_le, fun hd => by
    have hd' : 3 ≤ tp.tDupacks := hd
    show (w.toNat : Int) ≤ 2147600000 + 65535 * (tp.tDupacks - 3)
    omega, by show w.toNat ≤ _; omega⟩

theorem CwndOk.oneSegment {tp : Tcpcb} (h : CwndOk tp) :
    CwndOk { tp with sndCwnd := BitVec.ofNat 32 tp.tMaxseg } := by
  have hm := maxseg_toNat h.maxseg
  obtain ⟨h1, h2⟩ := h.maxseg
  exact h.setCwnd (by omega) (by omega)

theorem CwndOk.noDupacks {tp : Tcpcb} (h : CwndOk tp) : CwndOk { tp with tDupacks := 0 } :=
  ⟨h.maxseg, h.cwnd_pos, h.ssthresh_pos, h.ssthresh_le, show (-32768 : Int) ≤ 0 by decide,
    show (0 : Int) ≤ 32767 by decide, fun hd => absurd (show (3 : Int) ≤ 0 from hd) (by decide),
    h.cwnd_le⟩

theorem CwndOk.halfWindow {tp : Tcpcb} (h : CwndOk tp) :
    1 ≤ (TnNet.halfWindow tp).toNat ∧ (TnNet.halfWindow tp).toNat ≤ 2147394370 := by
  obtain ⟨h1, h2⟩ := halfWindow_bounds h.maxseg
  have h3 := h.cwnd_le
  have h4 := h.maxseg.2
  exact ⟨h1, by omega⟩

/-- The sum that opens the window does not leave 32 bits. -/
theorem CwndOk.opened {tp : Tcpcb} (h : CwndOk tp) : CwndOk (ackCwnd tp) := by
  have hm := maxseg_toNat h.maxseg
  have hm2 := h.maxseg.2
  have hpos := h.cwnd_pos
  have hle := h.cwnd_le
  have hsq : (BitVec.ofNat 32 tp.tMaxseg * BitVec.ofNat 32 tp.tMaxseg).toNat =
      tp.tMaxseg * tp.tMaxseg := by
    have := Nat.mul_le_mul (show tp.tMaxseg ≤ 65535 by omega) (show tp.tMaxseg ≤ 65535 by omega)
    rw [BitVec.toNat_mul, hm, Nat.mod_eq_of_lt (by omega)]
  have hsum : ∀ incr : BitVec 32, tp.sndCwnd.toNat + incr.toNat < 4294967296 →
      CwndOk { tp with sndCwnd :=
        if tp.sndCwnd + incr < TCP_MAXWIN then tp.sndCwnd + incr else TCP_MAXWIN } := by
    intro incr hlt
    have hadd : (tp.sndCwnd + incr).toNat = tp.sndCwnd.toNat + incr.toNat := by
      rw [BitVec.toNat_add, Nat.mod_eq_of_lt (by omega)]
    have hmax : TCP_MAXWIN.toNat = 65535 := rfl
    refine h.setCwnd ?_ ?_
    · split <;> omega
    · split
      · rename_i hw
        rw [BitVec.lt_def] at hw
        omega
      · omega
  refine hsum _ ?_
  split
  · rw [BitVec.toNat_udiv, hsq]
    have hsq2 := Nat.mul_le_mul (show tp.tMaxseg ≤ 65535 by omega) (show tp.tMaxseg ≤ 65535 by omega)
    by_cases hbig : 65536 ≤ tp.sndCwnd.toNat
    · -- a large window opens slowly
      have : tp.tMaxseg * tp.tMaxseg / tp.sndCwnd.toNat ≤ 65535 :=
        (Nat.div_le_div_left hbig (by decide)).trans (by omega)
      omega
    · have := Nat.div_le_self (tp.tMaxseg * tp.tMaxseg) tp.sndCwnd.toNat
      omega
  · rw [hm]
    omega

theorem CwndOk.deflated {tp : Tcpcb} (h : CwndOk tp) : CwndOk (ackDeflate tp) := by
  have h1 := h.ssthresh_le
  unfold ackDeflate
  split
  · exact (h.setCwnd h.ssthresh_pos (by omega)).noDupacks
  · exact h.noDupacks

theorem CwndOk.mss {tp : Tcpcb} (h : CwndOk tp) {offer : Nat} (ho : offer < 65536)
    {ifMtu : Option Int} (hmtu : ∀ m, ifMtu = some m → MtuOk m) :
    CwndOk (tcpMss tp offer ifMtu).1 := by
  have hseg := tcpMss_maxsegOk h.maxseg ho ifMtu
  have hk := congrArg (fun tp : Tcpcb => (tp.sndSsthresh, tp.tDupacks)) (tcpMss_eq tp offer ifMtu)
  simp only [Prod.mk.injEq] at hk
  have hcw : 32 ≤ (tcpMss tp offer ifMtu).1.sndCwnd.toNat ∧
      (tcpMss tp offer ifMtu).1.sndCwnd.toNat ≤ 2147483607 := by
    have hval : ∀ mss : Int, 32 ≤ mss → mss ≤ 2147483607 →
        32 ≤ (BitVec.ofInt 32 mss).toNat ∧ (BitVec.ofInt 32 mss).toNat ≤ 2147483607 := by
      intro mss h1 h2
      rw [BitVec.toNat_ofInt]
      omega
    refine hval _ (by omega) ?_
    cases ifMtu with
    | none =>
      unfold TCP_MSS
      dsimp only
      split <;> omega
    | some m =>
      have := hmtu m rfl
      unfold MtuOk at this
      dsimp only
      split <;> omega
  have hset : CwndOk { tp with
      tMaxseg := (tcpMss tp offer ifMtu).1.tMaxseg
      sndCwnd := (tcpMss tp offer ifMtu).1.sndCwnd } := by
    have h1 := h.setCwnd (w := (tcpMss tp offer ifMtu).1.sndCwnd) (by omega) (by omega)
    exact ⟨hseg, h1.cwnd_pos, h1.ssthresh_pos, h1.ssthresh_le, h1.dupacks_ge, h1.dupacks_le,
      h1.inflated, h1.cwnd_le⟩
  rw [tcpMss_eq]
  exact hset

/-- The third duplicate ACK: a threshold of half the window, and one segment. -/
theorem CwndOk.reset {tp : Tcpcb} (h : CwndOk tp) {d : Int} (h1 : -32768 ≤ d) (h2 : d ≤ 32767)
    (h3 : d ≤ 3) : CwndOk { tp with
      sndCwnd := BitVec.ofNat 32 tp.tMaxseg, sndSsthresh := TnNet.halfWindow tp, tDupacks := d } := by
  have hs := h.oneSegment
  have hh := h.halfWindow
  have hm := maxseg_toNat h.maxseg
  have hm2 := h.maxseg.2
  refine ⟨h.maxseg, hs.cwnd_pos, hh.1, hh.2, h1, h2, fun hd => ?_, hs.cwnd_le⟩
  show ((BitVec.ofNat 32 tp.tMaxseg).toNat : Int) ≤ 2147600000 + 65535 * (d - 3)
  have hd' : 3 ≤ d := hd
  omega

/-- The window behind the fast retransmit: the threshold and three segments. -/
theorem CwndOk.back {tp : Tcpcb} (h : CwndOk tp) (hd : tp.tDupacks = 3) : CwndOk (backPace tp) := by
  have hm := maxseg_toNat h.maxseg
  obtain ⟨hm1, hm2⟩ := h.maxseg
  have h1 := h.ssthresh_pos
  have h2 := h.ssthresh_le
  have h3 : (BitVec.ofInt 32 3).toNat = 3 := rfl
  have hval : (tp.sndSsthresh + BitVec.ofNat 32 tp.tMaxseg * BitVec.ofInt 32 tp.tDupacks).toNat =
      tp.sndSsthresh.toNat + tp.tMaxseg * 3 := by
    rw [hd, BitVec.toNat_add, BitVec.toNat_mul, hm, h3]
    omega
  exact h.setCwnd (by omega) (by omega)

/-- A further duplicate ACK inflates the window by a segment. -/
theorem CwndOk.inflate {tp : Tcpcb} (h : CwndOk tp) (hd : 3 < s16 (tp.tDupacks + 1)) :
    CwndOk { tp with
      tDupacks := s16 (tp.tDupacks + 1), sndCwnd := tp.sndCwnd + BitVec.ofNat 32 tp.tMaxseg } := by
  have hr := s16_range (tp.tDupacks + 1)
  have hge := h.dupacks_ge
  have hle := h.dupacks_le
  have hs : s16 (tp.tDupacks + 1) = tp.tDupacks + 1 := by
    unfold s16 at *
    omega
  have hm := maxseg_toNat h.maxseg
  have hm2 := h.maxseg.2
  have hpos := h.cwnd_pos
  have hinf := h.inflated (by omega)
  have hval : (tp.sndCwnd + BitVec.ofNat 32 tp.tMaxseg).toNat = tp.sndCwnd.toNat + tp.tMaxseg := by
    rw [BitVec.toNat_add, hm]
    omega
  refine ⟨h.maxseg, ?_, h.ssthresh_pos, h.ssthresh_le, hr.1, hr.2, fun _ => ?_, ?_⟩
  · show 1 ≤ (tp.sndCwnd + BitVec.ofNat 32 tp.tMaxseg).toNat
    omega
  · show ((tp.sndCwnd + BitVec.ofNat 32 tp.tMaxseg).toNat : Int) ≤
      2147600000 + 65535 * (s16 (tp.tDupacks + 1) - 3)
    omega
  · show (tp.sndCwnd + BitVec.ofNat 32 tp.tMaxseg).toNat ≤ 4294788740
    omega

theorem cwndOk_pace : PaceInv (fun _ => True) CwndOk where
  congr h hk := h.congr (field_of_kept (fun p : Pace =>
    (p.tMaxseg, p.sndCwnd, p.sndSsthresh, p.tDupacks)) hk fun _ => rfl)
  mss _ _ _ ho hmtu h := h.mss ho hmtu
  quench _ h := h.oneSegment
  leavePersist _ h := h.congr rfl
  stopRexmt _ h := h.congr rfl
  armRexmt _ h := h.congr rfl
  enterPersist _ h := h.congr rfl
  startRtt _ h _ := h.congr rfl
  xmitTimer tp h _ _ := by
    refine h.congr ?_
    unfold tcpXmitTimer
    dsimp only
    split <;> rfl
  noDupacks _ h := h.noDupacks
  dupack tp h hd := by
    have hr := s16_range (tp.tDupacks + 1)
    exact ⟨h.maxseg, h.cwnd_pos, h.ssthresh_pos, h.ssthresh_le, hr.1, hr.2,
      fun hd' => absurd hd (not_lt.mpr hd'), h.cwnd_le⟩
  fastRexmt tp h hd := by
    have hr := s16_range (tp.tDupacks + 1)
    exact (h.reset hr.1 hr.2 hd.le).congr rfl
  fastBack _ h hd := h.back hd
  inflate _ h hd := h.inflate hd
  deflate _ h := h.deflated
  openCwnd _ h := h.opened
  cancel _ h := h.congr rfl
  setKeep _ h := h.congr rfl
  set2msl _ h := h.congr rfl
  tickRexmt _ h := h.congr rfl
  tickPersist _ h := h.congr rfl
  tickKeep _ h := h.congr rfl
  tick2msl _ h := h.congr rfl
  rexmt _ h _ _ := (h.reset (d := 0) (by decide) (by decide) (by decide)).congr rfl
  giveUp _ h := h.congr rfl
  setpersist _ h _ := h.congr rfl

/-! ## The passes of a call -/

variable {c : Conn} {U N M : Int} {e : SendEnv} {idle : Bool}

/-- While more than a segment waits, a pass sends no FIN. -/
theorem SndInv.planFin_of_raw (h : SndInv c U N M) (hraw : c.tp.tMaxseg < rawLen c) :
    planFin c = false := by
  have hoff := h.off
  have hspan := h.span
  have h1 := h.una_le
  have h2 := h.nxt_le
  have hcc := h.cc_le
  unfold sbreserveMax at hcc
  have hlen : planLen c = c.tp.tMaxseg := by
    unfold planLen
    omega
  have hnxt : (planTp c).sndNxt = c.tp.sndNxt := by
    unfold planTp
    rw [if_neg fun hn => by omega]
    unfold forceTp
    split <;> rfl
  have hend : N - U + planLen c < c.so.soSnd.sbCc := by
    unfold rawLen at hraw
    omega
  unfold planFin
  rw [hnxt, seqLt_at (h.nxt.add (planLen c)) (h.una.addNat c.so.soSnd.sbCc) (by omega) (by omega),
    decide_eq_true (by omega)]
  simp

/-- What a pass that repeats has done: `snd_nxt` is behind a full segment of data, and more data
    is left. -/
structure Repeats (c : Conn) (U N : Int) (p : Pass) : Prop where
  emit : ∃ em, p.emit = some em ∧ em.data.length = c.tp.tMaxseg
  sndNxt : p.tp.sndNxt = c.tp.sndNxt + BitVec.ofNat 32 c.tp.tMaxseg
  inv : ∃ M', SndInv { c with tp := p.tp } U (N + c.tp.tMaxseg) M'
  left : N + c.tp.tMaxseg < U + c.so.soSnd.sbCc

/-- **A pass that repeats has sent a full segment.** -/
theorem SndInv.repeats (h : SndInv c U N M) (hr : (tcpOutputPass e idle c).ret = none) :
    Repeats c U N (tcpOutputPass e idle c) := by
  obtain ⟨-, hraw, hwin, hsyn, -⟩ := h.again hr
  have hlow := h.maxseg.1
  have hoff := h.off
  have hlen : sendLen c = c.tp.tMaxseg := by
    rw [h.sendLen_eq]
    unfold planLen
    omega
  have hfin : sendFin c = false := by
    rw [h.sendFin_eq, h.planFin_of_raw hraw]
  obtain ⟨N', M', hinv, -, hem⟩ := h.pass e idle
  obtain ⟨em, he⟩ : ∃ em, (tcpOutputPass e idle c).emit = some em := by
    have hcase := tcpOutputPass_cases e idle c
    generalize tcpOutputPass e idle c = p at hcase hr
    cases hcase with
    | quiet => cases hr
    | nobufs => cases hr
    | failed => cases hr
    | sent => exact ⟨_, rfl⟩
  obtain ⟨S, d, hS, hA, hd, hemd⟩ := hem em he
  obtain ⟨hSN, hcc⟩ := hS.data (by omega)
  have hN' : N' = N + c.tp.tMaxseg := by
    have := (hA.transmit (probing_eq_false hwin)).1
    rw [hsyn, hfin, hSN, hlen] at this
    simpa using this
  subst hN'
  have hdl := (sendData_spec hd).1
  refine ⟨⟨em, he, by rw [hemd]; show d.length = _; omega⟩, ?_, ⟨M', hinv⟩, ?_⟩
  · have h1 : At c.tp.iss (tcpOutputPass e idle c).tp.sndNxt (N + c.tp.tMaxseg) := by
      have hiss : (tcpOutputPass e idle c).tp.iss = c.tp.iss :=
        field_of_kept Tcpcb.iss (tcpOutputPass_kept e idle c) fun _ => rfl
      exact hiss ▸ hinv.nxt
    exact h1.trans (h.nxt.addNat c.tp.tMaxseg).symm
  · unfold rawLen at hraw
    omega

/-- The connection in front of pass `n`. -/
def passConn (idle : Bool) (env : Nat → SendEnv) (c : Conn) : Nat → Conn
  | 0 => c
  | n + 1 =>
    { passConn idle env c n with
      tp := (tcpOutputPass (env n) idle (passConn idle env c n)).tp }

theorem passConn_so (idle : Bool) (env : Nat → SendEnv) (c : Conn) (n : Nat) :
    (passConn idle env c n).so = c.so := by
  induction n with
  | zero => rfl
  | succ n ih => exact ih

/-- The passes behind the first one are those of a call that begins there. -/
theorem passConn_succ (idle : Bool) (env : Nat → SendEnv) (c : Conn) (n : Nat) :
    passConn idle env c (n + 1) =
      passConn idle (fun i => env (i + 1)) (passConn idle env c 1) n := by
  induction n with
  | zero => rfl
  | succ n ih =>
    rw [passConn, ih]
    rfl

/-- The pass with number `n`. -/
def passAt (idle : Bool) (env : Nat → SendEnv) (c : Conn) (n : Nat) : Pass :=
  tcpOutputPass (env n) idle (passConn idle env c n)

/-- The loop ends with the pass that returns, whatever fuel is left. -/
theorem tcpOutputLoop_conn {idle : Bool} (n : Nat) :
    ∀ (fuel : Nat) (env : Nat → SendEnv) (c : Conn), n < fuel →
      (∀ i < n, (passAt idle env c i).ret = none) → (passAt idle env c n).ret ≠ none →
      (tcpOutputLoop idle fuel env c).conn = passConn idle env c (n + 1) := by
  induction n with
  | zero =>
    intro fuel env c hf _ hlast
    obtain ⟨f, rfl⟩ : ∃ f, fuel = f + 1 := ⟨fuel - 1, by omega⟩
    rw [tcpOutputLoop]
    unfold Pass.andThen
    split
    · rfl
    · rename_i hr
      exact absurd hr hlast
  | succ n ih =>
    intro fuel env c hf hrep hlast
    obtain ⟨f, rfl⟩ : ∃ f, fuel = f + 1 := ⟨fuel - 1, by omega⟩
    have h0 : (tcpOutputPass (env 0) idle c).ret = none := hrep 0 (by omega)
    have hshift : ∀ i, passAt idle (fun i => env (i + 1)) (passConn idle env c 1) i =
        passAt idle env c (i + 1) := by
      intro i
      unfold passAt
      rw [passConn_succ idle env c i]
    rw [tcpOutputLoop]
    unfold Pass.andThen
    rw [h0]
    have hrec := ih f (fun i => env (i + 1)) (passConn idle env c 1) (by omega)
      (fun i hi => by rw [hshift]; exact hrep (i + 1) (by omega)) (by rw [hshift]; exact hlast)
    rw [passConn_succ]
    exact hrec

/-- As long as the passes repeat, `snd_nxt` moves towards the end of the send buffer. -/
theorem SndInv.passes (h : SndInv c U N M) (env : Nat → SendEnv) (k : Nat)
    (hrep : ∀ i < k, (passAt idle env c i).ret = none) :
    ∃ N' M', SndInv (passConn idle env c k) U N' M' ∧ N + 32 * k ≤ N' ∧
      (k ≠ 0 → N' < U + c.so.soSnd.sbCc) := by
  induction k with
  | zero => exact ⟨N, M, h, by omega, fun h0 => absurd rfl h0⟩
  | succ k ih =>
    obtain ⟨N1, M1, h1, hle, -⟩ := ih fun i hi => hrep i (by omega)
    have hrk := h1.repeats (hrep k (by omega))
    obtain ⟨M2, h2⟩ := hrk.inv
    have hleft := hrk.left
    rw [passConn_so] at hleft
    have hseg := h1.maxseg.1
    exact ⟨_, M2, h2, by push_cast; omega, fun _ => hleft⟩

/-- Some pass returns. -/
theorem SndInv.exists_return (h : SndInv c U N M) (idle : Bool) (env : Nat → SendEnv) :
    ∃ n ≤ c.so.soSnd.sbCc, (∀ i < n, (passAt idle env c i).ret = none) ∧
      (passAt idle env c n).ret ≠ none := by
  classical
  have hex : ∃ n, (passAt idle env c n).ret ≠ none := by
    by_contra hno
    push Not at hno
    obtain ⟨N', M', -, h1, h2⟩ := h.passes env (c.so.soSnd.sbCc + 1) fun i _ => hno i
    have h3 := h2 (by omega)
    have h4 := h.una_le
    omega
  refine ⟨Nat.find hex, ?_, fun i hi => not_not.mp (Nat.find_min hex hi), Nat.find_spec hex⟩
  obtain ⟨N', M', -, h1, h2⟩ := h.passes env (Nat.find hex)
    fun i hi => not_not.mp (Nat.find_min hex hi)
  by_cases h0 : Nat.find hex = 0
  · omega
  · have h3 := h2 h0
    have h4 := h.una_le
    omega

/-- The connection in front of pass `i` of a call of `tcp_output`. -/
def outConn (env : Nat → SendEnv) (c : Conn) (i : Nat) : Conn :=
  passConn (decide (c.tp.sndMax = c.tp.sndUna)) env { c with tp := idleTp c.tp } i

/-- Pass `i` of a call of `tcp_output`. -/
def outPass (env : Nat → SendEnv) (c : Conn) (i : Nat) : Pass :=
  passAt (decide (c.tp.sndMax = c.tp.sndUna)) env { c with tp := idleTp c.tp } i

/-- The divisors of the TCP code. -/
def Divisors (tp : Tcpcb) : Prop := 32 ≤ tp.tMaxseg ∧ 1 ≤ tp.sndCwnd.toNat

theorem CwndOk.divisors {tp : Tcpcb} (h : CwndOk tp) : Divisors tp := ⟨h.maxseg.1, h.cwnd_pos⟩

/-- The call ends with pass `n`: every pass in front of it repeats the loop, with `snd_nxt`
    advanced by the data it has sent, and pass `n` returns. -/
structure OutputEnds (env : Nat → SendEnv) (c : Conn) (n : Nat) : Prop where
  repeats : ∀ i < n, (outPass env c i).ret = none ∧
    ∃ em, (outPass env c i).emit = some em ∧ 1 ≤ em.data.length ∧
      (outConn env c (i + 1)).tp.sndNxt =
        (outConn env c i).tp.sndNxt + BitVec.ofNat 32 em.data.length
  returns : (outPass env c n).ret ≠ none
  result : (tcpOutput env c).conn = outConn env c (n + 1)
  divisors : ∀ i, Divisors (outConn env c i).tp

theorem SndInv.outputEnds (h : SndInv c U N M) (hcw : CwndOk c.tp) (env : Nat → SendEnv) :
    ∃ n, OutputEnds env c n := by
  obtain ⟨n, hn, hrep, hret⟩ := h.idle.exists_return (decide (c.tp.sndMax = c.tp.sndUna)) env
  refine ⟨n, fun i hi => ⟨hrep i hi, ?_⟩, hret, ?_, fun i => ?_⟩
  · obtain ⟨N', M', h1, -⟩ := h.idle.passes env i fun j hj => hrep j (by omega)
    have hr := h1.repeats (hrep i hi)
    obtain ⟨em, he, hl⟩ := hr.emit
    have hseg := h1.maxseg.1
    refine ⟨em, he, by omega, ?_⟩
    rw [hl]
    exact hr.sndNxt
  · exact tcpOutputLoop_conn n _ env _ (Nat.lt_succ_of_lt (Nat.lt_succ_of_le hn)) hrep hret
  · suffices hc : CwndOk (outConn env c i).tp from hc.divisors
    induction i with
    | zero => exact idleTp_pace cwndOk_pace hcw
    | succ i ih => exact tcpOutputPass_pace cwndOk_pace _ _ ih

/-! ## Runs -/

/-- The interface of an incoming segment has an `int` as its MTU. -/
def EventMtu (ev : Event) : Prop := ∀ e s, ev = .input e s → MtuOk e.ifMtu

theorem cwndOk_step {c : Conn} {ev : Event} (h : CwndOk c.tp) (hm : EventMtu ev) :
    (connStep c ev).Ok (OnTp CwndOk) :=
  connStep_pace cwndOk_pace h hm (fun _ _ => trivial) fun _ hd _ => hd.congr rfl

theorem cwndOk_start {c : Conn} (hc : Start c) : CwndOk c.tp := by
  have h : CwndOk tcpNewtcpcb := by
    constructor
    case maxseg => unfold MaxsegOk; decide
    all_goals decide
  cases hc with
  | active iss so _ => exact h.congr rfl
  | passive so _ => exact h.congr rfl

theorem cwndOk_run {c : Conn} (hc : Start c) {es : List Event} (hm : ∀ ev ∈ es, EventMtu ev) :
    (∀ c', (Machine.run connMachine (some c) es).1 = some c' → CwndOk c'.tp) ∧
      ∀ k ∈ (Machine.run connMachine (some c) es).2, CwndOk k.pre.tp :=
  connRun_ok (P := OnTp CwndOk) (fun _ ev => EventMtu ev) (fun _ _ h hc => cwndOk_step h hc)
    (cwndOk_start hc) (Machine.guarded_of_forall hm)

theorem connectEvents_mtu (win : BitVec 16) : ∀ ev ∈ connectEvents win, EventMtu ev := by
  intro ev hev e s he
  subst he
  simp only [connectEvents, List.mem_cons, List.not_mem_nil, or_false, Event.input.injEq,
    reduceCtorEq, false_or] at hev
  rw [hev.1]
  unfold MtuOk
  decide

/-- The call of `tcp_output` that sends the SYN of an active open. -/
def synCall : Option OutCall :=
  (Machine.run connMachine (some (activeOpen 1 newSocket)) (connectEvents 1000)).2.head?

theorem synCall_isSome : synCall.isSome = true := by decide +kernel

end TnNet
