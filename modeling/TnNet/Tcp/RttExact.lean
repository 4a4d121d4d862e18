import TnNet.Tcp.OutputEnds

/-!
# Round-trip arithmetic

All values of `tcp_xmit_timer`, `tcp_timers`, `tcp_setpersist` and `tcp_slowtimo` are `short`s.
`RttWrite.Exact` compares a write with the same computation on integers; `TCPT_RANGESET` stores
the value in front of the comparison, so it is exact only when that value is not truncated.

* `RttWrite.Fits` — what a write must find; `RttWrite.exact_iff` — then, and only then, it is exact.
* `RttOk` — the bounds of the fields, an invariant as long as the writes fit.
* `rtt_exact` — the writes of a run are exact if and only if all of them fit.
* `rtt_exact_of_small` — they fit as long as no measured round trip takes more than 102 ticks.
-/

set_option autoImplicit false

namespace TnNet

/-! ## The computations on integers -/

/-- `TCPT_RANGESET` on an integer. -/
def clamp (value tvmin tvmax : Int) : Int :=
  if value < tvmin then tvmin else if tvmax < value then tvmax else value

/-- The value is not truncated by a `short`. -/
def Short (v : Int) : Prop := s16 v = v

instance : DecidablePred Short := fun _ => inferInstanceAs (Decidable (_ = _))

/-- `t_srtt` behind a measurement. -/
def exactSrtt (tp : Tcpcb) (rtt : Int) : Int :=
  if tp.tSrtt ≠ 0 then
    let srtt := tp.tSrtt + (rtt - 1 - tp.tSrtt / 8)
    if srtt ≤ 0 then 1 else srtt
  else rtt * 8

/-- `t_rttvar` behind a measurement. -/
def exactRttvar (tp : Tcpcb) (rtt : Int) : Int :=
  if tp.tSrtt ≠ 0 then
    let delta := rtt - 1 - tp.tSrtt / 8
    let rttvar := tp.tRttvar + ((if delta < 0 then -delta else delta) - tp.tRttvar / 4)
    if rttvar ≤ 0 then 1 else rttvar
  else rtt * 2

/-- `TCP_REXMTVAL` behind a measurement. -/
def exactRexmtval (tp : Tcpcb) (rtt : Int) : Int := exactSrtt tp rtt / 8 + exactRttvar tp rtt

/-- `tcp_xmit_timer`. -/
def xmitTimerExact (tp : Tcpcb) (rtt : Int) : Tcpcb :=
  { tcpXmitTimer tp rtt with
    tSrtt := exactSrtt tp rtt
    tRttvar := exactRttvar tp rtt
    tRxtcur := clamp (exactRexmtval tp rtt) tp.tRttmin TCPTV_REXMTMAX }

/-- The product of a retransmit timeout. -/
def rexmtProduct (tp : Tcpcb) : Int := tcpRexmtval tp * tcpBackoff (tp.tRxtshift + 1)

/-- `tcp_timers(TCPT_REXMT)`. -/
def rexmtExact (tp : Tcpcb) : Tcpcb :=
  { rexmtTp tp with
    tRxtcur := clamp (rexmtProduct tp) tp.tRttmin TCPTV_REXMTMAX
    timerRexmt := clamp (rexmtProduct tp) tp.tRttmin TCPTV_REXMTMAX
    tRttvar := if TCP_MAXRXTSHIFT / 4 < tp.tRxtshift + 1 then tp.tRttvar + tp.tSrtt / 8
      else tp.tRttvar }

/-- The product of `tcp_setpersist`. -/
def persistProduct (tp : Tcpcb) : Int :=
  (tp.tSrtt / 4 + tp.tRttvar) / 2 * tcpBackoff tp.tRxtshift

/-- `tcp_setpersist`. -/
def setpersistExact (tp : Tcpcb) : Tcpcb :=
  { tcpSetpersist tp with timerPersist := clamp (persistProduct tp) TCPTV_PERSMIN TCPTV_PERSMAX }

/-- The write has the result of the computation on integers, and what `TCPT_RANGESET` stores
    first is not truncated. -/
def RttWrite.Exact : RttWrite → Prop
  | .xmit tp =>
    tcpXmitTimer tp tp.tRtt = xmitTimerExact tp tp.tRtt ∧ Short (exactRexmtval tp tp.tRtt)
  | .rexmt tp => rexmtTp tp = rexmtExact tp ∧ Short (rexmtProduct tp)
  | .persist tp => tcpSetpersist tp = setpersistExact tp ∧ Short (persistProduct tp)
  | .tick t => t ≠ 0 → Short (t - 1)
  | .count t => t ≠ 0 → Short (t + 1)

/-- What a write must find. -/
def RttWrite.Fits : RttWrite → Prop
  | .xmit tp =>
    if tp.tSrtt = 0 then tp.tRtt ≤ 4095
    else tp.tSrtt - tp.tSrtt / 8 + tp.tRtt ≤ 32768 ∧
      (tp.tSrtt - tp.tSrtt / 8 + tp.tRtt - 1) / 8 + (tp.tRttvar - tp.tRttvar / 4) +
        max (tp.tRtt - 1 - tp.tSrtt / 8) (tp.tSrtt / 8 + 1 - tp.tRtt) ≤ 32767
  | .rexmt tp => (tp.tSrtt / 8 + tp.tRttvar) * tcpBackoff (tp.tRxtshift + 1) ≤ 32767
  | .persist tp => (tp.tSrtt / 4 + tp.tRttvar) / 2 * tcpBackoff tp.tRxtshift ≤ 32767
  | .tick _ => True
  | .count t => t ≤ 32766

instance : DecidablePred RttWrite.Exact
  | .xmit _ => inferInstanceAs (Decidable (_ ∧ _))
  | .rexmt _ => inferInstanceAs (Decidable (_ ∧ _))
  | .persist _ => inferInstanceAs (Decidable (_ ∧ _))
  | .tick _ => inferInstanceAs (Decidable (_ → _))
  | .count _ => inferInstanceAs (Decidable (_ → _))

instance : DecidablePred RttWrite.Fits
  | .xmit tp => inferInstanceAs (Decidable (if tp.tSrtt = 0 then _ else _))
  | .rexmt _ => inferInstanceAs (Decidable (_ ≤ _))
  | .persist _ => inferInstanceAs (Decidable (_ ≤ _))
  | .tick _ => inferInstanceAs (Decidable True)
  | .count _ => inferInstanceAs (Decidable (_ ≤ _))

/-! ## Bounds -/

/-- A `short` that is not negative. -/
def NonnegShort (v : Int) : Prop := 0 ≤ v ∧ v ≤ 32767

/-- The bounds of the fields. -/
structure RttOk (tp : Tcpcb) : Prop where
  rtt : NonnegShort tp.tRtt
  srtt : NonnegShort tp.tSrtt
  rttvar : 1 ≤ tp.tRttvar ∧ tp.tRttvar ≤ 32767
  rttmin : tp.tRttmin = 2
  rxtcur : NonnegShort tp.tRxtcur
  rexmt : NonnegShort tp.timerRexmt
  persist : NonnegShort tp.timerPersist
  keep : NonnegShort tp.timerKeep
  msl2 : NonnegShort tp.timer2msl

/-- What a write finds in a control block with `P`. -/
def RttWrite.Pre (P : Tcpcb → Prop) : RttWrite → Prop
  | .xmit tp => P tp ∧ tp.tRtt ≠ 0
  | .rexmt tp => P tp ∧ tp.tRxtshift + 1 ≤ TCP_MAXRXTSHIFT
  | .persist tp => P tp
  | .tick t => NonnegShort t
  | .count t => NonnegShort t

theorem short_iff {v : Int} : Short v ↔ -32768 ≤ v ∧ v ≤ 32767 := by
  unfold Short s16
  omega

theorem rangeset_of_short {v tvmin tvmax : Int} (h : Short v) :
    rangeset v tvmin tvmax = clamp v tvmin tvmax := by
  unfold rangeset clamp
  rw [h]

theorem tcpBackoff_bounds (shift : Nat) : 0 ≤ tcpBackoff shift ∧ tcpBackoff shift ≤ 64 := by
  unfold tcpBackoff
  rw [List.getD_eq_getElem?_getD]
  cases h : ([1, 2, 4, 8, 16, 32, 64, 64, 64, 64, 64, 64, 64] : List Int)[shift]? with
  | none => exact (by decide : (0 : Int) ≤ 0 ∧ (0 : Int) ≤ 64)
  | some b =>
    have hb := List.mem_of_getElem? h
    simp only [List.mem_cons, List.not_mem_nil, or_false] at hb
    show 0 ≤ b ∧ b ≤ 64
    omega

theorem tcpBackoff_pos {shift : Nat} (h : shift ≤ TCP_MAXRXTSHIFT) : 1 ≤ tcpBackoff shift := by
  have hall : ∀ i : Fin 13, 1 ≤ tcpBackoff i := by decide
  exact hall ⟨shift, Nat.lt_succ_of_le h⟩

/-! ## A write is exact if and only if it fits -/

section

variable {tp : Tcpcb}

theorem tcpXmitTimer_srtt (tp : Tcpcb) (rtt : Int) : (tcpXmitTimer tp rtt).tSrtt =
    if tp.tSrtt ≠ 0 then
      let srtt := s16 (tp.tSrtt + s16 (rtt - 1 - tp.tSrtt / 8))
      if srtt ≤ 0 then 1 else srtt
    else s16 (rtt * 8) := by
  unfold tcpXmitTimer
  dsimp only
  split <;> rfl

theorem tcpXmitTimer_rttvar (tp : Tcpcb) (rtt : Int) : (tcpXmitTimer tp rtt).tRttvar =
    if tp.tSrtt ≠ 0 then
      let delta := s16 (rtt - 1 - tp.tSrtt / 8)
      let rttvar :=
        s16 (tp.tRttvar + s16 ((if delta < 0 then s16 (-delta) else delta) - tp.tRttvar / 4))
      if rttvar ≤ 0 then 1 else rttvar
    else s16 (rtt * 2) := by
  unfold tcpXmitTimer
  dsimp only
  split <;> rfl

theorem tcpXmitTimer_rxtcur (tp : Tcpcb) (rtt : Int) : (tcpXmitTimer tp rtt).tRxtcur =
    rangeset (tcpRexmtval (tcpXmitTimer tp rtt)) tp.tRttmin TCPTV_REXMTMAX := by
  unfold tcpXmitTimer
  dsimp only
  split <;> rfl

theorem xmit_exact : (RttWrite.xmit tp).Exact ↔
    (tcpXmitTimer tp tp.tRtt).tSrtt = exactSrtt tp tp.tRtt ∧
      (tcpXmitTimer tp tp.tRtt).tRttvar = exactRttvar tp tp.tRtt ∧
      Short (exactRexmtval tp tp.tRtt) := by
  constructor
  · rintro ⟨h, hshort⟩
    exact ⟨congrArg Tcpcb.tSrtt h, congrArg Tcpcb.tRttvar h, hshort⟩
  · rintro ⟨h1, h2, hshort⟩
    have h3 : (tcpXmitTimer tp tp.tRtt).tRxtcur =
        clamp (exactRexmtval tp tp.tRtt) tp.tRttmin TCPTV_REXMTMAX := by
      rw [tcpXmitTimer_rxtcur, ← rangeset_of_short hshort, tcpRexmtval, h1, h2]
      rfl
    refine ⟨?_, hshort⟩
    unfold xmitTimerExact
    rw [← h1, ← h2, ← h3]

/-- A mean or a deviation is kept positive. -/
theorem stored_iff {v : Int} (hv : 1 ≤ v) :
    (if s16 v ≤ 0 then 1 else s16 v) = (if v ≤ 0 then 1 else v) ↔ v ≤ 32767 := by
  unfold s16
  split <;> split <;> omega

theorem xmit_exact_iff (h : RttOk tp) (hr : tp.tRtt ≠ 0) :
    (RttWrite.xmit tp).Exact ↔ (RttWrite.xmit tp).Fits := by
  obtain ⟨h1, h2⟩ := h.rtt
  obtain ⟨h3, h4⟩ := h.srtt
  obtain ⟨h5, h6⟩ := h.rttvar
  rw [xmit_exact, tcpXmitTimer_srtt, tcpXmitTimer_rttvar, short_iff]
  unfold exactRexmtval exactSrtt exactRttvar
  dsimp only [RttWrite.Fits]
  by_cases h0 : tp.tSrtt = 0
  · rw [if_neg (not_not.mpr h0), if_neg (not_not.mpr h0), if_neg (not_not.mpr h0),
      if_neg (not_not.mpr h0), if_pos h0]
    unfold s16
    omega
  · rw [if_pos h0, if_pos h0, if_pos h0, if_pos h0, if_neg h0]
    -- the differences are `short`s
    have hd : s16 (tp.tRtt - 1 - tp.tSrtt / 8) = tp.tRtt - 1 - tp.tSrtt / 8 :=
      short_iff.mpr (by omega)
    rw [hd]
    have hneg : tp.tSrtt / 8 + 1 - tp.tRtt = -(tp.tRtt - 1 - tp.tSrtt / 8) := by omega
    have hsrtt : 1 ≤ tp.tSrtt + (tp.tRtt - 1 - tp.tSrtt / 8) := by omega
    have hmean : tp.tSrtt - tp.tSrtt / 8 + tp.tRtt =
        tp.tSrtt + (tp.tRtt - 1 - tp.tSrtt / 8) + 1 := by
      omega
    have hdb : -4096 ≤ tp.tRtt - 1 - tp.tSrtt / 8 ∧ tp.tRtt - 1 - tp.tSrtt / 8 ≤ 32767 := by omega
    rw [hneg, hmean]
    generalize tp.tRtt - 1 - tp.tSrtt / 8 = delta at hsrtt hdb ⊢
    obtain ⟨a, ha, ha'⟩ : ∃ a, a = max delta (-delta) ∧
        (if delta < 0 then s16 (-delta) else delta) = a := by
      refine ⟨_, rfl, ?_⟩
      split
      · rw [show s16 (-delta) = -delta from short_iff.mpr (by omega)]
        omega
      · omega
    have ha'' : (if delta < 0 then -delta else delta) = a := by
      split <;> omega
    rw [ha', ha'', ← ha, show s16 (a - tp.tRttvar / 4) = a - tp.tRttvar / 4 from
      short_iff.mpr (by omega), stored_iff hsrtt, stored_iff (by omega), if_neg (by omega),
      if_neg (by omega)]
    omega

theorem rexmt_exact_iff (h : RttOk tp) (hs : tp.tRxtshift + 1 ≤ TCP_MAXRXTSHIFT) :
    (RttWrite.rexmt tp).Exact ↔ (RttWrite.rexmt tp).Fits := by
  have hb := tcpBackoff_pos hs
  have hval : 1 ≤ tcpRexmtval tp := by
    have h1 := h.srtt.1
    have h2 := h.rttvar.1
    unfold tcpRexmtval
    omega
  have hge : tcpRexmtval tp * 1 ≤ rexmtProduct tp := Int.mul_le_mul_of_nonneg_left hb (by omega)
  show _ ∧ Short (rexmtProduct tp) ↔ rexmtProduct tp ≤ 32767
  constructor
  · exact fun h => (short_iff.mp h.2).2
  · intro hle
    have hshort : Short (rexmtProduct tp) := short_iff.mpr ⟨by omega, hle⟩
    have hvar : s16 (tp.tRttvar + tp.tSrtt / 8) = tp.tRttvar + tp.tSrtt / 8 := by
      unfold tcpRexmtval at hval hge
      exact short_iff.mpr (by omega)
    refine ⟨?_, hshort⟩
    unfold rexmtExact
    rw [← rangeset_of_short hshort, ← hvar]
    rfl

theorem persist_exact_iff (h : RttOk tp) :
    (RttWrite.persist tp).Exact ↔ (RttWrite.persist tp).Fits := by
  have hb := (tcpBackoff_bounds tp.tRxtshift).1
  have hval : 0 ≤ (tp.tSrtt / 4 + tp.tRttvar) / 2 := by
    have h1 := h.srtt.1
    have h2 := h.rttvar.1
    omega
  have hpos : 0 ≤ persistProduct tp := Int.mul_nonneg hval hb
  show _ ∧ Short (persistProduct tp) ↔ persistProduct tp ≤ 32767
  constructor
  · exact fun h => (short_iff.mp h.2).2
  · intro hle
    have hshort : Short (persistProduct tp) := short_iff.mpr ⟨by omega, hle⟩
    refine ⟨?_, hshort⟩
    unfold setpersistExact
    rw [← rangeset_of_short hshort]
    rfl

theorem RttWrite.exact_iff {w : RttWrite} (h : w.Pre RttOk) : w.Exact ↔ w.Fits := by
  cases w with
  | xmit tp => exact xmit_exact_iff h.1 h.2
  | rexmt tp => exact rexmt_exact_iff h.1 h.2
  | persist tp => exact persist_exact_iff h
  | tick t =>
    obtain ⟨h1, h2⟩ := h
    exact ⟨fun _ => trivial, fun _ _ => short_iff.mpr (by omega)⟩
  | count t =>
    obtain ⟨h1, h2⟩ := h
    dsimp only [Exact, Fits]
    rw [short_iff]
    omega

end

/-! ## The bounds are kept while the writes fit -/

theorem RttOk.congr {tp tp' : Tcpcb} (h : RttOk tp) (hk : tp'.pace = tp.pace) : RttOk tp' := by
  simp only [Tcpcb.pace, Pace.mk.injEq] at hk
  obtain ⟨-, -, -, -, -, hcur, hmin, hrtt, hsrtt, hvar, h1, h2, h3, h4⟩ := hk
  exact ⟨hrtt ▸ h.rtt, hsrtt ▸ h.srtt, hvar ▸ h.rttvar, hmin ▸ h.rttmin, hcur ▸ h.rxtcur,
    h1 ▸ h.rexmt, h2 ▸ h.persist, h3 ▸ h.keep, h4 ▸ h.msl2⟩

theorem nonnegShort_nat (n : Nat) (h : n ≤ 32767) : NonnegShort n := ⟨by omega, by omega⟩

theorem nonnegShort_zero : NonnegShort 0 := nonnegShort_nat 0 (by decide)

theorem nonnegShort_tick {t : Int} (h : NonnegShort t) : NonnegShort (timerTick t) := by
  obtain ⟨h1, h2⟩ := h
  unfold timerTick NonnegShort s16
  split <;> omega

theorem nonnegShort_rangeset (v : Int) {tvmin tvmax : Int} (h0 : 0 ≤ tvmin) (h : tvmin ≤ tvmax)
    (hmax : tvmax ≤ 32767) : NonnegShort (rangeset v tvmin tvmax) := by
  have hb := rangeset_bounds v h
  exact ⟨by omega, by omega⟩

theorem RttOk.setpersist {tp : Tcpcb} (h : RttOk tp) : RttOk (tcpSetpersist tp) where
  rtt := h.rtt
  srtt := h.srtt
  rttvar := h.rttvar
  rttmin := h.rttmin
  rxtcur := h.rxtcur
  rexmt := h.rexmt
  persist := nonnegShort_rangeset _ (by decide) (by decide) (by decide)
  keep := h.keep
  msl2 := h.msl2

theorem RttOk.rexmtRange {tp : Tcpcb} (h : RttOk tp) (v : Int) :
    NonnegShort (rangeset v tp.tRttmin TCPTV_REXMTMAX) := by
  rw [h.rttmin]
  exact nonnegShort_rangeset _ (by decide) (by decide) (by decide)

theorem RttOk.xmitTimer {tp : Tcpcb} (h : RttOk tp) (hr : tp.tRtt ≠ 0)
    (hw : (RttWrite.xmit tp).Fits) : RttOk (tcpXmitTimer tp tp.tRtt) := by
  obtain ⟨hsrtt, hvar, -⟩ := xmit_exact.mp ((xmit_exact_iff h hr).mpr hw)
  have hkept : { tcpXmitTimer tp tp.tRtt with
      tSrtt := tp.tSrtt, tRttvar := tp.tRttvar, tRxtcur := tp.tRxtcur } =
      { tp with tRtt := 0, tRxtshift := 0, tSofterror := 0 } := by
    unfold tcpXmitTimer
    dsimp only
    split <;> rfl
  have hk : RttOk { tcpXmitTimer tp tp.tRtt with
      tSrtt := tp.tSrtt, tRttvar := tp.tRttvar, tRxtcur := tp.tRxtcur } := by
    rw [hkept]
    exact { h with rtt := nonnegShort_zero }
  obtain ⟨h1, h2⟩ := h.rtt
  obtain ⟨h3, h4⟩ := h.srtt
  obtain ⟨h5, h6⟩ := h.rttvar
  dsimp only [RttWrite.Fits] at hw
  refine { hk with srtt := ?_, rttvar := ?_, rxtcur := ?_ }
  · rw [hsrtt]
    unfold exactSrtt NonnegShort
    dsimp only
    split at hw <;> split <;> omega
  · rw [hvar]
    unfold exactRttvar
    dsimp only
    split at hw <;> split <;> omega
  · rw [tcpXmitTimer_rxtcur]
    exact h.rexmtRange _

theorem RttOk.rexmtTp {tp : Tcpcb} (h : RttOk tp) (hs : tp.tRxtshift + 1 ≤ TCP_MAXRXTSHIFT)
    (hw : (RttWrite.rexmt tp).Fits) : RttOk (rexmtTp tp) := by
  have hshift := (rexmt_exact_iff h hs).mpr hw
  have hvar : (TnNet.rexmtTp tp).tRttvar = (rexmtExact tp).tRttvar := by rw [hshift.1]
  have hb := tcpBackoff_pos hs
  have h1 := h.srtt.1
  have h2 := h.rttvar
  have hle : (tp.tSrtt / 8 + tp.tRttvar) * 1 ≤ 32767 :=
    (Int.mul_le_mul_of_nonneg_left hb (by omega)).trans hw
  refine ⟨nonnegShort_zero, ?_, ?_, h.rttmin, h.rexmtRange _, h.rexmtRange _, h.persist, h.keep,
    h.msl2⟩
  · show NonnegShort (if TCP_MAXRXTSHIFT / 4 < tp.tRxtshift + 1 then 0 else tp.tSrtt)
    split
    · exact nonnegShort_zero
    · exact h.srtt
  · rw [hvar]
    show 1 ≤ (if TCP_MAXRXTSHIFT / 4 < tp.tRxtshift + 1 then tp.tRttvar + tp.tSrtt / 8
      else tp.tRttvar) ∧ (if TCP_MAXRXTSHIFT / 4 < tp.tRxtshift + 1 then tp.tRttvar + tp.tSrtt / 8
      else tp.tRttvar) ≤ 32767
    split <;> omega

theorem rttOk_pace {S : RttWrite → Prop} (hS : ∀ w : RttWrite, w.Pre RttOk → S w → w.Fits) :
    PaceInv S RttOk where
  congr h hk := h.congr hk
  mss tp offer ifMtu _ _ h := by
    rw [tcpMss_eq]
    exact { h with }
  quench _ h := { h with }
  leavePersist _ h := { h with persist := nonnegShort_zero }
  stopRexmt _ h := { h with rexmt := nonnegShort_zero }
  armRexmt _ h := { h with rexmt := h.rxtcur }
  enterPersist tp h := RttOk.setpersist { h with }
  startRtt _ h _ := { h with rtt := nonnegShort_nat 1 (by decide) }
  xmitTimer tp h hr hw := h.xmitTimer hr (hS _ ⟨h, hr⟩ hw)
  noDupacks _ h := { h with }
  dupack tp h hd := { h with }
  fastRexmt tp h hd := { h with rexmt := nonnegShort_zero, rtt := nonnegShort_zero }
  fastBack _ h hd := { h with }
  inflate _ h hd := { h with }
  deflate _ h := { h with }
  openCwnd _ h := { h with }
  cancel _ h := { h with
    rexmt := nonnegShort_zero
    persist := nonnegShort_zero
    keep := nonnegShort_zero
    msl2 := nonnegShort_zero }
  setKeep _ h := { h with keep := nonnegShort_nat 2 (by decide) }
  set2msl _ h := { h with msl2 := nonnegShort_nat 4 (by decide) }
  tickRexmt _ h := { h with rexmt := nonnegShort_tick h.rexmt }
  tickPersist _ h := { h with persist := nonnegShort_tick h.persist }
  tickKeep _ h := { h with keep := nonnegShort_tick h.keep }
  tick2msl _ h := { h with msl2 := nonnegShort_tick h.msl2 }
  rexmt _ h hs hw := h.rexmtTp hs (hS _ ⟨h, hs⟩ hw)
  giveUp _ h := { h with }
  setpersist _ h _ := h.setpersist

/-- A closed `P` that bounds the fields. -/
structure RttInv (S : RttWrite → Prop) (P : Tcpcb → Prop) : Prop where
  pace : PaceInv S P
  ok : ∀ {tp}, P tp → RttOk tp
  noShift : ∀ tp, P tp → P { tp with tRxtshift := 0 }
  count : ∀ tp, P tp → S (.count tp.tRtt) →
    P { tp with tRtt := if tp.tRtt ≠ 0 then s16 (tp.tRtt + 1) else 0 }

theorem RttOk.count {tp : Tcpcb} (h : RttOk tp) (hw : tp.tRtt ≤ 32766) :
    RttOk { tp with tRtt := if tp.tRtt ≠ 0 then s16 (tp.tRtt + 1) else 0 } := by
  refine { h with rtt := ?_ }
  show NonnegShort (if tp.tRtt ≠ 0 then s16 (tp.tRtt + 1) else 0)
  have h0 := h.rtt.1
  split
  · rw [show s16 (tp.tRtt + 1) = tp.tRtt + 1 from short_iff.mpr (by omega)]
    exact ⟨by omega, by omega⟩
  · exact nonnegShort_zero

theorem rttOk_inv {S : RttWrite → Prop} (hS : ∀ w : RttWrite, w.Pre RttOk → S w → w.Fits) :
    RttInv S RttOk where
  pace := rttOk_pace hS
  ok := id
  noShift _ h := { h with }
  count tp h hw := h.count (hS (.count tp.tRtt) h.rtt hw)

theorem rttFits_inv : RttInv RttWrite.Fits RttOk := rttOk_inv fun _ _ h => h

/-! ## What the writes of an event find -/

section

variable {S : RttWrite → Prop} {P : Tcpcb → Prop} {c : Conn} {ev : Event}

theorem inputMeasure_pre (hP : PaceInv S P) {e : InEnv} {s : Seg} (hm : MtuOk e.ifMtu)
    (h : P c.tp) {tp : Tcpcb} (ht : inputMeasure e s c = some tp) : (RttWrite.xmit tp).Pre P := by
  unfold inputMeasure at ht
  split at ht
  · cases ht
  split at ht
  · cases ht
  · obtain ⟨-, -, ht⟩ := Option.bind_eq_some_iff.mp ht
    unfold synSentMeasure at ht
    dsimp only at ht
    split at ht
    · rename_i hc
      cases ht
      have hx := synSentTp_pace hP (inputSetup_pace (s := s) hP hm h) .established
      exact ⟨tcpPresent_pace hP (c := ⟨_, _⟩) hx, hc.2⟩
    · cases ht
  · obtain ⟨x, hx, ht⟩ := Option.bind_eq_some_iff.mp ht
    have hok := inputAck_pace (s := s) hP hm h
    unfold ackMeasure at ht
    dsimp only at ht
    split at ht
    · rename_i hc
      cases ht
      cases hack : inputAck e s c with
      | error r =>
        rw [hack] at hx
        cases hx
      | ok y =>
        simp only [hack, Except.toOption, Option.some.injEq] at hx
        subst hx
        rw [hack] at hok
        exact ⟨hP.deflate _ hok, hc.2.2.1⟩
    · cases ht

theorem quietWrites_pre (hP : RttInv S P) (idle : Bool) (h : P c.tp) :
    ∀ w ∈ quietWrites idle c, w.Pre P := by
  unfold quietWrites
  split
  · rw [List.forall_mem_singleton]
    exact hP.noShift _ (planTp_pace hP.pace h)
  · simp

theorem outputLoopWrites_pre (hP : RttInv S P) (idle : Bool) (fuel : Nat) :
    ∀ (env : Nat → SendEnv) (c : Conn), P c.tp →
      ∀ w ∈ outputLoopWrites idle fuel env c, w.Pre P := by
  induction fuel with
  | zero => simp [outputLoopWrites]
  | succ fuel ih =>
    intro env c h
    rw [outputLoopWrites, List.forall_mem_append]
    exact ⟨quietWrites_pre hP idle h,
      Pass.forall_writes (ih _ _ (tcpOutputPass_pace hP.pace (env 0) idle h))⟩

theorem outputWrites_pre (hP : RttInv S P) {k : OutCall} (h : P k.pre.tp) :
    ∀ w ∈ outputWrites k, w.Pre P :=
  outputLoopWrites_pre hP _ _ k.env { k.pre with tp := idleTp k.pre.tp } (idleTp_pace hP.pace h)

theorem timerWrites_pre (hP : RttInv S P) (env : Nat → Nat → SendEnv) (h : P c.tp)
    (hw : ∀ w ∈ timerWrites env c, S w) : ∀ w ∈ timerWrites env c, w.Pre P := by
  have ht := tickTimers_pace hP.pace env hw h
  unfold timerWrites
  simp only [List.forall_mem_append, Res.forall_writes, List.forall_mem_singleton,
    forall_rexmtWrites, forall_persistWrites]
  refine ⟨⟨(hP.ok h).rexmt, fun _ hs => ⟨hP.pace.tickRexmt _ h, hs⟩⟩, fun hg => ?_, fun hg => ?_,
    fun hg => ?_, fun hg => ?_⟩
  · have hd := ht.rexmt.conn hg
    exact ⟨(hP.ok hd).persist, fun _ => hP.pace.tickPersist _ hd⟩
  · exact (hP.ok (ht.persist.conn hg)).keep
  · exact (hP.ok (ht.keep.conn hg)).msl2
  · exact (hP.ok (ht.all.conn hg)).rtt

theorem ownWrites_pre (hP : RttInv S P) (h : P c.tp) (hm : EventMtu ev)
    (hw : ∀ w ∈ ownWrites c ev, S w) : ∀ w ∈ ownWrites c ev, w.Pre P := by
  cases ev with
  | input e s =>
    intro w hmem
    obtain ⟨tp, ht, rfl⟩ := List.mem_map.mp hmem
    exact inputMeasure_pre hP.pace (hm e s rfl) h (Option.mem_toList.mp ht)
  | slowtimo env =>
    dsimp only [ownWrites] at hw ⊢
    split
    · simp
    · rename_i hl
      rw [if_neg hl] at hw
      unfold slowWrites at hw ⊢
      split
      · simp
      · rename_i hopen
        rw [if_neg hopen] at hw
        exact timerWrites_pre hP env h hw
  | _ => simp [ownWrites]

/-- **Step.**  An event keeps `P`. -/
theorem RttInv.step (hP : RttInv S P) (h : P c.tp) (hm : EventMtu ev)
    (hw : ∀ w ∈ ownWrites c ev, S w) : (connStep c ev).Ok (OnTp P) :=
  connStep_pace hP.pace h hm hw fun _ hd hc => hP.pace.congr (hP.count _ hd hc) rfl

theorem rttWrites_pre (hP : RttInv S P) (h : P c.tp) (hm : EventMtu ev)
    (hw : ∀ w ∈ ownWrites c ev, S w) : ∀ w ∈ rttWrites c ev, w.Pre P := by
  unfold rttWrites
  rw [List.forall_mem_append]
  refine ⟨ownWrites_pre hP h hm hw, fun w hmem => ?_⟩
  obtain ⟨k, hk, hmem⟩ := List.mem_flatMap.mp hmem
  exact outputWrites_pre hP ((hP.step h hm hw).calls k hk) w hmem

/-- The writes of an event are exact if and only if they fit. -/
theorem rttWrites_exact_iff (h : RttOk c.tp) (hm : EventMtu ev) :
    (∀ w ∈ rttWrites c ev, w.Exact) ↔ ∀ w ∈ rttWrites c ev, w.Fits := by
  constructor
  · intro hw w hmem
    have hp := rttWrites_pre (rttOk_inv fun _ hp => (RttWrite.exact_iff hp).mp) h hm
      (fun w hown => hw w (List.mem_append_left _ hown)) w hmem
    exact (RttWrite.exact_iff hp).mp (hw w hmem)
  · intro hw w hmem
    have hp := rttWrites_pre rttFits_inv h hm
      (fun w hown => hw w (List.mem_append_left _ hown)) w hmem
    exact (RttWrite.exact_iff hp).mpr (hw w hmem)

end

/-! ## Runs -/

/-- The signs of the measured fields. -/
structure RttSigns (tp : Tcpcb) : Prop where
  rtt : 0 ≤ tp.tRtt
  srtt : 0 ≤ tp.tSrtt
  rttvar : 1 ≤ tp.tRttvar

theorem RttOk.signs {tp : Tcpcb} (h : RttOk tp) : RttSigns tp := ⟨h.rtt.1, h.srtt.1, h.rttvar.1⟩

/-- Round-trip arithmetic does not overflow in a run. -/
structure RttExactRun (c : Conn) (es : List Event) : Prop where
  exact : Machine.Guarded connMachine (fun c ev => ∀ w ∈ rttWrites c ev, w.Exact) (some c) es
  signs : ∀ es₁ es₂ c', es = es₁ ++ es₂ → (Machine.run connMachine (some c) es₁).1 = some c' →
    RttSigns c'.tp

theorem rttOk_start {c : Conn} (hc : Start c) : RttOk c.tp := by
  have h : RttOk tcpNewtcpcb :=
    { rtt := nonnegShort_zero
      srtt := nonnegShort_zero
      rttvar := by decide
      rttmin := rfl
      rxtcur := @nonnegShort_rangeset 12 2 TCPTV_REXMTMAX (by decide) (by decide) (by decide)
      rexmt := nonnegShort_zero
      persist := nonnegShort_zero
      keep := nonnegShort_zero
      msl2 := nonnegShort_zero }
  cases hc with
  | active iss so _ =>
    have hk := rttFits_inv.pace.setKeep _ h
    exact hk.congr rfl
  | passive so _ => exact h.congr rfl

theorem rttOk_next {c c' : Conn} {ev : Event} (h : RttOk c.tp) (hm : EventMtu ev)
    (hw : ∀ w ∈ rttWrites c ev, w.Fits) (hn : (connMachine c ev).1 = some c') : RttOk c'.tp :=
  (rttFits_inv.step h hm fun w hown => hw w (List.mem_append_left _ hown)).next hn

theorem rttOk_run {c : Conn} (hc : Start c) {es : List Event} (hm : ∀ ev ∈ es, EventMtu ev)
    (hg : Machine.Guarded connMachine (fun c ev => ∀ w ∈ rttWrites c ev, w.Fits) (some c) es)
    {c' : Conn} (hr : (Machine.run connMachine (some c) es).1 = some c') : RttOk c'.tp := by
  have hg' := (Machine.guarded_iff (fun _ => True) EventMtu
    (q := fun c ev => EventMtu ev ∧ ∀ w ∈ rttWrites c ev, w.Fits)
    (fun _ _ _ he => ⟨fun h => ⟨he, h⟩, And.right⟩) (fun _ _ _ _ _ _ _ => trivial)
    (fun _ _ => trivial) hm).mp hg
  refine (Machine.run_invariant (fun c : Conn => RttOk c.tp) (fun _ => True) ?_
    (fun _ he => by cases he; exact rttOk_start hc) hg').1 c' hr
  exact fun c ev h hw => ⟨fun _ hn => rttOk_next h hw.1 hw.2 hn, fun _ _ => trivial⟩

theorem guarded_exact_iff {c : Conn} (hc : Start c) {es : List Event}
    (hm : ∀ ev ∈ es, EventMtu ev) :
    Machine.Guarded connMachine (fun c ev => ∀ w ∈ rttWrites c ev, w.Exact) (some c) es ↔
      Machine.Guarded connMachine (fun c ev => ∀ w ∈ rttWrites c ev, w.Fits) (some c) es :=
  Machine.guarded_iff (fun c : Conn => RttOk c.tp) EventMtu
    (fun _ _ h hm => rttWrites_exact_iff h hm)
    (fun _ _ _ h hm hw hn => rttOk_next h hm ((rttWrites_exact_iff h hm).mp hw) hn)
    (fun _ he => by cases he; exact rttOk_start hc) hm

theorem RttExactRun.of_fits {c : Conn} (hc : Start c) {es : List Event}
    (hm : ∀ ev ∈ es, EventMtu ev)
    (hg : Machine.Guarded connMachine (fun c ev => ∀ w ∈ rttWrites c ev, w.Fits) (some c) es) :
    RttExactRun c es := by
  refine ⟨(guarded_exact_iff hc hm).mpr hg, fun es₁ es₂ c' he hr => ?_⟩
  subst he
  have hm₁ : ∀ ev ∈ es₁, EventMtu ev := fun ev hev => hm ev (List.mem_append_left _ hev)
  exact (rttOk_run hc hm₁ (Machine.guarded_append hg).1 hr).signs

/-- **Round-trip arithmetic is exact** in a run if and only if its writes fit. -/
theorem rtt_exact {c : Conn} (hc : Start c) {es : List Event} (hm : ∀ ev ∈ es, EventMtu ev) :
    RttExactRun c es ↔
      Machine.Guarded connMachine (fun c ev => ∀ w ∈ rttWrites c ev, w.Fits) (some c) es :=
  ⟨fun h => (guarded_exact_iff hc hm).mp h.exact, RttExactRun.of_fits hc hm⟩

/-! ## Short round trips -/

/-- No measurement is longer than 102 ticks, and the count does not reach its end. -/
def RttWrite.Small : RttWrite → Prop
  | .xmit tp => tp.tRtt ≤ 102
  | .count t => t ≤ 32766
  | _ => True

/-- The bounds when all measurements are small: `TCP_REXMTVAL` is at most 510. -/
structure RttSmall (tp : Tcpcb) : Prop where
  ok : RttOk tp
  srtt_le : tp.tSrtt ≤ 816
  rttvar_le : tp.tRttvar ≤ if tp.tSrtt = 0 then 510 else 408

section

variable {tp : Tcpcb}

theorem RttSmall.rexmtval_le (h : RttSmall tp) : tp.tSrtt / 8 + tp.tRttvar ≤ 510 := by
  have h1 := h.srtt_le
  have h2 := h.rttvar_le
  split at h2 <;> omega

theorem RttSmall.xmit_fits (h : RttSmall tp) (hw : tp.tRtt ≤ 102) :
    (RttWrite.xmit tp).Fits := by
  have h1 := h.srtt_le
  have h2 := h.rttvar_le
  obtain ⟨h3, -⟩ := h.ok.rtt
  obtain ⟨h4, -⟩ := h.ok.srtt
  obtain ⟨h5, -⟩ := h.ok.rttvar
  dsimp only [RttWrite.Fits]
  split
  · omega
  · rename_i h0
    rw [if_neg h0] at h2
    omega

theorem RttSmall.rexmt_fits (h : RttSmall tp) : (RttWrite.rexmt tp).Fits := by
  obtain ⟨hb0, hb⟩ := tcpBackoff_bounds (tp.tRxtshift + 1)
  have hle : (tp.tSrtt / 8 + tp.tRttvar) * tcpBackoff (tp.tRxtshift + 1) ≤ 510 * 64 :=
    Int.mul_le_mul h.rexmtval_le hb hb0 (by decide)
  exact hle.trans (by decide)

theorem RttSmall.persist_fits (h : RttSmall tp) : (RttWrite.persist tp).Fits := by
  obtain ⟨hb0, hb⟩ := tcpBackoff_bounds tp.tRxtshift
  have hval : (tp.tSrtt / 4 + tp.tRttvar) / 2 ≤ 510 := by
    have h1 := h.srtt_le
    have h2 := h.rttvar_le
    split at h2 <;> omega
  have hle : (tp.tSrtt / 4 + tp.tRttvar) / 2 * tcpBackoff tp.tRxtshift ≤ 510 * 64 :=
    Int.mul_le_mul hval hb hb0 (by decide)
  exact hle.trans (by decide)

theorem RttSmall.xmitTimer (h : RttSmall tp) (hr : tp.tRtt ≠ 0) (hw : tp.tRtt ≤ 102) :
    RttSmall (tcpXmitTimer tp tp.tRtt) := by
  have hfit := h.xmit_fits hw
  obtain ⟨hsrtt, hvar, -⟩ := xmit_exact.mp ((xmit_exact_iff h.ok hr).mpr hfit)
  have h1 := h.srtt_le
  have h2 := h.rttvar_le
  obtain ⟨h3, -⟩ := h.ok.rtt
  obtain ⟨h4, -⟩ := h.ok.srtt
  obtain ⟨h5, -⟩ := h.ok.rttvar
  refine ⟨h.ok.xmitTimer hr hfit, ?_, ?_⟩
  · rw [hsrtt]
    unfold exactSrtt
    dsimp only
    split <;> omega
  · rw [hsrtt, hvar]
    unfold exactSrtt exactRttvar
    dsimp only
    by_cases h0 : tp.tSrtt = 0
    · rw [if_neg (not_not.mpr h0), if_neg (not_not.mpr h0), if_neg (by omega)]
      omega
    · rw [if_pos h0, if_pos h0]
      rw [if_neg h0] at h2
      split <;> split <;> omega

theorem RttSmall.rexmtTp (h : RttSmall tp) (hs : tp.tRxtshift + 1 ≤ TCP_MAXRXTSHIFT) :
    RttSmall (rexmtTp tp) := by
  have hexact := (rexmt_exact_iff h.ok hs).mpr h.rexmt_fits
  have hvar : (TnNet.rexmtTp tp).tRttvar = (rexmtExact tp).tRttvar := by rw [hexact.1]
  have hval := h.rexmtval_le
  refine ⟨h.ok.rexmtTp hs h.rexmt_fits, ?_, ?_⟩
  · show (if TCP_MAXRXTSHIFT / 4 < tp.tRxtshift + 1 then 0 else tp.tSrtt) ≤ 816
    have h1 := h.srtt_le
    split <;> omega
  · rw [hvar]
    show (if TCP_MAXRXTSHIFT / 4 < tp.tRxtshift + 1 then tp.tRttvar + tp.tSrtt / 8
      else tp.tRttvar) ≤ if (if TCP_MAXRXTSHIFT / 4 < tp.tRxtshift + 1 then 0 else tp.tSrtt) = 0
      then 510 else 408
    by_cases hlost : TCP_MAXRXTSHIFT / 4 < tp.tRxtshift + 1
    · rw [if_pos hlost, if_pos hlost, if_pos rfl]
      omega
    · rw [if_neg hlost, if_neg hlost]
      exact h.rttvar_le

end

theorem RttSmall.keep {tp tp' : Tcpcb} (h : RttSmall tp) (hok : RttOk tp')
    (h1 : tp'.tSrtt = tp.tSrtt) (h2 : tp'.tRttvar = tp.tRttvar) : RttSmall tp' :=
  ⟨hok, h1 ▸ h.srtt_le, h1 ▸ h2 ▸ h.rttvar_le⟩

theorem rttSmall_pace : PaceInv RttWrite.Small RttSmall where
  congr h hk := h.keep (h.ok.congr hk) (congrArg Pace.tSrtt hk) (congrArg Pace.tRttvar hk)
  mss tp offer ifMtu ho hm h := by
    exact h.keep (rttFits_inv.pace.mss tp offer ifMtu ho hm h.ok) (by rw [tcpMss_eq])
      (by rw [tcpMss_eq])
  quench tp h := h.keep (rttFits_inv.pace.quench tp h.ok) rfl rfl
  leavePersist tp h := h.keep (rttFits_inv.pace.leavePersist tp h.ok) rfl rfl
  stopRexmt tp h := h.keep (rttFits_inv.pace.stopRexmt tp h.ok) rfl rfl
  armRexmt tp h := h.keep (rttFits_inv.pace.armRexmt tp h.ok) rfl rfl
  enterPersist tp h := h.keep (rttFits_inv.pace.enterPersist tp h.ok) rfl rfl
  startRtt tp h hr := h.keep (rttFits_inv.pace.startRtt tp h.ok hr) rfl rfl
  xmitTimer _ h hr hw := h.xmitTimer hr hw
  noDupacks tp h := h.keep (rttFits_inv.pace.noDupacks tp h.ok) rfl rfl
  dupack tp h hd := h.keep (rttFits_inv.pace.dupack tp h.ok hd) rfl rfl
  fastRexmt tp h hd := h.keep (rttFits_inv.pace.fastRexmt tp h.ok hd) rfl rfl
  fastBack tp h hd := h.keep (rttFits_inv.pace.fastBack tp h.ok hd) rfl rfl
  inflate tp h hd := h.keep (rttFits_inv.pace.inflate tp h.ok hd) rfl rfl
  deflate tp h := h.keep (rttFits_inv.pace.deflate tp h.ok) rfl rfl
  openCwnd tp h := h.keep (rttFits_inv.pace.openCwnd tp h.ok) rfl rfl
  cancel tp h := h.keep (rttFits_inv.pace.cancel tp h.ok) rfl rfl
  setKeep tp h := h.keep (rttFits_inv.pace.setKeep tp h.ok) rfl rfl
  set2msl tp h := h.keep (rttFits_inv.pace.set2msl tp h.ok) rfl rfl
  tickRexmt tp h := h.keep (rttFits_inv.pace.tickRexmt tp h.ok) rfl rfl
  tickPersist tp h := h.keep (rttFits_inv.pace.tickPersist tp h.ok) rfl rfl
  tickKeep tp h := h.keep (rttFits_inv.pace.tickKeep tp h.ok) rfl rfl
  tick2msl tp h := h.keep (rttFits_inv.pace.tick2msl tp h.ok) rfl rfl
  rexmt _ h hs _ := h.rexmtTp hs
  giveUp tp h := h.keep (rttFits_inv.pace.giveUp tp h.ok) rfl rfl
  setpersist tp h _ := h.keep h.ok.setpersist rfl rfl

theorem rttSmall_inv : RttInv RttWrite.Small RttSmall where
  pace := rttSmall_pace
  ok h := h.ok
  noShift tp h := h.keep (rttFits_inv.noShift tp h.ok) rfl rfl
  count tp h hw := h.keep (rttFits_inv.count tp h.ok hw) rfl rfl

theorem RttWrite.fits_of_small {w : RttWrite} (h : w.Pre RttSmall) (hw : w.Small) : w.Fits := by
  cases w with
  | xmit tp => exact h.1.xmit_fits hw
  | rexmt tp => exact h.1.rexmt_fits
  | persist tp => exact RttSmall.persist_fits h
  | tick t => trivial
  | count t => exact hw

theorem rttSmall_start {c : Conn} (hc : Start c) : RttSmall c.tp := by
  refine ⟨rttOk_start hc, ?_, ?_⟩
  · cases hc <;> exact (by decide : (0 : Int) ≤ 816)
  · cases hc <;> exact (by decide : (24 : Int) ≤ 510)

/-- **Short round trips are measured exactly**: in a run without a measurement above 102 ticks no
    write overflows. -/
theorem rtt_exact_of_small {c : Conn} (hc : Start c) {es : List Event}
    (hm : ∀ ev ∈ es, EventMtu ev)
    (hg : Machine.Guarded connMachine (fun c ev => ∀ w ∈ rttWrites c ev, w.Small) (some c) es) :
    RttExactRun c es := by
  have hpre : ∀ c ev, RttSmall c.tp → EventMtu ev → (∀ w ∈ rttWrites c ev, w.Small) →
      ∀ w ∈ rttWrites c ev, w.Fits := fun c ev h he hw w hmem =>
    RttWrite.fits_of_small (rttWrites_pre rttSmall_inv h he
      (fun w hown => hw w (List.mem_append_left _ hown)) w hmem) (hw w hmem)
  have hboth := (Machine.guarded_iff (fun c : Conn => RttSmall c.tp) EventMtu
    (q := fun c ev => (∀ w ∈ rttWrites c ev, w.Small) ∧ ∀ w ∈ rttWrites c ev, w.Fits)
    (fun c ev h he => ⟨fun hw => ⟨hw, hpre c ev h he hw⟩, And.left⟩)
    (fun _ _ _ h he hw hn =>
      (rttSmall_inv.step h he fun w hown => hw w (List.mem_append_left _ hown)).next hn)
    (fun _ he => by cases he; exact rttSmall_start hc) hm).mp hg
  exact .of_fits hc hm (hboth.mono fun _ _ => And.right)

/-- What an event writes behind a run that is exact with it. -/
theorem RttExactRun.next {c c' : Conn} {es : List Event} {ev : Event}
    (h : RttExactRun c (es ++ [ev])) (hr : (Machine.run connMachine (some c) es).1 = some c') :
    ∀ w ∈ rttWrites c' ev, w.Exact := by
  have hg := (Machine.guarded_append h.exact).2
  rw [hr] at hg
  exact hg.1

/-- An ACK without data. -/
def bareAck (seq ack : BitVec 32) (win : BitVec 16) : Event :=
  .input {} (Seg.bare { thSeq := seq, thAck := ack, thFlags := { ack := true }, thWin := win })

theorem bareAck_mtu (seq ack : BitVec 32) (win : BitVec 16) : EventMtu (bareAck seq ack win) := by
  intro e s he
  cases he
  unfold MtuOk
  decide

/-- A slow tick in which every call of `tcp_output` succeeds. -/
def plainTick : Event := .slowtimo fun _ _ => {}

/-- Three bytes are sent and lost, retransmitted after three ticks, and acknowledged. -/
def lossEvents : List Event :=
  connectEvents 1000 ++
    [.send [1, 2, 3] false fun _ => {}, plainTick, plainTick, plainTick, bareAck 101 5 1000]

theorem rtt_exact_loss : RttExactRun (activeOpen 1 newSocket) lossEvents :=
  (rtt_exact (.active 1 newSocket newSocket_fresh) (by
    intro ev hev
    simp only [lossEvents, List.mem_append, List.mem_cons, List.not_mem_nil, or_false] at hev
    rcases hev with hev | rfl | rfl | rfl | rfl | rfl
    · exact connectEvents_mtu 1000 ev hev
    · exact fun e s he => by cases he
    · exact fun e s he => by cases he
    · exact fun e s he => by cases he
    · exact fun e s he => by cases he
    · exact bareAck_mtu 101 5 1000)).mpr (by decide +kernel)

/-- The peer closes its window on three bytes for 455 ticks before it acknowledges them, and the
    next three bytes are lost, up to the sixth retransmit timeout. -/
def backoffEvents : List Event :=
  connectEvents 1000 ++ [.send [1, 2, 3] false fun _ => {}, bareAck 102 2 0] ++
    List.replicate 455 plainTick ++ [bareAck 102 5 1000, .send [4, 5, 6] false fun _ => {}] ++
    List.replicate 767 plainTick

theorem backoffEvents_mtu : ∀ ev ∈ backoffEvents ++ [plainTick], EventMtu ev := by
  have htick : EventMtu plainTick := fun e s he => by cases he
  have hsend : ∀ data, EventMtu (.send data false fun _ => {}) := fun _ e s he => by cases he
  intro ev hev
  simp only [backoffEvents, List.mem_append, List.mem_cons, List.not_mem_nil, or_false,
    List.mem_replicate] at hev
  rcases hev with ((((hev | rfl | rfl) | ⟨-, rfl⟩) | rfl | rfl) | ⟨-, rfl⟩) | rfl
  · exact connectEvents_mtu 1000 ev hev
  · exact hsend _
  · exact bareAck_mtu 102 2 0
  · exact htick
  · exact bareAck_mtu 102 5 1000
  · exact hsend _
  · exact htick
  · exact htick

/-- A retransmit timeout sets `t_rxtcur` to 2 where the product is clamped to 128. -/
def RttWrite.truncated : RttWrite → Bool
  | .rexmt tp => decide ((rexmtTp tp).tRxtcur = 2 ∧ (rexmtExact tp).tRxtcur = 128)
  | _ => false

/-- **A product is truncated** by the sixth timeout: `513 * 64` does not fit into a `short`. -/
theorem rexmt_product_truncated :
    ¬ ∀ (c : Conn) (es : List Event), Start c → (∀ ev ∈ es, EventMtu ev) → RttExactRun c es := by
  intro h
  have hrun : (Machine.run connMachine (some (activeOpen 1 newSocket)) backoffEvents).1.any
      (fun c => (rttWrites c plainTick).any RttWrite.truncated) = true := by decide +kernel
  obtain ⟨c, hc, hany⟩ := (Option.any_eq_true _ _).mp hrun
  obtain ⟨w, hw, ht⟩ := List.any_eq_true.mp hany
  have hall := h _ _ (.active 1 newSocket newSocket_fresh) backoffEvents_mtu
  have hex := hall.next hc w hw
  cases w with
  | rexmt tp =>
    obtain ⟨h1, h2⟩ := of_decide_eq_true ht
    rw [hex.1, h2] at h1
    exact absurd h1 (by decide)
  | _ => cases ht

end TnNet
