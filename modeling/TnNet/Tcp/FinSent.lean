import TnNet.Tcp.SendRules

/-!
# The FIN behind `TF_SENTFIN`

`TF_SENTFIN` is set by `tcp_output` alone.

* `Res.FinTraced` — an event that leaves the bit set has found it set, or one of its calls of
  `tcp_output` has set it, and what counts for the FIN is as that call has left it.
* `FlowTraced` — the same for a phase of `tcp_input`.

Principal result: `connStep_traced`.
-/

set_option autoImplicit false

namespace TnNet

open SeqArith

/-- What the position of the FIN depends on. -/
def Conn.finPart (c : Conn) : BitVec 32 × BitVec 32 × Sockbuf × Bool :=
  (c.tp.iss, c.tp.sndUna, c.so.soSnd, c.tp.sentfin)

/-- The bit has been set before the event, or by one of its calls. -/
def Res.FinTraced (c : Conn) (r : Res) : Prop :=
  r.gone = false → r.conn.tp.sentfin = true → c.tp.sentfin = true ∨
    ∃ k ∈ r.calls, k.pre.tp.sentfin = false ∧ r.conn.finPart = k.res.conn.finPart

/-- A phase of `tcp_input` leaves the bit as it is, or its exit is traced. -/
def FlowTraced (c : Conn) : Flow → Prop
  | .ok x => x.tp.sentfin = c.tp.sentfin
  | .error r => r.FinTraced c

section

variable {c d : Conn} {r : Res}

theorem Res.FinTraced.same (h : d.tp.sentfin = c.tp.sentfin) : Res.FinTraced c ⟨d, false, []⟩ :=
  fun _ hs => .inl (h.symm.trans hs)

theorem Res.FinTraced.gone (h : r.gone = true) : r.FinTraced c := by
  intro hg
  rw [h] at hg
  cases hg

theorem Res.FinTraced.call (env : Nat → SendEnv) (h : d.tp.sentfin = c.tp.sentfin) :
    (callOutput env d).FinTraced c := by
  intro _ _
  cases h0 : c.tp.sentfin with
  | true => exact .inl rfl
  | false => exact .inr ⟨⟨env, d⟩, List.mem_singleton.mpr rfl, h.trans h0, rfl⟩

/-- A change behind the calls that does not concern the FIN. -/
theorem Res.FinTraced.map {g : Conn → Conn} (h : r.FinTraced c)
    (hg : ∀ d, (g d).finPart = d.finPart) : Res.FinTraced c { r with conn := g r.conn } := by
  intro hgone hs
  have hp := hg r.conn
  have hs' : r.conn.tp.sentfin = true := by
    simp only [Conn.finPart, Prod.mk.injEq] at hp
    exact hp.2.2.2.symm.trans hs
  exact (h hgone hs').imp_right fun ⟨k, hk, h1, h2⟩ => ⟨k, hk, h1, hp.trans h2⟩

/-- The parts of the connection the timers leave alone. -/
def Conn.sndSide (c : Conn) : BitVec 32 × BitVec 32 × Sockbuf := (c.tp.iss, c.tp.sndUna, c.so.soSnd)

theorem Res.FinTraced.andThen {f : Conn → Res} (hr : r.FinTraced c) (hf : ∀ d, (f d).FinTraced d)
    (hkeep : ∀ d, (f d).gone = false → (f d).conn.sndSide = d.sndSide) :
    (r.andThen f).FinTraced c := by
  unfold Res.andThen
  split
  · exact hr
  · rename_i hg
    intro hg2 hs
    rcases hf r.conn hg2 hs with h1 | ⟨k, hk, h1, h2⟩
    · refine (hr (by simpa using hg) h1).imp_right fun ⟨k, hk, g1, g2⟩ => ?_
      refine ⟨k, List.mem_append_left _ hk, g1, ?_⟩
      have hside := hkeep r.conn hg2
      have hs' : (f r.conn).conn.tp.sentfin = true := hs
      rw [← g2]
      simp only [Conn.sndSide, Conn.finPart, Prod.mk.injEq] at hside ⊢
      exact ⟨hside.1, hside.2.1, hside.2.2, hs'.trans h1.symm⟩
    · exact .inr ⟨k, List.mem_append_right _ hk, h1, h2⟩

theorem FlowTraced.bind {f : Flow} {g : InSt → Flow} (hf : FlowTraced c f)
    (hg : ∀ x, x.tp.sentfin = c.tp.sentfin → FlowTraced c (g x)) : FlowTraced c (f >>= g) := by
  cases f with
  | ok x => exact hg x hf
  | error r => exact hf

/-! ## `tcp_input` -/

variable {e : InEnv} {s : Seg} {x : InSt}

theorem exitDropafterack_traced (rst : Bool) (h : d.tp.sentfin = c.tp.sentfin) :
    FlowTraced c (exitDropafterack e rst d) := by
  unfold exitDropafterack
  split
  · exact Res.FinTraced.same h
  · exact Res.FinTraced.call e.out h

theorem inputSetup_sentfin (e : InEnv) (s : Seg) (c : Conn) :
    (inputSetup e s c).tp.sentfin = c.tp.sentfin := by
  have h := field_of_kept Tcpcb.sentfin (tcpDooptions_kept s.th.thFlags.syn e.ifMtu s.opt
    { c.tp with tIdle := 0, timerKeep := tcpKeepidle }) fun _ => rfl
  unfold inputSetup InSt.tp
  dsimp only
  split
  · rfl
  · exact h

theorem core_sentfin {c' d' : Conn} (h : c'.core = d'.core) : c'.tp.sentfin = d'.tp.sentfin :=
  field_of_kept (fun c : Conn => c.tp.sentfin) h fun _ => rfl

theorem inputChecks_traced (h : x.tp.sentfin = c.tp.sentfin) :
    FlowTraced c (inputChecks e x) := by
  have hl : (leftTrim x).tp.sentfin = c.tp.sentfin := (core_sentfin (leftTrim_core x)).trans h
  unfold inputChecks
  refine FlowTraced.bind ?_ fun y hy => ?_
  · unfold afterClose
    split
    · exact Res.FinTraced.gone rfl
    · exact hl
  refine FlowTraced.bind ?_ fun y hy => ?_
  · unfold rightTrim
    dsimp only
    split
    · split
      · split
        · exact Res.FinTraced.gone rfl
        · split
          · exact hy
          · exact exitDropafterack_traced _ hy
      · exact hy
    · exact hy
  refine FlowTraced.bind ?_ fun y hy => ?_
  · unfold checkRst
    split
    · split
      · exact Res.FinTraced.gone rfl
      · split
        · exact exitDropafterack_traced _ hy
        · exact Res.FinTraced.gone rfl
      all_goals first | exact Res.FinTraced.gone rfl | exact hy
    · exact hy
  refine FlowTraced.bind ?_ fun y hy => ?_
  · unfold checkSyn
    split
    · split
      · exact Res.FinTraced.same hy
      · exact Res.FinTraced.gone rfl
    · exact hy
  unfold checkAck
  split
  · exact hy
  · exact Res.FinTraced.same hy

theorem ackSynReceived_traced (h : x.tp.sentfin = c.tp.sentfin) :
    FlowTraced c (ackSynReceived x) := by
  unfold ackSynReceived
  split
  · split
    · exact Res.FinTraced.same h
    · have hp := field_of_kept (fun c : Conn => c.tp.sentfin) (tcpPresent_kept
        ⟨{ x.tp with tState := .established }, soisconnected x.so⟩) fun _ => rfl
      exact Eq.trans hp h
  · exact h

theorem ackConn_sentfin (x : InSt) : (ackConn x).tp.sentfin = x.tp.sentfin := by
  have h := field_of_kept Tcpcb.sentfin (ackRtt_kept x) fun _ => rfl
  exact h

theorem ackProcess_traced (h : x.tp.sentfin = c.tp.sentfin) : FlowTraced c (ackProcess e x) := by
  have ha := (ackConn_sentfin x).trans h
  unfold ackProcess ackDup ackNew
  split
  · split
    · split
      · exact h
      · dsimp only
        split
        · have hc : (callOutput e.out { x.conn with tp := fastRexmtTp x }).FinTraced c :=
            Res.FinTraced.call e.out h
          exact hc.map (g := fun d => { d with tp := fastRexmtBack x.tp.sndNxt d.tp }) fun _ => rfl
        · split
          · exact Res.FinTraced.call e.out h
          · exact h
    · exact h
  · split
    · exact exitDropafterack_traced _ h
    · unfold ackState
      split
      · show (if ourfinisacked x then _ else _ : InSt).tp.sentfin = _
        split
        · refine Eq.trans ?_ ha
          show (enterFinWait2 (ackConn x)).tp.sentfin = _
          unfold enterFinWait2
          split <;> rfl
        · exact ha
      · show (if ourfinisacked x then _ else _ : InSt).tp.sentfin = _
        split <;> exact ha
      · split
        · exact Res.FinTraced.gone rfl
        · exact ha
      · exact exitDropafterack_traced _ ha
      · exact ha

theorem synSentConn_sentfin (x : InSt) : (synSentConn x).tp.sentfin = x.tp.sentfin := by
  have hu : (synSentUna x).sentfin = x.tp.sentfin := by
    unfold synSentUna
    split <;> rfl
  unfold synSentConn
  dsimp only
  rw [← hu]
  split
  · have h1 := xmitTimer_sndPart (tcpPresent
      { tp := { tcpRcvseqinit { synSentUna x with timerRexmt := 0, irs := x.th.thSeq } with
                acknow := true, tState := .established }
        so := soisconnected x.so }).1
    have h2 := field_of_kept (fun c : Conn => c.tp.sentfin) (h1.trans (tcpPresent_sndPart _))
      fun _ => rfl
    exact h2
  · rfl

theorem inputHead_traced (e : InEnv) (s : Seg) (c : Conn) :
    FlowTraced c (inputHead e s (inputSetup e s c)) := by
  have h0 := inputSetup_sentfin e s c
  have htrim : ∀ y : InSt, (trimThenStep6 y).tp.sentfin = y.tp.sentfin := by
    intro y
    unfold trimThenStep6
    dsimp only
    split <;> rfl
  unfold inputHead
  split
  · unfold inputListen
    split
    · exact Res.FinTraced.gone rfl
    · split
      · exact Res.FinTraced.gone rfl
      · refine (htrim _).trans (Eq.trans ?_ h0)
        have h := field_of_kept Tcpcb.sentfin (tcpDooptions_kept s.th.thFlags.syn e.ifMtu s.opt
          { (inputSetup e s c).tp with tTemplate := true }) fun _ => rfl
        exact h
  · unfold inputSynSent
    split
    · exact Res.FinTraced.same h0
    · split
      · split
        · exact Res.FinTraced.gone rfl
        · exact Res.FinTraced.same h0
      · split
        · exact Res.FinTraced.same h0
        · exact (htrim _).trans ((synSentConn_sentfin _).trans h0)
  · refine FlowTraced.bind (inputChecks_traced h0) fun y hy => ?_
    exact FlowTraced.bind (ackSynReceived_traced hy) fun z hz => ackProcess_traced hz

theorem inputTail_traced (h : x.tp.sentfin = c.tp.sentfin) : (inputTail e x).FinTraced c := by
  have hu : (step6 x).tp.sentfin = x.tp.sentfin := by
    unfold step6 updateWindow
    dsimp only
    repeat' split
    all_goals rfl
  have hd : (doData e (step6 x)).1.tp.sentfin = c.tp.sentfin :=
    (field_of_kept (fun c : Conn => c.tp.sentfin) (doData_kept e (step6 x)) fun _ => rfl).trans
      (hu.trans h)
  have hf : (doFin (doData e (step6 x)).2 (doData e (step6 x)).1).tp.sentfin = c.tp.sentfin := by
    rw [← hd]
    unfold doFin finState finAdvance enterTimeWait
    repeat' split
    all_goals rfl
  unfold inputTail inputOutput
  dsimp only
  split
  · exact Res.FinTraced.call e.out hf
  · exact Res.FinTraced.same hf

theorem tcpInput_traced (e : InEnv) (s : Seg) (c : Conn) : (tcpInput e s c).FinTraced c := by
  have hh := inputHead_traced e s c
  unfold tcpInput
  split
  · exact Res.FinTraced.same rfl
  · revert hh
    cases inputHead e s (inputSetup e s c) with
    | error r => exact id
    | ok x => exact fun hx => inputTail_traced hx

/-! ## Timers and user calls -/

theorem callOutput_sndSide (env : Nat → SendEnv) (d : Conn) :
    (callOutput env d).conn.sndSide = d.sndSide := by
  obtain ⟨h1, h2⟩ := tcpOutput_kept env d
  have h3 : (tcpOutput env d).conn.tp.iss = d.tp.iss := field_of_kept _ h2 fun _ => rfl
  have h4 : (tcpOutput env d).conn.tp.sndUna = d.tp.sndUna := field_of_kept _ h2 fun _ => rfl
  show ((tcpOutput env d).conn.tp.iss, (tcpOutput env d).conn.tp.sndUna,
    (tcpOutput env d).conn.so.soSnd) = _
  rw [h1, h3, h4]
  rfl

theorem forceOutput_traced (env : Nat → SendEnv) (h : d.tp.sentfin = c.tp.sentfin) :
    (forceOutput env d).FinTraced c :=
  Res.FinTraced.map (g := fun d => { d with tp := { d.tp with tForce := false } })
    (Res.FinTraced.call env (d := { d with tp := { d.tp with tForce := true } }) h) fun _ => rfl

theorem forceOutput_sndSide (env : Nat → SendEnv) (d : Conn) :
    (forceOutput env d).conn.sndSide = d.sndSide :=
  callOutput_sndSide env { d with tp := { d.tp with tForce := true } }

theorem tickRexmt_traced (env : Nat → SendEnv) (d : Conn) : (tickRexmt env d).FinTraced d := by
  unfold tickRexmt timersRexmt
  dsimp only
  split
  · split
    · exact Res.FinTraced.gone rfl
    · exact Res.FinTraced.call env rfl
  · exact Res.FinTraced.same rfl

theorem tickPersist_traced (env : Nat → SendEnv) (d : Conn) :
    (tickPersist env d).FinTraced d ∧ (tickPersist env d).conn.sndSide = d.sndSide := by
  unfold tickPersist timersPersist
  dsimp only
  split
  · exact ⟨forceOutput_traced env rfl, forceOutput_sndSide env _⟩
  · exact ⟨Res.FinTraced.same rfl, rfl⟩

theorem tickKeep_traced (env : Nat → SendEnv) (d : Conn) :
    (tickKeep env d).FinTraced d ∧
      ((tickKeep env d).gone = false → (tickKeep env d).conn.sndSide = d.sndSide) := by
  unfold tickKeep timersKeep
  dsimp only
  split
  · split
    · exact ⟨Res.FinTraced.gone rfl, fun h => by cases h⟩
    · split
      · split
        · exact ⟨Res.FinTraced.gone rfl, fun h => by cases h⟩
        · exact ⟨Res.FinTraced.same rfl, fun _ => rfl⟩
      · exact ⟨Res.FinTraced.same rfl, fun _ => rfl⟩
  · exact ⟨Res.FinTraced.same rfl, fun _ => rfl⟩

theorem tick2msl_traced (d : Conn) :
    (tick2msl d).FinTraced d ∧ ((tick2msl d).gone = false → (tick2msl d).conn.sndSide = d.sndSide) := by
  unfold tick2msl
  dsimp only
  split
  · exact ⟨Res.FinTraced.gone rfl, fun h => by cases h⟩
  · exact ⟨Res.FinTraced.same rfl, fun _ => rfl⟩

theorem tcpSlowtimo_traced (env : Nat → Nat → SendEnv) (c : Conn) :
    (tcpSlowtimo env c).FinTraced c := by
  unfold tcpSlowtimo
  split
  · exact Res.FinTraced.gone rfl
  · refine Res.FinTraced.andThen (.andThen (.andThen (.andThen (tickRexmt_traced _ c)
      (fun d => (tickPersist_traced _ d).1) fun d _ => (tickPersist_traced _ d).2)
      (fun d => (tickKeep_traced _ d).1) fun d => (tickKeep_traced _ d).2)
      (fun d => (tick2msl_traced d).1) fun d => (tick2msl_traced d).2) (fun d => ?_) fun d _ => rfl
    exact Res.FinTraced.same rfl

theorem usrclosedOutput_traced (env : Nat → SendEnv) (h : d.tp.sentfin = c.tp.sentfin) :
    (usrclosedOutput env d).FinTraced c := by
  have hu : (tcpUsrclosed d).conn.tp.sentfin = d.tp.sentfin := by
    unfold tcpUsrclosed
    dsimp only
    repeat' split
    all_goals rfl
  unfold usrclosedOutput
  split
  · rename_i hg
    exact Res.FinTraced.gone hg
  · exact Res.FinTraced.call env (hu.trans h)

theorem tcpDisconnect_traced (env : Nat → SendEnv) (c : Conn) :
    (tcpDisconnect env c).FinTraced c := by
  unfold tcpDisconnect
  split
  · exact Res.FinTraced.gone rfl
  · split
    · exact Res.FinTraced.gone rfl
    · exact usrclosedOutput_traced env rfl

theorem tcpDetach_traced (env : Nat → SendEnv) (c : Conn) : (tcpDetach env c).FinTraced c := by
  unfold tcpDetach
  dsimp only
  split
  · exact (tcpDisconnect_traced env c).map
      (g := fun d => { d with so := { d.so with ssNofdref := true } }) fun _ => rfl
  · exact Res.FinTraced.gone rfl

/-- **Every event is traced.** -/
theorem connStep_traced (c : Conn) (ev : Event) : (connStep c ev).FinTraced c := by
  have go : ∀ r : Res, r.FinTraced c →
      Res.FinTraced c (if c.tp.tState = .listen then ⟨c, false, []⟩ else r) := by
    intro r hr
    split
    · exact Res.FinTraced.same rfl
    · exact hr
  cases ev with
  | input e s => exact tcpInput_traced e s c
  | output env => exact go _ (Res.FinTraced.call env rfl)
  | slowtimo env => exact go _ (tcpSlowtimo_traced env c)
  | fasttimo env =>
    refine go _ ?_
    unfold tcpFasttimo
    split
    · exact Res.FinTraced.call env rfl
    · exact Res.FinTraced.same rfl
  | send data oob env =>
    refine go _ ?_
    unfold tcpSSend
    split
    · exact Res.FinTraced.same rfl
    · dsimp only
      split
      · exact forceOutput_traced env rfl
      · exact Res.FinTraced.call env rfl
  | recv n env =>
    refine go _ ?_
    unfold tcpSRecv
    split
    · exact Res.FinTraced.same rfl
    · dsimp only
      split
      · exact Res.FinTraced.call _ rfl
      · exact Res.FinTraced.same rfl
  | shutdown rd wr env =>
    refine go _ ?_
    unfold tcpSShutdown
    dsimp only
    have hrd : (if rd then { c with so := sorflush c.so } else c).tp.sentfin = c.tp.sentfin := by
      split <;> rfl
    split
    · exact usrclosedOutput_traced env hrd
    · exact Res.FinTraced.same hrd
  | disconnect env =>
    refine go _ ?_
    unfold sodisconnect
    split
    · exact Res.FinTraced.same rfl
    · exact tcpDisconnect_traced env c
  | detach env => exact go _ (tcpDetach_traced env c)
  | accept => exact go _ (Res.FinTraced.same rfl)
  | sockopt o => exact go _ (Res.FinTraced.same rfl)

end

end TnNet
