import TnNet.Tcp.OwnerRun

/-!
# The owners do not change what the code does

Without the owners, a pass of `tcp_input` is the `tcpInput` of a connection: the same state, the same end of
the control block and the same calls of `tcp_output` (`inputPass_res`).  So every connection of the stack is
in a state that the machine of one connection reaches (`conns_reached`).
-/

set_option autoImplicit false

namespace TnNet.Owned

open SeqArith

variable {st : InOwn} {e : Call} {s : Seg}

/-! ## Exits -/

/-- A state behind a phase. -/
structure Plain (st : InOwn) : Prop where
  dropsocket : st.dropsocket = false
  gone : st.gone = false
  calls : st.calls = []

theorem Plain.res (h : Plain st) : st.res = ⟨st.x.conn, false, []⟩ := by
  unfold InOwn.res
  rw [h.gone, h.calls]

theorem Plain.setConn (h : Plain st) (c : Conn) : Plain (st.setConn c) := ⟨h.dropsocket, h.gone, h.calls⟩

/-- What a jump leaves of the connection. -/
def Jump.res (e : Call) (j : Jump) : Res := ((j.run e).elim id id).res

theorem drop_res (h : st.dropsocket = false) : Jump.res e ⟨.drop, st⟩ = st.res := by
  show (atDrop e st).res = st.res
  have hm : (st.mFreem e).dropsocket = false := h
  unfold atDrop
  dsimp only
  rw [hm]
  rfl

theorem dropwithreset_res (h : st.dropsocket = false) : Jump.res e ⟨.dropwithreset, st⟩ = st.res := by
  show (atDropwithreset e st).res = st.res
  unfold atDropwithreset
  split
  · exact drop_res (e := e) h
  · dsimp only
    rw [h]
    rfl

theorem dropafterack_res (h : Plain st) : Jump.res e ⟨.dropafterack, st⟩ =
    if st.x.tiflags.rst then ⟨st.x.conn, false, []⟩
    else callOutput e.out { st.x.conn with tp := { st.x.tp with acknow := true } } := by
  show (atDropafterack e st).res = _
  unfold atDropafterack
  split
  · exact (drop_res (e := e) h.dropsocket).trans h.res
  · show Res.mk _ st.gone (st.calls ++ _) = _
    rw [h.gone, h.calls]
    rfl

theorem tcpClose_res (h : Plain st) : st.tcpClose.res = ⟨TnNet.tcpClose st.x.conn, true, []⟩ := by
  show Res.mk _ true st.calls = _
  rw [h.calls]
  rfl

theorem tcpDrop_res (h : Plain st) (errno : Int) :
    (st.tcpDrop e errno).res = TnNet.tcpDrop e.out errno st.x.conn := by
  show Res.mk _ true (st.calls ++ _) = _
  rw [h.calls]
  rfl

/-! ## Phases -/

/-- A phase with owners does what the phase without them does. -/
def Follows (e : Call) : Flow → TnNet.Flow → Prop
  | .ok st, .ok x => st.x = x ∧ Plain st
  | .error j, .error r => j.res e = r
  | _, _ => False

theorem Follows.bind {f : Flow} {g : TnNet.Flow} {f' : InOwn → Flow} {g' : InSt → TnNet.Flow}
    (h : Follows e f g) (h' : ∀ st, Plain st → Follows e (f' st) (g' st.x)) :
    Follows e (f >>= f') (g >>= g') := by
  cases f with
  | ok st =>
    cases g with
    | ok x =>
      obtain ⟨rfl, hp⟩ := h
      exact h' st hp
    | error r => exact h.elim
  | error j =>
    cases g with
    | ok x => exact h.elim
    | error r => exact h

theorem Follows.map {f : Flow} {g : TnNet.Flow} (h : Follows e f g) :
    Follows e (f.map trimThenStep6) (g.map TnNet.trimThenStep6) := by
  cases f with
  | ok st =>
    cases g with
    | ok x =>
      obtain ⟨rfl, hp⟩ := h
      exact ⟨rfl, hp.dropsocket, hp.gone, hp.calls⟩
    | error r => exact h.elim
  | error j =>
    cases g with
    | ok x => exact h.elim
    | error r => exact h

theorem drop_follows {r : Res} (hd : st.dropsocket = false) (hr : st.res = r) :
    Follows e (st.goto .drop) (.error r) := (drop_res hd).trans hr

theorem dropwithreset_follows {r : Res} (hd : st.dropsocket = false) (hr : st.res = r) :
    Follows e (st.goto .dropwithreset) (.error r) := (dropwithreset_res hd).trans hr

theorem Plain.drop (h : Plain st) : Follows e (st.goto .drop) (exitDrop st.x.conn) :=
  drop_follows h.dropsocket h.res

theorem Plain.dropwithreset (h : Plain st) : Follows e (st.goto .dropwithreset) (exitDrop st.x.conn) :=
  dropwithreset_follows h.dropsocket h.res

theorem Plain.dropafterack (h : Plain st) :
    Follows e (st.goto .dropafterack) (exitDropafterack e.toInEnv st.x.tiflags.rst st.x.conn) := by
  have hres := dropafterack_res (e := e) h
  unfold exitDropafterack
  split
  · rename_i hr
    rw [if_pos hr] at hres
    exact hres
  · rename_i hr
    rw [if_neg hr] at hres
    exact hres

theorem Plain.close (h : Plain st) (label : Label) (hl : label ≠ .dropafterack) :
    Follows e (st.tcpClose.goto label) (exitClose st.x.conn) := by
  have hd : st.tcpClose.dropsocket = false := h.dropsocket
  cases label with
  | drop => exact (drop_res hd).trans (tcpClose_res h)
  | dropwithreset => exact (dropwithreset_res hd).trans (tcpClose_res h)
  | findpcb => exact tcpClose_res h
  | dropafterack => exact absurd rfl hl

theorem inputSynSent_follows (h : Plain st) :
    Follows e (inputSynSent e st) (TnNet.inputSynSent e.toInEnv st.x) := by
  unfold inputSynSent TnNet.inputSynSent
  split
  · exact h.dropwithreset
  · split
    · split
      · refine drop_follows ?_ (tcpDrop_res h _)
        exact h.dropsocket
      · exact h.drop
    · split
      · exact h.drop
      · exact ⟨rfl, h.dropsocket, h.gone, h.calls⟩

theorem afterClose_follows (h : Plain st) : Follows e (afterClose st) (TnNet.afterClose st.x) := by
  unfold afterClose TnNet.afterClose
  split
  · exact h.close .dropwithreset nofun
  · exact ⟨rfl, h⟩

theorem rightTrim_follows (h : Plain st) : Follows e (rightTrim st) (TnNet.rightTrim e.toInEnv st.x) := by
  unfold rightTrim TnNet.rightTrim
  dsimp only
  split
  · split
    · split
      · exact h.close .findpcb nofun
      · split
        · exact ⟨rfl, h.dropsocket, h.gone, h.calls⟩
        · exact h.dropafterack
    · exact ⟨rfl, h.dropsocket, h.gone, h.calls⟩
  · exact ⟨rfl, h⟩

theorem checkRst_follows (h : Plain st) : Follows e (checkRst st) (TnNet.checkRst e.toInEnv st.x) := by
  have herr : ∀ errno, Plain (st.setError errno) := fun errno => h.setConn _
  unfold checkRst TnNet.checkRst
  split
  · cases hs : st.x.tp.tState
    case synReceived => exact (herr ECONNREFUSED).close .drop nofun
    case established =>
      dsimp only
      split
      · refine Plain.dropafterack ?_
        exact ⟨h.dropsocket, h.gone, h.calls⟩
      · exact (herr ECONNRESET).close .drop nofun
    case finWait1 => exact (herr ECONNRESET).close .drop nofun
    case finWait2 => exact (herr ECONNRESET).close .drop nofun
    case closeWait => exact (herr ECONNRESET).close .drop nofun
    case closing => exact h.close .drop nofun
    case lastAck => exact h.close .drop nofun
    case timeWait => exact h.close .drop nofun
    all_goals exact ⟨rfl, h⟩
  · exact ⟨rfl, h⟩

theorem checkSyn_follows (h : Plain st) : Follows e (checkSyn e st) (TnNet.checkSyn e.toInEnv st.x) := by
  unfold checkSyn TnNet.checkSyn
  split
  · split
    · exact h.drop
    · refine dropwithreset_follows ?_ (tcpDrop_res h _)
      exact h.dropsocket
  · exact ⟨rfl, h⟩

theorem checkAck_follows (h : Plain st) : Follows e (checkAck st) (TnNet.checkAck st.x) := by
  unfold checkAck TnNet.checkAck
  split
  · exact ⟨rfl, h⟩
  · exact h.drop

theorem ackSynReceived_follows (h : Plain st) :
    Follows e (ackSynReceived st) (TnNet.ackSynReceived st.x) := by
  unfold ackSynReceived TnNet.ackSynReceived
  split
  · split
    · exact h.dropwithreset
    · exact ⟨rfl, h.dropsocket, h.gone, h.calls⟩
  · exact ⟨rfl, h⟩

/-- `tcp_output` and an exit. -/
theorem Plain.output (h : Plain st) (c : Conn) (f : Conn → Conn) :
    Follows e ((((st.setConn c).tcpOutput e).setConn (f ((st.setConn c).tcpOutput e).x.conn)).goto .drop)
      (.error { callOutput e.out c with conn := f (callOutput e.out c).conn }) := by
  refine drop_follows ?_ ?_
  · exact h.dropsocket
  · show Res.mk _ st.gone (st.calls ++ _) = _
    rw [h.gone, h.calls]
    rfl

theorem ackDup_follows (h : Plain st) : Follows e (ackDup e st) (TnNet.ackDup e.toInEnv st.x) := by
  have hset : ∀ n, Follows e (.ok { st with x := st.x.setTp { st.x.tp with tDupacks := n } })
      (.ok (st.x.setTp { st.x.tp with tDupacks := n })) := fun n => ⟨rfl, h.dropsocket, h.gone, h.calls⟩
  unfold ackDup TnNet.ackDup
  dsimp only
  split
  · split
    · exact hset 0
    · split
      · exact h.output { st.x.conn with tp := fastRexmtTp st.x }
          fun c => { c with tp := fastRexmtBack st.x.tp.sndNxt c.tp }
      · split
        · exact h.output _ id
        · exact hset _
  · exact hset 0

theorem ackState_follows (h : Plain st) (fin : Bool) :
    Follows e (ackState fin st) (TnNet.ackState e.toInEnv fin st.x) := by
  unfold ackState TnNet.ackState
  cases hs : st.x.tp.tState
  case finWait1 =>
    cases fin
    · exact ⟨rfl, h⟩
    · exact ⟨rfl, h.setConn _⟩
  case closing =>
    cases fin
    · exact ⟨rfl, h⟩
    · exact ⟨rfl, h.setConn _⟩
  case lastAck =>
    cases fin
    · exact ⟨rfl, h⟩
    · exact h.close .drop nofun
  case timeWait => exact (h.setConn _).dropafterack
  all_goals exact ⟨rfl, h⟩

theorem ackProcess_follows (h : Plain st) :
    Follows e (ackProcess e st) (TnNet.ackProcess e.toInEnv st.x) := by
  unfold ackProcess TnNet.ackProcess
  split
  · exact ackDup_follows h
  · unfold ackNew TnNet.ackNew
    split
    · exact (h.setConn _).dropafterack
    · refine ackState_follows ?_ _
      exact ⟨h.dropsocket, h.gone, h.calls⟩

theorem inputChecks_follows (h : Plain st) :
    Follows e (inputChecks e st) (TnNet.inputChecks e.toInEnv st.x) := by
  unfold inputChecks TnNet.inputChecks
  have hleft : Plain { st with x := leftTrim st.x } := ⟨h.dropsocket, h.gone, h.calls⟩
  refine Follows.bind (afterClose_follows hleft) fun st h => ?_
  refine Follows.bind (rightTrim_follows h) fun st h => ?_
  refine Follows.bind (checkRst_follows h) fun st h => ?_
  exact Follows.bind (checkSyn_follows h) fun st h => checkAck_follows h

/-- A socket that `sonewconn` has just made. -/
structure Temporary (st : InOwn) : Prop where
  dropsocket : st.dropsocket = true
  gone : st.gone = false
  calls : st.calls = []

theorem Temporary.drop (h : Temporary st) :
    Follows e (st.goto .drop) (.error (TnNet.tcpDrop e.out ECONNABORTED st.x.conn)) := by
  show (atDrop e st).res = _
  have hm : (st.mFreem e).dropsocket = true := h.dropsocket
  unfold atDrop
  dsimp only
  rw [if_pos hm]
  show Res.mk _ true (st.calls ++ _) = _
  rw [h.calls]
  rfl

theorem Temporary.dropwithreset (h : Temporary st) :
    Follows e (st.goto .dropwithreset) (.error (TnNet.tcpDrop e.out ECONNABORTED st.x.conn)) := by
  show (atDropwithreset e st).res = _
  unfold atDropwithreset
  split
  · exact h.drop
  · dsimp only
    rw [if_pos h.dropsocket]
    show Res.mk _ true (st.calls ++ _) = _
    rw [h.calls]
    rfl

theorem inputListen_follows (h : Temporary st) (hc : e.cast = false) :
    Follows e (inputListen e s st) (TnNet.inputListen e.toInEnv s st.x) := by
  unfold inputListen TnNet.inputListen
  cases st.x.tiflags.rst
  case true => exact h.drop
  cases st.x.tiflags.ack
  case true => exact h.dropwithreset
  cases st.x.tiflags.syn
  case false => exact h.drop
  rw [hc]
  cases e.template
  · refine drop_follows rfl ?_
    show Res.mk _ true (st.calls ++ _) = _
    rw [h.calls]
    rfl
  · exact ⟨rfl, rfl, h.gone, h.calls⟩

/-! ## A pass -/

theorem inputHead_follows (h : Plain st) (hl : st.x.tp.tState ≠ .listen) :
    Follows e (inputHead e s st) (TnNet.inputHead e.toInEnv s st.x) := by
  have hchecks : Follows e
      (do let st ← inputChecks e st; let st ← ackSynReceived st; ackProcess e st)
      (do let x ← TnNet.inputChecks e.toInEnv st.x; let x ← TnNet.ackSynReceived x
          TnNet.ackProcess e.toInEnv x) :=
    (inputChecks_follows h).bind fun _ h => (ackSynReceived_follows h).bind fun _ h => ackProcess_follows h
  unfold inputHead TnNet.inputHead
  cases hs : st.x.tp.tState
  case listen => exact absurd hs hl
  case synSent => exact (inputSynSent_follows h).map
  all_goals exact hchecks

theorem inputHead_follows_listen (h : Temporary st) (hc : e.cast = false) (hl : st.x.tp.tState = .listen) :
    Follows e (inputHead e s st) (TnNet.inputHead e.toInEnv s st.x) := by
  unfold inputHead TnNet.inputHead
  rw [hl]
  exact (inputListen_follows h hc).map

theorem inputTail_res (h : Plain st) : (inputTail e st).res = TnNet.inputTail e.toInEnv st.x := by
  have hgone : ∀ b c, (inputOutput e.toInEnv b c).gone = false := by
    intro b c
    unfold inputOutput
    split <;> rfl
  show Res.mk _ st.gone (st.calls ++ _) = _
  rw [h.gone, h.calls, List.nil_append]
  unfold TnNet.inputTail
  dsimp only
  rw [← hgone (step6 st.x).needoutput
    (doFin (TnNet.doData e.toInEnv (step6 st.x)).2 (TnNet.doData e.toInEnv (step6 st.x)).1)]
  rfl

/-- **A pass is `tcpInput`** of the connection. -/
theorem inputPass_res {c : Conn} (hc : c.tp.tState ≠ .closed) (hx : st.x = TnNet.inputSetup e.toInEnv s c)
    (h : Follows e (inputHead e s st) (TnNet.inputHead e.toInEnv s st.x)) :
    ((inputPass e s st).elim id id).res = TnNet.tcpInput e.toInEnv s c := by
  unfold inputPass TnNet.tcpInput
  rw [if_neg hc, ← hx]
  cases hf : inputHead e s st with
  | ok st' =>
    cases hg : TnNet.inputHead e.toInEnv s st.x with
    | ok x =>
      rw [hf, hg] at h
      obtain ⟨rfl, hp⟩ := h
      exact inputTail_res hp
    | error r =>
      rw [hf, hg] at h
      exact h.elim
  | error j =>
    cases hg : TnNet.inputHead e.toInEnv s st.x with
    | ok x =>
      rw [hf, hg] at h
      exact h.elim
    | error r =>
      rw [hf, hg] at h
      exact h

/-! ## The restart in TIME_WAIT -/

/-- Behind `goto findpcb` the locals are those in front of the pass. -/
def Restarts (l : Locals) : Flow → Prop
  | .error ⟨.findpcb, st⟩ => Locals.ofSt st.x = l
  | _ => True

variable {l : Locals}

theorem Restarts.bind {f : Flow} {g : InOwn → Flow} (hf : Restarts l f) (hg : ∀ st, Restarts l (g st)) :
    Restarts l (f >>= g) := by
  cases f with
  | ok st => exact hg st
  | error j => exact hf

/-- A SYN is in the window only if nothing was cut off in front of it. -/
theorem leftTrim_of_syn {x : InSt} (h : (leftTrim x).tiflags.syn = true) : leftTrim x = x := by
  have hsyn : (leftSyn x).tiflags.syn = false := by
    unfold leftSyn
    split
    · rfl
    · rename_i hs
      exact Bool.eq_false_iff.mpr hs
  have hcut : 0 < sdist x.tp.rcvNxt x.th.thSeq → (leftTrim x).tiflags.syn = false := by
    intro h0
    unfold leftTrim
    dsimp only
    rw [if_pos h0]
    generalize (if x.tiflags.syn then sdist x.tp.rcvNxt x.th.thSeq - 1
      else sdist x.tp.rcvNxt x.th.thSeq) = todrop
    cases leftAll (leftSyn x) todrop <;> exact hsyn
  unfold leftTrim
  dsimp only
  rw [if_neg]
  intro h0
  rw [hcut h0] at h
  cases h

theorem rightTrim_restarts (hl : Locals.ofSt st.x = l ∨ st.x.tiflags.syn = false) :
    Restarts l (rightTrim st) := by
  unfold rightTrim
  dsimp only
  repeat' split
  · rename_i hr
    rcases hl with hl | hl
    · exact hl
    · rw [timeWaitRestart, hl] at hr
      cases hr
  all_goals trivial

theorem checkRst_restarts (st : InOwn) : Restarts l (checkRst st) := by
  unfold checkRst
  repeat' split
  all_goals trivial

theorem checkSyn_restarts (e : Call) (st : InOwn) : Restarts l (checkSyn e st) := by
  unfold checkSyn
  repeat' split
  all_goals trivial

theorem checkAck_restarts (st : InOwn) : Restarts l (checkAck st) := by
  unfold checkAck
  split <;> trivial

theorem ackSynReceived_restarts (st : InOwn) : Restarts l (ackSynReceived st) := by
  unfold ackSynReceived
  repeat' split
  all_goals trivial

theorem ackProcess_restarts (e : Call) (st : InOwn) : Restarts l (ackProcess e st) := by
  unfold ackProcess ackDup ackNew ackState
  dsimp only
  repeat' split
  all_goals trivial

theorem inputChecks_restarts (e : Call) (st : InOwn) :
    Restarts (.ofSt st.x) (inputChecks e st) := by
  have hleft : Locals.ofSt (leftTrim st.x) = .ofSt st.x ∨ (leftTrim st.x).tiflags.syn = false := by
    cases hs : (leftTrim st.x).tiflags.syn
    · exact .inr rfl
    · exact .inl (congrArg Locals.ofSt (leftTrim_of_syn hs))
  have hrest : ∀ l st, Restarts l (do
      let st ← checkRst st
      let st ← checkSyn e st
      checkAck st) := fun l st =>
    (checkRst_restarts st).bind fun st => (checkSyn_restarts e st).bind checkAck_restarts
  unfold inputChecks afterClose
  split
  · trivial
  · show Restarts _ (rightTrim { st with x := leftTrim st.x } >>= _)
    exact Restarts.bind (rightTrim_restarts hleft) (hrest _)

theorem Restarts.map {f : Flow} {g : InOwn → InOwn} (hf : Restarts l f) : Restarts l (f.map g) := by
  cases f with
  | ok st => trivial
  | error j => exact hf

theorem inputHead_restarts (e : Call) (s : Seg) (st : InOwn) :
    Restarts (.ofSt st.x) (inputHead e s st) := by
  unfold inputHead
  split
  · refine Restarts.map ?_
    unfold inputListen
    repeat' split
    all_goals trivial
  · refine Restarts.map ?_
    unfold inputSynSent
    repeat' split
    all_goals trivial
  · exact (inputChecks_restarts e st).bind fun st =>
      (ackSynReceived_restarts st).bind (ackProcess_restarts e)

/-- **The second lookup** is for the segment as it has come. -/
theorem inputPass_restarts {e : Call} {s : Seg} {st st' : InOwn} (h : inputPass e s st = .inr st') :
    Locals.ofSt st'.x = .ofSt st.x := by
  have hhead := inputHead_restarts e s st
  unfold inputPass at h
  cases hf : inputHead e s st with
  | ok st1 =>
    rw [hf] at h
    cases h
  | error j =>
    rw [hf] at h hhead
    obtain ⟨label, st1⟩ := j
    cases label
    case findpcb =>
      cases h
      exact hhead
    all_goals cases h

/-! ## No connection listens -/

/-- A connection that has left state `LISTEN`. -/
def NotListening (c : Conn) : Prop := c.tp.tState ≠ .listen

theorem notListening_stable : Stable NotListening := by
  constructor
  case core =>
    intro c c' h hcore
    have h1 := congrArg (fun c : Conn => c.tp.tState) hcore
    exact ne_of_eq_of_ne h1 h
  case output =>
    intro env c h
    exact ne_of_eq_of_ne (field_of_kept Tcpcb.tState (tcpOutput_kept env c).2 fun _ => rfl) h
  case options =>
    intro syn mtu opt c h
    have h1 := field_of_kept Tcpcb.tState (tcpDooptions_kept syn mtu opt c.tp) fun _ => rfl
    exact ne_of_eq_of_ne h1 h
  case drop => exact fun _ _ => nofun

theorem notListening_user : UserInv NotListening := by
  constructor
  case usrclosed =>
    intro c h _ _
    unfold NotListening at h ⊢
    cases hs : c.tp.tState <;> simp_all [usrclosedState]
  all_goals intros
  all_goals assumption

theorem tcpPresent_notListening {c : Conn} (h : NotListening c) : NotListening (TnNet.tcpPresent c).1 := by
  have h1 := field_of_kept (fun c : Conn => c.tp.tState) (tcpPresent_kept c) fun _ => rfl
  exact ne_of_eq_of_ne h1 h

theorem enterTimeWait_notListening (c : Conn) : NotListening (enterTimeWait c) := nofun

theorem enterFinWait2_notListening (c : Conn) : NotListening (enterFinWait2 c) := by
  have hst : (enterFinWait2 c).tp.tState = .finWait2 := by
    unfold enterFinWait2
    split <;> rfl
  exact ne_of_eq_of_ne hst nofun

theorem synSentConn_notListening (x : InSt) : NotListening (synSentConn x) := by
  unfold synSentConn
  dsimp only
  split
  · have hp : NotListening (TnNet.tcpPresent (synSentEst x)).1 := tcpPresent_notListening nofun
    split
    · have h1 := field_of_kept Tcpcb.tState (tcpXmitTimer_kept (TnNet.tcpPresent (synSentEst x)).1.tp
        (TnNet.tcpPresent (synSentEst x)).1.tp.tRtt) fun _ => rfl
      exact ne_of_eq_of_ne h1 hp
    · exact hp
  · exact nofun

theorem trimThenStep6_notListening {x : InSt} (h : NotListening x.conn) :
    NotListening (TnNet.trimThenStep6 x).conn := by
  unfold TnNet.trimThenStep6
  dsimp only
  split <;> exact h

theorem ackedConn_notListening (fin : Bool) {c : Conn} (h : NotListening c) :
    NotListening (ackedConn fin c) := by
  unfold ackedConn
  split
  · cases fin
    · exact h
    · exact enterFinWait2_notListening c
  · cases fin
    · exact h
    · exact enterTimeWait_notListening c
  · exact h

theorem finState_notListening {c : Conn} (h : NotListening c) : NotListening (finState c) := by
  have hset : ∀ s, s ≠ .listen → NotListening { c with tp := { c.tp with tState := s } } := fun s hs => hs
  unfold finState
  split
  · exact hset .closeWait nofun
  · exact hset .closeWait nofun
  · exact hset .closing nofun
  · exact enterTimeWait_notListening c
  · exact h
  · exact h

theorem doFin_notListening (fin : Bool) {c : Conn} (h : NotListening c) : NotListening (doFin fin c) := by
  have hadv : NotListening (finAdvance c) := by
    unfold finAdvance
    split <;> exact h
  unfold doFin
  split
  · exact finState_notListening hadv
  · exact h

/-- The text and the FIN. -/
theorem tail_notListening (e : InEnv) {x : InSt} (h : NotListening x.conn) :
    NotListening (doFin (TnNet.doData e (step6 x)).2 (TnNet.doData e (step6 x)).1) := by
  refine doFin_notListening _ ?_
  have h1 := field_of_kept (fun c : Conn => c.tp.tState) (doData_kept e (step6 x)) fun _ => rfl
  refine ne_of_eq_of_ne h1 ?_
  unfold step6 updateWindow
  dsimp only
  repeat' split
  all_goals exact h

theorem notListening_input (e : InEnv) (s : Seg) {c : Conn} (h : NotListening c) :
    InputInv NotListening (fun x => NotListening x.conn) (fun x => NotListening x.conn)
      (fun x => NotListening x.conn) e s c where
  conn _ hx := hx
  setup _ := inputSetup_ok notListening_stable e s h
  checks y hx _ _ hch := notListening_stable.core hx (hch.trim.core.trans (leftTrim_core _))
  listen x _ _ hl := absurd hl h
  synSent x _ _ _ _ _ := trimThenStep6_notListening (synSentConn_notListening x)
  synReceived x _ _ _ _ _ _ := by
    have hp : NotListening (TnNet.tcpPresent (synReceivedEst x)).1 := tcpPresent_notListening nofun
    exact hp
  other _ hx _ _ _ _ := hx
  dup _ hx _ := hx
  beyond _ hx _ := hx
  connT _ hx := hx
  dupacks _ _ hx := hx
  fastRexmt x hx _ := by
    have hout : NotListening (tcpOutput e.out { x.conn with tp := fastRexmtTp x }).conn :=
      notListening_stable.output _ _ hx
    exact ⟨hx, hout⟩
  ackNew x b hx _ _ _ _ _ := ackedConn_notListening _ (ne_of_eq_of_ne (ackConn_tState x) hx)
  tail x hx _ := tail_notListening e hx

/-- An event does not bring a connection to state `LISTEN`. -/
theorem connStep_notListening {c : Conn} (h : NotListening c) (ev : Event)
    (hg : (connStep c ev).gone = false) : NotListening (connStep c ev).conn := by
  have hok : (connStep c ev).Ok NotListening := by
    refine connStep_ok notListening_stable notListening_user h ?_ ?_ ?_ ?_
    · exact fun e s _ => tcpInput_ok notListening_stable (notListening_input e s h) h
    · exact fun _ _ _ _ _ => h
    · exact fun _ _ _ => h
    · exact fun _ _ => h
  exact hok.conn hg

theorem inputListen_leaves (e : InEnv) (s : Seg) (x : InSt) :
    match TnNet.inputListen e s x with
    | .error r => r.gone = true
    | .ok y => NotListening y.conn := by
  unfold TnNet.inputListen
  cases x.tiflags.rst
  case true => rfl
  cases x.tiflags.ack
  case true => rfl
  cases x.tiflags.syn
  case false => rfl
  cases e.template
  · rfl
  · exact nofun

theorem inputTail_notListening (e : InEnv) {x : InSt} (h : NotListening x.conn) :
    NotListening (TnNet.inputTail e x).conn := by
  have ht := tail_notListening e h
  unfold TnNet.inputTail inputOutput
  dsimp only
  split
  · exact notListening_stable.output _ _ ht
  · exact ht

/-- A socket made by `sonewconn` leaves state `LISTEN` or is gone. -/
theorem passive_notListening (e : InEnv) (s : Seg) (so : SocketTcp)
    (hg : (TnNet.tcpInput e s (passiveOpen so)).gone = false) :
    NotListening (TnNet.tcpInput e s (passiveOpen so)).conn := by
  have hst : (TnNet.inputSetup e s (passiveOpen so)).tp.tState = .listen := inputSetup_tState e s _
  have hl := inputListen_leaves e s (TnNet.inputSetup e s (passiveOpen so))
  have hhead : TnNet.tcpInput e s (passiveOpen so) =
      match (TnNet.inputListen e s (TnNet.inputSetup e s (passiveOpen so))).map TnNet.trimThenStep6 with
      | .error r => r
      | .ok x => TnNet.inputTail e x := by
    unfold TnNet.tcpInput TnNet.inputHead
    rw [if_neg nofun, hst]
    rfl
  rw [hhead] at hg ⊢
  cases hf : TnNet.inputListen e s (TnNet.inputSetup e s (passiveOpen so)) with
  | error r =>
    rw [hf] at hl hg
    exact absurd (hg.symm.trans hl) (by decide)
  | ok x =>
    rw [hf] at hl
    exact inputTail_notListening e (trimThenStep6_notListening hl)

/-! ## Every connection is a connection of the machine -/

/-- A state the machine of one connection reaches. -/
def Reached (c : Conn) : Prop := ∃ c0 es, Start c0 ∧ (Machine.run connMachine (some c0) es).1 = some c

theorem Reached.step {c : Conn} (h : Reached c) (ev : Event) (hg : (connStep c ev).gone = false) :
    Reached (connStep c ev).conn := by
  obtain ⟨c0, es, h0, hrun⟩ := h
  refine ⟨c0, es ++ [ev], h0, ?_⟩
  rw [Machine.run_append, hrun]
  show (Machine.run connMachine (connStep c ev).next []).1 = _
  rw [Machine.run_nil, Res.next, hg]
  rfl

theorem reached_passive (so : { so : SocketTcp // FreshSocket so }) : Reached (passiveOpen so) :=
  ⟨_, [], .passive so so.2, by rw [Machine.run_nil]⟩

/-- And it is not the state in which `sonewconn` leaves a socket. -/
def Sound (c : OConn) : Prop := Reached c.conn ∧ NotListening c.conn

variable {conns : List OConn} {i k : Nat}

theorem putBack_sound (hr : ∀ c ∈ conns, Sound c)
    (hst : st.gone = false → Sound ⟨st.x.conn, st.segq⟩) : ∀ c ∈ putBack conns i st, Sound c := by
  unfold putBack
  split
  · exact fun c hmem => hr c (List.mem_of_mem_eraseIdx hmem)
  · rename_i hg
    intro c hmem
    rcases List.mem_or_eq_of_mem_set hmem with hmem | rfl
    · exact hr c hmem
    · exact hst (Bool.eq_false_iff.mpr hg)

theorem putNew_sound (hr : ∀ c ∈ conns, Sound c)
    (hst : st.gone = false → Sound ⟨st.x.conn, st.segq⟩) : ∀ c ∈ putNew conns st, Sound c := by
  unfold putNew
  split
  · exact hr
  · rename_i hg
    exact List.forall_mem_append.mpr ⟨hr, List.forall_mem_singleton.mpr (hst (Bool.eq_false_iff.mpr hg))⟩

/-- What a pass leaves is sound. -/
theorem inputPass_sound {c : Conn} (hr : Reached c) (hc : c.tp.tState ≠ .closed)
    (hx : st.x = TnNet.inputSetup e.toInEnv s c)
    (h : Follows e (inputHead e s st) (TnNet.inputHead e.toInEnv s st.x))
    (hn : (TnNet.tcpInput e.toInEnv s c).gone = false → NotListening (TnNet.tcpInput e.toInEnv s c).conn) :
    ((inputPass e s st).elim id id).gone = false →
      Sound ⟨((inputPass e s st).elim id id).x.conn, ((inputPass e s st).elim id id).segq⟩ := by
  have hres := inputPass_res hc hx h
  intro hg
  have hgone : (TnNet.tcpInput e.toInEnv s c).gone = false := by
    rw [← hres]
    exact hg
  have hnext : Reached (TnNet.tcpInput e.toInEnv s c).conn := hr.step (.input e.toInEnv s) hgone
  have hlast := hn hgone
  rw [← hres] at hnext hlast
  exact ⟨hnext, hlast⟩

theorem findpcb_sound (a : Arrival) (s : Seg) (k : Nat) (found : List Found) (conns : List OConn)
    (ha : a.cast = false) (hr : ∀ c ∈ conns, Sound c) :
    ∀ c ∈ (findpcb a s k found (.ofSeg s) conns).1, Sound c := by
  induction found generalizing conns with
  | nil => exact hr
  | cons f found ih =>
    cases f with
    | none => exact hr
    | closed => exact hr
    | listen e mem so =>
      unfold findpcb
      split
      · split <;> exact hr
      · split
        · exact hr
        · cases so with
          | none => exact hr
          | some so =>
            have hpass := @inputPass_sound
              { x := inputSetup e s (.ofSeg s) (passiveOpen so), segq := [], dropsocket := true }
              (a.call k e) s
              (passiveOpen so) (reached_passive so) (fun hc => by cases hc) rfl
              (inputHead_follows_listen ⟨rfl, rfl, rfl⟩ ha (inputSetup_tState e s _))
              (passive_notListening e s so)
            dsimp only
            cases hp : inputPass (a.call k e) s
                { x := inputSetup e s (.ofSeg s) (passiveOpen so), segq := [], dropsocket := true } with
            | inl st =>
              rw [hp] at hpass
              exact putNew_sound hr hpass
            | inr st =>
              rw [hp] at hpass
              dsimp only
              rw [show Locals.ofSt st.x = .ofSeg s from inputPass_restarts hp]
              exact ih _ (putNew_sound hr hpass)
    | conn e i =>
      unfold findpcb
      cases hi : conns[i]? with
      | none => exact hr
      | some c =>
        dsimp only
        split
        · exact hr
        · rename_i hc
          obtain ⟨hrun, hnl⟩ := hr c (List.mem_of_getElem? hi)
          have hplain : Plain { x := inputSetup e s (.ofSeg s) c.conn, segq := c.segq } := ⟨rfl, rfl, rfl⟩
          have hpass :=
            @inputPass_sound { x := inputSetup e s (.ofSeg s) c.conn, segq := c.segq } (a.call k e) s
            c.conn hrun hc rfl
            (inputHead_follows hplain (ne_of_eq_of_ne (inputSetup_tState e s c.conn) hnl))
            (connStep_notListening hnl (.input e s))
          cases hp : inputPass (a.call k e) s { x := inputSetup e s (.ofSeg s) c.conn, segq := c.segq } with
          | inl st =>
            rw [hp] at hpass
            exact putBack_sound hr hpass
          | inr st =>
            rw [hp] at hpass
            dsimp only
            rw [show Locals.ofSt st.x = .ofSeg s from inputPass_restarts hp]
            exact ih _ (putBack_sound hr hpass)

theorem tcpInput_sound (a : Arrival) (k : Nat) (hr : ∀ c ∈ conns, Sound c) :
    ∀ c ∈ (tcpInput a k conns).1, Sound c := by
  unfold tcpInput
  split
  · exact hr
  · rename_i hm
    split
    · exact hr
    · split
      · exact hr
      · rename_i hcast
        split
        · exact hr
        · split
          · exact hr
          · refine findpcb_sound a _ k _ conns ?_ hr
            unfold Arrival.cast
            simp only [not_or, Bool.not_eq_true] at hm hcast
            rw [hm, hcast.1]
            rfl

theorem eventConn_sound (hr : ∀ c ∈ conns, Sound c) (i : Nat) (ev : Event) :
    ∀ c ∈ (eventConn conns i ev).1, Sound c := by
  have hmove : ∀ c, conns[i]? = some c →
      ∀ c' ∈ (if (connStep c.conn ev).gone then (conns.eraseIdx i, tcpFreeq c.segq)
      else (conns.set i ⟨(connStep c.conn ev).conn, c.segq⟩, [])).1, Sound c' := by
    intro c hi
    obtain ⟨hrun, hnl⟩ := hr c (List.mem_of_getElem? hi)
    split
    · exact fun c' hmem => hr c' (List.mem_of_mem_eraseIdx hmem)
    · rename_i hg
      rw [Bool.not_eq_true] at hg
      intro c' hmem
      rcases List.mem_or_eq_of_mem_set hmem with hmem | rfl
      · exact hr c' hmem
      · exact ⟨hrun.step ev hg, connStep_notListening hnl ev hg⟩
  unfold eventConn
  cases hi : conns[i]? with
  | none => exact hr
  | some c =>
    cases ev with
    | input e s => exact hr
    | _ => exact hmove c hi

/-- **Refinement.**  Every connection of the stack is in a state that the machine of one connection
    reaches. -/
theorem conns_reached (es : List NetEvent) (n : Net)
    (hn : (Machine.run netMachine (some {}) es).1 = some n) : ∀ c ∈ n.conns, Reached c.conn := by
  have hg : Machine.Guarded netMachine (fun _ _ => True) (some {}) es := Machine.guarded_true _ _ es
  have hrun := Machine.run_invariant (fun n : Net => ∀ c ∈ n.conns, Sound c) (fun _ => True) ?_ ?_ hg
  · exact fun c hmem => (hrun.1 n hn c hmem).1
  · intro n ev hi _
    refine ⟨fun n' h => ?_, fun _ _ => trivial⟩
    cases ev with
    | input a =>
      cases h
      exact tcpInput_sound a n.arrived hi
    | connect iss so hso =>
      cases h
      refine List.forall_mem_append.mpr ⟨hi, List.forall_mem_singleton.mpr ⟨?_, nofun⟩⟩
      exact ⟨_, [], .active iss so hso, by rw [Machine.run_nil]⟩
    | conn i ev =>
      cases h
      exact eventConn_sound hi i ev
  · intro n h
    cases h
    exact fun _ h => (List.not_mem_nil h).elim

end TnNet.Owned
