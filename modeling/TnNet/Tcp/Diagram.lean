import TnNet.Tcp.Wire

/-!
# The state diagram

Which way `t_state` goes while a connection lives.  A segment moves it along the edges of
`PeerEdge`, a call of the user along those of `UserEdge`; one event may take several of them, such
as an ACK of our SYN with a FIN.

* `tcpInput_walks`, `connStep_walks` — the moves of one event.
* `state_diagram` — the moves of a run: no state comes back, and the peer and the user each have
  their own edges.
-/

set_option autoImplicit false

namespace TnNet

open Relation

/-- The moves of `tcp_input`. -/
inductive PeerEdge : TcpState → TcpState → Prop where
  | passive : PeerEdge .listen .synReceived
  | active : PeerEdge .synSent .established
  | simultaneous : PeerEdge .synSent .synReceived
  | acked : PeerEdge .synReceived .established
  | fin : PeerEdge .established .closeWait
  | finAcked : PeerEdge .finWait1 .finWait2
  | crossed : PeerEdge .finWait1 .closing
  | last : PeerEdge .finWait2 .timeWait
  | closed : PeerEdge .closing .timeWait

/-- The moves of `tcp_usrclosed`. -/
inductive UserEdge : TcpState → TcpState → Prop where
  | early : UserEdge .synReceived .finWait1
  | close : UserEdge .established .finWait1
  | answer : UserEdge .closeWait .lastAck

/-- All moves. -/
def Edge (a b : TcpState) : Prop := PeerEdge a b ∨ UserEdge a b

theorem Edge.num_lt {a b : TcpState} (h : Edge a b) : a.num < b.num := by
  rcases h with h | h <;> cases h <;> decide

theorem edges_num_le {a b : TcpState} (h : ReflTransGen Edge a b) : a.num ≤ b.num := by
  induction h with
  | refl => exact Nat.le_refl _
  | tail _ he ih => exact ih.trans (Nat.le_of_lt he.num_lt)

/-! ## One event -/

/-- The state is `CLOSED`, or has been reached from `a` along edges of `R`. -/
def Walks (R : TcpState → TcpState → Prop) (a : TcpState) (c : Conn) : Prop :=
  c.tp.tState = .closed ∨ ReflTransGen R a c.tp.tState

section

variable {R : TcpState → TcpState → Prop} {a : TcpState} {c d : Conn} {e : InEnv} {s : Seg} {x : InSt}

theorem Walks.same (h : Walks R a c) (hs : d.tp.tState = c.tp.tState) : Walks R a d := by
  unfold Walks
  rw [hs]
  exact h

/-- One more edge, from a state other than `CLOSED`. -/
theorem Walks.next (h : Walks R a c) (hc : c.tp.tState ≠ .closed)
    (he : R c.tp.tState d.tp.tState) : Walks R a d :=
  .inr ((h.resolve_left hc).tail he)

theorem walks_stable : Stable (Walks R a) where
  core h hk := h.same (field_of_kept (fun c : Conn => c.tp.tState) hk fun _ => rfl)
  output env c h := h.same (field_of_kept _ (tcpOutput_kept env c).2 fun _ => rfl)
  options syn mtu opt c h := h.same (field_of_kept Tcpcb.tState (tcpDooptions_kept syn mtu opt c.tp)
    fun _ => rfl)
  drop _ _ := .inl rfl

theorem walks_user : UserInv (Walks UserEdge a) where
  tickRexmt _ h := h
  rexmt _ h _ := h
  tickPersist _ h := h
  persist _ h _ := h
  sbdrop _ _ h := h
  cantsendmore _ h := h
  disconnecting _ h := h
  disconnected _ h := h
  usrclosed c h _ hs := by
    have hn := h.next (d := { c with tp := { c.tp with tState := usrclosedState c.tp.tState } })
    cases hst : c.tp.tState <;> rw [hst] at hs hn
    case closed | listen | synSent => exact absurd rfl hs
    case synReceived => exact hn (by decide) .early
    case established => exact hn (by decide) .close
    case closeWait => exact hn (by decide) .answer
    all_goals exact h.same hst.symm
  sndbuf _ _ h := h

theorem ackedConn_walks (fin : Bool) (h : Walks PeerEdge a d) :
    Walks PeerEdge a (ackedConn fin d) := by
  rcases ackedConn_cases fin d with ⟨hc, -⟩ | ⟨hs, -, hc⟩ | ⟨hs, -, hc⟩
  · rw [hc]
    exact h
  · rw [hc]
    refine h.next (by rw [hs]; decide) ?_
    have hst : (enterFinWait2 d).tp.tState = .finWait2 := by
      unfold enterFinWait2
      split <;> rfl
    rw [hs, hst]
    exact .finAcked
  · rw [hc]
    refine h.next (by rw [hs]; decide) ?_
    rw [hs]
    exact .closed

/-- The FIN of the peer, on an established connection. -/
theorem doFin_walks {fin : Bool} (h : Walks PeerEdge a d)
    (hf : fin = true → d.tp.tState.haveEstablished = true) : Walks PeerEdge a (doFin fin d) := by
  have ha : (finAdvance d).tp.tState = d.tp.tState := by
    unfold finAdvance
    split <;> rfl
  have h1 : Walks PeerEdge a (finAdvance d) := h.same ha
  unfold doFin
  split
  · rename_i hfin
    have he := hf hfin
    rw [← ha] at he
    generalize finAdvance d = d' at h1 he
    have hn := h1.next (d := finState d')
    have hsame := h1.same (d := finState d')
    unfold finState at hn hsame ⊢
    cases hst : d'.tp.tState <;> rw [hst] at he <;> simp only [hst] at hn hsame ⊢
    case closed | listen | synSent | synReceived => cases he
    case established => exact hn (by decide) .fin
    case finWait1 => exact hn (by decide) .crossed
    case finWait2 => exact hn (by decide) .last
    all_goals exact hsame trivial
  · exact h

theorem synSentConn_tState (x : InSt) : (synSentConn x).tp.tState = .established ∨
    (synSentConn x).tp.tState = .synReceived := by
  unfold synSentConn
  dsimp only
  split
  · have hp := (tcpPresent_ends ⟨{ tcpRcvseqinit { synSentUna x with
      timerRexmt := 0, irs := x.th.thSeq } with acknow := true, tState := .established },
      soisconnected x.so⟩).2
    left
    split
    · exact (field_of_kept Tcpcb.tState (tcpXmitTimer_kept _ _) fun _ => rfl).trans hp
    · exact hp
  · exact .inr rfl

/-- **The moves of a segment.** -/
theorem tcpInput_walks (e : InEnv) (s : Seg) (c : Conn) :
    (tcpInput e s c).Ok (Walks PeerEdge c.tp.tState) := by
  have h0 : Walks PeerEdge c.tp.tState c := .inr .refl
  refine tcpInput_ok (I := fun x => Walks PeerEdge c.tp.tState x.conn)
    (K := fun x => Walks PeerEdge c.tp.tState x.conn)
    (T := fun x => Walks PeerEdge c.tp.tState x.conn) walks_stable ?_ h0
  exact
    { conn := fun _ hx => hx
      setup := fun _ => inputSetup_ok walks_stable e s h0
      checks := fun y hx _ _ hch => walks_stable.core hx (hch.trim.core.trans (leftTrim_core _))
      listen := fun x hx _ hs _ _ => by
        refine .inr ?_
        rw [show (trimThenStep6 { x with conn := listenConn e s x }).conn.tp.tState = _ from
          (trimThenStep6_ends _).2, hs]
        exact .single .passive
      synSent := fun x hx _ hs _ _ => by
        refine .inr ?_
        rw [show (trimThenStep6 { x with conn := synSentConn x }).conn.tp.tState = _ from
          (trimThenStep6_ends _).2, hs]
        show ReflTransGen PeerEdge _ (synSentConn x).tp.tState
        rcases synSentConn_tState x with h | h <;> rw [h]
        · exact .single .active
        · exact .single .simultaneous
      synReceived := fun x hx _ _ hst _ _ => by
        refine hx.next (by rw [show x.conn.tp.tState = _ from hst]; decide) ?_
        show PeerEdge x.conn.tp.tState (synReceivedConn x).tp.tState
        rw [synReceivedConn_tState, show x.conn.tp.tState = _ from hst]
        exact .acked
      other := fun _ hx _ _ _ _ => hx
      dup := fun _ hx _ => hx
      beyond := fun _ hx _ => hx
      connT := fun _ hx => hx
      dupacks := fun _ _ hx => hx
      fastRexmt := fun x hx _ => by
        have h1 : Walks PeerEdge c.tp.tState { x.conn with tp := fastRexmtTp x } := hx
        exact ⟨h1, (walks_stable.output e.out _ h1).same rfl⟩
      ackNew := fun x _ hx _ _ _ _ _ => ackedConn_walks _ (hx.same (ackConn_tState x))
      tail := fun x hx _ => by
        have h6 : (step6 x).conn.tp.tState = x.conn.tp.tState := by
          unfold step6 updateWindow
          dsimp only
          repeat' split
          all_goals rfl
        have hd : (doData e (step6 x)).1.tp.tState = (step6 x).conn.tp.tState :=
          field_of_kept (fun c : Conn => c.tp.tState) (doData_kept e (step6 x)) fun _ => rfl
        refine doFin_walks (hx.same (hd.trans h6)) fun hf => ?_
        rw [hd]
        exact (doData_fin hf).1 }

end

/-- Does a segment arrive? -/
def Event.isInput : Event → Bool
  | .input _ _ => true
  | _ => false

/-- **The moves of an event.** -/
theorem connStep_walks {c c' : Conn} {ev : Event} (hc : c.tp.tState ≠ .closed)
    (hn : (connStep c ev).next = some c') :
    (ev.isInput = true → ReflTransGen PeerEdge c.tp.tState c'.tp.tState) ∧
      (ev.isInput = false → ReflTransGen UserEdge c.tp.tState c'.tp.tState) := by
  have ho := connStep_open hc hn
  refine ⟨fun hi => ?_, fun hi => ?_⟩
  · cases ev with
    | input e s => exact ((tcpInput_walks e s c).next hn).resolve_left ho
    | _ => cases hi
  · have h0 : Walks UserEdge c.tp.tState c := .inr .refl
    have hok : (connStep c ev).Ok (Walks UserEdge c.tp.tState) :=
      connStep_ok walks_stable walks_user h0 (fun e s he => by rw [he] at hi; cases hi)
        (fun _ _ _ _ _ => .inr .refl) (fun _ _ _ => .inr .refl) fun _ _ => .inr .refl
    exact (hok.next hn).resolve_left ho

/-! ## Runs -/

/-- **The state diagram.**  While a connection lives its state follows the edges, never backwards;
    without the user it follows those of the peer only, and without segments those of the user. -/
theorem state_diagram {c c' : Conn} {es : List Event} (hc : c.tp.tState ≠ .closed)
    (hr : (Machine.run connMachine (some c) es).1 = some c') :
    ReflTransGen Edge c.tp.tState c'.tp.tState ∧ c.tp.tState.num ≤ c'.tp.tState.num ∧
      ((∀ ev ∈ es, ev.isInput = true) → ReflTransGen PeerEdge c.tp.tState c'.tp.tState) ∧
      ((∀ ev ∈ es, ev.isInput = false) → ReflTransGen UserEdge c.tp.tState c'.tp.tState) := by
  have hrun : ∀ (R : TcpState → TcpState → Prop) (q : Event → Prop),
      (∀ c ev c', q ev → c.tp.tState ≠ .closed → (connStep c ev).next = some c' →
        ReflTransGen R c.tp.tState c'.tp.tState) →
      (∀ ev ∈ es, q ev) → ReflTransGen R c.tp.tState c'.tp.tState := by
    intro R q hstep hq
    have hg : Machine.Guarded connMachine (fun _ ev => q ev) (some c) es := Machine.guarded_of_forall hq
    refine ((Machine.run_invariant (fun d => d.tp.tState ≠ .closed ∧ ReflTransGen R c.tp.tState d.tp.tState)
      (fun _ => True) ?_ (fun d hd => ?_) hg).1 c' hr).2
    · rintro d ev ⟨h1, h2⟩ hev
      exact ⟨fun d' hd' => ⟨connStep_open h1 hd', h2.trans (hstep d ev d' hev h1 hd')⟩,
        fun _ _ => trivial⟩
    · cases hd
      exact ⟨hc, .refl⟩
  have hall : ReflTransGen Edge c.tp.tState c'.tp.tState := by
    refine hrun Edge (fun _ => True) (fun d ev d' _ hd hn => ?_) fun _ _ => trivial
    obtain ⟨h1, h2⟩ := connStep_walks hd hn
    cases hi : ev.isInput with
    | true => exact ReflTransGen.mono (fun _ _ h => Or.inl h) _ _ (h1 hi)
    | false => exact ReflTransGen.mono (fun _ _ h => Or.inr h) _ _ (h2 hi)
  exact ⟨hall, edges_num_le hall, hrun PeerEdge _ fun d ev d' hq hd hn => (connStep_walks hd hn).1 hq,
    hrun UserEdge _ fun d ev d' hq hd hn => (connStep_walks hd hn).2 hq⟩

/-- The handshake of an active open. -/
theorem state_diagram_connect :
    (∃ c', (Machine.run connMachine (some (activeOpen 1 newSocket)) (connectEvents 4)).1 = some c' ∧
      c'.tp.tState = .established ∧ ReflTransGen Edge .synSent c'.tp.tState) := by
  have hend : ((Machine.run connMachine (some (activeOpen 1 newSocket)) (connectEvents 4)).1.map
      fun c => c.tp.tState) = some .established := by decide +kernel
  obtain ⟨c', hr, hst⟩ := Option.map_eq_some_iff.mp hend
  exact ⟨c', hr, hst, (state_diagram (c := activeOpen 1 newSocket) (by decide) hr).1⟩

end TnNet
