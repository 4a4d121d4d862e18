import TnNet.Tcp.SendCall

/-!
# A sender that waits

A task that finds no space in `so_snd` releases the network lock and waits on `so_snd.sb_sem`.
`Full` is what it has found; while the task waits, an event that ends it has to signal the semaphore.
The ACK of new data signals in `ESTABLISHED` only.

* `full_inv` — no other event of the protocol, the timers or the user ends `Full` and leaves the
  connection in a state in which it can send.
* `no_forgotten_sender` — a blocked task has nothing to do, in every run in which no ACK makes room in
  `CLOSE_WAIT` while it waits.
-/

set_option autoImplicit false

namespace TnNet

open SeqArith

variable {c : Conn} {e : InEnv} {s : Seg} {st : TcpState} {so : SocketTcp}

/-! ## The connection of a waiting task -/

/-- The states in which data may be sent. -/
def TcpState.maySend (st : TcpState) : Prop := st = .established ∨ st = .closeWait

instance (st : TcpState) : Decidable st.maySend := inferInstanceAs (Decidable (_ ∨ _))

/-- There is nothing to do for a sender: no space, no error and no end. -/
structure FullSock (so : SocketTcp) : Prop where
  space : sbspace so.soSnd ≤ 0
  open_ : so.ssCantsendmore = false
  error : so.soError = 0
  isconnected : so.ssIsconnected = true

/-- The socket of a waiting task. -/
def Full (st : TcpState) (so : SocketTcp) : Prop :=
  st.haveEstablished = true ∧ (st.maySend → FullSock so)

/-- An ACK that takes bytes out of the send buffer and signals nobody: it makes no room. -/
def QuietAck (st : TcpState) (so : SocketTcp) (n : Nat) : Prop :=
  st ≠ .established ∧ (st = .closeWait → sbspace (sbdrop so.soSnd n) ≤ 0)

/-- The fields `FullSock` reads. -/
def SocketTcp.sending (so : SocketTcp) : Sockbuf × Bool × Int × Bool :=
  (so.soSnd, so.ssCantsendmore, so.soError, so.ssIsconnected)

theorem Full.congr {so' : SocketTcp} (h : Full st so) (hk : so'.sending = so.sending) :
    Full st so' := by
  simp only [SocketTcp.sending, Prod.mk.injEq] at hk
  obtain ⟨h1, h2, h3, h4⟩ := hk
  refine ⟨h.1, fun hs => ?_⟩
  have hf := h.2 hs
  exact ⟨h1 ▸ hf.space, h2.trans hf.open_, h3.trans hf.error, h4.trans hf.isconnected⟩

theorem usrclosed_maySend (h : usrclosedState st ≠ .closed) :
    (usrclosedState st).haveEstablished = true ∧ ¬ (usrclosedState st).maySend := by
  revert h
  cases st <;> decide

theorem full_inv : SockInv QuietAck (fun _ => True) Full := by
  have other : ∀ {st so}, st.haveEstablished = true → ¬ st.maySend → Full st so :=
    fun h1 h2 => ⟨h1, fun h => absurd h h2⟩
  constructor
  case synReceived =>
    rintro st so ⟨h1, -⟩ (rfl | rfl) <;> cases h1
  case connected =>
    rintro st so ⟨h1, -⟩ (rfl | rfl) <;> cases h1
  case append => exact fun m h _ _ => h.congr rfl
  case ack =>
    intro st so n h hq
    refine ⟨h.1, fun hs => ?_⟩
    have hf := h.2 hs
    exact ⟨hq.2 (hs.resolve_left hq.1), hf.open_, hf.error, hf.isconnected⟩
  case finWait2 => exact fun _ => other (by decide) (by decide)
  case disconnected =>
    intro st so h hst
    refine other h.1 ?_
    revert hst
    cases st <;> decide
  case timeWait => exact fun _ _ => other (by decide) (by decide)
  case cantrcvmore => exact fun h => h.congr rfl
  case closeWait =>
    rintro st so h (rfl | rfl)
    · cases h.1
    · exact ⟨by decide, fun _ => h.2 (.inl rfl)⟩
  case closing => exact fun _ => other (by decide) (by decide)
  case recv => exact fun n h => h.congr rfl
  case rcvFlush => exact fun h => h.congr rfl
  case flushed => exact fun _ => trivial
  case shutdown =>
    intro st so _ hcl _
    obtain ⟨h1, h2⟩ := usrclosed_maySend hcl
    exact other h1 h2
  case disconnect =>
    intro st so _ hst
    have hcl : usrclosedState st ≠ .closed := by
      revert hst
      cases st <;> decide
    obtain ⟨h1, h2⟩ := usrclosed_maySend hcl
    exact other h1 h2
  case nofdref => exact fun b h => h.congr rfl
  case rcvbuf => exact fun n h => h.congr rfl
  case keepalive => exact fun on h => h.congr rfl
  case linger => exact fun on t h => h.congr rfl

/-- The user of a connected socket is behind the handshake. -/
def Connected (st : TcpState) (so : SocketTcp) : Prop :=
  so.ssIsconnected = true → st.haveEstablished = true

theorem connected_inv : SockInv (fun _ _ _ => True) (fun _ => True) Connected := by
  constructor
  case synReceived =>
    rintro st so h (rfl | rfl) hc <;> cases h hc
  case connected => exact fun _ _ _ => rfl
  case append => exact fun m h _ _ => h
  case ack => exact fun n h _ => h
  case finWait2 => exact fun _ _ => rfl
  case disconnected => exact fun _ _ hc => by cases hc
  case timeWait => exact fun _ _ _ => rfl
  case cantrcvmore => exact fun h => h
  case closeWait => exact fun _ _ _ => rfl
  case closing => exact fun _ _ => rfl
  case recv => exact fun n h => h
  case rcvFlush => exact fun h => h
  case flushed => exact fun _ => trivial
  case shutdown => exact fun _ hcl _ _ => (usrclosed_maySend hcl).1
  case disconnect =>
    intro st so _ hst _
    revert hst
    cases st <;> decide
  case nofdref => exact fun b h => h
  case rcvbuf => exact fun n h => h
  case keepalive => exact fun on h => h
  case linger => exact fun on t h => h

/-! ## Signals -/

/-- The ACK that is processed. -/
def newAck (e : InEnv) (s : Seg) (c : Conn) : Option InSt :=
  match inputAck e s c with
  | .ok x => if acksNew x then some x else none
  | .error _ => none

theorem acksNew_acked {x : InSt} (h : acksNew x = true) : 0 < ackAcked x := by
  simp only [acksNew, Bool.and_eq_true, Bool.not_eq_true', seqLeq, decide_eq_false_iff_not] at h
  exact Int.not_le.mp h.1

/-- The signal of an ACK in `ESTABLISHED`. -/
theorem sowWakes_ack {queued : Bool} {x : InSt} (hst : c.tp.tState.haveEstablished = true)
    (hx : inputAck e s c = .ok x) (hn : acksNew x = true) (he : x.tp.tState = .established) :
    sowWakes queued c (.input e s) = true := by
  have hw : ackWakes x = true := by
    unfold ackWakes
    rw [hn, he]
    simpa using acksNew_acked hn
  have hhead : headWakes queued e s c = true := by
    unfold headWakes
    rw [inputSetup_tState]
    unfold inputAck at hx
    split
    · rename_i hl
      rw [hl] at hst
      cases hst
    · rename_i hl
      rw [hl] at hst
      cases hst
    · cases hy : inputChecks e (inputSetup e s c) with
      | error r =>
        rw [hy] at hx
        cases hx
      | ok y =>
        rw [hy] at hx
        have hz : ackSynReceived y = .ok x := hx
        dsimp only
        rw [hz]
        simp [hw]
  have hcl : c.tp.tState ≠ .closed := by
    intro hc
    rw [hc] at hst
    cases hst
  unfold sowWakes inputWakes
  simp [hhead, hcl]

/-- An ACK that makes room in `CLOSE_WAIT`. -/
def missedSignal (c : Conn) : Event → Bool
  | .input e s =>
    match newAck e s c with
    | some x =>
      decide (x.tp.tState = .closeWait) && decide (0 < sbspace (sbdrop x.so.soSnd (ackDrop x)))
    | none => false
  | _ => false

/-- `setsockopt(SO_SNDBUF)`. -/
def setsSndbuf : Event → Bool
  | .sockopt (.sndbuf _) => true
  | _ => false

/-- **An event without a signal** leaves the socket of a waiting task full, or frees room in
    `CLOSE_WAIT`. -/
theorem Full.other {queued : Bool} {ev : Event} (h : Full c.tp.tState c.so)
    (hw : sowWakes queued c ev = false) (hm : missedSignal c ev = false)
    (hb : setsSndbuf ev = false) : (connStep c ev).Sock Full := by
  refine connStep_sock full_inv h (fun _ _ _ _ _ => trivial) ?_ ?_ fun n he => ?_
  · rintro e s x rfl hx hn
    refine ⟨fun he => ?_, fun hc => ?_⟩
    · rw [sowWakes_ack h.1 hx hn he] at hw
      cases hw
    · simp only [missedSignal, newAck, hx, hn, if_true, hc, decide_true, Bool.true_and,
        decide_eq_false_iff_not, Int.not_lt] at hm
      exact hm
  · rintro data oob env rfl ha _
    refine ⟨h.1, fun hs => ?_⟩
    have := (h.2 hs).space
    have := ha.space
    omega
  · rw [he] at hb
    cases hb

/-! ## Runs -/

/-- The task is going to wait on the semaphore, and no signal is pending; or it waits. -/
def SendSock.waits (s : SendSock) : Bool :=
  match s.pc with
  | .released _ => !s.sem
  | .blocked _ => true
  | _ => false

/-- The events are those of the protocol, the timers and the user other than `setsockopt(SO_SNDBUF)`,
    and no ACK makes room in `CLOSE_WAIT` while the task waits. -/
def Signalled (s : SendSock) : SendEvent → Prop
  | .other ev _ =>
    setsSndbuf ev = false ∧ (s.waits = true → missedSignal s.conn ev = false)
  | _ => True

instance (s : SendSock) : ∀ ev, Decidable (Signalled s ev)
  | .other _ _ => inferInstanceAs (Decidable (_ ∧ (_ → _)))
  | .call _ => .isTrue trivial
  | .turn _ => .isTrue trivial
  | .wait => .isTrue trivial

/-- The invariant of a socket with a sending task. -/
structure WaitOk (s : SendSock) : Prop where
  ok : SendOk s
  connected : s.pcb = true → Connected s.conn.tp.tState s.conn.so
  full : s.waits = true → s.pcb = true ∧ Full s.conn.tp.tState s.conn.so

theorem SendSock.wakeup_waits (s : SendSock) : s.wakeup.waits = false := by
  unfold SendSock.wakeup
  split
  · rfl
  · rename_i hn
    unfold SendSock.waits
    dsimp only
    split
    · rfl
    · rename_i buf h
      exact absurd h (hn buf)
    · rfl

theorem WaitOk.other {s : SendSock} (h : WaitOk s) {ev : Event} {queued : Bool}
    (hg : Signalled s (.other ev queued)) : WaitOk (s.other ev queued) := by
  by_cases hp : s.pcb = true
  swap
  · have he : s.other ev queued = s := by
      unfold SendSock.other
      rw [if_neg hp]
    rw [he]
    exact h
  obtain ⟨h1, h2, -⟩ := s.other_conn ev queued hp
  have hcon : (connStep s.conn ev).Sock Connected :=
    connStep_sock connected_inv (h.connected hp) (fun _ _ _ _ _ => trivial)
      (fun _ _ _ _ _ _ => trivial) (fun _ _ _ _ _ _ => h.connected hp) (fun _ _ => h.connected hp)
  refine ⟨h.ok.other ev queued, fun hg' => ?_, fun hw => ?_⟩
  · rw [h1]
    exact hcon.conn (by rw [h2] at hg'; simpa using hg')
  · cases hsig : sowWakes queued s.conn ev with
    | true =>
      have hn : (s.other ev queued).waits = false := by
        unfold SendSock.other
        rw [if_pos hp, hsig]
        exact SendSock.wakeup_waits _
      rw [hn] at hw
      cases hw
    | false =>
      have he : s.other ev queued =
          { s with conn := (connStep s.conn ev).conn, pcb := !(connStep s.conn ev).gone } := by
        unfold SendSock.other
        rw [if_pos hp, hsig]
        rfl
      have hgone : (connStep s.conn ev).gone = false := by
        unfold sowWakes at hsig
        exact (Bool.or_eq_false_iff.mp hsig).1
      have hw' : s.waits = true := by rw [he] at hw; exact hw
      have hf := (h.full hw').2.other hsig (hg.2 hw') hg.1
      rw [h1, h2, hgone]
      exact ⟨rfl, hf.conn hgone⟩

/-- The test that makes the task wait. -/
theorem sendTurn_wait {env : Nat → ChunkEnv} {buf : List UInt8} (h : sendTurn env buf c = none) :
    FullSock c.so := by
  unfold sendTurn at h
  split at h
  · cases h
  · rename_i ht
    unfold sendTest at ht
    split at ht
    · cases ht
    rename_i h1
    split at ht
    · cases ht
    rename_i h2
    split at ht
    · cases ht
    rename_i h3
    split at ht
    · rename_i h4
      exact ⟨h4, by simpa using h1, not_not.mp h2, by simpa using h3⟩
    · cases ht
  · cases h

theorem WaitOk.step {s s' : SendSock} {ev : SendEvent} (h : WaitOk s) (hg : Signalled s ev)
    (hs : (sendMachine s ev).1 = some s') : WaitOk s' := by
  have hok := h.ok.step hs
  cases ev with
  | other ev queued =>
    cases hs
    exact h.other hg
  | call buf =>
    simp only [sendMachine, Option.some.injEq] at hs
    split at hs
    · rw [← hs] at hok ⊢
      exact ⟨hok, h.connected, fun hw => by cases hw⟩
    · rw [← hs]
      exact h
  | turn env =>
    unfold sendMachine at hs
    dsimp only at hs
    split at hs
    · rename_i buf hpc
      split at hs
      · rename_i d hd
        cases hs
        refine ⟨hok, fun hp => ?_, fun hw => by cases hw⟩
        have hso := sendTurn_so hd
        have hst := sendTurn_tState hd
        dsimp only
        rw [hso, hst]
        exact h.connected hp
      · rename_i hd
        cases hs
        have hf := sendTurn_wait hd
        have hp : s.pcb = true := by
          cases hp : s.pcb with
          | true => rfl
          | false =>
            have := h.ok.shut hp
            rw [hf.open_] at this
            cases this
        exact ⟨hok, h.connected, fun _ => ⟨hp, h.connected hp hf.isconnected, fun _ => hf⟩⟩
    · cases hs
      exact h
  | wait =>
    unfold sendMachine at hs
    dsimp only at hs
    split at hs
    · rename_i buf hpc
      cases hs
      split
      · exact ⟨by simpa [*] using hok, h.connected, fun hw => by cases hw⟩
      · rename_i hsem
        have hw : s.waits = true := by
          unfold SendSock.waits
          rw [hpc]
          simpa using hsem
        exact ⟨by simpa [*] using hok, h.connected, fun _ => h.full hw⟩
    · cases hs
      exact h

/-- **No blocked sender is forgotten**: a task that waits on `so_snd.sb_sem` has nothing to do, in every
    run in which no ACK makes room in `CLOSE_WAIT` while the task waits; and `tcp_close` leaves no task
    waiting. -/
theorem no_forgotten_sender {c₀ : Conn} (hc : Start c₀) (he : c₀.so.soError = 0)
    {es : List SendEvent} (hg : Machine.Guarded sendMachine Signalled (some { conn := c₀ }) es)
    {s : SendSock} (hs : (Machine.run sendMachine (some { conn := c₀ }) es).1 = some s)
    {buf : List UInt8} (hpc : s.pc = .blocked buf) :
    s.pcb = true ∧ (s.conn.tp.tState.maySend → FullSock s.conn.so) := by
  have hstart : WaitOk { conn := c₀ } := by
    refine ⟨⟨fun _ => he, fun hp => (by cases hp), fun buf hb => (by cases hb)⟩, fun _ hi => ?_,
      fun hw => (by cases hw)⟩
    cases hc with
    | active iss so h => cases hi
    | passive so h =>
      have hf := h.isconnected
      rw [show so.ssIsconnected = true from hi] at hf
      cases hf
  have h : WaitOk s := by
    refine (Machine.run_invariant WaitOk (fun _ => True) ?_ ?_ hg).1 s hs
    · exact fun s ev h hev => ⟨fun s' hs' => h.step hev hs', fun _ _ => trivial⟩
    · intro s' hs'
      cases hs'
      exact hstart
  obtain ⟨h1, h2⟩ := h.full (by unfold SendSock.waits; rw [hpc])
  exact ⟨h1, h2.2⟩

/-- A socket with four bytes of send space. -/
def fourSocket : SocketTcp := { newSocket with soSnd := { sbHiwat := 4 } }

theorem fourSocket_fresh : FreshSocket fourSocket := by constructor <;> decide

/-- Four bytes fill the buffer, and the call with a fifth one waits: its first wait takes the signal of
    `soisconnected`. -/
def blockedEvents : List SendEvent :=
  (connectEvents 100).map (.other · false) ++
    [.call [1, 2, 3, 4], .turn fun _ => {}, .call [5], .turn fun _ => {}, .wait, .turn fun _ => {},
     .wait]

def blockedRun : Option SendSock :=
  (Machine.run sendMachine (some { conn := activeOpen 1 fourSocket }) blockedEvents).1

theorem blockedRun_isSome : blockedRun.isSome = true := by decide +kernel

def blockedSock : SendSock := blockedRun.get blockedRun_isSome

theorem no_forgotten_sender_full_buffer : FullSock blockedSock.conn.so := by
  have hg : Machine.Guarded sendMachine Signalled (some { conn := activeOpen 1 fourSocket })
      blockedEvents := by decide +kernel
  have hs : (Machine.run sendMachine (some { conn := activeOpen 1 fourSocket }) blockedEvents).1 =
      some blockedSock := (Option.some_get blockedRun_isSome).symm
  have hpc : blockedSock.pc = .blocked [5] := by decide +kernel
  exact (no_forgotten_sender (.active 1 fourSocket fourSocket_fresh) (by decide) hg hs hpc).2
    (by decide +kernel)

/-- The peer sends its FIN, and then the ACK of the four bytes. -/
def missedEvents : List SendEvent :=
  blockedEvents ++
    [.other (.input {} (Seg.bare { thSeq := 101, thAck := 2, thFlags := { ack := true, fin := true },
                                   thWin := 100 })) false,
     .other (.input {} (Seg.bare { thSeq := 102, thAck := 6, thFlags := { ack := true },
                                   thWin := 100 })) false]

/-- The task stays blocked with four bytes of space. -/
theorem ack_in_close_wait_forgets_sender :
    ¬ ∀ (es : List SendEvent) (s : SendSock),
      (∀ ev ∈ es, ∀ n q, ev ≠ .other (.sockopt (.sndbuf n)) q) →
      (Machine.run sendMachine (some { conn := activeOpen 1 fourSocket }) es).1 = some s →
      s.pc = .blocked [5] → s.conn.tp.tState.maySend → sbspace s.conn.so.soSnd ≤ 0 := by
  intro h
  have hrun : (Machine.run sendMachine (some { conn := activeOpen 1 fourSocket }) missedEvents).1.any
      (fun s => decide (s.pc = .blocked [5] ∧ s.conn.tp.tState.maySend ∧
        0 < sbspace s.conn.so.soSnd)) = true := by decide +kernel
  obtain ⟨s, hs, hp⟩ := (Option.any_eq_true _ _).mp hrun
  obtain ⟨h1, h2, h3⟩ := of_decide_eq_true hp
  have hno : ∀ ev ∈ missedEvents, ∀ n q, ev ≠ .other (.sockopt (.sndbuf n)) q := by
    intro ev hev n q he
    rw [he] at hev
    simp [missedEvents, blockedEvents, connectEvents] at hev
  exact absurd (h missedEvents s hno hs h1 h2) (Int.not_le.mpr h3)

end TnNet
