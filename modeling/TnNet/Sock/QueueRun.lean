import TnNet.Sock.Attach

/-!
# Runs of listening sockets

Sockets are made and set to listen, SYNs arrive for them, handshakes complete, connections are accepted, and
connections end, in any order.  The runs are those in which `tcp_attach` gets the blocks it asks for and no
listening socket is closed.

* `accept_queues_ok` — in every state of such a run the two queues of every listening socket are chained as
  the counters say, within the limit, and `tcp_s_accept` returns the connections in the order in which their
  handshakes completed.
-/

set_option autoImplicit false

namespace TnSock

open Chain

variable {N M : Nat} {n n' n₁ : Net N M} {a b c t L s : Fin N} {e i x : Fin M} {k k' : SoQ}
variable {que que' : SoQ → Fin N → List (Fin N)} {g : Grants N M}

/-! ## Runs -/

inductive SockEvent (N M : Nat) where
  | socket (domain type : Int) (avail : Bool) (g : Grants N M)
  | listen (s : Fin N) (backlog : Int) (rc : Nat)
  | accept (s : Fin N) (nam : Bool)
  | sonewconn (head : Fin N) (g : Grants N M)
  | soisconnected (so : Fin N)
  | tcpClose (t : Fin N)
  | tcpDrop (t : Fin N) (errno : Nat)

/-- What is seen of the queues. -/
inductive SockObs (N M : Nat) where
  /-- The handshake of a connection to the listening socket `head` is complete. -/
  | completed (head so : Fin N)
  | aborted (so : Fin N)
  | accepted (head so : Fin N)
  | fault (f : Fault N M)

def SockEvent.run : SockEvent N M → Call N M (List (SockObs N M))
  | .socket domain type avail g => do
    let _ ← tcpSSocket domain type avail g
    pure []
  | .listen s backlog rc => do
    let _ ← tcpSListen s backlog rc
    pure []
  | .accept s nam => do
    match ← tcpSAccept s nam with
    | .socket c => pure [.accepted s c]
    | _ => pure []
  | .sonewconn head g => do
    let _ ← TnSock.sonewconn head g
    pure []
  | .soisconnected so => do
    let s ← readSo so
    TnSock.soisconnected so
    match s.soHead with
    | some head => pure [.completed head so]
    | none => pure []
  | .tcpClose t => do
    let so ← socketOf t
    TnSock.tcpClose t
    pure [.aborted so]
  | .tcpDrop t errno => do
    let so ← socketOf t
    TnSock.tcpDrop t errno
    pure [.aborted so]

def sockStep : Machine.Step (Net N M) (SockEvent N M) (SockObs N M) := fun n ev =>
  match ev.run n with
  | .ok (obs, n') => (some n', obs)
  | .error f => (none, [.fault f])

/-- If the pools have the blocks of a new socket, they also have its control blocks. -/
def Grants.Attaches (n : Net N M) (g : Grants N M) : Prop :=
  ∀ a e, g.so = some a → n.mid1 a = none → g.ex = some e → n.lo e = none →
    ∃ i t, g.inp = some i ∧ g.tp = some t ∧ FreeBlocks n a e i t

/-- The user calls with sockets that are in use, `tcp_input` calls `sonewconn` for a listening socket, no
    listening socket is closed, and `tcp_attach` does not fail. -/
def SockEvent.Orderly (n : Net N M) : SockEvent N M → Prop
  | .socket _ _ _ g => g.Attaches n
  | .listen s _ _ => n.OffQueue s
  | .accept s _ => n.mid1 s = some .socket
  | .sonewconn head g => n.listens head ∧ g.Attaches n
  | .soisconnected so => n.mid1 so = some .socket
  | .tcpClose t | .tcpDrop t _ => n.mid1 t = some .tcpcb ∧
      ∀ i a, (n.tp t).tInpcb = some i → (n.inp i).inpSocket = some a → (n.so a).acceptConn = false

/-! ## The invariant -/

structure NetInv (n : Net N M) (que : SoQ → Fin N → List (Fin N)) : Prop where
  blocks : BlockInv n
  queues : QueueInv n que
  limit : ∀ a, n.listens a → 0 ≤ (n.so a).soQlimit ∧
    ((que .soQ0 a).length + (que .soQ a).length : Int) ≤ 3 * (n.so a).soQlimit / 2 + 1

theorem NetInv.same (h : NetInv n que) (hs : SameBlocks n n') (hq : ∀ b, SameQueue (n.so b) (n'.so b)) :
    NetInv n' que := by
  refine ⟨h.blocks.same hs.ptrs, h.queues.same (by simp [hs.mid1]) hq, ?_⟩
  intro a ha
  rw [(hq a).limit]
  apply h.limit
  exact ⟨hs.mid1 ▸ ha.1, (hq a).acceptConn.symm.trans ha.2⟩

theorem NetInv.setSo {f : SocketTcp N M → SocketTcp N M} (h : NetInv n que) (hr : ∀ s, SameRest s (f s))
    (hq : ∀ s, SameQueue s (f s)) (a : Fin N) : NetInv (n.setSo a f) que :=
  h.same (SameBlocks.setSo hr a) (setSo_queue hq)

theorem BlockInv.setTp {f : Tcpcb M → Tcpcb M} (h : BlockInv n) (hf : ∀ p, (f p).tInpcb = p.tInpcb) :
    BlockInv (n.setTp t f) := by
  have htp : ∀ u, ((n.setTp t f).tp u).tInpcb = (n.tp u).tInpcb := by
    intro u
    rcases eq_or_ne u t with rfl | hu
    · simp [Net.setTp, hf]
    · simp [Net.setTp, hu]
  refine ⟨h.ex, h.ex_inj, h.pcb, ?_, ?_, ⟨h.lists.exs, h.lists.tcbs⟩, h.exs_nodup, h.tcb_nodup⟩
  · intro i hi
    obtain ⟨a, u, h1, h2, h3, h4, h5, h6⟩ := h.inp i hi
    exact ⟨a, u, h1, h2, h3, h4, h5, (htp u).trans h6⟩
  · intro u hu
    obtain ⟨i, h1, h2⟩ := h.tp u hu
    exact ⟨i, (htp u).trans h1, h2⟩

theorem NetInv.setTp {f : Tcpcb M → Tcpcb M} (h : NetInv n que) (hf : ∀ p, (f p).tInpcb = p.tInpcb) :
    NetInv (n.setTp t f) que :=
  ⟨h.blocks.setTp hf, h.queues.same (fun _ => Iff.rfl) (fun _ => .refl _), h.limit⟩

/-- The contents of a free block do not matter. -/
theorem NetInv.sameLive (h : NetInv n que) (hs : SameLive n n') : NetInv n' que := by
  obtain rfl | ⟨a, v, ha, rfl⟩ := hs
  · exact h
  have hne : ∀ b u, n.mid1 b = some u → b ≠ a := by
    rintro b u hb rfl
    rw [ha] at hb
    cases hb
  have hso : ∀ b, b ≠ a → Function.update n.so a v b = n.so b :=
    fun b hb => Function.update_of_ne hb v n.so
  refine ⟨?_, ?_, ?_⟩
  · obtain ⟨h1, h2, h3, h4, h5, h6, h7, h8⟩ := h.blocks
    refine ⟨?_, ?_, ?_, ?_, h5, ⟨h6.exs, h6.tcbs⟩, h7, h8⟩
    · intro b hb
      dsimp only
      rw [hso b (hne b _ hb)]
      exact h1 b hb
    · intro b d hb hd
      dsimp only
      rw [hso b (hne b _ hb), hso d (hne d _ hd)]
      exact h2 b d hb hd
    · intro b hb
      dsimp only
      rw [hso b (hne b _ hb)]
      exact h3 b hb
    · intro j hj
      obtain ⟨b, u, g1, g2, g3, g4⟩ := h4 j hj
      refine ⟨b, u, g1, g2, ?_, g4⟩
      dsimp only
      rw [hso b (hne b _ g2)]
      exact g3
  · apply h.queues.frame
    · intro b hb
      left
      refine ⟨hb, ?_⟩
      dsimp only
      rw [hso b (hne b _ hb)]
      exact .refl _
    · intro b hb
      exact .inl hb
  · intro b hb
    have hb' := hb
    unfold Net.listens at hb'
    dsimp only at hb' ⊢
    rw [hso b (hne b _ hb.1)] at hb' ⊢
    exact h.limit b hb'

/-! ## The events -/

/-- What one observation does to the completed connections of a listening socket that wait. -/
def SockObs.apply (L : Fin N) (q : List (Fin N)) : SockObs N M → List (Fin N)
  | .completed h c => if h = L ∧ c ∉ q then q ++ [c] else q
  | .aborted c => q.erase c
  | .accepted h c => if h = L then q.erase c else q
  | .fault _ => q

/-- A step ends without a fault, keeps the invariant, and moves the queues as it is seen to. -/
def StepOk (n : Net N M) (que : SoQ → Fin N → List (Fin N)) (ev : SockEvent N M) : Prop :=
  ∃ obs n' que', ev.run n = .ok (obs, n') ∧ NetInv n' que' ∧ obs.length ≤ 1 ∧
    (∀ L, que' .soQ L = obs.foldl (SockObs.apply L) (que .soQ L)) ∧
    ∀ h c, .accepted h c ∈ obs → (que .soQ h).head? = some c

theorem StepOk.silent {ev : SockEvent N M} (hr : ev.run n = .ok ([], n')) (h : NetInv n' que')
    (hq : ∀ L, que' .soQ L = que .soQ L) : StepOk n que ev :=
  ⟨[], n', que', hr, h, by simp, hq, by simp⟩

/-- The invariant with a new connection. -/
theorem NetInv.added (h : NetInv n que) (hd : Added n n' a e i t) (hq : QueueInv n' que')
    (hlim : ∀ b, b ≠ a → SameLimit (n.so b) (n'.so b)) (hacc : (n'.so a).acceptConn = false)
    (hlen : ∀ b, n.listens b → ((que' .soQ0 b).length + (que' .soQ b).length : Int) ≤
      3 * (n.so b).soQlimit / 2 + 1) : NetInv n' que' := by
  refine ⟨h.blocks.added hd, hq, ?_⟩
  intro b hb
  have hba : b ≠ a := by
    rintro rfl
    have := hb.2
    simp [hacc] at this
  have hlis : n.listens b := by
    refine ⟨?_, (hlim b hba).acceptConn.symm.trans hb.2⟩
    have hmid := hb.1
    rw [hd.mid1] at hmid
    rcases eq_or_ne b t with rfl | hbt
    · simp at hmid
    · rwa [Function.update_of_ne hbt, Function.update_of_ne hba] at hmid
  rw [(hlim b hba).limit]
  exact ⟨(h.limit b hlis).1, hlen b hlis⟩

theorem step_socket (h : NetInv n que) (domain type : Int) (avail : Bool) (hg : g.Attaches n) :
    StepOk n que (.socket domain type avail g) := by
  by_cases hargs : domain ≠ AF_INET ∨ type ≠ SOCK_STREAM ∨ avail = false
  · apply StepOk.silent _ h fun _ => rfl
    rw [SockEvent.run, run_bind (show tcpSSocket domain type avail g n = .ok (none, n) by
      rw [tcpSSocket, if_pos hargs]; rfl)]
    rfl
  · rcases tnSocketTcpAlloc_cases g.so g.ex n with ⟨n', hr, hs⟩ | ⟨a, e, hso, ha, hex, he⟩
    · apply StepOk.silent _ (h.sameLive hs) fun _ => rfl
      rw [SockEvent.run, run_bind (show tcpSSocket domain type avail g n = .ok (none, n') by
        rw [tcpSSocket, if_neg hargs, run_bind hr]; rfl)]
      rfl
    · obtain ⟨i, t, hinp, htp, hf⟩ := hg a e hso ha hex he
      obtain ⟨so, ex, inp, tp⟩ := g
      dsimp only at hso hex hinp htp
      subst hso hex hinp htp
      simp only [ne_eq, not_or, not_not, Bool.not_eq_false] at hargs
      obtain ⟨hd, ht, rfl⟩ := hargs
      obtain ⟨n', hr, hadd, hq, hlim, hacc⟩ := tcpSSocket_ok ⟨hd, ht⟩ h.queues h.blocks.lists hf
      have hinv : NetInv n' que := by
        apply h.added hadd hq hlim hacc
        intro b hb
        exact (h.limit b hb).2
      apply StepOk.silent _ hinv fun _ => rfl
      rw [SockEvent.run, run_bind hr]
      rfl

theorem step_sonewconn (h : NetInv n que) (hL : n.listens L) (hg : g.Attaches n) :
    StepOk n que (.sonewconn L g) := by
  by_cases hroom : (n.so L).soQlen + (n.so L).soQ0len > 3 * (n.so L).soQlimit / 2
  · apply StepOk.silent _ h fun _ => rfl
    rw [SockEvent.run, run_bind (show sonewconn L g n = .ok (none, n) by
      rw [sonewconn, bind_readSo hL.1, if_pos hroom]; rfl)]
    rfl
  · rcases tnSocketTcpAlloc_cases g.so g.ex n with ⟨n', hr, hs⟩ | ⟨a, e, hso, ha, hex, he⟩
    · apply StepOk.silent _ (h.sameLive hs) fun _ => rfl
      rw [SockEvent.run, run_bind (show sonewconn L g n = .ok (none, n') by
        rw [sonewconn, bind_readSo hL.1, if_neg hroom, run_bind hr]; rfl)]
      rfl
    · obtain ⟨i, t, hinp, htp, hf⟩ := hg a e hso ha hex he
      obtain ⟨so, ex, inp, tp⟩ := g
      dsimp only at hso hex hinp htp
      subst hso hex hinp htp
      have hle : (n.so L).soQlen + (n.so L).soQ0len ≤ 3 * (n.so L).soQlimit / 2 := by omega
      obtain ⟨n', hr, hadd, hq, hlim, hacc⟩ := sonewconn_ok h.queues h.blocks.lists hL hle hf
      apply StepOk.silent _ (h.added hadd hq hlim hacc _)
      · intro b
        rw [setQue_of_ne (by simp)]
      · rw [SockEvent.run, run_bind hr]
        rfl
      · intro b hb
        have hold := (h.limit b hb).2
        rcases eq_or_ne b L with rfl | hbL
        · have h0 := h.queues.len .soQ0 b hb
          have h1 := h.queues.len .soQ b hb
          simp only [SocketTcp.len] at h0 h1
          rw [setQue_self, setQue_of_ne (by simp), List.length_append, List.length_singleton]
          push_cast
          omega
        · rw [setQue_of_ne fun hk => hbL hk.2, setQue_of_ne fun hk => hbL hk.2]
          exact hold

/-- A socket begins to listen. -/
theorem QueueInv.listen {f : SocketTcp N M → SocketTcp N M} (h : QueueInv n que) (hs : n.OffQueue s)
    (hacc : ∀ v, (f v).acceptConn = true) (hhead : ∀ v, (f v).soHead = v.soHead)
    (hlink : ∀ v k, (f v).link k = v.link k) (hlen : ∀ v k, (f v).len k = v.len k) :
    QueueInv (n.setSo s f) que := by
  have hnot : ¬ n.listens s := by
    intro hl
    have := hs.acceptConn
    simp [hl.2] at this
  have hlinks : ∀ k b, (n.setSo s f).links k b = n.links k b := by
    intro k b
    exact setSo_proj (fun v => v.link k) (fun v => hlink v k) b
  have hlis : ∀ b, (n.setSo s f).listens b → b = s ∨ n.listens b := by
    intro b hb
    rcases eq_or_ne b s with rfl | hbs
    · exact .inl rfl
    · right
      have hb2 := hb.2
      rw [setSo_so_of_ne f hbs] at hb2
      exact ⟨hb.1, hb2⟩
  have hkeep : ∀ b, n.listens b → (n.setSo s f).listens b := by
    intro b hb
    have hbs : b ≠ s := by
      rintro rfl
      exact hnot hb
    refine ⟨hb.1, ?_⟩
    rw [setSo_so_of_ne f hbs]
    exact hb.2
  have hoff := h.off s hs.alive hs.acceptConn
  refine ⟨?_, ?_, h.nodup, ?_, ?_, ?_, ?_, ?_⟩
  · intro k b hb
    rcases hlis b hb with rfl | hb
    · rw [h.empty k b hnot]
      exact (hlinks k b).trans ((hoff k).2 hs.soHead)
    · apply (h.links k b hb).frame
      intro x _
      exact hlinks k x
  · intro k b hb
    rw [setSo_proj (fun v => v.len k) (fun v => hlen v k)]
    rcases hlis b hb with rfl | hb
    · rw [h.empty k b hnot, (hoff k).1]
      rfl
    · exact h.len k b hb
  · intro k b x hx
    have hxs : x ≠ s := by
      rintro rfl
      exact h.off_not_mem hs hx
    rw [setSo_so_of_ne f hxs]
    exact h.mem k b x hx
  · intro x b hx hxb
    rw [setSo_proj SocketTcp.soHead hhead] at hxb
    obtain ⟨h1, h2⟩ := h.head x b hx hxb
    exact ⟨hkeep b h1, h2⟩
  · intro b hb
    rw [setSo_proj SocketTcp.soHead hhead]
    rcases hlis b hb with rfl | hb
    · exact hs.soHead
    · exact h.root b hb
  · intro b hb hacc' k
    have hbs : b ≠ s := by
      rintro rfl
      rw [setSo_so_self, hacc] at hacc'
      cases hacc'
    rw [setSo_so_of_ne f hbs] at hacc' ⊢
    exact h.off b hb hacc' k
  · intro k b hb
    apply h.empty
    intro hl
    exact hb (hkeep b hl)

theorem step_listen (h : NetInv n que) (hs : n.OffQueue s) (backlog : Int) (rc : Nat) :
    StepOk n que (.listen s backlog rc) := by
  obtain ⟨e, i, t, hc⟩ := h.blocks.conn_of_socket hs.alive
  by_cases hrc : rc ≠ 0
  · apply StepOk.silent _ h fun _ => rfl
    rw [SockEvent.run, run_bind (show tcpSListen s backlog rc n = .ok (-rc, n) by
      rw [tcpSListen, bind_readSo hs.alive, hc.pcb]
      dsimp only
      rw [bind_readInp hc.inpcb, if_pos hrc]
      rfl)]
    rfl
  · let f : SocketTcp N M → SocketTcp N M := fun v =>
      { v with
        acceptConn := v.acceptConn || v.soQ.isNone
        soQlimit := min (max backlog 0) SOMAXCONN }
    have hsoQ : (n.so s).soQ = none := (h.queues.off s hs.alive hs.acceptConn .soQ).2 hs.soHead
    have hf : (n.setTp t fun t => { t with tState := .listen }).setSo s f = (n.setTp t fun t =>
        { t with tState := .listen }).setSo s fun v =>
          { v with acceptConn := true, soQlimit := min (max backlog 0) SOMAXCONN } := by
      simp [Net.setSo, Net.setTp, f, hsoQ]
    have hrun : tcpSListen s backlog rc n =
        .ok (0, (n.setTp t fun t => { t with tState := .listen }).setSo s f) := by
      rw [tcpSListen, bind_readSo hs.alive, hc.pcb]
      dsimp only
      rw [bind_readInp hc.inpcb, if_neg hrc, hc.inpPpcb]
      dsimp only
      rw [bind_writeTp hc.tcpcb, bind_writeSo (by exact hs.alive)]
      rfl
    rw [hf] at hrun
    have h1 : NetInv (n.setTp t fun t => { t with tState := .listen }) que := h.setTp fun _ => rfl
    have hs1 : (n.setTp t fun t => { t with tState := .listen }).OffQueue s :=
      ⟨hs.alive, hs.acceptConn, hs.soHead⟩
    apply StepOk.silent _ _ fun _ => rfl
    · exact (n.setTp t fun t => { t with tState := .listen }).setSo s fun v =>
        { v with acceptConn := true, soQlimit := min (max backlog 0) SOMAXCONN }
    · rw [SockEvent.run, run_bind hrun]
      rfl
    · refine ⟨?_, ?_, ?_⟩
      · apply h1.blocks.same
        apply SamePtrs.setSo
        · exact fun _ => rfl
        · exact fun _ => rfl
      · apply h1.queues.listen hs1
        · exact fun _ => rfl
        · exact fun _ => rfl
        · intro v k
          cases k <;> rfl
        · intro v k
          cases k <;> rfl
      · intro b hb
        rcases eq_or_ne b s with rfl | hbs
        · have hnot : ¬ n.listens b := by
            intro hl
            have := hs.acceptConn
            simp [hl.2] at this
          rw [setSo_so_self, h.queues.empty _ b hnot, h.queues.empty _ b hnot]
          simp only [List.length_nil, SOMAXCONN]
          omega
        · have hb2 := hb.2
          rw [setSo_so_of_ne _ hbs] at hb2 ⊢
          exact h.limit b ⟨hb.1, hb2⟩

/-- A socket that is on no queue may change its flags. -/
theorem QueueInv.offFlags {f : SocketTcp N M → SocketTcp N M} (h : QueueInv n que) (hc : n.OffQueue c)
    (hacc : ∀ v, (f v).acceptConn = v.acceptConn) (hhead : ∀ v, (f v).soHead = v.soHead)
    (hlink : ∀ v k, (f v).link k = v.link k) (hlen : ∀ v k, (f v).len k = v.len k) :
    QueueInv (n.setSo c f) que := by
  have hfree : QueueInv (n.useMid1 c none) que := h.freed hc rfl fun _ _ => rfl
  have hoff := h.off c hc.alive hc.acceptConn
  apply hfree.fresh (a := c)
  · simp [Net.useMid1]
  · simp [Net.useMid1, ← hc.alive]
  · intro b hb
    exact setSo_so_of_ne f hb
  · rw [setSo_so_self, hacc]
    exact hc.acceptConn
  · rw [setSo_so_self, hhead]
    exact hc.soHead
  · intro k
    rw [setSo_so_self, hlen, hlink]
    exact ⟨(hoff k).1, (hoff k).2 hc.soHead⟩

/-- The invariant when queues get shorter or one socket moves between the queues of one socket. -/
theorem NetInv.moved (h : NetInv n que) (hb : BlockInv n') (hq : QueueInv n' que')
    (hlim : ∀ b, n'.listens b → n.listens b ∧ (n'.so b).soQlimit = (n.so b).soQlimit)
    (hlen : ∀ b, (que' .soQ0 b).length + (que' .soQ b).length ≤
      (que .soQ0 b).length + (que .soQ b).length) : NetInv n' que' := by
  refine ⟨hb, hq, ?_⟩
  intro b hlis
  obtain ⟨h1, h2⟩ := hlim b hlis
  have h3 := h.limit b h1
  have h4 := hlen b
  rw [h2]
  omega

/-- `soaccept` gives the socket to the user. -/
def SocketTcp.takenUp (s : SocketTcp N M) : SocketTcp N M := { s with nofdref := false }

/-- The state behind an accept of `c` from the listening socket `L`. -/
def Net.accepted (n : Net N M) (L c : Fin N) : Net N M :=
  (n.unlinkQ L L c .soQ).setSo c SocketTcp.takenUp

/-- The first socket of `so_q` leaves its queue. -/
theorem NetInv.accepted (h : NetInv n que) {l : List (Fin N)} (hque : que .soQ L = c :: l) :
    NetInv (n.accepted L c) (setQue que .soQ L l) := by
  have hque' : que .soQ L = [] ++ c :: l := hque
  have hc : c ∈ que .soQ L := by simp [hque]
  obtain ⟨hlive, -, -, hacc⟩ := h.queues.mem .soQ L c hc
  have hrest := unlinkQ_rest n L L c .soQ
  have hoff : (n.unlinkQ L L c .soQ).OffQueue c :=
    ⟨hlive, (hrest c).acceptConn.trans hacc, unlinkQ_self_soHead⟩
  have hsame := SameBlocks.unlinkQ n L L c .soQ
  apply h.moved
  · apply (h.blocks.same hsame.ptrs).same
    apply SamePtrs.setSo
    · exact fun _ => rfl
    · exact fun _ => rfl
  · apply QueueInv.offFlags (h.queues.unlinkQ hque') hoff
    · exact fun _ => rfl
    · exact fun _ => rfl
    · intro v k
      cases k <;> rfl
    · intro v k
      cases k <;> rfl
  · intro b hb
    have hb2 := hb.2
    rw [Net.accepted, setSo_proj (f := SocketTcp.takenUp) SocketTcp.acceptConn fun _ => rfl,
      (hrest b).acceptConn] at hb2
    rw [Net.accepted, setSo_proj (f := SocketTcp.takenUp) SocketTcp.soQlimit fun _ => rfl]
    exact ⟨⟨hb.1, hb2⟩, (hrest b).limit⟩
  · intro b
    rcases eq_or_ne b L with rfl | hbL
    · rw [setQue_self, setQue_of_ne (by simp), hque, List.length_cons]
      omega
    · rw [setQue_of_ne fun hk => hbL hk.2, setQue_of_ne fun hk => hbL hk.2]

/-- The first socket of `so_q` is found and can be taken off. -/
theorem first_ok (h : NetInv n que) (hL : n.listens L) {l : List (Fin N)} (hque : que .soQ L = c :: l) :
    (n.so L).soQ = some c ∧ soqremque c .soQ n = .ok (true, n.unlinkQ L L c .soQ) ∧
      n.mid1 c = some .socket ∧ ((n.unlinkQ L L c .soQ).so c).nofdref = true := by
  have hc : c ∈ que .soQ L := by simp [hque]
  obtain ⟨hlive, -, hfd, -⟩ := h.queues.mem .soQ L c hc
  have hlink := h.queues.links .soQ L hL
  rw [hque] at hlink
  have hsplit : que .soQ L = [] ++ c :: l := hque
  exact ⟨hlink.1, soqremque_ok h.queues hsplit, hlive,
    (unlinkQ_rest n L L c .soQ c).nofdref.trans hfd⟩

/-- The first socket of `so_q` is accepted. -/
theorem acceptFirst_ok (h : NetInv n que) (hL : n.listens L) {l : List (Fin N)}
    (hque : que .soQ L = c :: l) (hi : n.lo i = some .inpcb) :
    acceptFirst i (n.so L) n = .ok (.socket c, n.accepted L c) := by
  obtain ⟨hsoQ, hrem, hlive, hfd⟩ := first_ok h hL hque
  rw [acceptFirst, hsoQ, bind_deref, run_bind hrem, if_pos rfl, bind_readSo (by exact hlive), if_pos hfd,
    bind_writeSo (by exact hlive), run_bind (touchInp_ok (by exact hi))]
  rfl

theorem step_accept (h : NetInv n que) (hs : n.mid1 s = some .socket) (nam : Bool) :
    StepOk n que (.accept s nam) := by
  obtain ⟨e, i, t, hc⟩ := h.blocks.conn_of_socket hs
  have hquiet : ∀ r n', (∀ c, r ≠ .socket c) → tcpSAccept s nam n = .ok (r, n') → NetInv n' que →
      StepOk n que (.accept s nam) := by
    intro r n' hr hrun hinv
    apply StepOk.silent _ hinv fun _ => rfl
    rw [SockEvent.run, run_bind hrun]
    cases r with
    | error => rfl
    | wait => rfl
    | socket c => exact absurd rfl (hr c)
  have hhead : tcpSAccept s nam n =
      (if ¬ (n.so s).acceptConn ∨ ((n.so s).nbio ∧ (n.so s).soQlen = 0) then
        pure .error
      else if (n.so s).soQlen = 0 ∧ (n.so s).soError = 0 ∧ ¬ (n.so s).cantRcvMore then do
        touchEx (← deref (n.so s).socketEx)
        pure .wait
      else if (n.so s).soQlen = 0 ∨ (n.so s).soError ≠ 0 then do
        writeSo s fun s => { s with soError := 0 }
        pure .error
      else if nam then
        acceptFirst i (n.so s)
      else
        pure .error : Call N M (Accepted N)) n := by
    rw [tcpSAccept, bind_readSo hs, hc.pcb]
  split at hhead
  · exact hquiet _ _ (by simp) hhead h
  · rename_i hacc
    split at hhead
    · rw [hc.ex, bind_deref, bind_touchEx hc.socketEx] at hhead
      exact hquiet _ _ (by simp) hhead h
    · split at hhead
      · rw [bind_writeSo hs] at hhead
        apply hquiet _ _ (by simp) hhead
        apply h.setSo
        · intro v
          exact ⟨rfl, rfl, rfl, rfl, rfl⟩
        · intro v
          exact .of_fields rfl rfl rfl rfl rfl rfl rfl rfl
      · rename_i hlen
        split at hhead
        · simp only [Bool.not_eq_true, not_or, Bool.not_eq_false] at hacc hlen
          have hL : n.listens s := ⟨hs, hacc.1⟩
          have hql := h.queues.len .soQ s hL
          cases hque : que .soQ s with
          | nil =>
            rw [hque] at hql
            exact absurd hql hlen.1
          | cons c l =>
            rw [acceptFirst_ok h hL hque hc.inpcb] at hhead
            refine ⟨[.accepted s c], _, _, ?_, h.accepted hque, by simp, ?_, ?_⟩
            · rw [SockEvent.run, run_bind hhead]
              rfl
            · intro b
              rcases eq_or_ne b s with rfl | hbs
              · rw [setQue_self, hque]
                simp [SockObs.apply]
              · rw [setQue_of_ne fun hk => hbs hk.2]
                simp [SockObs.apply, hbs.symm]
            · intro x y hxy
              simp only [List.mem_singleton, SockObs.accepted.injEq] at hxy
              obtain ⟨rfl, rfl⟩ := hxy
              rw [hque]
              rfl
        · exact hquiet _ _ (by simp) hhead h

/-- The flags `soisconnected` sets. -/
def SocketTcp.connected (s : SocketTcp N M) : SocketTcp N M :=
  { s with isConnecting := false, isDisconnecting := false, isConnected := true }

theorem NetInv.connected (h : NetInv n que) (c : Fin N) : NetInv (n.setSo c SocketTcp.connected) que := by
  apply h.setSo
  · intro v
    exact ⟨rfl, rfl, rfl, rfl, rfl⟩
  · intro v
    exact .of_fields rfl rfl rfl rfl rfl rfl rfl rfl

/-- A connection moves from `so_q0` to the end of `so_q`. -/
theorem move_ok (h : NetInv n que) (hc : c ∈ que .soQ0 L) :
    ∃ n₁ n' que', soqremque c .soQ0 n = .ok (true, n₁) ∧ soqinsque L c .soQ n₁ = .ok ((), n') ∧
      NetInv n' que' ∧ SamePtrs n n' ∧ ∀ b, que' .soQ b = if b = L then que .soQ L ++ [c]
      else que .soQ b := by
  have hL := h.queues.listens_of_mem hc
  obtain ⟨hlive, hhead, hfd, hacc⟩ := h.queues.mem .soQ0 L c hc
  obtain ⟨l₁, l₂, hque⟩ := List.append_of_mem hc
  have hr1 := unlinkQ_rest n L (l₁.getLastD L) c .soQ0
  have hq1 := h.queues.unlinkQ hque
  have hL1 : (n.unlinkQ L (l₁.getLastD L) c .soQ0).listens L := ⟨hL.1, (hr1 L).acceptConn.trans hL.2⟩
  have hoff : (n.unlinkQ L (l₁.getLastD L) c .soQ0).OffQueue c :=
    ⟨hlive, (hr1 c).acceptConn.trans hacc, unlinkQ_self_soHead⟩
  have hsoQ : setQue que .soQ0 L (l₁ ++ l₂) .soQ L = que .soQ L := setQue_of_ne (by simp)
  have hins := soqinsque_ok hq1 hL1 hoff (k := .soQ)
  have hq2 := hq1.insertQ hL1 hoff (k := .soQ) ((hr1 c).nofdref.trans hfd)
  rw [hsoQ] at hins hq2
  have hr2 := insertQ_rest (n.unlinkQ L (l₁.getLastD L) c .soQ0) L ((que .soQ L).getLastD L) c .soQ
  have hrest := fun b => (hr1 b).trans (hr2 b)
  have hsame := (SameBlocks.unlinkQ n L (l₁.getLastD L) c .soQ0).trans
    (.insertQ _ L ((que .soQ L).getLastD L) c .soQ)
  refine ⟨_, _, setQue (setQue que .soQ0 L (l₁ ++ l₂)) .soQ L (que .soQ L ++ [c]),
    soqremque_ok h.queues hque, hins, ?_, hsame.ptrs, ?_⟩
  · apply h.moved (h.blocks.same hsame.ptrs) hq2
    · intro b hb
      exact ⟨⟨hb.1, (hrest b).acceptConn.symm.trans hb.2⟩, (hrest b).limit⟩
    · intro b
      rcases eq_or_ne b L with rfl | hbL
      · rw [setQue_of_ne (by simp), setQue_self, setQue_self, hque]
        simp only [List.length_append, List.length_cons, List.length_nil]
        omega
      · rw [setQue_of_ne fun hk => hbL hk.2, setQue_of_ne fun hk => hbL hk.2,
          setQue_of_ne fun hk => hbL hk.2, setQue_of_ne fun hk => hbL hk.2]
  · intro b
    split
    · rename_i hbL
      subst hbL
      rw [setQue_self]
    · rename_i hbL
      rw [setQue_of_ne fun hk => hbL hk.2, setQue_of_ne fun hk => hbL hk.2]

theorem step_connected (h : NetInv n que) (hc : n.mid1 c = some .socket) :
    StepOk n que (.soisconnected c) := by
  obtain ⟨e, i, t, hb⟩ := h.blocks.conn_of_socket hc
  have h1 := h.connected c
  have hwake : wakeSocket c (n.setSo c SocketTcp.connected) =
      .ok ((), n.setSo c SocketTcp.connected) := by
    apply wakeSocket_ok (n := n.setSo c SocketTcp.connected) (e := e) hc _ hb.socketEx
    rw [setSo_so_self]
    exact hb.ex
  cases hhead : (n.so c).soHead with
  | none =>
    apply StepOk.silent _ h1 fun _ => rfl
    have hrun : soisconnected c n = .ok ((), n.setSo c SocketTcp.connected) := by
      rw [soisconnected, bind_readSo hc, bind_writeSo hc, hhead]
      exact hwake
    rw [SockEvent.run, bind_readSo hc, run_bind hrun, hhead]
    rfl
  | some L =>
    have hhead1 : ((n.setSo c SocketTcp.connected).so c).soHead = some L := by
      rw [setSo_so_self]
      exact hhead
    obtain ⟨hL, k, hk⟩ := h.queues.head c L hc hhead
    cases k with
    | soQ0 =>
      obtain ⟨n₁, n', que', hrem, hins, hinv, hptr, hq⟩ := move_ok h1 hk
      obtain ⟨e', i', t', hb'⟩ := hinv.blocks.conn_of_socket (a := L) (by rw [hptr.mid1]; exact hL.1)
      have hrun : soisconnected c n = .ok ((), n') := by
        rw [soisconnected, bind_readSo hc, bind_writeSo hc, hhead]
        dsimp only
        change (soqremque c .soQ0 >>= _) (n.setSo c SocketTcp.connected) = _
        rw [run_bind hrem, if_pos rfl, run_bind hins]
        exact wakeSocket_ok hb'.socket hb'.ex hb'.socketEx
      refine ⟨[.completed L c], n', que', ?_, hinv, by simp, ?_, by simp⟩
      · rw [SockEvent.run, bind_readSo hc, run_bind hrun, hhead]
        rfl
      · intro b
        rw [hq b]
        have hnot : c ∉ que .soQ L := by
          intro hc'
          cases h.queues.one_queue hc' hk
        rcases eq_or_ne b L with rfl | hbL
        · simp [SockObs.apply, hnot]
        · simp [SockObs.apply, hbL, hbL.symm]
    | soQ =>
      have hmiss : c ∉ que .soQ0 L := by
        intro hc'
        cases h.queues.one_queue hc' hk
      have hrem := soqremque_miss h1.queues (by exact hc) hhead1 hmiss
      have hrun : soisconnected c n = .ok ((), n.setSo c SocketTcp.connected) := by
        rw [soisconnected, bind_readSo hc, bind_writeSo hc, hhead]
        dsimp only
        change (soqremque c .soQ0 >>= _) (n.setSo c SocketTcp.connected) = _
        rw [run_bind hrem, if_neg (by simp)]
        exact hwake
      refine ⟨[.completed L c], _, que, ?_, h1, by simp, ?_, by simp⟩
      · rw [SockEvent.run, bind_readSo hc, run_bind hrun, hhead]
        rfl
      · intro b
        rcases eq_or_ne b L with rfl | hbL
        · simp [SockObs.apply, hk]
        · simp [SockObs.apply, hbL.symm]

theorem tcpClose_inv (h : NetInv n que) (hc : ConnBlocks n a e i t) (hacc : (n.so a).acceptConn = false) :
    ∃ n', tcpClose t n = .ok ((), n') ∧ NetInv n' (without que a) := by
  obtain ⟨n', hrun, hg, hq⟩ := tcpClose_ok h.queues h.blocks.lists hc hacc
  refine ⟨n', hrun, ?_⟩
  apply h.moved (h.blocks.gone hc hg) hq
  · intro b hb
    have hba : b ≠ a := by
      rintro rfl
      have hmid := hb.1
      simp [hg.mid1] at hmid
    have hmid := hb.1
    rw [hg.mid1, Function.update_of_ne hba] at hmid
    have hbt : b ≠ t := by
      rintro rfl
      simp at hmid
    rw [Function.update_of_ne hbt] at hmid
    exact ⟨⟨hmid, (hg.rest b hba).acceptConn.symm.trans hb.2⟩, (hg.rest b hba).limit⟩
  · intro b
    have h0 := List.length_erase_le (a := a) (l := que .soQ0 b)
    have h1 := List.length_erase_le (a := a) (l := que .soQ b)
    simp only [without]
    omega

theorem socketOf_ok (hc : ConnBlocks n a e i t) : socketOf t n = .ok (a, n) := by
  rw [socketOf, bind_readTp hc.tcpcb, hc.tInpcb, bind_deref, bind_readInp hc.inpcb, hc.inpSocket]
  rfl

theorem step_tcpClose (h : NetInv n que) (ht : n.mid1 t = some .tcpcb)
    (hacc : ∀ i a, (n.tp t).tInpcb = some i → (n.inp i).inpSocket = some a →
      (n.so a).acceptConn = false) :
    StepOk n que (.tcpClose t) := by
  obtain ⟨a, e, i, hc⟩ := h.blocks.conn ht
  obtain ⟨n', hrun, hinv⟩ := tcpClose_inv h hc (hacc i a hc.tInpcb hc.inpSocket)
  refine ⟨[.aborted a], n', without que a, ?_, hinv, by simp, ?_, by simp⟩
  · rw [SockEvent.run, run_bind (socketOf_ok hc), run_bind hrun]
    rfl
  · intro b
    rfl

/-- The stores of `tcp_drop` before it comes to `tcp_close`. -/
theorem tcpDrop_run (h : NetInv n que) (hc : ConnBlocks n a e i t) (errno : Nat) :
    ∃ n₁, tcpDrop t errno n = tcpClose t n₁ ∧ NetInv n₁ que ∧ ConnBlocks n₁ a e i t ∧
      SameQueue (n.so a) (n₁.so a) := by
  obtain ⟨n₂, hn₂, hif⟩ :
      ∃ n₂, (n₂ = n ∨ n₂ = n.setTp t fun t => { t with tState := .closed }) ∧
      onlyIf ((n.tp t).tState.haveRcvdSyn = true) (writeTp t fun t => { t with tState := .closed }) n =
        .ok ((), n₂) := by
    by_cases hsyn : (n.tp t).tState.haveRcvdSyn = true
    · exact ⟨_, .inr rfl, by simp [onlyIf, hsyn, writeTp, hc.tcpcb]⟩
    · exact ⟨n, .inl rfl, by simp [onlyIf, hsyn]⟩
  have h2 : NetInv n₂ que ∧ ConnBlocks n₂ a e i t ∧ n₂.so = n.so := by
    rcases hn₂ with rfl | rfl
    · exact ⟨h, hc, rfl⟩
    · refine ⟨h.setTp fun _ => rfl, ?_, rfl⟩
      refine ⟨hc.socket, hc.tcpcb, hc.socketEx, hc.inpcb, hc.ex, hc.pcb, hc.inpSocket, hc.inpPpcb, ?_⟩
      simpa [Net.setTp] using hc.tInpcb
  obtain ⟨hinv, hcb, hso⟩ := h2
  let err := if errno = ETIMEDOUT ∧ (n.tp t).tSofterror ≠ 0 then (n.tp t).tSofterror else errno
  refine ⟨n₂.setSo a fun s => { s with soError := err }, ?_, ?_, ?_, ?_⟩
  · rw [tcpDrop, run_bind (socketOf_ok hc), bind_readTp hc.tcpcb, bind_onlyIf _ hif,
      bind_writeSo (by exact hcb.socket)]
  · apply hinv.setSo
    · intro v
      exact ⟨rfl, rfl, rfl, rfl, rfl⟩
    · intro v
      exact .of_fields rfl rfl rfl rfl rfl rfl rfl rfl
  · refine ⟨hcb.socket, hcb.tcpcb, hcb.socketEx, hcb.inpcb, ?_, ?_, hcb.inpSocket, hcb.inpPpcb, hcb.tInpcb⟩
    · rw [setSo_so_self]
      exact hcb.ex
    · rw [setSo_so_self]
      exact hcb.pcb
  · rw [setSo_so_self, hso]
    exact .of_fields rfl rfl rfl rfl rfl rfl rfl rfl

theorem step_tcpDrop (h : NetInv n que) (ht : n.mid1 t = some .tcpcb)
    (hacc : ∀ i a, (n.tp t).tInpcb = some i → (n.inp i).inpSocket = some a → (n.so a).acceptConn = false)
    (errno : Nat) : StepOk n que (.tcpDrop t errno) := by
  obtain ⟨a, e, i, hc⟩ := h.blocks.conn ht
  obtain ⟨n₁, heq, h1, hc1, hsame⟩ := tcpDrop_run h hc errno
  obtain ⟨n', hrun, hinv⟩ := tcpClose_inv h1 hc1 (hsame.acceptConn.trans (hacc i a hc.tInpcb hc.inpSocket))
  refine ⟨[.aborted a], n', without que a, ?_, hinv, by simp, ?_, by simp⟩
  · rw [SockEvent.run, run_bind (socketOf_ok hc), run_bind (heq.trans hrun)]
    rfl
  · intro b
    rfl

/-- Every orderly event. -/
theorem step_ok {ev : SockEvent N M} (h : NetInv n que) (ho : ev.Orderly n) : StepOk n que ev := by
  cases ev with
  | socket domain type avail g => exact step_socket h domain type avail ho
  | listen s backlog rc => exact step_listen h ho backlog rc
  | accept s nam => exact step_accept h ho nam
  | sonewconn head g => exact step_sonewconn h ho.1 ho.2
  | soisconnected so => exact step_connected h ho
  | tcpClose t => exact step_tcpClose h ho.1 ho.2
  | tcpDrop t errno => exact step_tcpDrop h ho.1 ho.2 errno

/-! ## Runs -/

/-- The two queues of a listening socket. -/
structure QueuesOk (n : Net N M) (L : Fin N) (q0 q : List (Fin N)) : Prop where
  links0 : Links (n.links .soQ0) L q0
  links : Links (n.links .soQ) L q
  len0 : (n.so L).soQ0len = q0.length
  len : (n.so L).soQlen = q.length
  nodup : (L :: (q0 ++ q)).Nodup
  children : ∀ c ∈ q0 ++ q, n.mid1 c = some .socket ∧ (n.so c).soHead = some L ∧ (n.so c).nofdref = true
  limit : (n.so L).soQ0len + (n.so L).soQlen ≤ 3 * (n.so L).soQlimit / 2 + 1

/-- The completed connections of a listening socket that have not been accepted, in the order in which they
    completed, as it is seen. -/
def pending (L : Fin N) (hist : List (SockObs N M)) : List (Fin N) := hist.foldl (SockObs.apply L) []

/-- An accepted connection is the one that completed first. -/
def InOrder (before : List (SockObs N M)) (o : SockObs N M) : Prop :=
  ∀ L c, o = .accepted L c → (pending L before).head? = some c

theorem NetInv.queuesOk (h : NetInv n que) (hL : n.listens L) :
    QueuesOk n L (que .soQ0 L) (que .soQ L) := by
  have h0 := h.queues.len .soQ0 L hL
  have h1 := h.queues.len .soQ L hL
  have h2 := (h.limit L hL).2
  refine ⟨h.queues.links _ L hL, h.queues.links _ L hL, h0, h1, ?_, ?_, ?_⟩
  · rw [List.nodup_cons]
    refine ⟨fun hm => ?_, h.queues.nodup L⟩
    rcases List.mem_append.mp hm with hm | hm
    · exact h.queues.listens_ne hL hm rfl
    · exact h.queues.listens_ne hL hm rfl
  · intro c hc
    rcases List.mem_append.mp hc with hc | hc
    · obtain ⟨g1, g2, g3, -⟩ := h.queues.mem _ L c hc
      exact ⟨g1, g2, g3⟩
    · obtain ⟨g1, g2, g3, -⟩ := h.queues.mem _ L c hc
      exact ⟨g1, g2, g3⟩
  · simp only [SocketTcp.len] at h0 h1
    omega

theorem netInv_init (N M : Nat) : NetInv (Net.init N M) fun _ _ => [] := by
  refine ⟨⟨?_, ?_, ?_, ?_, ?_, ⟨?_, ?_⟩, ?_, ?_⟩, ⟨?_, ?_, ?_, ?_, ?_, ?_, ?_, ?_⟩, ?_⟩ <;>
    simp [Net.init, Net.listens]

/-- The invariant, with the queues as they are seen. -/
def RunInv (n : Net N M) (hist : List (SockObs N M)) : Prop :=
  ∃ que, NetInv n que ∧ (∀ L, que .soQ L = pending L hist) ∧ Machine.Throughout InOrder hist

theorem RunInv.step {ev : SockEvent N M} {hist : List (SockObs N M)} (h : RunInv n hist)
    (ho : ev.Orderly n) : ∃ n', (sockStep n ev).1 = some n' ∧ RunInv n' (hist ++ (sockStep n ev).2) := by
  obtain ⟨que, hinv, hq, hord⟩ := h
  obtain ⟨obs, n', que', hrun, hinv', hlen, hq', hacc⟩ := step_ok hinv ho
  have hstep : sockStep n ev = (some n', obs) := by
    simp only [sockStep, hrun]
  rw [hstep]
  refine ⟨n', rfl, que', hinv', ?_, ?_⟩
  · intro L
    rw [hq', hq, pending, pending, List.foldl_append]
  · -- a step is seen at most once
    match obs, hlen with
    | [], _ => simpa using hord
    | [o], _ =>
      apply Machine.throughout_snoc hord
      rintro L c rfl
      rw [← hq]
      exact hacc L c List.mem_cons_self

/-- No orderly run ends at a fault, and the invariant holds to its end. -/
theorem run_netInv {es : List (SockEvent N M)}
    (hg : Machine.Guarded sockStep (fun n ev => ev.Orderly n) (some (Net.init N M)) es) :
    ∃ n, (Machine.run sockStep (some (Net.init N M)) es).1 = some n ∧ ∃ que, NetInv n que := by
  have hrun := Machine.run_until (fun n => ∃ que, NetInv n que) (fun _ _ => False) (fun n ev hn ho => by
    obtain ⟨que, hinv⟩ := hn
    obtain ⟨obs, n', que', hrun, hinv', -⟩ := step_ok hinv ho
    exact .inr ⟨n', by simp only [sockStep, hrun], que', hinv'⟩) ⟨_, netInv_init N M⟩ hg
  rcases hrun with hrun | ⟨_, _, _, _, _, _, _, hfalse⟩
  · exact hrun
  · exact absurd hfalse id

/-- **The accept queues.** -/
theorem accept_queues_ok {es : List (SockEvent N M)}
    (hg : Machine.Guarded sockStep (fun n ev => ev.Orderly n) (some (Net.init N M)) es) :
    ∃ n, (Machine.run sockStep (some (Net.init N M)) es).1 = some n ∧
      (∀ L, n.listens L → ∃ q0 q, QueuesOk n L q0 q) ∧
      Machine.Throughout InOrder (Machine.run sockStep (some (Net.init N M)) es).2 := by
  have hinit : RunInv (Net.init N M) [] := by
    refine ⟨_, netInv_init N M, fun _ => rfl, ?_⟩
    intro h₁ o h₂ heq
    simp at heq
  obtain ⟨n, hn, -⟩ := run_netInv hg
  have hrec := Machine.run_record RunInv (fun n ev hist n' h ho hn' => by
    obtain ⟨n'', hn'', h'⟩ := h.step ho
    rw [hn'] at hn''
    cases hn''
    exact h') hinit hg hn
  rw [List.nil_append] at hrec
  obtain ⟨que, hinv, -, hord⟩ := hrec
  refine ⟨n, hn, ?_, hord⟩
  intro L hL
  exact ⟨_, _, hinv.queuesOk hL⟩

instance (n : Net N M) (a : Fin N) (e i : Fin M) (t : Fin N) : Decidable (FreeBlocks n a e i t) :=
  decidable_of_iff (n.mid1 a = none ∧ n.lo e = none ∧ n.lo i = none ∧ n.mid1 t = none ∧
    i ≠ e ∧ t ≠ a) ⟨fun ⟨h1, h2, h3, h4, h5, h6⟩ => ⟨h1, h2, h3, h4, h5, h6⟩,
      fun ⟨h1, h2, h3, h4, h5, h6⟩ => ⟨h1, h2, h3, h4, h5, h6⟩⟩

instance (n : Net N M) (a : Fin N) : Decidable (n.OffQueue a) :=
  decidable_of_iff (n.mid1 a = some .socket ∧ (n.so a).acceptConn = false ∧ (n.so a).soHead = none)
    ⟨fun ⟨h1, h2, h3⟩ => ⟨h1, h2, h3⟩, fun ⟨h1, h2, h3⟩ => ⟨h1, h2, h3⟩⟩

instance (n : Net N M) (a : Fin N) : Decidable (n.listens a) := inferInstanceAs (Decidable (_ ∧ _))

instance (n : Net N M) (g : Grants N M) : Decidable (g.Attaches n) :=
  inferInstanceAs (Decidable (∀ a e, g.so = some a → n.mid1 a = none → g.ex = some e → n.lo e = none →
    ∃ i t, g.inp = some i ∧ g.tp = some t ∧ FreeBlocks n a e i t))

instance (n : Net N M) (ev : SockEvent N M) : Decidable (ev.Orderly n) :=
  match ev with
  | .socket _ _ _ g => inferInstanceAs (Decidable (g.Attaches n))
  | .listen s _ _ => inferInstanceAs (Decidable (n.OffQueue s))
  | .accept _ _ => inferInstanceAs (Decidable (_ = _))
  | .sonewconn _ g => inferInstanceAs (Decidable ((_ ∧ _) ∧ g.Attaches n))
  | .soisconnected _ => inferInstanceAs (Decidable (_ = _))
  | .tcpClose _ => inferInstanceAs (Decidable (_ ∧ _))
  | .tcpDrop _ _ => inferInstanceAs (Decidable (_ ∧ _))

scoped instance neZero_six : NeZero 6 := ⟨by decide⟩

/-- A connection is made, completes and is accepted; a second one is dropped. -/
def acceptRun : List (SockEvent 6 6) :=
  [.socket AF_INET SOCK_STREAM true ⟨some 0, some 0, some 1, some 1⟩, .listen 0 2 0,
    .sonewconn 0 ⟨some 2, some 2, some 3, some 3⟩, .sonewconn 0 ⟨some 4, some 4, some 5, some 5⟩,
    .soisconnected 4, .soisconnected 2, .accept 0 true, .tcpDrop 3 0]

theorem accept_queues_ok_run : ∃ n, (Machine.run sockStep (some (Net.init 6 6)) acceptRun).1 = some n ∧
    (∀ L, n.listens L → ∃ q0 q, QueuesOk n L q0 q) ∧
    Machine.Throughout InOrder (Machine.run sockStep (some (Net.init 6 6)) acceptRun).2 :=
  accept_queues_ok (by decide +kernel)

end TnSock
