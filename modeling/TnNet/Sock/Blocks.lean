import TnNet.Sock.Queue

/-!
# The blocks of a socket

`BlockInv` ties the four blocks of a socket together: a socket has a `socket_ex` of its own and an `inpcb`
that points back, the `inpcb` has a `tcpcb` that points back, and the lists `tcb` and `so_tcp_ex` hold
blocks in use.

* `tcpClose_ok` — `tcp_close` gives back the four blocks of a connection, takes the socket off its queue and
  leaves everything else.
* `BlockInv.gone` — the other connections keep their blocks.
-/

set_option autoImplicit false

namespace TnSock

open Chain

variable {N M : Nat} {α β : Type} {n n' n₁ : Net N M} {a b c t : Fin N} {e i x : Fin M} {k k' : SoQ}
variable {que : SoQ → Fin N → List (Fin N)}

/-! ## Accesses -/

theorem touchEx_ok (h : n.lo e = some .socketEx) : touchEx e n = .ok ((), n) := by
  simp [touchEx, h]

theorem touchInp_ok (h : n.lo i = some .inpcb) : touchInp i n = .ok ((), n) := by
  change (readInp i >>= fun _ => pure ()) n = _
  rw [run_bind (show readInp i n = .ok (n.inp i, n) by simp [readInp, h])]
  rfl

theorem touchAll_ok {touch : Fin M → Call N M Unit} {l : List (Fin M)}
    (h : ∀ x ∈ l, touch x n = .ok ((), n)) : touchAll touch l n = .ok ((), n) := by
  induction l with
  | nil => rfl
  | cons x l ih =>
    rw [touchAll, run_bind (h x List.mem_cons_self)]
    apply ih
    intro y hy
    exact h y (List.mem_cons_of_mem x hy)

theorem bind_view (g : Net N M → α) (f : α → Call N M β) : (view g >>= f) n = f (g n) n := rfl

theorem bind_touchEx (h : n.lo e = some .socketEx) (f : Unit → Call N M β) :
    (touchEx e >>= f) n = f () n :=
  run_bind (touchEx_ok h)

theorem bind_readInp (h : n.lo i = some .inpcb) (f : Inpcb N → Call N M β) :
    (readInp i >>= f) n = f (n.inp i) n :=
  run_bind (by simp [readInp, h])

theorem bind_writeInp {g : Inpcb N → Inpcb N} (h : n.lo i = some .inpcb) (f : Unit → Call N M β) :
    (writeInp i g >>= f) n = f () (n.setInp i g) :=
  run_bind (by simp [writeInp, h])

theorem bind_readTp (h : n.mid1 t = some .tcpcb) (f : Tcpcb M → Call N M β) :
    (readTp t >>= f) n = f (n.tp t) n :=
  run_bind (by simp [readTp, h])

theorem bind_writeTp {g : Tcpcb M → Tcpcb M} (h : n.mid1 t = some .tcpcb) (f : Unit → Call N M β) :
    (writeTp t g >>= f) n = f () (n.setTp t g) :=
  run_bind (by simp [writeTp, h])

theorem bind_freeMid1 (h : n.mid1 a ≠ none) (f : Unit → Call N M β) :
    (tnNetFreeMid1 a >>= f) n = f () (n.useMid1 a none) :=
  run_bind (by simp [tnNetFreeMid1, h])

theorem bind_freeMin (h : n.lo e ≠ none) (f : Unit → Call N M β) :
    (tnNetFreeMin e >>= f) n = f () (n.useMin e none) :=
  run_bind (by simp [tnNetFreeMin, h])

theorem mem_adjacent {l : List (Fin M)} (h : i ∈ adjacent x l) : i ∈ l := by
  induction l with
  | nil => simp [adjacent] at h
  | cons a l ih =>
    cases l with
    | nil => simp [adjacent] at h
    | cons b l =>
      rw [adjacent] at h
      split at h
      · simp only [List.mem_singleton] at h
        subst h
        exact List.mem_cons_of_mem a List.mem_cons_self
      · split at h
        · rcases List.mem_cons.mp h with rfl | h
          · exact List.mem_cons_self
          · cases l with
            | nil => simp at h
            | cons c l =>
              simp only [List.head?_cons, Option.toList_some, List.mem_singleton] at h
              subst h
              simp
        · exact List.mem_cons_of_mem a (ih h)

theorem unlinkEx_ok (hl : ∀ x ∈ n.soTcpEx, n.lo x = some .socketEx) (he : n.lo e = some .socketEx) :
    unlinkEx e n = .ok ((), { n with soTcpEx := n.soTcpEx.erase e }) := by
  have htouch : touchAll touchEx (n.soTcpEx.takeWhile fun x => decide (x ≠ e)) n = .ok ((), n) := by
    apply touchAll_ok
    intro x hx
    exact touchEx_ok (hl x (List.takeWhile_subset _ hx))
  unfold unlinkEx
  rw [bind_view, run_bind htouch, bind_touchEx he]
  rfl

theorem appendEx_ok (hl : ∀ x ∈ n.soTcpEx, n.lo x = some .socketEx) :
    appendEx e n = .ok ((), { n with soTcpEx := n.soTcpEx ++ [e] }) := by
  have htouch : touchAll touchEx n.soTcpEx n = .ok ((), n) := by
    apply touchAll_ok
    intro x hx
    exact touchEx_ok (hl x hx)
  unfold appendEx
  rw [bind_view, run_bind htouch]
  rfl

theorem bind_appendEx (hl : ∀ x ∈ n.soTcpEx, n.lo x = some .socketEx) (f : Unit → Call N M β) :
    (appendEx e >>= f) n = f () { n with soTcpEx := n.soTcpEx ++ [e] } :=
  run_bind (appendEx_ok hl)

theorem insque_ok (hl : ∀ x ∈ n.tcb, n.lo x = some .inpcb) :
    insque i n = .ok ((), { n with tcb := i :: n.tcb }) := by
  have htouch : touchAll touchInp n.tcb.head?.toList n = .ok ((), n) := by
    apply touchAll_ok
    intro x hx
    apply touchInp_ok
    apply hl
    rw [Option.mem_toList] at hx
    exact List.mem_of_mem_head? hx
  unfold insque
  rw [bind_view, run_bind htouch]
  rfl

theorem bind_insque (hl : ∀ x ∈ n.tcb, n.lo x = some .inpcb) (f : Unit → Call N M β) :
    (insque i >>= f) n = f () { n with tcb := i :: n.tcb } :=
  run_bind (insque_ok hl)

theorem remque_ok (hl : ∀ x ∈ n.tcb, n.lo x = some .inpcb) (hi : n.lo i = some .inpcb) :
    remque i n = .ok ((), { n with tcb := n.tcb.erase i }) := by
  have htouch : touchAll touchInp (adjacent i n.tcb) n = .ok ((), n) := by
    apply touchAll_ok
    intro x hx
    exact touchInp_ok (hl x (mem_adjacent hx))
  unfold remque
  rw [run_bind (touchInp_ok hi), bind_view, run_bind htouch]
  rfl

/-! ## The release of a socket -/

/-- The stores of `tn_socket_tcp_release`. -/
def Net.released (n : Net N M) (a : Fin N) (e : Fin M) : Net N M :=
  { n with
    soTcpEx := n.soTcpEx.erase e
    lo := Function.update n.lo e none
    mid1 := Function.update n.mid1 a none }

/-- The entries of `so_tcp_ex` and of `tcb` are in use. -/
structure ListsInUse (n : Net N M) : Prop where
  exs : ∀ x ∈ n.soTcpEx, n.lo x = some .socketEx
  tcbs : ∀ x ∈ n.tcb, n.lo x = some .inpcb

theorem tnSocketTcpRelease_ok (ha : n.mid1 a = some .socket) (hex : (n.so a).socketEx = some e)
    (he : n.lo e = some .socketEx) (hl : ∀ x ∈ n.soTcpEx, n.lo x = some .socketEx) :
    tnSocketTcpRelease a n = .ok ((), n.released a e) := by
  unfold tnSocketTcpRelease
  rw [bind_readSo ha, hex, bind_deref, run_bind (unlinkEx_ok hl he), bind_touchEx (by exact he),
    bind_freeMin (by simp [he])]
  simp [tnNetFreeMid1, Net.useMin, ha, Net.useMid1, Net.released]

/-- What the queue operations keep. -/
structure SameBlocks (n n' : Net N M) : Prop where
  mid1 : n'.mid1 = n.mid1
  lo : n'.lo = n.lo
  inp : n'.inp = n.inp
  tp : n'.tp = n.tp
  tcb : n'.tcb = n.tcb
  soTcpEx : n'.soTcpEx = n.soTcpEx
  rest : ∀ b, SameRest (n.so b) (n'.so b)

theorem SameBlocks.refl (n : Net N M) : SameBlocks n n :=
  ⟨rfl, rfl, rfl, rfl, rfl, rfl, fun _ => .refl _⟩

theorem SameBlocks.trans {n'' : Net N M} (h : SameBlocks n n') (h' : SameBlocks n' n'') :
    SameBlocks n n'' :=
  ⟨h'.mid1.trans h.mid1, h'.lo.trans h.lo, h'.inp.trans h.inp, h'.tp.trans h.tp, h'.tcb.trans h.tcb,
    h'.soTcpEx.trans h.soTcpEx, fun b => (h.rest b).trans (h'.rest b)⟩

theorem SameBlocks.setSo {f : SocketTcp N M → SocketTcp N M} (hf : ∀ s, SameRest s (f s)) (a : Fin N) :
    SameBlocks n (n.setSo a f) :=
  ⟨rfl, rfl, rfl, rfl, rfl, rfl, setSo_rest hf⟩

/-- The stores of `sofree` to the buffers. -/
def Net.flushed (n : Net N M) (a : Fin N) : Net N M :=
  (n.setSo a fun s => { s with sndHiwat := 0 }).setSo a
    fun s => { s with cantRcvMore := true, rcvHiwat := 0 }

theorem SameBlocks.unlinkQ (n : Net N M) (L prev c : Fin N) (k : SoQ) :
    SameBlocks n (n.unlinkQ L prev c k) :=
  ⟨rfl, rfl, rfl, rfl, rfl, rfl, unlinkQ_rest n L prev c k⟩

theorem SameBlocks.insertQ (n : Net N M) (L last c : Fin N) (k : SoQ) :
    SameBlocks n (n.insertQ L last c k) :=
  ⟨rfl, rfl, rfl, rfl, rfl, rfl, insertQ_rest n L last c k⟩

theorem SameBlocks.flushed (n : Net N M) (a : Fin N) : SameBlocks n (n.flushed a) := by
  have hsnd : SameBlocks n (n.setSo a fun s => { s with sndHiwat := 0 }) := by
    apply SameBlocks.setSo
    intro s
    exact ⟨rfl, rfl, rfl, rfl, rfl⟩
  apply hsnd.trans
  apply SameBlocks.setSo
  intro s
  exact ⟨rfl, rfl, rfl, rfl, rfl⟩

theorem bind_onlyIf {P : Prop} [Decidable P] {x : Call N M Unit} (f : Unit → Call N M β)
    (h : onlyIf P x n = .ok ((), n')) : (onlyIf P x >>= f) n = f () n' :=
  run_bind h

theorem sofree_ok (ha : n.mid1 a = some .socket) (hex : (n.so a).socketEx = some e)
    (he : n.lo e = some .socketEx) (hl : ∀ x ∈ n.soTcpEx, n.lo x = some .socketEx)
    (hpcb : (n.so a).soPcb = none)
    (hdq : onlyIf ((n.so a).soHead ≠ none) (sofreeDequeue a) n = .ok ((), n₁)) (hsame : SameBlocks n n₁) :
    sofree a n = .ok (0, (n₁.flushed a).released a e) := by
  have htouch : onlyIf ((n.so a).nofdref = true) (do touchEx (← deref (n.so a).socketEx)) n =
      .ok ((), n) := by
    unfold onlyIf
    split
    · rw [hex, bind_deref]
      exact touchEx_ok he
    · rfl
  have ha1 : n₁.mid1 a = some .socket := by rw [hsame.mid1, ha]
  have hfl := hsame.trans (SameBlocks.flushed n₁ a)
  have hrel : tnSocketTcpRelease a (n₁.flushed a) = .ok ((), (n₁.flushed a).released a e) := by
    apply tnSocketTcpRelease_ok
    · rw [hfl.mid1, ha]
    · rw [(hfl.rest a).socketEx, hex]
    · rw [hfl.lo, he]
    · rw [hfl.soTcpEx, hfl.lo]
      exact hl
  unfold sofree
  rw [bind_readSo ha, bind_onlyIf _ htouch, if_neg (by simp [hpcb]), bind_onlyIf _ hdq]
  simp only [sorflush, bind_writeSo, setSo_mid1, ha1]
  rw [← Net.flushed, run_bind hrel]
  rfl

/-! ## Off the queue -/

/-- The queues without a socket. -/
def without (que : SoQ → Fin N → List (Fin N)) (c : Fin N) : SoQ → Fin N → List (Fin N) :=
  fun k b => (que k b).erase c

theorem QueueInv.setQue_eq_without {L : Fin N} {l₁ l₂ : List (Fin N)} (h : QueueInv n que)
    (hque : que k L = l₁ ++ c :: l₂) : setQue que k L (l₁ ++ l₂) = without que c := by
  have hc : c ∈ que k L := by simp [hque]
  funext k' b
  by_cases hkb : k' = k ∧ b = L
  · obtain ⟨rfl, rfl⟩ := hkb
    have hc1 : c ∉ l₁ := by
      intro hc1
      apply (h.split_nodup hque).1
      exact List.mem_cons_of_mem b (List.mem_append_left l₂ hc1)
    rw [setQue_self, without, hque, List.erase_append_right _ hc1, List.erase_cons_head]
  · rw [setQue_of_ne hkb, without, List.erase_of_not_mem]
    intro hc'
    exact hkb (h.same_queue hc hc')

theorem QueueInv.without_eq (h : QueueInv n que) (hc : n.OffQueue c) : without que c = que := by
  funext k b
  exact List.erase_of_not_mem (h.off_not_mem hc)

theorem sofreeDequeue_off (hc : (n.so c).soHead = none) :
    onlyIf ((n.so c).soHead ≠ none) (sofreeDequeue c) n = .ok ((), n) := by
  simp [onlyIf, hc]

/-- `sofree` takes the socket off its queue. -/
theorem sofreeDequeue_ok (h : QueueInv n que) (hc : n.mid1 c = some .socket)
    (hacc : (n.so c).acceptConn = false) :
    ∃ n₁, onlyIf ((n.so c).soHead ≠ none) (sofreeDequeue c) n = .ok ((), n₁) ∧ SameBlocks n n₁ ∧
      QueueInv n₁ (without que c) ∧ n₁.OffQueue c := by
  cases hhead : (n.so c).soHead with
  | none =>
    have hoff : n.OffQueue c := ⟨hc, hacc, hhead⟩
    refine ⟨n, by simp [onlyIf], .refl n, ?_, hoff⟩
    rw [h.without_eq hoff]
    exact h
  | some L =>
    obtain ⟨-, k, hk⟩ := h.head c L hc hhead
    obtain ⟨l₁, l₂, hque⟩ := List.append_of_mem hk
    have hany : soqremqueAny c n = .ok (true, n.unlinkQ L (l₁.getLastD L) c k) := by
      unfold soqremqueAny
      cases k with
      | soQ0 =>
        rw [run_bind (soqremque_ok h hque)]
        rfl
      | soQ =>
        have hmiss : c ∉ que .soQ0 L := by
          intro hc0
          cases h.one_queue hk hc0
        rw [run_bind (soqremque_miss h hc hhead hmiss)]
        exact soqremque_ok h hque
    have hsame : SameBlocks n (n.unlinkQ L (l₁.getLastD L) c k) :=
      .unlinkQ n L _ c k
    have hqinv := h.unlinkQ hque
    rw [h.setQue_eq_without hque] at hqinv
    refine ⟨(n.unlinkQ L (l₁.getLastD L) c k).setSo c fun s => { s with soHead := none }, ?_, ?_, ?_, ?_⟩
    · rw [onlyIf, if_pos (by simp), sofreeDequeue, run_bind hany, if_pos rfl]
      apply writeSo_ok
      exact hc
    · apply hsame.trans
      apply SameBlocks.setSo
      intro s
      exact ⟨rfl, rfl, rfl, rfl, rfl⟩
    · apply hqinv.frame
      · intro b hb
        left
        refine ⟨hb, ?_⟩
        rcases eq_or_ne b c with rfl | hbc
        · rw [setSo_so_self]
          refine ⟨rfl, rfl, unlinkQ_self_soHead.symm, ?_, ?_, rfl⟩
          · intro k'
            cases k' <;> rfl
          · intro k'
            cases k' <;> rfl
        · rw [setSo_so_of_ne _ hbc]
          exact ⟨rfl, rfl, rfl, fun _ => rfl, fun _ => rfl, rfl⟩
      · intro b hb
        exact .inl hb
    · refine ⟨hc, ?_, by rw [setSo_so_self]⟩
      rw [setSo_so_self]
      exact (hsame.rest c).acceptConn.trans hacc

/-! ## The end of a connection -/

/-- The four blocks of a connection. -/
structure ConnBlocks (n : Net N M) (a : Fin N) (e i : Fin M) (t : Fin N) : Prop where
  socket : n.mid1 a = some .socket
  tcpcb : n.mid1 t = some .tcpcb
  socketEx : n.lo e = some .socketEx
  inpcb : n.lo i = some .inpcb
  ex : (n.so a).socketEx = some e
  pcb : (n.so a).soPcb = some i
  inpSocket : (n.inp i).inpSocket = some a
  inpPpcb : (n.inp i).inpPpcb = some t
  tInpcb : (n.tp t).tInpcb = some i

/-- What is left of a connection, apart from the queues. -/
structure Gone (n n' : Net N M) (a : Fin N) (e i : Fin M) (t : Fin N) : Prop where
  mid1 : n'.mid1 = Function.update (Function.update n.mid1 t none) a none
  lo : n'.lo = Function.update (Function.update n.lo e none) i none
  tcb : n'.tcb = n.tcb.erase i
  soTcpEx : n'.soTcpEx = n.soTcpEx.erase e
  inp : ∀ j, j ≠ i → n'.inp j = n.inp j
  tp : n'.tp = n.tp
  rest : ∀ b, b ≠ a → SameRest (n.so b) (n'.so b)

/-- The flags `soisdisconnected` sets. -/
def SocketTcp.disconnected (s : SocketTcp N M) : SocketTcp N M :=
  { s with isConnecting := false, isConnected := false, isDisconnecting := false,
           cantRcvMore := true, cantSendMore := true }

theorem wakeSocket_ok (ha : n.mid1 a = some .socket) (hex : (n.so a).socketEx = some e)
    (he : n.lo e = some .socketEx) : wakeSocket a n = .ok ((), n) := by
  unfold wakeSocket
  rw [bind_readSo ha, hex, bind_deref]
  exact touchEx_ok he

theorem soisdisconnected_ok (ha : n.mid1 a = some .socket) (hex : (n.so a).socketEx = some e)
    (he : n.lo e = some .socketEx) :
    soisdisconnected a n = .ok ((), n.setSo a SocketTcp.disconnected) := by
  unfold soisdisconnected
  rw [bind_writeSo ha]
  apply wakeSocket_ok (n := n.setSo a SocketTcp.disconnected) (e := e) ha
  · rw [setSo_so_self]
    exact hex
  · exact he

/-- `in_pcbdetach` behind its call of `sofree`. -/
theorem inPcbdetach_ok {r : Int} (hi : n.lo i = some .inpcb) (hso : (n.inp i).inpSocket = some a)
    (ha : n.mid1 a = some .socket)
    (hfree : sofree a (n.setSo a fun s => { s with soPcb := none }) = .ok (r, n₁))
    (hi1 : n₁.lo i = some .inpcb) (htcb : ∀ x ∈ n₁.tcb, n₁.lo x = some .inpcb) :
    inPcbdetach i n = .ok
    ((), { n₁ with tcb := n₁.tcb.erase i, lo := Function.update n₁.lo i none }) := by
  unfold inPcbdetach
  rw [bind_readInp hi, hso, bind_deref, bind_writeSo ha, run_bind hfree, run_bind (remque_ok htcb hi1)]
  simp [tnNetFreeMin, hi1, Net.useMin]

/-- The stores of `tcp_close` before it comes to `in_pcbdetach`. -/
def Net.hungUp (n : Net N M) (a : Fin N) (i : Fin M) (t : Fin N) : Net N M :=
  ((n.useMid1 t none).setInp i fun p => { p with inpPpcb := none }).setSo a SocketTcp.disconnected

/-- The stores of `tcp_close` before it comes to `sofree`. -/
def Net.detached (n : Net N M) (a : Fin N) (i : Fin M) (t : Fin N) : Net N M :=
  (n.hungUp a i t).setSo a fun s => { s with soPcb := none }

section Close

variable (hc : ConnBlocks n a e i t)

include hc

theorem ConnBlocks.socket_ne : a ≠ t := by
  rintro rfl
  have h := hc.socket.symm.trans hc.tcpcb
  simp at h

theorem ConnBlocks.inpcb_ne : i ≠ e := by
  rintro rfl
  have h := hc.inpcb.symm.trans hc.socketEx
  simp at h

theorem ConnBlocks.detached_mid1 : (n.detached a i t).mid1 a = some .socket := by
  simp [Net.detached, Net.hungUp, Net.useMid1, Net.setInp, hc.socket_ne, hc.socket]

omit hc in
theorem detached_so : (n.detached a i t).so a = { (n.so a).disconnected with soPcb := none } := by
  simp [Net.detached, Net.hungUp, Net.setSo, Net.setInp, Net.useMid1]

omit hc in
theorem detached_so_of_ne (hb : b ≠ a) : (n.detached a i t).so b = n.so b := by
  simp [Net.detached, Net.hungUp, Net.setSo, Net.setInp, Net.useMid1, hb]

/-- `tcp_close`, apart from the queue. -/
theorem tcpClose_run (hl : ListsInUse n)
    (hdq : onlyIf ((n.so a).soHead ≠ none) (sofreeDequeue a) (n.detached a i t) = .ok ((), n₁))
    (hsame : SameBlocks (n.detached a i t) n₁) :
    tcpClose t n = .ok ((), { (n₁.flushed a).released a e with
      tcb := n.tcb.erase i
      lo := Function.update (Function.update n.lo e none) i none }) := by
  have hfree : sofree a (n.detached a i t) = .ok (0, (n₁.flushed a).released a e) := by
    apply sofree_ok hc.detached_mid1 _ hc.socketEx hl.exs _ _ hsame
    · rw [detached_so]
      exact hc.ex
    · rw [detached_so]
    · rw [detached_so]
      exact hdq
  have hfl := hsame.trans (SameBlocks.flushed n₁ a)
  have hlo : ((n₁.flushed a).released a e).lo = Function.update n.lo e none := by
    simp only [Net.released, hfl.lo]
    rfl
  have htcb : ((n₁.flushed a).released a e).tcb = n.tcb := by
    simp only [Net.released, hfl.tcb]
    rfl
  have hdet : inPcbdetach i (n.hungUp a i t) = .ok ((), { (n₁.flushed a).released a e with
      tcb := n.tcb.erase i
      lo := Function.update (Function.update n.lo e none) i none }) := by
    rw [← htcb, ← hlo]
    apply inPcbdetach_ok (n := n.hungUp a i t) hc.inpcb _ hc.detached_mid1 hfree
    · rw [hlo, Function.update_of_ne hc.inpcb_ne, hc.inpcb]
    · intro x hx
      rw [htcb] at hx
      have hx := hl.tcbs x hx
      rw [hlo, Function.update_of_ne, hx]
      rintro rfl
      rw [hc.socketEx] at hx
      cases hx
    · simpa [Net.hungUp, Net.setInp, Net.useMid1, Net.setSo] using hc.inpSocket
  have hdis : soisdisconnected a ((n.useMid1 t none).setInp i fun p => { p with inpPpcb := none }) =
      .ok ((), n.hungUp a i t) := by
    apply soisdisconnected_ok (e := e)
    · simp [Net.useMid1, Net.setInp, hc.socket_ne, hc.socket]
    · exact hc.ex
    · exact hc.socketEx
  unfold tcpClose
  rw [bind_readTp hc.tcpcb, hc.tInpcb, bind_deref, bind_readInp hc.inpcb, hc.inpSocket, bind_deref,
    bind_freeMid1 (by simp [hc.tcpcb]), bind_writeInp (by exact hc.inpcb), run_bind hdis]
  exact hdet

end Close

/-- The invariant of the queues does not see what `tcp_close` does before it comes to `sofree`. -/
theorem QueueInv.detached (h : QueueInv n que) (hc : ConnBlocks n a e i t) :
    QueueInv (n.detached a i t) que := by
  have hmid : ∀ b, (n.detached a i t).mid1 b = some .socket ↔ n.mid1 b = some .socket := by
    intro b
    rcases eq_or_ne b t with rfl | hb
    · simp [Net.detached, Net.hungUp, Net.useMid1, Net.setInp, hc.tcpcb]
    · simp [Net.detached, Net.hungUp, Net.useMid1, Net.setInp, hb]
  apply h.frame
  · intro b hb
    left
    refine ⟨(hmid b).mpr hb, ?_⟩
    rcases eq_or_ne b a with rfl | hba
    · rw [detached_so]
      refine ⟨rfl, rfl, rfl, ?_, ?_, rfl⟩
      · intro k
        cases k <;> rfl
      · intro k
        cases k <;> rfl
    · rw [detached_so_of_ne hba]
      exact ⟨rfl, rfl, rfl, fun _ => rfl, fun _ => rfl, rfl⟩
  · intro b hb
    exact .inl ((hmid b).mp hb)

/-- A socket that is on no queue is given back. -/
theorem QueueInv.freed (h : QueueInv n que) (hoff : n.OffQueue a)
    (hmid : n'.mid1 = Function.update n.mid1 a none) (hso : ∀ b, b ≠ a → n'.so b = n.so b) :
    QueueInv n' que := by
  apply h.frame
  · intro b hb
    rcases eq_or_ne b a with rfl | hba
    · right
      refine ⟨?_, hoff⟩
      simp [hmid]
    · left
      rw [hmid, Function.update_of_ne hba, hso b hba]
      exact ⟨hb, rfl, rfl, rfl, fun _ => rfl, fun _ => rfl, rfl⟩
  · intro b hb
    left
    rcases eq_or_ne b a with rfl | hba
    · simp [hmid] at hb
    · rwa [hmid, Function.update_of_ne hba] at hb

/-- **`tcp_close`** gives back the blocks of a connection and takes its socket off the queue. -/
theorem tcpClose_ok (h : QueueInv n que) (hl : ListsInUse n) (hc : ConnBlocks n a e i t)
    (hacc : (n.so a).acceptConn = false) :
    ∃ n', tcpClose t n = .ok ((), n') ∧ Gone n n' a e i t ∧ QueueInv n' (without que a) := by
  have hacc' : ((n.detached a i t).so a).acceptConn = false := by
    rw [detached_so]
    exact hacc
  obtain ⟨n₁, hdq, hsame, hq, hoff⟩ := sofreeDequeue_ok (h.detached hc) hc.detached_mid1 hacc'
  rw [detached_so] at hdq
  have hfl := hsame.trans (SameBlocks.flushed n₁ a)
  refine ⟨_, tcpClose_run hc hl hdq hsame, ⟨?_, rfl, rfl, ?_, ?_, ?_, ?_⟩, ?_⟩
  · simp only [Net.released, hfl.mid1]
    rfl
  · simp only [Net.released, hfl.soTcpEx]
    rfl
  · intro j hj
    simp only [Net.released, hfl.inp]
    simp [Net.detached, Net.hungUp, Net.setSo, Net.setInp, Net.useMid1, hj]
  · simp only [Net.released, hfl.tp]
    rfl
  · intro b hb
    have hr := hfl.rest b
    rw [detached_so_of_ne hb] at hr
    exact hr
  · apply hq.freed hoff
    · simp only [Net.released, (SameBlocks.flushed n₁ a).mid1]
    · intro b hb
      simp [Net.released, Net.flushed, Net.setSo, hb]

/-! ## The invariant -/

/-- The blocks in use. -/
structure BlockInv (n : Net N M) : Prop where
  ex : ∀ a, n.mid1 a = some .socket → ∃ e, (n.so a).socketEx = some e ∧ n.lo e = some .socketEx
  ex_inj : ∀ a b, n.mid1 a = some .socket → n.mid1 b = some .socket →
    (n.so a).socketEx = (n.so b).socketEx → a = b
  pcb : ∀ a, n.mid1 a = some .socket →
    ∃ i, (n.so a).soPcb = some i ∧ n.lo i = some .inpcb ∧ (n.inp i).inpSocket = some a
  inp : ∀ i, n.lo i = some .inpcb → ∃ a t, (n.inp i).inpSocket = some a ∧ n.mid1 a = some .socket ∧
    (n.so a).soPcb = some i ∧ (n.inp i).inpPpcb = some t ∧ n.mid1 t = some .tcpcb ∧
    (n.tp t).tInpcb = some i
  tp : ∀ t, n.mid1 t = some .tcpcb →
    ∃ i, (n.tp t).tInpcb = some i ∧ n.lo i = some .inpcb ∧ (n.inp i).inpPpcb = some t
  lists : ListsInUse n
  exs_nodup : n.soTcpEx.Nodup
  tcb_nodup : n.tcb.Nodup

theorem BlockInv.conn (h : BlockInv n) (ht : n.mid1 t = some .tcpcb) : ∃ a e i, ConnBlocks n a e i t := by
  obtain ⟨i, h1, h2, h3⟩ := h.tp t ht
  obtain ⟨a, t', h4, h5, h6, h7, -, -⟩ := h.inp i h2
  obtain ⟨e, h8, h9⟩ := h.ex a h5
  exact ⟨a, e, i, h5, ht, h9, h2, h8, h6, h4, h3, h1⟩

theorem BlockInv.conn_of_socket (h : BlockInv n) (ha : n.mid1 a = some .socket) :
    ∃ e i t, ConnBlocks n a e i t := by
  obtain ⟨i, h1, h2, h3⟩ := h.pcb a ha
  obtain ⟨a', t, h4, -, -, h5, h6, h7⟩ := h.inp i h2
  obtain ⟨e, h8, h9⟩ := h.ex a ha
  exact ⟨e, i, t, ha, h6, h9, h2, h8, h1, h3, h5, h7⟩

/-- The blocks and the pointers between them. -/
structure SamePtrs (n n' : Net N M) : Prop where
  mid1 : n'.mid1 = n.mid1
  lo : n'.lo = n.lo
  inp : n'.inp = n.inp
  tp : n'.tp = n.tp
  tcb : n'.tcb = n.tcb
  soTcpEx : n'.soTcpEx = n.soTcpEx
  soPcb : ∀ b, (n'.so b).soPcb = (n.so b).soPcb
  socketEx : ∀ b, (n'.so b).socketEx = (n.so b).socketEx

theorem SameBlocks.ptrs (h : SameBlocks n n') : SamePtrs n n' :=
  ⟨h.mid1, h.lo, h.inp, h.tp, h.tcb, h.soTcpEx, fun b => (h.rest b).soPcb, fun b => (h.rest b).socketEx⟩

theorem SamePtrs.setSo {f : SocketTcp N M → SocketTcp N M} (hpcb : ∀ s, (f s).soPcb = s.soPcb)
    (hex : ∀ s, (f s).socketEx = s.socketEx) (a : Fin N) : SamePtrs n (n.setSo a f) :=
  ⟨rfl, rfl, rfl, rfl, rfl, rfl, setSo_proj _ hpcb, setSo_proj _ hex⟩

/-- Other fields of the sockets may change. -/
theorem BlockInv.same (h : BlockInv n) (hs : SamePtrs n n') : BlockInv n' := by
  refine ⟨?_, ?_, ?_, ?_, ?_, ⟨?_, ?_⟩, ?_, ?_⟩
  · intro a ha
    rw [hs.mid1] at ha
    rw [hs.socketEx a, hs.lo]
    exact h.ex a ha
  · intro a b ha hb hab
    rw [hs.mid1] at ha hb
    rw [hs.socketEx a, hs.socketEx b] at hab
    exact h.ex_inj a b ha hb hab
  · intro a ha
    rw [hs.mid1] at ha
    rw [hs.soPcb a, hs.lo, hs.inp]
    exact h.pcb a ha
  · intro i hi
    rw [hs.lo] at hi
    obtain ⟨a, t, h1, h2, h3, h4⟩ := h.inp i hi
    refine ⟨a, t, ?_⟩
    rw [hs.inp, hs.mid1, hs.soPcb a, hs.tp]
    exact ⟨h1, h2, h3, h4⟩
  · intro t ht
    rw [hs.mid1] at ht
    rw [hs.tp, hs.lo, hs.inp]
    exact h.tp t ht
  · rw [hs.soTcpEx, hs.lo]
    exact h.lists.exs
  · rw [hs.tcb, hs.lo]
    exact h.lists.tcbs
  · rw [hs.soTcpEx]
    exact h.exs_nodup
  · rw [hs.tcb]
    exact h.tcb_nodup

/-- The blocks that stay in use. -/
theorem Gone.mid1_iff (hg : Gone n n' a e i t) {b : Fin N} {u : Mid1Use} :
    n'.mid1 b = some u ↔ n.mid1 b = some u ∧ b ≠ a ∧ b ≠ t := by
  rw [hg.mid1]
  rcases eq_or_ne b a with rfl | ha
  · simp
  · rcases eq_or_ne b t with rfl | ht
    · simp [ha]
    · simp [ha, ht]

theorem Gone.lo_iff (hg : Gone n n' a e i t) {j : Fin M} {u : MinUse} :
    n'.lo j = some u ↔ n.lo j = some u ∧ j ≠ e ∧ j ≠ i := by
  rw [hg.lo]
  rcases eq_or_ne j i with rfl | hi
  · simp
  · rcases eq_or_ne j e with rfl | he
    · simp [hi]
    · simp [hi, he]

theorem ConnBlocks.inpcb_ne_ex (hc : ConnBlocks n a e i t) {j : Fin M} (hj : n.lo j = some .inpcb) :
    j ≠ e := by
  rintro rfl
  rw [hc.socketEx] at hj
  cases hj

theorem ConnBlocks.ex_ne_inpcb (hc : ConnBlocks n a e i t) {j : Fin M} (hj : n.lo j = some .socketEx) :
    j ≠ i := by
  rintro rfl
  rw [hc.inpcb] at hj
  cases hj

theorem ConnBlocks.socket_ne_tcpcb (hc : ConnBlocks n a e i t) {b : Fin N} (hb : n.mid1 b = some .socket) :
    b ≠ t := by
  rintro rfl
  rw [hc.tcpcb] at hb
  cases hb

theorem ConnBlocks.tcpcb_ne_socket (hc : ConnBlocks n a e i t) {u : Fin N} (hu : n.mid1 u = some .tcpcb) :
    u ≠ a := by
  rintro rfl
  rw [hc.socket] at hu
  cases hu

/-- The blocks of the other connections. -/
theorem BlockInv.gone (h : BlockInv n) (hc : ConnBlocks n a e i t) (hg : Gone n n' a e i t) :
    BlockInv n' := by
  constructor
  case ex =>
    intro b hb
    obtain ⟨hb, hba, -⟩ := hg.mid1_iff.mp hb
    obtain ⟨x, h1, h2⟩ := h.ex b hb
    refine ⟨x, (hg.rest b hba).socketEx.trans h1, hg.lo_iff.mpr ⟨h2, ?_, hc.ex_ne_inpcb h2⟩⟩
    rintro rfl
    exact hba (h.ex_inj b a hb hc.socket (h1.trans hc.ex.symm))
  case ex_inj =>
    intro b d hb hd hbd
    obtain ⟨hb, hba, -⟩ := hg.mid1_iff.mp hb
    obtain ⟨hd, hda, -⟩ := hg.mid1_iff.mp hd
    rw [(hg.rest b hba).socketEx, (hg.rest d hda).socketEx] at hbd
    exact h.ex_inj b d hb hd hbd
  case pcb =>
    intro b hb
    obtain ⟨hb, hba, -⟩ := hg.mid1_iff.mp hb
    obtain ⟨j, h1, h2, h3⟩ := h.pcb b hb
    have hji : j ≠ i := by
      rintro rfl
      have hab := h3.symm.trans hc.inpSocket
      simp only [Option.some.injEq] at hab
      exact hba hab
    rw [(hg.rest b hba).soPcb]
    refine ⟨j, h1, hg.lo_iff.mpr ⟨h2, hc.inpcb_ne_ex h2, hji⟩, ?_⟩
    rw [hg.inp j hji]
    exact h3
  case inp =>
    intro j hj
    obtain ⟨hj, -, hji⟩ := hg.lo_iff.mp hj
    obtain ⟨b, u, h1, h2, h3, h4, h5, h6⟩ := h.inp j hj
    have hba : b ≠ a := by
      rintro rfl
      have hij := h3.symm.trans hc.pcb
      simp only [Option.some.injEq] at hij
      exact hji hij
    have hut : u ≠ t := by
      rintro rfl
      have hij := h6.symm.trans hc.tInpcb
      simp only [Option.some.injEq] at hij
      exact hji hij
    rw [hg.inp j hji, hg.tp]
    exact ⟨b, u, h1, hg.mid1_iff.mpr ⟨h2, hba, hc.socket_ne_tcpcb h2⟩, (hg.rest b hba).soPcb.trans h3, h4,
      hg.mid1_iff.mpr ⟨h5, hc.tcpcb_ne_socket h5, hut⟩, h6⟩
  case tp =>
    intro u hu
    obtain ⟨hu, hua, hut⟩ := hg.mid1_iff.mp hu
    obtain ⟨j, h1, h2, h3⟩ := h.tp u hu
    have hji : j ≠ i := by
      rintro rfl
      have htu := h3.symm.trans hc.inpPpcb
      simp only [Option.some.injEq] at htu
      exact hut htu
    rw [hg.tp]
    refine ⟨j, h1, hg.lo_iff.mpr ⟨h2, hc.inpcb_ne_ex h2, hji⟩, ?_⟩
    rw [hg.inp j hji]
    exact h3
  case lists =>
    constructor
    · intro x hx
      rw [hg.soTcpEx, h.exs_nodup.mem_erase_iff] at hx
      have hxe := h.lists.exs x hx.2
      exact hg.lo_iff.mpr ⟨hxe, hx.1, hc.ex_ne_inpcb hxe⟩
    · intro x hx
      rw [hg.tcb, h.tcb_nodup.mem_erase_iff] at hx
      have hxi := h.lists.tcbs x hx.2
      exact hg.lo_iff.mpr ⟨hxi, hc.inpcb_ne_ex hxi, hx.1⟩
  case exs_nodup =>
    rw [hg.soTcpEx]
    exact h.exs_nodup.erase e
  case tcb_nodup =>
    rw [hg.tcb]
    exact h.tcb_nodup.erase i

end TnSock
