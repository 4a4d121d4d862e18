import TnNet.Sock.QueueRun

/-!
# Closing a listening socket

`tcp_s_close` goes over the connections that wait on `so_q0` and `so_q`, and drops a control block for
each of them: not the one of the connection, but `tp`, which is the listening socket's own.  The first
of these drops gives back the listening socket, whose queues the loop reads next; with both queues empty
the socket is given back under `drop` and written to after that.

* `tcpSClose_listener` — no close of a listening socket cleans up.
-/

set_option autoImplicit false

namespace TnSock

open Chain
open TnNet (TcpState)

variable {N M : Nat} {n n' n₁ : Net N M} {a c t L : Fin N} {e i : Fin M} {k : SoQ}
variable {que : SoQ → Fin N → List (Fin N)}

/-! ## The loops -/

theorem tcpClose_root (hl : ListsInUse n) (hc : ConnBlocks n a e i t) (hhead : (n.so a).soHead = none) :
    ∃ n', tcpClose t n = .ok ((), n') ∧ n'.mid1 a = none := by
  have hdq : onlyIf ((n.so a).soHead ≠ none) (sofreeDequeue a) (n.detached a i t) =
      .ok ((), n.detached a i t) := by
    simp [onlyIf, hhead]
  refine ⟨_, tcpClose_run hc hl hdq (.refl _), ?_⟩
  simp [Net.released]

theorem readSo_freed (h : n.mid1 a = none) : readSo a n = .error (.freedMid1 a) := by
  simp [readSo, h]

theorem writeSo_freed {f : SocketTcp N M → SocketTcp N M} (h : n.mid1 a = none) :
    writeSo a f n = .error (.freedMid1 a) := by
  simp [writeSo, h]

/-- A drop of the listening socket's control block gives the socket back. -/
theorem tcpDrop_root (h : NetInv n que) (hc : ConnBlocks n a e i t) (hhead : (n.so a).soHead = none)
    (errno : Nat) : ∃ n', tcpDrop t errno n = .ok ((), n') ∧ n'.mid1 a = none := by
  obtain ⟨n₁, hdrop, h1, hc1, hsame⟩ := tcpDrop_run h hc errno
  obtain ⟨n', hclose, hfree⟩ := tcpClose_root h1.blocks.lists hc1 (hsame.soHead.trans hhead)
  exact ⟨n', hdrop.trans hclose, hfree⟩

/-- A loop that finds a connection reads the listening socket after it has given it back. -/
theorem abortQueue_freed (h : NetInv n que) (hc : ConnBlocks n L e i t) (hhead : (n.so L).soHead = none)
    (hlink : (n.so L).link k ≠ none) : abortQueue k L t (N + 1) n = .error (.freedMid1 L) := by
  obtain ⟨n', hdrop, hfree⟩ := tcpDrop_root h hc hhead ECONNABORTED
  have hagain : abortQueue k L t N n' = .error (.freedMid1 L) := by
    obtain ⟨m, rfl⟩ : ∃ m, N = m + 1 := by
      have hpos := L.pos
      exact ⟨N - 1, by omega⟩
    rw [abortQueue, run_bind_error (readSo_freed hfree)]
  rw [abortQueue, bind_readSo hc.socket, onlyIf, if_pos hlink, run_bind hdrop]
  exact hagain

theorem abortQueue_empty (hL : n.mid1 L = some .socket) (hlink : (n.so L).link k = none) :
    abortQueue k L t (N + 1) n = .ok ((), n) := by
  rw [abortQueue, bind_readSo hL, onlyIf, if_neg (by simp [hlink])]
  rfl

/-! ## The rest of the call -/

section Rest

variable (h : NetInv n que) (hc : ConnBlocks n L e i t) (hhead : (n.so L).soHead = none)
variable (hlisten : (n.tp t).tState = .listen)

include h hc hhead hlisten

theorem tcpDisconnect_root : ∃ n', tcpDisconnect t n = .ok ((), n') ∧ n'.mid1 L = none := by
  obtain ⟨n', hclose, hfree⟩ := tcpClose_root h.blocks.lists hc hhead
  refine ⟨n', ?_, hfree⟩
  rw [tcpDisconnect, run_bind (socketOf_ok hc), bind_readTp hc.tcpcb,
    if_pos (by simp [hlisten, TcpState.haveEstablished, TcpState.num])]
  exact hclose

theorem closeDrop_root (error : Nat) : closeDrop L t error n = .error (.freedMid1 L) := by
  obtain ⟨n', hclose, hfree⟩ := tcpClose_root h.blocks.lists hc hhead
  have hif : onlyIf ((n.so L).soPcb ≠ none) (do
      let tcb ← readTp t
      if TcpState.listen.num < tcb.tState.num then tcpDisconnect t else tcpClose t) n = .ok ((), n') := by
    rw [onlyIf, if_pos (by simp [hc.pcb]), bind_readTp hc.tcpcb, if_neg (by simp [hlisten])]
    exact hclose
  rw [closeDrop, bind_readSo hc.socket, bind_onlyIf _ hif, run_bind_error (writeSo_freed hfree)]

/-- With no connection on its queues the socket is given back, and then read or written. -/
theorem closeSocket_root : closeSocket L t n = .error (.freedMid1 L) ∨
    ∃ n', closeSocket L t n = .ok (.wait, n') := by
  rw [closeSocket, bind_readSo hc.socket, if_neg (by simp [hc.pcb])]
  split
  · left
    exact closeDrop_root h hc hhead hlisten 0
  · split
    · rw [closeLinger, bind_readSo hc.socket]
      split
      · right
        rw [hc.ex, bind_deref, bind_touchEx hc.socketEx]
        exact ⟨n, rfl⟩
      · left
        exact closeDrop_root h hc hhead hlisten 0
    · left
      rename_i hconn hdis
      obtain ⟨n', hdisc, hfree⟩ := tcpDisconnect_root h hc hhead hlisten
      have hso : sodisconnect L n = .ok (0, n') := by
        rw [sodisconnect, bind_readSo hc.socket, hc.pcb]
        dsimp only
        rw [bind_readInp hc.inpcb, hc.inpPpcb]
        dsimp only
        rw [if_neg hconn, if_neg hdis, run_bind hdisc]
        rfl
      rw [run_bind hso, if_neg (by simp), closeLinger, run_bind_error (readSo_freed hfree)]

end Rest

/-- The call returns with every block of the listening socket and of its connections given back, none of
    them twice, and their `inpcb`s off the list. -/
def CleanClose (n : Net N M) (L : Fin N) (conns : List (Fin N)) : Prop :=
  ∃ rc n', tcpSClose L n = .ok (.done rc, n') ∧ ∀ c ∈ L :: conns, n'.mid1 c = none ∧
    (∀ e, (n.so c).socketEx = some e → n'.lo e = none) ∧
    ∀ i, (n.so c).soPcb = some i → n'.lo i = none ∧ i ∉ n'.tcb ∧
      ∀ t, (n.inp i).inpPpcb = some t → n'.mid1 t = none

/-- The call gives the listening socket back and then goes on with it, or does not give it back. -/
theorem tcpSClose_root (h : NetInv n que) (hL : n.listens L) (hc : ConnBlocks n L e i t)
    (hlisten : (n.tp t).tState = .listen) : tcpSClose L n = .error (.freedMid1 L) ∨
      (∃ n', tcpSClose L n = .ok (.wait, n')) ∨ ∃ rc, tcpSClose L n = .ok (.done rc, n) := by
  have hhead := h.queues.root L hL
  rw [tcpSClose, bind_readSo hL.1, hc.pcb]
  dsimp only
  rw [bind_readInp hc.inpcb, hc.inpPpcb]
  dsimp only
  split
  · exact .inr (.inr ⟨0, rfl⟩)
  · by_cases hq0 : (n.so L).link .soQ0 = none
    · by_cases hq : (n.so L).link .soQ = none
      · have hif : onlyIf ((n.so L).acceptConn = true) (do
            abortQueue .soQ0 L t (N + 1)
            abortQueue .soQ L t (N + 1)) n = .ok ((), n) := by
          rw [onlyIf, if_pos hL.2, run_bind (abortQueue_empty hL.1 hq0)]
          exact abortQueue_empty hL.1 hq
        rw [bind_onlyIf _ hif]
        rcases closeSocket_root h hc hhead hlisten with hr | hr
        · exact .inl hr
        · exact .inr (.inl hr)
      · left
        apply run_bind_error
        rw [onlyIf, if_pos hL.2, run_bind (abortQueue_empty hL.1 hq0)]
        exact abortQueue_freed h hc hhead hq
    · left
      apply run_bind_error
      rw [onlyIf, if_pos hL.2]
      apply run_bind_error
      exact abortQueue_freed h hc hhead hq0

/-- **No close of a listening socket cleans up.** -/
theorem tcpSClose_listener {q0 q : List (Fin N)} (h : NetInv n que) (hL : n.listens L)
    (hpcb : (n.so L).soPcb = some i) (hppcb : (n.inp i).inpPpcb = some t)
    (hlisten : (n.tp t).tState = .listen) (_hq : QueuesOk n L q0 q) : ¬ CleanClose n L (q0 ++ q) := by
  rintro ⟨rc, n', hrun, hclean⟩
  obtain ⟨e, i', t', hc⟩ := h.blocks.conn_of_socket hL.1
  obtain rfl : i' = i := by
    have hii := hc.pcb.symm.trans hpcb
    simpa using hii
  obtain rfl : t' = t := by
    have htt := hc.inpPpcb.symm.trans hppcb
    simpa using htt
  rcases tcpSClose_root h hL hc hlisten with hr | ⟨n'', hr⟩ | ⟨rc', hr⟩
  · rw [hr] at hrun
    cases hrun
  · rw [hr] at hrun
    cases hrun
  · rw [hr] at hrun
    cases hrun
    have hfree := (hclean L List.mem_cons_self).1
    rw [hL.1] at hfree
    cases hfree

scoped instance neZero_four : NeZero 4 := ⟨by decide⟩

/-- A socket listens, and one connection to it has not completed its handshake. -/
def halfOpenRun : List (SockEvent 4 4) :=
  [.socket AF_INET SOCK_STREAM true ⟨some 0, some 0, some 1, some 1⟩, .listen 0 1 0,
    .sonewconn 0 ⟨some 2, some 2, some 3, some 3⟩]

def halfOpen : Net 4 4 := ((Machine.run sockStep (some (Net.init 4 4)) halfOpenRun).1).getD (Net.init 4 4)

/-- The fault a call ends at. -/
def faultOf {α : Type} : Except (Fault N M) α → Option (Fault N M)
  | .error f => some f
  | .ok _ => none

theorem halfOpenRun_orderly :
    Machine.Guarded sockStep (fun n ev => ev.Orderly n) (some (Net.init 4 4)) halfOpenRun := by
  decide +kernel

theorem halfOpen_inv : ∃ que, NetInv halfOpen que := by
  obtain ⟨n, hn, que, hinv⟩ := run_netInv halfOpenRun_orderly
  refine ⟨que, ?_⟩
  rw [halfOpen, hn]
  exact hinv

theorem halfOpen_queues : QueuesOk halfOpen 0 [2] [] := by
  refine ⟨?_, ?_, ?_, ?_, ?_, ?_, ?_⟩ <;> decide +kernel

theorem close_half_open : halfOpen.listens 0 ∧ (halfOpen.so 0).soQ0 = some 2 ∧
    (halfOpen.so 0).soQ = none ∧
    faultOf (tcpSClose 0 halfOpen) = some (.freedMid1 0) ∧ ¬ CleanClose halfOpen 0 [2] := by
  have hfault : faultOf (tcpSClose 0 halfOpen) = some (.freedMid1 0) := by decide +kernel
  refine ⟨by decide +kernel, by decide +kernel, by decide +kernel, hfault, ?_⟩
  rintro ⟨rc, n', hrun, -⟩
  rw [hrun] at hfault
  cases hfault

theorem close_half_open_not_clean : ¬ CleanClose halfOpen 0 ([2] ++ []) := by
  obtain ⟨que, hinv⟩ := halfOpen_inv
  exact tcpSClose_listener (i := 1) (t := 1) hinv (by decide +kernel) (by decide +kernel)
    (by decide +kernel) (by decide +kernel) halfOpen_queues

end TnSock
