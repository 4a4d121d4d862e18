import TnNet.Sock.ListenClose

/-!
# Failed attachments

`tcp_attach` takes an `inpcb` and then a `tcpcb`.  Without the `inpcb` it returns at once, and the
caller gives the new socket back.  Without the `tcpcb` it calls `in_pcbdetach`, with `SS_NOFDREF` off so
that the socket is not given back; but `sofree` gives it back as soon as `so_pcb` is null, and
`tcp_attach` writes to it after that.

* `attach_atomic_iff` — a call of `tcp_s_socket` or `sonewconn` that fails leaves everything as it was,
  unless it is the request for the `tcpcb` that fails.
-/

set_option autoImplicit false

namespace TnSock

open Chain

variable {N M : Nat} {n n' n₁ : Net N M} {a b c t L last : Fin N} {e i : Fin M} {k : SoQ}
variable {que : SoQ → Fin N → List (Fin N)} {rinp : Option (Fin M)} {rtp : Option (Fin N)}

/-! ## No `inpcb` -/

theorem tcpAttach_noInp (ha : n.mid1 a = some .socket) (hinp : ∀ i, rinp = some i → n.lo i ≠ none) :
    tcpAttach a rinp rtp n = .ok (ENOBUFS, n.attachReserve a) := by
  have halloc : inPcballoc a rinp (n.attachReserve a) = .ok (ENOBUFS, n.attachReserve a) := by
    rcases allocMin_cases rinp .inpcb (n.attachReserve a) with hr | ⟨i, hi, hfree⟩
    · rw [inPcballoc, run_bind hr]
      rfl
    · rw [(SameBlocks.attachReserve n a).lo] at hfree
      exact absurd hfree (hinp i hi)
  rw [tcpAttach, run_bind (attachReserve_ok ha), if_neg (by simp), run_bind halloc, if_pos (by decide)]
  rfl

theorem addLen_addLen (s : SocketTcp N M) (d : Int) : (s.addLen d k).addLen (-d) k = s := by
  cases k <;> simp [SocketTcp.addLen]

theorem setLink_setLink (s : SocketTcp N M) (x y : Option (Fin N)) :
    (s.setLink x k).setLink y k = s.setLink y k := by
  cases k <;> rfl

theorem setLink_link (s : SocketTcp N M) : s.setLink (s.link k) k = s := by
  cases k <;> rfl

theorem setLink_addLen (s : SocketTcp N M) (x : Option (Fin N)) (d : Int) :
    (s.addLen d k).setLink x k = (s.setLink x k).addLen d k := by
  cases k <;> rfl

/-- A socket that joins a queue at its end and leaves it again leaves nothing behind. -/
theorem unlinkQ_insertQ (hb : b ≠ a) (hend : (n.so last).link k = none)
    (hn : ∀ c, c ≠ a → n₁.so c = (n.insertQ L last a k).so c) (hlink : (n₁.so a).link k = none) :
    (n₁.unlinkQ L last a k).so b = n.so b := by
  have hins : (n.insertQ L last a k).so b = (if b = last then fun s => s.setLink (some a) k else id)
      ((if b = L then fun s => s.addLen 1 k else id) (n.so b)) := by
    unfold Net.insertQ Net.openQ
    split
    · rename_i hbl
      subst hbl
      rw [setSo_so_self, setSo_so_of_ne _ hb]
      split
      · rename_i hbL
        subst hbL
        rw [setSo_so_self, setSo_so_of_ne _ hb]
      · rename_i hbL
        rw [setSo_so_of_ne _ hbL, setSo_so_of_ne _ hb]
        rfl
    · rename_i hbl
      rw [setSo_so_of_ne _ hbl, setSo_so_of_ne _ hb]
      split
      · rename_i hbL
        subst hbL
        rw [setSo_so_self, setSo_so_of_ne _ hb]
        rfl
      · rename_i hbL
        rw [setSo_so_of_ne _ hbL, setSo_so_of_ne _ hb]
        rfl
  unfold Net.unlinkQ
  rw [setSo_so_of_ne _ hb]
  rcases eq_or_ne b L with rfl | hbL
  · rw [setSo_so_self]
    rcases eq_or_ne b last with rfl | hbl
    · rw [setSo_so_self, hn b hb, hins, if_pos rfl, if_pos rfl, hlink]
      rw [setLink_setLink, setLink_addLen, ← hend, setLink_link, addLen_addLen]
    · rw [setSo_so_of_ne _ hbl, hn b hb, hins, if_neg hbl, if_pos rfl, id, addLen_addLen]
  · rw [setSo_so_of_ne _ hbL]
    rcases eq_or_ne b last with rfl | hbl
    · rw [setSo_so_self, hn b hb, hins, if_pos rfl, if_neg hbL, hlink, setLink_setLink, id, ← hend,
        setLink_link]
    · rw [setSo_so_of_ne _ hbl, hn b hb, hins, if_neg hbl, if_neg hbL]
      rfl

/-- Everything is as it was: the pools, the lists and every socket. -/
structure Untouched (n n' : Net N M) : Prop where
  mid1 : n'.mid1 = n.mid1
  lo : n'.lo = n.lo
  tcb : n'.tcb = n.tcb
  soTcpEx : n'.soTcpEx = n.soTcpEx
  so : ∀ b, n.mid1 b = some .socket → n'.so b = n.so b

theorem SameLive.untouched (h : SameLive n n') : Untouched n n' := by
  obtain rfl | ⟨a, v, ha, rfl⟩ := h
  · exact ⟨rfl, rfl, rfl, rfl, fun _ _ => rfl⟩
  · refine ⟨rfl, rfl, rfl, rfl, ?_⟩
    intro b hb
    apply Function.update_of_ne
    rintro rfl
    rw [ha] at hb
    cases hb

/-- The new socket is given back. -/
theorem Fresh.untouched (h : Fresh n n₁ a e) (ha : n.mid1 a = none) (he : n.lo e = none)
    (hl : ListsInUse n) (hso : ∀ b, b ≠ a → n₁.so b = n.so b) : Untouched n (n₁.released a e) := by
  have hnot : e ∉ n.soTcpEx := by
    intro hm
    have hlo := hl.exs e hm
    rw [he] at hlo
    cases hlo
  refine ⟨?_, ?_, h.tcb, ?_, ?_⟩
  · simp [Net.released, h.mid1, ← ha]
  · simp [Net.released, h.lo, ← he]
  · simp [Net.released, h.soTcpEx, List.erase_append_right _ hnot]
  · intro b hb
    apply hso
    rintro rfl
    rw [ha] at hb
    cases hb

theorem Fresh.exs (h : Fresh n n₁ a e) (he : n.lo e = none) (hl : ListsInUse n) :
    ∀ x ∈ n₁.soTcpEx, n₁.lo x = some .socketEx := by
  intro x hx
  rw [h.soTcpEx, List.mem_append, List.mem_singleton] at hx
  rw [h.lo]
  rcases hx with hx | rfl
  · have hlo := hl.exs x hx
    rw [Function.update_of_ne, hlo]
    rintro rfl
    rw [he] at hlo
    cases hlo
  · exact Function.update_self _ _ _

/-- Stores to the new socket keep it new. -/
theorem Fresh.same (h : Fresh n n₁ a e) (hs : SamePtrs n₁ n') : Fresh n n' a e := by
  refine ⟨hs.mid1.trans h.mid1, hs.lo.trans h.lo, hs.inp.trans h.inp, hs.tp.trans h.tp,
    hs.tcb.trans h.tcb, hs.soTcpEx.trans h.soTcpEx, ?_, (hs.socketEx a).trans h.ex⟩
  intro b hb
  rw [hs.soPcb, hs.socketEx]
  exact h.ptrs b hb

theorem attachReserve_so_of_ne (hb : b ≠ a) : (n.attachReserve a).so b = n.so b := by
  unfold Net.attachReserve
  split
  · simp [Net.reserve, Net.setSo, hb]
  · rfl

theorem flushed_so_of_ne (hb : b ≠ a) : (n.flushed a).so b = n.so b := by
  simp [Net.flushed, Net.setSo, hb]

/-- A socket with no `inpcb` to be had. -/
theorem Fresh.attach_noInp (h : Fresh n n₁ a e) (he : n.lo e = none)
    (hinp : ∀ i, rinp = some i → n.lo i ≠ none ∨ i = e) :
    tcpAttach a rinp rtp n₁ = .ok (ENOBUFS, n₁.attachReserve a) := by
  apply tcpAttach_noInp
  · rw [h.mid1, Function.update_self]
  · intro i hi
    rw [h.lo]
    rcases hinp i hi with hu | rfl
    · rw [Function.update_of_ne]
      · exact hu
      · rintro rfl
        exact hu he
    · rw [Function.update_self]
      simp

/-- `tcp_s_socket` without the `inpcb`. -/
theorem tcpSSocket_noInp (ha : n.mid1 a = none) (he : n.lo e = none) (hl : ListsInUse n)
    (hinp : ∀ i, rinp = some i → n.lo i ≠ none ∨ i = e) :
    ∃ n', tcpSSocket AF_INET SOCK_STREAM true ⟨some a, some e, rinp, rtp⟩ n = .ok (none, n') ∧
      Untouched n n' := by
  have hfr : Fresh n ((n.allocated a e).attachReserve a) a e :=
    (fresh_allocated n a e).same (SameBlocks.attachReserve _ a).ptrs
  have hatt : tcpAttach a rinp rtp (n.allocated a e) = .ok (ENOBUFS, (n.allocated a e).attachReserve a) :=
    (fresh_allocated n a e).attach_noInp he hinp
  let m := ((n.allocated a e).attachReserve a).setSo a fun s => { s with nofdref := true }
  have hm : Fresh n m a e := by
    apply hfr.same
    apply SamePtrs.setSo
    · exact fun _ => rfl
    · exact fun _ => rfl
  have hhead : (m.so a).soHead = none := by
    rw [setSo_so_self]
    change (((n.allocated a e).attachReserve a).so a).soHead = none
    rw [(attachReserve_queue _ a a).soHead]
    simp [Net.allocated]
  have hpcb : (m.so a).soPcb = none := by
    rw [setSo_so_self]
    change (((n.allocated a e).attachReserve a).so a).soPcb = none
    rw [((SameBlocks.attachReserve (n.allocated a e) a).rest a).soPcb]
    simp [Net.allocated]
  have hmid : m.mid1 a = some .socket := by rw [hm.mid1, Function.update_self]
  have hfree : sofree a m = .ok (0, (m.flushed a).released a e) := by
    apply sofree_ok hmid hm.ex _ (hm.exs he hl) hpcb (sofreeDequeue_off hhead) (.refl m)
    rw [hm.lo, Function.update_self]
  refine ⟨(m.flushed a).released a e, ?_, ?_⟩
  · rw [tcpSSocket, if_neg (by simp), run_bind (tnSocketTcpAlloc_ok ha he hl.exs)]
    dsimp only
    rw [run_bind hatt, if_pos (by decide), bind_writeSo (by exact hmid), run_bind hfree]
    rfl
  · apply (hm.same (SameBlocks.flushed m a).ptrs).untouched ha he hl
    intro b hb
    rw [flushed_so_of_ne hb, setSo_so_of_ne _ hb, attachReserve_so_of_ne hb]
    simp [Net.allocated, hb]

/-- `sonewconn` without the `inpcb`. -/
theorem sonewconn_noInp (h : QueueInv n que) (hl : ListsInUse n) (hL : n.listens L)
    (hroom : (n.so L).soQlen + (n.so L).soQ0len ≤ 3 * (n.so L).soQlimit / 2) (ha : n.mid1 a = none)
    (he : n.lo e = none) (hinp : ∀ i, rinp = some i → n.lo i ≠ none ∨ i = e) :
    ∃ n', sonewconn L ⟨some a, some e, rinp, rtp⟩ n = .ok (none, n') ∧ Untouched n n' := by
  obtain ⟨y, z, hrun, hq⟩ := sonewconn_queued h hl hL hroom ha he rinp rtp
  have hend := (h.links .soQ0 L hL).next_last
  have hlastmem := getLastD_mem L (que .soQ0 L)
  generalize hlast : (que .soQ0 L).getLastD L = last at hrun hq hend hlastmem
  have hlasta : last ≠ a := by
    rintro rfl
    have hlive := h.alive hL .soQ0 _ hlastmem
    rw [ha] at hlive
    cases hlive
  have hLa : L ≠ a := by
    rintro rfl
    have hlive := hL.1
    rw [ha] at hlive
    cases hlive
  let m := ((n.cloned L a e y z).insertQ L last a .soQ0).attachReserve a
  have hfr := fresh_insertQ n L last a e y z .soQ0
  have hm : Fresh n m a e := hfr.same (SameBlocks.attachReserve _ a).ptrs
  have hmid : m.mid1 a = some .socket := by rw [hm.mid1, Function.update_self]
  have hqm : QueueInv m (setQue que .soQ0 L (que .soQ0 L ++ [a])) := by
    apply hq.same
    · intro b
      rw [(SameBlocks.attachReserve ((n.cloned L a e y z).insertQ L last a .soQ0) a).mid1]
    · exact attachReserve_queue _ a
  have hrem : soqremque a .soQ0 m = .ok (true, m.unlinkQ L last a .soQ0) := by
    rw [← hlast]
    have hcut : setQue que .soQ0 L (que .soQ0 L ++ [a]) .soQ0 L = que .soQ0 L ++ a :: [] :=
      setQue_self que .soQ0 L _
    exact soqremque_ok hqm hcut
  have hun : Fresh n (m.unlinkQ L last a .soQ0) a e := by
    apply hm.same
    exact (SameBlocks.unlinkQ m L last a .soQ0).ptrs
  refine ⟨(m.unlinkQ L last a .soQ0).released a e, ?_, ?_⟩
  · rw [hrun, newconnAttach, run_bind (hfr.attach_noInp he hinp), if_pos (by decide), run_bind hrem,
      run_bind (tnSocketTcpRelease_ok (by exact hmid) hun.ex _ (hun.exs he hl))]
    · rfl
    · rw [hun.lo, Function.update_self]
  · apply hun.untouched ha he hl
    intro b hb
    rw [unlinkQ_insertQ (n := n.cloned L a e y z) hb, cloned_so_of_ne hb]
    · rw [cloned_so_of_ne hlasta]
      exact hend
    · intro c hc
      exact attachReserve_so_of_ne hc
    · rw [(attachReserve_queue _ a a).link, insertQ_self_link hlasta hLa, if_pos rfl]

/-! ## No `tcpcb` -/

/-- The state in which `tcp_attach` calls `sofree` without a `tcpcb`. -/
def Net.unattached (n : Net N M) (a : Fin N) (i : Fin M) : Net N M :=
  (((n.attachReserve a).pcbAllocated a i).setSo a fun s => { s with nofdref := false }).setSo a
    fun s => { s with soPcb := none }

theorem unattached_queue (b : Fin N) : ((n.unattached a i).so b).link k = (n.so b).link k ∧
    ((n.unattached a i).so b).soHead = (n.so b).soHead := by
  have hs := attachReserve_queue n a b
  rw [← hs.link, ← hs.soHead]
  rcases eq_or_ne b a with rfl | hb
  · simp only [Net.unattached, setSo_so_self, Net.pcbAllocated, Function.update_self, and_true]
    cases k <;> rfl
  · simp only [Net.unattached, setSo_so_of_ne _ hb, Net.pcbAllocated, Function.update_of_ne hb]
    exact ⟨trivial, trivial⟩

section NoTp

variable (h : Fresh n n₁ a e) (hi : n.lo i = none) (hie : i ≠ e)

include h

theorem Fresh.newtcpcb_none (htp : ∀ t, rtp = some t → n.mid1 t ≠ none ∨ t = a) :
    tcpNewtcpcb i rtp ((n₁.attachReserve a).pcbAllocated a i) =
      .ok (none, (n₁.attachReserve a).pcbAllocated a i) := by
  rcases allocMid1_cases rtp .tcpcb ((n₁.attachReserve a).pcbAllocated a i) with hr | ⟨t, ht, hfree⟩
  · rw [tcpNewtcpcb, run_bind hr]
    rfl
  · change (n₁.attachReserve a).mid1 t = none at hfree
    rw [(SameBlocks.attachReserve n₁ a).mid1, h.mid1] at hfree
    rcases htp t ht with hu | rfl
    · have hta : t ≠ a := by
        rintro rfl
        simp at hfree
      rw [Function.update_of_ne hta] at hfree
      exact absurd hfree hu
    · simp at hfree

omit h in
theorem unattached_lo : (n₁.unattached a i).lo = Function.update n₁.lo i (some .inpcb) := by
  rw [← (SameBlocks.attachReserve n₁ a).lo]
  rfl

theorem Fresh.unattached_mid1 : (n₁.unattached a i).mid1 a = some .socket := by
  rw [← h.alive, ← (SameBlocks.attachReserve n₁ a).mid1]
  rfl

include hi hie

theorem Fresh.free_inp : n₁.lo i = none := by
  rw [h.lo, Function.update_of_ne hie, hi]

/-- `sofree` gives the socket back. -/
theorem Fresh.sofree_unattached (he : n.lo e = none) (hl : ListsInUse n)
    (hdq : onlyIf (((n₁.unattached a i).so a).soHead ≠ none) (sofreeDequeue a) (n₁.unattached a i) =
      .ok ((), n')) (hsame : SameBlocks (n₁.unattached a i) n') :
    sofree a (n₁.unattached a i) = .ok (0, (n'.flushed a).released a e) := by
  have hs := SameBlocks.attachReserve n₁ a
  apply sofree_ok h.unattached_mid1 _ _ _ _ hdq hsame
  · simp only [Net.unattached, setSo_so_self, Net.pcbAllocated, Function.update_self]
    rw [(hs.rest a).socketEx]
    exact h.ex
  · rw [unattached_lo, Function.update_of_ne hie.symm, h.lo, Function.update_self]
  · intro x hx
    change x ∈ (n₁.attachReserve a).soTcpEx at hx
    rw [hs.soTcpEx] at hx
    have hlo := h.exs he hl x hx
    rw [unattached_lo, Function.update_of_ne, hlo]
    rintro rfl
    rw [h.free_inp hi hie] at hlo
    cases hlo
  · simp only [Net.unattached, setSo_so_self]

theorem Fresh.detach_unattached (he : n.lo e = none) (hl : ListsInUse n)
    (hdq : onlyIf (((n₁.unattached a i).so a).soHead ≠ none) (sofreeDequeue a) (n₁.unattached a i) =
      .ok ((), n')) (hsame : SameBlocks (n₁.unattached a i) n') :
    ∃ m, inPcbdetach i (((n₁.attachReserve a).pcbAllocated a i).setSo a
      fun s => { s with nofdref := false }) = .ok ((), m) ∧ m.mid1 a = none := by
  have hs := SameBlocks.attachReserve n₁ a
  have hfl := hsame.trans (SameBlocks.flushed n' a)
  have hlo : ((n'.flushed a).released a e).lo = Function.update (n₁.unattached a i).lo e none := by
    simp only [Net.released, hfl.lo]
  refine ⟨_, inPcbdetach_ok ?_ ?_ (h.unattached_mid1 (i := i))
    (h.sofree_unattached hi hie he hl hdq hsame) ?_ ?_, ?_⟩
  · simp [Net.pcbAllocated, Net.setSo]
  · simp [Net.pcbAllocated, Net.setSo]
  · rw [hlo, Function.update_of_ne hie, unattached_lo, Function.update_self]
  · intro x hx
    simp only [Net.released, hfl.tcb] at hx
    change x ∈ i :: (n₁.attachReserve a).tcb at hx
    rw [hs.tcb, List.mem_cons] at hx
    rw [hlo, unattached_lo]
    rcases hx with rfl | hx
    · rw [Function.update_of_ne hie, Function.update_self]
    · have huse := h.tcbs he hl x hx
      have hxi : x ≠ i := by
        rintro rfl
        rw [h.free_inp hi hie] at huse
        cases huse
      have hxe : x ≠ e := by
        rintro rfl
        rw [h.lo, Function.update_self] at huse
        cases huse
      rw [Function.update_of_ne hxe, Function.update_of_ne hxi, huse]
  · simp [Net.released]

/-- `tcp_attach` writes to the socket after `in_pcbdetach` has given it back. -/
theorem Fresh.attach_noTp (he : n.lo e = none) (hl : ListsInUse n)
    (htp : ∀ t, rtp = some t → n.mid1 t ≠ none ∨ t = a)
    (hdq : onlyIf (((n₁.unattached a i).so a).soHead ≠ none) (sofreeDequeue a) (n₁.unattached a i) =
      .ok ((), n')) (hsame : SameBlocks (n₁.unattached a i) n') :
    tcpAttach a (some i) rtp n₁ = .error (.freedMid1 a) := by
  have hs := SameBlocks.attachReserve n₁ a
  have hmid : (n₁.attachReserve a).mid1 a = some .socket := by rw [hs.mid1, h.alive]
  have halloc : inPcballoc a (some i) (n₁.attachReserve a) =
      .ok (0, (n₁.attachReserve a).pcbAllocated a i) := by
    apply inPcballoc_ok hmid
    · rw [hs.lo, h.free_inp hi hie]
    · rw [hs.tcb, hs.lo]
      exact h.tcbs he hl
  obtain ⟨m, hdet, hfree⟩ := h.detach_unattached hi hie he hl hdq hsame
  rw [tcpAttach, run_bind (attachReserve_ok h.alive), if_neg (by simp), run_bind halloc, if_neg (by simp),
    bind_readSo (by exact hmid)]
  simp only [Net.pcbAllocated, Function.update_self, bind_deref]
  rw [← Net.pcbAllocated, run_bind (h.newtcpcb_none htp)]
  dsimp only
  rw [tcpUnattach, bind_readSo (by exact hmid), bind_writeSo (by exact hmid), run_bind hdet]
  apply run_bind_error
  exact writeSo_freed hfree

end NoTp

theorem tcpSSocket_noTp (ha : n.mid1 a = none) (he : n.lo e = none) (hl : ListsInUse n) (hi : n.lo i = none)
    (hie : i ≠ e) (htp : ∀ t, rtp = some t → n.mid1 t ≠ none ∨ t = a) :
    tcpSSocket AF_INET SOCK_STREAM true ⟨some a, some e, some i, rtp⟩ n = .error (.freedMid1 a) := by
  have hhead : (((n.allocated a e).unattached a i).so a).soHead = none := by
    simp only [Net.unattached, setSo_so_self, Net.pcbAllocated, Function.update_self]
    rw [(attachReserve_queue _ a a).soHead]
    simp [Net.allocated]
  have hatt := (fresh_allocated n a e).attach_noTp hi hie he hl htp (sofreeDequeue_off hhead) (.refl _)
  rw [tcpSSocket, if_neg (by simp), run_bind (tnSocketTcpAlloc_ok ha he hl.exs)]
  dsimp only
  rw [run_bind_error hatt]

theorem sonewconn_noTp (h : QueueInv n que) (hl : ListsInUse n) (hL : n.listens L)
    (hroom : (n.so L).soQlen + (n.so L).soQ0len ≤ 3 * (n.so L).soQlimit / 2) (ha : n.mid1 a = none)
    (he : n.lo e = none) (hi : n.lo i = none) (hie : i ≠ e)
    (htp : ∀ t, rtp = some t → n.mid1 t ≠ none ∨ t = a) :
    sonewconn L ⟨some a, some e, some i, rtp⟩ n = .error (.freedMid1 a) := by
  obtain ⟨y, z, hrun, hq⟩ := sonewconn_queued h hl hL hroom ha he (some i) rtp
  generalize (que .soQ0 L).getLastD L = last at hrun hq
  have hfr := fresh_insertQ n L last a e y z .soQ0
  have hLq : ((n.cloned L a e y z).insertQ L last a .soQ0).listens L := by
    apply hq.listens_of_mem (k := .soQ0) (c := a)
    simp
  have hqueue := setQue_self que .soQ0 L (que .soQ0 L ++ [a])
  have hlinks := hq.links .soQ0 L hLq
  have hnd := hq.cons_nodup hLq .soQ0
  have halive := hq.alive hLq .soQ0
  rw [hqueue] at hlinks hnd halive
  let m := ((n.cloned L a e y z).insertQ L last a .soQ0).unattached a i
  have hmid : m.mid1 = ((n.cloned L a e y z).insertQ L last a .soQ0).mid1 :=
    (SameBlocks.attachReserve ((n.cloned L a e y z).insertQ L last a .soQ0) a).mid1
  have hhead : (m.so a).soHead = some L := by
    rw [(unattached_queue (k := .soQ0) a).2, insertQ_soHead, if_pos rfl]
  have hrem : soqremque a .soQ0 m = .ok (true, m.unlinkQ L ((que .soQ0 L).getLastD L) a .soQ0) := by
    apply soqremque_run hhead _ hnd
    · rw [hmid]
      exact halive
    · apply hlinks.frame
      intro b _
      exact (unattached_queue b).1
  have hdq : onlyIf ((m.so a).soHead ≠ none) (sofreeDequeue a) m =
      .ok ((), (m.unlinkQ L ((que .soQ0 L).getLastD L) a .soQ0).setSo a fun s =>
        { s with soHead := none }) := by
    have hany : soqremqueAny a m = .ok (true, m.unlinkQ L ((que .soQ0 L).getLastD L) a .soQ0) := by
      rw [soqremqueAny, run_bind hrem]
      rfl
    rw [onlyIf, if_pos (by simp [hhead]), sofreeDequeue, run_bind hany, if_pos rfl]
    apply writeSo_ok
    exact hfr.unattached_mid1 (i := i)
  have hsame : SameBlocks m ((m.unlinkQ L ((que .soQ0 L).getLastD L) a .soQ0).setSo a
      fun s => { s with soHead := none }) := by
    apply (SameBlocks.unlinkQ m L _ a .soQ0).trans
    apply SameBlocks.setSo
    intro s
    exact ⟨rfl, rfl, rfl, rfl, rfl⟩
  rw [hrun, newconnAttach, run_bind_error (hfr.attach_noTp hi hie he hl htp hdq hsame)]

/-! ## The two calls -/

/-- A call that fails leaves everything as it was, and ends without a fault. -/
def AtomicFailure (n : Net N M) : Except (Fault N M) (Option (Fin N) × Net N M) → Prop
  | .ok (none, n') => Untouched n n'
  | .ok (some _, _) => True
  | .error _ => False

/-- The pools have the blocks of the new socket and its `inpcb`, and no block for the `tcpcb`. -/
def Grants.LacksTcpcb (n : Net N M) (g : Grants N M) : Prop :=
  ∃ a e i, g.so = some a ∧ n.mid1 a = none ∧ g.ex = some e ∧ n.lo e = none ∧ g.inp = some i ∧
    n.lo i = none ∧ i ≠ e ∧ ∀ t, g.tp = some t → n.mid1 t ≠ none ∨ t = a

/-- The two calls fail alike: what they do with each answer of the pools decides. -/
theorem atomicFailure_iff {f : Grants N M → Except (Fault N M) (Option (Fin N) × Net N M)}
    (hrefused : ∀ g n', tnSocketTcpAlloc g.so g.ex n = .ok (none, n') → f g = .ok (none, n'))
    (hnoInp : ∀ a e rinp rtp, n.mid1 a = none → n.lo e = none →
      (∀ i, rinp = some i → n.lo i ≠ none ∨ i = e) →
      ∃ n', f ⟨some a, some e, rinp, rtp⟩ = .ok (none, n') ∧ Untouched n n')
    (hnoTp : ∀ a e i rtp, n.mid1 a = none → n.lo e = none → n.lo i = none → i ≠ e →
      (∀ t, rtp = some t → n.mid1 t ≠ none ∨ t = a) →
      f ⟨some a, some e, some i, rtp⟩ = .error (.freedMid1 a))
    (hok : ∀ a e i t, FreeBlocks n a e i t →
      ∃ n', f ⟨some a, some e, some i, some t⟩ = .ok (some a, n'))
    (g : Grants N M) : AtomicFailure n (f g) ↔ ¬ g.LacksTcpcb n := by
  obtain ⟨rso, rex, rinp, rtp⟩ := g
  by_cases hlack : Grants.LacksTcpcb n ⟨rso, rex, rinp, rtp⟩
  · refine iff_of_false ?_ (not_not.mpr hlack)
    obtain ⟨a, e, i, rfl, ha, rfl, he, rfl, hi, hie, htp⟩ := hlack
    rw [hnoTp a e i rtp ha he hi hie htp]
    exact id
  · refine iff_of_true ?_ hlack
    rcases tnSocketTcpAlloc_cases rso rex n with ⟨n', hr, hs⟩ | ⟨a, e, rfl, ha, rfl, he⟩
    · rw [hrefused _ n' hr]
      exact hs.untouched
    · by_cases hinp : ∀ i, rinp = some i → n.lo i ≠ none ∨ i = e
      · obtain ⟨n', hrun, hun⟩ := hnoInp a e rinp rtp ha he hinp
        rw [hrun]
        exact hun
      · simp only [not_forall, not_or, not_not] at hinp
        obtain ⟨i, rfl, hi, hie⟩ := hinp
        by_cases htp : ∀ t, rtp = some t → n.mid1 t ≠ none ∨ t = a
        · exact absurd ⟨a, e, i, rfl, ha, rfl, he, rfl, hi, hie, htp⟩ hlack
        · simp only [not_forall, not_or, not_not] at htp
          obtain ⟨t, rfl, ht, hta⟩ := htp
          obtain ⟨n', hrun⟩ := hok a e i t ⟨ha, he, hi, ht, hie, hta⟩
          rw [hrun]
          exact trivial

theorem socket_atomic_iff (h : QueueInv n que) (hl : ListsInUse n) (domain type : Int) (avail : Bool)
    (g : Grants N M) : AtomicFailure n (tcpSSocket domain type avail g n) ↔
      ¬ (domain = AF_INET ∧ type = SOCK_STREAM ∧ avail = true ∧ g.LacksTcpcb n) := by
  by_cases hargs : domain ≠ AF_INET ∨ type ≠ SOCK_STREAM ∨ avail = false
  · have hrun : tcpSSocket domain type avail g n = .ok (none, n) := by
      rw [tcpSSocket, if_pos hargs]
      rfl
    rw [hrun]
    refine iff_of_true (SameLive.untouched (.inl rfl)) ?_
    rintro ⟨h1, h2, h3, -⟩
    simp [h1, h2, h3] at hargs
  · obtain ⟨rfl, rfl, rfl⟩ : domain = AF_INET ∧ type = SOCK_STREAM ∧ avail = true := by
      simpa using hargs
    simp only [true_and]
    apply atomicFailure_iff (f := fun g => tcpSSocket AF_INET SOCK_STREAM true g n)
    · intro g n' hr
      rw [tcpSSocket, if_neg hargs, run_bind hr]
      rfl
    · intro a e rinp rtp ha he hinp
      exact tcpSSocket_noInp ha he hl hinp
    · intro a e i rtp ha he hi hie htp
      exact tcpSSocket_noTp ha he hl hi hie htp
    · intro a e i t hf
      obtain ⟨n', hrun, -⟩ := tcpSSocket_ok ⟨rfl, rfl⟩ h hl hf
      exact ⟨n', hrun⟩

theorem sonewconn_atomic_iff (h : QueueInv n que) (hl : ListsInUse n) (hL : n.listens L) (g : Grants N M) :
    AtomicFailure n (sonewconn L g n) ↔
      ¬ ((n.so L).soQlen + (n.so L).soQ0len ≤ 3 * (n.so L).soQlimit / 2 ∧ g.LacksTcpcb n) := by
  by_cases hroom : (n.so L).soQlen + (n.so L).soQ0len ≤ 3 * (n.so L).soQlimit / 2
  · simp only [hroom, true_and]
    apply atomicFailure_iff (f := fun g => sonewconn L g n)
    · intro g n' hr
      rw [sonewconn, bind_readSo hL.1, if_neg (by omega), run_bind hr]
      rfl
    · intro a e rinp rtp ha he hinp
      exact sonewconn_noInp h hl hL hroom ha he hinp
    · intro a e i rtp ha he hi hie htp
      exact sonewconn_noTp h hl hL hroom ha he hi hie htp
    · intro a e i t hf
      obtain ⟨n', hrun, -⟩ := sonewconn_ok h hl hL hroom hf
      exact ⟨n', hrun⟩
  · have hrun : sonewconn L g n = .ok (none, n) := by
      rw [sonewconn, bind_readSo hL.1, if_pos (by omega)]
      rfl
    rw [hrun]
    refine iff_of_true (SameLive.untouched (.inl rfl)) ?_
    rintro ⟨h1, -⟩
    exact hroom h1

/-- **Failed attachments.** -/
theorem attach_atomic_iff (h : QueueInv n que) (hl : ListsInUse n) (g : Grants N M) :
    (∀ domain type avail, AtomicFailure n (tcpSSocket domain type avail g n) ↔
      ¬ (domain = AF_INET ∧ type = SOCK_STREAM ∧ avail = true ∧ g.LacksTcpcb n)) ∧
    ∀ L, n.listens L → (AtomicFailure n (sonewconn L g n) ↔
      ¬ ((n.so L).soQlen + (n.so L).soQ0len ≤ 3 * (n.so L).soQlimit / 2 ∧ g.LacksTcpcb n)) := by
  refine ⟨?_, ?_⟩
  · intro domain type avail
    exact socket_atomic_iff h hl domain type avail g
  · intro L hL
    exact sonewconn_atomic_iff h hl hL g

/-- A socket listens. -/
def listenRun : List (SockEvent 4 4) :=
  [.socket AF_INET SOCK_STREAM true ⟨some 0, some 0, some 1, some 1⟩, .listen 0 1 0]

def listening : Net 4 4 := ((Machine.run sockStep (some (Net.init 4 4)) listenRun).1).getD (Net.init 4 4)

/-- The pool of 128-byte blocks has one block left. -/
def oneBlock : Grants 4 4 := ⟨some 2, some 2, some 3, none⟩

theorem not_atomic_of_fault {r : Except (Fault N M) (Option (Fin N) × Net N M)} {f : Fault N M}
    (h : faultOf r = some f) : ¬ AtomicFailure n r := by
  cases r with
  | error f => exact id
  | ok v => cases h

theorem attach_without_tcpcb : listening.listens 0 ∧
    ¬ AtomicFailure listening (tcpSSocket AF_INET SOCK_STREAM true oneBlock listening) ∧
    ¬ AtomicFailure listening (sonewconn 0 oneBlock listening) := by
  have hsocket : faultOf (tcpSSocket AF_INET SOCK_STREAM true oneBlock listening) =
      some (.freedMid1 2) := by
    decide +kernel
  have hnewconn : faultOf (sonewconn 0 oneBlock listening) = some (.freedMid1 2) := by
    decide +kernel
  exact ⟨by decide +kernel, not_atomic_of_fault hsocket, not_atomic_of_fault hnewconn⟩

theorem listenRun_orderly :
    Machine.Guarded sockStep (fun n ev => ev.Orderly n) (some (Net.init 4 4)) listenRun := by
  decide +kernel

theorem attach_atomic_iff_listening : AtomicFailure listening (sonewconn 0 oneBlock listening) ↔
    ¬ ((listening.so 0).soQlen + (listening.so 0).soQ0len ≤ 3 * (listening.so 0).soQlimit / 2 ∧
      oneBlock.LacksTcpcb listening) := by
  obtain ⟨n, hn, que, hinv⟩ := run_netInv listenRun_orderly
  have hlis : listening = n := by rw [listening, hn]; rfl
  rw [← hlis] at hinv
  exact (attach_atomic_iff hinv.queues hinv.blocks.lists oneBlock).2 0 (by decide +kernel)

end TnSock
