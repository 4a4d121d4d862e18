import TnNet.Sock.Blocks

/-!
# New sockets

`tn_socket_tcp_alloc`, `tcp_attach` and the two ways a socket comes into being, `tcp_s_socket` and
`sonewconn`.

* `tcpAttach_ok` — a socket gets its control blocks.
* `BlockInv.added` — four more blocks are in use.
* `sonewconn_ok` — the new socket joins `so_q0`.
-/

set_option autoImplicit false

namespace TnSock

open Chain

variable {N M : Nat} {β : Type} {n n' n₁ : Net N M} {a b c t L : Fin N} {e i x : Fin M} {k k' : SoQ}
variable {que : SoQ → Fin N → List (Fin N)}

/-! ## The calls -/

theorem allocMid1_ok {u : Mid1Use} (h : n.mid1 a = none) :
    tnNetAllocMid1 (some a) u n = .ok (some a, n.useMid1 a (some u)) := by
  simp [tnNetAllocMid1, h]

theorem allocMin_ok {u : MinUse} (h : n.lo i = none) :
    tnNetAllocMin (some i) u n = .ok (some i, n.useMin i (some u)) := by
  simp [tnNetAllocMin, h]

/-- The stores of `tn_socket_tcp_alloc`. -/
def Net.allocated (n : Net N M) (a : Fin N) (e : Fin M) : Net N M :=
  { n with
    mid1 := Function.update n.mid1 a (some .socket)
    lo := Function.update n.lo e (some .socketEx)
    so := Function.update n.so a { socketEx := some e }
    soTcpEx := n.soTcpEx ++ [e] }

theorem tnSocketTcpAlloc_ok (ha : n.mid1 a = none) (he : n.lo e = none)
    (hl : ∀ x ∈ n.soTcpEx, n.lo x = some .socketEx) :
    tnSocketTcpAlloc (some a) (some e) n = .ok (some a, n.allocated a e) := by
  have hl' : ∀ x ∈ n.soTcpEx, Function.update n.lo e (some .socketEx) x = some .socketEx := by
    intro x hx
    rw [Function.update_of_ne, hl x hx]
    rintro rfl
    rw [hl x hx] at he
    cases he
  unfold tnSocketTcpAlloc
  rw [run_bind (allocMid1_ok ha)]
  dsimp only
  rw [bind_writeSo (by simp [Net.useMid1]), run_bind (allocMin_ok (by exact he))]
  dsimp only
  rw [bind_writeSo (by simp [Net.useMid1, Net.useMin]), bind_appendEx]
  · simp [Net.useMid1, Net.useMin, Net.setSo, Net.allocated]
  · exact hl'

/-- Nothing has changed but the contents of a free block. -/
def SameLive (n n' : Net N M) : Prop :=
  n' = n ∨ ∃ a v, n.mid1 a = none ∧ n' = { n with so := Function.update n.so a v }

theorem allocMid1_cases (r : Option (Fin N)) (u : Mid1Use) (n : Net N M) :
    tnNetAllocMid1 r u n = .ok (none, n) ∨ ∃ a, r = some a ∧ n.mid1 a = none := by
  cases r with
  | none => exact .inl rfl
  | some a =>
    by_cases ha : n.mid1 a = none
    · exact .inr ⟨a, rfl, ha⟩
    · left
      simp [tnNetAllocMid1, ha]

theorem allocMin_cases (r : Option (Fin M)) (u : MinUse) (n : Net N M) :
    tnNetAllocMin r u n = .ok (none, n) ∨ ∃ e, r = some e ∧ n.lo e = none := by
  cases r with
  | none => exact .inl rfl
  | some e =>
    by_cases he : n.lo e = none
    · exact .inr ⟨e, rfl, he⟩
    · left
      simp [tnNetAllocMin, he]

/-- `tn_socket_tcp_alloc` gets both blocks, or leaves everything as it was. -/
theorem tnSocketTcpAlloc_cases (rso : Option (Fin N)) (rex : Option (Fin M)) (n : Net N M) :
    (∃ n', tnSocketTcpAlloc rso rex n = .ok (none, n') ∧ SameLive n n') ∨
      ∃ a e, rso = some a ∧ n.mid1 a = none ∧ rex = some e ∧ n.lo e = none := by
  rcases allocMid1_cases rso .socket n with hso | ⟨a, rfl, ha⟩
  · left
    refine ⟨n, ?_, .inl rfl⟩
    unfold tnSocketTcpAlloc
    rw [run_bind hso]
    rfl
  · rcases allocMin_cases rex .socketEx ((n.useMid1 a (some .socket)).setSo a fun _ => {}) with
      hex | ⟨e, rfl, he⟩
    · left
      refine ⟨_, ?_, .inr ⟨a, {}, ha, rfl⟩⟩
      unfold tnSocketTcpAlloc
      rw [run_bind (allocMid1_ok ha)]
      dsimp only
      rw [bind_writeSo (by simp [Net.useMid1]), run_bind hex]
      dsimp only
      rw [bind_freeMid1 (by simp [Net.useMid1])]
      simp [Net.useMid1, Net.setSo, ← ha]
    · exact .inr ⟨a, e, rfl, ha, rfl, he⟩

/-- The stores of `soreserve`. -/
def Net.reserve (n : Net N M) (a : Fin N) (sndcc rcvcc : Nat) : Net N M :=
  (n.setSo a fun s => { s with sndHiwat := sndcc }).setSo a fun s => { s with rcvHiwat := rcvcc }

theorem soreserve_ok {sndcc rcvcc : Nat} (ha : n.mid1 a = some .socket) (hs : sbFits sndcc = true)
    (hr : sbFits rcvcc = true) : soreserve a sndcc rcvcc n = .ok (0, n.reserve a sndcc rcvcc) := by
  unfold soreserve
  rw [if_pos hs, bind_writeSo ha, if_pos hr, bind_writeSo (by exact ha)]
  rfl

theorem SameBlocks.reserve (n : Net N M) (a : Fin N) (sndcc rcvcc : Nat) :
    SameBlocks n (n.reserve a sndcc rcvcc) := by
  have hsnd : SameBlocks n (n.setSo a fun s => { s with sndHiwat := sndcc }) := by
    apply SameBlocks.setSo
    intro s
    exact ⟨rfl, rfl, rfl, rfl, rfl⟩
  apply hsnd.trans
  apply SameBlocks.setSo
  intro s
  exact ⟨rfl, rfl, rfl, rfl, rfl⟩

/-- The buffer space of a socket in `tcp_attach`. -/
def Net.attachReserve (n : Net N M) (a : Fin N) : Net N M :=
  if (n.so a).sndHiwat = 0 ∨ (n.so a).rcvHiwat = 0 then n.reserve a tcpSendspace tcpRecvspace else n

theorem attachReserve_ok (ha : n.mid1 a = some .socket) :
    attachReserve a n = .ok (0, n.attachReserve a) := by
  unfold attachReserve Net.attachReserve
  rw [bind_readSo ha]
  split
  · exact soreserve_ok ha (by decide) (by decide)
  · rfl

theorem SameBlocks.attachReserve (n : Net N M) (a : Fin N) : SameBlocks n (n.attachReserve a) := by
  unfold Net.attachReserve
  split
  · exact SameBlocks.reserve n a _ _
  · exact .refl n

/-- The stores of `tcp_attach` behind the reservation of buffer space. -/
def Net.attached (n : Net N M) (a : Fin N) (i : Fin M) (t : Fin N) : Net N M :=
  { n with
    mid1 := Function.update n.mid1 t (some .tcpcb)
    lo := Function.update n.lo i (some .inpcb)
    inp := Function.update n.inp i { inpSocket := some a, inpPpcb := some t }
    tp := Function.update n.tp t { tInpcb := some i }
    tcb := i :: n.tcb
    so := Function.update n.so a { n.so a with soPcb := some i } }

/-- The stores of `in_pcballoc`. -/
def Net.pcbAllocated (n : Net N M) (a : Fin N) (i : Fin M) : Net N M :=
  { n with
    lo := Function.update n.lo i (some .inpcb)
    inp := Function.update n.inp i { inpSocket := some a }
    tcb := i :: n.tcb
    so := Function.update n.so a { n.so a with soPcb := some i } }

theorem inPcballoc_ok (ha : n.mid1 a = some .socket) (hi : n.lo i = none)
    (hl : ∀ x ∈ n.tcb, n.lo x = some .inpcb) :
    inPcballoc a (some i) n = .ok (0, n.pcbAllocated a i) := by
  have hl' : ∀ x ∈ n.tcb, Function.update n.lo i (some .inpcb) x = some .inpcb := by
    intro x hx
    rw [Function.update_of_ne, hl x hx]
    rintro rfl
    rw [hl x hx] at hi
    cases hi
  unfold inPcballoc
  rw [run_bind (allocMin_ok hi)]
  dsimp only
  rw [bind_writeInp (by simp [Net.useMin]), bind_insque]
  · rw [bind_writeSo (by exact ha)]
    simp [Net.useMin, Net.setInp, Net.setSo, Net.pcbAllocated]
  · exact hl'

theorem tcpNewtcpcb_ok (hi : n.lo i = some .inpcb) (ht : n.mid1 t = none) :
    tcpNewtcpcb i (some t) n = .ok (some t, { n with
      mid1 := Function.update n.mid1 t (some .tcpcb)
      tp := Function.update n.tp t { tInpcb := some i }
      inp := Function.update n.inp i { n.inp i with inpPpcb := some t } }) := by
  unfold tcpNewtcpcb
  rw [run_bind (allocMid1_ok ht)]
  dsimp only
  rw [bind_writeTp (by simp [Net.useMid1]), bind_writeInp (by exact hi)]
  simp [Net.useMid1, Net.setTp, Net.setInp]

/-- **`tcp_attach`** with the blocks it needs. -/
theorem tcpAttach_ok (ha : n.mid1 a = some .socket) (hi : n.lo i = none) (ht : n.mid1 t = none)
    (hl : ∀ x ∈ n.tcb, n.lo x = some .inpcb) :
    tcpAttach a (some i) (some t) n = .ok (0, (n.attachReserve a).attached a i t) := by
  have hs := SameBlocks.attachReserve n a
  have hmid : (n.attachReserve a).mid1 a = some .socket := by rw [hs.mid1, ha]
  have halloc : inPcballoc a (some i) (n.attachReserve a) =
      .ok (0, (n.attachReserve a).pcbAllocated a i) := by
    apply inPcballoc_ok hmid
    · rw [hs.lo, hi]
    · rw [hs.tcb, hs.lo]
      exact hl
  have hnew := tcpNewtcpcb_ok (n := (n.attachReserve a).pcbAllocated a i) (i := i) (t := t)
    (by simp [Net.pcbAllocated]) (by rw [← ht, ← hs.mid1]; rfl)
  unfold tcpAttach
  rw [run_bind (attachReserve_ok ha), if_neg (by simp), run_bind halloc, if_neg (by simp),
    bind_readSo (by exact hmid)]
  simp only [Net.pcbAllocated, Function.update_self, bind_deref]
  rw [← Net.pcbAllocated, run_bind hnew]
  dsimp only
  rw [bind_writeTp (by simp)]
  simp [Net.setTp, Net.pcbAllocated, Net.attached]

/-! ## The invariant -/

/-- A connection with four new blocks. -/
structure Added (n n' : Net N M) (a : Fin N) (e i : Fin M) (t : Fin N) : Prop where
  freeSo : n.mid1 a = none
  freeTp : n.mid1 t = none
  freeEx : n.lo e = none
  freeInp : n.lo i = none
  mid1 : n'.mid1 = Function.update (Function.update n.mid1 a (some .socket)) t (some .tcpcb)
  lo : n'.lo = Function.update (Function.update n.lo e (some .socketEx)) i (some .inpcb)
  tcb : n'.tcb = i :: n.tcb
  soTcpEx : n'.soTcpEx = n.soTcpEx ++ [e]
  inp : ∀ j, j ≠ i → n'.inp j = n.inp j
  tp : ∀ u, u ≠ t → n'.tp u = n.tp u
  ptrs : ∀ b, b ≠ a → (n'.so b).soPcb = (n.so b).soPcb ∧ (n'.so b).socketEx = (n.so b).socketEx
  conn : ConnBlocks n' a e i t

/-- The blocks that were in use. -/
theorem Added.old (hd : Added n n' a e i t) {b : Fin N} {u : Mid1Use} (hb : n.mid1 b = some u) :
    b ≠ a ∧ b ≠ t ∧ n'.mid1 b = some u := by
  have ha : b ≠ a := by
    rintro rfl
    rw [hd.freeSo] at hb
    cases hb
  have ht : b ≠ t := by
    rintro rfl
    rw [hd.freeTp] at hb
    cases hb
  refine ⟨ha, ht, ?_⟩
  rw [hd.mid1, Function.update_of_ne ht, Function.update_of_ne ha, hb]

theorem Added.oldLo (hd : Added n n' a e i t) {j : Fin M} {u : MinUse} (hj : n.lo j = some u) :
    j ≠ e ∧ j ≠ i ∧ n'.lo j = some u := by
  have he : j ≠ e := by
    rintro rfl
    rw [hd.freeEx] at hj
    cases hj
  have hi : j ≠ i := by
    rintro rfl
    rw [hd.freeInp] at hj
    cases hj
  refine ⟨he, hi, ?_⟩
  rw [hd.lo, Function.update_of_ne hi, Function.update_of_ne he, hj]

theorem Added.socket (hd : Added n n' a e i t) {b : Fin N} (hb : n'.mid1 b = some .socket) :
    b = a ∨ n.mid1 b = some .socket := by
  rcases eq_or_ne b a with rfl | ha
  · exact .inl rfl
  · right
    rw [hd.mid1] at hb
    rcases eq_or_ne b t with rfl | ht
    · simp at hb
    · rwa [Function.update_of_ne ht, Function.update_of_ne ha] at hb

theorem Added.tcpcb (hd : Added n n' a e i t) {u : Fin N} (hu : n'.mid1 u = some .tcpcb) :
    u = t ∨ n.mid1 u = some .tcpcb := by
  rcases eq_or_ne u t with rfl | hut
  · exact .inl rfl
  · right
    rw [hd.mid1, Function.update_of_ne hut] at hu
    rcases eq_or_ne u a with rfl | hua
    · simp at hu
    · rwa [Function.update_of_ne hua] at hu

theorem Added.inpcb (hd : Added n n' a e i t) {j : Fin M} (hj : n'.lo j = some .inpcb) :
    j = i ∨ j ≠ i ∧ n.lo j = some .inpcb := by
  rcases eq_or_ne j i with rfl | hji
  · exact .inl rfl
  · right
    rw [hd.lo, Function.update_of_ne hji] at hj
    rcases eq_or_ne j e with rfl | hje
    · simp at hj
    · exact ⟨hji, by rwa [Function.update_of_ne hje] at hj⟩

/-- No other socket has the new block. -/
theorem BlockInv.ex_ne (h : BlockInv n) (hfree : n.lo e = none) (hb : n.mid1 b = some .socket) :
    (n.so b).socketEx ≠ some e := by
  intro he
  obtain ⟨x, h1, h2⟩ := h.ex b hb
  rw [he, Option.some.injEq] at h1
  subst h1
  rw [hfree] at h2
  cases h2

theorem BlockInv.added (h : BlockInv n) (hd : Added n n' a e i t) : BlockInv n' := by
  constructor
  case ex =>
    intro b hb
    rcases hd.socket hb with rfl | hb
    · exact ⟨e, hd.conn.ex, hd.conn.socketEx⟩
    · obtain ⟨x, h1, h2⟩ := h.ex b hb
      exact ⟨x, (hd.ptrs b (hd.old hb).1).2.trans h1, (hd.oldLo h2).2.2⟩
  case ex_inj =>
    intro b d hb hd' hbd
    rcases hd.socket hb with rfl | hb
    · rcases hd.socket hd' with rfl | hd'
      · rfl
      · rw [hd.conn.ex, (hd.ptrs d (hd.old hd').1).2] at hbd
        exact absurd hbd.symm (h.ex_ne hd.freeEx hd')
    · rw [(hd.ptrs b (hd.old hb).1).2] at hbd
      rcases hd.socket hd' with rfl | hd'
      · rw [hd.conn.ex] at hbd
        exact absurd hbd (h.ex_ne hd.freeEx hb)
      · rw [(hd.ptrs d (hd.old hd').1).2] at hbd
        exact h.ex_inj b d hb hd' hbd
  case pcb =>
    intro b hb
    rcases hd.socket hb with rfl | hb
    · exact ⟨i, hd.conn.pcb, hd.conn.inpcb, hd.conn.inpSocket⟩
    · obtain ⟨j, h1, h2, h3⟩ := h.pcb b hb
      obtain ⟨-, hji, hj⟩ := hd.oldLo h2
      exact ⟨j, (hd.ptrs b (hd.old hb).1).1.trans h1, hj, by rw [hd.inp j hji, h3]⟩
  case inp =>
    intro j hj
    rcases hd.inpcb hj with rfl | ⟨hji, hj⟩
    · exact ⟨a, t, hd.conn.inpSocket, hd.conn.socket, hd.conn.pcb, hd.conn.inpPpcb, hd.conn.tcpcb,
        hd.conn.tInpcb⟩
    · obtain ⟨b, u, h1, h2, h3, h4, h5, h6⟩ := h.inp j hj
      obtain ⟨hba, -, hb⟩ := hd.old h2
      obtain ⟨-, hut, hu⟩ := hd.old h5
      rw [hd.inp j hji]
      exact ⟨b, u, h1, hb, (hd.ptrs b hba).1.trans h3, h4, hu, by rw [hd.tp u hut, h6]⟩
  case tp =>
    intro u hu
    rcases hd.tcpcb hu with rfl | hu
    · exact ⟨i, hd.conn.tInpcb, hd.conn.inpcb, hd.conn.inpPpcb⟩
    · obtain ⟨j, h1, h2, h3⟩ := h.tp u hu
      obtain ⟨-, hji, hj⟩ := hd.oldLo h2
      rw [hd.tp u (hd.old hu).2.1]
      exact ⟨j, h1, hj, by rw [hd.inp j hji, h3]⟩
  case lists =>
    constructor
    · intro x hx
      rw [hd.soTcpEx, List.mem_append, List.mem_singleton] at hx
      rcases hx with hx | rfl
      · exact (hd.oldLo (h.lists.exs x hx)).2.2
      · exact hd.conn.socketEx
    · intro x hx
      rw [hd.tcb, List.mem_cons] at hx
      rcases hx with rfl | hx
      · exact hd.conn.inpcb
      · exact (hd.oldLo (h.lists.tcbs x hx)).2.2
  case exs_nodup =>
    rw [hd.soTcpEx, List.nodup_append_comm, List.singleton_append, List.nodup_cons]
    refine ⟨fun he => ?_, h.exs_nodup⟩
    have hlo := h.lists.exs e he
    rw [hd.freeEx] at hlo
    cases hlo
  case tcb_nodup =>
    rw [hd.tcb, List.nodup_cons]
    refine ⟨fun hi => ?_, h.tcb_nodup⟩
    have hlo := h.lists.tcbs i hi
    rw [hd.freeInp] at hlo
    cases hlo

/-! ## New sockets and the queues -/

theorem QueueInv.same (h : QueueInv n que) (hmid : ∀ b, n'.mid1 b = some .socket ↔ n.mid1 b = some .socket)
    (hso : ∀ b, SameQueue (n.so b) (n'.so b)) : QueueInv n' que := by
  apply h.frame
  · intro b hb
    exact .inl ⟨(hmid b).mpr hb, hso b⟩
  · intro b hb
    exact .inl ((hmid b).mp hb)

theorem SameQueue.refl (s : SocketTcp N M) : SameQueue s s :=
  ⟨rfl, rfl, rfl, fun _ => rfl, fun _ => rfl, rfl⟩

theorem SameQueue.trans {s s' s'' : SocketTcp N M} (h : SameQueue s s') (h' : SameQueue s' s'') :
    SameQueue s s'' :=
  ⟨h'.acceptConn.trans h.acceptConn, h'.nofdref.trans h.nofdref, h'.soHead.trans h.soHead,
    fun k => (h'.link k).trans (h.link k), fun k => (h'.len k).trans (h.len k), h'.limit.trans h.limit⟩

/-- Equal fields, with the two queues field by field. -/
theorem SameQueue.of_fields {s s' : SocketTcp N M} (h1 : s'.acceptConn = s.acceptConn)
    (h2 : s'.nofdref = s.nofdref) (h3 : s'.soHead = s.soHead) (h4 : s'.soQ0 = s.soQ0) (h5 : s'.soQ = s.soQ)
    (h6 : s'.soQ0len = s.soQ0len) (h7 : s'.soQlen = s.soQlen) (h8 : s'.soQlimit = s.soQlimit) :
    SameQueue s s' := by
  refine ⟨h1, h2, h3, ?_, ?_, h8⟩
  · intro k
    cases k
    · exact h4
    · exact h5
  · intro k
    cases k
    · exact h6
    · exact h7

theorem setSo_queue {f : SocketTcp N M → SocketTcp N M} (hf : ∀ s, SameQueue s (f s)) (b : Fin N) :
    SameQueue (n.so b) ((n.setSo a f).so b) := by
  rcases eq_or_ne b a with rfl | hb
  · rw [setSo_so_self]
    exact hf _
  · rw [setSo_so_of_ne f hb]
    exact .refl _

theorem lingerDefault_queue (s : SocketTcp N M) : SameQueue s (lingerDefault s) := by
  unfold lingerDefault
  split
  · exact .of_fields rfl rfl rfl rfl rfl rfl rfl rfl
  · exact .refl s

theorem lingerDefault_rest (s : SocketTcp N M) : SameRest s (lingerDefault s) := by
  unfold lingerDefault
  split
  · exact ⟨rfl, rfl, rfl, rfl, rfl⟩
  · exact .refl s

theorem attachReserve_queue (n : Net N M) (a b : Fin N) :
    SameQueue (n.so b) ((n.attachReserve a).so b) := by
  unfold Net.attachReserve
  split
  · unfold Net.reserve
    apply SameQueue.trans (setSo_queue _ b) (setSo_queue _ b)
    · intro s
      exact .of_fields rfl rfl rfl rfl rfl rfl rfl rfl
    · intro s
      exact .of_fields rfl rfl rfl rfl rfl rfl rfl rfl
  · exact .refl _

/-- The stores of `tcp_attach` and of what follows it in both callers. -/
def Net.madeSocket (n : Net N M) (a : Fin N) (i : Fin M) (t : Fin N) : Net N M :=
  ((n.attachReserve a).attached a i t).setSo a lingerDefault

theorem madeSocket_queue (n : Net N M) (a : Fin N) (i : Fin M) (t b : Fin N) :
    SameQueue (n.so b) ((n.madeSocket a i t).so b) := by
  apply SameQueue.trans (attachReserve_queue n a b)
  apply SameQueue.trans _ (setSo_queue lingerDefault_queue b)
  rcases eq_or_ne b a with rfl | hb
  · simp only [Net.attached, Function.update_self]
    exact .of_fields rfl rfl rfl rfl rfl rfl rfl rfl
  · simp only [Net.attached, Function.update_of_ne hb]
    exact .refl _

theorem QueueInv.madeSocket (h : QueueInv n que) (ht : n.mid1 t = none) :
    QueueInv (n.madeSocket a i t) que := by
  apply h.same
  · intro b
    have hmid : (n.madeSocket a i t).mid1 = Function.update n.mid1 t (some .tcpcb) := by
      rw [← (SameBlocks.attachReserve n a).mid1]
      rfl
    rw [hmid]
    rcases eq_or_ne b t with rfl | hb
    · simp [ht]
    · rw [Function.update_of_ne hb]
  · exact madeSocket_queue n a i t

/-- A new socket, on the way to its control blocks. -/
structure Fresh (n n₁ : Net N M) (a : Fin N) (e : Fin M) : Prop where
  mid1 : n₁.mid1 = Function.update n.mid1 a (some .socket)
  lo : n₁.lo = Function.update n.lo e (some .socketEx)
  inp : n₁.inp = n.inp
  tp : n₁.tp = n.tp
  tcb : n₁.tcb = n.tcb
  soTcpEx : n₁.soTcpEx = n.soTcpEx ++ [e]
  ptrs : ∀ b, b ≠ a → (n₁.so b).soPcb = (n.so b).soPcb ∧ (n₁.so b).socketEx = (n.so b).socketEx
  ex : (n₁.so a).socketEx = some e

/-- The blocks of a new connection are free and four. -/
structure FreeBlocks (n : Net N M) (a : Fin N) (e i : Fin M) (t : Fin N) : Prop where
  so : n.mid1 a = none
  ex : n.lo e = none
  inp : n.lo i = none
  tp : n.mid1 t = none
  inp_ne : i ≠ e
  tp_ne : t ≠ a

theorem Fresh.added (h : Fresh n n₁ a e) (hf : FreeBlocks n a e i t) :
    Added n (n₁.madeSocket a i t) a e i t := by
  have hs := SameBlocks.attachReserve n₁ a
  have hso : ((n₁.madeSocket a i t).so a).socketEx = some e ∧
      ((n₁.madeSocket a i t).so a).soPcb = some i := by
    unfold Net.madeSocket
    rw [setSo_so_self, (lingerDefault_rest _).socketEx, (lingerDefault_rest _).soPcb]
    simp only [Net.attached, Function.update_self]
    refine ⟨?_, trivial⟩
    rw [(hs.rest a).socketEx]
    exact h.ex
  have hmid : (n₁.madeSocket a i t).mid1 =
      Function.update (Function.update n.mid1 a (some .socket)) t (some .tcpcb) := by
    rw [← h.mid1, ← hs.mid1]
    rfl
  have hlo : (n₁.madeSocket a i t).lo =
      Function.update (Function.update n.lo e (some .socketEx)) i (some .inpcb) := by
    rw [← h.lo, ← hs.lo]
    rfl
  refine ⟨hf.so, hf.tp, hf.ex, hf.inp, hmid, hlo, ?_, ?_, ?_, ?_, ?_,
    ⟨?_, ?_, ?_, ?_, hso.1, hso.2, ?_, ?_, ?_⟩⟩
  · rw [← h.tcb, ← hs.tcb]
    rfl
  · rw [← h.soTcpEx, ← hs.soTcpEx]
    rfl
  · intro j hj
    rw [← h.inp, ← hs.inp]
    simp only [Net.madeSocket, Net.attached, Net.setSo, Function.update_of_ne hj]
  · intro u hu
    rw [← h.tp, ← hs.tp]
    simp only [Net.madeSocket, Net.attached, Net.setSo, Function.update_of_ne hu]
  · intro b hb
    have hso : (n₁.madeSocket a i t).so b = (n₁.attachReserve a).so b := by
      simp only [Net.madeSocket, Net.attached, Net.setSo, Function.update_of_ne hb]
    rw [hso, (hs.rest b).soPcb, (hs.rest b).socketEx]
    exact h.ptrs b hb
  · rw [hmid, Function.update_of_ne hf.tp_ne.symm, Function.update_self]
  · rw [hmid, Function.update_self]
  · rw [hlo, Function.update_of_ne hf.inp_ne.symm, Function.update_self]
  · rw [hlo, Function.update_self]
  · simp only [Net.madeSocket, Net.attached, Net.setSo, Function.update_self]
  · simp only [Net.madeSocket, Net.attached, Net.setSo, Function.update_self]
  · simp only [Net.madeSocket, Net.attached, Net.setSo, Function.update_self]

theorem Fresh.alive (h : Fresh n n₁ a e) : n₁.mid1 a = some .socket := by
  rw [h.mid1, Function.update_self]

theorem Fresh.tcbs (h : Fresh n n₁ a e) (he : n.lo e = none) (hl : ListsInUse n) :
    ∀ x ∈ n₁.tcb, n₁.lo x = some .inpcb := by
  rw [h.tcb, h.lo]
  intro x hx
  have hlo := hl.tcbs x hx
  rw [Function.update_of_ne, hlo]
  rintro rfl
  rw [he] at hlo
  cases hlo

theorem tcpAttach_fresh (h : Fresh n n₁ a e) (hf : FreeBlocks n a e i t) (hl : ListsInUse n) :
    tcpAttach a (some i) (some t) n₁ = .ok (0, (n₁.attachReserve a).attached a i t) := by
  apply tcpAttach_ok h.alive _ _ (h.tcbs hf.ex hl)
  · rw [h.lo, Function.update_of_ne hf.inp_ne, hf.inp]
  · rw [h.mid1, Function.update_of_ne hf.tp_ne, hf.tp]

/-! ## `tcp_s_socket` -/

/-- What makes a socket listen. -/
structure SameLimit (s s' : SocketTcp N M) : Prop where
  limit : s'.soQlimit = s.soQlimit
  acceptConn : s'.acceptConn = s.acceptConn

theorem fresh_allocated (n : Net N M) (a : Fin N) (e : Fin M) : Fresh n (n.allocated a e) a e := by
  refine ⟨rfl, rfl, rfl, rfl, rfl, rfl, ?_, ?_⟩
  · intro b hb
    simp [Net.allocated, hb]
  · simp only [Net.allocated, Function.update_self]

theorem madeSocket_run (h : Fresh n n₁ a e) (hta : t ≠ a) :
    writeSo a lingerDefault ((n₁.attachReserve a).attached a i t) = .ok ((), n₁.madeSocket a i t) := by
  apply writeSo_ok
  simp only [Net.attached, Function.update_of_ne hta.symm, (SameBlocks.attachReserve n₁ a).mid1, h.mid1,
    Function.update_self]

/-- A block that is free becomes a socket with no queue. -/
theorem QueueInv.fresh (h : QueueInv n que) (hfree : n.mid1 a = none)
    (hmid : n'.mid1 = Function.update n.mid1 a (some .socket)) (hso : ∀ b, b ≠ a → n'.so b = n.so b)
    (hacc : (n'.so a).acceptConn = false) (hhead : (n'.so a).soHead = none)
    (hq : ∀ k, (n'.so a).len k = 0 ∧ (n'.so a).link k = none) : QueueInv n' que := by
  apply h.frame
  · intro b hb
    have hba : b ≠ a := by
      rintro rfl
      rw [hfree] at hb
      cases hb
    left
    rw [hmid, Function.update_of_ne hba, hso b hba]
    exact ⟨hb, .refl _⟩
  · intro b hb
    rcases eq_or_ne b a with rfl | hba
    · exact .inr ⟨⟨hb, hacc, hhead⟩, hq⟩
    · rw [hmid, Function.update_of_ne hba] at hb
      exact .inl hb

theorem tcpSSocket_ok {domain type : Int} (hargs : domain = AF_INET ∧ type = SOCK_STREAM)
    (h : QueueInv n que) (hl : ListsInUse n) (hf : FreeBlocks n a e i t) :
    ∃ n', tcpSSocket domain type true ⟨some a, some e, some i, some t⟩ n = .ok (some a, n') ∧
      Added n n' a e i t ∧ QueueInv n' que ∧ (∀ b, b ≠ a → SameLimit (n.so b) (n'.so b)) ∧
      (n'.so a).acceptConn = false := by
  have hfr := fresh_allocated n a e
  have hq1 : QueueInv (n.allocated a e) que := by
    apply h.fresh hf.so rfl
    · intro b hb
      simp only [Net.allocated, Function.update_of_ne hb]
    · simp only [Net.allocated, Function.update_self]
    · simp only [Net.allocated, Function.update_self]
    · intro k
      simp only [Net.allocated, Function.update_self]
      cases k <;> exact ⟨rfl, rfl⟩
  refine ⟨(n.allocated a e).madeSocket a i t, ?_, hfr.added hf, ?_, ?_, ?_⟩
  · unfold tcpSSocket
    rw [if_neg (by simp [hargs]), run_bind (tnSocketTcpAlloc_ok hf.so hf.ex hl.exs)]
    dsimp only
    rw [run_bind (tcpAttach_fresh hfr hf hl), if_neg (by simp),
      run_bind (madeSocket_run hfr hf.tp_ne)]
    rfl
  · apply hq1.madeSocket
    simp only [Net.allocated, Function.update_of_ne hf.tp_ne, hf.tp]
  · intro b hb
    have hmade := madeSocket_queue (n.allocated a e) a i t b
    have hso : (n.allocated a e).so b = n.so b := by
      simp only [Net.allocated, Function.update_of_ne hb]
    rw [hso] at hmade
    exact ⟨hmade.limit, hmade.acceptConn⟩
  · rw [(madeSocket_queue _ a i t a).acceptConn]
    simp only [Net.allocated, Function.update_self]

/-! ## `sonewconn` -/

/-- `soreserve` sets the limits of the buffers, to what it is asked for or not. -/
theorem soreserve_run (ha : n.mid1 a = some .socket) (sndcc rcvcc : Nat) :
    ∃ r x y, soreserve a sndcc rcvcc n =
      .ok (r, n.setSo a fun s => { s with sndHiwat := x, rcvHiwat := y }) := by
  have hset : ∀ x y, n.setSo a (fun s => { s with sndHiwat := x, rcvHiwat := y }) =
      { n with so := Function.update n.so a { n.so a with sndHiwat := x, rcvHiwat := y } } :=
    fun _ _ => rfl
  by_cases hs : sbFits sndcc = true
  · by_cases hr : sbFits rcvcc = true
    · refine ⟨0, sndcc, rcvcc, ?_⟩
      rw [soreserve_ok ha hs hr, hset]
      simp [Net.reserve, Net.setSo]
    · refine ⟨ENOBUFS, 0, (n.so a).rcvHiwat, ?_⟩
      unfold soreserve
      rw [if_pos hs, bind_writeSo ha, if_neg hr, bind_writeSo (by exact ha), hset]
      simp [Net.setSo]
  · refine ⟨ENOBUFS, (n.so a).sndHiwat, (n.so a).rcvHiwat, ?_⟩
    unfold soreserve
    rw [if_neg hs, hset]
    simp

/-- The new socket of `sonewconn` before it joins the queue. -/
def Net.cloned (n : Net N M) (L a : Fin N) (e : Fin M) (x y : Nat) : Net N M :=
  ((n.allocated a e).setSo a (cloneOf (n.so L))).setSo a fun s => { s with sndHiwat := x, rcvHiwat := y }

section Newconn

variable {y z : Nat}

theorem cloned_so : (n.cloned L a e y z).so a =
    { cloneOf (n.so L) { socketEx := some e } with sndHiwat := y, rcvHiwat := z } := by
  simp [Net.cloned, Net.setSo, Net.allocated]

theorem cloned_so_of_ne (hb : b ≠ a) : (n.cloned L a e y z).so b = n.so b := by
  simp [Net.cloned, Net.setSo, Net.allocated, hb]

theorem cloned_offQueue : (n.cloned L a e y z).OffQueue a := by
  refine ⟨?_, ?_, ?_⟩
  · simp [Net.cloned, Net.allocated]
  · rw [cloned_so]
    rfl
  · rw [cloned_so]
    rfl

theorem QueueInv.cloned (h : QueueInv n que) (ha : n.mid1 a = none) :
    QueueInv (n.cloned L a e y z) que := by
  apply h.fresh ha rfl
  · intro b hb
    exact cloned_so_of_ne hb
  · exact cloned_offQueue.acceptConn
  · exact cloned_offQueue.soHead
  · intro k
    rw [cloned_so]
    cases k <;> exact ⟨rfl, rfl⟩

/-- A queue operation on the way. -/
theorem fresh_insertQ (n : Net N M) (L last a : Fin N) (e : Fin M) (y z : Nat) (k : SoQ) :
    Fresh n ((n.cloned L a e y z).insertQ L last a k) a e := by
  have hrest := insertQ_rest (n.cloned L a e y z) L last a k
  refine ⟨rfl, rfl, rfl, rfl, rfl, rfl, ?_, ?_⟩
  · intro b hb
    rw [(hrest b).soPcb, (hrest b).socketEx, cloned_so_of_ne hb]
    exact ⟨rfl, rfl⟩
  · rw [(hrest a).socketEx, cloned_so]
    rfl

/-- `sonewconn` up to `tcp_attach`: the new socket has joined `so_q0`. -/
theorem sonewconn_queued (h : QueueInv n que) (hl : ListsInUse n) (hL : n.listens L)
    (hroom : (n.so L).soQlen + (n.so L).soQ0len ≤ 3 * (n.so L).soQlimit / 2) (ha : n.mid1 a = none)
    (he : n.lo e = none) (rinp : Option (Fin M)) (rtp : Option (Fin N)) :
    ∃ y z, sonewconn L ⟨some a, some e, rinp, rtp⟩ n = newconnAttach a ⟨some a, some e, rinp, rtp⟩
        ((n.cloned L a e y z).insertQ L ((que .soQ0 L).getLastD L) a .soQ0) ∧
      QueueInv ((n.cloned L a e y z).insertQ L ((que .soQ0 L).getLastD L) a .soQ0)
        (setQue que .soQ0 L (que .soQ0 L ++ [a])) := by
  have hLa : L ≠ a := by
    rintro rfl
    have hlive := hL.1
    rw [ha] at hlive
    cases hlive
  have hmid : ((n.allocated a e).setSo a (cloneOf (n.so L))).mid1 a = some .socket := by
    simp [Net.allocated]
  obtain ⟨r, y, z, hres⟩ := soreserve_run hmid (n.so L).sndHiwat (n.so L).rcvHiwat
  rw [← Net.cloned] at hres
  have hL1 : (n.cloned L a e y z).listens L := by
    refine ⟨?_, ?_⟩
    · simp only [Net.cloned, setSo_mid1, Net.allocated, Function.update_of_ne hLa]
      exact hL.1
    · rw [cloned_so_of_ne hLa]
      exact hL.2
  have hq1 : QueueInv (n.cloned L a e y z) que := h.cloned ha
  refine ⟨y, z, ?_, ?_⟩
  · rw [sonewconn, bind_readSo hL.1, if_neg (by omega), run_bind (tnSocketTcpAlloc_ok ha he hl.exs)]
    dsimp only
    rw [bind_writeSo (by simp [Net.allocated]), run_bind hres,
      run_bind (soqinsque_ok hq1 hL1 cloned_offQueue)]
  · apply hq1.insertQ hL1 cloned_offQueue
    rw [cloned_so]
    rfl

/-- **`sonewconn`** with the blocks it needs: the new socket joins `so_q0`. -/
theorem sonewconn_ok (h : QueueInv n que) (hl : ListsInUse n) (hL : n.listens L)
    (hroom : (n.so L).soQlen + (n.so L).soQ0len ≤ 3 * (n.so L).soQlimit / 2)
    (hf : FreeBlocks n a e i t) :
    ∃ n', sonewconn L ⟨some a, some e, some i, some t⟩ n = .ok (some a, n') ∧ Added n n' a e i t ∧
      QueueInv n' (setQue que .soQ0 L (que .soQ0 L ++ [a])) ∧
      (∀ b, b ≠ a → SameLimit (n.so b) (n'.so b)) ∧ (n'.so a).acceptConn = false := by
  obtain ⟨y, z, hrun, hq⟩ := sonewconn_queued h hl hL hroom hf.so hf.ex (some i) (some t)
  generalize (que .soQ0 L).getLastD L = last at hrun hq
  have hrest := insertQ_rest (n.cloned L a e y z) L last a .soQ0
  have hfr := fresh_insertQ n L last a e y z .soQ0
  refine ⟨((n.cloned L a e y z).insertQ L last a .soQ0).madeSocket a i t, ?_, hfr.added hf, ?_, ?_, ?_⟩
  · rw [hrun, newconnAttach, run_bind (tcpAttach_fresh hfr hf hl), if_neg (by simp),
      run_bind (madeSocket_run hfr hf.tp_ne)]
    rfl
  · apply hq.madeSocket
    rw [hfr.mid1, Function.update_of_ne hf.tp_ne, hf.tp]
  · intro b hb
    have hmade := madeSocket_queue ((n.cloned L a e y z).insertQ L last a .soQ0) a i t b
    have hins := hrest b
    rw [cloned_so_of_ne hb] at hins
    exact ⟨hmade.limit.trans hins.limit, hmade.acceptConn.trans hins.acceptConn⟩
  · rw [(madeSocket_queue _ a i t a).acceptConn, (hrest a).acceptConn, cloned_so]
    rfl

end Newconn

end TnSock
