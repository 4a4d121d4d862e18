import TnNet.Lib.Bytes
import TnNet.Sock.QueueRun

/-!
# The address `tcp_s_accept` stores

`tcp_s_accept` has the pcb of the listening socket in `inp` from its start on, waits, takes a
connection off `so_q`, and calls `in_setpeeraddr(inp, nam)`.  Each pcb has the foreign address and port of
its connection here.

* `tcpSAccept_eq` — without the address the call is `tcpSAccept`.
* `acceptLoop_ok` — what a call that returns a socket does to the queues and the sockets.
* `accept_peer` — the address stored is the peer's if and only if the pcb of the listening socket is
  connected to the same address and port, and the caller has room for it.
-/

set_option autoImplicit false

namespace TnSock

open Bytes

variable {N M : Nat}

/-! ## The call -/

/-- `inp_faddr` and `inp_fport`. -/
structure Foreign where
  inpFaddr : BitVec 32
  inpFport : BitVec 16
  deriving DecidableEq, Repr

/-- `struct sockaddr__in`: `sin_len`, `sin_family`, `sin_port`, `sin_addr` and `sin_zero`. -/
def sockaddrIn (f : Foreign) : List UInt8 :=
  [16, 2] ++ leBytes 2 f.inpFport.toNat ++ leBytes 4 f.inpFaddr.toNat ++ List.replicate 8 0

/-- The size of a `sockaddr__in` without `sin_zero`. -/
def IP4_SIN_ADDR_SIZE : Nat := 8

/-- `in_setpeeraddr`: the contents of `nam`. -/
def inSetpeeraddr (pcb : Fin M → Foreign) (i : Fin M) : Call N M (List UInt8) := do
  touchInp i
  pure (sockaddrIn (pcb i))

/-- The return value of `tcp_s_accept`, with the bytes stored in `addr` and the new `addrlen`, or that it
    waits. -/
inductive AcceptRet (N : Nat) where
  | error
  | wait
  | socket (a : Fin N) (addr : List UInt8) (addrlen : Nat)
  deriving DecidableEq, Repr

/-- `tcp_s_accept` copies the address to the caller, who has `addrlen` bytes for it, or none. -/
def storeName (addr : Bool) (addrlen : Nat) (nam : List UInt8) : List UInt8 × Nat :=
  if addr then
    let namelen := if nam.length < addrlen then nam.length else addrlen
    (nam.take namelen, namelen)
  else
    ([], addrlen)

/-- `tcp_s_accept` up to its loop; the result is `inp`. -/
def acceptEntry (s : Fin N) : Call N M (Option (Fin M)) := do
  let so ← readSo s
  match so.soPcb with
  | none => pure none
  | some i =>
    if ¬ so.acceptConn ∨ (so.nbio ∧ so.soQlen = 0) then pure none else pure (some i)

/-- `tcp_s_accept` takes the first socket off `so_q`. -/
def soaccept (pcb : Fin M → Foreign) (i : Fin M) (so : SocketTcp N M) (addr : Bool) (addrlen : Nat) :
    Call N M (AcceptRet N) := do
  let aso ← deref so.soQ
  if ← soqremque aso .soQ then
    let a ← readSo aso
    if a.nofdref then
      writeSo aso fun s => { s with nofdref := false }
      let nam ← inSetpeeraddr pcb i
      pure (.socket aso (storeName addr addrlen nam).1 (storeName addr addrlen nam).2)
    else
      fail .panic
  else
    fail .panic

/-- `tcp_s_accept` from its loop on, with the pcb it has read at its start.  Behind a wait it comes back
    to the start of the loop. -/
def acceptLoop (pcb : Fin M → Foreign) (s : Fin N) (i : Fin M) (nam addr : Bool) (addrlen : Nat) :
    Call N M (AcceptRet N) := do
  let so ← readSo s
  if so.soQlen = 0 ∧ so.soError = 0 ∧ ¬ so.cantRcvMore then
    touchEx (← deref so.socketEx)
    pure .wait
  else if so.soQlen = 0 ∨ so.soError ≠ 0 then
    writeSo s fun s => { s with soError := 0 }
    pure .error
  else if nam then
    soaccept pcb i so addr addrlen
  else
    pure .error

/-! ## Without the address -/

/-- The result without the address. -/
def AcceptRet.bare : AcceptRet N → Accepted N
  | .error => .error
  | .wait => .wait
  | .socket a _ _ => .socket a

variable {n n' : Net N M} {que : SoQ → Fin N → List (Fin N)} {s c : Fin N} {i : Fin M}

theorem call_bind_assoc {α β γ : Type} (x : Call N M α) (f : α → Call N M β) (g : β → Call N M γ) :
    (x >>= f) >>= g = x >>= fun a => f a >>= g := by
  funext n
  simp only [bind]
  cases x n <;> rfl

theorem call_bind_ite {α β : Type} {p : Prop} [Decidable p] {x y : Call N M α} {f : α → Call N M β} :
    ((if p then x else y) >>= f) = if p then x >>= f else y >>= f := by
  split <;> rfl

theorem soaccept_bare (pcb : Fin M → Foreign) (i : Fin M) (so : SocketTcp N M) (addr : Bool)
    (addrlen : Nat) :
    (soaccept pcb i so addr addrlen >>= fun r => pure r.bare : Call N M (Accepted N)) =
      acceptFirst i so := by
  unfold soaccept acceptFirst inSetpeeraddr
  simp only [call_bind_assoc, call_bind_ite]
  rfl

/-- **The call without the address** that does not wait, or whose wait is over. -/
theorem tcpSAccept_eq (pcb : Fin M → Foreign) (s : Fin N) (nam addr : Bool) (addrlen : Nat) :
    tcpSAccept s nam = (do
      match ← acceptEntry s with
      | none => pure .error
      | some i =>
        let r ← acceptLoop pcb s i nam addr addrlen
        pure r.bare : Call N M (Accepted N)) := by
  funext n
  by_cases hs : n.mid1 s = some .socket
  · unfold tcpSAccept acceptEntry
    rw [call_bind_assoc, bind_readSo hs, bind_readSo hs]
    cases (n.so s).soPcb with
    | none => rfl
    | some i =>
      dsimp only
      rw [call_bind_ite]
      by_cases hacc : ¬ (n.so s).acceptConn = true ∨ (n.so s).nbio = true ∧ (n.so s).soQlen = 0
      · rw [if_pos hacc, if_pos hacc]
        rfl
      · rw [if_neg hacc, if_neg hacc]
        change _ = (acceptLoop pcb s i nam addr addrlen >>= fun r => pure r.bare) n
        unfold acceptLoop
        rw [call_bind_assoc, bind_readSo hs]
        simp only [call_bind_ite, soaccept_bare, call_bind_assoc]
        rfl
  · have hr : (readSo s : Call N M (SocketTcp N M)) n = .error (.freedMid1 s) := by simp [readSo, hs]
    unfold tcpSAccept acceptEntry
    rw [call_bind_assoc, run_bind_error hr, run_bind_error hr]

/-! ## What an accept does -/

/-- The address of the pcb stands in the caller's buffer. -/
def HoldsAddr (f : Foreign) (b : List UInt8) : Prop :=
  (sockaddrIn f).take IP4_SIN_ADDR_SIZE <+: b

instance (f : Foreign) (b : List UInt8) : Decidable (HoldsAddr f b) :=
  inferInstanceAs (Decidable (_ <+: _))

/-- The call has taken the connection `c` for the user, and no other one. -/
structure TakenUp (n n' : Net N M) (que : SoQ → Fin N → List (Fin N)) (s c : Fin N) : Prop where
  /-- `SS_NOFDREF` is cleared on this socket alone. -/
  nofdref : (n.so c).nofdref = true ∧ (n'.so c).nofdref = false
  others : ∀ b, b ≠ c → (n'.so b).nofdref = (n.so b).nofdref
  /-- The socket is on no queue. -/
  off : (n'.so c).soHead = none ∧ (n'.so c).soQ0 = none ∧ (n'.so c).soQ = none
  /-- It was the first of `so_q`, and the other connections are as they were. -/
  queues : ∃ que', QueueInv n' que' ∧ que .soQ s = c :: que' .soQ s ∧
    (∀ k b, ¬ (k = .soQ ∧ b = s) → que' k b = que k b) ∧ ∀ k b, c ∉ que' k b

theorem taken_up (h : NetInv n que) {l : List (Fin N)} (hque : que .soQ s = c :: l) :
    TakenUp n (n.accepted s c) que s c := by
  have hque' : que .soQ s = [] ++ c :: l := hque
  obtain ⟨-, -, hfd, -⟩ := h.queues.mem .soQ s c (by simp [hque])
  have hself : (n.accepted s c).so c = ((n.unlinkQ s s c .soQ).so c).takenUp := setSo_so_self _ _ _
  refine ⟨⟨hfd, by rw [hself]; rfl⟩, fun b hb => ?_, ?_, _, (h.accepted hque).queues, ?_, ?_, ?_⟩
  · rw [Net.accepted, setSo_so_of_ne _ hb]
    exact (unlinkQ_rest n s s c .soQ b).nofdref
  · rw [hself]
    have hlink : ∀ k, ((n.unlinkQ s s c .soQ).so c).link k = none := fun _ => unlinkQ_self_link
    exact ⟨unlinkQ_self_soHead, hlink .soQ0, hlink .soQ⟩
  · rw [setQue_self]
    exact hque
  · intro k b hkb
    exact setQue_of_ne hkb
  · intro k b hm
    exact ((h.queues.mem_unlink hque').mp hm).2 rfl

/-- **An accept** takes the first connection of `so_q`, and stores what `in_setpeeraddr` makes of `inp`. -/
theorem acceptLoop_ok (h : NetInv n que) (hs : n.listens s) (pcb : Fin M → Foreign) {nam addr : Bool}
    {addrlen len' : Nat} {b : List UInt8}
    (hr : acceptLoop pcb s i nam addr addrlen n = .ok (.socket c b len', n')) :
    (n.so s).soQ = some c ∧ n' = n.accepted s c ∧ (∃ l, que .soQ s = c :: l) ∧
      b = (storeName addr addrlen (sockaddrIn (pcb i))).1 := by
  unfold acceptLoop at hr
  rw [bind_readSo hs.1] at hr
  split at hr
  · cases hex : (n.so s).socketEx with
    | none =>
      rw [hex] at hr
      cases hr
    | some e =>
      rw [hex, bind_deref] at hr
      by_cases he : n.lo e = some .socketEx
      · rw [bind_touchEx he] at hr
        cases hr
      · rw [run_bind_error (show touchEx e n = .error (.freedMin e) by simp [touchEx, he])] at hr
        cases hr
  · split at hr
    · rw [bind_writeSo hs.1] at hr
      cases hr
    · rename_i hlen
      split at hr
      · have hql := h.queues.len .soQ s hs
        simp only [not_or] at hlen
        cases hque : que .soQ s with
        | nil =>
          rw [hque] at hql
          exact absurd hql hlen.1
        | cons d l =>
          obtain ⟨hsoQ, hrem, hlive, hfd⟩ := first_ok h hs hque
          unfold soaccept at hr
          rw [hsoQ, bind_deref, run_bind hrem, if_pos rfl, bind_readSo (by exact hlive), if_pos hfd,
            bind_writeSo (by exact hlive)] at hr
          unfold inSetpeeraddr at hr
          rw [call_bind_assoc] at hr
          by_cases hi : n.lo i = some .inpcb
          · rw [run_bind (touchInp_ok (by exact hi))] at hr
            cases hr
            exact ⟨hsoQ, rfl, ⟨l, rfl⟩, rfl⟩
          · have hte : ∀ m : Net N M, m.lo = n.lo → touchInp i m = .error (.freedMin i) := by
              intro m hm
              have hri : readInp i m = .error (.freedMin i) := by simp [readInp, hm, hi]
              exact run_bind_error hri
            have herr := hr.symm.trans (run_bind_error (hte _ rfl))
            cases herr
      · cases hr

/-! ## The address -/

theorem sockaddrIn_take (f : Foreign) : (sockaddrIn f).take IP4_SIN_ADDR_SIZE =
    [16, 2] ++ leBytes 2 f.inpFport.toNat ++ leBytes 4 f.inpFaddr.toNat := by
  unfold sockaddrIn IP4_SIN_ADDR_SIZE
  rw [List.take_append_of_le_length (by simp), List.take_of_length_le (by simp)]

/-- The address determines the pcb's address and port. -/
theorem sockaddrIn_inj {f g : Foreign}
    (h : (sockaddrIn f).take IP4_SIN_ADDR_SIZE = (sockaddrIn g).take IP4_SIN_ADDR_SIZE) : f = g := by
  rw [sockaddrIn_take, sockaddrIn_take, List.append_assoc, List.append_assoc] at h
  have h1 := List.append_cancel_left h
  obtain ⟨h2, h3⟩ := List.append_inj h1 (by simp)
  have hp := leBytes_inj f.inpFport.isLt g.inpFport.isLt h2
  have ha := leBytes_inj f.inpFaddr.isLt g.inpFaddr.isLt h3
  obtain ⟨fa, fp⟩ := f
  obtain ⟨ga, gp⟩ := g
  rw [Foreign.mk.injEq]
  exact ⟨BitVec.eq_of_toNat_eq ha, BitVec.eq_of_toNat_eq hp⟩

/-- What is stored holds the address of `g` if it is that of `f` and there is room. -/
theorem storeName_holds (f g : Foreign) (addrlen : Nat) :
    HoldsAddr g (storeName true addrlen (sockaddrIn f)).1 ↔ IP4_SIN_ADDR_SIZE ≤ addrlen ∧ f = g := by
  have hlen : ∀ f : Foreign, (sockaddrIn f).length = 16 := fun f => by simp [sockaddrIn]
  have hstore : (storeName true addrlen (sockaddrIn f)).1 = (sockaddrIn f).take (min addrlen 16) := by
    have hmin : (if 16 < addrlen then 16 else addrlen) = min addrlen 16 := by
      split <;> omega
    unfold storeName
    rw [if_pos rfl, hlen]
    dsimp only
    rw [hmin]
  have hsz : IP4_SIN_ADDR_SIZE = 8 := rfl
  unfold HoldsAddr
  rw [hstore]
  constructor
  · intro h
    have hle := h.length_le
    rw [List.length_take, List.length_take, hlen, hlen, hsz] at hle
    have hroom : 8 ≤ addrlen := by omega
    refine ⟨hroom, sockaddrIn_inj ?_⟩
    have heq := List.prefix_iff_eq_take.mp h
    rw [List.length_take, hlen, List.take_take, hsz] at heq
    rw [hsz, heq]
    congr 1
    omega
  · rintro ⟨hroom, rfl⟩
    rw [List.prefix_iff_eq_take, List.length_take, hlen, List.take_take]
    congr 1
    omega

/-- The call has accepted `c` and stored the address of its pcb. -/
def AcceptsPeer (pcb : Fin M → Foreign) (n n' : Net N M) (que : SoQ → Fin N → List (Fin N)) (s c : Fin N)
    (b : List UInt8) : Prop :=
  TakenUp n n' que s c ∧ ∃ j, (n.so c).soPcb = some j ∧ HoldsAddr (pcb j) b

/-- The pcb `i` is connected to the same address and port as the first connection of the socket. -/
def SamePeer (pcb : Fin M → Foreign) (n : Net N M) (s : Fin N) (i : Fin M) : Prop :=
  ∃ c j, (n.so s).soQ = some c ∧ (n.so c).soPcb = some j ∧ pcb i = pcb j

/-- **`tcp_s_accept` identifies the peer** if and only if `inp`, the pcb of the listening socket, is
    connected to the same address and port, and the caller has room for them. -/
theorem accept_peer (h : NetInv n que) (hs : n.listens s) (pcb : Fin M → Foreign) {nam : Bool}
    {addrlen len' : Nat} {b : List UInt8}
    (hr : acceptLoop pcb s i nam true addrlen n = .ok (.socket c b len', n')) :
    AcceptsPeer pcb n n' que s c b ↔ IP4_SIN_ADDR_SIZE ≤ addrlen ∧ SamePeer pcb n s i := by
  obtain ⟨hsoQ, rfl, ⟨l, hque⟩, rfl⟩ := acceptLoop_ok h hs pcb hr
  constructor
  · rintro ⟨-, j, hj, hb⟩
    obtain ⟨hroom, heq⟩ := (storeName_holds _ _ _).mp hb
    exact ⟨hroom, c, j, hsoQ, hj, heq⟩
  · rintro ⟨hroom, d, j, hd, hj, heq⟩
    rw [hsoQ, Option.some.injEq] at hd
    subst hd
    exact ⟨taken_up h hque, j, hj, (storeName_holds _ _ _).mpr ⟨hroom, heq⟩⟩

/-- Two connections to a listening socket have completed. -/
def pendingRun : List (SockEvent 6 6) :=
  [.socket AF_INET SOCK_STREAM true ⟨some 0, some 0, some 1, some 1⟩, .listen 0 2 0,
    .sonewconn 0 ⟨some 2, some 2, some 3, some 3⟩, .sonewconn 0 ⟨some 4, some 4, some 5, some 5⟩,
    .soisconnected 4, .soisconnected 2]

/-- They come from `192.168.0.2`, port 5000, and from `192.168.0.3`, port 6000. -/
def pendingPcb : Fin 6 → Foreign
  | 3 => ⟨0x0200A8C0, 0x8813⟩
  | 5 => ⟨0x0300A8C0, 0x7017⟩
  | _ => ⟨0, 0⟩

/-- The first of them is accepted, with an address of zeros. -/
def pendingCheck (n : Net 6 6) : Bool :=
  decide (n.listens 0) && decide ((n.so 4).soPcb = some 5) &&
    match acceptLoop pendingPcb 0 1 true true 16 n with
    | .ok (.socket c b _, _) => decide (c = 4 ∧ b = sockaddrIn ⟨0, 0⟩)
    | _ => false

theorem pending_accepted : ∃ (n n' : Net 6 6) (que : SoQ → Fin 6 → List (Fin 6)) (len' : Nat),
    (Machine.run sockStep (some (Net.init 6 6)) pendingRun).1 = some n ∧ NetInv n que ∧ n.listens 0 ∧
      (n.so 4).soPcb = some 5 ∧
      acceptLoop pendingPcb 0 1 true true 16 n = .ok (.socket 4 (sockaddrIn ⟨0, 0⟩) len', n') := by
  have hg : Machine.Guarded sockStep (fun n ev => ev.Orderly n) (some (Net.init 6 6)) pendingRun := by
    decide +kernel
  have hm : (Machine.run sockStep (some (Net.init 6 6)) pendingRun).1.any pendingCheck = true := by
    decide +kernel
  obtain ⟨n, hn, que, hinv⟩ := run_netInv hg
  rw [hn] at hm
  simp only [Option.any_some, pendingCheck, Bool.and_eq_true, decide_eq_true_eq] at hm
  obtain ⟨⟨hL, hpcb⟩, hacc⟩ := hm
  split at hacc
  · rename_i c b len' n' hr
    obtain ⟨rfl, rfl⟩ := of_decide_eq_true hacc
    exact ⟨n, n', que, len', hn, hinv, hL, hpcb, hr⟩
  · cases hacc

/-- The theorem at that call. -/
theorem accept_peer_pending : ∃ (n n' : Net 6 6) (que : SoQ → Fin 6 → List (Fin 6)) (len' : Nat),
    acceptLoop pendingPcb 0 1 true true 16 n = .ok (.socket 4 (sockaddrIn ⟨0, 0⟩) len', n') ∧
      (AcceptsPeer pendingPcb n n' que 0 4 (sockaddrIn ⟨0, 0⟩) ↔
        IP4_SIN_ADDR_SIZE ≤ 16 ∧ SamePeer pendingPcb n 0 1) := by
  obtain ⟨n, n', que, len', -, hinv, hL, -, hr⟩ := pending_accepted
  exact ⟨n, n', que, len', hr, accept_peer hinv hL pendingPcb hr⟩

/-- The address of the listening socket's pcb is stored, not that of the connection. -/
theorem accept_stores_listener :
    ¬ ∀ (n n' : Net 6 6) (que : SoQ → Fin 6 → List (Fin 6)) (pcb : Fin 6 → Foreign)
      (s c : Fin 6) (i : Fin 6)
      (b : List UInt8) (len' : Nat), NetInv n que → n.listens s → (n.so s).soPcb = some i →
      acceptLoop pcb s i true true 16 n = .ok (.socket c b len', n') → AcceptsPeer pcb n n' que s c b := by
  intro h
  obtain ⟨n, n', que, len', hn, hinv, hL, hpcb, hr⟩ := pending_accepted
  have hm : (Machine.run sockStep (some (Net.init 6 6)) pendingRun).1.any
      (fun n => decide ((n.so 0).soPcb = some 1)) = true := by decide +kernel
  rw [hn] at hm
  obtain ⟨-, j, hj, hb⟩ := h n n' que pendingPcb 0 4 1 _ len' hinv hL (by simpa using hm) hr
  rw [hpcb, Option.some.injEq] at hj
  subst hj
  revert hb
  decide +kernel

end TnSock
