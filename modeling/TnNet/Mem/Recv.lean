import TnNet.Mem.SockbufInv
import TnNet.Tcp.SockRules

/-!
# Reading a receive buffer

`tcp_s_recv` of `tn_tcp_sockets.c` on the mbufs of `so_rcv`, with and without `MSG_ZEROCOPY`, and the
machine of a receive buffer: `sbappend` by the protocol, `sbflush`, the calls of the user, and the
other owners of mbufs, who write what the buffer does not own.

* `recvLoop_spec` — what the loop takes, releases and leaves.
* `RcvOk` — `sb_cc` is exact, no mbuf is empty, what was put in is what was taken out and what is held,
  in this order, and every descriptor is held once or released.
* `rcvOk_run` — so it is in every run in which a large receive buffer that is converted comes alone.
-/

set_option autoImplicit false

namespace TnNet.Mem

open TnNet (SocketTcp)

/-! ## The call -/

/-- `MSG_ZEROCOPY` of `flags`, with what `m_copym` of the last mbuf returns. -/
inductive CopyMode where
  | copy
  | zerocopy (copied : Bool)
  deriving DecidableEq

/-- What is seen of the calls on a receive buffer. -/
inductive RecvObs where
  | sb (o : Obs)
  | given (mb : Nat)
  | taken (bytes : List UInt8)
  | lost (bytes : List UInt8)
  deriving DecidableEq

/-- What the loop leaves: the buffer and the count, what `bcopy` has written and what has left the
    buffer, the descriptors that were released, and whether `m_copym` had no memory. -/
structure RecvLoop where
  sb : Sockbuf
  nbytes : Nat
  copied : List UInt8 := []
  taken : List UInt8 := []
  obs : List RecvObs := []
  nobufs : Bool := false

/-- A descriptor whose data has been read: freed, or linked behind the ones the user gets. -/
def CopyMode.release (mode : CopyMode) (m : Mbuf) : RecvObs :=
  match mode with
  | .copy => .sb (.free m.addr)
  | .zerocopy _ => .given m.addr

/-- The loop of `tcp_s_recv`; `nextrecord` is the chain behind `m_nextpkt`. -/
def recvLoop (mode : CopyMode) (nextrecord : List Mbuf) : List Mbuf → Nat → Nat → RecvLoop
  | [], nbytes, cc => { sb := ⟨cc, nextrecord⟩, nbytes := nbytes }
  | m :: l, nbytes, cc =>
    if nbytes = 0 then { sb := ⟨cc, m :: l⟩, nbytes := 0 }
    else
      let len := min nbytes m.mLen
      if len = m.mLen then
        let r := recvLoop mode nextrecord l (nbytes - len) (cc - m.mLen)
        { r with
          copied := m.mData.take len ++ r.copied
          taken := m.mData ++ r.taken
          obs := mode.release m :: r.obs }
      else if mode = .zerocopy false then
        { sb := ⟨cc, m :: l⟩, nbytes := nbytes - len, copied := m.mData.take len, nobufs := true }
      else
        { sb := ⟨cc - len, { m with mData := m.mData.drop len, dataOff := m.dataOff + len } :: l⟩
          nbytes := nbytes - len
          copied := m.mData.take len
          taken := m.mData.take len }

/-- A call: what it returns, if it does not wait on `sb_sem`, the buffer it leaves, what it has copied
    and released, and whether it has called `tcp_output`. -/
structure RecvCall where
  rc : Option Int
  sb : Sockbuf
  copied : List UInt8 := []
  obs : List RecvObs := []
  output : Bool := false

/-- `tcp_s_recv`; `buf` is not `NULL`. -/
def tcpSRecv (so : SocketTcp) (sb : Sockbuf) (buf : Bool) (nbytes : Int) (mode : CopyMode) :
    RecvCall :=
  if nbytes ≤ 0 ∨ buf = false then { rc := some (-EINVAL), sb := sb }
  else if so.ssCantrcvmore ∧ sb.sbMb = [] then { rc := some 0, sb := sb }
  else if ¬ so.ssCantrcvmore ∧ ¬ so.ssIsconnected ∧ ¬ so.ssIsconnecting then
    { rc := some (-ENOTCONN), sb := sb }
  else if sb.sbMb = [] then { rc := none, sb := sb }
  else
    -- a socket buffer holds one record
    let r := recvLoop mode [] sb.sbMb nbytes.toNat sb.sbCc
    { rc := some (if r.nobufs then -ENOBUFS else nbytes - r.nbytes)
      sb := r.sb
      copied := r.copied
      obs := r.obs ++ [.taken r.taken]
      output := !r.nobufs }

/-! ## The machine -/

/-- What happens to a receive buffer and to the mbufs around it. -/
inductive RecvEvent where
  | append (m : List Mbuf) (allocs : List (Option Nat))
  | flush
  | recv (so : SocketTcp) (buf : Bool) (nbytes : Int) (mode : CopyMode)
  | write (mb : Nat) (bytes : List UInt8)

/-- The owner of the descriptor `mb` writes its data. -/
def Mbuf.write (mb : Nat) (bytes : List UInt8) (m : Mbuf) : Mbuf :=
  if m.addr = mb then { m with mData := bytes } else m

def recvMachine : Machine.Step Sockbuf RecvEvent RecvObs := fun sb ev =>
  match ev with
  | .append m allocs =>
    let r := sbappend sb m allocs
    (some r.1, r.2.map .sb)
  | .flush =>
    let r := sbflush sb
    (some r.1, .lost (bytesOf sb.sbMb) :: r.2.map .sb)
  | .recv so buf nbytes mode =>
    let r := tcpSRecv so sb buf nbytes mode
    (some r.sb, r.obs)
  | .write mb bytes => (some { sb with sbMb := sb.sbMb.map (Mbuf.write mb bytes) }, [])

def RecvObs.cameIn : RecvObs → List Nat
  | .sb o => o.cameIn
  | _ => []

def RecvObs.wentOut : RecvObs → List Nat
  | .sb o => o.wentOut
  | .given mb => [mb]
  | _ => []

def RecvObs.putIn : RecvObs → List UInt8
  | .sb (.appended bytes) => bytes
  | _ => []

def RecvObs.gone : RecvObs → List UInt8
  | .taken bytes => bytes
  | .lost bytes => bytes
  | _ => []

/-- The bytes that were appended. -/
def putIn (hist : List RecvObs) : List UInt8 := hist.flatMap RecvObs.putIn

/-- The bytes that were read or flushed. -/
def takenOut (hist : List RecvObs) : List UInt8 := hist.flatMap RecvObs.gone

/-- The callers of `sbappend` own what they pass, and the other owners of mbufs write what the buffer
    does not own: what never came in or has gone out again. -/
def RecvOwned (p : Sockbuf × List RecvObs) : RecvEvent → Prop
  | .append m allocs => (allocs.filterMap id ++ addrs m ++ addrs p.1.sbMb).Nodup
  | .write mb _ => (p.2.flatMap RecvObs.cameIn).count mb ≤ (p.2.flatMap RecvObs.wentOut).count mb
  | _ => True

/-- A large receive buffer that is converted comes alone. -/
def RecvAppends : RecvEvent → Prop
  | .append m allocs => HiAlone m allocs
  | _ => True

/-! ## The loop -/

abbrev RecvMoves (before : List Nat) (obs : List RecvObs) (after : List Nat) : Prop :=
  Ledger RecvObs.cameIn RecvObs.wentOut before obs after

variable {sb sb' : Sockbuf} {m l : List Mbuf} {allocs : List (Option Nat)} {obs hist : List RecvObs}
  {mode : CopyMode} {nbytes cc len : Nat}

/-- No mbuf of the chain is empty. -/
def Full (l : List Mbuf) : Prop := ∀ m ∈ l, m.mData ≠ []

theorem bytesOf_eq_nil (h : Full l) : bytesOf l = [] ↔ l = [] := by
  constructor
  · intro hb
    cases l with
    | nil => rfl
    | cons m l =>
      rw [bytesOf_cons, List.append_eq_nil_iff] at hb
      exact absurd hb.1 (h m List.mem_cons_self)
  · rintro rfl
    rfl

/-- A descriptor is released, and the chain keeps the rest. -/
theorem moves_release (mode : CopyMode) (m : Mbuf) : RecvMoves [m.addr] [mode.release m] [] := by
  intro x
  cases mode <;> simp [CopyMode.release, RecvObs.cameIn, RecvObs.wentOut, Obs.cameIn, Obs.wentOut]

/-- The first mbufs of a chain, those that are read to their end by `n` bytes. -/
def wholly : List Mbuf → Nat → List Mbuf
  | [], _ => []
  | m :: l, n => if m.mLen ≤ n then m :: wholly l (n - m.mLen) else []

/-- The mbufs read to their end are those whose last byte is among the first `n`. -/
theorem wholly_eq_take (h : Full l) (n : Nat) : ∃ k ≤ l.length, wholly l n = l.take k ∧
    ∀ i < l.length, i < k ↔ (bytesOf (l.take (i + 1))).length ≤ n := by
  induction l generalizing n with
  | nil => exact ⟨0, le_refl 0, rfl, fun i hi => absurd hi (Nat.not_lt_zero i)⟩
  | cons m l ih =>
    have hlen : ∀ i, (bytesOf ((m :: l).take (i + 1))).length =
        m.mLen + (bytesOf (l.take i)).length := by
      intro i
      rw [List.take_succ_cons, bytesOf_cons, List.length_append]
      rfl
    unfold wholly
    split
    · rename_i hle
      obtain ⟨k, hk, heq, hiff⟩ := ih (fun x hx => h x (List.mem_cons_of_mem m hx)) (n - m.mLen)
      refine ⟨k + 1, Nat.succ_le_succ hk, by rw [heq, List.take_succ_cons], fun i hi => ?_⟩
      rw [hlen]
      cases i with
      | zero =>
        rw [List.take_zero, bytesOf_nil, List.length_nil]
        omega
      | succ i =>
        have := hiff i (Nat.lt_of_succ_lt_succ hi)
        omega
    · rename_i hlt
      refine ⟨0, Nat.zero_le _, rfl, fun i _ => ?_⟩
      rw [hlen]
      omega

/-- What the loop does to the chain `l`. -/
structure Looped (l : List Mbuf) (r : RecvLoop) : Prop where
  bytes : r.taken ++ bytesOf r.sb.sbMb = bytesOf l
  cc : r.sb.sbCc = (bytesOf r.sb.sbMb).length
  full : Full r.sb.sbMb
  moves : RecvMoves (addrs l) r.obs (addrs r.sb.sbMb)
  kept : (addrs r.sb.sbMb).Sublist (addrs l)
  only : ∀ o ∈ r.obs, o.putIn = [] ∧ o.gone = [] ∧ o ≠ .sb .panic

theorem recvLoop_looped (hl : Full l) (hcc : cc = (bytesOf l).length) :
    Looped l (recvLoop mode [] l nbytes cc) := by
  induction l generalizing nbytes cc with
  | nil =>
    unfold recvLoop
    exact ⟨rfl, hcc, hl, .refl [], List.Sublist.refl _, by simp⟩
  | cons m l ih =>
    have hrest : Full l := fun x hx => hl x (List.mem_cons_of_mem m hx)
    have hlen : cc = m.mLen + (bytesOf l).length := by
      rw [hcc, bytesOf_cons, List.length_append]
      rfl
    have stop : ∀ {r : RecvLoop}, r.taken = [] → r.sb = ⟨cc, m :: l⟩ → r.obs = [] →
        Looped (m :: l) r := by
      intro r ht hs ho
      refine ⟨by rw [ht, hs, List.nil_append], by rw [hs]; exact hcc, by rw [hs]; exact hl, ?_,
        by rw [hs], by simp [ho]⟩
      rw [ho, hs]
      exact .refl _
    unfold recvLoop
    split
    · exact stop rfl rfl rfl
    dsimp only
    split
    · -- the whole mbuf
      have h := @ih (nbytes - min nbytes m.mLen) (cc - m.mLen) hrest (by omega)
      constructor
      case bytes =>
        dsimp only
        rw [List.append_assoc, h.bytes, bytesOf_cons]
      case cc => exact h.cc
      case full => exact h.full
      case moves => exact (moves_release mode m).append h.moves
      case kept => exact h.kept.trans (List.sublist_cons_self _ _)
      case only =>
        intro o ho
        rcases List.mem_cons.mp ho with rfl | ho
        · cases mode <;> simp [CopyMode.release, RecvObs.putIn, RecvObs.gone]
        · exact h.only o ho
    split
    · exact stop rfl rfl rfl
    · -- a part of it
      rename_i hne _
      have hlt : nbytes < m.mLen := by omega
      have hmin : min nbytes m.mLen = nbytes := Nat.min_eq_left (Nat.le_of_lt hlt)
      rw [hmin]
      have hdrop : (m.mData.drop nbytes).length = m.mLen - nbytes := List.length_drop
      constructor
      case bytes =>
        dsimp only
        rw [bytesOf_cons, bytesOf_cons, ← List.append_assoc, List.take_append_drop]
      case cc =>
        dsimp only
        rw [bytesOf_cons, List.length_append, hdrop]
        omega
      case full =>
        intro x hx
        rcases List.mem_cons.mp hx with rfl | hx
        · intro hc
          dsimp only at hc
          rw [hc, List.length_nil] at hdrop
          omega
        · exact hrest x hx
      case moves => exact .refl _
      case kept => exact List.Sublist.refl _
      case only => simp

/-- **The loop without `MSG_ZEROCOPY`** reads the first bytes and frees the mbufs read to their end. -/
theorem recvLoop_copy (hcc : cc = (bytesOf l).length) (hl : Full l) :
    (recvLoop .copy [] l nbytes cc).copied = (bytesOf l).take nbytes ∧
      (recvLoop .copy [] l nbytes cc).taken = (bytesOf l).take nbytes ∧
      (recvLoop .copy [] l nbytes cc).nbytes = nbytes - (bytesOf l).length ∧
      (recvLoop .copy [] l nbytes cc).obs = (wholly l nbytes).map CopyMode.copy.release ∧
      (recvLoop .copy [] l nbytes cc).nobufs = false := by
  induction l generalizing nbytes cc with
  | nil => simp [recvLoop, wholly]
  | cons m l ih =>
    have hm : 0 < m.mLen := List.length_pos_iff.mpr (hl m List.mem_cons_self)
    have hlen : (bytesOf (m :: l)).length = m.mLen + (bytesOf l).length := by
      rw [bytesOf_cons, List.length_append]
      rfl
    unfold recvLoop wholly
    split
    · rename_i h0
      subst h0
      simp [Nat.not_le.mpr hm]
    dsimp only
    split
    · rename_i heq
      have hle : m.mLen ≤ nbytes := by omega
      have hmin : min nbytes m.mLen = m.mLen := heq
      obtain ⟨h1, h2, h3, h4, h5⟩ := @ih (nbytes - m.mLen) (cc - m.mLen) (by omega)
        fun x hx => hl x (List.mem_cons_of_mem m hx)
      have htake : (bytesOf (m :: l)).take nbytes = m.mData ++ (bytesOf l).take (nbytes - m.mLen) := by
        rw [bytesOf_cons, List.take_append, List.take_of_length_le hle]
        rfl
      rw [hmin, if_pos hle, h1, h2, h3, h4, htake, hlen]
      refine ⟨?_, rfl, by omega, rfl, h5⟩
      rw [List.take_of_length_le (le_refl m.mLen)]
    · rename_i hne
      have hlt : nbytes < m.mLen := by omega
      have hmin : min nbytes m.mLen = nbytes := Nat.min_eq_left (Nat.le_of_lt hlt)
      have htake : (bytesOf (m :: l)).take nbytes = m.mData.take nbytes := by
        rw [bytesOf_cons, List.take_append_of_le_length (Nat.le_of_lt hlt)]
      rw [if_neg (show ¬ CopyMode.copy = .zerocopy false by simp), hmin,
        if_neg (Nat.not_le.mpr hlt), htake, hlen]
      refine ⟨rfl, rfl, ?_, rfl, rfl⟩
      dsimp only
      omega

/-! ## The invariant -/

/-- What a receive buffer promises. -/
structure RcvOk (sb : Sockbuf) (hist : List RecvObs) : Prop where
  cc : sb.sbCc = (bytesOf sb.sbMb).length
  full : Full sb.sbMb
  stream : putIn hist = takenOut hist ++ bytesOf sb.sbMb
  live : RecvMoves [] hist (addrs sb.sbMb)
  once : (addrs sb.sbMb).Nodup
  panics : .sb .panic ∉ hist

/-- A call that puts bytes in at the end or takes bytes out at the front. -/
theorem RcvOk.call (h : RcvOk sb hist) (hcc : sb'.sbCc = (bytesOf sb'.sbMb).length) (hf : Full sb'.sbMb)
    (hbytes : bytesOf sb.sbMb ++ putIn obs = takenOut obs ++ bytesOf sb'.sbMb)
    (hmoves : RecvMoves (addrs sb.sbMb) obs (addrs sb'.sbMb)) (honce : (addrs sb'.sbMb).Nodup)
    (hpanic : .sb .panic ∉ obs) : RcvOk sb' (hist ++ obs) := by
  constructor
  case cc => exact hcc
  case full => exact hf
  case stream =>
    have hp : putIn (hist ++ obs) = putIn hist ++ putIn obs := List.flatMap_append
    have ht : takenOut (hist ++ obs) = takenOut hist ++ takenOut obs := List.flatMap_append
    rw [hp, ht, h.stream, List.append_assoc, hbytes, List.append_assoc]
  case live => exact h.live.trans hmoves
  case once => exact honce
  case panics =>
    rw [List.mem_append, not_or]
    exact ⟨h.panics, hpanic⟩

/-- What `SbOk` says about one call. -/
theorem RcvOk.sbOk (h : RcvOk sb hist) :
    SbOk sb [.passed (addrs sb.sbMb), .appended (bytesOf sb.sbMb)] := by
  refine ⟨h.cc, rfl, ?_, h.once, by simp⟩
  simp [Obs.cameIn, Obs.wentOut]

theorem sbOk_moves {sb sb' : Sockbuf} {obs : List Obs}
    (h : SbOk sb' ([.passed (addrs sb.sbMb), .appended (bytesOf sb.sbMb)] ++ obs)) :
    RecvMoves (addrs sb.sbMb) (obs.map .sb) (addrs sb'.sbMb) := by
  intro x
  have h1 := h.live.count_eq x
  have hin : (obs.map RecvObs.sb).flatMap RecvObs.cameIn = obs.flatMap Obs.cameIn := by
    rw [List.flatMap_map]
    rfl
  have hout : (obs.map RecvObs.sb).flatMap RecvObs.wentOut = obs.flatMap Obs.wentOut := by
    rw [List.flatMap_map]
    rfl
  simp only [List.cons_append, List.nil_append, List.flatMap_cons, Obs.cameIn, Obs.wentOut,
    List.count_append] at h1
  rw [hin, hout]
  omega

theorem compressLoop_full (m : List Mbuf) {sb : Sockbuf} (h : Full sb.sbMb) :
    Full (compressLoop m sb).1.sbMb := by
  induction m generalizing sb with
  | nil => exact h
  | cons mb m ih =>
    have link : mb.mLen ≠ 0 → Full (sb.sbMb ++ [mb]) := by
      intro hne x hx
      rcases List.mem_append.mp hx with hx | hx
      · exact h x hx
      · rw [List.mem_singleton.mp hx]
        intro hc
        exact hne (by unfold Mbuf.mLen; rw [hc]; rfl)
    unfold compressLoop
    split
    · exact ih h
    rename_i hne
    split
    · exact ih (link hne)
    rename_i n _
    split
    · refine ih fun x hx => ?_
      rcases List.mem_append.mp hx with hx | hx
      · exact h x (List.mem_of_mem_dropLast hx)
      · rw [List.mem_singleton.mp hx]
        intro hc
        rw [List.append_eq_nil_iff] at hc
        exact hne (by unfold Mbuf.mLen; rw [hc.2]; rfl)
    · exact ih (link hne)

theorem putIn_moves {obs : List Obs} (h : ∀ o ∈ obs, o.isMove = true) :
    putIn (obs.map .sb) = [] ∧ takenOut (obs.map .sb) = [] := by
  induction obs with
  | nil => exact ⟨rfl, rfl⟩
  | cons o obs ih =>
    have ho := h o List.mem_cons_self
    have ih := ih fun x hx => h x (List.mem_cons_of_mem o hx)
    cases o <;> first | exact ih | cases ho

/-- **`sbappend`.** -/
theorem RcvOk.append (h : RcvOk sb hist)
    (hown : (allocs.filterMap id ++ addrs m ++ addrs sb.sbMb).Nodup) (hhi : HiAlone m allocs) :
    RcvOk (sbappend sb m allocs).1 (hist ++ (sbappend sb m allocs).2.map .sb) := by
  have h1 := h.sbOk.append hown hhi
  have h2 := convertHi_ready hhi
  have h3 := compressLoop_spec (convertHi m allocs).1 sb
  have hmoves : ∀ o ∈ (convertHi m allocs).2 ++ (compressLoop (convertHi m allocs).1 sb).2,
      o.isMove = true := by
    intro o ho
    rcases List.mem_append.mp ho with ho | ho
    · exact h2.only o ho
    · exact h3.only o ho
  have hp := putIn_moves hmoves
  have hin : putIn ((sbappend sb m allocs).2.map .sb) = bytesOf m := by
    have := congrArg (bytesOf m ++ ·) hp.1
    rwa [List.append_nil] at this
  have hout : takenOut ((sbappend sb m allocs).2.map .sb) = [] := hp.2
  refine h.call h1.cc (compressLoop_full _ h.full) ?_ (sbOk_moves h1) h1.once ?_
  · rw [hin, hout, List.nil_append]
    exact (h3.bytes.trans (by rw [h2.bytes])).symm
  · intro hc
    obtain ⟨o, ho, heq⟩ := List.mem_map.mp hc
    cases heq
    exact h1.panics (List.mem_append_right _ ho)

/-- **`sbflush`.** -/
theorem RcvOk.flush (h : RcvOk sb hist) :
    RcvOk (sbflush sb).1 (hist ++ .lost (bytesOf sb.sbMb) :: (sbflush sb).2.map .sb) := by
  obtain ⟨h1, h2⟩ := h.sbOk.flush
  have hpanic : Obs.panic ∉ (sbflush sb).2 := fun hc => h1.panics (List.mem_append_right _ hc)
  have hput : ∀ o ∈ (sbflush sb).2, (RecvObs.sb o).putIn = [] := by
    intro o ho
    obtain ⟨h3, -⟩ := dropLoop_spec sb.sbMb (Nat.le_of_eq h.cc) h.cc
    obtain ⟨h4, -⟩ := dropEmpty_spec (dropLoop sb.sbMb sb.sbCc sb.sbCc).1.sbMb
    have hmove : ∀ o, o.isMove = true → (RecvObs.sb o).putIn = [] := by
      intro o ho
      cases o <;> first | rfl | cases ho
    unfold sbflush sbdrop at ho
    simp only [List.mem_append, List.mem_cons] at ho
    rcases ho with ((rfl | ho) | ho) | ho
    · rfl
    · exact hmove o (h3.only o ho)
    · exact hmove o (h4.only o ho)
    · split at ho
      · rw [List.mem_singleton.mp ho]
        rfl
      · cases ho
  have hin : putIn ((sbflush sb).2.map .sb) = [] := by
    refine List.flatMap_eq_nil_iff.mpr fun o ho => ?_
    obtain ⟨o', ho', rfl⟩ := List.mem_map.mp ho
    exact hput o' ho'
  have hout : takenOut ((sbflush sb).2.map .sb) = [] :=
    List.flatMap_eq_nil_iff.mpr fun o ho => by
      obtain ⟨o, -, rfl⟩ := List.mem_map.mp ho
      rfl
  rw [h2] at h1 ⊢
  refine h.call rfl (by simp [Full]) ?_ ?_ List.nodup_nil ?_
  · show bytesOf sb.sbMb ++ putIn ((sbflush sb).2.map .sb) =
      (bytesOf sb.sbMb ++ takenOut ((sbflush sb).2.map .sb)) ++ []
    rw [hin, hout, List.append_nil, List.append_nil]
  · have hm := sbOk_moves h1
    have h0 : RecvMoves (addrs sb.sbMb) [.lost (bytesOf sb.sbMb)] (addrs sb.sbMb) := by
      intro x
      simp [RecvObs.cameIn, RecvObs.wentOut]
    exact h0.trans hm
  · intro hc
    rcases List.mem_cons.mp hc with hc | hc
    · cases hc
    · obtain ⟨o, ho, heq⟩ := List.mem_map.mp hc
      cases heq
      exact hpanic ho

/-- **`tcp_s_recv`.** -/
theorem RcvOk.recv (h : RcvOk sb hist) (so : SocketTcp) (buf : Bool) (n : Int) (mode : CopyMode) :
    RcvOk (tcpSRecv so sb buf n mode).sb (hist ++ (tcpSRecv so sb buf n mode).obs) := by
  have same : RcvOk sb (hist ++ []) := by rwa [List.append_nil]
  unfold tcpSRecv
  split
  · exact same
  split
  · exact same
  split
  · exact same
  split
  · exact same
  have hr : Looped sb.sbMb (recvLoop mode [] sb.sbMb n.toNat sb.sbCc) := recvLoop_looped h.full h.cc
  dsimp only
  refine h.call hr.cc hr.full ?_ ?_ (hr.kept.nodup h.once) ?_
  · have hin : putIn ((recvLoop mode [] sb.sbMb n.toNat sb.sbCc).obs ++
        [.taken (recvLoop mode [] sb.sbMb n.toNat sb.sbCc).taken]) = [] := by
      refine List.flatMap_eq_nil_iff.mpr fun o ho => ?_
      rcases List.mem_append.mp ho with ho | ho
      · exact (hr.only o ho).1
      · rw [List.mem_singleton.mp ho]
        rfl
    have hout : takenOut (recvLoop mode [] sb.sbMb n.toNat sb.sbCc).obs = [] :=
      List.flatMap_eq_nil_iff.mpr fun o ho => (hr.only o ho).2.1
    rw [hin, List.append_nil, ← hr.bytes]
    unfold takenOut at hout ⊢
    rw [List.flatMap_append, hout]
    simp [RecvObs.gone]
  · have h0 : RecvMoves (addrs (recvLoop mode [] sb.sbMb n.toNat sb.sbCc).sb.sbMb)
        [.taken (recvLoop mode [] sb.sbMb n.toNat sb.sbCc).taken]
        (addrs (recvLoop mode [] sb.sbMb n.toNat sb.sbCc).sb.sbMb) := by
      intro x
      simp [RecvObs.cameIn, RecvObs.wentOut]
    exact hr.moves.trans h0
  · intro hc
    rcases List.mem_append.mp hc with hc | hc
    · exact (hr.only _ hc).2.2 rfl
    · cases List.mem_singleton.mp hc

/-- What the buffer does not own is not in its chain. -/
theorem RcvOk.write (h : RcvOk sb hist) {mb : Nat} (bytes : List UInt8)
    (hown : (hist.flatMap RecvObs.cameIn).count mb ≤ (hist.flatMap RecvObs.wentOut).count mb) :
    sb.sbMb.map (Mbuf.write mb bytes) = sb.sbMb := by
  have h1 := h.live mb
  have h0 : (addrs sb.sbMb).count mb = 0 := by
    rw [List.count_nil] at h1
    omega
  have hnot : ∀ x ∈ sb.sbMb, Mbuf.write mb bytes x = x := by
    intro x hx
    have hne : x.addr ≠ mb := by
      rintro rfl
      exact List.count_eq_zero.mp h0 (List.mem_map_of_mem hx)
    unfold Mbuf.write
    rw [if_neg hne]
  rw [List.map_congr_left hnot, List.map_id']

theorem rcvOk_run (es : List RecvEvent) (p : Sockbuf × List RecvObs)
    (hg : Machine.Guarded (Machine.recorded recvMachine) (fun p ev => RecvOwned p ev ∧ RecvAppends ev)
      (some ({}, [])) es)
    (hs : (Machine.run (Machine.recorded recvMachine) (some ({}, [])) es).1 = some p) :
    RcvOk p.1 p.2 := by
  have hstart : RcvOk {} [] := ⟨rfl, by simp [Full], rfl, .refl [], List.nodup_nil, by simp⟩
  refine (Machine.run_invariant (fun p => RcvOk p.1 p.2) (fun _ => True) ?_ ?_ hg).1 p hs
  · intro q ev h hc
    refine ⟨fun q' hq => ?_, fun _ _ => trivial⟩
    obtain ⟨sb, hist⟩ := q
    cases ev with
    | append m allocs =>
      cases hq
      exact h.append hc.1 hc.2
    | flush =>
      cases hq
      exact h.flush
    | recv so buf n mode =>
      cases hq
      exact h.recv so buf n mode
    | write mb bytes =>
      cases hq
      have hw := h.write bytes hc.1
      show RcvOk { sb with sbMb := sb.sbMb.map (Mbuf.write mb bytes) } (hist ++ [])
      rw [List.append_nil, hw]
      exact h
  · intro p hp
    cases hp
    exact hstart

/-! ## What a call returns -/

/-- What `tcp_s_recv` without `MSG_ZEROCOPY` does on a buffer with data. -/
structure ReadsPrefix (c : Conn) (sb : Sockbuf) (nbytes : Int) (r : RecvCall) : Prop where
  rc : r.rc = some (min nbytes sb.sbCc)
  copied : r.copied = (bytesOf sb.sbMb).take nbytes.toNat
  taken : takenOut r.obs = r.copied
  bytes : bytesOf r.sb.sbMb = (bytesOf sb.sbMb).drop nbytes.toNat
  cc : r.sb.sbCc = (bytesOf r.sb.sbMb).length
  empty : r.sb.sbMb = [] ↔ bytesOf r.sb.sbMb = []
  freed : ∃ k ≤ sb.sbMb.length,
    r.obs = (sb.sbMb.take k).map (fun m => .sb (.free m.addr)) ++ [.taken r.copied] ∧
      ∀ i < sb.sbMb.length, i < k ↔ ((bytesOf (sb.sbMb.take (i + 1))).length : Int) ≤ nbytes
  output : r.output = true
  conn : ∀ env, (TnNet.tcpSRecv nbytes.toNat (some env) c).conn.so.soRcv.sbData = bytesOf r.sb.sbMb

theorem RcvOk.reads (h : RcvOk sb hist) {c : Conn} (hb : bytesOf sb.sbMb = c.so.soRcv.sbData)
    (hd : c.so.soRcv.sbData ≠ []) (hr : Readable c.so) {n : Int} (hn : 0 < n) :
    ReadsPrefix c sb n (tcpSRecv c.so sb true n .copy) := by
  have hne : sb.sbMb ≠ [] := by
    intro hc
    rw [hc, bytesOf_nil] at hb
    exact hd hb.symm
  have hstate : ¬ (¬ c.so.ssCantrcvmore = true ∧ ¬ c.so.ssIsconnected = true ∧
      ¬ c.so.ssIsconnecting = true) := by
    rintro ⟨h1, h2, h3⟩
    rcases hr with h4 | h4 | h4
    · exact h1 h4
    · exact h2 h4
    · exact h3 h4
  obtain ⟨h1, h2, h3, h4, h5⟩ := @recvLoop_copy sb.sbMb n.toNat sb.sbCc h.cc h.full
  have hl : Looped sb.sbMb (recvLoop .copy [] sb.sbMb n.toNat sb.sbCc) := recvLoop_looped h.full h.cc
  have hbytes : bytesOf (recvLoop .copy [] sb.sbMb n.toNat sb.sbCc).sb.sbMb =
      (bytesOf sb.sbMb).drop n.toNat := by
    have hsplit := hl.bytes
    rw [h2] at hsplit
    exact List.append_cancel_left (hsplit.trans (List.take_append_drop n.toNat _).symm)
  unfold tcpSRecv
  rw [if_neg (by simp; omega), if_neg (by simp [hne]), if_neg hstate, if_neg hne]
  dsimp only
  rw [h5, h3, h4, h2]
  constructor
  case rc =>
    have hcc := h.cc
    simp only [Bool.false_eq_true, if_false, Option.some.injEq]
    omega
  case copied => exact h1
  case taken =>
    dsimp only
    rw [h1]
    unfold takenOut
    rw [List.flatMap_append, List.flatMap_eq_nil_iff.mpr]
    · simp [RecvObs.gone]
    · intro o ho
      obtain ⟨m, -, rfl⟩ := List.mem_map.mp ho
      rfl
  case bytes => exact hbytes
  case cc => exact hl.cc
  case empty => exact (bytesOf_eq_nil hl.full).symm
  case freed =>
    obtain ⟨k, hk, heq, hiff⟩ := wholly_eq_take h.full n.toNat
    refine ⟨k, hk, by rw [heq, h1]; rfl, fun i hi => ?_⟩
    have := hiff i hi
    omega
  case output => rfl
  case conn =>
    intro env
    have hguard : ¬ (c.so.soRcv.sbData = [] ∨ (¬ c.so.ssCantrcvmore = true ∧
        ¬ c.so.ssIsconnected = true ∧ ¬ c.so.ssIsconnecting = true)) :=
      fun hor => hor.elim hd hstate
    unfold TnNet.tcpSRecv
    rw [if_neg hguard]
    show (tcpOutput env _).conn.so.soRcv.sbData = _
    rw [(tcpOutput_kept env _).1]
    show c.so.soRcv.sbData.drop n.toNat = _
    rw [← hb, hbytes]

/-- **Reading returns the stream.**  In every run in which a large receive buffer that `sbappend`
    converts comes alone: what was appended is what was read or flushed and what is held, in this
    order; and a read takes the first bytes. -/
theorem recv_prefix {c₀ c : Conn} (hc : Start c₀) {cs : List TnNet.Event}
    (hheld : Machine.Guarded connMachine Held (some c₀) cs)
    (hcs : (Machine.run connMachine (some c₀) cs).1 = some c)
    {es : List RecvEvent} {sb : Sockbuf} {hist : List RecvObs}
    (hg : Machine.Guarded (Machine.recorded recvMachine) (fun p ev => RecvOwned p ev ∧ RecvAppends ev)
      (some ({}, [])) es)
    (hs : (Machine.run (Machine.recorded recvMachine) (some ({}, [])) es).1 = some (sb, hist))
    (hb : bytesOf sb.sbMb = c.so.soRcv.sbData) (hd : c.so.soRcv.sbData ≠ []) {n : Int} (hn : 0 < n) :
    putIn hist = takenOut hist ++ bytesOf sb.sbMb ∧
      ReadsPrefix c sb n (tcpSRecv c.so sb true n .copy) := by
  have h := rcvOk_run es (sb, hist) hg hs
  exact ⟨h.stream, h.reads hb hd (readable_run hc hheld hcs hd) hn⟩

/-- Three bytes arrive on a new connection. -/
def threeBytes : List TnNet.Event :=
  connectEvents 100 ++
    [.input {} (Seg.ofData { thSeq := 101, thAck := 2, thFlags := { ack := true }, thWin := 100 }
      [4, 5, 6] (by decide))]

def threeRun : Option Conn := (Machine.run connMachine (some (activeOpen 1 newSocket)) threeBytes).1

theorem threeRun_isSome : threeRun.isSome = true := by decide +kernel

def threeConn : Conn := threeRun.get threeRun_isSome

instance (p : Sockbuf × List RecvObs) : ∀ ev, Decidable (RecvOwned p ev)
  | .append _ _ => inferInstanceAs (Decidable (List.Nodup _))
  | .flush => .isTrue trivial
  | .recv _ _ _ _ => .isTrue trivial
  | .write _ _ => inferInstanceAs (Decidable (_ ≤ _))

/-- The three bytes in an mbuf. -/
def threeMbuf : Mbuf := ⟨2, true, .MB_MIN, .MB_MIN, 0, [4, 5, 6]⟩

theorem recv_prefix_two_of_three :
    (tcpSRecv threeConn.so ⟨3, [threeMbuf]⟩ true 2 .copy).rc = some 2 ∧
      (tcpSRecv threeConn.so ⟨3, [threeMbuf]⟩ true 2 .copy).copied = [4, 5] := by
  have hd : threeConn.so.soRcv.sbData = [4, 5, 6] := by decide +kernel
  have hheld : Machine.Guarded connMachine Held (some (activeOpen 1 newSocket)) threeBytes := by
    decide +kernel
  have hcs : (Machine.run connMachine (some (activeOpen 1 newSocket)) threeBytes).1 = some threeConn :=
    (Option.some_get threeRun_isSome).symm
  have hg : Machine.Guarded (Machine.recorded recvMachine)
      (fun p ev => RecvOwned p ev ∧ RecvAppends ev) (some ({}, [])) [.append [threeMbuf] []] :=
    ⟨⟨by decide, fun mb rest heq _ hhi _ => by cases heq; cases hhi⟩, trivial⟩
  have hs : (Machine.run (Machine.recorded recvMachine) (some ({}, [])) [.append [threeMbuf] []]).1 =
      some (⟨3, [threeMbuf]⟩, [.sb (.passed [2]), .sb (.appended [4, 5, 6])]) := rfl
  obtain ⟨-, h⟩ := recv_prefix (.active 1 newSocket newSocket_fresh) hheld hcs hg hs
    (by rw [hd]; rfl) (by rw [hd]; simp) (show (0 : Int) < 2 by decide)
  exact ⟨h.rc, h.copied⟩

/-- An mbuf of 64 bytes, which `sbcompress` links. -/
def midMbuf : Mbuf := ⟨2, true, .MB_MID1, .MB_MID1, 0, List.replicate 64 4⟩

/-- A large receive buffer at the head of a chain of two: the second mbuf is freed while the socket
    buffer holds it, another owner gets it and writes it, and the user reads that. -/
def freedRun : List RecvEvent :=
  [.append [hiMbuf, midMbuf] [some 10], .write 2 (List.replicate 64 9),
   .recv threeConn.so true 67 .copy]

theorem read_of_freed_mbuf :
    ¬ ∀ (es : List RecvEvent) (sb : Sockbuf) (hist : List RecvObs),
      Machine.Guarded (Machine.recorded recvMachine) RecvOwned (some ({}, [])) es →
      (Machine.run (Machine.recorded recvMachine) (some ({}, [])) es).1 = some (sb, hist) →
      putIn hist = takenOut hist ++ bytesOf sb.sbMb := by
  intro h
  have hrun : (Machine.run (Machine.recorded recvMachine) (some ({}, [])) freedRun).1.any
      (fun p => decide (putIn p.2 ≠ takenOut p.2 ++ bytesOf p.1.sbMb)) = true := by decide +kernel
  obtain ⟨⟨sb, hist⟩, hs, hne⟩ := (Option.any_eq_true _ _).mp hrun
  exact of_decide_eq_true hne (h freedRun sb hist (by decide +kernel) hs)

end TnNet.Mem
