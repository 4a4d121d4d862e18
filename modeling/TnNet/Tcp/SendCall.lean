import TnNet.Mem.SockbufInv
import TnNet.Tcp.SockRules

/-!
# A call of `tcp_s_send`

`tcp_s_send` of `tn_tcp_sockets.c`, without `MSG_ZEROCOPY` and `MSG_OOB`, and the machine of a socket
with one sending task.  The task tests the socket while it holds the network lock (`sendTest`); without
space it releases the lock and waits on `so_snd.sb_sem`, and tests again.  With space it appends and
sends the data in chunks of 128 bytes, without a further wait, and returns (`sendLoop`).  Between two
steps of the task everything else may happen; `sowWakes` says which events signal the semaphore.

* `sendLoop_stops` — the chunk at which the loop ends, and what it has appended there.
* `send_reports` — the return value is what was appended if and only if no chunk behind the first one
  fails, and `tcp_output` fails with `EINTR` or `EWOULDBLOCK` only.

`tcp_close` frees the socket, also when the user still has its descriptor: `sofree` is called by
`in_pcbdetach` with `so_pcb` set to 0.  What a call does with a freed socket is not said here; `SocketHeld`
is the condition that none does.
-/

set_option autoImplicit false

namespace TnNet

/-! ## The call -/

/-- `buf_to_mbuf`: its loop is that of `m_hi_to_mid1`. -/
def bufToMbuf (buf : List UInt8) (mbGet : List (Option Nat)) : Option (List Mem.Mbuf) :=
  (Mem.hiToMid1Loop mbGet buf []).1

/-- What `mb_get` and the passes of `tcp_output` return for a chunk. -/
structure ChunkEnv where
  mbGet : List (Option Nat) := [some 0]
  out : Nat → SendEnv := fun _ => {}

/-- What the tests of `tcp_s_send` say. -/
inductive SendTest where
  | stop (error : Int)
  | wait
  | go (space : Int)

def sendTest (so : SocketTcp) : SendTest :=
  if so.ssCantsendmore then .stop EPIPE
  else if so.soError ≠ 0 then .stop so.soError
  else if ¬ so.ssIsconnected then .stop ENOTCONN
  else if sbspace so.soSnd ≤ 0 then if so.ssNbio then .stop EWOULDBLOCK else .wait
  else .go (sbspace so.soSnd)

/-- What the loop over the chunks leaves. -/
structure SendOut where
  conn : Conn
  error : Int
  appended : List UInt8 := []
  calls : List OutCall := []

/-- The loop over the chunks; the fuel is `nbytes`. -/
def sendLoop : Nat → (Nat → ChunkEnv) → List UInt8 → Int → Conn → SendOut
  | 0, _, _, _, c => { conn := c, error := EINVAL }
  | fuel + 1, env, buf, space, c =>
    let len := min 128 buf.length
    match bufToMbuf (buf.take len) (env 0).mbGet with
    | none => { conn := c, error := ENOBUFS }
    | some mb =>
      let c := appendConn c (Mem.bytesOf mb)
      let r := tcpOutput (env 0).out c
      if r.err ≠ 0 ∨ buf.length - len = 0 ∨ space - len ≤ 0 then
        { conn := r.conn, error := r.err, appended := Mem.bytesOf mb, calls := [⟨(env 0).out, c⟩] }
      else
        let o := sendLoop fuel (fun i => env (i + 1)) (buf.drop len) (space - len) r.conn
        { o with appended := Mem.bytesOf mb ++ o.appended, calls := ⟨(env 0).out, c⟩ :: o.calls }

/-- The return value: `left` of the `nbytes` bytes have not been appended. -/
def sendReturn (nbytes left : Nat) (error : Int) : Int :=
  let error :=
    if error ≠ 0 ∧ nbytes ≠ left ∧ (error = EINTR ∨ error = EWOULDBLOCK) then 0 else error
  if error = 0 then (nbytes : Int) - left else -error

/-- What a call leaves. -/
structure SendDone where
  rc : Int
  conn : Conn
  appended : List UInt8 := []
  calls : List OutCall := []

/-- `tcp_s_send` from the lock to its release: the call returns, or it is going to wait. -/
def sendTurn (env : Nat → ChunkEnv) (buf : List UInt8) (c : Conn) : Option SendDone :=
  match sendTest c.so with
  | .stop error => some { rc := sendReturn buf.length buf.length error, conn := c }
  | .wait => none
  | .go space =>
    let o := sendLoop buf.length env buf space c
    some { rc := sendReturn buf.length (buf.length - o.appended.length) o.error
           conn := o.conn, appended := o.appended, calls := o.calls }

/-! ## Signals -/

/-- `sowwakeup` behind an ACK: for the sender, and in `soisdisconnected`. -/
def ackWakes (x : InSt) : Bool :=
  acksNew x &&
    match x.tp.tState with
    | .established => decide (0 < ackAcked x)
    | .finWait1 => ourfinisacked x && x.so.ssCantrcvmore
    | .closing => ourfinisacked x
    | _ => false

/-- `sowwakeup` in front of `step6`; `queued` tells whether `soisconnected` finds the socket in `so_q0`
    of its head. -/
def headWakes (queued : Bool) (e : InEnv) (s : Seg) (c : Conn) : Bool :=
  match (inputSetup e s c).tp.tState with
  | .listen => false
  | .synSent =>
    match inputSynSent e (inputSetup e s c) with
    | .ok x => decide (x.tp.tState = .established) && !queued
    | .error _ => false
  | _ =>
    match inputChecks e (inputSetup e s c) with
    | .error _ => false
    | .ok x =>
      match ackSynReceived x with
      | .error _ => false
      | .ok y => (decide (x.tp.tState = .synReceived) && !queued) || ackWakes y

/-- `sowwakeup` from `step6` on: the FIN that ends `FIN_WAIT_2`. -/
def tailWakes (e : InEnv) (x : InSt) : Bool :=
  (doData e (step6 x)).2 && decide ((doData e (step6 x)).1.tp.tState = .finWait2)

/-- `sowwakeup` in `tcp_input`, while the connection goes on. -/
def inputWakes (queued : Bool) (e : InEnv) (s : Seg) (c : Conn) : Bool :=
  decide (c.tp.tState ≠ .closed) &&
    (headWakes queued e s c ||
      match inputHead e s (inputSetup e s c) with
      | .ok x => tailWakes e x
      | .error _ => false)

/-- Does the event signal `so_snd.sb_sem`?  `tcp_close` does, in `soisdisconnected`. -/
def sowWakes (queued : Bool) (c : Conn) (ev : Event) : Bool :=
  (connStep c ev).gone ||
    match ev with
    | .input e s => inputWakes queued e s c
    | .shutdown _ wr _ => decide (c.tp.tState ≠ .listen) && wr
    | .disconnect _ =>
      decide (c.tp.tState ≠ .listen) && c.so.ssIsconnected && !c.so.ssIsdisconnecting
    | .detach _ => decide (c.tp.tState ≠ .listen)
    | _ => false

/-! ## The machine -/

/-- Where the sending task is: outside `tcp_s_send`, in front of the lock, behind the release of the
    lock, waiting. -/
inductive Pc where
  | idle
  | ready (buf : List UInt8)
  | released (buf : List UInt8)
  | blocked (buf : List UInt8)
  deriving DecidableEq

/-- A socket with its connection, the count of `so_snd.sb_sem` and the sending task.  Behind `tcp_close`
    there is no connection, the socket is free, and `conn` is what was in it then. -/
structure SendSock where
  conn : Conn
  pcb : Bool := true
  sem : Bool := true
  pc : Pc := .idle

/-- A step of the task, or anything else. -/
inductive SendEvent where
  | other (ev : Event) (queued : Bool)
  | call (buf : List UInt8)
  | turn (env : Nat → ChunkEnv)
  | wait

/-- What is seen: what a call was given, has returned and has appended. -/
structure SendObs where
  buf : List UInt8
  rc : Int
  appended : List UInt8

/-- `tn_net_wakeup` of `so_snd.sb_sem`. -/
def SendSock.wakeup (s : SendSock) : SendSock :=
  match s.pc with
  | .blocked buf => { s with pc := .ready buf }
  | _ => { s with sem := true }

/-- The socket behind an event that is not of the task; one that is free has no more events. -/
def SendSock.other (s : SendSock) (ev : Event) (queued : Bool) : SendSock :=
  if s.pcb then
    let r := connStep s.conn ev
    let s1 := { s with conn := r.conn, pcb := !r.gone }
    if sowWakes queued s.conn ev then s1.wakeup else s1
  else s

def sendMachine : Machine.Step SendSock SendEvent SendObs := fun s ev =>
  match ev with
  | .other ev queued => (some (s.other ev queued), [])
  | .call buf => (some (if s.pc = .idle ∧ buf ≠ [] then { s with pc := .ready buf } else s), [])
  | .turn env =>
    match s.pc with
    | .ready buf =>
      match sendTurn env buf s.conn with
      | some d => (some { s with conn := d.conn, pc := .idle }, [⟨buf, d.rc, d.appended⟩])
      | none => (some { s with pc := .released buf }, [])
    | _ => (some s, [])
  | .wait =>
    match s.pc with
    | .released buf =>
      (some (if s.sem then { s with sem := false, pc := .ready buf } else { s with pc := .blocked buf }),
        [])
    | _ => (some s, [])

/-! ## The chunks -/

variable {env : Nat → ChunkEnv} {buf : List UInt8} {space : Int} {c : Conn} {k : Nat}

/-- The chunk with number `k`. -/
def chunk (buf : List UInt8) (k : Nat) : List UInt8 := (buf.drop (128 * k)).take 128

/-- The connection in front of chunk `k`, when the chunks in front of it have been sent. -/
def chunkConn (env : Nat → ChunkEnv) (buf : List UInt8) (c : Conn) : Nat → Conn
  | 0 => c
  | k + 1 => (tcpOutput (env k).out (appendConn (chunkConn env buf c k) (chunk buf k))).conn

/-- What `tcp_output` returns behind chunk `k`. -/
def chunkErr (env : Nat → ChunkEnv) (buf : List UInt8) (c : Conn) (k : Nat) : Int :=
  (tcpOutput (env k).out (appendConn (chunkConn env buf c k) (chunk buf k))).err

/-- There are buffers for chunk `k`. -/
def chunkMbuf (env : Nat → ChunkEnv) (buf : List UInt8) (k : Nat) : Bool :=
  (bufToMbuf (chunk buf k) (env k).mbGet).isSome

/-- There are data and space for chunk `k`, and the chunks in front of it have been sent. -/
structure Begun (env : Nat → ChunkEnv) (buf : List UInt8) (space : Int) (c : Conn) (k : Nat) :
    Prop where
  data : 128 * k < buf.length
  room : (128 * k : Int) < space
  before : ∀ j < k, chunkMbuf env buf j = true ∧ chunkErr env buf c j = 0

theorem bufToMbuf_bytes {mbGet : List (Option Nat)} {mb : List Mem.Mbuf}
    (h : bufToMbuf buf mbGet = some mb) : Mem.bytesOf mb = buf := by
  obtain ⟨-, hcase⟩ := Mem.hiToMid1Loop_spec mbGet buf []
  unfold bufToMbuf at h
  rcases hcase with ⟨new, hnew⟩ | ⟨hnone, -⟩
  · have hres := hnew.result
    rw [h, List.nil_append, Option.some.injEq] at hres
    rw [hres]
    exact hnew.bytes
  · rw [hnone] at h
    cases h

theorem chunk_succ (buf : List UInt8) (k : Nat) : chunk (buf.drop 128) k = chunk buf (k + 1) := by
  unfold chunk
  rw [List.drop_drop]
  congr 2
  omega

/-- The chunks behind the first one. -/
theorem chunkConn_succ (env : Nat → ChunkEnv) (buf : List UInt8) (c : Conn) (k : Nat) :
    chunkConn (fun i => env (i + 1)) (buf.drop 128) (chunkConn env buf c 1) k =
      chunkConn env buf c (k + 1) := by
  induction k with
  | zero => rfl
  | succ k ih =>
    rw [chunkConn, ih, chunk_succ]
    rfl

theorem chunkErr_succ (env : Nat → ChunkEnv) (buf : List UInt8) (c : Conn) (k : Nat) :
    chunkErr (fun i => env (i + 1)) (buf.drop 128) (chunkConn env buf c 1) k =
      chunkErr env buf c (k + 1) := by
  unfold chunkErr
  rw [chunkConn_succ, chunk_succ]

theorem chunkMbuf_succ (env : Nat → ChunkEnv) (buf : List UInt8) (k : Nat) :
    chunkMbuf (fun i => env (i + 1)) (buf.drop 128) k = chunkMbuf env buf (k + 1) := by
  unfold chunkMbuf
  rw [chunk_succ]

/-- A chunk that begins behind the first one. -/
theorem Begun.succ (h : Begun (fun i => env (i + 1)) (buf.drop 128) (space - 128)
    (chunkConn env buf c 1) k) (hm : chunkMbuf env buf 0 = true) (he : chunkErr env buf c 0 = 0) :
    Begun env buf space c (k + 1) := by
  have h1 := h.data
  have h2 := h.room
  rw [List.length_drop] at h1
  refine ⟨by omega, by push_cast; omega, fun j hj => ?_⟩
  cases j with
  | zero => exact ⟨hm, he⟩
  | succ j =>
    have := h.before j (Nat.lt_of_succ_lt_succ hj)
    rwa [chunkMbuf_succ, chunkErr_succ] at this

/-- How the loop ends at chunk `k`: without a buffer for it, or behind its `tcp_output`. -/
inductive Stops (env : Nat → ChunkEnv) (buf : List UInt8) (space : Int) (c : Conn) (k : Nat)
    (o : SendOut) : Prop where
  | nobufs (hm : chunkMbuf env buf k = false) (he : o.error = ENOBUFS)
      (ha : o.appended = buf.take (128 * k))
  | sent (hm : chunkMbuf env buf k = true) (he : o.error = chunkErr env buf c k)
      (ha : o.appended = buf.take (128 * (k + 1)))
      (hlast : chunkErr env buf c k ≠ 0 ∨ buf.length ≤ 128 * (k + 1) ∨ space ≤ 128 * (k + 1))

/-- **The loop over the chunks.** -/
theorem sendLoop_stops {fuel : Nat} (hfuel : buf.length ≤ fuel) (hbuf : 0 < buf.length)
    (hspace : 0 < space) : ∃ k, Begun env buf space c k ∧
      Stops env buf space c k (sendLoop fuel env buf space c) := by
  induction fuel generalizing env buf space c with
  | zero => omega
  | succ fuel ih =>
    have hbegun : Begun env buf space c 0 :=
      ⟨by omega, by simpa using hspace, fun j hj => absurd hj (Nat.not_lt_zero j)⟩
    have htake : buf.take (min 128 buf.length) = chunk buf 0 := by
      unfold chunk
      rw [Nat.mul_zero, List.drop_zero, List.take_eq_take_iff]
      omega
    unfold sendLoop
    dsimp only
    rw [htake]
    split
    · rename_i hm
      exact ⟨0, hbegun, .nobufs (by unfold chunkMbuf; rw [hm]; rfl) rfl (by simp)⟩
    rename_i mb hmb
    have hm : chunkMbuf env buf 0 = true := by
      unfold chunkMbuf
      rw [hmb]
      rfl
    have hbytes := bufToMbuf_bytes hmb
    rw [hbytes]
    split
    · rename_i hlast
      refine ⟨0, hbegun, .sent hm rfl ?_ ?_⟩
      · simp [chunk]
      · rcases hlast with h | h | h
        · exact .inl h
        · exact .inr (.inl (by omega))
        · exact .inr (.inr (by omega))
    · rename_i hmore
      simp only [not_or, not_not] at hmore
      obtain ⟨herr, hleft, hroom⟩ := hmore
      have hlen : min 128 buf.length = 128 := by omega
      rw [hlen] at hroom ⊢
      have hrest : (buf.drop 128).length = buf.length - 128 := List.length_drop
      obtain ⟨k, hk, hstop⟩ := @ih (fun i => env (i + 1)) (buf.drop 128) (space - 128)
        (chunkConn env buf c 1) (by omega) (by omega) (by omega)
      have happ : ∀ n, chunk buf 0 ++ (buf.drop 128).take (128 * n) = buf.take (128 * (n + 1)) := by
        intro n
        have h0 : chunk buf 0 = buf.take 128 := by simp [chunk]
        rw [h0, show 128 * (n + 1) = 128 + 128 * n by omega, List.take_add]
      refine ⟨k + 1, hk.succ hm herr, ?_⟩
      cases hstop with
      | nobufs hm' he ha =>
        refine .nobufs (by rwa [chunkMbuf_succ] at hm') he ?_
        exact (congrArg (chunk buf 0 ++ ·) ha).trans (happ k)
      | sent hm' he ha hlast =>
        rw [chunkErr_succ] at he hlast
        refine .sent (by rwa [chunkMbuf_succ] at hm') he ?_ ?_
        · exact (congrArg (chunk buf 0 ++ ·) ha).trans (happ (k + 1))
        · rw [List.length_drop] at hlast
          push_cast at hlast ⊢
          omega

/-! ## What a call reports -/

/-- A return value that is not negative counts the bytes that were appended, the first ones of `buf`;
    with a negative one nothing was. -/
def Reports (buf : List UInt8) (rc : Int) (appended : List UInt8) : Prop :=
  if 0 ≤ rc then rc ≤ buf.length ∧ appended = buf.take rc.toNat else appended = []

/-- A chunk whose failure is reported: the first one without a buffer, or `tcp_output` returns
    `EINTR`, `EWOULDBLOCK` or, by chance, the negative of what has been appended. -/
def ChunkReported (env : Nat → ChunkEnv) (buf : List UInt8) (c : Conn) (k : Nat) : Prop :=
  if chunkMbuf env buf k then
    chunkErr env buf c k = 0 ∨ chunkErr env buf c k = EINTR ∨ chunkErr env buf c k = EWOULDBLOCK ∨
      chunkErr env buf c k = -(min (128 * (k + 1)) buf.length : Nat)
  else k = 0

/-- Every chunk the call comes to is sent, or its failure is reported. -/
def SendReported (env : Nat → ChunkEnv) (buf : List UInt8) (c : Conn) : Prop :=
  ∀ space, sendTest c.so = .go space → ∀ k, Begun env buf space c k → ChunkReported env buf c k

/-- The chunks in front of the last one are sent, and there is none behind it. -/
theorem Stops.reported_iff {o : SendOut} (hk : Begun env buf space c k)
    (h : Stops env buf space c k o) :
    (∀ j, Begun env buf space c j → ChunkReported env buf c j) ↔ ChunkReported env buf c k := by
  refine ⟨fun hall => hall k hk, fun hrep j hj => ?_⟩
  rcases Nat.lt_trichotomy j k with hlt | rfl | hgt
  · obtain ⟨h1, h2⟩ := hk.before j hlt
    unfold ChunkReported
    rw [if_pos h1]
    exact .inl h2
  · exact hrep
  · obtain ⟨h1, h2⟩ := hj.before k hgt
    have h3 := hj.data
    have h4 := hj.room
    cases h with
    | nobufs hm he ha =>
      rw [hm] at h1
      cases h1
    | sent hm he ha hlast =>
      rcases hlast with h5 | h5 | h5
      · exact absurd h2 h5
      · omega
      · have : (128 * (k + 1) : Int) ≤ 128 * j := by exact_mod_cast Nat.mul_le_mul_left 128 hgt
        omega

/-- `tcp_s_send` behind at least one byte: the count, or the negated error. -/
theorem sendReturn_behind {len n : Nat} {err : Int} (hpos : 0 < n) (hle : n ≤ len) :
    sendReturn len (len - n) err =
      if err = 0 ∨ err = EINTR ∨ err = EWOULDBLOCK then (n : Int) else -err := by
  unfold sendReturn
  dsimp only
  by_cases hz : err = 0 ∨ err = EINTR ∨ err = EWOULDBLOCK
  · have herr : (if err ≠ 0 ∧ len ≠ len - n ∧ (err = EINTR ∨ err = EWOULDBLOCK) then 0 else err) =
        0 := by
      rcases hz with rfl | hz
      · simp
      · have hne : err ≠ 0 := by rcases hz with rfl | rfl <;> decide
        rw [if_pos ⟨hne, by omega, hz⟩]
    rw [herr, if_pos rfl, if_pos hz]
    omega
  · have hz' := hz
    simp only [not_or] at hz'
    obtain ⟨h0, h1, h2⟩ := hz'
    have herr : (if err ≠ 0 ∧ len ≠ len - n ∧ (err = EINTR ∨ err = EWOULDBLOCK) then 0 else err) =
        err := if_neg (by simp [h1, h2])
    rw [herr, if_neg h0, if_neg hz]

/-- A negated error behind at least one byte reports that byte only by chance. -/
theorem reports_neg_iff {appended : List UInt8} {err : Int} (hpos : 0 < appended.length)
    (htake : appended = buf.take appended.length) :
    Reports buf (-err) appended ↔ err = -(appended.length : Int) := by
  have hlen := congrArg List.length htake
  rw [List.length_take] at hlen
  unfold Reports
  split
  · constructor
    · rintro ⟨hle, happ⟩
      have hlen' := congrArg List.length happ
      rw [List.length_take] at hlen'
      omega
    · intro heq
      have hrc : (-err).toNat = appended.length := by omega
      rw [hrc]
      exact ⟨by omega, htake⟩
  · refine iff_of_false (fun hnil => ?_) (by omega)
    rw [hnil] at hpos
    exact absurd hpos (Nat.lt_irrefl 0)

theorem Stops.reports_iff {o : SendOut} (hk : Begun env buf space c k)
    (h : Stops env buf space c k o) :
    Reports buf (sendReturn buf.length (buf.length - o.appended.length) o.error) o.appended ↔
      ChunkReported env buf c k := by
  have hdata := hk.data
  cases h with
  | nobufs hm he ha =>
    have hn : o.appended.length = 128 * k := by rw [ha, List.length_take]; omega
    have hrc : sendReturn buf.length (buf.length - o.appended.length) o.error = -55 := by
      unfold sendReturn
      rw [he]
      simp [ENOBUFS, EINTR, EWOULDBLOCK]
    have hnil : o.appended = [] ↔ k = 0 := by
      rw [← List.length_eq_zero_iff, hn]
      omega
    unfold Reports ChunkReported
    rw [hrc, if_neg (by decide), hm, hnil]
    simp
  | sent hm he ha _ =>
    have hn : o.appended.length = min (128 * (k + 1)) buf.length := by rw [ha, List.length_take]
    have hpos : 0 < o.appended.length := by omega
    have htake : o.appended = buf.take o.appended.length := by
      conv_lhs => rw [ha]
      rw [hn, List.take_eq_take_iff]
      omega
    unfold ChunkReported
    rw [if_pos hm, ← he, ← hn, sendReturn_behind hpos (by omega)]
    split
    · -- the count
      rename_i hz
      unfold Reports
      rw [if_pos (by omega), Int.toNat_natCast]
      refine iff_of_true ⟨by omega, htake⟩ ?_
      rcases hz with h | h | h
      · exact .inl h
      · exact .inr (.inl h)
      · exact .inr (.inr (.inl h))
    · rename_i hz
      simp only [not_or] at hz
      obtain ⟨h0, h1, h2⟩ := hz
      rw [reports_neg_iff hpos htake]
      simp only [h0, h1, h2, false_or]

/-- **A call behind its tests.** -/
theorem sendTurn_reports {d : SendDone} (hbuf : 0 < buf.length) (herr : c.so.soError = 0)
    (hd : sendTurn env buf c = some d) :
    Reports buf d.rc d.appended ↔ SendReported env buf c := by
  unfold sendTurn at hd
  unfold SendReported
  split at hd
  · rename_i error hstop
    cases hd
    have hpos : 0 < error := by
      unfold sendTest at hstop
      split at hstop
      · cases hstop
        decide
      split at hstop
      · rename_i hne
        exact absurd herr hne
      split at hstop
      · cases hstop
        decide
      split at hstop
      · split at hstop
        · cases hstop
          decide
        · cases hstop
      · cases hstop
    have hrc : sendReturn buf.length buf.length error = -error := by
      unfold sendReturn
      simp only [ne_eq, not_true_eq_false, false_and, and_false, if_false]
      rw [if_neg (by omega)]
    refine iff_of_true ?_ ?_
    · unfold Reports
      dsimp only
      rw [hrc, if_neg (by omega)]
    · intro space hgo
      rw [hstop] at hgo
      cases hgo
  · cases hd
  · rename_i space hgo
    cases hd
    have hspace : 0 < space := by
      unfold sendTest at hgo
      repeat' split at hgo
      all_goals first | cases hgo
      omega
    obtain ⟨k, hk, hstop⟩ : ∃ k, Begun env buf space c k ∧
        Stops env buf space c k (sendLoop buf.length env buf space c) :=
      sendLoop_stops (le_refl _) hbuf hspace
    refine (hstop.reports_iff hk).trans ((hstop.reported_iff hk).symm.trans ?_)
    constructor
    · intro h space' hgo'
      rw [hgo] at hgo'
      cases hgo'
      exact h
    · intro h
      exact h space hgo

/-! ## Runs -/

/-- The socket with more data in its send buffer. -/
def SocketTcp.append (so : SocketTcp) (bytes : List UInt8) : SocketTcp :=
  { so with soSnd := sbappend so.soSnd [{ mData := bytes }] }

theorem SocketTcp.append_nil (so : SocketTcp) : so.append [] = so := by
  simp [SocketTcp.append, sbappend, chainBytes]

theorem SocketTcp.append_append (so : SocketTcp) (a b : List UInt8) :
    (so.append a).append b = so.append (a ++ b) := by
  simp [SocketTcp.append, sbappend, chainBytes]

/-- **What the loop does to the socket.** -/
theorem sendLoop_so (fuel : Nat) (env : Nat → ChunkEnv) (buf : List UInt8) (space : Int) (c : Conn) :
    (sendLoop fuel env buf space c).conn.so =
      c.so.append (sendLoop fuel env buf space c).appended := by
  induction fuel generalizing env buf space c with
  | zero => exact c.so.append_nil.symm
  | succ fuel ih =>
    unfold sendLoop
    dsimp only
    split
    · exact c.so.append_nil.symm
    rename_i mb _
    have hso := (tcpOutput_kept (env 0).out (appendConn c (Mem.bytesOf mb))).1
    split
    · exact hso
    · dsimp only
      rw [ih, hso]
      exact c.so.append_append _ _

theorem sendTurn_so {d : SendDone} (hd : sendTurn env buf c = some d) :
    d.conn.so = c.so.append d.appended := by
  unfold sendTurn at hd
  split at hd
  · cases hd
    exact c.so.append_nil.symm
  · cases hd
  · cases hd
    exact sendLoop_so _ _ _ _ _

theorem tcpOutput_tState (env : Nat → SendEnv) (c : Conn) :
    (tcpOutput env c).conn.tp.tState = c.tp.tState :=
  field_of_kept Tcpcb.tState (tcpOutput_kept env c).2 fun _ => rfl

theorem sendLoop_tState (fuel : Nat) (env : Nat → ChunkEnv) (buf : List UInt8) (space : Int)
    (c : Conn) : (sendLoop fuel env buf space c).conn.tp.tState = c.tp.tState := by
  induction fuel generalizing env buf space c with
  | zero => rfl
  | succ fuel ih =>
    unfold sendLoop
    dsimp only
    split
    · rfl
    · split
      · exact tcpOutput_tState _ _
      · exact (ih _ _ _ _).trans (tcpOutput_tState _ _)

theorem sendTurn_tState {d : SendDone} (hd : sendTurn env buf c = some d) :
    d.conn.tp.tState = c.tp.tState := by
  unfold sendTurn at hd
  split at hd
  · cases hd
    rfl
  · cases hd
  · cases hd
    exact sendLoop_tState _ _ _ _ _

/-- The data of the call the task is in. -/
def Pc.pending : Pc → Option (List UInt8)
  | .idle => none
  | .ready buf => some buf
  | .released buf => some buf
  | .blocked buf => some buf

/-- No error while there is a connection, no sending without one, and no empty call. -/
structure SendOk (s : SendSock) : Prop where
  error : s.pcb = true → s.conn.so.soError = 0
  shut : s.pcb = false → s.conn.so.ssCantsendmore = true
  data : ∀ buf, s.pc.pending = some buf → buf ≠ []

theorem noError_inv : SockInv (fun _ _ _ => True) (fun _ => True) (fun _ so => so.soError = 0) := by
  constructor <;> intros <;> trivial

theorem SendSock.wakeup_conn (s : SendSock) : s.wakeup.conn = s.conn ∧ s.wakeup.pcb = s.pcb ∧
    s.wakeup.pc.pending = s.pc.pending := by
  unfold SendSock.wakeup
  split
  · rename_i h
    rw [h]
    exact ⟨rfl, rfl, rfl⟩
  · exact ⟨rfl, rfl, rfl⟩

/-- The connection and the task behind an event that is not of the task. -/
theorem SendSock.other_conn (s : SendSock) (ev : Event) (queued : Bool) (hp : s.pcb = true) :
    (s.other ev queued).conn = (connStep s.conn ev).conn ∧
      (s.other ev queued).pcb = !(connStep s.conn ev).gone ∧
        (s.other ev queued).pc.pending = s.pc.pending := by
  unfold SendSock.other
  rw [if_pos hp]
  dsimp only
  split
  · exact SendSock.wakeup_conn _
  · exact ⟨rfl, rfl, rfl⟩

theorem SendOk.other {s : SendSock} (h : SendOk s) (ev : Event) (queued : Bool) :
    SendOk (s.other ev queued) := by
  by_cases hp : s.pcb = true
  · obtain ⟨h1, h2, h3⟩ := s.other_conn ev queued hp
    have hst : (connStep s.conn ev).Sock fun _ so => so.soError = 0 :=
      connStep_sock noError_inv (h.error hp) (fun _ _ _ _ _ => trivial)
        (fun _ _ _ _ _ _ => trivial) (fun _ _ _ _ _ he => he) (fun _ _ => h.error hp)
    refine ⟨fun hg => ?_, fun hg => ?_, fun buf hb => h.data buf (h3.symm.trans hb)⟩
    · rw [h1]
      exact hst.conn (by rw [h2] at hg; simpa using hg)
    · rw [h1]
      exact hst.shut (by rw [h2] at hg; simpa using hg)
  · have he : s.other ev queued = s := by
      unfold SendSock.other
      rw [if_neg hp]
    rw [he]
    exact h

theorem SendOk.step {s s' : SendSock} {ev : SendEvent} (h : SendOk s)
    (hs : (sendMachine s ev).1 = some s') : SendOk s' := by
  cases ev with
  | other ev queued =>
    cases hs
    exact h.other ev queued
  | call buf =>
    simp only [sendMachine, Option.some.injEq] at hs
    split at hs
    · rename_i hb
      rw [← hs]
      refine ⟨h.error, h.shut, fun buf' hb' => ?_⟩
      cases hb'
      exact hb.2
    · rw [← hs]
      exact h
  | turn env =>
    unfold sendMachine at hs
    dsimp only at hs
    split at hs
    · rename_i buf hpc
      split at hs
      · rename_i d hd
        cases hs
        have hso := sendTurn_so hd
        refine ⟨fun hp => ?_, fun hp => ?_, fun buf' hb' => by cases hb'⟩
        · dsimp only
          rw [hso]
          exact h.error hp
        · dsimp only
          rw [hso]
          exact h.shut hp
      · cases hs
        exact ⟨h.error, h.shut, fun buf' hb' => h.data buf' (by rw [hpc]; exact hb')⟩
    · cases hs
      exact h
  | wait =>
    unfold sendMachine at hs
    dsimp only at hs
    split at hs
    · rename_i buf hpc
      have hbuf := h.data buf (by rw [hpc]; rfl)
      cases hs
      split
      · exact ⟨h.error, h.shut, fun buf' hb' => by cases hb'; exact hbuf⟩
      · exact ⟨h.error, h.shut, fun buf' hb' => by cases hb'; exact hbuf⟩
    · cases hs
      exact h

theorem sendOk_run {c₀ : Conn} (hc : c₀.so.soError = 0) {es : List SendEvent} {s : SendSock}
    (hs : (Machine.run sendMachine (some { conn := c₀ }) es).1 = some s) : SendOk s := by
  refine (Machine.run_invariant SendOk (fun _ => True) ?_ ?_
    (Machine.guarded_true sendMachine (some { conn := c₀ }) es)).1 s hs
  · exact fun s ev h _ => ⟨fun s' hs' => h.step hs', fun _ _ => trivial⟩
  · intro s' hs'
    cases hs'
    exact ⟨fun _ => hc, fun hp => (by cases hp), fun buf hb => (by cases hb)⟩

/-- The task has its socket: it calls `tcp_s_send` only while `tcp_close` has not freed the socket, and
    `tcp_close` does not come during a call. -/
def SocketHeld (s : SendSock) : SendEvent → Prop
  | .other ev _ => s.pcb = true → (connStep s.conn ev).gone = true → s.pc = .idle
  | .call _ => s.pcb = true
  | _ => True

instance (s : SendSock) : ∀ ev, Decidable (SocketHeld s ev)
  | .other ev _ =>
    inferInstanceAs (Decidable (s.pcb = true → (connStep s.conn ev).gone = true → s.pc = .idle))
  | .call _ => inferInstanceAs (Decidable (s.pcb = true))
  | .turn _ => .isTrue trivial
  | .wait => .isTrue trivial

/-- A call in progress has its socket. -/
def CallHeld (s : SendSock) : Prop := s.pc.pending ≠ none → s.pcb = true

theorem CallHeld.step {s s' : SendSock} {ev : SendEvent} (h : CallHeld s) (hh : SocketHeld s ev)
    (hs : (sendMachine s ev).1 = some s') : CallHeld s' := by
  cases ev with
  | other ev queued =>
    cases hs
    intro hne
    by_cases hp : s.pcb = true
    · obtain ⟨-, h2, h3⟩ := s.other_conn ev queued hp
      rw [h3] at hne
      rw [h2]
      cases hg : (connStep s.conn ev).gone with
      | false => rfl
      | true =>
        rw [hh hp hg] at hne
        exact absurd rfl hne
    · have he : s.other ev queued = s := by
        unfold SendSock.other
        rw [if_neg hp]
      rw [he] at hne ⊢
      exact h hne
  | call buf =>
    simp only [sendMachine, Option.some.injEq] at hs
    intro _
    rw [← hs]
    split <;> exact hh
  | turn env =>
    unfold sendMachine at hs
    dsimp only at hs
    split at hs
    · rename_i buf hpc
      have hp := h (by rw [hpc]; simp [Pc.pending])
      split at hs
      · cases hs
        exact fun _ => hp
      · cases hs
        exact fun _ => hp
    · cases hs
      exact h
  | wait =>
    unfold sendMachine at hs
    dsimp only at hs
    split at hs
    · rename_i buf hpc
      have hp := h (by rw [hpc]; simp [Pc.pending])
      cases hs
      split <;> exact fun _ => hp
    · cases hs
      exact h

/-- **`tcp_s_send` reports what it has queued**, in every state of every run in which the socket of a call
    is not freed, if and only if the failures on its way are reported. -/
theorem send_reports {c₀ : Conn} (hc : c₀.so.soError = 0) {es : List SendEvent} {s : SendSock}
    (hg : Machine.Guarded sendMachine SocketHeld (some { conn := c₀ }) es)
    (hs : (Machine.run sendMachine (some { conn := c₀ }) es).1 = some s) {buf : List UInt8}
    (hpc : s.pc = .ready buf) {env : Nat → ChunkEnv} {d : SendDone}
    (hd : sendTurn env buf s.conn = some d) :
    d.conn.so.soSnd.sbData = s.conn.so.soSnd.sbData ++ d.appended ∧
      (Reports buf d.rc d.appended ↔ SendReported env buf s.conn) := by
  have h := sendOk_run hc hs
  have hheld : CallHeld s := by
    refine (Machine.run_invariant CallHeld (fun _ => True) ?_ ?_ hg).1 s hs
    · exact fun s ev h hev => ⟨fun s' hs' => h.step hev hs', fun _ _ => trivial⟩
    · intro s' hs'
      cases hs'
      exact fun _ => rfl
  have hpend : s.pc.pending = some buf := by rw [hpc]; rfl
  have hbuf : 0 < buf.length := List.length_pos_iff.mpr (h.data buf hpend)
  refine ⟨?_, sendTurn_reports hbuf (h.error (hheld (by rw [hpend]; simp))) hd⟩
  rw [sendTurn_so hd]
  simp [SocketTcp.append, sbappend, chainBytes]

instance (buf : List UInt8) (rc : Int) (appended : List UInt8) : Decidable (Reports buf rc appended) :=
  inferInstanceAs (Decidable (if 0 ≤ rc then rc ≤ buf.length ∧ appended = buf.take rc.toNat
    else appended = []))

/-- A connection is opened, and the task calls `tcp_s_send`. -/
def callEvents (buf : List UInt8) : List SendEvent :=
  (connectEvents 100).map (.other · false) ++ [.call buf]

def callRun (buf : List UInt8) : Option SendSock :=
  (Machine.run sendMachine (some { conn := activeOpen 1 newSocket }) (callEvents buf)).1

theorem callRun_isSome : (callRun [1, 2, 3]).isSome = true := by decide +kernel

def callSock : SendSock := (callRun [1, 2, 3]).get callRun_isSome

theorem callTurn_isSome : (sendTurn (fun _ => {}) [1, 2, 3] callSock.conn).isSome = true := by
  decide +kernel

theorem send_reports_three_bytes :
    SendReported (fun _ => {}) [1, 2, 3] callSock.conn := by
  have hs : (Machine.run sendMachine (some { conn := activeOpen 1 newSocket })
      (callEvents [1, 2, 3])).1 = some callSock := (Option.some_get callRun_isSome).symm
  have hpc : callSock.pc = .ready [1, 2, 3] := by decide +kernel
  have hg : Machine.Guarded sendMachine SocketHeld (some { conn := activeOpen 1 newSocket })
      (callEvents [1, 2, 3]) := by decide +kernel
  have h := send_reports (by decide) hg hs hpc (Option.some_get callTurn_isSome).symm
  exact h.2.mp (by decide +kernel)

/-- A call of 129 bytes, with a buffer for the first chunk only. -/
def nobufsEvents : List SendEvent :=
  callEvents (List.replicate 129 7) ++ [.turn fun k => if k = 0 then {} else { mbGet := [none] }]

/-- The first chunk is appended and sent; the call returns `-ENOBUFS`. -/
theorem send_nobufs_behind_first_chunk :
    ¬ ∀ es : List SendEvent, ∀ o ∈ (Machine.run sendMachine
      (some { conn := activeOpen 1 newSocket }) es).2, Reports o.buf o.rc o.appended := by
  intro h
  have hany : (Machine.run sendMachine (some { conn := activeOpen 1 newSocket }) nobufsEvents).2.any
      (fun o => decide (¬ Reports o.buf o.rc o.appended)) = true := by decide +kernel
  obtain ⟨o, ho, hne⟩ := List.any_eq_true.mp hany
  exact of_decide_eq_true hne (h nobufsEvents o ho)

end TnNet
