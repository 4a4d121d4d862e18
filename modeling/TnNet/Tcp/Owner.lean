import TnNet.Tcp.Conn

/-!
# Who owns a segment

`tcp_input` again, with the mbuf chain passed to it, the blocks of `t_segq` and its jumps.

* `Obs` — a chain is passed in, appended to `so_rcv` or freed; a queue block is allocated or returned.
* `Tiqe` — a queue entry with its block, the chain of `tcpqe_m` and the buffer `tcpqe_tcp` points into.
* `tcpReass`, `tcpPresent`, `tcpFreeq` — what happens to the entries.
* `inputListen` ... `inputHead` — the phases of `tcp_input`; a `goto` ends a phase with its label.
* `Jump.run` — the code behind the labels `drop`, `dropafterack` and `dropwithreset`, and `tcpRespond`.
* `findpcb`, `tcpInput` — the lookup and the whole function, for all connections of the stack.

The values of the fields are those of the model without owners.  Chains and blocks are named by the call
of `tcp_input` that brings or allocates them; a buffer is named by the chain it is the first one of.
-/

set_option autoImplicit false

namespace TnNet.Owned

open SeqArith

/-- What is done with chains and queue blocks. -/
inductive Obs where
  | passed (m : Nat)
  | sbappend (m : Nat)
  | mFreem (m : Nat)
  | allocMin (tiqe : Nat)
  | freeMin (tiqe : Nat)
  deriving DecidableEq

/-- An entry of `t_segq`: its fields, its block, the chain `tcpqe_m` and the buffer that `tcpqe_tcp`
    points into. -/
structure Tiqe where
  ent : Tcpqent
  tiqe : Nat
  tcpqeM : Nat
  tcpqeTcp : Nat
  deriving DecidableEq

abbrev Segq := List Tiqe

/-- The entries without their owners. -/
def Segq.ents (segq : Segq) : List Tcpqent := segq.map Tiqe.ent

/-- What one call of `tcp_input` works with: the outcomes of its calls, the allocation of `tcp_respond`,
    the chain `m`, the buffer `th` points into, the block it may allocate, and whether `m_flags` or
    `ip_dst` make the packet a broadcast or multicast. -/
structure Call extends InEnv where
  respond : Bool := true
  m : Nat
  thBuf : Nat
  block : Nat
  cast : Bool := false

/-! ## The queue -/

/-- `tcp_freeq`. -/
def tcpFreeq (segq : Segq) : List Obs :=
  segq.flatMap fun q => [.mFreem q.tcpqeM, .freeMin q.tiqe]

/-- The loop over the entries behind the segment, which ends at `fin`. -/
def reassTrim (fin : BitVec 32) : Segq → Segq × List Obs
  | [] => ([], [])
  | q :: qs =>
    let i := sdist fin q.ent.tcpqeTcp.thSeq
    if i ≤ 0 then (q :: qs, [])
    else if i < q.ent.tcpqeTcp.thReseqlen.toNat then ({ q with ent := q.ent.cut i } :: qs, [])
    else
      let r := reassTrim fin qs
      (r.1, .mFreem q.tcpqeM :: .freeMin q.tiqe :: r.2)

/-- The delivery loop. -/
def presentLoop (cantrcvmore : Bool) : Segq → BitVec 32 → Segq × List Obs
  | [], _ => ([], [])
  | q :: qs, nxt =>
    if q.ent.tcpqeTcp.thSeq = nxt then
      let r := presentLoop cantrcvmore qs (nxt + q.ent.tcpqeTcp.thReseqlen.setWidth 32)
      (r.1, (if cantrcvmore then .mFreem q.tcpqeM else .sbappend q.tcpqeM) :: .freeMin q.tiqe :: r.2)
    else (q :: qs, [])

/-- `tcp_reass` from the label `present`. -/
def tcpPresent (c : Conn) (segq : Segq) : Segq × List Obs :=
  if c.tp.tState.haveEstablished then
    if c.tp.tState = .synReceived ∧
        (segq.head?.map fun q => q.ent.tcpqeTcp.thReseqlen) ≠ some 0 then (segq, [])
    else presentLoop c.so.ssCantrcvmore segq c.tp.rcvNxt
  else (segq, [])

/-- The queue with the entry of the segment in place. -/
def reassPlace (e : Call) (segq : Segq) (seq : BitVec 32) (th : TcpHdr) (m : Chain) (tlen : Nat) :
    Segq × List Obs :=
  let before := segq.takeWhile fun q => !seqGt q.ent.tcpqeTcp.thSeq seq
  let r := reassTrim (th.thSeq + BitVec.ofNat 32 tlen)
    (segq.dropWhile fun q => !seqGt q.ent.tcpqeTcp.thSeq seq)
  (before ++ ⟨reassEntry th m tlen, e.block, e.m, e.thBuf⟩ :: r.1, r.2)

/-- `tcp_reass` with a segment. -/
def tcpReass (e : Call) (c : Conn) (segq : Segq) (th : TcpHdr) (m : Chain) (tlen : Nat) :
    Segq × List Obs :=
  if e.tiqe then
    let i := reassOverlap segq.ents th.thSeq
    if 0 < i ∧ (tlen : Int) ≤ i then (segq, [.allocMin e.block, .mFreem e.m, .freeMin e.block])
    else
      let r :=
        if 0 < i then
          reassPlace e segq th.thSeq { th with thSeq := th.thSeq + BitVec.ofInt 32 i } (mAdj m i)
            (tlen - i.toNat)
        else reassPlace e segq th.thSeq th m tlen
      let s := tcpPresent c r.1
      (s.1, .allocMin e.block :: r.2 ++ s.2)
  else ([], tcpFreeq segq ++ [.mFreem e.m])

/-! ## Locals and jumps -/

/-- The locals of `tcp_input`, the queue of the connection and what has been done so far.  `gone` is
    `tp == NULL` behind `tcp_close`. -/
structure InOwn where
  x : InSt
  segq : Segq
  dropsocket : Bool := false
  gone : Bool := false
  calls : List OutCall := []
  obs : List Obs := []

def InOwn.setConn (s : InOwn) (c : Conn) : InOwn := { s with x := { s.x with conn := c } }

/-- What the call leaves of the connection. -/
def InOwn.res (s : InOwn) : Res := ⟨s.x.conn, s.gone, s.calls⟩

/-- The labels that free the segment, and `findpcb`. -/
inductive Label where
  | drop
  | dropafterack
  | dropwithreset
  | findpcb

/-- A `goto` and the state there. -/
structure Jump where
  label : Label
  st : InOwn

/-- Either the state behind a phase, or a jump. -/
abbrev Flow := Except Jump InOwn

def InOwn.goto (s : InOwn) (label : Label) : Flow := .error ⟨label, s⟩

/-- `m_freem(m)`. -/
def InOwn.mFreem (e : Call) (s : InOwn) : InOwn := { s with obs := s.obs ++ [.mFreem e.m] }

/-- `tcp_output(tp)`. -/
def InOwn.tcpOutput (e : Call) (s : InOwn) : InOwn :=
  let r := callOutput e.out s.x.conn
  { s.setConn r.conn with calls := s.calls ++ r.calls }

/-- `tp = tcp_close(tp)`. -/
def InOwn.tcpClose (s : InOwn) : InOwn :=
  { s.setConn (TnNet.tcpClose s.x.conn) with segq := [], gone := true, obs := s.obs ++ tcpFreeq s.segq }

/-- `tp = tcp_drop(tp, errno)`. -/
def InOwn.tcpDrop (e : Call) (errno : Int) (s : InOwn) : InOwn :=
  let r := TnNet.tcpDrop e.out errno s.x.conn
  { s.setConn r.conn with
    segq := [], gone := true, calls := s.calls ++ r.calls, obs := s.obs ++ tcpFreeq s.segq }

/-- The chain `mb` in `tcp_respond`: freed when there is no packet for the answer, and behind the
    copying of its headers otherwise. -/
def tcpRespond (alloc : Bool) (mb : Nat) : List Obs :=
  if alloc then [.mFreem mb] else [.mFreem mb]

/-- The label `drop`. -/
def atDrop (e : Call) (s : InOwn) : InOwn :=
  let s := s.mFreem e
  if s.dropsocket then s.tcpDrop e ECONNABORTED else s

/-- The label `dropafterack`. -/
def atDropafterack (e : Call) (s : InOwn) : InOwn :=
  if s.x.tiflags.rst then atDrop e s
  else
    let s := s.mFreem e
    (s.setConn { s.x.conn with tp := { s.x.tp with acknow := true } }).tcpOutput e

/-- The label `dropwithreset`. -/
def atDropwithreset (e : Call) (s : InOwn) : InOwn :=
  if s.x.tiflags.rst ∨ e.cast then atDrop e s
  else
    let s := { s with obs := s.obs ++ tcpRespond e.respond e.m }
    if s.dropsocket then s.tcpDrop e ECONNABORTED else s

/-! ## LISTEN and SYN_SENT -/

/-- State `LISTEN`. -/
def inputListen (e : Call) (s : Seg) (st : InOwn) : Flow :=
  if st.x.tiflags.rst then st.goto .drop
  else if st.x.tiflags.ack then st.goto .dropwithreset
  else if ¬ st.x.tiflags.syn then st.goto .drop
  else if e.cast then st.goto .drop
  else if ¬ e.template then { st.tcpDrop e ENOBUFS with dropsocket := false }.goto .drop
  else .ok { st.setConn (listenConn e.toInEnv s st.x) with dropsocket := false }

/-- The connection in state `SYN_SENT` when the SYN is acknowledged, in front of `tcp_reass`. -/
def synSentEst (x : InSt) : Conn :=
  let tp := tcpRcvseqinit { synSentUna x with timerRexmt := 0, irs := x.th.thSeq }
  { tp := { tp with acknow := true, tState := .established }, so := soisconnected x.so }

/-- Does the segment acknowledge our SYN? -/
def synAcked (x : InSt) : Bool := x.tiflags.ack && seqGt (synSentUna x).sndUna (synSentUna x).iss

/-- State `SYN_SENT`. -/
def inputSynSent (e : Call) (st : InOwn) : Flow :=
  if st.x.tiflags.ack ∧ (seqLeq st.x.th.thAck st.x.tp.iss ∨ seqGt st.x.th.thAck st.x.tp.sndMax) then
    st.goto .dropwithreset
  else if st.x.tiflags.rst then
    if st.x.tiflags.ack then (st.tcpDrop e ECONNREFUSED).goto .drop else st.goto .drop
  else if ¬ st.x.tiflags.syn then st.goto .drop
  else
    let r := if synAcked st.x then tcpPresent (synSentEst st.x) st.segq else (st.segq, [])
    .ok { st.setConn (synSentConn st.x) with segq := r.1, obs := st.obs ++ r.2 }

/-! ## Trimming and flag bits -/

/-- New data after the user has gone. -/
def afterClose (st : InOwn) : Flow :=
  if st.x.so.ssNofdref ∧ TcpState.closeWait.num < st.x.tp.tState.num ∧ st.x.tlen ≠ 0 then
    st.tcpClose.goto .dropwithreset
  else .ok st

/-- The trimming at the right edge of the window. -/
def rightTrim (st : InOwn) : Flow :=
  let todrop := rightDrop st.x
  if 0 < todrop then
    if (st.x.tlen : Int) ≤ todrop then
      if timeWaitRestart st.x then st.tcpClose.goto .findpcb
      else if st.x.tp.rcvWnd = 0 ∧ st.x.th.thSeq = st.x.tp.rcvNxt then
        .ok { st with x := rightCut (st.x.setTp { st.x.tp with acknow := true }) todrop }
      else st.goto .dropafterack
    else .ok { st with x := rightCut st.x todrop }
  else .ok st

/-- `so->so_error = errno`. -/
def InOwn.setError (st : InOwn) (errno : Int) : InOwn :=
  st.setConn { st.x.conn with so := { st.x.so with soError := errno } }

/-- The `RST` bit. -/
def checkRst (st : InOwn) : Flow :=
  if st.x.tiflags.rst then
    match st.x.tp.tState with
    | .synReceived => (st.setError ECONNREFUSED).tcpClose.goto .drop
    | .established =>
      if st.x.th.thSeq ≠ st.x.tp.rcvNxt then
        { st with x := { st.x with tiflags := { st.x.tiflags with rst := false } } }.goto .dropafterack
      else (st.setError ECONNRESET).tcpClose.goto .drop
    | .finWait1 | .finWait2 | .closeWait => (st.setError ECONNRESET).tcpClose.goto .drop
    | .closing | .lastAck | .timeWait => st.tcpClose.goto .drop
    | _ => .ok st
  else .ok st

/-- The `SYN` bit. -/
def checkSyn (e : Call) (st : InOwn) : Flow :=
  if st.x.tiflags.syn then
    if st.x.tp.tState = .established then st.goto .drop
    else (st.tcpDrop e ECONNRESET).goto .dropwithreset
  else .ok st

/-- The `ACK` bit. -/
def checkAck (st : InOwn) : Flow := if st.x.tiflags.ack then .ok st else st.goto .drop

/-! ## ACK processing -/

/-- The connection that leaves `SYN_RECEIVED`, in front of `tcp_reass`. -/
def synReceivedEst (x : InSt) : Conn :=
  { tp := { x.tp with tState := .established }, so := soisconnected x.so }

/-- ACK processing in state `SYN_RECEIVED`. -/
def ackSynReceived (st : InOwn) : Flow :=
  if st.x.tp.tState = .synReceived then
    if seqGt st.x.tp.sndUna st.x.th.thAck ∨ seqGt st.x.th.thAck st.x.tp.sndMax then
      st.goto .dropwithreset
    else
      let r := tcpPresent (synReceivedEst st.x) st.segq
      .ok { st.setConn (synReceivedConn st.x) with segq := r.1, obs := st.obs ++ r.2 }
  else .ok st

/-- An ACK that acknowledges nothing new. -/
def ackDup (e : Call) (st : InOwn) : Flow :=
  let tp := st.x.tp
  if st.x.tlen = 0 ∧ st.x.tiwin = tp.sndWnd then
    if tp.timerRexmt = 0 ∨ st.x.th.thAck ≠ tp.sndUna then
      .ok { st with x := st.x.setTp { tp with tDupacks := 0 } }
    else
      let dupacks := s16 (tp.tDupacks + 1)
      if dupacks = 3 then
        let y := (st.setConn { st.x.conn with tp := fastRexmtTp st.x }).tcpOutput e
        (y.setConn { y.x.conn with tp := fastRexmtBack tp.sndNxt y.x.tp }).goto .drop
      else if 3 < dupacks then
        ((st.setConn { st.x.conn with tp := { tp with
          tDupacks := dupacks
          sndCwnd := tp.sndCwnd + BitVec.ofNat 32 tp.tMaxseg } }).tcpOutput e).goto .drop
      else .ok { st with x := st.x.setTp { tp with tDupacks := dupacks } }
  else .ok { st with x := st.x.setTp { tp with tDupacks := 0 } }

/-- The state switch behind the acknowledgement. -/
def ackState (fin : Bool) (st : InOwn) : Flow :=
  match st.x.tp.tState with
  | .finWait1 => .ok (if fin then st.setConn (enterFinWait2 st.x.conn) else st)
  | .closing => .ok (if fin then st.setConn (enterTimeWait st.x.conn) else st)
  | .lastAck => if fin then st.tcpClose.goto .drop else .ok st
  | .timeWait =>
    (st.setConn { st.x.conn with tp := { st.x.tp with timer2msl := 2 * TCPTV_MSL } }).goto .dropafterack
  | _ => .ok st

/-- An ACK of new data. -/
def ackNew (st : InOwn) : Flow :=
  if seqGt st.x.th.thAck st.x.tp.sndMax then
    (st.setConn { st.x.conn with tp := ackDeflate st.x.tp }).goto .dropafterack
  else
    ackState (ourfinisacked st.x)
      { st with x := { st.x with
          conn := ackConn st.x
          needoutput := st.x.needoutput || decide (st.x.th.thAck = st.x.tp.sndMax) } }

/-- ACK processing in the synchronized states. -/
def ackProcess (e : Call) (st : InOwn) : Flow :=
  if seqLeq st.x.th.thAck st.x.tp.sndUna then ackDup e st else ackNew st

/-! ## One pass behind the lookup -/

/-- The phases of the synchronized states up to ACK processing. -/
def inputChecks (e : Call) (st : InOwn) : Flow := do
  let st ← afterClose { st with x := leftTrim st.x }
  let st ← rightTrim st
  let st ← checkRst st
  let st ← checkSyn e st
  checkAck st

/-- The label `trimthenstep6`. -/
def trimThenStep6 (st : InOwn) : InOwn := { st with x := TnNet.trimThenStep6 st.x }

/-- The phases in front of `step6`. -/
def inputHead (e : Call) (s : Seg) (st : InOwn) : Flow :=
  match st.x.tp.tState with
  | .listen => (inputListen e s st).map trimThenStep6
  | .synSent => (inputSynSent e st).map trimThenStep6
  | _ => do
    let st ← inputChecks e st
    let st ← ackSynReceived st
    ackProcess e st

/-- The segment text. -/
def doData (e : Call) (x : InSt) (segq : Segq) : Segq × List Obs :=
  if hasText x then
    if inOrder x then (segq, [if x.so.ssCantrcvmore then .mFreem e.m else .sbappend e.m])
    else tcpReass e x.conn segq x.th (mAdj x.m x.hdroptlen) x.tlen
  else (segq, [.mFreem e.m])

/-- The phases from `step6` on. -/
def inputTail (e : Call) (st : InOwn) : InOwn :=
  let y := step6 st.x
  let r := TnNet.doData e.toInEnv y
  let q := doData e y st.segq
  let out := inputOutput e.toInEnv y.needoutput (doFin r.2 r.1)
  { st with
    x := { y with conn := out.conn }, segq := q.1, calls := st.calls ++ out.calls, obs := st.obs ++ q.2 }

/-- The code behind the label of a jump; behind `findpcb` comes the lookup again. -/
def Jump.run (e : Call) (j : Jump) : InOwn ⊕ InOwn :=
  match j.label with
  | .drop => .inl (atDrop e j.st)
  | .dropafterack => .inl (atDropafterack e j.st)
  | .dropwithreset => .inl (atDropwithreset e j.st)
  | .findpcb => .inr j.st

/-- From the state switch to the end, or back to the lookup. -/
def inputPass (e : Call) (s : Seg) (st : InOwn) : InOwn ⊕ InOwn :=
  match inputHead e s st with
  | .ok st => .inl (inputTail e st)
  | .error j => j.run e

/-! ## The whole function -/

/-- The locals that `goto findpcb` keeps. -/
structure Locals where
  th : TcpHdr
  tiflags : ThFlags
  tlen : Nat
  m : Chain

def Locals.ofSeg (s : Seg) : Locals := ⟨s.th, s.th.thFlags, s.tlen, s.m⟩

def Locals.ofSt (x : InSt) : Locals := ⟨x.th, x.tiflags, x.tlen, x.m⟩

/-- From the pcb to the state switch. -/
def inputSetup (e : InEnv) (s : Seg) (l : Locals) (c : Conn) : InSt :=
  { TnNet.inputSetup e s c with th := l.th, tiflags := l.tiflags, tlen := l.tlen, m := l.m }

/-- What the lookup at `findpcb` finds: no pcb or one without a control block, a control block in state
    `CLOSED`, a listening socket (`tn_tcp_check_avaliable_mem` and what `sonewconn` makes), or a
    connection, by its place in the list of the connections. -/
inductive Found where
  | none
  | closed
  | listen (e : InEnv) (mem : Bool) (so : Option { so : SocketTcp // FreshSocket so })
  | conn (e : InEnv) (i : Nat)

/-- A packet for `tcp_input`: the tests in front of the lookup, the segment as it has come (`iphlen`
    bytes of IP header, `off = th_off << 2`), what the lookups find and the allocation of `tcp_respond`. -/
structure Arrival where
  mFlags : Bool := false
  ni : Bool := true
  multicast : Bool := false
  broadcast : Bool := false
  in4Cksum : Bool := false
  th : TcpHdr
  opt : List UInt8 := []
  m : Chain
  len_lt : chainLen m < 65536
  iphlen : Nat := 20
  off : Nat := 20
  respond : Bool := true
  found : List Found := []

/-- `M_BCAST`, `M_MCAST` or a multicast address. -/
def Arrival.cast (a : Arrival) : Bool := a.mFlags || a.multicast

/-- A call for the chain `k`.  The header `th` lies in its first buffer. -/
def Arrival.call (a : Arrival) (k : Nat) (e : InEnv) : Call :=
  { e with respond := a.respond, m := k, thBuf := k, block := k, cast := a.cast }

/-- A connection and its queue. -/
structure OConn where
  conn : Conn
  segq : Segq

/-- The label `dropwithreset` without a control block. -/
def resetSegment (a : Arrival) (k : Nat) (tiflags : ThFlags) : List Obs :=
  if tiflags.rst ∨ a.cast then [.mFreem k] else tcpRespond a.respond k

/-- The connections behind a call for the one at `i`. -/
def putBack (conns : List OConn) (i : Nat) (st : InOwn) : List OConn :=
  if st.gone then conns.eraseIdx i else conns.set i ⟨st.x.conn, st.segq⟩

/-- The connections behind a call for a new one. -/
def putNew (conns : List OConn) (st : InOwn) : List OConn :=
  if st.gone then conns else conns ++ [⟨st.x.conn, st.segq⟩]

/-- The label `findpcb`.  Each `goto findpcb` closes a connection, so it is reached a finite number of
    times; behind the last answer of the list there is no pcb. -/
def findpcb (a : Arrival) (s : Seg) (k : Nat) : List Found → Locals → List OConn → List OConn × List Obs
  | [], l, conns => (conns, resetSegment a k l.tiflags)
  | .none :: _, l, conns => (conns, resetSegment a k l.tiflags)
  | .closed :: _, _, conns => (conns, [.mFreem k])
  | .listen e mem so :: found, l, conns =>
    if l.tiflags.rst ∨ l.tiflags.ack ∨ ¬ l.tiflags.syn then
      if l.tiflags.ack then (conns, resetSegment a k l.tiflags) else (conns, [.mFreem k])
    else if ¬ mem then (conns, [.mFreem k])
    else
      match so with
      | none => (conns, [.mFreem k])
      | some so =>
        let c := passiveOpen so
        match inputPass (a.call k e) s { x := inputSetup e s l c, segq := [], dropsocket := true } with
        | .inl st => (putNew conns st, st.obs)
        | .inr st =>
          let r := findpcb a s k found (.ofSt st.x) (putNew conns st)
          (r.1, st.obs ++ r.2)
  | .conn e i :: found, l, conns =>
    match conns[i]? with
    | none => (conns, resetSegment a k l.tiflags)
    | some c =>
      if c.conn.tp.tState = .closed then (conns, [.mFreem k])
      else
        match inputPass (a.call k e) s { x := inputSetup e s l c.conn, segq := c.segq } with
        | .inl st => (putBack conns i st, st.obs)
        | .inr st =>
          let r := findpcb a s k found (.ofSt st.x) (putBack conns i st)
          (r.1, st.obs ++ r.2)

/-- `tcp_input` for the chain `k`. -/
def tcpInput (a : Arrival) (k : Nat) (conns : List OConn) : List OConn × List Obs :=
  if a.mFlags then (conns, [.mFreem k])
  else if ¬ a.ni then (conns, [.mFreem k])
  else if a.multicast ∨ a.broadcast then (conns, [.mFreem k])
  else if a.in4Cksum then (conns, [.mFreem k])
  else if h : a.off < 20 ∨ chainLen a.m < a.iphlen + a.off then (conns, [.mFreem k])
  else
    let s : Seg :=
      { th := a.th, opt := a.opt, m := a.m, hlen := a.iphlen + a.off
        hlen_le := by omega, len_lt := a.len_lt }
    findpcb a s k a.found (.ofSeg s) conns

/-! ## The machine -/

/-- All connections of the stack, and the number of the calls of `tcp_input` so far. -/
structure Net where
  conns : List OConn := []
  arrived : Nat := 0

/-- What can happen: a segment comes in, `soconnect` makes a connection, or there is another event on
    one of the connections. -/
inductive NetEvent where
  | input (a : Arrival)
  | connect (iss : BitVec 32) (so : SocketTcp) (h : FreshSocket so)
  | conn (i : Nat) (ev : Event)

/-- An event of a connection that is no segment. -/
def eventConn (conns : List OConn) (i : Nat) (ev : Event) : List OConn × List Obs :=
  match conns[i]? with
  | none => (conns, [])
  | some c =>
    match ev with
    | .input _ _ => (conns, [])
    | ev =>
      let r := connStep c.conn ev
      if r.gone then (conns.eraseIdx i, tcpFreeq c.segq) else (conns.set i ⟨r.conn, c.segq⟩, [])

/-- The step of the machine. -/
def netMachine : Machine.Step Net NetEvent Obs := fun n ev =>
  match ev with
  | .input a =>
    let r := tcpInput a n.arrived n.conns
    (some ⟨r.1, n.arrived + 1⟩, .passed n.arrived :: r.2)
  | .connect iss so _ => (some { n with conns := n.conns ++ [⟨activeOpen iss so, []⟩] }, [])
  | .conn i ev =>
    let r := eventConn n.conns i ev
    (some { n with conns := r.1 }, r.2)

end TnNet.Owned
