import TnNet.Tcp.Reass

/-!
# `tcp_input`

Transcription of `tcp_input` of `tn_tcp_input.c` for the connection the segment belongs to, in
the order of the source:

* `inputSetup` — idle time, keep-alive timer, options, receive window;
* `inputListen`, `inputSynSent`, `trimThenStep6` — the states before `SYN_RECEIVED`;
* `leftTrim`, `afterClose`, `rightTrim` — the trimming of the segment to the window;
* `checkRst`, `checkSyn`, `checkAck` — the tests of the flag bits;
* `ackSynReceived`, `ackDup`, `ackNew` — ACK processing;
* `step6`, `doData`, `doFin`, `inputOutput` — window update, segment text, FIN, output.

A phase works on the locals of `tcp_input` (`InSt`).  A jump to one of the exits ends the
computation with the result (`Except.error`).  The packets of `tcp_respond` change no state of
the connection and are not part of the model.
-/

set_option autoImplicit false

namespace TnNet

open SeqArith

/-- The outcomes of the calls `tcp_input` makes: the initial sequence number of a passive open,
    the allocation of the template and of the queue entry, the MTU of the interface and the
    passes of `tcp_output`. -/
structure InEnv where
  iss : BitVec 32 := 1
  template : Bool := true
  tiqe : Bool := true
  ifMtu : Int := 1500
  out : Nat → SendEnv := fun _ => {}

/-- The locals of `tcp_input`. -/
structure InSt where
  conn : Conn
  th : TcpHdr
  tiflags : ThFlags
  tlen : Nat
  hdroptlen : Nat
  m : Chain
  needoutput : Bool := false

def InSt.tp (x : InSt) : Tcpcb := x.conn.tp

def InSt.so (x : InSt) : SocketTcp := x.conn.so

/-- `tiwin`. -/
def InSt.tiwin (x : InSt) : BitVec 32 := x.th.thWin.setWidth 32

def InSt.setTp (x : InSt) (tp : Tcpcb) : InSt := { x with conn := { x.conn with tp := tp } }

/-- Either the locals behind a phase, or the result of `tcp_input`. -/
abbrev Flow := Except Res InSt

/-! ## Exits -/

/-- `goto drop` or `goto dropwithreset` with `dropsocket == 0`. -/
def exitDrop (c : Conn) : Flow := .error ⟨c, false, []⟩

/-- `tp = tcp_close(tp)` and an exit. -/
def exitClose (c : Conn) : Flow := .error ⟨tcpClose c, true, []⟩

/-- `goto dropafterack`. -/
def exitDropafterack (e : InEnv) (rst : Bool) (c : Conn) : Flow :=
  if rst then exitDrop c
  else .error (callOutput e.out { c with tp := { c.tp with acknow := true } })

/-! ## Options -/

/-- The loop of `tcp_dooptions`: an MSS option of a SYN sets `t_maxseg`. -/
def dooptionsLoop (syn : Bool) (ifMtu : Int) : Nat → List UInt8 → Tcpcb → Tcpcb
  | 0, _, tp => tp
  | _, [], tp => tp
  | fuel + 1, opt :: cp, tp =>
    if opt = 0 then tp
    else if opt = 1 then dooptionsLoop syn ifMtu fuel cp tp
    else
      match cp with
      | [] => tp
      | optlen :: body =>
        if optlen.toNat < 2 ∨ cp.length + 1 < optlen.toNat then tp
        else
          let tp :=
            if opt = 2 ∧ optlen = 4 ∧ syn then
              (tcpMss tp ((body.getD 0 0).toNat * 256 + (body.getD 1 0).toNat) (some ifMtu)).1
            else tp
          dooptionsLoop syn ifMtu fuel (body.drop (optlen.toNat - 2)) tp

/-- `tcp_dooptions`. -/
def tcpDooptions (syn : Bool) (ifMtu : Int) (opt : List UInt8) (tp : Tcpcb) : Tcpcb :=
  dooptionsLoop syn ifMtu opt.length opt tp

/-- The control block without the fields `tcp_dooptions` writes. -/
def optKept (tp : Tcpcb) : Tcpcb := { tp with tMaxseg := 0, sndCwnd := 0 }

theorem tcpMss_optKept (tp : Tcpcb) (offer : Nat) (ifMtu : Option Int) :
    optKept (tcpMss tp offer ifMtu).1 = optKept tp := by
  have h : ∀ mss : Int, optKept (if mss < tp.tMaxseg ∨ offer ≠ 0 then
      { tp with tMaxseg := mss.toNat % 65536 } else tp) = optKept tp := by
    intro mss
    split <;> rfl
  exact h _

/-- The least and the greatest value of `t_maxseg`. -/
def MaxsegOk (tp : Tcpcb) : Prop := 32 ≤ tp.tMaxseg ∧ tp.tMaxseg < 65536

theorem tcpMss_maxsegOk {tp : Tcpcb} (h : MaxsegOk tp) {offer : Nat} (ho : offer < 65536)
    (ifMtu : Option Int) : MaxsegOk (tcpMss tp offer ifMtu).1 := by
  have hk : ∀ mss : Int, 32 ≤ mss → (offer ≠ 0 → mss < 65536) →
      MaxsegOk (if mss < tp.tMaxseg ∨ offer ≠ 0 then
        { tp with tMaxseg := mss.toNat % 65536 } else tp) := by
    intro mss h1 h2
    obtain ⟨h3, h4⟩ := h
    split
    · constructor <;> dsimp only <;> omega
    · exact ⟨h3, h4⟩
  refine hk _ (by omega) fun h0 => ?_
  simp only [h0, ne_eq, not_false_eq_true, if_true]
  omega

theorem dooptionsLoop_rule {Q : Tcpcb → Prop} (syn : Bool) (ifMtu : Int)
    (hmss : ∀ tp offer, offer < 65536 → Q tp → Q (tcpMss tp offer (some ifMtu)).1) (fuel : Nat) :
    ∀ (cp : List UInt8) (tp : Tcpcb), Q tp → Q (dooptionsLoop syn ifMtu fuel cp tp) := by
  induction fuel with
  | zero => exact fun _ _ h => h
  | succ fuel ih =>
    intro cp tp h
    cases cp with
    | nil => exact h
    | cons opt cp =>
      unfold dooptionsLoop
      split
      · exact h
      · split
        · exact ih cp tp h
        · split
          · exact h
          · rename_i optlen body
            split
            · exact h
            · refine ih _ _ ?_
              split
              · refine hmss tp _ ?_ h
                have h1 := (body.getD 0 0).toNat_lt
                have h2 := (body.getD 1 0).toNat_lt
                omega
              · exact h

theorem tcpDooptions_kept (syn : Bool) (ifMtu : Int) (opt : List UInt8) (tp : Tcpcb) :
    optKept (tcpDooptions syn ifMtu opt tp) = optKept tp :=
  dooptionsLoop_rule (Q := fun tp' => optKept tp' = optKept tp) syn ifMtu
    (fun tp' offer _ h => (tcpMss_optKept tp' offer _).trans h) _ opt tp rfl

theorem tcpDooptions_maxsegOk {tp : Tcpcb} (h : MaxsegOk tp) (syn : Bool) (ifMtu : Int)
    (opt : List UInt8) : MaxsegOk (tcpDooptions syn ifMtu opt tp) :=
  dooptionsLoop_rule (Q := MaxsegOk) syn ifMtu (fun _ _ ho h => tcpMss_maxsegOk h ho _) _ opt tp h

/-! ## Round-trip time -/

/-- `tcp_xmit_timer`. -/
def tcpXmitTimer (tp : Tcpcb) (rtt : Int) : Tcpcb :=
  let tp1 :=
    if tp.tSrtt ≠ 0 then
      let delta := s16 (rtt - 1 - tp.tSrtt / 8)
      let srtt := s16 (tp.tSrtt + delta)
      let delta := if delta < 0 then s16 (-delta) else delta
      let delta := s16 (delta - tp.tRttvar / 4)
      let rttvar := s16 (tp.tRttvar + delta)
      { tp with
        tSrtt := if srtt ≤ 0 then 1 else srtt
        tRttvar := if rttvar ≤ 0 then 1 else rttvar }
    else { tp with tSrtt := s16 (rtt * 8), tRttvar := s16 (rtt * 2) }
  { tp1 with
    tRtt := 0
    tRxtshift := 0
    tRxtcur := rangeset (tcpRexmtval tp1) tp1.tRttmin TCPTV_REXMTMAX
    tSofterror := 0 }

/-! ## Before the state switch -/

/-- `rcv_wnd`: the free space, but not less than the window advertised. -/
def inputRcvWnd (c : Conn) : Int :=
  max (max (sbspace c.so.soRcv) 0) (sdist c.tp.rcvAdv c.tp.rcvNxt)

/-- From the pcb to the state switch. -/
def inputSetup (e : InEnv) (s : Seg) (c : Conn) : InSt :=
  let tp := { c.tp with tIdle := 0, timerKeep := tcpKeepidle }
  let tp := if c.tp.tState = .listen then tp else tcpDooptions s.th.thFlags.syn e.ifMtu s.opt tp
  { conn := { c with tp := { tp with rcvWnd := BitVec.ofInt 32 (inputRcvWnd c) } }
    th := s.th
    tiflags := s.th.thFlags
    tlen := s.tlen
    hdroptlen := s.hlen
    m := s.m }

/-! ## LISTEN and SYN_SENT -/

/-- The connection when a SYN is accepted in state `LISTEN`. -/
def listenConn (e : InEnv) (s : Seg) (x : InSt) : Conn :=
  let tp := tcpDooptions s.th.thFlags.syn e.ifMtu s.opt { x.tp with tTemplate := true }
  let tp := tcpRcvseqinit (tcpSendseqinit { tp with iss := e.iss, irs := x.th.thSeq })
  { x.conn with
    tp := { tp with acknow := true, tState := .synReceived, timerKeep := TCPTV_KEEP_INIT } }

/-- State `LISTEN`: a socket made by `sonewconn`, discarded on every exit. -/
def inputListen (e : InEnv) (s : Seg) (x : InSt) : Flow :=
  if x.tiflags.rst ∨ x.tiflags.ack ∨ ¬ x.tiflags.syn then
    .error (tcpDrop e.out ECONNABORTED x.conn)
  else if ¬ e.template then .error (tcpDrop e.out ENOBUFS x.conn)
  else .ok { x with conn := listenConn e s x }

/-- `snd_una` in state `SYN_SENT`. -/
def synSentUna (x : InSt) : Tcpcb :=
  if x.tiflags.ack then
    { x.tp with
      sndUna := x.th.thAck
      sndNxt := if seqLt x.tp.sndNxt x.th.thAck then x.th.thAck else x.tp.sndNxt }
  else x.tp

/-- The connection when a SYN is accepted in state `SYN_SENT`. -/
def synSentConn (x : InSt) : Conn :=
  let tp := tcpRcvseqinit { synSentUna x with timerRexmt := 0, irs := x.th.thSeq }
  let tp := { tp with acknow := true }
  if x.tiflags.ack ∧ seqGt tp.sndUna tp.iss then
    let c := (tcpPresent { tp := { tp with tState := .established }
                           so := soisconnected x.so }).1
    if c.tp.tRtt ≠ 0 then { c with tp := tcpXmitTimer c.tp c.tp.tRtt } else c
  else { x.conn with tp := { tp with tState := .synReceived } }

/-- State `SYN_SENT`. -/
def inputSynSent (e : InEnv) (x : InSt) : Flow :=
  if x.tiflags.ack ∧ (seqLeq x.th.thAck x.tp.iss ∨ seqGt x.th.thAck x.tp.sndMax) then
    exitDrop x.conn
  else if x.tiflags.rst then
    if x.tiflags.ack then .error (tcpDrop e.out ECONNREFUSED x.conn) else exitDrop x.conn
  else if ¬ x.tiflags.syn then exitDrop x.conn
  else .ok { x with conn := synSentConn x }

/-- The label `trimthenstep6`. -/
def trimThenStep6 (x : InSt) : InSt :=
  let seq := x.th.thSeq + 1
  let y := { x with
    th := { x.th with thSeq := seq }
    conn := { x.conn with tp := { x.tp with sndWl1 := seq - 1, rcvUp := seq } } }
  if x.tp.rcvWnd.toInt < x.tlen then
    { y with
      m := mAdj x.m (-(x.tlen - x.tp.rcvWnd.toInt))
      tlen := x.tp.rcvWnd.toInt.toNat
      tiflags := { x.tiflags with fin := false } }
  else y

/-! ## Trimming to the window -/

/-- A SYN in front of the window is taken off the segment. -/
def leftSyn (x : InSt) : InSt :=
  if x.tiflags.syn then
    { x with
      th := { x.th with
        thSeq := x.th.thSeq + 1
        thUrp := if 1 < x.th.thUrp.toNat then x.th.thUrp - 1 else x.th.thUrp }
      tiflags := { x.tiflags with
        syn := false
        urg := if 1 < x.th.thUrp.toNat then x.tiflags.urg else false } }
  else x

/-- Does the segment end in front of the window? -/
def leftAll (x : InSt) (todrop : Int) : Bool :=
  decide ((x.tlen : Int) < todrop) || (decide (todrop = x.tlen) && !x.tiflags.fin)

/-- Drop `todrop` bytes from the head of the segment. -/
def leftCut (x : InSt) (todrop : Nat) : InSt :=
  { x with
    hdroptlen := x.hdroptlen + todrop
    th := { x.th with
      thSeq := x.th.thSeq + BitVec.ofNat 32 todrop
      thUrp := if todrop < x.th.thUrp.toNat then x.th.thUrp - BitVec.ofNat 16 todrop else 0 }
    tlen := x.tlen - todrop
    tiflags := { x.tiflags with
      urg := if todrop < x.th.thUrp.toNat then x.tiflags.urg else false } }

/-- The trimming at the left edge of the window. -/
def leftTrim (x : InSt) : InSt :=
  let todrop := sdist x.tp.rcvNxt x.th.thSeq
  if 0 < todrop then
    let y := leftSyn x
    let todrop := if x.tiflags.syn then todrop - 1 else todrop
    if leftAll y todrop then
      leftCut { y with
        conn := { y.conn with tp := { y.tp with acknow := true } }
        tiflags := { y.tiflags with fin := false } } y.tlen
    else leftCut y todrop.toNat
  else x

/-- New data after the user has gone. -/
def afterClose (x : InSt) : Flow :=
  if x.so.ssNofdref ∧ TcpState.closeWait.num < x.tp.tState.num ∧ x.tlen ≠ 0 then exitClose x.conn
  else .ok x

/-- The segment without the bytes behind the window; `PUSH` and `FIN` go with them. -/
def rightCut (x : InSt) (todrop : Int) : InSt :=
  { x with
    m := mAdj x.m (-todrop)
    tlen := x.tlen - todrop.toNat
    tiflags := { x.tiflags with push := false, fin := false } }

/-- The bytes of the segment behind the window. -/
def rightDrop (x : InSt) : Int :=
  sdist (x.th.thSeq + BitVec.ofNat 32 x.tlen) (x.tp.rcvNxt + x.tp.rcvWnd)

/-- A new connection request in state `TIME_WAIT`: `goto findpcb`. -/
def timeWaitRestart (x : InSt) : Bool :=
  x.tiflags.syn && decide (x.tp.tState = .timeWait) && seqGt x.th.thSeq x.tp.rcvNxt

/-- The trimming at the right edge of the window. -/
def rightTrim (e : InEnv) (x : InSt) : Flow :=
  let todrop := rightDrop x
  if 0 < todrop then
    if (x.tlen : Int) ≤ todrop then
      if timeWaitRestart x then exitClose x.conn
      else if x.tp.rcvWnd = 0 ∧ x.th.thSeq = x.tp.rcvNxt then
        .ok (rightCut (x.setTp { x.tp with acknow := true }) todrop)
      else exitDropafterack e x.tiflags.rst x.conn
    else .ok (rightCut x todrop)
  else .ok x

/-! ## Flag bits -/

/-- The `RST` bit. -/
def checkRst (e : InEnv) (x : InSt) : Flow :=
  if x.tiflags.rst then
    match x.tp.tState with
    | .synReceived =>
      exitClose { x.conn with so := { x.so with soError := ECONNREFUSED } }
    | .established =>
      if x.th.thSeq ≠ x.tp.rcvNxt then exitDropafterack e false x.conn
      else exitClose { x.conn with so := { x.so with soError := ECONNRESET } }
    | .finWait1 | .finWait2 | .closeWait =>
      exitClose { x.conn with so := { x.so with soError := ECONNRESET } }
    | .closing | .lastAck | .timeWait => exitClose x.conn
    | _ => .ok x
  else .ok x

/-- The `SYN` bit. -/
def checkSyn (e : InEnv) (x : InSt) : Flow :=
  if x.tiflags.syn then
    if x.tp.tState = .established then exitDrop x.conn
    else .error (tcpDrop e.out ECONNRESET x.conn)
  else .ok x

/-- The `ACK` bit. -/
def checkAck (x : InSt) : Flow := if x.tiflags.ack then .ok x else exitDrop x.conn

/-! ## ACK processing -/

/-- The connection that leaves `SYN_RECEIVED`. -/
def synReceivedConn (x : InSt) : Conn :=
  let c := (tcpPresent { tp := { x.tp with tState := .established }
                         so := soisconnected x.so }).1
  { c with tp := { c.tp with sndWl1 := x.th.thSeq - 1 } }

/-- ACK processing in state `SYN_RECEIVED`. -/
def ackSynReceived (x : InSt) : Flow :=
  if x.tp.tState = .synReceived then
    if seqGt x.tp.sndUna x.th.thAck ∨ seqGt x.th.thAck x.tp.sndMax then exitDrop x.conn
    else .ok { x with conn := synReceivedConn x }
  else .ok x

/-- Half the window in segments, at least two, times `t_maxseg`. -/
def halfWindow (tp : Tcpcb) : BitVec 32 :=
  let win := (if tp.sndWnd < tp.sndCwnd then tp.sndWnd else tp.sndCwnd) / 2 /
    BitVec.ofNat 32 tp.tMaxseg
  (if win < 2 then 2 else win) * BitVec.ofNat 32 tp.tMaxseg

/-- The control block with which the third duplicate ACK calls `tcp_output`. -/
def fastRexmtTp (x : InSt) : Tcpcb :=
  { x.tp with
    tDupacks := s16 (x.tp.tDupacks + 1)
    sndSsthresh := halfWindow x.tp
    timerRexmt := 0
    tRtt := 0
    sndNxt := x.th.thAck
    sndCwnd := BitVec.ofNat 32 x.tp.tMaxseg }

/-- After the fast retransmit: the congestion window and `snd_nxt` are set back. -/
def fastRexmtBack (onxt : BitVec 32) (tp : Tcpcb) : Tcpcb :=
  { tp with
    sndCwnd := tp.sndSsthresh + BitVec.ofNat 32 tp.tMaxseg * BitVec.ofInt 32 tp.tDupacks
    sndNxt := if seqGt onxt tp.sndNxt then onxt else tp.sndNxt }

/-- The fast retransmit. -/
def fastRexmt (e : InEnv) (x : InSt) : Res :=
  let r := callOutput e.out { x.conn with tp := fastRexmtTp x }
  { r with conn := { r.conn with tp := fastRexmtBack x.tp.sndNxt r.conn.tp } }

/-- An ACK that acknowledges nothing new. -/
def ackDup (e : InEnv) (x : InSt) : Flow :=
  if x.tlen = 0 ∧ x.tiwin = x.tp.sndWnd then
    if x.tp.timerRexmt = 0 ∨ x.th.thAck ≠ x.tp.sndUna then
      .ok (x.setTp { x.tp with tDupacks := 0 })
    else
      let dupacks := s16 (x.tp.tDupacks + 1)
      if dupacks = 3 then .error (fastRexmt e x)
      else if 3 < dupacks then
        .error (callOutput e.out { x.conn with tp := { x.tp with
          tDupacks := dupacks
          sndCwnd := x.tp.sndCwnd + BitVec.ofNat 32 x.tp.tMaxseg } })
      else .ok (x.setTp { x.tp with tDupacks := dupacks })
  else .ok (x.setTp { x.tp with tDupacks := 0 })

/-- The inflated congestion window is retracted. -/
def ackDeflate (tp : Tcpcb) : Tcpcb :=
  { tp with
    sndCwnd := if 3 < tp.tDupacks ∧ tp.sndSsthresh < tp.sndCwnd then tp.sndSsthresh else tp.sndCwnd
    tDupacks := 0 }

/-- Round-trip time and retransmit timer. -/
def ackTimer (ack : BitVec 32) (tp : Tcpcb) : Tcpcb :=
  let tp := if tp.tRtt ≠ 0 ∧ seqGt ack tp.tRtseq then tcpXmitTimer tp tp.tRtt else tp
  if ack = tp.sndMax then { tp with timerRexmt := 0 }
  else if tp.timerPersist = 0 then { tp with timerRexmt := tp.tRxtcur }
  else tp

/-- The congestion window opens. -/
def ackCwnd (tp : Tcpcb) : Tcpcb :=
  let maxseg := BitVec.ofNat 32 tp.tMaxseg
  let incr := if tp.sndSsthresh < tp.sndCwnd then maxseg * maxseg / tp.sndCwnd else maxseg
  { tp with
    sndCwnd := if tp.sndCwnd + incr < TCP_MAXWIN then tp.sndCwnd + incr else TCP_MAXWIN }

/-- `acked`. -/
def ackAcked (x : InSt) : Int := sdist x.th.thAck x.tp.sndUna

/-- `ourfinisacked`. -/
def ourfinisacked (x : InSt) : Bool := decide ((x.so.soSnd.sbCc : Int) < ackAcked x)

/-- The bytes `sbdrop` takes off the send buffer. -/
def ackDrop (x : InSt) : Nat :=
  if ourfinisacked x then x.so.soSnd.sbCc else (ackAcked x).toNat

/-- The connection with the acknowledged data dropped and `snd_una` advanced. -/
def ackConn (x : InSt) : Conn :=
  let tp := ackCwnd (ackTimer x.th.thAck (ackDeflate x.tp))
  { tp := { tp with
      sndWnd := tp.sndWnd - BitVec.ofNat 32 (ackDrop x)
      sndUna := x.th.thAck
      sndNxt := if seqLt tp.sndNxt x.th.thAck then x.th.thAck else tp.sndNxt }
    so := { x.so with soSnd := sbdrop x.so.soSnd (ackDrop x) } }

/-- Enter `TIME_WAIT`. -/
def enterTimeWait (c : Conn) : Conn :=
  { tp := { tcpCanceltimers c.tp with tState := .timeWait, timer2msl := 2 * TCPTV_MSL }
    so := soisdisconnected c.so }

/-- `FIN_WAIT_1` with our FIN acknowledged. -/
def enterFinWait2 (c : Conn) : Conn :=
  if c.so.ssCantrcvmore then
    { tp := { c.tp with tState := .finWait2, timer2msl := tcpMaxidle }
      so := soisdisconnected c.so }
  else { c with tp := { c.tp with tState := .finWait2 } }

/-- The state switch behind the acknowledgement. -/
def ackState (e : InEnv) (fin : Bool) (x : InSt) : Flow :=
  match x.tp.tState with
  | .finWait1 => .ok (if fin then { x with conn := enterFinWait2 x.conn } else x)
  | .closing => .ok (if fin then { x with conn := enterTimeWait x.conn } else x)
  | .lastAck => if fin then exitClose x.conn else .ok x
  | .timeWait =>
    exitDropafterack e x.tiflags.rst
      { x.conn with tp := { x.tp with timer2msl := 2 * TCPTV_MSL } }
  | _ => .ok x

/-- An ACK of new data. -/
def ackNew (e : InEnv) (x : InSt) : Flow :=
  if seqGt x.th.thAck x.tp.sndMax then
    exitDropafterack e x.tiflags.rst { x.conn with tp := ackDeflate x.tp }
  else
    ackState e (ourfinisacked x)
      { x with
        conn := ackConn x
        needoutput := x.needoutput || decide (x.th.thAck = x.tp.sndMax) }

/-- ACK processing in the synchronized states. -/
def ackProcess (e : InEnv) (x : InSt) : Flow :=
  if seqLeq x.th.thAck x.tp.sndUna then ackDup e x else ackNew e x

/-! ## Window update, text and FIN -/

/-- The window update test on `snd_wl1` and `snd_wl2`. -/
def windowUpdate (x : InSt) : Bool :=
  x.tiflags.ack &&
    (seqLt x.tp.sndWl1 x.th.thSeq ||
      (decide (x.tp.sndWl1 = x.th.thSeq) &&
        (seqLt x.tp.sndWl2 x.th.thAck ||
          (decide (x.tp.sndWl2 = x.th.thAck) && decide (x.tp.sndWnd < x.tiwin)))))

/-- The window update. -/
def updateWindow (x : InSt) : InSt :=
  if windowUpdate x then
    { x.setTp { x.tp with
        sndWnd := x.tiwin
        sndWl1 := x.th.thSeq
        sndWl2 := x.th.thAck
        maxSndwnd := if x.tp.maxSndwnd < x.tiwin then x.tiwin else x.tp.maxSndwnd } with
      needoutput := true }
  else x

/-- The label `step6`: window update and `rcv_up`. -/
def step6 (x : InSt) : InSt :=
  let y := updateWindow x
  if seqGt y.tp.rcvNxt y.tp.rcvUp then y.setTp { y.tp with rcvUp := y.tp.rcvNxt } else y

/-- Is there text or a FIN to process? -/
def hasText (x : InSt) : Bool :=
  (decide (x.tlen ≠ 0) || x.tiflags.fin) && !x.tp.tState.haveRcvdFin

/-- The segment is the next one expected and nothing is queued. -/
def inOrder (x : InSt) : Bool :=
  decide (x.th.thSeq = x.tp.rcvNxt) && x.tp.tSegq.isEmpty && decide (x.tp.tState = .established)

/-- The in-order path: the connection and the `TH_FIN` of the header. -/
def inOrderConn (x : InSt) : Conn :=
  { tp := { x.tp with delack := true, rcvNxt := x.tp.rcvNxt + BitVec.ofNat 32 x.tlen }
    so :=
      if x.so.ssCantrcvmore then x.so
      else { x.so with soRcv := sbappend x.so.soRcv (mAdj x.m x.hdroptlen) } }

/-- The out-of-order path. -/
def outOfOrder (e : InEnv) (x : InSt) : Conn × Bool :=
  let r := tcpReass e.tiqe x.conn x.th (mAdj x.m x.hdroptlen) x.tlen
  ({ r.1 with tp := { r.1.tp with acknow := true } }, r.2)

/-- The segment text: the connection and `TH_FIN`. -/
def doData (e : InEnv) (x : InSt) : Conn × Bool :=
  if hasText x then
    if inOrder x then (inOrderConn x, x.th.thFlags.fin) else outOfOrder e x
  else (x.conn, false)

/-- The FIN step: `socantrcvmore` and `rcv_nxt++`. -/
def finAdvance (c : Conn) : Conn :=
  if c.tp.tState.haveRcvdFin then c
  else
    { tp := { c.tp with acknow := true, rcvNxt := c.tp.rcvNxt + 1 }, so := socantrcvmore c.so }

/-- The state switch of a FIN. -/
def finState (c : Conn) : Conn :=
  match c.tp.tState with
  | .synReceived | .established => { c with tp := { c.tp with tState := .closeWait } }
  | .finWait1 => { c with tp := { c.tp with tState := .closing } }
  | .finWait2 => enterTimeWait c
  | .timeWait => { c with tp := { c.tp with timer2msl := 2 * TCPTV_MSL } }
  | _ => c

/-- FIN processing. -/
def doFin (fin : Bool) (c : Conn) : Conn := if fin then finState (finAdvance c) else c

/-- The end of `tcp_input`. -/
def inputOutput (e : InEnv) (needoutput : Bool) (c : Conn) : Res :=
  if needoutput ∨ c.tp.acknow then callOutput e.out c else ⟨c, false, []⟩

/-! ## The whole function -/

/-- The phases of the synchronized states up to ACK processing. -/
def inputChecks (e : InEnv) (x : InSt) : Flow := do
  let x ← afterClose (leftTrim x)
  let x ← rightTrim e x
  let x ← checkRst e x
  let x ← checkSyn e x
  checkAck x

/-- The phases of the synchronized states in front of the ACK tests. -/
def inputAck (e : InEnv) (s : Seg) (c : Conn) : Flow :=
  inputChecks e (inputSetup e s c) >>= ackSynReceived

/-- The phases in front of `step6`. -/
def inputHead (e : InEnv) (s : Seg) (x : InSt) : Flow :=
  match x.tp.tState with
  | .listen => (inputListen e s x).map trimThenStep6
  | .synSent => (inputSynSent e x).map trimThenStep6
  | _ => do
    let x ← inputChecks e x
    let x ← ackSynReceived x
    ackProcess e x

/-- The phases from `step6` on. -/
def inputTail (e : InEnv) (x : InSt) : Res :=
  let y := step6 x
  let r := doData e y
  inputOutput e y.needoutput (doFin r.2 r.1)

/-- `tcp_input`, for a segment of a connection. -/
def tcpInput (e : InEnv) (s : Seg) (c : Conn) : Res :=
  if c.tp.tState = .closed then ⟨c, false, []⟩
  else
    match inputHead e s (inputSetup e s c) with
    | .error r => r
    | .ok x => inputTail e x

end TnNet
