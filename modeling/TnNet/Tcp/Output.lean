import TnNet.Tcp.Defs

/-!
# `tcp_output`

Transcription of `tn_tcp_output.c`.  One pass from the label `again` is `tcpOutputPass`; it is
cut into

* `planTp`, `planLen`, `planFin` — length, flags and the window-shrink branch;
* `tcpOutputWanted` — the reasons to send;
* `quietTp` — no reason to send, with the persist test;
* `synTp`, `sendLen`, `sendFin` — the label `send` up to the header allocation;
* `finBackTp`, `sendWindow`, `advanceTp` — sequence number, advertised window, timers;
* `sentTp` — what follows a successful `ip_output`.

`tcpOutputLoop` repeats the pass while `sendalot` is set.  The loop has structural fuel; a pass
that repeats has sent data, so `sb_cc + 2` passes are never used up (`tcpOutput`).

The outcomes of `mb_get`, `m_copy` and `ip_output` of each pass are inputs (`SendEnv`).

Principal results: `tcpOutputPass_cases` says what a pass can do, `tcpOutputLoop_rule` and
`tcpOutput_invariant` are the induction rules for the whole call, and `tcpOutput_kept` says what
a call does not write.
-/

set_option autoImplicit false

namespace TnNet

open SeqArith

/-- Outcomes of the calls one pass of `tcp_output` makes. -/
structure SendEnv where
  mbGet : Bool := true
  mCopy : Bool := true
  ipOutput : Int := 0
  deriving DecidableEq, Repr

/-- `tcp_outflags[]`. -/
def tcpOutflags : TcpState → ThFlags
  | .closed => { rst := true, ack := true }
  | .listen => {}
  | .synSent => { syn := true }
  | .synReceived => { syn := true, ack := true }
  | .established => { ack := true }
  | .closeWait => { ack := true }
  | .finWait1 => { fin := true, ack := true }
  | .closing => { fin := true, ack := true }
  | .lastAck => { fin := true, ack := true }
  | .finWait2 => { ack := true }
  | .timeWait => { ack := true }

/-- `tcp_setpersist`. -/
def tcpSetpersist (tp : Tcpcb) : Tcpcb :=
  { tp with
    timerPersist := rangeset ((tp.tSrtt / 4 + tp.tRttvar) / 2 * tcpBackoff tp.tRxtshift)
      TCPTV_PERSMIN TCPTV_PERSMAX
    tRxtshift := if tp.tRxtshift < TCP_MAXRXTSHIFT then tp.tRxtshift + 1 else tp.tRxtshift }

/-! ## Length and flags -/

/-- `off`. -/
def sndOff (tp : Tcpcb) : Int := sdist tp.sndNxt tp.sndUna

/-- `_min(snd_wnd, snd_cwnd)` as a `long`. -/
def sndWin (tp : Tcpcb) : Int :=
  (if tp.sndWnd < tp.sndCwnd then tp.sndWnd else tp.sndCwnd).toInt

/-- The usable window: a forced probe into a closed window has one byte. -/
def useWin (tp : Tcpcb) : Int := if tp.tForce ∧ sndWin tp = 0 then 1 else sndWin tp

/-- A forced call that finds an open window leaves the persist state. -/
def forceTp (tp : Tcpcb) : Tcpcb :=
  if tp.tForce ∧ sndWin tp ≠ 0 then { tp with timerPersist := 0, tRxtshift := 0 } else tp

/-- `len` before it is cut to what can be sent. -/
def rawLen (c : Conn) : Int := min (c.so.soSnd.sbCc : Int) (useWin c.tp) - sndOff c.tp

/-- The control block after the length computation: a window that shrank to zero cancels the
    retransmit timer and pulls `snd_nxt` back. -/
def planTp (c : Conn) : Tcpcb :=
  if rawLen c < 0 ∧ useWin c.tp = 0 then
    { forceTp c.tp with timerRexmt := 0, sndNxt := c.tp.sndUna }
  else forceTp c.tp

/-- `len` before the label `send`. -/
def planLen (c : Conn) : Int := min (max (rawLen c) 0) c.tp.tMaxseg

/-- `sendalot` before the label `send`. -/
def planAlot (c : Conn) : Bool := decide (c.tp.tMaxseg < max (rawLen c) 0)

/-- `TH_FIN` in `flags`: dropped while data remains behind the segment. -/
def planFin (c : Conn) : Bool :=
  (tcpOutflags c.tp.tState).fin &&
    !seqLt ((planTp c).sndNxt + BitVec.ofInt 32 (planLen c))
      (c.tp.sndUna + BitVec.ofNat 32 c.so.soSnd.sbCc)

/-! ## Reasons to send -/

/-- Sender silly window avoidance: is the data worth a segment? -/
def dataWanted (idle : Bool) (c : Conn) : Bool :=
  decide (planLen c ≠ 0) &&
    (decide (planLen c = c.tp.tMaxseg) ||
      ((idle || c.tp.nodelay) && decide ((c.so.soSnd.sbCc : Int) ≤ planLen c + sndOff c.tp)) ||
      c.tp.tForce ||
      (decide ((c.tp.maxSndwnd.toNat : Int) / 2 ≤ planLen c) && decide (0 < c.tp.maxSndwnd.toNat)) ||
      seqLt (planTp c).sndNxt c.tp.sndMax)

/-- How far the window to offer runs ahead of the window known to the peer. -/
def advWin (c : Conn) : Int :=
  (BitVec.ofInt 32 (sbspace c.so.soRcv) - (c.tp.rcvAdv - c.tp.rcvNxt)).toInt

/-- Is a window update worth a segment? -/
def updateWanted (c : Conn) : Bool :=
  decide (0 < sbspace c.so.soRcv) &&
    ((decide (c.so.soSnd.sbCc = 0) && decide (2 * (c.tp.tMaxseg : Int) ≤ advWin c)) ||
      decide ((c.so.soRcv.sbHiwat : Int) ≤ 2 * advWin c))

/-- The tests between the length computation and the label `send`. -/
def tcpOutputWanted (idle : Bool) (c : Conn) : Bool :=
  dataWanted idle c || updateWanted c || c.tp.acknow ||
    (tcpOutflags c.tp.tState).syn || (tcpOutflags c.tp.tState).rst ||
    seqGt c.tp.sndUp c.tp.sndUna ||
    (planFin c && (!c.tp.sentfin || (planTp c).sndNxt == c.tp.sndUna))

/-- No reason to send: enter the persist state if data waits and no timer runs. -/
def quietTp (c : Conn) : Tcpcb :=
  if c.so.soSnd.sbCc ≠ 0 ∧ (planTp c).timerRexmt = 0 ∧ (planTp c).timerPersist = 0 then
    tcpSetpersist { planTp c with tRxtshift := 0 }
  else planTp c

/-! ## Sending -/

/-- The length of the options. -/
def optLen (c : Conn) : Nat := if (tcpOutflags c.tp.tState).syn ∧ ¬ c.tp.noopt then 4 else 0

/-- A SYN is always sent from `iss`, with an MSS option. -/
def synTp (c : Conn) : Tcpcb :=
  if (tcpOutflags c.tp.tState).syn then
    let tp := { planTp c with sndNxt := c.tp.iss }
    if c.tp.noopt then tp else (tcpMss tp 0 none).1
  else planTp c

/-- `len > t_maxseg - optlen`. -/
def optCuts (c : Conn) : Bool := decide (((synTp c).tMaxseg : Int) - optLen c < planLen c)

/-- `len` of the segment. -/
def sendLen (c : Conn) : Int := if optCuts c then (synTp c).tMaxseg - optLen c else planLen c

/-- `TH_FIN` of the segment. -/
def sendFin (c : Conn) : Bool := planFin c && !optCuts c

/-- `sendalot`. -/
def sendAlot (c : Conn) : Bool := planAlot c || optCuts c

/-- `m_copy(so_snd.sb_mb, off, len)`. -/
def mCopy (ok : Bool) (data : List UInt8) (off len : Int) : Option (List UInt8) :=
  if ok ∧ 0 ≤ off ∧ 0 < len ∧ off + len ≤ data.length then
    some ((data.drop off.toNat).take len.toNat)
  else none

/-- The data of the segment, if the buffers for it could be allocated. -/
def sendData (e : SendEnv) (c : Conn) : Option (List UInt8) :=
  if e.mbGet then
    if sendLen c ≠ 0 then mCopy e.mCopy c.so.soSnd.sbData (sndOff c.tp) (sendLen c) else some []
  else none

/-- `if(flags & TH_FIN && TF_SENTFIN && snd_nxt == snd_max) snd_nxt--`. -/
def finBack (fin : Bool) (tp : Tcpcb) : Tcpcb :=
  if fin ∧ tp.sentfin ∧ tp.sndNxt = tp.sndMax then { tp with sndNxt := tp.sndNxt - 1 } else tp

/-- The control block when the header is filled in (the source makes the test twice). -/
def finBackTp (c : Conn) : Tcpcb := finBack (sendFin c) (finBack (sendFin c) (synTp c))

/-- The window to advertise, before the `TH_RST` test. -/
def sendWindow (c : Conn) : Int :=
  let win := sbspace c.so.soRcv
  let win := if win < (c.so.soRcv.sbHiwat : Int) / 4 ∧ win < (synTp c).tMaxseg then 0 else win
  -- an unsigned comparison: a negative `win` counts as large
  let win := if win < 0 ∨ tcpRecvspace < win then tcpRecvspace else win
  let adv := sdist c.tp.rcvAdv c.tp.rcvNxt
  if win < adv then adv else win

/-- The window to advertise. -/
def sendWin (c : Conn) : Int := if (tcpOutflags c.tp.tState).rst then 0 else sendWindow c

/-- The flags of the segment: `TH_PUSH` when the buffer is emptied, `TH_URG` with urgent data. -/
def sendFlags (c : Conn) : ThFlags :=
  { tcpOutflags c.tp.tState with
    fin := sendFin c
    push := decide (sendLen c ≠ 0 ∧ sndOff c.tp + sendLen c = c.so.soSnd.sbCc)
    urg := seqGt c.tp.sndUp (finBackTp c).sndNxt }

/-- `th_urp`. -/
def sendUrp (c : Conn) : BitVec 16 :=
  if seqGt c.tp.sndUp (finBackTp c).sndNxt then
    BitVec.ofNat 16 (min (c.tp.sndUp - (finBackTp c).sndNxt).toNat 65535)
  else 0

/-- The packet given to `ip_output`. -/
def sendEmit (e : SendEnv) (c : Conn) (data : List UInt8) : Emit :=
  { thSeq := (finBackTp c).sndNxt
    thAck := c.tp.rcvNxt
    thFlags := sendFlags c
    thWin := BitVec.ofInt 16 (sendWin c)
    thUrp := sendUrp c
    data := data
    forced := c.tp.tForce
    error := e.ipOutput }

/-- Without urgent data `snd_up` is dragged along. -/
def urgTp (c : Conn) : Tcpcb :=
  if seqGt c.tp.sndUp (finBackTp c).sndNxt then finBackTp c
  else { finBackTp c with sndUp := c.tp.sndUna }

/-- `snd_nxt` behind the segment. -/
def nextSeq (syn fin : Bool) (len : Int) (nxt : BitVec 32) : BitVec 32 :=
  nxt + (if syn then 1 else 0) + (if fin then 1 else 0) + BitVec.ofInt 32 len

/-- The transmit state: advance `snd_nxt` and `snd_max`, time the segment, arm the retransmit
    timer. -/
def transmitTp (syn fin : Bool) (len : Int) (tp : Tcpcb) : Tcpcb :=
  let nxt := nextSeq syn fin len tp.sndNxt
  let tp1 := { tp with sndNxt := nxt, sentfin := tp.sentfin || fin }
  let tp2 :=
    if seqGt nxt tp.sndMax then
      if tp.tRtt = 0 then { tp1 with sndMax := nxt, tRtt := 1, tRtseq := tp.sndNxt }
      else { tp1 with sndMax := nxt }
    else tp1
  if tp.timerRexmt = 0 ∧ nxt ≠ tp.sndUna then
    if tp.timerPersist ≠ 0 then
      { tp2 with timerRexmt := tp.tRxtcur, timerPersist := 0, tRxtshift := 0 }
    else { tp2 with timerRexmt := tp.tRxtcur }
  else tp2

/-- The persist state: only `snd_max` is set. -/
def probeTp (len : Int) (tp : Tcpcb) : Tcpcb :=
  if seqGt (tp.sndNxt + BitVec.ofInt 32 len) tp.sndMax then
    { tp with sndMax := tp.sndNxt + BitVec.ofInt 32 len }
  else tp

/-- The control block when the packet is handed to `ip_output`. -/
def advanceTp (c : Conn) : Tcpcb :=
  if ¬ c.tp.tForce ∨ (urgTp c).timerPersist = 0 then
    transmitTp (tcpOutflags c.tp.tState).syn (sendFin c) (sendLen c) (urgTp c)
  else probeTp (sendLen c) (urgTp c)

/-- After a successful `ip_output`: remember the advertised window, the ACK is sent. -/
def sentTp (c : Conn) : Tcpcb :=
  let tp := advanceTp c
  let tp :=
    if 0 < sendWin c ∧ seqGt (tp.rcvNxt + BitVec.ofInt 32 (sendWin c)) tp.rcvAdv then
      { tp with rcvAdv := tp.rcvNxt + BitVec.ofInt 32 (sendWin c) }
    else tp
  { tp with acknow := false, delack := false }

/-- The label `out`: the control block and the return value for an error. -/
def outTp (error : Int) (tp : Tcpcb) : Tcpcb × Int :=
  if error = ENOBUFS then ({ tp with sndCwnd := BitVec.ofNat 32 tp.tMaxseg }, 0)
  else if (error = EHOSTUNREACH ∨ error = ENETDOWN) ∧ tp.tState.haveRcvdSyn then
    ({ tp with tSofterror := error }, 0)
  else (tp, error)

/-! ## One pass and the loop -/

/-- What a pass leaves: the control block, the packet, and the return value (`none` when the
    pass is repeated). -/
structure Pass where
  tp : Tcpcb
  emit : Option Emit
  ret : Option Int

/-- One pass from the label `again`. -/
def tcpOutputPass (e : SendEnv) (idle : Bool) (c : Conn) : Pass :=
  if tcpOutputWanted idle c then
    match sendData e c with
    | none => ⟨(outTp ENOBUFS (synTp c)).1, none, some 0⟩
    | some data =>
      if e.ipOutput ≠ 0 then
        ⟨(outTp e.ipOutput (advanceTp c)).1, some (sendEmit e c data),
          some (outTp e.ipOutput (advanceTp c)).2⟩
      else
        ⟨sentTp c, some (sendEmit e c data), if sendAlot c then none else some 0⟩
  else ⟨quietTp c, none, some 0⟩

/-- The result of a call: the connection, the packets and the return value. -/
structure OutRes where
  conn : Conn
  out : List Emit
  err : Int

/-- The rest of the call behind a pass. -/
def Pass.andThen (p : Pass) (c : Conn) (again : Conn → OutRes) : OutRes :=
  match p.ret with
  | some err => ⟨{ c with tp := p.tp }, p.emit.toList, err⟩
  | none =>
    ⟨(again { c with tp := p.tp }).conn, p.emit.toList ++ (again { c with tp := p.tp }).out,
      (again { c with tp := p.tp }).err⟩

/-- The passes of a call. -/
def tcpOutputLoop (idle : Bool) : Nat → (Nat → SendEnv) → Conn → OutRes
  | 0, _, c => ⟨c, [], 0⟩
  | fuel + 1, env, c =>
    (tcpOutputPass (env 0) idle c).andThen c fun c' =>
      tcpOutputLoop idle fuel (fun i => env (i + 1)) c'

/-- An idle connection restarts with one segment. -/
def idleTp (tp : Tcpcb) : Tcpcb :=
  if tp.sndMax = tp.sndUna ∧ tp.tRxtcur ≤ tp.tIdle then
    { tp with sndCwnd := BitVec.ofNat 32 tp.tMaxseg }
  else tp

/-- `tcp_output`. -/
def tcpOutput (env : Nat → SendEnv) (c : Conn) : OutRes :=
  tcpOutputLoop (decide (c.tp.sndMax = c.tp.sndUna)) (c.so.soSnd.sbCc + 2) env
    { c with tp := idleTp c.tp }

/-! ## What a pass can do -/

/-- The four ways through a pass. -/
inductive PassCase (e : SendEnv) (idle : Bool) (c : Conn) : Pass → Prop where
  | quiet (hw : tcpOutputWanted idle c = false) : PassCase e idle c ⟨quietTp c, none, some 0⟩
  | nobufs (hw : tcpOutputWanted idle c = true) (hd : sendData e c = none) :
      PassCase e idle c ⟨(outTp ENOBUFS (synTp c)).1, none, some 0⟩
  | failed (data : List UInt8) (hw : tcpOutputWanted idle c = true)
      (hd : sendData e c = some data) (he : e.ipOutput ≠ 0) :
      PassCase e idle c ⟨(outTp e.ipOutput (advanceTp c)).1, some (sendEmit e c data),
        some (outTp e.ipOutput (advanceTp c)).2⟩
  | sent (data : List UInt8) (hw : tcpOutputWanted idle c = true)
      (hd : sendData e c = some data) (he : e.ipOutput = 0) :
      PassCase e idle c ⟨sentTp c, some (sendEmit e c data), if sendAlot c then none else some 0⟩

theorem tcpOutputPass_cases (e : SendEnv) (idle : Bool) (c : Conn) :
    PassCase e idle c (tcpOutputPass e idle c) := by
  unfold tcpOutputPass
  split
  · rename_i hw
    split
    · rename_i hd
      exact .nobufs hw hd
    · rename_i data hd
      split
      · rename_i he
        exact .failed data hw hd he
      · rename_i he
        exact .sent data hw hd (not_not.mp he)
  · rename_i hw
    exact .quiet (by simpa using hw)

/-- **Induction rule for the passes of a call.**  `A` holds of the packets and the connection
    in front of every pass, `B` behind the last one. -/
theorem tcpOutputLoop_rule {idle : Bool} {A B : List Emit → Conn → Prop}
    (hnext : ∀ e out c, A out c → (tcpOutputPass e idle c).ret = none →
      A (out ++ (tcpOutputPass e idle c).emit.toList) { c with tp := (tcpOutputPass e idle c).tp })
    (hlast : ∀ e out c, A out c →
      B (out ++ (tcpOutputPass e idle c).emit.toList) { c with tp := (tcpOutputPass e idle c).tp })
    (hstop : ∀ out c, A out c → B out c) (fuel : Nat) :
    ∀ (env : Nat → SendEnv) (out : List Emit) (c : Conn), A out c →
      B (out ++ (tcpOutputLoop idle fuel env c).out) (tcpOutputLoop idle fuel env c).conn := by
  induction fuel with
  | zero =>
    intro env out c h
    simpa [tcpOutputLoop] using hstop out c h
  | succ fuel ih =>
    intro env out c h
    rw [tcpOutputLoop]
    have hn := hnext (env 0) out c h
    have hl := hlast (env 0) out c h
    generalize tcpOutputPass (env 0) idle c = p at hn hl ⊢
    unfold Pass.andThen
    split
    · exact hl
    · rename_i hr
      have := ih (fun i => env (i + 1)) _ _ (hn hr)
      rwa [List.append_assoc] at this

/-- The induction rule for a call. -/
theorem tcpOutput_rule {A B : List Emit → Conn → Prop}
    (hnext : ∀ e idle out c, A out c → (tcpOutputPass e idle c).ret = none →
      A (out ++ (tcpOutputPass e idle c).emit.toList) { c with tp := (tcpOutputPass e idle c).tp })
    (hlast : ∀ e idle out c, A out c →
      B (out ++ (tcpOutputPass e idle c).emit.toList) { c with tp := (tcpOutputPass e idle c).tp })
    (hstop : ∀ out c, A out c → B out c) (env : Nat → SendEnv) (c : Conn)
    (h : A [] { c with tp := idleTp c.tp }) : B (tcpOutput env c).out (tcpOutput env c).conn := by
  unfold tcpOutput
  generalize decide (c.tp.sndMax = c.tp.sndUna) = idle
  exact tcpOutputLoop_rule (fun e out c => hnext e idle out c) (fun e out c => hlast e idle out c)
    hstop _ env [] _ h

/-- The induction rule for a call whose first pass is known. -/
theorem tcpOutput_first_rule {A B : List Emit → Conn → Prop} (env : Nat → SendEnv) (c : Conn)
    {p : Pass} (hp : p = tcpOutputPass (env 0) (decide (c.tp.sndMax = c.tp.sndUna))
      { c with tp := idleTp c.tp })
    (hdone : p.ret ≠ none → B p.emit.toList { c with tp := p.tp })
    (hmore : p.ret = none → A p.emit.toList { c with tp := p.tp })
    (hnext : ∀ e idle out c, A out c → (tcpOutputPass e idle c).ret = none →
      A (out ++ (tcpOutputPass e idle c).emit.toList) { c with tp := (tcpOutputPass e idle c).tp })
    (hlast : ∀ e idle out c, A out c →
      B (out ++ (tcpOutputPass e idle c).emit.toList) { c with tp := (tcpOutputPass e idle c).tp })
    (hstop : ∀ out c, A out c → B out c) : B (tcpOutput env c).out (tcpOutput env c).conn := by
  unfold tcpOutput
  rw [tcpOutputLoop, ← hp]
  unfold Pass.andThen
  split
  · rename_i hr
    exact hdone (by simp [hr])
  · rename_i hr
    exact tcpOutputLoop_rule (fun e out c => hnext e _ out c) (fun e out c => hlast e _ out c)
      hstop _ _ _ _ (hmore hr)

/-- **Invariant rule.**  What the idle test and every pass preserve, a call preserves. -/
theorem tcpOutput_invariant {P : Conn → Prop}
    (hidle : ∀ c, P c → P { c with tp := idleTp c.tp })
    (hpass : ∀ e idle c, P c → P { c with tp := (tcpOutputPass e idle c).tp })
    (env : Nat → SendEnv) (c : Conn) (h : P c) : P (tcpOutput env c).conn :=
  tcpOutput_rule (A := fun _ c => P c) (B := fun _ c => P c) (fun e idle _ c h _ => hpass e idle c h)
    (fun e idle _ c h => hpass e idle c h) (fun _ _ h => h) env c (hidle c h)

/-! ## What a call keeps -/

/-- The control block without the fields `tcp_output` writes. -/
def outKept (tp : Tcpcb) : Tcpcb :=
  { tp with
    sndNxt := 0, sndMax := 0, sndUp := 0, rcvAdv := 0, sndCwnd := 0, tRtseq := 0, tRxtshift := 0
    tMaxseg := 0, acknow := false, delack := false, sentfin := false, timerRexmt := 0
    timerPersist := 0, tRtt := 0, tSofterror := 0 }

/-- The length computation changes only these fields. -/
theorem planTp_eq (c : Conn) :
    planTp c = { c.tp with
      sndNxt := (planTp c).sndNxt, timerRexmt := (planTp c).timerRexmt
      timerPersist := (planTp c).timerPersist, tRxtshift := (planTp c).tRxtshift } := by
  unfold planTp forceTp
  split <;> split <;> rfl

theorem planTp_kept (c : Conn) : outKept (planTp c) = outKept c.tp := by
  unfold planTp forceTp
  split <;> split <;> rfl

theorem quietTp_kept (c : Conn) : outKept (quietTp c) = outKept c.tp := by
  rw [← planTp_kept c]
  unfold quietTp
  split <;> rfl

theorem tcpMss_eq (tp : Tcpcb) (offer : Nat) (ifMtu : Option Int) :
    (tcpMss tp offer ifMtu).1 = { tp with
      tMaxseg := (tcpMss tp offer ifMtu).1.tMaxseg
      sndCwnd := (tcpMss tp offer ifMtu).1.sndCwnd } := by
  have h : ∀ (mss : Int) (cwnd : BitVec 32) (tp' : Tcpcb),
      tp' = { (if mss < tp.tMaxseg ∨ offer ≠ 0 then { tp with tMaxseg := mss.toNat % 65536 }
        else tp) with sndCwnd := cwnd } →
      tp' = { tp with tMaxseg := tp'.tMaxseg, sndCwnd := tp'.sndCwnd } := by
    rintro mss cwnd tp' rfl
    split <;> rfl
  exact h _ _ _ rfl

/-- From the length computation to the header only these fields change. -/
theorem synTp_eq (c : Conn) :
    synTp c = { planTp c with
      sndNxt := (synTp c).sndNxt, tMaxseg := (synTp c).tMaxseg, sndCwnd := (synTp c).sndCwnd } := by
  have h : ∀ tp, tp = (tcpMss { planTp c with sndNxt := c.tp.iss } 0 none).1 →
      tp = { planTp c with sndNxt := tp.sndNxt, tMaxseg := tp.tMaxseg, sndCwnd := tp.sndCwnd } := by
    intro tp htp
    rw [tcpMss_eq] at htp
    rw [htp]
  unfold synTp
  dsimp only
  split
  · split
    · rfl
    · exact h _ rfl
  · rfl

theorem finBack_eq (fin : Bool) (tp : Tcpcb) :
    finBack fin tp = { tp with sndNxt := (finBack fin tp).sndNxt } := by
  unfold finBack
  split <;> rfl

theorem urgTp_eq (c : Conn) :
    urgTp c = { planTp c with
      sndNxt := (finBackTp c).sndNxt, sndUp := (urgTp c).sndUp, tMaxseg := (synTp c).tMaxseg
      sndCwnd := (synTp c).sndCwnd } := by
  have h : finBackTp c = { planTp c with
      sndNxt := (finBackTp c).sndNxt, tMaxseg := (synTp c).tMaxseg
      sndCwnd := (synTp c).sndCwnd } := by
    calc
      finBackTp c = { finBack (sendFin c) (synTp c) with sndNxt := (finBackTp c).sndNxt } :=
        finBack_eq _ _
      _ = { synTp c with sndNxt := (finBackTp c).sndNxt } := by rw [finBack_eq]
      _ = _ := by rw [synTp_eq]
  have hu : (finBackTp c).sndUp = (planTp c).sndUp := by rw [h]
  unfold urgTp
  split
  · rw [hu]
    exact h
  · conv_lhs => rw [h]

theorem synTp_kept (c : Conn) : outKept (synTp c) = outKept c.tp := by
  rw [← planTp_kept c, synTp_eq]
  rfl

theorem urgTp_kept (c : Conn) : outKept (urgTp c) = outKept c.tp := by
  rw [← planTp_kept c, urgTp_eq]
  rfl

theorem advanceTp_kept (c : Conn) : outKept (advanceTp c) = outKept c.tp := by
  rw [← urgTp_kept c]
  unfold advanceTp transmitTp probeTp
  dsimp only
  repeat' split
  all_goals rfl

theorem outTp_kept (error : Int) (tp : Tcpcb) : outKept (outTp error tp).1 = outKept tp := by
  unfold outTp
  split
  · rfl
  · split <;> rfl

theorem sentTp_kept (c : Conn) : outKept (sentTp c) = outKept c.tp := by
  rw [← advanceTp_kept c]
  unfold sentTp
  dsimp only
  split <;> rfl

theorem tcpOutputPass_kept (e : SendEnv) (idle : Bool) (c : Conn) :
    outKept (tcpOutputPass e idle c).tp = outKept c.tp := by
  have h := tcpOutputPass_cases e idle c
  generalize tcpOutputPass e idle c = p at h ⊢
  cases h with
  | quiet => exact quietTp_kept c
  | nobufs => rw [outTp_kept, synTp_kept]
  | failed => rw [outTp_kept, advanceTp_kept]
  | sent => exact sentTp_kept c

/-- **Frame.**  A call of `tcp_output` writes neither the socket nor the fields of `outKept`. -/
theorem tcpOutput_kept (env : Nat → SendEnv) (c : Conn) :
    (tcpOutput env c).conn.so = c.so ∧ outKept (tcpOutput env c).conn.tp = outKept c.tp := by
  refine tcpOutput_invariant (P := fun c' => c'.so = c.so ∧ outKept c'.tp = outKept c.tp)
    ?_ ?_ env c ⟨rfl, rfl⟩
  · rintro c' ⟨h1, h2⟩
    refine ⟨h1, h2 ▸ ?_⟩
    unfold idleTp
    split <;> rfl
  · rintro e idle c' ⟨h1, h2⟩
    exact ⟨h1, (tcpOutputPass_kept e idle c').trans h2⟩

/-- A call of `tcp_output` made by another function: the state it starts from and the outcomes
    of its passes. -/
structure OutCall where
  env : Nat → SendEnv
  pre : Conn

def OutCall.res (k : OutCall) : OutRes := tcpOutput k.env k.pre

end TnNet
