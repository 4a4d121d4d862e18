import TnNet.Tcp.Close
import TnNet.Tcp.RecvText

/-!
# Segments from outside the stream

What `tcp_input` does with a segment of a sender that does not know the sequence numbers.

* `tcpInput_established_gone` — a segment closes an `ESTABLISHED` connection exactly when it has
  `RST` set and the trimming at the left edge moves its sequence number to `rcv_nxt`.
* `blind_reset` — when this is the case for segments with the exact sequence number only.
* `tcpInput_right` — a segment behind the receive window, in every synchronized state.
-/

set_option autoImplicit false

namespace TnNet

open SeqArith

/-! ## The sequence number behind the trimming -/

theorem leftSyn_thSeq (x : InSt) :
    At x.th.thSeq (leftSyn x).th.thSeq x.tiflags.syn.toNat ∧ (leftSyn x).tlen = x.tlen := by
  unfold leftSyn
  cases x.tiflags.syn
  · exact ⟨At.base _, rfl⟩
  · exact ⟨(At.base x.th.thSeq).addNat 1, rfl⟩

/-- **The left edge.**  The trimming moves `th_seq` to `rcv_nxt` exactly when the segment begins
    there or reaches up to it. -/
theorem leftTrim_thSeq {x : InSt} (hlen : x.tlen < 65536) :
    (leftTrim x).th.thSeq = x.tp.rcvNxt ↔
      sdist x.tp.rcvNxt x.th.thSeq = 0 ∨
        (0 < sdist x.tp.rcvNxt x.th.thSeq ∧
          sdist x.tp.rcvNxt x.th.thSeq - x.tiflags.syn.toNat ≤ x.tlen) := by
  have hb := sdist_bounds x.tp.rcvNxt x.th.thSeq
  have hn : At x.th.thSeq x.tp.rcvNxt (sdist x.tp.rcvNxt x.th.thSeq) := by
    simpa using (At.base x.th.thSeq).of_sdist x.tp.rcvNxt
  have hs : x.tiflags.syn.toNat ≤ 1 := Bool.toNat_le _
  obtain ⟨hsyn, htl⟩ := leftSyn_thSeq x
  push_cast at hb
  unfold leftTrim
  dsimp only
  generalize sdist x.tp.rcvNxt x.th.thSeq = d at *
  have htd : (if x.tiflags.syn = true then d - 1 else d) = d - x.tiflags.syn.toNat := by
    cases x.tiflags.syn <;> simp
  rw [htd]
  by_cases h0 : 0 < d
  · rw [if_pos h0]
    split
    · -- the whole segment is old: it ends at `rcv_nxt` or in front of it
      rename_i hall
      have hall' : (x.tlen : Int) ≤ d - x.tiflags.syn.toNat := by
        simp only [leftAll, Bool.or_eq_true, decide_eq_true_eq, Bool.and_eq_true] at hall
        omega
      have hat := hsyn.addNat (leftSyn x).tlen
      rw [htl] at hat
      show (leftSyn x).th.thSeq + BitVec.ofNat 32 (leftSyn x).tlen = _ ↔ _
      rw [htl, hat.eq_iff hn (by omega) (by omega)]
      omega
    · rename_i hall
      have hall' : d - x.tiflags.syn.toNat ≤ (x.tlen : Int) := by
        simp only [leftAll, Bool.or_eq_true, decide_eq_true_eq, not_or] at hall
        omega
      have hat := hsyn.addNat (d - x.tiflags.syn.toNat).toNat
      show (leftSyn x).th.thSeq + BitVec.ofNat 32 (d - x.tiflags.syn.toNat).toNat = _ ↔ _
      rw [hat.eq_iff hn (by omega) (by omega)]
      omega
  · rw [if_neg h0]
    have h := (At.base x.th.thSeq).eq_iff hn (by omega) (by omega)
    rw [h]
    omega

/-- The segment begins at `rcv_nxt`, or its sequence numbers reach up to it. -/
def coversNxt (c : Conn) (s : Seg) : Bool :=
  let d := sdist c.tp.rcvNxt s.th.thSeq
  decide (d = 0) || (decide (0 < d) && decide (d - s.th.thFlags.syn.toNat ≤ s.tlen))

/-! ## Established connections -/

/-- The phase does not end the connection; `I` holds of the locals it lets through. -/
def Survives (I : InSt → Prop) : Flow → Prop
  | .ok x => I x
  | .error r => r.gone = false

theorem Survives.bind {I J : InSt → Prop} {f : Flow} {g : InSt → Flow} (hf : Survives I f)
    (hg : ∀ x, I x → Survives J (g x)) : Survives J (f >>= g) := by
  cases f with
  | ok x => exact hg x hf
  | error r => exact hf

theorem exitDropafterack_survives {I : InSt → Prop} (e : InEnv) (rst : Bool) (c : Conn) :
    Survives I (exitDropafterack e rst c) := by
  unfold exitDropafterack
  split <;> exact rfl

/-- The locals of an established connection. -/
def InSt.Established (x : InSt) : Prop := x.tp.tState = .established

/-- A `RST` that is not at `rcv_nxt`, if there is one. -/
def InSt.RstOff (x : InSt) : Prop :=
  x.Established ∧ (x.tiflags.rst = true → x.th.thSeq ≠ x.tp.rcvNxt)

variable {e : InEnv} {x : InSt}

theorem timeWaitRestart_established (hst : x.Established) : timeWaitRestart x = false := by
  have hst' : x.tp.tState = .established := hst
  simp [timeWaitRestart, hst']

theorem afterClose_established (hst : x.Established) : afterClose x = .ok x := by
  unfold afterClose
  rw [show x.tp.tState = .established from hst]
  exact if_neg fun h => absurd h.2.1 (by decide)

theorem rightTrim_survives (h : x.RstOff) : Survives InSt.RstOff (rightTrim e x) := by
  unfold rightTrim
  dsimp only
  rw [timeWaitRestart_established h.1]
  split
  · split
    · simp only [Bool.false_eq_true, if_false]
      split
      · exact h
      · exact exitDropafterack_survives _ _ _
    · exact h
  · exact h

/-- The trimming at the right edge lets a segment at `rcv_nxt` through. -/
theorem rightTrim_atNxt {w : Int} (hst : x.Established) (hseq : x.th.thSeq = x.tp.rcvNxt)
    (hw : x.tp.rcvWnd = BitVec.ofInt 32 w) (h0 : 0 ≤ w) (h1 : w < 2147483648)
    (hlen : x.tlen < 65536) :
    ∃ y, rightTrim e x = .ok y ∧ y.th.thSeq = y.tp.rcvNxt ∧ y.Established ∧
      y.tiflags.rst = x.tiflags.rst := by
  have hp : At x.tp.rcvNxt x.th.thSeq 0 := by
    rw [hseq]
    exact At.base _
  have hd := rightDrop_at (At.base x.tp.rcvNxt) hp hw (by omega) (by omega)
  unfold rightTrim
  dsimp only
  rw [timeWaitRestart_established hst, hd]
  split
  · split
    · -- the window is closed
      have hw0 : x.tp.rcvWnd = 0 := by
        rw [hw, show w = 0 by omega]
        rfl
      simp only [Bool.false_eq_true, if_false]
      rw [if_pos ⟨hw0, hseq⟩]
      exact ⟨_, rfl, hseq, hst, rfl⟩
    · exact ⟨_, rfl, hseq, hst, rfl⟩
  · exact ⟨_, rfl, hseq, hst, rfl⟩

theorem checkRst_closes (hst : x.Established) (hseq : x.th.thSeq = x.tp.rcvNxt)
    (hr : x.tiflags.rst = true) : ∃ r, checkRst e x = .error r ∧ r.gone = true := by
  refine ⟨⟨tcpClose { x.conn with so := { x.so with soError := ECONNRESET } }, true, []⟩, ?_, rfl⟩
  unfold checkRst
  rw [if_pos hr, show x.tp.tState = .established from hst]
  exact if_neg (not_not.mpr hseq)

theorem checkRst_survives (h : x.RstOff) : Survives InSt.Established (checkRst e x) := by
  unfold checkRst
  split
  · rename_i hr
    rw [show x.tp.tState = .established from h.1]
    dsimp only
    rw [if_pos (h.2 hr)]
    exact exitDropafterack_survives _ _ _
  · exact h.1

theorem checkSyn_survives (hst : x.Established) : Survives InSt.Established (checkSyn e x) := by
  unfold checkSyn
  cases x.tiflags.syn
  · exact hst
  · rw [if_pos rfl, if_pos (show x.tp.tState = .established from hst)]
    exact rfl

theorem checkAck_survives (hst : x.Established) : Survives InSt.Established (checkAck x) := by
  unfold checkAck
  split
  · exact hst
  · exact rfl

theorem ackSynReceived_established (hst : x.Established) : ackSynReceived x = .ok x := by
  unfold ackSynReceived
  rw [show x.tp.tState = .established from hst]
  exact if_neg (by decide)

theorem ackDup_survives (hst : x.Established) : Survives InSt.Established (ackDup e x) := by
  unfold ackDup
  split
  · split
    · exact hst
    · dsimp only
      split
      · exact rfl
      · split
        · exact rfl
        · exact hst
  · exact hst

theorem ackProcess_survives (hst : x.Established) :
    Survives InSt.Established (ackProcess e x) := by
  have hs : (ackConn x).tp.tState = .established := (ackConn_tState x).trans hst
  unfold ackProcess ackNew
  split
  · exact ackDup_survives hst
  · split
    · exact exitDropafterack_survives _ _ _
    · have hok : ∀ y : InSt, y.Established →
          Survives InSt.Established (ackState e (ourfinisacked x) y) := by
        intro y hy
        unfold ackState
        rw [show y.tp.tState = .established from hy]
        exact hy
      exact hok _ hs

theorem inputTail_gone (e : InEnv) (x : InSt) : (inputTail e x).gone = false := by
  unfold inputTail inputOutput
  dsimp only
  split <;> rfl

/-! ## What the trimming at the left edge keeps -/

theorem leftTrim_tlen_le (x : InSt) : (leftTrim x).tlen ≤ x.tlen := by
  have h := (leftSyn_thSeq x).2
  unfold leftTrim
  dsimp only
  generalize (if x.tiflags.syn = true then _ else _ : Int) = todrop
  split
  · split
    · show (leftSyn x).tlen - (leftSyn x).tlen ≤ _
      omega
    · show (leftSyn x).tlen - _ ≤ _
      omega
  · exact le_refl _

theorem leftTrim_rcvWnd (x : InSt) : (leftTrim x).tp.rcvWnd = x.tp.rcvWnd := by
  unfold InSt.tp
  rcases leftTrim_conn x with h | h
  · rw [h]
  · rw [h]
    rfl

theorem leftTrim_rcvNxt (x : InSt) : (leftTrim x).tp.rcvNxt = x.tp.rcvNxt := by
  unfold InSt.tp
  rcases leftTrim_conn x with h | h
  · rw [h]
  · rw [h]
    rfl

variable {s : Seg} {c : Conn}

theorem inputSetup_rcvNxt (e : InEnv) (s : Seg) (c : Conn) :
    (inputSetup e s c).tp.rcvNxt = c.tp.rcvNxt :=
  congrArg RcvSide.rcvNxt (inputSetup_rcvSide e s c)

/-- Behind the left edge the segment begins at `rcv_nxt` exactly when it covers it. -/
theorem leftTrim_covers (e : InEnv) (s : Seg) (c : Conn) :
    (leftTrim (inputSetup e s c)).th.thSeq = (leftTrim (inputSetup e s c)).tp.rcvNxt ↔
      coversNxt c s = true := by
  have h := leftTrim_thSeq (x := inputSetup e s c) s.tlen_lt
  rw [leftTrim_rcvNxt, h, inputSetup_rcvNxt]
  simp only [coversNxt, Bool.or_eq_true, Bool.and_eq_true, decide_eq_true_eq]
  rfl

/-! ## Resets -/

theorem inputChecks_survives (hst : c.tp.tState = .established)
    (h : ¬ (s.th.thFlags.rst = true ∧ coversNxt c s = true)) :
    Survives InSt.Established (inputChecks e (inputSetup e s c)) := by
  have hs := (inputSetup_sameAck e s c).leftTrim
  have hl : (leftTrim (inputSetup e s c)).Established := hs.tState.trans hst
  have hoff : (leftTrim (inputSetup e s c)).RstOff :=
    ⟨hl, fun hr hseq => h ⟨hs.rst ▸ hr, (leftTrim_covers e s c).mp hseq⟩⟩
  unfold inputChecks
  rw [afterClose_established hl]
  refine (rightTrim_survives hoff).bind fun y hy => ?_
  refine (checkRst_survives hy).bind fun y hy => ?_
  exact (checkSyn_survives hy).bind fun y hy => checkAck_survives hy

theorem inputChecks_closes (hst : c.tp.tState = .established) (hr : s.th.thFlags.rst = true)
    (hcov : coversNxt c s = true) :
    ∃ r, inputChecks e (inputSetup e s c) = .error r ∧ r.gone = true := by
  have hs := (inputSetup_sameAck e s c).leftTrim
  have hl : (leftTrim (inputSetup e s c)).Established := hs.tState.trans hst
  have hw := inputRcvWnd_bounds c
  have hlen := leftTrim_tlen_le (inputSetup e s c)
  obtain ⟨y, hy, hseq, hest, hrst⟩ := rightTrim_atNxt (e := e) hl
    ((leftTrim_covers e s c).mpr hcov) (leftTrim_rcvWnd _) hw.1 hw.2 (hlen.trans_lt s.tlen_lt)
  obtain ⟨r, hr1, hr2⟩ := checkRst_closes (e := e) hest hseq (hrst.trans (hs.rst.trans hr))
  refine ⟨r, ?_, hr2⟩
  unfold inputChecks
  rw [afterClose_established hl]
  show (rightTrim e _ >>= _) = _
  rw [hy]
  show (checkRst e y >>= _) = _
  rw [hr1]
  rfl

/-- **What closes an established connection**: a `RST` that covers `rcv_nxt`. -/
theorem tcpInput_established_gone (e : InEnv) (hst : c.tp.tState = .established) :
    (tcpInput e s c).gone = (s.th.thFlags.rst && coversNxt c s) := by
  have hne : c.tp.tState ≠ .closed := by
    rw [hst]
    decide
  have hhead : inputHead e s (inputSetup e s c) =
      (inputChecks e (inputSetup e s c) >>= fun x => ackSynReceived x >>= ackProcess e) := by
    unfold inputHead
    rw [inputSetup_tState, hst]
  unfold tcpInput
  rw [if_neg hne, hhead]
  by_cases h : s.th.thFlags.rst = true ∧ coversNxt c s = true
  · obtain ⟨r, hr1, hr2⟩ := inputChecks_closes (e := e) hst h.1 h.2
    rw [hr1, h.1, h.2]
    exact hr2
  · have hsurv : Survives InSt.Established (inputChecks e (inputSetup e s c) >>= fun x =>
        ackSynReceived x >>= ackProcess e) := by
      refine (inputChecks_survives hst h).bind fun y hy => ?_
      rw [ackSynReceived_established hy]
      exact ackProcess_survives hy
    have hf : (s.th.thFlags.rst && coversNxt c s) = false := by
      simpa [Bool.and_eq_true] using h
    rw [hf]
    revert hsurv
    cases (inputChecks e (inputSetup e s c) >>= fun x => ackSynReceived x >>= ackProcess e) with
    | error r => exact id
    | ok y => exact fun _ => inputTail_gone e y

/-- A reset segment closes the connection only with the exact sequence number, and never with
    `SYN`. -/
def ExactReset (s : Seg) (c : Conn) (r : Res) : Prop :=
  (s.th.thFlags.rst = true → r.gone = true → s.th.thSeq = c.tp.rcvNxt) ∧
    (s.th.thFlags.syn = true → r.gone = false)

/-- **Blind resets.**  The code closes an established connection for an inexact reset exactly
    when the segment covers `rcv_nxt` without beginning there, or has `SYN` set. -/
theorem blind_reset (e : InEnv) (s : Seg) (c : Conn) (hst : c.tp.tState = .established) :
    ExactReset s c (tcpInput e s c) ↔
      ¬ (s.th.thFlags.rst = true ∧ coversNxt c s = true ∧
        (s.th.thFlags.syn = true ∨ s.th.thSeq ≠ c.tp.rcvNxt)) := by
  unfold ExactReset
  rw [tcpInput_established_gone e hst]
  cases s.th.thFlags.rst <;> cases s.th.thFlags.syn <;> cases coversNxt c s <;> simp

/-- An established connection without data; `rcv_nxt` is `101`. -/
def openConn : Conn := { tp := { tState := .established, rcvNxt := 101 }, so := newSocket }

/-- One old byte and `RST`. -/
def oldReset : Seg := Seg.ofByte { thSeq := 100, thFlags := { rst := true } } 0

theorem blind_reset_old : ExactReset oldReset openConn (tcpInput {} oldReset openConn) ↔
    ¬ (oldReset.th.thFlags.rst = true ∧ coversNxt openConn oldReset = true ∧
      (oldReset.th.thFlags.syn = true ∨ oldReset.th.thSeq ≠ openConn.tp.rcvNxt)) :=
  blind_reset {} oldReset openConn rfl

instance (s : Seg) (c : Conn) (r : Res) : Decidable (ExactReset s c r) :=
  inferInstanceAs (Decidable (_ ∧ _))

/-- A `RST` whose sequence number is one too low closes the connection. -/
theorem old_reset_closes :
    ∃ c, (Machine.run connMachine (some (activeOpen 1 newSocket)) (connectEvents 1000)).1 = some c ∧
      c.tp.tState = .established ∧ ¬ ExactReset oldReset c (tcpInput {} oldReset c) := by
  have h : (Machine.run connMachine (some (activeOpen 1 newSocket)) (connectEvents 1000)).1.any
      (fun c => decide (c.tp.tState = .established ∧
        ¬ ExactReset oldReset c (tcpInput {} oldReset c))) = true := by
    decide +kernel
  obtain ⟨c, hc, hp⟩ := (Option.any_eq_true _ _).mp h
  exact ⟨c, hc, of_decide_eq_true hp⟩

/-! ## Segments behind the receive window -/

/-- The states between the handshake and `TIME_WAIT`. -/
def TcpState.synchronized : TcpState → Bool
  | .established => true
  | .closeWait => true
  | .finWait1 => true
  | .finWait2 => true
  | .closing => true
  | .lastAck => true
  | _ => false

/-- The window is open, and the segment begins and ends behind its right edge. -/
structure BehindWindow (c : Conn) (s : Seg) : Prop where
  wnd : 0 < inputRcvWnd c
  start : inputRcvWnd c ≤ sdist s.th.thSeq c.tp.rcvNxt
  finish : 0 < sdist (s.th.thSeq + BitVec.ofNat 32 s.tlen)
    (c.tp.rcvNxt + BitVec.ofInt 32 (inputRcvWnd c))

instance (c : Conn) (s : Seg) : Decidable (BehindWindow c s) :=
  decidable_of_iff (0 < inputRcvWnd c ∧ inputRcvWnd c ≤ sdist s.th.thSeq c.tp.rcvNxt ∧
      0 < sdist (s.th.thSeq + BitVec.ofNat 32 s.tlen)
        (c.tp.rcvNxt + BitVec.ofInt 32 (inputRcvWnd c)))
    ⟨fun ⟨h1, h2, h3⟩ => ⟨h1, h2, h3⟩, fun ⟨h1, h2, h3⟩ => ⟨h1, h2, h3⟩⟩

/-- New data for a socket without a descriptor, behind `CLOSE_WAIT`. -/
def AfterClose (c : Conn) (s : Seg) : Prop :=
  c.so.ssNofdref = true ∧ TcpState.closeWait.num < c.tp.tState.num ∧ s.tlen ≠ 0

instance (c : Conn) (s : Seg) : Decidable (AfterClose c s) :=
  inferInstanceAs (Decidable (_ ∧ _))

theorem BehindWindow.leftTrim (h : BehindWindow c s) (e : InEnv) :
    TnNet.leftTrim (inputSetup e s c) = inputSetup e s c := by
  have hneg : sdist (inputSetup e s c).tp.rcvNxt s.th.thSeq ≤ 0 := by
    have h1 := h.wnd
    have h2 := h.start
    have h3 := sdist_neg c s
    rw [inputSetup_rcvNxt, h3]
    unfold seqOff
    split <;> split at * <;> omega
  unfold TnNet.leftTrim
  exact if_neg (not_lt.mpr hneg)

/-- All of the segment is behind the right edge. -/
theorem BehindWindow.rightDrop (h : BehindWindow c s) (e : InEnv) :
    0 < TnNet.rightDrop (inputSetup e s c) ∧
      (s.tlen : Int) ≤ TnNet.rightDrop (inputSetup e s c) := by
  obtain ⟨hw, hstart, hend⟩ := h
  have hlen := s.tlen_lt
  have hb := sdist_bounds s.th.thSeq c.tp.rcvNxt
  have h0 := At.base c.tp.rcvNxt
  have hseq : At c.tp.rcvNxt s.th.thSeq (sdist s.th.thSeq c.tp.rcvNxt) := by
    simpa using h0.of_sdist s.th.thSeq
  have hd : TnNet.rightDrop (inputSetup e s c) = sdist (s.th.thSeq + BitVec.ofNat 32 s.tlen)
      (c.tp.rcvNxt + BitVec.ofInt 32 (inputRcvWnd c)) := by
    rw [← inputSetup_rcvNxt e s c]
    rfl
  rw [hd]
  refine ⟨hend, ?_⟩
  -- the end is less than `2 ^ 31` behind the edge, or it would compare as in front of it
  have hdiff := (hseq.addNat s.tlen).sub_eq (h0.add (inputRcvWnd c))
  have hval : sdist (s.th.thSeq + BitVec.ofNat 32 s.tlen)
      (c.tp.rcvNxt + BitVec.ofInt 32 (inputRcvWnd c)) =
      (sdist s.th.thSeq c.tp.rcvNxt + s.tlen - (0 + inputRcvWnd c)).bmod (2 ^ 32) := by
    conv_lhs => unfold sdist
    rw [hdiff, BitVec.toInt_ofInt]
  rw [hval] at hend ⊢
  generalize sdist s.th.thSeq c.tp.rcvNxt = d at *
  generalize inputRcvWnd c = w at *
  simp only [Int.bmod] at hend ⊢
  push_cast at *
  omega

theorem BehindWindow.rcvWnd_ne (h : BehindWindow c s) (e : InEnv) :
    (inputSetup e s c).tp.rcvWnd ≠ 0 := by
  intro h0
  have hw := inputRcvWnd_bounds c
  have h1 : BitVec.ofInt 32 (inputRcvWnd c) = BitVec.ofInt 32 0 := h0
  have h2 := congrArg BitVec.toInt h1
  rw [BitVec.toInt_ofInt, BitVec.toInt_ofInt, Int.bmod_eq_of_le_mul_two (by omega) (by omega)] at h2
  have h3 : Int.bmod 0 (2 ^ 32) = 0 := rfl
  have h4 := h.wnd
  omega

theorem timeWaitRestart_synchronized (hst : c.tp.tState.synchronized = true) (e : InEnv) :
    timeWaitRestart (inputSetup e s c) = false := by
  have hne : c.tp.tState ≠ .timeWait := by
    intro hs
    rw [hs] at hst
    cases hst
  unfold timeWaitRestart
  rw [inputSetup_tState, decide_eq_false hne]
  simp

/-- **Behind the window** nothing of the segment gets past the trimming. -/
theorem inputChecks_behind (e : InEnv) (hst : c.tp.tState.synchronized = true)
    (h : BehindWindow c s) :
    inputChecks e (inputSetup e s c) =
      if AfterClose c s then exitClose (inputSetup e s c).conn
      else exitDropafterack e s.th.thFlags.rst (inputSetup e s c).conn := by
  obtain ⟨hd0, hd1⟩ := h.rightDrop e
  have hright : rightTrim e (inputSetup e s c) =
      exitDropafterack e s.th.thFlags.rst (inputSetup e s c).conn := by
    unfold rightTrim
    dsimp only
    rw [if_pos hd0, if_pos (show ((inputSetup e s c).tlen : Int) ≤ _ from hd1),
      timeWaitRestart_synchronized hst, if_neg (by decide), if_neg fun hp => h.rcvWnd_ne e hp.1]
    rfl
  have hclose : afterClose (inputSetup e s c) =
      if AfterClose c s then exitClose (inputSetup e s c).conn else .ok (inputSetup e s c) := by
    unfold afterClose AfterClose
    rw [inputSetup_tState]
    rfl
  unfold inputChecks
  rw [h.leftTrim e, hclose]
  split
  · rfl
  · show (rightTrim e (inputSetup e s c) >>= _) = _
    rw [hright]
    unfold exitDropafterack
    split <;> rfl

/-- **A segment behind the window.**  New data for a socket without a descriptor closes the
    connection; any other segment is answered by a call of `tcp_output`, a `RST` by nothing. -/
theorem tcpInput_behind (e : InEnv) (hst : c.tp.tState.synchronized = true)
    (h : BehindWindow c s) :
    tcpInput e s c =
      if AfterClose c s then ⟨tcpClose (inputSetup e s c).conn, true, []⟩
      else if s.th.thFlags.rst then ⟨(inputSetup e s c).conn, false, []⟩
      else callOutput e.out { (inputSetup e s c).conn with
        tp := { (inputSetup e s c).tp with acknow := true } } := by
  have hne : c.tp.tState ≠ .closed := by
    intro hs
    rw [hs] at hst
    cases hst
  have hhead : inputHead e s (inputSetup e s c) =
      (inputChecks e (inputSetup e s c) >>= fun x => ackSynReceived x >>= ackProcess e) := by
    unfold inputHead
    rw [inputSetup_tState]
    cases hc : c.tp.tState <;> first | rfl | (rw [hc] at hst; cases hst)
  unfold tcpInput
  rw [if_neg hne, hhead, inputChecks_behind e hst h]
  by_cases hc : AfterClose c s
  · rw [if_pos hc, if_pos hc]
    rfl
  · rw [if_neg hc, if_neg hc]
    unfold exitDropafterack
    cases s.th.thFlags.rst <;> rfl

theorem dooptionsLoop_noSyn (ifMtu : Int) (fuel : Nat) :
    ∀ (cp : List UInt8) (tp : Tcpcb), dooptionsLoop false ifMtu fuel cp tp = tp := by
  induction fuel with
  | zero => exact fun _ _ => rfl
  | succ fuel ih =>
    intro cp tp
    cases cp with
    | nil => rfl
    | cons opt cp =>
      unfold dooptionsLoop
      rw [ih cp tp]
      cases cp with
      | nil => simp
      | cons optlen body => simp [ih]

/-- The control block without the clocks, the window and what an option sets. -/
def inputKept (tp : Tcpcb) : Tcpcb :=
  { tp with tIdle := 0, timerKeep := 0, rcvWnd := 0, tMaxseg := 0, sndCwnd := 0 }

theorem inputSetup_kept (e : InEnv) (s : Seg) (c : Conn) :
    inputKept (inputSetup e s c).tp = inputKept c.tp := by
  have h := field_of_kept inputKept (tcpDooptions_kept s.th.thFlags.syn e.ifMtu s.opt
    { c.tp with tIdle := 0, timerKeep := tcpKeepidle }) fun _ => rfl
  unfold inputSetup InSt.tp
  dsimp only
  split
  · rfl
  · exact h

theorem inputSetup_noSyn (e : InEnv) (c : Conn) (hsyn : s.th.thFlags.syn = false) :
    (inputSetup e s c).tp.tMaxseg = c.tp.tMaxseg ∧
      (inputSetup e s c).tp.sndCwnd = c.tp.sndCwnd := by
  unfold inputSetup InSt.tp tcpDooptions
  dsimp only
  rw [hsyn, dooptionsLoop_noSyn]
  split <;> exact ⟨rfl, rfl⟩

/-- Without a SYN to send, a pass leaves `t_maxseg` alone. -/
theorem tcpOutputPass_tMaxseg {e : SendEnv} {idle : Bool} {c : Conn}
    (hsyn : (tcpOutflags c.tp.tState).syn = false) :
    (tcpOutputPass e idle c).tp.tMaxseg = c.tp.tMaxseg := by
  have hplan : (planTp c).tMaxseg = c.tp.tMaxseg := by rw [planTp_eq]
  have hs : (synTp c).tMaxseg = c.tp.tMaxseg := by
    unfold synTp
    rw [hsyn]
    exact hplan
  have hu : (urgTp c).tMaxseg = c.tp.tMaxseg := by
    rw [urgTp_eq]
    exact hs
  have ha : (advanceTp c).tMaxseg = c.tp.tMaxseg := by
    rw [← hu]
    unfold advanceTp transmitTp probeTp
    dsimp only
    repeat' split
    all_goals rfl
  have hout : ∀ err tp, (outTp err tp).1.tMaxseg = tp.tMaxseg := by
    intro err tp
    unfold outTp
    repeat' split
    all_goals rfl
  have h := tcpOutputPass_cases e idle c
  generalize tcpOutputPass e idle c = p at h ⊢
  cases h with
  | quiet =>
    rw [← hplan]
    unfold quietTp
    split <;> rfl
  | nobufs => rw [hout, hs]
  | failed => rw [hout, ha]
  | sent =>
    rw [← ha]
    unfold sentTp
    dsimp only
    split <;> rfl

theorem tcpOutput_tMaxseg (env : Nat → SendEnv) {c : Conn}
    (hsyn : (tcpOutflags c.tp.tState).syn = false) :
    (tcpOutput env c).conn.tp.tMaxseg = c.tp.tMaxseg := by
  have h := tcpOutput_invariant (P := fun c' => (tcpOutflags c'.tp.tState).syn = false ∧
    c'.tp.tMaxseg = c.tp.tMaxseg) ?_ ?_ env c ⟨hsyn, rfl⟩
  · exact h.2
  · rintro c' ⟨h1, h2⟩
    unfold idleTp
    split <;> exact ⟨h1, h2⟩
  · rintro e idle c' ⟨h1, h2⟩
    have hst : (tcpOutputPass e idle c').tp.tState = c'.tp.tState :=
      field_of_kept Tcpcb.tState (tcpOutputPass_kept e idle c') fun _ => rfl
    refine ⟨?_, (tcpOutputPass_tMaxseg h1).trans h2⟩
    show (tcpOutflags (tcpOutputPass e idle c').tp.tState).syn = false
    rwa [hst]

/-- The segment has no effect but on the clocks, on `rcv_wnd` and through its options; without
    `RST` it is answered by one call of `tcp_output`. -/
structure Answered (c : Conn) (s : Seg) (r : Res) : Prop where
  gone : r.gone = false
  so : r.conn.so = c.so
  kept : outKept (inputKept r.conn.tp) = outKept (inputKept c.tp)
  tMaxseg : s.th.thFlags.syn = false → r.conn.tp.tMaxseg = c.tp.tMaxseg
  rst : s.th.thFlags.rst = true → r.calls = [] ∧ inputKept r.conn.tp = inputKept c.tp ∧
    (s.th.thFlags.syn = false → r.conn.tp.sndCwnd = c.tp.sndCwnd)
  reply : s.th.thFlags.rst = false → ∃ k : OutCall, r.calls = [k] ∧ r.conn = k.res.conn ∧
    k.pre.so = c.so ∧ inputKept k.pre.tp = inputKept { c.tp with acknow := true } ∧
      (s.th.thFlags.syn = false → k.pre.tp.sndCwnd = c.tp.sndCwnd)

theorem answered_rst (e : InEnv) (hr : s.th.thFlags.rst = true) :
    Answered c s ⟨(inputSetup e s c).conn, false, []⟩ where
  gone := rfl
  so := rfl
  kept := congrArg outKept (inputSetup_kept e s c)
  tMaxseg hs := (inputSetup_noSyn e c hs).1
  rst _ := ⟨rfl, inputSetup_kept e s c, fun hs => (inputSetup_noSyn e c hs).2⟩
  reply h := by
    rw [hr] at h
    cases h

theorem answered_reply (e : InEnv) (hst : c.tp.tState.synchronized = true)
    (hr : s.th.thFlags.rst = false) :
    Answered c s (callOutput e.out { (inputSetup e s c).conn with
      tp := { (inputSetup e s c).tp with acknow := true } }) := by
  have hsyn : (tcpOutflags (inputSetup e s c).tp.tState).syn = false := by
    rw [inputSetup_tState]
    cases hc : c.tp.tState <;> first | rfl | (rw [hc] at hst; cases hst)
  have hkept : inputKept { (inputSetup e s c).tp with acknow := true } =
      inputKept { c.tp with acknow := true } := by
    have h := congrArg (fun tp => { tp with acknow := true }) (inputSetup_kept e s c)
    exact h
  obtain ⟨ho1, ho2⟩ := tcpOutput_kept e.out { (inputSetup e s c).conn with
    tp := { (inputSetup e s c).tp with acknow := true } }
  constructor
  case gone => rfl
  case so => exact ho1
  case kept =>
    have h1 := congrArg inputKept ho2
    have h2 := congrArg outKept hkept
    exact h1.trans h2
  case tMaxseg =>
    intro hs
    have hmax := tcpOutput_tMaxseg e.out (c := { (inputSetup e s c).conn with
      tp := { (inputSetup e s c).tp with acknow := true } }) hsyn
    exact hmax.trans (inputSetup_noSyn e c hs).1
  case rst =>
    intro h
    rw [hr] at h
    cases h
  case reply =>
    exact fun _ => ⟨_, rfl, rfl, rfl, hkept, fun hs => (inputSetup_noSyn e c hs).2⟩

/-- **An out-of-window segment.**  It closes the connection only by the rule for new data behind
    the user's close, and is `Answered` otherwise. -/
theorem behind_window (e : InEnv) (s : Seg) (c : Conn) (hst : c.tp.tState.synchronized = true)
    (h : BehindWindow c s) :
    (AfterClose c s → (tcpInput e s c).gone = true) ∧
      (¬ AfterClose c s → Answered c s (tcpInput e s c)) := by
  rw [tcpInput_behind e hst h]
  refine ⟨fun hc => by rw [if_pos hc], fun hc => ?_⟩
  rw [if_neg hc]
  cases hr : s.th.thFlags.rst
  · exact answered_reply e hst hr
  · exact answered_rst e hr

/-- A SYN far behind the window, with an MSS option. -/
def farSyn : Seg where
  th := { thSeq := 5000, thFlags := { syn := true } }
  opt := [2, 4, 0, 100]
  m := [{ mData := List.replicate 44 0 }]
  hlen := 44
  hlen_le := by decide
  len_lt := by decide

theorem behind_window_syn : (AfterClose openConn farSyn → (tcpInput {} farSyn openConn).gone = true) ∧
    (¬ AfterClose openConn farSyn → Answered openConn farSyn (tcpInput {} farSyn openConn)) :=
  behind_window {} farSyn openConn rfl (by decide +kernel)

/-- The option of a SYN behind the window sets `t_maxseg` of an established connection. -/
theorem far_syn_sets_maxseg :
    ∃ c, (Machine.run connMachine (some (activeOpen 1 newSocket)) (connectEvents 1000)).1 = some c ∧
      c.tp.tState = .established ∧ BehindWindow c farSyn ∧
      (tcpInput {} farSyn c).conn.tp.tMaxseg ≠ c.tp.tMaxseg := by
  have h : (Machine.run connMachine (some (activeOpen 1 newSocket)) (connectEvents 1000)).1.any
      (fun c => decide (c.tp.tState = .established ∧ BehindWindow c farSyn ∧
        (tcpInput {} farSyn c).conn.tp.tMaxseg ≠ c.tp.tMaxseg)) = true := by
    decide +kernel
  obtain ⟨c, hc, hp⟩ := (Option.any_eq_true _ _).mp h
  exact ⟨c, hc, of_decide_eq_true hp⟩

end TnNet
