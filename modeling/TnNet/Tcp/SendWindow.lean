import TnNet.Tcp.SendStream

/-!
# The offered window

The peer offers the right edge `th_ack + th_win` with every ACK.  Positions are counted from
`iss`, as for the stream: `unaPos` is the position of `snd_una`.  `offerMachine` is the machine of
a connection with the largest edge offered so far.

* `WindowOk` — `snd_wnd` has 16 bits and `snd_una + snd_wnd` does not pass the edge;
* `sender_respects_window` — it holds in every run that meets `fitsWindow`, and data sent without
  `t_force` stays below the edge.

`tcp_input` subtracts the acknowledged bytes from `snd_wnd` without looking at its value, and takes
a window update from a segment whose ACK is older than `snd_una`.  Both break the bound
(`shrunk_window_wraps`).
-/

set_option autoImplicit false

namespace TnNet

open SeqArith

/-- The position of `snd_una`: the bytes that have left the send buffer, our SYN and our FIN. -/
def unaPos (c : Conn) : Int :=
  let acked := c.so.soSnd.sbLog.length - c.so.soSnd.sbCc
  acked + (c.tp.sndUna - c.tp.iss - BitVec.ofNat 32 acked).toNat

/-- A connection and the largest right edge the peer has offered. -/
structure Offered where
  conn : Conn
  edge : Int

/-- The edge with the offer of an arriving segment; an ACK of unsent data offers nothing. -/
def Offered.offer (o : Offered) : Event → Int
  | .input _ s =>
    if s.th.thFlags.ack = true ∧ seqGt s.th.thAck o.conn.tp.sndMax = false then
      max o.edge (unaPos o.conn + sdist s.th.thAck o.conn.tp.sndUna + s.th.thWin.toNat)
    else o.edge
  | _ => o.edge

/-- A call of `tcp_output` and the edge offered up to it. -/
structure OfferedCall where
  call : OutCall
  edge : Int

/-- The machine of a connection with the offers of the peer. -/
def offerMachine : Machine.Step Offered Event OfferedCall := fun o ev =>
  ((connStep o.conn ev).next.map fun c => ⟨c, o.offer ev⟩,
    (connStep o.conn ev).calls.map fun k => ⟨k, o.offer ev⟩)

/-- The segment acknowledges no more data than the window holds, and updates the window only with
    an ACK of `snd_una`. -/
def fitsWindow (c : Conn) : Event → Bool
  | .input e s =>
    (match inputAck e s c with
      | .ok x => seqLeq x.th.thAck x.tp.sndUna || seqGt x.th.thAck x.tp.sndMax ||
          decide (ackDrop x ≤ x.tp.sndWnd.toNat)
      | .error _ => true) &&
    (match inputHead e s (inputSetup e s c) with
      | .ok x => !windowUpdate x || decide (x.th.thAck = x.tp.sndUna)
      | .error _ => true)
  | _ => true

/-- The position behind the data of a packet. -/
def dataEnd (c : Conn) (em : Emit) : Int :=
  unaPos c + sdist em.thSeq c.tp.sndUna + em.data.length

/-! ## The invariant -/

/-- The invariant of the send window, with the edge `W`. -/
structure WindowOk (W : Int) (c : Conn) (U : Int) : Prop where
  pos : StreamPos c U
  open_una : c.tp.tState.sendOpen = true → 1 ≤ U
  wnd_le : c.tp.sndWnd.toNat ≤ 65535
  unacked : U = 0 → c.tp.sndWnd.toNat = 0 ∨ c.so.ssCantsendmore = true
  edge : c.tp.sndWnd.toNat = 0 ∨ U + c.tp.sndWnd.toNat ≤ W ∨
    (c.so.soSnd.sbCc = 0 ∧ c.so.ssCantsendmore = true)

/-- The invariant in front of the ACK tests. -/
structure WindowOkAck (W : Int) (x : InSt) (U : Int) : Prop where
  pos : StreamPosAck x U
  open_una : x.tp.tState.sendOpen = true → 1 ≤ U ∨
    (seqLeq x.th.thAck x.tp.sndUna = false ∧ seqGt x.th.thAck x.tp.sndMax = false)
  wnd_le : x.tp.sndWnd.toNat ≤ 65535
  unacked : U = 0 → x.tp.sndWnd.toNat = 0 ∨ x.so.ssCantsendmore = true
  edge : x.tp.sndWnd.toNat = 0 ∨ U + x.tp.sndWnd.toNat ≤ W ∨
    (x.so.soSnd.sbCc = 0 ∧ x.so.ssCantsendmore = true)

theorem WindowOk.mono {W W' U : Int} {c : Conn} (h : WindowOk W c U) (hle : W ≤ W') :
    WindowOk W' c U :=
  ⟨h.pos, h.open_una, h.wnd_le, h.unacked, h.edge.imp_right fun he => he.imp_left (by omega)⟩

theorem windowOk_extra (W : Int) : SndExtra (WindowOk W) where
  keep {c c' U} h hd hl hw hcon hopen hoff := by
    have hcc : c'.so.soSnd.sbCc = c.so.soSnd.sbCc := congrArg List.length hd
    refine ⟨streamPos_extra.keep h.pos hd hl hw hcon hopen hoff, fun ho => h.open_una (hopen ho),
      ?_, fun h0 => ?_, ?_⟩
    · rw [hw]
      exact h.wnd_le
    · rw [hw]
      exact (h.unacked h0).imp_right hoff
    · rw [hw, hcc]
      exact h.edge.imp_right fun he => he.imp_right fun g => ⟨g.1, hoff g.2⟩

theorem WindowOk.append {W U : Int} {c : Conn} {chunk : List UInt8} (h : WindowOk W c U)
    (ha : Appends c chunk) : WindowOk W (appendConn c chunk) U := by
  have hU := h.pos.connected ha.isconnected
  refine ⟨h.pos.append ha, h.open_una, h.wnd_le, fun h0 => by omega, ?_⟩
  rcases h.edge with g | g | ⟨-, g⟩
  · exact .inl g
  · exact .inr (.inl g)
  · rw [ha.cantsendmore] at g
    cases g

/-- An ACK that the window covers keeps the right edge. -/
theorem WindowOkAck.acked {W U N M A : Int} {x : InSt} (h : WindowOkAck W x U)
    (hinv : SndInv x.conn U N M) (hA : At x.tp.iss x.th.thAck A) (h1 : U < A) (h2 : A ≤ M)
    (hfit : ackDrop x ≤ x.tp.sndWnd.toNat) : WindowOk W (ackConn x) A := by
  have hpos := h.pos.acked hinv hA h1 h2
  have hU := hinv.una_nonneg
  have hd : (ackDrop x : Int) = min (A - U) x.so.soSnd.sbCc := hinv.ackDrop hA h1 h2
  have hcc : (ackConn x).so.soSnd.sbCc = x.so.soSnd.sbCc - ackDrop x := List.length_drop
  have hcant : (ackConn x).so.ssCantsendmore = x.so.ssCantsendmore := rfl
  have hlog : (ackConn x).so.soSnd.sbLog = x.so.soSnd.sbLog := rfl
  have hwle := h.wnd_le
  have hwnd : (ackConn x).tp.sndWnd.toNat = x.tp.sndWnd.toNat - ackDrop x := by
    have hk : (ackCwnd (ackTimer x.th.thAck (ackDeflate x.tp))).sndWnd = x.tp.sndWnd :=
      field_of_kept Tcpcb.sndWnd (ackRtt_kept x) fun _ => rfl
    show ((ackCwnd (ackTimer x.th.thAck (ackDeflate x.tp))).sndWnd -
      BitVec.ofNat 32 (ackDrop x)).toNat = _
    rw [hk, BitVec.toNat_sub_of_le, BitVec.toNat_ofNat, Nat.mod_eq_of_lt (by omega)]
    rw [BitVec.le_def, BitVec.toNat_ofNat, Nat.mod_eq_of_lt (by omega)]
    exact hfit
  refine ⟨hpos, fun _ => by omega, by omega, fun h0 => by omega, ?_⟩
  rw [hwnd]
  rcases h.edge with g | g | ⟨g1, g2⟩
  · left
    omega
  · by_cases hle : A - U ≤ x.so.soSnd.sbCc
    · right
      left
      omega
    · -- our SYN or our FIN is acknowledged, with all data in front of it
      by_cases hU0 : U = 0
      · rcases h.unacked hU0 with g0 | g0
        · left
          omega
        · exact .inr (.inr ⟨by omega, g0⟩)
      · have hc : x.so.ssCantsendmore = true := by
          rcases h.pos with hp | ⟨hU', -⟩
          · rcases hpos.first (by omega) with hf | ⟨-, -, hf⟩
            · rw [hlog, hcc] at hf
              rcases hp.first (by omega) with hf' | ⟨-, -, hf'⟩
              · have hf'' : U + (x.so.soSnd.sbCc : Int) = x.so.soSnd.sbLog.length + 1 := hf'
                omega
              · exact hf'
            · exact hf
          · exact absurd hU' hU0
        exact .inr (.inr ⟨by omega, hc⟩)
  · exact .inr (.inr ⟨by omega, g2⟩)

/-- `unaPos` is the position the invariant of the stream speaks about. -/
theorem StreamPos.unaPos {c : Conn} {U N M : Int} (hp : StreamPos c U) (h : SndInv c U N M) :
    unaPos c = U := by
  obtain ⟨acked, hacked⟩ : ∃ n : Nat, n = c.so.soSnd.sbLog.length - c.so.soSnd.sbCc := ⟨_, rfl⟩
  have hle : c.so.soSnd.sbCc ≤ c.so.soSnd.sbLog.length := h.suffix.length_le
  have hU := h.una_nonneg
  have hb : 0 ≤ U - acked ∧ U - acked ≤ 2 := by
    by_cases h0 : U = 0
    · obtain ⟨g1, g2⟩ := hp.unacked h0
      have : c.so.soSnd.sbLog.length = 0 := by rw [g1]; rfl
      omega
    · rcases hp.first (by omega) with g | ⟨g1, g2, -⟩ <;> omega
  have hw : (c.tp.sndUna - c.tp.iss - BitVec.ofNat 32 acked).toNat = (U - acked).toNat := by
    have h1 := h.una.sub_eq ((At.base c.tp.iss).addNat acked)
    rw [Int.zero_add] at h1
    have h2 : c.tp.sndUna - c.tp.iss - BitVec.ofNat 32 acked =
        c.tp.sndUna - (c.tp.iss + BitVec.ofNat 32 acked) := by
      generalize BitVec.ofNat 32 acked = a
      bv_omega
    rw [h2, h1, BitVec.toNat_ofInt]
    omega
  unfold TnNet.unaPos
  dsimp only
  rw [← hacked, hw]
  omega

/-- The bytes written so far fit in the send buffer behind `snd_una`. -/
theorem StreamPos.log_le {c : Conn} {U N M : Int} (hp : StreamPos c U) (h : SndInv c U N M) :
    c.so.soSnd.sbLog.length ≤ U + (sbreserveMax + 128) + 1 := by
  have hcc := h.cc_le
  have hU := h.una_nonneg
  by_cases h0 : U = 0
  · have hlen : c.so.soSnd.sbLog.length = 0 := by rw [(hp.unacked h0).1]; rfl
    omega
  · rcases hp.first (by omega) with g | ⟨g1, g2, -⟩ <;> omega

/-- The acknowledgements of two states with the same bytes written are near each other. -/
theorem StreamPos.near {c c' : Conn} {U N M U' N' M' : Int} (hp : StreamPos c U) (h : SndInv c U N M)
    (h' : SndInv c' U' N' M') (hlog : c'.so.soSnd.sbLog = c.so.soSnd.sbLog) : U' - U ≤ 300000 := by
  have h1 := hp.log_le h
  have h2 := h'.una_le
  have h3 := h'.nxt_le
  have h4 := h'.log_le
  rw [hlog] at h4
  unfold sbreserveMax at h1
  omega

/-- A window update moves the right edge to one the peer has offered. -/
theorem WindowOk.update {W U N M : Int} {e : InEnv} {s : Seg} {c : Conn} {x : InSt}
    (h : WindowOk W x.conn U) (hinv : SndInv x.conn U N M) (hh : HdrOk s x)
    (hest : x.tp.tState.haveEstablished = true) (hx : inputHead e s (inputSetup e s c) = .ok x)
    (hw : windowUpdate x = true) (heq : x.th.thAck = x.tp.sndUna)
    {U0 N0 M0 : Int} (hinv0 : SndInv c U0 N0 M0) (hp0 : StreamPos c U0) {W0 : Int}
    (hW : W = Offered.offer ⟨c, W0⟩ (.input e s)) : WindowOk W (updateWindow x).conn U := by
  have hack : s.th.thFlags.ack = true := by
    simp only [windowUpdate, Bool.and_eq_true] at hw
    rw [← hh.flag]
    exact hw.1
  have hnl : c.tp.tState ≠ .listen := by
    intro hl
    have hst : (inputSetup e s c).tp.tState = .listen := by rw [inputSetup_tState, hl]
    have hf : (inputSetup e s c).tiflags.ack = true := hack
    unfold inputHead at hx
    rw [hst] at hx
    simp only [inputListen, hf, true_or, or_true, if_true] at hx
    cases hx
  have hframe := inputHead_frame hnl hx
  have hiss : x.conn.tp.iss = c.tp.iss := congrArg Prod.fst hframe
  have hmax : x.conn.tp.sndMax = c.tp.sndMax := congrArg (fun p => p.2.1) hframe
  have hlog : x.conn.so.soSnd.sbLog = c.so.soSnd.sbLog := congrArg (fun p => p.2.2) hframe
  -- the ACK stands for `U`, also when it is compared with the state in front of the segment
  have hA : At c.tp.iss s.th.thAck U := by
    rw [← hh.ack, heq, ← hiss]
    exact hinv.una
  have hnear := hp0.near hinv0 hinv hlog
  have hnear0 := h.pos.near hinv hinv0 hlog.symm
  have hdist : sdist s.th.thAck c.tp.sndUna = U - U0 :=
    hA.sdist hinv0.una (by omega) (by omega)
  have hle : seqGt s.th.thAck c.tp.sndMax = false := by
    have hM : At c.tp.iss c.tp.sndMax M := by
      rw [← hmax, ← hiss]
      exact hinv.max
    have b1 := hinv.una_le
    have b2 := hinv.nxt_le
    have b3 := hinv.span
    rw [seqGt_at hA hM (by omega) (by omega)]
    simp only [decide_eq_false_iff_not]
    omega
  have hWle : U + s.th.thWin.toNat ≤ W := by
    rw [hW]
    unfold Offered.offer
    dsimp only
    rw [if_pos ⟨hack, hle⟩, hp0.unaPos hinv0, hdist]
    omega
  have hwin : x.tiwin.toNat = s.th.thWin.toNat := by
    unfold InSt.tiwin
    rw [hh.win, BitVec.toNat_setWidth]
    have := s.th.thWin.isLt
    omega
  have hwin16 := s.th.thWin.isLt
  unfold updateWindow
  rw [if_pos hw]
  refine ⟨⟨h.pos.connected, h.pos.unacked, h.pos.first⟩, h.open_una, ?_, fun h0 => .inr ?_,
    .inr (.inl ?_)⟩
  · show x.tiwin.toNat ≤ 65535
    omega
  · -- our SYN is not acknowledged: the user has closed
    refine hinv.closed_off ?_
    have hno : x.tp.tState.sendOpen ≠ true := by
      intro ho
      have := h.open_una ho
      omega
    show x.tp.tState.sendClosed = true
    revert hest hno
    cases x.tp.tState <;> simp [TcpState.haveEstablished, TcpState.sendOpen, TcpState.num,
      TcpState.sendClosed]
  · show U + (x.tiwin.toNat : Int) ≤ W
    omega

theorem windowOk_input {W W0 U0 N0 M0 : Int} {e : InEnv} {s : Seg} {c : Conn}
    (hsyn : acksSyn c (.input e s) = true) (hfit : fitsWindow c (.input e s) = true)
    (hinv0 : SndInv c U0 N0 M0) (hp0 : StreamPos c U0)
    (hW : W = Offered.offer ⟨c, W0⟩ (.input e s)) :
    SndInput (WindowOk W) (WindowOkAck W) e s c where
  connect {d d'} h hl hcc hs hw hoff := by
    refine ⟨(streamPos_input hsyn).connect h.pos hl hcc hs hw hoff, fun _ => by omega, ?_,
      fun h0 => by omega, ?_⟩
    · rw [hw]
      exact h.wnd_le
    · rw [hw, hs, hoff]
      exact (h.unacked rfl).imp_right fun g => .inr ⟨hcc, g⟩
  estab {x} h hx hh hst hu hm := by
    obtain ⟨k1, k2, k3, k4, k5⟩ := synReceivedConn_snd x
    have hack := acksSyn_ack hsyn hx hst hu hm
    refine ⟨(streamPos_input hsyn).estab h.pos hx hh hst hu hm, fun _ => .inr ⟨?_, ?_⟩, ?_,
      fun _ => ?_, ?_⟩
    · show seqLeq x.th.thAck (synReceivedConn x).tp.sndUna = false
      rw [k2]
      exact hack
    · show seqGt x.th.thAck (synReceivedConn x).tp.sndMax = false
      rw [k3]
      exact hm
    · show (synReceivedConn x).tp.sndWnd.toNat ≤ 65535
      rw [k4]
      exact h.wnd_le
    · show (synReceivedConn x).tp.sndWnd.toNat = 0 ∨ (synReceivedConn x).so.ssCantsendmore = true
      rw [k4, k5]
      exact h.unacked rfl
    · show (synReceivedConn x).tp.sndWnd.toNat = 0 ∨
        0 + ((synReceivedConn x).tp.sndWnd.toNat : Int) ≤ W ∨
        ((synReceivedConn x).so.soSnd.sbCc = 0 ∧ (synReceivedConn x).so.ssCantsendmore = true)
      rw [k1, k4, k5]
      exact h.edge
  other h hst := ⟨.inl h.pos, fun ho => .inl (h.open_una ho), h.wnd_le, h.unacked, h.edge⟩
  dup h hl := by
    refine ⟨(streamPos_input hsyn).dup h.pos hl, fun ho => ?_, h.wnd_le, h.unacked, h.edge⟩
    rcases h.open_una ho with g | ⟨g, -⟩
    · exact g
    · rw [hl] at g
      cases g
  beyond hinv h hg := by
    refine ⟨(streamPos_input hsyn).beyond hinv h.pos hg, fun ho => ?_, h.wnd_le, h.unacked, h.edge⟩
    rcases h.open_una ho with g | ⟨-, g⟩
    · exact g
    · rw [hg] at g
      cases g
  ack {x U N M A} hinv h _ hx hA h1 h2 := by
    have hspan := hinv.span
    have hb1 := hinv.una_le
    have hb2 := hinv.nxt_le
    have hl : seqLeq x.th.thAck x.tp.sndUna = false := by
      refine (seqLeq_at hA hinv.una (by omega) (by omega)).trans ?_
      simpa using h1
    have hg : seqGt x.th.thAck x.tp.sndMax = false := by
      refine (seqGt_at hA hinv.max (by omega) (by omega)).trans ?_
      simpa using h2
    refine h.acked hinv hA h1 h2 ?_
    simp only [fitsWindow, hx, hl, hg, Bool.false_or, Bool.and_eq_true, decide_eq_true_eq] at hfit
    exact hfit.1
  window {x U N M} hinv h hh hest hx hw := by
    refine h.update hinv hh hest hx hw ?_ hinv0 hp0 hW
    simp only [fitsWindow, hx, hw, Bool.not_true, Bool.false_or, Bool.and_eq_true,
      decide_eq_true_eq] at hfit
    exact hfit.2

/-! ## Runs -/

/-- The offers are only observed: the machine runs as the one of a connection. -/
theorem offerMachine_run (o : Offered) (es : List Event) :
    (Machine.run offerMachine (some o) es).1.map Offered.conn =
        (Machine.run connMachine (some o.conn) es).1 ∧
      (Machine.run offerMachine (some o) es).2.map OfferedCall.call =
        (Machine.run connMachine (some o.conn) es).2 := by
  induction es generalizing o with
  | nil => exact ⟨rfl, rfl⟩
  | cons ev es ih =>
    have hcalls : ((connStep o.conn ev).calls.map fun k => (⟨k, o.offer ev⟩ : OfferedCall)).map
        OfferedCall.call = (connStep o.conn ev).calls := by
      rw [List.map_map]
      exact List.map_id' _
    simp only [Machine.run, offerMachine, connMachine]
    cases hn : (connStep o.conn ev).next with
    | none => simp [hcalls]
    | some c =>
      obtain ⟨h1, h2⟩ := ih ⟨c, o.offer ev⟩
      simp only [Option.map_some, List.map_append, hcalls]
      exact ⟨h1, by rw [h2]⟩

theorem Offered.offer_ge (o : Offered) (ev : Event) : o.edge ≤ o.offer ev := by
  cases ev with
  | input e s =>
    unfold Offered.offer
    dsimp only
    split <;> omega
  | _ => exact Int.le_refl _

theorem windowOk_step {o : Offered} {ev : Event} (h : SndP (WindowOk o.edge) o.conn)
    (hsyn : acksSyn o.conn ev = true) (hfit : fitsWindow o.conn ev = true) :
    (connStep o.conn ev).Ok (SndP (WindowOk (o.offer ev))) := by
  obtain ⟨U, N, M, hinv, hw⟩ := h
  have hw' := hw.mono (o.offer_ge ev)
  refine sndP_step (F := WindowOkAck (o.offer ev)) (windowOk_extra _) ev ⟨U, N, M, hinv, hw'⟩ ?_
    fun _ _ _ _ _ hp ha => hp.append ha
  rintro e s rfl
  exact windowOk_input hsyn hfit hinv hw.pos rfl

/-- Data sent without `t_force` stays below the edge. -/
theorem WindowOk.dataEnd_le {W U N M : Int} {c : Conn} (h : WindowOk W c U) (hinv : SndInv c U N M)
    {M' S : Int} {em : Emit} (hem : EmitAt c U M' S em) (hd : em.data ≠ [])
    (hf : em.forced = false) : dataEnd c em ≤ W := by
  have hwin := hem.window hd hf
  have hlen : 0 < em.data.length := List.length_pos_iff.mpr hd
  have hcc := (hem.data hd).2
  have hle := hem.una_le
  have hwle := h.wnd_le
  have hdist : sdist em.thSeq c.tp.sndUna = S - U := hem.seq.sdist hinv.una (by omega) (by omega)
  unfold dataEnd
  rw [h.pos.unaPos hinv, hdist]
  rcases h.edge with g | g | ⟨g, -⟩ <;> omega

/-- **The sender respects the offered window**: in every run that meets the condition, `snd_wnd`
    has at most 16 bits, and the data sent without `t_force` lies below the largest right edge
    offered so far. -/
theorem sender_respects_window {c : Conn} (hc : Start c) {es : List Event}
    (hg : Machine.Guarded offerMachine
      (fun o ev => acksSyn o.conn ev = true ∧ fitsWindow o.conn ev = true) (some ⟨c, 0⟩) es) :
    (∀ o, (Machine.run offerMachine (some ⟨c, 0⟩) es).1 = some o →
      o.conn.tp.sndWnd.toNat ≤ 65535) ∧
    ∀ k ∈ (Machine.run offerMachine (some ⟨c, 0⟩) es).2,
      k.call.pre.tp.sndWnd.toNat ≤ 65535 ∧
      ∀ em ∈ k.call.res.out, em.data ≠ [] → em.forced = false → dataEnd k.call.pre em ≤ k.edge := by
  have hstart : WindowOk 0 c 0 := by
    have hw : c.tp.sndWnd.toNat = 0 := by cases hc <;> rfl
    refine ⟨streamPos_start hc, fun ho => ?_, by omega, fun _ => .inl hw, .inl hw⟩
    cases hc <;> cases ho
  have hstep : ∀ (o : Offered) (ev : Event), SndP (WindowOk o.edge) o.conn →
      acksSyn o.conn ev = true ∧ fitsWindow o.conn ev = true →
      (∀ o', (offerMachine o ev).1 = some o' → SndP (WindowOk o'.edge) o'.conn) ∧
        ∀ k ∈ (offerMachine o ev).2, SndP (WindowOk k.edge) k.call.pre := by
    rintro o ev h ⟨hsyn, hfit⟩
    have hok := windowOk_step h hsyn hfit
    constructor
    · intro o' ho'
      simp only [offerMachine, Option.map_eq_some_iff] at ho'
      obtain ⟨c', hc', rfl⟩ := ho'
      exact hok.next hc'
    · intro k hk
      simp only [offerMachine, List.mem_map] at hk
      obtain ⟨k', hk', rfl⟩ := hk
      exact hok.calls k' hk'
  have h0 : ∀ o, some (⟨c, 0⟩ : Offered) = some o → SndP (WindowOk o.edge) o.conn := by
    intro o ho
    cases ho
    exact ⟨0, 0, 0, sndInv_start hc, hstart⟩
  obtain ⟨h1, h2⟩ := Machine.run_invariant (fun o : Offered => SndP (WindowOk o.edge) o.conn)
    (fun k : OfferedCall => SndP (WindowOk k.edge) k.call.pre) hstep h0 hg
  refine ⟨fun o ho => ?_, fun k hk => ?_⟩
  · obtain ⟨U, N, M, -, hw⟩ := h1 o ho
    exact hw.wnd_le
  · obtain ⟨U, N, M, hinv, hw⟩ := h2 k hk
    refine ⟨hw.wnd_le, fun em hem hd hf => ?_⟩
    obtain ⟨N', M', -, -, hem'⟩ := tcpOutput_sndInv k.call.env hinv
    obtain ⟨S, hS⟩ := hem' em hem
    exact hw.dataEnd_le hinv hS hd hf

/-- Four bytes are sent; a segment out of order shrinks the window to `win`, and the segment in
    front of it acknowledges the four bytes. -/
def shrinkEvents (win : BitVec 16) : List Event :=
  connectEvents 100 ++
    [.send [1, 2, 3, 4] false fun _ => {},
     .input {} (Seg.ofByte { thSeq := 102, thAck := 2, thFlags := { ack := true }, thWin := win } 9),
     .input {} (Seg.ofByte { thSeq := 101, thAck := 6, thFlags := { ack := true }, thWin := 100 } 8)]

/-- A window of four bytes covers the ACK. -/
theorem sender_respects_window_shrink :
    Machine.Guarded offerMachine
        (fun o ev => acksSyn o.conn ev = true ∧ fitsWindow o.conn ev = true)
        (some ⟨activeOpen 1 newSocket, 0⟩) (shrinkEvents 4) ∧
      (Machine.run offerMachine (some ⟨activeOpen 1 newSocket, 0⟩) (shrinkEvents 4)).1.map
        (fun o => (o.conn.tp.sndWnd, o.edge)) = some (0, 105) ∧
      ∀ o, (Machine.run offerMachine (some ⟨activeOpen 1 newSocket, 0⟩) (shrinkEvents 4)).1 = some o →
        o.conn.tp.sndWnd.toNat ≤ 65535 := by
  have hg : Machine.Guarded offerMachine
      (fun o ev => acksSyn o.conn ev = true ∧ fitsWindow o.conn ev = true)
      (some ⟨activeOpen 1 newSocket, 0⟩) (shrinkEvents 4) := by decide +kernel
  exact ⟨hg, by decide +kernel,
    (sender_respects_window (.active 1 newSocket newSocket_fresh) hg).1⟩

/-- With a window of one byte `snd_wnd` falls below zero and wraps. -/
theorem shrunk_window_wraps :
    ¬ ∀ (c : Conn), Start c → ∀ es : List Event,
      (∀ o, (Machine.run offerMachine (some ⟨c, 0⟩) es).1 = some o →
        o.conn.tp.sndWnd.toNat ≤ 65535) ∧
      ∀ k ∈ (Machine.run offerMachine (some ⟨c, 0⟩) es).2,
        k.call.pre.tp.sndWnd.toNat ≤ 65535 ∧
        ∀ em ∈ k.call.res.out, em.data ≠ [] → em.forced = false →
          dataEnd k.call.pre em ≤ k.edge := by
  intro h
  have hrun := (h _ (.active 1 newSocket newSocket_fresh) (shrinkEvents 1)).1
  have hsome : (Machine.run offerMachine (some ⟨activeOpen 1 newSocket, 0⟩) (shrinkEvents 1)).1.map
      (fun o => o.conn.tp.sndWnd) = some 4294967293 := by decide +kernel
  obtain ⟨o, ho, hw⟩ := Option.map_eq_some_iff.mp hsome
  have hle := hrun o ho
  rw [hw] at hle
  revert hle
  decide

end TnNet
