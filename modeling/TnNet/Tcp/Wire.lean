import TnNet.Tcp.Close
import TnNet.Tcp.RecvStream
import TnNet.Tcp.SendStream
import TnNet.Tcp.SockRules

/-!
# Packets on the wire

What one event of a connection says about the packets it sends and about the acknowledged position,
for an argument about both ends of a connection.

* `tcpOutput_sent` — the header of a packet carries `rcv_nxt` and the flags of the state; its data
  are the bytes of the stream at its sequence number (`Sent`).
* `tcpInput_moved` — `snd_una` moves only to the acknowledgement of a segment, and the initial sequence
  numbers are set only by the segment that the state waits for (`Moved`).
* `connStep_unmoved` — no other event moves either of them.
* `connStep_stream` — what a step adds to the two streams of the users.
-/

set_option autoImplicit false

namespace TnNet

open SeqArith ByteStream

/-! ## The stream of a list -/

/-- The stream of a list that starts at position `0`; nothing is said in front of it. -/
def ofList (S : List UInt8) (p : Int) (a : UInt8) : Prop := 0 ≤ p → S[p.toNat]? = some a

theorem ofList_mono {S S' : List UInt8} (h : S <+: S') {p : Int} {a : UInt8} (ha : ofList S p a) :
    ofList S' p a := by
  intro hp
  obtain ⟨t, rfl⟩ := h
  obtain ⟨hlt, -⟩ := List.getElem?_eq_some_iff.mp (ha hp)
  rw [List.getElem?_append_left hlt]
  exact ha hp

/-- A piece of a list agrees with the stream of the list. -/
theorem agrees_ofList (S : List UInt8) {n k : Nat} :
    Agrees (ofList S) n ((S.drop n).take k) := by
  induction k generalizing n with
  | zero =>
    rw [List.take_zero]
    trivial
  | succ k ih =>
    by_cases hn : n < S.length
    · rw [List.drop_eq_getElem_cons hn, List.take_succ_cons]
      refine ⟨fun _ => ?_, ?_⟩
      · rw [Int.toNat_natCast, List.getElem?_eq_getElem hn]
      · exact_mod_cast ih (n := n + 1)
    · rw [List.drop_eq_nil_of_le (by omega), List.take_nil]
      trivial

/-- A list that agrees with the stream of a list from its start on is a prefix. -/
theorem Agrees.prefix_of_ofList {S l : List UInt8} {n : Nat} (h : Agrees (ofList S) n l) :
    l <+: S.drop n := by
  induction l generalizing n with
  | nil => exact List.nil_prefix
  | cons a l ih =>
    have h1 := h.1 (by omega)
    rw [Int.toNat_natCast] at h1
    obtain ⟨hlt, ha⟩ := List.getElem?_eq_some_iff.mp h1
    have h2 : Agrees (ofList S) ((n + 1 : Nat) : Int) l := by exact_mod_cast h.2
    rw [List.drop_eq_getElem_cons hlt, ha]
    exact List.cons_prefix_cons.mpr ⟨rfl, ih h2⟩

theorem Agrees.mono {α : Type} {R R' : Int → α → Prop} (hR : ∀ p a, R p a → R' p a) {p : Int}
    {l : List α} (h : Agrees R p l) : Agrees R' p l := by
  induction l generalizing p with
  | nil => trivial
  | cons a l ih => exact ⟨hR p a h.1, ih h.2⟩

/-! ## A peer that has more to say -/

section

variable {S S' : Peer} {L : Limit} {v : RcvSide} {n : Int}

theorem Queued.peer (hd : ∀ p a, S.data p a → S'.data p a) (hf : ∀ p, S.fin p → S'.fin p)
    {b : BitVec 32} {hi lo top : Int} {qs : List Tcpqent} (h : Queued S b hi lo top qs) :
    Queued S' b hi lo top qs := by
  induction qs generalizing lo with
  | nil => exact h
  | cons q qs ih =>
    obtain ⟨p, hp, he, hend, hq⟩ := h
    exact ⟨p, hp, ⟨he.seq, he.length, Agrees.mono hd he.bytes, fun hb => hf _ (he.fin hb)⟩, hend,
      ih hq⟩

/-- The receiving side knows no more of the peer than what it has received. -/
theorem RcvState.peer (hd : ∀ p a, S.data p a → S'.data p a) (hf : ∀ p, S.fin p → S'.fin p)
    (h : RcvState S L v n) : RcvState S' L v n := by
  cases h with
  | closed h hn => exact .closed h hn
  | unsynced hs h hn => exact .unsynced hs h hn
  | synced hs h =>
    refine .synced hs ⟨h.start, h.nxt, h.adv, h.hiwat, h.cc, h.edge, fun hc => ?_, h.syn,
      fun hnf => ?_, fun hfin => ?_⟩
    · obtain ⟨h1, h2⟩ := h.log hc
      exact ⟨Agrees.mono hd h1, h2⟩
    · obtain ⟨lo, hi, hq⟩ := h.queue hnf
      exact ⟨lo, hi, hq.span, hq.syn, hq.le_hi, hq.queued.peer hd hf⟩
    · obtain ⟨h1, h2⟩ := h.fin hfin
      exact ⟨h1, hf _ h2⟩

end

/-- The peer that sends the stream `S`, with a FIN anywhere. -/
def listPeer (S : List UInt8) : Peer := ⟨ofList S, fun _ => True⟩

theorem RcvState.grow {S S' : List UInt8} (hS : S <+: S') {L : Limit} {v : RcvSide} {n : Int}
    (h : RcvState (listPeer S) L v n) : RcvState (listPeer S') L v n :=
  h.peer (fun _ _ ha => ofList_mono hS ha) fun _ _ => trivial

/-! ## The packets of a call -/

/-- The number of bytes the user has appended in front of the send buffer. -/
def sndBase (c : Conn) : Int := c.so.soSnd.sbLog.length - c.so.soSnd.sbCc

/-- The header of a packet at position `T`: `rcv_nxt` and the flags of the state. -/
structure Stamped (c : Conn) (T : Int) (em : Emit) : Prop where
  ack : em.thAck = c.tp.rcvNxt
  flag_ack : em.thFlags.ack = (tcpOutflags c.tp.tState).ack
  flag_syn : em.thFlags.syn = (tcpOutflags c.tp.tState).syn
  flag_rst : em.thFlags.rst = (tcpOutflags c.tp.tState).rst
  syn : em.thFlags.syn = true → T = 0 ∧ em.data = []

section

variable {c : Conn} {U N M : Int}

theorem Placed.stamped {T : Int} {e : SendEnv} {d : List UInt8} (h : Placed c U N M T)
    (hd : sendData e c = some d) : Stamped c T (sendEmit e c d) := by
  refine ⟨rfl, rfl, rfl, rfl, fun hs => ?_⟩
  obtain ⟨h1, -, h3, -⟩ := h.syn hs
  have hlen := (sendData_spec hd).1
  have hnil : d = [] := List.eq_nil_of_length_eq_zero (by omega)
  exact ⟨h1, hnil⟩

theorem Stamped.congr {c' : Conn} {T : Int} {em : Emit} (h : Stamped c T em)
    (hk : outKept c'.tp = outKept c.tp) : Stamped c' T em := by
  have h1 : c'.tp.rcvNxt = c.tp.rcvNxt := field_of_kept _ hk fun _ => rfl
  have h2 : c'.tp.tState = c.tp.tState := field_of_kept _ hk fun _ => rfl
  exact ⟨h1 ▸ h.ack, h2 ▸ h.flag_ack, h2 ▸ h.flag_syn, h2 ▸ h.flag_rst, h.syn⟩

/-- **The packets of a call of `tcp_output`**, each with its place and its header. -/
theorem tcpOutput_stamped (env : Nat → SendEnv) (h : SndInv c U N M) :
    ∃ N' M', SndInv (tcpOutput env c).conn U N' M' ∧
      ∀ em ∈ (tcpOutput env c).out, ∃ T, EmitAt c U M' T em ∧ Stamped c T em := by
  obtain ⟨A, hA⟩ : ∃ A : List Emit → Conn → Prop, A = fun out c1 =>
      c1.so = c.so ∧ outKept c1.tp = outKept c.tp ∧
      ∃ N' M', SndInv c1 U N' M' ∧ ∀ em ∈ out, ∃ T, EmitAt c U M' T em ∧ Stamped c T em :=
    ⟨_, rfl⟩
  have hpass : ∀ e idle out c1, A out c1 →
      A (out ++ (tcpOutputPass e idle c1).emit.toList)
        { c1 with tp := (tcpOutputPass e idle c1).tp } := by
    intro e idle out c1 h1
    rw [hA] at h1 ⊢
    obtain ⟨hso, hk, N1, M1, hinv, hem⟩ := h1
    obtain ⟨N2, M2, hinv2, hle, hem2⟩ := hinv.pass e idle
    refine ⟨hso, (tcpOutputPass_kept e idle c1).trans hk, N2, M2, hinv2, fun em hm => ?_⟩
    rcases List.mem_append.mp hm with hm | hm
    · obtain ⟨T, h1, h2⟩ := hem em hm
      exact ⟨T, h1.congr rfl rfl hle, h2⟩
    · obtain ⟨T, d, hT, hadv, hd, rfl⟩ := hem2 em (by simpa using hm)
      exact ⟨T, (hinv.emit hd hT hadv).congr hso.symm hk.symm (Int.le_refl M2),
        (hT.stamped hd).congr hk.symm⟩
  have hloop := tcpOutput_rule (A := A) (B := A) (fun e idle out c1 h1 _ => hpass e idle out c1 h1)
    hpass (fun _ _ h1 => h1) env c (by
      rw [hA]
      refine ⟨rfl, ?_, N, M, h.idle, fun em hm => by simp at hm⟩
      unfold idleTp
      split <;> rfl)
  rw [hA] at hloop
  obtain ⟨-, -, hres⟩ := hloop
  exact hres

/-- `snd_una` stands right behind the bytes that have left the send buffer, or behind the FIN. -/
theorem StreamPos.base (hp : StreamPos c U) (h : SndInv c U N M) :
    sndBase c ≤ U ∧ U ≤ sndBase c + 2 := by
  have hU := h.una_nonneg
  unfold sndBase
  by_cases h0 : U = 0
  · obtain ⟨g1, g2⟩ := hp.unacked h0
    rw [g1, g2]
    simp only [List.length_nil]
    omega
  · rcases hp.first (by omega) with g | ⟨g1, g2, -⟩
    · omega
    · omega

/-- A packet of a sender with the stream `S`, when `base` bytes have left its send buffer. -/
structure Sent (S : List UInt8) (iss : BitVec 32) (base : Int) (em : Emit) : Prop where
  place : ∃ T, At iss em.thSeq T ∧ base - 1 ≤ T ∧ T + em.data.length ≤ base + 262144 ∧
    (em.thFlags.syn = true → T = 0 ∧ em.data = []) ∧ Agrees (ofList S) (T - 1) em.data

theorem Sent.grow {S S' : List UInt8} {iss : BitVec 32} {base : Int} {em : Emit}
    (h : Sent S iss base em) (hS : S <+: S') : Sent S' iss base em := by
  obtain ⟨T, h1, h2, h3, h4, h5⟩ := h.place
  exact ⟨T, h1, h2, h3, h4, Agrees.mono (fun _ _ ha => ofList_mono hS ha) h5⟩

/-- The data of a packet are the bytes of the stream at its sequence number. -/
theorem EmitAt.agrees {M' T : Int} {em : Emit} (hem : EmitAt c U M' T em) (hp : StreamPos c U)
    (h : SndInv c U N M) : Agrees (ofList c.so.soSnd.sbLog) (T - 1) em.data := by
  by_cases hd : em.data = []
  · rw [hd]
    trivial
  · obtain ⟨hdata, hle⟩ := hem.data hd
    have hUT := hem.una_le
    have hlen : 0 < em.data.length := List.length_pos_iff.mpr hd
    have hU : 1 ≤ U := by
      by_contra hU
      have h0 := h.una_nonneg
      have hcc : c.so.soSnd.sbCc = 0 := (hp.unacked (by omega)).2
      omega
    have hi : U.toNat - 1 + (T - U).toNat = (T - 1).toNat := by omega
    rw [hp.data h, List.drop_drop, hi] at hdata
    have hT : ((T - 1).toNat : Int) = T - 1 := Int.toNat_of_nonneg (by omega)
    rw [hdata, ← hT]
    exact agrees_ofList _

/-- **What a call of `tcp_output` sends.** -/
theorem tcpOutput_sent (env : Nat → SendEnv) (h : SndInv c U N M) (hp : StreamPos c U) {em : Emit}
    (hem : em ∈ (tcpOutput env c).out) :
    Sent c.so.soSnd.sbLog c.tp.iss (sndBase c) em ∧ ∃ T, Stamped c T em := by
  obtain ⟨N', M', hinv, hall⟩ := tcpOutput_stamped env h
  obtain ⟨T, h1, h2⟩ := hall em hem
  obtain ⟨hb1, hb2⟩ := hp.base h
  have hso := (tcpOutput_kept env c).1
  have hspan := hinv.span
  have hUT := h1.una_le
  have hend := h1.end_le
  exact ⟨⟨T, h1.seq, by omega, by omega, h2.syn, h1.agrees hp h⟩, T, h2⟩

end

/-! ## Initial sequence numbers and the acknowledged position -/

/-- `iss`, `snd_una` and `irs`. -/
def Conn.ends (c : Conn) : BitVec 32 × BitVec 32 × BitVec 32 := (c.tp.iss, c.tp.sndUna, c.tp.irs)

/-- An event other than a segment moves none of them, and neither `rcv_nxt`. -/
structure Unmoved (c c' : Conn) : Prop where
  ends : c'.ends = c.ends
  rel : c'.rcvSide.rel = c.rcvSide.rel
  syn : c'.tp.tState.haveRcvdSyn = true → c.tp.tState.haveRcvdSyn = true

theorem Unmoved.refl (c : Conn) : Unmoved c c := ⟨rfl, rfl, id⟩

theorem usrclosedState_haveRcvdSyn (st : TcpState) (h : (usrclosedState st).haveRcvdSyn = true) :
    st.haveRcvdSyn = true := by
  revert h
  cases st <;> decide

theorem unmoved_stable (c : Conn) : Stable (Unmoved c) where
  core {d d'} h hk :=
    ⟨(field_of_kept Conn.ends hk fun _ => rfl).trans h.ends,
      (congrArg RcvSide.rel (rcvSide_core hk)).trans h.rel, fun hs => h.syn (by
        rwa [← field_of_kept (fun c : Conn => c.tp.tState) hk fun _ => rfl])⟩
  output env d h := by
    have hk := (tcpOutput_kept env d).2
    have h1 : (tcpOutput env d).conn.ends = d.ends :=
      field_of_kept (fun tp => Conn.ends ⟨tp, d.so⟩) hk fun _ => rfl
    have h2 : (tcpOutput env d).conn.rcvSide.rel = d.rcvSide.rel :=
      field_of_kept (fun tp => (Conn.rcvSide ⟨tp, d.so⟩).rel) hk fun _ => rfl
    have h3 : (tcpOutput env d).conn.tp.tState = d.tp.tState := field_of_kept _ hk fun _ => rfl
    exact ⟨h1.trans h.ends, h2.trans h.rel, fun hs => h.syn (h3 ▸ hs)⟩
  options syn mtu opt d h := by
    have hk := tcpDooptions_kept syn mtu opt d.tp
    have h1 := field_of_kept (fun tp => Conn.ends ⟨tp, d.so⟩) hk fun _ => rfl
    have h2 := field_of_kept (fun tp => (Conn.rcvSide ⟨tp, d.so⟩).rel) hk fun _ => rfl
    have h3 : (tcpDooptions syn mtu opt d.tp).tState = d.tp.tState :=
      field_of_kept _ hk fun _ => rfl
    exact ⟨Eq.trans h1 h.ends, Eq.trans h2 h.rel, fun hs => h.syn (h3 ▸ hs)⟩
  drop _ h := ⟨h.ends, h.rel, fun hs => by cases hs⟩

theorem unmoved_user (c : Conn) : UserInv (Unmoved c) where
  tickRexmt _ h := ⟨h.ends, h.rel, h.syn⟩
  rexmt _ h _ := ⟨h.ends, h.rel, h.syn⟩
  tickPersist _ h := ⟨h.ends, h.rel, h.syn⟩
  persist _ h _ := ⟨h.ends, h.rel, h.syn⟩
  sbdrop _ _ h := ⟨h.ends, h.rel, h.syn⟩
  cantsendmore _ h := ⟨h.ends, h.rel, h.syn⟩
  disconnecting _ h := ⟨h.ends, h.rel, h.syn⟩
  disconnected _ h := ⟨h.ends, h.rel, h.syn⟩
  usrclosed _ h _ _ := ⟨h.ends, h.rel, fun hs => h.syn (usrclosedState_haveRcvdSyn _ hs)⟩
  sndbuf _ _ h := ⟨h.ends, h.rel, h.syn⟩

/-- **Timers and user calls** leave the sequence numbers of both sides where they are. -/
theorem connStep_unmoved {c : Conn} {ev : Event} (hin : ∀ e s, ev ≠ .input e s) :
    (connStep c ev).Ok (Unmoved c) :=
  connStep_ok (unmoved_stable c) (unmoved_user c) (Unmoved.refl c) (fun e s he => absurd he (hin e s))
    (fun _ _ _ _ _ => ⟨rfl, rfl, id⟩) (fun _ _ _ => ⟨rfl, rfl, id⟩) fun _ _ => ⟨rfl, rfl, id⟩

/-- What a segment does to them: `snd_una` moves to the acknowledgement only, and the SYN of the
    peer sets `irs`. -/
structure Moved (s : Seg) (c c' : Conn) : Prop where
  iss : c'.tp.iss = c.tp.iss
  una : c'.tp.sndUna = c.tp.sndUna ∨ s.th.thFlags.ack = true ∧ c'.tp.sndUna = s.th.thAck ∧
    (s.th.thFlags.rst = false ∨ s.th.thFlags.syn = true)
  irs : c'.tp.tState.haveRcvdSyn = true →
    c.tp.tState.haveRcvdSyn = true ∧ c'.tp.irs = c.tp.irs ∨
      s.th.thFlags.syn = true ∧ c'.tp.irs = s.th.thSeq

section

variable {e : InEnv} {s : Seg} {c d d' : Conn}

theorem Moved.refl (s : Seg) (c : Conn) : Moved s c c :=
  ⟨rfl, .inl rfl, fun h => .inl ⟨h, rfl⟩⟩

theorem Moved.congr (h : Moved s c d) (hk : d'.ends = d.ends)
    (hs : d'.tp.tState.haveRcvdSyn = true → d.tp.tState.haveRcvdSyn = true) : Moved s c d' := by
  simp only [Conn.ends, Prod.mk.injEq] at hk
  obtain ⟨h1, h2, h3⟩ := hk
  exact ⟨h1.trans h.iss, h2 ▸ h.una, fun hh => h3 ▸ h.irs (hs hh)⟩

theorem Moved.of_unmoved (h : Moved s c d) (hd : Unmoved d d') : Moved s c d' := h.congr hd.ends hd.syn

theorem moved_stable (s : Seg) (c : Conn) : Stable (Moved s c) where
  core {d _} h hk := h.of_unmoved ((unmoved_stable d).core (Unmoved.refl d) hk)
  output env d h := h.of_unmoved ((unmoved_stable d).output env d (Unmoved.refl d))
  options syn mtu opt d h := h.of_unmoved ((unmoved_stable d).options syn mtu opt d (Unmoved.refl d))
  drop d h := h.of_unmoved ((unmoved_stable d).drop d (Unmoved.refl d))

theorem inputSetup_unmoved (e : InEnv) (s : Seg) (c : Conn) : Unmoved c (inputSetup e s c).conn :=
  inputSetup_ok (unmoved_stable c) e s (Unmoved.refl c)

theorem trivial_stable : Stable fun _ => True :=
  ⟨fun _ _ => trivial, fun _ _ _ => trivial, fun _ _ _ _ _ => trivial, fun _ _ => trivial⟩

theorem Res.Ok.trivial (r : Res) : r.Ok fun _ => True := ⟨fun _ => True.intro, fun _ _ => True.intro⟩

/-- A synchronized connection processes no ACK of a segment with `RST`. -/
theorem inputChecks_rst (e : InEnv) (s : Seg) (hs : c.tp.tState.haveRcvdSyn = true) :
    FlowOk (fun _ => s.th.thFlags.rst = false) (fun _ => True)
      (inputChecks e (inputSetup e s c)) := by
  have hl := (inputSetup_sameAck e s c).leftTrim
  unfold inputChecks
  refine FlowOk.bind (I := SameAck s c) ?_ fun y _ hy => ?_
  · unfold afterClose
    split
    · exact Res.Ok.trivial _
    · exact hl
  refine FlowOk.bind (rightTrim_ok trivial_stable e True.intro) fun z _ hz => ?_
  have hz' := hy.rightTrimmed hz
  refine FlowOk.bind (I := fun _ => s.th.thFlags.rst = false) ?_ fun z1 _ h1 => ?_
  · unfold checkRst
    split
    · rw [show z.tp.tState = c.tp.tState from hz'.tState]
      revert hs
      cases c.tp.tState
      case closed | listen | synSent => exact fun hs => by cases hs
      case established =>
        intro _
        dsimp only
        split
        · exact exitDropafterack_ok trivial_stable e _ True.intro
        · exact exitClose_ok _
      all_goals exact fun _ => exitClose_ok _
    · rename_i hr
      rw [← hz'.rst]
      exact Bool.not_eq_true _ ▸ hr
  refine FlowOk.bind (I := fun _ => s.th.thFlags.rst = false) ?_ fun z2 _ h2 => ?_
  · unfold checkSyn
    split
    · split <;> exact Res.Ok.trivial _
    · exact h1
  unfold checkAck
  split
  · exact h2
  · exact Res.Ok.trivial _

theorem tcpPresent_ends (c : Conn) :
    (tcpPresent c).1.ends = c.ends ∧ (tcpPresent c).1.tp.tState = c.tp.tState :=
  ⟨field_of_kept Conn.ends (tcpPresent_kept c) fun _ => rfl,
    field_of_kept (fun c : Conn => c.tp.tState) (tcpPresent_kept c) fun _ => rfl⟩

theorem synReceivedConn_ends (x : InSt) : (synReceivedConn x).ends = x.conn.ends :=
  (tcpPresent_ends _).1.trans rfl

theorem synSentConn_ends (x : InSt) :
    (synSentConn x).tp.iss = x.tp.iss ∧ (synSentConn x).tp.irs = x.th.thSeq ∧
      (synSentConn x).tp.sndUna = if x.tiflags.ack then x.th.thAck else x.tp.sndUna := by
  have hu : (synSentUna x).iss = x.tp.iss ∧
      (synSentUna x).sndUna = if x.tiflags.ack then x.th.thAck else x.tp.sndUna := by
    unfold synSentUna
    split <;> exact ⟨rfl, rfl⟩
  unfold synSentConn
  dsimp only
  split
  · obtain ⟨hp, -⟩ := tcpPresent_ends ⟨{ tcpRcvseqinit { synSentUna x with
      timerRexmt := 0, irs := x.th.thSeq } with acknow := true, tState := .established },
      soisconnected x.so⟩
    simp only [Conn.ends, Prod.mk.injEq] at hp
    obtain ⟨h1, h2, h3⟩ := hp
    split
    · have hx := fun tp rtt => field_of_kept (fun tp => (tp.iss, tp.sndUna, tp.irs))
        (tcpXmitTimer_kept tp rtt) fun _ => rfl
      simp only [Prod.mk.injEq] at hx
      obtain ⟨g1, g2, g3⟩ := hx _ _
      exact ⟨g1.trans (h1.trans hu.1), g3.trans h3, g2.trans (h2.trans hu.2)⟩
    · exact ⟨h1.trans hu.1, h3, h2.trans hu.2⟩
  · exact ⟨hu.1, rfl, hu.2⟩

theorem trimThenStep6_ends (x : InSt) : (trimThenStep6 x).conn.ends = x.conn.ends ∧
    (trimThenStep6 x).tp.tState = x.tp.tState := by
  unfold trimThenStep6
  dsimp only
  split <;> exact ⟨rfl, rfl⟩

theorem finState_ends (d : Conn) : (finState d).ends = d.ends ∧
    ((finState d).tp.tState.haveRcvdSyn = true → d.tp.tState.haveRcvdSyn = true) := by
  unfold finState
  split
  all_goals first
    | exact ⟨rfl, id⟩
    | (rename_i hs; exact ⟨rfl, fun _ => by rw [hs]; rfl⟩)

theorem doFin_ends (fin : Bool) (d : Conn) : (doFin fin d).ends = d.ends ∧
    ((doFin fin d).tp.tState.haveRcvdSyn = true → d.tp.tState.haveRcvdSyn = true) := by
  have ha : (finAdvance d).ends = d.ends ∧ (finAdvance d).tp.tState = d.tp.tState := by
    unfold finAdvance
    split <;> exact ⟨rfl, rfl⟩
  obtain ⟨h1, h2⟩ := finState_ends (finAdvance d)
  unfold doFin
  split
  · exact ⟨h1.trans ha.1, fun hs => ha.2 ▸ h2 hs⟩
  · exact ⟨rfl, id⟩

/-- From `step6` on no end moves. -/
theorem inputEnd_ends (e : InEnv) (x : InSt) :
    (doFin (doData e (step6 x)).2 (doData e (step6 x)).1).ends = x.conn.ends ∧
      ((doFin (doData e (step6 x)).2 (doData e (step6 x)).1).tp.tState.haveRcvdSyn = true →
        x.conn.tp.tState.haveRcvdSyn = true) := by
  have h6 : (step6 x).conn.ends = x.conn.ends ∧ (step6 x).conn.tp.tState = x.conn.tp.tState := by
    unfold step6 updateWindow
    dsimp only
    repeat' split
    all_goals exact ⟨rfl, rfl⟩
  have hk := doData_kept e (step6 x)
  have hd : (doData e (step6 x)).1.ends = (step6 x).conn.ends :=
    field_of_kept Conn.ends hk fun _ => rfl
  have hst : (doData e (step6 x)).1.tp.tState = (step6 x).conn.tp.tState :=
    field_of_kept (fun c : Conn => c.tp.tState) hk fun _ => rfl
  obtain ⟨f1, f2⟩ := doFin_ends (doData e (step6 x)).2 (doData e (step6 x)).1
  refine ⟨f1.trans (hd.trans h6.1), fun hs => ?_⟩
  have := f2 hs
  rwa [hst, h6.2] at this

theorem ackedConn_ends (fin : Bool) (d : Conn) : (ackedConn fin d).ends = d.ends ∧
    ((ackedConn fin d).tp.tState.haveRcvdSyn = true → d.tp.tState.haveRcvdSyn = true) := by
  rcases ackedConn_cases fin d with ⟨hc, -⟩ | ⟨hs, -, hc⟩ | ⟨hs, -, hc⟩
  · rw [hc]
    exact ⟨rfl, id⟩
  · rw [hc, hs]
    unfold enterFinWait2
    split <;> exact ⟨rfl, fun _ => rfl⟩
  · rw [hc, hs]
    exact ⟨rfl, fun _ => rfl⟩

/-- The locals in front of ACK processing. -/
structure AckHead (s : Seg) (c : Conn) (x : InSt) : Prop where
  hdr : HdrOk s x
  moved : Moved s c x.conn
  syn : c.tp.tState.haveRcvdSyn = true

/-- The ACK of a synchronized connection is that of a segment without `RST`. -/
theorem inputAck_rst {x : InSt} (hx : inputAck e s c = .ok x)
    (hs : c.tp.tState.haveRcvdSyn = true) : s.th.thFlags.rst = false := by
  have h := inputChecks_rst e s hs
  unfold inputAck at hx
  revert hx h
  cases inputChecks e (inputSetup e s c) with
  | error r => exact fun hx => by cases hx
  | ok y => exact fun _ h => h

/-- **A segment moves `snd_una` to its acknowledgement only.** -/
theorem tcpInput_moved (e : InEnv) (hl : c.tp.tState ≠ .listen) :
    (tcpInput e s c).Ok (Moved s c) := by
  have hstart := Moved.refl s c
  have hset := inputSetup_unmoved e s c
  have hsetup : Moved s c (inputSetup e s c).conn := hstart.of_unmoved hset
  refine tcpInput_ok (I := fun x => HdrOk s x ∧ Moved s c x.conn ∧ c.tp.tState ≠ .closed)
    (K := AckHead s c) (T := fun x => Moved s c x.conn) (moved_stable s c) ?_ hstart
  exact
    { conn := fun _ hx => hx.2.1
      setup := fun hc => ⟨inputSetup_hdrOk e s c, hsetup, hc⟩
      checks := fun y hx _ _ hch => ⟨hx.1.checked hch, (moved_stable s c).core hx.2.1
        (hch.trim.core.trans (leftTrim_core _)), hx.2.2⟩
      listen := fun _ _ _ hs => absurd hs hl
      synSent := fun x _ hxe _ _ hsyn => by
        subst hxe
        obtain ⟨h1, h2⟩ := trimThenStep6_ends
          { inputSetup e s c with conn := synSentConn (inputSetup e s c) }
        simp only [Conn.ends, Prod.mk.injEq] at h1
        obtain ⟨g1, g2, g3⟩ := synSentConn_ends (inputSetup e s c)
        refine ⟨h1.1.trans (g1.trans hsetup.iss), ?_, fun _ => .inr ⟨hsyn, h1.2.2.trans g2⟩⟩
        rw [h1.2.1, g3]
        split
        · rename_i ha
          exact .inr ⟨ha, rfl, .inr hsyn⟩
        · have hu := congrArg (fun v => v.2.1) hset.ends
          exact .inl hu
      synReceived := fun x hx hch _ hst _ _ => by
        have hcs : c.tp.tState = .synReceived :=
          (hch.tState.trans (inputSetup_tState e s c)).symm.trans hst
        have hsyn : c.tp.tState.haveRcvdSyn = true := by
          rw [hcs]
          rfl
        refine ⟨⟨hx.1.ack, hx.1.win, hx.1.flag⟩, hx.2.1.congr (synReceivedConn_ends x) fun _ => ?_,
          hsyn⟩
        rw [show x.conn.tp.tState = .synReceived from hst]
        rfl
      other := fun x hx hch h1 h2 _ => by
        refine ⟨hx.1, hx.2.1, ?_⟩
        have hcs : x.tp.tState = c.tp.tState := hch.tState.trans (inputSetup_tState e s c)
        have h0 := hx.2.2
        rw [hcs] at h1 h2
        revert h0 h1 h2
        cases c.tp.tState <;> simp [TcpState.haveRcvdSyn, TcpState.num]
      dup := fun _ hx _ => hx.moved
      beyond := fun _ hx _ => hx.moved
      connT := fun _ hx => hx
      dupacks := fun _ _ hx => hx.congr rfl id
      fastRexmt := fun x hx _ => by
        have h1 : Moved s c { x.conn with tp := fastRexmtTp x } := hx.congr rfl id
        exact ⟨h1, ((moved_stable s c).output e.out _ h1).congr rfl id⟩
      ackNew := fun x b hx hin hack _ _ _ => by
        have hk := field_of_kept (fun tp => (tp.iss, tp.irs)) (ackRtt_kept x) fun _ => rfl
        simp only [Prod.mk.injEq] at hk
        have ha : Moved s c (ackConn x) := by
          refine ⟨hk.1.trans hx.moved.iss, .inr ⟨hx.hdr.flag ▸ hack, hx.hdr.ack,
            .inl (inputAck_rst hin hx.syn)⟩, fun hs => ?_⟩
          rw [ackConn_tState] at hs
          have hirs : (ackConn x).tp.irs = x.conn.tp.irs := hk.2
          rw [hirs]
          exact hx.moved.irs hs
        obtain ⟨h1, h2⟩ := ackedConn_ends (ourfinisacked x) (ackConn x)
        exact ha.congr h1 h2
      tail := fun x hx _ => hx.congr (inputEnd_ends e x).1 (inputEnd_ends e x).2 }

/-- The SYN that a listening socket accepts starts both sides. -/
theorem tcpInput_listen (e : InEnv) (s : Seg) (hl : c.tp.tState = .listen) :
    (tcpInput e s c).Ok fun c' =>
      s.th.thFlags.syn = true ∧ c'.ends = (e.iss, e.iss, s.th.thSeq) := by
  obtain ⟨A, hA⟩ : ∃ A : Conn → Prop, A = fun c' =>
      s.th.thFlags.syn = true ∧ c'.ends = (e.iss, e.iss, s.th.thSeq) := ⟨_, rfl⟩
  rw [← hA]
  have hst : (inputSetup e s c).tp.tState = .listen := by rw [inputSetup_tState, hl]
  -- before the SYN a drop sends nothing
  have hdrop : ∀ errno, (tcpDrop e.out errno (inputSetup e s c).conn).Ok A := by
    intro errno
    have hno : (inputSetup e s c).conn.tp.tState.haveRcvdSyn = false := by
      rw [show (inputSetup e s c).conn.tp.tState = .listen from hst]
      rfl
    exact ⟨fun h => by simp [tcpDrop] at h, fun k hk => by simp [tcpDrop, hno] at hk⟩
  have hhead : FlowOk (fun x => A x.conn) A (inputHead e s (inputSetup e s c)) := by
    unfold inputHead
    rw [hst]
    unfold inputListen
    dsimp only
    split
    · exact hdrop _
    rename_i hfl
    simp only [not_or, Bool.not_eq_true, Bool.not_eq_false] at hfl
    split
    · exact hdrop _
    show A (trimThenStep6 _).conn
    rw [hA]
    exact ⟨hfl.2.2, (trimThenStep6_ends _).1⟩
  unfold tcpInput
  rw [if_neg (by rw [hl]; decide)]
  revert hhead
  cases inputHead e s (inputSetup e s c) with
  | error r => exact id
  | ok x =>
    intro hx
    have hx' : A x.conn := hx
    have hend : A (doFin (doData e (step6 x)).2 (doData e (step6 x)).1) := by
      rw [hA] at hx' ⊢
      exact ⟨hx'.1, (inputEnd_ends e x).1.trans hx'.2⟩
    show (inputTail e x).Ok A
    unfold inputTail inputOutput
    dsimp only
    split
    · refine ⟨fun _ => ?_, fun k hk => ?_⟩
      · rw [hA] at hend ⊢
        have hk := (tcpOutput_kept e.out (doFin (doData e (step6 x)).2 (doData e (step6 x)).1)).2
        refine ⟨hend.1, Eq.trans ?_ hend.2⟩
        exact field_of_kept (fun tp => Conn.ends ⟨tp, c.so⟩) hk fun _ => rfl
      · rw [show k = ⟨e.out, _⟩ by simpa [callOutput] using hk]
        exact hend
    · exact .same hend

end

/-! ## The calls of an event -/

/-- `rcv_nxt` is where the calls have left it. -/
def Res.Still (r : Res) : Prop :=
  r.gone = false → ∀ k ∈ r.calls, k.pre.rcvSide.rel = r.conn.rcvSide.rel

def FlowStill : Flow → Prop
  | .ok _ => True
  | .error r => r.Still

theorem FlowStill.bind {f : Flow} {g : InSt → Flow} (hf : FlowStill f)
    (hg : ∀ x, FlowStill (g x)) : FlowStill (f >>= g) := by
  cases f with
  | ok x => exact hg x
  | error r => exact hf

theorem FlowStill.map {f : Flow} {g : InSt → InSt} (hf : FlowStill f) : FlowStill (f.map g) := by
  cases f with
  | ok x => trivial
  | error r => exact hf

theorem Res.Still.quiet (c : Conn) (gone : Bool) : Res.Still ⟨c, gone, []⟩ :=
  fun _ k hk => by simp at hk

theorem tcpDrop_still (env : Nat → SendEnv) (errno : Int) (c : Conn) : (tcpDrop env errno c).Still :=
  fun h => by simp [tcpDrop] at h

theorem callOutput_still (env : Nat → SendEnv) (c : Conn) : (callOutput env c).Still := by
  intro _ k hk
  rw [show k = ⟨env, c⟩ by simpa [callOutput] using hk]
  exact (field_of_kept (fun tp => (Conn.rcvSide ⟨tp, c.so⟩).rel) (tcpOutput_kept env c).2
    fun _ => rfl).symm

theorem exitDropafterack_still (e : InEnv) (rst : Bool) (c : Conn) :
    FlowStill (exitDropafterack e rst c) := by
  unfold exitDropafterack
  split
  · exact Res.Still.quiet _ _
  · exact callOutput_still e.out _

theorem inputChecks_still (e : InEnv) (x : InSt) : FlowStill (inputChecks e x) := by
  unfold inputChecks
  refine FlowStill.bind ?_ fun y => ?_
  · unfold afterClose
    split
    · exact Res.Still.quiet _ _
    · trivial
  refine FlowStill.bind ?_ fun y => ?_
  · unfold rightTrim
    dsimp only
    split
    · split
      · split
        · exact Res.Still.quiet _ _
        · split
          · trivial
          · exact exitDropafterack_still e _ _
      · trivial
    · trivial
  refine FlowStill.bind ?_ fun y => ?_
  · unfold checkRst
    split
    · split
      · exact Res.Still.quiet _ _
      · split
        · exact exitDropafterack_still e _ _
        · exact Res.Still.quiet _ _
      all_goals first | exact Res.Still.quiet _ _ | trivial
    · trivial
  refine FlowStill.bind ?_ fun y => ?_
  · unfold checkSyn
    split
    · split
      · exact Res.Still.quiet _ _
      · exact tcpDrop_still e.out _ _
    · trivial
  unfold checkAck
  split
  · trivial
  · exact Res.Still.quiet _ _

theorem fastRexmt_still (e : InEnv) (x : InSt) : (fastRexmt e x).Still := by
  have h := callOutput_still e.out { x.conn with tp := fastRexmtTp x }
  exact fun hg k hk => (h hg k hk).trans rfl

theorem ackProcess_still (e : InEnv) (x : InSt) : FlowStill (ackProcess e x) := by
  unfold ackProcess
  split
  · unfold ackDup
    split
    · split
      · trivial
      · dsimp only
        split
        · exact fastRexmt_still e x
        · split
          · exact callOutput_still e.out _
          · trivial
    · trivial
  · unfold ackNew
    split
    · exact exitDropafterack_still e _ _
    · unfold ackState
      split
      · trivial
      · trivial
      · split
        · exact Res.Still.quiet _ _
        · trivial
      · exact exitDropafterack_still e _ _
      · trivial

theorem inputHead_still (e : InEnv) (s : Seg) (x : InSt) : FlowStill (inputHead e s x) := by
  unfold inputHead
  split
  · refine FlowStill.map ?_
    unfold inputListen
    split
    · exact tcpDrop_still e.out _ _
    · split
      · exact tcpDrop_still e.out _ _
      · trivial
  · refine FlowStill.map ?_
    unfold inputSynSent
    split
    · exact Res.Still.quiet _ _
    · split
      · split
        · exact tcpDrop_still e.out _ _
        · exact Res.Still.quiet _ _
      · split
        · exact Res.Still.quiet _ _
        · trivial
  · refine FlowStill.bind (inputChecks_still e x) fun y => FlowStill.bind ?_ fun z =>
      ackProcess_still e z
    unfold ackSynReceived
    split
    · split
      · exact Res.Still.quiet _ _
      · trivial
    · trivial

/-- **The calls of an event see the final `rcv_nxt`.** -/
theorem connStep_still (c : Conn) (ev : Event) : (connStep c ev).Still := by
  by_cases hin : ∃ e s, ev = .input e s
  · obtain ⟨e, s, rfl⟩ := hin
    show (tcpInput e s c).Still
    unfold tcpInput
    split
    · exact Res.Still.quiet _ _
    · have hh := inputHead_still e s (inputSetup e s c)
      revert hh
      cases inputHead e s (inputSetup e s c) with
      | error r => exact id
      | ok x =>
        intro _
        show (inputTail e x).Still
        unfold inputTail inputOutput
        dsimp only
        split
        · exact callOutput_still e.out _
        · exact Res.Still.quiet _ _
  · have h := @connStep_unmoved c ev fun e s he => hin ⟨e, s, he⟩
    exact fun hg k hk => (h.calls k hk).rel.trans (h.conn hg).rel.symm

/-- Every socket transition leaves an open state open. -/
theorem open_sockInv : SockInv (fun _ _ _ => True) (fun _ => True) fun st _ => st ≠ .closed where
  synReceived _ _ := by decide
  connected _ _ := by decide
  append _ h _ _ := h
  ack _ h _ := h
  finWait2 _ := by decide
  disconnected h _ := h
  timeWait _ _ := by decide
  cantrcvmore h := h
  closeWait _ _ := by decide
  closing _ := by decide
  recv _ h := h
  rcvFlush h := h
  flushed _ := trivial
  shutdown _ h _ := h
  disconnect {st _} _ h := by
    revert h
    cases st <;> decide
  nofdref _ h := h
  rcvbuf _ h := h
  keepalive _ h := h
  linger _ _ h := h

/-- A connection that is not released is not in state `CLOSED`. -/
theorem connStep_open {c c' : Conn} {ev : Event} (h : c.tp.tState ≠ .closed)
    (hn : (connStep c ev).next = some c') : c'.tp.tState ≠ .closed := by
  have hs : (connStep c ev).Sock fun st _ => st ≠ .closed :=
    connStep_sock open_sockInv h (fun _ _ _ _ _ => trivial) (fun _ _ _ _ _ _ => trivial)
      (fun _ _ _ _ _ _ => h) fun _ _ => h
  unfold Res.next at hn
  split at hn
  · cases hn
  · rename_i hg
    cases hn
    exact hs.conn (by simpa using hg)

/-- Only the user appends to the stream. -/
theorem connStep_sameLog {c : Conn} (h : ∃ U N M, SndInv c U N M) {ev : Event}
    (hns : ∀ data oob env, ev ≠ .send data oob env) :
    (connStep c ev).Ok fun c' => c'.so.soSnd.sbLog = c.so.soSnd.sbLog := by
  obtain ⟨U, N, M, h⟩ := h
  have hok := sndP_step (F := fun x _ => x.so.soSnd.sbLog = c.so.soSnd.sbLog)
    (sbLog_extra c.so.soSnd.sbLog) ev ⟨U, N, M, h, rfl⟩
    (fun e s _ => sbLog_input _ e s c) (fun data oob env _ hev => absurd hev (hns data oob env))
  refine ⟨fun hg => ?_, fun k hk => ?_⟩
  · obtain ⟨_, _, _, -, hl⟩ := hok.conn hg
    exact hl
  · obtain ⟨_, _, _, -, hl⟩ := hok.calls k hk
    exact hl

/-- The stream of an event; a connection that is released has appended nothing. -/
theorem connStep_stream {c : Conn} (h : ∃ U N M, SndInv c U N M) (ev : Event) :
    ∃ L, c.so.soSnd.sbLog <+: L ∧ (connStep c ev).Ok (fun c' => c'.so.soSnd.sbLog = L) ∧
      ((connStep c ev).gone = true → L = c.so.soSnd.sbLog) := by
  by_cases hns : ∀ data oob env, ev ≠ .send data oob env
  · exact ⟨_, List.prefix_rfl, connStep_sameLog h hns, fun _ => rfl⟩
  · simp only [not_forall, not_not] at hns
    obtain ⟨data, oob, env, rfl⟩ := hns
    obtain ⟨L, h1, h2⟩ := connStep_sbLog h (.send data oob env)
    refine ⟨L, h1, h2, fun hg => ?_⟩
    exfalso
    revert hg
    unfold connStep tcpSSend
    dsimp only
    repeat' split
    all_goals exact fun hg => by cases hg

end TnNet
