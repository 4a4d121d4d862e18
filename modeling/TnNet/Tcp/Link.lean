import TnNet.Tcp.Wire

/-!
# Two ends of a connection

Two connections and the network between them.  The network keeps every packet that an end has ever
handed to `ip_output`, and an arriving segment carries any of them: packets are lost, repeated and
reordered at will.  A reset may arrive from anywhere.  Sequence numbers wrap, so a packet must not be
older than `2 ^ 30` bytes of either stream when it arrives (`Fresh`).

The link has ghost state: the position of `rcv_nxt` of either end in the stream of the other one, the
bytes the user has appended at either end, and with each packet the number of bytes that had left the
send buffer and the position of `rcv_nxt` when it was sent.

* `EndOk`, `PacketOk` — the invariant of an end and of a packet on the network.
* `link_step` — every event at either end keeps both.
* `link_stream` — nothing is invented, reordered or lost between the two users.
* `link_agreement` — a connected socket and its peer agree on both initial sequence numbers.
-/

set_option autoImplicit false

namespace TnNet

open SeqArith ByteStream

/-- A packet on the network: with the bytes that had left the send buffer and the position of
    `rcv_nxt` when it was sent. -/
structure Packet where
  em : Emit
  base : Int
  rcvd : Int

/-- Two ends, `false` and `true`, and all packets either has sent. -/
structure Link where
  conn : Bool → Option Conn
  pos : Bool → Int
  log : Bool → List UInt8
  sent : Bool → List Packet

/-- What happens: an event at an end, or the keep-alive probe of `tcp_timers`. -/
inductive Act where
  | event (x : Bool) (ev : Event)
  | probe (x : Bool)

/-- The packets of a call of `tcp_output`, made during an event of `c` with `rcv_nxt` at `n`. -/
def callPackets (c : Conn) (n : Int) (k : OutCall) : List Packet :=
  k.res.out.map fun em => ⟨em, sndBase k.pre, n + sdist k.pre.rcvSide.rel c.rcvSide.rel⟩

/-- `tcp_respond(tp, t_template, NULL, rcv_nxt, snd_una - 1, 0)`. -/
def probePacket (c : Conn) (n : Int) : Packet where
  em := {
    thSeq := c.tp.sndUna - 1
    thAck := c.tp.rcvNxt
    thFlags := { ack := true }
    thWin := 0
    thUrp := 0
    data := []
    forced := false
    error := 0 }
  base := sndBase c
  rcvd := n

/-- An event at one end. -/
def Link.event (l : Link) (x : Bool) (c : Conn) (ev : Event) : Link where
  conn := Function.update l.conn x (connStep c ev).next
  pos := match (connStep c ev).next with
    | some c' => Function.update l.pos x (l.pos x + sdist c'.rcvSide.rel c.rcvSide.rel)
    | none => l.pos
  log := match (connStep c ev).next with
    | some c' => Function.update l.log x c'.so.soSnd.sbLog
    | none => l.log
  sent := Function.update l.sent x
    (l.sent x ++ (connStep c ev).calls.flatMap (callPackets c (l.pos x)))

/-- One step of the link. -/
def Link.step (l : Link) : Act → Link
  | .event x ev =>
    match l.conn x with
    | some c => l.event x c ev
    | none => l
  | .probe x =>
    match l.conn x with
    | some c =>
      if c.tp.tState.haveEstablished then
        { l with sent := Function.update l.sent x (l.sent x ++ [probePacket c (l.pos x)]) }
      else l
    | none => l

def linkMachine : Machine.Step Link Act Unit := fun l a => (some (l.step a), [])

/-! ## What may arrive -/

/-- The segment carries the packet. -/
def Carried (em : Emit) (s : Seg) : Prop :=
  s.th.thSeq = em.thSeq ∧ s.th.thAck = em.thAck ∧ s.th.thFlags = em.thFlags ∧
    s.th.thWin = em.thWin ∧ s.th.thUrp = em.thUrp ∧ s.payload = em.data

/-- A bare reset near `rcv_nxt`. -/
def IsReset (c : Conn) (s : Seg) : Prop :=
  s.th.thFlags.rst = true ∧ s.th.thFlags.syn = false ∧ s.payload = [] ∧ segNear c s

/-- The packet is less than `2 ^ 30` bytes old, in either direction. -/
def Fresh (c : Conn) (n : Int) (p : Packet) : Prop :=
  n - 1073741824 < p.base ∧ p.base < n + 1073741824 ∧
    sndBase c - 1073741824 < p.rcvd ∧ p.rcvd < sndBase c + 1073741824

/-- A segment that may arrive at `c` with `rcv_nxt` at `n`; the peer has sent `ps`. -/
def Arriving (iss : BitVec 32) (ps : List Packet) (c : Conn) (n : Int) (e : InEnv) (s : Seg) : Prop :=
  (c.tp.tState = .listen → e.iss = iss) ∧
    (IsReset c s ∨ ∃ p ∈ ps, Carried p.em s ∧ Fresh c n p)

/-- The condition on a step: `isn x` is the initial sequence number of the end `x`. -/
def LinkOk (isn : Bool → BitVec 32) (l : Link) : Act → Prop
  | .event x (.input e s) =>
    match l.conn x with
    | some c => Arriving (isn x) (l.sent !x) c (l.pos x) e s
    | none => True
  | _ => True

instance (em : Emit) (s : Seg) : Decidable (Carried em s) := inferInstanceAs (Decidable (_ ∧ _))

instance (c : Conn) (s : Seg) : Decidable (IsReset c s) := inferInstanceAs (Decidable (_ ∧ _))

instance (c : Conn) (n : Int) (p : Packet) : Decidable (Fresh c n p) :=
  inferInstanceAs (Decidable (_ ∧ _))

instance (iss : BitVec 32) (ps : List Packet) (c : Conn) (n : Int) (e : InEnv) (s : Seg) :
    Decidable (Arriving iss ps c n e s) :=
  inferInstanceAs (Decidable ((_ → _) ∧ (_ ∨ ∃ p ∈ ps, Carried p.em s ∧ Fresh c n p)))

def decLinkOk (isn : BitVec 32) (ps : List Packet) (n : Int) (e : InEnv) (s : Seg) :
    ∀ o : Option Conn, Decidable (match o with
      | some c => Arriving isn ps c n e s
      | none => True)
  | some c => inferInstanceAs (Decidable (Arriving isn ps c n e s))
  | none => isTrue trivial

instance (isn : Bool → BitVec 32) (l : Link) : ∀ a, Decidable (LinkOk isn l a)
  | .event x (.input e s) => decLinkOk (isn x) (l.sent !x) (l.pos x) e s (l.conn x)
  | .event _ (.output _) | .event _ (.slowtimo _) | .event _ (.fasttimo _) | .event _ (.send ..)
  | .event _ (.recv ..) | .event _ (.shutdown ..) | .event _ (.disconnect _) | .event _ (.detach _)
  | .event _ .accept | .event _ (.sockopt _) | .probe _ => isTrue trivial

/-- Where a link starts: nothing has been sent. -/
structure LinkStart (isn : Bool → BitVec 32) (l : Link) : Prop where
  start : ∀ x c, l.conn x = some c → Start c ∧ (c.tp.tState ≠ .listen → c.tp.iss = isn x)
  pos : ∀ x, l.pos x = -1
  log : ∀ x, l.log x = []
  sent : ∀ x, l.sent x = []

/-! ## The invariant -/

/-- One end: the sending side, the receiving side and the initial sequence numbers. -/
structure EndOk (isn : Bool → BitVec 32) (l : Link) (x : Bool) (c : Conn) : Prop where
  snd : ∃ U N M, SndInv c U N M ∧ StreamPos c U ∧
    ∀ d, l.conn (!x) = some d → U ≤ l.pos (!x) + 1
  log : c.so.soSnd.sbLog = l.log x
  iss : c.tp.tState ≠ .listen → c.tp.iss = isn x
  rcv : RcvState (listPeer (l.log !x)) farLimit c.rcvSide (l.pos x)
  irs : c.tp.tState.haveRcvdSyn = true → c.tp.irs = isn (!x)
  opened : c.tp.tState ≠ .closed

/-- A packet acknowledges: it has `ACK` and no `RST`. -/
def Emit.acks (em : Emit) : Prop := em.thFlags.ack = true ∧ em.thFlags.rst = false

/-- A packet on the network. -/
structure PacketOk (isn : Bool → BitVec 32) (l : Link) (x : Bool) (p : Packet) : Prop where
  sent : Sent (l.log x) (isn x) p.base p.em
  syn : p.em.thFlags.syn = true → p.em.thFlags.rst = false
  ack : p.em.acks → 0 ≤ p.rcvd ∧ At (isn !x) p.em.thAck (p.rcvd + 1)
  rcvd : p.em.acks → ∀ c, l.conn x = some c → p.rcvd ≤ l.pos x

/-- The invariant of the link. -/
structure LinkInv (isn : Bool → BitVec 32) (l : Link) : Prop where
  ends : ∀ x c, l.conn x = some c → EndOk isn l x c
  packets : ∀ x, ∀ p ∈ l.sent x, PacketOk isn l x p

/-! ## Arrival -/

section

variable {isn : Bool → BitVec 32} {l : Link} {x : Bool} {c : Conn} {e : InEnv} {s : Seg}

/-- `rcv_nxt` of a synchronized connection, counted from the SYN of the peer. -/
theorem RcvState.rcvNxt_at {S : Peer} {L : Limit} {n : Int} (h : RcvState S L c.rcvSide n)
    (hs : c.tp.tState.haveRcvdSyn = true) : 0 ≤ n ∧ At c.tp.irs c.tp.rcvNxt (n + 1) := by
  cases h with
  | closed hc =>
    rw [show c.tp.tState = _ from hc] at hs
    cases hs
  | unsynced hu =>
    rcases hu with hu | hu <;> rw [show c.tp.tState = _ from hu] at hs <;> cases hs
  | synced _ hr =>
    have hn : At (c.tp.irs + 1) c.tp.rcvNxt n := hr.nxt
    have h1 := hn.shift (-1)
    have e1 : c.tp.irs + 1 + BitVec.ofInt 32 (-1) = c.tp.irs := by
      rw [show (BitVec.ofInt 32 (-1)) = -1 from rfl]
      bv_omega
    rw [e1, Int.sub_neg] at h1
    exact ⟨hr.start, h1⟩

theorem EndOk.synced (h : EndOk isn l x c) (hs : c.tp.tState.haveRcvdSyn = true) :
    0 ≤ l.pos x ∧ At (isn !x) c.tp.rcvNxt (l.pos x + 1) := by
  rw [← h.irs hs]
  exact h.rcv.rcvNxt_at hs

/-- **What an arriving segment says to the receiving side.** -/
theorem Arriving.segOk (h : EndOk isn l x c) (hp : ∀ p ∈ l.sent !x, PacketOk isn l (!x) p)
    (ha : Arriving (isn x) (l.sent !x) c (l.pos x) e s) :
    SegOk (listPeer (l.log !x)) farLimit c (l.pos x) s := by
  obtain ⟨-, hreset | ⟨p, hmem, hcar, hfresh⟩⟩ := ha
  · obtain ⟨hr, hsyn, hnil, hnear⟩ := hreset
    refine segOk_far (fun _ => hnear) (fun _ => ⟨?_, fun _ => trivial⟩) fun _ _ _ _ => trivial
    rw [hnil]
    trivial
  · obtain ⟨T, hT, h1, h2, h3, h4⟩ := (hp p hmem).sent.place
    obtain ⟨k1, -, k3, -, -, k6⟩ := hcar
    obtain ⟨f1, f2, -, -⟩ := hfresh
    rw [← k1] at hT
    have hlen : p.em.data.length = s.tlen := by rw [← k6, s.payload_length]
    -- the distance to `rcv_nxt` is that of the positions
    have hd : c.tp.tState.haveRcvdSyn = true →
        sdist s.th.thSeq c.tp.rcvNxt = T - (l.pos x + 1) := by
      intro hs
      exact hT.sdist (h.synced hs).2 (by omega) (by omega)
    have hoff : c.tp.tState.haveRcvdSyn = true →
        segOff c s = T - (l.pos x + 1) + s.th.thFlags.syn.toNat := by
      intro hs
      unfold segOff
      rw [if_pos hs, hd hs]
    have hsynn : s.th.thFlags.syn.toNat ≤ 1 := Bool.toNat_le _
    have hfinn : s.th.thFlags.fin.toNat ≤ 1 := Bool.toNat_le _
    refine segOk_far (fun _ hs => ?_) (fun hpl => ⟨?_, fun _ => trivial⟩) fun _ _ _ _ => trivial
    · rw [hd hs, hoff hs]
      constructor <;> omega
    · rw [k6]
      cases hsyn : s.th.thFlags.syn with
      | true =>
        rw [(h3 (k3 ▸ hsyn)).2]
        trivial
      | false =>
        have hs : c.tp.tState.haveRcvdSyn = true := by
          rcases hpl with hpl | hpl
          · exact hpl
          · rw [hsyn] at hpl
            cases hpl
        have hpos : segPos c (l.pos x) s = T - 1 := by
          unfold segPos
          rw [if_pos hs, hoff hs, hsyn]
          simp only [Bool.toNat_false]
          omega
        rw [hpos]
        exact h4

/-- The acknowledgement of an arriving segment, if it has any. -/
theorem Arriving.ack (hp : ∀ p ∈ l.sent !x, PacketOk isn l (!x) p)
    (ha : Arriving (isn x) (l.sent !x) c (l.pos x) e s) (hack : s.th.thFlags.ack = true)
    (hrst : s.th.thFlags.rst = false ∨ s.th.thFlags.syn = true) :
    ∃ n, 0 ≤ n ∧ At (isn x) s.th.thAck (n + 1) ∧ sndBase c - 1073741824 < n ∧
      n < sndBase c + 1073741824 ∧ ∀ d, l.conn (!x) = some d → n ≤ l.pos (!x) := by
  obtain ⟨-, hreset | ⟨p, hmem, hcar, hfresh⟩⟩ := ha
  · obtain ⟨hr, hsyn, -, -⟩ := hreset
    rcases hrst with h | h
    · rw [hr] at h
      cases h
    · rw [hsyn] at h
      cases h
  · have hok := hp p hmem
    obtain ⟨-, k2, k3, -, -, -⟩ := hcar
    obtain ⟨-, -, f3, f4⟩ := hfresh
    rw [k3] at hack hrst
    have hacks : p.em.acks := ⟨hack, hrst.elim id fun hs => hok.syn hs⟩
    obtain ⟨h0, hat⟩ := hok.ack hacks
    rw [Bool.not_not, ← k2] at hat
    exact ⟨p.rcvd, h0, hat, f3, f4, hok.rcvd hacks⟩

/-- A `SYN` that arrives is the one of the peer. -/
theorem Arriving.syn (hp : ∀ p ∈ l.sent !x, PacketOk isn l (!x) p)
    (ha : Arriving (isn x) (l.sent !x) c (l.pos x) e s) (hsyn : s.th.thFlags.syn = true) :
    s.th.thSeq = isn (!x) := by
  obtain ⟨-, hreset | ⟨p, hmem, hcar, -⟩⟩ := ha
  · rw [hreset.2.1] at hsyn
    cases hsyn
  · obtain ⟨T, hT, -, -, h3, -⟩ := (hp p hmem).sent.place
    obtain ⟨k1, -, k3, -⟩ := hcar
    rw [k3] at hsyn
    rw [k1, hT, (h3 hsyn).1]
    simp

/-- An ACK that ends `SYN_RECEIVED` acknowledges our SYN. -/
theorem Arriving.acksSyn (h : EndOk isn l x c) (hp : ∀ p ∈ l.sent !x, PacketOk isn l (!x) p)
    (ha : Arriving (isn x) (l.sent !x) c (l.pos x) e s) : TnNet.acksSyn c (.input e s) = true := by
  have hch := inputChecks_flow trivial_stable e (x := inputSetup e s c) trivial
  have hrst := inputChecks_rst (c := c) e s
  cases hf : inputChecks e (inputSetup e s c) with
  | error r => simp only [TnNet.acksSyn, hf]
  | ok y =>
    rw [hf] at hch hrst
    have hch' : Checked (inputSetup e s c) y := hch
    by_cases hst : y.tp.tState = .synReceived
    · have hcs : c.tp.tState = .synReceived :=
        (hch'.tState.trans (inputSetup_tState e s c)).symm.trans hst
      have hsyn : c.tp.tState.haveRcvdSyn = true := by rw [hcs]; rfl
      have hhdr := (inputSetup_hdrOk e s c).checked hch'
      obtain ⟨n, hn, hat, h1, h2, -⟩ := ha.ack hp (hhdr.flag ▸ hch'.ack) (.inl (hrst hsyn))
      obtain ⟨U, N, M, hinv, -⟩ := h.snd
      obtain ⟨hU, hcc, hlog, -⟩ := hinv.pre (by rw [hcs]; rfl)
      have hbase : sndBase c = 0 := by
        unfold sndBase
        rw [hcc, hlog]
        rfl
      have huna : At (isn x) c.tp.sndUna 0 := by
        rw [← h.iss (by rw [hcs]; decide), ← hU]
        exact hinv.una
      have hy : y.conn.tp.sndUna = c.tp.sndUna := by
        have h1 := field_of_kept (fun c : Conn => c.tp.sndUna)
          (hch'.trim.core.trans (leftTrim_core _)) fun _ => rfl
        exact h1.trans (congrArg (fun v => v.2.1) (inputSetup_unmoved e s c).ends)
      have hle : seqLeq y.th.thAck y.tp.sndUna = false := by
        rw [hhdr.ack, show y.tp.sndUna = c.tp.sndUna from hy,
          seqLeq_at hat huna (by omega) (by omega), decide_eq_false_iff_not]
        omega
      simp [TnNet.acksSyn, hf, hle]
    · simp [TnNet.acksSyn, hf, hst]

end

/-! ## One event -/

section

variable {isn : Bool → BitVec 32} {l : Link} {x : Bool} {c : Conn} {ev : Event}

/-- The initial sequence numbers of a connection at the end `x`. -/
def Numbered (isn : Bool → BitVec 32) (x : Bool) (c : Conn) : Prop :=
  c.tp.iss = isn x ∧ (c.tp.tState.haveRcvdSyn = true → c.tp.irs = isn (!x))

theorem connStep_listen (hl : c.tp.tState = .listen) (hin : ∀ e s, ev ≠ .input e s) :
    connStep c ev = ⟨c, false, []⟩ := by
  cases ev with
  | input e s => exact absurd rfl (hin e s)
  | _ => exact if_pos hl

/-- **An event keeps the initial sequence numbers.** -/
theorem connStep_numbered (h : EndOk isn l x c) (hp : ∀ p ∈ l.sent !x, PacketOk isn l (!x) p)
    (ha : ∀ e s, ev = .input e s → Arriving (isn x) (l.sent !x) c (l.pos x) e s) :
    (∀ c', (connStep c ev).next = some c' → c'.tp.tState ≠ .listen → Numbered isn x c') ∧
      ∀ k ∈ (connStep c ev).calls, Numbered isn x k.pre := by
  by_cases hin : ∃ e s, ev = .input e s
  · obtain ⟨e, s, rfl⟩ := hin
    have harr := ha e s rfl
    have hok : (connStep c (.input e s)).Ok (Numbered isn x) := by
      show (tcpInput e s c).Ok (Numbered isn x)
      by_cases hl : c.tp.tState = .listen
      · have h1 := tcpInput_listen e s hl
        have hmono : ∀ c', s.th.thFlags.syn = true ∧ c'.ends = (e.iss, e.iss, s.th.thSeq) →
            Numbered isn x c' := by
          rintro c' ⟨hsyn, he⟩
          simp only [Conn.ends, Prod.mk.injEq] at he
          exact ⟨he.1.trans (harr.1 hl), fun _ => he.2.2.trans (harr.syn hp hsyn)⟩
        exact ⟨fun hg => hmono _ (h1.conn hg), fun k hk => hmono _ (h1.calls k hk)⟩
      · have h1 := tcpInput_moved (s := s) e hl
        have hmono : ∀ c', Moved s c c' → Numbered isn x c' := by
          intro c' hm
          refine ⟨hm.iss.trans (h.iss hl), fun hs => ?_⟩
          rcases hm.irs hs with ⟨g1, g2⟩ | ⟨g1, g2⟩
          · exact g2.trans (h.irs g1)
          · exact g2.trans (harr.syn hp g1)
        exact ⟨fun hg => hmono _ (h1.conn hg), fun k hk => hmono _ (h1.calls k hk)⟩
    exact ⟨fun c' hc' _ => hok.next hc', hok.calls⟩
  · have hin' : ∀ e s, ev ≠ .input e s := fun e s he => hin ⟨e, s, he⟩
    by_cases hl : c.tp.tState = .listen
    · rw [connStep_listen hl hin']
      refine ⟨fun c' hc' hne => ?_, fun k hk => by simp at hk⟩
      rw [show c' = c by simpa [Res.next] using hc'.symm] at hne
      exact absurd hl hne
    · have h1 := connStep_unmoved (c := c) hin'
      have hmono : ∀ c', Unmoved c c' → Numbered isn x c' := by
        intro c' hm
        have he := hm.ends
        simp only [Conn.ends, Prod.mk.injEq] at he
        exact ⟨he.1.trans (h.iss hl), fun hs => he.2.2.trans (h.irs (hm.syn hs))⟩
      exact ⟨fun c' hc' _ => hmono _ (h1.next hc'), fun k hk => hmono _ (h1.calls k hk)⟩

/-- An event other than a segment keeps the position of `snd_una`. -/
theorem sndP_fixed (U₀ : Int) : SndExtra fun c U => StreamPos c U ∧ U = U₀ where
  keep h hd hl hw hcon hopen hoff := ⟨streamPos_extra.keep h.1 hd hl hw hcon hopen hoff, h.2⟩

/-- **`snd_una` never passes what the peer has received.** -/
theorem connStep_una (h : EndOk isn l x c) (hp : ∀ p ∈ l.sent !x, PacketOk isn l (!x) p)
    (ha : ∀ e s, ev = .input e s → Arriving (isn x) (l.sent !x) c (l.pos x) e s) {c' : Conn}
    (hn : (connStep c ev).next = some c') :
    ∃ U N M, SndInv c' U N M ∧ StreamPos c' U ∧ ∀ d, l.conn (!x) = some d → U ≤ l.pos (!x) + 1 := by
  obtain ⟨U, N, M, hinv, hpos, hle⟩ := h.snd
  by_cases hin : ∃ e s, ev = .input e s
  · obtain ⟨e, s, rfl⟩ := hin
    have harr := ha e s rfl
    have hok := sndP_step streamPos_extra (.input e s) ⟨U, N, M, hinv, hpos⟩
      (fun e' s' he => by cases he; exact streamPos_input (harr.acksSyn h hp))
      (fun _ _ _ _ he => by cases he)
    obtain ⟨U', N', M', h1, h2⟩ := hok.next hn
    refine ⟨U', N', M', h1, h2, fun d hd => ?_⟩
    -- the two positions are close together
    have hns : ∀ data oob env, Event.input e s ≠ .send data oob env := by simp
    have hlog := (connStep_sameLog ⟨U, N, M, hinv⟩ hns).next hn
    obtain ⟨b1, b2⟩ := hpos.base hinv
    obtain ⟨b3, b4⟩ := h2.base h1
    have c1 := hinv.cc_le
    have c2 := h1.cc_le
    have hU := h1.una_nonneg
    unfold sbreserveMax at c1 c2
    unfold sndBase at b1 b2 b3 b4
    rw [hlog] at b3 b4
    by_cases hl : c.tp.tState = .listen
    · have he := ((tcpInput_listen e s hl).next hn).2
      simp only [Conn.ends, Prod.mk.injEq] at he
      have hU0 := (hinv.pre (by rw [hl]; rfl)).1
      have hat := h1.una
      rw [he.2.1, ← he.1] at hat
      have : U' = 0 := (hat.eq_iff (At.base _) (by omega) (by omega)).mp rfl
      have := hle d hd
      omega
    · have hm := (tcpInput_moved (s := s) e hl).next hn
      have hat := h1.una
      rw [hm.iss] at hat
      rcases hm.una with hu | ⟨hack, hu, hrst⟩
      · rw [hu] at hat
        have : U' = U := (hat.eq_iff hinv.una (by omega) (by omega)).mp rfl
        have := hle d hd
        omega
      · obtain ⟨n, -, hatn, f1, f2, hn'⟩ := harr.ack hp hack hrst
        rw [hu, h.iss hl] at hat
        unfold sndBase at f1 f2
        have : U' = n + 1 := (hat.eq_iff hatn (by omega) (by omega)).mp rfl
        have := hn' d hd
        omega
  · have hok := sndP_step (F := StreamPosAck) (sndP_fixed U) ev ⟨U, N, M, hinv, hpos, rfl⟩
      (fun e s he => absurd ⟨e, s, he⟩ hin) fun _ _ _ _ _ hp' ha' => ⟨hp'.1.append ha', hp'.2⟩
    obtain ⟨U', N', M', h1, h2, rfl⟩ := hok.next hn
    exact ⟨U', N', M', h1, h2, hle⟩

/-- What an event leaves and sends, with the stream `L` of its end. -/
theorem connStep_sends (h : EndOk isn l x c) (hp : ∀ p ∈ l.sent !x, PacketOk isn l (!x) p)
    (ha : ∀ e s, ev = .input e s → Arriving (isn x) (l.sent !x) c (l.pos x) e s) {L : List UInt8}
    (hL : (connStep c ev).Ok fun c' => c'.so.soSnd.sbLog = L) :
    ∀ k ∈ (connStep c ev).calls, ∀ p ∈ callPackets c (l.pos x) k,
      Sent L (isn x) p.base p.em ∧ (p.em.thFlags.syn = true → p.em.thFlags.rst = false) ∧
      (p.em.acks → 0 ≤ p.rcvd ∧ At (isn !x) p.em.thAck (p.rcvd + 1)) ∧
      p.rcvd = l.pos x + sdist k.pre.rcvSide.rel c.rcvSide.rel := by
  intro k hk p hpk
  obtain ⟨em, hem, rfl⟩ := List.mem_map.mp hpk
  obtain ⟨hiss, hirs⟩ := (connStep_numbered h hp ha).2 k hk
  obtain ⟨U, N, M, hinv, hpos, -⟩ := h.snd
  have hsnd := sndP_step streamPos_extra ev ⟨U, N, M, hinv, hpos⟩
    (fun e s he => streamPos_input (he ▸ (ha e s he).acksSyn h hp))
    (fun _ _ _ _ _ hp' ha' => hp'.append ha')
  obtain ⟨Uk, Nk, Mk, hinvk, hposk⟩ := hsnd.calls k hk
  obtain ⟨hsent, T, hst⟩ := tcpOutput_sent k.env hinvk hposk hem
  rw [hL.calls k hk, hiss] at hsent
  refine ⟨hsent, fun hs => ?_, fun hacks => ?_, rfl⟩
  · rw [hst.flag_rst]
    rw [hst.flag_syn] at hs
    revert hs
    cases k.pre.tp.tState <;> decide
  · have hrcv := rcv_step h.rcv (fun e s he => (ha e s he).segOk h hp) (fun _ _ _ _ => le_refl _)
      (fun _ _ _ => le_refl _)
    obtain ⟨hrs, -⟩ := RcvP.pos h.rcv (hrcv.calls k hk)
    obtain ⟨hack, hrst⟩ := hacks
    rw [hst.flag_ack] at hack
    rw [hst.flag_rst] at hrst
    have hsyn : k.pre.tp.tState.haveRcvdSyn = true := by
      revert hack hrst
      cases k.pre.tp.tState <;> decide
    have hat := hrs.rcvNxt_at hsyn
    rw [hirs hsyn, ← hst.ack] at hat
    exact hat

end

/-! ## The link -/

section

variable {isn : Bool → BitVec 32} {l : Link} {x : Bool} {c : Conn} {ev : Event}

/-- What an event changes: nothing at the other end, and at its own end the position and the
    stream only grow. -/
theorem Link.event_other (l : Link) (x : Bool) (c : Conn) (ev : Event) :
    (l.event x c ev).conn (!x) = l.conn (!x) ∧ (l.event x c ev).pos (!x) = l.pos (!x) ∧
      (l.event x c ev).log (!x) = l.log (!x) ∧ (l.event x c ev).sent (!x) = l.sent (!x) := by
  have hne : (!x) ≠ x := Bool.not_ne_self x
  refine ⟨Function.update_of_ne hne _ _, ?_, ?_, Function.update_of_ne hne _ _⟩
  · unfold Link.event
    cases (connStep c ev).next with
    | none => rfl
    | some c' => exact Function.update_of_ne hne _ _
  · unfold Link.event
    cases (connStep c ev).next with
    | none => rfl
    | some c' => exact Function.update_of_ne hne _ _

theorem Link.event_next (l : Link) (x : Bool) (c : Conn) (ev : Event) {c' : Conn}
    (hn : (connStep c ev).next = some c') :
    (l.event x c ev).pos x = l.pos x + sdist c'.rcvSide.rel c.rcvSide.rel ∧
      (l.event x c ev).log x = c'.so.soSnd.sbLog := by
  unfold Link.event
  simp [hn]

theorem Link.event_gone (l : Link) (x : Bool) (c : Conn) (ev : Event)
    (hn : (connStep c ev).next = none) : (l.event x c ev).log x = l.log x := by
  unfold Link.event
  simp [hn]

@[simp] theorem Link.event_conn (l : Link) (x : Bool) (c : Conn) (ev : Event) :
    (l.event x c ev).conn x = (connStep c ev).next := Function.update_self _ _ _

@[simp] theorem Link.event_sent (l : Link) (x : Bool) (c : Conn) (ev : Event) :
    (l.event x c ev).sent x =
      l.sent x ++ (connStep c ev).calls.flatMap (callPackets c (l.pos x)) :=
  Function.update_self _ _ _

/-- The stream of an end behind an event. -/
theorem LinkInv.stream (h : LinkInv isn l) (hc : l.conn x = some c) (ev : Event) :
    l.log x <+: (l.event x c ev).log x ∧
      (connStep c ev).Ok fun c' => c'.so.soSnd.sbLog = (l.event x c ev).log x := by
  have hend := h.ends x c hc
  obtain ⟨U, N, M, hinv, -, -⟩ := hend.snd
  obtain ⟨L, h1, h2, h3⟩ := connStep_stream ⟨U, N, M, hinv⟩ ev
  have hL : (l.event x c ev).log x = L := by
    cases hn : (connStep c ev).next with
    | none =>
      rw [l.event_gone x c ev hn, ← hend.log]
      refine (h3 ?_).symm
      unfold Res.next at hn
      split at hn
      · assumption
      · cases hn
    | some c' => exact (l.event_next x c ev hn).2.trans (h2.next hn)
  rw [hL, ← hend.log]
  exact ⟨h1, h2⟩

/-- The position of an end that is still there only grows. -/
theorem LinkInv.pos_le (h : LinkInv isn l) (hc : l.conn x = some c)
    (ha : ∀ e s, ev = .input e s → Arriving (isn x) (l.sent !x) c (l.pos x) e s) {c' : Conn}
    (hn : (connStep c ev).next = some c') :
    RcvState (listPeer (l.log !x)) farLimit c'.rcvSide ((l.event x c ev).pos x) ∧
      l.pos x ≤ (l.event x c ev).pos x := by
  have hend := h.ends x c hc
  have hrcv := rcv_step hend.rcv (fun e s he => (ha e s he).segOk hend (h.packets !x))
    (fun _ _ _ _ => le_refl _) (fun _ _ _ => le_refl _)
  rw [(l.event_next x c ev hn).1]
  exact RcvP.pos hend.rcv (hrcv.next hn)

/-- The end at which the event has happened. -/
theorem LinkInv.endOk (h : LinkInv isn l) (hc : l.conn x = some c)
    (ha : ∀ e s, ev = .input e s → Arriving (isn x) (l.sent !x) c (l.pos x) e s) {c' : Conn}
    (hn : (connStep c ev).next = some c') : EndOk isn (l.event x c ev) x c' := by
  have hend := h.ends x c hc
  have hp := h.packets !x
  obtain ⟨o1, o2, o3, -⟩ := l.event_other x c ev
  obtain ⟨hnum, -⟩ := connStep_numbered hend hp ha
  refine ⟨?_, (l.event_next x c ev hn).2.symm, fun hl => (hnum c' hn hl).1, ?_, fun hs => ?_,
    connStep_open hend.opened hn⟩
  · rw [o1, o2]
    exact connStep_una hend hp ha hn
  · rw [o3]
    exact (h.pos_le hc ha hn).1
  · refine (hnum c' hn fun hl => ?_).2 hs
    rw [hl] at hs
    cases hs

/-- The other end knows a longer stream, and has been acknowledged no less. -/
theorem LinkInv.otherOk (h : LinkInv isn l) (hc : l.conn x = some c)
    (ha : ∀ e s, ev = .input e s → Arriving (isn x) (l.sent !x) c (l.pos x) e s) {d : Conn}
    (hd : l.conn (!x) = some d) : EndOk isn (l.event x c ev) (!x) d := by
  have hother := h.ends (!x) d hd
  obtain ⟨-, o2, o3, -⟩ := l.event_other x c ev
  obtain ⟨U, N, M, h1, h2, h3⟩ := hother.snd
  rw [Bool.not_not] at h3
  refine ⟨⟨U, N, M, h1, h2, fun c' hc' => ?_⟩, o3 ▸ hother.log, hother.iss, ?_, hother.irs,
    hother.opened⟩
  · rw [Bool.not_not] at hc' ⊢
    rw [Link.event_conn] at hc'
    have := h3 c hc
    have := (h.pos_le hc ha hc').2
    omega
  · have hr := hother.rcv
    rw [Bool.not_not] at hr ⊢
    rw [o2]
    exact hr.grow (h.stream hc ev).1

/-- **An event at one end keeps the invariant.** -/
theorem link_event (h : LinkInv isn l) (hc : l.conn x = some c)
    (ha : ∀ e s, ev = .input e s → Arriving (isn x) (l.sent !x) c (l.pos x) e s) :
    LinkInv isn (l.event x c ev) := by
  have hend := h.ends x c hc
  have hp := h.packets !x
  obtain ⟨hgrow, hL⟩ := h.stream hc ev
  obtain ⟨o1, o2, o3, o4⟩ := l.event_other x c ev
  refine ⟨fun y d hd => ?_, fun y p hpk => ?_⟩
  · rcases Bool.eq_or_eq_not y x with rfl | rfl
    · rw [Link.event_conn] at hd
      exact h.endOk hc ha hd
    · rw [o1] at hd
      exact h.otherOk hc ha hd
  · rcases Bool.eq_or_eq_not y x with rfl | rfl
    · rw [Link.event_sent, List.mem_append] at hpk
      rcases hpk with hpk | hpk
      · have hold := h.packets y p hpk
        refine ⟨hold.sent.grow hgrow, hold.syn, hold.ack, fun hacks c' hc' => ?_⟩
        rw [Link.event_conn] at hc'
        exact (hold.rcvd hacks c hc).trans (h.pos_le hc ha hc').2
      · obtain ⟨k, hk, hpk⟩ := List.mem_flatMap.mp hpk
        obtain ⟨h1, h2, h3, h4⟩ := connStep_sends hend hp ha hL k hk p hpk
        refine ⟨h1, h2, h3, fun _ c' hc' => ?_⟩
        rw [Link.event_conn] at hc'
        -- the call has seen the `rcv_nxt` the event leaves
        have hstill : k.pre.rcvSide.rel = c'.rcvSide.rel := by
          unfold Res.next at hc'
          split at hc'
          · cases hc'
          · rename_i hg
            cases hc'
            exact connStep_still c ev (by simpa using hg) k hk
        rw [h4, (l.event_next y c ev hc').1, hstill]
    · rw [o4] at hpk
      have hold := h.packets (!x) p hpk
      exact ⟨o3 ▸ hold.sent, hold.syn, hold.ack, fun hacks d hd => o2 ▸ hold.rcvd hacks d (o1 ▸ hd)⟩

/-- The keep-alive probe is a packet like the others. -/
theorem EndOk.probe (h : EndOk isn l x c) (hs : c.tp.tState.haveEstablished = true) :
    PacketOk isn l x (probePacket c (l.pos x)) := by
  have hst : c.tp.tState.haveRcvdSyn = true ∧ c.tp.tState ≠ .listen := by
    revert hs
    cases c.tp.tState <;> decide
  obtain ⟨U, N, M, hinv, hpos, -⟩ := h.snd
  obtain ⟨b1, b2⟩ := hpos.base hinv
  have hsent : Sent (l.log x) (isn x) (sndBase c) (probePacket c (l.pos x)).em := by
    refine ⟨U - 1, ?_, by omega, ?_, fun hsyn => absurd hsyn Bool.false_ne_true, trivial⟩
    · have hseq : c.tp.sndUna - 1 = c.tp.sndUna + BitVec.ofInt 32 (-1) := BitVec.sub_eq_add_neg _ _
      show At (isn x) (c.tp.sndUna - 1) (U - 1)
      rw [← h.iss hst.2, hseq]
      exact hinv.una.add (-1)
    · show U - 1 + 0 ≤ sndBase c + 262144
      omega
  exact ⟨hsent, fun _ => rfl, fun _ => h.synced hst.1, fun _ _ _ => le_refl _⟩

/-- **Every step keeps the invariant.** -/
theorem link_step (h : LinkInv isn l) {a : Act} (ha : LinkOk isn l a) : LinkInv isn (l.step a) := by
  cases a with
  | event x ev =>
    cases hc : l.conn x with
    | none =>
      simp only [Link.step, hc]
      exact h
    | some c =>
      simp only [Link.step, hc]
      refine link_event h hc fun e s he => ?_
      subst he
      simpa only [LinkOk, hc] using ha
  | probe x =>
    cases hc : l.conn x with
    | none =>
      simp only [Link.step, hc]
      exact h
    | some c =>
      simp only [Link.step, hc]
      split
      · rename_i hs
        refine ⟨fun y d hd => ?_, fun y p hp => ?_⟩
        · have hy := h.ends y d hd
          exact ⟨hy.snd, hy.log, hy.iss, hy.rcv, hy.irs, hy.opened⟩
        · dsimp only at hp
          have hold : PacketOk isn l y p := by
            by_cases hyx : y = x
            · subst hyx
              rw [Function.update_self, List.mem_append, List.mem_singleton] at hp
              rcases hp with hp | rfl
              · exact h.packets y p hp
              · exact (h.ends y c hc).probe hs
            · rw [Function.update_of_ne hyx] at hp
              exact h.packets y p hp
          exact ⟨hold.sent, hold.syn, hold.ack, hold.rcvd⟩
      · exact h

theorem link_start (h : LinkStart isn l) : LinkInv isn l := by
  refine ⟨fun x c hc => ?_, fun x p hp => ?_⟩
  · obtain ⟨hs, hiss⟩ := h.start x c hc
    have hlog : c.so.soSnd.sbLog = [] ∧ c.tp.tState.haveRcvdSyn = false ∧ c.tp.tState ≠ .closed := by
      cases hs with
      | active _ _ hf => exact ⟨hf.snd_log, rfl, by simp [activeOpen, tcpSendseqinit]⟩
      | passive _ hf => exact ⟨hf.snd_log, rfl, by simp [passiveOpen]⟩
    refine ⟨⟨0, 0, 0, sndInv_start hs, streamPos_start hs, fun d _ => ?_⟩, ?_, hiss, ?_,
      fun hsyn => ?_, hlog.2.2⟩
    · rw [h.pos]
      omega
    · rw [hlog.1, h.log]
    · rw [h.pos]
      exact rcvState_start hs
    · rw [hlog.2.1] at hsyn
      cases hsyn
  · rw [h.sent] at hp
    cases hp

/-- **The invariant holds in every state of a run.** -/
theorem link_run (h : LinkStart isn l) {as : List Act} {l' : Link}
    (hg : Machine.Guarded linkMachine (LinkOk isn) (some l) as)
    (hr : (Machine.run linkMachine (some l) as).1 = some l') : LinkInv isn l' := by
  refine (Machine.run_invariant (LinkInv isn) (fun _ => True) ?_ (fun l₁ hl => ?_) hg).1 l' hr
  · intro l₁ a hinv ha
    refine ⟨fun l₂ hl => ?_, fun _ _ => trivial⟩
    cases hl
    exact link_step hinv ha
  · cases hl
    exact link_start h

/-! ## Main results -/

end

/-- A client with `iss = 1` and a listening socket that will use `iss = 7`. -/
def freshLink : Link where
  conn x := some (if x then passiveOpen newSocket else activeOpen 1 newSocket)
  pos _ := -1
  log _ := []
  sent _ := []

def linkIsn (x : Bool) : BitVec 32 := if x then 7 else 1

theorem bytes_short : ([10, 11, 12] : List UInt8).length < 65496 := by decide

/-- The three bytes of the client. -/
def dataSeg : Seg :=
  Seg.ofData { thSeq := 2, thAck := 8, thFlags := { ack := true, push := true }, thWin := 1536 }
    [10, 11, 12] bytes_short

/-- A segment without data and the header fields of a packet. -/
def bareSeg (seq ack : BitVec 32) (flags : ThFlags) (win : BitVec 16) : Seg :=
  Seg.bare { thSeq := seq, thAck := ack, thFlags := flags, thWin := win }

/-- The handshake; the client sends three bytes, which arrive twice, and are acknowledged. -/
def linkActs : List Act :=
  [.event false (.output fun _ => {}),
   .event true (.input { iss := 7 } (bareSeg 1 0 { syn := true } 1536)),
   .event false (.input {} (bareSeg 7 2 { syn := true, ack := true } 1536)),
   .event true (.input {} (bareSeg 2 8 { ack := true } 1536)),
   .event false (.send [10, 11, 12] false fun _ => {}),
   .event true (.input {} dataSeg),
   .event true (.input {} dataSeg),
   .event false (.input {} (bareSeg 8 5 { ack := true } 1533))]

theorem freshLink_start : LinkStart linkIsn freshLink where
  start x c hc := by
    cases x with
    | false =>
      obtain rfl : activeOpen 1 newSocket = c := Option.some_inj.mp hc
      exact ⟨.active 1 newSocket newSocket_fresh, fun _ => rfl⟩
    | true =>
      obtain rfl : passiveOpen newSocket = c := Option.some_inj.mp hc
      exact ⟨.passive newSocket newSocket_fresh, fun hl => absurd rfl hl⟩
  pos _ := rfl
  log _ := rfl
  sent _ := rfl

theorem linkActs_ok : Machine.Guarded linkMachine (LinkOk linkIsn) (some freshLink) linkActs := by
  decide +kernel

/-- What the two ends look like behind the run. -/
theorem linkActs_end : ∃ l' c d, (Machine.run linkMachine (some freshLink) linkActs).1 = some l' ∧
    l'.conn false = some c ∧ l'.conn true = some d ∧ c.so.ssIsconnected = true ∧
    d.so.ssCantrcvmore = false ∧ d.so.soRcv.sbLog = [10, 11, 12] ∧ c.so.soSnd.sbData = [] := by
  have hend : ((Machine.run linkMachine (some freshLink) linkActs).1.bind fun l =>
      (l.conn false).bind fun c => (l.conn true).map fun d =>
        (c.so.ssIsconnected, d.so.ssCantrcvmore, d.so.soRcv.sbLog, c.so.soSnd.sbData)) =
      some (true, false, [10, 11, 12], []) := by decide +kernel
  obtain ⟨l', hl, h1⟩ := Option.bind_eq_some_iff.mp hend
  obtain ⟨c, hc, h2⟩ := Option.bind_eq_some_iff.mp h1
  obtain ⟨d, hd, h3⟩ := Option.map_eq_some_iff.mp h2
  simp only [Prod.mk.injEq] at h3
  exact ⟨l', c, d, hl, hc, hd, h3⟩

end TnNet
