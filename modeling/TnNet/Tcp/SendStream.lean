import TnNet.Tcp.SendRules

/-!
# The outgoing stream

The bytes the user appends to the send buffer are one stream `S`; its byte number `i` has the
sequence number `iss + 1 + i`.

* `SendStream` — `snd_una ≤ snd_nxt ≤ snd_max`, and the send buffer holds the stream from
  `snd_una` on;
* `Carries` — the data of a packet is the slice of the stream at its sequence number;
* `send_stream` — both hold in every run whose segments meet `acksSyn`.

In `SYN_RECEIVED` the code enters `ESTABLISHED` on an ACK of `snd_una`, which does not acknowledge
our SYN.  `snd_una` is then still the number of the SYN, and the offset of the data in the send
buffer is wrong by one (`bare_ack_shifts_stream`).
-/

set_option autoImplicit false

namespace TnNet

open SeqArith

/-- A segment in state `SYN_RECEIVED` that passes the test of its ACK acknowledges our SYN. -/
def acksSyn (c : Conn) : Event → Bool
  | .input e s =>
    match inputChecks e (inputSetup e s c) with
    | .ok x =>
      !(decide (x.tp.tState = .synReceived) && !seqGt x.tp.sndUna x.th.thAck &&
        !seqGt x.th.thAck x.tp.sndMax && seqLeq x.th.thAck x.tp.sndUna)
    | .error _ => true
  | _ => true

/-- The sending side of a connection whose user sends the stream `S`. -/
structure SendStream (S : List UInt8) (c : Conn) : Prop where
  una_le : seqLeq c.tp.sndUna c.tp.sndNxt = true
  nxt_le : seqLeq c.tp.sndNxt c.tp.sndMax = true
  log : c.so.soSnd.sbLog <+: S
  held : ∃ U : Nat, c.tp.sndUna = c.tp.iss + BitVec.ofNat 32 U ∧
    U ≤ c.so.soSnd.sbLog.length + 2 ∧ c.so.soSnd.sbData = c.so.soSnd.sbLog.drop (U - 1)

/-- The packet carries the bytes of the stream from its sequence number on. -/
def Carries (S : List UInt8) (iss : BitVec 32) (em : Emit) : Prop :=
  ∃ i ≤ S.length, em.thSeq = iss + 1 + BitVec.ofNat 32 i ∧ i + em.data.length ≤ S.length ∧
    em.data = (S.drop i).take em.data.length

instance (S : List UInt8) (iss : BitVec 32) (em : Emit) : Decidable (Carries S iss em) :=
  inferInstanceAs (Decidable (∃ i ≤ S.length, _))

/-! ## The invariant -/

/-- The first byte of the send buffer is the one numbered `snd_una`, once our SYN is acknowledged;
    a FIN is numbered behind the last byte. -/
structure StreamPos (c : Conn) (U : Int) : Prop where
  connected : c.so.ssIsconnected = true → 1 ≤ U
  unacked : U = 0 → c.so.soSnd.sbLog = [] ∧ c.so.soSnd.sbCc = 0
  first : 1 ≤ U → U + c.so.soSnd.sbCc = c.so.soSnd.sbLog.length + 1 ∨
    (c.so.soSnd.sbCc = 0 ∧ U = c.so.soSnd.sbLog.length + 2 ∧ c.so.ssCantsendmore = true)

/-- In front of the ACK tests: the position, or an ACK of our SYN that is still to be counted. -/
def StreamPosAck (x : InSt) (U : Int) : Prop :=
  StreamPos x.conn U ∨
    (U = 0 ∧ x.so.soSnd.sbLog = [] ∧ x.so.soSnd.sbCc = 0 ∧
      seqLeq x.th.thAck x.tp.sndUna = false ∧ seqGt x.th.thAck x.tp.sndMax = false)

theorem streamPos_extra : SndExtra StreamPos where
  keep h hd hl _ hcon _ hoff := by
    have hcc := congrArg List.length hd
    refine ⟨fun hc => h.connected (hcon hc), fun h0 => ?_, fun h1 => ?_⟩
    · obtain ⟨g1, g2⟩ := h.unacked h0
      exact ⟨hl.trans g1, hcc.trans g2⟩
    · unfold Sockbuf.sbCc
      rw [hl, hcc]
      exact (h.first h1).imp_right fun ⟨g1, g2, g3⟩ => ⟨g1, g2, hoff g3⟩

theorem StreamPos.append {c : Conn} {U : Int} {chunk : List UInt8} (h : StreamPos c U)
    (ha : Appends c chunk) : StreamPos (appendConn c chunk) U := by
  have hU := h.connected ha.isconnected
  have hcc : (sbappend c.so.soSnd [{ mData := chunk }]).sbCc = c.so.soSnd.sbCc + chunk.length := by
    simp [sbappend, Sockbuf.sbCc]
  have hlog : (sbappend c.so.soSnd [{ mData := chunk }]).sbLog.length =
      c.so.soSnd.sbLog.length + chunk.length := by
    simp [sbappend]
  refine ⟨fun _ => hU, fun h0 => by omega, fun _ => .inl ?_⟩
  show U + ((sbappend c.so.soSnd [{ mData := chunk }]).sbCc : Int) = _ + 1
  rw [hcc]
  show _ = ((sbappend c.so.soSnd [{ mData := chunk }]).sbLog.length : Int) + 1
  rw [hlog]
  rcases h.first hU with h1 | ⟨-, -, h1⟩
  · omega
  · rw [ha.cantsendmore] at h1
    cases h1

theorem streamPos_start {c : Conn} (hc : Start c) : StreamPos c 0 := by
  obtain ⟨-, hcc, hlog, hcon⟩ := (sndInv_start hc).pre (by cases hc <;> rfl)
  refine ⟨fun h => ?_, fun _ => ⟨hlog, hcc⟩, fun h => by omega⟩
  rw [hcon] at h
  cases h

/-- An acceptable ACK moves the first byte of the buffer with `snd_una`. -/
theorem StreamPosAck.acked {x : InSt} {U N M A : Int} (h : StreamPosAck x U)
    (hinv : SndInv x.conn U N M) (hA : At x.tp.iss x.th.thAck A) (h1 : U < A) (h2 : A ≤ M) :
    StreamPos (ackConn x) A := by
  have hU := hinv.una_nonneg
  have hdrop := hinv.ackDrop hA h1 h2
  have hlog := hinv.log_le
  have hcc : (ackConn x).so.soSnd.sbCc = x.conn.so.soSnd.sbCc - ackDrop x := List.length_drop
  have hL : (ackConn x).so.soSnd.sbLog = x.conn.so.soSnd.sbLog := rfl
  refine ⟨fun _ => by omega, fun h0 => by omega, fun _ => ?_⟩
  have hd : (ackDrop x : Int) = min (A - U) x.conn.so.soSnd.sbCc := hdrop
  rw [hcc, hL]
  -- an ACK behind the data acknowledges our FIN
  have hfin : A = x.conn.so.soSnd.sbLog.length + 2 → x.conn.so.ssCantsendmore = true := by
    intro hA2
    refine hinv.sent_off ?_
    by_contra hns
    have := hinv.log_le_data (by simpa using hns)
    omega
  have hpos : (U = 0 ∧ x.conn.so.soSnd.sbLog = [] ∧ x.conn.so.soSnd.sbCc = 0) ∨
      U + x.conn.so.soSnd.sbCc = x.conn.so.soSnd.sbLog.length + 1 ∨
      (x.conn.so.soSnd.sbCc = 0 ∧ U = x.conn.so.soSnd.sbLog.length + 2) := by
    rcases h with h | ⟨g1, g2, g3, -⟩
    · by_cases h0 : U = 0
      · exact .inl ⟨h0, h.unacked h0⟩
      · exact .inr ((h.first (by omega)).imp_right fun g => ⟨g.1, g.2.1⟩)
    · exact .inl ⟨g1, g2, g3⟩
  by_cases hA2 : A = x.conn.so.soSnd.sbLog.length + 2
  · exact .inr ⟨by omega, hA2, hfin hA2⟩
  · left
    rcases hpos with ⟨g1, g2, g3⟩ | g | ⟨g1, g2⟩
    · have : x.conn.so.soSnd.sbLog.length = 0 := by rw [g2]; rfl
      omega
    · omega
    · omega

theorem acksSyn_ack {e : InEnv} {s : Seg} {c : Conn} {x : InSt}
    (hc : acksSyn c (.input e s) = true) (hx : inputChecks e (inputSetup e s c) = .ok x)
    (hst : x.tp.tState = .synReceived) (hu : seqGt x.tp.sndUna x.th.thAck = false)
    (hm : seqGt x.th.thAck x.tp.sndMax = false) : seqLeq x.th.thAck x.tp.sndUna = false := by
  simpa [acksSyn, hx, hst, hu, hm] using hc

theorem streamPos_input {e : InEnv} {s : Seg} {c : Conn} (hc : acksSyn c (.input e s) = true) :
    SndInput StreamPos StreamPosAck e s c where
  connect _ hl hcc hs _ _ :=
    ⟨fun _ => by omega, fun h0 => by omega, fun _ => .inl (by rw [hs, hl, hcc]; rfl)⟩
  estab {x} h hx _ hst hu hm := by
    obtain ⟨k1, k2, k3, -⟩ := synReceivedConn_snd x
    obtain ⟨g1, g2⟩ := h.unacked rfl
    have hack := acksSyn_ack hc hx hst hu hm
    refine .inr ⟨rfl, ?_, ?_, ?_, ?_⟩
    · show (synReceivedConn x).so.soSnd.sbLog = []
      rw [k1]
      exact g1
    · show (synReceivedConn x).so.soSnd.sbCc = 0
      rw [k1]
      exact g2
    · show seqLeq x.th.thAck (synReceivedConn x).tp.sndUna = false
      rw [k2]
      exact hack
    · show seqGt x.th.thAck (synReceivedConn x).tp.sndMax = false
      rw [k3]
      exact hm
  other h _ := .inl h
  dup h hl := by
    rcases h with h | ⟨-, -, -, h, -⟩
    · exact h
    · rw [hl] at h
      cases h
  beyond _ h hg := by
    rcases h with h | ⟨-, -, -, -, h⟩
    · exact h
    · rw [hg] at h
      cases h
  ack hinv h _ _ hA h1 h2 := h.acked hinv hA h1 h2
  window _ h _ _ _ hw := by
    unfold updateWindow
    rw [if_pos hw]
    exact ⟨h.connected, h.unacked, h.first⟩

/-! ## The stream of a run -/

theorem sbLog_stable (L : List UInt8) : Stable fun c => c.so.soSnd.sbLog = L where
  core h hk := (field_of_kept (fun c : Conn => c.so.soSnd.sbLog) hk fun _ => rfl).trans h
  output env c h := by
    rw [(tcpOutput_kept env c).1]
    exact h
  options _ _ _ _ h := h
  drop _ h := h

theorem sbLog_extra (L : List UInt8) : SndExtra fun c _ => c.so.soSnd.sbLog = L where
  keep h _ hl _ _ _ _ := hl.trans h

theorem sbLog_input (L : List UInt8) (e : InEnv) (s : Seg) (c : Conn) :
    SndInput (fun c _ => c.so.soSnd.sbLog = L) (fun x _ => x.so.soSnd.sbLog = L) e s c where
  connect h _ _ hs _ _ := by
    rw [hs]
    exact h
  estab {x} h _ _ _ _ _ := by
    show (synReceivedConn x).so.soSnd.sbLog = L
    rw [(synReceivedConn_snd x).1]
    exact h
  other h _ := h
  dup h _ := h
  beyond _ h _ := h
  ack _ h _ _ _ _ _ := h
  window _ h _ _ _ hw := by
    unfold updateWindow
    rw [if_pos hw]
    exact h

/-- **An event only appends to the stream**, in front of all its calls of `tcp_output`. -/
theorem connStep_sbLog {c : Conn} (h : ∃ U N M, SndInv c U N M) (ev : Event) :
    ∃ L, c.so.soSnd.sbLog <+: L ∧ (connStep c ev).Ok fun c' => c'.so.soSnd.sbLog = L := by
  obtain ⟨U, N, M, h⟩ := h
  have hsame : (∀ data oob env, ev ≠ .send data oob env) →
      (connStep c ev).Ok fun c' => c'.so.soSnd.sbLog = c.so.soSnd.sbLog := by
    intro hns
    have hok := sndP_step (F := fun x _ => x.so.soSnd.sbLog = c.so.soSnd.sbLog)
      (sbLog_extra c.so.soSnd.sbLog) ev ⟨U, N, M, h, rfl⟩
      (fun e s _ => sbLog_input _ e s c) (fun data oob env _ hev => absurd hev (hns data oob env))
    refine ⟨fun hg => ?_, fun k hk => ?_⟩
    · obtain ⟨_, _, _, -, hl⟩ := hok.conn hg
      exact hl
    · obtain ⟨_, _, _, -, hl⟩ := hok.calls k hk
      exact hl
  cases ev with
  | send data oob env =>
    unfold connStep
    dsimp only
    split
    · exact ⟨_, List.prefix_rfl, .same rfl⟩
    · unfold tcpSSend
      split
      · exact ⟨_, List.prefix_rfl, .same rfl⟩
      · dsimp only
        refine ⟨c.so.soSnd.sbLog ++ chainBytes [{ mData := data.take 128 }],
          List.prefix_append _ _, ?_⟩
        split
        · exact forceOutput_ok (sbLog_stable _) env rfl
        · exact callOutput_ok (sbLog_stable _) env rfl
  | _ => exact ⟨_, List.prefix_rfl, hsame fun _ _ _ => by simp⟩

/-- The stream of a run extends the stream of each of its states. -/
theorem run_stream {c : Conn} (hc : Start c) (es : List Event) :
    ∃ S : List UInt8,
      (∀ c', (Machine.run connMachine (some c) es).1 = some c' → c'.so.soSnd.sbLog <+: S) ∧
      ∀ k ∈ (Machine.run connMachine (some c) es).2, k.pre.so.soSnd.sbLog <+: S := by
  have hstep : ∀ (c : Conn) (ev : Event), (∃ U N M, SndInv c U N M) →
      (∀ c', (connMachine c ev).1 = some c' → ∃ U N M, SndInv c' U N M) ∧
      ∃ L, c.so.soSnd.sbLog <+: L ∧
        (∀ c', (connMachine c ev).1 = some c' → c'.so.soSnd.sbLog = L) ∧
        ∀ k ∈ (connMachine c ev).2, k.pre.so.soSnd.sbLog = L := by
    intro c ev h
    have hinv := sndInv_step h ev
    obtain ⟨L, h1, h2⟩ := connStep_sbLog h ev
    exact ⟨fun c' hc' => hinv.next hc', L, h1, fun c' hc' => h2.next hc', h2.calls⟩
  obtain ⟨S, -, h1, h2⟩ := Machine.run_history (fun _ => List.prefix_rfl)
    (fun h1 h2 => h1.trans h2) (fun c : Conn => c.so.soSnd.sbLog)
    (fun k : OutCall => k.pre.so.soSnd.sbLog) (fun c => ∃ U N M, SndInv c U N M) hstep
    ⟨0, 0, 0, sndInv_start hc⟩ es
  exact ⟨S, h1, h2⟩

/-! ## Buffer and packets -/

section

variable {S : List UInt8} {c : Conn} {U N M : Int}

/-- The send buffer is the stream from byte number `U - 1` on. -/
theorem StreamPos.data (hp : StreamPos c U) (h : SndInv c U N M) :
    c.so.soSnd.sbData = c.so.soSnd.sbLog.drop (U.toNat - 1) := by
  obtain ⟨pre, hpre⟩ := h.suffix
  have hlen : c.so.soSnd.sbLog.length = pre.length + c.so.soSnd.sbCc := by
    rw [← hpre, List.length_append]
    rfl
  have hU := h.una_nonneg
  have hnil : c.so.soSnd.sbCc = 0 → c.so.soSnd.sbData = [] := List.eq_nil_of_length_eq_zero
  by_cases h0 : U = 0
  · obtain ⟨g1, g2⟩ := hp.unacked h0
    rw [hnil g2, g1, List.drop_nil]
  · rcases hp.first (by omega) with g | ⟨g1, g2, -⟩
    · have hpl : U.toNat - 1 = pre.length := by omega
      rw [hpl, ← hpre, List.drop_left]
    · rw [hnil g1, List.drop_eq_nil_of_le (by omega)]

theorem StreamPos.sendStream (hp : StreamPos c U) (h : SndInv c U N M)
    (hS : c.so.soSnd.sbLog <+: S) : SendStream S c := by
  have h1 := h.una_le
  have h2 := h.nxt_le
  have h3 := h.una_nonneg
  have h4 := h.log_le
  have hspan := h.span
  refine ⟨?_, ?_, hS, U.toNat, ?_, by omega, hp.data h⟩
  · rw [seqLeq_at h.una h.nxt (by omega) (by omega)]
    simpa using h1
  · rw [seqLeq_at h.nxt h.max (by omega) (by omega)]
    simpa using h2
  · have := h.una
    unfold At at this
    rw [this, ← BitVec.ofInt_natCast, Int.toNat_of_nonneg h3]

/-- A packet with data carries the stream from its sequence number on. -/
theorem StreamPos.carries (hp : StreamPos c U) (h : SndInv c U N M) {M' T : Int} {em : Emit}
    (hem : EmitAt c U M' T em) (hd : em.data ≠ []) : Carries c.so.soSnd.sbLog c.tp.iss em := by
  obtain ⟨hdata, hle⟩ := hem.data hd
  have hUT := hem.una_le
  have hlen : 0 < em.data.length := List.length_pos_iff.mpr hd
  have hcc : c.so.soSnd.sbCc ≠ 0 := by omega
  have hU : 1 ≤ U := by
    by_contra hU
    have h0 := h.una_nonneg
    exact hcc (hp.unacked (by omega)).2
  have hend : U + c.so.soSnd.sbCc = c.so.soSnd.sbLog.length + 1 := by
    rcases hp.first hU with g | ⟨g, -⟩
    · exact g
    · exact absurd g hcc
  refine ⟨(T - 1).toNat, by omega, ?_, by omega, ?_⟩
  · have hseq := hem.seq
    unfold At at hseq
    have hT : BitVec.ofInt 32 T = 1 + BitVec.ofNat 32 (T - 1).toNat := by
      rw [← BitVec.ofInt_natCast, Int.toNat_of_nonneg (by omega),
        show (1 : BitVec 32) = BitVec.ofInt 32 1 from rfl, ← BitVec.ofInt_add]
      congr 1
      omega
    rw [hseq, hT, BitVec.add_assoc]
  · have hi : U.toNat - 1 + (T - U).toNat = (T - 1).toNat := by omega
    rw [hp.data h, List.drop_drop, hi] at hdata
    exact hdata

end

/-- **The outgoing stream is sent as the user has appended it**: in every run whose segments in
    state `SYN_RECEIVED` acknowledge our SYN, the positions are in order, the send buffer holds
    the stream from `snd_una` on, and every packet carries the bytes of its sequence numbers.
    The streams of all states are prefixes of one stream. -/
theorem send_stream {c : Conn} (hc : Start c) {es : List Event}
    (hg : Machine.Guarded connMachine (fun c ev => acksSyn c ev = true) (some c) es) :
    ∃ S : List UInt8,
      (∀ c', (Machine.run connMachine (some c) es).1 = some c' → SendStream S c') ∧
      ∀ k ∈ (Machine.run connMachine (some c) es).2,
        SendStream S k.pre ∧ SendStream S k.res.conn ∧
          ∀ em ∈ k.res.out, em.data ≠ [] → Carries k.pre.so.soSnd.sbLog k.pre.tp.iss em := by
  obtain ⟨h1, h2⟩ := connRun_ok (P := SndP StreamPos) (fun c ev => acksSyn c ev = true)
    (fun c ev h hcond => sndP_step streamPos_extra ev h
      (fun e s hev => streamPos_input (hev ▸ hcond)) fun _ _ _ _ _ hp ha => hp.append ha)
    ⟨0, 0, 0, sndInv_start hc, streamPos_start hc⟩ hg
  obtain ⟨S, hS1, hS2⟩ := run_stream hc es
  refine ⟨S, fun c' hc' => ?_, fun k hk => ?_⟩
  · obtain ⟨U, N, M, hinv, hp⟩ := h1 c' hc'
    exact hp.sendStream hinv (hS1 c' hc')
  · obtain ⟨U, N, M, hinv, hp⟩ := h2 k hk
    refine ⟨hp.sendStream hinv (hS2 k hk), ?_, fun em hem hd => ?_⟩
    · obtain ⟨U', N', M', hinv', hp'⟩ :=
        (sndP_stable streamPos_extra).output k.env k.pre ⟨U, N, M, hinv, hp⟩
      refine hp'.sendStream hinv' ?_
      rw [(tcpOutput_kept k.env k.pre).1]
      exact hS2 k hk
    · obtain ⟨N', M', -, -, hem'⟩ := tcpOutput_sndInv k.env hinv
      obtain ⟨T, hT⟩ := hem' em hem
      exact hp.carries hinv hT hd

/-- A passive open with `iss = 1`, an ACK `ack` and four bytes of the user. -/
def acceptEvents (ack : BitVec 32) : List Event :=
  [.input {} (Seg.bare { thSeq := 100, thFlags := { syn := true }, thWin := 4 }),
   .input {} (Seg.bare { thSeq := 101, thAck := ack, thFlags := { ack := true }, thWin := 4 }),
   .send [7, 8, 9, 10] false fun _ => {}]

/-- An ACK of our SYN, and the four bytes go out behind it. -/
theorem send_stream_accept :
    Machine.Guarded connMachine (fun c ev => acksSyn c ev = true) (some (passiveOpen newSocket))
        (acceptEvents 2) ∧
      ((Machine.run connMachine (some (passiveOpen newSocket)) (acceptEvents 2)).2.flatMap
        fun k => k.res.out.map fun em => (em.thSeq, em.data)) = [(1, []), (2, [7, 8, 9, 10])] ∧
      ∃ S : List UInt8, ∀ k ∈ (Machine.run connMachine (some (passiveOpen newSocket))
        (acceptEvents 2)).2, SendStream S k.res.conn := by
  have hg : Machine.Guarded connMachine (fun c ev => acksSyn c ev = true)
      (some (passiveOpen newSocket)) (acceptEvents 2) := by decide +kernel
  obtain ⟨S, -, h⟩ := send_stream (.passive newSocket newSocket_fresh) hg
  exact ⟨hg, by decide +kernel, S, fun k hk => (h k hk).2.1⟩

/-- Behind an ACK of `iss` the bytes go out one sequence number too low, and the first one is
    skipped. -/
theorem bare_ack_shifts_stream :
    ¬ ∀ (c : Conn), Start c → ∀ es : List Event, ∃ S : List UInt8,
      (∀ c', (Machine.run connMachine (some c) es).1 = some c' → SendStream S c') ∧
      ∀ k ∈ (Machine.run connMachine (some c) es).2,
        SendStream S k.pre ∧ SendStream S k.res.conn ∧
          ∀ em ∈ k.res.out, em.data ≠ [] → Carries k.pre.so.soSnd.sbLog k.pre.tp.iss em := by
  intro h
  obtain ⟨S, -, h⟩ := h _ (.passive newSocket newSocket_fresh) (acceptEvents 1)
  have hrun : ∀ k ∈ (Machine.run connMachine (some (passiveOpen newSocket)) (acceptEvents 1)).2,
      ∀ em ∈ k.res.out, em.data ≠ [] → Carries k.pre.so.soSnd.sbLog k.pre.tp.iss em :=
    fun k hk => (h k hk).2.2
  revert hrun
  decide +kernel

end TnNet
