import TnNet.Tcp.RecvRules

/-!
# The received stream

The peer sends a byte stream `f`, numbered from `irs + 1`.  The segments may arrive in any order,
overlap, repeat old data and reach beyond the window, as long as the bytes they carry are those of
`f` at their sequence numbers and these lie less than `2 ^ 31` from `rcv_nxt`.

Principal result: `recv_stream`.  While receiving has not been shut down, the bytes appended to
`so_rcv` are the first bytes of `f`, up to `rcv_nxt`; the queue is sorted, its entries are disjoint
and hold bytes of `f`; `rcv_nxt` never moves back.
-/

set_option autoImplicit false

namespace TnNet

open SeqArith ByteStream

/-- Does the segment have a place in the stream?  Before the SYN of the peer only the SYN has. -/
def segPlaced (c : Conn) (s : Seg) : Prop :=
  c.tp.tState.haveRcvdSyn = true ∨ s.th.thFlags.syn = true

/-- The position of the first data byte of a segment relative to `rcv_nxt`, and to `irs + 1` for
    the SYN of the peer. -/
def segOff (c : Conn) (s : Seg) : Int :=
  if c.tp.tState.haveRcvdSyn then sdist s.th.thSeq c.tp.rcvNxt + s.th.thFlags.syn.toNat else 0

/-- The position of the first data byte of a segment, when `rcv_nxt` is at `n`. -/
def segPos (c : Conn) (n : Int) (s : Seg) : Int :=
  if c.tp.tState.haveRcvdSyn then n + segOff c s else 0

/-- The sequence numbers of a segment lie less than `2 ^ 31` from `rcv_nxt`. -/
def segNear (c : Conn) (s : Seg) : Prop :=
  c.tp.tState.haveRcvdSyn = true →
    -2147483648 < sdist s.th.thSeq c.tp.rcvNxt ∧
      segOff c s + s.tlen + s.th.thFlags.fin.toNat < 2147483648

/-- An arriving segment carries bytes of the stream `f`. -/
def FromStream (f : Nat → UInt8) (p : Conn × Int) : Event → Prop
  | .input _ s => segPlaced p.1 s → segNear p.1 s ∧
      ∀ j, j < s.payload.length → 0 ≤ segPos p.1 p.2 s + j →
        s.payload.getD j 0 = f (segPos p.1 p.2 s + j).toNat
  | _ => True

instance (c : Conn) (s : Seg) : Decidable (segPlaced c s) :=
  inferInstanceAs (Decidable (_ ∨ _))

instance (c : Conn) (s : Seg) : Decidable (segNear c s) :=
  inferInstanceAs (Decidable (_ → _))

instance (f : Nat → UInt8) (p : Conn × Int) : ∀ ev, Decidable (FromStream f p ev)
  | .input _ _ => inferInstanceAs (Decidable (_ → _))
  | .output _ | .slowtimo _ | .fasttimo _ | .send .. | .recv .. | .shutdown .. | .disconnect _ | .detach _
  | .accept | .sockopt _ => isTrue trivial

/-- The stream `f`, with a FIN anywhere. -/
def streamPeer (f : Nat → UInt8) : Peer := ⟨ofFun f, fun _ => True⟩

/-- No limit but the one of sequence comparisons. -/
def farLimit : Limit where
  top _ n := n + 2147483647
  base _ _ := by omega
  drop _ _ _ := le_refl _
  push _ _ _ := by omega
  later _ _ _ _ := by omega
  space _ _ _ _ _ _ _ := by omega

theorem textOff_near {c : Conn} {s : Seg} (hst : c.tp.tState.haveRcvdSyn = true)
    (h : -2147483648 < sdist s.th.thSeq c.tp.rcvNxt) : textOff c s = segOff c s := by
  unfold textOff seqOff segOff
  rw [if_neg (by omega), if_pos hst]

/-- The condition of the invariant, for segments near `rcv_nxt`. -/
theorem segOk_far {S : Peer} {c : Conn} {n : Int} {s : Seg} (hnear : segPlaced c s → segNear c s)
    (ha : segPlaced c s → Arrives S s (segPos c n s))
    (hcut : segPlaced c s → s.th.thFlags.fin = true → max 0 (segOff c s) < inputRcvWnd c →
      inputRcvWnd c < segOff c s + s.tlen →
      S.fin (segPos c n s - segOff c s + inputRcvWnd c)) :
    SegOk S farLimit c n s := by
  have hw := inputRcvWnd_bounds c
  have hlt := s.tlen_lt
  constructor
  · intro hst hsyn
    have hno : ¬ c.tp.tState.haveRcvdSyn = true := by rcases hst with h | h <;> rw [h] <;> decide
    have ho : segOff c s = 0 := if_neg hno
    have hp : segPos c n s = 0 := if_neg hno
    rw [ho, hp] at hcut
    refine ⟨hp ▸ ha (.inr hsyn), fun hf h1 h2 => ?_, fun z _ hz => ?_⟩
    · have := hcut (.inr hsyn) hf (by omega) (by omega)
      rwa [Int.sub_zero, Int.zero_add] at this
    · show z ≤ 0 + 2147483647
      omega
  · intro hst
    obtain ⟨h1, h2⟩ := hnear (.inl hst) hst
    have ht := textOff_near hst h1
    have hp : segPos c n s = n + segOff c s := if_pos hst
    rw [hp, Int.add_sub_cancel] at hcut
    refine ⟨by rw [ht, ← hp]; exact ha (.inl hst), by omega, .inl (by omega), fun hf h3 h4 => ?_,
      fun z _ hz => ?_⟩
    · rw [ht] at h3 h4
      exact hcut (.inl hst) hf h3 h4
    · show z ≤ n + 2147483647
      omega

theorem fromStream_step {f : Nat → UInt8} (c : Conn) (n : Int) (ev : Event)
    (h : RcvState (streamPeer f) farLimit c.rcvSide n) (hg : FromStream f (c, n) ev) :
    (connStep c ev).Ok (RcvP (streamPeer f) farLimit n) := by
  refine rcv_step h (fun e s he => ?_) (fun _ _ _ _ => le_refl _) (fun _ _ _ => le_refl _)
  rw [he] at hg
  exact segOk_far (fun h => (hg h).1) (fun h => ⟨agrees_ofFun (hg h).2, fun _ => trivial⟩)
    fun _ _ _ _ => trivial

/-! ## The queue -/

/-- The queue is sorted by `th_seq`, its entries are disjoint and hold the bytes of `f`; `ps` are
    their positions. -/
structure QueueHolds (f : Nat → UInt8) (b : BitVec 32) (qs : List Tcpqent) (ps : List Nat) :
    Prop where
  bytes : List.Forall₂ (fun q (p : Nat) => At b q.tcpqeTcp.thSeq (p : Int) ∧
    chainBytes q.tcpqeM = (List.range q.len).map fun i => f (p + i)) qs ps
  disjoint : (qs.zip ps).Pairwise fun a b => a.2 + a.1.len ≤ b.2
  sorted : qs.Pairwise fun q q' => seqLeq q.tcpqeTcp.thSeq q'.tcpqeTcp.thSeq = true

/-- The entries of a queue, with their positions. -/
theorem Queued.positions {S : Peer} {b : BitVec 32} {hi lo top : Int} {qs : List Tcpqent}
    (h : Queued S b hi lo top qs) (hlo : 0 ≤ lo) :
    ∃ ps : List Nat, List.Forall₂ (fun q (p : Nat) => EntryAt S b q (p : Int)) qs ps ∧
      (qs.zip ps).Pairwise (fun a b => a.2 + a.1.len ≤ b.2) ∧
      ∀ a ∈ qs.zip ps, lo ≤ (a.2 : Int) ∧ (a.2 : Int) + a.1.len ≤ top := by
  induction qs generalizing lo with
  | nil => exact ⟨[], .nil, .nil, by simp⟩
  | cons q qs ih =>
    obtain ⟨p, hp, he, -, hq⟩ := h
    have hle := hq.le
    obtain ⟨ps, h1, h2, h3⟩ := ih hq (by omega)
    obtain ⟨k, hk⟩ : ∃ k : Nat, (k : Int) = p := ⟨p.toNat, by omega⟩
    refine ⟨k :: ps, .cons (hk ▸ he) h1, ?_, ?_⟩
    · rw [List.zip_cons_cons, List.pairwise_cons]
      refine ⟨fun a ha => ?_, h2⟩
      have := (h3 a ha).1
      dsimp only
      omega
    · intro a ha
      rw [List.zip_cons_cons, List.mem_cons] at ha
      rcases ha with rfl | ha
      · dsimp only
        omega
      · have := h3 a ha
        omega

theorem Queued.sorted {S : Peer} {b : BitVec 32} {hi lo top : Int} {qs : List Tcpqent}
    (h : Queued S b hi lo top qs) (hspan : top - lo < 2147483648) :
    (∀ q ∈ qs, ∃ p, lo ≤ p ∧ p ≤ top ∧ At b q.tcpqeTcp.thSeq p) ∧
      qs.Pairwise fun q q' => seqLeq q.tcpqeTcp.thSeq q'.tcpqeTcp.thSeq = true := by
  induction qs generalizing lo with
  | nil => simp
  | cons q qs ih =>
    obtain ⟨p, hp, he, -, hq⟩ := h
    have hle := hq.le
    obtain ⟨h1, h2⟩ := ih hq (by omega)
    refine ⟨fun r hr => ?_, List.pairwise_cons.mpr ⟨fun r hr => ?_, h2⟩⟩
    · rcases List.mem_cons.mp hr with rfl | hr
      · exact ⟨p, hp, by omega, he.seq⟩
      · obtain ⟨p', g1, g2, g3⟩ := h1 r hr
        exact ⟨p', by omega, g2, g3⟩
    · obtain ⟨p', g1, g2, g3⟩ := h1 r hr
      rw [seqLeq_at he.seq g3 (by omega) (by omega)]
      exact decide_eq_true (by omega)

theorem Queued.holds {f : Nat → UInt8} {b : BitVec 32} {hi lo top : Int} {qs : List Tcpqent}
    (h : Queued (streamPeer f) b hi lo top qs) (hlo : 0 ≤ lo) (hspan : top - lo < 2147483648) :
    ∃ ps, QueueHolds f b qs ps := by
  obtain ⟨ps, h1, h2, -⟩ := h.positions hlo
  refine ⟨ps, h1.imp fun q p he => ⟨he.seq, ?_⟩, h2, (h.sorted hspan).2⟩
  have := Agrees.eq_map he.bytes
  rwa [he.length] at this

/-! ## Main result -/

/-- The bytes appended to the receive buffer. -/
theorem RcvInv.log_eq {S : Peer} {L : Limit} {v : RcvSide} {n : Int} {f : Nat → UInt8}
    (h : RcvInv S L v n) (hS : S.data = ofFun f) (hc : v.ssCantrcvmore = false) :
    v.soRcv.sbLog = (List.range n.toNat).map f := by
  obtain ⟨hlog, hlen⟩ := h.log hc
  rw [hS] at hlog
  have := Agrees.eq_map (n := 0) hlog
  simp only [Nat.zero_add] at this
  rw [this, show n.toNat = v.soRcv.sbLog.length by omega]

/-- **The received stream.** -/
theorem recv_stream (f : Nat → UInt8) {c₀ c : Conn} {es : List Event} {n : Int} (hs : Start c₀)
    (hg : Machine.Guarded posMachine (FromStream f) (some (c₀, -1)) es)
    (hr : (Machine.run posMachine (some (c₀, -1)) es).1 = some (c, n))
    (hsyn : c.tp.tState.haveRcvdSyn = true) (hrcv : c.so.ssCantrcvmore = false) :
    0 ≤ n ∧ At (c.tp.irs + 1) c.tp.rcvNxt n ∧
      c.so.soRcv.sbLog = (List.range n.toNat).map f ∧
      (∃ ps, QueueHolds f (c.tp.irs + 1) c.tp.tSegq ps) ∧
      ∀ es₁ es₂ c₁ n₁, es = es₁ ++ es₂ →
        (Machine.run posMachine (some (c₀, -1)) es₁).1 = some (c₁, n₁) → n₁ ≤ n := by
  have hstart : RcvState (streamPeer f) farLimit c₀.rcvSide (-1) := rcvState_start hs
  obtain ⟨hst, -⟩ := pos_run fromStream_step (p := (c₀, -1)) (q := (c, n)) hstart hg hr
  have hinv : RcvInv (streamPeer f) farLimit c.rcvSide n := by
    cases hst with
    | closed h =>
      rw [show c.tp.tState = .closed from h] at hsyn
      cases hsyn
    | unsynced h =>
      rcases h with h | h <;> rw [show c.tp.tState = _ from h] at hsyn <;> cases hsyn
    | synced _ h => exact h
  have hnofin : c.rcvSide.tState.haveRcvdFin = false := by
    cases hf : c.rcvSide.tState.haveRcvdFin with
    | false => rfl
    | true =>
      have := (hinv.fin hf).1
      rw [show c.rcvSide.ssCantrcvmore = false from hrcv] at this
      cases this
  obtain ⟨lo, hi, hq⟩ := hinv.queue hnofin
  have hlined := hq.lined hinv
  refine ⟨hinv.start, hinv.nxt, hinv.log_eq rfl hrcv,
    hq.queued.holds (hq.lo_nonneg hinv.start) hlined.span, ?_⟩
  intro es₁ es₂ c₁ n₁ hes hr₁
  subst hes
  obtain ⟨hg₁, hg₂⟩ := Machine.guarded_append hg
  obtain ⟨h₁, -⟩ := pos_run fromStream_step (p := (c₀, -1)) (q := (c₁, n₁)) hstart hg₁ hr₁
  rw [Machine.run_append] at hr
  rw [hr₁] at hg₂ hr
  exact (pos_run fromStream_step (p := (c₁, n₁)) (q := (c, n)) h₁ hg₂ hr).2

/-- A data segment behind the SYN of `connectEvents`, `off` bytes into the stream. -/
def dataEvent (off : BitVec 32) (fin : Bool) (data : List UInt8) (h : data.length < 65496) : Event :=
  .input {} (Seg.ofData { thSeq := 101 + off, thAck := 2, thFlags := { ack := true, fin := fin },
                          thWin := 4 } data h)

/-- Bytes `3 4`, then `2 3 4 5`, then `1 2`; the user reads two bytes; then byte `8`. -/
def reorderEvents : List Event :=
  connectEvents 4 ++
    [dataEvent 2 false [3, 4] (by decide), dataEvent 1 false [2, 3, 4, 5] (by decide),
     dataEvent 0 false [1, 2] (by decide), .recv 2 none, dataEvent 7 false [8] (by decide)]

/-- The bytes `1 2 3 4 5` have been appended, and byte `8` is queued. -/
theorem recv_stream_reordered :
    ∃ c n, (Machine.run posMachine (some (activeOpen 1 newSocket, -1)) reorderEvents).1 =
        some (c, n) ∧
      n = 5 ∧ c.tp.rcvNxt = 106 ∧ c.so.soRcv.sbLog = [1, 2, 3, 4, 5] ∧ c.tp.tSegq.length = 1 ∧
      ∃ ps, QueueHolds (fun i => UInt8.ofNat (i + 1)) (c.tp.irs + 1) c.tp.tSegq ps := by
  have hg : Machine.Guarded posMachine (FromStream fun i => UInt8.ofNat (i + 1))
      (some (activeOpen 1 newSocket, -1)) reorderEvents := by decide +kernel
  have hend : (Machine.run posMachine (some (activeOpen 1 newSocket, -1)) reorderEvents).1.map
      (fun p => (p.2, p.1.tp.rcvNxt, p.1.tp.tSegq.length, p.1.tp.tState.haveRcvdSyn,
        p.1.so.ssCantrcvmore)) = some (5, 106, 1, true, false) := by decide +kernel
  obtain ⟨⟨c, n⟩, hr, he⟩ := Option.map_eq_some_iff.mp hend
  simp only [Prod.mk.injEq] at he
  obtain ⟨rfl, h2, h3, h4, h5⟩ := he
  obtain ⟨-, -, hlog, hq, -⟩ := recv_stream _ (.active 1 newSocket newSocket_fresh) hg hr h4 h5
  exact ⟨c, 5, hr, rfl, h2, hlog.trans (by decide), h3, hq⟩

end TnNet
