import TnNet.Tcp.RecvQueue
import TnNet.Tcp.Rules

/-!
# The text of a segment

What the trimming of `tcp_input` leaves of a segment, and what the segment text does to the
receiving side.

* `Conn.rcvSide` — the fields of the receiving side.
* `checked_text`, `trimThenStep6_text` — the rest of the segment is text of the stream that
  begins at or behind `rcv_nxt` and ends inside the window.
* `doData_done` — the in-order path and `tcp_reass` append the bytes of the stream from
  `rcv_nxt` on.
-/

set_option autoImplicit false

namespace TnNet

open SeqArith ByteStream

/-- The fields of the receiving side. -/
structure RcvSide where
  tState : TcpState
  tSegq : List Tcpqent
  rcvNxt : BitVec 32
  irs : BitVec 32
  rcvAdv : BitVec 32
  soRcv : Sockbuf
  ssCantrcvmore : Bool

def Conn.rcvSide (c : Conn) : RcvSide where
  tState := c.tp.tState
  tSegq := c.tp.tSegq
  rcvNxt := c.tp.rcvNxt
  irs := c.tp.irs
  rcvAdv := c.tp.rcvAdv
  soRcv := c.so.soRcv
  ssCantrcvmore := c.so.ssCantrcvmore

theorem rcvSide_core {c c' : Conn} (h : c'.core = c.core) : c'.rcvSide = c.rcvSide :=
  field_of_kept Conn.rcvSide h fun _ => rfl

theorem rcvSide_options (syn : Bool) (mtu : Int) (opt : List UInt8) (c : Conn) :
    Conn.rcvSide { c with tp := tcpDooptions syn mtu opt c.tp } = c.rcvSide :=
  field_of_kept (fun tp => Conn.rcvSide { c with tp := tp }) (tcpDooptions_kept syn mtu opt c.tp)
    fun _ => rfl

theorem inputSetup_rcvSide (e : InEnv) (s : Seg) (c : Conn) :
    (inputSetup e s c).conn.rcvSide = c.rcvSide := by
  unfold inputSetup
  dsimp only
  split
  · rfl
  · exact rcvSide_options _ _ _ { c with tp := { c.tp with tIdle := 0, timerKeep := tcpKeepidle } }

/-! ## Trimming -/

variable {S : Peer} {b : BitVec 32}

/-- The text of the locals at position `p`. -/
def InSt.TextAt (S : Peer) (b : BitVec 32) (x : InSt) (p : Int) : Prop :=
  TnNet.TextAt S b x.th.thSeq x.th.thFlags.fin ((chainBytes x.m).drop x.hdroptlen) x.tlen p

/-- Is there text or a FIN? -/
def InSt.HasText (x : InSt) : Prop := x.tlen ≠ 0 ∨ x.tiflags.fin = true

/-- How far `th_seq` is ahead of `rcv_nxt`, as the trimming at the left edge takes it. -/
def seqOff (c : Conn) (s : Seg) : Int :=
  if sdist s.th.thSeq c.tp.rcvNxt = -2147483648 then 2147483648
  else sdist s.th.thSeq c.tp.rcvNxt

/-- How far the data of the segment is ahead of `rcv_nxt`. -/
def textOff (c : Conn) (s : Seg) : Int := seqOff c s + s.th.thFlags.syn.toNat

theorem seqOff_at {c : Conn} {s : Seg} {n : Int} (h : At b c.tp.rcvNxt n) :
    At b s.th.thSeq (n + seqOff c s) := by
  have hs := h.of_sdist s.th.thSeq
  unfold seqOff
  split
  · rename_i hd
    rw [hd] at hs
    -- the two positions are a whole number space apart
    unfold At at hs ⊢
    rw [hs]
    congr 1
    rw [BitVec.ofInt_add, BitVec.ofInt_add]
    rfl
  · exact hs

theorem sdist_neg (c : Conn) (s : Seg) :
    sdist c.tp.rcvNxt s.th.thSeq = if seqOff c s = 2147483648 then -2147483648 else -seqOff c s := by
  have hb := sdist_bounds s.th.thSeq c.tp.rcvNxt
  have h0 := At.base c.tp.rcvNxt
  have hs := h0.of_sdist s.th.thSeq
  unfold seqOff
  split
  · rename_i hd
    rw [if_pos rfl]
    have := seqOff_at (s := s) h0
    unfold seqOff at this
    rw [if_pos hd] at this
    exact h0.sdist this (by omega) (by omega)
  · rename_i hd
    rw [if_neg (by push_cast at hb; omega)]
    exact (h0.sdist hs (by push_cast at hb ⊢; omega) (by push_cast at hb ⊢; omega)).trans (by omega)

/-- The bytes behind a tail cut. -/
theorem tail_bytes {m : Chain} {h tlen n : Nat} (hl : h + tlen = chainLen m) (hn : 0 < n)
    (hn' : n ≤ tlen) :
    (chainBytes (mAdj m (-(n : Int)))).drop h = ((chainBytes m).drop h).take (tlen - n) := by
  rw [mAdj_bytes_tail m n hn, List.take_drop]
  congr 2
  omega

/-- The text of a segment with its tail cut. -/
theorem InSt.TextAt.take {x y : InSt} {p : Int} {n : Nat} (h : x.TextAt S b p)
    (hl : x.hdroptlen + x.tlen = chainLen x.m) (hn : 0 < n) (hn' : n ≤ x.tlen) (hth : y.th = x.th)
    (hh : y.hdroptlen = x.hdroptlen) (hm : y.m = mAdj x.m (-(n : Int)))
    (ht : y.tlen = x.tlen - n) (hfin : y.th.thFlags.fin = true → S.fin (p + y.tlen)) :
    y.TextAt S b p := by
  refine ⟨hth ▸ h.seq, ?_, ?_, hfin⟩
  · rw [hm, hh, tail_bytes hl hn hn', List.length_take, h.length, ht]
    omega
  · rw [hm, hh, tail_bytes hl hn hn']
    exact h.bytes.take _

/-- The segment as it arrives, at the position of its data. -/
structure Arrives (S : Peer) (s : Seg) (q : Int) : Prop where
  data : Agrees S.data q s.payload
  fin : s.th.thFlags.fin = true → S.fin (q + s.tlen)

theorem seg_len (s : Seg) : s.hlen + s.tlen = chainLen s.m := by
  have := s.hlen_le
  unfold Seg.tlen
  omega

/-- The text of a segment without its first bytes. -/
theorem InSt.TextAt.leftCut {x : InSt} {p : Int} {k : Nat} (h : x.TextAt S b p) (hk : k ≤ x.tlen) :
    (leftCut x k).TextAt S b (p + k) := by
  have hbytes : (chainBytes x.m).drop (x.hdroptlen + k) =
      ((chainBytes x.m).drop x.hdroptlen).drop k := by rw [List.drop_drop]
  refine ⟨h.seq.addNat k, ?_, ?_, fun hf => ?_⟩
  · show ((chainBytes x.m).drop (x.hdroptlen + k)).length = x.tlen - k
    rw [hbytes, List.length_drop, h.length]
  · show Agrees S.data (p + k) ((chainBytes x.m).drop (x.hdroptlen + k))
    rw [hbytes]
    apply h.bytes.drop
    rw [h.length]
    exact hk
  · have := h.fin hf
    show S.fin (p + k + ((x.tlen - k : Nat) : Int))
    rwa [show p + k + ((x.tlen - k : Nat) : Int) = p + x.tlen by omega]

/-- The segment behind its SYN. -/
theorem leftSyn_text {s : Seg} {c c' : Conn} {n : Int} (hseq : At b s.th.thSeq (n + seqOff c s))
    (ha : Arrives S s (n + textOff c s)) {y : InSt}
    (hy : y = leftSyn ⟨c', s.th, s.th.thFlags, s.tlen, s.hlen, s.m, false⟩) :
    y.TextAt S b (n + textOff c s) ∧ y.tlen = s.tlen ∧ y.hdroptlen = s.hlen ∧ y.m = s.m ∧
      y.th.thFlags = s.th.thFlags := by
  have hrest : y.tlen = s.tlen ∧ y.hdroptlen = s.hlen ∧ y.m = s.m ∧ y.th.thFlags = s.th.thFlags := by
    rw [hy]
    unfold leftSyn
    split <;> exact ⟨rfl, rfl, rfl, rfl⟩
  have hsq : At b y.th.thSeq (n + textOff c s) := by
    rw [hy]
    unfold leftSyn textOff
    cases hsy : s.th.thFlags.syn
    · simpa using hseq
    · have := hseq.addNat 1
      simpa [← Int.add_assoc] using this
  obtain ⟨h1, h2, h3, h4⟩ := hrest
  refine ⟨⟨hsq, ?_, ?_, fun hf => ?_⟩, h1, h2, h3, h4⟩
  · rw [h1, h2, h3]
    exact s.payload_length
  · rw [h2, h3]
    exact ha.data
  · rw [h1]
    exact ha.fin (h4 ▸ hf)

/-- **The left edge.**  What is left of the segment begins at or behind `rcv_nxt`, and ends where
    the segment ends. -/
theorem leftTrim_text {e : InEnv} {s : Seg} {c : Conn} {n : Int} (hn : At b c.tp.rcvNxt n)
    (ha : Arrives S s (n + textOff c s)) (hsyn : (leftTrim (inputSetup e s c)).tiflags.syn = false)
    (ht : (leftTrim (inputSetup e s c)).HasText) :
    (leftTrim (inputSetup e s c)).TextAt S b (max n (n + textOff c s)) ∧
      max n (n + textOff c s) + (leftTrim (inputSetup e s c)).tlen = n + textOff c s + s.tlen ∧
      (leftTrim (inputSetup e s c)).hdroptlen + (leftTrim (inputSetup e s c)).tlen =
        chainLen (leftTrim (inputSetup e s c)).m ∧
      (leftTrim (inputSetup e s c)).th.thFlags = s.th.thFlags := by
  have hlen := seg_len s
  have hpl := s.payload_length
  have hx : inputSetup e s c = ⟨(inputSetup e s c).conn, s.th, s.th.thFlags, s.tlen, s.hlen, s.m,
    false⟩ := rfl
  have hnx : (inputSetup e s c).conn.tp.rcvNxt = c.tp.rcvNxt :=
    congrArg RcvSide.rcvNxt (inputSetup_rcvSide e s c)
  have hseq := seqOff_at (s := s) hn
  have hneg := sdist_neg c s
  generalize (inputSetup e s c).conn = c' at hx hnx
  rw [hx] at hsyn ht ⊢
  unfold leftTrim at hsyn ht ⊢
  have hd : ∀ y : InSt, y = ⟨c', s.th, s.th.thFlags, s.tlen, s.hlen, s.m, false⟩ →
      sdist y.tp.rcvNxt y.th.thSeq = sdist c.tp.rcvNxt s.th.thSeq := by
    rintro y rfl
    show sdist c'.tp.rcvNxt s.th.thSeq = _
    rw [hnx]
  dsimp only at hsyn ht ⊢
  rw [hd _ rfl, hneg] at hsyn ht ⊢
  by_cases hpos : seqOff c s < 0
  · have hne : seqOff c s ≠ 2147483648 := by omega
    simp only [hne, if_false, show 0 < -seqOff c s by omega, if_true] at hsyn ht ⊢
    obtain ⟨k, hk⟩ : ∃ k : Nat, (k : Int) = -textOff c s := by
      refine ⟨(-textOff c s).toNat, ?_⟩
      unfold textOff
      have : s.th.thFlags.syn.toNat ≤ 1 := Bool.toNat_le _
      omega
    have hmax : max n (n + textOff c s) = n := by omega
    have htd : (if s.th.thFlags.syn = true then -seqOff c s - 1 else -seqOff c s) = k := by
      rw [hk]
      unfold textOff
      cases s.th.thFlags.syn <;> simp; omega
    rw [htd] at hsyn ht ⊢
    rw [hmax]
    split at ht
    · -- the whole segment is in front of the window
      exfalso
      rcases ht with ht | ht
      · exact ht (Nat.sub_self _)
      · cases ht
    · rename_i hall
      rw [if_neg hall]
      obtain ⟨htext, htl, h1, h2, h3⟩ := @leftSyn_text S b s c c' n hseq ha _ rfl
      generalize leftSyn ⟨c', s.th, s.th.thFlags, s.tlen, s.hlen, s.m, false⟩ = y at *
      have hle : k ≤ y.tlen := by
        unfold leftAll at hall
        simp only [Bool.or_eq_true, decide_eq_true_eq, not_or] at hall
        omega
      have hcut := htext.leftCut hle
      rw [show n + textOff c s + k = n by omega] at hcut
      refine ⟨hcut, ?_, ?_, h3⟩
      · show n + ((y.tlen - k : Nat) : Int) = _
        omega
      · show y.hdroptlen + k + (y.tlen - k) = chainLen y.m
        rw [h1, h2]
        omega
  · have hno : ¬ 0 < (if seqOff c s = 2147483648 then (-2147483648 : Int) else -seqOff c s) := by
      split <;> omega
    rw [if_neg hno] at hsyn ht ⊢
    have hsy : s.th.thFlags.syn = false := hsyn
    have hto : textOff c s = seqOff c s := by simp [textOff, hsy]
    have hmax : max n (n + textOff c s) = n + textOff c s := by omega
    rw [hmax]
    refine ⟨⟨?_, hpl, ha.data, ha.fin⟩, rfl, hlen, rfl⟩
    rw [hto]
    exact hseq

theorem inputRcvWnd_bounds (c : Conn) : 0 ≤ inputRcvWnd c ∧ inputRcvWnd c < 2147483648 := by
  have h1 := sdist_bounds c.tp.rcvAdv c.tp.rcvNxt
  have h2 : 2 * sbspace c.so.soRcv < 2 ^ 32 := BitVec.two_mul_toInt_lt
  unfold inputRcvWnd
  push_cast at h1 h2
  omega

/-- The bytes behind the window. -/
theorem rightDrop_at {x : InSt} {n p w : Int} (hn : At b x.tp.rcvNxt n) (hp : At b x.th.thSeq p)
    (hw : x.tp.rcvWnd = BitVec.ofInt 32 w) (hl : -2147483648 ≤ p + x.tlen - (n + w))
    (hu : p + x.tlen - (n + w) < 2147483648) : rightDrop x = p + x.tlen - (n + w) := by
  unfold rightDrop
  rw [hw]
  exact (hp.addNat x.tlen).sdist (hn.add w) (by omega) (by omega)

/-- What is left of a segment lies inside the window, and is a part of the segment. -/
structure Fits (S : Peer) (b : BitVec 32) (s : Seg) (n off wnd : Int) (y : InSt) (p : Int) :
    Prop where
  text : y.TextAt S b p
  len : y.tlen < 65536
  flags : y.th.thFlags = s.th.thFlags
  start : n ≤ p
  inside : p + y.tlen ≤ n + wnd
  part : p + y.tlen ≤ n + off + s.tlen

theorem Seg.tlen_lt (s : Seg) : s.tlen < 65536 := by
  have := s.len_lt
  unfold Seg.tlen
  omega

/-- **The right edge.**  The rest of the segment ends inside the window. -/
theorem checked_text {e : InEnv} {s : Seg} {c : Conn} {y : InSt} {n : Int}
    (hch : Checked (inputSetup e s c) y) (hn : At b c.tp.rcvNxt n)
    (ha : Arrives S s (n + textOff c s))
    (hex : textOff c s + s.tlen < 2147483648 + inputRcvWnd c)
    (hcut : s.th.thFlags.fin = true → max 0 (textOff c s) < inputRcvWnd c →
      inputRcvWnd c < textOff c s + s.tlen → S.fin (n + inputRcvWnd c)) (ht : y.HasText) :
    ∃ p, Fits S b s n (textOff c s) (inputRcvWnd c) y p := by
  have hw := inputRcvWnd_bounds c
  have hwnd : (leftTrim (inputSetup e s c)).tp.rcvWnd = BitVec.ofInt 32 (inputRcvWnd c) := by
    unfold InSt.tp
    rcases leftTrim_conn (inputSetup e s c) with h | h <;> rw [h] <;> rfl
  have hnx : At b (leftTrim (inputSetup e s c)).tp.rcvNxt n := by
    have h1 := congrArg RcvSide.rcvNxt (rcvSide_core (leftTrim_core (inputSetup e s c)))
    have h2 := congrArg RcvSide.rcvNxt (inputSetup_rcvSide e s c)
    have h3 : (leftTrim (inputSetup e s c)).tp.rcvNxt = c.tp.rcvNxt := h1.trans h2
    rw [h3]
    exact hn
  have hsyn : (leftTrim (inputSetup e s c)).tiflags.syn = false := by
    have := hch.syn
    cases hch.trim <;> exact this
  have hleft := leftTrim_text (e := e) hn ha hsyn
  have htrim := hch.trim
  generalize leftTrim (inputSetup e s c) = x at hleft hwnd hnx htrim
  have hlt := s.tlen_lt
  cases htrim with
  | inside h =>
    obtain ⟨h1, h2, -, h4⟩ := hleft ht
    refine ⟨_, h1, by omega, h4, by omega, ?_, by omega⟩
    rw [rightDrop_at hnx h1.seq hwnd (by omega) (by omega)] at h
    omega
  | cut h hl =>
    obtain ⟨h1, h2, h3, h4⟩ := hleft (.inl (by omega))
    rw [rightDrop_at hnx h1.seq hwnd (by omega) (by omega)] at h hl ⊢
    obtain ⟨k, hk⟩ : ∃ k : Nat, (k : Int) =
        max n (n + textOff c s) + x.tlen - (n + inputRcvWnd c) := ⟨_, Int.toNat_of_nonneg h.le⟩
    rw [← hk] at h hl ⊢
    have htl : (rightCut x k).tlen = x.tlen - k := rfl
    refine ⟨max n (n + textOff c s), ?_, by rw [htl]; omega, h4, by omega, by rw [htl]; omega,
      by rw [htl]; omega⟩
    refine h1.take h3 (n := k) (by omega) (by omega) rfl rfl rfl rfl fun hf => ?_
    have := hcut (h4 ▸ hf) (by omega) (by omega)
    rwa [htl, show max n (n + textOff c s) + ((x.tlen - k : Nat) : Int) = n + inputRcvWnd c by omega]
  | probe h hl =>
    exfalso
    rcases ht with ht | ht
    · exact ht (Nat.sub_eq_zero_of_le (by simp only [InSt.setTp]; omega))
    · cases ht

/-- The data of a SYN begins at `irs + 1`. -/
theorem synText_at {s : Seg} {y : InSt} (ha : Arrives S s 0) (hseq : y.th.thSeq = s.th.thSeq + 1)
    (hfl : y.th.thFlags = s.th.thFlags) (htl : y.tlen = s.tlen) (hh : y.hdroptlen = s.hlen)
    (hm : y.m = s.m) : y.TextAt S (s.th.thSeq + 1) 0 := by
  refine ⟨hseq ▸ At.base _, ?_, ?_, fun hf => ?_⟩
  · rw [hm, hh, htl]
    exact s.payload_length
  · rw [hm, hh]
    exact ha.data
  · rw [htl]
    exact ha.fin (hfl ▸ hf)

/-- **The label `trimthenstep6`.** -/
theorem trimThenStep6_text {s : Seg} {x : InSt} {wnd : Int} (hth : x.th = s.th)
    (htl : x.tlen = s.tlen) (hh : x.hdroptlen = s.hlen) (hm : x.m = s.m)
    (hw : x.tp.rcvWnd.toInt = wnd) (hw0 : 0 ≤ wnd) (ha : Arrives S s 0)
    (hcut : s.th.thFlags.fin = true → 0 < wnd → wnd < s.tlen → S.fin wnd)
    (ht : (trimThenStep6 x).HasText) :
    ∃ p, Fits S (s.th.thSeq + 1) s 0 0 wnd (trimThenStep6 x) p := by
  have hlt := s.tlen_lt
  have hlen := seg_len s
  have hfl : x.th.thFlags = s.th.thFlags := by rw [hth]
  have hx0 : ({ x with th := { x.th with thSeq := x.th.thSeq + 1 } } : InSt).TextAt S
      (s.th.thSeq + 1) 0 := synText_at ha (by rw [← hth]) hfl htl hh hm
  unfold trimThenStep6 at ht ⊢
  dsimp only at ht ⊢
  rw [hw] at ht ⊢
  split at ht
  · rename_i hl
    rw [if_pos hl]
    have hpos : 0 < wnd := by
      rcases ht with ht | ht
      · have : wnd.toNat ≠ 0 := ht
        omega
      · cases ht
    obtain ⟨k, hk⟩ : ∃ k : Nat, (k : Int) = x.tlen - wnd := ⟨_, Int.toNat_of_nonneg (by omega)⟩
    have hz : (0 : Int) + (wnd.toNat : Nat) = wnd := by omega
    refine ⟨0, ?_, by dsimp only; omega, hfl, le_refl _, by dsimp only; omega, by dsimp only; omega⟩
    refine hx0.take (n := k) (by dsimp only; rw [hh, htl, hm]; exact hlen) (by omega)
      (by dsimp only; omega) rfl rfl (by rw [hk]) (by dsimp only; omega) fun hf => ?_
    dsimp only
    rw [hz]
    exact hcut (hfl ▸ hf) hpos (by omega)
  · rename_i hl
    rw [if_neg hl]
    exact ⟨0, hx0, by dsimp only; omega, hfl, le_refl _, by dsimp only; omega, by dsimp only; omega⟩

/-! ## Segment text -/

/-- `rcv_nxt` is at position `n` and the queue stands between `lo` and `top`. -/
structure Lined (S : Peer) (b : BitVec 32) (hi lo top n : Int) (v : RcvSide) : Prop where
  nxt : At b v.rcvNxt n
  queue : Queued S b hi lo top v.tSegq
  span : top - lo < 2147483648
  lo_le : lo ≤ n
  le_top : n ≤ top

/-- The text has moved `rcv_nxt` from `n` to `n'`. -/
structure DataDone (S : Peer) (b : BitVec 32) (hi lo top n : Int) (v v' : RcvSide) (fin : Bool)
    (n' : Int) : Prop where
  le_top : n' ≤ top
  nxt : At b v'.rcvNxt n'
  grown : Grown S v.ssCantrcvmore v.soRcv v'.soRcv n n'
  queue : n' = n ∧ Queued S b hi lo top v'.tSegq ∨ Queued S b hi n' top v'.tSegq
  fin : fin = true → S.fin n' ∧ n' + 1 ≤ hi
  tState : v'.tState = v.tState
  irs : v'.irs = v.irs
  rcvAdv : v'.rcvAdv = v.rcvAdv
  cantrcvmore : v'.ssCantrcvmore = v.ssCantrcvmore

variable {hi lo top n : Int}

/-- Only the queue has changed. -/
theorem Lined.done {v : RcvSide} (h : Lined S b hi lo top n v) {segq : List Tcpqent}
    (hq : Queued S b hi lo top segq) : DataDone S b hi lo top n v { v with tSegq := segq } false n :=
  ⟨h.le_top, h.nxt, Grown.refl _ _ _, .inl ⟨rfl, hq⟩, fun hf => by simp at hf, rfl, rfl, rfl, rfl⟩

/-- **Delivery from the queue.** -/
theorem tcpPresent_done {c : Conn} (h : Lined S b hi lo top n c.rcvSide) :
    ∃ n', DataDone S b hi lo top n c.rcvSide (tcpPresent c).1.rcvSide (tcpPresent c).2 n' := by
  unfold tcpPresent
  split
  · split
    · exact ⟨n, h.done h.queue⟩
    · dsimp only
      rcases presentLoop_delivered c.so.ssCantrcvmore c.so.soRcv false h.queue h.nxt h.span h.lo_le
          h.le_top with hr | ⟨n', hle, hg, hd⟩
      · have hr' : presentLoop c.so.ssCantrcvmore c.tp.tSegq c.tp.rcvNxt c.so.soRcv false =
          ⟨c.tp.tSegq, c.tp.rcvNxt, c.so.soRcv, false⟩ := hr
        rw [hr']
        exact ⟨n, h.done h.queue⟩
      · exact ⟨n', hle, hd.nxt, hg, .inr hd.queue, hd.fin, rfl, rfl, rfl, rfl⟩
  · exact ⟨n, h.done h.queue⟩

/-- **`tcp_reass` with a segment.** -/
theorem tcpReass_done (tiqe : Bool) {c : Conn} {th : TcpHdr} {m : Chain} {tlen : Nat} {p : Int}
    (h : Lined S b hi lo top n c.rcvSide)
    (ht : TextAt S b th.thSeq th.thFlags.fin (chainBytes m) tlen p) (hlen : tlen < 65536)
    (hlo : lo ≤ p) (htop : p + tlen ≤ top) (hend : p + tlen + th.thFlags.fin.toNat ≤ hi) :
    ∃ n', DataDone S b hi lo top n c.rcvSide (tcpReass tiqe c th m tlen).1.rcvSide
      (tcpReass tiqe c th m tlen).2 n' := by
  unfold tcpReass
  split
  · split
    · exact ⟨n, h.done h.queue⟩
    · rename_i segq hr
      have hq := reassInsert_queued h.queue h.span ht hlen hlo htop hend hr
      obtain ⟨n', hd⟩ := tcpPresent_done (c := { c with tp := { c.tp with tSegq := segq } })
        ⟨h.nxt, hq, h.span, h.lo_le, h.le_top⟩
      exact ⟨n', hd.le_top, hd.nxt, hd.grown, hd.queue, hd.fin, hd.tState, hd.irs, hd.rcvAdv,
        hd.cantrcvmore⟩
  · have he : Queued S b hi lo top [] := h.lo_le.trans h.le_top
    exact ⟨n, h.done he⟩

/-- The bytes `tcp_input` hands on. -/
theorem mAdj_text (x : InSt) :
    chainBytes (mAdj x.m x.hdroptlen) = (chainBytes x.m).drop x.hdroptlen :=
  mAdj_bytes_head x.m x.hdroptlen

/-- **The segment text**, in order or through `tcp_reass`. -/
theorem doData_done {e : InEnv} {x : InSt} (h : Lined S b hi lo top n x.conn.rcvSide)
    (ht : x.HasText → ∃ p, lo ≤ p ∧ x.TextAt S b p ∧ x.tlen < 65536 ∧ p + x.tlen ≤ top ∧
      p + x.tlen + x.th.thFlags.fin.toNat ≤ hi) :
    ∃ n', DataDone S b hi lo top n x.conn.rcvSide (doData e x).1.rcvSide (doData e x).2 n' := by
  unfold doData
  split
  · rename_i htext
    have hx : x.HasText := by
      unfold hasText at htext
      simp only [Bool.and_eq_true, Bool.or_eq_true, decide_eq_true_eq] at htext
      exact htext.1
    obtain ⟨p, hlo, hp, hlen, htop, hend⟩ := ht hx
    have hspan := h.span
    have hle := h.le_top
    have hlo' := h.lo_le
    split
    · rename_i hord
      simp only [inOrder, Bool.and_eq_true, decide_eq_true_eq, List.isEmpty_iff] at hord
      obtain ⟨⟨hseq, hq⟩, -⟩ := hord
      have hpn : p = n := (hp.seq.eq_iff h.nxt (by omega) (by omega)).mp hseq
      subst hpn
      refine ⟨p + x.tlen, ⟨by omega, h.nxt.addNat x.tlen, ⟨by omega, _, hp.bytes, ?_, ?_⟩,
        .inr ?_, fun hf => ?_, rfl, rfl, rfl, ?_⟩⟩
      · rw [hp.length]
      · show (inOrderConn x).so.soRcv = if x.so.ssCantrcvmore then x.so.soRcv else _
        unfold inOrderConn
        dsimp only
        split
        · rfl
        · rw [sbappend_push, mAdj_text]
          rfl
      · show Queued S b hi (p + x.tlen) top x.tp.tSegq
        rw [hq]
        exact htop
      · have hf' : x.th.thFlags.fin = true := hf
        rw [hf'] at hend
        exact ⟨hp.fin hf', by simpa using hend⟩
      · show (inOrderConn x).so.ssCantrcvmore = x.so.ssCantrcvmore
        unfold inOrderConn
        dsimp only
        split <;> rfl
    · have hp' : TextAt S b x.th.thSeq x.th.thFlags.fin (chainBytes (mAdj x.m x.hdroptlen)) x.tlen
          p := by
        rw [mAdj_text]
        exact hp
      obtain ⟨n', hd⟩ := tcpReass_done e.tiqe h hp' hlen hlo htop hend
      exact ⟨n', hd.le_top, hd.nxt, hd.grown, hd.queue, hd.fin, hd.tState, hd.irs, hd.rcvAdv,
        hd.cantrcvmore⟩
  · exact ⟨n, h.done h.queue⟩

end TnNet
