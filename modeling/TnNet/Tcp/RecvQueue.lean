import TnNet.Lib.ByteStream
import TnNet.Tcp.Reass

/-!
# The reassembly queue

A peer has a byte stream; the byte of sequence number `b` is at position `0`.  `Peer` tells which
bytes may stand at a position and where a FIN may stand.  `TextAt` places the text of a segment,
and `Queued` the entries of `t_segq`: sorted by `th_seq`, pairwise disjoint, each with
`th_reseqlen` bytes of the stream.

* `reassInsert_queued` — insertion keeps the queue sorted, disjoint and equal to the stream.
* `presentLoop_delivered` — delivery appends the bytes of the stream from `rcv_nxt` on.

Both hold for entries less than `2 ^ 31` apart, where sequence comparisons are exact.
-/

set_option autoImplicit false

namespace TnNet

open SeqArith ByteStream

/-- What the peer may send: the bytes at a position, and the positions of a FIN. -/
structure Peer where
  data : Int → UInt8 → Prop
  fin : Int → Prop

/-- The text of a segment or of a queue entry at position `p`. -/
structure TextAt (S : Peer) (b seq : BitVec 32) (fin : Bool) (bytes : List UInt8) (len : Nat)
    (p : Int) : Prop where
  seq : At b seq p
  length : bytes.length = len
  bytes : Agrees S.data p bytes
  fin : fin = true → S.fin (p + len)

/-- `th_reseqlen` of an entry. -/
def Tcpqent.len (q : Tcpqent) : Nat := q.tcpqeTcp.thReseqlen.toNat

/-- The `TH_FIN` bit of an entry. -/
def Tcpqent.fin (q : Tcpqent) : Bool := q.tcpqeTcp.thFlags.fin

/-- A queue entry at position `p`. -/
def EntryAt (S : Peer) (b : BitVec 32) (q : Tcpqent) (p : Int) : Prop :=
  TextAt S b q.tcpqeTcp.thSeq q.fin (chainBytes q.tcpqeM) q.len p

/-- The entries stand in order between `lo` and `top` and do not overlap; none of them, with its
    FIN, ends behind `hi`. -/
def Queued (S : Peer) (b : BitVec 32) (hi : Int) : Int → Int → List Tcpqent → Prop
  | lo, top, [] => lo ≤ top
  | lo, top, q :: qs =>
    ∃ p, lo ≤ p ∧ EntryAt S b q p ∧ p + q.len + q.fin.toNat ≤ hi ∧ Queued S b hi (p + q.len) top qs

variable {S : Peer} {b : BitVec 32} {hi lo top : Int}

theorem Queued.le {qs : List Tcpqent} (h : Queued S b hi lo top qs) : lo ≤ top := by
  induction qs generalizing lo with
  | nil => exact h
  | cons q qs ih =>
    obtain ⟨p, hp, -, -, hq⟩ := h
    have := ih hq
    omega

theorem Queued.mono {qs : List Tcpqent} (h : Queued S b hi lo top qs) {hi' lo' top' : Int}
    (hh : hi ≤ hi') (hl : lo' ≤ lo) (ht : top ≤ top') : Queued S b hi' lo' top' qs := by
  induction qs generalizing lo lo' with
  | nil => exact hl.trans (le_trans h ht)
  | cons q qs ih =>
    obtain ⟨p, hp, he, hf, hq⟩ := h
    exact ⟨p, hl.trans hp, he, hf.trans hh, ih hq (le_refl _)⟩

theorem queued_append {xs ys : List Tcpqent} :
    Queued S b hi lo top (xs ++ ys) ↔
      ∃ mid, Queued S b hi lo mid xs ∧ Queued S b hi mid top ys := by
  induction xs generalizing lo with
  | nil =>
    constructor
    · intro h
      exact ⟨lo, le_refl lo, h⟩
    · rintro ⟨mid, h1, h2⟩
      exact h2.mono (le_refl _) h1 (le_refl _)
  | cons q xs ih =>
    constructor
    · rintro ⟨p, hp, he, hf, hq⟩
      obtain ⟨mid, h1, h2⟩ := ih.mp hq
      exact ⟨mid, ⟨p, hp, he, hf, h1⟩, h2⟩
    · rintro ⟨mid, ⟨p, hp, he, hf, hq⟩, h2⟩
      exact ⟨p, hp, he, hf, ih.mpr ⟨mid, hq, h2⟩⟩

/-! ## Insertion -/

theorem At.setWidth {x : BitVec 32} {n : Int} (h : At b x n) (k : BitVec 16) :
    At b (x + k.setWidth 32) (n + k.toNat) := by
  have := h.addNat k.toNat
  rwa [BitVec.ofNat_toNat] at this

theorem ofNat16_toNat {n : Nat} (h : n < 65536) : (BitVec.ofNat 16 n).toNat = n := by
  rw [BitVec.toNat_ofNat]
  omega

/-- Cutting the front of an entry moves it along the stream. -/
theorem EntryAt.cut {q : Tcpqent} {p : Int} (h : EntryAt S b q p) {n : Nat} (hn : n ≤ q.len) :
    EntryAt S b (q.cut n) (p + n) ∧ (q.cut n).len = q.len - n := by
  have hlen : (q.cut n).len = q.len - n := by
    have hw : q.len < 65536 := q.tcpqeTcp.thUrp.isLt
    have hn' : (BitVec.ofInt 16 (n : Int)) = BitVec.ofNat 16 n := BitVec.ofInt_natCast 16 n
    have ht := ofNat16_toNat (n := n) (by omega)
    unfold Tcpqent.len Tcpqent.cut TcpHdr.thReseqlen at *
    rw [hn', BitVec.toNat_sub, ht]
    omega
  refine ⟨⟨h.seq.add n, ?_, ?_, fun hf => ?_⟩, hlen⟩
  · show (chainBytes (mAdj q.tcpqeM n)).length = _
    rw [hlen, mAdj_bytes_head, List.length_drop, h.length]
  · show Agrees S.data (p + n) (chainBytes (mAdj q.tcpqeM n))
    rw [mAdj_bytes_head]
    exact h.bytes.drop (by rw [h.length]; exact hn)
  · rw [hlen]
    have := h.fin hf
    rwa [show p + n + ((q.len - n : Nat) : Int) = p + q.len by omega]

/-- **The entries behind the segment**, trimmed to its end. -/
theorem reassTrim_queued {fin : BitVec 32} {f mid : Int} {qs : List Tcpqent}
    (h : Queued S b hi mid top qs) (hf : At b fin f) (hspan : top - lo < 2147483648)
    (hmid : lo ≤ mid) (hlo : lo ≤ f) (htop : f ≤ top) :
    Queued S b hi f top (reassTrim fin qs) := by
  induction qs generalizing mid with
  | nil => exact htop
  | cons q qs ih =>
    obtain ⟨p, hp, he, hend, hq⟩ := h
    have hle := hq.le
    have hi' : sdist fin q.tcpqeTcp.thSeq = f - p := hf.sdist he.seq (by omega) (by omega)
    unfold reassTrim
    dsimp only
    rw [hi']
    split
    · exact ⟨p, by omega, he, hend, hq⟩
    · rename_i hpos
      split
      · rename_i hlt
        obtain ⟨n, hn⟩ : ∃ n : Nat, (n : Int) = f - p := ⟨(f - p).toNat, by omega⟩
        have hlt' : f - p < q.len := hlt
        obtain ⟨hcut, hlen⟩ := he.cut (n := n) (by omega)
        rw [← hn]
        have hfin : (q.cut n).fin = q.fin := rfl
        refine ⟨p + n, by omega, hcut, by rw [hlen, hfin]; omega, ?_⟩
        exact hq.mono (le_refl _) (by rw [hlen]; omega) (le_refl _)
      · exact ih hq (by omega)

theorem reassBefore_last {segq : List Tcpqent} {seq : BitVec 32} {p : Tcpqent}
    (h : (reassBefore segq seq).getLast? = some p) :
    (∃ xs, reassBefore segq seq = xs ++ [p]) ∧ seqGt p.tcpqeTcp.thSeq seq = false := by
  obtain ⟨xs, hxs⟩ := List.getLast?_eq_some_iff.mp h
  refine ⟨⟨xs, hxs⟩, ?_⟩
  have hmem : p ∈ reassBefore segq seq := by simp [hxs]
  simpa using List.all_eq_true.mp List.all_takeWhile p hmem

/-- **The entries in front of the segment** end where the rest of the segment begins. -/
theorem reassBefore_queued {segq : List Tcpqent} {seq : BitVec 32} {s : Int}
    (h : Queued S b hi lo top segq) (hs : At b seq s) (hspan : top - lo < 2147483648) (hlo : lo ≤ s)
    (htop : s ≤ top) :
    Queued S b hi lo (s + max (reassOverlap segq seq) 0) (reassBefore segq seq) ∧
      ∃ mid, lo ≤ mid ∧ Queued S b hi mid top (reassAfter segq seq) := by
  have happ : segq = reassBefore segq seq ++ reassAfter segq seq :=
    (List.takeWhile_append_dropWhile).symm
  rw [happ, queued_append] at h
  obtain ⟨mid, hb, ha⟩ := h
  refine ⟨?_, mid, hb.le, ha⟩
  unfold reassOverlap
  split
  · rename_i hn
    rw [List.getLast?_eq_none_iff.mp hn]
    show lo ≤ _
    omega
  · rename_i p hp
    obtain ⟨⟨xs, hxs⟩, hgt⟩ := reassBefore_last hp
    rw [hxs, queued_append] at hb ⊢
    obtain ⟨m1, h1, pp, hpp, he, hend, hmid⟩ := hb
    have hmid' : pp + p.len ≤ mid := hmid
    have := h1.le
    have := ha.le
    rw [seqGt_at he.seq hs (by omega) (by omega)] at hgt
    have hle : ¬ s < pp := of_decide_eq_false hgt
    have hsd : sdist (p.tcpqeTcp.thSeq + p.tcpqeTcp.thReseqlen.setWidth 32) seq =
        pp + p.len - s :=
      (At.setWidth he.seq p.tcpqeTcp.thReseqlen).sdist hs (by unfold Tcpqent.len at *; omega)
        (by unfold Tcpqent.len at *; omega)
    rw [hsd]
    refine ⟨m1, h1, pp, hpp, he, hend, ?_⟩
    show pp + p.len ≤ _
    omega

/-- The entry of a segment in its place. -/
theorem reassPlace_queued {segq : List Tcpqent} {seq : BitVec 32} {th : TcpHdr} {m : Chain}
    {tlen : Nat} {s mid : Int} (hb : Queued S b hi lo s (reassBefore segq seq))
    (ha : Queued S b hi mid top (reassAfter segq seq)) (hmid : lo ≤ mid)
    (ht : TextAt S b th.thSeq th.thFlags.fin (chainBytes m) tlen s) (hlen : tlen < 65536)
    (hspan : top - lo < 2147483648) (htop : s + tlen ≤ top)
    (hend : s + tlen + th.thFlags.fin.toNat ≤ hi) :
    Queued S b hi lo top (reassPlace segq seq th m tlen) := by
  have hl : (reassEntry th m tlen).len = tlen := ofNat16_toNat hlen
  have := hb.le
  refine queued_append.mpr ⟨s, hb, s, le_refl s, ⟨ht.seq, ?_, ht.bytes, ?_⟩, ?_, ?_⟩
  · rw [hl]
    exact ht.length
  · rw [hl]
    exact ht.fin
  · rw [hl]
    exact hend
  · rw [hl]
    exact reassTrim_queued ha (ht.seq.addNat tlen) hspan hmid (by omega) (by omega)

/-- **Insertion of a segment.** -/
theorem reassInsert_queued {segq segq' : List Tcpqent} {th : TcpHdr} {m : Chain} {tlen : Nat}
    {s : Int} (h : Queued S b hi lo top segq) (hspan : top - lo < 2147483648)
    (ht : TextAt S b th.thSeq th.thFlags.fin (chainBytes m) tlen s) (hlen : tlen < 65536)
    (hlo : lo ≤ s) (htop : s + tlen ≤ top) (hend : s + tlen + th.thFlags.fin.toNat ≤ hi)
    (hr : reassInsert segq th m tlen = some segq') : Queued S b hi lo top segq' := by
  obtain ⟨hb, mid, hmid, ha⟩ := reassBefore_queued h ht.seq hspan hlo (by omega)
  unfold reassInsert at hr
  dsimp only at hr
  split at hr
  · rename_i hpos
    split at hr
    · cases hr
    · rename_i hlt
      cases hr
      obtain ⟨n, hn⟩ : ∃ n : Nat, reassOverlap segq th.thSeq = n :=
        ⟨(reassOverlap segq th.thSeq).toNat, by omega⟩
      rw [hn] at hb hpos hlt ⊢
      have e : s + max (n : Int) 0 = s + n := by omega
      rw [e] at hb
      refine reassPlace_queued hb ha hmid ⟨ht.seq.add n, ?_, ?_, fun hf => ?_⟩ (by omega) hspan
        (by rw [Int.toNat_natCast]; omega) ?_
      · rw [mAdj_bytes_head, List.length_drop, ht.length, Int.toNat_natCast]
      · rw [mAdj_bytes_head]
        exact ht.bytes.drop (by rw [ht.length]; omega)
      · have := ht.fin hf
        rwa [Int.toNat_natCast, show s + n + ((tlen - n : Nat) : Int) = s + tlen by omega]
      · dsimp only
        rw [Int.toNat_natCast]
        omega
  · rename_i hpos
    cases hr
    have e : s + max (reassOverlap segq th.thSeq) 0 = s := by omega
    rw [e] at hb
    exact reassPlace_queued hb ha hmid ht hlen hspan htop hend

/-! ## Delivery -/

/-- The buffer with bytes added at the end. -/
def Sockbuf.push (sb : Sockbuf) (bs : List UInt8) : Sockbuf :=
  { sb with sbData := sb.sbData ++ bs, sbLog := sb.sbLog ++ bs }

theorem Sockbuf.push_nil (sb : Sockbuf) : sb.push [] = sb := by simp [Sockbuf.push]

theorem Sockbuf.push_push (sb : Sockbuf) (k l : List UInt8) :
    (sb.push k).push l = sb.push (k ++ l) := by simp [Sockbuf.push]

theorem sbappend_push (sb : Sockbuf) (m : Chain) : sbappend sb m = sb.push (chainBytes m) := rfl

/-- The bytes from `p` up to `p'` are appended, unless the receiving side is shut down. -/
structure Grown (S : Peer) (cant : Bool) (sb sb' : Sockbuf) (p p' : Int) : Prop where
  le : p ≤ p'
  bytes : ∃ bs, Agrees S.data p bs ∧ p + bs.length = p' ∧ sb' = if cant then sb else sb.push bs

theorem Grown.refl (cant : Bool) (sb : Sockbuf) (p : Int) : Grown S cant sb sb p p := by
  refine ⟨le_refl p, [], trivial, by simp, ?_⟩
  rw [Sockbuf.push_nil, ite_self]

theorem Grown.trans {cant : Bool} {sb sb' sb'' : Sockbuf} {p p' p'' : Int}
    (h : Grown S cant sb sb' p p') (h' : Grown S cant sb' sb'' p' p'') :
    Grown S cant sb sb'' p p'' := by
  obtain ⟨bs, h1, h2, h3⟩ := h.bytes
  obtain ⟨bs', h1', h2', h3'⟩ := h'.bytes
  refine ⟨h.le.trans h'.le, bs ++ bs', agrees_append.mpr ⟨h1, h2 ▸ h1'⟩, ?_, ?_⟩
  · rw [List.length_append]
    omega
  · rw [h3', h3]
    cases cant
    · exact Sockbuf.push_push sb bs bs'
    · rfl

/-- What the delivery loop leaves: the position `p'` of `rcv_nxt`, the rest of the queue and the
    FIN of the last entry. -/
structure Delivered (S : Peer) (b : BitVec 32) (hi top p' : Int) (r : Present) : Prop where
  nxt : At b r.rcvNxt p'
  queue : Queued S b hi p' top r.segq
  fin : r.fin = true → S.fin p' ∧ p' + 1 ≤ hi

/-- **Delivery.**  Either the first entry is not the one expected, or the entries are delivered up
    to the first gap. -/
theorem presentLoop_delivered (cant : Bool) (sb : Sockbuf) (fin : Bool) {qs : List Tcpqent}
    {nxt : BitVec 32} {p : Int} (h : Queued S b hi lo top qs) (hn : At b nxt p)
    (hspan : top - lo < 2147483648) (hlo : lo ≤ p) (htop : p ≤ top) :
    presentLoop cant qs nxt sb fin = ⟨qs, nxt, sb, fin⟩ ∨
      ∃ p', p' ≤ top ∧ Grown S cant sb (presentLoop cant qs nxt sb fin).soRcv p p' ∧
        Delivered S b hi top p' (presentLoop cant qs nxt sb fin) := by
  induction qs generalizing lo p nxt sb fin with
  | nil => exact .inl rfl
  | cons q qs ih =>
    obtain ⟨pq, hpq, he, hend, hq⟩ := h
    have hle := hq.le
    unfold presentLoop
    split
    · rename_i heq
      have hp : pq = p := (he.seq.eq_iff hn (by omega) (by omega)).mp heq
      subst hp
      have hn' : At b (nxt + q.tcpqeTcp.thReseqlen.setWidth 32) (pq + q.len) := At.setWidth hn _
      have hg : Grown S cant sb (if cant then sb else sbappend sb q.tcpqeM) pq (pq + q.len) :=
        ⟨by omega, chainBytes q.tcpqeM, he.bytes, by rw [he.length], by rw [sbappend_push]⟩
      have hfin : q.fin = true → S.fin (pq + q.len) ∧ pq + q.len + 1 ≤ hi := by
        intro hf
        refine ⟨he.fin hf, ?_⟩
        rw [hf] at hend
        simpa using hend
      rcases ih (if cant then sb else sbappend sb q.tcpqeM) q.tcpqeTcp.thFlags.fin hq hn' (by omega)
          (le_refl _) hle with hr | ⟨p', hp', hg', hd⟩
      · rw [hr]
        exact .inr ⟨pq + q.len, hle, hg, hn', hq, hfin⟩
      · exact .inr ⟨p', hp', hg.trans hg', hd⟩
    · exact .inl rfl

end TnNet
