import TnNet.Tcp.RecvSide

/-!
# The invariant of the receiving side

`rcv_nxt` has a position `n` in the stream of the peer (`irs + 1` is position `0`).  `RcvInv` says
that everything in front of `n` has been appended to the receive buffer, that the window offered
to the peer is not far ahead of `n`, and that the queue holds text of the stream.

The queue lies behind `n`, with one exception: the segment that acknowledges our SYN is trimmed
before the queue is delivered, and put into the queue behind it.  Its entry may lie in front of
`n`; nothing is delivered any more as long as it is the first one.  `QueueInv` has both cases.

A `Limit` is a bound on the queue and on the offered window that the buffer gives.

* `Ready` — the invariant in front of `step6`, with the text of the segment in its place.
* `Ready.data`, `Ready.fin` — the segment text and the FIN step.
-/

set_option autoImplicit false

namespace TnNet

open SeqArith ByteStream

/-- The largest buffer and a FIN. -/
def rcvLimit : Int := 233017

/-- How far the peer may send, as a function of the receive buffer and `rcv_nxt`. -/
structure Limit where
  top : Sockbuf → Int → Int
  base : ∀ sb, sb.sbData = [] → 0 ≤ top sb 0
  drop : ∀ sb n k, top sb n ≤ top (sbdrop sb k) n
  push : ∀ sb n bs, top sb n ≤ top (sb.push bs) (n + bs.length)
  later : ∀ sb n n', n ≤ n' → top sb n + (n' - n) ≤ top sb n'
  space : ∀ sb n w, sb.sbHiwat ≤ sbreserveMax → n ≤ top sb n → w ≤ 1536 →
    (0 ≤ sbspace sb → w ≤ sbspace sb) → n + w ≤ top sb n

/-- The queue, when `rcv_nxt` is at `n`. -/
structure QueueInv (S : Peer) (L : Limit) (v : RcvSide) (n lo hi : Int) : Prop where
  span : lo = n ∧ hi ≤ n + 2147483647 ∨ lo = 0 ∧ n ≤ rcvLimit ∧ hi ≤ 2 * rcvLimit
  syn : v.tState = .synReceived → lo = 0 ∧ hi ≤ rcvLimit
  le_hi : n ≤ hi
  queued : Queued S (v.irs + 1) hi lo (min hi (L.top v.soRcv n)) v.tSegq

/-- The receiving side of a synchronized connection. -/
structure RcvInv (S : Peer) (L : Limit) (v : RcvSide) (n : Int) : Prop where
  start : 0 ≤ n
  nxt : At (v.irs + 1) v.rcvNxt n
  adv : ∃ a, At (v.irs + 1) v.rcvAdv a ∧ 0 ≤ a ∧ a ≤ n + 1536 ∧ a ≤ L.top v.soRcv n
  hiwat : v.soRcv.sbHiwat ≤ sbreserveMax
  cc : (v.soRcv.sbCc : Int) ≤ n
  edge : n ≤ L.top v.soRcv n
  log : v.ssCantrcvmore = false →
    Agrees S.data 0 v.soRcv.sbLog ∧ (v.soRcv.sbLog.length : Int) = n
  syn : v.tState = .synReceived → n = 0
  queue : v.tState.haveRcvdFin = false → ∃ lo hi, QueueInv S L v n lo hi
  fin : v.tState.haveRcvdFin = true → v.ssCantrcvmore = true ∧ S.fin (n - 1)

/-- The receiving side before the SYN of the peer. -/
structure Unsynced (L : Limit) (v : RcvSide) : Prop where
  segq : v.tSegq = []
  nxt : v.rcvNxt = v.irs
  adv : ∃ w : Int, 0 ≤ w ∧ w ≤ 1536 ∧ w ≤ L.top v.soRcv 0 ∧
    v.rcvAdv = v.rcvNxt + BitVec.ofInt 32 w
  hiwat : v.soRcv.sbHiwat ≤ sbreserveMax
  data : v.soRcv.sbData = []
  log : v.soRcv.sbLog = []

/-- `rcv_nxt` relative to the first byte of the peer. -/
def RcvSide.rel (v : RcvSide) : BitVec 32 := v.rcvNxt - (v.irs + 1)

/-- The receiving side in every state. -/
inductive RcvState (S : Peer) (L : Limit) (v : RcvSide) (n : Int) : Prop where
  | closed (h : v.tState = .closed) (hn : v.rel = BitVec.ofInt 32 n)
  | unsynced (hs : v.tState = .listen ∨ v.tState = .synSent) (h : Unsynced L v) (hn : n = -1)
  | synced (hs : v.tState.haveRcvdSyn = true) (h : RcvInv S L v n)

variable {S : Peer} {L : Limit} {v : RcvSide} {n : Int}

theorem RcvState.rel (h : RcvState S L v n) : v.rel = BitVec.ofInt 32 n := by
  cases h with
  | closed _ hn => exact hn
  | unsynced _ h hn =>
    have := ((At.base v.irs).shift 1).sub_eq (At.base (v.irs + BitVec.ofInt 32 1))
    unfold RcvSide.rel
    rw [h.nxt, hn]
    exact this
  | synced _ h =>
    have := h.nxt.sub_eq (At.base (v.irs + 1))
    rwa [Int.sub_zero] at this

/-! ## The queue -/

theorem QueueInv.lo_nonneg {lo hi : Int} (h : QueueInv S L v n lo hi) (hn : 0 ≤ n) : 0 ≤ lo := by
  rcases h.span with h | h <;> omega

/-- The room for the queue and for new text. -/
theorem QueueInv.lined {lo hi : Int} (h : QueueInv S L v n lo hi) (hi' : RcvInv S L v n) :
    Lined S (v.irs + 1) hi lo (min hi (L.top v.soRcv n)) n v := by
  have h0 := hi'.start
  have h1 := hi'.edge
  have h2 := h.le_hi
  refine ⟨hi'.nxt, h.queued, ?_, ?_, by omega⟩
  · have hs := h.span
    unfold rcvLimit at hs
    omega
  · rcases h.span with hs | hs <;> omega

theorem Grown.top_le {cant : Bool} {sb sb' : Sockbuf} {n' : Int} (h : Grown S cant sb sb' n n') :
    L.top sb n ≤ L.top sb' n' := by
  obtain ⟨bs, -, hlen, he⟩ := h.bytes
  cases cant with
  | true =>
    rw [if_pos rfl] at he
    have h1 := L.later sb n n' h.le
    have h2 := h.le
    rw [he]
    omega
  | false =>
    rw [if_neg Bool.false_ne_true] at he
    rw [he, ← hlen]
    exact L.push sb n bs

/-! ## Changes of the other fields -/

/-- A change of the state, of the buffer and of `SS_CANTRCVMORE`. -/
theorem RcvInv.change (h : RcvInv S L v n) {st : TcpState} {cant : Bool} {sb : Sockbuf}
    (hst : st.haveRcvdFin = v.tState.haveRcvdFin)
    (hsyn : st = .synReceived → v.tState = .synReceived)
    (hcant : cant = false → v.ssCantrcvmore = false) (hw : sb.sbHiwat ≤ sbreserveMax)
    (hcc : sb.sbCc ≤ v.soRcv.sbCc) (hlog : sb.sbLog = v.soRcv.sbLog)
    (htop : L.top v.soRcv n ≤ L.top sb n) :
    RcvInv S L { v with tState := st, ssCantrcvmore := cant, soRcv := sb } n := by
  obtain ⟨a, ha, ha0, ha1, ha2⟩ := h.adv
  refine ⟨h.start, h.nxt, ⟨a, ha, ha0, ha1, ha2.trans htop⟩, hw, ?_, h.edge.trans htop,
    fun hc => ?_, fun hs => h.syn (hsyn hs), fun hf => ?_, fun hf => ?_⟩
  · have := h.cc
    dsimp only
    omega
  · dsimp only
    rw [hlog]
    exact h.log (hcant hc)
  · obtain ⟨lo, hi, hq⟩ := h.queue (hst ▸ hf)
    refine ⟨lo, hi, hq.span, fun hs => hq.syn (hsyn hs), hq.le_hi, ?_⟩
    exact hq.queued.mono (le_refl _) (le_refl _) (by dsimp only; omega)
  · obtain ⟨h1, h2⟩ := h.fin (hst ▸ hf)
    refine ⟨?_, h2⟩
    cases hc : cant with
    | true => rfl
    | false => rw [hcant hc] at h1; cases h1

/-- A change of the state alone. -/
theorem RcvInv.setState (h : RcvInv S L v n) {st : TcpState}
    (hst : st.haveRcvdFin = v.tState.haveRcvdFin)
    (hsyn : st = .synReceived → v.tState = .synReceived) :
    RcvInv S L { v with tState := st } n :=
  h.change hst hsyn id h.hiwat (le_refl _) rfl (le_refl _)

theorem RcvInv.move (h : RcvInv S L v n) {a : BitVec 32} (ha : AdvMove v a) :
    RcvInv S L { v with rcvAdv := a } n := by
  have hadv : ∃ a', At (v.irs + 1) a a' ∧ 0 ≤ a' ∧ a' ≤ n + 1536 ∧ a' ≤ L.top v.soRcv n := by
    rcases ha with rfl | ⟨w, h1, h2, h3, rfl⟩
    · exact h.adv
    · have := h.start
      exact ⟨n + w, h.nxt.add w, by omega, by omega, L.space _ n w h.hiwat h.edge h2 h3⟩
  refine ⟨h.start, h.nxt, hadv, h.hiwat, h.cc, h.edge, h.log, h.syn, fun hf => ?_, h.fin⟩
  obtain ⟨lo, hi, hq⟩ := h.queue hf
  exact ⟨lo, hi, hq.span, hq.syn, hq.le_hi, hq.queued⟩

theorem Unsynced.move (h : Unsynced L v) {a : BitVec 32} (ha : AdvMove v a) :
    Unsynced L { v with rcvAdv := a } := by
  refine ⟨h.segq, h.nxt, ?_, h.hiwat, h.data, h.log⟩
  rcases ha with rfl | ⟨w, h1, h2, h3, rfl⟩
  · exact h.adv
  · have := L.space v.soRcv 0 w h.hiwat (L.base _ h.data) h2 h3
    exact ⟨w, by omega, h2, by dsimp only; omega, rfl⟩

theorem RcvState.output (env : Nat → SendEnv) {c : Conn} (h : RcvState S L c.rcvSide n) :
    RcvState S L (tcpOutput env c).conn.rcvSide n := by
  refine tcpOutput_adv_rule (Q := fun v => RcvState S L v n) (fun v a hv ha => ?_) env h
  cases hv with
  | closed h hn => exact .closed h hn
  | unsynced hs h hn => exact .unsynced hs (h.move ha) hn
  | synced hs h => exact .synced hs (h.move ha)

/-! ## The window -/

/-- While `rcv_nxt` is near the start of the stream the window is that of the buffer. -/
theorem RcvInv.wnd_le {c : Conn} (h : RcvInv S L c.rcvSide n) (hn : n ≤ rcvLimit) :
    inputRcvWnd c ≤ 233016 := by
  obtain ⟨a, ha, ha0, ha1, -⟩ := h.adv
  have h0 := h.start
  have hcc : (c.so.soRcv.sbCc : Int) ≤ n := h.cc
  have hw : c.so.soRcv.sbHiwat ≤ 233016 := h.hiwat
  unfold rcvLimit at hn
  have hs : sbspace c.so.soRcv = (c.so.soRcv.sbHiwat : Int) - c.so.soRcv.sbCc :=
    sbspace_eq (by omega) (by omega)
  have hd : sdist c.tp.rcvAdv c.tp.rcvNxt = a - n := ha.sdist h.nxt (by omega) (by omega)
  unfold inputRcvWnd
  rw [hs, hd]
  omega

theorem Unsynced.wnd_le {c : Conn} (h : Unsynced L c.rcvSide) : inputRcvWnd c ≤ 233016 := by
  obtain ⟨w, hw0, hw1, -, hw⟩ := h.adv
  have hd : c.so.soRcv.sbData = [] := h.data
  have hcc : c.so.soRcv.sbCc = 0 := by simp [Sockbuf.sbCc, hd]
  have hhw : c.so.soRcv.sbHiwat ≤ 233016 := h.hiwat
  have hs : sbspace c.so.soRcv = (c.so.soRcv.sbHiwat : Int) - c.so.soRcv.sbCc :=
    sbspace_eq (by omega) (by omega)
  have hb := At.base c.tp.rcvNxt
  have hd : sdist c.tp.rcvAdv c.tp.rcvNxt = 0 + w - 0 := by
    have hw' : c.tp.rcvAdv = c.tp.rcvNxt + BitVec.ofInt 32 w := hw
    rw [hw']
    exact (hb.add w).sdist hb (by omega) (by omega)
  unfold inputRcvWnd
  rw [hs, hd, hcc]
  omega

/-! ## Delivery -/

/-- **Delivery keeps the invariant.** -/
theorem RcvInv.done (h : RcvInv S L v n) {lo hi n' : Int} {v' : RcvSide} {fin : Bool}
    (hq : QueueInv S L v n lo hi)
    (hd : DataDone S (v.irs + 1) hi lo (min hi (L.top v.soRcv n)) n v v' fin n')
    (hsyn : v.tState = .synReceived → n' = n) (hfin : v.tState.haveRcvdFin = false) :
    RcvInv S L v' n' ∧ ∃ lo', QueueInv S L v' n' lo' hi := by
  have h0 := h.start
  have hle := hd.grown.le
  have htop : L.top v.soRcv n ≤ L.top v'.soRcv n' := hd.grown.top_le
  have hn' := hd.le_top
  have hb : v'.irs + 1 = v.irs + 1 := by rw [hd.irs]
  have hqueue : ∃ lo', QueueInv S L v' n' lo' hi := by
    have hs := hq.span
    unfold rcvLimit at hs
    rcases hd.queue with ⟨hnn, hqq⟩ | hqq
    · refine ⟨lo, hnn ▸ hq.span, fun hst => hq.syn (hd.tState ▸ hst), by omega, ?_⟩
      rw [hb]
      exact hqq.mono (le_refl _) (le_refl _) (by omega)
    · refine ⟨n', .inl ⟨rfl, by omega⟩, fun hst => ?_, by omega, ?_⟩
      · rw [hd.tState] at hst
        have := h.syn hst
        have := hsyn hst
        exact ⟨by omega, (hq.syn hst).2⟩
      · rw [hb]
        exact hqq.mono (le_refl _) (le_refl _) (by omega)
  have hnofin : v'.tState.haveRcvdFin = false := by rw [hd.tState, hfin]
  obtain ⟨bs, hbs, hlen, hsb⟩ := hd.grown.bytes
  obtain ⟨a, ha, ha0, ha1, ha2⟩ := h.adv
  refine ⟨⟨by omega, hb.symm ▸ hd.nxt, ⟨a, ?_, ha0, by omega, by omega⟩, ?_, ?_, ?_, fun hc => ?_,
    fun hst => ?_, fun _ => ?_, fun hf => ?_⟩, hqueue⟩
  · rw [hb, hd.rcvAdv]
    exact ha
  · rw [hsb]
    split
    · exact h.hiwat
    · exact h.hiwat
  · have hcc := h.cc
    rw [hsb]
    split
    · omega
    · simp only [Sockbuf.push, Sockbuf.sbCc, List.length_append] at hcc ⊢
      omega
  · have := h.edge
    omega
  · rw [hd.cantrcvmore] at hc
    obtain ⟨h1, h2⟩ := h.log hc
    rw [hsb, hc, if_neg Bool.false_ne_true]
    refine ⟨agrees_append.mpr ⟨h1, ?_⟩, ?_⟩
    · rw [h2, Int.zero_add]
      exact hbs
    · simp only [Sockbuf.push, List.length_append]
      omega
  · rw [hd.tState] at hst
    have := h.syn hst
    have := hsyn hst
    omega
  · obtain ⟨lo', h'⟩ := hqueue
    exact ⟨lo', hi, h'⟩
  · rw [hnofin] at hf
    cases hf

/-- The text in front of `step6`: `rcv_nxt` was at `n0` when the segment arrived. -/
structure Ready (S : Peer) (L : Limit) (n0 : Int) (x : InSt) (n : Int) : Prop where
  syn : x.tp.tState.haveRcvdSyn = true
  inv : RcvInv S L x.conn.rcvSide n
  ge : n0 ≤ n
  lt : n < n0 + 2147483648
  text : x.tp.tState.haveRcvdFin = false →
    ∃ lo hi, QueueInv S L x.conn.rcvSide n lo hi ∧ hi < n0 + 2147483648 ∧
      (x.HasText → ∃ p, lo ≤ p ∧ x.TextAt S (x.tp.irs + 1) p ∧ x.tlen < 65536 ∧
        p + x.tlen ≤ L.top x.so.soRcv n ∧ p + x.tlen + x.th.thFlags.fin.toNat ≤ hi)

/-- What the segment text leaves for the FIN step. -/
structure Texted (S : Peer) (L : Limit) (n0 : Int) (r : Conn × Bool) (n : Int) : Prop where
  syn : r.1.tp.tState.haveRcvdSyn = true
  inv : RcvInv S L r.1.rcvSide n
  ge : n0 ≤ n
  lt : n < n0 + 2147483648
  fin : r.2 = true → S.fin n ∧ n + 1 < n0 + 2147483648

/-- **The segment text.** -/
theorem Ready.data {n0 : Int} {x : InSt} (h : Ready S L n0 x n) (e : InEnv) :
    ∃ n', Texted S L n0 (doData e (step6 x)) n' := by
  have hv := step6_rcvSide x
  have hst : (step6 x).tp.tState = x.tp.tState := congrArg RcvSide.tState hv
  obtain ⟨htl, hth, htf⟩ := step6_tlen x
  cases hf : x.tp.tState.haveRcvdFin with
  | true =>
    have hno : hasText (step6 x) = false := by simp [hasText, hst, hf]
    have hd : doData e (step6 x) = ((step6 x).conn, false) := by
      unfold doData
      rw [hno]
      rfl
    rw [hd]
    refine ⟨n, ?_, ?_, h.ge, h.lt, fun hb => by cases hb⟩
    · show (step6 x).tp.tState.haveRcvdSyn = true
      rw [hst]
      exact h.syn
    · rw [hv]
      exact h.inv
  | false =>
    obtain ⟨lo, hi, hq, hhi, htext⟩ := h.text hf
    have hl := hq.lined h.inv
    rw [← hv] at hl
    have hirs : (step6 x).conn.rcvSide.irs = x.tp.irs := congrArg RcvSide.irs hv
    have hsb : (step6 x).conn.rcvSide.soRcv = x.so.soRcv := congrArg RcvSide.soRcv hv
    obtain ⟨n', hd⟩ := doData_done (e := e) (x := step6 x) hl (fun ht => by
      have ht' : x.HasText := by
        unfold InSt.HasText at ht ⊢
        rwa [htl, htf] at ht
      obtain ⟨p, h1, h2, h3, h4, h5⟩ := htext ht'
      refine ⟨p, h1, step6_textAt x (hirs ▸ h2), by rwa [htl], ?_, by rwa [htl, hth]⟩
      rw [htl, hsb]
      omega)
    rw [hv] at hd
    have hle := hd.grown.le
    have hn' := hd.le_top
    have hsyn : x.conn.rcvSide.tState = .synReceived → n' = n := by
      intro hs
      have hs' : (step6 x).tp.tState = .synReceived := hst.trans hs
      have hnx : (doData e (step6 x)).1.tp.rcvNxt = (step6 x).tp.rcvNxt := doData_synReceived hs'
      have hnx' : (step6 x).tp.rcvNxt = x.tp.rcvNxt := congrArg RcvSide.rcvNxt hv
      have h0 := h.inv.syn hs
      have h1 := (hq.syn hs).2
      unfold rcvLimit at h1
      exact (hd.nxt.eq_iff h.inv.nxt (by omega) (by omega)).mp (hnx.trans hnx')
    obtain ⟨hinv, -⟩ := h.inv.done hq hd hsyn hf
    have hge := h.ge
    refine ⟨n', ?_, hinv, by omega, by omega, fun hfin => ?_⟩
    · have : (doData e (step6 x)).1.tp.tState = x.tp.tState := hd.tState
      rw [this]
      exact h.syn
    · obtain ⟨h1, h2⟩ := hd.fin hfin
      exact ⟨h1, by omega⟩

/-- **The FIN step.** -/
theorem Texted.doFin {n0 : Int} {r : Conn × Bool} (h : Texted S L n0 r n)
    (hfin : r.2 = true → r.1.tp.tState.haveEstablished = true ∧ r.1.tp.tState.haveRcvdFin = false) :
    ∃ n', n0 ≤ n' ∧ n' < n0 + 2147483648 ∧ RcvState S L (TnNet.doFin r.2 r.1).rcvSide n' := by
  cases hr : r.2 with
  | false => exact ⟨n, h.ge, h.lt, .synced h.syn h.inv⟩
  | true =>
    obtain ⟨h1, h2⟩ := hfin hr
    obtain ⟨h3, h4⟩ := h.fin hr
    obtain ⟨st, hst, he⟩ := doFin_rcvSide h1 h2
    rw [he]
    obtain ⟨a, ha, ha0, ha1, ha2⟩ := h.inv.adv
    have hstart := h.inv.start
    have hlate := L.later r.1.rcvSide.soRcv n (n + 1) (by omega)
    have hcc := h.inv.cc
    have hedge := h.inv.edge
    have hsyn : st.haveRcvdSyn = true ∧ st ≠ .synReceived := by
      revert hst
      cases st <;> decide
    have hge := h.ge
    refine ⟨n + 1, by omega, h4, .synced hsyn.1 ?_⟩
    exact
      { start := by omega
        nxt := h.inv.nxt.addNat 1
        adv := ⟨a, ha, ha0, by omega, by dsimp only; omega⟩
        hiwat := h.inv.hiwat
        cc := by dsimp only; omega
        edge := by dsimp only; omega
        log := fun hc => by cases hc
        syn := fun hs => absurd hs hsyn.2
        queue := fun hf => by
          have hf' : st.haveRcvdFin = false := hf
          rw [hst] at hf'
          cases hf'
        fin := fun _ => ⟨rfl, by rwa [Int.add_sub_cancel]⟩ }

end TnNet
