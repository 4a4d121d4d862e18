import TnNet.Tcp.RecvInv

/-!
# Steps and runs of the receiving side

`SegIn` says what an arriving segment has to satisfy: its bytes agree with the stream at their
sequence numbers, and these lie so close to `rcv_nxt` that the comparisons are exact.  Under this
condition every event keeps `RcvState`, and moves `rcv_nxt` forward only.

`posMachine` is the connection with the position of `rcv_nxt` as a ghost: the sum of the signed
steps of `rcv_nxt - (irs + 1)`.
-/

set_option autoImplicit false

namespace TnNet

open SeqArith ByteStream

/-- A segment that arrives on a synchronized connection with `rcv_nxt` at `n`. -/
structure SegIn (S : Peer) (L : Limit) (c : Conn) (n : Int) (s : Seg) : Prop where
  arrives : Arrives S s (n + textOff c s)
  exact : textOff c s + s.tlen < 2147483648 + inputRcvWnd c
  near : textOff c s + s.tlen + s.th.thFlags.fin.toNat < 2147483648 ∨
    inputRcvWnd c + 1 < 2147483648
  cut : s.th.thFlags.fin = true → max 0 (textOff c s) < inputRcvWnd c →
    inputRcvWnd c < textOff c s + s.tlen → S.fin (n + inputRcvWnd c)
  top : ∀ z, z ≤ n + inputRcvWnd c → z ≤ n + textOff c s + s.tlen → z ≤ L.top c.so.soRcv n

/-- The SYN of the peer: its data begins at position `0`. -/
structure SynIn (S : Peer) (L : Limit) (c : Conn) (s : Seg) : Prop where
  arrives : Arrives S s 0
  cut : s.th.thFlags.fin = true → 0 < inputRcvWnd c → inputRcvWnd c < s.tlen →
    S.fin (inputRcvWnd c)
  top : ∀ z, z ≤ inputRcvWnd c → z ≤ s.tlen → z ≤ L.top c.so.soRcv 0

/-- The condition on a segment in every state. -/
structure SegOk (S : Peer) (L : Limit) (c : Conn) (n : Int) (s : Seg) : Prop where
  syn : c.tp.tState = .listen ∨ c.tp.tState = .synSent → s.th.thFlags.syn = true → SynIn S L c s
  seg : c.tp.tState.haveRcvdSyn = true → SegIn S L c n s

variable {S : Peer} {L : Limit} {n : Int}

/-! ## Arrival -/

/-- The end of the rest of a segment, with its FIN. -/
theorem Fits.fin_le {b : BitVec 32} {s : Seg} {off wnd p : Int} {y : InSt}
    (h : Fits S b s n off wnd y p) :
    p + y.tlen + y.th.thFlags.fin.toNat ≤ n + wnd + 1 ∧
      p + y.tlen + y.th.thFlags.fin.toNat ≤ n + off + s.tlen + s.th.thFlags.fin.toNat := by
  have h1 := h.inside
  have h2 := h.part
  have h3 : s.th.thFlags.fin.toNat ≤ 1 := Bool.toNat_le _
  rw [h.flags]
  omega

/-- **A segment in a synchronized state**, other than `SYN_RECEIVED`. -/
theorem ready_other {e : InEnv} {s : Seg} {c : Conn} {x : InSt} (h : RcvInv S L c.rcvSide n)
    (hs : SegIn S L c n s) (hch : Checked (inputSetup e s c) x)
    (hv : x.conn.rcvSide = c.rcvSide) (hsyn : x.tp.tState.haveRcvdSyn = true)
    (hne : x.tp.tState ≠ .synReceived) : Ready S L n x n := by
  have h0 := h.start
  have hirs : x.tp.irs = c.tp.irs := congrArg RcvSide.irs hv
  refine ⟨hsyn, hv.symm ▸ h, le_refl n, by omega, fun hf => ?_⟩
  have hst : x.tp.tState = c.tp.tState := congrArg RcvSide.tState hv
  rw [hst] at hf hne
  obtain ⟨lo, hi, hq⟩ := h.queue hf
  have hnosyn : ∀ {P : Prop}, c.rcvSide.tState = .synReceived → P := fun hs => absurd hs hne
  have htext := fun ht => checked_text (b := c.tp.irs + 1) hch h.nxt hs.arrives hs.exact hs.cut ht
  have hle := hq.le_hi
  have hlim : rcvLimit = 233017 := rfl
  rcases hq.span with ⟨hlo, hh⟩ | ⟨hlo, hn, hh⟩
  · refine ⟨lo, n + 2147483647, ?_, by omega, fun ht => ?_⟩
    · rw [hv]
      exact ⟨.inl ⟨hlo, le_refl _⟩, hnosyn, by omega,
        hq.queued.mono hh (le_refl _) (by omega)⟩
    · obtain ⟨p, hp⟩ := htext ht
      obtain ⟨h1, h2⟩ := hp.fin_le
      refine ⟨p, by rw [hlo]; exact hp.start, hirs ▸ hp.text, hp.len, ?_, ?_⟩
      · have := hs.top _ hp.inside hp.part
        have hsb : x.so.soRcv = c.so.soRcv := congrArg RcvSide.soRcv hv
        rwa [hsb]
      · rcases hs.near with hn | hn <;> omega
  · have hw := h.wnd_le hn
    refine ⟨lo, 2 * rcvLimit, ?_, by omega, fun ht => ?_⟩
    · rw [hv]
      exact ⟨.inr ⟨hlo, hn, le_refl _⟩, hnosyn, by omega,
        hq.queued.mono hh (le_refl _) (by omega)⟩
    · obtain ⟨p, hp⟩ := htext ht
      obtain ⟨h1, h2⟩ := hp.fin_le
      have := hp.start
      refine ⟨p, by omega, hirs ▸ hp.text, hp.len, ?_, by omega⟩
      have := hs.top _ hp.inside hp.part
      have hsb : x.so.soRcv = c.so.soRcv := congrArg RcvSide.soRcv hv
      rwa [hsb]

/-- **The segment that acknowledges our SYN.**  It has been trimmed before the queue is
    delivered. -/
theorem ready_synReceived {e : InEnv} {s : Seg} {c : Conn} {x : InSt} (h : RcvInv S L c.rcvSide n)
    (hs : SegIn S L c n s) (hch : Checked (inputSetup e s c) x)
    (hv : x.conn.rcvSide = c.rcvSide) (hst : x.tp.tState = .synReceived) :
    ∃ n', Ready S L n { x with conn := synReceivedConn x } n' := by
  have hcs : c.rcvSide.tState = .synReceived := by rw [← hv]; exact hst
  have hn := h.syn hcs
  subst hn
  have hnf : c.rcvSide.tState.haveRcvdFin = false := by rw [hcs]; rfl
  obtain ⟨lo, hi, hq⟩ := h.queue hnf
  obtain ⟨hlo, hhi⟩ := hq.syn hcs
  subst hlo
  have hlim : rcvLimit = 233017 := rfl
  -- the state is ESTABLISHED when the queue is delivered
  have he : Conn.rcvSide ⟨{ x.tp with tState := .established }, soisconnected x.so⟩ =
      { c.rcvSide with tState := .established } := by
    rw [← hv]
    rfl
  have hinv : RcvInv S L { c.rcvSide with tState := .established } 0 :=
    h.setState (by rw [hcs]; rfl) (fun hh => by cases hh)
  have hq' : QueueInv S L { c.rcvSide with tState := .established } 0 0 hi :=
    ⟨hq.span, fun hh => (by cases hh), hq.le_hi, hq.queued⟩
  have hl := hq'.lined hinv
  rw [← he] at hl
  obtain ⟨n', hd⟩ := tcpPresent_done hl
  rw [← synReceivedConn_rcvSide, he] at hd
  obtain ⟨hinv', lo', hq''⟩ := hinv.done hq' hd (fun hh => by cases hh) rfl
  have hn0 := hinv'.start
  have hn' : n' ≤ hi := hd.le_top.trans (min_le_left _ _)
  have hest : (synReceivedConn x).rcvSide.tState = .established := hd.tState
  have hirs : (synReceivedConn x).rcvSide.irs = c.tp.irs := hd.irs
  have htop : L.top c.so.soRcv 0 ≤ L.top (synReceivedConn x).so.soRcv n' := hd.grown.top_le
  have hwnd := h.wnd_le (by omega)
  refine ⟨n', ?_, hinv', hn0, by omega, fun _ => ⟨0, 2 * rcvLimit, ?_, by omega, fun ht => ?_⟩⟩
  · show (synReceivedConn x).rcvSide.tState.haveRcvdSyn = true
    rw [hest]
    rfl
  · refine ⟨.inr ⟨rfl, by omega, le_refl _⟩, fun hh => ?_, by omega, ?_⟩
    · rw [show Conn.rcvSide _ = (synReceivedConn x).rcvSide from rfl, hest] at hh
      cases hh
    · exact hq''.queued.mono (by omega) (hq''.lo_nonneg hn0) (by dsimp only; omega)
  · have ht' : x.HasText := ht
    obtain ⟨p, hp⟩ := checked_text (b := c.tp.irs + 1) hch h.nxt hs.arrives hs.exact hs.cut ht'
    obtain ⟨h1, -⟩ := hp.fin_le
    have htxt : x.TextAt S ((synReceivedConn x).rcvSide.irs + 1) p := hirs.symm ▸ hp.text
    exact ⟨p, hp.start, htxt, hp.len, (hs.top _ hp.inside hp.part).trans htop, by dsimp only; omega⟩

/-- **The SYN of the peer.** -/
theorem ready_syn {e : InEnv} {s : Seg} {c c' : Conn} {st : TcpState} (h : Unsynced L c.rcvSide)
    (hs : SynIn S L c s) (hst : st = .established ∨ st = .synReceived)
    (hv : c'.rcvSide = c.rcvSide.synced s.th.thSeq st)
    (hw : c'.tp.rcvWnd = BitVec.ofInt 32 (inputRcvWnd c)) :
    Ready S L (-1) (trimThenStep6 { inputSetup e s c with conn := c' }) 0 := by
  have hv' := (trimThenStep6_rcvSide { inputSetup e s c with conn := c' }).trans hv
  have hwb := inputRcvWnd_bounds c
  have hwnd := h.wnd_le
  have hlim : rcvLimit = 233017 := rfl
  have hcc : c.rcvSide.soRcv.sbCc = 0 := by simp [Sockbuf.sbCc, h.data]
  have hfin : st.haveRcvdFin = false := by rcases hst with rfl | rfl <;> rfl
  have hq : QueueInv S L (c.rcvSide.synced s.th.thSeq st) 0 0 rcvLimit := by
    refine ⟨.inl ⟨rfl, by omega⟩, fun _ => ⟨rfl, le_refl _⟩, by omega, ?_⟩
    show Queued S _ _ _ _ c.rcvSide.tSegq
    rw [h.segq]
    have hb : 0 ≤ L.top c.rcvSide.soRcv 0 := L.base _ h.data
    show (0 : Int) ≤ min rcvLimit (L.top c.rcvSide.soRcv 0)
    omega
  have hinv : RcvInv S L (c.rcvSide.synced s.th.thSeq st) 0 :=
    { start := le_refl 0
      nxt := At.base _
      adv := ⟨0, At.base _, le_refl 0, by omega, L.base _ h.data⟩
      hiwat := h.hiwat
      cc := by
        show ((c.rcvSide.soRcv.sbCc : Nat) : Int) ≤ 0
        omega
      edge := L.base _ h.data
      log := fun _ => by
        show Agrees S.data 0 c.rcvSide.soRcv.sbLog ∧ ((c.rcvSide.soRcv.sbLog.length : Nat) : Int) = 0
        rw [h.log]
        exact ⟨trivial, rfl⟩
      syn := fun _ => rfl
      queue := fun _ => ⟨0, rcvLimit, hq⟩
      fin := fun hf => by
        have hf' : st.haveRcvdFin = true := hf
        rw [hfin] at hf'
        cases hf' }
  have hst' : (trimThenStep6 { inputSetup e s c with conn := c' }).tp.tState = st :=
    congrArg RcvSide.tState hv'
  refine ⟨?_, hv'.symm ▸ hinv, by omega, by omega, fun _ => ⟨0, rcvLimit, hv'.symm ▸ hq, by omega,
    fun ht => ?_⟩⟩
  · rw [hst']
    rcases hst with rfl | rfl <;> rfl
  · obtain ⟨p, hp⟩ := trimThenStep6_text (S := S) (s := s) (x := { inputSetup e s c with conn := c' })
      rfl rfl rfl rfl (by
        show c'.tp.rcvWnd.toInt = _
        rw [hw, BitVec.toInt_ofInt, Int.bmod_eq_of_le_mul_two (by omega) (by omega)])
      hwb.1 hs.arrives hs.cut ht
    obtain ⟨h1, -⟩ := hp.fin_le
    have hirs : (trimThenStep6 { inputSetup e s c with conn := c' }).tp.irs = s.th.thSeq :=
      congrArg RcvSide.irs hv'
    have hsb : (trimThenStep6 { inputSetup e s c with conn := c' }).so.soRcv = c.so.soRcv :=
      congrArg RcvSide.soRcv hv'
    have hin := hp.inside
    have hpart := hp.part
    refine ⟨p, hp.start, hirs.symm ▸ hp.text, hp.len, ?_, by omega⟩
    rw [hsb]
    exact hs.top _ (by omega) (by omega)

/-! ## The other calls -/

/-- A change of the buffer and of `SS_CANTRCVMORE`. -/
theorem RcvState.change {v : RcvSide} (h : RcvState S L v n) {cant : Bool} {sb : Sockbuf}
    (hcant : cant = false → v.ssCantrcvmore = false) (hw : sb.sbHiwat ≤ sbreserveMax)
    (hcc : sb.sbCc ≤ v.soRcv.sbCc) (hlog : sb.sbLog = v.soRcv.sbLog)
    (htop : ∀ m, L.top v.soRcv m ≤ L.top sb m) :
    RcvState S L { v with ssCantrcvmore := cant, soRcv := sb } n := by
  cases h with
  | closed h hn => exact .closed h hn
  | unsynced hs h hn =>
    obtain ⟨w, h1, h2, h3, h4⟩ := h.adv
    refine .unsynced hs ⟨h.segq, h.nxt, ⟨w, h1, h2, h3.trans (htop 0), h4⟩, hw, ?_, ?_⟩ hn
    · have hd : v.soRcv.sbCc = 0 := by simp [Sockbuf.sbCc, h.data]
      have h0 : sb.sbData.length = 0 := by
        unfold Sockbuf.sbCc at hcc hd
        omega
      exact List.eq_nil_of_length_eq_zero h0
    · exact hlog.trans h.log
  | synced hs h =>
    exact .synced hs (h.change rfl id hcant hw hcc hlog (htop n))

theorem RcvState.hiwat {v : RcvSide} (h : RcvState S L v n) (hc : v.tState ≠ .closed) :
    v.soRcv.sbHiwat ≤ sbreserveMax := by
  cases h with
  | closed h => exact absurd h hc
  | unsynced _ h => exact h.hiwat
  | synced _ h => exact h.hiwat

theorem RcvState.shut {v : RcvSide} (h : RcvState S L v n) :
    RcvState S L { v with ssCantrcvmore := true } n := by
  by_cases hc : v.tState = .closed
  · exact .closed hc h.rel
  · exact h.change (by simp) (h.hiwat hc) (le_refl _) rfl fun _ => le_refl _

theorem RcvState.drop {v : RcvSide} (h : RcvState S L v n) (k : Nat) :
    RcvState S L { v with soRcv := sbdrop v.soRcv k } n := by
  by_cases hc : v.tState = .closed
  · exact .closed hc h.rel
  · refine h.change id (h.hiwat hc) ?_ rfl fun m => L.drop v.soRcv m k
    simp [Sockbuf.sbCc, sbdrop]

/-- The invariant of an event that begins with `rcv_nxt` at `n`. -/
def RcvP (S : Peer) (L : Limit) (n : Int) (c : Conn) : Prop :=
  ∃ n', n ≤ n' ∧ n' < n + 2147483648 ∧ RcvState S L c.rcvSide n'

theorem RcvP.of {c : Conn} (h : RcvState S L c.rcvSide n) : RcvP S L n c :=
  ⟨n, le_refl n, by omega, h⟩

theorem RcvP.congr {c c' : Conn} (h : RcvP S L n c) (hv : c'.rcvSide = c.rcvSide) :
    RcvP S L n c' := by
  obtain ⟨n', h1, h2, h3⟩ := h
  exact ⟨n', h1, h2, hv ▸ h3⟩

theorem RcvP.map {c c' : Conn} (h : RcvP S L n c)
    (hf : ∀ m, RcvState S L c.rcvSide m → RcvState S L c'.rcvSide m) : RcvP S L n c' := by
  obtain ⟨n', h1, h2, h3⟩ := h
  exact ⟨n', h1, h2, hf n' h3⟩

theorem rcvP_stable : Stable (RcvP S L n) where
  core h hc := h.congr (rcvSide_core hc)
  output env _ h := h.map fun _ hm => hm.output env
  options syn mtu opt c h := h.congr (rcvSide_options syn mtu opt c)
  drop _ h := h.map fun _ hm => .closed rfl hm.rel

theorem rcvP_user : UserInv (RcvP S L n) where
  tickRexmt _ h := h.congr rfl
  rexmt _ h _ := h.congr rfl
  tickPersist _ h := h.congr rfl
  persist _ h _ := h.congr rfl
  sbdrop _ k h := h.map fun _ hm => hm.drop k
  cantsendmore _ h := h.congr rfl
  disconnecting _ h := h.map fun _ hm => hm.shut
  disconnected _ h := h.map fun _ hm => hm.shut
  usrclosed c h _ hc := by
    refine h.map fun m hm => ?_
    cases hm with
    | closed hs => exact absurd (by rw [show c.tp.tState = .closed from hs]; rfl) hc
    | unsynced hs =>
      refine absurd ?_ hc
      rcases hs with hs | hs <;> rw [show c.tp.tState = _ from hs] <;> rfl
    | synced hs hi =>
      have hs' : c.tp.tState.haveRcvdSyn = true := hs
      have hst : (usrclosedState c.tp.tState).haveRcvdFin = c.tp.tState.haveRcvdFin ∧
          (usrclosedState c.tp.tState).haveRcvdSyn = true ∧
          usrclosedState c.tp.tState ≠ .synReceived := by
        revert hs'
        cases c.tp.tState <;> decide
      exact .synced hst.2.1 (hi.setState hst.1 fun hh => absurd hh hst.2.2)
  sndbuf _ _ h := h.congr rfl

/-! ## `tcp_input` -/

theorem Ready.rcvP {n0 : Int} {x : InSt} (h : Ready S L n0 x n) : RcvP S L n0 x.conn :=
  ⟨n, h.ge, h.lt, .synced h.syn h.inv⟩

/-- The state changes behind an ACK leave the text alone. -/
theorem Ready.ackMove {n0 : Int} {x : InSt} {c : Conn} (h : Ready S L n0 x n) (b : Bool)
    (hm : AckMove x.conn.rcvSide c.rcvSide) :
    Ready S L n0 { x with conn := c, needoutput := b } n := by
  have hkey : ∀ (st : TcpState) (cant : Bool), st.haveRcvdSyn = true →
      st.haveRcvdFin = x.tp.tState.haveRcvdFin →
      (st = .synReceived → x.tp.tState = .synReceived) →
      (cant = false → x.conn.rcvSide.ssCantrcvmore = false) →
      c.rcvSide = { x.conn.rcvSide with tState := st, ssCantrcvmore := cant } →
      Ready S L n0 { x with conn := c, needoutput := b } n := by
    intro st cant h1 h2 h3 h4 he
    have hst : c.tp.tState = st := congrArg RcvSide.tState he
    have hsb : c.so.soRcv = x.so.soRcv := congrArg RcvSide.soRcv he
    have hirs : c.tp.irs = x.tp.irs := congrArg RcvSide.irs he
    refine ⟨by rw [← hst] at h1; exact h1, ?_, h.ge, h.lt, fun hf => ?_⟩
    · rw [show Conn.rcvSide _ = c.rcvSide from rfl, he]
      exact h.inv.change h2 h3 h4 h.inv.hiwat (le_refl _) rfl (le_refl _)
    · have hf' : x.tp.tState.haveRcvdFin = false := by
        rw [← h2, ← hst]
        exact hf
      obtain ⟨lo, hi, hq, hlt, ht⟩ := h.text hf'
      refine ⟨lo, hi, ?_, hlt, fun hx => ?_⟩
      · rw [show Conn.rcvSide _ = c.rcvSide from rfl, he]
        exact ⟨hq.span, fun hh => hq.syn (h3 hh), hq.le_hi, hq.queued⟩
      · obtain ⟨p, g1, g2, g3, g4, g5⟩ := ht hx
        refine ⟨p, g1, ?_, g3, ?_, g5⟩
        · rw [show InSt.tp _ = c.tp from rfl, hirs]
          exact g2
        · rw [show InSt.so _ = c.so from rfl, hsb]
          exact g4
  generalize hw : c.rcvSide = w at hm
  cases hm with
  | same => exact hkey x.tp.tState x.so.ssCantrcvmore h.syn rfl id id hw
  | finWait2 hs =>
    have hs' : x.tp.tState = .finWait1 := hs
    exact hkey .finWait2 x.so.ssCantrcvmore rfl (by rw [hs']; rfl) (by simp) id hw
  | timeWait hs =>
    have hs' : x.tp.tState = .closing := hs
    exact hkey .timeWait true rfl (by rw [hs']; rfl) (by simp) (by simp) hw

theorem listenConn_rcvWnd (e : InEnv) (s : Seg) (x : InSt) :
    (listenConn e s x).tp.rcvWnd = x.tp.rcvWnd := by
  have h := field_of_kept Tcpcb.rcvWnd (tcpDooptions_kept s.th.thFlags.syn e.ifMtu s.opt
    { x.tp with tTemplate := true }) fun _ => rfl
  exact h

theorem synSentConn_rcvWnd (x : InSt) : (synSentConn x).tp.rcvWnd = x.tp.rcvWnd := by
  have hu : (synSentUna x).rcvWnd = x.tp.rcvWnd := by
    unfold synSentUna
    split <;> rfl
  unfold synSentConn
  dsimp only
  split
  · have hp : ∀ c : Conn, (tcpPresent c).1.tp.rcvWnd = c.tp.rcvWnd := fun c =>
      field_of_kept (fun c : Conn => c.tp.rcvWnd) (tcpPresent_kept c) fun _ => rfl
    split
    · have hx := fun tp rtt =>
        field_of_kept Tcpcb.rcvWnd (tcpXmitTimer_kept tp rtt) fun _ => rfl
      rw [hx, hp]
      exact hu
    · rw [hp]
      exact hu
  · exact hu

/-- **The receiving side through `tcp_input`.** -/
theorem rcv_input (e : InEnv) {s : Seg} {c : Conn} (h : RcvState S L c.rcvSide n)
    (hs : SegOk S L c n s) :
    InputInv (RcvP S L n) (fun x => x.conn.rcvSide = c.rcvSide ∧ c.tp.tState ≠ .closed)
      (fun x => ∃ m, Ready S L n x m) (fun x => ∃ m, Ready S L n x m) e s c where
  conn _ hx := (RcvP.of h).congr hx.1
  setup hc := ⟨inputSetup_rcvSide e s c, hc⟩
  checks y hx _ _ hch :=
    ⟨(rcvSide_core (hch.trim.core.trans (leftTrim_core _))).trans hx.1, hx.2⟩
  listen x hx hxe hst _ hfl := by
    subst hxe
    obtain ⟨hu, rfl⟩ : Unsynced L c.rcvSide ∧ n = -1 := by
      cases h with
      | closed h => exact absurd h hx.2
      | unsynced _ h hn => exact ⟨h, hn⟩
      | synced hs' =>
        rw [show c.rcvSide.tState = .listen from hst] at hs'
        cases hs'
    refine ⟨0, ready_syn hu (hs.syn (.inl hst) hfl) (.inr rfl) ?_ ?_⟩
    · rw [listenConn_rcvSide, hx.1]
      rfl
    · rw [listenConn_rcvWnd]
      rfl
  synSent x hx hxe hst _ hfl := by
    subst hxe
    obtain ⟨hu, rfl⟩ : Unsynced L c.rcvSide ∧ n = -1 := by
      cases h with
      | closed h => exact absurd h hx.2
      | unsynced _ h hn => exact ⟨h, hn⟩
      | synced hs' =>
        rw [show c.rcvSide.tState = .synSent from hst] at hs'
        cases hs'
    have hq : (inputSetup e s c).tp.tSegq = [] := (congrArg RcvSide.tSegq hx.1).trans hu.segq
    obtain ⟨st, hst', hv⟩ := synSentConn_rcvSide hq
    refine ⟨0, ready_syn hu (hs.syn (.inr hst) hfl) hst' ?_ ?_⟩
    · rw [hv, hx.1]
      rfl
    · rw [synSentConn_rcvWnd]
      rfl
  synReceived x hx hch _ hst _ _ := by
    have hcs : c.tp.tState = .synReceived := (congrArg RcvSide.tState hx.1).symm.trans hst
    have hsyn : c.tp.tState.haveRcvdSyn = true := by rw [hcs]; rfl
    cases h with
    | closed h => exact absurd h hx.2
    | unsynced hu => rcases hu with hu | hu <;> exact absurd (hcs.symm.trans hu) (by decide)
    | synced _ h => exact ready_synReceived h (hs.seg hsyn) hch hx.1 hst
  other x hx hch h1 h2 h3 := by
    have hcs : x.tp.tState = c.tp.tState := congrArg RcvSide.tState hx.1
    cases h with
    | closed h => exact absurd h hx.2
    | unsynced hu =>
      rcases hu with hu | hu
      · exact absurd (hcs.trans hu) h1
      · exact absurd (hcs.trans hu) h2
    | synced hsyn h =>
      refine ⟨n, ready_other h (hs.seg hsyn) hch hx.1 ?_ h3⟩
      rw [hcs]
      exact hsyn
  dup _ hx _ := hx
  beyond _ hx _ := hx.elim fun _ hm => hm.rcvP
  connT _ hx := hx.elim fun _ hm => hm.rcvP
  dupacks x k hx := by
    obtain ⟨m, hm⟩ := hx
    exact ⟨m, hm.syn, hm.inv, hm.ge, hm.lt, hm.text⟩
  fastRexmt x hx _ := by
    obtain ⟨m, hm⟩ := hx
    have h1 : RcvP S L n { x.conn with tp := fastRexmtTp x } := hm.rcvP.congr rfl
    exact ⟨h1, (rcvP_stable.output e.out _ h1).congr rfl⟩
  ackNew x b hx _ _ _ _ _ := by
    obtain ⟨m, hm⟩ := hx
    refine ⟨m, hm.ackMove b ?_⟩
    have := ackedConn_rcvSide (ourfinisacked x) (ackConn x)
    rwa [ackConn_rcvSide] at this
  tail x hx _ := by
    obtain ⟨m, hm⟩ := hx
    obtain ⟨m', hd⟩ := hm.data e
    refine hd.doFin fun hf => ?_
    have hst : (doData e (step6 x)).1.tp.tState = (step6 x).tp.tState :=
      field_of_kept (fun c : Conn => c.tp.tState) (doData_kept e (step6 x)) fun _ => rfl
    rw [hst]
    exact doData_fin hf

/-- **Every event keeps the receiving side** and moves `rcv_nxt` forward. -/
theorem rcv_step {c : Conn} {ev : Event} (h : RcvState S L c.rcvSide n)
    (hin : ∀ e s, ev = .input e s → SegOk S L c n s)
    (hflush : ∀ wr env, ev = .shutdown true wr env →
      ∀ m, L.top c.so.soRcv m ≤ L.top { sbLog := c.so.soRcv.sbLog } m)
    (hbuf : ∀ k, ev = .sockopt (.rcvbuf k) →
      ∀ m, L.top c.so.soRcv m ≤ L.top (sbreserve c.so.soRcv k) m) :
    (connStep c ev).Ok (RcvP S L n) := by
  refine connStep_ok rcvP_stable rcvP_user (RcvP.of h) (fun e s he => ?_)
    (fun data _ _ _ _ => (RcvP.of h).congr rfl) (fun wr env he => ?_) (fun k he => ?_)
  · exact tcpInput_ok rcvP_stable (rcv_input e h (hin e s he)) (RcvP.of h)
  · exact RcvP.of (h.change (fun hh => by cases hh) (Nat.zero_le _) (Nat.zero_le _) rfl
      (hflush wr env he))
  · by_cases hc : c.tp.tState = .closed
    · exact RcvP.of (.closed hc h.rel)
    · refine RcvP.of (h.change id ?_ ?_ ?_ (hbuf k he))
      · unfold sbreserve
        split
        · exact h.hiwat hc
        · dsimp only
          omega
      · unfold sbreserve
        split
        · exact le_refl _
        · exact le_refl _
      · unfold sbreserve
        split <;> rfl

/-! ## Runs -/

/-- A connection with the position of `rcv_nxt`: each event adds the signed step of
    `rcv_nxt - (irs + 1)`. -/
def posMachine : Machine.Step (Conn × Int) Event OutCall := fun p ev =>
  ((connStep p.1 ev).next.map fun c => (c, p.2 + sdist c.rcvSide.rel p.1.rcvSide.rel),
    (connStep p.1 ev).calls)

theorem posMachine_next {p q : Conn × Int} {ev : Event} (h : (posMachine p ev).1 = some q) :
    (connStep p.1 ev).next = some q.1 ∧ q.2 = p.2 + sdist q.1.rcvSide.rel p.1.rcvSide.rel := by
  simp only [posMachine, Option.map_eq_some_iff] at h
  obtain ⟨c, hc, rfl⟩ := h
  exact ⟨hc, rfl⟩

/-- The signed step of `rcv_nxt - (irs + 1)` is the step of its position. -/
theorem RcvState.sdist_rel {v v' : RcvSide} {n' : Int} (h : RcvState S L v n)
    (h' : RcvState S L v' n') (hle : n ≤ n') (hlt : n' < n + 2147483648) :
    sdist v'.rel v.rel = n' - n := by
  have hat : ∀ m : Int, At (0 : BitVec 32) (BitVec.ofInt 32 m) m := fun m => by simp [At]
  rw [h.rel, h'.rel]
  exact (hat n').sdist (hat n) (by omega) (by omega)

/-- The ghost is the position of the invariant. -/
theorem RcvP.pos {c c' : Conn} (h : RcvState S L c.rcvSide n) (h' : RcvP S L n c') :
    RcvState S L c'.rcvSide (n + sdist c'.rcvSide.rel c.rcvSide.rel) ∧
      n ≤ n + sdist c'.rcvSide.rel c.rcvSide.rel := by
  obtain ⟨n', h1, h2, h3⟩ := h'
  rw [h.sdist_rel h3 h1 h2, show n + (n' - n) = n' by omega]
  exact ⟨h3, h1⟩

/-- The receiving side where a connection starts. -/
theorem rcvState_start {c : Conn} (h : Start c) : RcvState S L c.rcvSide (-1) := by
  cases h with
  | active iss so h =>
    refine .unsynced (.inr rfl) ⟨rfl, rfl, ⟨0, le_refl 0, by omega, L.base _ h.rcv_data, rfl⟩,
      h.rcv_hiwat, h.rcv_data, h.rcv_log⟩ rfl
  | passive so h =>
    refine .unsynced (.inl rfl) ⟨rfl, rfl, ⟨0, le_refl 0, by omega, L.base _ h.rcv_data, rfl⟩,
      h.rcv_hiwat, h.rcv_data, h.rcv_log⟩ rfl

/-- **Rule for runs.** -/
theorem pos_run {cond : Conn × Int → Event → Prop}
    (hstep : ∀ c m ev, RcvState S L c.rcvSide m → cond (c, m) ev →
      (connStep c ev).Ok (RcvP S L m))
    {p q : Conn × Int} {es : List Event} (h : RcvState S L p.1.rcvSide p.2)
    (hg : Machine.Guarded posMachine cond (some p) es)
    (hr : (Machine.run posMachine (some p) es).1 = some q) :
    RcvState S L q.1.rcvSide q.2 ∧ p.2 ≤ q.2 := by
  refine (Machine.run_invariant (fun q => RcvState S L q.1.rcvSide q.2 ∧ p.2 ≤ q.2)
    (fun _ => True) ?_ (fun q hq => ?_) hg).1 q hr
  · rintro ⟨c, m⟩ ev ⟨hm, hle⟩ hc
    refine ⟨fun q hq => ?_, fun _ _ => trivial⟩
    obtain ⟨hn, hp⟩ := posMachine_next hq
    obtain ⟨h1, h2⟩ := RcvP.pos hm ((hstep c m ev hm hc).next hn)
    rw [hp]
    exact ⟨h1, hle.trans h2⟩
  · cases hq
    exact ⟨h, le_refl _⟩

end TnNet
