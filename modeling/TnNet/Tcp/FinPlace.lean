import TnNet.Tcp.RecvStream

/-!
# The place of the FIN

The peer sends `N` bytes of a stream `f` and then a FIN.  `finConn` is the connection on which
`tcp_input` executes the FIN step (`socantrcvmore`, `rcv_nxt++`).

The right trim takes the FIN off `tiflags`, but the in-order path and `tcp_reass` read the FIN of
`th_flags`.  A FIN segment that the right edge of the window cuts is therefore taken as if its FIN
stood behind the bytes that are kept (`cutsFin`).

Principal result: `fin_in_place`.  In a run without such a segment the FIN step is executed only
when `rcv_nxt` is at the FIN, behind all `N` bytes.
-/

set_option autoImplicit false

namespace TnNet

open SeqArith ByteStream

/-- The connection on which `tcp_input` executes the FIN step. -/
def finConn (e : InEnv) (s : Seg) (c : Conn) : Option Conn :=
  if c.tp.tState = .closed then none
  else
    match inputHead e s (inputSetup e s c) with
    | .error _ => none
    | .ok x =>
      let r := doData e (step6 x)
      if r.2 && !r.1.tp.tState.haveRcvdFin then some r.1 else none

/-- A FIN segment begins inside the window and has data behind it. -/
def cutsFin (c : Conn) (s : Seg) : Bool :=
  s.th.thFlags.fin && decide (max 0 (segOff c s) < inputRcvWnd c) &&
    decide (inputRcvWnd c < segOff c s + s.tlen)

/-- The segments of a peer that sends `N` bytes of `f` and a FIN. -/
def FinAt (f : Nat → UInt8) (N : Nat) (p : Conn × Int) (ev : Event) : Prop :=
  FromStream f p ev ∧
    match ev with
    | .input _ s => segPlaced p.1 s → s.th.thFlags.fin = true → segPos p.1 p.2 s + s.tlen = N
    | _ => True

/-- No FIN segment is cut by the right edge of the window. -/
def FinWhole (f : Nat → UInt8) (N : Nat) (p : Conn × Int) (ev : Event) : Prop :=
  FinAt f N p ev ∧
    match ev with
    | .input _ s => cutsFin p.1 s = false
    | _ => True

/-- The stream `f` with its FIN at position `N`. -/
def finPeer (f : Nat → UInt8) (N : Nat) : Peer := ⟨ofFun f, fun p => p = N⟩

theorem finWhole_segOk {f : Nat → UInt8} {N : Nat} {c : Conn} {n : Int} {e : InEnv} {s : Seg}
    (h : FinWhole f N (c, n) (.input e s)) : SegOk (finPeer f N) farLimit c n s := by
  obtain ⟨⟨h1, h2⟩, h3⟩ := h
  have h3' : cutsFin c s = false := h3
  refine segOk_far (fun hp => (h1 hp).1) (fun hp => ⟨agrees_ofFun (h1 hp).2, h2 hp⟩)
    fun _ hf hw hl => ?_
  unfold cutsFin at h3'
  rw [hf, decide_eq_true hw, decide_eq_true hl] at h3'
  cases h3'

theorem finWhole_step {f : Nat → UInt8} {N : Nat} (c : Conn) (n : Int) (ev : Event)
    (h : RcvState (finPeer f N) farLimit c.rcvSide n) (hg : FinWhole f N (c, n) ev) :
    (connStep c ev).Ok (RcvP (finPeer f N) farLimit n) := by
  refine rcv_step h (fun e s he => ?_) (fun _ _ _ _ => le_refl _) (fun _ _ _ => le_refl _)
  rw [he] at hg
  exact finWhole_segOk hg

/-- The connection in front of the FIN step has all the text of the segment. -/
theorem finConn_texted {S : Peer} {L : Limit} {e : InEnv} {s : Seg} {c c₁ : Conn} {n : Int}
    (h : RcvState S L c.rcvSide n) (hs : SegOk S L c n s) (hf : finConn e s c = some c₁) :
    ∃ n', n ≤ n' ∧ n' < n + 2147483648 ∧ c₁.tp.tState.haveRcvdSyn = true ∧
      RcvInv S L c₁.rcvSide n' ∧ S.fin n' := by
  unfold finConn at hf
  split at hf
  · cases hf
  · rename_i hcl
    have hI := rcv_input e h hs
    have hT := inputHead_ok rcvP_stable hI (hI.setup hcl)
    revert hf hT
    cases inputHead e s (inputSetup e s c) with
    | error r =>
      intro hf
      cases hf
    | ok x =>
      rintro hf ⟨m, hm⟩
      obtain ⟨n', hd⟩ := hm.data e
      dsimp only at hf
      split at hf
      · rename_i hfin
        simp only [Bool.and_eq_true] at hfin
        cases hf
        exact ⟨n', hd.ge, hd.lt, hd.syn, hd.inv, (hd.fin hfin.1).1⟩
      · cases hf

/-- **The FIN is accepted in its place.** -/
theorem fin_in_place (f : Nat → UInt8) (N : Nat) {c₀ c : Conn} {es : List Event} {n : Int}
    (hs : Start c₀) (hg : Machine.Guarded posMachine (FinWhole f N) (some (c₀, -1)) es)
    (hr : (Machine.run posMachine (some (c₀, -1)) es).1 = some (c, n)) :
    (c.tp.tState.haveRcvdFin = true → n = N + 1) ∧
      ∀ e s c₁, FinWhole f N (c, n) (.input e s) → finConn e s c = some c₁ →
        n + sdist c₁.rcvSide.rel c.rcvSide.rel = N ∧
        c₁.tp.rcvNxt = c₁.tp.irs + 1 + BitVec.ofNat 32 N ∧
        (c₁.so.ssCantrcvmore = false → c₁.so.soRcv.sbLog = (List.range N).map f) := by
  have hstart : RcvState (finPeer f N) farLimit c₀.rcvSide (-1) := rcvState_start hs
  obtain ⟨hst, -⟩ := pos_run finWhole_step (p := (c₀, -1)) (q := (c, n)) hstart hg hr
  have hst' : RcvState (finPeer f N) farLimit c.rcvSide n := hst
  constructor
  · intro hf
    have hf' : c.rcvSide.tState.haveRcvdFin = true := hf
    cases hst' with
    | closed h =>
      rw [h] at hf'
      cases hf'
    | unsynced h =>
      rcases h with h | h <;> rw [h] at hf' <;> cases hf'
    | synced _ h =>
      have : n - 1 = N := (h.fin hf').2
      omega
  · intro e s c₁ hc hf
    obtain ⟨n', h1, h2, h3, hinv, rfl⟩ := finConn_texted hst' (finWhole_segOk hc) hf
    have hrel := hst'.sdist_rel (.synced h3 hinv) h1 h2
    refine ⟨by omega, ?_, fun hrcv => ?_⟩
    · have hnx : c₁.tp.rcvNxt = c₁.tp.irs + 1 + BitVec.ofInt 32 N := hinv.nxt
      rw [hnx, BitVec.ofInt_natCast]
    · have := hinv.log_eq rfl hrcv
      rwa [Int.toNat_natCast] at this

instance (f : Nat → UInt8) (N : Nat) (p : Conn × Int) : ∀ ev, Decidable (FinAt f N p ev)
  | .input _ _ => inferInstanceAs (Decidable (_ ∧ (_ → _ → _)))
  | .output _ | .slowtimo _ | .fasttimo _ | .send .. | .recv .. | .shutdown .. | .disconnect _ | .detach _
  | .accept | .sockopt _ => inferInstanceAs (Decidable (_ ∧ True))

instance (f : Nat → UInt8) (N : Nat) (p : Conn × Int) : ∀ ev, Decidable (FinWhole f N p ev)
  | .input _ _ => inferInstanceAs (Decidable (_ ∧ (_ = _)))
  | .output _ | .slowtimo _ | .fasttimo _ | .send .. | .recv .. | .shutdown .. | .disconnect _ | .detach _
  | .accept | .sockopt _ => inferInstanceAs (Decidable (_ ∧ True))

/-- The bytes `5 6` with the FIN, then `1 2 3 4`. -/
def finEvents : List Event :=
  connectEvents 4 ++
    [dataEvent 4 true [5, 6] (by decide), dataEvent 0 false [1, 2, 3, 4] (by decide)]

/-- The FIN that was queued is executed behind the six bytes. -/
theorem fin_in_place_queued :
    ∃ c n, (Machine.run posMachine (some (activeOpen 1 newSocket, -1)) finEvents).1 =
        some (c, n) ∧ c.tp.tState = .closeWait ∧ n = 7 ∧ c.so.soRcv.sbLog = [1, 2, 3, 4, 5, 6] := by
  have hg : Machine.Guarded posMachine (FinWhole (fun i => UInt8.ofNat (i + 1)) 6)
      (some (activeOpen 1 newSocket, -1)) finEvents := by decide +kernel
  have hend : (Machine.run posMachine (some (activeOpen 1 newSocket, -1)) finEvents).1.map
      (fun p => (p.1.tp.tState, p.1.so.soRcv.sbLog)) = some (.closeWait, [1, 2, 3, 4, 5, 6]) := by
    decide +kernel
  obtain ⟨⟨c, n⟩, hr, he⟩ := Option.map_eq_some_iff.mp hend
  simp only [Prod.mk.injEq] at he
  obtain ⟨h1, h2⟩ := he
  have hn := (fin_in_place _ 6 (.active 1 newSocket newSocket_fresh) hg hr).1 (by rw [h1]; rfl)
  exact ⟨c, n, hr, h1, hn, h2⟩

/-- A socket with a receive buffer of four bytes. -/
def smallSocket : SocketTcp := { newSocket with soRcv := { sbHiwat := 4 } }

theorem smallSocket_fresh : FreshSocket smallSocket := by constructor <;> decide

/-- Six bytes and a FIN, from the first byte of the stream. -/
def sixAndFin : Seg :=
  Seg.ofData { thSeq := 101, thAck := 2, thFlags := { ack := true, fin := true }, thWin := 4 }
    [1, 2, 3, 4, 5, 6] (by decide)

/-- The connection with the small buffer, established. -/
def smallRun : Option (Conn × Int) :=
  (Machine.run posMachine (some (activeOpen 1 smallSocket, -1)) (connectEvents 4)).1

theorem smallRun_isSome : smallRun.isSome = true := by decide +kernel

/-- Six bytes and a FIN arrive at a window of four bytes: four bytes are delivered, and the FIN step
    is executed behind them. -/
theorem cut_fin_accepted :
    ¬ ∀ (f : Nat → UInt8) (N : Nat) (c₀ c : Conn) (es : List Event) (n : Int), Start c₀ →
      Machine.Guarded posMachine (FinAt f N) (some (c₀, -1)) es →
      (Machine.run posMachine (some (c₀, -1)) es).1 = some (c, n) →
      ∀ e s c₁, FinAt f N (c, n) (.input e s) → finConn e s c = some c₁ →
        c₁.tp.rcvNxt = c₁.tp.irs + 1 + BitVec.ofNat 32 N := by
  intro h
  have hg : Machine.Guarded posMachine (FinAt (fun i => UInt8.ofNat (i + 1)) 6)
      (some (activeOpen 1 smallSocket, -1)) (connectEvents 4) := by decide +kernel
  have hat : FinAt (fun i => UInt8.ofNat (i + 1)) 6 (smallRun.get smallRun_isSome)
      (.input {} sixAndFin) := by decide +kernel
  have hfin : (finConn {} sixAndFin (smallRun.get smallRun_isSome).1).map
      (fun c => (c.tp.rcvNxt, c.tp.irs)) = some (105, 100) := by decide +kernel
  obtain ⟨c₁, hc₁, he⟩ := Option.map_eq_some_iff.mp hfin
  have := h _ 6 _ _ _ _ (.active 1 smallSocket smallSocket_fresh) hg
    (Option.some_get smallRun_isSome).symm {} sixAndFin c₁ hat hc₁
  simp only [Prod.mk.injEq] at he
  rw [he.1, he.2] at this
  revert this
  decide

end TnNet
