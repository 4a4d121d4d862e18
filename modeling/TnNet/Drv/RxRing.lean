import TnNet.Drv.Rx

/-!
# The blocks of the receive descriptors

`rx_ring_ok`: in every run, the blocks of the receive descriptors are large blocks, pairwise distinct,
neither free nor used otherwise, and no block is lost; each frame that is passed up is in an mbuf of its
own with exactly the received bytes, whether it was copied or its block was exchanged.
-/

set_option autoImplicit false

namespace TnNet.Drv

open TnNet.Mem TnNet.Mem.Heap

namespace Rx

variable {s : Rx} {mb d b : Block} {ind len head status : Nat} {frame : List UInt8}

/-- The blocks of the receive descriptors. -/
def ring (s : Rx) : Set Block := { x | ∃ i < MAC_NUM_RX_DESCR, s.packet i = x }

/-- The blocks that are in use otherwise than by mbufs. -/
def others (s : Rx) : Set Block := s.ring ∪ ↑s.busy

/-- The invariant. -/
structure Inv (s : Rx) : Prop where
  held : s.heap.Held s.own s.others
  inj : ∀ i < MAC_NUM_RX_DESCR, ∀ j < MAC_NUM_RX_DESCR, s.packet i = s.packet j → i = j
  hibuf : ∀ i < MAC_NUM_RX_DESCR, (s.packet i).pool = .hibuf
  apart : ∀ i < MAC_NUM_RX_DESCR, s.packet i ∉ s.busy
  consume : s.consume < MAC_NUM_RX_DESCR
  queued : ∀ b ∈ s.queue, b ∈ s.own
  nodup : s.queue.Nodup

/-- A received frame is in an mbuf of its own. -/
structure Received (s : Rx) (mb : Block) (len : Nat) (frame : List UInt8) : Prop where
  mLen : (s.heap.mb mb).mLen = len
  mTlen : (s.heap.mb mb).mTlen.toNat = len
  length : frame.length = len
  bytes : s.heap.bytes s.mem mb = frame
  buffer : ∃ d, s.heap.dbuf mb = some d ∧ (∀ b ∈ s.own, s.heap.dbuf b = some d → b = mb) ∧
    d ∉ s.others

theorem packet_mem (hind : ind < MAC_NUM_RX_DESCR) : s.packet ind ∈ s.others := .inl ⟨ind, hind, rfl⟩

theorem rxLen_lt (status : Nat) : rxLen status < 2 ^ 20 := by
  unfold rxLen
  omega

/-- The only descriptor of its buffer. -/
theorem sole {h : Heap} {own : Finset Block} {limbo : Set Block} (hh : Held h own limbo) (hmb : mb ∈ own)
    (hpri : h.pri mb = some mb) (hd : (h.mb mb).mDbuf = some d) (href : (h.mb mb).mRefcnt = 1) :
    h.dbuf mb = some d ∧ (∀ b ∈ own, h.dbuf b = some d → b = mb) ∧ d ∉ limbo := by
  have hroot := isRoot_of_pri hmb hpri
  have hdbuf : h.dbuf mb = some d := by
    unfold Heap.dbuf
    rw [hpri, Option.bind_some, hd]
  refine ⟨hdbuf, ?_, fun hc => hh.apart d hc (dbuf_inUse hmb hdbuf)⟩
  intro b hb hbd
  unfold Heap.dbuf at hbd
  obtain ⟨p, hp, hpd⟩ := Option.bind_eq_some_iff.mp hbd
  have hpm : p = mb := hh.sharing.inj p mb (isRoot_of_pri hb hp) hroot (hpd.trans hd.symm)
  have hcard := hh.counted mb hroot
  rw [href] at hcard
  rw [hpm] at hp
  exact Finset.card_le_one.mp hcard.symm.le b (mem_live.mpr ⟨hb, hp⟩) mb (mem_live.mpr ⟨hmb, hpri⟩)

/-- The lengths of a new mbuf. -/
theorem received_setLen {h : Heap} {own : Finset Block} {limbo : Set Block} {k : DbType} {mem : Bufs}
    (hh : Held h own limbo) (hmb : mb ∈ own) (hdesc : h.mb mb = primDesc mb d k) (hlen : len < 2 ^ 20)
    (hframe : bufBytes mem (some d) 0 len = frame) :
    Held (setLen h mb len) own limbo ∧ ((setLen h mb len).mb mb).mLen = len ∧
      ((setLen h mb len).mb mb).mTlen.toNat = len ∧ (setLen h mb len).bytes mem mb = frame ∧
      ((setLen h mb len).dbuf mb = some d ∧ (∀ b ∈ own, (setLen h mb len).dbuf b = some d → b = mb) ∧
        d ∉ limbo) := by
  have hrefs : SameRefs h (setLen h mb len) := sameRefs_pkthdr h mb true len (BitVec.ofNat 20 len)
  have hdesc2 : (setLen h mb len).mb mb =
      { primDesc mb d k with pkthdr := true, mLen := len, mTlen := BitVec.ofNat 20 len } := by
    unfold setLen
    rw [set_mb_self, hdesc]
  generalize setLen h mb len = h2 at *
  have hpri : h2.pri mb = some mb := by
    unfold Heap.pri
    rw [hdesc2]
    rfl
  have hsole := sole (hh.same hrefs) hmb hpri (by rw [hdesc2]; rfl) (by rw [hdesc2]; rfl)
  refine ⟨hh.same hrefs, by rw [hdesc2], ?_, ?_, hsole⟩
  · rw [hdesc2]
    simp only [BitVec.toNat_ofNat]
    omega
  · unfold Heap.bytes
    rw [hsole.1, hdesc2]
    exact hframe

/-! ## One frame -/

/-- A new mbuf does not hurt the queue. -/
theorem queued_insert (hi : Inv s) : ∀ b ∈ s.queue, b ∈ insert mb s.own :=
  fun b hb => Finset.mem_insert_of_mem (hi.queued b hb)

theorem length_frame (s : Rx) (ind len : Nat) : (s.frame ind len).length = len := length_bufBytes

/-- What `drv_lpc23xx_net_rx_data` leaves when it has an mbuf. -/
structure New (s s' : Rx) (ind len : Nat) (mb : Block) : Prop where
  inv : Inv s'
  own : mb ∉ s.own ∧ s'.own = insert mb s.own
  queue : s'.queue = s.queue
  consume : s'.consume = s.consume
  received : Received s' mb len (s.frame ind len)

/-- Only the heap changes. -/
theorem Inv.heap (hi : Inv s) {h : Heap} (hh : h.Held s.own s.others) : Inv { s with heap := h } :=
  ⟨hh, hi.inj, hi.hibuf, hi.apart, hi.consume, hi.queued, hi.nodup⟩

theorem rxCopy_spec (hi : Inv s) (hlen : len < 2 ^ 20) :
    match (s.rxCopy ind len).2 with
    | none => Inv (s.rxCopy ind len).1 ∧ ∃ h, (s.rxCopy ind len).1 = { s with heap := h }
    | some mb => New s (s.rxCopy ind len).1 ind len mb := by
  unfold rxCopy
  generalize decide (s.etherType ind = ETHERTYPE_ARP) = tx
  have hheld := hi.held.mbGet .MB_MID1 tx
  have hres := mbGet_result hi.held .MB_MID1 tx (by cases tx <;> decide)
  generalize s.heap.mbGet .MB_MID1 tx = r at hheld hres ⊢
  obtain ⟨h, res⟩ := r
  cases res with
  | none =>
    simp only [Option.toFinset_none, Finset.empty_union] at hheld
    exact ⟨hi.heap hheld, h, rfl⟩
  | some mb =>
    obtain ⟨d, hf⟩ := hres
    have hmb : mb ∉ s.heap.InUse s.own := hf.notUse.1
    obtain ⟨k, hdesc⟩ : ∃ k, h.mb mb = primDesc mb d k := ⟨_, hf.desc⟩
    simp only [Option.toFinset_some, Finset.singleton_union] at hheld
    have hmem : mb ∈ insert mb s.own := Finset.mem_insert_self _ _
    have hdbuf : h.dbuf mb = some d := by
      unfold Heap.dbuf Heap.pri
      simp only [hdesc, primDesc, if_true, Option.bind_some]
    have hdata : (h.mb mb).mData = 0 := by
      rw [hdesc]
      rfl
    dsimp only
    rw [hdbuf, hdata]
    have hwrite := bufBytes_writeBuf s.mem d 0 (s.frame ind len)
    rw [length_frame] at hwrite
    obtain ⟨h1, h2, h3, h4, h5⟩ := received_setLen hheld hmem hdesc hlen hwrite
    refine ⟨⟨h1, hi.inj, hi.hibuf, hi.apart, hi.consume, queued_insert hi, hi.nodup⟩,
      ⟨fun hc => hmb (.inl hc), rfl⟩,
      rfl, rfl, ⟨h2, h3, length_frame s ind len, h4, d, h5⟩⟩

section Exchange

variable {x newBuf : Block}

/-- The receive descriptor `ind` gets another block. -/
def exchanged (s : Rx) (ind : Nat) (newBuf : Block) : Rx :=
  { s with packet := Function.update s.packet ind newBuf }

@[simp] theorem exchanged_self : (s.exchanged ind newBuf).packet ind = newBuf :=
  Function.update_self ..

theorem exchanged_ne {i : Nat} (hne : i ≠ ind) : (s.exchanged ind newBuf).packet i = s.packet i :=
  Function.update_of_ne hne ..

/-- A block of the exchanged ring is the new one or the one of another descriptor. -/
theorem mem_ring_exchanged (hx : x ∈ (s.exchanged ind newBuf).ring) :
    x = newBuf ∨ ∃ i < MAC_NUM_RX_DESCR, i ≠ ind ∧ s.packet i = x := by
  obtain ⟨i, hlt, rfl⟩ := hx
  rcases eq_or_ne i ind with rfl | hne
  · exact .inl exchanged_self
  · exact .inr ⟨i, hlt, hne, (exchanged_ne hne).symm⟩

/-- The exchange moves the block of the descriptor to the mbuf. -/
theorem others_exchanged (hind : ind < MAC_NUM_RX_DESCR) :
    insert mb (insert newBuf s.others) = (s.exchanged ind newBuf).others ∪ {mb, s.packet ind} := by
  ext x
  simp only [others, Set.mem_insert_iff, Set.mem_union, Finset.mem_coe, Set.mem_singleton_iff]
  constructor
  · rintro (rfl | rfl | ⟨i, hlt, rfl⟩ | hx)
    · exact .inr (.inl rfl)
    · exact .inl (.inl ⟨ind, hind, exchanged_self⟩)
    · rcases eq_or_ne i ind with rfl | hne
      · exact .inr (.inr rfl)
      · exact .inl (.inl ⟨i, hlt, exchanged_ne hne⟩)
    · exact .inl (.inr hx)
  · rintro ((hx | hx) | rfl | rfl)
    · rcases mem_ring_exchanged hx with rfl | ⟨i, hlt, -, rfl⟩
      · exact .inr (.inl rfl)
      · exact .inr (.inr (.inl ⟨i, hlt, rfl⟩))
    · exact .inr (.inr (.inr hx))
    · exact .inl rfl
    · exact .inr (.inr (.inl ⟨ind, hind, rfl⟩))

theorem not_mem_exchanged (hx : x ∉ insert newBuf s.others) : x ∉ (s.exchanged ind newBuf).others := by
  rintro (hr | hb)
  · rcases mem_ring_exchanged hr with rfl | ⟨i, hlt, -, rfl⟩
    · exact hx (Set.mem_insert _ _)
    · exact hx (.inr (packet_mem hlt))
  · exact hx (.inr (.inr hb))

/-- The block of the descriptor is no block of the ring any more. -/
theorem Inv.not_exchanged (hi : Inv s) (hind : ind < MAC_NUM_RX_DESCR) (hne : s.packet ind ≠ newBuf) :
    s.packet ind ∉ (s.exchanged ind newBuf).others := by
  rintro (hr | hb)
  · rcases mem_ring_exchanged hr with heq | ⟨i, hlt, hii, heq⟩
    · exact hne heq
    · exact hii (hi.inj i hlt ind hind heq)
  · exact hi.apart ind hind hb

/-- The blocks of the descriptors stay distinct. -/
theorem Inv.exchanged_inj (hi : Inv s) (hne : ∀ i < MAC_NUM_RX_DESCR, s.packet i ≠ newBuf) :
    ∀ i < MAC_NUM_RX_DESCR, ∀ j < MAC_NUM_RX_DESCR,
      (s.exchanged ind newBuf).packet i = (s.exchanged ind newBuf).packet j → i = j := by
  intro i hlt j hjt heq
  rcases eq_or_ne i ind with rfl | hine
  · rcases eq_or_ne j i with rfl | hjne
    · rfl
    · rw [exchanged_self, exchanged_ne hjne] at heq
      exact absurd heq.symm (hne j hjt)
  · rw [exchanged_ne hine] at heq
    rcases eq_or_ne j ind with rfl | hjne
    · rw [exchanged_self] at heq
      exact absurd heq (hne i hlt)
    · rw [exchanged_ne hjne] at heq
      exact hi.inj i hlt j hjt heq

/-- What holds of the new block and of the others holds of the ring. -/
theorem forall_exchanged {p : Block → Prop} (hnew : p newBuf)
    (hp : ∀ i < MAC_NUM_RX_DESCR, p (s.packet i)) :
    ∀ i < MAC_NUM_RX_DESCR, p ((s.exchanged ind newBuf).packet i) := by
  intro i hlt
  rcases eq_or_ne i ind with rfl | hne
  · rw [exchanged_self]
    exact hnew
  · rw [exchanged_ne hne]
    exact hp i hlt

theorem rxExchange_spec (hi : Inv s) (hind : ind < MAC_NUM_RX_DESCR) (hlen : len < 2 ^ 20) :
    match (s.rxExchange ind len).2 with
    | .ok mb => New s (s.rxExchange ind len).1 ind len mb
    | _ => Inv (s.rxExchange ind len).1 ∧ ∃ h, (s.rxExchange ind len).1 = { s with heap := h } := by
  unfold rxExchange
  cases ha : s.heap.alloc .hibuf with
  | none => exact ⟨hi, s.heap, rfl⟩
  | some r =>
    obtain ⟨newBuf, h1⟩ := r
    obtain ⟨hh1, -, hnew, hpool, -⟩ := hi.held.alloc ha
    dsimp only
    cases hb : h1.mAllocHdr with
    | none =>
      dsimp only
      refine ⟨hi.heap ?_, _, rfl⟩
      rw [← hpool]
      exact hh1.put (Set.mem_insert _ _) fun y => mem_iff_insert hnew y
    | some r =>
      obtain ⟨mb, h2⟩ := r
      obtain ⟨hh2, hmb, hmbl, hmbpool, -⟩ := hh1.mAllocHdr hb
      dsimp only
      have hpne : ∀ i < MAC_NUM_RX_DESCR, s.packet i ≠ newBuf := by
        rintro i hlt rfl
        exact hnew (packet_mem hlt)
      have hmd : mb ≠ s.packet ind := by
        rintro rfl
        rw [hi.hibuf ind hind] at hmbpool
        cases hmbpool
      have hplace : freePool .MB_HI (s.packet ind) = (s.packet ind).pool := (hi.hibuf ind hind).symm
      have hh3 :=
        hh2.addPrim (k := .MB_HI) (Set.mem_insert _ _) (.inr (.inr (packet_mem hind))) hmd hmbpool hplace
        (others_exchanged hind) (not_mem_exchanged hmbl) (hi.not_exchanged hind (hpne ind hind))
      obtain ⟨g1, g2, g3, g4, g5⟩ := received_setLen hh3 (Finset.mem_insert_self _ _)
        (set_mb_self _ _ _) hlen rfl
      exact ⟨⟨g1, hi.exchanged_inj hpne,
          forall_exchanged (p := fun b => b.pool = .hibuf) hpool hi.hibuf,
          forall_exchanged (p := fun b => b ∉ s.busy) (fun hc => hnew (.inr hc)) hi.apart,
          hi.consume, queued_insert hi, hi.nodup⟩,
        ⟨fun hc => hmb (.inl hc), rfl⟩, rfl, rfl, ⟨g2, g3, length_frame s ind len, g4, _, g5⟩⟩

end Exchange

/-- What `drv_lpc23xx_net_rx_data` leaves. -/
def DataResult (s : Rx) (ind status : Nat) (r : Rx × RxRes) : Prop :=
  match r.2 with
  | .ok mb => New s r.1 ind (rxLen status) mb
  | _ => Inv r.1

theorem rxData_spec (hi : Inv s) (hind : ind < MAC_NUM_RX_DESCR) (status : Nat) :
    DataResult s ind status (s.rxData ind status) := by
  have hlen := rxLen_lt status
  have hex : ∀ s' : Rx, Inv s' → (∃ h, s' = { s with heap := h }) →
      DataResult s ind status (s'.rxExchange ind (rxLen status)) := by
    rintro s' hi' ⟨h, hs'⟩
    have hx := rxExchange_spec hi' hind hlen
    unfold DataResult
    generalize s'.rxExchange ind (rxLen status) = r at hx ⊢
    obtain ⟨s2, res⟩ := r
    cases res with
    | rxErr => exact hx.1
    | outOfMem => exact hx.1
    | ok mb =>
      obtain ⟨h1, h2, h3, h4, h5⟩ := hx
      rw [hs'] at h2 h3 h4 h5
      exact ⟨h1, h2, h3, h4, h5⟩
  unfold rxData
  by_cases herr : rxError status
  · rw [if_pos herr]
    exact hi
  rw [if_neg herr]
  by_cases hshort : rxLen status ≤ 128
  · rw [if_pos hshort]
    have hc := @rxCopy_spec s ind (rxLen status) hi hlen
    generalize s.rxCopy ind (rxLen status) = r at hc ⊢
    obtain ⟨s1, res⟩ := r
    cases res with
    | none => exact hex s1 hc.1 hc.2
    | some mb => exact hc
  · rw [if_neg hshort]
    exact hex s hi ⟨s.heap, rfl⟩

/-! ## The interrupt -/

theorem Inv.send (hi : Inv s) (hmb : mb ∈ s.own) (hnew : mb ∉ s.queue) : Inv (s.send mb) := by
  refine ⟨hi.held, hi.inj, hi.hibuf, hi.apart, hi.consume, ?_,
    List.nodup_append.mpr ⟨hi.nodup, List.nodup_singleton mb, ?_⟩⟩
  · intro b hb
    rcases List.mem_append.mp hb with hb | hb
    · exact hi.queued b hb
    · rw [List.mem_singleton.mp hb]
      exact hmb
  · rintro b hb c hc rfl
    rw [List.mem_singleton.mp hc] at hb
    exact hnew hb

/-- The task takes the first mbuf of the queue, or waits for one. -/
theorem Inv.receive (hi : Inv s) : Inv s.receive := by
  have hsub : s.receive.queue.Sublist s.queue ∧ s.receive.own = s.own := by
    unfold Rx.receive
    cases s.queue with
    | nil => exact ⟨List.Sublist.refl _, rfl⟩
    | cons mb queue => exact ⟨List.sublist_cons_self mb queue, rfl⟩
  have hsame : s.receive =
      { s with queue := s.receive.queue, waiting := s.receive.waiting, handed := s.receive.handed } := by
    unfold Rx.receive
    cases s.queue <;> rfl
  rw [hsame]
  exact ⟨hi.held, hi.inj, hi.hibuf, hi.apart, hi.consume, fun b hb => hi.queued b (hsub.1.subset hb),
    hi.nodup.sublist hsub.1⟩

theorem turn_spec (hi : Inv s) (hind : ind < MAC_NUM_RX_DESCR) (status : Nat) :
    Inv (s.turn ind status).1 ∧ ∀ p ∈ (s.turn ind status).2.2, Received p.s p.mb p.len p.frame := by
  have hd := rxData_spec hi hind status
  unfold turn
  generalize s.rxData ind status = r at hd ⊢
  obtain ⟨s1, res⟩ := r
  cases res with
  | rxErr => exact ⟨hd, by simp⟩
  | outOfMem => exact ⟨hd, by simp⟩
  | ok mb =>
    obtain ⟨h1, ⟨hnew, hown⟩, hqueue, -, hrec⟩ := hd
    simp only at h1 hown hqueue hrec
    have hmbq : mb ∉ s1.queue := by
      rw [hqueue]
      exact fun hc => hnew (hi.queued mb hc)
    have hmbown : mb ∈ s1.own := by
      rw [hown]
      exact Finset.mem_insert_self _ _
    dsimp only
    split
    · refine ⟨h1.send hmbown hmbq, ?_⟩
      intro p hp
      rw [List.mem_singleton.mp hp]
      exact hrec
    · -- the queue is full
      have hfree := h1.held.mFreem (List.nodup_singleton mb) (by simpa using hmbown)
      rw [List.toFinset_cons, List.toFinset_nil, insert_empty_eq, Finset.sdiff_singleton_eq_erase] at hfree
      refine ⟨⟨hfree, h1.inj, h1.hibuf, h1.apart, h1.consume, ?_, h1.nodup⟩, by simp⟩
      intro b hb
      refine Finset.mem_erase.mpr ⟨?_, h1.queued b hb⟩
      rintro rfl
      exact hmbq hb

theorem Inv.consumed (hi : Inv s) {n : Nat} (hn : n < MAC_NUM_RX_DESCR) : Inv { s with consume := n } :=
  ⟨hi.held, hi.inj, hi.hibuf, hi.apart, hn, hi.queued, hi.nodup⟩

theorem intLoop_spec (hhead : head < MAC_NUM_RX_DESCR) (st : Nat → Nat) (n : Nat) {s : Rx} (hi : Inv s) :
    Inv (intLoop head st n s).1 ∧ ∀ p ∈ (intLoop head st n s).2, Received p.s p.mb p.len p.frame := by
  induction n generalizing s with
  | zero => exact ⟨hi, by simp [intLoop]⟩
  | succ n ih =>
    unfold intLoop
    split
    · exact ⟨hi, by simp⟩
    · have ht := turn_spec hi hi.consume (st s.consume)
      generalize s.turn s.consume (st s.consume) = r at ht ⊢
      obtain ⟨s1, go, out⟩ := r
      obtain ⟨h1, h2⟩ := ht
      cases go with
      | false => exact ⟨h1.consumed hhead, h2⟩
      | true =>
        have hlt : next s.consume < MAC_NUM_RX_DESCR := by
          rw [next_eq hi.consume]
          exact Nat.mod_lt _ (by decide)
        obtain ⟨h3, h4⟩ := ih (h1.consumed hlt)
        refine ⟨h3, fun p hp => ?_⟩
        rcases List.mem_append.mp hp with hp | hp
        · exact h2 p hp
        · exact h4 p hp

end Rx

open Rx

/-! ## Runs -/

theorem uses_mono {h : Heap} {own own' : Finset Block} {ev : HeapEvent} (hsub : own ⊆ own')
    (hu : Uses ⟨h, own⟩ ev) : Uses ⟨h, own'⟩ ev := by
  cases ev with
  | get k tx => trivial
  | copym chain offset len => exact fun b hb => hsub (hu b hb)
  | adj chain reqLen => exact fun b hb => hsub (hu b hb)
  | free mb => exact hsub hu
  | freem chain => exact ⟨hu.1, fun b hb => hsub (hu.2 b hb)⟩
  | fill mb mLen mData mTlen => exact hsub hu
  | setPkthdr mb => exact hsub hu

/-- The calls of the tasks leave the mbufs of the queue to the queue. -/
theorem queued_call {h : Heap} {own : Finset Block} {queue : List Block} {ev : HeapEvent}
    (hq : ∀ b ∈ queue, b ∈ own) (hu : Uses ⟨h, own \ queue.toFinset⟩ ev) :
    ∀ b ∈ queue, b ∈ ((Owners.mk h own).step ev).own := by
  intro b hb
  have hown := hq b hb
  have hnot : ∀ c ∈ own \ queue.toFinset, b ≠ c := by
    rintro c hc rfl
    exact (Finset.mem_sdiff.mp hc).2 (List.mem_toFinset.mpr hb)
  cases ev with
  | get k tx => exact Finset.mem_union_right _ hown
  | copym chain offset len =>
    simp only [Owners.step]
    split
    · exact Finset.mem_union_right _ hown
    · exact hown
  | adj chain reqLen => exact hown
  | free mb => exact Finset.mem_erase.mpr ⟨hnot mb hu, hown⟩
  | freem chain =>
    refine Finset.mem_sdiff.mpr ⟨hown, fun hc => ?_⟩
    exact hnot b (hu.2 b (List.mem_toFinset.mp hc)) rfl
  | fill mb mLen mData mTlen => exact hown
  | setPkthdr mb => exact hown

theorem rx_step {s : Rx} {ev : RxEvent} (hi : Inv s) (hu : RxUses s ev) :
    Inv (s.step ev).1 ∧ ∀ p ∈ (s.step ev).2, Received p.s p.mb p.len p.frame := by
  cases ev with
  | dma ind data =>
    exact ⟨⟨hi.held, hi.inj, hi.hibuf, hi.apart, hi.consume, hi.queued, hi.nodup⟩, by simp [Rx.step]⟩
  | rx head status => exact intLoop_spec hu status MAC_NUM_RX_DESCR hi
  | receive => exact ⟨hi.receive, by simp [Rx.step]⟩
  | call ev =>
    have hheld := held_step (s := ⟨s.heap, s.own⟩) hi.held (uses_mono Finset.sdiff_subset hu.1) hu.2
    exact ⟨⟨hheld, hi.inj, hi.hibuf, hi.apart, hi.consume, queued_call hi.queued hu.1,
      hi.nodup⟩, by simp [Rx.step]⟩
  | write mb pos data =>
    exact ⟨⟨hi.held, hi.inj, hi.hibuf, hi.apart, hi.consume, hi.queued, hi.nodup⟩, by simp [Rx.step]⟩
  | take q =>
    simp only [Rx.step]
    cases ha : s.heap.alloc q with
    | none => exact ⟨hi, by simp⟩
    | some r =>
      obtain ⟨b, h⟩ := r
      obtain ⟨hh, -, hnot, -, -⟩ := hi.held.alloc ha
      have hset : insert b s.others = ({ s with heap := h, busy := insert b s.busy } : Rx).others := by
        unfold Rx.others Rx.ring
        rw [Finset.coe_insert, Set.union_insert]
      refine ⟨⟨by rw [← hset]; exact hh, hi.inj, hi.hibuf, ?_, hi.consume, hi.queued,
        hi.nodup⟩, by simp⟩
      intro i hlt hc
      rcases Finset.mem_insert.mp hc with heq | hc
      · exact hnot (heq ▸ packet_mem hlt)
      · exact hi.apart i hlt hc
  | give b =>
    have hb : b ∈ s.busy := hu
    refine ⟨⟨?_, hi.inj, hi.hibuf, ?_, hi.consume, hi.queued, hi.nodup⟩, by simp [Rx.step]⟩
    · refine hi.held.put (.inr hb) fun y => ?_
      simp only [Rx.others, Rx.ring, Set.mem_union, Set.mem_ofPred_eq, Finset.mem_coe, Rx.step,
        Finset.mem_erase]
      constructor
      · rintro (⟨i, hlt, rfl⟩ | ⟨hne, hy⟩)
        · exact ⟨.inl ⟨i, hlt, rfl⟩, fun heq => hi.apart i hlt (heq ▸ hb)⟩
        · exact ⟨.inr hy, hne⟩
      · rintro ⟨hy | hy, hne⟩
        · exact .inl hy
        · exact .inr ⟨hne, hy⟩
    · exact fun i hlt hc => hi.apart i hlt (Finset.mem_of_mem_erase hc)

theorem inv_start : Inv Rx.start := by
  have hh := held_start
  have h1 := hh.alloc (q := .hibuf) rfl
  have h2 := h1.1.alloc (q := .hibuf) rfl
  have h3 := h2.1.alloc (q := .hibuf) rfl
  refine ⟨?_, ?_, fun i _ => rfl,
    fun i _ => Finset.notMem_empty _, by decide, by simp [Rx.start], List.nodup_nil⟩
  · have hset : insert (Block.mk .hibuf 2) (insert (Block.mk .hibuf 1) (insert (Block.mk .hibuf 0) ∅)) =
        Rx.start.others := by
      ext x
      simp only [Rx.others, Rx.ring, Rx.start, MAC_NUM_RX_DESCR, Set.mem_insert_iff, Set.mem_union,
        Set.mem_ofPred_eq, Finset.coe_empty, Set.mem_empty_iff_false, or_false]
      constructor
      · rintro (rfl | rfl | rfl)
        · exact ⟨2, by decide, rfl⟩
        · exact ⟨1, by decide, rfl⟩
        · exact ⟨0, by decide, rfl⟩
      · rintro ⟨i, hlt, rfl⟩
        obtain rfl | rfl | rfl : i = 0 ∨ i = 1 ∨ i = 2 := by omega
        · exact .inr (.inr rfl)
        · exact .inr (.inl rfl)
        · exact .inl rfl
    have hheap : Rx.start.heap =
        { mb := fun _ => {}
          free := Function.update (Function.update (Function.update Owners.start.heap.free
            .hibuf [⟨.hibuf, 1⟩, ⟨.hibuf, 2⟩, ⟨.hibuf, 3⟩, ⟨.hibuf, 4⟩, ⟨.hibuf, 5⟩])
            .hibuf [⟨.hibuf, 2⟩, ⟨.hibuf, 3⟩, ⟨.hibuf, 4⟩, ⟨.hibuf, 5⟩])
            .hibuf [⟨.hibuf, 3⟩, ⟨.hibuf, 4⟩, ⟨.hibuf, 5⟩] } := by
      rw [Function.update_idem, Function.update_idem]
      rfl
    rw [← hset, hheap]
    exact h3.1
  · intro i _ j _ heq
    cases heq
    rfl

/-- The blocks of the receive descriptors and the pools. -/
structure RingOk (s : Rx) : Prop where
  distinct : ∀ i < MAC_NUM_RX_DESCR, ∀ j < MAC_NUM_RX_DESCR, s.packet i = s.packet j → i = j
  hibuf : ∀ i < MAC_NUM_RX_DESCR, (s.packet i).pool = .hibuf ∧ (s.packet i).valid
  notFree : ∀ i < MAC_NUM_RX_DESCR, ∀ q, s.packet i ∉ s.heap.free q
  notDbuf : ∀ i < MAC_NUM_RX_DESCR, ∀ b ∈ s.own, s.heap.dbuf b ≠ some (s.packet i)
  once : ∀ q, (s.heap.free q).Nodup
  free : ∀ q x, x ∈ s.heap.free q ↔
    x.pool = q ∧ x.valid ∧ x ∉ s.heap.InUse s.own ∧ x ∉ s.ring ∧ x ∉ s.busy

theorem ringOk_of_inv {s : Rx} (hi : Inv s) : RingOk s := by
  have hlists := hi.held.lists
  constructor
  case distinct => exact hi.inj
  case hibuf => exact fun i hlt => ⟨hi.hibuf i hlt, hlists.isBlock _ (.inr (packet_mem hlt))⟩
  case notFree => exact fun i hlt q hc => ((hlists.mem_iff q _).mp hc).2.2 (.inr (packet_mem hlt))
  case notDbuf => exact fun i hlt b hb hd => hi.held.apart _ (packet_mem hlt) (dbuf_inUse hb hd)
  case once => exact hlists.nodup
  case free =>
    intro q x
    rw [hlists.mem_iff]
    simp only [Rx.others, Set.mem_union, Finset.mem_coe, not_or]

/-- **The receive descriptors own their blocks**, and frames are passed up as they were received. -/
theorem rx_ring_ok (es : List RxEvent) (hg : Machine.Guarded rxMachine RxUses (some Rx.start) es) :
    (∀ s, (Machine.run rxMachine (some Rx.start) es).1 = some s → RingOk s) ∧
      (∀ p ∈ (Machine.run rxMachine (some Rx.start) es).2, Received p.s p.mb p.len p.frame) ∧
      ∀ p ∈ (Machine.run rxMachine (some Rx.start) es).2,
      ∀ p' ∈ (Machine.run rxMachine (some Rx.start) es).2,
        p.frame = p'.frame → p.s.heap.bytes p.s.mem p.mb = p'.s.heap.bytes p'.s.mem p'.mb := by
  have hrun := Machine.run_invariant Inv (fun p : Passed => Received p.s p.mb p.len p.frame) ?_ ?_ hg
  rotate_left
  · intro s ev hi hu
    obtain ⟨h1, h2⟩ := rx_step hi hu
    refine ⟨?_, h2⟩
    intro s' hs'
    cases hs'
    exact h1
  · intro s' hs'
    cases hs'
    exact inv_start
  refine ⟨fun s hs => ringOk_of_inv (hrun.1 s hs), hrun.2, ?_⟩
  intro p hp p' hp' heq
  rw [(hrun.2 p hp).bytes, (hrun.2 p' hp').bytes, heq]

/-- A short frame and a long one; then the short one again, when no medium block is left. -/
def framesRun : List RxEvent :=
  [.dma 0 [1, 2, 3], .rx 1 fun _ => 59, .dma 1 [4, 5], .rx 2 fun _ => 299] ++
    List.replicate 47 (.take .m1buf) ++ [.dma 2 [1, 2, 3], .rx 0 fun _ => 59]

theorem rx_ring_ok_frames :
    (∀ s, (Machine.run rxMachine (some Rx.start) framesRun).1 = some s → RingOk s) ∧
    (∀ p ∈ (Machine.run rxMachine (some Rx.start) framesRun).2, Received p.s p.mb p.len p.frame) ∧
    ((Machine.run rxMachine (some Rx.start) framesRun).2.map fun p => (p.mb, p.len, p.s.heap.dbuf p.mb)) =
      [(⟨.lobuf, 0⟩, 60, some ⟨.m1buf, 0⟩), (⟨.lobuf, 1⟩, 300, some ⟨.hibuf, 1⟩),
        (⟨.lobuf, 2⟩, 60, some ⟨.hibuf, 2⟩)] := by
  have hg : Machine.Guarded rxMachine RxUses (some Rx.start) framesRun := by
    refine Machine.Guarded.mono ?_ (Machine.guarded_of_forall (p := fun ev => match ev with
      | .dma ind _ => ind < MAC_NUM_RX_DESCR
      | .rx head _ => head < MAC_NUM_RX_DESCR
      | .take _ => True
      | _ => False) ?_)
    · intro s ev hev
      cases ev with
      | dma ind data => exact hev
      | rx head status => exact hev
      | take q => trivial
      | _ => exact hev.elim
    · simp [framesRun, MAC_NUM_RX_DESCR]
  exact ⟨(rx_ring_ok framesRun hg).1, (rx_ring_ok framesRun hg).2.1, by decide +kernel⟩

end TnNet.Drv
