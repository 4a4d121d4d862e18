import TnNet.Lib.Chain
import TnNet.Lib.Loop
import TnNet.Mem.Copy

/-!
# `m_read`

`m_read` of `tn_mbuf.c` copies an mbuf and frees it, until `m_free` returns `NULL`.  What `m_free`
returns is the mbuf that `m_next` led to; the pointer saved before the call is that mbuf too, and the
assignment behind the call makes it its own successor.

A descriptor on a free list keeps its `m_next`, but its flags and its length are overwritten by the link
of the list; what the loop then reads there is the parameter `stale`.  `tn_fmem_release` returns
`TERR_NO_ERR` in a task, so that `m_free` does not return `INV_MEM`.

* `m_read_drains_iff` — a chain is drained exactly when it has at most one mbuf.
* `readTurn_never` — from the second mbuf on the loop goes on for ever.
-/

set_option autoImplicit false

namespace TnNet.Mem

open Loop (loop)

/-! ## The model -/

/-- The descriptors and their data buffers, and the fields of the descriptors that make chains of them.
    An mbuf with `M_ETHHDR` has the Ethernet header in the descriptor. -/
structure Mbufs where
  heap : Heap
  mNext : Block → Option Block
  ethhdr : Block → Bool
  hdrBytes : Block → List UInt8

/-- The `m_len` bytes at `m_data`, and the flag `M_ETHHDR`. -/
structure Seen where
  bytes : List UInt8
  ethhdr : Bool

namespace Mbufs

/-- The bytes of an mbuf. -/
def data (mem : Bufs) (w : Mbufs) (mb : Block) : List UInt8 :=
  if w.ethhdr mb then w.hdrBytes mb else w.heap.bytes mem mb

/-- A descriptor on a free list. -/
def IsFree (w : Mbufs) (mb : Block) : Prop := mb ∈ w.heap.free .lobuf ∨ mb ∈ w.heap.free .drvLobuf

instance (w : Mbufs) (mb : Block) : Decidable (w.IsFree mb) := inferInstanceAs (Decidable (_ ∨ _))

/-- What is read of an mbuf. -/
def look (stale : Mbufs → Block → Seen) (mem : Bufs) (w : Mbufs) (mb : Block) : Seen :=
  if w.IsFree mb then stale w mb else ⟨w.data mem mb, w.ethhdr mb⟩

/-- `m_free`, and what it returns. -/
def mFree (w : Mbufs) (ethhdr : Bool) (mb : Block) : Mbufs × Option Block :=
  let rv := w.mNext mb
  if ethhdr then ({ w with heap := w.heap.tnNetFreeMin mb }, rv)
  else
    match w.heap.pri mb with
    | none => (w, none)
    | some _ => ({ w with heap := w.heap.mFree mb }, rv)

/-- `mb->m_next = next_buf`. -/
def setNext (w : Mbufs) (mb : Block) (nextBuf : Option Block) : Mbufs :=
  { w with mNext := Function.update w.mNext mb nextBuf }

end Mbufs

/-- The variables of `m_read`; `dst` is what was copied to the destination, and `freed` the mbufs
    `m_free` was called with. -/
structure ReadSt where
  w : Mbufs
  mb : Option Block
  dst : List UInt8 := []
  total : Nat := 0
  freed : List Block := []

/-- The `while` loop of `m_read`. -/
def readTurn (stale : Mbufs → Block → Seen) (mem : Bufs) (s : ReadSt) : ReadSt ⊕ ReadSt :=
  match s.mb with
  | none => .inr s
  | some mb =>
    let seen := s.w.look stale mem mb
    let nextBuf := s.w.mNext mb
    let r := s.w.mFree seen.ethhdr mb
    .inl
      { w := match r.2 with
          | none => r.1
          | some mb => r.1.setNext mb nextBuf
        mb := r.2
        dst := s.dst ++ seen.bytes
        total := s.total + seen.bytes.length
        freed := s.freed ++ [mb] }

/-- At most `n` turns of `m_read`. -/
def mRead (stale : Mbufs → Block → Seen) (mem : Bufs) (w : Mbufs) (mb : Option Block)
    (dstNull : Bool) (n : Nat) : Option ReadSt :=
  if dstNull then some { w, mb } else loop (readTurn stale mem) n { w, mb }

/-! ## Chains of an owner -/

/-- An mbuf the caller has obtained and not freed; one with `M_ETHHDR` has no data buffer. -/
def Mbufs.Owned (w : Mbufs) (own : Finset Block) (limbo : Set Block) (mb : Block) : Prop :=
  if w.ethhdr mb then mb ∈ limbo ∧ (mb.pool = .lobuf ∨ mb.pool = .drvLobuf) else mb ∈ own

structure OwnedChain (w : Mbufs) (own : Finset Block) (limbo : Set Block) (chain : List Block) : Prop where
  held : w.heap.Held own limbo
  nodup : chain.Nodup
  links : ∀ mb l, chain = mb :: l → Chain.Links w.mNext mb l
  owned : ∀ mb ∈ chain, w.Owned own limbo mb

/-- **A chain is drained.** -/
def Drains (stale : Mbufs → Block → Seen) (mem : Bufs) (w : Mbufs) (chain : List Block) : Prop :=
  ∃ n s, mRead stale mem w chain.head? false n = some s ∧ s.dst = chain.flatMap (w.data mem) ∧
    s.total = s.dst.length ∧ s.freed = chain

variable {stale : Mbufs → Block → Seen} {mem : Bufs} {w : Mbufs} {own : Finset Block} {limbo : Set Block}
  {chain l : List Block} {mb mb1 mb2 x : Block} {s : ReadSt}

namespace Mbufs

/-- What the caller holds is not on a free list. -/
theorem Owned.look (ho : w.Owned own limbo mb) (hh : w.heap.Held own limbo) :
    w.look stale mem mb = ⟨w.data mem mb, w.ethhdr mb⟩ := by
  have hused : mb ∈ w.heap.InUse own ∪ limbo := by
    unfold Owned at ho
    split at ho
    · exact .inr ho.1
    · exact .inl (.inl ho)
  apply if_neg
  rintro (hf | hf)
  · exact ((hh.lists.mem_iff _ mb).mp hf).2.2 hused
  · exact ((hh.lists.mem_iff _ mb).mp hf).2.2 hused

/-- What `m_free` leaves to the caller. -/
structure Freed (w : Mbufs) (own : Finset Block) (limbo : Set Block) (mb : Block)
    (r : Mbufs × Option Block) : Prop where
  rv : r.2 = w.mNext mb
  mNext : r.1.mNext = w.mNext
  ethhdr : r.1.ethhdr = w.ethhdr
  held : r.1.heap.Held (own.erase mb) (limbo \ {mb})

theorem Owned.mFree (ho : w.Owned own limbo mb) (hh : w.heap.Held own limbo) :
    w.Freed own limbo mb (w.mFree (w.ethhdr mb) mb) := by
  unfold Mbufs.mFree
  unfold Owned at ho
  split at ho
  · rename_i he
    obtain ⟨hl, hpool⟩ := ho
    have hown : own.erase mb = own := Finset.erase_eq_of_notMem fun ho => hh.apart mb hl (.inl ho)
    have hput : w.heap.tnNetFreeMin mb = w.heap.put mb.pool mb := by
      unfold Heap.tnNetFreeMin
      rcases hpool with hpool | hpool <;> rw [hpool] <;> rfl
    rw [if_pos he, hput]
    refine ⟨rfl, rfl, rfl, ?_⟩
    rw [hown]
    exact hh.put hl fun y => Iff.rfl
  · rename_i he
    obtain ⟨-, p, hp⟩ := hh.sharing.hdr mb ho
    have hlimbo : limbo \ {mb} = limbo := Set.sdiff_singleton_eq_self fun hl => hh.apart mb hl (.inl ho)
    rw [if_neg he]
    simp only [hp]
    refine ⟨rfl, rfl, rfl, ?_⟩
    rw [hlimbo]
    exact hh.mFree ho

theorem Freed.owned {r : Mbufs × Option Block} (hf : w.Freed own limbo mb r) (hx : w.Owned own limbo x)
    (hne : x ≠ mb) : r.1.Owned (own.erase mb) (limbo \ {mb}) x := by
  unfold Owned at hx ⊢
  rw [hf.ethhdr]
  split at hx
  · rename_i he
    rw [if_pos he]
    exact ⟨⟨hx.1, hne⟩, hx.2⟩
  · rename_i he
    rw [if_neg he]
    exact Finset.mem_erase_of_ne_of_mem hne hx

end Mbufs

/-! ## The turns -/

theorem OwnedChain.next (hc : OwnedChain w own limbo (mb :: l)) : w.mNext mb = l.head? := by
  have hl := hc.links mb l rfl
  cases l with
  | nil => exact hl
  | cons b l => exact hl.1

/-- The first mbuf is copied and freed. -/
theorem OwnedChain.first_turn (hc : OwnedChain w own limbo (mb :: l)) (stale : Mbufs → Block → Seen)
    (mem : Bufs) :
    ∃ w', readTurn stale mem { w, mb := some mb } =
        .inl ⟨w', l.head?, w.data mem mb, (w.data mem mb).length, [mb]⟩ ∧
      (∀ x ∈ l.head?, w'.mNext x = some x) ∧ w'.ethhdr = w.ethhdr ∧
      w'.heap.Held (own.erase mb) (limbo \ {mb}) ∧ ∀ x ∈ l, w'.Owned (own.erase mb) (limbo \ {mb}) x := by
  have ho := hc.owned mb List.mem_cons_self
  have hf := ho.mFree hc.held
  have hrest : ∀ x ∈ l, (w.mFree (w.ethhdr mb) mb).1.Owned (own.erase mb) (limbo \ {mb}) x := by
    intro x hx
    refine hf.owned (hc.owned x (List.mem_cons_of_mem mb hx)) ?_
    rintro rfl
    exact (List.nodup_cons.mp hc.nodup).1 hx
  simp only [readTurn, ho.look hc.held, List.nil_append, Nat.zero_add]
  have hrv := hf.rv
  rw [hc.next] at hrv ⊢
  generalize w.mFree (w.ethhdr mb) mb = r at *
  obtain ⟨w', rv⟩ := r
  subst hrv
  refine ⟨_, rfl, ?_⟩
  cases l with
  | nil => exact ⟨by simp, hf.ethhdr, hf.held, hrest⟩
  | cons b l =>
    refine ⟨?_, hf.ethhdr, hf.held, hrest⟩
    intro x hx
    cases hx
    simp [Mbufs.setNext]

/-- An mbuf that is its own successor stays the current one. -/
theorem readTurn_self (stale : Mbufs → Block → Seen) (mem : Bufs) (s : ReadSt) (hmb : s.mb = some mb)
    (hself : s.w.mNext mb = some mb)
    (hpri : (s.w.look stale mem mb).ethhdr = false → s.w.heap.pri mb ≠ none) :
    ∃ s', readTurn stale mem s = .inl s' ∧ s'.mb = some mb ∧ s'.w.mNext mb = some mb ∧
      s'.freed = s.freed ++ [mb] ∧
      s'.w.heap = (s.w.mFree (s.w.look stale mem mb).ethhdr mb).1.heap := by
  have hrv : (s.w.mFree (s.w.look stale mem mb).ethhdr mb).2 = some mb := by
    unfold Mbufs.mFree
    split
    · exact hself
    · rename_i he
      cases hp : s.w.heap.pri mb with
      | none => exact absurd hp (hpri (by simpa using he))
      | some p => exact hself
  simp only [readTurn, hmb]
  generalize s.w.mFree (s.w.look stale mem mb).ethhdr mb = r at hrv ⊢
  obtain ⟨w', rv⟩ := r
  subst hrv
  exact ⟨_, rfl, rfl, by simp [Mbufs.setNext, hself], rfl, rfl⟩

/-! ## The second mbuf -/

theorem put_mPri (h : Heap) (q : Pool) (b x : Block) : ((h.put q b).mb x).mPri = (h.mb x).mPri := by
  unfold Heap.put
  rcases eq_or_ne x b with rfl | hx
  · simp
  · simp [Function.update_of_ne hx]

theorem releasePrimary_mPri (h : Heap) (p x : Block) :
    ((h.releasePrimary p).mb x).mPri = (h.mb x).mPri := by
  unfold Heap.releasePrimary Heap.tnNetFreeMin
  dsimp only
  rw [put_mPri]
  split
  · exact put_mPri ..
  · rfl

/-- `m_free` leaves the pointers to the primary descriptors. -/
theorem mFree_mPri (h : Heap) (b x : Block) : ((h.mFree b).mb x).mPri = (h.mb x).mPri := by
  unfold Heap.mFree
  split
  · rfl
  · rename_i p _
    dsimp only
    have hset : ((if (h.mb p).mRefcnt ≠ 0 then h.set p { h.mb p with mRefcnt := (h.mb p).mRefcnt - 1 }
        else h).mb
        x).mPri = (h.mb x).mPri := by
      split
      · rcases eq_or_ne x p with rfl | hx
        · simp
        · rw [Heap.set_mb_ne hx]
      · rfl
    generalize (if (h.mb p).mRefcnt ≠ 0 then h.set p { h.mb p with mRefcnt := (h.mb p).mRefcnt - 1 }
      else h) = h1
      at hset ⊢
    have hrel : ((if (h.mb p).mRefcnt = 1 then h1.releasePrimary p else h1).mb x).mPri = (h.mb x).mPri := by
      split
      · exact (releasePrimary_mPri h1 p x).trans hset
      · exact hset
    generalize (if (h.mb p).mRefcnt = 1 then h1.releasePrimary p else h1) = h2 at hrel ⊢
    split
    · exact (put_mPri ..).trans hrel
    · exact hrel

theorem Mbufs.mFree_mPri (w : Mbufs) (ethhdr : Bool) (mb x : Block) :
    ((w.mFree ethhdr mb).1.heap.mb x).mPri = (w.heap.mb x).mPri := by
  unfold Mbufs.mFree
  split
  · exact put_mPri ..
  · split
    · rfl
    · exact TnNet.Mem.mFree_mPri ..

theorem pri_ne_none {h : Heap} {b : Block} (hp : (h.mb b).mPri ≠ none) : h.pri b ≠ none := by
  unfold Heap.pri
  split
  · exact Option.some_ne_none b
  · exact hp

theorem mPri_ne_none {h : Heap} {b : Block} (hh : h.Held own limbo) (hb : b ∈ own) :
    (h.mb b).mPri ≠ none := by
  obtain ⟨-, p, hp⟩ := hh.sharing.hdr b hb
  unfold Heap.pri at hp
  split at hp
  · rename_i hd
    rw [hh.sharing.self b hb hd]
    exact Option.some_ne_none b
  · rw [hp]
    exact Option.some_ne_none p

/-- Behind two turns the second mbuf is its own successor. -/
theorem OwnedChain.second_turn (hc : OwnedChain w own limbo (mb1 :: mb2 :: l))
    (stale : Mbufs → Block → Seen) (mem : Bufs) :
    ∃ s, (∀ n, loop (readTurn stale mem) (n + 2) { w, mb := some mb1 } = loop (readTurn stale mem) n s) ∧
      s.mb = some mb2 ∧ s.w.mNext mb2 = some mb2 ∧ s.freed = [mb1, mb2] ∧
      (w.ethhdr mb2 = false → (s.w.heap.mb mb2).mPri ≠ none) := by
  obtain ⟨w1, h1, hself, heth, hh, hown⟩ := hc.first_turn stale mem
  have ho := hown mb2 List.mem_cons_self
  have hmbuf : w1.ethhdr mb2 = false → (w1.heap.mb mb2).mPri ≠ none := by
    intro he
    unfold Mbufs.Owned at ho
    rw [if_neg (by simp [he])] at ho
    exact mPri_ne_none hh ho
  obtain ⟨s, h2, hmb, hnext, hfreed, hheap⟩ := readTurn_self stale mem
    ⟨w1, some mb2, w.data mem mb1, (w.data mem mb1).length, [mb1]⟩ rfl (hself mb2 rfl) (by
      dsimp only
      rw [ho.look hh]
      exact fun he => pri_ne_none (hmbuf he))
  refine ⟨s, ?_, hmb, hnext, hfreed, ?_⟩
  · intro n
    rw [Loop.loop_next h1]
    exact Loop.loop_next h2 n
  · intro he
    rw [hheap, Mbufs.mFree_mPri]
    exact hmbuf (heth ▸ he)

/-- **The loop goes on for ever** when the second mbuf is not an Ethernet header. -/
theorem readTurn_never (hc : OwnedChain w own limbo (mb1 :: mb2 :: l))
    (he : w.ethhdr mb2 = false) (n : Nat) : mRead stale mem w (some mb1) false n = none := by
  obtain ⟨s, hs, hmb, hnext, -, hpri⟩ := hc.second_turn stale mem
  have hnever : loop (readTurn stale mem) n s = none := by
    refine Loop.loop_never
      (fun s => s.mb = some mb2 ∧ s.w.mNext mb2 = some mb2 ∧ (s.w.heap.mb mb2).mPri ≠ none) ?_
      ⟨hmb, hnext, hpri he⟩ n
    rintro s ⟨h1, h2, h3⟩
    obtain ⟨s', ht, h4, h5, -, h6⟩ := readTurn_self stale mem s h1 h2 fun _ => pri_ne_none h3
    refine ⟨s', ht, h4, h5, ?_⟩
    rw [h6, Mbufs.mFree_mPri]
    exact h3
  show loop _ n _ = none
  cases hr : loop (readTurn stale mem) n { w, mb := some mb1 } with
  | none => rfl
  | some r =>
    have hmono := Loop.loop_mono hr (show n ≤ n + 2 by omega)
    rw [hs n, hnever] at hmono
    cases hmono

/-! ## The result -/

/-- With a second mbuf the calls of `m_free` are not those of a drained chain. -/
theorem OwnedChain.not_drains (hc : OwnedChain w own limbo (mb1 :: mb2 :: l)) :
    ¬ Drains stale mem w (mb1 :: mb2 :: l) := by
  rintro ⟨n, r, hr, -, -, hfreed⟩
  obtain ⟨s, hs, hmb, hnext, hfr, -⟩ := hc.second_turn stale mem
  have hr1 : loop (readTurn stale mem) n { w, mb := some mb1 } = some r := hr
  have hr2 := Loop.loop_mono hr1 (show n ≤ n + 2 by omega)
  rw [hs n] at hr2
  -- the third turn frees the second mbuf again, and no turn takes a call back
  cases n with
  | zero => cases hr2
  | succ n =>
    have hthird : ∃ s', readTurn stale mem s = .inl s' ∧ s'.freed = [mb1, mb2, mb2] := by
      simp only [readTurn, hmb, hfr]
      exact ⟨_, rfl, rfl⟩
    obtain ⟨s', ht, hfr'⟩ := hthird
    rw [Loop.loop_next ht] at hr2
    have hpre : [mb1, mb2, mb2] <+: r.freed := by
      refine Loop.loop_keeps (fun s => [mb1, mb2, mb2] <+: s.freed) ?_ (hfr' ▸ List.prefix_rfl) hr2
      intro s s' hp hturn
      unfold readTurn at hturn
      cases h : s.mb with
      | none =>
        simp only [h, reduceCtorEq, Sum.inr.injEq, false_or] at hturn
        rw [← hturn]
        exact hp
      | some mb =>
        simp only [h, Sum.inl.injEq, reduceCtorEq, or_false] at hturn
        rw [← hturn]
        exact hp.trans (List.prefix_append _ _)
    rw [hfreed] at hpre
    have hnd := hc.nodup.sublist hpre.sublist
    simp at hnd

/-- **`m_read` drains a chain** exactly when the chain has at most one mbuf. -/
theorem m_read_drains_iff (stale : Mbufs → Block → Seen) (mem : Bufs) (w : Mbufs) (own : Finset Block)
    (limbo : Set Block) (chain : List Block) (hc : OwnedChain w own limbo chain) :
    Drains stale mem w chain ↔ chain.length ≤ 1 := by
  match chain, hc with
  | [], _ => exact ⟨fun _ => Nat.zero_le 1, fun _ => ⟨1, _, rfl, rfl, rfl, rfl⟩⟩
  | [mb], hc =>
    refine ⟨fun _ => Nat.le_refl 1, fun _ => ?_⟩
    obtain ⟨w', ht, -⟩ := hc.first_turn stale mem
    refine ⟨2, _, (Loop.loop_next ht 1).trans rfl, ?_, rfl, rfl⟩
    simp
  | mb1 :: mb2 :: l, hc =>
    refine ⟨fun hd => absurd hd hc.not_drains, fun hlen => ?_⟩
    simp only [List.length_cons] at hlen
    omega

/-- The descriptors of a run, as one chain. -/
def chained (s : Owners) (mNext : Block → Option Block) : Mbufs :=
  ⟨s.heap, mNext, fun _ => false, fun _ => []⟩

/-- An mbuf of five bytes. -/
theorem m_read_drains_five :
    Drains (fun _ _ => ⟨[], false⟩) (fun _ _ => 0) (chained fiveBytes fun _ => none)
    [⟨.lobuf, 0⟩] := by
  refine (m_read_drains_iff _ _ _ fiveBytes.own ∅ _ ⟨held_fiveBytes, by simp, ?_, ?_⟩).mpr (by decide)
  · intro mb l h
    cases h
    rfl
  · intro mb hm
    rw [List.mem_singleton.mp hm]
    show ⟨.lobuf, 0⟩ ∈ fiveBytes.own
    decide

/-- Two mbufs with a data buffer each. -/
def twoMbufs : Owners := [.get .MB_MID1 true, .get .MB_MID1 true].foldl Owners.step Owners.start

def secondBehindFirst : Block → Option Block :=
  Function.update (fun _ => none) ⟨.lobuf, 0⟩ (some ⟨.lobuf, 1⟩)

/-- The second mbuf of a chain is freed over and over again. -/
theorem m_read_never_ends :
    ¬ ∀ (stale : Mbufs → Block → Seen) (mem : Bufs) (w : Mbufs) (own : Finset Block) (limbo : Set Block)
      (chain : List Block), OwnedChain w own limbo chain → Drains stale mem w chain := by
  intro hall
  have hc : OwnedChain (chained twoMbufs secondBehindFirst) twoMbufs.own ∅
      [⟨.lobuf, 0⟩, ⟨.lobuf, 1⟩] := by
    refine ⟨held_run _ (by decide), by decide, ?_, ?_⟩
    · intro mb l h
      cases h
      exact ⟨rfl, rfl⟩
    · intro mb hm
      show mb ∈ twoMbufs.own
      revert mb
      decide
  obtain ⟨n, s, hr, -⟩ := hall (fun _ _ => ⟨[], false⟩) (fun _ _ => 0) _ _ _ _ hc
  rw [List.head?_cons, readTurn_never hc rfl n] at hr
  cases hr

end TnNet.Mem
