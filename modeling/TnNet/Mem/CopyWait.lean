import TnNet.Mem.Copy

/-!
# `m_copym` is a slice or nothing

`mCopym_exact_iff`: on any chain of owned descriptors, `m_copym` returns a chain with exactly the bytes
asked for, with one reference more for each descriptor of it, or `NULL` with the counts and the pools as
before; exactly when the first header it needs can be allocated, or it may wait for it.

A call that waits does what it would do if the blocks it is given had been free from the start
(`copyLoop_given`), so that the results for a call that does not wait are those for it.
-/

set_option autoImplicit false

namespace TnNet.Mem

namespace Heap

variable {h h1 : Heap} {own : Finset Block} {limbo : Set Block} {b p t : Block} {chain copies : List Block}
  {offset len orgLen total : Int} {given : List Block} {wait w : Wait}

/-! ## The blocks a task is given -/

/-- The heap in which the blocks are free. -/
def withGiven (h : Heap) (given : List Block) : Heap :=
  { h with free := Function.update h.free .lobuf (h.free .lobuf ++ given) }

@[simp] theorem withGiven_mb (h : Heap) (given : List Block) : (h.withGiven given).mb = h.mb := rfl

@[simp] theorem withGiven_lobuf (h : Heap) (given : List Block) :
    (h.withGiven given).free .lobuf = h.free .lobuf ++ given := by
  simp [withGiven]

theorem withGiven_of_ne {q : Pool} (hq : q ≠ .lobuf) (h : Heap) (given : List Block) :
    (h.withGiven given).free q = h.free q := by
  simp [withGiven, Function.update_of_ne hq]

theorem withGiven_set (h : Heap) (b : Block) (d : Desc) :
    (h.withGiven given).set b d = (h.set b d).withGiven given := rfl

theorem withGiven_put (h : Heap) (q : Pool) (b : Block) :
    (h.withGiven given).put q b = (h.put q b).withGiven given := by
  unfold put withGiven
  refine congrArg (Heap.mk _) ?_
  dsimp only
  rcases eq_or_ne q .lobuf with rfl | hq
  · simp
  · rw [Function.update_of_ne hq, Function.update_of_ne (Ne.symm hq), Function.update_comm hq]

theorem withGiven_releasePrimary (h : Heap) (p : Block) :
    (h.withGiven given).releasePrimary p = (h.releasePrimary p).withGiven given := by
  unfold releasePrimary tnNetFreeMin tnNetFreePool
  simp only [withGiven_mb]
  split
  · rw [withGiven_put, withGiven_put]
  · rw [withGiven_put]

theorem withGiven_mFree (h : Heap) (b : Block) :
    (h.withGiven given).mFree b = (h.mFree b).withGiven given := by
  unfold mFree
  have hpri : (h.withGiven given).pri b = h.pri b := rfl
  rw [hpri]
  cases h.pri b with
  | none => rfl
  | some p =>
    have hite : ∀ {c : Prop} [Decidable c] (h1 h2 : Heap),
        (if c then h1.withGiven given else h2.withGiven given) =
        (if c then h1 else h2).withGiven given :=
        fun h1 h2 => (apply_ite (fun h => withGiven h given) ..).symm
    dsimp only
    rw [withGiven_mb, withGiven_set, hite]
    generalize (if (h.mb p).mRefcnt ≠ 0 then _ else h) = h1
    rw [withGiven_releasePrimary, hite]
    generalize (if (h.mb p).mRefcnt = 1 then _ else h1) = h2
    unfold tnNetFreeMin
    rw [withGiven_mb, withGiven_put, hite]

theorem withGiven_mFreem (chain : List Block) (h : Heap) :
    (h.withGiven given).mFreem chain = (h.mFreem chain).withGiven given := by
  unfold mFreem
  induction chain generalizing h with
  | nil => rfl
  | cons b l ih => rw [List.foldl_cons, List.foldl_cons, withGiven_mFree, ih]

/-! ## A header -/

theorem waitHdr_ne_null : h.waitHdr (.MB_WAIT given) ≠ .null := by
  unfold waitHdr
  split
  · simp
  · split <;> simp_all

/-- A header that is waited for is one that is free from the start. -/
theorem waitHdr_given (hw : h.waitHdr (.MB_WAIT given) = .block t h1 w) :
    ∃ n, w = .MB_WAIT (given.drop n) ∧
      (h.withGiven given).waitHdr .MB_NOWAIT = .block t (h1.withGiven (given.drop n)) .MB_NOWAIT := by
  unfold waitHdr mAllocHdr alloc at hw ⊢
  rw [withGiven_lobuf]
  cases hf : h.free .lobuf with
  | cons c l =>
    rw [hf] at hw
    cases hw
    refine ⟨0, rfl, ?_⟩
    simp [withGiven, set]
  | nil =>
    rw [hf] at hw
    cases given with
    | nil => cases hw
    | cons c given =>
      cases hw
      refine ⟨1, rfl, ?_⟩
      simp [withGiven, set, hf]

/-- The headers there are, in the pool and to come. -/
def headers (h : Heap) (wait : Wait) : Nat := (h.free .lobuf).length + wait.given.length

theorem headers_block (hw : h.waitHdr wait = .block t h1 w) : h.headers wait = h1.headers w + 1 := by
  unfold waitHdr at hw
  cases ha : h.mAllocHdr with
  | some r =>
    rw [ha] at hw
    cases hw
    unfold headers
    rw [(mAllocHdr_free ha).1, List.length_cons]
    omega
  | none =>
    rw [ha] at hw
    cases wait with
    | MB_NOWAIT => cases hw
    | MB_WAIT given =>
      cases given with
      | nil => cases hw
      | cons c given =>
        cases hw
        unfold headers Wait.given
        rw [List.length_cons]
        rfl

theorem headers_waits (hw : h.waitHdr wait = .waits) : wait ≠ .MB_NOWAIT ∧ h.headers wait = 0 := by
  unfold waitHdr at hw
  cases ha : h.mAllocHdr with
  | some r =>
    rw [ha] at hw
    cases hw
  | none =>
    rw [ha] at hw
    cases wait with
    | MB_NOWAIT => cases hw
    | MB_WAIT given =>
      cases given with
      | cons c given => cases hw
      | nil =>
        unfold headers
        rw [mAllocHdr_none ha]
        exact ⟨by simp, rfl⟩

/-! ## The loop -/

/-- A call that waits does what it would do with the blocks in the pool. -/
theorem copyLoop_given (orgLen : Int) (chain : List Block) :
    ∀ {offset len total : Int} {copies given : List Block} {h : Heap},
      (copyLoop orgLen chain offset len total copies (.MB_WAIT given) h).2 ≠ .waits →
      ∃ n, copyLoop orgLen chain offset len total copies .MB_NOWAIT (h.withGiven given) =
        ((copyLoop orgLen chain offset len total copies (.MB_WAIT given) h).1.withGiven (given.drop n),
          (copyLoop orgLen chain offset len total copies (.MB_WAIT given) h).2) := by
  induction chain with
  | nil =>
    intro offset len total copies given h _
    exact ⟨0, by rw [copyLoop, copyLoop, withGiven_mFreem, List.drop_zero]⟩
  | cons mb rest ih =>
    intro offset len total copies given h hne
    unfold copyLoop at hne ⊢
    cases hw : h.waitHdr (.MB_WAIT given) with
    | null => exact absurd hw waitHdr_ne_null
    | waits =>
      rw [hw] at hne
      exact absurd rfl hne
    | block t h1 w =>
      obtain ⟨n, rfl, heq⟩ := waitHdr_given hw
      rw [hw] at hne
      rw [heq]
      have hpri : (h1.withGiven (given.drop n)).pri mb = h1.pri mb := rfl
      simp only [hpri] at hne ⊢
      cases hp : h1.pri mb with
      | none => exact ⟨n, rfl⟩
      | some p =>
        simp only [hp] at hne ⊢
        have hdesc : (h1.withGiven (given.drop n)).copyDesc mb p copies.isEmpty offset len =
            h1.copyDesc mb p copies.isEmpty offset len := rfl
        have hset : ((h1.withGiven (given.drop n)).incRef p).set t
            (h1.copyDesc mb p copies.isEmpty offset len) =
            ((h1.incRef p).set t (h1.copyDesc mb p copies.isEmpty offset len)).withGiven
            (given.drop n) := rfl
        rw [hdesc, hset]
        generalize h1.copyDesc mb p copies.isEmpty offset len = d at hne ⊢
        generalize (h1.incRef p).set t d = h2 at hne ⊢
        by_cases hfin : len - d.mLen ≤ 0
        · simp only [if_pos hfin]
          by_cases htot : total + d.mLen ≠ orgLen
          · simp only [if_pos htot, withGiven_mFreem]
            exact ⟨n, rfl⟩
          · simp only [if_neg htot]
            exact ⟨n, rfl⟩
        · simp only [if_neg hfin] at hne ⊢
          obtain ⟨m, hm⟩ := ih hne
          refine ⟨n + m, ?_⟩
          rw [hm, List.drop_drop]

/-- A call waits for ever only when there are fewer headers than descriptors. -/
theorem copyLoop_waits (orgLen : Int) (chain : List Block) :
    ∀ {offset len total : Int} {copies : List Block} {wait : Wait} {h : Heap},
      (copyLoop orgLen chain offset len total copies wait h).2 = .waits →
      wait ≠ .MB_NOWAIT ∧ h.headers wait < chain.length := by
  induction chain with
  | nil =>
    intro offset len total copies wait h hw
    cases hw
  | cons mb rest ih =>
    intro offset len total copies wait h hres
    unfold copyLoop at hres
    cases hw : h.waitHdr wait with
    | null =>
      simp only [hw] at hres
      split at hres
      · cases hres
      · split at hres <;> cases hres
    | waits =>
      obtain ⟨h1, h2⟩ := headers_waits hw
      exact ⟨h1, by rw [h2, List.length_cons]; omega⟩
    | block t h1 w =>
      have hcount := headers_block hw
      simp only [hw] at hres
      split at hres
      · cases hres
      · rename_i p hp
        split at hres
        · split at hres <;> cases hres
        · obtain ⟨h3, h4⟩ := ih hres
          have hsame : ((h1.incRef p).set t (h1.copyDesc mb p copies.isEmpty offset len)).headers w =
              h1.headers w := rfl
          rw [hsame] at h4
          refine ⟨?_, by rw [List.length_cons]; omega⟩
          rintro rfl
          unfold waitHdr at hw
          split at hw
          · cases hw
            exact h3 rfl
          · cases hw

/-! ## The blocks that others release -/

/-- What the others release are blocks of `lobuf_mpool` that they have. -/
structure Gives (limbo : Set Block) (wait : Wait) : Prop where
  nodup : wait.given.Nodup
  limbo : ∀ b ∈ wait.given, b ∈ limbo
  pool : ∀ b ∈ wait.given, b.pool = .lobuf

theorem gives_noWait (limbo : Set Block) : Gives limbo .MB_NOWAIT :=
  ⟨List.nodup_nil, fun _ hb => absurd hb List.not_mem_nil, fun _ hb => absurd hb List.not_mem_nil⟩

theorem Held.withGiven (hh : Held h own limbo) (hg : Gives limbo (.MB_WAIT given)) :
    Held (h.withGiven given) own (limbo \ { b | b ∈ given }) := by
  have hlists := hh.lists
  have hkeeps : ∀ x ∈ h.InUse own, Keeps h (h.withGiven given) x := fun x _ => .of_eq rfl
  constructor
  case sharing => exact hh.sharing.frame hkeeps
  case counted => exact hh.counted
  case apart => exact fun x hx => hh.apart x hx.1
  case lists =>
    show FreeList.Exact Block.pool Block.valid (h.withGiven given).free
      (h.InUse own ∪ limbo \ { b | b ∈ given })
    constructor
    case nodup =>
      intro q
      rcases eq_or_ne q .lobuf with rfl | hq
      · rw [withGiven_lobuf, List.nodup_append]
        refine ⟨hlists.nodup _, hg.nodup, ?_⟩
        rintro x hx y hy rfl
        exact ((hlists.mem_iff _ x).mp hx).2.2 (.inr (hg.limbo x hy))
      · rw [withGiven_of_ne hq]
        exact hlists.nodup q
    case mem_iff =>
      intro q x
      have hgiven : x ∈ given → x ∈ limbo ∧ x ∉ h.InUse own ∧ x.pool = .lobuf := fun hx =>
        ⟨hg.limbo x hx, hh.apart x (hg.limbo x hx), hg.pool x hx⟩
      have hx := hlists.mem_iff q x
      simp only [Set.mem_union, Set.mem_sdiff, Set.mem_ofPred_eq, not_or, not_and, not_not] at hx ⊢
      rcases eq_or_ne q .lobuf with rfl | hq
      · rw [withGiven_lobuf, List.mem_append, hx]
        constructor
        · rintro (⟨h1, h2, h3, h4⟩ | hmem)
          · exact ⟨h1, h2, h3, fun hl => absurd hl h4⟩
          · obtain ⟨h1, h2, h3⟩ := hgiven hmem
            exact ⟨h3, hlists.isBlock x (.inr h1), h2, fun _ => hmem⟩
        · rintro ⟨h1, h2, h3, h4⟩
          by_cases hl : x ∈ limbo
          · exact .inr (h4 hl)
          · exact .inl ⟨h1, h2, h3, hl⟩
      · rw [withGiven_of_ne hq, hx]
        refine and_congr_right fun h1 => and_congr_right fun _ => and_congr_right fun _ => ?_
        refine ⟨fun hl hc => absurd hc hl, fun hl hc => hq ?_⟩
        rw [← h1, (hgiven (hl hc)).2.2]
    case isBlock =>
      rintro x (hx | hx)
      · exact hlists.isBlock x (.inl hx)
      · exact hlists.isBlock x (.inr hx.1)

/-! ## A slice, or nothing -/

/-- A slice with its references, or nothing: the pools are as before, with what others have released
    meanwhile.  A call that still waits has fewer headers than there are descriptors. -/
def Exact (own : Finset Block) (h : Heap) (chain : List Block) (offset len : Int) (wait : Wait)
    (r : Heap × Copy) : Prop :=
  match r.2 with
  | .wild => False
  | .waits => wait ≠ .MB_NOWAIT ∧ h.headers wait < chain.length
  | .null => (∀ p, h.IsRoot own p → (r.1.mb p).mRefcnt = (h.mb p).mRefcnt) ∧
      (∃ n, (r.1.free .lobuf).Perm (h.free .lobuf ++ wait.given.take n)) ∧
      ∀ q, q ≠ .lobuf → (r.1.free q).Perm (h.free q)
  | .chain copies => 0 < len ∧ 0 ≤ offset ∧ offset + len ≤ h.chainLen chain ∧
      (∀ mem, r.1.chainBytes mem copies = ((h.chainBytes mem chain).drop offset.toNat).take len.toNat) ∧
      (∃ t ts, copies = t :: ts ∧ ((r.1.mb t).mTlen.toNat : Int) = len) ∧
      ∀ p, h.IsRoot own p → (r.1.mb p).mRefcnt.toNat =
        (h.mb p).mRefcnt.toNat + copies.countP fun t => decide (r.1.pri t = some p)

/-- A call that does not wait, and can allocate its first header. -/
theorem exact_noWait (hh : Held h own limbo) (hnd : chain.Nodup) (hown : ∀ b ∈ chain, b ∈ own)
    (hbuf : ∀ b ∈ chain, h.InBuf b) (ho : 0 ≤ offset) (hl : 0 < len)
    (hroom : offset < h.chainLen chain → h.free .lobuf ≠ []) :
    Exact own h chain offset len .MB_NOWAIT (h.mCopym chain offset len .MB_NOWAIT) := by
  have hres := mCopym_result hh hown ho hl hroom
  unfold CopymResult at hres
  unfold Exact
  generalize h.mCopym chain offset len .MB_NOWAIT = r at hres ⊢
  obtain ⟨h', res⟩ := r
  cases res with
  | wild => exact hres
  | waits => exact hres.elim
  | null =>
    obtain ⟨hcounts, hfree⟩ := hh.unchanged hres.1 hres.2.1
    exact ⟨hcounts, ⟨0, by simpa [Wait.given] using hfree .lobuf⟩, fun q _ => hfree q⟩
  | chain copies =>
    have hs := hres
    have hlt := chainLen_lt hh hnd hown hbuf
    have hin := hs.inside
    refine ⟨hl, ho, hin, hs.bytes, ?_, ?_⟩
    · obtain ⟨t, ts, hts, ht⟩ := hs.head
      refine ⟨t, ts, hts, ?_⟩
      rw [ht rfl, BitVec.toNat_ofInt]
      omega
    · intro p hp
      have hnd' : copies.Nodup := by simpa using hs.nodup
      exact hh.recount (by simpa using hs.held) hnd' (fun b hb hbo => hs.fresh b hb (.inl hbo))
        (fun x hx => hs.same x (by simpa using hx)) hp

theorem length_skip (chain : List Block) (offset : Int) :
    (h.skip chain offset).1.length ≤ chain.length := by
  induction chain generalizing offset with
  | nil => exact Nat.le_refl _
  | cons mb rest ih =>
    unfold skip
    split
    · exact (ih _).trans (Nat.le_succ _)
    · exact Nat.le_refl _

/-- A call that waits, by what it would do with the blocks in the pool. -/
theorem mCopym_given (h : Heap) (chain : List Block) (offset len : Int) (given : List Block) :
    ((h.mCopym chain offset len (.MB_WAIT given)).2 = .waits ∧ h.headers (.MB_WAIT given) < chain.length) ∨
      ∃ n, (h.withGiven given).mCopym chain offset len .MB_NOWAIT =
        ((h.mCopym chain offset len (.MB_WAIT given)).1.withGiven (given.drop n),
          (h.mCopym chain offset len (.MB_WAIT given)).2) := by
  have hskip : (h.withGiven given).skip chain offset = h.skip chain offset := by
    induction chain generalizing offset with
    | nil => rfl
    | cons mb rest ih =>
      unfold skip
      rw [ih]
      rfl
  have hlen := @length_skip h chain offset
  unfold mCopym
  rw [hskip]
  split
  · exact .inr ⟨0, rfl⟩
  · split
    · exact .inr ⟨0, rfl⟩
    · rename_i mb rest off heq
      rw [heq] at hlen
      by_cases hw : (copyLoop len (mb :: rest) off len 0 [] (.MB_WAIT given) h).2 = .waits
      · exact .inl ⟨hw, Nat.lt_of_lt_of_le (copyLoop_waits _ _ hw).2 hlen⟩
      · exact .inr (copyLoop_given len (mb :: rest) hw)

/-- Without any header the task waits. -/
theorem mCopym_waits (hs : Sharing h own) (hown : ∀ b ∈ chain, b ∈ own) (ho : 0 ≤ offset) (hl : 0 < len)
    (hin : offset < h.chainLen chain) (hnil : h.free .lobuf = []) :
    (h.mCopym chain offset len (.MB_WAIT [])).2 = .waits := by
  obtain ⟨mb, rest, off, heq⟩ := mCopym_loop hs hown ho hl hin (.MB_WAIT [])
  rw [heq]
  simp only [copyLoop, waitHdr, mAllocHdr_of_nil hnil]

end Heap

open Heap

/-- **`m_copym` is an exact slice or has no effect** exactly when the first header it needs, for a slice
    that begins in the chain, can be allocated or waited for. -/
theorem mCopym_exact_iff (h : Heap) (own : Finset Block) (limbo : Set Block) (chain : List Block)
    (offset len : Int) (wait : Wait) (hh : Held h own limbo) (hg : Gives limbo wait) (hnd : chain.Nodup)
    (hown : ∀ b ∈ chain, b ∈ own) (hbuf : ∀ b ∈ chain, h.InBuf b) :
    Exact own h chain offset len wait (h.mCopym chain offset len wait) ↔
      (0 ≤ offset → 0 < len → offset < h.chainLen chain → h.free .lobuf ≠ [] ∨
        wait ≠ .MB_NOWAIT) := by
  by_cases hargs : 0 ≤ offset ∧ 0 < len
  swap
  · have hnull : h.mCopym chain offset len wait = (h, .null) := by
      unfold mCopym
      rw [if_pos (by omega)]
    rw [hnull]
    constructor
    · intro _ ho hl
      exact absurd ⟨ho, hl⟩ hargs
    · exact fun _ => ⟨fun _ _ => rfl, ⟨0, by simp⟩, fun _ _ => .refl _⟩
  obtain ⟨ho, hl⟩ := hargs
  cases wait with
  | MB_NOWAIT =>
    constructor
    · intro hex _ _ hin
      refine .inl fun hnil => ?_
      unfold Exact at hex
      rw [mCopym_noHeader hh.sharing hown ho hl hin hnil] at hex
      exact hex
    · exact fun hroom => exact_noWait hh hnd hown hbuf ho hl fun hin =>
        (hroom ho hl hin).resolve_right (by simp)
  | MB_WAIT given =>
    refine iff_of_true ?_ fun _ _ _ => .inr (by simp)
    rcases mCopym_given h chain offset len given with ⟨hw, hlt⟩ | ⟨n, heq⟩
    · unfold Exact
      rw [hw]
      exact ⟨by simp, hlt⟩
    -- the call is the one that finds the blocks in the pool
    have hex : Exact own (h.withGiven given) chain offset len .MB_NOWAIT
        ((h.withGiven given).mCopym chain offset len .MB_NOWAIT) := by
      have hh' := hh.withGiven hg
      refine exact_noWait hh' hnd hown hbuf ho hl fun hin hnil => ?_
      -- without any header the two calls would differ
      have hwild := mCopym_noHeader hh'.sharing hown ho hl hin hnil
      rw [withGiven_lobuf, List.append_eq_nil_iff] at hnil
      obtain ⟨hnil, rfl⟩ := hnil
      rw [heq, show (h.mCopym chain offset len (.MB_WAIT [])).2 = .waits from
        mCopym_waits hh.sharing hown ho hl hin hnil] at hwild
      cases hwild
    rw [heq] at hex
    generalize h.mCopym chain offset len (.MB_WAIT given) = r at hex ⊢
    obtain ⟨h', res⟩ := r
    unfold Exact at hex ⊢
    cases res with
    | wild => exact hex
    | waits => exact absurd rfl hex.1
    | chain copies => exact hex
    | null =>
      obtain ⟨hcounts, ⟨m, hlobuf⟩, hothers⟩ := hex
      refine ⟨hcounts, ⟨n, ?_⟩, fun q hq => ?_⟩
      · rw [withGiven_lobuf, withGiven_lobuf] at hlobuf
        refine (List.perm_append_right_iff (given.drop n)).mp (hlobuf.trans ?_)
        simp [Wait.given]
      · have := hothers q hq
        rwa [withGiven_of_ne hq, withGiven_of_ne hq] at this

theorem mCopym_exact_three :
    Exact fiveBytes.own fiveBytes.heap [⟨.lobuf, 0⟩] 1 3 .MB_NOWAIT
      (fiveBytes.heap.mCopym [⟨.lobuf, 0⟩] 1 3 .MB_NOWAIT) := by
  refine (mCopym_exact_iff _ _ ∅ [⟨.lobuf, 0⟩] 1 3 .MB_NOWAIT held_fiveBytes (gives_noWait ∅)
    (by decide) (by decide) ?_).mpr (by decide)
  intro b hb p hp
  rw [List.mem_singleton.mp hb] at hp ⊢
  cases hp
  decide

/-- All headers are taken, one of them with a byte of data. -/
def noHeaders : Owners := noHeadersRun.dropLast.foldl Owners.step Owners.start

theorem held_noHeaders : Held noHeaders.heap noHeaders.own ∅ := held_run _ (by decide +kernel)

theorem noHeaders_wild : ⟨.lobuf, 0⟩ ∈ noHeaders.own ∧
    noHeaders.heap.pri ⟨.lobuf, 0⟩ = some ⟨.lobuf, 0⟩ ∧
    (noHeaders.heap.mb ⟨.lobuf, 0⟩).mData + (noHeaders.heap.mb ⟨.lobuf, 0⟩).mLen ≤
      mGetDbufSize (noHeaders.heap.mb ⟨.lobuf, 0⟩).mDbtype ∧
    (noHeaders.heap.mCopym [⟨.lobuf, 0⟩] 0 1 .MB_NOWAIT).2 = .wild := by
  decide +kernel

/-- `m_copym` writes through `NULL`. -/
theorem mCopym_wild :
    ¬ ∀ (h : Heap) (own : Finset Block) (limbo : Set Block) (chain : List Block) (offset len : Int)
      (wait : Wait), Held h own limbo → Gives limbo wait → chain.Nodup → (∀ b ∈ chain, b ∈ own) →
      (∀ b ∈ chain, h.InBuf b) →
      Exact own h chain offset len wait (h.mCopym chain offset len wait) := by
  intro hall
  have hheld := held_noHeaders
  have hfacts := noHeaders_wild
  generalize noHeaders = s at *
  obtain ⟨hmem, hpri, hbuf, hwild⟩ := hfacts
  have hex :=
    hall s.heap s.own ∅ [⟨.lobuf, 0⟩] 0 1 .MB_NOWAIT hheld (gives_noWait ∅) (List.nodup_singleton _)
    (by simpa using hmem) ?_
  · unfold Exact at hex
    rw [hwild] at hex
    exact hex
  · intro b hb p hp
    rw [List.mem_singleton.mp hb] at hp ⊢
    rw [hpri] at hp
    cases hp
    exact hbuf

end TnNet.Mem
