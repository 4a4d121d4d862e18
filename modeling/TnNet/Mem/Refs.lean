import TnNet.Lib.FreeList
import TnNet.Mem.Heap

/-!
# Reference counts of data buffers

`RefOk`: the `m_refcnt` of a primary descriptor is the number of the descriptors, its own one among
them, that designate its data buffer and were not freed; the free list of every pool holds, each once,
the blocks that are neither such a descriptor nor the primary descriptor of one nor its data buffer.

`Held` is the invariant behind it while a call is under way, with the blocks that are neither on a free
list nor in use yet.  `refs_ok` says that `RefOk` holds in every state of every run on owned chains in
which every `m_copym` that has something to copy finds a free header: when it does not, `m_copym` counts
a reference that no descriptor holds.
-/

set_option autoImplicit false

namespace TnNet.Mem

namespace Heap

variable {h h' : Heap} {own : Finset Block} {limbo : Set Block} {b d p t x : Block}

/-- The descriptors that designate the data buffer of `p`. -/
def live (h : Heap) (own : Finset Block) (p : Block) : Finset Block :=
  own.filter fun b => h.pri b = some p

/-- `p` is the primary descriptor of a descriptor. -/
def IsRoot (h : Heap) (own : Finset Block) (p : Block) : Prop := (h.live own p).Nonempty

/-- A descriptor, a primary descriptor or a data buffer. -/
def InUse (h : Heap) (own : Finset Block) : Set Block :=
  { x | x ∈ own ∨ h.IsRoot own x ∨ ∃ p, h.IsRoot own p ∧ (h.mb p).mDbuf = some x }

theorem mem_inUse : x ∈ h.InUse own ↔
    x ∈ own ∨ h.IsRoot own x ∨ ∃ p, h.IsRoot own p ∧ (h.mb p).mDbuf = some x := Iff.rfl

theorem mem_live : b ∈ h.live own p ↔ b ∈ own ∧ h.pri b = some p := by simp [live]

theorem isRoot_of_pri (hb : b ∈ own) (hp : h.pri b = some p) : h.IsRoot own p :=
  ⟨b, mem_live.mpr ⟨hb, hp⟩⟩

theorem IsRoot.inUse (hp : h.IsRoot own p) : p ∈ h.InUse own := .inr (.inl hp)

@[simp] theorem set_mb_self (h : Heap) (b : Block) (d : Desc) : (h.set b d).mb b = d := by simp [set]

theorem set_mb_ne (hx : x ≠ b) (d : Desc) : (h.set b d).mb x = h.mb x := by
  simp [set, Function.update_of_ne hx]

@[simp] theorem set_free (h : Heap) (b : Block) (d : Desc) : (h.set b d).free = h.free := rfl

theorem pri_congr (hx : h'.mb x = h.mb x) : h'.pri x = h.pri x := by rw [pri, pri, hx]

/-! ## Sharing of data buffers -/

/-- A primary descriptor and its data buffer, which `m_free` gives back to the pool it came from. -/
structure Root (h : Heap) (p d : Block) : Prop where
  pool : p.pool = .lobuf
  self : h.pri p = some p
  noalloc : (h.mb p).noalloc = false
  dbuf : (h.mb p).mDbuf = some d
  place : freePool (h.mb p).mDbtype d = d.pool

/-- Every descriptor has a primary descriptor, and every primary descriptor a data buffer of its own. -/
structure Sharing (h : Heap) (own : Finset Block) : Prop where
  hdr : ∀ b ∈ own, b.pool = .lobuf ∧ ∃ p, h.pri b = some p
  self : ∀ b ∈ own, (h.mb b).dbhdr = true → (h.mb b).mPri = some b
  root : ∀ p, h.IsRoot own p → ∃ d, h.Root p d
  inj : ∀ p p', h.IsRoot own p → h.IsRoot own p' → (h.mb p).mDbuf = (h.mb p').mDbuf → p = p'
  apart : ∀ p d, h.IsRoot own p → (h.mb p).mDbuf = some d → d ∉ own ∧ ¬ h.IsRoot own d

/-- The references are the same in both heaps. -/
structure Keeps (h h' : Heap) (x : Block) : Prop where
  pri : h'.pri x = h.pri x
  dbhdr : (h'.mb x).dbhdr = true → (h.mb x).dbhdr = true
  mPri : (h'.mb x).mPri = (h.mb x).mPri
  noalloc : (h.mb x).noalloc = false → (h'.mb x).noalloc = false
  mDbuf : (h'.mb x).mDbuf = (h.mb x).mDbuf
  mDbtype : (h'.mb x).mDbtype = (h.mb x).mDbtype

theorem Keeps.of_eq (hx : h'.mb x = h.mb x) : Keeps h h' x :=
  ⟨pri_congr hx, by rw [hx]; exact id, by rw [hx], by rw [hx]; exact id, by rw [hx], by rw [hx]⟩

theorem Keeps.trans {h'' : Heap} (h1 : Keeps h h' x) (h2 : Keeps h' h'' x) : Keeps h h'' x :=
  ⟨h2.pri.trans h1.pri, h1.dbhdr ∘ h2.dbhdr, h2.mPri.trans h1.mPri, h2.noalloc ∘ h1.noalloc,
    h2.mDbuf.trans h1.mDbuf, h2.mDbtype.trans h1.mDbtype⟩

theorem live_congr (hk : ∀ b ∈ own, h'.pri b = h.pri b) (p : Block) : h'.live own p = h.live own p := by
  refine Finset.filter_congr fun b hb => ?_
  rw [hk b hb]

theorem Root.keeps (hr : h.Root p d) (hk : Keeps h h' p) : h'.Root p d := by
  constructor
  · exact hr.pool
  · exact hk.pri.trans hr.self
  · exact hk.noalloc hr.noalloc
  · exact hk.mDbuf.trans hr.dbuf
  · rw [hk.mDbtype]
    exact hr.place

section Frame

variable (hk : ∀ x ∈ h.InUse own, Keeps h h' x)
include hk

theorem live_frame (p : Block) : h'.live own p = h.live own p :=
  live_congr (fun b hb => (hk b (.inl hb)).pri) p

theorem isRoot_frame : h'.IsRoot own p ↔ h.IsRoot own p := by rw [IsRoot, IsRoot, live_frame hk]

theorem inUse_frame : h'.InUse own = h.InUse own := by
  ext x
  simp only [mem_inUse, isRoot_frame hk]
  refine or_congr Iff.rfl (or_congr Iff.rfl (exists_congr fun p => and_congr_right fun hp => ?_))
  rw [(hk p hp.inUse).mDbuf]

/-- Whatever is not in use may change, and the lengths and counts may. -/
theorem Sharing.frame (hs : Sharing h own) : Sharing h' own := by
  constructor
  case hdr =>
    intro b hb
    rw [(hk b (.inl hb)).pri]
    exact hs.hdr b hb
  case self =>
    intro b hb hd
    rw [(hk b (.inl hb)).mPri]
    exact hs.self b hb ((hk b (.inl hb)).dbhdr hd)
  case root =>
    intro p hp
    rw [isRoot_frame hk] at hp
    obtain ⟨d, hd⟩ := hs.root p hp
    exact ⟨d, hd.keeps (hk p hp.inUse)⟩
  case inj =>
    intro p p' hp hp' heq
    rw [isRoot_frame hk] at hp hp'
    rw [(hk p hp.inUse).mDbuf, (hk p' hp'.inUse).mDbuf] at heq
    exact hs.inj p p' hp hp' heq
  case apart =>
    intro p d hp hd
    rw [isRoot_frame hk] at hp ⊢
    rw [(hk p hp.inUse).mDbuf] at hd
    exact hs.apart p d hp hd

end Frame

theorem live_insert : h.live (insert b own) p =
    if h.pri b = some p then insert b (h.live own p) else h.live own p :=
  Finset.filter_insert ..

theorem live_erase : h.live (own.erase b) p = (h.live own p).erase b :=
  Finset.filter_erase ..

/-! ### A new primary descriptor -/

theorem live_of_not_root (hp : ¬ h.IsRoot own p) : h.live own p = ∅ :=
  Finset.not_nonempty_iff_eq_empty.mp hp

theorem isRoot_insertPrim (hr : h.Root p d) :
    h.IsRoot (insert p own) x ↔ x = p ∨ h.IsRoot own x := by
  rw [IsRoot, live_insert, hr.self]
  rcases eq_or_ne x p with rfl | hx
  · simp
  · rw [if_neg (by simpa using hx.symm), IsRoot]
    simp [hx]

theorem Sharing.insertPrim (hs : Sharing h own) (hp : p ∉ h.InUse own) (hd : d ∉ h.InUse own)
    (hpd : p ≠ d) (hr : h.Root p d) (hself : (h.mb p).mPri = some p) : Sharing h (insert p own) := by
  have hbuf : ∀ q, h.IsRoot own q → (h.mb q).mDbuf ≠ some d :=
    fun q hq hqd => hd (.inr (.inr ⟨q, hq, hqd⟩))
  constructor
  case hdr =>
    intro b hb
    rcases Finset.mem_insert.mp hb with rfl | hb
    · exact ⟨hr.pool, b, hr.self⟩
    · exact hs.hdr b hb
  case self =>
    intro b hb
    rcases Finset.mem_insert.mp hb with rfl | hb
    · exact fun _ => hself
    · exact hs.self b hb
  case root =>
    intro q hq
    rcases (isRoot_insertPrim hr).mp hq with rfl | hq
    · exact ⟨d, hr⟩
    · exact hs.root q hq
  case inj =>
    intro q q' hq hq' heq
    rcases (isRoot_insertPrim hr).mp hq with rfl | h1 <;>
      rcases (isRoot_insertPrim hr).mp hq' with h2 | h2
    · exact h2.symm
    · rw [hr.dbuf] at heq
      exact absurd heq.symm (hbuf q' h2)
    · rw [h2, hr.dbuf] at heq
      exact absurd heq (hbuf q h1)
    · exact hs.inj q q' h1 h2 heq
  case apart =>
    intro q e hq he
    rw [Finset.mem_insert, isRoot_insertPrim hr, not_or, not_or]
    rcases (isRoot_insertPrim hr).mp hq with rfl | hq
    · rw [hr.dbuf] at he
      cases he
      exact ⟨⟨hpd.symm, fun hb => hd (.inl hb)⟩, hpd.symm, fun hr => hd hr.inUse⟩
    · have hep : e ≠ p := by
        intro heq
        rw [heq] at he
        exact hp (.inr (.inr ⟨q, hq, he⟩))
      obtain ⟨h1, h2⟩ := hs.apart q e hq he
      exact ⟨⟨hep, h1⟩, hep, h2⟩

theorem inUse_insertPrim (hr : h.Root p d) : h.InUse (insert p own) = h.InUse own ∪ {p, d} := by
  ext x
  simp only [mem_inUse, isRoot_insertPrim hr, Finset.mem_insert, Set.mem_union, Set.mem_insert_iff,
    Set.mem_singleton_iff]
  constructor
  · rintro ((hx | hx) | (hx | hx) | ⟨q, rfl | hq, hx⟩)
    · exact .inr (.inl hx)
    · exact .inl (.inl hx)
    · exact .inr (.inl hx)
    · exact .inl (.inr (.inl hx))
    · rw [hr.dbuf] at hx
      exact .inr (.inr (Option.some_inj.mp hx).symm)
    · exact .inl (.inr (.inr ⟨q, hq, hx⟩))
  · rintro ((hx | hx | ⟨q, hq, hx⟩) | hx | rfl)
    · exact .inl (.inr hx)
    · exact .inr (.inl (.inr hx))
    · exact .inr (.inr ⟨q, .inr hq, hx⟩)
    · exact .inl (.inl hx)
    · exact .inr (.inr ⟨p, .inl rfl, hr.dbuf⟩)

/-! ### A new copy -/

theorem isRoot_insertCopy (ht : h.pri t = some p) (hp : h.IsRoot own p) :
    h.IsRoot (insert t own) x ↔ h.IsRoot own x := by
  rw [IsRoot, live_insert, ht, IsRoot]
  rcases eq_or_ne x p with rfl | hx
  · rw [if_pos rfl]
    exact ⟨fun _ => hp, fun _ => Finset.insert_nonempty _ _⟩
  · rw [if_neg (by simpa using hx.symm)]

theorem Sharing.insertCopy (hs : Sharing h own) (ht : t ∉ h.InUse own) (hpool : t.pool = .lobuf)
    (hpri : h.pri t = some p) (hp : h.IsRoot own p) (hdb : (h.mb t).dbhdr = false) :
    Sharing h (insert t own) := by
  constructor
  case hdr =>
    intro b hb
    rcases Finset.mem_insert.mp hb with rfl | hb
    · exact ⟨hpool, p, hpri⟩
    · exact hs.hdr b hb
  case self =>
    intro b hb hd
    rcases Finset.mem_insert.mp hb with rfl | hb
    · rw [hdb] at hd
      cases hd
    · exact hs.self b hb hd
  case root => exact fun q hq => hs.root q ((isRoot_insertCopy hpri hp).mp hq)
  case inj =>
    intro q q' hq hq'
    exact hs.inj q q' ((isRoot_insertCopy hpri hp).mp hq) ((isRoot_insertCopy hpri hp).mp hq')
  case apart =>
    intro q e hq he
    rw [isRoot_insertCopy hpri hp] at hq ⊢
    obtain ⟨h1, h2⟩ := hs.apart q e hq he
    refine ⟨fun hmem => ?_, h2⟩
    rcases Finset.mem_insert.mp hmem with rfl | hmem
    · exact ht (.inr (.inr ⟨q, hq, he⟩))
    · exact h1 hmem

theorem inUse_insertCopy (hpri : h.pri t = some p) (hp : h.IsRoot own p) :
    h.InUse (insert t own) = h.InUse own ∪ {t} := by
  ext x
  simp only [mem_inUse, isRoot_insertCopy hpri hp, Finset.mem_insert, Set.mem_union,
    Set.mem_singleton_iff]
  exact or_assoc.trans or_comm

/-! ### A descriptor goes -/

theorem isRoot_of_erase (hx : h.IsRoot (own.erase b) x) : h.IsRoot own x := by
  rw [IsRoot, live_erase] at hx
  exact hx.mono (Finset.erase_subset _ _)

theorem Sharing.erase (hs : Sharing h own) (b : Block) : Sharing h (own.erase b) where
  hdr x hx := hs.hdr x (Finset.mem_of_mem_erase hx)
  self x hx := hs.self x (Finset.mem_of_mem_erase hx)
  root p hp := hs.root p (isRoot_of_erase hp)
  inj p p' hp hp' := hs.inj p p' (isRoot_of_erase hp) (isRoot_of_erase hp')
  apart p d hp hd := by
    obtain ⟨h1, h2⟩ := hs.apart p d (isRoot_of_erase hp) hd
    exact ⟨fun hx => h1 (Finset.mem_of_mem_erase hx), fun hr => h2 (isRoot_of_erase hr)⟩

/-- The primary descriptor stops to be one when the last descriptor goes. -/
theorem isRoot_erase_iff (hb : b ∈ own) (hpri : h.pri b = some p) :
    h.IsRoot (own.erase b) x ↔ h.IsRoot own x ∧ ¬ (x = p ∧ (h.live own p).card = 1) := by
  have hmem : b ∈ h.live own p := mem_live.mpr ⟨hb, hpri⟩
  rw [IsRoot, live_erase]
  rcases eq_or_ne x p with rfl | hx
  · have hroot : h.IsRoot own x := ⟨b, hmem⟩
    have hcard := Finset.card_erase_of_mem hmem
    have hpos := Finset.card_pos.mpr hroot
    rw [← Finset.card_pos, hcard]
    simp only [hroot, true_and]
    omega
  · have hnot : b ∉ h.live own x := by
      intro hbx
      have h1 := (mem_live.mp hbx).2
      rw [hpri] at h1
      exact hx (Option.some_inj.mp h1).symm
    rw [Finset.erase_eq_of_notMem hnot]
    simp [IsRoot, hx]

/-- What is in use no more when a descriptor goes. -/
theorem inUse_erase (hs : Sharing h own) (hb : b ∈ own) (hpri : h.pri b = some p) (hr : h.Root p d) :
    x ∈ h.InUse own ∧ x ∉ h.InUse (own.erase b) ↔
      ((h.live own p).card = 1 ∧ (x = p ∨ x = d)) ∨ (x = b ∧ p ≠ b) := by
  have hroot := isRoot_of_pri hb hpri
  obtain ⟨hd1, hd2⟩ := hs.apart p d hroot hr.dbuf
  constructor
  · rintro ⟨hx, hnot⟩
    rw [mem_inUse, not_or, not_or, Finset.mem_erase, isRoot_erase_iff hb hpri] at hnot
    obtain ⟨h1, h2, h3⟩ := hnot
    rcases hx with hx | hx | ⟨q, hq, hx⟩
    · have hxb : x = b := by
        by_contra hne
        exact h1 ⟨hne, hx⟩
      rcases eq_or_ne p b with hpb | hpb
      · rw [hxb, ← hpb] at h2 ⊢
        simp only [hroot, true_and, not_not] at h2
        exact .inl ⟨h2, .inl rfl⟩
      · exact .inr ⟨hxb, hpb⟩
    · simp only [hx, true_and, not_not] at h2
      exact .inl ⟨h2.2, .inl h2.1⟩
    · have hq' : ¬ h.IsRoot (own.erase b) q := fun hq' => h3 ⟨q, hq', hx⟩
      rw [isRoot_erase_iff hb hpri] at hq'
      simp only [hq, true_and, not_not] at hq'
      rw [hq'.1, hr.dbuf] at hx
      exact .inl ⟨hq'.2, .inr (Option.some_inj.mp hx).symm⟩
  · rintro (⟨hcard, rfl | rfl⟩ | ⟨rfl, hpb⟩)
    · refine ⟨hroot.inUse, ?_⟩
      rintro (hx | hx | ⟨q, hq, hx⟩)
      · -- the only descriptor of the buffer is `b`
        obtain ⟨h1, h2⟩ := Finset.mem_erase.mp hx
        have h3 : x ∈ h.live own x := mem_live.mpr ⟨h2, hr.self⟩
        have h4 : b ∈ h.live own x := mem_live.mpr ⟨hb, hpri⟩
        exact h1 (Finset.card_le_one.mp (Nat.le_of_eq hcard) x h3 b h4)
      · exact ((isRoot_erase_iff hb hpri).mp hx).2 ⟨rfl, hcard⟩
      · exact (hs.apart q x (isRoot_of_erase hq) hx).2 hroot
    · refine ⟨.inr (.inr ⟨p, hroot, hr.dbuf⟩), ?_⟩
      rintro (hx | hx | ⟨q, hq, hx⟩)
      · exact hd1 (Finset.mem_of_mem_erase hx)
      · exact hd2 (isRoot_of_erase hx)
      · have hqp : q = p := hs.inj q p (isRoot_of_erase hq) hroot (hx.trans hr.dbuf.symm)
        exact ((isRoot_erase_iff hb hpri).mp hq).2 ⟨hqp, hcard⟩
    · refine ⟨.inl hb, ?_⟩
      rintro (hx | hx | ⟨q, hq, hx⟩)
      · simp at hx
      · obtain ⟨e, he⟩ := hs.root x (isRoot_of_erase hx)
        have h1 := he.self
        rw [hpri] at h1
        exact hpb (Option.some_inj.mp h1)
      · exact (hs.apart q x (isRoot_of_erase hq) hx).1 hb

theorem inUse_erase_subset (b : Block) : h.InUse (own.erase b) ⊆ h.InUse own := by
  rintro x (hx | hx | ⟨q, hq, hx⟩)
  · exact .inl (Finset.mem_of_mem_erase hx)
  · exact .inr (.inl (isRoot_of_erase hx))
  · exact .inr (.inr ⟨q, isRoot_of_erase hq, hx⟩)

/-! ## The counts and the free lists -/

/-- The counts are right. -/
def Counted (h : Heap) (own : Finset Block) : Prop :=
  ∀ p, h.IsRoot own p → (h.mb p).mRefcnt.toNat = (h.live own p).card

/-- The invariant; the blocks in `limbo` are on no free list and not in use. -/
structure Held (h : Heap) (own : Finset Block) (limbo : Set Block) : Prop where
  sharing : Sharing h own
  counted : Counted h own
  lists : FreeList.Exact Block.pool Block.valid h.free (h.InUse own ∪ limbo)
  apart : ∀ x ∈ limbo, x ∉ h.InUse own

theorem Held.frame (hh : Held h own limbo) (hk : ∀ x ∈ h.InUse own, Keeps h h' x)
    (hc : ∀ p, h.IsRoot own p → (h'.mb p).mRefcnt = (h.mb p).mRefcnt) (hfree : h'.free = h.free) :
    Held h' own limbo := by
  constructor
  case sharing => exact hh.sharing.frame hk
  case counted =>
    intro p hp
    rw [isRoot_frame hk] at hp
    rw [hc p hp, live_frame hk]
    exact hh.counted p hp
  case lists =>
    rw [hfree, inUse_frame hk]
    exact hh.lists
  case apart =>
    rw [inUse_frame hk]
    exact hh.apart

/-- A block that is not in use may be written. -/
theorem Held.set (hh : Held h own limbo) (hx : x ∈ limbo) (v : Desc) : Held (h.set x v) own limbo := by
  have hne : ∀ y ∈ h.InUse own, y ≠ x := by
    rintro y hy rfl
    exact hh.apart y hx hy
  apply hh.frame
  · exact fun y hy => .of_eq (set_mb_ne (hne y hy) v)
  · intro p hp
    rw [set_mb_ne (hne p hp.inUse)]
  · rfl

theorem Held.alloc (hh : Held h own limbo) {q : Pool} (ha : h.alloc q = some (b, h')) :
    Held h' own (insert b limbo) ∧ b ∉ h.InUse own ∧ b ∉ limbo ∧ b.pool = q ∧ h'.mb = h.mb := by
  unfold Heap.alloc at ha
  split at ha
  · cases ha
  · rename_i c l hq
    cases ha
    obtain ⟨h1, h2, h3⟩ := hh.lists.take hq
    rw [Set.mem_union, not_or] at h2
    have hunion : insert b (h.InUse own ∪ limbo) = h.InUse own ∪ insert b limbo :=
      (Set.union_insert ..).symm
    have hh' : Held { h with free := Function.update h.free q l } own (insert b limbo) := by
      constructor
      case sharing => exact Sharing.frame (h := h) (fun x _ => .of_eq rfl) hh.sharing
      case counted => exact hh.counted
      case lists =>
        show FreeList.Exact _ _ _ (h.InUse own ∪ insert b limbo)
        rw [← hunion]
        exact h3
      case apart =>
        rintro x (rfl | hx)
        · exact h2.1
        · exact hh.apart x hx
    exact ⟨hh', h2.1, h2.2, h1, rfl⟩

theorem put_mb_ne {q : Pool} (hx : x ≠ b) : (h.put q b).mb x = h.mb x := by
  simp [put, Function.update_of_ne hx]

theorem put_dbhdr {q : Pool} (hx : (h.mb x).dbhdr = false) : ((h.put q b).mb x).dbhdr = false := by
  rcases eq_or_ne x b with rfl | hb
  · simp [put]
  · rw [put_mb_ne hb]
    exact hx

/-- A block goes back to its pool. -/
theorem Held.put (hh : Held h own limbo) (hx : x ∈ limbo) {limbo' : Set Block}
    (hl : ∀ y, y ∈ limbo' ↔ y ∈ limbo ∧ y ≠ x) : Held (h.put x.pool x) own limbo' := by
  have hne : ∀ y ∈ h.InUse own, y ≠ x := by
    rintro y hy rfl
    exact hh.apart y hx hy
  have hk : ∀ y ∈ h.InUse own, Keeps h (h.put x.pool x) y :=
    fun y hy => .of_eq (put_mb_ne (hne y hy))
  constructor
  case sharing => exact hh.sharing.frame hk
  case counted =>
    intro p hp
    rw [isRoot_frame hk] at hp
    rw [put_mb_ne (hne p hp.inUse), live_frame hk]
    exact hh.counted p hp
  case lists =>
    rw [inUse_frame hk]
    refine hh.lists.give (.inr hx) fun y => ?_
    rw [Set.mem_union, Set.mem_union, hl]
    constructor
    · rintro (hy | ⟨hy, hyx⟩)
      · exact ⟨.inl hy, hne y hy⟩
      · exact ⟨.inr hy, hyx⟩
    · rintro ⟨hy | hy, hyx⟩
      · exact .inl hy
      · exact .inr ⟨hy, hyx⟩
  case apart =>
    intro y hy
    rw [inUse_frame hk]
    exact hh.apart y ((hl y).mp hy).1

theorem tnNetFreeMin_eq (hb : b.pool = .lobuf) : h.tnNetFreeMin b = h.put b.pool b := by
  simp [tnNetFreeMin, hb, Pool.drv]

/-! ### `mb_get` -/

theorem freePool_dbufPool (k : DbType) (tx : Bool) (hd : d.pool = dbufPool k tx) :
    freePool k d = d.pool := by
  cases k <;> cases tx <;> simp [freePool, dbufPool, hd, Pool.drv]

/-- What `mb_get` writes into a descriptor. -/
def primDesc (p d : Block) (k : DbType) : Desc :=
  { dbhdr := true, mDbuf := some d, mPri := some p, mDbtype := k, mRefcnt := 1 }

theorem Held.addPrim (hh : Held h own limbo) {k : DbType} (hp : p ∈ limbo) (hd : d ∈ limbo)
    (hpd : p ≠ d) (hpool : p.pool = .lobuf) (hplace : freePool k d = d.pool) {limbo' : Set Block}
    (hl : limbo = limbo' ∪ {p, d}) (hp' : p ∉ limbo') (hd' : d ∉ limbo') :
    Held (h.set p (primDesc p d k)) (insert p own) limbo' := by
  have hh1 := hh.set hp (primDesc p d k)
  have hr : (h.set p (primDesc p d k)).Root p d := by
    constructor
    · exact hpool
    · simp [pri, primDesc]
    · simp [primDesc]
    · simp [primDesc]
    · simpa [primDesc] using hplace
  have hp1 := hh1.apart p hp
  constructor
  case sharing => exact hh1.sharing.insertPrim hp1 (hh1.apart d hd) hpd hr (by simp [primDesc])
  case counted =>
    intro q hq
    rw [live_insert, hr.self]
    rcases (isRoot_insertPrim hr).mp hq with rfl | hq
    · rw [if_pos rfl, live_of_not_root fun hroot => hp1 hroot.inUse]
      simp [primDesc]
    · rw [if_neg]
      · exact hh1.counted q hq
      · intro heq
        cases heq
        exact hp1 hq.inUse
  case lists =>
    rw [inUse_insertPrim hr, Set.union_assoc, Set.union_comm {p, d}, ← hl]
    exact hh1.lists
  case apart =>
    intro x hx
    rw [inUse_insertPrim hr]
    rintro (hx1 | rfl | rfl)
    · exact hh1.apart x (by rw [hl]; exact .inl hx) hx1
    · exact hp' hx
    · exact hd' hx

theorem Held.mAllocHdr (hh : Held h own limbo) (ha : h.mAllocHdr = some (b, h')) :
    Held h' own (insert b limbo) ∧ b ∉ h.InUse own ∧ b ∉ limbo ∧ b.pool = .lobuf ∧
      ∀ x ∈ h.InUse own, h'.mb x = h.mb x := by
  unfold Heap.mAllocHdr at ha
  obtain ⟨⟨c, h1⟩, hc, heq⟩ := Option.map_eq_some_iff.mp ha
  cases heq
  obtain ⟨hh1, h2, h3, h4, h5⟩ := hh.alloc hc
  refine ⟨hh1.set (Set.mem_insert _ _) {}, h2, h3, h4, ?_⟩
  intro x hx
  have hxb : x ≠ c := by
    rintro rfl
    exact h2 hx
  show (h1.set c {}).mb x = _
  rw [set_mb_ne hxb, h5]

theorem mem_iff_insert (hx : x ∉ limbo) (y : Block) : y ∈ limbo ↔ y ∈ insert x limbo ∧ y ≠ x := by
  rw [Set.mem_insert_iff]
  constructor
  · intro hy
    exact ⟨.inr hy, fun heq => hx (heq ▸ hy)⟩
  · rintro ⟨rfl | hy, hne⟩
    · exact absurd rfl hne
    · exact hy

/-- **`mb_get`.** -/
theorem Held.mbGet (hh : Held h own limbo) (k : DbType) (tx : Bool) :
    Held (h.mbGet k tx).1 ((h.mbGet k tx).2.toFinset ∪ own) limbo := by
  unfold Heap.mbGet
  split
  · simpa using hh
  · rename_i res h1 hres
    obtain ⟨hh1, -, hlimbo, hpool, -⟩ := hh.mAllocHdr hres
    split
    · rw [tnNetFreeMin_eq hpool]
      simp only [Option.toFinset_none, Finset.empty_union]
      exact hh1.put (Set.mem_insert _ _) fun y => mem_iff_insert hlimbo y
    · rename_i dbuf h2 hdbuf
      obtain ⟨hh2, -, hne, hdpool, -⟩ := hh1.alloc hdbuf
      rw [Set.mem_insert_iff, not_or] at hne
      simp only [Option.toFinset_some, Finset.singleton_union]
      refine hh2.addPrim (Set.mem_insert_of_mem _ (Set.mem_insert _ _)) (Set.mem_insert _ _)
        (Ne.symm hne.1) hpool (freePool_dbufPool k tx hdpool) ?_ hlimbo hne.2
      rw [Set.union_comm, Set.insert_union, Set.singleton_union, Set.insert_comm]

/-! ### `m_free` -/

/-- The count of `p` goes down with the descriptor `b`: what is in use no more is in limbo. -/
theorem Held.drop (hh : Held h own limbo) (hb : b ∈ own) (hpri : h.pri b = some p) :
    Held (h.set p { h.mb p with mRefcnt := (h.mb p).mRefcnt - 1 }) (own.erase b)
      (h.InUse own \ h.InUse (own.erase b) ∪ limbo) := by
  have hk : ∀ x, Keeps h (h.set p { h.mb p with mRefcnt := (h.mb p).mRefcnt - 1 }) x := by
    intro x
    rcases eq_or_ne x p with rfl | hx
    · constructor <;> simp [pri]
    · exact .of_eq (set_mb_ne hx _)
  have hroot := isRoot_of_pri hb hpri
  have huse : (h.set p { h.mb p with mRefcnt := (h.mb p).mRefcnt - 1 }).InUse (own.erase b) =
      h.InUse (own.erase b) := inUse_frame fun x _ => hk x
  constructor
  case sharing => exact (hh.sharing.erase b).frame fun x _ => hk x
  case counted =>
    intro q hq
    rw [isRoot_frame fun x _ => hk x] at hq
    rw [live_frame fun x _ => hk x, live_erase]
    have hcount := hh.counted q (isRoot_of_erase hq)
    rcases eq_or_ne q p with rfl | hqp
    · rw [Finset.card_erase_of_mem (mem_live.mpr ⟨hb, hpri⟩), set_mb_self, ← hcount]
      have hpos := Finset.card_pos.mpr hroot
      simp only
      bv_omega
    · rw [set_mb_ne hqp, Finset.erase_eq_of_notMem]
      · exact hcount
      · intro hbq
        have h1 := (mem_live.mp hbq).2
        rw [hpri] at h1
        exact hqp (Option.some_inj.mp h1).symm
  case lists =>
    rw [huse, ← Set.union_assoc, Set.union_sdiff_cancel (inUse_erase_subset b)]
    exact hh.lists
  case apart =>
    intro x hx
    rw [huse]
    rcases hx with hx | hx
    · exact hx.2
    · exact fun hc => hh.apart x hx (inUse_erase_subset b hc)

theorem releasePrimary_eq (hr : h.Root p d) :
    h.releasePrimary p = (h.put d.pool d).put p.pool p := by
  simp only [Heap.releasePrimary, hr.noalloc, hr.dbuf, tnNetFreePool, hr.place]
  exact tnNetFreeMin_eq hr.pool

/-- The release of the primary descriptor and its buffer. -/
theorem Held.releasePrimary (hh : Held h own limbo) (hr : h.Root p d) (hp : p ∈ limbo) (hd : d ∈ limbo)
    (hpd : p ≠ d) {limbo' : Set Block} (hl : ∀ y, y ∈ limbo' ↔ y ∈ limbo ∧ y ≠ p ∧ y ≠ d) :
    Held (h.releasePrimary p) own limbo' := by
  rw [releasePrimary_eq hr]
  have h1 : Held (h.put d.pool d) own (limbo \ {d}) := hh.put hd (by simp)
  refine h1.put ⟨hp, hpd⟩ fun y => ?_
  rw [hl, Set.mem_sdiff, Set.mem_singleton_iff]
  tauto

theorem releasePrimary_dbhdr (hx : (h.mb x).dbhdr = false) :
    ((h.releasePrimary p).mb x).dbhdr = false := by
  unfold Heap.releasePrimary
  refine put_dbhdr ?_
  split
  · exact put_dbhdr hx
  · exact hx

theorem Root.ne (hs : Sharing h own) (hr : h.Root p d) (hp : h.IsRoot own p) : p ≠ d := by
  rintro rfl
  exact (hs.apart p p hp hr.dbuf).2 hp

/-- The release of a descriptor that is not primary. -/
theorem Held.freeDesc (hh : Held h own ({x | x = b ∧ p ≠ b} ∪ limbo)) (hb : b ∉ limbo)
    (hpool : b.pool = .lobuf) (hdb : p ≠ b → (h.mb b).dbhdr = false) :
    Held (if (h.mb b).dbhdr = false ∧ p ≠ b then h.tnNetFreeMin b else h) own limbo := by
  by_cases hpb : p = b
  · rw [if_neg (by simp [hpb])]
    have hempty : {x | x = b ∧ p ≠ b} = (∅ : Set Block) := by
      ext x
      simp [hpb]
    rwa [hempty, Set.empty_union] at hh
  · rw [if_pos ⟨hdb hpb, hpb⟩, tnNetFreeMin_eq hpool]
    have hset : {x | x = b ∧ p ≠ b} ∪ limbo = insert b limbo := by
      ext x
      simp [hpb]
    rw [hset] at hh
    exact hh.put (Set.mem_insert _ _) fun y => mem_iff_insert hb y

theorem dbhdr_of_pri_ne (hpri : h.pri b = some p) (hpb : p ≠ b) : (h.mb b).dbhdr = false := by
  by_contra hcon
  rw [pri, if_pos (by simpa using hcon)] at hpri
  exact hpb (Option.some_inj.mp hpri).symm

/-- **`m_free`.** -/
theorem Held.mFree (hh : Held h own limbo) (hb : b ∈ own) : Held (h.mFree b) (own.erase b) limbo := by
  obtain ⟨hbpool, p, hpri⟩ := hh.sharing.hdr b hb
  have hroot := isRoot_of_pri hb hpri
  obtain ⟨d, hr⟩ := hh.sharing.root p hroot
  have hlost := fun x => inUse_erase (x := x) hh.sharing hb hpri hr
  have hblimbo : b ∉ limbo := fun hc => hh.apart b hc (.inl hb)
  have hh1 := hh.drop hb hpri
  have hcount := hh.counted p hroot
  have hpos := Finset.card_pos.mpr hroot
  have hn : (h.mb p).mRefcnt ≠ 0 := by
    intro h0
    rw [h0] at hcount
    exact hpos.ne hcount
  set h1 := h.set p { h.mb p with mRefcnt := (h.mb p).mRefcnt - 1 } with hh1def
  have hr1 : h1.Root p d := by
    refine hr.keeps ?_
    constructor <;> simp [hh1def, pri]
  have hdb : p ≠ b → (h1.mb b).dbhdr = false := by
    intro hpb
    rw [hh1def, set_mb_ne (Ne.symm hpb)]
    exact dbhdr_of_pri_ne hpri hpb
  simp only [Heap.mFree, hpri, if_pos hn]
  rw [← hh1def]
  by_cases h1n : (h.mb p).mRefcnt = 1
  · -- the last descriptor: the primary one goes with its buffer
    have hcard : (h.live own p).card = 1 := by
      rw [← hcount, h1n]
      rfl
    have hbd : b ≠ d := by
      rintro rfl
      exact (hh.sharing.apart p b hroot hr.dbuf).1 hb
    rw [if_pos h1n]
    refine Held.freeDesc ?_ hblimbo hbpool fun hpb => releasePrimary_dbhdr (hdb hpb)
    refine hh1.releasePrimary hr1 (.inl ((hlost p).mpr (.inl ⟨hcard, .inl rfl⟩)))
      (.inl ((hlost d).mpr (.inl ⟨hcard, .inr rfl⟩))) (hr.ne hh.sharing hroot) ?_
    intro y
    rw [Set.mem_union, Set.mem_union, Set.mem_sdiff, hlost y]
    constructor
    · rintro (⟨rfl, hpb⟩ | hy)
      · exact ⟨.inl (.inr ⟨rfl, hpb⟩), hpb.symm, hbd⟩
      · refine ⟨.inr hy, ?_, ?_⟩
        · rintro rfl
          exact hh.apart y hy hroot.inUse
        · rintro rfl
          exact hh.apart y hy (.inr (.inr ⟨p, hroot, hr.dbuf⟩))
    · rintro ⟨(⟨-, rfl | rfl⟩ | hy) | hy, hyp, hyd⟩
      · exact absurd rfl hyp
      · exact absurd rfl hyd
      · exact .inl hy
      · exact .inr hy
  · have hcard : (h.live own p).card ≠ 1 := by
      intro hcard
      apply h1n
      rw [hcard] at hcount
      exact BitVec.eq_of_toNat_eq hcount
    rw [if_neg h1n]
    refine Held.freeDesc ?_ hblimbo hbpool hdb
    have hset : h.InUse own \ h.InUse (own.erase b) = {x | x = b ∧ p ≠ b} := by
      ext x
      rw [Set.mem_sdiff, hlost x]
      simp [hcard]
    rwa [hset] at hh1

/-- **`m_freem`.** -/
theorem Held.mFreem (hh : Held h own limbo) {chain : List Block} (hnd : chain.Nodup)
    (hown : ∀ b ∈ chain, b ∈ own) : Held (h.mFreem chain) (own \ chain.toFinset) limbo := by
  induction chain generalizing h own with
  | nil => simpa [Heap.mFreem] using hh
  | cons b l ih =>
    rw [List.nodup_cons] at hnd
    have h1 := ih (hh.mFree (hown b List.mem_cons_self)) hnd.2 ?_
    · rw [List.toFinset_cons, Finset.sdiff_insert, Finset.erase_sdiff_comm] at *
      exact h1
    · intro x hx
      refine Finset.mem_erase.mpr ⟨?_, hown x (List.mem_cons_of_mem b hx)⟩
      rintro rfl
      exact hnd.1 hx

/-! ### `m_copym` -/

/-- There are fewer descriptors than an 8-bit count can hold. -/
theorem Held.card_le (hh : Held h own limbo) : own.card ≤ 64 := by
  have hsub : own ⊆ (Finset.range 64).image (Block.mk .lobuf) := by
    intro b hb
    have hv := hh.lists.isBlock b (.inl (.inl hb))
    have hpool := (hh.sharing.hdr b hb).1
    obtain ⟨q, i⟩ := b
    cases hpool
    exact Finset.mem_image.mpr ⟨i, Finset.mem_range.mpr hv, rfl⟩
  exact (Finset.card_le_card hsub).trans Finset.card_image_le

/-- A header becomes a copy that designates the data buffer of `p`. -/
theorem Held.addCopy (hh : Held h own (insert t limbo)) (hlimbo : t ∉ limbo) (hpool : t.pool = .lobuf)
    (hp : h.IsRoot own p) {c : Desc} (hdb : c.dbhdr = false) (hc : c.mPri = some p) :
    Held ((h.incRef p).set t c) (insert t own) limbo := by
  have ht := hh.apart t (Set.mem_insert _ _)
  have htp : p ≠ t := by
    rintro rfl
    exact ht hp.inUse
  have hpt : ((h.incRef p).set t c).mb p = { h.mb p with mRefcnt := (h.mb p).mRefcnt + 1 } := by
    rw [set_mb_ne htp, incRef, set_mb_self]
  have hne : ∀ x, x ≠ t → x ≠ p → ((h.incRef p).set t c).mb x = h.mb x := by
    intro x hx hxp
    rw [set_mb_ne hx, incRef, set_mb_ne hxp]
  have hk : ∀ x ∈ h.InUse own, Keeps h ((h.incRef p).set t c) x := by
    intro x hx
    have hxt : x ≠ t := by
      rintro rfl
      exact ht hx
    rcases eq_or_ne x p with rfl | hxp
    · constructor <;> simp [pri, hpt]
    · exact .of_eq (hne x hxt hxp)
  have hpri : ((h.incRef p).set t c).pri t = some p := by simp [pri, hdb, hc]
  have hp1 := (isRoot_frame hk).mpr hp
  have ht1 : t ∉ ((h.incRef p).set t c).InUse own := by
    rw [inUse_frame hk]
    exact ht
  have hsh := (hh.sharing.frame hk).insertCopy ht1 hpool hpri hp1 (by simpa using hdb)
  have hlists : FreeList.Exact Block.pool Block.valid h.free
      (((h.incRef p).set t c).InUse (insert t own) ∪ limbo) := by
    rw [inUse_insertCopy hpri hp1, inUse_frame hk, Set.union_assoc, Set.singleton_union]
    exact hh.lists
  constructor
  case sharing => exact hsh
  case counted =>
    intro q hq
    rw [isRoot_insertCopy hpri hp1, isRoot_frame hk] at hq
    have hcount := hh.counted q hq
    rw [live_insert, hpri, live_frame hk]
    rcases eq_or_ne q p with rfl | hqp
    · have htl : t ∉ h.live own q := fun htl => ht (.inl (mem_live.mp htl).1)
      have hle : (h.live own q).card ≤ own.card := Finset.card_filter_le _ _
      have hown := hh.card_le
      rw [if_pos rfl, Finset.card_insert_of_notMem htl, hpt, ← hcount]
      simp only
      bv_omega
    · have hqt : q ≠ t := by
        rintro rfl
        exact ht hq.inUse
      rw [if_neg (by simpa using hqp.symm), hne q hqt hqp]
      exact hcount
  case lists => exact hlists
  case apart =>
    intro x hx
    rw [inUse_insertCopy hpri hp1, inUse_frame hk, Set.mem_union, not_or]
    refine ⟨hh.apart x (Set.mem_insert_of_mem _ hx), ?_⟩
    rintro rfl
    exact hlimbo hx

/-- What `m_copym` leaves behind. -/
def CopyOk (own : Finset Block) (limbo : Set Block) (r : Heap × Copy) : Prop :=
  match r.2 with
  | .null => Held r.1 own limbo
  | .chain copies => Held r.1 (copies.toFinset ∪ own) limbo
  | .wild => False
  | .waits => False

/-- The copies made so far are freed. -/
theorem Held.copyFail {copies : List Block} (hh : Held h (copies.toFinset ∪ own) limbo)
    (hnd : copies.Nodup) (hdisj : ∀ b ∈ copies, b ∉ own) : CopyOk own limbo (h.mFreem copies, .null) := by
  have h1 := hh.mFreem hnd fun b hb => Finset.mem_union_left _ (List.mem_toFinset.mpr hb)
  have hset : (copies.toFinset ∪ own) \ copies.toFinset = own := by
    rw [Finset.union_sdiff_left, Finset.sdiff_eq_self_iff_disjoint, Finset.disjoint_right]
    exact fun b hb => hdisj b (List.mem_toFinset.mp hb)
  rw [hset] at h1
  exact h1

theorem mAllocHdr_ne_none (hf : h.free .lobuf ≠ []) : h.mAllocHdr ≠ none := by
  unfold mAllocHdr alloc
  split
  · exact absurd ‹_› hf
  · simp

/-- One more copy: the header `t` becomes a copy of `mb`. -/
theorem Held.copyStep {copies : List Block} {mb : Block} (hh : Held h (copies.toFinset ∪ own) limbo)
    (hnd : copies.Nodup) (hdisj : ∀ b ∈ copies, b ∉ own) (hmb : mb ∈ own)
    (ht : h.mAllocHdr = some (t, h')) :
    t ∉ h.InUse (copies.toFinset ∪ own) ∧
    (∀ x ∈ h.InUse (copies.toFinset ∪ own), h'.mb x = h.mb x) ∧
      (copies ++ [t]).Nodup ∧ (∀ b ∈ copies ++ [t], b ∉ own) ∧
      ∃ p, h'.pri mb = some p ∧ h.pri mb = some p ∧ ∀ c : Desc, c.dbhdr = false → c.mPri = some p →
        Held ((h'.incRef p).set t c) ((copies ++ [t]).toFinset ∪ own) limbo := by
  obtain ⟨hh1, htuse, htlimbo, htpool, hsame⟩ := hh.mAllocHdr ht
  have hmem : mb ∈ copies.toFinset ∪ own := Finset.mem_union_right _ hmb
  obtain ⟨p, hpri⟩ := (hh1.sharing.hdr mb hmem).2
  have hroot := isRoot_of_pri hmem hpri
  have htnew : t ∉ copies.toFinset ∪ own := fun hmem => htuse (.inl hmem)
  rw [Finset.mem_union, List.mem_toFinset, not_or] at htnew
  have hset : insert t (copies.toFinset ∪ own) = (copies ++ [t]).toFinset ∪ own := by
    rw [List.toFinset_append, List.toFinset_cons, List.toFinset_nil, insert_empty_eq,
      Finset.union_right_comm, Finset.insert_eq, Finset.union_comm {t}]
  refine ⟨htuse, hsame, ?_, ?_, p, hpri, ?_, ?_⟩
  · rw [List.nodup_append]
    refine ⟨hnd, List.nodup_singleton t, ?_⟩
    intro x hx y hy
    rw [List.mem_singleton.mp hy]
    rintro rfl
    exact htnew.1 hx
  · intro b hb
    rcases List.mem_append.mp hb with hb | hb
    · exact hdisj b hb
    · rw [List.mem_singleton.mp hb]
      exact htnew.2
  · rw [← pri_congr (hsame mb (.inl hmem))]
    exact hpri
  · intro c hc1 hc2
    rw [← hset]
    exact hh1.addCopy htlimbo htpool hroot hc1 hc2

/-- The loop, from a state in which it has made `copies`: the first header can be allocated. -/
theorem copyLoop_ok (orgLen : Int) (chain : List Block) :
    ∀ {offset len total : Int} {copies : List Block} {h : Heap},
      Held h (copies.toFinset ∪ own) limbo → copies.Nodup → (∀ b ∈ copies, b ∉ own) →
      (∀ b ∈ chain, b ∈ own) → (copies ≠ [] ∨ h.free .lobuf ≠ []) →
      CopyOk own limbo (copyLoop orgLen chain offset len total copies .MB_NOWAIT h) := by
  induction chain with
  | nil =>
    intro offset len total copies h hh hnd hdisj _ _
    exact hh.copyFail hnd hdisj
  | cons mb rest ih =>
    intro offset len total copies h hh hnd hdisj hown hroom
    unfold copyLoop waitHdr
    cases ht : h.mAllocHdr with
    | none =>
      have hne : copies ≠ [] := hroom.resolve_right fun hf => mAllocHdr_ne_none hf ht
      simp only [if_pos hne]
      exact hh.copyFail hnd hdisj
    | some r =>
      obtain ⟨t, h1⟩ := r
      obtain ⟨-, -, hnd2, hdisj2, p, hpri, -, hheld⟩ :=
        hh.copyStep hnd hdisj (hown mb List.mem_cons_self) ht
      have hh2 := hheld (h1.copyDesc mb p copies.isEmpty offset len) rfl rfl
      simp only [hpri]
      split
      · split
        · exact hh2.copyFail hnd2 hdisj2
        · exact hh2
      · exact ih hh2 hnd2 hdisj2 (fun b hb => hown b (List.mem_cons_of_mem mb hb)) (.inl (by simp))

theorem skip_subset (chain : List Block) (offset : Int) : ∀ b ∈ (h.skip chain offset).1, b ∈ chain := by
  induction chain generalizing offset with
  | nil => simp [skip]
  | cons mb rest ih =>
    unfold skip
    split
    · exact fun b hb => List.mem_cons_of_mem mb (ih _ b hb)
    · exact fun b hb => hb

/-- **`m_copym`.** -/
theorem Held.mCopym (hh : Held h own limbo) {chain : List Block} (hown : ∀ b ∈ chain, b ∈ own)
    {offset len : Int}
    (hroom : 0 ≤ offset → 0 < len → (h.skip chain offset).1 ≠ [] → h.free .lobuf ≠ []) :
    CopyOk own limbo (h.mCopym chain offset len .MB_NOWAIT) := by
  unfold Heap.mCopym
  split
  · exact hh
  · rename_i hlen
    have hsub := skip_subset (h := h) chain offset
    split
    · exact hh
    · rename_i mb rest off heq
      rw [heq] at hroom hsub
      refine copyLoop_ok len (mb :: rest) (by simpa using hh) List.nodup_nil (by simp) ?_ (.inr ?_)
      · exact fun b hb => hown b (hsub b hb)
      · exact hroom (by omega) (by omega) (by simp)

/-! ### `m_adj` -/

/-- Only lengths change. -/
structure SameRefs (h h' : Heap) : Prop where
  keeps : ∀ x, Keeps h h' x
  refcnt : ∀ x, (h'.mb x).mRefcnt = (h.mb x).mRefcnt
  free : h'.free = h.free

theorem SameRefs.refl (h : Heap) : SameRefs h h := ⟨fun _ => .of_eq rfl, fun _ => rfl, rfl⟩

theorem SameRefs.trans {h'' : Heap} (h1 : SameRefs h h') (h2 : SameRefs h' h'') : SameRefs h h'' :=
  ⟨fun x => (h1.keeps x).trans (h2.keeps x), fun x => (h2.refcnt x).trans (h1.refcnt x),
    h2.free.trans h1.free⟩

theorem Held.same (hh : Held h own limbo) (hsame : SameRefs h h') : Held h' own limbo :=
  hh.frame (fun x _ => hsame.keeps x) (fun p _ => hsame.refcnt p) hsame.free

/-- The lengths of one descriptor. -/
theorem sameRefs_set (h : Heap) (b : Block) (mLen mData : Nat) (mTlen : BitVec 20) :
    SameRefs h (h.set b { h.mb b with mLen, mData, mTlen }) := by
  constructor
  · intro x
    rcases eq_or_ne x b with rfl | hx
    · constructor <;> simp [pri]
    · exact .of_eq (set_mb_ne hx _)
  · intro x
    rcases eq_or_ne x b with rfl | hx
    · simp
    · rw [set_mb_ne hx]
  · rfl

/-- `M_PKTHDR` and the lengths of one descriptor. -/
theorem sameRefs_pkthdr (h : Heap) (b : Block) (pkthdr : Bool) (mLen : Nat) (mTlen : BitVec 20) :
    SameRefs h (h.set b { h.mb b with pkthdr, mLen, mTlen }) := by
  constructor
  · intro x
    rcases eq_or_ne x b with rfl | hx
    · constructor <;> simp [pri]
    · exact .of_eq (set_mb_ne hx _)
  · intro x
    rcases eq_or_ne x b with rfl | hx
    · simp
    · rw [set_mb_ne hx]
  · rfl

theorem sameRefs_trim (h : Heap) (b : Block) (len data : Nat) : SameRefs h (h.trim b len data) :=
  sameRefs_set h b len data (h.mb b).mTlen

theorem sameRefs_adjTlen (h : Heap) (b : Block) (f : BitVec 20 → BitVec 20) :
    SameRefs h (h.adjTlen b f) := by
  unfold adjTlen
  split
  · exact sameRefs_set h b (h.mb b).mLen (h.mb b).mData (f (h.mb b).mTlen)
  · exact .refl h

theorem sameRefs_adjHead (chain : List Block) (len : Nat) (h : Heap) :
    SameRefs h (adjHead chain len h).1 := by
  induction chain generalizing len h with
  | nil => exact .refl h
  | cons m l ih =>
    unfold adjHead
    split
    · exact .refl h
    · split
      · exact (sameRefs_trim ..).trans (ih ..)
      · exact sameRefs_trim ..

theorem sameRefs_zero (chain : List Block) (h : Heap) :
    SameRefs h (chain.foldl (fun h b => h.trim b 0 (h.mb b).mData) h) := by
  induction chain generalizing h with
  | nil => exact .refl h
  | cons m l ih => exact (sameRefs_trim ..).trans (ih _)

theorem sameRefs_adjKeep (chain : List Block) (count : Nat) (h : Heap) :
    SameRefs h (adjKeep chain count h) := by
  induction chain generalizing count h with
  | nil => exact .refl h
  | cons m l ih =>
    unfold adjKeep
    split
    · exact (sameRefs_trim ..).trans (sameRefs_zero ..)
    · exact ih ..

/-- **`m_adj`.** -/
theorem sameRefs_mAdj (h : Heap) (chain : List Block) (reqLen : Int) :
    SameRefs h (h.mAdj chain reqLen) := by
  unfold mAdj
  split
  · exact .refl h
  · split
    · exact (sameRefs_adjHead ..).trans (sameRefs_adjTlen ..)
    · dsimp only
      split
      · exact (sameRefs_trim ..).trans (sameRefs_adjTlen ..)
      · exact (sameRefs_adjTlen ..).trans (sameRefs_adjKeep ..)

/-- **`m_flags = M_PKTHDR`.** -/
theorem Held.setPkthdr (hh : Held h own limbo) (hb : b ∈ own) :
    Held (h.set b { h.mb b with dbhdr := false, noalloc := false, pkthdr := true }) own limbo := by
  apply hh.frame
  · intro x hx
    rcases eq_or_ne x b with rfl | hxb
    · have hself := hh.sharing.self x hb
      constructor
      case pri =>
        rw [pri, pri, set_mb_self]
        by_cases hd : (h.mb x).dbhdr = true
        · simp [hd, hself hd]
        · simp [hd]
      all_goals simp
    · exact .of_eq (set_mb_ne hxb _)
  · intro p _
    rcases eq_or_ne p b with rfl | hpb
    · simp
    · rw [set_mb_ne hpb]
  · rfl

end Heap

/-! ## Runs -/

/-- The reference counts and the free lists of the pools. -/
structure RefOk (s : Owners) : Prop where
  refcnt : ∀ p, s.heap.IsRoot s.own p → (s.heap.mb p).mRefcnt.toNat = (s.heap.live s.own p).card
  once : ∀ q, (s.heap.free q).Nodup
  free : ∀ q x, x ∈ s.heap.free q ↔ x.pool = q ∧ x.valid ∧ x ∉ s.heap.InUse s.own
  primary : ∀ b ∈ s.own, ∃ p d, s.heap.pri b = some p ∧ s.heap.pri p = some p ∧
    (s.heap.mb p).mDbuf = some d
  buffers : ∀ p p' d, s.heap.IsRoot s.own p → s.heap.IsRoot s.own p' → (s.heap.mb p).mDbuf = some d →
    (d ∉ s.own ∧ ¬ s.heap.IsRoot s.own d) ∧ ((s.heap.mb p').mDbuf = some d → p' = p)

/-- The calls are on descriptors the caller owns. -/
def Uses (s : Owners) : HeapEvent → Prop
  | .get _ _ => True
  | .copym chain _ _ => ∀ b ∈ chain, b ∈ s.own
  | .adj chain _ => ∀ b ∈ chain, b ∈ s.own
  | .free mb => mb ∈ s.own
  | .freem chain => chain.Nodup ∧ ∀ b ∈ chain, b ∈ s.own
  | .fill mb _ _ _ => mb ∈ s.own
  | .setPkthdr mb => mb ∈ s.own

/-- An `m_copym` with something to copy finds a free header for its first copy. -/
def CopyRoom (s : Owners) : HeapEvent → Prop
  | .copym chain offset len =>
    0 ≤ offset → 0 < len → (s.heap.skip chain offset).1 ≠ [] → s.heap.free .lobuf ≠ []
  | _ => True

theorem held_start : Heap.Held Owners.start.heap Owners.start.own ∅ := by
  have hroot : ∀ p, ¬ Owners.start.heap.IsRoot Owners.start.own p := by
    rintro p ⟨b, hb⟩
    exact absurd (Heap.mem_live.mp hb).1 (Finset.notMem_empty b)
  have huse : Owners.start.heap.InUse Owners.start.own = ∅ := by
    ext x
    simp only [Heap.mem_inUse, hroot, false_and, exists_false, or_false, Set.mem_empty_iff_false,
      iff_false]
    exact Finset.notMem_empty x
  constructor
  case sharing =>
    constructor
    · simp [Owners.start]
    · simp [Owners.start]
    · exact fun p hp => absurd hp (hroot p)
    · exact fun p _ hp => absurd hp (hroot p)
    · exact fun p _ hp => absurd hp (hroot p)
  case counted => exact fun p hp => absurd hp (hroot p)
  case lists =>
    rw [huse, Set.union_empty]
    constructor
    · intro q
      refine List.nodup_range.map ?_
      rintro i j heq
      cases heq
      rfl
    · rintro q ⟨r, i⟩
      simp only [Owners.start, List.mem_map, List.mem_range, Block.valid, Block.mk.injEq,
        Set.mem_empty_iff_false, not_false_eq_true, and_true]
      constructor
      · rintro ⟨j, hj, rfl, rfl⟩
        exact ⟨rfl, hj⟩
      · rintro ⟨rfl, hi⟩
        exact ⟨i, hi, rfl, rfl⟩
    · simp
  case apart => simp

theorem held_step {s : Owners} {ev : HeapEvent} {limbo : Set Block} (hh : s.heap.Held s.own limbo)
    (hu : Uses s ev) (hc : CopyRoom s ev) : (s.step ev).heap.Held (s.step ev).own limbo := by
  cases ev with
  | get k tx => exact hh.mbGet k tx
  | copym chain offset len =>
    have hok := hh.mCopym hu hc
    unfold Heap.CopyOk at hok
    simp only [Owners.step]
    split at hok
    · rename_i heq
      rw [heq]
      exact hok
    · rename_i heq
      rw [heq]
      exact hok
    · exact hok.elim
    · exact hok.elim
  | adj chain reqLen => exact hh.same (Heap.sameRefs_mAdj ..)
  | free mb => exact hh.mFree hu
  | freem chain => exact hh.mFreem hu.1 hu.2
  | fill mb mLen mData mTlen => exact hh.same (Heap.sameRefs_set ..)
  | setPkthdr mb => exact hh.setPkthdr hu

theorem refOk_of_held {s : Owners} (hh : s.heap.Held s.own ∅) : RefOk s := by
  have hlists := hh.lists
  rw [Set.union_empty] at hlists
  constructor
  · exact hh.counted
  · exact hlists.nodup
  · exact hlists.mem_iff
  · intro b hb
    obtain ⟨-, p, hp⟩ := hh.sharing.hdr b hb
    obtain ⟨d, hd⟩ := hh.sharing.root p (Heap.isRoot_of_pri hb hp)
    exact ⟨p, d, hp, hd.self, hd.dbuf⟩
  · intro p p' d hp hp' hd
    exact ⟨hh.sharing.apart p d hp hd, fun hd' => hh.sharing.inj p' p hp' hp (hd'.trans hd.symm)⟩

theorem run_heapMachine (s : Owners) (es : List HeapEvent) :
    (Machine.run heapMachine (some s) es).1 = some (es.foldl Owners.step s) := by
  induction es generalizing s with
  | nil => simp
  | cons ev es ih => exact ih (s.step ev)

theorem held_run (es : List HeapEvent)
    (hg : Machine.Guarded heapMachine (fun s ev => Uses s ev ∧ CopyRoom s ev) (some Owners.start) es) :
    (es.foldl Owners.step Owners.start).heap.Held (es.foldl Owners.step Owners.start).own ∅ := by
  refine (Machine.run_invariant (fun s => s.heap.Held s.own ∅) (fun _ => True) ?_ ?_ hg).1 _
    (run_heapMachine _ _)
  · intro s ev hh hc
    refine ⟨?_, fun _ _ => trivial⟩
    intro s' hs'
    cases hs'
    exact held_step hh hc.1 hc.2
  · intro s' hs'
    cases hs'
    exact held_start

/-- **Reference counts.**  In every state of every run on owned descriptors in which every `m_copym` with
    something to copy finds a free header. -/
theorem refs_ok (es : List HeapEvent) (s : Owners)
    (hg : Machine.Guarded heapMachine (fun s ev => Uses s ev ∧ CopyRoom s ev) (some Owners.start) es)
    (hs : (Machine.run heapMachine (some Owners.start) es).1 = some s) : RefOk s := by
  rw [run_heapMachine] at hs
  cases hs
  exact refOk_of_held (held_run es hg)

instance (s : Owners) : ∀ ev, Decidable (Uses s ev)
  | .get _ _ => .isTrue trivial
  | .copym chain _ _ => inferInstanceAs (Decidable (∀ b ∈ chain, b ∈ s.own))
  | .adj chain _ => inferInstanceAs (Decidable (∀ b ∈ chain, b ∈ s.own))
  | .free mb => inferInstanceAs (Decidable (mb ∈ s.own))
  | .freem chain => inferInstanceAs (Decidable (chain.Nodup ∧ ∀ b ∈ chain, b ∈ s.own))
  | .fill mb _ _ _ => inferInstanceAs (Decidable (mb ∈ s.own))
  | .setPkthdr mb => inferInstanceAs (Decidable (mb ∈ s.own))

instance (s : Owners) : ∀ ev, Decidable (CopyRoom s ev)
  | .copym chain offset len => inferInstanceAs (Decidable (0 ≤ offset → 0 < len →
      (s.heap.skip chain offset).1 ≠ [] → s.heap.free .lobuf ≠ []))
  | .get _ _ => .isTrue trivial
  | .adj _ _ => .isTrue trivial
  | .free _ => .isTrue trivial
  | .freem _ => .isTrue trivial
  | .fill _ _ _ _ => .isTrue trivial
  | .setPkthdr _ => .isTrue trivial

/-- A descriptor, a copy of it, a copy of the copy; the original goes first. -/
def copiesRun : List HeapEvent :=
  [.get .MB_MID1 true, .fill ⟨.lobuf, 0⟩ 5 0 5, .setPkthdr ⟨.lobuf, 0⟩, .copym [⟨.lobuf, 0⟩] 1 3,
    .copym [⟨.lobuf, 1⟩] 0 2, .free ⟨.lobuf, 0⟩]

theorem refs_ok_copies : RefOk (copiesRun.foldl Owners.step Owners.start) ∧
    ((copiesRun.foldl Owners.step Owners.start).heap.mb ⟨.lobuf, 0⟩).mRefcnt = 2 :=
  ⟨refs_ok copiesRun _ (by decide) rfl, by decide⟩

/-- All headers are taken, one of them with a byte of data that is to be copied. -/
def noHeadersRun : List HeapEvent :=
  List.replicate 32 (.get .MB_MIN false) ++ [.fill ⟨.lobuf, 0⟩ 1 0 1, .copym [⟨.lobuf, 0⟩] 0 1]

/-- The count goes to 2 with one descriptor. -/
theorem copym_counts_no_copy :
    ¬ ∀ (es : List HeapEvent) (s : Owners), Machine.Guarded heapMachine Uses (some Owners.start) es →
      (Machine.run heapMachine (some Owners.start) es).1 = some s → RefOk s := by
  intro h
  have hok := h noHeadersRun _ (by decide +kernel) rfl
  have hcount := hok.refcnt ⟨.lobuf, 0⟩ (by unfold Heap.IsRoot; decide +kernel)
  revert hcount
  decide +kernel

end TnNet.Mem
