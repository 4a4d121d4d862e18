import TnNet.Mem.Refs

/-!
# `m_copym` copies a slice or nothing

The bytes of a chain are read from the data buffers its descriptors designate.  Here `m_copym` does not
wait for its headers.

* `copyLoop_slice` — the bytes of the copies, and what the loop leaves alone.
* `mFreem_same` — what freeing leaves alone; for the copies made so far, `rollback_same`.
* `mCopym_result` — there is a copy when the slice is in the chain and there are headers for it.
-/

set_option autoImplicit false

namespace TnNet.Mem

/-- The bytes of the data buffers. -/
abbrev Bufs := Block → Nat → UInt8

namespace Heap

variable {h h' h'' : Heap} {own : Finset Block} {limbo : Set Block} 
  {b d p t x mb : Block} {chain copies : List Block} {mem : Bufs} {offset len orgLen total : Int}

/-! ## The bytes of a chain -/

/-- The data buffer of a descriptor. -/
def dbuf (h : Heap) (b : Block) : Option Block := (h.pri b).bind fun p => (h.mb p).mDbuf

/-- `n` bytes of a data buffer. -/
def bufBytes (mem : Bufs) (d : Option Block) (pos n : Nat) : List UInt8 :=
  match d with
  | none => []
  | some d => (List.range n).map fun i => mem d (pos + i)

/-- The `m_len` bytes at `m_data`. -/
def bytes (mem : Bufs) (h : Heap) (b : Block) : List UInt8 :=
  bufBytes mem (h.dbuf b) (h.mb b).mData (h.mb b).mLen

/-- The bytes of a chain. -/
def chainBytes (mem : Bufs) (h : Heap) (chain : List Block) : List UInt8 := chain.flatMap (h.bytes mem)

/-- The data lies in its buffer. -/
def InBuf (h : Heap) (b : Block) : Prop :=
  ∀ p, h.pri b = some p → (h.mb b).mData + (h.mb b).mLen ≤ mGetDbufSize (h.mb p).mDbtype

theorem length_bufBytes {pos n : Nat} : (bufBytes mem (some d) pos n).length = n := by simp [bufBytes]

theorem bufBytes_drop_take (mem : Bufs) (dst : Option Block) (pos n i k : Nat) :
    ((bufBytes mem dst pos n).drop i).take k = bufBytes mem dst (pos + i) (min k (n - i)) := by
  cases dst with
  | none => simp [bufBytes]
  | some d =>
    apply List.ext_getElem
    · simp [bufBytes]
    · intro j h1 h2
      simp [bufBytes, Nat.add_assoc]

@[simp] theorem chainBytes_cons : h.chainBytes mem (b :: chain) = h.bytes mem b ++ h.chainBytes mem chain :=
  rfl

@[simp] theorem chainLen_cons : h.chainLen (b :: chain) = (h.mb b).mLen + h.chainLen chain := by
  simp [chainLen]

/-! ## What stays the same -/

/-- A descriptor is the same but for its reference count. -/
def Same (h h' : Heap) (x : Block) : Prop := h'.mb x = { h.mb x with mRefcnt := (h'.mb x).mRefcnt }

theorem Same.of_eq (hx : h'.mb x = h.mb x) : Same h h' x := by simp [Same, hx]

theorem Same.trans (h1 : Same h h' x) (h2 : Same h' h'' x) : Same h h'' x := by
  unfold Same at *
  rw [h2, h1]

theorem Same.mLen (hs : Same h h' x) : (h'.mb x).mLen = (h.mb x).mLen := by rw [hs]

theorem Same.mData (hs : Same h h' x) : (h'.mb x).mData = (h.mb x).mData := by rw [hs]

theorem Same.mDbuf (hs : Same h h' x) : (h'.mb x).mDbuf = (h.mb x).mDbuf := by rw [hs]

theorem Same.mTlen (hs : Same h h' x) : (h'.mb x).mTlen = (h.mb x).mTlen := by rw [hs]

theorem Same.pri (hs : Same h h' x) : h'.pri x = h.pri x := by
  unfold Heap.pri
  rw [hs]

theorem Same.keeps (hs : Same h h' x) : Keeps h h' x := by
  constructor
  case pri => exact hs.pri
  all_goals rw [hs]
  all_goals exact id

theorem same_incRef (h : Heap) (p x : Block) : Same h (h.incRef p) x := by
  rcases eq_or_ne x p with rfl | hx
  · simp [Same, incRef]
  · exact .of_eq (set_mb_ne hx _)

/-- The bytes of descriptors in use are the same. -/
theorem Same.bytes (hs : ∀ y ∈ h.InUse own, Same h h' y) (hb : b ∈ own) :
    h'.bytes mem b = h.bytes mem b := by
  have hb1 := hs b (.inl hb)
  have hd : h'.dbuf b = h.dbuf b := by
    unfold dbuf
    rw [hb1.pri]
    cases hp : h.pri b with
    | none => rfl
    | some p => exact (hs p (isRoot_of_pri hb hp).inUse).mDbuf
  unfold Heap.bytes
  rw [hd, hb1.mData, hb1.mLen]

theorem Same.chainBytes (hs : ∀ y ∈ h.InUse own, Same h h' y) (hown : ∀ b ∈ chain, b ∈ own) :
    h'.chainBytes mem chain = h.chainBytes mem chain := by
  unfold Heap.chainBytes
  rw [List.flatMap_congr]
  exact fun b hb => Same.bytes hs (hown b hb)

theorem Same.chainLen (hs : ∀ y ∈ h.InUse own, Same h h' y) (hown : ∀ b ∈ chain, b ∈ own) :
    h'.chainLen chain = h.chainLen chain := by
  unfold Heap.chainLen
  rw [List.map_congr_left]
  exact fun b hb => (hs b (.inl (hown b hb))).mLen

theorem inUse_mono {own' : Finset Block} (hsub : own ⊆ own') : h.InUse own ⊆ h.InUse own' := by
  have hroot : ∀ p, h.IsRoot own p → h.IsRoot own' p := fun p hp =>
    Finset.Nonempty.mono (Finset.filter_subset_filter _ hsub) hp
  rintro x (hx | hx | ⟨p, hp, hx⟩)
  · exact .inl (hsub hx)
  · exact .inr (.inl (hroot x hx))
  · exact .inr (.inr ⟨p, hroot p hp, hx⟩)

/-! ## What freeing leaves alone -/

/-- A descriptor is freed: what stays in use is the same but for a count. -/
theorem mFree_same (hh : Held h own limbo) (ht : t ∈ own) (hx : x ∈ h.InUse (own.erase t)) :
    Same h (h.mFree t) x := by
  obtain ⟨-, p, hpri⟩ := hh.sharing.hdr t ht
  have hroot := isRoot_of_pri ht hpri
  obtain ⟨d, hr⟩ := hh.sharing.root p hroot
  have hlost := fun y => inUse_erase (x := y) hh.sharing ht hpri hr
  have hcount := hh.counted p hroot
  have hpos := Finset.card_pos.mpr hroot
  have h0 : (h.mb p).mRefcnt ≠ 0 := by
    intro h0
    rw [h0] at hcount
    exact hpos.ne hcount
  have hset : Same h (h.set p { h.mb p with mRefcnt := (h.mb p).mRefcnt - 1 }) x := by
    rcases eq_or_ne x p with rfl | hxp
    · simp [Same]
    · exact .of_eq (set_mb_ne hxp _)
  simp only [mFree, hpri, if_pos h0]
  have hr1 : (h.set p { h.mb p with mRefcnt := (h.mb p).mRefcnt - 1 }).Root p d := by
    refine hr.keeps ?_
    constructor <;> simp [pri]
  generalize h.set p { h.mb p with mRefcnt := (h.mb p).mRefcnt - 1 } = h1 at hset hr1 ⊢
  have hrel : Same h (if (h.mb p).mRefcnt = 1 then h1.releasePrimary p else h1) x := by
    split
    · rename_i h1n
      have hcard : (h.live own p).card = 1 := by
        rw [← hcount, h1n]
        rfl
      have hxp : x ≠ p := fun heq => ((hlost x).mpr (.inl ⟨hcard, .inl heq⟩)).2 hx
      have hxd : x ≠ d := fun heq => ((hlost x).mpr (.inl ⟨hcard, .inr heq⟩)).2 hx
      rw [releasePrimary_eq hr1]
      exact hset.trans ((Same.of_eq (put_mb_ne hxd)).trans (.of_eq (put_mb_ne hxp)))
    · exact hset
  generalize (if (h.mb p).mRefcnt = 1 then h1.releasePrimary p else h1) = h2 at hrel ⊢
  split
  · rename_i hpt
    have hxt : x ≠ t := by
      rintro rfl
      exact ((hlost x).mpr (.inr ⟨rfl, hpt.2⟩)).2 hx
    exact hrel.trans (.of_eq (put_mb_ne hxt))
  · exact hrel

/-- A chain is freed. -/
theorem mFreem_same {h : Heap} (hh : Held h own limbo) (hnd : chain.Nodup) (hown : ∀ b ∈ chain, b ∈ own)
    (hx : x ∈ h.InUse (own \ chain.toFinset)) : Same h (h.mFreem chain) x := by
  induction chain generalizing h own with
  | nil => exact .of_eq rfl
  | cons t l ih =>
    rw [List.nodup_cons] at hnd
    have ht := hown t List.mem_cons_self
    have hset : own \ (t :: l).toFinset = own.erase t \ l.toFinset := by
      rw [List.toFinset_cons, Finset.sdiff_insert, Finset.erase_sdiff_comm]
    rw [hset] at hx
    have hsub : h.InUse (own.erase t \ l.toFinset) ⊆ h.InUse (own.erase t) :=
      inUse_mono Finset.sdiff_subset
    have hsame : ∀ y ∈ h.InUse (own.erase t \ l.toFinset), Same h (h.mFree t) y :=
      fun y hy => mFree_same hh ht (hsub hy)
    refine (hsame x hx).trans (ih (hh.mFree ht) hnd.2 ?_ ?_)
    · intro b hb
      refine Finset.mem_erase.mpr ⟨?_, hown b (List.mem_cons_of_mem t hb)⟩
      rintro rfl
      exact hnd.1 hb
    · rw [inUse_frame fun y hy => (hsame y hy).keeps]
      exact hx

/-- The copies made so far are freed. -/
theorem rollback_same (hh : Held h (copies.toFinset ∪ own) limbo) (hnd : copies.Nodup)
    (hdisj : ∀ b ∈ copies, b ∉ own) (hx : x ∈ h.InUse own) : Same h (h.mFreem copies) x := by
  refine mFreem_same hh hnd (fun b hb => Finset.mem_union_left _ (List.mem_toFinset.mpr hb)) ?_
  rw [Finset.union_sdiff_left, Finset.sdiff_eq_self_of_disjoint]
  · exact hx
  · rw [Finset.disjoint_right]
    exact fun b hb => hdisj b (List.mem_toFinset.mp hb)

/-! ## What `mb_get` leaves alone -/

theorem mAllocHdr_free (ht : h.mAllocHdr = some (t, h')) :
    h.free .lobuf = t :: h'.free .lobuf ∧ ∀ q, q ≠ .lobuf → h'.free q = h.free q := by
  unfold mAllocHdr alloc at ht
  split at ht
  · cases ht
  · rename_i c l hq
    cases ht
    refine ⟨by rw [hq]; simp, fun q hq => ?_⟩
    simp [Function.update_of_ne hq]

theorem mAllocHdr_none (ht : h.mAllocHdr = none) : h.free .lobuf = [] := by
  by_contra hne
  exact mAllocHdr_ne_none hne ht

/-- A new descriptor with a buffer from a pool of its own. -/
structure Fresh (own : Finset Block) (h : Heap) (q : Pool) (m d : Block) (h' : Heap) : Prop where
  notUse : m ∉ h.InUse own ∧ d ∉ h.InUse own
  desc : h'.mb m = primDesc m d (h'.mb m).mDbtype
  same : ∀ x ∈ h.InUse own, h'.mb x = h.mb x
  lobuf : h.free .lobuf = m :: h'.free .lobuf
  pool : h.free q = d :: h'.free q

/-- No descriptor, and everything as it was. -/
structure NotFresh (own : Finset Block) (h : Heap) (q : Pool) (h' : Heap) : Prop where
  same : ∀ x ∈ h.InUse own, h'.mb x = h.mb x
  free : h'.free = h.free
  empty : h.free .lobuf = [] ∨ h.free q = []

theorem mbGet_result (hh : Held h own limbo) (k : DbType) (tx : Bool) (hq : dbufPool k tx ≠ .lobuf) :
    match (h.mbGet k tx).2 with
    | none => NotFresh own h (dbufPool k tx) (h.mbGet k tx).1
    | some m => ∃ d, Fresh own h (dbufPool k tx) m d (h.mbGet k tx).1 := by
  unfold mbGet
  cases hm : h.mAllocHdr with
  | none => exact ⟨fun _ _ => rfl, rfl, .inl (mAllocHdr_none hm)⟩
  | some r =>
    obtain ⟨m, h1⟩ := r
    obtain ⟨hh1, hmuse, -, hpool, hsame1⟩ := hh.mAllocHdr hm
    obtain ⟨hlobuf, hothers⟩ := mAllocHdr_free hm
    have hne : ∀ x ∈ h.InUse own, x ≠ m := by
      rintro x hx rfl
      exact hmuse hx
    dsimp only
    cases hd : h1.alloc (dbufPool k tx) with
    | none =>
      have hnil : h1.free (dbufPool k tx) = [] := by
        unfold alloc at hd
        split at hd
        · assumption
        · cases hd
      dsimp only
      rw [tnNetFreeMin_eq hpool]
      refine ⟨fun x hx => ?_, ?_, .inr ?_⟩
      · rw [put_mb_ne (hne x hx), hsame1 x hx]
      · funext q
        unfold put
        rw [hpool]
        rcases eq_or_ne q .lobuf with rfl | hql
        · simp [hlobuf]
        · simp [Function.update_of_ne hql, hothers q hql]
      · rw [← hothers _ hq]
        exact hnil
    | some r =>
      obtain ⟨d, h2⟩ := r
      obtain ⟨-, hduse, -, -, hmb⟩ := hh1.alloc hd
      have hfree : h1.free (dbufPool k tx) = d :: h2.free (dbufPool k tx) ∧
          h2.free .lobuf = h1.free .lobuf := by
        unfold alloc at hd
        split at hd
        · cases hd
        · rename_i c l hl
          cases hd
          exact ⟨by rw [hl]; simp, by simp [Function.update_of_ne (Ne.symm hq)]⟩
      dsimp only
      refine ⟨d, ⟨hmuse, ?_⟩, ?_, ?_, ?_, ?_⟩
      · rw [← inUse_frame fun x hx => Keeps.of_eq (hsame1 x hx)]
        exact hduse
      · simp [primDesc]
      · intro x hx
        rw [set_mb_ne (hne x hx), hmb, hsame1 x hx]
      · rw [set_free, hfree.2]
        exact hlobuf
      · rw [set_free, ← hothers _ hq]
        exact hfree.1

/-! ## The loop -/

/-- The number of descriptors in which `len` bytes behind `offset` lie. -/
def cover (h : Heap) : List Block → Int → Int → Nat
  | [], _, _ => 0
  | mb :: rest, offset, len =>
    if len ≤ (h.mb mb).mLen - offset then 1
    else h.cover rest 0 (len - ((h.mb mb).mLen - offset)) + 1

theorem Same.cover (hs : ∀ b ∈ chain, Same h h' b) :
    h'.cover chain offset len = h.cover chain offset len := by
  induction chain generalizing offset len with
  | nil => rfl
  | cons mb rest ih =>
    have hmb := (hs mb List.mem_cons_self).mLen
    unfold Heap.cover
    rw [hmb, ih fun b hb => hs b (List.mem_cons_of_mem mb hb)]

/-- The copies `new` behind `copies` are the slice. -/
structure Slice (own : Finset Block) (limbo : Set Block) (h : Heap) (chain : List Block) (offset len : Int)
    (n : Nat) (copies new : List Block) (h' : Heap) : Prop where
  nodup : (copies ++ new).Nodup
  fresh : ∀ b ∈ copies ++ new, b ∉ h.InUse own
  held : Held h' ((copies ++ new).toFinset ∪ own) limbo
  same : ∀ x ∈ h.InUse (copies.toFinset ∪ own), Same h h' x
  inside : offset + len ≤ h.chainLen chain
  bytes : ∀ mem, h'.chainBytes mem new =
    ((h.chainBytes mem chain).drop offset.toNat).take len.toNat
  count : new.length = n
  lobuf : h.free .lobuf = new ++ h'.free .lobuf
  others : ∀ q, q ≠ .lobuf → h'.free q = h.free q
  head : ∃ t ts, new = t :: ts ∧ (copies = [] → (h'.mb t).mTlen = BitVec.ofInt 20 len)

/-- What the loop leaves: a slice, or the descriptors as they were because the slice is not in the
    chain or there are too few headers. -/
def CopyResult (own : Finset Block) (limbo : Set Block) (h : Heap) (chain : List Block) (offset len : Int)
    (copies : List Block) (r : Heap × Copy) : Prop :=
  match r.2 with
  | .wild => False
  | .waits => False
  | .null => (∀ x ∈ h.InUse own, Same h r.1 x) ∧
      ¬ (offset + len ≤ h.chainLen chain ∧ h.cover chain offset len ≤ (h.free .lobuf).length)
  | .chain res =>
    ∃ new, res = copies ++ new ∧
      Slice own limbo h chain offset len (h.cover chain offset len) copies new r.1

section Step

variable {c : Desc}

/-- The header `t` becomes a copy of a descriptor with the primary descriptor `p`. -/
theorem same_copy (hsame : ∀ y ∈ h.InUse own, h'.mb y = h.mb y) (ht : t ∉ h.InUse own)
    (hx : x ∈ h.InUse own) : Same h ((h'.incRef p).set t c) x := by
  have hxt : x ≠ t := by
    rintro rfl
    exact ht hx
  exact (Same.of_eq (hsame x hx)).trans ((same_incRef h' p x).trans (.of_eq (set_mb_ne hxt _)))

/-- The bytes of the copy. -/
theorem bytes_copy {first : Bool} (htp : p ≠ t) (hpri : h.pri mb = some p) (ho : 0 ≤ offset) :
    ((h.incRef p).set t (h.copyDesc mb p first offset len)).bytes mem t =
      ((h.bytes mem mb).drop offset.toNat).take len.toNat := by
  have hdt : ((h.incRef p).set t (h.copyDesc mb p first offset len)).dbuf t = h.dbuf mb := by
    have hp1 : ((h.incRef p).set t (h.copyDesc mb p first offset len)).pri t = some p := by
      simp [pri, copyDesc]
    unfold dbuf
    rw [hp1, hpri, Option.bind_some, Option.bind_some, set_mb_ne htp, (same_incRef h p p).mDbuf]
  unfold bytes
  rw [bufBytes_drop_take, hdt, set_mb_self]
  simp only [copyDesc]
  congr 1
  omega

end Step

theorem length_bytes (mem : Bufs) (hh : Sharing h own) (hb : b ∈ own) :
    (h.bytes mem b).length = (h.mb b).mLen := by
  obtain ⟨-, p, hp⟩ := hh.hdr b hb
  obtain ⟨d, hd⟩ := hh.root p (isRoot_of_pri hb hp)
  unfold bytes dbuf
  rw [hp, Option.bind_some, hd.dbuf, length_bufBytes]

/-- A slice that goes beyond the first descriptor. -/
theorem slice_append {a l : List UInt8} {i k : Nat} (hi : i ≤ a.length) :
    (a.drop i).take k ++ l.take (k - (a.length - i)) = ((a ++ l).drop i).take k := by
  rw [List.drop_append_of_le_length hi, List.take_append, List.length_drop]

/-- A turn of the loop: `t` is the copy of `mb`. -/
structure CopyTurn (own : Finset Block) (limbo : Set Block) (h : Heap) (mb : Block) (offset len : Int)
    (copies : List Block) (t : Block) (h2 : Heap) : Prop where
  held : Held h2 ((copies ++ [t]).toFinset ∪ own) limbo
  nodup : (copies ++ [t]).Nodup
  fresh : ∀ b ∈ copies ++ [t], b ∉ h.InUse own
  same : ∀ x ∈ h.InUse (copies.toFinset ∪ own), Same h h2 x
  bytes : ∀ mem, (h.bytes mem mb).length = (h.mb mb).mLen ∧
    h2.bytes mem t = ((h.bytes mem mb).drop offset.toNat).take len.toNat
  lobuf : h.free .lobuf = t :: h2.free .lobuf
  others : ∀ q, q ≠ .lobuf → h2.free q = h.free q
  head : copies = [] → (h2.mb t).mTlen = BitVec.ofInt 20 len

theorem copyTurn (len : Int) (hh : Held h (copies.toFinset ∪ own) limbo) (hnd : copies.Nodup)
    (hfresh : ∀ b ∈ copies, b ∉ h.InUse own) (hmb : mb ∈ own) (ho : 0 ≤ offset)
    (ht : h.mAllocHdr = some (t, h')) :
    ∃ p, h'.pri mb = some p ∧ h'.mb mb = h.mb mb ∧ CopyTurn own limbo h mb offset len copies t
      ((h'.incRef p).set t (h'.copyDesc mb p copies.isEmpty offset len)) := by
  have hdisj : ∀ b ∈ copies, b ∉ own := fun b hb hbo => hfresh b hb (.inl hbo)
  obtain ⟨htuse, hsame1, hnd2, -, p, hp1, hp, hheld⟩ := hh.copyStep hnd hdisj hmb ht
  obtain ⟨hlobuf, hothers⟩ := mAllocHdr_free ht
  have hsub : h.InUse own ⊆ h.InUse (copies.toFinset ∪ own) := inUse_mono Finset.subset_union_right
  have hroot : h.IsRoot own p := isRoot_of_pri hmb hp
  have htp : p ≠ t := by
    rintro rfl
    exact htuse (hsub hroot.inUse)
  have hmbown := Finset.mem_union_right copies.toFinset hmb
  refine ⟨p, hp1, hsame1 mb (hsub (.inl hmb)), ?_⟩
  constructor
  case held => exact hheld _ rfl rfl
  case nodup => exact hnd2
  case fresh =>
    intro b hb
    rcases List.mem_append.mp hb with hb | hb
    · exact hfresh b hb
    · rw [List.mem_singleton.mp hb]
      exact fun hc => htuse (hsub hc)
  case same => exact fun x hx => same_copy hsame1 htuse hx
  case bytes =>
    intro mem
    refine ⟨length_bytes mem hh.sharing hmbown, ?_⟩
    rw [bytes_copy htp hp1 ho, Same.bytes (fun y hy => .of_eq (hsame1 y hy)) hmbown]
  case lobuf => exact hlobuf
  case others => exact hothers
  case head =>
    rintro rfl
    rw [set_mb_self]
    rfl

/-- The last descriptor of the slice. -/
theorem CopyTurn.last (hc : CopyTurn own limbo h mb offset len copies t h') (ho : 0 ≤ offset)
    (hoff : offset ≤ (h.mb mb).mLen) (hfin : len ≤ (h.mb mb).mLen - offset) (rest : List Block) :
    Slice own limbo h (mb :: rest) offset len (h.cover (mb :: rest) offset len) copies [t] h' := by
  constructor
  case nodup => exact hc.nodup
  case fresh => exact hc.fresh
  case held => exact hc.held
  case same => exact hc.same
  case inside =>
    rw [chainLen_cons]
    push_cast
    omega
  case bytes =>
    intro mem
    obtain ⟨hl, hb⟩ := hc.bytes mem
    rw [chainBytes_cons, chainBytes_cons, hb, List.drop_append_of_le_length (by omega),
      List.take_append_of_le_length]
    · exact List.append_nil _
    · rw [List.length_drop]
      omega
  case count =>
    unfold cover
    rw [if_pos hfin]
    rfl
  case lobuf => exact hc.lobuf
  case others => exact hc.others
  case head => exact ⟨t, [], rfl, hc.head⟩

/-- There is no slice in the rest of the chain: there is none. -/
theorem CopyTurn.no_slice {rest : List Block} {h3 : Heap}
    (hc : CopyTurn own limbo h mb offset len copies t h') (hown : ∀ b ∈ rest, b ∈ own)
    (hlen : (h.mb mb).mLen - offset < len) (hr : (∀ x ∈ h'.InUse own, Same h' h3 x) ∧
      ¬ (0 + (len - ((h.mb mb).mLen - offset)) ≤ h'.chainLen rest ∧
        h'.cover rest 0 (len - ((h.mb mb).mLen - offset)) ≤ (h'.free .lobuf).length)) :
    (∀ x ∈ h.InUse own, Same h h3 x) ∧ ¬ (offset + len ≤ h.chainLen (mb :: rest) ∧
      h.cover (mb :: rest) offset len ≤ (h.free .lobuf).length) := by
  obtain ⟨hsame3, hno⟩ := hr
  have hsub : h.InUse own ⊆ h.InUse (copies.toFinset ∪ own) := inUse_mono Finset.subset_union_right
  have huse : h'.InUse own = h.InUse own := inUse_frame fun x hx => (hc.same x (hsub hx)).keeps
  refine ⟨fun x hx => (hc.same x (hsub hx)).trans (hsame3 x (by rw [huse]; exact hx)), ?_⟩
  rintro ⟨hin, hcover⟩
  refine hno ⟨?_, ?_⟩
  · rw [Same.chainLen (fun x hx => hc.same x (hsub hx)) hown]
    rw [chainLen_cons] at hin
    push_cast at hin
    omega
  · rw [Same.cover fun b hb => hc.same b (hsub (.inl (hown b hb)))]
    unfold cover at hcover
    rw [if_neg (by omega), hc.lobuf, List.length_cons] at hcover
    omega

/-- The copy of the first descriptor in front of the copies of the others. -/
theorem CopyTurn.cons {rest new : List Block} {h2 : Heap}
    (hc : CopyTurn own limbo h mb offset len copies t h2)
    (hs : Slice own limbo h2 rest 0 (len - ((h.mb mb).mLen - offset))
      (h2.cover rest 0 (len - ((h.mb mb).mLen - offset))) (copies ++ [t]) new h')
    (hown : ∀ b ∈ rest, b ∈ own) (ho : 0 ≤ offset)
    (hoff : offset ≤ (h.mb mb).mLen) (hlen : (h.mb mb).mLen - offset < len) :
    Slice own limbo h (mb :: rest) offset len (h.cover (mb :: rest) offset len) copies (t :: new) h' := by
  have hsame := hc.same
  have hsub : h.InUse own ⊆ h.InUse (copies.toFinset ∪ own) := inUse_mono Finset.subset_union_right
  have hsame' : ∀ x ∈ h.InUse own, Same h h2 x := fun x hx => hsame x (hsub hx)
  have hlist : copies ++ t :: new = (copies ++ [t]) ++ new := by simp
  have huse : h2.InUse (copies.toFinset ∪ own) = h.InUse (copies.toFinset ∪ own) :=
    inUse_frame fun x hx => (hsame x hx).keeps
  have huse2 : h2.InUse (copies.toFinset ∪ own) ⊆ h2.InUse ((copies ++ [t]).toFinset ∪ own) :=
    inUse_mono (Finset.union_subset_union_left (by simp [List.toFinset_append]))
  have htmem : t ∈ (copies ++ [t]).toFinset ∪ own := by simp
  constructor
  case nodup =>
    rw [hlist]
    exact hs.nodup
  case fresh =>
    rw [hlist, ← inUse_frame fun x hx => (hsame' x hx).keeps]
    exact hs.fresh
  case held =>
    rw [hlist]
    exact hs.held
  case same =>
    intro x hx
    refine (hsame x hx).trans (hs.same x (huse2 ?_))
    rw [huse]
    exact hx
  case inside =>
    have hin := hs.inside
    rw [Same.chainLen hsame' hown] at hin
    rw [chainLen_cons]
    push_cast
    omega
  case bytes =>
    intro mem
    obtain ⟨hl, hb⟩ := hc.bytes mem
    rw [chainBytes_cons, Same.bytes hs.same htmem, hb, hs.bytes, Same.chainBytes hsame' hown,
      chainBytes_cons, ← slice_append (by omega), hl]
    congr 2
    omega
  case count =>
    rw [List.length_cons, hs.count, Same.cover fun b hb => hsame' b (.inl (hown b hb))]
    conv_rhs => unfold cover
    rw [if_neg (by omega)]
  case lobuf =>
    rw [hc.lobuf, hs.lobuf]
    rfl
  case others =>
    intro q hq
    rw [hs.others q hq, hc.others q hq]
  case head =>
    refine ⟨t, new, rfl, fun hnil => ?_⟩
    rw [(hs.same t (.inl htmem)).mTlen]
    exact hc.head hnil

theorem copyLoop_slice (orgLen : Int) (chain : List Block) :
    ∀ {offset len total : Int} {copies : List Block} {h : Heap},
      Held h (copies.toFinset ∪ own) limbo → copies.Nodup → (∀ b ∈ copies, b ∉ h.InUse own) →
      (∀ b ∈ chain, b ∈ own) → (copies ≠ [] ∨ h.free .lobuf ≠ []) → 0 ≤ offset → 0 < len →
      total + len = orgLen → (∀ mb ∈ chain.head?, offset ≤ (h.mb mb).mLen) →
      CopyResult own limbo h chain offset len copies
        (copyLoop orgLen chain offset len total copies .MB_NOWAIT h) := by
  induction chain with
  | nil =>
    intro offset len total copies h hh hnd hfresh _ _ ho hl _ _
    refine ⟨fun x hx => rollback_same hh hnd (fun b hb hbo => hfresh b hb (.inl hbo)) hx, ?_⟩
    · rintro ⟨hin, -⟩
      simp only [chainLen, List.map_nil, List.sum_nil] at hin
      omega
  | cons mb rest ih =>
    intro offset len total copies h hh hnd hfresh hown hroom ho hl htotal hoff
    have hoff := hoff mb rfl
    unfold copyLoop waitHdr
    cases ht : h.mAllocHdr with
    | none =>
      have hnil := mAllocHdr_none ht
      have hne : copies ≠ [] := hroom.resolve_right fun hf => hf hnil
      simp only [if_pos hne]
      refine ⟨fun x hx => rollback_same hh hnd (fun b hb hbo => hfresh b hb (.inl hbo)) hx, ?_⟩
      rintro ⟨-, hcover⟩
      rw [hnil] at hcover
      unfold cover at hcover
      split at hcover <;> simp at hcover
    | some r =>
      obtain ⟨t, h1⟩ := r
      obtain ⟨p, hp, hmb1, hturn⟩ := copyTurn len hh hnd hfresh (hown mb List.mem_cons_self) ho ht
      simp only [hp]
      have hlen2 : (h1.copyDesc mb p copies.isEmpty offset len).mLen =
          (min len ((h.mb mb).mLen - offset)).toNat := by
        simp only [copyDesc, hmb1]
      rw [hlen2]
      generalize (h1.incRef p).set t (h1.copyDesc mb p copies.isEmpty offset len) = h2 at *
      by_cases hfin : len ≤ (h.mb mb).mLen - offset
      · -- the last descriptor of the slice
        rw [if_pos (by omega), if_neg (by omega)]
        exact ⟨[t], rfl, hturn.last ho hoff hfin rest⟩
      · have hd : ((min len ((h.mb mb).mLen - offset)).toNat : Int) = (h.mb mb).mLen - offset := by omega
        rw [hd, if_neg (by omega)]
        have huse : h2.InUse own = h.InUse own :=
          inUse_frame fun x hx => (hturn.same x (inUse_mono Finset.subset_union_right hx)).keeps
        have hrest : ∀ b ∈ rest, b ∈ own := fun b hb => hown b (List.mem_cons_of_mem mb hb)
        have hr := @ih 0 (len - ((h.mb mb).mLen - offset)) (total + ((h.mb mb).mLen - offset))
          (copies ++ [t]) h2 hturn.held hturn.nodup (by rw [huse]; exact hturn.fresh) hrest (.inl (by simp))
          (le_refl 0) (by omega) (by omega) (fun b _ => Int.natCast_nonneg _)
        generalize copyLoop orgLen rest 0 (len - ((h.mb mb).mLen - offset))
          (total + ((h.mb mb).mLen - offset)) (copies ++ [t]) .MB_NOWAIT h2 = r at hr ⊢
        obtain ⟨h3, res⟩ := r
        cases res with
        | wild => exact hr
        | waits => exact hr
        | null => exact hturn.no_slice hrest (by omega) hr
        | chain res =>
          obtain ⟨new, rfl, hs⟩ := hr
          exact ⟨t :: new, by simp, hturn.cons hs hrest ho hoff (by omega)⟩

/-! ## The descriptors in front of the slice -/

/-- What `skip` leaves begins with the descriptor the slice begins in. -/
theorem skip_spec (hs : Sharing h own) {rest : List Block} {off : Int} :
    ∀ {chain : List Block} {offset : Int}, (∀ b ∈ chain, b ∈ own) → 0 ≤ offset →
      h.skip chain offset = (rest, off) →
      0 ≤ off ∧ (∀ mb ∈ rest.head?, off < (h.mb mb).mLen) ∧
      (rest = [] ↔ h.chainLen chain ≤ offset) ∧
        (rest ≠ [] → (h.chainLen rest : Int) - off = h.chainLen chain - offset) ∧
        ∀ mem, (h.chainBytes mem chain).drop offset.toNat = (h.chainBytes mem rest).drop off.toNat := by
  intro chain
  induction chain with
  | nil =>
    intro offset _ ho heq
    cases heq
    exact ⟨ho, by simp, by simpa [chainLen] using ho, fun hc => absurd rfl hc, fun _ => rfl⟩
  | cons mb l ih =>
    intro offset hown ho heq
    unfold skip at heq
    split at heq
    · rename_i hle
      obtain ⟨h1, h2, h3, h4, h5⟩ :=
        ih (fun b hb => hown b (List.mem_cons_of_mem mb hb)) (by omega) heq
      refine ⟨h1, h2, ?_, ?_, ?_⟩
      · rw [h3, chainLen_cons]
        push_cast
        omega
      · intro hne
        rw [h4 hne, chainLen_cons]
        push_cast
        omega
      · intro mem
        have hl := length_bytes mem hs (hown mb List.mem_cons_self)
        rw [← h5, chainBytes_cons, List.drop_append, List.drop_eq_nil_of_le (by omega), List.nil_append, hl]
        congr 1
        omega
    · rename_i hlt
      cases heq
      refine ⟨ho, ?_, ?_, fun _ => rfl, fun _ => rfl⟩
      · intro b hb
        cases hb
        omega
      · rw [chainLen_cons]
        simp only [reduceCtorEq, false_iff]
        push_cast
        omega

/-- The number of descriptors `m_copym` copies. -/
def copyCount (h : Heap) (chain : List Block) (offset len : Int) : Nat :=
  h.cover (h.skip chain offset).1 (h.skip chain offset).2 len

/-- A slice that begins in the chain is copied by the loop. -/
theorem mCopym_loop (hs : Sharing h own) (hown : ∀ b ∈ chain, b ∈ own) (ho : 0 ≤ offset) (hl : 0 < len)
    (hin : offset < h.chainLen chain) (wait : Wait) :
    ∃ mb rest off, h.mCopym chain offset len wait = copyLoop len (mb :: rest) off len 0 [] wait h := by
  obtain ⟨rest, off, hskip⟩ : ∃ rest off, h.skip chain offset = (rest, off) := ⟨_, _, rfl⟩
  obtain ⟨-, -, h3, -, -⟩ := skip_spec hs hown ho hskip
  have hne : rest ≠ [] := fun hc => by
    have := h3.mp hc
    omega
  obtain ⟨mb, rest, rfl⟩ := List.exists_cons_of_ne_nil hne
  refine ⟨mb, rest, off, ?_⟩
  unfold mCopym
  rw [if_neg (by omega), hskip]

theorem mAllocHdr_of_nil (hnil : h.free .lobuf = []) : h.mAllocHdr = none := by
  unfold mAllocHdr alloc
  rw [hnil]
  rfl

/-- When there is no header at all, `m_copym` writes through `NULL`. -/
theorem mCopym_noHeader (hs : Sharing h own) (hown : ∀ b ∈ chain, b ∈ own) (ho : 0 ≤ offset)
    (hl : 0 < len) (hin : offset < h.chainLen chain) (hnil : h.free .lobuf = []) :
    (h.mCopym chain offset len .MB_NOWAIT).2 = .wild := by
  obtain ⟨mb, rest, off, heq⟩ := mCopym_loop hs hown ho hl hin .MB_NOWAIT
  rw [heq]
  simp only [copyLoop, waitHdr, mAllocHdr_of_nil hnil, ne_eq, not_true_eq_false, if_false]
  cases h.pri mb <;> rfl

/-- **What `m_copym` does** when the first header can be allocated. -/
def CopymResult (own : Finset Block) (limbo : Set Block) (h : Heap) (chain : List Block) (offset len : Int)
    (r : Heap × Copy) : Prop :=
  match r.2 with
  | .wild => False
  | .waits => False
  | .null => Held r.1 own limbo ∧ (∀ x ∈ h.InUse own, Same h r.1 x) ∧
      ¬ (offset + len ≤ h.chainLen chain ∧ h.copyCount chain offset len ≤ (h.free .lobuf).length)
  | .chain copies =>
      Slice own limbo h chain offset len (h.copyCount chain offset len) [] copies r.1

theorem mCopym_result (hh : Held h own limbo) (hown : ∀ b ∈ chain, b ∈ own) (ho : 0 ≤ offset)
    (hl : 0 < len) (hroom : offset < h.chainLen chain → h.free .lobuf ≠ []) :
    CopymResult own limbo h chain offset len (h.mCopym chain offset len .MB_NOWAIT) := by
  obtain ⟨rest, off, hskip⟩ : ∃ rest off, h.skip chain offset = (rest, off) := ⟨_, _, rfl⟩
  obtain ⟨h1, h2, h3, h4, h5⟩ := skip_spec hh.sharing hown ho hskip
  have hsub := skip_subset (h := h) chain offset
  rw [hskip] at hsub
  have hcount : h.copyCount chain offset len = h.cover rest off len := by
    unfold copyCount
    rw [hskip]
  cases rest with
  | nil =>
    have hm : h.mCopym chain offset len .MB_NOWAIT = (h, .null) := by
      unfold mCopym
      rw [if_neg (by omega)]
      simp only [hskip]
    rw [hm]
    refine ⟨hh, fun x _ => .of_eq rfl, ?_⟩
    rintro ⟨hin, -⟩
    have := h3.mp rfl
    omega
  | cons mb rest =>
    have hin : offset < h.chainLen chain := by
      have : ¬ (h.chainLen chain : Int) ≤ offset := by
        rw [← h3]
        simp
      omega
    have hres : CopyResult own limbo h (mb :: rest) off len []
        (copyLoop len (mb :: rest) off len 0 [] .MB_NOWAIT h) :=
      copyLoop_slice len (mb :: rest) (by simpa using hh) List.nodup_nil (by simp)
        (fun b hb => hown b (hsub b hb)) (.inr (hroom hin)) h1 hl (by omega) (fun b hb => (h2 b hb).le)
    have hheld : CopyOk own limbo (copyLoop len (mb :: rest) off len 0 [] .MB_NOWAIT h) :=
      copyLoop_ok len (mb :: rest) (by simpa using hh) List.nodup_nil (by simp)
        (fun b hb => hown b (hsub b hb)) (.inr (hroom hin))
    have hlen := h4 (by simp)
    have hm : h.mCopym chain offset len .MB_NOWAIT =
        copyLoop len (mb :: rest) off len 0 [] .MB_NOWAIT h := by
      unfold mCopym
      rw [if_neg (by omega)]
      simp only [hskip]
    rw [hm]
    unfold CopymResult
    unfold CopyResult at hres
    unfold CopyOk at hheld
    generalize copyLoop len (mb :: rest) off len 0 [] .MB_NOWAIT h = r at hres hheld ⊢
    obtain ⟨h', res⟩ := r
    cases res with
    | wild => exact hres
    | waits => exact hres
    | null =>
      refine ⟨hheld, hres.1, ?_⟩
      rintro ⟨hin2, hc⟩
      exact hres.2 ⟨by omega, by rw [← hcount]; exact hc⟩
    | chain copies =>
      obtain ⟨new, hnew, hs⟩ := hres
      rw [List.nil_append] at hnew
      subst hnew
      obtain ⟨k1, k2, k3, k4, k5, k6, k7, k8, k9, k10⟩ := hs
      refine ⟨k1, k2, k3, k4, by omega, ?_, by rw [hcount]; exact k7, k8, k9, k10⟩
      intro mem
      rw [k6, h5]

/-! ## Lengths and counts -/

theorem chainLen_le {n : Nat} (hle : ∀ b ∈ chain, (h.mb b).mLen ≤ n) :
    h.chainLen chain ≤ chain.length * n := by
  induction chain with
  | nil => simp [chainLen]
  | cons b l ih =>
    have h1 := hle b List.mem_cons_self
    have h2 := ih fun c hc => hle c (List.mem_cons_of_mem b hc)
    rw [chainLen_cons, List.length_cons, Nat.add_mul]
    omega

/-- The chain is short enough for `m_tlen`. -/
theorem chainLen_lt (hh : Held h own limbo) (hnd : chain.Nodup) (hown : ∀ b ∈ chain, b ∈ own)
    (hbuf : ∀ b ∈ chain, h.InBuf b) : h.chainLen chain < 2 ^ 20 := by
  have hlen : chain.length ≤ 64 := by
    rw [← List.toFinset_card_of_nodup hnd]
    exact (Finset.card_le_card fun b hb => hown b (List.mem_toFinset.mp hb)).trans hh.card_le
  have hsum : h.chainLen chain ≤ chain.length * 1536 := by
    apply chainLen_le
    intro b hb
    obtain ⟨-, p, hp⟩ := hh.sharing.hdr b (hown b hb)
    have h1 := hbuf b hb p hp
    have h2 : mGetDbufSize (h.mb p).mDbtype ≤ 1536 := by
      cases (h.mb p).mDbtype <;> decide
    omega
  omega

/-- Counts and free lists follow from the descriptors that designate each buffer. -/
theorem Held.unchanged (hh : Held h own limbo) (hh' : Held h' own limbo)
    (hs : ∀ x ∈ h.InUse own, Same h h' x) :
    (∀ p, h.IsRoot own p → (h'.mb p).mRefcnt = (h.mb p).mRefcnt) ∧ ∀ q,
    (h'.free q).Perm (h.free q) := by
  have hk : ∀ x ∈ h.InUse own, Keeps h h' x := fun x hx => (hs x hx).keeps
  constructor
  · intro p hp
    apply BitVec.eq_of_toNat_eq
    rw [hh.counted p hp, hh'.counted p ((isRoot_frame hk).mpr hp), live_frame hk]
  · intro q
    rw [List.perm_ext_iff_of_nodup (hh'.lists.nodup q) (hh.lists.nodup q)]
    intro x
    rw [hh'.lists.mem_iff, hh.lists.mem_iff, inUse_frame hk]

/-- New copies count. -/
theorem Held.recount (hh : Held h own limbo) (hh' : Held h' (copies.toFinset ∪ own) limbo)
    (hnd : copies.Nodup) (hdisj : ∀ b ∈ copies, b ∉ own) (hs : ∀ x ∈ h.InUse own, Same h h' x)
    (hp : h.IsRoot own p) : (h'.mb p).mRefcnt.toNat =
      (h.mb p).mRefcnt.toNat + copies.countP fun t => decide (h'.pri t = some p) := by
  have hk : ∀ x ∈ h.InUse own, Keeps h h' x := fun x hx => (hs x hx).keeps
  have hunion : h'.live (copies.toFinset ∪ own) p = h'.live copies.toFinset p ∪ h'.live own p :=
    Finset.filter_union ..
  have hlist : h'.live copies.toFinset p =
      (copies.filter fun t => decide (h'.pri t = some p)).toFinset := by
    ext t
    simp [live]
  have hroot : h'.IsRoot (copies.toFinset ∪ own) p := by
    rw [IsRoot, hunion, live_frame hk]
    exact hp.inr
  rw [hh'.counted p hroot, hh.counted p hp, hunion, Finset.card_union_of_disjoint, live_frame hk, hlist,
    List.toFinset_card_of_nodup (hnd.filter _), List.countP_eq_length_filter, Nat.add_comm]
  rw [Finset.disjoint_left]
  intro t ht hto
  exact hdisj t (List.mem_toFinset.mp (mem_live.mp ht).1) (mem_live.mp hto).1

end Heap

open Heap

/-- One descriptor with 5 bytes. -/
def fiveBytes : Owners :=
  [.get .MB_MID1 true, .fill ⟨.lobuf, 0⟩ 5 0 5].foldl Owners.step Owners.start

theorem held_fiveBytes : Held fiveBytes.heap fiveBytes.own ∅ := held_run _ (by decide)

end TnNet.Mem
