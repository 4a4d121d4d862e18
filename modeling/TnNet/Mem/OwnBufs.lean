import TnNet.Mem.Bytes

/-!
# Chains of descriptors with data buffers of their own

What `mb_get` gives, and what the driver passes up: no two descriptors of the chain share a data buffer,
so a write into one leaves the bytes of the others.
-/

set_option autoImplicit false

namespace TnNet.Mem.Heap

open Bytes

variable {h h' h1 : Heap} {own : Finset Block} {limbo : Set Block} {mem : Bufs} {chain l : List Block}
  {b c d m : Block} {a : List UInt8} {i : Nat}

/-- Descriptors with data buffers of their own. -/
structure OwnBufs (h : Heap) (own : Finset Block) (limbo : Set Block) (chain : List Block) : Prop where
  held : Held h own limbo
  own : ∀ b ∈ chain, b ∈ own ∧ (h.mb b).dbhdr = true
  nodup : chain.Nodup

namespace OwnBufs

theorem primary (ho : OwnBufs h own limbo chain) (hb : b ∈ chain) : h.pri b = some b := by
  simp [Heap.pri, (ho.own b hb).2]

theorem exists_dbuf (ho : OwnBufs h own limbo chain) (hb : b ∈ chain) : ∃ d, h.dbuf b = some d :=
  Heap.exists_dbuf ho.held.sharing (ho.own b hb).1

/-- Two descriptors have two data buffers. -/
theorem dbuf_ne (ho : OwnBufs h own limbo chain) (hb : b ∈ chain) (hc : c ∈ chain) (hne : b ≠ c) :
    h.dbuf b ≠ h.dbuf c := by
  intro heq
  have hsame : (h.mb b).mDbuf = (h.mb c).mDbuf := by
    simpa [Heap.dbuf, ho.primary hb, ho.primary hc] using heq
  exact hne (ho.held.sharing.inj b c (isRoot_of_pri (ho.own b hb).1 (ho.primary hb))
    (isRoot_of_pri (ho.own c hc).1 (ho.primary hc)) hsame)

/-- A part of the chain. -/
theorem sublist (ho : OwnBufs h own limbo chain) (hs : l.Sublist chain) : OwnBufs h own limbo l :=
  ⟨ho.held, fun b hb => ho.own b (hs.subset hb), ho.nodup.sublist hs⟩

/-- Lengths and other flags may change. -/
theorem same (ho : OwnBufs h own limbo chain) (hr : SameRefs h h')
    (hd : ∀ b ∈ chain, (h'.mb b).dbhdr = (h.mb b).dbhdr) : OwnBufs h' own limbo chain :=
  ⟨ho.held.same hr, fun b hb => ⟨(ho.own b hb).1, (hd b hb).trans (ho.own b hb).2⟩, ho.nodup⟩

/-- A write into the buffer of one descriptor leaves the bytes of another. -/
theorem bytes_other (ho : OwnBufs h own limbo chain) (hb : b ∈ chain) (hc : c ∈ chain)
    (hne : c ≠ b) (pos : Nat)
    (a : List UInt8) : h.bytes (writeBuf mem (h.dbuf b) pos a) c = h.bytes mem c := by
  obtain ⟨d, hd⟩ := ho.exists_dbuf hb
  have honly := only_writeBuf mem d pos (rfl : a.length = a.length)
  unfold Heap.bytes
  rw [hd]
  exact honly.bufBytes (.inl fun h1 => ho.dbuf_ne hc hb hne (h1.trans hd.symm))

/-- A write into the first descriptor. -/
theorem chainBytes_writeBuf (ho : OwnBufs h own limbo (m :: l)) (hi : i + a.length ≤ (h.mb m).mLen) :
    h.chainBytes (writeBuf mem (h.dbuf m) ((h.mb m).mData + i) a) (m :: l) =
      splice (h.bytes mem m) i a ++ h.chainBytes mem l := by
  obtain ⟨d, hd⟩ := ho.exists_dbuf List.mem_cons_self
  have hrest : h.chainBytes (writeBuf mem (h.dbuf m) ((h.mb m).mData + i) a) l = h.chainBytes mem l := by
    refine List.flatMap_congr fun b hb =>
      ho.bytes_other List.mem_cons_self (List.mem_cons_of_mem _ hb) ?_ _ _
    rintro rfl
    exact (List.nodup_cons.mp ho.nodup).1 hb
  rw [chainBytes_cons, hrest]
  unfold Heap.bytes
  rw [hd, bufBytes_splice hi]

/-- What `mb_get` adds. -/
structure Added (h h1 : Heap) (own : Finset Block) (limbo : Set Block) (m : Block)
    (chain : List Block) : Prop where
  bufs : OwnBufs h1 (insert m own) limbo (m :: chain)
  new : m ∉ h.InUse own ∧ ∀ d, h1.dbuf m = some d → d ∉ h.InUse own
  mData : (h1.mb m).mData = 0
  same : ∀ x ∈ h.InUse own, h1.mb x = h.mb x

theorem mbGet {k : DbType} {tx : Bool} (ho : OwnBufs h own limbo chain) (hq : dbufPool k tx ≠ .lobuf)
    (hget : h.mbGet k tx = (h1, some m)) : Added h h1 own limbo m chain := by
  have hheld := ho.held.mbGet k tx
  have hres := mbGet_result ho.held k tx hq
  rw [hget] at hheld hres
  obtain ⟨d, hf⟩ := hres
  simp only [Option.toFinset_some, Finset.singleton_union] at hheld
  have hdesc : (h1.mb m).dbhdr = true ∧ (h1.mb m).mDbuf = some d ∧ (h1.mb m).mData = 0 := by
    rw [hf.desc]
    exact ⟨rfl, rfl, rfl⟩
  have hm : ∀ b ∈ chain, b ≠ m := by
    rintro b hb rfl
    exact hf.notUse.1 (.inl (ho.own b hb).1)
  refine ⟨⟨hheld, ?_, List.nodup_cons.mpr ⟨fun hc => hm m hc rfl, ho.nodup⟩⟩, ⟨hf.notUse.1, ?_⟩,
    hdesc.2.2, hf.same⟩
  · intro b hb
    rcases List.mem_cons.mp hb with rfl | hb
    · exact ⟨Finset.mem_insert_self _ _, hdesc.1⟩
    · obtain ⟨h2, h3⟩ := ho.own b hb
      rw [hf.same b (.inl h2)]
      exact ⟨Finset.mem_insert_of_mem h2, h3⟩
  · intro e he
    have heq : h1.dbuf m = some d := by simp [Heap.dbuf, Heap.pri, hdesc.1, hdesc.2.1]
    obtain rfl := Option.some_inj.mp (heq.symm.trans he)
    exact hf.notUse.2

/-- The bytes of what was there. -/
theorem Added.chainBytes (ha : Added h h1 own limbo m chain) (hl : ∀ b ∈ l, b ∈ own) (mem : Bufs) :
    h1.chainBytes mem l = h.chainBytes mem l :=
  Same.chainBytes (fun x hx => .of_eq (ha.same x hx)) hl

end OwnBufs

end TnNet.Mem.Heap
