import TnNet.Mem.Bytes

/-!
# `m_adj` and `m_adj_free` on the bytes of a chain

* `adjHead_spec`, `adjKeep_spec` — what the two loops of `m_adj` leave of the bytes.
* `adj_cuts` — `m_adj` cuts bytes off the front of a chain, or off its end; so does `m_adj_free` off the
  end, and it gives each descriptor behind the ones it keeps to `m_free` once.
-/

set_option autoImplicit false

namespace TnNet.Mem

namespace Heap

variable {h h' : Heap} {own : Finset Block} {limbo : Set Block} {b mp x : Block} {chain l : List Block}
  {mem : Bufs} {count len : Nat} {n : Int}

/-! ## Headers -/

/-- `m_tlen` and `M_PKTHDR` stay the same. -/
def SameHdr (h h' : Heap) (x : Block) : Prop :=
  (h'.mb x).mTlen = (h.mb x).mTlen ∧ (h'.mb x).pkthdr = (h.mb x).pkthdr

theorem sameHdr_trim (h : Heap) (b : Block) (len data : Nat) (x : Block) :
    SameHdr h (h.trim b len data) x := by
  unfold SameHdr trim
  rcases eq_or_ne x b with rfl | hx
  · rw [set_mb_self]
    exact ⟨rfl, rfl⟩
  · rw [set_mb_ne hx]
    exact ⟨rfl, rfl⟩

theorem SameHdr.trans {h'' : Heap} (h1 : SameHdr h h' x) (h2 : SameHdr h' h'' x) : SameHdr h h'' x :=
  ⟨h2.1.trans h1.1, h2.2.trans h1.2⟩

theorem Same.hdr (hs : Same h h' x) : SameHdr h h' x := by
  unfold SameHdr
  rw [hs]
  exact ⟨rfl, rfl⟩

theorem adjTlen_mTlen (f : BitVec 20 → BitVec 20) (hp : (h.mb mp).pkthdr = true) :
    ((h.adjTlen mp f).mb mp).mTlen = f (h.mb mp).mTlen := by
  rw [adjTlen, if_pos hp, set_mb_self]

theorem chainBytes_adjTlen (mem : Bufs) (h : Heap) (mp : Block) (f : BitVec 20 → BitVec 20)
    (chain : List Block) : (h.adjTlen mp f).chainBytes mem chain = h.chainBytes mem chain :=
  have hd := sameData_adjTlen h mp f
  chainBytes_refs mem hd.1.refs fun b _ => ⟨hd.1.mData b, hd.2 b⟩

theorem chainLen_adjTlen (h : Heap) (mp : Block) (f : BitVec 20 → BitVec 20) (chain : List Block) :
    (h.adjTlen mp f).chainLen chain = h.chainLen chain :=
  congrArg List.sum (List.map_congr_left fun b _ => (sameData_adjTlen h mp f).2 b)

/-! ## The loops -/

/-- A descriptor behind `m_len` and `m_data` have been set. -/
theorem bytes_trim (mem : Bufs) (h : Heap) (b : Block) (len data : Nat) :
    (h.trim b len data).bytes mem b = bufBytes mem (h.dbuf b) data len := by
  unfold bytes
  rw [dbuf_refs (sameRefs_trim h b len data), trim, set_mb_self]

theorem chainBytes_of_frame (mem : Bufs) (hr : SameRefs h h') (hl : ∀ b ∈ l, h'.mb b = h.mb b) :
    h'.chainBytes mem l = h.chainBytes mem l :=
  chainBytes_refs mem hr fun b hb => ⟨by rw [hl b hb], by rw [hl b hb]⟩

theorem adjHead_frame (hx : x ∉ chain) : (adjHead chain len h).1.mb x = h.mb x := by
  induction chain generalizing len h with
  | nil => rfl
  | cons m l ih =>
    rw [List.mem_cons, not_or] at hx
    unfold adjHead
    split
    · rfl
    · split
      · rw [ih hx.2, trim, set_mb_ne hx.1]
      · rw [trim, set_mb_ne hx.1]

theorem adjHead_hdr (chain : List Block) (len : Nat) (h : Heap) (x : Block) :
    SameHdr h (adjHead chain len h).1 x := by
  induction chain generalizing len h with
  | nil => exact ⟨rfl, rfl⟩
  | cons m l ih =>
    unfold adjHead
    split
    · exact ⟨rfl, rfl⟩
    · split
      · exact (sameHdr_trim ..).trans (ih ..)
      · exact sameHdr_trim ..

/-- **The loop from the head.** -/
theorem adjHead_spec (mem : Bufs) (hs : Sharing h own) (hnd : chain.Nodup) (hown : ∀ b ∈ chain, b ∈ own) :
    (adjHead chain len h).1.chainBytes mem chain = (h.chainBytes mem chain).drop len ∧
      (adjHead chain len h).2 = len - h.chainLen chain := by
  induction chain generalizing len h with
  | nil => simp [adjHead, chainBytes, chainLen]
  | cons m l ih =>
    rw [List.nodup_cons] at hnd
    have hl : ∀ b ∈ l, b ∈ own := fun b hb => hown b (List.mem_cons_of_mem m hb)
    have hlen := length_bytes mem hs (hown m List.mem_cons_self)
    have hrest : ∀ len' data, ∀ b ∈ l, (h.trim m len' data).mb b = h.mb b := by
      intro len' data b hb
      have hne : b ≠ m := fun heq => hnd.1 (heq ▸ hb)
      exact set_mb_ne hne _
    unfold adjHead
    split
    · rename_i h0
      subst h0
      exact ⟨rfl, by omega⟩
    · split
      · -- the descriptor is emptied
        rename_i hle
        have href := sameRefs_trim h m 0 (h.mb m).mData
        have hbytes := chainBytes_of_frame mem href (hrest 0 (h.mb m).mData)
        have hsum : (h.trim m 0 (h.mb m).mData).chainLen l = h.chainLen l :=
          congrArg List.sum (List.map_congr_left fun b hb => by rw [hrest 0 (h.mb m).mData b hb])
        have hempty : (h.trim m 0 (h.mb m).mData).bytes mem m = [] := by
          rw [bytes_trim]
          cases h.dbuf m <;> rfl
        obtain ⟨h1, h2⟩ := @ih _ (len - (h.mb m).mLen) (hs.frame fun y _ => href.keeps y) hnd.2 hl
        have hm : (adjHead l (len - (h.mb m).mLen) (h.trim m 0 (h.mb m).mData)).1.bytes mem m = [] := by
          rw [← hempty]
          unfold bytes
          rw [dbuf_refs (sameRefs_adjHead ..), adjHead_frame hnd.1]
        rw [chainBytes_cons, chainBytes_cons, hm, h1, h2, hbytes, hsum, chainLen_cons,
          List.drop_append, hlen,
          List.drop_eq_nil_of_le (show (h.bytes mem m).length ≤ len by omega)]
        exact ⟨rfl, by omega⟩
      · -- it keeps its end
        rename_i hlt
        have hbytes :=
          chainBytes_of_frame mem (sameRefs_trim h m ((h.mb m).mLen - len) ((h.mb m).mData + len))
          (hrest ((h.mb m).mLen - len) ((h.mb m).mData + len))
        have hm := bufBytes_drop_take mem (h.dbuf m) (h.mb m).mData (h.mb m).mLen len ((h.mb m).mLen - len)
        rw [Nat.min_self, List.take_of_length_le
          (by rw [List.length_drop]; exact (congrArg (· - len) hlen).le)] at hm
        rw [chainBytes_cons, chainBytes_cons, bytes_trim, ← hm, hbytes, chainLen_cons,
          List.drop_append, hlen, show len - (h.mb m).mLen = 0 by omega, List.drop_zero]
        exact ⟨rfl, by omega⟩

theorem zero_frame (hx : x ∉ l) : (l.foldl (fun h b => h.trim b 0 (h.mb b).mData) h).mb x = h.mb x := by
  induction l generalizing h with
  | nil => rfl
  | cons m l ih =>
    rw [List.mem_cons, not_or] at hx
    rw [List.foldl_cons, ih hx.2, trim, set_mb_ne hx.1]

theorem zero_hdr (l : List Block) (h : Heap) (x : Block) :
    SameHdr h (l.foldl (fun h b => h.trim b 0 (h.mb b).mData) h) x := by
  induction l generalizing h with
  | nil => exact ⟨rfl, rfl⟩
  | cons m l ih => exact (sameHdr_trim ..).trans (ih _)

/-- The descriptors behind the last data. -/
theorem zero_bytes (mem : Bufs) (hnd : l.Nodup) :
    (l.foldl (fun h b => h.trim b 0 (h.mb b).mData) h).chainBytes mem l = [] := by
  induction l generalizing h with
  | nil => rfl
  | cons m l ih =>
    rw [List.nodup_cons] at hnd
    rw [List.foldl_cons, chainBytes_cons, ih hnd.2]
    unfold bytes
    rw [zero_frame hnd.1, trim, set_mb_self, List.append_nil]
    cases dbuf _ m <;> rfl

theorem adjKeep_hdr (chain : List Block) (count : Nat) (h : Heap) (x : Block) :
    SameHdr h (adjKeep chain count h) x := by
  induction chain generalizing count h with
  | nil => exact ⟨rfl, rfl⟩
  | cons m l ih =>
    unfold adjKeep
    split
    · exact (sameHdr_trim ..).trans (zero_hdr ..)
    · exact ih ..

theorem adjKeep_frame (hx : x ∉ chain) : (adjKeep chain count h).mb x = h.mb x := by
  induction chain generalizing count with
  | nil => rfl
  | cons m l ih =>
    rw [List.mem_cons, not_or] at hx
    unfold adjKeep
    split
    · rw [zero_frame hx.2, trim, set_mb_ne hx.1]
    · exact ih hx.2

/-- **The loop that keeps the first bytes.** -/
theorem adjKeep_spec (mem : Bufs) (hs : Sharing h own) (hnd : chain.Nodup) (hown : ∀ b ∈ chain, b ∈ own) :
    (adjKeep chain count h).chainBytes mem chain = (h.chainBytes mem chain).take count := by
  induction chain generalizing count with
  | nil => simp [adjKeep, chainBytes]
  | cons m l ih =>
    rw [List.nodup_cons] at hnd
    have hlen := length_bytes mem hs (hown m List.mem_cons_self)
    have hm : ∀ h' : Heap, SameRefs h h' → h'.mb m = (h.trim m count (h.mb m).mData).mb m →
        h'.bytes mem m = bufBytes mem (h.dbuf m) (h.mb m).mData count := by
      intro h' hr hb
      unfold bytes
      rw [dbuf_refs hr, hb, trim, set_mb_self]
    unfold adjKeep
    split
    · rename_i hle
      have hcut := bufBytes_drop_take mem (h.dbuf m) (h.mb m).mData (h.mb m).mLen 0 count
      rw [List.drop_zero, Nat.add_zero, Nat.sub_zero, Nat.min_eq_left hle] at hcut
      rw [chainBytes_cons, chainBytes_cons, zero_bytes mem hnd.2, List.append_nil,
        List.take_append_of_le_length (by omega),
        hm _ ((sameRefs_trim ..).trans (sameRefs_zero ..)) (zero_frame hnd.1)]
      exact hcut.symm
    · rename_i hlt
      have hb : (adjKeep l (count - (h.mb m).mLen) h).bytes mem m = h.bytes mem m := by
        unfold bytes
        rw [dbuf_refs (sameRefs_adjKeep ..), adjKeep_frame hnd.1]
      rw [chainBytes_cons, chainBytes_cons, hb, ih hnd.2 fun b hb => hown b (List.mem_cons_of_mem m hb),
        List.take_append, hlen, List.take_of_length_le (show (h.bytes mem m).length ≤ count by omega)]

/-! ## What is cut off -/

/-- Without the first bytes, or without the last ones. -/
def cut (n : Int) (l : List UInt8) : List UInt8 :=
  if 0 ≤ n then l.drop (min n.toNat l.length) else l.take (l.length - min (-n).toNat l.length)

theorem cut_drop (hn : 0 ≤ n) (l : List UInt8) : cut n l = l.drop n.toNat := by
  rw [cut, if_pos hn]
  rcases Nat.le_total n.toNat l.length with hle | hle
  · rw [Nat.min_eq_left hle]
  · rw [Nat.min_eq_right hle, List.drop_length, List.drop_eq_nil_of_le hle]

theorem cut_take (hn : n < 0) (l : List UInt8) : cut n l = l.take (l.length - (-n).toNat) := by
  rw [cut, if_neg (by omega)]
  congr 1
  omega

/-- `n` bytes are cut off a chain with the header `mp`, and `m_tlen` is the sum of the lengths again. -/
structure Cut (h h' : Heap) (mp : Block) (chain kept : List Block) (n : Int) : Prop where
  bytes : ∀ mem, h'.chainBytes mem kept = cut n (h.chainBytes mem chain)
  tlen : (h'.mb mp).mTlen.toNat = h'.chainLen kept

/-- `m_tlen` is the sum of the lengths when it is the number of the bytes that are left. -/
theorem Cut.of_bytes {own' : Finset Block} {kept : List Block} (hs : Sharing h own) (hs' : Sharing h' own')
    (hown : ∀ b ∈ chain, b ∈ own) (hown' : ∀ b ∈ kept, b ∈ own')
    (hb : ∀ mem, h'.chainBytes mem kept = cut n (h.chainBytes mem chain))
    (ht : (h'.mb mp).mTlen.toNat =
      if 0 ≤ n then h.chainLen chain - n.toNat else h.chainLen chain - (-n).toNat) :
    Cut h h' mp chain kept n := by
  refine ⟨hb, ?_⟩
  have hlen := length_chainBytes (fun _ _ => 0) hs hown
  have hlen' := length_chainBytes (fun _ _ => 0) hs' hown'
  rw [ht, ← hlen', hb]
  rcases Int.lt_or_le n 0 with hn | hn
  · rw [cut_take hn, List.length_take, hlen, if_neg (by omega)]
    omega
  · rw [cut_drop hn, List.length_drop, hlen, if_pos hn]

theorem tlen_sub {t : BitVec 20} {k : Nat} (hk : k ≤ t.toNat) :
    (t - BitVec.ofNat 20 k).toNat = t.toNat - k := by
  have hlt := t.isLt
  rw [BitVec.toNat_sub_of_le]
  · rw [BitVec.toNat_ofNat, Nat.mod_eq_of_lt (by omega)]
  · rw [BitVec.le_def, BitVec.toNat_ofNat, Nat.mod_eq_of_lt (by omega)]
    exact hk

theorem tlen_ofNat {t : BitVec 20} {k : Nat} (hk : k ≤ t.toNat) : (BitVec.ofNat 20 k).toNat = k := by
  rw [BitVec.toNat_ofNat, Nat.mod_eq_of_lt (by have hlt := t.isLt; omega)]

section Adjusted

variable (hh : Held h own limbo) (hnd : (mp :: l).Nodup) (hown : ∀ b ∈ mp :: l, b ∈ own)
  (hp : (h.mb mp).pkthdr = true) (ht : (h.mb mp).mTlen.toNat = h.chainLen (mp :: l))
include hh hnd hown hp ht

/-- Only the last descriptor is trimmed. -/
theorem cut_last {init : List Block} {last : Block} (heq : init ++ [last] = mp :: l) (hn : n < 0)
    (hle : (-n).toNat ≤ (h.mb last).mLen) :
    Cut h ((h.trim last ((h.mb last).mLen - (-n).toNat) (h.mb last).mData).adjTlen mp
      fun t => t - BitVec.ofNat 20 (-n).toNat) mp (mp :: l) (mp :: l) n := by
  rw [← heq] at hnd hown ht ⊢
  have htrim := trimmed_last hh hnd hown hle
  have href := (sameRefs_trim h last ((h.mb last).mLen - (-n).toNat) (h.mb last).mData).trans
    (sameRefs_adjTlen _ mp fun t => t - BitVec.ofNat 20 (-n).toNat)
  have hhdr := sameHdr_trim h last ((h.mb last).mLen - (-n).toNat) (h.mb last).mData mp
  have hsum : (-n).toNat ≤ h.chainLen (init ++ [last]) := by
    rw [chainLen_append, chainLen_cons]
    omega
  refine .of_bytes hh.sharing (hh.same href).sharing hown hown ?_ ?_
  · intro mem
    rw [chainBytes_adjTlen, htrim.bytes, cut_take hn, length_chainBytes mem hh.sharing hown]
  · rw [adjTlen_mTlen _ (hhdr.2.trans hp), hhdr.1, tlen_sub (by omega), ht, if_neg (by omega)]

/-- **`m_adj`.** -/
theorem cut_mAdj (n : Int) : Cut h (h.mAdj (mp :: l) n) mp (mp :: l) (mp :: l) n := by
  have href := sameRefs_mAdj h (mp :: l) n
  unfold mAdj at href ⊢
  dsimp only at href ⊢
  split
  · -- from the head
    rename_i hn
    rw [if_pos hn] at href
    have hhdr := adjHead_hdr (mp :: l) n.toNat h mp
    have hrest : (adjHead (mp :: l) n.toNat h).2 = n.toNat - h.chainLen (mp :: l) :=
      (adjHead_spec (fun _ _ => 0) hh.sharing hnd hown).2
    refine .of_bytes hh.sharing (hh.same href).sharing hown hown ?_ ?_
    · intro mem
      rw [chainBytes_adjTlen, (adjHead_spec mem hh.sharing hnd hown).1, cut_drop hn]
    · rw [adjTlen_mTlen _ (hhdr.2.trans hp), hhdr.1, hrest, tlen_sub (by omega), ht, if_pos hn]
      omega
  · rename_i hn
    rw [if_neg hn] at href
    split
    · rename_i hle
      exact cut_last hh hnd hown hp ht (List.dropLast_append_getLast (List.cons_ne_nil mp l)) (by omega) hle
    · -- the chain is scanned again
      rename_i hgt
      rw [if_neg hgt] at href
      have href1 := sameRefs_adjTlen h mp fun _ => BitVec.ofNat 20 (h.chainLen (mp :: l) - (-n).toNat)
      have hhdr := adjKeep_hdr (mp :: l) (h.chainLen (mp :: l) - (-n).toNat)
        (h.adjTlen mp fun _ => BitVec.ofNat 20 (h.chainLen (mp :: l) - (-n).toNat)) mp
      refine .of_bytes hh.sharing (hh.same href).sharing hown hown ?_ ?_
      · intro mem
        rw [adjKeep_spec mem (hh.same href1).sharing hnd hown, chainBytes_adjTlen, cut_take (by omega),
          length_chainBytes mem hh.sharing hown]
      · rw [hhdr.1, adjTlen_mTlen _ hp, tlen_ofNat (t := (h.mb mp).mTlen) (by omega), if_neg hn]

end Adjusted

/-! ## `m_adj_free` -/

/-- The descriptors that are given back are freed one behind the other. -/
theorem adjFreeKeep_freed (chain : List Block) (count : Nat) (h : Heap) :
    ∃ h1, SameRefs h h1 ∧ (adjFreeKeep chain count h).1 = h1.mFreem (adjFreeKeep chain count h).2.2 := by
  induction chain generalizing count with
  | nil => exact ⟨h, .refl h, rfl⟩
  | cons m l ih =>
    unfold adjFreeKeep
    split
    · exact ⟨_, sameRefs_trim .., rfl⟩
    · exact ih _

theorem mAdjFree_freed (hn : n < 0) :
    ∃ h1, SameRefs h h1 ∧ (h.mAdjFree chain n).1 = h1.mFreem (h.mAdjFree chain n).2.2 := by
  unfold mAdjFree
  cases chain with
  | nil => exact ⟨h, .refl h, rfl⟩
  | cons mp l =>
    dsimp only
    rw [if_neg (by omega)]
    split
    · refine ⟨_, ?_, rfl⟩
      dsimp only
      exact (sameRefs_trim ..).trans (sameRefs_adjTlen ..)
    · obtain ⟨h1, href, heq⟩ := adjFreeKeep_freed (mp :: l) (h.chainLen (mp :: l) - (-n).toNat)
        (h.adjTlen mp fun _ => BitVec.ofNat 20 (h.chainLen (mp :: l) - (-n).toNat))
      exact ⟨h1, (sameRefs_adjTlen ..).trans href, heq⟩

/-- The header of the chain is not freed. -/
theorem adjFreeKeep_hdr (hh : Held h own limbo) (hnd : (mp :: l).Nodup) (hown : ∀ b ∈ mp :: l, b ∈ own)
    (hcount : count ≤ h.chainLen (mp :: l)) : SameHdr h (adjFreeKeep (mp :: l) count h).1 mp := by
  rw [List.nodup_cons] at hnd
  have hl : ∀ b ∈ l, b ∈ own := fun b hb => hown b (List.mem_cons_of_mem mp hb)
  unfold adjFreeKeep
  split
  · have href := sameRefs_trim h mp count (h.mb mp).mData
    have hmem : mp ∈ own \ l.toFinset := by simp [hown mp List.mem_cons_self, hnd.1]
    exact (sameHdr_trim ..).trans (mFreem_same (hh.same href) hnd.2 hl (.inl hmem)).hdr
  · rw [chainLen_cons] at hcount
    have hne : l ≠ [] := by
      rintro rfl
      simp only [chainLen, List.map_nil, List.sum_nil] at hcount
      omega
    have htrim := trimmed_adjFreeKeep hh hne hnd.2 hl (show count - (h.mb mp).mLen ≤ h.chainLen l by omega)
    have hfreed : mp ∉ (adjFreeKeep l (count - (h.mb mp).mLen) h).2.2 := by
      intro hc
      apply hnd.1
      rw [← htrim.split]
      exact List.mem_append_right _ hc
    have hmem : mp ∈ own \ (adjFreeKeep l (count - (h.mb mp).mLen) h).2.2.toFinset := by
      simp [hown mp List.mem_cons_self, hfreed]
    exact (htrim.same mp (.inl hmem) hnd.1).hdr

/-- What `m_adj_free` leaves of a chain: the descriptors it keeps have the bytes, and those behind them are
    freed one behind the other. -/
structure CutFree (own : Finset Block) (limbo : Set Block) (h : Heap) (mp : Block)
    (chain : List Block) (n : Int) (r : Heap × List Block × List Block) : Prop where
  cut : Cut h r.1 mp chain r.2.1 n
  split : r.2.1 ++ r.2.2 = chain
  ne_nil : r.2.1 ≠ []
  freed : ∃ h1, SameRefs h h1 ∧ r.1 = h1.mFreem r.2.2
  held : Held r.1 (own \ r.2.2.toFinset) limbo

/-- **`m_adj_free` from the tail.** -/
theorem cutFree_mAdjFree (hh : Held h own limbo) (hnd : (mp :: l).Nodup) (hown : ∀ b ∈ mp :: l, b ∈ own)
    (hp : (h.mb mp).pkthdr = true) (ht : (h.mb mp).mTlen.toNat = h.chainLen (mp :: l)) (hn : n < 0) :
    CutFree own limbo h mp (mp :: l) n (h.mAdjFree (mp :: l) n) := by
  have htrim := trimmed_mAdjFree hh (List.cons_ne_nil mp l) hnd hown (show 0 < (-n).toNat by omega)
  rw [show (-((-n).toNat : Int)) = n by omega] at htrim
  refine ⟨?_, htrim.split, htrim.ne_nil, mAdjFree_freed hn, htrim.held⟩
  have hkept : ∀ b ∈ (h.mAdjFree (mp :: l) n).2.1, b ∈ own \ (h.mAdjFree (mp :: l) n).2.2.toFinset := by
    intro b hb
    rw [← htrim.split] at hnd hown
    have hdisj := (List.nodup_append.mp hnd).2.2 b hb
    rw [Finset.mem_sdiff, List.mem_toFinset]
    exact ⟨hown b (List.mem_append_left _ hb), fun hc => hdisj b hc rfl⟩
  refine .of_bytes hh.sharing htrim.held.sharing hown hkept ?_ ?_
  · intro mem
    rw [htrim.bytes, cut_take hn, length_chainBytes mem hh.sharing hown]
  · rw [if_neg (by omega)]
    clear htrim hkept
    unfold mAdjFree
    dsimp only
    rw [if_neg (by omega)]
    split
    · have hhdr := sameHdr_trim h ((mp :: l).getLast (List.cons_ne_nil mp l))
        ((h.mb ((mp :: l).getLast (List.cons_ne_nil mp l))).mLen - (-n).toNat)
        (h.mb ((mp :: l).getLast (List.cons_ne_nil mp l))).mData mp
      rename_i hle
      have hsum : (-n).toNat ≤ h.chainLen (mp :: l) := by
        rw [← List.dropLast_append_getLast (List.cons_ne_nil mp l), chainLen_append, chainLen_cons]
        omega
      rw [adjTlen_mTlen _ (hhdr.2.trans hp), hhdr.1, tlen_sub (by omega), ht]
    · have href := sameRefs_adjTlen h mp fun _ => BitVec.ofNat 20 (h.chainLen (mp :: l) - (-n).toNat)
      have hhdr := adjFreeKeep_hdr (hh.same href) hnd hown
        (show h.chainLen (mp :: l) - (-n).toNat ≤ _ by rw [chainLen_adjTlen]; omega)
      rw [hhdr.1, adjTlen_mTlen _ hp, tlen_ofNat (t := (h.mb mp).mTlen) (by omega)]

/-! ## The result -/

/-- **`m_adj` and `m_adj_free` on the bytes of a chain.** -/
theorem adj_cuts (h : Heap) (own : Finset Block) (limbo : Set Block) (mp : Block) (l : List Block) (n : Int)
    (hh : Held h own limbo) (hnd : (mp :: l).Nodup) (hown : ∀ b ∈ mp :: l, b ∈ own)
    (hp : (h.mb mp).pkthdr = true) (ht : (h.mb mp).mTlen.toNat = h.chainLen (mp :: l)) :
    Cut h (h.mAdj (mp :: l) n) mp (mp :: l) (mp :: l) n ∧
      (n < 0 → CutFree own limbo h mp (mp :: l) n (h.mAdjFree (mp :: l) n)) :=
  ⟨cut_mAdj hh hnd hown hp ht n, cutFree_mAdjFree hh hnd hown hp ht⟩

end Heap

/-- A chain of five and three bytes. -/
def eightRun : List HeapEvent :=
  [.get .MB_MIN false, .get .MB_MIN false, .fill ⟨.lobuf, 0⟩ 5 0 8, .setPkthdr ⟨.lobuf, 0⟩,
    .fill ⟨.lobuf, 2⟩ 3 0 0]

/-- The chain behind the calls. -/
def eight : Owners := eightRun.foldl Owners.step Owners.start

/-- Four bytes less. -/
theorem adj_cuts_four :
    Heap.Cut eight.heap (eight.heap.mAdj [⟨.lobuf, 0⟩, ⟨.lobuf, 2⟩] (-4)) ⟨.lobuf, 0⟩
      [⟨.lobuf, 0⟩, ⟨.lobuf, 2⟩] [⟨.lobuf, 0⟩, ⟨.lobuf, 2⟩] (-4) ∧
    ((-4 : Int) < 0 → Heap.CutFree eight.own ∅ eight.heap ⟨.lobuf, 0⟩
      [⟨.lobuf, 0⟩, ⟨.lobuf, 2⟩] (-4) (eight.heap.mAdjFree [⟨.lobuf, 0⟩, ⟨.lobuf, 2⟩] (-4))) :=
  Heap.adj_cuts eight.heap eight.own ∅ ⟨.lobuf, 0⟩ [⟨.lobuf, 2⟩] (-4)
    (held_run eightRun (by decide)) (by decide) (by decide +kernel) (by decide +kernel)
    (by decide +kernel)

end TnNet.Mem
