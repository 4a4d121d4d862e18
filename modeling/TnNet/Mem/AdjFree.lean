import TnNet.Mem.Copy

/-!
# `m_adj_free`

`m_adj` that frees the descriptors it empties.  `mAdjFree` returns the chain that is linked from the
first descriptor, and the descriptors that were freed.

`trimmed_mAdjFree` — from the tail, the chain keeps its first bytes and the freed descriptors are those
behind it.
-/

set_option autoImplicit false

namespace TnNet.Mem

namespace Heap

/-- The loop from the head: the length still to be trimmed, and what was freed. -/
def adjFreeHead : List Block → Nat → Heap → Heap × Nat × List Block
  | [], len, h => (h, len, [])
  | m :: l, len, h =>
    if len = 0 then (h, 0, [])
    else if (h.mb m).mLen ≤ len then
      let r := adjFreeHead l (len - (h.mb m).mLen) ((h.trim m 0 (h.mb m).mData).mFree m)
      (r.1, r.2.1, m :: r.2.2)
    else (h.trim m ((h.mb m).mLen - len) ((h.mb m).mData + len), 0, [])

/-- The loop that keeps the first `count` bytes: the chain, and what was freed. -/
def adjFreeKeep : List Block → Nat → Heap → Heap × List Block × List Block
  | [], _, h => (h, [], [])
  | m :: l, count, h =>
    if count ≤ (h.mb m).mLen then ((h.trim m count (h.mb m).mData).mFreem l, [m], l)
    else
      let r := adjFreeKeep l (count - (h.mb m).mLen) h
      (r.1, m :: r.2.1, r.2.2)

/-- `m_adj_free`. -/
def mAdjFree (h : Heap) (chain : List Block) (reqLen : Int) : Heap × List Block × List Block :=
  match chain with
  | [] => (h, [], [])
  | mp :: l =>
    if 0 ≤ reqLen then
      let r := adjFreeHead (mp :: l) reqLen.toNat h
      (r.1.adjTlen mp fun t => t - BitVec.ofNat 20 (reqLen.toNat - r.2.1), mp :: l, r.2.2)
    else
      let len := (-reqLen).toNat
      let last := (mp :: l).getLast (List.cons_ne_nil mp l)
      if len ≤ (h.mb last).mLen then
        ((h.trim last ((h.mb last).mLen - len) (h.mb last).mData).adjTlen mp
          fun t => t - BitVec.ofNat 20 len, mp :: l, [])
      else
        let count := h.chainLen (mp :: l) - len
        adjFreeKeep (mp :: l) count (h.adjTlen mp fun _ => BitVec.ofNat 20 count)

variable {h h' h'' : Heap} {own : Finset Block} {limbo : Set Block} {b m mp x : Block}
  {chain l : List Block} {mem : Bufs} {count len : Nat} {r : Heap × List Block × List Block}

/-! ## Lengths -/

/-- Only lengths change, and nothing is freed. -/
structure SameData (h h' : Heap) : Prop where
  refs : SameRefs h h'
  mData : ∀ x, (h'.mb x).mData = (h.mb x).mData

theorem sameData_trim (h : Heap) (b : Block) (n : Nat) : SameData h (h.trim b n (h.mb b).mData) := by
  refine ⟨sameRefs_trim .., fun x => ?_⟩
  rcases eq_or_ne x b with rfl | hx
  · simp [trim]
  · rw [trim, set_mb_ne hx]

theorem sameData_adjTlen (h : Heap) (b : Block) (f : BitVec 20 → BitVec 20) :
    SameData h (h.adjTlen b f) ∧ ∀ x, ((h.adjTlen b f).mb x).mLen = (h.mb x).mLen := by
  refine ⟨⟨sameRefs_adjTlen .., fun x => ?_⟩, fun x => ?_⟩
  all_goals
    unfold adjTlen
    split
    · rcases eq_or_ne x b with rfl | hx
      · simp
      · rw [set_mb_ne hx]
    · rfl

theorem SameData.trans (h1 : SameData h h') (h2 : SameData h' h'') : SameData h h'' :=
  ⟨h1.refs.trans h2.refs, fun x => (h2.mData x).trans (h1.mData x)⟩

theorem dbuf_keeps (hk : ∀ y ∈ h.InUse own, Keeps h h' y) (hb : b ∈ own) : h'.dbuf b = h.dbuf b := by
  unfold dbuf
  rw [(hk b (.inl hb)).pri]
  cases hp : h.pri b with
  | none => rfl
  | some p => exact (hk p (isRoot_of_pri hb hp).inUse).mDbuf

/-- The bytes of a descriptor whose length has changed. -/
theorem bytes_keeps (mem : Bufs) (hk : ∀ y ∈ h.InUse own, Keeps h h' y) (hb : b ∈ own)
    (hd : (h'.mb b).mData = (h.mb b).mData) (hl : (h'.mb b).mLen ≤ (h.mb b).mLen) :
    h'.bytes mem b = (h.bytes mem b).take (h'.mb b).mLen := by
  have h1 := bufBytes_drop_take mem (h.dbuf b) (h.mb b).mData (h.mb b).mLen 0 (h'.mb b).mLen
  rw [List.drop_zero, Nat.add_zero, Nat.sub_zero, Nat.min_eq_left hl] at h1
  unfold bytes
  rw [dbuf_keeps hk hb, hd, h1]

theorem chainLen_append (h : Heap) (l l' : List Block) :
    h.chainLen (l ++ l') = h.chainLen l + h.chainLen l' := by
  simp [chainLen]

/-! ## From the tail -/

/-- The chain keeps its first `count` bytes. -/
structure Trimmed (own : Finset Block) (limbo : Set Block) (h : Heap) (chain : List Block) (count : Nat)
    (r : Heap × List Block × List Block) : Prop where
  split : r.2.1 ++ r.2.2 = chain
  ne_nil : r.2.1 ≠ []
  held : Held r.1 (own \ r.2.2.toFinset) limbo
  keeps : ∀ x ∈ h.InUse (own \ r.2.2.toFinset), Keeps h r.1 x ∧ (r.1.mb x).mData = (h.mb x).mData
  same : ∀ x ∈ h.InUse (own \ r.2.2.toFinset), x ∉ chain → Same h r.1 x
  bytes : ∀ mem, r.1.chainBytes mem r.2.1 = (h.chainBytes mem chain).take count
  head : ∀ mp ∈ chain.head?, (r.1.mb mp).mLen = min count (h.mb mp).mLen

theorem trimmed_adjFreeKeep {h : Heap} (hh : Held h own limbo) :
    ∀ {chain : List Block} {count : Nat}, chain ≠ [] → chain.Nodup → (∀ b ∈ chain, b ∈ own) →
      count ≤ h.chainLen chain → Trimmed own limbo h chain count (adjFreeKeep chain count h) := by
  intro chain
  induction chain with
  | nil => exact fun hne => absurd rfl hne
  | cons m l ih =>
    intro count _ hnd hown hcount
    rw [List.nodup_cons] at hnd
    have hm : m ∈ own := hown m List.mem_cons_self
    have hl : ∀ b ∈ l, b ∈ own := fun b hb => hown b (List.mem_cons_of_mem m hb)
    unfold adjFreeKeep
    split
    · rename_i hle
      -- the last descriptor that keeps data; the others are freed
      have hd := sameData_trim h m count
      have hlen : ((h.trim m count (h.mb m).mData).mb m).mLen = count := by simp [trim]
      have hne : ∀ x, x ≠ m → (h.trim m count (h.mb m).mData).mb x = h.mb x := fun x hx => set_mb_ne hx _
      generalize h.trim m count (h.mb m).mData = h1 at *
      have hh1 := hh.same hd.refs
      have huse : h1.InUse (own \ l.toFinset) = h.InUse (own \ l.toFinset) :=
        inUse_frame fun x _ => hd.refs.keeps x
      have hsame : ∀ x ∈ h.InUse (own \ l.toFinset), Same h1 (h1.mFreem l) x :=
        fun x hx => mFreem_same hh1 hnd.2 hl (by rw [huse]; exact hx)
      have hmem : m ∈ own \ l.toFinset := by simp [hm, hnd.1]
      have hkeeps : ∀ x ∈ h.InUse (own \ l.toFinset), Keeps h (h1.mFreem l) x ∧
          ((h1.mFreem l).mb x).mData = (h.mb x).mData :=
        fun x hx => ⟨(hd.refs.keeps x).trans (hsame x hx).keeps, (hsame x hx).mData.trans (hd.mData x)⟩
      have hlen2 : ((h1.mFreem l).mb m).mLen = count := by
        rw [(hsame m (.inl hmem)).mLen, hlen]
      refine ⟨rfl, by simp, hh1.mFreem hnd.2 hl, hkeeps, ?_, ?_, ?_⟩
      · intro x hx hxc
        rw [List.mem_cons, not_or] at hxc
        exact (Same.of_eq (hne x hxc.1)).trans (hsame x hx)
      · intro mem
        have hb := bytes_keeps mem (fun y hy => (hkeeps y hy).1) hmem
          (hkeeps m (.inl hmem)).2 (by rw [hlen2]; exact hle)
        rw [hlen2] at hb
        show _ ++ [] = _
        rw [List.append_nil, hb, chainBytes_cons, List.take_append_of_le_length]
        rw [length_bytes mem hh.sharing hm]
        exact hle
      · intro mp hmp
        cases hmp
        rw [hlen2, Nat.min_eq_left hle]
    · rename_i hlt
      rw [chainLen_cons] at hcount
      have hne : l ≠ [] := by
        rintro rfl
        simp only [chainLen, List.map_nil, List.sum_nil] at hcount
        omega
      obtain ⟨h1, h2, h3, h4, h5, h6, -⟩ := @ih (count - (h.mb m).mLen) hne hnd.2 hl (by omega)
      generalize adjFreeKeep l (count - (h.mb m).mLen) h = r at *
      have hmf : m ∉ r.2.2 := fun hc => hnd.1 (by rw [← h1]; exact List.mem_append_right _ hc)
      have hmem : m ∈ own \ r.2.2.toFinset := by simp [hm, hmf]
      have hsame : Same h r.1 m := h5 m (.inl hmem) hnd.1
      refine ⟨by rw [List.cons_append, h1], by simp, h3, h4, ?_, ?_, ?_⟩
      · intro x hx hxc
        rw [List.mem_cons, not_or] at hxc
        exact h5 x hx hxc.2
      · intro mem
        have hb := bytes_keeps mem (fun y hy => (h4 y hy).1) hmem hsame.mData hsame.mLen.le
        have hlb := length_bytes mem hh.sharing hm
        rw [hsame.mLen, List.take_of_length_le hlb.le] at hb
        rw [chainBytes_cons, chainBytes_cons, hb, h6, List.take_append, hlb,
          List.take_of_length_le (show (h.bytes mem m).length ≤ count by omega)]
      · intro mp hmp
        cases hmp
        rw [hsame.mLen, Nat.min_eq_right (by omega)]

theorem length_chainBytes (mem : Bufs) (hs : Sharing h own) (hown : ∀ b ∈ chain, b ∈ own) :
    (h.chainBytes mem chain).length = h.chainLen chain := by
  induction chain with
  | nil => rfl
  | cons b l ih =>
    rw [chainBytes_cons, chainLen_cons, List.length_append, length_bytes mem hs (hown b List.mem_cons_self),
      ih fun c hc => hown c (List.mem_cons_of_mem b hc)]

/-- Only the last descriptor is trimmed. -/
theorem trimmed_last {init : List Block} {last : Block} (hh : Held h own limbo)
    (hnd : (init ++ [last]).Nodup) (hown : ∀ b ∈ init ++ [last], b ∈ own)
    (hle : len ≤ (h.mb last).mLen) :
    Trimmed own limbo h (init ++ [last]) (h.chainLen (init ++ [last]) - len)
      (h.trim last ((h.mb last).mLen - len) (h.mb last).mData, init ++ [last], []) := by
  have hd := sameData_trim h last ((h.mb last).mLen - len)
  have hlen : ((h.trim last ((h.mb last).mLen - len) (h.mb last).mData).mb last).mLen =
      (h.mb last).mLen - len := by simp [trim]
  have hne : ∀ x, x ≠ last → (h.trim last ((h.mb last).mLen - len) (h.mb last).mData).mb x = h.mb x :=
    fun x hx => set_mb_ne hx _
  generalize h.trim last ((h.mb last).mLen - len) (h.mb last).mData = h1 at *
  have hlast : last ∉ init := by
    intro hc
    exact (List.nodup_append.mp hnd).2.2 last hc last (List.mem_singleton_self last) rfl
  have hinit : ∀ b ∈ init, b ∈ own := fun b hb => hown b (List.mem_append_left _ hb)
  have hlown : last ∈ own := hown last (by simp)
  refine ⟨List.append_nil _, by simp, ?_, ?_, ?_, ?_, ?_⟩
  · simpa using hh.same hd.refs
  · exact fun x _ => ⟨hd.refs.keeps x, hd.mData x⟩
  · intro x _ hx
    exact .of_eq (hne x fun heq => hx (by simp [heq]))
  · intro mem
    have hb := bytes_keeps mem (fun y _ => hd.refs.keeps y) hlown (hd.mData last) (by omega)
    have hbi : h1.chainBytes mem init = h.chainBytes mem init := by
      unfold chainBytes
      refine List.flatMap_congr fun b hb => ?_
      have hbl : h1.mb b = h.mb b := hne b fun heq => hlast (heq ▸ hb)
      have h2 := bytes_keeps mem (fun y _ => hd.refs.keeps y) (hinit b hb) (hd.mData b) (by rw [hbl])
      rw [h2, List.take_of_length_le]
      rw [hbl, length_bytes mem hh.sharing (hinit b hb)]
    have hli := length_chainBytes mem hh.sharing hinit
    have hlast1 : ∀ h' : Heap, h'.chainBytes mem (init ++ [last]) =
        h'.chainBytes mem init ++ h'.bytes mem last :=
      fun h' => by simp [chainBytes]
    rw [hlast1, hlast1, hbi, hb, hlen, chainLen_append, List.take_append, hli,
      List.take_of_length_le (show (h.chainBytes mem init).length ≤ _ by
        rw [hli]; simp only [chainLen, List.map_cons, List.map_nil, List.sum_cons, List.sum_nil]; omega)]
    congr 2
    simp only [chainLen, List.map_cons, List.map_nil, List.sum_cons, List.sum_nil]
    omega
  · intro mp hmp
    rw [chainLen_append]
    simp only [chainLen, List.map_cons, List.map_nil, List.sum_cons, List.sum_nil]
    cases init with
    | nil =>
      cases hmp
      rw [hlen]
      simp
    | cons b init =>
      cases hmp
      rw [hne mp fun heq => hlast (by simp [heq])]
      simp only [List.map_cons, List.sum_cons]
      omega

theorem Trimmed.of_adjTlen (f : BitVec 20 → BitVec 20) (hmp : mp ∈ chain)
    (hr : Trimmed own limbo (h.adjTlen mp f) chain count r) (hown : ∀ b ∈ chain, b ∈ own) :
    Trimmed own limbo h chain count r := by
  obtain ⟨⟨hrefs, hdata⟩, hlen⟩ := sameData_adjTlen h mp f
  have hne : ∀ x, x ≠ mp → (h.adjTlen mp f).mb x = h.mb x := by
    intro x hx
    unfold adjTlen
    split
    · exact set_mb_ne hx _
    · rfl
  generalize h.adjTlen mp f = h1 at *
  have huse : ∀ own', h1.InUse own' = h.InUse own' := fun own' => inUse_frame fun x _ => hrefs.keeps x
  obtain ⟨h1, h2, h3, h4, h5, h6, h7⟩ := hr
  rw [huse] at h4 h5
  refine ⟨h1, h2, h3, ?_, ?_, ?_, ?_⟩
  · exact fun x hx => ⟨(hrefs.keeps x).trans (h4 x hx).1, (h4 x hx).2.trans (hdata x)⟩
  · intro x hx hxc
    exact (Same.of_eq (hne x fun heq => hxc (heq ▸ hmp))).trans (h5 x hx hxc)
  · intro mem
    rw [h6]
    congr 1
    unfold chainBytes
    refine List.flatMap_congr fun b hb => ?_
    unfold Heap.bytes
    rw [dbuf_keeps (fun y _ => hrefs.keeps y) (hown b hb), hdata, hlen]
  · intro b hb
    rw [h7 b hb, hlen]

theorem Trimmed.adjTlen {f : BitVec 20 → BitVec 20} (hmp : mp ∈ chain)
    (hr : Trimmed own limbo h chain count r) (hown : ∀ b ∈ chain, b ∈ own) (hfreed : r.2.2 = []) :
    Trimmed own limbo h chain count (r.1.adjTlen mp f, r.2) := by
  obtain ⟨⟨hrefs, hdata⟩, hlen⟩ := sameData_adjTlen r.1 mp f
  have hne : ∀ x, x ≠ mp → (r.1.adjTlen mp f).mb x = r.1.mb x := by
    intro x hx
    unfold Heap.adjTlen
    split
    · exact set_mb_ne hx _
    · rfl
  generalize r.1.adjTlen mp f = h1 at *
  obtain ⟨k1, k2, k3, k4, k5, k6, k7⟩ := hr
  have hkept : r.2.1 = chain := by rw [← k1, hfreed, List.append_nil]
  have hown' : own \ r.2.2.toFinset = own := by simp [hfreed]
  refine ⟨k1, k2, k3.same hrefs, ?_, ?_, ?_, ?_⟩
  · exact fun x hx => ⟨(k4 x hx).1.trans (hrefs.keeps x), (hdata x).trans (k4 x hx).2⟩
  · intro x hx hxc
    exact (k5 x hx hxc).trans (.of_eq (hne x fun heq => hxc (heq ▸ hmp)))
  · intro mem
    rw [← k6]
    unfold chainBytes
    refine List.flatMap_congr fun b hb => ?_
    rw [hkept] at hb
    unfold Heap.bytes
    rw [@dbuf_keeps r.1 h1 own b (fun y _ => hrefs.keeps y) (hown b hb), hdata, hlen]
  · intro b hb
    rw [hlen, k7 b hb]

/-- **`m_adj_free` from the tail.** -/
theorem trimmed_mAdjFree (hh : Held h own limbo) (hne : chain ≠ []) (hnd : chain.Nodup)
    (hown : ∀ b ∈ chain, b ∈ own) (hlen : 0 < len) :
    Trimmed own limbo h chain (h.chainLen chain - len) (h.mAdjFree chain (-len)) := by
  unfold mAdjFree
  cases chain with
  | nil => exact absurd rfl hne
  | cons mp l =>
    dsimp only
    rw [if_neg (by omega), Int.neg_neg, Int.toNat_natCast]
    split
    · rename_i hlast
      have hdec := List.dropLast_append_getLast (List.cons_ne_nil mp l)
      generalize (mp :: l).getLast (List.cons_ne_nil mp l) = last at hlast hdec ⊢
      have hr := @trimmed_last h own limbo len (mp :: l).dropLast last hh (by rw [hdec]; exact hnd)
        (by rw [hdec]; exact hown) hlast
      rw [hdec] at hr
      exact hr.adjTlen List.mem_cons_self hown rfl
    · have hd := sameData_adjTlen h mp fun _ => BitVec.ofNat 20 (h.chainLen (mp :: l) - len)
      refine Trimmed.of_adjTlen (fun _ => BitVec.ofNat 20 (h.chainLen (mp :: l) - len))
        List.mem_cons_self ?_ hown
      refine trimmed_adjFreeKeep (hh.same hd.1.refs) hne hnd hown ?_
      have hsame : ∀ c : List Block,
          (h.adjTlen mp fun _ => BitVec.ofNat 20 (h.chainLen (mp :: l) - len)).chainLen c =
          h.chainLen c := by
        intro c
        unfold chainLen
        exact congrArg List.sum (List.map_congr_left fun b _ => hd.2 b)
      rw [hsame]
      omega

end Heap

end TnNet.Mem
