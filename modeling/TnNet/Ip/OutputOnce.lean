import TnNet.Ip.Partition

/-!
# `ip_output` consumes its packet

`ipOutput_once_iff`: each descriptor of the packet and of its fragments is given to `output_func` or
freed, exactly once, exactly when no fragmentation is needed or there is room for all fragments.  When
`ip4_fragment` fails it has freed the packet, and `ip_output` frees it once more.

The descriptors are those of the caller, `own`, and those the output side holds.
-/

set_option autoImplicit false

namespace TnNet.Ip

open Bytes TnNet.Mem TnNet.Mem.Heap

variable {h : Heap} {own out : Finset Block} {limbo : Set Block} {mem : Bufs} {chain l m : List Block}
  {mp : Block} {packets : List (List Block)} {rc : Int} {ni : Netif} {o : Output}

/-- `output_func` takes ownership of each packet it is given. -/
def Takes (f : OutputFunc) : Prop :=
  ∀ (h : Heap) (own out : Finset Block) (limbo : Set Block) (m : List Block), Disjoint own out →
    Held h (own ∪ out) limbo → m.Nodup → (∀ b ∈ m, b ∈ own) →
    ∃ out', Disjoint (own \ m.toFinset) out' ∧ Held (f h m).1 (own \ m.toFinset ∪ out') limbo

/-- The chain and what was made of it are given away or freed, once; the others have what they had. -/
structure Once (own : Finset Block) (limbo : Set Block) (chain : List Block) (o : Output) : Prop where
  wild : o.wild = false
  once : (o.freed ++ o.given.flatten).Perm (chain ++ o.made.flatten)
  held : ∃ out, Disjoint (own \ chain.toFinset) out ∧ Held o.heap (own \ chain.toFinset ∪ out) limbo
  sent : o.rc = 0 → o.packets ≠ [] ∧ o.given = o.packets

/-- A chain is freed. -/
theorem held_mFreem (hd : Disjoint own out) (hh : Held h (own ∪ out) limbo) (hnd : m.Nodup)
    (hown : ∀ b ∈ m, b ∈ own) : Held (h.mFreem m) (own \ m.toFinset ∪ out) limbo := by
  have h1 := hh.mFreem hnd fun b hb => Finset.mem_union_left _ (hown b hb)
  rwa [Finset.union_sdiff_distrib, Finset.sdiff_eq_self_of_disjoint (s := out)] at h1
  rw [Finset.disjoint_right]
  exact fun b hb => Finset.disjoint_left.mp hd (hown b (List.mem_toFinset.mp hb))

theorem disjoint_sdiff_left (hd : Disjoint own out) (m : List Block) : Disjoint (own \ m.toFinset) out :=
  Finset.disjoint_of_subset_left Finset.sdiff_subset hd

theorem once_drop (hh : Held h own limbo) (hnd : chain.Nodup) (hown : ∀ b ∈ chain, b ∈ own)
    (hrc : rc ≠ 0) : Once own limbo chain (dropPacket h mem chain rc) := by
  constructor
  case wild => rfl
  case once => exact List.Perm.refl _
  case held =>
    refine ⟨∅, Finset.disjoint_empty_right _, ?_⟩
    rw [Finset.union_empty]
    exact hh.mFreem hnd hown
  case sent => exact fun hc => absurd hc hrc

theorem once_whole (hh : Held h own limbo) (hnd : (mp :: l).Nodup) (hown : ∀ b ∈ mp :: l, b ∈ own)
    (ht : ∀ f, ni.outputFunc = some f → Takes f) : Once own limbo (mp :: l) (sendWhole h mem ni mp l) := by
  unfold sendWhole
  cases hf : ni.outputFunc with
  | none => exact once_drop hh hnd hown (by decide)
  | some f =>
    constructor
    case wild => rfl
    case once => simp
    case held =>
      exact ht f hf h own ∅ limbo (mp :: l) (Finset.disjoint_empty_right _)
        (by rwa [Finset.union_empty]) hnd hown
    case sent => exact fun _ => ⟨by simp, rfl⟩

/-- The loop that sends the packets. -/
theorem sendPackets_spec {func : Option OutputFunc} (ht : ∀ f, func = some f → Takes f) :
    ∀ {packets : List (List Block)} {rc : Int} {h : Heap} {own out : Finset Block}, Disjoint own out →
      Held h (own ∪ out) limbo → packets.flatten.Nodup → (∀ b ∈ packets.flatten, b ∈ own) →
      ((sendPackets func packets rc h).2.2.2 ++ (sendPackets func packets rc h).2.2.1.flatten).Perm
      packets.flatten ∧
        (∃ out', Disjoint (own \ packets.flatten.toFinset) out' ∧
          Held (sendPackets func packets rc h).1 (own \ packets.flatten.toFinset ∪ out') limbo) ∧
        ((sendPackets func packets rc h).2.1 = 0 →
          rc = 0 ∧ (sendPackets func packets rc h).2.2.1 = packets) := by
  intro packets
  induction packets with
  | nil =>
    intro rc h own out hd hh _ _
    refine ⟨List.Perm.refl _, ⟨out, ?_, ?_⟩, fun hrc => ⟨hrc, rfl⟩⟩
    · simpa using hd
    · simpa [sendPackets] using hh
  | cons m rest ih =>
    intro rc h own out hd hh hnd hown
    rw [List.flatten_cons, List.nodup_append] at hnd
    obtain ⟨hnd1, hnd2, hdis⟩ := hnd
    have hm : ∀ b ∈ m, b ∈ own := fun b hb => hown b (by simp [hb])
    have hrest : ∀ b ∈ rest.flatten, b ∈ own \ m.toFinset := by
      intro b hb
      rw [Finset.mem_sdiff, List.mem_toFinset]
      exact ⟨hown b (List.mem_append_right _ hb), fun hc => hdis b hc b hb rfl⟩
    have hset : own \ (m :: rest).flatten.toFinset = (own \ m.toFinset) \ rest.flatten.toFinset := by
      rw [List.flatten_cons, List.toFinset_append, Finset.sdiff_union_distrib,
        Finset.sdiff_inter_right_comm]
      ext b
      simp only [Finset.mem_inter, Finset.mem_sdiff]
      tauto
    rw [hset]
    -- this packet is freed
    have hfreed : ∀ rc', rc' ≠ 0 → (m ++ (sendPackets func rest rc' (h.mFreem m)).2.2.2 ++
        (sendPackets func rest rc' (h.mFreem m)).2.2.1.flatten).Perm (m :: rest).flatten ∧
        (∃ out', Disjoint ((own \ m.toFinset) \ rest.flatten.toFinset) out' ∧
          Held (sendPackets func rest rc' (h.mFreem m)).1
          ((own \ m.toFinset) \ rest.flatten.toFinset ∪ out') limbo) ∧
        ((sendPackets func rest rc' (h.mFreem m)).2.1 = 0 → rc = 0 ∧
          (sendPackets func rest rc' (h.mFreem m)).2.2.1 = m :: rest) := by
      intro rc' hrc'
      obtain ⟨h1, h2, h3⟩ := @ih rc' _ _ _ (disjoint_sdiff_left hd m) (held_mFreem hd hh hnd1 hm) hnd2 hrest
      refine ⟨?_, h2, fun h0 => absurd (h3 h0).1 hrc'⟩
      rw [List.append_assoc, List.flatten_cons]
      exact h1.append_left m
    unfold sendPackets
    split
    · rename_i hrc
      cases func with
      | none => exact hfreed EINVAL (by decide)
      | some f =>
        obtain ⟨out', hd', hh'⟩ := ht f rfl h own out limbo m hd hh hnd1 hm
        obtain ⟨h1, h2, h3⟩ := @ih (f h m).2 _ _ _ hd' hh' hnd2 hrest
        refine ⟨?_, h2, fun h0 => ⟨hrc, congrArg (m :: ·) (h3 h0).2⟩⟩
        rw [List.flatten_cons, List.flatten_cons]
        exact (List.perm_append_comm_assoc ..).trans (h1.append_left m)
    · rename_i hrc
      exact hfreed rc hrc

/-! ## A packet that is too large -/

/-- There is room for the fragments. -/
def FragRoom (h : Heap) (mem : Bufs) (mp : Block) (l : List Block) (ifMtu : Int) : Prop :=
  28 ≤ ifMtu ∧ Enough h (mp :: l) (tailSlices (iphdr mem h mp) ((ifMtu - 20) / 8 * 8).toNat)

/-- The packet was freed already. -/
theorem not_once_twice (hf : o.freed = mp :: l ++ o.made.flatten ++ (mp :: l)) :
    ¬ Once own limbo (mp :: l) o := by
  intro ho
  have hlen := ho.once.length_eq
  rw [hf] at hlen
  simp only [List.length_append, List.length_cons] at hlen
  omega

theorem once_fragments {r : FragOut} {h' : Heap} {mem' : Bufs} {d : Block} {kept : List Block}
    {firstlen : Nat} (hnd : (mp :: l).Nodup) (hown : ∀ b ∈ mp :: l, b ∈ own)
    (ht : ∀ f, ni.outputFunc = some f → Takes f)
    (hr : Fragmented own limbo h mem mp l firstlen h' mem' d kept r) :
    Once own limbo (mp :: l)
      { heap := (sendPackets ni.outputFunc r.packets 0 r.heap).1, mem := r.mem
        rc := (sendPackets ni.outputFunc r.packets 0 r.heap).2.1, packets := r.packets, made := r.made
        given := (sendPackets ni.outputFunc r.packets 0 r.heap).2.2.1
        freed := r.freed ++ (sendPackets ni.outputFunc r.packets 0 r.heap).2.2.2 } := by
  obtain ⟨-, -, hpackets, hinv, hfirst⟩ := hr
  have hsplit := hfirst.split
  have hnd' := hnd
  rw [← hsplit, List.nodup_append] at hnd'
  obtain ⟨hnd1, -, hdis⟩ := hnd'
  have hkept : ∀ b ∈ mp :: kept, b ∈ mp :: l := fun b hb => by
    rw [← hsplit]
    exact List.mem_append_left _ hb
  have hfreed : ∀ b ∈ r.freed, b ∈ mp :: l := fun b hb => by
    rw [← hsplit]
    exact List.mem_append_right _ hb
  have hmade : ∀ b ∈ r.made.flatten, b ∉ own := fun b hb hc => hinv.fresh b hb (.inl hc)
  have hflat : r.packets.flatten = (mp :: kept) ++ r.made.flatten := by rw [hpackets, List.flatten_cons]
  have hheld := hfirst.held
  rw [← Finset.union_empty ((r.made.flatten.toFinset ∪ own) \ r.freed.toFinset)] at hheld
  have hnd2 : r.packets.flatten.Nodup := by
    rw [hflat, List.nodup_append]
    refine ⟨hnd1, hinv.nodup, ?_⟩
    rintro b hb c hc rfl
    exact hmade b hc (hown b (hkept b hb))
  have hown2 : ∀ b ∈ r.packets.flatten, b ∈ (r.made.flatten.toFinset ∪ own) \ r.freed.toFinset := by
    intro b hb
    rw [hflat, List.mem_append] at hb
    rw [Finset.mem_sdiff, Finset.mem_union, List.mem_toFinset, List.mem_toFinset]
    rcases hb with hb | hb
    · exact ⟨.inr (hown b (hkept b hb)), fun hc => hdis b hb b hc rfl⟩
    · exact ⟨.inl hb, fun hc => hmade b hb (hown b (hfreed b hc))⟩
  have hset : ((r.made.flatten.toFinset ∪ own) \ r.freed.toFinset) \ r.packets.flatten.toFinset =
      own \ (mp :: l).toFinset := by
    rw [hflat, ← hsplit]
    ext b
    simp only [Finset.mem_sdiff, Finset.mem_union, List.mem_toFinset, List.mem_append]
    have hb := hmade b
    tauto
  obtain ⟨h1, h2, h3⟩ := sendPackets_spec ht (Finset.disjoint_empty_right _) hheld hnd2 hown2
  rw [hset] at h2
  constructor
  case wild => rfl
  case once =>
    simp only
    rw [List.append_assoc]
    refine (h1.append_left _).trans ?_
    rw [hflat, ← hsplit, ← List.append_assoc]
    exact List.perm_append_comm.append_right _
  case held => exact h2
  case sent => exact fun hrc => ⟨by rw [hpackets]; simp, (h3 hrc).2⟩

theorem once_sendFragments_iff (hh : Held h own limbo) (hnd : (mp :: l).Nodup)
    (hown : ∀ b ∈ mp :: l, b ∈ own) (hhdr : 20 ≤ (h.mb mp).mLen)
    (ht : ∀ f, ni.outputFunc = some f → Takes f) (hdf : be16 (iphdr mem h mp) 6 &&& IP_DF = 0)
    (hbig : ni.ifMtu < be16 (iphdr mem h mp) 2) :
    Once own limbo (mp :: l) (sendFragments h mem ni mp l) ↔ FragRoom h mem mp l ni.ifMtu := by
  unfold sendFragments
  rw [if_neg (by rw [hdf]; simp)]
  dsimp only
  rcases Int.lt_or_le ni.ifMtu 28 with hlt | hmtu
  · -- `frag_len` is less than 8
    have hr : ip4Fragment h mem mp l ni.ifMtu =
        { heap := h.mFreem (mp :: l), mem, rc := EMSGSIZE, freed := mp :: l } := by
      unfold ip4Fragment
      dsimp only
      rw [if_pos (by omega)]
    have hemsg : EMSGSIZE ≠ 0 := by decide
    constructor
    · intro ho
      rw [hr] at ho
      simp only [Bool.false_eq_true, if_false, if_pos hemsg] at ho
      exact absurd ho (not_once_twice (by simp))
    · exact fun hroom => absurd hroom.1 (by omega)
  rcases ip4Fragment_result hh hnd hown hhdr hmtu hbig with
    ⟨hroom, h', mem', d, kept, hf⟩ | ⟨hroom, hgone⟩
  · have hrc := hf.rc
    have hwild := hf.wild
    simp only [hwild, hrc, Bool.false_eq_true, if_false, ne_eq, not_true_eq_false]
    exact ⟨fun _ => ⟨hmtu, hroom⟩, fun _ => once_fragments hnd hown ht hf⟩
  · generalize ip4Fragment h mem mp l ni.ifMtu = r at hgone ⊢
    refine ⟨fun ho => ?_, fun hr => absurd hr.2 hroom⟩
    cases hw : r.wild with
    | true =>
      simp only [hw, if_true] at ho
      exact absurd ho.wild (by simp)
    | false =>
      have hrc : r.rc ≠ 0 := by
        rw [hgone.rc hw]
        decide
      simp only [hw, Bool.false_eq_true, if_false, if_pos hrc] at ho
      refine absurd ho (not_once_twice ?_)
      simp only
      rw [hgone.freed hw]

/-! ## Every chain -/

/-- The packet is not to be fragmented, or there is room for its fragments. -/
def OutputRoom (tnet : Netifs) (ni : Option Netif) (h : Heap) (mem : Bufs) (mp : Block)
    (l : List Block) : Prop :=
  ∀ n, ni.or (ipRouteOut tnet (ipDst (iphdr mem h mp))) = some n →
    ipDst (iphdr mem h mp) ≠ BitVec.allOnes 32 →
    n.ifMtu < be16 (iphdr mem h mp) 2 → FragRoom h mem mp l n.ifMtu

/-- The header `ip_output` writes. -/
def outputHdr (ip : List UInt8) (id : Nat) : List UInt8 := setBe16 (maskIpOff (ip.set 0 0x45)) 4 id

/-- The fields that are not written. -/
theorem be16_outputHdr_of_ne {ip : List UInt8} (id : Nat) {j : Nat} (h1 : j ∉ [0, 4, 5, 6, 7])
    (h2 : j + 1 ∉ [0, 4, 5, 6, 7]) : be16 (outputHdr ip id) j = be16 ip j := by
  have hget : ∀ j, j ∉ [0, 4, 5, 6, 7] → (outputHdr ip id).getD j 0 = ip.getD j 0 := by
    intro j hj
    simp only [List.mem_cons, List.not_mem_nil, or_false, not_or] at hj
    unfold outputHdr
    rw [getD_setBe16 (by omega)]
    simp [maskIpOff, List.getD_eq_getElem?_getD, List.getElem?_set_ne, Ne.symm hj.1, Ne.symm hj.2.2.2.1,
      Ne.symm hj.2.2.2.2]
  unfold be16
  rw [hget j h1, hget _ h2]

theorem outputHdr_spec {ip : List UInt8} (hl : ip.length = 20) (id : Nat) :
    (outputHdr ip id).length = 20 ∧ be16 (outputHdr ip id) 2 = be16 ip 2 ∧
    ipDst (outputHdr ip id) = ipDst ip ∧
      be16 (outputHdr ip id) 6 &&& IP_DF = 0 := by
  refine ⟨by simp [outputHdr, maskIpOff, hl], be16_outputHdr_of_ne id (by decide) (by decide), ?_, ?_⟩
  · unfold ipDst
    rw [be16_outputHdr_of_ne id (by decide) (by decide), be16_outputHdr_of_ne id (by decide) (by decide)]
  · have h6 : (outputHdr ip id).getD 6 0 = 0 := by
      unfold outputHdr
      rw [getD_setBe16 (by omega)]
      simp [maskIpOff, List.getD_eq_getElem?_getD, hl]
    have hlt : be16 (outputHdr ip id) 6 < 2 ^ 14 := by
      have := ((outputHdr ip id).getD 7 0).toNat_lt
      unfold be16
      rw [h6]
      simp only [UInt8.toNat_zero, Nat.reduceAdd]
      omega
    rw [← Nat.and_two_pow_sub_one_of_lt_two_pow hlt, Nat.and_assoc]
    exact Nat.and_zero _

theorem fragRoom_congr {mem' : Bufs} {ifMtu : Int}
    (hlen : be16 (iphdr mem' h mp) 2 = be16 (iphdr mem h mp) 2) :
    FragRoom h mem' mp l ifMtu ↔ FragRoom h mem mp l ifMtu := by
  unfold FragRoom tailSlices
  rw [hlen]

/-- **`ip_output` consumes its packet exactly once**, and all it makes of it, exactly when the packet is
    not to be fragmented or there is room for its fragments. -/
theorem ipOutput_once_iff (tnet : Netifs) (ni : Option Netif) (id : Nat) (h : Heap) (own : Finset Block)
    (limbo : Set Block) (mem : Bufs) (mp : Block) (l : List Block) (hh : Held h own limbo)
    (hnd : (mp :: l).Nodup) (hown : ∀ b ∈ mp :: l, b ∈ own) (hhdr : 20 ≤ (h.mb mp).mLen)
    (ht : ∀ n f, ni.or (ipRouteOut tnet (ipDst (iphdr mem h mp))) = some n →
      n.outputFunc = some f → Takes f) :
    Once own limbo (mp :: l) (ipOutput tnet ni id h mem mp l) ↔ OutputRoom tnet ni h mem mp l := by
  obtain ⟨d, hd⟩ := exists_dbuf hh.sharing (hown mp List.mem_cons_self)
  have hlen : (iphdr mem h mp).length = 20 := by rw [iphdr_eq hd rfl, length_bufBytes]
  obtain ⟨hl1, hip2, hdst, hdf⟩ := outputHdr_spec hlen id
  have hip1 : iphdr (setIphdr mem h mp (outputHdr (iphdr mem h mp) id)) h mp =
      outputHdr (iphdr mem h mp) id := by
    rw [iphdr_eq hd rfl, (iphdr_setIphdr hd rfl hl1).1]
  have hhdr' : setBe16 (maskIpOff ((iphdr mem h mp).set 0 0x45)) 4 id = outputHdr (iphdr mem h mp) id := rfl
  unfold ipOutput OutputRoom
  dsimp only
  rw [hhdr', hdst]
  rw [← hip1] at hip2 hdst hdf
  generalize setIphdr mem h mp (outputHdr (iphdr mem h mp) id) = mem1 at *
  cases hn : ni.or (ipRouteOut tnet (ipDst (iphdr mem h mp))) with
  | none => exact iff_of_true (once_drop hh hnd hown (by decide)) fun _ hc => (by cases hc)
  | some n =>
    have htn : ∀ f, n.outputFunc = some f → Takes f := fun f => ht n f hn
    simp only [Option.some.injEq, forall_eq']
    unfold outputOn
    dsimp only
    rw [hdst, hip2]
    by_cases hb : ipDst (iphdr mem h mp) = BitVec.allOnes 32
    · -- a broadcast packet is never fragmented
      refine iff_of_true ?_ fun hc => absurd hb hc
      by_cases hflag : n.broadcast = false
      · rw [if_pos ⟨hb, hflag⟩]
        exact once_drop hh hnd hown (by decide)
      rw [if_neg fun hc => hflag hc.2]
      by_cases hbig : n.ifMtu < be16 (iphdr mem h mp) 2
      · rw [if_pos ⟨hb, hbig⟩]
        exact once_drop hh hnd hown (by decide)
      rw [if_neg fun hc => hbig hc.2, if_pos (by omega)]
      exact once_whole hh hnd hown htn
    · rw [if_neg fun hc => hb hc.1, if_neg fun hc => hb hc.1]
      by_cases hbig : n.ifMtu < be16 (iphdr mem h mp) 2
      · rw [if_neg (by omega), once_sendFragments_iff hh hnd hown hhdr htn hdf (by rw [hip2]; exact hbig),
          fragRoom_congr hip2]
        exact ⟨fun hr _ _ => hr, fun hr => hr hb hbig⟩
      · rw [if_pos (by omega)]
        exact iff_of_true (once_whole hh hnd hown htn) fun _ hc => absurd hc hbig

/-- An interface that keeps the packets it is given. -/
def keeping : Netif where
  up := true
  broadcast := true
  ifMtu := 28
  ipAddr := 0x0a000001
  netmask := 0xff000000
  outputFunc := some fun h _ => (h, 0)

theorem takes_keeping : Takes fun h _ => (h, 0) := by
  intro h own out limbo m hd hh _ hown
  refine ⟨out ∪ m.toFinset, ?_, ?_⟩
  · rw [Finset.disjoint_union_right]
    exact ⟨disjoint_sdiff_left hd m, Finset.sdiff_disjoint⟩
  · have hset : own \ m.toFinset ∪ (out ∪ m.toFinset) = own ∪ out := by
      have hm : m.toFinset ⊆ own := fun b hb => hown b (List.mem_toFinset.mp hb)
      rw [Finset.union_left_comm, Finset.sdiff_union_of_subset hm, Finset.union_comm]
    rw [hset]
    exact hh

theorem enough_small : FragRoom small.heap smallBufs ⟨.lobuf, 0⟩ [] 28 := by
  refine ⟨by decide, ?_, ?_, ?_⟩ <;> decide +kernel

theorem ipOutput_once_small : Once small.own ∅ [⟨.lobuf, 0⟩]
    (ipOutput ⟨[keeping], none⟩ none 7 small.heap smallBufs ⟨.lobuf, 0⟩ []) := by
  refine (ipOutput_once_iff ⟨[keeping], none⟩ none 7 small.heap small.own ∅ smallBufs ⟨.lobuf, 0⟩ []
    datagram_small.held datagram_small.nodup datagram_small.owned datagram_small.hdr ?_).mpr ?_
  · intro n f hn hf
    cases hn
    cases hf
    exact takes_keeping
  · intro n hn _ _
    cases hn
    exact enough_small

/-- A packet of 1520 bytes, and no buffer left for a fragment. -/
def noBuffersRun : List HeapEvent :=
  [.get .MB_HI true, .fill ⟨.lobuf, 0⟩ 1520 0 1520] ++ List.replicate 48 (.get .MB_MID1 true)

def noBuffers : Owners := noBuffersRun.foldl Owners.step Owners.start

def noBuffersBufs : Bufs := fun _ i =>
  [0x45, 0, 5, 0xf0, 0, 1, 0, 0, 64, 17, 0, 0, 10, 0, 0, 1, 10, 0, 0, 2].getD i 9

theorem held_noBuffers : Held noBuffers.heap noBuffers.own ∅ := held_run _ (by decide +kernel)

/-- Another MTU. -/
def ethernet : Netif := { keeping with ifMtu := 1500 }

theorem noBuffers_twice : ⟨.lobuf, 0⟩ ∈ noBuffers.own ∧
    20 ≤ (noBuffers.heap.mb ⟨.lobuf, 0⟩).mLen ∧
    (ipOutput ⟨[ethernet], none⟩ none 7 noBuffers.heap noBuffersBufs ⟨.lobuf, 0⟩ []).freed =
      [⟨.lobuf, 0⟩, ⟨.lobuf, 0⟩] ∧
    (ipOutput ⟨[ethernet], none⟩ none 7 noBuffers.heap noBuffersBufs ⟨.lobuf, 0⟩ []).made = [] := by
  decide +kernel

theorem ipRouteOut_single {n n' : Netif} {dst : BitVec 32} (hn : ipRouteOut ⟨[n], none⟩ dst = some n') :
    n' = n := by
  unfold ipRouteOut at hn
  rw [List.find?_singleton] at hn
  split at hn
  · rename_i heq
    rw [← Option.some_inj.mp hn]
    split at heq
    · exact (Option.some_inj.mp heq).symm
    · cases heq
  · cases hn

/-- The packet is freed twice. -/
theorem ipOutput_twice :
    ¬ ∀ (tnet : Netifs) (ni : Option Netif) (id : Nat) (h : Heap) (own : Finset Block) (limbo : Set Block)
      (mem : Bufs) (mp : Block) (l : List Block), Held h own limbo → (mp :: l).Nodup →
      (∀ b ∈ mp :: l, b ∈ own) → 20 ≤ (h.mb mp).mLen →
      (∀ n f, ni.or (ipRouteOut tnet (ipDst (iphdr mem h mp))) = some n →
        n.outputFunc = some f → Takes f) →
      Once own limbo (mp :: l) (ipOutput tnet ni id h mem mp l) := by
  intro hall
  have hheld := held_noBuffers
  have hfacts := noBuffers_twice
  generalize noBuffers = s at *
  obtain ⟨hmem, hlen, hfreed, hmade⟩ := hfacts
  have honce := hall ⟨[ethernet], none⟩ none 7 s.heap s.own ∅ noBuffersBufs ⟨.lobuf, 0⟩ [] hheld
    (List.nodup_singleton _) (by simpa using hmem) hlen ?_
  · refine not_once_twice ?_ honce
    rw [hfreed, hmade]
    rfl
  · intro n f hn hf
    rw [ipRouteOut_single hn] at hf
    cases hf
    exact takes_keeping

end TnNet.Ip
