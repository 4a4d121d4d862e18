import TnNet.Ip.FragParts

/-!
# `ip4_fragment` partitions the datagram

The packets that `ip4_fragment` makes of a datagram.  Each packet behind the first one is a header in a
buffer of its own and a slice of the original chain; the first one is the original chain, trimmed.

* `fragLoop_result` — what the loop has made, or that there is not enough of something for it.
* `ip4Fragment_partitions` — the payloads of the packets make up the payload of the datagram, and each
  header says which part of it follows.

The header of the datagram lies in the first descriptor, and no other descriptor of the chain has its
bytes as data.
-/

set_option autoImplicit false

namespace TnNet.Ip

open Bytes InetSum TnNet.Mem TnNet.Mem.Heap

variable {h h' h0 : Heap} {own own' : Finset Block} {limbo : Set Block} {mem mem' mem0 : Bufs}
  {m0 p l made : List Block} {b d m mp x : Block} {ip hdr : List UInt8} {s : Nat × Nat} {n pos : Nat}

/-! ## Headers -/

section Header

variable {copies : List Block} {off len y : Nat} {mf : Prop}

theorem iphdr_eq (hd : h.dbuf m = some d) (hpos : (h.mb m).mData = pos) :
    iphdr mem h m = bufBytes mem (some d) pos 20 := by
  unfold iphdr
  rw [hd, hpos]

theorem iphdr_setIphdr (hd : h.dbuf m = some d) (hpos : (h.mb m).mData = pos) (hl : hdr.length = 20) :
    bufBytes (setIphdr mem h m hdr) (some d) pos 20 = hdr ∧ Only d pos 20 mem (setIphdr mem h m hdr) := by
  unfold setIphdr
  rw [hd, hpos]
  have h1 := bufBytes_writeBuf mem d pos hdr
  rw [hl] at h1
  exact ⟨h1, only_writeBuf mem d pos hl⟩

/-- The checksum is over the header. -/
theorem sumIphdr_spec (hd : h.dbuf m = some d) (hpos : (h.mb m).mData = pos) (hlen : 20 ≤ (h.mb m).mLen) :
    Only d pos 20 mem (sumIphdr mem h m (m :: copies)) ∧
      ∃ chain : List (Bool × List UInt8),
        (chain.flatMap Prod.snd).take 20 = setBe16 (bufBytes mem (some d) pos 20) 10 0 ∧
        bufBytes (sumIphdr mem h m (m :: copies)) (some d) pos 20 =
          setLe16 (setBe16 (bufBytes mem (some d) pos 20) 10 0) 10 (inCksum chain 20) := by
  have hl : (bufBytes mem (some d) pos 20).length = 20 := length_bufBytes
  generalize hold : bufBytes mem (some d) pos 20 = old at hl
  obtain ⟨h1, h2⟩ := @iphdr_setIphdr h mem d m (setBe16 old 10 0) pos hd hpos (by simp [hl])
  unfold sumIphdr
  dsimp only
  rw [iphdr_eq hd hpos, hold, iphdr_eq hd hpos, h1]
  generalize setIphdr mem h m (setBe16 old 10 0) = mem1 at h1 h2 ⊢
  obtain ⟨h3, h4⟩ := @iphdr_setIphdr h mem1 d m
    (setLe16 (setBe16 old 10 0) 10 (inCksumMb mem1 h (m :: copies) 20)) pos hd hpos (by simp [hl])
  refine ⟨h2.trans h4, _, ?_, h3⟩
  have htake := bufBytes_drop_take mem1 (some d) pos (h.mb m).mLen 0 20
  rw [List.drop_zero, Nat.add_zero, Nat.sub_zero, Nat.min_eq_left hlen, h1] at htake
  rw [List.map_cons, List.flatMap_cons, List.take_append_of_le_length]
  · show (h.bytes mem1 m).take 20 = _
    unfold Heap.bytes
    rw [hd, hpos, htake]
  · show 20 ≤ (h.bytes mem1 m).length
    unfold Heap.bytes
    rw [hd, length_bufBytes]
    exact hlen

/-- The header of a packet: its `ip_len` is there, its `ip_off` and checksum are written. -/
theorem fragHdr_write (hd : h.dbuf m = some d) (hpos : (h.mb m).mData = pos) (hmlen : 20 ≤ (h.mb m).mLen)
    (hip : bufBytes mem (some d) pos 20 = setBe16 ip 2 (len + 20)) (hl : ip.length = 20)
    (hlen : 20 + len < 65536) :
    Only d pos 20 mem (sumIphdr (setIphdr mem h m (setBe16 (iphdr mem h m) 6 y)) h m (m :: copies)) ∧
      (y < 65536 ∧ (y &&& IP_OFFMASK) * 8 = off - 20 ∧ (y &&& IP_MF ≠ 0 ↔ mf) → FragHdr ip off len mf
        (bufBytes (sumIphdr (setIphdr mem h m (setBe16 (iphdr mem h m) 6 y)) h m (m :: copies)) (some d)
          pos 20)) := by
  obtain ⟨h1, h2⟩ :=
    @iphdr_setIphdr h mem d m (setBe16 (setBe16 ip 2 (len + 20)) 6 y) pos hd hpos (by simp [hl])
  rw [iphdr_eq hd hpos, hip]
  generalize setIphdr mem h m (setBe16 (setBe16 ip 2 (len + 20)) 6 y) = mem1 at h1 h2 ⊢
  obtain ⟨h3, chain, hchain, h4⟩ := @sumIphdr_spec h mem1 d m pos copies hd hpos hmlen
  rw [h1] at hchain h4
  rw [h4]
  exact ⟨h2.trans h3, fun ⟨hy, hoff, hmf⟩ => fragHdr_of_off hl hy hoff hmf hlen chain hchain⟩

end Header

/-! ## A fragment -/

/-- A packet behind the first one: the bytes `s.2` from `s.1` on of what is read by `orig`, behind a
    header in a buffer that is not one of `used`.  The header is right for a datagram that is no
    fragment. -/
structure IsFrag (ip : List UInt8) (orig : Bufs → List UInt8) (used : Set Block) (h : Heap) (mem : Bufs)
    (s : Nat × Nat) (m d : Block) (copies : List Block) : Prop where
  dbuf : h.dbuf m = some d
  mData : (h.mb m).mData = 0
  mLen : (h.mb m).mLen = 20
  mTlen : (h.mb m).mTlen = BitVec.ofNat 20 (20 + s.2)
  hdr : be16 ip 6 &&& (IP_MF ||| IP_OFFMASK) = 0 →
    FragHdr ip s.1 s.2 (s.1 + s.2 < be16 ip 2) (bufBytes mem (some d) 0 20)
  data : ∀ mem, h.chainBytes mem copies = ((orig mem).drop s.1).take s.2
  fresh : d ∉ used

/-- A packet is a fragment. -/
def Frag (ip : List UInt8) (orig : Bufs → List UInt8) (used : Set Block) (h : Heap) (mem : Bufs)
    (s : Nat × Nat) (p : List Block) : Prop :=
  ∃ m d copies, p = m :: copies ∧ IsFrag ip orig used h mem s m d copies

variable {orig : Bufs → List UInt8} {used : Set Block}

/-- What is done elsewhere leaves a fragment as it is. -/
theorem Frag.frame (hf : Frag ip orig used h mem s p) (hown : ∀ b ∈ p, b ∈ own)
    (hk : ∀ x ∈ h.InUse own, Keeps h h' x)
    (hp : ∀ b ∈ p, (h'.mb b).mData = (h.mb b).mData ∧ (h'.mb b).mLen = (h.mb b).mLen ∧
      (h'.mb b).mTlen = (h.mb b).mTlen)
    (hmem : ∀ d ∈ h.InUse own, d ∉ used → mem' d = mem d) : Frag ip orig used h' mem' s p := by
  obtain ⟨m, d, copies, rfl, hf⟩ := hf
  have hm := List.mem_cons_self (a := m) (l := copies)
  obtain ⟨h1, h2, h3⟩ := hp m hm
  have hd := hmem d (dbuf_inUse (hown m hm) hf.dbuf) hf.fresh
  refine ⟨m, d, copies, rfl, ?_⟩
  constructor
  case dbuf => rw [dbuf_keeps hk (hown m hm), hf.dbuf]
  case mData => rw [h1, hf.mData]
  case mLen => rw [h2, hf.mLen]
  case mTlen => rw [h3, hf.mTlen]
  case hdr =>
    rw [bufBytes_congr hd]
    exact hf.hdr
  case data =>
    intro mem
    rw [chainBytes_same mem hk (fun b hb => hown b (List.mem_cons_of_mem m hb)), hf.data]
    intro b hb
    obtain ⟨k1, k2, -⟩ := hp b (List.mem_cons_of_mem m hb)
    exact ⟨k1, k2⟩
  case fresh => exact hf.fresh

/-! ## What the fragments take -/

theorem skip_same (hs : ∀ b ∈ m0, (h'.mb b).mLen = (h.mb b).mLen) (offset : Int) :
    h'.skip m0 offset = h.skip m0 offset := by
  induction m0 generalizing offset with
  | nil => rfl
  | cons b l ih =>
    unfold Heap.skip
    rw [hs b List.mem_cons_self, ih fun c hc => hs c (List.mem_cons_of_mem b hc)]

theorem copyCount_same (hs : ∀ b ∈ m0, Same h h' b) (offset len : Int) :
    h'.copyCount m0 offset len = h.copyCount m0 offset len := by
  unfold Heap.copyCount
  rw [skip_same (fun b hb => (hs b hb).mLen), Same.cover]
  exact fun b hb => hs b (skip_subset m0 offset b hb)

theorem copyCount_pos (hs : Sharing h own) (hown : ∀ b ∈ m0, b ∈ own) {off len : Nat} (hl : 0 < len)
    (hin : off + len ≤ h.chainLen m0) : 0 < h.copyCount m0 off len := by
  obtain ⟨rest, o, hskip⟩ : ∃ rest o, h.skip m0 off = (rest, o) := ⟨_, _, rfl⟩
  obtain ⟨-, -, hnil, -, -⟩ := skip_spec hs hown (Int.natCast_nonneg off) hskip
  unfold Heap.copyCount
  rw [hskip]
  cases rest with
  | nil =>
    have := hnil.mp rfl
    omega
  | cons mb rest =>
    unfold Heap.cover
    split <;> omega

/-- The descriptors that the packets behind the first one take. -/
def needed (h : Heap) (m0 : List Block) (ss : List (Nat × Nat)) : Nat :=
  (ss.map fun s => 1 + h.copyCount m0 s.1 s.2).sum

/-- The ranges lie in the chain, and there are descriptors and buffers for them. -/
structure Enough (h : Heap) (m0 : List Block) (ss : List (Nat × Nat)) : Prop where
  inside : ∀ s ∈ ss, s.1 + s.2 ≤ h.chainLen m0
  m1buf : ss.length ≤ (h.free .drvM1buf).length
  lobuf : needed h m0 ss ≤ (h.free .lobuf).length

variable {ss done : List (Nat × Nat)}

theorem needed_append (h : Heap) (m0 : List Block) (ss done : List (Nat × Nat)) :
    needed h m0 (done ++ ss) = needed h m0 done + needed h m0 ss := by
  simp [needed]

theorem Enough.left (he : Enough h m0 (done ++ ss)) : Enough h m0 done := by
  obtain ⟨h1, h2, h3⟩ := he
  rw [needed_append] at h3
  rw [List.length_append] at h2
  exact ⟨fun s hs => h1 s (List.mem_append_left _ hs), by omega, by omega⟩

/-! ## The loop -/

/-- What the loop has made for the ranges `done`, from a heap `h0` on. -/
structure FragInv (own : Finset Block) (limbo : Set Block) (h0 : Heap) (mem0 : Bufs) (ip : List UInt8)
    (m0 : List Block) (done : List (Nat × Nat)) (h : Heap) (mem : Bufs)
    (made : List (List Block)) : Prop where
  held : Held h (made.flatten.toFinset ∪ own) limbo
  nodup : made.flatten.Nodup
  fresh : ∀ b ∈ made.flatten, b ∉ h0.InUse own
  same : ∀ x ∈ h0.InUse own, Same h0 h x
  bufs : ∀ x ∈ h0.InUse own, mem x = mem0 x
  frags : List.Forall₂ (Frag ip (fun mem => h0.chainBytes mem m0) (h0.InUse own) h mem) done made
  inside : ∀ s ∈ done, s.1 + s.2 ≤ h0.chainLen m0
  m1buf : (h0.free .drvM1buf).length = (h.free .drvM1buf).length + done.length
  lobuf : (h0.free .lobuf).length = (h.free .lobuf).length + needed h0 m0 done

variable {packets : List (List Block)}

theorem fragInv_start (hh : Held h0 own limbo) : FragInv own limbo h0 mem0 ip m0 [] h0 mem0 [] := by
  constructor
  case held => simpa using hh
  case same => exact fun x _ => .of_eq rfl
  case frags => exact .nil
  all_goals simp [needed]

theorem FragInv.enough (hi : FragInv own limbo h0 mem0 ip m0 done h mem packets) : Enough h0 m0 done := by
  have h1 := hi.m1buf
  have h2 := hi.lobuf
  exact ⟨hi.inside, by omega, by omega⟩

/-- The packets made so far when another one is made. -/
theorem FragInv.frame (hi : FragInv own limbo h0 mem0 ip m0 done h mem packets)
    (hs : ∀ x ∈ h.InUse (packets.flatten.toFinset ∪ own), Same h h' x)
    (hmem : ∀ d ∈ h.InUse (packets.flatten.toFinset ∪ own), mem' d = mem d) :
    List.Forall₂ (Frag ip (fun mem => h0.chainBytes mem m0) (h0.InUse own) h' mem') done packets := by
  obtain ⟨hlen, hf⟩ := List.forall₂_iff_zip.mp hi.frags
  refine List.forall₂_iff_zip.mpr ⟨hlen, fun {s p} hsp => ?_⟩
  have hp : ∀ b ∈ p, b ∈ packets.flatten.toFinset ∪ own := by
    intro b hb
    rw [Finset.mem_union, List.mem_toFinset]
    exact .inl (List.mem_flatten_of_mem (List.of_mem_zip hsp).2 hb)
  refine (hf hsp).frame hp (fun x hx => (hs x hx).keeps) ?_ fun d hd _ => hmem d hd
  intro b hb
  have hb := hs b (.inl (hp b hb))
  exact ⟨hb.mData, hb.mLen, hb.mTlen⟩

theorem FragInv.inUse (hi : FragInv own limbo h0 mem0 ip m0 done h mem packets) :
    h.InUse own = h0.InUse own := inUse_frame fun x hx => (hi.same x hx).keeps

section Turn

variable {off len y : Nat} {h1 h2 h3 h4 : Heap} {copies : List Block}

/-- What is in use when a header is taken is left alone. -/
theorem header_same (hf : Fresh own h .drvM1buf m d h1)
    (h2eq : h2 = h1.set m { h1.mb m with pkthdr := true, mLen := 20 }) (hx : x ∈ h.InUse own) :
    Same h h2 x := by
  refine .of_eq ?_
  rw [h2eq, set_mb_ne, hf.same x hx]
  rintro rfl
  exact hf.notUse.1 hx

theorem header_inUse (hf : Fresh own h .drvM1buf m d h1)
    (h2eq : h2 = h1.set m { h1.mb m with pkthdr := true, mLen := 20 }) :
    h.InUse own ⊆ h2.InUse (insert m own) := by
  rw [← inUse_frame fun x hx => (header_same hf h2eq hx).keeps]
  exact inUse_mono (Finset.subset_insert _ _)

/-- A new packet leaves what is in use alone. -/
theorem packet_same (hf : Fresh own h .drvM1buf m d h1)
    (h2eq : h2 = h1.set m { h1.mb m with pkthdr := true, mLen := 20 })
    (hsame : ∀ x ∈ h2.InUse (insert m own), Same h2 h3 x) {n : BitVec 20}
    (h4eq : h4 = h3.set m { h3.mb m with mTlen := n }) : ∀ x ∈ h.InUse own, Same h h4 x := by
  intro x hx
  have hne : x ≠ m := by
    rintro rfl
    exact hf.notUse.1 hx
  refine ((header_same hf h2eq hx).trans (hsame x (header_inUse hf h2eq hx))).trans (.of_eq ?_)
  rw [h4eq, set_mb_ne hne]

/-- The descriptor of a new header. -/
theorem header_desc (hf : Fresh own h .drvM1buf m d h1)
    (h2eq : h2 = h1.set m { h1.mb m with pkthdr := true, mLen := 20 }) :
    h2.dbuf m = some d ∧ (h2.mb m).mData = 0 ∧ (h2.mb m).mLen = 20 := by
  have hdesc := hf.desc
  generalize (h1.mb m).mDbtype = k at hdesc
  have hdesc2 : h2.mb m = { h1.mb m with pkthdr := true, mLen := 20 } := by rw [h2eq, set_mb_self]
  refine ⟨?_, ?_, by rw [hdesc2]⟩
  · unfold Heap.dbuf Heap.pri
    simp only [hdesc2, hdesc, primDesc, if_true, Option.bind_some]
  · rw [hdesc2, hdesc]
    rfl

/-- The descriptor behind the copying. -/
theorem packet_desc (hf : Fresh own h .drvM1buf m d h1)
    (h2eq : h2 = h1.set m { h1.mb m with pkthdr := true, mLen := 20 })
    (hsame : ∀ x ∈ h2.InUse (insert m own), Same h2 h3 x) {n : BitVec 20}
    (h4eq : h4 = h3.set m { h3.mb m with mTlen := n }) :
    h4.dbuf m = some d ∧ (h4.mb m).mData = 0 ∧ (h4.mb m).mLen = 20 ∧ (h4.mb m).mTlen = n := by
  obtain ⟨hd, hdata, hlen⟩ := header_desc hf h2eq
  have hm : m ∈ insert m own := Finset.mem_insert_self _ _
  have hm3 := hsame m (.inl hm)
  have hdesc4 : h4.mb m = { h3.mb m with mTlen := n } := by rw [h4eq, set_mb_self]
  refine ⟨?_, ?_, ?_, by rw [hdesc4]⟩
  · rw [dbuf_refs (h4eq ▸ sameRefs_set h3 m (h3.mb m).mLen (h3.mb m).mData n),
      dbuf_keeps (fun x hx => (hsame x hx).keeps) hm, hd]
  · rw [hdesc4, hm3.mData, hdata]
  · rw [hdesc4, hm3.mLen, hlen]

/-- A new packet has the bytes of the chain at its place. -/
theorem packet_bytes (hf : Fresh own h .drvM1buf m d h1)
    (h2eq : h2 = h1.set m { h1.mb m with pkthdr := true, mLen := 20 })
    (hs : Slice (insert m own) limbo h2 m0 off len n [] copies h3) {k : BitVec 20}
    (h4eq : h4 = h3.set m { h3.mb m with mTlen := k }) (hm0 : ∀ b ∈ m0, b ∈ own) (mem : Bufs) :
    h4.chainBytes mem copies = ((h.chainBytes mem m0).drop off).take len := by
  have hcm : ∀ b ∈ copies, b ≠ m := by
    rintro b hb rfl
    exact hs.fresh b (by simpa using hb) (.inl (Finset.mem_insert_self _ _))
  rw [chainBytes_refs mem (h4eq ▸ sameRefs_set h3 m (h3.mb m).mLen (h3.mb m).mData k), hs.bytes,
    Same.chainBytes (fun x hx => header_same hf h2eq hx) hm0]
  · simp
  · intro b hb
    rw [h4eq, set_mb_ne (hcm b hb)]
    exact ⟨rfl, rfl⟩

/-- The blocks of a new packet are new. -/
theorem packet_fresh (hf : Fresh own h .drvM1buf m d h1)
    (h2eq : h2 = h1.set m { h1.mb m with pkthdr := true, mLen := 20 })
    (hs : Slice (insert m own) limbo h2 m0 off len n [] copies h3) :
    (m :: copies).Nodup ∧ ∀ b ∈ m :: copies, b ∉ h.InUse own := by
  have hfresh := hs.fresh
  have hnodup := hs.nodup
  rw [List.nil_append] at hfresh hnodup
  constructor
  · refine List.nodup_cons.mpr ⟨fun hc => ?_, hnodup⟩
    exact hfresh m hc (.inl (Finset.mem_insert_self _ _))
  · intro b hb
    rcases List.mem_cons.mp hb with rfl | hb
    · exact hf.notUse.1
    · exact fun hc => hfresh b hb (header_inUse hf h2eq hc)

/-- The packets with a new one are what is held. -/
theorem packet_held (hs : Held h3 (([] ++ copies).toFinset ∪ insert m own) limbo) {k : BitVec 20}
    (h4eq : h4 = h3.set m { h3.mb m with mTlen := k }) : Held h4 ((m :: copies).toFinset ∪ own) limbo := by
  have hset : (m :: copies).toFinset ∪ own = ([] ++ copies).toFinset ∪ insert m own := by
    rw [List.nil_append, List.toFinset_cons, Finset.insert_union, Finset.union_insert]
  rw [hset]
  exact hs.same (h4eq ▸ sameRefs_set h3 m (h3.mb m).mLen (h3.mb m).mData k)

/-- The headers a new packet takes. -/
theorem packet_pools (hf : Fresh own h .drvM1buf m d h1)
    (h2eq : h2 = h1.set m { h1.mb m with pkthdr := true, mLen := 20 })
    (hs : Slice (insert m own) limbo h2 m0 off len n [] copies h3) {k : BitVec 20}
    (h4eq : h4 = h3.set m { h3.mb m with mTlen := k }) :
    (h.free .drvM1buf).length = (h4.free .drvM1buf).length + 1 ∧
      (h.free .lobuf).length = (h4.free .lobuf).length + (1 + n) := by
  have hfree2 : h2.free = h1.free := (h2eq ▸ sameRefs_pkthdr h1 m true 20 (h1.mb m).mTlen).free
  have hfree4 : h4.free = h3.free := (h4eq ▸ sameRefs_set h3 m (h3.mb m).mLen (h3.mb m).mData k).free
  constructor
  · rw [hf.pool, List.length_cons, hfree4, hs.others _ (by decide), hfree2]
  · rw [hf.lobuf, List.length_cons, hfree4, ← hfree2, hs.lobuf, List.length_append, hs.count]
    omega

/-- The header of a new packet is written. -/
theorem packet_header {mf : Prop} (hf : Fresh own h .drvM1buf m d h1)
    (h2eq : h2 = h1.set m { h1.mb m with pkthdr := true, mLen := 20 })
    (hsame : ∀ x ∈ h2.InUse (insert m own), Same h2 h3 x) {k : BitVec 20}
    (h4eq : h4 = h3.set m { h3.mb m with mTlen := k }) (hl : ip.length = 20) (hlen : 20 + len < 65536)
    {mem1 : Bufs} (hmem1 : mem1 = setIphdr mem h2 m (setBe16 ip 2 (len + 20))) {mem3 : Bufs}
    (hmem3 : mem3 = sumIphdr (setIphdr mem1 h4 m (setBe16 (iphdr mem1 h4 m) 6 y)) h4 m (m :: copies)) :
    Only d 0 20 mem mem3 ∧
      (y < 65536 ∧ (y &&& IP_OFFMASK) * 8 = off - 20 ∧ (y &&& IP_MF ≠ 0 ↔ mf) →
        FragHdr ip off len mf (bufBytes mem3 (some d) 0 20)) := by
  obtain ⟨hd2, hdata2, -⟩ := header_desc hf h2eq
  obtain ⟨hd4, hdata4, hlen4, -⟩ := packet_desc hf h2eq hsame h4eq
  obtain ⟨hip, honly1⟩ := @iphdr_setIphdr h2 mem d m (setBe16 ip 2 (len + 20)) 0 hd2 hdata2 (by simp [hl])
  rw [← hmem1] at hip honly1
  obtain ⟨honly2, hhdr⟩ :=
    @fragHdr_write h4 mem1 d m ip 0 copies off len y mf hd4 hdata4 hlen4.ge hip hl hlen
  rw [← hmem3] at honly2 hhdr
  exact ⟨honly1.trans honly2, hhdr⟩

/-- A new header and the copies behind it. -/
theorem FragInv.push (hi : FragInv own limbo h0 mem0 ip m0 done h mem packets) (hm0 : ∀ b ∈ m0, b ∈ own)
    (hf : Fresh (packets.flatten.toFinset ∪ own) h .drvM1buf m d h1)
    (h2eq : h2 = h1.set m { h1.mb m with pkthdr := true, mLen := 20 })
    (hs : Slice (insert m (packets.flatten.toFinset ∪ own)) limbo h2 m0 off len (h2.copyCount m0 off len) []
      copies h3)
    (hl : ip.length = 20) (hlen : 20 + len < 65536)
    (hy : be16 ip 6 &&& (IP_MF ||| IP_OFFMASK) = 0 → y < 65536 ∧ (y &&& IP_OFFMASK) * 8 = off - 20 ∧
      (y &&& IP_MF ≠ 0 ↔ off + len < be16 ip 2))
    {mem1 : Bufs} (hmem1 : mem1 = setIphdr mem h2 m (setBe16 ip 2 (len + 20)))
    {h4 : Heap} (h4eq : h4 = h3.set m { h3.mb m with mTlen := BitVec.ofNat 20 (20 + len) }) :
    FragInv own limbo h0 mem0 ip m0 (done ++ [(off, len)]) h4
      (sumIphdr (setIphdr mem1 h4 m (setBe16 (iphdr mem1 h4 m) 6 y)) h4 m (m :: copies))
      (packets ++ [m :: copies]) := by
  have hsame3 : ∀ x ∈ h2.InUse (insert m (packets.flatten.toFinset ∪ own)), Same h2 h3 x := by
    simpa only [List.toFinset_nil, Finset.empty_union] using hs.same
  have hsame4 := packet_same hf h2eq hsame3 h4eq
  have hsub : h0.InUse own ⊆ h.InUse (packets.flatten.toFinset ∪ own) := by
    rw [← hi.inUse]
    exact inUse_mono Finset.subset_union_right
  have hsame0 : ∀ x ∈ h0.InUse own, Same h0 h2 x :=
    fun x hx => (hi.same x hx).trans (header_same hf h2eq (hsub hx))
  obtain ⟨hnodup, hfresh⟩ := packet_fresh hf h2eq hs
  obtain ⟨hm1buf, hlobuf⟩ := packet_pools hf h2eq hs h4eq
  obtain ⟨hd4, hdata4, hlen4, htlen4⟩ := packet_desc hf h2eq hsame3 h4eq
  obtain ⟨mem3, hmem3⟩ : ∃ mem3, mem3 =
      sumIphdr (setIphdr mem1 h4 m (setBe16 (iphdr mem1 h4 m) 6 y)) h4 m (m :: copies) := ⟨_, rfl⟩
  obtain ⟨honly, hhdr⟩ : Only d 0 20 mem mem3 ∧
      (y < 65536 ∧ (y &&& IP_OFFMASK) * 8 = off - 20 ∧ (y &&& IP_MF ≠ 0 ↔ off + len < be16 ip 2) →
        FragHdr ip off len (off + len < be16 ip 2) (bufBytes mem3 (some d) 0 20)) :=
    packet_header hf h2eq hsame3 h4eq hl hlen hmem1 hmem3
  rw [← hmem3]
  have hkeep : ∀ x ∈ h.InUse (packets.flatten.toFinset ∪ own), mem3 x = mem x := by
    rintro x hx
    apply honly.ne
    rintro rfl
    exact hf.notUse.2 hx
  have hnew : IsFrag ip (fun mem => h0.chainBytes mem m0) (h0.InUse own) h4 mem3 (off, len) m d copies := by
    refine ⟨hd4, hdata4, hlen4, htlen4, fun hflags => hhdr (hy hflags), fun mem => ?_,
      fun hc => hf.notUse.2 (hsub hc)⟩
    rw [packet_bytes hf h2eq hs h4eq (fun b hb => Finset.mem_union_right _ (hm0 b hb)) mem,
      Same.chainBytes hi.same hm0]
  have hcopyCount : h2.copyCount m0 off len = h0.copyCount m0 off len :=
    copyCount_same (fun b hb => hsame0 b (.inl (hm0 b hb))) off len
  have hflat : (packets ++ [m :: copies]).flatten = packets.flatten ++ m :: copies := by
    rw [List.flatten_append, List.flatten_singleton]
  constructor
  case held =>
    rw [hflat, List.toFinset_append, Finset.union_right_comm, Finset.union_comm, ← Finset.union_assoc,
      Finset.union_assoc]
    exact packet_held hs.held h4eq
  case nodup =>
    rw [hflat, List.nodup_append]
    refine ⟨hi.nodup, hnodup, ?_⟩
    rintro x hx z hz rfl
    exact hfresh x hz (.inl (Finset.mem_union_left _ (List.mem_toFinset.mpr hx)))
  case fresh =>
    rw [hflat]
    intro b hb
    rcases List.mem_append.mp hb with hb | hb
    · exact hi.fresh b hb
    · exact fun hc => hfresh b hb (hsub hc)
  case same => exact fun x hx => (hi.same x hx).trans (hsame4 x (hsub hx))
  case bufs => exact fun x hx => (hkeep x (hsub hx)).trans (hi.bufs x hx)
  case frags => exact List.rel_append (hi.frame hsame4 hkeep) (.cons ⟨m, d, copies, rfl, hnew⟩ .nil)
  case inside =>
    intro s hs1
    rcases List.mem_append.mp hs1 with hs1 | hs1
    · exact hi.inside s hs1
    · have hin := hs.inside
      rw [Same.chainLen hsame0 hm0] at hin
      rw [List.mem_singleton.mp hs1]
      dsimp only
      omega
  case m1buf =>
    have h5 := hi.m1buf
    rw [List.length_append, List.length_singleton]
    omega
  case lobuf =>
    have h5 := hi.lobuf
    rw [hcopyCount] at hlobuf
    rw [needed_append]
    simp only [needed, List.map_cons, List.map_nil, List.sum_cons, List.sum_nil] at h5 ⊢
    omega

end Turn

/-- The loop leaves the header as it is. -/
theorem FragInv.header (hi : FragInv own limbo h0 mem0 ip m0 done h mem packets) (hs : Sharing h0 own)
    (hmp : mp ∈ own) : iphdr mem h mp = iphdr mem0 h0 mp := by
  obtain ⟨d, hd⟩ := exists_dbuf hs hmp
  have hd' : h.dbuf mp = some d := by
    rw [dbuf_keeps (fun x hx => (hi.same x hx).keeps) hmp, hd]
  rw [iphdr_eq hd rfl, iphdr_eq hd' rfl, (hi.same mp (.inl hmp)).mData,
    bufBytes_congr (hi.bufs d (dbuf_inUse hmp hd))]

/-- There is no header, or no buffer for it. -/
theorem FragInv.not_enough (hi : FragInv own limbo h0 mem0 ip m0 done h mem packets)
    (hempty : h.free .lobuf = [] ∨ h.free .drvM1buf = []) (s : Nat × Nat) :
    ¬ Enough h0 m0 (done ++ [s]) := by
  rintro ⟨-, h2, h3⟩
  have k1 := hi.m1buf
  have k2 := hi.lobuf
  rw [needed_append] at h3
  simp only [needed, List.map_cons, List.map_nil, List.sum_cons, List.sum_nil, List.length_append,
    List.length_singleton] at h2 h3 k2
  rcases hempty with hnil | hnil
  · rw [hnil, List.length_nil] at k2
    omega
  · rw [hnil, List.length_nil] at k1
    omega

section Copy

variable {off len : Nat} {h1 h2 : Heap}

/-- The copying fails only when something is missing. -/
theorem FragInv.copy (hi : FragInv own limbo h0 mem0 ip m0 done h mem packets)
    (hm0 : ∀ b ∈ m0, b ∈ own) (hh1 : Held h1 (insert m (packets.flatten.toFinset ∪ own)) limbo)
    (hf : Fresh (packets.flatten.toFinset ∪ own) h .drvM1buf m d h1)
    (h2eq : h2 = h1.set m { h1.mb m with pkthdr := true, mLen := 20 }) (hlen : 0 < len) :
    match (h2.mCopym m0 off len .MB_NOWAIT).2 with
    | .chain copies => Slice (insert m (packets.flatten.toFinset ∪ own)) limbo h2 m0 off len
        (h2.copyCount m0 off len) [] copies (h2.mCopym m0 off len .MB_NOWAIT).1
    | _ => ¬ Enough h0 m0 (done ++ [(off, len)]) := by
  obtain ⟨⟨hmuse, -⟩, -, hsame, hlobuf, -⟩ := hf
  have hsub : h0.InUse own ⊆ h.InUse (packets.flatten.toFinset ∪ own) := by
    rw [← hi.inUse]
    exact inUse_mono Finset.subset_union_right
  have hrefs2 : SameRefs h1 h2 := by
    rw [h2eq]
    exact sameRefs_pkthdr h1 m true 20 (h1.mb m).mTlen
  have hsame2 : ∀ x ∈ h0.InUse own, Same h0 h2 x := by
    intro x hx
    have hxm : x ≠ m := by
      rintro rfl
      exact hmuse (hsub hx)
    refine (hi.same x hx).trans (.of_eq ?_)
    rw [h2eq, set_mb_ne hxm, hsame x (hsub hx)]
  have hcopyCount : h2.copyCount m0 off len = h0.copyCount m0 off len :=
    copyCount_same (fun b hb => hsame2 b (.inl (hm0 b hb))) off len
  have hchainLen : h2.chainLen m0 = h0.chainLen m0 := Same.chainLen hsame2 hm0
  have hlobuf2 : (h0.free .lobuf).length = (h2.free .lobuf).length + 1 + needed h0 m0 done := by
    have h5 := hi.lobuf
    rwa [hlobuf, List.length_cons, ← hrefs2.free] at h5
  have hown : ∀ b ∈ m0, b ∈ insert m (packets.flatten.toFinset ∪ own) :=
    fun b hb => Finset.mem_insert_of_mem (Finset.mem_union_right _ (hm0 b hb))
  have hh2 := hh1.same hrefs2
  have hnone : h2.chainLen m0 < off + len ∨ (h2.free .lobuf).length < h2.copyCount m0 off len →
      ¬ Enough h0 m0 (done ++ [(off, len)]) := by
    rintro hno ⟨he1, -, he3⟩
    have hin := he1 (off, len) (by simp)
    rw [needed_append] at he3
    simp only [needed, List.map_cons, List.map_nil, List.sum_cons, List.sum_nil] at he3 hlobuf2
    rw [← hcopyCount] at he3
    rw [← hchainLen] at hin
    rcases hno with hno | hno
    · exact absurd hin (by simp only; omega)
    · omega
  by_cases hroom : (off : Int) < h2.chainLen m0 → h2.free .lobuf ≠ []
  · have hres := @mCopym_result h2 _ limbo m0 off len hh2 hown (by omega) (by omega) hroom
    unfold CopymResult at hres
    generalize h2.mCopym m0 off len .MB_NOWAIT = r at hres ⊢
    obtain ⟨h3, res⟩ := r
    cases res with
    | wild => exact hres.elim
    | waits => exact hres.elim
    | null =>
      refine hnone ?_
      have := hres.2.2
      omega
    | chain copies => exact hres
  · have hwild : (h2.mCopym m0 off len .MB_NOWAIT).2 = .wild :=
      mCopym_noHeader hh2.sharing hown (Int.natCast_nonneg off) (by omega) (by omega)
        (by simpa using fun hc => hroom fun _ => hc)
    rw [hwild]
    refine hnone ?_
    rcases Nat.lt_or_ge (h2.chainLen m0) (off + len) with hlt | hge
    · exact .inl hlt
    · have hpos := copyCount_pos hh2.sharing hown hlen hge
      have hnil : h2.free .lobuf = [] := by simpa using fun hc => hroom fun _ => hc
      rw [hnil]
      exact .inr hpos

end Copy

/-- How the loop ends: with the packets for `ss`, or without enough for them. -/
def FragResult (own : Finset Block) (limbo : Set Block) (h0 : Heap) (mem0 : Bufs) (ip : List UInt8)
    (m0 : List Block) (ss : List (Nat × Nat)) (r : Heap × Bufs × List (List Block) × FragEnd) : Prop :=
  match r.2.2.2 with
  | .ok => FragInv own limbo h0 mem0 ip m0 ss r.1 r.2.1 r.2.2.1
  | _ => ¬ Enough h0 m0 ss

/-- The range of this turn and those behind it. -/
theorem slices_turn {ipLen fragLen n off : Nat} (hlt : off < ipLen) :
    slices ipLen fragLen (n + 1) off = [(off, if ipLen ≤ off + fragLen then ipLen - off else fragLen)] ++
      slices ipLen (if ipLen ≤ off + fragLen then ipLen - off else fragLen) n
        (off + if ipLen ≤ off + fragLen then ipLen - off else fragLen) := by
  rw [slices, if_pos hlt, List.singleton_append]
  split
  · rw [Nat.min_eq_right (by omega), slices_of_le (by omega), slices_of_le (by omega)]
  · rw [Nat.min_eq_left (by omega)]

theorem fragLoop_result (hs0 : Sharing h0 own) (hm0 : ∀ b ∈ m0, b ∈ own) (hmp : mp ∈ own)
    (hip : iphdr mem0 h0 mp = ip) :
    ∀ {n off fragLen : Nat} {h : Heap} {mem : Bufs} {packets : List (List Block)} {done : List (Nat × Nat)},
      be16 ip 2 ≤ off + n → 20 ≤ off → 0 < fragLen →
      (off < be16 ip 2 → 8 ∣ off - 20 ∧ 8 ∣ fragLen) →
      FragInv own limbo h0 mem0 ip m0 done h mem packets →
      FragResult own limbo h0 mem0 ip m0 (done ++ slices (be16 ip 2) fragLen n off)
        (fragLoop m0 mp n off fragLen h mem packets) := by
  have hl : ip.length = 20 := by
    obtain ⟨d, hd⟩ := exists_dbuf hs0 hmp
    rw [← hip, iphdr_eq hd rfl, length_bufBytes]
  have hipLen := be16_lt ip 2
  intro n
  induction n with
  | zero =>
    intro off fragLen h mem packets done _ _ _ _ hi
    simpa [fragLoop, slices, FragResult] using hi
  | succ n ih =>
    intro off fragLen h mem packets done hn ho hf h8 hi
    unfold fragLoop
    simp only [hi.header hs0 hmp, hip]
    by_cases hlt : off < be16 ip 2
    swap
    · rw [if_neg hlt, slices_of_le (by omega), List.append_nil]
      exact hi
    rw [if_pos hlt, slices_turn hlt, ← List.append_assoc]
    obtain ⟨hd1, hd2⟩ := h8 hlt
    simp only [decide_eq_true_eq]
    -- the length of this packet
    have hle : (if be16 ip 2 ≤ off + fragLen then be16 ip 2 - off else fragLen) ≤ be16 ip 2 - off := by
      split <;> omega
    have hpos : 0 < if be16 ip 2 ≤ off + fragLen then be16 ip 2 - off else fragLen := by
      split <;> omega
    have hlast : decide (be16 ip 2 ≤ off + fragLen) = false ↔
        off + (if be16 ip 2 ≤ off + fragLen then be16 ip 2 - off else fragLen) < be16 ip 2 := by
      rw [decide_eq_false_iff_not]
      split <;> omega
    have hnext : off + (if be16 ip 2 ≤ off + fragLen then be16 ip 2 - off else fragLen) < be16 ip 2 →
        8 ∣ off + (if be16 ip 2 ≤ off + fragLen then be16 ip 2 - off else fragLen) - 20 ∧
          8 ∣ if be16 ip 2 ≤ off + fragLen then be16 ip 2 - off else fragLen := by
      split
      · omega
      · intro _
        omega
    have hy := fun hflags => @fragOff_spec ip off (decide (be16 ip 2 ≤ off + fragLen)) hflags hd1 (by omega)
    rw [hlast] at hy
    unfold fragOff at hy
    simp only [decide_eq_true_eq] at hy
    generalize (if be16 ip 2 ≤ off + fragLen then be16 ip 2 - off else fragLen) = len at *
    generalize (if be16 ip 2 ≤ off + fragLen then
      (if be16 ip 6 &&& IP_MF ≠ 0 then (off - 20) / 8 + (be16 ip 6 &&& 0xdfff) ||| IP_MF
        else (off - 20) / 8 + (be16 ip 6 &&& 0xdfff))
      else (if be16 ip 6 &&& IP_MF ≠ 0 then (off - 20) / 8 + (be16 ip 6 &&& 0xdfff) ||| IP_MF
        else (off - 20) / 8 + (be16 ip 6 &&& 0xdfff)) ||| IP_MF) = y at *
    have hget := mbGet_result hi.held .MB_MID1 true (by decide)
    have hheld := hi.held.mbGet .MB_MID1 true
    generalize h.mbGet .MB_MID1 true = r at hget hheld ⊢
    obtain ⟨h1, res⟩ := r
    cases res with
    | none => exact fun he => hi.not_enough hget.empty (off, len) he.left
    | some m =>
      obtain ⟨d, hf⟩ := hget
      simp only [Option.toFinset_some, Finset.singleton_union] at hheld
      have hc :=
        @FragInv.copy h h0 own limbo mem mem0 m0 d m ip done packets off len h1 _ hi hm0 hheld hf rfl hpos
      dsimp only
      generalize hh2 : h1.set m { h1.mb m with pkthdr := true, mLen := 20 } = h2 at hc ⊢
      have hpush :=
        fun copies hs => @FragInv.push h h0 own limbo mem mem0 m0 d m ip done packets off len y h1 h2
        (h2.mCopym m0 off len .MB_NOWAIT).1 copies hi hm0 hf hh2.symm hs hl (by omega) hy _ rfl _ rfl
      generalize h2.mCopym m0 off len .MB_NOWAIT = r at hc hpush ⊢
      obtain ⟨h3, res⟩ := r
      cases res with
      | wild => exact fun he => hc he.left
      | waits => exact fun he => hc he.left
      | null => exact fun he => hc he.left
      | chain copies => exact ih (by omega) (by omega) hpos hnext (hpush copies hc)

/-! ## The first packet -/

/-- The original chain when the others are made: it keeps `count` bytes. -/
structure First (own : Finset Block) (limbo : Set Block) (h0 : Heap) (ip : List UInt8) (mp : Block)
    (l : List Block) (ss : List (Nat × Nat)) (made : List (List Block)) (len count : Nat) (mem : Bufs)
    (d : Block) (kept freed : List Block) (h' : Heap) (mem' : Bufs) : Prop where
  split : mp :: kept ++ freed = mp :: l
  held : Held h' ((made.flatten.toFinset ∪ own) \ freed.toFinset) limbo
  origDbuf : h0.dbuf mp = some d
  dbuf : h'.dbuf mp = some d
  mLen : 20 ≤ (h'.mb mp).mLen
  mTlen : (h'.mb mp).mTlen = BitVec.ofNat 20 (20 + len)
  hdr : be16 ip 6 &&& (IP_MF ||| IP_OFFMASK) = 0 → FragHdr ip 20 len True (iphdr mem' h' mp)
  data : ∀ mem, h'.chainBytes mem (mp :: kept) = (h0.chainBytes mem (mp :: l)).take count
  only : Only d (h0.mb mp).mData 20 mem mem'
  frags : List.Forall₂ (Frag ip (fun mem => h0.chainBytes mem (mp :: l)) (h0.InUse own) h' mem') ss made

theorem or_mf {x : Nat} (hx : x < 65536) (hflags : x &&& (IP_MF ||| IP_OFFMASK) = 0) :
    x ||| IP_MF < 65536 ∧ ((x ||| IP_MF) &&& IP_OFFMASK) * 8 = 20 - 20 ∧
      ((x ||| IP_MF) &&& IP_MF ≠ 0 ↔ True) := by
  rw [Nat.and_or_distrib_left, Nat.or_eq_zero_iff] at hflags
  rw [Nat.and_or_distrib_right, Nat.and_or_distrib_right, hflags.1, hflags.2]
  have hmf : IP_MF < 2 ^ 16 := by decide
  exact ⟨Nat.or_lt_two_pow (n := 16) hx hmf, by decide, by decide⟩

section First

variable {len : Nat} {h1 h2 : Heap} {r : Heap × List Block × List Block}

/-- A write to a descriptor that leaves its range. -/
theorem data_set (h : Heap) (m : Block) (v : Desc) (hv : v.mData = (h.mb m).mData ∧ v.mLen = (h.mb m).mLen)
    (x : Block) : ((h.set m v).mb x).mData = (h.mb x).mData ∧ ((h.set m v).mb x).mLen = (h.mb x).mLen := by
  rcases eq_or_ne x m with rfl | hx
  · rw [set_mb_self]
    exact hv
  · rw [set_mb_ne hx]
    exact ⟨rfl, rfl⟩

/-- The original chain before its tail goes. -/
structure Flagged (own : Finset Block) (h0 : Heap) (ip : List UInt8) (mp : Block) (l : List Block)
    (mem : Bufs) (d : Block) (h h1 : Heap) : Prop where
  refs : SameRefs h h1
  ne : ∀ x, x ≠ mp → h1.mb x = h.mb x
  dbuf : h1.dbuf mp = some d
  mData : (h1.mb mp).mData = (h0.mb mp).mData
  mLen : (h1.mb mp).mLen = (h0.mb mp).mLen
  iphdr : iphdr mem h1 mp = ip
  chainLen : h1.chainLen (mp :: l) = h0.chainLen (mp :: l)
  bytes : ∀ mem, h1.chainBytes mem (mp :: l) = h0.chainBytes mem (mp :: l)

theorem FragInv.flagged (hi : FragInv own limbo h0 mem0 ip (mp :: l) ss h mem packets)
    (hs0 : Sharing h0 own) (hown : ∀ b ∈ mp :: l, b ∈ own) (hip : iphdr mem0 h0 mp = ip)
    (hd : h0.dbuf mp = some d) :
    Flagged own h0 ip mp l mem d h (h.set mp { h.mb mp with pkthdr := true }) := by
  have hmp := hown mp List.mem_cons_self
  have hrefs : SameRefs h (h.set mp { h.mb mp with pkthdr := true }) :=
    sameRefs_pkthdr h mp true (h.mb mp).mLen (h.mb mp).mTlen
  have hdata := data_set h mp { h.mb mp with pkthdr := true } ⟨rfl, rfl⟩
  have hdh : h.dbuf mp = some d := by rw [dbuf_keeps (fun x hx => (hi.same x hx).keeps) hmp, hd]
  have hd1 := (dbuf_refs hrefs mp).trans hdh
  constructor
  case refs => exact hrefs
  case ne => exact fun x hx => set_mb_ne hx _
  case dbuf => exact hd1
  case mData => rw [(hdata mp).1, (hi.same mp (.inl hmp)).mData]
  case mLen => rw [(hdata mp).2, (hi.same mp (.inl hmp)).mLen]
  case iphdr =>
    rw [iphdr_eq hd1 rfl, (hdata mp).1, ← iphdr_eq hdh rfl, hi.header hs0 hmp, hip]
  case chainLen =>
    unfold Heap.chainLen
    refine congrArg List.sum (List.map_congr_left fun b hb => ?_)
    rw [(hdata b).2, (hi.same b (.inl (hown b hb))).mLen]
  case bytes =>
    intro mem
    rw [chainBytes_refs mem hrefs (fun b _ => hdata b), Same.chainBytes hi.same hown]

/-- The tail goes, never the first descriptor. -/
theorem kept_of_trimmed {count : Nat} (ht : Trimmed own' limbo h1 (mp :: l) count r) :
    ∃ kept, r.2.1 = mp :: kept ∧ mp :: kept ++ r.2.2 = mp :: l ∧ ∀ b ∈ r.2.2, b ∈ l := by
  have hsplit := ht.split
  cases hk : r.2.1 with
  | nil => exact absurd hk ht.ne_nil
  | cons b kept =>
    rw [hk] at hsplit
    cases hsplit
    exact ⟨kept, rfl, rfl, fun b hb => List.mem_append_right _ hb⟩

/-- The header of the first packet, from the one of the datagram. -/
theorem firstHdr_write (hd : h2.dbuf mp = some d) (hpos : (h2.mb mp).mData = pos)
    (hmlen : 20 ≤ (h2.mb mp).mLen) (hip : iphdr mem h2 mp = ip)
    (htlen : (h2.mb mp).mTlen.toNat = len + 20) (hl : ip.length = 20) (hlen : 20 + len < 65536)
    {mem1 mem2 mem3 : Bufs} {kept : List Block}
    (hmem1 : mem1 = setIphdr mem h2 mp (setBe16 (iphdr mem h2 mp) 2 (h2.mb mp).mTlen.toNat))
    (hmem2 : mem2 = setIphdr mem1 h2 mp
      (setBe16 (iphdr mem1 h2 mp) 6 (be16 (iphdr mem1 h2 mp) 6 ||| IP_MF)))
    (hmem3 : mem3 = sumIphdr mem2 h2 mp (mp :: kept)) :
    Only d pos 20 mem mem3 ∧
      (be16 ip 6 &&& (IP_MF ||| IP_OFFMASK) = 0 → FragHdr ip 20 len True (iphdr mem3 h2 mp)) := by
  rw [hip, htlen] at hmem1
  obtain ⟨hb1, honly1⟩ := @iphdr_setIphdr h2 mem d mp (setBe16 ip 2 (len + 20)) pos hd hpos (by simp [hl])
  rw [← hmem1] at hb1 honly1
  have hoff1 : be16 (iphdr mem1 h2 mp) 6 = be16 ip 6 := by
    rw [iphdr_eq hd hpos, hb1, be16_setBe16_of_ne (by omega)]
  have hw :=
    @fragHdr_write h2 mem1 d mp ip pos kept 20 len (be16 ip 6 ||| IP_MF) True hd hpos hmlen hb1 hl hlen
  rw [hoff1] at hmem2
  rw [← hmem2, ← hmem3] at hw
  obtain ⟨honly2, hhdr3⟩ := hw
  refine ⟨honly1.trans honly2, fun hflags => ?_⟩
  rw [iphdr_eq hd hpos]
  exact hhdr3 (or_mf (be16_lt ip 6) hflags)

/-- The other packets when the original chain is cut. -/
theorem FragInv.frags_first (hi : FragInv own limbo h0 mem0 ip (mp :: l) ss h mem packets)
    (hown : ∀ b ∈ mp :: l, b ∈ own) (hd : h0.dbuf mp = some d) (hf1 : Flagged own h0 ip mp l mem d h h1)
    {count : Nat} (ht : Trimmed (packets.flatten.toFinset ∪ own) limbo h1 (mp :: l) count r)
    (hfreed : ∀ b ∈ r.2.2, b ∈ l) (hrefs2 : SameRefs r.1 h2)
    (hne2 : ∀ x, x ≠ mp → h2.mb x = r.1.mb x) (honly : Only d pos 20 mem mem') :
    List.Forall₂ (Frag ip (fun mem => h0.chainBytes mem (mp :: l)) (h0.InUse own) h2 mem') ss packets := by
  obtain ⟨hlen, hf⟩ := List.forall₂_iff_zip.mp hi.frags
  refine List.forall₂_iff_zip.mpr ⟨hlen, fun {s p} hsp => ?_⟩
  have hpf : ∀ b ∈ p, b ∈ packets.flatten :=
    fun b hb => List.mem_flatten_of_mem (List.of_mem_zip hsp).2 hb
  have hnot : ∀ b ∈ packets.flatten, b ∉ mp :: l := fun b hb hc => hi.fresh b hb (.inl (hown b hc))
  have hpown : ∀ b ∈ packets.flatten, b ∈ (packets.flatten.toFinset ∪ own) \ r.2.2.toFinset := by
    intro b hb
    rw [Finset.mem_sdiff, Finset.mem_union, List.mem_toFinset, List.mem_toFinset]
    exact ⟨.inl hb, fun hc => hnot b hb (List.mem_cons_of_mem mp (hfreed b hc))⟩
  have huse : h.InUse packets.flatten.toFinset ⊆
      h1.InUse ((packets.flatten.toFinset ∪ own) \ r.2.2.toFinset) := by
    rw [inUse_frame fun x _ => hf1.refs.keeps x]
    exact inUse_mono fun b hb => hpown b (List.mem_toFinset.mp hb)
  have hpf' : ∀ b ∈ p, b ∈ packets.flatten.toFinset := fun b hb => List.mem_toFinset.mpr (hpf b hb)
  refine (hf hsp).frame hpf' ?_ ?_ ?_
  · intro x hx
    exact ((hf1.refs.keeps x).trans (ht.keeps x (huse hx)).1).trans (hrefs2.keeps x)
  · intro b hb
    have hbp := hpf b hb
    have hbne : b ≠ mp := fun heq => hnot b hbp (heq ▸ List.mem_cons_self)
    have hb1 := ht.same b (huse (.inl (List.mem_toFinset.mpr hbp))) (hnot b hbp)
    rw [hne2 b hbne, hb1.mData, hb1.mLen, hb1.mTlen, hf1.ne b hbne]
    exact ⟨rfl, rfl, rfl⟩
  · rintro e - he
    apply honly.ne
    rintro rfl
    exact he (dbuf_inUse (hown mp List.mem_cons_self) hd)

theorem FragInv.first (hi : FragInv own limbo h0 mem0 ip (mp :: l) ss h mem packets) (hs0 : Sharing h0 own)
    (hnd : (mp :: l).Nodup) (hown : ∀ b ∈ mp :: l, b ∈ own) (hhdr : 20 ≤ (h0.mb mp).mLen)
    (hip : iphdr mem0 h0 mp = ip) (hlt : 20 + len < be16 ip 2) (hin : be16 ip 2 ≤ h0.chainLen (mp :: l))
    (h1eq : h1 = h.set mp { h.mb mp with pkthdr := true })
    (hr : r = h1.mAdjFree (mp :: l) (20 + len - be16 (iphdr mem h1 mp) 2))
    (h2eq : h2 = r.1.set mp { r.1.mb mp with mTlen := BitVec.ofNat 20 (20 + len) })
    {mem1 mem2 mem3 : Bufs}
    (hmem1 : mem1 = setIphdr mem h2 mp (setBe16 (iphdr mem h2 mp) 2 (h2.mb mp).mTlen.toNat))
    (hmem2 : mem2 = setIphdr mem1 h2 mp
      (setBe16 (iphdr mem1 h2 mp) 6 (be16 (iphdr mem1 h2 mp) 6 ||| IP_MF)))
    (hmem3 : mem3 = sumIphdr mem2 h2 mp r.2.1) :
    ∃ d kept, r.2.1 = mp :: kept ∧ First own limbo h0 ip mp l ss packets len
      (h0.chainLen (mp :: l) - (be16 ip 2 - (20 + len))) mem d kept r.2.2 h2 mem3 := by
  obtain ⟨d, hd⟩ := exists_dbuf hs0 (hown mp List.mem_cons_self)
  have hipLen := be16_lt ip 2
  have hl : ip.length = 20 := by rw [← hip, iphdr_eq hd rfl, length_bufBytes]
  have hf1 := hi.flagged hs0 hown hip hd
  rw [← h1eq] at hf1
  -- the tail goes
  have hr1 : r = h1.mAdjFree (mp :: l) (-((be16 ip 2 - (20 + len) : Nat) : Int)) := by
    rw [hr, hf1.iphdr]
    congr 1
    omega
  have hown1 : ∀ b ∈ mp :: l, b ∈ packets.flatten.toFinset ∪ own :=
    fun b hb => Finset.mem_union_right _ (hown b hb)
  have htrim : Trimmed (packets.flatten.toFinset ∪ own) limbo h1 (mp :: l)
      (h0.chainLen (mp :: l) - (be16 ip 2 - (20 + len))) r := by
    rw [hr1, ← hf1.chainLen]
    exact trimmed_mAdjFree (hi.held.same hf1.refs) (List.cons_ne_nil mp l) hnd hown1 (by omega)
  obtain ⟨kept, hkept, hsplit, hfreed⟩ := kept_of_trimmed htrim
  have hmpuse : mp ∈ (packets.flatten.toFinset ∪ own) \ r.2.2.toFinset := by
    rw [Finset.mem_sdiff, List.mem_toFinset]
    exact ⟨hown1 mp List.mem_cons_self, fun hc => (List.nodup_cons.mp hnd).1 (hfreed mp hc)⟩
  -- the first descriptor
  have hrefs2 : SameRefs r.1 h2 := by
    rw [h2eq]
    exact sameRefs_set r.1 mp (r.1.mb mp).mLen (r.1.mb mp).mData _
  have hdata2 : ∀ x, (h2.mb x).mData = (r.1.mb x).mData ∧ (h2.mb x).mLen = (r.1.mb x).mLen := by
    rw [h2eq]
    exact data_set r.1 mp { r.1.mb mp with mTlen := BitVec.ofNat 20 (20 + len) } ⟨rfl, rfl⟩
  have hd2 : h2.dbuf mp = some d := by
    rw [dbuf_refs hrefs2, dbuf_keeps (fun x hx => (htrim.keeps x hx).1) hmpuse, hf1.dbuf]
  have hpos2 : (h2.mb mp).mData = (h0.mb mp).mData := by
    rw [(hdata2 mp).1, (htrim.keeps mp (.inl hmpuse)).2, hf1.mData]
  have hmlen2 : 20 ≤ (h2.mb mp).mLen := by
    rw [(hdata2 mp).2, htrim.head mp rfl, hf1.mLen]
    omega
  have hmtlen2 : (h2.mb mp).mTlen = BitVec.ofNat 20 (20 + len) := by rw [h2eq, set_mb_self]
  have hip2 : iphdr mem h2 mp = ip := by
    rw [iphdr_eq hd2 hpos2, ← hf1.mData, ← iphdr_eq hf1.dbuf rfl, hf1.iphdr]
  have htlen : (h2.mb mp).mTlen.toNat = len + 20 := by
    rw [hmtlen2, BitVec.toNat_ofNat]
    omega
  -- its header
  rw [hkept] at hmem3
  obtain ⟨honly, hhdr3⟩ := firstHdr_write hd2 hpos2 hmlen2 hip2 htlen hl (by omega) hmem1 hmem2 hmem3
  refine ⟨d, kept, hkept, ?_⟩
  constructor
  case split => exact hsplit
  case held => exact htrim.held.same hrefs2
  case origDbuf => exact hd
  case dbuf => exact hd2
  case mLen => exact hmlen2
  case mTlen => exact hmtlen2
  case hdr => exact hhdr3
  case data =>
    intro mem
    rw [chainBytes_refs mem hrefs2 (fun b _ => hdata2 b), ← hkept, htrim.bytes, hf1.bytes]
  case only => exact honly
  case frags =>
    exact hi.frags_first hown hd hf1 htrim hfreed hrefs2 (fun x hx => by rw [h2eq, set_mb_ne hx]) honly

end First

/-! ## The whole -/

/-- The ranges of the packets behind the first one. -/
def tailSlices (ip : List UInt8) (firstlen : Nat) : List (Nat × Nat) :=
  slices (be16 ip 2) firstlen (be16 ip 2) (20 + firstlen)

/-- The packets of the datagram. -/
structure Fragmented (own : Finset Block) (limbo : Set Block) (h0 : Heap) (mem0 : Bufs) (mp : Block)
    (l : List Block) (firstlen : Nat) (h : Heap) (mem : Bufs) (d : Block) (kept : List Block)
    (o : FragOut) : Prop where
  rc : o.rc = 0
  wild : o.wild = false
  packets : o.packets = (mp :: kept) :: o.made
  inv : FragInv own limbo h0 mem0 (iphdr mem0 h0 mp) (mp :: l) (tailSlices (iphdr mem0 h0 mp) firstlen)
    h mem o.made
  first : First own limbo h0 (iphdr mem0 h0 mp) mp l (tailSlices (iphdr mem0 h0 mp) firstlen)
    o.made firstlen
    (h0.chainLen (mp :: l) - (be16 (iphdr mem0 h0 mp) 2 - (20 + firstlen))) mem d kept o.freed o.heap o.mem

/-- What is left when there is not enough for the packets. -/
structure Gone (mp : Block) (l : List Block) (o : FragOut) : Prop where
  rc : o.wild = false → o.rc = ENOBUFS
  freed : o.wild = false → o.freed = (mp :: l) ++ o.made.flatten

/-- What `ip4_fragment` leaves. -/
theorem ip4Fragment_result {ifMtu : Int} (hh : Held h own limbo) (hnd : (mp :: l).Nodup)
    (hown : ∀ b ∈ mp :: l, b ∈ own) (hhdr : 20 ≤ (h.mb mp).mLen) (hmtu : 28 ≤ ifMtu)
    (hbig : ifMtu < be16 (iphdr mem h mp) 2) :
    (Enough h (mp :: l) (tailSlices (iphdr mem h mp) ((ifMtu - 20) / 8 * 8).toNat) ∧
        ∃ h' mem' d kept, Fragmented own limbo h mem mp l ((ifMtu - 20) / 8 * 8).toNat h' mem' d kept
          (ip4Fragment h mem mp l ifMtu)) ∨
      (¬ Enough h (mp :: l) (tailSlices (iphdr mem h mp) ((ifMtu - 20) / 8 * 8).toNat) ∧
        Gone mp l (ip4Fragment h mem mp l ifMtu)) := by
  have hmp := hown mp List.mem_cons_self
  unfold ip4Fragment
  dsimp only
  rw [if_neg (by omega)]
  obtain ⟨n, hn⟩ : ∃ n : Nat, (ifMtu - 20) / 8 * 8 = n := ⟨((ifMtu - 20) / 8 * 8).toNat, by omega⟩
  rw [hn, Int.toNat_natCast]
  generalize hip : iphdr mem h mp = ip at *
  have hloop :=
    @fragLoop_result h own limbo mem (mp :: l) mp ip hh.sharing hown hmp hip (be16 ip 2) (20 + n) n h
    mem [] [] (by omega) (by omega) (by omega) (by omega) (fragInv_start hh)
  rw [List.nil_append] at hloop
  unfold FragResult at hloop
  generalize fragLoop (mp :: l) mp (be16 ip 2) (20 + n) n h mem [] = r at hloop ⊢
  obtain ⟨h1, mem1, made, e⟩ := r
  cases e with
  | wild => exact .inr ⟨hloop, fun hc => (by cases hc), fun hc => (by cases hc)⟩
  | enobufs => exact .inr ⟨hloop, fun _ => rfl, fun _ => rfl⟩
  | ok =>
    have hi : FragInv own limbo h mem ip (mp :: l) (tailSlices ip n) h1 mem1 made := hloop
    have hin : be16 ip 2 ≤ h.chainLen (mp :: l) := by
      obtain ⟨s, hs, heq⟩ :=
        @slices_last (be16 ip 2) n (be16 ip 2) (20 + n) (by omega) (by omega) (by omega)
      have := hi.inside s hs
      omega
    have hlt : 20 + n < be16 ip 2 := by omega
    obtain ⟨d, kept, hkept, hfirst⟩ := hi.first hh.sharing hnd hown hhdr hip hlt hin rfl rfl rfl rfl rfl rfl
    refine .inl ⟨hi.enough, h1, mem1, d, kept, ?_⟩
    constructor
    case rc => rfl
    case wild => rfl
    case packets => exact congrArg (· :: made) hkept
    case inv =>
      rw [hip]
      exact hi
    case first =>
      rw [hip]
      exact hfirst

end TnNet.Ip
