import TnNet.Ip.Fragment

/-!
# The packets of a datagram

`ip4Fragment_partitions`: the payloads of the packets make up the payload of the datagram, and the header
of each packet says where in it the packet belongs.  The datagram has no options and is no fragment.
-/

set_option autoImplicit false

namespace TnNet.Ip

open Bytes InetSum TnNet.Mem TnNet.Mem.Heap

variable {h h' h0 : Heap} {own : Finset Block} {limbo : Set Block} {mem mem' mem0 : Bufs}
  {l p : List Block} {d m mp : Block} {ip : List UInt8} {s : Nat × Nat} {n off len : Nat} {o : FragOut}
  {ss : List (Nat × Nat)} {packets : List (List Block)}

/-- A datagram without options that is no fragment, in a chain its owner holds. -/
structure Datagram (own : Finset Block) (limbo : Set Block) (h : Heap) (mem : Bufs) (mp : Block)
    (l : List Block) : Prop where
  held : Held h own limbo
  nodup : (mp :: l).Nodup
  owned : ∀ b ∈ mp :: l, b ∈ own
  hdr : 20 ≤ (h.mb mp).mLen
  ipHl : ((iphdr mem h mp).getD 0 0).toNat % 16 = 5
  whole : be16 (iphdr mem h mp) 6 &&& (IP_MF ||| IP_OFFMASK) = 0
  length : h.chainLen (mp :: l) = be16 (iphdr mem h mp) 2
  /-- The bytes of the header are not data of the other descriptors as well. -/
  apart : ∀ b ∈ l, h.dbuf b = h.dbuf mp →
    (h.mb b).mData + (h.mb b).mLen ≤ (h.mb mp).mData ∨ (h.mb mp).mData + 20 ≤ (h.mb b).mData

/-- The payload of a packet. -/
def payload (h : Heap) (mem : Bufs) (p : List Block) : List UInt8 := (h.chainBytes mem p).drop 20

/-- A packet of the datagram with the header `ip`, whose payload begins at `off`. -/
structure IsPacket (ip : List UInt8) (ifMtu : Int) (h : Heap) (mem : Bufs) (off : Nat) (last : Prop)
    (p : List Block) : Prop where
  dvd : 8 ∣ off
  ipOff : (be16 (h.chainBytes mem p) 6 &&& IP_OFFMASK) * 8 = off
  more : be16 (h.chainBytes mem p) 6 &&& IP_MF ≠ 0 ↔ ¬ last
  size : ¬ last → 0 < (payload h mem p).length ∧ 8 ∣ (payload h mem p).length
  ipLen : be16 (h.chainBytes mem p) 2 = h.chainLen p
  mTlen : ∃ m copies, p = m :: copies ∧ (h.mb m).mTlen.toNat = h.chainLen p
  mtu : (h.chainLen p : Int) ≤ ifMtu
  other : ∀ j < 20, j ∉ [2, 3, 6, 7, 10, 11] → (h.chainBytes mem p).getD j 0 = ip.getD j 0
  sum : inCksumMb mem h p 20 = 0

/-- The packets make up the datagram. -/
structure Partition (h : Heap) (mem : Bufs) (mp : Block) (l : List Block) (ifMtu : Int)
    (o : FragOut) : Prop where
  payload : (o.packets.map (payload o.heap o.mem)).flatten = payload h mem (mp :: l)
  packet : ∀ k p, o.packets[k]? = some p →
    IsPacket (iphdr mem h mp) ifMtu o.heap o.mem
    (((o.packets.take k).map (Ip.payload o.heap o.mem)).flatten.length)
      (k + 1 = o.packets.length) p

/-! ## One packet -/

/-- A packet with the range `s` of the datagram. -/
structure Piece (ip : List UInt8) (orig : List UInt8) (h : Heap) (mem : Bufs) (s : Nat × Nat)
    (p : List Block) : Prop where
  mTlen : ∃ m copies, p = m :: copies ∧ (h.mb m).mTlen = BitVec.ofNat 20 (20 + s.2)
  hdr : FragHdr ip s.1 s.2 (s.1 + s.2 < be16 ip 2) ((h.chainBytes mem p).take 20)
  data : payload h mem p = (orig.drop s.1).take s.2
  length : (h.chainBytes mem p).length = h.chainLen p

theorem iphdr_bytes (mem : Bufs) (hd : h.dbuf m = some d) (hl : 20 ≤ (h.mb m).mLen) (p : List Block) :
    (h.chainBytes mem (m :: p)).take 20 = iphdr mem h m := by
  have h1 := bufBytes_drop_take mem (some d) (h.mb m).mData (h.mb m).mLen 0 20
  rw [List.drop_zero, Nat.add_zero, Nat.sub_zero, Nat.min_eq_left hl] at h1
  rw [Heap.chainBytes_cons, List.take_append_of_le_length]
  · unfold Heap.bytes
    rw [iphdr_eq hd rfl, hd, h1]
  · unfold Heap.bytes
    rw [hd, length_bufBytes]
    exact hl

theorem getD_take {l : List UInt8} {j k : Nat} (hj : j < k) : (l.take k).getD j 0 = l.getD j 0 := by
  rw [List.getD_eq_getElem?_getD, List.getD_eq_getElem?_getD, List.getElem?_take_of_lt hj]

theorem be16_take {l : List UInt8} {j k : Nat} (hj : j + 1 < k) : be16 (l.take k) j = be16 l j := by
  unfold be16
  rw [getD_take (by omega), getD_take hj]

/-- The checksum of a packet verifies. -/
theorem Piece.sum {orig : List UInt8} (hp : Piece ip orig h mem s p) (hhl : (ip.getD 0 0).toNat % 16 = 5) :
    inCksumMb mem h p 20 = 0 := by
  have hchain : (p.map fun b => (decide ((h.mb b).mData % 2 = 1), h.bytes mem b)).flatMap Prod.snd =
      h.chainBytes mem p := by
    unfold Heap.chainBytes
    rw [List.flatMap_map]
  have hsum := hp.hdr.sum
  have h0 := hp.hdr.other 0 (by decide)
  have hlen := hp.hdr.length
  unfold inCksumMb
  refine inCksum_eq_zero _ (by omega) (by rw [hchain]; exact hsum) ?_
  rw [hchain]
  generalize (h.chainBytes mem p).take 20 = hdr at h0 hlen
  cases hdr with
  | nil => simp at hlen
  | cons c hdr =>
    refine val_ne_zero ?_
    have hc : (c :: hdr).getD 0 0 = c := rfl
    rw [hc] at h0
    rw [h0]
    omega

theorem Piece.isPacket {orig : List UInt8} {ifMtu : Int} {last : Prop} (hp : Piece ip orig h mem s p)
    (hhl : (ip.getD 0 0).toNat % 16 = 5) (horig : orig.length = be16 ip 2) (h20 : 20 ≤ s.1)
    (h8 : 8 ∣ s.1 - 20) (hin : s.1 + s.2 ≤ be16 ip 2) (hmtu : (20 + s.2 : Nat) ≤ ifMtu)
    (hmore : s.1 + s.2 < be16 ip 2 ↔ ¬ last) (hsize : ¬ last → 0 < s.2 ∧ 8 ∣ s.2) :
    IsPacket ip ifMtu h mem (s.1 - 20) last p := by
  have hlt := be16_lt ip 2
  have hplen : (payload h mem p).length = s.2 := by
    rw [hp.data, List.length_take, List.length_drop, horig]
    omega
  have hclen : h.chainLen p = 20 + s.2 := by
    have h1 := hp.hdr.length
    have h2 := hplen
    unfold payload at h2
    rw [List.length_take] at h1
    rw [List.length_drop] at h2
    rw [← hp.length]
    omega
  constructor
  case dvd => exact h8
  case ipOff =>
    have h1 := hp.hdr.off
    rwa [be16_take (by omega)] at h1
  case more =>
    have hmf := hp.hdr.mf
    rw [be16_take (by omega)] at hmf
    exact hmf.trans hmore
  case size =>
    rw [hplen]
    exact hsize
  case ipLen =>
    have h1 := hp.hdr.ipLen
    rw [be16_take (by omega)] at h1
    rw [h1, hclen]
  case mTlen =>
    obtain ⟨m, copies, heq, ht⟩ := hp.mTlen
    refine ⟨m, copies, heq, ?_⟩
    rw [ht, BitVec.toNat_ofNat, hclen]
    omega
  case mtu =>
    rw [hclen]
    exact hmtu
  case other =>
    intro j hj hnot
    rw [← hp.hdr.other j hnot, getD_take hj]
  case sum => exact hp.sum hhl

/-- A packet behind the first one. -/
theorem Frag.piece {used : Set Block} {orig : Bufs → List UInt8} (hf : Frag ip orig used h mem s p)
    (hflags : be16 ip 6 &&& (IP_MF ||| IP_OFFMASK) = 0)
    (hlen : (h.chainBytes mem p).length = h.chainLen p) : Piece ip (orig mem) h mem s p := by
  obtain ⟨m, d, copies, rfl, hf⟩ := hf
  constructor
  case mTlen => exact ⟨m, copies, rfl, hf.mTlen⟩
  case hdr =>
    have h1 := hf.hdr hflags
    rwa [iphdr_bytes mem hf.dbuf hf.mLen.ge, iphdr_eq hf.dbuf hf.mData]
  case data =>
    have h1 : (h.bytes mem m).length = 20 := by
      unfold Heap.bytes
      rw [hf.dbuf, length_bufBytes, hf.mLen]
    unfold payload
    rw [Heap.chainBytes_cons, ← h1, List.drop_left, hf.data]
  case length => exact hlen

/-- The first packet. -/
theorem First.piece {mem1 : Bufs} {kept freed : List Block} {made : List (List Block)}
    (hf : First own limbo h0 ip mp l ss made n (20 + n) mem1 d kept freed h mem)
    (hflags : be16 ip 6 &&& (IP_MF ||| IP_OFFMASK) = 0)
    (hlen : (h.chainBytes mem (mp :: kept)).length = h.chainLen (mp :: kept)) (hmore : 20 + n < be16 ip 2) :
    Piece ip (h0.chainBytes mem (mp :: l)) h mem (20, n) (mp :: kept) := by
  constructor
  case mTlen => exact ⟨mp, kept, rfl, hf.mTlen⟩
  case hdr =>
    rw [iphdr_bytes mem hf.dbuf hf.mLen]
    have h1 := hf.hdr hflags
    exact ⟨h1.length, h1.ipLen, h1.off, h1.mf.trans ⟨fun _ => hmore, fun _ => trivial⟩,
      h1.other, h1.sum⟩
  case data =>
    unfold payload
    rw [hf.data, List.drop_take]
    congr 1
    omega
  case length => exact hlen

/-! ## The payload of the datagram -/

/-- Only the header is written. -/
theorem Datagram.payload_only (hd : Datagram own limbo h0 mem0 mp l) (hbuf : h0.dbuf mp = some d)
    (hbufs : ∀ x ∈ h0.InUse own, mem x = mem0 x) (honly : Only d (h0.mb mp).mData 20 mem mem') :
    payload h0 mem' (mp :: l) = payload h0 mem0 (mp :: l) := by
  have hdown := dbuf_inUse (hd.owned mp List.mem_cons_self) hbuf
  have hother : ∀ b ∈ l, h0.bytes mem' b = h0.bytes mem0 b := by
    intro b hb
    have hbown := hd.owned b (List.mem_cons_of_mem mp hb)
    obtain ⟨e, he⟩ := exists_dbuf hd.held.sharing hbown
    have hap := hd.apart b hb
    unfold Heap.bytes
    rw [he, honly.bufBytes, bufBytes_congr (hbufs e (dbuf_inUse hbown he))]
    rcases eq_or_ne e d with rfl | hed
    · exact .inr (hap (by rw [he, hbuf]))
    · exact .inl fun hc => hed (Option.some_inj.mp hc)
  have hfirst : (h0.bytes mem' mp).drop 20 = (h0.bytes mem0 mp).drop 20 := by
    have hdrop : ∀ mem, (h0.bytes mem mp).drop 20 =
        bufBytes mem (some d) ((h0.mb mp).mData + 20) ((h0.mb mp).mLen - 20) := by
      intro mem
      have h1 := bufBytes_drop_take mem (some d) (h0.mb mp).mData (h0.mb mp).mLen 20 (h0.mb mp).mLen
      rw [List.take_of_length_le, Nat.min_eq_right (by omega)] at h1
      · unfold Heap.bytes
        rw [hbuf, h1]
      · rw [List.length_drop, length_bufBytes]
        omega
    rw [hdrop, hdrop, honly.bufBytes (.inr (.inr (le_refl _))), bufBytes_congr (hbufs d hdown)]
  have hlen : ∀ mem, 20 ≤ (h0.bytes mem mp).length := by
    intro mem
    unfold Heap.bytes
    rw [hbuf, length_bufBytes]
    exact hd.hdr
  unfold payload
  rw [Heap.chainBytes_cons, Heap.chainBytes_cons, List.drop_append_of_le_length (hlen mem'),
    List.drop_append_of_le_length (hlen mem0), hfirst]
  unfold Heap.chainBytes
  rw [List.flatMap_congr hother]

/-! ## All packets -/

section All

variable {orig : List UInt8}

theorem pieces_payload (hps : List.Forall₂ (Piece ip orig h mem) ss packets) :
    packets.map (payload h mem) = ss.map fun s => (orig.drop s.1).take s.2 := by
  induction hps with
  | nil => rfl
  | cons hp _ ih => rw [List.map_cons, List.map_cons, ih, hp.data]

theorem pieces_length (hps : List.Forall₂ (Piece ip orig h mem) ss packets)
    (hin : ∀ s ∈ ss, s.1 + s.2 ≤ orig.length) (k : Nat) :
    ((packets.take k).map (payload h mem)).flatten.length = ((ss.take k).map Prod.snd).sum := by
  rw [List.map_take, pieces_payload hps, ← List.map_take, List.length_flatten, List.map_map]
  refine congrArg List.sum (List.map_congr_left fun s hs => ?_)
  have := hin s (List.mem_of_mem_take hs)
  show (List.take s.2 (List.drop s.1 orig)).length = s.2
  rw [List.length_take, List.length_drop]
  omega

end All

/-- **`ip4_fragment` partitions the datagram.** -/
theorem ip4Fragment_partitions (h : Heap) (own : Finset Block) (limbo : Set Block) (mem : Bufs) (mp : Block)
    (l : List Block) (ifMtu : Int) (hd : Datagram own limbo h mem mp l) (hmtu : 28 ≤ ifMtu)
    (hbig : ifMtu < be16 (iphdr mem h mp) 2) (hrc : (ip4Fragment h mem mp l ifMtu).rc = 0)
    (hwild : (ip4Fragment h mem mp l ifMtu).wild = false) :
    Partition h mem mp l ifMtu (ip4Fragment h mem mp l ifMtu) := by
  rcases ip4Fragment_result hd.held hd.nodup hd.owned hd.hdr hmtu hbig with
    ⟨-, h', mem', d, kept, hf⟩ | ⟨-, hgone⟩
  swap
  · rw [hgone.rc hwild] at hrc
    cases hrc
  generalize ip4Fragment h mem mp l ifMtu = o at *
  obtain ⟨n, hn⟩ : ∃ n : Nat, (ifMtu - 20) / 8 * 8 = n := ⟨((ifMtu - 20) / 8 * 8).toNat, by omega⟩
  rw [hn, Int.toNat_natCast] at hf
  obtain ⟨-, -, hpackets, hinv, hfirst⟩ := hf
  generalize hip : iphdr mem h mp = ip at *
  have hflags := hd.whole
  have hhl := hd.ipHl
  have hchain := hd.length
  rw [hip] at hflags hhl hchain
  have hcount : h.chainLen (mp :: l) - (be16 ip 2 - (20 + n)) = 20 + n := by omega
  rw [hcount] at hfirst
  -- the ranges are those from the header on
  have hslices : (20, n) :: tailSlices ip n = slices (be16 ip 2) n (be16 ip 2 + 1) 20 := by
    rw [slices, if_pos (by omega), Nat.min_eq_left (by omega)]
    rfl
  have hown : ∀ b ∈ o.packets.flatten, b ∈ (o.made.flatten.toFinset ∪ own) \ o.freed.toFinset := by
    intro b hb
    rw [hpackets, List.flatten_cons, List.mem_append] at hb
    have hdis := List.nodup_append.mp (by rw [hfirst.split]; exact hd.nodup)
    rw [Finset.mem_sdiff, Finset.mem_union, List.mem_toFinset, List.mem_toFinset]
    rcases hb with hb | hb
    · refine ⟨.inr (hd.owned b ?_), fun hc => hdis.2.2 b hb b hc rfl⟩
      rw [← hfirst.split]
      exact List.mem_append_left _ hb
    · refine ⟨.inl hb, fun hc => hinv.fresh b hb (.inl (hd.owned b ?_))⟩
      rw [← hfirst.split]
      exact List.mem_append_right _ hc
  have hlen : ∀ p ∈ o.packets, (o.heap.chainBytes o.mem p).length = o.heap.chainLen p :=
    fun p hp => length_chainBytes o.mem hfirst.held.sharing fun b hb =>
      hown b (List.mem_flatten_of_mem hp hb)
  have hpieces : List.Forall₂ (Piece ip (h.chainBytes o.mem (mp :: l)) o.heap o.mem)
      (slices (be16 ip 2) n (be16 ip 2 + 1) 20) o.packets := by
    rw [← hslices]
    have hlen1 := hlen (mp :: kept) (by rw [hpackets]; exact List.mem_cons_self)
    have hlen2 : ∀ p ∈ o.made, (o.heap.chainBytes o.mem p).length = o.heap.chainLen p :=
      fun p hp => hlen p (by rw [hpackets]; exact List.mem_cons_of_mem _ hp)
    rw [hpackets]
    refine .cons (hfirst.piece hflags hlen1 (by omega)) ?_
    obtain ⟨hl, hall⟩ := List.forall₂_iff_zip.mp hfirst.frags
    refine List.forall₂_iff_zip.mpr
      ⟨hl, fun {s p} hsp => (hall hsp).piece hflags (hlen2 p (List.of_mem_zip hsp).2)⟩
  have horig : (h.chainBytes o.mem (mp :: l)).length = be16 ip 2 := by
    rw [length_chainBytes o.mem hd.held.sharing hd.owned, hchain]
  have hspec := @slices_spec (be16 ip 2) n (be16 ip 2 + 1) 20 (by omega) (by omega) (le_refl _) (by omega)
  constructor
  case payload =>
    rw [pieces_payload hpieces, slices_flatten (by omega) (by omega) _ horig]
    exact hd.payload_only hfirst.origDbuf hinv.bufs hfirst.only
  case packet =>
    intro k p hk
    have hlk := hpieces.length_eq
    obtain ⟨s, hs⟩ : ∃ s, (slices (be16 ip 2) n (be16 ip 2 + 1) 20)[k]? = some s := by
      have hlt := (List.getElem?_eq_some_iff.mp hk).1
      exact ⟨_, List.getElem?_eq_getElem (by omega)⟩
    have hp : Piece ip (h.chainBytes o.mem (mp :: l)) o.heap o.mem s p := by
      obtain ⟨hk1, rfl⟩ := List.getElem?_eq_some_iff.mp hk
      obtain ⟨hs1, rfl⟩ := List.getElem?_eq_some_iff.mp hs
      exact hpieces.get hs1 hk1
    obtain ⟨h1, h2, h3, h4, h5, h6⟩ := hspec s (List.mem_of_getElem? hs)
    obtain ⟨hoff, hlast⟩ := slices_index (by omega) (by omega) k hs
    have hsum := pieces_length hpieces (fun s hs => by rw [horig]; exact (hspec s hs).2.2.2.2.1) k
    rw [hsum, hip]
    have hoff' : ((slices (be16 ip 2) n (be16 ip 2 + 1) 20).take k |>.map Prod.snd).sum = s.1 - 20 := by
      omega
    rw [hoff']
    have hle : ((20 + s.2 : Nat) : Int) ≤ ifMtu := by omega
    rw [hlk] at hlast
    refine hp.isPacket hhl horig h1 h2 h5 hle hlast fun hnl => ?_
    rw [h6 (hlast.mpr hnl)]
    omega

/-- A descriptor with a datagram of 36 bytes. -/
def small : Owners := [.get .MB_MID1 true, .fill ⟨.lobuf, 0⟩ 36 0 36].foldl Owners.step Owners.start

def smallBufs : Bufs := fun _ i =>
  [0x45, 0, 0, 36, 0, 1, 0, 0, 64, 17, 0, 0, 10, 0, 0, 1, 10, 0, 0, 2, 1, 2, 3, 4, 5, 6, 7, 8].getD i 9

theorem datagram_small : Datagram small.own ∅ small.heap smallBufs ⟨.lobuf, 0⟩ [] := by
  constructor
  case held => exact held_run _ (by decide)
  case nodup => exact List.nodup_singleton _
  case apart => exact fun b hb => absurd hb (List.not_mem_nil)
  all_goals decide +kernel

theorem partition_small :
    Partition small.heap smallBufs ⟨.lobuf, 0⟩ [] 28
    (ip4Fragment small.heap smallBufs ⟨.lobuf, 0⟩ [] 28) :=
  ip4Fragment_partitions small.heap small.own ∅ smallBufs ⟨.lobuf, 0⟩ [] 28 datagram_small (by decide)
    (by decide +kernel) (by decide +kernel) (by decide +kernel)

end TnNet.Ip
