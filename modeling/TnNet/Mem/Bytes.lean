import TnNet.Lib.Bytes
import TnNet.Mem.AdjFree

/-!
# Writes into data buffers

What the bytes of a chain are behind a write into a data buffer, and behind changes of descriptors that
keep the references.

* `bufBytes_writeBuf`, `Only.bufBytes` — the bytes that are written, and the bytes elsewhere.
* `chainBytes_same`, `chainBytes_refs` — the bytes of a chain depend on its references and lengths.
-/

set_option autoImplicit false

namespace TnNet.Mem

/-- Write bytes into a data buffer. -/
def writeBuf (mem : Bufs) (dst : Option Block) (pos : Nat) (l : List UInt8) : Bufs :=
  match dst with
  | none => mem
  | some d => Function.update mem d fun i => if pos ≤ i then l.getD (i - pos) (mem d i) else mem d i

namespace Heap

/-! ## Writes into a data buffer -/

section Buf

variable {mem mem' mem'' : Bufs} {d e : Block} {pos p n i : Nat} {l : List UInt8} {dst : Option Block}

theorem bufBytes_writeBuf (mem : Bufs) (d : Block) (pos : Nat) (l : List UInt8) :
    Heap.bufBytes (writeBuf mem (some d) pos l) (some d) pos l.length = l := by
  apply List.ext_getElem
  · simp [Heap.bufBytes]
  · intro j h1 h2
    simp [Heap.bufBytes, writeBuf, h2]

/-- A write into the bytes that are read. -/
theorem bufBytes_splice (hi : i + l.length ≤ n) :
    Heap.bufBytes (writeBuf mem (some d) (pos + i) l) (some d) pos n =
      Bytes.splice (Heap.bufBytes mem (some d) pos n) i l := by
  apply List.ext_getElem
  · rw [Bytes.length_splice] <;> simp [Heap.bufBytes, hi]
  · intro j h1 h2
    have hmin : min i n = i := by omega
    simp only [Heap.bufBytes, List.length_map, List.length_range] at h1
    simp only [Heap.bufBytes, writeBuf, Function.update_self, List.getElem_map, List.getElem_range,
      Bytes.splice, List.getElem_append, List.length_append, List.length_take, List.length_map,
      List.length_range, hmin]
    rcases Nat.lt_or_ge j i with hj | hj
    · have hlt : j < i + l.length := by omega
      simp [hj, hlt]
    · rcases Nat.lt_or_ge j (i + l.length) with hj' | hj'
      · have hsub : pos + j - (pos + i) = j - i := by omega
        have hin : j - i < l.length := by omega
        simp [hj', hj, hsub, List.getD_eq_getElem?_getD, hin]
      · have hsub : l.length ≤ pos + j - (pos + i) := by omega
        have hnot : ¬ j < i + l.length := by omega
        have hpos : i + l.length + (j - (i + l.length)) = j := by omega
        simp [hnot, hj, List.getD_eq_getElem?_getD, List.getElem?_eq_none hsub, hpos]

/-- Only `n` bytes of one buffer are written. -/
def Only (d : Block) (pos n : Nat) (mem mem' : Bufs) : Prop :=
  ∀ e i, (e ≠ d ∨ i < pos ∨ pos + n ≤ i) → mem' e i = mem e i

theorem Only.trans (h1 : Only d pos n mem mem') (h2 : Only d pos n mem' mem'') : Only d pos n mem mem'' :=
  fun e i h => (h2 e i h).trans (h1 e i h)

theorem only_writeBuf (mem : Bufs) (d : Block) (pos : Nat) (hl : l.length = n) :
    Only d pos n mem (writeBuf mem (some d) pos l) := by
  rintro e i h
  unfold writeBuf
  dsimp only
  rcases eq_or_ne e d with rfl | he
  · rw [Function.update_self]
    split
    · rename_i hpos
      have hge : l.length ≤ i - pos := by
        rcases h with h | h | h
        · exact absurd rfl h
        · omega
        · omega
      rw [List.getD_eq_getElem?_getD, List.getElem?_eq_none hge]
      rfl
    · rfl
  · rw [Function.update_of_ne he]

theorem Only.ne (h : Only d pos n mem mem') (he : e ≠ d) : mem' e = mem e := by
  funext i
  exact h e i (.inl he)

/-- Bytes elsewhere. -/
theorem Only.bufBytes {k : Nat} (h : Only d pos n mem mem')
    (hd : dst ≠ some d ∨ p + k ≤ pos ∨ pos + n ≤ p) :
    Heap.bufBytes mem' dst p k = Heap.bufBytes mem dst p k := by
  cases dst with
  | none => rfl
  | some e =>
    unfold Heap.bufBytes
    apply List.map_congr_left
    intro i hi
    rw [List.mem_range] at hi
    apply h
    rcases hd with hd | hd | hd
    · exact .inl fun heq => hd (congrArg some heq)
    · exact .inr (.inl (by omega))
    · exact .inr (.inr (by omega))

end Buf

/-! ## Buffers in use -/

section Use

variable {h h' : Heap} {own : Finset Block} {limbo : Set Block} {mem mem' : Bufs} {m0 : List Block}
  {b d : Block}

theorem dbuf_inUse (hb : b ∈ own) (hd : h.dbuf b = some d) : d ∈ h.InUse own := by
  unfold Heap.dbuf at hd
  obtain ⟨p, hp, hpd⟩ := Option.bind_eq_some_iff.mp hd
  exact .inr (.inr ⟨p, isRoot_of_pri hb hp, hpd⟩)

theorem exists_dbuf (hs : Sharing h own) (hb : b ∈ own) : ∃ d, h.dbuf b = some d := by
  obtain ⟨-, p, hp⟩ := hs.hdr b hb
  obtain ⟨d, hd⟩ := hs.root p (isRoot_of_pri hb hp)
  refine ⟨d, ?_⟩
  unfold Heap.dbuf
  rw [hp, Option.bind_some, hd.dbuf]

/-- The references are kept, and a descriptor designates the same bytes. -/
theorem bytes_same (mem : Bufs) (hk : ∀ y ∈ h.InUse own, Keeps h h' y) (hb : b ∈ own)
    (hd : (h'.mb b).mData = (h.mb b).mData) (hl : (h'.mb b).mLen = (h.mb b).mLen) :
    h'.bytes mem b = h.bytes mem b := by
  unfold Heap.bytes
  rw [dbuf_keeps hk hb, hd, hl]

theorem chainBytes_same (mem : Bufs) (hk : ∀ y ∈ h.InUse own, Keeps h h' y) (hown : ∀ b ∈ m0, b ∈ own)
    (hb : ∀ b ∈ m0, (h'.mb b).mData = (h.mb b).mData ∧ (h'.mb b).mLen = (h.mb b).mLen) :
    h'.chainBytes mem m0 = h.chainBytes mem m0 := by
  unfold Heap.chainBytes
  exact List.flatMap_congr fun b hm => bytes_same mem hk (hown b hm) (hb b hm).1 (hb b hm).2

theorem dbuf_refs (hr : SameRefs h h') (b : Block) : h'.dbuf b = h.dbuf b := by
  unfold Heap.dbuf
  rw [(hr.keeps b).pri]
  cases h.pri b with
  | none => rfl
  | some p => exact (hr.keeps p).mDbuf

theorem chainBytes_refs (mem : Bufs) (hr : SameRefs h h')
    (hb : ∀ b ∈ m0, (h'.mb b).mData = (h.mb b).mData ∧ (h'.mb b).mLen = (h.mb b).mLen) :
    h'.chainBytes mem m0 = h.chainBytes mem m0 := by
  unfold Heap.chainBytes
  refine List.flatMap_congr fun b hm => ?_
  unfold Heap.bytes
  rw [dbuf_refs hr, (hb b hm).1, (hb b hm).2]

theorem bufBytes_congr (hd : mem' d = mem d) (pos n : Nat) :
    bufBytes mem' (some d) pos n = bufBytes mem (some d) pos n := by
  unfold bufBytes
  dsimp only
  rw [hd]

end Use

end Heap

end TnNet.Mem
