import Mathlib.Data.List.Basic
import Mathlib.Data.BitVec

/-!
# Mbuf chains and `m_adj`

A chain is the list of its `struct mbuf` descriptors (`m_next` order).  Of a descriptor the
model keeps the `M_PKTHDR` bit, the 20-bit `m_tlen` and the `m_len` bytes at `m_data`; the
sharing of data buffers between descriptors is not part of this module.

`mAdj` transcribes `m_adj` of `tn_mbuf.c`: `mAdjHead` is the head loop, `mAdjLast` the tail
case that touches only the last mbuf, `mAdjKeep` the tail case that rescans the chain.

Principal results: `mAdj_bytes_head` and `mAdj_bytes_tail`: on the bytes of the chain,
`m_adj` is `drop` for a length `≥ 0` and `take` for a negative one.
-/

set_option autoImplicit false

namespace TnNet

/-- `struct mbuf`, the fields `m_adj` reads or writes. -/
structure Mbuf where
  mPkthdr : Bool := false
  mTlen : BitVec 20 := 0
  mData : List UInt8
  deriving DecidableEq, Repr

def Mbuf.mLen (m : Mbuf) : Nat := m.mData.length

/-- An mbuf chain in `m_next` order. -/
abbrev Chain := List Mbuf

/-- The bytes of a chain. -/
def chainBytes (ms : Chain) : List UInt8 := ms.flatMap (·.mData)

/-- The sum of the `m_len` values. -/
def chainLen (ms : Chain) : Nat := (chainBytes ms).length

@[simp] theorem chainBytes_nil : chainBytes [] = [] := rfl

@[simp] theorem chainBytes_cons (m : Mbuf) (ms : Chain) :
    chainBytes (m :: ms) = m.mData ++ chainBytes ms := by simp [chainBytes]

@[simp] theorem chainBytes_append (ms ns : Chain) :
    chainBytes (ms ++ ns) = chainBytes ms ++ chainBytes ns := by simp [chainBytes]

/-- `m_len = 0`. -/
def Mbuf.clear (m : Mbuf) : Mbuf := { m with mData := [] }

theorem chainBytes_clear (ms : Chain) : chainBytes (ms.map Mbuf.clear) = [] := by
  induction ms with
  | nil => rfl
  | cons m ms ih => simpa [Mbuf.clear] using ih

/-- An update of `m_tlen`, made only when the first mbuf has `M_PKTHDR`. -/
def adjTlen (f : BitVec 20 → BitVec 20) : Chain → Chain
  | [] => []
  | m :: ms => (if m.mPkthdr then { m with mTlen := f m.mTlen } else m) :: ms

@[simp] theorem chainBytes_adjTlen (f : BitVec 20 → BitVec 20) (ms : Chain) :
    chainBytes (adjTlen f ms) = chainBytes ms := by
  cases ms with
  | nil => rfl
  | cons m ms =>
    simp only [adjTlen]
    split <;> simp

/-- The head loop of `m_adj`: the trimmed chain and the length still to be trimmed. -/
def mAdjHead : Chain → Nat → Chain × Nat
  | [], len => ([], len)
  | m :: ms, len =>
    if len = 0 then (m :: ms, 0)
    else if m.mLen ≤ len then
      let r := mAdjHead ms (len - m.mLen)
      (m.clear :: r.1, r.2)
    else ({ m with mData := m.mData.drop len } :: ms, 0)

/-- The rescan of `m_adj`: keep the first `count` bytes. -/
def mAdjKeep : Chain → Nat → Chain
  | [], _ => []
  | m :: ms, count =>
    if count ≤ m.mLen then { m with mData := m.mData.take count } :: ms.map Mbuf.clear
    else m :: mAdjKeep ms (count - m.mLen)

/-- The chain with its last mbuf shortened by `len` bytes. -/
def mAdjLast : Chain → Nat → Chain
  | [], _ => []
  | [m], len => [{ m with mData := m.mData.take (m.mLen - len) }]
  | m :: m' :: ms, len => m :: mAdjLast (m' :: ms) len

/-- `m_len` of the last mbuf. -/
def lastLen (ms : Chain) : Nat := (ms.getLast?.map Mbuf.mLen).getD 0

/-- `m_adj`. -/
def mAdj (mp : Chain) (reqLen : Int) : Chain :=
  if 0 ≤ reqLen then
    let r := mAdjHead mp reqLen.toNat
    adjTlen (fun t => t - BitVec.ofNat 20 (reqLen.toNat - r.2)) r.1
  else
    let len := (-reqLen).toNat
    if len ≤ lastLen mp then adjTlen (fun t => t - BitVec.ofNat 20 len) (mAdjLast mp len)
    else
      let count := chainLen mp - len
      adjTlen (fun _ => BitVec.ofNat 20 count) (mAdjKeep mp count)

/-! ## `m_adj` on the bytes of the chain -/

theorem mAdjHead_bytes (ms : Chain) : ∀ len : Nat,
    chainBytes (mAdjHead ms len).1 = (chainBytes ms).drop len := by
  induction ms with
  | nil => intro len; simp [mAdjHead]
  | cons m ms ih =>
    intro len
    unfold mAdjHead
    split
    · rename_i h
      simp [h]
    · split
      · rename_i h
        simp only [Mbuf.mLen] at h ⊢
        simp only [chainBytes_cons, Mbuf.clear, List.nil_append, ih, List.drop_append,
          List.drop_eq_nil_of_le h]
      · rename_i h
        simp only [Mbuf.mLen, Nat.not_le] at h
        simp only [chainBytes_cons, List.drop_append, Nat.sub_eq_zero_of_le (Nat.le_of_lt h),
          List.drop_zero]

theorem mAdjKeep_bytes (ms : Chain) : ∀ count : Nat,
    chainBytes (mAdjKeep ms count) = (chainBytes ms).take count := by
  induction ms with
  | nil => intro count; simp [mAdjKeep]
  | cons m ms ih =>
    intro count
    unfold mAdjKeep
    split
    · rename_i h
      simp only [Mbuf.mLen] at h
      simp only [chainBytes_cons, chainBytes_clear, List.append_nil, List.take_append,
        Nat.sub_eq_zero_of_le h, List.take_zero]
    · rename_i h
      simp only [Mbuf.mLen, Nat.not_le] at h ⊢
      simp only [chainBytes_cons, ih, List.take_append, List.take_of_length_le (Nat.le_of_lt h)]

theorem mAdjLast_bytes (ms : Chain) (len : Nat) (h : len ≤ lastLen ms) :
    chainBytes (mAdjLast ms len) = (chainBytes ms).take (chainLen ms - len) := by
  induction ms with
  | nil => simp [mAdjLast]
  | cons m ms ih =>
    cases ms with
    | nil => simp [mAdjLast, chainLen, Mbuf.mLen]
    | cons m' ms =>
      have h' : len ≤ lastLen (m' :: ms) := by simpa [lastLen] using h
      have hl : lastLen (m' :: ms) ≤ chainLen (m' :: ms) := by
        clear ih h h'
        induction ms generalizing m' with
        | nil => simp [lastLen, chainLen, Mbuf.mLen]
        | cons m₂ ms ih =>
          have := ih m₂
          simp only [lastLen, chainLen, chainBytes_cons, List.length_append,
            List.getLast?_cons_cons] at this ⊢
          omega
      have e : chainLen (m :: m' :: ms) - len =
          m.mData.length + (chainLen (m' :: ms) - len) := by
        simp only [chainLen, chainBytes_cons, List.length_append] at hl ⊢
        omega
      rw [e, mAdjLast, chainBytes_cons m, chainBytes_cons m, ih h', List.take_append,
        Nat.add_sub_cancel_left, List.take_of_length_le (l := m.mData) (by omega)]

/-- **Trimming from the head drops bytes.** -/
theorem mAdj_bytes_head (ms : Chain) (n : Nat) :
    chainBytes (mAdj ms n) = (chainBytes ms).drop n := by
  simp only [mAdj, Int.natCast_nonneg, if_true, Int.toNat_natCast, chainBytes_adjTlen,
    mAdjHead_bytes]

/-- **Trimming from the tail keeps the first bytes.** -/
theorem mAdj_bytes_tail (ms : Chain) (n : Nat) (hn : 0 < n) :
    chainBytes (mAdj ms (-(n : Int))) = (chainBytes ms).take (chainLen ms - n) := by
  have h0 : ¬ (0 : Int) ≤ -(n : Int) := by omega
  simp only [mAdj, h0, if_false, Int.neg_neg, Int.toNat_natCast]
  split
  · rename_i h
    rw [chainBytes_adjTlen, mAdjLast_bytes ms n h]
  · rw [chainBytes_adjTlen, mAdjKeep_bytes]

end TnNet
