import Mathlib.Algebra.BigOperators.Group.Finset.Basic
import Mathlib.Order.Interval.Finset.Nat
import TnNet.Lib.FreeList

/-!
# Blocks in an interval

`Packed` blocks have one size, lie in an interval on aligned addresses and do not overlap.

* `packed_segment` — blocks that follow each other.
* `Packed.room` — together they are not longer than the interval, so that no more fit than follow each
  other from its start.
-/

set_option autoImplicit false

namespace Packing

open FreeList (segment)

/-- `r` is `n` rounded up to a multiple of `align`. -/
structure RoundsTo (align n r : Nat) : Prop where
  multiple : r % align = 0
  le : n ≤ r
  lt : r < n + align

/-- Blocks of `size` bytes from `lo` to `hi`. -/
structure Packed (align size lo hi : Nat) (bs : List Nat) : Prop where
  aligned : ∀ b ∈ bs, b % align = 0
  inside : ∀ b ∈ bs, lo ≤ b ∧ b + size ≤ hi
  apart : bs.Pairwise fun b c => b + size ≤ c ∨ c + size ≤ b

variable {align size lo hi n : Nat} {bs : List Nat}

instance apart_symm (size : Nat) : Std.Symm fun b c : Nat => b + size ≤ c ∨ c + size ≤ b :=
  ⟨fun _ _ => Or.symm⟩

/-- **The room of the blocks.** -/
theorem Packed.room (h : Packed align size lo hi bs) (hs : 0 < size) : size * bs.length ≤ hi - lo := by
  have hnd : bs.Nodup := h.apart.imp fun hbc => by
    rintro rfl
    omega
  have hsep : (bs.toFinset : Set Nat).PairwiseDisjoint fun b => Finset.Ico b (b + size) := by
    intro b hb c hc hne
    have hbc := h.apart.forall (List.mem_toFinset.mp hb) (List.mem_toFinset.mp hc) hne
    refine Finset.disjoint_left.mpr fun x hx hx' => ?_
    rw [Finset.mem_Ico] at hx hx'
    omega
  have hsub : bs.toFinset.biUnion (fun b => Finset.Ico b (b + size)) ⊆ Finset.Ico lo hi := by
    intro x hx
    obtain ⟨b, hb, hx⟩ := Finset.mem_biUnion.mp hx
    have hin := h.inside b (List.mem_toFinset.mp hb)
    rw [Finset.mem_Ico] at hx ⊢
    omega
  have hcard := Finset.card_le_card hsub
  rw [Finset.card_biUnion hsep] at hcard
  simp only [Nat.card_Ico, Nat.add_sub_cancel_left, Finset.sum_const, List.toFinset_card_of_nodup hnd,
    Nat.nsmul_eq_mul] at hcard
  rw [Nat.mul_comm]
  exact hcard

/-- **Blocks that follow each other.** -/
theorem packed_segment (hlo : lo % align = 0) (hsize : size % align = 0) (hend : lo + size * n ≤ hi) :
    Packed align size lo hi (segment size lo n) := by
  constructor
  · intro b hb
    obtain ⟨j, -, rfl⟩ := List.mem_map.mp hb
    rw [Nat.add_mod, Nat.mul_mod, hlo, hsize, Nat.zero_mul, Nat.zero_mod, Nat.add_zero, Nat.zero_mod]
  · intro b hb
    obtain ⟨j, hj, rfl⟩ := List.mem_map.mp hb
    have hle := Nat.mul_le_mul_left size (List.mem_range.mp hj)
    rw [Nat.mul_succ] at hle
    omega
  · refine (List.pairwise_lt_range.map _ fun i j hij => ?_)
    have hle := Nat.mul_le_mul_left size (Nat.succ_le_of_lt hij)
    rw [Nat.mul_succ] at hle
    omega

end Packing
