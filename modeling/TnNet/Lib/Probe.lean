import Mathlib.Data.List.Nodup
import Mathlib.Data.List.Perm.Subperm
import Mathlib.Data.Nat.Find
import Mathlib.Logic.Function.Iterate

/-!
# The search for a free value

A counter steps through values until it comes to one that is not busy.  `search_eq_some_iff` says which
value that is, and `exists_free` that there is one among `n` different ones when fewer than `n` are
busy.
-/

set_option autoImplicit false

namespace Probe

variable {α : Type} {next : α → α} {busy : α → Bool} {a b : α} {fuel fuel' n : Nat}

/-- The first value behind `a` that is not busy. -/
def search (next : α → α) (busy : α → Bool) : Nat → α → Option α
  | 0, _ => none
  | fuel + 1, a => if busy (next a) then search next busy fuel (next a) else some (next a)

/-- The values in front of the result are busy. -/
theorem search_eq_some_iff : search next busy fuel a = some b ↔
    ∃ k < fuel, b = next^[k + 1] a ∧ busy b = false ∧ ∀ j < k, busy (next^[j + 1] a) = true := by
  induction fuel generalizing a with
  | zero => simp [search]
  | succ fuel ih =>
    unfold search
    by_cases hb : busy (next a) = true
    · rw [if_pos hb, ih]
      constructor
      · rintro ⟨k, hk, rfl, hfree, hbusy⟩
        refine ⟨k + 1, by omega, rfl, hfree, fun j hj => ?_⟩
        cases j with
        | zero => exact hb
        | succ j => exact hbusy j (by omega)
      · rintro ⟨k, hk, rfl, hfree, hbusy⟩
        cases k with
        | zero =>
          simp only [Nat.zero_add, Function.iterate_one] at hfree
          rw [hb] at hfree
          cases hfree
        | succ k => exact ⟨k, by omega, rfl, hfree, fun j hj => hbusy (j + 1) (by omega)⟩
    · rw [if_neg hb]
      have hfree : busy (next a) = false := by simpa using hb
      constructor
      · intro h
        cases h
        exact ⟨0, by omega, rfl, hfree, fun j hj => absurd hj (by omega)⟩
      · rintro ⟨k, hk, rfl, -, hbusy⟩
        cases k with
        | zero => rfl
        | succ k => exact absurd (hbusy 0 (by omega)) hb

/-- More turns do not change the result. -/
theorem search_le (h : search next busy fuel a = some b) (hle : fuel ≤ fuel') :
    search next busy fuel' a = some b := by
  obtain ⟨k, hk, hrest⟩ := search_eq_some_iff.mp h
  exact search_eq_some_iff.mpr ⟨k, by omega, hrest⟩

/-- There are more values than busy ones. -/
theorem exists_free {used : List α} (hused : ∀ a, busy a = true → a ∈ used) (hlen : used.length < n)
    (hinj : ∀ i < n, ∀ j < n, next^[i + 1] a = next^[j + 1] a → i = j) :
    ∃ k < n, busy (next^[k + 1] a) = false := by
  by_contra hno
  have hall : ∀ k < n, busy (next^[k + 1] a) = true := by
    intro k hk
    by_contra hb
    exact hno ⟨k, hk, by simpa using hb⟩
  let vals := (List.range n).map fun k => next^[k + 1] a
  have hnd : vals.Nodup := by
    refine List.Nodup.map_on ?_ List.nodup_range
    intro i hi j hj
    exact hinj i (List.mem_range.mp hi) j (List.mem_range.mp hj)
  have hsub : vals ⊆ used := by
    intro b hb
    obtain ⟨k, hk, rfl⟩ := List.mem_map.mp hb
    exact hused _ (hall k (List.mem_range.mp hk))
  have hle := (hnd.subperm hsub).length_le
  simp only [vals, List.length_map, List.length_range] at hle
  omega

/-- Enough turns reach a value that is not busy. -/
theorem search_of_free {k : Nat} (hk : busy (next^[k + 1] a) = false) (hle : k < fuel) :
    ∃ b, search next busy fuel a = some b := by
  have hex : ∃ k, busy (next^[k + 1] a) = false := ⟨k, hk⟩
  classical
  refine ⟨next^[Nat.find hex + 1] a,
    search_eq_some_iff.mpr ⟨Nat.find hex, ?_, rfl, Nat.find_spec hex, ?_⟩⟩
  · have := Nat.find_min' hex hk
    omega
  · intro j hj
    simpa using Nat.find_min hex hj

end Probe
