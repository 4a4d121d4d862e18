import Mathlib.Data.List.Basic
import Mathlib.Data.List.Perm.Basic

/-!
# Tables of slots

A table is a list of cells; a cell that holds the value `e` is empty, and `entries` are the values of
the others.  Only the first `n` cells are in use.

* `takeFirst` — clear the first cell that is not empty; `takeFirst_spec`.
* `scan` — the search of an insertion: it gives up at a cell that has the value already, and otherwise
  finds the first empty cell; `scan_none`, `scan_some`.
* `entries_set` — to write to an empty cell is to add an entry.
-/

set_option autoImplicit false

namespace Slots

variable {α : Type} [DecidableEq α] {e x : α} {l : List α} {n : Nat}

/-- The values in the table. -/
def entries (e : α) (l : List α) : List α := l.filter fun c => decide (c ≠ e)

@[simp] theorem entries_nil (e : α) : entries e [] = [] := rfl

@[simp] theorem entries_cons_empty (e : α) (l : List α) : entries e (e :: l) = entries e l := by
  simp [entries]

theorem entries_cons {c : α} (h : c ≠ e) (l : List α) : entries e (c :: l) = c :: entries e l := by
  simp [entries, h]

@[simp] theorem entries_replicate (e : α) (n : Nat) : entries e (List.replicate n e) = [] := by
  simp [entries]

theorem entries_append (e : α) (l l' : List α) : entries e (l ++ l') = entries e l ++ entries e l' :=
  List.filter_append ..

theorem entries_of_forall (h : ∀ c ∈ l, c ≠ e) : entries e l = l := by
  rw [entries, List.filter_eq_self]
  intro c hc
  simpa using h c hc

theorem mem_entries : x ∈ entries e l ↔ x ∈ l ∧ x ≠ e := by simp [entries]

/-- The first of `n` cells that is not empty: its value, and the table with the cell cleared. -/
def takeFirst (e : α) : Nat → List α → Option (α × List α)
  | 0, _ => none
  | _, [] => none
  | n + 1, c :: l => if c ≠ e then some (c, e :: l) else (takeFirst e n l).map fun r => (r.1, c :: r.2)

theorem takeFirst_spec {l' : List α} (h : takeFirst e n l = some (x, l')) :
    entries e l = x :: entries e l' ∧ l'.length = l.length ∧ l'.drop n = l.drop n := by
  induction n generalizing l l' with
  | zero => simp [takeFirst] at h
  | succ n ih =>
    cases l with
    | nil => simp [takeFirst] at h
    | cons c l =>
      rw [takeFirst] at h
      split at h
      · rename_i hc
        cases h
        simp [entries_cons hc]
      · rename_i hc
        obtain ⟨⟨y, m⟩, hm, heq⟩ := Option.map_eq_some_iff.mp h
        cases heq
        obtain ⟨h1, h2, h3⟩ := ih hm
        rw [not_not.mp hc]
        simp [h1, h2, h3]

/-- The search of an insertion in `n` cells, the first of them with the number `i`; `slot` is the first
    empty cell so far.  No result when a cell has the value `x`. -/
def scan (e x : α) : Nat → Nat → Option Nat → List α → Option (Option Nat)
  | 0, _, slot, _ => some slot
  | _, _, slot, [] => some slot
  | n + 1, i, slot, c :: l =>
    if c = x then none
    else scan e x n (i + 1) (if slot = none then if c = e then some i else none else slot) l

theorem scan_none (i : Nat) (slot : Option Nat) : scan e x n i slot l = none ↔ x ∈ l.take n := by
  induction n generalizing l i slot with
  | zero => simp [scan]
  | succ n ih =>
    cases l with
    | nil => simp [scan]
    | cons c l =>
      rw [scan, List.take_succ_cons, List.mem_cons]
      split
      · rename_i hc
        simp [hc]
      · rename_i hc
        rw [ih]
        simp [Ne.symm hc]

/-- The cell that is found is empty. -/
theorem scan_some {i : Nat} {slot r : Option Nat} (h : scan e x n i slot l = some r) :
    (∀ j ∈ slot, r = some j) ∧
      (slot = none → (∀ j ∈ r, i ≤ j ∧ j - i < n ∧ l[j - i]? = some e) ∧
        (r = none → e ∉ l.take n)) := by
  induction n generalizing l i slot with
  | zero =>
    cases h
    simp only [List.take_zero, List.not_mem_nil, not_false_eq_true, implies_true, and_true]
    refine ⟨fun j hj => hj, fun hs j hj => ?_⟩
    rw [hs] at hj
    cases hj
  | succ n ih =>
    cases l with
    | nil =>
      cases h
      simp only [List.take_nil, List.not_mem_nil, not_false_eq_true, implies_true, and_true]
      refine ⟨fun j hj => hj, fun hs j hj => ?_⟩
      rw [hs] at hj
      cases hj
    | cons c l =>
      rw [scan] at h
      split at h
      · cases h
      obtain ⟨h1, h2⟩ := ih h
      refine ⟨fun j hj => ?_, fun hs => ?_⟩
      · rw [Option.mem_def.mp hj] at h1
        exact h1 j rfl
      rw [hs] at h1 h2
      simp only [if_pos] at h1 h2
      by_cases hc : c = e
      · -- this cell is the first empty one
        rw [if_pos hc] at h1
        have hr := h1 i rfl
        rw [hr]
        simp [hc]
      · rw [if_neg hc] at h2
        obtain ⟨h3, h4⟩ := h2 rfl
        refine ⟨fun j hj => ?_, fun hr => ?_⟩
        · obtain ⟨h5, h6, h7⟩ := h3 j hj
          refine ⟨by omega, by omega, ?_⟩
          rw [show j - i = j - (i + 1) + 1 by omega, List.getElem?_cons_succ]
          exact h7
        · rw [List.take_succ_cons, List.mem_cons, not_or]
          exact ⟨Ne.symm hc, h4 hr⟩

/-- To write to an empty cell is to add an entry. -/
theorem entries_set {j : Nat} (hj : l[j]? = some e) (hx : x ≠ e) :
    (entries e (l.set j x)).Perm (x :: entries e l) := by
  induction l generalizing j with
  | nil => simp at hj
  | cons c l ih =>
    cases j with
    | zero =>
      rw [List.getElem?_cons_zero, Option.some.injEq] at hj
      rw [List.set_cons_zero, entries_cons hx, hj, entries_cons_empty]
    | succ j =>
      rw [List.set_cons_succ]
      have hp := ih (List.getElem?_cons_succ ▸ hj)
      by_cases hc : c = e
      · rw [hc, entries_cons_empty, entries_cons_empty]
        exact hp
      · rw [entries_cons hc, entries_cons hc]
        exact (hp.cons c).trans (.swap ..)

end Slots
