import Mathlib.Data.List.Nodup
import Mathlib.Data.List.Dedup

/-!
# Sweeps

A sweep folds an operation over a list of keys, where the operation of a key works on the cell of that key
alone.  Behind the sweep each key of the list has had its operation once, whatever the order.

* `Local.get_foldl` — the cells behind a sweep.
* `Local.view_foldl` — a list of keys from which an operation takes its key out when its cell says so.
* `Local.flag_foldl` — a flag that an operation raises when its cell says so.
-/

set_option autoImplicit false

namespace Sweep

variable {σ α β : Type} {get : σ → α → β} {f : β → β} {op : σ → α → σ} {l : List α}

/-- The operation of a key rewrites the cell of that key and no other. -/
structure Local (get : σ → α → β) (f : β → β) (op : σ → α → σ) : Prop where
  own : ∀ s a, get (op s a) a = f (get s a)
  other : ∀ s a b, b ≠ a → get (op s a) b = get s b

/-- A key that is not in the list keeps its cell. -/
theorem Local.get_of_not_mem (h : Local get f op) {a : α} (ha : a ∉ l) (s : σ) :
    get (l.foldl op s) a = get s a := by
  induction l generalizing s with
  | nil => rfl
  | cons b l ih =>
    rw [List.mem_cons, not_or] at ha
    rw [List.foldl_cons, ih ha.2, h.other s b a ha.1]

/-- A key of the list has had its operation once. -/
theorem Local.get_of_mem (h : Local get f op) (hl : l.Nodup) {a : α} (ha : a ∈ l) (s : σ) :
    get (l.foldl op s) a = f (get s a) := by
  induction l generalizing s with
  | nil => cases ha
  | cons b l ih =>
    obtain ⟨hb, hl⟩ := List.nodup_cons.mp hl
    rw [List.foldl_cons]
    rcases List.mem_cons.mp ha with rfl | hm
    · rw [h.get_of_not_mem hb, h.own]
    · have hab : a ≠ b := by
        rintro rfl
        exact hb hm
      rw [ih hl hm, h.other s b a hab]

theorem Local.get_foldl [DecidableEq α] (h : Local get f op) (hl : l.Nodup) (s : σ) (a : α) :
    get (l.foldl op s) a = if a ∈ l then f (get s a) else get s a := by
  split
  · rename_i ha
    exact h.get_of_mem hl ha s
  · rename_i ha
    exact h.get_of_not_mem ha s

/-- The cell of a later key in front of its operation. -/
theorem Local.get_of_cons (h : Local get f op) {a b : α} (hl : (b :: l).Nodup) (ha : a ∈ l) (s : σ) :
    get (op s b) a = get s a := by
  refine h.other s b a ?_
  rintro rfl
  exact (List.nodup_cons.mp hl).1 ha

/-- **A list that the keys leave**: those of the sweep whose cells say so are gone, the others stand in the
    order they had. -/
theorem Local.view_foldl [DecidableEq α] (h : Local get f op) (view : σ → List α) (p : β → Bool)
    (hv : ∀ s a, view (op s a) = if p (get s a) then (view s).erase a else view s) (hl : l.Nodup) (s : σ)
    (hn : (view s).Nodup) : view (l.foldl op s) = (view s).filter fun a =>
    !(decide (a ∈ l) && p (get s a)) := by
  induction l generalizing s with
  | nil => simp
  | cons b l ih =>
    have hop : view (op s b) = (view s).filter fun a => !(decide (a = b) && p (get s a)) := by
      rw [hv]
      cases hp : p (get s b)
      · rw [if_neg (by simp), eq_comm, List.filter_eq_self]
        intro a _
        rcases eq_or_ne a b with rfl | hab
        · simp [hp]
        · simp [hab]
      · rw [if_pos rfl, hn.erase_eq_filter]
        refine List.filter_congr fun a _ => ?_
        rcases eq_or_ne a b with rfl | hab
        · simp [hp]
        · simp [hab]
    rw [List.foldl_cons, ih (List.nodup_cons.mp hl).2 _ (by rw [hop]; exact hn.filter _), hop,
      List.filter_filter]
    refine List.filter_congr fun a _ => ?_
    by_cases ha : a ∈ l
    · rw [h.get_of_cons hl ha]
      cases hp : p (get s a) <;> simp [ha]
    · simp [ha]

/-- **A flag that the keys raise.** -/
theorem Local.flag_foldl (h : Local get f op) (flag : σ → Bool) (p : β → Bool)
    (hf : ∀ s a, flag (op s a) = (flag s || p (get s a))) (hl : l.Nodup) (s : σ) :
    flag (l.foldl op s) = true ↔ flag s = true ∨ ∃ a ∈ l, p (get s a) = true := by
  induction l generalizing s with
  | nil => simp
  | cons b l ih =>
    have hex : (∃ a ∈ l, p (get (op s b) a) = true) ↔ ∃ a ∈ l, p (get s a) = true :=
      exists_congr fun a => and_congr_right fun ha => by rw [h.get_of_cons hl ha]
    rw [List.foldl_cons, ih (List.nodup_cons.mp hl).2, hf, hex]
    simp [or_assoc]

end Sweep
