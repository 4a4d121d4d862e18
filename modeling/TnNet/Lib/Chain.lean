import Mathlib.Data.List.Nodup
import Mathlib.Logic.Function.Basic

/-!
# Singly linked lists

A node has a pointer to the next one, and a list hangs on a node of its own, the head.  `Links next a l`
says that `l` are the nodes behind `a`, in order.

* `Links.frame` — links of other nodes may change.
* `Links.snoc` — a node is hung behind the last one.
* `Links.unlink` — the node before a node is made to point past it.
* `Links.unique` — a head has one list.
-/

set_option autoImplicit false

namespace Chain

variable {α : Type} {next next' : α → Option α} {a x : α} {l l₁ l₂ : List α}

/-- The nodes behind a node, up to the one with no next node. -/
def Links (next : α → Option α) : α → List α → Prop
  | a, [] => next a = none
  | a, b :: l => next a = some b ∧ Links next b l

instance decidableLinks [DecidableEq α] (next : α → Option α) : ∀ a l, Decidable (Links next a l)
  | a, [] => inferInstanceAs (Decidable (next a = none))
  | _, b :: l =>
    have := decidableLinks next b l
    inferInstanceAs (Decidable (_ ∧ _))

theorem Links.frame (h : Links next a l) (hn : ∀ b ∈ a :: l, next' b = next b) : Links next' a l := by
  induction l generalizing a with
  | nil =>
    rw [Links, hn a List.mem_cons_self]
    exact h
  | cons b l ih =>
    refine ⟨?_, ?_⟩
    · rw [hn a List.mem_cons_self]
      exact h.1
    · apply ih h.2
      intro c hc
      exact hn c (List.mem_cons_of_mem a hc)

theorem Links.unique {l' : List α} (h : Links next a l) (h' : Links next a l') : l = l' := by
  induction l generalizing a l' with
  | nil =>
    cases l' with
    | nil => rfl
    | cons c l' => simp [Links, h'.1] at h
  | cons b l ih =>
    cases l' with
    | nil => simp [Links, h.1] at h'
    | cons c l' =>
      have hbc := h.1.symm.trans h'.1
      simp only [Option.some.injEq] at hbc
      subst hbc
      rw [ih h.2 h'.2]

theorem getLastD_mem (a : α) (l : List α) : l.getLastD a ∈ a :: l := by
  induction l generalizing a with
  | nil => simp
  | cons b l ih =>
    rw [List.getLastD_cons]
    exact List.mem_cons_of_mem a (ih b)

theorem Links.next_last (h : Links next a l) : next (l.getLastD a) = none := by
  induction l generalizing a with
  | nil => exact h
  | cons b l ih =>
    rw [List.getLastD_cons]
    exact ih h.2

theorem Links.snoc (h : Links next a l) (hnd : (a :: l).Nodup) (hx : next' x = none)
    (hlast : next' (l.getLastD a) = some x)
    (hn : ∀ b ∈ a :: l, b ≠ l.getLastD a → next' b = next b) : Links next' a (l ++ [x]) := by
  induction l generalizing a with
  | nil => exact ⟨hlast, hx⟩
  | cons b l ih =>
    rw [List.getLastD_cons] at hlast hn
    obtain ⟨ha, hnd⟩ := List.nodup_cons.mp hnd
    refine ⟨?_, ?_⟩
    · rw [hn a List.mem_cons_self]
      · exact h.1
      · rintro rfl
        exact ha (getLastD_mem b l)
    · apply ih h.2 hnd hlast
      intro c hc
      exact hn c (List.mem_cons_of_mem a hc)

theorem Links.unlink (h : Links next a (l₁ ++ x :: l₂)) (hnd : (a :: (l₁ ++ x :: l₂)).Nodup)
    (hprev : next' (l₁.getLastD a) = next x)
    (hn : ∀ b ∈ a :: (l₁ ++ l₂), b ≠ l₁.getLastD a → next' b = next b) :
    Links next' a (l₁ ++ l₂) := by
  induction l₁ generalizing a with
  | nil =>
    obtain ⟨-, hl⟩ := h
    obtain ⟨ha, hnd⟩ := List.nodup_cons.mp hnd
    change next' a = next x at hprev
    cases l₂ with
    | nil =>
      change next' a = none
      rw [hprev]
      exact hl
    | cons c l₂ =>
      refine ⟨hprev.trans hl.1, ?_⟩
      apply hl.2.frame
      intro b hb
      apply hn b (List.mem_cons_of_mem a hb)
      rintro rfl
      exact ha (List.mem_cons_of_mem x hb)
  | cons b l₁ ih =>
    rw [List.getLastD_cons] at hprev hn
    obtain ⟨ha, hnd⟩ := List.nodup_cons.mp hnd
    refine ⟨?_, ?_⟩
    · rw [hn a List.mem_cons_self]
      · exact h.1
      · rintro rfl
        apply ha
        exact List.mem_append_left (x :: l₂) (getLastD_mem b l₁)
    · apply ih h.2 hnd hprev
      intro c hc
      exact hn c (List.mem_cons_of_mem a hc)

end Chain
