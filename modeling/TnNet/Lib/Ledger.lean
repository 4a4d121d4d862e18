import Mathlib.Data.List.Perm.Basic

/-!
# Ledgers

A ledger follows things that come in, go out and are held in between.  `Ledger inn out before obs after`
says that the things held `before`, with those the observations bring in, are those the observations
take out and those held `after`, each as often.

* `Ledger.trans`, `Ledger.append` — ledgers one behind the other and side by side.
* `Ledger.perm_iff` — a ledger that begins with nothing held is an equality up to order.
-/

set_option autoImplicit false

variable {α ω : Type} [DecidableEq α] {inn out : ω → List α} {b a b' a' c : List α}
  {obs obs' : List ω}

/-- What was held and came in is what went out and is held. -/
def Ledger (inn out : ω → List α) (before : List α) (obs : List ω) (after : List α) : Prop :=
  ∀ x, (obs.flatMap out).count x + after.count x = (obs.flatMap inn).count x + before.count x

theorem Ledger.refl (b : List α) : Ledger inn out b [] b := by
  intro x
  simp

theorem Ledger.trans (h : Ledger inn out b obs c) (h' : Ledger inn out c obs' a) :
    Ledger inn out b (obs ++ obs') a := by
  intro x
  have h1 := h x
  have h2 := h' x
  simp only [List.flatMap_append, List.count_append] at h1 h2 ⊢
  omega

/-- Side by side. -/
theorem Ledger.append (h : Ledger inn out b obs a) (h' : Ledger inn out b' obs' a') :
    Ledger inn out (b ++ b') (obs ++ obs') (a ++ a') := by
  intro x
  have h1 := h x
  have h2 := h' x
  simp only [List.flatMap_append, List.count_append] at h1 h2 ⊢
  omega

/-- The order of the observations does not matter. -/
theorem Ledger.perm (h : Ledger inn out b obs a) (hp : obs.Perm obs') : Ledger inn out b obs' a := by
  intro x
  rw [← (hp.flatMap_right out).count_eq, ← (hp.flatMap_right inn).count_eq]
  exact h x

/-- The order of what is held does not matter. -/
theorem Ledger.perm_held (h : Ledger inn out b obs a) (hb : b.Perm b') (ha : a.Perm a') :
    Ledger inn out b' obs a' := by
  intro x
  rw [← hb.count_eq, ← ha.count_eq]
  exact h x

/-- A frame: what is held besides. -/
theorem Ledger.frame (h : Ledger inn out b obs a) (c : List α) :
    Ledger inn out (b ++ c) obs (a ++ c) := by
  have h1 := h.append (Ledger.refl c : Ledger inn out c [] c)
  rwa [List.append_nil] at h1

/-- One place of a list of holders changes. -/
theorem Ledger.set {β : Type} [Inhabited β] {f : β → List α} {l : List β} {i : Nat} {y : β}
    (hi : i < l.length) (h : Ledger inn out (f (l.getD i default)) obs (f y)) :
    Ledger inn out (l.flatMap f) obs ((l.set i y).flatMap f) := by
  have key : ∀ x, ((l.set i y).flatMap f).count x + (f (l.getD i default)).count x =
      (l.flatMap f).count x + (f y).count x := by
    intro x
    clear h
    induction l generalizing i with
    | nil => exact absurd hi (Nat.not_lt_zero i)
    | cons z l ih =>
      cases i with
      | zero =>
        simp only [List.set_cons_zero, List.flatMap_cons, List.count_append, List.getD_cons_zero]
        omega
      | succ i =>
        have := ih (Nat.lt_of_succ_lt_succ hi)
        simp only [List.set_cons_succ, List.flatMap_cons, List.count_append, List.getD_cons_succ]
        omega
  intro x
  have h1 := h x
  have h2 := key x
  omega

/-- Every place changes. -/
theorem Ledger.map {β : Type} {f : β → List α} {g : β → β × List ω}
    (h : ∀ y, Ledger inn out (f y) (g y).2 (f (g y).1)) (l : List β) :
    Ledger inn out (l.flatMap f) (l.flatMap fun y => (g y).2)
      ((l.map fun y => (g y).1).flatMap f) := by
  induction l with
  | nil => exact .refl []
  | cons y l ih => exact (h y).append ih

theorem Ledger.perm_iff :
    Ledger inn out [] obs a ↔ (obs.flatMap inn).Perm (obs.flatMap out ++ a) := by
  rw [List.perm_iff_count]
  unfold Ledger
  refine forall_congr' fun x => ?_
  rw [List.count_append, List.count_nil, Nat.add_zero]
  exact eq_comm
