import Mathlib.Data.List.Basic

/-!
# Loops that may fail

A loop over a list is `List.foldlM` in `Except`.  `Along f P s l` says that the loop meets the condition
`P` in front of each of its passes, as far as it comes; `foldlM_along` is the rule for an invariant of
the state and of the part of the list that is left.
-/

set_option autoImplicit false

namespace Fold

variable {ε σ α : Type}

/-- Every pass of the loop meets the condition. -/
def Along (f : σ → α → Except ε σ) (P : σ → α → Prop) : σ → List α → Prop
  | _, [] => True
  | s, a :: l => P s a ∧ ∀ s', f s a = .ok s' → Along f P s' l

theorem along_true (f : σ → α → Except ε σ) (s : σ) (l : List α) : Along f (fun _ _ => True) s l := by
  induction l generalizing s with
  | nil => trivial
  | cons a l ih => exact ⟨trivial, fun s' _ => ih s'⟩

/-- A condition that is asked for in some cases only. -/
theorem along_imp {c : Prop} {f : σ → α → Except ε σ} {P : σ → α → Prop} {s : σ} {l : List α}
    (h : c → Along f P s l) : Along f (fun s a => c → P s a) s l := by
  induction l generalizing s with
  | nil => trivial
  | cons a l ih => exact ⟨fun hc => (h hc).1, fun s' hs => ih fun hc => (h hc).2 s' hs⟩

/-- One step of a computation that does not fail. -/
theorem bind_ok {β : Type} {x : Except ε σ} {f : σ → Except ε β} {b : β} (h : x >>= f = .ok b) :
    ∃ a, x = .ok a ∧ f a = .ok b := by
  cases x with
  | error e => cases h
  | ok a => exact ⟨a, rfl, h⟩

/-- **Loop rule.** -/
theorem foldlM_along {f : σ → α → Except ε σ} {P : σ → α → Prop} (inv : σ → List α → Prop)
    (hstep : ∀ s a l s', inv s (a :: l) → P s a → f s a = .ok s' → inv s' l) {s s' : σ} {l : List α}
    (hs : inv s l) (hP : Along f P s l) (h : l.foldlM f s = .ok s') : inv s' [] := by
  induction l generalizing s with
  | nil =>
    cases h
    exact hs
  | cons a l ih =>
    rw [List.foldlM_cons] at h
    obtain ⟨s1, h1, h2⟩ := bind_ok h
    exact ih (hstep s a l s1 hs hP.1 h1) (hP.2 s1 h1) h2

instance okDecidable {P : σ → Prop} [inst : DecidablePred P] :
    ∀ x : Except ε σ, Decidable (∀ a, x = .ok a → P a)
  | .error _ => isTrue fun _ h => by cases h
  | .ok a => decidable_of_iff (P a) ⟨fun h b hb => by cases hb; exact h, fun h => h a rfl⟩

instance alongDecidable (f : σ → α → Except ε σ) (P : σ → α → Prop)
    [inst : ∀ s a, Decidable (P s a)] : ∀ (s : σ) (l : List α), Decidable (Along f P s l)
  | _, [] => isTrue trivial
  | _, _ :: l =>
    have : ∀ s', Decidable (Along f P s' l) := fun s' => alongDecidable f P s' l
    inferInstanceAs (Decidable (_ ∧ _))

end Fold
