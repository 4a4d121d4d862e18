import Mathlib.Init

/-!
# Loops

A loop is given by its turn: a state in which it goes on, or a state in which it is left.
`loop turn n s` is the state in which the loop from `s` on is left, if that takes at most `n` turns.

* `loop_ends` — an invariant, and a measure that every turn makes smaller: the loop is left, and what
  the last turn makes of the invariant holds then.
* `loop_keeps` — what every turn keeps holds when the loop is left.
* `loop_never` — an invariant under which the loop goes on: it is not left after any number of turns.
-/

set_option autoImplicit false

namespace Loop

variable {σ : Type} {turn : σ → Sum σ σ} {n k : Nat} {s s' : σ}

/-- At most `n` turns; `inl` goes on and `inr` leaves. -/
def loop (turn : σ → Sum σ σ) : Nat → σ → Option σ
  | 0, _ => none
  | n + 1, s =>
    match turn s with
    | .inl s' => loop turn n s'
    | .inr s' => some s'

theorem loop_next (h : turn s = .inl s') (n : Nat) : loop turn (n + 1) s = loop turn n s' := by
  rw [loop, h]

theorem loop_leave (h : turn s = .inr s') (n : Nat) : loop turn (n + 1) s = some s' := by
  rw [loop, h]

/-- **The loop ends**, with what its last turn leaves. -/
theorem loop_ends (inv post : σ → Prop) (measure : σ → Nat)
    (hnext : ∀ s s', inv s → turn s = .inl s' → inv s' ∧ measure s' < measure s)
    (hleave : ∀ s s', inv s → turn s = .inr s' → post s') (hs : inv s) (hn : measure s < n) :
    ∃ s', loop turn n s = some s' ∧ post s' := by
  induction n generalizing s with
  | zero => exact absurd hn (Nat.not_lt_zero _)
  | succ n ih =>
    cases ht : turn s with
    | inl s' =>
      obtain ⟨h1, h2⟩ := hnext s s' hs ht
      obtain ⟨r, hr, hp⟩ := ih h1 (by omega)
      exact ⟨r, (loop_next ht n).trans hr, hp⟩
    | inr s' => exact ⟨s', loop_leave ht n, hleave s s' hs ht⟩

/-- What every turn keeps holds when the loop is left. -/
theorem loop_keeps (inv : σ → Prop)
    (hturn : ∀ s s', inv s → turn s = .inl s' ∨ turn s = .inr s' → inv s') (hs : inv s)
    (h : loop turn n s = some s') : inv s' := by
  induction n generalizing s with
  | zero => cases h
  | succ n ih =>
    cases ht : turn s with
    | inl r =>
      rw [loop_next ht] at h
      exact ih (hturn s r hs (.inl ht)) h
    | inr r =>
      rw [loop_leave ht] at h
      cases h
      exact hturn s s' hs (.inr ht)

/-- **The loop does not end.** -/
theorem loop_never (inv : σ → Prop) (hnext : ∀ s, inv s → ∃ s', turn s = .inl s' ∧ inv s')
    (hs : inv s) (n : Nat) : loop turn n s = none := by
  induction n generalizing s with
  | zero => rfl
  | succ n ih =>
    obtain ⟨s', ht, h⟩ := hnext s hs
    rw [loop_next ht]
    exact ih h

/-- More turns do not change the result. -/
theorem loop_mono (h : loop turn n s = some s') (hk : n ≤ k) : loop turn k s = some s' := by
  induction n generalizing s k with
  | zero => cases h
  | succ n ih =>
    obtain ⟨k, rfl⟩ : ∃ j, k = j + 1 := ⟨k - 1, by omega⟩
    cases ht : turn s with
    | inl r =>
      rw [loop_next ht] at h ⊢
      exact ih h (by omega)
    | inr r =>
      rw [loop_leave ht] at h ⊢
      exact h

end Loop
