import Mathlib.Logic.Function.Basic

/-!
# Moving bytes in a memory

A memory is a function of the address.  An area is moved in pieces; a piece is read whole before it is
written.  `Moved` says which part of the destination holds its part of the source, as that was before
the move.

* `Moved.up` — upward, when the destination lies below the source.
* `Moved.down` — downward, when it lies above.

The areas may overlap in both cases.
-/

set_option autoImplicit false

namespace Move

variable {β : Type} {m₀ m : Nat → β} {src dst lo hi n : Nat}

/-- The memory behind a move of `n` bytes. -/
def move (m : Nat → β) (dst src n : Nat) : Nat → β :=
  fun a => if dst ≤ a ∧ a < dst + n then m (src + (a - dst)) else m a

/-- The destination from `lo` up to `hi` holds its part of the source, and no other byte has changed. -/
structure Moved (m₀ m : Nat → β) (dst src lo hi : Nat) : Prop where
  copied : ∀ i, lo ≤ i → i < hi → m (dst + i) = m₀ (src + i)
  frame : ∀ a, a < dst + lo ∨ dst + hi ≤ a → m a = m₀ a

theorem Moved.refl (m : Nat → β) (dst src i : Nat) : Moved m m dst src i i :=
  ⟨fun _ h1 h2 => absurd h2 (Nat.not_lt.mpr h1), fun _ _ => rfl⟩

/-- The next piece upward: what is read has not been written to. -/
theorem Moved.up (h : Moved m₀ m dst src lo hi) (hlo : lo ≤ hi) (hle : dst ≤ src) (n : Nat) :
    Moved m₀ (move m (dst + hi) (src + hi) n) dst src lo (hi + n) := by
  constructor
  · intro i h1 h2
    unfold move
    split
    · have heq : src + hi + (dst + i - (dst + hi)) = src + i := by omega
      rw [heq]
      exact h.frame _ (by omega)
    · exact h.copied i h1 (by omega)
  · intro a ha
    unfold move
    rw [if_neg (by omega)]
    exact h.frame a (by omega)

/-- The next piece downward. -/
theorem Moved.down (h : Moved m₀ m dst src (lo + n) hi) (hhi : lo + n ≤ hi) (hle : src ≤ dst) :
    Moved m₀ (move m (dst + lo) (src + lo) n) dst src lo hi := by
  constructor
  · intro i h1 h2
    unfold move
    split
    · have heq : src + lo + (dst + i - (dst + lo)) = src + i := by omega
      rw [heq]
      exact h.frame _ (by omega)
    · exact h.copied i (by omega) h2
  · intro a ha
    unfold move
    rw [if_neg (by omega)]
    exact h.frame a (by omega)

end Move
