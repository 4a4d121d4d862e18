import Mathlib.Data.List.Basic

/-!
# Data at the positions of a stream

A relation `R` tells which symbols may stand at a position of a stream.  A list that starts at
position `p` agrees with `R` when each of its symbols may stand where it is (`Agrees R p l`).
Positions are integers: data in front of the stream has a negative position.

* `agrees_append` — concatenation; `Agrees.drop`, `Agrees.take` — the parts of a list.
* `Agrees.eq_map` — for the relation of a function the list is determined by its length.
-/

set_option autoImplicit false

namespace ByteStream

variable {α : Type} {R : Int → α → Prop}

/-- The symbols of a list that starts at position `p` may stand where they are. -/
def Agrees (R : Int → α → Prop) : Int → List α → Prop
  | _, [] => True
  | p, a :: l => R p a ∧ Agrees R (p + 1) l

@[simp] theorem agrees_nil (p : Int) : Agrees R p [] := trivial

theorem agrees_append {p : Int} {k l : List α} :
    Agrees R p (k ++ l) ↔ Agrees R p k ∧ Agrees R (p + k.length) l := by
  induction k generalizing p with
  | nil => simp
  | cons a k ih =>
    simp only [List.cons_append, Agrees, ih, List.length_cons, and_assoc]
    have e : p + ((k.length + 1 : Nat) : Int) = p + 1 + k.length := by omega
    rw [e]

theorem Agrees.take {p : Int} {l : List α} (h : Agrees R p l) (n : Nat) :
    Agrees R p (l.take n) := by
  rw [← List.take_append_drop n l, agrees_append] at h
  exact h.1

theorem Agrees.drop {p : Int} {l : List α} (h : Agrees R p l) {n : Nat} (hn : n ≤ l.length) :
    Agrees R (p + n) (l.drop n) := by
  rw [← List.take_append_drop n l, agrees_append, List.length_take, Nat.min_eq_left hn] at h
  exact h.2

/-- The relation of a stream that starts at position `0`; nothing is said in front of it. -/
def ofFun (f : Nat → α) (p : Int) (a : α) : Prop := 0 ≤ p → a = f p.toNat

/-- **A list that agrees with a function from position `n` on is a piece of it.** -/
theorem Agrees.eq_map {f : Nat → α} {l : List α} {n : Nat} (h : Agrees (ofFun f) n l) :
    l = (List.range l.length).map fun i => f (n + i) := by
  induction l generalizing n with
  | nil => rfl
  | cons a l ih =>
    have h1 : a = f n := h.1 (by omega)
    have h2 := ih (n := n + 1) (by exact_mod_cast h.2)
    rw [List.length_cons, List.range_succ_eq_map, List.map_cons, List.map_map]
    refine congrArg₂ List.cons h1 (h2.trans (List.map_congr_left fun i _ => ?_))
    exact congrArg f (by omega)

/-- Agreement with a function, byte by byte. -/
theorem agrees_ofFun {f : Nat → α} {d : α} {l : List α} {p : Int}
    (h : ∀ j, j < l.length → 0 ≤ p + j → l.getD j d = f (p + j).toNat) : Agrees (ofFun f) p l := by
  induction l generalizing p with
  | nil => trivial
  | cons a l ih =>
    refine ⟨fun hp => by simpa using h 0 (by simp) (by simpa using hp), ih fun j hj hp => ?_⟩
    have e : p + 1 + (j : Int) = p + ((j + 1 : Nat) : Int) := by omega
    rw [e] at hp ⊢
    simpa using h (j + 1) (by simpa using hj) hp

end ByteStream
