import Mathlib.Data.Nat.Count

/-!
# Counting moments

`during p T E` counts the moments `t` with `T < t ≤ E` at which `p` holds; `E` is the `k`-th such moment
behind `T` when `p E` and `during p T E = k`.

* `kth_unique` — there is one `k`-th moment.
* `kth_of_sub` — where the `k`-th moment of a smaller predicate is the `k`-th one of the larger.
-/

set_option autoImplicit false

namespace Ticks

variable {p q : Nat → Prop} [DecidablePred p] [DecidablePred q] {T E K : Nat}

/-- The number of moments behind `T` and up to `E` at which `p` holds. -/
def during (p : Nat → Prop) [DecidablePred p] (T E : Nat) : Nat :=
  Nat.count (fun j => p (T + 1 + j)) (E - T)

@[simp] theorem during_self (p : Nat → Prop) [DecidablePred p] (T : Nat) : during p T T = 0 := by
  simp [during]

theorem during_next (h : T < E) :
    during p T E = during p (T + 1) E + if p (T + 1) then 1 else 0 := by
  have hn : E - T = E - (T + 1) + 1 := by omega
  unfold during
  rw [hn, Nat.count_succ']
  congr 1
  congr 1
  funext j
  congr 1
  omega

theorem during_last (h : T ≤ E) :
    during p T (E + 1) = during p T E + if p (E + 1) then 1 else 0 := by
  have hn : E + 1 - T = E - T + 1 := by omega
  have he : T + 1 + (E - T) = E + 1 := by omega
  unfold during
  rw [hn, Nat.count_succ, he]

theorem during_congr (h : ∀ t, T < t → t ≤ E → (p t ↔ q t)) : during p T E = during q T E := by
  apply Nat.le_antisymm
  · exact Nat.count_mono_left fun j hj => (h _ (by omega) (by omega)).mp
  · exact Nat.count_mono_left fun j hj => (h _ (by omega) (by omega)).mpr

/-- Two predicates with the same number of moments, one inside the other. -/
theorem sub_of_during (hqp : ∀ t, q t → p t) (h : during p T E = during q T E) :
    ∀ t, T < t → t ≤ E → p t → q t := by
  suffices hc : ∀ n, (Nat.count (fun j => p (T + 1 + j)) n = Nat.count (fun j => q (T + 1 + j)) n →
      ∀ j < n, p (T + 1 + j) → q (T + 1 + j)) by
    intro t h1 h2 ht
    have heq : T + 1 + (t - (T + 1)) = t := by omega
    have := hc (E - T) h (t - (T + 1)) (by omega)
    rw [heq] at this
    exact this ht
  intro n
  induction n with
  | zero =>
    intro _ j hj
    omega
  | succ n ih =>
    intro heq j hj hpj
    have hle : Nat.count (fun j => q (T + 1 + j)) n ≤ Nat.count (fun j => p (T + 1 + j)) n :=
      Nat.count_mono_left fun k _ => hqp _
    rw [Nat.count_succ, Nat.count_succ] at heq
    have hq := hqp (T + 1 + n)
    rcases Nat.lt_succ_iff_lt_or_eq.mp hj with hj | rfl
    · refine ih ?_ j hj hpj
      split at heq <;> split at heq <;> first | omega | tauto
    · by_contra hnq
      rw [if_pos hpj, if_neg hnq] at heq
      omega

/-- **There is one `k`-th moment.** -/
theorem kth_unique (hE : T < E) (hK : T < K) (hqE : q E) (hqK : q K)
    (h : during q T E = during q T K) : E = K := by
  have e1 : E - T = E - (T + 1) + 1 := by omega
  have e2 : K - T = K - (T + 1) + 1 := by omega
  have e3 : T + 1 + (E - (T + 1)) = E := by omega
  have e4 : T + 1 + (K - (T + 1)) = K := by omega
  unfold during at h
  rw [e1, e2, Nat.count_succ, Nat.count_succ, e3, e4, if_pos hqE, if_pos hqK] at h
  have hinj := Nat.count_injective (p := fun j => q (T + 1 + j)) (by rwa [e3]) (by rwa [e4])
    (Nat.add_right_cancel h)
  omega

/-- **The `k`-th moment of `q`** is the `k`-th moment of the larger predicate `p` exactly when all the
    first `k` moments of `p` are moments of `q`. -/
theorem kth_of_sub (hqp : ∀ t, q t → p t) {k : Nat} (hE : T < E) (hqE : q E) (hk : during q T E = k)
    (P : Nat → Prop) :
    (during p T E = k ∧ P E) ↔
      ∃ K, T < K ∧ p K ∧ during p T K = k ∧ P K ∧ ∀ t, T < t → t ≤ K → p t → q t := by
  constructor
  · rintro ⟨hp, hP⟩
    exact ⟨E, hE, hqp E hqE, hp, hP, sub_of_during hqp (hp.trans hk.symm)⟩
  · rintro ⟨K, hK, hpK, hp, hP, hall⟩
    have hcount : during p T K = during q T K :=
      during_congr fun t h1 h2 => ⟨hall t h1 h2, hqp t⟩
    have heq : E = K := kth_unique hE hK hqE (hall K hK (Nat.le_refl K) hpK) (by omega)
    subst heq
    exact ⟨hp, hP⟩

end Ticks
