import Mathlib.Logic.Relation
import Mathlib.Order.Bounds.Basic
import Mathlib.Order.MinMax
import Mathlib.Order.WellFounded

/-!
# Wait-for graphs

Tasks wait for locks and hold locks.  A task waits for the tasks that hold the lock it waits for.

* `acyclic` — when the locks have a rank, and a task only waits for a lock that ranks above all the
  locks it holds, then no task waits for itself along any chain.
* `le_of_chain` — what every task has at least as much of as the tasks that wait for it, the tasks
  along a chain have.
* `Inherited` — a task inherits the least value among its own and those of the tasks that wait for it:
  what happens to this value when a task begins to wait for it (`join`), ceases to (`leave`), or when
  the task takes over tasks with no lesser values (`gain`).
-/

set_option autoImplicit false

namespace WaitGraph

variable {τ μ ι : Type}

/-- The first task waits for a lock that the second one holds. -/
def Edge (waits holds : τ → μ → Prop) (t h : τ) : Prop := ∃ m, waits t m ∧ holds h m

/-- A task waits for itself along a chain. -/
def Deadlock (waits holds : τ → μ → Prop) (t : τ) : Prop := Relation.TransGen (Edge waits holds) t t

variable {waits holds : τ → μ → Prop}

/-- The lock at the end of a chain does not rank below the one at its start. -/
theorem rank_le_of_chain [Preorder ι] {rank : μ → ι}
    (hrank : ∀ t m m', waits t m → holds t m' → rank m' < rank m) {t h : τ}
    (hc : Relation.TransGen (Edge waits holds) t h) :
    ∃ m m', waits t m ∧ holds h m' ∧ rank m ≤ rank m' := by
  induction hc with
  | single he =>
    obtain ⟨m, hw, hh⟩ := he
    exact ⟨m, m, hw, hh, le_rfl⟩
  | tail _ he ih =>
    obtain ⟨m, m', hw, hh, hle⟩ := ih
    obtain ⟨m'', hw', hh'⟩ := he
    exact ⟨m, m'', hw, hh', hle.trans (hrank _ _ _ hw' hh).le⟩

/-- **No deadlock among ranked locks.** -/
theorem acyclic [Preorder ι] {rank : μ → ι}
    (hrank : ∀ t m m', waits t m → holds t m' → rank m' < rank m) (t : τ) :
    ¬Deadlock waits holds t := by
  intro hc
  obtain ⟨m, m', hw, hh, hle⟩ := rank_le_of_chain hrank hc
  exact absurd (hrank t m m' hw hh) (not_lt_of_ge hle)

/-- A bound that holds along every edge holds along every chain. -/
theorem le_of_chain [Preorder ι] {f : τ → ι}
    (hf : ∀ t h, Edge waits holds t h → f h ≤ f t) {t h : τ}
    (hc : Relation.TransGen (Edge waits holds) t h) : f h ≤ f t := by
  induction hc with
  | single he => exact hf _ _ he
  | tail _ he ih => exact (hf _ _ he).trans ih

/-! ## Inherited values -/

section Inherit

variable [LinearOrder ι] {E E' : τ → τ → Prop} {base base' prio prio' : τ → ι}
  {t c w : τ} {p p' : ι}

/-- The value is the least among the own value of the task and those of the tasks that wait for it. -/
def Inherited (E : τ → τ → Prop) (base prio : τ → ι) (t : τ) (p : ι) : Prop :=
  ∀ q, q ≤ p ↔ q ≤ base t ∧ ∀ u, E u t → q ≤ prio u

theorem Inherited.le_base (h : Inherited E base prio t p) : p ≤ base t := ((h p).mp le_rfl).1

theorem Inherited.le_of_edge (h : Inherited E base prio t p) (he : E w t) : p ≤ prio w :=
  ((h p).mp le_rfl).2 w he

theorem Inherited.unique (h : Inherited E base prio t p) (h' : Inherited E base prio t p') : p = p' :=
  eq_of_forall_le_iff fun q => (h q).trans (h' q).symm

/-- A task nobody waits for has its own value. -/
theorem Inherited.eq_base (h : Inherited E base prio t p) (hn : ∀ u, ¬E u t) : p = base t := by
  refine le_antisymm h.le_base ((h _).mpr ⟨le_rfl, fun u hu => ?_⟩)
  exact absurd hu (hn u)

theorem Inherited.congr (h : Inherited E base prio t p) (hb : base' t = base t)
    (hE : ∀ u, E' u t ↔ E u t) (hp : ∀ u, E u t → prio' u = prio u) : Inherited E' base' prio' t p := by
  intro q
  rw [h q, hb]
  refine and_congr_right fun _ => forall_congr' fun u => ?_
  rw [hE u]
  exact forall_congr' fun hu => by rw [hp u hu]

/-- One more task waits. -/
theorem Inherited.join (h : Inherited E base prio t p) (hE : ∀ u, E' u t ↔ E u t ∨ u = c) :
    Inherited E' base prio t (min p (prio c)) := by
  intro q
  rw [le_min_iff, h q]
  constructor
  · rintro ⟨⟨hb, hu⟩, hc⟩
    refine ⟨hb, fun u he => ?_⟩
    rcases (hE u).mp he with he | rfl
    · exact hu u he
    · exact hc
  · rintro ⟨hb, hu⟩
    exact ⟨⟨hb, fun u he => hu u ((hE u).mpr (.inl he))⟩, hu c ((hE c).mpr (.inr rfl))⟩

/-- A task that does not determine the value waits no longer. -/
theorem Inherited.leave (h : Inherited E base prio t p) (hE : ∀ u, E' u t ↔ E u t ∧ u ≠ w)
    (hw : p = base t ∨ p ≠ prio w) : Inherited E' base prio t p := by
  intro q
  constructor
  · intro hq
    obtain ⟨hb, hu⟩ := (h q).mp hq
    exact ⟨hb, fun u he => hu u ((hE u).mp he).1⟩
  · rintro ⟨hb, hu⟩
    rcases hw with hw | hw
    · exact hb.trans hw.ge
    by_contra hc
    have hcw : E w t → p < prio w := fun he => lt_of_le_of_ne (h.le_of_edge he) hw
    -- a value between `p` and all the others would be below `p`
    by_cases he : E w t
    · have hlt : p < min q (prio w) := lt_min (not_le.mp hc) (hcw he)
      refine absurd ((h _).mpr ⟨(min_le_left _ _).trans hb, fun u hu' => ?_⟩) (not_le.mpr hlt)
      by_cases huw : u = w
      · rw [huw]
        exact min_le_right _ _
      · exact (min_le_left _ _).trans (hu u ((hE u).mpr ⟨hu', huw⟩))
    · refine hc ((h q).mpr ⟨hb, fun u hu' => hu u ((hE u).mpr ⟨hu', ?_⟩)⟩)
      rintro rfl
      exact he hu'

/-- Tasks with no lesser values wait for the task, too. -/
theorem Inherited.gain (h : Inherited E base prio t p) (hE : ∀ u, E u t → E' u t)
    (hg : ∀ u, E' u t → E u t ∨ p ≤ prio u) : Inherited E' base prio t p := by
  intro q
  constructor
  · intro hq
    obtain ⟨hb, hu⟩ := (h q).mp hq
    refine ⟨hb, fun u he => ?_⟩
    rcases hg u he with he | he
    · exact hu u he
    · exact hq.trans he
  · exact fun hq => (h q).mpr ⟨hq.1, fun u he => hq.2 u (hE u he)⟩

/-- Where every set of values has a least one, the value is that of one of the tasks. -/
theorem Inherited.isLeast [WellFoundedLT ι] (h : Inherited E base prio t p) :
    IsLeast (insert (base t) {q | ∃ u, E u t ∧ prio u = q}) p := by
  have hwf : WellFounded (· < · : ι → ι → Prop) := wellFounded_lt
  obtain ⟨a, ha, hmin⟩ := hwf.has_min (insert (base t) {q | ∃ u, E u t ∧ prio u = q})
    ⟨_, Set.mem_insert _ _⟩
  have hlow : p ∈ lowerBounds (insert (base t) {q | ∃ u, E u t ∧ prio u = q}) := by
    rintro q (rfl | ⟨u, hu, rfl⟩)
    · exact h.le_base
    · exact h.le_of_edge hu
  have hap : a ≤ p := by
    refine (h a).mpr ⟨not_lt.mp (hmin _ (Set.mem_insert _ _)), fun u hu => ?_⟩
    exact not_lt.mp (hmin _ (.inr ⟨u, hu, rfl⟩))
  have heq : p = a := le_antisymm (hlow ha) hap
  exact ⟨heq ▸ ha, hlow⟩

end Inherit

end WaitGraph
