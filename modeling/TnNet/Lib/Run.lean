import Mathlib

/-!
# Guarded runs

A machine has states `σ`, events `ε` and observations `ω`.  A step takes a state and an event to
the next state, or to none when the machine has ended, and makes observations.  `run` folds the
step over a list of events; `Guarded` says that every step of a run meets a condition on its
state and event.

* `run_invariant` — an invariant of the guarded steps holds in the last state of every guarded
  run, and what the steps let be observed holds of every observation.
* `run_record` — an invariant of the state and of all that has been observed; `recorded` is the
  machine that keeps its observations, for guards that look at them.
* `run_until` — every guarded run keeps an invariant up to a step of a given kind.
* `run_append`, `guarded_append` — runs and guards of a concatenation, for statements about the
  step behind a run.
-/

set_option autoImplicit false

namespace Machine

variable {σ ε ω : Type}

/-- A machine: one step. -/
abbrev Step (σ ε ω : Type) := σ → ε → Option σ × List ω

/-- The run from a state: the last state and all observations. -/
def run (step : Step σ ε ω) : Option σ → List ε → Option σ × List ω
  | none, _ => (none, [])
  | some s, [] => (some s, [])
  | some s, e :: es =>
    let r := run step (step s e).1 es
    (r.1, (step s e).2 ++ r.2)

/-- Every step of the run meets the condition. -/
def Guarded (step : Step σ ε ω) (cond : σ → ε → Prop) : Option σ → List ε → Prop
  | none, _ => True
  | some _, [] => True
  | some s, e :: es => cond s e ∧ Guarded step cond (step s e).1 es

@[simp] theorem run_none (step : Step σ ε ω) (es : List ε) : run step none es = (none, []) := by
  cases es <;> rfl

@[simp] theorem run_nil (step : Step σ ε ω) (s : Option σ) : run step s [] = (s, []) := by
  cases s <;> rfl

theorem run_cons (step : Step σ ε ω) (s : σ) (e : ε) (es : List ε) :
    run step (some s) (e :: es) =
      ((run step (step s e).1 es).1, (step s e).2 ++ (run step (step s e).1 es).2) := rfl

@[simp] theorem guarded_nil (step : Step σ ε ω) (cond : σ → ε → Prop) (s : Option σ) :
    Guarded step cond s [] := by
  cases s <;> trivial

@[simp] theorem guarded_none (step : Step σ ε ω) (cond : σ → ε → Prop) (es : List ε) :
    Guarded step cond none es := by
  cases es <;> trivial

@[simp] theorem guarded_true (step : Step σ ε ω) (s : Option σ) (es : List ε) :
    Guarded step (fun _ _ => True) s es := by
  induction es generalizing s with
  | nil => exact guarded_nil ..
  | cons e es ih =>
    cases s with
    | none => trivial
    | some s => exact ⟨trivial, ih _⟩

theorem run_append (step : Step σ ε ω) (s : Option σ) (es fs : List ε) :
    run step s (es ++ fs) =
      ((run step (run step s es).1 fs).1, (run step s es).2 ++ (run step (run step s es).1 fs).2) := by
  induction es generalizing s with
  | nil => simp
  | cons e es ih =>
    cases s with
    | none => simp
    | some s => simp [run_cons, ih]

theorem guarded_append {step : Step σ ε ω} {cond : σ → ε → Prop} {s : Option σ} {es fs : List ε}
    (h : Guarded step cond s (es ++ fs)) :
    Guarded step cond s es ∧ Guarded step cond (run step s es).1 fs := by
  induction es generalizing s with
  | nil => exact ⟨guarded_nil .., by simpa using h⟩
  | cons e es ih =>
    cases s with
    | none => simp
    | some s =>
      obtain ⟨h1, h2⟩ := h
      obtain ⟨h3, h4⟩ := ih h2
      exact ⟨⟨h1, h3⟩, h4⟩

/-- A condition on the events alone. -/
theorem guarded_of_forall {step : Step σ ε ω} {p : ε → Prop} {s : Option σ} {es : List ε}
    (h : ∀ e ∈ es, p e) : Guarded step (fun _ e => p e) s es := by
  induction es generalizing s with
  | nil => simp
  | cons e es ih =>
    cases s with
    | none => simp
    | some s => exact ⟨h e List.mem_cons_self, ih fun x hx => h x (List.mem_cons_of_mem e hx)⟩

/-- A condition that implies another one on every step. -/
theorem Guarded.mono {step : Step σ ε ω} {p q : σ → ε → Prop} (hpq : ∀ s e, p s e → q s e)
    {s : Option σ} {es : List ε} (h : Guarded step p s es) : Guarded step q s es := by
  induction es generalizing s with
  | nil => simp
  | cons e es ih =>
    cases s with
    | none => simp
    | some s => exact ⟨hpq _ _ h.1, ih h.2⟩

/-- Two conditions that agree under an invariant guard the same runs. -/
theorem guarded_iff {step : Step σ ε ω} {p q : σ → ε → Prop} (inv : σ → Prop) (ok : ε → Prop)
    (hpq : ∀ s e, inv s → ok e → (p s e ↔ q s e))
    (hstep : ∀ s e s', inv s → ok e → p s e → (step s e).1 = some s' → inv s')
    {s : Option σ} {es : List ε} (hs : ∀ s', s = some s' → inv s') (hok : ∀ e ∈ es, ok e) :
    Guarded step p s es ↔ Guarded step q s es := by
  induction es generalizing s with
  | nil => simp
  | cons e es ih =>
    cases s with
    | none => simp
    | some s =>
      have he := hok e List.mem_cons_self
      have hes := fun x hx => hok x (List.mem_cons_of_mem e hx)
      have h1 := hpq s e (hs s rfl) he
      constructor
      · rintro ⟨hp, hg⟩
        exact ⟨h1.mp hp, (ih (fun s' h => hstep s e s' (hs s rfl) he hp h) hes).mp hg⟩
      · rintro ⟨hq, hg⟩
        have hp := h1.mpr hq
        exact ⟨hp, (ih (fun s' h => hstep s e s' (hs s rfl) he hp h) hes).mpr hg⟩

/-- What an invariant of the guarded steps gives is a guard too. -/
theorem Guarded.strengthen {step : Step σ ε ω} {p q : σ → ε → Prop} (inv : σ → Prop)
    (hstep : ∀ s e s', inv s → p s e → (step s e).1 = some s' → inv s')
    (hq : ∀ s e, inv s → p s e → q s e) {s : Option σ} {es : List ε}
    (hs : ∀ s', s = some s' → inv s') (h : Guarded step p s es) : Guarded step q s es := by
  induction es generalizing s with
  | nil => simp
  | cons e es ih =>
    cases s with
    | none => simp
    | some s => exact ⟨hq s e (hs s rfl) h.1, ih (fun s' h' => hstep s e s' (hs s rfl) h.1 h') h.2⟩

/-- A machine that does not end. -/
theorem run_total (step : Step σ ε ω) (h : ∀ s e, ∃ s', (step s e).1 = some s') (s : σ) (es : List ε) :
    ∃ s', (run step (some s) es).1 = some s' := by
  induction es generalizing s with
  | nil => exact ⟨s, rfl⟩
  | cons e es ih =>
    obtain ⟨s1, h1⟩ := h s e
    obtain ⟨s2, h2⟩ := ih s1
    exact ⟨s2, by simpa only [run_cons, h1] using h2⟩

/-- **Invariant rule.**  What every guarded step preserves holds at the end of every guarded run,
    and what it lets be observed holds of every observation. -/
theorem run_invariant {step : Step σ ε ω} {cond : σ → ε → Prop} (inv : σ → Prop) (obs : ω → Prop)
    (hstep : ∀ s e, inv s → cond s e →
      (∀ s', (step s e).1 = some s' → inv s') ∧ ∀ o ∈ (step s e).2, obs o)
    {s : Option σ} {es : List ε} (hs : ∀ s', s = some s' → inv s')
    (hg : Guarded step cond s es) :
    (∀ s', (run step s es).1 = some s' → inv s') ∧ ∀ o ∈ (run step s es).2, obs o := by
  induction es generalizing s with
  | nil => simpa using hs
  | cons e es ih =>
    cases s with
    | none => simp
    | some s =>
      obtain ⟨hc, hg⟩ := hg
      obtain ⟨h1, h2⟩ := hstep s e (hs s rfl) hc
      obtain ⟨h3, h4⟩ := ih h1 hg
      refine ⟨h3, fun o ho => ?_⟩
      rcases List.mem_append.mp ho with ho | ho
      · exact h2 o ho
      · exact h4 o ho

/-- **Record rule.**  An invariant of the state and of the observations so far. -/
theorem run_record {step : Step σ ε ω} {cond : σ → ε → Prop} (inv : σ → List ω → Prop)
    (hstep : ∀ s e hist s', inv s hist → cond s e → (step s e).1 = some s' →
      inv s' (hist ++ (step s e).2))
    {s : σ} {es : List ε} {hist : List ω} (hs : inv s hist) (hg : Guarded step cond (some s) es)
    {s' : σ} (hr : (run step (some s) es).1 = some s') :
    inv s' (hist ++ (run step (some s) es).2) := by
  induction es generalizing s hist with
  | nil =>
    cases hr
    simpa using hs
  | cons e es ih =>
    obtain ⟨hc, hg⟩ := hg
    cases h1 : (step s e).1 with
    | none =>
      simp [run_cons, h1] at hr
    | some s1 =>
      rw [h1] at hg
      simp only [run_cons, h1] at hr ⊢
      rw [← List.append_assoc]
      exact ih (hstep s e hist s1 hs hc h1) hg hr

/-- The machine with the list of its observations. -/
def recorded (step : Step σ ε ω) : Step (σ × List ω) ε ω := fun s e =>
  ((step s.1 e).1.map fun s' => (s', s.2 ++ (step s.1 e).2), (step s.1 e).2)

theorem run_recorded (step : Step σ ε ω) (s : σ) (hist : List ω) (es : List ε) :
    (run (recorded step) (some (s, hist)) es).1 =
      (run step (some s) es).1.map fun s' => (s', hist ++ (run step (some s) es).2) := by
  induction es generalizing s hist with
  | nil => simp
  | cons e es ih =>
    cases h : (step s e).1 with
    | none => simp [run_cons, recorded, h]
    | some s1 => simp [run_cons, recorded, h, ih, List.append_assoc]

/-- Every observation meets a condition on what has been observed before it. -/
def Throughout (cond : List ω → ω → Prop) (hist : List ω) : Prop :=
  ∀ h₁ o h₂, hist = h₁ ++ o :: h₂ → cond h₁ o

theorem throughout_snoc {cond : List ω → ω → Prop} {hist : List ω} {o : ω}
    (h : Throughout cond hist) (ho : cond hist o) : Throughout cond (hist ++ [o]) := by
  intro h₁ o' h₂ heq
  rcases List.eq_nil_or_concat h₂ with rfl | ⟨l, x, rfl⟩
  · obtain ⟨rfl, hx⟩ := List.append_inj' heq rfl
    cases hx
    exact ho
  · rw [List.concat_eq_append, ← List.cons_append, ← List.append_assoc] at heq
    obtain ⟨rfl, -⟩ := List.append_inj' heq rfl
    exact h h₁ o' l rfl

theorem throughout_append {cond : List ω → ω → Prop} {hist obs : List ω}
    (h : Throughout cond hist) (ho : ∀ o ∈ obs, ∀ hist, cond hist o) :
    Throughout cond (hist ++ obs) := by
  induction obs generalizing hist with
  | nil => simpa using h
  | cons o obs ih =>
    have h1 := throughout_snoc h (ho o List.mem_cons_self hist)
    have h2 := ih h1 fun x hx => ho x (List.mem_cons_of_mem o hx)
    rwa [List.append_assoc] at h2

/-- **Until rule.**  A guarded step keeps the invariant and the machine, or it is one of the steps
    `stop`: then a guarded run keeps both to its end, or up to a step `stop`. -/
theorem run_until {step : Step σ ε ω} {cond : σ → ε → Prop} (inv : σ → Prop)
    (stop : σ → ε → Prop)
    (hstep : ∀ s e, inv s → cond s e → stop s e ∨ ∃ s', (step s e).1 = some s' ∧ inv s')
    {s : σ} {es : List ε} (hs : inv s) (hg : Guarded step cond (some s) es) :
    (∃ s', (run step (some s) es).1 = some s' ∧ inv s') ∨
      ∃ es₁ e es₂ s', es = es₁ ++ e :: es₂ ∧ (run step (some s) es₁).1 = some s' ∧ inv s' ∧
        stop s' e := by
  induction es generalizing s with
  | nil => exact .inl ⟨s, rfl, hs⟩
  | cons e es ih =>
    obtain ⟨hc, hg⟩ := hg
    rcases hstep s e hs hc with hstop | ⟨s1, h1, hinv⟩
    · exact .inr ⟨[], e, es, s, rfl, rfl, hs, hstop⟩
    · rw [h1] at hg
      have hcons : ∀ fs, (run step (some s) (e :: fs)).1 = (run step (some s1) fs).1 := by
        intro fs
        simp only [run_cons, h1]
      rcases ih hinv hg with ⟨s', hr, hi⟩ | ⟨es₁, e', es₂, s', rfl, hr, hi, hstop⟩
      · exact .inl ⟨s', (hcons es).trans hr, hi⟩
      · exact .inr ⟨e :: es₁, e', es₂, s', rfl, (hcons es₁).trans hr, hi, hstop⟩

instance guardedDecidable (step : Step σ ε ω) (cond : σ → ε → Prop)
    [inst : ∀ s e, Decidable (cond s e)] : ∀ (s : Option σ) (es : List ε),
      Decidable (Guarded step cond s es)
  | none, _ => decidable_of_iff True (by simp)
  | some _, [] => isTrue trivial
  | some s, e :: es =>
    have := guardedDecidable step cond (step s e).1 es
    inferInstanceAs (Decidable (_ ∧ _))

/-- **History rule.**  Every step moves a quantity up, to a value all of its observations have:
    then one value bounds the whole run. -/
theorem run_history {τ : Type} {step : Step σ ε ω} {le : τ → τ → Prop} (hrefl : ∀ t, le t t)
    (htrans : ∀ {t u v}, le t u → le u v → le t v) (val : σ → τ) (obs : ω → τ) (inv : σ → Prop)
    (hstep : ∀ s e, inv s → (∀ s', (step s e).1 = some s' → inv s') ∧
      ∃ t, le (val s) t ∧ (∀ s', (step s e).1 = some s' → val s' = t) ∧
        ∀ o ∈ (step s e).2, obs o = t)
    {s : σ} (hs : inv s) (es : List ε) :
    ∃ t, le (val s) t ∧ (∀ s', (run step (some s) es).1 = some s' → le (val s') t) ∧
      ∀ o ∈ (run step (some s) es).2, le (obs o) t := by
  induction es generalizing s with
  | nil =>
    refine ⟨val s, hrefl _, fun s' h => ?_, fun o ho => by simp at ho⟩
    cases h
    exact hrefl _
  | cons e es ih =>
    obtain ⟨hinv, t, h1, h2, h3⟩ := hstep s e hs
    cases hn : (step s e).1 with
    | none =>
      refine ⟨t, h1, fun s' h => ?_, fun o ho => ?_⟩
      · simp [run_cons, hn] at h
      · simp only [run_cons, hn, run_none, List.append_nil] at ho
        rw [h3 o ho]
        exact hrefl t
    | some s1 =>
      obtain ⟨u, g1, g2, g3⟩ := ih (hinv s1 hn)
      rw [h2 s1 hn] at g1
      refine ⟨u, htrans h1 g1, fun s' h => ?_, fun o ho => ?_⟩
      · simp only [run_cons, hn] at h
        exact g2 s' h
      · simp only [run_cons, hn, List.mem_append] at ho
        rcases ho with ho | ho
        · rw [h3 o ho]
          exact g1
        · exact g3 o ho

end Machine
