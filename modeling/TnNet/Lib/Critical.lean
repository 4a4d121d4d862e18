import Mathlib.Data.List.Basic

/-!
# Critical sections

Programs on a processor with a status register.  A critical section begins with `disable`, which saves
the register in a variable and masks the interrupts, and ends with `restore`, which loads it from the
variable.  A program may return from several places, and may not return at all.

* `Quiet` — the program neither touches the register nor the variable.
* `Keeps` — whenever it returns, the register is what it was, and each `disable` was followed by its
  `restore`.
* `Closes` — the same for the rest of a program in a critical section: on every path the section is left.

The three are classes, and the rules of the composed programs are instances: for a program that is made
of these they are found from its text.
-/

set_option autoImplicit false

namespace Critical

variable {S σ α β : Type}

/-- The status register: `mask` disables the interrupts, `load cur v` writes the saved value `v` over
    `cur`, and `disabled` reads whether they are disabled. -/
structure Port (S : Type) where
  mask : S → S
  load : S → S → S
  disabled : S → Bool
  load_mask : ∀ s, load (mask s) s = s
  disabled_mask : ∀ s, disabled (mask s) = true

/-- What is done to the register. -/
inductive Op (S : Type) where
  | save (v : S)
  | restore (v : S)
  deriving DecidableEq

/-- The processor: its status register, the variable of the running program, what has been done to the
    register so far, and the memory. -/
structure Cpu (S σ : Type) where
  status : S
  saved : S
  log : List (Op S)
  mem : σ

/-- A program; it may not return. -/
abbrev Prog (S σ : Type) := StateT (Cpu S σ) Option

/-- Disable the interrupts. -/
def disable (P : Port S) : Prog S σ Unit := fun w =>
  some ((), { w with status := P.mask w.status, saved := w.status, log := w.log ++ [.save w.status] })

/-- Write the saved value back. -/
def restore (P : Port S) : Prog S σ Unit := fun w =>
  some ((), { w with status := P.load w.status w.saved, log := w.log ++ [.restore w.saved] })

/-- Read whether the interrupts are disabled. -/
def isDisabled (P : Port S) : Prog S σ Bool := fun w => some (P.disabled w.status, w)

/-- Work on the memory. -/
def access (f : σ → Option (α × σ)) : Prog S σ α :=
  fun w => (f w.mem).map fun r => (r.1, { w with mem := r.2 })

/-- Each save is followed by the restore of the saved value. -/
inductive Matched : List (Op S) → Prop where
  | nil : Matched []
  | pair (v : S) {l : List (Op S)} (h : Matched l) : Matched (.save v :: .restore v :: l)

theorem Matched.append {l l' : List (Op S)} (h : Matched l) (h' : Matched l') : Matched (l ++ l') := by
  induction h with
  | nil => exact h'
  | pair v _ ih => exact .pair v ih

theorem not_matched_restore (v : S) (l : List (Op S)) : ¬ Matched (.restore v :: l) := nofun

theorem not_matched_save (v : S) : ¬ Matched [Op.save v] := nofun

/-! ## Facts about programs -/

variable {P : Port S} {m : Prog S σ α} {f : α → Prog S σ β}

/-- The program neither touches the register nor the variable. -/
class Quiet (m : Prog S σ α) : Prop where
  quiet : ∀ w r, m w = some r → r.2.status = w.status ∧ r.2.saved = w.saved ∧ r.2.log = w.log

/-- From `w` to `w'` the register has kept its value and each save was followed by its restore. -/
def Balanced (w w' : Cpu S σ) : Prop := w'.status = w.status ∧ ∃ l, w'.log = w.log ++ l ∧ Matched l

/-- Every return of the program is balanced. -/
class Keeps (m : Prog S σ α) : Prop where
  keeps : ∀ w r, m w = some r → Balanced w r.2

/-- In a critical section that began with the value `v`, every return of the program is behind the end
    of the section. -/
class Closes (P : Port S) (m : Prog S σ α) : Prop where
  closes : ∀ v w r, w.status = P.mask v → w.saved = v → m w = some r →
    r.2.status = v ∧ ∃ l, r.2.log = w.log ++ .restore v :: l ∧ Matched l

theorem Balanced.refl (w : Cpu S σ) : Balanced w w := ⟨rfl, [], by simp, .nil⟩

theorem Balanced.trans {w w' w'' : Cpu S σ} (h : Balanced w w') (h' : Balanced w' w'') :
    Balanced w w'' := by
  obtain ⟨h1, l, h2, h3⟩ := h
  obtain ⟨h1', l', h2', h3'⟩ := h'
  exact ⟨h1'.trans h1, l ++ l', by rw [h2', h2, List.append_assoc], h3.append h3'⟩

/-- The two parts of a composed program. -/
theorem bind_some {w : Cpu S σ} {r : β × Cpu S σ} (h : (m >>= f) w = some r) :
    ∃ a w', m w = some (a, w') ∧ f a w' = some r := by
  obtain ⟨⟨a, w'⟩, h1, h2⟩ := Option.bind_eq_some_iff.mp h
  exact ⟨a, w', h1, h2⟩

/-! ## Quiet programs -/

instance quiet_pure (a : α) : Quiet (pure a : Prog S σ α) where
  quiet w r h := by
    cases h
    exact ⟨rfl, rfl, rfl⟩

instance quiet_access (f : σ → Option (α × σ)) : Quiet (access f : Prog S σ α) where
  quiet w r h := by
    obtain ⟨x, -, rfl⟩ := Option.map_eq_some_iff.mp h
    exact ⟨rfl, rfl, rfl⟩

instance quiet_bind [hm : Quiet m] [hf : ∀ a, Quiet (f a)] : Quiet (m >>= f) where
  quiet w r h := by
    obtain ⟨a, w', h1, h2⟩ := bind_some h
    obtain ⟨e1, e2, e3⟩ := hm.quiet w _ h1
    obtain ⟨e1', e2', e3'⟩ := (hf a).quiet w' r h2
    exact ⟨e1'.trans e1, e2'.trans e2, e3'.trans e3⟩

/-! ## Outside of a critical section -/

theorem Quiet.balanced (hm : Quiet m) {w : Cpu S σ} {r : α × Cpu S σ} (h : m w = some r) :
    Balanced w r.2 := by
  obtain ⟨h1, -, h3⟩ := hm.quiet w r h
  exact ⟨h1, [], by simpa using h3, .nil⟩

instance keeps_pure (a : α) : Keeps (pure a : Prog S σ α) where
  keeps _ _ h := (quiet_pure a).balanced h

instance keeps_quiet_bind [hm : Quiet m] [hf : ∀ a, Keeps (f a)] : Keeps (m >>= f) where
  keeps w r h := by
    obtain ⟨a, w', h1, h2⟩ := bind_some h
    exact (hm.balanced h1).trans ((hf a).keeps w' r h2)

/-- A critical section that is left on every path. -/
instance keeps_disable_bind {f : Unit → Prog S σ β} [hf : Closes P (f ())] : Keeps (disable P >>= f) where
  keeps w r h := by
    obtain ⟨a, w', h1, h2⟩ := bind_some h
    cases h1
    obtain ⟨h3, l, h4, h5⟩ := hf.closes w.status _ r rfl rfl h2
    exact ⟨h3, .save w.status :: .restore w.status :: l, by simpa using h4, .pair _ h5⟩

instance keeps_ite (c : Prop) [Decidable c] (m m' : Prog S σ α) [Keeps m] [Keeps m'] :
    Keeps (if c then m else m') := by
  split <;> infer_instance

/-! ## In a critical section -/

instance closes_quiet_bind [hm : Quiet m] [hf : ∀ a, Closes P (f a)] : Closes P (m >>= f) where
  closes v w r hs hv h := by
    obtain ⟨a, w', h1, h2⟩ := bind_some h
    obtain ⟨e1, e2, e3⟩ := hm.quiet w _ h1
    have hc := (hf a).closes v w' r (e1.trans hs) (e2.trans hv) h2
    rwa [show w'.log = w.log from e3] at hc

/-- The end of the section. -/
instance closes_restore_bind {f : Unit → Prog S σ β} [hf : Keeps (f ())] : Closes P (restore P >>= f) where
  closes v w r hs hv h := by
    obtain ⟨a, w', h1, h2⟩ := bind_some h
    cases h1
    obtain ⟨h3, l, h4, h5⟩ := hf.keeps _ r h2
    rw [hs, hv, P.load_mask] at h3
    rw [hv] at h4
    exact ⟨h3, l, by simpa using h4, h5⟩

instance closes_ite (c : Prop) [Decidable c] (m m' : Prog S σ α) [Closes P m] [Closes P m'] :
    Closes P (if c then m else m') := by
  split <;> infer_instance

end Critical
