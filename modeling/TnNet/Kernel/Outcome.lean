import TnNet.Kernel.SchedRun

/-!
# What a blocked call returns

A blocked call for a resource ends with a grant or with a timeout, as long as no task is released
from its wait by force.  `Outcome k hist` says that the control block of a task that has not yet
returned keeps the code and the datum of that end, and `BackOk hist` that every return so far was the
one of its end.
-/

set_option autoImplicit false

namespace TnKernel

variable {k k' : Kernel} {t u : TaskId} {hist obs : List Obs} {a : Allow}

/-- An observation of a task in a call for a resource. -/
def Obs.about (t : TaskId) : Obs → Bool
  | .ret _ _ _ => false
  | .block u c => decide (u = t) && c.isRes
  | .grant u c _ => decide (u = t) && c.isRes
  | .cancel u c => decide (u = t) && c.isRes
  | .back u c _ _ => decide (u = t) && c.isRes

/-- The last of them. -/
def lastOf (t : TaskId) (hist : List Obs) : Option Obs := (hist.filter (Obs.about t)).getLast?

theorem about_silent {o : Obs} (h : o.silent = true) (t : TaskId) : o.about t = false := by
  cases o <;> simp_all [Obs.silent, Obs.about]

theorem lastOf_append (h : ∀ o ∈ obs, o.about t = false) :
    lastOf t (hist ++ obs) = lastOf t hist := by
  have : obs.filter (Obs.about t) = [] := by
    rw [List.filter_eq_nil_iff]
    intro o ho
    rw [h o ho]
    simp
  unfold lastOf
  rw [List.filter_append, this, List.append_nil]

theorem lastOf_snoc (hist : List Obs) {o : Obs} (h : o.about t = true) :
    lastOf t (hist ++ [o]) = some o := by
  unfold lastOf
  rw [List.filter_append, List.filter_cons, if_pos h]
  simp

/-- A blocked call that has ended keeps its result. -/
def OutcomeAt (k : Kernel) (hist : List Obs) (t : TaskId) : Prop :=
  ∀ c, k.pend t = some c → c.isRes = true → (k.sch.tcb t).pwaitQueue = none →
    ((k.sch.tcb t).taskWaitRc = .noErr ∧
      lastOf t hist = some (.grant t c (backData (k.sch.tcb t) c))) ∨
    ((k.sch.tcb t).taskWaitRc = .timeout ∧ lastOf t hist = some (.cancel t c))

def Outcome (k : Kernel) (hist : List Obs) : Prop := ∀ t, OutcomeAt k hist t

/-- The end of a blocked call that returns with this code and datum. -/
def Ended (hist : List Obs) (t : TaskId) (c : Call) (rc : Terr) (data : Nat) : Prop :=
  (rc = .noErr ∧ lastOf t hist = some (.grant t c data)) ∨
    (rc = .timeout ∧ lastOf t hist = some (.cancel t c))

/-- Every call for a resource has returned with its end. -/
def BackOk (hist : List Obs) : Prop :=
  ∀ h₁ t c rc data h₂, hist = h₁ ++ .back t c rc data :: h₂ → c.isRes = true →
    Ended h₁ t c rc data

theorem backData_congr {b b' : Tcb} {c : Call} (hc : c.isRes = true) (h : b'.dataElem = b.dataElem) :
    backData b' c = backData b c := by
  cases c <;> first | rfl | exact h | cases hc

theorem OutcomeAt.keep (h : OutcomeAt k hist t) (hp : k'.pend t = k.pend t)
    (hv : (k'.sch.tcb t).waitView = (k.sch.tcb t).waitView)
    (ho : ∀ o ∈ obs, o.about t = false) : OutcomeAt k' (hist ++ obs) t := by
  intro c hc hres hq
  rw [hp] at hc
  rw [view_que hv] at hq
  rw [view_rc hv, backData_congr hres (view_data hv), lastOf_append ho]
  exact h c hc hres hq

theorem OutcomeAt.of_pend (h : ∀ c, k.pend t = some c → c.isRes = false) : OutcomeAt k hist t := by
  intro c hc hres
  rw [h c hc] at hres
  cases hres

/-- A history with observations that are no returns. -/
theorem BackOk.append (h : BackOk hist)
    (ho : ∀ o ∈ obs, ∀ t c rc data, o = .back t c rc data → c.isRes = false) :
    BackOk (hist ++ obs) := by
  intro h₁ t c rc data h₂ heq hres
  rcases List.append_eq_append_iff.mp heq with ⟨l, h1, h2⟩ | ⟨l, h1, h2⟩
  · have := ho (.back t c rc data) (by rw [h2]; simp) t c rc data rfl
    rw [this] at hres
    cases hres
  · cases l with
    | nil =>
      have := ho (.back t c rc data) (by
        rw [List.nil_append] at h2
        rw [← h2]
        exact List.mem_cons_self) t c rc data rfl
      rw [this] at hres
      cases hres
    | cons o l =>
      rw [List.cons_append, List.cons.injEq] at h2
      rw [← h2.1] at h1
      exact h h₁ t c rc data l h1 hres

theorem BackOk.snoc {c : Call} {rc : Terr} {data : Nat} (h : BackOk hist)
    (ho : Ended hist t c rc data) : BackOk (hist ++ [.back t c rc data]) := by
  intro h₁ t' c' rc' data' h₂ heq hres
  rcases List.append_eq_append_iff.mp heq with ⟨l, h1, h2⟩ | ⟨l, h1, h2⟩
  · cases l with
    | nil =>
      rw [List.nil_append, List.cons.injEq] at h2
      rw [List.append_nil] at h1
      obtain ⟨h2, -⟩ := h2
      cases h2
      rw [h1]
      exact ho
    | cons o l => simp at h2
  · cases l with
    | nil =>
      rw [List.nil_append, List.cons.injEq] at h2
      obtain ⟨h2, -⟩ := h2
      cases h2
      rw [List.append_nil] at h1
      rw [← h1]
      exact ho
    | cons o l =>
      rw [List.cons_append, List.cons.injEq] at h2
      rw [← h2.1] at h1
      exact h h₁ t' c' rc' data' l h1 hres

/-- The call of a task at the head of a wait list. -/
theorem Grants.pend_eq {q : Que} {data : Nat} (h : Grants t q data k k') (hk : KInv k)
    (hq : q.isRes = true) : k.pend t = some (waitCall q (k.sch.tcb t).dataElem) := by
  have hm : t ∈ k.sch.que q := List.mem_of_mem_head? h.head
  exact hk.call t q (((hk.sch.ok t).waits q (Que.not_ready_of_isRes hq)).mp hm) hq

section Act

variable (hk : KInv k) (ho : Outcome k hist)
include hk ho

/-- A grant. -/
theorem Outcome.grants {q : Que} {data d : Nat} {o : Obs} (h : Grants t q data k k')
    (hq : q.isRes = true) (hr : ∀ u, o.about u = false)
    (hd : d = backData (k'.sch.tcb t) (waitCall q (k.sch.tcb t).dataElem)) :
    Outcome k' (hist ++ [o, .grant t (waitCall q (k.sch.tcb t).dataElem) d]) := by
  intro u
  have hsplit : hist ++ [o, .grant t (waitCall q (k.sch.tcb t).dataElem) d] =
      (hist ++ [o]) ++ [.grant t (waitCall q (k.sch.tcb t).dataElem) d] := by simp
  by_cases hu : u = t
  · subst hu
    intro c hc hres _
    rw [h.pend, h.pend_eq hk hq] at hc
    cases hc
    refine .inl ⟨h.rc, ?_⟩
    rw [hsplit, lastOf_snoc, ← hd]
    simp [Obs.about, hres]
  · refine (ho u).keep (by rw [h.pend]) (h.leave.view u hu) fun x hx => ?_
    simp only [List.mem_cons, List.not_mem_nil, or_false] at hx
    rcases hx with rfl | rfl
    · exact hr u
    · simp [Obs.about, Ne.symm hu]

/-- **The acts keep the results of the blocked calls.** -/
theorem Outcome.act (ha : ∀ t, ¬a.release t) (h : Act a k obs k') : Outcome k' (hist ++ obs) := by
  have changes : Changes k k' → (∀ o ∈ obs, ∀ t, o.about t = false) → Outcome k' (hist ++ obs) :=
    fun hc hobs u => (ho u).keep (by rw [hc.pend]) (hc.quiet.view u) fun o hx => hobs o hx u
  have silent : (∀ o ∈ obs, o.silent = true) → ∀ o ∈ obs, ∀ t, o.about t = false :=
    fun hobs o hx t => about_silent (hobs o hx) t
  cases h with
  | quiet h hr hobs => exact changes h (silent hobs)
  | @free _ _ t h hr hp hg hb hn hl hobs =>
    intro u
    by_cases hu : u = t
    · rw [hu]
      exact .of_pend hn
    · exact (ho u).keep (hp u hu) (h.view u hu) fun o hx => silent hobs o hx u
  | @reset _ _ t h hw hr hp hg hn hobs =>
    intro u
    by_cases hu : u = t
    · rw [hu]
      exact .of_pend (none_call hn)
    · exact (ho u).keep (hp u hu) (h.view u hu) fun o hx => silent hobs o hx u
  | @resetWait _ t q h hq hres hr hp hg hn =>
    intro u
    by_cases hu : u = t
    · rw [hu]
      exact .of_pend (none_call hn)
    · refine (ho u).keep (hp u hu) (h.view u hu) fun o hx => ?_
      rw [List.mem_singleton.mp hx]
      simp [Obs.about, Ne.symm hu]
  | @cancel _ t q h hq hres hd hr hp hg hrc =>
    intro u
    by_cases hu : u = t
    · subst hu
      intro c hc hcres _
      rw [hp, hk.call u q hq hres] at hc
      cases hc
      refine .inr ⟨hrc, lastOf_snoc hist ?_⟩
      simp [Obs.about, hcres]
    · refine (ho u).keep (by rw [hp]) (h.view u hu) fun o hx => ?_
      rw [List.mem_singleton.mp hx]
      simp [Obs.about, Ne.symm hu]
  | @release _ t q h hq hres hr hp hg hrel => exact absurd hrel (ha t)
  | @block _ t q data h hres hl hx ht hw hd hr hb hp hn hg =>
    intro u
    by_cases hu : u = t
    · subst hu
      intro c _ _ hq
      rw [h.after] at hq
      cases hq
    · refine (ho u).keep (hp u hu) (h.view u hu) fun o hx => ?_
      rw [List.mem_singleton.mp hx]
      simp [Obs.about, Ne.symm hu]
  | @back _ t c h hw hc hres hr hp hn hg =>
    intro u
    by_cases hu : u = t
    · rw [hu]
      exact .of_pend (none_call hn)
    · refine (ho u).keep (hp u hu) (h.view u) fun o hx => ?_
      rw [List.mem_singleton.mp hx]
      simp [Obs.about, Ne.symm hu]
  | semParam h hs hd hf hobs => exact changes h (silent hobs)
  | semCreate h => exact changes h fun o hx t => by rw [List.mem_singleton.mp hx]; rfl
  | semSignal h => exact changes h fun o hx t => by rw [List.mem_singleton.mp hx]; rfl
  | semGrant h => exact ho.grants hk h rfl (fun _ => rfl) rfl
  | semAcquire h => exact changes h fun o hx t => by rw [List.mem_singleton.mp hx]; rfl
  | queueCreate h hid hd hs hf hobs => exact changes h (silent hobs)
  | sendFifo h => exact changes h fun o hx t => by rw [List.mem_singleton.mp hx]; rfl
  | sendGrant h => exact ho.grants hk h rfl (fun _ => rfl) h.data.symm
  | receiveFifo h => exact changes h fun o hx t => by rw [List.mem_singleton.mp hx]; rfl
  | receiveGrant h hdt =>
    subst hdt
    exact ho.grants hk h rfl (fun _ => rfl) rfl
  | receiveDirect h hdt =>
    subst hdt
    exact ho.grants hk h rfl (fun _ => rfl) rfl
  | fmemCreate h hid hx hcr hf hs hd hobs => exact changes h (silent hobs)
  | fmemGet h => exact changes h fun o hx t => by rw [List.mem_singleton.mp hx]; rfl
  | fmemGrant h => exact ho.grants hk h rfl (fun _ => rfl) h.data.symm
  | fmemRelease h => exact changes h fun o hx t => by rw [List.mem_singleton.mp hx]; rfl

end Act

/-- Only the act `back` lets a call for a resource return. -/
theorem Act.backs (h : Act a k obs k') :
    (∀ o ∈ obs, ∀ t c rc data, o = .back t c rc data → c.isRes = false) ∨
      ∃ t c, obs = [.back t c (backRc (k.sch.tcb t) c) (backData (k.sch.tcb t) c)] ∧
        (k.sch.tcb t).taskState.isWait = false ∧ k.pend t = some c ∧ c.isRes = true := by
  have silent : (∀ o ∈ obs, o.silent = true) →
      ∀ o ∈ obs, ∀ t c rc data, o = .back t c rc data → c.isRes = false := by
    rintro hobs o ho t c rc data rfl
    simpa [Obs.silent] using hobs _ ho
  cases h with
  | quiet h hr hobs => exact .inl (silent hobs)
  | free h hr hp hg hb hn hl hobs => exact .inl (silent hobs)
  | reset h hw hr hp hg hn hobs => exact .inl (silent hobs)
  | semParam h hs hd hf hobs => exact .inl (silent hobs)
  | queueCreate h hid hd hs hf hobs => exact .inl (silent hobs)
  | fmemCreate h hid hx hcr hf hs hd hobs => exact .inl (silent hobs)
  | @back _ t c h hw hc hres => exact .inr ⟨t, c, rfl, hw, hc, hres⟩
  | _ =>
    refine .inl fun o ho t c rc data hc => ?_
    simp only [List.mem_cons, List.not_mem_nil, or_false] at ho
    subst hc
    simp at ho

theorem BackOk.act (hk : KInv k) (hb : BackOk hist) (ho : Outcome k hist) (h : Act a k obs k') :
    BackOk (hist ++ obs) := by
  rcases h.backs with hn | ⟨t, c, rfl, hw, hc, hres⟩
  · exact hb.append hn
  · apply hb.snoc
    have hrc : backRc (k.sch.tcb t) c = (k.sch.tcb t).taskWaitRc := by
      cases c <;> first | rfl | cases hres
    rw [hrc]
    exact ho t c hc hres ((hk.sch.ok t).pwait_none hw)

end TnKernel
