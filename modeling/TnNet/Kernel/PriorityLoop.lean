import TnNet.Kernel.SchedRun

/-!
# The loop of `set_current_priority`

`priorityPass` is one pass of the loop as it is compiled without `USE_MUTEXES`, `priorityLoop` the loop
with a bound on the number of its passes.

* `priorityLoop_eq` — the loop has the result of `setCurrentPriority` whenever it ends.
* `priority_ends_iff` — it ends exactly when the task does not wait for a mutex with another priority.
-/

set_option autoImplicit false

namespace TnKernel

variable {s : Sched} {task t : TaskId} {priority n : Nat}

/-- The loop is left with a state, or goes on with a task and its new priority. -/
inductive Pass where
  | leave (s : Sched)
  | again (currTask : TaskId) (newPriority : Nat)

/-- A pass of the loop for the task `currTask`.  For a task that waits for a mutex the code that goes on
    to the holder is compiled only with `USE_MUTEXES`. -/
def priorityPass (task currTask : TaskId) (newPriority : Nat) (s : Sched) : Pass :=
  let b := s.tcb currTask
  if b.priority = newPriority then .leave s
  else if b.taskState = .runnable then .leave (changeRunningTaskPriority currTask newPriority s)
  else if b.taskState.isWait then
    if (b.taskWaitReason.map WaitReason.isMutex).getD false then .again currTask newPriority
    else .leave (s.setTcb task fun b => { b with priority := newPriority })
  else .leave (s.setTcb task fun b => { b with priority := newPriority })

/-- At most `n` passes. -/
def priorityLoop (task : TaskId) : Nat → TaskId → Nat → Sched → Option Sched
  | 0, _, _, _ => none
  | n + 1, currTask, newPriority, s =>
    match priorityPass task currTask newPriority s with
    | .leave s' => some s'
    | .again currTask newPriority => priorityLoop task n currTask newPriority s

/-- `set_current_priority(task, priority)` ends. -/
def PriorityEnds (task : TaskId) (priority : Nat) (s : Sched) : Prop :=
  ∃ n, (priorityLoop task n task priority s).isSome

/-- The task waits for a mutex. -/
def WaitsForMutex (s : Sched) (t : TaskId) : Prop :=
  (s.tcb t).taskState.isWait = true ∧ ((s.tcb t).taskWaitReason.map WaitReason.isMutex).getD false = true

theorem WaitsForMutex.not_runnable (h : WaitsForMutex s t) : (s.tcb t).taskState ≠ .runnable := by
  intro hr
  have hw := h.1
  rw [hr] at hw
  cases hw

/-- The pass that changes nothing. -/
theorem priorityPass_again (h : WaitsForMutex s t) (hp : (s.tcb t).priority ≠ priority) :
    priorityPass task t priority s = .again t priority := by
  unfold priorityPass
  simp [hp, h.not_runnable, h.1, h.2]

theorem priorityPass_leave (h : ¬(WaitsForMutex s t ∧ (s.tcb t).priority ≠ priority)) :
    ∃ s', setCurrentPriority t priority s = some s' ∧ priorityPass t t priority s = .leave s' := by
  unfold setCurrentPriority priorityPass
  dsimp only
  by_cases hp : (s.tcb t).priority = priority
  · exact ⟨s, by simp [hp], by simp [hp]⟩
  by_cases hr : (s.tcb t).taskState = .runnable
  · exact ⟨changeRunningTaskPriority t priority s, by simp [hp, hr], by simp [hp, hr]⟩
  have hno : ¬WaitsForMutex s t := fun hw => h ⟨hw, hp⟩
  refine ⟨s.setTcb t fun b => { b with priority := priority }, ?_, ?_⟩
  · rw [if_neg hp, if_neg hr, if_neg (show ¬(_ ∧ _) from hno)]
  · rw [if_neg hp, if_neg hr]
    split
    · rename_i hw
      rw [if_neg fun hm => hno ⟨hw, hm⟩]
    · rfl

/-- The loop does not end. -/
theorem priorityLoop_none (h : WaitsForMutex s t) (hp : (s.tcb t).priority ≠ priority) (n : Nat) :
    priorityLoop task n t priority s = none := by
  induction n with
  | zero => rfl
  | succ n ih =>
    unfold priorityLoop
    rw [priorityPass_again h hp]
    exact ih

/-- **The loop and its result.** -/
theorem priorityLoop_eq (n : Nat) :
    priorityLoop t (n + 1) t priority s = setCurrentPriority t priority s := by
  by_cases h : WaitsForMutex s t ∧ (s.tcb t).priority ≠ priority
  · rw [priorityLoop_none h.1 h.2]
    unfold setCurrentPriority
    dsimp only
    rw [if_neg h.2, if_neg h.1.not_runnable, if_pos (show _ ∧ _ from h.1)]
  · obtain ⟨s', hs, hpass⟩ := priorityPass_leave h
    rw [hs]
    unfold priorityLoop
    rw [hpass]

/-- **Priority propagation ends** exactly when the task does not wait for a mutex, or has the priority
    already. -/
theorem priority_ends_iff (s : Sched) (task : TaskId) (priority : Nat) :
    PriorityEnds task priority s ↔ ¬WaitsForMutex s task ∨ (s.tcb task).priority = priority := by
  constructor
  · rintro ⟨n, hn⟩
    by_contra hc
    rw [not_or, not_not] at hc
    rw [priorityLoop_none hc.1 hc.2] at hn
    cases hn
  · intro h
    have hno : ¬(WaitsForMutex s task ∧ (s.tcb task).priority ≠ priority) := by
      rintro ⟨hw, hp⟩
      exact h.elim (absurd hw) hp
    obtain ⟨s', hs, -⟩ := priorityPass_leave hno
    refine ⟨1, ?_⟩
    rw [priorityLoop_eq, hs]
    rfl

/-- Task 2 holds mutex 0; task 3 has come behind it with a higher priority, holds mutex 1 and waits for
    mutex 0; task 4 with a still higher priority runs. -/
def mutexChain : List Event :=
  [.task (.create 2 8 true { startOnCreation := true }), .timerLoop, .switchContext,
    .task (.mutexCreate 0 .inherit 0), .task (.mutexCreate 1 .inherit 0),
    .task (.mutexLock 0 TN_WAIT_INFINITE),
    .task (.create 3 7 true { startOnCreation := true }), .switchContext,
    .task (.mutexLock 1 TN_WAIT_INFINITE), .task (.create 4 6 true {}), .task (.activate 4),
    .switchContext, .task (.sleep 1), .switchContext, .task (.mutexLock 0 TN_WAIT_INFINITE),
    .switchContext, .tick, .switchContext, .timerLoop, .switchContext, .back]

theorem mutexChain_isSome : (Machine.run kernelMachine (some Kernel.start) mutexChain).1.isSome = true := by
  decide +kernel

/-- `tn_mutex_lock` for mutex 1 does not return: it gives the priority of task 4 to task 3, which waits. -/
theorem mutex_chain_hangs :
    (∃ (es : List Event) (k : Kernel), Machine.Guarded kernelMachine Enabled (some Kernel.start) es ∧
      (Machine.run kernelMachine (some Kernel.start) es).1 = some k ∧ k.sch.currRunTask = 4 ∧
      (k.mutex 1).holder = some 3 ∧ (kernelStep k (.task (.mutexLock 1 TN_WAIT_INFINITE))).isSome = false) ∧
    ¬ ∀ (es : List Event) (k : Kernel) (task : TaskId) (priority : Nat),
      Machine.Guarded kernelMachine Enabled (some Kernel.start) es →
      (Machine.run kernelMachine (some Kernel.start) es).1 = some k → PriorityEnds task priority k.sch := by
  have hk := (Option.some_get mutexChain_isSome).symm
  have hg : Machine.Guarded kernelMachine Enabled (some Kernel.start) mutexChain := by decide +kernel
  refine ⟨⟨mutexChain, _, hg, hk, by decide +kernel, by decide +kernel, by decide +kernel⟩,
    fun hall => ?_⟩
  obtain ⟨n, hn⟩ := hall mutexChain _ 3 6 hg hk
  rw [priorityLoop_none ⟨by decide +kernel, by decide +kernel⟩ (by decide +kernel)] at hn
  cases hn

end TnKernel
