import TnNet.Kernel.Waits

/-!
# The end of a wait

What `task_wait_complete` does to the control block of its task, to the wait lists and to the list of
timeouts, in any state of the scheduler.
-/

set_option autoImplicit false

namespace TnKernel

variable {s : Sched} {t u : TaskId} {remove : Bool} {q : Que}

/-- The control block of a task whose wait has ended. -/
def Tcb.released (b : Tcb) : Tcb :=
  { b with
    pwaitQueue := none
    taskWaitRc := .noErr
    tickCount := TN_WAIT_INFINITE
    taskState := if b.taskState.isSuspend then .suspend else .runnable
    taskWaitReason := none }

@[simp] theorem released_isWait (b : Tcb) : b.released.taskState.isWait = false := by
  unfold Tcb.released
  dsimp only
  split <;> rfl

theorem taskToRunnable_que (hq : q.isReady = false) : (taskToRunnable t s).que q = s.que q := by
  have hne : q ≠ .ready (s.tcb t).priority := by
    rintro rfl
    cases hq
  unfold taskToRunnable queueAddTail
  dsimp only
  split <;> simp [Function.update_of_ne hne]

/-- The state behind the first assignments of `task_wait_complete`. -/
theorem waitComplete_entry (t : TaskId) (remove : Bool) (s : Sched) :
    (if remove then queueRemoveEntry t s else s).tcb = s.tcb ∧
      ∀ q, (if remove then queueRemoveEntry t s else s).que q = if remove then (s.que q).erase t
      else s.que q := by
  cases remove
  · exact ⟨rfl, fun _ => rfl⟩
  · exact ⟨rfl, fun _ => rfl⟩

theorem waitComplete_spec (t : TaskId) (remove : Bool) (s : Sched) :
    (taskWaitComplete t remove s).1 = !(s.tcb t).taskState.isSuspend ∧
      (taskWaitComplete t remove s).2.tcb t = (s.tcb t).released ∧
      ∀ q, q.isReady = false →
        (taskWaitComplete t remove s).2.que q = if remove then (s.que q).erase t else s.que q := by
  obtain ⟨h1, h2⟩ := waitComplete_entry t remove s
  unfold taskWaitComplete Tcb.released
  dsimp only
  generalize (if remove then queueRemoveEntry t s else s) = s₁ at h1 h2 ⊢
  have hstate : ((timerQueueRemove t (s₁.setTcb t fun b =>
      { b with pwaitQueue := none, taskWaitRc := .noErr })).setTcb t fun b =>
        { b with tickCount := TN_WAIT_INFINITE }).tcb t =
      { s.tcb t with pwaitQueue := none, taskWaitRc := .noErr, tickCount := TN_WAIT_INFINITE } := by
    rw [setTcb_same, timerQueueRemove_tcb, setTcb_same, h1]
  have hque : ∀ q, ((timerQueueRemove t (s₁.setTcb t fun b =>
      { b with pwaitQueue := none, taskWaitRc := .noErr })).setTcb t fun b =>
        { b with tickCount := TN_WAIT_INFINITE }).que q = s₁.que q := by
    intro q
    rw [setTcb_que, timerQueueRemove_que, setTcb_que]
  generalize (timerQueueRemove t (s₁.setTcb t fun b =>
    { b with pwaitQueue := none, taskWaitRc := .noErr })).setTcb t
      (fun b => { b with tickCount := TN_WAIT_INFINITE }) = s₂ at hstate hque ⊢
  refine ⟨by rw [hstate], ?_, fun q hq => ?_⟩
  · rw [setTcb_same, hstate]
    cases hs : (s.tcb t).taskState.isSuspend
    · simp [taskToRunnable_tcb, hstate]
    · simp [hstate]
  · rw [setTcb_que, ← h2, ← hque]
    split
    · exact taskToRunnable_que hq
    · rfl

@[simp] theorem waitComplete_fst : (taskWaitComplete t remove s).1 = !(s.tcb t).taskState.isSuspend :=
  (waitComplete_spec t remove s).1

@[simp] theorem waitComplete_self : (taskWaitComplete t remove s).2.tcb t = (s.tcb t).released :=
  (waitComplete_spec t remove s).2.1

theorem waitComplete_que (hq : q.isReady = false) :
    (taskWaitComplete t remove s).2.que q = if remove then (s.que q).erase t else s.que q :=
  (waitComplete_spec t remove s).2.2 q hq

theorem waitComplete_ne (hu : u ≠ t) : (taskWaitComplete t remove s).2.tcb u = s.tcb u :=
  (waitComplete_frame t remove s).tcb u hu

@[simp] theorem waitComplete_curr : (taskWaitComplete t remove s).2.currRunTask = s.currRunTask :=
  (waitComplete_frame t remove s).curr

end TnKernel
