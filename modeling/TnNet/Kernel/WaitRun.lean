import TnNet.Kernel.SchedRun
import TnNet.Lib.Cdll

/-!
# Waiting tasks along every run

`WaitOk` — a task waits exactly when it sleeps or is in the wait list of the object its `pwait_queue`
points to, once and in no other one; a task is in `tn_wait_timeout_list` exactly when it waits with a
timeout.  `waits_ok` says so for every state of every run without mutexes.

The loop of the timer task walks over the links of `tn_wait_timeout_list` while `task_wait_complete`
takes the expired tasks out of it: `timerWalk` is that loop on the links, and in every state it does
what the fold over the list does.
-/

set_option autoImplicit false

namespace TnKernel

variable {s s' : Sched} {t u : TaskId} {k : Kernel}

/-! ## The fields of a control block -/

/-- The reason of a wait follows the state, and `pwait_queue` the reason. -/
structure Tcb.WaitFields (b : Tcb) : Prop where
  reason : b.taskState.isWait = true ↔ b.taskWaitReason ≠ none
  sleep : b.taskState.isWait = true → (b.taskWaitReason = some .sleep ↔ b.pwaitQueue = none)

/-- All control blocks are so. -/
def Fields (s : Sched) : Prop := ∀ t, (s.tcb t).WaitFields

theorem Fields.frame (h : Fields s) (hf : Frame t s s') (ht : (s'.tcb t).WaitFields) : Fields s' := by
  intro u
  rcases eq_or_ne u t with rfl | hu
  · exact ht
  · rw [hf.tcb u hu]
    exact h u

/-- A task that does not wait. -/
theorem waitFields_of_not_wait {b : Tcb} (hw : b.taskState.isWait = false)
    (hr : b.taskWaitReason = none) : b.WaitFields := by
  constructor
  · simp [hw, hr]
  · simp [hw]

theorem Tcb.WaitFields.reason_none {b : Tcb} (h : b.WaitFields) (hw : b.taskState.isWait = false) :
    b.taskWaitReason = none := by
  by_contra hr
  have := h.reason.mpr hr
  rw [hw] at this
  cases this

/-- The fields of the wait are the same. -/
theorem Tcb.WaitFields.congr {b b' : Tcb} (h : b.WaitFields) (hs : b'.taskState = b.taskState)
    (hr : b'.taskWaitReason = b.taskWaitReason) (hq : b'.pwaitQueue = b.pwaitQueue) :
    b'.WaitFields := by
  constructor
  · rw [hs, hr]
    exact h.reason
  · rw [hs, hr, hq]
    exact h.sleep

theorem Fields.setTcb (h : Fields s) (t : TaskId) {f : Tcb → Tcb} (hf : (f (s.tcb t)).WaitFields) :
    Fields (s.setTcb t f) := h.frame (frame_setTcb s t f) (by rw [setTcb_same]; exact hf)

/-- Other fields are written. -/
theorem Fields.keep (h : Fields s) (t : TaskId) {f : Tcb → Tcb}
    (hf : ∀ b, (f b).taskState = b.taskState ∧ (f b).taskWaitReason = b.taskWaitReason ∧
      (f b).pwaitQueue = b.pwaitQueue) : Fields (s.setTcb t f) := by
  obtain ⟨h1, h2, h3⟩ := hf (s.tcb t)
  exact h.setTcb t ((h t).congr h1 h2 h3)

theorem Fields.waitComplete (h : Fields s) (t : TaskId) (remove : Bool) :
    Fields (taskWaitComplete t remove s).2 := by
  refine h.frame (waitComplete_frame t remove s) (waitFields_of_not_wait ?_ ?_)
  · exact congrArg WaitView.wait (waitComplete_view t remove s)
  · unfold taskWaitComplete
    dsimp only
    rw [setTcb_same]

theorem Fields.toRunnable (h : Fields s) (hr : (s.tcb t).taskWaitReason = none) :
    Fields (taskToRunnable t s) := by
  refine h.frame (taskToRunnable_frame t s) ?_
  rw [taskToRunnable_tcb]
  exact waitFields_of_not_wait rfl hr

theorem Fields.block (h : Fields s) {waitQue : Option Que} {reason : WaitReason} {timeout : BitVec 32}
    (hp : (s.tcb s.currRunTask).pwaitQueue = none) (hq : reason = .sleep ↔ waitQue = none) :
    Fields (taskCurrToWaitAction waitQue reason timeout s) := by
  refine h.frame (taskCurrToWaitAction_frame waitQue reason timeout s) ?_
  rw [taskCurrToWaitAction_tcb waitQue reason timeout s hp]
  constructor
  · simp [TaskState.isWait]
  · exact fun _ => (by simpa using hq)

theorem Fields.dormant (h : Fields s) (t : TaskId) : Fields (taskSetDormantState t s) :=
  h.setTcb t (waitFields_of_not_wait rfl rfl)

theorem Fields.toNonRunnable (h : Fields s) (t : TaskId) : Fields (taskToNonRunnable t s) := by
  intro u
  rw [taskToNonRunnable_tcb]
  exact h u

theorem Fields.activateAgain (h : Fields s) (hr : (s.tcb t).taskWaitReason = none) :
    Fields (TnKernel.activateAgain t s) := by
  unfold TnKernel.activateAgain
  split
  · have h1 := h.setTcb t (f := fun b => { b with activateCount := b.activateCount - 1 })
      ((h t).congr rfl rfl rfl)
    refine h1.toRunnable ?_
    rw [setTcb_same]
    exact hr
  · exact h

/-! ## Services of tasks -/

theorem Fields.create (h : Fields s) (t : TaskId) (priority : Int) (argsOk : Bool) (opt : CreateOpt) :
    Fields (tnTaskCreate t priority argsOk opt s).2 := by
  unfold tnTaskCreate
  split
  · exact h
  split
  · exact h
  · have h1 := (h.setTcb t (f := fun b =>
      { b with basePriority := priority.toNat, activateCount := 0, idTask := true })
      ((h t).congr rfl rfl rfl)).dormant t
    dsimp only
    split
    · refine h1.toRunnable ?_
      unfold taskSetDormantState
      rw [setTcb_same]
    · exact h1

theorem Fields.suspend (h : Fields s) (t : TaskId) : Fields (tnTaskSuspend t s).2 := by
  unfold tnTaskSuspend
  dsimp only
  split
  · exact h
  split
  · exact h
  split
  · exact h
  rename_i hd
  split
  · rename_i hr
    refine (h.setTcb t (waitFields_of_not_wait rfl ?_)).toNonRunnable t
    exact (h t).reason_none (by rw [hr]; rfl)
  · rename_i hs hr
    dsimp only
    refine h.setTcb t ?_
    -- the task waits
    have hw : (s.tcb t).taskState = .wait := by
      cases hst : (s.tcb t).taskState with
      | wait => rfl
      | runnable => exact absurd hst hr
      | dormant => exact absurd hst hd
      | suspend =>
        rw [hst] at hs
        exact absurd rfl hs
      | waitsusp =>
        rw [hst] at hs
        exact absurd rfl hs
    constructor
    · have := (h t).reason
      rw [hw] at this
      exact this
    · have := (h t).sleep
      rw [hw] at this
      exact this

theorem Fields.resume (h : Fields s) (t : TaskId) : Fields (tnTaskResume t s).2 := by
  unfold tnTaskResume
  dsimp only
  split
  · exact h
  split
  · exact h
  rename_i hs
  split
  · rename_i hw
    exact h.toRunnable ((h t).reason_none (by simpa using hw))
  · rename_i hw
    dsimp only
    refine h.setTcb t ?_
    have hw' : (s.tcb t).taskState.isWait = true := by simpa using hw
    have h1 := (h t).reason
    have h2 := (h t).sleep
    rw [hw'] at h1 h2
    exact ⟨h1, h2⟩

theorem Fields.wakeup (h : Fields s) (t : TaskId) : Fields (tnTaskWakeup t s).2 := by
  unfold tnTaskWakeup
  dsimp only
  split
  · exact h
  split
  · exact h
  split
  · exact h.waitComplete t false
  split
  · dsimp only
    exact h.keep _ fun b => ⟨rfl, rfl, rfl⟩
  · exact h

theorem Fields.activate (h : Fields s) (t : TaskId) : Fields (tnTaskActivate t s).2 := by
  unfold tnTaskActivate
  dsimp only
  split
  · exact h
  split
  · rename_i hd
    exact h.toRunnable ((h t).reason_none (by rw [hd]; rfl))
  split
  · dsimp only
    exact h.keep _ fun b => ⟨rfl, rfl, rfl⟩
  · exact h

theorem Fields.releaseWait (h : Fields s) (t : TaskId) : Fields (tnTaskReleaseWait t s).2 := by
  unfold tnTaskReleaseWait
  dsimp only
  split
  · exact h
  split
  · exact h
  · exact h.waitComplete t true

theorem Fields.exit (h : Fields s) (attr : Bool) : Fields (tnTaskExit attr s) := by
  have h1 := ((h.toNonRunnable s.currRunTask).dormant s.currRunTask).activateAgain
    (t := s.currRunTask) (by unfold taskSetDormantState; rw [setTcb_same])
  unfold tnTaskExit tnSwitchContext
  dsimp only
  split
  · have h2 := h1.keep s.currRunTask (f := fun b => { b with idTask := false })
      fun b => ⟨rfl, rfl, rfl⟩
    exact h2
  · exact h1

theorem Fields.terminate (h : Fields s) (t : TaskId) : Fields (tnTaskTerminate t s).2 := by
  have h1 : Fields (terminateQueues t s) := by
    unfold terminateQueues
    split
    · exact h.toNonRunnable t
    split
    · intro u
      dsimp only
      rw [timerQueueRemove_tcb]
      exact h u
    · exact h
  unfold tnTaskTerminate
  dsimp only
  split
  · exact h
  split
  · exact h
  · exact (h1.dormant t).activateAgain (by unfold taskSetDormantState; rw [setTcb_same])

theorem Fields.changePriority (h : Fields s) (t : TaskId) (p : Int) :
    Fields (tnTaskChangePriority t p s).2 := by
  unfold tnTaskChangePriority
  dsimp only
  split
  · exact h
  split
  · exact h
  split
  · exact h
  split
  · refine h.frame (changeRunningTaskPriority_frame t _ s) ?_
    rw [changeRunningTaskPriority_tcb]
    exact (h t).congr rfl rfl rfl
  · dsimp only
    exact h.keep _ fun b => ⟨rfl, rfl, rfl⟩

theorem Fields.tick (h : Fields s) : Fields (tnTickIntProcessing s) := by
  have h1 : Fields (roundRobin s) := by
    unfold roundRobin
    dsimp only
    have h2 := h.setTcb s.currRunTask (f := fun b => { b with tsliceCount := b.tsliceCount + 1 })
      ((h _).congr rfl rfl rfl)
    split
    · exact h
    split
    · exact h2.setTcb s.currRunTask (f := fun b => { b with tsliceCount := 0 })
        ((h2 _).congr rfl rfl rfl)
    · exact h2
  rw [tnTickIntProcessing_eq]
  refine h1.frame (wakeTimer_frame _) ?_
  have h3 := setTcb_same (queueRemoveEntry timerTask (roundRobin s)) timerTask fun b =>
    { b with taskWaitReason := none, taskState := .runnable, pwaitQueue := none, taskWaitRc := .noErr }
  refine waitFields_of_not_wait ?_ ?_
  · exact congrArg (fun b => b.taskState.isWait) h3
  · exact congrArg Tcb.taskWaitReason h3

theorem Fields.timeoutTask (h : Fields s) (t : TaskId) : Fields (TnKernel.timeoutTask s t) := by
  unfold TnKernel.timeoutTask
  dsimp only
  have h1 := h.setTcb t (f := fun b => { b with tickCount := b.tickCount - 1 })
    ((h t).congr rfl rfl rfl)
  split
  · split
    · have h2 := h1.waitComplete t true
      exact h2.setTcb t ((h2 t).congr rfl rfl rfl)
    · exact h1
  · exact h

theorem Fields.timeouts (l : List TaskId) (h : Fields s) : Fields (l.foldl TnKernel.timeoutTask s) := by
  induction l generalizing s with
  | nil => exact h
  | cons t l ih => exact ih (h.timeoutTask t)

/-! ## Services of objects -/

theorem Fields.wakeHead (h : Fields k.sch) (q : Que) (t : TaskId) : Fields (k.wakeHead q t).sch := by
  have h1 : Fields (queueRemoveHead q k.sch) := h
  exact h1.waitComplete t false

theorem Fields.setDataElem (h : Fields k.sch) (t : TaskId) (data : Nat) :
    Fields (k.setDataElem t data).sch := by
  exact h.keep t (f := fun b => { b with dataElem := data }) fun b => ⟨rfl, rfl, rfl⟩

/-- The running task blocks in a wait list. -/
theorem Fields.blockIn (h : Fields k.sch) (hp : (k.sch.tcb k.sch.currRunTask).pwaitQueue = none)
    (c : Call) (q : Que) {reason : WaitReason} (hr : reason ≠ .sleep) (timeout : BitVec 32) :
    Fields (k.blockIn c q reason timeout).1.sch :=
  h.block hp (by simp [hr])

theorem fields_scanEvent (l : List TaskId) (pattern : BitVec 32) (b : Bool) {s : Sched}
    (hs : Fields s) : Fields (l.foldl (scanEventTask pattern) (b, s)).2 := by
  induction l generalizing b s with
  | nil => exact hs
  | cons t l ih =>
    rw [List.foldl_cons]
    have hstep : Fields (scanEventTask pattern (b, s) t).2 := by
      unfold scanEventTask
      dsimp only
      split
      · have h1 : Fields (queueRemoveEntry t s) := hs
        have h2 := h1.keep t (f := fun b => { b with ewaitPattern := pattern })
          fun b => ⟨rfl, rfl, rfl⟩
        exact h2.waitComplete t false
      · exact hs
    exact ih _ hstep

section Objects

variable (h : Fields k.sch)
include h

theorem fields_semSignal (i : Nat) : Fields (tnSemSignal i k).1.sch := by
  unfold tnSemSignal
  split
  · exact h
  split
  · exact h
  split
  · exact h.wakeHead _ _
  · split
    · exact h
    · exact h

theorem fields_semPolling (i : Nat) : Fields (tnSemPolling i k).1.sch := by
  unfold tnSemPolling
  repeat' split
  all_goals exact h

theorem fields_queueSend {onFull : Kernel → Res} (hf : Fields (onFull k).1.sch) (i data : Nat) :
    Fields (queueSend i data onFull k).1.sch := by
  unfold queueSend
  split
  · exact h
  split
  · exact (h.setDataElem _ data).wakeHead _ _
  · split
    · exact h
    · exact hf

theorem fields_queueReceive {onEmpty : Kernel → Res} (hf : Fields (onEmpty k).1.sch) (i : Nat) :
    Fields (queueReceive i onEmpty k).1.sch := by
  unfold queueReceive
  split
  · exact h
  dsimp only
  split
  · split
    · rename_i t l heq
      have h1 : Fields ((k.setDque i (dqueFifoRead (k.dque i)).2.2).setDque i (dqueFifoWrite
          ((k.setDque i (dqueFifoRead (k.dque i)).2.2).dque i)
          ((k.setDque i (dqueFifoRead (k.dque i)).2.2).sch.tcb t).dataElem).2).sch := h
      exact h1.wakeHead _ _
    · exact h
  · split
    · exact h.wakeHead _ _
    · exact hf

theorem fields_eventWait {onFalse : Kernel → Res} (hf : Fields (onFalse k).1.sch) (i : Nat)
    (pattern mode : BitVec 32) : Fields (eventWait i pattern mode onFalse k).1.sch := by
  unfold eventWait
  split
  · exact h
  split
  · exact h
  split
  · exact h
  split
  · dsimp only [Kernel.ret]
    split
    · exact h
    · exact h
  · exact hf

theorem fields_eventSet (i : Nat) (pattern : BitVec 32) : Fields (tnEventSet i pattern k).1.sch := by
  unfold tnEventSet
  split
  · exact h
  split
  · exact h
  dsimp only
  have h1 := fields_scanEvent (k.sch.que (.event i)) ((k.evf i).pattern ||| pattern) false h
  have h2 : Fields (scanEventWaitqueue i
      (k.setEvf i { k.evf i with pattern := (k.evf i).pattern ||| pattern })).2 := by
    unfold scanEventWaitqueue Kernel.setEvf
    dsimp only
    rw [Function.update_self]
    exact h1
  split
  · exact h2
  · exact h2

theorem fields_eventClear (i : Nat) (pattern : BitVec 32) :
    Fields (tnEventClear i pattern k).1.sch := by
  unfold tnEventClear
  split
  · exact h
  split
  · exact h
  · exact h

theorem fields_fmemGet {onEmpty : Kernel → Res} (hf : Fields (onEmpty k).1.sch) (i : Nat) :
    Fields (fmemGet i onEmpty k).1.sch := by
  unfold fmemGet
  split
  · exact h
  split
  · exact h
  · exact hf

theorem fields_fmemRelease (i block : Nat) : Fields (tnFmemRelease i block k).1.sch := by
  unfold tnFmemRelease
  split
  · exact h
  split
  · exact (h.setDataElem _ block).wakeHead _ _
  · dsimp only [Kernel.ret]
    split
    · exact h
    · exact h

theorem fields_fmemCreate (i startAddr blockSize : Nat) (numBlocks : Int) :
    Fields (tnFmemCreate i startAddr blockSize numBlocks k).1.sch := by
  unfold tnFmemCreate
  split
  · exact h
  split
  · exact h
  dsimp only
  split
  · exact h
  · exact h

end Objects

/-- A service of a mutex. -/
def Event.onMutex : Event → Bool
  | .task (.mutexCreate _ _ _) => true
  | .task (.mutexLock _ _) => true
  | .task (.mutexLockPolling _) => true
  | .task (.mutexUnlock _) => true
  | _ => false

/-- The running task is in no wait list. -/
theorem KInv.curr_pwait (hk : KInv k) (hr : (k.sch.tcb k.sch.currRunTask).taskState = .runnable) :
    (k.sch.tcb k.sch.currRunTask).pwaitQueue = none :=
  (hk.sch.ok _).pwait_none (by rw [hr]; rfl)

theorem Fields.delete (h : Fields s) (t : TaskId) : Fields (tnTaskDelete t s).2 := by
  unfold tnTaskDelete
  dsimp only
  split
  · exact h
  split
  · exact h
  · dsimp only
    exact h.keep _ fun b => ⟨rfl, rfl, rfl⟩

/-! The services that may block the running task. -/

section

variable (h : Fields k.sch) (hp : (k.sch.tcb k.sch.currRunTask).pwaitQueue = none)
include h hp

theorem fields_sleep (timeout : BitVec 32) : Fields (k.sleep timeout).1.sch := by
  unfold Kernel.sleep
  split
  · rename_i heq
    unfold tnTaskSleep at heq
    split at heq
    · cases heq
      exact h
    split at heq
    · cases heq
      have h1 := h.keep k.sch.currRunTask (f := fun b => { b with wakeupCount := b.wakeupCount - 1 })
        fun b => ⟨rfl, rfl, rfl⟩
      exact h1
    · cases heq
  · rename_i heq
    unfold tnTaskSleep at heq
    split at heq
    · cases heq
    split at heq
    · cases heq
    · cases heq
      exact h.block hp (by simp)

theorem fields_semAcquire (i : Nat) (timeout : BitVec 32) :
    Fields (tnSemAcquire i timeout k).1.sch := by
  unfold tnSemAcquire
  split
  · exact h
  split
  · exact h
  split
  · exact h
  · exact h.blockIn hp _ _ (by simp) timeout

theorem fields_tnQueueSend (i data : Nat) (timeout : BitVec 32) :
    Fields (tnQueueSend i data timeout k).1.sch := by
  unfold tnQueueSend
  split
  · exact h
  · refine fields_queueSend h ?_ i data
    refine (h.setDataElem _ data).blockIn ?_ _ _ (by simp) timeout
    have := setTcb_same k.sch k.sch.currRunTask fun b => { b with dataElem := data }
    exact (congrArg Tcb.pwaitQueue this).trans hp

theorem fields_tnEventWait (i : Nat) (pattern mode : BitVec 32) (timeout : BitVec 32) :
    Fields (tnEventWait i pattern mode timeout k).1.sch := by
  unfold tnEventWait
  split
  · exact h
  · refine fields_eventWait h ?_ i pattern mode
    have h1 := h.keep k.sch.currRunTask
      (f := fun b => { b with ewaitMode := mode, ewaitPattern := pattern }) fun b => ⟨rfl, rfl, rfl⟩
    refine h1.block ?_ (by simp)
    have := setTcb_same k.sch k.sch.currRunTask fun b =>
      { b with ewaitMode := mode, ewaitPattern := pattern }
    exact (congrArg Tcb.pwaitQueue this).trans hp

end

theorem fields_taskStep (hk : KInv k) (h : Fields k.sch) {sv : Service}
    (hr : (k.sch.tcb k.sch.currRunTask).taskState = .runnable)
    (hm : (Event.task sv).onMutex = false) {r : Res} (hs : taskStep k sv = some r) :
    Fields r.1.sch := by
  have hp := hk.curr_pwait hr
  cases sv with
  | create t priority argsOk opt =>
    simp only [taskStep] at hs
    split at hs
    · cases hs
      exact h.create t priority argsOk opt
    · cases hs
      exact h.create t priority argsOk opt
  | suspend t => cases hs; exact h.suspend t
  | resume t => cases hs; exact h.resume t
  | sleep timeout =>
    cases hs
    exact fields_sleep h hp timeout
  | wakeup t => cases hs; exact h.wakeup t
  | activate t => cases hs; exact h.activate t
  | releaseWait t => cases hs; exact h.releaseWait t
  | exit attr => cases hs; exact h.exit attr
  | terminate t =>
    cases hs
    unfold Kernel.terminate
    dsimp only
    split
    · exact h.terminate t
    · exact h.terminate t
  | delete t =>
    cases hs
    exact h.delete t
  | changePriority t priority => cases hs; exact h.changePriority t priority
  | tsliceTicks priority value =>
    cases hs
    show Fields (tnSysTsliceTicks priority value k.sch).2
    unfold tnSysTsliceTicks
    split
    · exact h
    · exact h
  | semCreate i startValue maxVal =>
    cases hs
    unfold tnSemCreate
    split
    · exact h
    · exact h
  | semSignal i => cases hs; exact fields_semSignal h i
  | semAcquire i timeout =>
    cases hs
    exact fields_semAcquire h hp i timeout
  | semPolling i => cases hs; exact fields_semPolling h i
  | queueCreate i hasFifo numEntries =>
    cases hs
    unfold tnQueueCreate
    split
    · exact h
    · exact h
  | queueSend i data timeout =>
    cases hs
    exact fields_tnQueueSend h hp i data timeout
  | queueSendPolling i data => cases hs; exact fields_queueSend h h i data
  | queueReceive i timeout =>
    cases hs
    unfold tnQueueReceive
    split
    · exact h
    · exact fields_queueReceive h (h.blockIn hp _ _ (by simp) timeout) i
  | queueReceivePolling i => cases hs; exact fields_queueReceive h h i
  | eventCreate i attr pattern =>
    cases hs
    unfold tnEventCreate
    split
    · exact h
    dsimp only
    split
    · exact h
    · exact h
  | eventWait i pattern mode timeout =>
    cases hs
    exact fields_tnEventWait h hp i pattern mode timeout
  | eventWaitPolling i pattern mode => cases hs; exact fields_eventWait h h i pattern mode
  | eventSet i pattern => cases hs; exact fields_eventSet h i pattern
  | eventClear i pattern => cases hs; exact fields_eventClear h i pattern
  | fmemCreate i startAddr blockSize numBlocks =>
    cases hs
    exact fields_fmemCreate h i startAddr blockSize numBlocks
  | fmemGet i timeout =>
    cases hs
    unfold tnFmemGet
    split
    · exact h
    · exact fields_fmemGet h (h.blockIn hp _ _ (by simp) timeout) i
  | fmemGetPolling i => cases hs; exact fields_fmemGet h h i
  | fmemRelease i block => cases hs; exact fields_fmemRelease h i block
  | mutexCreate => cases hm
  | mutexLock => cases hm
  | mutexLockPolling => cases hm
  | mutexUnlock => cases hm

theorem fields_isrStep (h : Fields k.sch) (sv : IService) : Fields (isrStep k sv).1.sch := by
  cases sv with
  | iwakeup t => exact h.wakeup t
  | iactivate t => exact h.activate t
  | ireleaseWait t => exact h.releaseWait t
  | semIsignal i => exact fields_semSignal h i
  | semIpolling i => exact fields_semPolling h i
  | queueIsendPolling i data => exact fields_queueSend h h i data
  | queueIreceive i => exact fields_queueReceive h h i
  | eventIwait i pattern mode => exact fields_eventWait h h i pattern mode
  | eventIset i pattern => exact fields_eventSet h i pattern
  | eventIclear i pattern => exact fields_eventClear h i pattern
  | fmemGetIpolling i => exact fields_fmemGet h h i
  | fmemIrelease i block => exact fields_fmemRelease h i block

/-- **A step keeps the fields.** -/
theorem fields_kernelStep (hk : KInv k) (h : Fields k.sch) {ev : Event} (he : Enabled k ev)
    (hm : ev.onMutex = false) {r : Res} (hs : kernelStep k ev = some r) : Fields r.1.sch := by
  cases ev with
  | task sv => exact fields_taskStep hk h he.1 hm hs
  | isr sv => cases hs; exact fields_isrStep h sv
  | tick => cases hs; exact h.tick
  | timerLoop =>
    cases hs
    have h1 := h.timeouts k.sch.waitTimeoutList
    show Fields (timerTaskLoop k.sch)
    unfold timerTaskLoop
    refine h1.block ?_ (by simp)
    obtain ⟨hc, hr⟩ := he
    have hnot : timerTask ∉ k.sch.waitTimeoutList := by
      intro hmem
      exact ((hk.sch.ok timerTask).timeouts.mp hmem).2 ((hk.sch.ok timerTask).timer rfl).2.1
    obtain ⟨hf1, hf2⟩ := timeouts_frame k.sch.waitTimeoutList k.sch hnot
    rw [hf2, hc, hf1]
    exact ((hk.sch.ok timerTask).timer rfl).1
  | switchContext => cases hs; exact h
  | back =>
    cases hs
    unfold Kernel.back
    dsimp only
    split
    · exact h
    · exact h

/-! ## The loop of the timer task -/

/-- The entries of `tn_wait_timeout_list`: its head and the `timer_queue` of a task. -/
inductive TimerNode where
  | head
  | entry (t : TaskId)
  deriving DecidableEq

open Cdll (Links IsRing)

/-- The loop body on the links: an expired task is taken out of the list. -/
def timerBody : TimerNode → Sched × Links TimerNode → Sched × Links TimerNode
  | .head, x => x
  | .entry t, x =>
    (timeoutTask x.1 t, if expires (x.1.tcb t) then x.2.removeEntry (.entry t) else x.2)

/-- The loop over `tn_wait_timeout_list` in `tn_timer_task_func`; `n` bounds its turns. -/
def timerWalk (n : Nat) (s : Sched) (L : Links TimerNode) : Sched × Links TimerNode :=
  if L.next .head = .head then (s, L)
  else Cdll.walk Prod.snd timerBody .head n (L.next .head) (s, L)

theorem taskToRunnable_timeouts (t : TaskId) (s : Sched) :
    (taskToRunnable t s).waitTimeoutList = s.waitTimeoutList := by
  unfold taskToRunnable
  dsimp only
  split <;> rfl

theorem waitComplete_timeouts (t : TaskId) (s : Sched) :
    (taskWaitComplete t true s).2.waitTimeoutList =
      if (s.tcb t).tickCount = TN_WAIT_INFINITE then s.waitTimeoutList
      else s.waitTimeoutList.erase t := by
  have h1 : ((queueRemoveEntry t s).setTcb t fun b =>
      { b with pwaitQueue := none, taskWaitRc := .noErr }).tcb t =
        { s.tcb t with pwaitQueue := none, taskWaitRc := .noErr } := by
    rw [setTcb_same]
    rfl
  unfold taskWaitComplete
  dsimp only
  rw [setTcb_timeouts, if_pos rfl]
  split
  · rw [taskToRunnable_timeouts, setTcb_timeouts, timerQueueRemove, h1]
    split <;> rfl
  · rw [setTcb_timeouts, setTcb_timeouts, timerQueueRemove, h1]
    split <;> rfl

/-- The list of timeouts behind one turn of the loop. -/
theorem timeoutTask_timeouts (s : Sched) (t : TaskId) : (timeoutTask s t).waitTimeoutList =
    if expires (s.tcb t) then s.waitTimeoutList.erase t else s.waitTimeoutList := by
  unfold timeoutTask expires
  dsimp only
  by_cases ht : ticks (s.tcb t) = true
  · rw [if_pos ht, setTcb_same]
    by_cases h0 : (s.tcb t).tickCount - 1 = 0
    · have hinf : ((s.setTcb t fun b => { b with tickCount := b.tickCount - 1 }).tcb t).tickCount ≠
          TN_WAIT_INFINITE := by
        rw [setTcb_same]
        dsimp only
        rw [h0]
        decide
      rw [if_pos h0, if_pos (by rw [ht, decide_eq_true h0]; rfl), setTcb_timeouts,
        waitComplete_timeouts, if_neg hinf]
      rfl
    · rw [if_neg h0, if_neg (by rw [ht, decide_eq_false h0]; simp)]
      rfl
  · rw [if_neg ht, if_neg (by simp [ht])]

/-- The ring of the timeouts. -/
def TimerRing (s : Sched) (L : Links TimerNode) : Prop :=
  IsRing L .head (s.waitTimeoutList.map .entry)

theorem foldl_timerBody (l : List TaskId) (x : Sched × Links TimerNode) :
    ((l.map TimerNode.entry).foldl (fun x c => timerBody c x) x).1 = l.foldl timeoutTask x.1 := by
  induction l generalizing x with
  | nil => rfl
  | cons t l ih =>
    rw [List.map_cons, List.foldl_cons, ih, List.foldl_cons]
    rfl

/-- One turn of the loop. -/
theorem timerBody_ok {x : Sched × Links TimerNode} (h : SInv none x.1) (hL : TimerRing x.1 x.2)
    (ht : t ∈ x.1.waitTimeoutList) : SInv none (timerBody (.entry t) x).1 ∧
      TimerRing (timerBody (.entry t) x).1 (timerBody (.entry t) x).2 ∧
      (timerBody (.entry t) x).2.next (.entry t) = x.2.next (.entry t) := by
  have hinj : Function.Injective TimerNode.entry := fun a b hab => by cases hab; rfl
  refine ⟨h.timeoutTask ((h.ok t).timeouts.mp ht).1, ?_⟩
  unfold TimerRing timerBody
  dsimp only
  rw [timeoutTask_timeouts]
  split
  · obtain ⟨h1, h2⟩ := hL.removeEntry (List.mem_map_of_mem ht)
    rw [List.map_erase hinj]
    exact ⟨h1, h2⟩
  · exact ⟨hL, rfl⟩

/-- **The loop on the links visits the tasks of the list**, each of them once, and leaves the links of
    the list it leaves. -/
theorem timerWalk_eq (h : SInv none s) {L : Links TimerNode} (hL : TimerRing s L) {n : Nat}
    (hn : s.waitTimeoutList.length ≤ n) :
    (timerWalk n s L).1 = s.waitTimeoutList.foldl timeoutTask s ∧
      TimerRing (timerWalk n s L).1 (timerWalk n s L).2 := by
  have hring := hL
  unfold timerWalk
  cases hl : s.waitTimeoutList with
  | nil =>
    unfold TimerRing at hring
    rw [hl] at hring
    have hnext : L.next .head = .head := hring.2.1
    rw [if_pos hnext]
    exact ⟨rfl, hL⟩
  | cons t l =>
    unfold TimerRing at hring
    rw [hl] at hring hn
    have hnext : L.next .head = .entry t := hring.2.1.1
    rw [hnext, if_neg (by simp)]
    have hstart : IsRing (Prod.snd (s, L)) .head ([] ++ .entry t :: l.map .entry) := hring
    have hwalk := Cdll.walk_eq_foldl Prod.snd timerBody
      (fun x => SInv none x.1 ∧ TimerRing x.1 x.2) ?_ ⟨h, hL⟩ hstart
      (n := n) (by rw [List.length_map]; exact hn)
    · obtain ⟨h1, h2, -⟩ := hwalk
      refine ⟨?_, h2.2⟩
      rw [h1]
      exact foldl_timerBody (t :: l) (s, L)
    · rintro c x nodes ⟨hx, hxL⟩ hr hc
      have heq := Cdll.IsRing.unique hr hxL
      rw [heq] at hc
      obtain ⟨u, hu, rfl⟩ := List.mem_map.mp hc
      obtain ⟨h1, h2, h3⟩ := timerBody_ok hx hxL hu
      refine ⟨⟨h1, h2⟩, h3, ?_⟩
      rw [heq]
      have hinj : Function.Injective TimerNode.entry := fun a b hab => by cases hab; rfl
      have hlist : (timerBody (.entry u) x).1.waitTimeoutList = _ := timeoutTask_timeouts x.1 u
      unfold TimerRing at h2
      rw [hlist] at h2
      split at h2
      · rw [List.map_erase hinj] at h2
        exact .inr h2
      · exact .inl h2

/-! ## Runs -/

/-- Where the waiting tasks are. -/
structure WaitOk (k : Kernel) : Prop where
  /-- A task waits when it sleeps or is in the list of the object it waits for, once. -/
  waits : ∀ t, (k.sch.tcb t).taskState.isWait = true ↔
    ((k.sch.tcb t).taskWaitReason = some .sleep ∧ (k.sch.tcb t).pwaitQueue = none) ∨
    ∃ q, (k.sch.tcb t).pwaitQueue = some q ∧ q.isReady = false ∧ k.live q = true ∧
      (k.sch.que q).count t = 1
  /-- It is in no other list, and a task that does not wait is in none. -/
  lists : ∀ t q, q.isReady = false → t ∈ k.sch.que q →
    (k.sch.tcb t).taskState.isWait = true ∧ (k.sch.tcb t).pwaitQueue = some q
  /-- A task is in the list of the timeouts when it waits with a timeout, once. -/
  timeouts : ∀ t, k.sch.waitTimeoutList.count t =
    if (k.sch.tcb t).taskState.isWait = true ∧ (k.sch.tcb t).tickCount ≠ TN_WAIT_INFINITE then 1 else 0
  /-- The tick visits every task of that list once. -/
  tick : ∀ (L : Links TimerNode) (n : Nat), TimerRing k.sch L → k.sch.waitTimeoutList.length ≤ n →
    (timerWalk n k.sch L).1 = k.sch.waitTimeoutList.foldl timeoutTask k.sch ∧
      TimerRing (timerWalk n k.sch L).1 (timerWalk n k.sch L).2

theorem KInv.waitOk (hk : KInv k) (h : Fields k.sch) : WaitOk k := by
  have hlists : ∀ t q, q.isReady = false → t ∈ k.sch.que q →
      (k.sch.tcb t).taskState.isWait = true ∧ (k.sch.tcb t).pwaitQueue = some q := by
    intro t q hq ht
    have hp := ((hk.sch.ok t).waits q hq).mp ht
    exact ⟨((hk.sch.ok t).wait q hp).1, hp⟩
  constructor
  case waits =>
    intro t
    constructor
    · intro hw
      cases hp : (k.sch.tcb t).pwaitQueue with
      | none => exact .inl ⟨((h t).sleep hw).mpr hp, rfl⟩
      | some q =>
        have hq := ((hk.sch.ok t).wait q hp).2
        refine .inr ⟨q, rfl, hq, hk.live t q hp, ?_⟩
        exact List.count_eq_one_of_mem (hk.sch.nodup q) (((hk.sch.ok t).waits q hq).mpr hp)
    · rintro (⟨hr, -⟩ | ⟨q, hp, hq, -, -⟩)
      · exact (h t).reason.mpr (by rw [hr]; simp)
      · exact ((hk.sch.ok t).wait q hp).1
  case lists => exact hlists
  case timeouts =>
    intro t
    split
    · rename_i ht
      exact List.count_eq_one_of_mem hk.sch.timeoutsNodup ((hk.sch.ok t).timeouts.mpr ht)
    · rename_i ht
      exact List.count_eq_zero_of_not_mem fun hm => ht ((hk.sch.ok t).timeouts.mp hm)
  case tick => exact fun L n hL hn => timerWalk_eq hk.sch hL hn

theorem fields_start : Fields Kernel.start.sch := by
  intro t
  by_cases h0 : t = timerTask
  · rw [h0]
    exact waitFields_of_not_wait rfl rfl
  by_cases h1 : t = idleTask
  · rw [h1]
    exact waitFields_of_not_wait rfl rfl
  · have hb : Kernel.start.sch.tcb t = {} := start_tcb h0 h1
    rw [hb]
    exact waitFields_of_not_wait rfl rfl

/-- **Waiting tasks.**  In every state of every run without mutexes in which no task exits with a
    deletion while an activation request is pending. -/
theorem waits_ok (es : List Event) (k : Kernel)
    (hg : Machine.Guarded kernelMachine
      (fun k ev => Enabled k ev ∧ ExitOk k ev ∧ ev.onMutex = false) (some Kernel.start) es)
    (hk : (Machine.run kernelMachine (some Kernel.start) es).1 = some k) : WaitOk k := by
  have hinv := (Machine.run_invariant (fun k => KInv k ∧ Fields k.sch) (fun _ => True) ?_ ?_ hg).1 k hk
  · exact hinv.1.waitOk hinv.2
  · rintro k ev ⟨h1, h2⟩ ⟨he, hx, hm⟩
    refine ⟨fun k' hk' => ?_, fun _ _ => trivial⟩
    obtain ⟨r, hr, rfl⟩ := Option.map_eq_some_iff.mp hk'
    exact ⟨h1.step he hx hr, fields_kernelStep h1 h2 he hm hr⟩
  · intro k hk
    cases hk
    exact ⟨KInv.start, fields_start⟩

/-- Task 2 waits for a semaphore with a timeout and task 3 sleeps; task 2 is suspended by an interrupt
    of the tick before its timeout. -/
def waitRun : List Event :=
  twoTasks ++ [.task (.semCreate 0 0 1), .task (.semAcquire 0 2), .switchContext,
    .task (.suspend 2), .task (.sleep 10), .tick, .switchContext, .timerLoop]

theorem waitRun_isSome : (Machine.run kernelMachine (some Kernel.start) waitRun).1.isSome = true := by
  decide +kernel

theorem waits_ok_suspended :
    WaitOk ((Machine.run kernelMachine (some Kernel.start) waitRun).1.get waitRun_isSome) ∧
      ((Machine.run kernelMachine (some Kernel.start) waitRun).1.get
        waitRun_isSome).sch.waitTimeoutList = [2, 3] := by
  refine ⟨waits_ok waitRun _ ?_ (Option.some_get waitRun_isSome).symm, by decide +kernel⟩
  decide +kernel

end TnKernel
