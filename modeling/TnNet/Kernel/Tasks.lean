import TnNet.Kernel.Defs

/-!
# Task services and the system tick

The services of `tn_tasks.c` and the two halves of the tick in `tn.c`: `tn_tick_int_processing`,
which the timer interrupt calls, and the loop body of `tn_timer_task_func`.  A service returns its
code and the new state; a service that may block returns no code when it does.
-/

set_option autoImplicit false

namespace TnKernel

/-- What a service leaves; `none` is a call that has blocked. -/
abbrev Ret := Option Terr × Sched

/-! ## `tn_tasks.c` -/

/-- The options of `tn_task_create`. -/
structure CreateOpt where
  startOnCreation : Bool := false
  timer : Bool := false
  idle : Bool := false

/-- `tn_task_create`; `argsOk` stands for the tests of the pointers and of the stack size. -/
def tnTaskCreate (t : TaskId) (priority : Int) (argsOk : Bool) (opt : CreateOpt) (s : Sched) :
    Terr × Sched :=
  if (priority = 0 ∧ !opt.timer) ∨ (priority = TN_NUM_PRIORITY - 1 ∧ !opt.idle) then
    (.wrongParam, s)
  else if priority < 0 ∨ (TN_NUM_PRIORITY : Int) - 1 < priority ∨ !argsOk ∨ (s.tcb t).idTask then
    (.wrongParam, s)
  else
    let s := s.setTcb t fun b =>
      { b with basePriority := priority.toNat, activateCount := 0, idTask := true }
    let s := taskSetDormantState t s
    (.noErr, if opt.startOnCreation then taskToRunnable t s else s)

/-- `tn_task_suspend`. -/
def tnTaskSuspend (t : TaskId) (s : Sched) : Terr × Sched :=
  let b := s.tcb t
  if !b.idTask then (.noexs, s)
  else if b.taskState.isSuspend then (.overflow, s)
  else if b.taskState = .dormant then (.wstate, s)
  else if b.taskState = .runnable then
    (.noErr, taskToNonRunnable t (s.setTcb t fun b => { b with taskState := .suspend }))
  else (.noErr, s.setTcb t fun b => { b with taskState := .waitsusp })

/-- `tn_task_resume`. -/
def tnTaskResume (t : TaskId) (s : Sched) : Terr × Sched :=
  let b := s.tcb t
  if !b.idTask then (.noexs, s)
  else if !b.taskState.isSuspend then (.wstate, s)
  else if !b.taskState.isWait then (.noErr, taskToRunnable t s)
  else (.noErr, s.setTcb t fun b => { b with taskState := .wait })

/-- `tn_task_sleep`. -/
def tnTaskSleep (timeout : BitVec 32) (s : Sched) : Ret :=
  if timeout = 0 then (some .wrongParam, s)
  else if 0 < (s.tcb s.currRunTask).wakeupCount then
    (some .noErr, s.setTcb s.currRunTask fun b => { b with wakeupCount := b.wakeupCount - 1 })
  else (none, taskCurrToWaitAction none .sleep timeout s)

/-- `tn_task_wakeup`: a request for a task that does not sleep is counted at the running task. -/
def tnTaskWakeup (t : TaskId) (s : Sched) : Terr × Sched :=
  let b := s.tcb t
  if !b.idTask then (.noexs, s)
  else if b.taskState = .dormant then (.wcontext, s)
  else if b.taskState.isWait ∧ b.taskWaitReason = some .sleep then
    (.noErr, (taskWaitComplete t false s).2)
  else if (s.tcb s.currRunTask).wakeupCount = 0 then
    (.noErr, s.setTcb s.currRunTask fun b => { b with wakeupCount := b.wakeupCount + 1 })
  else (.overflow, s)

/-- `tn_task_iwakeup`. -/
def tnTaskIwakeup (t : TaskId) (s : Sched) : Terr × Sched := tnTaskWakeup t s

/-- `tn_task_activate`. -/
def tnTaskActivate (t : TaskId) (s : Sched) : Terr × Sched :=
  let b := s.tcb t
  if !b.idTask then (.noexs, s)
  else if b.taskState = .dormant then (.noErr, taskToRunnable t s)
  else if b.activateCount = 0 then
    (.noErr, s.setTcb t fun b => { b with activateCount := b.activateCount + 1 })
  else (.overflow, s)

/-- `tn_task_iactivate`. -/
def tnTaskIactivate (t : TaskId) (s : Sched) : Terr × Sched := tnTaskActivate t s

/-- `tn_task_release_wait`. -/
def tnTaskReleaseWait (t : TaskId) (s : Sched) : Terr × Sched :=
  let b := s.tcb t
  if !b.idTask then (.noexs, s)
  else if !b.taskState.isWait then (.wcontext, s)
  else (.noErr, (taskWaitComplete t true s).2)

/-- `tn_task_irelease_wait`. -/
def tnTaskIreleaseWait (t : TaskId) (s : Sched) : Terr × Sched := tnTaskReleaseWait t s

/-- A pending activation request makes the dormant task runnable again. -/
def activateAgain (t : TaskId) (s : Sched) : Sched :=
  if 0 < (s.tcb t).activateCount then
    taskToRunnable t (s.setTcb t fun b => { b with activateCount := b.activateCount - 1 })
  else s

/-- `tn_switch_context`. -/
def tnSwitchContext (s : Sched) : Sched :=
  { s with currRunTask := s.nextTaskToRun.getD s.currRunTask }

/-- `tn_task_exit`; `attr` is the test `attr == TN_EXIT_AND_DELETE_TASK`. -/
def tnTaskExit (attr : Bool) (s : Sched) : Sched :=
  let t := s.currRunTask
  let s := taskToNonRunnable t s
  let s := activateAgain t (taskSetDormantState t s)
  let s := if attr then s.setTcb t fun b => { b with idTask := false } else s
  tnSwitchContext s

/-- The queues a terminated task is taken out of. -/
def terminateQueues (t : TaskId) (s : Sched) : Sched :=
  if (s.tcb t).taskState = .runnable then taskToNonRunnable t s
  else if (s.tcb t).taskState.isWait then
    let s := queueRemoveEntry t s
    -- `queue_contains_entry` comes to the end of a ring in which each node is linked once
    timerQueueRemove t { s with blockedTasksList := s.blockedTasksList.erase t }
  else s

/-- `tn_task_terminate`. -/
def tnTaskTerminate (t : TaskId) (s : Sched) : Terr × Sched :=
  let b := s.tcb t
  if !b.idTask then (.noexs, s)
  else if b.taskState = .dormant ∨ s.currRunTask = t then (.wcontext, s)
  else (.noErr, activateAgain t (taskSetDormantState t (terminateQueues t s)))

/-- `tn_task_delete`. -/
def tnTaskDelete (t : TaskId) (s : Sched) : Terr × Sched :=
  let b := s.tcb t
  if !b.idTask then (.noexs, s)
  else if b.taskState ≠ .dormant then (.wcontext, s)
  else (.noErr, s.setTcb t fun b => { b with idTask := false })

/-- `tn_task_change_priority`. -/
def tnTaskChangePriority (t : TaskId) (newPriority : Int) (s : Sched) : Terr × Sched :=
  let b := s.tcb t
  if !b.idTask then (.noexs, s)
  else if newPriority < 0 ∨ (TN_NUM_PRIORITY : Int) - 2 < newPriority then (.wrongParam, s)
  else
    let newPriority := if newPriority = 0 then b.basePriority else newPriority.toNat
    if b.taskState = .dormant then (.wcontext, s)
    else if b.taskState = .runnable then (.noErr, changeRunningTaskPriority t newPriority s)
    else (.noErr, s.setTcb t fun b => { b with priority := newPriority })

/-! ## `tn.c` -/

/-- `tn_sys_tslice_ticks`. -/
def tnSysTsliceTicks (priority value : Int) (s : Sched) : Terr × Sched :=
  if priority ≤ 0 ∨ (TN_NUM_PRIORITY : Int) - 1 ≤ priority ∨ value < 0 ∨ 0xFFFE < value then
    (.wrongParam, s)
  else (.noErr, { s with tsliceTicks := Function.update s.tsliceTicks priority.toNat value.toNat })

/-- The last task of a ready list comes to its head, when there are two or more. -/
def rotate (l : List TaskId) : List TaskId :=
  if 2 ≤ l.length then l.drop (l.length - 1) ++ l.take (l.length - 1) else l

/-- Round-robin at the priority of the running task. -/
def roundRobin (s : Sched) : Sched :=
  let priority := (s.tcb s.currRunTask).priority
  if s.tsliceTicks priority = 0 then s
  else
    let s := s.setTcb s.currRunTask fun b => { b with tsliceCount := b.tsliceCount + 1 }
    if s.tsliceTicks priority < (s.tcb s.currRunTask).tsliceCount then
      let s := s.setTcb s.currRunTask fun b => { b with tsliceCount := 0 }
      { s with que := Function.update s.que (.ready priority) (rotate (s.que (.ready priority))) }
    else s

/-- `tn_tick_int_processing`. -/
def tnTickIntProcessing (s : Sched) : Sched :=
  let s := queueRemoveEntry timerTask (roundRobin s)
  let s := s.setTcb timerTask fun b =>
    { b with
      taskWaitReason := none, taskState := .runnable, pwaitQueue := none, taskWaitRc := .noErr }
  let s := queueAddTail (.ready 0) timerTask s
  { s with
    readyToRunBmp := s.readyToRunBmp ||| BitVec.twoPow 32 0
    nextTaskToRun := some timerTask }

/-- Does the counter of this task run? -/
def ticks (b : Tcb) : Bool := decide (0 < b.tickCount.toInt) && decide (b.tickCount ≠ TN_WAIT_INFINITE)

/-- One task of `tn_wait_timeout_list` in the loop of the timer task. -/
def timeoutTask (s : Sched) (t : TaskId) : Sched :=
  if ticks (s.tcb t) then
    let s := s.setTcb t fun b => { b with tickCount := b.tickCount - 1 }
    if (s.tcb t).tickCount = 0 then
      (taskWaitComplete t true s).2.setTcb t fun b => { b with taskWaitRc := .timeout }
    else s
  else s

/-- The loop body of `tn_timer_task_func`. -/
def timerTaskLoop (s : Sched) : Sched :=
  taskCurrToWaitAction none .sleep TN_WAIT_INFINITE (s.waitTimeoutList.foldl timeoutTask s)

end TnKernel
