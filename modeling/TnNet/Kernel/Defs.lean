import Mathlib

/-!
# The scheduler of the kernel

Transcription of the routines of `tn_tasks.c` that move tasks between the queues of the kernel, for
the sources as they stand: `USE_MUTEXES` is not defined in `tn_tasks.c` and nothing clears
`tn_enable_switch_context`.

* A `CDLL_QUEUE` is the list of its entries.  The entry `task_queue` of a task is in one queue at
  a time, so `queue_remove_entry` takes it out of whatever queue it is in; the entry `timer_queue`
  is only ever in `tn_wait_timeout_list` and `block_queue` in `tn_blocked_tasks_list`.
* `find_next_task_to_run`, `task_to_non_runnable`, `task_to_runnable`, `task_wait_complete`,
  `task_curr_to_wait_action`, `change_running_task_priority`, `set_current_priority` and
  `task_set_dormant_state` keep their names.  The return values of the two priority functions only
  ask for a context switch, which is an event of its own here and may come at any moment.
-/

set_option autoImplicit false

namespace TnKernel

/-- The return codes of `tn.h`. -/
inductive Terr where
  | noErr
  | overflow
  | wcontext
  | wstate
  | timeout
  | wrongParam
  | underflow
  | outOfMem
  | iluse
  | noexs
  | dlt
  deriving DecidableEq

/-- `task_state`. -/
inductive TaskState where
  | runnable
  | wait
  | suspend
  | waitsusp
  | dormant
  deriving DecidableEq

/-- `task_state & TSK_STATE_WAIT`. -/
def TaskState.isWait : TaskState → Bool
  | .wait => true
  | .waitsusp => true
  | _ => false

/-- `task_state & TSK_STATE_SUSPEND`. -/
def TaskState.isSuspend : TaskState → Bool
  | .suspend => true
  | .waitsusp => true
  | _ => false

/-- `task_wait_reason`, without the value 0. -/
inductive WaitReason where
  | sleep
  | sem
  | event
  | dqueWsend
  | dqueWreceive
  | mutexC
  | mutexCBlk
  | mutexI
  | wfixmem
  deriving DecidableEq

/-- The reasons of a wait for a mutex. -/
def WaitReason.isMutex : WaitReason → Bool
  | .mutexC => true
  | .mutexCBlk => true
  | .mutexI => true
  | _ => false

abbrev TaskId := Nat

/-- The queues that hold `task_queue` entries: `tn_ready_list[p]` and the wait lists of the
    objects. -/
inductive Que where
  | ready (p : Nat)
  | sem (s : Nat)
  | event (e : Nat)
  | wsend (q : Nat)
  | wreceive (q : Nat)
  | fmp (f : Nat)
  | mutex (m : Nat)
  deriving DecidableEq

/-- Is this one of the ready lists? -/
def Que.isReady : Que → Bool
  | .ready _ => true
  | _ => false

def TN_NUM_PRIORITY : Nat := 32

def TN_WAIT_INFINITE : BitVec 32 := 0xFFFFFFFF

/-- `TN_TCB`. -/
structure Tcb where
  basePriority : Nat := 0
  priority : Nat := 0
  idTask : Bool := false
  taskState : TaskState := .dormant
  taskWaitReason : Option WaitReason := none
  taskWaitRc : Terr := .noErr
  tickCount : BitVec 32 := TN_WAIT_INFINITE
  tsliceCount : Nat := 0
  ewaitPattern : BitVec 32 := 0
  ewaitMode : BitVec 32 := 0
  dataElem : Nat := 0
  activateCount : Nat := 0
  wakeupCount : Nat := 0
  pwaitQueue : Option Que := none
  blkTask : Option TaskId := none
  mutexQueue : List Nat := []

/-- The global variables of the scheduler. -/
structure Sched where
  tcb : TaskId → Tcb
  que : Que → List TaskId
  readyToRunBmp : BitVec 32
  nextTaskToRun : Option TaskId
  currRunTask : TaskId
  waitTimeoutList : List TaskId
  blockedTasksList : List TaskId
  tsliceTicks : Nat → Nat

/-- `tn_timer_task`. -/
def timerTask : TaskId := 0

/-- `tn_idle_task`. -/
def idleTask : TaskId := 1

/-! ## Queues and control blocks -/

/-- Write to the control block of a task. -/
def Sched.setTcb (s : Sched) (t : TaskId) (f : Tcb → Tcb) : Sched :=
  { s with tcb := Function.update s.tcb t (f (s.tcb t)) }

/-- `queue_add_tail`. -/
def queueAddTail (q : Que) (t : TaskId) (s : Sched) : Sched :=
  { s with que := Function.update s.que q (s.que q ++ [t]) }

/-- `queue_remove_entry(&task->task_queue)`. -/
def queueRemoveEntry (t : TaskId) (s : Sched) : Sched :=
  { s with que := fun q => (s.que q).erase t }

/-- `queue_remove_head`, on a queue that is not empty. -/
def queueRemoveHead (q : Que) (s : Sched) : Sched :=
  { s with que := Function.update s.que q (s.que q).tail }

/-! ## Ready lists -/

/-- `ffs_asm(bmp) - 1`: the lowest bit that is set. -/
def ffs (bmp : BitVec 32) : Nat :=
  ((List.range TN_NUM_PRIORITY).find? fun p => bmp.getLsbD p).getD 0

/-- `find_next_task_to_run`. -/
def findNextTaskToRun (s : Sched) : Sched :=
  { s with nextTaskToRun := (s.que (.ready (ffs s.readyToRunBmp))).head? }

/-- `task_to_non_runnable`. -/
def taskToNonRunnable (t : TaskId) (s : Sched) : Sched :=
  let priority := (s.tcb t).priority
  let s := queueRemoveEntry t s
  if s.que (.ready priority) = [] then
    let s := { s with readyToRunBmp := s.readyToRunBmp &&& ~~~BitVec.twoPow 32 priority }
    if s.readyToRunBmp = 0 then { s with nextTaskToRun := none } else findNextTaskToRun s
  else if s.nextTaskToRun = some t then
    { s with nextTaskToRun := (s.que (.ready priority)).head? }
  else s

/-- The test in front of `tn_next_task_to_run = task`. -/
def runsBefore (s : Sched) (priority : Nat) : Bool :=
  match s.nextTaskToRun with
  | none => true
  | some n => decide (priority < (s.tcb n).priority)

/-- `task_to_runnable`. -/
def taskToRunnable (t : TaskId) (s : Sched) : Sched :=
  let priority := (s.tcb t).priority
  let s := s.setTcb t fun b => { b with taskState := .runnable, pwaitQueue := none }
  let s := queueAddTail (.ready priority) t s
  let s := { s with readyToRunBmp := s.readyToRunBmp ||| BitVec.twoPow 32 priority }
  if runsBefore s priority then { s with nextTaskToRun := some t } else s

/-! ## Waiting -/

/-- `queue_remove_entry(&task->timer_queue)`, when the wait has a timeout. -/
def timerQueueRemove (t : TaskId) (s : Sched) : Sched :=
  if (s.tcb t).tickCount = TN_WAIT_INFINITE then s
  else { s with waitTimeoutList := s.waitTimeoutList.erase t }

/-- `task_wait_complete`: the value says whether the task has become runnable. -/
def taskWaitComplete (t : TaskId) (tqueueRemoveEnable : Bool) (s : Sched) : Bool × Sched :=
  let s := if tqueueRemoveEnable then queueRemoveEntry t s else s
  let s := s.setTcb t fun b => { b with pwaitQueue := none, taskWaitRc := .noErr }
  let s := timerQueueRemove t s
  let s := s.setTcb t fun b => { b with tickCount := TN_WAIT_INFINITE }
  let rc := !(s.tcb t).taskState.isSuspend
  let s := if rc then taskToRunnable t s else s.setTcb t fun b => { b with taskState := .suspend }
  (rc, s.setTcb t fun b => { b with taskWaitReason := none })

/-- `task_curr_to_wait_action`; without a queue the entry of the task is reset. -/
def taskCurrToWaitAction (waitQue : Option Que) (reason : WaitReason) (timeout : BitVec 32)
    (s : Sched) : Sched :=
  let t := s.currRunTask
  let s := taskToNonRunnable t s
  let s := s.setTcb t fun b =>
    { b with taskState := .wait, taskWaitReason := some reason, tickCount := timeout }
  let s := match waitQue with
    | none => s
    | some q => (queueAddTail q t s).setTcb t fun b => { b with pwaitQueue := some q }
  if timeout = TN_WAIT_INFINITE then s
  else { s with waitTimeoutList := s.waitTimeoutList ++ [t] }

/-! ## Priorities -/

/-- `change_running_task_priority`. -/
def changeRunningTaskPriority (t : TaskId) (newPriority : Nat) (s : Sched) : Sched :=
  let oldPriority := (s.tcb t).priority
  let s := queueRemoveEntry t s
  let s := if s.que (.ready oldPriority) = [] then
      { s with readyToRunBmp := s.readyToRunBmp &&& ~~~BitVec.twoPow 32 oldPriority }
    else s
  let s := s.setTcb t fun b => { b with priority := newPriority }
  let s := queueAddTail (.ready newPriority) t s
  let s := { s with readyToRunBmp := s.readyToRunBmp ||| BitVec.twoPow 32 newPriority }
  if s.nextTaskToRun = some t then
    if oldPriority ≤ newPriority then findNextTaskToRun s else s
  else if runsBefore s newPriority then { s with nextTaskToRun := some t }
  else s

/-- `set_current_priority`.  For a task that waits for a mutex with another priority the loop does
    nothing and does not end. -/
def setCurrentPriority (t : TaskId) (priority : Nat) (s : Sched) : Option Sched :=
  let b := s.tcb t
  if b.priority = priority then some s
  else if b.taskState = .runnable then some (changeRunningTaskPriority t priority s)
  else if b.taskState.isWait ∧ (b.taskWaitReason.map WaitReason.isMutex).getD false then none
  else some (s.setTcb t fun b => { b with priority := priority })

/-- `task_set_dormant_state`. -/
def taskSetDormantState (t : TaskId) (s : Sched) : Sched :=
  s.setTcb t fun b =>
    { b with
      mutexQueue := []
      pwaitQueue := none
      blkTask := none
      priority := b.basePriority
      taskState := .dormant
      taskWaitReason := none
      taskWaitRc := .noErr
      ewaitPattern := 0
      ewaitMode := 0
      dataElem := 0
      tickCount := TN_WAIT_INFINITE
      wakeupCount := 0
      tsliceCount := 0 }

end TnKernel
