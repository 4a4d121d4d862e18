import TnNet.Kernel.Machine

/-!
# The kernel with `USE_MUTEXES`

`tn_tasks.c` and `tn_mutex.c` as they are compiled when `USE_MUTEXES` is defined.  Two routines differ
from the kernel of the sources as they stand: `task_wait_complete` gives the task that blocked a waiter
its priority back, and `set_current_priority` follows the chain of the tasks that block each other.
The services of `tn_mutex.c` call them; the rest is the code of `TnNet.Kernel`.

* A call that does not end, follows a null pointer or damages a ring ends the machine with a `Fault`.
  `len` is the number of tasks `set_current_priority` is followed along its chain.
* The loop at the end of `do_unlock_mutex` takes the first node of `tn_blocked_tasks_list` for a task
  without a test for the end: with an empty list this is the head of the list.  `stray` says that
  what is found around the head passes for a task that may lock a mutex; then the machine ends.
* `tn_mutex_delete` switches the context after each task it wakes: `deleting` is the mutex that a task
  is in the middle of deleting.
-/

set_option autoImplicit false

namespace TnMutex

open TnKernel

/-- What a call runs into. -/
inductive Fault where
  | nullTask
  | notMutex
  | unlinked
  | endless
  deriving DecidableEq

/-! ## `tn_tasks.c` -/

/-- Does the task wait for a mutex? -/
def waitsForMutex (b : Tcb) : Bool := (b.taskWaitReason.map WaitReason.isMutex).getD false

/-- `get_mutex_by_wait_queque(task->pwait_queue)`. -/
def mutexOf (b : Tcb) : Option Nat :=
  match b.pwaitQueue with
  | some (.mutex m) => some m
  | _ => none

/-- The task that blocks a task that waits for the mutex. -/
def blockerOf (k : Kernel) (b : Tcb) (m : Nat) : Option TaskId :=
  if b.taskWaitReason = some .mutexCBlk then b.blkTask else (k.mutex m).holder

/-- `set_current_priority`: the loop is at the task `curr`. -/
def setCurrentPriority (task : TaskId) : Nat → TaskId → Nat → Kernel → Except Fault Kernel
  | 0, _, _, _ => .error .endless
  | len + 1, curr, newPriority, k =>
    let b := k.sch.tcb curr
    if b.priority = newPriority then .ok k
    else if b.taskState = .runnable then
      .ok { k with sch := changeRunningTaskPriority curr newPriority k.sch }
    else if b.taskState.isWait = true ∧ waitsForMutex b = true then
      match mutexOf b with
      | none => .error .notMutex
      | some m =>
        match blockerOf k b m with
        | none => .error .nullTask
        | some h =>
          let newPriority :=
            if b.priority < newPriority then
              findMaxBlockedPriority m (k.sch.tcb h).basePriority k.sch
            else newPriority
          setCurrentPriority task len h newPriority k
    -- the code writes to the task the loop has started with
    else .ok { k with sch := k.sch.setTcb task fun b => { b with priority := newPriority } }

/-- `task_wait_complete` up to the mutexes. -/
def endWait (t : TaskId) (tqueueRemoveEnable : Bool) (s : Sched) : Sched :=
  let s := if tqueueRemoveEnable then queueRemoveEntry t s else s
  let s := s.setTcb t fun b => { b with pwaitQueue := none, taskWaitRc := .noErr }
  let s := timerQueueRemove t s
  let s := s.setTcb t fun b => { b with tickCount := TN_WAIT_INFINITE }
  if !(s.tcb t).taskState.isSuspend then taskToRunnable t s
  else s.setTcb t fun b => { b with taskState := .suspend }

/-- The task `h` has blocked the task `t` at the mutex: its priority is found anew. -/
def recalcPriority (len : Nat) (t : TaskId) (m : Nat) (h : TaskId) (k : Kernel) :
    Except Fault Kernel :=
  let b := k.sch.tcb h
  if b.priority ≠ b.basePriority ∧ b.priority = (k.sch.tcb t).priority then
    setCurrentPriority h len h (findMaxBlockedPriority m b.basePriority k.sch) k
  else .ok k

/-- The part of `task_wait_complete` for a task that has waited for a mutex; `b` is its control
    block in front of the call. -/
def endMutexWait (len : Nat) (t : TaskId) (b : Tcb) (k : Kernel) : Except Fault Kernel :=
  match mutexOf b with
  | none => .error .notMutex
  | some m =>
    let k1 := if b.taskWaitReason = some .mutexCBlk then
        { k with sch := { k.sch with blockedTasksList := k.sch.blockedTasksList.erase t } }
      else k
    match blockerOf k b m with
    | none => .ok k1
    | some h => recalcPriority len t m h k1

/-- `task_wait_complete`, with its return value. -/
def taskWaitComplete (len : Nat) (t : TaskId) (tqueueRemoveEnable : Bool) (k : Kernel) :
    Except Fault (Bool × Kernel) := do
  let b := k.sch.tcb t
  let k1 := { k with sch := endWait t tqueueRemoveEnable k.sch }
  let k2 ← if waitsForMutex b then endMutexWait len t b k1 else .ok k1
  let rc := !b.taskState.isSuspend || decide (k2.sch.nextTaskToRun ≠ k1.sch.nextTaskToRun)
  return (rc, { k2 with sch := k2.sch.setTcb t fun b => { b with taskWaitReason := none } })

/-- `tn_task_release_wait`. -/
def tnTaskReleaseWait (len : Nat) (t : TaskId) (k : Kernel) : Except Fault (Terr × Kernel) :=
  let b := k.sch.tcb t
  if !b.idTask then .ok (.noexs, k)
  else if !b.taskState.isWait then .ok (.wcontext, k)
  else do
    let r ← taskWaitComplete len t true k
    return (.noErr, r.2)

/-- One task of `tn_wait_timeout_list` in the loop of the timer task. -/
def timeoutTask (len : Nat) (k : Kernel) (t : TaskId) : Except Fault Kernel :=
  if ticks (k.sch.tcb t) then
    let k := { k with sch := k.sch.setTcb t fun b => { b with tickCount := b.tickCount - 1 } }
    if (k.sch.tcb t).tickCount = 0 then do
      let r ← taskWaitComplete len t true k
      return { r.2 with sch := r.2.sch.setTcb t fun b => { b with taskWaitRc := .timeout } }
    else .ok k
  else .ok k

/-- The loop body of `tn_timer_task_func`. -/
def timerTaskLoop (len : Nat) (k : Kernel) : Except Fault Kernel := do
  let k ← k.sch.waitTimeoutList.foldlM (timeoutTask len) k
  return { k with sch := taskCurrToWaitAction none .sleep TN_WAIT_INFINITE k.sch }

/-! ## Routines of `tn_mutex.c` -/

/-- `remove_task_from_blocked_list`. -/
def removeTaskFromBlockedList (t : TaskId) (k : Kernel) : Kernel :=
  { k with sch := { k.sch with blockedTasksList := k.sch.blockedTasksList.erase t } }

/-- The mutex is taken out of the list of the task `h` and of `tn_locked_mutexes_list`. -/
def unlinkMutex (h : TaskId) (m : Nat) (k : Kernel) : Except Fault Kernel :=
  if m ∈ (k.sch.tcb h).mutexQueue ∧ m ∈ k.lockedMutexesList then
    .ok { k with
      sch := k.sch.setTcb h fun b => { b with mutexQueue := b.mutexQueue.erase m }
      lockedMutexesList := k.lockedMutexesList.erase m }
  else .error .unlinked

/-- `mutex->holder = NULL`. -/
def dropMutex (m : Nat) (k : Kernel) : Kernel := k.setMutex m { k.mutex m with holder := none }

/-- The priority the mutexes of a task give it. -/
def heldPriority (t : TaskId) (s : Sched) : Nat :=
  (s.tcb t).mutexQueue.foldl (fun p m => findMaxBlockedPriority m p s) (s.tcb t).basePriority

/-- The waiting task `w`, whose entry the caller takes out of the wait list, gets the mutex. -/
def giveMutex (len m : Nat) (w : TaskId) (k : Kernel) : Except Fault Kernel := do
  let r ← taskWaitComplete len w true k
  return setBlkTask w none (lockMutex r.2 m w)

/-- `try_lock_mutex`. -/
def tryLockMutex (len : Nat) (k : Kernel) (t : TaskId) : Except Fault Kernel :=
  match mutexOf (k.sch.tcb t) with
  | none => .error .notMutex
  | some m =>
    if (k.mutex m).holder = none ∧ (enableLockMutex k t).1 = true then
      giveMutex len m t (removeTaskFromBlockedList t k)
    else .ok k

/-- The ceiling mutex for its waiter with the highest priority, `w`. -/
def unlockToWaiter (len m : Nat) (w : TaskId) (k : Kernel) : Except Fault Kernel :=
  if (enableLockMutex k w).1 then giveMutex len m w (removeTaskFromBlockedList w k)
  else if w ∈ k.sch.blockedTasksList then .ok k
  else
    let sch := k.sch.setTcb w fun b =>
      { b with taskWaitReason := some .mutexCBlk, blkTask := (enableLockMutex k w).2 }
    .ok { k with sch := { sch with blockedTasksList := k.sch.blockedTasksList ++ [w] } }

/-- What is seen of the mutexes: a call returns, and the head of a list is taken for a task. -/
inductive Seen where
  | ret (rc : Terr)
  | listHead
  deriving DecidableEq

/-- One task in the loop at the end of `do_unlock_mutex`; `hi` has unlocked the mutex. -/
def lockBlockedTask (len : Nat) (hi : TaskId) (k : Kernel) (t : TaskId) : Except Fault Kernel :=
  if t = hi then .ok k else tryLockMutex len k t

/-- The loop at the end of `do_unlock_mutex`. -/
def lockBlocked (len : Nat) (k : Kernel) : Except Fault (Kernel × List Seen) :=
  if k.sch.blockedTasksList = [] then
    .ok (k, [.listHead])
  else do
    let k ← k.sch.blockedTasksList.foldlM (lockBlockedTask len k.sch.currRunTask) k
    return (k, [])

/-- The first half of `do_unlock_mutex`: the running task gives the mutex back, and gets the priority
    its other mutexes give it. -/
def releaseMutex (len m : Nat) (k : Kernel) : Except Fault Kernel := do
  let t := k.sch.currRunTask
  let k ← unlinkMutex t m k
  setCurrentPriority t len t (heldPriority t k.sch) k

/-- The second half of `do_unlock_mutex`: the mutex is in no list. -/
def passMutex (len m : Nat) (k : Kernel) :
    Except Fault (Kernel × List Seen) :=
  match k.sch.que (.mutex m), (k.mutex m).attr with
  | [], .inherit => .ok (dropMutex m k, [])
  | [], .ceiling => lockBlocked len (dropMutex m k)
  | w :: _, .inherit => do
    let k ← giveMutex len m w k
    return (k, [])
  | _ :: _, .ceiling =>
    match hiPriTask m k.sch with
    | none => .error .nullTask
    | some w => do
      let k ← unlockToWaiter len m w k
      return (k, [])

/-- `do_unlock_mutex`. -/
def doUnlockMutex (len m : Nat) (k : Kernel) :
    Except Fault (Kernel × List Seen) := do
  let k ← releaseMutex len m k
  passMutex len m k

/-! ## Services -/

/-- The running task waits for the mutex; the task that blocks it inherits its priority. -/
def lockWait (len m : Nat) (blk : Option TaskId) (reason : WaitReason) (timeout : BitVec 32)
    (k : Kernel) : Except Fault Kernel := do
  let pr := (k.sch.tcb k.sch.currRunTask).priority
  let k ← match blk with
    | none => .ok k
    | some b =>
      if pr < (k.sch.tcb b).priority then setCurrentPriority b len b pr k else .ok k
  return { k with sch := taskCurrToWaitAction (some (.mutex m)) reason timeout k.sch }

/-- The running task is put into `tn_blocked_tasks_list`. -/
def blockCurr (blk : Option TaskId) (k : Kernel) : Kernel :=
  let t := k.sch.currRunTask
  let k := { k with sch := { k.sch with blockedTasksList := k.sch.blockedTasksList ++ [t] } }
  setBlkTask t blk k

/-- `tn_mutex_lock`; a call that blocks has no code. -/
def tnMutexLock (len m : Nat) (timeout : BitVec 32) (k : Kernel) :
    Except Fault (Option Terr × Kernel) :=
  let t := k.sch.currRunTask
  let mutex := k.mutex m
  if timeout = 0 then .ok (some .wrongParam, k)
  else if !mutex.idMutex then .ok (some .noexs, k)
  else if mutex.holder = some t then .ok (some .iluse, k)
  else if mutex.attr = .ceiling ∧ (k.sch.tcb t).basePriority < mutex.ceilPriority then
    .ok (some .iluse, k)
  else
    match mutex.attr, mutex.holder with
    | .ceiling, none =>
      if (enableLockMutex k t).1 then .ok (some .noErr, setBlkTask t none (lockMutex k m t))
      else do
        let blk := (enableLockMutex k t).2
        let k ← lockWait len m blk .mutexCBlk timeout k
        return (none, blockCurr blk k)
    | .ceiling, some h => do
      let k ← lockWait len m (some h) .mutexC timeout k
      return (none, k)
    | .inherit, none => .ok (some .noErr, lockMutex k m t)
    | .inherit, some h => do
      let k ← lockWait len m (some h) .mutexI timeout k
      return (none, k)

/-- `tn_mutex_lock_polling`. -/
def tnMutexLockPolling (m : Nat) (k : Kernel) : Terr × Kernel :=
  let t := k.sch.currRunTask
  let mutex := k.mutex m
  if !mutex.idMutex then (.noexs, k)
  else if mutex.holder = some t then (.iluse, k)
  else if mutex.attr = .ceiling ∧ (k.sch.tcb t).basePriority < mutex.ceilPriority then (.iluse, k)
  else
    match mutex.attr, mutex.holder with
    | .ceiling, none =>
      if (enableLockMutex k t).1 then (.noErr, setBlkTask t none (lockMutex k m t))
      else (.timeout, k)
    | .inherit, none => (.noErr, lockMutex k m t)
    | _, some _ => (.timeout, k)

/-- `tn_mutex_unlock`. -/
def tnMutexUnlock (len m : Nat) (k : Kernel) :
    Except Fault (Kernel × List Seen) :=
  if !(k.mutex m).idMutex then .ok (k, [.ret .noexs])
  else if (k.mutex m).holder ≠ some k.sch.currRunTask then .ok (k, [.ret .iluse])
  else do
    let r ← doUnlockMutex len m k
    return (r.1, r.2 ++ [.ret .noErr])

/-- The loop of `tn_mutex_delete` up to the next context switch; the flag says that it has come to one
    and not to its end. -/
def deleteLoop (len m : Nat) : Nat → Kernel → Except Fault (Bool × Kernel)
  | 0, _ => .error .endless
  | n + 1, k =>
    match k.sch.que (.mutex m) with
    | [] => .ok (false, k)
    | t :: _ => do
      let k := removeTaskFromBlockedList t { k with sch := queueRemoveHead (.mutex m) k.sch }
      let r ← taskWaitComplete len t false k
      if r.1 then
        return (true, { r.2 with sch := r.2.sch.setTcb t fun b => { b with taskWaitRc := .dlt } })
      else deleteLoop len m n r.2

/-- The end of `tn_mutex_delete`. -/
def deleteEnd (m : Nat) (k : Kernel) : Except Fault Kernel := do
  let k ← match (k.mutex m).holder with
    | none => .ok k
    | some h => unlinkMutex h m k
  return k.setMutex m { k.mutex m with idMutex := false }

/-- `tn_mutex_delete` from the test of its loop on. -/
def tnMutexDelete (len m : Nat) (k : Kernel) : Except Fault (Bool × Kernel) := do
  let r ← deleteLoop len m ((k.sch.que (.mutex m)).length + 1) k
  if r.1 then return r
  else do
    let k ← deleteEnd m r.2
    return (false, k)

/-! ## The machine -/

/-- The kernel, and the mutex each task is in the middle of deleting. -/
structure State where
  k : Kernel
  deleting : TaskId → Option Nat

/-- What can happen. -/
inductive Event where
  | create (t : TaskId) (priority : Int) (argsOk start : Bool)
  | tsliceTicks (priority value : Int)
  | mutexCreate (m : Nat) (attr : MutexAttr) (ceilPriority : Int)
  | lock (m : Nat) (timeout : BitVec 32)
  | lockPolling (m : Nat)
  | unlock (m : Nat) (stray : Bool)
  | delete (m : Nat)
  | deleteOn
  | releaseWait (t : TaskId)
  | tick
  | timerLoop
  | switchContext

/-- A running task makes a call. -/
def Calls (x : State) : Prop :=
  (x.k.sch.tcb x.k.sch.currRunTask).taskState = .runnable ∧ x.deleting x.k.sch.currRunTask = none ∧
    x.k.sch.currRunTask ≠ idleTask

/-- What can happen in a state: `tn_app_init`, which the timer task calls, creates tasks and mutexes
    and locks none, and the two tasks of `tn.c` are not named in calls. -/
def Enabled (x : State) : Event → Prop
  | .create t _ _ _ => Calls x ∧ isSystem t = false
  | .tsliceTicks _ _ => Calls x
  | .mutexCreate _ _ _ => Calls x
  | .lock _ _ => Calls x ∧ x.k.sch.currRunTask ≠ timerTask
  | .lockPolling _ => Calls x ∧ x.k.sch.currRunTask ≠ timerTask
  | .unlock _ _ => Calls x
  | .delete _ => Calls x ∧ x.k.sch.currRunTask ≠ timerTask
  | .deleteOn => (x.k.sch.tcb x.k.sch.currRunTask).taskState = .runnable
  | .releaseWait t => Calls x ∧ isSystem t = false
  | .tick => True
  | .timerLoop => x.k.sch.currRunTask = timerTask ∧ (x.k.sch.tcb timerTask).taskState = .runnable
  | .switchContext => True

/-- A call that leaves the kernel and is seen to return. -/
def State.ret (x : State) (r : Terr × Kernel) : State × List Seen := ({ x with k := r.2 }, [.ret r.1])

/-- What is seen of an observation of the kernel. -/
def seenOf : Obs → List Seen
  | .ret _ rc _ => [.ret rc]
  | _ => []

/-- `tn_mutex_delete` goes on until its next context switch. -/
def State.delete (len m : Nat) (x : State) : Except Fault (State × List Seen) := do
  let t := x.k.sch.currRunTask
  let r ← tnMutexDelete len m x.k
  if r.1 then return (⟨r.2, Function.update x.deleting t (some m)⟩, [])
  else return (⟨r.2, Function.update x.deleting t none⟩, [.ret .noErr])

/-- One event. -/
def mutexStep (len : Nat) (x : State) : Event → Except Fault (State × List Seen)
  | .create t priority argsOk start =>
    let r := tnTaskCreate t priority argsOk { startOnCreation := start } x.k.sch
    .ok (x.ret (r.1, { x.k with sch := r.2 }))
  | .tsliceTicks priority value =>
    let r := tnSysTsliceTicks priority value x.k.sch
    .ok (x.ret (r.1, { x.k with sch := r.2 }))
  | .mutexCreate m attr ceilPriority =>
    let r := tnMutexCreate m attr ceilPriority x.k
    .ok ({ x with k := r.1 }, r.2.flatMap seenOf)
  | .lock m timeout => do
    let r ← tnMutexLock len m timeout x.k
    return ({ x with k := r.2 }, r.1.toList.map .ret)
  | .lockPolling m => .ok (x.ret (tnMutexLockPolling m x.k))
  | .unlock m _ => do
    let r ← tnMutexUnlock len m x.k
    return ({ x with k := r.1 }, r.2)
  | .delete m => if !(x.k.mutex m).idMutex then .ok (x, [.ret .noexs]) else x.delete len m
  | .deleteOn =>
    match x.deleting x.k.sch.currRunTask with
    | none => .ok (x, [])
    | some m => x.delete len m
  | .releaseWait t => do
    let r ← tnTaskReleaseWait len t x.k
    return x.ret r
  | .tick => .ok ({ x with k := { x.k with sch := tnTickIntProcessing x.k.sch } }, [])
  | .timerLoop => do
    let k ← timerTaskLoop len x.k
    return ({ x with k := k }, [])
  | .switchContext => .ok ({ x with k := { x.k with sch := tnSwitchContext x.k.sch } }, [])

/-- What is around the head of a list does not pass for a task that may lock a mutex. -/
def survives : Event → List Seen → Bool
  | .unlock _ stray, obs => !(stray && obs.contains .listHead)
  | _, _ => true

/-- The machine. -/
def mutexMachine (len : Nat) : Machine.Step State Event Seen := fun x ev =>
  match mutexStep len x ev with
  | .ok r => (if survives ev r.2 then some r.1 else none, r.2)
  | .error _ => (none, [])

/-- The state behind `tn_start_system`. -/
def State.start : State := ⟨Kernel.start, fun _ => none⟩

end TnMutex
