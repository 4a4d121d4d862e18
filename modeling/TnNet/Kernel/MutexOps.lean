import TnNet.Kernel.Objects

/-!
# Mutexes

The services of `tn_mutex.c`, as they run with the `tn_tasks.c` of the sources.  Three things can go
wrong in them, and the functions return `none` there:

* `set_current_priority` does not end for a task that waits for a mutex itself;
* `do_unlock_mutex` takes the head of an empty `tn_blocked_tasks_list` for a task;
* `try_lock_mutex` takes the wait list of another object, or a null pointer, for a mutex.

`tn_blocked_tasks_list` is the list of its tasks.  In the source it is a ring of nodes, which is one as
long as no node is linked twice: a task that is still in it must not be put into it again.
-/

set_option autoImplicit false

namespace TnKernel

/-- `tn_mutex_create`. -/
def tnMutexCreate (i : Nat) (attr : MutexAttr) (ceilPriority : Int) (k : Kernel) : Res :=
  if (k.mutex i).idMutex then k.ret .other .wrongParam
  else if attr = .ceiling ∧ (ceilPriority < 1 ∨ (TN_NUM_PRIORITY : Int) - 2 < ceilPriority) then
    k.ret .other .wrongParam
  else
    { k.setMutex i ⟨attr, none, ceilPriority.toNat, true⟩ with
      sch := { k.sch with que := Function.update k.sch.que (.mutex i) [] } }.ret .other .noErr

/-! ## Routines -/

/-- `find_max_blocked_priority`. -/
def findMaxBlockedPriority (m refPriority : Nat) (s : Sched) : Nat :=
  (s.que (.mutex m)).foldl (fun p t => if (s.tcb t).priority < p then (s.tcb t).priority else p)
    refPriority

/-- The loop of `enable_lock_mutex`: the result, the priority and the task so far. -/
def enableLockLoop (k : Kernel) (t : TaskId) (x : Bool × Nat × Option TaskId) (m : Nat) :
    Bool × Nat × Option TaskId :=
  let tmp := k.mutex m
  if tmp.attr = .ceiling ∧ tmp.holder ≠ some t ∧ tmp.ceilPriority < (k.sch.tcb t).priority then
    if x.2.1 < tmp.ceilPriority then (false, tmp.ceilPriority, tmp.holder)
    else (false, x.2.1, x.2.2)
  else x

/-- `enable_lock_mutex`: the result and `*blk_task`. -/
def enableLockMutex (k : Kernel) (t : TaskId) : Bool × Option TaskId :=
  let r := k.lockedMutexesList.foldl (enableLockLoop k t) (true, 0, none)
  (r.1, r.2.2)

/-- A task locks a mutex. -/
def lockMutex (k : Kernel) (m : Nat) (t : TaskId) : Kernel :=
  { k.setMutex m { k.mutex m with holder := some t } with
    sch := k.sch.setTcb t fun b => { b with mutexQueue := b.mutexQueue ++ [m] }
    lockedMutexesList := k.lockedMutexesList ++ [m] }

/-- `task->blk_task = blk`. -/
def setBlkTask (t : TaskId) (blk : Option TaskId) (k : Kernel) : Kernel :=
  { k with sch := k.sch.setTcb t fun b => { b with blkTask := blk } }

/-- A task that waits for a mutex is made runnable and locks it. -/
def lockForWaiter (m : Nat) (t : TaskId) (k : Kernel) : Kernel :=
  lockMutex { k with sch := (taskWaitComplete t true k.sch).2 } m t

/-- `try_lock_mutex`, with the tasks that have got their mutex. -/
def tryLockMutex (x : Kernel × List Obs) (t : TaskId) : Option (Kernel × List Obs) :=
  let k := x.1
  match (k.sch.tcb t).pwaitQueue with
  | some (.mutex m) =>
    if (k.mutex m).holder = none ∧ (enableLockMutex k t).1 then
      let k := { k with sch := { k.sch with blockedTasksList := k.sch.blockedTasksList.erase t } }
      some (setBlkTask t none (lockForWaiter m t k), x.2 ++ [.grant t (.lock m) 0])
    else some x
  | _ => none

/-- The mutex leaves the list of its holder and `tn_locked_mutexes_list`, and the running task gets
    the priority the other mutexes it holds give it. -/
def unlockPriority (m : Nat) (k : Kernel) : Option Kernel :=
  let t := k.sch.currRunTask
  let s := k.sch.setTcb t fun b => { b with mutexQueue := b.mutexQueue.erase m }
  let mutexes := (s.tcb t).mutexQueue
  let pr := mutexes.foldl (fun p m => findMaxBlockedPriority m p s) (s.tcb t).basePriority
  (setCurrentPriority t pr s).map fun s =>
    { k with sch := s, lockedMutexesList := k.lockedMutexesList.erase m }

/-- The waiting task with the highest priority. -/
def hiPriTask (m : Nat) (s : Sched) : Option TaskId :=
  ((s.que (.mutex m)).foldl (fun (x : Nat × Option TaskId) t =>
    if (s.tcb t).priority < x.1 then ((s.tcb t).priority, some t) else x)
      (TN_NUM_PRIORITY - 1, none)).2

/-- The waiting task `t` gets the ceiling mutex, or remains blocked. -/
def unlockToWaiter (m : Nat) (t : TaskId) (k : Kernel) : Kernel × List Obs :=
  if (enableLockMutex k t).1 then
    let k := { k with sch := { k.sch with blockedTasksList := k.sch.blockedTasksList.erase t } }
    (setBlkTask t none (lockForWaiter m t k), [.grant t (.lock m) 0])
  else if t ∈ k.sch.blockedTasksList then (k, [])
  else
    let sch := k.sch.setTcb t fun b =>
      { b with taskWaitReason := some .mutexCBlk, blkTask := (enableLockMutex k t).2 }
    ({ k with sch := { sch with blockedTasksList := k.sch.blockedTasksList ++ [t] } }, [])

/-- The loop at the end of `do_unlock_mutex`. -/
def unlockBlocked (k : Kernel) : Option (Kernel × List Obs) :=
  let hi := k.sch.currRunTask
  if k.sch.blockedTasksList = [] then none
  else
    k.sch.blockedTasksList.foldlM (fun x t => if t = hi then some x else tryLockMutex x t) (k, [])

/-- `do_unlock_mutex`. -/
def doUnlockMutex (m : Nat) (k : Kernel) : Option (Kernel × List Obs) := do
  let k ← unlockPriority m k
  match k.sch.que (.mutex m), (k.mutex m).attr with
  | [], .inherit => some (k.setMutex m { k.mutex m with holder := none }, [])
  | [], .ceiling => unlockBlocked (k.setMutex m { k.mutex m with holder := none })
  | t :: _, .inherit => some (lockForWaiter m t k, [.grant t (.lock m) 0])
  | _ :: _, .ceiling => (hiPriTask m k.sch).map fun t => unlockToWaiter m t k

/-! ## Services -/

/-- The running task inherits its priority to the task that blocks it, and waits. -/
def lockWait (m : Nat) (blk : Option TaskId) (reason : WaitReason) (timeout : BitVec 32)
    (k : Kernel) : Option Res :=
  let t := k.sch.currRunTask
  let pr := (k.sch.tcb t).priority
  let sch := match blk with
    | none => some k.sch
    | some b => if pr < (k.sch.tcb b).priority then setCurrentPriority b pr k.sch else some k.sch
  sch.map fun s => { k with sch := s }.blockIn (.lock m) (.mutex m) reason timeout

/-- `tn_mutex_lock`. -/
def tnMutexLock (m : Nat) (timeout : BitVec 32) (k : Kernel) : Option Res :=
  let t := k.sch.currRunTask
  let mutex := k.mutex m
  if timeout = 0 then some (k.ret (.lock m) .wrongParam)
  else if !mutex.idMutex then some (k.ret (.lock m) .noexs)
  else if mutex.holder = some t then some (k.ret (.lock m) .iluse)
  else if mutex.attr = .ceiling ∧ (k.sch.tcb t).basePriority < mutex.ceilPriority then
    some (k.ret (.lock m) .iluse)
  else
    match mutex.attr, mutex.holder with
    | .ceiling, none =>
      if (enableLockMutex k t).1 then
        some ((setBlkTask t none (lockMutex k m t)).ret (.lock m) .noErr)
      else
        let blk := (enableLockMutex k t).2
        (lockWait m blk .mutexCBlk timeout k).map fun r =>
          (setBlkTask t blk { r.1 with sch :=
            { r.1.sch with blockedTasksList := r.1.sch.blockedTasksList ++ [t] } }, r.2)
    | .ceiling, some h => lockWait m (some h) .mutexC timeout k
    | .inherit, none => some ((lockMutex k m t).ret (.lock m) .noErr)
    | .inherit, some h => lockWait m (some h) .mutexI timeout k

/-- `tn_mutex_lock_polling`. -/
def tnMutexLockPolling (m : Nat) (k : Kernel) : Res :=
  let t := k.sch.currRunTask
  let mutex := k.mutex m
  if !mutex.idMutex then k.ret (.lock m) .noexs
  else if mutex.holder = some t then k.ret (.lock m) .iluse
  else if mutex.attr = .ceiling ∧ (k.sch.tcb t).basePriority < mutex.ceilPriority then
    k.ret (.lock m) .iluse
  else
    match mutex.attr, mutex.holder with
    | .ceiling, none =>
      if (enableLockMutex k t).1 then (setBlkTask t none (lockMutex k m t)).ret (.lock m) .noErr
      else k.ret (.lock m) .timeout
    | .inherit, none => (lockMutex k m t).ret (.lock m) .noErr
    | _, some _ => k.ret (.lock m) .timeout

/-- `tn_mutex_unlock`. -/
def tnMutexUnlock (m : Nat) (k : Kernel) : Option Res :=
  if !(k.mutex m).idMutex then some (k.ret .other .noexs)
  else if (k.mutex m).holder ≠ some k.sch.currRunTask then some (k.ret .other .iluse)
  else (doUnlockMutex m k).map fun r => (r.1, .ret .other .noErr 0 :: r.2)

end TnKernel
