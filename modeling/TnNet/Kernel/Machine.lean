import TnNet.Kernel.MutexOps
import TnNet.Lib.Run

/-!
# The kernel as a machine

Events are the services a running task calls, the services an interrupt handler calls, the tick, a
pass of the timer task, a context switch and the return of a task from a call it has blocked in.
A run starts behind `tn_start_system`.

`Enabled` says what can happen in a state: a task calls a service while it runs and is not in a
call; the two system tasks run their loops in `tn.c` — the timer task calls `tn_app_init` in front
of its loop, which does not block — and are not named in calls.  A context switch may come at any
moment, which covers `tn_switch_context` and the exit of an interrupt.
-/

set_option autoImplicit false

namespace TnKernel

/-- The services a task calls. -/
inductive Service where
  | create (t : TaskId) (priority : Int) (argsOk : Bool) (opt : CreateOpt)
  | suspend (t : TaskId)
  | resume (t : TaskId)
  | sleep (timeout : BitVec 32)
  | wakeup (t : TaskId)
  | activate (t : TaskId)
  | releaseWait (t : TaskId)
  | exit (attr : Bool)
  | terminate (t : TaskId)
  | delete (t : TaskId)
  | changePriority (t : TaskId) (priority : Int)
  | tsliceTicks (priority value : Int)
  | semCreate (i : Nat) (startValue maxVal : Int)
  | semSignal (i : Nat)
  | semAcquire (i : Nat) (timeout : BitVec 32)
  | semPolling (i : Nat)
  | queueCreate (i : Nat) (hasFifo : Bool) (numEntries : Int)
  | queueSend (i data : Nat) (timeout : BitVec 32)
  | queueSendPolling (i data : Nat)
  | queueReceive (i : Nat) (timeout : BitVec 32)
  | queueReceivePolling (i : Nat)
  | eventCreate (i : Nat) (attr pattern : BitVec 32)
  | eventWait (i : Nat) (pattern mode timeout : BitVec 32)
  | eventWaitPolling (i : Nat) (pattern mode : BitVec 32)
  | eventSet (i : Nat) (pattern : BitVec 32)
  | eventClear (i : Nat) (pattern : BitVec 32)
  | fmemCreate (i startAddr blockSize : Nat) (numBlocks : Int)
  | fmemGet (i : Nat) (timeout : BitVec 32)
  | fmemGetPolling (i : Nat)
  | fmemRelease (i block : Nat)
  | mutexCreate (i : Nat) (attr : MutexAttr) (ceilPriority : Int)
  | mutexLock (i : Nat) (timeout : BitVec 32)
  | mutexLockPolling (i : Nat)
  | mutexUnlock (i : Nat)

/-- The services an interrupt handler calls. -/
inductive IService where
  | iwakeup (t : TaskId)
  | iactivate (t : TaskId)
  | ireleaseWait (t : TaskId)
  | semIsignal (i : Nat)
  | semIpolling (i : Nat)
  | queueIsendPolling (i data : Nat)
  | queueIreceive (i : Nat)
  | eventIwait (i : Nat) (pattern mode : BitVec 32)
  | eventIset (i : Nat) (pattern : BitVec 32)
  | eventIclear (i : Nat) (pattern : BitVec 32)
  | fmemGetIpolling (i : Nat)
  | fmemIrelease (i block : Nat)

/-- What can happen to the kernel. -/
inductive Event where
  | task (sv : Service)
  | isr (sv : IService)
  | tick
  | timerLoop
  | switchContext
  | back

/-- The services that may block. -/
def Service.mayBlock : Service → Bool
  | .sleep _ => true
  | .semAcquire _ _ => true
  | .queueSend _ _ _ => true
  | .queueReceive _ _ => true
  | .eventWait _ _ _ _ => true
  | .fmemGet _ _ => true
  | .mutexLock _ _ => true
  | .exit _ => true
  | _ => false

/-- The task a service names. -/
def Service.named : Service → Option TaskId
  | .create t _ _ _ => some t
  | .suspend t => some t
  | .resume t => some t
  | .wakeup t => some t
  | .activate t => some t
  | .releaseWait t => some t
  | .terminate t => some t
  | .delete t => some t
  | .changePriority t _ => some t
  | _ => none

/-- The task a service of an interrupt names. -/
def IService.named : IService → Option TaskId
  | .iwakeup t => some t
  | .iactivate t => some t
  | .ireleaseWait t => some t
  | _ => none

/-- Is this one of the two tasks of `tn.c`? -/
def isSystem (t : TaskId) : Bool := decide (t = timerTask) || decide (t = idleTask)

/-- What can happen in a state. -/
def Enabled (k : Kernel) : Event → Prop
  | .task sv =>
    (k.sch.tcb k.sch.currRunTask).taskState = .runnable ∧ k.pend k.sch.currRunTask = none ∧
      k.sch.currRunTask ≠ idleTask ∧ (sv.mayBlock = true → k.sch.currRunTask ≠ timerTask) ∧
      (∀ t ∈ sv.named, isSystem t = false)
  | .isr sv => ∀ t ∈ sv.named, isSystem t = false
  | .tick => True
  | .timerLoop =>
    k.sch.currRunTask = timerTask ∧ (k.sch.tcb timerTask).taskState = .runnable
  | .switchContext => True
  | .back =>
    (k.sch.tcb k.sch.currRunTask).taskState = .runnable ∧ k.pend k.sch.currRunTask ≠ none

/-! ## Steps -/

/-- A service of `tn_tasks.c` that returns at once. -/
def Kernel.retSch (k : Kernel) (r : Terr × Sched) : Res :=
  ({ k with sch := r.2 }, [.ret .other r.1 0])

/-- The wait of a task ends without what it waits for. -/
def Kernel.cancelObs (k : Kernel) (t : TaskId) : List Obs :=
  match k.pend t with
  | some c => if (k.sch.tcb t).taskState.isWait then [.cancel t c] else []
  | none => []

/-- `tn_task_sleep` as an event. -/
def Kernel.sleep (k : Kernel) (timeout : BitVec 32) : Res :=
  match tnTaskSleep timeout k.sch with
  | (some rc, s) => k.retSch (rc, s)
  | (none, s) =>
    let t := k.sch.currRunTask
    ({ k with sch := s, pend := Function.update k.pend t (some .sleep) }, [.block t .sleep])

/-- `tn_task_wakeup` as an event. -/
def Kernel.wakeup (k : Kernel) (t : TaskId) : Res :=
  let r := tnTaskWakeup t k.sch
  let b := k.sch.tcb t
  ({ k with sch := r.2 }, .ret .other r.1 0 ::
    if b.idTask ∧ b.taskState.isWait ∧ b.taskWaitReason = some .sleep then [.grant t .sleep 0]
    else [])

/-- `tn_task_release_wait` as an event. -/
def Kernel.releaseWait (k : Kernel) (t : TaskId) : Res :=
  let r := tnTaskReleaseWait t k.sch
  ({ k with sch := r.2 },
    .ret .other r.1 0 :: if (k.sch.tcb t).idTask then k.cancelObs t else [])

/-- `tn_task_terminate` as an event; the stack of the task is new. -/
def Kernel.terminate (k : Kernel) (t : TaskId) : Res :=
  let r := tnTaskTerminate t k.sch
  if r.1 = .noErr then
    ({ k with sch := r.2, pend := Function.update k.pend t none },
      .ret .other r.1 0 :: k.cancelObs t)
  else k.retSch r

/-- A call of a task. -/
def taskStep (k : Kernel) : Service → Option Res
  | .create t priority argsOk opt =>
    let r := tnTaskCreate t priority argsOk opt k.sch
    if r.1 = .noErr then
      some ({ k with sch := r.2, pend := Function.update k.pend t none }, [.ret .other r.1 0])
    else some (k.retSch r)
  | .suspend t => some (k.retSch (tnTaskSuspend t k.sch))
  | .resume t => some (k.retSch (tnTaskResume t k.sch))
  | .sleep timeout => some (k.sleep timeout)
  | .wakeup t => some (k.wakeup t)
  | .activate t => some (k.retSch (tnTaskActivate t k.sch))
  | .releaseWait t => some (k.releaseWait t)
  | .exit attr => some ({ k with sch := tnTaskExit attr k.sch }, [])
  | .terminate t => some (k.terminate t)
  | .delete t => some (k.retSch (tnTaskDelete t k.sch))
  | .changePriority t priority => some (k.retSch (tnTaskChangePriority t priority k.sch))
  | .tsliceTicks priority value => some (k.retSch (tnSysTsliceTicks priority value k.sch))
  | .semCreate i startValue maxVal => some (tnSemCreate i startValue maxVal k)
  | .semSignal i => some (tnSemSignal i k)
  | .semAcquire i timeout => some (tnSemAcquire i timeout k)
  | .semPolling i => some (tnSemPolling i k)
  | .queueCreate i hasFifo numEntries => some (tnQueueCreate i hasFifo numEntries k)
  | .queueSend i data timeout => some (tnQueueSend i data timeout k)
  | .queueSendPolling i data => some (tnQueueSendPolling i data k)
  | .queueReceive i timeout => some (tnQueueReceive i timeout k)
  | .queueReceivePolling i => some (tnQueueReceivePolling i k)
  | .eventCreate i attr pattern => some (tnEventCreate i attr pattern k)
  | .eventWait i pattern mode timeout => some (tnEventWait i pattern mode timeout k)
  | .eventWaitPolling i pattern mode => some (tnEventWaitPolling i pattern mode k)
  | .eventSet i pattern => some (tnEventSet i pattern k)
  | .eventClear i pattern => some (tnEventClear i pattern k)
  | .fmemCreate i startAddr blockSize numBlocks =>
    some (tnFmemCreate i startAddr blockSize numBlocks k)
  | .fmemGet i timeout => some (tnFmemGet i timeout k)
  | .fmemGetPolling i => some (tnFmemGetPolling i k)
  | .fmemRelease i block => some (tnFmemRelease i block k)
  | .mutexCreate i attr ceilPriority => some (tnMutexCreate i attr ceilPriority k)
  | .mutexLock i timeout => tnMutexLock i timeout k
  | .mutexLockPolling i => some (tnMutexLockPolling i k)
  | .mutexUnlock i => tnMutexUnlock i k

/-- A call of an interrupt handler. -/
def isrStep (k : Kernel) : IService → Res
  | .iwakeup t => k.wakeup t
  | .iactivate t => k.retSch (tnTaskIactivate t k.sch)
  | .ireleaseWait t => k.releaseWait t
  | .semIsignal i => tnSemIsignal i k
  | .semIpolling i => tnSemIpolling i k
  | .queueIsendPolling i data => tnQueueIsendPolling i data k
  | .queueIreceive i => tnQueueIreceive i k
  | .eventIwait i pattern mode => tnEventIwait i pattern mode k
  | .eventIset i pattern => tnEventIset i pattern k
  | .eventIclear i pattern => tnEventIclear i pattern k
  | .fmemGetIpolling i => tnFmemGetIpolling i k
  | .fmemIrelease i block => tnFmemIrelease i block k

/-- Does the timeout of this task expire with the next pass of the timer task? -/
def expires (b : Tcb) : Bool := ticks b && decide (b.tickCount - 1 = 0)

/-- A pass of the timer task. -/
def Kernel.timerLoop (k : Kernel) : Res :=
  ({ k with sch := timerTaskLoop k.sch },
    (k.sch.waitTimeoutList.filter fun t => expires (k.sch.tcb t)).flatMap k.cancelObs)

/-- What a blocked call returns: `tn_task_sleep` has no other code than `TERR_NO_ERR`. -/
def backRc (b : Tcb) : Call → Terr
  | .sleep => .noErr
  | _ => b.taskWaitRc

/-- The datum of a blocked call. -/
def backData (b : Tcb) : Call → Nat
  | .receive _ => b.dataElem
  | .get _ => b.dataElem
  | .eventWait _ => if b.taskWaitRc = .noErr then b.ewaitPattern.toNat else 0
  | _ => 0

/-- The running task returns from the call it has blocked in. -/
def Kernel.back (k : Kernel) : Res :=
  let t := k.sch.currRunTask
  let b := k.sch.tcb t
  match k.pend t with
  | some c =>
    ({ k with pend := Function.update k.pend t none }, [.back t c (backRc b c) (backData b c)])
  | none => (k, [])

/-- One event; no result where the code does not return or runs into a wild pointer. -/
def kernelStep (k : Kernel) : Event → Option Res
  | .task sv => taskStep k sv
  | .isr sv => some (isrStep k sv)
  | .tick => some ({ k with sch := tnTickIntProcessing k.sch }, [])
  | .timerLoop => some k.timerLoop
  | .switchContext => some ({ k with sch := tnSwitchContext k.sch }, [])
  | .back => some k.back

/-- The machine. -/
def kernelMachine : Machine.Step Kernel Event Obs := fun k ev =>
  ((kernelStep k ev).map Prod.fst, ((kernelStep k ev).map Prod.snd).getD [])

/-! ## The start -/

/-- The variables `tn_start_system` has cleared. -/
def Sched.empty : Sched where
  tcb _ := {}
  que _ := []
  readyToRunBmp := 0
  nextTaskToRun := none
  currRunTask := idleTask
  waitTimeoutList := []
  blockedTasksList := []
  tsliceTicks _ := 0

/-- `tn_start_system` up to the first context switch. -/
def tnStartSystem : Sched :=
  let s := (tnTaskCreate timerTask 0 true { timer := true } Sched.empty).2
  let s := (tnTaskCreate idleTask 31 true { idle := true } s).2
  tnSwitchContext (taskToRunnable timerTask (taskToRunnable idleTask s))

/-- The kernel behind `tn_start_system`. -/
def Kernel.start : Kernel where
  sch := tnStartSystem
  sem _ := {}
  dque _ := {}
  evf _ := {}
  fmp _ := {}
  mutex _ := {}
  lockedMutexesList := []
  pend _ := none

end TnKernel
