import TnNet.Lib.Critical
import TnNet.Kernel.Delete
import TnNet.Kernel.PoolDbg

/-!
# Interrupts in the services

The services a task calls, with what they do to the status register of the processor: where they disable
the interrupts, and on which of their paths they write the saved value back before they return.
`tn_save_status_reg` is the variable of a call; `arm` is the status register of `tn_port_asm.s`.

The rest of the system works on the kernel in front of each `tn_disable_interrupt` and during each
`tn_switch_context`, as `others` says.  A program does not return where the code does not: in
`tn_task_exit`, and in the loops of `set_current_priority` and of a delete service that do not come to
an end.  It has no result either when it uses the data of the null task, which the head of an empty list
is.
-/

set_option autoImplicit false

namespace TnIrq

open Critical TnKernel

/-! ## The processor -/

/-- Both interrupts. -/
def NOINT : BitVec 32 := 0xC0

def IRQMASK : BitVec 32 := 0x80

/-- `msr CPSR_c, r0`: the control byte is written. -/
def msrC (cpsr r0 : BitVec 32) : BitVec 32 := (cpsr &&& 0xFFFFFF00) ||| (r0 &&& 0xFF)

theorem msrC_getLsbD (cpsr r0 : BitVec 32) {i : Nat} (hi : i < 32) :
    (msrC cpsr r0).getLsbD i = if i < 8 then r0.getLsbD i else cpsr.getLsbD i := by
  unfold msrC
  rw [BitVec.getLsbD_or, BitVec.getLsbD_and, BitVec.getLsbD_and]
  have h1 : (0xFFFFFF00 : BitVec 32).getLsbD i = decide (8 ≤ i) := by
    revert i
    decide
  have h2 : (0xFF : BitVec 32).getLsbD i = decide (i < 8) := by
    revert i
    decide
  rw [h1, h2]
  split
  · rename_i h
    simp [h, Nat.not_le.mpr h]
  · rename_i h
    simp [h, Nat.not_lt.mp h]

/-- The status register: `tn_cpu_save_sr`, `tn_cpu_restore_sr` and `tn_chk_irq_disabled`. -/
def arm : Port (BitVec 32) where
  mask s := msrC s (s ||| NOINT)
  load := msrC
  disabled s := decide (s &&& IRQMASK ≠ 0)
  load_mask s := by
    refine BitVec.eq_of_getLsbD_eq fun i hi => ?_
    rw [msrC_getLsbD _ _ hi]
    split
    · rfl
    · rename_i h
      rw [msrC_getLsbD _ _ hi, if_neg h]
  disabled_mask s := by
    rw [decide_eq_true_eq]
    intro h
    have h7 := congrArg (fun x => x.getLsbD 7) h
    rw [BitVec.getLsbD_and, msrC_getLsbD _ _ (by decide), if_pos (by decide), BitVec.getLsbD_or] at h7
    simp [NOINT, IRQMASK] at h7

/-- The objects of the kernel, and the debug pools; a pool of either kind has a number of its own. -/
structure Objs where
  kern : Kernel
  dbg : Nat → FmpDbg

/-- The memory.  `running`: `tn_system_state == TN_ST_STATE_RUNNING`.  `env` are the works of the rest
    of the system, and `turn` is the number of the next one. -/
structure World where
  objs : Objs
  running : Bool
  intCounter : Nat
  env : Nat → Objs → Objs
  turn : Nat

/-- A service. -/
abbrev Svc := Prog (BitVec 32) World

/-- The rest of the system works. -/
abbrev others : Svc Unit :=
  access fun w => some ((), { w with objs := w.env w.turn w.objs, turn := w.turn + 1 })

def tnDisableInterrupt : Svc Unit := do
  others
  disable arm

abbrev tnEnableInterrupt : Svc Unit := restore arm

/-- `tn_switch_context`: the register is kept on the stack of the task until it runs again. -/
abbrev tnSwitchContext : Svc Unit := others

abbrev tnChkIrqDisabled : Svc Bool := isDisabled arm

/-- What a service returns: the code, and the datum it stores through a pointer. -/
abbrev Ret := Terr × Nat

abbrev ret (rc : Terr) (data : Nat := 0) : Svc Ret := pure (rc, data)

/-- The test of `TN_CHECK_NON_INT_CONTEXT`. -/
def wrongContext (w : Cpu (BitVec 32) World) : Bool :=
  decide (0 < w.mem.intCounter) || (arm.disabled w.status && w.mem.running)

/-- `TN_CHECK_NON_INT_CONTEXT` in front of the rest of a service. -/
def checkNonIntContext (rest : Svc Ret) : Svc Ret := fun w =>
  if wrongContext w then ret .wcontext 0 w else rest w

/-! ## Work on the kernel -/

abbrev kernel : Svc Kernel := access fun w => some (w.objs.kern, w)

/-- A change of the kernel, with a value. -/
abbrev change {α : Type} (f : Kernel → Option (α × Kernel)) : Svc α :=
  access fun w => (f w.objs.kern).map fun r => (r.1, { w with objs := { w.objs with kern := r.2 } })

abbrev write (f : Kernel → Kernel) : Svc Unit := change fun k => some ((), f k)

abbrev sched (f : Sched → Sched) : Svc Unit := write fun k => { k with sch := f k.sch }

/-- `is_queue_empty`. -/
abbrev isQueueEmpty (q : Que) : Svc Bool := access fun w => some (decide (w.objs.kern.sch.que q = []), w)

/-- `queue_remove_head` and `get_task_by_tsk_queue`; the task of an empty list is `NULL`. -/
abbrev removeHead (q : Que) : Svc (Option TaskId) := change fun k =>
  some ((k.sch.que q).head?, { k with sch := queueRemoveHead q k.sch })

/-- `task_wait_complete`. -/
abbrev waitComplete (task : Option TaskId) (tqueueRemoveEnable : Bool) : Svc Bool := change fun k =>
  match task with
  | none => some (false, k)
  | some task =>
    let r := taskWaitComplete task tqueueRemoveEnable k.sch
    some (r.1, { k with sch := r.2 })

/-- `task_curr_to_wait_action`. -/
abbrev waitAction (q : Option Que) (reason : WaitReason) (timeout : BitVec 32) : Svc Unit :=
  sched (taskCurrToWaitAction q reason timeout)

/-- `task->data_elem = data`. -/
abbrev setDataElem (task : Option TaskId) (data : Nat) : Svc Unit := change fun k =>
  task.map fun task => ((), k.setDataElem task data)

/-- `task->data_elem`. -/
abbrev dataElem (task : Option TaskId) : Svc Nat := change fun k =>
  task.map fun task => ((k.sch.tcb task).dataElem, k)

/-- `task->task_wait_rc = rc`. -/
abbrev setWaitRc (task : Option TaskId) (rc : Terr) : Svc Unit := change fun k =>
  task.map fun task => ((), { k with sch := k.sch.setTcb task fun b => { b with taskWaitRc := rc } })

/-- The control block of the running task. -/
abbrev currTcb : Svc Tcb := access fun w => some (w.objs.kern.sch.tcb w.objs.kern.sch.currRunTask, w)

/-- A service that leaves the interrupts alone: the kernel and the code of the kernel model. -/
def returning (f : Kernel → Res) : Svc Ret := change fun k =>
  let r := f k
  some (match r.2 with
    | .ret _ rc data :: _ => (rc, data)
    | _ => (.noErr, 0), r.1)

/-- The tests in front of a service for an object: its pointer and the other parameters (`wrong`), then
    its id. -/
def forObj {α : Type} (obj : Option α) (wrong hasId : Objs → α → Bool)
    (rest : α → Svc Ret) : Svc Ret :=
  match obj with
  | none => ret .wrongParam
  | some obj => do
    let objs ← access fun w : World => some (w.objs, w)
    if wrong objs obj then ret .wrongParam
    else if !hasId objs obj then ret .noexs
    else rest obj

/-- The ends of a critical section: without a context switch, with one, and with one if another task is
    to run. -/
def leave (rc : Terr) (data : Nat := 0) : Svc Ret := do
  tnEnableInterrupt
  ret rc data

def leaveSwitch (rc : Terr) (data : Nat := 0) : Svc Ret := do
  tnEnableInterrupt
  tnSwitchContext
  ret rc data

def leaveNext (rc : Terr) : Svc Ret := do
  tnEnableInterrupt
  let k ← kernel
  if k.sch.nextTaskToRun ≠ some k.sch.currRunTask then
    tnSwitchContext
    ret rc
  else ret rc

/-- The task has blocked; the code it finds in its control block when it runs again, with a datum from
    there. -/
def leaveWait (data : Tcb → Nat) : Svc Ret := do
  tnEnableInterrupt
  tnSwitchContext
  let b ← currTcb
  ret b.taskWaitRc (data b)

/-! ## `tn_tasks.c` -/

/-- The tests of a service for a task. -/
abbrev forTask (task : Option TaskId) (rest : TaskId → Svc Ret) : Svc Ret :=
  forObj task (fun _ _ => false) (fun k task => (k.kern.sch.tcb task).idTask) rest

/-- `if(tn_system_state == TN_ST_STATE_RUNNING)` in front of a statement. -/
def ifRunning (m : Svc Unit) : Svc Unit := fun w => if w.mem.running then m w else some ((), w)

/-- `tn_task_create`; `argsOk` stands for the tests of the other pointers and of the stack size. -/
def tnTaskCreate (task : Option TaskId) (priority : Int) (argsOk : Bool) (opt : CreateOpt) : Svc Ret :=
  match task with
  | none => ret .wrongParam
  | some task => do
    let k ← kernel
    if (priority = 0 ∧ !opt.timer) ∨ (priority = TN_NUM_PRIORITY - 1 ∧ !opt.idle) then ret .wrongParam
    else if priority < 0 ∨ (TN_NUM_PRIORITY : Int) - 1 < priority ∨ !argsOk ∨ (k.sch.tcb task).idTask then
      ret .wrongParam
    else checkNonIntContext do
      ifRunning tnDisableInterrupt
      sched fun s => taskSetDormantState task (s.setTcb task fun b =>
        { b with basePriority := priority.toNat, activateCount := 0, idTask := true })
      sched fun s => if opt.startOnCreation then taskToRunnable task s else s
      ifRunning tnEnableInterrupt
      ret .noErr

/-- `tn_task_suspend`. -/
def tnTaskSuspend (task : Option TaskId) : Svc Ret := forTask task fun task => checkNonIntContext do
  tnDisableInterrupt
  let k ← kernel
  let b := k.sch.tcb task
  if b.taskState.isSuspend then leave .overflow
  else if b.taskState = .dormant then leave .wstate
  else if b.taskState = .runnable then
    sched fun s => taskToNonRunnable task (s.setTcb task fun b => { b with taskState := .suspend })
    leaveNext .noErr
  else
    sched fun s => s.setTcb task fun b => { b with taskState := .waitsusp }
    leave .noErr

/-- `tn_task_resume`. -/
def tnTaskResume (task : Option TaskId) : Svc Ret := forTask task fun task => checkNonIntContext do
  tnDisableInterrupt
  let k ← kernel
  let b := k.sch.tcb task
  if !b.taskState.isSuspend then leave .wstate
  else if !b.taskState.isWait then
    sched (taskToRunnable task)
    leaveNext .noErr
  else
    sched fun s => s.setTcb task fun b => { b with taskState := .wait }
    leave .noErr

/-- `tn_task_sleep`; its call has no other code than `TERR_NO_ERR` when it has blocked. -/
def tnTaskSleep (timeout : BitVec 32) : Svc Ret :=
  if timeout = 0 then ret .wrongParam
  else checkNonIntContext do
    tnDisableInterrupt
    let b ← currTcb
    if 0 < b.wakeupCount then
      sched fun s => s.setTcb s.currRunTask fun b => { b with wakeupCount := b.wakeupCount - 1 }
      leave .noErr
    else
      waitAction none .sleep timeout
      leaveSwitch .noErr

/-- `tn_task_wakeup`. -/
def tnTaskWakeup (task : Option TaskId) : Svc Ret := forTask task fun task => checkNonIntContext do
  tnDisableInterrupt
  let k ← kernel
  let b := k.sch.tcb task
  if b.taskState = .dormant then leave .wcontext
  else if b.taskState.isWait ∧ b.taskWaitReason = some .sleep then
    let ready ← waitComplete task false
    if ready then leaveSwitch .noErr
    else leave .noErr
  else
    let b ← currTcb
    if b.wakeupCount = 0 then
      sched fun s => s.setTcb s.currRunTask fun b => { b with wakeupCount := b.wakeupCount + 1 }
      leave .noErr
    else leave .overflow

/-- `tn_task_activate`. -/
def tnTaskActivate (task : Option TaskId) : Svc Ret := forTask task fun task => checkNonIntContext do
  tnDisableInterrupt
  let k ← kernel
  let b := k.sch.tcb task
  if b.taskState = .dormant then
    sched (taskToRunnable task)
    leaveNext .noErr
  else if b.activateCount = 0 then
    sched fun s => s.setTcb task fun b => { b with activateCount := b.activateCount + 1 }
    leave .noErr
  else leave .overflow

/-- `tn_task_release_wait`. -/
def tnTaskReleaseWait (task : Option TaskId) : Svc Ret := forTask task fun task => checkNonIntContext do
  tnDisableInterrupt
  let k ← kernel
  if !(k.sch.tcb task).taskState.isWait then leave .wcontext
  else
    let ready ← waitComplete task true
    if ready then leaveSwitch .noErr
    else leave .noErr

/-- `tn_task_exit`: it returns only from `TN_CHECK_INT_CONTEXT_NORETVAL`. -/
def tnTaskExit (_attr : Bool) : Svc Ret := fun w =>
  if 1 < w.mem.intCounter ∨ (arm.disabled w.status ∧ !w.mem.running) then ret .noErr 0 w
  else none

/-- `tn_task_terminate`. -/
def tnTaskTerminate (task : Option TaskId) : Svc Ret := forTask task fun task => checkNonIntContext do
  tnDisableInterrupt
  let k ← kernel
  if (k.sch.tcb task).taskState = .dormant ∨ k.sch.currRunTask = task then leave .wcontext
  else
    sched fun s => taskSetDormantState task (terminateQueues task s)
    if 0 < (k.sch.tcb task).activateCount then
      sched (activateAgain task)
      leaveNext .noErr
    else leave .noErr

/-- `tn_task_delete`. -/
def tnTaskDelete (task : Option TaskId) : Svc Ret := forTask task fun task => checkNonIntContext do
  tnDisableInterrupt
  let k ← kernel
  if (k.sch.tcb task).taskState ≠ .dormant then leave .wcontext
  else
    sched fun s => s.setTcb task fun b => { b with idTask := false }
    leave .noErr

/-- The value of `change_running_task_priority`: it asks for a context switch if it has set another
    `tn_next_task_to_run`. -/
def asksSwitch (s : Sched) (task : TaskId) (newPriority : Nat) : Bool :=
  decide ((changeRunningTaskPriority task newPriority s).nextTaskToRun ≠ s.nextTaskToRun)

/-- `tn_task_change_priority`. -/
def tnTaskChangePriority (task : Option TaskId) (newPriority : Int) : Svc Ret := forTask task fun task =>
  if newPriority < 0 ∨ (TN_NUM_PRIORITY : Int) - 2 < newPriority then ret .wrongParam
  else checkNonIntContext do
    tnDisableInterrupt
    let k ← kernel
    let b := k.sch.tcb task
    let newPriority := if newPriority = 0 then b.basePriority else newPriority.toNat
    if b.taskState = .dormant then leave .wcontext
    else if b.taskState = .runnable then
      sched (changeRunningTaskPriority task newPriority)
      if asksSwitch k.sch task newPriority then leaveSwitch .noErr
      else leave .noErr
    else
      sched fun s => s.setTcb task fun b => { b with priority := newPriority }
      leave .noErr

/-! ## `tn.c` -/

/-- The test of `tn_sys_tslice_ticks`. -/
def wrongSlice (priority value : Int) : Bool :=
  decide (priority ≤ 0 ∨ (TN_NUM_PRIORITY : Int) - 1 ≤ priority ∨ value < 0 ∨ 0xFFFE < value)

/-- `tn_sys_tslice_ticks`. -/
def tnSysTsliceTicks (priority value : Int) : Svc Ret := checkNonIntContext do
  tnDisableInterrupt
  -- the test is made with interrupts disabled, and its path returns as it is
  if wrongSlice priority value then ret .wrongParam
  else
    sched fun s => { s with tsliceTicks := Function.update s.tsliceTicks priority.toNat value.toNat }
    leave .noErr

/-! ## Delete -/

/-- `if(tn_chk_irq_disabled() == 0) tn_disable_interrupt();` -/
def disableIfEnabled : Svc Unit := do
  let disabled ← tnChkIrqDisabled
  if disabled then pure ()
  else tnDisableInterrupt

/-- A loop of a delete service over a wait list, with at most `n` passes. -/
def deleteLoop (o : Obj) (q : Que) : Nat → Svc Unit
  | 0 => fun _ => none
  | n + 1 => do
    let empty ← isQueueEmpty q
    if empty then pure ()
    else
      disableIfEnabled
      -- the list may be empty now: another task was told, or has timed out, in front of the section
      let task ← removeHead q
      sched fun s => match o, task with
        | .mutex _, some task => { s with blockedTasksList := s.blockedTasksList.erase task }
        | _, _ => s
      let ready ← waitComplete task false
      if ready then
        setWaitRc task .dlt
        tnEnableInterrupt
        tnSwitchContext
        deleteLoop o q n
      else deleteLoop o q n

/-- The loops of a delete service. -/
def deleteLoops (o : Obj) (n : Nat) : List Que → Svc Unit
  | [] => pure ()
  | q :: l => do
    deleteLoop o q n
    deleteLoops o n l

/-- The part of a delete service behind its tests. -/
def deleteBody (n : Nat) (o : Obj) : Svc Ret := do
  deleteLoops o n o.lists
  disableIfEnabled
  write fun k => k.clearId o
  leave .noErr

/-- A delete service; `n` is a bound on the passes of each of its loops. -/
def objDelete (n : Nat) (o : Option Obj) : Svc Ret :=
  forObj o (fun _ _ => false) (fun k o => k.kern.hasObj o) fun o => checkNonIntContext (deleteBody n o)

/-! ## `tn_sem.c` -/

/-- `tn_sem_create`. -/
def tnSemCreate (sem : Option Nat) (startValue maxVal : Int) : Svc Ret :=
  match sem with
  | none => ret .wrongParam
  | some sem => do
    let k ← kernel
    if maxVal ≤ 0 ∨ startValue < 0 ∨ maxVal < startValue ∨ (k.sem sem).idSem then
      write fun k => k.setSem sem { k.sem sem with maxCount := 0 }
      ret .wrongParam
    else checkNonIntContext do
      sched fun s => { s with que := Function.update s.que (.sem sem) [] }
      write fun k => k.setSem sem ⟨startValue, maxVal, true⟩
      ret .noErr

/-- `tn_sem_delete`. -/
def tnSemDelete (n : Nat) (sem : Option Nat) : Svc Ret := objDelete n (sem.map .sem)

/-- The tests of a service for a semaphore. -/
abbrev forSem (sem : Option Nat) (rest : Nat → Svc Ret) : Svc Ret :=
  forObj sem (fun k sem => decide ((k.kern.sem sem).maxCount = 0))
    (fun k sem => (k.kern.sem sem).idSem) rest

/-- `tn_sem_signal`. -/
def tnSemSignal (sem : Option Nat) : Svc Ret := forSem sem fun sem => checkNonIntContext do
  tnDisableInterrupt
  let empty ← isQueueEmpty (.sem sem)
  if !empty then
    let task ← removeHead (.sem sem)
    let ready ← waitComplete task false
    if ready then leaveSwitch .noErr
    else leave .noErr
  else
    let k ← kernel
    if (k.sem sem).count < (k.sem sem).maxCount then
      write fun k => k.setSem sem { k.sem sem with count := (k.sem sem).count + 1 }
      leave .noErr
    else leave .overflow

/-- `tn_sem_acquire`. -/
def tnSemAcquire (sem : Option Nat) (timeout : BitVec 32) : Svc Ret :=
  if timeout = 0 then ret .wrongParam
  else forSem sem fun sem => checkNonIntContext do
    tnDisableInterrupt
    let k ← kernel
    if 1 ≤ (k.sem sem).count then
      write fun k => k.setSem sem { k.sem sem with count := (k.sem sem).count - 1 }
      leave .noErr
    else
      waitAction (some (.sem sem)) .sem timeout
      leaveWait fun _ => 0

/-- `tn_sem_polling`. -/
def tnSemPolling (sem : Option Nat) : Svc Ret := forSem sem fun sem => checkNonIntContext do
  tnDisableInterrupt
  let k ← kernel
  if 1 ≤ (k.sem sem).count then
    write fun k => k.setSem sem { k.sem sem with count := (k.sem sem).count - 1 }
    leave .noErr
  else leave .timeout

/-! ## `tn_dqueue.c` -/

/-- `tn_queue_create`; `hasFifo` is `data_fifo != NULL`. -/
def tnQueueCreate (dque : Option Nat) (hasFifo : Bool) (numEntries : Int) : Svc Ret :=
  match dque with
  | none => ret .wrongParam
  | some dque => returning (TnKernel.tnQueueCreate dque hasFifo numEntries)

/-- `tn_queue_delete`. -/
def tnQueueDelete (n : Nat) (dque : Option Nat) : Svc Ret := objDelete n (dque.map .queue)

/-- The tests of a service for a data queue. -/
abbrev forDque (dque : Option Nat) (rest : Nat → Svc Ret) : Svc Ret :=
  forObj dque (fun _ _ => false) (fun k dque => (k.kern.dque dque).idDque) rest

/-- `dque_fifo_write`. -/
abbrev fifoWrite (dque data : Nat) : Svc Terr := change fun k =>
  let r := dqueFifoWrite (k.dque dque) data
  some (r.1, k.setDque dque r.2)

/-- `dque_fifo_read`. -/
abbrev fifoRead (dque : Nat) : Svc (Terr × Nat) := change fun k =>
  let r := dqueFifoRead (k.dque dque)
  some ((r.1, r.2.1), k.setDque dque r.2.2)

/-- The section of `tn_queue_send` and of its polling version; `onFull` is its end when the queue is
    full. -/
def queueSend (dque dataPtr : Nat) (onFull : Svc Ret) : Svc Ret := do
  tnDisableInterrupt
  let empty ← isQueueEmpty (.wreceive dque)
  if !empty then
    let task ← removeHead (.wreceive dque)
    setDataElem task dataPtr
    let ready ← waitComplete task false
    if ready then leaveSwitch .noErr
    else leave .noErr
  else
    let rc ← fifoWrite dque dataPtr
    if rc ≠ .noErr then onFull
    else leave rc

/-- `tn_queue_send`. -/
def tnQueueSend (dque : Option Nat) (dataPtr : Nat) (timeout : BitVec 32) : Svc Ret :=
  if timeout = 0 then ret .wrongParam
  else forDque dque fun dque => checkNonIntContext <| queueSend dque dataPtr do
    write fun k => k.setDataElem k.sch.currRunTask dataPtr
    waitAction (some (.wsend dque)) .dqueWsend timeout
    leaveWait fun _ => 0

/-- `tn_queue_send_polling`. -/
def tnQueueSendPolling (dque : Option Nat) (dataPtr : Nat) : Svc Ret :=
  forDque dque fun dque => checkNonIntContext <| queueSend dque dataPtr <| leave .timeout

/-- The section of `tn_queue_receive` and of its polling version; `onEmpty` is its end when there is no
    datum. -/
def queueReceive (dque : Nat) (onEmpty : Svc Ret) : Svc Ret := do
  tnDisableInterrupt
  let r ← fifoRead dque
  let empty ← isQueueEmpty (.wsend dque)
  if r.1 = .noErr then
    if !empty then
      let task ← removeHead (.wsend dque)
      let data ← dataElem task
      let _rc ← fifoWrite dque data
      let ready ← waitComplete task false
      if ready then leaveSwitch .noErr r.2
      else leave r.1 r.2
    else leave r.1 r.2
  else if !empty then
    let task ← removeHead (.wsend dque)
    let data ← dataElem task
    let ready ← waitComplete task false
    if ready then leaveSwitch .noErr data
    else leave .noErr data
  else onEmpty

/-- `tn_queue_receive`; `hasData` is `data_ptr != NULL`. -/
def tnQueueReceive (dque : Option Nat) (hasData : Bool) (timeout : BitVec 32) : Svc Ret :=
  if timeout = 0 ∨ !hasData then ret .wrongParam
  else forDque dque fun dque => checkNonIntContext <| queueReceive dque do
    waitAction (some (.wreceive dque)) .dqueWreceive timeout
    leaveWait fun b => b.dataElem

/-- `tn_queue_receive_polling`. -/
def tnQueueReceivePolling (dque : Option Nat) (hasData : Bool) : Svc Ret :=
  if !hasData then ret .wrongParam
  else forDque dque fun dque => checkNonIntContext <| queueReceive dque <| leave .timeout

/-! ## `tn_event.c` -/

/-- `tn_event_create`. -/
def tnEventCreate (evf : Option Nat) (attr pattern : BitVec 32) : Svc Ret :=
  match evf with
  | none => ret .wrongParam
  | some evf => returning (TnKernel.tnEventCreate evf attr pattern)

/-- `tn_event_delete`. -/
def tnEventDelete (n : Nat) (evf : Option Nat) : Svc Ret := objDelete n (evf.map .event)

/-- The tests of a service for an event flag; `wrong` are those of the other parameters. -/
abbrev forEvf (evf : Option Nat) (wrong : Bool) (rest : Nat → Svc Ret) : Svc Ret :=
  forObj evf (fun _ _ => wrong) (fun k evf => (k.kern.evf evf).idEvent) rest

/-- The section of `tn_event_wait` and of its polling version; `onFalse` is its end when the condition
    does not hold. -/
def eventWait (evf : Nat) (waitPattern waitMode : BitVec 32) (onFalse : Svc Ret) : Svc Ret := do
  tnDisableInterrupt
  let k ← kernel
  if (k.evf evf).attr &&& TN_EVENT_ATTR_SINGLE ≠ 0 ∧ k.sch.que (.event evf) ≠ [] then leave .iluse
  else if evfCond (k.evf evf).pattern waitPattern waitMode then
    write fun k => if (k.evf evf).attr &&& TN_EVENT_ATTR_CLR ≠ 0 then k.setEvf evf { k.evf evf with
      pattern := 0 } else k
    leave .noErr (k.evf evf).pattern.toNat
  else onFalse

/-- `tn_event_wait`; `hasFlags` is `p_flags_pattern != NULL`. -/
def tnEventWait (evf : Option Nat) (waitPattern waitMode : BitVec 32) (hasFlags : Bool)
    (timeout : BitVec 32) : Svc Ret :=
  forEvf evf (decide (waitPattern = 0) || !hasFlags || decide (timeout = 0)) fun evf =>
    checkNonIntContext <|
    eventWait evf waitPattern waitMode do
      sched fun s => s.setTcb s.currRunTask fun b =>
        { b with ewaitMode := waitMode, ewaitPattern := waitPattern }
      waitAction (some (.event evf)) .event timeout
      leaveWait fun b => if b.taskWaitRc = .noErr then b.ewaitPattern.toNat else 0

/-- `tn_event_wait_polling`. -/
def tnEventWaitPolling (evf : Option Nat) (waitPattern waitMode : BitVec 32) (hasFlags : Bool) : Svc Ret :=
  forEvf evf (decide (waitPattern = 0) || !hasFlags) fun evf => checkNonIntContext <|
    eventWait evf waitPattern waitMode <| leave .timeout

/-- `scan_event_waitqueue`. -/
abbrev scanWaitqueue (evf : Nat) : Svc Bool := change fun k =>
  let r := scanEventWaitqueue evf k
  some (r.1, { k with sch := r.2 })

/-- `tn_event_set`. -/
def tnEventSet (evf : Option Nat) (pattern : BitVec 32) : Svc Ret :=
  forEvf evf (decide (pattern = 0)) fun evf => checkNonIntContext do
    tnDisableInterrupt
    write fun k => k.setEvf evf { k.evf evf with pattern := (k.evf evf).pattern ||| pattern }
    let empty ← isQueueEmpty (.event evf)
    if !empty then
      let complete ← scanWaitqueue evf
      if complete then
        write fun k =>
          if (k.evf evf).attr &&& TN_EVENT_ATTR_CLR ≠ 0 then k.setEvf evf { k.evf evf with pattern := 0 }
          else k
        leaveSwitch .noErr
      else leave .noErr
    else leave .noErr

/-- `tn_event_clear`. -/
def tnEventClear (evf : Option Nat) (pattern : BitVec 32) : Svc Ret :=
  forEvf evf (decide (pattern = 0xFFFFFFFF)) fun evf => checkNonIntContext do
    tnDisableInterrupt
    write fun k => k.setEvf evf { k.evf evf with pattern := (k.evf evf).pattern &&& pattern }
    leave .noErr

/-! ## `tn_mem.c` -/

/-- `tn_fmem_create`. -/
def tnFmemCreate (fmp : Option Nat) (startAddr blockSize : Nat) (numBlocks : Int) : Svc Ret :=
  match fmp with
  | none => ret .wrongParam
  | some fmp => returning fun k =>
    if startAddr = 0 ∧ !(k.fmp fmp).idFmp then
      (k.setFmp fmp { k.fmp fmp with fblkcnt := 0, numBlocks := 0, freeList := [] }).ret .other .wrongParam
    else TnKernel.tnFmemCreate fmp startAddr blockSize numBlocks k

/-- `tn_fmem_delete`. -/
def tnFmemDelete (n : Nat) (fmp : Option Nat) : Svc Ret := objDelete n (fmp.map .fmem)

/-- The tests of a service for a pool; `wrong` are those of the other parameters. -/
abbrev forFmp (fmp : Option Nat) (wrong : Bool) (rest : Nat → Svc Ret) : Svc Ret :=
  forObj fmp (fun _ _ => wrong) (fun k fmp => (k.kern.fmp fmp).idFmp) rest

/-- `fm_get`. -/
abbrev fmGet (fmp : Nat) : Svc (Option Nat) := change fun k =>
  if 0 < (k.fmp fmp).fblkcnt then
    some (some ((k.fmp fmp).freeList.headD 0), k.setFmp fmp
      { k.fmp fmp with freeList := (k.fmp fmp).freeList.tail, fblkcnt := (k.fmp fmp).fblkcnt - 1 })
  else some (none, k)

/-- `fm_put`. -/
abbrev fmPut (fmp block : Nat) : Svc Unit := write fun k =>
  if (k.fmp fmp).fblkcnt < (k.fmp fmp).numBlocks then
    k.setFmp fmp { k.fmp fmp with
      freeList := block :: (k.fmp fmp).freeList, fblkcnt := (k.fmp fmp).fblkcnt + 1 }
  else k

/-- The section of the services that get a block; `get` takes it, `onEmpty` is the end when there is
    none. -/
def fmemGet (get : Svc (Option Nat)) (onEmpty : Svc Ret) : Svc Ret := do
  tnDisableInterrupt
  let ptr ← get
  if ptr ≠ none then leave .noErr (ptr.getD 0)
  else onEmpty

/-- The section of the services that release a block; `q` is the wait list of the pool, `put` gives the
    block back. -/
def fmemRelease (q : Que) (block : Nat) (put : Svc Terr) : Svc Ret := do
  tnDisableInterrupt
  let empty ← isQueueEmpty q
  if !empty then
    let task ← removeHead q
    setDataElem task block
    let ready ← waitComplete task false
    if ready then leaveSwitch .noErr
    else leave .noErr
  else
    let rc ← put
    leave rc

/-- `tn_fmem_get`; `hasData` is `p_data != NULL`. -/
def tnFmemGet (fmp : Option Nat) (hasData : Bool) (timeout : BitVec 32) : Svc Ret :=
  forFmp fmp (!hasData || decide (timeout = 0)) fun fmp => checkNonIntContext <| fmemGet (fmGet fmp) do
    waitAction (some (.fmp fmp)) .wfixmem timeout
    leaveWait fun b => b.dataElem

/-- `tn_fmem_get_polling`. -/
def tnFmemGetPolling (fmp : Option Nat) (hasData : Bool) : Svc Ret :=
  forFmp fmp (!hasData) fun fmp => checkNonIntContext <| fmemGet (fmGet fmp) <| leave .timeout

/-- `tn_fmem_release`. -/
def tnFmemRelease (fmp : Option Nat) (block : Nat) : Svc Ret :=
  forFmp fmp (decide (block = 0)) fun fmp => checkNonIntContext <| fmemRelease (.fmp fmp) block do
    fmPut fmp block
    pure .noErr

/-! ## `tn_mem_dbg.c` -/

/-- A change of a debug pool, with a value. -/
abbrev changeDbg {α : Type} (fmpd : Nat) (f : FmpDbg → α × FmpDbg) : Svc α := access fun w =>
  let r := f (w.objs.dbg fmpd)
  some (r.1, { w with objs := { w.objs with dbg := Function.update w.objs.dbg fmpd r.2 } })

/-- `tn_fmem_dbg_create`. -/
def tnFmemDbgCreate (fmpd : Option Nat) (startAddr : Nat) (freeList : Option (List Nat)) (blockSize : Nat)
    (numBlocks : Int) : Svc Ret :=
  match fmpd with
  | none => ret .wrongParam
  | some fmpd => access fun w =>
    let r :=
      TnKernel.tnFmemDbgCreate startAddr freeList blockSize numBlocks ⟨w.objs.kern.sch, w.objs.dbg fmpd, []⟩
    some ((r.1, 0), { w with objs :=
      { kern := { w.objs.kern with sch := r.2.sch }, dbg := Function.update w.objs.dbg fmpd r.2.pool } })

/-- The tests of a service for a debug pool, and its wait list; `wrong` are those of the other
    parameters. -/
abbrev forFmpd (fmpd : Option Nat) (wrong : Bool) (rest : Nat → Que → Svc Ret) : Svc Ret :=
  forObj fmpd (fun _ _ => wrong) (fun k fmpd => (k.dbg fmpd).idFmp) fun fmpd => do
    let q ← access fun w : World => some ((w.objs.dbg fmpd).waitQueue, w)
    rest fmpd q

/-- `tn_fmem_dbg_get`. -/
def tnFmemDbgGet (fmpd : Option Nat) (hasData : Bool) (timeout : BitVec 32) : Svc Ret :=
  forFmpd fmpd (!hasData || decide (timeout = 0)) fun fmpd q => checkNonIntContext <|
    fmemGet (changeDbg fmpd fmGetDbg) do
      waitAction (some q) .wfixmem timeout
      leaveWait fun b => b.dataElem

/-- `tn_fmem_dbg_get_polling`. -/
def tnFmemDbgGetPolling (fmpd : Option Nat) (hasData : Bool) : Svc Ret :=
  forFmpd fmpd (!hasData) fun fmpd _ => checkNonIntContext <|
    fmemGet (changeDbg fmpd fmGetDbg) <| leave .timeout

/-- `tn_fmem_dbg_release`. -/
def tnFmemDbgRelease (fmpd : Option Nat) (block : Nat) : Svc Ret :=
  forFmpd fmpd (decide (block = 0)) fun fmpd q => checkNonIntContext <|
    fmemRelease q block <| changeDbg fmpd fun d => fmPutDbg d block

/-! ## `tn_mutex.c` -/

/-- `tn_mutex_create`; `attr` is none when it is neither of the two attributes. -/
def tnMutexCreate (mutex : Option Nat) (attr : Option MutexAttr) (ceilPriority : Int) : Svc Ret :=
  match mutex, attr with
  | some mutex, some attr => returning (TnKernel.tnMutexCreate mutex attr ceilPriority)
  | _, _ => ret .wrongParam

/-- `tn_mutex_delete`. -/
def tnMutexDelete (n : Nat) (mutex : Option Nat) : Svc Ret := objDelete n (mutex.map .mutex)

/-- The tests of a service for a mutex; `wrong` are those of the other parameters. -/
abbrev forMutex (mutex : Option Nat) (wrong : Bool) (rest : Nat → Svc Ret) : Svc Ret :=
  forObj mutex (fun _ _ => wrong) (fun k mutex => (k.kern.mutex mutex).idMutex) rest

/-- The running task gives its priority to the task that blocks it. -/
abbrev inheritPriority (blk : Option TaskId) : Svc Unit := change fun k =>
  let pr := (k.sch.tcb k.sch.currRunTask).priority
  match blk with
  | none => some ((), k)
  | some b =>
    if pr < (k.sch.tcb b).priority then
      (setCurrentPriority b pr k.sch).map fun s => ((), { k with sch := s })
    else some ((), k)

/-- `tn_mutex_lock`. -/
def tnMutexLock (mutex : Option Nat) (timeout : BitVec 32) : Svc Ret :=
  forMutex mutex (decide (timeout = 0)) fun m => checkNonIntContext do
    tnDisableInterrupt
    let k ← kernel
    let t := k.sch.currRunTask
    let mutex := k.mutex m
    if mutex.holder = some t then leave .iluse
    else if mutex.attr = .ceiling ∧ (k.sch.tcb t).basePriority < mutex.ceilPriority then leave .iluse
    else if mutex.attr = .ceiling then
      if mutex.holder = none then
        if (enableLockMutex k t).1 then
          write fun k => setBlkTask t none (lockMutex k m t)
          leave .noErr
        else
          inheritPriority (enableLockMutex k t).2
          sched fun s => { s with blockedTasksList := s.blockedTasksList ++ [t] }
          write (setBlkTask t (enableLockMutex k t).2)
          waitAction (some (.mutex m)) .mutexCBlk timeout
          leaveWait fun _ => 0
      else
        inheritPriority mutex.holder
        waitAction (some (.mutex m)) .mutexC timeout
        leaveWait fun _ => 0
    else if mutex.holder = none then
      write fun k => lockMutex k m t
      leave .noErr
    else
      inheritPriority mutex.holder
      waitAction (some (.mutex m)) .mutexI timeout
      leaveWait fun _ => 0

/-- `tn_mutex_lock_polling`. -/
def tnMutexLockPolling (mutex : Option Nat) : Svc Ret := forMutex mutex false fun m => checkNonIntContext do
  tnDisableInterrupt
  let k ← kernel
  let t := k.sch.currRunTask
  let mutex := k.mutex m
  if mutex.holder = some t then leave .iluse
  else if mutex.attr = .ceiling ∧ (k.sch.tcb t).basePriority < mutex.ceilPriority then leave .iluse
  else if mutex.holder = none then
    if mutex.attr = .ceiling then
      if (enableLockMutex k t).1 then
        write fun k => setBlkTask t none (lockMutex k m t)
        leave .noErr
      else leave .timeout
    else
      write fun k => lockMutex k m t
      leave .noErr
  else leave .timeout

/-- The priority `do_unlock_mutex` gives to the running task asks for a context switch. -/
def unlockAsks (m : Nat) (k : Kernel) : Bool :=
  let t := k.sch.currRunTask
  let s := k.sch.setTcb t fun b => { b with mutexQueue := b.mutexQueue.erase m }
  let pr := (s.tcb t).mutexQueue.foldl (fun p m => findMaxBlockedPriority m p s) (s.tcb t).basePriority
  decide ((s.tcb t).priority ≠ pr) && asksSwitch s t pr

/-- The task that is given a mutex becomes runnable, and is not only no longer waiting. -/
def becomesReady (s : Sched) : Obs → Bool
  | .grant t _ _ => !(s.tcb t).taskState.isSuspend
  | _ => false

/-- `do_unlock_mutex` with its value `need_switch_context`. -/
abbrev unlockMutex (m : Nat) : Svc Bool := change fun k =>
  (doUnlockMutex m k).map fun r => (unlockAsks m k || r.2.any (becomesReady k.sch), r.1)

/-- `tn_mutex_unlock`. -/
def tnMutexUnlock (mutex : Option Nat) : Svc Ret := forMutex mutex false fun m => checkNonIntContext do
  tnDisableInterrupt
  let k ← kernel
  if (k.mutex m).holder ≠ some k.sch.currRunTask then leave .iluse
  else
    let needSwitchContext ← unlockMutex m
    if needSwitchContext then leaveSwitch .noErr
    else leave .noErr

/-! ## The calls -/

/-- The services a task calls, with their arguments; an argument `n` bounds the loops of a delete
    service. -/
inductive TaskCall where
  | taskCreate (task : Option TaskId) (priority : Int) (argsOk : Bool) (opt : CreateOpt)
  | taskSuspend (task : Option TaskId)
  | taskResume (task : Option TaskId)
  | taskSleep (timeout : BitVec 32)
  | taskWakeup (task : Option TaskId)
  | taskActivate (task : Option TaskId)
  | taskReleaseWait (task : Option TaskId)
  | taskExit (attr : Bool)
  | taskTerminate (task : Option TaskId)
  | taskDelete (task : Option TaskId)
  | taskChangePriority (task : Option TaskId) (newPriority : Int)
  | tsliceTicks (priority value : Int)
  | semCreate (sem : Option Nat) (startValue maxVal : Int)
  | semDelete (n : Nat) (sem : Option Nat)
  | semSignal (sem : Option Nat)
  | semAcquire (sem : Option Nat) (timeout : BitVec 32)
  | semPolling (sem : Option Nat)
  | queueCreate (dque : Option Nat) (hasFifo : Bool) (numEntries : Int)
  | queueDelete (n : Nat) (dque : Option Nat)
  | queueSend (dque : Option Nat) (dataPtr : Nat) (timeout : BitVec 32)
  | queueSendPolling (dque : Option Nat) (dataPtr : Nat)
  | queueReceive (dque : Option Nat) (hasData : Bool) (timeout : BitVec 32)
  | queueReceivePolling (dque : Option Nat) (hasData : Bool)
  | eventCreate (evf : Option Nat) (attr pattern : BitVec 32)
  | eventDelete (n : Nat) (evf : Option Nat)
  | eventWait (evf : Option Nat) (waitPattern waitMode : BitVec 32) (hasFlags : Bool) (timeout : BitVec 32)
  | eventWaitPolling (evf : Option Nat) (waitPattern waitMode : BitVec 32) (hasFlags : Bool)
  | eventSet (evf : Option Nat) (pattern : BitVec 32)
  | eventClear (evf : Option Nat) (pattern : BitVec 32)
  | fmemCreate (fmp : Option Nat) (startAddr blockSize : Nat) (numBlocks : Int)
  | fmemDelete (n : Nat) (fmp : Option Nat)
  | fmemGet (fmp : Option Nat) (hasData : Bool) (timeout : BitVec 32)
  | fmemGetPolling (fmp : Option Nat) (hasData : Bool)
  | fmemRelease (fmp : Option Nat) (block : Nat)
  | fmemDbgCreate (fmpd : Option Nat) (startAddr : Nat) (freeList : Option (List Nat)) (blockSize : Nat)
      (numBlocks : Int)
  | fmemDbgGet (fmpd : Option Nat) (hasData : Bool) (timeout : BitVec 32)
  | fmemDbgGetPolling (fmpd : Option Nat) (hasData : Bool)
  | fmemDbgRelease (fmpd : Option Nat) (block : Nat)
  | mutexCreate (mutex : Option Nat) (attr : Option MutexAttr) (ceilPriority : Int)
  | mutexDelete (n : Nat) (mutex : Option Nat)
  | mutexLock (mutex : Option Nat) (timeout : BitVec 32)
  | mutexLockPolling (mutex : Option Nat)
  | mutexUnlock (mutex : Option Nat)

def TaskCall.body : TaskCall → Svc Ret
  | .taskCreate task priority argsOk opt => tnTaskCreate task priority argsOk opt
  | .taskSuspend task => tnTaskSuspend task
  | .taskResume task => tnTaskResume task
  | .taskSleep timeout => tnTaskSleep timeout
  | .taskWakeup task => tnTaskWakeup task
  | .taskActivate task => tnTaskActivate task
  | .taskReleaseWait task => tnTaskReleaseWait task
  | .taskExit attr => tnTaskExit attr
  | .taskTerminate task => tnTaskTerminate task
  | .taskDelete task => tnTaskDelete task
  | .taskChangePriority task newPriority => tnTaskChangePriority task newPriority
  | .tsliceTicks priority value => tnSysTsliceTicks priority value
  | .semCreate sem startValue maxVal => tnSemCreate sem startValue maxVal
  | .semDelete n sem => tnSemDelete n sem
  | .semSignal sem => tnSemSignal sem
  | .semAcquire sem timeout => tnSemAcquire sem timeout
  | .semPolling sem => tnSemPolling sem
  | .queueCreate dque hasFifo numEntries => tnQueueCreate dque hasFifo numEntries
  | .queueDelete n dque => tnQueueDelete n dque
  | .queueSend dque dataPtr timeout => tnQueueSend dque dataPtr timeout
  | .queueSendPolling dque dataPtr => tnQueueSendPolling dque dataPtr
  | .queueReceive dque hasData timeout => tnQueueReceive dque hasData timeout
  | .queueReceivePolling dque hasData => tnQueueReceivePolling dque hasData
  | .eventCreate evf attr pattern => tnEventCreate evf attr pattern
  | .eventDelete n evf => tnEventDelete n evf
  | .eventWait evf waitPattern waitMode hasFlags timeout =>
    tnEventWait evf waitPattern waitMode hasFlags timeout
  | .eventWaitPolling evf waitPattern waitMode hasFlags =>
    tnEventWaitPolling evf waitPattern waitMode hasFlags
  | .eventSet evf pattern => tnEventSet evf pattern
  | .eventClear evf pattern => tnEventClear evf pattern
  | .fmemCreate fmp startAddr blockSize numBlocks => tnFmemCreate fmp startAddr blockSize numBlocks
  | .fmemDelete n fmp => tnFmemDelete n fmp
  | .fmemGet fmp hasData timeout => tnFmemGet fmp hasData timeout
  | .fmemGetPolling fmp hasData => tnFmemGetPolling fmp hasData
  | .fmemRelease fmp block => tnFmemRelease fmp block
  | .fmemDbgCreate fmpd startAddr freeList blockSize numBlocks =>
    tnFmemDbgCreate fmpd startAddr freeList blockSize numBlocks
  | .fmemDbgGet fmpd hasData timeout => tnFmemDbgGet fmpd hasData timeout
  | .fmemDbgGetPolling fmpd hasData => tnFmemDbgGetPolling fmpd hasData
  | .fmemDbgRelease fmpd block => tnFmemDbgRelease fmpd block
  | .mutexCreate mutex attr ceilPriority => tnMutexCreate mutex attr ceilPriority
  | .mutexDelete n mutex => tnMutexDelete n mutex
  | .mutexLock mutex timeout => tnMutexLock mutex timeout
  | .mutexLockPolling mutex => tnMutexLockPolling mutex
  | .mutexUnlock mutex => tnMutexUnlock mutex

/-- A call: `TN_INTSAVE_DATA`, and the body. -/
def TaskCall.run (c : TaskCall) (w : Cpu (BitVec 32) World) : Option (Ret × Cpu (BitVec 32) World) :=
  c.body { w with saved := 0 }

end TnIrq
