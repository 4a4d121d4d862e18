import TnNet.Kernel.Tasks

/-!
# Semaphores, data queues, event flags and memory pools

The services of `tn_sem.c`, `tn_dqueue.c`, `tn_event.c` and `tn_mem.c`.  A kernel is the scheduler
with the objects, and with the blocking call each task is in (`pend`; the code keeps it on the stack
of the task).  A service returns what the caller sees of it, its code and its datum, and the
observations it gives rise to.

A data queue keeps the ring buffer with its two counters, a memory pool the list of its free blocks.
The interrupt versions of the services differ from the task versions in the way they ask for a
context switch only, and are these.
-/

set_option autoImplicit false

namespace TnKernel

/-- The calls the objects see. -/
inductive Call where
  | sleep
  | semCreate (s : Nat) (startValue : Int)
  | acquire (s : Nat)
  | signal (s : Nat)
  | send (q : Nat) (data : Nat)
  | receive (q : Nat)
  | eventWait (e : Nat)
  | get (f : Nat)
  | release (f : Nat) (block : Nat)
  | lock (m : Nat)
  | other
  deriving DecidableEq

/-- What can be seen of the kernel.
    `ret`: a call returns at once; `block`: a call blocks; `grant`: a blocked call is given what it
    waits for; `cancel`: its wait ends otherwise; `back`: the blocked call returns to its caller. -/
inductive Obs where
  | ret (c : Call) (rc : Terr) (data : Nat)
  | block (t : TaskId) (c : Call)
  | grant (t : TaskId) (c : Call) (data : Nat)
  | cancel (t : TaskId) (c : Call)
  | back (t : TaskId) (c : Call) (rc : Terr) (data : Nat)
  deriving DecidableEq

/-- `TN_SEM`. -/
structure Sem where
  count : Int := 0
  maxCount : Int := 0
  idSem : Bool := false

/-- `TN_DQUE`. -/
structure Dque where
  dataFifo : Nat → Nat := fun _ => 0
  numEntries : Nat := 0
  tailCnt : Nat := 0
  headerCnt : Nat := 0
  idDque : Bool := false

/-- `TN_EVENT`. -/
structure Evf where
  attr : BitVec 32 := 0
  pattern : BitVec 32 := 0
  idEvent : Bool := false

/-- `TN_FMP`. -/
structure Fmp where
  startAddr : Nat := 0
  blockSize : Nat := 0
  numBlocks : Nat := 0
  freeList : List Nat := []
  fblkcnt : Nat := 0
  idFmp : Bool := false

/-- The attribute of a mutex. -/
inductive MutexAttr where
  | ceiling
  | inherit
  deriving DecidableEq

/-- `TN_MUTEX`. -/
structure Mutex where
  attr : MutexAttr := .inherit
  holder : Option TaskId := none
  ceilPriority : Nat := 0
  idMutex : Bool := false

/-- The kernel. -/
structure Kernel where
  sch : Sched
  sem : Nat → Sem
  dque : Nat → Dque
  evf : Nat → Evf
  fmp : Nat → Fmp
  mutex : Nat → Mutex
  lockedMutexesList : List Nat
  pend : TaskId → Option Call

/-- What a service leaves: the kernel and the observations. -/
abbrev Res := Kernel × List Obs

/-- A call that returns at once. -/
def Kernel.ret (k : Kernel) (c : Call) (rc : Terr) (data : Nat := 0) : Res := (k, [.ret c rc data])

/-- The running task blocks in a call. -/
def Kernel.blockIn (k : Kernel) (c : Call) (waitQue : Que) (reason : WaitReason)
    (timeout : BitVec 32) : Res :=
  let t := k.sch.currRunTask
  ({ k with
      sch := taskCurrToWaitAction (some waitQue) reason timeout k.sch
      pend := Function.update k.pend t (some c) }, [.block t c])

/-- `task_wait_complete` for the task at the head of a wait list. -/
def Kernel.wakeHead (k : Kernel) (q : Que) (t : TaskId) : Kernel :=
  { k with sch := (taskWaitComplete t false (queueRemoveHead q k.sch)).2 }

/-- Write `data_elem` of a task. -/
def Kernel.setDataElem (k : Kernel) (t : TaskId) (data : Nat) : Kernel :=
  { k with sch := k.sch.setTcb t fun b => { b with dataElem := data } }

def Kernel.setSem (k : Kernel) (i : Nat) (x : Sem) : Kernel :=
  { k with sem := Function.update k.sem i x }

def Kernel.setDque (k : Kernel) (i : Nat) (x : Dque) : Kernel :=
  { k with dque := Function.update k.dque i x }

def Kernel.setEvf (k : Kernel) (i : Nat) (x : Evf) : Kernel :=
  { k with evf := Function.update k.evf i x }

def Kernel.setFmp (k : Kernel) (i : Nat) (x : Fmp) : Kernel :=
  { k with fmp := Function.update k.fmp i x }

def Kernel.setMutex (k : Kernel) (i : Nat) (x : Mutex) : Kernel :=
  { k with mutex := Function.update k.mutex i x }

/-! ## Semaphores -/

/-- `tn_sem_create`. -/
def tnSemCreate (i : Nat) (startValue maxVal : Int) (k : Kernel) : Res :=
  if maxVal ≤ 0 ∨ startValue < 0 ∨ maxVal < startValue ∨ (k.sem i).idSem then
    (k.setSem i { k.sem i with maxCount := 0 }).ret (.semCreate i startValue) .wrongParam
  else
    { k.setSem i ⟨startValue, maxVal, true⟩ with
      sch := { k.sch with que := Function.update k.sch.que (.sem i) [] } }.ret
        (.semCreate i startValue) .noErr

/-- `tn_sem_signal`. -/
def tnSemSignal (i : Nat) (k : Kernel) : Res :=
  if (k.sem i).maxCount = 0 then k.ret (.signal i) .wrongParam
  else if !(k.sem i).idSem then k.ret (.signal i) .noexs
  else
    match k.sch.que (.sem i) with
    | t :: _ => (k.wakeHead (.sem i) t, [.ret (.signal i) .noErr 0, .grant t (.acquire i) 0])
    | [] =>
      if (k.sem i).count < (k.sem i).maxCount then
        (k.setSem i { k.sem i with count := (k.sem i).count + 1 }).ret (.signal i) .noErr
      else k.ret (.signal i) .overflow

/-- `tn_sem_isignal`. -/
def tnSemIsignal (i : Nat) (k : Kernel) : Res := tnSemSignal i k

/-- `tn_sem_acquire`. -/
def tnSemAcquire (i : Nat) (timeout : BitVec 32) (k : Kernel) : Res :=
  if timeout = 0 ∨ (k.sem i).maxCount = 0 then k.ret (.acquire i) .wrongParam
  else if !(k.sem i).idSem then k.ret (.acquire i) .noexs
  else if 1 ≤ (k.sem i).count then
    (k.setSem i { k.sem i with count := (k.sem i).count - 1 }).ret (.acquire i) .noErr
  else k.blockIn (.acquire i) (.sem i) .sem timeout

/-- `tn_sem_polling`. -/
def tnSemPolling (i : Nat) (k : Kernel) : Res :=
  if (k.sem i).maxCount = 0 then k.ret (.acquire i) .wrongParam
  else if !(k.sem i).idSem then k.ret (.acquire i) .noexs
  else if 1 ≤ (k.sem i).count then
    (k.setSem i { k.sem i with count := (k.sem i).count - 1 }).ret (.acquire i) .noErr
  else k.ret (.acquire i) .timeout

/-- `tn_sem_ipolling`. -/
def tnSemIpolling (i : Nat) (k : Kernel) : Res := tnSemPolling i k

/-! ## Data queues -/

/-- The ring buffer is full. -/
def Dque.full (d : Dque) : Bool :=
  decide (d.tailCnt = 0 ∧ d.headerCnt = d.numEntries - 1) || decide (d.headerCnt + 1 = d.tailCnt)

/-- A counter of the ring buffer after one more entry. -/
def Dque.bump (d : Dque) (cnt : Nat) : Nat := if d.numEntries ≤ cnt + 1 then 0 else cnt + 1

/-- `dque_fifo_write`. -/
def dqueFifoWrite (d : Dque) (data : Nat) : Terr × Dque :=
  if d.numEntries = 0 then (.outOfMem, d)
  else if d.full then (.overflow, d)
  else (.noErr, { d with
    dataFifo := Function.update d.dataFifo d.headerCnt data, headerCnt := d.bump d.headerCnt })

/-- `dque_fifo_read`. -/
def dqueFifoRead (d : Dque) : Terr × Nat × Dque :=
  if d.numEntries = 0 then (.outOfMem, 0, d)
  else if d.tailCnt = d.headerCnt then (.underflow, 0, d)
  else (.noErr, d.dataFifo d.tailCnt, { d with tailCnt := d.bump d.tailCnt })

/-- `tn_queue_create`; `hasFifo` is `data_fifo != NULL`. -/
def tnQueueCreate (i : Nat) (hasFifo : Bool) (numEntries : Int) (k : Kernel) : Res :=
  if numEntries < 0 ∨ (k.dque i).idDque then k.ret .other .wrongParam
  else
    let d : Dque :=
      { k.dque i with
        numEntries := if hasFifo then numEntries.toNat else 0
        tailCnt := 0, headerCnt := 0, idDque := true }
    let que := Function.update (Function.update k.sch.que (.wsend i) []) (.wreceive i) []
    { k.setDque i d with sch := { k.sch with que := que } }.ret .other .noErr

/-- What `tn_queue_send` and its polling versions do; `onFull` is the case of a full queue. -/
def queueSend (i data : Nat) (onFull : Kernel → Res) (k : Kernel) : Res :=
  if !(k.dque i).idDque then k.ret (.send i data) .noexs
  else
    match k.sch.que (.wreceive i) with
    | t :: _ =>
      ((k.setDataElem t data).wakeHead (.wreceive i) t,
        [.ret (.send i data) .noErr 0, .grant t (.receive i) data])
    | [] =>
      if (dqueFifoWrite (k.dque i) data).1 = .noErr then
        (k.setDque i (dqueFifoWrite (k.dque i) data).2).ret (.send i data) .noErr
      else onFull k

/-- `tn_queue_send`. -/
def tnQueueSend (i data : Nat) (timeout : BitVec 32) (k : Kernel) : Res :=
  if timeout = 0 then k.ret (.send i data) .wrongParam
  else
    queueSend i data (fun k => (k.setDataElem k.sch.currRunTask data).blockIn (.send i data)
      (.wsend i) .dqueWsend timeout) k

/-- `tn_queue_send_polling`. -/
def tnQueueSendPolling (i data : Nat) (k : Kernel) : Res :=
  queueSend i data (fun k => k.ret (.send i data) .timeout) k

/-- `tn_queue_isend_polling`. -/
def tnQueueIsendPolling (i data : Nat) (k : Kernel) : Res := tnQueueSendPolling i data k

/-- What `tn_queue_receive` and its polling versions do; `onEmpty` is the case of an empty queue. -/
def queueReceive (i : Nat) (onEmpty : Kernel → Res) (k : Kernel) : Res :=
  if !(k.dque i).idDque then k.ret (.receive i) .noexs
  else
    let r := dqueFifoRead (k.dque i)
    if r.1 = .noErr then
      let k := k.setDque i r.2.2
      match k.sch.que (.wsend i) with
      | t :: _ =>
        let data := (k.sch.tcb t).dataElem
        ((k.setDque i (dqueFifoWrite (k.dque i) data).2).wakeHead (.wsend i) t,
          [.ret (.receive i) .noErr r.2.1, .grant t (.send i data) 0])
      | [] => k.ret (.receive i) .noErr r.2.1
    else
      match k.sch.que (.wsend i) with
      | t :: _ =>
        let data := (k.sch.tcb t).dataElem
        (k.wakeHead (.wsend i) t, [.ret (.receive i) .noErr data, .grant t (.send i data) 0])
      | [] => onEmpty k

/-- `tn_queue_receive`. -/
def tnQueueReceive (i : Nat) (timeout : BitVec 32) (k : Kernel) : Res :=
  if timeout = 0 then k.ret (.receive i) .wrongParam
  else
    queueReceive i (fun k => k.blockIn (.receive i) (.wreceive i) .dqueWreceive timeout) k

/-- `tn_queue_receive_polling`. -/
def tnQueueReceivePolling (i : Nat) (k : Kernel) : Res :=
  queueReceive i (fun k => k.ret (.receive i) .timeout) k

/-- `tn_queue_ireceive`. -/
def tnQueueIreceive (i : Nat) (k : Kernel) : Res := tnQueueReceivePolling i k

/-! ## Event flags -/

def TN_EVENT_ATTR_SINGLE : BitVec 32 := 1
def TN_EVENT_ATTR_MULTI : BitVec 32 := 2
def TN_EVENT_ATTR_CLR : BitVec 32 := 4
def TN_EVENT_WCOND_OR : BitVec 32 := 8

/-- `tn_event_create`. -/
def tnEventCreate (i : Nat) (attr pattern : BitVec 32) (k : Kernel) : Res :=
  if (k.evf i).idEvent ∨ (attr &&& TN_EVENT_ATTR_SINGLE = 0 ∧ attr &&& TN_EVENT_ATTR_MULTI = 0) then
    k.ret .other .wrongParam
  else
    let k := { k with sch := { k.sch with que := Function.update k.sch.que (.event i) [] } }
    if attr &&& TN_EVENT_ATTR_CLR ≠ 0 ∧ attr &&& TN_EVENT_ATTR_SINGLE = 0 then
      (k.setEvf i { k.evf i with pattern := pattern, attr := 0xFFFFFFFF }).ret .other .wrongParam
    else (k.setEvf i ⟨attr, pattern, true⟩).ret .other .noErr

/-- The release condition. -/
def evfCond (pattern waitPattern waitMode : BitVec 32) : Bool :=
  if waitMode &&& TN_EVENT_WCOND_OR ≠ 0 then decide (pattern &&& waitPattern ≠ 0)
  else decide (pattern &&& waitPattern = waitPattern)

/-- What `tn_event_wait` and its polling versions do; `onFalse` is the case of a condition that
    does not hold. -/
def eventWait (i : Nat) (waitPattern waitMode : BitVec 32) (onFalse : Kernel → Res) (k : Kernel) :
    Res :=
  if waitPattern = 0 then k.ret (.eventWait i) .wrongParam
  else if !(k.evf i).idEvent then k.ret (.eventWait i) .noexs
  else if (k.evf i).attr &&& TN_EVENT_ATTR_SINGLE ≠ 0 ∧ k.sch.que (.event i) ≠ [] then
    k.ret (.eventWait i) .iluse
  else if evfCond (k.evf i).pattern waitPattern waitMode then
    (if (k.evf i).attr &&& TN_EVENT_ATTR_CLR ≠ 0 then k.setEvf i { k.evf i with pattern := 0 }
      else k).ret (.eventWait i) .noErr (k.evf i).pattern.toNat
  else onFalse k

/-- `tn_event_wait`. -/
def tnEventWait (i : Nat) (waitPattern waitMode timeout : BitVec 32) (k : Kernel) : Res :=
  if timeout = 0 then k.ret (.eventWait i) .wrongParam
  else
    eventWait i waitPattern waitMode (fun k =>
      { k with sch := k.sch.setTcb k.sch.currRunTask fun b =>
          { b with ewaitMode := waitMode, ewaitPattern := waitPattern } }.blockIn
        (.eventWait i) (.event i) .event timeout) k

/-- `tn_event_wait_polling`. -/
def tnEventWaitPolling (i : Nat) (waitPattern waitMode : BitVec 32) (k : Kernel) : Res :=
  eventWait i waitPattern waitMode (fun k => k.ret (.eventWait i) .timeout) k

/-- `tn_event_iwait`. -/
def tnEventIwait (i : Nat) (waitPattern waitMode : BitVec 32) (k : Kernel) : Res :=
  tnEventWaitPolling i waitPattern waitMode k

/-- One task in the loop of `scan_event_waitqueue`; the flag is `wcflag`. -/
def scanEventTask (pattern : BitVec 32) (x : Bool × Sched) (t : TaskId) : Bool × Sched :=
  let b := x.2.tcb t
  if evfCond pattern b.ewaitPattern b.ewaitMode then
    let s := (queueRemoveEntry t x.2).setTcb t fun b => { b with ewaitPattern := pattern }
    let r := taskWaitComplete t false s
    (x.1 || r.1, r.2)
  else x

/-- `scan_event_waitqueue`. -/
def scanEventWaitqueue (i : Nat) (k : Kernel) : Bool × Sched :=
  (k.sch.que (.event i)).foldl (scanEventTask (k.evf i).pattern) (false, k.sch)

/-- The tasks `scan_event_waitqueue` releases. -/
def scanReleased (i : Nat) (k : Kernel) : List TaskId :=
  (k.sch.que (.event i)).filter fun t =>
    evfCond (k.evf i).pattern (k.sch.tcb t).ewaitPattern (k.sch.tcb t).ewaitMode

/-- `tn_event_set`. -/
def tnEventSet (i : Nat) (pattern : BitVec 32) (k : Kernel) : Res :=
  if pattern = 0 then k.ret .other .wrongParam
  else if !(k.evf i).idEvent then k.ret .other .noexs
  else
    let k := k.setEvf i { k.evf i with pattern := (k.evf i).pattern ||| pattern }
    let r := scanEventWaitqueue i k
    let obs := (scanReleased i k).map fun t => Obs.grant t (.eventWait i) (k.evf i).pattern.toNat
    let k' := { k with sch := r.2 }
    if r.1 ∧ (k.evf i).attr &&& TN_EVENT_ATTR_CLR ≠ 0 then
      (k'.setEvf i { k.evf i with pattern := 0 }, .ret .other .noErr 0 :: obs)
    else (k', .ret .other .noErr 0 :: obs)

/-- `tn_event_iset`. -/
def tnEventIset (i : Nat) (pattern : BitVec 32) (k : Kernel) : Res := tnEventSet i pattern k

/-- `tn_event_clear`. -/
def tnEventClear (i : Nat) (pattern : BitVec 32) (k : Kernel) : Res :=
  if pattern = 0xFFFFFFFF then k.ret .other .wrongParam
  else if !(k.evf i).idEvent then k.ret .other .noexs
  else (k.setEvf i { k.evf i with pattern := (k.evf i).pattern &&& pattern }).ret .other .noErr

/-- `tn_event_iclear`. -/
def tnEventIclear (i : Nat) (pattern : BitVec 32) (k : Kernel) : Res := tnEventClear i pattern k

/-! ## Memory pools -/

def TN_ALIG : Nat := 4

/-- Round up to a multiple of `TN_ALIG`, in `unsigned int`. -/
def alignUp (n : Nat) : Nat := (n + (TN_ALIG - 1)) % 2 ^ 32 / TN_ALIG * TN_ALIG

/-- The loop of `tn_fmem_create` that gives up blocks until the pool ends in front of `i`. -/
def fmemFit (i blockSize : Nat) : Nat → Nat → Nat
  | 0, _ => 0
  | n + 1, j => if i < j then fmemFit i blockSize n ((j + 2 ^ 32 - blockSize) % 2 ^ 32) else n + 1

/-- `tn_fmem_create`; the start address is not `NULL`. -/
def tnFmemCreate (i startAddr blockSize : Nat) (numBlocks : Int) (k : Kernel) : Res :=
  if (k.fmp i).idFmp then k.ret .other .wrongParam
  else if numBlocks < 2 ∨ blockSize < 4 then
    (k.setFmp i { k.fmp i with fblkcnt := 0, numBlocks := 0, freeList := [] }).ret .other .wrongParam
  else
    let k := { k with sch := { k.sch with que := Function.update k.sch.que (.fmp i) [] } }
    let start := alignUp startAddr
    let size := alignUp blockSize
    let n := fmemFit ((startAddr + blockSize * numBlocks.toNat) % 2 ^ 32) size numBlocks.toNat
      ((start + size * numBlocks.toNat) % 2 ^ 32)
    if n < 2 then
      (k.setFmp i { k.fmp i with
        startAddr := start, blockSize := size, fblkcnt := 0, numBlocks := 0, freeList := [] }).ret
          .other .wrongParam
    else
      (k.setFmp i
        { startAddr := start, blockSize := size, numBlocks := n
          freeList := (List.range n).map fun j => start + size * j
          fblkcnt := n, idFmp := true }).ret .other .noErr

/-- What `tn_fmem_get` and its polling versions do; `onEmpty` is the case of a pool without free
    blocks. -/
def fmemGet (i : Nat) (onEmpty : Kernel → Res) (k : Kernel) : Res :=
  if !(k.fmp i).idFmp then k.ret (.get i) .noexs
  else if 0 < (k.fmp i).fblkcnt then
    -- `fm_get`
    (k.setFmp i { k.fmp i with
      freeList := (k.fmp i).freeList.tail, fblkcnt := (k.fmp i).fblkcnt - 1 }).ret (.get i) .noErr
        ((k.fmp i).freeList.headD 0)
  else onEmpty k

/-- `tn_fmem_get`. -/
def tnFmemGet (i : Nat) (timeout : BitVec 32) (k : Kernel) : Res :=
  if timeout = 0 then k.ret (.get i) .wrongParam
  else fmemGet i (fun k => k.blockIn (.get i) (.fmp i) .wfixmem timeout) k

/-- `tn_fmem_get_polling`. -/
def tnFmemGetPolling (i : Nat) (k : Kernel) : Res := fmemGet i (fun k => k.ret (.get i) .timeout) k

/-- `tn_fmem_get_ipolling`. -/
def tnFmemGetIpolling (i : Nat) (k : Kernel) : Res := tnFmemGetPolling i k

/-- `tn_fmem_release`. -/
def tnFmemRelease (i block : Nat) (k : Kernel) : Res :=
  if !(k.fmp i).idFmp then k.ret (.release i block) .noexs
  else
    match k.sch.que (.fmp i) with
    | t :: _ =>
      ((k.setDataElem t block).wakeHead (.fmp i) t,
        [.ret (.release i block) .noErr 0, .grant t (.get i) block])
    | [] =>
      -- `fm_put`
      (if (k.fmp i).fblkcnt < (k.fmp i).numBlocks then
        k.setFmp i { k.fmp i with
          freeList := block :: (k.fmp i).freeList, fblkcnt := (k.fmp i).fblkcnt + 1 }
      else k).ret (.release i block) .noErr

/-- `tn_fmem_irelease`. -/
def tnFmemIrelease (i block : Nat) (k : Kernel) : Res := tnFmemRelease i block k

end TnKernel
