import TnNet.Kernel.Waits

/-!
# The acts of the kernel

`Act k obs k'` lists what can happen to the resources and to the tasks that wait for them, with what
is seen of it.  Every event of the kernel is a sequence of acts (`Acts`), with the scheduler
invariant behind each of them; an invariant of the resources is an invariant of the acts.
-/

set_option autoImplicit false

namespace TnKernel

variable {k k' : Kernel} {t u : TaskId} {obs : List Obs}

/-- The object of a wait list exists. -/
def Kernel.live (k : Kernel) : Que → Bool
  | .ready _ => false
  | .sem i => (k.sem i).idSem
  | .event i => (k.evf i).idEvent
  | .wsend i => (k.dque i).idDque
  | .wreceive i => (k.dque i).idDque
  | .fmp i => (k.fmp i).idFmp
  | .mutex i => (k.mutex i).idMutex

/-- The call of a task in a wait list. -/
def waitCall : Que → Nat → Call
  | .ready _, _ => .other
  | .sem i, _ => .acquire i
  | .event i, _ => .eventWait i
  | .wsend i, data => .send i data
  | .wreceive i, _ => .receive i
  | .fmp i, _ => .get i
  | .mutex i, _ => .lock i

/-- An observation that is not about a resource. -/
def Obs.silent : Obs → Bool
  | .ret c rc _ => !c.isRes || decide (rc ≠ .noErr)
  | .block _ c => !c.isRes
  | .grant _ c _ => !c.isRes
  | .cancel _ c => !c.isRes
  | .back _ c _ _ => !c.isRes

/-- The resources are the same. -/
structure SameRes (k k' : Kernel) : Prop where
  sem : k'.sem = k.sem
  dque : k'.dque = k.dque
  fmp : k'.fmp = k.fmp

/-- No object goes away, and the idle task locks no mutex. -/
structure Grows (k k' : Kernel) : Prop where
  live : ∀ q, k.live q = true → k'.live q = true
  holder : ∀ m h, (k'.mutex m).holder = some h → (k.mutex m).holder = some h ∨ h ≠ idleTask

/-- The pending calls of the other tasks are the same. -/
def PendExcept (t : TaskId) (k k' : Kernel) : Prop := ∀ u, u ≠ t → k'.pend u = k.pend u

/-- The resource of a wait list has run out. -/
def Exhausted (k : Kernel) : Que → Nat → Prop
  | .sem i, _ => (k.sem i).count < 1
  | .wsend i, data => k.sch.que (.wreceive i) = [] ∧ (dqueFifoWrite (k.dque i) data).1 ≠ .noErr
  | .wreceive i, _ => k.sch.que (.wsend i) = [] ∧ (dqueFifoRead (k.dque i)).1 ≠ .noErr
  | .fmp i, _ => (k.fmp i).fblkcnt = 0
  | _, _ => False

/-- The task at the head of a wait list is given its resource. -/
structure Grants (t : TaskId) (q : Que) (data : Nat) (k k' : Kernel) : Prop where
  head : (k.sch.que q).head? = some t
  leave : Leave t k.sch k'.sch
  rc : (k'.sch.tcb t).taskWaitRc = .noErr
  data : (k'.sch.tcb t).dataElem = data
  pend : k'.pend = k.pend
  grows : Grows k k'

/-- One resource changes. -/
structure Changes (k k' : Kernel) : Prop where
  quiet : Quiet k.sch k'.sch
  pend : k'.pend = k.pend
  grows : Grows k k'

/-- What the tasks and interrupt handlers may do: the arguments of `tn_fmem_create`, the blocks given
    to `tn_fmem_release`, and the tasks that wait for a resource whose wait may be released. -/
structure Allow where
  create : Nat → Nat → Int → Prop
  freed : Nat → Nat → Prop
  release : TaskId → Prop

/-- No restriction. -/
def Allow.any : Allow := ⟨fun _ _ _ => True, fun _ _ => True, fun _ => True⟩

/-- A pool as `tn_fmem_create` leaves it. -/
structure FmpNew (startAddr blockSize : Nat) (numBlocks : Int) (x : Fmp) : Prop where
  args : 2 ≤ numBlocks ∧ 4 ≤ blockSize
  start : x.startAddr = alignUp startAddr
  size : x.blockSize = alignUp blockSize
  count : x.fblkcnt = x.numBlocks
  list : x.freeList = (List.range x.numBlocks).map fun j => x.startAddr + x.blockSize * j

/-- What can happen to the resources. -/
inductive Act (a : Allow) : Kernel → List Obs → Kernel → Prop
  | quiet {k k' : Kernel} {obs : List Obs} (h : Changes k k') (hr : SameRes k k')
      (ho : ∀ o ∈ obs, o.silent = true) : Act a k obs k'
  | free {k k' : Kernel} {obs : List Obs} {t : TaskId} (h : Free t k.sch k'.sch)
      (hr : SameRes k k') (hp : PendExcept t k k') (hg : Grows k k')
      (hb : ∀ c, k.pend t = some c → c.isRes = false)
      (ha : ∀ c, k'.pend t = some c → c.isRes = false)
      (hn : ∀ q, (k'.sch.tcb t).pwaitQueue = some q → k'.live q = true)
      (ho : ∀ o ∈ obs, o.silent = true) : Act a k obs k'
  /-- A task that waits for no resource starts again. -/
  | reset {k k' : Kernel} {obs : List Obs} {t : TaskId} (h : Free t k.sch k'.sch)
      (hw : (k'.sch.tcb t).pwaitQueue = none)
      (hr : SameRes k k') (hp : PendExcept t k k') (hg : Grows k k') (ha : k'.pend t = none)
      (ho : ∀ o ∈ obs, o.silent = true) : Act a k obs k'
  /-- A task that waits for a resource starts again. -/
  | resetWait {k k' : Kernel} {t : TaskId} {q : Que} (h : Leave t k.sch k'.sch)
      (hq : (k.sch.tcb t).pwaitQueue = some q) (hres : q.isRes = true)
      (hr : SameRes k k') (hp : PendExcept t k k') (hg : Grows k k') (ha : k'.pend t = none) :
      Act a k [.cancel t (waitCall q (k.sch.tcb t).dataElem)] k'
  /-- A wait ends with the code `rc` instead of the resource. -/
  | cancel {k k' : Kernel} {t : TaskId} {q : Que} (h : Leave t k.sch k'.sch)
      (hq : (k.sch.tcb t).pwaitQueue = some q) (hres : q.isRes = true)
      (hd : (k'.sch.tcb t).dataElem = (k.sch.tcb t).dataElem)
      (hr : SameRes k k') (hp : k'.pend = k.pend) (hg : Grows k k')
      (hrc : (k'.sch.tcb t).taskWaitRc = .timeout) :
      Act a k [.cancel t (waitCall q (k.sch.tcb t).dataElem)] k'
  /-- A wait is released. -/
  | release {k k' : Kernel} {t : TaskId} {q : Que} (h : Leave t k.sch k'.sch)
      (hq : (k.sch.tcb t).pwaitQueue = some q) (hres : q.isRes = true)
      (hr : SameRes k k') (hp : k'.pend = k.pend) (hg : Grows k k') (ha : a.release t) :
      Act a k [.cancel t (waitCall q (k.sch.tcb t).dataElem)] k'
  | block {k k' : Kernel} {t : TaskId} {q : Que} {data : Nat} (h : Join t q k.sch k'.sch)
      (hres : q.isRes = true) (hl : k.live q = true) (hx : Exhausted k q data)
      (ht : t ≠ timerTask) (hw : (k.sch.tcb t).pwaitQueue = none)
      (hd : (k'.sch.tcb t).dataElem = data)
      (hr : SameRes k k') (hb : k.pend t = none) (hp : PendExcept t k k')
      (ha : k'.pend t = some (waitCall q data)) (hg : Grows k k') :
      Act a k [.block t (waitCall q data)] k'
  | back {k k' : Kernel} {t : TaskId} {c : Call} (h : Quiet k.sch k'.sch)
      (hw : (k.sch.tcb t).taskState.isWait = false) (hc : k.pend t = some c) (hres : c.isRes = true)
      (hr : SameRes k k') (hp : PendExcept t k k') (ha : k'.pend t = none) (hg : Grows k k') :
      Act a k [.back t c (backRc (k.sch.tcb t) c) (backData (k.sch.tcb t) c)] k'
  | semParam {k k' : Kernel} {i : Nat} {obs : List Obs} (h : Changes k k')
      (hs : k'.sem = Function.update k.sem i { k.sem i with maxCount := 0 })
      (hd : k'.dque = k.dque) (hf : k'.fmp = k.fmp)
      (ho : ∀ o ∈ obs, o.silent = true) : Act a k obs k'
  | semCreate {k k' : Kernel} {i : Nat} {startValue maxVal : Int} (h : Changes k k')
      (hid : (k.sem i).idSem = false)
      (hs : k'.sem = Function.update k.sem i ⟨startValue, maxVal, true⟩)
      (hd : k'.dque = k.dque) (hf : k'.fmp = k.fmp) :
      Act a k [.ret (.semCreate i startValue) .noErr 0] k'
  | semSignal {k k' : Kernel} {i : Nat} (h : Changes k k')
      (hid : (k.sem i).idSem = true) (hl : k.sch.que (.sem i) = [])
      (hs : k'.sem = Function.update k.sem i { k.sem i with count := (k.sem i).count + 1 })
      (hd : k'.dque = k.dque) (hf : k'.fmp = k.fmp) : Act a k [.ret (.signal i) .noErr 0] k'
  | semGrant {k k' : Kernel} {i : Nat} {t : TaskId} {data : Nat} (h : Grants t (.sem i) data k k')
      (hr : SameRes k k') :
      Act a k [.ret (.signal i) .noErr 0, .grant t (.acquire i) 0] k'
  | semAcquire {k k' : Kernel} {i : Nat} (h : Changes k k') (hid : (k.sem i).idSem = true)
      (hc : 1 ≤ (k.sem i).count)
      (hs : k'.sem = Function.update k.sem i { k.sem i with count := (k.sem i).count - 1 })
      (hd : k'.dque = k.dque) (hf : k'.fmp = k.fmp) : Act a k [.ret (.acquire i) .noErr 0] k'
  | queueCreate {k k' : Kernel} {i n : Nat} {obs : List Obs} (h : Changes k k')
      (hid : (k.dque i).idDque = false)
      (hd : k'.dque = Function.update k.dque i { k.dque i with
        numEntries := n, tailCnt := 0, headerCnt := 0, idDque := true })
      (hs : k'.sem = k.sem) (hf : k'.fmp = k.fmp) (ho : ∀ o ∈ obs, o.silent = true) : Act a k obs k'
  | sendFifo {k k' : Kernel} {i data : Nat} (h : Changes k k') (hid : (k.dque i).idDque = true)
      (hl : k.sch.que (.wreceive i) = [])
      (hw : (dqueFifoWrite (k.dque i) data).1 = .noErr)
      (hd : k'.dque = Function.update k.dque i (dqueFifoWrite (k.dque i) data).2)
      (hs : k'.sem = k.sem) (hf : k'.fmp = k.fmp) : Act a k [.ret (.send i data) .noErr 0] k'
  | sendGrant {k k' : Kernel} {i data : Nat} {t : TaskId} (h : Grants t (.wreceive i) data k k')
      (hr : SameRes k k') :
      Act a k [.ret (.send i data) .noErr 0, .grant t (.receive i) data] k'
  | receiveFifo {k k' : Kernel} {i : Nat} (h : Changes k k') (hid : (k.dque i).idDque = true)
      (hl : k.sch.que (.wsend i) = []) (hw : (dqueFifoRead (k.dque i)).1 = .noErr)
      (hd : k'.dque = Function.update k.dque i (dqueFifoRead (k.dque i)).2.2)
      (hs : k'.sem = k.sem) (hf : k'.fmp = k.fmp) :
      Act a k [.ret (.receive i) .noErr (dqueFifoRead (k.dque i)).2.1] k'
  | receiveGrant {k k' : Kernel} {i data : Nat} {t : TaskId} (h : Grants t (.wsend i) data k k')
      (hdt : (k.sch.tcb t).dataElem = data) (hw : (dqueFifoRead (k.dque i)).1 = .noErr)
      (hd : k'.dque = Function.update k.dque i
        (dqueFifoWrite (dqueFifoRead (k.dque i)).2.2 data).2)
      (hs : k'.sem = k.sem) (hf : k'.fmp = k.fmp) :
      Act a k [.ret (.receive i) .noErr (dqueFifoRead (k.dque i)).2.1, .grant t (.send i data) 0] k'
  | receiveDirect {k k' : Kernel} {i data : Nat} {t : TaskId} (h : Grants t (.wsend i) data k k')
      (hdt : (k.sch.tcb t).dataElem = data) (hw : (dqueFifoRead (k.dque i)).1 ≠ .noErr)
      (hr : SameRes k k') :
      Act a k [.ret (.receive i) .noErr data, .grant t (.send i data) 0] k'
  | fmemCreate {k k' : Kernel} {i startAddr blockSize : Nat} {numBlocks : Int} {x : Fmp}
      {obs : List Obs} (h : Changes k k') (hid : (k.fmp i).idFmp = false)
      (hx : x.idFmp = true → FmpNew startAddr blockSize numBlocks x)
      (ha : a.create startAddr blockSize numBlocks)
      (hf : k'.fmp = Function.update k.fmp i x) (hs : k'.sem = k.sem) (hd : k'.dque = k.dque)
      (ho : ∀ o ∈ obs, o.silent = true) : Act a k obs k'
  | fmemGet {k k' : Kernel} {i : Nat} (h : Changes k k') (hid : (k.fmp i).idFmp = true)
      (hc : 0 < (k.fmp i).fblkcnt)
      (hf : k'.fmp = Function.update k.fmp i { k.fmp i with
        freeList := (k.fmp i).freeList.tail, fblkcnt := (k.fmp i).fblkcnt - 1 })
      (hs : k'.sem = k.sem) (hd : k'.dque = k.dque) :
      Act a k [.ret (.get i) .noErr ((k.fmp i).freeList.headD 0)] k'
  | fmemGrant {k k' : Kernel} {i block : Nat} {t : TaskId} (h : Grants t (.fmp i) block k k')
      (hr : SameRes k k') (ha : a.freed i block) :
      Act a k [.ret (.release i block) .noErr 0, .grant t (.get i) block] k'
  | fmemRelease {k k' : Kernel} {i block : Nat} (h : Changes k k') (hid : (k.fmp i).idFmp = true)
      (hl : k.sch.que (.fmp i) = [])
      (hf : k'.fmp = Function.update k.fmp i (if (k.fmp i).fblkcnt < (k.fmp i).numBlocks then
        { k.fmp i with freeList := block :: (k.fmp i).freeList, fblkcnt := (k.fmp i).fblkcnt + 1 }
        else k.fmp i))
      (hs : k'.sem = k.sem) (hd : k'.dque = k.dque) (ha : a.freed i block) :
      Act a k [.ret (.release i block) .noErr 0] k'

/-! ## The invariant of the kernel -/

/-- The scheduler invariant; a wait list with a task has its object; a task in the wait list of a
    resource is in the call that waits for it, and a task in such a call that waits is there; the
    timer task is in no such call, and the idle task holds no mutex. -/
structure KInv (k : Kernel) : Prop where
  sch : SInv none k.sch
  live : ∀ t q, (k.sch.tcb t).pwaitQueue = some q → k.live q = true
  call : ∀ t q, (k.sch.tcb t).pwaitQueue = some q → q.isRes = true →
    k.pend t = some (waitCall q (k.sch.tcb t).dataElem)
  wait : ∀ t c, (k.sch.tcb t).taskState.isWait = true → k.pend t = some c → c.isRes = true →
    ∃ q, (k.sch.tcb t).pwaitQueue = some q ∧ q.isRes = true
  timer : ∀ c, k.pend timerTask = some c → c.isRes = false
  holder : ∀ m h, (k.mutex m).holder = some h → h ≠ idleTask

/-- The wait list of an object that does not exist is empty. -/
theorem KInv.que_nil (h : KInv k) {q : Que} (hq : q.isReady = false) (hl : k.live q = false) :
    k.sch.que q = [] := by
  rw [List.eq_nil_iff_forall_not_mem]
  intro t ht
  have := h.live t q (((h.sch.ok t).waits q hq).mp ht)
  rw [hl] at this
  cases this

section View

variable {s s' : Sched} (h : (s'.tcb u).waitView = (s.tcb u).waitView)
include h

theorem view_wait : (s'.tcb u).taskState.isWait = (s.tcb u).taskState.isWait :=
  congrArg WaitView.wait h

theorem view_que : (s'.tcb u).pwaitQueue = (s.tcb u).pwaitQueue := congrArg WaitView.que h

theorem view_rc : (s'.tcb u).taskWaitRc = (s.tcb u).taskWaitRc := congrArg WaitView.rc h

theorem view_data : (s'.tcb u).dataElem = (s.tcb u).dataElem := congrArg WaitView.data h

end View

/-- What the invariant says of one task. -/
def TaskInv (k : Kernel) (t : TaskId) : Prop :=
  (∀ q, (k.sch.tcb t).pwaitQueue = some q → k.live q = true) ∧
  (∀ q, (k.sch.tcb t).pwaitQueue = some q → q.isRes = true →
    k.pend t = some (waitCall q (k.sch.tcb t).dataElem)) ∧
  ∀ c, (k.sch.tcb t).taskState.isWait = true → k.pend t = some c → c.isRes = true →
    ∃ q, (k.sch.tcb t).pwaitQueue = some q ∧ q.isRes = true

theorem KInv.task (h : KInv k) (t : TaskId) : TaskInv k t := ⟨h.live t, h.call t, h.wait t⟩

theorem KInv.of_tasks (hk : KInv k) (hg : Grows k k') (h : SInv none k'.sch)
    (htm : ∀ c, k'.pend timerTask = some c → c.isRes = false) (ht : ∀ t, TaskInv k' t) : KInv k' := by
  refine ⟨h, fun t => (ht t).1, fun t => (ht t).2.1, fun t => (ht t).2.2, htm, fun m u hu => ?_⟩
  rcases hg.holder m u hu with hc | hc
  · exact hk.holder m u hc
  · exact hc

theorem TaskInv.of_view (h : TaskInv k t) (hg : Grows k k') (hp : k'.pend t = k.pend t)
    (hv : (k'.sch.tcb t).waitView = (k.sch.tcb t).waitView) : TaskInv k' t := by
  unfold TaskInv
  rw [view_wait hv, view_que hv, view_data hv, hp]
  exact ⟨fun q hq => hg.live q (h.1 q hq), h.2.1, h.2.2⟩

/-- A task that does not wait. -/
theorem TaskInv.of_not_wait (hw : (k.sch.tcb t).taskState.isWait = false)
    (hq : (k.sch.tcb t).pwaitQueue = none) : TaskInv k t := by
  unfold TaskInv
  rw [hw, hq]
  exact ⟨fun q hc => (by cases hc), fun q hc => (by cases hc), fun c hc => by cases hc⟩

/-- A task in no call for a resource. -/
theorem TaskInv.of_free (hp : ∀ c, k.pend t = some c → c.isRes = false)
    (hq : ∀ q, (k.sch.tcb t).pwaitQueue = some q → q.isRes = false)
    (hl : ∀ q, (k.sch.tcb t).pwaitQueue = some q → k.live q = true) : TaskInv k t := by
  refine ⟨hl, fun q hc hres => ?_, fun c _ hc hres => ?_⟩
  · rw [hq q hc] at hres
    cases hres
  · rw [hp c hc] at hres
    cases hres

/-- The acts keep the invariant. -/
theorem Act.kinv {a : Allow} (h : Act a k obs k') (hk : KInv k) (hs : SInv none k'.sch) :
    KInv k' := by
  -- an act on one task
  have single : ∀ t, (∀ u, u ≠ t → (k'.sch.tcb u).waitView = (k.sch.tcb u).waitView) →
      PendExcept t k k' → Grows k k' → TaskInv k' t →
      (t = timerTask → ∀ c, k'.pend timerTask = some c → c.isRes = false) → KInv k' := by
    intro t hv hp hg ht htm
    refine hk.of_tasks hg hs ?_ fun u => ?_
    · by_cases hu : timerTask = t
      · exact htm hu.symm
      · rw [hp _ hu]
        exact hk.timer
    · by_cases hu : u = t
      · rw [hu]
        exact ht
      · exact (hk.task u).of_view hg (hp u hu) (hv u hu)
  have changes : Changes k k' → KInv k' := fun hc =>
    hk.of_tasks hc.grows hs (by rw [hc.pend]; exact hk.timer) fun u =>
      (hk.task u).of_view hc.grows (by rw [hc.pend]) (hc.quiet.view u)
  have leaves : ∀ t, Leave t k.sch k'.sch → Grows k k' → k'.pend = k.pend → KInv k' :=
    fun t hl hg hp => single t hl.view (fun u _ => by rw [hp]) hg (.of_not_wait hl.wait hl.after)
      fun _ => by rw [hp]; exact hk.timer
  have grants : ∀ t q data, Grants t q data k k' → KInv k' := fun t q data hg =>
    leaves t hg.leave hg.grows hg.pend
  cases h with
  | quiet h => exact changes h
  | @free _ _ t h hr hp hg hb ha hn =>
    refine single t h.view hp hg (.of_free ha h.after hn) fun ht => ?_
    rw [← ht]
    exact ha
  | @reset _ _ t h hw hr hp hg ha =>
    refine single t h.view hp hg (.of_free (fun c hc => ?_) h.after fun q hq => ?_) fun ht c hc => ?_
    · rw [ha] at hc
      cases hc
    · rw [hw] at hq
      cases hq
    · rw [← ht, ha] at hc
      cases hc
  | @resetWait _ t _ h hq hres hr hp hg ha =>
    refine single t h.view hp hg (.of_not_wait h.wait h.after) fun ht c hc => ?_
    rw [← ht, ha] at hc
    cases hc
  | @cancel _ t _ h hq hres hd hr hp hg => exact leaves t h hg hp
  | @release _ t _ h hq hres hr hp hg => exact leaves t h hg hp
  | @block _ t q data h hres hl hx ht hw hd hr hb hp ha hg =>
    refine single t h.view hp hg ?_ fun hc => absurd hc ht
    unfold TaskInv
    rw [h.after, ha, hd]
    refine ⟨fun q' hq' => ?_, fun q' hq' _ => ?_, fun c _ _ _ => ⟨q, rfl, hres⟩⟩
    · rw [← Option.some.inj hq']
      exact hg.live q hl
    · rw [Option.some.inj hq']
  | @back _ t c h hw hc hres hr hp ha hg =>
    have hw' := (view_wait (h.view t)).trans hw
    refine single t (fun v _ => h.view v) hp hg (.of_not_wait hw' ((hs.ok t).pwait_none hw'))
      fun ht c hc => ?_
    rw [← ht, ha] at hc
    cases hc
  | semParam h => exact changes h
  | semCreate h => exact changes h
  | semSignal h => exact changes h
  | semGrant h => exact grants _ _ _ h
  | semAcquire h => exact changes h
  | queueCreate h => exact changes h
  | sendFifo h => exact changes h
  | sendGrant h => exact grants _ _ _ h
  | receiveFifo h => exact changes h
  | receiveGrant h => exact grants _ _ _ h
  | receiveDirect h => exact grants _ _ _ h
  | fmemCreate h => exact changes h
  | fmemGet h => exact changes h
  | fmemGrant h => exact grants _ _ _ h
  | fmemRelease h => exact changes h

/-- A sequence of acts, with the scheduler invariant behind each of them. -/
inductive Acts (a : Allow) : Kernel → List Obs → Kernel → Prop
  | nil (k : Kernel) : Acts a k [] k
  | cons {k k₁ k' : Kernel} {obs obs' : List Obs} (h : Act a k obs k₁) (hs : SInv none k₁.sch)
      (hr : Acts a k₁ obs' k') : Acts a k (obs ++ obs') k'

variable {a : Allow}

theorem Act.acts (h : Act a k obs k') (hs : SInv none k'.sch) : Acts a k obs k' := by
  have := Acts.cons h hs (.nil k')
  rwa [List.append_nil] at this

theorem Acts.trans {k₁ : Kernel} {obs' : List Obs} (h : Acts a k obs k₁) (h' : Acts a k₁ obs' k') :
    Acts a k (obs ++ obs') k' := by
  induction h with
  | nil => exact h'
  | cons h hs _ ih =>
    rw [List.append_assoc]
    exact .cons h hs (ih h')

/-- **Induction rule.**  What every act keeps, every sequence of acts keeps. -/
theorem Acts.induct (inv : Kernel → List Obs → Prop)
    (hstep : ∀ k k' hist obs, KInv k → KInv k' → inv k hist → Act a k obs k' → inv k' (hist ++ obs))
    (h : Acts a k obs k') (hist : List Obs) (hk : KInv k) (hi : inv k hist) :
    KInv k' ∧ inv k' (hist ++ obs) := by
  induction h generalizing hist with
  | nil => simpa using ⟨hk, hi⟩
  | cons h hs _ ih =>
    have hk₁ := h.kinv hk hs
    rw [← List.append_assoc]
    exact ih _ hk₁ (hstep _ _ _ _ hk hk₁ hi h)

theorem Acts.kinv (h : Acts a k obs k') (hk : KInv k) : KInv k' :=
  (h.induct (fun _ _ => True) (fun _ _ _ _ _ _ _ _ => trivial) [] hk trivial).1

end TnKernel
