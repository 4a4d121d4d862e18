import TnNet.Kernel.MutexActs
import TnNet.Kernel.WaitComplete

/-!
# What the services leave of a control block

`Moves` — behind a service the remembered wake-ups are the same, and a task that waits has waited before
it, with the same time left and in the same list; the task that blocks in the call is the exception.
The code of a wait is the same but for the tasks whose wait is completed.  It is proved of every service
on an object, of the routines they use, and of the services on tasks that neither sleep, wake nor reset
a task.
-/

set_option autoImplicit false

namespace TnKernel

variable {s s' s'' : Sched} {k : Kernel} {t u : TaskId} {o : Option TaskId} {w : TaskId → Prop}
  {q : Que} {i : Nat}

/-- The control block of a task that does not block. -/
structure Tcb.Kept (b b' : Tcb) : Prop where
  wakeups : b'.wakeupCount = b.wakeupCount
  wait : b'.taskState.isWait = true →
    b.taskState.isWait = true ∧ b'.tickCount = b.tickCount ∧ b'.pwaitQueue = b.pwaitQueue
  queue : ∀ q, b'.pwaitQueue = some q → b.pwaitQueue = some q

theorem Tcb.Kept.refl (b : Tcb) : b.Kept b := ⟨rfl, fun h => ⟨h, rfl, rfl⟩, fun _ h => h⟩

theorem Tcb.Kept.trans {b b' b'' : Tcb} (h1 : b.Kept b') (h2 : b'.Kept b'') : b.Kept b'' := by
  refine ⟨h2.wakeups.trans h1.wakeups, fun hw => ?_, fun q hq => h1.queue q (h2.queue q hq)⟩
  obtain ⟨hw', ht, hq⟩ := h2.wait hw
  obtain ⟨hw'', ht', hq'⟩ := h1.wait hw'
  exact ⟨hw'', ht.trans ht', hq.trans hq'⟩

/-- A task that does not wait behind a service. -/
theorem Tcb.Kept.of_not_wait {b b' : Tcb} (hc : b'.wakeupCount = b.wakeupCount)
    (hw : b'.taskState.isWait = false) (hq : b'.pwaitQueue = none ∨ b'.pwaitQueue = b.pwaitQueue) :
    b.Kept b' := by
  refine ⟨hc, fun h => (by rw [hw] at h; cases h), fun q h => ?_⟩
  rcases hq with hq | hq
  · rw [hq] at h
    cases h
  · rwa [hq] at h

/-- All control blocks but that of the task that blocks; `w` holds of the tasks whose wait may be
    completed. -/
structure Moves (o : Option TaskId) (w : TaskId → Prop) (s s' : Sched) : Prop where
  wakeups : ∀ t, (s'.tcb t).wakeupCount = (s.tcb t).wakeupCount
  wait : ∀ t, some t ≠ o → (s.tcb t).Kept (s'.tcb t)
  code : ∀ t, ¬ w t → (s'.tcb t).taskWaitRc = (s.tcb t).taskWaitRc

/-- The tasks that wait are among these. -/
structure Covers (w : TaskId → Prop) (s : Sched) : Prop where
  state : ∀ t, (s.tcb t).taskState.isWait = true → w t
  list : ∀ t q, q.isReady = false → t ∈ s.que q → w t
  queue : ∀ t q, (s.tcb t).pwaitQueue = some q → w t

theorem covers_true (s : Sched) : Covers (fun _ => True) s :=
  ⟨fun _ _ => trivial, fun _ _ _ _ => trivial, fun _ _ _ => trivial⟩

theorem SInv.covers (h : SInv none s) : Covers (fun t => (s.tcb t).taskState.isWait = true) s :=
  ⟨fun _ hw => hw, fun t q hq hm => ((h.ok t).wait q (((h.ok t).waits q hq).mp hm)).1,
    fun t q hq => ((h.ok t).wait q hq).1⟩

theorem Moves.refl (o : Option TaskId) (s : Sched) : Moves o w s s :=
  ⟨fun _ => rfl, fun _ _ => .refl _, fun _ _ => rfl⟩

theorem Moves.trans (h1 : Moves o w s s') (h2 : Moves o w s' s'') : Moves o w s s'' :=
  ⟨fun t => (h2.wakeups t).trans (h1.wakeups t), fun t ht => (h1.wait t ht).trans (h2.wait t ht),
    fun t ht => (h2.code t ht).trans (h1.code t ht)⟩

theorem Moves.weaken (h : Moves none w s s') : Moves o w s s' :=
  ⟨h.wakeups, fun t _ => h.wait t (by simp), h.code⟩

theorem Moves.of_tcb (h : s'.tcb = s.tcb) : Moves o w s s' :=
  ⟨fun t => by rw [h], fun t _ => by rw [h]; exact .refl _, fun t _ => by rw [h]⟩

/-- The state of another scheduler with the same control blocks. -/
theorem Moves.congr (h : Moves o w s s') (he : s''.tcb = s'.tcb) : Moves o w s s'' := h.trans (.of_tcb he)

/-- Only one control block changes. -/
theorem Moves.frame (hf : ∀ u, u ≠ t → s'.tcb u = s.tcb u) (ht : (s.tcb t).Kept (s'.tcb t))
    (hc : ¬ w t → (s'.tcb t).taskWaitRc = (s.tcb t).taskWaitRc) : Moves o w s s' := by
  have h : ∀ u, (s.tcb u).Kept (s'.tcb u) := by
    intro u
    rcases eq_or_ne u t with rfl | hu
    · exact ht
    · rw [hf u hu]
      exact .refl _
  refine ⟨fun u => (h u).wakeups, fun u _ => h u, fun u hw => ?_⟩
  rcases eq_or_ne u t with rfl | hu
  · exact hc hw
  · rw [hf u hu]

/-! ## Routines -/

theorem moves_setTcb (s : Sched) (t : TaskId) {f : Tcb → Tcb} (hf : (s.tcb t).Kept (f (s.tcb t)))
    (hc : ¬ w t → (f (s.tcb t)).taskWaitRc = (s.tcb t).taskWaitRc) : Moves o w s (s.setTcb t f) :=
  .frame (fun _ hu => setTcb_ne s f hu) (by rw [setTcb_same]; exact hf) (by rw [setTcb_same]; exact hc)

/-- Fields of no concern are written. -/
theorem moves_fields (s : Sched) (t : TaskId) {f : Tcb → Tcb}
    (hf : ∀ b, { f b with
      wakeupCount := b.wakeupCount, taskState := b.taskState, tickCount := b.tickCount
      pwaitQueue := b.pwaitQueue, taskWaitRc := b.taskWaitRc } = f b) :
    Moves o w s (s.setTcb t f) := by
  have hb := hf (s.tcb t)
  refine moves_setTcb s t ⟨?_, fun hw => ⟨?_, ?_, ?_⟩, fun q hq => ?_⟩ fun _ => ?_
  · rw [← hb]
  · rwa [← hb] at hw
  · rw [← hb]
  · rw [← hb]
  · rwa [← hb] at hq
  · rw [← hb]

theorem moves_toRunnable (t : TaskId) (s : Sched) : Moves o w s (taskToRunnable t s) := by
  refine .frame (taskToRunnable_frame t s).tcb ?_ ?_
  · rw [taskToRunnable_tcb]
    exact .of_not_wait rfl rfl (.inl rfl)
  · rw [taskToRunnable_tcb]
    exact fun _ => rfl

theorem moves_waitComplete (t : TaskId) (remove : Bool) (s : Sched) (ht : w t) :
    Moves o w s (taskWaitComplete t remove s).2 := by
  refine .frame (waitComplete_frame t remove s).tcb ?_ fun hn => absurd ht hn
  rw [waitComplete_self]
  exact .of_not_wait rfl (released_isWait _) (.inl rfl)

theorem moves_toNonRunnable (t : TaskId) (s : Sched) : Moves o w s (taskToNonRunnable t s) :=
  .of_tcb (taskToNonRunnable_tcb t s)

theorem moves_changePriority (t : TaskId) (p : Nat) (s : Sched) :
    Moves o w s (changeRunningTaskPriority t p s) := by
  have hb := changeRunningTaskPriority_tcb t p s
  refine .frame (changeRunningTaskPriority_frame t p s).tcb ?_ ?_
  · rw [hb]
    exact ⟨rfl, fun hw => ⟨hw, rfl, rfl⟩, fun _ hq => hq⟩
  · rw [hb]
    exact fun _ => rfl

theorem moves_setPriority {p : Nat} (h : setCurrentPriority t p s = some s') : Moves o w s s' := by
  unfold setCurrentPriority at h
  dsimp only at h
  split at h
  · cases h
    exact .refl o s
  split at h
  · cases h
    exact moves_changePriority t p s
  split at h
  · cases h
  · cases h
    exact moves_fields s t fun _ => rfl

/-- What the task that blocks keeps. -/
theorem block_keeps (waitQue : Option Que) (reason : WaitReason) (timeout : BitVec 32) (s : Sched) :
    ((taskCurrToWaitAction waitQue reason timeout s).tcb s.currRunTask).wakeupCount =
        (s.tcb s.currRunTask).wakeupCount ∧
      ((taskCurrToWaitAction waitQue reason timeout s).tcb s.currRunTask).taskWaitRc =
        (s.tcb s.currRunTask).taskWaitRc := by
  rw [taskCurrToWaitAction_eq, joinTimeouts_tcb]
  cases waitQue <;> simp [joinQue, taskToNonRunnable_tcb, queueAddTail]

/-- **The running task blocks.** -/
theorem moves_block (waitQue : Option Que) (reason : WaitReason) (timeout : BitVec 32) (s : Sched) :
    Moves (some s.currRunTask) w s (taskCurrToWaitAction waitQue reason timeout s) := by
  have hf := (taskCurrToWaitAction_frame waitQue reason timeout s).tcb
  obtain ⟨h1, h2⟩ := block_keeps waitQue reason timeout s
  constructor
  · intro t
    rcases eq_or_ne t s.currRunTask with rfl | ht
    · exact h1
    · rw [hf t ht]
  · intro t ht
    rw [hf t fun heq => ht (congrArg some heq)]
    exact .refl _
  · intro t _
    rcases eq_or_ne t s.currRunTask with rfl | ht
    · exact h2
    · rw [hf t ht]

/-! ## Services on tasks -/

theorem moves_suspend (t : TaskId) (s : Sched) : Moves o w s (tnTaskSuspend t s).2 := by
  unfold tnTaskSuspend
  dsimp only
  split
  · exact .refl o s
  split
  · exact .refl o s
  split
  · exact .refl o s
  split
  · have h : Moves o w s (s.setTcb t fun b => { b with taskState := .suspend }) :=
      moves_setTcb s t (.of_not_wait rfl rfl (.inr rfl)) fun _ => rfl
    exact h.trans (moves_toNonRunnable t _)
  · -- a task that is neither suspended, dormant nor runnable waits
    rename_i hs hd hr
    dsimp only
    refine moves_setTcb s t ⟨rfl, fun _ => ⟨?_, rfl, rfl⟩, fun _ h => h⟩ fun _ => rfl
    revert hs hd hr
    cases (s.tcb t).taskState <;> simp [TaskState.isWait, TaskState.isSuspend]

theorem moves_resume (t : TaskId) (s : Sched) : Moves o w s (tnTaskResume t s).2 := by
  unfold tnTaskResume
  dsimp only
  split
  · exact .refl o s
  split
  · exact .refl o s
  split
  · exact moves_toRunnable t s
  · rename_i hw
    dsimp only
    refine moves_setTcb s t ⟨rfl, fun _ => ⟨?_, rfl, rfl⟩, fun _ h => h⟩ fun _ => rfl
    simpa using hw

theorem moves_activate (t : TaskId) (s : Sched) : Moves o w s (tnTaskActivate t s).2 := by
  unfold tnTaskActivate
  dsimp only
  split
  · exact .refl o s
  split
  · exact moves_toRunnable t s
  split
  · dsimp only
    exact moves_fields s t fun _ => rfl
  · exact .refl o s

theorem moves_releaseWait (hc : Covers w s) (t : TaskId) : Moves o w s (tnTaskReleaseWait t s).2 := by
  unfold tnTaskReleaseWait
  dsimp only
  split
  · exact .refl o s
  split
  · exact .refl o s
  · rename_i hw
    exact moves_waitComplete t true s (hc.state t (by simpa using hw))

theorem moves_delete (t : TaskId) (s : Sched) : Moves o w s (tnTaskDelete t s).2 := by
  unfold tnTaskDelete
  dsimp only
  split
  · exact .refl o s
  split
  · exact .refl o s
  · dsimp only
    exact moves_fields s t fun _ => rfl

theorem moves_taskChangePriority (t : TaskId) (p : Int) (s : Sched) :
    Moves o w s (tnTaskChangePriority t p s).2 := by
  unfold tnTaskChangePriority
  dsimp only
  split
  · exact .refl o s
  split
  · exact .refl o s
  split
  · exact .refl o s
  split
  · exact moves_changePriority t _ s
  · dsimp only
    exact moves_fields s t fun _ => rfl

theorem moves_tsliceTicks (priority value : Int) (s : Sched) :
    Moves o w s (tnSysTsliceTicks priority value s).2 := by
  unfold tnSysTsliceTicks
  split <;> exact .of_tcb rfl

theorem moves_roundRobin (s : Sched) : Moves o w s (roundRobin s) := by
  unfold roundRobin
  dsimp only
  split
  · exact .refl o s
  · have h1 : Moves o w s (s.setTcb s.currRunTask fun b => { b with tsliceCount := b.tsliceCount + 1 }) :=
      moves_fields s s.currRunTask fun _ => rfl
    have h2 : Moves o w s
        ((s.setTcb s.currRunTask fun b => { b with tsliceCount := b.tsliceCount + 1 }).setTcb
        s.currRunTask fun b => { b with tsliceCount := 0 }) := h1.trans (moves_fields _ _ fun _ => rfl)
    split
    · exact h2.congr rfl
    · exact h1

/-- The tick makes the timer task runnable. -/
theorem moves_tick (s : Sched) (ht : w timerTask) : Moves o w s (tnTickIntProcessing s) := by
  have h1 : Moves o w (roundRobin s) (queueRemoveEntry timerTask (roundRobin s)) := .of_tcb rfl
  have h2 : Moves o w (roundRobin s) ((queueRemoveEntry timerTask (roundRobin s)).setTcb timerTask fun b =>
      { b with taskWaitReason := none, taskState := .runnable, pwaitQueue := none,
               taskWaitRc := .noErr }) := by
    refine h1.trans (moves_setTcb _ _ ?_ fun hn => absurd ht hn)
    exact .of_not_wait rfl rfl (.inl rfl)
  exact ((moves_roundRobin s).trans h2).congr rfl

/-! ## Services on objects -/

/-- A task at the head of a wait list is woken. -/
theorem moves_wakeHead (k : Kernel) (q : Que) (t : TaskId) (ht : w t) :
    Moves o w k.sch (k.wakeHead q t).sch := by
  have h : Moves o w k.sch (queueRemoveHead q k.sch) := .of_tcb rfl
  exact h.trans (moves_waitComplete t false _ ht)

/-- The head of a wait list waits. -/
theorem Covers.head (hc : Covers w s) {l : List TaskId} (hq : q.isReady = false)
    (hl : s.que q = t :: l) : w t :=
  hc.list t q hq (by rw [hl]; exact List.mem_cons_self)

theorem moves_setDataElem (k : Kernel) (t : TaskId) (data : Nat) :
    Moves o w k.sch (k.setDataElem t data).sch := by
  unfold Kernel.setDataElem
  dsimp only
  exact moves_fields k.sch t fun _ => rfl

theorem moves_blockIn (k : Kernel) (c : Call) (q : Que) (reason : WaitReason) (timeout : BitVec 32) :
    Moves (some k.sch.currRunTask) w k.sch (k.blockIn c q reason timeout).1.sch :=
  moves_block (some q) reason timeout k.sch

theorem moves_semCreate (i : Nat) (startValue maxVal : Int) (k : Kernel) :
    Moves o w k.sch (tnSemCreate i startValue maxVal k).1.sch := by
  unfold tnSemCreate
  split <;> exact .of_tcb rfl

theorem moves_semSignal (hc : Covers w k.sch) (i : Nat) : Moves o w k.sch (tnSemSignal i k).1.sch := by
  unfold tnSemSignal
  split
  · exact .refl o _
  split
  · exact .refl o _
  split
  · rename_i t l hl
    exact moves_wakeHead k _ t (hc.head rfl hl)
  · split <;> exact .refl o _

theorem moves_semAcquire (i : Nat) (timeout : BitVec 32) (k : Kernel) :
    Moves (some k.sch.currRunTask) w k.sch (tnSemAcquire i timeout k).1.sch := by
  unfold tnSemAcquire
  split
  · exact .refl _ _
  split
  · exact .refl _ _
  split
  · exact .refl _ _
  · exact moves_blockIn k _ _ _ _

theorem moves_semPolling (i : Nat) (k : Kernel) : Moves o w k.sch (tnSemPolling i k).1.sch := by
  unfold tnSemPolling
  repeat' split
  all_goals exact .refl o _

theorem moves_queueCreate (i : Nat) (hasFifo : Bool) (n : Int) (k : Kernel) :
    Moves o w k.sch (tnQueueCreate i hasFifo n k).1.sch := by
  unfold tnQueueCreate
  split <;> exact .of_tcb rfl

theorem moves_queueSend (hc : Covers w k.sch) (i data : Nat) {onFull : Kernel → Res}
    (hf : Moves o w k.sch (onFull k).1.sch) :
    Moves o w k.sch (queueSend i data onFull k).1.sch := by
  unfold queueSend
  split
  · exact .refl o _
  split
  · rename_i t l hl
    exact (moves_setDataElem k t data).trans (moves_wakeHead _ _ t (hc.head rfl hl))
  split
  · exact .refl o _
  · exact hf

theorem moves_tnQueueSend (hc : Covers w k.sch) (i data : Nat) (timeout : BitVec 32) :
    Moves (some k.sch.currRunTask) w k.sch (tnQueueSend i data timeout k).1.sch := by
  unfold tnQueueSend
  split
  · exact .refl _ _
  · refine moves_queueSend hc i data ?_
    exact (moves_setDataElem k _ data).trans (moves_blockIn (k.setDataElem k.sch.currRunTask data) _ _ _ _)

theorem moves_queueReceive (hc : Covers w k.sch) (i : Nat) {onEmpty : Kernel → Res}
    (he : Moves o w k.sch (onEmpty k).1.sch) :
    Moves o w k.sch (queueReceive i onEmpty k).1.sch := by
  unfold queueReceive
  split
  · exact .refl o _
  dsimp only
  split
  · split
    · rename_i t l hl
      exact Moves.trans (.of_tcb rfl) (moves_wakeHead ((k.setDque i _).setDque i _) _ t (hc.head rfl hl))
    · exact .refl o _
  · split
    · rename_i t l hl
      exact moves_wakeHead k _ t (hc.head rfl hl)
    · exact he

theorem moves_tnQueueReceive (hc : Covers w k.sch) (i : Nat) (timeout : BitVec 32) :
    Moves (some k.sch.currRunTask) w k.sch (tnQueueReceive i timeout k).1.sch := by
  unfold tnQueueReceive
  split
  · exact .refl _ _
  · exact moves_queueReceive hc i (moves_blockIn k _ _ _ _)

theorem moves_eventCreate (i : Nat) (attr pattern : BitVec 32) (k : Kernel) :
    Moves o w k.sch (tnEventCreate i attr pattern k).1.sch := by
  unfold tnEventCreate
  dsimp only
  split
  · exact .refl o _
  split <;> exact .of_tcb rfl

theorem moves_eventWait (i : Nat) (pattern mode : BitVec 32) {onFalse : Kernel → Res}
    (hf : Moves o w k.sch (onFalse k).1.sch) :
    Moves o w k.sch (eventWait i pattern mode onFalse k).1.sch := by
  unfold eventWait
  split
  · exact .refl o _
  split
  · exact .refl o _
  split
  · exact .refl o _
  split
  · unfold Kernel.ret
    dsimp only
    split <;> exact .refl o _
  · exact hf

theorem moves_tnEventWait (i : Nat) (pattern mode timeout : BitVec 32) (k : Kernel) :
    Moves (some k.sch.currRunTask) w k.sch (tnEventWait i pattern mode timeout k).1.sch := by
  unfold tnEventWait
  split
  · exact .refl _ _
  · have h1 : Moves (some k.sch.currRunTask) w k.sch (k.sch.setTcb k.sch.currRunTask fun b =>
        { b with ewaitMode := mode, ewaitPattern := pattern }) := moves_fields _ _ fun _ => rfl
    have h2 := moves_blockIn (w := w) { k with sch := k.sch.setTcb k.sch.currRunTask fun b =>
      { b with ewaitMode := mode, ewaitPattern := pattern } } (.eventWait i) (.event i) .event timeout
    exact moves_eventWait i pattern mode (h1.trans h2)

theorem moves_scanTask (p : BitVec 32) (x : Bool × Sched) (t : TaskId) (ht : w t) :
    Moves o w x.2 (scanEventTask p x t).2 := by
  unfold scanEventTask
  dsimp only
  split
  · have h1 : Moves o w x.2 (queueRemoveEntry t x.2) := .of_tcb rfl
    have h2 : Moves o w x.2 ((queueRemoveEntry t x.2).setTcb t fun b => { b with ewaitPattern := p }) :=
      h1.trans (moves_fields _ _ fun _ => rfl)
    exact h2.trans (moves_waitComplete t false _ ht)
  · exact .refl o _

theorem moves_scan (p : BitVec 32) (l : List TaskId) (x : Bool × Sched) (hl : ∀ t ∈ l, w t) :
    Moves o w x.2 (l.foldl (scanEventTask p) x).2 := by
  induction l generalizing x with
  | nil => exact .refl o _
  | cons t l ih =>
    have h := moves_scanTask (o := o) p x t (hl t List.mem_cons_self)
    exact h.trans (ih _ fun u hu => hl u (List.mem_cons_of_mem t hu))

theorem moves_eventSet (hc : Covers w k.sch) (i : Nat) (pattern : BitVec 32) :
    Moves o w k.sch (tnEventSet i pattern k).1.sch := by
  unfold tnEventSet
  dsimp only
  split
  · exact .refl o _
  split
  · exact .refl o _
  split <;> exact moves_scan _ _ (false, k.sch) fun t ht => hc.list t _ rfl ht

theorem moves_eventClear (i : Nat) (pattern : BitVec 32) (k : Kernel) :
    Moves o w k.sch (tnEventClear i pattern k).1.sch := by
  unfold tnEventClear
  repeat' split
  all_goals exact .refl o _

theorem moves_fmemCreate (i startAddr blockSize : Nat) (numBlocks : Int) (k : Kernel) :
    Moves o w k.sch (tnFmemCreate i startAddr blockSize numBlocks k).1.sch := by
  unfold tnFmemCreate
  dsimp only
  repeat' split
  all_goals exact .of_tcb rfl

theorem moves_fmemGet (i : Nat) {onEmpty : Kernel → Res} (he : Moves o w k.sch (onEmpty k).1.sch) :
    Moves o w k.sch (fmemGet i onEmpty k).1.sch := by
  unfold fmemGet
  split
  · exact .refl o _
  split
  · exact .refl o _
  · exact he

theorem moves_tnFmemGet (i : Nat) (timeout : BitVec 32) (k : Kernel) :
    Moves (some k.sch.currRunTask) w k.sch (tnFmemGet i timeout k).1.sch := by
  unfold tnFmemGet
  split
  · exact .refl _ _
  · exact moves_fmemGet i (moves_blockIn k _ _ _ _)

theorem moves_fmemRelease (hc : Covers w k.sch) (i block : Nat) :
    Moves o w k.sch (tnFmemRelease i block k).1.sch := by
  unfold tnFmemRelease
  split
  · exact .refl o _
  split
  · rename_i t l hl
    exact (moves_setDataElem k t block).trans (moves_wakeHead _ _ t (hc.head rfl hl))
  · unfold Kernel.ret
    dsimp only
    split <;> exact .refl o _

/-! ## Mutexes -/

theorem moves_mutexCreate (i : Nat) (attr : MutexAttr) (ceilPriority : Int) (k : Kernel) :
    Moves o w k.sch (tnMutexCreate i attr ceilPriority k).1.sch := by
  unfold tnMutexCreate
  repeat' split
  all_goals exact .of_tcb rfl

theorem moves_lockMutex (m : Nat) (t : TaskId) (k : Kernel) : Moves o w k.sch (lockMutex k m t).sch := by
  unfold lockMutex
  dsimp only
  exact moves_fields k.sch t fun _ => rfl

theorem moves_setBlkTask (t : TaskId) (blk : Option TaskId) (k : Kernel) :
    Moves o w k.sch (setBlkTask t blk k).sch := by
  unfold setBlkTask
  dsimp only
  exact moves_fields k.sch t fun _ => rfl

theorem moves_lockForWaiter (m : Nat) (t : TaskId) (k : Kernel) (ht : w t) :
    Moves o w k.sch (lockForWaiter m t k).sch := by
  have h := moves_lockMutex (o := o) (w := w) m t { k with sch := (taskWaitComplete t true k.sch).2 }
  exact (moves_waitComplete t true k.sch ht).trans h

/-- A task of `tn_blocked_tasks_list` gets its mutex. -/
theorem moves_grant (m : Nat) (t : TaskId) (k : Kernel) (l : List TaskId) (ht : w t) :
    Moves o w k.sch (setBlkTask t none
      (lockForWaiter m t { k with sch := { k.sch with blockedTasksList := l } })).sch := by
  have h1 : Moves o w k.sch { k.sch with blockedTasksList := l } := .of_tcb rfl
  have h2 := moves_lockForWaiter (o := o) m t { k with sch := { k.sch with blockedTasksList := l } } ht
  exact (h1.trans h2).trans (moves_setBlkTask t none _)

theorem moves_tryLock {x y : Kernel × List Obs} (hq : ∀ q, (x.1.sch.tcb t).pwaitQueue = some q → w t)
    (h : tryLockMutex x t = some y) : Moves o w x.1.sch y.1.sch := by
  unfold tryLockMutex at h
  dsimp only at h
  split at h
  · rename_i m hm
    split at h
    · cases h
      exact moves_grant m t x.1 _ (hq _ hm)
    · cases h
      exact .refl o _
  · cases h

/-- The loop over `tn_blocked_tasks_list`: a task of it waits in a list it has been in before. -/
theorem moves_tryBlocked {hi : TaskId} (l : List TaskId) {x y : Kernel × List Obs}
    (hq : ∀ t q, (x.1.sch.tcb t).pwaitQueue = some q → w t)
    (h : l.foldlM (fun x t => if t = hi then some x else tryLockMutex x t) x = some y) :
    Moves none w x.1.sch y.1.sch := by
  induction l generalizing x with
  | nil =>
    cases h
    exact .refl none _
  | cons t l ih =>
    obtain ⟨z, hz, hy⟩ := Option.bind_eq_some_iff.mp h
    have hstep : Moves none w x.1.sch z.1.sch := by
      dsimp only at hz
      split at hz
      · cases hz
        exact .refl none _
      · exact moves_tryLock (hq t) hz
    exact hstep.trans (ih (fun u q hu => hq u q ((hstep.wait u (by simp)).queue q hu)) hy)

theorem moves_unlockPriority {m : Nat} {k' : Kernel} (h : unlockPriority m k = some k') :
    Moves o w k.sch k'.sch := by
  obtain ⟨s, hs, rfl⟩ := Option.map_eq_some_iff.mp h
  exact Moves.trans (moves_fields k.sch _ fun _ => rfl) (moves_setPriority hs)

theorem changePriority_que (t : TaskId) (p : Nat) (s : Sched) (hq : q.isReady = false) :
    (changeRunningTaskPriority t p s).que q = (s.que q).erase t := by
  have hne : q ≠ .ready p := by
    rintro rfl
    cases hq
  unfold changeRunningTaskPriority findNextTaskToRun queueAddTail queueRemoveEntry
  dsimp only
  repeat' split
  all_goals simp [Function.update_of_ne hne]

theorem setPriority_que {p : Nat} (h : setCurrentPriority t p s = some s') (hq : q.isReady = false)
    (hu : u ∈ s'.que q) : u ∈ s.que q := by
  unfold setCurrentPriority at h
  dsimp only at h
  split at h
  · cases h
    exact hu
  split at h
  · cases h
    rw [changePriority_que t p s hq] at hu
    exact List.mem_of_mem_erase hu
  split at h
  · cases h
  · cases h
    exact hu

/-- No task begins to wait. -/
theorem Covers.moves (hc : Covers w s) (h : Moves none w s s')
    (hl : ∀ u q, q.isReady = false → u ∈ s'.que q → u ∈ s.que q) : Covers w s' :=
  ⟨fun t ht => hc.state t ((h.wait t (by simp)).wait ht).1, fun t q hq ht => hc.list t q hq (hl t q hq ht),
    fun t q hq => hc.queue t q ((h.wait t (by simp)).queue q hq)⟩

theorem Covers.unlockPriority {m : Nat} {k' : Kernel} (hc : Covers w k.sch)
    (h : TnKernel.unlockPriority m k = some k') : Covers w k'.sch := by
  refine hc.moves (moves_unlockPriority h) fun u q hq hu => ?_
  obtain ⟨s, hs, rfl⟩ := Option.map_eq_some_iff.mp h
  have hin := setPriority_que hs hq hu
  exact hin

theorem moves_doUnlock (hc : Covers w k.sch) {m : Nat} {r : Kernel × List Obs}
    (h : doUnlockMutex m k = some r) : Moves none w k.sch r.1.sch := by
  obtain ⟨k1, h1, h2⟩ := Option.bind_eq_some_iff.mp h
  refine (moves_unlockPriority h1).trans ?_
  have hc1 := hc.unlockPriority h1
  clear h1 hc
  dsimp only at h2
  split at h2
  · cases h2
    exact .refl none _
  · unfold unlockBlocked at h2
    dsimp only at h2
    split at h2
    · cases h2
    · have hb := moves_tryBlocked _ hc1.queue h2
      exact hb
  · rename_i t l hl _
    cases h2
    exact moves_lockForWaiter m t k1 (hc1.head rfl hl)
  · obtain ⟨t, ht, rfl⟩ := Option.map_eq_some_iff.mp h2
    unfold unlockToWaiter
    split
    · exact moves_grant m t k1 _ (hc1.list t _ rfl (hiPriTask_mem ht))
    · split
      · exact .refl none _
      · have h : Moves none w k1.sch (k1.sch.setTcb t fun b =>
            { b with taskWaitReason := some .mutexCBlk, blkTask := (enableLockMutex k1 t).2 }) :=
          moves_fields _ _ fun _ => rfl
        exact h.congr rfl

theorem moves_mutexUnlock (hc : Covers w k.sch) {m : Nat} {r : Res} (h : tnMutexUnlock m k = some r) :
    Moves none w k.sch r.1.sch := by
  unfold tnMutexUnlock at h
  split at h
  · cases h
    exact .refl none _
  split at h
  · cases h
    exact .refl none _
  · obtain ⟨r1, h1, rfl⟩ := Option.map_eq_some_iff.mp h
    have hd := moves_doUnlock hc h1
    exact hd

theorem moves_lockWait {m : Nat} {blk : Option TaskId} {reason : WaitReason} {timeout : BitVec 32} {r : Res}
    (h : lockWait m blk reason timeout k = some r) : Moves (some k.sch.currRunTask) w k.sch r.1.sch := by
  obtain ⟨s, hs, rfl⟩ := Option.map_eq_some_iff.mp h
  have hmove : Moves (some k.sch.currRunTask) w k.sch s ∧ s.currRunTask = k.sch.currRunTask := by
    split at hs
    · cases hs
      exact ⟨.refl _ _, rfl⟩
    · split at hs
      · exact ⟨moves_setPriority hs, (setCurrentPriority_state hs).1⟩
      · cases hs
        exact ⟨.refl _ _, rfl⟩
  have hblock := moves_block (w := w) (some (.mutex m)) reason timeout s
  rw [hmove.2] at hblock
  exact hmove.1.trans hblock

/-- A mutex that is free is locked. -/
theorem moves_lockNow (m : Nat) (t : TaskId) (k : Kernel) :
    Moves o w k.sch (setBlkTask t none (lockMutex k m t)).sch :=
  (moves_lockMutex m t k).trans (moves_setBlkTask t none _)

theorem moves_mutexLock {m : Nat} {timeout : BitVec 32} {r : Res} (h : tnMutexLock m timeout k = some r) :
    Moves (some k.sch.currRunTask) w k.sch r.1.sch := by
  unfold tnMutexLock at h
  dsimp only at h
  split at h
  · cases h
    exact .refl _ _
  split at h
  · cases h
    exact .refl _ _
  split at h
  · cases h
    exact .refl _ _
  split at h
  · cases h
    exact .refl _ _
  split at h
  · split at h
    · cases h
      exact moves_lockNow m _ k
    · -- the task waits, and is entered into `tn_blocked_tasks_list`
      obtain ⟨r1, h1, rfl⟩ := Option.map_eq_some_iff.mp h
      have h2 := moves_lockWait (w := w) h1
      have h3 : Moves (some k.sch.currRunTask) w k.sch
          { r1.1.sch with blockedTasksList := r1.1.sch.blockedTasksList ++ [k.sch.currRunTask] } :=
          h2.congr rfl
      have h4 := moves_setBlkTask (o := some k.sch.currRunTask) (w := w) k.sch.currRunTask
        (enableLockMutex k k.sch.currRunTask).2 { r1.1 with sch :=
          { r1.1.sch with blockedTasksList := r1.1.sch.blockedTasksList ++ [k.sch.currRunTask] } }
      exact h3.trans h4
  · exact moves_lockWait h
  · cases h
    exact moves_lockMutex m _ k
  · exact moves_lockWait h

theorem moves_mutexLockPolling (m : Nat) (k : Kernel) : Moves o w k.sch (tnMutexLockPolling m k).1.sch := by
  unfold tnMutexLockPolling
  dsimp only
  split
  · exact .refl o _
  split
  · exact .refl o _
  split
  · exact .refl o _
  split
  · split
    · exact moves_lockNow m _ k
    · exact .refl o _
  · exact moves_lockMutex m _ k
  · exact .refl o _

/-! ## Steps -/

/-- The services that wake a task, send one to sleep or reset one. -/
def Service.resets : Service → Bool
  | .create _ _ _ _ => true
  | .sleep _ => true
  | .wakeup _ => true
  | .exit _ => true
  | .terminate _ => true
  | _ => false

/-- The steps that do more than `Moves` says. -/
def Event.resets : Event → Bool
  | .task sv => sv.resets
  | .isr (.iwakeup _) => true
  | .timerLoop => true
  | _ => false

theorem moves_task (hc : Covers w k.sch) {sv : Service} {r : Res} (hs : sv.resets = false)
    (h : taskStep k sv = some r) : Moves (some k.sch.currRunTask) w k.sch r.1.sch := by
  cases sv <;> try cases hs
  all_goals try (simp only [taskStep, Option.some.injEq] at h; subst h)
  case suspend t => exact moves_suspend t k.sch
  case resume t => exact moves_resume t k.sch
  case activate t => exact moves_activate t k.sch
  case releaseWait t => exact moves_releaseWait hc t
  case delete t => exact moves_delete t k.sch
  case changePriority t p => exact moves_taskChangePriority t p k.sch
  case tsliceTicks p v => exact moves_tsliceTicks p v k.sch
  case semCreate i v m => exact moves_semCreate i v m k
  case semSignal i => exact moves_semSignal hc i
  case semAcquire i n => exact moves_semAcquire i n k
  case semPolling i => exact moves_semPolling i k
  case queueCreate i b n => exact moves_queueCreate i b n k
  case queueSend i d n => exact moves_tnQueueSend hc i d n
  case queueSendPolling i d => exact moves_queueSend hc i d (.refl _ _)
  case queueReceive i n => exact moves_tnQueueReceive hc i n
  case queueReceivePolling i => exact moves_queueReceive hc i (.refl _ _)
  case eventCreate i a p => exact moves_eventCreate i a p k
  case eventWait i p m n => exact moves_tnEventWait i p m n k
  case eventWaitPolling i p m => exact moves_eventWait i p m (.refl _ _)
  case eventSet i p => exact moves_eventSet hc i p
  case eventClear i p => exact moves_eventClear i p k
  case fmemCreate i a b n => exact moves_fmemCreate i a b n k
  case fmemGet i n => exact moves_tnFmemGet i n k
  case fmemGetPolling i => exact moves_fmemGet i (.refl _ _)
  case fmemRelease i b => exact moves_fmemRelease hc i b
  case mutexCreate i a p => exact moves_mutexCreate i a p k
  case mutexLock i n => exact moves_mutexLock h
  case mutexLockPolling i => exact moves_mutexLockPolling i k
  case mutexUnlock i => exact (moves_mutexUnlock hc h).weaken

theorem moves_isr (hc : Covers w k.sch) {sv : IService} (hs : Event.resets (.isr sv) = false) :
    Moves o w k.sch (isrStep k sv).1.sch := by
  cases sv <;> try cases hs
  case iactivate t => exact moves_activate t k.sch
  case ireleaseWait t => exact moves_releaseWait hc t
  case semIsignal i => exact moves_semSignal hc i
  case semIpolling i => exact moves_semPolling i k
  case queueIsendPolling i d => exact moves_queueSend hc i d (.refl o _)
  case queueIreceive i => exact moves_queueReceive hc i (.refl o _)
  case eventIwait i p m => exact moves_eventWait i p m (.refl o _)
  case eventIset i p => exact moves_eventSet hc i p
  case eventIclear i p => exact moves_eventClear i p k
  case fmemGetIpolling i => exact moves_fmemGet i (.refl o _)
  case fmemIrelease i b => exact moves_fmemRelease hc i b

theorem moves_back {r : Res} (h : kernelStep k .back = some r) : Moves o w k.sch r.1.sch := by
  cases h
  show Moves o w k.sch k.back.1.sch
  unfold Kernel.back
  dsimp only
  split <;> exact .refl o _

/-- **What a step leaves of the control blocks.** -/
theorem moves_step (hc : Covers w k.sch) (ht : w timerTask) {ev : Event} {r : Res} (hs : ev.resets = false)
    (h : kernelStep k ev = some r) :
    Moves (some k.sch.currRunTask) w k.sch r.1.sch := by
  cases ev with
  | task sv => exact moves_task hc hs h
  | isr sv =>
    cases h
    exact moves_isr hc hs
  | tick =>
    cases h
    exact moves_tick k.sch ht
  | timerLoop => cases hs
  | switchContext =>
    cases h
    exact .of_tcb rfl
  | back => exact moves_back h

end TnKernel
