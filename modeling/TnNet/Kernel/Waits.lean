import TnNet.Kernel.TaskInv

/-!
# What a step does to the tasks that wait

The resources of the kernel are the counts of the semaphores, the data of the queues and the blocks
of the memory pools.  A task that waits for one is in a wait list of its object, and its control
block keeps the result of the call until the call returns: `waitView` is that part of the block.
The routines of the scheduler do three things to the tasks that wait for a resource: nothing
(`Quiet`), something to a task that waits for none (`Free`), or they end the wait of one
(`Leave`); `task_curr_to_wait_action` begins one (`Join`).
-/

set_option autoImplicit false

namespace TnKernel

variable {s s' : Sched} {t u : TaskId} {f : Tcb → Tcb} {o : Option TaskId}

/-- The wait lists of the semaphores, data queues and memory pools. -/
def Que.isRes : Que → Bool
  | .sem _ => true
  | .wsend _ => true
  | .wreceive _ => true
  | .fmp _ => true
  | _ => false

theorem Que.not_ready_of_isRes {q : Que} (h : q.isRes = true) : q.isReady = false := by
  cases q <;> first | rfl | cases h

/-- The calls that ask for a resource or give one. -/
def Call.isRes : Call → Bool
  | .semCreate _ _ => true
  | .acquire _ => true
  | .signal _ => true
  | .send _ _ => true
  | .receive _ => true
  | .get _ => true
  | .release _ _ => true
  | _ => false

/-- What a control block says about a blocked call: whether and where it waits, its code and its
    datum. -/
structure WaitView where
  wait : Bool
  que : Option Que
  rc : Terr
  data : Nat

def Tcb.waitView (b : Tcb) : WaitView :=
  ⟨b.taskState.isWait, b.pwaitQueue, b.taskWaitRc, b.dataElem⟩

/-- Nothing happens to the tasks that wait for a resource. -/
structure Quiet (s s' : Sched) : Prop where
  que : ∀ q, q.isRes = true → s'.que q = s.que q
  view : ∀ u, (s'.tcb u).waitView = (s.tcb u).waitView

/-- The task waits for no resource, neither before nor after. -/
structure Free (t : TaskId) (s s' : Sched) : Prop where
  que : ∀ q, q.isRes = true → s'.que q = s.que q
  view : ∀ u, u ≠ t → (s'.tcb u).waitView = (s.tcb u).waitView
  before : ∀ q, (s.tcb t).pwaitQueue = some q → q.isRes = false
  after : ∀ q, (s'.tcb t).pwaitQueue = some q → q.isRes = false

/-- The wait of the task ends. -/
structure Leave (t : TaskId) (s s' : Sched) : Prop where
  que : ∀ q, q.isRes = true → s'.que q = (s.que q).filter (· ≠ t)
  view : ∀ u, u ≠ t → (s'.tcb u).waitView = (s.tcb u).waitView
  wait : (s'.tcb t).taskState.isWait = false
  after : (s'.tcb t).pwaitQueue = none

/-- The task begins to wait. -/
structure Join (t : TaskId) (q : Que) (s s' : Sched) : Prop where
  que : s'.que q = s.que q ++ [t]
  queNe : ∀ q', q'.isRes = true → q' ≠ q → s'.que q' = s.que q'
  view : ∀ u, u ≠ t → (s'.tcb u).waitView = (s.tcb u).waitView
  wait : (s'.tcb t).taskState.isWait = true
  after : (s'.tcb t).pwaitQueue = some q

theorem Quiet.refl (s : Sched) : Quiet s s := ⟨fun _ _ => rfl, fun _ => rfl⟩

theorem Quiet.trans {s₁ s₂ : Sched} (h₁ : Quiet s s₁) (h₂ : Quiet s₁ s₂) : Quiet s s₂ :=
  ⟨fun q hq => (h₂.que q hq).trans (h₁.que q hq), fun u => (h₂.view u).trans (h₁.view u)⟩

theorem quiet_setTcb (s : Sched) (t : TaskId) (hf : (f (s.tcb t)).waitView = (s.tcb t).waitView) :
    Quiet s (s.setTcb t f) := by
  refine ⟨fun _ _ => rfl, fun u => ?_⟩
  by_cases hu : u = t
  · rw [hu, setTcb_same]
    exact hf
  · rw [setTcb_ne s f hu]

/-! ## From the frame of a routine -/

/-- A task that is not in a queue. -/
theorem filter_self {l : List TaskId} (h : t ∉ l) : l.filter (· ≠ t) = l := by
  rw [List.filter_eq_self]
  intro a ha
  have : a ≠ t := by
    rintro rfl
    exact h ha
  simpa using this

theorem QInv.not_mem (h : QInv none s) {q : Que} (hq : q.isReady = false)
    (ht : (s.tcb t).pwaitQueue ≠ some q) : t ∉ s.que q := fun hm =>
  ht (((h.ok t).waits q hq).mp hm)

theorem Frame.leave (hf : Frame t s s') (h' : QInv none s')
    (hw : (s'.tcb t).taskState.isWait = false) : Leave t s s' := by
  have ht := (h'.ok t).pwait_none hw
  refine ⟨fun q hq => ?_, fun u hu => by rw [hf.tcb u hu], hw, ht⟩
  have hm : t ∉ s'.que q := h'.not_mem (Que.not_ready_of_isRes hq) (by rw [ht]; simp)
  rw [← hf.order, filter_self hm]

theorem Frame.free (hf : Frame t s s') (h : QInv none s) (h' : QInv none s')
    (hb : ∀ q, (s.tcb t).pwaitQueue = some q → q.isRes = false)
    (ha : ∀ q, (s'.tcb t).pwaitQueue = some q → q.isRes = false) : Free t s s' := by
  refine ⟨fun q hq => ?_, fun u hu => by rw [hf.tcb u hu], hb, ha⟩
  have hne : ∀ b : Option Que, (∀ q', b = some q' → q'.isRes = false) → b ≠ some q := by
    rintro b hb' rfl
    rw [hb' q rfl] at hq
    cases hq
  have h1 : t ∉ s.que q := h.not_mem (Que.not_ready_of_isRes hq) (hne _ hb)
  have h2 : t ∉ s'.que q := h'.not_mem (Que.not_ready_of_isRes hq) (hne _ ha)
  have := hf.order q
  rwa [filter_self h1, filter_self h2] at this

/-- A routine that keeps the wait view of a task that waits for nothing. -/
theorem Frame.quiet (hf : Frame t s s') (h : QInv none s) (h' : QInv none s')
    (hp : (s.tcb t).pwaitQueue = none) (hv : (s'.tcb t).waitView = (s.tcb t).waitView) :
    Quiet s s' := by
  have hp' : (s'.tcb t).pwaitQueue = none := (congrArg WaitView.que hv).trans hp
  have hfree := hf.free h h' (fun q hq => by rw [hp] at hq; cases hq)
    fun q hq => by rw [hp'] at hq; cases hq
  refine ⟨hfree.que, fun u => ?_⟩
  by_cases hu : u = t
  · rw [hu, hv]
  · exact hfree.view u hu

/-- A task that leaves its wait list, seen by a task that waits for no resource. -/
theorem Leave.free (h : Leave t s s') (hq : QInv none s)
    (hb : ∀ q, (s.tcb t).pwaitQueue = some q → q.isRes = false) : Free t s s' := by
  refine ⟨fun q hr => ?_, h.view, hb, fun q hc => by rw [h.after] at hc; cases hc⟩
  rw [h.que q hr, filter_self]
  refine hq.not_mem (Que.not_ready_of_isRes hr) fun hc => ?_
  rw [hb q hc] at hr
  cases hr

/-! ## The routines -/

theorem taskToRunnable_tcb (t : TaskId) (s : Sched) : (taskToRunnable t s).tcb t =
    { s.tcb t with taskState := .runnable, pwaitQueue := none } := by
  unfold taskToRunnable
  dsimp only
  have h := setTcb_same s t fun b => { b with taskState := .runnable, pwaitQueue := none }
  split <;> exact h

theorem waitComplete_view (t : TaskId) (remove : Bool) (s : Sched) :
    ((taskWaitComplete t remove s).2.tcb t).waitView = ⟨false, none, .noErr, (s.tcb t).dataElem⟩ := by
  have h1 : (if remove then queueRemoveEntry t s else s).tcb = s.tcb := by
    split <;> rfl
  unfold taskWaitComplete
  dsimp only
  generalize (if remove then queueRemoveEntry t s else s) = s₁ at h1 ⊢
  rw [setTcb_same]
  split
  · rw [taskToRunnable_tcb, setTcb_same, timerQueueRemove_tcb, setTcb_same, h1]
    rfl
  · rw [setTcb_same, setTcb_same, timerQueueRemove_tcb, setTcb_same, h1]
    rfl

/-- **`task_wait_complete`.** -/
theorem SInv.waitComplete_leave (h : SInv none s) (hw : (s.tcb t).taskState.isWait = true) :
    Leave t s (taskWaitComplete t true s).2 :=
  (waitComplete_frame t true s).leave (h.waitComplete hw).toQInv
    (congrArg WaitView.wait (waitComplete_view t true s))

theorem taskToNonRunnable_frame (t : TaskId) (s : Sched) : Frame t s (taskToNonRunnable t s) := by
  have h := frame_removeEntry t s
  unfold taskToNonRunnable findNextTaskToRun
  dsimp only
  repeat' split
  all_goals exact ⟨h.tcb, h.order, h.timeouts, h.curr⟩

theorem changeRunningTaskPriority_frame (t : TaskId) (p : Nat) (s : Sched) :
    Frame t s (changeRunningTaskPriority t p s) := by
  have h1 : Frame t s (offReady t s) := by
    have h := frame_removeEntry t s
    unfold offReady
    split
    · exact ⟨h.tcb, h.order, h.timeouts, h.curr⟩
    · exact h
  have h2 : Frame t s (onReady t p (offReady t s)) := by
    have h := (h1.trans (frame_setTcb _ t fun b => { b with priority := p })).trans
      (frame_addTail (.ready p) t _)
    exact ⟨h.tcb, h.order, h.timeouts, h.curr⟩
  rw [changeRunningTaskPriority_eq]
  repeat' split
  all_goals exact ⟨h2.tcb, h2.order, h2.timeouts, h2.curr⟩

theorem changeRunningTaskPriority_tcb (t : TaskId) (p : Nat) (s : Sched) :
    (changeRunningTaskPriority t p s).tcb t = { s.tcb t with priority := p } := by
  have h1 : (onReady t p (offReady t s)).tcb t = { s.tcb t with priority := p } := by
    have h := setTcb_same (offReady t s) t fun b => { b with priority := p }
    rw [offReady_tcb] at h
    exact h
  rw [changeRunningTaskPriority_eq]
  repeat' split
  all_goals exact h1

/-- **`change_running_task_priority`.** -/
theorem SInv.changePriority_quiet (h : SInv none s) {p : Nat}
    (hr : (s.tcb t).taskState = .runnable) (hi : t ≠ idleTask)
    (hp : PrioOk t { s.tcb t with priority := p }) :
    Quiet s (changeRunningTaskPriority t p s) := by
  refine (changeRunningTaskPriority_frame t p s).quiet h.toQInv (h.changePriority hr hi hp).toQInv
    ((h.ok t).pwait_none (by rw [hr]; rfl)) ?_
  rw [changeRunningTaskPriority_tcb]
  rfl

/-- **`set_current_priority`.** -/
theorem SInv.setCurrentPriority_quiet (h : SInv none s) {p : Nat} (hi : t ≠ idleTask)
    (hp : PrioOk t { s.tcb t with priority := p })
    (hs : TnKernel.setCurrentPriority t p s = some s') : Quiet s s' := by
  unfold TnKernel.setCurrentPriority at hs
  dsimp only at hs
  split at hs
  · cases hs
    exact .refl s
  split at hs
  · rename_i hr
    cases hs
    exact h.changePriority_quiet hr hi hp
  split at hs
  · cases hs
  · cases hs
    exact quiet_setTcb s t rfl

theorem taskCurrToWaitAction_frame (waitQue : Option Que) (reason : WaitReason)
    (timeout : BitVec 32) (s : Sched) :
    Frame s.currRunTask s (taskCurrToWaitAction waitQue reason timeout s) := by
  rw [taskCurrToWaitAction_eq]
  exact (((taskToNonRunnable_frame _ s).trans (frame_setTcb _ _ _)).trans
    (frame_joinQue waitQue _ _)).trans (frame_joinTimeouts timeout _ _)

theorem taskCurrToWaitAction_tcb (waitQue : Option Que) (reason : WaitReason)
    (timeout : BitVec 32) (s : Sched) (hp : (s.tcb s.currRunTask).pwaitQueue = none) :
    (taskCurrToWaitAction waitQue reason timeout s).tcb s.currRunTask =
      { s.tcb s.currRunTask with
        taskState := .wait, taskWaitReason := some reason, tickCount := timeout
        pwaitQueue := waitQue } := by
  have h1 := setTcb_same (taskToNonRunnable s.currRunTask s) s.currRunTask fun b =>
    { b with taskState := .wait, taskWaitReason := some reason, tickCount := timeout }
  rw [taskToNonRunnable_tcb] at h1
  rw [taskCurrToWaitAction_eq, joinTimeouts_tcb, joinQue_tcb, h1]
  rw [h1]
  exact hp

/-! ## The services -/

theorem SInv.suspend_quiet (h : SInv none s) (ht : isSystem t = false) :
    Quiet s (tnTaskSuspend t s).2 := by
  have h' := h.suspend ht
  unfold tnTaskSuspend at h' ⊢
  dsimp only at h' ⊢
  split
  · exact .refl s
  split
  · exact .refl s
  split
  · exact .refl s
  rename_i hid hs hd
  rw [if_neg hid, if_neg hs, if_neg hd] at h'
  split
  · rename_i hr
    rw [if_pos hr] at h'
    have hf := (frame_setTcb s t fun b => { b with taskState := .suspend }).trans
      (taskToNonRunnable_frame t _)
    refine hf.quiet h.toQInv h'.toQInv ((h.ok t).pwait_none (by rw [hr]; rfl)) ?_
    rw [taskToNonRunnable_tcb, setTcb_same]
    simp [Tcb.waitView, hr, TaskState.isWait]
  · rename_i hr
    dsimp only
    apply quiet_setTcb
    cases hst : (s.tcb t).taskState <;> simp_all [TaskState.isSuspend, Tcb.waitView, TaskState.isWait]

theorem SInv.toRunnable_quiet (h : SInv none s) (hid : (s.tcb t).idTask = true)
    (ht : t ≠ timerTask) (hr : (s.tcb t).taskState ≠ .runnable)
    (hw : (s.tcb t).taskState.isWait = false) : Quiet s (taskToRunnable t s) := by
  have h1 := (h.outIdle hr hw).toRunnable hid fun hc => absurd hc ht
  have hp := (h.ok t).pwait_none hw
  refine (taskToRunnable_frame t s).quiet h.toQInv h1.toQInv hp ?_
  rw [taskToRunnable_tcb]
  simp only [Tcb.waitView, hw, hp]
  rfl

theorem SInv.resume_quiet (h : SInv none s) (ht : isSystem t = false) :
    Quiet s (tnTaskResume t s).2 := by
  have hsys : t ≠ timerTask ∧ t ≠ idleTask := by simpa [isSystem] using ht
  unfold tnTaskResume
  dsimp only
  split
  · exact .refl s
  rename_i hid
  split
  · exact .refl s
  rename_i hs
  split
  · rename_i hw
    refine h.toRunnable_quiet (by simpa using hid) hsys.1 (fun hr => ?_) (by simpa using hw)
    rw [hr] at hs
    exact hs rfl
  · rename_i hw
    dsimp only
    apply quiet_setTcb
    have : (s.tcb t).taskState.isWait = true := by simpa using hw
    simp only [Tcb.waitView, this]
    rfl

theorem SInv.activate_quiet (h : SInv none s) (ht : t ≠ timerTask) :
    Quiet s (tnTaskActivate t s).2 := by
  unfold tnTaskActivate
  dsimp only
  split
  · exact .refl s
  rename_i hid
  split
  · rename_i hd
    exact h.toRunnable_quiet (by simpa using hid) ht (by rw [hd]; simp) (by rw [hd]; rfl)
  split
  · dsimp only
    exact quiet_setTcb s t rfl
  · exact .refl s

theorem delete_quiet (t : TaskId) (s : Sched) : Quiet s (tnTaskDelete t s).2 := by
  unfold tnTaskDelete
  dsimp only
  split
  · exact .refl s
  split
  · exact .refl s
  · dsimp only
    exact quiet_setTcb s t rfl

theorem SInv.taskChangePriority_quiet (h : SInv none s) (p : Int) (hsys : isSystem t = false) :
    Quiet s (tnTaskChangePriority t p s).2 := by
  have hsys : t ≠ timerTask ∧ t ≠ idleTask := by simpa [isSystem] using hsys
  unfold tnTaskChangePriority
  dsimp only
  split
  · exact .refl s
  split
  · exact .refl s
  rename_i hp
  split
  · exact .refl s
  split
  · rename_i hr
    exact h.changePriority_quiet hr hsys.2 (h.prioOk_change p hsys.1 hp)
  · dsimp only
    exact quiet_setTcb s t rfl

theorem tsliceTicks_quiet (p v : Int) (s : Sched) : Quiet s (tnSysTsliceTicks p v s).2 := by
  unfold tnSysTsliceTicks
  split
  · exact .refl s
  · exact ⟨fun _ _ => rfl, fun _ => rfl⟩

theorem switchContext_quiet (s : Sched) : Quiet s (tnSwitchContext s) :=
  ⟨fun _ _ => rfl, fun _ => rfl⟩

end TnKernel
