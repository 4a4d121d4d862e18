import TnNet.Kernel.ObjectActs

/-!
# The network lock

`splnet` and `splx` of `lpc23xx_net.c`: a lock with a holder and the wait list of `spl_sem`, whose counter
is not used.  `splx` gives the lock to the first waiting task, which returns from `splnet` when it runs
again; a holder that enters once more is told so by the value 1, which it passes to `splx`.

Tasks call `splnet` and `splx` in pairs, to any depth, and sleep, are suspended and resumed, wake each other
and change priorities in between.

* `spl_ok` — one task at a time is inside, it is the holder, no task waits for a free lock, and the waiting
  tasks get the lock in the order they came.
-/

set_option autoImplicit false

namespace TnKernel

variable {s s' : Sched} {t u : TaskId} {l : List TaskId} {f : Tcb → Tcb}

/-! ## The model -/

/-- `spl_sem`. -/
def splSem : Nat := 0

/-- `spl_sem.wait_queue`. -/
def splQue : Que := .sem splSem

/-- What is seen of the lock. -/
inductive SplObs where
  /-- The task begins to wait. -/
  | block (t : TaskId)
  /-- The waiting task is given the lock. -/
  | hand (t : TaskId)

/-- The scheduler and the lock; `nest` are the values the `splnet`s of a task have returned and that it
    still has to pass to `splx`, the last one first, `true` for 1; `inSplnet` are the tasks that have
    blocked in `splnet` and have not returned from it. -/
structure SplWorld where
  sch : Sched
  splHolderTask : Option TaskId
  nest : TaskId → List Bool
  inSplnet : TaskId → Bool

/-- The tasks that wait for the lock. -/
def SplWorld.queue (w : SplWorld) : List TaskId := w.sch.que splQue

/-- `splnet` returns to its caller. -/
def SplWorld.enter (w : SplWorld) (t : TaskId) (v : Bool) : SplWorld :=
  { w with nest := Function.update w.nest t (v :: w.nest t) }

/-- `splnet`. -/
def splnet (w : SplWorld) : SplWorld × List SplObs :=
  let t := w.sch.currRunTask
  if w.splHolderTask = some t then (w.enter t true, [])
  else if w.splHolderTask = none then ({ w with splHolderTask := some t }.enter t false, [])
  else
    ({ w with
        sch := taskCurrToWaitAction (some splQue) .sem TN_WAIT_INFINITE w.sch
        inSplnet := Function.update w.inSplnet t true }, [.block t])

/-- `splx(tnet, sm)`. -/
def splx (sm : Bool) (w : SplWorld) : SplWorld × List SplObs :=
  if sm then (w, [])
  else
    match w.queue with
    | t :: _ =>
      ({ w with
          splHolderTask := some t
          sch := (taskWaitComplete t false (queueRemoveHead splQue w.sch)).2 }, [.hand t])
    | [] => ({ w with splHolderTask := none }, [])

/-- The events of the tasks and of the scheduler. -/
inductive SplEvent where
  | splnet
  | splx
  /-- The return from a `splnet` that has blocked. -/
  | back
  | create (t : TaskId) (priority : Int) (argsOk : Bool) (opt : CreateOpt)
  | activate (t : TaskId)
  | suspend (t : TaskId)
  | resume (t : TaskId)
  | sleep (timeout : BitVec 32)
  | wakeup (t : TaskId)
  | changePriority (t : TaskId) (priority : Int)
  | tick
  | timerLoop
  | switchContext

/-- The services of the kernel. -/
def SplEvent.sched (s : Sched) : SplEvent → Sched
  | .create t priority argsOk opt => (tnTaskCreate t priority argsOk opt s).2
  | .activate t => (tnTaskActivate t s).2
  | .suspend t => (tnTaskSuspend t s).2
  | .resume t => (tnTaskResume t s).2
  | .sleep timeout => (tnTaskSleep timeout s).2
  | .wakeup t => (tnTaskWakeup t s).2
  | .changePriority t priority => (tnTaskChangePriority t priority s).2
  | .tick => tnTickIntProcessing s
  | .timerLoop => timerTaskLoop s
  | .switchContext => tnSwitchContext s
  | _ => s

def splMachine : Machine.Step SplWorld SplEvent SplObs
  | w, .splnet => (some (splnet w).1, (splnet w).2)
  | w, .splx =>
    -- the value of the matching `splnet`
    let t := w.sch.currRunTask
    let r := splx ((w.nest t).headD false) { w with nest := Function.update w.nest t (w.nest t).tail }
    (some r.1, r.2)
  | w, .back =>
    let t := w.sch.currRunTask
    (some ({ w with inSplnet := Function.update w.inSplnet t false }.enter t false), [])
  | w, ev => (some { w with sch := ev.sched w.sch }, [])

/-- The running task is one of the application and not in `splnet`. -/
def SplWorld.Runs (w : SplWorld) : Prop :=
  (w.sch.tcb w.sch.currRunTask).taskState = .runnable ∧ w.inSplnet w.sch.currRunTask = false ∧
    isSystem w.sch.currRunTask = false

/-- What can happen: the calls of `splx` match those of `splnet`. -/
def SplEnabled (w : SplWorld) : SplEvent → Prop
  | .splnet => w.Runs
  | .splx => w.Runs ∧ w.nest w.sch.currRunTask ≠ []
  | .back => (w.sch.tcb w.sch.currRunTask).taskState = .runnable ∧
      w.inSplnet w.sch.currRunTask = true
  | .create t _ _ _ => isSystem t = false
  | .activate t => isSystem t = false
  | .suspend t => isSystem t = false
  | .resume t => isSystem t = false
  | .sleep _ => w.Runs
  | .wakeup t => isSystem t = false
  | .changePriority t _ => isSystem t = false
  | .tick => True
  | .timerLoop => w.sch.currRunTask = timerTask ∧ (w.sch.tcb timerTask).taskState = .runnable
  | .switchContext => True

def SplWorld.start : SplWorld := ⟨tnStartSystem, none, fun _ => [], fun _ => false⟩

/-! ## The tasks that wait -/

/-- These tasks wait for the lock, without a timeout. -/
def Locked (l : List TaskId) (s : Sched) : Prop :=
  s.que splQue = l ∧ ∀ t ∈ l, (s.tcb t).tickCount = TN_WAIT_INFINITE

theorem Locked.setTcb (h : Locked l s) (t : TaskId) (hf : ∀ b, (f b).tickCount = b.tickCount) :
    Locked l (s.setTcb t f) := by
  refine ⟨h.1, fun u hu => ?_⟩
  rcases eq_or_ne u t with rfl | hne
  · rw [setTcb_same, hf]
    exact h.2 u hu
  · rw [setTcb_ne s f hne]
    exact h.2 u hu

/-- A routine that changes a task that does not wait for the lock, before and after. -/
theorem Locked.frame (h : Locked l s) (hs : SInv none s) (hs' : SInv none s') (hf : Frame t s s')
    (hp : (s.tcb t).pwaitQueue ≠ some splQue) (hp' : (s'.tcb t).pwaitQueue ≠ some splQue) :
    Locked l s' := by
  have h1 : t ∉ s.que splQue := hs.not_mem rfl hp
  have h2 : t ∉ s'.que splQue := hs'.not_mem rfl hp'
  have horder := hf.order splQue
  rw [filter_self h1, filter_self h2] at horder
  refine ⟨horder.trans h.1, fun u hu => ?_⟩
  have hne : u ≠ t := by
    rintro rfl
    rw [← h.1] at hu
    exact h1 hu
  rw [hf.tcb u hne]
  exact h.2 u hu

/-- The same for a task that does not wait at all. -/
theorem Locked.frame' (h : Locked l s) (hs : SInv none s) (hs' : SInv none s') (hf : Frame t s s')
    (hw : (s.tcb t).taskState.isWait = false) (hw' : (s'.tcb t).taskState.isWait = false) :
    Locked l s' := by
  apply h.frame hs hs' hf
  · rw [(hs.ok t).pwait_none hw]
    simp
  · rw [(hs'.ok t).pwait_none hw']
    simp

theorem waitComplete_pwait (t : TaskId) (remove : Bool) (s : Sched) :
    ((taskWaitComplete t remove s).2.tcb t).pwaitQueue = none :=
  congrArg WaitView.que (waitComplete_view t remove s)

theorem user_ne (h : isSystem t = false) : t ≠ timerTask ∧ t ≠ idleTask := by
  simpa [isSystem] using h

theorem Locked.create (h : Locked l s) (hs : SInv none s) (priority : Int) (argsOk : Bool)
    (opt : CreateOpt) (hs' : SInv none (tnTaskCreate t priority argsOk opt s).2) :
    Locked l (tnTaskCreate t priority argsOk opt s).2 := by
  have hf := tnTaskCreate_frame t priority argsOk opt s
  revert hs' hf
  unfold tnTaskCreate
  dsimp only
  split
  · exact fun _ _ => h
  split
  · exact fun _ _ => h
  rename_i hargs
  intro hs' hf
  simp only [not_or, Bool.not_eq_true] at hargs
  have hd := (hs.ok t).dormant hargs.2.2.2
  refine h.frame' hs hs' hf (by rw [hd]; rfl) ?_
  split
  · rw [taskToRunnable_tcb]
    rfl
  · rw [taskSetDormantState_state]
    rfl

theorem Locked.activate (h : Locked l s) (hs : SInv none s) (ht : isSystem t = false) :
    Locked l (tnTaskActivate t s).2 := by
  have hs' := hs.activate (user_ne ht).1
  revert hs'
  unfold tnTaskActivate
  dsimp only
  split
  · exact fun _ => h
  split
  · rename_i hd
    intro hs'
    refine h.frame' hs hs' (taskToRunnable_frame t s) (by rw [hd]; rfl) ?_
    rw [taskToRunnable_tcb]
    rfl
  split
  · intros
    dsimp only
    apply h.setTcb
    exact fun _ => rfl
  · exact fun _ => h

theorem Locked.suspend (h : Locked l s) (hs : SInv none s) (ht : isSystem t = false) :
    Locked l (tnTaskSuspend t s).2 := by
  have hs' := hs.suspend ht
  revert hs'
  unfold tnTaskSuspend
  dsimp only
  split
  · exact fun _ => h
  split
  · exact fun _ => h
  split
  · exact fun _ => h
  split
  · rename_i hr
    intro hs'
    refine h.frame' hs hs' ((frame_setTcb s t _).trans (taskToNonRunnable_frame t _))
      (by rw [hr]; rfl) ?_
    rw [taskToNonRunnable_tcb, setTcb_same]
    rfl
  · intros
    dsimp only
    apply h.setTcb
    exact fun _ => rfl

theorem Locked.resume (h : Locked l s) (hs : SInv none s) (ht : isSystem t = false) :
    Locked l (tnTaskResume t s).2 := by
  have hs' := hs.resume ht
  revert hs'
  unfold tnTaskResume
  dsimp only
  split
  · exact fun _ => h
  split
  · exact fun _ => h
  split
  · rename_i hw
    intro hs'
    refine h.frame' hs hs' (taskToRunnable_frame t s) (by simpa using hw) ?_
    rw [taskToRunnable_tcb]
    rfl
  · intros
    dsimp only
    apply h.setTcb
    exact fun _ => rfl

theorem Locked.wakeup (h : Locked l s) (hs : SInv none s) (t : TaskId) :
    Locked l (tnTaskWakeup t s).2 := by
  have hs' := hs.wakeup t
  revert hs'
  unfold tnTaskWakeup
  dsimp only
  split
  · exact fun _ => h
  split
  · exact fun _ => h
  split
  · rename_i hw
    intro hs'
    apply h.frame hs hs' (waitComplete_frame t false s)
    · rw [(hs.ok t).sleep hw.1 hw.2]
      simp
    · dsimp only
      rw [waitComplete_pwait]
      simp
  split
  · intros
    dsimp only
    apply h.setTcb
    exact fun _ => rfl
  · exact fun _ => h

theorem Locked.changePriority (h : Locked l s) (hs : SInv none s) (ht : isSystem t = false) (p : Int) :
    Locked l (tnTaskChangePriority t p s).2 := by
  have hs' := hs.taskChangePriority p ht
  have hq := hs.taskChangePriority_quiet p ht
  revert hs' hq
  unfold tnTaskChangePriority
  dsimp only
  split
  · exact fun _ _ => h
  split
  · exact fun _ _ => h
  split
  · exact fun _ _ => h
  split
  · rename_i hr
    intro hs' hq
    refine h.frame' hs hs' (changeRunningTaskPriority_frame t _ s) (by rw [hr]; rfl) ?_
    rw [view_wait (hq.view t), hr]
    rfl
  · intros
    dsimp only
    apply h.setTcb
    exact fun _ => rfl

theorem Locked.sleep (h : Locked l s) (hs : SInv none s) (timeout : BitVec 32)
    (hr : (s.tcb s.currRunTask).taskState = .runnable) (ht : isSystem s.currRunTask = false) :
    Locked l (tnTaskSleep timeout s).2 := by
  have hs' := hs.sleep timeout hr ht
  have hw := (hs.ok s.currRunTask).pwait_none (by rw [hr]; rfl)
  revert hs'
  unfold tnTaskSleep
  split
  · exact fun _ => h
  split
  · intros
    dsimp only
    apply h.setTcb
    exact fun _ => rfl
  · intro hs'
    apply h.frame hs hs' (taskCurrToWaitAction_frame none .sleep timeout s)
    · rw [hw]
      simp
    · rw [taskCurrToWaitAction_tcb _ _ _ _ hw]
      simp

theorem Locked.tick (h : Locked l s) (hs : SInv none s) : Locked l (tnTickIntProcessing s) := by
  have hrr : Locked l (roundRobin s) := by
    refine ⟨((roundRobin_quiet s).que splQue rfl).trans h.1, fun u hu => ?_⟩
    rw [← h.2 u hu]
    unfold roundRobin
    dsimp only
    split
    · rfl
    split
    · have h1 := (h.setTcb (f := fun b => { b with tsliceCount := b.tsliceCount + 1 })
        s.currRunTask fun _ => rfl).setTcb (f := fun b => { b with tsliceCount := 0 })
          s.currRunTask fun _ => rfl
      rw [h.2 u hu]
      exact h1.2 u hu
    · have h1 := h.setTcb (f := fun b => { b with tsliceCount := b.tsliceCount + 1 })
        s.currRunTask fun _ => rfl
      rw [h.2 u hu]
      exact h1.2 u hu
  have hs' := hs.tick
  rw [tnTickIntProcessing_eq] at hs' ⊢
  have htm : ∀ s : Sched, SInv none s → (s.tcb timerTask).pwaitQueue ≠ some splQue := fun s hs => by
    rw [((hs.ok timerTask).timer rfl).1]
    simp
  exact hrr.frame hs.roundRobin hs' (wakeTimer_frame _) (htm _ hs.roundRobin) (htm _ hs')

/-- The walk over `tn_wait_timeout_list` does not meet a task that waits for the lock. -/
theorem Locked.timeouts (l' : List TaskId) (h : Locked l s) (hs : SInv none s) (hn : l'.Nodup)
    (hw : ∀ t ∈ l', (s.tcb t).taskState.isWait = true ∧ (s.tcb t).pwaitQueue ≠ some splQue) :
    Locked l (l'.foldl timeoutTask s) := by
  induction l' generalizing s with
  | nil => exact h
  | cons t l' ih =>
    obtain ⟨htl, hn⟩ := List.nodup_cons.mp hn
    obtain ⟨hw1, hw2⟩ := hw t List.mem_cons_self
    have hs' := hs.timeoutTask hw1
    refine ih ?_ hs' hn fun u hu => ?_
    · apply h.frame hs hs' (timeoutTask_frame s t) hw2
      unfold timeoutTask
      dsimp only
      split
      · split
        · rw [setTcb_same]
          dsimp only
          rw [waitComplete_pwait]
          simp
        · rw [setTcb_same]
          exact hw2
      · exact hw2
    · have hut : u ≠ t := by
        rintro rfl
        exact htl hu
      rw [(timeoutTask_frame s t).tcb u hut]
      exact hw u (List.mem_cons_of_mem t hu)

theorem Locked.timerLoop (h : Locked l s) (hs : SInv none s) (hc : s.currRunTask = timerTask)
    (hr : (s.tcb timerTask).taskState = .runnable) : Locked l (timerTaskLoop s) := by
  have hmem : ∀ t ∈ s.waitTimeoutList, (s.tcb t).taskState.isWait = true ∧
      (s.tcb t).pwaitQueue ≠ some splQue := by
    intro t ht
    obtain ⟨h1, h2⟩ := (hs.ok t).timeouts.mp ht
    refine ⟨h1, fun hq => h2 ?_⟩
    apply h.2
    rw [← h.1]
    exact ((hs.ok t).waits splQue rfl).mpr hq
  have h1 := h.timeouts s.waitTimeoutList hs hs.timeoutsNodup hmem
  have h2 := hs.timeouts s.waitTimeoutList hs.timeoutsNodup fun t ht => (hmem t ht).1
  have hs' := hs.timerLoop hc hr
  have hnot : timerTask ∉ s.waitTimeoutList := fun hm =>
    ((hs.ok timerTask).timeouts.mp hm).2 ((hs.ok timerTask).timer rfl).2.1
  obtain ⟨h3, h4⟩ := timeouts_frame s.waitTimeoutList s hnot
  have hcur : (s.waitTimeoutList.foldl timeoutTask s).currRunTask = timerTask := h4.trans hc
  have htm : ∀ s : Sched, SInv none s → (s.tcb timerTask).pwaitQueue ≠ some splQue := fun s hs => by
    rw [((hs.ok timerTask).timer rfl).1]
    simp
  have hf := taskCurrToWaitAction_frame none .sleep TN_WAIT_INFINITE
    (s.waitTimeoutList.foldl timeoutTask s)
  rw [hcur] at hf
  exact h1.frame h2 hs' hf (htm _ h2) (htm _ hs')

/-- **The services of the kernel leave the waiting tasks alone.** -/
theorem sched_locked {w : SplWorld} {ev : SplEvent} (hs : SInv none w.sch) (h : Locked l w.sch)
    (he : SplEnabled w ev) : SInv none (ev.sched w.sch) ∧ Locked l (ev.sched w.sch) := by
  cases ev with
  | create t priority argsOk opt =>
    have hs' := hs.create t priority argsOk opt (user_ne he).1
    exact ⟨hs', h.create hs priority argsOk opt hs'⟩
  | activate t => exact ⟨hs.activate (user_ne he).1, h.activate hs he⟩
  | suspend t => exact ⟨hs.suspend he, h.suspend hs he⟩
  | resume t => exact ⟨hs.resume he, h.resume hs he⟩
  | sleep timeout => exact ⟨hs.sleep timeout he.1 he.2.2, h.sleep hs timeout he.1 he.2.2⟩
  | wakeup t => exact ⟨hs.wakeup t, h.wakeup hs t⟩
  | changePriority t priority =>
    exact ⟨hs.taskChangePriority priority he, h.changePriority hs he priority⟩
  | tick => exact ⟨hs.tick, h.tick hs⟩
  | timerLoop => exact ⟨hs.timerLoop he.1 he.2, h.timerLoop hs he.1 he.2⟩
  | switchContext => exact ⟨hs.switchContext, h⟩
  | splnet => exact ⟨hs, h⟩
  | splx => exact ⟨hs, h⟩
  | back => exact ⟨hs, h⟩

/-! ## The invariant -/

/-- The tasks that have begun to wait. -/
def blocks (hist : List SplObs) : List TaskId :=
  hist.filterMap fun | .block t => some t | .hand _ => none

/-- The tasks that were given the lock. -/
def hands (hist : List SplObs) : List TaskId :=
  hist.filterMap fun | .hand t => some t | .block _ => none

structure SplInv (w : SplWorld) (hist : List SplObs) : Prop where
  sch : SInv none w.sch
  locked : Locked w.queue w.sch
  /-- The tasks that wait are in `splnet`, and a task in `splnet` is not inside. -/
  waits : ∀ t ∈ w.queue, w.inSplnet t = true
  apart : ∀ t, w.inSplnet t = true → w.nest t = []
  holder : ∀ t, w.splHolderTask = some t ↔ w.nest t ≠ [] ∨ (w.inSplnet t = true ∧ t ∉ w.queue)
  free : w.splHolderTask = none → w.queue = []
  /-- The first `splnet` has returned 0 and the others 1. -/
  nested : ∀ t, w.nest t ≠ [] → ∃ n, w.nest t = List.replicate n true ++ [false]
  fifo : blocks hist = hands hist ++ w.queue

variable {w : SplWorld} {hist : List SplObs}

/-- The running task does not wait. -/
theorem SplInv.not_queued (h : SplInv w hist)
    (hr : (w.sch.tcb w.sch.currRunTask).taskState = .runnable) : w.sch.currRunTask ∉ w.queue := by
  apply h.sch.not_mem rfl
  rw [(h.sch.ok _).pwait_none (by rw [hr]; rfl)]
  simp

/-- A service of the kernel. -/
theorem SplInv.schedule (h : SplInv w hist) {s : Sched} (hs : SInv none s) (hl : Locked w.queue s) :
    SplInv { w with sch := s } hist := by
  have hq : SplWorld.queue { w with sch := s } = w.queue := hl.1
  constructor
  case sch => exact hs
  case locked => rw [hq]; exact hl
  case waits => rw [hq]; exact h.waits
  case apart => exact h.apart
  case holder => rw [hq]; exact h.holder
  case free => rw [hq]; exact h.free
  case nested => exact h.nested
  case fifo => rw [hq]; exact h.fifo

/-- `splnet` returns to the task `t`. -/
theorem SplInv.entered (h : SplInv w hist) {w' : SplWorld} {v : Bool} (hs : w'.sch = w.sch)
    (hh : w'.splHolderTask = some t) (hn : w'.nest = Function.update w.nest t (v :: w.nest t))
    (hi : w'.inSplnet t = false) (hi' : ∀ u, u ≠ t → w'.inSplnet u = w.inSplnet u)
    (hv : v = true ↔ w.nest t ≠ []) (ho : ∀ u, u ≠ t → w.splHolderTask ≠ some u)
    (hq : t ∉ w.queue) : SplInv w' hist := by
  have hqueue : w'.queue = w.queue := by
    unfold SplWorld.queue
    rw [hs]
  have hself : w'.nest t = v :: w.nest t := by rw [hn, Function.update_self]
  have hother : ∀ u, u ≠ t → w'.nest u = w.nest u := fun u hu => by rw [hn, Function.update_of_ne hu]
  constructor
  case sch => rw [hs]; exact h.sch
  case locked => rw [hs, hqueue]; exact h.locked
  case waits =>
    rw [hqueue]
    intro u hu
    have hut : u ≠ t := by
      rintro rfl
      exact hq hu
    rw [hi' u hut]
    exact h.waits u hu
  case apart =>
    intro u hu
    rcases eq_or_ne u t with rfl | hut
    · rw [hi] at hu
      cases hu
    · rw [hi' u hut] at hu
      rw [hother u hut]
      exact h.apart u hu
  case holder =>
    intro u
    rw [hh, hqueue]
    rcases eq_or_ne u t with rfl | hut
    · simp [hself]
    · rw [hother u hut, hi' u hut, ← h.holder u]
      simp [ho u hut, Ne.symm hut]
  case free =>
    rw [hh]
    intro hc
    cases hc
  case nested =>
    intro u hu
    rcases eq_or_ne u t with rfl | hut
    · rw [hself]
      by_cases hne : w.nest u = []
      · have hf : v = false := by simpa [hne] using hv
        exact ⟨0, by simp [hf, hne]⟩
      · obtain ⟨n, hnest⟩ := h.nested u hne
        exact ⟨n + 1, by simp [hv.mpr hne, hnest, List.replicate_succ]⟩
    · rw [hother u hut] at hu ⊢
      exact h.nested u hu
  case fifo => rw [hqueue]; exact h.fifo

/-- The running task begins to wait. -/
theorem SplInv.blocked (h : SplInv w hist) (hr : w.Runs)
    (hh : w.splHolderTask ≠ none) (ht : w.splHolderTask ≠ some w.sch.currRunTask) :
    SplInv { w with
      sch := taskCurrToWaitAction (some splQue) .sem TN_WAIT_INFINITE w.sch
      inSplnet := Function.update w.inSplnet w.sch.currRunTask true }
      (hist ++ [.block w.sch.currRunTask]) := by
  obtain ⟨hrun, hin, hsys⟩ := hr
  have hnq := h.not_queued hrun
  have hjoin : Join w.sch.currRunTask splQue w.sch
      (taskCurrToWaitAction (some splQue) .sem TN_WAIT_INFINITE w.sch) := h.sch.block_join hrun rfl
  have hf := taskCurrToWaitAction_frame (some splQue) .sem TN_WAIT_INFINITE w.sch
  have hw := (h.sch.ok w.sch.currRunTask).pwait_none (by rw [hrun]; rfl)
  have htcb := taskCurrToWaitAction_tcb (some splQue) .sem TN_WAIT_INFINITE w.sch hw
  have hs' : SInv none (taskCurrToWaitAction (some splQue) .sem TN_WAIT_INFINITE w.sch) := by
    apply h.sch.block hrun (user_ne hsys).2
    · exact fun hc => absurd hc (user_ne hsys).1
    · intro q hc
      cases hc
      exact ⟨rfl, by simp⟩
  generalize hs : taskCurrToWaitAction (some splQue) .sem TN_WAIT_INFINITE w.sch = s at *
  generalize w.sch.currRunTask = t at *
  have hqueue : SplWorld.queue ⟨s, w.splHolderTask, w.nest, Function.update w.inSplnet t true⟩ =
      w.queue ++ [t] := hjoin.que
  have hnest : w.nest t = [] := by
    by_contra hc
    exact ht ((h.holder t).mpr (.inl hc))
  constructor
  case sch => exact hs'
  case locked =>
    rw [hqueue]
    refine ⟨hqueue, fun u hu => ?_⟩
    rcases eq_or_ne u t with rfl | hut
    · dsimp only
      rw [htcb]
    · dsimp only
      rw [hf.tcb u hut]
      exact h.locked.2 u (by simpa [hut] using hu)
  case waits =>
    rw [hqueue]
    intro u hu
    rcases eq_or_ne u t with rfl | hut
    · simp
    · simpa [hut] using h.waits u (by simpa [hut] using hu)
  case apart =>
    intro u hu
    rcases eq_or_ne u t with rfl | hut
    · exact hnest
    · exact h.apart u (by simpa [hut] using hu)
  case holder =>
    intro u
    rw [hqueue]
    rcases eq_or_ne u t with rfl | hut
    · simp [ht, hnest]
    · simpa [hut] using h.holder u
  case free => exact fun hc => absurd hc hh
  case nested => exact h.nested
  case fifo =>
    have h1 : blocks (hist ++ [.block t]) = blocks hist ++ [t] := by simp [blocks]
    have h2 : hands (hist ++ [.block t]) = hands hist := by simp [hands]
    rw [hqueue, h1, h2, h.fifo, List.append_assoc]

/-- The task `t` leaves, and the lock goes to `o`. -/
theorem SplInv.left (h : SplInv w hist) (ht : w.nest t = [false]) {w' : SplWorld} {o : Option TaskId}
    {l : List TaskId} (hs : SInv none w'.sch) (hl : Locked l w'.sch)
    (hn : w'.nest = Function.update w.nest t []) (hi : w'.inSplnet = w.inSplnet)
    (hh : w'.splHolderTask = o) (hq : w.queue = o.toList ++ l) (ho : o = none → l = [])
    (hist' : List SplObs) (hb : blocks hist' = blocks hist) (hd : hands hist' = hands hist ++ o.toList) :
    SplInv w' hist' := by
  have hqueue : w'.queue = l := hl.1
  have hself : w'.nest t = [] := by rw [hn, Function.update_self]
  have hother : ∀ u, u ≠ t → w'.nest u = w.nest u := fun u hu => by rw [hn, Function.update_of_ne hu]
  have hholds : w.splHolderTask = some t := (h.holder t).mpr (.inl (by simp [ht]))
  have hnin : w.inSplnet t = false := by
    by_contra hc
    have := h.apart t (by simpa using hc)
    rw [ht] at this
    cases this
  have hnodup : (o.toList ++ l).Nodup := hq ▸ h.sch.nodup splQue
  constructor
  case sch => exact hs
  case locked => rw [hqueue]; exact hl
  case waits =>
    rw [hqueue, hi]
    intro u hu
    exact h.waits u (by rw [hq]; exact List.mem_append_right _ hu)
  case apart =>
    rw [hi]
    intro u hu
    rcases eq_or_ne u t with rfl | hut
    · exact hself
    · rw [hother u hut]
      exact h.apart u hu
  case holder =>
    intro u
    rw [hh, hqueue, hi]
    rcases eq_or_ne u t with rfl | hut
    · have hou : o ≠ some u := by
        rintro rfl
        have := h.waits u (by rw [hq]; simp)
        rw [hnin] at this
        cases this
      simp [hou, hself, hnin]
    · -- the others held nothing before
      have hno : ¬(w.nest u ≠ [] ∨ (w.inSplnet u = true ∧ u ∉ w.queue)) := by
        rw [← h.holder u, hholds]
        simp [Ne.symm hut]
      rw [not_or, not_and, not_not, not_not] at hno
      rw [hother u hut, hno.1]
      constructor
      · rintro rfl
        have hu : u ∈ w.queue := by rw [hq]; simp
        refine .inr ⟨h.waits u hu, ?_⟩
        exact (List.nodup_cons.mp hnodup).1
      · rintro (hc | ⟨h1, h2⟩)
        · exact absurd rfl hc
        · have hu := hno.2 h1
          rw [hq] at hu
          rcases List.mem_append.mp hu with hu | hu
          · exact Option.mem_toList.mp hu
          · exact absurd hu h2
  case free =>
    rw [hh, hqueue]
    exact ho
  case nested =>
    intro u hu
    rcases eq_or_ne u t with rfl | hut
    · exact absurd hself hu
    · rw [hother u hut] at hu ⊢
      exact h.nested u hu
  case fifo => rw [hb, hd, h.fifo, hq, hqueue, List.append_assoc]

/-- `splx` of an inner pair. -/
theorem SplInv.pop (h : SplInv w hist) {l : List Bool} (ht : w.nest t = true :: l) :
    SplInv { w with nest := Function.update w.nest t l } hist := by
  have hne : w.nest t ≠ [] := by simp [ht]
  obtain ⟨n, hn⟩ := h.nested t hne
  obtain ⟨m, rfl⟩ : ∃ m, n = m + 1 := by
    cases n with
    | zero => simp [ht] at hn
    | succ m => exact ⟨m, rfl⟩
  have hl : l = List.replicate m true ++ [false] := by
    rw [ht, List.replicate_succ] at hn
    simpa using hn
  have hholds := (h.holder t).mpr (.inl hne)
  constructor
  case sch => exact h.sch
  case locked => exact h.locked
  case waits => exact h.waits
  case apart =>
    intro u hu
    have hut : u ≠ t := by
      rintro rfl
      exact hne (h.apart u hu)
    simpa [hut] using h.apart u hu
  case holder =>
    intro u
    have hq : SplWorld.queue { w with nest := Function.update w.nest t l } = w.queue := rfl
    rcases eq_or_ne u t with rfl | hut
    · simp [hholds, hl]
    · simpa [hut, hq] using h.holder u
  case free => exact h.free
  case nested =>
    intro u hu
    rcases eq_or_ne u t with rfl | hut
    · exact ⟨m, by simp [hl]⟩
    · simp only [Function.update_of_ne hut] at hu ⊢
      exact h.nested u hu
  case fifo => exact h.fifo

/-- `splx` of the outermost pair. -/
theorem SplInv.splx (h : SplInv w hist) (ht : w.nest t = [false]) :
    SplInv (TnKernel.splx false { w with nest := Function.update w.nest t [] }).1
      (hist ++ (TnKernel.splx false { w with nest := Function.update w.nest t [] }).2) := by
  have hqueue : SplWorld.queue { w with nest := Function.update w.nest t [] } = w.queue := rfl
  unfold TnKernel.splx
  rw [if_neg (by simp), hqueue]
  split
  · rename_i u l hq
    obtain ⟨h1, h2⟩ := h.sch.wakeHead (q := splQue) rfl hq
    dsimp only
    rw [h1]
    have hs := h.sch.waitComplete h2
    have hleave := h.sch.waitComplete_leave h2
    have hnd : (u :: l).Nodup := hq ▸ h.sch.nodup splQue
    have hfilter : (u :: l).filter (· ≠ u) = l := by
      rw [List.filter_cons, if_neg (by simp)]
      exact filter_self (List.nodup_cons.mp hnd).1
    have hl : Locked l (taskWaitComplete u true w.sch).2 := by
      refine ⟨?_, fun x hx => ?_⟩
      · rw [hleave.que splQue rfl]
        exact (congrArg (List.filter (· ≠ u)) hq).trans hfilter
      · have hxu : x ≠ u := by
          rintro rfl
          exact (List.nodup_cons.mp hnd).1 hx
        rw [(waitComplete_frame u true w.sch).tcb x hxu]
        exact h.locked.2 x (by rw [hq]; exact List.mem_cons_of_mem u hx)
    apply h.left ht (o := some u) (l := l)
    · exact hs
    · exact hl
    · rfl
    · rfl
    · rfl
    · exact hq
    · simp
    · simp [blocks]
    · simp [hands]
  · rename_i hq
    apply h.left ht (o := none) (l := [])
    · exact h.sch
    · exact ⟨hq, by simp⟩
    · rfl
    · rfl
    · rfl
    · exact hq
    · simp
    · simp [blocks]
    · simp [hands]

/-- **A step keeps the lock.** -/
theorem SplInv.step (h : SplInv w hist) {ev : SplEvent} (he : SplEnabled w ev) {w' : SplWorld}
    (hw : (splMachine w ev).1 = some w') : SplInv w' (hist ++ (splMachine w ev).2) := by
  have kernel : SplInv { w with sch := ev.sched w.sch } hist := by
    obtain ⟨h1, h2⟩ := sched_locked h.sch h.locked he
    exact h.schedule h1 h2
  cases ev with
  | splnet =>
    cases hw
    obtain ⟨hrun, hin, hsys⟩ := he
    have hnq := h.not_queued hrun
    simp only [splMachine, TnKernel.splnet]
    split
    · rename_i hh
      rw [List.append_nil]
      have hne : w.nest w.sch.currRunTask ≠ [] := by
        rcases (h.holder _).mp hh with h1 | h1
        · exact h1
        · rw [hin] at h1
          cases h1.1
      refine h.entered rfl hh rfl hin (fun _ _ => rfl) (by simp [hne]) (fun u hu => ?_) hnq
      rw [hh]
      simpa using Ne.symm hu
    split
    · rename_i hh
      rw [List.append_nil]
      have hnil : w.nest w.sch.currRunTask = [] := by
        by_contra hc
        have := (h.holder _).mpr (.inl hc)
        rw [hh] at this
        cases this
      refine h.entered rfl rfl rfl hin (fun _ _ => rfl) (by simp [hnil]) (fun u hu => ?_) hnq
      rw [hh]
      simp
    · rename_i hh hh'
      exact h.blocked ⟨hrun, hin, hsys⟩ hh' hh
  | splx =>
    cases hw
    obtain ⟨-, hne⟩ := he
    obtain ⟨n, hn⟩ := h.nested _ hne
    simp only [splMachine]
    cases n with
    | zero =>
      have hnest : w.nest w.sch.currRunTask = [false] := by simpa using hn
      rw [hnest]
      exact h.splx hnest
    | succ n =>
      have hnest : w.nest w.sch.currRunTask = true :: (List.replicate n true ++ [false]) := by
        simpa [List.replicate_succ] using hn
      rw [hnest]
      simp only [List.headD_cons, List.tail_cons, TnKernel.splx, if_true, List.append_nil]
      exact h.pop hnest
  | back =>
    cases hw
    obtain ⟨hrun, hin⟩ := he
    have hnq := h.not_queued hrun
    have hh := (h.holder _).mpr (.inr ⟨hin, hnq⟩)
    have hnil := h.apart _ hin
    simp only [splMachine, List.append_nil]
    refine h.entered (t := w.sch.currRunTask) rfl hh rfl ?_ (fun u hu => ?_) (by simp [hnil])
      (fun u hu => ?_) hnq
    · simp [SplWorld.enter]
    · simp [SplWorld.enter, hu]
    · rw [hh]
      simpa using Ne.symm hu
  | _ =>
    cases hw
    simp only [splMachine, List.append_nil]
    exact kernel

/-! ## Runs -/

/-- What the lock promises. -/
structure SplOk (w : SplWorld) (hist : List SplObs) : Prop where
  /-- One task at a time is between its outermost `splnet` and the matching `splx`. -/
  exclusive : ∀ t u, w.nest t ≠ [] → w.nest u ≠ [] → t = u
  /-- The holder is that task, or the task the lock was handed to that has not returned yet. -/
  holder : ∀ t, w.splHolderTask = some t ↔ w.nest t ≠ [] ∨ (w.inSplnet t = true ∧ t ∉ w.queue)
  /-- No task waits for a free lock. -/
  free : w.splHolderTask = none → w.queue = []
  /-- The outermost `splnet` has returned 0, the inner ones 1. -/
  nested : ∀ t, w.nest t ≠ [] → ∃ n, w.nest t = List.replicate n true ++ [false]
  /-- The tasks get the lock in the order in which they have begun to wait. -/
  fifo : blocks hist = hands hist ++ w.queue

theorem SplInv.ok (h : SplInv w hist) : SplOk w hist := by
  constructor
  case exclusive =>
    intro t u ht hu
    have h1 := (h.holder t).mpr (.inl ht)
    have h2 := (h.holder u).mpr (.inl hu)
    rw [h1] at h2
    exact Option.some.inj h2
  case holder => exact h.holder
  case free => exact h.free
  case nested => exact h.nested
  case fifo => exact h.fifo

theorem SplInv.start : SplInv SplWorld.start [] := by
  have hq : SplWorld.start.queue = [] := by
    rw [SplWorld.queue, List.eq_nil_iff_forall_not_mem]
    intro t ht
    have := (mem_start_que t splQue).mp ht
    simp [splQue] at this
  constructor
  case sch => exact SInv.start
  case locked => rw [hq]; exact ⟨hq, by simp⟩
  case waits => simp [hq]
  case apart => exact fun _ _ => rfl
  case holder => simp [SplWorld.start]
  case free => exact fun _ => hq
  case nested => simp [SplWorld.start]
  case fifo => rw [hq]; rfl

/-- **The network lock.**  In every state of every run of any number of tasks that call `splnet` and
    `splx` in pairs, to any depth, and are suspended, resumed, woken and switched at any moment: at most
    one task is inside, the holder is this task or the one the lock was handed to and that has not run
    yet, no task waits for a free lock, and the waiting tasks get the lock in order. -/
theorem spl_ok (es : List SplEvent) (w : SplWorld)
    (hg : Machine.Guarded splMachine SplEnabled (some SplWorld.start) es)
    (hw : (Machine.run splMachine (some SplWorld.start) es).1 = some w) :
    SplOk w (Machine.run splMachine (some SplWorld.start) es).2 := by
  have hinv := Machine.run_record SplInv (fun w ev hist w' h he hs => h.step he hs) SplInv.start hg hw
  rw [List.nil_append] at hinv
  exact hinv.ok

instance (w : SplWorld) : Decidable w.Runs := inferInstanceAs (Decidable (_ ∧ _ ∧ _))

instance (w : SplWorld) : ∀ ev, Decidable (SplEnabled w ev)
  | .splnet => inferInstanceAs (Decidable w.Runs)
  | .splx => inferInstanceAs (Decidable (w.Runs ∧ _))
  | .back => inferInstanceAs (Decidable (_ ∧ _))
  | .create _ _ _ _ => inferInstanceAs (Decidable (_ = false))
  | .activate _ => inferInstanceAs (Decidable (_ = false))
  | .suspend _ => inferInstanceAs (Decidable (_ = false))
  | .resume _ => inferInstanceAs (Decidable (_ = false))
  | .sleep _ => inferInstanceAs (Decidable w.Runs)
  | .wakeup _ => inferInstanceAs (Decidable (_ = false))
  | .changePriority _ _ => inferInstanceAs (Decidable (_ = false))
  | .tick => .isTrue trivial
  | .timerLoop => inferInstanceAs (Decidable (_ ∧ _))
  | .switchContext => .isTrue trivial

/-- Task 2 enters twice and sleeps; task 3 waits and is suspended; task 2 leaves, and task 3 has the lock
    before it is resumed. -/
def splRun : List SplEvent :=
  [.create 2 5 true { startOnCreation := true }, .create 3 5 true { startOnCreation := true },
    .timerLoop, .switchContext, .splnet, .splnet, .sleep 1, .switchContext, .splnet, .switchContext,
    .tick, .switchContext, .timerLoop, .switchContext, .suspend 3, .splx, .splx]

theorem splRun_isSome : (Machine.run splMachine (some SplWorld.start) splRun).1.isSome = true := by
  decide +kernel

theorem spl_ok_suspended :
    SplOk ((Machine.run splMachine (some SplWorld.start) splRun).1.get splRun_isSome)
      (Machine.run splMachine (some SplWorld.start) splRun).2 ∧
    ((Machine.run splMachine (some SplWorld.start) splRun).1.get splRun_isSome).splHolderTask =
      some 3 := by
  have hw := (Option.some_get splRun_isSome).symm
  exact ⟨spl_ok splRun _ (by decide +kernel) hw, by decide +kernel⟩

end TnKernel
