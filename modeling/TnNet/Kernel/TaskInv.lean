import TnNet.Kernel.Sched

/-!
# The scheduler invariant under the task services and the tick

One lemma for each service of `tn_tasks.c` and for the two halves of the tick.  A task that a
service names is none of the tasks of `tn.c`.
-/

set_option autoImplicit false

namespace TnKernel

variable {s : Sched} {t u : TaskId} {f : Tcb → Tcb} {o : Option TaskId}

/-- A task that neither runs nor waits is on no list. -/
theorem SInv.outIdle (h : SInv none s) (hr : (s.tcb t).taskState ≠ .runnable)
    (hw : (s.tcb t).taskState.isWait = false) : SInv (some t) s := by
  have ht := h.ok t
  refine h.outWait (.refl t s) ⟨fun _ => rfl, rfl, rfl⟩ h.nodup h.timeoutsNodup (h.prioOk t) hr ?_
  refine ⟨fun q hm => ?_, fun hm => ?_, fun hi => hr (ht.idle hi)⟩
  · cases hq : q.isReady with
    | false =>
      have := (ht.waits q hq).mp hm
      rw [ht.pwait_none hw] at this
      cases this
    | true =>
      cases q with
      | ready p => exact hr ((ht.ready p).mp hm).1
      | _ => cases hq
  · have := (ht.timeouts.mp hm).1
    rw [hw] at this
    cases this

/-- `task_set_dormant_state` on a task that is on no list. -/
theorem SInv.setDormant (h : SInv (some t) s) : SInv (some t) (taskSetDormantState t s) := by
  apply h.setOut
  obtain ⟨-, h2, h3⟩ := h.prioOk t
  exact ⟨h2, h2, fun ht => ⟨(h3 ht).2, (h3 ht).2⟩⟩

theorem taskSetDormantState_state (t : TaskId) (s : Sched) :
    ((taskSetDormantState t s).tcb t).taskState = .dormant := by
  show ((s.setTcb t _).tcb t).taskState = _
  rw [setTcb_same]

theorem taskSetDormantState_pwait (t : TaskId) (s : Sched) :
    ((taskSetDormantState t s).tcb t).pwaitQueue = none := by
  show ((s.setTcb t _).tcb t).pwaitQueue = _
  rw [setTcb_same]

theorem taskSetDormantState_idTask (t : TaskId) (s : Sched) :
    ((taskSetDormantState t s).tcb t).idTask = (s.tcb t).idTask := by
  show ((s.setTcb t _).tcb t).idTask = _
  rw [setTcb_same]

theorem taskSetDormantState_activateCount (t : TaskId) (s : Sched) :
    ((taskSetDormantState t s).tcb t).activateCount = (s.tcb t).activateCount := by
  show ((s.setTcb t _).tcb t).activateCount = _
  rw [setTcb_same]

/-- A dormant task may stay on no list. -/
theorem SInv.parkDormant (h : SInv (some t) s) (ht : t ≠ timerTask)
    (hd : (s.tcb t).taskState = .dormant) (hp : (s.tcb t).pwaitQueue = none) : SInv none s := by
  refine h.park ⟨by rw [hd]; simp, hp, ?_, fun _ => hd, fun hc => absurd hc ht⟩
  rw [hd]
  intro hc
  cases hc

/-! ## Services -/

theorem SInv.create (h : SInv none s) (t : TaskId) (priority : Int) (argsOk : Bool)
    (opt : CreateOpt) (ht : t ≠ timerTask) :
    SInv none (tnTaskCreate t priority argsOk opt s).2 := by
  unfold tnTaskCreate
  split
  · exact h
  split
  · exact h
  rename_i hc
  simp only [TN_NUM_PRIORITY, not_or, Int.not_lt, Bool.not_eq_true] at hc
  obtain ⟨hp0, hp1, -, hid⟩ := hc
  have hd := (h.ok t).dormant hid
  have hr : (s.tcb t).taskState ≠ .runnable := by
    rw [hd]
    simp
  have h1 := h.outIdle hr (by rw [hd]; rfl)
  -- the new control block
  obtain ⟨s1, hs1⟩ : ∃ s1, s1 = s.setTcb t fun b =>
    { b with basePriority := priority.toNat, activateCount := 0, idTask := true } := ⟨_, rfl⟩
  have h2 : SInv (some t) s1 := by
    rw [hs1]
    apply h1.setOut
    refine ⟨(h.prioOk t).1, ?_, fun hc => absurd hc ht⟩
    show priority.toNat < 32
    have : priority ≤ 31 := hp1
    omega
  have h3 := h2.setDormant
  dsimp only
  rw [← hs1]
  split
  · refine h3.toRunnable ?_ fun hc => absurd hc ht
    rw [taskSetDormantState_idTask, hs1, setTcb_same]
  · exact h3.parkDormant ht (taskSetDormantState_state t s1) (taskSetDormantState_pwait t s1)

/-- The order of the two writes of `tn_task_suspend` does not matter. -/
theorem toNonRunnable_setTcb (s : Sched) (hf : (f (s.tcb t)).priority = (s.tcb t).priority) :
    taskToNonRunnable t (s.setTcb t f) = (taskToNonRunnable t s).setTcb t f := by
  unfold taskToNonRunnable findNextTaskToRun
  simp only [setTcb_same, hf, queueRemoveEntry]
  by_cases h1 : (s.que (.ready (s.tcb t).priority)).erase t = []
  · by_cases h2 : s.readyToRunBmp &&& ~~~BitVec.twoPow 32 (s.tcb t).priority = 0#32
    · simp [Sched.setTcb, h1, h2]
    · simp [Sched.setTcb, h1, h2]
  · by_cases h2 : s.nextTaskToRun = some t
    · simp [Sched.setTcb, h1, h2]
    · simp [Sched.setTcb, h1, h2]

theorem SInv.suspend (h : SInv none s) (ht : isSystem t = false) :
    SInv none (tnTaskSuspend t s).2 := by
  have hsys : t ≠ timerTask ∧ t ≠ idleTask := by simpa [isSystem] using ht
  unfold tnTaskSuspend
  dsimp only
  split
  · exact h
  rename_i hid
  have hid' : (s.tcb t).idTask = true := by simpa using hid
  split
  · exact h
  rename_i hns
  split
  · exact h
  rename_i hnd
  split
  · rename_i hr
    rw [toNonRunnable_setTcb s rfl]
    have h1 := h.toNonRunnable hr hsys.2
    have h2 := h1.setOut (f := fun b => { b with taskState := .suspend }) (h1.prioOk t)
    refine h2.park ?_
    rw [setTcb_same, taskToNonRunnable_tcb]
    refine ⟨by simp, (h.ok t).pwait_none (by rw [hr]; rfl), fun hc => (by cases hc), ?_,
      fun hc => absurd hc hsys.1⟩
    intro hc
    have hc' : (s.tcb t).idTask = false := hc
    rw [hid'] at hc'
    cases hc'
  · rename_i hr
    have hw : (s.tcb t).taskState = .wait := by
      cases hst : (s.tcb t).taskState <;> simp_all [TaskState.isSuspend]
    show SInv none (s.setTcb t fun b => { b with taskState := .waitsusp })
    apply h.alike
    constructor
    case run => simp [hw]
    case priority => exact fun hc => absurd hc hr
    case prioOk => exact h.prioOk t
    case isWait => rw [hw]; rfl
    case pwaitQueue => rfl
    case tickCount => exact .rfl
    case reason => exact id
    case dormant => simp [hid']
    case timer => exact fun hc => absurd hc hsys.1

theorem SInv.resume (h : SInv none s) (ht : isSystem t = false) :
    SInv none (tnTaskResume t s).2 := by
  have hsys : t ≠ timerTask ∧ t ≠ idleTask := by simpa [isSystem] using ht
  unfold tnTaskResume
  dsimp only
  split
  · exact h
  rename_i hid
  have hid' : (s.tcb t).idTask = true := by simpa using hid
  split
  · exact h
  rename_i hs
  have hr : (s.tcb t).taskState ≠ .runnable := by
    intro hr
    rw [hr] at hs
    exact hs rfl
  split
  · rename_i hw
    have h1 := h.outIdle hr (by simpa using hw)
    exact h1.toRunnable hid' fun hc => absurd hc hsys.1
  · rename_i hw
    have hws : (s.tcb t).taskState = .waitsusp := by
      cases hst : (s.tcb t).taskState <;> simp_all [TaskState.isSuspend, TaskState.isWait]
    show SInv none (s.setTcb t fun b => { b with taskState := .wait })
    apply h.alike
    constructor
    case run => simp [hws]
    case priority => exact fun hc => absurd hc hr
    case prioOk => exact h.prioOk t
    case isWait => rw [hws]; rfl
    case pwaitQueue => rfl
    case tickCount => exact .rfl
    case reason => exact id
    case dormant => simp [hid']
    case timer => exact fun hc => absurd hc hsys.1

theorem SInv.sleep (h : SInv none s) (timeout : BitVec 32)
    (hr : (s.tcb s.currRunTask).taskState = .runnable) (hi : isSystem s.currRunTask = false) :
    SInv none (tnTaskSleep timeout s).2 := by
  have hsys : s.currRunTask ≠ timerTask ∧ s.currRunTask ≠ idleTask := by
    simpa [isSystem] using hi
  unfold tnTaskSleep
  split
  · exact h
  split
  · dsimp only
    exact h.keep (.of_eq rfl id)
  · show SInv none (taskCurrToWaitAction none .sleep timeout s)
    exact h.block hr hsys.2 (fun hc => absurd hc hsys.1) fun q hq => by cases hq

theorem SInv.wakeup (h : SInv none s) (t : TaskId) : SInv none (tnTaskWakeup t s).2 := by
  unfold tnTaskWakeup
  dsimp only
  split
  · exact h
  split
  · exact h
  split
  · rename_i hw
    show SInv none (taskWaitComplete t false s).2
    rw [h.wakeSleeper hw.1 hw.2]
    exact h.waitComplete hw.1
  split
  · dsimp only
    exact h.keep (.of_eq rfl id)
  · exact h

theorem SInv.activate (h : SInv none s) (ht : t ≠ timerTask) : SInv none (tnTaskActivate t s).2 := by
  unfold tnTaskActivate
  dsimp only
  split
  · exact h
  rename_i hid
  split
  · rename_i hd
    have h1 := h.outIdle (t := t) (by rw [hd]; simp) (by rw [hd]; rfl)
    exact h1.toRunnable (by simpa using hid) fun hc => absurd hc ht
  split
  · dsimp only
    exact h.keep (.of_eq rfl id)
  · exact h

theorem SInv.releaseWait (h : SInv none s) (t : TaskId) : SInv none (tnTaskReleaseWait t s).2 := by
  unfold tnTaskReleaseWait
  dsimp only
  split
  · exact h
  split
  · exact h
  · rename_i hw
    exact h.waitComplete (by simpa using hw)

/-- A dormant task with or without an activation request. -/
theorem SInv.activateAgain (h : SInv (some t) s) (ht : t ≠ timerTask)
    (hid : (s.tcb t).idTask = true) (hd : (s.tcb t).taskState = .dormant)
    (hp : (s.tcb t).pwaitQueue = none) : SInv none (TnKernel.activateAgain t s) := by
  unfold TnKernel.activateAgain
  split
  · refine (h.setOut (h.prioOk t)).toRunnable ?_ fun hc => absurd hc ht
    rw [setTcb_same]
    exact hid
  · exact h.parkDormant ht hd hp

theorem SInv.switchContext (h : SInv none s) : SInv none (tnSwitchContext s) :=
  ⟨h.toQInv.of_eq rfl rfl rfl, h.bmp, h.next⟩

/-- `tn_task_exit` in front of the context switch. -/
def exitTask (attr : Bool) (s : Sched) : Sched :=
  let t := s.currRunTask
  let s := activateAgain t (taskSetDormantState t (taskToNonRunnable t s))
  if attr then s.setTcb t fun b => { b with idTask := false } else s

theorem tnTaskExit_eq (attr : Bool) (s : Sched) :
    tnTaskExit attr s = tnSwitchContext (exitTask attr s) := rfl

/-- **`tn_task_exit`**, without a deletion while an activation request is pending. -/
theorem SInv.exitTask (h : SInv none s) (attr : Bool)
    (hr : (s.tcb s.currRunTask).taskState = .runnable) (hsys : isSystem s.currRunTask = false)
    (ha : attr = true → (s.tcb s.currRunTask).activateCount = 0) :
    SInv none (TnKernel.exitTask attr s) := by
  have hsys : s.currRunTask ≠ timerTask ∧ s.currRunTask ≠ idleTask := by
    simpa [isSystem] using hsys
  have hid : (s.tcb s.currRunTask).idTask = true := h.idTask (by rw [hr]; simp)
  unfold TnKernel.exitTask
  dsimp only
  generalize s.currRunTask = t at *
  have h1 := (h.toNonRunnable hr hsys.2).setDormant
  have hid1 : ((taskSetDormantState t (taskToNonRunnable t s)).tcb t).idTask = true := by
    rw [taskSetDormantState_idTask, taskToNonRunnable_tcb]
    exact hid
  have hd1 := taskSetDormantState_state t (taskToNonRunnable t s)
  have hp1 := taskSetDormantState_pwait t (taskToNonRunnable t s)
  split
  · rename_i hattr
    -- no request is pending: the dormant task loses its identifier
    have hac : TnKernel.activateAgain t (taskSetDormantState t (taskToNonRunnable t s)) =
        taskSetDormantState t (taskToNonRunnable t s) := by
      unfold TnKernel.activateAgain
      rw [if_neg]
      rw [taskSetDormantState_activateCount, taskToNonRunnable_tcb, ha hattr]
      simp
    rw [hac]
    refine (h1.setOut (h1.prioOk t)).parkDormant hsys.1 ?_ ?_
    · rw [setTcb_same]
      exact hd1
    · rw [setTcb_same]
      exact hp1
  · exact h1.activateAgain hsys.1 hid1 hd1 hp1

theorem SInv.terminateQueues (h : SInv none s) (hi : t ≠ idleTask)
    (hd : (s.tcb t).taskState ≠ .dormant) :
    SInv (some t) (TnKernel.terminateQueues t s) ∧
      ((TnKernel.terminateQueues t s).tcb t).idTask = true := by
  have hid := h.idTask hd
  unfold TnKernel.terminateQueues
  split
  · rename_i hr
    refine ⟨h.toNonRunnable hr hi, ?_⟩
    rw [taskToNonRunnable_tcb]
    exact hid
  · rename_i hr
    split
    · have h1 := h.leave (f := id) hr hi (h.prioOk t) rfl
      dsimp only
      rw [timerQueueRemove_tcb]
      refine ⟨?_, hid⟩
      have hset : (queueRemoveEntry t s).setTcb t id = queueRemoveEntry t s := by
        unfold Sched.setTcb
        rw [id, Function.update_eq_self]
      rw [hset] at h1
      refine ⟨h1.toQInv.of_eq ?_ ?_ ?_, ?_, ?_⟩
      · rw [timerQueueRemove_tcb, timerQueueRemove_tcb]
      · rw [timerQueueRemove_que, timerQueueRemove_que]
      · unfold timerQueueRemove
        split <;> rfl
      · unfold timerQueueRemove at h1 ⊢
        split at h1 <;> split <;> exact h1.bmp
      · unfold timerQueueRemove at h1 ⊢
        split at h1 <;> split <;> exact h1.next
    · rename_i hw
      exact ⟨h.outIdle hr (by simpa using hw), hid⟩

theorem SInv.terminate (h : SInv none s) (hsys : isSystem t = false) :
    SInv none (tnTaskTerminate t s).2 := by
  have hsys : t ≠ timerTask ∧ t ≠ idleTask := by simpa [isSystem] using hsys
  unfold tnTaskTerminate
  dsimp only
  split
  · exact h
  split
  · exact h
  · rename_i hd
    rw [not_or] at hd
    obtain ⟨h1, hid⟩ := h.terminateQueues hsys.2 hd.1
    refine h1.setDormant.activateAgain hsys.1 ?_ (taskSetDormantState_state t _)
      (taskSetDormantState_pwait t _)
    rw [taskSetDormantState_idTask]
    exact hid

theorem SInv.delete (h : SInv none s) (ht : t ≠ timerTask) : SInv none (tnTaskDelete t s).2 := by
  unfold tnTaskDelete
  dsimp only
  split
  · exact h
  split
  · exact h
  · rename_i hd
    have hd' : (s.tcb t).taskState = .dormant := by simpa using hd
    show SInv none (s.setTcb t fun b => { b with idTask := false })
    apply h.alike
    constructor
    case run => exact .rfl
    case priority => exact fun _ => rfl
    case prioOk => exact h.prioOk t
    case isWait => rfl
    case pwaitQueue => rfl
    case tickCount => exact .rfl
    case reason => exact id
    case dormant => exact fun _ => hd'
    case timer => exact fun hc => absurd hc ht

/-- The priority `tn_task_change_priority` gives a task. -/
theorem QInv.prioOk_change (h : QInv none s) (p : Int) (ht : t ≠ timerTask)
    (hp : ¬(p < 0 ∨ (TN_NUM_PRIORITY : Int) - 2 < p)) :
    PrioOk t { s.tcb t with priority := if p = 0 then (s.tcb t).basePriority else p.toNat } := by
  simp only [TN_NUM_PRIORITY, not_or, Int.not_lt] at hp
  refine ⟨?_, (h.prioOk t).2.1, fun hc => absurd hc ht⟩
  show (if p = 0 then (s.tcb t).basePriority else p.toNat) < 32
  split
  · exact (h.prioOk t).2.1
  · have : p ≤ 30 := hp.2
    omega

theorem SInv.taskChangePriority (h : SInv none s) (p : Int) (hsys : isSystem t = false) :
    SInv none (tnTaskChangePriority t p s).2 := by
  have hsys : t ≠ timerTask ∧ t ≠ idleTask := by simpa [isSystem] using hsys
  unfold tnTaskChangePriority
  dsimp only
  split
  · exact h
  split
  · exact h
  rename_i hp
  have hpr := h.prioOk_change p hsys.1 hp
  split
  · exact h
  split
  · rename_i hr
    exact h.changePriority hr hsys.2 hpr
  · rename_i hr
    exact h.setPriority hr hpr

theorem SInv.tsliceTicks (h : SInv none s) (p v : Int) : SInv none (tnSysTsliceTicks p v s).2 := by
  unfold tnSysTsliceTicks
  split
  · exact h
  · exact ⟨h.toQInv.of_eq rfl rfl rfl, h.bmp, h.next⟩

/-! ## The tick -/

theorem rotate_perm (l : List TaskId) : (rotate l).Perm l := by
  unfold rotate
  split
  · refine List.perm_append_comm.trans ?_
    rw [List.take_append_drop]
  · exact .refl l

/-- The tasks of a queue in another order. -/
theorem SInv.reorder (h : SInv none s) {q : Que} {l : List TaskId} (hl : l.Perm (s.que q)) :
    SInv none { s with que := Function.update s.que q l } := by
  have hp : ∀ q', (Function.update s.que q l q').Perm (s.que q') := by
    intro q'
    by_cases hq : q' = q
    · rw [hq, Function.update_self]
      exact hl
    · rw [Function.update_of_ne hq]
  refine ⟨?_, fun p hp' => ?_, h.next⟩
  · constructor
    case task => exact fun u _ => (h.ok u).congr rfl (fun q' => (hp q').mem_iff) .rfl
    case out => exact fun u hu => by cases hu
    case nodup => exact fun q' => (hp q').nodup_iff.mpr (h.nodup q')
    case timeoutsNodup => exact h.timeoutsNodup
    case prio => exact h.prio
    case timerPrio => exact h.timerPrio
  · rw [h.bmp p hp', ne_eq, ne_eq, ← List.length_eq_zero_iff, ← List.length_eq_zero_iff]
    show _ ↔ ¬(Function.update s.que q l (.ready p)).length = 0
    rw [(hp (.ready p)).length_eq]

theorem SInv.roundRobin (h : SInv none s) : SInv none (TnKernel.roundRobin s) := by
  unfold TnKernel.roundRobin
  dsimp only
  split
  · exact h
  have h1 : SInv none (s.setTcb s.currRunTask fun b => { b with tsliceCount := b.tsliceCount + 1 }) :=
    h.keep (.of_eq rfl id)
  split
  · have h2 : SInv none ((s.setTcb s.currRunTask fun b =>
        { b with tsliceCount := b.tsliceCount + 1 }).setTcb s.currRunTask fun b =>
          { b with tsliceCount := 0 }) := h1.keep (.of_eq rfl id)
    exact h2.reorder (rotate_perm _)
  · exact h1

/-- **`tn_tick_int_processing`.**  The timer task is runnable and comes next. -/
theorem SInv.tick (h : SInv none s) : SInv none (tnTickIntProcessing s) := by
  have h0 := h.roundRobin
  unfold tnTickIntProcessing
  dsimp only
  generalize TnKernel.roundRobin s = s at h0 ⊢
  have ht := (h0.ok timerTask).timer rfl
  have hid : (s.tcb timerTask).idTask = true := by
    apply h0.idTask
    rcases ht.2.2 with hc | hc <;> rw [hc] <;> simp
  have h1 : QInv (some timerTask) (queueRemoveEntry timerTask s) := by
    refine QInv.outOf (frame_removeEntry timerTask s) (fun q => (h0.nodup q).erase timerTask)
      h0.timeoutsNodup (h0.prioOk timerTask) h0.toQInv
      ⟨fun q => (h0.nodup q).not_mem_erase, fun hm => ?_, by decide⟩
    exact ((h0.ok timerTask).timeouts.mp hm).2 ht.2.1
  obtain ⟨s2, hs2⟩ : ∃ s2, s2 = (queueRemoveEntry timerTask s).setTcb timerTask fun b =>
    { b with taskWaitReason := none, taskState := .runnable, pwaitQueue := none
             taskWaitRc := .noErr } := ⟨_, rfl⟩
  have h2 : QInv (some timerTask) s2 := hs2 ▸ h1.setOut (h1.prioOk timerTask)
  have hb2 : s2.tcb timerTask = { s.tcb timerTask with
      taskWaitReason := none, taskState := .runnable, pwaitQueue := none, taskWaitRc := .noErr } := by
    rw [hs2, setTcb_same]
    rfl
  have h3 := h2.addReady (by rw [hb2]) (by rw [hb2]) (by rw [hb2]; exact hid)
    fun _ => by rw [hb2]; exact ht.2.1
  have hp0 : (s2.tcb timerTask).priority = 0 := h2.timerPrio.1
  rw [hp0] at h3
  rw [← hs2]
  refine ⟨h3.of_eq rfl rfl rfl, fun p hp => ?_, timerTask, rfl, by simp, ?_, fun u _ _ => ?_⟩
  · show (s2.readyToRunBmp ||| BitVec.twoPow 32 0).getLsbD p = true ↔
      (queueAddTail (.ready 0) timerTask s2).que (.ready p) ≠ []
    rw [getLsbD_set _ hp]
    show _ ↔ Function.update s2.que (.ready 0) _ (.ready p) ≠ []
    by_cases hp0 : p = 0
    · subst hp0
      simp
    · rw [Function.update_of_ne (by simpa using hp0), hs2]
      show _ ↔ (s.que (.ready p)).erase timerTask ≠ []
      rw [h0.erase_ready p (by rw [h0.timerPrio.1]; exact hp0), ← h0.bmp p hp]
      simp [hp0]
      rfl
  · show (s2.tcb timerTask).taskState = .runnable
    rw [hb2]
  · show (s2.tcb timerTask).priority ≤ _
    rw [hp0]
    exact Nat.zero_le _

/-! ## The timer task -/

/-- The counter of a task that waits with a timeout. -/
theorem SInv.tickDown (h : SInv none s) (ht : ticks (s.tcb t) = true) :
    SInv none (s.setTcb t fun b => { b with tickCount := b.tickCount - 1 }) := by
  unfold ticks at ht
  rw [Bool.and_eq_true, decide_eq_true_eq, decide_eq_true_eq] at ht
  apply h.alike
  constructor
  case run => exact .rfl
  case priority => exact fun _ => rfl
  case prioOk => exact h.prioOk t
  case isWait => rfl
  case pwaitQueue => rfl
  case tickCount =>
    refine ⟨fun hc => ?_, fun hc => absurd hc ht.2⟩
    have hc' : (s.tcb t).tickCount - 1 = TN_WAIT_INFINITE := hc
    have h0 : (s.tcb t).tickCount = 0 := by
      unfold TN_WAIT_INFINITE at hc'
      bv_omega
    rw [h0] at ht
    exact absurd ht.1 (by decide)
  case reason => exact id
  case dormant => exact (h.ok t).dormant
  case timer => exact fun _ => rfl

/-- One task of `tn_wait_timeout_list`. -/
theorem SInv.timeoutTask (h : SInv none s) (hw : (s.tcb t).taskState.isWait = true) :
    SInv none (TnKernel.timeoutTask s t) := by
  unfold TnKernel.timeoutTask
  split
  · rename_i ht
    have h1 := h.tickDown ht
    dsimp only
    split
    · refine SInv.keep ?_ (.of_eq rfl id)
      apply h1.waitComplete
      rw [setTcb_same]
      exact hw
    · exact h1
  · exact h

theorem taskToRunnable_frame (t : TaskId) (s : Sched) : Frame t s (taskToRunnable t s) := by
  have h1 : Frame t s (queueAddTail (.ready (s.tcb t).priority) t
      (s.setTcb t fun b => { b with taskState := .runnable, pwaitQueue := none })) :=
    (frame_setTcb s t _).trans (frame_addTail _ t _)
  unfold taskToRunnable
  dsimp only
  split <;> exact ⟨h1.tcb, h1.order, h1.timeouts, h1.curr⟩

theorem waitComplete_frame (t : TaskId) (remove : Bool) (s : Sched) :
    Frame t s (taskWaitComplete t remove s).2 := by
  unfold taskWaitComplete
  dsimp only
  refine Frame.trans ?_ (frame_setTcb _ t _)
  have h1 : Frame t s (if remove then queueRemoveEntry t s else s) := by
    split
    · exact frame_removeEntry t s
    · exact .refl t s
  generalize (if remove then queueRemoveEntry t s else s) = s₁ at h1 ⊢
  have h2 := ((h1.trans (frame_setTcb _ t fun b =>
    { b with pwaitQueue := none, taskWaitRc := .noErr })).trans
      (frame_timerQueueRemove t _)).trans
        (frame_setTcb _ t fun b => { b with tickCount := TN_WAIT_INFINITE })
  refine h2.trans ?_
  split
  · exact taskToRunnable_frame t _
  · exact frame_setTcb _ t _

theorem timeoutTask_frame (s : Sched) (t : TaskId) : Frame t s (timeoutTask s t) := by
  unfold timeoutTask
  dsimp only
  split
  · split
    · exact ((frame_setTcb s t _).trans (waitComplete_frame t true _)).trans (frame_setTcb _ t _)
    · exact frame_setTcb s t _
  · exact .refl t s

/-- The walk over `tn_wait_timeout_list`. -/
theorem SInv.timeouts (l : List TaskId) (h : SInv none s) (hn : l.Nodup)
    (hw : ∀ t ∈ l, (s.tcb t).taskState.isWait = true) :
    SInv none (l.foldl TnKernel.timeoutTask s) := by
  induction l generalizing s with
  | nil => exact h
  | cons t l ih =>
    obtain ⟨htl, hn⟩ := List.nodup_cons.mp hn
    refine ih (h.timeoutTask (hw t List.mem_cons_self)) hn fun u hu => ?_
    have hut : u ≠ t := by
      rintro rfl
      exact htl hu
    rw [(timeoutTask_frame s t).tcb u hut]
    exact hw u (List.mem_cons_of_mem t hu)

/-- The walk leaves the tasks that are not on the list alone. -/
theorem timeouts_frame (l : List TaskId) (s : Sched) (hu : u ∉ l) :
    (l.foldl timeoutTask s).tcb u = s.tcb u ∧
      (l.foldl timeoutTask s).currRunTask = s.currRunTask := by
  induction l generalizing s with
  | nil => exact ⟨rfl, rfl⟩
  | cons t l ih =>
    rw [List.mem_cons, not_or] at hu
    obtain ⟨h1, h2⟩ := ih (timeoutTask s t) hu.2
    rw [List.foldl_cons, h1, h2]
    exact ⟨(timeoutTask_frame s t).tcb u hu.1, (timeoutTask_frame s t).curr⟩

/-- **The loop body of the timer task.** -/
theorem SInv.timerLoop (h : SInv none s) (hc : s.currRunTask = timerTask)
    (hr : (s.tcb timerTask).taskState = .runnable) : SInv none (timerTaskLoop s) := by
  have htm := ((h.ok timerTask).timer rfl).2.1
  have hnot : timerTask ∉ s.waitTimeoutList := fun hm => ((h.ok timerTask).timeouts.mp hm).2 htm
  obtain ⟨h1, h2⟩ := timeouts_frame s.waitTimeoutList s hnot
  have h3 := h.timeouts s.waitTimeoutList h.timeoutsNodup fun t ht =>
    ((h.ok t).timeouts.mp ht).1
  unfold timerTaskLoop
  rw [hc] at h2
  refine h3.block (by rw [h2, h1]; exact hr) (by rw [h2]; decide) (fun _ => ⟨rfl, rfl⟩) ?_
  intro q hq
  cases hq

/-! ## The start -/

/-- The control block of a system task behind `tn_start_system`. -/
def startTcb (priority : Nat) : Tcb :=
  { basePriority := priority, priority := priority, idTask := true, taskState := .runnable }

theorem start_que : tnStartSystem.que = Function.update
    (Function.update (fun _ => []) (.ready 31) [idleTask]) (.ready 0) [timerTask] := rfl

theorem tnTaskCreate_frame (t : TaskId) (priority : Int) (argsOk : Bool) (opt : CreateOpt)
    (s : Sched) : Frame t s (tnTaskCreate t priority argsOk opt s).2 := by
  unfold tnTaskCreate
  split
  · exact .refl t s
  split
  · exact .refl t s
  dsimp only
  have h1 : Frame t s (taskSetDormantState t (s.setTcb t fun b =>
      { b with basePriority := priority.toNat, activateCount := 0, idTask := true })) :=
    (frame_setTcb s t _).trans (frame_setTcb _ t _)
  split
  · exact h1.trans (taskToRunnable_frame t _)
  · exact h1

/-- A task that has not been created. -/
theorem start_tcb (h0 : u ≠ timerTask) (h1 : u ≠ idleTask) : tnStartSystem.tcb u = {} := by
  have hf : ∀ s, (tnSwitchContext (taskToRunnable timerTask (taskToRunnable idleTask s))).tcb u =
      s.tcb u := by
    intro s
    exact ((taskToRunnable_frame timerTask _).tcb u h0).trans
      ((taskToRunnable_frame idleTask s).tcb u h1)
  unfold tnStartSystem
  dsimp only
  rw [hf, (tnTaskCreate_frame idleTask _ _ _ _).tcb u h1,
    (tnTaskCreate_frame timerTask _ _ _ _).tcb u h0]
  rfl

theorem mem_start_que (u : TaskId) (q : Que) : u ∈ tnStartSystem.que q ↔
    (q = .ready 0 ∧ u = timerTask) ∨ (q = .ready 31 ∧ u = idleTask) := by
  rw [start_que]
  by_cases h0 : q = .ready 0
  · rw [h0, Function.update_self]
    simp
  · rw [Function.update_of_ne h0]
    by_cases h1 : q = .ready 31
    · rw [h1, Function.update_self]
      simp
    · rw [Function.update_of_ne h1]
      simp [h0, h1]

/-- A system task behind `tn_start_system`. -/
theorem startOk {p : Nat} (hb : tnStartSystem.tcb u = startTcb p)
    (hq : ∀ q, u ∈ tnStartSystem.que q ↔ q = .ready p) : TaskOk tnStartSystem u := by
  constructor
  case ready => simp [hq, hb, startTcb, eq_comm]
  case waits =>
    intro q hr
    rw [hq, hb]
    constructor
    · rintro rfl
      cases hr
    · intro hc
      cases hc
  case wait => simp [hb, startTcb]
  case sleep => simp [hb, startTcb]
  case timeouts =>
    rw [hb]
    exact ⟨fun hc => (by cases hc), fun hc => by cases hc.1⟩
  case dormant => simp [hb, startTcb]
  case timer => simp [hb, startTcb]
  case idle => simp [hb, startTcb]

theorem QInv.start : QInv none tnStartSystem := by
  constructor
  case task =>
    intro u _
    by_cases h0 : u = timerTask
    · rw [h0]
      refine startOk (p := 0) rfl fun q => ?_
      rw [mem_start_que]
      simp [timerTask, idleTask]
    by_cases h1 : u = idleTask
    · rw [h1]
      refine startOk (p := 31) rfl fun q => ?_
      rw [mem_start_que]
      simp [timerTask, idleTask]
    · have hb := start_tcb h0 h1
      constructor
      case ready => simp [mem_start_que, hb, h0, h1]
      case waits => simp [mem_start_que, hb, h0, h1]
      case wait => simp [hb]
      case sleep => simp [hb]
      case timeouts =>
        rw [hb]
        exact ⟨fun hc => (by cases hc), fun hc => by cases hc.1⟩
      case dormant => simp [hb]
      case timer => exact fun hc => absurd hc h0
      case idle => exact fun hc => absurd hc h1
  case out => exact fun u hu => by cases hu
  case nodup =>
    intro q
    rw [start_que]
    by_cases h0 : q = .ready 0
    · rw [h0, Function.update_self]
      simp
    · rw [Function.update_of_ne h0]
      by_cases h1 : q = .ready 31
      · rw [h1, Function.update_self]
        simp
      · rw [Function.update_of_ne h1]
        simp
  case timeoutsNodup => exact List.nodup_nil
  case prio =>
    intro u
    by_cases h0 : u = timerTask
    · rw [h0]
      decide
    by_cases h1 : u = idleTask
    · rw [h1]
      decide
    · rw [start_tcb h0 h1]
      decide
  case timerPrio => exact ⟨rfl, rfl⟩

theorem SInv.start : SInv none tnStartSystem := by
  refine ⟨QInv.start, ?_, timerTask, rfl, by simp, rfl, fun u _ _ => Nat.zero_le _⟩
  unfold BmpOk
  decide

end TnKernel
