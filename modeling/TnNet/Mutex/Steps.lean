import TnNet.Mutex.Services

/-!
# Every event is a sequence of acts

`mutexStep_acts` — what an event does to the mutexes, under the condition `Keeps` on the event.  From it
comes the step lemma `step_minv`: an event that meets the condition keeps the bookkeeping of the
mutexes.
-/

set_option autoImplicit false

namespace TnMutex

open TnKernel Fold

variable {k k' : Kernel} {s s' : Sched} {t u w h : TaskId} {m n len : Nat} {strict : Prop}
  {x y : State} {ev : Event}

/-! ## Tasks and time -/

/-- **`tn_task_release_wait`.** -/
theorem tnTaskReleaseWait_acts {r : Terr × Kernel} (hi : MInv none k)
    (hr : tnTaskReleaseWait len t k = .ok r) : Acts strict (none, k) (none, r.2) := by
  unfold tnTaskReleaseWait at hr
  dsimp only at hr
  split at hr
  · cases hr
    exact .refl
  split at hr
  · cases hr
    exact .refl
  rename_i hw
  simp only [Bool.not_eq_true', Bool.not_eq_false] at hw
  obtain ⟨r1, h1, h2⟩ := bind_ok hr
  cases h2
  obtain ⟨s', hr1, hwk⟩ := taskWaitComplete_woken hi.sched hi.users hw h1
  refine .single (.woke t ?_)
  rw [hr1]
  exact Woken.woke hi.toWaitInv hw (.inl rfl) hwk

/-- The tasks the walk over `tn_wait_timeout_list` comes to still wait. -/
structure Timeouts (k : Kernel) (l : List TaskId) : Prop where
  nodup : l.Nodup
  wait : ∀ u ∈ l, (k.sch.tcb u).taskState.isWait = true
  curr : k.sch.currRunTask = timerTask
  run : (k.sch.tcb timerTask).taskState = .runnable

theorem timeoutTask_acts (strict : Prop) (hi : MInv none k) (hw : (k.sch.tcb t).taskState.isWait = true)
    (hr : timeoutTask len k t = .ok k') : Acts strict (none, k) (none, k') ∧
      k'.sch.currRunTask = k.sch.currRunTask ∧
      ∀ u, u ≠ t → (k'.sch.tcb u).taskState = (k.sch.tcb u).taskState := by
  unfold timeoutTask at hr
  dsimp only at hr
  split at hr
  · rename_i ht
    obtain ⟨k1, hk1⟩ : ∃ k1 : Kernel, k1 = { k with sch := k.sch.setTcb t fun b =>
      { b with tickCount := b.tickCount - 1 } } := ⟨_, rfl⟩
    have hst : Still k k1 := by
      rw [hk1]
      exact still_setTcb (hi.sched.tickDown ht) ⟨rfl, rfl, rfl, fun _ => .inl⟩ rfl
    have h1 : Act strict (none, k) (none, k1) := .still hst
    have hi1 := h1.minv hi
    have htcb : ∀ u, u ≠ t → k1.sch.tcb u = k.sch.tcb u := fun u hu => by
      rw [hk1]
      dsimp only
      rw [setTcb_ne _ _ hu]
    have hcurr : k1.sch.currRunTask = k.sch.currRunTask := by rw [hk1]; rfl
    split at hr
    · have hw1 : (k1.sch.tcb t).taskState.isWait = true := by
        rw [hk1]
        dsimp only
        rw [setTcb_same]
        exact hw
      obtain ⟨r, h2, h3⟩ := bind_ok hr
      cases h3
      rw [← hk1] at h2
      obtain ⟨s', hr2, hwk⟩ := taskWaitComplete_woken hi1.sched hi1.users hw1 h2
      have hwoke : Woke t k1 r.2 := by
        rw [hr2]
        exact Woken.woke hi1.toWaitInv hw1 (.inl rfl) hwk
      have hs3 : SInv none (r.2.sch.setTcb t fun b => { b with taskWaitRc := .timeout }) :=
        hwoke.sched.keep (.of_eq rfl id)
      refine ⟨((Relation.ReflTransGen.single h1).tail (.woke t hwoke)).tail
        (.still (still_setTcb hs3 ⟨rfl, rfl, rfl, fun _ => .inl⟩ rfl)), ?_, fun u hu => ?_⟩
      · show r.2.sch.currRunTask = _
        rw [hr2]
        exact hwk.curr.trans hcurr
      · obtain ⟨p, hp⟩ := hwk.tcb u hu
        dsimp only
        rw [setTcb_ne _ _ hu, hr2]
        show (s'.tcb u).taskState = _
        rw [hp, ← htcb u hu]
    · rw [← hk1] at hr
      cases hr
      exact ⟨.single h1, hcurr, fun u hu => by rw [htcb u hu]⟩
  · cases hr
    exact ⟨.refl, rfl, fun _ _ => rfl⟩

theorem Timeouts.next {l : List TaskId} (h : Timeouts k (t :: l))
    (hk : (k.sch.tcb t).taskState.isWait = true) (hcurr : k'.sch.currRunTask = k.sch.currRunTask)
    (hst : ∀ u, u ≠ t → (k'.sch.tcb u).taskState = (k.sch.tcb u).taskState) : Timeouts k' l := by
  obtain ⟨htl, hnd⟩ := List.nodup_cons.mp h.nodup
  refine ⟨hnd, fun u hu => ?_, hcurr.trans h.curr, ?_⟩
  · have hut : u ≠ t := by
      rintro rfl
      exact htl hu
    rw [hst u hut]
    exact h.wait u (List.mem_cons_of_mem t hu)
  · rw [hst]
    · exact h.run
    · rintro rfl
      rw [h.run] at hk
      cases hk

/-- The timer task sleeps. -/
theorem timerSleep_still (hi : MInv none k) (hcurr : k.sch.currRunTask = timerTask)
    (hr : (k.sch.tcb timerTask).taskState = .runnable) :
    Still k { k with sch := taskCurrToWaitAction none .sleep TN_WAIT_INFINITE k.sch } := by
  have hrc : (k.sch.tcb k.sch.currRunTask).taskState = .runnable := by rw [hcurr]; exact hr
  have hpw := (hi.sched.ok k.sch.currRunTask).pwait_none (by rw [hrc]; rfl)
  have hb := taskCurrToWaitAction_tcb none .sleep TN_WAIT_INFINITE k.sch hpw
  have hf := taskCurrToWaitAction_frame none .sleep TN_WAIT_INFINITE k.sch
  have hs : SInv none (taskCurrToWaitAction none .sleep TN_WAIT_INFINITE k.sch) := by
    refine hi.sched.block hrc (by rw [hcurr]; decide) (fun _ => ⟨rfl, rfl⟩) ?_
    exact fun q hq => by cases hq
  refine ⟨⟨hs, rfl, rfl, fun u => ?_⟩, fun m => ?_, currToWait_blocked _ _ _ _, fun u => ?_⟩
  · show Owns _ ((taskCurrToWaitAction none .sleep TN_WAIT_INFINITE k.sch).tcb u)
    by_cases hu : u = k.sch.currRunTask
    · rw [hu, hb]
      exact ⟨rfl, rfl, rfl, fun _ => .inl⟩
    · rw [hf.tcb u hu]
      exact .refl _
  · show (taskCurrToWaitAction none .sleep TN_WAIT_INFINITE k.sch).que (.mutex m) = _
    rw [taskCurrToWaitAction_eq, joinTimeouts_que]
    show (taskToNonRunnable k.sch.currRunTask k.sch).que (.mutex m) = _
    rw [taskToNonRunnable_que]
    exact List.erase_of_not_mem (not_mem_of_not_wait hi.sched (by rw [hrc]; rfl) m)
  · show mutexWait ((taskCurrToWaitAction none .sleep TN_WAIT_INFINITE k.sch).tcb u) = _
    by_cases hu : u = k.sch.currRunTask
    · rw [hu, hb, mutexWait_of_not_wait (b := k.sch.tcb k.sch.currRunTask) (by rw [hrc]; rfl)]
      rfl
    · rw [hf.tcb u hu]

/-- **The loop body of the timer task.** -/
theorem timerTaskLoop_acts (hi : MInv none k) (hcurr : k.sch.currRunTask = timerTask)
    (hrun : (k.sch.tcb timerTask).taskState = .runnable) (hr : timerTaskLoop len k = .ok k') :
    Acts strict (none, k) (none, k') := by
  obtain ⟨k1, h1, h2⟩ := bind_ok hr
  cases h2
  have hstart : Timeouts k k.sch.waitTimeoutList := by
    refine ⟨hi.sched.timeoutsNodup, fun u hu => ?_, hcurr, hrun⟩
    exact ((hi.sched.ok u).timeouts.mp hu).1
  have hstep : ∀ x t l y, Acts strict (none, k) (none, x) ∧ Timeouts x (t :: l) → True →
      timeoutTask len x t = .ok y → Acts strict (none, k) (none, y) ∧ Timeouts y l := by
    rintro x t l y ⟨hx, ht⟩ - hy
    have hw := ht.wait t List.mem_cons_self
    obtain ⟨h5, h6, h7⟩ := timeoutTask_acts strict (hx.minv hi) hw hy
    exact ⟨hx.trans h5, ht.next hw h6 h7⟩
  obtain ⟨h3, h4⟩ := foldlM_along (fun x l => Acts strict (none, k) (none, x) ∧ Timeouts x l) hstep
    ⟨.refl, hstart⟩ (along_true (timeoutTask len) k k.sch.waitTimeoutList) h1
  exact h3.tail (.still (timerSleep_still (h3.minv hi) h4.curr h4.run))

theorem Still.trans {k'' : Kernel} (h : Still k k') (h' : Still k' k'') : Still k k'' := by
  refine ⟨⟨h'.sched, h'.mutex.trans h.mutex, h'.locked.trans h.locked, fun u => ?_⟩, fun m => ?_,
    h'.blocked.trans h.blocked, fun u => ?_⟩
  · exact (h.owns u).trans (h'.owns u)
  · exact (h'.que m).trans (h.que m)
  · exact (h'.wait u).trans (h.wait u)

theorem roundRobin_tcb (s : Sched) (u : TaskId) :
    ∃ n, (roundRobin s).tcb u = { s.tcb u with tsliceCount := n } := by
  unfold roundRobin
  dsimp only
  by_cases hu : u = s.currRunTask
  · subst hu
    split
    · exact ⟨_, rfl⟩
    split
    · exact ⟨0, by rw [setTcb_curr, setTcb_same, setTcb_same]⟩
    · exact ⟨_, setTcb_same _ _ _⟩
  · split
    · exact ⟨_, rfl⟩
    split
    · exact ⟨_, by rw [setTcb_curr, setTcb_ne _ _ hu, setTcb_ne _ _ hu]⟩
    · exact ⟨_, setTcb_ne _ _ hu⟩

theorem roundRobin_still (hs : SInv none k.sch) : Still k { k with sch := roundRobin k.sch } := by
  refine ⟨⟨hs.roundRobin, rfl, rfl, fun u => ?_⟩, fun m => ?_, ?_, fun u => ?_⟩
  · obtain ⟨n, hn⟩ := roundRobin_tcb k.sch u
    show Owns _ ((roundRobin k.sch).tcb u)
    rw [hn]
    exact ⟨rfl, rfl, rfl, fun _ => .inl⟩
  · show (roundRobin k.sch).que (.mutex m) = _
    unfold roundRobin
    dsimp only
    repeat' split
    all_goals rfl
  · show (roundRobin k.sch).blockedTasksList = _
    unfold roundRobin
    dsimp only
    repeat' split
    all_goals rfl
  · obtain ⟨n, hn⟩ := roundRobin_tcb k.sch u
    show mutexWait ((roundRobin k.sch).tcb u) = _
    rw [hn]
    rfl

/-- The control blocks behind a tick: the timer task runs. -/
theorem tick_tcb (s : Sched) : (tnTickIntProcessing s).tcb = ((roundRobin s).setTcb timerTask fun b =>
    { b with
      taskWaitReason := none, taskState := .runnable, pwaitQueue := none, taskWaitRc := .noErr }).tcb :=
  rfl

/-- **`tn_tick_int_processing`.** -/
theorem tick_still (hi : WaitInv k) : Still k { k with sch := tnTickIntProcessing k.sch } := by
  have hst := roundRobin_still hi.sched
  have hr := hi.sched.roundRobin
  have hnot : ∀ m, timerTask ∉ (roundRobin k.sch).que (.mutex m) := fun m =>
    hr.toQInv.not_mem rfl (by rw [((hr.ok timerTask).timer rfl).1]; simp)
  refine hst.trans ⟨⟨hi.sched.tick, rfl, rfl, fun u => ?_⟩, fun m => ?_, rfl, fun u => ?_⟩
  · show Owns ((roundRobin k.sch).tcb u) ((tnTickIntProcessing k.sch).tcb u)
    rw [tick_tcb]
    by_cases hu : u = timerTask
    · rw [hu, setTcb_same]
      exact ⟨rfl, rfl, rfl, fun _ => .inl⟩
    · rw [setTcb_ne _ _ hu]
      exact .refl _
  · exact List.erase_of_not_mem (hnot m)
  · show mutexWait ((tnTickIntProcessing k.sch).tcb u) = mutexWait ((roundRobin k.sch).tcb u)
    rw [tick_tcb]
    by_cases hu : u = timerTask
    · -- the timer task waits for no mutex
      rw [hu, setTcb_same]
      cases hw : mutexWait ((roundRobin k.sch).tcb timerTask) with
      | none => rfl
      | some r =>
        obtain ⟨m, hm⟩ := (hst.waitInv hi).place timerTask r hw
        exact absurd hm (hnot m)
    · rw [setTcb_ne _ _ hu]

/-- **`tn_task_create`.** -/
theorem tnTaskCreate_newTask (hi : MInv none k) (ht : isSystem t = false) (priority : Int)
    (argsOk start : Bool) :
    (tnTaskCreate t priority argsOk { startOnCreation := start } k.sch).2 = k.sch ∨
      NewTask t k { k with
        sch := (tnTaskCreate t priority argsOk { startOnCreation := start } k.sch).2 } := by
  have hs := hi.sched.create t priority argsOk { startOnCreation := start } (isSystem_false ht).1
  have hf := tnTaskCreate_frame t priority argsOk { startOnCreation := start } k.sch
  unfold tnTaskCreate at hs hf ⊢
  by_cases h1 : (priority = 0 ∧ !({ startOnCreation := start } : CreateOpt).timer) ∨
      (priority = TN_NUM_PRIORITY - 1 ∧ !({ startOnCreation := start } : CreateOpt).idle)
  · rw [if_pos h1]
    exact .inl rfl
  by_cases h2 : priority < 0 ∨ (TN_NUM_PRIORITY : Int) - 1 < priority ∨ !argsOk ∨ (k.sch.tcb t).idTask
  · rw [if_neg h1, if_pos h2]
    exact .inl rfl
  rw [if_neg h1, if_neg h2] at hs hf ⊢
  dsimp only at hs hf ⊢
  have hid : (k.sch.tcb t).idTask = false := by
    simp only [not_or, Bool.not_eq_true] at h2
    exact h2.2.2.2
  -- the control block of the new task, runnable or dormant
  obtain ⟨s1, hs1⟩ : ∃ s1, s1 = taskSetDormantState t (k.sch.setTcb t fun b =>
    { b with basePriority := priority.toNat, activateCount := 0, idTask := true }) := ⟨_, rfl⟩
  obtain ⟨s2, hs2⟩ : ∃ s2, s2 = if start = true then taskToRunnable t s1 else s1 := ⟨_, rfl⟩
  rw [← hs1, ← hs2] at hs hf ⊢
  have hd : (s1.tcb t).taskState = .dormant ∧ (s1.tcb t).mutexQueue = [] ∧ (s1.tcb t).blkTask = none ∧
      (s1.tcb t).priority = (s1.tcb t).basePriority := by
    rw [hs1]
    unfold taskSetDormantState
    rw [setTcb_same, setTcb_same]
    exact ⟨rfl, rfl, rfl, rfl⟩
  have hb : s1.blockedTasksList = k.sch.blockedTasksList := by rw [hs1]; rfl
  have hst : (s2.tcb t).taskState.isWait = false ∧ (s2.tcb t).mutexQueue = [] ∧
      (s2.tcb t).blkTask = none ∧ (s2.tcb t).priority = (s2.tcb t).basePriority := by
    rw [hs2]
    cases start with
    | true =>
      rw [if_pos rfl, taskToRunnable_tcb]
      exact ⟨rfl, hd.2⟩
    | false =>
      rw [if_neg (by simp), hd.1]
      exact ⟨rfl, hd.2⟩
  have hbl : s2.blockedTasksList = k.sch.blockedTasksList := by
    rw [hs2]
    unfold taskToRunnable
    dsimp only
    repeat' split
    all_goals exact hb
  refine .inr ⟨hs, rfl, rfl, fun m => ?_, hbl, fun u hu => hf.tcb u hu, hid,
    mutexWait_of_not_wait hst.1, hst.2.1, hst.2.2.1, hst.2.2.2⟩
  apply Frame.mutexQue hf
  · exact not_mem_of_not_wait hi.sched (by rw [(hi.sched.ok t).dormant hid]; rfl) m
  · exact not_mem_of_not_wait hs hst.1 m

theorem tnTaskCreate_acts (hi : MInv none k) (ht : isSystem t = false) (priority : Int)
    (argsOk start : Bool) : Acts strict (none, k) (none, { k with
      sch := (tnTaskCreate t priority argsOk { startOnCreation := start } k.sch).2 }) := by
  rcases tnTaskCreate_newTask hi ht priority argsOk start with h | h
  · rw [h]
  · exact .single (.newTask t h)

theorem switchContext_still (hs : SInv none k.sch) :
    Still k { k with sch := tnSwitchContext k.sch } :=
  ⟨⟨hs.switchContext, rfl, rfl, fun _ => .refl _⟩, fun _ => rfl, rfl, fun _ => rfl⟩

theorem tsliceTicks_still (hs : SInv none k.sch) (p v : Int) :
    Still k { k with sch := (tnSysTsliceTicks p v k.sch).2 } := by
  have h := hs.tsliceTicks p v
  unfold tnSysTsliceTicks at h ⊢
  split
  · exact ⟨⟨hs, rfl, rfl, fun _ => .refl _⟩, fun _ => rfl, rfl, fun _ => rfl⟩
  · exact ⟨⟨⟨hs.toQInv.of_eq rfl rfl rfl, hs.bmp, hs.next⟩, rfl, rfl, fun _ => .refl _⟩,
      fun _ => rfl, rfl, fun _ => rfl⟩

/-! ## Events -/

/-- The condition on an event: no mutex that is given back is left with the task that gives it back,
    and no task goes on deleting a mutex that another one has deleted.  A strict event creates ceiling
    mutexes only, and locks them rightly. -/
def Keeps (strict : Prop) (len : Nat) (x : State) : Event → Prop
  | .mutexCreate _ attr _ => strict → attr = .ceiling
  | .lock m _ => strict → LockRight m x.k
  | .lockPolling m => strict → LockRight m x.k
  | .unlock m _ => (x.k.mutex m).idMutex = true → (x.k.mutex m).holder = some x.k.sch.currRunTask →
    UnlockRight strict len m x.k
  | .deleteOn => ∀ m, x.deleting x.k.sch.currRunTask = some m →
    (x.k.mutex m).idMutex = true ∨ (x.k.mutex m).holder = none
  | _ => True

theorem Calls.runs (h : Calls x) (ht : x.k.sch.currRunTask ≠ timerTask) : RunsUser x.k := by
  refine ⟨h.1, ?_⟩
  unfold isSystem
  simp [ht, h.2.2]

theorem State.delete_acts {r : State × List Seen} (hi : MInv none x.k)
    (hok : (x.k.mutex m).idMutex = true ∨ (x.k.mutex m).holder = none)
    (hr : x.delete len m = .ok r) : Acts strict (none, x.k) (none, r.1.k) ∧ .listHead ∉ r.2 := by
  obtain ⟨r1, h1, h2⟩ := bind_ok hr
  have h3 : Acts strict (none, x.k) (none, r1.2) := tnMutexDelete_acts hi hok h1
  split at h2
  · cases h2
    exact ⟨h3, by simp⟩
  · cases h2
    exact ⟨h3, by simp⟩

theorem ret_obs (x : State) (r : Terr × Kernel) : (x.ret r).1.k = r.2 ∧ .listHead ∉ (x.ret r).2 := by
  refine ⟨rfl, ?_⟩
  unfold State.ret
  simp

/-- **What an event does to the mutexes.** -/
theorem mutexStep_acts {r : State × List Seen} (hi : MInv none x.k) (he : Enabled x ev)
    (hall : strict → ∀ m, (x.k.mutex m).idMutex = true → (x.k.mutex m).attr = .ceiling)
    (hok : Keeps strict len x ev) (hr : mutexStep len x ev = .ok r) :
    Acts strict (none, x.k) (none, r.1.k) ∧
      (.listHead ∈ r.2 → ∃ m stray, ev = .unlock m stray ∧ TakesHead m x.k) := by
  have hnot : ∀ {y : State × List Seen}, Acts strict (none, x.k) (none, y.1.k) → .listHead ∉ y.2 →
      Acts strict (none, x.k) (none, y.1.k) ∧
        (.listHead ∈ y.2 → ∃ m stray, ev = .unlock m stray ∧ TakesHead m x.k) :=
    fun h1 h2 => ⟨h1, fun hc => absurd hc h2⟩
  cases ev with
  | create t priority argsOk start =>
    cases hr
    exact hnot (tnTaskCreate_acts hi he.2 priority argsOk start) (ret_obs _ _).2
  | tsliceTicks priority value =>
    cases hr
    exact hnot (.single (.still (tsliceTicks_still hi.sched priority value))) (ret_obs _ _).2
  | mutexCreate m attr ceilPriority =>
    cases hr
    refine hnot (tnMutexCreate_acts hi ceilPriority hok) ?_
    intro hc
    obtain ⟨ob, -, hob⟩ := List.mem_flatMap.mp hc
    cases ob <;> simp [seenOf] at hob
  | lock m timeout =>
    obtain ⟨r1, h1, h2⟩ := bind_ok hr
    cases h2
    exact hnot (tnMutexLock_acts hi (he.1.runs he.2) hall hok h1) (by simp)
  | lockPolling m =>
    cases hr
    exact hnot (tnMutexLockPolling_acts hi (he.1.runs he.2) hall hok) (ret_obs _ _).2
  | unlock m stray =>
    obtain ⟨r1, h1, h2⟩ := bind_ok hr
    cases h2
    obtain ⟨h3, h4⟩ := tnMutexUnlock_acts hi hall hok h1
    exact ⟨h3, fun hc => ⟨m, stray, rfl, h4 hc⟩⟩
  | delete m =>
    unfold mutexStep at hr
    dsimp only at hr
    split at hr
    · cases hr
      exact hnot .refl (by simp)
    · rename_i hid
      obtain ⟨h1, h2⟩ : Acts strict (none, x.k) (none, r.1.k) ∧ .listHead ∉ r.2 :=
        State.delete_acts hi (.inl (by simpa using hid)) hr
      exact hnot h1 h2
  | deleteOn =>
    unfold mutexStep at hr
    dsimp only at hr
    cases hd : x.deleting x.k.sch.currRunTask with
    | none =>
      rw [hd] at hr
      cases hr
      exact hnot .refl (by simp)
    | some m =>
      rw [hd] at hr
      obtain ⟨h1, h2⟩ : Acts strict (none, x.k) (none, r.1.k) ∧ .listHead ∉ r.2 :=
        State.delete_acts hi (hok m hd) hr
      exact hnot h1 h2
  | releaseWait t =>
    obtain ⟨r1, h1, h2⟩ := bind_ok hr
    cases h2
    exact hnot (tnTaskReleaseWait_acts hi h1) (ret_obs _ _).2
  | tick =>
    cases hr
    exact hnot (.single (.still (tick_still hi.toWaitInv))) (by simp)
  | timerLoop =>
    obtain ⟨k1, h1, h2⟩ := bind_ok hr
    cases h2
    exact hnot (timerTaskLoop_acts hi he.1 he.2 h1) (by simp)
  | switchContext =>
    cases hr
    exact hnot (.single (.still (switchContext_still hi.sched))) (by simp)

/-! ## Runs -/

/-- No task has anything to do with a mutex behind `tn_start_system`. -/
theorem MInv.start : MInv none Kernel.start := by
  have hs : SInv none Kernel.start.sch := SInv.start
  have hq : ∀ m, Kernel.start.sch.que (.mutex m) = [] := fun _ => rfl
  have hb : ∀ t, (Kernel.start.sch.tcb t).mutexQueue = [] ∧ (Kernel.start.sch.tcb t).blkTask = none ∧
      mutexWait (Kernel.start.sch.tcb t) = none := by
    intro t
    by_cases h0 : t = timerTask
    · subst h0
      exact ⟨rfl, rfl, rfl⟩
    by_cases h1 : t = idleTask
    · subst h1
      exact ⟨rfl, rfl, rfl⟩
    have ht : Kernel.start.sch.tcb t = {} := start_tcb h0 h1
    rw [ht]
    exact ⟨rfl, rfl, rfl⟩
  have hnot : ∀ m t, t ∉ Kernel.start.sch.que (.mutex m) := fun m t hc => by
    rw [hq] at hc
    cases hc
  refine ⟨?_, ?_, fun m _ _ _ => hq m⟩
  · refine ⟨hs, fun m t hc => absurd hc (hnot m t), fun m t hc => absurd hc (hnot m t),
      fun m t hc => absurd hc (hnot m t), fun m t hc => absurd hc (hnot m t), fun t r hr => ?_, fun t => ?_,
      List.nodup_nil⟩
    · rw [(hb t).2.2] at hr
      cases hr
    · rw [(hb t).2.2]
      exact ⟨(fun hc => by cases hc), (fun hc => by cases hc)⟩
  · refine ⟨(fun m h hc => by cases hc), fun t h hc => ?_, List.nodup_nil, fun m _ => ?_,
      (fun m hc => by cases hc), fun t m => ?_, fun t => ?_, fun t m hc => ?_⟩
    · rw [(hb t).2.1] at hc
      cases hc
    · exact ⟨(fun hc => by cases hc), (fun hc => by cases hc.1)⟩
    · rw [(hb t).1]
      exact ⟨(fun hc => by cases hc), (fun hc => by cases hc.1)⟩
    · rw [(hb t).1]
      exact List.nodup_nil
    · rw [(hb t).1] at hc
      cases hc

theorem mutexMachine_some (h : (mutexMachine len x ev).1 = some y) :
    ∃ obs, mutexStep len x ev = .ok (y, obs) := by
  unfold mutexMachine at h
  cases hr : mutexStep len x ev with
  | error e =>
    rw [hr] at h
    cases h
  | ok r =>
    rw [hr] at h
    dsimp only at h
    split at h
    · cases h
      exact ⟨r.2, rfl⟩
    · cases h

/-- **An event keeps the bookkeeping.** -/
theorem step_minv (hi : MInv none x.k) (he : Enabled x ev) (hok : Keeps False len x ev)
    (hs : (mutexMachine len x ev).1 = some y) : MInv none y.k := by
  obtain ⟨obs, hr⟩ := mutexMachine_some hs
  exact (mutexStep_acts hi he (fun hc => hc.elim) hok hr).1.minv hi

theorem mutexMachine_seen {ob : Seen} (h : ob ∈ (mutexMachine len x ev).2) :
    ∃ r, mutexStep len x ev = .ok r ∧ ob ∈ r.2 := by
  unfold mutexMachine at h
  cases hr : mutexStep len x ev with
  | error e =>
    rw [hr] at h
    cases h
  | ok r =>
    rw [hr] at h
    exact ⟨r, rfl, h⟩

instance (x : State) : Decidable (Calls x) := inferInstanceAs (Decidable (_ ∧ _))

instance (x : State) : ∀ ev, Decidable (Enabled x ev)
  | .tsliceTicks .. | .mutexCreate .. | .unlock .. => inferInstanceAs (Decidable (Calls x))
  | .create .. | .lock .. | .lockPolling _ | .delete _ | .releaseWait _ | .timerLoop =>
    inferInstanceAs (Decidable (_ ∧ _))
  | .deleteOn => inferInstanceAs (Decidable (_ = _))
  | .tick | .switchContext => isTrue trivial

end TnMutex
