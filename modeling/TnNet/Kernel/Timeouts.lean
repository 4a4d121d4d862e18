import TnNet.Kernel.WaitRun
import TnNet.Kernel.Wakeups
import TnNet.Lib.Sweep

/-!
# When a timeout expires

* `timerLoop_tcb`, `timerLoop_que`, `timerLoop_list` — what a pass of the timer task does to a task, to
  a wait list and to `tn_wait_timeout_list`.
* `countdown_run` — the time a task has left goes down with each pass, whatever else happens while it waits.
* `timeouts_exact_iff` — a blocking call with the timeout `n` times out with the `n`-th pass exactly
  when `n` is less than `2 ^ 31`: `tick_count` is signed, and a greater timeout is negative there.
-/

set_option autoImplicit false

namespace TnKernel

variable {s : Sched} {k : Kernel} {t u : TaskId} {q : Que} {b : Tcb} {n : BitVec 32}

/-! ## A pass of the timer task -/

/-- The control block of a task of `tn_wait_timeout_list` behind a pass. -/
def Tcb.timedOut (b : Tcb) : Tcb :=
  if expires b then { b.released with taskWaitRc := .timeout }
  else if ticks b then { b with tickCount := b.tickCount - 1 } else b

/-- The countdown of a task whose timeout does not expire. -/
def tickDown (t : TaskId) (s : Sched) : Sched := s.setTcb t fun b => { b with tickCount := b.tickCount - 1 }

theorem timeoutTask_idle (h : ticks (s.tcb t) = false) : timeoutTask s t = s := by
  unfold timeoutTask
  simp [h]

theorem timeoutTask_counts (h : ticks (s.tcb t) = true) (he : expires (s.tcb t) = false) :
    timeoutTask s t = tickDown t s := by
  have h0 : ¬ (s.tcb t).tickCount - 1 = 0 := by simpa [expires, h] using he
  unfold timeoutTask
  rw [if_pos h]
  dsimp only
  rw [setTcb_same, if_neg h0]
  rfl

theorem timeoutTask_expires (he : expires (s.tcb t) = true) : timeoutTask s t =
    (taskWaitComplete t true (tickDown t s)).2.setTcb t fun b => { b with taskWaitRc := .timeout } := by
  obtain ⟨h, h0⟩ : ticks (s.tcb t) = true ∧ (s.tcb t).tickCount - 1 = 0 := by simpa [expires] using he
  unfold timeoutTask
  rw [if_pos h]
  dsimp only
  rw [setTcb_same, if_pos h0]
  rfl

theorem expires_of_not_ticks (h : ticks b = false) : expires b = false := by simp [expires, h]

theorem timeoutTask_own (s : Sched) (t : TaskId) : (timeoutTask s t).tcb t = (s.tcb t).timedOut := by
  unfold Tcb.timedOut
  cases he : expires (s.tcb t)
  · cases h : ticks (s.tcb t)
    · rw [timeoutTask_idle h]
      rfl
    · rw [timeoutTask_counts h he, tickDown, setTcb_same]
      rfl
  · rw [timeoutTask_expires he, setTcb_same, waitComplete_self, tickDown, setTcb_same]
    rfl

theorem timer_local : Sweep.Local Sched.tcb Tcb.timedOut timeoutTask :=
  ⟨timeoutTask_own, fun s t => (timeoutTask_frame s t).tcb⟩

theorem timeoutTask_que (hq : q.isReady = false) (s : Sched) (t : TaskId) :
    (timeoutTask s t).que q = if expires (s.tcb t) then (s.que q).erase t else s.que q := by
  cases he : expires (s.tcb t)
  · cases h : ticks (s.tcb t)
    · simp [timeoutTask_idle h]
    · simp [timeoutTask_counts h he, tickDown]
  · simp [timeoutTask_expires he, waitComplete_que hq, tickDown]

theorem toNonRunnable_list (t : TaskId) (s : Sched) :
    (taskToNonRunnable t s).waitTimeoutList = s.waitTimeoutList := by
  unfold taskToNonRunnable findNextTaskToRun
  dsimp only
  repeat' split
  all_goals rfl

section Pass

variable (hi : SInv none s) (hc : s.currRunTask = timerTask)
include hi

theorem timer_not_waiting : timerTask ∉ s.waitTimeoutList := fun hm =>
  ((hi.ok timerTask).timeouts.mp hm).2 ((hi.ok timerTask).timer rfl).2.1

theorem timeouts_curr : (s.waitTimeoutList.foldl timeoutTask s).currRunTask = s.currRunTask :=
  (timeouts_frame s.waitTimeoutList s (timer_not_waiting hi)).2

/-- **`tn_wait_timeout_list` behind a pass.** -/
theorem timerLoop_list : (timerTaskLoop s).waitTimeoutList =
    s.waitTimeoutList.filter fun u => !expires (s.tcb u) := by
  have hloop : (timerTaskLoop s).waitTimeoutList =
      (s.waitTimeoutList.foldl timeoutTask s).waitTimeoutList :=
    toNonRunnable_list _ _
  rw [hloop, timer_local.view_foldl Sched.waitTimeoutList expires timeoutTask_timeouts hi.timeoutsNodup s
    hi.timeoutsNodup]
  exact List.filter_congr fun u hu => by simp [hu]

include hc

/-- **A task behind a pass.** -/
theorem timerLoop_tcb (ht : t ≠ timerTask) : (timerTaskLoop s).tcb t =
    if t ∈ s.waitTimeoutList then (s.tcb t).timedOut else s.tcb t := by
  have hf := taskCurrToWaitAction_frame none .sleep TN_WAIT_INFINITE (s.waitTimeoutList.foldl timeoutTask s)
  rw [timeouts_curr hi, hc] at hf
  unfold timerTaskLoop
  rw [hf.tcb t ht, timer_local.get_foldl hi.timeoutsNodup s t]

/-- **A wait list behind a pass.** -/
theorem timerLoop_que (hq : q.isReady = false) :
    (timerTaskLoop s).que q = (s.que q).filter fun u => !expires (s.tcb u) := by
  have hloop : (timerTaskLoop s).que q =
      ((s.waitTimeoutList.foldl timeoutTask s).que q).erase timerTask := by
    have h := taskToNonRunnable_que (s.waitTimeoutList.foldl timeoutTask s).currRunTask
      (s.waitTimeoutList.foldl timeoutTask s) q
    rw [timeouts_curr hi, hc] at h
    rw [← h, ← hc, ← timeouts_curr hi]
    rfl
  have hsweep :=
    timer_local.view_foldl (fun s => s.que q) expires (timeoutTask_que hq) hi.timeoutsNodup s (hi.nodup q)
  have hnot : timerTask ∉ s.que q := fun hm => by
    have h := ((hi.ok timerTask).waits q hq).mp hm
    rw [((hi.ok timerTask).timer rfl).1] at h
    cases h
  rw [hloop, hsweep, List.erase_of_not_mem fun hm => hnot (List.mem_filter.mp hm).1]
  refine List.filter_congr fun u hu => ?_
  -- a task of a wait list whose timeout expires is in the list of timeouts
  cases he : expires (s.tcb u)
  · simp
  · have hw := ((hi.ok u).wait q (((hi.ok u).waits q hq).mp hu)).1
    have hin : (s.tcb u).tickCount ≠ TN_WAIT_INFINITE := by
      rintro heq
      simp [expires, ticks, heq] at he
    simp [(hi.ok u).timeouts.mpr ⟨hw, hin⟩]

end Pass

/-- What a pass leaves behind for a task whose timeout expires in it. -/
structure TimesOut (t : TaskId) (s s' : Sched) : Prop where
  released : (s'.tcb t).taskState.isWait = false
  rc : (s'.tcb t).taskWaitRc = .timeout
  lists : ∀ q, q.isReady = false → t ∉ s'.que q
  timeouts : t ∉ s'.waitTimeoutList
  order : ∀ q, q.isReady = false → s'.que q = (s.que q).filter fun u => !expires (s.tcb u)
  timeoutsOrder : s'.waitTimeoutList = s.waitTimeoutList.filter fun u => !expires (s.tcb u)

theorem SInv.timesOut (hi : SInv none s) (hc : s.currRunTask = timerTask) (ht : t ≠ timerTask)
    (hw : (s.tcb t).taskState.isWait = true) (he : expires (s.tcb t) = true) :
    TimesOut t s (timerTaskLoop s) := by
  have hin : t ∈ s.waitTimeoutList := by
    refine (hi.ok t).timeouts.mpr ⟨hw, fun heq => ?_⟩
    simp [expires, ticks, heq] at he
  have htcb : (timerTaskLoop s).tcb t = { (s.tcb t).released with taskWaitRc := .timeout } := by
    rw [timerLoop_tcb hi hc ht, if_pos hin]
    simp [Tcb.timedOut, he]
  constructor
  case released => simp [htcb]
  case rc => rw [htcb]
  case lists => exact fun q hq hm => by simp [timerLoop_que hi hc hq, he] at hm
  case timeouts => exact fun hm => by simp [timerLoop_list hi, he] at hm
  case order => exact fun q hq => timerLoop_que hi hc hq
  case timeoutsOrder => exact timerLoop_list hi

/-! ## The counter -/

theorem ticks_iff : ticks b = true ↔ 0 < b.tickCount.toNat ∧ b.tickCount.toNat < 2 ^ 31 := by
  have hlt := b.tickCount.isLt
  have hinf : b.tickCount = TN_WAIT_INFINITE ↔ b.tickCount.toNat = 2 ^ 32 - 1 := by
    rw [← BitVec.toNat_inj]
    rfl
  simp only [ticks, Bool.and_eq_true, decide_eq_true_eq, ne_eq, hinf, BitVec.toInt_eq_toNat_cond]
  split <;> omega

theorem expires_iff : expires b = true ↔ b.tickCount.toNat = 1 := by
  have h0 : b.tickCount - 1 = 0 ↔ b.tickCount.toNat = 1 := by
    rw [← BitVec.toNat_inj]
    have hlt := b.tickCount.isLt
    show (b.tickCount - 1#32).toNat = 0 ↔ _
    rw [BitVec.toNat_sub]
    simp only [BitVec.toNat_ofNat]
    omega
  simp only [expires, Bool.and_eq_true, decide_eq_true_eq, ticks_iff, h0]
  omega

/-- A timeout that is negative as a signed number, `TN_WAIT_INFINITE` among them, does not run. -/
theorem timedOut_negative (h : 2 ^ 31 ≤ b.tickCount.toNat) : b.timedOut = b := by
  have h1 : ticks b = false := by
    rw [Bool.eq_false_iff, ne_eq, ticks_iff]
    omega
  simp [Tcb.timedOut, expires_of_not_ticks h1, h1]

theorem timedOut_counts (h1 : 2 ≤ b.tickCount.toNat) (h2 : b.tickCount.toNat < 2 ^ 31) :
    b.timedOut = { b with tickCount := b.tickCount - 1 } ∧
    (b.tickCount - 1).toNat = b.tickCount.toNat - 1 := by
  have he : expires b = false := by
    rw [Bool.eq_false_iff, ne_eq, expires_iff]
    omega
  have ht : ticks b = true := ticks_iff.mpr ⟨by omega, h2⟩
  refine ⟨by simp [Tcb.timedOut, he, ht], ?_⟩
  show (b.tickCount - 1#32).toNat = _
  rw [BitVec.toNat_sub]
  simp only [BitVec.toNat_ofNat]
  omega

/-! ## The other steps -/

/-- Is this a pass of the timer task? -/
def Event.isLoop : Event → Bool
  | .timerLoop => true
  | _ => false

/-- A task that still waits has as much time left. -/
def Tcb.SameWait (b b' : Tcb) : Prop := b'.taskState.isWait = true → b'.tickCount = b.tickCount

theorem Moves.sameWait {o : Option TaskId} {w : TaskId → Prop} {s' : Sched} (h : Moves o w s s')
    (ht : some t ≠ o) : (s.tcb t).SameWait (s'.tcb t) := fun hw => ((h.wait t ht).wait hw).2.1

/-- A reset of another task, or of this one, which does not wait behind it. -/
theorem sameWait_frame {s' : Sched} (hf : Frame u s s') (hw : (s'.tcb u).taskState.isWait = false) :
    (s.tcb t).SameWait (s'.tcb t) := by
  intro h
  rcases eq_or_ne t u with rfl | hne
  · rw [hw] at h
    cases h
  · rw [hf.tcb t hne]

theorem sameWait_wakeup (t u : TaskId) (s : Sched) : (s.tcb t).SameWait ((tnTaskWakeup u s).2.tcb t) := by
  cases hr : (s.tcb u).remembers
  · exact (wakeup_other (covers_true s) hr).sameWait (by simp)
  · rw [wakeup_counts hr]
    intro _
    split
    · rcases eq_or_ne t s.currRunTask with rfl | hne
      · simp
      · rw [setTcb_ne _ _ hne]
    · rfl

theorem released_activateAgain (h : (s.tcb t).taskState = .dormant) :
    ((activateAgain t s).tcb t).taskState.isWait = false := by
  unfold activateAgain
  split
  · simp [taskToRunnable_tcb, TaskState.isWait]
  · rw [h]
    rfl

theorem sameWait_create (priority : Int) (argsOk : Bool) (opt : CreateOpt) (t u : TaskId) (s : Sched) :
    (s.tcb t).SameWait ((tnTaskCreate u priority argsOk opt s).2.tcb t) := by
  by_cases hrc : (tnTaskCreate u priority argsOk opt s).1 = .noErr
  · refine sameWait_frame (tnTaskCreate_frame u priority argsOk opt s) ?_
    unfold tnTaskCreate at hrc ⊢
    dsimp only at hrc ⊢
    split at hrc
    · cases hrc
    split at hrc
    · cases hrc
    rename_i h1 h2
    rw [if_neg h1, if_neg h2]
    dsimp only
    split
    · simp [taskToRunnable_tcb, TaskState.isWait]
    · rw [taskSetDormantState_state]
      rfl
  · rw [create_refused hrc]
    exact fun _ => rfl

theorem sameWait_exit (attr : Bool) (t : TaskId) (s : Sched) :
    (s.tcb t).SameWait ((tnTaskExit attr s).tcb t) := by
  have h1 : ((exitTask attr s).tcb s.currRunTask).taskState.isWait = false := by
    have h :=
      released_activateAgain (taskSetDormantState_state s.currRunTask (taskToNonRunnable s.currRunTask s))
    unfold exitTask
    dsimp only
    split
    · simpa using h
    · exact h
  have h2 : (s.tcb t).SameWait ((exitTask attr s).tcb t) := sameWait_frame (exitTask_frame attr s) h1
  exact h2

theorem sameWait_terminate (t u : TaskId) (s : Sched) :
    (s.tcb t).SameWait ((tnTaskTerminate u s).2.tcb t) := by
  by_cases hrc : (tnTaskTerminate u s).1 = .noErr
  · refine sameWait_frame (terminate_wakeups hrc).2 ?_
    unfold tnTaskTerminate at hrc ⊢
    dsimp only at hrc ⊢
    split at hrc
    · cases hrc
    split at hrc
    · cases hrc
    rename_i h1 h2
    rw [if_neg h1, if_neg h2]
    exact released_activateAgain (taskSetDormantState_state u _)
  · rw [terminate_refused hrc]
    exact fun _ => rfl

theorem sameWait_sleep (timeout : BitVec 32) (ht : t ≠ k.sch.currRunTask) :
    (k.sch.tcb t).SameWait ((k.sleep timeout).1.sch.tcb t) := by
  intro _
  unfold Kernel.sleep tnTaskSleep
  split
  · rename_i rc s h
    split at h
    · cases h
      rfl
    split at h
    · cases h
      simp [Kernel.retSch, setTcb_ne _ _ ht]
    · cases h
  · rename_i s h
    split at h
    · cases h
    split at h
    · cases h
    · cases h
      rw [(taskCurrToWaitAction_frame none .sleep timeout k.sch).tcb t ht]

/-- **A step other than a pass of the timer task** leaves the time of a task that waits. -/
theorem sameWait_step {ev : Event} {r : Res} (he : Enabled k ev) (hl : ev.isLoop = false)
    (hr : kernelStep k ev = some r) (hw : (k.sch.tcb t).taskState.isWait = true) :
    (k.sch.tcb t).SameWait (r.1.sch.tcb t) := by
  cases ev with
  | timerLoop => cases hl
  | tick =>
    cases hr
    exact (moves_tick (o := none) (w := fun _ => True) k.sch trivial).sameWait (by simp)
  | switchContext =>
    cases hr
    exact fun _ => rfl
  | back => exact (moves_back (o := none) (w := fun _ => True) hr).sameWait (by simp)
  | isr sv =>
    cases hr
    cases hs : Event.resets (.isr sv)
    · exact (moves_isr (o := none) (covers_true _) hs).sameWait (by simp)
    · cases sv with
      | iwakeup u => exact sameWait_wakeup t u k.sch
      | _ => cases hs
  | task sv =>
    -- the task does not run
    have hne : t ≠ k.sch.currRunTask := by
      rintro rfl
      rw [he.1] at hw
      cases hw
    cases hs : sv.resets
    · exact (moves_task (covers_true _) hs hr).sameWait (by simpa using hne)
    · cases sv with
      | create u priority argsOk opt =>
        rw [create_sch u priority argsOk opt hr]
        exact sameWait_create priority argsOk opt t u k.sch
      | sleep timeout =>
        cases hr
        exact sameWait_sleep timeout hne
      | wakeup u =>
        cases hr
        exact sameWait_wakeup t u k.sch
      | exit attr =>
        cases hr
        exact sameWait_exit attr t k.sch
      | terminate u =>
        cases hr
        rw [terminate_sch]
        exact sameWait_terminate t u k.sch
      | _ => cases hs

/-! ## The start of a wait -/

/-- The timeout of a call that may block. -/
def Service.timeout : Service → Option (BitVec 32)
  | .sleep timeout => some timeout
  | .semAcquire _ timeout => some timeout
  | .queueSend _ _ timeout => some timeout
  | .queueReceive _ timeout => some timeout
  | .eventWait _ _ _ timeout => some timeout
  | .fmemGet _ timeout => some timeout
  | .mutexLock _ timeout => some timeout
  | _ => none

/-- The task waits, and has this time left. -/
structure Waits (t : TaskId) (n : BitVec 32) (s : Sched) : Prop where
  wait : (s.tcb t).taskState.isWait = true
  left : (s.tcb t).tickCount = n

/-- **The running task begins to wait.** -/
theorem block_waits (waitQue : Option Que) (reason : WaitReason) (timeout : BitVec 32) (s : Sched) :
    Waits s.currRunTask timeout (taskCurrToWaitAction waitQue reason timeout s) := by
  rw [taskCurrToWaitAction_eq]
  constructor
  · rw [joinTimeouts_tcb]
    cases waitQue <;> simp [joinQue, TaskState.isWait, queueAddTail]
  · rw [joinTimeouts_tcb]
    cases waitQue <;> simp [joinQue, queueAddTail]

/-- A call of this task that blocks has a timeout, and the task waits with it. -/
def BlocksFor (t : TaskId) (n : BitVec 32) (r : Res) : Prop :=
  (∃ c, Obs.block t c ∈ r.2) → n ≠ 0 ∧ Waits t n r.1.sch

theorem blocksFor_of_silent {r : Res} (h : ∀ c, Obs.block t c ∉ r.2) : BlocksFor t n r :=
  fun ⟨c, hc⟩ => absurd hc (h c)

theorem blocksFor_ret (c : Call) (rc : Terr) (data : Nat) : BlocksFor t n (k.ret c rc data) :=
  blocksFor_of_silent fun _ => by simp [Kernel.ret]

theorem blocksFor_blockIn (c : Call) (q : Que) (reason : WaitReason) (hn : n ≠ 0) :
    BlocksFor k.sch.currRunTask n (k.blockIn c q reason n) :=
  fun _ => ⟨hn, block_waits (some q) reason n k.sch⟩

theorem blocksFor_sleep (n : BitVec 32) (k : Kernel) : BlocksFor k.sch.currRunTask n (k.sleep n) := by
  unfold Kernel.sleep tnTaskSleep
  split
  · exact blocksFor_of_silent fun _ => by simp [Kernel.retSch]
  · rename_i s h
    split at h
    · cases h
    rename_i hn
    split at h
    · cases h
    · cases h
      exact fun _ => ⟨hn, block_waits none .sleep n k.sch⟩

theorem blocksFor_semAcquire (i : Nat) (n : BitVec 32) (k : Kernel) :
    BlocksFor k.sch.currRunTask n (tnSemAcquire i n k) := by
  unfold tnSemAcquire
  split
  · exact blocksFor_ret _ _ _
  rename_i hn
  split
  · exact blocksFor_ret _ _ _
  split
  · exact blocksFor_ret _ _ _
  · exact blocksFor_blockIn _ _ _ (fun h => hn (.inl h))

theorem blocksFor_queueSend (i data : Nat) (n : BitVec 32) (k : Kernel) :
    BlocksFor k.sch.currRunTask n (tnQueueSend i data n k) := by
  unfold tnQueueSend
  split
  · exact blocksFor_ret _ _ _
  rename_i hn
  unfold queueSend
  split
  · exact blocksFor_ret _ _ _
  split
  · exact blocksFor_of_silent fun _ => by simp
  split
  · exact blocksFor_ret _ _ _
  · have h :=
      blocksFor_blockIn (k := k.setDataElem k.sch.currRunTask data) (.send i data) (.wsend i) .dqueWsend hn
    exact h

theorem blocksFor_queueReceive (i : Nat) (n : BitVec 32) (k : Kernel) :
    BlocksFor k.sch.currRunTask n (tnQueueReceive i n k) := by
  unfold tnQueueReceive
  split
  · exact blocksFor_ret _ _ _
  rename_i hn
  unfold queueReceive
  dsimp only
  split
  · exact blocksFor_ret _ _ _
  split
  · split
    · exact blocksFor_of_silent fun _ => by simp
    · exact blocksFor_ret _ _ _
  · split
    · exact blocksFor_of_silent fun _ => by simp
    · exact blocksFor_blockIn _ _ _ hn

theorem blocksFor_eventWait (i : Nat) (pattern mode n : BitVec 32) (k : Kernel) :
    BlocksFor k.sch.currRunTask n (tnEventWait i pattern mode n k) := by
  unfold tnEventWait
  split
  · exact blocksFor_ret _ _ _
  rename_i hn
  unfold eventWait
  split
  · exact blocksFor_ret _ _ _
  split
  · exact blocksFor_ret _ _ _
  split
  · exact blocksFor_ret _ _ _
  split
  · exact blocksFor_ret _ _ _
  · have h := blocksFor_blockIn (k := { k with sch := k.sch.setTcb k.sch.currRunTask fun b =>
      { b with ewaitMode := mode, ewaitPattern := pattern } }) (.eventWait i) (.event i) .event hn
    exact h

theorem blocksFor_fmemGet (i : Nat) (n : BitVec 32) (k : Kernel) :
    BlocksFor k.sch.currRunTask n (tnFmemGet i n k) := by
  unfold tnFmemGet
  split
  · exact blocksFor_ret _ _ _
  rename_i hn
  unfold fmemGet
  split
  · exact blocksFor_ret _ _ _
  split
  · exact blocksFor_ret _ _ _
  · exact blocksFor_blockIn _ _ _ hn

theorem blocksFor_lockWait {m : Nat} {blk : Option TaskId} {reason : WaitReason} {r : Res} (hn : n ≠ 0)
    (h : lockWait m blk reason n k = some r) : BlocksFor k.sch.currRunTask n r := by
  obtain ⟨s, hs, rfl⟩ := Option.map_eq_some_iff.mp h
  have hcurr : s.currRunTask = k.sch.currRunTask := by
    split at hs
    · cases hs
      rfl
    · split at hs
      · exact (setCurrentPriority_state hs).1
      · cases hs
        rfl
  have hb := blocksFor_blockIn (k := { k with sch := s }) (.lock m) (.mutex m) reason hn
  dsimp only at hb
  rw [hcurr] at hb
  exact hb

theorem blocksFor_mutexLock {m : Nat} {r : Res} (h : tnMutexLock m n k = some r) :
    BlocksFor k.sch.currRunTask n r := by
  unfold tnMutexLock at h
  dsimp only at h
  split at h
  · cases h
    exact blocksFor_ret _ _ _
  rename_i hn
  split at h
  · cases h
    exact blocksFor_ret _ _ _
  split at h
  · cases h
    exact blocksFor_ret _ _ _
  split at h
  · cases h
    exact blocksFor_ret _ _ _
  split at h
  · split at h
    · cases h
      exact blocksFor_ret _ _ _
    · obtain ⟨r1, h1, rfl⟩ := Option.map_eq_some_iff.mp h
      intro hb
      obtain ⟨h2, h3, h4⟩ := blocksFor_lockWait hn h1 hb
      exact ⟨h2, by simpa [setBlkTask] using h3, by simpa [setBlkTask] using h4⟩
  · exact blocksFor_lockWait hn h
  · cases h
    exact blocksFor_ret _ _ _
  · exact blocksFor_lockWait hn h

/-- **A blocking call.** -/
theorem service_blocksFor {sv : Service} {r : Res} (hn : sv.timeout = some n)
    (hr : taskStep k sv = some r) : BlocksFor k.sch.currRunTask n r := by
  cases sv <;> try cases hn
  all_goals try (simp only [taskStep, Option.some.injEq] at hr; subst hr)
  case sleep => exact blocksFor_sleep n k
  case semAcquire i => exact blocksFor_semAcquire i n k
  case queueSend i data => exact blocksFor_queueSend i data n k
  case queueReceive i => exact blocksFor_queueReceive i n k
  case eventWait i pattern mode => exact blocksFor_eventWait i pattern mode n k
  case fmemGet i => exact blocksFor_fmemGet i n k
  case mutexLock m => exact blocksFor_mutexLock hr

/-! ## Runs -/

/-- The passes of a run. -/
def passes (evs : List Event) : Nat := evs.countP Event.isLoop

/-- Nothing but a pass of the timer task ends the wait of the task. -/
def Undisturbed (t : TaskId) (k : Kernel) (ev : Event) : Prop :=
  Enabled k ev ∧ ExitOk k ev ∧
    (ev.isLoop = false → ∀ r, kernelStep k ev = some r → (r.1.sch.tcb t).taskState.isWait = true)

/-- The wait of the task ends with the `n`-th pass from now, if nothing else ends it. -/
def ExpiresOnTime (t : TaskId) (n : Nat) (k : Kernel) : Prop :=
  ∀ (evs : List Event) (k' : Kernel), Machine.Guarded kernelMachine (Undisturbed t) (some k) evs →
    (Machine.run kernelMachine (some k) evs).1 = some k' →
      (passes evs < n → (k'.sch.tcb t).taskState.isWait = true) ∧
      (passes evs + 1 = n → Enabled k' .timerLoop → TimesOut t k'.sch k'.timerLoop.1.sch)

/-- No pass ends the wait of the task. -/
def NeverExpires (t : TaskId) (k : Kernel) : Prop :=
  ∀ (evs : List Event) (k' : Kernel), Machine.Guarded kernelMachine (Undisturbed t) (some k) evs →
    (Machine.run kernelMachine (some k) evs).1 = some k' → (k'.sch.tcb t).taskState.isWait = true

/-- A waiting task and the state around it. -/
structure Waiting (t : TaskId) (n : BitVec 32) (k : Kernel) : Prop where
  inv : KInv k
  ne : t ≠ timerTask
  waits : Waits t n k.sch

theorem Waiting.loop (h : Waiting t n k) (he : Enabled k .timerLoop) :
    KInv k.timerLoop.1 ∧ (n ≠ TN_WAIT_INFINITE → k.timerLoop.1.sch.tcb t = (k.sch.tcb t).timedOut) ∧
      (n = TN_WAIT_INFINITE → k.timerLoop.1.sch.tcb t = k.sch.tcb t) := by
  have hstep := h.inv.step he (fun hx => by cases hx) (rfl : kernelStep k .timerLoop = some k.timerLoop)
  have htcb := timerLoop_tcb h.inv.sch he.1 h.ne
  have hlist := (h.inv.sch.ok t).timeouts
  rw [h.waits.left] at hlist
  refine ⟨hstep, fun hn => ?_, fun hn => ?_⟩
  · rw [if_pos (hlist.mpr ⟨h.waits.wait, hn⟩)] at htcb
    exact htcb
  · rw [if_neg fun hm => (hlist.mp hm).2 hn] at htcb
    exact htcb

/-- A step in which the wait goes on. -/
theorem Waiting.other {ev : Event} {r : Res} (h : Waiting t n k) (hu : Undisturbed t k ev)
    (hl : ev.isLoop = false) (hr : kernelStep k ev = some r) : Waiting t n r.1 := by
  have hw := hu.2.2 hl r hr
  refine ⟨h.inv.step hu.1 hu.2.1 hr, h.ne, hw, ?_⟩
  rw [sameWait_step hu.1 hl hr h.waits.wait hw]
  exact h.waits.left

/-- A pass that leaves time. -/
theorem Waiting.counts (h : Waiting t n k) (he : Enabled k .timerLoop) (h1 : 2 ≤ n.toNat)
    (h2 : n.toNat < 2 ^ 31) : Waiting t (n - 1) k.timerLoop.1 := by
  obtain ⟨hk, htcb, -⟩ := h.loop he
  have hn : n ≠ TN_WAIT_INFINITE := by
    rintro rfl
    exact absurd h2 (by decide)
  obtain ⟨hb, -⟩ :=
    timedOut_counts (b := k.sch.tcb t) (by rw [h.waits.left]; exact h1) (by rw [h.waits.left]; exact h2)
  have hbt := (htcb hn).trans hb
  exact ⟨hk, h.ne, by rw [hbt]; exact h.waits.wait, by rw [hbt, h.waits.left]⟩

/-- A pass does nothing to a task whose timeout is negative. -/
theorem Waiting.stays (h : Waiting t n k) (he : Enabled k .timerLoop) (hn : 2 ^ 31 ≤ n.toNat) :
    Waiting t n k.timerLoop.1 := by
  obtain ⟨hk, h1, h2⟩ := h.loop he
  have hb : k.timerLoop.1.sch.tcb t = k.sch.tcb t := by
    by_cases hinf : n = TN_WAIT_INFINITE
    · exact h2 hinf
    · exact (h1 hinf).trans (timedOut_negative (by rw [h.waits.left]; exact hn))
  exact ⟨hk, h.ne, by rw [hb]; exact h.waits.wait, by rw [hb]; exact h.waits.left⟩

theorem passes_cons (ev : Event) (evs : List Event) :
    passes (ev :: evs) = passes evs + if ev.isLoop then 1 else 0 := by
  simp [passes, List.countP_cons]

/-- The first step of a run that has a last state. -/
theorem run_cons {ev : Event} {evs : List Event} {k' : Kernel}
    (hk : (Machine.run kernelMachine (some k) (ev :: evs)).1 = some k') :
    ∃ r, kernelStep k ev = some r ∧ (kernelMachine k ev).1 = some r.1 ∧
      (Machine.run kernelMachine (some r.1) evs).1 = some k' := by
  cases hr : kernelStep k ev with
  | none => simp [Machine.run, kernelMachine, hr] at hk
  | some r =>
    exact ⟨r, rfl, by simp [kernelMachine, hr], by simpa [Machine.run, kernelMachine, hr] using hk⟩

/-- **Each pass takes one from the time of a task that waits.** -/
theorem countdown_run {evs : List Event} {k' : Kernel} (h : Waiting t n k) (hn : n.toNat < 2 ^ 31)
    (hg : Machine.Guarded kernelMachine (Undisturbed t) (some k) evs)
    (hk : (Machine.run kernelMachine (some k) evs).1 = some k') (hp : passes evs < n.toNat) :
    ∃ m, Waiting t m k' ∧ m.toNat = n.toNat - passes evs := by
  induction evs generalizing k n with
  | nil =>
    cases hk
    exact ⟨n, h, rfl⟩
  | cons ev evs ih =>
    obtain ⟨r, hr, hs, hk⟩ := run_cons hk
    obtain ⟨hu, hg⟩ := hg
    rw [hs] at hg
    rw [passes_cons] at hp ⊢
    cases hl : ev.isLoop
    · simp only [hl, Bool.false_eq_true, if_false, Nat.add_zero] at hp ⊢
      exact ih (h.other hu hl hr) hn hg hk hp
    · obtain rfl : ev = .timerLoop := by cases ev <;> first | rfl | cases hl
      simp only [hl, if_true] at hp ⊢
      cases hr
      have h2 : 2 ≤ n.toNat := by omega
      have hm := (timedOut_counts (b := { tickCount := n }) h2 hn).2
      dsimp only at hm
      obtain ⟨m, hw, hm'⟩ := ih (h.counts hu.1 h2 hn) (by omega) hg hk (by omega)
      exact ⟨m, hw, by omega⟩

/-- A negative timeout is as it was, however many passes there are. -/
theorem negative_run {evs : List Event} {k' : Kernel} (h : Waiting t n k) (hn : 2 ^ 31 ≤ n.toNat)
    (hg : Machine.Guarded kernelMachine (Undisturbed t) (some k) evs)
    (hk : (Machine.run kernelMachine (some k) evs).1 = some k') : Waiting t n k' := by
  induction evs generalizing k with
  | nil =>
    cases hk
    exact h
  | cons ev evs ih =>
    obtain ⟨r, hr, hs, hk⟩ := run_cons hk
    obtain ⟨hu, hg⟩ := hg
    rw [hs] at hg
    cases hl : ev.isLoop
    · exact ih (h.other hu hl hr) hg hk
    · obtain rfl : ev = .timerLoop := by cases ev <;> first | rfl | cases hl
      cases hr
      exact ih (h.stays hu.1 hn) hg hk

theorem tick_isWait (s : Sched) (ht : t ≠ timerTask) :
    ((tnTickIntProcessing s).tcb t).taskState = (s.tcb t).taskState := by
  rw [tnTickIntProcessing_eq, (wakeTimer_frame _).tcb t ht]
  unfold roundRobin
  dsimp only
  rcases eq_or_ne t s.currRunTask with rfl | hne
  · split
    · rfl
    · split <;> simp
  · split
    · rfl
    · split <;> simp [setTcb_ne _ _ hne]

/-- The tick comes, and the timer task runs. -/
theorem Waiting.turn (h : Waiting t n k) : ∃ k', Waiting t n k' ∧ Enabled k' .timerLoop ∧ ∀ evs,
    (Machine.Guarded kernelMachine (Undisturbed t) (some k') evs →
      Machine.Guarded kernelMachine (Undisturbed t) (some k) (.tick :: .switchContext :: evs)) ∧
    Machine.run kernelMachine (some k) (.tick :: .switchContext :: evs) =
    Machine.run kernelMachine (some k') evs := by
  have h1 : Undisturbed t k .tick := by
    refine ⟨trivial, fun hx => (by cases hx), fun _ r hr => ?_⟩
    cases hr
    exact (congrArg TaskState.isWait (tick_isWait k.sch h.ne)).trans h.waits.wait
  have hw1 :=
    h.other h1 rfl (rfl : kernelStep k .tick = some ({ k with sch := tnTickIntProcessing k.sch }, []))
  dsimp only at hw1
  have h2 : Undisturbed t { k with sch := tnTickIntProcessing k.sch } .switchContext := by
    refine ⟨trivial, fun hx => (by cases hx), fun _ r hr => ?_⟩
    cases hr
    exact hw1.waits.wait
  have hw2 :=
    hw1.other h2 rfl (rfl : kernelStep { k with sch := tnTickIntProcessing k.sch } .switchContext =
    some ({ k with sch := tnSwitchContext (tnTickIntProcessing k.sch) }, []))
  refine ⟨_, hw2, ⟨rfl, ?_⟩, fun evs => ⟨fun hg => ⟨h1, h2, hg⟩, rfl⟩⟩
  show ((tnTickIntProcessing k.sch).tcb timerTask).taskState = .runnable
  simp [tnTickIntProcessing, queueAddTail]

/-- As many passes as one likes, in which nothing ends the wait. -/
theorem negative_passes (h : Waiting t n k) (hn : 2 ^ 31 ≤ n.toNat) (j : Nat) : ∃ evs k',
    Machine.Guarded kernelMachine (Undisturbed t) (some k) evs ∧
      (Machine.run kernelMachine (some k) evs).1 = some k' ∧ passes evs = j ∧ Waiting t n k' ∧
      Enabled k' .timerLoop := by
  induction j generalizing k with
  | zero =>
    obtain ⟨k', hw, he, hrun⟩ := h.turn
    exact ⟨_, k', (hrun []).1 trivial, by rw [(hrun []).2]; rfl, rfl, hw, he⟩
  | succ j ih =>
    obtain ⟨k1, hw, he, hrun⟩ := h.turn
    obtain ⟨evs, k', hg, hk, hj, hw', he'⟩ := ih (hw.stays he hn)
    have hu : Undisturbed t k1 .timerLoop := ⟨he, fun hx => (by cases hx), fun hl => (by cases hl)⟩
    refine ⟨_, k', (hrun (.timerLoop :: evs)).1 ⟨hu, hg⟩, ?_, ?_, hw', he'⟩
    · rw [(hrun _).2]
      exact hk
    · show passes (.timerLoop :: evs) = j + 1
      rw [passes_cons, hj]
      rfl

/-- **On time.** -/
theorem Waiting.expires_iff (h : Waiting t n k) (h0 : n ≠ 0) :
    ExpiresOnTime t n.toNat k ↔ n.toNat < 2 ^ 31 := by
  have hpos : 0 < n.toNat := by
    refine Nat.pos_of_ne_zero fun hz => h0 ?_
    rw [← BitVec.toNat_inj, hz]
    rfl
  constructor
  · intro hex
    by_contra hge
    obtain ⟨evs, k', hg, hk, hj, hw, he⟩ := negative_passes h (by omega) (n.toNat - 1)
    have hout := ((hex evs k' hg hk).2 (by omega) he).released
    rw [(hw.stays he (by omega)).waits.wait] at hout
    cases hout
  · intro hn evs k' hg hk
    refine ⟨fun hp => ?_, fun hp he => ?_⟩
    · obtain ⟨m, hw, -⟩ := countdown_run h hn hg hk hp
      exact hw.waits.wait
    · obtain ⟨m, hw, hm⟩ := countdown_run h hn hg hk (by omega)
      refine hw.inv.sch.timesOut he.1 hw.ne hw.waits.wait (TnKernel.expires_iff.mpr ?_)
      rw [hw.waits.left]
      omega

/-- The end of a call that has blocked. -/
theorem service_waiting (hk : KInv k) {sv : Service} (he : Enabled k (.task sv))
    (hn : sv.timeout = some n) {r : Res} (hr : kernelStep k (.task sv) = some r)
    (hb : ∃ c, Obs.block k.sch.currRunTask c ∈ r.2) :
    n ≠ 0 ∧ Waiting k.sch.currRunTask n r.1 := by
  obtain ⟨h0, hw⟩ := service_blocksFor hn hr hb
  have hx : ExitOk k (.task sv) := by
    intro hx
    cases sv <;> first | (cases hx; done) | cases hn
  have hm : sv.mayBlock = true := by cases sv <;> first | rfl | cases hn
  exact ⟨h0, hk.step he hx hr, he.2.2.2.1 hm, hw⟩

/-- **Timeouts expire on time exactly when they are positive as signed numbers.**  In every run in which
    no task exits with a deletion while an activation request is pending, for every call that blocks. -/
theorem timeouts_exact_iff (evs : List Event) (k : Kernel)
    (hg : Machine.Guarded kernelMachine (fun k ev => Enabled k ev ∧ ExitOk k ev) (some Kernel.start) evs)
    (hk : (Machine.run kernelMachine (some Kernel.start) evs).1 = some k) (sv : Service) (n : BitVec 32)
    (he : Enabled k (.task sv)) (hn : sv.timeout = some n) (r : Res) (hr : kernelStep k (.task sv) = some r)
    (hb : ∃ c, Obs.block k.sch.currRunTask c ∈ r.2) :
    (n ≠ TN_WAIT_INFINITE → (ExpiresOnTime k.sch.currRunTask n.toNat r.1 ↔ n.toNat < 2 ^ 31)) ∧
      (n = TN_WAIT_INFINITE → NeverExpires k.sch.currRunTask r.1) := by
  obtain ⟨h0, hw⟩ := service_waiting (KInv.run hg hk) he hn hr hb
  refine ⟨fun _ => hw.expires_iff h0, fun hinf evs' k' hg' hk' => ?_⟩
  exact (negative_run hw (by rw [hinf]; decide) hg' hk').waits.wait

theorem twoTasks_isSome : (Machine.run kernelMachine (some Kernel.start) twoTasks).1.isSome = true := by
  decide +kernel

/-- The kernel when the first task runs. -/
def twoTasksKernel : Kernel :=
  (Machine.run kernelMachine (some Kernel.start) twoTasks).1.get twoTasks_isSome

/-- The task creates a semaphore. -/
def oneSem : List Event := twoTasks ++ [.task (.semCreate 0 0 1)]

theorem oneSem_isSome : (Machine.run kernelMachine (some Kernel.start) oneSem).1.isSome = true := by
  decide +kernel

/-- The kernel in front of the call. -/
def oneSemKernel : Kernel := (Machine.run kernelMachine (some Kernel.start) oneSem).1.get oneSem_isSome

/-- A wait of three ticks for the semaphore. -/
theorem timeouts_exact_three :
    ((3 : BitVec 32) ≠ TN_WAIT_INFINITE → (ExpiresOnTime oneSemKernel.sch.currRunTask 3
      (tnSemAcquire 0 3 oneSemKernel).1 ↔ 3 < 2 ^ 31)) ∧
    ((3 : BitVec 32) = TN_WAIT_INFINITE →
      NeverExpires oneSemKernel.sch.currRunTask (tnSemAcquire 0 3 oneSemKernel).1) :=
  timeouts_exact_iff oneSem oneSemKernel (by decide +kernel) (Option.some_get oneSem_isSome).symm
    (.semAcquire 0 3) 3
    (by decide +kernel) rfl (tnSemAcquire 0 3 oneSemKernel) rfl ⟨.acquire 0, by decide +kernel⟩

/-- A task that sleeps for 2147483648 ticks is not woken by the timer task. -/
theorem long_sleep_never_expires :
    ¬ ∀ (evs : List Event) (k : Kernel) (sv : Service) (n : BitVec 32) (r : Res),
      Machine.Guarded kernelMachine (fun k ev => Enabled k ev ∧ ExitOk k ev) (some Kernel.start) evs →
      (Machine.run kernelMachine (some Kernel.start) evs).1 = some k → Enabled k (.task sv) →
      sv.timeout = some n →
      kernelStep k (.task sv) = some r → (∃ c, Obs.block k.sch.currRunTask c ∈ r.2) →
      n ≠ TN_WAIT_INFINITE → ExpiresOnTime k.sch.currRunTask n.toNat r.1 := by
  intro hall
  have hg : Machine.Guarded kernelMachine (fun k ev => Enabled k ev ∧ ExitOk k ev) (some Kernel.start)
      twoTasks := by
    decide +kernel
  have hk : (Machine.run kernelMachine (some Kernel.start) twoTasks).1 = some twoTasksKernel :=
    (Option.some_get twoTasks_isSome).symm
  have he : Enabled twoTasksKernel (.task (.sleep 0x80000000)) := by decide +kernel
  have hb : ∃ c, Obs.block twoTasksKernel.sch.currRunTask c ∈ (twoTasksKernel.sleep 0x80000000).2 :=
    ⟨.sleep, by decide +kernel⟩
  have hex := hall twoTasks _ (.sleep 0x80000000) 0x80000000 _ hg hk he rfl rfl hb (by decide)
  obtain ⟨h0, hw⟩ := service_waiting (KInv.run hg hk) he rfl rfl hb
  exact absurd ((hw.expires_iff h0).mp hex) (by decide)

end TnKernel
