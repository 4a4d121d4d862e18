import Mathlib.Data.List.Nodup
import TnNet.Kernel.MutexActs

/-!
# The scheduler along every run

`kernelStep_acts` puts the services together: every event of the kernel is a sequence of acts.  It
asks for one thing the kernel does not check: a task that exits with `TN_EXIT_AND_DELETE_TASK` has
no activation request pending (`ExitOk`), since `tn_task_exit` makes such a task runnable and clears
its identifier all the same.

`tn_blocked_tasks_list` is a list here, and a ring of nodes in the source.  The two are the same as long as
no node is linked a second time or reset in the ring, which `BlockedOk` says.

`scheduler_ok` — the ready lists, the bitmap and `tn_next_task_to_run` agree with the states of the
tasks in every state of every run.
-/

set_option autoImplicit false

namespace TnKernel

variable {k : Kernel} {ev : Event} {a : Allow}

/-- The events an `Allow` permits. -/
def Allow.permits (a : Allow) (k : Kernel) : Event → Prop
  | .task (.fmemCreate _ startAddr blockSize numBlocks) => a.create startAddr blockSize numBlocks
  | .task (.fmemRelease i block) => a.freed i block
  | .isr (.fmemIrelease i block) => a.freed i block
  | .task (.releaseWait t) =>
    ∀ q, (k.sch.tcb t).pwaitQueue = some q → q.isRes = true → a.release t
  | .isr (.ireleaseWait t) =>
    ∀ q, (k.sch.tcb t).pwaitQueue = some q → q.isRes = true → a.release t
  | _ => True

/-- `tn_task_exit` with `TN_EXIT_AND_DELETE_TASK`. -/
def Event.exitsDeleted : Event → Bool
  | .task (.exit attr) => attr
  | _ => false

/-- A task that exits and is deleted has no activation request pending. -/
def ExitOk (k : Kernel) (ev : Event) : Prop :=
  ev.exitsDeleted = true → (k.sch.tcb k.sch.currRunTask).activateCount = 0

/-- The services of the mutexes return. -/
def MutexOk (k : Kernel) : Event → Prop
  | .task (.mutexLock m _) => LockOk k m
  | .task (.mutexUnlock m) => (k.mutex m).attr = .ceiling → UnlockOk k m
  | _ => True

/-- `tn_mutex_lock` puts the running task at the tail of `tn_blocked_tasks_list`. -/
def BlocksByCeiling (k : Kernel) (m : Nat) (timeout : BitVec 32) : Prop :=
  timeout ≠ 0 ∧ (k.mutex m).idMutex = true ∧ (k.mutex m).attr = .ceiling ∧ (k.mutex m).holder = none ∧
    (k.mutex m).ceilPriority ≤ (k.sch.tcb k.sch.currRunTask).basePriority ∧
    (enableLockMutex k k.sch.currRunTask).1 = false

/-- The node of a task whose wait for a mutex has timed out, or was ended, stays in the ring
    `tn_blocked_tasks_list`.  Such a task is not put into the ring again, and its node is not reset. -/
def BlockedOk (k : Kernel) : Event → Prop
  | .task (.mutexLock m timeout) =>
    k.sch.currRunTask ∈ k.sch.blockedTasksList → ¬BlocksByCeiling k m timeout
  | .task (.exit _) => k.sch.currRunTask ∉ k.sch.blockedTasksList
  | .task (.terminate t) => t ∈ k.sch.blockedTasksList → t ≠ k.sch.currRunTask →
      (k.sch.tcb t).taskState ≠ .runnable ∧ (k.sch.tcb t).taskState ≠ .suspend
  | _ => True

theorem user_ne_timer {t : TaskId} (h : isSystem t = false) : t ≠ timerTask := by
  intro hc
  rw [hc] at h
  cases h

theorem acts_taskStep (h : KInv k) {sv : Service} (he : Enabled k (.task sv))
    (hx : ExitOk k (.task sv)) (ha : a.permits k (.task sv)) {r : Res}
    (hr : taskStep k sv = some r) : Acts a k r.2 r.1 := by
  obtain ⟨hrun, hpend, hidle, hblk, hnamed⟩ := he
  -- a service that may block is called by a task of the application
  have hruns : sv.mayBlock = true → Runs k := fun hb =>
    ⟨hrun, hpend, by simp [isSystem, hblk hb, hidle]⟩
  have huser : ∀ t, sv.named = some t → isSystem t = false := fun t ht => hnamed t ht
  cases sv with
  | create t priority argsOk opt =>
    exact acts_create h t priority argsOk opt (user_ne_timer (huser t rfl)) hr
  | suspend t =>
    cases hr
    exact acts_retSch (h.sch.suspend (huser t rfl)) (h.sch.suspend_quiet (huser t rfl))
  | resume t =>
    cases hr
    exact acts_retSch (h.sch.resume (huser t rfl)) (h.sch.resume_quiet (huser t rfl))
  | sleep timeout =>
    cases hr
    exact acts_sleep h timeout hrun hpend (hruns rfl).user
  | wakeup t =>
    cases hr
    exact acts_wakeup h t
  | activate t =>
    cases hr
    have ht := user_ne_timer (huser t rfl)
    exact acts_retSch (h.sch.activate ht) (h.sch.activate_quiet ht)
  | releaseWait t =>
    cases hr
    exact acts_releaseWait h t ha
  | exit attr =>
    cases hr
    exact acts_exit h attr hrun hpend (hruns rfl).user hx
  | terminate t =>
    cases hr
    exact acts_terminate h (huser t rfl)
  | delete t =>
    cases hr
    exact acts_retSch (h.sch.delete (user_ne_timer (huser t rfl))) (delete_quiet t k.sch)
  | changePriority t priority =>
    cases hr
    exact acts_retSch (h.sch.taskChangePriority priority (huser t rfl))
      (h.sch.taskChangePriority_quiet priority (huser t rfl))
  | tsliceTicks priority value =>
    cases hr
    exact acts_retSch (h.sch.tsliceTicks priority value) (tsliceTicks_quiet priority value k.sch)
  | semCreate i startValue maxVal =>
    cases hr
    exact acts_semCreate h i startValue maxVal
  | semSignal i =>
    cases hr
    exact acts_semSignal h i
  | semAcquire i timeout =>
    cases hr
    exact acts_semAcquire h (hruns rfl) i timeout
  | semPolling i =>
    cases hr
    exact acts_semPolling h i
  | queueCreate i hasFifo numEntries =>
    cases hr
    exact acts_queueCreate h i hasFifo numEntries
  | queueSend i data timeout =>
    cases hr
    exact acts_tnQueueSend h (hruns rfl) i data timeout
  | queueSendPolling i data =>
    cases hr
    exact acts_queueSendPolling h i data
  | queueReceive i timeout =>
    cases hr
    exact acts_tnQueueReceive h (hruns rfl) i timeout
  | queueReceivePolling i =>
    cases hr
    exact acts_queueReceivePolling h i
  | eventCreate i attr pattern =>
    cases hr
    exact acts_eventCreate h i attr pattern
  | eventWait i pattern mode timeout =>
    cases hr
    exact acts_tnEventWait h (hruns rfl) i pattern mode timeout
  | eventWaitPolling i pattern mode =>
    cases hr
    exact acts_eventWaitPolling h i pattern mode
  | eventSet i pattern =>
    cases hr
    exact acts_eventSet h i pattern
  | eventClear i pattern =>
    cases hr
    exact acts_eventClear h i pattern
  | fmemCreate i startAddr blockSize numBlocks =>
    cases hr
    exact acts_fmemCreate h i startAddr blockSize numBlocks ha
  | fmemGet i timeout =>
    cases hr
    exact acts_tnFmemGet h (hruns rfl) i timeout
  | fmemGetPolling i =>
    cases hr
    exact acts_fmemGetPolling h i
  | fmemRelease i block =>
    cases hr
    exact (act_fmemRelease h i block ha).1.acts (act_fmemRelease h i block ha).2
  | mutexCreate i attr ceilPriority =>
    cases hr
    exact acts_mutexCreate h i attr ceilPriority
  | mutexLock i timeout => exact acts_mutexLock h (hruns rfl) hr
  | mutexLockPolling i =>
    cases hr
    exact acts_mutexLockPolling h hidle i
  | mutexUnlock i => exact acts_mutexUnlock h hidle hr

theorem acts_isrStep (h : KInv k) (sv : IService) (he : Enabled k (.isr sv))
    (ha : a.permits k (.isr sv)) : Acts a k (isrStep k sv).2 (isrStep k sv).1 := by
  cases sv with
  | iwakeup t => exact acts_wakeup h t
  | iactivate t =>
    have ht : t ≠ timerTask := user_ne_timer (he t rfl)
    exact acts_retSch (h.sch.activate ht) (h.sch.activate_quiet ht)
  | ireleaseWait t => exact acts_releaseWait h t ha
  | semIsignal i => exact acts_semSignal h i
  | semIpolling i => exact acts_semPolling h i
  | queueIsendPolling i data => exact acts_queueSendPolling h i data
  | queueIreceive i => exact acts_queueReceivePolling h i
  | eventIwait i pattern mode => exact acts_eventWaitPolling h i pattern mode
  | eventIset i pattern => exact acts_eventSet h i pattern
  | eventIclear i pattern => exact acts_eventClear h i pattern
  | fmemGetIpolling i => exact acts_fmemGetPolling h i
  | fmemIrelease i block =>
    exact (act_fmemRelease h i block ha).1.acts (act_fmemRelease h i block ha).2

/-- **Every event is a sequence of acts.** -/
theorem kernelStep_acts (h : KInv k) (he : Enabled k ev) (hx : ExitOk k ev) (ha : a.permits k ev)
    {r : Res} (hr : kernelStep k ev = some r) : Acts a k r.2 r.1 := by
  cases ev with
  | task sv => exact acts_taskStep h he hx ha hr
  | isr sv =>
    cases hr
    exact acts_isrStep h sv he ha
  | tick =>
    cases hr
    exact acts_tick h
  | timerLoop =>
    cases hr
    exact acts_timerLoop h he.1 he.2
  | switchContext =>
    cases hr
    exact acts_quiet h.sch.switchContext (switchContext_quiet k.sch) silent_nil
  | back =>
    cases hr
    exact acts_back h he.1

/-- Only the services of the mutexes may fail to return. -/
theorem kernelStep_isSome (h : KInv k) (he : Enabled k ev) (hm : MutexOk k ev) :
    (kernelStep k ev).isSome = true := by
  cases ev with
  | task sv =>
    cases sv with
    | mutexLock m timeout => exact mutexLock_isSome timeout hm
    | mutexUnlock m => exact mutexUnlock_isSome h he.1 he.2.2.1 hm
    | create t priority argsOk opt =>
      show (if _ then _ else _ : Option Res).isSome = true
      split <;> rfl
    | _ => rfl
  | _ => rfl

theorem KInv.start : KInv Kernel.start := by
  have hq : ∀ t, (Kernel.start.sch.tcb t).pwaitQueue = none := by
    intro t
    by_cases h0 : t = timerTask
    · rw [h0]
      rfl
    by_cases h1 : t = idleTask
    · rw [h1]
      rfl
    · exact congrArg Tcb.pwaitQueue (start_tcb h0 h1)
  constructor
  case sch => exact SInv.start
  case live => exact fun t => none_res (hq t)
  case call => exact fun t => none_res (hq t)
  case wait => exact fun t c _ hc => by cases hc
  case timer => exact fun c hc => by cases hc
  case holder => exact fun m u hu => by cases hu

/-! ## Runs -/

/-- What the scheduler promises. -/
structure SchedOk (s : Sched) : Prop where
  /-- A bit is set exactly when the ready list of its priority is not empty. -/
  bmp : ∀ p < TN_NUM_PRIORITY, s.readyToRunBmp.getLsbD p = true ↔ s.que (.ready p) ≠ []
  /-- A runnable task is once on the ready list of its priority, and no task is on another one. -/
  ready : ∀ t p, (s.que (.ready p)).count t =
    if (s.tcb t).taskState = .runnable ∧ (s.tcb t).priority = p then 1 else 0
  /-- The next task is runnable, at the lowest priority whose bit is set. -/
  next : ∃ n, s.nextTaskToRun = some n ∧ (s.tcb n).taskState = .runnable ∧
    s.readyToRunBmp.getLsbD (s.tcb n).priority = true ∧
    (∀ p < (s.tcb n).priority, s.readyToRunBmp.getLsbD p = false) ∧
    ∀ t, (s.tcb t).taskState = .runnable → (s.tcb n).priority ≤ (s.tcb t).priority

theorem SInv.schedOk {s : Sched} (h : SInv none s) : SchedOk s := by
  constructor
  case bmp => exact h.bmp
  case ready =>
    intro t p
    split
    · rename_i hr
      exact List.count_eq_one_of_mem (h.nodup _) (((h.ok t).ready p).mpr hr)
    · rename_i hr
      exact List.count_eq_zero_of_not_mem fun hm => hr (((h.ok t).ready p).mp hm)
  case next =>
    obtain ⟨n, hn, -, hr, hm⟩ := h.next
    refine ⟨n, hn, hr, ?_, fun p hp => ?_, fun t ht => hm t (by simp) ht⟩
    · rw [h.bmp _ (h.prio n).1]
      exact List.ne_nil_of_mem (((h.ok n).ready _).mpr ⟨hr, rfl⟩)
    · rw [← Bool.not_eq_true, h.bmp p (Nat.lt_trans hp (h.prio n).1)]
      rintro hne
      obtain ⟨u, l, hl⟩ := List.exists_cons_of_ne_nil hne
      have hu := ((h.ok u).ready p).mp (by rw [hl]; exact List.mem_cons_self)
      have := hm u (by simp) hu.1
      omega

theorem any_permits (k : Kernel) (ev : Event) : Allow.any.permits k ev := by
  unfold Allow.permits
  split <;> first | trivial | exact fun _ _ _ => trivial

/-- A step keeps the invariant. -/
theorem KInv.step (h : KInv k) (he : Enabled k ev) (hx : ExitOk k ev) {r : Res}
    (hr : kernelStep k ev = some r) : KInv r.1 := (kernelStep_acts h he hx (any_permits k ev) hr).kinv h

/-- Every state of a run satisfies the invariant. -/
theorem KInv.run {es : List Event}
    (hg : Machine.Guarded kernelMachine (fun k ev => Enabled k ev ∧ ExitOk k ev)
      (some Kernel.start) es) (hk : (Machine.run kernelMachine (some Kernel.start) es).1 = some k) :
    KInv k := by
  refine (Machine.run_invariant KInv (fun _ => True) ?_ ?_ hg).1 k hk
  · intro k ev h hc
    refine ⟨fun k' hk' => ?_, fun _ _ => trivial⟩
    obtain ⟨r, hr, rfl⟩ := Option.map_eq_some_iff.mp hk'
    exact h.step hc.1 hc.2 hr
  · intro k hk
    cases hk
    exact KInv.start

/-- **The scheduler invariant.**  In every state of every run in which no task exits with a
    deletion while an activation request is pending, and `tn_blocked_tasks_list` stays a ring, the
    bitmap, the ready lists and the next task agree with the states of the tasks; and every event that
    is possible there has a next state, but for a service of a mutex that does not return. -/
theorem scheduler_ok (es : List Event) (k : Kernel)
    (hg : Machine.Guarded kernelMachine (fun k ev => (Enabled k ev ∧ ExitOk k ev) ∧ BlockedOk k ev)
      (some Kernel.start) es)
    (hk : (Machine.run kernelMachine (some Kernel.start) es).1 = some k) :
    SchedOk k.sch ∧ ∀ ev, Enabled k ev → MutexOk k ev → (kernelStep k ev).isSome = true :=
  have h := KInv.run (hg.mono fun _ _ hc => hc.1) hk
  ⟨h.sch.schedOk, fun _ he hm => kernelStep_isSome h he hm⟩

instance (k : Kernel) : ∀ ev, Decidable (Enabled k ev)
  | .task sv => inferInstanceAs (Decidable ((k.sch.tcb k.sch.currRunTask).taskState = .runnable ∧
      k.pend k.sch.currRunTask = none ∧ k.sch.currRunTask ≠ idleTask ∧
      (sv.mayBlock = true → k.sch.currRunTask ≠ timerTask) ∧ ∀ t ∈ sv.named, isSystem t = false))
  | .isr sv => inferInstanceAs (Decidable (∀ t ∈ sv.named, isSystem t = false))
  | .tick => .isTrue trivial
  | .timerLoop => inferInstanceAs (Decidable (k.sch.currRunTask = timerTask ∧
      (k.sch.tcb timerTask).taskState = .runnable))
  | .switchContext => .isTrue trivial
  | .back => inferInstanceAs (Decidable ((k.sch.tcb k.sch.currRunTask).taskState = .runnable ∧
      k.pend k.sch.currRunTask ≠ none))

instance (k : Kernel) (ev : Event) : Decidable (ExitOk k ev) :=
  inferInstanceAs (Decidable (ev.exitsDeleted = true → _))

instance (k : Kernel) (m : Nat) (timeout : BitVec 32) : Decidable (BlocksByCeiling k m timeout) :=
  inferInstanceAs (Decidable (_ ∧ _))

instance (k : Kernel) (ev : Event) : Decidable (BlockedOk k ev) := by
  unfold BlockedOk
  split <;> infer_instance

/-- `tn_app_init` creates and starts two tasks of priority 5, and the first one runs. -/
def twoTasks : List Event :=
  [.task (.create 2 5 true { startOnCreation := true }),
    .task (.create 3 5 true { startOnCreation := true }), .timerLoop, .switchContext]

/-- The first task waits for a semaphore with a timeout, the second one runs when the tick comes. -/
def semWait : List Event :=
  twoTasks ++ [.task (.semCreate 0 0 1), .task (.semAcquire 0 3), .switchContext, .tick]

theorem semWait_isSome :
    (Machine.run kernelMachine (some Kernel.start) semWait).1.isSome = true := by
  decide +kernel

theorem scheduler_ok_sem_wait :
    SchedOk ((Machine.run kernelMachine (some Kernel.start) semWait).1.get semWait_isSome).sch := by
  have hk := (Option.some_get semWait_isSome).symm
  have hg : Machine.Guarded kernelMachine (fun k ev => (Enabled k ev ∧ ExitOk k ev) ∧ BlockedOk k ev)
      (some Kernel.start) semWait := by decide +kernel
  exact (scheduler_ok semWait _ hg hk).1

/-- The first task has an activation request pending and exits with its deletion; the second one
    creates it again. -/
def createdAgain : List Event :=
  twoTasks ++ [.task (.activate 2), .task (.exit true), .task (.create 2 5 true {})]

theorem createdAgain_isSome :
    (Machine.run kernelMachine (some Kernel.start) createdAgain).1.isSome = true := by
  decide +kernel

/-- A dormant task on a ready list. -/
theorem exit_delete_breaks_ready_list :
    ¬ ∀ (es : List Event) (k : Kernel),
      Machine.Guarded kernelMachine Enabled (some Kernel.start) es →
      (Machine.run kernelMachine (some Kernel.start) es).1 = some k → SchedOk k.sch := by
  intro h
  have hk := (Option.some_get createdAgain_isSome).symm
  have hok := h createdAgain _ (by decide +kernel) hk
  have hcount := hok.ready 2 5
  revert hcount
  decide +kernel

end TnKernel
