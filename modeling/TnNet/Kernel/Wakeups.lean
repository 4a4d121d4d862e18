import TnNet.Kernel.Moves
import TnNet.Kernel.SchedRun

/-!
# Who remembers a wake-up

A wake-up of a task that does not sleep is to be remembered by that task: `wakeMemory` is what each task
remembers when a step is done as it is meant, and `wakeAnswer` the answer that goes with it.  The kernel
counts the request at the running task, whichever task is woken.

* `wakeups_step` — the counters behind any step of the kernel.
* `wakeups_follow_iff` — a run does what is meant in every step exactly when each wake-up that is to be
  remembered is for the running task, or both that task and the running task remember one already.
* `wakeup_counted_at_caller` — the wake-up of another task.
-/

set_option autoImplicit false

namespace TnKernel

variable {s s' : Sched} {k : Kernel} {t u : TaskId}

/-! ## What is meant -/

/-- Is a wake-up of this task to be remembered? -/
def Tcb.remembers (b : Tcb) : Bool :=
  b.idTask && decide (b.taskState ≠ .dormant) &&
    !(b.taskState.isWait && decide (b.taskWaitReason = some .sleep))

/-- What the tasks remember behind a step: a task that is reset has nothing to remember. -/
def wakeMemory (k : Kernel) (m : TaskId → Bool) : Event → TaskId → Bool
  | .task (.wakeup t) => if (k.sch.tcb t).remembers then Function.update m t true else m
  | .isr (.iwakeup t) => if (k.sch.tcb t).remembers then Function.update m t true else m
  | .task (.sleep timeout) => if timeout = 0 then m else Function.update m k.sch.currRunTask false
  | .task (.create t priority argsOk opt) =>
    if (tnTaskCreate t priority argsOk opt k.sch).1 = .noErr then Function.update m t false else m
  | .task (.terminate t) => if (tnTaskTerminate t k.sch).1 = .noErr then Function.update m t false else m
  | .task (.exit _) => Function.update m k.sch.currRunTask false
  | _ => m

/-- The answer to a wake-up that is to be remembered. -/
def wakeTerr (m : TaskId → Bool) (t : TaskId) : List Obs :=
  [.ret .other (if m t then .overflow else .noErr) 0]

/-- The answer of `tn_task_wakeup`, `tn_task_iwakeup` and `tn_task_sleep`, where what is remembered
    decides it. -/
def wakeAnswer (k : Kernel) (m : TaskId → Bool) : Event → Option (List Obs)
  | .task (.wakeup t) => if (k.sch.tcb t).remembers then some (wakeTerr m t) else none
  | .isr (.iwakeup t) => if (k.sch.tcb t).remembers then some (wakeTerr m t) else none
  | .task (.sleep timeout) =>
    if timeout = 0 then none
    else if m k.sch.currRunTask then some [.ret .other .noErr 0]
    else some [.block k.sch.currRunTask .sleep]
  | _ => none

/-- The counters of the tasks hold what they are to remember. -/
def Holds (s : Sched) (m : TaskId → Bool) : Prop := ∀ t, (s.tcb t).wakeupCount = if m t then 1 else 0

/-- The kernel beside what its tasks are to remember. -/
def wakeMachine : Machine.Step (Kernel × (TaskId → Bool)) Event Obs := fun x ev =>
  ((kernelStep x.1 ev).map fun r => (r.1, wakeMemory x.1 x.2 ev),
    ((kernelStep x.1 ev).map Prod.snd).getD [])

/-- A step that is done as it is meant. -/
def Follows (x : Kernel × (TaskId → Bool)) (ev : Event) : Prop :=
  ∀ r, kernelStep x.1 ev = some r →
    (∀ l ∈ wakeAnswer x.1 x.2 ev, r.2 = l) ∧ Holds r.1.sch (wakeMemory x.1 x.2 ev)

/-- A wake-up to be remembered is for the running task, or has to be rejected and is rejected on the counter
    of the running task. -/
def OwnWakeup (k : Kernel) (t : TaskId) : Prop :=
  (k.sch.tcb t).remembers = true → t = k.sch.currRunTask ∨
    (0 < (k.sch.tcb t).wakeupCount ∧ 0 < (k.sch.tcb k.sch.currRunTask).wakeupCount)

/-- The condition on a step. -/
def OwnWakeups (k : Kernel) : Event → Prop
  | .task (.wakeup t) => OwnWakeup k t
  | .isr (.iwakeup t) => OwnWakeup k t
  | _ => True

/-! ## The counters behind a step -/

theorem holds_update {m : TaskId → Bool} {b : Bool} (h : Holds s m)
    (ht : (s'.tcb t).wakeupCount = if b then 1 else 0)
    (hu : ∀ u, u ≠ t → (s'.tcb u).wakeupCount = (s.tcb u).wakeupCount) :
    Holds s' (Function.update m t b) := by
  intro u
  rcases eq_or_ne u t with rfl | hne
  · simpa using ht
  · rw [hu u hne, h u, Function.update_of_ne hne]

theorem holds_frame {m : TaskId → Bool} {b : Bool} (h : Holds s m) (hf : Frame t s s')
    (ht : (s'.tcb t).wakeupCount = if b then 1 else 0) : Holds s' (Function.update m t b) :=
  holds_update h ht fun u hu => by rw [hf.tcb u hu]

theorem holds_moves {m : TaskId → Bool} {o : Option TaskId} {w : TaskId → Prop}
    (h : Holds s m) (hm : Moves o w s s') : Holds s' m :=
  fun t => (hm.wakeups t).trans (h t)

@[simp] theorem toRunnable_wakeups (t u : TaskId) (s : Sched) :
    ((taskToRunnable t s).tcb u).wakeupCount = (s.tcb u).wakeupCount :=
  (moves_toRunnable (o := none) (w := fun _ => True) t s).wakeups u

@[simp] theorem setDormant_wakeups (t : TaskId) (s : Sched) :
    ((taskSetDormantState t s).tcb t).wakeupCount = 0 := by simp [taskSetDormantState]

@[simp] theorem activateAgain_wakeups (t : TaskId) (s : Sched) :
    ((activateAgain t s).tcb t).wakeupCount = (s.tcb t).wakeupCount := by
  unfold activateAgain
  split <;> simp

theorem create_wakeups {priority : Int} {argsOk : Bool} {opt : CreateOpt}
    (h : (tnTaskCreate t priority argsOk opt s).1 = .noErr) :
    ((tnTaskCreate t priority argsOk opt s).2.tcb t).wakeupCount = 0 := by
  unfold tnTaskCreate at h ⊢
  dsimp only at h ⊢
  split at h
  · cases h
  split at h
  · cases h
  rename_i h1 h2
  rw [if_neg h1, if_neg h2]
  dsimp only
  split <;> simp

theorem create_refused {priority : Int} {argsOk : Bool} {opt : CreateOpt}
    (h : (tnTaskCreate t priority argsOk opt s).1 ≠ .noErr) :
    (tnTaskCreate t priority argsOk opt s).2 = s := by
  unfold tnTaskCreate at h ⊢
  dsimp only at h ⊢
  split
  · rfl
  split
  · rfl
  rename_i h1 h2
  rw [if_neg h1, if_neg h2] at h
  exact absurd rfl h

theorem create_sch (t : TaskId) (priority : Int) (argsOk : Bool) (opt : CreateOpt)
    {r : Res}
    (hr : kernelStep k (.task (.create t priority argsOk opt)) = some r) :
    r.1.sch = (tnTaskCreate t priority argsOk opt k.sch).2 := by
  simp only [kernelStep, taskStep] at hr
  split at hr <;> cases hr <;> rfl

theorem terminate_wakeups (h : (tnTaskTerminate t s).1 = .noErr) :
    ((tnTaskTerminate t s).2.tcb t).wakeupCount = 0 ∧ Frame t s (tnTaskTerminate t s).2 := by
  unfold tnTaskTerminate at h ⊢
  dsimp only at h ⊢
  split at h
  · cases h
  split at h
  · cases h
  rename_i h1 h2
  rw [if_neg h1, if_neg h2]
  refine ⟨by simp, ?_⟩
  exact ((terminateQueues_frame t s).trans (taskSetDormantState_frame t _)).trans (activateAgain_frame t _)

theorem terminate_refused (h : (tnTaskTerminate t s).1 ≠ .noErr) : (tnTaskTerminate t s).2 = s := by
  unfold tnTaskTerminate at h ⊢
  dsimp only at h ⊢
  split
  · rfl
  split
  · rfl
  rename_i h1 h2
  rw [if_neg h1, if_neg h2] at h
  exact absurd rfl h

theorem terminate_sch (k : Kernel) (t : TaskId) : (k.terminate t).1.sch = (tnTaskTerminate t k.sch).2 := by
  unfold Kernel.terminate
  dsimp only
  split <;> rfl

theorem exitTask_wakeups (attr : Bool) (s : Sched) :
    ((exitTask attr s).tcb s.currRunTask).wakeupCount = 0 := by
  unfold exitTask
  dsimp only
  split <;> simp

theorem timeoutTask_wakeups (s : Sched) (t u : TaskId) :
    ((timeoutTask s t).tcb u).wakeupCount = (s.tcb u).wakeupCount := by
  rcases eq_or_ne u t with rfl | hu
  · unfold timeoutTask
    dsimp only
    split
    · split <;> simp [Tcb.released]
    · rfl
  · rw [(timeoutTask_frame s t).tcb u hu]

theorem timeouts_wakeups (l : List TaskId) (s : Sched) (u : TaskId) :
    ((l.foldl timeoutTask s).tcb u).wakeupCount = (s.tcb u).wakeupCount := by
  induction l generalizing s with
  | nil => rfl
  | cons t l ih => rw [List.foldl_cons, ih, timeoutTask_wakeups]

theorem timerLoop_wakeups (s : Sched) (u : TaskId) :
    ((timerTaskLoop s).tcb u).wakeupCount = (s.tcb u).wakeupCount := by
  unfold timerTaskLoop
  rw [(moves_block (w := fun _ => True) none .sleep TN_WAIT_INFINITE _).wakeups, timeouts_wakeups]

/-! ## The three services -/

/-- A wake-up that is not to be remembered leaves the counters. -/
theorem wakeup_other {w : TaskId → Prop} (hc : Covers w s) (h : (s.tcb t).remembers = false) :
    Moves none w s (tnTaskWakeup t s).2 := by
  unfold Tcb.remembers at h
  unfold tnTaskWakeup
  dsimp only
  split
  · exact .refl none s
  split
  · exact .refl none s
  split
  · rename_i hw
    exact moves_waitComplete t false s (hc.state t hw.1)
  · rename_i h1 h2 h3
    simp_all

/-- **A wake-up that is to be remembered** is counted at the running task. -/
theorem wakeup_counts (h : (s.tcb t).remembers = true) :
    tnTaskWakeup t s = if (s.tcb s.currRunTask).wakeupCount = 0 then
      (.noErr, s.setTcb s.currRunTask fun b => { b with wakeupCount := b.wakeupCount + 1 })
    else (.overflow, s) := by
  unfold Tcb.remembers at h
  simp only [Bool.and_eq_true, decide_eq_true_eq, Bool.not_eq_eq_eq_not, Bool.not_true,
    Bool.and_eq_false_iff, decide_eq_false_iff_not] at h
  obtain ⟨⟨h1, h2⟩, h3⟩ := h
  unfold tnTaskWakeup
  dsimp only
  rw [if_neg (by simpa using h1), if_neg h2, if_neg (by rintro ⟨hw, hr⟩; simp_all)]

/-- The observation of such a wake-up. -/
theorem wakeup_obs (h : (k.sch.tcb t).remembers = true) :
    (k.wakeup t).2 = [.ret .other (tnTaskWakeup t k.sch).1 0] := by
  unfold Tcb.remembers at h
  unfold Kernel.wakeup
  dsimp only
  rw [if_neg]
  rintro ⟨-, hw, hr⟩
  simp_all

/-- A wake-up that is to be remembered follows what is meant exactly when it is for the running task, or
    both tasks remember one. -/
theorem wakeup_follows_iff {m : TaskId → Bool} (hm : Holds k.sch m) (h : (k.sch.tcb t).remembers = true) :
    ((k.wakeup t).2 = wakeTerr m t ∧ Holds (k.wakeup t).1.sch (Function.update m t true)) ↔
      t = k.sch.currRunTask ∨
        (0 < (k.sch.tcb t).wakeupCount ∧ 0 < (k.sch.tcb k.sch.currRunTask).wakeupCount) := by
  have hs : (k.wakeup t).1.sch = (tnTaskWakeup t k.sch).2 := rfl
  rw [wakeup_obs h, hs, wakeup_counts h]
  generalize hc : k.sch.currRunTask = c
  have hmt := hm t
  have hmc := hm c
  unfold wakeTerr
  by_cases h0 : (k.sch.tcb c).wakeupCount = 0
  · rw [if_pos h0, h0]
    have hfree : m c = false := by
      cases hb : m c
      · rfl
      · simp [hmc, hb] at h0
    constructor
    · rintro ⟨-, hk⟩
      -- the counter of the running task goes up, so it is the task to remember the wake-up
      left
      by_contra hne
      have h1 := hk c
      rw [Function.update_of_ne (Ne.symm hne), hfree] at h1
      simp at h1
    · rintro (rfl | ⟨-, h1⟩)
      · refine ⟨by simp [hfree], fun u => ?_⟩
        rcases eq_or_ne u t with rfl | hu
        · simp [h0]
        · rw [setTcb_ne _ _ hu, Function.update_of_ne hu]
          exact hm u
      · exact absurd h1 (Nat.lt_irrefl 0)
  · rw [if_neg h0]
    have hpos : 0 < (k.sch.tcb c).wakeupCount := Nat.pos_of_ne_zero h0
    have hbusy : m c = true := by
      cases hb : m c
      · simp [hmc, hb] at h0
      · rfl
    constructor
    · rintro ⟨ho, -⟩
      refine .inr ⟨?_, hpos⟩
      cases hb : m t
      · simp [hb] at ho
      · simp [hmt, hb]
    · intro hd
      have hb : m t = true := by
        rcases hd with rfl | ⟨h1, -⟩
        · exact hbusy
        · cases hb : m t
          · simp [hmt, hb] at h1
          · rfl
      refine ⟨by simp [hb], ?_⟩
      have hsame : Function.update m t true = m := by rw [← hb, Function.update_eq_self]
      rw [hsame]
      exact hm

theorem wakeup_step {m : TaskId → Bool} (hm : Holds k.sch m) :
    ((∀ l ∈ (if (k.sch.tcb t).remembers then some (wakeTerr m t) else none), (k.wakeup t).2 = l) ∧
      Holds (k.wakeup t).1.sch (if (k.sch.tcb t).remembers then Function.update m t true else m)) ↔
        OwnWakeup k t := by
  unfold OwnWakeup
  cases h : (k.sch.tcb t).remembers
  · have h1 : Holds (k.wakeup t).1.sch m := holds_moves hm (wakeup_other (covers_true _) h)
    simpa using h1
  · simpa using wakeup_follows_iff hm h

/-- **`tn_task_sleep`** answers by the counter of the running task. -/
theorem sleep_follows (timeout : BitVec 32) {m : TaskId → Bool} (hm : Holds k.sch m) (h0 : timeout ≠ 0) :
    (k.sleep timeout).2 = (if m k.sch.currRunTask then [.ret .other .noErr 0]
      else [.block k.sch.currRunTask .sleep]) ∧
      Holds (k.sleep timeout).1.sch (Function.update m k.sch.currRunTask false) := by
  have hc := hm k.sch.currRunTask
  unfold Kernel.sleep tnTaskSleep
  rw [if_neg h0]
  cases hb : m k.sch.currRunTask
  · rw [hb] at hc
    rw [if_neg (by simp [hc])]
    refine ⟨rfl, holds_update hm ?_ fun u _ => (moves_block (w := fun _ => True) _ _ _ _).wakeups u⟩
    rw [(block_keeps _ _ _ _).1]
    exact hc
  · rw [hb] at hc
    rw [if_pos (by simp [hc])]
    refine ⟨rfl, holds_update hm ?_ fun u hu => ?_⟩
    · simp [Kernel.retSch, hc]
    · simp [Kernel.retSch, setTcb_ne _ _ hu]

theorem wakeMemory_of_not_resets {m : TaskId → Bool} {ev : Event} (hs : ev.resets = false) :
    wakeMemory k m ev = m ∧ wakeAnswer k m ev = none := by
  cases ev with
  | task sv => cases sv <;> (first | exact ⟨rfl, rfl⟩ | cases hs)
  | isr sv => cases sv <;> (first | exact ⟨rfl, rfl⟩ | cases hs)
  | _ => exact ⟨rfl, rfl⟩

/-- A step that returns. -/
theorem follows_of_step {m : TaskId → Bool} {ev : Event} {r : Res} (hr : kernelStep k ev = some r) :
    Follows (k, m) ev ↔ (∀ l ∈ wakeAnswer k m ev, r.2 = l) ∧ Holds r.1.sch (wakeMemory k m ev) := by
  constructor
  · exact fun h => h r hr
  · intro h r' hr'
    obtain rfl : r = r' := Option.some.inj (hr.symm.trans hr')
    exact h

/-- A service that resets its task. -/
theorem follows_reset {m : TaskId → Bool} {ev : Event} {r : Res} (hr : kernelStep k ev = some r)
    (ha : wakeAnswer k m ev = none) (hm : Holds r.1.sch (wakeMemory k m ev)) : Follows (k, m) ev := by
  rw [follows_of_step hr, ha]
  exact ⟨fun l hl => (by cases hl), hm⟩

/-- **A step, with the counters in front of it as they are meant to be.** -/
theorem follows_iff {m : TaskId → Bool} (hm : Holds k.sch m) (ev : Event) :
    Follows (k, m) ev ↔ OwnWakeups k ev := by
  cases hs : ev.resets
  · -- the counters are as before
    obtain ⟨h1, h2⟩ := wakeMemory_of_not_resets (k := k) (m := m) hs
    have hown : OwnWakeups k ev := by
      cases ev with
      | task sv => cases sv <;> trivial
      | isr sv => cases sv <;> trivial
      | _ => trivial
    refine iff_of_true (fun r hr => ?_) hown
    rw [h1, h2]
    exact ⟨fun l hl => (by cases hl), holds_moves hm (moves_step (covers_true _) trivial hs hr)⟩
  cases ev with
  | task sv =>
    cases sv with
    | wakeup t => exact (follows_of_step rfl).trans (wakeup_step hm)
    | sleep timeout =>
      refine iff_of_true ?_ trivial
      rw [follows_of_step rfl]
      by_cases h0 : timeout = 0
      · have hsame : (k.sleep timeout).1 = k := by
          unfold Kernel.sleep tnTaskSleep
          rw [if_pos h0]
          rfl
        have hk : Holds (k.sleep timeout).1.sch m := by rw [hsame]; exact hm
        simpa [wakeAnswer, wakeMemory, h0] using hk
      · obtain ⟨h1, h2⟩ := sleep_follows timeout hm h0
        simp only [wakeAnswer, wakeMemory, h0, if_false]
        refine ⟨fun l hl => ?_, h2⟩
        rw [h1]
        cases hb : m k.sch.currRunTask <;> simpa [hb] using hl
    | create t priority argsOk opt =>
      refine iff_of_true ?_ trivial
      by_cases h1 : (tnTaskCreate t priority argsOk opt k.sch).1 = .noErr
      · refine follows_reset (if_pos h1) rfl ?_
        simp only [wakeMemory, h1, if_true]
        exact holds_frame hm (tnTaskCreate_frame _ _ _ _ _) (create_wakeups h1)
      · refine follows_reset (if_neg h1) rfl ?_
        simp only [wakeMemory, h1, if_false, Kernel.retSch, create_refused h1]
        exact hm
    | exit attr =>
      refine iff_of_true (follows_reset rfl rfl ?_) trivial
      have h1 : Holds (exitTask attr k.sch) (Function.update m k.sch.currRunTask false) :=
        holds_frame hm (exitTask_frame attr k.sch) (exitTask_wakeups attr k.sch)
      exact h1
    | terminate t =>
      refine iff_of_true (follows_reset rfl rfl ?_) trivial
      rw [terminate_sch]
      by_cases h1 : (tnTaskTerminate t k.sch).1 = .noErr
      · simp only [wakeMemory, h1, if_true]
        obtain ⟨h2, h3⟩ := terminate_wakeups h1
        exact holds_frame hm h3 h2
      · simp only [wakeMemory, h1, if_false, terminate_refused h1]
        exact hm
    | _ => cases hs
  | isr sv =>
    cases sv with
    | iwakeup t => exact (follows_of_step rfl).trans (wakeup_step hm)
    | _ => cases hs
  | timerLoop =>
    refine iff_of_true (follows_reset rfl rfl ?_) trivial
    have h1 : Holds (timerTaskLoop k.sch) m := fun t => by rw [timerLoop_wakeups, hm t]
    exact h1
  | _ => cases hs

/-! ## Runs -/

theorem holds_start : Holds Kernel.start.sch fun _ => false := by
  intro t
  have h : (tnStartSystem.tcb t).wakeupCount = 0 := by
    rcases eq_or_ne t timerTask with rfl | h0
    · rfl
    rcases eq_or_ne t idleTask with rfl | h1
    · rfl
    rw [start_tcb h0 h1]
  exact h

theorem wakeMachine_holds {x x' : Kernel × (TaskId → Bool)} {ev : Event} (h : Follows x ev)
    (hx : (wakeMachine x ev).1 = some x') : Holds x'.1.sch x'.2 := by
  obtain ⟨r, hr, rfl⟩ := Option.map_eq_some_iff.mp hx
  exact (h r hr).2

/-- **A run does what is meant in every step** exactly when each wake-up that is to be remembered is for the
    running task, or both that task and the running task remember one already. -/
theorem wakeups_follow_iff (evs : List Event) :
    Machine.Guarded wakeMachine Follows (some (Kernel.start, fun _ => false)) evs ↔
      Machine.Guarded wakeMachine (fun x => OwnWakeups x.1) (some (Kernel.start, fun _ => false)) evs := by
  refine Machine.guarded_iff (fun x => Holds x.1.sch x.2) (fun _ => True) (fun x ev hx _ => ?_)
    (fun x ev x' _ _ hf hx' => wakeMachine_holds hf hx') (fun x' hx' => ?_) fun _ _ => trivial
  · exact follows_iff hx ev
  · cases hx'
    exact holds_start

/-- Task 2 wakes task 3, which is runnable, and then goes to sleep. -/
def wakeOther : List Event := twoTasks ++ [.task (.wakeup 3)]

theorem wakeOther_isSome :
    (Machine.run wakeMachine (some (Kernel.start, fun _ => false)) wakeOther).1.isSome = true := by
  decide +kernel

/-- The call of `tn_task_sleep` returns at once, though nobody has woken task 2. -/
theorem wakeup_counted_at_caller :
    ¬ ∀ evs : List Event, Machine.Guarded kernelMachine Enabled (some Kernel.start) evs →
      Machine.Guarded wakeMachine Follows (some (Kernel.start, fun _ => false)) evs := by
  intro hall
  have hf := (Machine.guarded_append (hall (wakeOther ++ [.task (.sleep 1)]) (by decide +kernel))).2
  rw [(Option.some_get wakeOther_isSome).symm] at hf
  have hsleep := (hf.1 _ rfl).1 [.block 2 .sleep] (by decide +kernel)
  revert hsleep
  decide +kernel

end TnKernel
