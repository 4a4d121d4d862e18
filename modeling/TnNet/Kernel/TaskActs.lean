import TnNet.Kernel.Acts

/-!
# The task services and the tick as acts

Every service of `tn_tasks.c`, the tick, a pass of the timer task and the return of a blocked call
are acts (`Acts`).
-/

set_option autoImplicit false

namespace TnKernel

variable {k : Kernel} {t u : TaskId} {obs : List Obs} {a : Allow} {s : Sched}

/-! ## Acts of the scheduler -/

theorem grows_refl (k : Kernel) (s : Sched) (pend : TaskId → Option Call) :
    Grows k { k with sch := s, pend := pend } :=
  ⟨fun q h => by cases q <;> exact h, fun _ _ h => .inl h⟩

theorem grows_sch (k : Kernel) (s : Sched) : Grows k { k with sch := s } := grows_refl k s k.pend

theorem changes_sch (h : Quiet k.sch s) : Changes k { k with sch := s } := ⟨h, rfl, grows_sch k s⟩

theorem acts_quiet (h : SInv none s) (hq : Quiet k.sch s) (ho : ∀ o ∈ obs, o.silent = true) :
    Acts a k obs { k with sch := s } :=
  (Act.quiet (changes_sch hq) ⟨rfl, rfl, rfl⟩ ho).acts h

/-- Observations that are not about a resource. -/
theorem acts_silent (h : KInv k) (ho : ∀ o ∈ obs, o.silent = true) : Acts a k obs k :=
  acts_quiet h.sch (.refl k.sch) ho

/-- A service of `tn_tasks.c` that leaves the tasks that wait alone. -/
theorem acts_retSch {r : Terr × Sched} (h : SInv none r.2) (hq : Quiet k.sch r.2) :
    Acts a k (k.retSch r).2 (k.retSch r).1 :=
  acts_quiet h hq fun o ho => by
    rw [List.mem_singleton.mp ho]
    rfl

/-- The running task, that is in no call, waits for nothing. -/
theorem KInv.pend_free (h : KInv k) (hw : (k.sch.tcb t).taskState.isWait = true)
    (hq : ∀ q, (k.sch.tcb t).pwaitQueue = some q → q.isRes = false) :
    ∀ c, k.pend t = some c → c.isRes = false := by
  intro c hc
  by_contra hres
  rw [Bool.not_eq_false] at hres
  obtain ⟨q, h1, h2⟩ := h.wait t c hw hc hres
  rw [hq q h1] at h2
  cases h2

/-- What is seen when the wait of a task ends without its resource. -/
theorem KInv.cancelObs_res (h : KInv k) {q : Que} (hw : (k.sch.tcb t).taskState.isWait = true)
    (hq : (k.sch.tcb t).pwaitQueue = some q) (hres : q.isRes = true) :
    k.cancelObs t = [.cancel t (waitCall q (k.sch.tcb t).dataElem)] := by
  unfold Kernel.cancelObs
  rw [h.call t q hq hres]
  simp only [hw, if_true]

theorem KInv.cancelObs_silent (h : KInv k)
    (hq : ∀ q, (k.sch.tcb t).pwaitQueue = some q → q.isRes = false) :
    ∀ o ∈ k.cancelObs t, o.silent = true := by
  unfold Kernel.cancelObs
  intro o ho
  cases hc : k.pend t with
  | none =>
    rw [hc] at ho
    cases ho
  | some c =>
    rw [hc] at ho
    dsimp only at ho
    split at ho
    · rename_i hw
      rw [List.mem_singleton.mp ho]
      simp [Obs.silent, h.pend_free hw hq c hc]
    · cases ho

/-- A task waits for a resource or for none. -/
theorem waits_cases (s : Sched) (t : TaskId) :
    (∃ q, (s.tcb t).pwaitQueue = some q ∧ q.isRes = true) ∨
      ∀ q, (s.tcb t).pwaitQueue = some q → q.isRes = false := by
  cases hq : (s.tcb t).pwaitQueue with
  | none =>
    exact .inr fun q hc => by cases hc
  | some q =>
    cases hres : q.isRes with
    | true => exact .inl ⟨q, rfl, hres⟩
    | false =>
      refine .inr fun q' hc => ?_
      rw [← Option.some.inj hc]
      exact hres

/-- A step of a task that is in no call for a resource, neither before nor after. -/
theorem acts_free {pend : TaskId → Option Call} (h : KInv k) (hs : SInv none s)
    (hf : Frame t k.sch s) (hw : ∀ q, (k.sch.tcb t).pwaitQueue = some q → q.isRes = false)
    (hw' : ∀ q, (s.tcb t).pwaitQueue = some q → q.isRes = false ∧ k.live q = true)
    (hp : ∀ u, u ≠ t → pend u = k.pend u) (hc : ∀ c, k.pend t = some c → c.isRes = false)
    (hc' : ∀ c, pend t = some c → c.isRes = false) (ho : ∀ o ∈ obs, o.silent = true) :
    Acts a k obs { k with sch := s, pend := pend } := by
  refine Act.acts ?_ hs
  have hfree := hf.free h.sch.toQInv hs.toQInv hw fun q hq => (hw' q hq).1
  refine Act.free hfree ⟨rfl, rfl, rfl⟩ hp (grows_refl k s pend) hc hc' (fun q hq => ?_) ho
  exact (grows_refl k s pend).live q (hw' q hq).2

/-- A task that waits for no resource starts again. -/
theorem acts_reset {pend : TaskId → Option Call} (h : KInv k) (hs : SInv none s)
    (hf : Frame t k.sch s) (hw : ∀ q, (k.sch.tcb t).pwaitQueue = some q → q.isRes = false)
    (hw' : (s.tcb t).pwaitQueue = none) (hp : ∀ u, u ≠ t → pend u = k.pend u)
    (hc : pend t = none) (ho : ∀ o ∈ obs, o.silent = true) :
    Acts a k obs { k with sch := s, pend := pend } := by
  refine Act.acts ?_ hs
  refine Act.reset (t := t) (hf.free h.sch.toQInv hs.toQInv hw fun q hq => ?_) hw' ⟨rfl, rfl, rfl⟩
    hp (grows_refl k s pend) hc ho
  rw [hw'] at hq
  cases hq

theorem none_res {b : Option Que} (hb : b = none) {p : Que → Prop} : ∀ q, b = some q → p q := by
  intro q hq
  rw [hb] at hq
  cases hq

theorem none_call {c : Option Call} (hc : c = none) {p : Call → Prop} : ∀ d, c = some d → p d := by
  intro d hd
  rw [hc] at hd
  cases hd

theorem update_call {pend : TaskId → Option Call} {c : Call} (hc : c.isRes = false) :
    ∀ d, Function.update pend t (some c) t = some d → d.isRes = false := by
  intro d hd
  rw [Function.update_self] at hd
  rw [← Option.some.inj hd]
  exact hc

theorem silent_cons {o : Obs} (ho : o.silent = true) (hos : ∀ o ∈ obs, o.silent = true) :
    ∀ x ∈ o :: obs, x.silent = true := by
  intro x hx
  rcases List.mem_cons.mp hx with rfl | hx
  · exact ho
  · exact hos x hx

theorem silent_nil : ∀ o ∈ ([] : List Obs), o.silent = true := fun o ho => by cases ho

/-! ## Services -/

theorem acts_create (h : KInv k) (t : TaskId) (priority : Int) (argsOk : Bool) (opt : CreateOpt)
    (ht : t ≠ timerTask) {r : Res}
    (hr : taskStep k (.create t priority argsOk opt) = some r) : Acts a k r.2 r.1 := by
  have hs := h.sch.create t priority argsOk opt ht
  unfold taskStep at hr
  dsimp only at hr
  split at hr
  · rename_i hok
    cases hr
    -- the control block was dormant and in no queue
    have hid : (k.sch.tcb t).idTask = false := by
      unfold tnTaskCreate at hok
      split at hok
      · cases hok
      split at hok
      · cases hok
      · rename_i hc
        simp only [not_or, Bool.not_eq_true] at hc
        exact hc.2.2.2
    have hd := (h.sch.ok t).dormant hid
    have hp : (k.sch.tcb t).pwaitQueue = none := (h.sch.ok t).pwait_none (by rw [hd]; rfl)
    have hp' : ((tnTaskCreate t priority argsOk opt k.sch).2.tcb t).pwaitQueue = none := by
      unfold tnTaskCreate
      split
      · exact hp
      split
      · exact hp
      dsimp only
      split
      · rw [taskToRunnable_tcb]
      · exact taskSetDormantState_pwait t _
    exact acts_reset h hs (tnTaskCreate_frame t priority argsOk opt k.sch) (none_res hp) hp'
      (fun u hu => Function.update_of_ne hu _ _) (Function.update_self _ _ _)
      (silent_cons rfl silent_nil)
  · rename_i hok
    cases hr
    refine acts_retSch hs ?_
    unfold tnTaskCreate at hok ⊢
    split
    · exact .refl _
    split
    · exact .refl _
    · rename_i h1 h2
      rw [if_neg h1, if_neg h2] at hok
      exact absurd rfl hok

theorem acts_sleep (h : KInv k) (timeout : BitVec 32)
    (hr : (k.sch.tcb k.sch.currRunTask).taskState = .runnable)
    (hp : k.pend k.sch.currRunTask = none) (hsys : isSystem k.sch.currRunTask = false) :
    Acts a k (k.sleep timeout).2 (k.sleep timeout).1 := by
  have hs := h.sch.sleep timeout hr hsys
  have hw := (h.sch.ok k.sch.currRunTask).pwait_none (by rw [hr]; rfl)
  unfold Kernel.sleep
  unfold tnTaskSleep at hs ⊢
  by_cases h0 : timeout = 0
  · simp only [if_pos h0] at hs ⊢
    exact acts_retSch hs (.refl _)
  simp only [if_neg h0] at hs ⊢
  by_cases hwk : 0 < (k.sch.tcb k.sch.currRunTask).wakeupCount
  · simp only [if_pos hwk] at hs ⊢
    have hq : Quiet k.sch (k.sch.setTcb k.sch.currRunTask fun b =>
      { b with wakeupCount := b.wakeupCount - 1 }) := quiet_setTcb k.sch _ rfl
    exact acts_retSch hs hq
  · simp only [if_neg hwk] at hs ⊢
    refine acts_free h hs (taskCurrToWaitAction_frame none .sleep timeout k.sch) (none_res hw)
      (none_res ?_) (fun u hu => Function.update_of_ne hu _ _) (none_call hp) (update_call rfl)
      (silent_cons rfl silent_nil)
    rw [taskCurrToWaitAction_tcb _ _ _ _ hw]

theorem acts_wakeup (h : KInv k) (t : TaskId) :
    Acts a k (k.wakeup t).2 (k.wakeup t).1 := by
  have hs := h.sch.wakeup t
  unfold Kernel.wakeup
  dsimp only
  by_cases hc : (k.sch.tcb t).idTask = true ∧ (k.sch.tcb t).taskState.isWait = true ∧
      (k.sch.tcb t).taskWaitReason = some .sleep
  · rw [if_pos hc]
    have hd : (k.sch.tcb t).taskState ≠ .dormant := by
      intro hd
      rw [hd] at hc
      cases hc.2.1
    have hw := (h.sch.ok t).sleep hc.2.1 hc.2.2
    have heq : (tnTaskWakeup t k.sch).2 = (taskWaitComplete t false k.sch).2 := by
      unfold tnTaskWakeup
      simp [hc.1, hd, hc.2]
    rw [heq] at hs ⊢
    refine acts_free h hs (waitComplete_frame t false k.sch) (none_res hw)
      (none_res (congrArg WaitView.que (waitComplete_view t false k.sch))) (fun u _ => rfl)
      (h.pend_free hc.2.1 (none_res hw)) (h.pend_free hc.2.1 (none_res hw))
      (silent_cons rfl (silent_cons rfl silent_nil))
  · rw [if_neg hc]
    refine acts_quiet hs ?_ (silent_cons rfl silent_nil)
    unfold tnTaskWakeup
    dsimp only
    split
    · exact .refl _
    split
    · exact .refl _
    split
    · rename_i hid _ hw
      exact absurd ⟨by simpa using hid, hw⟩ hc
    split
    · dsimp only
      exact quiet_setTcb k.sch _ rfl
    · exact .refl _

/-- A wait that ends without what it waits for, in a task of its own. -/
theorem acts_endWait (h : KInv k) {s : Sched} (hs : SInv none s) (hf : Frame t k.sch s)
    (hw : (k.sch.tcb t).taskState.isWait = true) (hw' : (s.tcb t).taskState.isWait = false)
    (hend : ∀ q, (k.sch.tcb t).pwaitQueue = some q → q.isRes = true →
      a.release t ∨ (s.tcb t).taskWaitRc = .timeout ∧
        (s.tcb t).dataElem = (k.sch.tcb t).dataElem) :
    Acts a k (k.cancelObs t) { k with sch := s } := by
  have hl := hf.leave hs.toQInv hw'
  rcases waits_cases k.sch t with ⟨q, hq, hres⟩ | hnr
  · rw [h.cancelObs_res hw hq hres]
    refine Act.acts ?_ hs
    rcases hend q hq hres with ha | hrc
    · exact Act.release hl hq hres ⟨rfl, rfl, rfl⟩ rfl (grows_sch k s) ha
    · exact Act.cancel hl hq hres hrc.2 ⟨rfl, rfl, rfl⟩ rfl (grows_sch k s) hrc.1
  · exact acts_free h hs hf hnr (none_res hl.after) (fun u _ => rfl) (h.pend_free hw hnr)
      (h.pend_free hw hnr) (h.cancelObs_silent hnr)

theorem cancelObs_nil (hw : (k.sch.tcb t).taskState.isWait = false) : k.cancelObs t = [] := by
  unfold Kernel.cancelObs
  cases k.pend t with
  | none => rfl
  | some c => simp [hw]

/-- The code of a call and what comes behind it. -/
theorem Acts.behind {k' : Kernel} {o : Obs} (h : KInv k) (ho : o.silent = true)
    (hr : Acts a k obs k') : Acts a k (o :: obs) k' :=
  (acts_silent h (silent_cons ho silent_nil)).trans hr

theorem acts_releaseWait (h : KInv k) (t : TaskId)
    (ha : ∀ q, (k.sch.tcb t).pwaitQueue = some q → q.isRes = true → a.release t) :
    Acts a k (k.releaseWait t).2 (k.releaseWait t).1 := by
  have hs := h.sch.releaseWait t
  unfold Kernel.releaseWait
  unfold tnTaskReleaseWait at hs ⊢
  dsimp only at hs ⊢
  apply Acts.behind h rfl
  by_cases hid : (k.sch.tcb t).idTask = true
  · simp only [hid, Bool.not_true, Bool.false_eq_true, if_false, if_true] at hs ⊢
    by_cases hw : (k.sch.tcb t).taskState.isWait = true
    · simp only [hw, Bool.not_true, Bool.false_eq_true, if_false] at hs ⊢
      exact acts_endWait h hs (waitComplete_frame t true k.sch) hw
        (congrArg WaitView.wait (waitComplete_view t true k.sch))
        fun q hq hres => .inl (ha q hq hres)
    · rw [Bool.not_eq_true] at hw
      simp only [hw, Bool.not_false, if_true] at hs ⊢
      rw [cancelObs_nil hw]
      exact .nil k
  · rw [Bool.not_eq_true] at hid
    simp only [hid, Bool.not_false, if_true, Bool.false_eq_true, if_false]
    exact .nil k

theorem activateAgain_frame (t : TaskId) (s : Sched) : Frame t s (activateAgain t s) := by
  unfold activateAgain
  split
  · exact (frame_setTcb s t _).trans (taskToRunnable_frame t _)
  · exact .refl t s

/-- A task that starts again waits for nothing. -/
theorem activateAgain_wait (hw : (s.tcb t).taskState.isWait = false)
    (hp : (s.tcb t).pwaitQueue = none) :
    ((activateAgain t s).tcb t).taskState.isWait = false ∧
      ((activateAgain t s).tcb t).pwaitQueue = none := by
  unfold activateAgain
  split
  · rw [taskToRunnable_tcb]
    exact ⟨rfl, rfl⟩
  · exact ⟨hw, hp⟩

theorem taskSetDormantState_frame (t : TaskId) (s : Sched) :
    Frame t s (taskSetDormantState t s) := frame_setTcb s t _

theorem exitTask_frame (attr : Bool) (s : Sched) :
    Frame s.currRunTask s (exitTask attr s) := by
  have h := ((taskToNonRunnable_frame s.currRunTask s).trans
    (taskSetDormantState_frame s.currRunTask _)).trans (activateAgain_frame s.currRunTask _)
  unfold exitTask
  dsimp only
  split
  · exact h.trans (frame_setTcb _ _ _)
  · exact h

theorem exitTask_pwait (attr : Bool) (s : Sched) :
    ((exitTask attr s).tcb s.currRunTask).pwaitQueue = none := by
  have h := (activateAgain_wait (s := taskSetDormantState s.currRunTask
    (taskToNonRunnable s.currRunTask s)) (t := s.currRunTask)
      (by rw [taskSetDormantState_state]; rfl) (taskSetDormantState_pwait _ _)).2
  unfold exitTask
  dsimp only
  split
  · rw [setTcb_same]
    exact h
  · exact h

theorem acts_exit (h : KInv k) (attr : Bool)
    (hr : (k.sch.tcb k.sch.currRunTask).taskState = .runnable)
    (hp : k.pend k.sch.currRunTask = none) (hsys : isSystem k.sch.currRunTask = false)
    (ha : attr = true → (k.sch.tcb k.sch.currRunTask).activateCount = 0) :
    Acts a k [] { k with sch := tnTaskExit attr k.sch } := by
  have hs := h.sch.exitTask attr hr hsys ha
  have hw := (h.sch.ok k.sch.currRunTask).pwait_none (by rw [hr]; rfl)
  have h1 : Acts a k [] { k with sch := exitTask attr k.sch } :=
    acts_reset h hs (exitTask_frame attr k.sch) (none_res hw) (exitTask_pwait attr k.sch)
      (fun u _ => rfl) hp silent_nil
  have h2 : Acts a { k with sch := exitTask attr k.sch } [] { k with sch := tnTaskExit attr k.sch } :=
    acts_quiet hs.switchContext (switchContext_quiet _) silent_nil
  exact h1.trans h2

theorem terminateQueues_frame (t : TaskId) (s : Sched) : Frame t s (terminateQueues t s) := by
  unfold terminateQueues
  split
  · exact taskToNonRunnable_frame t s
  split
  · have h := frame_removeEntry t s
    have h1 : Frame t s { queueRemoveEntry t s with
      blockedTasksList := (queueRemoveEntry t s).blockedTasksList.erase t } :=
        ⟨h.tcb, h.order, h.timeouts, h.curr⟩
    exact h1.trans (frame_timerQueueRemove t _)
  · exact .refl t s

theorem acts_terminate (h : KInv k) (hsys : isSystem t = false) :
    Acts a k (k.terminate t).2 (k.terminate t).1 := by
  have hs := h.sch.terminate hsys
  unfold Kernel.terminate
  dsimp only
  split
  · rename_i hok
    apply Acts.behind h (by rw [hok]; rfl)
    have heq : (tnTaskTerminate t k.sch).2 =
        activateAgain t (taskSetDormantState t (terminateQueues t k.sch)) := by
      unfold tnTaskTerminate at hok ⊢
      dsimp only at hok ⊢
      split at hok
      · cases hok
      split at hok
      · cases hok
      · rename_i h1 h2
        rw [if_neg h1, if_neg h2]
    rw [heq] at hs ⊢
    have hf : Frame t k.sch (activateAgain t (taskSetDormantState t (terminateQueues t k.sch))) :=
      ((terminateQueues_frame t k.sch).trans (taskSetDormantState_frame t _)).trans
        (activateAgain_frame t _)
    obtain ⟨hw1, hw2⟩ := activateAgain_wait (s := taskSetDormantState t (terminateQueues t k.sch))
      (t := t) (by rw [taskSetDormantState_state]; rfl) (taskSetDormantState_pwait t _)
    rcases waits_cases k.sch t with ⟨q, hq, hres⟩ | hnr
    · rw [h.cancelObs_res ((h.sch.ok t).wait q hq).1 hq hres]
      refine Act.acts (Act.resetWait (hf.leave hs.toQInv hw1) hq hres ⟨rfl, rfl, rfl⟩
        (fun u hu => Function.update_of_ne hu _ _) (grows_refl _ _ _)
        (Function.update_self _ _ _)) hs
    · exact acts_reset h hs hf hnr hw2 (fun u hu => Function.update_of_ne hu _ _)
        (Function.update_self _ _ _) (h.cancelObs_silent hnr)
  · rename_i hok
    refine acts_retSch hs ?_
    unfold tnTaskTerminate at hok ⊢
    dsimp only at hok ⊢
    split
    · exact .refl _
    split
    · exact .refl _
    · rename_i h1 h2
      rw [if_neg h1, if_neg h2] at hok
      exact absurd rfl hok

/-! ## The tick -/

theorem roundRobin_quiet (s : Sched) : Quiet s (roundRobin s) := by
  unfold roundRobin
  dsimp only
  have h1 : Quiet s (s.setTcb s.currRunTask fun b => { b with tsliceCount := b.tsliceCount + 1 }) :=
    quiet_setTcb s _ rfl
  split
  · exact .refl s
  split
  · have h2 := h1.trans (quiet_setTcb (f := fun b => { b with tsliceCount := 0 })
      (s.setTcb s.currRunTask fun b => { b with tsliceCount := b.tsliceCount + 1 })
      s.currRunTask rfl)
    refine ⟨fun q hq => ?_, h2.view⟩
    refine (Function.update_of_ne ?_ _ _).trans (h2.que q hq)
    rintro rfl
    cases hq
  · exact h1

/-- `tn_tick_int_processing` behind the round-robin. -/
def wakeTimer (s : Sched) : Sched :=
  let s := (queueRemoveEntry timerTask s).setTcb timerTask fun b =>
    { b with
      taskWaitReason := none, taskState := .runnable, pwaitQueue := none, taskWaitRc := .noErr }
  let s := queueAddTail (.ready 0) timerTask s
  { s with
    readyToRunBmp := s.readyToRunBmp ||| BitVec.twoPow 32 0
    nextTaskToRun := some timerTask }

theorem tnTickIntProcessing_eq (s : Sched) : tnTickIntProcessing s = wakeTimer (roundRobin s) := rfl

theorem wakeTimer_frame (s : Sched) : Frame timerTask s (wakeTimer s) := by
  have h := ((frame_removeEntry timerTask s).trans (frame_setTcb _ timerTask fun b =>
    { b with taskWaitReason := none, taskState := .runnable, pwaitQueue := none
             taskWaitRc := .noErr })).trans (frame_addTail (.ready 0) timerTask _)
  exact ⟨h.tcb, h.order, h.timeouts, h.curr⟩

theorem acts_tick (h : KInv k) : Acts a k [] { k with sch := tnTickIntProcessing k.sch } := by
  have hs := h.sch.tick
  have h1 : Acts a k [] { k with sch := roundRobin k.sch } :=
    acts_quiet h.sch.roundRobin (roundRobin_quiet k.sch) silent_nil
  have hk := h1.kinv h
  have hw := ((h.sch.roundRobin.ok timerTask).timer rfl).1
  have h2 : Acts a { k with sch := roundRobin k.sch } []
      { k with sch := tnTickIntProcessing k.sch } := by
    rw [tnTickIntProcessing_eq] at hs ⊢
    refine acts_free hk hs (wakeTimer_frame _) (none_res hw) (none_res ?_) (fun u _ => rfl) h.timer
      h.timer silent_nil
    have := setTcb_same (queueRemoveEntry timerTask (roundRobin k.sch)) timerTask fun b =>
      { b with
        taskWaitReason := none, taskState := .runnable, pwaitQueue := none, taskWaitRc := .noErr }
    exact congrArg Tcb.pwaitQueue this
  exact h1.trans h2

/-! ## The timer task -/

/-- What is seen of one task of `tn_wait_timeout_list`. -/
def timeoutObs (k : Kernel) (t : TaskId) : List Obs :=
  if expires (k.sch.tcb t) then k.cancelObs t else []

theorem acts_timeoutTask (h : KInv k) (hw : (k.sch.tcb t).taskState.isWait = true) :
    Acts a k (timeoutObs k t) { k with sch := timeoutTask k.sch t } := by
  have hs := h.sch.timeoutTask hw
  unfold timeoutObs expires
  unfold timeoutTask at hs ⊢
  by_cases ht : ticks (k.sch.tcb t) = true
  · rw [if_pos ht] at hs ⊢
    dsimp only at hs ⊢
    rw [setTcb_same] at hs ⊢
    by_cases h0 : (k.sch.tcb t).tickCount - 1 = 0
    · rw [if_pos h0] at hs
      simp only [ht, h0, Bool.true_and, if_true, decide_true]
      have hview := waitComplete_view t true
        (k.sch.setTcb t fun b => { b with tickCount := b.tickCount - 1 })
      refine acts_endWait h hs (((frame_setTcb _ t _).trans (waitComplete_frame t true _)).trans
        (frame_setTcb _ t _)) hw ?_ fun q hq hres => .inr ⟨?_, ?_⟩
      · rw [setTcb_same]
        exact congrArg WaitView.wait hview
      · rw [setTcb_same]
      · rw [setTcb_same]
        refine (congrArg WaitView.data hview).trans ?_
        rw [setTcb_same]
    · rw [if_neg h0] at hs
      simp only [ht, h0, Bool.true_and, if_false, decide_false, Bool.false_eq_true]
      exact acts_quiet hs (quiet_setTcb k.sch t rfl) silent_nil
  · rw [if_neg ht] at hs ⊢
    rw [Bool.not_eq_true] at ht
    simp only [ht, Bool.false_and, Bool.false_eq_true, if_false]
    exact .nil k

theorem acts_timeouts (l : List TaskId) (h : KInv k) (hn : l.Nodup)
    (hw : ∀ t ∈ l, (k.sch.tcb t).taskState.isWait = true) :
    Acts a k (l.flatMap (timeoutObs k)) { k with sch := l.foldl timeoutTask k.sch } := by
  induction l generalizing k with
  | nil => exact .nil k
  | cons t l ih =>
    obtain ⟨htl, hn⟩ := List.nodup_cons.mp hn
    have h1 := acts_timeoutTask (a := a) h (hw t List.mem_cons_self)
    have hsame : ∀ u ∈ l, (timeoutTask k.sch t).tcb u = k.sch.tcb u := by
      intro u hu
      refine (timeoutTask_frame k.sch t).tcb u ?_
      rintro rfl
      exact htl hu
    have h2 := ih (h1.kinv h) hn fun u hu => by
      rw [hsame u hu]
      exact hw u (List.mem_cons_of_mem t hu)
    rw [List.flatMap_cons]
    have hobs : l.flatMap (timeoutObs { k with sch := timeoutTask k.sch t }) =
        l.flatMap (timeoutObs k) := by
      apply List.flatMap_congr
      intro u hu
      unfold timeoutObs Kernel.cancelObs
      dsimp only
      rw [hsame u hu]
    rw [hobs] at h2
    exact h1.trans h2

theorem flatMap_filter (l : List TaskId) (p : TaskId → Bool) (f : TaskId → List Obs) :
    (l.filter p).flatMap f = l.flatMap fun t => if p t then f t else [] := by
  induction l with
  | nil => rfl
  | cons t l ih =>
    rw [List.filter_cons]
    split
    · rename_i hp
      simp [hp, ih]
    · rename_i hp
      simp [hp, ih]

theorem acts_timerLoop (h : KInv k) (hc : k.sch.currRunTask = timerTask)
    (hr : (k.sch.tcb timerTask).taskState = .runnable) :
    Acts a k k.timerLoop.2 k.timerLoop.1 := by
  have hs := h.sch.timerLoop hc hr
  have htm := ((h.sch.ok timerTask).timer rfl).2.1
  have hnot : timerTask ∉ k.sch.waitTimeoutList := fun hm =>
    ((h.sch.ok timerTask).timeouts.mp hm).2 htm
  obtain ⟨h1, h2⟩ := timeouts_frame k.sch.waitTimeoutList k.sch hnot
  have h3 := acts_timeouts (a := a) k.sch.waitTimeoutList h h.sch.timeoutsNodup fun t ht =>
    ((h.sch.ok t).timeouts.mp ht).1
  have hk := h3.kinv h
  unfold Kernel.timerLoop
  rw [flatMap_filter]
  have hw : ((k.sch.waitTimeoutList.foldl timeoutTask k.sch).tcb timerTask).pwaitQueue = none :=
    (((hk.sch).ok timerTask).timer rfl).1
  have h4 : Acts a { k with sch := k.sch.waitTimeoutList.foldl timeoutTask k.sch } []
      { k with sch := timerTaskLoop k.sch } := by
    have hf := taskCurrToWaitAction_frame none .sleep TN_WAIT_INFINITE
      (k.sch.waitTimeoutList.foldl timeoutTask k.sch)
    have hb := taskCurrToWaitAction_tcb none .sleep TN_WAIT_INFINITE
      (k.sch.waitTimeoutList.foldl timeoutTask k.sch)
    rw [h2, hc] at hf hb
    refine acts_free hk hs hf (none_res hw) (none_res ?_) (fun u _ => rfl) h.timer h.timer silent_nil
    unfold timerTaskLoop
    rw [hb hw]
  have := h3.trans h4
  rwa [List.append_nil] at this

/-! ## The return of a blocked call -/

theorem acts_back (h : KInv k) (hr : (k.sch.tcb k.sch.currRunTask).taskState = .runnable) :
    Acts a k k.back.2 k.back.1 := by
  unfold Kernel.back
  dsimp only
  have hw : (k.sch.tcb k.sch.currRunTask).taskState.isWait = false := by
    rw [hr]
    rfl
  have hq := (h.sch.ok k.sch.currRunTask).pwait_none hw
  cases hc : k.pend k.sch.currRunTask with
  | none => exact .nil k
  | some c =>
    dsimp only
    cases hres : c.isRes with
    | true =>
      exact Act.acts (Act.back (.refl k.sch) hw hc hres ⟨rfl, rfl, rfl⟩
        (fun u hu => Function.update_of_ne hu _ _) (Function.update_self _ _ _)
        (grows_refl _ _ _)) h.sch
    | false =>
      refine acts_free h h.sch (.refl _ _) (none_res hq) (none_res hq)
        (fun u hu => Function.update_of_ne hu _ _) (fun d hd => ?_)
        (none_call (by rw [Function.update_self])) (silent_cons ?_ silent_nil)
      · rw [hc] at hd
        rw [← Option.some.inj hd]
        exact hres
      · simp [Obs.silent, hres]

end TnKernel
