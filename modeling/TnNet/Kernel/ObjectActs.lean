import TnNet.Kernel.TaskActs

/-!
# The services of the objects as acts

The services of the semaphores, data queues, event flags and memory pools, for a running task that
is in no call, and for an interrupt handler where the service does not block.
-/

set_option autoImplicit false

namespace TnKernel

variable {k k' : Kernel} {t u : TaskId} {obs : List Obs} {a : Allow} {s : Sched}

/-! ## Writing to an object -/

theorem grows_setSem {i : Nat} {x : Sem} (hx : (k.sem i).idSem = true → x.idSem = true) :
    Grows k (k.setSem i x) := by
  refine ⟨fun q hq => ?_, fun _ _ h => .inl h⟩
  cases q with
  | sem j =>
    show (Function.update k.sem i x j).idSem = true
    by_cases hj : j = i
    · subst hj
      rw [Function.update_self]
      exact hx hq
    · rw [Function.update_of_ne hj]
      exact hq
  | _ => exact hq

theorem grows_setDque {i : Nat} {x : Dque} (hx : (k.dque i).idDque = true → x.idDque = true) :
    Grows k (k.setDque i x) := by
  have key : ∀ j, (k.dque j).idDque = true → (Function.update k.dque i x j).idDque = true := by
    intro j hj
    by_cases hji : j = i
    · subst hji
      rw [Function.update_self]
      exact hx hj
    · rw [Function.update_of_ne hji]
      exact hj
  refine ⟨fun q hq => ?_, fun _ _ h => .inl h⟩
  cases q with
  | wsend j => exact key j hq
  | wreceive j => exact key j hq
  | _ => exact hq

theorem grows_setEvf {i : Nat} {x : Evf} (hx : (k.evf i).idEvent = true → x.idEvent = true) :
    Grows k (k.setEvf i x) := by
  refine ⟨fun q hq => ?_, fun _ _ h => .inl h⟩
  cases q with
  | event j =>
    show (Function.update k.evf i x j).idEvent = true
    by_cases hj : j = i
    · subst hj
      rw [Function.update_self]
      exact hx hq
    · rw [Function.update_of_ne hj]
      exact hq
  | _ => exact hq

theorem grows_setFmp {i : Nat} {x : Fmp} (hx : (k.fmp i).idFmp = true → x.idFmp = true) :
    Grows k (k.setFmp i x) := by
  refine ⟨fun q hq => ?_, fun _ _ h => .inl h⟩
  cases q with
  | fmp j =>
    show (Function.update k.fmp i x j).idFmp = true
    by_cases hj : j = i
    · subst hj
      rw [Function.update_self]
      exact hx hq
    · rw [Function.update_of_ne hj]
      exact hq
  | _ => exact hq

theorem grows_setMutex {i : Nat} {x : Mutex} (hx : (k.mutex i).idMutex = true → x.idMutex = true)
    (hh : ∀ h, x.holder = some h → (k.mutex i).holder = some h ∨ h ≠ idleTask) :
    Grows k (k.setMutex i x) := by
  refine ⟨fun q hq => ?_, fun m h hm => ?_⟩
  · cases q with
    | mutex j =>
      show (Function.update k.mutex i x j).idMutex = true
      by_cases hj : j = i
      · subst hj
        rw [Function.update_self]
        exact hx hq
      · rw [Function.update_of_ne hj]
        exact hq
    | _ => exact hq
  · have hm' : (Function.update k.mutex i x m).holder = some h := hm
    by_cases hmi : m = i
    · subst hmi
      rw [Function.update_self] at hm'
      exact hh h hm'
    · rw [Function.update_of_ne hmi] at hm'
      exact .inl hm'

theorem Grows.trans {k₁ : Kernel} (h : Grows k k₁) (h' : Grows k₁ k') : Grows k k' := by
  refine ⟨fun q hq => h'.live q (h.live q hq), fun m u hu => ?_⟩
  rcases h'.holder m u hu with hc | hc
  · exact h.holder m u hc
  · exact .inr hc

/-- `queue_reset` of the wait list of a new object. -/
theorem KInv.reset_que (h : KInv k) {q : Que} (hq : q.isReady = false) (hl : k.live q = false) :
    { k.sch with que := Function.update k.sch.que q [] } = k.sch := by
  have : Function.update k.sch.que q [] = k.sch.que := by
    rw [← h.que_nil hq hl]
    exact Function.update_eq_self q k.sch.que
  rw [this]

/-- A call that returns at once and is not about a resource. -/
theorem acts_ret (h : KInv k) {c : Call} {rc : Terr} {data : Nat}
    (hc : c.isRes = false ∨ rc ≠ .noErr) : Acts a k (k.ret c rc data).2 (k.ret c rc data).1 := by
  refine acts_silent h (silent_cons ?_ silent_nil)
  simp only [Obs.silent, Bool.or_eq_true, Bool.not_eq_true', decide_eq_true_eq]
  exact hc

/-! ## Blocking and waking -/

theorem taskToNonRunnable_que (t : TaskId) (s : Sched) (q : Que) :
    (taskToNonRunnable t s).que q = (s.que q).erase t := by
  unfold taskToNonRunnable findNextTaskToRun
  dsimp only
  repeat' split
  all_goals rfl

/-- **`task_curr_to_wait_action`.** -/
theorem SInv.block_join (h : SInv none s) {q : Que} {reason : WaitReason} {timeout : BitVec 32}
    (hr : (s.tcb s.currRunTask).taskState = .runnable) (hq : q.isRes = true) :
    Join s.currRunTask q s (taskCurrToWaitAction (some q) reason timeout s) := by
  have hw := (h.ok s.currRunTask).pwait_none (by rw [hr]; rfl)
  have hb := taskCurrToWaitAction_tcb (some q) reason timeout s hw
  have hque : ∀ q', (taskCurrToWaitAction (some q) reason timeout s).que q' =
      Function.update (taskToNonRunnable s.currRunTask s).que q
        ((taskToNonRunnable s.currRunTask s).que q ++ [s.currRunTask]) q' := by
    intro q'
    rw [taskCurrToWaitAction_eq, joinTimeouts_que]
    rfl
  have hsame : ∀ q', q'.isRes = true →
      (taskToNonRunnable s.currRunTask s).que q' = s.que q' := by
    intro q' hq'
    rw [taskToNonRunnable_que]
    exact List.erase_of_not_mem
      (h.toQInv.not_mem (Que.not_ready_of_isRes hq') (by rw [hw]; simp))
  constructor
  case que => rw [hque, Function.update_self, hsame q hq]
  case queNe =>
    intro q' hq' hne
    rw [hque, Function.update_of_ne hne, hsame q' hq']
  case view =>
    intro u hu
    rw [(taskCurrToWaitAction_frame (some q) reason timeout s).tcb u hu]
  case wait => rw [hb]; rfl
  case after => rw [hb]

/-- The running task and the call it may block in. -/
structure Runs (k : Kernel) : Prop where
  run : (k.sch.tcb k.sch.currRunTask).taskState = .runnable
  pend : k.pend k.sch.currRunTask = none
  user : isSystem k.sch.currRunTask = false

theorem Runs.ne_timer (h : Runs k) : k.sch.currRunTask ≠ timerTask ∧ k.sch.currRunTask ≠ idleTask := by
  simpa [isSystem] using h.user

theorem Runs.block (hr : Runs k) (h : SInv none k.sch) {q : Que} (hq : q.isReady = false)
    {reason : WaitReason} {timeout : BitVec 32} (hrs : reason ≠ .sleep) :
    SInv none (taskCurrToWaitAction (some q) reason timeout k.sch) :=
  h.block hr.run hr.ne_timer.2 (fun hc => absurd hc hr.ne_timer.1) fun q' hc => by
    rw [← Option.some.inj hc]
    exact ⟨hq, hrs⟩

/-- The running task blocks in a call for a resource. -/
theorem acts_blockIn (h : KInv k) (hr : Runs k) {q : Que} {data : Nat} {reason : WaitReason}
    {timeout : BitVec 32} (hq : q.isRes = true) (hrs : reason ≠ .sleep) (hl : k.live q = true)
    (hx : Exhausted k q data) (hd : (k.sch.tcb k.sch.currRunTask).dataElem = data) :
    Acts a k (k.blockIn (waitCall q data) q reason timeout).2
      (k.blockIn (waitCall q data) q reason timeout).1 := by
  have hw := (h.sch.ok k.sch.currRunTask).pwait_none (by rw [hr.run]; rfl)
  refine Act.acts ?_ (hr.block h.sch (Que.not_ready_of_isRes hq) hrs)
  refine Act.block (h.sch.block_join hr.run hq) hq hl hx hr.ne_timer.1 hw ?_ ⟨rfl, rfl, rfl⟩ hr.pend
    (fun u hu => Function.update_of_ne hu _ _) (Function.update_self _ _ _) (grows_refl _ _ _)
  show ((taskCurrToWaitAction (some q) reason timeout k.sch).tcb _).dataElem = data
  rw [taskCurrToWaitAction_tcb _ _ _ _ hw]
  exact hd

/-- The running task blocks in another call. -/
theorem acts_blockFree (h : KInv k) (hr : Runs k) {q : Que} {c : Call} {reason : WaitReason}
    {timeout : BitVec 32} (hq : q.isReady = false) (hres : q.isRes = false) (hc : c.isRes = false)
    (hrs : reason ≠ .sleep) (hl : k.live q = true) :
    Acts a k (k.blockIn c q reason timeout).2 (k.blockIn c q reason timeout).1 := by
  have hw := (h.sch.ok k.sch.currRunTask).pwait_none (by rw [hr.run]; rfl)
  refine acts_free h (hr.block h.sch hq hrs) (taskCurrToWaitAction_frame _ _ _ _) (none_res hw)
    (fun q' hq' => ?_) (fun u hu => Function.update_of_ne hu _ _) (none_call hr.pend)
    (update_call hc) (silent_cons (by simp [Obs.silent, hc]) silent_nil)
  rw [taskCurrToWaitAction_tcb _ _ _ _ hw] at hq'
  rw [← Option.some.inj hq']
  exact ⟨hres, hl⟩

/-- The task at the head of a wait list is woken. -/
theorem KInv.wakeHead (h : KInv k) {q : Que} {l : List TaskId} (hq : q.isReady = false)
    (hl : k.sch.que q = t :: l) :
    SInv none (k.wakeHead q t).sch ∧ Leave t k.sch (k.wakeHead q t).sch ∧
      ((k.wakeHead q t).sch.tcb t).waitView = ⟨false, none, .noErr, (k.sch.tcb t).dataElem⟩ := by
  obtain ⟨h1, h2⟩ := h.sch.wakeHead hq hl
  have heq : (k.wakeHead q t).sch = (taskWaitComplete t true k.sch).2 := congrArg Prod.snd h1
  rw [heq]
  exact ⟨h.sch.waitComplete h2, h.sch.waitComplete_leave h2, waitComplete_view t true k.sch⟩

theorem KInv.grants (h : KInv k) {q : Que} {l : List TaskId} (hq : q.isReady = false)
    (hl : k.sch.que q = t :: l) (hs : k'.sch = (k.wakeHead q t).sch) (hp : k'.pend = k.pend)
    (hg : Grows k k') : Grants t q (k.sch.tcb t).dataElem k k' ∧ SInv none k'.sch := by
  obtain ⟨h1, h2, h3⟩ := h.wakeHead hq hl
  refine ⟨⟨by rw [hl]; rfl, by rw [hs]; exact h2, ?_, ?_, hp, hg⟩, by rw [hs]; exact h1⟩
  · rw [hs]
    exact congrArg WaitView.rc h3
  · rw [hs]
    exact congrArg WaitView.data h3

/-- The task at the head of a wait list is woken, and nothing else happens. -/
theorem KInv.wakeHeadGrants (h : KInv k) {q : Que} {l : List TaskId} (hq : q.isReady = false)
    (hl : k.sch.que q = t :: l) :
    Grants t q (k.sch.tcb t).dataElem k (k.wakeHead q t) ∧ SInv none (k.wakeHead q t).sch :=
  h.grants hq hl rfl rfl (grows_sch k _)

/-- The task at the head of a wait list is woken with a datum. -/
theorem KInv.grantsData (h : KInv k) {q : Que} {l : List TaskId} (data : Nat)
    (hq : q.isReady = false) (hl : k.sch.que q = t :: l) :
    Grants t q data k ((k.setDataElem t data).wakeHead q t) ∧
      SInv none ((k.setDataElem t data).wakeHead q t).sch := by
  have hs : SInv none (k.setDataElem t data).sch :=
    h.sch.keep (t := t) (f := fun b => { b with dataElem := data }) (.of_eq rfl id)
  obtain ⟨h1, h2⟩ := hs.wakeHead hq hl
  have heq : ((k.setDataElem t data).wakeHead q t).sch =
      (taskWaitComplete t true (k.setDataElem t data).sch).2 := congrArg Prod.snd h1
  have hleave := hs.waitComplete_leave h2
  have hview := waitComplete_view t true (k.setDataElem t data).sch
  have hdata : ((k.setDataElem t data).sch.tcb t).dataElem = data := by
    unfold Kernel.setDataElem
    rw [setTcb_same]
  rw [heq]
  refine ⟨⟨by rw [hl]; rfl, ?_, ?_, ?_, rfl, grows_sch k _⟩, hs.waitComplete h2⟩
  · rw [heq]
    refine ⟨hleave.que, fun u hu => ?_, hleave.wait, hleave.after⟩
    rw [hleave.view u hu]
    exact congrArg Tcb.waitView (setTcb_ne k.sch (fun b => { b with dataElem := data }) hu)
  · rw [heq]
    exact congrArg WaitView.rc hview
  · rw [heq]
    exact (congrArg WaitView.data hview).trans hdata

/-! ## Semaphores -/

theorem acts_semCreate (h : KInv k) (i : Nat) (startValue maxVal : Int) :
    Acts a k (tnSemCreate i startValue maxVal k).2 (tnSemCreate i startValue maxVal k).1 := by
  unfold tnSemCreate
  split
  · refine Act.acts (Act.semParam ⟨.refl _, rfl, grows_setSem id⟩ rfl rfl rfl ?_) h.sch
    exact silent_cons rfl silent_nil
  · rename_i hc
    simp only [not_or, Bool.not_eq_true] at hc
    rw [h.reset_que (q := .sem i) rfl hc.2.2.2]
    refine Act.acts (Act.semCreate ⟨.refl _, rfl, ?_⟩ hc.2.2.2 rfl rfl rfl) h.sch
    exact grows_setSem fun _ => rfl

theorem acts_semSignal (h : KInv k) (i : Nat) :
    Acts a k (tnSemSignal i k).2 (tnSemSignal i k).1 := by
  unfold tnSemSignal
  split
  · exact acts_ret h (.inr (by simp))
  split
  · exact acts_ret h (.inr (by simp))
  rename_i hid
  split
  · rename_i t l hl
    obtain ⟨h1, h2⟩ := h.wakeHeadGrants rfl hl
    exact Act.acts (Act.semGrant h1 ⟨rfl, rfl, rfl⟩) h2
  · rename_i hl
    split
    · exact Act.acts (Act.semSignal ⟨.refl _, rfl, grows_setSem id⟩ (by simpa using hid) hl rfl rfl rfl)
        h.sch
    · exact acts_ret h (.inr (by simp))

theorem acts_semAcquire (h : KInv k) (hr : Runs k) (i : Nat) (timeout : BitVec 32) :
    Acts a k (tnSemAcquire i timeout k).2 (tnSemAcquire i timeout k).1 := by
  unfold tnSemAcquire
  split
  · exact acts_ret h (.inr (by simp))
  split
  · exact acts_ret h (.inr (by simp))
  rename_i hid
  split
  · rename_i hc
    exact Act.acts (Act.semAcquire ⟨.refl _, rfl, grows_setSem id⟩ (by simpa using hid) hc rfl rfl
      rfl) h.sch
  · rename_i hc
    have hid' : (k.sem i).idSem = true := by simpa using hid
    exact acts_blockIn h hr (q := .sem i) rfl (by simp) hid' (Int.not_le.mp hc) rfl

theorem acts_semPolling (h : KInv k) (i : Nat) :
    Acts a k (tnSemPolling i k).2 (tnSemPolling i k).1 := by
  unfold tnSemPolling
  split
  · exact acts_ret h (.inr (by simp))
  split
  · exact acts_ret h (.inr (by simp))
  rename_i hid
  split
  · rename_i hc
    exact Act.acts (Act.semAcquire ⟨.refl _, rfl, grows_setSem id⟩ (by simpa using hid) hc rfl rfl
      rfl) h.sch
  · exact acts_ret h (.inr (by simp))

/-! ## Data queues -/

theorem dqueFifoWrite_idDque (d : Dque) (data : Nat) : (dqueFifoWrite d data).2.idDque = d.idDque := by
  unfold dqueFifoWrite
  repeat' split
  all_goals rfl

theorem dqueFifoRead_idDque (d : Dque) : (dqueFifoRead d).2.2.idDque = d.idDque := by
  unfold dqueFifoRead
  repeat' split
  all_goals rfl

theorem acts_queueCreate (h : KInv k) (i : Nat) (hasFifo : Bool) (numEntries : Int) :
    Acts a k (tnQueueCreate i hasFifo numEntries k).2 (tnQueueCreate i hasFifo numEntries k).1 := by
  unfold tnQueueCreate
  split
  · exact acts_ret h (.inl rfl)
  · rename_i hc
    simp only [not_or, Bool.not_eq_true] at hc
    have hq : Function.update (Function.update k.sch.que (.wsend i) []) (.wreceive i) [] =
        k.sch.que := by
      have h1 : k.sch.que (.wsend i) = [] := h.que_nil rfl hc.2
      have h2 : k.sch.que (.wreceive i) = [] := h.que_nil rfl hc.2
      rw [← h1, Function.update_eq_self, h1, ← h2, Function.update_eq_self]
    dsimp only
    rw [hq]
    refine Act.acts (Act.queueCreate (i := i) (n := if hasFifo then numEntries.toNat else 0)
      ⟨.refl _, rfl, ?_⟩ hc.2 rfl rfl rfl (silent_cons rfl silent_nil)) h.sch
    exact grows_setDque fun _ => rfl

theorem acts_queueSend (h : KInv k) (i data : Nat) {onFull : Kernel → Res}
    (hf : (k.dque i).idDque = true → k.sch.que (.wreceive i) = [] →
      (dqueFifoWrite (k.dque i) data).1 ≠ .noErr → Acts a k (onFull k).2 (onFull k).1) :
    Acts a k (queueSend i data onFull k).2 (queueSend i data onFull k).1 := by
  unfold queueSend
  split
  · exact acts_ret h (.inr (by simp))
  rename_i hid
  have hid' : (k.dque i).idDque = true := by simpa using hid
  split
  · rename_i t l hl
    obtain ⟨h1, h2⟩ := h.grantsData data rfl hl
    exact Act.acts (Act.sendGrant h1 ⟨rfl, rfl, rfl⟩) h2
  · rename_i hl
    split
    · rename_i hw
      refine Act.acts (Act.sendFifo ⟨.refl _, rfl, ?_⟩ hid' hl hw rfl rfl rfl) h.sch
      apply grows_setDque
      rw [dqueFifoWrite_idDque]
      exact id
    · rename_i hw
      exact hf hid' hl hw

theorem acts_tnQueueSend (h : KInv k) (hr : Runs k) (i data : Nat) (timeout : BitVec 32) :
    Acts a k (tnQueueSend i data timeout k).2 (tnQueueSend i data timeout k).1 := by
  unfold tnQueueSend
  split
  · exact acts_ret h (.inr (by simp))
  apply acts_queueSend h
  intro hid hl hw
  -- the datum is written to the control block, and the task blocks
  have hw0 := (h.sch.ok k.sch.currRunTask).pwait_none (by rw [hr.run]; rfl)
  have hb : (k.setDataElem k.sch.currRunTask data).sch.tcb k.sch.currRunTask =
      { k.sch.tcb k.sch.currRunTask with dataElem := data } := by
    unfold Kernel.setDataElem
    rw [setTcb_same]
  have hs : SInv none (k.setDataElem k.sch.currRunTask data).sch :=
    h.sch.keep (t := k.sch.currRunTask) (f := fun b => { b with dataElem := data }) (.of_eq rfl id)
  have h1 : Acts a k [] (k.setDataElem k.sch.currRunTask data) :=
    acts_free h hs (frame_setTcb k.sch _ _) (none_res hw0) (none_res (by rw [setTcb_same]; exact hw0))
      (fun u _ => rfl) (none_call hr.pend) (none_call hr.pend) silent_nil
  have hr1 : Runs (k.setDataElem k.sch.currRunTask data) :=
    ⟨(congrArg Tcb.taskState hb).trans hr.run, hr.pend, hr.user⟩
  exact h1.trans (acts_blockIn (h1.kinv h) hr1 (q := .wsend i) rfl (by simp) hid ⟨hl, hw⟩
    (congrArg Tcb.dataElem hb))

theorem acts_queueSendPolling (h : KInv k) (i data : Nat) :
    Acts a k (tnQueueSendPolling i data k).2 (tnQueueSendPolling i data k).1 :=
  acts_queueSend h i data fun _ _ _ => acts_ret h (.inr (by simp))

theorem acts_queueReceive (h : KInv k) (i : Nat) {onEmpty : Kernel → Res}
    (hf : (k.dque i).idDque = true → k.sch.que (.wsend i) = [] →
      (dqueFifoRead (k.dque i)).1 ≠ .noErr → Acts a k (onEmpty k).2 (onEmpty k).1) :
    Acts a k (queueReceive i onEmpty k).2 (queueReceive i onEmpty k).1 := by
  unfold queueReceive
  split
  · exact acts_ret h (.inr (by simp))
  rename_i hid
  have hid' : (k.dque i).idDque = true := by simpa using hid
  dsimp only
  split
  · rename_i hw
    split
    · rename_i t l hl
      obtain ⟨k', hk'⟩ : ∃ k', k' = ((k.setDque i (dqueFifoRead (k.dque i)).2.2).setDque i
        (dqueFifoWrite (dqueFifoRead (k.dque i)).2.2 (k.sch.tcb t).dataElem).2).wakeHead
          (.wsend i) t := ⟨_, rfl⟩
      have hgrow : Grows k k' := by
        rw [hk']
        refine (grows_setDque ?_).trans ((grows_setDque ?_).trans (grows_sch _ _))
        · rw [dqueFifoRead_idDque]
          exact id
        · intro hd
          rw [dqueFifoWrite_idDque, dqueFifoRead_idDque]
          exact hid'
      obtain ⟨h1, h2⟩ := h.grants (q := .wsend i) rfl hl (by rw [hk']; rfl) (by rw [hk']; rfl) hgrow
      subst hk'
      have hself : (k.setDque i (dqueFifoRead (k.dque i)).2.2).dque i =
          (dqueFifoRead (k.dque i)).2.2 := Function.update_self ..
      rw [hself]
      refine Act.acts (Act.receiveGrant h1 rfl hw ?_ rfl rfl) h2
      exact Function.update_idem _ _ _
    · rename_i hl
      refine Act.acts (Act.receiveFifo ⟨.refl _, rfl, ?_⟩ hid' hl hw rfl rfl rfl) h.sch
      apply grows_setDque
      rw [dqueFifoRead_idDque]
      exact id
  · rename_i hw
    split
    · rename_i t l hl
      obtain ⟨h1, h2⟩ := h.wakeHeadGrants rfl hl
      exact Act.acts (Act.receiveDirect h1 rfl hw ⟨rfl, rfl, rfl⟩) h2
    · rename_i hl
      exact hf hid' hl hw

theorem acts_tnQueueReceive (h : KInv k) (hr : Runs k) (i : Nat) (timeout : BitVec 32) :
    Acts a k (tnQueueReceive i timeout k).2 (tnQueueReceive i timeout k).1 := by
  unfold tnQueueReceive
  split
  · exact acts_ret h (.inr (by simp))
  apply acts_queueReceive h
  intro hid hl hw
  exact acts_blockIn h hr (q := .wreceive i) rfl (by simp) hid ⟨hl, hw⟩ rfl

theorem acts_queueReceivePolling (h : KInv k) (i : Nat) :
    Acts a k (tnQueueReceivePolling i k).2 (tnQueueReceivePolling i k).1 :=
  acts_queueReceive h i fun _ _ _ => acts_ret h (.inr (by simp))

/-! ## Event flags -/

/-- An event is written to. -/
theorem acts_setEvf (h : KInv k) {i : Nat} {x : Evf}
    (hx : (k.evf i).idEvent = true → x.idEvent = true) (ho : ∀ o ∈ obs, o.silent = true) :
    Acts a k obs (k.setEvf i x) :=
  Act.acts (Act.quiet ⟨.refl _, rfl, grows_setEvf hx⟩ ⟨rfl, rfl, rfl⟩ ho) h.sch

theorem acts_eventCreate (h : KInv k) (i : Nat) (attr pattern : BitVec 32) :
    Acts a k (tnEventCreate i attr pattern k).2 (tnEventCreate i attr pattern k).1 := by
  unfold tnEventCreate
  split
  · exact acts_ret h (.inl rfl)
  · rename_i hc
    rw [not_or, Bool.not_eq_true] at hc
    dsimp only
    rw [h.reset_que (q := .event i) rfl hc.1]
    split
    · exact acts_setEvf h id (silent_cons rfl silent_nil)
    · exact acts_setEvf h (fun _ => rfl) (silent_cons rfl silent_nil)

theorem acts_eventWait (h : KInv k) (i : Nat) (waitPattern waitMode : BitVec 32)
    {onFalse : Kernel → Res}
    (hf : (k.evf i).idEvent = true → Acts a k (onFalse k).2 (onFalse k).1) :
    Acts a k (eventWait i waitPattern waitMode onFalse k).2
      (eventWait i waitPattern waitMode onFalse k).1 := by
  unfold eventWait
  split
  · exact acts_ret h (.inl rfl)
  split
  · exact acts_ret h (.inl rfl)
  rename_i hid
  split
  · exact acts_ret h (.inl rfl)
  split
  · split
    · exact acts_setEvf h id (silent_cons rfl silent_nil)
    · exact acts_ret h (.inl rfl)
  · exact hf (by simpa using hid)

theorem acts_tnEventWait (h : KInv k) (hr : Runs k) (i : Nat)
    (waitPattern waitMode timeout : BitVec 32) :
    Acts a k (tnEventWait i waitPattern waitMode timeout k).2
      (tnEventWait i waitPattern waitMode timeout k).1 := by
  unfold tnEventWait
  split
  · exact acts_ret h (.inl rfl)
  apply acts_eventWait h
  intro hid
  obtain ⟨s1, hs1⟩ : ∃ s1, s1 = k.sch.setTcb k.sch.currRunTask fun b =>
    { b with ewaitMode := waitMode, ewaitPattern := waitPattern } := ⟨_, rfl⟩
  have hq : Quiet k.sch s1 := hs1 ▸ quiet_setTcb k.sch _ rfl
  have hs : SInv none s1 := hs1 ▸ h.sch.keep (.of_eq rfl id)
  have h1 : Acts a k [] { k with sch := s1 } := acts_quiet hs hq silent_nil
  have hcurr : s1.currRunTask = k.sch.currRunTask := by rw [hs1]; rfl
  have hr1 : Runs { k with sch := s1 } := by
    refine ⟨?_, ?_, ?_⟩
    · show (s1.tcb s1.currRunTask).taskState = .runnable
      rw [hcurr, hs1, setTcb_same]
      exact hr.run
    · show k.pend s1.currRunTask = none
      rw [hcurr]
      exact hr.pend
    · show isSystem s1.currRunTask = false
      rw [hcurr]
      exact hr.user
  rw [← hs1]
  exact h1.trans (acts_blockFree (h1.kinv h) hr1 rfl rfl rfl (by simp) hid)

theorem acts_eventWaitPolling (h : KInv k) (i : Nat) (waitPattern waitMode : BitVec 32) :
    Acts a k (tnEventWaitPolling i waitPattern waitMode k).2
      (tnEventWaitPolling i waitPattern waitMode k).1 :=
  acts_eventWait h i waitPattern waitMode fun _ => acts_ret h (.inl rfl)

/-- One task in the loop of `scan_event_waitqueue`. -/
theorem scanEventTask_spec (h : KInv k) (i : Nat) (pattern : BitVec 32) (b : Bool)
    (hq : (k.sch.tcb t).pwaitQueue = some (.event i)) :
    Acts a k [] { k with sch := (scanEventTask pattern (b, k.sch) t).2 } ∧
      ∀ u, u ≠ t → (scanEventTask pattern (b, k.sch) t).2.tcb u = k.sch.tcb u := by
  unfold scanEventTask
  dsimp only
  split
  · have hw := ((h.sch.ok t).wait _ hq).1
    obtain ⟨s1, hs1⟩ : ∃ s1, s1 = k.sch.setTcb t fun b => { b with ewaitPattern := pattern } :=
      ⟨_, rfl⟩
    have hs : SInv none s1 := hs1 ▸ h.sch.keep (.of_eq rfl id)
    have hw1 : (s1.tcb t).taskState.isWait = true := by
      rw [hs1, setTcb_same]
      exact hw
    have heq : taskWaitComplete t false ((queueRemoveEntry t k.sch).setTcb t fun b =>
        { b with ewaitPattern := pattern }) = taskWaitComplete t true s1 := by
      rw [hs1]
      rfl
    rw [heq]
    have hf : Frame t k.sch (taskWaitComplete t true s1).2 := by
      rw [hs1]
      exact (frame_setTcb k.sch t _).trans (waitComplete_frame t true _)
    have hnr : ∀ q, (k.sch.tcb t).pwaitQueue = some q → q.isRes = false := by
      intro q hc
      rw [hq] at hc
      rw [← Option.some.inj hc]
      rfl
    refine ⟨?_, hf.tcb⟩
    exact acts_free h (hs.waitComplete hw1) hf hnr
      (none_res (congrArg WaitView.que (waitComplete_view t true s1))) (fun u _ => rfl)
      (h.pend_free hw hnr) (h.pend_free hw hnr) silent_nil
  · exact ⟨.nil k, fun u _ => rfl⟩

theorem acts_scanEvent (l : List TaskId) (h : KInv k) (i : Nat) (pattern : BitVec 32) (b : Bool)
    (hn : l.Nodup) (hq : ∀ t ∈ l, (k.sch.tcb t).pwaitQueue = some (.event i)) :
    Acts a k [] { k with sch := (l.foldl (scanEventTask pattern) (b, k.sch)).2 } := by
  induction l generalizing k b with
  | nil => exact .nil k
  | cons t l ih =>
    obtain ⟨htl, hn⟩ := List.nodup_cons.mp hn
    obtain ⟨h1, h2⟩ := scanEventTask_spec (a := a) h i pattern b (hq t List.mem_cons_self)
    rw [List.foldl_cons]
    refine h1.trans (ih (h1.kinv h) _ hn fun u hu => ?_)
    have hut : u ≠ t := by
      rintro rfl
      exact htl hu
    exact (congrArg Tcb.pwaitQueue (h2 u hut)).trans (hq u (List.mem_cons_of_mem t hu))

theorem acts_eventSet (h : KInv k) (i : Nat) (pattern : BitVec 32) :
    Acts a k (tnEventSet i pattern k).2 (tnEventSet i pattern k).1 := by
  unfold tnEventSet
  split
  · exact acts_ret h (.inl rfl)
  split
  · exact acts_ret h (.inl rfl)
  dsimp only
  obtain ⟨k1, hk1⟩ : ∃ k1, k1 = k.setEvf i { k.evf i with pattern := (k.evf i).pattern ||| pattern } :=
    ⟨_, rfl⟩
  have h1 : Acts a k [] k1 := hk1 ▸ acts_setEvf h id silent_nil
  have hk := h1.kinv h
  rw [← hk1]
  have h2 : Acts a k1 [] { k1 with sch := (scanEventWaitqueue i k1).2 } :=
    acts_scanEvent _ hk i _ false (hk.sch.nodup _) fun t ht =>
      ((hk.sch.ok t).waits _ rfl).mp ht
  have h3 := h1.trans h2
  have hsil : ∀ o ∈ .ret .other .noErr 0 :: (scanReleased i k1).map fun t =>
      Obs.grant t (.eventWait i) (k1.evf i).pattern.toNat, o.silent = true := by
    refine silent_cons rfl fun o ho => ?_
    obtain ⟨u, -, rfl⟩ := List.mem_map.mp ho
    rfl
  split
  · exact h3.trans (acts_setEvf (h3.kinv h) id hsil)
  · exact h3.trans (acts_silent (h3.kinv h) hsil)

theorem acts_eventClear (h : KInv k) (i : Nat) (pattern : BitVec 32) :
    Acts a k (tnEventClear i pattern k).2 (tnEventClear i pattern k).1 := by
  unfold tnEventClear
  split
  · exact acts_ret h (.inl rfl)
  split
  · exact acts_ret h (.inl rfl)
  · exact acts_setEvf h id (silent_cons rfl silent_nil)

/-! ## Memory pools -/

theorem acts_fmemCreate (h : KInv k) (i startAddr blockSize : Nat) (numBlocks : Int)
    (ha : a.create startAddr blockSize numBlocks) :
    Acts a k (tnFmemCreate i startAddr blockSize numBlocks k).2
      (tnFmemCreate i startAddr blockSize numBlocks k).1 := by
  unfold tnFmemCreate
  split
  · exact acts_ret h (.inl rfl)
  rename_i hid
  rw [Bool.not_eq_true] at hid
  have hgrow : ∀ x, Grows k (k.setFmp i x) := fun x => grows_setFmp fun hc => by
    rw [hid] at hc
    cases hc
  split
  · refine Act.acts (Act.fmemCreate ⟨.refl _, rfl, hgrow _⟩ hid (fun hc => ?_) ha rfl rfl rfl
      (silent_cons rfl silent_nil)) h.sch
    dsimp only at hc
    rw [hid] at hc
    cases hc
  rename_i hargs
  rw [not_or, Int.not_lt, Nat.not_lt] at hargs
  dsimp only
  rw [h.reset_que (q := .fmp i) rfl hid]
  split
  · refine Act.acts (Act.fmemCreate ⟨.refl _, rfl, hgrow _⟩ hid (fun hc => ?_) ha rfl rfl rfl
      (silent_cons rfl silent_nil)) h.sch
    dsimp only at hc
    rw [hid] at hc
    cases hc
  · exact Act.acts (Act.fmemCreate ⟨.refl _, rfl, hgrow _⟩ hid
      (fun _ => ⟨hargs, rfl, rfl, rfl, rfl⟩) ha rfl rfl rfl (silent_cons rfl silent_nil)) h.sch

theorem acts_fmemGet (h : KInv k) (i : Nat) {onEmpty : Kernel → Res}
    (hf : (k.fmp i).idFmp = true → (k.fmp i).fblkcnt = 0 → Acts a k (onEmpty k).2 (onEmpty k).1) :
    Acts a k (fmemGet i onEmpty k).2 (fmemGet i onEmpty k).1 := by
  unfold fmemGet
  split
  · exact acts_ret h (.inr (by simp))
  rename_i hid
  have hid' : (k.fmp i).idFmp = true := by simpa using hid
  split
  · rename_i hc
    exact Act.acts (Act.fmemGet ⟨.refl _, rfl, grows_setFmp id⟩ hid' hc rfl rfl rfl) h.sch
  · rename_i hc
    exact hf hid' (Nat.eq_zero_of_not_pos hc)

theorem acts_tnFmemGet (h : KInv k) (hr : Runs k) (i : Nat) (timeout : BitVec 32) :
    Acts a k (tnFmemGet i timeout k).2 (tnFmemGet i timeout k).1 := by
  unfold tnFmemGet
  split
  · exact acts_ret h (.inr (by simp))
  apply acts_fmemGet h
  intro hid hc
  exact acts_blockIn h hr (q := .fmp i) rfl (by simp) hid hc rfl

theorem acts_fmemGetPolling (h : KInv k) (i : Nat) :
    Acts a k (tnFmemGetPolling i k).2 (tnFmemGetPolling i k).1 :=
  acts_fmemGet h i fun _ _ => acts_ret h (.inr (by simp))

theorem act_fmemRelease (h : KInv k) (i block : Nat) (ha : a.freed i block) :
    Act a k (tnFmemRelease i block k).2 (tnFmemRelease i block k).1 ∧
      SInv none (tnFmemRelease i block k).1.sch := by
  unfold tnFmemRelease
  split
  · exact ⟨Act.quiet (changes_sch (.refl _)) ⟨rfl, rfl, rfl⟩ (silent_cons rfl silent_nil), h.sch⟩
  rename_i hid
  have hid' : (k.fmp i).idFmp = true := by simpa using hid
  split
  · rename_i t l hl
    obtain ⟨h1, h2⟩ := h.grantsData block rfl hl
    exact ⟨Act.fmemGrant h1 ⟨rfl, rfl, rfl⟩ ha, h2⟩
  · rename_i hl
    split
    · rename_i hc
      refine ⟨Act.fmemRelease ⟨.refl _, rfl, grows_setFmp id⟩ hid' hl ?_ rfl rfl ha, h.sch⟩
      rw [if_pos hc]
      rfl
    · rename_i hc
      refine ⟨Act.fmemRelease ⟨.refl _, rfl, grows_sch k k.sch⟩ hid' hl ?_ rfl rfl ha, h.sch⟩
      rw [if_neg hc]
      exact (Function.update_eq_self i k.fmp).symm

end TnKernel
