import TnNet.Kernel.Interrupts

/-!
# The interrupt status across a call

* `interrupts_balanced_iff` — a call that returns leaves the interrupt bits as they were, with each save
  of the register followed by the restore of the saved value, unless it is `tn_sys_tslice_ticks` with a
  wrong parameter, or a delete service for an existing object with the interrupts disabled.
-/

set_option autoImplicit false

namespace TnIrq

open Critical TnKernel

/-! ## Sections -/

instance keeps_disableInterrupt_bind {β : Type} {f : Unit → Svc β} [Closes arm (f ())] :
    Keeps (tnDisableInterrupt >>= f) := by
  unfold tnDisableInterrupt
  rw [bind_assoc]
  infer_instance

instance keeps_checkNonIntContext (rest : Svc Ret) [h : Keeps rest] : Keeps (checkNonIntContext rest) where
  keeps w r hr := by
    unfold checkNonIntContext at hr
    split at hr
    · exact (keeps_pure _).keeps w r hr
    · exact h.keeps w r hr

instance closes_leave (rc : Terr) (data : Nat) : Closes arm (leave rc data) := by
  unfold leave
  infer_instance

instance closes_leaveSwitch (rc : Terr) (data : Nat) : Closes arm (leaveSwitch rc data) := by
  unfold leaveSwitch
  infer_instance

instance closes_leaveNext (rc : Terr) : Closes arm (leaveNext rc) := by
  unfold leaveNext
  infer_instance

instance closes_leaveWait (data : Tcb → Nat) : Closes arm (leaveWait data) := by
  unfold leaveWait
  infer_instance

/-! ## The tests in front of a service -/

instance keeps_forObj {α : Type} (obj : Option α) (wrong hasId : Objs → α → Bool) (rest : α → Svc Ret)
    [∀ x, Keeps (rest x)] : Keeps (forObj obj wrong hasId rest) := by
  unfold forObj
  cases obj <;> infer_instance

/-! ## The sections that two services share -/

instance keeps_queueSend (dque dataPtr : Nat) (onFull : Svc Ret) [Closes arm onFull] :
    Keeps (queueSend dque dataPtr onFull) := by
  unfold queueSend
  infer_instance

set_option synthInstance.maxSize 1000 in
instance keeps_queueReceive (dque : Nat) (onEmpty : Svc Ret) [Closes arm onEmpty] :
    Keeps (queueReceive dque onEmpty) := by
  unfold queueReceive
  infer_instance

instance keeps_eventWait (evf : Nat) (waitPattern waitMode : BitVec 32) (onFalse : Svc Ret)
    [Closes arm onFalse] : Keeps (eventWait evf waitPattern waitMode onFalse) := by
  unfold eventWait
  infer_instance

instance keeps_fmemGet (get : Svc (Option Nat)) (onEmpty : Svc Ret) [Quiet get] [Closes arm onEmpty] :
    Keeps (fmemGet get onEmpty) := by
  unfold fmemGet
  infer_instance

instance keeps_fmemRelease (q : Que) (block : Nat) (put : Svc Terr) [Quiet put] :
    Keeps (fmemRelease q block put) := by
  unfold fmemRelease
  infer_instance

instance keeps_returning (f : Kernel → Res) : Keeps (returning f) where
  keeps _ _ h := by
    unfold returning at h
    exact (quiet_access _).balanced h

/-! ## The services with a section -/

instance keeps_tnTaskSuspend (task : Option TaskId) : Keeps (tnTaskSuspend task) := by
  unfold tnTaskSuspend
  infer_instance

instance keeps_tnTaskResume (task : Option TaskId) : Keeps (tnTaskResume task) := by
  unfold tnTaskResume
  infer_instance

instance keeps_tnTaskSleep (timeout : BitVec 32) : Keeps (tnTaskSleep timeout) := by
  unfold tnTaskSleep
  infer_instance

instance keeps_tnTaskWakeup (task : Option TaskId) : Keeps (tnTaskWakeup task) := by
  unfold tnTaskWakeup
  infer_instance

instance keeps_tnTaskActivate (task : Option TaskId) : Keeps (tnTaskActivate task) := by
  unfold tnTaskActivate
  infer_instance

instance keeps_tnTaskReleaseWait (task : Option TaskId) : Keeps (tnTaskReleaseWait task) := by
  unfold tnTaskReleaseWait
  infer_instance

instance keeps_tnTaskTerminate (task : Option TaskId) : Keeps (tnTaskTerminate task) := by
  unfold tnTaskTerminate
  infer_instance

instance keeps_tnTaskDelete (task : Option TaskId) : Keeps (tnTaskDelete task) := by
  unfold tnTaskDelete
  infer_instance

instance keeps_tnTaskChangePriority (task : Option TaskId) (newPriority : Int) :
    Keeps (tnTaskChangePriority task newPriority) := by
  unfold tnTaskChangePriority
  infer_instance

instance keeps_tnSemSignal (sem : Option Nat) : Keeps (tnSemSignal sem) := by
  unfold tnSemSignal
  infer_instance

instance keeps_tnSemAcquire (sem : Option Nat) (timeout : BitVec 32) :
    Keeps (tnSemAcquire sem timeout) := by
  unfold tnSemAcquire
  infer_instance

instance keeps_tnSemPolling (sem : Option Nat) : Keeps (tnSemPolling sem) := by
  unfold tnSemPolling
  infer_instance

instance keeps_tnQueueSend (dque : Option Nat) (dataPtr : Nat) (timeout : BitVec 32) :
    Keeps (tnQueueSend dque dataPtr timeout) := by
  unfold tnQueueSend
  infer_instance

instance keeps_tnQueueSendPolling (dque : Option Nat) (dataPtr : Nat) :
    Keeps (tnQueueSendPolling dque dataPtr) := by
  unfold tnQueueSendPolling
  infer_instance

instance keeps_tnQueueReceive (dque : Option Nat) (hasData : Bool) (timeout : BitVec 32) :
    Keeps (tnQueueReceive dque hasData timeout) := by
  unfold tnQueueReceive
  infer_instance

instance keeps_tnQueueReceivePolling (dque : Option Nat) (hasData : Bool) :
    Keeps (tnQueueReceivePolling dque hasData) := by
  unfold tnQueueReceivePolling
  infer_instance

instance keeps_tnEventWait (evf : Option Nat) (waitPattern waitMode : BitVec 32) (hasFlags : Bool)
    (timeout : BitVec 32) : Keeps (tnEventWait evf waitPattern waitMode hasFlags timeout) := by
  unfold tnEventWait
  infer_instance

instance keeps_tnEventWaitPolling (evf : Option Nat) (waitPattern waitMode : BitVec 32) (hasFlags : Bool) :
    Keeps (tnEventWaitPolling evf waitPattern waitMode hasFlags) := by
  unfold tnEventWaitPolling
  infer_instance

instance keeps_tnEventSet (evf : Option Nat) (pattern : BitVec 32) : Keeps (tnEventSet evf pattern) := by
  unfold tnEventSet
  infer_instance

instance keeps_tnEventClear (evf : Option Nat) (pattern : BitVec 32) :
    Keeps (tnEventClear evf pattern) := by
  unfold tnEventClear
  infer_instance

instance keeps_tnFmemGet (fmp : Option Nat) (hasData : Bool) (timeout : BitVec 32) :
    Keeps (tnFmemGet fmp hasData timeout) := by
  unfold tnFmemGet
  infer_instance

instance keeps_tnFmemGetPolling (fmp : Option Nat) (hasData : Bool) :
    Keeps (tnFmemGetPolling fmp hasData) := by
  unfold tnFmemGetPolling
  infer_instance

instance keeps_tnFmemRelease (fmp : Option Nat) (block : Nat) : Keeps (tnFmemRelease fmp block) := by
  unfold tnFmemRelease
  infer_instance

instance keeps_tnFmemDbgGet (fmpd : Option Nat) (hasData : Bool) (timeout : BitVec 32) :
    Keeps (tnFmemDbgGet fmpd hasData timeout) := by
  unfold tnFmemDbgGet
  infer_instance

instance keeps_tnFmemDbgGetPolling (fmpd : Option Nat) (hasData : Bool) :
    Keeps (tnFmemDbgGetPolling fmpd hasData) := by
  unfold tnFmemDbgGetPolling
  infer_instance

instance keeps_tnFmemDbgRelease (fmpd : Option Nat) (block : Nat) :
    Keeps (tnFmemDbgRelease fmpd block) := by
  unfold tnFmemDbgRelease
  infer_instance

instance keeps_tnMutexLock (mutex : Option Nat) (timeout : BitVec 32) :
    Keeps (tnMutexLock mutex timeout) := by
  unfold tnMutexLock
  infer_instance

instance keeps_tnMutexLockPolling (mutex : Option Nat) : Keeps (tnMutexLockPolling mutex) := by
  unfold tnMutexLockPolling
  infer_instance

instance keeps_tnMutexUnlock (mutex : Option Nat) : Keeps (tnMutexUnlock mutex) := by
  unfold tnMutexUnlock
  infer_instance

/-! ## The services that leave the interrupts alone -/

instance keeps_tnSemCreate (sem : Option Nat) (startValue maxVal : Int) :
    Keeps (tnSemCreate sem startValue maxVal) := by
  unfold tnSemCreate
  cases sem <;> infer_instance

instance keeps_tnQueueCreate (dque : Option Nat) (hasFifo : Bool) (numEntries : Int) :
    Keeps (tnQueueCreate dque hasFifo numEntries) := by
  unfold tnQueueCreate
  cases dque <;> infer_instance

instance keeps_tnEventCreate (evf : Option Nat) (attr pattern : BitVec 32) :
    Keeps (tnEventCreate evf attr pattern) := by
  unfold tnEventCreate
  cases evf <;> infer_instance

instance keeps_tnFmemCreate (fmp : Option Nat) (startAddr blockSize : Nat) (numBlocks : Int) :
    Keeps (tnFmemCreate fmp startAddr blockSize numBlocks) := by
  unfold tnFmemCreate
  cases fmp <;> infer_instance

instance keeps_tnMutexCreate (mutex : Option Nat) (attr : Option MutexAttr) (ceilPriority : Int) :
    Keeps (tnMutexCreate mutex attr ceilPriority) := by
  unfold tnMutexCreate
  cases mutex <;> cases attr <;> infer_instance

instance keeps_tnFmemDbgCreate (fmpd : Option Nat) (startAddr : Nat) (freeList : Option (List Nat))
    (blockSize : Nat) (numBlocks : Int) :
    Keeps (tnFmemDbgCreate fmpd startAddr freeList blockSize numBlocks) := by
  unfold tnFmemDbgCreate
  cases fmpd with
  | none => infer_instance
  | some fmpd => exact ⟨fun _ _ h => (quiet_access _).balanced h⟩

/-- `tn_task_exit` returns only where it has done nothing. -/
instance keeps_tnTaskExit (attr : Bool) : Keeps (tnTaskExit attr) where
  keeps w r h := by
    unfold tnTaskExit at h
    split at h
    · exact (keeps_pure _).keeps w r h
    · cases h

/-! ## Create -/

/-- `tn_task_create` tests the state of the system twice, and it is the same both times. -/
instance keeps_createBody (f g : Sched → Sched) : Keeps (do
    ifRunning tnDisableInterrupt
    sched f
    sched g
    ifRunning tnEnableInterrupt
    ret .noErr : Svc Ret) where
  keeps w r h := by
    cases hrun : w.mem.running with
    | true =>
      refine Keeps.keeps (m := do
        tnDisableInterrupt
        sched f
        sched g
        leave .noErr) w r ?_
      rw [← h]
      simp [ifRunning, tnDisableInterrupt, leave, bind, StateT.bind, access, disable, hrun]
    | false =>
      refine Keeps.keeps (m := do
        sched f
        sched g
        ret .noErr) w r ?_
      rw [← h]
      simp [ifRunning, bind, StateT.bind, access, hrun]

instance keeps_tnTaskCreate (task : Option TaskId) (priority : Int) (argsOk : Bool) (opt : CreateOpt) :
    Keeps (tnTaskCreate task priority argsOk opt) := by
  unfold tnTaskCreate
  cases task <;> infer_instance

/-! ## Delete -/

/-- A fact about the register, the variable and the log. -/
abbrev RegFact := BitVec 32 → BitVec 32 → List (Op (BitVec 32)) → Prop

/-- The processor has the fact. -/
structure RegFact.Of (J : RegFact) (w : Cpu (BitVec 32) World) : Prop where
  fact : J w.status w.saved w.log

theorem RegFact.Of.quiet {α : Type} {J : RegFact} {m : Svc α} [hm : Quiet m]
    {w w' : Cpu (BitVec 32) World} {a : α} (hJ : J.Of w) (h : m w = some (a, w')) : J.Of w' := by
  obtain ⟨h1, h2, h3⟩ := hm.quiet w _ h
  constructor
  rw [show w'.status = w.status from h1, show w'.saved = w.saved from h2, show w'.log = w.log from h3]
  exact hJ.fact

/-- What a delete service may rely on between its parts: `out` in front of a pass of a loop, `held` in
    front of the release of a task. -/
structure LoopRule (out held : RegFact) : Prop where
  enter : ∀ {s v l}, out s v l →
    (arm.disabled s = true → held s v l) ∧ (arm.disabled s = false → held (arm.mask s) s (l ++ [.save s]))
  restore : ∀ {s v l}, held s v l → out (arm.load s v) v (l ++ [.restore v])
  weaken : ∀ {s v l}, held s v l → out s v l

section Loop

variable {J K : RegFact} (hr : LoopRule J K)
include hr

theorem LoopRule.disableIfEnabled {w : Cpu (BitVec 32) World} {r : Unit × Cpu (BitVec 32) World}
    (hJ : J.Of w) (h : disableIfEnabled w = some r) : K.Of r.2 := by
  unfold TnIrq.disableIfEnabled at h
  obtain ⟨disabled, w1, h1, h⟩ := bind_some h
  cases h1
  cases hd : arm.disabled w.status with
  | true =>
    rw [if_pos hd] at h
    cases h
    exact ⟨(hr.enter hJ.fact).1 hd⟩
  | false =>
    rw [if_neg (by simp [hd])] at h
    cases h
    exact ⟨(hr.enter hJ.fact).2 hd⟩

/-- A pass keeps the fact, by induction on the number of passes. -/
theorem LoopRule.deleteLoop (o : Obj) (q : Que) (n : Nat) {w : Cpu (BitVec 32) World}
    {r : Unit × Cpu (BitVec 32) World} (hJ : J.Of w) (h : deleteLoop o q n w = some r) : J.Of r.2 := by
  induction n generalizing w with
  | zero => cases h
  | succ n ih =>
    unfold TnIrq.deleteLoop at h
    obtain ⟨empty, w1, h1, h⟩ := bind_some h
    have hJ1 := hJ.quiet h1
    split at h
    · cases h
      exact hJ1
    obtain ⟨_, w2, h2, h⟩ := bind_some h
    have hK2 := hr.disableIfEnabled hJ1 h2
    obtain ⟨task, w3, h3, h⟩ := bind_some h
    obtain ⟨_, w4, h4, h⟩ := bind_some h
    obtain ⟨ready, w5, h5, h⟩ := bind_some h
    have hK5 := ((hK2.quiet h3).quiet h4).quiet h5
    split at h
    · -- the task is ready: the section is left for a context switch
      obtain ⟨_, w6, h6, h⟩ := bind_some h
      have hK6 := hK5.quiet h6
      obtain ⟨_, w7, h7, h⟩ := bind_some h
      have hJ7 : J.Of w7 := by
        cases h7
        exact ⟨hr.restore hK6.fact⟩
      obtain ⟨_, w8, h8, h⟩ := bind_some h
      exact ih (hJ7.quiet h8) h
    · exact ih ⟨hr.weaken hK5.fact⟩ h

theorem LoopRule.deleteLoops (o : Obj) (n : Nat) (l : List Que) {w : Cpu (BitVec 32) World}
    {r : Unit × Cpu (BitVec 32) World} (hJ : J.Of w) (h : deleteLoops o n l w = some r) : J.Of r.2 := by
  induction l generalizing w with
  | nil =>
    cases h
    exact hJ
  | cons q l ih =>
    obtain ⟨_, w1, h1, h⟩ := bind_some h
    exact ih (hr.deleteLoop o q n hJ h1) h

/-- The last section of a delete service. -/
theorem LoopRule.deleteBody (n : Nat) (o : Obj) {w : Cpu (BitVec 32) World}
    {r : Ret × Cpu (BitVec 32) World} (hJ : J.Of w) (h : deleteBody n o w = some r) : ∃ w',
    K.Of w' ∧ leave .noErr 0 w' = some r := by
  unfold TnIrq.deleteBody at h
  obtain ⟨_, w1, h1, h⟩ := bind_some h
  obtain ⟨_, w2, h2, h⟩ := bind_some h
  obtain ⟨_, w3, h3, h⟩ := bind_some h
  exact ⟨w3, (hr.disableIfEnabled (hr.deleteLoops o n _ hJ h1) h2).quiet h3, h⟩

end Loop

/-- Outside of a section that has kept the register, and in one. -/
def Open (s₀ : BitVec 32) (l₀ : List (Op (BitVec 32))) : RegFact := fun s _ l =>
  s = s₀ ∧ ∃ l', l = l₀ ++ l' ∧ Matched l'

def Held (s₀ : BitVec 32) (l₀ : List (Op (BitVec 32))) : RegFact := fun s v l =>
  s = arm.mask s₀ ∧ v = s₀ ∧ ∃ l', l = l₀ ++ l' ++ [.save s₀] ∧ Matched l'

/-- With the interrupts enabled at the call every section is left. -/
theorem loopRule_enabled {s₀ : BitVec 32} (he : arm.disabled s₀ = false) (l₀ : List (Op (BitVec 32))) :
    LoopRule (fun s v l => Open s₀ l₀ s v l ∨ Held s₀ l₀ s v l) (Held s₀ l₀) := by
  constructor
  case enter =>
    rintro s v l (⟨rfl, l', rfl, hm⟩ | hh)
    · refine ⟨fun hd => ?_, fun _ => ⟨rfl, rfl, l', rfl, hm⟩⟩
      rw [he] at hd
      cases hd
    · refine ⟨fun _ => hh, fun hd => ?_⟩
      rw [hh.1, arm.disabled_mask] at hd
      cases hd
  case restore =>
    rintro s v l ⟨rfl, rfl, l', rfl, hm⟩
    refine .inl ⟨arm.load_mask _, l' ++ [.save v, .restore v], by simp, hm.append (.pair _ .nil)⟩
  case weaken => exact fun hh => .inr hh

/-- With the interrupts disabled at the call no section has begun: nothing is done to the register, or
    its first change is a restore. -/
def Unopened (l₀ : List (Op (BitVec 32))) : RegFact := fun s _ l =>
  (arm.disabled s = true ∧ l = l₀) ∨ ∃ v l', l = l₀ ++ .restore v :: l'

theorem loopRule_disabled (l₀ : List (Op (BitVec 32))) : LoopRule (Unopened l₀) (Unopened l₀) := by
  constructor
  case enter =>
    rintro s v l (⟨hd, rfl⟩ | ⟨v', l', rfl⟩)
    · refine ⟨fun _ => .inl ⟨hd, rfl⟩, fun he => ?_⟩
      rw [hd] at he
      cases he
    · exact ⟨fun _ => .inr ⟨v', l', rfl⟩, fun _ => .inr ⟨v', l' ++ [.save s], by simp⟩⟩
  case restore =>
    rintro s v l (⟨hd, rfl⟩ | ⟨v', l', rfl⟩)
    · exact .inr ⟨v, [], rfl⟩
    · exact .inr ⟨v', l' ++ [.restore v], by simp⟩
  case weaken => exact fun hh => hh

/-- The interrupt bits are as they were, and each save of the register was followed by the restore of
    the saved value. -/
def IrqBalanced (w w' : Cpu (BitVec 32) World) : Prop :=
  w'.status &&& NOINT = w.status &&& NOINT ∧ ∃ l, w'.log = w.log ++ l ∧ Matched l

theorem irqBalanced_of_balanced {w w' : Cpu (BitVec 32) World} (h : Balanced w w') : IrqBalanced w w' := by
  obtain ⟨hs, hl⟩ := h
  exact ⟨by rw [hs], hl⟩

/-- With the interrupts enabled a delete service is balanced. -/
theorem deleteBody_enabled {n : Nat} {o : Obj} {w : Cpu (BitVec 32) World} {r : Ret × Cpu (BitVec 32) World}
    (he : arm.disabled w.status = false) (h : deleteBody n o w = some r) : IrqBalanced w r.2 := by
  have h0 : RegFact.Of (fun s v l => Open w.status w.log s v l ∨ Held w.status w.log s v l) w :=
    ⟨.inl ⟨rfl, [], by simp, .nil⟩⟩
  obtain ⟨w', hK, hend⟩ := (loopRule_enabled he w.log).deleteBody n o h0 h
  obtain ⟨hs, hv, l, hl, hm⟩ := hK.fact
  obtain ⟨h4, l', h5, h6⟩ := (closes_leave .noErr 0).closes w.status w' r hs hv hend
  refine ⟨by rw [h4], l ++ .save w.status :: .restore w.status :: l', ?_, hm.append (.pair _ h6)⟩
  rw [h5, hl]
  simp

/-- With the interrupts disabled it is not: it begins with the restore of a value that was not saved. -/
theorem deleteBody_disabled {n : Nat} {o : Obj} {w : Cpu (BitVec 32) World}
    {r : Ret × Cpu (BitVec 32) World} (hd : arm.disabled w.status = true)
    (h : deleteBody n o w = some r) : ¬ IrqBalanced w r.2 := by
  have h0 : (Unopened w.log).Of w := ⟨.inl ⟨hd, rfl⟩⟩
  obtain ⟨w', hK, hend⟩ := (loopRule_disabled w.log).deleteBody n o h0 h
  unfold leave at hend
  obtain ⟨_, w1, h1, hend⟩ := bind_some hend
  cases h1
  cases hend
  have hlog : ∃ v l, w'.log ++ [.restore w'.saved] = w.log ++ .restore v :: l := by
    rcases hK.fact with ⟨-, hl⟩ | ⟨v, l, hl⟩
    · exact ⟨w'.saved, [], by rw [hl]⟩
    · exact ⟨v, l ++ [.restore w'.saved], by rw [hl]; simp⟩
  obtain ⟨v, l, hl⟩ := hlog
  rintro ⟨-, l', hl', hm⟩
  have heq : l' = .restore v :: l := List.append_cancel_left (hl'.symm.trans hl)
  rw [heq] at hm
  exact not_matched_restore v l hm

/-- A delete service: for a call that returns. -/
theorem objDelete_balanced_iff {n : Nat} {o : Option Obj} {w : Cpu (BitVec 32) World}
    {r : Ret × Cpu (BitVec 32) World} (h : objDelete n o w = some r) :
    IrqBalanced w r.2 ↔ ¬ ∃ x, o = some x ∧ w.mem.objs.kern.hasObj x = true ∧
    wrongContext w = false ∧
      arm.disabled w.status = true := by
  unfold objDelete forObj at h
  cases o with
  | none =>
    have hb := irqBalanced_of_balanced ((quiet_pure _).balanced h)
    simp [hb]
  | some x =>
    obtain ⟨k, w1, h1, h⟩ := bind_some h
    cases h1
    dsimp only at h
    rw [if_neg (by decide)] at h
    by_cases hx : w.mem.objs.kern.hasObj x = true
    · rw [if_neg (by simp [hx])] at h
      unfold checkNonIntContext at h
      cases hc : wrongContext w with
      | true =>
        rw [if_pos hc] at h
        simp [irqBalanced_of_balanced ((quiet_pure _).balanced h)]
      | false =>
        rw [if_neg (by simp [hc])] at h
        cases hd : arm.disabled w.status with
        | true => simp [deleteBody_disabled (w := w) hd h, hx]
        | false => simp [deleteBody_enabled (w := w) hd h]
    · rw [if_pos (by simp [hx])] at h
      have hb := irqBalanced_of_balanced ((quiet_pure _).balanced h)
      simp [show IrqBalanced w r.2 from hb, hx]

/-! ## Time slices -/

/-- `tn_sys_tslice_ticks`: the path of a wrong parameter leaves its section open. -/
theorem tsliceTicks_balanced_iff {priority value : Int} {w : Cpu (BitVec 32) World}
    {r : Ret × Cpu (BitVec 32) World} (h : tnSysTsliceTicks priority value w = some r) :
    IrqBalanced w r.2 ↔ ¬ (wrongContext w = false ∧ wrongSlice priority value = true) := by
  cases hs : wrongSlice priority value with
  | false =>
    have hk : Keeps (tnSysTsliceTicks priority value) := by
      unfold tnSysTsliceTicks
      simp only [hs, Bool.false_eq_true, if_false]
      infer_instance
    simp [irqBalanced_of_balanced (hk.keeps w r h)]
  | true =>
    unfold tnSysTsliceTicks at h
    simp only [hs, if_true] at h
    unfold checkNonIntContext at h
    cases hc : wrongContext w with
    | true =>
      rw [if_pos hc] at h
      simp [irqBalanced_of_balanced ((quiet_pure _).balanced h)]
    | false =>
      rw [if_neg (by simp [hc])] at h
      obtain ⟨_, w1, h1, h⟩ := bind_some h
      cases h1
      cases h
      simp only [true_and, not_true_eq_false, iff_false]
      rintro ⟨-, l, hl, hm⟩
      have heq : [Op.save w.status] = l := List.append_cancel_left hl
      rw [← heq] at hm
      exact not_matched_save _ hm

/-! ## The result -/

/-- The object a delete service is called for. -/
def TaskCall.deletes : TaskCall → Option Obj
  | .semDelete _ sem => sem.map .sem
  | .queueDelete _ dque => dque.map .queue
  | .eventDelete _ evf => evf.map .event
  | .fmemDelete _ fmp => fmp.map .fmem
  | .mutexDelete _ mutex => mutex.map .mutex
  | _ => none

/-- The parameters of a call of `tn_sys_tslice_ticks` are wrong. -/
def TaskCall.wrongSlice : TaskCall → Bool
  | .tsliceTicks priority value => TnIrq.wrongSlice priority value
  | _ => false

/-- The calls that are not balanced: made in the right context, they set a time slice with wrong
    parameters, or delete an existing object with the interrupts disabled. -/
def TaskCall.Breaks (c : TaskCall) (w : Cpu (BitVec 32) World) : Prop :=
  wrongContext w = false ∧ (c.wrongSlice = true ∨
    (arm.disabled w.status = true ∧ ∃ o, c.deletes = some o ∧ w.mem.objs.kern.hasObj o = true))

/-- **The interrupt state is balanced across every call that returns, except for `tn_sys_tslice_ticks`
    with wrong parameters and a delete service with the interrupts disabled.** -/
theorem interrupts_balanced_iff (c : TaskCall) (w : Cpu (BitVec 32) World) (r : Ret × Cpu (BitVec 32) World)
    (h : c.run w = some r) : IrqBalanced w r.2 ↔ ¬ c.Breaks w := by
  have hk : ∀ m : Svc Ret, Keeps m → m { w with saved := 0 } = some r → IrqBalanced w r.2 := fun _ hm h =>
    irqBalanced_of_balanced (w := { w with saved := 0 }) (hm.keeps _ r h)
  have hd : ∀ n o, objDelete n o { w with saved := 0 } = some r →
      (IrqBalanced w r.2 ↔ ¬ (wrongContext w = false ∧ (arm.disabled w.status = true ∧
        ∃ x, o = some x ∧ w.mem.objs.kern.hasObj x = true))) := by
    intro n o h
    refine (objDelete_balanced_iff h).trans (not_congr ?_)
    constructor
    · rintro ⟨x, h1, h2, h3, h4⟩
      exact ⟨h3, h4, x, h1, h2⟩
    · rintro ⟨h3, h4, x, h1, h2⟩
      exact ⟨x, h1, h2, h3, h4⟩
  unfold TaskCall.run at h
  cases c
  case tsliceTicks priority value =>
    refine (tsliceTicks_balanced_iff (w := { w with saved := 0 }) h).trans (not_congr ?_)
    simp [TaskCall.Breaks, TaskCall.wrongSlice, TaskCall.deletes, wrongContext]
  case semDelete n sem => simpa [TaskCall.Breaks, TaskCall.wrongSlice, TaskCall.deletes] using hd n _ h
  case queueDelete n dque => simpa [TaskCall.Breaks, TaskCall.wrongSlice, TaskCall.deletes] using hd n _ h
  case eventDelete n evf => simpa [TaskCall.Breaks, TaskCall.wrongSlice, TaskCall.deletes] using hd n _ h
  case fmemDelete n fmp => simpa [TaskCall.Breaks, TaskCall.wrongSlice, TaskCall.deletes] using hd n _ h
  case mutexDelete n mutex => simpa [TaskCall.Breaks, TaskCall.wrongSlice, TaskCall.deletes] using hd n _ h
  all_goals
    simp only [TaskCall.Breaks, TaskCall.wrongSlice, TaskCall.deletes]
    simp only [Bool.false_eq_true, false_or, reduceCtorEq, false_and, exists_false, and_false,
      not_false_eq_true, iff_true]
    exact hk _ (by unfold TaskCall.body; infer_instance) h

/-- A system in which nothing else happens, with a semaphore; the second value says whether it runs. -/
def calm (status : BitVec 32) (running : Bool) : Cpu (BitVec 32) World :=
  ⟨status, 0, [], ⟨⟨Kernel.start.setSem 0 ⟨0, 1, true⟩, fun _ => {}⟩, running, 0,
    fun _ o => o, 0⟩⟩

theorem signal_returns : ((TaskCall.semSignal (some 0)).run (calm 0x13 true)).isSome = true := by
  decide +kernel

/-- A signal in a running system. -/
theorem interrupts_balanced_iff_signal :
    IrqBalanced (calm 0x13 true)
    (((TaskCall.semSignal (some 0)).run (calm 0x13 true)).get signal_returns).2 ↔
      ¬ (TaskCall.semSignal (some 0)).Breaks (calm 0x13 true) :=
  interrupts_balanced_iff _ _ _ (Option.some_get _).symm

/-- **`tn_sys_tslice_ticks` returns with the interrupts disabled.**  The call with priority 0. -/
theorem wrong_slice_leaves_disabled :
    ∃ r, (TaskCall.tsliceTicks 0 5).run (calm 0x13 true) = some r ∧ r.1.1 = .wrongParam ∧
    r.2.status = 0xD3 ∧
      ¬ IrqBalanced (calm 0x13 true) r.2 := by
  refine ⟨_, rfl, rfl, by decide, ?_⟩
  rintro ⟨h, -⟩
  exact absurd h (by decide)

/-- A delete before the system runs, with the interrupts disabled, enables them. -/
example : ∃ r, (TaskCall.semDelete 1 (some 0)).run (calm 0xD3 false) = some r ∧ r.1.1 = .noErr ∧
    r.2.status = 0 :=
  ⟨_, rfl, rfl, by decide⟩

end TnIrq
