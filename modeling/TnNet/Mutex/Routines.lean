import TnNet.Kernel.MutexActs
import TnNet.Lib.Fold
import TnNet.Mutex.Acts

/-!
# The routines as acts

`set_current_priority` gives tasks other priorities and does nothing else (`Reprio`);
`task_wait_complete` ends the wait of its task (`Woken`); `task_curr_to_wait_action` begins one.  From
these come the acts of the routines of `tn_mutex.c`: `giveMutex_acts`, `lockBlocked_acts`,
`doUnlockMutex_acts`, `lockWait_acts`, `tnMutexDelete_acts`.
-/

set_option autoImplicit false

namespace TnMutex

open TnKernel Fold

variable {k k' : Kernel} {s s' : Sched} {t u w h : TaskId} {m n len : Nat} {o : Option Nat}
  {strict : Prop}

/-! ## Priorities -/

/-- Tasks get other priorities. -/
structure Reprio (s s' : Sched) : Prop where
  sched : SInv none s'
  tcb : ∀ u, ∃ p, s'.tcb u = { s.tcb u with priority := p }
  que : ∀ m, s'.que (.mutex m) = s.que (.mutex m)
  blocked : s'.blockedTasksList = s.blockedTasksList
  curr : s'.currRunTask = s.currRunTask

theorem Reprio.refl (h : SInv none s) : Reprio s s :=
  ⟨h, fun u => ⟨(s.tcb u).priority, rfl⟩, fun _ => rfl, rfl, rfl⟩

theorem Reprio.still (h : Reprio k.sch s') : Still k { k with sch := s' } := by
  refine ⟨⟨h.sched, rfl, rfl, ?_⟩, h.que, h.blocked, ?_⟩
  · intro u
    obtain ⟨p, hp⟩ := h.tcb u
    show Owns _ (s'.tcb u)
    rw [hp]
    exact ⟨rfl, rfl, rfl, fun _ => .inl⟩
  · intro u
    obtain ⟨p, hp⟩ := h.tcb u
    show mutexWait (s'.tcb u) = _
    rw [hp]
    rfl

/-- A write to a control block the mutexes do not see. -/
theorem still_setTcb {f : Tcb → Tcb} (hs : SInv none (k.sch.setTcb t f))
    (ho : Owns (k.sch.tcb t) (f (k.sch.tcb t)))
    (hw : mutexWait (f (k.sch.tcb t)) = mutexWait (k.sch.tcb t)) :
    Still k { k with sch := k.sch.setTcb t f } := by
  refine ⟨⟨hs, rfl, rfl, fun u => ?_⟩, fun _ => rfl, rfl, fun u => ?_⟩
  · by_cases hu : u = t
    · subst hu
      show Owns _ ((k.sch.setTcb u f).tcb u)
      rw [setTcb_same]
      exact ho
    · show Owns _ ((k.sch.setTcb t f).tcb u)
      rw [setTcb_ne k.sch f hu]
      exact .refl _
  · by_cases hu : u = t
    · subst hu
      show mutexWait ((k.sch.setTcb u f).tcb u) = _
      rw [setTcb_same]
      exact hw
    · show mutexWait ((k.sch.setTcb t f).tcb u) = _
      rw [setTcb_ne k.sch f hu]

/-- A runnable task is in no wait list. -/
theorem not_mem_of_not_wait (hs : SInv none s) (hw : (s.tcb t).taskState.isWait = false) (m : Nat) :
    t ∉ s.que (.mutex m) :=
  hs.toQInv.not_mem rfl (by rw [(hs.ok t).pwait_none hw]; simp)

/-- The wait lists of the mutexes, when a task that is in none of them is moved. -/
theorem Frame.mutexQue (hf : Frame t s s') (h : t ∉ s.que (.mutex m)) (h' : t ∉ s'.que (.mutex m)) :
    s'.que (.mutex m) = s.que (.mutex m) := by
  have ho := hf.order (.mutex m)
  rwa [filter_self h, filter_self h'] at ho

theorem reprio_running (hs : SInv none s) {p : Nat} (hr : (s.tcb t).taskState = .runnable)
    (hi : t ≠ idleTask) (hp : PrioOk t { s.tcb t with priority := p }) :
    Reprio s (changeRunningTaskPriority t p s) := by
  have hs' := hs.changePriority hr hi hp
  have hf := changeRunningTaskPriority_frame t p s
  have htcb := changeRunningTaskPriority_tcb t p s
  refine ⟨hs', ?_, ?_, changeRunningTaskPriority_blocked t p s, hf.curr⟩
  · intro u
    by_cases hu : u = t
    · subst hu
      exact ⟨p, htcb⟩
    · exact ⟨(s.tcb u).priority, hf.tcb u hu⟩
  · intro m
    apply Frame.mutexQue hf
    · exact not_mem_of_not_wait hs (by rw [hr]; rfl) m
    · exact not_mem_of_not_wait hs' (by rw [htcb]; exact congrArg TaskState.isWait hr) m

theorem reprio_waiting (hs : SInv none s) {p : Nat} (hr : (s.tcb t).taskState ≠ .runnable)
    (hp : PrioOk t { s.tcb t with priority := p }) :
    Reprio s (s.setTcb t fun b => { b with priority := p }) := by
  refine ⟨hs.setPriority hr hp, ?_, fun _ => rfl, rfl, rfl⟩
  intro u
  by_cases hu : u = t
  · subst hu
    exact ⟨p, setTcb_same s u _⟩
  · exact ⟨(s.tcb u).priority, setTcb_ne s _ hu⟩

theorem isSystem_false (h : isSystem t = false) : t ≠ timerTask ∧ t ≠ idleTask := by
  simpa [isSystem] using h

/-- A task of the application may get any priority. -/
theorem prioOk_user (hs : SInv none s) (ht : isSystem t = false) {p : Nat} (hp : p < 32) :
    PrioOk t { s.tcb t with priority := p } :=
  ⟨hp, (hs.prioOk t).2.1, fun hc => absurd hc (isSystem_false ht).1⟩

/-- No task of `tn.c` holds a mutex or blocks a task. -/
structure Users (k : Kernel) : Prop where
  holder : ∀ m h, (k.mutex m).holder = some h → isSystem h = false
  blk : ∀ t h, (k.sch.tcb t).blkTask = some h → isSystem h = false

theorem HoldInv.users (hi : HoldInv o k) : Users k := ⟨hi.sysHolder, hi.sysBlk⟩

theorem Users.blocker (hu : Users k) (hb : blockerOf k (k.sch.tcb t) m = some h) :
    isSystem h = false := by
  unfold blockerOf at hb
  split at hb
  · exact hu.blk t h hb
  · exact hu.holder m h hb

theorem findMax_lt (hs : SInv none s) (m : Nat) (h : TaskId) :
    findMaxBlockedPriority m (s.tcb h).basePriority s < 32 :=
  Nat.lt_of_le_of_lt (findMaxBlockedPriority_le m _ s) (hs.prioOk h).2.1

/-- **`set_current_priority`.**  The induction is on the length of the chain. -/
theorem setCurrentPriority_reprio (hs : SInv none k.sch) (hu : Users k) {task curr : TaskId} {p : Nat}
    (htask : isSystem task = false) (hcurr : isSystem curr = false)
    (hrun : task = curr ∨ (k.sch.tcb task).taskState ≠ .runnable) (hp : p < 32)
    (h : setCurrentPriority task len curr p k = .ok k') :
    ∃ s', k' = { k with sch := s' } ∧ Reprio k.sch s' := by
  induction len generalizing curr p with
  | zero => cases h
  | succ len ih =>
    unfold setCurrentPriority at h
    dsimp only at h
    split at h
    · cases h
      exact ⟨_, rfl, .refl hs⟩
    split at h
    · rename_i hr
      cases h
      exact ⟨_, rfl, reprio_running hs hr (isSystem_false hcurr).2 (prioOk_user hs hcurr hp)⟩
    rename_i hr
    split at h
    · rename_i hwait
      cases hm : mutexOf (k.sch.tcb curr) with
      | none =>
        rw [hm] at h
        cases h
      | some m =>
        rw [hm] at h
        dsimp only at h
        cases hb : blockerOf k (k.sch.tcb curr) m with
        | none =>
          rw [hb] at h
          cases h
        | some b =>
          rw [hb] at h
          refine ih (hu.blocker hb) (.inr ?_) ?_ h
          · rcases hrun with rfl | hrun
            · exact hr
            · exact hrun
          · split
            · exact findMax_lt hs m b
            · exact hp
    · cases h
      have hnot : (k.sch.tcb task).taskState ≠ .runnable := by
        rcases hrun with rfl | hrun
        · exact hr
        · exact hrun
      exact ⟨_, rfl, reprio_waiting hs hnot (prioOk_user hs htask hp)⟩

/-- `set_current_priority` writes no other control block for a task that waits for no mutex, or has the
    priority. -/
theorem setCurrentPriority_direct {p : Nat} (hd : (k.sch.tcb t).priority = p ∨
      ¬((k.sch.tcb t).taskState.isWait = true ∧ waitsForMutex (k.sch.tcb t) = true))
    (h : setCurrentPriority t len t p k = .ok k') : ∃ s', k' = { k with sch := s' } ∧
      s'.tcb t = { k.sch.tcb t with priority := p } ∧ ∀ u, u ≠ t → s'.tcb u = k.sch.tcb u := by
  cases len with
  | zero => cases h
  | succ len =>
    unfold setCurrentPriority at h
    dsimp only at h
    split at h
    · rename_i hp
      cases h
      refine ⟨_, rfl, ?_, fun _ _ => rfl⟩
      rw [← hp]
    rename_i hp
    split at h
    · cases h
      exact ⟨_, rfl, changeRunningTaskPriority_tcb t p k.sch,
        (changeRunningTaskPriority_frame t p k.sch).tcb⟩
    split at h
    · rename_i hw
      exact absurd hw (hd.resolve_left hp)
    · cases h
      exact ⟨_, rfl, setTcb_same _ _ _, fun u hu => setTcb_ne _ _ hu⟩

/-! ## The end of a wait -/

/-- The wait of the task has ended. -/
structure Woken (t : TaskId) (s s' : Sched) : Prop where
  sched : SInv none s'
  tcb : ∀ u, u ≠ t → ∃ p, s'.tcb u = { s.tcb u with priority := p }
  state : (s'.tcb t).taskState.isWait = false
  owns : Owns (s.tcb t) (s'.tcb t)
  que : ∀ m, s'.que (.mutex m) = (s.que (.mutex m)).erase t
  blocked : s'.blockedTasksList = if (s.tcb t).taskWaitReason = some .mutexCBlk then
    s.blockedTasksList.erase t else s.blockedTasksList
  curr : s'.currRunTask = s.currRunTask

/-- The control block behind the first part of `task_wait_complete`. -/
theorem endWait_tcb (t : TaskId) (s : Sched) : (endWait t true s).tcb t = { s.tcb t with
    pwaitQueue := none, taskWaitRc := .noErr, tickCount := TN_WAIT_INFINITE
    taskState := if (s.tcb t).taskState.isSuspend then .suspend else .runnable } := by
  unfold endWait
  dsimp only
  have h1 : (queueRemoveEntry t s).tcb = s.tcb := rfl
  rw [if_pos rfl]
  by_cases hs : (s.tcb t).taskState.isSuspend = true
  · rw [if_neg]
    · rw [setTcb_same, setTcb_same, timerQueueRemove_tcb, setTcb_same, h1, if_pos hs]
    · rw [setTcb_same, timerQueueRemove_tcb, setTcb_same, h1, hs]
      simp
  · rw [if_pos]
    · rw [taskToRunnable_tcb, setTcb_same, timerQueueRemove_tcb, setTcb_same, h1, if_neg hs]
    · rw [setTcb_same, timerQueueRemove_tcb, setTcb_same, h1]
      simpa using hs

theorem waitComplete_eq (t : TaskId) (s : Sched) : (TnKernel.taskWaitComplete t true s).2 =
    (endWait t true s).setTcb t fun b => { b with taskWaitReason := none } := rfl

/-- A write that undoes another one. -/
theorem setTcb_undo (s : Sched) (t : TaskId) {f g : Tcb → Tcb} (h : g (f (s.tcb t)) = s.tcb t) :
    (s.setTcb t f).setTcb t g = s := by
  unfold Sched.setTcb
  simp only [Function.update_self, Function.update_idem, h, Function.update_eq_self]

/-- The first part, seen from the whole routine: the reason of the wait is still there. -/
theorem endWait_eq (t : TaskId) (s : Sched) : endWait t true s =
    (TnKernel.taskWaitComplete t true s).2.setTcb t fun b =>
      { b with taskWaitReason := (s.tcb t).taskWaitReason } := by
  rw [waitComplete_eq, setTcb_undo]
  rw [endWait_tcb]

theorem endWait_blocked (t : TaskId) (s : Sched) :
    (endWait t true s).blockedTasksList = s.blockedTasksList := by
  unfold endWait timerQueueRemove taskToRunnable
  dsimp only
  repeat' split
  all_goals rfl

theorem endWait_frame (t : TaskId) (s : Sched) : Frame t s (endWait t true s) := by
  rw [endWait_eq]
  exact (waitComplete_frame t true s).trans (frame_setTcb _ t _)

theorem endWait_sched (hs : SInv none s) (hw : (s.tcb t).taskState.isWait = true)
    (hm : waitsForMutex (s.tcb t) = true) : SInv none (endWait t true s) := by
  rw [endWait_eq]
  refine (hs.waitComplete hw).keep (.of_eq rfl ?_)
  intro hc
  unfold waitsForMutex at hm
  have hr : (s.tcb t).taskWaitReason = some .sleep := hc
  rw [hr] at hm
  cases hm

theorem endWait_state (t : TaskId) (s : Sched) : ((endWait t true s).tcb t).taskState.isWait = false := by
  rw [endWait_tcb]
  dsimp only
  split <;> rfl

theorem owns_endWait (t : TaskId) (s : Sched) : Owns (s.tcb t) ((endWait t true s).tcb t) := by
  rw [endWait_tcb]
  exact ⟨rfl, rfl, rfl, fun _ => .inl⟩

/-- A task that has been moved and does not wait is out of the wait lists. -/
theorem Frame.mutexErase (hf : Frame t s s') (hs : SInv none s) (hs' : SInv none s')
    (hw : (s'.tcb t).taskState.isWait = false) (m : Nat) :
    s'.que (.mutex m) = (s.que (.mutex m)).erase t := by
  have ho := hf.order (.mutex m)
  rw [filter_self (not_mem_of_not_wait hs' hw m)] at ho
  rw [ho, (hs.nodup (.mutex m)).erase_eq_filter t]
  apply List.filter_congr
  intro u _
  by_cases hu : u = t <;> simp [hu]

/-- The invariant of the scheduler does not see `tn_blocked_tasks_list`. -/
theorem SInv.setBlocked (hs : SInv none s) (l : List TaskId) :
    SInv none { s with blockedTasksList := l } :=
  ⟨hs.toQInv.of_eq rfl rfl rfl, hs.bmp, hs.next⟩

theorem recalcPriority_reprio (hs : SInv none k.sch) (hu : Users k) (hh : isSystem h = false)
    (hr : recalcPriority len t m h k = .ok k') : ∃ s', k' = { k with sch := s' } ∧ Reprio k.sch s' := by
  unfold recalcPriority at hr
  dsimp only at hr
  split at hr
  · exact setCurrentPriority_reprio hs hu hh hh (.inl rfl) (findMax_lt hs m h) hr
  · cases hr
    exact ⟨_, rfl, .refl hs⟩

/-- The part of `task_wait_complete` that is about mutexes. -/
theorem endMutexWait_reprio (hs : SInv none k.sch) (hu : Users k) {b : Tcb}
    (hb : ∀ m h, blockerOf k b m = some h → isSystem h = false)
    (hr : endMutexWait len t b k = .ok k') : ∃ s', k' = { k with sch := s' } ∧
      Reprio { k.sch with blockedTasksList := if b.taskWaitReason = some .mutexCBlk then
        k.sch.blockedTasksList.erase t else k.sch.blockedTasksList } s' := by
  unfold endMutexWait at hr
  cases hm : mutexOf b with
  | none =>
    rw [hm] at hr
    cases hr
  | some m =>
    rw [hm] at hr
    dsimp only at hr
    obtain ⟨l, hl⟩ : ∃ l, l = if b.taskWaitReason = some .mutexCBlk then
      k.sch.blockedTasksList.erase t else k.sch.blockedTasksList := ⟨_, rfl⟩
    have hk : (if b.taskWaitReason = some .mutexCBlk then
        { k with sch := { k.sch with blockedTasksList := k.sch.blockedTasksList.erase t } } else k) =
        { k with sch := { k.sch with blockedTasksList := l } } := by
      rw [hl]
      split <;> rfl
    rw [hk] at hr
    rw [← hl]
    cases hbl : blockerOf k b m with
    | none =>
      rw [hbl] at hr
      cases hr
      exact ⟨_, rfl, .refl (SInv.setBlocked hs l)⟩
    | some h =>
      rw [hbl] at hr
      exact recalcPriority_reprio (k := { k with sch := { k.sch with blockedTasksList := l } })
        (SInv.setBlocked hs l) ⟨hu.holder, hu.blk⟩ (hb m h hbl) hr

/-- The control block of another task behind the first part. -/
theorem endWait_tcb_ne (s : Sched) (hu : u ≠ t) : (endWait t true s).tcb u = s.tcb u :=
  (endWait_frame t s).tcb u hu

theorem Users.endWait (hu : Users k) (t : TaskId) :
    Users { k with sch := TnMutex.endWait t true k.sch } := by
  refine ⟨hu.holder, fun u h hh => ?_⟩
  by_cases hut : u = t
  · subst hut
    have hb := congrArg Tcb.blkTask (endWait_tcb u k.sch)
    exact hu.blk u h (hb.symm.trans hh)
  · have hb := congrArg Tcb.blkTask (endWait_tcb_ne k.sch hut)
    exact hu.blk u h (hb.symm.trans hh)

/-- **`task_wait_complete`.** -/
theorem taskWaitComplete_woken (hs : SInv none k.sch) (hu : Users k)
    (hw : (k.sch.tcb t).taskState.isWait = true) {r : Bool × Kernel}
    (hr : taskWaitComplete len t true k = .ok r) :
    ∃ s', r.2 = { k with sch := s' } ∧ Woken t k.sch s' := by
  unfold taskWaitComplete at hr
  dsimp only at hr
  cases hm : waitsForMutex (k.sch.tcb t) with
  | false =>
    rw [hm] at hr
    cases hr
    refine ⟨_, rfl, ?_⟩
    rw [← waitComplete_eq]
    have hs' := hs.waitComplete hw
    have hst : ((TnKernel.taskWaitComplete t true k.sch).2.tcb t).taskState.isWait = false :=
      congrArg WaitView.wait (waitComplete_view t true k.sch)
    have hnot : (k.sch.tcb t).taskWaitReason ≠ some .mutexCBlk := by
      intro hc
      unfold waitsForMutex at hm
      rw [hc] at hm
      cases hm
    have hf := waitComplete_frame t true k.sch
    refine ⟨hs', fun u hut => ⟨(k.sch.tcb u).priority, hf.tcb u hut⟩, hst, ?_,
      Frame.mutexErase hf hs hs' hst, ?_, hf.curr⟩
    · rw [waitComplete_eq, setTcb_same, endWait_tcb]
      exact ⟨rfl, rfl, rfl, fun _ => .inl⟩
    · rw [if_neg hnot]
      exact endWait_blocked t k.sch
  | true =>
    rw [hm] at hr
    obtain ⟨k2, h2, hr⟩ := bind_ok hr
    cases hr
    have h1 := endWait_sched hs hw hm
    obtain ⟨s2, rfl, hre⟩ := endMutexWait_reprio (k := { k with sch := endWait t true k.sch }) h1
      (hu.endWait t) (fun m h hh => hu.blocker hh) h2
    refine ⟨_, rfl, ?_⟩
    obtain ⟨p, hp⟩ := hre.tcb t
    have hs3 : SInv none (s2.setTcb t fun b => { b with taskWaitReason := none }) :=
      hre.sched.keep (.of_eq rfl fun hc => by cases hc)
    have htcb : (s2.setTcb t fun b => { b with taskWaitReason := none }).tcb t =
        { (endWait t true k.sch).tcb t with priority := p, taskWaitReason := none } := by
      rw [setTcb_same, hp]
    have howns := owns_endWait t k.sch
    constructor
    case sched => exact hs3
    case tcb =>
      intro u hut
      obtain ⟨q, hq⟩ := hre.tcb u
      refine ⟨q, ?_⟩
      rw [setTcb_ne s2 _ hut, hq]
      show { (endWait t true k.sch).tcb u with priority := q } = _
      rw [endWait_tcb_ne k.sch hut]
    case state =>
      rw [htcb]
      exact endWait_state t k.sch
    case owns =>
      rw [htcb]
      exact ⟨howns.base, howns.idTask, howns.mutexQueue, howns.blk⟩
    case que =>
      intro m
      show s2.que (.mutex m) = _
      rw [hre.que m]
      exact Frame.mutexErase (endWait_frame t k.sch) hs h1 (endWait_state t k.sch) m
    case blocked =>
      show s2.blockedTasksList = _
      rw [hre.blocked]
      show (if _ then (endWait t true k.sch).blockedTasksList.erase t else _) = _
      rw [endWait_blocked]
    case curr =>
      show s2.currRunTask = _
      rw [hre.curr]
      exact (endWait_frame t k.sch).curr

theorem mutexWait_of_not_wait {b : Tcb} (h : b.taskState.isWait = false) : mutexWait b = none := by
  unfold mutexWait
  rw [h]
  rfl

theorem mutexWait_of_wait {b : Tcb} (h : b.taskState.isWait = true) :
    mutexWait b = b.taskWaitReason.filter WaitReason.isMutex := by
  unfold mutexWait
  rw [h]
  rfl

/-- What has become of the other fields. -/
theorem Woken.sameHolders (h : Woken t k.sch s') : SameHolders k { k with sch := s' } := by
  refine ⟨h.sched, rfl, rfl, fun u => ?_⟩
  by_cases hu : u = t
  · subst hu
    exact h.owns
  · obtain ⟨p, hp⟩ := h.tcb u hu
    show Owns _ (s'.tcb u)
    rw [hp]
    exact ⟨rfl, rfl, rfl, fun _ => .inl⟩

/-- The act of `task_wait_complete`; the task may have left `tn_blocked_tasks_list` before. -/
theorem Woken.woke (hi : WaitInv k) (hw : (k.sch.tcb t).taskState.isWait = true) {l : List TaskId}
    (hl : l = k.sch.blockedTasksList ∨ l = k.sch.blockedTasksList.erase t)
    (h : Woken t { k.sch with blockedTasksList := l } s') : Woke t k { k with sch := s' } := by
  have hs := Woken.sameHolders (k := { k with sch := { k.sch with blockedTasksList := l } }) h
  refine ⟨⟨hs.sched, hs.mutex, hs.locked, hs.owns⟩, h.que, ?_, fun u hu => ?_,
    mutexWait_of_not_wait h.state⟩
  · show s'.blockedTasksList = _
    rw [h.blocked]
    have hout : (k.sch.tcb t).taskWaitReason ≠ some .mutexCBlk → t ∉ k.sch.blockedTasksList := by
      intro hr hc
      have hb := (hi.blocked t).mp hc
      rw [mutexWait_of_wait hw, Option.filter_eq_some_iff] at hb
      exact hr hb.1
    show (if (k.sch.tcb t).taskWaitReason = some .mutexCBlk then l.erase t else l) = _
    rcases hl with rfl | rfl
    · split
      · rfl
      · rename_i hr
        rw [List.erase_of_not_mem (hout hr)]
    · split
      · rw [List.erase_of_not_mem hi.blockedNodup.not_mem_erase]
      · rfl
  · obtain ⟨p, hp⟩ := h.tcb u hu
    show mutexWait (s'.tcb u) = _
    rw [hp]
    rfl

end TnMutex
