import TnNet.Mutex.Routines

/-!
# The services of `tn_mutex.c` as acts

* `giveMutex_acts`, `lockBlocked_acts`, `passMutex_acts`, `tnMutexUnlock_acts` — a mutex is given back
  and passed on.
* `tnMutexLock_acts`, `tnMutexLockPolling_acts` — a mutex is locked, or the running task waits for it.
* `tnMutexDelete_acts`, `mutexCreate_acts`.

`HandOver`: the ceiling mutex that is given back goes to the waiter `do_unlock_mutex` has chosen.
`TryRight`, `PassRight`: where `enable_lock_mutex` lets a task lock a mutex, the base priority of the
task is above the ceilings of the mutexes of the others.
-/

set_option autoImplicit false

namespace TnMutex

open TnKernel Fold

variable {k k' : Kernel} {s s' : Sched} {t u w h : TaskId} {m n len : Nat} {o : Option Nat}
  {strict : Prop}

/-! ## Conditions -/

/-- The waiter `do_unlock_mutex` has chosen may lock the mutex. -/
def HandOver (m : Nat) (k : Kernel) : Prop :=
  (k.mutex m).attr = .ceiling → ∀ w, hiPriTask m k.sch = some w → (enableLockMutex k w).1 = true

/-- `try_lock_mutex` is right to lock a mutex for the task, when it does. -/
def TryRight (k : Kernel) (t : TaskId) : Prop :=
  ∀ m, mutexOf (k.sch.tcb t) = some m → (k.mutex m).holder = none → (enableLockMutex k t).1 = true →
    Above k t

/-- The second half of `do_unlock_mutex` is right to lock the mutexes it locks. -/
structure PassRight (len m : Nat) (k : Kernel) : Prop where
  waiter : ∀ w, hiPriTask m k.sch = some w → Above k w
  blocked : k.sch.que (.mutex m) = [] → Along (lockBlockedTask len k.sch.currRunTask)
    (fun k' t => t ≠ k.sch.currRunTask → TryRight k' t) (dropMutex m k) k.sch.blockedTasksList

/-! ## A mutex is passed on -/

theorem SameHolders.above (h : SameHolders k k') (ha : Above k t) : Above k' t := by
  intro m hm hh
  rw [h.locked] at hm
  rw [h.mutex] at hh ⊢
  rw [(h.owns t).base]
  exact ha m hm hh

/-- A task in the wait list of a mutex. -/
theorem WaitInv.waiter (hi : WaitInv k) (ht : t ∈ k.sch.que (.mutex m)) :
    isSystem t = false ∧ (k.sch.tcb t).taskState.isWait = true ∧ (k.sch.tcb t).idTask = true := by
  have hpw := ((hi.sched.ok t).waits (.mutex m) rfl).mp ht
  have hw := ((hi.sched.ok t).wait _ hpw).1
  refine ⟨?_, hw, hi.sched.idTask ?_⟩
  · unfold isSystem
    rw [Bool.or_eq_false_iff, decide_eq_false_iff_not, decide_eq_false_iff_not]
    refine ⟨fun hc => ?_, fun hc => ?_⟩
    · rw [((hi.sched.ok t).timer hc).1] at hpw
      cases hpw
    · rw [(hi.sched.ok t).idle hc] at hw
      cases hw
  · intro hc
    rw [hc] at hw
    cases hw

theorem setBlkTask_still (hs : SInv none k.sch) (t : TaskId) {blk : Option TaskId}
    (hb : ∀ h, blk = some h → isSystem h = false) : Still k (setBlkTask t blk k) := by
  have hs' : SInv none (k.sch.setTcb t fun b => { b with blkTask := blk }) := hs.keep (.of_eq rfl id)
  exact still_setTcb hs' ⟨rfl, rfl, rfl, fun h hh => .inr (hb h hh)⟩ rfl

/-- **A waiter gets the mutex.** -/
theorem giveMutex_acts (hi : MInv (some m) k) (hw : w ∈ k.sch.que (.mutex m))
    (hab : strict → Above k w) {l : List TaskId}
    (hl : l = k.sch.blockedTasksList ∨ l = k.sch.blockedTasksList.erase w)
    (hr : giveMutex len m w { k with sch := { k.sch with blockedTasksList := l } } = .ok k') :
    Acts strict (some m, k) (none, k') := by
  obtain ⟨hsys, hwait, hid⟩ := hi.waiter hw
  obtain ⟨r, h1, h2⟩ := bind_ok hr
  cases h2
  obtain ⟨s', hr2, hwk⟩ := taskWaitComplete_woken
    (k := { k with sch := { k.sch with blockedTasksList := l } }) (SInv.setBlocked hi.sched l)
    ⟨hi.sysHolder, hi.sysBlk⟩ hwait h1
  have hwoke : Woke w k r.2 := by
    rw [hr2]
    exact hwk.woke hi.toWaitInv hwait hl
  have h3 : Act strict (some m, k) (some m, r.2) := .woke w hwoke
  have h4 : Act strict (some m, r.2) (none, lockMutex r.2 m w) := by
    apply Act.acquire w m hsys
    · rw [(hwoke.owns w).idTask]
      exact hid
    · exact hwoke.self
    · exact fun hc => hwoke.toSameHolders.above (hab hc)
  have hm4 := h4.minv (h3.minv hi)
  have h5 : Act strict (none, lockMutex r.2 m w) (none, setBlkTask w none (lockMutex r.2 m w)) :=
    .still (setBlkTask_still hm4.sched w fun h hh => by cases hh)
  exact ((Relation.ReflTransGen.single h3).tail h4).tail h5

theorem mutexOf_eq {b : Tcb} (h : mutexOf b = some m) : b.pwaitQueue = some (.mutex m) := by
  unfold mutexOf at h
  split at h
  · rename_i q hq
    cases h
    exact hq
  · cases h

/-- The task waits for the mutex its control block names. -/
theorem WaitInv.mem_of_mutexOf (hi : WaitInv k) (h : mutexOf (k.sch.tcb t) = some m) :
    t ∈ k.sch.que (.mutex m) := ((hi.sched.ok t).waits (.mutex m) rfl).mpr (mutexOf_eq h)

theorem tryLockMutex_acts (hi : MInv none k) (hok : strict → TryRight k t)
    (hr : tryLockMutex len k t = .ok k') : Acts strict (none, k) (none, k') := by
  unfold tryLockMutex at hr
  cases hm : mutexOf (k.sch.tcb t) with
  | none =>
    rw [hm] at hr
    cases hr
  | some m =>
    rw [hm] at hr
    dsimp only at hr
    split at hr
    · rename_i hc
      have hq := hi.mem_of_mutexOf hm
      have h1 : Act strict (none, k) (some m, k) := .takeOut m (hi.exist m t hq) hc.1
      have h2 : Acts strict (some m, k) (none, k') :=
        giveMutex_acts (h1.minv hi) hq (fun hs => hok hs m hm hc.1 hc.2) (.inr rfl) hr
      exact (Relation.ReflTransGen.single h1).trans h2
    · cases hr
      exact .refl

theorem lockBlockedTask_acts {hi : TaskId} (hk : MInv none k) (hok : strict → t ≠ hi → TryRight k t)
    (hr : lockBlockedTask len hi k t = .ok k') : Acts strict (none, k) (none, k') := by
  unfold lockBlockedTask at hr
  split at hr
  · cases hr
    exact .refl
  · rename_i ht
    exact tryLockMutex_acts hk (fun hs => hok hs ht) hr

/-- **The loop at the end of `do_unlock_mutex`.** -/
theorem lockBlocked_acts (strict : Prop) {r : Kernel × List Seen} (hi : MInv none k)
    (hok : strict → Along (lockBlockedTask len k.sch.currRunTask)
      (fun k' t => t ≠ k.sch.currRunTask → TryRight k' t) k k.sch.blockedTasksList)
    (hr : lockBlocked len k = .ok r) : Acts strict (none, k) (none, r.1) ∧
      (.listHead ∈ r.2 → k.sch.blockedTasksList = []) := by
  unfold lockBlocked at hr
  split at hr
  · rename_i hnil
    cases hr
    exact ⟨.refl, fun _ => hnil⟩
  · obtain ⟨k1, h1, h2⟩ := bind_ok hr
    cases h2
    refine ⟨?_, fun hc => by cases hc⟩
    refine foldlM_along (fun x _ => Acts strict (none, k) (none, x)) ?_ .refl (along_imp hok) h1
    intro x t l y hx hP hy
    exact hx.trans (lockBlockedTask_acts (hx.minv hi) hP hy)

theorem unlockToWaiter_acts (hi : MInv (some m) k) (hw : w ∈ k.sch.que (.mutex m))
    (hen : (enableLockMutex k w).1 = true) (hab : strict → Above k w)
    (hr : unlockToWaiter len m w k = .ok k') : Acts strict (some m, k) (none, k') := by
  unfold unlockToWaiter at hr
  rw [if_pos hen] at hr
  exact giveMutex_acts hi hw hab (.inr rfl) hr

/-- **The second half of `do_unlock_mutex`.** -/
theorem passMutex_acts {r : Kernel × List Seen} (hi : MInv (some m) k)
    (hall : strict → (k.mutex m).attr = .ceiling) (hh : HandOver m k)
    (hok : strict → PassRight len m k) (hr : passMutex len m k = .ok r) :
    Acts strict (some m, k) (none, r.1) ∧ (.listHead ∈ r.2 → (k.mutex m).attr = .ceiling ∧
      k.sch.que (.mutex m) = [] ∧ k.sch.blockedTasksList = []) := by
  unfold passMutex at hr
  cases hq : k.sch.que (.mutex m) with
  | nil =>
    have hdrop : Act strict (some m, k) (none, dropMutex m k) := .drop m fun _ => hq
    cases ha : (k.mutex m).attr with
    | inherit =>
      rw [hq, ha] at hr
      cases hr
      exact ⟨.single hdrop, fun hc => by cases hc⟩
    | ceiling =>
      rw [hq, ha] at hr
      obtain ⟨h1, h2⟩ := lockBlocked_acts strict (hdrop.minv hi)
        (fun hs => (hok hs).blocked hq) hr
      exact ⟨(Relation.ReflTransGen.single hdrop).trans h1, fun hc => ⟨rfl, rfl, h2 hc⟩⟩
  | cons w l =>
    cases ha : (k.mutex m).attr with
    | inherit =>
      rw [hq, ha] at hr
      obtain ⟨k1, h1, h2⟩ := bind_ok hr
      cases h2
      refine ⟨?_, fun hc => by cases hc⟩
      refine giveMutex_acts hi (by simp [hq]) (fun hs => ?_) (.inl rfl) h1
      have hc := hall hs
      rw [ha] at hc
      cases hc
    | ceiling =>
      rw [hq, ha] at hr
      dsimp only at hr
      cases hp : hiPriTask m k.sch with
      | none =>
        rw [hp] at hr
        cases hr
      | some v =>
        rw [hp] at hr
        obtain ⟨k1, h1, h2⟩ := bind_ok hr
        cases h2
        refine ⟨?_, fun hc => by cases hc⟩
        exact unlockToWaiter_acts hi (hiPriTask_mem hp) (hh ha v hp) (fun hs => (hok hs).waiter v hp) h1

/-- What `queue_remove_entry` finds for a mutex that is held. -/
theorem MInv.linked (hi : MInv none k) (hid : (k.mutex m).idMutex = true)
    (hh : (k.mutex m).holder = some h) :
    m ∈ (k.sch.tcb h).mutexQueue ∧ m ∈ k.lockedMutexesList := by
  have hl : m ∈ k.lockedMutexesList := (hi.locked m (by simp)).mpr ⟨hid, by rw [hh]; rfl⟩
  exact ⟨(hi.queue h m).mpr ⟨hl, hh⟩, hl⟩

theorem unlinkMutex_eq (hl : m ∈ (k.sch.tcb h).mutexQueue ∧ m ∈ k.lockedMutexesList) :
    unlinkMutex h m k = .ok (unlinked h m k) := if_pos hl

theorem heldPriority_lt (hs : SInv none s) (t : TaskId) : heldPriority t s < 32 :=
  Nat.lt_of_le_of_lt (foldl_priority_le _ _ s) (hs.prioOk t).2.1

/-- **The first half of `do_unlock_mutex`.** -/
theorem releaseMutex_reprio (hi : MInv none k) (hid : (k.mutex m).idMutex = true)
    (hh : (k.mutex m).holder = some k.sch.currRunTask) (hr : releaseMutex len m k = .ok k') :
    ∃ s', k' = { unlinked k.sch.currRunTask m k with sch := s' } ∧
      Reprio (unlinked k.sch.currRunTask m k).sch s' := by
  have hl := hi.linked hid hh
  unfold releaseMutex at hr
  dsimp only at hr
  rw [unlinkMutex_eq hl] at hr
  have hi1 := hi.unlink hl.1
  have hsys := hi.sysHolder m _ hh
  exact setCurrentPriority_reprio hi1.sched hi1.users hsys hsys (.inl rfl)
    (heldPriority_lt hi1.sched _) hr

/-- The running task gets the priority its other mutexes give it. -/
theorem releaseMutex_direct (hi : MInv none k) (hid : (k.mutex m).idMutex = true)
    (hh : (k.mutex m).holder = some k.sch.currRunTask)
    (hrun : (k.sch.tcb k.sch.currRunTask).taskState = .runnable) (hr : releaseMutex len m k = .ok k') :
    ∃ s', k' = { unlinked k.sch.currRunTask m k with sch := s' } ∧
      Reprio (unlinked k.sch.currRunTask m k).sch s' ∧
      (s'.tcb k.sch.currRunTask).priority =
        heldPriority k.sch.currRunTask (unlinked k.sch.currRunTask m k).sch ∧
      ∀ u, u ≠ k.sch.currRunTask → s'.tcb u = k.sch.tcb u := by
  obtain ⟨s', rfl, hre⟩ := releaseMutex_reprio hi hid hh hr
  have hrun1 : ((unlinked k.sch.currRunTask m k).sch.tcb k.sch.currRunTask).taskState = .runnable :=
    (congrArg Tcb.taskState (setQueue_self k.sch _ (·.erase m))).trans hrun
  unfold releaseMutex at hr
  dsimp only at hr
  rw [unlinkMutex_eq (hi.linked hid hh)] at hr
  obtain ⟨s'', heq, hself, hne⟩ := setCurrentPriority_direct
    (.inr fun hc => by rw [hrun1] at hc; cases hc.1) hr
  have hss : s' = s'' := congrArg Kernel.sch heq
  subst hss
  refine ⟨s', rfl, hre, by rw [hself], fun u hu => (hne u hu).trans ?_⟩
  exact setQueue_ne k.sch (·.erase m) hu

theorem releaseMutex_acts (strict : Prop) (hi : MInv none k) (hid : (k.mutex m).idMutex = true)
    (hh : (k.mutex m).holder = some k.sch.currRunTask) (hr : releaseMutex len m k = .ok k') :
    Acts strict (none, k) (some m, k') ∧ k'.mutex = k.mutex ∧
      k'.sch.que (.mutex m) = k.sch.que (.mutex m) ∧
      k'.sch.blockedTasksList = k.sch.blockedTasksList := by
  obtain ⟨s', rfl, hre⟩ := releaseMutex_reprio hi hid hh hr
  have h1 : Act strict (none, k) (some m, unlinked k.sch.currRunTask m k) :=
    .unlink k.sch.currRunTask m (hi.linked hid hh).1
  exact ⟨(Relation.ReflTransGen.single h1).tail (.still hre.still), rfl, hre.que m, hre.blocked⟩

/-- The condition on `tn_mutex_unlock`: where the mutex is passed on, it is passed on rightly. -/
def UnlockRight (strict : Prop) (len m : Nat) (k : Kernel) : Prop :=
  ∀ k', releaseMutex len m k = .ok k' → HandOver m k' ∧ (strict → PassRight len m k')

/-- `do_unlock_mutex` takes the head of `tn_blocked_tasks_list` for a task. -/
structure TakesHead (m : Nat) (k : Kernel) : Prop where
  exist : (k.mutex m).idMutex = true
  held : (k.mutex m).holder = some k.sch.currRunTask
  attr : (k.mutex m).attr = .ceiling
  que : k.sch.que (.mutex m) = []
  blocked : k.sch.blockedTasksList = []

/-- **`tn_mutex_unlock`.** -/
theorem tnMutexUnlock_acts {r : Kernel × List Seen} (hi : MInv none k)
    (hall : strict → ∀ m, (k.mutex m).idMutex = true → (k.mutex m).attr = .ceiling)
    (hok : (k.mutex m).idMutex = true → (k.mutex m).holder = some k.sch.currRunTask →
      UnlockRight strict len m k) (hr : tnMutexUnlock len m k = .ok r) :
    Acts strict (none, k) (none, r.1) ∧ (.listHead ∈ r.2 → TakesHead m k) := by
  unfold tnMutexUnlock at hr
  split at hr
  · cases hr
    exact ⟨.refl, fun hc => by simp at hc⟩
  rename_i hid
  split at hr
  · cases hr
    exact ⟨.refl, fun hc => by simp at hc⟩
  rename_i hh
  simp only [Bool.not_eq_true', Bool.not_eq_false] at hid
  rw [not_not] at hh
  obtain ⟨r', h1, h2⟩ := bind_ok hr
  cases h2
  obtain ⟨k1, h3, h4⟩ := bind_ok h1
  obtain ⟨h5, hmut, hque, hbl⟩ := releaseMutex_acts strict hi hid hh h3
  obtain ⟨hhand, hpass⟩ := hok hid hh k1 h3
  obtain ⟨h6, h7⟩ :=
    passMutex_acts (h5.minv hi) (fun hs => by rw [hmut]; exact hall hs m hid) hhand hpass h4
  refine ⟨h5.trans h6, fun hc => ?_⟩
  have hc' : .listHead ∈ r'.2 := by simpa using hc
  obtain ⟨ha, hq, hb⟩ := h7 hc'
  rw [hmut] at ha
  exact ⟨hid, hh, ha, hque.symm.trans hq, hbl.symm.trans hb⟩

/-! ## The running task locks a mutex or waits for it -/

/-- The running task waits. -/
structure Joined (m : Nat) (r : WaitReason) (s s' : Sched) : Prop where
  sched : SInv none s'
  tcb : ∀ u, u ≠ s.currRunTask → s'.tcb u = s.tcb u
  self : mutexWait (s'.tcb s.currRunTask) = (some r).filter WaitReason.isMutex
  owns : Owns (s.tcb s.currRunTask) (s'.tcb s.currRunTask)
  priority : (s'.tcb s.currRunTask).priority = (s.tcb s.currRunTask).priority
  que : s'.que (.mutex m) = s.que (.mutex m) ++ [s.currRunTask]
  queNe : ∀ n, n ≠ m → s'.que (.mutex n) = s.que (.mutex n)
  blocked : s'.blockedTasksList = s.blockedTasksList
  curr : s'.currRunTask = s.currRunTask

theorem currToWait_blocked (waitQue : Option Que) (reason : WaitReason) (timeout : BitVec 32)
    (s : Sched) :
    (taskCurrToWaitAction waitQue reason timeout s).blockedTasksList = s.blockedTasksList := by
  have h1 : (taskToNonRunnable s.currRunTask s).blockedTasksList = s.blockedTasksList := by
    unfold taskToNonRunnable findNextTaskToRun
    dsimp only
    repeat' split
    all_goals rfl
  rw [taskCurrToWaitAction_eq]
  unfold joinTimeouts joinQue
  cases waitQue <;> dsimp only <;> split <;> exact h1

/-- **`task_curr_to_wait_action`** for a mutex. -/
theorem joined (hs : SInv none s) (hr : (s.tcb s.currRunTask).taskState = .runnable)
    (hsys : isSystem s.currRunTask = false) {r : WaitReason} (hrs : r ≠ .sleep) (m : Nat)
    (timeout : BitVec 32) : Joined m r s (taskCurrToWaitAction (some (.mutex m)) r timeout s) := by
  have hw := (hs.ok s.currRunTask).pwait_none (by rw [hr]; rfl)
  have hb := taskCurrToWaitAction_tcb (some (.mutex m)) r timeout s hw
  have hf := taskCurrToWaitAction_frame (some (.mutex m)) r timeout s
  have hque : ∀ q, (taskCurrToWaitAction (some (.mutex m)) r timeout s).que q =
      Function.update (taskToNonRunnable s.currRunTask s).que (.mutex m)
        ((taskToNonRunnable s.currRunTask s).que (.mutex m) ++ [s.currRunTask]) q := by
    intro q
    rw [taskCurrToWaitAction_eq, joinTimeouts_que]
    rfl
  have hsame : ∀ n, (taskToNonRunnable s.currRunTask s).que (.mutex n) = s.que (.mutex n) := by
    intro n
    rw [taskToNonRunnable_que]
    exact List.erase_of_not_mem (not_mem_of_not_wait hs (by rw [hr]; rfl) n)
  constructor
  case sched =>
    refine hs.block hr (isSystem_false hsys).2 (fun hc => absurd hc (isSystem_false hsys).1) ?_
    intro q hq
    cases hq
    exact ⟨rfl, hrs⟩
  case tcb => exact fun u hu => hf.tcb u hu
  case self =>
    rw [hb]
    rfl
  case owns =>
    rw [hb]
    exact ⟨rfl, rfl, rfl, fun _ => .inl⟩
  case priority => rw [hb]
  case que => rw [hque, Function.update_self, hsame m]
  case queNe =>
    intro n hn
    rw [hque, Function.update_of_ne (by simpa using hn), hsame n]
  case blocked => exact currToWait_blocked _ _ _ s
  case curr => exact hf.curr

/-- The running task is an application task. -/
structure RunsUser (k : Kernel) : Prop where
  run : (k.sch.tcb k.sch.currRunTask).taskState = .runnable
  user : isSystem k.sch.currRunTask = false

theorem Still.mayWait {r : WaitReason} (h : Still k k') (hm : MayWait t m r k) : MayWait t m r k' := by
  constructor
  case exist => simpa only [h.mutex] using hm.exist
  case idle => simpa only [h.wait] using hm.idle
  case suits => simpa only [h.mutex] using hm.suits
  case ceil =>
    rw [h.mutex, (h.owns t).base]
    exact hm.ceil
  case other => simpa only [h.mutex] using hm.other
  case held => simpa only [h.mutex] using hm.held

/-- What `lockWait` does before the running task waits. -/
theorem lockWait_reprio (hi : MInv none k) {blk : Option TaskId}
    (hblk : ∀ b, blk = some b → isSystem b = false) {r : WaitReason} {timeout : BitVec 32}
    (hr : lockWait len m blk r timeout k = .ok k') : ∃ s', Reprio k.sch s' ∧
      k' = { k with sch := taskCurrToWaitAction (some (.mutex m)) r timeout s' } := by
  unfold lockWait at hr
  cases blk with
  | none =>
    cases hr
    exact ⟨k.sch, .refl hi.sched, rfl⟩
  | some b =>
    dsimp only at hr
    split at hr
    · obtain ⟨k1, h1, h2⟩ := bind_ok hr
      cases h2
      obtain ⟨s', rfl, hre⟩ := setCurrentPriority_reprio hi.sched hi.users (hblk b rfl) (hblk b rfl)
        (.inl rfl) (hi.sched.prioOk k.sch.currRunTask).1 h1
      exact ⟨s', hre, rfl⟩
    · cases hr
      exact ⟨k.sch, .refl hi.sched, rfl⟩

/-- The running task behind a change of priorities. -/
theorem Reprio.runs (h : Reprio s s') (hr : (s.tcb s.currRunTask).taskState = .runnable) :
    (s'.tcb s'.currRunTask).taskState = .runnable := by
  obtain ⟨p, hp⟩ := h.tcb s.currRunTask
  rw [h.curr, hp]
  exact hr

theorem Joined.waits {r : WaitReason} (h : Joined m r k.sch s') (hm : r.isMutex = true)
    (hb : r ≠ .mutexCBlk) : Waits k.sch.currRunTask m r k { k with sch := s' } := by
  refine ⟨⟨h.sched, rfl, rfl, fun u => ?_⟩, h.que, h.queNe, ?_, fun u hu => ?_, ?_⟩
  · by_cases hu : u = k.sch.currRunTask
    · rw [hu]
      exact h.owns
    · show Owns _ (s'.tcb u)
      rw [h.tcb u hu]
      exact .refl _
  · rw [if_neg hb]
    exact h.blocked
  · show mutexWait (s'.tcb u) = _
    rw [h.tcb u hu]
  · show mutexWait (s'.tcb k.sch.currRunTask) = some r
    rw [h.self]
    simp [hm]

/-- The running task waits in `tn_blocked_tasks_list`. -/
theorem Joined.waitsBlocked {blk : Option TaskId} (h : Joined m .mutexCBlk k.sch s')
    (hblk : ∀ b, blk = some b → isSystem b = false) :
    Waits k.sch.currRunTask m .mutexCBlk k (blockCurr blk { k with sch := s' }) := by
  obtain ⟨k1, hk1⟩ : ∃ k1 : Kernel, k1 = { k with sch := { s' with
    blockedTasksList := s'.blockedTasksList ++ [k.sch.currRunTask] } } := ⟨_, rfl⟩
  have hk : blockCurr blk { k with sch := s' } = setBlkTask k.sch.currRunTask blk k1 := by
    rw [hk1]
    unfold blockCurr
    dsimp only
    rw [h.curr]
  have hs1 : SInv none k1.sch := by
    rw [hk1]
    exact SInv.setBlocked h.sched _
  have hst := setBlkTask_still hs1 k.sch.currRunTask hblk
  have htcb : k1.sch.tcb = s'.tcb := by rw [hk1]
  have hque : k1.sch.que = s'.que := by rw [hk1]
  rw [hk]
  refine ⟨⟨hst.sched, by rw [hst.mutex, hk1], by rw [hst.locked, hk1], fun u => ?_⟩, ?_, ?_, ?_, ?_, ?_⟩
  · refine Owns.trans ?_ (hst.owns u)
    rw [htcb]
    by_cases hu : u = k.sch.currRunTask
    · rw [hu]
      exact h.owns
    · rw [h.tcb u hu]
      exact .refl _
  · rw [hst.que, hque]
    exact h.que
  · intro n hn
    rw [hst.que, hque]
    exact h.queNe n hn
  · rw [hst.blocked, if_pos rfl, hk1, h.blocked]
  · intro u hu
    rw [hst.wait, htcb, h.tcb u hu]
  · rw [hst.wait, htcb, h.self]
    rfl

/-- The running task waits for the mutex. -/
theorem lockWait_acts (hi : MInv none k) (hru : RunsUser k) {blk : Option TaskId}
    (hblk : ∀ b, blk = some b → isSystem b = false) {r : WaitReason} {timeout : BitVec 32}
    (hm : MayWait k.sch.currRunTask m r k) (hmut : r.isMutex = true) (hb : r ≠ .mutexCBlk)
    (hr : lockWait len m blk r timeout k = .ok k') : Acts strict (none, k) (none, k') := by
  obtain ⟨s', hre, rfl⟩ := lockWait_reprio hi hblk hr
  have hj := joined hre.sched (hre.runs hru.run) (by rw [hre.curr]; exact hru.user)
    (r := r) (by rintro rfl; cases hmut) m timeout
  have h1 : Act strict (none, k) (none, { k with sch := s' }) := .still hre.still
  have hw := Joined.waits (k := { k with sch := s' }) hj hmut hb
  have hm' := hre.still.mayWait hm
  rw [← hre.curr] at hm'
  exact (Relation.ReflTransGen.single h1).tail (.waits _ m r hm' hw)

theorem lockBlock_acts (hi : MInv none k) (hru : RunsUser k) {blk : Option TaskId}
    (hblk : ∀ b, blk = some b → isSystem b = false) {timeout : BitVec 32}
    (hm : MayWait k.sch.currRunTask m .mutexCBlk k)
    (hr : lockWait len m blk .mutexCBlk timeout k = .ok k') :
    Acts strict (none, k) (none, blockCurr blk k') := by
  obtain ⟨s', hre, rfl⟩ := lockWait_reprio hi hblk hr
  have hj := joined hre.sched (hre.runs hru.run) (by rw [hre.curr]; exact hru.user)
    (r := .mutexCBlk) (by simp) m timeout
  have h1 : Act strict (none, k) (none, { k with sch := s' }) := .still hre.still
  have hw := Joined.waitsBlocked (k := { k with sch := s' }) hj hblk
  have hm' := hre.still.mayWait hm
  rw [← hre.curr] at hm'
  exact (Relation.ReflTransGen.single h1).tail (.waits _ m .mutexCBlk hm' hw)

/-- The running task is right to lock the mutex, when it does. -/
def LockRight (m : Nat) (k : Kernel) : Prop :=
  (k.mutex m).holder = none → (enableLockMutex k k.sch.currRunTask).1 = true →
    Above k k.sch.currRunTask

/-- The running task locks a mutex without a holder. -/
theorem lockMutex_acts (hi : MInv none k) (hru : RunsUser k) (hid : (k.mutex m).idMutex = true)
    (hh : (k.mutex m).holder = none) (hab : strict → Above k k.sch.currRunTask) :
    Acts strict (none, k) (none, lockMutex k m k.sch.currRunTask) := by
  have h1 : Act strict (none, k) (some m, k) := .takeOut m hid hh
  have hidt : (k.sch.tcb k.sch.currRunTask).idTask = true := hi.sched.idTask (by rw [hru.run]; simp)
  have hw : mutexWait (k.sch.tcb k.sch.currRunTask) = none :=
    mutexWait_of_not_wait (by rw [hru.run]; rfl)
  exact (Relation.ReflTransGen.single h1).tail (.acquire _ m hru.user hidt hw hab)

theorem lockCeiling_acts (hi : MInv none k) (hru : RunsUser k) (hid : (k.mutex m).idMutex = true)
    (hh : (k.mutex m).holder = none) (hab : strict → Above k k.sch.currRunTask) :
    Acts strict (none, k) (none,
      setBlkTask k.sch.currRunTask none (lockMutex k m k.sch.currRunTask)) := by
  have h1 := lockMutex_acts hi hru hid hh hab
  exact h1.tail (.still (setBlkTask_still (h1.minv hi).sched _ fun h hc => by cases hc))

/-- **`tn_mutex_lock`.** -/
theorem tnMutexLock_acts {timeout : BitVec 32} {r : Option Terr × Kernel} (hi : MInv none k)
    (hru : RunsUser k)
    (hall : strict → ∀ m, (k.mutex m).idMutex = true → (k.mutex m).attr = .ceiling)
    (hok : strict → LockRight m k) (hr : tnMutexLock len m timeout k = .ok r) :
    Acts strict (none, k) (none, r.2) := by
  unfold tnMutexLock at hr
  dsimp only at hr
  split at hr
  · cases hr
    exact .refl
  split at hr
  · cases hr
    exact .refl
  rename_i hid
  simp only [Bool.not_eq_true', Bool.not_eq_false] at hid
  split at hr
  · cases hr
    exact .refl
  rename_i hown
  split at hr
  · cases hr
    exact .refl
  rename_i hceil
  have hidle : mutexWait (k.sch.tcb k.sch.currRunTask) = none :=
    mutexWait_of_not_wait (by rw [hru.run]; rfl)
  have hmay : ∀ r, Suits (k.mutex m).attr r →
      ((k.mutex m).attr = .inherit → (k.mutex m).holder ≠ none) →
      MayWait k.sch.currRunTask m r k := fun r hsuits hheld =>
    ⟨hid, hidle, hsuits, fun ha => Nat.le_of_not_lt fun hc => hceil ⟨ha, hc⟩, hown, hheld⟩
  cases ha : (k.mutex m).attr with
  | ceiling =>
    cases hh : (k.mutex m).holder with
    | none =>
      rw [ha, hh] at hr
      dsimp only at hr
      split at hr
      · rename_i hen
        cases hr
        exact lockCeiling_acts hi hru hid hh fun hs => hok hs hh hen
      · obtain ⟨k1, h1, h2⟩ := bind_ok hr
        cases h2
        refine lockBlock_acts hi hru (fun b hb => ?_) (hmay _ (by rw [ha]; exact .inr rfl) ?_) h1
        · obtain ⟨n, hn⟩ := enableLockMutex_holder k k.sch.currRunTask hb
          exact hi.sysHolder n b hn
        · rw [ha]
          simp
    | some b =>
      rw [ha, hh] at hr
      obtain ⟨k1, h1, h2⟩ := bind_ok hr
      cases h2
      refine lockWait_acts hi hru (fun b' hb => ?_) (hmay _ (by rw [ha]; exact .inl rfl) ?_) rfl
        (by simp) h1
      · cases hb
        exact hi.sysHolder m b hh
      · rw [ha]
        simp
  | inherit =>
    cases hh : (k.mutex m).holder with
    | none =>
      rw [ha, hh] at hr
      cases hr
      refine lockMutex_acts hi hru hid hh fun hs => ?_
      have hc := hall hs m hid
      rw [ha] at hc
      cases hc
    | some b =>
      rw [ha, hh] at hr
      obtain ⟨k1, h1, h2⟩ := bind_ok hr
      cases h2
      refine lockWait_acts hi hru (fun b' hb => ?_) (hmay _ (by rw [ha]; exact rfl) ?_) rfl (by simp) h1
      · cases hb
        exact hi.sysHolder m b hh
      · rw [hh]
        simp

/-- **`tn_mutex_lock_polling`.** -/
theorem tnMutexLockPolling_acts (hi : MInv none k) (hru : RunsUser k)
    (hall : strict → ∀ m, (k.mutex m).idMutex = true → (k.mutex m).attr = .ceiling)
    (hok : strict → LockRight m k) : Acts strict (none, k) (none, (tnMutexLockPolling m k).2) := by
  unfold tnMutexLockPolling
  dsimp only
  split
  · exact .refl
  rename_i hid
  simp only [Bool.not_eq_true', Bool.not_eq_false] at hid
  split
  · exact .refl
  split
  · exact .refl
  split
  · rename_i hh
    split
    · rename_i hen
      exact lockCeiling_acts hi hru hid hh fun hs => hok hs hh hen
    · exact .refl
  · rename_i ha hh
    refine lockMutex_acts hi hru hid hh fun hs => ?_
    have hc := hall hs m hid
    rw [ha] at hc
    cases hc
  · exact .refl

/-! ## Mutexes are created and deleted -/

/-- A mutex that does not exist has no waiters. -/
theorem WaitInv.que_nil (hi : WaitInv k) (hid : (k.mutex m).idMutex = false) :
    k.sch.que (.mutex m) = [] := by
  rw [List.eq_nil_iff_forall_not_mem]
  intro u hu
  have hc := hi.exist m u hu
  rw [hid] at hc
  cases hc

/-- **`tn_mutex_create`.** -/
theorem tnMutexCreate_acts (hi : MInv none k) {attr : MutexAttr} (ceilPriority : Int)
    (ha : strict → attr = .ceiling) :
    Acts strict (none, k) (none, (tnMutexCreate m attr ceilPriority k).1) := by
  unfold tnMutexCreate
  split
  · exact .refl
  rename_i hid
  rw [Bool.not_eq_true] at hid
  split
  · exact .refl
  have hq := hi.que_nil hid
  have hupd : Function.update k.sch.que (.mutex m) [] = k.sch.que := by
    rw [← hq]
    exact Function.update_eq_self _ _
  dsimp only
  rw [hupd]
  exact .single (.newMutex m attr ceilPriority.toNat hid ha)

/-- **The loop of `tn_mutex_delete`.**  The induction is on the passes it may make. -/
theorem deleteLoop_acts (strict : Prop) {r : Bool × Kernel} (hi : MInv none k)
    (hr : deleteLoop len m n k = .ok r) : Acts strict (none, k) (none, r.2) ∧ r.2.mutex = k.mutex ∧
      (r.1 = false → r.2.sch.que (.mutex m) = []) := by
  induction n generalizing k with
  | zero => cases hr
  | succ n ih =>
    unfold deleteLoop at hr
    cases hq : k.sch.que (.mutex m) with
    | nil =>
      rw [hq] at hr
      cases hr
      exact ⟨.refl, rfl, fun _ => hq⟩
    | cons t l =>
      rw [hq] at hr
      dsimp only at hr
      have ht : t ∈ k.sch.que (.mutex m) := by simp [hq]
      obtain ⟨hsys, hwait, hid⟩ := hi.waiter ht
      obtain ⟨r1, h1, h2⟩ := bind_ok hr
      rw [hi.sched.removeHead_eq rfl hq] at h1
      obtain ⟨s', hr1, hwk⟩ := taskWaitComplete_woken
        (k := { k with sch := { k.sch with blockedTasksList := k.sch.blockedTasksList.erase t } })
        (SInv.setBlocked hi.sched _) ⟨hi.sysHolder, hi.sysBlk⟩ hwait h1
      have hwoke : Woke t k r1.2 := by
        rw [hr1]
        exact hwk.woke hi.toWaitInv hwait (.inr rfl)
      have h3 : Act strict (none, k) (none, r1.2) := .woke t hwoke
      split at h2
      · cases h2
        have hs4 : SInv none (r1.2.sch.setTcb t fun b => { b with taskWaitRc := .dlt }) :=
          hwoke.sched.keep (.of_eq rfl id)
        refine ⟨(Relation.ReflTransGen.single h3).tail (.still ?_), hwoke.mutex, fun hc => by cases hc⟩
        exact still_setTcb hs4 ⟨rfl, rfl, rfl, fun _ => .inl⟩ rfl
      · obtain ⟨h4, h5, h6⟩ := ih (h3.minv hi) h2
        exact ⟨(Relation.ReflTransGen.single h3).trans h4, h5.trans hwoke.mutex, h6⟩

/-- **The end of `tn_mutex_delete`.** -/
theorem deleteEnd_acts (hi : MInv none k) (hq : k.sch.que (.mutex m) = [])
    (hok : (k.mutex m).idMutex = true ∨ (k.mutex m).holder = none)
    (hr : deleteEnd m k = .ok k') : Acts strict (none, k) (none, k') := by
  unfold deleteEnd at hr
  cases hh : (k.mutex m).holder with
  | none =>
    rw [hh] at hr
    cases hr
    cases hid : (k.mutex m).idMutex with
    | true =>
      have h3 : Act strict (none, k) (some m, k) := .takeOut m hid hh
      exact (Relation.ReflTransGen.single h3).tail (.kill m hq)
    | false =>
      have heq : k.setMutex m { k.mutex m with idMutex := false } = k := by
        rw [← hid]
        unfold Kernel.setMutex
        rw [Function.update_eq_self]
      rw [heq]
  | some h =>
    have hid : (k.mutex m).idMutex = true := by
      rcases hok with hid | hn
      · exact hid
      · rw [hh] at hn
        cases hn
    have hl := hi.linked hid hh
    rw [hh] at hr
    dsimp only at hr
    rw [unlinkMutex_eq hl] at hr
    cases hr
    have h3 : Act strict (none, k) (some m, unlinked h m k) := .unlink h m hl.1
    exact (Relation.ReflTransGen.single h3).tail (.kill m hq)

/-- **`tn_mutex_delete`** up to its next context switch. -/
theorem tnMutexDelete_acts {r : Bool × Kernel} (hi : MInv none k)
    (hok : (k.mutex m).idMutex = true ∨ (k.mutex m).holder = none)
    (hr : tnMutexDelete len m k = .ok r) : Acts strict (none, k) (none, r.2) := by
  obtain ⟨r1, h1, h2⟩ := bind_ok hr
  obtain ⟨h3, h4, h5⟩ := deleteLoop_acts strict hi h1
  split at h2
  · cases h2
    exact h3
  · rename_i hfin
    obtain ⟨k2, h6, h7⟩ := bind_ok h2
    cases h7
    refine h3.trans (deleteEnd_acts (h3.minv hi) (h5 (by simpa using hfin)) ?_ h6)
    show (r1.2.mutex m).idMutex = true ∨ (r1.2.mutex m).holder = none
    rw [h4]
    exact hok

end TnMutex
