import TnNet.Kernel.ObjectActs

/-!
# The services of the mutexes as acts

A mutex is none of the resources, so its services are quiet acts and acts of tasks that wait for no
resource.  `LockOk` and `UnlockOk` say when `tn_mutex_lock` and `tn_mutex_unlock` return at all.
-/

set_option autoImplicit false

namespace TnKernel

variable {k k' : Kernel} {t u : TaskId} {obs : List Obs} {a : Allow} {s s' : Sched} {m : Nat}

/-! ## Routines -/

theorem Grows.of_mutex {x : Kernel} (h : Grows k x) (hs : k'.sem = x.sem) (hd : k'.dque = x.dque)
    (he : k'.evf = x.evf) (hf : k'.fmp = x.fmp) (hm : k'.mutex = x.mutex) : Grows k k' := by
  refine ⟨fun q hq => ?_, fun m u hu => h.holder m u (by rw [← hm]; exact hu)⟩
  have := h.live q hq
  cases q <;> simpa only [Kernel.live, hs, hd, he, hf, hm] using this

/-- A mutex gets another holder. -/
theorem grows_holder (k : Kernel) (m : Nat) {holder : Option TaskId}
    (hh : ∀ h, holder = some h → h ≠ idleTask) :
    Grows k (k.setMutex m { k.mutex m with holder := holder }) :=
  grows_setMutex id fun h hc => .inr (hh h hc)

theorem acts_lockMutex (h : KInv k) (m : Nat) (ht : t ≠ idleTask)
    (ho : ∀ o ∈ obs, o.silent = true) : Acts a k obs (lockMutex k m t) := by
  have hg : Grows k (k.setMutex m { k.mutex m with holder := some t }) :=
    grows_holder k m fun u hu => by
      rw [← Option.some.inj hu]
      exact ht
  have hq : Quiet k.sch (lockMutex k m t).sch :=
    quiet_setTcb (f := fun b => { b with mutexQueue := b.mutexQueue ++ [m] }) k.sch t rfl
  have hs : SInv none (lockMutex k m t).sch :=
    h.sch.keep (t := t) (f := fun b => { b with mutexQueue := b.mutexQueue ++ [m] }) (.of_eq rfl id)
  exact Act.acts (Act.quiet ⟨hq, rfl, hg.of_mutex rfl rfl rfl rfl rfl⟩ ⟨rfl, rfl, rfl⟩ ho) hs

theorem acts_setBlkTask (h : KInv k) (t : TaskId) (blk : Option TaskId)
    (ho : ∀ o ∈ obs, o.silent = true) : Acts a k obs (setBlkTask t blk k) :=
  acts_quiet (h.sch.keep (t := t) (f := fun b => { b with blkTask := blk }) (.of_eq rfl id))
    (quiet_setTcb (f := fun b => { b with blkTask := blk }) k.sch t rfl) ho

/-- A write to `tn_blocked_tasks_list`. -/
theorem acts_blocked (h : KInv k) (l : List TaskId) (ho : ∀ o ∈ obs, o.silent = true) :
    Acts a k obs { k with sch := { k.sch with blockedTasksList := l } } :=
  acts_quiet ⟨h.sch.toQInv.of_eq rfl rfl rfl, h.sch.bmp, h.sch.next⟩ ⟨fun _ _ => rfl, fun _ => rfl⟩ ho

theorem event_free {q : Que} (hq : (k.sch.tcb t).pwaitQueue = some q) (hr : q.isRes = false) :
    ∀ q', (k.sch.tcb t).pwaitQueue = some q' → q'.isRes = false := by
  intro q' hq'
  rw [hq] at hq'
  rw [← Option.some.inj hq']
  exact hr

theorem waitComplete_ne_idle (h : KInv k) (hw : (k.sch.tcb t).taskState.isWait = true) :
    t ≠ idleTask := by
  intro hi
  rw [(h.sch.ok t).idle hi] at hw
  cases hw

theorem acts_lockForWaiter (h : KInv k) (m : Nat)
    (hq : (k.sch.tcb t).pwaitQueue = some (.mutex m)) : Acts a k [] (lockForWaiter m t k) := by
  have hw := ((h.sch.ok t).wait _ hq).1
  have hnr := event_free hq rfl
  have h1 : Acts a k [] { k with sch := (taskWaitComplete t true k.sch).2 } :=
    acts_free h (h.sch.waitComplete hw) (waitComplete_frame t true k.sch) hnr
      (none_res (congrArg WaitView.que (waitComplete_view t true k.sch))) (fun u _ => rfl)
      (h.pend_free hw hnr) (h.pend_free hw hnr) silent_nil
  exact h1.trans (acts_lockMutex (h1.kinv h) m (waitComplete_ne_idle h hw) silent_nil)

theorem lockForWaiter_tcb (m : Nat) (t : TaskId) (k : Kernel) (hu : u ≠ t) :
    (lockForWaiter m t k).sch.tcb u = k.sch.tcb u :=
  (setTcb_ne _ (fun b => { b with mutexQueue := b.mutexQueue ++ [m] }) hu).trans
    ((waitComplete_frame t true k.sch).tcb u hu)

/-- A task on `tn_blocked_tasks_list` gets its mutex. -/
theorem acts_grantBlocked (h : KInv k) (m : Nat)
    (hq : (k.sch.tcb t).pwaitQueue = some (.mutex m)) (l : List TaskId) :
    Acts a k [] (setBlkTask t none
      (lockForWaiter m t { k with sch := { k.sch with blockedTasksList := l } })) := by
  have h1 : Acts a k [] { k with sch := { k.sch with blockedTasksList := l } } :=
    acts_blocked h l silent_nil
  have h2 := h1.trans (acts_lockForWaiter (h1.kinv h) m hq)
  exact h2.trans (acts_setBlkTask (h2.kinv h) t none silent_nil)

/-- **`try_lock_mutex`.** -/
theorem tryLockMutex_spec (h : KInv k) {o : List Obs} {r : Kernel × List Obs}
    (hr : tryLockMutex (k, o) t = some r) :
    Acts a k [] r.1 ∧ (∃ obs, r.2 = o ++ obs ∧ ∀ x ∈ obs, x.silent = true) ∧
      ∀ u, u ≠ t → (r.1.sch.tcb u).pwaitQueue = (k.sch.tcb u).pwaitQueue := by
  unfold tryLockMutex at hr
  dsimp only at hr
  split at hr
  · rename_i m hq
    split at hr
    · cases hr
      refine ⟨acts_grantBlocked h m hq _, ⟨_, rfl, silent_cons rfl silent_nil⟩, fun u hu => ?_⟩
      refine congrArg Tcb.pwaitQueue ?_
      exact (setTcb_ne _ (fun b => { b with blkTask := none }) hu).trans (lockForWaiter_tcb m t _ hu)
    · cases hr
      exact ⟨.nil k, ⟨[], by simp, silent_nil⟩, fun u _ => rfl⟩
  · cases hr

/-- One task in the loop at the end of `do_unlock_mutex`. -/
def tryBlocked (hi : TaskId) (x : Kernel × List Obs) (t : TaskId) : Option (Kernel × List Obs) :=
  if t = hi then some x else tryLockMutex x t

theorem tryBlocked_spec (hi : TaskId) (l : List TaskId) (h : KInv k) {o : List Obs}
    {r : Kernel × List Obs} (hr : l.foldlM (tryBlocked hi) (k, o) = some r) :
    Acts a k [] r.1 ∧ ∃ obs, r.2 = o ++ obs ∧ ∀ x ∈ obs, x.silent = true := by
  induction l generalizing k o with
  | nil =>
    cases hr
    exact ⟨.nil k, [], by simp, silent_nil⟩
  | cons t l ih =>
    rw [List.foldlM_cons] at hr
    obtain ⟨x, hx, hr⟩ := Option.bind_eq_some_iff.mp hr
    unfold tryBlocked at hx
    split at hx
    · cases hx
      exact ih h hr
    · obtain ⟨h1, ⟨obs, ho, hs⟩, -⟩ := tryLockMutex_spec (a := a) h hx
      obtain ⟨h2, obs', ho', hs'⟩ := ih (k := x.1) (o := x.2) (h1.kinv h) hr
      refine ⟨h1.trans h2, obs ++ obs', by rw [ho', ho, List.append_assoc], fun y hy => ?_⟩
      rcases List.mem_append.mp hy with hy | hy
      · exact hs y hy
      · exact hs' y hy

theorem findMaxBlockedPriority_le (m p : Nat) (s : Sched) : findMaxBlockedPriority m p s ≤ p := by
  unfold findMaxBlockedPriority
  generalize s.que (.mutex m) = l
  induction l generalizing p with
  | nil => exact Nat.le_refl p
  | cons t l ih =>
    rw [List.foldl_cons]
    refine Nat.le_trans (ih _) ?_
    split <;> omega

theorem foldl_priority_le (l : List Nat) (p : Nat) (s : Sched) :
    l.foldl (fun p m => findMaxBlockedPriority m p s) p ≤ p := by
  induction l generalizing p with
  | nil => exact Nat.le_refl p
  | cons m l ih => exact Nat.le_trans (ih _) (findMaxBlockedPriority_le m p s)

/-- `set_current_priority` in a kernel. -/
theorem acts_setPriority (h : KInv k) {p : Nat} (hi : t ≠ idleTask)
    (hp : PrioOk t { k.sch.tcb t with priority := p })
    (hs : setCurrentPriority t p k.sch = some s) : Acts a k [] { k with sch := s } :=
  acts_quiet (h.sch.setCurrentPriority hi hp hs) (h.sch.setCurrentPriority_quiet hi hp hs) silent_nil

theorem acts_unlockPriority (h : KInv k) (hi : k.sch.currRunTask ≠ idleTask)
    (hr : unlockPriority m k = some k') : Acts a k [] k' := by
  unfold unlockPriority at hr
  dsimp only at hr
  obtain ⟨s, hs, rfl⟩ := Option.map_eq_some_iff.mp hr
  obtain ⟨s1, hs1⟩ : ∃ s1, s1 = k.sch.setTcb k.sch.currRunTask fun b =>
    { b with mutexQueue := b.mutexQueue.erase m } := ⟨_, rfl⟩
  have h1 : Acts a k [] { k with sch := s1 } :=
    acts_quiet (hs1 ▸ h.sch.keep (.of_eq rfl id)) (hs1 ▸ quiet_setTcb k.sch _ rfl) silent_nil
  have hk := h1.kinv h
  have hb : s1.tcb k.sch.currRunTask = { k.sch.tcb k.sch.currRunTask with
      mutexQueue := (k.sch.tcb k.sch.currRunTask).mutexQueue.erase m } := by
    rw [hs1, setTcb_same]
  rw [← hs1] at hs
  have h2 : Acts a { k with sch := s1 } [] { k with sch := s } := by
    refine acts_setPriority hk (p := _) hi ?_ hs
    have hle := foldl_priority_le (s1.tcb k.sch.currRunTask).mutexQueue
      (s1.tcb k.sch.currRunTask).basePriority s1
    obtain ⟨-, h2, h3⟩ := hk.sch.prioOk k.sch.currRunTask
    refine ⟨Nat.lt_of_le_of_lt hle h2, h2, fun ht => ⟨?_, (h3 ht).2⟩⟩
    have h4 := (h3 ht).2
    dsimp only at h4
    rw [h4] at hle
    rw [h4]
    exact Nat.le_zero.mp hle
  have h3 := h1.trans h2
  have h4 : Acts a { k with sch := s } []
      { k with sch := s, lockedMutexesList := k.lockedMutexesList.erase m } := by
    refine Act.acts (Act.quiet ⟨.refl _, rfl, ?_⟩ ⟨rfl, rfl, rfl⟩ silent_nil) (h3.kinv h).sch
    exact (grows_sch _ s).of_mutex rfl rfl rfl rfl rfl
  exact h3.trans h4

theorem hiPriTask_fold (l : List TaskId) (s : Sched) (x : Nat × Option TaskId)
    (ht : (l.foldl (fun (x : Nat × Option TaskId) t =>
      if (s.tcb t).priority < x.1 then ((s.tcb t).priority, some t) else x) x).2 = some t) :
    x.2 = some t ∨ t ∈ l := by
  induction l generalizing x with
  | nil => exact .inl ht
  | cons u l ih =>
    rw [List.foldl_cons] at ht
    rcases ih _ ht with h | h
    · split at h
      · rw [Option.some.inj h]
        exact .inr List.mem_cons_self
      · exact .inl h
    · exact .inr (List.mem_cons_of_mem u h)

theorem hiPriTask_mem (h : hiPriTask m s = some t) : t ∈ s.que (.mutex m) := by
  rcases hiPriTask_fold _ s _ h with hc | hc
  · cases hc
  · exact hc

theorem acts_unlockToWaiter (h : KInv k) (hq : (k.sch.tcb t).pwaitQueue = some (.mutex m)) :
    Acts a k [] (unlockToWaiter m t k).1 ∧ ∀ o ∈ (unlockToWaiter m t k).2, o.silent = true := by
  unfold unlockToWaiter
  split
  · exact ⟨acts_grantBlocked h m hq _, silent_cons rfl silent_nil⟩
  split
  · exact ⟨.nil k, silent_nil⟩
  · refine ⟨?_, silent_nil⟩
    obtain ⟨s1, hs1⟩ : ∃ s1, s1 = k.sch.setTcb t fun b =>
      { b with taskWaitReason := some .mutexCBlk, blkTask := (enableLockMutex k t).2 } := ⟨_, rfl⟩
    have hs : SInv none s1 := hs1 ▸ h.sch.keep (.of_eq rfl fun hc => by cases hc)
    have hqt : Quiet k.sch s1 := hs1 ▸ quiet_setTcb k.sch t rfl
    have h1 : Acts a k [] { k with sch := s1 } := acts_quiet hs hqt silent_nil
    dsimp only
    rw [← hs1]
    exact h1.trans (acts_blocked (h1.kinv h) _ silent_nil)

theorem acts_releaseHolder (h : KInv k) (m : Nat) :
    Acts a k [] (k.setMutex m { k.mutex m with holder := none }) :=
  Act.acts (Act.quiet ⟨.refl _, rfl, grows_holder k m fun u hu => by cases hu⟩ ⟨rfl, rfl, rfl⟩
    silent_nil) h.sch

/-- **`do_unlock_mutex`.** -/
theorem acts_doUnlockMutex (h : KInv k) (hi : k.sch.currRunTask ≠ idleTask)
    {r : Kernel × List Obs} (hr : doUnlockMutex m k = some r) :
    Acts a k [] r.1 ∧ ∀ o ∈ r.2, o.silent = true := by
  unfold doUnlockMutex at hr
  obtain ⟨k1, hk1, hr⟩ := Option.bind_eq_some_iff.mp hr
  have h1 := acts_unlockPriority (a := a) h hi hk1
  have hk := h1.kinv h
  have hwait : ∀ t ∈ k1.sch.que (.mutex m), (k1.sch.tcb t).pwaitQueue = some (.mutex m) :=
    fun t ht => ((hk.sch.ok t).waits _ rfl).mp ht
  split at hr
  · cases hr
    exact ⟨h1.trans (acts_releaseHolder hk m), silent_nil⟩
  · have h2 := h1.trans (acts_releaseHolder hk m)
    unfold unlockBlocked at hr
    dsimp only at hr
    split at hr
    · cases hr
    · obtain ⟨h3, obs, ho, hs⟩ := tryBlocked_spec (a := a) _ _ (h2.kinv h) hr
      refine ⟨h2.trans h3, ?_⟩
      rw [ho, List.nil_append]
      exact hs
  · rename_i t l hl _
    cases hr
    exact ⟨h1.trans (acts_lockForWaiter hk m (hwait t (by rw [hl]; exact List.mem_cons_self))),
      silent_cons rfl silent_nil⟩
  · obtain ⟨t, ht, rfl⟩ := Option.map_eq_some_iff.mp hr
    obtain ⟨h2, h3⟩ := acts_unlockToWaiter (a := a) hk (hwait t (hiPriTask_mem ht))
    exact ⟨h1.trans h2, h3⟩

/-! ## Services -/

theorem acts_mutexCreate (h : KInv k) (i : Nat) (attr : MutexAttr) (ceilPriority : Int) :
    Acts a k (tnMutexCreate i attr ceilPriority k).2 (tnMutexCreate i attr ceilPriority k).1 := by
  unfold tnMutexCreate
  split
  · exact acts_ret h (.inl rfl)
  rename_i hid
  rw [Bool.not_eq_true] at hid
  split
  · exact acts_ret h (.inl rfl)
  · rw [h.reset_que (q := .mutex i) rfl hid]
    refine Act.acts (Act.quiet ⟨.refl _, rfl, ?_⟩ ⟨rfl, rfl, rfl⟩ (silent_cons rfl silent_nil)) h.sch
    exact grows_setMutex (fun _ => rfl) fun u hu => by cases hu

theorem setCurrentPriority_state {p : Nat} (h : setCurrentPriority t p s = some s') :
    s'.currRunTask = s.currRunTask ∧ ∀ u, (s'.tcb u).taskState = (s.tcb u).taskState := by
  unfold setCurrentPriority at h
  dsimp only at h
  split at h
  · cases h
    exact ⟨rfl, fun u => rfl⟩
  split at h
  · cases h
    refine ⟨(changeRunningTaskPriority_frame t p s).curr, fun u => ?_⟩
    by_cases hu : u = t
    · rw [hu, changeRunningTaskPriority_tcb]
    · rw [(changeRunningTaskPriority_frame t p s).tcb u hu]
  split at h
  · cases h
  · cases h
    refine ⟨rfl, fun u => ?_⟩
    by_cases hu : u = t
    · rw [hu, setTcb_same]
    · rw [setTcb_ne _ _ hu]

/-- The holders of the mutexes `enable_lock_mutex` finds. -/
theorem enableLockMutex_holder (k : Kernel) (t : TaskId) {b : TaskId}
    (hb : (enableLockMutex k t).2 = some b) : ∃ m, (k.mutex m).holder = some b := by
  have key : ∀ (l : List Nat) (x : Bool × Nat × Option TaskId),
      (l.foldl (enableLockLoop k t) x).2.2 = some b →
      x.2.2 = some b ∨ ∃ m, (k.mutex m).holder = some b := by
    intro l
    induction l with
    | nil => exact fun x hx => .inl hx
    | cons m l ih =>
      intro x hx
      rw [List.foldl_cons] at hx
      rcases ih _ hx with hc | hc
      · unfold enableLockLoop at hc
        dsimp only at hc
        split at hc
        · split at hc
          · exact .inr ⟨m, hc⟩
          · exact .inl hc
        · exact .inl hc
      · exact .inr hc
  rcases key _ _ hb with hc | hc
  · cases hc
  · exact hc

theorem acts_lockWait (h : KInv k) (hr : Runs k) (hid : (k.mutex m).idMutex = true)
    {blk : Option TaskId} (hblk : ∀ b, blk = some b → b ≠ idleTask) {reason : WaitReason}
    (hrs : reason ≠ .sleep) {timeout : BitVec 32} {r : Res}
    (hx : lockWait m blk reason timeout k = some r) : Acts a k r.2 r.1 := by
  unfold lockWait at hx
  dsimp only at hx
  obtain ⟨s, hs, rfl⟩ := Option.map_eq_some_iff.mp hx
  have h1 : Acts a k [] { k with sch := s } ∧ s.currRunTask = k.sch.currRunTask ∧
      ∀ u, (s.tcb u).taskState = (k.sch.tcb u).taskState := by
    cases blk with
    | none =>
      cases hs
      exact ⟨.nil k, rfl, fun u => rfl⟩
    | some b =>
      dsimp only at hs
      split at hs
      · rename_i hlt
        refine ⟨acts_setPriority h (hblk b rfl) ?_ hs, setCurrentPriority_state hs⟩
        refine ⟨(h.sch.prio _).1, (h.sch.prio b).2, fun hb => ?_⟩
        rw [hb, h.sch.timerPrio.1] at hlt
        exact absurd hlt (Nat.not_lt_zero _)
      · cases hs
        exact ⟨.nil k, rfl, fun u => rfl⟩
  obtain ⟨h1, hc, hst⟩ := h1
  have hr1 : Runs { k with sch := s } := by
    refine ⟨?_, ?_, ?_⟩
    · show (s.tcb s.currRunTask).taskState = .runnable
      rw [hc, hst]
      exact hr.run
    · show k.pend s.currRunTask = none
      rw [hc]
      exact hr.pend
    · show isSystem s.currRunTask = false
      rw [hc]
      exact hr.user
  exact h1.trans (acts_blockFree (h1.kinv h) hr1 rfl rfl rfl hrs hid)

theorem acts_mutexLock (h : KInv k) (hr : Runs k) {timeout : BitVec 32} {r : Res}
    (hx : tnMutexLock m timeout k = some r) : Acts a k r.2 r.1 := by
  unfold tnMutexLock at hx
  dsimp only at hx
  split at hx
  · cases hx
    exact acts_ret h (.inl rfl)
  split at hx
  · cases hx
    exact acts_ret h (.inl rfl)
  rename_i hid
  have hid' : (k.mutex m).idMutex = true := by simpa using hid
  split at hx
  · cases hx
    exact acts_ret h (.inl rfl)
  split at hx
  · cases hx
    exact acts_ret h (.inl rfl)
  have hsil : ∀ o ∈ [Obs.ret (.lock m) .noErr 0], o.silent = true := silent_cons rfl silent_nil
  have h1 := acts_lockMutex (a := a) h m hr.ne_timer.2 silent_nil
  split at hx
  · split at hx
    · cases hx
      exact h1.trans (acts_setBlkTask (h1.kinv h) _ none hsil)
    · obtain ⟨r', hr', rfl⟩ := Option.map_eq_some_iff.mp hx
      have h2 : Acts a k r'.2 r'.1 := acts_lockWait h hr hid' (fun b hb => ?_) (by simp) hr'
      · have h3 := h2.trans (acts_blocked (h2.kinv h)
          (r'.1.sch.blockedTasksList ++ [k.sch.currRunTask]) silent_nil)
        have h4 := h3.trans (acts_setBlkTask (h3.kinv h) k.sch.currRunTask
          (enableLockMutex k k.sch.currRunTask).2 silent_nil)
        simpa using h4
      · obtain ⟨m', hm'⟩ := enableLockMutex_holder k _ hb
        exact h.holder m' b hm'
  · rename_i b _ hb
    refine acts_lockWait h hr hid' (fun b' hb' => ?_) (by simp) hx
    rw [← Option.some.inj hb']
    exact h.holder m b hb
  · cases hx
    have h2 := h1.trans (acts_silent (h1.kinv h) hsil)
    exact h2
  · rename_i b _ hb
    refine acts_lockWait h hr hid' (fun b' hb' => ?_) (by simp) hx
    rw [← Option.some.inj hb']
    exact h.holder m b hb

theorem acts_mutexLockPolling (h : KInv k) (hi : k.sch.currRunTask ≠ idleTask) (m : Nat) :
    Acts a k (tnMutexLockPolling m k).2 (tnMutexLockPolling m k).1 := by
  have hsil : ∀ o ∈ [Obs.ret (.lock m) .noErr 0], o.silent = true := silent_cons rfl silent_nil
  have h1 := acts_lockMutex (a := a) h m hi silent_nil
  unfold tnMutexLockPolling
  dsimp only
  split
  · exact acts_ret h (.inl rfl)
  split
  · exact acts_ret h (.inl rfl)
  split
  · exact acts_ret h (.inl rfl)
  split
  · split
    · exact h1.trans (acts_setBlkTask (h1.kinv h) _ none hsil)
    · exact acts_ret h (.inl rfl)
  · exact h1.trans (acts_silent (h1.kinv h) hsil)
  · exact acts_ret h (.inl rfl)

theorem acts_mutexUnlock (h : KInv k) (hi : k.sch.currRunTask ≠ idleTask) {r : Res}
    (hx : tnMutexUnlock m k = some r) : Acts a k r.2 r.1 := by
  unfold tnMutexUnlock at hx
  split at hx
  · cases hx
    exact acts_ret h (.inl rfl)
  split at hx
  · cases hx
    exact acts_ret h (.inl rfl)
  · obtain ⟨r', hr', rfl⟩ := Option.map_eq_some_iff.mp hx
    obtain ⟨h1, h2⟩ := acts_doUnlockMutex (a := a) h hi hr'
    exact h1.trans (acts_silent (h1.kinv h) (silent_cons rfl h2))

/-! ## When the services return -/

/-- A task that waits for a mutex. -/
def waitsMutex (b : Tcb) : Prop :=
  b.taskState.isWait = true ∧ (b.taskWaitReason.map WaitReason.isMutex).getD false = true

/-- `tn_mutex_lock` returns: it does not raise the priority of a task that waits for a mutex. -/
def LockOk (k : Kernel) (m : Nat) : Prop :=
  ∀ b, (k.mutex m).holder = some b ∨ (enableLockMutex k k.sch.currRunTask).2 = some b →
    (k.sch.tcb k.sch.currRunTask).priority < (k.sch.tcb b).priority → ¬waitsMutex (k.sch.tcb b)

/-- `tn_mutex_unlock` returns.  Where the mutex has the attribute of a priority ceiling and no task
    waits for it, some task is on `tn_blocked_tasks_list`, and all tasks there wait for mutexes;
    where tasks wait for it, one has a priority of its own. -/
structure UnlockOk (k : Kernel) (m : Nat) : Prop where
  blocked : k.sch.que (.mutex m) = [] → k.sch.blockedTasksList ≠ [] ∧
    k.sch.blockedTasksList.Nodup ∧ ∀ t ∈ k.sch.blockedTasksList, t ≠ k.sch.currRunTask →
      ∃ m', (k.sch.tcb t).pwaitQueue = some (.mutex m')
  waiter : k.sch.que (.mutex m) ≠ [] →
    ∃ t ∈ k.sch.que (.mutex m), (k.sch.tcb t).priority < TN_NUM_PRIORITY - 1

theorem setCurrentPriority_isSome {p : Nat} (h : ¬waitsMutex (s.tcb t)) :
    (setCurrentPriority t p s).isSome = true := by
  unfold setCurrentPriority
  dsimp only
  split
  · rfl
  split
  · rfl
  split
  · rename_i hw
    exact absurd hw h
  · rfl

theorem lockWait_isSome {blk : Option TaskId} (reason : WaitReason) (timeout : BitVec 32)
    (h : ∀ b, blk = some b →
      (k.sch.tcb k.sch.currRunTask).priority < (k.sch.tcb b).priority → ¬waitsMutex (k.sch.tcb b)) :
    (lockWait m blk reason timeout k).isSome = true := by
  unfold lockWait
  dsimp only
  rw [Option.isSome_map]
  cases blk with
  | none => rfl
  | some b =>
    dsimp only
    split
    · rename_i hlt
      exact setCurrentPriority_isSome (h b rfl hlt)
    · rfl

theorem mutexLock_isSome (timeout : BitVec 32) (h : LockOk k m) :
    (tnMutexLock m timeout k).isSome = true := by
  unfold tnMutexLock
  dsimp only
  split
  · rfl
  split
  · rfl
  split
  · rfl
  split
  · rfl
  split
  · split
    · rfl
    · rw [Option.isSome_map]
      exact lockWait_isSome _ _ fun b hb => h b (.inr hb)
  · rename_i b _ hb
    refine lockWait_isSome _ _ fun b' hb' => h b' (.inl ?_)
    rw [hb, ← Option.some.inj hb']
  · rfl
  · rename_i b _ hb
    refine lockWait_isSome _ _ fun b' hb' => h b' (.inl ?_)
    rw [hb, ← Option.some.inj hb']

theorem changeRunningTaskPriority_blocked (t : TaskId) (p : Nat) (s : Sched) :
    (changeRunningTaskPriority t p s).blockedTasksList = s.blockedTasksList := by
  have h1 : (onReady t p (offReady t s)).blockedTasksList = s.blockedTasksList := by
    unfold onReady offReady
    split <;> rfl
  rw [changeRunningTaskPriority_eq]
  repeat' split
  all_goals exact h1

/-- What `do_unlock_mutex` finds behind the change of the priority. -/
theorem unlockPriority_spec (h : KInv k) (hr : (k.sch.tcb k.sch.currRunTask).taskState = .runnable)
    (hi : k.sch.currRunTask ≠ idleTask) : ∃ k', unlockPriority m k = some k' ∧
      Frame k.sch.currRunTask k.sch k'.sch ∧ k'.sch.que (.mutex m) = k.sch.que (.mutex m) ∧
      k'.sch.blockedTasksList = k.sch.blockedTasksList ∧ k'.mutex = k.mutex := by
  have hex : ∃ s, (unlockPriority m k) =
      some { k with sch := s, lockedMutexesList := k.lockedMutexesList.erase m } ∧
      Frame k.sch.currRunTask k.sch s ∧ s.blockedTasksList = k.sch.blockedTasksList := by
    unfold unlockPriority setCurrentPriority
    dsimp only
    split
    · exact ⟨_, rfl, frame_setTcb k.sch _ _, rfl⟩
    · rw [setTcb_same, if_pos hr]
      exact ⟨_, rfl, (frame_setTcb k.sch _ _).trans (changeRunningTaskPriority_frame _ _ _),
        changeRunningTaskPriority_blocked _ _ _⟩
  obtain ⟨s, h1, h2, h3⟩ := hex
  refine ⟨_, h1, h2, ?_, h3, rfl⟩
  have hs : SInv none s := ((acts_unlockPriority (a := .any) h hi h1).kinv h).sch
  have hnone : ∀ {s : Sched}, SInv none s → (s.tcb k.sch.currRunTask).taskState.isWait = false →
      k.sch.currRunTask ∉ s.que (.mutex m) := fun hs hw =>
    hs.toQInv.not_mem rfl (by rw [(hs.ok _).pwait_none hw]; simp)
  have hst : (s.tcb k.sch.currRunTask).taskState.isWait = false := by
    obtain ⟨s', hs', heq⟩ := Option.map_eq_some_iff.mp h1
    have hss : s' = s := congrArg (fun k => k.sch) heq
    rw [← hss, (setCurrentPriority_state hs').2, setTcb_same]
    show (k.sch.tcb k.sch.currRunTask).taskState.isWait = false
    rw [hr]
    rfl
  have := h2.order (.mutex m)
  rwa [filter_self (hnone hs hst), filter_self (hnone h.sch (by rw [hr]; rfl))] at this

theorem tryBlocked_isSome (hi : TaskId) (l : List TaskId) (h : KInv k) (o : List Obs)
    (hn : l.Nodup) (hl : ∀ t ∈ l, t ≠ hi → ∃ m', (k.sch.tcb t).pwaitQueue = some (.mutex m')) :
    (l.foldlM (tryBlocked hi) (k, o)).isSome = true := by
  induction l generalizing k o with
  | nil => rfl
  | cons t l ih =>
    obtain ⟨htl, hn⟩ := List.nodup_cons.mp hn
    rw [List.foldlM_cons]
    by_cases ht : t = hi
    · have : tryBlocked hi (k, o) t = some (k, o) := if_pos ht
      rw [this]
      exact ih h o hn fun u hu => hl u (List.mem_cons_of_mem t hu)
    · have heq : tryBlocked hi (k, o) t = tryLockMutex (k, o) t := if_neg ht
      obtain ⟨m', hm'⟩ := hl t List.mem_cons_self ht
      obtain ⟨x, hx⟩ : ∃ x, tryLockMutex (k, o) t = some x := by
        unfold tryLockMutex
        dsimp only
        rw [hm']
        dsimp only
        split
        · exact ⟨_, rfl⟩
        · exact ⟨_, rfl⟩
      obtain ⟨h1, -, h3⟩ := tryLockMutex_spec (a := .any) h hx
      rw [heq, hx]
      refine ih (k := x.1) (h1.kinv h) x.2 hn fun u hu huh => ?_
      obtain ⟨m'', hm''⟩ := hl u (List.mem_cons_of_mem t hu) huh
      refine ⟨m'', ?_⟩
      rw [h3 u]
      · exact hm''
      · rintro rfl
        exact htl hu

theorem hiPriTask_isSome (h : ∃ t ∈ s.que (.mutex m), (s.tcb t).priority < TN_NUM_PRIORITY - 1) :
    (hiPriTask m s).isSome = true := by
  have key : ∀ (l : List TaskId) (x : Nat × Option TaskId),
      (x.2.isSome = true ∨ ∃ t ∈ l, (s.tcb t).priority < x.1) →
      (l.foldl (fun (x : Nat × Option TaskId) t =>
        if (s.tcb t).priority < x.1 then ((s.tcb t).priority, some t) else x) x).2.isSome = true := by
    intro l
    induction l with
    | nil =>
      rintro x (hx | ⟨t, ht, -⟩)
      · exact hx
      · cases ht
    | cons u l ih =>
      intro x hx
      rw [List.foldl_cons]
      apply ih
      by_cases hu : (s.tcb u).priority < x.1
      · rw [if_pos hu]
        exact .inl rfl
      · rw [if_neg hu]
        rcases hx with hx | ⟨t, ht, hlt⟩
        · exact .inl hx
        · rcases List.mem_cons.mp ht with rfl | ht
          · exact absurd hlt hu
          · exact .inr ⟨t, ht, hlt⟩
  exact key _ _ (.inr h)

theorem mutexUnlock_isSome (h : KInv k)
    (hr : (k.sch.tcb k.sch.currRunTask).taskState = .runnable) (hi : k.sch.currRunTask ≠ idleTask)
    (hu : (k.mutex m).attr = .ceiling → UnlockOk k m) : (tnMutexUnlock m k).isSome = true := by
  unfold tnMutexUnlock
  split
  · rfl
  split
  · rfl
  rw [Option.isSome_map]
  obtain ⟨k1, hk1, hf, hq, hb, hm⟩ := unlockPriority_spec (m := m) h hr hi
  have hact := acts_unlockPriority (a := .any) h hi hk1
  have hinv := hact.kinv h
  unfold doUnlockMutex
  rw [hk1]
  dsimp only [Option.bind_eq_bind, Option.bind_some]
  split
  · rfl
  · rename_i hnil hattr
    rw [hm] at hattr
    rw [hq] at hnil
    obtain ⟨h1, h2, h3⟩ := (hu hattr).blocked hnil
    unfold unlockBlocked
    dsimp only
    rw [if_neg]
    · refine tryBlocked_isSome k1.sch.currRunTask k1.sch.blockedTasksList
        (k := k1.setMutex m { k1.mutex m with holder := none })
        ((acts_releaseHolder (a := .any) hinv m).kinv
          hinv) [] (by rw [hb]; exact h2) fun t ht hne => ?_
      rw [hb] at ht
      rw [hf.curr] at hne
      obtain ⟨m', hm'⟩ := h3 t ht hne
      refine ⟨m', ?_⟩
      show (k1.sch.tcb t).pwaitQueue = _
      rw [hf.tcb t hne]
      exact hm'
    · show ¬k1.sch.blockedTasksList = []
      rw [hb]
      exact h1
  · rfl
  · rename_i t l hl hattr
    rw [hm] at hattr
    rw [Option.isSome_map]
    apply hiPriTask_isSome
    rw [hq]
    obtain ⟨u, hu1, hu2⟩ := (hu hattr).waiter (by rw [← hq, hl]; simp)
    refine ⟨u, hu1, ?_⟩
    rw [hf.tcb u]
    · exact hu2
    · rintro rfl
      have hw := ((h.sch.ok _).wait _ (((h.sch.ok _).waits _ rfl).mp hu1)).1
      rw [hr] at hw
      cases hw

end TnKernel
