import TnNet.Mutex.Bookkeeping

/-!
# Priority inheritance

`inherited_priorities` — with inheriting mutexes only, in every run whose events meet `InheritsRight`,
each task has the highest one of its base priority and the priorities of the tasks that wait for its
mutexes (`Inherits`).  `wake_inhInv`, `lockWait_inhInv`, `give_inhInv` are the steps: a wait ends, begins,
or ends with the mutex.

The condition names what goes wrong otherwise: `set_current_priority` does not write the priority of a
task that waits for a mutex itself (`LocksRight`); `task_wait_complete` computes the priority of a
holder from one of its mutexes (`WakesRight`), also that of the task that has just given the mutex
back; and the first waiter of a mutex keeps its priority when it gets the mutex (`HandsRight`).
-/

set_option autoImplicit false

namespace TnMutex

open TnKernel Fold WaitGraph

variable {k k' : Kernel} {s s' : Sched} {t u w h : TaskId} {m n p q len : Nat} {o : Option Nat}
  {x y : State} {ev : Event}

/-! ## What a task inherits -/

/-- The task waits for a mutex in the list of the other one. -/
def Feeds (s : Sched) (u t : TaskId) : Prop := ∃ m ∈ (s.tcb t).mutexQueue, u ∈ s.que (.mutex m)

/-- The priority is the highest one among the base priority of the task and its waiters. -/
abbrev Gets (s : Sched) (t : TaskId) (p : Nat) : Prop :=
  Inherited (Feeds s) (fun u => (s.tcb u).basePriority) (fun u => (s.tcb u).priority) t p

theorem le_findMaxBlockedPriority :
    q ≤ findMaxBlockedPriority m p s ↔ q ≤ p ∧ ∀ u ∈ s.que (.mutex m),
    q ≤ (s.tcb u).priority := by
  unfold findMaxBlockedPriority
  generalize s.que (.mutex m) = l
  induction l generalizing p with
  | nil => simp
  | cons u l ih =>
    rw [List.foldl_cons, ih, List.forall_mem_cons, ← and_assoc]
    refine and_congr_left fun _ => ?_
    split <;> omega

/-- What `do_unlock_mutex` computes from the mutexes of a task. -/
theorem heldPriority_gets (t : TaskId) (s : Sched) : Gets s t (heldPriority t s) := by
  have hfold : ∀ (l : List Nat) (p q : Nat), q ≤ l.foldl (fun p m => findMaxBlockedPriority m p s) p ↔
      q ≤ p ∧ ∀ m ∈ l, ∀ u ∈ s.que (.mutex m), q ≤ (s.tcb u).priority := by
    intro l
    induction l with
    | nil => simp
    | cons m l ih =>
      intro p q
      rw [List.foldl_cons, ih, le_findMaxBlockedPriority, List.forall_mem_cons, and_assoc]
  intro q
  unfold heldPriority
  rw [hfold]
  refine and_congr_right fun _ => ?_
  exact ⟨fun h u ⟨m, hm, hu⟩ => h m hm u hu, fun h m hm u hu => h u ⟨m, hm, hu⟩⟩

/-- The mutexes of the task, and the tasks that wait for them, are what they were. -/
theorem gets_congr (hg : Gets s t p) (hb : (s'.tcb t).basePriority = (s.tcb t).basePriority)
    (hm : (s'.tcb t).mutexQueue = (s.tcb t).mutexQueue)
    (hq : ∀ m ∈ (s.tcb t).mutexQueue, s'.que (.mutex m) = s.que (.mutex m))
    (hp : ∀ u, Feeds s u t → (s'.tcb u).priority = (s.tcb u).priority) : Gets s' t p := by
  refine hg.congr hb (fun u => ?_) hp
  unfold Feeds
  rw [hm]
  exact exists_congr fun m => and_congr_right fun hmem => by rw [hq m hmem]

/-- All mutexes inherit priorities, and each task has the priority it inherits. -/
structure InhInv (k : Kernel) : Prop where
  all : ∀ m, (k.mutex m).idMutex = true → (k.mutex m).attr = .inherit
  gets : ∀ t, Gets k.sch t (k.sch.tcb t).priority

/-- The priorities are what they were. -/
theorem SameHolders.gets (h : SameHolders k k') (hi : InhInv k)
    (hq : ∀ t, ∀ m ∈ (k.sch.tcb t).mutexQueue, k'.sch.que (.mutex m) = k.sch.que (.mutex m))
    (hp : ∀ u, (k'.sch.tcb u).priority = (k.sch.tcb u).priority) : InhInv k' := by
  refine ⟨by simpa only [h.mutex] using hi.all, fun t => ?_⟩
  rw [hp t]
  exact gets_congr (hi.gets t) (h.owns t).base (h.owns t).mutexQueue (hq t) fun u _ => hp u

theorem Still.inhInv (h : Still k k') (hi : InhInv k)
    (hp : ∀ u, (k'.sch.tcb u).priority = (k.sch.tcb u).priority) : InhInv k' :=
  h.toSameHolders.gets hi (fun _ m _ => h.que m) hp

/-! ## Who waits for whom -/

/-- A task waits for one mutex. -/
theorem WaitInv.one (hi : WaitInv k) (hm : t ∈ k.sch.que (.mutex m)) (hn : t ∈ k.sch.que (.mutex n)) :
    m = n := by
  have h1 := ((hi.sched.ok t).waits (.mutex m) rfl).mp hm
  have h2 := ((hi.sched.ok t).waits (.mutex n) rfl).mp hn
  rw [h1] at h2
  cases h2
  rfl

/-- A mutex is in the list of its holder. -/
theorem HoldInv.mine (hi : HoldInv o k) (hm : m ∈ (k.sch.tcb t).mutexQueue) :
    (k.mutex m).holder = some t := ((hi.queue t m).mp hm).2

/-- A task that waits for an inheriting mutex: its reason, and the holder of the mutex. -/
theorem MInv.waits_inherit (hi : MInv o k) (ha : InhInv k) (ht : t ∈ k.sch.que (.mutex m)) :
    waitsForMutex (k.sch.tcb t) = true ∧ mutexOf (k.sch.tcb t) = some m ∧
      (k.sch.tcb t).taskWaitReason ≠ some .mutexCBlk ∧
      ∃ h, (k.mutex m).holder = some h ∧ h ≠ t := by
  have hid := hi.exist m t ht
  obtain ⟨r, hr, hsuits⟩ := hi.reason m t ht
  rw [ha.all m hid] at hsuits
  have hr' : r = .mutexI := hsuits
  subst hr'
  unfold mutexWait at hr
  rw [Option.ite_none_right_eq_some, Option.filter_eq_some_iff] at hr
  have hpw := ((hi.sched.ok t).waits (.mutex m) rfl).mp ht
  refine ⟨?_, ?_, ?_, ?_⟩
  · unfold waitsForMutex
    rw [hr.2.1]
    rfl
  · unfold mutexOf
    rw [hpw]
  · rw [hr.2.1]
    simp
  · cases hh : (k.mutex m).holder with
    | none =>
      rw [hi.free m hid (ha.all m hid) hh] at ht
      cases ht
    | some h =>
      refine ⟨h, rfl, ?_⟩
      rintro rfl
      exact hi.other m h ht hh

/-! ## The end of a wait -/

theorem endWait_priority (t u : TaskId) (s : Sched) :
    ((endWait t true s).tcb u).priority = (s.tcb u).priority ∧
      ((endWait t true s).tcb u).basePriority = (s.tcb u).basePriority := by
  by_cases hu : u = t
  · subst hu
    rw [endWait_tcb]
    exact ⟨rfl, rfl⟩
  · rw [endWait_tcb_ne s hu]
    exact ⟨rfl, rfl⟩

/-- A wait for something else ends. -/
theorem taskWaitComplete_plain (hm : waitsForMutex (k.sch.tcb t) = false) {r : Bool × Kernel}
    (hr : taskWaitComplete len t true k = .ok r) (u : TaskId) :
    (r.2.sch.tcb u).priority = (k.sch.tcb u).priority := by
  unfold taskWaitComplete at hr
  dsimp only at hr
  rw [hm] at hr
  cases hr
  dsimp only
  refine Eq.trans ?_ (endWait_priority t u k.sch).1
  by_cases hu : u = t
  · rw [hu, setTcb_same]
  · rw [setTcb_ne _ _ hu]

/-- The holder of the mutex has the priority of the task that ceases to wait, and not its own. -/
def Owes (s : Sched) (h t : TaskId) : Prop :=
  (s.tcb h).priority ≠ (s.tcb h).basePriority ∧ (s.tcb h).priority = (s.tcb t).priority

instance (s : Sched) (h t : TaskId) : Decidable (Owes s h t) := inferInstanceAs (Decidable (_ ∧ _))

/-- The priority `task_wait_complete` gives the holder of the mutex: that of one mutex. -/
def recalculated (m : Nat) (h t : TaskId) (s : Sched) : Nat :=
  findMaxBlockedPriority m (s.tcb h).basePriority (endWait t true s)

/-- A wait for a mutex ends: the priorities behind it. -/
theorem taskWaitComplete_priority (hm : waitsForMutex (k.sch.tcb t) = true)
    (hmo : mutexOf (k.sch.tcb t) = some m) (hrs : (k.sch.tcb t).taskWaitReason ≠ some .mutexCBlk)
    (hh : (k.mutex m).holder = some h) (hht : h ≠ t)
    (hd : Owes k.sch h t → recalculated m h t k.sch = (k.sch.tcb h).priority ∨
      ¬((k.sch.tcb h).taskState.isWait = true ∧ waitsForMutex (k.sch.tcb h) = true))
    {r : Bool × Kernel} (hr : taskWaitComplete len t true k = .ok r) :
    (∀ u, u ≠ h → (r.2.sch.tcb u).priority = (k.sch.tcb u).priority) ∧
      (r.2.sch.tcb h).priority =
        if Owes k.sch h t then recalculated m h t k.sch else (k.sch.tcb h).priority := by
  unfold taskWaitComplete at hr
  dsimp only at hr
  rw [hm] at hr
  obtain ⟨k2, h2, hr⟩ := bind_ok hr
  cases hr
  -- the last write is not to a priority
  have hlast : ∀ u, ((k2.sch.setTcb t fun b => { b with taskWaitReason := none }).tcb u).priority =
      (k2.sch.tcb u).priority := by
    intro u
    by_cases hu : u = t
    · rw [hu, setTcb_same]
    · rw [setTcb_ne _ _ hu]
  suffices hk2 : (∀ u, u ≠ h → (k2.sch.tcb u).priority = (k.sch.tcb u).priority) ∧
      (k2.sch.tcb h).priority =
        if Owes k.sch h t then recalculated m h t k.sch else (k.sch.tcb h).priority by
    exact ⟨fun u hu => (hlast u).trans (hk2.1 u hu), (hlast h).trans hk2.2⟩
  have hb : blockerOf { k with sch := endWait t true k.sch } (k.sch.tcb t) m = some h := by
    unfold blockerOf
    rw [if_neg hrs]
    exact hh
  unfold endMutexWait at h2
  rw [hmo] at h2
  dsimp only at h2
  rw [if_neg hrs, hb] at h2
  obtain ⟨k1, hk1⟩ : ∃ k1 : Kernel, k1 = { k with sch := endWait t true k.sch } := ⟨_, rfl⟩
  have h1 : ∀ u, (k1.sch.tcb u).priority = (k.sch.tcb u).priority ∧
      (k1.sch.tcb u).basePriority = (k.sch.tcb u).basePriority := fun u => by
    rw [hk1]
    exact endWait_priority t u k.sch
  have hself : k1.sch.tcb h = k.sch.tcb h := by
    rw [hk1]
    exact endWait_tcb_ne k.sch hht
  have h2' : recalcPriority len t m h k1 = .ok k2 := by
    rw [hk1]
    exact h2
  unfold recalcPriority at h2'
  dsimp only at h2'
  have howes : ((k1.sch.tcb h).priority ≠ (k1.sch.tcb h).basePriority ∧
      (k1.sch.tcb h).priority = (k1.sch.tcb t).priority) ↔ Owes k.sch h t := by
    unfold Owes
    rw [(h1 h).1, (h1 h).2, (h1 t).1]
  have hrec : findMaxBlockedPriority m (k1.sch.tcb h).basePriority k1.sch = recalculated m h t k.sch := by
    rw [hself, hk1]
    rfl
  by_cases ho : Owes k.sch h t
  · rw [if_pos (howes.mpr ho), hrec] at h2'
    have hd' : (k1.sch.tcb h).priority = recalculated m h t k.sch ∨
        ¬((k1.sch.tcb h).taskState.isWait = true ∧ waitsForMutex (k1.sch.tcb h) = true) := by
      rw [hself]
      exact (hd ho).imp_left Eq.symm
    obtain ⟨s', rfl, hs1, hs2⟩ := setCurrentPriority_direct hd' h2'
    rw [if_pos ho]
    refine ⟨fun u hu => ?_, ?_⟩
    · rw [hs2 u hu]
      exact (h1 u).1
    · rw [hs1]
  · rw [if_neg fun hc => ho (howes.mp hc)] at h2'
    cases h2'
    rw [if_neg ho]
    exact ⟨fun u _ => (h1 u).1, (h1 h).1⟩

theorem le_recalculated (hs : SInv none s) (hw : (s.tcb t).taskState.isWait = true)
    (hm : waitsForMutex (s.tcb t) = true) : q ≤ recalculated m h t s ↔
      q ≤ (s.tcb h).basePriority ∧ ∀ u ∈ s.que (.mutex m), u ≠ t → q ≤ (s.tcb u).priority := by
  have hq : (endWait t true s).que (.mutex m) = (s.que (.mutex m)).erase t :=
    Frame.mutexErase (endWait_frame t s) hs (endWait_sched hs hw hm) (endWait_state t s) m
  unfold recalculated
  rw [le_findMaxBlockedPriority, hq]
  refine and_congr_right fun _ => forall_congr' fun u => ?_
  rw [(hs.nodup (.mutex m)).mem_erase_iff, (endWait_priority t u s).1]
  exact ⟨fun h hu hne => h ⟨hne, hu⟩, fun h hu => h hu.2 hu.1⟩

/-- The condition on a wait for a mutex that ends without it.  Where the holder of the mutex has the
    priority of the task, the other tasks that wait for this mutex stand for those of all its mutexes;
    and the priority stays what it is if the holder itself waits for a mutex. -/
def WakesRight (t : TaskId) (k : Kernel) : Prop :=
  ∀ m, mutexOf (k.sch.tcb t) = some m → ∀ h, (k.mutex m).holder = some h → Owes k.sch h t →
    (∀ n ∈ (k.sch.tcb h).mutexQueue, ∀ u ∈ k.sch.que (.mutex n), u ≠ t →
      (k.sch.tcb h).basePriority ≤ (k.sch.tcb u).priority ∨
        ∃ w ∈ k.sch.que (.mutex m), w ≠ t ∧ (k.sch.tcb w).priority ≤ (k.sch.tcb u).priority) ∧
    (mutexWait (k.sch.tcb h) ≠ none →
      ∃ w ∈ k.sch.que (.mutex m), w ≠ t ∧ (k.sch.tcb w).priority = (k.sch.tcb h).priority)

theorem mutexWait_ne {b : Tcb} :
    mutexWait b ≠ none ↔ b.taskState.isWait = true ∧ waitsForMutex b = true := by
  unfold mutexWait waitsForMutex
  cases b.taskWaitReason with
  | none => simp
  | some r => cases hr : r.isMutex <;> simp [hr]

/-- The tasks that wait for the mutexes of a task when `t` waits no more. -/
theorem Woke.feeds (hw : Woke t k k') (hi : MInv none k) : Feeds k'.sch u h ↔
    Feeds k.sch u h ∧ u ≠ t := by
  unfold Feeds
  rw [(hw.owns h).mutexQueue, exists_and_right.symm]
  refine exists_congr fun n => ?_
  rw [and_assoc, hw.que, (hi.queNodup n).mem_erase_iff, and_comm (a := u ≠ t)]

/-- Where the holder waits itself, it keeps its priority. -/
theorem recalculated_waiting (hi : MInv none k) (ha : InhInv k) (hw : (k.sch.tcb t).taskState.isWait = true)
    (hm : waitsForMutex (k.sch.tcb t) = true) (hmo : mutexOf (k.sch.tcb t) = some m)
    (hh : (k.mutex m).holder = some h) (hhm : m ∈ (k.sch.tcb h).mutexQueue) (hok : WakesRight t k)
    (ho : Owes k.sch h t) (hmw : mutexWait (k.sch.tcb h) ≠ none) :
    recalculated m h t k.sch = (k.sch.tcb h).priority := by
  obtain ⟨w, hwm, hwt, hwp⟩ := (hok m hmo h hh ho).2 hmw
  refine Nat.le_antisymm ?_ ((le_recalculated hi.sched hw hm).mpr ⟨(ha.gets h).le_base, fun u hu _ => ?_⟩)
  · rw [← hwp]
    exact ((le_recalculated hi.sched hw hm).mp (Nat.le_refl _)).2 w hwm hwt
  · exact (ha.gets h).le_of_edge ⟨m, hhm, hu⟩

/-- The waiters of the mutex stand for those of all mutexes of the holder. -/
theorem inherited_recalculated (hi : MInv none k) (hw : (k.sch.tcb t).taskState.isWait = true)
    (hm : waitsForMutex (k.sch.tcb t) = true) (hmo : mutexOf (k.sch.tcb t) = some m)
    (hh : (k.mutex m).holder = some h) (hhm : m ∈ (k.sch.tcb h).mutexQueue) (hok : WakesRight t k)
    (ho : Owes k.sch h t) {edge : TaskId → TaskId → Prop}
    (hedge : ∀ u, edge u h ↔ Feeds k.sch u h ∧ u ≠ t) :
    Inherited edge (fun u => (k.sch.tcb u).basePriority) (fun u => (k.sch.tcb u).priority) h
      (recalculated m h t k.sch) := by
  obtain ⟨hall, -⟩ := hok m hmo h hh ho
  intro q
  rw [le_recalculated hi.sched hw hm]
  constructor
  · rintro ⟨hb, hu⟩
    refine ⟨hb, fun u hf => ?_⟩
    obtain ⟨⟨n, hn, hun⟩, hut⟩ := (hedge u).mp hf
    rcases hall n hn u hun hut with hc | ⟨w, hwm, hwt, hwp⟩
    · exact Nat.le_trans hb hc
    · exact Nat.le_trans (hu w hwm hwt) hwp
  · rintro ⟨hb, hu⟩
    exact ⟨hb, fun u hum hut => hu u ((hedge u).mpr ⟨⟨m, hhm, hum⟩, hut⟩)⟩

/-- **The end of a wait keeps what tasks inherit.** -/
theorem wake_inhInv (hi : MInv none k) (ha : InhInv k) (hw : (k.sch.tcb t).taskState.isWait = true)
    (hok : WakesRight t k) {r : Bool × Kernel} (hr : taskWaitComplete len t true k = .ok r) :
    InhInv r.2 := by
  obtain ⟨s', hr2, hwk⟩ := taskWaitComplete_woken hi.sched hi.users hw hr
  have hwoke : Woke t k r.2 := by
    rw [hr2]
    exact hwk.woke hi.toWaitInv hw (.inl rfl)
  cases hm : waitsForMutex (k.sch.tcb t) with
  | false =>
    have hnone : mutexWait (k.sch.tcb t) = none := by
      by_contra hc
      rw [(mutexWait_ne.mp hc).2] at hm
      cases hm
    refine hwoke.toSameHolders.gets ha (fun _ m _ => ?_) (taskWaitComplete_plain hm hr)
    rw [hwoke.que, List.erase_of_not_mem (hi.not_mem hnone m)]
  | true =>
    obtain ⟨rs, hrs⟩ := Option.ne_none_iff_exists'.mp (mutexWait_ne.mpr ⟨hw, hm⟩)
    obtain ⟨m, ht⟩ := hi.place t rs hrs
    obtain ⟨-, hmo, hnblk, h, hh, hht⟩ := hi.waits_inherit ha ht
    have hhm : m ∈ (k.sch.tcb h).mutexQueue :=
      (hi.linked (hi.exist m t ht) hh).1
    have hown := hwoke.owns
    have hkeep := recalculated_waiting hi ha hw hm hmo hh hhm hok
    obtain ⟨hp, hph⟩ := taskWaitComplete_priority hm hmo hnblk hh hht (fun ho => by
      by_cases hmw : mutexWait (k.sch.tcb h) = none
      · exact .inr fun hc => mutexWait_ne.mpr hc hmw
      · exact .inl (hkeep ho hmw)) hr
    -- a task that waits keeps its priority
    have hpw : ∀ u n, u ∈ k.sch.que (.mutex n) →
        (r.2.sch.tcb u).priority = (k.sch.tcb u).priority := by
      intro u n hu
      by_cases huh : u = h
      · subst huh
        rw [hph]
        split
        · rename_i ho
          obtain ⟨ru, hru, -⟩ := hi.reason n u hu
          exact hkeep ho (by rw [hru]; simp)
        · rfl
      · exact hp u huh
    refine ⟨by simpa only [hwoke.mutex] using ha.all, fun v => ?_⟩
    by_cases hv : v = h
    · subst hv
      have hfeeds : ∀ u, Feeds r.2.sch u v ↔ Feeds k.sch u v ∧ u ≠ t := fun u => hwoke.feeds hi
      have hold : Inherited (Feeds r.2.sch) (fun u => (k.sch.tcb u).basePriority)
          (fun u => (k.sch.tcb u).priority) v (r.2.sch.tcb v).priority := by
        rw [hph]
        split
        · rename_i ho
          exact inherited_recalculated hi hw hm hmo hh hhm hok ho hfeeds
        · rename_i ho
          refine (ha.gets v).leave hfeeds ?_
          unfold Owes at ho
          omega
      refine hold.congr (hown v).base (fun _ => .rfl) fun u hu => ?_
      obtain ⟨⟨n, -, hun⟩, -⟩ := (hfeeds u).mp hu
      exact hpw u n hun
    · rw [hp v hv]
      refine gets_congr (ha.gets v) (hown v).base (hown v).mutexQueue (fun n hn => ?_) fun u hu => ?_
      · rw [hwoke.que, List.erase_of_not_mem]
        intro hc
        have hnm := hi.toWaitInv.one hc ht
        subst hnm
        rw [hi.mine hn] at hh
        exact hv (by simpa using hh)
      · obtain ⟨n, -, hu⟩ := hu
        exact hpw u n hu

/-! ## A mutex is locked -/

theorem feeds_lock (k : Kernel) (m : Nat) (t u v : TaskId) : Feeds (lockMutex k m t).sch u v ↔
    Feeds k.sch u v ∨ (v = t ∧ u ∈ k.sch.que (.mutex m)) := by
  have hque : ∀ n, (lockMutex k m t).sch.que (.mutex n) = k.sch.que (.mutex n) := fun _ => rfl
  by_cases hv : v = t
  · subst hv
    have hq : ((lockMutex k m v).sch.tcb v).mutexQueue = (k.sch.tcb v).mutexQueue ++ [m] :=
      congrArg Tcb.mutexQueue (setQueue_self k.sch v (· ++ [m]))
    unfold Feeds
    simp only [hq, hque, List.mem_append, List.mem_singleton, or_and_right, exists_or, exists_eq_left,
      true_and]
  · have hq : (lockMutex k m t).sch.tcb v = k.sch.tcb v := setQueue_ne k.sch (· ++ [m]) hv
    unfold Feeds
    simp only [hq, hque, hv, false_and, or_false]

/-- A task with a priority as high as those of the waiters locks the mutex. -/
theorem InhInv.lock (ha : InhInv k)
    (hp : ∀ u ∈ k.sch.que (.mutex m), (k.sch.tcb t).priority ≤ (k.sch.tcb u).priority) :
    InhInv (lockMutex k m t) := by
  have hb : ∀ u, ((lockMutex k m t).sch.tcb u).basePriority = (k.sch.tcb u).basePriority :=
    fun u => base_queue k.sch t u (· ++ [m])
  have hpr : ∀ u, ((lockMutex k m t).sch.tcb u).priority = (k.sch.tcb u).priority := by
    intro u
    by_cases hu : u = t
    · rw [hu]
      have hself := congrArg Tcb.priority (setQueue_self k.sch t (· ++ [m]))
      exact hself
    · exact congrArg Tcb.priority (setQueue_ne k.sch (· ++ [m]) hu)
  refine ⟨fun n hid => ?_, fun v => ?_⟩
  · have hn := holder_mutex k m n (some t)
    exact hn.2.1.trans (ha.all n (hn.1.symm.trans hid))
  · rw [hpr v]
    have hg := (ha.gets v).gain (fun u hu => (feeds_lock k m t u v).mpr (.inl hu)) (fun u hu => by
      rcases (feeds_lock k m t u v).mp hu with hu | ⟨rfl, huw⟩
      · exact .inl hu
      · exact .inr (hp u huw))
    exact hg.congr (hb v) (fun _ => .rfl) fun u _ => hpr u

/-- The condition on a task that waits for a mutex: it does not raise a task that waits for a mutex. -/
def LocksRight (m : Nat) (k : Kernel) : Prop :=
  ∀ h, (k.mutex m).holder = some h → mutexWait (k.sch.tcb h) ≠ none →
    (k.sch.tcb h).priority ≤ (k.sch.tcb k.sch.currRunTask).priority

/-- The holder of the mutex gets the priority of the running task. -/
theorem lockWait_direct (hi : MInv none k) (hsys : isSystem h = false)
    (hok : mutexWait (k.sch.tcb h) ≠ none →
      (k.sch.tcb h).priority ≤ (k.sch.tcb k.sch.currRunTask).priority) {r : WaitReason}
    {timeout : BitVec 32} (hr : lockWait len m (some h) r timeout k = .ok k') :
    ∃ s', Reprio k.sch s' ∧ (∀ u, u ≠ h → s'.tcb u = k.sch.tcb u) ∧
      (s'.tcb h).priority = min (k.sch.tcb h).priority (k.sch.tcb k.sch.currRunTask).priority ∧
      k' = { k with sch := taskCurrToWaitAction (some (.mutex m)) r timeout s' } := by
  unfold lockWait at hr
  dsimp only at hr
  split at hr
  · rename_i hlt
    obtain ⟨k1, h1, h2⟩ := bind_ok hr
    cases h2
    obtain ⟨s', rfl, hre⟩ := setCurrentPriority_reprio hi.sched hi.users hsys hsys (.inl rfl)
      (hi.sched.prioOk k.sch.currRunTask).1 h1
    obtain ⟨s'', heq, hself, hne⟩ := setCurrentPriority_direct
      (.inr fun hc => absurd (hok (mutexWait_ne.mpr hc)) (Nat.not_le.mpr hlt)) h1
    have hss : s' = s'' := congrArg Kernel.sch heq
    subst hss
    refine ⟨s', hre, hne, ?_, rfl⟩
    rw [hself, Nat.min_eq_right (Nat.le_of_lt hlt)]
  · rename_i hge
    cases hr
    refine ⟨k.sch, .refl hi.sched, fun _ _ => rfl, ?_, rfl⟩
    rw [Nat.min_eq_left (Nat.not_lt.mp hge)]

/-- The tasks that wait for the mutexes of the holder when `c` waits for one of them. -/
theorem feeds_join {c : TaskId} (hq : (s'.tcb h).mutexQueue = (s.tcb h).mutexQueue)
    (hm : m ∈ (s.tcb h).mutexQueue) (hque : s'.que (.mutex m) = s.que (.mutex m) ++ [c])
    (hqueNe : ∀ n, n ≠ m → s'.que (.mutex n) = s.que (.mutex n)) :
    Feeds s' u h ↔ Feeds s u h ∨ u = c := by
  unfold Feeds
  rw [hq]
  constructor
  · rintro ⟨n, hn, hu⟩
    by_cases hnm : n = m
    · subst hnm
      rw [hque, List.mem_append, List.mem_singleton] at hu
      exact hu.imp_left fun hu => ⟨n, hn, hu⟩
    · rw [hqueNe n hnm] at hu
      exact .inl ⟨n, hn, hu⟩
  · rintro (⟨n, hn, hu⟩ | rfl)
    · refine ⟨n, hn, ?_⟩
      by_cases hnm : n = m
      · subst hnm
        rw [hque]
        exact List.mem_append_left _ hu
      · rwa [hqueNe n hnm]
    · exact ⟨m, hm, by rw [hque]; simp⟩

/-- **The running task waits for a mutex.** -/
theorem lockWait_inhInv (hi : MInv none k) (ha : InhInv k) (hru : RunsUser k)
    (hid : (k.mutex m).idMutex = true) (hh : (k.mutex m).holder = some h)
    (hne : h ≠ k.sch.currRunTask) (hok : LocksRight m k) {timeout : BitVec 32}
    (hr : lockWait len m (some h) .mutexI timeout k = .ok k') : InhInv k' := by
  obtain ⟨s1, hre, hs1, hs2, rfl⟩ := lockWait_direct hi (hi.sysHolder m h hh) (hok h hh) hr
  have hj := joined hre.sched (hre.runs hru.run) (by rw [hre.curr]; exact hru.user)
    (r := .mutexI) (by simp) m timeout
  have hw := Joined.waits (k := { k with sch := s1 }) hj rfl (by simp)
  obtain ⟨k2, hk2⟩ : ∃ k2 : Kernel, k2 = { k with
    sch := taskCurrToWaitAction (some (.mutex m)) .mutexI timeout s1 } := ⟨_, rfl⟩
  rw [← hk2] at hw ⊢
  obtain ⟨c, hc⟩ : ∃ c, c = k.sch.currRunTask := ⟨_, rfl⟩
  have hc1 : s1.currRunTask = c := by rw [hre.curr, hc]
  rw [← hc] at hne hs2
  have hown : ∀ u, Owns (k.sch.tcb u) (k2.sch.tcb u) := fun u =>
    (hre.still.owns u).trans (hw.owns u)
  -- the priorities and the wait lists behind the call
  have hp : ∀ u, (k2.sch.tcb u).priority = (s1.tcb u).priority := by
    intro u
    rw [hk2]
    by_cases hu : u = s1.currRunTask
    · rw [hu]
      exact hj.priority
    · exact congrArg Tcb.priority (hj.tcb u hu)
  have hph : (k2.sch.tcb h).priority = min (k.sch.tcb h).priority (k.sch.tcb c).priority :=
    (hp h).trans hs2
  have hpu : ∀ u, u ≠ h → (k2.sch.tcb u).priority = (k.sch.tcb u).priority := fun u hu =>
    (hp u).trans (congrArg Tcb.priority (hs1 u hu))
  have hque : k2.sch.que (.mutex m) = k.sch.que (.mutex m) ++ [c] := by
    rw [hw.que]
    show s1.que (.mutex m) ++ [s1.currRunTask] = _
    rw [hre.que, hc1]
  have hqueNe : ∀ n, n ≠ m → k2.sch.que (.mutex n) = k.sch.que (.mutex n) := fun n hn =>
    (hw.queNe n hn).trans (hre.que n)
  have hpw : ∀ u n, u ∈ k.sch.que (.mutex n) → (k2.sch.tcb u).priority = (k.sch.tcb u).priority := by
    intro u n hu
    by_cases huh : u = h
    · subst huh
      obtain ⟨ru, hru', -⟩ := hi.reason n u hu
      rw [hph, hc, Nat.min_eq_left (hok u hh (by rw [hru']; simp))]
    · exact hpu u huh
  refine ⟨by simpa only [hw.mutex] using ha.all, fun v => ?_⟩
  by_cases hv : v = h
  · subst hv
    have hfeeds : ∀ u, Feeds k2.sch u v ↔ Feeds k.sch u v ∨ u = c := fun u =>
      feeds_join (hown v).mutexQueue (hi.linked hid hh).1 hque hqueNe
    rw [hph]
    refine ((ha.gets v).join hfeeds).congr (hown v).base (fun _ => .rfl) fun u hu => ?_
    rcases (hfeeds u).mp hu with ⟨n, -, hu⟩ | rfl
    · exact hpw u n hu
    · exact hpu u (Ne.symm hne)
  · rw [hpu v hv]
    refine gets_congr (ha.gets v) (hown v).base (hown v).mutexQueue (fun n hn => ?_) ?_
    · refine hqueNe n fun hnm => ?_
      subst hnm
      rw [hi.mine hn] at hh
      exact hv (by simpa using hh)
    · rintro u ⟨n, -, hu⟩
      exact hpw u n hu

/-! ## A mutex is given back -/

/-- The condition on a mutex that is given back: the first waiter, which gets it, has a priority as high
    as the others.  Where the running task still inherits this priority from its other mutexes, one of
    the others has it, too. -/
def HandsRight (m : Nat) (k : Kernel) : Prop :=
  ∀ w l, k.sch.que (.mutex m) = w :: l →
    (∀ u ∈ l, (k.sch.tcb w).priority ≤ (k.sch.tcb u).priority) ∧
    (heldPriority k.sch.currRunTask (unlinked k.sch.currRunTask m k).sch = (k.sch.tcb w).priority →
      (k.sch.tcb k.sch.currRunTask).basePriority = (k.sch.tcb w).priority ∨
        ∃ u ∈ l, (k.sch.tcb u).priority = (k.sch.tcb w).priority)

/-- The first half of `do_unlock_mutex`. -/
theorem release_inhInv (hi : MInv none k) (ha : InhInv k) (hid : (k.mutex m).idMutex = true)
    (hh : (k.mutex m).holder = some k.sch.currRunTask)
    (hrun : (k.sch.tcb k.sch.currRunTask).taskState = .runnable) (hr : releaseMutex len m k = .ok k') :
    InhInv k' := by
  obtain ⟨s', rfl, hre, hself, hne⟩ := releaseMutex_direct hi hid hh hrun hr
  obtain ⟨k1, hk1⟩ : ∃ k1, k1 = unlinked k.sch.currRunTask m k := ⟨_, rfl⟩
  rw [← hk1] at hre hself ⊢
  have hmut : k1.mutex = k.mutex := by rw [hk1]; rfl
  have hcurr : ∀ u n, u ∈ k.sch.que (.mutex n) → u ≠ k.sch.currRunTask := by
    rintro u n hu rfl
    exact not_mem_of_not_wait hi.sched (by rw [hrun]; rfl) n hu
  have hold : ∀ u, u ≠ k.sch.currRunTask → k1.sch.tcb u = k.sch.tcb u := fun u hu => by
    rw [hk1]
    exact setQueue_ne k.sch (·.erase m) hu
  have hque : ∀ n, k1.sch.que (.mutex n) = k.sch.que (.mutex n) := fun n => by rw [hk1]; rfl
  have hprio : ∀ u v, Feeds k1.sch u v → (s'.tcb u).priority = (k1.sch.tcb u).priority := by
    rintro u v ⟨n, -, hu⟩
    rw [hque] at hu
    have huc := hcurr u n hu
    rw [hne u huc, hold u huc]
  have hown : ∀ u, Owns (k1.sch.tcb u) (s'.tcb u) := hre.still.owns
  refine ⟨by simpa only [hmut] using ha.all, fun v => ?_⟩
  show Gets s' v (s'.tcb v).priority
  by_cases hv : v = k.sch.currRunTask
  · rw [hv, hself, ← hv]
    exact gets_congr (heldPriority_gets v k1.sch) (hown v).base (hown v).mutexQueue
      (fun n _ => hre.que n) fun u hu => hprio u v hu
  · have hg : Gets k1.sch v (k.sch.tcb v).priority := by
      refine gets_congr (ha.gets v) ?_ ?_ (fun n _ => hque n) ?_
      · rw [hold v hv]
      · rw [hold v hv]
      · rintro u ⟨n, -, hu⟩
        rw [hold u (hcurr u n hu)]
    rw [hne v hv]
    exact gets_congr hg (hown v).base (hown v).mutexQueue (fun n _ => hre.que n)
      fun u hu => hprio u v hu

/-- **The first waiter gets the mutex.** -/
theorem give_inhInv (hi : MInv (some m) k) (ha : InhInv k) {c : TaskId} {l : List TaskId}
    (hq : k.sch.que (.mutex m) = w :: l) (hh : (k.mutex m).holder = some c)
    (hmin : ∀ u ∈ l, (k.sch.tcb w).priority ≤ (k.sch.tcb u).priority)
    (hrest : (k.sch.tcb c).priority = (k.sch.tcb w).priority →
      (k.sch.tcb c).basePriority = (k.sch.tcb w).priority ∨
        ∃ u ∈ l, (k.sch.tcb u).priority = (k.sch.tcb w).priority)
    (hr : giveMutex len m w k = .ok k') : InhInv k' := by
  have hwm : w ∈ k.sch.que (.mutex m) := by simp [hq]
  obtain ⟨r, h1, h2⟩ := bind_ok hr
  cases h2
  obtain ⟨-, hwait, -⟩ := hi.waiter hwm
  obtain ⟨hm, hmo, hnblk, h, hh', hne⟩ := hi.waits_inherit ha hwm
  rw [hh] at hh'
  cases hh'
  have hnd := hi.queNodup m
  rw [hq, List.nodup_cons] at hnd
  -- the task that has given the mutex back keeps its priority
  have hle : ∀ q, q ≤ recalculated m c w k.sch ↔ q ≤ (k.sch.tcb c).basePriority ∧
      ∀ u ∈ k.sch.que (.mutex m), u ≠ w → q ≤ (k.sch.tcb u).priority :=
    fun q => le_recalculated hi.sched hwait hm
  have hkeep : Owes k.sch c w → recalculated m c w k.sch = (k.sch.tcb c).priority := by
    rintro ⟨hb, hpw⟩
    obtain hc | ⟨u, hu, hup⟩ := hrest hpw
    · exact absurd (hpw.trans hc.symm) hb
    refine Nat.le_antisymm ?_ ((hle _).mpr ⟨(ha.gets c).le_base, fun v hv hvw => ?_⟩)
    · rw [hpw, ← hup]
      refine ((hle _).mp (Nat.le_refl _)).2 u (by simp [hq, hu]) ?_
      rintro rfl
      exact hnd.1 hu
    · rw [hq, List.mem_cons] at hv
      rw [hpw]
      exact hmin v (hv.resolve_left hvw)
  obtain ⟨hp1, hp2⟩ := taskWaitComplete_priority hm hmo hnblk hh hne (fun ho => .inl (hkeep ho)) h1
  have hp : ∀ u, (r.2.sch.tcb u).priority = (k.sch.tcb u).priority := by
    intro u
    by_cases hu : u = c
    · rw [hu, hp2]
      split
      · rename_i ho
        exact hkeep ho
      · rfl
    · exact hp1 u hu
  obtain ⟨s', hr2, hwk⟩ := taskWaitComplete_woken hi.sched hi.users hwait h1
  have hwoke : Woke w k r.2 := by
    rw [hr2]
    exact hwk.woke hi.toWaitInv hwait (.inl rfl)
  have ha1 : InhInv r.2 := by
    refine hwoke.toSameHolders.gets ha (fun t n hn => ?_) hp
    rw [hwoke.que, List.erase_of_not_mem]
    intro hc
    have hnm := hi.toWaitInv.one hc hwm
    subst hnm
    exact (hi.out n rfl).1 ((hi.queue t n).mp hn).1
  have ha2 : InhInv (lockMutex r.2 m w) := by
    refine ha1.lock fun u hu => ?_
    rw [hwoke.que, hq, List.erase_cons_head] at hu
    rw [hp w, hp u]
    exact hmin u hu
  have hs : SInv none (lockMutex r.2 m w).sch := SInv.setQueue hwoke.sched w (· ++ [m])
  have hst : Still (lockMutex r.2 m w) (setBlkTask w none (lockMutex r.2 m w)) :=
    setBlkTask_still hs w fun h hc => by cases hc
  refine hst.inhInv ha2 fun u => ?_
  show (((lockMutex r.2 m w).sch.setTcb w fun b => { b with blkTask := none }).tcb u).priority = _
  by_cases hu : u = w
  · rw [hu, setTcb_same]
  · rw [setTcb_ne _ _ hu]

/-- **`tn_mutex_unlock`.** -/
theorem unlock_inhInv (hi : MInv none k) (ha : InhInv k)
    (hrun : (k.sch.tcb k.sch.currRunTask).taskState = .runnable)
    (hok : (k.mutex m).holder = some k.sch.currRunTask → HandsRight m k) {r : Kernel × List Seen}
    (hr : tnMutexUnlock len m k = .ok r) : InhInv r.1 := by
  unfold tnMutexUnlock at hr
  split at hr
  · cases hr
    exact ha
  rename_i hid
  split at hr
  · cases hr
    exact ha
  rename_i hh
  simp only [Bool.not_eq_true', Bool.not_eq_false] at hid
  rw [not_not] at hh
  obtain ⟨r', h1, h2⟩ := bind_ok hr
  cases h2
  obtain ⟨k1, h3, h4⟩ := bind_ok h1
  have hi1 := (releaseMutex_acts False hi hid hh h3).1.minv hi
  have ha1 := release_inhInv hi ha hid hh hrun h3
  obtain ⟨s', hk1, hre, hself, hne⟩ := releaseMutex_direct hi hid hh hrun h3
  have hmut : k1.mutex = k.mutex := by rw [hk1]; rfl
  have hque : k1.sch.que (.mutex m) = k.sch.que (.mutex m) := by rw [hk1]; exact hre.que m
  have hattr : (k1.mutex m).attr = .inherit := by
    rw [hmut]
    exact ha.all m hid
  unfold passMutex at h4
  cases hq : k1.sch.que (.mutex m) with
  | nil =>
    rw [hq, hattr] at h4
    cases h4
    refine ⟨fun n hidn => ?_, ha1.gets⟩
    have hn := holder_mutex k1 m n none
    exact hn.2.1.trans (ha1.all n (hn.1.symm.trans hidn))
  | cons w l =>
    rw [hq, hattr] at h4
    obtain ⟨k2, h5, h6⟩ := bind_ok h4
    cases h6
    obtain ⟨hmin, hrest⟩ := hok hh w l (hque.symm.trans hq)
    have hwait : ∀ u ∈ w :: l, u ≠ k.sch.currRunTask := by
      rintro u hu rfl
      rw [← hq, hque] at hu
      exact not_mem_of_not_wait hi.sched (by rw [hrun]; rfl) m hu
    have htcb : ∀ u ∈ w :: l, k1.sch.tcb u = k.sch.tcb u := fun u hu => by
      rw [hk1]
      exact hne u (hwait u hu)
    have hbase : (k1.sch.tcb k.sch.currRunTask).basePriority =
        (k.sch.tcb k.sch.currRunTask).basePriority := by
      have hb := base_queue k.sch k.sch.currRunTask k.sch.currRunTask (·.erase m)
      rw [hk1]
      exact (hre.still.owns k.sch.currRunTask).base.trans hb
    have hprio : (k1.sch.tcb k.sch.currRunTask).priority =
        heldPriority k.sch.currRunTask (unlinked k.sch.currRunTask m k).sch := by
      rw [hk1]
      exact hself
    have hw := htcb w List.mem_cons_self
    refine give_inhInv hi1 ha1 hq (by rw [hmut]; exact hh) (fun u hu => ?_) (fun hp => ?_) h5
    · rw [hw, htcb u (List.mem_cons_of_mem w hu)]
      exact hmin u hu
    · rw [hprio, hw] at hp
      rw [hbase, hw]
      refine (hrest hp).imp_right fun ⟨u, hu, hup⟩ => ⟨u, hu, ?_⟩
      rw [htcb u (List.mem_cons_of_mem w hu)]
      exact hup

/-! ## Time and tasks -/

/-- The wait of the task ends at this tick. -/
def Expires (k : Kernel) (t : TaskId) : Prop :=
  ticks (k.sch.tcb t) = true ∧ (k.sch.tcb t).tickCount - 1 = 0

instance (k : Kernel) (t : TaskId) : Decidable (Expires k t) := inferInstanceAs (Decidable (_ ∧ _))

theorem Still.wakesRight (h : Still k k') (hp : ∀ u, (k'.sch.tcb u).priority = (k.sch.tcb u).priority)
    (hm : mutexOf (k'.sch.tcb t) = mutexOf (k.sch.tcb t)) (hok : WakesRight t k) : WakesRight t k' := by
  unfold WakesRight Owes at hok ⊢
  simpa only [h.que, h.mutex, h.wait, hp, hm, (h.owns _).base, (h.owns _).mutexQueue] using hok

theorem timeoutTask_inhInv (hi : MInv none k) (ha : InhInv k)
    (hw : (k.sch.tcb t).taskState.isWait = true) (hok : Expires k t → WakesRight t k)
    (hr : timeoutTask len k t = .ok k') : InhInv k' := by
  unfold timeoutTask at hr
  dsimp only at hr
  split at hr
  · rename_i ht
    obtain ⟨k1, hk1⟩ : ∃ k1 : Kernel, k1 = { k with sch := k.sch.setTcb t fun b =>
      { b with tickCount := b.tickCount - 1 } } := ⟨_, rfl⟩
    have hst : Still k k1 := by
      rw [hk1]
      exact still_setTcb (hi.sched.tickDown ht) ⟨rfl, rfl, rfl, fun _ => .inl⟩ rfl
    have htcb : ∀ u, ∃ n, k1.sch.tcb u = { k.sch.tcb u with tickCount := n } := by
      intro u
      rw [hk1]
      dsimp only
      by_cases hu : u = t
      · rw [hu, setTcb_same]
        exact ⟨_, rfl⟩
      · rw [setTcb_ne _ _ hu]
        exact ⟨_, rfl⟩
    have hp : ∀ u, (k1.sch.tcb u).priority = (k.sch.tcb u).priority := fun u => by
      obtain ⟨n, hn⟩ := htcb u
      rw [hn]
    have ha1 := hst.inhInv ha hp
    have h1 : Act False (none, k) (none, k1) := .still hst
    have hi1 := h1.minv hi
    split at hr
    · rename_i hz
      obtain ⟨r, h2, h3⟩ := bind_ok hr
      cases h3
      rw [← hk1] at h2
      have hw1 : (k1.sch.tcb t).taskState.isWait = true := by
        obtain ⟨n, hn⟩ := htcb t
        rw [hn]
        exact hw
      have hz' : (k.sch.tcb t).tickCount - 1 = 0 := by
        rw [setTcb_same] at hz
        exact hz
      have hmo : mutexOf (k1.sch.tcb t) = mutexOf (k.sch.tcb t) := by
        obtain ⟨n, hn⟩ := htcb t
        rw [hn]
        rfl
      have ha2 := wake_inhInv hi1 ha1 hw1 (hst.wakesRight hp hmo (hok ⟨ht, hz'⟩)) h2
      obtain ⟨s', hr2, hwk⟩ := taskWaitComplete_woken hi1.sched hi1.users hw1 h2
      have hs : SInv none r.2.sch := by
        rw [hr2]
        exact hwk.sched
      refine (still_setTcb (hs.keep (.of_eq rfl id)) ⟨rfl, rfl, rfl, fun _ => .inl⟩ rfl).inhInv
        ha2 fun u => ?_
      dsimp only
      by_cases hu : u = t
      · rw [hu, setTcb_same]
      · rw [setTcb_ne _ _ hu]
    · rw [← hk1] at hr
      cases hr
      exact ha1
  · cases hr
    exact ha

/-- **The loop body of the timer task.** -/
theorem timerLoop_inhInv (hi : MInv none k) (ha : InhInv k) (hcurr : k.sch.currRunTask = timerTask)
    (hrun : (k.sch.tcb timerTask).taskState = .runnable)
    (hok : Along (timeoutTask len) (fun k t => Expires k t → WakesRight t k) k k.sch.waitTimeoutList)
    (hr : timerTaskLoop len k = .ok k') : InhInv k' := by
  obtain ⟨k1, h1, h2⟩ := bind_ok hr
  cases h2
  have hstart : Timeouts k k.sch.waitTimeoutList := by
    refine ⟨hi.sched.timeoutsNodup, fun u hu => ?_, hcurr, hrun⟩
    exact ((hi.sched.ok u).timeouts.mp hu).1
  have hstep : ∀ x t l y, (MInv none x ∧ InhInv x) ∧ Timeouts x (t :: l) →
      (Expires x t → WakesRight t x) → timeoutTask len x t = .ok y →
        (MInv none y ∧ InhInv y) ∧ Timeouts y l := by
    rintro x t l y ⟨⟨hx, hax⟩, ht⟩ hp hy
    have hw := ht.wait t List.mem_cons_self
    obtain ⟨h5, h6, h7⟩ := timeoutTask_acts False hx hw hy
    exact ⟨⟨h5.minv hx, timeoutTask_inhInv hx hax hw hp hy⟩, ht.next hw h6 h7⟩
  obtain ⟨⟨h3, h4⟩, h5⟩ := foldlM_along (fun x l => (MInv none x ∧ InhInv x) ∧ Timeouts x l) hstep
    ⟨⟨hi, ha⟩, hstart⟩ hok h1
  refine (timerSleep_still h3 h5.curr h5.run).inhInv h4 fun u => ?_
  have hpw := (h3.sched.ok k1.sch.currRunTask).pwait_none (by rw [h5.curr, h5.run]; rfl)
  by_cases hu : u = k1.sch.currRunTask
  · rw [hu]
    have hb := congrArg Tcb.priority (taskCurrToWaitAction_tcb none .sleep TN_WAIT_INFINITE k1.sch hpw)
    exact hb
  · exact congrArg Tcb.priority ((taskCurrToWaitAction_frame none .sleep TN_WAIT_INFINITE k1.sch).tcb u hu)

theorem tick_inhInv (hi : WaitInv k) (ha : InhInv k) :
    InhInv { k with sch := tnTickIntProcessing k.sch } := by
  refine (tick_still hi).inhInv ha fun u => ?_
  have hr : ((roundRobin k.sch).tcb u).priority = (k.sch.tcb u).priority := by
    obtain ⟨n, hn⟩ := roundRobin_tcb k.sch u
    rw [hn]
  refine Eq.trans ?_ hr
  dsimp only
  rw [tick_tcb]
  by_cases hu : u = timerTask
  · rw [hu, setTcb_same]
  · rw [setTcb_ne _ _ hu]

/-- A new task has its base priority and no mutexes. -/
theorem create_inhInv (hi : MInv none k) (ha : InhInv k) (ht : isSystem t = false) (priority : Int)
    (argsOk start : Bool) : InhInv { k with
      sch := (tnTaskCreate t priority argsOk { startOnCreation := start } k.sch).2 } := by
  rcases tnTaskCreate_newTask hi ht priority argsOk start with h | h
  · rw [h]
    exact ha
  obtain ⟨k1, hk1⟩ : ∃ k1 : Kernel, k1 = { k with
    sch := (tnTaskCreate t priority argsOk { startOnCreation := start } k.sch).2 } := ⟨_, rfl⟩
  rw [← hk1] at h ⊢
  refine ⟨by simpa only [h.mutex] using ha.all, fun v => ?_⟩
  by_cases hv : v = t
  · subst hv
    intro q
    rw [h.priority]
    refine ⟨fun hq => ⟨hq, ?_⟩, fun hq => hq.1⟩
    rintro u ⟨m, hm, -⟩
    rw [h.mutexQueue] at hm
    cases hm
  · rw [h.tcb v hv]
    refine gets_congr (ha.gets v) (by rw [h.tcb v hv]) (by rw [h.tcb v hv]) (fun m _ => h.que m) ?_
    rintro u ⟨m, -, hu⟩
    have hut : u ≠ t := by
      rintro rfl
      exact not_mem_of_not_wait hi.sched (by rw [(hi.sched.ok u).dormant h.before]; rfl) m hu
    rw [h.tcb u hut]

theorem mutexCreate_inhInv (hi : WaitInv k) (ha : InhInv k) (m : Nat) (ceilPriority : Int) :
    InhInv (tnMutexCreate m .inherit ceilPriority k).1 := by
  unfold tnMutexCreate
  split
  · exact ha
  rename_i hid
  split
  · exact ha
  have hq := hi.que_nil (Bool.not_eq_true _ ▸ hid)
  have hupd : Function.update k.sch.que (.mutex m) [] = k.sch.que := by
    rw [← hq]
    exact Function.update_eq_self _ _
  dsimp only
  rw [hupd]
  refine ⟨fun n hn => ?_, ha.gets⟩
  by_cases hnm : n = m
  · subst hnm
    exact congrArg Mutex.attr (setMutex_mutex_self k n _)
  · have hne := setMutex_mutex_ne k ⟨.inherit, none, ceilPriority.toNat, true⟩ hnm
    exact (congrArg Mutex.attr hne).trans (ha.all n ((congrArg Mutex.idMutex hne).symm.trans hn))

theorem lock_inhInv (hi : MInv none k) (ha : InhInv k) (hru : RunsUser k) {timeout : BitVec 32}
    (hok : timeout ≠ 0 → (k.mutex m).idMutex = true → LocksRight m k) {r : Option Terr × Kernel}
    (hr : tnMutexLock len m timeout k = .ok r) : InhInv r.2 := by
  unfold tnMutexLock at hr
  dsimp only at hr
  split at hr
  · cases hr
    exact ha
  rename_i ht
  split at hr
  · cases hr
    exact ha
  rename_i hid
  simp only [Bool.not_eq_true', Bool.not_eq_false] at hid
  split at hr
  · cases hr
    exact ha
  rename_i hown
  split at hr
  · cases hr
    exact ha
  have hattr := ha.all m hid
  cases hh : (k.mutex m).holder with
  | none =>
    rw [hattr, hh] at hr
    cases hr
    refine ha.lock fun u hu => ?_
    rw [hi.free m hid hattr hh] at hu
    cases hu
  | some h =>
    rw [hattr, hh] at hr
    obtain ⟨k1, h1, h2⟩ := bind_ok hr
    cases h2
    refine lockWait_inhInv hi ha hru hid hh ?_ (hok ht hid) h1
    rintro rfl
    exact hown hh

theorem lockPolling_inhInv (hi : MInv none k) (ha : InhInv k) :
    InhInv (tnMutexLockPolling m k).2 := by
  unfold tnMutexLockPolling
  dsimp only
  split
  · exact ha
  rename_i hid
  simp only [Bool.not_eq_true', Bool.not_eq_false] at hid
  split
  · exact ha
  split
  · exact ha
  have hattr := ha.all m hid
  cases hh : (k.mutex m).holder with
  | none =>
    rw [hattr]
    refine ha.lock fun u hu => ?_
    rw [hi.free m hid hattr hh] at hu
    cases hu
  | some h =>
    rw [hattr]
    exact ha

theorem releaseWait_inhInv (hi : MInv none k) (ha : InhInv k) (hok : WakesRight t k)
    {r : Terr × Kernel} (hr : tnTaskReleaseWait len t k = .ok r) : InhInv r.2 := by
  unfold tnTaskReleaseWait at hr
  dsimp only at hr
  split at hr
  · cases hr
    exact ha
  split at hr
  · cases hr
    exact ha
  rename_i hw
  simp only [Bool.not_eq_true', Bool.not_eq_false] at hw
  obtain ⟨r1, h1, h2⟩ := bind_ok hr
  cases h2
  exact wake_inhInv hi ha hw hok h1

/-! ## Events -/

/-- The event creates no ceiling mutex and deletes no mutex. -/
def InheritOnly : Event → Prop
  | .mutexCreate _ attr _ => attr = .inherit
  | .delete _ => False
  | .deleteOn => False
  | _ => True

/-- The condition on an event. -/
def InheritsRight (len : Nat) (x : State) : Event → Prop
  | .lock m timeout => timeout ≠ 0 → (x.k.mutex m).idMutex = true → LocksRight m x.k
  | .unlock m _ => (x.k.mutex m).holder = some x.k.sch.currRunTask → HandsRight m x.k
  | .releaseWait t => WakesRight t x.k
  | .timerLoop => Along (timeoutTask len) (fun k t => Expires k t → WakesRight t k) x.k
    x.k.sch.waitTimeoutList
  | _ => True

theorem InhInv.orderly (ha : InhInv x.k) (ho : InheritOnly ev) : Orderly x ev := by
  cases ev with
  | unlock m stray =>
    intro hid hh
    refine ⟨fun hc => ?_, fun hc => ?_⟩
    · have hattr : (x.k.mutex m).attr = .ceiling := hc
      rw [ha.all m hid] at hattr
      cases hattr
    · have hattr := hc.attr
      rw [ha.all m hid] at hattr
      cases hattr
  | deleteOn => exact ho.elim
  | _ => trivial

/-- **An event keeps what tasks inherit.** -/
theorem step_inhInv (hi : MInv none x.k) (ha : InhInv x.k) (he : Enabled x ev) (ho : InheritOnly ev)
    (hok : InheritsRight len x ev) {r : State × List Seen} (hr : mutexStep len x ev = .ok r) :
    InhInv r.1.k := by
  cases ev with
  | create t priority argsOk start =>
    cases hr
    exact create_inhInv hi ha he.2 priority argsOk start
  | tsliceTicks priority value =>
    cases hr
    refine (tsliceTicks_still hi.sched priority value).inhInv ha fun u => ?_
    dsimp only
    unfold tnSysTsliceTicks
    split <;> rfl
  | mutexCreate m attr ceilPriority =>
    cases hr
    have hattr : attr = .inherit := ho
    subst hattr
    exact mutexCreate_inhInv hi.toWaitInv ha m ceilPriority
  | lock m timeout =>
    obtain ⟨r1, h1, h2⟩ := bind_ok hr
    cases h2
    exact lock_inhInv hi ha (he.1.runs he.2) hok h1
  | lockPolling m =>
    cases hr
    exact lockPolling_inhInv hi ha
  | unlock m stray =>
    obtain ⟨r1, h1, h2⟩ := bind_ok hr
    cases h2
    exact unlock_inhInv hi ha he.1 hok h1
  | delete m => exact ho.elim
  | deleteOn => exact ho.elim
  | releaseWait t =>
    obtain ⟨r1, h1, h2⟩ := bind_ok hr
    cases h2
    exact releaseWait_inhInv hi ha hok h1
  | tick =>
    cases hr
    exact tick_inhInv hi.toWaitInv ha
  | timerLoop =>
    obtain ⟨k1, h1, h2⟩ := bind_ok hr
    cases h2
    exact timerLoop_inhInv hi ha he.1 he.2 hok h1
  | switchContext =>
    cases hr
    exact (switchContext_still hi.sched).inhInv ha fun _ => rfl

/-! ## Runs -/

theorem InhInv.start : InhInv Kernel.start := by
  refine ⟨(fun m hm => by cases hm), fun t => ?_⟩
  have hb : (Kernel.start.sch.tcb t).mutexQueue = [] ∧
      (Kernel.start.sch.tcb t).priority = (Kernel.start.sch.tcb t).basePriority := by
    by_cases h0 : t = timerTask
    · subst h0
      exact ⟨rfl, rfl⟩
    by_cases h1 : t = idleTask
    · subst h1
      exact ⟨rfl, rfl⟩
    have ht : Kernel.start.sch.tcb t = {} := start_tcb h0 h1
    rw [ht]
    exact ⟨rfl, rfl⟩
  intro q
  rw [hb.2]
  refine ⟨fun hq => ⟨hq, ?_⟩, fun hq => hq.1⟩
  rintro u ⟨m, hm, -⟩
  rw [hb.1] at hm
  cases hm

/-- Each task has the priority it inherits. -/
structure Inherits (k : Kernel) : Prop where
  /-- The priority is the highest one of the base priority and the priorities of the waiters. -/
  least : ∀ t, IsLeast (insert (k.sch.tcb t).basePriority
    {p | ∃ u, Edge (WaitsFor k) (Holds k) u t ∧ (k.sch.tcb u).priority = p}) (k.sch.tcb t).priority
  chain : ∀ t h, Relation.TransGen (Edge (WaitsFor k) (Holds k)) t h →
    (k.sch.tcb h).priority ≤ (k.sch.tcb t).priority
  free : ∀ t, (∀ m, ¬Holds k t m) → (k.sch.tcb t).priority = (k.sch.tcb t).basePriority

theorem MInv.edge_iff (hi : MInv none k) : Edge (WaitsFor k) (Holds k) u t ↔ Feeds k.sch u t := by
  refine exists_congr fun m => ?_
  unfold WaitsFor Holds
  rw [and_comm, hi.queue t m, hi.locked m (by simp)]
  refine and_congr_left fun _ => ?_
  exact ⟨fun h => ⟨⟨h.1, by rw [h.2]; rfl⟩, h.2⟩, fun h => ⟨h.1.1, h.2⟩⟩

theorem InhInv.inherits (hi : MInv none k) (ha : InhInv k) : Inherits k := by
  have hg : ∀ t, Inherited (Edge (WaitsFor k) (Holds k)) (fun u => (k.sch.tcb u).basePriority)
      (fun u => (k.sch.tcb u).priority) t (k.sch.tcb t).priority := fun t =>
    (ha.gets t).congr rfl (fun _ => hi.edge_iff) fun _ _ => rfl
  refine ⟨fun t => (hg t).isLeast, fun t h hc => ?_, fun t hn => (hg t).eq_base ?_⟩
  · exact le_of_chain (f := fun u => (k.sch.tcb u).priority) (fun _ _ he => (hg _).le_of_edge he) hc
  · rintro u ⟨m, -, hm⟩
    exact hn m hm

/-- **Priority inheritance.** -/
theorem inherited_priorities (len : Nat) (es : List Event) (y : State)
    (hg : Machine.Guarded (mutexMachine len)
      (fun x ev => (Enabled x ev ∧ InheritOnly ev) ∧ InheritsRight len x ev) (some State.start) es)
    (hy : (Machine.run (mutexMachine len) (some State.start) es).1 = some y) : Inherits y.k := by
  have hstep : ∀ x ev, MInv none x.k ∧ InhInv x.k →
      (Enabled x ev ∧ InheritOnly ev) ∧ InheritsRight len x ev →
      (∀ y, (mutexMachine len x ev).1 = some y → MInv none y.k ∧ InhInv y.k) ∧
        ∀ ob ∈ (mutexMachine len x ev).2, True := by
    rintro x ev ⟨hi, ha⟩ ⟨⟨he, ho⟩, hok⟩
    refine ⟨fun y hy => ?_, fun _ _ => trivial⟩
    have hm := step_minv hi he ((ha.orderly ho).keeps hi he) hy
    obtain ⟨obs, hr⟩ := mutexMachine_some hy
    exact ⟨hm, step_inhInv hi ha he ho hok hr⟩
  have hstart : ∀ x, some State.start = some x → MInv none x.k ∧ InhInv x.k := by
    rintro x hx
    cases hx
    exact ⟨MInv.start, InhInv.start⟩
  obtain ⟨hi, ha⟩ := (Machine.run_invariant (fun x => MInv none x.k ∧ InhInv x.k) (fun _ => True)
    hstep hstart hg).1 y hy
  exact ha.inherits hi

instance (m : Nat) (k : Kernel) : Decidable (LocksRight m k) :=
  inferInstanceAs (Decidable (∀ h ∈ (k.mutex m).holder, _ → _))

instance (m : Nat) (k : Kernel) : Decidable (HandsRight m k) :=
  match h : k.sch.que (.mutex m) with
  | [] => isTrue fun w l hq => by rw [h] at hq; cases hq
  | w :: l => decidable_of_iff
    ((∀ u ∈ l, (k.sch.tcb w).priority ≤ (k.sch.tcb u).priority) ∧
      (heldPriority k.sch.currRunTask (unlinked k.sch.currRunTask m k).sch = (k.sch.tcb w).priority →
        (k.sch.tcb k.sch.currRunTask).basePriority = (k.sch.tcb w).priority ∨
          ∃ u ∈ l, (k.sch.tcb u).priority = (k.sch.tcb w).priority))
    ⟨fun hw v l' hq => by rw [h] at hq; cases hq; exact hw, fun hw => hw w l h⟩

instance (t : TaskId) (k : Kernel) : Decidable (WakesRight t k) :=
  inferInstanceAs (Decidable (∀ m ∈ mutexOf (k.sch.tcb t), ∀ h ∈ (k.mutex m).holder, _ → _))

instance : ∀ ev, Decidable (InheritOnly ev)
  | .mutexCreate _ attr _ => inferInstanceAs (Decidable (attr = .inherit))
  | .delete _ | .deleteOn => isFalse not_false
  | .create .. | .tsliceTicks .. | .lock .. | .lockPolling _ | .unlock .. | .releaseWait _ | .tick
  | .timerLoop | .switchContext => isTrue trivial

instance (len : Nat) (x : State) : ∀ ev, Decidable (InheritsRight len x ev)
  | .lock m _ => inferInstanceAs (Decidable (_ → _ → LocksRight m x.k))
  | .unlock m _ => inferInstanceAs (Decidable (_ → HandsRight m x.k))
  | .releaseWait t => inferInstanceAs (Decidable (WakesRight t x.k))
  | .timerLoop => inferInstanceAs (Decidable (Along _ _ _ _))
  | .create .. | .tsliceTicks .. | .mutexCreate .. | .lockPolling _ | .delete _ | .deleteOn | .tick
  | .switchContext => isTrue trivial

/-- Task 2 holds the mutexes 0 and 1, which the tasks 3 and 4 wait for, and gives back mutex 1; then
    the wait of task 5 for mutex 0 is ended. -/
def inheritRun : List Event :=
  [.create 2 12 true true, .mutexCreate 0 .inherit 0, .mutexCreate 1 .inherit 0, .timerLoop,
    .switchContext, .lock 0 TN_WAIT_INFINITE, .lock 1 TN_WAIT_INFINITE, .create 5 10 true true,
    .switchContext, .lock 0 TN_WAIT_INFINITE, .switchContext, .create 3 8 true true, .switchContext,
    .lock 0 TN_WAIT_INFINITE, .switchContext, .create 4 5 true true, .switchContext,
    .lock 1 TN_WAIT_INFINITE, .switchContext, .unlock 1 false, .switchContext, .releaseWait 5]

theorem inheritRun_isSome :
    (Machine.run (mutexMachine 4) (some State.start) inheritRun).1.isSome = true := by
  decide +kernel

theorem inherited_priorities_three :
    Inherits ((Machine.run (mutexMachine 4) (some State.start) inheritRun).1.get
        inheritRun_isSome).k ∧
      (((Machine.run (mutexMachine 4) (some State.start) inheritRun).1.get
        inheritRun_isSome).k.sch.tcb 2).priority = 8 := by
  refine ⟨inherited_priorities 4 inheritRun _ ?_ (Option.some_get inheritRun_isSome).symm, ?_⟩
  · decide +kernel
  · decide +kernel

/-- Task 3 of priority 8 and then task 4 of priority 3 wait for the mutex that task 2 gives back. -/
def firstWaiterRun : List Event :=
  [.create 2 12 true true, .mutexCreate 0 .inherit 0, .timerLoop, .switchContext,
    .lock 0 TN_WAIT_INFINITE, .create 3 8 true true, .switchContext, .lock 0 TN_WAIT_INFINITE,
    .switchContext, .create 4 3 true true, .switchContext, .lock 0 TN_WAIT_INFINITE, .switchContext,
    .unlock 0 false]

theorem firstWaiterRun_isSome :
    (Machine.run (mutexMachine 4) (some State.start) firstWaiterRun).1.isSome = true := by
  decide +kernel

/-- The first waiter gets the mutex and keeps its priority, though a task of a higher one waits. -/
theorem first_waiter_low :
    ¬ ∀ (len : Nat) (es : List Event) (y : State),
      Machine.Guarded (mutexMachine len) (fun x ev => Enabled x ev ∧ InheritOnly ev)
        (some State.start) es →
      (Machine.run (mutexMachine len) (some State.start) es).1 = some y → Inherits y.k := by
  intro h
  have hi := h 4 firstWaiterRun _ (by decide +kernel) (Option.some_get firstWaiterRun_isSome).symm
  have he : Edge (WaitsFor ((Machine.run (mutexMachine 4) (some State.start) firstWaiterRun).1.get
      firstWaiterRun_isSome).k) (Holds ((Machine.run (mutexMachine 4) (some State.start)
      firstWaiterRun).1.get firstWaiterRun_isSome).k) 4 3 := by
    refine ⟨0, ?_, ?_⟩
    · unfold WaitsFor
      decide +kernel
    · unfold Holds
      decide +kernel
  exact absurd ((hi.least 3).2 (.inr ⟨4, he, rfl⟩)) (by decide +kernel)

end TnMutex
