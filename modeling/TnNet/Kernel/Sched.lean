import TnNet.Kernel.Machine

/-!
# The scheduler invariant

`TaskOk s t` says how the lists of the scheduler follow the control block of a task: a runnable task
is on the ready list of its priority, a task that waits for an object on the wait list of that
object, a task with a timeout on `tn_wait_timeout_list`, and on no other list.  `SInv o s` says it
of all tasks, and that the bitmap tells which ready lists are not empty and that
`tn_next_task_to_run` is a runnable task no runnable task goes before.  The task `o`, if any, is on
no list: the routines of `tn_tasks.c` take a task out of one queue and put it into another, and
`SInv (some t)` is what holds in between.

Every routine has one lemma here: `SInv.toNonRunnable`, `SInv.toRunnable`, `SInv.block`,
`SInv.waitComplete`, `SInv.changePriority`, `SInv.tick`.
-/

set_option autoImplicit false

namespace TnKernel

variable {s : Sched} {t u : TaskId} {f : Tcb → Tcb} {o : Option TaskId}

/-! ## Writing to a control block -/

@[simp] theorem setTcb_same (s : Sched) (t : TaskId) (f : Tcb → Tcb) :
    (s.setTcb t f).tcb t = f (s.tcb t) := Function.update_self ..

theorem setTcb_ne (s : Sched) (f : Tcb → Tcb) (h : u ≠ t) : (s.setTcb t f).tcb u = s.tcb u :=
  Function.update_of_ne h ..

@[simp] theorem setTcb_que (s : Sched) (t : TaskId) (f : Tcb → Tcb) : (s.setTcb t f).que = s.que :=
  rfl

@[simp] theorem setTcb_bmp (s : Sched) (t : TaskId) (f : Tcb → Tcb) :
    (s.setTcb t f).readyToRunBmp = s.readyToRunBmp := rfl

@[simp] theorem setTcb_next (s : Sched) (t : TaskId) (f : Tcb → Tcb) :
    (s.setTcb t f).nextTaskToRun = s.nextTaskToRun := rfl

@[simp] theorem setTcb_curr (s : Sched) (t : TaskId) (f : Tcb → Tcb) :
    (s.setTcb t f).currRunTask = s.currRunTask := rfl

@[simp] theorem setTcb_timeouts (s : Sched) (t : TaskId) (f : Tcb → Tcb) :
    (s.setTcb t f).waitTimeoutList = s.waitTimeoutList := rfl

@[simp] theorem setTcb_blocked (s : Sched) (t : TaskId) (f : Tcb → Tcb) :
    (s.setTcb t f).blockedTasksList = s.blockedTasksList := rfl

/-! ## The bitmap -/

theorem ffs_spec {b : BitVec 32} (h : b ≠ 0) :
    ffs b < 32 ∧ b.getLsbD (ffs b) = true ∧ ∀ p < ffs b, b.getLsbD p = false := by
  unfold ffs TN_NUM_PRIORITY
  cases hf : (List.range 32).find? fun p => b.getLsbD p with
  | none =>
    exfalso
    refine h (BitVec.eq_of_getLsbD_eq fun i hi => ?_)
    rw [List.find?_eq_none] at hf
    simpa using hf i (by simpa using hi)
  | some p =>
    obtain ⟨h1, as, bs, h2, h3⟩ := List.find?_eq_some_iff_append.mp hf
    have hlen : as.length = p := by
      have := congrArg (fun l => l[as.length]?) h2
      simp only [List.getElem?_append_right (Nat.le_refl _), Nat.sub_self, List.getElem?_cons_zero]
        at this
      rw [List.getElem?_eq_some_iff] at this
      obtain ⟨h4, h5⟩ := this
      simpa using h5
    have hp : p < 32 := by simpa using List.mem_of_find?_eq_some hf
    refine ⟨hp, h1, fun i hi => ?_⟩
    have hmem : i ∈ as := by
      have := congrArg (fun l => l[i]?) h2
      have hi' : i < p := hi
      rw [List.getElem?_append_left (by omega), List.getElem?_range (by omega)] at this
      exact List.mem_of_getElem? this.symm
    simpa using h3 i hmem

theorem getLsbD_set (b : BitVec 32) {p q : Nat} (hq : q < 32) :
    (b ||| BitVec.twoPow 32 p).getLsbD q = (b.getLsbD q || decide (q = p)) := by
  simp [hq]

theorem getLsbD_clear (b : BitVec 32) {p q : Nat} (hq : q < 32) :
    (b &&& ~~~BitVec.twoPow 32 p).getLsbD q = (b.getLsbD q && !decide (q = p)) := by
  simp [hq]

/-! ## The invariant -/

/-- The lists follow the control block of a task. -/
structure TaskOk (s : Sched) (t : TaskId) : Prop where
  ready : ∀ p, t ∈ s.que (.ready p) ↔ (s.tcb t).taskState = .runnable ∧ (s.tcb t).priority = p
  waits : ∀ q, q.isReady = false → (t ∈ s.que q ↔ (s.tcb t).pwaitQueue = some q)
  wait : ∀ q, (s.tcb t).pwaitQueue = some q →
    (s.tcb t).taskState.isWait = true ∧ q.isReady = false
  sleep : (s.tcb t).taskState.isWait = true → (s.tcb t).taskWaitReason = some .sleep →
    (s.tcb t).pwaitQueue = none
  timeouts : t ∈ s.waitTimeoutList ↔
    (s.tcb t).taskState.isWait = true ∧ (s.tcb t).tickCount ≠ TN_WAIT_INFINITE
  dormant : (s.tcb t).idTask = false → (s.tcb t).taskState = .dormant
  timer : t = timerTask → (s.tcb t).pwaitQueue = none ∧ (s.tcb t).tickCount = TN_WAIT_INFINITE ∧
    ((s.tcb t).taskState = .runnable ∨ (s.tcb t).taskState = .wait)
  idle : t = idleTask → (s.tcb t).taskState = .runnable

/-- The task is on no list. -/
structure Out (s : Sched) (t : TaskId) : Prop where
  que : ∀ q, t ∉ s.que q
  timeouts : t ∉ s.waitTimeoutList
  idle : t ≠ idleTask

/-- The lists follow the control blocks. -/
structure QInv (o : Option TaskId) (s : Sched) : Prop where
  task : ∀ t, some t ≠ o → TaskOk s t
  out : ∀ t, some t = o → Out s t
  nodup : ∀ q, (s.que q).Nodup
  timeoutsNodup : s.waitTimeoutList.Nodup
  prio : ∀ t, (s.tcb t).priority < 32 ∧ (s.tcb t).basePriority < 32
  timerPrio : (s.tcb timerTask).priority = 0 ∧ (s.tcb timerTask).basePriority = 0

/-- The bitmap follows the ready lists. -/
def BmpOk (s : Sched) : Prop :=
  ∀ p < 32, s.readyToRunBmp.getLsbD p = true ↔ s.que (.ready p) ≠ []

/-- The next task is runnable, and no runnable task goes before it. -/
def NextOk (o : Option TaskId) (s : Sched) : Prop :=
  ∃ n, s.nextTaskToRun = some n ∧ some n ≠ o ∧ (s.tcb n).taskState = .runnable ∧
    ∀ t, some t ≠ o → (s.tcb t).taskState = .runnable → (s.tcb n).priority ≤ (s.tcb t).priority

/-- The scheduler invariant. -/
structure SInv (o : Option TaskId) (s : Sched) : Prop extends QInv o s where
  bmp : BmpOk s
  next : NextOk o s

theorem some_ne {t u : TaskId} : some u ≠ some t ↔ u ≠ t := by simp

theorem QInv.ok (h : QInv none s) (t : TaskId) : TaskOk s t := h.task t (by simp)

theorem QInv.notIn (h : QInv (some t) s) : Out s t := h.out t rfl

theorem TaskOk.congr {s' : Sched} (h : TaskOk s t) (hb : s'.tcb t = s.tcb t)
    (hq : ∀ q, t ∈ s'.que q ↔ t ∈ s.que q)
    (ht : t ∈ s'.waitTimeoutList ↔ t ∈ s.waitTimeoutList) : TaskOk s' t := by
  constructor
  case ready => exact fun p => by rw [hq, hb, h.ready]
  case waits => exact fun q hr => by rw [hq, hb, h.waits q hr]
  case wait => rw [hb]; exact h.wait
  case sleep => rw [hb]; exact h.sleep
  case timeouts => rw [ht, hb, h.timeouts]
  case dormant => rw [hb]; exact h.dormant
  case timer => rw [hb]; exact h.timer
  case idle => rw [hb]; exact h.idle

/-! ## Changes of one task -/

/-- The step changes the control block and the places of the task `t` only, and keeps the order of
    the other tasks. -/
structure Frame (t : TaskId) (s s' : Sched) : Prop where
  tcb : ∀ u, u ≠ t → s'.tcb u = s.tcb u
  order : ∀ q, (s'.que q).filter (· ≠ t) = (s.que q).filter (· ≠ t)
  timeouts : ∀ u, u ≠ t → (u ∈ s'.waitTimeoutList ↔ u ∈ s.waitTimeoutList)
  curr : s'.currRunTask = s.currRunTask

theorem Frame.que {s' : Sched} (h : Frame t s s') (q : Que) (hu : u ≠ t) :
    u ∈ s'.que q ↔ u ∈ s.que q := by
  have := congrArg (u ∈ ·) (h.order q)
  simpa [hu] using this

theorem Frame.refl (t : TaskId) (s : Sched) : Frame t s s :=
  ⟨fun _ _ => rfl, fun _ => rfl, fun _ _ => .rfl, rfl⟩

theorem Frame.trans {s₁ s₂ : Sched} (h₁ : Frame t s s₁) (h₂ : Frame t s₁ s₂) : Frame t s s₂ :=
  ⟨fun u hu => (h₂.tcb u hu).trans (h₁.tcb u hu), fun q => (h₂.order q).trans (h₁.order q),
    fun u hu => (h₂.timeouts u hu).trans (h₁.timeouts u hu), h₂.curr.trans h₁.curr⟩

theorem frame_setTcb (s : Sched) (t : TaskId) (f : Tcb → Tcb) : Frame t s (s.setTcb t f) :=
  ⟨fun _ hu => setTcb_ne s f hu, fun _ => rfl, fun _ _ => .rfl, rfl⟩

theorem frame_addTail (q : Que) (t : TaskId) (s : Sched) : Frame t s (queueAddTail q t s) := by
  refine ⟨fun _ _ => rfl, fun q' => ?_, fun _ _ => .rfl, rfl⟩
  show (Function.update s.que q _ q').filter _ = _
  by_cases hq : q' = q
  · subst hq
    rw [Function.update_self]
    simp
  · rw [Function.update_of_ne hq]

theorem filter_erase (l : List TaskId) (t : TaskId) :
    (l.erase t).filter (· ≠ t) = l.filter (· ≠ t) := by
  induction l with
  | nil => rfl
  | cons a l ih =>
    by_cases ha : a = t
    · simp [ha]
    · rw [List.erase_cons_tail (by simpa using ha)]
      simp only [List.filter_cons, ih]

theorem frame_removeEntry (t : TaskId) (s : Sched) : Frame t s (queueRemoveEntry t s) :=
  ⟨fun _ _ => rfl, fun q => filter_erase (s.que q) t, fun _ _ => .rfl, rfl⟩

theorem frame_timerQueueRemove (t : TaskId) (s : Sched) : Frame t s (timerQueueRemove t s) := by
  unfold timerQueueRemove
  split
  · exact .refl t s
  · exact ⟨fun _ _ => rfl, fun _ => rfl, fun _ hu => List.mem_erase_of_ne hu, rfl⟩

/-- What the invariant asks of the priorities of a task. -/
def PrioOk (t : TaskId) (b : Tcb) : Prop :=
  b.priority < 32 ∧ b.basePriority < 32 ∧
    (t = timerTask → b.priority = 0 ∧ b.basePriority = 0)

theorem QInv.prioOk (h : QInv o s) (t : TaskId) : PrioOk t (s.tcb t) := by
  refine ⟨(h.prio t).1, (h.prio t).2, ?_⟩
  rintro rfl
  exact h.timerPrio

section Change

variable {s' : Sched} (hf : Frame t s s') (hn : ∀ q, (s'.que q).Nodup)
  (hn' : s'.waitTimeoutList.Nodup) (hp : PrioOk t (s'.tcb t))
include hf hn hn' hp

theorem Frame.qinv {o' : Option TaskId} (h : QInv o s) (ho : ∀ u, u ≠ t → some u ≠ o)
    (htask : some t ≠ o' → TaskOk s' t) (hout : ∀ u, some u = o' → Out s' u) : QInv o' s' := by
  constructor
  case task =>
    intro u hu
    by_cases hut : u = t
    · subst hut
      exact htask hu
    · exact (h.task u (ho u hut)).congr (hf.tcb u hut) (fun q => hf.que q hut)
        (hf.timeouts u hut)
  case out => exact hout
  case nodup => exact hn
  case timeoutsNodup => exact hn'
  case prio =>
    intro u
    by_cases hut : u = t
    · subst hut
      exact ⟨hp.1, hp.2.1⟩
    · rw [hf.tcb u hut]
      exact h.prio u
  case timerPrio =>
    by_cases hut : timerTask = t
    · subst hut
      exact hp.2.2 rfl
    · rw [hf.tcb _ hut]
      exact h.timerPrio

/-- The task comes back to the lists. -/
theorem QInv.into (h : QInv (some t) s) (ht : TaskOk s' t) : QInv none s' :=
  hf.qinv hn hn' hp h (fun _ hu => some_ne.mpr hu) (fun _ => ht) fun _ hu => by cases hu

/-- The task has left the lists. -/
theorem QInv.outOf (h : QInv none s) (ht : Out s' t) : QInv (some t) s' := by
  refine hf.qinv hn hn' hp h (fun _ _ => by simp) (fun hu => absurd rfl hu) fun u hu => ?_
  rw [Option.some.inj hu]
  exact ht

/-- The task changes where it is. -/
theorem QInv.change (h : QInv none s) (ht : TaskOk s' t) : QInv none s' :=
  hf.qinv hn hn' hp h (fun _ _ => by simp) (fun _ => ht) fun _ hu => by cases hu

end Change

theorem QInv.of_eq {s' : Sched} (h : QInv o s) (h1 : s'.tcb = s.tcb) (h2 : s'.que = s.que)
    (h3 : s'.waitTimeoutList = s.waitTimeoutList) : QInv o s' := by
  constructor
  case task =>
    exact fun u hu => (h.task u hu).congr (by rw [h1]) (fun q => by rw [h2]) (by rw [h3])
  case out =>
    exact fun u hu => ⟨by rw [h2]; exact (h.out u hu).que, by rw [h3]; exact (h.out u hu).timeouts,
      (h.out u hu).idle⟩
  case nodup => rw [h2]; exact h.nodup
  case timeoutsNodup => rw [h3]; exact h.timeoutsNodup
  case prio => rw [h1]; exact h.prio
  case timerPrio => rw [h1]; exact h.timerPrio

/-! ## Writing to control blocks -/

theorem NextOk.setOut (h : NextOk (some t) s) : NextOk (some t) (s.setTcb t f) := by
  obtain ⟨n, hn, ho, hr, hm⟩ := h
  have hnt := setTcb_ne s f (some_ne.mp ho)
  refine ⟨n, hn, ho, by rw [hnt]; exact hr, fun u hu => ?_⟩
  rw [hnt, setTcb_ne s f (some_ne.mp hu)]
  exact hm u hu

/-- The task that is out may be written to. -/
theorem SInv.setOut (h : SInv (some t) s) (hp : PrioOk t (f (s.tcb t))) :
    SInv (some t) (s.setTcb t f) := by
  refine ⟨?_, h.bmp, h.next.setOut⟩
  refine (frame_setTcb s t f).qinv h.nodup h.timeoutsNodup (by rw [setTcb_same]; exact hp)
    h.toQInv (fun _ hu => some_ne.mpr hu) (fun hu => absurd rfl hu) fun u hu => ?_
  exact ⟨(h.out u hu).que, (h.out u hu).timeouts, (h.out u hu).idle⟩

/-- A control block the lists follow as they follow another one. -/
structure Alike (t : TaskId) (b b' : Tcb) : Prop where
  run : b'.taskState = .runnable ↔ b.taskState = .runnable
  priority : b.taskState = .runnable → b'.priority = b.priority
  prioOk : PrioOk t b'
  isWait : b'.taskState.isWait = b.taskState.isWait
  pwaitQueue : b'.pwaitQueue = b.pwaitQueue
  tickCount : b'.tickCount = TN_WAIT_INFINITE ↔ b.tickCount = TN_WAIT_INFINITE
  reason : b'.taskWaitReason = some .sleep → b.taskWaitReason = some .sleep
  dormant : b'.idTask = false → b'.taskState = .dormant
  timer : t = timerTask → b'.taskState = b.taskState

theorem TaskOk.alike (h : TaskOk s t) (ha : Alike t (s.tcb t) (f (s.tcb t))) :
    TaskOk (s.setTcb t f) t := by
  constructor
  case ready =>
    intro p
    rw [setTcb_que, h.ready, setTcb_same, ha.run]
    refine and_congr_right fun hr => ?_
    rw [ha.priority hr]
  case waits => rw [setTcb_same, ha.pwaitQueue]; exact h.waits
  case wait => rw [setTcb_same, ha.isWait, ha.pwaitQueue]; exact h.wait
  case sleep =>
    rw [setTcb_same, ha.isWait, ha.pwaitQueue]
    exact fun hw hs => h.sleep hw (ha.reason hs)
  case timeouts => rw [setTcb_same, ha.isWait, ne_eq, ha.tickCount]; exact h.timeouts
  case dormant => rw [setTcb_same]; exact ha.dormant
  case timer =>
    intro ht
    rw [setTcb_same, ha.pwaitQueue, ha.tickCount, ha.timer ht]
    exact h.timer ht
  case idle => rw [setTcb_same, ha.run]; exact h.idle

/-- A write the lists do not see. -/
theorem SInv.alike (h : SInv none s) (ha : Alike t (s.tcb t) (f (s.tcb t))) :
    SInv none (s.setTcb t f) := by
  refine ⟨?_, h.bmp, ?_⟩
  · refine QInv.change (frame_setTcb s t f) h.nodup h.timeoutsNodup ?_ h.toQInv
      ((h.ok t).alike ha)
    rw [setTcb_same]
    exact ha.prioOk
  · have key : ∀ u, (((s.setTcb t f).tcb u).taskState = .runnable ↔
        (s.tcb u).taskState = .runnable) ∧ ((s.tcb u).taskState = .runnable →
        ((s.setTcb t f).tcb u).priority = (s.tcb u).priority) := by
      intro u
      by_cases hu : u = t
      · rw [hu, setTcb_same]
        exact ⟨ha.run, ha.priority⟩
      · rw [setTcb_ne s f hu]
        exact ⟨.rfl, fun _ => rfl⟩
    obtain ⟨n, hn, ho, hr, hm⟩ := h.next
    refine ⟨n, hn, ho, (key n).1.mpr hr, fun u hu hru => ?_⟩
    have hru' := (key u).1.mp hru
    rw [(key n).2 hr, (key u).2 hru']
    exact hm u hu hru'

/-- What the invariant reads of a control block. -/
structure Keeps (f : Tcb → Tcb) (b : Tcb) : Prop where
  state : (f b).taskState = b.taskState
  priority : (f b).priority = b.priority
  basePriority : (f b).basePriority = b.basePriority
  pwaitQueue : (f b).pwaitQueue = b.pwaitQueue
  tickCount : (f b).tickCount = b.tickCount
  idTask : (f b).idTask = b.idTask
  reason : (f b).taskWaitReason = some .sleep → b.taskWaitReason = some .sleep

theorem Keeps.of_eq {b : Tcb} (h : { f b with
      taskState := b.taskState, priority := b.priority, basePriority := b.basePriority
      pwaitQueue := b.pwaitQueue, tickCount := b.tickCount, idTask := b.idTask } = f b)
    (hr : (f b).taskWaitReason = some .sleep → b.taskWaitReason = some .sleep) : Keeps f b := by
  constructor
  case reason => exact hr
  all_goals rw [← h]

/-- Other fields of a control block may be written to. -/
theorem SInv.keep (h : SInv none s) (hf : Keeps f (s.tcb t)) : SInv none (s.setTcb t f) := by
  apply h.alike
  constructor
  case run => rw [hf.state]
  case priority => exact fun _ => hf.priority
  case prioOk =>
    unfold PrioOk
    rw [hf.priority, hf.basePriority]
    exact h.prioOk t
  case isWait => rw [hf.state]
  case pwaitQueue => exact hf.pwaitQueue
  case tickCount => rw [hf.tickCount]
  case reason => exact hf.reason
  case dormant => rw [hf.idTask, hf.state]; exact (h.ok t).dormant
  case timer => exact fun _ => hf.state

/-! ## Taking a task out of the lists -/

theorem QInv.idleReady (h : QInv o s) (ho : some idleTask ≠ o) :
    idleTask ∈ s.que (.ready (s.tcb idleTask).priority) := by
  have hi := h.task idleTask ho
  exact (hi.ready _).mpr ⟨hi.idle rfl, rfl⟩

theorem QInv.idleIn (h : QInv o s) : some idleTask ≠ o := fun ho => (h.out _ ho).idle rfl

/-- The idle task is runnable, so some bit is set. -/
theorem QInv.bmp_ne_zero (h : QInv o s) (hb : BmpOk s) : s.readyToRunBmp ≠ 0 := by
  intro h0
  have := (hb _ (h.prio idleTask).1).mpr (List.ne_nil_of_mem (h.idleReady h.idleIn))
  rw [h0] at this
  simp at this

/-- Who is on a ready list. -/
theorem QInv.ready (h : QInv o s) (p : Nat) (u : TaskId) : u ∈ s.que (.ready p) ↔
    some u ≠ o ∧ (s.tcb u).taskState = .runnable ∧ (s.tcb u).priority = p := by
  by_cases hu : some u = o
  · exact ⟨fun hm => absurd hm ((h.out u hu).que _), fun hm => absurd hu hm.1⟩
  · rw [(h.task u hu).ready]
    exact ⟨fun hm => ⟨hu, hm⟩, fun hm => hm.2⟩

/-- `find_next_task_to_run` finds the next task. -/
theorem NextOk.findNext (h : QInv o s) (hb : BmpOk s) : NextOk o (findNextTaskToRun s) := by
  obtain ⟨h1, h2, h3⟩ := ffs_spec (h.bmp_ne_zero hb)
  obtain ⟨n, l, hl⟩ := List.exists_cons_of_ne_nil ((hb _ h1).mp h2)
  have hn := (h.ready (ffs s.readyToRunBmp) n).mp (by rw [hl]; exact List.mem_cons_self)
  refine ⟨n, ?_, hn.1, hn.2.1, fun u hu hru => ?_⟩
  · simp [findNextTaskToRun, hl]
  · show (s.tcb n).priority ≤ (s.tcb u).priority
    rw [hn.2.2]
    by_contra hlt
    have hmem : u ∈ s.que (.ready (s.tcb u).priority) := (h.ready _ _).mpr ⟨hu, hru, rfl⟩
    have hbit := (hb _ (h.prio u).1).mpr (List.ne_nil_of_mem hmem)
    rw [h3 _ (by omega)] at hbit
    cases hbit

theorem SInv.erase_ready (h : SInv none s) (p : Nat) (hp : p ≠ (s.tcb t).priority) :
    (s.que (.ready p)).erase t = s.que (.ready p) := by
  refine List.erase_of_not_mem fun hm => hp ?_
  exact (((h.ready p t).mp hm).2.2).symm

/-- The bitmap when the last task of a priority has left. -/
theorem SInv.bmp_clear (h : SInv none s)
    (he : (s.que (.ready (s.tcb t).priority)).erase t = []) {p : Nat} (hp : p < 32) :
    (s.readyToRunBmp &&& ~~~BitVec.twoPow 32 (s.tcb t).priority).getLsbD p = true ↔
      (s.que (.ready p)).erase t ≠ [] := by
  rw [getLsbD_clear _ hp]
  by_cases hpt : p = (s.tcb t).priority
  · subst hpt
    simp [he]
  · rw [h.erase_ready p hpt]
    simp [hpt, h.bmp p hp]

/-- The bitmap while other tasks of the priority remain. -/
theorem SInv.bmp_erase (h : SInv none s)
    (he : (s.que (.ready (s.tcb t).priority)).erase t ≠ []) {p : Nat} (hp : p < 32) :
    s.readyToRunBmp.getLsbD p = true ↔ (s.que (.ready p)).erase t ≠ [] := by
  by_cases hpt : p = (s.tcb t).priority
  · subst hpt
    rw [h.bmp _ hp]
    exact ⟨fun _ => he, fun _ h0 => he (by rw [h0]; rfl)⟩
  · rw [h.erase_ready p hpt]
    exact h.bmp p hp

theorem QInv.removeEntry (h : QInv none s) (hr : (s.tcb t).taskState = .runnable)
    (hi : t ≠ idleTask) : QInv (some t) (queueRemoveEntry t s) := by
  refine QInv.outOf (frame_removeEntry t s) (fun q => (h.nodup q).erase t) h.timeoutsNodup
    (h.prioOk t) h ⟨fun q => (h.nodup q).not_mem_erase, fun hm => ?_, hi⟩
  have := ((h.ok t).timeouts.mp hm).1
  rw [hr] at this
  cases this

/-- **`task_to_non_runnable`.** -/
theorem SInv.toNonRunnable (h : SInv none s) (hr : (s.tcb t).taskState = .runnable)
    (hi : t ≠ idleTask) : SInv (some t) (taskToNonRunnable t s) := by
  have hq := h.toQInv.removeEntry hr hi
  unfold taskToNonRunnable
  dsimp only
  split
  · rename_i he
    have hq1 : QInv (some t) { queueRemoveEntry t s with
        readyToRunBmp := s.readyToRunBmp &&& ~~~BitVec.twoPow 32 (s.tcb t).priority } :=
      hq.of_eq rfl rfl rfl
    have hb1 : BmpOk { queueRemoveEntry t s with
        readyToRunBmp := s.readyToRunBmp &&& ~~~BitVec.twoPow 32 (s.tcb t).priority } :=
      fun p hp => h.bmp_clear he hp
    split
    · rename_i h0
      exact absurd h0 (hq1.bmp_ne_zero hb1)
    · exact ⟨hq1.of_eq rfl rfl rfl, hb1, NextOk.findNext hq1 hb1⟩
  · rename_i he
    have hb : BmpOk (queueRemoveEntry t s) := fun p hp => h.bmp_erase he hp
    obtain ⟨n, hn, -, hnr, hmin⟩ := h.next
    split
    · -- the next task was this one: another task of its priority comes next
      rename_i hnt
      have hnt' : n = t := Option.some.inj (hn.symm.trans hnt)
      obtain ⟨m, l, hl⟩ := List.exists_cons_of_ne_nil he
      have hm := (hq.ready (s.tcb t).priority m).mp (by rw [hl]; exact List.mem_cons_self)
      refine ⟨hq.of_eq rfl rfl rfl, hb, m, ?_, hm.1, hm.2.1, fun u hu hru => ?_⟩
      · show ((queueRemoveEntry t s).que (.ready (s.tcb t).priority)).head? = some m
        rw [hl]
        rfl
      · show (s.tcb m).priority ≤ (s.tcb u).priority
        have h1 : (s.tcb m).priority = (s.tcb t).priority := hm.2.2
        have h2 := hmin u (by simp) hru
        rw [hnt'] at h2
        omega
    · rename_i hnt
      refine ⟨hq, hb, n, hn, ?_, hnr, fun u _ hru => hmin u (by simp) hru⟩
      rw [some_ne]
      rintro rfl
      exact hnt hn

/-! ## Putting a task back -/

theorem nodup_snoc {l : List TaskId} (h : l.Nodup) (ht : t ∉ l) : (l ++ [t]).Nodup := by
  rw [List.nodup_append]
  refine ⟨h, by simp, fun a ha b hb => ?_⟩
  rw [List.mem_singleton.mp hb]
  rintro rfl
  exact ht ha

theorem nodup_addTail {q : Que} (h : ∀ q, (s.que q).Nodup) (ht : t ∉ s.que q) (q' : Que) :
    ((queueAddTail q t s).que q').Nodup := by
  show (Function.update s.que q _ q').Nodup
  by_cases hq : q' = q
  · rw [hq, Function.update_self]
    exact nodup_snoc (h q) ht
  · rw [Function.update_of_ne hq]
    exact h q'

theorem mem_addTail {q : Que} (ht : ∀ q, t ∉ s.que q) (q' : Que) :
    t ∈ (queueAddTail q t s).que q' ↔ q' = q := by
  show t ∈ Function.update s.que q _ q' ↔ _
  by_cases hq : q' = q
  · rw [hq, Function.update_self]
    simp
  · rw [Function.update_of_ne hq]
    simp [hq, ht q']

/-- A task that is on no list may stay there: it neither is runnable nor waits for an object or a
    timeout. -/
structure Parked (t : TaskId) (b : Tcb) : Prop where
  state : b.taskState ≠ .runnable
  pwaitQueue : b.pwaitQueue = none
  tick : b.taskState.isWait = true → b.tickCount = TN_WAIT_INFINITE
  idTask : b.idTask = false → b.taskState = .dormant
  timer : t = timerTask → b.taskState = .wait

theorem SInv.park (h : SInv (some t) s) (hp : Parked t (s.tcb t)) : SInv none s := by
  have hout := h.notIn
  constructor
  case bmp => exact h.bmp
  case next =>
    obtain ⟨n, hn, ho, hr, hm⟩ := h.next
    refine ⟨n, hn, by simp, hr, fun u _ hru => hm u ?_ hru⟩
    rw [some_ne]
    rintro rfl
    exact hp.state hru
  refine QInv.into (.refl t s) h.nodup h.timeoutsNodup (h.prioOk t) h.toQInv ?_
  constructor
  case ready => exact fun p => ⟨fun hm => absurd hm (hout.que _), fun hm => absurd hm.1 hp.state⟩
  case waits => exact fun q _ => by simp [hout.que q, hp.pwaitQueue]
  case wait => exact fun q hq => by simp [hp.pwaitQueue] at hq
  case sleep => exact fun _ _ => hp.pwaitQueue
  case timeouts =>
    exact ⟨fun hm => absurd hm hout.timeouts, fun hm => absurd (hp.tick hm.1) hm.2⟩
  case dormant => exact hp.idTask
  case timer =>
    intro ht
    have hw := hp.timer ht
    exact ⟨hp.pwaitQueue, hp.tick (by rw [hw]; rfl), .inr hw⟩
  case idle => exact fun hi => absurd hi hout.idle

/-- A runnable task goes to the end of its ready list. -/
theorem QInv.addReady (h : QInv (some t) s) (hr : (s.tcb t).taskState = .runnable)
    (hw : (s.tcb t).pwaitQueue = none) (hid : (s.tcb t).idTask = true)
    (htm : t = timerTask → (s.tcb t).tickCount = TN_WAIT_INFINITE) :
    QInv none (queueAddTail (.ready (s.tcb t).priority) t s) := by
  have hout := h.notIn
  refine QInv.into (frame_addTail _ t s) (nodup_addTail h.nodup (hout.que _)) h.timeoutsNodup
    (h.prioOk t) h ?_
  constructor
  case ready =>
    intro p
    rw [mem_addTail hout.que]
    show _ ↔ (s.tcb t).taskState = .runnable ∧ (s.tcb t).priority = p
    simp [hr, eq_comm]
  case waits =>
    intro q hq
    rw [mem_addTail hout.que]
    show _ ↔ (s.tcb t).pwaitQueue = some q
    rw [hw]
    constructor
    · rintro rfl
      cases hq
    · exact fun hc => by cases hc
  case wait =>
    intro q hq
    have hq' : (s.tcb t).pwaitQueue = some q := hq
    rw [hw] at hq'
    cases hq'
  case sleep => exact fun _ _ => hw
  case timeouts =>
    refine ⟨fun hm => absurd hm hout.timeouts, fun hm => ?_⟩
    have hm' : (s.tcb t).taskState.isWait = true := hm.1
    rw [hr] at hm'
    cases hm'
  case dormant =>
    intro hid'
    have : (s.tcb t).idTask = false := hid'
    rw [hid] at this
    cases this
  case timer => exact fun ht => ⟨hw, htm ht, .inl hr⟩
  case idle => exact fun _ => hr

/-- The bitmap with a task added. -/
theorem BmpOk.addReady (h : BmpOk s) (p : Nat) (t : TaskId) :
    BmpOk { queueAddTail (.ready p) t s with
      readyToRunBmp := s.readyToRunBmp ||| BitVec.twoPow 32 p } := by
  intro q hq
  show (s.readyToRunBmp ||| BitVec.twoPow 32 p).getLsbD q = true ↔
    Function.update s.que (.ready p) _ (.ready q) ≠ []
  rw [getLsbD_set _ hq]
  by_cases hpq : q = p
  · subst hpq
    simp
  · rw [Function.update_of_ne (by simpa using hpq)]
    simp [hpq, h q hq]

/-- A task that has become runnable comes next if it goes before the next task. -/
theorem NextOk.addReady {p : Nat} (h : NextOk (some t) s) (hr : (s.tcb t).taskState = .runnable)
    (hp : (s.tcb t).priority = p) :
    NextOk none (if runsBefore s p then { s with nextTaskToRun := some t } else s) := by
  obtain ⟨n, hn, ho, hnr, hm⟩ := h
  have hrb : runsBefore s p = decide (p < (s.tcb n).priority) := by
    unfold runsBefore
    rw [hn]
  split
  · rename_i hlt
    rw [hrb, decide_eq_true_eq] at hlt
    refine ⟨t, rfl, by simp, hr, fun u _ hru => ?_⟩
    show (s.tcb t).priority ≤ (s.tcb u).priority
    by_cases hu : u = t
    · exact Nat.le_of_eq (by rw [hu])
    · have := hm u (some_ne.mpr hu) hru
      omega
  · rename_i hlt
    rw [hrb, decide_eq_true_eq] at hlt
    refine ⟨n, hn, by simp, hnr, fun u _ hru => ?_⟩
    by_cases hu : u = t
    · subst hu
      omega
    · exact hm u (some_ne.mpr hu) hru

/-- **`task_to_runnable`.** -/
theorem SInv.toRunnable (h : SInv (some t) s) (hid : (s.tcb t).idTask = true)
    (htm : t = timerTask → (s.tcb t).tickCount = TN_WAIT_INFINITE) :
    SInv none (taskToRunnable t s) := by
  obtain ⟨s1, hs1⟩ : ∃ s1 : Sched, s1 =
    s.setTcb t fun b => { b with taskState := .runnable, pwaitQueue := none } := ⟨_, rfl⟩
  have h1 : SInv (some t) s1 := by
    rw [hs1]
    exact h.setOut (h.prioOk t)
  have hb : s1.tcb t = { s.tcb t with taskState := .runnable, pwaitQueue := none } := by
    rw [hs1, setTcb_same]
  have hp : (s1.tcb t).priority = (s.tcb t).priority := by rw [hb]
  have hr : (s1.tcb t).taskState = .runnable := by rw [hb]
  have hq := h1.toQInv.addReady hr (by rw [hb]) (by rw [hb]; exact hid) (by rw [hb]; exact htm)
  rw [hp] at hq
  have hbm := h1.bmp.addReady (s.tcb t).priority t
  have hnx : NextOk none _ := NextOk.addReady (s := { queueAddTail (.ready (s.tcb t).priority) t s1
    with readyToRunBmp := s1.readyToRunBmp ||| BitVec.twoPow 32 (s.tcb t).priority }) h1.next hr hp
  unfold taskToRunnable
  dsimp only
  rw [← hs1]
  refine ⟨?_, ?_, hnx⟩
  · split <;> exact hq.of_eq rfl rfl rfl
  · split <;> exact hbm

/-! ## Waiting -/

/-- The ready lists, the bitmap and the next task are the same. -/
structure SameReady (s s' : Sched) : Prop where
  que : ∀ p, s'.que (.ready p) = s.que (.ready p)
  bmp : s'.readyToRunBmp = s.readyToRunBmp
  next : s'.nextTaskToRun = s.nextTaskToRun

theorem SameReady.bmpOk {s' : Sched} (h : SameReady s s') (hb : BmpOk s) : BmpOk s' := by
  intro p hp
  rw [h.bmp, h.que]
  exact hb p hp

theorem SameReady.trans {s₁ s₂ : Sched} (h₁ : SameReady s s₁) (h₂ : SameReady s₁ s₂) :
    SameReady s s₂ :=
  ⟨fun p => (h₂.que p).trans (h₁.que p), h₂.bmp.trans h₁.bmp, h₂.next.trans h₁.next⟩

theorem sameReady_setTcb (s : Sched) (t : TaskId) (f : Tcb → Tcb) : SameReady s (s.setTcb t f) :=
  ⟨fun _ => rfl, rfl, rfl⟩

theorem sameReady_timerQueueRemove (t : TaskId) (s : Sched) :
    SameReady s (timerQueueRemove t s) := by
  unfold timerQueueRemove
  split <;> exact ⟨fun _ => rfl, rfl, rfl⟩

/-- A task that does not run comes back to the lists. -/
theorem SInv.intoWait {s' : Sched} (h : SInv (some t) s) (hf : Frame t s s') (hs : SameReady s s')
    (hn : ∀ q, (s'.que q).Nodup) (hn' : s'.waitTimeoutList.Nodup) (hp : PrioOk t (s'.tcb t))
    (hst : (s'.tcb t).taskState ≠ .runnable) (ht : TaskOk s' t) : SInv none s' := by
  refine ⟨QInv.into hf hn hn' hp h.toQInv ht, hs.bmpOk h.bmp, ?_⟩
  obtain ⟨n, hnx, ho, hr, hm⟩ := h.next
  have hnt := hf.tcb n (some_ne.mp ho)
  refine ⟨n, hs.next.trans hnx, by simp, by rw [hnt]; exact hr, fun u _ hru => ?_⟩
  have hu : u ≠ t := by
    rintro rfl
    exact hst hru
  rw [hf.tcb u hu] at hru ⊢
  rw [hnt]
  exact hm u (some_ne.mpr hu) hru

/-- A task that does not run leaves the lists. -/
theorem SInv.outWait {s' : Sched} (h : SInv none s) (hf : Frame t s s') (hs : SameReady s s')
    (hn : ∀ q, (s'.que q).Nodup) (hn' : s'.waitTimeoutList.Nodup) (hp : PrioOk t (s'.tcb t))
    (hst : (s.tcb t).taskState ≠ .runnable) (ht : Out s' t) : SInv (some t) s' := by
  refine ⟨QInv.outOf hf hn hn' hp h.toQInv ht, hs.bmpOk h.bmp, ?_⟩
  obtain ⟨n, hnx, -, hr, hm⟩ := h.next
  have hne : n ≠ t := by
    rintro rfl
    exact hst hr
  have hnt := hf.tcb n hne
  refine ⟨n, hs.next.trans hnx, some_ne.mpr hne, by rw [hnt]; exact hr, fun u hu hru => ?_⟩
  rw [hf.tcb u (some_ne.mp hu)] at hru ⊢
  rw [hnt]
  exact hm u (by simp) hru

theorem SInv.idTask (h : SInv none s) (hr : (s.tcb t).taskState ≠ .dormant) :
    (s.tcb t).idTask = true := by
  cases hid : (s.tcb t).idTask with
  | true => rfl
  | false => exact absurd ((h.ok t).dormant hid) hr

/-- The queue part of `task_curr_to_wait_action`. -/
def joinQue (waitQue : Option Que) (t : TaskId) (s : Sched) : Sched :=
  match waitQue with
  | none => s
  | some q => (queueAddTail q t s).setTcb t fun b => { b with pwaitQueue := some q }

/-- The timeout part of `task_curr_to_wait_action`. -/
def joinTimeouts (timeout : BitVec 32) (t : TaskId) (s : Sched) : Sched :=
  if timeout = TN_WAIT_INFINITE then s
  else { s with waitTimeoutList := s.waitTimeoutList ++ [t] }

theorem taskCurrToWaitAction_eq (waitQue : Option Que) (reason : WaitReason) (timeout : BitVec 32)
    (s : Sched) : taskCurrToWaitAction waitQue reason timeout s =
      joinTimeouts timeout s.currRunTask (joinQue waitQue s.currRunTask
        ((taskToNonRunnable s.currRunTask s).setTcb s.currRunTask fun b =>
          { b with taskState := .wait, taskWaitReason := some reason, tickCount := timeout })) := by
  cases waitQue <;> rfl

theorem taskToNonRunnable_tcb (t : TaskId) (s : Sched) : (taskToNonRunnable t s).tcb = s.tcb := by
  unfold taskToNonRunnable findNextTaskToRun
  dsimp only
  repeat' split
  all_goals rfl

section Join

variable {waitQue : Option Que} {timeout : BitVec 32}

theorem frame_joinQue (waitQue : Option Que) (t : TaskId) (s : Sched) :
    Frame t s (joinQue waitQue t s) := by
  cases waitQue with
  | none => exact .refl t s
  | some q =>
    exact (frame_addTail q t s).trans
      (frame_setTcb (queueAddTail q t s) t fun b => { b with pwaitQueue := some q })

theorem sameReady_joinQue (hq : ∀ q, waitQue = some q → q.isReady = false) (t : TaskId)
    (s : Sched) : SameReady s (joinQue waitQue t s) := by
  cases waitQue with
  | none => exact ⟨fun _ => rfl, rfl, rfl⟩
  | some q =>
    refine ⟨fun p => ?_, rfl, rfl⟩
    show Function.update s.que q _ (.ready p) = _
    rw [Function.update_of_ne]
    rintro rfl
    cases hq _ rfl

theorem nodup_joinQue (h : ∀ q, (s.que q).Nodup) (ht : ∀ q, t ∉ s.que q) (q : Que) :
    ((joinQue waitQue t s).que q).Nodup := by
  cases waitQue with
  | none => exact h q
  | some q' => exact nodup_addTail h (ht q') q

theorem mem_joinQue (ht : ∀ q, t ∉ s.que q) (q : Que) :
    t ∈ (joinQue waitQue t s).que q ↔ waitQue = some q := by
  cases waitQue with
  | none => exact ⟨fun hm => absurd hm (ht q), fun hc => by cases hc⟩
  | some q' =>
    show t ∈ (queueAddTail q' t s).que q ↔ _
    rw [mem_addTail ht]
    simp [eq_comm]

theorem joinQue_tcb (hp : (s.tcb t).pwaitQueue = none) :
    (joinQue waitQue t s).tcb t = { s.tcb t with pwaitQueue := waitQue } := by
  cases waitQue with
  | none =>
    show s.tcb t = _
    rw [← hp]
  | some q =>
    exact setTcb_same (queueAddTail q t s) t fun b => { b with pwaitQueue := some q }

theorem joinQue_timeouts (waitQue : Option Que) (t : TaskId) (s : Sched) :
    (joinQue waitQue t s).waitTimeoutList = s.waitTimeoutList := by
  cases waitQue <;> rfl

theorem joinTimeouts_tcb (timeout : BitVec 32) (t : TaskId) (s : Sched) :
    (joinTimeouts timeout t s).tcb = s.tcb := by
  unfold joinTimeouts
  split <;> rfl

theorem joinTimeouts_que (timeout : BitVec 32) (t : TaskId) (s : Sched) :
    (joinTimeouts timeout t s).que = s.que := by
  unfold joinTimeouts
  split <;> rfl

theorem sameReady_joinTimeouts (timeout : BitVec 32) (t : TaskId) (s : Sched) :
    SameReady s (joinTimeouts timeout t s) := by
  unfold joinTimeouts
  split <;> exact ⟨fun _ => rfl, rfl, rfl⟩

theorem frame_joinTimeouts (timeout : BitVec 32) (t : TaskId) (s : Sched) :
    Frame t s (joinTimeouts timeout t s) := by
  unfold joinTimeouts
  split
  · exact .refl t s
  · exact ⟨fun _ _ => rfl, fun _ => rfl, fun u hu => (by simp [hu]), rfl⟩

theorem mem_joinTimeouts (ht : t ∉ s.waitTimeoutList) :
    t ∈ (joinTimeouts timeout t s).waitTimeoutList ↔ timeout ≠ TN_WAIT_INFINITE := by
  unfold joinTimeouts
  split
  · rename_i hinf
    exact ⟨fun hm => absurd hm ht, fun hm => absurd hinf hm⟩
  · rename_i hinf
    simp [hinf]

theorem nodup_joinTimeouts (h : s.waitTimeoutList.Nodup) (ht : t ∉ s.waitTimeoutList) :
    (joinTimeouts timeout t s).waitTimeoutList.Nodup := by
  unfold joinTimeouts
  split
  · exact h
  · exact nodup_snoc h ht

end Join

theorem TaskOk.pwait_none (h : TaskOk s t) (hw : (s.tcb t).taskState.isWait = false) :
    (s.tcb t).pwaitQueue = none := by
  cases hpw : (s.tcb t).pwaitQueue with
  | none => rfl
  | some q => exact absurd (h.wait q hpw).1 (by simp [hw])

/-- **`task_curr_to_wait_action`.**  The timer task waits for no object and has no timeout. -/
theorem SInv.block (h : SInv none s) {waitQue : Option Que} {reason : WaitReason}
    {timeout : BitVec 32} (hr : (s.tcb s.currRunTask).taskState = .runnable)
    (hi : s.currRunTask ≠ idleTask)
    (htm : s.currRunTask = timerTask → waitQue = none ∧ timeout = TN_WAIT_INFINITE)
    (hq : ∀ q, waitQue = some q → q.isReady = false ∧ reason ≠ .sleep) :
    SInv none (taskCurrToWaitAction waitQue reason timeout s) := by
  rw [taskCurrToWaitAction_eq]
  generalize s.currRunTask = t at hr hi htm ⊢
  have hid : (s.tcb t).idTask = true := h.idTask (by rw [hr]; simp)
  have h1 := h.toNonRunnable hr hi
  obtain ⟨s2, hs2⟩ : ∃ s2, s2 = (taskToNonRunnable t s).setTcb t fun b =>
    { b with taskState := .wait, taskWaitReason := some reason, tickCount := timeout } := ⟨_, rfl⟩
  have h2 : SInv (some t) s2 := hs2 ▸ h1.setOut (h1.prioOk t)
  have hb2 : s2.tcb t = { s.tcb t with
      taskState := .wait, taskWaitReason := some reason, tickCount := timeout } := by
    rw [hs2, setTcb_same, taskToNonRunnable_tcb]
  have hpw := (h.ok t).pwait_none (by rw [hr]; rfl)
  rw [← hs2]
  have hout := h2.notIn
  have hto : t ∉ (joinQue waitQue t s2).waitTimeoutList := by
    rw [joinQue_timeouts]
    exact hout.timeouts
  -- the control block of the task that waits now
  have hb : (joinTimeouts timeout t (joinQue waitQue t s2)).tcb t = { s.tcb t with
      taskState := .wait, taskWaitReason := some reason, tickCount := timeout
      pwaitQueue := waitQue } := by
    rw [joinTimeouts_tcb, joinQue_tcb (by rw [hb2]; exact hpw), hb2]
  refine h2.intoWait ((frame_joinQue _ t s2).trans (frame_joinTimeouts _ t _))
    ((sameReady_joinQue (fun q hc => (hq q hc).1) t s2).trans (sameReady_joinTimeouts _ t _)) ?_
    (nodup_joinTimeouts (by rw [joinQue_timeouts]; exact h2.timeoutsNodup) hto) ?_ ?_ ?_
  · rw [joinTimeouts_que]
    exact nodup_joinQue h2.nodup hout.que
  · unfold PrioOk
    rw [hb]
    exact h.prioOk t
  · rw [hb]
    simp
  constructor
  case ready =>
    intro p
    rw [joinTimeouts_que, mem_joinQue hout.que, hb]
    refine ⟨fun hc => ?_, fun hc => by cases hc.1⟩
    cases (hq _ hc).1
  case waits => exact fun q _ => by rw [joinTimeouts_que, mem_joinQue hout.que, hb]
  case wait =>
    rw [hb]
    exact fun q hc => ⟨rfl, (hq q hc).1⟩
  case sleep =>
    rw [hb]
    intro _ hc
    show waitQue = none
    cases hw : waitQue with
    | none => rfl
    | some q => exact absurd (Option.some.inj hc) (hq q hw).2
  case timeouts =>
    rw [mem_joinTimeouts hto, hb]
    simp [TaskState.isWait]
  case dormant =>
    rw [hb]
    intro hc
    exact absurd (hid.symm.trans hc) (by simp)
  case timer =>
    rw [hb]
    exact fun hc => ⟨(htm hc).1, (htm hc).2, .inr rfl⟩
  case idle => exact fun hc => absurd hc hi

/-! ## The end of a wait -/

theorem timerQueueRemove_tcb (t : TaskId) (s : Sched) : (timerQueueRemove t s).tcb = s.tcb := by
  unfold timerQueueRemove
  split <;> rfl

theorem timerQueueRemove_que (t : TaskId) (s : Sched) : (timerQueueRemove t s).que = s.que := by
  unfold timerQueueRemove
  split <;> rfl

theorem not_mem_timerQueueRemove (hn : s.waitTimeoutList.Nodup)
    (ht : (s.tcb t).tickCount = TN_WAIT_INFINITE → t ∉ s.waitTimeoutList) :
    t ∉ (timerQueueRemove t s).waitTimeoutList := by
  unfold timerQueueRemove
  split
  · rename_i hinf
    exact ht hinf
  · exact hn.not_mem_erase

theorem nodup_timerQueueRemove (hn : s.waitTimeoutList.Nodup) :
    (timerQueueRemove t s).waitTimeoutList.Nodup := by
  unfold timerQueueRemove
  split
  · exact hn
  · exact hn.erase t

/-- The ready lists without a task that is not on them. -/
theorem SInv.sameReady_removeEntry (h : SInv none s) (hr : (s.tcb t).taskState ≠ .runnable) :
    SameReady s (queueRemoveEntry t s) :=
  ⟨fun p => List.erase_of_not_mem fun hm => hr ((h.ready p t).mp hm).2.1, rfl, rfl⟩

/-- A task that waits leaves its wait list and the list of timeouts. -/
theorem SInv.leave (h : SInv none s) (hr : (s.tcb t).taskState ≠ .runnable) (hi : t ≠ idleTask)
    (hp : PrioOk t (f (s.tcb t))) (ht : (f (s.tcb t)).tickCount = (s.tcb t).tickCount) :
    SInv (some t) (timerQueueRemove t ((queueRemoveEntry t s).setTcb t f)) := by
  obtain ⟨s1, hs1⟩ : ∃ s1, s1 = (queueRemoveEntry t s).setTcb t f := ⟨_, rfl⟩
  have hb : s1.tcb t = f (s.tcb t) := by
    rw [hs1, setTcb_same]
    rfl
  have hto : s1.waitTimeoutList = s.waitTimeoutList := by rw [hs1]; rfl
  rw [← hs1]
  apply h.outWait ?_ ?_ ?_ ?_ ?_ hr ⟨?_, ?_, hi⟩
  · rw [hs1]
    exact ((frame_removeEntry t s).trans (frame_setTcb _ t f)).trans (frame_timerQueueRemove t _)
  · rw [hs1]
    exact ((h.sameReady_removeEntry hr).trans (sameReady_setTcb _ t f)).trans
      (sameReady_timerQueueRemove t _)
  · rw [timerQueueRemove_que, hs1]
    exact fun q => (h.nodup q).erase t
  · exact nodup_timerQueueRemove (by rw [hto]; exact h.timeoutsNodup)
  · rw [timerQueueRemove_tcb, hb]
    exact hp
  · rw [timerQueueRemove_que, hs1]
    exact fun q => (h.nodup q).not_mem_erase
  · refine not_mem_timerQueueRemove (by rw [hto]; exact h.timeoutsNodup) fun hinf hm => ?_
    rw [hb, ht] at hinf
    rw [hto] at hm
    exact ((h.ok t).timeouts.mp hm).2 hinf

/-- **`task_wait_complete`.** -/
theorem SInv.waitComplete (h : SInv none s) (hw : (s.tcb t).taskState.isWait = true) :
    SInv none (taskWaitComplete t true s).2 := by
  have hr : (s.tcb t).taskState ≠ .runnable := by
    intro hr
    rw [hr] at hw
    cases hw
  have hi : t ≠ idleTask := fun hi => hr ((h.ok t).idle hi)
  have hid : (s.tcb t).idTask = true := h.idTask (by intro hc; rw [hc] at hw; cases hw)
  obtain ⟨s1, hs1⟩ : ∃ s1, s1 = timerQueueRemove t ((queueRemoveEntry t s).setTcb t fun b =>
    { b with pwaitQueue := none, taskWaitRc := .noErr }) := ⟨_, rfl⟩
  have h1 : SInv (some t) s1 := hs1 ▸ h.leave hr hi (h.prioOk t) rfl
  have hb1 : s1.tcb t = { s.tcb t with pwaitQueue := none, taskWaitRc := .noErr } := by
    rw [hs1, timerQueueRemove_tcb, setTcb_same]
    rfl
  obtain ⟨s2, hs2⟩ : ∃ s2, s2 = s1.setTcb t fun b => { b with tickCount := TN_WAIT_INFINITE } :=
    ⟨_, rfl⟩
  have h2 : SInv (some t) s2 := hs2 ▸ h1.setOut (h1.prioOk t)
  have hb2 : s2.tcb t = { s.tcb t with
      pwaitQueue := none, taskWaitRc := .noErr, tickCount := TN_WAIT_INFINITE } := by
    rw [hs2, setTcb_same, hb1]
  have hfinal : (taskWaitComplete t true s).2 =
      (if !(s2.tcb t).taskState.isSuspend then taskToRunnable t s2
        else s2.setTcb t fun b => { b with taskState := .suspend }).setTcb t
          fun b => { b with taskWaitReason := none } := by
    rw [hs2, hs1]
    rfl
  rw [hfinal]
  refine SInv.keep ?_ (.of_eq rfl fun hc => by cases hc)
  split
  · exact h2.toRunnable (by rw [hb2]; exact hid) fun _ => by rw [hb2]
  · rename_i hs
    refine (h2.setOut (h2.prioOk t)).park ?_
    rw [setTcb_same, hb2]
    refine ⟨by simp, rfl, fun hc => (by cases hc), fun hc => ?_, fun htm => ?_⟩
    · exact absurd (hid.symm.trans hc) (by simp)
    · -- the timer task is never suspended
      exfalso
      apply hs
      rw [hb2]
      rcases ((h.ok t).timer htm).2.2 with hc | hc
      · exact absurd hc hr
      · simp [hc, TaskState.isSuspend]

/-- A task that has been taken off the head of its wait list. -/
theorem SInv.removeHead_eq (h : SInv none s) {q : Que} {l : List TaskId} (hq : q.isReady = false)
    (hl : s.que q = t :: l) : queueRemoveHead q s = queueRemoveEntry t s := by
  have hpw : (s.tcb t).pwaitQueue = some q :=
    ((h.ok t).waits q hq).mp (by rw [hl]; exact List.mem_cons_self)
  unfold queueRemoveHead queueRemoveEntry
  congr 1
  funext q'
  by_cases hqq : q' = q
  · rw [hqq, Function.update_self, hl]
    simp
  · rw [Function.update_of_ne hqq, List.erase_of_not_mem]
    intro hm
    cases hr : q'.isReady with
    | false =>
      have := ((h.ok t).waits q' hr).mp hm
      rw [hpw] at this
      exact hqq (Option.some.inj this).symm
    | true =>
      cases q' with
      | ready p =>
        have h1 := ((h.ok t).ready p).mp hm
        have h2 := ((h.ok t).wait q hpw).1
        rw [h1.1] at h2
        cases h2
      | _ => cases hr

/-- The task at the head of a wait list is woken. -/
theorem SInv.wakeHead (h : SInv none s) {q : Que} {l : List TaskId} (hq : q.isReady = false)
    (hl : s.que q = t :: l) :
    taskWaitComplete t false (queueRemoveHead q s) = taskWaitComplete t true s ∧
      (s.tcb t).taskState.isWait = true := by
  have hpw : (s.tcb t).pwaitQueue = some q :=
    ((h.ok t).waits q hq).mp (by rw [hl]; exact List.mem_cons_self)
  refine ⟨?_, ((h.ok t).wait q hpw).1⟩
  rw [h.removeHead_eq hq hl]
  rfl

/-- A task that sleeps is in no queue. -/
theorem SInv.wakeSleeper (h : SInv none s) (hw : (s.tcb t).taskState.isWait = true)
    (hs : (s.tcb t).taskWaitReason = some .sleep) :
    taskWaitComplete t false s = taskWaitComplete t true s := by
  have hq : queueRemoveEntry t s = s := by
    unfold queueRemoveEntry
    have : (fun q => (s.que q).erase t) = s.que := by
      funext q
      refine List.erase_of_not_mem fun hm => ?_
      cases hr : q.isReady with
      | false =>
        have := ((h.ok t).waits q hr).mp hm
        rw [(h.ok t).sleep hw hs] at this
        cases this
      | true =>
        cases q with
        | ready p =>
          have := (((h.ok t).ready p).mp hm).1
          rw [this] at hw
          cases hw
        | _ => cases hr
    rw [this]
  have : taskWaitComplete t true s = taskWaitComplete t false (queueRemoveEntry t s) := rfl
  rw [this, hq]

/-! ## Priorities -/

/-- The task is off its ready list, and the bit of its priority is cleared if it was the last. -/
def offReady (t : TaskId) (s : Sched) : Sched :=
  if (queueRemoveEntry t s).que (.ready (s.tcb t).priority) = [] then
    { queueRemoveEntry t s with
      readyToRunBmp := s.readyToRunBmp &&& ~~~BitVec.twoPow 32 (s.tcb t).priority }
  else queueRemoveEntry t s

/-- The task is at the end of the ready list of its new priority. -/
def onReady (t : TaskId) (p : Nat) (s : Sched) : Sched :=
  { queueAddTail (.ready p) t (s.setTcb t fun b => { b with priority := p }) with
    readyToRunBmp := s.readyToRunBmp ||| BitVec.twoPow 32 p }

theorem changeRunningTaskPriority_eq (t : TaskId) (p : Nat) (s : Sched) :
    changeRunningTaskPriority t p s =
      if (onReady t p (offReady t s)).nextTaskToRun = some t then
        if (s.tcb t).priority ≤ p then findNextTaskToRun (onReady t p (offReady t s))
        else onReady t p (offReady t s)
      else if runsBefore (onReady t p (offReady t s)) p then
        { onReady t p (offReady t s) with nextTaskToRun := some t }
      else onReady t p (offReady t s) := rfl

theorem offReady_tcb (t : TaskId) (s : Sched) : (offReady t s).tcb = s.tcb := by
  unfold offReady
  split <;> rfl

theorem offReady_next (t : TaskId) (s : Sched) :
    (offReady t s).nextTaskToRun = s.nextTaskToRun := by
  unfold offReady
  split <;> rfl

theorem QInv.offReady (h : QInv none s) (hr : (s.tcb t).taskState = .runnable)
    (hi : t ≠ idleTask) : QInv (some t) (offReady t s) := by
  have hq := h.removeEntry hr hi
  unfold TnKernel.offReady
  split
  · exact hq.of_eq rfl rfl rfl
  · exact hq

theorem SInv.bmp_offReady (h : SInv none s) (t : TaskId) : BmpOk (TnKernel.offReady t s) := by
  unfold TnKernel.offReady
  split
  · rename_i he
    exact fun p hp => h.bmp_clear he hp
  · rename_i he
    exact fun p hp => h.bmp_erase he hp

theorem QInv.setOut (h : QInv (some t) s) (hp : PrioOk t (f (s.tcb t))) :
    QInv (some t) (s.setTcb t f) := by
  refine (frame_setTcb s t f).qinv h.nodup h.timeoutsNodup (by rw [setTcb_same]; exact hp)
    h (fun _ hu => some_ne.mpr hu) (fun hu => absurd rfl hu) fun u hu => ?_
  exact ⟨(h.out u hu).que, (h.out u hu).timeouts, (h.out u hu).idle⟩

/-- **`change_running_task_priority`.** -/
theorem SInv.changePriority (h : SInv none s) {p : Nat} (hr : (s.tcb t).taskState = .runnable)
    (hi : t ≠ idleTask) (hp : PrioOk t { s.tcb t with priority := p }) :
    SInv none (changeRunningTaskPriority t p s) := by
  have hok := h.ok t
  obtain ⟨s1, hs1⟩ : ∃ s1, s1 = TnKernel.offReady t s := ⟨_, rfl⟩
  have hq1 : QInv (some t) s1 := hs1 ▸ h.toQInv.offReady hr hi
  have hb1 : BmpOk s1 := hs1 ▸ h.bmp_offReady t
  have ht1 : s1.tcb = s.tcb := by rw [hs1, offReady_tcb]
  obtain ⟨s2, hs2⟩ : ∃ s2, s2 = s1.setTcb t fun b => { b with priority := p } := ⟨_, rfl⟩
  have hq2 : QInv (some t) s2 := hs2 ▸ hq1.setOut (by rw [ht1]; exact hp)
  have ht2 : s2.tcb t = { s.tcb t with priority := p } := by rw [hs2, setTcb_same, ht1]
  have hq3 := hq2.addReady (by rw [ht2]; exact hr)
    (by rw [ht2]; exact hok.pwait_none (by rw [hr]; rfl))
    (by rw [ht2]; exact h.idTask (by rw [hr]; simp)) fun htm => by
      rw [ht2]
      exact (hok.timer htm).2.1
  rw [ht2] at hq3
  obtain ⟨s3, hs3⟩ : ∃ s3, s3 = onReady t p s1 := ⟨_, rfl⟩
  have hq4 : QInv none s3 := hq3.of_eq (by rw [hs3, hs2]; rfl) (by rw [hs3, hs2]; rfl)
    (by rw [hs3, hs2]; rfl)
  have hb4 : BmpOk s3 := by
    have : BmpOk s2 := by
      rw [hs2]
      exact hb1
    have hb := this.addReady p t
    rw [hs2] at hb
    rw [hs3]
    exact hb
  have hst : s3.tcb t = { s.tcb t with priority := p } := by
    rw [hs3]
    exact (congrFun (congrArg Sched.tcb hs2) t).symm.trans ht2
  have hsu : ∀ u, u ≠ t → s3.tcb u = s.tcb u := by
    intro u hu
    rw [hs3, ← ht1]
    exact setTcb_ne s1 (fun b => { b with priority := p }) hu
  have hnx : s3.nextTaskToRun = s.nextTaskToRun := by
    rw [hs3, ← offReady_next t s, ← hs1]
    rfl
  obtain ⟨n, hn, -, hnr, hm⟩ := h.next
  rw [changeRunningTaskPriority_eq, ← hs1, ← hs3, hnx, hn]
  by_cases hnt : n = t
  · subst hnt
    rw [if_pos rfl]
    split
    · exact ⟨hq4.of_eq rfl rfl rfl, hb4, NextOk.findNext hq4 hb4⟩
    · refine ⟨hq4, hb4, n, hnx.trans hn, by simp, by rw [hst]; exact hnr, fun u _ hru => ?_⟩
      by_cases hu : u = n
      · exact Nat.le_of_eq (by rw [hu])
      · rw [hsu u hu] at hru ⊢
        rw [hst]
        have := hm u (by simp) hru
        show p ≤ _
        omega
  · rw [if_neg (by simpa using hnt)]
    have hno : NextOk (some t) s3 := by
      refine ⟨n, hnx.trans hn, some_ne.mpr hnt, by rw [hsu n hnt]; exact hnr, fun u hu hru => ?_⟩
      rw [hsu u (some_ne.mp hu)] at hru ⊢
      rw [hsu n hnt]
      exact hm u (by simp) hru
    refine ⟨?_, ?_, hno.addReady (by rw [hst]; exact hr) (by rw [hst])⟩
    · split
      · exact hq4.of_eq rfl rfl rfl
      · exact hq4
    · split <;> exact hb4

/-- A task that does not run gets another priority. -/
theorem SInv.setPriority (h : SInv none s) {p : Nat} (hr : (s.tcb t).taskState ≠ .runnable)
    (hp : PrioOk t { s.tcb t with priority := p }) :
    SInv none (s.setTcb t fun b => { b with priority := p }) := by
  apply h.alike
  constructor
  case run => exact .rfl
  case priority => exact fun hc => absurd hc hr
  case prioOk => exact hp
  case isWait => rfl
  case pwaitQueue => rfl
  case tickCount => exact .rfl
  case reason => exact id
  case dormant => exact (h.ok t).dormant
  case timer => exact fun _ => rfl

/-- **`set_current_priority`.** -/
theorem SInv.setCurrentPriority (h : SInv none s) {p : Nat} {s' : Sched} (hi : t ≠ idleTask)
    (hp : PrioOk t { s.tcb t with priority := p })
    (hs : TnKernel.setCurrentPriority t p s = some s') : SInv none s' := by
  unfold TnKernel.setCurrentPriority at hs
  dsimp only at hs
  split at hs
  · cases hs
    exact h
  · split at hs
    · rename_i hr
      cases hs
      exact h.changePriority hr hi hp
    · rename_i hr
      split at hs
      · cases hs
      · cases hs
        exact h.setPriority hr hp

end TnKernel
