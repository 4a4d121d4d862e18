import Mathlib.Order.Nat
import TnNet.Mutex.Bookkeeping

/-!
# The priority ceiling and deadlocks

`ceiling_no_deadlock` — with ceiling mutexes only, no run whose events meet `Keeps True` comes to a cycle
of tasks that wait for mutexes of each other.  The locked mutexes are ordered by the time at which they
have been locked: the base priority of the holder of the later one is above the ceiling of the earlier
one, unless one task holds both (`CeilInv.order`).  So a task waits for a mutex that has been locked
later than all the mutexes it holds.

`enable_lock_mutex` compares with `<` where the protocol wants the task strictly above the ceiling:
`equal_priorities` is a deadlock of two tasks of one priority.
-/

set_option autoImplicit false

namespace TnMutex

open TnKernel

variable {k k' : Kernel} {t : TaskId} {m n len : Nat} {o : Option Nat} {x y : State}

/-- The holder of the second mutex is above the ceiling of the first one, or holds that too. -/
def LockedAbove (k : Kernel) (m n : Nat) : Prop :=
  ∀ h, (k.mutex n).holder = some h → (k.mutex m).holder ≠ some h →
    (k.sch.tcb h).basePriority < (k.mutex m).ceilPriority

/-- All mutexes are ceiling mutexes, and each has been locked rightly. -/
structure CeilInv (o : Option Nat) (k : Kernel) : Prop extends MInv o k where
  all : ∀ m, (k.mutex m).idMutex = true → (k.mutex m).attr = .ceiling
  order : k.lockedMutexesList.Pairwise (LockedAbove k)

/-! ## The acts keep the order -/

theorem CeilInv.order_sub (hi : CeilInv o k) (hl : k'.lockedMutexesList.Sublist k.lockedMutexesList)
    (hm : ∀ m ∈ k'.lockedMutexesList, k'.mutex m = k.mutex m)
    (hb : ∀ m ∈ k'.lockedMutexesList, ∀ h, (k.mutex m).holder = some h →
      (k'.sch.tcb h).basePriority = (k.sch.tcb h).basePriority) :
    k'.lockedMutexesList.Pairwise (LockedAbove k') := by
  refine (hi.order.sublist hl).imp_of_mem fun {m n} hmem hmem' hab h hh hne => ?_
  rw [hm n hmem'] at hh
  rw [hm m hmem] at hne ⊢
  rw [hb n hmem' h hh]
  exact hab h hh hne

theorem SameHolders.ceilInv (h : SameHolders k k') (hm : MInv o k') (hi : CeilInv o k) :
    CeilInv o k' := by
  refine ⟨hm, by simpa only [h.mutex] using hi.all, ?_⟩
  apply hi.order_sub
  · rw [h.locked]
  · exact fun m _ => congrFun h.mutex m
  · exact fun _ _ u _ => (h.owns u).base

/-- The mutex that is locked comes behind the others. -/
theorem CeilInv.order_lock (hi : CeilInv (some m) k) (hab : Above k t) :
    (lockMutex k m t).lockedMutexesList.Pairwise (LockedAbove (lockMutex k m t)) := by
  obtain ⟨hout, -⟩ := hi.out m rfl
  have hne : ∀ n ∈ k.lockedMutexesList, (lockMutex k m t).mutex n = k.mutex n := fun n hn =>
    setMutex_mutex_ne k _ (fun hc => hout (hc ▸ hn))
  have hself : ((lockMutex k m t).mutex m).holder = some t :=
    congrArg Mutex.holder (setMutex_mutex_self k m _)
  have hbase : ∀ u, ((lockMutex k m t).sch.tcb u).basePriority = (k.sch.tcb u).basePriority :=
    fun u => base_queue k.sch t u fun l => l ++ [m]
  refine List.pairwise_append.mpr ⟨?_, List.pairwise_singleton _ _, fun n hn m' hm' => ?_⟩
  · refine hi.order.imp_of_mem fun {n n'} hmem hmem' h u hu hu' => ?_
    rw [hne n' hmem'] at hu
    rw [hne n hmem] at hu' ⊢
    rw [hbase]
    exact h u hu hu'
  · rw [List.mem_singleton] at hm'
    subst hm'
    intro u hu hu'
    rw [hself] at hu
    cases hu
    rw [hne n hn] at hu' ⊢
    rw [hbase]
    exact hab n hn hu'

/-- A mutex in no list is written. -/
theorem CeilInv.setMutex (hi : CeilInv o k) (hout : m ∉ k.lockedMutexesList) {x : Mutex}
    (ha : x.idMutex = true → x.attr = .ceiling) {o' : Option Nat} (hm : MInv o' (k.setMutex m x)) :
    CeilInv o' (k.setMutex m x) := by
  refine ⟨hm, fun n hid => ?_, hi.order_sub (.refl _) (fun n hn => ?_) fun _ _ _ _ => rfl⟩
  · by_cases hn : n = m
    · subst hn
      rw [setMutex_mutex_self] at hid ⊢
      exact ha hid
    · rw [setMutex_mutex_ne k x hn] at hid ⊢
      exact hi.all n hid
  · exact setMutex_mutex_ne k x fun hc => hout (hc ▸ hn)

theorem NewTask.ceilInv (h : NewTask t k k') (hi : CeilInv none k) : CeilInv none k' := by
  refine ⟨h.minv hi.toMInv, by simpa only [h.mutex] using hi.all, ?_⟩
  apply hi.order_sub
  · rw [h.locked]
  · exact fun m _ => congrFun h.mutex m
  · intro m hm u hu
    rw [h.locked] at hm
    -- a task that does not exist holds no mutex
    rw [h.tcb u]
    rintro rfl
    have hid := hi.idTask u m ((hi.queue u m).mpr ⟨hm, hu⟩)
    rw [h.before] at hid
    cases hid

/-- **Every act keeps the order of the locked mutexes.** -/
theorem Act.ceilInv {x y : Option Nat × Kernel} (h : Act True x y) (hi : CeilInv x.1 x.2) :
    CeilInv y.1 y.2 := by
  have hm := h.minv hi.toMInv
  cases h with
  | still h => exact h.ceilInv hm hi
  | woke t h => exact h.ceilInv hm hi
  | waits t m r _ h => exact h.ceilInv hm hi
  | unlink t m h =>
    refine ⟨hm, hi.all, hi.order_sub List.erase_sublist (fun _ _ => rfl) fun _ _ u _ => ?_⟩
    exact base_queue _ t u fun l => l.erase m
  | takeOut m hid h => exact ⟨hm, hi.all, hi.order⟩
  | @acquire k t m _ _ _ hab =>
    refine ⟨hm, fun n hid => ?_, hi.order_lock (hab trivial)⟩
    have hn := holder_mutex k m n (some t)
    exact hn.2.1.trans (hi.all n (hn.1.symm.trans hid))
  | @drop k m h =>
    exact hi.setMutex (x := { k.mutex m with holder := none }) (hi.out m rfl).1 (hi.all m) hm
  | kill m h => exact hi.setMutex (hi.out m rfl).1 (fun hc => by cases hc) hm
  | newMutex m attr ceil h ha =>
    refine hi.setMutex (fun hc => ?_) (fun _ => ha trivial) hm
    have hid := ((hi.locked m (by simp)).mp hc).1
    rw [h] at hid
    cases hid
  | newTask t h => exact h.ceilInv hi

theorem Acts.ceilInv {x y : Option Nat × Kernel} (h : Acts True x y) (hi : CeilInv x.1 x.2) :
    CeilInv y.1 y.2 := by
  induction h with
  | refl => exact hi
  | tail _ ha ih => exact ha.ceilInv ih

/-! ## No cycle -/

/-- A task waits for a mutex that has been locked behind all those it holds. -/
theorem CeilInv.later (hi : CeilInv none k) (hw : WaitsFor k t m) (hh : Holds k t n) :
    k.lockedMutexesList.idxOf n < k.lockedMutexesList.idxOf m := by
  have hn : n ∈ k.lockedMutexesList := (hi.locked n (by simp)).mpr ⟨hh.1, by rw [hh.2]; rfl⟩
  have hln := List.idxOf_lt_length_of_mem hn
  by_cases hm : m ∈ k.lockedMutexesList
  · have hne : (k.mutex m).holder ≠ some t := hi.other m t hw
    have hceil := hi.ceil m t hw (hi.all m (hi.exist m t hw))
    by_contra hc
    have hlm := List.idxOf_lt_length_of_mem hm
    have hlt : k.lockedMutexesList.idxOf m < k.lockedMutexesList.idxOf n := by
      refine Nat.lt_of_le_of_ne (Nat.not_lt.mp hc) fun heq => ?_
      rw [(List.idxOf_inj hm).mp heq, hh.2] at hne
      exact hne rfl
    have hab := List.pairwise_iff_getElem.mp hi.order _ _ hlm hln hlt
    rw [List.getElem_idxOf, List.getElem_idxOf] at hab
    exact absurd (hab t hh.2 hne) (Nat.not_lt.mpr hceil)
  · rw [List.idxOf_eq_length hm]
    exact hln

theorem CeilInv.no_deadlock (hi : CeilInv none k) (t : TaskId) :
    ¬WaitGraph.Deadlock (WaitsFor k) (Holds k) t := by
  have hrank : ∀ t m n, WaitsFor k t m → Holds k t n →
      k.lockedMutexesList.idxOf n < k.lockedMutexesList.idxOf m := fun _ _ _ hw hh => hi.later hw hh
  exact WaitGraph.acyclic hrank t

/-! ## Runs -/

theorem CeilInv.start : CeilInv none Kernel.start :=
  ⟨MInv.start, (fun _ hc => by cases hc), List.Pairwise.nil⟩

/-- **No deadlock with ceiling mutexes.** -/
theorem ceiling_no_deadlock (len : Nat) (es : List Event) (y : State)
    (hg : Machine.Guarded (mutexMachine len) (fun x ev => Enabled x ev ∧ Keeps True len x ev)
      (some State.start) es)
    (hy : (Machine.run (mutexMachine len) (some State.start) es).1 = some y) (t : TaskId) :
    ¬WaitGraph.Deadlock (WaitsFor y.k) (Holds y.k) t := by
  have hstep : ∀ x ev, CeilInv none x.k → Enabled x ev ∧ Keeps True len x ev →
      (∀ y, (mutexMachine len x ev).1 = some y → CeilInv none y.k) ∧
        ∀ ob ∈ (mutexMachine len x ev).2, True := by
    rintro x ev hi ⟨he, hok⟩
    refine ⟨fun y hy => ?_, fun _ _ => trivial⟩
    obtain ⟨obs, hr⟩ := mutexMachine_some hy
    exact (mutexStep_acts hi.toMInv he (fun _ => hi.all) hok hr).1.ceilInv hi
  have hstart : ∀ x, some State.start = some x → CeilInv none x.k := by
    rintro x hx
    cases hx
    exact CeilInv.start
  exact ((Machine.run_invariant (fun x => CeilInv none x.k) (fun _ => True) hstep hstart hg).1
    y hy).no_deadlock t

instance (k : Kernel) (t : TaskId) : Decidable (Above k t) :=
  inferInstanceAs (Decidable (∀ m ∈ k.lockedMutexesList, _))

instance (k : Kernel) (t : TaskId) : Decidable (TryRight k t) :=
  inferInstanceAs (Decidable (∀ m ∈ mutexOf (k.sch.tcb t), _))

instance (m : Nat) (k : Kernel) : Decidable (LockRight m k) := inferInstanceAs (Decidable (_ → _ → _))

instance (len m : Nat) (k : Kernel) : Decidable (PassRight len m k) :=
  have : Decidable (∀ w, hiPriTask m k.sch = some w → Above k w) :=
    inferInstanceAs (Decidable (∀ w ∈ hiPriTask m k.sch, _))
  decidable_of_iff (_ ∧ _) ⟨fun h => ⟨h.1, h.2⟩, fun h => ⟨h.waiter, h.blocked⟩⟩

instance (strict : Prop) [Decidable strict] (len m : Nat) (k : Kernel) :
    Decidable (UnlockRight strict len m k) := Fold.okDecidable _

instance (strict : Prop) [Decidable strict] (len : Nat) (x : State) :
    ∀ ev, Decidable (Keeps strict len x ev)
  | .mutexCreate .. => inferInstanceAs (Decidable (_ → _))
  | .lock m _ => inferInstanceAs (Decidable (_ → LockRight m x.k))
  | .lockPolling m => inferInstanceAs (Decidable (_ → LockRight m x.k))
  | .unlock m _ => inferInstanceAs (Decidable (_ → _ → UnlockRight strict len m x.k))
  | .deleteOn => inferInstanceAs (Decidable (∀ m ∈ x.deleting x.k.sch.currRunTask, _))
  | .create .. | .tsliceTicks .. | .delete _ | .releaseWait _ | .tick | .timerLoop | .switchContext =>
    isTrue trivial

/-- Task 4 waits for mutex 0 of task 2, and task 3 locks mutex 1. -/
def ceilingRun : List Event :=
  [.create 2 12 true true, .mutexCreate 0 .ceiling 10, .mutexCreate 1 .ceiling 8, .timerLoop,
    .switchContext, .lock 0 100, .create 4 10 true true, .switchContext, .lock 0 100, .switchContext,
    .create 3 8 true true, .switchContext, .lock 1 100]

theorem ceilingRun_isSome :
    (Machine.run (mutexMachine 4) (some State.start) ceilingRun).1.isSome = true := by
  decide +kernel

theorem ceiling_no_deadlock_two :
    WaitsFor ((Machine.run (mutexMachine 4) (some State.start) ceilingRun).1.get
        ceilingRun_isSome).k 4 0 ∧
      ¬WaitGraph.Deadlock
        (WaitsFor ((Machine.run (mutexMachine 4) (some State.start) ceilingRun).1.get
          ceilingRun_isSome).k)
        (Holds ((Machine.run (mutexMachine 4) (some State.start) ceilingRun).1.get
          ceilingRun_isSome).k) 4 := by
  refine ⟨?_, ceiling_no_deadlock 4 ceilingRun _ (by decide +kernel)
    (Option.some_get ceilingRun_isSome).symm 4⟩
  unfold WaitsFor
  decide +kernel

/-- The event creates no mutex with another attribute. -/
def CeilingOnly (ev : Event) : Prop :=
  ∀ m attr ceilPriority, ev = .mutexCreate m attr ceilPriority → attr = .ceiling

theorem ceilingOnly_mutexCreate (m : Nat) (attr : MutexAttr) (ceilPriority : Int) :
    attr = .ceiling ↔ CeilingOnly (.mutexCreate m attr ceilPriority) := by
  refine ⟨fun h _ _ _ he => ?_, fun h => h m attr ceilPriority rfl⟩
  cases he
  exact h

instance : ∀ ev, Decidable (CeilingOnly ev)
  | .mutexCreate m attr ceilPriority => decidable_of_iff _ (ceilingOnly_mutexCreate m attr ceilPriority)
  | .create .. | .tsliceTicks .. | .lock .. | .lockPolling _ | .unlock .. | .delete _ | .deleteOn
  | .releaseWait _ | .tick | .timerLoop | .switchContext => isTrue fun _ _ _ he => nomatch he

/-- Two tasks of the priority that is the ceiling of both mutexes lock one each, by round robin, and
    then want the other one. -/
def equalRun : List Event :=
  [.create 2 5 true true, .create 3 5 true true, .mutexCreate 0 .ceiling 5, .mutexCreate 1 .ceiling 5,
    .tsliceTicks 5 1, .timerLoop, .switchContext, .lock 0 TN_WAIT_INFINITE, .tick, .tick, .switchContext,
    .timerLoop, .switchContext, .lock 1 TN_WAIT_INFINITE, .lock 0 TN_WAIT_INFINITE, .switchContext,
    .lock 1 TN_WAIT_INFINITE]

theorem equalRun_isSome :
    (Machine.run (mutexMachine 4) (some State.start) equalRun).1.isSome = true := by
  decide +kernel

/-- The two tasks wait for each other. -/
theorem equal_priorities :
    ¬ ∀ (len : Nat) (es : List Event) (y : State),
      Machine.Guarded (mutexMachine len) (fun x ev => Enabled x ev ∧ CeilingOnly ev)
        (some State.start) es →
      (Machine.run (mutexMachine len) (some State.start) es).1 = some y →
      ∀ t, ¬WaitGraph.Deadlock (WaitsFor y.k) (Holds y.k) t := by
  intro h
  refine h 4 equalRun _ (by decide +kernel) (Option.some_get equalRun_isSome).symm 2 ?_
  have h1 : WaitGraph.Edge (WaitsFor ((Machine.run (mutexMachine 4) (some State.start) equalRun).1.get
      equalRun_isSome).k) (Holds ((Machine.run (mutexMachine 4) (some State.start) equalRun).1.get
      equalRun_isSome).k) 2 3 := by
    refine ⟨1, ?_, ?_⟩
    · unfold WaitsFor
      decide +kernel
    · unfold Holds
      decide +kernel
  have h2 : WaitGraph.Edge (WaitsFor ((Machine.run (mutexMachine 4) (some State.start) equalRun).1.get
      equalRun_isSome).k) (Holds ((Machine.run (mutexMachine 4) (some State.start) equalRun).1.get
      equalRun_isSome).k) 3 2 := by
    refine ⟨0, ?_, ?_⟩
    · unfold WaitsFor
      decide +kernel
    · unfold Holds
      decide +kernel
  exact .tail (.single h1) h2

end TnMutex
