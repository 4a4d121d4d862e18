import Mathlib.Data.List.Nodup
import TnNet.Mutex.Steps

/-!
# The bookkeeping of the mutexes

`mutex_books` — in every run whose events meet `Orderly`, the lists of the mutexes, their holders and
`tn_blocked_tasks_list` agree (`Books`), and no head of a list is taken for a task.

Three calls break it.  `do_unlock_mutex` leaves a ceiling mutex with its old holder, in no list, when
`enable_lock_mutex` refuses the waiter with the highest priority.  It takes the head of an empty
`tn_blocked_tasks_list` for a task when nobody waits for the ceiling mutex.  And a task that goes on in
`tn_mutex_delete` behind a context switch takes a mutex out of its lists that another task has deleted.
-/

set_option autoImplicit false

namespace TnMutex

open TnKernel

variable {k k' : Kernel} {s s' : Sched} {t : TaskId} {m len : Nat} {x y : State} {ev : Event}

/-- The task waits for the mutex. -/
def WaitsFor (k : Kernel) (t : TaskId) (m : Nat) : Prop := t ∈ k.sch.que (.mutex m)

/-- The task holds the mutex. -/
def Holds (k : Kernel) (t : TaskId) (m : Nat) : Prop :=
  (k.mutex m).idMutex = true ∧ (k.mutex m).holder = some t

/-- The bookkeeping of the mutexes that exist. -/
structure Books (k : Kernel) : Prop where
  /-- A mutex has a holder when it is in `tn_locked_mutexes_list`. -/
  holder : ∀ m, (k.mutex m).idMutex = true → ((k.mutex m).holder ≠ none ↔ m ∈ k.lockedMutexesList)
  /-- Then it is linked once in it, once in the list of its holder, and in the list of no other task. -/
  linked : ∀ m h, (k.mutex m).idMutex = true → (k.mutex m).holder = some h →
    k.lockedMutexesList.count m = 1 ∧ (k.sch.tcb h).mutexQueue.count m = 1 ∧
      ∀ t, t ≠ h → m ∉ (k.sch.tcb t).mutexQueue
  free : ∀ m, (k.mutex m).idMutex = true → (k.mutex m).attr = .inherit → (k.mutex m).holder = none →
    k.sch.que (.mutex m) = []
  blocked : ∀ t, t ∈ k.sch.blockedTasksList ↔
    (k.sch.tcb t).taskState.isWait = true ∧ (k.sch.tcb t).taskWaitReason = some .mutexCBlk

/-- The condition on an event: the waiter `do_unlock_mutex` chooses may lock the mutex, a ceiling mutex
    that nobody waits for is not given back while no task is blocked, and the mutex a task goes on
    deleting is still there. -/
def Orderly (x : State) : Event → Prop
  | .unlock m _ => (x.k.mutex m).idMutex = true → (x.k.mutex m).holder = some x.k.sch.currRunTask →
    HandOver m (unlinked x.k.sch.currRunTask m x.k) ∧ ¬TakesHead m x.k
  | .deleteOn => ∀ m, x.deleting x.k.sch.currRunTask = some m →
    (x.k.mutex m).idMutex = true ∨ (x.k.mutex m).holder = none
  | _ => True

/-! ## The invariant says that the lists agree -/

theorem mutexWait_blocked {b : Tcb} : mutexWait b = some .mutexCBlk ↔
    b.taskState.isWait = true ∧ b.taskWaitReason = some .mutexCBlk := by
  unfold mutexWait
  rw [Option.ite_none_right_eq_some, Option.filter_eq_some_iff]
  exact ⟨fun h => ⟨h.1, h.2.1⟩, fun h => ⟨h.1, h.2, rfl⟩⟩

theorem MInv.books (hi : MInv none k) : Books k := by
  have hlocked : ∀ m, (k.mutex m).idMutex = true →
      ((k.mutex m).holder ≠ none ↔ m ∈ k.lockedMutexesList) := by
    intro m hid
    rw [hi.locked m (by simp), Option.isSome_iff_ne_none]
    exact ⟨fun h => ⟨hid, h⟩, fun h => h.2⟩
  refine ⟨hlocked, ?_, hi.free, fun t => (hi.blocked t).trans mutexWait_blocked⟩
  intro m h hid hh
  have hl : m ∈ k.lockedMutexesList := (hlocked m hid).mp (by rw [hh]; simp)
  refine ⟨List.count_eq_one_of_mem hi.lockedNodup hl, ?_, fun t ht hc => ?_⟩
  · exact List.count_eq_one_of_mem (hi.queueNodup h) ((hi.queue h m).mpr ⟨hl, hh⟩)
  · have ht' := ((hi.queue t m).mp hc).2
    rw [hh] at ht'
    cases ht'
    exact ht rfl

/-! ## The condition on `tn_mutex_unlock` in front of the call -/

theorem enableLockMutex_congr (hm : k'.mutex = k.mutex) (hl : k'.lockedMutexesList = k.lockedMutexesList)
    (hp : (k'.sch.tcb t).priority = (k.sch.tcb t).priority) :
    enableLockMutex k' t = enableLockMutex k t := by
  have hloop : enableLockLoop k' t = enableLockLoop k t := by
    funext x m
    unfold enableLockLoop
    rw [hm, hp]
  unfold enableLockMutex
  rw [hloop, hl]

theorem hiPriTask_congr (hq : s'.que (.mutex m) = s.que (.mutex m))
    (hp : ∀ t ∈ s.que (.mutex m), (s'.tcb t).priority = (s.tcb t).priority) :
    hiPriTask m s' = hiPriTask m s := by
  unfold hiPriTask
  rw [hq]
  congr 1
  refine List.foldl_ext _ _ _ fun x t ht => ?_
  rw [hp t ht]

/-- The running task gets another priority, which no waiter sees. -/
theorem HandOver.release (hi : MInv none k) (hid : (k.mutex m).idMutex = true)
    (hh : (k.mutex m).holder = some k.sch.currRunTask)
    (hrun : (k.sch.tcb k.sch.currRunTask).taskState = .runnable)
    (hok : HandOver m (unlinked k.sch.currRunTask m k)) (hr : releaseMutex len m k = .ok k') :
    HandOver m k' := by
  obtain ⟨s', rfl, hre, -, htcb⟩ := releaseMutex_direct hi hid hh hrun hr
  have hp : ∀ t ∈ (unlinked k.sch.currRunTask m k).sch.que (.mutex m),
      (s'.tcb t).priority = ((unlinked k.sch.currRunTask m k).sch.tcb t).priority := by
    intro t ht
    have hne : t ≠ k.sch.currRunTask := by
      rintro rfl
      exact not_mem_of_not_wait hi.sched (by rw [hrun]; rfl) m ht
    rw [htcb t hne]
    exact congrArg Tcb.priority (setQueue_ne k.sch (·.erase m) hne).symm
  intro ha w hw
  rw [hiPriTask_congr (hre.que m) hp] at hw
  rw [← hok ha w hw]
  exact congrArg Prod.fst (enableLockMutex_congr rfl rfl (hp w (hiPriTask_mem hw)))

theorem Orderly.keeps (hi : MInv none x.k) (he : Enabled x ev) (hok : Orderly x ev) :
    Keeps False len x ev := by
  cases ev with
  | unlock m stray =>
    intro hid hh k' hr
    exact ⟨HandOver.release hi hid hh he.1 (hok hid hh).1 hr, fun hc => hc.elim⟩
  | deleteOn => exact hok
  | mutexCreate m attr ceil => exact fun hc => hc.elim
  | lock m timeout => exact fun hc => hc.elim
  | lockPolling m => exact fun hc => hc.elim
  | _ => trivial

/-! ## Runs -/

theorem mutexMachine_head (hi : MInv none x.k) (he : Enabled x ev) (hok : Orderly x ev) :
    .listHead ∉ (mutexMachine len x ev).2 := by
  intro hc
  obtain ⟨r, hr, hob⟩ := mutexMachine_seen hc
  obtain ⟨m, stray, rfl, hhead⟩ := (mutexStep_acts hi he (fun hc => hc.elim) (hok.keeps hi he) hr).2 hob
  exact (hok hhead.exist hhead.held).2 hhead

/-- **The bookkeeping of the mutexes.** -/
theorem mutex_books (len : Nat) (es : List Event) (hg : Machine.Guarded (mutexMachine len)
    (fun x ev => Enabled x ev ∧ Orderly x ev) (some State.start) es) :
    (∀ y, (Machine.run (mutexMachine len) (some State.start) es).1 = some y → Books y.k) ∧
      .listHead ∉ (Machine.run (mutexMachine len) (some State.start) es).2 := by
  have hstep : ∀ x ev, MInv none x.k → Enabled x ev ∧ Orderly x ev →
      (∀ y, (mutexMachine len x ev).1 = some y → MInv none y.k) ∧
        ∀ ob ∈ (mutexMachine len x ev).2, ob ≠ .listHead := by
    rintro x ev hi ⟨he, hok⟩
    refine ⟨fun y hy => step_minv hi he (hok.keeps hi he) hy, ?_⟩
    rintro ob hob rfl
    exact mutexMachine_head hi he hok hob
  have hstart : ∀ x, some State.start = some x → MInv none x.k := by
    rintro x hx
    cases hx
    exact MInv.start
  obtain ⟨h1, h2⟩ := Machine.run_invariant (fun x => MInv none x.k) (· ≠ .listHead) hstep hstart hg
  exact ⟨fun y hy => (h1 y hy).books, fun hc => h2 _ hc rfl⟩

instance (m : Nat) (k : Kernel) : Decidable (HandOver m k) :=
  inferInstanceAs (Decidable (_ → ∀ w ∈ hiPriTask m k.sch, _))

instance (m : Nat) (k : Kernel) : Decidable (TakesHead m k) :=
  decidable_of_iff ((k.mutex m).idMutex = true ∧ (k.mutex m).holder = some k.sch.currRunTask ∧
      (k.mutex m).attr = .ceiling ∧ k.sch.que (.mutex m) = [] ∧ k.sch.blockedTasksList = [])
    ⟨fun h => ⟨h.1, h.2.1, h.2.2.1, h.2.2.2.1, h.2.2.2.2⟩,
      fun h => ⟨h.exist, h.held, h.attr, h.que, h.blocked⟩⟩

instance (x : State) : ∀ ev, Decidable (Orderly x ev)
  | .unlock _ _ => inferInstanceAs (Decidable (_ → _ → _ ∧ _))
  | .deleteOn => inferInstanceAs (Decidable (∀ m ∈ x.deleting x.k.sch.currRunTask, _))
  | .create .. | .tsliceTicks .. | .mutexCreate .. | .lock .. | .lockPolling _ | .delete _ | .releaseWait _
  | .tick | .timerLoop | .switchContext => isTrue trivial

/-- Task 3 waits for the ceiling mutex 0 that task 2 holds, and gets it; then it deletes it. -/
def handOverRun : List Event :=
  [.create 2 12 true true, .mutexCreate 0 .ceiling 5, .timerLoop, .switchContext, .lock 0 100,
    .create 3 8 true true, .switchContext, .lock 0 100, .switchContext, .unlock 0 false,
    .switchContext, .delete 0]

theorem handOverRun_isSome :
    (Machine.run (mutexMachine 4) (some State.start) handOverRun).1.isSome = true := by
  decide +kernel

theorem mutex_books_handOver :
    Books ((Machine.run (mutexMachine 4) (some State.start) handOverRun).1.get
      handOverRun_isSome).k ∧
      .listHead ∉ (Machine.run (mutexMachine 4) (some State.start) handOverRun).2 := by
  obtain ⟨h1, h2⟩ := mutex_books 4 handOverRun (by decide +kernel)
  exact ⟨h1 _ (Option.some_get handOverRun_isSome).symm, h2⟩

/-- A task locks a ceiling mutex nobody waits for, and gives it back. -/
def soleRun : List Event :=
  [.create 2 5 true true, .mutexCreate 0 .ceiling 5, .timerLoop, .switchContext, .lock 0 100,
    .unlock 0 false]

/-- Task 2 holds the mutexes 0 and 1 and gives back mutex 0, which task 3 waits for.  Task 3 may not
    lock it because of the ceiling of mutex 1. -/
def refusedRun : List Event :=
  [.create 2 12 true true, .mutexCreate 0 .ceiling 10, .mutexCreate 1 .ceiling 3, .timerLoop,
    .switchContext, .lock 1 100, .lock 0 100, .create 3 10 true true, .switchContext, .lock 0 100,
    .switchContext, .unlock 0 false]

theorem refusedRun_isSome :
    (Machine.run (mutexMachine 4) (some State.start) refusedRun).1.isSome = true := by
  decide +kernel

/-- Mutex 0 is left with a holder in no list, and the head of a list is taken for a task. -/
theorem mutex_books_fail :
    (¬ ∀ (len : Nat) (es : List Event), Machine.Guarded (mutexMachine len) Enabled (some State.start) es →
      ∀ y, (Machine.run (mutexMachine len) (some State.start) es).1 = some y → Books y.k) ∧
    ¬ ∀ (len : Nat) (es : List Event), Machine.Guarded (mutexMachine len) Enabled (some State.start) es →
      .listHead ∉ (Machine.run (mutexMachine len) (some State.start) es).2 := by
  constructor
  · intro h
    have hb := h 4 refusedRun (by decide +kernel) _ (Option.some_get refusedRun_isSome).symm
    have hid : ((((Machine.run (mutexMachine 4) (some State.start) refusedRun).1.get
        refusedRun_isSome).k.mutex 0).idMutex = true) := by decide +kernel
    exact absurd ((hb.holder 0 hid).mp (by decide +kernel)) (by decide +kernel)
  · intro h
    exact h 4 soleRun (by decide +kernel) (by decide +kernel)

end TnMutex
