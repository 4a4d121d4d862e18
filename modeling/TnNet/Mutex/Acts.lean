import TnNet.Kernel.TaskInv
import TnNet.Lib.WaitGraph
import TnNet.Mutex.Defs

/-!
# What a step does to the mutexes

A step of the machine is a sequence of acts: a task is taken out of its wait for a mutex (`Woke`) or
begins one (`Waits`), a mutex is taken out of the lists (`unlinked`), is locked or is left without a
holder, a mutex or a task is created, a mutex is deleted; and what happens to ready lists, priorities
and counters is no concern of the mutexes (`Still`).

`MInv o` is the bookkeeping of the mutexes, with at most one mutex `o` that is in no list although it
has a holder.  `Act.minv` — every act keeps it.  An act is `strict` when each mutex is locked by a
task whose base priority is above the ceilings of all mutexes the other tasks hold (`Above`).
-/

set_option autoImplicit false

namespace TnMutex

open TnKernel

variable {k k' : Kernel} {s s' : Sched} {t u w h : TaskId} {m n : Nat} {o : Option Nat}

/-- The reason why the task waits, when it is a mutex. -/
def mutexWait (b : Tcb) : Option WaitReason :=
  if b.taskState.isWait then b.taskWaitReason.filter WaitReason.isMutex else none

/-- The reasons for which a task waits for a mutex with the attribute. -/
def Suits : MutexAttr → WaitReason → Prop
  | .inherit, r => r = .mutexI
  | .ceiling, r => r = .mutexC ∨ r = .mutexCBlk

/-- Fields of a control block that only the mutexes and `tn_task_create` write. -/
structure Owns (b b' : Tcb) : Prop where
  base : b'.basePriority = b.basePriority
  idTask : b'.idTask = b.idTask
  mutexQueue : b'.mutexQueue = b.mutexQueue
  blk : ∀ h, b'.blkTask = some h → b.blkTask = some h ∨ isSystem h = false

theorem Owns.refl (b : Tcb) : Owns b b := ⟨rfl, rfl, rfl, fun _ => .inl⟩

theorem Owns.trans {b b' b'' : Tcb} (h : Owns b b') (h' : Owns b' b'') : Owns b b'' := by
  refine ⟨h'.base.trans h.base, h'.idTask.trans h.idTask, h'.mutexQueue.trans h.mutexQueue, ?_⟩
  intro t ht
  rcases h'.blk t ht with hb | hs
  · exact h.blk t hb
  · exact .inr hs

/-- The tasks that wait for mutexes. -/
structure WaitInv (k : Kernel) : Prop where
  sched : SInv none k.sch
  exist : ∀ m t, t ∈ k.sch.que (.mutex m) → (k.mutex m).idMutex = true
  reason : ∀ m t, t ∈ k.sch.que (.mutex m) →
    ∃ r, mutexWait (k.sch.tcb t) = some r ∧ Suits (k.mutex m).attr r
  ceil : ∀ m t, t ∈ k.sch.que (.mutex m) → (k.mutex m).attr = .ceiling →
    (k.mutex m).ceilPriority ≤ (k.sch.tcb t).basePriority
  other : ∀ m t, t ∈ k.sch.que (.mutex m) → (k.mutex m).holder ≠ some t
  place : ∀ t r, mutexWait (k.sch.tcb t) = some r → ∃ m, t ∈ k.sch.que (.mutex m)
  blocked : ∀ t, t ∈ k.sch.blockedTasksList ↔ mutexWait (k.sch.tcb t) = some .mutexCBlk
  blockedNodup : k.sch.blockedTasksList.Nodup

/-- The mutexes that are locked; `o` is in no list although it has a holder. -/
structure HoldInv (o : Option Nat) (k : Kernel) : Prop where
  sysHolder : ∀ m h, (k.mutex m).holder = some h → isSystem h = false
  sysBlk : ∀ t h, (k.sch.tcb t).blkTask = some h → isSystem h = false
  lockedNodup : k.lockedMutexesList.Nodup
  locked : ∀ m, some m ≠ o → (m ∈ k.lockedMutexesList ↔
    (k.mutex m).idMutex = true ∧ ((k.mutex m).holder).isSome = true)
  out : ∀ m, some m = o → m ∉ k.lockedMutexesList ∧ (k.mutex m).idMutex = true
  queue : ∀ t m, m ∈ (k.sch.tcb t).mutexQueue ↔
    m ∈ k.lockedMutexesList ∧ (k.mutex m).holder = some t
  queueNodup : ∀ t, (k.sch.tcb t).mutexQueue.Nodup
  idTask : ∀ t m, m ∈ (k.sch.tcb t).mutexQueue → (k.sch.tcb t).idTask = true

/-- The bookkeeping of the mutexes. -/
structure MInv (o : Option Nat) (k : Kernel) : Prop extends WaitInv k, HoldInv o k where
  free : ∀ m, (k.mutex m).idMutex = true → (k.mutex m).attr = .inherit →
    (k.mutex m).holder = none → k.sch.que (.mutex m) = []

/-- The base priority of the task is above the ceilings of the mutexes of the other tasks. -/
def Above (k : Kernel) (t : TaskId) : Prop :=
  ∀ m ∈ k.lockedMutexesList, (k.mutex m).holder ≠ some t →
    (k.sch.tcb t).basePriority < (k.mutex m).ceilPriority

/-! ## The acts -/

/-- The mutexes keep their holders. -/
structure SameHolders (k k' : Kernel) : Prop where
  sched : SInv none k'.sch
  mutex : k'.mutex = k.mutex
  locked : k'.lockedMutexesList = k.lockedMutexesList
  owns : ∀ u, Owns (k.sch.tcb u) (k'.sch.tcb u)

/-- Nothing happens to the mutexes. -/
structure Still (k k' : Kernel) : Prop extends SameHolders k k' where
  que : ∀ m, k'.sch.que (.mutex m) = k.sch.que (.mutex m)
  blocked : k'.sch.blockedTasksList = k.sch.blockedTasksList
  wait : ∀ u, mutexWait (k'.sch.tcb u) = mutexWait (k.sch.tcb u)

/-- The task waits for a mutex no longer. -/
structure Woke (t : TaskId) (k k' : Kernel) : Prop extends SameHolders k k' where
  que : ∀ m, k'.sch.que (.mutex m) = (k.sch.que (.mutex m)).erase t
  blocked : k'.sch.blockedTasksList = k.sch.blockedTasksList.erase t
  wait : ∀ u, u ≠ t → mutexWait (k'.sch.tcb u) = mutexWait (k.sch.tcb u)
  self : mutexWait (k'.sch.tcb t) = none

/-- The task begins to wait for the mutex. -/
structure Waits (t : TaskId) (m : Nat) (r : WaitReason) (k k' : Kernel) : Prop
    extends SameHolders k k' where
  que : k'.sch.que (.mutex m) = k.sch.que (.mutex m) ++ [t]
  queNe : ∀ n, n ≠ m → k'.sch.que (.mutex n) = k.sch.que (.mutex n)
  blocked : k'.sch.blockedTasksList =
    if r = .mutexCBlk then k.sch.blockedTasksList ++ [t] else k.sch.blockedTasksList
  wait : ∀ u, u ≠ t → mutexWait (k'.sch.tcb u) = mutexWait (k.sch.tcb u)
  self : mutexWait (k'.sch.tcb t) = some r

/-- The task may wait for the mutex. -/
structure MayWait (t : TaskId) (m : Nat) (r : WaitReason) (k : Kernel) : Prop where
  exist : (k.mutex m).idMutex = true
  idle : mutexWait (k.sch.tcb t) = none
  suits : Suits (k.mutex m).attr r
  ceil : (k.mutex m).attr = .ceiling → (k.mutex m).ceilPriority ≤ (k.sch.tcb t).basePriority
  other : (k.mutex m).holder ≠ some t
  held : (k.mutex m).attr = .inherit → (k.mutex m).holder ≠ none

/-- The mutex is in the list of no task. -/
def unlinked (h : TaskId) (m : Nat) (k : Kernel) : Kernel :=
  { k with
    sch := k.sch.setTcb h fun b => { b with mutexQueue := b.mutexQueue.erase m }
    lockedMutexesList := k.lockedMutexesList.erase m }

/-- The mutex does not exist any more. -/
def killed (m : Nat) (k : Kernel) : Kernel := k.setMutex m { k.mutex m with idMutex := false }

/-- A new task. -/
structure NewTask (t : TaskId) (k k' : Kernel) : Prop where
  sched : SInv none k'.sch
  mutex : k'.mutex = k.mutex
  locked : k'.lockedMutexesList = k.lockedMutexesList
  que : ∀ m, k'.sch.que (.mutex m) = k.sch.que (.mutex m)
  blocked : k'.sch.blockedTasksList = k.sch.blockedTasksList
  tcb : ∀ u, u ≠ t → k'.sch.tcb u = k.sch.tcb u
  before : (k.sch.tcb t).idTask = false
  self : mutexWait (k'.sch.tcb t) = none
  mutexQueue : (k'.sch.tcb t).mutexQueue = []
  blk : (k'.sch.tcb t).blkTask = none
  priority : (k'.sch.tcb t).priority = (k'.sch.tcb t).basePriority

/-- One act; the option is the mutex that is in no list although it has a holder. -/
inductive Act (strict : Prop) : Option Nat × Kernel → Option Nat × Kernel → Prop where
  | still {o : Option Nat} {k k' : Kernel} (h : Still k k') : Act strict (o, k) (o, k')
  | woke {o : Option Nat} {k k' : Kernel} (t : TaskId) (h : Woke t k k') : Act strict (o, k) (o, k')
  | waits {k k' : Kernel} (t : TaskId) (m : Nat) (r : WaitReason) (hm : MayWait t m r k)
      (h : Waits t m r k k') : Act strict (none, k) (none, k')
  | unlink {k : Kernel} (t : TaskId) (m : Nat) (h : m ∈ (k.sch.tcb t).mutexQueue) :
      Act strict (none, k) (some m, unlinked t m k)
  | takeOut {k : Kernel} (m : Nat) (hid : (k.mutex m).idMutex = true)
      (h : (k.mutex m).holder = none) : Act strict (none, k) (some m, k)
  | acquire {k : Kernel} (t : TaskId) (m : Nat) (hsys : isSystem t = false)
      (hid : (k.sch.tcb t).idTask = true) (hw : mutexWait (k.sch.tcb t) = none)
      (hab : strict → Above k t) : Act strict (some m, k) (none, lockMutex k m t)
  | drop {k : Kernel} (m : Nat) (h : (k.mutex m).attr = .inherit → k.sch.que (.mutex m) = []) :
      Act strict (some m, k) (none, dropMutex m k)
  | kill {k : Kernel} (m : Nat) (h : k.sch.que (.mutex m) = []) :
      Act strict (some m, k) (none, killed m k)
  | newMutex {k : Kernel} (m : Nat) (attr : MutexAttr) (ceil : Nat)
      (h : (k.mutex m).idMutex = false) (ha : strict → attr = .ceiling) :
      Act strict (none, k) (none, k.setMutex m ⟨attr, none, ceil, true⟩)
  | newTask {k k' : Kernel} (t : TaskId) (h : NewTask t k k') : Act strict (none, k) (none, k')

/-- A sequence of acts. -/
abbrev Acts (strict : Prop) := Relation.ReflTransGen (Act strict)

/-! ## The acts keep the bookkeeping -/

theorem SameHolders.holdInv (h : SameHolders k k') (hi : HoldInv o k) : HoldInv o k' := by
  constructor
  case sysHolder => simpa only [h.mutex] using hi.sysHolder
  case sysBlk =>
    intro t b hb
    rcases (h.owns t).blk b hb with hb | hb
    · exact hi.sysBlk t b hb
    · exact hb
  case lockedNodup => simpa only [h.locked] using hi.lockedNodup
  case locked => simpa only [h.locked, h.mutex] using hi.locked
  case out => simpa only [h.locked, h.mutex] using hi.out
  case queue =>
    intro t m
    rw [(h.owns t).mutexQueue, h.locked, h.mutex]
    exact hi.queue t m
  case queueNodup =>
    intro t
    rw [(h.owns t).mutexQueue]
    exact hi.queueNodup t
  case idTask =>
    intro t m
    rw [(h.owns t).mutexQueue, (h.owns t).idTask]
    exact hi.idTask t m

theorem WaitInv.queNodup (hi : WaitInv k) (m : Nat) : (k.sch.que (.mutex m)).Nodup :=
  hi.sched.nodup _

/-- A task that waits for no mutex is in no wait list of one. -/
theorem WaitInv.not_mem (hi : WaitInv k) (ht : mutexWait (k.sch.tcb t) = none) (m : Nat) :
    t ∉ k.sch.que (.mutex m) := by
  intro hm
  obtain ⟨r, hr, -⟩ := hi.reason m t hm
  rw [ht] at hr
  cases hr

theorem WaitInv.not_blocked (hi : WaitInv k) (ht : mutexWait (k.sch.tcb t) = none) :
    t ∉ k.sch.blockedTasksList := by
  intro hc
  have hb := (hi.blocked t).mp hc
  rw [ht] at hb
  cases hb

/-- The tasks wait as before, for mutexes that are what they were. -/
theorem WaitInv.same (hi : WaitInv k) (hs : SInv none k'.sch)
    (hq : ∀ m, k'.sch.que (.mutex m) = k.sch.que (.mutex m))
    (hb : k'.sch.blockedTasksList = k.sch.blockedTasksList)
    (hw : ∀ u, mutexWait (k'.sch.tcb u) = mutexWait (k.sch.tcb u))
    (hbase : ∀ m t, t ∈ k.sch.que (.mutex m) →
      (k'.sch.tcb t).basePriority = (k.sch.tcb t).basePriority)
    (hm : ∀ m t, t ∈ k.sch.que (.mutex m) → (k'.mutex m).idMutex = (k.mutex m).idMutex ∧
      (k'.mutex m).attr = (k.mutex m).attr ∧ (k'.mutex m).ceilPriority = (k.mutex m).ceilPriority ∧
      (k'.mutex m).holder ≠ some t) : WaitInv k' := by
  constructor
  case sched => exact hs
  case exist =>
    intro m t ht
    rw [hq] at ht
    rw [(hm m t ht).1]
    exact hi.exist m t ht
  case reason =>
    intro m t ht
    rw [hq] at ht
    rw [hw, (hm m t ht).2.1]
    exact hi.reason m t ht
  case ceil =>
    intro m t ht
    rw [hq] at ht
    rw [(hm m t ht).2.1, (hm m t ht).2.2.1, hbase m t ht]
    exact hi.ceil m t ht
  case other =>
    intro m t ht
    rw [hq] at ht
    exact (hm m t ht).2.2.2
  case place => simpa only [hq, hw] using hi.place
  case blocked => simpa only [hb, hw] using hi.blocked
  case blockedNodup => simpa only [hb] using hi.blockedNodup

theorem Still.waitInv (h : Still k k') (hi : WaitInv k) : WaitInv k' := by
  apply hi.same h.sched h.que h.blocked h.wait fun _ t _ => (h.owns t).base
  intro m t ht
  rw [h.mutex]
  exact ⟨rfl, rfl, rfl, hi.other m t ht⟩

theorem Woke.waitInv (h : Woke t k k') (hi : WaitInv k) : WaitInv k' := by
  have hmem : ∀ m u, u ∈ k'.sch.que (.mutex m) → u ≠ t ∧ u ∈ k.sch.que (.mutex m) := by
    intro m u hu
    rw [h.que] at hu
    exact ⟨fun hc => (hi.queNodup m).not_mem_erase (hc ▸ hu), List.mem_of_mem_erase hu⟩
  constructor
  case sched => exact h.sched
  case exist =>
    intro m u hu
    rw [h.mutex]
    exact hi.exist m u (hmem m u hu).2
  case reason =>
    intro m u hu
    obtain ⟨hne, hu⟩ := hmem m u hu
    rw [h.mutex, h.wait u hne]
    exact hi.reason m u hu
  case ceil =>
    intro m u hu
    rw [h.mutex, (h.owns u).base]
    exact hi.ceil m u (hmem m u hu).2
  case other =>
    intro m u hu
    rw [h.mutex]
    exact hi.other m u (hmem m u hu).2
  case place =>
    intro u r hu
    have hne : u ≠ t := by
      rintro rfl
      rw [h.self] at hu
      cases hu
    rw [h.wait u hne] at hu
    obtain ⟨m, hm⟩ := hi.place u r hu
    exact ⟨m, by rw [h.que]; exact (List.mem_erase_of_ne hne).mpr hm⟩
  case blocked =>
    intro u
    rw [h.blocked]
    by_cases hu : u = t
    · subst hu
      rw [h.self]
      exact ⟨fun hc => absurd hc hi.blockedNodup.not_mem_erase, fun hc => by cases hc⟩
    · rw [List.mem_erase_of_ne hu, h.wait u hu]
      exact hi.blocked u
  case blockedNodup =>
    rw [h.blocked]
    exact hi.blockedNodup.erase t

theorem Waits.waitInv {r : WaitReason} (h : Waits t m r k k') (hm : MayWait t m r k)
    (hi : WaitInv k) : WaitInv k' := by
  have hmem : ∀ n u, u ∈ k'.sch.que (.mutex n) →
      (u = t ∧ n = m) ∨ (u ≠ t ∧ u ∈ k.sch.que (.mutex n)) := by
    intro n u hu
    have hnot := hi.not_mem hm.idle n
    by_cases hn : n = m
    · subst hn
      rw [h.que, List.mem_append, List.mem_singleton] at hu
      rcases hu with hu | hu
      · exact .inr ⟨fun hc => hnot (hc ▸ hu), hu⟩
      · exact .inl ⟨hu, rfl⟩
    · rw [h.queNe n hn] at hu
      exact .inr ⟨fun hc => hnot (hc ▸ hu), hu⟩
  constructor
  case sched => exact h.sched
  case exist =>
    intro n u hu
    rw [h.mutex]
    rcases hmem n u hu with ⟨-, rfl⟩ | ⟨-, hu⟩
    · exact hm.exist
    · exact hi.exist n u hu
  case reason =>
    intro n u hu
    rw [h.mutex]
    rcases hmem n u hu with ⟨rfl, rfl⟩ | ⟨hne, hu⟩
    · exact ⟨r, h.self, hm.suits⟩
    · rw [h.wait u hne]
      exact hi.reason n u hu
  case ceil =>
    intro n u hu
    rw [h.mutex, (h.owns u).base]
    rcases hmem n u hu with ⟨rfl, rfl⟩ | ⟨-, hu⟩
    · exact hm.ceil
    · exact hi.ceil n u hu
  case other =>
    intro n u hu
    rw [h.mutex]
    rcases hmem n u hu with ⟨rfl, rfl⟩ | ⟨-, hu⟩
    · exact hm.other
    · exact hi.other n u hu
  case place =>
    intro u r' hu
    by_cases hut : u = t
    · subst hut
      exact ⟨m, by rw [h.que]; simp⟩
    · rw [h.wait u hut] at hu
      obtain ⟨n, hn⟩ := hi.place u r' hu
      refine ⟨n, ?_⟩
      by_cases hnm : n = m
      · subst hnm
        rw [h.que]
        exact List.mem_append_left _ hn
      · rwa [h.queNe n hnm]
  case blocked =>
    intro u
    have hnot := hi.not_blocked hm.idle
    rw [h.blocked]
    by_cases hut : u = t
    · subst hut
      rw [h.self]
      split
      · rename_i hr
        simp [hr]
      · rename_i hr
        simp [hr, hnot]
    · rw [h.wait u hut, ← hi.blocked u]
      split
      · simp [hut]
      · exact .rfl
  case blockedNodup =>
    rw [h.blocked]
    split
    · exact nodup_snoc hi.blockedNodup (hi.not_blocked hm.idle)
    · exact hi.blockedNodup

/-! ## Mutexes change hands -/

@[simp] theorem setMutex_mutex_self (k : Kernel) (m : Nat) (x : Mutex) : (k.setMutex m x).mutex m = x := by
  show Function.update k.mutex m x m = x
  rw [Function.update_self]

theorem setMutex_mutex_ne (k : Kernel) (x : Mutex) (hn : n ≠ m) :
    (k.setMutex m x).mutex n = k.mutex n := by
  show Function.update k.mutex m x n = _
  rw [Function.update_of_ne hn]

@[simp] theorem setMutex_sch (k : Kernel) (m : Nat) (x : Mutex) : (k.setMutex m x).sch = k.sch := rfl

@[simp] theorem setMutex_locked (k : Kernel) (m : Nat) (x : Mutex) :
    (k.setMutex m x).lockedMutexesList = k.lockedMutexesList := rfl

/-- Only the holder of the mutex is new. -/
theorem holder_mutex (k : Kernel) (m n : Nat) (x : Option TaskId) :
    ((k.setMutex m { k.mutex m with holder := x }).mutex n).idMutex = (k.mutex n).idMutex ∧
      ((k.setMutex m { k.mutex m with holder := x }).mutex n).attr = (k.mutex n).attr ∧
      ((k.setMutex m { k.mutex m with holder := x }).mutex n).ceilPriority =
        (k.mutex n).ceilPriority := by
  by_cases hn : n = m
  · subst hn
    simp
  · rw [setMutex_mutex_ne k _ hn]
    exact ⟨rfl, rfl, rfl⟩

theorem SInv.setQueue (h : SInv none s) (t : TaskId) (f : List Nat → List Nat) :
    SInv none (s.setTcb t fun b => { b with mutexQueue := f b.mutexQueue }) := h.keep (.of_eq rfl id)

theorem setQueue_self (s : Sched) (t : TaskId) (f : List Nat → List Nat) :
    (s.setTcb t fun b => { b with mutexQueue := f b.mutexQueue }).tcb t =
      { s.tcb t with mutexQueue := f (s.tcb t).mutexQueue } := setTcb_same s t _

theorem setQueue_ne (s : Sched) (f : List Nat → List Nat) (hu : u ≠ t) :
    (s.setTcb t fun b => { b with mutexQueue := f b.mutexQueue }).tcb u = s.tcb u := setTcb_ne s _ hu

theorem mutexWait_queue (s : Sched) (t u : TaskId) (f : List Nat → List Nat) :
    mutexWait ((s.setTcb t fun b => { b with mutexQueue := f b.mutexQueue }).tcb u) =
      mutexWait (s.tcb u) := by
  by_cases hu : u = t
  · rw [hu, setTcb_same]
    rfl
  · rw [setTcb_ne s _ hu]

theorem base_queue (s : Sched) (t u : TaskId) (f : List Nat → List Nat) :
    ((s.setTcb t fun b => { b with mutexQueue := f b.mutexQueue }).tcb u).basePriority =
      (s.tcb u).basePriority := by
  by_cases hu : u = t
  · rw [hu, setTcb_same]
  · rw [setTcb_ne s _ hu]

theorem MInv.unlink (hi : MInv none k) (h : m ∈ (k.sch.tcb t).mutexQueue) :
    MInv (some m) (unlinked t m k) := by
  obtain ⟨hl, hh⟩ := (hi.queue t m).mp h
  have hs : SInv none (unlinked t m k).sch := SInv.setQueue hi.sched t fun l => l.erase m
  have hbt : (unlinked t m k).sch.tcb t = { k.sch.tcb t with
      mutexQueue := (k.sch.tcb t).mutexQueue.erase m } := setQueue_self k.sch t fun l => l.erase m
  have hbu : ∀ u, u ≠ t → (unlinked t m k).sch.tcb u = k.sch.tcb u := fun u hu =>
    setQueue_ne k.sch (fun l => l.erase m) hu
  have hold : ∀ u, ((unlinked t m k).sch.tcb u).mutexQueue = (k.sch.tcb u).mutexQueue.erase m := by
    intro u
    by_cases hu : u = t
    · rw [hu, hbt]
    · rw [hbu u hu, List.erase_of_not_mem]
      intro hc
      rw [((hi.queue u m).mp hc).2] at hh
      exact hu (by simpa using hh)
  have hrest : ∀ u, ((unlinked t m k).sch.tcb u).blkTask = (k.sch.tcb u).blkTask ∧
      ((unlinked t m k).sch.tcb u).idTask = (k.sch.tcb u).idTask := by
    intro u
    by_cases hu : u = t
    · rw [hu, hbt]
      exact ⟨rfl, rfl⟩
    · rw [hbu u hu]
      exact ⟨rfl, rfl⟩
  refine ⟨?_, ?_, hi.free⟩
  · apply hi.toWaitInv.same hs (fun _ => rfl) rfl fun u => mutexWait_queue k.sch t u fun l => l.erase m
    · intro _ u _
      exact base_queue k.sch t u fun l => l.erase m
    · exact fun n u hu => ⟨rfl, rfl, rfl, hi.other n u hu⟩
  constructor
  case sysHolder => exact hi.sysHolder
  case sysBlk =>
    intro u b hb
    rw [(hrest u).1] at hb
    exact hi.sysBlk u b hb
  case lockedNodup => exact hi.lockedNodup.erase m
  case locked =>
    intro n hn
    refine Iff.trans ?_ (hi.locked n (by simp))
    exact List.mem_erase_of_ne (by simpa using hn)
  case out =>
    intro n hn
    cases hn
    exact ⟨hi.lockedNodup.not_mem_erase, ((hi.locked m (by simp)).mp hl).1⟩
  case queue =>
    intro u n
    rw [hold u]
    by_cases hn : n = m
    · subst hn
      exact ⟨fun hc => absurd hc (hi.queueNodup u).not_mem_erase,
        fun hc => absurd hc.1 hi.lockedNodup.not_mem_erase⟩
    · rw [List.mem_erase_of_ne hn, hi.queue u n]
      exact and_congr_left fun _ => (List.mem_erase_of_ne hn).symm
  case queueNodup =>
    intro u
    rw [hold u]
    exact (hi.queueNodup u).erase m
  case idTask =>
    intro u n hu
    rw [hold u] at hu
    rw [(hrest u).2]
    exact hi.idTask u n (List.mem_of_mem_erase hu)

/-- A mutex without a holder is in no list. -/
theorem MInv.takeOut (hi : MInv none k) (hid : (k.mutex m).idMutex = true)
    (h : (k.mutex m).holder = none) : MInv (some m) k := by
  have hm : m ∉ k.lockedMutexesList := by
    intro hc
    have hh := ((hi.locked m (by simp)).mp hc).2
    rw [h] at hh
    cases hh
  refine ⟨hi.toWaitInv, ⟨hi.sysHolder, hi.sysBlk, hi.lockedNodup, fun n _ => hi.locked n (by simp), ?_,
    hi.queue, hi.queueNodup, hi.idTask⟩, hi.free⟩
  intro n hn
  cases hn
  exact ⟨hm, hid⟩

theorem MInv.acquire (hi : MInv (some m) k) (hsys : isSystem t = false)
    (hid : (k.sch.tcb t).idTask = true) (hw : mutexWait (k.sch.tcb t) = none) :
    MInv none (lockMutex k m t) := by
  obtain ⟨hout, hidm⟩ := hi.out m rfl
  have hs : SInv none (lockMutex k m t).sch := SInv.setQueue hi.sched t fun l => l ++ [m]
  have hmut : ∀ n, n ≠ m → (lockMutex k m t).mutex n = k.mutex n := fun n hn =>
    setMutex_mutex_ne k _ hn
  have hself : (lockMutex k m t).mutex m = { k.mutex m with holder := some t } :=
    setMutex_mutex_self k m _
  have hbt : (lockMutex k m t).sch.tcb t = { k.sch.tcb t with
      mutexQueue := (k.sch.tcb t).mutexQueue ++ [m] } := setQueue_self k.sch t fun l => l ++ [m]
  have hbu : ∀ u, u ≠ t → (lockMutex k m t).sch.tcb u = k.sch.tcb u := fun u hu =>
    setQueue_ne k.sch (fun l => l ++ [m]) hu
  refine ⟨?_, ?_, ?_⟩
  · apply hi.toWaitInv.same hs (fun _ => rfl) rfl fun u => mutexWait_queue k.sch t u fun l => l ++ [m]
    · intro _ u _
      exact base_queue k.sch t u fun l => l ++ [m]
    · intro n u hu
      obtain ⟨h1, h2, h3⟩ := holder_mutex k m n (some t)
      refine ⟨h1, h2, h3, ?_⟩
      by_cases hn : n = m
      · subst hn
        rw [hself]
        intro hc
        cases hc
        exact hi.not_mem hw n hu
      · rw [hmut n hn]
        exact hi.other n u hu
  · constructor
    case sysHolder =>
      intro n h hh
      by_cases hn : n = m
      · subst hn
        rw [hself] at hh
        cases hh
        exact hsys
      · rw [hmut n hn] at hh
        exact hi.sysHolder n h hh
    case sysBlk =>
      intro u b hb
      by_cases hu : u = t
      · subst hu
        rw [hbt] at hb
        exact hi.sysBlk u b hb
      · rw [hbu u hu] at hb
        exact hi.sysBlk u b hb
    case lockedNodup => exact nodup_snoc hi.lockedNodup hout
    case locked =>
      intro n _
      show n ∈ k.lockedMutexesList ++ [m] ↔ _
      by_cases hn : n = m
      · subst hn
        rw [hself]
        simp [hidm]
      · rw [hmut n hn, ← hi.locked n (by simpa using hn)]
        simp [hn]
    case out => exact fun n hn => by cases hn
    case queue =>
      intro u n
      show _ ↔ n ∈ k.lockedMutexesList ++ [m] ∧ _
      by_cases hn : n = m
      · subst hn
        rw [hself]
        by_cases hu : u = t
        · subst hu
          rw [hbt]
          simp
        · rw [hbu u hu, hi.queue u n]
          simp [hout, Ne.symm hu]
      · rw [hmut n hn]
        by_cases hu : u = t
        · subst hu
          rw [hbt]
          simp [hn, hi.queue u n]
        · rw [hbu u hu, hi.queue u n]
          simp [hn]
    case queueNodup =>
      intro u
      by_cases hu : u = t
      · subst hu
        rw [hbt]
        exact nodup_snoc (hi.queueNodup u) fun hc => hout ((hi.queue u m).mp hc).1
      · rw [hbu u hu]
        exact hi.queueNodup u
    case idTask =>
      intro u n hu
      by_cases hut : u = t
      · subst hut
        rw [hbt]
        exact hid
      · rw [hbu u hut] at hu ⊢
        exact hi.idTask u n hu
  · intro n hidn ha hh
    by_cases hn : n = m
    · subst hn
      rw [hself] at hh
      cases hh
    · rw [hmut n hn] at hidn ha hh
      exact hi.free n hidn ha hh

/-- The mutex that is in no list is left without a holder. -/
theorem MInv.drop (hi : MInv (some m) k)
    (hq : (k.mutex m).attr = .inherit → k.sch.que (.mutex m) = []) : MInv none (dropMutex m k) := by
  obtain ⟨hout, hidm⟩ := hi.out m rfl
  have hmut : ∀ n, n ≠ m → (dropMutex m k).mutex n = k.mutex n := fun n hn => setMutex_mutex_ne k _ hn
  have hself : (dropMutex m k).mutex m = { k.mutex m with holder := none } := setMutex_mutex_self k m _
  have hholder : ∀ n h, ((dropMutex m k).mutex n).holder = some h →
      n ≠ m ∧ (k.mutex n).holder = some h := by
    intro n h hh
    by_cases hn : n = m
    · subst hn
      rw [hself] at hh
      cases hh
    · rw [hmut n hn] at hh
      exact ⟨hn, hh⟩
  refine ⟨?_, ?_, ?_⟩
  · refine hi.toWaitInv.same hi.sched (fun _ => rfl) rfl (fun _ => rfl) (fun _ _ _ => rfl) ?_
    intro n u hu
    obtain ⟨h1, h2, h3⟩ := holder_mutex k m n none
    exact ⟨h1, h2, h3, fun hc => hi.other n u hu (hholder n u hc).2⟩
  · refine ⟨fun n h hh => hi.sysHolder n h (hholder n h hh).2, hi.sysBlk, hi.lockedNodup, ?_,
      (fun n hn => by cases hn), ?_, hi.queueNodup, hi.idTask⟩
    · intro n _
      show n ∈ k.lockedMutexesList ↔ _
      by_cases hn : n = m
      · subst hn
        rw [hself]
        simp [hout]
      · rw [hmut n hn]
        exact hi.locked n (by simpa using hn)
    · intro u n
      show n ∈ (k.sch.tcb u).mutexQueue ↔ n ∈ k.lockedMutexesList ∧ _
      rw [hi.queue u n]
      refine and_congr_right fun hl => ?_
      have hn : n ≠ m := fun hc => hout (hc ▸ hl)
      rw [hmut n hn]
  · intro n hid ha hh
    by_cases hn : n = m
    · subst hn
      rw [hself] at ha
      exact hq ha
    · rw [hmut n hn] at hid ha hh
      exact hi.free n hid ha hh

/-- The mutex that is in no list and has no waiters is deleted. -/
theorem MInv.kill (hi : MInv (some m) k) (hq : k.sch.que (.mutex m) = []) : MInv none (killed m k) := by
  obtain ⟨hout, hidm⟩ := hi.out m rfl
  have hmut : ∀ n, n ≠ m → (killed m k).mutex n = k.mutex n := fun n hn => setMutex_mutex_ne k _ hn
  have hself : (killed m k).mutex m = { k.mutex m with idMutex := false } := setMutex_mutex_self k m _
  have hholder : ∀ n, ((killed m k).mutex n).holder = (k.mutex n).holder := by
    intro n
    by_cases hn : n = m
    · subst hn
      rw [hself]
    · rw [hmut n hn]
  refine ⟨?_, ?_, ?_⟩
  · refine hi.toWaitInv.same hi.sched (fun _ => rfl) rfl (fun _ => rfl) (fun _ _ _ => rfl) ?_
    intro n u hu
    have hn : n ≠ m := by
      rintro rfl
      rw [hq] at hu
      cases hu
    rw [hmut n hn]
    exact ⟨rfl, rfl, rfl, hi.other n u hu⟩
  · refine ⟨fun n h hh => hi.sysHolder n h (by rwa [hholder n] at hh), hi.sysBlk, hi.lockedNodup, ?_,
      (fun n hn => by cases hn), ?_, hi.queueNodup, hi.idTask⟩
    · intro n _
      show n ∈ k.lockedMutexesList ↔ _
      by_cases hn : n = m
      · subst hn
        rw [hself]
        simp [hout]
      · rw [hmut n hn]
        exact hi.locked n (by simpa using hn)
    · intro u n
      rw [hholder n]
      exact hi.queue u n
  · intro n hid ha hh
    have hn : n ≠ m := by
      rintro rfl
      rw [hself] at hid
      cases hid
    rw [hmut n hn] at hid ha hh
    exact hi.free n hid ha hh

theorem MInv.newMutex (hi : MInv none k) (hid : (k.mutex m).idMutex = false) (attr : MutexAttr)
    (ceil : Nat) : MInv none (k.setMutex m ⟨attr, none, ceil, true⟩) := by
  have hq : k.sch.que (.mutex m) = [] := by
    rw [List.eq_nil_iff_forall_not_mem]
    intro u hu
    have hc := hi.exist m u hu
    rw [hid] at hc
    cases hc
  have hout : m ∉ k.lockedMutexesList := by
    intro hc
    have hl := ((hi.locked m (by simp)).mp hc).1
    rw [hid] at hl
    cases hl
  have hmut : ∀ n, n ≠ m → (k.setMutex m ⟨attr, none, ceil, true⟩).mutex n = k.mutex n := fun n hn =>
    setMutex_mutex_ne k _ hn
  have hholder : ∀ n h, ((k.setMutex m ⟨attr, none, ceil, true⟩).mutex n).holder = some h →
      n ≠ m ∧ (k.mutex n).holder = some h := by
    intro n h hh
    by_cases hn : n = m
    · subst hn
      rw [setMutex_mutex_self] at hh
      cases hh
    · rw [hmut n hn] at hh
      exact ⟨hn, hh⟩
  refine ⟨?_, ?_, ?_⟩
  · refine hi.toWaitInv.same hi.sched (fun _ => rfl) rfl (fun _ => rfl) (fun _ _ _ => rfl) ?_
    intro n u hu
    have hn : n ≠ m := by
      rintro rfl
      rw [hq] at hu
      cases hu
    rw [hmut n hn]
    exact ⟨rfl, rfl, rfl, hi.other n u hu⟩
  · refine ⟨fun n h hh => hi.sysHolder n h (hholder n h hh).2, hi.sysBlk, hi.lockedNodup, ?_,
      (fun n hn => by cases hn), ?_, hi.queueNodup, hi.idTask⟩
    · intro n _
      rw [setMutex_locked]
      by_cases hn : n = m
      · subst hn
        simp [hout]
      · rw [hmut n hn]
        exact hi.locked n (by simp)
    · intro u n
      rw [setMutex_locked, setMutex_sch, hi.queue u n]
      refine and_congr_right fun hl => ?_
      have hn : n ≠ m := fun hc => hout (hc ▸ hl)
      rw [hmut n hn]
  · intro n hidn ha hh
    by_cases hn : n = m
    · subst hn
      exact hq
    · rw [hmut n hn] at hidn ha hh
      exact hi.free n hidn ha hh

theorem NewTask.minv (h : NewTask t k k') (hi : MInv none k) : MInv none k' := by
  have hdorm := (hi.sched.ok t).dormant h.before
  have hidle : mutexWait (k.sch.tcb t) = none := by
    unfold mutexWait
    rw [hdorm]
    rfl
  have hnoq : (k.sch.tcb t).mutexQueue = [] := by
    rw [List.eq_nil_iff_forall_not_mem]
    intro n hn
    have hid := hi.idTask t n hn
    rw [h.before] at hid
    cases hid
  refine ⟨?_, ?_, ?_⟩
  · apply hi.toWaitInv.same h.sched h.que h.blocked
    · intro u
      by_cases hu : u = t
      · subst hu
        rw [h.self, hidle]
      · rw [h.tcb u hu]
    · intro m u hm
      have hu : u ≠ t := fun hc => hi.not_mem hidle m (hc ▸ hm)
      rw [h.tcb u hu]
    · intro n u hu
      rw [h.mutex]
      exact ⟨rfl, rfl, rfl, hi.other n u hu⟩
  · constructor
    case sysHolder => simpa only [h.mutex] using hi.sysHolder
    case sysBlk =>
      intro u b hb
      by_cases hu : u = t
      · subst hu
        rw [h.blk] at hb
        cases hb
      · rw [h.tcb u hu] at hb
        exact hi.sysBlk u b hb
    case lockedNodup => simpa only [h.locked] using hi.lockedNodup
    case locked => simpa only [h.locked, h.mutex] using hi.locked
    case out => simpa only [h.locked, h.mutex] using hi.out
    case queue =>
      intro u n
      rw [h.locked, h.mutex, ← hi.queue u n]
      by_cases hu : u = t
      · subst hu
        rw [h.mutexQueue, hnoq]
      · rw [h.tcb u hu]
    case queueNodup =>
      intro u
      by_cases hu : u = t
      · subst hu
        rw [h.mutexQueue]
        exact List.nodup_nil
      · rw [h.tcb u hu]
        exact hi.queueNodup u
    case idTask =>
      intro u n hm
      by_cases hu : u = t
      · subst hu
        rw [h.mutexQueue] at hm
        cases hm
      · rw [h.tcb u hu] at hm ⊢
        exact hi.idTask u n hm
  · simpa only [h.que, h.mutex] using hi.free

/-- **Every act keeps the bookkeeping.** -/
theorem Act.minv {strict : Prop} {x y : Option Nat × Kernel} (h : Act strict x y) (hi : MInv x.1 x.2) :
    MInv y.1 y.2 := by
  cases h with
  | still h =>
    exact ⟨h.waitInv hi.toWaitInv, h.holdInv hi.toHoldInv, by simpa only [h.que, h.mutex] using hi.free⟩
  | woke t h =>
    refine ⟨h.waitInv hi.toWaitInv, h.holdInv hi.toHoldInv, fun m hid ha hh => ?_⟩
    rw [h.mutex] at hid ha hh
    rw [h.que, hi.free m hid ha hh]
    rfl
  | waits t m r hm h =>
    refine ⟨h.waitInv hm hi.toWaitInv, h.holdInv hi.toHoldInv, fun n hid ha hh => ?_⟩
    rw [h.mutex] at hid ha hh
    by_cases hn : n = m
    · subst hn
      exact absurd hh (hm.held ha)
    · rw [h.queNe n hn]
      exact hi.free n hid ha hh
  | unlink t m h => exact hi.unlink h
  | takeOut m hid h => exact hi.takeOut hid h
  | acquire t m hsys hid hw _ => exact hi.acquire hsys hid hw
  | drop m h => exact hi.drop h
  | kill m h => exact hi.kill h
  | newMutex m attr ceil h _ => exact hi.newMutex h attr ceil
  | newTask t h => exact h.minv hi

theorem Acts.minv {strict : Prop} {x y : Option Nat × Kernel} (h : Acts strict x y)
    (hi : MInv x.1 x.2) : MInv y.1 y.2 := by
  induction h with
  | refl => exact hi
  | tail _ ha ih => exact ha.minv ih

end TnMutex
