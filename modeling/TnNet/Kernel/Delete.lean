import TnNet.Kernel.Timeouts

/-!
# The delete services

`tn_sem_delete`, `tn_queue_delete`, `tn_event_delete`, `tn_fmem_delete` and `tn_mutex_delete` are one
loop over the wait lists of the object: while a list is not empty, its first task is taken out and
released, and the other tasks may run between two releases; then the id of the object is cleared.  A
call is a frame of its task (`Del`) that `Del.step` takes one test or one release further; `delMachine`
is the kernel with the tasks that are in such a call.

The tests of the loop are made with interrupts enabled, but for those behind a release after which
`task_wait_complete` has returned `FALSE`: the code restores the interrupts only when it switches
(`masked`).
-/

set_option autoImplicit false

namespace TnKernel

variable {k : Kernel} {t u : TaskId} {q : Que}

/-- The objects that can be deleted. -/
inductive Obj where
  | sem (i : Nat)
  | queue (i : Nat)
  | event (i : Nat)
  | fmem (i : Nat)
  | mutex (i : Nat)
  deriving DecidableEq

/-- The wait lists of an object, in the order of the loops. -/
def Obj.lists : Obj → List Que
  | .sem i => [.sem i]
  | .queue i => [.wsend i, .wreceive i]
  | .event i => [.event i]
  | .fmem i => [.fmp i]
  | .mutex i => [.mutex i]

/-- The id of the object is set. -/
def Kernel.hasObj (k : Kernel) : Obj → Bool
  | .sem i => (k.sem i).idSem
  | .queue i => (k.dque i).idDque
  | .event i => (k.evf i).idEvent
  | .fmem i => (k.fmp i).idFmp
  | .mutex i => (k.mutex i).idMutex

/-- The last part of a delete service: a mutex leaves the lists of its holder, and the id is cleared. -/
def Kernel.clearId (k : Kernel) : Obj → Kernel
  | .sem i => k.setSem i { k.sem i with idSem := false }
  | .queue i => k.setDque i { k.dque i with idDque := false }
  | .event i => k.setEvf i { k.evf i with idEvent := false }
  | .fmem i => k.setFmp i { k.fmp i with idFmp := false }
  | .mutex i =>
    let k := match (k.mutex i).holder with
      | some h =>
        { k with
          sch := k.sch.setTcb h fun b => { b with mutexQueue := b.mutexQueue.erase i }
          lockedMutexesList := k.lockedMutexesList.erase i }
      | none => k
    k.setMutex i { k.mutex i with idMutex := false }

/-- One release: the task has been taken from the list `q`.  The value is that of `task_wait_complete`;
    only when it is `TRUE` the task gets `TERR_DLT`. -/
def Kernel.releaseDlt (k : Kernel) (o : Obj) (q : Que) (t : TaskId) : Bool × Kernel :=
  let s := queueRemoveHead q k.sch
  let s := match o with
    -- `remove_task_from_blocked_list`
    | .mutex _ => { s with blockedTasksList := s.blockedTasksList.erase t }
    | _ => s
  let r := taskWaitComplete t false s
  (r.1, { k with sch := if r.1 then r.2.setTcb t fun b => { b with taskWaitRc := .dlt } else r.2 })

/-- A task in a delete service: the lists that are not known to be empty, and whether the test in front
    of the first of them has found a task. -/
structure Del where
  obj : Obj
  rest : List Que
  found : Bool
  deriving DecidableEq

/-- The kernel and the tasks that are in a delete service.  `masked`: the running task has disabled
    interrupts.  `waiters`: the tasks that have been waiting for an object when a call to delete it
    began, and have not returned since. -/
structure DelWorld where
  k : Kernel
  del : List (TaskId × Del)
  masked : Bool
  waiters : List TaskId

/-- The delete service the running task is in. -/
def DelWorld.frame (w : DelWorld) : Option Del := w.del.lookup w.k.sch.currRunTask

/-- The frames of the other tasks. -/
def DelWorld.others (w : DelWorld) : List (TaskId × Del) :=
  w.del.filter fun p => decide (p.1 ≠ w.k.sch.currRunTask)

/-- The running task goes one step further in its loop. -/
def Del.step (w : DelWorld) (d : Del) : DelWorld × List Obs :=
  let t := w.k.sch.currRunTask
  match d.rest, d.found with
  | [], _ => ({ w with k := w.k.clearId d.obj, del := w.others, masked := false }, [.ret .other .noErr 0])
  | q :: rest, false =>
    ({ w with del := (t, if w.k.sch.que q = [] then { d with rest := rest }
      else { d with found := true }) ::
        w.others }, [])
  | q :: _, true =>
    let del := (t, { d with found := false }) :: w.others
    match w.k.sch.que q with
    | u :: _ =>
      let r := w.k.releaseDlt d.obj q u
      ({ w with k := r.2, del := del, masked := !r.1 }, [])
    -- the list has become empty since the test: `task_wait_complete` is called without a task
    | [] => ({ w with del := del, masked := true }, [])

/-- A delete service is called. -/
def DelWorld.call (w : DelWorld) (o : Obj) : DelWorld × List Obs :=
  if w.k.hasObj o then
    ({ w with
        del := (w.k.sch.currRunTask, ⟨o, o.lists, false⟩) :: w.others
        waiters := w.waiters ++ o.lists.flatMap w.k.sch.que }, [])
  else (w, [.ret .other .noexs 0])

/-- The task an event starts from the beginning. -/
def Event.restarts (k : Kernel) : Event → Option TaskId
  | .task (.create t priority argsOk opt) =>
    if (tnTaskCreate t priority argsOk opt k.sch).1 = .noErr then some t else none
  | .task (.terminate t) => if (tnTaskTerminate t k.sch).1 = .noErr then some t else none
  | .task (.exit _) => some k.sch.currRunTask
  | _ => none

/-- Does the event end the call this task waits in? -/
def Event.leaves (k : Kernel) (ev : Event) (t : TaskId) : Bool :=
  decide (ev.restarts k = some t) ||
    match ev with
    | .back => decide (t = k.sch.currRunTask)
    | _ => false

/-- What happens beside the delete services. -/
def DelWorld.kernel (w : DelWorld) (ev : Event) : Option (DelWorld × List Obs) :=
  (kernelStep w.k ev).map fun r =>
    ({ w with
        k := r.1
        del := w.del.filter fun p => decide (ev.restarts w.k ≠ some p.1)
        waiters := w.waiters.filter fun t => !ev.leaves w.k t }, r.2)

inductive DelEvent where
  | kernel (ev : Event)
  | call (o : Obj)
  | next

def delStep (w : DelWorld) : DelEvent → Option (DelWorld × List Obs)
  | .kernel ev => w.kernel ev
  | .call o => some (w.call o)
  | .next => w.frame.map fun d => d.step w

/-- The machine. -/
def delMachine : Machine.Step DelWorld DelEvent Obs := fun w ev =>
  ((delStep w ev).map Prod.fst, ((delStep w ev).map Prod.snd).getD [])

/-- Is this a step of the running task? -/
def Event.ofTask : Event → Bool
  | .task _ => true
  | .timerLoop => true
  | .back => true
  | _ => false

/-- What can happen: nothing else while interrupts are disabled, and no other service of a task in a
    call. -/
def DelEnabled (w : DelWorld) : DelEvent → Prop
  | .kernel ev =>
    w.masked = false ∧ Enabled w.k ev ∧ ExitOk w.k ev ∧ (ev.ofTask = true → w.frame = none)
  | .call _ => w.masked = false ∧ (w.k.sch.tcb w.k.sch.currRunTask).taskState = .runnable ∧
      w.k.pend w.k.sch.currRunTask = none ∧ w.k.sch.currRunTask ≠ idleTask ∧ w.frame = none
  | .next => (w.k.sch.tcb w.k.sch.currRunTask).taskState = .runnable ∧ w.frame ≠ none

/-- The kernel behind `tn_start_system`, with no task in a delete service. -/
def DelWorld.start : DelWorld := ⟨Kernel.start, [], false, []⟩

/-- A call that comes back, and is not one of `tn_task_sleep`, has the code `TERR_DLT`. -/
def Obs.isDlt : Obs → Bool
  | .back _ c rc _ => decide (c = .sleep) || decide (rc = .dlt)
  | _ => true

/-- What a step is to do: a task that has been waiting returns with `TERR_DLT`, and the last step of a
    delete leaves the lists of the object empty and its id cleared. -/
def DelTells (w : DelWorld) : DelEvent → Prop
  | .kernel .back => w.k.sch.currRunTask ∈ w.waiters → ∀ o ∈ w.k.back.2, o.isDlt = true
  | .next => ∀ d ∈ w.frame, d.rest = [] →
      (∀ q ∈ d.obj.lists, (d.step w).1.k.sch.que q = []) ∧ (d.step w).1.k.hasObj d.obj = false
  | _ => True

/-- A task that has been waiting when a call began is not suspended when the call releases it, nothing
    else ends its wait, and no task comes to a list that a call has found empty. -/
def DelQuiet (w : DelWorld) : DelEvent → Prop
  | .kernel ev => ∀ r ∈ kernelStep w.k ev,
      (∀ t ∈ w.waiters, ev.restarts w.k ≠ some t → (w.k.sch.tcb t).taskState.isWait = true →
        (r.1.sch.tcb t).taskState.isWait = true) ∧
      ∀ p ∈ w.del, ∀ q ∈ p.2.obj.lists, q ∉ p.2.rest → r.1.sch.que q = []
  | .next => ∀ d ∈ w.frame, d.found = true → ∀ q ∈ d.rest.head?, ∀ u ∈ (w.k.sch.que q).head?,
      u ∈ w.waiters → (w.k.sch.tcb u).taskState.isSuspend = false
  | .call _ => True

instance (w : DelWorld) : ∀ ev, Decidable (DelEnabled w ev)
  | .kernel ev => inferInstanceAs (Decidable (w.masked = false ∧ Enabled w.k ev ∧ ExitOk w.k ev ∧
      (ev.ofTask = true → w.frame = none)))
  | .call _ =>
    inferInstanceAs (Decidable (w.masked = false ∧ (w.k.sch.tcb w.k.sch.currRunTask).taskState = .runnable ∧
      w.k.pend w.k.sch.currRunTask = none ∧ w.k.sch.currRunTask ≠ idleTask ∧ w.frame = none))
  | .next =>
    inferInstanceAs (Decidable ((w.k.sch.tcb w.k.sch.currRunTask).taskState = .runnable ∧ w.frame ≠ none))

instance (w : DelWorld) : ∀ ev, Decidable (DelQuiet w ev)
  | .kernel ev => inferInstanceAs (Decidable (∀ r ∈ kernelStep w.k ev,
      (∀ t ∈ w.waiters, ev.restarts w.k ≠ some t → (w.k.sch.tcb t).taskState.isWait = true →
        (r.1.sch.tcb t).taskState.isWait = true) ∧
      ∀ p ∈ w.del, ∀ q ∈ p.2.obj.lists, q ∉ p.2.rest → r.1.sch.que q = []))
  | .call _ => .isTrue trivial
  | .next => inferInstanceAs (Decidable (∀ d ∈ w.frame, d.found = true → ∀ q ∈ d.rest.head?,
      ∀ u ∈ (w.k.sch.que q).head?, u ∈ w.waiters → (w.k.sch.tcb u).taskState.isSuspend = false))

end TnKernel
