import TnNet.Lib.Cdll
import TnNet.Kernel.SchedRun

/-!
# The queue of the created tasks

`tn_create_queue` at the level of its links: a node for the head and one for the field `create_queue` of
each task.  `tn_task_create` adds the node of the task, `tn_task_delete` and `tn_task_exit` with
`TN_EXIT_AND_DELETE_TASK` take it out — and `task_set_dormant_state`, which `tn_task_exit` and
`tn_task_terminate` call for a task that is still in the queue, resets the links of the node.

* `create_queue_ok` — as long as no task exits and none is terminated, the queue is a ring of exactly the
  existing tasks.
* `exit_breaks_create_queue` — a run with one exit.
-/

set_option autoImplicit false

namespace TnKernel

open Cdll (Links IsRing)

variable {k k' : Kernel} {t u : TaskId} {s s' : Sched} {f : Tcb → Tcb}

/-! ## The tasks that exist -/

/-- The tasks with `id_task == TN_ID_TASK`. -/
def Sched.ids (s : Sched) (t : TaskId) : Bool := (s.tcb t).idTask

@[simp] theorem setTcb_ids (s : Sched) (t : TaskId) (hf : ∀ b, (f b).idTask = b.idTask) :
    (s.setTcb t f).ids = s.ids := by
  funext u
  unfold Sched.ids
  rcases eq_or_ne u t with rfl | hu
  · rw [setTcb_same, hf]
  · rw [setTcb_ne s f hu]

/-- The tasks that exist when a task is created or deleted. -/
theorem setTcb_ids_update (s : Sched) (t : TaskId) {b : Bool} (hf : ∀ x, (f x).idTask = b) :
    (s.setTcb t f).ids = Function.update s.ids t b := by
  funext u
  unfold Sched.ids
  rcases eq_or_ne u t with rfl | hu
  · rw [setTcb_same, hf, Function.update_self]
  · rw [setTcb_ne s f hu, Function.update_of_ne hu]

@[simp] theorem toRunnable_ids (t : TaskId) (s : Sched) : (taskToRunnable t s).ids = s.ids := by
  have h := setTcb_ids (f := fun b => { b with taskState := .runnable, pwaitQueue := none }) s t
    fun _ => rfl
  unfold taskToRunnable
  dsimp only
  split <;> exact h

@[simp] theorem toNonRunnable_ids (t : TaskId) (s : Sched) : (taskToNonRunnable t s).ids = s.ids := by
  unfold taskToNonRunnable findNextTaskToRun
  dsimp only
  repeat' split
  all_goals rfl

@[simp] theorem timerQueueRemove_ids (t : TaskId) (s : Sched) : (timerQueueRemove t s).ids = s.ids := by
  unfold timerQueueRemove
  split <;> rfl

@[simp] theorem removeEntry_ids (t : TaskId) (s : Sched) : (queueRemoveEntry t s).ids = s.ids := rfl

@[simp] theorem switchContext_ids (s : Sched) : (tnSwitchContext s).ids = s.ids := rfl

@[simp] theorem waitComplete_ids (t : TaskId) (remove : Bool) (s : Sched) :
    (taskWaitComplete t remove s).2.ids = s.ids := by
  unfold taskWaitComplete
  dsimp only
  split <;> split <;> simp

@[simp] theorem currToWait_ids (reason : WaitReason) (timeout : BitVec 32) (s : Sched) :
    (taskCurrToWaitAction none reason timeout s).ids = s.ids := by
  have h : ((taskToNonRunnable s.currRunTask s).setTcb s.currRunTask fun b =>
      { b with taskState := .wait, taskWaitReason := some reason, tickCount := timeout }).ids =
        s.ids := by simp
  unfold taskCurrToWaitAction
  dsimp only
  split <;> exact h

theorem timeouts_ids (l : List TaskId) (s : Sched) : (l.foldl timeoutTask s).ids = s.ids := by
  induction l generalizing s with
  | nil => rfl
  | cons t l ih =>
    rw [List.foldl_cons, ih]
    unfold timeoutTask
    dsimp only
    split
    · split <;> simp
    · rfl

theorem tick_ids (s : Sched) : (tnTickIntProcessing s).ids = s.ids := by
  have h : (roundRobin s).ids = s.ids := by
    unfold roundRobin
    dsimp only
    split
    · rfl
    split
    · have h1 : ((s.setTcb s.currRunTask fun b => { b with tsliceCount := b.tsliceCount + 1 }).setTcb
          s.currRunTask fun b => { b with tsliceCount := 0 }).ids = s.ids := by simp
      exact h1
    · simp
  have h1 : ((queueRemoveEntry timerTask (roundRobin s)).setTcb timerTask fun b =>
      { b with
        taskWaitReason := none, taskState := .runnable, pwaitQueue := none
        taskWaitRc := .noErr }).ids = s.ids := by simp [h]
  exact h1

/-- The services that make no task and delete none. -/
def Service.keepsTasks : Service → Bool
  | .suspend _ => true
  | .resume _ => true
  | .sleep _ => true
  | .wakeup _ => true
  | .activate _ => true
  | _ => false

theorem suspend_ids (t : TaskId) (s : Sched) : (tnTaskSuspend t s).2.ids = s.ids := by
  unfold tnTaskSuspend
  dsimp only
  repeat' split
  all_goals simp

theorem resume_ids (t : TaskId) (s : Sched) : (tnTaskResume t s).2.ids = s.ids := by
  unfold tnTaskResume
  dsimp only
  repeat' split
  all_goals simp

theorem wakeup_ids (t : TaskId) (s : Sched) : (tnTaskWakeup t s).2.ids = s.ids := by
  unfold tnTaskWakeup
  dsimp only
  repeat' split
  all_goals simp

theorem activate_ids (t : TaskId) (s : Sched) : (tnTaskActivate t s).2.ids = s.ids := by
  unfold tnTaskActivate
  dsimp only
  repeat' split
  all_goals simp

theorem sleep_ids (timeout : BitVec 32) (k : Kernel) : (k.sleep timeout).1.sch.ids = k.sch.ids := by
  unfold Kernel.sleep tnTaskSleep
  split
  · rename_i rc s h
    split at h
    · cases h
      rfl
    split at h
    · cases h
      simp [Kernel.retSch]
    · cases h
  · rename_i s h
    split at h
    · cases h
    split at h
    · cases h
    · cases h
      exact currToWait_ids _ _ _

/-! ## The queue -/

/-- The head of the queue, and the field `create_queue` of a task. -/
inductive CreateNode where
  | head
  | task (t : TaskId)
  deriving DecidableEq

/-- The kernel with the links of `tn_create_queue` and `tn_created_tasks_qty`. -/
structure CreateWorld where
  kern : Kernel
  links : Links CreateNode
  createdTasksQty : Int

/-- `tn_task_create`: `task_set_dormant_state`, then `queue_add_tail`. -/
def createNode (t : TaskId) (L : Links CreateNode) : Links CreateNode :=
  (L.reset (.task t)).addTail .head (.task t)

/-- The links and the count behind an event. -/
def createAfter (w : CreateWorld) : Event → Links CreateNode × Int
  | .task (.create t priority argsOk opt) =>
    if (tnTaskCreate t priority argsOk opt w.kern.sch).1 = .noErr then
      (createNode t w.links, w.createdTasksQty + 1)
    else (w.links, w.createdTasksQty)
  | .task (.exit attr) =>
    -- `task_set_dormant_state`
    let L := w.links.reset (.task w.kern.sch.currRunTask)
    if attr then (L.removeEntry (.task w.kern.sch.currRunTask), w.createdTasksQty - 1)
    else (L, w.createdTasksQty)
  | .task (.terminate t) =>
    if (tnTaskTerminate t w.kern.sch).1 = .noErr then (w.links.reset (.task t), w.createdTasksQty)
    else (w.links, w.createdTasksQty)
  | .task (.delete t) =>
    if (tnTaskDelete t w.kern.sch).1 = .noErr then
      (w.links.removeEntry (.task t), w.createdTasksQty - 1)
    else (w.links, w.createdTasksQty)
  | _ => (w.links, w.createdTasksQty)

def createMachine : Machine.Step CreateWorld Event Obs := fun w ev =>
  ((kernelMachine w.kern ev).1.map fun k' => ⟨k', (createAfter w ev).1, (createAfter w ev).2⟩,
    (kernelMachine w.kern ev).2)

/-- `tn_start_system` resets the head and creates the two system tasks. -/
def CreateWorld.start : CreateWorld where
  kern := Kernel.start
  links :=
    createNode idleTask (createNode timerTask ((Links.mk (fun x => x) fun x => x).reset .head))
  createdTasksQty := 2

/-- The queue is the ring of the existing tasks, and no other task is on a ready list. -/
def CreateOk (w : CreateWorld) : Prop :=
  (∃ l : List TaskId, IsRing w.links .head (l.map .task) ∧
    (∀ t, t ∈ l ↔ (w.kern.sch.tcb t).idTask = true) ∧ w.createdTasksQty = l.length) ∧
  ∀ t p, (w.kern.sch.tcb t).idTask = false → t ∉ w.kern.sch.que (.ready p)

/-- The events of tasks that come and go. -/
def Event.onTasks : Event → Bool
  | .task (.create _ _ _ _) => true
  | .task (.exit _) => true
  | .task (.terminate _) => true
  | .task (.delete _) => true
  | .task sv => sv.keepsTasks
  | .isr (.iactivate _) => true
  | .isr (.iwakeup _) => true
  | .isr _ => false
  | _ => true

/-- An event of the tasks that can happen. -/
def TaskEvent (w : CreateWorld) (ev : Event) : Prop := Enabled w.kern ev ∧ ev.onTasks = true

/-- `task_set_dormant_state` is not called for a task in the queue: no task exits, and
    `tn_task_terminate` finds no task to terminate. -/
def NoReset (k : Kernel) : Event → Prop
  | .task (.exit _) => False
  | .task (.terminate t) => (k.sch.tcb t).idTask = false ∨ (k.sch.tcb t).taskState = .dormant ∨
      k.sch.currRunTask = t
  | _ => True

/-! ## Steps -/

/-- The queue is a ring. -/
def RingInv (w : CreateWorld) : Prop :=
  ∃ l : List TaskId, IsRing w.links .head (l.map .task) ∧ (∀ t, t ∈ l ↔ w.kern.sch.ids t = true) ∧
    w.createdTasksQty = l.length

/-- An event that creates and deletes no task. -/
theorem RingInv.keep {w w' : CreateWorld} (h : RingInv w) (hl : w'.links = w.links)
    (hq : w'.createdTasksQty = w.createdTasksQty) (hi : w'.kern.sch.ids = w.kern.sch.ids) :
    RingInv w' := by
  unfold RingInv
  rw [hl, hq, hi]
  exact h

theorem RingInv.create {w w' : CreateWorld} (h : RingInv w) (ht : w.kern.sch.ids t = false)
    (hl : w'.links = createNode t w.links) (hq : w'.createdTasksQty = w.createdTasksQty + 1)
    (hi : w'.kern.sch.ids = Function.update w.kern.sch.ids t true) : RingInv w' := by
  obtain ⟨l, hr, hmem, hqty⟩ := h
  have hnot : t ∉ l := by
    rw [hmem, ht]
    simp
  have hnode : CreateNode.task t ∉ CreateNode.head :: l.map CreateNode.task := by simp [hnot]
  refine ⟨l ++ [t], ?_, ?_, ?_⟩
  · rw [hl, List.map_append]
    apply IsRing.addTail _ hnode
    apply hr.congr
    · intro x hx
      have hne : x ≠ .task t := by
        rintro rfl
        exact hnode hx
      simp [Links.reset, Links.setNext, Links.setPrev, hne]
    · intro x hx
      have hne : x ≠ .task t := by
        rintro rfl
        exact hnode hx
      simp [Links.reset, Links.setNext, Links.setPrev, hne]
  · intro u
    rw [hi]
    rcases eq_or_ne u t with rfl | hu
    · simp
    · simp [hu, hmem]
  · rw [hq, hqty]
    simp

theorem RingInv.delete {w w' : CreateWorld} (h : RingInv w) (ht : w.kern.sch.ids t = true)
    (hl : w'.links = w.links.removeEntry (.task t))
    (hq : w'.createdTasksQty = w.createdTasksQty - 1)
    (hi : w'.kern.sch.ids = Function.update w.kern.sch.ids t false) : RingInv w' := by
  obtain ⟨l, hr, hmem, hqty⟩ := h
  have hin : t ∈ l := (hmem t).mpr ht
  have hnd : l.Nodup := (List.nodup_cons.mp hr.1).2.of_map
  refine ⟨l.erase t, ?_, ?_, ?_⟩
  · have h1 := (hr.removeEntry (List.mem_map_of_mem hin)).1
    rw [hl, List.map_erase]
    · exact h1
    · intro a b hab
      cases hab
      rfl
  · intro u
    rw [hi, hnd.mem_erase_iff, hmem]
    rcases eq_or_ne u t with rfl | hu
    · simp
    · simp [hu]
  · have hpos := List.length_pos_of_mem hin
    rw [hq, hqty, List.length_erase_of_mem hin]
    omega

/-- `tn_task_create` makes a task that did not exist, or does nothing. -/
theorem create_ids (t : TaskId) (priority : Int) (argsOk : Bool) (opt : CreateOpt) (s : Sched) :
    ((tnTaskCreate t priority argsOk opt s).1 = .noErr ∧ s.ids t = false ∧
      (tnTaskCreate t priority argsOk opt s).2.ids = Function.update s.ids t true) ∨
    ((tnTaskCreate t priority argsOk opt s).1 ≠ .noErr ∧
      (tnTaskCreate t priority argsOk opt s).2 = s) := by
  unfold tnTaskCreate
  split
  · exact .inr ⟨by simp, rfl⟩
  split
  · exact .inr ⟨by simp, rfl⟩
  rename_i hargs
  refine .inl ⟨rfl, ?_, ?_⟩
  · simp only [not_or, Bool.not_eq_true] at hargs
    exact hargs.2.2.2
  · have h : ∀ s' : Sched, (taskSetDormantState t s').ids = s'.ids := fun s' => by
      simp [taskSetDormantState]
    dsimp only
    split
    · rw [toRunnable_ids, h, setTcb_ids_update]
      exact fun _ => rfl
    · rw [h, setTcb_ids_update]
      exact fun _ => rfl

/-- `tn_task_delete` deletes a task, or does nothing. -/
theorem delete_ids (t : TaskId) (s : Sched) :
    ((tnTaskDelete t s).1 = .noErr ∧ s.ids t = true ∧
      (tnTaskDelete t s).2.ids = Function.update s.ids t false) ∨
    ((tnTaskDelete t s).1 ≠ .noErr ∧ (tnTaskDelete t s).2 = s) := by
  unfold tnTaskDelete
  dsimp only
  split
  · exact .inr ⟨by simp, rfl⟩
  split
  · exact .inr ⟨by simp, rfl⟩
  rename_i hid _
  refine .inl ⟨rfl, by simpa [Sched.ids] using hid, setTcb_ids_update s t fun _ => rfl⟩

/-- `tn_task_terminate` that refuses. -/
theorem terminate_refuses (h : (s.tcb t).idTask = false ∨ (s.tcb t).taskState = .dormant ∨
    s.currRunTask = t) : (tnTaskTerminate t s).1 ≠ .noErr ∧ (tnTaskTerminate t s).2 = s := by
  unfold tnTaskTerminate
  dsimp only
  split
  · exact ⟨by simp, rfl⟩
  rename_i hid
  rw [if_pos (h.resolve_left (by simpa using hid))]
  exact ⟨by simp, rfl⟩

/-- **A step keeps the ring.** -/
theorem RingInv.step {w : CreateWorld} {ev : Event} (h : RingInv w) (he : ev.onTasks = true)
    (hn : NoReset w.kern ev) {r : Res} (hr : kernelStep w.kern ev = some r) :
    RingInv ⟨r.1, (createAfter w ev).1, (createAfter w ev).2⟩ := by
  have keeps : r.1.sch.ids = w.kern.sch.ids → createAfter w ev = (w.links, w.createdTasksQty) →
      RingInv ⟨r.1, (createAfter w ev).1, (createAfter w ev).2⟩ := by
    intro hi hl
    rw [hl]
    exact h.keep rfl rfl hi
  cases ev with
  | task sv =>
    cases sv
    case create t priority argsOk opt =>
      simp only [kernelStep, taskStep] at hr
      rcases create_ids t priority argsOk opt w.kern.sch with ⟨h1, h2, h3⟩ | ⟨h1, h2⟩
      · rw [if_pos h1] at hr
        cases hr
        simp only [createAfter, if_pos h1]
        exact h.create h2 rfl rfl h3
      · rw [if_neg h1] at hr
        cases hr
        apply keeps
        · exact congrArg Sched.ids h2
        · simp only [createAfter, if_neg h1]
    case exit => exact hn.elim
    case terminate t =>
      cases hr
      obtain ⟨h1, h2⟩ := terminate_refuses hn
      apply keeps
      · simp only [Kernel.terminate, if_neg h1]
        exact congrArg Sched.ids h2
      · simp only [createAfter, if_neg h1]
    case delete t =>
      cases hr
      rcases delete_ids t w.kern.sch with ⟨h1, h2, h3⟩ | ⟨h1, h2⟩
      · simp only [createAfter, if_pos h1]
        exact h.delete h2 rfl rfl h3
      · apply keeps
        · exact congrArg Sched.ids h2
        · simp only [createAfter, if_neg h1]
    case suspend t =>
      cases hr
      exact keeps (suspend_ids t _) rfl
    case resume t =>
      cases hr
      exact keeps (resume_ids t _) rfl
    case sleep timeout =>
      cases hr
      exact keeps (sleep_ids timeout _) rfl
    case wakeup t =>
      cases hr
      exact keeps (wakeup_ids t _) rfl
    case activate t =>
      cases hr
      exact keeps (activate_ids t _) rfl
    all_goals cases he
  | isr sv =>
    cases hr
    cases sv
    case iactivate t => exact keeps (activate_ids t _) rfl
    case iwakeup t => exact keeps (wakeup_ids t _) rfl
    all_goals cases he
  | tick =>
    cases hr
    exact keeps (tick_ids _) rfl
  | timerLoop =>
    cases hr
    have hids : (timerTaskLoop w.kern.sch).ids = w.kern.sch.ids := by
      unfold timerTaskLoop
      rw [currToWait_ids, timeouts_ids]
    exact keeps hids rfl
  | switchContext =>
    cases hr
    exact keeps rfl rfl
  | back =>
    cases hr
    refine keeps ?_ rfl
    show (Kernel.back w.kern).1.sch.ids = _
    unfold Kernel.back
    dsimp only
    split <;> rfl

/-! ## Runs -/

theorem exitOk_of_noReset {ev : Event} (h : NoReset k ev) : ExitOk k ev := by
  intro hx
  unfold Event.exitsDeleted at hx
  split at hx
  · exact h.elim
  · cases hx

theorem RingInv.start : RingInv CreateWorld.start := by
  have h0 := Cdll.isRing_reset (Links.mk (fun x => x) fun x => x) CreateNode.head
  have h1 : RingInv ⟨{ Kernel.start with sch := Sched.empty }, _, 0⟩ :=
    ⟨[], h0, by simp [Sched.ids, Sched.empty], rfl⟩
  have h2 : RingInv ⟨{ Kernel.start with
      sch := (tnTaskCreate timerTask 0 true { timer := true } Sched.empty).2 }, _, 1⟩ :=
    h1.create (t := timerTask) rfl rfl rfl (by
      rcases create_ids timerTask 0 true { timer := true } Sched.empty with ⟨-, -, h3⟩ | ⟨h3, -⟩
      · exact h3
      · exact absurd rfl h3)
  refine h2.create (t := idleTask) rfl rfl rfl ?_
  have h3 : (tnTaskCreate idleTask 31 true { idle := true }
      (tnTaskCreate timerTask 0 true { timer := true } Sched.empty).2).2.ids =
      Function.update (tnTaskCreate timerTask 0 true { timer := true } Sched.empty).2.ids idleTask
        true := by
    rcases create_ids idleTask 31 true { idle := true }
      (tnTaskCreate timerTask 0 true { timer := true } Sched.empty).2 with ⟨-, -, h3⟩ | ⟨h3, -⟩
    · exact h3
    · exact absurd rfl h3
  rw [← h3]
  show tnStartSystem.ids = _
  simp [tnStartSystem]

/-- **The create queue lists the existing tasks.**  In every state of every run of task services in which
    no task exits and `tn_task_terminate` terminates none, `tn_create_queue` is a ring of the tasks with
    `id_task == TN_ID_TASK`, each once, `tn_created_tasks_qty` is its length, and no other task is on a
    ready list. -/
theorem create_queue_ok (es : List Event) (w : CreateWorld)
    (hg : Machine.Guarded createMachine (fun w ev => TaskEvent w ev ∧ NoReset w.kern ev)
      (some CreateWorld.start) es)
    (hw : (Machine.run createMachine (some CreateWorld.start) es).1 = some w) : CreateOk w := by
  have hinv : KInv w.kern ∧ RingInv w := by
    refine (Machine.run_invariant (fun w => KInv w.kern ∧ RingInv w) (fun _ => True) ?_ ?_ hg).1 w hw
    · rintro w ev ⟨hk, hr⟩ ⟨⟨hen, hev⟩, hn⟩
      refine ⟨fun w' hw' => ?_, fun _ _ => trivial⟩
      obtain ⟨k', hk', rfl⟩ := Option.map_eq_some_iff.mp hw'
      obtain ⟨r, hr', rfl⟩ := Option.map_eq_some_iff.mp hk'
      exact ⟨hk.step hen (exitOk_of_noReset hn) hr', hr.step hev hn hr'⟩
    · intro w hw
      cases hw
      exact ⟨KInv.start, RingInv.start⟩
  refine ⟨hinv.2, fun t p hid hmem => ?_⟩
  have hdorm := (hinv.1.sch.ok t).dormant hid
  have hrun := (((hinv.1.sch.ok t).ready p).mp hmem).1
  rw [hdorm] at hrun
  cases hrun

instance (k : Kernel) : ∀ ev, Decidable (NoReset k ev)
  | .task sv => by induction sv using Service.casesOn <;> unfold NoReset <;> infer_instance
  | .isr _ => .isTrue trivial
  | .tick => .isTrue trivial
  | .timerLoop => .isTrue trivial
  | .switchContext => .isTrue trivial
  | .back => .isTrue trivial

instance (w : CreateWorld) (ev : Event) : Decidable (TaskEvent w ev) :=
  inferInstanceAs (Decidable (_ ∧ _))

/-- Task 2 runs; it creates task 4 and deletes it again, and creates and activates task 5. -/
def createRun : List Event :=
  twoTasks ++ [.task (.create 4 6 true {}), .task (.delete 4), .task (.terminate 2),
    .task (.create 5 6 true {}), .task (.activate 5), .task (.create 4 7 true {})]

theorem createRun_isSome :
    (Machine.run createMachine (some CreateWorld.start) createRun).1.isSome = true := by
  decide +kernel

theorem create_queue_ok_deleted :
    CreateOk ((Machine.run createMachine (some CreateWorld.start) createRun).1.get
      createRun_isSome) := by
  have hw := (Option.some_get createRun_isSome).symm
  exact create_queue_ok createRun _ (by decide +kernel) hw

/-- Task 2 exits. -/
def exitRun : List Event := twoTasks ++ [.task (.exit false)]

theorem exitRun_isSome :
    (Machine.run createMachine (some CreateWorld.start) exitRun).1.isSome = true := by
  decide +kernel

/-- The node of a task that has exited is alone, and the task exists. -/
theorem exit_breaks_create_queue :
    ¬ ∀ (es : List Event) (w : CreateWorld),
      Machine.Guarded createMachine TaskEvent (some CreateWorld.start) es →
      (Machine.run createMachine (some CreateWorld.start) es).1 = some w → CreateOk w := by
  intro h
  have hw := (Option.some_get exitRun_isSome).symm
  obtain ⟨⟨l, hr, hmem, -⟩, -⟩ := h exitRun _ (by decide +kernel) hw
  have h2 : 2 ∈ l := (hmem 2).mpr (by decide +kernel)
  exact hr.next_ne (List.mem_map_of_mem h2) (by decide +kernel)

end TnKernel
