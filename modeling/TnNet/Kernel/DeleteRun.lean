import TnNet.Kernel.Delete

/-!
# What a delete tells the tasks that wait

* `code_step` — an event leaves the code of a task that does not wait.
* `DelInv` — the invariant of the machine: a list that a call has found empty is empty, and a task that
  has been waiting when a call began still waits or has `TERR_DLT`.
* `deletes_tell` — in every run in which no such task is suspended when it is released, nothing but the
  delete ends its wait, and no task comes to a list that has been found empty, every such task returns
  with `TERR_DLT`, and a delete leaves all lists of its object empty and its id cleared.
-/

set_option autoImplicit false

namespace TnKernel

variable {k : Kernel} {t u : TaskId} {q : Que} {w : DelWorld} {ev : Event} {r : Res}

/-! ## The code of a task that does not wait -/

theorem Covers.mono {p p' : TaskId → Prop} {s : Sched} (hc : Covers p s) (h : ∀ t, p t → p' t) :
    Covers p' s :=
  ⟨fun t ht => h t (hc.state t ht), fun t q hq ht => h t (hc.list t q hq ht),
    fun t q hq => h t (hc.queue t q hq)⟩

theorem sleep_code (timeout : BitVec 32) (t : TaskId) :
    ((k.sleep timeout).1.sch.tcb t).taskWaitRc = (k.sch.tcb t).taskWaitRc := by
  unfold Kernel.sleep tnTaskSleep
  split
  · rename_i rc s h
    split at h
    · cases h
      rfl
    split at h
    · cases h
      rcases eq_or_ne t k.sch.currRunTask with rfl | hne
      · simp [Kernel.retSch]
      · simp [Kernel.retSch, setTcb_ne _ _ hne]
    · cases h
  · rename_i s h
    split at h
    · cases h
    split at h
    · cases h
    · cases h
      exact (moves_block (w := fun _ => False) none .sleep timeout k.sch).code t id

theorem wakeup_code {p : TaskId → Prop} {s : Sched} (hc : Covers p s) (u : TaskId) (ht : ¬ p t) :
    ((tnTaskWakeup u s).2.tcb t).taskWaitRc = (s.tcb t).taskWaitRc := by
  cases hr : (s.tcb u).remembers
  · exact (wakeup_other hc hr).code t ht
  · rw [wakeup_counts hr]
    split
    · rcases eq_or_ne t s.currRunTask with rfl | hne
      · simp
      · rw [setTcb_ne _ _ hne]
    · rfl

/-- **The code of a task that does not wait** changes only when the task starts from the beginning. -/
theorem code_step (hk : KInv k) (he : Enabled k ev) (ht : t ≠ timerTask) (hr : kernelStep k ev = some r)
    (hw : (k.sch.tcb t).taskState.isWait = false) (hn : ev.restarts k ≠ some t) :
    (r.1.sch.tcb t).taskWaitRc = (k.sch.tcb t).taskWaitRc := by
  -- the tasks whose code may be written
  have hc : Covers (fun u => (k.sch.tcb u).taskState.isWait = true ∨ u = timerTask) k.sch :=
    hk.sch.covers.mono fun _ => .inl
  have hnot : ¬ ((k.sch.tcb t).taskState.isWait = true ∨ t = timerTask) := by simp [hw, ht]
  cases hs : ev.resets
  · exact (moves_step hc (.inr rfl) hs hr).code t hnot
  cases ev with
  | timerLoop =>
    cases hr
    have htcb := timerLoop_tcb hk.sch he.1 ht
    rw [if_neg fun hm => by rw [((hk.sch.ok t).timeouts.mp hm).1] at hw; cases hw] at htcb
    exact congrArg Tcb.taskWaitRc htcb
  | isr sv =>
    cases hr
    cases sv with
    | iwakeup u => exact wakeup_code hc u hnot
    | _ => cases hs
  | task sv =>
    cases sv with
    | create u priority argsOk opt =>
      rw [create_sch u priority argsOk opt hr]
      by_cases hrc : (tnTaskCreate u priority argsOk opt k.sch).1 = .noErr
      · have hne : t ≠ u := by
          rintro rfl
          exact hn (if_pos hrc)
        rw [(tnTaskCreate_frame u priority argsOk opt k.sch).tcb t hne]
      · rw [create_refused hrc]
    | sleep timeout =>
      cases hr
      exact sleep_code timeout t
    | wakeup u =>
      cases hr
      exact wakeup_code hc u hnot
    | exit attr =>
      cases hr
      have hne : t ≠ k.sch.currRunTask := by
        rintro rfl
        exact hn rfl
      have hf := (exitTask_frame attr k.sch).tcb t hne
      exact congrArg Tcb.taskWaitRc hf
    | terminate u =>
      cases hr
      rw [terminate_sch]
      by_cases hrc : (tnTaskTerminate u k.sch).1 = .noErr
      · have hne : t ≠ u := by
          rintro rfl
          exact hn (if_pos hrc)
        rw [(terminate_wakeups hrc).2.tcb t hne]
      · rw [terminate_refused hrc]
    | _ => cases hs
  | _ => cases hs

/-! ## One release -/

theorem Obj.not_ready {o : Obj} (hq : q ∈ o.lists) : q.isReady = false := by
  cases o <;> simp [Obj.lists] at hq <;> (try rcases hq with rfl | rfl) <;> simp_all [Que.isReady]

/-- What a release does: the task waits no more, and has `TERR_DLT` unless it is suspended. -/
structure Released (k k' : Kernel) (u : TaskId) : Prop where
  kinv : KInv k'
  wait : (k'.sch.tcb u).taskState.isWait = false
  code : (k.sch.tcb u).taskState.isSuspend = false → (k'.sch.tcb u).taskWaitRc = .dlt
  other : ∀ t, t ≠ u → k'.sch.tcb t = k.sch.tcb t
  que : ∀ q, q.isReady = false → ∀ t ∈ k'.sch.que q, t ∈ k.sch.que q
  curr : k'.sch.currRunTask = k.sch.currRunTask

/-- The state behind a release. -/
def toldState (q : Que) (u : TaskId) (s : Sched) : Sched :=
  let r := taskWaitComplete u false (queueRemoveHead q s)
  if r.1 then r.2.setTcb u fun b => { b with taskWaitRc := .dlt } else r.2

theorem toldState_ne {s : Sched} (ht : t ≠ u) : (toldState q u s).tcb t = s.tcb t := by
  unfold toldState
  dsimp only
  split
  · rw [setTcb_ne _ _ ht, waitComplete_ne ht]
    rfl
  · rw [waitComplete_ne ht]
    rfl

theorem toldState_self (q : Que) (u : TaskId) (s : Sched) : (toldState q u s).tcb u =
    if (s.tcb u).taskState.isSuspend then (s.tcb u).released
    else { (s.tcb u).released with taskWaitRc := .dlt } := by
  have hb : (queueRemoveHead q s).tcb u = s.tcb u := rfl
  unfold toldState
  simp only [waitComplete_fst, hb]
  cases hs : (s.tcb u).taskState.isSuspend <;> simp [hb]

theorem toldState_que {s : Sched} (q q' : Que) (hq : q'.isReady = false)
    (ht : t ∈ (toldState q u s).que q') : t ∈ s.que q' := by
  have h1 : (toldState q u s).que q' = (queueRemoveHead q s).que q' := by
    unfold toldState
    dsimp only
    split
    · rw [setTcb_que, waitComplete_que hq]
      rfl
    · rw [waitComplete_que hq]
      rfl
  rw [h1] at ht
  unfold queueRemoveHead at ht
  dsimp only at ht
  rcases eq_or_ne q' q with rfl | hne
  · rw [Function.update_self] at ht
    exact List.mem_of_mem_tail ht
  · rwa [Function.update_of_ne hne] at ht

theorem toldState_curr (q : Que) (u : TaskId) (s : Sched) :
    (toldState q u s).currRunTask = s.currRunTask := by
  unfold toldState
  dsimp only
  split <;> simp [queueRemoveHead]

theorem KInv.told (hk : KInv k) (hq : q.isReady = false) {l : List TaskId} (hl : k.sch.que q = u :: l) :
    KInv { k with sch := toldState q u k.sch } := by
  have hs : SInv none (toldState q u k.sch) := by
    have h1 : SInv none (taskWaitComplete u false (queueRemoveHead q k.sch)).2 := (hk.wakeHead hq hl).1
    unfold toldState
    dsimp only
    split
    · exact h1.keep (t := u) (f := fun b => { b with taskWaitRc := .dlt }) (.of_eq rfl id)
    · exact h1
  have hself := toldState_self q u k.sch
  refine hk.of_tasks (grows_sch k _) hs hk.timer fun t => ?_
  rcases eq_or_ne t u with rfl | ht
  · refine .of_not_wait ?_ ?_
    · show ((toldState q t k.sch).tcb t).taskState.isWait = false
      rw [hself]
      split <;> simp
    · show ((toldState q t k.sch).tcb t).pwaitQueue = none
      rw [hself]
      split <;> rfl
  · refine (hk.task t).of_view (grows_sch k _) rfl ?_
    show ((toldState q u k.sch).tcb t).waitView = _
    rw [toldState_ne ht]

/-- The state in front of a release: a task that waits for a mutex leaves `tn_blocked_tasks_list`. -/
def Kernel.unblock (k : Kernel) (o : Obj) (t : TaskId) : Kernel :=
  match o with
  | .mutex _ => { k with sch := { k.sch with blockedTasksList := k.sch.blockedTasksList.erase t } }
  | _ => k

theorem releaseDlt_eq (o : Obj) (q : Que) (u : TaskId) (k : Kernel) :
    k.releaseDlt o q u = (!(k.sch.tcb u).taskState.isSuspend,
      { k.unblock o u with sch := toldState q u (k.unblock o u).sch }) := by
  cases o <;> simp [Kernel.releaseDlt, Kernel.unblock, toldState, queueRemoveHead]

/-- **A release.** -/
theorem KInv.releaseDlt (hk : KInv k) {o : Obj} (hq : q ∈ o.lists) {l : List TaskId}
    (hl : k.sch.que q = u :: l) : Released k (k.releaseDlt o q u).2 u := by
  have hn := Obj.not_ready hq
  have hk1 : KInv (k.unblock o u) ∧ (k.unblock o u).sch.tcb = k.sch.tcb ∧
      (k.unblock o u).sch.que = k.sch.que ∧
      (k.unblock o u).sch.currRunTask = k.sch.currRunTask := by
    cases o with
    | mutex i =>
      refine ⟨?_, rfl, rfl, rfl⟩
      have h := acts_blocked (a := Allow.any) hk (k.sch.blockedTasksList.erase u) silent_nil
      exact h.kinv hk
    | _ => exact ⟨hk, rfl, rfl, rfl⟩
  obtain ⟨hk1, htcb, hque, hcurr⟩ := hk1
  rw [releaseDlt_eq]
  have hself := toldState_self q u (k.unblock o u).sch
  rw [htcb] at hself
  constructor
  case kinv => exact hk1.told hn (by rw [hque]; exact hl)
  case wait =>
    show ((toldState q u (k.unblock o u).sch).tcb u).taskState.isWait = false
    rw [hself]
    split <;> simp
  case code =>
    intro hs
    show ((toldState q u (k.unblock o u).sch).tcb u).taskWaitRc = .dlt
    rw [hself, hs]
    rfl
  case other =>
    intro t ht
    show (toldState q u (k.unblock o u).sch).tcb t = k.sch.tcb t
    rw [toldState_ne ht, htcb]
  case que =>
    intro q' hq' t ht
    have hm := toldState_que q q' hq' ht
    rwa [hque] at hm
  case curr => exact (toldState_curr q u _).trans hcurr

/-! ## The id is cleared -/

/-- The scheduler behind a delete: a mutex has left the list of its holder. -/
theorem clearId_sch (k : Kernel) (o : Obj) : (k.clearId o).sch = k.sch ∨
    ∃ h i, (k.clearId o).sch = k.sch.setTcb h fun b => { b with mutexQueue := b.mutexQueue.erase i } := by
  cases o with
  | mutex i =>
    cases hh : (k.mutex i).holder with
    | none => exact .inl (by simp [Kernel.clearId, hh, Kernel.setMutex])
    | some h => exact .inr ⟨h, i, by simp [Kernel.clearId, hh, Kernel.setMutex]⟩
  | _ => exact .inl rfl

theorem clearId_tcb (k : Kernel) (o : Obj) (t : TaskId) :
    ((k.clearId o).sch.tcb t).taskState = (k.sch.tcb t).taskState ∧
      ((k.clearId o).sch.tcb t).taskWaitRc = (k.sch.tcb t).taskWaitRc ∧
      ((k.clearId o).sch.tcb t).pwaitQueue = (k.sch.tcb t).pwaitQueue ∧
      ((k.clearId o).sch.tcb t).dataElem = (k.sch.tcb t).dataElem := by
  rcases clearId_sch k o with h | ⟨u, i, h⟩
  · rw [h]
    exact ⟨rfl, rfl, rfl, rfl⟩
  · rw [h]
    rcases eq_or_ne t u with rfl | hne
    · simp
    · simp [setTcb_ne _ _ hne]

theorem clearId_que (k : Kernel) (o : Obj) : (k.clearId o).sch.que = k.sch.que := by
  rcases clearId_sch k o with h | ⟨u, i, h⟩ <;> rw [h]
  rfl

theorem clearId_pend (k : Kernel) (o : Obj) : (k.clearId o).pend = k.pend := by
  cases o with
  | mutex i =>
    unfold Kernel.clearId Kernel.setMutex
    dsimp only
    split <;> rfl
  | _ => rfl

theorem clearId_holder (k : Kernel) (o : Obj) (m : Nat) :
    ((k.clearId o).mutex m).holder = (k.mutex m).holder := by
  cases o with
  | mutex i =>
    have hm : ∀ k' : Kernel, k'.mutex = k.mutex →
        ((k'.setMutex i { k'.mutex i with idMutex := false }).mutex m).holder = (k.mutex m).holder := by
      intro k' h
      unfold Kernel.setMutex
      rw [h]
      rcases eq_or_ne m i with rfl | hne
      · simp
      · simp [hne]
    unfold Kernel.clearId
    dsimp only
    split <;> exact hm _ rfl
  | _ => rfl

theorem clearId_hasObj (k : Kernel) (o : Obj) : (k.clearId o).hasObj o = false := by
  cases o with
  | mutex i =>
    unfold Kernel.clearId Kernel.setMutex Kernel.hasObj
    dsimp only
    split <;> simp
  | _ => simp [Kernel.clearId, Kernel.hasObj, Kernel.setSem, Kernel.setDque, Kernel.setEvf, Kernel.setFmp]

/-- The wait lists of the other objects keep their objects. -/
theorem clearId_live (k : Kernel) {o : Obj} (hq : q ∉ o.lists) (hl : k.live q = true) :
    (k.clearId o).live q = true := by
  cases o with
  | mutex i =>
    have hm : ∀ k' : Kernel, k'.live q = true →
        (k'.setMutex i { k'.mutex i with idMutex := false }).live q = true := by
      intro k' h
      cases q <;> simp_all [Kernel.live, Kernel.setMutex, Obj.lists]
    unfold Kernel.clearId
    dsimp only
    split <;> exact hm _ hl
  | _ =>
    cases q <;> simp_all [Kernel.live, Kernel.clearId, Obj.lists, Kernel.setSem, Kernel.setDque,
      Kernel.setEvf, Kernel.setFmp]

/-- **The end of a delete**, when no task is left in a list. -/
theorem KInv.clearId (hk : KInv k) {o : Obj} (he : ∀ q ∈ o.lists, k.sch.que q = []) :
    KInv (k.clearId o) := by
  have htcb := clearId_tcb k o
  have hpend := clearId_pend k o
  constructor
  case sch =>
    rcases clearId_sch k o with h | ⟨u, i, h⟩
    · rw [h]
      exact hk.sch
    · rw [h]
      exact hk.sch.keep (t := u) (f := fun b => { b with mutexQueue := b.mutexQueue.erase i })
        (.of_eq rfl id)
  case live =>
    intro t q hq
    rw [(htcb t).2.2.1] at hq
    refine clearId_live k (fun hm => ?_) (hk.live t q hq)
    have hin := ((hk.sch.ok t).waits q (Obj.not_ready hm)).mpr hq
    rw [he q hm] at hin
    cases hin
  case call =>
    intro t q hq hres
    rw [(htcb t).2.2.1] at hq
    rw [hpend, (htcb t).2.2.2]
    exact hk.call t q hq hres
  case wait =>
    intro t c hw hc hres
    rw [(htcb t).1] at hw
    rw [hpend] at hc
    obtain ⟨q, hq, hqr⟩ := hk.wait t c hw hc hres
    exact ⟨q, (htcb t).2.2.1.trans hq, hqr⟩
  case timer =>
    rw [hpend]
    exact hk.timer
  case holder =>
    intro m h hh
    rw [clearId_holder] at hh
    exact hk.holder m h hh

/-! ## The machine -/

structure DelInv (w : DelWorld) : Prop where
  kinv : KInv w.k
  /-- The lists that a call has found empty. -/
  empty : ∀ p ∈ w.del, ∀ q ∈ p.2.obj.lists, q ∉ p.2.rest → w.k.sch.que q = []
  sub : ∀ p ∈ w.del, ∀ q ∈ p.2.rest, q ∈ p.2.obj.lists
  told : ∀ t ∈ w.waiters,
    t ≠ timerTask ∧ ((w.k.sch.tcb t).taskState.isWait = true ∨ (w.k.sch.tcb t).taskWaitRc = .dlt)

theorem DelInv.start : DelInv .start := by
  refine ⟨KInv.start, ?_, ?_, ?_⟩ <;> simp [DelWorld.start]

theorem frame_mem {d : Del} (hd : w.frame = some d) : (w.k.sch.currRunTask, d) ∈ w.del := by
  obtain ⟨l₁, l₂, h, -⟩ := List.lookup_eq_some_iff.mp hd
  rw [h]
  simp

theorem others_mem {p : TaskId × Del} (hp : p ∈ w.others) : p ∈ w.del := (List.mem_filter.mp hp).1

/-- An event of the kernel. -/
theorem DelInv.kernel (h : DelInv w) (he : DelEnabled w (.kernel ev)) (hq : DelQuiet w (.kernel ev))
    {x : DelWorld × List Obs} (hx : w.kernel ev = some x) : DelInv x.1 := by
  obtain ⟨r, hr, rfl⟩ := Option.map_eq_some_iff.mp hx
  obtain ⟨hwait, hempty⟩ := hq r hr
  refine ⟨h.kinv.step he.2.1 he.2.2.1 hr, fun p hp => hempty p (List.mem_filter.mp hp).1,
    fun p hp => h.sub p (List.mem_filter.mp hp).1, fun t ht => ?_⟩
  obtain ⟨ht, hn⟩ := List.mem_filter.mp ht
  have hn : ev.restarts w.k ≠ some t := by
    rintro heq
    simp [Event.leaves, heq] at hn
  obtain ⟨h1, h2⟩ := h.told t ht
  refine ⟨h1, ?_⟩
  cases hw : (w.k.sch.tcb t).taskState.isWait
  · right
    rw [code_step h.kinv he.2.1 h1 hr hw hn]
    exact h2.resolve_left (by rw [hw]; simp)
  · exact .inl (hwait t ht hn hw)

/-- The call of a delete service. -/
theorem DelInv.call (h : DelInv w) (o : Obj) : DelInv (w.call o).1 := by
  unfold DelWorld.call
  split
  · refine ⟨h.kinv, fun p hp => ?_, fun p hp => ?_, fun t ht => ?_⟩
    · rcases List.mem_cons.mp hp with rfl | hp
      · exact fun q hq hn => absurd hq hn
      · exact h.empty p (others_mem hp)
    · rcases List.mem_cons.mp hp with rfl | hp
      · exact fun q hq => hq
      · exact h.sub p (others_mem hp)
    · rcases List.mem_append.mp ht with ht | ht
      · exact h.told t ht
      · obtain ⟨q, hq, hm⟩ := List.mem_flatMap.mp ht
        have hp := ((h.kinv.sch.ok t).waits q (Obj.not_ready hq)).mp hm
        refine ⟨?_, .inl ((h.kinv.sch.ok t).wait q hp).1⟩
        rintro rfl
        rw [((h.kinv.sch.ok timerTask).timer rfl).1] at hp
        cases hp
  · exact h

/-- **One step of a delete service.** -/
theorem DelInv.step (h : DelInv w) {d : Del} (hd : w.frame = some d) (hq : DelQuiet w .next) :
    DelInv (d.step w).1 := by
  have hsub := h.sub _ (frame_mem hd)
  have hempty := h.empty _ (frame_mem hd)
  have hother := fun p (hp : p ∈ w.others) => h.empty p (others_mem hp)
  have hothersub := fun p (hp : p ∈ w.others) => h.sub p (others_mem hp)
  dsimp only at hsub hempty
  unfold Del.step
  dsimp only
  split
  · -- all lists have been found empty
    rename_i hr
    have hall : ∀ q ∈ d.obj.lists, w.k.sch.que q = [] := fun q hq => hempty q hq (by rw [hr]; simp)
    refine ⟨h.kinv.clearId hall, fun p hp => ?_, hothersub, fun t ht => ?_⟩
    · rw [clearId_que]
      exact hother p hp
    · obtain ⟨h1, h2⟩ := h.told t ht
      obtain ⟨hs, hrc, -⟩ := clearId_tcb w.k d.obj t
      exact ⟨h1, by rw [hs, hrc]; exact h2⟩
  · -- a test
    rename_i q rest hr hf
    have hin : ∀ q', q' ∈ q :: rest → q' ∈ d.obj.lists := by rwa [hr] at hsub
    refine ⟨h.kinv, fun p hp => ?_, fun p hp => ?_, h.told⟩
    · rcases List.mem_cons.mp hp with rfl | hp
      · intro q' hq' hn
        dsimp only at hq' hn
        split at hq'
        · rename_i hnil
          rw [if_pos hnil] at hn
          rcases eq_or_ne q' q with rfl | hne
          · exact hnil
          · exact hempty q' hq' (by rw [hr]; simp [hne]; exact hn)
        · rename_i hnil
          rw [if_neg hnil] at hn
          exact hempty q' hq' hn
      · exact hother p hp
    · rcases List.mem_cons.mp hp with rfl | hp
      · intro q' hq'
        dsimp only at hq' ⊢
        split
        · rename_i hnil
          rw [if_pos hnil] at hq'
          exact hin q' (List.mem_cons_of_mem q hq')
        · rename_i hnil
          rw [if_neg hnil] at hq'
          exact hsub q' hq'
      · exact hothersub p hp
  · -- a release
    rename_i q rest hr hf
    have hframes : ∀ p ∈ (w.k.sch.currRunTask, { d with found := false }) :: w.others,
        (∀ q ∈ p.2.obj.lists, q ∉ p.2.rest → w.k.sch.que q = []) ∧ ∀ q ∈ p.2.rest,
        q ∈ p.2.obj.lists := by
      intro p hp
      rcases List.mem_cons.mp hp with rfl | hp
      · exact ⟨hempty, hsub⟩
      · exact ⟨hother p hp, hothersub p hp⟩
    split
    · rename_i u l hl
      have hrel := h.kinv.releaseDlt (hsub q (by rw [hr]; exact List.mem_cons_self)) hl
      have hque : ∀ q', q'.isReady = false → w.k.sch.que q' = [] →
          (w.k.releaseDlt d.obj q u).2.sch.que q' = [] := by
        intro q' hn hnil
        rw [List.eq_nil_iff_forall_not_mem]
        intro t ht
        have hm := hrel.que q' hn t ht
        rw [hnil] at hm
        cases hm
      refine ⟨hrel.kinv, fun p hp q' hq' hn => ?_, fun p hp => (hframes p hp).2, fun t ht => ?_⟩
      · exact hque q' (Obj.not_ready hq') ((hframes p hp).1 q' hq' hn)
      · obtain ⟨h1, h2⟩ := h.told t ht
        refine ⟨h1, ?_⟩
        rcases eq_or_ne t u with rfl | hne
        · exact .inr (hrel.code (hq d hd hf q (by rw [hr]; rfl) t (by rw [hl]; rfl) ht))
        · dsimp only
          rw [hrel.other t hne]
          exact h2
    · exact ⟨h.kinv, fun p hp => (hframes p hp).1, fun p hp => (hframes p hp).2, h.told⟩

theorem DelInv.next (h : DelInv w) (hq : DelQuiet w .next) {x : DelWorld × List Obs}
    (hx : delStep w .next = some x) : DelInv x.1 := by
  obtain ⟨d, hd, rfl⟩ := Option.map_eq_some_iff.mp hx
  exact h.step hd hq

/-- The last step. -/
theorem step_last {d : Del} (hr : d.rest = []) : (d.step w).1.k = w.k.clearId d.obj := by
  unfold Del.step
  dsimp only
  split
  · rfl
  · rename_i h' _
    rw [hr] at h'
    cases h'
  · rename_i h' _
    rw [hr] at h'
    cases h'

/-- **The invariant tells what a step does.** -/
theorem DelInv.tells (h : DelInv w) {ev : DelEvent} (he : DelEnabled w ev) : DelTells w ev := by
  cases ev with
  | kernel ev =>
    cases ev with
    | back =>
      intro hw o ho
      obtain ⟨-, h2⟩ := h.told _ hw
      have hrun : (w.k.sch.tcb w.k.sch.currRunTask).taskState = .runnable := he.2.1.1
      have hdlt := h2.resolve_left (by rw [hrun]; simp [TaskState.isWait])
      unfold Kernel.back at ho
      dsimp only at ho
      split at ho
      · rename_i c hp
        rw [List.mem_singleton] at ho
        subst ho
        cases c <;> simp [Obs.isDlt, backRc, hdlt]
      · cases ho
    | _ => trivial
  | call o => trivial
  | next =>
    intro d hd hr
    have hall : ∀ q ∈ d.obj.lists, w.k.sch.que q = [] := fun q hq =>
      h.empty _ (frame_mem hd) q hq (by rw [hr]; simp)
    rw [step_last hr, clearId_que]
    exact ⟨hall, clearId_hasObj _ _⟩

/-- **Deleting an object tells every waiter.** -/
theorem deletes_tell (evs : List DelEvent)
    (hg : Machine.Guarded delMachine (fun w ev => DelEnabled w ev ∧ DelQuiet w ev) (some .start) evs) :
    Machine.Guarded delMachine DelTells (some .start) evs := by
  refine Machine.Guarded.strengthen DelInv (fun w ev w' h hc hw' => ?_)
    (fun w ev h hc => h.tells hc.1) ?_ hg
  · obtain ⟨x, hx, rfl⟩ := Option.map_eq_some_iff.mp hw'
    cases ev with
    | kernel ev => exact h.kernel hc.1 hc.2 hx
    | call o =>
      cases hx
      exact h.call o
    | next => exact h.next hc.2 hx
  · intro w hw
    cases hw
    exact .start

/-- Task 2 waits for a semaphore that task 3 deletes; `middle` comes in between. -/
def deleteRun (middle : List DelEvent) : List DelEvent :=
  twoTasks.map .kernel ++
    [.kernel (.task (.semCreate 0 0 1)), .kernel (.task (.semAcquire 0 TN_WAIT_INFINITE)),
    .kernel .switchContext] ++ middle ++ [.call (.sem 0), .next, .next, .next, .next]

theorem deletes_tell_one : Machine.Guarded delMachine DelTells (some .start)
    (deleteRun [] ++ [.kernel (.task (.sleep 1)), .kernel .switchContext, .kernel .back]) :=
  deletes_tell _ (by decide +kernel)

instance (w : DelWorld) : ∀ ev, Decidable (DelTells w ev)
  | .kernel .back =>
    inferInstanceAs (Decidable (w.k.sch.currRunTask ∈ w.waiters → ∀ o ∈ w.k.back.2, o.isDlt = true))
  | .next => inferInstanceAs (Decidable (∀ d ∈ w.frame, d.rest = [] →
      (∀ q ∈ d.obj.lists, (d.step w).1.k.sch.que q = []) ∧ (d.step w).1.k.hasObj d.obj = false))
  | .kernel (.task _) | .kernel (.isr _) | .kernel .tick | .kernel .timerLoop | .kernel .switchContext =>
    .isTrue trivial
  | .call _ => .isTrue trivial

/-- Task 3 suspends task 2 in front of the delete; task 2 is told `TERR_NO_ERR`. -/
theorem suspended_waiter_not_told :
    ¬ ∀ evs : List DelEvent, Machine.Guarded delMachine DelEnabled (some .start) evs →
      Machine.Guarded delMachine DelTells (some .start) evs := by
  intro hall
  have h := hall (deleteRun [.kernel (.task (.suspend 2))] ++ [.kernel (.task (.resume 2)),
    .kernel (.task (.sleep 1)), .kernel .switchContext, .kernel .back]) (by decide +kernel)
  revert h
  decide +kernel

end TnKernel
