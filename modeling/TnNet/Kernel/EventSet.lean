import TnNet.Kernel.SchedRun
import TnNet.Kernel.WaitComplete
import TnNet.Lib.Sweep

/-!
# What `tn_event_set` releases

* `scan_spec` — `scan_event_waitqueue` releases the tasks whose condition holds and no other task; its
  value says whether one of them has become runnable.
* `event_set_iff` — `tn_event_set` does what it is for exactly when the event is not cleared by
  attribute, or releases nobody, or releases a task that is not suspended: the pattern is cleared only
  when `scan_event_waitqueue` asks for a context switch.
-/

set_option autoImplicit false

namespace TnKernel

variable {k : Kernel} {i : Nat} {t u : TaskId} {p pattern : BitVec 32} {x : Bool × Sched} {l : List TaskId}
  {q : Que}

/-- The condition of a waiting task. -/
def Tcb.satisfied (b : Tcb) (p : BitVec 32) : Bool := evfCond p b.ewaitPattern b.ewaitMode

/-- The control block of a task that is released with a pattern. -/
def Tcb.delivered (b : Tcb) (p : BitVec 32) : Tcb := { b with ewaitPattern := p }.released

/-! ## The scan -/

theorem scanEventTask_skip (h : (x.2.tcb t).satisfied p = false) : scanEventTask p x t = x := by
  unfold Tcb.satisfied at h
  simp [scanEventTask, h]

theorem scanEventTask_hit (h : (x.2.tcb t).satisfied p = true) :
    (scanEventTask p x t).1 = (x.1 || !(x.2.tcb t).taskState.isSuspend) ∧
      (∀ u, (scanEventTask p x t).2.tcb u = if u = t then (x.2.tcb t).delivered p else x.2.tcb u) ∧
      ∀ q, q.isReady = false → (scanEventTask p x t).2.que q = (x.2.que q).erase t := by
  have hentry : ((queueRemoveEntry t x.2).setTcb t fun b => { b with ewaitPattern := p }).tcb t =
      { x.2.tcb t with ewaitPattern := p } := setTcb_same ..
  unfold Tcb.satisfied at h
  unfold scanEventTask
  dsimp only
  rw [if_pos h]
  refine ⟨by rw [waitComplete_fst, hentry], fun u => ?_, fun q hq => ?_⟩
  · split
    · rename_i hu
      rw [hu, waitComplete_self, hentry]
      rfl
    · rename_i hu
      rw [waitComplete_ne hu, setTcb_ne _ _ hu]
      rfl
  · rw [waitComplete_que hq]
    rfl

/-- The scan works on each task's own control block. -/
theorem scan_local (p : BitVec 32) : Sweep.Local (fun x : Bool × Sched => x.2.tcb)
    (fun b => if b.satisfied p then b.delivered p else b) (scanEventTask p) := by
  constructor
  case own =>
    intro x t
    cases hc : (x.2.tcb t).satisfied p
    · simp [scanEventTask_skip hc]
    · simp [(scanEventTask_hit hc).2.1]
  case other =>
    intro x t u hu
    cases hc : (x.2.tcb t).satisfied p
    · rw [scanEventTask_skip hc]
    · rw [(scanEventTask_hit hc).2.1, if_neg hu]

theorem scanEventTask_que (hq : q.isReady = false) (x : Bool × Sched) (t : TaskId) :
    (scanEventTask p x t).2.que q = if (x.2.tcb t).satisfied p then (x.2.que q).erase t else x.2.que q := by
  cases hc : (x.2.tcb t).satisfied p
  · simp [scanEventTask_skip hc]
  · simp [(scanEventTask_hit hc).2.2 q hq]

theorem scanEventTask_flag (x : Bool × Sched) (t : TaskId) : (scanEventTask p x t).1 =
    (x.1 || ((x.2.tcb t).satisfied p && !(x.2.tcb t).taskState.isSuspend)) := by
  cases hc : (x.2.tcb t).satisfied p
  · simp [scanEventTask_skip hc]
  · simp [(scanEventTask_hit hc).1]

/-- What the scan leaves. -/
structure Scanned (p : BitVec 32) (l : List TaskId) (x r : Bool × Sched) : Prop where
  flag : r.1 = true ↔ x.1 = true ∨
    ∃ t ∈ l, (x.2.tcb t).satisfied p = true ∧ (x.2.tcb t).taskState.isSuspend = false
  hit : ∀ t ∈ l, (x.2.tcb t).satisfied p = true → r.2.tcb t = (x.2.tcb t).delivered p
  kept : ∀ t, t ∉ l ∨ (x.2.tcb t).satisfied p = false → r.2.tcb t = x.2.tcb t
  order : ∀ q, q.isReady = false → (x.2.que q).Nodup →
    r.2.que q = (x.2.que q).filter fun t => !(decide (t ∈ l) && (x.2.tcb t).satisfied p)

/-- **`scan_event_waitqueue`.** -/
theorem scan_spec (hnd : l.Nodup) (x : Bool × Sched) : Scanned p l x (l.foldl (scanEventTask p) x) := by
  have hget := (scan_local p).get_foldl hnd x
  constructor
  case flag =>
    have hflag := (scan_local p).flag_foldl Prod.fst (fun b => b.satisfied p && !b.taskState.isSuspend)
      scanEventTask_flag hnd x
    simpa using hflag
  case hit => exact fun t ht hs => by rw [hget, if_pos ht, if_pos hs]
  case kept =>
    rintro t (ht | hs)
    · rw [hget, if_neg ht]
    · rw [hget]
      simp [hs]
  case order =>
    exact fun q hq hn => (scan_local p).view_foldl (fun x => x.2.que q) (fun b => b.satisfied p)
      (scanEventTask_que hq) hnd x hn

/-! ## `tn_event_set` -/

/-- The waiting tasks whose condition a pattern satisfies. -/
def satisfiedBy (k : Kernel) (i : Nat) (p : BitVec 32) : List TaskId :=
  (k.sch.que (.event i)).filter fun t => (k.sch.tcb t).satisfied p

/-- The set of a pattern: `p` is the pattern behind it, and releases the tasks it satisfies. -/
structure SetReleases (k k' : Kernel) (i : Nat) (p : BitVec 32) : Prop where
  released : ∀ t ∈ satisfiedBy k i p, (k'.sch.tcb t).taskState.isWait = false ∧
    (k'.sch.tcb t).taskWaitRc = .noErr ∧ (k'.sch.tcb t).ewaitPattern = p
  kept : ∀ t, t ∉ satisfiedBy k i p → k'.sch.tcb t = k.sch.tcb t
  order : k'.sch.que (.event i) = (k.sch.que (.event i)).filter fun t => !(k.sch.tcb t).satisfied p
  pattern : (k'.evf i).pattern =
    if (k.evf i).attr &&& TN_EVENT_ATTR_CLR ≠ 0 ∧ satisfiedBy k i p ≠ [] then 0 else p

/-- The pattern is cleared when it has to be. -/
def ClearsInTime (k : Kernel) (i : Nat) (p : BitVec 32) : Prop :=
  (k.evf i).attr &&& TN_EVENT_ATTR_CLR = 0 ∨ satisfiedBy k i p = [] ∨
    ∃ t ∈ satisfiedBy k i p, (k.sch.tcb t).taskState.isSuspend = false

theorem mem_satisfiedBy : t ∈ satisfiedBy k i p ↔
    t ∈ k.sch.que (.event i) ∧ (k.sch.tcb t).satisfied p = true :=
  List.mem_filter

/-- The pattern behind the set is cleared when a task that is not suspended is released. -/
theorem eventSet_eq (hid : (k.evf i).idEvent = true) (hp : pattern ≠ 0) :
    let p := (k.evf i).pattern ||| pattern
    let r := (k.sch.que (.event i)).foldl (scanEventTask p) (false, k.sch)
    (tnEventSet i pattern k).1.sch = r.2 ∧
      ((tnEventSet i pattern k).1.evf i).pattern =
        if r.1 = true ∧ (k.evf i).attr &&& TN_EVENT_ATTR_CLR ≠ 0 then 0 else p := by
  unfold tnEventSet scanEventWaitqueue
  simp only [hid, Kernel.setEvf, Function.update_self, Bool.not_true, Bool.false_eq_true,
    if_false, if_neg hp]
  split
  · simp
  · simp

theorem setReleases_iff (hid : (k.evf i).idEvent = true) (hp : pattern ≠ 0)
    (hnd : (k.sch.que (.event i)).Nodup) :
    SetReleases k (tnEventSet i pattern k).1 i ((k.evf i).pattern ||| pattern) ↔
      ClearsInTime k i ((k.evf i).pattern ||| pattern) := by
  obtain ⟨hsch, hpat⟩ := eventSet_eq hid hp
  have hne : (k.evf i).pattern ||| pattern ≠ 0 := by
    intro hc
    exact hp (BitVec.or_eq_zero_iff.mp (show _ = 0#32 from hc)).2
  generalize (k.evf i).pattern ||| pattern = p at hsch hpat hne ⊢
  obtain ⟨hflag, hhit, hkept, horder⟩ := @scan_spec p _ hnd (false, k.sch)
  generalize (k.sch.que (.event i)).foldl (scanEventTask p) (false, k.sch) = r
    at hsch hpat hflag hhit hkept horder
  -- the value of the scan, and what the pattern should depend on
  have hr : r.1 = true ↔ ∃ t ∈ satisfiedBy k i p, (k.sch.tcb t).taskState.isSuspend = false := by
    simp [hflag, mem_satisfiedBy, and_assoc]
  have hrest : (∀ t ∈ satisfiedBy k i p, (r.2.tcb t).taskState.isWait = false ∧
      (r.2.tcb t).taskWaitRc = .noErr ∧
        (r.2.tcb t).ewaitPattern = p) ∧
      (∀ t, t ∉ satisfiedBy k i p → r.2.tcb t = k.sch.tcb t) ∧
      r.2.que (.event i) = (k.sch.que (.event i)).filter fun t => !(k.sch.tcb t).satisfied p := by
    refine ⟨fun t ht => ?_, fun t ht => ?_, ?_⟩
    · obtain ⟨hm, hs⟩ := mem_satisfiedBy.mp ht
      rw [hhit t hm hs]
      exact ⟨released_isWait _, rfl, rfl⟩
    · rw [mem_satisfiedBy, not_and_or, Bool.not_eq_true] at ht
      exact hkept t ht
    · rw [horder _ rfl hnd]
      exact List.filter_congr fun t ht => by simp [ht]
  constructor
  · intro h
    have hset := h.pattern
    rw [hpat] at hset
    unfold ClearsInTime
    rw [← hr]
    by_cases hclr : (k.evf i).attr &&& TN_EVENT_ATTR_CLR = 0
    · exact .inl hclr
    by_cases hnil : satisfiedBy k i p = []
    · exact .inr (.inl hnil)
    right
    right
    by_contra hno
    rw [if_neg fun hc => hno hc.1, if_pos ⟨hclr, hnil⟩] at hset
    exact hne hset
  · intro hclears
    refine ⟨?_, ?_, ?_, ?_⟩
    · rw [hsch]
      exact hrest.1
    · rw [hsch]
      exact hrest.2.1
    · rw [hsch]
      exact hrest.2.2
    · rw [hpat]
      refine if_congr ?_ rfl rfl
      constructor
      · rintro ⟨hflag, hclr⟩
        obtain ⟨t, ht, -⟩ := hr.mp hflag
        exact ⟨hclr, List.ne_nil_of_mem ht⟩
      · rintro ⟨hclr, hnil⟩
        exact ⟨hr.mpr ((hclears.resolve_left hclr).resolve_left hnil), hclr⟩

/-- **Event flags release the tasks they satisfy** and clear the pattern, in any state and for any wait
    list, exactly when the event has no attribute to clear it, or nobody is released, or one of the
    released tasks is not suspended. -/
theorem event_set_iff (k : Kernel) (i : Nat) (pattern : BitVec 32) (hid : (k.evf i).idEvent = true)
    (hp : pattern ≠ 0) (hnd : (k.sch.que (.event i)).Nodup) :
    (SetReleases k (tnEventSet i pattern k).1 i ((k.evf i).pattern ||| pattern) ↔
      ClearsInTime k i ((k.evf i).pattern ||| pattern)) ∧
    (SetReleases k (tnEventIset i pattern k).1 i ((k.evf i).pattern ||| pattern) ↔
      ClearsInTime k i ((k.evf i).pattern ||| pattern)) :=
  ⟨setReleases_iff hid hp hnd, setReleases_iff hid hp hnd⟩

/-- A task waits for a flag that is cleared when it is met. -/
def clrRun : List Event :=
  twoTasks ++ [.task (.eventCreate 0 5 0), .task (.eventWait 0 1 0 TN_WAIT_INFINITE), .switchContext]

theorem clrRun_isSome : (Machine.run kernelMachine (some Kernel.start) clrRun).1.isSome = true := by
  decide +kernel

/-- The kernel while the task waits. -/
def clrKernel : Kernel := (Machine.run kernelMachine (some Kernel.start) clrRun).1.get clrRun_isSome

theorem event_set_iff_one :
    (SetReleases clrKernel (tnEventSet 0 1 clrKernel).1 0 ((clrKernel.evf 0).pattern ||| 1) ↔
      ClearsInTime clrKernel 0 ((clrKernel.evf 0).pattern ||| 1)) ∧
    (SetReleases clrKernel (tnEventIset 0 1 clrKernel).1 0 ((clrKernel.evf 0).pattern ||| 1) ↔
      ClearsInTime clrKernel 0 ((clrKernel.evf 0).pattern ||| 1)) :=
  event_set_iff clrKernel 0 1 (by decide +kernel) (by decide) (by decide +kernel)

/-- The task is suspended before the flag is set. -/
def clrSuspendedRun : List Event := clrRun ++ [.task (.suspend 2)]

theorem clrSuspended_isSome :
    (Machine.run kernelMachine (some Kernel.start) clrSuspendedRun).1.isSome = true := by
  decide +kernel

/-- The flag stays set, and satisfies the next wait too. -/
theorem suspended_waiter_keeps_flag :
    ¬ ∀ (es : List Event) (k : Kernel) (i : Nat) (pattern : BitVec 32),
      Machine.Guarded kernelMachine Enabled (some Kernel.start) es →
      (Machine.run kernelMachine (some Kernel.start) es).1 = some k → (k.evf i).idEvent = true →
      pattern ≠ 0 → SetReleases k (tnEventSet i pattern k).1 i ((k.evf i).pattern ||| pattern) := by
  intro hall
  have hk := (Option.some_get clrSuspended_isSome).symm
  have hset := (hall clrSuspendedRun _ 0 1 (by decide +kernel) hk (by decide +kernel) (by decide)).pattern
  revert hset
  decide +kernel

end TnKernel
