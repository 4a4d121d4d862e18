import TnNet.Kernel.ResourceRun

/-!
# No missed wake-ups

A task waits for a semaphore, a memory pool or a data queue only while there is nothing for it: whoever
brings something finds the task at the head of the wait list and gives it to it.

The data queues are those of the queue invariant; `RunOut` is the same for semaphores and pools, and
every act keeps it.
-/

set_option autoImplicit false

namespace TnKernel

variable {k k' : Kernel} {t : TaskId} {a : Allow} {obs : List Obs}

/-! ## Semaphores and pools -/

/-- A semaphore or pool with a waiting task has run out. -/
structure RunOut (k : Kernel) : Prop where
  sem : ∀ i, k.sch.que (.sem i) ≠ [] → (k.sem i).count < 1
  fmp : ∀ i, k.sch.que (.fmp i) ≠ [] → (k.fmp i).fblkcnt = 0

/-- No task has joined the wait list of a resource. -/
def NoneJoins (k k' : Kernel) : Prop := ∀ q, q.isRes = true → k'.sch.que q ≠ [] → k.sch.que q ≠ []

theorem Changes.noneJoins (h : Changes k k') : NoneJoins k k' := fun q hq hne => by rwa [← h.quiet.que q hq]

theorem Free.noneJoins (h : Free t k.sch k'.sch) : NoneJoins k k' := fun q hq hne => by rwa [← h.que q hq]

theorem Leave.noneJoins (h : Leave t k.sch k'.sch) : NoneJoins k k' := by
  intro q hq hne hnil
  rw [h.que q hq, hnil] at hne
  exact hne rfl

namespace RunOut

variable (h : RunOut k)
include h

theorem keep (hj : NoneJoins k k') (hs : k'.sem = k.sem) (hf : k'.fmp = k.fmp) : RunOut k' := by
  constructor
  case sem => exact fun i hne => by rw [hs]; exact h.sem i (hj _ rfl hne)
  case fmp => exact fun i hne => by rw [hf]; exact h.fmp i (hj _ rfl hne)

/-- A semaphore is written. -/
theorem setSem (hj : NoneJoins k k') (hf : k'.fmp = k.fmp) {i : Nat} {x : Sem}
    (hs : k'.sem = Function.update k.sem i x) (hx : k.sch.que (.sem i) ≠ [] → x.count < 1) : RunOut k' := by
  constructor
  case sem =>
    intro j hne
    rw [hs]
    by_cases hji : j = i
    · subst hji
      rw [Function.update_self]
      exact hx (hj _ rfl hne)
    · rw [Function.update_of_ne hji]
      exact h.sem j (hj _ rfl hne)
  case fmp => exact fun j hne => by rw [hf]; exact h.fmp j (hj _ rfl hne)

/-- A pool is written. -/
theorem setFmp (hj : NoneJoins k k') (hs : k'.sem = k.sem) {i : Nat} {x : Fmp}
    (hf : k'.fmp = Function.update k.fmp i x) (hx : k.sch.que (.fmp i) ≠ [] → x.fblkcnt = 0) :
    RunOut k' := by
  constructor
  case sem => exact fun j hne => by rw [hs]; exact h.sem j (hj _ rfl hne)
  case fmp =>
    intro j hne
    rw [hf]
    by_cases hji : j = i
    · subst hji
      rw [Function.update_self]
      exact hx (hj _ rfl hne)
    · rw [Function.update_of_ne hji]
      exact h.fmp j (hj _ rfl hne)

/-- A task joins a wait list only when the resource has run out. -/
theorem join {q : Que} {data : Nat} (hj : Join t q k.sch k'.sch) (hx : Exhausted k q data)
    (hr : SameRes k k') : RunOut k' := by
  constructor
  case sem =>
    intro i hne
    rw [hr.sem]
    by_cases hq : q = .sem i
    · subst hq
      exact hx
    · rw [hj.queNe _ rfl (Ne.symm hq)] at hne
      exact h.sem i hne
  case fmp =>
    intro i hne
    rw [hr.fmp]
    by_cases hq : q = .fmp i
    · subst hq
      exact hx
    · rw [hj.queNe _ rfl (Ne.symm hq)] at hne
      exact h.fmp i hne

/-- **The acts keep it.**  A semaphore is signalled, and a block is put on a free list, only while no
    task waits. -/
theorem act (hk : KInv k) (hact : Act a k obs k') : RunOut k' := by
  cases hact with
  | quiet hc hr ho => exact h.keep hc.noneJoins hr.sem hr.fmp
  | free hf hr hp hg hb ha hn ho => exact h.keep hf.noneJoins hr.sem hr.fmp
  | reset hf hw hr hp hg ha ho => exact h.keep hf.noneJoins hr.sem hr.fmp
  | resetWait hl hq hres hr hp hg ha => exact h.keep hl.noneJoins hr.sem hr.fmp
  | cancel hl hq hres hd hr hp hg hrc => exact h.keep hl.noneJoins hr.sem hr.fmp
  | release hl hq hres hr hp hg ha => exact h.keep hl.noneJoins hr.sem hr.fmp
  | block hj hres hl hx ht hw hd hr hb hp ha hg => exact h.join hj hx hr
  | back hq hw hc hres hr hp ha hg =>
    exact h.keep (fun q hres hne => by rwa [← hq.que q hres]) hr.sem hr.fmp
  | semParam hc hs hd hf ho => exact h.setSem hc.noneJoins hf hs (h.sem _)
  | semCreate hc hid hs hd hf =>
    exact h.setSem hc.noneJoins hf hs fun hne => absurd (hk.que_nil (q := .sem _) rfl hid) hne
  | semSignal hc hid hl hs hd hf => exact h.setSem hc.noneJoins hf hs fun hne => absurd hl hne
  | semGrant hg hr => exact h.keep hg.leave.noneJoins hr.sem hr.fmp
  | semAcquire hc hid hn hs hd hf =>
    refine h.setSem hc.noneJoins hf hs fun hne => ?_
    exact absurd (h.sem _ hne) (by omega)
  | queueCreate hc hid hd hs hf ho => exact h.keep hc.noneJoins hs hf
  | sendFifo hc hid hl hw hd hs hf => exact h.keep hc.noneJoins hs hf
  | sendGrant hg hr => exact h.keep hg.leave.noneJoins hr.sem hr.fmp
  | receiveFifo hc hid hl hw hd hs hf => exact h.keep hc.noneJoins hs hf
  | receiveGrant hg hdt hw hd hs hf => exact h.keep hg.leave.noneJoins hs hf
  | receiveDirect hg hdt hw hr => exact h.keep hg.leave.noneJoins hr.sem hr.fmp
  | fmemCreate hc hid hx hcr hf hs hd ho =>
    exact h.setFmp hc.noneJoins hs hf fun hne => absurd (hk.que_nil (q := .fmp _) rfl hid) hne
  | fmemGet hc hid hn hf hs hd =>
    refine h.setFmp hc.noneJoins hs hf fun hne => ?_
    exact absurd (h.fmp _ hne) (by omega)
  | fmemGrant hg hr hfr => exact h.keep hg.leave.noneJoins hr.sem hr.fmp
  | fmemRelease hc hid hl hf hs hd hfr => exact h.setFmp hc.noneJoins hs hf fun hne => absurd hl hne

end RunOut

/-! ## The run -/

/-- The invariant of a run. -/
structure SupplyInv (k : Kernel) (hist : List Obs) : Prop where
  kinv : KInv k
  runOut : RunOut k
  queue : ∀ i, QueueInv k hist i

theorem SupplyInv.acts {hist : List Obs} (h : SupplyInv k hist) (hact : Acts a k obs k') :
    SupplyInv k' (hist ++ obs) := by
  obtain ⟨h1, h2, h3⟩ := hact.induct (fun k hist => RunOut k ∧ ∀ i, QueueInv k hist i)
    (fun k k' hist obs hk _ hi hact => ⟨hi.1.act hk hact, fun i => (hi.2 i).act hk hact⟩) hist h.kinv
    ⟨h.runOut, h.queue⟩
  exact ⟨h1, h2, h3⟩

theorem SupplyInv.start : SupplyInv Kernel.start [] := by
  have hnil : ∀ q : Que, q.isReady = false → Kernel.start.live q = false → Kernel.start.sch.que q = [] :=
    fun q => KInv.start.que_nil
  exact ⟨KInv.start, ⟨fun i hne => absurd (hnil _ rfl rfl) hne, fun i hne => absurd (hnil _ rfl rfl) hne⟩,
    RecordInv.start.queue⟩

theorem SupplyInv.run {es : List Event}
    (hg : Machine.Guarded kernelMachine (fun k ev => Enabled k ev ∧ ExitOk k ev) (some Kernel.start) es)
    (hk : (Machine.run kernelMachine (some Kernel.start) es).1 = some k) :
    SupplyInv k (Machine.run kernelMachine (some Kernel.start) es).2 := by
  refine Machine.run_record SupplyInv ?_ SupplyInv.start hg hk
  intro k ev hist k' h hc hk'
  obtain ⟨r, hr, rfl⟩ := Option.map_eq_some_iff.mp hk'
  rw [kernelMachine_obs hr]
  exact h.acts (kernelStep_acts h.kinv hc.1 hc.2 (any_permits k ev) hr)

/-- A waiting task and its resource. -/
theorem SupplyInv.exhausted {hist : List Obs} (h : SupplyInv k hist) {q : Que}
    (hw : (k.sch.tcb t).pwaitQueue = some q) (hq : q.isRes = true) (data : Nat) : Exhausted k q data := by
  have hm : t ∈ k.sch.que q := ((h.kinv.sch.ok t).waits q (Que.not_ready_of_isRes hq)).mpr hw
  have hne := List.ne_nil_of_mem hm
  cases q with
  | sem i => exact h.runOut.sem i hne
  | fmp i => exact h.runOut.fmp i hne
  | wsend i =>
    have hfull := (h.queue i).senders hne
    refine ⟨?_, ((h.queue i).ring.write_fails data).mpr hfull⟩
    by_contra hrecv
    exact hne ((h.queue i).receivers hrecv).2
  | wreceive i =>
    obtain ⟨hempty, hsend⟩ := (h.queue i).receivers hne
    refine ⟨hsend, fun hread => ?_⟩
    have hcons := ((h.queue i).ring.read hread).2.1
    rw [hempty] at hcons
    cases hcons
  | ready p => cases hq
  | event e => cases hq
  | mutex m => cases hq

/-- **No missed wake-up.**  In every state of every run in which no task exits with a deletion while an
    activation request is pending: a task in the wait list of a semaphore, a pool or a data queue is in
    the call that waits for it, and the count is below 1, the pool has no free block, the ring buffer is
    full and no receiver waits, or the ring buffer is empty and no sender waits. -/
theorem no_missed_wakeup (es : List Event) (k : Kernel)
    (hg : Machine.Guarded kernelMachine (fun k ev => Enabled k ev ∧ ExitOk k ev) (some Kernel.start) es)
    (hk : (Machine.run kernelMachine (some Kernel.start) es).1 = some k) :
    ∀ t q, (k.sch.tcb t).pwaitQueue = some q → q.isRes = true →
      k.pend t = some (waitCall q (k.sch.tcb t).dataElem) ∧ ∀ data, Exhausted k q data := by
  have h := SupplyInv.run hg hk
  exact fun t q hw hq => ⟨h.kinv.call t q hw hq, h.exhausted hw hq⟩

/-- Task 2 has the two blocks of a pool and waits for a third one; an interrupt handler signals a
    semaphore. -/
def waitsForBlock : List Event :=
  twoTasks ++ [.task (.semCreate 0 0 1), .task (.fmemCreate 0 1000 16 2), .task (.fmemGet 0 5),
    .task (.fmemGetPolling 0), .task (.fmemGet 0 5), .isr (.semIsignal 0)]

theorem waitsForBlock_isSome :
    (Machine.run kernelMachine (some Kernel.start) waitsForBlock).1.isSome = true := by
  decide +kernel

def blockWaited : Kernel :=
  (Machine.run kernelMachine (some Kernel.start) waitsForBlock).1.get waitsForBlock_isSome

theorem no_missed_wakeup_block :
    blockWaited.pend 2 = some (.get 0) ∧ ∀ data, Exhausted blockWaited (.fmp 0) data :=
  no_missed_wakeup waitsForBlock blockWaited (by decide +kernel)
    (Option.some_get waitsForBlock_isSome).symm 2 (.fmp 0) (by decide +kernel) rfl

end TnKernel
