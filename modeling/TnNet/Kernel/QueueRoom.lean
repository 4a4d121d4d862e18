import TnNet.Kernel.QueueRun

/-!
# What a data queue holds

The ring buffer of a data queue keeps one of its `num_entries` cells free, since equal counters mean an
empty queue.

* `kernelStep_ring` — the counters are cells of the ring buffer behind every event.
* `queue_holds_iff` — a queue in a reachable state behaves as one with room for `num_entries` data
  exactly when a receiver waits or the number of its data is not `num_entries - 1`.
-/

set_option autoImplicit false

namespace TnKernel

variable {k k' : Kernel} {i j : Nat} {d : Dque}

/-! ## The objects a service leaves alone -/

theorem semSignal_dque (j : Nat) (k : Kernel) : (tnSemSignal j k).1.dque = k.dque := by
  unfold tnSemSignal
  repeat' split
  all_goals rfl

theorem semPolling_dque (j : Nat) (k : Kernel) : (tnSemPolling j k).1.dque = k.dque := by
  unfold tnSemPolling
  repeat' split
  all_goals rfl

theorem eventWait_dque (j : Nat) (pattern mode : BitVec 32) {onFalse : Kernel → Res}
    (hf : (onFalse k).1.dque = k.dque) : (eventWait j pattern mode onFalse k).1.dque = k.dque := by
  unfold eventWait Kernel.ret
  dsimp only
  repeat' split
  all_goals first | rfl | exact hf

theorem eventSet_dque (j : Nat) (pattern : BitVec 32) (k : Kernel) :
    (tnEventSet j pattern k).1.dque = k.dque := by
  unfold tnEventSet
  dsimp only
  repeat' split
  all_goals rfl

theorem eventClear_dque (j : Nat) (pattern : BitVec 32) (k : Kernel) :
    (tnEventClear j pattern k).1.dque = k.dque := by
  unfold tnEventClear
  repeat' split
  all_goals rfl

theorem fmemGet_dque (j : Nat) {onEmpty : Kernel → Res} (he : (onEmpty k).1.dque = k.dque) :
    (fmemGet j onEmpty k).1.dque = k.dque := by
  unfold fmemGet
  repeat' split
  all_goals first | rfl | exact he

theorem fmemRelease_dque (j block : Nat) (k : Kernel) : (tnFmemRelease j block k).1.dque = k.dque := by
  unfold tnFmemRelease Kernel.ret
  dsimp only
  repeat' split
  all_goals rfl

theorem tryLockMutex_dque {x y : Kernel × List Obs} {t : TaskId} (h : tryLockMutex x t = some y) :
    y.1.dque = x.1.dque := by
  unfold tryLockMutex at h
  dsimp only at h
  split at h
  · split at h
    · cases h
      rfl
    · cases h
      rfl
  · cases h

theorem unlockBlocked_dque {r : Kernel × List Obs} (h : unlockBlocked k = some r) : r.1.dque = k.dque := by
  unfold unlockBlocked at h
  dsimp only at h
  split at h
  · cases h
  have hfold : ∀ (l : List TaskId) (x y : Kernel × List Obs),
      l.foldlM (fun x t => if t = k.sch.currRunTask then some x else tryLockMutex x t) x = some y →
        y.1.dque = x.1.dque := by
    intro l
    induction l with
    | nil =>
      intro x y hy
      cases hy
      rfl
    | cons t l ih =>
      intro x y hy
      obtain ⟨z, hz, hy⟩ := Option.bind_eq_some_iff.mp hy
      refine (ih z y hy).trans ?_
      dsimp only at hz
      split at hz
      · cases hz
        rfl
      · exact tryLockMutex_dque hz
  exact hfold _ _ _ h

theorem doUnlockMutex_dque {m : Nat} {r : Kernel × List Obs} (h : doUnlockMutex m k = some r) :
    r.1.dque = k.dque := by
  obtain ⟨k1, h1, h2⟩ := Option.bind_eq_some_iff.mp h
  obtain ⟨s, -, rfl⟩ := Option.map_eq_some_iff.mp h1
  dsimp only at h2
  split at h2
  · cases h2
    rfl
  · have hd := unlockBlocked_dque h2
    exact hd
  · cases h2
    rfl
  · obtain ⟨t, -, rfl⟩ := Option.map_eq_some_iff.mp h2
    unfold unlockToWaiter
    split
    · rfl
    · split <;> rfl

theorem lockWait_dque {m : Nat} {blk : Option TaskId} {reason : WaitReason} {timeout : BitVec 32} {r : Res}
    (h : lockWait m blk reason timeout k = some r) : r.1.dque = k.dque := by
  obtain ⟨s, -, rfl⟩ := Option.map_eq_some_iff.mp h
  rfl

theorem mutexLock_dque {m : Nat} {timeout : BitVec 32} {r : Res} (h : tnMutexLock m timeout k = some r) :
    r.1.dque = k.dque := by
  unfold tnMutexLock at h
  dsimp only at h
  split at h
  · cases h
    rfl
  split at h
  · cases h
    rfl
  split at h
  · cases h
    rfl
  split at h
  · cases h
    rfl
  split at h
  · split at h
    · cases h
      rfl
    · obtain ⟨r1, h1, rfl⟩ := Option.map_eq_some_iff.mp h
      have hd := lockWait_dque h1
      exact hd
  · exact lockWait_dque h
  · cases h
    rfl
  · exact lockWait_dque h

theorem mutexUnlock_dque {m : Nat} {r : Res} (h : tnMutexUnlock m k = some r) : r.1.dque = k.dque := by
  unfold tnMutexUnlock at h
  split at h
  · cases h
    rfl
  split at h
  · cases h
    rfl
  obtain ⟨r1, h1, rfl⟩ := Option.map_eq_some_iff.mp h
  have hd := doUnlockMutex_dque h1
  exact hd

/-! ## The counters -/

theorem RingOk.writeAny (h : RingOk d) (x : Nat) : RingOk (dqueFifoWrite d x).2 := by
  by_cases hw : (dqueFifoWrite d x).1 = .noErr
  · exact (h.write hw).1
  · unfold dqueFifoWrite at hw ⊢
    split
    · exact h
    · split
      · exact h
      · rename_i h0 hf
        simp [h0, hf] at hw

theorem setDque_ring (h : RingOk (k.dque i)) (hd : i = j → RingOk d) : RingOk ((k.setDque j d).dque i) := by
  unfold Kernel.setDque
  rcases eq_or_ne i j with rfl | hij
  · simpa using hd rfl
  · simpa [Function.update_of_ne hij] using h

theorem queueCreate_ring (h : RingOk (k.dque i)) (hasFifo : Bool) (n : Int) :
    RingOk ((tnQueueCreate j hasFifo n k).1.dque i) := by
  unfold tnQueueCreate
  split
  · exact h
  · refine setDque_ring h fun _ => ?_
    rcases Nat.eq_zero_or_pos (if hasFifo then n.toNat else 0) with h0 | h0
    · exact .inr ⟨h0, rfl, rfl⟩
    · exact .inl ⟨h0, h0⟩

theorem queueSend_ring (h : RingOk (k.dque i)) (data : Nat) {onFull : Kernel → Res}
    (hfull : (onFull k).1.dque = k.dque) : RingOk ((queueSend j data onFull k).1.dque i) := by
  unfold queueSend
  split
  · exact h
  split
  · exact h
  split
  · refine setDque_ring h fun hij => ?_
    rw [← hij]
    exact h.writeAny data
  · rw [hfull]
    exact h

theorem queueReceive_ring (h : RingOk (k.dque i)) {onEmpty : Kernel → Res}
    (hempty : (onEmpty k).1.dque = k.dque) : RingOk ((queueReceive j onEmpty k).1.dque i) := by
  unfold queueReceive
  split
  · exact h
  dsimp only
  split
  · rename_i hr
    have hread : RingOk (((k.setDque j (dqueFifoRead (k.dque j)).2.2)).dque i) :=
      setDque_ring h fun hij => by
        rw [← hij] at hr ⊢
        exact (h.read hr).1
    split
    · refine setDque_ring hread fun hij => ?_
      rw [← hij] at hread ⊢
      exact hread.writeAny _
    · exact hread
  · split
    · exact h
    · rw [hempty]
      exact h

/-- The services that do not touch the data queues. -/
theorem taskStep_ring {sv : Service} {r : Res} (hr : taskStep k sv = some r) (h : RingOk (k.dque i)) :
    RingOk (r.1.dque i) := by
  cases sv with
  | queueCreate j hasFifo n =>
    cases hr
    exact queueCreate_ring h hasFifo n
  | queueSend j data timeout =>
    cases hr
    unfold tnQueueSend
    split
    · exact h
    · exact queueSend_ring h data rfl
  | queueSendPolling j data =>
    cases hr
    exact queueSend_ring h data rfl
  | queueReceive j timeout =>
    cases hr
    unfold tnQueueReceive
    split
    · exact h
    · exact queueReceive_ring h rfl
  | queueReceivePolling j =>
    cases hr
    exact queueReceive_ring h rfl
  | mutexLock m timeout =>
    rw [mutexLock_dque hr]
    exact h
  | mutexUnlock m =>
    rw [mutexUnlock_dque hr]
    exact h
  | create t priority argsOk opt =>
    simp only [taskStep] at hr
    split at hr <;> (cases hr; exact h)
  | sleep timeout =>
    cases hr
    unfold Kernel.sleep
    split <;> exact h
  | terminate t =>
    cases hr
    unfold Kernel.terminate
    dsimp only
    split <;> exact h
  | semCreate j startValue maxVal =>
    cases hr
    unfold tnSemCreate
    split <;> exact h
  | semSignal j =>
    cases hr
    rw [semSignal_dque]
    exact h
  | semAcquire j timeout =>
    cases hr
    unfold tnSemAcquire
    (repeat' split) <;> exact h
  | semPolling j =>
    cases hr
    rw [semPolling_dque]
    exact h
  | eventCreate j attr pattern =>
    cases hr
    unfold tnEventCreate
    dsimp only
    (repeat' split) <;> exact h
  | eventWait j pattern mode timeout =>
    cases hr
    unfold tnEventWait
    split
    · exact h
    · rw [eventWait_dque j pattern mode rfl]
      exact h
  | eventWaitPolling j pattern mode =>
    cases hr
    rw [tnEventWaitPolling, eventWait_dque j pattern mode rfl]
    exact h
  | eventSet j pattern =>
    cases hr
    rw [eventSet_dque]
    exact h
  | eventClear j pattern =>
    cases hr
    rw [eventClear_dque]
    exact h
  | fmemCreate j startAddr blockSize numBlocks =>
    cases hr
    unfold tnFmemCreate
    dsimp only
    (repeat' split) <;> exact h
  | fmemGet j timeout =>
    cases hr
    unfold tnFmemGet
    split
    · exact h
    · rw [fmemGet_dque j rfl]
      exact h
  | fmemGetPolling j =>
    cases hr
    rw [tnFmemGetPolling, fmemGet_dque j rfl]
    exact h
  | fmemRelease j block =>
    cases hr
    rw [fmemRelease_dque]
    exact h
  | mutexCreate m attr ceilPriority =>
    cases hr
    unfold tnMutexCreate
    (repeat' split) <;> exact h
  | mutexLockPolling m =>
    cases hr
    unfold tnMutexLockPolling Kernel.ret
    dsimp only
    (repeat' split) <;> exact h
  | _ =>
    cases hr
    exact h

/-- An interrupt handler. -/
theorem isrStep_ring (sv : IService) (h : RingOk (k.dque i)) : RingOk ((isrStep k sv).1.dque i) := by
  cases sv with
  | semIsignal j =>
    unfold isrStep tnSemIsignal
    rw [semSignal_dque]
    exact h
  | semIpolling j =>
    unfold isrStep tnSemIpolling
    rw [semPolling_dque]
    exact h
  | queueIsendPolling j data => exact queueSend_ring h data rfl
  | queueIreceive j => exact queueReceive_ring h rfl
  | eventIwait j pattern mode =>
    unfold isrStep tnEventIwait tnEventWaitPolling
    rw [eventWait_dque j pattern mode rfl]
    exact h
  | eventIset j pattern =>
    unfold isrStep tnEventIset
    rw [eventSet_dque]
    exact h
  | eventIclear j pattern =>
    unfold isrStep tnEventIclear
    rw [eventClear_dque]
    exact h
  | fmemGetIpolling j =>
    unfold isrStep tnFmemGetIpolling tnFmemGetPolling
    rw [fmemGet_dque j rfl]
    exact h
  | fmemIrelease j block =>
    unfold isrStep tnFmemIrelease
    rw [fmemRelease_dque]
    exact h
  | _ => exact h

/-- **The counters are cells of the ring buffer behind every event.** -/
theorem kernelStep_ring {ev : Event} {r : Res} (hr : kernelStep k ev = some r) (h : RingOk (k.dque i)) :
    RingOk (r.1.dque i) := by
  cases ev with
  | task sv => exact taskStep_ring hr h
  | isr sv =>
    cases hr
    exact isrStep_ring sv h
  | back =>
    cases hr
    unfold Kernel.back
    dsimp only
    split <;> exact h
  | _ =>
    cases hr
    exact h

theorem ring_run (es : List Event) (hk : (Machine.run kernelMachine (some Kernel.start) es).1 = some k)
    (i : Nat) : RingOk (k.dque i) := by
  refine (Machine.run_invariant (fun k => RingOk (k.dque i)) (fun _ => True) ?_ ?_
    (Machine.guarded_true kernelMachine (some Kernel.start) es)).1 k hk
  · intro k ev h _
    refine ⟨fun k' hk' => ?_, fun _ _ => trivial⟩
    obtain ⟨r, hr, rfl⟩ := Option.map_eq_some_iff.mp hk'
    exact kernelStep_ring hr h
  · intro k hk
    cases hk
    exact .inr ⟨rfl, rfl, rfl⟩

/-! ## Room for `num_entries` data -/

/-- The code and the datum a service returns at once. -/
def answer (r : Res) : Option (Terr × Nat) :=
  match r.2 with
  | .ret _ rc data :: _ => some (rc, data)
  | _ => none

/-- A queue that holds `num_entries` data and no more, and gives them back in their order. -/
structure HoldsEntries (k : Kernel) (i : Nat) : Prop where
  send_fails : k.sch.que (.wreceive i) = [] → ∀ data,
    ((answer (tnQueueSendPolling i data k)).map Prod.fst ≠ some .noErr ↔
      (k.dque i).fifo.length = (k.dque i).numEntries)
  send : k.sch.que (.wreceive i) = [] → ∀ data,
    (answer (tnQueueSendPolling i data k)).map Prod.fst = some .noErr →
      ((tnQueueSendPolling i data k).1.dque i).fifo = (k.dque i).fifo ++ [data]
  receive_fails : k.sch.que (.wsend i) = [] →
    ((answer (tnQueueReceivePolling i k)).map Prod.fst ≠ some .noErr ↔ (k.dque i).fifo = [])
  receive : ∀ data rest, (k.dque i).fifo = data :: rest →
    answer (tnQueueReceivePolling i k) = some (.noErr, data) ∧
      ((tnQueueReceivePolling i k).1.dque i).fifo =
        rest ++ ((k.sch.que (.wsend i)).head?.map fun t => (k.sch.tcb t).dataElem).toList
  counters : (k.dque i).tailCnt < (k.dque i).numEntries ∧ (k.dque i).headerCnt < (k.dque i).numEntries

/-- One cell stays free. -/
theorem RingOk.length_lt (h : RingOk d) (hn : 1 ≤ d.numEntries) : d.fifo.length < d.numEntries := by
  have hok : d.ring.Ok := h.resolve_right fun hc => by omega
  have htail : d.ring.tail < d.ring.size := hok.tail
  have hhead : d.ring.head < d.ring.size := hok.head
  have hsize : d.ring.size = d.numEntries := rfl
  rw [Dque.fifo, RingBuf.length_content, RingBuf.len]
  split <;> omega

section Queue

variable (h : RingOk (k.dque i)) (hid : (k.dque i).idDque = true)
include hid

/-- A send that finds no receiver. -/
theorem answer_send (hr : k.sch.que (.wreceive i) = []) (data : Nat) :
    (answer (tnQueueSendPolling i data k)).map Prod.fst = some .noErr ↔
    (dqueFifoWrite (k.dque i) data).1 = .noErr := by
  unfold tnQueueSendPolling queueSend
  by_cases hw : (dqueFifoWrite (k.dque i) data).1 = .noErr
  · simp [hid, hr, hw, answer, Kernel.ret]
  · simp [hid, hr, hw, answer, Kernel.ret]

theorem send_dque (hr : k.sch.que (.wreceive i) = []) {data : Nat}
    (hw : (dqueFifoWrite (k.dque i) data).1 = .noErr) :
    (tnQueueSendPolling i data k).1.dque i = (dqueFifoWrite (k.dque i) data).2 := by
  unfold tnQueueSendPolling queueSend
  simp [hid, hr, hw, Kernel.ret, Kernel.setDque]

/-- A receive that finds no sender. -/
theorem answer_receive (hs : k.sch.que (.wsend i) = []) :
    (answer (tnQueueReceivePolling i k)).map Prod.fst = some .noErr ↔
    (dqueFifoRead (k.dque i)).1 = .noErr := by
  unfold tnQueueReceivePolling queueReceive
  by_cases hr : (dqueFifoRead (k.dque i)).1 = .noErr
  · simp [hid, hs, hr, answer, Kernel.ret, Kernel.setDque]
  · simp [hid, hs, hr, answer, Kernel.ret]

include h

theorem receive_fifo (hn : 1 ≤ (k.dque i).numEntries) {data : Nat} {rest : List Nat}
    (hf : (k.dque i).fifo = data :: rest) :
    answer (tnQueueReceivePolling i k) = some (.noErr, data) ∧
      ((tnQueueReceivePolling i k).1.dque i).fifo =
        rest ++ ((k.sch.que (.wsend i)).head?.map fun t => (k.sch.tcb t).dataElem).toList := by
  have hr : (dqueFifoRead (k.dque i)).1 = .noErr := by
    by_contra hc
    rw [h.read_fails hc] at hf
    cases hf
  obtain ⟨hok, hcons, hsize⟩ := h.read hr
  rw [hf, List.cons.injEq] at hcons
  obtain ⟨hdata, hrest⟩ := hcons
  unfold tnQueueReceivePolling queueReceive
  cases hs : k.sch.que (.wsend i) with
  | nil => simp [hid, hs, hr, answer, Kernel.ret, Kernel.setDque, hdata, hrest]
  | cons t l =>
    -- the cell that has been read is free for the datum of the sender
    have hlt := h.length_lt hn
    have hw : (dqueFifoWrite (dqueFifoRead (k.dque i)).2.2 (k.sch.tcb t).dataElem).1 = .noErr := by
      by_contra hc
      have hfull := (hok.write_fails _).mp hc
      rw [← hrest, hsize] at hfull
      rw [hf, List.length_cons] at hlt
      omega
    have hwrite := (hok.write hw).2
    simp [hid, hs, hr, answer, Kernel.setDque, Kernel.wakeHead, hdata, hwrite, ← hrest]

end Queue

/-- **What a data queue holds.**  In every state of every run, a queue with `num_entries` cells behaves
    as one with room for `num_entries` data exactly when a receiver waits or it does not hold
    `num_entries - 1` data. -/
theorem queue_holds_iff (es : List Event) (k : Kernel) (i : Nat)
    (hk : (Machine.run kernelMachine (some Kernel.start) es).1 = some k) (hid : (k.dque i).idDque = true)
    (hn : 1 ≤ (k.dque i).numEntries) :
    HoldsEntries k i ↔
      k.sch.que (.wreceive i) ≠ [] ∨ (k.dque i).fifo.length ≠ (k.dque i).numEntries - 1 := by
  have h := ring_run es hk i
  have hlt := h.length_lt hn
  constructor
  · intro hh
    by_contra hc
    simp only [not_or, not_not] at hc
    obtain ⟨hr, hlen⟩ := hc
    have hfails := (hh.send_fails hr 0).mp (mt (answer_send hid hr 0).mp ((h.write_fails 0).mpr hlen))
    omega
  · intro hcond
    -- a send that finds no receiver finds a free cell
    have hwrite : k.sch.que (.wreceive i) = [] → ∀ data, (dqueFifoWrite (k.dque i) data).1 = .noErr := by
      intro hr data
      by_contra hc
      exact hcond.elim (absurd hr) (absurd ((h.write_fails data).mp hc))
    constructor
    case send_fails =>
      intro hr data
      rw [Ne, answer_send hid hr data]
      exact ⟨fun hc => absurd (hwrite hr data) hc, fun hc => by omega⟩
    case send =>
      intro hr data _
      rw [send_dque hid hr (hwrite hr data)]
      exact (h.write (hwrite hr data)).2
    case receive_fails =>
      intro hs
      rw [Ne, answer_receive hid hs]
      refine ⟨h.read_fails, fun hf hc => ?_⟩
      rw [(h.read hc).2.1] at hf
      cases hf
    case receive => exact fun data rest hf => receive_fifo h hid hn hf
    case counters =>
      have hok : (k.dque i).ring.Ok := h.resolve_right fun hc => by omega
      exact ⟨hok.tail, hok.head⟩

/-- A queue for one datum. -/
def oneEntryRun : List Event := twoTasks ++ [.task (.queueCreate 0 true 1)]

/-- A queue for two data. -/
def twoEntriesRun : List Event := twoTasks ++ [.task (.queueCreate 0 true 2)]

theorem oneEntry_isSome : (Machine.run kernelMachine (some Kernel.start) oneEntryRun).1.isSome = true := by
  decide +kernel

theorem twoEntries_isSome :
    (Machine.run kernelMachine (some Kernel.start) twoEntriesRun).1.isSome = true := by
  decide +kernel

theorem queue_holds_two_entries :
    HoldsEntries ((Machine.run kernelMachine (some Kernel.start) twoEntriesRun).1.get twoEntries_isSome)
    0 :=
  (queue_holds_iff twoEntriesRun _ 0 (Option.some_get twoEntries_isSome).symm (by decide +kernel)
    (by decide +kernel)).mpr (.inr (by decide +kernel))

/-- A queue that was created for one datum takes none. -/
theorem one_entry_refused :
    ¬ ∀ (es : List Event) (k : Kernel) (i : Nat),
    Machine.Guarded kernelMachine Enabled (some Kernel.start) es →
      (Machine.run kernelMachine (some Kernel.start) es).1 = some k → (k.dque i).idDque = true →
      1 ≤ (k.dque i).numEntries → HoldsEntries k i := by
  intro hall
  have hk := (Option.some_get oneEntry_isSome).symm
  have hh := hall oneEntryRun _ 0 (by decide +kernel) hk (by decide +kernel) (by decide +kernel)
  have hfails := hh.send_fails (by decide +kernel) 10
  revert hfails
  decide +kernel

end TnKernel
