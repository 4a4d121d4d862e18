import TnNet.Lib.FreeList
import TnNet.Kernel.ResourceRun

/-!
# Fixed-size memory pools

The blocks of a pool and its free list in memory.  The kernel model keeps the free list as a list of
addresses; here `free_list` is a pointer, and a free block holds the pointer to the next one, as `fm_get`,
`fm_put` and the loop at the end of `tn_fmem_create` read and write them.  Tasks and interrupt handlers
store where they like, except for the pointers in the free blocks.

`pools_ok` — in every run in which blocks are given back by their holders and no wait for a resource is
released: the pointers lead through `fblkcnt` different blocks to the null pointer, these and the blocks
that are held are all blocks of the pool, each once, and no task waits while a block is free.
-/

set_option autoImplicit false

namespace TnKernel

open FreeList (Threaded chain thread segment segment_succ thread_of_not_mem threaded_thread)

variable {k k' : Kernel} {t : TaskId} {hist obs : List Obs} {a : Allow} {i : Nat}

/-! ## Accounting -/

/-- No block is lost, and no task waits while a block is free. -/
structure FullInv (k : Kernel) (hist : List Obs) (i : Nat) : Prop where
  full : (k.fmp i).idFmp = true →
    (k.fmp i).freeList.length + (held i hist).length = (k.fmp i).numBlocks
  waits : k.sch.que (.fmp i) ≠ [] → (k.fmp i).fblkcnt = 0

theorem FullInv.keep (h : FullInv k hist i) (hf : k'.fmp i = k.fmp i)
    (hq : k'.sch.que (.fmp i) ≠ [] → (k.fmp i).fblkcnt = 0)
    (ho : ∀ o ∈ obs, o.offPool i) : FullInv k' (hist ++ obs) i := by
  constructor
  case full =>
    rw [hf, held_offPool hist ho]
    exact h.full
  case waits =>
    rw [hf]
    exact hq

/-- **The acts keep the accounting.** -/
theorem FullInv.act (hk : KInv k) (hp : PoolInv k hist i) (h : FullInv k hist i)
    (hheld : ∀ j block, a.freed j block → block ∈ held j hist) (hact : Act a k obs k') :
    FullInv k' (hist ++ obs) i := by
  cases hact.onPool hk i with
  | other hf hq ho => exact h.keep hf (fun hw => h.waits (hq hw)) ho
  | block hf hx ho => exact h.keep hf (fun _ => hx) ho
  | create hid hq hx ha hf ho =>
    constructor
    case full =>
      rw [hf, held_offPool hist ho, (hp.fresh hid).2]
      intro hc
      rw [(hx hc).list]
      simp
    case waits =>
      rw [hq]
      exact fun hw => absurd rfl hw
  | get hid hc hq hf =>
    have hheld : held i (hist ++ [.ret (.get i) .noErr ((k.fmp i).freeList.headD 0)]) =
        (k.fmp i).freeList.headD 0 :: held i hist := by
      rw [held_append]
      simp [heldBy]
    constructor
    case full =>
      rw [hf, hheld, List.length_tail, List.length_cons]
      intro _
      have h1 := h.full hid
      have h2 := hp.count hid
      dsimp only
      omega
    case waits =>
      rw [hq]
      exact fun hw => absurd (h.waits hw) (Nat.ne_of_gt hc)
  | @grant _ block t hid ha hq hf =>
    have hh : held i (hist ++ [.ret (.release i block) .noErr 0, .grant t (.get i) block]) =
        block :: (held i hist).erase block := by
      rw [held_append]
      simp [heldBy]
    constructor
    case full =>
      rw [hf, hh, (List.perm_cons_erase (hheld i block ha)).symm.length_eq]
      exact h.full
    case waits =>
      rw [hf]
      exact fun _ => h.waits hq
  | @release _ block hid ha hq hf =>
    have hb := hheld i block ha
    constructor
    case full =>
      rw [hf, if_pos (hp.not_full hid hb), held_release, List.length_cons,
        List.length_erase_of_mem hb]
      have h1 := h.full hid
      have h2 := List.length_pos_of_mem hb
      intro _
      dsimp only
      omega
    case waits =>
      rw [hq]
      exact fun hw => absurd rfl hw

/-! ## The other services -/

/-- The services of `tn_mem.c`. -/
def Event.onPool : Event → Bool
  | .task (.fmemCreate _ _ _ _) => true
  | .task (.fmemGet _ _) => true
  | .task (.fmemGetPolling _) => true
  | .task (.fmemRelease _ _) => true
  | .isr (.fmemGetIpolling _) => true
  | .isr (.fmemIrelease _ _) => true
  | _ => false

theorem tnSemSignal_fmp (i : Nat) (k : Kernel) : (tnSemSignal i k).1.fmp = k.fmp := by
  unfold tnSemSignal
  repeat' split
  all_goals rfl

theorem tnSemPolling_fmp (i : Nat) (k : Kernel) : (tnSemPolling i k).1.fmp = k.fmp := by
  unfold tnSemPolling
  repeat' split
  all_goals rfl

theorem queueSend_fmp {onFull : Kernel → Res} (h : (onFull k).1.fmp = k.fmp) (i data : Nat) :
    (queueSend i data onFull k).1.fmp = k.fmp := by
  unfold queueSend
  repeat' split
  all_goals first | exact h | rfl

theorem queueReceive_fmp {onEmpty : Kernel → Res} (h : (onEmpty k).1.fmp = k.fmp) (i : Nat) :
    (queueReceive i onEmpty k).1.fmp = k.fmp := by
  unfold queueReceive
  dsimp only
  repeat' split
  all_goals first | exact h | rfl

theorem eventWait_fmp {onFalse : Kernel → Res} (h : (onFalse k).1.fmp = k.fmp) (i : Nat)
    (pattern mode : BitVec 32) : (eventWait i pattern mode onFalse k).1.fmp = k.fmp := by
  unfold eventWait
  dsimp only
  repeat' split
  all_goals first | exact h | rfl

theorem tnEventSet_fmp (i : Nat) (pattern : BitVec 32) (k : Kernel) :
    (tnEventSet i pattern k).1.fmp = k.fmp := by
  unfold tnEventSet
  dsimp only
  repeat' split
  all_goals rfl

theorem tnEventClear_fmp (i : Nat) (pattern : BitVec 32) (k : Kernel) :
    (tnEventClear i pattern k).1.fmp = k.fmp := by
  unfold tnEventClear
  repeat' split
  all_goals rfl

theorem lockWait_fmp {m : Nat} {blk : Option TaskId} {reason : WaitReason} {timeout : BitVec 32} {r : Res}
    (h : lockWait m blk reason timeout k = some r) : r.1.fmp = k.fmp := by
  obtain ⟨s, -, rfl⟩ := Option.map_eq_some_iff.mp h
  rfl

theorem tryLockMutex_fmp {x y : Kernel × List Obs} {t : TaskId} (h : tryLockMutex x t = some y) :
    y.1.fmp = x.1.fmp := by
  unfold tryLockMutex at h
  dsimp only at h
  split at h
  · split at h
    · cases h
      rfl
    · cases h
      rfl
  · cases h

theorem foldlM_tryLock_fmp (hi : TaskId) (l : List TaskId) {x y : Kernel × List Obs}
    (h : l.foldlM (fun x t => if t = hi then some x else tryLockMutex x t) x = some y) :
    y.1.fmp = x.1.fmp := by
  induction l generalizing x with
  | nil =>
    cases h
    rfl
  | cons t l ih =>
    obtain ⟨z, hz, h⟩ := Option.bind_eq_some_iff.mp h
    rw [ih h]
    dsimp only at hz
    split at hz
    · cases hz
      rfl
    · exact tryLockMutex_fmp hz

theorem unlockPriority_fmp {m : Nat} (h : unlockPriority m k = some k') : k'.fmp = k.fmp := by
  obtain ⟨s, -, rfl⟩ := Option.map_eq_some_iff.mp h
  rfl

theorem unlockToWaiter_fmp (m : Nat) (t : TaskId) (k : Kernel) : (unlockToWaiter m t k).1.fmp = k.fmp := by
  unfold unlockToWaiter
  repeat' split
  all_goals rfl

theorem doUnlockMutex_fmp {m : Nat} {r : Kernel × List Obs} (h : doUnlockMutex m k = some r) :
    r.1.fmp = k.fmp := by
  obtain ⟨k1, hk1, h⟩ := Option.bind_eq_some_iff.mp h
  rw [← unlockPriority_fmp hk1]
  split at h
  · cases h
    rfl
  · unfold unlockBlocked at h
    dsimp only at h
    split at h
    · cases h
    · exact foldlM_tryLock_fmp _ _ h
  · cases h
    rfl
  · obtain ⟨t, -, rfl⟩ := Option.map_eq_some_iff.mp h
    exact unlockToWaiter_fmp _ _ _

theorem tnMutexLock_fmp {m : Nat} {timeout : BitVec 32} {r : Res} (h : tnMutexLock m timeout k = some r) :
    r.1.fmp = k.fmp := by
  unfold tnMutexLock at h
  dsimp only at h
  repeat' split at h
  all_goals first
    | exact lockWait_fmp h
    | (cases h; rfl)
    | obtain ⟨r', hr', rfl⟩ := Option.map_eq_some_iff.mp h
      have hf := lockWait_fmp hr'
      exact hf

theorem tnMutexUnlock_fmp {m : Nat} {r : Res} (h : tnMutexUnlock m k = some r) :
    r.1.fmp = k.fmp := by
  unfold tnMutexUnlock at h
  split at h
  · cases h
    rfl
  split at h
  · cases h
    rfl
  · obtain ⟨r', hr', rfl⟩ := Option.map_eq_some_iff.mp h
    have hf := doUnlockMutex_fmp hr'
    exact hf

theorem taskStep_fmp {sv : Service} {r : Res} (h : (Event.task sv).onPool = false)
    (hr : taskStep k sv = some r) : r.1.fmp = k.fmp := by
  cases sv
  case fmemCreate | fmemGet | fmemGetPolling | fmemRelease => cases h
  case mutexLock => exact tnMutexLock_fmp hr
  case mutexUnlock => exact tnMutexUnlock_fmp hr
  case create =>
    simp only [taskStep] at hr
    split at hr <;> cases hr <;> rfl
  all_goals cases hr
  case terminate =>
    unfold Kernel.terminate
    dsimp only
    split <;> rfl
  case sleep =>
    unfold Kernel.sleep
    split <;> rfl
  case semCreate =>
    unfold tnSemCreate
    split <;> rfl
  case semSignal => exact tnSemSignal_fmp _ k
  case semPolling => exact tnSemPolling_fmp _ k
  case semAcquire =>
    unfold tnSemAcquire
    repeat' split
    all_goals rfl
  case queueCreate =>
    unfold tnQueueCreate
    repeat' split
    all_goals rfl
  case queueSend =>
    unfold tnQueueSend
    split
    · rfl
    · exact queueSend_fmp rfl _ _
  case queueSendPolling => exact queueSend_fmp rfl _ _
  case queueReceive =>
    unfold tnQueueReceive
    split
    · rfl
    · exact queueReceive_fmp rfl _
  case queueReceivePolling => exact queueReceive_fmp rfl _
  case eventCreate =>
    unfold tnEventCreate
    dsimp only
    repeat' split
    all_goals rfl
  case eventWait =>
    unfold tnEventWait
    split
    · rfl
    · exact eventWait_fmp rfl _ _ _
  case eventWaitPolling => exact eventWait_fmp rfl _ _ _
  case eventSet => exact tnEventSet_fmp _ _ k
  case eventClear => exact tnEventClear_fmp _ _ k
  case mutexCreate =>
    unfold tnMutexCreate
    repeat' split
    all_goals rfl
  case mutexLockPolling =>
    unfold tnMutexLockPolling
    dsimp only
    repeat' split
    all_goals rfl
  all_goals rfl

/-- A service that is not of `tn_mem.c` leaves the pools alone. -/
theorem kernelStep_fmp {ev : Event} {r : Res} (h : ev.onPool = false) (hr : kernelStep k ev = some r) :
    r.1.fmp = k.fmp := by
  cases ev with
  | task sv => exact taskStep_fmp h hr
  | isr sv =>
    cases hr
    cases sv
    case fmemGetIpolling | fmemIrelease => cases h
    case semIsignal => exact tnSemSignal_fmp _ k
    case semIpolling => exact tnSemPolling_fmp _ k
    case queueIsendPolling => exact queueSend_fmp rfl _ _
    case queueIreceive => exact queueReceive_fmp rfl _
    case eventIwait => exact eventWait_fmp rfl _ _ _
    case eventIset => exact tnEventSet_fmp _ _ k
    case eventIclear => exact tnEventClear_fmp _ _ k
    all_goals rfl
  | tick =>
    cases hr
    rfl
  | timerLoop =>
    cases hr
    rfl
  | switchContext =>
    cases hr
    rfl
  | back =>
    cases hr
    show k.back.1.fmp = _
    unfold Kernel.back
    dsimp only
    split <;> rfl

/-! ## The memory -/

/-- The words of the memory, and `free_list` of the pools. -/
structure PoolMem where
  word : Nat → Nat
  freeList : Nat → Nat

/-- `fm_get`, up to the count: `fmp->free_list = *(void **)fmp->free_list`. -/
def PoolMem.fmGet (m : PoolMem) (x : Fmp) (i : Nat) : PoolMem :=
  if x.idFmp ∧ 0 < x.fblkcnt then
    { m with freeList := Function.update m.freeList i (m.word (m.freeList i)) }
  else m

/-- `fm_put`, up to the count, for a block that no task waits for. -/
def PoolMem.fmPut (m : PoolMem) (k : Kernel) (i block : Nat) : PoolMem :=
  if (k.fmp i).idFmp ∧ k.sch.que (.fmp i) = [] ∧ (k.fmp i).fblkcnt < (k.fmp i).numBlocks then
    ⟨Function.update m.word block (m.freeList i), Function.update m.freeList i block⟩
  else m

/-- What `tn_fmem_create` writes; the pool was `x` and is `x'`. -/
def PoolMem.create (m : PoolMem) (x x' : Fmp) (i : Nat) : PoolMem :=
  if x.idFmp then m
  else if x'.idFmp then
    ⟨thread x'.blockSize (x'.numBlocks - 1) x'.startAddr m.word,
      Function.update m.freeList i x'.startAddr⟩
  else { m with freeList := Function.update m.freeList i 0 }

/-- The memory behind an event that takes the kernel from `k` to `k'`. -/
def PoolMem.after (m : PoolMem) (k k' : Kernel) : Event → PoolMem
  | .task (.fmemCreate i _ _ _) => m.create (k.fmp i) (k'.fmp i) i
  | .task (.fmemGet i timeout) => if timeout = 0 then m else m.fmGet (k.fmp i) i
  | .task (.fmemGetPolling i) => m.fmGet (k.fmp i) i
  | .isr (.fmemGetIpolling i) => m.fmGet (k.fmp i) i
  | .task (.fmemRelease i block) => m.fmPut k i block
  | .isr (.fmemIrelease i block) => m.fmPut k i block
  | _ => m

/-- The calls of `fm_get`. -/
def Event.gets : Event → Bool
  | .task (.fmemGet _ _) => true
  | .task (.fmemGetPolling _) => true
  | .isr (.fmemGetIpolling _) => true
  | _ => false

/-- `fm_get` returns what `free_list` points to. -/
def PoolMem.sees (m : PoolMem) (ev : Event) : Obs → Obs
  | .ret (.get i) .noErr block => .ret (.get i) .noErr (if ev.gets then m.freeList i else block)
  | o => o

/-- The kernel, its memory, and the pools that were created. -/
structure PoolWorld where
  kern : Kernel
  mem : PoolMem
  pools : List Nat

/-- An event of the kernel, or a store of a task or an interrupt handler. -/
inductive PoolEvent where
  | kernel (ev : Event)
  | store (addr value : Nat)

/-- The pool a service creates. -/
def Event.creates : Event → Option Nat
  | .task (.fmemCreate i _ _ _) => some i
  | _ => none

def poolMachine : Machine.Step PoolWorld PoolEvent Obs
  | w, .kernel ev =>
    ((kernelMachine w.kern ev).1.map fun k' =>
        ⟨k', w.mem.after w.kern k' ev, ev.creates.toList ++ w.pools⟩,
      (kernelMachine w.kern ev).2.map (w.mem.sees ev))
  | w, .store addr value =>
    (some { w with mem := { w.mem with word := Function.update w.mem.word addr value } }, [])

/-- The blocks that `free_list` leads to. -/
def PoolWorld.freeBlocks (w : PoolWorld) (i : Nat) : List Nat :=
  chain w.mem.word (w.mem.freeList i) (w.kern.fmp i).fblkcnt

/-- The memory from `start` to `stop` is not the memory of the pool. -/
def Fmp.Apart (x : Fmp) (start stop : Nat) : Prop :=
  stop ≤ x.startAddr ∨ x.startAddr + x.blockSize * x.numBlocks ≤ start

/-- What the callers owe: a new pool gets memory of its own, and nobody writes to a free block where
    it keeps its pointer. -/
def PoolGuard (s : PoolWorld × List Obs) : PoolEvent → Prop
  | .kernel ev => ResourceEvent (s.1.kern, s.2) ev ∧
    match ev with
    | .task (.fmemCreate i startAddr blockSize numBlocks) =>
      startAddr ≠ 0 ∧ ∀ j ∈ s.1.pools, j ≠ i → (s.1.kern.fmp j).idFmp = true →
        (s.1.kern.fmp j).Apart startAddr (startAddr + blockSize * numBlocks.toNat)
    | _ => True
  | .store addr _ => ∀ i ∈ s.1.pools, (s.1.kern.fmp i).idFmp = true → addr ∉ s.1.freeBlocks i

/-! ## What a step does to the pools -/

/-- What an event does to the pools and to their memory, with the blocks `fm_get` returns. -/
inductive PoolStep (k : Kernel) (m : PoolMem) : Event → Kernel → PoolMem → List Obs → List Obs → Prop
  | other {ev : Event} {k' : Kernel} {obs : List Obs} (hf : k'.fmp = k.fmp)
      (hc : ∀ i ∈ ev.creates, (k.fmp i).idFmp = true) : PoolStep k m ev k' m obs obs
  | get {ev : Event} {k' : Kernel} {i : Nat} (hid : (k.fmp i).idFmp = true)
      (hn : 0 < (k.fmp i).fblkcnt)
      (hf : k'.fmp = Function.update k.fmp i { k.fmp i with
        freeList := (k.fmp i).freeList.tail, fblkcnt := (k.fmp i).fblkcnt - 1 }) :
      PoolStep k m ev k' { m with freeList := Function.update m.freeList i (m.word (m.freeList i)) }
        [.ret (.get i) .noErr ((k.fmp i).freeList.headD 0)] [.ret (.get i) .noErr (m.freeList i)]
  | put {ev : Event} {k' : Kernel} {i block : Nat} {obs : List Obs} (hev : ev.frees = some (i, block))
      (hid : (k.fmp i).idFmp = true)
      (hf : k'.fmp = Function.update k.fmp i { k.fmp i with
        freeList := block :: (k.fmp i).freeList, fblkcnt := (k.fmp i).fblkcnt + 1 }) :
      PoolStep k m ev k'
        ⟨Function.update m.word block (m.freeList i), Function.update m.freeList i block⟩ obs obs
  | create {k' : Kernel} {i startAddr blockSize : Nat} {numBlocks : Int} {x : Fmp} {obs : List Obs}
      (hid : (k.fmp i).idFmp = false) (hx : x.idFmp = true) (hn : 2 ≤ x.numBlocks)
      (hnew : FmpNew startAddr blockSize numBlocks x)
      (hfit : x.numBlocks = fmemFit ((startAddr + blockSize * numBlocks.toNat) % 2 ^ 32)
        (alignUp blockSize) numBlocks.toNat
          ((alignUp startAddr + alignUp blockSize * numBlocks.toNat) % 2 ^ 32))
      (hf : k'.fmp = Function.update k.fmp i x) :
      PoolStep k m (.task (.fmemCreate i startAddr blockSize numBlocks)) k'
        ⟨thread x.blockSize (x.numBlocks - 1) x.startAddr m.word,
          Function.update m.freeList i x.startAddr⟩ obs obs
  | createFails {ev : Event} {k' : Kernel} {i : Nat} {x : Fmp} {obs : List Obs}
      (hid : (k.fmp i).idFmp = false) (hx : x.idFmp = false)
      (hf : k'.fmp = Function.update k.fmp i x) :
      PoolStep k m ev k' { m with freeList := Function.update m.freeList i 0 } obs obs

variable {m : PoolMem} {ev : Event}

theorem sees_of_not_gets (m : PoolMem) (h : ev.gets = false) (obs : List Obs) :
    obs.map (m.sees ev) = obs := by
  conv_rhs => rw [← List.map_id obs]
  apply List.map_congr_left
  intro o _
  unfold PoolMem.sees
  split
  · simp [h]
  · rfl

/-- `fm_get` in `tn_fmem_get` and its polling versions. -/
theorem poolStep_get {i : Nat} {onEmpty : Kernel → Res} (hev : ev.gets = true)
    (hc : ev.creates = none) (hf : (onEmpty k).1.fmp = k.fmp)
    (ho : (onEmpty k).2.map (m.sees ev) = (onEmpty k).2) :
    PoolStep k m ev (fmemGet i onEmpty k).1 (m.fmGet (k.fmp i) i) (fmemGet i onEmpty k).2
      ((fmemGet i onEmpty k).2.map (m.sees ev)) := by
  have hc' : ∀ i ∈ ev.creates, (k.fmp i).idFmp = true := by simp [hc]
  unfold fmemGet PoolMem.fmGet
  split
  · rename_i hid
    rw [if_neg (by simp_all)]
    exact .other rfl hc'
  rename_i hid
  have hid' : (k.fmp i).idFmp = true := by simpa using hid
  split
  · rename_i hn
    rw [if_pos ⟨hid', hn⟩]
    simp only [Kernel.ret, PoolMem.sees, hev, List.map_cons, List.map_nil, if_true]
    exact .get hid' hn rfl
  · rename_i hn
    rw [if_neg (by simp [hn]), ho]
    exact .other hf hc'

theorem poolStep_release {i block : Nat} (hev : ev.frees = some (i, block)) (hc : ev.creates = none)
    (hg : ev.gets = false) :
    PoolStep k m ev (tnFmemRelease i block k).1 (m.fmPut k i block) (tnFmemRelease i block k).2
      ((tnFmemRelease i block k).2.map (m.sees ev)) := by
  have hc' : ∀ i ∈ ev.creates, (k.fmp i).idFmp = true := by simp [hc]
  rw [sees_of_not_gets m hg]
  unfold tnFmemRelease PoolMem.fmPut
  split
  · rename_i hid
    rw [if_neg (by simp_all)]
    exact .other rfl hc'
  rename_i hid
  have hid' : (k.fmp i).idFmp = true := by simpa using hid
  split
  · rename_i t l hl
    rw [if_neg (by simp [hl])]
    exact .other rfl hc'
  · rename_i hl
    by_cases hn : (k.fmp i).fblkcnt < (k.fmp i).numBlocks
    · rw [if_pos hn, if_pos ⟨hid', hl, hn⟩]
      exact .put hev hid' rfl
    · rw [if_neg hn, if_neg (by simp [hn])]
      exact .other rfl hc'

theorem poolStep_create (i startAddr blockSize : Nat) (numBlocks : Int) :
    PoolStep k m (.task (.fmemCreate i startAddr blockSize numBlocks))
      (tnFmemCreate i startAddr blockSize numBlocks k).1
      (m.create (k.fmp i) ((tnFmemCreate i startAddr blockSize numBlocks k).1.fmp i) i)
      (tnFmemCreate i startAddr blockSize numBlocks k).2
      ((tnFmemCreate i startAddr blockSize numBlocks k).2.map
        (m.sees (.task (.fmemCreate i startAddr blockSize numBlocks)))) := by
  rw [sees_of_not_gets m rfl]
  unfold tnFmemCreate PoolMem.create
  by_cases hid : (k.fmp i).idFmp = true
  · rw [if_pos hid, if_pos hid]
    refine .other rfl ?_
    simp [Event.creates, hid]
  have hid' : (k.fmp i).idFmp = false := by simpa using hid
  rw [if_neg hid, if_neg hid]
  split
  · simp only [Kernel.ret, Kernel.setFmp, Function.update_self, hid', Bool.false_eq_true, if_false]
    exact .createFails hid' rfl rfl
  rename_i hargs
  rw [not_or, Int.not_lt, Nat.not_lt] at hargs
  dsimp only
  split
  · simp only [Kernel.ret, Kernel.setFmp, Function.update_self, hid', Bool.false_eq_true, if_false]
    exact .createFails hid' rfl rfl
  · rename_i hn
    generalize hm : fmemFit _ _ _ _ = n at hn ⊢
    simp only [Kernel.ret, Kernel.setFmp, Function.update_self, if_true]
    exact .create (x := ⟨alignUp startAddr, alignUp blockSize, n,
      (List.range n).map fun j => alignUp startAddr + alignUp blockSize * j, n, true⟩) hid' rfl
        (Nat.not_lt.mp hn) ⟨hargs, rfl, rfl, rfl, rfl⟩ hm.symm rfl

/-- **What an event does to the pools.** -/
theorem kernelStep_pool {r : Res} (hr : kernelStep k ev = some r) :
    PoolStep k m ev r.1 (m.after k r.1 ev) r.2 (r.2.map (m.sees ev)) := by
  by_cases hp : ev.onPool = true
  · unfold Event.onPool at hp
    split at hp
    · cases hr
      exact poolStep_create _ _ _ _
    · rename_i i timeout
      cases hr
      simp only [PoolMem.after, tnFmemGet]
      split
      · exact .other rfl (by simp [Event.creates])
      · exact poolStep_get rfl rfl rfl rfl
    · cases hr
      exact poolStep_get rfl rfl rfl rfl
    · cases hr
      exact poolStep_release rfl rfl rfl
    · cases hr
      exact poolStep_get rfl rfl rfl rfl
    · cases hr
      exact poolStep_release rfl rfl rfl
    · cases hp
  · have hf := kernelStep_fmp (by simpa using hp) hr
    have hm : m.after k r.1 ev = m := by
      unfold PoolMem.after
      split <;> first | rfl | simp [Event.onPool] at hp
    have hg : ev.gets = false := by
      unfold Event.gets
      split <;> first | rfl | simp [Event.onPool] at hp
    rw [hm, sees_of_not_gets m hg]
    refine .other hf ?_
    unfold Event.creates
    split
    · simp [Event.onPool] at hp
    · simp

/-! ## The invariant -/

/-- The resources, with nothing lost. -/
structure AccountInv (k : Kernel) (hist : List Obs) : Prop where
  res : ResInv k hist
  full : ∀ i, FullInv k hist i

theorem AccountInv.act (h : AccountInv k hist) (hr : ∀ t, ¬a.release t)
    (hfit : ∀ startAddr blockSize numBlocks, a.create startAddr blockSize numBlocks →
      FmemFits startAddr blockSize numBlocks)
    (hheld : ∀ j block, a.freed j block → block ∈ held j hist) (hact : Act a k obs k')
    (hs : SInv none k'.sch) : AccountInv k' (hist ++ obs) :=
  ⟨h.res.act hr hfit hheld hact hs,
    fun i => (h.full i).act h.res.record.kinv (h.res.pool i) hheld hact⟩

theorem AccountInv.acts (h : AccountInv k hist) (hact : Acts Allow.fits k obs k') :
    AccountInv k' (hist ++ obs) := by
  refine (hact.induct AccountInv ?_ hist h.res.record.kinv h).2
  intro k k' hist obs _ hk' h hact
  exact h.act (fun _ => id) (fun _ _ _ => id) (fun _ _ => False.elim) hact hk'.sch

theorem AccountInv.step (h : AccountInv k hist) (hc : ResourceEvent (k, hist) ev) {r : Res}
    (hr : kernelStep k ev = some r) : AccountInv r.1 (hist ++ r.2) := by
  obtain ⟨hen, hx, hargs⟩ := hc
  cases hf : ev.frees with
  | none =>
    exact h.acts (kernelStep_acts h.res.record.kinv hen hx (fits_permits hargs hf) hr)
  | some p =>
    rw [kernelStep_frees hf] at hr
    cases hr
    obtain ⟨hact, hs⟩ := act_fmemRelease
      (a := ⟨FmemFits, fun i block => block ∈ held i hist, fun _ => False⟩) h.res.record.kinv p.1 p.2
      (hargs.frees hf)
    exact h.act (fun _ => id) (fun _ _ _ => id) (fun _ _ => id) hact hs

/-- The pools in memory: each has its own, and the pointers lead through its free blocks. -/
structure MemInv (k : Kernel) (m : PoolMem) : Prop where
  size : ∀ i, (k.fmp i).idFmp = true → 0 < (k.fmp i).blockSize
  threaded : ∀ i, (k.fmp i).idFmp = true → Threaded m.word 0 (m.freeList i) (k.fmp i).freeList
  apart : ∀ i j, i ≠ j → (k.fmp i).idFmp = true → (k.fmp j).idFmp = true →
    (k.fmp j).Apart (k.fmp i).startAddr
      ((k.fmp i).startAddr + (k.fmp i).blockSize * (k.fmp i).numBlocks)

/-- The memory of a pool. -/
theorem Fmp.mem_blocks {x : Fmp} (hs : 0 < x.blockSize) {block : Nat} (hb : block ∈ x.blocks) :
    x.startAddr ≤ block ∧ block < x.startAddr + x.blockSize * x.numBlocks := by
  obtain ⟨j, hj, rfl⟩ := List.mem_map.mp hb
  rw [List.mem_range] at hj
  have h1 := Nat.mul_lt_mul_of_pos_left hj hs
  omega

theorem Fmp.Apart.not_mem {x : Fmp} {start stop block : Nat} (h : x.Apart start stop)
    (hs : 0 < x.blockSize) (h1 : start ≤ block) (h2 : block < stop) : block ∉ x.blocks := by
  intro hb
  have h3 := Fmp.mem_blocks hs hb
  unfold Fmp.Apart at h
  omega

/-- A pool that is not concerned. -/
theorem MemInv.other (h : MemInv k m) {m' : PoolMem} (hf : k'.fmp i = k.fmp i)
    (hl : m'.freeList i = m.freeList i) (hid : (k'.fmp i).idFmp = true)
    (hw : ∀ block ∈ (k.fmp i).freeList, m'.word block = m.word block) :
    Threaded m'.word 0 (m'.freeList i) (k'.fmp i).freeList := by
  rw [hf] at hid ⊢
  rw [hl]
  exact (h.threaded i hid).frame hw

/-- Blocks go out of and into the free list of a pool. -/
theorem MemInv.update (h : MemInv k m) {m' : PoolMem} {x : Fmp} (hid : (k.fmp i).idFmp = true)
    (hf : k'.fmp = Function.update k.fmp i x) (hx : x.idFmp = true)
    (hs : x.startAddr = (k.fmp i).startAddr ∧ x.blockSize = (k.fmp i).blockSize ∧
      x.numBlocks = (k.fmp i).numBlocks)
    (hi : Threaded m'.word 0 (m'.freeList i) x.freeList)
    (hj : ∀ j, j ≠ i → (k.fmp j).idFmp = true → m'.freeList j = m.freeList j ∧
      ∀ block ∈ (k.fmp j).freeList, m'.word block = m.word block) : MemInv k' m' := by
  have hself : k'.fmp i = x := by rw [hf, Function.update_self]
  have hother : ∀ j, j ≠ i → k'.fmp j = k.fmp j := fun j hne => by
    rw [hf, Function.update_of_ne hne]
  have hfields : ∀ j, (k'.fmp j).idFmp = (k.fmp j).idFmp ∧
      (k'.fmp j).startAddr = (k.fmp j).startAddr ∧ (k'.fmp j).blockSize = (k.fmp j).blockSize ∧
      (k'.fmp j).numBlocks = (k.fmp j).numBlocks := by
    intro j
    rcases eq_or_ne j i with rfl | hne
    · rw [hself, hx, hid]
      exact ⟨rfl, hs⟩
    · rw [hother j hne]
      exact ⟨rfl, rfl, rfl, rfl⟩
  constructor
  case size =>
    intro j
    rw [(hfields j).1, (hfields j).2.2.1]
    exact h.size j
  case threaded =>
    intro j hid'
    rcases eq_or_ne j i with rfl | hne
    · rw [hself]
      exact hi
    · rw [(hfields j).1] at hid'
      obtain ⟨h1, h2⟩ := hj j hne hid'
      exact h.other (hother j hne) h1 (by rw [hother j hne]; exact hid') h2
  case apart =>
    intro j j'
    unfold Fmp.Apart
    rw [(hfields j).1, (hfields j').1, (hfields j).2.1, (hfields j).2.2.1, (hfields j).2.2.2,
      (hfields j').2.1, (hfields j').2.2.1, (hfields j').2.2.2]
    exact h.apart j j'

/-- `fm_get`. -/
theorem MemInv.get (h : MemInv k m) (hid : (k.fmp i).idFmp = true)
    (hc : (k.fmp i).fblkcnt = (k.fmp i).freeList.length) (hn : 0 < (k.fmp i).fblkcnt)
    (hf : k'.fmp = Function.update k.fmp i { k.fmp i with
      freeList := (k.fmp i).freeList.tail, fblkcnt := (k.fmp i).fblkcnt - 1 }) :
    m.freeList i = (k.fmp i).freeList.headD 0 ∧
    MemInv k' { m with freeList := Function.update m.freeList i (m.word (m.freeList i)) } := by
  have hthr := h.threaded i hid
  cases hl : (k.fmp i).freeList with
  | nil =>
    rw [hl] at hc
    exact absurd hc (Nat.ne_of_gt hn)
  | cons block l =>
    rw [hl] at hthr
    obtain ⟨hb, hrest⟩ := hthr.pop
    refine ⟨hb, h.update hid hf hid ⟨rfl, rfl, rfl⟩ ?_ ?_⟩
    · rw [hl, List.tail_cons]
      dsimp only
      rw [Function.update_self]
      exact hrest
    · intro j hne _
      exact ⟨Function.update_of_ne hne _ _, fun _ _ => rfl⟩

/-- `fm_put`. -/
theorem MemInv.put (h : MemInv k m) {block : Nat} (hp : ∀ j, PoolInv k hist j)
    (hid : (k.fmp i).idFmp = true) (hb : block ∈ held i hist)
    (hf : k'.fmp = Function.update k.fmp i { k.fmp i with
      freeList := block :: (k.fmp i).freeList, fblkcnt := (k.fmp i).fblkcnt + 1 }) :
    MemInv k' ⟨Function.update m.word block (m.freeList i), Function.update m.freeList i block⟩ := by
  have hblock : block ∈ (k.fmp i).blocks := (hp i).blocks hid block (List.mem_append_right _ hb)
  refine h.update hid hf hid ⟨rfl, rfl, rfl⟩ ?_ ?_
  · dsimp only
    rw [Function.update_self]
    apply (h.threaded i hid).push
    intro hmem
    exact (List.nodup_append.mp ((hp i).nodup hid)).2.2 block hmem block hb rfl
  · intro j hne hidj
    refine ⟨Function.update_of_ne hne _ _, fun x hx => Function.update_of_ne ?_ _ _⟩
    rintro rfl
    obtain ⟨h1, h2⟩ := Fmp.mem_blocks (h.size i hid) hblock
    exact (h.apart i j (Ne.symm hne) hid hidj).not_mem (h.size j hidj) h1 h2
      ((hp j).blocks hidj x (List.mem_append_left _ hx))

theorem fmemFit_le {stop size start n : Nat} (hlt : start + size * n < 2 ^ 32) :
    2 ≤ fmemFit stop size n (start + size * n) →
      start + size * fmemFit stop size n (start + size * n) ≤ stop := by
  induction n with
  | zero => simp [fmemFit]
  | succ n ih =>
    unfold fmemFit
    rw [Nat.mul_succ] at hlt ⊢
    split
    · have hmod : (start + (size * n + size) + 2 ^ 32 - size) % 2 ^ 32 = start + size * n := by
        omega
      rw [hmod]
      exact ih (by omega)
    · intro _
      rw [Nat.mul_succ]
      omega

/-- A new pool lies in the memory it was given. -/
theorem FmpNew.bounds {startAddr blockSize : Nat} {numBlocks : Int} {x : Fmp}
    (h : FmpNew startAddr blockSize numBlocks x) (hn : 2 ≤ x.numBlocks)
    (hfit : x.numBlocks = fmemFit ((startAddr + blockSize * numBlocks.toNat) % 2 ^ 32)
      (alignUp blockSize) numBlocks.toNat
        ((alignUp startAddr + alignUp blockSize * numBlocks.toNat) % 2 ^ 32))
    (hfits : FmemFits startAddr blockSize numBlocks) :
    0 < x.blockSize ∧ startAddr ≤ x.startAddr ∧
      x.startAddr + x.blockSize * x.numBlocks ≤ startAddr + blockSize * numBlocks.toNat := by
  have hsize := le_alignUp hfits.2.1
  have h4 := h.args.2
  rw [Nat.mod_eq_of_lt hfits.2.2] at hfit
  rw [hfit] at hn
  have hle := fmemFit_le hfits.2.2 hn
  rw [h.start, h.size, hfit]
  refine ⟨by omega, le_alignUp hfits.1, hle.trans (Nat.mod_le _ _)⟩

/-- `tn_fmem_create` writes its pointers into the new pool. -/
theorem MemInv.create (h : MemInv k m) {startAddr blockSize : Nat} {numBlocks : Int} {x : Fmp}
    (hp : ∀ j, PoolInv k hist j) (hn : 2 ≤ x.numBlocks)
    (hnew : FmpNew startAddr blockSize numBlocks x)
    (hb : 0 < x.blockSize ∧ startAddr ≤ x.startAddr ∧
      x.startAddr + x.blockSize * x.numBlocks ≤ startAddr + blockSize * numBlocks.toNat)
    (happ : ∀ j, j ≠ i → (k.fmp j).idFmp = true →
      (k.fmp j).Apart startAddr (startAddr + blockSize * numBlocks.toNat))
    (hf : k'.fmp = Function.update k.fmp i x) :
    MemInv k' ⟨thread x.blockSize (x.numBlocks - 1) x.startAddr m.word,
      Function.update m.freeList i x.startAddr⟩ := by
  have hself : k'.fmp i = x := by rw [hf, Function.update_self]
  have hother : ∀ j, j ≠ i → k'.fmp j = k.fmp j := fun j hne => by
    rw [hf, Function.update_of_ne hne]
  have hsucc : x.numBlocks - 1 + 1 = x.numBlocks := by omega
  obtain ⟨hsize, hlo, hhi⟩ := hb
  constructor
  case size =>
    intro j hid
    rcases eq_or_ne j i with rfl | hne
    · rw [hself]
      exact hsize
    · rw [hother j hne] at hid ⊢
      exact h.size j hid
  case threaded =>
    intro j hid
    rcases eq_or_ne j i with rfl | hne
    · rw [hself, hnew.list]
      dsimp only
      rw [Function.update_self]
      have hthr := threaded_thread (p := x.startAddr) hsize (x.numBlocks - 1) m.word
      rwa [hsucc] at hthr
    · refine h.other (hother j hne) (Function.update_of_ne hne _ _) hid fun block hblock => ?_
      rw [hother j hne] at hid
      apply thread_of_not_mem
      rw [hsucc]
      intro hmem
      obtain ⟨h1, h2⟩ := Fmp.mem_blocks (x := x) hsize hmem
      exact (happ j hne hid).not_mem (h.size j hid) (by omega) (by omega)
        ((hp j).blocks hid block (List.mem_append_left _ hblock))
  case apart =>
    intro j j' hjj hid hid'
    rcases eq_or_ne j i with rfl | hne
    · rw [hother j' (Ne.symm hjj)] at hid' ⊢
      rw [hself]
      rcases happ j' (Ne.symm hjj) hid' with h1 | h1
      · exact .inl (hhi.trans h1)
      · exact .inr (h1.trans hlo)
    · rcases eq_or_ne j' i with rfl | hne'
      · rw [hother j hne] at hid ⊢
        rw [hself]
        rcases happ j hne hid with h1 | h1
        · exact .inr (hhi.trans h1)
        · exact .inl (h1.trans hlo)
      · rw [hother j hne] at hid ⊢
        rw [hother j' hne'] at hid' ⊢
        exact h.apart j j' hjj hid hid'

/-- A pool that does not come into being. -/
theorem MemInv.createFails (h : MemInv k m) {x : Fmp} (hx : x.idFmp = false)
    (hf : k'.fmp = Function.update k.fmp i x) :
    MemInv k' { m with freeList := Function.update m.freeList i 0 } := by
  have hne : ∀ j, (k'.fmp j).idFmp = true → j ≠ i := by
    rintro j hid rfl
    rw [hf, Function.update_self, hx] at hid
    cases hid
  have hother : ∀ j, (k'.fmp j).idFmp = true → k'.fmp j = k.fmp j := fun j hid => by
    rw [hf, Function.update_of_ne (hne j hid)]
  constructor
  case size =>
    intro j hid
    have heq := hother j hid
    rw [heq] at hid ⊢
    exact h.size j hid
  case threaded =>
    intro j hid
    exact h.other (hother j hid) (Function.update_of_ne (hne j hid) _ _) hid fun _ _ => rfl
  case apart =>
    intro j j' hjj hid hid'
    have heq := hother j hid
    have heq' := hother j' hid'
    rw [heq] at hid ⊢
    rw [heq'] at hid' ⊢
    exact h.apart j j' hjj hid hid'

/-! ## Runs -/

/-- What the pools promise. -/
structure PoolOk (w : PoolWorld) (hist : List Obs) (i : Nat) : Prop where
  /-- `free_list` leads through `fblkcnt` blocks to the null pointer. -/
  threaded : Threaded w.mem.word 0 (w.mem.freeList i) (w.freeBlocks i)
  /-- The blocks are free or held, each of them once. -/
  perm : (w.freeBlocks i ++ held i hist).Perm (w.kern.fmp i).blocks
  nodup : (w.kern.fmp i).blocks.Nodup
  /-- Nobody waits while a block is free. -/
  waits : w.kern.sch.que (.fmp i) ≠ [] → (w.kern.fmp i).fblkcnt = 0
  /-- A waiter that was given a block has it in `data_elem` until it returns. -/
  data : ∀ t, w.kern.pend t = some (.get i) → (w.kern.sch.tcb t).pwaitQueue = none →
    (w.kern.sch.tcb t).taskWaitRc = .noErr →
      lastOf t hist = some (.grant t (.get i) (w.kern.sch.tcb t).dataElem)

structure PoolsInv (w : PoolWorld) (hist : List Obs) : Prop where
  account : AccountInv w.kern hist
  mem : MemInv w.kern w.mem
  listed : ∀ i, (w.kern.fmp i).idFmp = true → i ∈ w.pools

theorem PoolsInv.freeBlocks_eq {w : PoolWorld} (h : PoolsInv w hist)
    (hid : (w.kern.fmp i).idFmp = true) : w.freeBlocks i = (w.kern.fmp i).freeList := by
  unfold PoolWorld.freeBlocks
  rw [(h.account.res.pool i).count hid]
  exact (h.mem.threaded i hid).chain_eq

theorem PoolsInv.ok {w : PoolWorld} (h : PoolsInv w hist) (hid : (w.kern.fmp i).idFmp = true) :
    PoolOk w hist i := by
  have hp := h.account.res.pool i
  have hperm : ((w.kern.fmp i).freeList ++ held i hist).Perm (w.kern.fmp i).blocks := by
    apply ((hp.nodup hid).subperm (hp.blocks hid)).perm_of_length_le
    rw [List.length_append, (h.account.full i).full hid]
    simp [Fmp.blocks]
  constructor
  case threaded =>
    rw [h.freeBlocks_eq hid]
    exact h.mem.threaded i hid
  case perm =>
    rw [h.freeBlocks_eq hid]
    exact hperm
  case nodup => exact hperm.nodup_iff.mp (hp.nodup hid)
  case waits => exact (h.account.full i).waits
  case data =>
    intro t hc hq hrc
    rcases h.account.res.record.outcome t _ hc rfl hq with ⟨-, hlast⟩ | ⟨hto, -⟩
    · exact hlast
    · rw [hrc] at hto
      cases hto

/-- **A step keeps the pools.** -/
theorem PoolsInv.step {w w' : PoolWorld} {pev : PoolEvent} (h : PoolsInv w hist)
    (hg : PoolGuard (w, hist) pev) (hs : (poolMachine w pev).1 = some w') :
    PoolsInv w' (hist ++ (poolMachine w pev).2) := by
  cases pev with
  | store addr value =>
    cases hs
    rw [poolMachine, List.append_nil]
    refine ⟨h.account, ⟨h.mem.size, fun i hid => ?_, h.mem.apart⟩, h.listed⟩
    have hne := hg i (h.listed i hid) hid
    rw [h.freeBlocks_eq hid] at hne
    apply (h.mem.threaded i hid).frame
    intro block hb
    apply Function.update_of_ne
    rintro rfl
    exact hne hb
  | kernel ev =>
    obtain ⟨hres, hnew⟩ := hg
    obtain ⟨k', hk', rfl⟩ := Option.map_eq_some_iff.mp hs
    obtain ⟨r, hr, rfl⟩ := Option.map_eq_some_iff.mp hk'
    have hobs : (poolMachine w (.kernel ev)).2 = r.2.map (w.mem.sees ev) := by
      simp [poolMachine, kernelMachine, hr]
    have hacc := h.account.step hres hr
    have hstep := kernelStep_pool (m := w.mem) hr
    rw [hobs]
    generalize hm : w.mem.after w.kern r.1 ev = m' at hstep
    generalize ho : r.2.map (w.mem.sees ev) = obs' at hstep
    obtain ⟨k', obs⟩ := r
    dsimp only at hacc hstep ⊢
    have hlisted : (∀ i, (k'.fmp i).idFmp = true → (w.kern.fmp i).idFmp = true ∨ i ∈ ev.creates) →
        ∀ i, (k'.fmp i).idFmp = true → i ∈ ev.creates.toList ++ w.pools := by
      intro hc i hid
      rcases hc i hid with h1 | h1
      · exact List.mem_append_right _ (h.listed i h1)
      · exact List.mem_append_left _ (Option.mem_toList.mpr h1)
    -- one pool of the kernel changes, and it existed before
    have hupd : ∀ {i : Nat} {x : Fmp}, k'.fmp = Function.update w.kern.fmp i x →
        (x.idFmp = true → (w.kern.fmp i).idFmp = true ∨ i ∈ ev.creates) →
        ∀ j, (k'.fmp j).idFmp = true → (w.kern.fmp j).idFmp = true ∨ j ∈ ev.creates := by
      intro i x hf hx j hid
      rcases eq_or_ne j i with rfl | hne
      · rw [hf, Function.update_self] at hid
        exact hx hid
      · rw [hf, Function.update_of_ne hne] at hid
        exact .inl hid
    cases hstep with
    | other hf hc =>
      refine ⟨hacc, ⟨?_, ?_, ?_⟩, hlisted fun i hid => .inl (by rwa [hf] at hid)⟩
      · rw [hf]
        exact h.mem.size
      · rw [hf]
        exact h.mem.threaded
      · rw [hf]
        exact h.mem.apart
    | @get _ _ i hid hn hf =>
      obtain ⟨h1, h2⟩ := h.mem.get hid ((h.account.res.pool i).count hid) hn hf
      rw [← h1] at hacc
      exact ⟨hacc, h2, hlisted (hupd hf fun _ => .inl hid)⟩
    | @put _ _ i block _ hev hid hf =>
      have hb := hres.2.2.frees hev
      exact ⟨hacc, h.mem.put h.account.res.pool hid hb hf, hlisted (hupd hf fun _ => .inl hid)⟩
    | @create _ i startAddr blockSize numBlocks x _ hid hx hn hfmp hfit hf =>
      have hb := hfmp.bounds hn hfit hres.2.2
      refine ⟨hacc, h.mem.create h.account.res.pool hn hfmp hb ?_ hf,
        hlisted (hupd hf fun _ => .inr rfl)⟩
      intro j hne hidj
      exact hnew.2 j (h.listed j hidj) hne hidj
    | createFails hid hx hf =>
      refine ⟨hacc, h.mem.createFails hx hf, hlisted (hupd hf fun hc => ?_)⟩
      rw [hx] at hc
      cases hc

/-- The kernel behind `tn_start_system`, with any memory. -/
def PoolWorld.start (mem : PoolMem) : PoolWorld := ⟨Kernel.start, mem, []⟩

theorem PoolsInv.start (mem : PoolMem) : PoolsInv (PoolWorld.start mem) [] := by
  have hno : ∀ i, ¬(Kernel.start.fmp i).idFmp = true := fun i hc => by cases hc
  refine ⟨⟨ResInv.start, fun i => ⟨fun hc => absurd hc (hno i), fun _ => rfl⟩⟩,
    ⟨?_, ?_, ?_⟩, ?_⟩
  · exact fun i hc => absurd hc (hno i)
  · exact fun i hc => absurd hc (hno i)
  · exact fun i _ _ hc => absurd hc (hno i)
  · exact fun i hc => absurd hc (hno i)

/-- **No block of a pool is handed out twice.**  In every state of every run of the tasks, the interrupt
    handlers and the timer in which blocks are given back by their holders, no wait for a resource is
    released, and pools have memory of their own: the free list of a pool has `fblkcnt` blocks, the free
    blocks and the blocks that are held are all its blocks, each once, and no task waits for a block
    while one is free. -/
theorem pools_ok (mem : PoolMem) (es : List PoolEvent) (w : PoolWorld) (i : Nat)
    (hg : Machine.Guarded (Machine.recorded poolMachine) PoolGuard (some (PoolWorld.start mem, [])) es)
    (hw : (Machine.run poolMachine (some (PoolWorld.start mem)) es).1 = some w)
    (hid : (w.kern.fmp i).idFmp = true) :
    PoolOk w (Machine.run poolMachine (some (PoolWorld.start mem)) es).2 i := by
  have hrun := Machine.run_recorded poolMachine (PoolWorld.start mem) [] es
  rw [hw, List.nil_append] at hrun
  have hinv : ∀ s' : PoolWorld × List Obs,
      (Machine.run (Machine.recorded poolMachine) (some (PoolWorld.start mem, [])) es).1 = some s' →
        PoolsInv s'.1 s'.2 := by
    refine (Machine.run_invariant (fun s => PoolsInv s.1 s.2) (fun _ => True) ?_ ?_ hg).1
    · rintro ⟨w, hist⟩ ev h hc
      refine ⟨fun s' hs' => ?_, fun _ _ => trivial⟩
      obtain ⟨w', hw', rfl⟩ := Option.map_eq_some_iff.mp hs'
      exact h.step hc hw'
    · intro s hs
      cases hs
      exact PoolsInv.start mem
  exact (hinv _ hrun).ok hid

instance (x : Fmp) (start stop : Nat) : Decidable (x.Apart start stop) :=
  inferInstanceAs (Decidable (_ ∨ _))

instance (s : PoolWorld × List Obs) : ∀ ev, Decidable (PoolGuard s ev)
  | .kernel (.task sv) => by induction sv using Service.casesOn <;> unfold PoolGuard <;> infer_instance
  | .kernel (.isr _) => inferInstanceAs (Decidable (_ ∧ True))
  | .kernel .tick => inferInstanceAs (Decidable (_ ∧ True))
  | .kernel .timerLoop => inferInstanceAs (Decidable (_ ∧ True))
  | .kernel .switchContext => inferInstanceAs (Decidable (_ ∧ True))
  | .kernel .back => inferInstanceAs (Decidable (_ ∧ True))
  | .store _ _ => inferInstanceAs (Decidable (∀ i ∈ _, _))

/-- Task 2 gets the two blocks of a pool, writes into them and waits for a third one; task 3 suspends it
    and gives a block back, which task 2 has not yet returned with. -/
def poolRun : List PoolEvent :=
  twoTasks.map .kernel ++
    [.kernel (.task (.fmemCreate 0 1000 16 2)), .kernel (.task (.fmemGet 0 5)), .store 1000 7,
      .kernel (.task (.fmemGetPolling 0)), .store 1016 9,
      .kernel (.task (.fmemGet 0 TN_WAIT_INFINITE)), .kernel .switchContext,
      .kernel (.task (.suspend 2)), .kernel (.task (.fmemRelease 0 1000))]

def zeroMem : PoolMem := ⟨fun _ => 0, fun _ => 0⟩

theorem poolRun_isSome :
    (Machine.run poolMachine (some (PoolWorld.start zeroMem)) poolRun).1.isSome = true := by
  decide +kernel

theorem pools_ok_suspended :
    PoolOk ((Machine.run poolMachine (some (PoolWorld.start zeroMem)) poolRun).1.get poolRun_isSome)
      (Machine.run poolMachine (some (PoolWorld.start zeroMem)) poolRun).2 0 ∧
    held 0 (Machine.run poolMachine (some (PoolWorld.start zeroMem)) poolRun).2 = [1000, 1016] := by
  have hw := (Option.some_get poolRun_isSome).symm
  have hg : Machine.Guarded (Machine.recorded poolMachine) PoolGuard
      (some (PoolWorld.start zeroMem, [])) poolRun := by decide +kernel
  exact ⟨pools_ok zeroMem poolRun _ 0 hg hw (by decide +kernel), by decide +kernel⟩

end TnKernel
