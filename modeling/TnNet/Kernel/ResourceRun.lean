import Mathlib.Data.List.Perm.Subperm
import TnNet.Kernel.QueueRun

/-!
# A call that succeeds has got its resource

The laws of the three resources: a semaphore counts what was signalled and not yet acquired, a data
queue gives every datum once, and a block of a memory pool has one holder.  `resources_ok` has them for
every run in which no wait for a resource is released, only blocks that are held are given back, and
the memory of a pool lies in the address space; `release_wait_grants_nothing` is a run in which
`tn_task_release_wait` makes an acquire return `TERR_NO_ERR` for nothing.
-/

set_option autoImplicit false

namespace TnKernel

open Machine (Throughout throughout_snoc throughout_append)

variable {k k' : Kernel} {t : TaskId} {hist obs : List Obs} {a : Allow} {i : Nat}

/-! ## Semaphores -/

/-- The start value of a semaphore. -/
def initialBy (i : Nat) : Obs → Int
  | .ret (.semCreate j startValue) .noErr _ => if j = i then startValue else 0
  | _ => 0

/-- An accepted signal. -/
def signalBy (i : Nat) : Obs → Int
  | .ret (.signal j) .noErr _ => if j = i then 1 else 0
  | _ => 0

/-- A successful acquire. -/
def acquireBy (i : Nat) : Obs → Int
  | .ret (.acquire j) .noErr _ => if j = i then 1 else 0
  | .grant _ (.acquire j) _ => if j = i then 1 else 0
  | _ => 0

def total (f : Obs → Int) (hist : List Obs) : Int := (hist.map f).sum

theorem total_append (f : Obs → Int) (hist obs : List Obs) :
    total f (hist ++ obs) = total f hist + total f obs := by
  simp [total]

/-- What an observation adds to the count of a semaphore. -/
def semBy (i : Nat) (o : Obs) : Int := initialBy i o + signalBy i o - acquireBy i o

theorem total_semBy (i : Nat) (hist : List Obs) : total (semBy i) hist =
    total (initialBy i) hist + total (signalBy i) hist - total (acquireBy i) hist := by
  induction hist with
  | nil => rfl
  | cons o hist ih =>
    simp only [total, List.map_cons, List.sum_cons] at ih ⊢
    rw [ih]
    unfold semBy
    omega

theorem total_zero {f : Obs → Int} (h : ∀ o ∈ obs, f o = 0) : total f obs = 0 := by
  induction obs with
  | nil => rfl
  | cons o obs ih =>
    have h1 := h o List.mem_cons_self
    have h2 := ih fun x hx => h x (List.mem_cons_of_mem o hx)
    simp only [total, List.map_cons, List.sum_cons] at h2 ⊢
    omega

theorem semBy_silent {o : Obs} (h : o.silent = true) (i : Nat) : semBy i o = 0 := by
  cases o with
  | ret c rc data => cases c <;> cases rc <;> first | rfl | cases h
  | grant t c data => cases c <;> first | rfl | cases h
  | _ => rfl

/-- The law of a semaphore. -/
structure SemInv (k : Kernel) (hist : List Obs) (i : Nat) : Prop where
  law : total (semBy i) hist = (k.sem i).count
  fresh : (k.sem i).idSem = false → (k.sem i).count = 0

theorem SemInv.keep (h : SemInv k hist i) (hs : k'.sem i = k.sem i)
    (ho : ∀ o ∈ obs, semBy i o = 0) : SemInv k' (hist ++ obs) i := by
  constructor
  case law => rw [total_append, total_zero ho, hs, h.law, Int.add_zero]
  case fresh => rw [hs]; exact h.fresh

/-- The count of an existing semaphore moves by what is observed. -/
theorem SemInv.move (h : SemInv k hist i) {x : Sem} {n : Int}
    (hs : k'.sem = Function.update k.sem i x)
    (hid : x.idSem = true) (hx : x.count = (k.sem i).count + n) (hn : total (semBy i) obs = n) :
    SemInv k' (hist ++ obs) i := by
  constructor
  case law => rw [total_append, hn, hs, Function.update_self, hx, h.law]
  case fresh =>
    rw [hs, Function.update_self, hid]
    intro hc
    cases hc

theorem semBy_one {o : Obs} (h : semBy i o = 0) : ∀ x ∈ [o], semBy i x = 0 := by
  intro x hx
  rw [List.mem_singleton.mp hx]
  exact h

theorem semBy_pair {o o' : Obs} (h : semBy i o = 0) (h' : semBy i o' = 0) :
    ∀ x ∈ [o, o'], semBy i x = 0 := by
  intro x hx
  simp only [List.mem_cons, List.not_mem_nil, or_false] at hx
  rcases hx with rfl | rfl
  · exact h
  · exact h'

/-- **The acts keep the law of a semaphore.** -/
theorem SemInv.act (h : SemInv k hist i) (hact : Act a k obs k') : SemInv k' (hist ++ obs) i := by
  have silent : (∀ o ∈ obs, o.silent = true) → ∀ o ∈ obs, semBy i o = 0 := fun ho o hx =>
    semBy_silent (ho o hx) i
  have other : ∀ {j : Nat} {x : Sem}, k'.sem = Function.update k.sem j x → j ≠ i →
      k'.sem i = k.sem i := fun hs hj => by rw [hs, Function.update_of_ne (Ne.symm hj)]
  cases hact with
  | quiet hc hr ho => exact h.keep (by rw [hr.sem]) (silent ho)
  | free hf hr hp hg hb hn hl ho => exact h.keep (by rw [hr.sem]) (silent ho)
  | reset hf hw hr hp hg hn ho => exact h.keep (by rw [hr.sem]) (silent ho)
  | @semParam _ j _ hc hs hd hf ho =>
    by_cases hj : j = i
    · subst hj
      constructor
      case law =>
        rw [total_append, total_zero (silent ho), hs, Function.update_self, h.law, Int.add_zero]
      case fresh => rw [hs, Function.update_self]; exact h.fresh
    · exact h.keep (other hs hj) (silent ho)
  | @semCreate _ j startValue maxVal hc hid hs hd hf =>
    by_cases hj : j = i
    · subst hj
      refine h.move (n := startValue) hs rfl ?_ ?_
      · rw [h.fresh hid, Int.zero_add]
      · simp [total, semBy, initialBy, signalBy, acquireBy]
    · exact h.keep (other hs hj) (semBy_one (by simp [semBy, initialBy, signalBy, acquireBy, hj]))
  | @semSignal _ j hc hid hl hs hd hf =>
    by_cases hj : j = i
    · subst hj
      refine h.move (n := 1) hs hid rfl ?_
      simp [total, semBy, initialBy, signalBy, acquireBy]
    · exact h.keep (other hs hj) (semBy_one (by simp [semBy, initialBy, signalBy, acquireBy, hj]))
  | @semGrant _ j t data hg hr =>
    constructor
    case law =>
      have : total (semBy i) [.ret (.signal j) .noErr 0, .grant t (.acquire j) 0] = 0 := by
        by_cases hj : j = i <;> simp [total, semBy, initialBy, signalBy, acquireBy, hj]
      rw [total_append, this, hr.sem, h.law, Int.add_zero]
    case fresh => rw [hr.sem]; exact h.fresh
  | @semAcquire _ j hc hid hn hs hd hf =>
    by_cases hj : j = i
    · subst hj
      refine h.move (n := -1) hs hid rfl ?_
      simp [total, semBy, initialBy, signalBy, acquireBy]
    · exact h.keep (other hs hj) (semBy_one (by simp [semBy, initialBy, signalBy, acquireBy, hj]))
  | @block _ t q data hj hres hl hx ht hw hd hr hb hp hn hg =>
    exact h.keep (by rw [hr.sem]) (semBy_one rfl)
  | resetWait hl hq hres hr hp hg hn => exact h.keep (by rw [hr.sem]) (semBy_one rfl)
  | cancel hl hq hres hd hr hp hg hrc => exact h.keep (by rw [hr.sem]) (semBy_one rfl)
  | release hl hq hres hr hp hg hrel => exact h.keep (by rw [hr.sem]) (semBy_one rfl)
  | back hq hw hc hres hr hp hn hg => exact h.keep (by rw [hr.sem]) (semBy_one rfl)
  | queueCreate hc hid hd hs hf ho => exact h.keep (by rw [hs]) (silent ho)
  | sendFifo hc hid hl hw hd hs hf => exact h.keep (by rw [hs]) (semBy_one rfl)
  | sendGrant hg hr => exact h.keep (by rw [hr.sem]) (semBy_pair rfl rfl)
  | receiveFifo hc hid hl hw hd hs hf => exact h.keep (by rw [hs]) (semBy_one rfl)
  | receiveGrant hg hdt hw hd hs hf => exact h.keep (by rw [hs]) (semBy_pair rfl rfl)
  | receiveDirect hg hdt hw hr => exact h.keep (by rw [hr.sem]) (semBy_pair rfl rfl)
  | fmemCreate hc hid hx hcr hf hs hd ho => exact h.keep (by rw [hs]) (silent ho)
  | fmemGet hc hid hn hf hs hd => exact h.keep (by rw [hs]) (semBy_one rfl)
  | fmemGrant hg hr hfr => exact h.keep (by rw [hr.sem]) (semBy_pair rfl rfl)
  | fmemRelease hc hid hl hf hs hd hfr => exact h.keep (by rw [hs]) (semBy_one rfl)

/-! ## Memory pools -/

/-- The blocks of a pool. -/
def Fmp.blocks (x : Fmp) : List Nat :=
  (List.range x.numBlocks).map fun j => x.startAddr + x.blockSize * j

/-- The block of a successful `tn_fmem_get`. -/
def gotBy (i : Nat) : Obs → Option Nat
  | .ret (.get j) .noErr block => if j = i then some block else none
  | .grant _ (.get j) block => if j = i then some block else none
  | _ => none

/-- What an observation does to the blocks that are held. -/
def heldBy (i : Nat) (l : List Nat) : Obs → List Nat
  | .ret (.get j) .noErr block => if j = i then block :: l else l
  | .grant _ (.get j) block => if j = i then block :: l else l
  | .ret (.release j block) .noErr _ => if j = i then l.erase block else l
  | _ => l

/-- The blocks of a pool that tasks and interrupt handlers hold. -/
def held (i : Nat) (hist : List Obs) : List Nat := hist.foldl (heldBy i) []

theorem held_append (i : Nat) (hist obs : List Obs) :
    held i (hist ++ obs) = obs.foldl (heldBy i) (held i hist) := List.foldl_append

/-- An observation that is not about a pool. -/
def Obs.offPool (i : Nat) (o : Obs) : Prop := gotBy i o = none ∧ ∀ l, heldBy i l o = l

theorem offPool_silent {o : Obs} (h : o.silent = true) (i : Nat) : o.offPool i := by
  cases o with
  | ret c rc data => cases c <;> cases rc <;> first | exact ⟨rfl, fun _ => rfl⟩ | cases h
  | grant t c data => cases c <;> first | exact ⟨rfl, fun _ => rfl⟩ | cases h
  | _ => exact ⟨rfl, fun _ => rfl⟩

theorem held_offPool (hist : List Obs) (h : ∀ o ∈ obs, o.offPool i) :
    held i (hist ++ obs) = held i hist := by
  induction obs generalizing hist with
  | nil => simp
  | cons o obs ih =>
    have h1 := ih (hist ++ [o]) fun x hx => h x (List.mem_cons_of_mem o hx)
    rw [List.append_assoc, List.singleton_append] at h1
    rw [h1, held_append]
    exact (h o List.mem_cons_self).2 _

/-- A block a call gets is a block of the pool that nobody holds. -/
def GetOk (i : Nat) (x : Fmp) (hist : List Obs) (o : Obs) : Prop :=
  ∀ block, gotBy i o = some block → block ∈ x.blocks ∧ block ∉ held i hist

theorem getOk_offPool {x : Fmp} {o : Obs} (h : o.offPool i) (hist : List Obs) :
    GetOk i x hist o := by
  intro block hb
  rw [h.1] at hb
  cases hb

/-- The law of a pool: its blocks are free or held, none of them twice. -/
structure PoolInv (k : Kernel) (hist : List Obs) (i : Nat) : Prop where
  nodup : (k.fmp i).idFmp = true → ((k.fmp i).freeList ++ held i hist).Nodup
  blocks : (k.fmp i).idFmp = true →
    ∀ block ∈ (k.fmp i).freeList ++ held i hist, block ∈ (k.fmp i).blocks
  count : (k.fmp i).idFmp = true → (k.fmp i).fblkcnt = (k.fmp i).freeList.length
  gets : Throughout (GetOk i (k.fmp i)) hist
  fresh : (k.fmp i).idFmp = false → (∀ o ∈ hist, gotBy i o = none) ∧ held i hist = []

theorem PoolInv.keep (h : PoolInv k hist i) (hf : k'.fmp i = k.fmp i)
    (ho : ∀ o ∈ obs, o.offPool i) : PoolInv k' (hist ++ obs) i := by
  have hh := held_offPool hist ho
  constructor
  case nodup => rw [hf, hh]; exact h.nodup
  case blocks => rw [hf, hh]; exact h.blocks
  case count => rw [hf]; exact h.count
  case gets =>
    rw [hf]
    exact throughout_append h.gets fun o hx hist => getOk_offPool (ho o hx) hist
  case fresh =>
    rw [hf, hh]
    intro hid
    obtain ⟨h1, h2⟩ := h.fresh hid
    refine ⟨fun o hx => ?_, h2⟩
    rcases List.mem_append.mp hx with hx | hx
    · exact h1 o hx
    · exact (ho o hx).1

/-- The blocks change hands. -/
theorem PoolInv.perm (h : PoolInv k hist i) {x : Fmp} (hid : (k.fmp i).idFmp = true)
    (hf : k'.fmp i = x) (hx : x.idFmp = true) (hb : x.blocks = (k.fmp i).blocks)
    (hc : x.fblkcnt = x.freeList.length)
    (hp : (x.freeList ++ held i (hist ++ obs)).Perm ((k.fmp i).freeList ++ held i hist))
    (hg : Throughout (GetOk i (k.fmp i)) (hist ++ obs)) : PoolInv k' (hist ++ obs) i := by
  constructor
  case nodup => rw [hf]; exact fun _ => hp.nodup_iff.mpr (h.nodup hid)
  case blocks =>
    rw [hf, hb]
    intro _ block hm
    exact h.blocks hid block (hp.mem_iff.mp hm)
  case count => rw [hf]; exact fun _ => hc
  case gets =>
    rw [hf]
    intro h₁ o h₂ heq block hgot
    rw [hb]
    exact hg h₁ o h₂ heq block hgot
  case fresh =>
    rw [hf, hx]
    intro hc
    cases hc

/-- The memory of a pool, rounded up as `tn_fmem_create` does, lies in the address space. -/
def FmemFits (startAddr blockSize : Nat) (numBlocks : Int) : Prop :=
  startAddr + TN_ALIG ≤ 2 ^ 32 ∧ blockSize + TN_ALIG ≤ 2 ^ 32 ∧
    alignUp startAddr + alignUp blockSize * numBlocks.toNat < 2 ^ 32

theorem le_alignUp {n : Nat} (h : n + TN_ALIG ≤ 2 ^ 32) : n ≤ alignUp n := by
  unfold alignUp TN_ALIG at *
  rw [Nat.mod_eq_of_lt (by omega)]
  omega

theorem FmpNew.blocks_nodup {startAddr blockSize : Nat} {numBlocks : Int} {x : Fmp}
    (h : FmpNew startAddr blockSize numBlocks x) (hfit : FmemFits startAddr blockSize numBlocks) :
    x.blocks.Nodup := by
  have hsize : 0 < x.blockSize := by
    have h1 := le_alignUp hfit.2.1
    have h2 := h.args.2
    rw [h.size]
    omega
  refine List.Nodup.map_on ?_ List.nodup_range
  intro j _ j' _ heq
  exact Nat.eq_of_mul_eq_mul_left hsize (Nat.add_left_cancel heq)

/-- `tn_fmem_create`. -/
theorem PoolInv.create (h : PoolInv k hist i) {startAddr blockSize : Nat} {numBlocks : Int} {x : Fmp}
    (hid : (k.fmp i).idFmp = false) (hf : k'.fmp i = x)
    (hx : x.idFmp = true → FmpNew startAddr blockSize numBlocks x)
    (hfit : FmemFits startAddr blockSize numBlocks) (ho : ∀ o ∈ obs, o.offPool i) :
    PoolInv k' (hist ++ obs) i := by
  obtain ⟨hgot, hheld⟩ := h.fresh hid
  have hh : held i (hist ++ obs) = [] := (held_offPool hist ho).trans hheld
  have hgot' : ∀ o ∈ hist ++ obs, gotBy i o = none := by
    intro o hm
    rcases List.mem_append.mp hm with hm | hm
    · exact hgot o hm
    · exact (ho o hm).1
  have hlist : x.idFmp = true → x.freeList = x.blocks := fun hc => (hx hc).list
  constructor
  case nodup =>
    rw [hf, hh, List.append_nil]
    intro hc
    rw [hlist hc]
    exact (hx hc).blocks_nodup hfit
  case blocks =>
    rw [hf, hh, List.append_nil]
    intro hc
    rw [hlist hc]
    exact fun _ => id
  case count =>
    rw [hf]
    intro hc
    rw [hlist hc, (hx hc).count]
    simp [Fmp.blocks]
  case gets =>
    intro h₁ o h₂ heq block hb
    rw [hgot' o (by rw [heq]; simp)] at hb
    cases hb
  case fresh => exact fun _ => ⟨hgot', hh⟩

/-- `tn_fmem_get` with a free block. -/
theorem PoolInv.get (h : PoolInv k hist i) (hid : (k.fmp i).idFmp = true)
    (hc : 0 < (k.fmp i).fblkcnt)
    (hf : k'.fmp i = { k.fmp i with
      freeList := (k.fmp i).freeList.tail, fblkcnt := (k.fmp i).fblkcnt - 1 }) :
    PoolInv k' (hist ++ [.ret (.get i) .noErr ((k.fmp i).freeList.headD 0)]) i := by
  have hcount := h.count hid
  cases hl : (k.fmp i).freeList with
  | nil =>
    rw [hl] at hcount
    exact absurd hcount (Nat.ne_of_gt hc)
  | cons block l =>
    have hheld : held i (hist ++ [.ret (.get i) .noErr block]) = block :: held i hist := by
      rw [held_append]
      simp [heldBy]
    have hnodup := h.nodup hid
    rw [hl, List.cons_append, List.nodup_cons] at hnodup
    refine h.perm hid hf hid rfl ?_ ?_ (throughout_snoc h.gets ?_)
    · rw [hl] at hcount ⊢
      rw [hcount]
      rfl
    · rw [hl, List.headD_cons, hheld]
      exact List.perm_middle
    · intro b hb
      simp only [gotBy, if_true, List.headD_cons, Option.some.injEq] at hb
      subst hb
      refine ⟨h.blocks hid block ?_, fun hm => hnodup.1 (List.mem_append_right l hm)⟩
      rw [hl]
      exact List.mem_cons_self

/-- A block of the pool that is held is not free, and the pool is not full. -/
theorem PoolInv.not_full (h : PoolInv k hist i) (hid : (k.fmp i).idFmp = true) {block : Nat}
    (hb : block ∈ held i hist) : (k.fmp i).fblkcnt < (k.fmp i).numBlocks := by
  have hlen := ((h.nodup hid).subperm (h.blocks hid)).length_le
  have hpos := List.length_pos_of_mem hb
  rw [List.length_append, Fmp.blocks, List.length_map, List.length_range] at hlen
  rw [h.count hid]
  omega

/-- `tn_fmem_release` of a block, up to what becomes of it. -/
theorem held_release (hist : List Obs) (i block : Nat) :
    held i (hist ++ [.ret (.release i block) .noErr 0]) = (held i hist).erase block := by
  rw [held_append]
  simp [heldBy]

theorem getOk_release (x : Fmp) (hist : List Obs) (i j block : Nat) :
    GetOk i x hist (.ret (.release j block) .noErr 0) := by
  intro b hb
  cases hb

/-- `tn_fmem_release` when no task waits. -/
theorem PoolInv.release (h : PoolInv k hist i) (hid : (k.fmp i).idFmp = true) {block : Nat}
    (hb : block ∈ held i hist)
    (hf : k'.fmp i = if (k.fmp i).fblkcnt < (k.fmp i).numBlocks then
      { k.fmp i with freeList := block :: (k.fmp i).freeList, fblkcnt := (k.fmp i).fblkcnt + 1 }
      else k.fmp i) : PoolInv k' (hist ++ [.ret (.release i block) .noErr 0]) i := by
  rw [if_pos (h.not_full hid hb)] at hf
  refine h.perm hid hf hid rfl ?_ ?_ (throughout_snoc h.gets (getOk_release _ _ _ _ _))
  · exact congrArg (· + 1) (h.count hid)
  · rw [held_release]
    have h1 : ((held i hist).erase block |>.cons block).Perm (held i hist) :=
      (List.perm_cons_erase hb).symm
    exact List.perm_middle.symm.trans (h1.append_left _)

/-- `tn_fmem_release` when a task waits: the block goes to it. -/
theorem PoolInv.grant (h : PoolInv k hist i) (hid : (k.fmp i).idFmp = true) {block : Nat}
    (hb : block ∈ held i hist) (hf : k'.fmp i = k.fmp i) :
    PoolInv k' (hist ++ [.ret (.release i block) .noErr 0, .grant t (.get i) block]) i := by
  have hnot : block ∉ (held i hist).erase block := by
    have hn : (held i hist).Nodup := (List.nodup_append.mp (h.nodup hid)).2.1
    exact fun hm => (hn.mem_erase_iff.mp hm).1 rfl
  have hheld : held i (hist ++ [.ret (.release i block) .noErr 0, .grant t (.get i) block]) =
      block :: (held i hist).erase block := by
    rw [held_append]
    simp [heldBy]
  refine h.perm hid hf hid rfl (h.count hid) ?_ ?_
  · rw [hheld]
    exact ((List.perm_cons_erase hb).symm).append_left _
  · have h1 := throughout_snoc h.gets (getOk_release (k.fmp i) hist i i block)
    have h2 := throughout_snoc (o := .grant t (.get i) block) h1 (by
      intro b hgot
      simp only [gotBy, if_true, Option.some.injEq] at hgot
      subst hgot
      refine ⟨h.blocks hid block (List.mem_append_right _ hb), ?_⟩
      rw [held_release]
      exact hnot)
    rwa [List.append_assoc] at h2

theorem offPool_one {o : Obs} (h : o.offPool i) : ∀ x ∈ [o], x.offPool i := by
  intro x hx
  rw [List.mem_singleton.mp hx]
  exact h

theorem offPool_pair {o o' : Obs} (h : o.offPool i) (h' : o'.offPool i) :
    ∀ x ∈ [o, o'], x.offPool i := by
  intro x hx
  simp only [List.mem_cons, List.not_mem_nil, or_false] at hx
  rcases hx with rfl | rfl
  · exact h
  · exact h'

/-- The calls for another pool. -/
theorem offPool_get {j : Nat} (hj : j ≠ i) (block : Nat) :
    (Obs.ret (.get j) .noErr block).offPool i := ⟨if_neg hj, fun _ => if_neg hj⟩

theorem offPool_release {j : Nat} (hj : j ≠ i) (block : Nat) :
    (Obs.ret (.release j block) .noErr 0).offPool i := ⟨rfl, fun _ => if_neg hj⟩

theorem offPool_grant {j : Nat} (hj : j ≠ i) (t : TaskId) (block : Nat) :
    (Obs.grant t (.get j) block).offPool i := ⟨if_neg hj, fun _ => if_neg hj⟩

theorem Changes.fmpQue (h : Changes k k') (i : Nat) : k'.sch.que (.fmp i) = k.sch.que (.fmp i) :=
  h.quiet.que _ rfl

theorem Leave.fmpQue (h : Leave t k.sch k'.sch) (hq : k'.sch.que (.fmp i) ≠ []) :
    k.sch.que (.fmp i) ≠ [] := by
  rw [h.que _ rfl] at hq
  intro hnil
  simp [hnil] at hq

/-- What an act is for one pool. -/
inductive PoolAct (a : Allow) (i : Nat) (k : Kernel) : List Obs → Kernel → Prop
  | other {obs : List Obs} {k' : Kernel} (hf : k'.fmp i = k.fmp i)
      (hq : k'.sch.que (.fmp i) ≠ [] → k.sch.que (.fmp i) ≠ []) (ho : ∀ o ∈ obs, o.offPool i) :
      PoolAct a i k obs k'
  | block {obs : List Obs} {k' : Kernel} (hf : k'.fmp i = k.fmp i) (hx : (k.fmp i).fblkcnt = 0)
      (ho : ∀ o ∈ obs, o.offPool i) : PoolAct a i k obs k'
  | create {obs : List Obs} {k' : Kernel} {startAddr blockSize : Nat} {numBlocks : Int} {x : Fmp}
      (hid : (k.fmp i).idFmp = false) (hq : k'.sch.que (.fmp i) = [])
      (hx : x.idFmp = true → FmpNew startAddr blockSize numBlocks x)
      (ha : a.create startAddr blockSize numBlocks) (hf : k'.fmp i = x)
      (ho : ∀ o ∈ obs, o.offPool i) : PoolAct a i k obs k'
  | get {k' : Kernel} (hid : (k.fmp i).idFmp = true) (hc : 0 < (k.fmp i).fblkcnt)
      (hq : k'.sch.que (.fmp i) = k.sch.que (.fmp i))
      (hf : k'.fmp i = { k.fmp i with
        freeList := (k.fmp i).freeList.tail, fblkcnt := (k.fmp i).fblkcnt - 1 }) :
      PoolAct a i k [.ret (.get i) .noErr ((k.fmp i).freeList.headD 0)] k'
  | grant {k' : Kernel} {block : Nat} {t : TaskId} (hid : (k.fmp i).idFmp = true)
      (ha : a.freed i block) (hq : k.sch.que (.fmp i) ≠ []) (hf : k'.fmp i = k.fmp i) :
      PoolAct a i k [.ret (.release i block) .noErr 0, .grant t (.get i) block] k'
  | release {k' : Kernel} {block : Nat} (hid : (k.fmp i).idFmp = true) (ha : a.freed i block)
      (hq : k'.sch.que (.fmp i) = [])
      (hf : k'.fmp i = if (k.fmp i).fblkcnt < (k.fmp i).numBlocks then
        { k.fmp i with freeList := block :: (k.fmp i).freeList, fblkcnt := (k.fmp i).fblkcnt + 1 }
        else k.fmp i) : PoolAct a i k [.ret (.release i block) .noErr 0] k'

/-- **What the acts do to a pool.** -/
theorem Act.onPool (hk : KInv k) (i : Nat) (hact : Act a k obs k') : PoolAct a i k obs k' := by
  have silent : (∀ o ∈ obs, o.silent = true) → ∀ o ∈ obs, o.offPool i := fun ho o hx =>
    offPool_silent (ho o hx) i
  have update : ∀ {j : Nat} {x : Fmp}, k'.fmp = Function.update k.fmp j x → j ≠ i →
      k'.fmp i = k.fmp i := fun hs hj => by rw [hs, Function.update_of_ne (Ne.symm hj)]
  have off : ∀ {o : Obs}, gotBy i o = none → (∀ l, heldBy i l o = l) → o.offPool i :=
    fun h1 h2 => ⟨h1, h2⟩
  have same : Changes k k' → k'.sch.que (.fmp i) ≠ [] → k.sch.que (.fmp i) ≠ [] := fun hc hq => by
    rwa [hc.fmpQue] at hq
  cases hact with
  | quiet hc hr ho => exact .other (by rw [hr.fmp]) (same hc) (silent ho)
  | free hf hr hp hg hb hn hl ho =>
    exact .other (by rw [hr.fmp]) (by rw [hf.que _ rfl]; exact id) (silent ho)
  | reset hf hw hr hp hg hn ho =>
    exact .other (by rw [hr.fmp]) (by rw [hf.que _ rfl]; exact id) (silent ho)
  | resetWait hl hq hres hr hp hg hn =>
    exact .other (by rw [hr.fmp]) hl.fmpQue (offPool_one (off rfl fun _ => rfl))
  | cancel hl hq hres hd hr hp hg hrc =>
    exact .other (by rw [hr.fmp]) hl.fmpQue (offPool_one (off rfl fun _ => rfl))
  | release hl hq hres hr hp hg hrel =>
    exact .other (by rw [hr.fmp]) hl.fmpQue (offPool_one (off rfl fun _ => rfl))
  | @block _ t q data hj hres hl hx ht hw hd hr hb hp hn hg =>
    have ho := offPool_one (off (o := .block t (waitCall q data)) rfl fun _ => rfl)
    by_cases hqi : q = .fmp i
    · subst hqi
      exact .block (by rw [hr.fmp]) hx ho
    · refine .other (by rw [hr.fmp]) ?_ ho
      rw [hj.queNe _ rfl (Ne.symm hqi)]
      exact id
  | back hq hw hc hres hr hp hn hg =>
    exact .other (by rw [hr.fmp]) (by rw [hq.que _ rfl]; exact id)
      (offPool_one (off rfl fun _ => rfl))
  | semParam hc hs hd hf ho => exact .other (by rw [hf]) (same hc) (silent ho)
  | semCreate hc hid hs hd hf =>
    exact .other (by rw [hf]) (same hc) (offPool_one (off rfl fun _ => rfl))
  | semSignal hc hid hl hs hd hf =>
    exact .other (by rw [hf]) (same hc) (offPool_one (off rfl fun _ => rfl))
  | semGrant hg hr =>
    exact .other (by rw [hr.fmp]) hg.leave.fmpQue
      (offPool_pair (off rfl fun _ => rfl) (off rfl fun _ => rfl))
  | semAcquire hc hid hn hs hd hf =>
    exact .other (by rw [hf]) (same hc) (offPool_one (off rfl fun _ => rfl))
  | queueCreate hc hid hd hs hf ho => exact .other (by rw [hf]) (same hc) (silent ho)
  | sendFifo hc hid hl hw hd hs hf =>
    exact .other (by rw [hf]) (same hc) (offPool_one (off rfl fun _ => rfl))
  | sendGrant hg hr =>
    exact .other (by rw [hr.fmp]) hg.leave.fmpQue
      (offPool_pair (off rfl fun _ => rfl) (off rfl fun _ => rfl))
  | receiveFifo hc hid hl hw hd hs hf =>
    exact .other (by rw [hf]) (same hc) (offPool_one (off rfl fun _ => rfl))
  | receiveGrant hg hdt hw hd hs hf =>
    exact .other (by rw [hf]) hg.leave.fmpQue
      (offPool_pair (off rfl fun _ => rfl) (off rfl fun _ => rfl))
  | receiveDirect hg hdt hw hr =>
    exact .other (by rw [hr.fmp]) hg.leave.fmpQue
      (offPool_pair (off rfl fun _ => rfl) (off rfl fun _ => rfl))
  | @fmemCreate _ j startAddr blockSize numBlocks x _ hc hid hx hcr hf hs hd ho =>
    by_cases hj : j = i
    · subst hj
      refine .create hid ?_ hx hcr (by rw [hf, Function.update_self]) (silent ho)
      rw [hc.fmpQue]
      exact hk.que_nil rfl hid
    · exact .other (update hf hj) (same hc) (silent ho)
  | @fmemGet _ j hc hid hn hf hs hd =>
    by_cases hj : j = i
    · subst hj
      exact .get hid hn (hc.fmpQue j) (by rw [hf, Function.update_self])
    · exact .other (update hf hj) (same hc) (offPool_one (offPool_get hj _))
  | @fmemGrant _ j block t hg hr hfr =>
    by_cases hj : j = i
    · subst hj
      have hm : t ∈ k.sch.que (.fmp j) := List.mem_of_mem_head? hg.head
      have hid := hk.live t (.fmp j) (((hk.sch.ok t).waits (.fmp j) rfl).mp hm)
      exact .grant hid hfr (List.ne_nil_of_mem hm) (by rw [hr.fmp])
    · exact .other (by rw [hr.fmp]) hg.leave.fmpQue
        (offPool_pair (offPool_release hj _) (offPool_grant hj _ _))
  | @fmemRelease _ j block hc hid hl hf hs hd hfr =>
    by_cases hj : j = i
    · subst hj
      exact .release hid hfr ((hc.fmpQue j).trans hl) (by rw [hf, Function.update_self])
    · exact .other (update hf hj) (same hc) (offPool_one (offPool_release hj _))

/-- **The acts keep the law of a pool.** -/
theorem PoolInv.act (hk : KInv k) (h : PoolInv k hist i)
    (hfit : ∀ startAddr blockSize numBlocks, a.create startAddr blockSize numBlocks →
      FmemFits startAddr blockSize numBlocks)
    (hheld : ∀ j block, a.freed j block → block ∈ held j hist) (hact : Act a k obs k') :
    PoolInv k' (hist ++ obs) i := by
  cases hact.onPool hk i with
  | other hf _ ho => exact h.keep hf ho
  | block hf _ ho => exact h.keep hf ho
  | create hid _ hx ha hf ho => exact h.create hid hf hx (hfit _ _ _ ha) ho
  | get hid hc _ hf => exact h.get hid hc hf
  | grant hid ha _ hf => exact h.grant hid (hheld _ _ ha) hf
  | release hid ha _ hf => exact h.release hid (hheld _ _ ha) hf

/-! ## Runs -/

/-- What the resources promise. -/
structure ResourceOk (k : Kernel) (hist : List Obs) : Prop where
  /-- A blocked call that has returned `TERR_NO_ERR` was given its resource. -/
  back : BackOk hist
  /-- Start value and signals are the count and the acquires. -/
  sem : ∀ i, total (initialBy i) hist + total (signalBy i) hist =
    (k.sem i).count + total (acquireBy i) hist
  /-- What was received was sent, every datum once. -/
  queue : ∀ i, received i hist <+: (accepted i hist).map Prod.fst
  /-- A block that was got is in the pool, and nobody held it. -/
  pool : ∀ i, Throughout (GetOk i (k.fmp i)) hist

/-- What the callers owe: the memory of a pool lies in the address space, a block is given back by
    its holder, and no wait for a resource is released. -/
def ResourceArgs (k : Kernel) (hist : List Obs) : Event → Prop
  | .task (.fmemCreate _ startAddr blockSize numBlocks) => FmemFits startAddr blockSize numBlocks
  | .task (.fmemRelease i block) => block ∈ held i hist
  | .isr (.fmemIrelease i block) => block ∈ held i hist
  | .task (.releaseWait t) => ∀ q ∈ (k.sch.tcb t).pwaitQueue, q.isRes = false
  | .isr (.ireleaseWait t) => ∀ q ∈ (k.sch.tcb t).pwaitQueue, q.isRes = false
  | _ => True

def ResourceEvent (s : Kernel × List Obs) (ev : Event) : Prop :=
  Enabled s.1 ev ∧ ExitOk s.1 ev ∧ ResourceArgs s.1 s.2 ev

/-- The invariant of a run. -/
structure ResInv (k : Kernel) (hist : List Obs) : Prop where
  record : RecordInv k hist
  sem : ∀ i, SemInv k hist i
  pool : ∀ i, PoolInv k hist i

theorem ResInv.ok (h : ResInv k hist) : ResourceOk k hist := by
  constructor
  case back => exact h.record.back
  case sem =>
    intro i
    have hlaw := (h.sem i).law
    rw [total_semBy] at hlaw
    omega
  case queue =>
    intro i
    rw [(h.record.queue i).law]
    simp [Function.comp_def]
  case pool => exact fun i => (h.pool i).gets

/-- An act, with the blocks it frees held before it. -/
theorem ResInv.act (h : ResInv k hist) (hr : ∀ t, ¬a.release t)
    (hfit : ∀ startAddr blockSize numBlocks, a.create startAddr blockSize numBlocks →
      FmemFits startAddr blockSize numBlocks)
    (hheld : ∀ j block, a.freed j block → block ∈ held j hist) (hact : Act a k obs k')
    (hs : SInv none k'.sch) : ResInv k' (hist ++ obs) := by
  constructor
  case record => exact h.record.acts hr (hact.acts hs)
  case sem => exact fun i => (h.sem i).act hact
  case pool => exact fun i => (h.pool i).act h.record.kinv hfit hheld hact

/-- Nothing is freed, and no wait is released. -/
def Allow.fits : Allow := ⟨FmemFits, fun _ _ => False, fun _ => False⟩

theorem ResInv.acts (h : ResInv k hist) (hact : Acts Allow.fits k obs k') :
    ResInv k' (hist ++ obs) := by
  refine (hact.induct ResInv ?_ hist h.record.kinv h).2
  intro k k' hist obs _ hk' h hact
  exact h.act (fun _ => id) (fun _ _ _ => id) (fun _ _ => False.elim) hact hk'.sch

/-- The service that frees a block. -/
def Event.frees : Event → Option (Nat × Nat)
  | .task (.fmemRelease i block) => some (i, block)
  | .isr (.fmemIrelease i block) => some (i, block)
  | _ => none

theorem fits_permits {ev : Event} (h : ResourceArgs k hist ev) (hf : ev.frees = none) :
    Allow.fits.permits k ev := by
  unfold Allow.permits
  split
  · exact h
  · cases hf
  · cases hf
  · intro q hq hres
    rw [h q hq] at hres
    cases hres
  · intro q hq hres
    rw [h q hq] at hres
    cases hres
  · trivial

theorem kernelStep_frees {ev : Event} {i block : Nat} (h : ev.frees = some (i, block)) :
    kernelStep k ev = some (tnFmemRelease i block k) := by
  unfold Event.frees at h
  split at h
  · cases h
    rfl
  · cases h
    rfl
  · cases h

theorem ResourceArgs.frees {ev : Event} {i block : Nat} (h : ResourceArgs k hist ev)
    (hf : ev.frees = some (i, block)) : block ∈ held i hist := by
  unfold Event.frees at hf
  split at hf
  · cases hf
    exact h
  · cases hf
    exact h
  · cases hf

/-- **A step keeps the laws of the resources.** -/
theorem ResInv.step (h : ResInv k hist) {ev : Event} (hc : ResourceEvent (k, hist) ev) {r : Res}
    (hr : kernelStep k ev = some r) : ResInv r.1 (hist ++ r.2) := by
  obtain ⟨hen, hx, hargs⟩ := hc
  cases hf : ev.frees with
  | none =>
    exact h.acts (kernelStep_acts h.record.kinv hen hx (fits_permits hargs hf) hr)
  | some p =>
    rw [kernelStep_frees hf] at hr
    cases hr
    obtain ⟨hact, hs⟩ := act_fmemRelease
      (a := ⟨FmemFits, fun i block => block ∈ held i hist, fun _ => False⟩) h.record.kinv p.1 p.2
      (hargs.frees hf)
    exact h.act (fun _ => id) (fun _ _ _ => id) (fun _ _ => id) hact hs

theorem ResInv.start : ResInv Kernel.start [] := by
  constructor
  case record => exact RecordInv.start
  case sem => exact fun i => ⟨rfl, fun _ => rfl⟩
  case pool =>
    intro i
    constructor
    case nodup => exact fun hc => by cases hc
    case blocks => exact fun hc => by cases hc
    case count => exact fun hc => by cases hc
    case gets =>
      intro h₁ o h₂ heq
      simp at heq
    case fresh => exact fun _ => ⟨fun o ho => (by cases ho), rfl⟩

/-- **A call that succeeds has got its resource.**  In every state of every run in which no wait for
    a semaphore, a queue or a pool is released, blocks are given back by their holders, pools lie in
    the address space and no task exits with a deletion while an activation is pending: the laws of
    the semaphores, queues and pools hold, and a blocked call that has returned `TERR_NO_ERR` was
    given its resource. -/
theorem resources_ok (es : List Event) (k : Kernel)
    (hg : Machine.Guarded (Machine.recorded kernelMachine) ResourceEvent (some (Kernel.start, [])) es)
    (hk : (Machine.run kernelMachine (some Kernel.start) es).1 = some k) :
    ResourceOk k (Machine.run kernelMachine (some Kernel.start) es).2 := by
  have hrun := Machine.run_recorded kernelMachine Kernel.start [] es
  rw [hk, List.nil_append] at hrun
  refine ((Machine.run_invariant (fun s => ResInv s.1 s.2) (fun _ => True) ?_ ?_ hg).1 _ hrun).ok
  · rintro ⟨k, hist⟩ ev h hc
    refine ⟨fun s' hs' => ?_, fun _ _ => trivial⟩
    obtain ⟨k', hk', rfl⟩ := Option.map_eq_some_iff.mp hs'
    obtain ⟨r, hr, rfl⟩ := Option.map_eq_some_iff.mp hk'
    dsimp only
    rw [kernelMachine_obs hr]
    exact h.step hc hr
  · intro s hs
    cases hs
    exact ResInv.start

instance (startAddr blockSize : Nat) (numBlocks : Int) :
    Decidable (FmemFits startAddr blockSize numBlocks) :=
  inferInstanceAs (Decidable (_ ∧ _ ∧ _))

instance (k : Kernel) (hist : List Obs) : ∀ ev, Decidable (ResourceArgs k hist ev)
  | .task sv => by induction sv using Service.casesOn <;> unfold ResourceArgs <;> infer_instance
  | .isr sv => by induction sv using IService.casesOn <;> unfold ResourceArgs <;> infer_instance
  | .tick => .isTrue trivial
  | .timerLoop => .isTrue trivial
  | .switchContext => .isTrue trivial
  | .back => .isTrue trivial

instance (s : Kernel × List Obs) (ev : Event) : Decidable (ResourceEvent s ev) :=
  inferInstanceAs (Decidable (_ ∧ _ ∧ _))

/-- Task 2 gets the two blocks of a pool and blocks on a semaphore; task 3 gives a block back, which
    task 2 gets again behind the signal. -/
def resourceRun : List Event :=
  twoTasks ++ [.task (.fmemCreate 0 1000 16 2), .task (.semCreate 0 0 1), .task (.fmemGet 0 5),
    .task (.fmemGetPolling 0), .task (.semAcquire 0 TN_WAIT_INFINITE), .switchContext,
    .task (.fmemRelease 0 1000), .task (.semSignal 0), .task (.sleep 10), .switchContext, .back,
    .task (.fmemGetPolling 0)]

theorem resourceRun_isSome :
    (Machine.run kernelMachine (some Kernel.start) resourceRun).1.isSome = true := by
  decide +kernel

theorem resources_ok_two_blocks :
    ResourceOk ((Machine.run kernelMachine (some Kernel.start) resourceRun).1.get resourceRun_isSome)
      (Machine.run kernelMachine (some Kernel.start) resourceRun).2 ∧
    held 0 (Machine.run kernelMachine (some Kernel.start) resourceRun).2 = [1000, 1016] := by
  have hk := (Option.some_get resourceRun_isSome).symm
  have hg : Machine.Guarded (Machine.recorded kernelMachine) ResourceEvent
      (some (Kernel.start, [])) resourceRun := by decide +kernel
  exact ⟨resources_ok resourceRun _ hg hk, by decide +kernel⟩

/-- Task 2 waits for a semaphore that is never signalled, and task 3 releases the wait. -/
def releasedRun : List Event :=
  twoTasks ++ [.task (.semCreate 0 0 1), .task (.semAcquire 0 TN_WAIT_INFINITE), .switchContext,
    .task (.releaseWait 2), .task (.sleep 10), .switchContext, .back]

theorem releasedRun_isSome :
    (Machine.run kernelMachine (some Kernel.start) releasedRun).1.isSome = true := by
  decide +kernel

/-- An acquire that returns `TERR_NO_ERR` without the semaphore. -/
theorem release_wait_grants_nothing :
    ¬ ∀ (es : List Event) (k : Kernel),
      Machine.Guarded kernelMachine Enabled (some Kernel.start) es →
      (Machine.run kernelMachine (some Kernel.start) es).1 = some k →
      ResourceOk k (Machine.run kernelMachine (some Kernel.start) es).2 := by
  intro h
  have hk := (Option.some_get releasedRun_isSome).symm
  have hok := h releasedRun _ (by decide +kernel) hk
  have hlast : (Machine.run kernelMachine (some Kernel.start) releasedRun).2 =
      (Machine.run kernelMachine (some Kernel.start) releasedRun).2.dropLast ++
        [.back 2 (.acquire 0) .noErr 0] := by decide +kernel
  have hend := hok.back _ 2 (.acquire 0) .noErr 0 [] hlast rfl
  revert hend
  unfold Ended
  decide +kernel

end TnKernel
