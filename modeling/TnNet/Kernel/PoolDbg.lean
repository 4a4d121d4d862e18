import TnNet.Lib.Slots
import TnNet.Kernel.ResourceRun

/-!
# The debug memory pool

`tn_mem_dbg.c`: the pool keeps the addresses of its free blocks in an array `free_list` of the caller, a
cell that is 0 is free, and `fm_put_dbg` looks at the address it is given.  The wait list is one of the
scheduler; the pool is used by tasks and interrupt handlers while the rest of the kernel does what it
likes.

* `dbg_pool_iff` — a run in which every release is told right from wrong, and the cells are in order in
  every state, is one in which each release meets `Tellable`: no task waits and the address is not
  inside a block, or it is the address of a block that is handed out.
-/

set_option autoImplicit false

namespace TnKernel

open Slots (entries takeFirst scan)

/-! ## The model -/

/-- `TN_FMP_DBG`; `waitQueue` is the wait list of the scheduler that belongs to it. -/
structure FmpDbg where
  waitQueue : Que := .fmp 0
  blockSize : Nat := 0
  numBlocks : Nat := 0
  startAddr : Nat := 0
  endAddr : Nat := 0
  freeList : List Nat := []
  fblkcnt : Nat := 0
  idFmp : Bool := false

/-- The scheduler and the pool; `outs` are the addresses that are handed out: the values of the calls of
    `tn_fmem_dbg_get`, and those a release has given to a waiting task. -/
structure DbgWorld where
  sch : Sched
  pool : FmpDbg
  outs : List Nat

/-- `fm_get_dbg`. -/
def fmGetDbg (d : FmpDbg) : Option Nat × FmpDbg :=
  if 0 < d.fblkcnt then
    match takeFirst 0 d.numBlocks d.freeList with
    | some (ptr, cells) => (some ptr, { d with freeList := cells, fblkcnt := d.fblkcnt - 1 })
    | none => (none, d)
  else (none, d)

/-- `fm_put_dbg`. -/
def fmPutDbg (d : FmpDbg) (mem : Nat) : Terr × FmpDbg :=
  if d.fblkcnt < d.numBlocks then
    if mem < d.startAddr ∨ d.endAddr < mem then (.iluse, d)
    else
      match scan 0 mem d.numBlocks 0 none d.freeList with
      | none => (.iluse, d)
      | some none => (.wstate, d)
      | some (some freeInd) =>
        (.noErr, { d with freeList := d.freeList.set freeInd mem, fblkcnt := d.fblkcnt + 1 })
  else (.overflow, d)

/-- `tn_fmem_dbg_create`; `free_list` is the array of the caller, or `NULL`. -/
def tnFmemDbgCreate (startAddr : Nat) (freeList : Option (List Nat)) (blockSize : Nat) (numBlocks : Int)
    (w : DbgWorld) : Terr × DbgWorld :=
  if w.pool.idFmp then (.wrongParam, w)
  else if startAddr = 0 ∨ numBlocks < 2 ∨ freeList = none ∨ blockSize < 4 then
    (.wrongParam, { w with
      pool := { w.pool with fblkcnt := 0, numBlocks := 0, idFmp := false, freeList := [] } })
  else
    let num := numBlocks.toNat
    let cells := List.replicate num 0 ++ (freeList.getD []).drop num
    let sch := { w.sch with que := Function.update w.sch.que w.pool.waitQueue [] }
    let start := alignUp startAddr
    let size := alignUp blockSize
    let n := fmemFit ((startAddr + blockSize * num) % 2 ^ 32) size num ((start + size * num) % 2 ^ 32)
    if n < 2 then
      (.wrongParam, { w with
        sch := sch
        pool := { w.pool with
          startAddr := start, blockSize := size, fblkcnt := 0, numBlocks := 0, freeList := [] } })
    else
      (.noErr, { sch := sch, outs := []
                 pool :=
                  { waitQueue := w.pool.waitQueue, startAddr := start, blockSize := size, numBlocks := n
                    freeList := (List.range n).map (fun i => start + size * i) ++ cells.drop n
                    endAddr := start + size * (n - 1)
                    fblkcnt := n, idFmp := true } })

/-- What a service leaves: the code and the datum, or nothing when the task blocks. -/
abbrev DbgRes := Option (Terr × Nat) × DbgWorld

/-- What `tn_fmem_dbg_get` and its polling versions do; `hasData` is `p_data != NULL`, `onEmpty` the
    case of a pool without free blocks. -/
def dbgGet (hasData : Bool) (onEmpty : DbgWorld → DbgRes) (w : DbgWorld) : DbgRes :=
  if !hasData then (some (.wrongParam, 0), w)
  else if !w.pool.idFmp then (some (.noexs, 0), w)
  else
    match fmGetDbg w.pool with
    | (some ptr, d) => (some (.noErr, ptr), { w with pool := d, outs := ptr :: w.outs })
    | (none, d) => onEmpty { w with pool := d }

/-- `tn_fmem_dbg_get`. -/
def tnFmemDbgGet (hasData : Bool) (timeout : BitVec 32) (w : DbgWorld) : DbgRes :=
  if timeout = 0 then (some (.wrongParam, 0), w)
  else dbgGet hasData (fun w =>
    (none, { w with sch := taskCurrToWaitAction (some w.pool.waitQueue) .wfixmem timeout w.sch })) w

/-- `tn_fmem_dbg_get_polling`. -/
def tnFmemDbgGetPolling (hasData : Bool) (w : DbgWorld) : DbgRes :=
  dbgGet hasData (fun w => (some (.timeout, 0), w)) w

/-- `tn_fmem_dbg_get_ipolling`. -/
def tnFmemDbgGetIpolling (hasData : Bool) (w : DbgWorld) : DbgRes := tnFmemDbgGetPolling hasData w

/-- `tn_fmem_dbg_release`. -/
def tnFmemDbgRelease (mem : Nat) (w : DbgWorld) : Terr × DbgWorld :=
  if mem = 0 then (.wrongParam, w)
  else if !w.pool.idFmp then (.noexs, w)
  else
    match w.sch.que w.pool.waitQueue with
    | task :: _ =>
      -- the address goes to the task as it is
      let s := (queueRemoveHead w.pool.waitQueue w.sch).setTcb task fun b => { b with dataElem := mem }
      (.noErr, { w with sch := (taskWaitComplete task false s).2, outs := mem :: w.outs.erase mem })
    | [] =>
      let r := fmPutDbg w.pool mem
      (r.1, { w with pool := r.2, outs := if r.1 = .noErr then w.outs.erase mem else w.outs })

/-- `tn_fmem_dbg_irelease`. -/
def tnFmemDbgIrelease (mem : Nat) (w : DbgWorld) : Terr × DbgWorld := tnFmemDbgRelease mem w

/-- What can happen.  `kernel`: something else, with the state it leaves the scheduler in. -/
inductive DbgEvent where
  | get (hasData : Bool) (timeout : BitVec 32)
  | getPolling (hasData : Bool)
  | getIpolling (hasData : Bool)
  | release (mem : Nat)
  | irelease (mem : Nat)
  | kernel (s : Sched)

def dbgStep (w : DbgWorld) : DbgEvent → DbgWorld
  | .get hasData timeout => (tnFmemDbgGet hasData timeout w).2
  | .getPolling hasData => (tnFmemDbgGetPolling hasData w).2
  | .getIpolling hasData => (tnFmemDbgGetIpolling hasData w).2
  | .release mem => (tnFmemDbgRelease mem w).2
  | .irelease mem => (tnFmemDbgIrelease mem w).2
  | .kernel s => { w with sch := s }

def dbgMachine : Machine.Step DbgWorld DbgEvent Unit := fun w ev => (some (dbgStep w ev), [])

/-- The blocks of the pool. -/
def FmpDbg.blocks (d : FmpDbg) : List Nat :=
  (List.range d.numBlocks).map fun i => d.startAddr + d.blockSize * i

/-- The addresses in the cells of `free_list`. -/
def FmpDbg.free (d : FmpDbg) : List Nat := entries 0 d.freeList

/-- The cells that are not 0 are distinct blocks of the pool, `fblkcnt` of them, and none of them is handed
    out. -/
structure CellsOk (w : DbgWorld) : Prop where
  nodup : w.pool.free.Nodup
  blocks : ∀ c ∈ w.pool.free, c ∈ w.pool.blocks
  count : w.pool.free.length = w.pool.fblkcnt
  apart : ∀ c ∈ w.pool.free, c ∉ w.outs

/-- The release of an address is accepted if and only if it is a block that is handed out, and otherwise
    changes nothing. -/
def TellsRelease (w : DbgWorld) (mem : Nat) (r : Terr × DbgWorld) : Prop :=
  (r.1 = .noErr ↔ mem ∈ w.pool.blocks ∧ mem ∈ w.outs) ∧ (r.1 ≠ .noErr → r.2 = w)

def Tells (w : DbgWorld) : DbgEvent → Prop
  | .release mem => TellsRelease w mem (tnFmemDbgRelease mem w)
  | .irelease mem => TellsRelease w mem (tnFmemDbgIrelease mem w)
  | _ => True

/-- What a step is to do. -/
def DbgOk (w : DbgWorld) (ev : DbgEvent) : Prop := Tells w ev ∧ CellsOk (dbgStep w ev)

/-- The tests of the release can tell: while a task waits the address is one that is handed out, and
    while none waits and a block is missing an address between the first and the last block is that of a
    block. -/
def TellableAt (w : DbgWorld) (mem : Nat) : Prop :=
  mem ≠ 0 →
    (w.sch.que w.pool.waitQueue ≠ [] → mem ∈ w.outs) ∧
    (w.sch.que w.pool.waitQueue = [] → w.pool.fblkcnt < w.pool.numBlocks → w.pool.startAddr ≤ mem →
      mem ≤ w.pool.endAddr → (mem - w.pool.startAddr) % w.pool.blockSize = 0)

def Tellable (w : DbgWorld) : DbgEvent → Prop
  | .release mem => TellableAt w mem
  | .irelease mem => TellableAt w mem
  | _ => True

/-! ## The invariant -/

/-- The free blocks and the blocks that are handed out are the blocks of the pool. -/
structure DbgInv (d : FmpDbg) (outs : List Nat) : Prop where
  id : d.idFmp = true
  blocks : (d.free ++ outs).Perm d.blocks
  count : d.free.length = d.fblkcnt
  rest : ∀ c ∈ d.freeList.drop d.numBlocks, c = 0
  len : d.numBlocks ≤ d.freeList.length
  start : 0 < d.startAddr
  size : 0 < d.blockSize
  num : 0 < d.numBlocks
  last : d.endAddr = d.startAddr + d.blockSize * (d.numBlocks - 1)

variable {d : FmpDbg} {outs : List Nat} {w : DbgWorld} {mem : Nat}

theorem DbgInv.nodup_blocks (h : DbgInv d outs) : d.blocks.Nodup := by
  refine List.Nodup.map_on ?_ List.nodup_range
  intro j _ j' _ heq
  exact Nat.eq_of_mul_eq_mul_left h.size (Nat.add_left_cancel heq)

theorem DbgInv.nodup (h : DbgInv d outs) : (d.free ++ outs).Nodup := h.blocks.nodup_iff.mpr h.nodup_blocks

theorem DbgInv.out_block (h : DbgInv d outs) (hm : mem ∈ outs) : mem ∈ d.blocks :=
  h.blocks.mem_iff.mp (List.mem_append_right _ hm)

/-- The addresses of the blocks. -/
theorem DbgInv.mem_blocks (h : DbgInv d outs) :
    mem ∈ d.blocks ↔ d.startAddr ≤ mem ∧ mem ≤ d.endAddr ∧
    (mem - d.startAddr) % d.blockSize = 0 := by
  have hsize := h.size
  have hnum := h.num
  unfold FmpDbg.blocks
  rw [List.mem_map, h.last]
  constructor
  · rintro ⟨i, hi, rfl⟩
    have hle : d.blockSize * i ≤ d.blockSize * (d.numBlocks - 1) :=
      Nat.mul_le_mul_left _ (by rw [List.mem_range] at hi; omega)
    refine ⟨by omega, by omega, ?_⟩
    rw [Nat.add_sub_cancel_left, Nat.mul_mod_right]
  · rintro ⟨h1, h2, h3⟩
    obtain ⟨i, hi⟩ := Nat.dvd_of_mod_eq_zero h3
    have hle : i ≤ d.numBlocks - 1 := Nat.le_of_mul_le_mul_left (by omega) hsize
    exact ⟨i, List.mem_range.mpr (by omega), by omega⟩

/-- An empty cell is left, as long as a block is missing. -/
theorem DbgInv.empty_cell (h : DbgInv d outs) (hc : d.fblkcnt < d.numBlocks) :
    0 ∈ d.freeList.take d.numBlocks := by
  by_contra hz
  have h1 : entries 0 (d.freeList.take d.numBlocks) = d.freeList.take d.numBlocks := by
    refine Slots.entries_of_forall fun c hc h0 => hz ?_
    rwa [h0] at hc
  have h2 : d.free = d.freeList.take d.numBlocks ++ entries 0 (d.freeList.drop d.numBlocks) := by
    rw [FmpDbg.free, ← h1, ← Slots.entries_append, List.take_append_drop]
  have h3 := h.count
  rw [h2, List.length_append, List.length_take, Nat.min_eq_left h.len] at h3
  omega

/-- The addresses in the cells that are searched. -/
theorem DbgInv.mem_take (h : DbgInv d outs) (hm : mem ≠ 0) :
    mem ∈ d.freeList.take d.numBlocks ↔ mem ∈ d.free := by
  rw [FmpDbg.free, Slots.mem_entries]
  constructor
  · exact fun ht => ⟨List.mem_of_mem_take ht, hm⟩
  · rintro ⟨hl, -⟩
    rw [← List.take_append_drop d.numBlocks d.freeList, List.mem_append] at hl
    exact hl.resolve_right fun hd => hm (h.rest mem hd)

/-- The invariant gives the cells. -/
theorem DbgInv.cellsOk (h : DbgInv w.pool w.outs) : CellsOk w := by
  have hn := List.nodup_append.mp h.nodup
  exact ⟨hn.1, fun c hc => h.blocks.mem_iff.mp (List.mem_append_left _ hc), h.count,
    fun c hc ho => hn.2.2 c hc c ho rfl⟩

/-! ## The services -/

/-- `fm_get_dbg`: a free block goes out, or nothing changes. -/
theorem fmGetDbg_spec (h : DbgInv d outs) :
    (∃ ptr d', fmGetDbg d = (some ptr, d') ∧ DbgInv d' (ptr :: outs)) ∨ fmGetDbg d = (none, d) := by
  unfold fmGetDbg
  split
  · rename_i hpos
    split
    · rename_i ptr cells hcells
      obtain ⟨h1, h2, h3⟩ := Slots.takeFirst_spec hcells
      have hf : d.free = ptr :: entries 0 cells := h1
      refine .inl ⟨ptr, _, rfl,
        { h with rest := ?rest, len := ?len, blocks := ?blocks, count := ?count }⟩
      case rest =>
        show ∀ c ∈ cells.drop d.numBlocks, c = 0
        rw [h3]
        exact h.rest
      case len =>
        show d.numBlocks ≤ cells.length
        rw [h2]
        exact h.len
      case blocks =>
        have hb := h.blocks
        rw [hf] at hb
        exact List.perm_middle.trans hb
      case count =>
        have hc := h.count
        rw [hf, List.length_cons] at hc
        show (entries 0 cells).length = d.fblkcnt - 1
        omega
    · exact .inr rfl
  · exact .inr rfl

/-- `fm_put_dbg`: an address that is that of a block, if it is between the first and the last one, is
    accepted if and only if it is handed out. -/
theorem fmPutDbg_spec (h : DbgInv d outs)
    (ht : d.fblkcnt < d.numBlocks → d.startAddr ≤ mem → mem ≤ d.endAddr →
      (mem - d.startAddr) % d.blockSize = 0) :
    (mem ∈ outs ∧ (fmPutDbg d mem).1 = .noErr ∧ DbgInv (fmPutDbg d mem).2 (outs.erase mem)) ∨
      (mem ∉ outs ∧ (fmPutDbg d mem).1 ≠ .noErr ∧ (fmPutDbg d mem).2 = d) := by
  have hn := List.nodup_append.mp h.nodup
  unfold fmPutDbg
  split
  · rename_i hc
    split
    · rename_i hr
      refine .inr ⟨fun hm => ?_, by simp, rfl⟩
      have := h.mem_blocks.mp (h.out_block hm)
      omega
    rename_i hr
    have hblk : mem ∈ d.blocks := h.mem_blocks.mpr ⟨by omega, by omega, ht hc (by omega) (by omega)⟩
    have hpos := h.start
    have hm0 : mem ≠ 0 := by omega
    split
    · -- a block that is free
      rename_i hs
      have hf := (h.mem_take hm0).mp ((Slots.scan_none 0 none).mp hs)
      exact .inr ⟨fun ho => hn.2.2 mem hf mem ho rfl, by simp, rfl⟩
    · -- there is an empty cell
      rename_i hs
      exact absurd (h.empty_cell hc) (((Slots.scan_some hs).2 rfl).2 rfl)
    · rename_i j hs
      have hf : mem ∉ d.free := by
        rw [← h.mem_take hm0, ← Slots.scan_none (e := 0) 0 none, hs]
        simp
      have ho : mem ∈ outs := (List.mem_append.mp (h.blocks.mem_iff.mpr hblk)).resolve_left hf
      obtain ⟨-, hj, he⟩ := ((Slots.scan_some hs).2 rfl).1 j rfl
      rw [Nat.sub_zero] at hj he
      have hp : (entries 0 (d.freeList.set j mem)).Perm (mem :: d.free) := Slots.entries_set he hm0
      refine .inl ⟨ho, rfl, { h with rest := ?rest, len := ?len, blocks := ?blocks, count := ?count }⟩
      case rest =>
        show ∀ c ∈ (d.freeList.set j mem).drop d.numBlocks, c = 0
        rw [List.drop_set_of_lt hj]
        exact h.rest
      case len =>
        show d.numBlocks ≤ (d.freeList.set j mem).length
        rw [List.length_set]
        exact h.len
      case blocks =>
        refine ((hp.append_right _).trans ?_).trans h.blocks
        exact List.perm_middle.symm.trans ((List.perm_cons_erase ho).symm.append_left _)
      case count =>
        show (entries 0 (d.freeList.set j mem)).length = d.fblkcnt + 1
        rw [hp.length_eq, List.length_cons, h.count]
  · -- no block is missing
    rename_i hc
    refine .inr ⟨fun ho => ?_, by simp, rfl⟩
    have hl := h.blocks.length_eq
    have hpos := List.length_pos_of_mem ho
    rw [List.length_append, h.count, FmpDbg.blocks, List.length_map, List.length_range] at hl
    omega

/-- A release that can be told is told. -/
theorem release_tells (h : DbgInv w.pool w.outs) (ht : TellableAt w mem) :
    TellsRelease w mem (tnFmemDbgRelease mem w) ∧
      DbgInv (tnFmemDbgRelease mem w).2.pool (tnFmemDbgRelease mem w).2.outs := by
  unfold TellsRelease tnFmemDbgRelease
  split
  · -- `NULL` is no block
    rename_i hm0
    refine ⟨⟨⟨by simp, fun hb => ?_⟩, by simp⟩, h⟩
    have h1 := h.mem_blocks.mp hb.1
    have h2 := h.start
    omega
  rename_i hm0
  rw [h.id, if_neg (by simp)]
  split
  · rename_i task l hq
    have ho : mem ∈ w.outs := (ht hm0).1 (by simp [hq])
    have hp := (List.perm_cons_erase ho).symm
    exact ⟨⟨⟨fun _ => ⟨h.out_block ho, ho⟩, fun _ => rfl⟩, by simp⟩,
      { h with blocks := (hp.append_left _).trans h.blocks }⟩
  · rename_i hq
    rcases fmPutDbg_spec h ((ht hm0).2 hq) with ⟨ho, hrc, hinv⟩ | ⟨ho, hrc, hd⟩
    · simp [ho, hrc, h.out_block ho, hinv]
    · simp [ho, hrc, hd, h]

/-- And no other one is. -/
theorem tellable_of_tells (h : DbgInv w.pool w.outs) (ht : TellsRelease w mem (tnFmemDbgRelease mem w)) :
    TellableAt w mem := by
  intro hm0
  have hacc := ht.1
  unfold tnFmemDbgRelease at hacc
  rw [if_neg hm0, h.id, if_neg (by simp)] at hacc
  constructor
  · intro hq
    split at hacc
    · exact (hacc.mp rfl).2
    · contradiction
  · intro hq hc h1 h2
    have hblk : mem ∈ w.pool.blocks := by
      rw [hq] at hacc
      dsimp only at hacc
      unfold fmPutDbg at hacc
      rw [if_pos hc, if_neg (by omega)] at hacc
      split at hacc
      · rename_i hs
        have hf := (h.mem_take hm0).mp ((Slots.scan_none 0 none).mp hs)
        exact h.blocks.mem_iff.mp (List.mem_append_left _ hf)
      · rename_i hs
        exact absurd (h.empty_cell hc) (((Slots.scan_some hs).2 rfl).2 rfl)
      · exact (hacc.mp rfl).1
    exact (h.mem_blocks.mp hblk).2.2

/-- The calls for a block. -/
theorem DbgInv.get (h : DbgInv w.pool w.outs) (hasData : Bool) {onEmpty : DbgWorld → DbgRes}
    (he : (onEmpty w).2.pool = w.pool ∧ (onEmpty w).2.outs = w.outs) :
    DbgInv (dbgGet hasData onEmpty w).2.pool (dbgGet hasData onEmpty w).2.outs := by
  unfold dbgGet
  split
  · exact h
  split
  · exact h
  rcases fmGetDbg_spec h with ⟨ptr, d', hd, hinv⟩ | hd
  · rw [hd]
    exact hinv
  · rw [hd]
    dsimp only
    rw [he.1, he.2]
    exact h

/-- Every step keeps the invariant, if its release can be told. -/
theorem DbgInv.step (h : DbgInv w.pool w.outs) {ev : DbgEvent} (ht : Tellable w ev) :
    DbgInv (dbgStep w ev).pool (dbgStep w ev).outs := by
  cases ev with
  | get hasData timeout =>
    show DbgInv (tnFmemDbgGet hasData timeout w).2.pool (tnFmemDbgGet hasData timeout w).2.outs
    unfold tnFmemDbgGet
    split
    · exact h
    · exact h.get hasData ⟨rfl, rfl⟩
  | getPolling hasData => exact h.get hasData ⟨rfl, rfl⟩
  | getIpolling hasData => exact h.get hasData ⟨rfl, rfl⟩
  | release mem => exact (release_tells h ht).2
  | irelease mem => exact (release_tells h ht).2
  | kernel s => exact h

/-- What a step is to do, as a condition on the state before it. -/
theorem dbgOk_iff (h : DbgInv w.pool w.outs) (ev : DbgEvent) : DbgOk w ev ↔ Tellable w ev := by
  constructor
  · rintro ⟨ht, -⟩
    cases ev with
    | release mem => exact tellable_of_tells h ht
    | irelease mem => exact tellable_of_tells h ht
    | _ => trivial
  · intro ht
    refine ⟨?_, (h.step ht).cellsOk⟩
    cases ev with
    | release mem => exact (release_tells h ht).1
    | irelease mem => exact (release_tells h ht).1
    | _ => trivial

/-! ## The new pool -/

theorem fmemFit_le_num (i size n j : Nat) : fmemFit i size n j ≤ n := by
  induction n generalizing j with
  | zero => simp [fmemFit]
  | succ n ih =>
    rw [fmemFit]
    split
    · exact Nat.le_succ_of_le (ih _)
    · simp

/-- `tn_fmem_dbg_create`, for memory in the address space and an array of `num_blocks` cells. -/
theorem tnFmemDbgCreate_spec {startAddr blockSize : Nat} {numBlocks : Int} {cells : List Nat}
    {w₀ : DbgWorld} (hlen : cells.length = numBlocks.toNat)
    (hfits : FmemFits startAddr blockSize numBlocks)
    (hc : tnFmemDbgCreate startAddr (some cells) blockSize numBlocks w = (.noErr, w₀)) :
    DbgInv w₀.pool w₀.outs := by
  unfold tnFmemDbgCreate at hc
  split at hc
  · cases hc
  split at hc
  · cases hc
  rename_i hargs
  simp only [not_or] at hargs
  dsimp only at hc
  split at hc
  · cases hc
  rename_i hn
  generalize hn' : fmemFit _ _ _ _ = n at hc hn
  have hle : n ≤ numBlocks.toNat := hn' ▸ fmemFit_le_num _ _ _ _
  have hstart : 0 < alignUp startAddr :=
    Nat.lt_of_lt_of_le (Nat.pos_of_ne_zero hargs.1) (le_alignUp hfits.1)
  have hsize : 0 < alignUp blockSize := by
    have := le_alignUp hfits.2.1
    omega
  have hrest : (List.replicate numBlocks.toNat 0 ++
      List.drop numBlocks.toNat ((some cells).getD [])).drop n =
      List.replicate (numBlocks.toNat - n) 0 := by
    rw [Option.getD_some, List.drop_of_length_le (Nat.le_of_eq hlen), List.append_nil, List.drop_replicate]
  rw [hrest] at hc
  cases hc
  have hfree : FmpDbg.free
      { waitQueue := w.pool.waitQueue, blockSize := alignUp blockSize, numBlocks := n,
        startAddr := alignUp startAddr
        freeList := (List.range n).map (fun i => alignUp startAddr + alignUp blockSize * i) ++
          List.replicate (numBlocks.toNat - n) 0
        endAddr := alignUp startAddr + alignUp blockSize * (n - 1), fblkcnt := n, idFmp := true } =
      (List.range n).map fun i => alignUp startAddr + alignUp blockSize * i := by
    rw [FmpDbg.free, Slots.entries_append, Slots.entries_replicate, List.append_nil,
      Slots.entries_of_forall]
    intro c hc
    obtain ⟨i, -, rfl⟩ := List.mem_map.mp hc
    omega
  constructor
  case id => rfl
  case blocks =>
    rw [hfree, List.append_nil]
    exact .refl _
  case count =>
    rw [hfree]
    simp
  case rest =>
    intro c hc
    dsimp only at hc
    rw [List.drop_append_of_le_length (by simp)] at hc
    rw [List.drop_of_length_le (by simp), List.nil_append] at hc
    exact List.eq_of_mem_replicate hc
  case len => simp
  case start => exact hstart
  case size => exact hsize
  case num => exact Nat.lt_of_lt_of_le (by decide) (Nat.not_lt.mp hn)
  case last => rfl

/-! ## The result -/

/-- **The debug pool tells a bad release exactly when its tests can.**  In every run of the pool from
    its creation, every release is told right from wrong and the cells stay in order, if and only if
    every release meets `Tellable`. -/
theorem dbg_pool_iff (w w₀ : DbgWorld) (startAddr blockSize : Nat) (numBlocks : Int) (cells : List Nat)
    (hlen : cells.length = numBlocks.toNat) (hfits : FmemFits startAddr blockSize numBlocks)
    (hc : tnFmemDbgCreate startAddr (some cells) blockSize numBlocks w = (.noErr, w₀))
    (evs : List DbgEvent) : CellsOk w₀ ∧
      (Machine.Guarded dbgMachine DbgOk (some w₀) evs ↔
        Machine.Guarded dbgMachine Tellable (some w₀) evs) := by
  have h₀ := tnFmemDbgCreate_spec hlen hfits hc
  refine ⟨h₀.cellsOk, Machine.guarded_iff (fun w => DbgInv w.pool w.outs) (fun _ => True)
    (fun w ev h _ => dbgOk_iff h ev) ?_ ?_ fun _ _ => trivial⟩
  · intro w ev w' h _ hok hs
    cases hs
    exact h.step ((dbgOk_iff h ev).mp hok)
  · intro w h
    cases h
    exact h₀

/-- The kernel in front of the creation, and a pool of four blocks of eight bytes. -/
def dbgFresh : DbgWorld := ⟨tnStartSystem, {}, []⟩

def dbgFour : DbgWorld := (tnFmemDbgCreate 0x40000100 (some [0, 0, 0, 0]) 8 4 dbgFresh).2

/-- A block that is got, given back, and given back again. -/
theorem dbg_pool_iff_twice : CellsOk dbgFour ∧
    (Machine.Guarded dbgMachine DbgOk (some dbgFour) [.getPolling true, .release 0x40000100,
      .release 0x40000100] ↔ Machine.Guarded dbgMachine Tellable (some dbgFour)
        [.getPolling true, .release 0x40000100, .release 0x40000100]) :=
  dbg_pool_iff dbgFresh dbgFour 0x40000100 8 4 [0, 0, 0, 0] rfl (by decide) (by rfl) _

/-- **An address inside a block is accepted.**  One block is got, and its second word is given back: the
    call succeeds, and a cell of `free_list` holds an address that is that of no block. -/
theorem inside_block_accepted :
    (tnFmemDbgRelease 0x40000104 (dbgStep dbgFour (.getPolling true))).1 = .noErr ∧
      ¬ Machine.Guarded dbgMachine DbgOk (some dbgFour) [.getPolling true, .release 0x40000104] := by
  refine ⟨by decide, fun h => ?_⟩
  have ht : TellsRelease _ _ _ := h.2.1.1
  exact absurd (ht.1.mp (by decide)).1 (by decide)

end TnKernel
