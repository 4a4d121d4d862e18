import TnNet.Lib.Packing
import TnNet.Kernel.PoolRun

/-!
# The blocks of a new pool

`tn_fmem_create` rounds the start and the size of the blocks up, and gives blocks up while the rounded
pool ends behind the memory it was given.

`tn_fmem_create_geometry` — the pool is not created, or the list in its memory goes through as many
blocks as fit.
-/

set_option autoImplicit false

namespace TnKernel

open FreeList (Threaded segment thread threaded_thread)
open Packing (RoundsTo Packed packed_segment)

/-! ## The model -/

/-- `tn_fmem_create`, with the test of `start_addr`. -/
def tnFmemCreateNull (i startAddr blockSize : Nat) (numBlocks : Int) (k : Kernel) : Res :=
  if startAddr = 0 ∧ (k.fmp i).idFmp = false then
    (k.setFmp i { k.fmp i with fblkcnt := 0, numBlocks := 0, freeList := [] }).ret .other .wrongParam
  else tnFmemCreate i startAddr blockSize numBlocks k

/-- A pool in memory whose blocks fill what it was given, from `start` to `stop`. -/
structure PoolGeometry (start stop size : Nat) (x : Fmp) (m : PoolMem) (i : Nat)
    (bs : List Nat) : Prop where
  threaded : Threaded m.word 0 (m.freeList i) bs
  packed : Packed TN_ALIG size start stop bs
  count : bs.length = x.numBlocks ∧ bs.length = x.fblkcnt
  blockSize : x.blockSize = size
  two : 2 ≤ bs.length
  most : ∀ bs', Packed TN_ALIG size start stop bs' → bs'.length ≤ bs.length

/-- `tn_fmem_create` fails, or makes the pool with the most blocks. -/
def CreatesMost (i startAddr blockSize : Nat) (numBlocks : Int) (k : Kernel) (m : PoolMem) : Prop :=
  ∃ start size, RoundsTo TN_ALIG startAddr start ∧ RoundsTo TN_ALIG blockSize size ∧
    let x := (tnFmemCreateNull i startAddr blockSize numBlocks k).1.fmp i
    let stop := startAddr + blockSize * numBlocks.toNat
    (x.idFmp = false ∧ (startAddr = 0 ∨ ∀ bs, Packed TN_ALIG size start stop bs → bs.length < 2)) ∨
      (x.idFmp = true ∧ ∃ bs, PoolGeometry start stop size x (m.create (k.fmp i) x i) i bs)

variable {i startAddr blockSize n size start stop : Nat} {numBlocks : Int} {k : Kernel} {x : Fmp}
  {m : PoolMem}

/-! ## Rounding -/

theorem alignUp_roundsTo (h : n + TN_ALIG ≤ 2 ^ 32) : RoundsTo TN_ALIG n (alignUp n) := by
  have hle := le_alignUp h
  unfold alignUp TN_ALIG at *
  rw [Nat.mod_eq_of_lt (by omega)] at *
  constructor <;> omega

/-! ## The count -/

/-- The loop gives no block up that fits. -/
theorem le_fmemFit {c : Nat} (hlt : start + size * n < 2 ^ 32) (hfit : start + size * c ≤ stop)
    (hc : c ≤ n) : c ≤ fmemFit stop size n (start + size * n) := by
  induction n with
  | zero => omega
  | succ n ih =>
    unfold fmemFit
    rw [Nat.mul_succ] at hlt ⊢
    split
    · rename_i hover
      have hne : c ≠ n + 1 := by
        rintro rfl
        rw [Nat.mul_succ] at hfit
        omega
      have hmod : (start + (size * n + size) + 2 ^ 32 - size) % 2 ^ 32 = start + size * n := by
        omega
      rw [hmod]
      exact ih (by omega) (by omega)
    · exact hc

/-- The blocks that follow each other are as many as fit, up to the count that was asked for. -/
theorem length_le_fmemFit {count : Nat} (bs : List Nat) (hsize : 0 < size)
    (hlt : start + size * count < 2 ^ 32) (hstop : stop ≤ start + size * count)
    (hbs : Packed TN_ALIG size start stop bs) :
    bs.length ≤ fmemFit stop size count (start + size * count) := by
  have hroom := hbs.room hsize
  by_cases hnil : bs = []
  · simp [hnil]
  obtain ⟨b, l, rfl⟩ := List.exists_cons_of_ne_nil hnil
  have hin := hbs.inside b List.mem_cons_self
  have hcount : (b :: l).length ≤ count := by
    apply Nat.le_of_mul_le_mul_left _ hsize
    omega
  exact le_fmemFit hlt (by omega) hcount

/-! ## The pool -/

/-- **`tn_fmem_create` makes the pool with the most blocks, or none.** -/
theorem tn_fmem_create_geometry (i startAddr blockSize : Nat) (numBlocks : Int) (k : Kernel) (m : PoolMem)
    (hid : (k.fmp i).idFmp = false) (hsize : 4 ≤ blockSize) (hnum : 2 ≤ numBlocks)
    (hend : FmemFits startAddr blockSize numBlocks) : CreatesMost i startAddr blockSize numBlocks k m := by
  have hstart := alignUp_roundsTo hend.1
  have hround := alignUp_roundsTo hend.2.1
  refine ⟨alignUp startAddr, alignUp blockSize, hstart, hround, ?_⟩
  unfold tnFmemCreateNull
  split
  · rename_i hnull
    dsimp only
    refine .inl ⟨?_, .inl hnull.1⟩
    simpa [Kernel.ret, Kernel.setFmp] using hid
  have hpos : 0 < alignUp blockSize := Nat.lt_of_lt_of_le (by omega) hround.le
  have hle : startAddr + blockSize * numBlocks.toNat ≤
      alignUp startAddr + alignUp blockSize * numBlocks.toNat :=
    Nat.add_le_add hstart.le (Nat.mul_le_mul_right _ hround.le)
  have hlt := hend.2.2
  have hmost := fun bs => length_le_fmemFit bs hpos hlt hle
  have hfitle := @fmemFit_le (startAddr + blockSize * numBlocks.toNat) _ _ _ hlt
  unfold tnFmemCreate
  rw [if_neg (by simp [hid]), if_neg (by omega)]
  dsimp only
  rw [Nat.mod_eq_of_lt hlt, Nat.mod_eq_of_lt (Nat.lt_of_le_of_lt hle hlt)]
  generalize fmemFit _ _ _ _ = n at hmost hfitle ⊢
  split
  · rename_i hn
    refine .inl ⟨?_, .inr fun bs hbs => Nat.lt_of_le_of_lt (hmost bs hbs) hn⟩
    simpa [Kernel.ret, Kernel.setFmp] using hid
  · rename_i hn
    refine .inr ⟨by simp [Kernel.ret, Kernel.setFmp], segment (alignUp blockSize) (alignUp startAddr) n, ?_⟩
    have hsegment : (segment (alignUp blockSize) (alignUp startAddr) n).length = n := by
      simp [FreeList.segment]
    have hsucc : n - 1 + 1 = n := by omega
    have hthr := threaded_thread (p := alignUp startAddr) hpos (n - 1) m.word
    rw [hsucc] at hthr
    constructor
    case threaded => simpa [PoolMem.create, Kernel.ret, Kernel.setFmp, hid] using hthr
    case packed => exact packed_segment hstart.multiple hround.multiple (hfitle (by omega))
    case count => simp [Kernel.ret, Kernel.setFmp, hsegment]
    case blockSize => simp [Kernel.ret, Kernel.setFmp]
    case two => omega
    case most =>
      rw [hsegment]
      exact hmost

/-- Of four blocks of 6 bytes at address 5 two of 8 bytes are left. -/
theorem tn_fmem_create_geometry_two : CreatesMost 0 5 6 4 Kernel.start ⟨fun _ => 0, fun _ => 0⟩ ∧
    ((tnFmemCreateNull 0 5 6 4 Kernel.start).1.fmp 0).freeList = [8, 16] :=
  ⟨tn_fmem_create_geometry 0 5 6 4 Kernel.start _ rfl (by decide) (by decide)
    ⟨by decide, by decide, by decide⟩, by decide⟩

end TnKernel
