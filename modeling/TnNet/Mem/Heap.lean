import Mathlib.Data.Finset.Option
import TnNet.Lib.Run
import TnNet.Mem.Sockbuf

/-!
# Mbuf descriptors and their data buffers

`mb_get`, `m_free`, `m_freem`, `m_copym` and `m_adj` of `tn_mbuf.c` over the memory pools of
`tn_net_mem.c`.  A block is known by its pool and its number; whether it lies in the memory of the
driver, which is how the free functions choose the pool, is a property of its pool.  A chain is the list
of its descriptors in `m_next` order.

`m_free` puts a freed block on the free list of its pool, whose link overwrites the first word of the
block: the low bits of `m_flags`, which are those of an aligned address, become 0.  `m_copym` goes on
when its first header cannot be allocated: what it has done up to the write through `NULL` is the result
`wild`.
-/

set_option autoImplicit false

namespace TnNet.Mem

/-! ## Pools -/

/-- The memory pools. -/
inductive Pool where
  | lobuf
  | m1buf
  | hibuf
  | drvLobuf
  | drvM1buf
  deriving DecidableEq

/-- The number of blocks of a pool. -/
def Pool.numBlocks : Pool → Nat
  | .lobuf => 64
  | .m1buf => 48
  | .hibuf => 6
  | .drvLobuf => 8
  | .drvM1buf => 48

/-- The address of a block is at least `MEM_DRV_START_ADDR`. -/
def Pool.drv : Pool → Bool
  | .lobuf => false
  | .m1buf => false
  | _ => true

structure Block where
  pool : Pool
  idx : Nat
  deriving DecidableEq

def Block.valid (b : Block) : Prop := b.idx < b.pool.numBlocks

/-- `struct mbuf`; `mData` is the distance of `m_data` from the start of the data buffer. -/
structure Desc where
  dbhdr : Bool := false
  pkthdr : Bool := false
  noalloc : Bool := false
  mLen : Nat := 0
  mData : Nat := 0
  mDbuf : Option Block := none
  mPri : Option Block := none
  mTlen : BitVec 20 := 0
  mDbtype : DbType := .MB_MIN
  mRefcnt : BitVec 8 := 0

/-- The contents of the descriptors and the free lists of the pools. -/
structure Heap where
  mb : Block → Desc
  free : Pool → List Block

namespace Heap

def set (h : Heap) (b : Block) (d : Desc) : Heap := { h with mb := Function.update h.mb b d }

/-- A block from a pool. -/
def alloc (h : Heap) (q : Pool) : Option (Block × Heap) :=
  match h.free q with
  | [] => none
  | b :: l => some (b, { h with free := Function.update h.free q l })

/-- A block back to a pool. -/
def put (h : Heap) (q : Pool) (b : Block) : Heap where
  mb := Function.update h.mb b { h.mb b with dbhdr := false, pkthdr := false }
  free := Function.update h.free q (b :: h.free q)

/-- `m_alloc_hdr`. -/
def mAllocHdr (h : Heap) : Option (Block × Heap) :=
  (h.alloc .lobuf).map fun r => (r.1, r.2.set r.1 {})

/-- `tn_net_free_min`. -/
def tnNetFreeMin (h : Heap) (b : Block) : Heap :=
  h.put (if b.pool.drv then .drvLobuf else .lobuf) b

/-- The pool `tn_net_free_pool` chooses. -/
def freePool (dbtype : DbType) (b : Block) : Pool :=
  match dbtype with
  | .MB_MIN => if b.pool.drv then .drvLobuf else .lobuf
  | .MB_MID1 => if b.pool.drv then .drvM1buf else .m1buf
  | .MB_HI => .hibuf

/-- `tn_net_free_pool`. -/
def tnNetFreePool (h : Heap) (dbtype : DbType) (b : Block) : Heap := h.put (freePool dbtype b) b

/-! ## Descriptors -/

/-- The pool of the data buffers `mb_get` takes. -/
def dbufPool (mbufType : DbType) (useTxPool : Bool) : Pool :=
  match mbufType with
  | .MB_MIN => if useTxPool then .drvLobuf else .lobuf
  | .MB_MID1 => if useTxPool then .drvM1buf else .m1buf
  | .MB_HI => .hibuf

/-- `mb_get`. -/
def mbGet (h : Heap) (mbufType : DbType) (useTxPool : Bool) : Heap × Option Block :=
  match h.mAllocHdr with
  | none => (h, none)
  | some (res, h) =>
    match h.alloc (dbufPool mbufType useTxPool) with
    | none => (h.tnNetFreeMin res, none)
    | some (dbuf, h) =>
      let d : Desc :=
        { dbhdr := true, mDbuf := some dbuf, mPri := some res, mDbtype := mbufType, mRefcnt := 1 }
      (h.set res d, some res)

/-- The primary descriptor of a descriptor. -/
def pri (h : Heap) (mb : Block) : Option Block :=
  if (h.mb mb).dbhdr then some mb else (h.mb mb).mPri

/-- The release of a primary descriptor in `m_free`. -/
def releasePrimary (h : Heap) (p : Block) : Heap :=
  let h := match (h.mb p).noalloc, (h.mb p).mDbuf with
    | false, some dbuf => h.tnNetFreePool (h.mb p).mDbtype dbuf
    | _, _ => h
  h.tnNetFreeMin p

/-- `m_free`. -/
def mFree (h : Heap) (mb : Block) : Heap :=
  match h.pri mb with
  | none => h
  | some p =>
    let n := (h.mb p).mRefcnt
    let h := if n ≠ 0 then h.set p { h.mb p with mRefcnt := n - 1 } else h
    let h := if n = 1 then h.releasePrimary p else h
    if (h.mb mb).dbhdr = false ∧ p ≠ mb then h.tnNetFreeMin mb else h

/-- `m_freem`. -/
def mFreem (h : Heap) (chain : List Block) : Heap := chain.foldl mFree h

/-- The parameter `wait`.  With `MB_WAIT` the task waits for a block when there is none; `given` are the
    blocks of `lobuf_mpool` that the others release then, in the order in which the task is given them. -/
inductive Wait where
  | MB_NOWAIT
  | MB_WAIT (given : List Block)
  deriving DecidableEq

def Wait.given : Wait → List Block
  | .MB_NOWAIT => []
  | .MB_WAIT given => given

/-- What `m_alloc_hdr` comes to: `NULL`, a task that waits, or a block and what others have to give
    behind it. -/
inductive Hdr where
  | null
  | waits
  | block (b : Block) (h : Heap) (wait : Wait)

/-- `m_alloc_hdr` with its parameter `wait`. -/
def waitHdr (h : Heap) (wait : Wait) : Hdr :=
  match h.mAllocHdr with
  | some (b, h) => .block b h wait
  | none =>
    match wait with
    | .MB_NOWAIT => .null
    | .MB_WAIT [] => .waits
    | .MB_WAIT (b :: given) => .block b (h.set b {}) (.MB_WAIT given)

/-- What `m_copym` returns: `NULL`, a chain, or nothing since it writes through `NULL` or still waits. -/
inductive Copy where
  | null
  | chain (copies : List Block)
  | wild
  | waits
  deriving DecidableEq

def incRef (h : Heap) (p : Block) : Heap :=
  h.set p { h.mb p with mRefcnt := (h.mb p).mRefcnt + 1 }

/-- The descriptor of a copy. -/
def copyDesc (h : Heap) (mb p : Block) (first : Bool) (offset len : Int) : Desc where
  noalloc := true
  pkthdr := (h.mb mb).pkthdr
  mPri := some p
  mTlen := if first then BitVec.ofInt 20 len else 0
  mData := (h.mb mb).mData + offset.toNat
  mLen := (min len ((h.mb mb).mLen - offset)).toNat

/-- The loop of `m_copym` over the descriptors still to be copied; `offset` is 0 behind the first one,
    `total` is what has been copied. -/
def copyLoop (orgLen : Int) : List Block → Int → Int → Int → List Block → Wait →
    Heap → Heap × Copy
  | [], _, _, _, copies, _, h => (h.mFreem copies, .null)
  | mb :: rest, offset, len, total, copies, wait, h =>
    match h.waitHdr wait with
    | .null =>
      if copies ≠ [] then (h.mFreem copies, .null)
      else
        match h.pri mb with
        | none => (h, .wild)
        | some p => (h.incRef p, .wild)
    | .waits => (h, .waits)
    | .block t h wait =>
      match h.pri mb with
      | none => (h, .wild)
      | some p =>
        let d := h.copyDesc mb p copies.isEmpty offset len
        let h := (h.incRef p).set t d
        if len - d.mLen ≤ 0 then
          if total + d.mLen ≠ orgLen then (h.mFreem (copies ++ [t]), .null)
          else (h, .chain (copies ++ [t]))
        else copyLoop orgLen rest 0 (len - d.mLen) (total + d.mLen) (copies ++ [t]) wait h

/-- Skip the descriptors in front of the offset. -/
def skip (h : Heap) : List Block → Int → List Block × Int
  | [], offset => ([], offset)
  | mb :: rest, offset =>
    if ((h.mb mb).mLen : Int) ≤ offset then skip h rest (offset - (h.mb mb).mLen)
    else (mb :: rest, offset)

/-- `m_copym`. -/
def mCopym (h : Heap) (chain : List Block) (offset len : Int) (wait : Wait) : Heap × Copy :=
  if offset < 0 ∨ len ≤ 0 then (h, .null)
  else
    match h.skip chain offset with
    | ([], _) => (h, .null)
    | (mb :: rest, offset) => copyLoop len (mb :: rest) offset len 0 [] wait h

/-! ## `m_adj` -/

/-- `m_len` and `m_data` of a descriptor. -/
def trim (h : Heap) (b : Block) (len data : Nat) : Heap :=
  h.set b { h.mb b with mLen := len, mData := data }

/-- `m_tlen` of the first descriptor, when it has `M_PKTHDR`. -/
def adjTlen (h : Heap) (mp : Block) (f : BitVec 20 → BitVec 20) : Heap :=
  if (h.mb mp).pkthdr then h.set mp { h.mb mp with mTlen := f (h.mb mp).mTlen } else h

/-- The loop from the head: the length still to be trimmed. -/
def adjHead : List Block → Nat → Heap → Heap × Nat
  | [], len, h => (h, len)
  | m :: l, len, h =>
    if len = 0 then (h, 0)
    else if (h.mb m).mLen ≤ len then adjHead l (len - (h.mb m).mLen) (h.trim m 0 (h.mb m).mData)
    else (h.trim m ((h.mb m).mLen - len) ((h.mb m).mData + len), 0)

/-- The loop that keeps the first `count` bytes. -/
def adjKeep : List Block → Nat → Heap → Heap
  | [], _, h => h
  | m :: l, count, h =>
    if count ≤ (h.mb m).mLen then
      l.foldl (fun h b => h.trim b 0 (h.mb b).mData) (h.trim m count (h.mb m).mData)
    else adjKeep l (count - (h.mb m).mLen) h

/-- The sum of the `m_len`. -/
def chainLen (h : Heap) (chain : List Block) : Nat := (chain.map fun b => (h.mb b).mLen).sum

/-- `m_adj`. -/
def mAdj (h : Heap) (chain : List Block) (reqLen : Int) : Heap :=
  match chain with
  | [] => h
  | mp :: l =>
    if 0 ≤ reqLen then
      let r := adjHead (mp :: l) reqLen.toNat h
      r.1.adjTlen mp fun t => t - BitVec.ofNat 20 (reqLen.toNat - r.2)
    else
      let len := (-reqLen).toNat
      let last := (mp :: l).getLast (List.cons_ne_nil mp l)
      if len ≤ (h.mb last).mLen then
        (h.trim last ((h.mb last).mLen - len) (h.mb last).mData).adjTlen mp
          fun t => t - BitVec.ofNat 20 len
      else
        let count := h.chainLen (mp :: l) - len
        adjKeep (mp :: l) count (h.adjTlen mp fun _ => BitVec.ofNat 20 count)

end Heap

/-! ## The owners -/

/-- A call on descriptors their owner holds; `copym` does not wait.  `fill` is what the owner writes
    into a descriptor when it puts data into the buffer, `setPkthdr` the assignment
    `m_flags = M_PKTHDR`. -/
inductive HeapEvent where
  | get (mbufType : DbType) (useTxPool : Bool)
  | copym (chain : List Block) (offset len : Int)
  | adj (chain : List Block) (reqLen : Int)
  | free (mb : Block)
  | freem (chain : List Block)
  | fill (mb : Block) (mLen mData : Nat) (mTlen : BitVec 20)
  | setPkthdr (mb : Block)

/-- The heap, and the descriptors that were obtained and not yet freed. -/
structure Owners where
  heap : Heap
  own : Finset Block

/-- A call. -/
def Owners.step (s : Owners) : HeapEvent → Owners
  | .get mbufType useTxPool =>
    let r := s.heap.mbGet mbufType useTxPool
    ⟨r.1, r.2.toFinset ∪ s.own⟩
  | .copym chain offset len =>
    let r := s.heap.mCopym chain offset len .MB_NOWAIT
    ⟨r.1, match r.2 with
      | .chain copies => copies.toFinset ∪ s.own
      | _ => s.own⟩
  | .adj chain reqLen => ⟨s.heap.mAdj chain reqLen, s.own⟩
  | .free mb => ⟨s.heap.mFree mb, s.own.erase mb⟩
  | .freem chain => ⟨s.heap.mFreem chain, s.own \ chain.toFinset⟩
  | .fill mb mLen mData mTlen =>
    ⟨s.heap.set mb { s.heap.mb mb with mLen, mData, mTlen }, s.own⟩
  | .setPkthdr mb =>
    ⟨s.heap.set mb { s.heap.mb mb with dbhdr := false, noalloc := false, pkthdr := true }, s.own⟩

/-- The machine. -/
def heapMachine : Machine.Step Owners HeapEvent Unit := fun s ev => (some (s.step ev), [])

/-- The pools behind `tn_net_init_mem_pools`. -/
def Owners.start : Owners where
  heap := ⟨fun _ => {}, fun q => (List.range q.numBlocks).map (Block.mk q)⟩
  own := ∅

end TnNet.Mem
