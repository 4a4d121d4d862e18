import TnNet.Lib.Bytes
import TnNet.Lib.Ring
import TnNet.Mem.Bytes

/-!
# Reception in the driver

`drv_lpc23xx_net_rx_data` and the receiving part of `drv_lpc23xx_net_int` over the heap of descriptors.
The hardware writes a frame into the large block that a receive descriptor points to, and its length and
errors into `StatusInfo`.  A short frame is copied into a block of medium size; for a long one, or when
there is no such block, the block of the descriptor goes up and a new one takes its place.

`busy` are the blocks that are in use otherwise than by mbufs of `own` and by the receive descriptors.
-/

set_option autoImplicit false

namespace TnNet.Drv

open TnNet.Mem

def MAC_NUM_RX_DESCR : Nat := 3

def IFACE1_RX_QUEUE_SIZE : Nat := 16

def ETHERTYPE_ARP : Nat := 0x0806

/-- The driver and the pools. -/
structure Rx where
  heap : Heap
  own : Finset Block
  busy : Finset Block
  mem : Bufs
  /-- `rx_descr[ind].Packet`. -/
  packet : Nat → Block
  /-- `rMAC_RXCONSUMEINDEX`. -/
  consume : Nat
  /-- `queueIfaceRx`. -/
  queue : List Block
  /-- The task waits in `tn_queue_receive`. -/
  waiting : Bool
  /-- The first item of `queue` was given to the task when it waited, and is in no cell. -/
  handed : Bool

/-- What `drv_lpc23xx_net_rx_data` returns. -/
inductive RxRes where
  | rxErr
  | outOfMem
  | ok (mb : Block)

/-- CRC error, symbol error, alignment error, overrun. -/
def rxError (status : Nat) : Prop :=
  status.testBit 23 ∨ status.testBit 24 ∨ status.testBit 27 ∨ status.testBit 28

instance (status : Nat) : Decidable (rxError status) := by unfold rxError; infer_instance

def rxLen (status : Nat) : Nat := status % 2048 + 1

namespace Rx

/-- The bytes of the frame in the buffer of a receive descriptor. -/
def frame (s : Rx) (ind len : Nat) : List UInt8 := Heap.bufBytes s.mem (some (s.packet ind)) 0 len

/-- `ntohs(eh->ether_type)`. -/
def etherType (s : Rx) (ind : Nat) : Nat := Bytes.be16 (s.frame ind 14) 12

/-- `m_len`, `m_tlen` and `M_PKTHDR` of a received frame. -/
def setLen (h : Heap) (mb : Block) (len : Nat) : Heap :=
  h.set mb { h.mb mb with pkthdr := true, mLen := len, mTlen := BitVec.ofNat 20 len }

/-- A frame that is copied. -/
def rxCopy (s : Rx) (ind len : Nat) : Rx × Option Block :=
  match s.heap.mbGet .MB_MID1 (decide (s.etherType ind = ETHERTYPE_ARP)) with
  | (h, none) => ({ s with heap := h }, none)
  | (h, some mb) =>
    ({ s with
        heap := setLen h mb len
        own := insert mb s.own
        mem := writeBuf s.mem (h.dbuf mb) (h.mb mb).mData (s.frame ind len) }, some mb)

/-- The buffer of the descriptor is exchanged. -/
def rxExchange (s : Rx) (ind len : Nat) : Rx × RxRes :=
  match s.heap.alloc .hibuf with
  | none => (s, .outOfMem)
  | some (newBuf, h) =>
    match h.mAllocHdr with
    | none => ({ s with heap := h.put .hibuf newBuf }, .outOfMem)
    | some (mb, h) =>
      let h := h.set mb
        { dbhdr := true, mDbuf := some (s.packet ind), mPri := some mb, mDbtype := .MB_HI, mRefcnt := 1 }
      ({ s with
          heap := setLen h mb len
          own := insert mb s.own
          packet := Function.update s.packet ind newBuf }, .ok mb)

/-- `drv_lpc23xx_net_rx_data`. -/
def rxData (s : Rx) (ind status : Nat) : Rx × RxRes :=
  if rxError status then (s, .rxErr)
  else if rxLen status ≤ 128 then
    match s.rxCopy ind (rxLen status) with
    | (s, some mb) => (s, .ok mb)
    | (s, none) => s.rxExchange ind (rxLen status)
  else s.rxExchange ind (rxLen status)

/-- A frame that is passed up: the state then, the length and the bytes of the frame. -/
structure Passed where
  s : Rx
  mb : Block
  len : Nat
  frame : List UInt8

/-- The number of items `queue` has room for. -/
def room (s : Rx) : Nat :=
  if s.waiting || s.handed then RingBuf.capacity IFACE1_RX_QUEUE_SIZE + 1
  else RingBuf.capacity IFACE1_RX_QUEUE_SIZE

/-- `tn_queue_isend_polling`, when there is room. -/
def send (s : Rx) (mb : Block) : Rx :=
  { s with queue := s.queue ++ [mb], waiting := false, handed := s.waiting || s.handed }

/-- `tn_queue_receive` is called, or returns. -/
def receive (s : Rx) : Rx :=
  match s.queue with
  | [] => { s with waiting := true }
  | _ :: queue => { s with queue, handed := false }

/-- One turn of the loop: whether the loop goes on. -/
def turn (s : Rx) (ind status : Nat) : Rx × Bool × List Passed :=
  match s.rxData ind status with
  | (s', .rxErr) => (s', true, [])
  | (s', .outOfMem) => (s', false, [])
  | (s', .ok mb) =>
    if s'.queue.length < s'.room then
      (s'.send mb, true, [⟨s', mb, rxLen status, s.frame ind (rxLen status)⟩])
    else ({ s' with heap := s'.heap.mFreem [mb], own := s'.own.erase mb }, true, [])

/-- `tail_cnt++`, with the overflow. -/
def next (tail : Nat) : Nat := if MAC_NUM_RX_DESCR ≤ tail + 1 then 0 else tail + 1

/-- The loop of the interrupt; the number bounds the turns. -/
def intLoop (head : Nat) (status : Nat → Nat) : Nat → Rx → Rx × List Passed
  | 0, s => (s, [])
  | n + 1, s =>
    if s.consume = head then (s, [])
    else
      match s.turn s.consume (status s.consume) with
      | (s', false, out) => ({ s' with consume := head }, out)
      | (s', true, out) =>
        let r := intLoop head status n { s' with consume := next s.consume }
        (r.1, out ++ r.2)

/-- The receiving part of `drv_lpc23xx_net_int`; `head` is `rMAC_RXPRODUCEINDEX`. -/
def rxInt (s : Rx) (head : Nat) (status : Nat → Nat) : Rx × List Passed :=
  intLoop head status MAC_NUM_RX_DESCR s

theorem next_eq {tail : Nat} (ht : tail < MAC_NUM_RX_DESCR) :
    next tail = (tail + 1) % MAC_NUM_RX_DESCR := by
  unfold next MAC_NUM_RX_DESCR at *
  by_cases h : 3 ≤ tail + 1
  · rw [if_pos h]
    omega
  · rw [if_neg h]
    omega

/-- The loop is over when the descriptors are. -/
theorem intLoop_consume {head : Nat} (hh : head < MAC_NUM_RX_DESCR) (status : Nat → Nat) (n : Nat) (s : Rx)
    (hs : s.consume < MAC_NUM_RX_DESCR)
    (hn : (head + MAC_NUM_RX_DESCR - s.consume) % MAC_NUM_RX_DESCR ≤ n) :
    (intLoop head status n s).1.consume = head := by
  induction n generalizing s with
  | zero =>
    show s.consume = head
    unfold MAC_NUM_RX_DESCR at *
    omega
  | succ n ih =>
    unfold intLoop
    split
    · assumption
    · rename_i hne
      split
      · rfl
      · have hnext := next_eq hs
        unfold MAC_NUM_RX_DESCR at *
        refine ih _ ?_ ?_
        · show next s.consume < 3
          omega
        · show (head + 3 - next s.consume) % 3 ≤ n
          omega

end Rx

/-! ## Runs -/

/-- What happens.  `call` is a call of a task on its mbufs, `write` what it writes into a buffer, `take`
    and `give` are the other uses of the pools. -/
inductive RxEvent where
  | dma (ind : Nat) (data : List UInt8)
  | rx (head : Nat) (status : Nat → Nat)
  | receive
  | call (ev : HeapEvent)
  | write (mb : Block) (pos : Nat) (data : List UInt8)
  | take (q : Pool)
  | give (b : Block)

def Rx.step (s : Rx) : RxEvent → Rx × List Rx.Passed
  | .dma ind data => ({ s with mem := writeBuf s.mem (some (s.packet ind)) 0 data }, [])
  | .rx head status => s.rxInt head status
  | .receive => (s.receive, [])
  | .call ev =>
    let o := (Owners.mk s.heap s.own).step ev
    ({ s with heap := o.heap, own := o.own }, [])
  | .write mb pos data => ({ s with mem := writeBuf s.mem (s.heap.dbuf mb) pos data }, [])
  | .take q =>
    match s.heap.alloc q with
    | none => (s, [])
    | some (b, h) => ({ s with heap := h, busy := insert b s.busy }, [])
  | .give b => ({ s with heap := s.heap.put b.pool b, busy := s.busy.erase b }, [])

def rxMachine : Machine.Step Rx RxEvent Rx.Passed := fun s ev => (some (s.step ev).1, (s.step ev).2)

/-- The tasks use what is theirs, and `m_copym` finds a header. -/
def RxUses (s : Rx) : RxEvent → Prop
  | .dma ind _ => ind < MAC_NUM_RX_DESCR
  | .rx head _ => head < MAC_NUM_RX_DESCR
  | .receive => True
  | .call ev => Uses ⟨s.heap, s.own \ s.queue.toFinset⟩ ev ∧ CopyRoom ⟨s.heap, s.own⟩ ev
  | .write mb _ _ => mb ∈ s.own ∧ mb ∉ s.queue
  | .take _ => True
  | .give b => b ∈ s.busy

/-- Behind `mac_rx_descr_init`. -/
def Rx.start : Rx where
  heap := ⟨fun _ => {}, Function.update Owners.start.heap.free .hibuf
    ((Owners.start.heap.free .hibuf).drop MAC_NUM_RX_DESCR)⟩
  own := ∅
  busy := ∅
  mem := fun _ _ => 0
  packet := Block.mk .hibuf
  consume := 0
  queue := []
  waiting := false
  handed := false

end TnNet.Drv
