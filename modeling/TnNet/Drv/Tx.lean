import Mathlib.Data.List.Nodup
import Mathlib.Data.List.Perm.Basic
import TnNet.Lib.Ring
import TnNet.Lib.Run

/-!
# Transmission in the driver

`drv_lpc23xx_net_wr`, `drv_lpc23xx_net_tx_data` and the transmitting part of `drv_lpc23xx_net_int`.  A
call is cut between its kernel calls: `calls` are the calls in progress, each with what it does next.  The
interrupt is one step.  An event brings what the step reads from the registers of the MAC.

* `chain_lost` — two calls that both find the transmitter stopped: the chain of one of them is in no
  place any more.
* `tx_ok` — every chain is in one place, and the queue is empty when the transmitter is stopped, in every
  run in which a call finds the transmitter stopped only when no other one has, transmit interrupts
  arrive only while it is not stopped, and the ring has room for what the interrupt sends.
-/

set_option autoImplicit false

namespace TnNet.Drv

def MAC_NUM_TX_DESCR : Nat := 24

def IFACE1_TX_QUEUE_SIZE : Nat := 16

/-- An mbuf chain that was passed to the driver, and the number of its mbufs. -/
structure TxChain where
  id : Nat
  num : Nat
  deriving DecidableEq

/-- What a call of `drv_lpc23xx_net_wr` does next. -/
inductive Pc where
  /-- The test of `IOCTL_ETH_IS_LINK_UP`. -/
  | link (mb : TxChain)
  /-- `tn_queue_send_polling`. -/
  | send (mb : TxChain)
  /-- `m_freem` of a chain that is not sent. -/
  | drop (mb : TxChain)
  /-- The test of `IOCTL_ETH_IS_TX_DISABLED`. -/
  | test
  /-- `tn_queue_receive_polling`. -/
  | receive
  /-- `drv_lpc23xx_net_tx_data`. -/
  | txData (mb : TxChain)
  /-- The end of `drv_lpc23xx_net_tx_data` when the ring is full. -/
  | stop
  deriving DecidableEq

structure Tx where
  linkUp : Bool := false
  /-- `queueIfaceTx`. -/
  queue : List TxChain := []
  /-- `mbuf_to_tx`. -/
  mbufToTx : Option TxChain := none
  txIntEn : Bool := false
  calls : List Pc := []
  freed : List TxChain := []
  /-- The chains that were passed to the driver. -/
  passed : List TxChain := []

namespace Tx

/-- The loop that fills the descriptors: the next produce index, or none when the ring is full. -/
def fillDescr (tail : Nat) : Nat → Nat → Option Nat
  | 0, head => some head
  | n + 1, head =>
    if (tail = 0 ∧ head = MAC_NUM_TX_DESCR - 1) ∨ head + 1 = tail then none
    else fillDescr tail n (if MAC_NUM_TX_DESCR ≤ head + 1 then 0 else head + 1)

/-- `drv_lpc23xx_net_tx_data` of an interrupt. -/
def txDataInt (s : Tx) (mb : TxChain) (head tail : Nat) : Tx :=
  match fillDescr tail mb.num head with
  | none => { s with freed := s.freed ++ [mb], mbufToTx := none, txIntEn := false }
  | some _ => { s with mbufToTx := some mb, txIntEn := true }

/-- The next step of a call; `rest` are the other calls. -/
def callStep (s : Tx) (pc : Pc) (rest : List Pc) (head tail : Nat) : Tx :=
  match pc with
  | .link mb => { s with calls := (if s.linkUp then .send mb else .drop mb) :: rest }
  | .send mb =>
    if s.queue.length < RingBuf.capacity IFACE1_TX_QUEUE_SIZE then
      { s with queue := s.queue ++ [mb], calls := .test :: rest }
    else { s with calls := .drop mb :: rest }
  | .drop mb => { s with freed := s.freed ++ [mb], calls := rest }
  | .test => { s with calls := if s.txIntEn then rest else .receive :: rest }
  | .receive =>
    match s.queue with
    | [] => { s with calls := rest }
    | mb :: q => { s with queue := q, calls := .txData mb :: rest }
  | .txData mb =>
    match fillDescr tail mb.num head with
    | none => { s with freed := s.freed ++ [mb], calls := .stop :: rest }
    | some _ => { s with mbufToTx := some mb, txIntEn := true, calls := rest }
  | .stop => { s with mbufToTx := none, txIntEn := false, calls := rest }

/-- The chain the interrupt sends next; `late` is the late collision bit of the last descriptor. -/
def toSend (s : Tx) (late : Bool) : Option TxChain := if late then s.mbufToTx else s.queue.head?

/-- The transmitting part of `drv_lpc23xx_net_int`. -/
def txInt (s : Tx) (late : Bool) (head tail : Nat) : Tx :=
  if late then
    match s.mbufToTx with
    | some mb => s.txDataInt mb head tail
    | none => { s with txIntEn := false }
  else
    let s := { s with freed := s.freed ++ s.mbufToTx.toList, mbufToTx := none }
    match s.queue with
    | [] => { s with txIntEn := false }
    | mb :: q => { s with queue := q }.txDataInt mb head tail

end Tx

/-- What happens: the link goes up or down, a task calls `drv_lpc23xx_net_wr`, a call goes on, and the
    MAC raises an interrupt for a finished transmission or an error. -/
inductive TxEvent where
  | link (up : Bool)
  | wr (mb : TxChain)
  | call (i head tail : Nat)
  | int (late : Bool) (head tail : Nat)

def Tx.step (s : Tx) : TxEvent → Tx
  | .link up => { s with linkUp := up }
  | .wr mb => { s with calls := .link mb :: s.calls, passed := mb :: s.passed }
  | .call i head tail =>
    match s.calls[i]? with
    | none => s
    | some pc => s.callStep pc (s.calls.eraseIdx i) head tail
  | .int late head tail => s.txInt late head tail

def txMachine : Machine.Step Tx TxEvent Unit := fun s ev => (some (s.step ev), [])

/-- A chain is passed to the driver once. -/
def TxFresh (s : Tx) : TxEvent → Prop
  | .wr mb => mb ∉ s.passed
  | _ => True

/-- The chain a call has in its hands. -/
def Pc.hand : Pc → List TxChain
  | .link mb => [mb]
  | .send mb => [mb]
  | .drop mb => [mb]
  | .txData mb => [mb]
  | _ => []

/-- The chains in the hands of the calls in progress, in the queue, in the slot, and freed. -/
def Tx.places (s : Tx) : List TxChain :=
  s.calls.flatMap Pc.hand ++ s.queue ++ s.mbufToTx.toList ++ s.freed

/-- Every chain is in one place, once, and none is left behind. -/
structure TxOk (s : Tx) : Prop where
  once : ∀ mb ∈ s.passed, s.places.count mb = 1
  known : ∀ mb ∈ s.places, mb ∈ s.passed
  drained : s.calls = [] → s.txIntEn = false → s.queue = []

/-! ## A chain that is lost -/

instance (s : Tx) : ∀ ev, Decidable (TxFresh s ev)
  | .wr mb => inferInstanceAs (Decidable (mb ∉ s.passed))
  | .link _ => .isTrue trivial
  | .call _ _ _ => .isTrue trivial
  | .int _ _ _ => .isTrue trivial

/-- Both calls find the transmitter stopped. -/
def lostRun : List TxEvent :=
  [.link true, .wr ⟨0, 1⟩, .call 0 0 0, .call 0 0 0, .call 0 0 0, .wr ⟨1, 1⟩, .call 0 0 0, .call 0 0 0,
    .call 0 0 0, .call 0 0 0, .call 0 0 0, .call 0 1 0, .call 0 1 0]

theorem chain_lost : ¬ ∀ (es : List TxEvent) (s : Tx), Machine.Guarded txMachine TxFresh (some {}) es →
    (Machine.run txMachine (some {}) es).1 = some s → TxOk s := by
  intro hall
  have hok := hall lostRun _ (by decide) rfl
  have h1 := hok.once ⟨0, 1⟩
  revert h1
  decide

/-! ## The invariant -/

/-- The call has found the transmitter stopped. -/
def Pc.found : Pc → Bool
  | .receive => true
  | .txData _ => true
  | .stop => true
  | _ => false

/-- The call has put its chain into the queue, and will take one out if the transmitter is stopped. -/
def Pc.pending : Pc → Bool
  | .test => true
  | .receive => true
  | _ => false

/-- The condition on the steps. -/
def TxCond (s : Tx) : TxEvent → Prop
  | .call i _ _ => s.calls[i]? = some .test → s.txIntEn = false → ∀ pc ∈ s.calls, pc.found = false
  | .int late head tail =>
    s.txIntEn = true ∧ ∀ mb ∈ s.toSend late, (Tx.fillDescr tail mb.num head).isSome
  | _ => True

structure TxInv (s : Tx) : Prop where
  count : ∀ mb, s.places.count mb = s.passed.count mb
  nodup : s.passed.Nodup
  alone : s.calls.countP Pc.found ≤ 1
  found : 0 < s.calls.countP Pc.found → s.txIntEn = false
  slot : s.mbufToTx.isSome = s.txIntEn
  bound : s.txIntEn = false → s.queue.length ≤ s.calls.countP Pc.pending

variable {s : Tx} {pc : Pc} {rest : List Pc} {mb : TxChain} {head tail i : Nat}

theorem count_places (s : Tx) (mb : TxChain) : s.places.count mb =
    (s.calls.flatMap Pc.hand).count mb + s.queue.count mb + s.mbufToTx.toList.count mb +
    s.freed.count mb := by
  simp only [Tx.places, List.count_append]

theorem TxInv.calls (hi : TxInv s) {calls : List Pc} (hp : calls.Perm s.calls) :
    TxInv { s with calls } := by
  obtain ⟨h1, h2, h3, h4, h5, h6⟩ := hi
  constructor
  case count =>
    intro mb
    rw [← h1, count_places, count_places, (hp.flatMap_right _).count_eq]
  case nodup => exact h2
  case alone =>
    rw [hp.countP_eq]
    exact h3
  case found =>
    rw [hp.countP_eq]
    exact h4
  case slot => exact h5
  case bound =>
    rw [hp.countP_eq]
    exact h6

theorem TxInv.slot_none (hi : TxInv s) (hs : s.txIntEn = false) : s.mbufToTx = none := by
  have h := hi.slot
  rw [hs] at h
  exact Option.not_isSome_iff_eq_none.mp (by rw [h]; simp)

theorem found_none (h : ∀ pc ∈ rest, pc.found = false) : rest.countP Pc.found = 0 := by
  rw [List.countP_eq_zero]
  intro pc hpc
  rw [h pc hpc]
  simp

/-- A call goes on. -/
theorem callStep_inv (hi : TxInv { s with calls := pc :: rest })
    (htest : pc = .test → s.txIntEn = false → ∀ pc ∈ rest, pc.found = false) :
    TxInv (s.callStep pc rest head tail) := by
  have hnone := hi.slot_none
  obtain ⟨hcount, hnd, halone, hfound, hslot, hbound⟩ := hi
  simp only [count_places, List.flatMap_cons, List.count_append] at hcount
  simp only [List.countP_cons] at halone hfound hbound
  cases pc with
  | link mb =>
    have hgo : ∀ pc' : Pc, pc'.hand = [mb] → pc'.found = false → pc'.pending = false →
        TxInv { s with calls := pc' :: rest } := by
      intro pc' h1 h2 h3
      refine ⟨fun c => ?_, hnd, ?_, ?_, hslot, ?_⟩
      · simp only [count_places, List.flatMap_cons, List.count_append, h1]
        exact hcount c
      · simp only [List.countP_cons, h2]
        exact halone
      · simp only [List.countP_cons, h2]
        exact hfound
      · simp only [List.countP_cons, h3]
        exact hbound
    exact hgo (if s.linkUp then .send mb else .drop mb) (by split <;> rfl) (by split <;> rfl)
      (by split <;> rfl)
  | send mb =>
    simp only [Pc.hand, Pc.pending, Pc.found, Bool.false_eq_true, if_false] at hcount halone hfound hbound
    simp only [Tx.callStep]
    split
    · refine ⟨fun c => ?_, hnd, halone, hfound, hslot, fun hs => ?_⟩
      · have := hcount c
        simp only [count_places, List.flatMap_cons, Pc.hand, List.nil_append, List.count_append]
        omega
      · have := hbound hs
        simp only [List.length_append, List.length_singleton, List.countP_cons, Pc.pending, if_true]
        omega
    · refine ⟨fun c => ?_, hnd, halone, hfound, hslot, hbound⟩
      simp only [count_places, List.flatMap_cons, Pc.hand, List.count_append]
      exact hcount c
  | drop mb =>
    simp only [Pc.hand, Pc.pending, Pc.found, Bool.false_eq_true, if_false] at hcount halone hfound hbound
    refine ⟨fun c => ?_, hnd, halone, hfound, hslot, hbound⟩
    have := hcount c
    simp only [Tx.callStep, count_places, List.count_append]
    omega
  | test =>
    simp only [Pc.hand, Pc.pending, Pc.found, Bool.false_eq_true, if_false, if_true, List.count_nil,
      Nat.zero_add] at hcount halone hfound hbound
    cases hs : s.txIntEn with
    | true =>
      simp only [Tx.callStep, hs, if_true]
      refine ⟨fun c => ?_, hnd, halone, fun h => ?_, hslot.trans hs, fun h => absurd h (by simp)⟩
      · rw [count_places]
        exact hcount c
      · rw [← hs]
        exact hfound h
    | false =>
      -- the only call that has found the transmitter stopped
      have h0 := found_none (htest rfl hs)
      simp only [Tx.callStep, hs, Bool.false_eq_true, if_false]
      refine ⟨fun c => ?_, hnd, ?_, fun _ => rfl, hslot.trans hs, fun _ => ?_⟩
      · have := hcount c
        simp only [count_places, List.flatMap_cons, Pc.hand, List.nil_append]
        exact this
      · simp only [List.countP_cons, h0, Pc.found, if_true]
        exact Nat.le_refl 1
      · simp only [List.countP_cons, Pc.pending, if_true]
        exact hbound hs
  | receive =>
    simp only [Pc.hand, Pc.pending, Pc.found, if_true, List.count_nil, Nat.zero_add]
      at hcount halone hfound hbound
    have hs : s.txIntEn = false := hfound (by omega)
    simp only [Tx.callStep]
    cases hq : s.queue with
    | nil =>
      rw [hq] at hcount
      refine ⟨fun c => ?_, hnd, by simp only; omega, fun _ => hs, hslot, fun _ => Nat.zero_le _⟩
      rw [count_places]
      exact hcount c
    | cons mb q =>
      rw [hq] at hcount hbound
      dsimp only
      refine ⟨fun c => ?_, hnd, ?_, fun _ => hs, hslot, fun hs => ?_⟩
      · have := hcount c
        simp only [count_places, List.flatMap_cons, Pc.hand, List.count_append, List.count_cons,
          List.count_nil] at this ⊢
        omega
      · simp only [List.countP_cons, Pc.found, if_true]
        exact halone
      · have := hbound hs
        simp only [List.length_cons] at this
        simp only [List.countP_cons, Pc.pending, Bool.false_eq_true, if_false]
        omega
  | txData mb =>
    simp only [Pc.hand, Pc.pending, Pc.found, if_true, Bool.false_eq_true, if_false]
      at hcount halone hfound hbound
    have hs : s.txIntEn = false := hfound (by omega)
    have hn : s.mbufToTx = none := hnone hs
    simp only [Tx.callStep]
    cases Tx.fillDescr tail mb.num head with
    | none =>
      refine ⟨fun c => ?_, hnd, ?_, fun _ => hs, hslot, fun hs => ?_⟩
      · have := hcount c
        simp only [count_places, List.flatMap_cons, Pc.hand, List.nil_append, List.count_append]
        omega
      · simp only [List.countP_cons, Pc.found, if_true]
        exact halone
      · simp only [List.countP_cons, Pc.pending, Bool.false_eq_true, if_false]
        exact hbound hs
    | some head' =>
      refine ⟨fun c => ?_,
        hnd, by simp only; omega, fun h => absurd h (by simp only; omega), rfl, fun h => absurd h (by simp)⟩
      have := hcount c
      rw [hn] at this
      simp only [count_places, Option.toList_some, Option.toList_none, List.count_nil] at this ⊢
      omega
  | stop =>
    simp only [Pc.hand, Pc.pending, Pc.found, if_true, Bool.false_eq_true, if_false, List.count_nil,
      Nat.zero_add] at hcount halone hfound hbound
    have hs : s.txIntEn = false := hfound (by omega)
    have hn : s.mbufToTx = none := hnone hs
    refine ⟨fun c => ?_, hnd, by simp only [Tx.callStep]; omega, fun _ => rfl, rfl, fun _ => hbound hs⟩
    have := hcount c
    rw [hn] at this
    exact (count_places _ _).trans this

/-- The interrupt, while a transmission is under way and there is room for the next one. -/
theorem txInt_inv (hi : TxInv s) {late : Bool} (hs : s.txIntEn = true)
    (hroom : ∀ mb ∈ s.toSend late, (Tx.fillDescr tail mb.num head).isSome) :
    TxInv (s.txInt late head tail) := by
  obtain ⟨hcount, hnd, halone, hfound, hslot, -⟩ := hi
  have h0 : s.calls.countP Pc.found = 0 := by
    by_contra hne
    have := hfound (by omega)
    rw [hs] at this
    cases this
  have hsend : ∀ {s' : Tx} {mb : TxChain}, s'.passed = s.passed → s'.calls = s.calls →
      (Tx.fillDescr tail mb.num head).isSome → (∀ c, (s'.calls.flatMap Pc.hand).count c + s'.queue.count c +
        [mb].count c + s'.freed.count c = s.passed.count c) → TxInv (s'.txDataInt mb head tail) := by
    intro s' mb hp hc hf hcount'
    obtain ⟨head', hf⟩ := Option.isSome_iff_exists.mp hf
    unfold Tx.txDataInt
    rw [hf]
    refine ⟨fun c => ?_, by simp only; rw [hp]; exact hnd,
      by simp only; rw [hc]; exact halone, fun h => ?_, rfl, fun h => absurd h (by simp)⟩
    · rw [count_places, hp]
      exact hcount' c
    · simp only [hc] at h
      omega
  unfold Tx.txInt
  unfold Tx.toSend at hroom
  cases late with
  | true =>
    simp only [if_true] at hroom ⊢
    cases hslot' : s.mbufToTx with
    | none =>
      rw [hslot', hs] at hslot
      cases hslot
    | some mb =>
      refine hsend rfl rfl (hroom mb hslot') fun c => ?_
      have := hcount c
      rw [count_places, hslot'] at this
      exact this
  | false =>
    simp only [Bool.false_eq_true, if_false] at hroom ⊢
    cases hq : s.queue with
    | nil =>
      refine ⟨fun c => ?_, hnd, halone, fun _ => rfl, rfl, fun _ => Nat.zero_le _⟩
      have := hcount c
      simp only [count_places, hq, List.count_append, Option.toList_none, List.count_nil] at this ⊢
      omega
    | cons mb q =>
      refine hsend rfl rfl (hroom mb (by rw [hq]; rfl)) fun c => ?_
      have := hcount c
      simp only [count_places, hq, List.count_append, List.count_cons, List.count_nil] at this ⊢
      omega

theorem tx_step {ev : TxEvent} (hi : TxInv s) (hf : TxFresh s ev) (hc : TxCond s ev) :
    TxInv (s.step ev) := by
  cases ev with
  | link up => exact ⟨hi.count, hi.nodup, hi.alone, hi.found, hi.slot, hi.bound⟩
  | wr mb =>
    refine ⟨fun c => ?_, List.nodup_cons.mpr ⟨hf, hi.nodup⟩, ?_, ?_, hi.slot, ?_⟩
    · have := hi.count c
      simp only [Tx.step, count_places, List.flatMap_cons, Pc.hand, List.count_append, List.count_cons,
        List.count_nil] at this ⊢
      omega
    · simpa [Tx.step, List.countP_cons, Pc.found] using hi.alone
    · simpa [Tx.step, List.countP_cons, Pc.found] using hi.found
    · simpa [Tx.step, List.countP_cons, Pc.pending] using hi.bound
  | call i head tail =>
    unfold Tx.step
    cases hpc : s.calls[i]? with
    | none =>
      simp only [hpc]
      exact hi
    | some pc =>
      simp only [hpc]
      obtain ⟨hlt, hget⟩ := List.getElem?_eq_some_iff.mp hpc
      have hperm := List.getElem_cons_eraseIdx_perm hlt
      rw [hget] at hperm
      refine callStep_inv (hi.calls hperm) fun hp hs pc' hpc' => ?_
      exact hc (by rw [hpc, hp]) hs pc' (hperm.subset (List.mem_cons_of_mem pc hpc'))
  | int late head tail => exact txInt_inv hi hc.1 hc.2

theorem inv_txStart : TxInv {} := by
  constructor <;> simp [Tx.places]

theorem txOk_of_inv (hi : TxInv s) : TxOk s := by
  constructor
  · intro mb hmb
    rw [hi.count, List.count_eq_one_of_mem hi.nodup hmb]
  · intro mb hmb
    rw [← List.count_pos_iff, ← hi.count, List.count_pos_iff]
    exact hmb
  · intro hcalls hs
    have := hi.bound hs
    rw [hcalls, List.countP_nil] at this
    exact List.eq_nil_of_length_eq_zero (by omega)

/-- **Every chain is in one place**, and none is left in the queue of a stopped transmitter. -/
theorem tx_ok (es : List TxEvent) (s : Tx)
    (hg : Machine.Guarded txMachine (fun s ev => TxFresh s ev ∧ TxCond s ev) (some {}) es)
    (hs : (Machine.run txMachine (some {}) es).1 = some s) : TxOk s := by
  refine txOk_of_inv ((Machine.run_invariant TxInv (fun _ => True) ?_ ?_ hg).1 s hs)
  · intro s ev hi hc
    refine ⟨?_, fun _ _ => trivial⟩
    intro s' hs'
    cases hs'
    exact tx_step hi hc.1 hc.2
  · intro s' hs'
    cases hs'
    exact inv_txStart

instance (s : Tx) : ∀ ev, Decidable (TxCond s ev)
  | .call i _ _ => inferInstanceAs (Decidable (s.calls[i]? = some .test → s.txIntEn = false →
      ∀ pc ∈ s.calls, pc.found = false))
  | .int late head tail => inferInstanceAs (Decidable (s.txIntEn = true ∧
      ∀ mb ∈ s.toSend late, (Tx.fillDescr tail mb.num head).isSome))
  | .link _ => .isTrue trivial
  | .wr _ => .isTrue trivial

/-- A chain is sent, another one waits, and is sent by the interrupt with a late collision. -/
def sentRun : List TxEvent :=
  [.link true, .wr ⟨0, 2⟩, .call 0 0 0, .wr ⟨1, 1⟩, .call 1 0 0, .call 0 0 0, .call 0 0 0, .call 0 0 0,
    .call 0 0 0, .call 0 0 0, .call 0 0 0, .int false 2 2, .int true 3 3, .int false 4 4]

theorem tx_ok_sent : TxOk (sentRun.foldl Tx.step {}) ∧
    (sentRun.foldl Tx.step {}).freed = [⟨0, 2⟩, ⟨1, 1⟩] :=
  ⟨tx_ok sentRun _ (by decide) rfl, by decide⟩

end TnNet.Drv
