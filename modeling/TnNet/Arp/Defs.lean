import Mathlib.Data.List.Basic
import TnNet.Lib.Run

/-!
# The ARP table

`arp_lookup`, `arp_input`, `arp_resolve` and `arp_timer_func` of `tn_arp.c`, on the table of one
interface.  What each of them does between `ARP_LOCK` and `ARP_UNLOCK` is one step.  A chain of mbufs is
known by a number.  The readings of `tn_time_sec` come with the step: the clock may go on while it runs.

A `la_hold` that was freed by `add_eth_header` stays in its entry: nothing keeps it from being freed or
sent again.  What becomes of the ARP packet itself, and the request that `arp_resolve` makes behind
`ARP_UNLOCK`, are mbufs of their own and not modelled.
-/

set_option autoImplicit false

namespace TnNet.Arp

def ARP_MAX_TRIES : Nat := 5

def ARP_TIME_DOWN : Nat := 20

def ARP_TIME_KEEP : Nat := 20 * 60

/-- A hardware address. -/
abbrev Mac := BitVec 48

def etherbroadcastaddr : Mac := BitVec.allOnes 48

/-- `flags & ARP_STATE_MASK`. -/
inductive ArpState where
  | ARP_FREE
  | ARP_PENDING
  | ARP_SOLVED
  deriving DecidableEq

/-- `TN_ARPENTRY`. -/
structure TnArpentry where
  rtExpire : Nat := 0
  laHold : Option Nat := none
  itaddr : BitVec 32 := 0
  macAddr : Mac := 0
  state : ArpState := .ARP_FREE
  permanent : Bool := false
  laAsked : Nat := 0
  deriving DecidableEq

/-! ## `arp_lookup` -/

/-- The local variables of the loop. -/
structure Scan where
  oldestExpireSolved : Nat := 0xFFFFFFFF
  oldestExpirePending : Nat := 0xFFFFFFFF
  oldestSolvedInd : Option Nat := none
  oldestPendingInd : Option Nat := none
  firstFreeInd : Option Nat := none

/-- An entry with another address. -/
def scanEntry (idx : Nat) (arpe : TnArpentry) (c : Scan) : Scan :=
  match arpe.state with
  | .ARP_FREE => if c.firstFreeInd = none then { c with firstFreeInd := some idx } else c
  | .ARP_SOLVED =>
    if arpe.permanent = false ∧ arpe.rtExpire < c.oldestExpireSolved then
      { c with oldestExpireSolved := arpe.rtExpire, oldestSolvedInd := some idx }
    else c
  | .ARP_PENDING =>
    if arpe.permanent = false ∧ arpe.rtExpire < c.oldestExpirePending then
      { c with oldestExpirePending := arpe.rtExpire, oldestPendingInd := some idx }
    else c

/-- The loop, from the entry `idx` on: the entry with the address, or the local variables. -/
def scan (ipToFind : BitVec 32) (createNewEntry : Bool) : Nat → List TnArpentry → Scan →
    Option Nat × Scan
  | _, [], c => (none, c)
  | idx, arpe :: l, c =>
    if arpe.itaddr = ipToFind then (some idx, c)
    else scan ipToFind createNewEntry (idx + 1) l (if createNewEntry then scanEntry idx arpe c else c)

/-- The entry that is replaced. -/
def Scan.victim (c : Scan) : Option Nat := c.firstFreeInd.or (c.oldestSolvedInd.or c.oldestPendingInd)

/-- A new entry. -/
def newEntry (ipToFind : BitVec 32) (time : Nat) : TnArpentry :=
  { rtExpire := time, itaddr := ipToFind, state := .ARP_PENDING }

/-- `arp_lookup`: the index of the entry, the table, and the chains it has freed. -/
def arpLookup (arr : List TnArpentry) (ipToFind : BitVec 32) (createNewEntry : Bool) (time : Nat) :
    Option (Nat × List TnArpentry × List Nat) :=
  match scan ipToFind createNewEntry 0 arr {} with
  | (some idx, _) => some (idx, arr, [])
  | (none, c) =>
    if createNewEntry then
      match c.victim with
      | some idx => some (idx, arr.set idx (newEntry ipToFind time), (arr.getD idx {}).laHold.toList)
      | none => none
    else none

/-! ## The calls -/

/-- The entry when a request is due, or not. -/
def ask (arpe : TnArpentry) (time3 time4 : Nat) : TnArpentry :=
  if arpe.laAsked = 0 ∨ arpe.rtExpire ≠ time3 then
    if arpe.laAsked < ARP_MAX_TRIES then { arpe with rtExpire := time4, laAsked := arpe.laAsked + 1 }
    else { arpe with rtExpire := (time4 + ARP_TIME_DOWN) % 2 ^ 32, laAsked := 0 }
  else arpe

/-- The loop of `arp_timer_func`: the table, and the chains that were freed. -/
def ageAll (clk : Nat → Nat) : Nat → List TnArpentry → List TnArpentry × List Nat
  | _, [] => ([], [])
  | i, arpe :: l =>
    let r := ageAll clk (i + 1) l
    if arpe.rtExpire ≠ 0 ∧ arpe.rtExpire ≤ clk i then ({} :: r.1, arpe.laHold.toList ++ r.2)
    else (arpe :: r.1, r.2)

/-- The table, and the chains `arp_resolve` has not returned to its caller. -/
structure ArpTable where
  arpArr : List TnArpentry
  now : Nat
  /-- The chains `m_freem` was called on. -/
  freed : List Nat
  /-- The chains `drv_wr` was called with. -/
  handed : List Nat
  /-- The chains with which `arp_resolve` has returned `FALSE`. -/
  taken : List Nat

/-- What can be told from outside: an ARP packet has set an entry, `arp_resolve` has found an address. -/
inductive ArpObs where
  | accepted (ip : BitVec 32) (mac : Mac) (time : Nat)
  | answered (ip : BitVec 32) (mac : Mac) (time : Nat) (permanent : Bool)
  deriving DecidableEq

/-- An ARP packet: `arp_sha`, `arp_spa` and `arp_tpa`, and whether it is too short. -/
structure ArpPkt where
  short : Bool
  sha : Mac
  spa : BitVec 32
  tpa : BitVec 32

/-- A chain that is to be sent. -/
structure ArpMb where
  id : Nat
  bcast : Bool
  mcast : Bool

namespace ArpTable

/-- The chain that waits for the address is sent, or freed when there is no block for its header;
    `la_hold` still points to the first block of a chain that was freed. -/
def sendHold (s : ArpTable) (idx : Nat) (arpe : TnArpentry) (room : Bool) : ArpTable :=
  match arpe.laHold with
  | none => { s with arpArr := s.arpArr.set idx arpe }
  | some mb =>
    if room then
      { s with arpArr := s.arpArr.set idx { arpe with laHold := none }, handed := s.handed ++ [mb] }
    else { s with arpArr := s.arpArr.set idx arpe, freed := s.freed ++ [mb] }

/-- `arp_input`; `room` says that `tn_net_alloc_tx_min` has a block. -/
def arpInput (s : ArpTable) (pkt : ArpPkt) (myaddr : BitVec 32) (room : Bool) (time1 time2 : Nat) :
    ArpTable × List ArpObs :=
  let s := { s with now := time2 }
  if pkt.short ∨ pkt.sha = etherbroadcastaddr ∨ pkt.spa = myaddr then (s, [])
  else
    match arpLookup s.arpArr pkt.spa (decide (pkt.tpa = myaddr)) time1 with
    | none => (s, [])
    | some (idx, arr, fr) =>
      let s := { s with arpArr := arr, freed := s.freed ++ fr }
      let arpe := { arr.getD idx {} with
        macAddr := pkt.sha, state := .ARP_SOLVED, rtExpire :=
          (time2 + ARP_TIME_KEEP) % 2 ^ 32, laAsked := 0 }
      (s.sendHold idx arpe room, [.accepted pkt.spa pkt.sha time2])

/-- `arp_resolve`: a broadcast or multicast packet has its address at once. -/
def arpResolve (s : ArpTable) (mb : ArpMb) (arpIpAddr : BitVec 32) (time1 time2 time3 time4 : Nat) :
    ArpTable × List ArpObs :=
  let s := { s with now := time4 }
  if mb.bcast ∨ mb.mcast then (s, [])
  else
    match arpLookup s.arpArr arpIpAddr true time1 with
    | none => ({ s with freed := s.freed ++ [mb.id], taken := mb.id :: s.taken }, [])
    | some (idx, arr, fr) =>
      let s := { s with arpArr := arr, freed := s.freed ++ fr }
      let arpe := arr.getD idx {}
      if (arpe.permanent = true ∨ time2 < arpe.rtExpire) ∧ arpe.state = .ARP_SOLVED then
        (s, [.answered arpIpAddr arpe.macAddr time2 arpe.permanent])
      else
        ({ s with
            arpArr := arr.set idx (ask { arpe with laHold := some mb.id } time3 time4)
            freed := s.freed ++ arpe.laHold.toList
            taken := mb.id :: s.taken }, [])

/-- `arp_timer_func`; the clock says `clk i` when the entry `i` is looked at. -/
def arpTimerFunc (s : ArpTable) (cnt : Nat) (clk : Nat → Nat) (later : Nat) : ArpTable :=
  if cnt % (10 * 60 * 5) = 0 then
    { s with arpArr := (ageAll clk 0 s.arpArr).1, freed := s.freed ++ (ageAll clk 0 s.arpArr).2,
             now := later }
  else s

end ArpTable

/-! ## Runs -/

inductive ArpEvent where
  /-- `myaddr` is the address of the interface when it is read. -/
  | input (pkt : ArpPkt) (myaddr : BitVec 32) (room : Bool) (time1 time2 : Nat)
  | resolve (mb : ArpMb) (arpIpAddr : BitVec 32) (time1 time2 time3 time4 : Nat)
  | timer (cnt : Nat) (clk : Nat → Nat) (later : Nat)

def ArpTable.step (s : ArpTable) : ArpEvent → ArpTable × List ArpObs
  | .input pkt myaddr room time1 time2 => s.arpInput pkt myaddr room time1 time2
  | .resolve mb arpIpAddr time1 time2 time3 time4 => s.arpResolve mb arpIpAddr time1 time2 time3 time4
  | .timer cnt clk later => (s.arpTimerFunc cnt clk later, [])

def arpMachine : Machine.Step ArpTable ArpEvent ArpObs := fun s ev => (some (s.step ev).1, (s.step ev).2)

/-- Behind `arp_init`. -/
def ArpTable.start (nelem : Nat) : ArpTable := ⟨List.replicate nelem {}, 0, [], [], []⟩

/-- The clock does not go back. -/
def Clock (s : ArpTable) : ArpEvent → Prop
  | .input _ _ _ time1 time2 => s.now ≤ time1 ∧ time1 ≤ time2 ∧ time2 < 2 ^ 32
  | .resolve _ _ time1 time2 time3 time4 =>
    s.now ≤ time1 ∧ time1 ≤ time2 ∧ time2 ≤ time3 ∧ time3 ≤ time4 ∧ time4 < 2 ^ 32
  | .timer _ clk later => (∀ i, s.now ≤ clk i ∧ clk i ≤ later) ∧ later < 2 ^ 32

/-- A chain is passed to `arp_resolve` once. -/
def Passed (s : ArpTable) : ArpEvent → Prop
  | .resolve mb _ _ _ _ _ => mb.id ∉ s.taken
  | _ => True

/-! ## What `arp_lookup` finds -/

variable {arr arr' : List TnArpentry} {ip : BitVec 32} {create : Bool} {time idx n : Nat} {c : Scan}
  {fr : List Nat}

/-- The indexes that were noted are in the table. -/
structure Scan.Below (c : Scan) (n : Nat) : Prop where
  solved : ∀ i ∈ c.oldestSolvedInd, i < n
  pending : ∀ i ∈ c.oldestPendingInd, i < n
  free : ∀ i ∈ c.firstFreeInd, i < n

theorem Scan.Below.mono {m : Nat} (h : c.Below n) (hle : n ≤ m) : c.Below m :=
  ⟨fun i hi => Nat.lt_of_lt_of_le (h.solved i hi) hle, fun i hi => Nat.lt_of_lt_of_le (h.pending i hi) hle,
    fun i hi => Nat.lt_of_lt_of_le (h.free i hi) hle⟩

theorem Scan.Below.victim (h : c.Below n) {i : Nat} (hi : c.victim = some i) : i < n := by
  unfold Scan.victim at hi
  rcases Option.or_eq_some_iff.mp hi with hi | ⟨-, hi⟩
  · exact h.free i hi
  · rcases Option.or_eq_some_iff.mp hi with hi | ⟨-, hi⟩
    · exact h.solved i hi
    · exact h.pending i hi

theorem scanEntry_below (arpe : TnArpentry) (h : c.Below idx) : (scanEntry idx arpe c).Below (idx + 1) := by
  have h1 := h.mono (Nat.le_succ idx)
  have hnew : ∀ i ∈ some idx, i < idx + 1 := by
    intro i hi
    cases hi
    exact Nat.lt_succ_self idx
  unfold scanEntry
  cases arpe.state with
  | ARP_FREE =>
    dsimp only
    split
    · exact ⟨h1.solved, h1.pending, hnew⟩
    · exact h1
  | ARP_SOLVED =>
    dsimp only
    split
    · exact ⟨hnew, h1.pending, h1.free⟩
    · exact h1
  | ARP_PENDING =>
    dsimp only
    split
    · exact ⟨h1.solved, hnew, h1.free⟩
    · exact h1

/-- The first entry with the address, or there is none. -/
theorem scan_spec (h : c.Below idx) :
    match scan ip create idx arr c with
    | (some i, _) =>
      idx ≤ i ∧ ∃ arpe, arr[i - idx]? = some arpe ∧ arr.find? (·.itaddr = ip) = some arpe
    | (none, c') => (∀ arpe ∈ arr, arpe.itaddr ≠ ip) ∧ c'.Below (idx + arr.length) := by
  induction arr generalizing idx c with
  | nil => exact ⟨by simp, h⟩
  | cons arpe l ih =>
    unfold scan
    by_cases hip : arpe.itaddr = ip
    · rw [if_pos hip]
      exact ⟨Nat.le_refl idx, arpe, by simp, by simp [hip]⟩
    · rw [if_neg hip]
      have hb : (if create = true then scanEntry idx arpe c else c).Below (idx + 1) := by
        split
        · exact scanEntry_below arpe h
        · exact h.mono (Nat.le_succ idx)
      have hr := ih hb
      generalize scan ip create (idx + 1) l (if create = true then scanEntry idx arpe c else c) = r at hr ⊢
      obtain ⟨o, c'⟩ := r
      cases o with
      | none =>
        obtain ⟨h1, h2⟩ := hr
        refine ⟨?_, h2.mono (by rw [List.length_cons]; omega)⟩
        intro e he
        rcases List.mem_cons.mp he with rfl | he
        · exact hip
        · exact h1 e he
      | some i =>
        obtain ⟨h1, e, h2, h3⟩ := hr
        refine ⟨by omega, e, ?_, ?_⟩
        · rw [show i - idx = i - (idx + 1) + 1 by omega, List.getElem?_cons_succ]
          exact h2
        · rw [List.find?_cons_of_neg (by simpa using hip)]
          exact h3

/-- What `arp_lookup` returns: an entry with the address, or a new one when there is none. -/
inductive Found (arr : List TnArpentry) (ip : BitVec 32) (time idx : Nat) (arr' : List TnArpentry)
    (fr : List Nat) : Prop where
  | old (arpe : TnArpentry) (get : arr[idx]? = some arpe) (first : arr.find? (·.itaddr = ip) = some arpe)
      (same : arr' = arr) (none_freed : fr = [])
  | new (arpe : TnArpentry) (absent : ∀ e ∈ arr, e.itaddr ≠ ip) (get : arr[idx]? = some arpe)
      (replaced : arr' = arr.set idx (newEntry ip time)) (freed : fr = arpe.laHold.toList)

theorem arpLookup_spec (h : arpLookup arr ip create time = some (idx, arr', fr)) :
    Found arr ip time idx arr' fr := by
  have hs := @scan_spec arr ip create 0 {} ⟨by simp, by simp, by simp⟩
  unfold arpLookup at h
  generalize scan ip create 0 arr {} = r at hs h
  obtain ⟨o, c⟩ := r
  cases o with
  | some i =>
    obtain ⟨-, arpe, h1, h2⟩ := hs
    cases h
    exact .old arpe h1 h2 rfl rfl
  | none =>
    obtain ⟨h1, h2⟩ := hs
    dsimp only at h
    split at h
    · split at h
      · rename_i i hv
        cases h
        have hlt := h2.victim hv
        rw [Nat.zero_add] at hlt
        refine .new arr[idx] h1 (List.getElem?_eq_getElem hlt) rfl ?_
        rw [List.getD_eq_getElem?_getD, List.getElem?_eq_getElem hlt]
        rfl
      · cases h
    · cases h

end TnNet.Arp
