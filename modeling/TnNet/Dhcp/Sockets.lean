import TnNet.Dhcp.Defs
import TnNet.Pcb.Defs

/-!
# The sockets behind a new lease

`dhcp_record_lease` gives the new address to the interface, and then calls `dhcp_set_sockets_ip_addr`
for the blocks behind `udb` and `tcb` with `new_ip_addr`, which is 0.

`lease_readdresses_iff` — the sockets are treated as they should be exactly when none has a local
address, or when the address is taken from an interface that had one.
-/

set_option autoImplicit false

namespace TnNet.Dhcp

open TnNet.Pcb

variable {pcbs : List Inpcb} {inp : Inpcb} {addr prev : BitVec 32}

/-- `dhcp_set_sockets_ip_addr`; `ipAddr` is the address of the interface. -/
def dhcpSetSocketsIpAddr (ipAddr newIpAddr : BitVec 32) (pcbs : List Inpcb) : List Inpcb :=
  if ipAddr = newIpAddr ∧ newIpAddr ≠ 0 then pcbs
  else pcbs.map fun inp => if inp.inpLaddr ≠ 0 then { inp with inpLaddr := newIpAddr } else inp

/-- The interface and the blocks behind `dhcp_record_lease`. -/
structure Leased where
  d : Working
  cur : Recorded
  udb : List Inpcb
  tcb : List Inpcb

/-- `dhcp_record_lease`. -/
def dhcpRecordLease (d : Working) (udb tcb : List Inpcb) : Leased :=
  let newIpAddr : BitVec 32 := 0
  let cur := recordFields d
  { d := recordDefaults d, cur
    udb := dhcpSetSocketsIpAddr cur.ipAddr newIpAddr udb
    tcb := dhcpSetSocketsIpAddr cur.ipAddr newIpAddr tcb }

/-- A block without a local address has none, one with a local address has the address of the lease, and
    nothing changes when that is the previous one. -/
structure ReAddressed (addr prev : BitVec 32) (inp inp' : Inpcb) : Prop where
  any : inp.inpLaddr = 0 → inp'.inpLaddr = 0
  specific : inp.inpLaddr ≠ 0 → inp'.inpLaddr = addr
  same : addr = prev → inp' = inp

/-- What a call with 0 does to a block. -/
theorem reAddressed_iff :
    ReAddressed addr prev inp (if inp.inpLaddr ≠ 0 then { inp with inpLaddr := 0 } else inp) ↔
    inp.inpLaddr = 0 ∨ (addr = 0 ∧ prev ≠ 0) := by
  by_cases h0 : inp.inpLaddr = 0
  · rw [if_neg (by simpa using h0)]
    exact iff_of_true ⟨fun h => h, fun h => absurd h0 h, fun _ => rfl⟩ (.inl h0)
  · rw [if_pos h0]
    constructor
    · rintro ⟨-, hs, hsame⟩
      have haddr : addr = 0 := (hs h0).symm
      refine .inr ⟨haddr, fun hp => h0 ?_⟩
      have heq := hsame (haddr.trans hp.symm)
      exact (congrArg Inpcb.inpLaddr heq).symm
    · intro h
      obtain ⟨haddr, hprev⟩ := h.resolve_left h0
      exact ⟨fun h => absurd h h0, fun _ => haddr.symm, fun hs => absurd (hs.symm.trans haddr) hprev⟩

theorem forall₂_setSockets (pcbs : List Inpcb) :
    List.Forall₂ (ReAddressed addr prev) pcbs (dhcpSetSocketsIpAddr addr 0 pcbs) ↔
      ∀ inp ∈ pcbs, inp.inpLaddr = 0 ∨ (addr = 0 ∧ prev ≠ 0) := by
  unfold dhcpSetSocketsIpAddr
  rw [if_neg (by simp), List.forall₂_map_right_iff, List.forall₂_same]
  exact forall₂_congr fun _ _ => reAddressed_iff

/-- All blocks behind `udb` and `tcb` are treated as they should be; `prev` is the address the interface
    had. -/
def LeaseReAddresses (d : Working) (prev : BitVec 32) (udb tcb : List Inpcb) : Prop :=
  let l := dhcpRecordLease d udb tcb
  List.Forall₂ (ReAddressed l.cur.ipAddr prev) udb l.udb ∧
    List.Forall₂ (ReAddressed l.cur.ipAddr prev) tcb l.tcb

/-- **A new lease.**  The blocks are treated as they should be exactly when none of them has a local
    address, or the address of the lease is 0 and that of the interface was not. -/
theorem lease_readdresses_iff (d : Working) (prev : BitVec 32) (udb tcb : List Inpcb) :
    LeaseReAddresses d prev udb tcb ↔
      (∀ inp ∈ udb ++ tcb, inp.inpLaddr = 0) ∨ ((recordFields d).ipAddr = 0 ∧ prev ≠ 0) := by
  unfold LeaseReAddresses dhcpRecordLease
  simp only [forall₂_setSockets, forall_or_right, List.forall_mem_append, and_or_right]

/-- A connection of the address 192.168.0.2. -/
def leasedPcb : Inpcb :=
  { inpFaddr := 0xC0A80001, inpLaddr := 0xC0A80002, inpFport := htons 80, inpLport := htons 1024 }

/-- **The defect**: a connection loses its address when its lease is renewed. -/
theorem renewal_unbinds_connection :
    ¬ LeaseReAddresses { dOfferIpAddr := 0xC0A80002, dLeaseTime := 3600 } 0xC0A80002 [] [leasedPcb] := by
  rintro ⟨-, h⟩
  obtain ⟨-, hs, -⟩ := (List.forall₂_cons.mp h).1
  exact absurd (hs (by decide)) (by decide)

end TnNet.Dhcp
