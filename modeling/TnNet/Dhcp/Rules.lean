import TnNet.Dhcp.Defs

/-!
# What the DHCP task does with a datagram

The messages the task sends change the buffer and the number of the exchange.  `onData_rule` lists what can
become of a datagram; all else is unchanged.
-/

set_option autoImplicit false

namespace TnNet.Dhcp

namespace DhcpInfo

variable {s : DhcpInfo} {xid : BitVec 32} {data : List UInt8} {item : Item} {queue : List Item}

/-! ## Messages -/

theorem dhcpRequest_eq (s : DhcpInfo) (xid : BitVec 32) :
    ∃ dh x, s.dhcpRequest xid = { s with dh := dh, dXid := x } := by
  unfold dhcpRequest
  dsimp only
  split
  · exact ⟨_, s.dXid, rfl⟩
  · exact ⟨_, xid, rfl⟩

theorem dhcpDiscover_eq (s : DhcpInfo) (xid : BitVec 32) :
    ∃ dh, s.dhcpDiscover xid = { s with dh := dh, dXid := xid } := ⟨_, rfl⟩

/-! ## Datagrams -/

/-- The states in which an ACK is taken. -/
def asks (s : DhcpInfo) : Prop :=
  s.state = .DHCP_ST_REBOOTING ∨ s.state = .DHCP_ST_REQUESTING ∨ s.state = .DHCP_ST_RENEWING ∨
    s.state = .DHCP_ST_REBINDING

/-- The datagram is an ACK or a NAK for this client. -/
def answers (s : DhcpInfo) (data : List UInt8) : Prop :=
  (data.length ≤ dhcpSize ∧ (s.recvfrom data).forUs data.length) ∧
    (isType (s.recvfrom data).dh DHCP_ACK ∨ isType (s.recvfrom data).dh DHCP_NAK)

/-- What becomes of a datagram. -/
inductive DataRule (s : DhcpInfo) (data : List UInt8) : DhcpInfo × List DhcpObs → Prop
  | ack (h : s.asks) :
    DataRule s data ({ s.recvfrom data with
      saveIpAddr := some s.cur.ipAddr, cur := { s.cur with ipAddr := s.d.dOfferIpAddr } }, [])
  | nak (h : s.asks) : DataRule s data ((s.recvfrom data).dhcpPrepareInitState, [])
  | offer (d : Working) (dh : Nat → UInt8) (x : BitVec 32) (h : s.state = .DHCP_ST_SELECTING)
      (least : DHCP_MIN_SIZE ≤ data.length) (most : data.length ≤ dhcpSize)
      (parse : dhcpParseOffer (s.recvfrom data).dh s.d = (d, true)) :
    DataRule s data ({ s with d := d, rxTimeout := 200, dh := dh, dXid := x, state := .DHCP_ST_REQUESTING },
      [.selected data])
  | refused (d : Working) (h : s.state = .DHCP_ST_SELECTING) :
    DataRule s data ({ s.recvfrom data with d := d, rxTimeout := 200 }, [])
  | ignored (h : s.state = .DHCP_ST_RENEWING → ¬ s.answers data) : DataRule s data (s.recvfrom data, [])

theorem onOffer_rule (hne : s.state = .DHCP_ST_RENEWING → ¬ s.answers data)
    (least : DHCP_MIN_SIZE ≤ data.length)
    (most : data.length ≤ dhcpSize) : DataRule s data ((s.recvfrom data).onOffer data xid) := by
  unfold onOffer
  split
  · rename_i hst
    dsimp only
    cases hp : dhcpParseOffer (s.recvfrom data).dh s.d with
    | mk d got =>
      rw [show (s.recvfrom data).d = s.d from rfl, hp]
      cases got with
      | true =>
        obtain ⟨dh, x, hreq⟩ := dhcpRequest_eq { s.recvfrom data with d := d, rxTimeout := 200 } xid
        simp only [if_true, hreq]
        exact .offer d dh x hst least most hp
      | false => exact .refused d hst
  · exact .ignored hne

theorem onData_rule (s : DhcpInfo) (data : List UInt8) (xid : BitVec 32) :
    DataRule s data (s.onData data xid) := by
  unfold onData
  dsimp only
  split
  · rename_i hfor
    split
    · rename_i hack
      unfold onAck
      split
      · rename_i hst
        exact .ack hst
      · rename_i hst
        exact .ignored fun hr => absurd (.inr (.inr (.inl hr))) hst
    · split
      · rename_i hnak
        unfold onNak
        split
        · rename_i hst
          refine .nak ?_
          rcases hst with h | ⟨h, -⟩ | h
          · exact .inl h
          · exact .inr (.inl h)
          · exact .inr (.inr h)
        · rename_i hst
          exact .ignored fun hr => absurd (.inr (.inr (.inl hr))) hst
      · rename_i hack hnak
        exact onOffer_rule (fun _ h => h.2.elim hack hnak) hfor.2.1 hfor.1
  · rename_i hfor
    exact .ignored fun _ h => hfor h.1

/-! ## Timeouts -/

/-- What a timeout of the receive does. -/
inductive TimeoutRule (s : DhcpInfo) : DhcpInfo → Prop
  | same (h : s.state = .DHCP_ST_BOUND ∨ s.state = .DHCP_ST_REBINDING) : TimeoutRule s s
  | init : TimeoutRule s s.dhcpPrepareInitState
  | selecting (dh : Nat → UInt8) (x : BitVec 32) (h : s.state = .DHCP_ST_INIT) :
    TimeoutRule s { s with rxTimeout := 1000, dh := dh, dXid := x, state := .DHCP_ST_SELECTING }
  | rebooting (dh : Nat → UInt8) (x : BitVec 32) (h : s.state = .DHCP_ST_INITREBOOT) :
    TimeoutRule s { s with rxTimeout := 500, dh := dh, dXid := x, state := .DHCP_ST_REBOOTING }

theorem onTimeout_rule (s : DhcpInfo) (xid : BitVec 32) : TimeoutRule s (s.onTimeout xid) := by
  unfold onTimeout
  split
  · rename_i hst
    obtain ⟨dh, x, hreq⟩ := dhcpRequest_eq { s with rxTimeout := 500 } xid
    rw [hreq]
    exact .rebooting dh x hst
  · rename_i hst
    obtain ⟨dh, hreq⟩ := dhcpDiscover_eq { s with rxTimeout := 1000 } xid
    rw [hreq]
    exact .selecting dh xid hst
  · exact .init
  · exact .init
  · exact .init
  · exact .init
  · rename_i hst
    exact .same (.inl hst)
  · rename_i hst
    exact .same (.inr hst)

/-! ## The queue -/

theorem mem_sendPolling (h : item ∈ queue) (new : Item) (room : Nat) :
    item ∈ sendPolling room queue new := by
  unfold sendPolling
  split
  · exact List.mem_append_left _ h
  · exact h

theorem nil_of_sendPolling {room : Nat} {new : Item} (h : sendPolling room queue new = []) :
    queue = [] := by
  unfold sendPolling at h
  split at h
  · simp at h
  · exact h

theorem mem_countdown (h : item ∈ queue) (room timeout : Nat) (new : Item) :
    item ∈ (countdown room timeout new queue).2 := by
  unfold countdown
  split
  · dsimp only
    split
    · exact mem_sendPolling h new room
    · exact h
  · exact h

theorem nil_of_countdown {room timeout : Nat} {new : Item}
    (h : (countdown room timeout new queue).2 = []) : queue = [] := by
  unfold countdown at h
  split at h
  · dsimp only at h
    split at h
    · exact nil_of_sendPolling h
    · exact h
  · exact h

/-- A countdown goes on, or posts its event when there is room. -/
theorem countdown_spec {room timeout : Nat} (hpos : 0 < timeout) (new : Item)
    (hroom : timeout = 1 → queue.length < room) :
    ((countdown room timeout new queue).1 + 1 = timeout ∧ 0 < (countdown room timeout new queue).1) ∨
      new ∈ (countdown room timeout new queue).2 := by
  unfold countdown
  rw [if_pos hpos]
  dsimp only
  by_cases h1 : timeout = 1
  · right
    rw [if_pos (by omega), sendPolling, if_pos (hroom h1)]
    exact List.mem_append_right _ List.mem_cons_self
  · left
    omega

/-! ## Replies -/

def ownMac : List UInt8 := [0x10, 0x0C, 0xCC, 0x22, 0x33, 0x44]

/-- A reply to the client, with the number of the exchange and the address 192.168.0.10. -/
def reply (x : UInt8) (opts : List UInt8) : List UInt8 :=
  [2, 1, 6, 0, 0, 0, 0, x] ++ List.replicate 8 0 ++ [192, 168, 0, 10] ++ List.replicate 8 0 ++ ownMac ++
    List.replicate 202 0 ++ [0x63, 0x82, 0x53, 0x63] ++ opts ++ List.replicate 40 0

def ack (x : UInt8) : List UInt8 := reply x [53, 1, 5, 255]

/-- The client sends a DISCOVER, and an OFFER and an ACK arrive. -/
def obtain (offer : List UInt8) : List DhcpEvent :=
  [.timeout 7, .arrive offer, .receive 0, .arrive (ack 7), .receive 0, .checked false 0]

end DhcpInfo

end TnNet.Dhcp
