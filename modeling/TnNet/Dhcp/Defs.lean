import Mathlib.Data.List.Basic
import TnNet.Lib.Ring
import TnNet.Lib.Run

/-!
# The DHCP client

`dhcp_task_func` and `dhcp_timer_func` of `tn_dhcp.c`, with the functions the task calls.  The task
takes the items of the receive queue of its socket one by one; the timer posts its events into the same
queue.  `dhcp_chk_dup_IP` sleeps, and takes two steps.  The buffer `dh` is a function: what lies behind
its 548 bytes is read and never written.  Addresses and times are in host order.

`dhcp_set_init_timeout` is left out: each time `dhcp_prepare_init_state` overwrites the timeout it has
computed.  The socket is taken to be open, and the numbers of `tn_rand` come with the step.
-/

set_option autoImplicit false

namespace TnNet.Dhcp

def DHCP_OPT_PAD : UInt8 := 0
def DHCP_OPT_SUBNET_MASK : UInt8 := 1
def DHCP_OPT_ROUTERS_ON_SNET : UInt8 := 3
def DHCP_OPT_DNS_SRV : UInt8 := 6
def DHCP_OPT_BROADCAST_ADDR : UInt8 := 28
def DHCP_OPT_REQUESTED_IP_ADDR : UInt8 := 50
def DHCP_OPT_IP_ADDR_LEASE_TIME : UInt8 := 51
def DHCP_OPT_MSG_TYPE : UInt8 := 53
def DHCP_OPT_SRV_IDENTIFIER : UInt8 := 54
def DHCP_OPT_PARAM_REQUEST : UInt8 := 55
def DHCP_OPT_MSG : UInt8 := 56
def DHCP_OPT_MAX_MSG_SIZE : UInt8 := 57
def DHCP_OPT_T1_VALUE : UInt8 := 58
def DHCP_OPT_T2_VALUE : UInt8 := 59
def DHCP_OPT_CLIENT_ID : UInt8 := 61
def DHCP_OPT_END : UInt8 := 255

def DHCP_DISCOVER : UInt8 := 1
def DHCP_OFFER : UInt8 := 2
def DHCP_REQUEST : UInt8 := 3
def DHCP_DECLINE : UInt8 := 4
def DHCP_ACK : UInt8 := 5
def DHCP_NAK : UInt8 := 6

def BOOTP_REPLY : UInt8 := 2

def DHCP_OPTIONS_SIZE : Nat := 312

/-- `sizeof(struct dhcp)`. -/
def dhcpSize : Nat := 548

def DHCP_MIN_SIZE : Nat := 280

def DHCP_MAX_DNS : Nat := 2

def DHCP_INFINITE_LEASE : BitVec 32 := 0xFFFFFFFF

def UDP_SOCK_RX_QUEUE_SIZE : Nat := 4

inductive DhcpState where
  | DHCP_ST_REBOOTING
  | DHCP_ST_INIT
  | DHCP_ST_SELECTING
  | DHCP_ST_REQUESTING
  | DHCP_ST_BOUND
  | DHCP_ST_RENEWING
  | DHCP_ST_REBINDING
  | DHCP_ST_INITREBOOT
  deriving DecidableEq

/-- The fields that an OFFER sets; of `d_dns_addr` the first `d_dns_count` entries. -/
structure Working where
  dOfferIpAddr : BitVec 32 := 0
  dDhcpServerAddr : BitVec 32 := 0
  dSubnetMask : BitVec 32 := 0
  dRouterAddr : BitVec 32 := 0
  dBroadcastAddr : BitVec 32 := 0
  dDnsAddr : List (BitVec 32) := []
  dLeaseTime : BitVec 32 := 0
  dRenewalTime : BitVec 32 := 0
  dRebindTime : BitVec 32 := 0
  deriving DecidableEq

/-- The fields that `dhcp_record_lease` sets. -/
structure Recorded where
  ipAddr : BitVec 32 := 0
  netmask : BitVec 32 := 0
  ipGateway : BitVec 32 := 0
  ifBroadaddr : BitVec 32 := 0
  dhcpServerAddr : BitVec 32 := 0
  leaseTime : BitVec 32 := 0
  renewalTime : BitVec 32 := 0
  rebindTime : BitVec 32 := 0
  t1Timeout : Nat := 0
  t2Timeout : Nat := 0
  dnsAddr : List (BitVec 32) := []
  deriving DecidableEq

/-- The items of `queueRx`. -/
inductive Item where
  | DHCP_T1_EXPIRED_EVENT
  | DHCP_T2_EXPIRED_EVENT
  | data (bytes : List UInt8)
  deriving DecidableEq

/-- `DHCPINFO`, with the fields of the interface. -/
structure DhcpInfo where
  state : DhcpState
  rxTimeout : Nat
  dXid : BitVec 32
  dCurrIpAddr : BitVec 32
  d : Working
  cur : Recorded
  dh : Nat → UInt8
  hwAddr : List UInt8
  queue : List Item
  /-- The first item of `queue` was given to the task, which waited for it: it is not in the ring buffer. -/
  handed : Bool
  /-- The task is in `dhcp_chk_dup_IP`, with the address of the interface that was saved. -/
  saveIpAddr : Option (BitVec 32)
  /-- The timer ticks since the task went to receive. -/
  waited : Nat
  /-- The timer ticks since `dhcp_record_lease`. -/
  age : Option Nat

/-! ## `dhcp_parse_offer` -/

/-- Four bytes. -/
def word (dh : Nat → UInt8) (i : Nat) : BitVec 32 :=
  (dh i).toBitVec ++ (dh (i + 1)).toBitVec ++ (dh (i + 2)).toBitVec ++ (dh (i + 3)).toBitVec

/-- A byte of `dh_opt`. -/
def opt (dh : Nat → UInt8) (i : Nat) : UInt8 := dh (236 + i)

def optWord (dh : Nat → UInt8) (i : Nat) : BitVec 32 := word dh (236 + i)

def dhYiaddr (dh : Nat → UInt8) : BitVec 32 := word dh 16

/-- The loop over the addresses of the servers. -/
def dnsLoop (dh : Nat → UInt8) (i len : Nat) : List (BitVec 32) :=
  (List.range ((len + 3) / 4)).foldl
    (fun addrs k => if addrs.length < DHCP_MAX_DNS then addrs ++ [optWord dh (i + 2 + 4 * k)] else addrs) []

/-- The cases of the `switch`, but for the padding and the end. -/
def parseOption (dh : Nat → UInt8) (i : Nat) (d : Working) : Working :=
  if opt dh i = DHCP_OPT_SUBNET_MASK then { d with dSubnetMask := optWord dh (i + 2) }
  else if opt dh i = DHCP_OPT_ROUTERS_ON_SNET then { d with dRouterAddr := optWord dh (i + 2) }
  else if opt dh i = DHCP_OPT_SRV_IDENTIFIER then { d with dDhcpServerAddr := optWord dh (i + 2) }
  else if opt dh i = DHCP_OPT_DNS_SRV then { d with dDnsAddr := dnsLoop dh i (opt dh (i + 1)).toNat }
  else if opt dh i = DHCP_OPT_IP_ADDR_LEASE_TIME then { d with dLeaseTime := optWord dh (i + 2) }
  else if opt dh i = DHCP_OPT_T1_VALUE then { d with dRenewalTime := optWord dh (i + 2) }
  else if opt dh i = DHCP_OPT_T2_VALUE then { d with dRebindTime := optWord dh (i + 2) }
  else if opt dh i = DHCP_OPT_BROADCAST_ADDR then { d with dBroadcastAddr := optWord dh (i + 2) }
  else if opt dh i = DHCP_OPT_MSG_TYPE ∧ opt dh (i + 2) = DHCP_OFFER then
    { d with dOfferIpAddr := dhYiaddr dh }
  else d

/-- `got_offer` behind an option. -/
def gotOffer (dh : Nat → UInt8) (i : Nat) (got : Bool) : Bool :=
  got || decide (opt dh i = DHCP_OPT_MSG_TYPE ∧ opt dh (i + 2) = DHCP_OFFER)

/-- The loop, from the option `i` on; every iteration takes a byte at least. -/
def parseLoop (dh : Nat → UInt8) : Nat → Nat → Working → Bool → Working × Bool
  | 0, _, d, got => (d, got)
  | fuel + 1, i, d, got =>
    if i < DHCP_OPTIONS_SIZE then
      if opt dh i = DHCP_OPT_PAD then parseLoop dh fuel (i + 1) d got
      else if opt dh i = DHCP_OPT_END then (d, got)
      else parseLoop dh fuel (i + ((opt dh (i + 1)).toNat + 2)) (parseOption dh i d) (gotOffer dh i got)
    else (d, got)

def dhcpParseOffer (dh : Nat → UInt8) (d : Working) : Working × Bool :=
  parseLoop dh DHCP_OPTIONS_SIZE 4 d false

/-! ## `dhcp_record_lease` -/

/-- The defaults that are written into the working fields. -/
def recordDefaults (d : Working) : Working :=
  let d :=
    if d.dBroadcastAddr = 0 then { d with dBroadcastAddr := d.dRouterAddr ||| ~~~d.dSubnetMask } else d
  if d.dLeaseTime = DHCP_INFINITE_LEASE then d
  else
    let d := if d.dRenewalTime = 0 then { d with dRenewalTime := d.dLeaseTime >>> 1 } else d
    if d.dRebindTime = 0 then { d with dRebindTime := (d.dLeaseTime * 7) >>> 3 } else d

/-- The fields behind `dhcp_record_lease`. -/
def recordFields (d : Working) : Recorded :=
  let d := recordDefaults d
  { ipAddr := d.dOfferIpAddr, netmask := d.dSubnetMask, ipGateway := d.dRouterAddr,
    ifBroadaddr := d.dBroadcastAddr
    dhcpServerAddr := d.dDhcpServerAddr, leaseTime := d.dLeaseTime, renewalTime := d.dRenewalTime
    rebindTime := d.dRebindTime
    t1Timeout := if d.dLeaseTime = DHCP_INFINITE_LEASE then 0 else (d.dRenewalTime * 10).toNat
    t2Timeout := if d.dLeaseTime = DHCP_INFINITE_LEASE then 0 else (d.dRebindTime * 10).toNat
    dnsAddr := d.dDnsAddr }

/-! ## The messages -/

/-- The bytes of a number. -/
def bytes32 (x : BitVec 32) : List UInt8 :=
  [⟨x.extractLsb' 24 8⟩, ⟨x.extractLsb' 16 8⟩, ⟨x.extractLsb' 8 8⟩, ⟨x.extractLsb' 0 8⟩]

/-- `g_default_request_list`. -/
def gDefaultRequestList : List UInt8 := [1, 3, 6, 8, 9, 12, 15, 23, 26, 35, 36, 54, 28, 37]

namespace DhcpInfo

/-- `dhcp_fill_header`, up to the magic cookie. -/
def dhcpFillHeader (s : DhcpInfo) : List UInt8 :=
  let ciaddr := if s.state = .DHCP_ST_BOUND ∨ s.state = .DHCP_ST_RENEWING ∨
    s.state = .DHCP_ST_REBINDING then s.cur.ipAddr
    else 0
  [1, 1, 6, 0] ++ bytes32 s.dXid ++ [0, 0, 0, 0] ++ bytes32 ciaddr ++ List.replicate 12 0 ++
    s.hwAddr.take 6 ++ List.replicate 10 0 ++ List.replicate 192 0 ++ [0x63, 0x82, 0x53, 0x63]

/-- The buffer with a message: the rest of it is zero. -/
def fill (s : DhcpInfo) (opts : List UInt8) : DhcpInfo :=
  let msg := s.dhcpFillHeader ++ opts
  { s with dh := fun i => if i < dhcpSize then msg.getD i 0 else s.dh i }

/-- The client identifier. -/
def clientId (s : DhcpInfo) : List UInt8 := [DHCP_OPT_CLIENT_ID, 7, 1] ++ s.hwAddr.take 6

def dhcpRequest (s : DhcpInfo) (xid : BitVec 32) : DhcpInfo :=
  let s := if s.state = .DHCP_ST_SELECTING then s else { s with dXid := xid }
  s.fill ([DHCP_OPT_MSG_TYPE, 1, DHCP_REQUEST] ++
    (if s.state = .DHCP_ST_SELECTING then [DHCP_OPT_SRV_IDENTIFIER, 4] ++
      bytes32 s.d.dDhcpServerAddr else []) ++
    (if s.state = .DHCP_ST_SELECTING then [DHCP_OPT_REQUESTED_IP_ADDR, 4] ++ bytes32 s.d.dOfferIpAddr
      else if s.state = .DHCP_ST_INITREBOOT then [DHCP_OPT_REQUESTED_IP_ADDR, 4] ++
      bytes32 s.dCurrIpAddr else []) ++
    s.clientId ++
    (if s.cur.leaseTime ≠ 0 ∧ s.cur.leaseTime ≠ DHCP_INFINITE_LEASE then
      [DHCP_OPT_IP_ADDR_LEASE_TIME, 4] ++ bytes32 s.cur.leaseTime else []) ++
    [DHCP_OPT_END])

def dhcpDiscover (s : DhcpInfo) (xid : BitVec 32) : DhcpInfo :=
  let s := { s with dXid := xid }
  s.fill ([DHCP_OPT_MSG_TYPE, 1, DHCP_DISCOVER] ++ s.clientId ++ [DHCP_OPT_MAX_MSG_SIZE, 2, 2, 36] ++
    (if s.d.dLeaseTime ≠ 0 then [DHCP_OPT_IP_ADDR_LEASE_TIME, 4] ++ bytes32 s.d.dLeaseTime else []) ++
    [DHCP_OPT_PARAM_REQUEST, 14] ++ gDefaultRequestList ++ [DHCP_OPT_END])

/-- The text of the message: "IP is not free". -/
def notFree : List UInt8 := [73, 80, 32, 105, 115, 32, 110, 111, 116, 32, 102, 114, 101, 101]

/-- `dhcp_release_decline` for `DHCP_DECLINE`. -/
def dhcpDecline (s : DhcpInfo) (xid : BitVec 32) : DhcpInfo :=
  let s := { s with dXid := xid }
  s.fill ([DHCP_OPT_MSG_TYPE, 1, DHCP_DECLINE, DHCP_OPT_SRV_IDENTIFIER, 4] ++
    bytes32 s.cur.dhcpServerAddr ++
    [DHCP_OPT_REQUESTED_IP_ADDR, 4] ++ bytes32 s.d.dOfferIpAddr ++ [DHCP_OPT_MSG, 14] ++ notFree ++
    [DHCP_OPT_END])

/-! ## The task -/

/-- The state `DHCP_ST_INIT`, behind `dhcp_prepare_init_state`. -/
def dhcpPrepareInitState (s : DhcpInfo) : DhcpInfo :=
  { s with
    dCurrIpAddr := 0
    d := { s.d with dOfferIpAddr := 0, dLeaseTime := s.cur.leaseTime }
    rxTimeout := 2
    cur := { s.cur with t1Timeout := 0, t2Timeout := 0 }
    state := .DHCP_ST_INIT }

/-- The message is for this client. -/
def forUs (s : DhcpInfo) (rc : Nat) : Prop :=
  DHCP_MIN_SIZE ≤ rc ∧ s.dh 0 = BOOTP_REPLY ∧ word s.dh 4 = s.dXid ∧ ∀ i < 6,
    s.dh (28 + i) = s.hwAddr.getD i 0

instance (s : DhcpInfo) (rc : Nat) : Decidable (s.forUs rc) := by
  unfold forUs
  infer_instance

/-- `m_type` and the type. -/
def isType (dh : Nat → UInt8) (t : UInt8) : Prop :=
  opt dh 4 = DHCP_OPT_MSG_TYPE ∧ opt dh 5 = 1 ∧ opt dh 6 = t

instance (dh : Nat → UInt8) (t : UInt8) : Decidable (isType dh t) := by
  unfold isType
  infer_instance

end DhcpInfo

/-- What can be told from outside: an OFFER was accepted, a lease was recorded. -/
inductive DhcpObs where
  | selected (offer : List UInt8)
  | recorded (cur : Recorded)
  deriving DecidableEq

namespace DhcpInfo

/-- An ACK: `dhcp_chk_dup_IP` is called. -/
def onAck (s : DhcpInfo) : DhcpInfo :=
  if s.state = .DHCP_ST_REBOOTING ∨ s.state = .DHCP_ST_REQUESTING ∨ s.state = .DHCP_ST_RENEWING ∨
      s.state = .DHCP_ST_REBINDING then
    { s with saveIpAddr := some s.cur.ipAddr, cur := { s.cur with ipAddr := s.d.dOfferIpAddr } }
  else s

/-- A NAK; the bytes that are compared with the address of the server begin at the length of the option. -/
def onNak (s : DhcpInfo) : DhcpInfo :=
  if s.state = .DHCP_ST_REBOOTING ∨
    (s.state = .DHCP_ST_REQUESTING ∧ optWord s.dh 5 = s.d.dDhcpServerAddr) ∨
      s.state = .DHCP_ST_RENEWING ∨ s.state = .DHCP_ST_REBINDING then s.dhcpPrepareInitState
  else s

/-- Any other message. -/
def onOffer (s : DhcpInfo) (data : List UInt8) (xid : BitVec 32) : DhcpInfo × List DhcpObs :=
  if s.state = .DHCP_ST_SELECTING then
    let r := dhcpParseOffer s.dh s.d
    let s := { s with d := r.1, rxTimeout := 200 }
    if r.2 then ({ s.dhcpRequest xid with state := .DHCP_ST_REQUESTING }, [.selected data]) else (s, [])
  else (s, [])

/-- `udp_s_recvfrom` copies the datagram, or as much of it as there is room for. -/
def recvfrom (s : DhcpInfo) (data : List UInt8) : DhcpInfo :=
  { s with dh := fun i => if i < min data.length dhcpSize then data.getD i 0 else s.dh i }

/-- The task has received a datagram; one that is too long makes an error. -/
def onData (s : DhcpInfo) (data : List UInt8) (xid : BitVec 32) : DhcpInfo × List DhcpObs :=
  let s := s.recvfrom data
  if data.length ≤ dhcpSize ∧ s.forUs data.length then
    if isType s.dh DHCP_ACK then (s.onAck, [])
    else if isType s.dh DHCP_NAK then (s.onNak, [])
    else s.onOffer data xid
  else (s, [])

/-- The receive has timed out. -/
def onTimeout (s : DhcpInfo) (xid : BitVec 32) : DhcpInfo :=
  match s.state with
  | .DHCP_ST_INITREBOOT => { { s with rxTimeout := 500 }.dhcpRequest xid with state := .DHCP_ST_REBOOTING }
  | .DHCP_ST_INIT => { { s with rxTimeout := 1000 }.dhcpDiscover xid with state := .DHCP_ST_SELECTING }
  | .DHCP_ST_REBOOTING | .DHCP_ST_SELECTING | .DHCP_ST_REQUESTING | .DHCP_ST_RENEWING =>
    s.dhcpPrepareInitState
  | .DHCP_ST_BOUND | .DHCP_ST_REBINDING => s

def onT1 (s : DhcpInfo) (xid : BitVec 32) : DhcpInfo :=
  if s.cur.renewalTime ≠ DHCP_INFINITE_LEASE ∧ s.state = .DHCP_ST_BOUND then
    { { s with rxTimeout := 500 }.dhcpRequest xid with state := .DHCP_ST_RENEWING }
  else s

def onT2 (s : DhcpInfo) (xid : BitVec 32) : DhcpInfo :=
  if s.cur.renewalTime ≠ DHCP_INFINITE_LEASE then
    if s.state = .DHCP_ST_RENEWING then
      { { s with rxTimeout := 500 }.dhcpRequest xid with state := .DHCP_ST_REBINDING }
    else if s.state = .DHCP_ST_REBINDING then s.dhcpPrepareInitState
    else s
  else s

def onItem (s : DhcpInfo) (xid : BitVec 32) : Item → DhcpInfo × List DhcpObs
  | .DHCP_T1_EXPIRED_EVENT => (s.onT1 xid, [])
  | .DHCP_T2_EXPIRED_EVENT => (s.onT2 xid, [])
  | .data bytes => s.onData bytes xid

/-- `dhcp_chk_dup_IP` has returned: the lease is recorded, or declined. -/
def onChecked (s : DhcpInfo) (saveIpAddr : BitVec 32) (dup : Bool) (xid : BitVec 32) :
    DhcpInfo × List DhcpObs :=
  let s := { s with saveIpAddr := none, cur := { s.cur with ipAddr := saveIpAddr } }
  if dup then (({ s with cur := { s.cur with ipAddr := 0 } }.dhcpDecline xid).dhcpPrepareInitState, [])
  else
    ({ s with d := recordDefaults s.d, cur := recordFields s.d, state := .DHCP_ST_BOUND, age := some 0 },
      [.recorded (recordFields s.d)])

/-! ## The timer -/

/-- The task is in `udp_s_recvfrom`. -/
def waiting (s : DhcpInfo) : Bool := s.saveIpAddr.isNone

/-- The task waits in `tn_queue_receive`, and the next item is given to it. -/
def hungry (s : DhcpInfo) : Bool := s.waiting && s.queue.isEmpty

/-- The number of items `queue` has room for; one that was given to the task is in no cell. -/
def room (s : DhcpInfo) : Nat :=
  if s.handed || s.hungry then RingBuf.capacity UDP_SOCK_RX_QUEUE_SIZE + 1
  else RingBuf.capacity UDP_SOCK_RX_QUEUE_SIZE

/-- `tn_queue_send_polling`. -/
def sendPolling (room : Nat) (queue : List Item) (item : Item) : List Item :=
  if queue.length < room then queue ++ [item] else queue

/-- A countdown, with its event. -/
def countdown (room timeout : Nat) (item : Item) (queue : List Item) : Nat × List Item :=
  if 0 < timeout then (timeout - 1, if timeout - 1 = 0 then sendPolling room queue item else queue)
  else (timeout, queue)

def dhcpTimerFunc (s : DhcpInfo) : DhcpInfo :=
  let r1 := countdown s.room s.cur.t1Timeout .DHCP_T1_EXPIRED_EVENT s.queue
  let r2 := countdown s.room s.cur.t2Timeout .DHCP_T2_EXPIRED_EVENT r1.2
  { s with
    cur := { s.cur with t1Timeout := r1.1, t2Timeout := r2.1 }
    queue := r2.2
    handed := s.handed || (s.hungry && !r2.2.isEmpty)
    waited := s.waited + 1
    age := s.age.map (· + 1) }

end DhcpInfo

/-! ## Runs -/

inductive DhcpEvent where
  | tick
  /-- A datagram arrives at the socket. -/
  | arrive (data : List UInt8)
  /-- The task takes the first item of the queue. -/
  | receive (xid : BitVec 32)
  | timeout (xid : BitVec 32)
  | checked (dup : Bool) (xid : BitVec 32)

namespace DhcpInfo

/-- A step; what the task cannot do leaves the state as it is. -/
def step (s : DhcpInfo) : DhcpEvent → DhcpInfo × List DhcpObs
  | .tick => (s.dhcpTimerFunc, [])
  | .arrive data =>
    ({ s with queue := sendPolling s.room s.queue (.data data), handed := s.handed || s.hungry }, [])
  | .receive xid =>
    if s.waiting then
      match s.queue with
      | [] => (s, [])
      | item :: q => { s with queue := q, handed := false, waited := 0 }.onItem xid item
    else (s, [])
  | .timeout xid => if s.waiting ∧ s.queue = [] then ({ s with waited := 0 }.onTimeout xid, []) else (s, [])
  | .checked dup xid =>
    match s.saveIpAddr with
    | some saveIpAddr => { s with waited := 0 }.onChecked saveIpAddr dup xid
    | none => (s, [])

/-- Behind `dhcp_init` and `s_bind`. -/
def start (hwAddr : List UInt8) (dh : Nat → UInt8) : DhcpInfo :=
  ⟨.DHCP_ST_INIT, 500, 0, 0, {}, {}, dh, hwAddr, [], false, none, 0, none⟩

end DhcpInfo

def dhcpMachine : Machine.Step DhcpInfo DhcpEvent DhcpObs := fun s ev => (some (s.step ev).1, (s.step ev).2)

end TnNet.Dhcp
