import TnNet.Dhcp.Format

/-!
# Clients and servers

Any number of clients and servers on one net.  What the servers have sent stays there: a client may get
it late, more than once, in another order, or never.  Of a server it is known that it leases no address
to two stations, and that it acknowledges the REQUEST of a station whose address it has leased to it,
with the number of that REQUEST; all else it may send.  The clients draw the number of an exchange anew.

* `leases_unique` — in every run, the address of an interface is 0 or was leased to it; so no two
  clients have one address.
-/

set_option autoImplicit false

namespace TnNet.Dhcp

namespace DhcpInfo

/-! ## The statement -/

/-- A message, as a server reads it. -/
abbrev Message := Nat → UInt8

def msg (data : List UInt8) : Message := fun i => data.getD i 0

def dhXid (m : Message) : BitVec 32 := word m 4

def dhCiaddr (m : Message) : BitVec 32 := word m 12

def dhChaddr (m : Message) : List UInt8 := (List.range 6).map fun i => m (28 + i)

/-- The data of an option. -/
def optData (m : Message) (tag : UInt8) : Option (List UInt8) :=
  (readOptions m DHCP_OPTIONS_SIZE 4).findSome? fun o =>
    match o with
    | .pad => none
    | .option t data => if t = tag then some data else none

/-- The address that a REQUEST asks for: the one that was offered, or the one that is renewed. -/
def requestedIp (m : Message) : BitVec 32 :=
  ((optData m DHCP_OPT_REQUESTED_IP_ADDR).map be32).getD (dhCiaddr m)

/-- The states the task enters when it has sent a REQUEST. -/
def asksIn (st : DhcpState) : Bool :=
  match st with
  | .DHCP_ST_REBOOTING | .DHCP_ST_REQUESTING | .DHCP_ST_RENEWING | .DHCP_ST_REBINDING => true
  | .DHCP_ST_INIT | .DHCP_ST_SELECTING | .DHCP_ST_BOUND | .DHCP_ST_INITREBOOT => false

/-- The REQUEST that a step has sent: it is still in the buffer. -/
def requests (s s' : DhcpInfo) : List Message :=
  if s'.state ≠ s.state ∧ asksIn s'.state then [s'.dh] else []

end DhcpInfo

open DhcpInfo

structure DhcpNet (n : Nat) where
  client : Fin n → DhcpInfo
  /-- What the servers have sent. -/
  sent : List (List UInt8)
  asked : List Message
  /-- The addresses that were leased, with the hardware address of the station. -/
  leases : List (BitVec 32 × List UInt8)

inductive NetEvent (n : Nat) where
  | client (i : Fin n) (ev : DhcpEvent)
  | lease (ip : BitVec 32) (hwAddr : List UInt8)
  | serve (data : List UInt8)

namespace DhcpNet

variable {n : Nat}

def step (s : DhcpNet n) : NetEvent n → DhcpNet n
  | .client i ev =>
    let c := ((s.client i).step ev).1
    { s with client := Function.update s.client i c, asked := requests (s.client i) c ++ s.asked }
  | .lease ip hwAddr => { s with leases := (ip, hwAddr) :: s.leases }
  | .serve data => { s with sent := data :: s.sent }

/-- Behind `dhcp_init` of every client. -/
def start (hwAddr : Fin n → List UInt8) (dh : Fin n → Nat → UInt8) : DhcpNet n :=
  ⟨fun i => DhcpInfo.start (hwAddr i) (dh i), [], [], []⟩

/-- The number of an exchange was in no REQUEST of the client. -/
def New (s : DhcpNet n) (i : Fin n) (xid : BitVec 32) : Prop :=
  ∀ m ∈ s.asked, dhChaddr m = (s.client i).hwAddr → dhXid m ≠ xid

/-- An ACK answers the REQUEST of a station that has a lease. -/
def Acknowledges (s : DhcpNet n) (data : List UInt8) : Prop :=
  ∃ m ∈ s.asked, dhXid m = dhXid (msg data) ∧ dhChaddr m = dhChaddr (msg data) ∧
    (requestedIp m, dhChaddr m) ∈ s.leases

end DhcpNet

/-- What the net and the servers do. -/
def Served {n : Nat} (s : DhcpNet n) : NetEvent n → Prop
  | .client i ev =>
    match ev with
    | .tick => True
    | .arrive data => data ∈ s.sent
    | .receive xid | .timeout xid | .checked _ xid => s.New i xid
  | .lease ip hwAddr => ∀ other, (ip, other) ∈ s.leases → other = hwAddr
  | .serve data => isType (msg data) DHCP_ACK → s.Acknowledges data

def netMachine (n : Nat) : Machine.Step (DhcpNet n) (NetEvent n) Empty := fun s ev => (some (s.step ev), [])

/-! ## What a REQUEST says -/

namespace DhcpInfo

variable {s : DhcpInfo} {xid : BitVec 32} {opts : List UInt8}

/-- `ciaddr` of a message. -/
def ciaddr (s : DhcpInfo) : BitVec 32 :=
  if s.state = .DHCP_ST_BOUND ∨ s.state = .DHCP_ST_RENEWING ∨ s.state = .DHCP_ST_REBINDING then s.cur.ipAddr
  else 0

theorem length_header (hhw : s.hwAddr.length = 6) : s.dhcpFillHeader.length = 240 := by
  unfold dhcpFillHeader bytes32
  simp only [List.length_append, List.length_replicate, List.length_cons, List.length_nil,
    List.length_take, hhw]
  rfl

theorem fill_header (hhw : s.hwAddr.length = 6) {k : Nat} (hk : k < 240) :
    (s.fill opts).dh k = s.dhcpFillHeader.getD k 0 := by
  have hsize : k < dhcpSize := by unfold dhcpSize; omega
  unfold fill
  dsimp only
  rw [if_pos hsize, List.getD_append _ _ _ _ (by rw [length_header hhw]; omega)]

/-- The header and the options of a message. -/
theorem fill_reads (hhw : s.hwAddr.length = 6) (hlen : opts.length ≤ 308) :
    dhXid (s.fill opts).dh = s.dXid ∧ dhCiaddr (s.fill opts).dh = s.ciaddr ∧
      dhChaddr (s.fill opts).dh = s.hwAddr ∧ At (opt (s.fill opts).dh) 4 opts := by
  have hheader : At (s.fill opts).dh 0 s.dhcpFillHeader := by
    intro k hk
    rw [length_header hhw] at hk
    rw [Nat.zero_add, fill_header hhw hk]
  unfold dhcpFillHeader at hheader
  have hxid := hheader.left.left.left.left.left.left.left.right
  have hciaddr := hheader.left.left.left.left.left.right
  have hchaddr := hheader.left.left.left.right
  rw [List.take_of_length_le (Nat.le_of_eq hhw)] at hchaddr
  change At _ 4 _ at hxid
  change At _ 12 (bytes32 s.ciaddr) at hciaddr
  change At _ 28 _ at hchaddr
  refine ⟨?_, ?_, ?_, ?_⟩
  · rw [← be32_bytes32 s.dXid]
    exact hxid.word (Nat.le_refl 4)
  · rw [← be32_bytes32 s.ciaddr]
    exact hciaddr.word (Nat.le_refl 4)
  · have hread := hchaddr.read
    rwa [hhw] at hread
  · intro k hk
    have hsize : 236 + (4 + k) < dhcpSize := by unfold dhcpSize; omega
    have hidx : 236 + (4 + k) - 240 = k := by omega
    unfold opt fill
    dsimp only
    rw [if_pos hsize, List.getD_append_right _ _ _ _ (by rw [length_header hhw]; omega),
      length_header hhw, hidx]

/-- The items of a REQUEST. -/
def requestItems (s : DhcpInfo) : List OptItem :=
  [.option DHCP_OPT_MSG_TYPE [DHCP_REQUEST]] ++
    (if s.state = .DHCP_ST_SELECTING then [.option DHCP_OPT_SRV_IDENTIFIER
      (bytes32 s.d.dDhcpServerAddr)] else []) ++
    (if s.state = .DHCP_ST_SELECTING then [.option DHCP_OPT_REQUESTED_IP_ADDR (bytes32 s.d.dOfferIpAddr)]
      else if s.state = .DHCP_ST_INITREBOOT then [.option DHCP_OPT_REQUESTED_IP_ADDR
        (bytes32 s.dCurrIpAddr)]
      else []) ++
    [.option DHCP_OPT_CLIENT_ID (1 :: s.hwAddr)] ++
    (if s.cur.leaseTime ≠ 0 ∧ s.cur.leaseTime ≠ DHCP_INFINITE_LEASE then
      [.option DHCP_OPT_IP_ADDR_LEASE_TIME (bytes32 s.cur.leaseTime)] else [])

theorem encode_word (tag : UInt8) (x : BitVec 32) :
    (OptItem.option tag (bytes32 x)).encode = [tag, 4] ++ bytes32 x :=
  rfl

theorem encode_requestItems (hhw : s.hwAddr.length = 6) :
    encodeOptions s.requestItems = [DHCP_OPT_MSG_TYPE, 1, DHCP_REQUEST] ++
      (if s.state = .DHCP_ST_SELECTING then [DHCP_OPT_SRV_IDENTIFIER, 4] ++
        bytes32 s.d.dDhcpServerAddr else []) ++
      (if s.state = .DHCP_ST_SELECTING then [DHCP_OPT_REQUESTED_IP_ADDR, 4] ++ bytes32 s.d.dOfferIpAddr
        else if s.state = .DHCP_ST_INITREBOOT then [DHCP_OPT_REQUESTED_IP_ADDR, 4] ++
        bytes32 s.dCurrIpAddr else []) ++
      s.clientId ++
      (if s.cur.leaseTime ≠ 0 ∧ s.cur.leaseTime ≠ DHCP_INFINITE_LEASE then
        [DHCP_OPT_IP_ADDR_LEASE_TIME, 4] ++ bytes32 s.cur.leaseTime else []) ++
      [DHCP_OPT_END] := by
  have hid : (OptItem.option DHCP_OPT_CLIENT_ID (1 :: s.hwAddr)).encode = s.clientId := by
    unfold clientId OptItem.encode
    dsimp only
    rw [List.take_of_length_le (Nat.le_of_eq hhw), List.length_cons, hhw]
    rfl
  unfold encodeOptions requestItems
  simp only [List.flatMap_append, List.flatMap_singleton, List.flatMap_nil,
    apply_ite (List.flatMap OptItem.encode), encode_word, hid]
  rfl

/-- `dhcp_request` writes the items behind the header. -/
theorem dhcpRequest_fill (s : DhcpInfo) (xid : BitVec 32) (hhw : s.hwAddr.length = 6) :
    s.dhcpRequest xid = DhcpInfo.fill (if s.state = .DHCP_ST_SELECTING then s else { s with dXid := xid })
      (encodeOptions s.requestItems) := by
  rw [encode_requestItems hhw]
  unfold dhcpRequest
  by_cases hsel : s.state = .DHCP_ST_SELECTING
  · simp only [if_pos hsel]
  · simp only [if_neg hsel]
    rfl

theorem requestItems_fit (hhw : s.hwAddr.length = 6) : ∀ o ∈ s.requestItems, o.Fits := by
  have hword : ∀ (t : UInt8) (x : BitVec 32), t ≠ DHCP_OPT_PAD → t ≠ DHCP_OPT_END →
      (OptItem.option t (bytes32 x)).Fits := fun t x h1 h2 => ⟨h1, h2, by simp [bytes32]⟩
  intro o ho
  unfold requestItems at ho
  simp only [List.mem_append, List.mem_singleton] at ho
  rcases ho with (((rfl | ho) | ho) | rfl) | ho
  · decide
  · split at ho
    · rw [List.mem_singleton.mp ho]
      exact hword _ _ (by decide) (by decide)
    · cases ho
  · split at ho
    · rw [List.mem_singleton.mp ho]
      exact hword _ _ (by decide) (by decide)
    · split at ho
      · rw [List.mem_singleton.mp ho]
        exact hword _ _ (by decide) (by decide)
      · cases ho
  · exact ⟨by decide, by decide, by rw [List.length_cons, hhw]; decide⟩
  · split at ho
    · rw [List.mem_singleton.mp ho]
      exact hword _ _ (by decide) (by decide)
    · cases ho

theorem length_requestItems (hhw : s.hwAddr.length = 6) : (encodeOptions s.requestItems).length ≤ 31 := by
  rw [encode_requestItems hhw]
  have hid : s.clientId.length = 9 := by simp [clientId, hhw]
  have hword : ∀ (t : UInt8) (x : BitVec 32), ([t, 4] ++ bytes32 x).length = 6 := fun t x => rfl
  have hlease : (if s.cur.leaseTime ≠ 0 ∧ s.cur.leaseTime ≠ DHCP_INFINITE_LEASE then
      [DHCP_OPT_IP_ADDR_LEASE_TIME, 4] ++ bytes32 s.cur.leaseTime else []).length ≤ 6 := by
    split
    · exact Nat.le_of_eq (hword _ _)
    · exact Nat.zero_le 6
  have hserver : (if s.state = .DHCP_ST_SELECTING then
      [DHCP_OPT_SRV_IDENTIFIER, 4] ++ bytes32 s.d.dDhcpServerAddr else []).length ≤ 6 := by
    split
    · exact Nat.le_of_eq (hword _ _)
    · exact Nat.zero_le 6
  have hip : (if s.state = .DHCP_ST_SELECTING then [DHCP_OPT_REQUESTED_IP_ADDR, 4] ++
      bytes32 s.d.dOfferIpAddr
      else if s.state = .DHCP_ST_INITREBOOT then [DHCP_OPT_REQUESTED_IP_ADDR, 4] ++ bytes32 s.dCurrIpAddr
      else []).length ≤ 6 := by
    split
    · exact Nat.le_of_eq (hword _ _)
    · split
      · exact Nat.le_of_eq (hword _ _)
      · exact Nat.zero_le 6
  simp only [List.length_append, hid, List.length_cons, List.length_nil] at hlease hserver hip ⊢
  omega

/-- **What a server reads of a REQUEST.** -/
theorem dhcpRequest_reads (s : DhcpInfo) (xid : BitVec 32) (hhw : s.hwAddr.length = 6)
    (hst : s.state ≠ .DHCP_ST_INITREBOOT) :
    (dhXid (s.dhcpRequest xid).dh = if s.state = .DHCP_ST_SELECTING then s.dXid else xid) ∧
      dhChaddr (s.dhcpRequest xid).dh = s.hwAddr ∧
      requestedIp (s.dhcpRequest xid).dh = if s.state = .DHCP_ST_SELECTING then s.d.dOfferIpAddr
      else s.ciaddr := by
  have hlen := length_requestItems hhw
  rw [dhcpRequest_fill s xid hhw]
  generalize hs0 : (if s.state = .DHCP_ST_SELECTING then s else { s with dXid := xid }) = s0
  have hhw0 : s0.hwAddr = s.hwAddr ∧ s0.ciaddr = s.ciaddr ∧
      s0.dXid = if s.state = .DHCP_ST_SELECTING then s.dXid else xid := by
    rw [← hs0]
    split
    · exact ⟨rfl, rfl, rfl⟩
    · exact ⟨rfl, rfl, rfl⟩
  obtain ⟨hx, hc, hch, hat⟩ :=
    @fill_reads s0 (encodeOptions s.requestItems) (by rw [hhw0.1, hhw]) (by omega)
  refine ⟨by rw [hx, hhw0.2.2], by rw [hch, hhw0.1], ?_⟩
  have hcount := length_encodeOptions s.requestItems
  have hread := readOptions_encode (requestItems_fit hhw) hat (by unfold DHCP_OPTIONS_SIZE; omega)
    (show s.requestItems.length < DHCP_OPTIONS_SIZE by unfold DHCP_OPTIONS_SIZE; omega)
  unfold requestedIp optData
  rw [hread, hc, hhw0.2.1]
  unfold requestItems
  by_cases hsel : s.state = .DHCP_ST_SELECTING
  · rw [if_pos hsel, if_pos hsel, if_pos hsel]
    exact be32_bytes32 s.d.dOfferIpAddr
  · rw [if_neg hsel, if_neg hsel, if_neg hsel, if_neg hst]
    split
    · rfl
    · rfl

/-! ## What becomes of a datagram -/

/-- What becomes of a datagram, with what an ACK says and the REQUEST that an OFFER leads to. -/
inductive Outcome (s : DhcpInfo) (data : List UInt8) (xid : BitVec 32) : DhcpInfo → Prop
  | ack (h : s.asks) (number : dhXid (msg data) = s.dXid) (station : dhChaddr (msg data) = s.hwAddr)
    (type : isType (msg data) DHCP_ACK) :
    Outcome s data xid { s.recvfrom data with
      saveIpAddr := some s.cur.ipAddr, cur := { s.cur with ipAddr := s.d.dOfferIpAddr } }
  | nak : Outcome s data xid (s.recvfrom data).dhcpPrepareInitState
  | offer (d : Working) (h : s.state = .DHCP_ST_SELECTING) :
    Outcome s data xid { ({ s.recvfrom data with d := d, rxTimeout := 200 } : DhcpInfo).dhcpRequest xid with
      state := .DHCP_ST_REQUESTING }
  | refused (d : Working) (h : s.state = .DHCP_ST_SELECTING) :
    Outcome s data xid { s.recvfrom data with d := d, rxTimeout := 200 }
  | ignored : Outcome s data xid (s.recvfrom data)

theorem onData_outcome (xid : BitVec 32) (hhw : s.hwAddr.length = 6) (data : List UInt8) :
    Outcome s data xid (s.onData data xid).1 := by
  unfold onData
  dsimp only
  split
  · rename_i hfor
    obtain ⟨hmost, hleast, -, hxid, hchaddr⟩ := hfor
    unfold DHCP_MIN_SIZE at hleast
    -- the buffer begins with the datagram
    have hdh : ∀ i < 280, (s.recvfrom data).dh i = msg data i := fun i hi =>
      if_pos (Nat.lt_min.mpr ⟨by omega, by unfold dhcpSize; omega⟩)
    split
    · rename_i hack
      unfold onAck
      split
      · rename_i hst
        refine .ack hst ?_ ?_ ?_
        · rw [← show word (s.recvfrom data).dh 4 = s.dXid from hxid]
          unfold dhXid word
          rw [hdh _ (by decide), hdh _ (by decide), hdh _ (by decide), hdh _ (by decide)]
        · refine List.ext_getElem (by simp [dhChaddr, hhw]) fun k hk hk' => ?_
          unfold dhChaddr at hk ⊢
          have hk6 : k < 6 := by rwa [hhw] at hk'
          rw [List.getElem_map, List.getElem_range, ← hdh _ (by omega)]
          have h := hchaddr k hk6
          rwa [show (s.recvfrom data).hwAddr = s.hwAddr from rfl, List.getD_eq_getElem _ _ hk'] at h
        · unfold isType opt at hack ⊢
          rwa [hdh _ (by decide), hdh _ (by decide), hdh _ (by decide)] at hack
      · exact .ignored
    · split
      · unfold onNak
        split
        · exact .nak
        · exact .ignored
      · unfold onOffer
        split
        · rename_i hst
          dsimp only
          split
          · exact .offer _ hst
          · exact .refused _ hst
        · exact .ignored
  · exact .ignored

/-! ## One client -/

/-- A client on the net: its address was leased to it, and so was the one that it checks; a REQUEST with
    the number of the exchange asks for the address that was offered. -/
structure ClientInv (hw : List UInt8) (sent : List (List UInt8)) (asked : List Message)
    (leases : List (BitVec 32 × List UInt8)) (c : DhcpInfo) : Prop where
  own : c.hwAddr = hw
  state : c.state ≠ .DHCP_ST_INITREBOOT ∧ c.state ≠ .DHCP_ST_REBOOTING
  ip : c.cur.ipAddr = 0 ∨ (c.cur.ipAddr, hw) ∈ leases
  save : ∀ a ∈ c.saveIpAddr, (a = 0 ∨ (a, hw) ∈ leases) ∧ (c.d.dOfferIpAddr, hw) ∈ leases
  bound : c.state = .DHCP_ST_BOUND ∨ c.state = .DHCP_ST_RENEWING ∨ c.state = .DHCP_ST_REBINDING →
    c.cur.ipAddr = c.d.dOfferIpAddr
  selecting : c.state = .DHCP_ST_SELECTING → ∀ m ∈ asked, dhChaddr m = hw → dhXid m ≠ c.dXid
  asking : asksIn c.state = true → ∀ m ∈ asked, dhChaddr m = hw → dhXid m = c.dXid →
    requestedIp m = c.d.dOfferIpAddr
  queue : ∀ data, Item.data data ∈ c.queue → data ∈ sent

variable {hw : List UInt8} {sent : List (List UInt8)} {asked : List Message}
  {leases : List (BitVec 32 × List UInt8)} {c : DhcpInfo} {data : List UInt8}

/-- The client behind a step, with the REQUEST that it has sent. -/
def Stays (hw : List UInt8) (sent : List (List UInt8)) (asked : List Message)
    (leases : List (BitVec 32 × List UInt8)) (c c' : DhcpInfo) : Prop :=
  ClientInv hw sent (requests c c' ++ asked) leases c' ∧ ∀ m ∈ requests c c', dhChaddr m = hw

theorem stays_of_same {c' : DhcpInfo} (hst : c'.state = c.state) (h : ClientInv hw sent asked leases c') :
    Stays hw sent asked leases c c' := by
  have hno : requests c c' = [] := if_neg fun hr => hr.1 hst
  rw [Stays, hno]
  exact ⟨h, fun m hm => nomatch hm⟩

theorem stays_of_rest {c' : DhcpInfo} (hst : asksIn c'.state = false)
    (h : ClientInv hw sent asked leases c') : Stays hw sent asked leases c c' := by
  have hno : requests c c' = [] := if_neg fun hr => by simp [hst] at hr
  rw [Stays, hno]
  exact ⟨h, fun m hm => nomatch hm⟩

/-- The client starts anew. -/
theorem ClientInv.init (h : ClientInv hw sent asked leases c) (hsave : c.saveIpAddr = none) :
    ClientInv hw sent asked leases c.dhcpPrepareInitState where
  own := h.own
  state := ⟨nofun, nofun⟩
  ip := h.ip
  save a ha := by
    rw [show c.dhcpPrepareInitState.saveIpAddr = none from hsave] at ha
    cases ha
  bound hst := by rcases hst with hst | hst | hst <;> cases hst
  selecting hst := nomatch hst
  asking hst := nomatch hst
  queue := h.queue

/-- A REQUEST is sent. -/
theorem ClientInv.request (h : ClientInv hw sent asked leases c) (hlen : hw.length = 6)
    (hnew : ∀ m ∈ asked, dhChaddr m = hw → dhXid m ≠ xid) (st : DhcpState)
    (hst : (c.state = .DHCP_ST_SELECTING ∧ st = .DHCP_ST_REQUESTING) ∨
      ((c.state = .DHCP_ST_BOUND ∨ c.state = .DHCP_ST_RENEWING) ∧ c.state ≠ st ∧
        (st = .DHCP_ST_RENEWING ∨ st = .DHCP_ST_REBINDING))) {c0 : DhcpInfo} (hc0 : c0.state = c.state) :
    Stays hw sent asked leases c0 { c.dhcpRequest xid with state := st } := by
  obtain ⟨hx, hch, hip⟩ := dhcpRequest_reads c xid (by rw [h.own, hlen]) h.state.1
  obtain ⟨dh, x, hreq⟩ := dhcpRequest_eq c xid
  have hnum : dhXid (c.dhcpRequest xid).dh = (c.dhcpRequest xid).dXid := by
    rw [hx, dhcpRequest_fill c xid (by rw [h.own, hlen])]
    unfold fill
    dsimp only
    split <;> rfl
  rw [hreq] at hx hch hip hnum ⊢
  dsimp only at hx hch hip hnum
  have hask : asksIn st = true := by
    rcases hst with ⟨-, rfl⟩ | ⟨-, -, rfl | rfl⟩ <;> rfl
  have hne : st ≠ c0.state := by
    rw [hc0]
    rcases hst with ⟨h1, rfl⟩ | ⟨-, h1, -⟩
    · rw [h1]
      nofun
    · exact h1.symm
  have hrequests : requests c0 { c with dh := dh, dXid := x, state := st } = [dh] := if_pos ⟨hne, hask⟩
  -- the address is the one that was offered
  have hoffer : requestedIp dh = c.d.dOfferIpAddr := by
    rw [hip]
    split
    · rfl
    · rename_i hsel
      rcases hst with ⟨h1, -⟩ | ⟨h1, -, -⟩
      · exact absurd h1 hsel
      · have hb : c.state = .DHCP_ST_BOUND ∨ c.state = .DHCP_ST_RENEWING ∨ c.state = .DHCP_ST_REBINDING :=
          h1.imp_right .inl
        unfold ciaddr
        rw [if_pos hb, h.bound hb]
  -- no earlier REQUEST has its number
  have hold : ∀ m ∈ asked, dhChaddr m = hw → dhXid m ≠ x := by
    intro m hm hmw
    rw [← hnum, hx]
    split
    · rename_i hsel
      exact h.selecting hsel m hm hmw
    · exact hnew m hm hmw
  rw [Stays, hrequests]
  refine ⟨⟨h.own, ?_, h.ip, ?_, ?_, ?_, ?_, h.queue⟩, ?_⟩
  · rcases hst with ⟨-, rfl⟩ | ⟨-, -, rfl | rfl⟩ <;> exact ⟨nofun, nofun⟩
  · exact h.save
  · intro hb
    rcases hst with ⟨-, rfl⟩ | ⟨h1, -, -⟩
    · rcases hb with hb | hb | hb <;> cases hb
    · exact h.bound (h1.imp_right .inl)
  · intro hs
    rcases hst with ⟨-, rfl⟩ | ⟨-, -, rfl | rfl⟩ <;> cases hs
  · intro _ m hm hmw hmx
    rcases List.mem_cons.mp hm with rfl | hm
    · exact hoffer
    · exact absurd hmx (hold m hm hmw)
  · intro m hm
    rw [List.mem_singleton.mp hm, hch, h.own]

/-- An OFFER, or what is taken for one, is read while the task selects. -/
theorem ClientInv.reads (h : ClientInv hw sent asked leases c) (hsel : c.state = .DHCP_ST_SELECTING)
    (hsave : c.saveIpAddr = none) (d : Working) :
    ClientInv hw sent asked leases { c.recvfrom data with d := d, rxTimeout := 200 } := by
  refine ⟨h.own, h.state, h.ip, fun a ha => ?_, fun hb => ?_, h.selecting, fun hask => ?_, h.queue⟩
  · change a ∈ c.saveIpAddr at ha
    rw [hsave] at ha
    cases ha
  · change c.state = _ ∨ c.state = _ ∨ c.state = _ at hb
    rw [hsel] at hb
    rcases hb with hb | hb | hb <;> cases hb
  · change asksIn c.state = true at hask
    rw [hsel] at hask
    cases hask

/-- A datagram. -/
theorem ClientInv.onData (h : ClientInv hw sent asked leases c) (hlen : hw.length = 6)
    (hsave : c.saveIpAddr = none) (hnew : ∀ m ∈ asked, dhChaddr m = hw → dhXid m ≠ xid)
    (hack : isType (msg data) DHCP_ACK → ∃ m ∈ asked,
      dhXid m = dhXid (msg data) ∧ dhChaddr m = dhChaddr (msg data) ∧
      (requestedIp m, dhChaddr m) ∈ leases) : Stays hw sent asked leases c (c.onData data xid).1 := by
  have hout := onData_outcome xid (s := c) (by rw [h.own, hlen]) data
  generalize (c.onData data xid).1 = c' at hout
  have hrecv : ClientInv hw sent asked leases (c.recvfrom data) :=
    ⟨h.own, h.state, h.ip, h.save, h.bound, h.selecting, h.asking, h.queue⟩
  cases hout with
  | ack hasks number station type =>
    refine stays_of_same rfl ?_
    obtain ⟨m, hm, hmx, hmw, hlease⟩ := hack type
    have hask : asksIn c.state = true := by
      rcases hasks with hst | hst | hst | hst <;> rw [hst] <;> rfl
    have hmw' : dhChaddr m = hw := by rw [hmw, station, h.own]
    have hip := h.asking hask m hm hmw' (hmx.trans number)
    rw [hip, hmw'] at hlease
    refine ⟨h.own, h.state, .inr hlease, fun a ha => ?_, fun _ => rfl, h.selecting, h.asking, h.queue⟩
    cases ha
    exact ⟨h.ip, hlease⟩
  | nak => exact stays_of_rest rfl (hrecv.init hsave)
  | offer d hsel =>
    exact (h.reads hsel hsave d).request hlen hnew .DHCP_ST_REQUESTING (.inl ⟨hsel, rfl⟩) rfl
  | refused d hsel => exact stays_of_same rfl (h.reads hsel hsave d)
  | ignored => exact stays_of_same rfl hrecv

theorem ClientInv.onT1 (h : ClientInv hw sent asked leases c) (hlen : hw.length = 6)
    (hnew : ∀ m ∈ asked, dhChaddr m = hw → dhXid m ≠ xid) :
    Stays hw sent asked leases c (c.onT1 xid) := by
  unfold DhcpInfo.onT1
  split
  · rename_i hst
    have h5 : ClientInv hw sent asked leases { c with rxTimeout := 500 } :=
      ⟨h.own, h.state, h.ip, h.save, h.bound, h.selecting, h.asking, h.queue⟩
    refine h5.request hlen hnew .DHCP_ST_RENEWING (.inr ⟨.inl hst.2, ?_, .inl rfl⟩) rfl
    rw [show ({ c with rxTimeout := 500 } : DhcpInfo).state = c.state from rfl, hst.2]
    nofun
  · exact stays_of_same rfl h

theorem ClientInv.onT2 (h : ClientInv hw sent asked leases c) (hlen : hw.length = 6)
    (hsave : c.saveIpAddr = none) (hnew : ∀ m ∈ asked, dhChaddr m = hw → dhXid m ≠ xid) :
    Stays hw sent asked leases c (c.onT2 xid) := by
  unfold DhcpInfo.onT2
  split
  · split
    · rename_i hst
      have h5 : ClientInv hw sent asked leases { c with rxTimeout := 500 } :=
        ⟨h.own, h.state, h.ip, h.save, h.bound, h.selecting, h.asking, h.queue⟩
      refine h5.request hlen hnew .DHCP_ST_REBINDING (.inr ⟨.inr hst, ?_, .inr rfl⟩) rfl
      rw [show ({ c with rxTimeout := 500 } : DhcpInfo).state = c.state from rfl, hst]
      nofun
    · split
      · exact stays_of_rest rfl (h.init hsave)
      · exact stays_of_same rfl h
  · exact stays_of_same rfl h

theorem ClientInv.onTimeout (h : ClientInv hw sent asked leases c) (hsave : c.saveIpAddr = none)
    (hnew : ∀ m ∈ asked, dhChaddr m = hw → dhXid m ≠ xid) :
    Stays hw sent asked leases c (c.onTimeout xid) := by
  unfold DhcpInfo.onTimeout
  split
  · rename_i hst
    exact absurd hst h.state.1
  · refine stays_of_rest rfl ⟨h.own, ⟨nofun, nofun⟩, h.ip, h.save, fun hb => ?_, fun _ => hnew,
      fun hask => ?_, h.queue⟩
    · rcases hb with hb | hb | hb <;> cases hb
    · cases hask
  · exact stays_of_rest rfl (h.init hsave)
  · exact stays_of_rest rfl (h.init hsave)
  · exact stays_of_rest rfl (h.init hsave)
  · exact stays_of_rest rfl (h.init hsave)
  · exact stays_of_same rfl h
  · exact stays_of_same rfl h

/-- The address that was checked is taken, or given back. -/
theorem ClientInv.onChecked (h : ClientInv hw sent asked leases c) {a : BitVec 32}
    (hsave : c.saveIpAddr = some a)
    (dup : Bool) : Stays hw sent asked leases c (c.onChecked a dup xid).1 := by
  have hlease := (h.save a hsave).2
  unfold DhcpInfo.onChecked
  cases dup with
  | true =>
    refine stays_of_rest rfl
      ⟨h.own, ⟨nofun, nofun⟩, .inl rfl, fun b hb => (nomatch hb), fun hb => ?_, nofun, nofun, h.queue⟩
    rcases hb with hb | hb | hb <;> cases hb
  | false =>
    have hip : (recordDefaults c.d).dOfferIpAddr = c.d.dOfferIpAddr := by
      unfold recordDefaults
      grind
    have hrec : (recordFields c.d).ipAddr = c.d.dOfferIpAddr := hip
    refine stays_of_rest rfl
      ⟨h.own, ⟨nofun, nofun⟩, .inr ?_, fun b hb => (nomatch hb), fun _ => ?_, nofun, nofun, h.queue⟩
    · exact hrec ▸ hlease
    · exact hrec.trans hip.symm

theorem mem_countdown_data {room timeout : Nat} (item : Item) {queue : List Item}
    (hitem : item ≠ .data data)
    (h : Item.data data ∈ (countdown room timeout item queue).2) : Item.data data ∈ queue := by
  have hsend : ∀ {q : List Item}, Item.data data ∈ sendPolling room q item → Item.data data ∈ q := by
    intro q hq
    unfold sendPolling at hq
    split at hq
    · rcases List.mem_append.mp hq with hq | hq
      · exact hq
      · exact absurd (List.mem_singleton.mp hq).symm hitem
    · exact hq
  unfold countdown at h
  split at h
  · dsimp only at h
    split at h
    · exact hsend h
    · exact h
  · exact h

/-- A step of the client. -/
theorem ClientInv.step (h : ClientInv hw sent asked leases c) (hlen : hw.length = 6) (ev : DhcpEvent)
    (hnew : ∀ xid, (ev = .receive xid ∨ ev = .timeout xid ∨ ∃ dup, ev = .checked dup xid) →
      ∀ m ∈ asked, dhChaddr m = hw → dhXid m ≠ xid)
    (harrive : ∀ data, ev = .arrive data → data ∈ sent)
    (hack : ∀ data ∈ sent, isType (msg data) DHCP_ACK → ∃ m ∈ asked, dhXid m = dhXid (msg data) ∧
      dhChaddr m = dhChaddr (msg data) ∧ (requestedIp m, dhChaddr m) ∈ leases) :
    Stays hw sent asked leases c (c.step ev).1 := by
  have hidle : ∀ b q w, (∀ data, Item.data data ∈ q → data ∈ sent) →
      ClientInv hw sent asked leases { c with queue := q, handed := b, waited := w } := fun b q w hq =>
    ⟨h.own, h.state, h.ip, h.save, h.bound, h.selecting, h.asking, hq⟩
  cases ev with
  | tick =>
    refine stays_of_same rfl ⟨h.own, h.state, h.ip, h.save, h.bound, h.selecting, h.asking,
      fun data hd => ?_⟩
    exact h.queue data (mem_countdown_data .DHCP_T1_EXPIRED_EVENT nofun
      (mem_countdown_data .DHCP_T2_EXPIRED_EVENT nofun hd))
  | arrive data =>
    refine stays_of_same rfl ⟨h.own, h.state, h.ip, h.save, h.bound, h.selecting, h.asking,
      fun data' hd => ?_⟩
    change Item.data data' ∈ sendPolling c.room c.queue (.data data) at hd
    unfold sendPolling at hd
    split at hd
    · rcases List.mem_append.mp hd with hd | hd
      · exact h.queue data' hd
      · cases List.mem_singleton.mp hd
        exact harrive data rfl
    · exact h.queue data' hd
  | receive xid =>
    have hx := hnew xid (.inl rfl)
    unfold DhcpInfo.step
    dsimp only
    split
    · rename_i hw
      have hsave : c.saveIpAddr = none := Option.isNone_iff_eq_none.mp hw
      cases hq : c.queue with
      | nil => exact stays_of_same rfl h
      | cons item q =>
        have hi := hidle false q 0 fun data hd => h.queue data (hq ▸ List.mem_cons_of_mem item hd)
        cases item with
        | DHCP_T1_EXPIRED_EVENT => exact hi.onT1 hlen hx
        | DHCP_T2_EXPIRED_EVENT => exact hi.onT2 hlen hsave hx
        | data bytes => exact hi.onData hlen hsave hx (hack bytes (h.queue bytes (hq ▸ List.mem_cons_self)))
    · exact stays_of_same rfl h
  | timeout xid =>
    have hx := hnew xid (.inr (.inl rfl))
    unfold DhcpInfo.step
    dsimp only
    split
    · rename_i hw
      exact (hidle c.handed c.queue 0 h.queue).onTimeout (Option.isNone_iff_eq_none.mp hw.1) hx
    · exact stays_of_same rfl h
  | checked dup xid =>
    unfold DhcpInfo.step
    dsimp only
    cases hsave : c.saveIpAddr with
    | none => exact stays_of_same rfl h
    | some a => exact (hidle c.handed c.queue 0 h.queue).onChecked hsave dup

end DhcpInfo

/-! ## The net -/

variable {n : Nat} {hw : Fin n → List UInt8}

/-- The clients, what the servers have sent, and what they have leased. -/
structure NetInv (hw : Fin n → List UInt8) (s : DhcpNet n) : Prop where
  client : ∀ i, ClientInv (hw i) s.sent s.asked s.leases (s.client i)
  acks : ∀ data ∈ s.sent, isType (msg data) DHCP_ACK → s.Acknowledges data
  single : ∀ ip a b, (ip, a) ∈ s.leases → (ip, b) ∈ s.leases → a = b

/-- More was sent, asked for by others, and leased. -/
theorem DhcpInfo.ClientInv.mono {hw : List UInt8} {sent sent' : List (List UInt8)} {asked : List Message}
    {leases leases' : List (BitVec 32 × List UInt8)} {c : DhcpInfo} (h : ClientInv hw sent asked leases c)
    (more : List Message) (hsent : ∀ data ∈ sent, data ∈ sent')
    (hmore : ∀ m ∈ more, dhChaddr m ≠ hw)
    (hleases : ∀ l ∈ leases, l ∈ leases') : ClientInv hw sent' (more ++ asked) leases' c where
  own := h.own
  state := h.state
  ip := h.ip.imp_right (hleases _)
  save a ha := ⟨(h.save a ha).1.imp_right (hleases _), hleases _ (h.save a ha).2⟩
  bound := h.bound
  selecting hs m hm hmw := by
    rcases List.mem_append.mp hm with hm | hm
    · exact absurd hmw (hmore m hm)
    · exact h.selecting hs m hm hmw
  asking hs m hm hmw := by
    rcases List.mem_append.mp hm with hm | hm
    · exact absurd hmw (hmore m hm)
    · exact h.asking hs m hm hmw
  queue data hd := hsent data (h.queue data hd)

theorem step_netInv {s : DhcpNet n} {ev : NetEvent n} (hlen : ∀ i, (hw i).length = 6)
    (hinj : Function.Injective hw) (hi : NetInv hw s) (hg : Served s ev) : NetInv hw (s.step ev) := by
  cases ev with
  | client i ev =>
    have hstep : Stays (hw i) s.sent s.asked s.leases (s.client i) ((s.client i).step ev).1 := by
      refine (hi.client i).step (hlen i) ev ?_ ?_ fun data hd => hi.acks data hd
      · intro xid hev m hm hmw
        have hnew : s.New i xid := by
          rcases hev with rfl | rfl | ⟨dup, rfl⟩ <;> exact hg
        exact hnew m hm (hmw.trans (hi.client i).own.symm)
      · rintro data rfl
        exact hg
    generalize hc : ((s.client i).step ev).1 = c at hstep
    obtain ⟨hinv, hmine⟩ := hstep
    have hs : s.step (.client i ev) = { s with
        client := Function.update s.client i c, asked := requests (s.client i) c ++ s.asked } := by
      rw [← hc]
      rfl
    rw [hs]
    refine ⟨fun j => ?_, fun data hd hack => ?_, hi.single⟩
    · by_cases hj : j = i
      · subst hj
        change ClientInv (hw j) s.sent (requests (s.client j) c ++ s.asked) s.leases
          (Function.update s.client j c j)
        rw [Function.update_self]
        exact hinv
      · change ClientInv (hw j) s.sent (requests (s.client i) c ++ s.asked) s.leases
          (Function.update s.client i c j)
        rw [Function.update_of_ne hj]
        exact (hi.client j).mono _ (fun _ h => h) (fun m hm h => hj (hinj (h.symm.trans (hmine m hm))))
          fun _ h => h
    · obtain ⟨m, hm, hrest⟩ := hi.acks data hd hack
      exact ⟨m, List.mem_append_right _ hm, hrest⟩
  | lease ip hwAddr =>
    refine ⟨fun j => (hi.client j).mono [] (fun _ h => h) (fun m hm => nomatch hm) fun _ h =>
      List.mem_cons_of_mem _ h, fun data hd hack => ?_, fun ip' a b ha hb => ?_⟩
    · obtain ⟨m, hm, hx, hch, hl⟩ := hi.acks data hd hack
      exact ⟨m, hm, hx, hch, List.mem_cons_of_mem _ hl⟩
    · rcases List.mem_cons.mp ha with ha | ha
      · rcases List.mem_cons.mp hb with hb | hb
        · rw [Prod.mk.injEq] at ha hb
          rw [ha.2, hb.2]
        · rw [Prod.mk.injEq] at ha
          exact ha.2.trans (hg b (ha.1 ▸ hb)).symm
      · rcases List.mem_cons.mp hb with hb | hb
        · rw [Prod.mk.injEq] at hb
          exact (hg a (hb.1 ▸ ha)).trans hb.2.symm
        · exact hi.single ip' a b ha hb
  | serve data =>
    refine ⟨fun j => (hi.client j).mono [] (fun _ h => List.mem_cons_of_mem _ h) (fun m hm => nomatch hm)
      fun _ h => h, fun data' hd hack => ?_, hi.single⟩
    rcases List.mem_cons.mp hd with rfl | hd
    · exact hg hack
    · exact hi.acks data' hd hack

theorem start_client (hw : List UInt8) (dh : Nat → UInt8) :
    ClientInv hw [] [] [] (DhcpInfo.start hw dh) where
  own := rfl
  state := ⟨nofun, nofun⟩
  ip := .inl rfl
  save _ h := nomatch h
  bound h := by rcases h with h | h | h <;> cases h
  selecting h := nomatch h
  asking h := nomatch h
  queue _ h := nomatch h

theorem start_netInv (dh : Fin n → Nat → UInt8) : NetInv hw (DhcpNet.start hw dh) where
  client i := start_client (hw i) (dh i)
  acks _ h := nomatch h
  single _ _ _ h := nomatch h

/-- **An address belongs to one client.** -/
theorem leases_unique (hw : Fin n → List UInt8) (hlen : ∀ i, (hw i).length = 6)
    (hinj : Function.Injective hw) (dh : Fin n → Nat → UInt8) (es : List (NetEvent n))
    (hg : Machine.Guarded (netMachine n) Served (some (DhcpNet.start hw dh)) es) :
    ∀ s ∈ (Machine.run (netMachine n) (some (DhcpNet.start hw dh)) es).1,
      (∀ i, (s.client i).cur.ipAddr ≠ 0 → ((s.client i).cur.ipAddr, hw i) ∈ s.leases) ∧
        ∀ i j, (s.client i).cur.ipAddr ≠ 0 →
        (s.client i).cur.ipAddr = (s.client j).cur.ipAddr → i = j := by
  intro s hs
  obtain ⟨hrun, -⟩ := Machine.run_invariant (NetInv hw) (fun _ => True)
    (fun s ev hi hc => ⟨fun s' h => by cases h; exact step_netInv hlen hinj hi hc, fun _ _ => trivial⟩)
    (fun s' h => by cases h; exact start_netInv dh) hg
  have hi := hrun s hs
  have hleased : ∀ i, (s.client i).cur.ipAddr ≠ 0 → ((s.client i).cur.ipAddr, hw i) ∈ s.leases :=
    fun i h0 =>
    (hi.client i).ip.resolve_left h0
  refine ⟨hleased, fun i j h0 heq => hinj ?_⟩
  exact hi.single _ _ _ (hleased i h0) (heq ▸ hleased j (heq ▸ h0))

instance (s : DhcpNet n) (i : Fin n) (xid : BitVec 32) : Decidable (s.New i xid) := by
  unfold DhcpNet.New
  infer_instance

instance (s : DhcpNet n) (data : List UInt8) : Decidable (s.Acknowledges data) := by
  unfold DhcpNet.Acknowledges
  infer_instance

/-- Two stations on the net. -/
def macs : Fin 2 → List UInt8 := ![ownMac, [0x10, 0x0C, 0xCC, 0x22, 0x33, 0x45]]

def quietNet : DhcpNet 2 := DhcpNet.start macs fun _ _ => 0

/-- The first station. -/
def first : Fin 2 := ⟨0, Nat.zero_lt_two⟩

/-- The first client obtains 192.168.0.10; the server has kept its word. -/
def obtains : List (NetEvent 2) :=
  [.client first (.timeout 7), .serve (offer60 []), .client first (.arrive (offer60 [])),
    .client first (.receive 1), .lease 0xC0A8000A ownMac, .serve (ack 7),
    .client first (.arrive (ack 7)), .client first (.receive 1), .client first (.checked false 1)]

example : ((Machine.run (netMachine 2) (some quietNet) obtains).1.map fun s =>
    (s.client first).cur.ipAddr) = some 0xC0A8000A := by decide +kernel

/-- The net when the first client has its address. -/
def obtained : DhcpNet 2 := obtains.foldl DhcpNet.step quietNet

theorem leases_unique_pair :
    (∀ i, (obtained.client i).cur.ipAddr ≠ 0 →
      ((obtained.client i).cur.ipAddr, macs i) ∈ obtained.leases) ∧
      ∀ i j, (obtained.client i).cur.ipAddr ≠ 0 →
      (obtained.client i).cur.ipAddr = (obtained.client j).cur.ipAddr →
        i = j := by
  refine leases_unique macs (by decide) (by decide) (fun _ _ => 0) obtains ?_ obtained rfl
  change Machine.Guarded _ _ _ [_, _, _, _, _, _, _, _, _]
  refine ⟨?_, ?_, ?_, ?_, ?_, ?_, ?_, ?_, ?_, trivial⟩
  · exact fun m hm => nomatch hm
  · exact fun h => absurd h (by decide +kernel)
  · exact List.mem_cons_self
  · exact fun m hm => nomatch hm
  · exact fun other h => nomatch h
  · exact fun _ => by decide +kernel
  · exact List.mem_cons_self
  · change DhcpNet.New _ first 1
    decide +kernel
  · change DhcpNet.New _ first 1
    decide +kernel

end TnNet.Dhcp
