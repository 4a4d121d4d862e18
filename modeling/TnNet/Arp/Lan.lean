import TnNet.Arp.Fresh

/-!
# Stations on one Ethernet

Any number of interfaces run `net_netif1_out_func`, `arp_request`, `arp_input` and `arp_timer_func` on
one Ethernet; other stations may be there that only tell of addresses they have.  The wire keeps every
ARP packet that was written: one that is late, or comes twice, or in another order, or never, is one
that is taken from the wire at another time.  The calls of different interfaces follow each other in any
order, and an address may be set anew at any time (by DHCP, or for `dhcp_chk_dup_IP`).  `arp_request`
may be called at any time: by `arp_resolve` behind `ARP_UNLOCK`, or by `dhcp_chk_dup_IP`.

* `lan_held` — in every run in which a chain that waits finds a block for its header, what is solved in
  a table, and the destination of every frame that is not for a group, is an address that a station has
  had for the next hop of that very chain; and `dup_own_ip_addr` is only set when two stations have had
  one address.

A chain that `arp_input` frees, since there is no block for its header, stays in `la_hold`, and its
blocks may be those of another chain when it is sent.

An address a.b.c.d is 0xabcd.  The bytes of a packet that `arp_input` and `arp_request` neither read nor
write, and the chains of mbufs behind their numbers, are left out.  A driver hands up no packet that is
too short for `struct ether_arp`.
-/

set_option autoImplicit false

namespace TnNet.Arp

def ETHERTYPE_IP : Nat := 0x0800

def ETHERTYPE_ARP : Nat := 0x0806

def ARPHRD_ETHER : Nat := 1

def ARPOP_REQUEST : Nat := 1

def ARPOP_REPLY : Nat := 2

/-- `struct ether_header` and `struct ether_arp`. -/
structure EtherArp where
  etherDhost : Mac
  etherShost : Mac
  etherType : Nat
  arpHrd : Nat
  arpPro : Nat
  arpHln : Nat
  arpPln : Nat
  arpOp : Nat
  arpSha : Mac
  arpSpa : BitVec 32
  arpTha : Mac
  arpTpa : BitVec 32
  deriving DecidableEq

/-- `TN_NETIF`, as far as ARP goes. -/
structure TnNetif where
  hwAddr : Mac
  ipAddr : BitVec 32
  netmask : BitVec 32
  ipGateway : BitVec 32
  dupOwnIpAddr : Bool
  arp : ArpTable

/-- An Ethernet frame with an IP packet: who sends it, and the chain behind the header. -/
structure Frame (n : Nat) where
  ni : Fin n
  id : Nat
  etherDhost : Mac
  etherShost : Mac
  deriving DecidableEq

/-! ## The calls -/

/-- `arp_request`: the packet for the driver.  Nothing writes `ether_shost`: it is what the mbuf has
    there. -/
def arpRequest (ni : TnNetif) (tip : BitVec 32) (shost : Mac) : EtherArp :=
  { etherDhost := etherbroadcastaddr, etherShost := shost, etherType := ETHERTYPE_ARP,
    arpHrd := ARPHRD_ETHER,
    arpPro := ETHERTYPE_IP, arpHln := 6, arpPln := 4, arpOp := ARPOP_REQUEST, arpSha := ni.hwAddr,
    arpSpa := ni.ipAddr, arpTha := 0, arpTpa := tip }

/-- `arp_input`: the packet, turned into its reply. -/
def arpReply (ni : TnNetif) (ea : EtherArp) : Option EtherArp :=
  let itaddr := if ea.arpSpa = ni.ipAddr then ni.ipAddr else ea.arpTpa
  if ea.arpSha = etherbroadcastaddr then none
  else if ea.arpOp = ARPOP_REQUEST ∧ itaddr = ni.ipAddr then
    some { ea with
      etherDhost := ea.arpSha, etherShost := ni.hwAddr, etherType := ETHERTYPE_ARP, arpPro := ETHERTYPE_IP,
      arpOp := ARPOP_REPLY, arpSha := ni.hwAddr, arpSpa := itaddr, arpTha :=
      ea.arpSha, arpTpa := ea.arpSpa }
  else none

/-- What `arp_input` reads for the table. -/
def EtherArp.pkt (ea : EtherArp) : ArpPkt := ⟨false, ea.arpSha, ea.arpSpa, ea.arpTpa⟩

/-- `arp_input`: the interface behind it. -/
def TnNetif.input (ni : TnNetif) (ea : EtherArp) (room : Bool) (time1 time2 : Nat) : TnNetif :=
  { ni with
    arp := (ni.arp.arpInput ea.pkt ni.ipAddr room time1 time2).1
    dupOwnIpAddr := ni.dupOwnIpAddr || decide (ea.arpSha ≠ etherbroadcastaddr ∧ ea.arpSpa = ni.ipAddr) }

/-- `arp_input`: the chains it has written to the driver, `mac_addr` is the one that was just copied. -/
def TnNetif.sent (ni : TnNetif) (ea : EtherArp) (room : Bool) (time1 time2 : Nat) : List Nat :=
  (ni.input ea room time1 time2).arp.handed.drop ni.arp.handed.length

/-- `net_netif1_out_func`: the next hop; without a gateway the packet is freed. -/
def TnNetif.nextHop (ni : TnNetif) (ipDst : BitVec 32) : Option (BitVec 32) :=
  if ipDst &&& ni.netmask = ni.ipAddr &&& ni.netmask ∨ ipDst &&& ni.netmask = ni.netmask then some ipDst
  else if ni.ipGateway = 0 then none
  else some ni.ipGateway

/-- `ETHER_MAP_IP_MULTICAST`. -/
def etherMapIpMulticast (ip : BitVec 32) : Mac := 0x01005E000000 ||| (ip &&& 0x7FFFFF).setWidth 48

/-- The address that was returned in `dst`. -/
def ArpObs.dst : ArpObs → Option Mac
  | .answered _ mac _ _ => some mac
  | .accepted _ _ _ => none

/-- `arp_resolve`: `dst`, when it returns `TRUE`. -/
def resolved (mb : ArpMb) (arpIpAddr : BitVec 32) (obs : List ArpObs) : Option Mac :=
  if mb.bcast then some etherbroadcastaddr
  else if mb.mcast then some (etherMapIpMulticast arpIpAddr)
  else obs.findSome? ArpObs.dst

/-! ## Runs -/

/-- A call of `net_netif1_out_func` that came to `arp_resolve`. -/
structure OutCall (n : Nat) where
  ni : Fin n
  mb : ArpMb
  hop : BitVec 32

structure Lan (n : Nat) where
  ni : Fin n → TnNetif
  /-- The ARP packets that were written. -/
  wire : List EtherArp
  /-- The addresses that the stations have had so far; one without an address has 0. -/
  held : List (BitVec 32 × Mac)
  passed : List (OutCall n)

inductive LanEvent (n : Nat) where
  /-- `dhcp_bind`, the start of `dhcp_chk_dup_IP` or the configuration. -/
  | setAddr (j : Fin n) (ipAddr netmask ipGateway : BitVec 32)
  /-- The end of `dhcp_chk_dup_IP`. -/
  | chkEnd (j : Fin n) (saveIpAddr : BitVec 32)
  | out (j : Fin n) (mb : ArpMb) (ipDst : BitVec 32) (room : Bool) (time1 time2 time3 time4 : Nat)
  | request (j : Fin n) (tip : BitVec 32) (room : Bool) (shost : Mac)
  | input (j : Fin n) (ea : EtherArp) (room : Bool) (time1 time2 : Nat)
  | timer (j : Fin n) (cnt : Nat) (clk : Nat → Nat) (later : Nat)
  /-- Another station has an address. -/
  | joins (ip : BitVec 32) (mac : Mac)
  /-- Another station writes an ARP packet. -/
  | tells (ea : EtherArp)

namespace Lan

variable {n : Nat}

def setNi (s : Lan n) (j : Fin n) (ni : TnNetif) : Lan n := { s with ni := Function.update s.ni j ni }

theorem setNi_self (s : Lan n) (j : Fin n) (ni : TnNetif) : (s.setNi j ni).ni j = ni :=
  Function.update_self ..

theorem setNi_of_ne (s : Lan n) {i j : Fin n} (h : i ≠ j) (ni : TnNetif) : (s.setNi j ni).ni i = s.ni i :=
  Function.update_of_ne h ..

/-- An interface has an address from now on. -/
def setIp (s : Lan n) (j : Fin n) (ni : TnNetif) : Lan n :=
  { s.setNi j ni with held := (ni.ipAddr, ni.hwAddr) :: s.held }

/-- `net_netif1_out_func`. -/
def netNetif1OutFunc (s : Lan n) (j : Fin n) (mb : ArpMb) (ipDst : BitVec 32) (room : Bool)
    (time1 time2 time3 time4 : Nat) : Lan n × List (Frame n) :=
  match (s.ni j).nextHop ipDst with
  | none => (s, [])
  | some hop =>
    let r := (s.ni j).arp.arpResolve mb hop time1 time2 time3 time4
    ({ s.setNi j { s.ni j with arp := r.1 } with passed := ⟨j, mb, hop⟩ :: s.passed },
      if room then (resolved mb hop r.2).toList.map fun mac => ⟨j, mb.id, mac, (s.ni j).hwAddr⟩ else [])

/-- `arp_input`. -/
def arpInput (s : Lan n) (j : Fin n) (ea : EtherArp) (room : Bool) (time1 time2 : Nat) :
    Lan n × List (Frame n) :=
  ({ s.setNi j ((s.ni j).input ea room time1 time2) with wire := (arpReply (s.ni j) ea).toList ++ s.wire },
    ((s.ni j).sent ea room time1 time2).map fun id => ⟨j, id, ea.arpSha, (s.ni j).hwAddr⟩)

def step (s : Lan n) : LanEvent n → Lan n × List (Frame n)
  | .setAddr j ipAddr netmask ipGateway =>
    (s.setIp j { s.ni j with ipAddr := ipAddr, netmask := netmask, ipGateway := ipGateway }, [])
  | .chkEnd j saveIpAddr => (s.setIp j { s.ni j with ipAddr := saveIpAddr, dupOwnIpAddr := false }, [])
  | .out j mb ipDst room time1 time2 time3 time4 =>
    s.netNetif1OutFunc j mb ipDst room time1 time2 time3 time4
  | .request j tip room shost =>
    (if room then { s with wire := arpRequest (s.ni j) tip shost :: s.wire } else s, [])
  | .input j ea room time1 time2 => s.arpInput j ea room time1 time2
  | .timer j cnt clk later => (s.setNi j { s.ni j with arp := (s.ni j).arp.arpTimerFunc cnt clk later }, [])
  | .joins ip mac => ({ s with held := (ip, mac) :: s.held }, [])
  | .tells ea => ({ s with wire := ea :: s.wire }, [])

/-- Behind `arp_init`, with the addresses of the configuration. -/
def start (nelem : Nat) (hwAddr : Fin n → Mac) (ipAddr netmask ipGateway : Fin n → BitVec 32) : Lan n where
  ni j := ⟨hwAddr j, ipAddr j, netmask j, ipGateway j, false, ArpTable.start nelem⟩
  wire := []
  held := (List.finRange n).map fun j => (ipAddr j, hwAddr j)
  passed := []

end Lan

def lanMachine (n : Nat) : Machine.Step (Lan n) (LanEvent n) (Frame n) :=
  fun s ev => (some (s.step ev).1, (s.step ev).2)

variable {n : Nat}

/-- Where a run comes to. -/
def Lan.after (s : Lan n) (es : List (LanEvent n)) : Lan n := es.foldl (fun s ev => (s.step ev).1) s

@[simp] theorem Lan.after_nil (s : Lan n) : s.after [] = s := rfl

@[simp] theorem Lan.after_cons (s : Lan n) (ev : LanEvent n) (es : List (LanEvent n)) :
    s.after (ev :: es) = (s.step ev).1.after es := rfl

@[simp] theorem Lan.after_append (s : Lan n) (es fs : List (LanEvent n)) :
    s.after (es ++ fs) = (s.after es).after fs := List.foldl_append ..

theorem run_after (s : Lan n) (es : List (LanEvent n)) :
    (Machine.run (lanMachine n) (some s) es).1 = some (s.after es) := by
  induction es generalizing s with
  | nil => rfl
  | cons ev es ih => exact ih (s.step ev).1

/-- A packet is taken from the wire, and not by the station that has written it; the other stations tell of
    addresses they have had; a chain is passed once. -/
def Ethernet {n : Nat} (s : Lan n) : LanEvent n → Prop
  | .input j ea _ _ _ => ea ∈ s.wire ∧ ea.arpSha ≠ (s.ni j).hwAddr
  | .tells ea => (ea.arpSpa, ea.arpSha) ∈ s.held
  | .out j mb _ _ _ _ _ _ => ∀ c ∈ s.passed, c.ni = j → c.mb.id ≠ mb.id
  | _ => True

/-- The chain that waits for the address an ARP packet tells of finds a block for its header. -/
def HoldRoom {n : Nat} (s : Lan n) : LanEvent n → Prop
  | .input j ea room _ _ =>
    ∀ arpe ∈ (s.ni j).arp.arpArr.find? (·.itaddr = ea.arpSpa), arpe.laHold.isSome = true → room = true
  | _ => True

/-! ## The statement -/

/-- The destination for a next hop. -/
def Right (held : List (BitVec 32 × Mac)) (mb : ArpMb) (hop : BitVec 32) (dst : Mac) : Prop :=
  if mb.bcast then dst = etherbroadcastaddr
  else if mb.mcast then dst = etherMapIpMulticast hop
  else (hop, dst) ∈ held

/-- A frame has the source address of its interface and the destination of the chain behind its header. -/
structure Addressed (s : Lan n) (f : Frame n) : Prop where
  shost : f.etherShost = (s.ni f.ni).hwAddr
  call : ∃ c ∈ s.passed, c.ni = f.ni ∧ c.mb.id = f.id
  dhost : ∀ c ∈ s.passed, c.ni = f.ni → c.mb.id = f.id → Right s.held c.mb c.hop f.etherDhost

/-- An address that two stations have had; it may be 0, the address of the stations without one. -/
def Twice (s : Lan n) (j : Fin n) : Prop :=
  ∃ ip mac, (ip, (s.ni j).hwAddr) ∈ s.held ∧ (ip, mac) ∈ s.held ∧ mac ≠ (s.ni j).hwAddr

/-! ## The table -/

section table

variable {held : BitVec 32 → Mac → Prop} {wait : Nat → BitVec 32 → Prop} {arr arr' : List TnArpentry}
  {ip : BitVec 32} {time idx : Nat} {fr : List Nat} {s : ArpTable} {e : TnArpentry}

/-- An entry: free ones have the address 0; the address that was told, and the chain that waits for it. -/
structure EntryOk (held : BitVec 32 → Mac → Prop) (wait : Nat → BitVec 32 → Prop)
    (e : TnArpentry) : Prop where
  free : e.state = .ARP_FREE → e.itaddr = 0
  solved : e.state = .ARP_SOLVED → held e.itaddr e.macAddr
  hold : ∀ id ∈ e.laHold, wait id e.itaddr

theorem entryOk_free : EntryOk held wait {} := ⟨fun _ => rfl, fun h => (nomatch h), fun _ h => (nomatch h)⟩

theorem EntryOk.mono {held' : BitVec 32 → Mac → Prop} {wait' : Nat → BitVec 32 → Prop}
    (h : EntryOk held wait e) (hh : ∀ ip mac, held ip mac → held' ip mac)
    (hw : ∀ id ip, wait id ip → wait' id ip) : EntryOk held' wait' e :=
  ⟨h.free, fun hs => hh _ _ (h.solved hs), fun id hid => hw _ _ (h.hold id hid)⟩

theorem entryOk_set {new : TnArpentry} (h : ∀ e ∈ arr, EntryOk held wait e) (hnew : EntryOk held wait new) :
    ∀ e ∈ arr.set idx new, EntryOk held wait e := by
  intro e he
  rcases List.mem_or_eq_of_mem_set he with he | rfl
  · exact h e he
  · exact hnew

theorem Found.entryOk (hf : Found arr ip time idx arr' fr) (h : ∀ e ∈ arr, EntryOk held wait e) :
    ∀ e ∈ arr', EntryOk held wait e := by
  cases hf with
  | old arpe get first same none_freed =>
    subst same
    exact h
  | new arpe absent get replaced freed =>
    subst replaced
    exact entryOk_set h ⟨fun h => (nomatch h), fun h => (nomatch h), fun _ h => (nomatch h)⟩

/-- The chain that is sent waited for the address of the entry. -/
theorem sendHold_ok (s : ArpTable) (idx : Nat) (new : TnArpentry) (room : Bool)
    (h : ∀ e ∈ s.arpArr, EntryOk held wait e) (hnew : EntryOk held wait new) :
    (∀ e ∈ (s.sendHold idx new room).arpArr, EntryOk held wait e) ∧
      ∃ ids, (s.sendHold idx new room).handed = s.handed ++ ids ∧ ∀ id ∈ ids, wait id new.itaddr := by
  unfold ArpTable.sendHold
  cases ho : new.laHold with
  | none => exact ⟨entryOk_set h hnew, [], (List.append_nil _).symm, fun _ h => nomatch h⟩
  | some mb =>
    cases room with
    | true =>
      refine ⟨entryOk_set h ⟨hnew.free, hnew.solved, fun _ h => (nomatch h)⟩, [mb], rfl,
        fun id hid => ?_⟩
      rw [List.mem_singleton.mp hid]
      exact hnew.hold mb ho
    | false => exact ⟨entryOk_set h hnew, [], (List.append_nil _).symm, fun _ h => nomatch h⟩

/-- A packet that tells the truth. -/
theorem arpInput_ok (pkt : ArpPkt) (myaddr : BitVec 32) (room : Bool) (time1 time2 : Nat)
    (h : ∀ e ∈ s.arpArr, EntryOk held wait e) (hpkt : held pkt.spa pkt.sha) :
    (∀ e ∈ (s.arpInput pkt myaddr room time1 time2).1.arpArr, EntryOk held wait e) ∧
      ∃ ids, (s.arpInput pkt myaddr room time1 time2).1.handed = s.handed ++ ids ∧ ∀ id ∈ ids,
      wait id pkt.spa := by
  have hsame : (∀ e ∈ s.arpArr, EntryOk held wait e) ∧
      ∃ ids, s.handed = s.handed ++ ids ∧ ∀ id ∈ ids, wait id pkt.spa :=
    ⟨h, [], (List.append_nil _).symm, fun _ h => nomatch h⟩
  unfold ArpTable.arpInput
  dsimp only
  split
  · exact hsame
  · cases hl : arpLookup s.arpArr pkt.spa (decide (pkt.tpa = myaddr)) time1 with
    | none => exact hsame
    | some r =>
      obtain ⟨idx, arr, fr⟩ := r
      dsimp only
      have hf := arpLookup_spec hl
      obtain ⟨arpe, hget, hgetD, haddr⟩ := hf.get
      have harr := hf.entryOk h
      have harpe := harr arpe (List.mem_of_getElem? hget)
      rw [hgetD]
      obtain ⟨hents, ids, hids, hwait⟩ :=
        sendHold_ok { s with now := time2, arpArr := arr, freed := s.freed ++ fr } idx
        { arpe with
          macAddr := pkt.sha, state := .ARP_SOLVED, rtExpire :=
            (time2 + ARP_TIME_KEEP) % 2 ^ 32, laAsked := 0 }
        room harr ⟨fun h => (nomatch h), fun _ => by rw [haddr]; exact hpkt, harpe.hold⟩
      refine ⟨hents, ids, hids, fun id hid => ?_⟩
      rw [← haddr]
      exact hwait id hid

/-- A chain that waits, or an address that was told. -/
theorem arpResolve_ok {mb : ArpMb} (time1 time2 time3 time4 : Nat) (h : ∀ e ∈ s.arpArr, EntryOk held wait e)
    (hmb : mb.bcast = false → mb.mcast = false → wait mb.id ip) :
    (∀ e ∈ (s.arpResolve mb ip time1 time2 time3 time4).1.arpArr, EntryOk held wait e) ∧
      ∀ mac, (s.arpResolve mb ip time1 time2 time3 time4).2.findSome? ArpObs.dst = some mac →
      held ip mac := by
  unfold ArpTable.arpResolve
  dsimp only
  split
  · exact ⟨h, fun _ h => nomatch h⟩
  · rename_i hno
    cases hl : arpLookup s.arpArr ip true time1 with
    | none => exact ⟨h, fun _ h => nomatch h⟩
    | some r =>
      obtain ⟨idx, arr, fr⟩ := r
      dsimp only
      have hf := arpLookup_spec hl
      obtain ⟨arpe, hget, hgetD, haddr⟩ := hf.get
      have harr := hf.entryOk h
      have harpe := harr arpe (List.mem_of_getElem? hget)
      rw [hgetD]
      split
      · rename_i hsolved
        refine ⟨harr, fun mac hmac => ?_⟩
        obtain rfl : arpe.macAddr = mac := by simpa [ArpObs.dst] using hmac
        rw [← haddr]
        exact harpe.solved hsolved.2
      · obtain ⟨rtExpire, laAsked, hask⟩ := ask_eq { arpe with laHold := some mb.id } time3 time4
        rw [hask]
        refine ⟨entryOk_set harr ⟨harpe.free, harpe.solved, fun id hid => ?_⟩, fun _ h => nomatch h⟩
        cases hid
        rw [haddr]
        exact hmb (by simpa using fun h => hno (.inl h)) (by simpa using fun h => hno (.inr h))

theorem arpTimerFunc_ok {cnt later : Nat} {clk : Nat → Nat} (h : ∀ e ∈ s.arpArr, EntryOk held wait e) :
    ∀ e ∈ (s.arpTimerFunc cnt clk later).arpArr, EntryOk held wait e := by
  unfold ArpTable.arpTimerFunc
  split
  · intro e he
    obtain ⟨k, hk⟩ := List.mem_iff_getElem?.mp he
    rcases ageAll_get clk hk with hk | rfl
    · exact h e (List.mem_of_getElem? hk)
    · exact entryOk_free
  · exact h

end table

/-! ## The runs -/

/-- The chain was passed for the address, and is not for a group. -/
def Waits (passed : List (OutCall n)) (j : Fin n) (id : Nat) (ip : BitVec 32) : Prop :=
  ∃ mb, mb.id = id ∧ mb.bcast = false ∧ mb.mcast = false ∧ ⟨j, mb, ip⟩ ∈ passed

/-- The entries of an interface. -/
def TableOk (s : Lan n) (j : Fin n) (arr : List TnArpentry) : Prop :=
  ∀ e ∈ arr, EntryOk (fun ip mac => (ip, mac) ∈ s.held) (Waits s.passed j) e

/-- The interfaces, the wire and the frames that were sent. -/
structure LanInv (s : Lan n) (hist : List (Frame n)) : Prop where
  own : ∀ j, ((s.ni j).ipAddr, (s.ni j).hwAddr) ∈ s.held
  wire : ∀ ea ∈ s.wire, (ea.arpSpa, ea.arpSha) ∈ s.held
  table : ∀ j, TableOk s j (s.ni j).arp.arpArr
  dup : ∀ j, (s.ni j).dupOwnIpAddr = true → Twice s j
  once : ∀ c ∈ s.passed, ∀ c' ∈ s.passed, c.ni = c'.ni → c.mb.id = c'.mb.id → c = c'
  sent : ∀ f ∈ hist, Addressed s f

section inv

variable {s : Lan n} {hist : List (Frame n)} {j : Fin n}

theorem Right.tell {mb : ArpMb} {hop : BitVec 32} {dst : Mac} (h : Right s.held mb hop dst)
    (a : BitVec 32 × Mac) : Right (a :: s.held) mb hop dst := by
  unfold Right at h ⊢
  split
  · simpa [*] using h
  · split
    · simpa [*] using h
    · simp only [*] at h
      exact List.mem_cons_of_mem a (by simpa using h)

/-- One more address is held. -/
theorem LanInv.tell (hi : LanInv s hist) (a : BitVec 32 × Mac) :
    LanInv { s with held := a :: s.held } hist where
  own j := List.mem_cons_of_mem a (hi.own j)
  wire ea hea := List.mem_cons_of_mem a (hi.wire ea hea)
  table j e he := (hi.table j e he).mono (fun _ _ h => List.mem_cons_of_mem a h) fun _ _ h => h
  dup j hj := by
    obtain ⟨ip, mac, h1, h2, hne⟩ := hi.dup j hj
    exact ⟨ip, mac, List.mem_cons_of_mem a h1, List.mem_cons_of_mem a h2, hne⟩
  once := hi.once
  sent f hf :=
    ⟨(hi.sent f hf).shost, (hi.sent f hf).call, fun c hc h1 h2 => ((hi.sent f hf).dhost c hc h1 h2).tell a⟩

/-- One more chain was passed. -/
theorem LanInv.pass (hi : LanInv s hist) (c : OutCall n)
    (hnew : ∀ c' ∈ s.passed, c'.ni = c.ni → c'.mb.id ≠ c.mb.id) :
    LanInv { s with passed := c :: s.passed } hist where
  own := hi.own
  wire := hi.wire
  table j e he := (hi.table j e he).mono (fun _ _ h => h) fun _ _ ⟨mb, h1, h2, h3, h4⟩ =>
    ⟨mb, h1, h2, h3, List.mem_cons_of_mem c h4⟩
  dup := hi.dup
  once a ha b hb hni hid := by
    rcases List.mem_cons.mp ha with h1 | h1
    · rcases List.mem_cons.mp hb with h2 | h2
      · rw [h1, h2]
      · exact absurd (by rw [← hid, h1]) (hnew b h2 (by rw [← hni, h1]))
    · rcases List.mem_cons.mp hb with h2 | h2
      · exact absurd (by rw [hid, h2]) (hnew a h1 (by rw [hni, h2]))
      · exact hi.once a h1 b h2 hni hid
  sent f hf := by
    obtain ⟨hshost, ⟨c0, hc0, hni, hid⟩, hdhost⟩ := hi.sent f hf
    refine ⟨hshost, ⟨c0, List.mem_cons_of_mem c hc0, hni, hid⟩, fun a ha h1 h2 => ?_⟩
    rcases List.mem_cons.mp ha with rfl | ha
    · exact absurd (hid.trans h2.symm) (hnew c0 hc0 (hni.trans h1.symm))
    · exact hdhost a ha h1 h2

/-- ARP packets that tell the truth are written. -/
theorem LanInv.write (hi : LanInv s hist) {l : List EtherArp}
    (hl : ∀ ea ∈ l, (ea.arpSpa, ea.arpSha) ∈ s.held) : LanInv { s with wire := l ++ s.wire } hist :=
  { hi with
    wire := fun ea hea => (List.mem_append.mp hea).elim (hl ea) (hi.wire ea)
    sent := fun f hf => ⟨(hi.sent f hf).shost, (hi.sent f hf).call, (hi.sent f hf).dhost⟩ }

/-- An interface changes, and keeps its hardware address. -/
theorem LanInv.setNi (hi : LanInv s hist) {x : TnNetif} (hhw : x.hwAddr = (s.ni j).hwAddr)
    (hip : (x.ipAddr, x.hwAddr) ∈ s.held) (htable : TableOk s j x.arp.arpArr)
    (hdup : x.dupOwnIpAddr = true → Twice s j) : LanInv (s.setNi j x) hist := by
  have hni : ∀ k, (s.setNi j x).ni k = if k = j then x else s.ni k := fun k => Function.update_apply ..
  have hhws : ∀ k, ((s.setNi j x).ni k).hwAddr = (s.ni k).hwAddr := by
    intro k
    rw [hni]
    split
    · rename_i hk
      rw [hk, hhw]
    · rfl
  refine ⟨fun k => ?_, hi.wire, fun k => ?_, fun k hk => ?_, hi.once, fun f hf => ?_⟩
  · rw [hni]
    split
    · exact hip
    · exact hi.own k
  · rw [hni]
    split
    · rename_i hk
      rw [hk]
      exact htable
    · exact hi.table k
  · have htwice : Twice s k := by
      rw [hni] at hk
      split at hk
      · rename_i h
        rw [h]
        exact hdup hk
      · exact hi.dup k hk
    unfold Twice
    rw [hhws]
    exact htwice
  · obtain ⟨hshost, hcall, hdhost⟩ := hi.sent f hf
    exact ⟨by rw [hhws, hshost], hcall, hdhost⟩

/-- A frame is sent. -/
theorem LanInv.send (hi : LanInv s hist) {fs : List (Frame n)} (hfs : ∀ f ∈ fs, Addressed s f) :
    LanInv s (hist ++ fs) :=
  { hi with sent := fun f hf => (List.mem_append.mp hf).elim (hi.sent f) (hfs f) }

/-- The chain was passed once: there is one call to look at. -/
theorem LanInv.addressed (hi : LanInv s hist) {c : OutCall n} {f : Frame n} (hc : c ∈ s.passed)
    (hni : c.ni = f.ni) (hid : c.mb.id = f.id) (hshost : f.etherShost = (s.ni f.ni).hwAddr)
    (hr : Right s.held c.mb c.hop f.etherDhost) : Addressed s f := by
  refine ⟨hshost, ⟨c, hc, hni, hid⟩, fun c' hc' hni' hid' => ?_⟩
  rw [hi.once c' hc' c hc (hni'.trans hni.symm) (hid'.trans hid.symm)]
  exact hr

/-! ## The steps -/

theorem arpReply_held {ni : TnNetif} {ea r : EtherArp} (h : arpReply ni ea = some r) :
    r.arpSpa = ni.ipAddr ∧ r.arpSha = ni.hwAddr := by
  unfold arpReply at h
  dsimp only at h
  generalize (if ea.arpSpa = ni.ipAddr then ni.ipAddr else ea.arpTpa) = itaddr at h
  split at h
  · cases h
  · split at h
    · rename_i hop
      cases h
      exact ⟨hop.2, rfl⟩
    · cases h

theorem setIp_inv (hi : LanInv s hist) {x : TnNetif} (hhw : x.hwAddr = (s.ni j).hwAddr)
    (harp : x.arp = (s.ni j).arp)
    (hdup : x.dupOwnIpAddr = true → (s.ni j).dupOwnIpAddr = true) : LanInv (s.setIp j x) hist := by
  have ht := hi.tell (x.ipAddr, x.hwAddr)
  refine ht.setNi hhw List.mem_cons_self ?_ fun h => ht.dup j (hdup h)
  rw [harp]
  exact ht.table j

theorem out_inv {mb : ArpMb} {ipDst : BitVec 32} {room : Bool} {time1 time2 time3 time4 : Nat}
    (hi : LanInv s hist) (hnew : ∀ c ∈ s.passed, c.ni = j → c.mb.id ≠ mb.id) :
    LanInv (s.netNetif1OutFunc j mb ipDst room time1 time2 time3 time4).1
      (hist ++ (s.netNetif1OutFunc j mb ipDst room time1 time2 time3 time4).2) := by
  unfold Lan.netNetif1OutFunc
  cases hhop : (s.ni j).nextHop ipDst with
  | none =>
    dsimp only
    rw [List.append_nil]
    exact hi
  | some hop =>
    dsimp only
    have hp := hi.pass ⟨j, mb, hop⟩ hnew
    obtain ⟨htable, hdst⟩ := arpResolve_ok time1 time2 time3 time4 (hp.table j)
      fun h1 h2 => ⟨mb, rfl, h1, h2, List.mem_cons_self⟩
    have hs := hp.setNi (j := j) (x := { s.ni j with
      arp := ((s.ni j).arp.arpResolve mb hop time1 time2 time3 time4).1 }) rfl (hi.own j) htable (hp.dup j)
    refine hs.send fun f hf => ?_
    split at hf
    · obtain ⟨mac, hmac, rfl⟩ := List.mem_map.mp hf
      refine hs.addressed (c := ⟨j, mb, hop⟩) List.mem_cons_self rfl rfl ?_ ?_
      · change (s.ni j).hwAddr = ((Lan.setNi _ j _).ni j).hwAddr
        rw [Lan.setNi_self]
      · rw [Option.mem_toList] at hmac
        unfold resolved at hmac
        unfold Right
        split at hmac
        · rename_i h
          rw [if_pos h]
          exact (Option.some.inj hmac).symm
        · rename_i h
          rw [if_neg h]
          split at hmac
          · rename_i h
            rw [if_pos h]
            exact (Option.some.inj hmac).symm
          · rename_i h
            rw [if_neg h]
            exact hdst mac hmac
    · cases hf

theorem input_inv {ea : EtherArp} {room : Bool} {time1 time2 : Nat} (hi : LanInv s hist) (hea : ea ∈ s.wire)
    (hne : ea.arpSha ≠ (s.ni j).hwAddr) :
    LanInv (s.arpInput j ea room time1 time2).1 (hist ++ (s.arpInput j ea room time1 time2).2) := by
  have hheld := hi.wire ea hea
  obtain ⟨htable, ids, hids, hwait⟩ :=
    arpInput_ok ea.pkt (s.ni j).ipAddr room time1 time2 (hi.table j) hheld
  have hs := hi.setNi (j := j) (x := (s.ni j).input ea room time1 time2) rfl (hi.own j) htable (by
    intro hdup
    rcases (Bool.or_eq_true _ _).mp hdup with h | h
    · exact hi.dup j h
    · refine ⟨(s.ni j).ipAddr, ea.arpSha, hi.own j, ?_, hne⟩
      rw [← (of_decide_eq_true h).2]
      exact hheld)
  have hw := hs.write (l := (arpReply (s.ni j) ea).toList) (by
    intro r hr
    obtain ⟨h1, h2⟩ := arpReply_held (Option.mem_toList.mp hr)
    rw [h1, h2]
    exact hi.own j)
  refine hw.send fun f hf => ?_
  have hsent : (s.ni j).sent ea room time1 time2 = ids := by
    unfold TnNetif.sent TnNetif.input
    rw [hids, List.drop_left]
  obtain ⟨id, hid, rfl⟩ := List.mem_map.mp hf
  rw [hsent] at hid
  obtain ⟨mb, hmb, hb, hm, hpassed⟩ := hwait id hid
  refine hw.addressed (c := ⟨j, mb, ea.arpSpa⟩) hpassed rfl hmb ?_ ?_
  · change (s.ni j).hwAddr = ((s.setNi j _).ni j).hwAddr
    rw [Lan.setNi_self]
    rfl
  · unfold Right
    rw [if_neg (by simp [hb]), if_neg (by simp [hm])]
    exact hheld

/-- One step of any station. -/
theorem step_lanInv {ev : LanEvent n} (hi : LanInv s hist) (hg : Ethernet s ev) :
    LanInv (s.step ev).1 (hist ++ (s.step ev).2) := by
  cases ev with
  | setAddr j ipAddr netmask ipGateway =>
    have h :=
      setIp_inv (j := j) (x := { s.ni j with ipAddr := ipAddr, netmask := netmask, ipGateway := ipGateway })
      hi rfl rfl id
    simpa [Lan.step] using h
  | chkEnd j saveIpAddr =>
    have h :=
      setIp_inv (j := j) (x := { s.ni j with ipAddr := saveIpAddr, dupOwnIpAddr := false }) hi rfl rfl
      fun h => nomatch h
    simpa [Lan.step] using h
  | out j mb ipDst room time1 time2 time3 time4 => exact out_inv hi hg
  | request j tip room shost =>
    have h : LanInv (if room = true then { s with wire := arpRequest (s.ni j) tip shost :: s.wire }
        else s) hist := by
      split
      · refine hi.write (l := [arpRequest (s.ni j) tip shost]) fun ea hea => ?_
        rw [List.mem_singleton.mp hea]
        exact hi.own j
      · exact hi
    simpa [Lan.step] using h
  | input j ea room time1 time2 => exact input_inv hi hg.1 hg.2
  | timer j cnt clk later =>
    have h :=
      hi.setNi (j := j) (x := { s.ni j with arp := (s.ni j).arp.arpTimerFunc cnt clk later }) rfl (hi.own j)
      (arpTimerFunc_ok (hi.table j)) (hi.dup j)
    simpa [Lan.step] using h
  | joins ip mac =>
    have h := hi.tell (ip, mac)
    simpa [Lan.step] using h
  | tells ea =>
    have h := hi.write (l := [ea]) fun a ha => by
      rw [List.mem_singleton.mp ha]
      exact hg
    simpa [Lan.step] using h

end inv

theorem start_lanInv (nelem : Nat) (hwAddr : Fin n → Mac) (ipAddr netmask ipGateway : Fin n → BitVec 32) :
    LanInv (Lan.start nelem hwAddr ipAddr netmask ipGateway) [] where
  own j := List.mem_map.mpr ⟨j, List.mem_finRange j, rfl⟩
  wire _ h := nomatch h
  table _ e he := by
    rw [List.eq_of_mem_replicate he]
    exact entryOk_free
  dup _ h := nomatch h
  once _ h := nomatch h
  sent _ h := nomatch h

/-- The invariant in the last state of a run. -/
theorem run_lanInv {s0 s : Lan n} {hist : List (Frame n)} {es : List (LanEvent n)} (hi : LanInv s0 hist)
    (hg : Machine.Guarded (lanMachine n) Ethernet (some s0) es)
    (hr : (Machine.run (lanMachine n) (some s0) es).1 = some s) :
    LanInv s (hist ++ (Machine.run (lanMachine n) (some s0) es).2) :=
  Machine.run_record (fun s hist => LanInv s hist)
    (fun s ev hist s' hi hc h => by
      cases h
      exact step_lanInv hi hc)
    hi hg hr

/-- **What a table tells and where a frame goes was held by a station.** -/
theorem lan_held (nelem : Nat) (hwAddr : Fin n → Mac) (ipAddr netmask ipGateway : Fin n → BitVec 32)
    (es : List (LanEvent n))
    (hg : Machine.Guarded (lanMachine n) (fun s ev => Ethernet s ev ∧ HoldRoom s ev)
      (some (Lan.start nelem hwAddr ipAddr netmask ipGateway)) es) :
    ∀ s ∈ (Machine.run (lanMachine n) (some (Lan.start nelem hwAddr ipAddr netmask ipGateway)) es).1,
      (∀ j, ∀ e ∈ (s.ni j).arp.arpArr, e.state = .ARP_SOLVED → (e.itaddr, e.macAddr) ∈ s.held) ∧
        (∀ f ∈ (Machine.run (lanMachine n) (some (Lan.start nelem hwAddr ipAddr netmask ipGateway)) es).2,
          Addressed s f) ∧
        ∀ j, (s.ni j).dupOwnIpAddr = true → Twice s j := by
  intro s hs
  have hi := run_lanInv (start_lanInv nelem hwAddr ipAddr netmask ipGateway) (hg.mono fun _ _ hc => hc.1) hs
  rw [List.nil_append] at hi
  exact ⟨fun j e he hst => (hi.table j e he).solved hst, hi.sent, hi.dup⟩

/-- 192.168.0.1 and 192.168.0.2 on one net. -/
def pair : Lan 2 :=
  Lan.start 4 ![0x0250C2000001, 0x0250C2000002] ![0xC0A80001, 0xC0A80002] ![0xFFFFFF00, 0xFFFFFF00] ![0, 0]

/-- The request of 192.168.0.1 for 192.168.0.2, and the answer. -/
def question : EtherArp := arpRequest (pair.ni 0) 0xC0A80002 0

def answer : EtherArp := (arpReply (pair.ni 1) question).getD question

/-- A packet for 192.168.0.2 waits, and the request is taken. -/
def asks : List (LanEvent 2) :=
  [.out 0 ⟨7, false, false⟩ 0xC0A80002 true 1 1 1 1, .request 0 0xC0A80002 true 0,
    .input 1 question true 2 2]

example : (Machine.run (lanMachine 2) (some pair) (asks ++ [.input 0 answer true 3 3])).2 =
    [⟨0, 7, 0x0250C2000002, 0x0250C2000001⟩] := by decide +kernel

/-- The pair when the answer is in. -/
def answered : Lan 2 := pair.after (asks ++ [.input 0 answer true 3 3])

theorem lan_held_pair :
    (∀ j, ∀ e ∈ (answered.ni j).arp.arpArr, e.state = .ARP_SOLVED →
      (e.itaddr, e.macAddr) ∈ answered.held) ∧
      (∀ f ∈ (Machine.run (lanMachine 2) (some pair) (asks ++ [.input 0 answer true 3 3])).2,
        Addressed answered f) ∧
      ∀ j, (answered.ni j).dupOwnIpAddr = true → Twice answered j := by
  refine lan_held 4 _ _ _ _ (asks ++ [.input 0 answer true 3 3]) ?_ answered rfl
  change Machine.Guarded _ _ _ [_, _, _, _]
  refine ⟨⟨fun c h => (nomatch h), trivial⟩, ⟨trivial, trivial⟩, ⟨⟨?_, ?_⟩, fun _ _ _ => rfl⟩,
    ⟨⟨?_, ?_⟩, fun _ _ _ => rfl⟩, trivial⟩
  all_goals decide +kernel

end TnNet.Arp
