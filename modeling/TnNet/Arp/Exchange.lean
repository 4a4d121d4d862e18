import TnNet.Arp.Lan

/-!
# Requests and replies

* `reply_releases` — when a station has taken an ARP packet from an address, no chain waits for that
  address any more: each one that `arp_resolve` has kept was sent in one frame, or freed, and not both.
* `dup_found` — when the address of an interface is used by another station and its request and the
  reply of the other one were taken, `dup_own_ip_addr` is set until the check ends.  In between, the
  interface keeps its address until it has the reply, and the other station until it has the request.
  (That `dup_own_ip_addr` is set for no other reason is part of `lan_held`.)

For both, what else lies between the steps that are named is any run.  A station without an address
tells of the address 0, which is the one of the free entries: `reply_releases` is about runs without
such packets, in which a chain that waits finds a block for its header.
-/

set_option autoImplicit false

namespace TnNet.Arp

variable {n : Nat} {s : Lan n} {hist : List (Frame n)} {j k : Fin n} {ev : LanEvent n}

/-! ## The statement -/

/-- An ARP packet has an address, and finds a block for the header of the chain that waits for it. -/
def Roomy (s : Lan n) : LanEvent n → Prop
  | .input j ea room time1 time2 => ea.arpSpa ≠ 0 ∧ HoldRoom s (.input j ea room time1 time2)
  | _ => True

/-- A chain that `arp_resolve` has kept: it is in a frame or was freed, and no entry has it. -/
def Settled (s : Lan n) (hist : List (Frame n)) (j : Fin n) (id : Nat) : Prop :=
  id ∉ holds (s.ni j).arp.arpArr ∧
    (((∃ f ∈ hist, f.ni = j ∧ f.id = id) ∧ id ∉ (s.ni j).arp.freed) ∨
      ((¬∃ f ∈ hist, f.ni = j ∧ f.id = id) ∧ (s.ni j).arp.freed.count id = 1))

/-- `ip_addr` of the interface is written. -/
def LanEvent.readdresses (j : Fin n) : LanEvent n → Prop
  | .setAddr i _ _ _ => i = j
  | .chkEnd i _ => i = j
  | _ => False

/-- `dhcp_chk_dup_IP` of the interface clears `dup_own_ip_addr`. -/
def LanEvent.endsCheck (j : Fin n) : LanEvent n → Prop
  | .chkEnd i _ => i = j
  | _ => False

/-! ## The table -/

section table

variable {a : ArpTable} {ip : BitVec 32}

theorem arpLookup_none {arr : List TnArpentry} {create : Bool} {time : Nat}
    (h : arpLookup arr ip create time = none) : ∀ e ∈ arr, e.itaddr ≠ ip := by
  have hs := @scan_spec arr ip create 0 {} ⟨by simp, by simp, by simp⟩
  unfold arpLookup at h
  generalize scan ip create 0 arr {} = r at hs h
  obtain ⟨o, c⟩ := r
  cases o with
  | some i => cases h
  | none => exact hs.1

theorem arpResolve_moves (a : ArpTable) (mb : ArpMb) (ip : BitVec 32) (time1 time2 time3 time4 : Nat) :
    (a.arpResolve mb ip time1 time2 time3 time4).1.handed = a.handed ∧
      ((a.arpResolve mb ip time1 time2 time3 time4).1.taken = a.taken ∨
        (a.arpResolve mb ip time1 time2 time3 time4).1.taken = mb.id :: a.taken ∧
          resolved mb ip (a.arpResolve mb ip time1 time2 time3 time4).2 = none) := by
  unfold ArpTable.arpResolve
  dsimp only
  split
  · exact ⟨rfl, .inl rfl⟩
  · rename_i hno
    have hres : resolved mb ip [] = none := by
      unfold resolved
      rw [if_neg fun h => hno (.inl h), if_neg fun h => hno (.inr h)]
      rfl
    cases arpLookup a.arpArr ip true time1 with
    | none => exact ⟨rfl, .inr ⟨rfl, hres⟩⟩
    | some r =>
      dsimp only
      split
      · exact ⟨rfl, .inl rfl⟩
      · exact ⟨rfl, .inr ⟨rfl, hres⟩⟩

theorem arpInput_taken (a : ArpTable) (pkt : ArpPkt) (myaddr : BitVec 32) (room : Bool)
    (time1 time2 : Nat) : (a.arpInput pkt myaddr room time1 time2).1.taken = a.taken := by
  have hsend : ∀ (a : ArpTable) idx new, (a.sendHold idx new room).taken = a.taken := by
    intro a idx new
    unfold ArpTable.sendHold
    split
    · rfl
    · split <;> rfl
  unfold ArpTable.arpInput
  dsimp only
  split
  · rfl
  · split
    · rfl
    · exact hsend ..

/-- The entry that was set has no chain any more. -/
theorem arpInput_released (pkt : ArpPkt) (myaddr : BitVec 32) (room : Bool) (time1 time2 : Nat)
    (hok : ¬(pkt.short = true ∨ pkt.sha = etherbroadcastaddr ∨ pkt.spa = myaddr))
    (hroom : ∀ arpe ∈ a.arpArr.find? (·.itaddr = pkt.spa), arpe.laHold.isSome = true → room = true) :
    (∀ e ∈ (a.arpInput pkt myaddr room time1 time2).1.arpArr, e.itaddr ≠ pkt.spa) ∨
      ∃ (idx : Nat) (e : TnArpentry),
        (a.arpInput pkt myaddr room time1 time2).1.arpArr[idx]? = some e ∧ e.itaddr = pkt.spa ∧
        e.state = .ARP_SOLVED ∧ e.laHold = none := by
  unfold ArpTable.arpInput
  dsimp only
  rw [if_neg hok]
  cases hl : arpLookup a.arpArr pkt.spa (decide (pkt.tpa = myaddr)) time1 with
  | none => exact .inl (arpLookup_none hl)
  | some r =>
    obtain ⟨idx, arr, fr⟩ := r
    dsimp only
    have hf := arpLookup_spec hl
    obtain ⟨arpe, hget, hgetD, haddr⟩ := hf.get
    have hheader := hf.room hget hroom
    have hlt := (List.getElem?_eq_some_iff.mp hget).1
    rw [hgetD]
    unfold ArpTable.sendHold
    dsimp only
    cases hhold : arpe.laHold with
    | none => exact .inr ⟨idx, _, List.getElem?_set_self hlt, haddr, rfl, rfl⟩
    | some id =>
      rw [hhold] at hheader
      dsimp only
      rw [if_pos (hheader rfl)]
      exact .inr ⟨idx, _, List.getElem?_set_self hlt, haddr, rfl, rfl⟩

end table

/-! ## The chains and the frames -/

/-- The chains of an interface: the table has each one once, those that were handed are in the frames. -/
structure ChainInv (s : Lan n) (hist : List (Frame n)) : Prop where
  table : ∀ j, TableInv (s.ni j).arp
  called : ∀ j, ∀ id ∈ (s.ni j).arp.taken, ∃ c ∈ s.passed, c.ni = j ∧ c.mb.id = id
  framed : ∀ j, ∀ id ∈ (s.ni j).arp.handed, ∃ f ∈ hist, f.ni = j ∧ f.id = id
  handed : ∀ f ∈ hist, f.id ∈ (s.ni f.ni).arp.handed ∨ f.id ∉ (s.ni f.ni).arp.taken

/-- No interface has changed its table. -/
theorem ChainInv.same {s' : Lan n} (hi : ChainInv s hist) (harp : ∀ j, (s'.ni j).arp = (s.ni j).arp)
    (hp : s'.passed = s.passed) : ChainInv s' (hist ++ []) where
  table j := by
    rw [harp]
    exact hi.table j
  called j id hid := by
    rw [harp] at hid
    rw [hp]
    exact hi.called j id hid
  framed j id hid := by
    rw [harp] at hid
    rw [List.append_nil]
    exact hi.framed j id hid
  handed f hf := by
    rw [List.append_nil] at hf
    rw [harp]
    exact hi.handed f hf

/-- One interface has changed its table, and has sent frames. -/
theorem ChainInv.change {s' : Lan n} {x : TnNetif} {fs : List (Frame n)} (hi : ChainInv s hist)
    (ids : List Nat) (hni : s'.ni = Function.update s.ni j x) (hp : ∀ c ∈ s.passed, c ∈ s'.passed)
    (htable : TableInv x.arp) (hcalled : ∀ id ∈ x.arp.taken, ∃ c ∈ s'.passed, c.ni = j ∧ c.mb.id = id)
    (hhanded : x.arp.handed = (s.ni j).arp.handed ++ ids)
    (hids : ∀ id ∈ ids, ∃ f ∈ fs, f.ni = j ∧ f.id = id)
    (hfs : ∀ f ∈ fs, f.ni = j ∧ (f.id ∈ ids ∨ f.id ∉ x.arp.taken))
    (hold : ∀ f ∈ hist, f.ni = j → f.id ∉ (s.ni j).arp.taken → f.id ∉ x.arp.taken) :
    ChainInv s' (hist ++ fs) := by
  have hself : s'.ni j = x := by rw [hni, Function.update_self]
  have hne : ∀ i, i ≠ j → s'.ni i = s.ni i := fun i h => by rw [hni, Function.update_of_ne h]
  refine ⟨fun i => ?_, fun i id hid => ?_, fun i id hid => ?_, fun f hf => ?_⟩
  · by_cases h : i = j
    · rw [h, hself]
      exact htable
    · rw [hne i h]
      exact hi.table i
  · by_cases h : i = j
    · rw [h, hself] at hid
      rw [h]
      exact hcalled id hid
    · rw [hne i h] at hid
      obtain ⟨c, hc, h1, h2⟩ := hi.called i id hid
      exact ⟨c, hp c hc, h1, h2⟩
  · by_cases h : i = j
    · rw [h, hself, hhanded] at hid
      rw [h]
      rcases List.mem_append.mp hid with hid | hid
      · obtain ⟨f, hf, h1, h2⟩ := hi.framed j id hid
        exact ⟨f, List.mem_append_left _ hf, h1, h2⟩
      · obtain ⟨f, hf, h1, h2⟩ := hids id hid
        exact ⟨f, List.mem_append_right _ hf, h1, h2⟩
    · rw [hne i h] at hid
      obtain ⟨f, hf, h1, h2⟩ := hi.framed i id hid
      exact ⟨f, List.mem_append_left _ hf, h1, h2⟩
  · rcases List.mem_append.mp hf with hf | hf
    · by_cases h : f.ni = j
      · rw [h, hself, hhanded]
        rcases hi.handed f hf with h1 | h1
        · rw [h] at h1
          exact .inl (List.mem_append_left _ h1)
        · rw [h] at h1
          exact .inr (hold f hf h h1)
      · rw [hne _ h]
        exact hi.handed f hf
    · obtain ⟨h, h1⟩ := hfs f hf
      rw [h, hself, hhanded]
      exact h1.imp (List.mem_append_right _) id

/-- Every chain has one place. -/
theorem ChainInv.settled {id : Nat} (hi : ChainInv s hist) (htaken : id ∈ (s.ni j).arp.taken)
    (hno : id ∉ holds (s.ni j).arp.arpArr) : Settled s hist j id := by
  have hplaces := (hi.table j).places id
  rw [List.count_eq_zero.mpr hno, List.count_eq_one_of_mem (hi.table j).nodup htaken] at hplaces
  refine ⟨hno, ?_⟩
  by_cases hh : id ∈ (s.ni j).arp.handed
  · refine .inl ⟨hi.framed j id hh, ?_⟩
    have := List.one_le_count_iff.mpr hh
    exact List.count_eq_zero.mp (by omega)
  · rw [List.count_eq_zero.mpr hh] at hplaces
    refine .inr ⟨?_, by omega⟩
    rintro ⟨f, hf, rfl, rfl⟩
    exact (hi.handed f hf).elim hh fun h => h htaken

/-! ## The steps -/

theorem out_chain {mb : ArpMb} {ipDst : BitVec 32} {room : Bool} {time1 time2 time3 time4 : Nat}
    (hl : LanInv s hist) (hi : ChainInv s hist) (hnew : ∀ c ∈ s.passed, c.ni = j → c.mb.id ≠ mb.id) :
    ChainInv (s.netNetif1OutFunc j mb ipDst room time1 time2 time3 time4).1
      (hist ++ (s.netNetif1OutFunc j mb ipDst room time1 time2 time3 time4).2) := by
  unfold Lan.netNetif1OutFunc
  cases (s.ni j).nextHop ipDst with
  | none =>
    dsimp only
    rw [List.append_nil]
    exact hi
  | some hop =>
    dsimp only
    have hfresh : mb.id ∉ (s.ni j).arp.taken := by
      intro h
      obtain ⟨c, hc, h1, h2⟩ := hi.called j mb.id h
      exact hnew c hc h1 h2
    obtain ⟨hhanded, htaken⟩ := arpResolve_moves (s.ni j).arp mb hop time1 time2 time3 time4
    have htable : TableInv ((s.ni j).arp.arpResolve mb hop time1 time2 time3 time4).1 :=
      arpResolve_inv (hi.table j) hfresh
    refine hi.change [] rfl (fun c hc => List.mem_cons_of_mem _ hc) htable ?_ (by simpa using hhanded)
      (fun _ h => nomatch h) ?_ ?_
    · intro id hid
      have hold : id ∈ (s.ni j).arp.taken → ∃ c ∈ ⟨j, mb, hop⟩ :: s.passed,
          c.ni = j ∧ c.mb.id = id := by
        intro h
        obtain ⟨c, hc, h1, h2⟩ := hi.called j id h
        exact ⟨c, List.mem_cons_of_mem _ hc, h1, h2⟩
      rcases htaken with ht | ⟨ht, -⟩
      · exact hold (ht ▸ hid)
      · rcases List.mem_cons.mp (ht ▸ hid) with rfl | hid
        · exact ⟨_, List.mem_cons_self, rfl, rfl⟩
        · exact hold hid
    · intro f hf
      split at hf
      · obtain ⟨mac, hmac, rfl⟩ := List.mem_map.mp hf
        refine ⟨rfl, .inr ?_⟩
        rcases htaken with ht | ⟨-, hnone⟩
        · exact ht ▸ hfresh
        · rw [hnone] at hmac
          cases hmac
      · cases hf
    · intro f hf hni hout
      rcases htaken with ht | ⟨ht, -⟩
      · exact ht ▸ hout
      · -- the chain of a frame was passed before
        obtain ⟨c, hc, h1, h2⟩ := (hl.sent f hf).call
        have hne := hnew c hc (h1.trans hni)
        rw [h2] at hne
        change f.id ∉ ((s.ni j).arp.arpResolve mb hop time1 time2 time3 time4).1.taken
        rw [ht, List.mem_cons, not_or]
        exact ⟨hne, hout⟩

/-- A packet with an address comes to its entry, or to a new one. -/
theorem LanInv.sole (hl : LanInv s hist) {ip : BitVec 32} (h0 : ip ≠ 0) : Sole (s.ni j).arp.arpArr ip := by
  intro arpe hfind hfree
  have haddr : arpe.itaddr = ip := by simpa using List.find?_some hfind
  exact absurd (haddr.symm.trans ((hl.table j arpe (List.mem_of_find?_eq_some hfind)).free hfree)) h0

theorem input_chain {ea : EtherArp} {room : Bool} {time1 time2 : Nat} (hl : LanInv s hist)
    (hi : ChainInv s hist) (hea : ea ∈ s.wire) (hroomy : Roomy s (.input j ea room time1 time2)) :
    ChainInv (s.arpInput j ea room time1 time2).1 (hist ++ (s.arpInput j ea room time1 time2).2) := by
  obtain ⟨-, ids, hids, -⟩ :=
    arpInput_ok ea.pkt (s.ni j).ipAddr room time1 time2 (hl.table j) (hl.wire ea hea)
  have htaken := arpInput_taken (s.ni j).arp ea.pkt (s.ni j).ipAddr room time1 time2
  have htable : TableInv ((s.ni j).arp.arpInput ea.pkt (s.ni j).ipAddr room time1 time2).1 :=
    arpInput_inv (hi.table j) (.inr ⟨hl.sole hroomy.1, hroomy.2⟩)
  have hsent : (s.ni j).sent ea room time1 time2 = ids := by
    unfold TnNetif.sent TnNetif.input
    rw [hids, List.drop_left]
  refine hi.change ids rfl (fun c hc => hc) htable ?_ hids ?_ ?_ ?_
  · intro id hid
    exact hi.called j id (htaken ▸ hid)
  · intro id hid
    exact ⟨_, List.mem_map.mpr ⟨id, hsent ▸ hid, rfl⟩, rfl, rfl⟩
  · intro f hf
    obtain ⟨id, hid, rfl⟩ := List.mem_map.mp hf
    exact ⟨rfl, .inl (hsent ▸ hid)⟩
  · intro f _ _ hout
    exact htaken ▸ hout

theorem step_chain (hl : LanInv s hist) (hi : ChainInv s hist) (hg : Ethernet s ev) (hr : Roomy s ev) :
    ChainInv (s.step ev).1 (hist ++ (s.step ev).2) := by
  have hset : ∀ i x, x.arp = (s.ni i).arp → ∀ j, ((s.setNi i x).ni j).arp = (s.ni j).arp := by
    intro i x hx j
    by_cases h : j = i
    · rw [h, Lan.setNi_self, hx]
    · rw [Lan.setNi_of_ne s h]
  cases ev with
  | setAddr i ipAddr netmask ipGateway => exact hi.same (hset i _ rfl) rfl
  | chkEnd i saveIpAddr => exact hi.same (hset i _ rfl) rfl
  | out j mb ipDst room time1 time2 time3 time4 => exact out_chain hl hi hg
  | request j tip room shost =>
    cases room with
    | true => exact hi.same (fun _ => rfl) rfl
    | false => exact hi.same (fun _ => rfl) rfl
  | input j ea room time1 time2 => exact input_chain hl hi hg.1 hr
  | timer i cnt clk later =>
    have hmoves : ((s.ni i).arp.arpTimerFunc cnt clk later).taken = (s.ni i).arp.taken ∧
        ((s.ni i).arp.arpTimerFunc cnt clk later).handed = (s.ni i).arp.handed := by
      unfold ArpTable.arpTimerFunc
      split <;> exact ⟨rfl, rfl⟩
    refine hi.change [] rfl (fun c hc => hc) (arpTimerFunc_inv (hi.table i)) ?_ (by simpa using hmoves.2)
      (fun _ h => nomatch h) (fun _ h => nomatch h) ?_
    · intro id hid
      exact hi.called i id (hmoves.1 ▸ hid)
    · intro f _ _ hout
      exact hmoves.1 ▸ hout
  | joins ip mac => exact hi.same (fun _ => rfl) rfl
  | tells ea => exact hi.same (fun _ => rfl) rfl

theorem start_chain (nelem : Nat) (hwAddr : Fin n → Mac) (ipAddr netmask ipGateway : Fin n → BitVec 32) :
    ChainInv (Lan.start nelem hwAddr ipAddr netmask ipGateway) [] where
  table _ := start_inv nelem
  called _ _ h := nomatch h
  framed _ _ h := nomatch h
  handed _ h := nomatch h

theorem run_chain {s0 : Lan n} {es : List (LanEvent n)} (hl : LanInv s0 hist) (hi : ChainInv s0 hist)
    (hg : Machine.Guarded (lanMachine n) (fun s ev => Ethernet s ev ∧ Roomy s ev) (some s0) es)
    (hr : (Machine.run (lanMachine n) (some s0) es).1 = some s) :
    LanInv s (hist ++ (Machine.run (lanMachine n) (some s0) es).2) ∧
      ChainInv s (hist ++ (Machine.run (lanMachine n) (some s0) es).2) :=
  Machine.run_record (fun s hist => LanInv s hist ∧ ChainInv s hist)
    (fun s ev hist s' hi hc h => by
      cases h
      exact ⟨step_lanInv hi.1 hc.1, step_chain hi.1 hi.2 hc.1 hc.2⟩)
    ⟨hl, hi⟩ hg hr

/-- No entry has a chain for an address that a packet was taken from. -/
theorem input_released {ea : EtherArp} {room : Bool} {time1 time2 : Nat}
    (hl : LanInv (s.arpInput j ea room time1 time2).1 hist)
    (hi : ChainInv (s.arpInput j ea room time1 time2).1 hist)
    (hroomy : Roomy s (.input j ea room time1 time2)) (hsha : ea.arpSha ≠ etherbroadcastaddr)
    (hspa : ea.arpSpa ≠ (s.ni j).ipAddr) {c : OutCall n} (hc : c ∈ s.passed)
    (hni : c.ni = j) (hhop : c.hop = ea.arpSpa) :
    c.mb.id ∉ holds ((s.arpInput j ea room time1 time2).1.ni j).arp.arpArr := by
  intro hid
  obtain ⟨e, he, hhold⟩ := List.mem_flatMap.mp hid
  rw [Option.mem_toList] at hhold
  -- the entry is the one for the next hop of the chain
  obtain ⟨mb, hmb, -, -, hpassed⟩ := (hl.table j e he).hold _ hhold
  have haddr : e.itaddr = ea.arpSpa := by
    rw [← hhop, ← hl.once _ hpassed c hc hni.symm hmb]
  have harr : ((s.arpInput j ea room time1 time2).1.ni j).arp =
      ((s.ni j).arp.arpInput ea.pkt (s.ni j).ipAddr room time1 time2).1 :=
    congrArg TnNetif.arp (s.setNi_self j ((s.ni j).input ea room time1 time2))
  have hfree : e.state ≠ .ARP_FREE := fun h => hroomy.1 (haddr ▸ (hl.table j e he).free h)
  have hsingle := (hi.table j).single
  rw [harr] at he hsingle
  rcases arpInput_released ea.pkt (s.ni j).ipAddr room time1 time2
    (by simp [EtherArp.pkt, hsha, hspa]) hroomy.2
    with habsent | ⟨idx, e0, hget, h1, h2, h3⟩
  · exact habsent e he haddr
  · obtain ⟨i, hgeti⟩ := List.mem_iff_getElem?.mp he
    obtain rfl := hsingle i idx e e0 hgeti hget hfree (by simp [h2]) (haddr.trans h1.symm)
    rw [hgeti] at hget
    cases hget
    rw [h3] at hhold
    cases hhold

/-- **A packet from an address releases every chain that waits for it.** -/
theorem reply_releases (nelem : Nat) (hwAddr : Fin n → Mac)
    (ipAddr netmask ipGateway : Fin n → BitVec 32) (s0 : Lan n)
    (h0 : s0 = Lan.start nelem hwAddr ipAddr netmask ipGateway) (es : List (LanEvent n)) (j : Fin n)
    (ea : EtherArp) (room : Bool) (time1 time2 : Nat)
    (hg : Machine.Guarded (lanMachine n) (fun s ev => Ethernet s ev ∧ Roomy s ev) (some s0)
      (es ++ [.input j ea room time1 time2]))
    (hsha : ea.arpSha ≠ etherbroadcastaddr) (hspa : ea.arpSpa ≠ ((s0.after es).ni j).ipAddr) :
    ∀ c ∈ (s0.after (es ++ [.input j ea room time1 time2])).passed, c.ni = j → c.hop = ea.arpSpa →
      c.mb.id ∈ ((s0.after (es ++ [.input j ea room time1 time2])).ni j).arp.taken →
      Settled (s0.after (es ++ [.input j ea room time1 time2]))
        (Machine.run (lanMachine n) (some s0) (es ++ [.input j ea room time1 time2])).2 j c.mb.id := by
  subst h0
  intro c hc hni hhop htaken
  have hl0 := start_lanInv nelem hwAddr ipAddr netmask ipGateway
  obtain ⟨hl, hi⟩ := run_chain hl0 (start_chain nelem hwAddr ipAddr netmask ipGateway) hg (run_after _ _)
  rw [List.nil_append] at hl hi
  obtain ⟨-, hg2⟩ := Machine.guarded_append hg
  rw [run_after] at hg2
  obtain ⟨⟨-, hroomy⟩, -⟩ := hg2
  rw [Lan.after_append] at hl hi hc htaken ⊢
  exact hi.settled htaken (input_released hl hi hroomy hsha hspa hc hni hhop)

/-- The reply of 192.168.0.2 sends the chain that waited for it. -/
theorem reply_releases_pair :
    Settled (pair.after (asks ++ [.input 0 answer true 3 3]))
      (Machine.run (lanMachine 2) (some pair) (asks ++ [.input 0 answer true 3 3])).2 0 7 := by
  refine reply_releases 4 _ _ _ _ pair rfl asks 0 answer true 3 3 ?_ (by decide +kernel) (by decide +kernel)
    ⟨0, ⟨7, false, false⟩, 0xC0A80002⟩ List.mem_cons_self rfl (by decide +kernel) (by decide +kernel)
  change Machine.Guarded _ _ _ [_, _, _, _]
  refine ⟨⟨fun c h => (nomatch h), trivial⟩, ⟨trivial, trivial⟩,
    ⟨⟨?_, ?_⟩, ?_, fun _ _ _ => rfl⟩, ⟨⟨?_, ?_⟩, ?_, fun _ _ _ => rfl⟩, trivial⟩
  all_goals decide +kernel

/-! ## Two stations with one address -/

/-- The interface has its addresses, and what it has told of itself. -/
structure Same (s s' : Lan n) (i : Fin n) : Prop where
  ip : (s'.ni i).ipAddr = (s.ni i).ipAddr
  hw : (s'.ni i).hwAddr = (s.ni i).hwAddr
  dup : (s.ni i).dupOwnIpAddr = true → (s'.ni i).dupOwnIpAddr = true

theorem Same.refl (s : Lan n) (i : Fin n) : Same s s i := ⟨rfl, rfl, id⟩

theorem Same.trans {s₁ s₂ s₃ : Lan n} {i : Fin n} (h : Same s₁ s₂ i) (h' : Same s₂ s₃ i) :
    Same s₁ s₃ i :=
  ⟨h'.ip.trans h.ip, h'.hw.trans h.hw, fun hd => h'.dup (h.dup hd)⟩

theorem setNi_same {x : TnNetif} (i : Fin n) (hip : x.ipAddr = (s.ni j).ipAddr)
    (hhw : x.hwAddr = (s.ni j).hwAddr)
    (hdup : (s.ni j).dupOwnIpAddr = true → x.dupOwnIpAddr = true) : Same s (s.setNi j x) i := by
  by_cases h : i = j
  · subst h
    exact ⟨by rw [Lan.setNi_self, hip], by rw [Lan.setNi_self, hhw], by rwa [Lan.setNi_self]⟩
  · exact ⟨by rw [Lan.setNi_of_ne s h], by rw [Lan.setNi_of_ne s h], by rw [Lan.setNi_of_ne s h]; exact id⟩

/-- What the wire has had stays, and an interface that is not readdressed keeps its addresses. -/
theorem step_same (s : Lan n) (ev : LanEvent n) {i : Fin n} (hq : ¬ev.readdresses i) :
    Same s (s.step ev).1 i ∧ ∀ ea ∈ s.wire, ea ∈ (s.step ev).1.wire := by
  cases ev with
  | setAddr j ipAddr netmask ipGateway =>
    have h : Same s (s.setNi j { s.ni j with ipAddr := ipAddr, netmask := netmask,
                                             ipGateway := ipGateway }) i := by
      have hne : i ≠ j := fun h => hq h.symm
      exact ⟨by rw [Lan.setNi_of_ne s
        hne], by rw [Lan.setNi_of_ne s hne], by rw [Lan.setNi_of_ne s hne]; exact id⟩
    exact ⟨⟨h.ip, h.hw, h.dup⟩, fun ea h => h⟩
  | chkEnd j saveIpAddr =>
    have h : Same s (s.setNi j { s.ni j with ipAddr := saveIpAddr, dupOwnIpAddr := false }) i := by
      have hne : i ≠ j := fun h => hq h.symm
      exact ⟨by rw [Lan.setNi_of_ne s
        hne], by rw [Lan.setNi_of_ne s hne], by rw [Lan.setNi_of_ne s hne]; exact id⟩
    exact ⟨⟨h.ip, h.hw, h.dup⟩, fun ea h => h⟩
  | out j mb ipDst room time1 time2 time3 time4 =>
    unfold Lan.step Lan.netNetif1OutFunc
    dsimp only
    split
    · exact ⟨Same.refl s i, fun _ h => h⟩
    · rename_i hop hhop
      have h := setNi_same (s := s) (j := j) (x := { s.ni j with
        arp := ((s.ni j).arp.arpResolve mb hop time1 time2 time3 time4).1 }) i rfl rfl id
      exact ⟨⟨h.ip, h.hw, h.dup⟩, fun _ h => h⟩
  | request j tip room shost =>
    cases room with
    | true => exact ⟨⟨rfl, rfl, id⟩, fun _ h => List.mem_cons_of_mem _ h⟩
    | false => exact ⟨Same.refl s i, fun _ h => h⟩
  | input j ea room time1 time2 =>
    have h := setNi_same (s := s) (j := j) (x := (s.ni j).input ea room time1 time2) i rfl rfl fun h => by
      unfold TnNetif.input
      dsimp only
      rw [h, Bool.true_or]
    exact ⟨⟨h.ip, h.hw, h.dup⟩, fun _ h => List.mem_append_right _ h⟩
  | timer j cnt clk later =>
    have h :=
      setNi_same (s := s) (j := j) (x := { s.ni j with arp := (s.ni j).arp.arpTimerFunc cnt clk later }) i
      rfl rfl id
    exact ⟨h, fun _ h => h⟩
  | joins ip mac => exact ⟨⟨rfl, rfl, id⟩, fun _ h => h⟩
  | tells ea => exact ⟨⟨rfl, rfl, id⟩, fun _ h => List.mem_cons_of_mem _ h⟩

theorem after_same (s : Lan n) {es : List (LanEvent n)} {i : Fin n} (hq : ∀ ev ∈ es, ¬ev.readdresses i) :
    Same s (s.after es) i ∧ ∀ ea ∈ s.wire, ea ∈ (s.after es).wire := by
  induction es generalizing s with
  | nil => exact ⟨Same.refl s i, fun _ h => h⟩
  | cons ev es ih =>
    obtain ⟨h1, h2⟩ := step_same s ev (hq ev List.mem_cons_self)
    obtain ⟨h3, h4⟩ := ih (s.step ev).1 fun e he => hq e (List.mem_cons_of_mem ev he)
    exact ⟨h1.trans h3, fun ea hea => h4 ea (h2 ea hea)⟩

/-- Only the end of the check clears `dup_own_ip_addr`. -/
theorem step_dup (s : Lan n) (ev : LanEvent n) {i : Fin n} (hq : ¬ev.endsCheck i)
    (hd : (s.ni i).dupOwnIpAddr = true) : ((s.step ev).1.ni i).dupOwnIpAddr = true := by
  by_cases hr : ev.readdresses i
  · cases ev with
    | setAddr j ipAddr netmask ipGateway =>
      have hj : j = i := hr
      subst hj
      refine (congrArg TnNetif.dupOwnIpAddr (s.setNi_self j _)).trans ?_
      exact hd
    | chkEnd j saveIpAddr => exact absurd hr hq
    | _ => exact hr.elim
  · exact (step_same s ev hr).1.dup hd

theorem after_dup (s : Lan n) {es : List (LanEvent n)} {i : Fin n} (hq : ∀ ev ∈ es, ¬ev.endsCheck i)
    (hd : (s.ni i).dupOwnIpAddr = true) : ((s.after es).ni i).dupOwnIpAddr = true := by
  induction es generalizing s with
  | nil => exact hd
  | cons ev es ih =>
    exact ih (s.step ev).1 (fun e he => hq e (List.mem_cons_of_mem ev he))
      (step_dup s ev (hq ev List.mem_cons_self) hd)

/-- A request of a station with the same address is answered. -/
theorem arpReply_dup {x y : TnNetif} (hip : x.ipAddr = y.ipAddr) (hhw : x.hwAddr ≠ etherbroadcastaddr)
    (tip : BitVec 32) (shost : Mac) : ∃ r, arpReply y (arpRequest x tip shost) = some r ∧
    r.arpSha = y.hwAddr ∧
      r.arpSpa = x.ipAddr := by
  have hitaddr : (if (arpRequest x tip shost).arpSpa = y.ipAddr then y.ipAddr
      else (arpRequest x tip shost).arpTpa) = y.ipAddr := if_pos hip
  unfold arpReply
  dsimp only
  rw [if_neg (by exact hhw), hitaddr, if_pos ⟨rfl, rfl⟩]
  exact ⟨_, rfl, rfl, hip.symm⟩

/-- The reply depends on the addresses alone. -/
theorem arpReply_congr {x y : TnNetif} (hip : x.ipAddr = y.ipAddr) (hhw : x.hwAddr = y.hwAddr)
    (ea : EtherArp) : arpReply x ea = arpReply y ea := by
  unfold arpReply
  rw [hip, hhw]

/-- **The request of an interface finds the other station with its address.** -/
theorem dup_found (s : Lan n) (j k : Fin n) (tip : BitVec 32) (shost : Mac) (room1 room2 : Bool)
    (time1 time2 time3 time4 : Nat) (es₁ es₂ es₃ : List (LanEvent n))
    (hip : (s.ni j).ipAddr = (s.ni k).ipAddr) (hj : (s.ni j).hwAddr ≠ etherbroadcastaddr)
    (hk : (s.ni k).hwAddr ≠ etherbroadcastaddr) (hqj : ∀ ev ∈ es₁ ++ es₂, ¬ev.readdresses j)
    (hqk : ∀ ev ∈ es₁, ¬ev.readdresses k) (hend : ∀ ev ∈ es₃, ¬ev.endsCheck j) :
    ∃ rep, arpReply (s.ni k) (arpRequest (s.ni j) tip shost) = some rep ∧
      arpRequest (s.ni j) tip shost ∈ (s.after (.request j tip true shost :: es₁)).wire ∧
      rep ∈ (s.after (.request j tip true shost :: es₁ ++
        .input k (arpRequest (s.ni j) tip shost) room1 time1 time2 :: es₂)).wire ∧
      ((s.after (.request j tip true shost :: es₁ ++
        .input k (arpRequest (s.ni j) tip shost) room1 time1 time2 :: es₂ ++
        .input j rep room2 time3 time4 :: es₃)).ni j).dupOwnIpAddr = true := by
  obtain ⟨rep, hrep, hsha, hspa⟩ := arpReply_dup hip hj tip shost
  generalize hreq : arpRequest (s.ni j) tip shost = req at hrep ⊢
  have hq1 : ∀ ev ∈ LanEvent.request j tip true shost :: es₁, ¬ev.readdresses j :=
    List.forall_mem_cons.mpr ⟨id, fun ev h => hqj ev (List.mem_append_left _ h)⟩
  have hqk1 : ∀ ev ∈ LanEvent.request j tip true shost :: es₁, ¬ev.readdresses k :=
    List.forall_mem_cons.mpr ⟨id, hqk⟩
  have hq2 : ∀ ev ∈ LanEvent.input k req room1 time1 time2 :: es₂, ¬ev.readdresses j :=
    List.forall_mem_cons.mpr ⟨id, fun ev h => hqj ev (List.mem_append_right _ h)⟩
  have hj1 := (after_same s hq1).1
  have hk1 := (after_same s hqk1).1
  refine ⟨rep, hrep, ?_⟩
  simp only [Lan.after_append]
  generalize hs1 : s.after (.request j tip true shost :: es₁) = s1 at hj1 hk1 ⊢
  have hj2 := (after_same s1 hq2).1
  have hwire : rep ∈ (s1.after (.input k req room1 time1 time2 :: es₂)).wire := by
    refine (after_same _ (i := j) fun ev h => hq2 ev (List.mem_cons_of_mem _ h)).2 rep ?_
    refine List.mem_append_left _ (Option.mem_toList.mpr ?_)
    rw [arpReply_congr hk1.ip hk1.hw]
    exact hrep
  generalize s1.after (.input k req room1 time1 time2 :: es₂) = s2 at hj2 hwire ⊢
  refine ⟨?_, hwire, ?_⟩
  · rw [← hs1, ← hreq]
    exact (after_same _ (i := j) fun ev h => hq1 ev (List.mem_cons_of_mem _ h)).2 _ List.mem_cons_self
  · refine after_dup (s2.step (.input j rep room2 time3 time4)).1 hend ?_
    have hself : ((s2.step (.input j rep room2 time3 time4)).1.ni j) =
        (s2.ni j).input rep room2 time3 time4 :=
      s2.setNi_self j _
    rw [hself]
    refine (Bool.or_eq_true _ _).mpr (.inr (decide_eq_true ⟨?_, ?_⟩))
    · rw [hsha]
      exact hk
    · rw [hspa, hj2.ip, hj1.ip]

/-- Two interfaces with the address 192.168.0.1. -/
def twins : Lan 2 :=
  Lan.start 4 ![0x0250C2000001, 0x0250C2000002] ![0xC0A80001, 0xC0A80001] ![0xFFFFFF00, 0xFFFFFF00] ![0, 0]

/-- `dhcp_chk_dup_IP` of the first one; another request comes between. -/
theorem dup_found_twins :
    ∃ rep, arpReply (twins.ni 1) (arpRequest (twins.ni 0) 0xC0A80001 0) = some rep ∧
      arpRequest (twins.ni 0) 0xC0A80001 0 ∈ (twins.after [.request 0 0xC0A80001 true 0]).wire ∧
      rep ∈ (twins.after ([.request 0 0xC0A80001 true 0] ++
        [.input 1 (arpRequest (twins.ni 0) 0xC0A80001 0) true 1 1, .request 0 0xC0A80001 true 0])).wire ∧
      ((twins.after ([.request 0 0xC0A80001 true 0] ++
        [.input 1 (arpRequest (twins.ni 0) 0xC0A80001 0) true 1 1, .request 0 0xC0A80001 true 0] ++
        [.input 0 rep true 2 2])).ni 0).dupOwnIpAddr = true :=
  dup_found twins 0 1 0xC0A80001 0 true true 1 1 2 2 [] [.request 0 0xC0A80001 true 0] [] rfl
    (by decide) (by decide) (fun ev h => by
      rw [List.mem_singleton.mp h]
      exact id)
    (fun _ h => nomatch h) (fun _ h => nomatch h)

end TnNet.Arp
