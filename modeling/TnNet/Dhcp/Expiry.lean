import TnNet.Dhcp.Rules

/-!
# The end of a lease

`lease_expires`: once more than `10 * lease_time` timer ticks have passed since `dhcp_record_lease` and
the task has processed its queue, it has left the states in which the lease is used — in every run in
which T1 is due in the time of the lease, its event finds room in the queue, and a request for renewal
is made, and its answer is waited for anew, only while the time for one more receive is left; and in
which T2 does not end the wait for the answer.  The state `DHCP_ST_REBINDING` is left by an answer only,
and T2 is ignored in `DHCP_ST_BOUND`: `bound_for_ever`.
-/

set_option autoImplicit false

namespace TnNet.Dhcp

namespace DhcpInfo

variable {s : DhcpInfo} {xid : BitVec 32} {data : List UInt8} {dup : Bool}

/-! ## The statement -/

/-- The lease that was recorded is finite. -/
def finite (s : DhcpInfo) : Prop := s.cur.leaseTime ≠ DHCP_INFINITE_LEASE

/-- The lease in timer ticks. -/
def ticks (s : DhcpInfo) : Nat := 10 * s.cur.leaseTime.toNat

/-- The lease has ended, and the task has processed its queue: then it does not use the lease. -/
def Expires (s : DhcpInfo) : Prop :=
  ∀ age, s.age = some age → s.finite → s.ticks < age → s.queue = [] → s.waiting = true →
    s.state ≠ .DHCP_ST_BOUND ∧ s.state ≠ .DHCP_ST_RENEWING ∧ s.state ≠ .DHCP_ST_REBINDING

/-- The task waits no longer than its timeout, a tick is 100 ms. -/
def OnTime (s : DhcpInfo) : DhcpEvent → Prop
  | .tick => s.waiting = true → s.queue = [] → s.waited * 100 < s.rxTimeout
  | _ => True

/-- The time of a receive is left. -/
def inTime (s : DhcpInfo) : Prop := s.finite → ∀ age ∈ s.age, age + 5 ≤ s.ticks

/-- T1 is due in the time of the lease. -/
def t1Due (d : Working) : Prop :=
  (recordFields d).leaseTime ≠ DHCP_INFINITE_LEASE →
    0 < (recordFields d).t1Timeout ∧ (recordFields d).t1Timeout ≤ 10 * (recordFields d).leaseTime.toNat ∧
      (recordFields d).renewalTime ≠ DHCP_INFINITE_LEASE

/-- The condition on an item of the queue. -/
def prompt (s : DhcpInfo) : Item → Prop
  | .DHCP_T1_EXPIRED_EVENT => s.state = .DHCP_ST_BOUND ∨ s.state = .DHCP_ST_RENEWING → s.inTime
  | .DHCP_T2_EXPIRED_EVENT => s.state ≠ .DHCP_ST_RENEWING
  | .data bytes => s.state = .DHCP_ST_RENEWING → s.answers bytes ∨ s.inTime

/-- The condition on a step. -/
def Renews (s : DhcpInfo) : DhcpEvent → Prop
  | .tick => s.state = .DHCP_ST_BOUND → s.cur.t1Timeout = 1 → s.queue.length < s.room
  | .receive _ => ∀ item ∈ s.queue.head?, s.prompt item
  | .checked dup _ => dup = false → t1Due s.d
  | _ => True

instance (s : DhcpInfo) : Decidable s.inTime := by
  unfold inTime finite
  infer_instance

instance (s : DhcpInfo) (data : List UInt8) : Decidable (s.answers data) := by
  unfold answers
  infer_instance

instance (d : Working) : Decidable (t1Due d) := by
  unfold t1Due
  infer_instance

instance (s : DhcpInfo) (item : Item) : Decidable (s.prompt item) := by
  cases item <;> unfold prompt <;> infer_instance

instance (s : DhcpInfo) (ev : DhcpEvent) : Decidable (OnTime s ev) := by
  cases ev <;> unfold OnTime <;> infer_instance

instance (s : DhcpInfo) (ev : DhcpEvent) : Decidable (Renews s ev) := by
  cases ev <;> unfold Renews <;> infer_instance

/-! ## The invariant -/

/-- T1 is to come. -/
def t1Comes (s : DhcpInfo) (age : Nat) : Prop :=
  (0 < s.cur.t1Timeout ∧ age + s.cur.t1Timeout ≤ s.ticks) ∨ Item.DHCP_T1_EXPIRED_EVENT ∈ s.queue

/-- The answer is waited for as long as the lease lasts. -/
structure AnswerDue (s : DhcpInfo) (age : Nat) : Prop where
  timeout : s.rxTimeout = 500
  due : s.waiting = true → age + 5 ≤ s.ticks + s.waited
  waits : s.waiting = true → s.queue = [] → s.waited ≤ 5

structure LeaseInv (s : DhcpInfo) : Prop where
  rebinding : s.state ≠ .DHCP_ST_REBINDING
  bound : s.state = .DHCP_ST_BOUND → s.finite →
    s.cur.renewalTime ≠ DHCP_INFINITE_LEASE ∧ ∃ age, s.age = some age ∧ s.t1Comes age
  renewing : s.state = .DHCP_ST_RENEWING → s.finite → ∃ age, s.age = some age ∧ s.AnswerDue age

theorem LeaseInv.expires (hi : LeaseInv s) : s.Expires := by
  intro age hage hfin hlt hq hw
  refine ⟨fun hb => ?_, fun hr => ?_, hi.rebinding⟩
  · obtain ⟨-, age', hage', ht1 | ht1⟩ := hi.bound hb hfin
    · cases hage.symm.trans hage'
      omega
    · rw [hq] at ht1
      cases ht1
  · obtain ⟨age', hage', hdue⟩ := hi.renewing hr hfin
    cases hage.symm.trans hage'
    have h1 := hdue.due hw
    have h2 := hdue.waits hw hq
    omega

/-- A state in which no lease is used. -/
theorem LeaseInv.idle (h1 : s.state ≠ .DHCP_ST_BOUND) (h2 : s.state ≠ .DHCP_ST_RENEWING)
    (h3 : s.state ≠ .DHCP_ST_REBINDING) : LeaseInv s :=
  ⟨h3, fun h => absurd h h1, fun h => absurd h h2⟩

theorem prepare_inv (s : DhcpInfo) : LeaseInv s.dhcpPrepareInitState :=
  .idle (fun h => nomatch h) (fun h => nomatch h) (fun h => nomatch h)

theorem start_inv (hwAddr : List UInt8) (dh : Nat → UInt8) : LeaseInv (start hwAddr dh) :=
  .idle (fun h => nomatch h) (fun h => nomatch h) (fun h => nomatch h)

/-! ## The timer and the queue -/

theorem tick_inv (hi : LeaseInv s) (ht : OnTime s .tick) (hc : Renews s .tick) :
    LeaseInv s.dhcpTimerFunc := by
  refine ⟨hi.rebinding, fun hb hfin => ?_, fun hr hfin => ?_⟩
  · obtain ⟨hren, age, hage, ht1⟩ := hi.bound hb hfin
    have hage' : (s.dhcpTimerFunc).age = some (age + 1) := by
      simp only [dhcpTimerFunc, hage, Option.map_some]
    refine ⟨hren, age + 1, hage', ?_⟩
    rcases ht1 with ⟨hpos, hle⟩ | hmem
    · rcases countdown_spec hpos .DHCP_T1_EXPIRED_EVENT (hc hb) with ⟨h1, h2⟩ | hmem
      · refine .inl ⟨h2, ?_⟩
        have h3 : (s.dhcpTimerFunc).cur.t1Timeout =
            (countdown s.room s.cur.t1Timeout .DHCP_T1_EXPIRED_EVENT s.queue).1 :=
          rfl
        have h4 : (s.dhcpTimerFunc).ticks = s.ticks := rfl
        omega
      · exact .inr (mem_countdown hmem _ _ _)
    · exact .inr (mem_countdown (mem_countdown hmem _ _ _) _ _ _)
  · obtain ⟨age, hage, hdue⟩ := hi.renewing hr hfin
    have hage' : (s.dhcpTimerFunc).age = some (age + 1) := by
      simp only [dhcpTimerFunc, hage, Option.map_some]
    have hwait : (s.dhcpTimerFunc).waited = s.waited + 1 := rfl
    have hticks : (s.dhcpTimerFunc).ticks = s.ticks := rfl
    refine ⟨age + 1, hage', hdue.timeout, fun hw => ?_, fun hw hq => ?_⟩
    · have := hdue.due hw
      omega
    · have h1 := ht hw (nil_of_countdown (nil_of_countdown hq))
      have h2 := hdue.timeout
      omega

theorem arrive_inv (hi : LeaseInv s) (item : Item) (room : Nat) (handed : Bool) :
    LeaseInv { s with queue := sendPolling room s.queue item, handed } := by
  refine ⟨hi.rebinding, fun hb hfin => ?_, fun hr hfin => ?_⟩
  · obtain ⟨hren, age, hage, ht1⟩ := hi.bound hb hfin
    exact ⟨hren, age, hage, ht1.imp_right fun h => mem_sendPolling h item room⟩
  · obtain ⟨age, hage, hdue⟩ := hi.renewing hr hfin
    exact ⟨age, hage, hdue.timeout, hdue.due, fun hw hq => hdue.waits hw (nil_of_sendPolling hq)⟩

/-! ## The task -/

/-- The task has taken an item, or its receive has timed out, and waits anew. -/
structure Taken (s : DhcpInfo) : Prop where
  rebinding : s.state ≠ .DHCP_ST_REBINDING
  waited : s.waited = 0
  bound : s.state = .DHCP_ST_BOUND → s.finite →
    s.cur.renewalTime ≠ DHCP_INFINITE_LEASE ∧ ∃ age, s.age = some age ∧ s.t1Comes age
  renewing : s.state = .DHCP_ST_RENEWING → s.finite →
    s.rxTimeout = 500 ∧ ∃ age, s.age = some age ∧ (s.waiting = true → age + 5 ≤ s.ticks)

theorem Taken.inv (h : Taken s) : LeaseInv s := by
  refine ⟨h.rebinding, h.bound, fun hr hfin => ?_⟩
  obtain ⟨ht, age, hage, hdue⟩ := h.renewing hr hfin
  exact ⟨age, hage, ht,
    fun hw => by rw [h.waited]; exact hdue hw, fun _ _ => by rw [h.waited]; exact Nat.zero_le 5⟩

/-- What holds when an item has been taken from the queue. -/
structure Took (s : DhcpInfo) (item : Item) : Prop where
  rebinding : s.state ≠ .DHCP_ST_REBINDING
  waited : s.waited = 0
  bound : s.state = .DHCP_ST_BOUND → s.finite → s.cur.renewalTime ≠ DHCP_INFINITE_LEASE ∧
    ∃ age, s.age = some age ∧ (item ≠ .DHCP_T1_EXPIRED_EVENT → s.t1Comes age)
  renewing : s.state = .DHCP_ST_RENEWING → s.finite → s.rxTimeout = 500 ∧ ∃ age, s.age = some age

theorem LeaseInv.took {item : Item} {q : List Item} (hi : LeaseInv s) (hq : s.queue = item :: q) :
    Took { s with queue := q, handed := false, waited := 0 } item := by
  refine ⟨hi.rebinding, rfl, fun hb hfin => ?_, fun hr hfin => ?_⟩
  · obtain ⟨hren, age, hage, ht1⟩ := hi.bound hb hfin
    refine ⟨hren, age, hage, fun hne => ht1.imp_right fun hmem => ?_⟩
    rw [hq] at hmem
    exact (List.mem_cons.mp hmem).resolve_left fun h => hne h.symm
  · obtain ⟨age, hage, hdue⟩ := hi.renewing hr hfin
    exact ⟨hdue.timeout, age, hage⟩

/-- The item is not T1, and the state is as before. -/
theorem Took.keep {item : Item} (h : Took s item) (hne : item ≠ .DHCP_T1_EXPIRED_EVENT)
    (hr : s.state = .DHCP_ST_RENEWING → s.waiting = true → s.inTime) : Taken s := by
  refine ⟨h.rebinding, h.waited, fun hb hfin => ?_, fun hs hfin => ?_⟩
  · obtain ⟨hren, age, hage, ht1⟩ := h.bound hb hfin
    exact ⟨hren, age, hage, ht1 hne⟩
  · obtain ⟨ht, age, hage⟩ := h.renewing hs hfin
    exact ⟨ht, age, hage, fun hw => hr hs hw hfin age hage⟩

/-- T1 begins the renewal. -/
theorem onT1_inv (h : Took s .DHCP_T1_EXPIRED_EVENT) (hp : s.prompt .DHCP_T1_EXPIRED_EVENT) :
    LeaseInv (s.onT1 xid) := by
  unfold onT1
  split
  · rename_i hb
    obtain ⟨dh, x, hreq⟩ := dhcpRequest_eq { s with rxTimeout := 500 } xid
    rw [hreq]
    refine Taken.inv ⟨fun h => (nomatch h), h.waited, fun h => (nomatch h), fun _ hfin => ?_⟩
    obtain ⟨-, age, hage, -⟩ := h.bound hb.2 hfin
    exact ⟨rfl, age, hage, fun _ => hp (.inl hb.2) hfin age hage⟩
  · rename_i hno
    refine Taken.inv ⟨h.rebinding, h.waited, fun hb hfin => ?_, fun hr hfin => ?_⟩
    · exact absurd ⟨(h.bound hb hfin).1, hb⟩ hno
    · obtain ⟨ht, age, hage⟩ := h.renewing hr hfin
      exact ⟨ht, age, hage, fun _ => hp (.inr hr) hfin age hage⟩

/-- T2 is ignored. -/
theorem onT2_inv (h : Took s .DHCP_T2_EXPIRED_EVENT) (hp : s.prompt .DHCP_T2_EXPIRED_EVENT) :
    LeaseInv (s.onT2 xid) := by
  have hkeep : LeaseInv s := (h.keep (fun h => nomatch h) fun hr => absurd hr hp).inv
  unfold onT2
  split
  · rw [if_neg hp, if_neg h.rebinding]
    exact hkeep
  · exact hkeep

theorem onData_inv (h : Took s (.data data)) (hp : s.prompt (.data data)) :
    LeaseInv (s.onData data xid).1 := by
  have hrule := onData_rule s data xid
  generalize s.onData data xid = r at hrule ⊢
  have hne : Item.data data ≠ .DHCP_T1_EXPIRED_EVENT := fun h => nomatch h
  cases hrule with
  | ack hasks =>
    -- the task is in `dhcp_chk_dup_IP`
    refine Taken.inv ⟨h.rebinding, h.waited, fun hb => ?_, fun hr hfin => ?_⟩
    · have hb' : s.state = .DHCP_ST_BOUND := hb
      rcases hasks with h | h | h | h <;> exact absurd (hb'.symm.trans h) (fun h => nomatch h)
    · obtain ⟨ht, age, hage⟩ := h.renewing hr hfin
      exact ⟨ht, age, hage, fun hw => nomatch hw⟩
  | nak hasks => exact prepare_inv _
  | offer d dh x hst least most parse =>
    exact .idle (fun h => nomatch h) (fun h => nomatch h) (fun h => nomatch h)
  | refused d hst =>
    have hst' : ∀ x, x ≠ .DHCP_ST_SELECTING → s.state ≠ x := fun x hx h => hx (h.symm.trans hst)
    exact .idle (hst' _ fun h => nomatch h) (hst' _ fun h => nomatch h) (hst' _ fun h => nomatch h)
  | ignored hign =>
    have hk : Taken s := h.keep hne fun hr _ => (hp hr).resolve_left (hign hr)
    exact Taken.inv ⟨hk.rebinding, hk.waited, hk.bound, hk.renewing⟩

/-- A receive that times out ends the renewal. -/
theorem onTimeout_inv (hi : LeaseInv s) : LeaseInv ({ s with waited := 0 }.onTimeout xid) := by
  have hrule := onTimeout_rule { s with waited := 0 } xid
  generalize DhcpInfo.onTimeout _ xid = r at hrule
  cases hrule with
  | same hst =>
    refine ⟨hi.rebinding, hi.bound, fun hr => ?_⟩
    have hr' : s.state = .DHCP_ST_RENEWING := hr
    rcases hst with h | h <;> exact absurd (hr'.symm.trans h) (fun h => nomatch h)
  | init => exact prepare_inv _
  | selecting dh x hst => exact .idle (fun h => nomatch h) (fun h => nomatch h) (fun h => nomatch h)
  | rebooting dh x hst => exact .idle (fun h => nomatch h) (fun h => nomatch h) (fun h => nomatch h)

/-- A lease is recorded, or declined. -/
theorem onChecked_inv {saveIpAddr : BitVec 32} (hc : dup = false → t1Due s.d) :
    LeaseInv (s.onChecked saveIpAddr dup xid).1 := by
  unfold onChecked
  cases dup with
  | true => exact prepare_inv _
  | false =>
    refine ⟨fun h => (nomatch h), fun _ hfin => ?_, fun h => (nomatch h)⟩
    obtain ⟨hpos, hle, hren⟩ := hc rfl hfin
    exact ⟨hren, 0, rfl, .inl ⟨hpos, by rw [Nat.zero_add]; exact hle⟩⟩

/-! ## Runs -/

theorem step_inv {ev : DhcpEvent} (hi : LeaseInv s) (ht : OnTime s ev) (hc : Renews s ev) :
    LeaseInv (s.step ev).1 := by
  cases ev with
  | tick => exact tick_inv hi ht hc
  | arrive data => exact arrive_inv hi (.data data) _ _
  | receive xid =>
    unfold step
    dsimp only
    split
    · cases hq : s.queue with
      | nil => exact hi
      | cons item q =>
        have htook := hi.took hq
        have hp : s.prompt item := hc item (by rw [hq]; rfl)
        cases item with
        | DHCP_T1_EXPIRED_EVENT => exact onT1_inv htook hp
        | DHCP_T2_EXPIRED_EVENT => exact onT2_inv htook hp
        | data bytes => exact onData_inv htook hp
    · exact hi
  | timeout xid =>
    unfold step
    dsimp only
    split
    · exact onTimeout_inv hi
    · exact hi
  | checked dup xid =>
    unfold step
    dsimp only
    cases s.saveIpAddr with
    | none => exact hi
    | some saveIpAddr => exact onChecked_inv hc

/-- **The end of a lease.**  In every run in which the renewal comes in time, the task has left the
    states in which the lease is used when the lease has ended and the queue is processed. -/
theorem lease_expires (hwAddr : List UInt8) (dh : Nat → UInt8) (es : List DhcpEvent)
    (hg : Machine.Guarded dhcpMachine (fun s ev => OnTime s ev ∧ Renews s ev) (some (start hwAddr dh)) es) :
    ∀ s, (Machine.run dhcpMachine (some (start hwAddr dh)) es).1 = some s → s.Expires := by
  have hrun := Machine.run_invariant LeaseInv (fun _ => True) ?_ ?_ hg
  · exact fun s hs => (hrun.1 s hs).expires
  · intro s ev hi hc
    refine ⟨fun s' h => ?_, fun _ _ => trivial⟩
    cases h
    exact step_inv hi hc.1 hc.2
  · intro s h
    cases h
    exact start_inv hwAddr dh

/-! ## Two runs -/

/-- A lease for some seconds. -/
def offer (seconds : UInt8) : List UInt8 :=
  reply 7 [53, 1, 2, 54, 4, 192, 168, 0, 1, 51, 4, 0, 0, 0, seconds, 255]

/-- Two ticks, and the receive times out. -/
def idle : List DhcpEvent := [.tick, .tick, .timeout 0]

/-- T1 comes behind 20 ticks, the request is not answered. -/
def renewal : List DhcpEvent :=
  obtain (offer 4) ++ (List.replicate 10 idle).flatten.dropLast ++
    [.receive 8, .tick, .tick, .tick, .tick, .tick, .timeout 0]

theorem renewal_renews : Machine.Guarded dhcpMachine (fun s ev => OnTime s ev ∧ Renews s ev)
    (some (start ownMac fun _ => 0)) renewal := by decide +kernel

theorem lease_expires_small :
    ∃ s, (Machine.run dhcpMachine (some (start ownMac fun _ => 0)) renewal).1 = some s ∧ s.Expires := by
  obtain ⟨s, hs⟩ :=
    Machine.run_total dhcpMachine (fun s ev => ⟨_, rfl⟩) (start ownMac fun _ => 0) renewal
  exact ⟨s, hs, lease_expires ownMac (fun _ => 0) renewal renewal_renews s hs⟩

/-- Four datagrams fill the queue when T1 is due. -/
def flood : List DhcpEvent :=
  obtain (offer 2) ++ (List.replicate 4 idle).flatten ++
    [.tick, .arrive [0], .arrive [0], .arrive [0], .arrive [0], .tick, .receive 0, .receive 0,
      .receive 0, .receive 0] ++
    (List.replicate 6 idle).flatten

theorem flood_onTime : Machine.Guarded dhcpMachine OnTime (some (start ownMac fun _ => 0)) flood := by
  decide +kernel

/-- Its event is lost, and the lease is used on. -/
theorem bound_for_ever :
    ¬ ∀ (hwAddr : List UInt8) (dh : Nat → UInt8) (es : List DhcpEvent),
      Machine.Guarded dhcpMachine OnTime (some (start hwAddr dh)) es →
      ∀ s, (Machine.run dhcpMachine (some (start hwAddr dh)) es).1 = some s → s.Expires := by
  intro h
  obtain ⟨s, hs⟩ := Machine.run_total dhcpMachine (fun s ev => ⟨_, rfl⟩) (start ownMac fun _ => 0) flood
  have hlast : (Machine.run dhcpMachine (some (start ownMac fun _ => 0)) flood).1.map
      (fun s => (s.age, s.queue, s.waiting, s.state, s.cur.leaseTime)) =
        some (some 22, [], true, .DHCP_ST_BOUND, 2) := by decide +kernel
  have hexp := h ownMac (fun _ => 0) flood flood_onTime s hs
  rw [hs, Option.map_some] at hlast
  simp only [Option.some.injEq, Prod.mk.injEq] at hlast
  obtain ⟨hage, hq, hw, hst, hlease⟩ := hlast
  have hfin : s.finite := by
    unfold finite
    rw [hlease]
    decide
  have hlt : s.ticks < 22 := by
    unfold ticks
    rw [hlease]
    decide
  exact (hexp 22 hage hfin hlt hq hw).1 hst

end DhcpInfo

end TnNet.Dhcp
