import TnNet.Dhcp.Rules

/-!
# What a recorded lease depends on

`exchange_determines`: two runs that end with the same OFFER and a recorded lease record the same — when
the OFFER ends within its bytes and has all options the client records.  `dhcp_parse_offer` overwrites
the fields whose options are present; the others keep what earlier offers have left, and the defaults
`dhcp_record_lease` has computed: `lease_leaks`.
-/

set_option autoImplicit false

namespace TnNet.Dhcp

variable {dh dh₁ dh₂ : Nat → UInt8} {d d₁ d₂ : Working} {m : List UInt8} {i fuel : Nat} {t : UInt8}
  {ts : List UInt8} {got : Bool}

/-! ## The options of an OFFER -/

/-- The options with an address or a time. -/
def wordOptions : List UInt8 :=
  [DHCP_OPT_SUBNET_MASK, DHCP_OPT_ROUTERS_ON_SNET, DHCP_OPT_SRV_IDENTIFIER, DHCP_OPT_IP_ADDR_LEASE_TIME,
    DHCP_OPT_T1_VALUE, DHCP_OPT_T2_VALUE, DHCP_OPT_BROADCAST_ADDR]

/-- The options that are recorded. -/
def recordedOptions : List UInt8 := DHCP_OPT_DNS_SRV :: wordOptions

/-- The number of bytes that are read of an option. -/
def optionSize (t len : UInt8) : Nat :=
  if t = DHCP_OPT_DNS_SRV then 2 + 4 * ((len.toNat + 3) / 4)
  else if t ∈ wordOptions then 6
  else if t = DHCP_OPT_MSG_TYPE then 3
  else 2

theorem two_le_optionSize (t len : UInt8) : 2 ≤ optionSize t len := by
  unfold optionSize
  split
  · omega
  · split
    · omega
    · split <;> omega

/-- The options of a datagram, up to its end; none when they leave it. -/
def options (m : List UInt8) : Nat → Nat → Option (List UInt8)
  | 0, _ => none
  | fuel + 1, i =>
    if i < DHCP_OPTIONS_SIZE then
      if m.length ≤ 236 + i then none
      else if m.getD (236 + i) 0 = DHCP_OPT_PAD then options m fuel (i + 1)
      else if m.getD (236 + i) 0 = DHCP_OPT_END then some []
      else if 236 + i + optionSize (m.getD (236 + i) 0) (m.getD (236 + (i + 1)) 0) ≤ m.length then
        (options m fuel (i + ((m.getD (236 + (i + 1)) 0).toNat + 2))).map (m.getD (236 + i) 0 :: ·)
      else none
    else some []

/-- The datagram ends within its bytes, and has all options that are recorded. -/
def Complete (m : List UInt8) : Prop :=
  ∃ ts ∈ options m DHCP_OPTIONS_SIZE 4, ∀ t ∈ recordedOptions, t ∈ ts

instance (m : List UInt8) : Decidable (Complete m) := by
  unfold Complete
  infer_instance

/-! ## One option -/

/-- The field of an option. -/
def field (t : UInt8) (d : Working) : List (BitVec 32) :=
  if t = DHCP_OPT_SUBNET_MASK then [d.dSubnetMask]
  else if t = DHCP_OPT_ROUTERS_ON_SNET then [d.dRouterAddr]
  else if t = DHCP_OPT_SRV_IDENTIFIER then [d.dDhcpServerAddr]
  else if t = DHCP_OPT_DNS_SRV then d.dDnsAddr
  else if t = DHCP_OPT_IP_ADDR_LEASE_TIME then [d.dLeaseTime]
  else if t = DHCP_OPT_T1_VALUE then [d.dRenewalTime]
  else if t = DHCP_OPT_T2_VALUE then [d.dRebindTime]
  else if t = DHCP_OPT_BROADCAST_ADDR then [d.dBroadcastAddr]
  else []

/-- The value of an option. -/
def value (dh : Nat → UInt8) (i : Nat) : List (BitVec 32) :=
  if opt dh i = DHCP_OPT_DNS_SRV then dnsLoop dh i (opt dh (i + 1)).toNat
  else if opt dh i ∈ wordOptions then [optWord dh (i + 2)]
  else []

/-- An option sets its field. -/
theorem field_parseOption (ht : t ∈ recordedOptions) (dh : Nat → UInt8) (i : Nat) (d : Working) :
    field t (parseOption dh i d) = if t = opt dh i then value dh i else field t d := by
  unfold parseOption value
  generalize opt dh i = tag
  have hmem := ht
  simp only [recordedOptions, wordOptions, List.mem_cons, List.not_mem_nil, or_false] at ht ⊢
  by_cases hrec : tag ∈ recordedOptions
  · simp only [recordedOptions, wordOptions, List.mem_cons, List.not_mem_nil, or_false] at hrec
    rcases hrec with rfl | rfl | rfl | rfl | rfl | rfl | rfl | rfl <;>
      rcases ht with rfl | rfl | rfl | rfl | rfl | rfl | rfl | rfl <;> rfl
  · have hne : t ≠ tag := fun h => hrec (h ▸ hmem)
    simp only [recordedOptions, wordOptions, List.mem_cons, List.not_mem_nil, or_false, not_or] at hrec
    rw [if_neg hne]
    simp only [hrec, if_false]
    split
    · rcases ht with rfl | rfl | rfl | rfl | rfl | rfl | rfl | rfl <;> rfl
    · rfl

/-- The message type sets the address. -/
theorem dOfferIpAddr_parseOption (dh : Nat → UInt8) (i : Nat) (d : Working) :
    (parseOption dh i d).dOfferIpAddr =
      if opt dh i = DHCP_OPT_MSG_TYPE ∧ opt dh (i + 2) = DHCP_OFFER then dhYiaddr dh
      else d.dOfferIpAddr := by
  unfold parseOption
  generalize opt dh i = tag
  by_cases hrec : tag ∈ recordedOptions
  · simp only [recordedOptions, wordOptions, List.mem_cons, List.not_mem_nil, or_false] at hrec
    rcases hrec with rfl | rfl | rfl | rfl | rfl | rfl | rfl | rfl <;>
      exact (if_neg fun h => absurd h.1 (by decide)).symm
  · simp only [recordedOptions, wordOptions, List.mem_cons, List.not_mem_nil, or_false, not_or] at hrec
    simp only [hrec, if_false]
    split
    · rfl
    · rfl

/-! ## Two buffers with the same datagram -/

/-- The buffer begins with the datagram. -/
def Holds (dh : Nat → UInt8) (m : List UInt8) : Prop := ∀ i < m.length, dh i = m.getD i 0

theorem word_congr (h₁ : Holds dh₁ m) (h₂ : Holds dh₂ m) (hlt : i + 4 ≤ m.length) :
    word dh₁ i = word dh₂ i := by
  unfold word
  rw [h₁ i (by omega), h₁ (i + 1) (by omega), h₁ (i + 2) (by omega), h₁ (i + 3) (by omega),
    h₂ i (by omega), h₂ (i + 1) (by omega), h₂ (i + 2) (by omega), h₂ (i + 3) (by omega)]

theorem dnsLoop_congr {len : Nat} (h₁ : Holds dh₁ m) (h₂ : Holds dh₂ m)
    (hlt : 236 + i + (2 + 4 * ((len + 3) / 4)) ≤ m.length) : dnsLoop dh₁ i len = dnsLoop dh₂ i len := by
  unfold dnsLoop
  refine List.foldl_ext _ _ _ fun addrs k hk => ?_
  have hk' := List.mem_range.mp hk
  have hword : optWord dh₁ (i + 2 + 4 * k) = optWord dh₂ (i + 2 + 4 * k) := word_congr h₁ h₂ (by omega)
  rw [hword]

theorem value_congr (h₁ : Holds dh₁ m) (h₂ : Holds dh₂ m) (h1 : 236 + (i + 1) < m.length)
    (hlt : 236 + i + optionSize (m.getD (236 + i) 0) (m.getD (236 + (i + 1)) 0) ≤ m.length) :
    value dh₁ i = value dh₂ i := by
  have e₁ : opt dh₁ i = m.getD (236 + i) 0 := h₁ _ (by omega)
  have e₂ : opt dh₂ i = m.getD (236 + i) 0 := h₂ _ (by omega)
  have l₁ : opt dh₁ (i + 1) = m.getD (236 + (i + 1)) 0 := h₁ _ h1
  have l₂ : opt dh₂ (i + 1) = m.getD (236 + (i + 1)) 0 := h₂ _ h1
  unfold value
  rw [e₁, e₂, l₁, l₂]
  unfold optionSize at hlt
  split
  · rename_i hdns
    rw [if_pos hdns] at hlt
    exact dnsLoop_congr h₁ h₂ hlt
  · rename_i hdns
    rw [if_neg hdns] at hlt
    split
    · rename_i hw
      rw [if_pos hw] at hlt
      have hword : optWord dh₁ (i + 2) = optWord dh₂ (i + 2) := word_congr h₁ h₂ (by omega)
      rw [hword]
    · rfl

/-- The working fields agree on the options that were met. -/
structure Agree (ts : List UInt8) (got : Bool) (d₁ d₂ : Working) : Prop where
  field : ∀ t ∈ ts, t ∈ recordedOptions → field t d₁ = field t d₂
  offer : got = true → d₁.dOfferIpAddr = d₂.dOfferIpAddr

theorem parseOption_agree (ha : Agree ts got d₁ d₂) (h₁ : Holds dh₁ m) (h₂ : Holds dh₂ m)
    (hmin : DHCP_MIN_SIZE ≤ m.length) (h1 : 236 + (i + 1) < m.length)
    (hlt : 236 + i + optionSize (m.getD (236 + i) 0) (m.getD (236 + (i + 1)) 0) ≤ m.length) :
    gotOffer dh₁ i got = gotOffer dh₂ i got ∧
      Agree (m.getD (236 + i) 0 :: ts) (gotOffer dh₁ i got) (parseOption dh₁ i d₁)
      (parseOption dh₂ i d₂) := by
  have e₁ : opt dh₁ i = m.getD (236 + i) 0 := h₁ _ (by omega)
  have e₂ : opt dh₂ i = m.getD (236 + i) 0 := h₂ _ (by omega)
  -- the type of the message is within the datagram
  have htype : (opt dh₁ i = DHCP_OPT_MSG_TYPE ∧ opt dh₁ (i + 2) = DHCP_OFFER) ↔
      (opt dh₂ i = DHCP_OPT_MSG_TYPE ∧ opt dh₂ (i + 2) = DHCP_OFFER) := by
    rw [e₁, e₂]
    refine and_congr_right fun ht => ?_
    rw [ht] at hlt
    have hsize : optionSize DHCP_OPT_MSG_TYPE (m.getD (236 + (i + 1)) 0) = 3 := rfl
    have o₁ : opt dh₁ (i + 2) = m.getD (236 + (i + 2)) 0 := h₁ _ (by omega)
    have o₂ : opt dh₂ (i + 2) = m.getD (236 + (i + 2)) 0 := h₂ _ (by omega)
    rw [o₁, o₂]
  refine ⟨by unfold gotOffer; rw [decide_eq_decide.mpr htype], ?_, fun hgot => ?_⟩
  · intro t ht hrec
    rw [field_parseOption hrec, field_parseOption hrec, e₁, e₂, value_congr h₁ h₂ h1 hlt]
    split
    · rfl
    · rename_i hne
      exact ha.field t ((List.mem_cons.mp ht).resolve_left hne) hrec
  · rw [dOfferIpAddr_parseOption, dOfferIpAddr_parseOption, if_congr htype rfl rfl]
    split
    · unfold DHCP_MIN_SIZE at hmin
      exact word_congr h₁ h₂ (by omega)
    · rename_i hno
      refine ha.offer ?_
      unfold gotOffer at hgot
      rw [decide_eq_false fun h => hno (htype.mp h), Bool.or_false] at hgot
      exact hgot

/-- The walk over the options is the same, and so are the fields that it sets. -/
theorem parseLoop_agree {us : List UInt8} (ha : Agree ts got d₁ d₂) (h₁ : Holds dh₁ m)
    (h₂ : Holds dh₂ m) (hmin : DHCP_MIN_SIZE ≤ m.length) (ho : options m fuel i = some us) :
    (parseLoop dh₁ fuel i d₁ got).2 = (parseLoop dh₂ fuel i d₂ got).2 ∧
      Agree (us ++ ts) (parseLoop dh₁ fuel i d₁ got).2 (parseLoop dh₁ fuel i d₁ got).1
        (parseLoop dh₂ fuel i d₂ got).1 := by
  induction fuel generalizing i us ts d₁ d₂ got with
  | zero => cases ho
  | succ fuel ih =>
    unfold options at ho
    unfold parseLoop
    by_cases hi : i < DHCP_OPTIONS_SIZE
    · rw [if_pos hi] at ho
      rw [if_pos hi, if_pos hi]
      by_cases hend : m.length ≤ 236 + i
      · rw [if_pos hend] at ho
        cases ho
      · rw [if_neg hend] at ho
        have e₁ : opt dh₁ i = m.getD (236 + i) 0 := h₁ _ (by omega)
        have e₂ : opt dh₂ i = m.getD (236 + i) 0 := h₂ _ (by omega)
        rw [e₁, e₂]
        by_cases hpad : m.getD (236 + i) 0 = DHCP_OPT_PAD
        · rw [if_pos hpad] at ho
          rw [if_pos hpad, if_pos hpad]
          exact ih ha ho
        · rw [if_neg hpad] at ho
          rw [if_neg hpad, if_neg hpad]
          by_cases hlast : m.getD (236 + i) 0 = DHCP_OPT_END
          · rw [if_pos hlast] at ho
            rw [if_pos hlast, if_pos hlast]
            cases ho
            exact ⟨rfl, ha⟩
          · rw [if_neg hlast] at ho
            rw [if_neg hlast, if_neg hlast]
            split at ho
            · rename_i hlt
              obtain ⟨vs, hvs, rfl⟩ := Option.map_eq_some_iff.mp ho
              have h1 : 236 + (i + 1) < m.length := by
                have := two_le_optionSize (m.getD (236 + i) 0) (m.getD (236 + (i + 1)) 0)
                omega
              have l₁ : opt dh₁ (i + 1) = m.getD (236 + (i + 1)) 0 := h₁ _ h1
              have l₂ : opt dh₂ (i + 1) = m.getD (236 + (i + 1)) 0 := h₂ _ h1
              obtain ⟨hgot, hstep⟩ := parseOption_agree ha h₁ h₂ hmin h1 hlt
              rw [l₁, l₂, ← hgot]
              obtain ⟨hr, hagree⟩ := ih hstep hvs
              refine ⟨hr, fun t ht => ?_, hagree.offer⟩
              refine hagree.field t ?_
              simp only [List.cons_append, List.mem_cons, List.mem_append] at ht ⊢
              tauto
            · cases ho
    · rw [if_neg hi] at ho
      rw [if_neg hi, if_neg hi]
      cases ho
      exact ⟨rfl, ha⟩

/-- **The parser.**  The fields behind a complete OFFER do not depend on those before it. -/
theorem dhcpParseOffer_determines (hc : Complete m) (hmin : DHCP_MIN_SIZE ≤ m.length) (h₁ : Holds dh₁ m)
    (h₂ : Holds dh₂ m) {e₁ e₂ : Working} (hp₁ : dhcpParseOffer dh₁ d₁ = (e₁, true))
    (hp₂ : dhcpParseOffer dh₂ d₂ = (e₂, true)) : e₁ = e₂ := by
  obtain ⟨us, hus, hall⟩ := hc
  have hagree := (@parseLoop_agree dh₁ dh₂ d₁ d₂ m 4 DHCP_OPTIONS_SIZE [] false us
    ⟨fun t ht => (nomatch ht), fun h => (nomatch h)⟩ h₁ h₂ hmin hus).2
  unfold dhcpParseOffer at hp₁ hp₂
  rw [hp₁, hp₂] at hagree
  have hf : ∀ t ∈ recordedOptions, field t e₁ = field t e₂ := by
    intro t ht
    exact hagree.field t (List.mem_append_left _ (hall t ht)) ht
  have h1 : e₁.dSubnetMask = e₂.dSubnetMask := List.singleton_inj.mp (hf DHCP_OPT_SUBNET_MASK (by decide))
  have h2 : e₁.dRouterAddr = e₂.dRouterAddr :=
    List.singleton_inj.mp (hf DHCP_OPT_ROUTERS_ON_SNET (by decide))
  have h3 : e₁.dDhcpServerAddr = e₂.dDhcpServerAddr :=
    List.singleton_inj.mp (hf DHCP_OPT_SRV_IDENTIFIER (by decide))
  have h4 : e₁.dDnsAddr = e₂.dDnsAddr := hf DHCP_OPT_DNS_SRV (by decide)
  have h5 : e₁.dLeaseTime = e₂.dLeaseTime :=
    List.singleton_inj.mp (hf DHCP_OPT_IP_ADDR_LEASE_TIME (by decide))
  have h6 : e₁.dRenewalTime = e₂.dRenewalTime := List.singleton_inj.mp (hf DHCP_OPT_T1_VALUE (by decide))
  have h7 : e₁.dRebindTime = e₂.dRebindTime := List.singleton_inj.mp (hf DHCP_OPT_T2_VALUE (by decide))
  have h8 : e₁.dBroadcastAddr = e₂.dBroadcastAddr :=
    List.singleton_inj.mp (hf DHCP_OPT_BROADCAST_ADDR (by decide))
  have h9 : e₁.dOfferIpAddr = e₂.dOfferIpAddr := hagree.offer rfl
  cases e₁
  cases e₂
  rw [Working.mk.injEq]
  exact ⟨h9, h3, h1, h2, h8, h4, h5, h6, h7⟩

/-! ## The exchange -/

namespace DhcpInfo

variable {s : DhcpInfo} {hist : List DhcpObs} {xid : BitVec 32} {dup : Bool}

/-- The working fields are those behind the OFFER. -/
def Offered (m : List UInt8) (d : Working) : Prop :=
  DHCP_MIN_SIZE ≤ m.length ∧ ∃ dh d₀, Holds dh m ∧ dhcpParseOffer dh d₀ = (d, true)

/-- What was observed last. -/
def Phase (s : DhcpInfo) (hist : List DhcpObs) : Prop :=
  match s.state with
  | .DHCP_ST_INIT | .DHCP_ST_SELECTING => True
  | .DHCP_ST_REQUESTING => ∃ h m, hist = h ++ [.selected m] ∧ Offered m s.d
  | .DHCP_ST_BOUND | .DHCP_ST_RENEWING | .DHCP_ST_REBINDING => ∃ h r, hist = h ++ [.recorded r]
  | .DHCP_ST_REBOOTING | .DHCP_ST_INITREBOOT => False

/-- A lease that was recorded right behind an OFFER has its fields. -/
def FromOffer (hist : List DhcpObs) : DhcpObs → Prop
  | .recorded r => ∀ h m, hist = h ++ [.selected m] → ∃ d, Offered m d ∧ r = recordFields d
  | .selected _ => True

structure ExchangeInv (s : DhcpInfo) (hist : List DhcpObs) : Prop where
  phase : s.Phase hist
  checking : s.waiting = false → s.asks

/-- What a step leaves, and what it observes. -/
def Kept (hist : List DhcpObs) (r : DhcpInfo × List DhcpObs) : Prop :=
  ExchangeInv r.1 (hist ++ r.2) ∧
    (Machine.Throughout FromOffer hist → Machine.Throughout FromOffer (hist ++ r.2))

theorem kept_nil (hi : ExchangeInv s hist) : Kept hist (s, []) := by
  simpa [Kept] using hi

/-- The task waits, and the phase is as it was. -/
theorem ExchangeInv.waits (hp : s.Phase hist) (hw : s.waiting = true) : ExchangeInv s hist :=
  ⟨hp, fun h => absurd (hw.symm.trans h) (by decide)⟩

theorem holds_recvfrom (s : DhcpInfo) (hlen : m.length ≤ dhcpSize) : Holds (s.recvfrom m).dh m := by
  intro i hi
  exact if_pos (Nat.lt_min.mpr ⟨hi, Nat.lt_of_lt_of_le hi hlen⟩)

theorem onT1_kept (hp : s.Phase hist) (hw : s.waiting = true) : Kept hist (s.onT1 xid, []) := by
  refine kept_nil ?_
  unfold onT1
  split
  · rename_i h
    obtain ⟨dh, x, hreq⟩ := dhcpRequest_eq { s with rxTimeout := 500 } xid
    rw [hreq]
    refine .waits ?_ hw
    unfold Phase at hp ⊢
    rw [h.2] at hp
    exact hp
  · exact .waits hp hw

theorem onT2_kept (hp : s.Phase hist) (hw : s.waiting = true) : Kept hist (s.onT2 xid, []) := by
  refine kept_nil ?_
  unfold onT2
  split
  · split
    · rename_i h
      obtain ⟨dh, x, hreq⟩ := dhcpRequest_eq { s with rxTimeout := 500 } xid
      rw [hreq]
      refine .waits ?_ hw
      unfold Phase at hp ⊢
      rw [h] at hp
      exact hp
    · split
      · exact .waits trivial hw
      · exact .waits hp hw
  · exact .waits hp hw

theorem onTimeout_kept (hp : s.Phase hist) (hw : s.waiting = true) : Kept hist (s.onTimeout xid, []) := by
  refine kept_nil ?_
  have hrule := onTimeout_rule s xid
  generalize s.onTimeout xid = r at hrule
  cases hrule with
  | same hst => exact .waits hp hw
  | init => exact .waits trivial hw
  | selecting dh x hst => exact .waits trivial hw
  | rebooting dh x hst =>
    unfold Phase at hp
    rw [hst] at hp
    exact hp.elim

/-- An OFFER that is accepted is what the working fields come from. -/
theorem onData_kept {data : List UInt8} (hp : s.Phase hist) (hw : s.waiting = true) :
    Kept hist (s.onData data xid) := by
  have hrule := onData_rule s data xid
  generalize s.onData data xid = r at hrule ⊢
  cases hrule with
  | ack hasks => exact kept_nil ⟨hp, fun _ => hasks⟩
  | nak hasks => exact kept_nil (.waits trivial hw)
  | offer d dh x hst least most parse =>
    refine ⟨.waits ?_ hw, fun h => Machine.throughout_snoc h trivial⟩
    exact ⟨hist, data, rfl, least, _, _, holds_recvfrom s most, parse⟩
  | refused d hst =>
    refine kept_nil (.waits ?_ hw)
    unfold Phase
    dsimp only [recvfrom]
    rw [hst]
    trivial
  | ignored hign => exact kept_nil (.waits hp hw)

/-- The lease that is recorded has the fields of the OFFER, or is a renewed one. -/
theorem onChecked_kept {saveIpAddr : BitVec 32} (hp : s.Phase hist) (hasks : s.asks) :
    Kept hist (s.onChecked saveIpAddr dup xid) := by
  unfold onChecked
  cases dup with
  | true => exact kept_nil (.waits trivial rfl)
  | false =>
    refine ⟨.waits ⟨hist, recordFields s.d, rfl⟩ rfl,
      fun h => Machine.throughout_snoc h fun h' m hm => ?_⟩
    unfold Phase at hp
    rcases hasks with hst | hst | hst | hst
    · rw [hst] at hp
      exact hp.elim
    · rw [hst] at hp
      obtain ⟨h'', m', hm', hoff⟩ := hp
      have hlast := (List.append_inj' (hm.symm.trans hm') rfl).2
      cases hlast
      exact ⟨s.d, hoff, rfl⟩
    · rw [hst] at hp
      obtain ⟨h'', r, hr⟩ := hp
      exact absurd (List.append_inj' (hm.symm.trans hr) rfl).2 (by simp)
    · rw [hst] at hp
      obtain ⟨h'', r, hr⟩ := hp
      exact absurd (List.append_inj' (hm.symm.trans hr) rfl).2 (by simp)

/-! ## Runs -/

theorem step_kept (ev : DhcpEvent) (hi : ExchangeInv s hist) : Kept hist (s.step ev) := by
  cases ev with
  | tick => exact kept_nil ⟨hi.phase, hi.checking⟩
  | arrive data => exact kept_nil ⟨hi.phase, hi.checking⟩
  | receive xid =>
    unfold step
    dsimp only
    split
    · rename_i hw
      cases hq : s.queue with
      | nil => exact kept_nil hi
      | cons item q =>
        cases item with
        | DHCP_T1_EXPIRED_EVENT =>
          exact onT1_kept (s := { s with queue := q, handed := false, waited := 0 }) hi.phase hw
        | DHCP_T2_EXPIRED_EVENT =>
          exact onT2_kept (s := { s with queue := q, handed := false, waited := 0 }) hi.phase hw
        | data bytes =>
          exact onData_kept (s := { s with queue := q, handed := false, waited := 0 }) hi.phase hw
    · exact kept_nil hi
  | timeout xid =>
    unfold step
    dsimp only
    split
    · rename_i h
      exact onTimeout_kept (s := { s with waited := 0 }) hi.phase h.1
    · exact kept_nil hi
  | checked dup xid =>
    unfold step
    dsimp only
    cases hsave : s.saveIpAddr with
    | none => exact kept_nil hi
    | some saveIpAddr =>
      have hw : s.waiting = false := by
        unfold waiting
        rw [hsave]
        rfl
      exact onChecked_kept (s := { s with waited := 0 }) hi.phase (hi.checking hw)

/-- In every run, a lease that is recorded behind an OFFER has its fields. -/
theorem recorded_fromOffer (hwAddr : List UInt8) (dh : Nat → UInt8) (es : List DhcpEvent) :
    Machine.Throughout FromOffer (Machine.run dhcpMachine (some (start hwAddr dh)) es).2 := by
  obtain ⟨s', hs'⟩ := Machine.run_total dhcpMachine (fun s ev => ⟨_, rfl⟩) (start hwAddr dh) es
  have hphase : (start hwAddr dh).Phase [] := trivial
  have h0 : ExchangeInv (start hwAddr dh) [] ∧ Machine.Throughout FromOffer [] :=
    ⟨.waits hphase rfl, fun h₁ o h₂ h => by simp at h⟩
  have hrun :=
    Machine.run_record (fun s hist => ExchangeInv s hist ∧ Machine.Throughout FromOffer hist) ?_ h0
    (Machine.guarded_true _ _ es) hs'
  · simpa using hrun.2
  · intro s ev hist s1 hi _ h
    cases h
    obtain ⟨hinv, hobs⟩ := step_kept ev hi.1
    exact ⟨hinv, hobs hi.2⟩

/-- **The exchange.**  Two runs that end with the same complete OFFER and a recorded lease record the
    same. -/
theorem exchange_determines (hw₁ hw₂ : List UInt8) (dh₁ dh₂ : Nat → UInt8)
    (es₁ es₂ : List DhcpEvent) (m : List UInt8) (r₁ r₂ : Recorded) (h₁ h₂ : List DhcpObs)
    (hm : Complete m) (ho₁ : (Machine.run dhcpMachine (some (start hw₁ dh₁)) es₁).2 =
      h₁ ++ [.selected m, .recorded r₁])
    (ho₂ : (Machine.run dhcpMachine (some (start hw₂ dh₂)) es₂).2 =
      h₂ ++ [.selected m, .recorded r₂]) :
    r₁ = r₂ := by
  have hf₁ :=
    recorded_fromOffer hw₁ dh₁ es₁ (h₁ ++ [.selected m]) (.recorded r₁) [] (by rw [ho₁]; simp)
  have hf₂ :=
    recorded_fromOffer hw₂ dh₂ es₂ (h₂ ++ [.selected m]) (.recorded r₂) [] (by rw [ho₂]; simp)
  obtain ⟨d₁, ⟨hmin, dhA, dA, hA, pA⟩, rfl⟩ := hf₁ h₁ m rfl
  obtain ⟨d₂, ⟨-, dhB, dB, hB, pB⟩, rfl⟩ := hf₂ h₂ m rfl
  rw [dhcpParseOffer_determines hm hmin hA hB pA pB]

/-- An OFFER of 60 seconds, with some options more. -/
def offer60 (more : List UInt8) : List UInt8 :=
  reply 7 ([53, 1, 2, 54, 4, 192, 168, 0, 1, 1, 4, 255, 255, 255, 0, 3, 4, 192, 168, 0, 1, 28, 4, 192,
    168, 0, 255, 6, 4, 192, 168, 0, 1, 51, 4, 0, 0, 0, 60, 59, 4, 0, 0, 0, 52] ++ more ++ [255])

/-- An OFFER of 7200 seconds, to be renewed behind 3600, and the request is not answered. -/
def unanswered : List DhcpEvent :=
  [.timeout 5, .arrive (reply 5 [53, 1, 2, 51, 4, 0, 0, 28, 32, 58, 4, 0, 0, 14, 16, 255]),
    .receive 0, .timeout 0]

/-- The lease that a run has recorded last. -/
def lastRecorded (es : List DhcpEvent) : Recorded :=
  match (Machine.run dhcpMachine (some (start ownMac fun _ => 0)) es).2.getLast? with
  | some (.recorded r) => r
  | _ => {}

/-- With the renewal time in the OFFER, the earlier one does not matter. -/
theorem exchange_determines_small : lastRecorded (obtain (offer60 [58, 4, 0, 0, 0, 30])) =
    lastRecorded (unanswered ++ obtain (offer60 [58, 4, 0, 0, 0, 30])) :=
  exchange_determines ownMac ownMac (fun _ => 0) (fun _ => 0) (obtain (offer60 [58, 4, 0, 0, 0, 30]))
    (unanswered ++ obtain (offer60 [58, 4, 0, 0, 0, 30])) (offer60 [58, 4, 0, 0, 0, 30]) _ _ []
    [.selected (reply 5 [53, 1, 2, 51, 4, 0, 0, 28, 32, 58, 4, 0, 0, 14, 16, 255])] (by decide +kernel)
    (by decide +kernel) (by decide +kernel)

/-- Without it, a lease of 60 seconds is to be renewed behind 3600. -/
theorem lease_leaks :
    ¬ ∀ (hw₁ hw₂ : List UInt8) (dh₁ dh₂ : Nat → UInt8) (es₁ es₂ : List DhcpEvent)
      (m : List UInt8) (r₁ r₂ : Recorded) (h₁ h₂ : List DhcpObs),
      (Machine.run dhcpMachine (some (start hw₁ dh₁)) es₁).2 = h₁ ++ [.selected m, .recorded r₁] →
      (Machine.run dhcpMachine (some (start hw₂ dh₂)) es₂).2 = h₂ ++ [.selected m, .recorded r₂] →
      r₁ = r₂ := by
  intro h
  have heq :=
    h ownMac ownMac (fun _ => 0) (fun _ => 0) (obtain (offer60 [])) (unanswered ++ obtain (offer60 []))
    (offer60 []) (lastRecorded (obtain (offer60 []))) (lastRecorded (unanswered ++ obtain (offer60 []))) []
    [.selected (reply 5 [53, 1, 2, 51, 4, 0, 0, 28, 32, 58, 4, 0, 0, 14, 16, 255])] (by decide +kernel)
    (by decide +kernel)
  have hren : (lastRecorded (obtain (offer60 []))).renewalTime = 30 ∧
      (lastRecorded (unanswered ++ obtain (offer60 []))).renewalTime = 3600 := by decide +kernel
  rw [heq] at hren
  exact absurd (hren.1.symm.trans hren.2) (by decide)

end DhcpInfo

end TnNet.Dhcp
