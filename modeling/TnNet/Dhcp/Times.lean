import Mathlib.Data.Nat.ModEq
import TnNet.Dhcp.Reads

/-!
# The timers of a lease

`dhcp_record_lease` computes the ticks of T1 and T2 in 32 bits.  Where the OFFER has no T1 or T2 it
takes the default, unless the working field is not 0: then it still has what an earlier OFFER or lease
has left.

`lease_timers_iff` — the timers are those of the OFFER, in order, exactly when the times are, the ticks
of T2 fit in 32 bits, and no field was left over that tells another time than the default.
-/

set_option autoImplicit false

namespace TnNet.Dhcp

variable {dh : Nat → UInt8} {d : Working} {t : UInt8} {v : Option (BitVec 32)} {s lease : BitVec 32}
  {t1 t2 : Option (BitVec 32)} {got : Bool} {fuel i : Nat}

/-! ## The options of the OFFER -/

/-- The value of the last option `t` that `dhcp_parse_offer` meets, or `v`. -/
def lastOption (dh : Nat → UInt8) (t : UInt8) : Nat → Nat → Option (BitVec 32) → Option (BitVec 32)
  | 0, _, v => v
  | fuel + 1, i, v =>
    if i < DHCP_OPTIONS_SIZE then
      if opt dh i = DHCP_OPT_PAD then lastOption dh t fuel (i + 1) v
      else if opt dh i = DHCP_OPT_END then v
      else
        lastOption dh t fuel (i + ((opt dh (i + 1)).toNat + 2))
          (if opt dh i = t then some (optWord dh (i + 2)) else v)
    else v

/-- The value of an option of the message. -/
def offered (dh : Nat → UInt8) (t : UInt8) : Option (BitVec 32) := lastOption dh t DHCP_OPTIONS_SIZE 4 none

theorem parseLoop_field (ht : t ∈ wordOptions) (hf : field t d = [v.getD s]) :
    field t (parseLoop dh fuel i d got).1 = [(lastOption dh t fuel i v).getD s] := by
  have hrec : t ∈ recordedOptions := List.mem_cons_of_mem _ ht
  induction fuel generalizing i d got v with
  | zero => exact hf
  | succ fuel ih =>
    unfold parseLoop lastOption
    split
    · split
      · exact ih hf
      · split
        · exact hf
        · refine ih ?_
          rw [field_parseOption hrec]
          by_cases hop : opt dh i = t
          · subst hop
            have hdns : opt dh i ≠ DHCP_OPT_DNS_SRV := fun h => absurd (h ▸ ht) (by decide)
            rw [if_pos rfl, if_pos rfl, value, if_neg hdns, if_pos ht]
            rfl
          · rw [if_neg fun h => hop h.symm, if_neg hop]
            exact hf
    · exact hf

/-- **The times an OFFER sets**: a time it does not have keeps what the field had. -/
theorem dhcpParseOffer_times (dh : Nat → UInt8) (d : Working) :
    (dhcpParseOffer dh d).1.dLeaseTime = (offered dh DHCP_OPT_IP_ADDR_LEASE_TIME).getD d.dLeaseTime ∧
      (dhcpParseOffer dh d).1.dRenewalTime = (offered dh DHCP_OPT_T1_VALUE).getD d.dRenewalTime ∧
      (dhcpParseOffer dh d).1.dRebindTime = (offered dh DHCP_OPT_T2_VALUE).getD d.dRebindTime := by
  have h := fun (t : UInt8) (ht : t ∈ wordOptions) (s : BitVec 32) (hs : field t d = [s]) =>
    @parseLoop_field dh d t none s false DHCP_OPTIONS_SIZE 4 ht hs
  have h1 := h DHCP_OPT_IP_ADDR_LEASE_TIME (by decide) d.dLeaseTime rfl
  have h2 := h DHCP_OPT_T1_VALUE (by decide) d.dRenewalTime rfl
  have h3 := h DHCP_OPT_T2_VALUE (by decide) d.dRebindTime rfl
  exact ⟨List.singleton_inj.mp h1, List.singleton_inj.mp h2, List.singleton_inj.mp h3⟩

/-! ## The ticks -/

/-- The times with their defaults. -/
theorem recordDefaults_times (h : d.dLeaseTime ≠ DHCP_INFINITE_LEASE) :
    (recordDefaults d).dLeaseTime = d.dLeaseTime ∧
      (recordDefaults d).dRenewalTime =
      (if d.dRenewalTime = 0 then d.dLeaseTime >>> 1 else d.dRenewalTime) ∧
      (recordDefaults d).dRebindTime = if d.dRebindTime = 0 then (d.dLeaseTime * 7) >>> 3
      else d.dRebindTime := by
  unfold recordDefaults
  grind

/-- The ticks of T1 and T2, in 32 bits. -/
theorem recordFields_timeouts (h : d.dLeaseTime ≠ DHCP_INFINITE_LEASE) :
    (recordFields d).t1Timeout =
        10 * (if d.dRenewalTime = 0 then d.dLeaseTime.toNat / 2 else d.dRenewalTime.toNat) % 2 ^ 32 ∧
      (recordFields d).t2Timeout =
        10 * (if d.dRebindTime = 0 then 7 * d.dLeaseTime.toNat % 2 ^ 32 / 8 else d.dRebindTime.toNat) %
        2 ^ 32 := by
  have h1 : (d.dLeaseTime >>> 1).toNat = d.dLeaseTime.toNat / 2 := by
    rw [BitVec.toNat_ushiftRight, Nat.shiftRight_eq_div_pow]
  have h2 : ((d.dLeaseTime * 7) >>> 3).toNat = 7 * d.dLeaseTime.toNat % 2 ^ 32 / 8 := by
    rw [BitVec.toNat_ushiftRight, Nat.shiftRight_eq_div_pow, BitVec.toNat_mul, Nat.mul_comm]
    rfl
  have h10 : ∀ x : BitVec 32, (x * 10).toNat = 10 * x.toNat % 2 ^ 32 := fun x => by
    rw [BitVec.toNat_mul, Nat.mul_comm]
    rfl
  obtain ⟨hl, hr, hs⟩ := recordDefaults_times h
  rw [← h1, ← h2, ← apply_ite, ← apply_ite, ← h10, ← h10, ← hr, ← hs]
  unfold recordFields
  simp only [hl, if_neg h, and_self]

/-- The time of an option, or its default. -/
def due (t : Option (BitVec 32)) (default : Nat) : Nat := (t.map BitVec.toNat).getD default

/-- The default of T1. -/
def defaultT1 (lease : BitVec 32) : Nat := lease.toNat / 2

/-- The default of T2. -/
def defaultT2 (lease : BitVec 32) : Nat := 7 * lease.toNat / 8

/-- The options that are there are in order. -/
structure Ordered (lease : BitVec 32) (t1 t2 : Option (BitVec 32)) : Prop where
  t1_le : ∀ x ∈ t1, x.toNat ≤ lease.toNat
  t2_le : ∀ y ∈ t2, y.toNat ≤ lease.toNat
  le : ∀ x ∈ t1, ∀ y ∈ t2, x.toNat ≤ y.toNat

/-- The timers are those of the OFFER, in exact numbers and in order. -/
structure TimersOk (lease : BitVec 32) (t1 t2 : Option (BitVec 32)) (r : Recorded) : Prop where
  pos : 0 < r.t1Timeout
  le : r.t1Timeout ≤ r.t2Timeout
  bound : r.t2Timeout ≤ 10 * lease.toNat
  t1 : r.t1Timeout = 10 * due t1 (defaultT1 lease)
  t2 : r.t2Timeout = 10 * due t2 (defaultT2 lease)

/-- What a field was left with stands for the time. -/
def StandsFor (s : BitVec 32) (time : Nat) : Prop := s = 0 ∨ s.toNat % 2 ^ 31 = time

/-- The times, with the defaults, are in order, the ticks of T2 fit in 32 bits, and a field that the
    OFFER does not set stands for the default. -/
structure TimesFit (d : Working) (lease : BitVec 32) (t1 t2 : Option (BitVec 32)) : Prop where
  pos : 0 < due t1 (defaultT1 lease)
  le : due t1 (defaultT1 lease) ≤ due t2 (defaultT2 lease)
  fits : 10 * due t2 (defaultT2 lease) < 2 ^ 32
  left1 : t1 = none → StandsFor d.dRenewalTime (defaultT1 lease)
  left2 : t2 = none → StandsFor d.dRebindTime (defaultT2 lease)

/-- Ten times a number in 32 bits: 5 has an inverse, and 2 takes a bit. -/
theorem ten_mul_mod (x d : Nat) : 10 * x % 2 ^ 32 = 10 * d ↔ 10 * d < 2 ^ 32 ∧ x % 2 ^ 31 = d := by
  have hcancel : 10 * x ≡ 10 * d [MOD 2 ^ 32] ↔ x ≡ d [MOD 2 ^ 31] := by
    have hx : 10 * x = 2 * (5 * x) := by omega
    have hd : 10 * d = 2 * (5 * d) := by omega
    have hpow : 2 ^ 32 = 2 * 2 ^ 31 := rfl
    rw [hx, hd, hpow, Nat.ModEq.mul_left_cancel_iff' (by decide)]
    exact ⟨Nat.ModEq.cancel_left_of_coprime (by decide), fun h => h.mul_left 5⟩
  constructor
  · intro h
    have hlt : 10 * d < 2 ^ 32 := h ▸ Nat.mod_lt _ (by decide)
    have hmod : x % 2 ^ 31 = d % 2 ^ 31 := hcancel.mp (h.trans (Nat.mod_eq_of_lt hlt).symm)
    exact ⟨hlt, hmod.trans (Nat.mod_eq_of_lt (by omega))⟩
  · rintro ⟨hlt, h⟩
    have hmod : 10 * x % 2 ^ 32 = 10 * d % 2 ^ 32 :=
      hcancel.mpr (h.trans (Nat.mod_eq_of_lt (by omega)).symm)
    exact hmod.trans (Nat.mod_eq_of_lt hlt)

/-- The ticks of a time with the default `default`; `n` is what the default is in 32 bits. -/
theorem ticks_iff (s : BitVec 32) (t : Option (BitVec 32)) {n default : Nat} (hpos : 0 < due t default)
    (hn : n = default ∨ 2 ^ 32 ≤ 10 * default) :
    10 * (if t.getD s = 0 then n else (t.getD s).toNat) % 2 ^ 32 = 10 * due t default ↔
      10 * due t default < 2 ^ 32 ∧ (t = none → StandsFor s default) := by
  cases t with
  | some x =>
    have hdue : due (some x) default = x.toNat := rfl
    rw [hdue] at hpos ⊢
    have hx : x ≠ 0 := by
      rintro rfl
      exact absurd hpos (by decide)
    have hite : (if (some x).getD s = 0 then n else ((some x).getD s).toNat) = x.toNat := if_neg hx
    rw [hite]
    simp only [reduceCtorEq, false_imp_iff, and_true]
    omega
  | none =>
    have hdue : due none default = default := rfl
    rw [hdue]
    unfold StandsFor
    by_cases hs : s = 0
    · have hite : (if (none : Option (BitVec 32)).getD s = 0 then n else (none.getD s).toNat) = n :=
        if_pos hs
      have hmod : 10 * n % 2 ^ 32 = 10 * default ↔ 10 * default < 2 ^ 32 := by
        rcases hn with rfl | hle
        · exact ⟨fun h => h ▸ Nat.mod_lt _ (by decide), Nat.mod_eq_of_lt⟩
        · have hlt : 10 * n % 2 ^ 32 < 2 ^ 32 := Nat.mod_lt _ (by decide)
          exact iff_of_false (fun h => absurd (h ▸ hlt) (Nat.not_lt.mpr hle)) (Nat.not_lt.mpr hle)
      rw [hite, hmod]
      simp [hs]
    · have hite : (if (none : Option (BitVec 32)).getD s = 0 then n else (none.getD s).toNat) =
          s.toNat := if_neg hs
      rw [hite, ten_mul_mod]
      simp only [hs, false_or, forall_const]

/-- The product of the default of T2 wraps around only when the ticks do. -/
theorem defaultT2_wraps (lease : BitVec 32) :
    7 * lease.toNat % 2 ^ 32 / 8 = defaultT2 lease ∨ 2 ^ 32 ≤ 10 * defaultT2 lease := by
  unfold defaultT2
  rcases Nat.lt_or_ge (7 * lease.toNat) (2 ^ 32) with hlt | hge
  · exact .inl (by rw [Nat.mod_eq_of_lt hlt])
  · exact .inr (by omega)

theorem due_t2_le (h : Ordered lease t1 t2) : due t2 (defaultT2 lease) ≤ lease.toNat := by
  cases t2 with
  | some y => exact h.t2_le y rfl
  | none =>
    simp only [due, Option.map_none, Option.getD_none, defaultT2]
    omega

/-- **The timers of a lease.**  For an OFFER with a finite lease time, whose options T1 and T2 are in
    order, the timers are in order and exact if and only if the times with their defaults are in order,
    the ticks of T2 fit in 32 bits, and nothing was left over in the place of an option that the OFFER
    does not have. -/
theorem lease_timers_iff (dh : Nat → UInt8) (d : Working) (lease : BitVec 32)
    (hlease : offered dh DHCP_OPT_IP_ADDR_LEASE_TIME = some lease) (hfin : lease ≠ DHCP_INFINITE_LEASE)
    (hord : Ordered lease (offered dh DHCP_OPT_T1_VALUE) (offered dh DHCP_OPT_T2_VALUE)) :
    TimersOk lease (offered dh DHCP_OPT_T1_VALUE) (offered dh DHCP_OPT_T2_VALUE)
    (recordFields (dhcpParseOffer dh d).1) ↔
      TimesFit d lease (offered dh DHCP_OPT_T1_VALUE) (offered dh DHCP_OPT_T2_VALUE) := by
  obtain ⟨h1, h2, h3⟩ := dhcpParseOffer_times dh d
  rw [hlease, Option.getD_some] at h1
  obtain ⟨e1, e2⟩ := @recordFields_timeouts (dhcpParseOffer dh d).1 (by rwa [h1])
  rw [h1, h2] at e1
  rw [h1, h3] at e2
  have hle := due_t2_le hord
  have hn1 : lease.toNat / 2 = defaultT1 lease ∨ 2 ^ 32 ≤ 10 * defaultT1 lease := .inl rfl
  have ht1 := fun hp => ticks_iff d.dRenewalTime (offered dh DHCP_OPT_T1_VALUE) hp hn1
  have ht2 := fun hp => ticks_iff d.dRebindTime (offered dh DHCP_OPT_T2_VALUE) hp (defaultT2_wraps lease)
  rw [← e1] at ht1
  rw [← e2] at ht2
  clear e1 e2 hn1
  constructor
  · rintro ⟨hpos, hmono, -, hx, hy⟩
    have hp1 : 0 < due (offered dh DHCP_OPT_T1_VALUE) (defaultT1 lease) := by omega
    have hp2 : 0 < due (offered dh DHCP_OPT_T2_VALUE) (defaultT2 lease) := by omega
    obtain ⟨-, hl1⟩ := (ht1 hp1).mp hx
    obtain ⟨hf2, hl2⟩ := (ht2 hp2).mp hy
    exact ⟨hp1, by omega, hf2, hl1, hl2⟩
  · rintro ⟨hp1, hmono, hf2, hl1, hl2⟩
    have hx := (ht1 hp1).mpr ⟨by omega, hl1⟩
    have hy := (ht2 (by omega)).mpr ⟨hf2, hl2⟩
    exact ⟨by omega, by omega, by omega, hx, hy⟩

/-- A lease of an hour without T1 and T2. -/
def hourOffer : Nat → UInt8 := optionsDh [53, 1, 2, 51, 4, 0, 0, 0x0E, 0x10, 255]

theorem lease_timers_hour : TimersOk 3600 none none (recordFields (dhcpParseOffer hourOffer {}).1) :=
  (lease_timers_iff hourOffer {} 3600 (by decide) (by decide) ⟨nofun, nofun, nofun⟩).mpr
    ⟨by decide, by decide, by decide, fun _ => .inl rfl, fun _ => .inl rfl⟩

/-- A lease of 500000000 seconds without T1 and T2. -/
def longOffer : Nat → UInt8 := optionsDh [53, 1, 2, 51, 4, 0x1D, 0xCD, 0x65, 0x00, 255]

/-- **The defect**: the ticks of T2 wrap around, and T2 is due before T1. -/
theorem long_lease_wraps : offered longOffer DHCP_OPT_IP_ADDR_LEASE_TIME = some 500000000 ∧
    (dhcpParseOffer longOffer {}).2 = true ∧
    (recordFields (dhcpParseOffer longOffer {}).1).t2Timeout <
    (recordFields (dhcpParseOffer longOffer {}).1).t1Timeout ∧
    ¬ TimersOk 500000000 (offered longOffer DHCP_OPT_T1_VALUE) (offered longOffer DHCP_OPT_T2_VALUE)
      (recordFields (dhcpParseOffer longOffer {}).1) := by
  refine ⟨by decide, by decide, by decide, fun h => absurd h.le (by decide)⟩

end TnNet.Dhcp
