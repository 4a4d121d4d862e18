import TnNet.Lib.Probe
import TnNet.Pcb.Defs

/-!
# The ports `in_pcbbind` chooses

The search for a port asks `in_pcblookup` without `INPLOOKUP_WILDCARD`: `inPcblookup_exact` says that it
finds the unconnected blocks with the local address in question, and no others.

* `portLoop_total` — with fewer blocks than ports the search ends.
* `bind_fresh_iff` — the port is fresh exactly when the first one without such a block has no other block
  either.
-/

set_option autoImplicit false

namespace TnNet.Pcb

open Probe

variable {tnet : Netifs} {s : Inpcbs} {pcbs : List Inpcb} {inp b : Inpcb} {nam : Option Nam} {r : Pcbd}
  {laddr : BitVec 32} {lport p q : BitVec 16} {i j fuel : Nat}

/-! ## Byte order -/

theorem htons_toNat (x : BitVec 16) : (htons x).toNat = x.toNat % 256 * 256 + x.toNat / 256 := by
  have hhigh : x.toNat / 256 < 2 ^ 8 := by omega
  unfold htons
  rw [BitVec.toNat_append, BitVec.extractLsb'_toNat, BitVec.extractLsb'_toNat,
    ← Nat.shiftLeft_add_eq_or_of_lt (by omega)]
  simp only [Nat.shiftLeft_eq, Nat.shiftRight_eq_div_pow]
  omega

@[simp] theorem htons_htons (x : BitVec 16) : htons (htons x) = x := by
  apply BitVec.eq_of_toNat_eq
  rw [htons_toNat, htons_toNat]
  omega

@[simp] theorem htons_inj : htons p = htons q ↔ p = q := by
  constructor
  · intro h
    rw [← htons_htons p, h, htons_htons]
  · exact congrArg htons

/-! ## The lookup -/

/-- The lookup without a foreign address finds the blocks that are not connected and have this very local
    address. -/
theorem wildcard_eq_zero : wildcard 0 laddr 0 lport b = some 0 ↔
    b.inpLport = lport ∧ b.inpLaddr = laddr ∧ b.inpFaddr = 0 := by
  unfold wildcard
  grind

theorem lookupLoop_isSome (i : Nat) : (lookupLoop 0 laddr 0 lport false pcbs i none 3).isSome ↔
    ∃ b ∈ pcbs, b.inpLport = lport ∧ b.inpLaddr = laddr ∧ b.inpFaddr = 0 := by
  induction pcbs generalizing i with
  | nil => simp [lookupLoop]
  | cons b rest ih =>
    unfold lookupLoop
    simp only [List.mem_cons, exists_eq_or_imp, ← wildcard_eq_zero]
    simp only [← wildcard_eq_zero] at ih
    cases hw : wildcard 0 laddr 0 lport b with
    | none => simpa using ih (i + 1)
    | some w =>
      by_cases h0 : w = 0
      · simp [h0]
      · simpa [h0] using ih (i + 1)

/-- **The exact lookup.** -/
theorem inPcblookup_exact : (inPcblookup pcbs 0 0 laddr lport false).isSome ↔
    ∃ b ∈ pcbs, b.inpLport = lport ∧ b.inpLaddr = laddr ∧ b.inpFaddr = 0 :=
  lookupLoop_isSome 0

/-! ## The port counter -/

theorem nextPort_toNat (p : BitVec 16) : (nextPort p).toNat =
    if p.toNat < 1024 ∨ 5000 < (p.toNat + 1) % 65536 then 1024 else (p.toNat + 1) % 65536 := by
  have hsucc : (p + 1).toNat = (p.toNat + 1) % 65536 := by
    rw [BitVec.toNat_add]
    rfl
  unfold nextPort IPPORT_RESERVED IPPORT_USERRESERVED
  rw [hsucc]
  split
  · rfl
  · exact hsucc

/-- A port that may be chosen. -/
def InRange (p : BitVec 16) : Prop := IPPORT_RESERVED ≤ p.toNat ∧ p.toNat ≤ IPPORT_USERRESERVED

/-- The counter goes round. -/
theorem nextPort_round (h : InRange p) (k : Nat) :
    (nextPort^[k] p).toNat = 1024 + (p.toNat - 1024 + k) % 3977 := by
  obtain ⟨hlo, hhi⟩ := h
  unfold IPPORT_RESERVED at hlo
  unfold IPPORT_USERRESERVED at hhi
  induction k with
  | zero =>
    simp only [Function.iterate_zero, id_eq]
    omega
  | succ k ih =>
    rw [Function.iterate_succ_apply', nextPort_toNat, ih]
    split <;> omega

/-- The first step leads to a port that may be chosen, but for the largest number. -/
theorem nextPort_inRange (p : BitVec 16) : InRange (nextPort p) ∨ nextPort p = 0 := by
  have hp := p.isLt
  have hn := nextPort_toNat p
  unfold InRange IPPORT_RESERVED IPPORT_USERRESERVED
  by_cases hmax : p.toNat = 65535
  · right
    apply BitVec.eq_of_toNat_eq
    rw [hn, hmax]
    rfl
  · left
    rw [hn]
    split <;> omega

theorem iterate_inRange (p : BitVec 16) (k : Nat) :
    InRange (nextPort^[k + 1] p) ∨ nextPort^[k + 1] p = 0 := by
  rw [Function.iterate_succ_apply']
  exact nextPort_inRange _

/-! ## The search -/

theorem portLoop_eq (pcbs : List Inpcb) (laddr : BitVec 32) (fuel : Nat) (p : BitVec 16) :
    portLoop pcbs laddr fuel p =
      search nextPort (fun q => (inPcblookup pcbs 0 0 laddr (htons q) false).isSome) fuel p := by
  induction fuel generalizing p with
  | zero => rfl
  | succ fuel ih =>
    unfold portLoop search
    simp only [ih]

/-- **The search ends** when there are fewer blocks than ports. -/
theorem portLoop_total (hlen : pcbs.length < 3977) (laddr : BitVec 32) (p : BitVec 16) :
    ∃ q, portLoop pcbs laddr 3978 p = some q := by
  rw [portLoop_eq]
  have hused : ∀ q, (inPcblookup pcbs 0 0 laddr (htons q) false).isSome = true →
      q ∈ pcbs.map fun b => htons b.inpLport := by
    intro q hq
    obtain ⟨b, hb, hport, -⟩ := inPcblookup_exact.mp hq
    exact List.mem_map.mpr ⟨b, hb, by rw [hport, htons_htons]⟩
  -- from the second step on the counter goes through all ports
  have hfree : ∀ p, InRange (nextPort p) →
      ∃ k < 3977, (inPcblookup pcbs 0 0 laddr (htons (nextPort^[k + 1] p)) false).isSome = false := by
    intro p hp
    refine exists_free hused (by simpa using hlen) fun i hi j hj he => ?_
    have hval := congrArg BitVec.toNat he
    rw [Function.iterate_succ_apply, Function.iterate_succ_apply, nextPort_round hp,
      nextPort_round hp] at hval
    omega
  rcases nextPort_inRange p with hp | hp
  · obtain ⟨k, hk, hb⟩ := hfree p hp
    exact search_of_free hb (by omega)
  · obtain ⟨k, hk, hb⟩ := hfree (nextPort p) (by rw [hp]; exact ⟨by decide, by decide⟩)
    rw [← Function.iterate_succ_apply] at hb
    exact search_of_free hb (by omega)

/-! ## Fresh ports -/

/-- `in_pcbbind` may be called for the block at place `i`: it is not bound, and `nam`, if any, has port
    0 and an address that is accepted. -/
structure Binds (tnet : Netifs) (s : Inpcbs) (i : Nat) (inp : Inpcb) (nam : Option Nam) : Prop where
  get : s.pcbs[i]? = some inp
  lport : inp.inpLport = 0
  laddr : inp.inpLaddr = 0
  port : ∀ n ∈ nam, n.sinPort = 0
  size : ∀ n ∈ nam, n.mLen = sockaddrInSize
  addr : ∀ n ∈ nam, inMulticast n.sinAddr = true ∨ n.sinAddr = 0 ∨ (tnIfwithaddr tnet n.sinAddr).isSome

/-- The local address behind the call. -/
def bindLaddr (nam : Option Nam) : BitVec 32 := (nam.map Nam.sinAddr).getD 0

/-- The block with its local address. -/
def bindInp (inp : Inpcb) (nam : Option Nam) : Inpcb := { inp with inpLaddr := bindLaddr nam }

/-- Another block has the local port. -/
def Held (pcbs : List Inpcb) (i : Nat) (p : BitVec 16) : Prop :=
  ∃ j b, j ≠ i ∧ pcbs[j]? = some b ∧ b.inpLport = htons p

/-- An unconnected block with the local address has the local port. -/
def Taken (pcbs : List Inpcb) (laddr : BitVec 32) (p : BitVec 16) : Prop :=
  ∃ b ∈ pcbs, b.inpLport = htons p ∧ b.inpLaddr = laddr ∧ b.inpFaddr = 0

/-- The port is in its range, no other block has it, and only the port counter and the block are changed. -/
structure Fresh (s : Inpcbs) (i : Nat) (inp : Inpcb) (r : Pcbd) : Prop where
  rc : r.rc = 0
  port : ∃ p, r.s.pcbs[i]? = some p ∧ InRange (ntohs p.inpLport) ∧ ¬ Held s.pcbs i (ntohs p.inpLport) ∧
    p.inpFaddr = inp.inpFaddr ∧ p.inpFport = inp.inpFport ∧ p.reuseport = inp.reuseport
  others : ∀ j, j ≠ i → r.s.pcbs[j]? = s.pcbs[j]?

/-- The first port no unconnected block with the local address has, in the order of the counter, is not
    0, and no other block has it. -/
def FirstClear (s : Inpcbs) (i : Nat) (inp : Inpcb) (nam : Option Nam) : Prop :=
  ∀ k, (∀ j < k, Taken (s.pcbs.set i (bindInp inp nam)) (bindLaddr nam) (nextPort^[j + 1] s.inpLport)) →
    nextPort^[k + 1] s.inpLport = 0 ∨ Held s.pcbs i (nextPort^[k + 1] s.inpLport) →
    Taken (s.pcbs.set i (bindInp inp nam)) (bindLaddr nam) (nextPort^[k + 1] s.inpLport)

/-- The call comes down to the search. -/
theorem Binds.eq (h : Binds tnet s i inp nam) (fuel : Nat) : inPcbbind tnet fuel s i nam =
    (portLoop (s.pcbs.set i (bindInp inp nam)) (bindLaddr nam) fuel s.inpLport).map fun p =>
      ⟨0, p, s.pcbs.set i { bindInp inp nam with inpLport := htons p }⟩ := by
  have hi : i < s.pcbs.length := (List.getElem?_eq_some_iff.mp h.get).1
  unfold inPcbbind
  rw [h.get]
  simp only [h.lport, h.laddr, ne_eq, not_true_eq_false, or_self, if_false]
  cases nam with
  | none =>
    have hinp : bindInp inp none = inp := by
      cases inp
      simp only [bindInp, bindLaddr, Option.map_none, Option.getD_none, Inpcb.mk.injEq, true_and, and_true]
      exact h.laddr.symm
    have hset : s.pcbs.set i inp = s.pcbs := by
      refine List.ext_getElem? fun j => ?_
      rw [List.getElem?_set]
      split
      · rename_i hj
        rw [← hj, h.get]
      · rfl
    simp only [bindPort, h.get, hinp, h.laddr, bindLaddr, hset]
    rfl
  | some n =>
    have hn := h.port n rfl
    have haddr : bindAddr tnet s i inp n = .ok { s with pcbs := s.pcbs.set i (bindInp inp (some n)) } := by
      unfold bindAddr
      rw [if_neg (by simp [h.size n rfl]), if_neg]
      · rw [hn]
        rfl
      · rintro ⟨h1, h2, h3⟩
        rcases h.addr n rfl with hc | hc | hc
        · rw [h1] at hc
          cases hc
        · exact h2 hc
        · rw [Option.isNone_iff_eq_none.mp h3] at hc
          cases hc
    simp only [haddr, bindPort, hn, List.getElem?_set_self hi, if_true, List.set_set]
    rfl

/-- The result of the search, in terms of the ports in front of it. -/
theorem portLoop_spec (h : portLoop pcbs laddr fuel p = some q) :
    ∃ k, q = nextPort^[k + 1] p ∧ ¬ Taken pcbs laddr q ∧ ∀ j < k,
    Taken pcbs laddr (nextPort^[j + 1] p) := by
  rw [portLoop_eq] at h
  obtain ⟨k, -, hq, hfree, hbusy⟩ := search_eq_some_iff.mp h
  refine ⟨k, hq, ?_, fun j hj => inPcblookup_exact.mp (hbusy j hj)⟩
  rw [Taken, ← inPcblookup_exact, hfree]
  exact Bool.false_ne_true

theorem portLoop_le (h : portLoop pcbs laddr fuel p = some q) {fuel' : Nat} (hle : fuel ≤ fuel') :
    portLoop pcbs laddr fuel' p = some q := by
  rw [portLoop_eq] at h ⊢
  exact search_le h hle

/-- The port is 0, or may be chosen. -/
theorem inRange_iff (h : InRange p ∨ p = 0) : InRange p ↔ p ≠ 0 := by
  constructor
  · rintro ⟨hlo, -⟩ rfl
    exact absurd hlo (by decide)
  · exact fun hne => h.resolve_right hne

/-- The first port without an unconnected block is the one that counts. -/
theorem firstClear_iff
    (hq : portLoop (s.pcbs.set i (bindInp inp nam)) (bindLaddr nam) fuel s.inpLport = some q) :
    FirstClear s i inp nam ↔ q ≠ 0 ∧ ¬ Held s.pcbs i q := by
  obtain ⟨k, rfl, hfree, hbusy⟩ := portLoop_spec hq
  unfold FirstClear
  constructor
  · intro hc
    have h := fun hbad => hfree (hc k hbusy hbad)
    exact ⟨fun h0 => h (.inl h0), fun hh => h (.inr hh)⟩
  · rintro ⟨h0, hheld⟩ k' hk' hbad
    rcases Nat.lt_trichotomy k' k with hlt | rfl | hgt
    · exact hbusy k' hlt
    · rcases hbad with hbad | hbad
      · exact absurd hbad h0
      · exact absurd hbad hheld
    · exact absurd (hk' k hgt) hfree

/-- What the call leaves is fresh exactly when the port is. -/
theorem fresh_iff (hi : i < s.pcbs.length) (q : BitVec 16) :
    Fresh s i inp ⟨0, q, s.pcbs.set i { bindInp inp nam with inpLport := htons q }⟩ ↔
      InRange q ∧ ¬ Held s.pcbs i q := by
  constructor
  · rintro ⟨-, ⟨p, hp, hrange, hheld, -⟩, -⟩
    simp only [List.getElem?_set_self hi, Option.some.injEq] at hp
    subst hp
    simp only [ntohs, htons_htons] at hrange hheld
    exact ⟨hrange, hheld⟩
  · rintro ⟨hrange, hheld⟩
    constructor
    case rc => rfl
    case port => exact ⟨_,
      List.getElem?_set_self hi, by simpa [ntohs] using hrange, by simpa [ntohs] using hheld, rfl, rfl, rfl⟩
    case others => exact fun j hj => List.getElem?_set_ne (Ne.symm hj)

/-- **Ephemeral ports.**  With fewer blocks than ports `in_pcbbind` ends, and the port is fresh exactly
    when the first one no unconnected block with the same local address has is no other block's
    either. -/
theorem bind_fresh_iff (tnet : Netifs) (s : Inpcbs) (i : Nat) (inp : Inpcb) (nam : Option Nam)
    (hb : Binds tnet s i inp nam) (hlen : s.pcbs.length < 3977) :
    (∃ r, (∀ fuel, 3978 ≤ fuel → inPcbbind tnet fuel s i nam = some r) ∧ Fresh s i inp r) ↔
      FirstClear s i inp nam := by
  have hi : i < s.pcbs.length := (List.getElem?_eq_some_iff.mp hb.get).1
  obtain ⟨q, hq⟩ :=
    @portLoop_total (s.pcbs.set i (bindInp inp nam)) (by simpa using hlen) (bindLaddr nam) s.inpLport
  have hrun : ∀ fuel, 3978 ≤ fuel → inPcbbind tnet fuel s i nam =
      some ⟨0, q, s.pcbs.set i { bindInp inp nam with inpLport := htons q }⟩ := by
    intro fuel hle
    rw [hb.eq, portLoop_le hq hle]
    rfl
  obtain ⟨k, hk, -⟩ := portLoop_spec hq
  have hrange : InRange q ∨ q = 0 := by
    rw [hk]
    exact iterate_inRange _ k
  rw [firstClear_iff hq, ← inRange_iff hrange, ← @fresh_iff _ inp nam _ hi]
  constructor
  · rintro ⟨r, hr, hf⟩
    have he := (hr 3978 le_rfl).symm.trans (hrun 3978 le_rfl)
    cases he
    exact hf
  · exact fun hf => ⟨_, hrun, hf⟩

/-- No interface. -/
def noNetifs : Netifs := ⟨[], none⟩

/-- The only block, behind the last port. -/
theorem bind_fresh_alone :
    ∃ r, (∀ fuel, 3978 ≤ fuel → inPcbbind noNetifs fuel ⟨5000, [{}]⟩ 0 none = some r) ∧
    Fresh ⟨5000, [{}]⟩ 0 {} r := by
  refine (bind_fresh_iff noNetifs ⟨5000, [{}]⟩ 0 {} none ⟨rfl, rfl, rfl, nofun, nofun, nofun⟩
    (by decide)).mpr ?_
  intro k hk hbad
  cases k with
  | zero =>
    exfalso
    rcases hbad with h0 | ⟨j, b, hj, hget, -⟩
    · exact absurd h0 (by decide)
    · cases j with
      | zero => exact hj rfl
      | succ j => simp at hget
  | succ k =>
    obtain ⟨b, hb, hport, -⟩ := hk 0 (by omega)
    simp only [List.set_cons_zero, List.mem_singleton] at hb
    subst hb
    exact absurd hport (by decide)

/-- A connected block that has port 1024. -/
def connectedPcb : Inpcb :=
  { inpFaddr := 0xC0A80001, inpLaddr := 0xC0A80002, inpFport := htons 80, inpLport := htons 1024 }

/-- **The defect**: the port of a connected block is given away. -/
theorem port_of_connected_given : ¬ ∃ r, (∀ fuel, 3978 ≤ fuel →
      inPcbbind noNetifs fuel ⟨5000, [connectedPcb, {}]⟩ 1 none = some r) ∧
    Fresh ⟨5000, [connectedPcb, {}]⟩ 1 {} r := by
  rintro ⟨r, hr, hf⟩
  have he : inPcbbind noNetifs 3978 ⟨5000, [connectedPcb, {}]⟩ 1 none =
      some ⟨0, 1024, [connectedPcb, { inpLport := htons 1024 }]⟩ := by rfl
  cases (hr 3978 le_rfl).symm.trans he
  obtain ⟨p, hp, -, hheld, -⟩ := hf.port
  cases hp
  exact hheld ⟨0, connectedPcb, by decide, rfl, rfl⟩

end TnNet.Pcb
