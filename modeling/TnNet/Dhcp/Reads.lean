import TnNet.Dhcp.Exchange

/-!
# What `dhcp_parse_offer` reads

A visit is one turn of the loop, with the places in `dh_opt` of the bytes it reads: the tag and the
length of an option, and its data.

* `parseLoop_reads` — the result of the parser depends on these bytes, and on `dh_yiaddr`.
* `parseLoop_fuel` — the loop ends.
* `parse_inside_iff` — the parser stays inside the message exactly when all options it meets do.
-/

set_option autoImplicit false

namespace TnNet.Dhcp

variable {dh dh' : Nat → UInt8} {d : Working} {got : Bool} {fuel fuel' i rc : Nat}

/-! ## The walk -/

/-- The number of data bytes that are read of an option. -/
def dataSize (tag len : UInt8) : Nat :=
  if tag = DHCP_OPT_DNS_SRV then 4 * ((len.toNat + 3) / 4)
  else if tag ∈ wordOptions then 4
  else if tag = DHCP_OPT_MSG_TYPE then 1
  else 0

/-- A turn of the loop at a place of `dh_opt`. -/
structure Visit where
  place : Nat
  heads : List Nat
  len : Nat
  data : List Nat

/-- The turn that takes an option. -/
def visitOption (dh : Nat → UInt8) (i : Nat) : Visit where
  place := i
  heads := [i, i + 1]
  len := (opt dh (i + 1)).toNat
  data := List.range' (i + 2) (dataSize (opt dh i) (opt dh (i + 1)))

/-- The turns of the loop of `dhcp_parse_offer`. -/
def visits (dh : Nat → UInt8) : Nat → Nat → List Visit
  | 0, _ => []
  | fuel + 1, i =>
    if i < DHCP_OPTIONS_SIZE then
      if opt dh i = DHCP_OPT_PAD then ⟨i, [i], 0, []⟩ :: visits dh fuel (i + 1)
      else if opt dh i = DHCP_OPT_END then [⟨i, [i], 0, []⟩]
      else visitOption dh i :: visits dh fuel (i + ((opt dh (i + 1)).toNat + 2))
    else []

/-- The places of the options that the loop takes. -/
def optionPlaces (dh : Nat → UInt8) : Nat → Nat → List Nat
  | 0, _ => []
  | fuel + 1, i =>
    if i < DHCP_OPTIONS_SIZE then
      if opt dh i = DHCP_OPT_PAD then optionPlaces dh fuel (i + 1)
      else if opt dh i = DHCP_OPT_END then []
      else i :: optionPlaces dh fuel (i + ((opt dh (i + 1)).toNat + 2))
    else []

/-- The bytes that a turn reads. -/
def Visit.reads (v : Visit) : List Nat := v.heads ++ v.data

/-! ## The reads are all there are -/

theorem optWord_reads (h : ∀ p ∈ List.range' i 4, opt dh p = opt dh' p) : optWord dh i = optWord dh' i := by
  have hbyte : ∀ k < 4, dh (236 + (i + k)) = dh' (236 + (i + k)) := fun k hk =>
    h (i + k) (by rw [List.mem_range'_1]; omega)
  unfold optWord word
  have h0 := hbyte 0 (by omega)
  have h1 := hbyte 1 (by omega)
  have h2 := hbyte 2 (by omega)
  have h3 := hbyte 3 (by omega)
  simp only [Nat.add_zero, ← Nat.add_assoc] at h0 h1 h2 h3
  rw [h0, h1, h2, h3]

theorem dnsLoop_reads {len : Nat}
    (h : ∀ p ∈ List.range' (i + 2) (4 * ((len + 3) / 4)), opt dh p = opt dh' p) :
    dnsLoop dh i len = dnsLoop dh' i len := by
  unfold dnsLoop
  refine List.foldl_ext _ _ _ fun addrs k hk => ?_
  have hk' := List.mem_range.mp hk
  have hword : optWord dh (i + 2 + 4 * k) = optWord dh' (i + 2 + 4 * k) := by
    refine optWord_reads fun p hp => h p ?_
    rw [List.mem_range'_1] at hp ⊢
    omega
  rw [hword]

/-- One option. -/
theorem parseOption_reads (h : ∀ p ∈ (visitOption dh i).reads, opt dh p = opt dh' p)
    (hy : dhYiaddr dh = dhYiaddr dh') :
    parseOption dh i d = parseOption dh' i d ∧ gotOffer dh i got = gotOffer dh' i got := by
  have htag := h i (by simp [Visit.reads, visitOption])
  have hlen := h (i + 1) (by simp [Visit.reads, visitOption])
  have hdata : ∀ p ∈ List.range' (i + 2) (dataSize (opt dh i) (opt dh (i + 1))), opt dh p = opt dh' p :=
    fun p hp => h p (List.mem_append_right _ hp)
  have hword : opt dh i ∈ wordOptions → optWord dh (i + 2) = optWord dh' (i + 2) := by
    intro hw
    have hdns : opt dh i ≠ DHCP_OPT_DNS_SRV := fun hd => absurd (hd ▸ hw) (by decide)
    rw [dataSize, if_neg hdns, if_pos hw] at hdata
    exact optWord_reads hdata
  have hdns : opt dh i = DHCP_OPT_DNS_SRV →
      dnsLoop dh i (opt dh (i + 1)).toNat = dnsLoop dh' i (opt dh' (i + 1)).toNat := by
    intro hd
    rw [dataSize, if_pos hd] at hdata
    rw [← hlen]
    exact dnsLoop_reads hdata
  have htype : (opt dh i = DHCP_OPT_MSG_TYPE ∧ opt dh (i + 2) = DHCP_OFFER) ↔
      (opt dh i = DHCP_OPT_MSG_TYPE ∧ opt dh' (i + 2) = DHCP_OFFER) := by
    refine and_congr_right fun ht => ?_
    have hsize : dataSize DHCP_OPT_MSG_TYPE (opt dh (i + 1)) = 1 := rfl
    rw [ht, hsize] at hdata
    rw [hdata (i + 2) (by simp)]
  constructor
  · unfold parseOption
    rw [← htag]
    refine ite_congr rfl (fun h => by rw [hword (by rw [h]; decide)]) fun _ => ?_
    refine ite_congr rfl (fun h => by rw [hword (by rw [h]; decide)]) fun _ => ?_
    refine ite_congr rfl (fun h => by rw [hword (by rw [h]; decide)]) fun _ => ?_
    refine ite_congr rfl (fun h => by rw [hdns h]) fun _ => ?_
    refine ite_congr rfl (fun h => by rw [hword (by rw [h]; decide)]) fun _ => ?_
    refine ite_congr rfl (fun h => by rw [hword (by rw [h]; decide)]) fun _ => ?_
    refine ite_congr rfl (fun h => by rw [hword (by rw [h]; decide)]) fun _ => ?_
    refine ite_congr rfl (fun h => by rw [hword (by rw [h]; decide)]) fun _ => ?_
    exact ite_congr (propext htype) (fun _ => by rw [hy]) fun _ => rfl
  · unfold gotOffer
    rw [← htag, decide_eq_decide.mpr htype]

/-- **The parser reads no other bytes.** -/
theorem parseLoop_reads (h : ∀ v ∈ visits dh fuel i, ∀ p ∈ v.reads, opt dh p = opt dh' p)
    (hy : dhYiaddr dh = dhYiaddr dh') : parseLoop dh fuel i d got = parseLoop dh' fuel i d got := by
  induction fuel generalizing i d got with
  | zero => rfl
  | succ fuel ih =>
    unfold visits at h
    unfold parseLoop
    split
    · rename_i hi
      rw [if_pos hi] at h
      by_cases hpad : opt dh i = DHCP_OPT_PAD
      · rw [if_pos hpad] at h
        rw [← h _ List.mem_cons_self i (by simp [Visit.reads]), if_pos hpad, if_pos hpad]
        exact ih fun v hv => h v (List.mem_cons_of_mem _ hv)
      · rw [if_neg hpad] at h
        by_cases hend : opt dh i = DHCP_OPT_END
        · rw [if_pos hend] at h
          rw [← h _ List.mem_cons_self i (by simp [Visit.reads]), if_neg hpad, if_neg hpad, if_pos hend,
            if_pos hend]
        · rw [if_neg hend] at h
          have hv := h _ List.mem_cons_self
          obtain ⟨h1, h2⟩ := @parseOption_reads dh dh' d got i hv hy
          rw [← hv i (by simp [Visit.reads, visitOption]), ← hv (i + 1)
            (by simp [Visit.reads, visitOption]), if_neg hpad, if_neg hpad, if_neg hend, if_neg hend,
            ← h1, ← h2]
          exact ih fun v hv => h v (List.mem_cons_of_mem _ hv)
    · rfl

/-! ## The loop ends -/

/-- Every turn takes a byte at least. -/
theorem parseLoop_fuel (h : DHCP_OPTIONS_SIZE ≤ fuel + i) (h' : DHCP_OPTIONS_SIZE ≤ fuel' + i) :
    parseLoop dh fuel i d got = parseLoop dh fuel' i d got := by
  induction fuel generalizing fuel' i d got with
  | zero =>
    cases fuel' with
    | zero => rfl
    | succ fuel' =>
      unfold parseLoop
      rw [if_neg (by omega)]
  | succ fuel ih =>
    cases fuel' with
    | zero =>
      unfold parseLoop
      rw [if_neg (by omega)]
    | succ fuel' =>
      unfold parseLoop
      split
      · split
        · exact ih (by omega) (by omega)
        · split
          · rfl
          · exact ih (by omega) (by omega)
      · rfl

/-! ## Inside the message -/

/-- The parser ends, reads no byte outside `dh_opt`, takes no option data from beyond the `rc` bytes
    received, and reads of an option only bytes within its length. -/
structure ParseInside (dh : Nat → UInt8) (rc : Nat) : Prop where
  ends : ∀ fuel d, DHCP_OPTIONS_SIZE ≤ fuel → parseLoop dh fuel 4 d false = dhcpParseOffer dh d
  array : ∀ v ∈ visits dh DHCP_OPTIONS_SIZE 4, ∀ p ∈ v.reads, p < DHCP_OPTIONS_SIZE
  received : ∀ v ∈ visits dh DHCP_OPTIONS_SIZE 4, ∀ p ∈ v.data, 236 + p < rc
  declared : ∀ v ∈ visits dh DHCP_OPTIONS_SIZE 4, ∀ p ∈ v.data, v.place + 2 ≤ p ∧
    p < v.place + 2 + v.len

/-- An option has its length byte in `dh_opt`, is not shorter than what is read of it, and what is read
    of it was received. -/
structure OptionFits (dh : Nat → UInt8) (rc i : Nat) : Prop where
  head : i + 1 < DHCP_OPTIONS_SIZE
  len : dataSize (opt dh i) (opt dh (i + 1)) ≤ (opt dh (i + 1)).toNat
  received : 0 < dataSize (opt dh i) (opt dh (i + 1)) →
    236 + (i + 2) + dataSize (opt dh i) (opt dh (i + 1)) ≤ rc

/-- The turns that take options, and the others. -/
theorem mem_visits {v : Visit} (hv : v ∈ visits dh fuel i) :
    (∃ j ∈ optionPlaces dh fuel i, v = visitOption dh j) ∨ ∃ j < DHCP_OPTIONS_SIZE,
    v = ⟨j, [j], 0, []⟩ := by
  induction fuel generalizing i with
  | zero => cases hv
  | succ fuel ih =>
    unfold visits at hv
    unfold optionPlaces
    split at hv
    · rename_i hi
      rw [if_pos hi]
      split at hv
      · rename_i hpad
        rw [if_pos hpad]
        rcases List.mem_cons.mp hv with rfl | hv
        · exact .inr ⟨i, hi, rfl⟩
        · exact ih hv
      · rename_i hpad
        rw [if_neg hpad]
        split at hv
        · exact .inr ⟨i, hi, List.mem_singleton.mp hv⟩
        · rename_i hend
          rw [if_neg hend]
          rcases List.mem_cons.mp hv with rfl | hv
          · exact .inl ⟨i, List.mem_cons_self, rfl⟩
          · rcases ih hv with ⟨j, hj, he⟩ | hno
            · exact .inl ⟨j, List.mem_cons_of_mem _ hj, he⟩
            · exact .inr hno
    · cases hv

theorem visitOption_mem {j : Nat} (hj : j ∈ optionPlaces dh fuel i) :
    visitOption dh j ∈ visits dh fuel i := by
  induction fuel generalizing i with
  | zero => cases hj
  | succ fuel ih =>
    unfold optionPlaces at hj
    unfold visits
    split at hj
    · rename_i hi
      rw [if_pos hi]
      split at hj
      · rename_i hpad
        rw [if_pos hpad]
        exact List.mem_cons_of_mem _ (ih hj)
      · rename_i hpad
        rw [if_neg hpad]
        split at hj
        · cases hj
        · rename_i hend
          rw [if_neg hend]
          rcases List.mem_cons.mp hj with rfl | hj
          · exact List.mem_cons_self
          · exact List.mem_cons_of_mem _ (ih hj)
    · cases hj

/-- **The parser and the message.**  The parser stays inside the message exactly when every option that
    it meets has its length byte in `dh_opt`, is as long as what is read of it, and was received as far
    as it is read. -/
theorem parse_inside_iff (dh : Nat → UInt8) (rc : Nat) (hrc : rc ≤ dhcpSize) :
    ParseInside dh rc ↔ ∀ i ∈ optionPlaces dh DHCP_OPTIONS_SIZE 4, OptionFits dh rc i := by
  unfold dhcpSize at hrc
  constructor
  · rintro ⟨-, harray, hreceived, hdeclared⟩ i hi
    have hv := visitOption_mem hi
    have hlast : 0 < dataSize (opt dh i) (opt dh (i + 1)) →
        i + 2 + (dataSize (opt dh i) (opt dh (i + 1)) - 1) ∈ (visitOption dh i).data := by
      intro hpos
      simp only [visitOption, List.mem_range'_1]
      omega
    constructor
    case head => exact harray _ hv (i + 1) (by simp [Visit.reads, visitOption])
    case len =>
      by_contra hgt
      have h := (hdeclared _ hv _ (hlast (by omega))).2
      simp only [visitOption] at h
      omega
    case received =>
      intro hpos
      have h := hreceived _ hv _ (hlast hpos)
      omega
  · intro h
    constructor
    case ends => exact fun fuel d hf => parseLoop_fuel (by omega) (by omega)
    case array =>
      intro v hv p hp
      rcases mem_visits hv with ⟨j, hj, rfl⟩ | ⟨j, hj, rfl⟩
      · obtain ⟨hhead, -, hrec⟩ := h j hj
        simp only [Visit.reads, visitOption, List.mem_append, List.mem_cons, List.not_mem_nil, or_false,
          List.mem_range'_1] at hp
        unfold DHCP_OPTIONS_SIZE at hhead ⊢
        omega
      · simp only [Visit.reads, List.append_nil, List.mem_singleton] at hp
        rwa [hp]
    case received =>
      intro v hv p hp
      rcases mem_visits hv with ⟨j, hj, rfl⟩ | ⟨j, hj, rfl⟩
      · obtain ⟨-, -, hrec⟩ := h j hj
        simp only [visitOption, List.mem_range'_1] at hp
        omega
      · cases hp
    case declared =>
      intro v hv p hp
      rcases mem_visits hv with ⟨j, hj, rfl⟩ | ⟨j, hj, rfl⟩
      · obtain ⟨-, hlen, -⟩ := h j hj
        simp only [visitOption, List.mem_range'_1] at hp ⊢
        omega
      · cases hp

/-- A message whose options are `opts`. -/
def optionsDh (opts : List UInt8) (i : Nat) : UInt8 := if i < 240 then 0 else opts.getD (i - 240) 0

/-- An OFFER whose options end with their last byte. -/
theorem parse_inside_offer : ParseInside (optionsDh [53, 1, 2, 1, 4, 255, 255, 255, 0, 255]) 300 := by
  refine (parse_inside_iff _ 300 (by decide)).mpr fun i hi => ?_
  have hplaces : optionPlaces (optionsDh [53, 1, 2, 1, 4, 255, 255, 255, 0, 255]) DHCP_OPTIONS_SIZE 4 =
      [4, 7] := by
    decide +kernel
  rw [hplaces] at hi
  simp only [List.mem_cons, List.not_mem_nil, or_false] at hi
  rcases hi with rfl | rfl
  · exact ⟨by decide, by decide, by decide⟩
  · exact ⟨by decide, by decide, by decide⟩

/-- **The defect**: of a lease time without data four bytes are read. -/
theorem empty_lease_option_overrun : ¬ ParseInside (optionsDh [53, 1, 2, 51, 0, 255]) 548 := by
  intro h
  have hv : visitOption (optionsDh [53, 1, 2, 51, 0, 255]) 7 ∈
      visits (optionsDh [53, 1, 2, 51, 0, 255]) DHCP_OPTIONS_SIZE 4 :=
    List.mem_cons_of_mem _ List.mem_cons_self
  have hd := (h.declared _ hv 9 (by decide)).2
  exact absurd hd (by decide)

end TnNet.Dhcp
