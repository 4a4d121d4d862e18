import TnNet.Dhcp.Exchange

/-!
# The options of a message

The option field of a DHCP message is a list of items: padding, or an option with a tag, a length and
that many bytes.  `apply` says what an item of an OFFER means to the client.

* `readOptions_encode` — reading what was written gives the items back.
* `parse_encode` — `dhcp_parse_offer` understands every OFFER: it sets the fields as the items say, in
  their order, whatever stands behind the end, and has got an offer when one of them says so.
-/

set_option autoImplicit false

namespace TnNet.Dhcp

variable {dh : Nat → UInt8} {d : Working} {got : Bool} {fuel i : Nat} {l : List UInt8}

/-! ## Writing and reading -/

/-- An item of the option field. -/
inductive OptItem where
  | pad
  | option (tag : UInt8) (data : List UInt8)
  deriving DecidableEq

namespace OptItem

def encode : OptItem → List UInt8
  | pad => [DHCP_OPT_PAD]
  | option tag data => tag :: UInt8.ofNat data.length :: data

/-- The item can be written: the tag is not one of the two without a length, and the length fits in its
    byte. -/
def Fits : OptItem → Prop
  | pad => True
  | option tag data => tag ≠ DHCP_OPT_PAD ∧ tag ≠ DHCP_OPT_END ∧ data.length < 256

instance (o : OptItem) : Decidable o.Fits := by
  cases o <;> unfold Fits <;> infer_instance

end OptItem

/-- The option field, up to its end. -/
def encodeOptions (os : List OptItem) : List UInt8 := os.flatMap OptItem.encode ++ [DHCP_OPT_END]

/-- The items from a place of `dh_opt` on, up to the end. -/
def readOptions (dh : Nat → UInt8) : Nat → Nat → List OptItem
  | 0, _ => []
  | fuel + 1, i =>
    if i < DHCP_OPTIONS_SIZE then
      if opt dh i = DHCP_OPT_PAD then .pad :: readOptions dh fuel (i + 1)
      else if opt dh i = DHCP_OPT_END then []
      else
        .option (opt dh i) ((List.range (opt dh (i + 1)).toNat).map fun k => opt dh (i + 2 + k)) ::
          readOptions dh fuel (i + ((opt dh (i + 1)).toNat + 2))
    else []

/-- The bytes stand at a place. -/
def At (m : Nat → UInt8) (i : Nat) (l : List UInt8) : Prop := ∀ k < l.length, m (i + k) = l.getD k 0

section at_

variable {m : Nat → UInt8}

theorem At.head {b : UInt8} (h : At m i (b :: l)) : m i = b := h 0 (Nat.zero_lt_succ _)

theorem At.left {l' : List UInt8} (h : At m i (l ++ l')) : At m i l := by
  intro k hk
  rw [h k (by rw [List.length_append]; omega), List.getD_append _ _ _ _ hk]

theorem At.right {l' : List UInt8} (h : At m i (l ++ l')) : At m (i + l.length) l' := by
  intro k hk
  have hb := h (l.length + k) (by rw [List.length_append]; omega)
  rw [List.getD_append_right _ _ _ _ (Nat.le_add_right _ _), Nat.add_sub_cancel_left] at hb
  rw [Nat.add_assoc]
  exact hb

theorem At.tail {b : UInt8} (h : At m i (b :: l)) : At m (i + 1) l := At.right (l := [b]) h

/-- The bytes that are there. -/
theorem At.read (h : At m i l) : ((List.range l.length).map fun k => m (i + k)) = l := by
  refine List.ext_getElem (by simp) fun k hk hk' => ?_
  rw [List.getElem_map, List.getElem_range, h k hk', List.getD_eq_getElem _ _ hk']

end at_

theorem encode_length (o : OptItem) : 1 ≤ o.encode.length := by
  cases o <;> simp [OptItem.encode]

theorem length_encodeOptions (os : List OptItem) : os.length < (encodeOptions os).length := by
  induction os with
  | nil => exact Nat.zero_lt_one
  | cons o os ih =>
    have hcons : encodeOptions (o :: os) = o.encode ++ encodeOptions os := by
      simp [encodeOptions, List.append_assoc]
    have := encode_length o
    rw [hcons, List.length_append, List.length_cons]
    omega

/-- **What was written is read.** -/
theorem readOptions_encode {os : List OptItem} (hfits : ∀ o ∈ os, o.Fits)
    (hat : At (opt dh) i (encodeOptions os)) (hsize : i + (encodeOptions os).length ≤ DHCP_OPTIONS_SIZE)
    (hfuel : os.length < fuel) : readOptions dh fuel i = os := by
  induction os generalizing fuel i with
  | nil =>
    obtain ⟨fuel, rfl⟩ : ∃ f, fuel = f + 1 := ⟨fuel - 1, by omega⟩
    have hend : opt dh i = DHCP_OPT_END := hat.head
    have hne : DHCP_OPT_END ≠ DHCP_OPT_PAD := by decide
    unfold readOptions
    rw [hend, if_neg hne, if_pos rfl, ite_self]
  | cons o os ih =>
    obtain ⟨fuel, rfl⟩ : ∃ f, fuel = f + 1 := ⟨fuel - 1, by omega⟩
    have hcons : encodeOptions (o :: os) = o.encode ++ encodeOptions os := by
      simp [encodeOptions, List.append_assoc]
    rw [hcons] at hat hsize
    rw [List.length_append] at hsize
    have hpos := encode_length o
    have hrest :=
      @ih fuel (i + o.encode.length) (fun o' h => hfits o' (List.mem_cons_of_mem o h)) hat.right (by omega)
      (by rw [List.length_cons] at hfuel; omega)
    have hitem := hat.left
    have hlt : i < DHCP_OPTIONS_SIZE := by omega
    unfold readOptions
    rw [if_pos hlt]
    cases o with
    | pad =>
      rw [if_pos hitem.head]
      exact congrArg _ hrest
    | option tag data =>
      obtain ⟨hpad, hend, hlen⟩ := hfits _ List.mem_cons_self
      have hlength : (opt dh (i + 1)).toNat = data.length := by
        rw [hitem.tail.head]
        exact UInt8.toNat_ofNat_of_lt' hlen
      rw [hitem.head, if_neg hpad, if_neg hend, hlength, hitem.tail.tail.read]
      have hnext : i + (OptItem.option tag data).encode.length = i + (data.length + 2) := by
        simp [OptItem.encode]
      rw [hnext] at hrest
      rw [hrest]

/-! ## Numbers -/

/-- The number in the first four bytes. -/
def be32 (data : List UInt8) : BitVec 32 := word (fun i => data.getD i 0) 0

theorem be32_bytes32 (x : BitVec 32) : be32 (bytes32 x) = x := by
  change x.extractLsb' 24 8 ++ x.extractLsb' 16 8 ++ x.extractLsb' 8 8 ++ x.extractLsb' 0 8 = x
  ext i hi
  grind

theorem At.word {m : Nat → UInt8} (h : At m i l) (hlen : 4 ≤ l.length) : word m i = be32 l := by
  have h0 : m i = l.getD 0 0 := h 0 (by omega)
  have h1 := h 1 (by omega)
  have h2 := h 2 (by omega)
  have h3 := h 3 (by omega)
  unfold be32 Dhcp.word
  rw [h0, h1, h2, h3]

/-- The first addresses that there is room for. -/
def dnsAddrs (data : List UInt8) : List (BitVec 32) :=
  ((List.range (data.length / 4)).map fun k => be32 (data.drop (4 * k))).take DHCP_MAX_DNS

theorem foldl_room (f : Nat → BitVec 32) (m : Nat) (ks : List Nat) (addrs : List (BitVec 32)) :
    ks.foldl (fun addrs k => if addrs.length < m then addrs ++ [f k] else addrs) addrs =
      addrs ++ (ks.map f).take (m - addrs.length) := by
  induction ks generalizing addrs with
  | nil => simp
  | cons k ks ih =>
    rw [List.foldl_cons, ih]
    by_cases hlt : addrs.length < m
    · obtain ⟨r, hr⟩ : ∃ r, m - addrs.length = r + 1 := ⟨m - addrs.length - 1, by omega⟩
      have hr' : m - (addrs ++ [f k]).length = r := by
        rw [List.length_append, List.length_singleton]
        omega
      rw [if_pos hlt, hr', hr, List.map_cons, List.take_succ_cons, List.append_assoc]
      rfl
    · have h0 : m - addrs.length = 0 := by omega
      rw [if_neg hlt, h0, List.take_zero, List.take_zero]

theorem At.dns (h : At (opt dh) (i + 2) l) (hlen : l.length % 4 = 0) :
    dnsLoop dh i l.length = dnsAddrs l := by
  unfold dnsLoop dnsAddrs
  have hcount : (l.length + 3) / 4 = l.length / 4 := by omega
  rw [hcount, foldl_room, List.nil_append, List.length_nil, Nat.sub_zero]
  refine congrArg _ (List.map_congr_left fun k hk => ?_)
  have hk' := List.mem_range.mp hk
  have hat : At (opt dh) (i + 2 + 4 * k) (l.drop (4 * k)) := by
    intro j hj
    rw [List.length_drop] at hj
    rw [Nat.add_assoc (i + 2), h (4 * k + j) (by omega)]
    simp [List.getD_eq_getElem?_getD, List.getElem?_drop]
  refine hat.word ?_
  rw [List.length_drop]
  omega

/-! ## What an OFFER says -/

namespace OptItem

/-- The item has the bytes that the client takes of it. -/
def Sized : OptItem → Prop
  | pad => True
  | option tag data =>
    (tag ∈ wordOptions → 4 ≤ data.length) ∧ (tag = DHCP_OPT_DNS_SRV → data.length % 4 = 0) ∧
      (tag = DHCP_OPT_MSG_TYPE → 1 ≤ data.length)

instance (o : OptItem) : Decidable o.Sized := by
  cases o <;> unfold Sized <;> infer_instance

/-- The type of the message is OFFER. -/
def isOffer : OptItem → Bool
  | pad => false
  | option tag data => tag = DHCP_OPT_MSG_TYPE ∧ data.getD 0 0 = DHCP_OFFER

/-- What an item of a message with the address `yiaddr` tells the client. -/
def apply (yiaddr : BitVec 32) (d : Working) : OptItem → Working
  | pad => d
  | option tag data =>
    if tag = DHCP_OPT_SUBNET_MASK then { d with dSubnetMask := be32 data }
    else if tag = DHCP_OPT_ROUTERS_ON_SNET then { d with dRouterAddr := be32 data }
    else if tag = DHCP_OPT_SRV_IDENTIFIER then { d with dDhcpServerAddr := be32 data }
    else if tag = DHCP_OPT_DNS_SRV then { d with dDnsAddr := dnsAddrs data }
    else if tag = DHCP_OPT_IP_ADDR_LEASE_TIME then { d with dLeaseTime := be32 data }
    else if tag = DHCP_OPT_T1_VALUE then { d with dRenewalTime := be32 data }
    else if tag = DHCP_OPT_T2_VALUE then { d with dRebindTime := be32 data }
    else if tag = DHCP_OPT_BROADCAST_ADDR then { d with dBroadcastAddr := be32 data }
    else if (option tag data).isOffer then { d with dOfferIpAddr := yiaddr }
    else d

end OptItem

/-- One option: the parser does what it says. -/
theorem parseOption_apply (hat : At (opt dh) (i + 2) l) (hlen : l.length = (opt dh (i + 1)).toNat)
    (hsized : (OptItem.option (opt dh i) l).Sized) :
    parseOption dh i d = (OptItem.option (opt dh i) l).apply (dhYiaddr dh) d ∧
      gotOffer dh i got = (got || (OptItem.option (opt dh i) l).isOffer) := by
  obtain ⟨hword, hdns, htype⟩ := hsized
  have hoffer : (opt dh i = DHCP_OPT_MSG_TYPE ∧ opt dh (i + 2) = DHCP_OFFER) ↔
      (opt dh i = DHCP_OPT_MSG_TYPE ∧ l.getD 0 0 = DHCP_OFFER) := by
    refine and_congr_right fun ht => ?_
    have h0 : opt dh (i + 2) = l.getD 0 0 := hat 0 (htype ht)
    rw [h0]
  have hread : ∀ t ∈ wordOptions, opt dh i = t → optWord dh (i + 2) = be32 l := fun t ht h =>
    hat.word (hword (h ▸ ht))
  have hserver : opt dh i = DHCP_OPT_DNS_SRV → dnsLoop dh i (opt dh (i + 1)).toNat = dnsAddrs l := fun h =>
    hlen ▸ hat.dns (hdns h)
  constructor
  · unfold parseOption OptItem.apply
    refine ite_congr rfl (fun h => by rw [hread _ (by decide) h]) fun _ => ?_
    refine ite_congr rfl (fun h => by rw [hread _ (by decide) h]) fun _ => ?_
    refine ite_congr rfl (fun h => by rw [hread _ (by decide) h]) fun _ => ?_
    refine ite_congr rfl (fun h => by rw [hserver h]) fun _ => ?_
    refine ite_congr rfl (fun h => by rw [hread _ (by decide) h]) fun _ => ?_
    refine ite_congr rfl (fun h => by rw [hread _ (by decide) h]) fun _ => ?_
    refine ite_congr rfl (fun h => by rw [hread _ (by decide) h]) fun _ => ?_
    refine ite_congr rfl (fun h => by rw [hread _ (by decide) h]) fun _ => ?_
    refine ite_congr (propext ?_) (fun _ => rfl) fun _ => rfl
    rw [hoffer, OptItem.isOffer, decide_eq_true_iff]
  · unfold gotOffer OptItem.isOffer
    rw [decide_eq_decide.mpr hoffer]

/-- The loop does what the items say that it reads. -/
theorem parseLoop_read (h : ∀ o ∈ readOptions dh fuel i, o.Sized) :
    parseLoop dh fuel i d got =
      ((readOptions dh fuel i).foldl (fun d o => o.apply (dhYiaddr dh) d) d,
        got || (readOptions dh fuel i).any OptItem.isOffer) := by
  induction fuel generalizing i d got with
  | zero => simp [readOptions, parseLoop]
  | succ fuel ih =>
    unfold readOptions at h ⊢
    unfold parseLoop
    split
    · rename_i hlt
      rw [if_pos hlt] at h
      split
      · rename_i hpad
        rw [if_pos hpad] at h
        exact ih fun o ho => h o (List.mem_cons_of_mem _ ho)
      · rename_i hpad
        rw [if_neg hpad] at h
        split
        · simp
        · rename_i hend
          rw [if_neg hend] at h
          have hat : At (opt dh) (i + 2)
              ((List.range (opt dh (i + 1)).toNat).map fun k => opt dh (i + 2 + k)) := by
            intro k hk
            rw [List.getD_eq_getElem _ _ hk, List.getElem_map, List.getElem_range]
          obtain ⟨h1, h2⟩ := @parseOption_apply dh d got i _ hat (by simp) (h _ List.mem_cons_self)
          rw [h1, h2, ih fun o ho => h o (List.mem_cons_of_mem _ ho), List.foldl_cons, List.any_cons,
            Bool.or_assoc]
    · simp

/-- **`dhcp_parse_offer` and the OFFER.**  The parser sets the fields as the items say. -/
theorem parse_encode (dh : Nat → UInt8) (d : Working) (os : List OptItem)
    (hat : At (opt dh) 4 (encodeOptions os)) (hfits : ∀ o ∈ os, o.Fits) (hsized : ∀ o ∈ os, o.Sized)
    (hlen : (encodeOptions os).length ≤ DHCP_OPTIONS_SIZE - 4) :
    dhcpParseOffer dh d = (os.foldl (fun d o => o.apply (dhYiaddr dh) d) d, os.any OptItem.isOffer) := by
  have hcount := length_encodeOptions os
  have hread : readOptions dh DHCP_OPTIONS_SIZE 4 = os :=
    readOptions_encode hfits hat (by unfold DHCP_OPTIONS_SIZE at hlen ⊢; omega) (by omega)
  unfold dhcpParseOffer
  rw [parseLoop_read (hread ▸ hsized), hread, Bool.false_or]

/-- An OFFER of 192.168.0.10 for an hour, with padding and an option the client does not know. -/
def hourItems : List OptItem :=
  [.option DHCP_OPT_MSG_TYPE [DHCP_OFFER], .option 12 [104, 111, 115, 116], .pad,
    .option DHCP_OPT_SRV_IDENTIFIER (bytes32 0xC0A80001),
    .option DHCP_OPT_IP_ADDR_LEASE_TIME (bytes32 3600),
    .option DHCP_OPT_DNS_SRV (bytes32 0xC0A80001 ++ bytes32 0xC0A80002 ++ bytes32 0xC0A80003)]

def hourMessage (i : Nat) : UInt8 :=
  (List.replicate 16 0 ++ bytes32 0xC0A8000A ++ List.replicate 220 0 ++ encodeOptions hourItems).getD i 0

example : hourItems.foldl (fun d o => o.apply 0xC0A8000A d) {} =
    { dOfferIpAddr := 0xC0A8000A, dDhcpServerAddr := 0xC0A80001, dLeaseTime := 3600,
      dDnsAddr := [0xC0A80001, 0xC0A80002] } := by decide

theorem parse_encode_hour : dhcpParseOffer hourMessage {} =
    (hourItems.foldl (fun d o => o.apply (dhYiaddr hourMessage) d) {}, hourItems.any OptItem.isOffer) :=
  parse_encode hourMessage {} hourItems (by unfold At; decide) (by decide) (by decide) (by decide)

end TnNet.Dhcp
