import Mathlib.Data.List.Permutation
import TnNet.Ip.ReasmInv

/-!
# Reassembly inverts fragmentation

A datagram that was cut into as many fragments as `ip4_reasm` accepts comes back whole exactly when its
first fragment arrives first (`reasm_whole_iff`).  The scan for holes does not look where the list
begins, so a last fragment that comes first is returned alone.  `reasm_inverts` adds what holds for
fragments of any kind: as long as the first one of every datagram has offset 0, a chain is returned
only when the fragments held cover the datagram.
-/

set_option autoImplicit false

namespace TnNet.Ip

open Bytes

variable {re : ReasmEntry} {l l' : ReasmList} {obs : List Obs} {mb : Mb} {key : Key}

/-! ## What is returned -/

def Obs.chains : Obs → List (List Mb)
  | .returned _ chain => [chain]
  | _ => []

/-- The chains returned. -/
def returns (obs : List Obs) : List (List Mb) := obs.flatMap Obs.chains

theorem returns_append (obs obs' : List Obs) : returns (obs ++ obs') = returns obs ++ returns obs' :=
  List.flatMap_append

theorem returns_eq_nil (h : ∀ o ∈ obs, ∀ held chain, o ≠ .returned held chain) : returns obs = [] := by
  unfold returns
  rw [List.flatMap_eq_nil_iff]
  intro o ho
  cases o with
  | returned held chain => exact absurd rfl (h _ ho held chain)
  | _ => rfl

/-- The entry a call works on. -/
def entryOf (l : ReasmList) (key : Key) : ReasmEntry :=
  (pickEntry l key).1.getD (pickEntry l key).2.2 default

theorem returns_ip4Reasm (hl : l ≠ []) (mb : Mb) (alloc : Option Nat) :
    returns (ip4Reasm l mb alloc).2 = returns (queueFrag (entryOf l mb.key) mb alloc).2 := by
  unfold ip4Reasm
  dsimp only
  rw [returns_append, returns_eq_nil (pickEntry_ok hl mb.key).freed, List.nil_append]
  rfl

/-- The flags of a fragment. -/
theorem newFrag_flags (addr : Nat) (mb : Mb) :
    (newFrag addr mb).flags &&& IP_MF = mb.ipOff &&& IP_MF := by
  show (mb.ipOff &&& (0xffff - IP_OFFMASK)) &&& IP_MF = mb.ipOff &&& IP_MF
  rw [Nat.and_assoc]
  rfl

theorem stripPrev_flags {prev : Option FragEntry} {new new' : FragEntry}
    (h : stripPrev prev new = some new') : new'.flags = new.flags := by
  unfold stripPrev at h
  split at h
  · cases h
    rfl
  · dsimp only at h
    split at h
    · split at h
      · cases h
      · cases h
        rfl
    · cases h
      rfl

/-- The fragments held cover `[0, L)`: the first one begins at 0, every other one where the one in
    front of it ends, and the last one has no `MF`. -/
structure Covers (held : List FragEntry) : Prop where
  first : ∃ head ∈ held.head?, head.offset = 0
  chained : held.IsChain fun frag next => next.offset = frag.last
  ranges : ∀ frag ∈ held, FragOk frag
  last : ∀ frag ∈ held.getLast?, frag.flags &&& IP_MF = 0

/-! ## The first fragment first -/

/-- The list of an entry begins with the first fragment. -/
structure FirstOk (re : ReasmEntry) : Prop where
  head : ∀ head ∈ re.fragList.head?, head.offset = 0 ∧ head.flags &&& IP_MF ≠ 0 ∧ FragOk head
  count : re.fragList.length ≤ re.nfrag

theorem FirstOk.of_nil (h : re.fragList = []) : FirstOk re := by
  refine ⟨fun head hh => ?_, ?_⟩
  · rw [h] at hh
    cases hh
  · rw [h]
    exact Nat.zero_le _

/-- A call whose list is empty or begins with the first fragment: the fragment is dropped, or it is put
    behind the list. -/
theorem queueFrag_eq (frag : Fragment) (addr : Nat) (h : FirstOk re)
    (hn : re.nfrag < IP4_MAX_REASM_FRAGMENTS) :
    queueFrag re frag.toMb (some addr) =
      match (cutHeader (newFrag addr frag.toMb) frag.iphlen).bind (stripPrev re.fragList.getLast?) with
      | none => ({ re with nfrag := re.nfrag + 1 },
          [.allocFrag addr, .freeMbuf frag.addr, .freeFrag addr])
      | some new =>
        ((checkComplete { re with nfrag := re.nfrag + 1, fragList := re.fragList ++ [new] }).1,
          .allocFrag addr ::
            (checkComplete { re with nfrag := re.nfrag + 1, fragList := re.fragList ++ [new] }).2) := by
  have hcount := h.count
  have hn' : re.nfrag ≤ 1 := by
    simp only [IP4_MAX_REASM_FRAGMENTS] at hn
    omega
  have hbehind : ¬HeadBehind re.fragList (newFrag addr frag.toMb).offset := by
    rintro ⟨head, hm, hlt⟩
    have h0 := (h.head head hm).1
    have hnat : (newFrag addr frag.toMb).offset = (frag.offset : Int) := rfl
    omega
  have hsplit := splitFrags_single hbehind (by omega)
  have htrim : trimFrag re.fragList [] (newFrag addr frag.toMb) frag.iphlen =
      (cutHeader (newFrag addr frag.toMb) frag.iphlen).bind (stripPrev re.fragList.getLast?) :=
    Option.bind_fun_some _
  have hlink : ∀ new, linkFrag re.fragList [] new = re.fragList ++ [new] :=
    fun new => linkFrag_of_before fun _ => rfl
  unfold queueFrag
  dsimp only
  rw [if_neg (by omega), hsplit]
  dsimp only
  rw [htrim]
  cases (cutHeader (newFrag addr frag.toMb) frag.iphlen).bind (stripPrev re.fragList.getLast?) with
  | none => rfl
  | some new =>
    dsimp only
    rw [hlink]

theorem scanFrags_pair (head new : FragEntry) :
    scanFrags none [head, new] = if new.offset ≠ head.last then none else some new := by
  simp [scanFrags]

theorem checkComplete_of_mf {re : ReasmEntry}
    (h : ∀ last, scanFrags none re.fragList = some last → last.flags &&& IP_MF ≠ 0) :
    checkComplete re = (re, []) := by
  unfold checkComplete
  split
  · rfl
  · rename_i last hs
    rw [if_neg (h last hs)]

/-- What a fragment owes to an entry without a list. -/
def BeginsAt0 (re : ReasmEntry) (mb : Mb) : Prop := re.fragList = [] → mb.offset = 0

theorem MF_of_offset (frag : Fragment) (h : frag.offset = 0) : frag.ipOff &&& IP_MF ≠ 0 :=
  frag.frag.resolve_right fun hc => hc h

/-- Two fragments: they are the datagram, or they are kept. -/
theorem checkComplete_pair {head new : FragEntry} (h : FirstOk re) (hl : re.fragList = [head, new])
    (hnew : new.flags &&& IP_MF = 0 → FragOk new) :
    FirstOk (checkComplete re).1 ∧ ∀ held chain, .returned held chain ∈ (checkComplete re).2 →
      Covers held ∧ chain = finishChain (held.map FragEntry.mb) := by
  have hhead := h.head head (by rw [hl]; rfl)
  unfold checkComplete
  rw [hl, scanFrags_pair]
  by_cases hhole : new.offset ≠ head.last
  · rw [if_pos hhole]
    exact ⟨h, fun held chain hm => by simp at hm⟩
  rw [if_neg hhole]
  dsimp only
  by_cases hmf : new.flags &&& IP_MF = 0
  swap
  · rw [if_neg hmf]
    exact ⟨h, fun held chain hm => by simp at hm⟩
  rw [if_pos hmf]
  refine ⟨.of_nil rfl, fun held chain hm => ?_⟩
  simp only [List.map_cons, List.map_nil, List.mem_cons, List.mem_append, List.not_mem_nil,
    or_false, reduceCtorEq, false_or, Obs.returned.injEq] at hm
  obtain ⟨rfl, rfl⟩ := hm
  refine ⟨⟨⟨head, rfl, hhead.1⟩, ?_, ?_, ?_⟩, rfl⟩
  · simpa using not_not.mp hhole
  · intro f hf
    simp only [List.mem_cons, List.not_mem_nil, or_false] at hf
    rcases hf with rfl | rfl
    · exact hhead.2.2
    · exact hnew hmf
  · intro f hf
    cases hf
    exact hmf

/-- **One fragment**: the list still begins with the first fragment, and what is returned covers the
    datagram. -/
theorem queueFrag_first (frag : Fragment) (alloc : Option Nat) (h : FirstOk re)
    (h0 : BeginsAt0 re frag.toMb) :
    FirstOk (queueFrag re frag.toMb alloc).1 ∧
      ∀ held chain, .returned held chain ∈ (queueFrag re frag.toMb alloc).2 →
        Covers held ∧ chain = finishChain (held.map FragEntry.mb) := by
  have hsame : FirstOk { re with nfrag := re.nfrag + 1 } := ⟨h.head, Nat.le_succ_of_le h.count⟩
  by_cases hn : re.nfrag < IP4_MAX_REASM_FRAGMENTS
  swap
  · unfold queueFrag
    dsimp only
    rw [if_pos (by omega)]
    refine ⟨.of_nil rfl, fun held chain hm => ?_⟩
    rcases List.mem_append.mp hm with hm | hm
    · exact absurd rfl (ipFreef_not_returned _ _ hm held chain)
    · simp at hm
  cases alloc with
  | none =>
    unfold queueFrag
    dsimp only
    rw [if_neg (by omega)]
    exact ⟨hsame, fun held chain hm => by simp at hm⟩
  | some addr =>
    rw [queueFrag_eq frag addr h hn]
    split
    · exact ⟨hsame, fun held chain hm => by simp at hm⟩
    rename_i new hbind
    obtain ⟨x, hx, hnew⟩ := Option.bind_eq_some_iff.mp hbind
    obtain ⟨hxok, hxo, hxf, -⟩ := cutHeader_ok frag hx
    have hflags : new.flags &&& IP_MF = frag.ipOff &&& IP_MF := by
      rw [stripPrev_flags hnew, hxf]
      exact newFrag_flags addr frag.toMb
    have hcount := h.count
    have hn' : re.nfrag ≤ 1 := by
      simp only [IP4_MAX_REASM_FRAGMENTS] at hn
      omega
    rcases hl : re.fragList with _ | ⟨head, _ | ⟨second, rest⟩⟩
    case nil =>
      -- the first fragment: it has `MF`
      rw [hl] at hnew
      cases hnew
      have hz : frag.offset = 0 := h0 hl
      have hmf := MF_of_offset frag hz
      rw [checkComplete_of_mf]
      · refine ⟨⟨fun head hh => ?_, ?_⟩, fun held chain hm => by simp at hm⟩
        · cases hh
          rw [hflags]
          exact ⟨by rw [hxo, hz]; rfl, hmf, hxok⟩
        · simp
      · intro last hs
        cases hs
        rw [hflags]
        exact hmf
    case cons.nil =>
      rw [hl] at hnew
      have hhead := h.head head (by rw [hl]; rfl)
      have hfirst : FirstOk { re with nfrag := re.nfrag + 1, fragList := [head] ++ [new] } := by
        refine ⟨fun x hxx => ?_, ?_⟩
        · cases hxx
          exact hhead
        · rw [hl] at hcount
          simpa using hcount
      -- a fragment without `MF` does not begin at 0
      have hok : new.flags &&& IP_MF = 0 → FragOk new := by
        intro hmf
        have hpos : 0 < x.offset := by
          by_contra hc
          have hz : frag.offset = 0 := by omega
          exact MF_of_offset frag hz (hflags.symm.trans hmf)
        exact (stripPrev_ok hxok hpos hnew).1
      obtain ⟨h1, h2⟩ := checkComplete_pair hfirst rfl hok
      exact ⟨h1, fun held chain hm => h2 held chain ((List.mem_cons.mp hm).resolve_left (by simp))⟩
    case cons.cons =>
      rw [hl] at hcount
      simp at hcount
      omega

/-- A fragment of a datagram of which nothing is held begins at 0. -/
def ReasmFirst (l : ReasmList) : Event → Prop
  | .reasm frag _ => (∀ re ∈ l, re.fragList ≠ [] → re.key ≠ frag.key) → frag.offset = 0
  | .slowtimo _ => True

theorem Picked.beginsAt0 {frag : Fragment} {alloc : Option Nat} (hp : Picked l frag.key re)
    (h : ReasmFirst l (.reasm frag alloc)) : BeginsAt0 re frag.toMb := by
  intro hnil
  rcases hp with ⟨-, hne, -⟩ | ⟨-, -, -, hnone⟩
  · exact absurd hnil hne
  · exact h hnone

/-- The invariant of such a run. -/
structure FirstInv (l : ReasmList) : Prop where
  length : l.length = IP4_REASM_PACKETS
  entries : ∀ re ∈ l, FirstOk re

theorem FirstInv.start : FirstInv reasmStart := by
  refine ⟨rfl, fun re hre => ?_⟩
  rw [List.eq_of_mem_replicate hre]
  exact .of_nil rfl

/-- What is seen of a returned chain. -/
def Obs.whole : Obs → Prop
  | .returned held chain => Covers held ∧ chain = finishChain (held.map FragEntry.mb)
  | _ => True

theorem Obs.whole_of_not_returned {o : Obs} (h : ∀ held chain, o ≠ .returned held chain) : o.whole := by
  cases o with
  | returned held chain => exact absurd rfl (h held chain)
  | _ => trivial

theorem slowtimoEntry_not_returned (re : ReasmEntry) :
    ∀ o ∈ (slowtimoEntry re).2, ∀ held chain, o ≠ .returned held chain := by
  unfold slowtimoEntry
  split
  · dsimp only
    split
    · exact ipFreef_not_returned _
    · simp
  · simp

theorem slowtimoEntry_first (h : FirstOk re) : FirstOk (slowtimoEntry re).1 := by
  unfold slowtimoEntry
  split
  · dsimp only
    split
    · exact .of_nil rfl
    · exact ⟨h.head, h.count⟩
  · exact h

theorem ipSlowtimo_not_returned (l : ReasmList) (cnt : Int) :
    ∀ o ∈ (ipSlowtimo l cnt).2, ∀ held chain, o ≠ .returned held chain := by
  unfold ipSlowtimo
  split
  · intro o ho
    obtain ⟨re, -, h⟩ := List.mem_flatMap.mp ho
    exact slowtimoEntry_not_returned re o h
  · simp

theorem FirstInv.step {ev : Event} (h : FirstInv l) (hf : ReasmFirst l ev) :
    (∀ l', (reasmMachine l ev).1 = some l' → FirstInv l') ∧ ∀ o ∈ (reasmMachine l ev).2, o.whole := by
  have hl := ne_nil_of_length h.length
  cases ev with
  | reasm frag alloc =>
    have hp := pickEntry_ok hl frag.key
    have hentry : FirstOk (entryOf l frag.key) := by
      rcases hp.others _ (getD_mem hp.lt) with hm | hm
      · exact h.entries _ hm
      · exact .of_nil hm
    constructor
    · intro l' hl'
      cases hl'
      refine ⟨(ip4Reasm_length hl _ _).trans h.length, ?_⟩
      refine ip4Reasm_forall hl (fun _ => .of_nil) (fun re hre hre' => ?_) h.entries
      exact (queueFrag_first frag alloc hre' (hre.beginsAt0 hf)).1
    · intro o ho
      rcases List.mem_cons.mp ho with rfl | ho
      · trivial
      rcases List.mem_append.mp ho with ho | ho
      · exact Obs.whole_of_not_returned (hp.freed o ho)
      · cases o with
        | returned held chain =>
          exact (queueFrag_first frag alloc hentry (hp.picked.beginsAt0 hf)).2 held chain ho
        | _ => trivial
  | slowtimo cnt =>
    constructor
    · intro l' hl'
      cases hl'
      exact ⟨(ipSlowtimo_length l cnt).trans h.length,
        ipSlowtimo_forall (fun _ => slowtimoEntry_first) h.entries cnt⟩
    · exact fun o ho => Obs.whole_of_not_returned (ipSlowtimo_not_returned l cnt o ho)

/-! ## A datagram and its fragments -/

/-- The bytes of a chain. -/
def bytesOf (chain : List Mb) : List UInt8 := chain.flatMap Mb.mData

/-- The fragments of a payload from an offset on: one behind the other, `MF` on all but the last. -/
def CutFrom (key : Key) : Nat → List UInt8 → List Fragment → Prop
  | _, _, [] => False
  | offset, payload, [frag] => frag.key = key ∧ frag.offset = offset ∧ frag.ipOff &&& IP_MF = 0 ∧
      payload ≠ [] ∧ frag.payload = payload
  | offset, payload, frag :: next :: l => frag.key = key ∧ frag.offset = offset ∧
      frag.ipOff &&& IP_MF ≠ 0 ∧ ∃ rest, payload = frag.payload ++ rest ∧
        CutFrom key (offset + frag.payload.length) rest (next :: l)

/-- The fragments of a datagram, whose length fits in `ip_len`. -/
structure Cut (key : Key) (payload : List UInt8) (frags : List Fragment) : Prop where
  pieces : CutFrom key 0 payload frags
  size : ∀ first ∈ frags.head?, first.iphlen + payload.length < 65536

/-- The datagram: the header of the first fragment with `ip_len` and `ip_off` of the whole, then the
    payload; `m_tlen` is the length of the chain. -/
structure Whole (first : Fragment) (payload : List UInt8) (chain : List Mb) : Prop where
  bytes : bytesOf chain =
    setBe16 (setBe16 (first.mData.take first.iphlen) 2 (chainLen chain)) 6
      (first.ipOff &&& (IP_DF ||| IP_RF)) ++ payload
  len : be16 (bytesOf chain) 2 = chainLen chain
  off : be16 (bytesOf chain) 6 &&& (IP_MF ||| IP_OFFMASK) = 0
  tlen : ∃ mb ∈ chain.head?, mb.mTlen.toNat = chainLen chain

/-- The calls return nothing but for the last one, which returns such a chain. -/
def Reassembles (whole : List Mb → Prop) : ReasmList → List Event → Prop
  | _, [] => False
  | l, [ev] => ∃ chain, returns (reasmMachine l ev).2 = [chain] ∧ whole chain
  | l, ev :: ev' :: es => returns (reasmMachine l ev).2 = [] ∧
      ∀ l', (reasmMachine l ev).1 = some l' → Reassembles whole l' (ev' :: es)

theorem chainLen_eq (chain : List Mb) : chainLen chain = (bytesOf chain).length := by
  induction chain with
  | nil => rfl
  | cons mb l ih =>
    unfold bytesOf at ih ⊢
    rw [List.flatMap_cons, List.length_append, ← ih]
    simp [chainLen, Mb.mLen]

theorem returns_reasm (hl : l ≠ []) (frag : Fragment) (alloc : Option Nat) :
    returns (reasmMachine l (.reasm frag alloc)).2 =
      returns (queueFrag (entryOf l frag.key) frag.toMb alloc).2 := by
  rw [← returns_ip4Reasm hl]
  rfl

/-- Nothing is held of a datagram. -/
def NoneHeld (l : ReasmList) (key : Key) : Prop := ∀ re ∈ l, re.fragList ≠ [] → re.key ≠ key

theorem NoneHeld.entry (h : NoneHeld l key) (hl : l ≠ []) :
    (entryOf l key).fragList = [] ∧ (entryOf l key).key = key ∧ (entryOf l key).nfrag = 0 := by
  rcases (pickEntry_ok hl key).picked with ⟨hm, hne, hkey⟩ | ⟨h1, h2, h3, -⟩
  · exact absurd hkey (h _ hm hne)
  · exact ⟨h1, h2, h3⟩

/-- The first fragment of a datagram is held behind the call. -/
theorem NoneHeld.first (h : NoneHeld l key) (hl : l ≠ []) (frag : Fragment)
    (h0 : frag.offset = 0) (addr : Nat) :
    queueFrag (entryOf l key) frag.toMb (some addr) =
      ({ entryOf l key with nfrag := 1, fragList := [newFrag addr frag.toMb] }, [.allocFrag addr]) := by
  obtain ⟨hnil, -, hn⟩ := h.entry hl
  have hcut : cutHeader (newFrag addr frag.toMb) frag.iphlen = some (newFrag addr frag.toMb) := by
    unfold cutHeader
    rw [if_neg]
    exact not_not.mpr (congrArg Int.ofNat h0)
  have hmf : ∀ last, scanFrags none [newFrag addr frag.toMb] = some last →
      last.flags &&& IP_MF ≠ 0 := by
    intro last hs
    cases hs
    rw [newFrag_flags]
    exact MF_of_offset frag h0
  rw [queueFrag_eq frag addr (.of_nil hnil) (by rw [hn]; decide), hcut, hnil, hn]
  have hc : checkComplete { entryOf l key with
      nfrag := 0 + 1, fragList := [] ++ [newFrag addr frag.toMb] } = _ := checkComplete_of_mf hmf
  show ((checkComplete { entryOf l key with
    nfrag := 0 + 1, fragList := [] ++ [newFrag addr frag.toMb] }).1, _ :: (checkComplete _).2) = _
  rw [hc]
  rfl

/-- The header of a fragment that is not the first one is cut. -/
theorem cutHeader_rest (frag : Fragment) (addr : Nat) (h0 : frag.offset ≠ 0)
    (hp : frag.payload ≠ []) :
    cutHeader (newFrag addr frag.toMb) frag.iphlen = some { newFrag addr frag.toMb with
      mb := { frag.toMb with mData := frag.payload } } := by
  have hlt : frag.iphlen < frag.mLen := by
    have := List.length_pos_iff.mpr hp
    simp only [Mb.payload, List.length_drop] at this
    unfold Mb.mLen
    omega
  unfold cutHeader
  rw [if_pos, if_neg]
  · rfl
  · exact Nat.not_le.mpr hlt
  · show ((frag.offset : Nat) : Int) ≠ 0
    omega

/-- A last fragment that comes first is returned. -/
theorem NoneHeld.last (h : NoneHeld l key) (hl : l ≠ []) (frag : Fragment)
    (h0 : frag.offset ≠ 0) (hp : frag.payload ≠ []) (hmf : frag.ipOff &&& IP_MF = 0) (addr : Nat) :
    returns (queueFrag (entryOf l key) frag.toMb (some addr)).2 ≠ [] := by
  obtain ⟨hnil, -, hn⟩ := h.entry hl
  rw [queueFrag_eq frag addr (.of_nil hnil) (by rw [hn]; decide), cutHeader_rest frag addr h0 hp, hnil]
  have hflags : (newFrag addr frag.toMb).flags &&& IP_MF = 0 := (newFrag_flags _ _).trans hmf
  simp [stripPrev, checkComplete, scanFrags, hflags, returns, Obs.chains]

/-- The entry a call has filled is the entry of the next call for the datagram. -/
theorem NoneHeld.next (h : NoneHeld l mb.key) (hl : l ≠ []) {alloc : Option Nat}
    (hre : (queueFrag (entryOf l mb.key) mb alloc).1 = re) (hne : re.fragList ≠ [])
    (hkey : re.key = mb.key) : entryOf (ip4Reasm l mb alloc).1 mb.key = re := by
  have hp := pickEntry_ok hl mb.key
  have hl' : (ip4Reasm l mb alloc).1 ≠ [] :=
    List.length_pos_iff.mp (by rw [ip4Reasm_length hl]; exact List.length_pos_iff.mpr hl)
  have hset : (ip4Reasm l mb alloc).1 = (pickEntry l mb.key).1.set (pickEntry l mb.key).2.2 re := by
    rw [← hre]
    rfl
  have hmem : re ∈ (ip4Reasm l mb alloc).1 := by
    rw [hset]
    exact List.mem_set hp.lt re
  have huniq : ∀ x ∈ (ip4Reasm l mb alloc).1, x.fragList ≠ [] → x.key = mb.key → x = re := by
    intro x hx hxne hxkey
    rw [hset] at hx
    rcases List.mem_or_eq_of_mem_set hx with hm | hm
    · rcases hp.others x hm with hc | hc
      · exact absurd hxkey (h x hc hxne)
      · exact absurd hc hxne
    · exact hm
  rcases (pickEntry_ok hl' mb.key).picked with ⟨h1, h2, h3⟩ | ⟨-, -, -, hnone⟩
  · exact huniq _ h1 h2 h3
  · exact absurd hkey (hnone re hmem hne)

/-- The second fragment completes the datagram. -/
theorem second_completes (f g : Fragment) (a b : Nat) (hf : f.offset = 0)
    (hg : g.offset = f.payload.length) (hmf : g.ipOff &&& IP_MF = 0) (hp : g.payload ≠ [])
    (hn : re.nfrag = 1) (hre : re.fragList = [newFrag a f.toMb]) :
    returns (queueFrag re g.toMb (some b)).2 =
      [finishChain [f.toMb, { g.toMb with mData := g.payload }]] := by
  have hcut : cutHeader (newFrag a f.toMb) f.iphlen = some (newFrag a f.toMb) := by
    unfold cutHeader
    rw [if_neg]
    exact not_not.mpr (congrArg Int.ofNat hf)
  have hhead := (cutHeader_ok f hcut).1
  have hpay : f.payload.length = f.mLen - f.iphlen := by
    simp [Mb.payload, Mb.mLen]
  have hlen := f.len
  have hfits := f.fits
  have hpos := (f.mult (MF_of_offset f hf)).1
  have hlast : (newFrag a f.toMb).last = (g.offset : Int) := by
    simp only [newFrag]
    omega
  have hok : FirstOk re := by
    refine ⟨fun head hh => ?_, by simp [hre, hn]⟩
    rw [hre] at hh
    cases hh
    refine ⟨congrArg Int.ofNat hf, ?_, hhead⟩
    rw [newFrag_flags]
    exact MF_of_offset f hf
  have hstrip : stripPrev (some (newFrag a f.toMb)) { newFrag b g.toMb with
      mb := { g.toMb with mData := g.payload } } = some { newFrag b g.toMb with
      mb := { g.toMb with mData := g.payload } } := by
    have hz : ¬0 < (newFrag a f.toMb).last - (newFrag b g.toMb).offset := by
      have hgo : (newFrag b g.toMb).offset = (g.offset : Int) := rfl
      omega
    unfold stripPrev
    dsimp only
    rw [if_neg hz]
  have hflags : (newFrag b g.toMb).flags &&& IP_MF = 0 := (newFrag_flags _ _).trans hmf
  rw [queueFrag_eq g b hok (by rw [hn]; decide), cutHeader_rest g b (by omega) hp, hre,
    List.getLast?_singleton, Option.bind_some, hstrip]
  dsimp only
  have hnew : ({ newFrag b g.toMb with mb := { g.toMb with mData := g.payload } } :
      FragEntry).offset = (newFrag a f.toMb).last := hlast.symm
  unfold checkComplete
  rw [List.singleton_append, scanFrags_pair, if_neg (not_not.mpr hnew)]
  dsimp only
  rw [if_pos hflags]
  rfl

theorem finishChain_whole (f : Fragment) (g : Mb)
    (hsize : f.iphlen + (f.payload ++ g.mData).length < 65536) :
    Whole f (f.payload ++ g.mData) (finishChain [f.toMb, g]) := by
  have hhdr := f.hdr
  have hfits := f.fits
  have hsplit : f.mData = f.mData.take f.iphlen ++ f.payload := (List.take_append_drop _ _).symm
  have htake : (f.mData.take f.iphlen).length = f.iphlen := by
    rw [List.length_take]
    exact Nat.min_eq_left hfits
  have hlen : chainLen [f.toMb, g] = f.iphlen + (f.payload ++ g.mData).length := by
    rw [chainLen_eq]
    simp only [bytesOf, List.flatMap_cons, List.flatMap_nil, List.append_nil, List.length_append]
    have : f.mData.length = f.iphlen + f.payload.length := by
      conv_lhs => rw [hsplit, List.length_append, htake]
    omega
  have hlen' : chainLen (finishChain [f.toMb, g]) = chainLen [f.toMb, g] := by
    simp [finishChain, updateHeader, chainLen, Mb.mLen]
  have hoff : be16 (setBe16 f.mData 2 (chainLen [f.toMb, g])) 6 = f.ipOff :=
    be16_setBe16_of_ne (by omega) _
  have hbytes : bytesOf (finishChain [f.toMb, g]) =
      setBe16 (setBe16 (f.mData.take f.iphlen) 2 (chainLen [f.toMb, g])) 6
        (f.ipOff &&& (IP_DF ||| IP_RF)) ++ (f.payload ++ g.mData) := by
    simp only [bytesOf, finishChain, updateHeader, List.flatMap_cons, List.flatMap_nil,
      List.append_nil, hoff]
    conv_lhs => rw [hsplit]
    rw [setBe16_append (by omega), setBe16_append (by rw [length_setBe16]; omega), List.append_assoc]
  have h6 : be16 (bytesOf (finishChain [f.toMb, g])) 6 = (f.ipOff &&& (IP_DF ||| IP_RF)) % 65536 := by
    rw [hbytes, be16_append (by simp only [length_setBe16]; omega),
      be16_setBe16 (by rw [length_setBe16]; omega)]
  constructor
  case bytes => rw [hlen', hbytes]
  case len =>
    rw [hbytes, be16_append (by simp only [length_setBe16]; omega), be16_setBe16_of_ne (by omega),
      be16_setBe16 (by omega), hlen', hlen]
    exact Nat.mod_eq_of_lt hsize
  case off =>
    have hlt : f.ipOff &&& (IP_DF ||| IP_RF) < 65536 :=
      Nat.lt_of_le_of_lt Nat.and_le_left (be16_lt _ _)
    rw [h6, Nat.mod_eq_of_lt hlt, Nat.and_assoc]
    exact Nat.and_zero _
  case tlen =>
    refine ⟨_, rfl, ?_⟩
    rw [hlen']
    simp only [updateHeader, BitVec.toNat_ofNat]
    exact Nat.mod_eq_of_lt (by omega)

/-- The calls for the fragments in their order of arrival, with the blocks allocated for them. -/
def arrivals (arr : List (Fragment × Nat)) : List Event :=
  arr.map fun x => .reasm x.1 (some x.2)

/-- A datagram of two fragments that arrive in order. -/
theorem reassembles_in_order (hl : l ≠ []) (h : NoneHeld l key) {f g : Fragment} {payload : List UInt8}
    (hcut : Cut key payload [f, g]) (a b : Nat) :
    Reassembles (Whole f payload) l (arrivals [(f, a), (g, b)]) := by
  obtain ⟨⟨hk, hf, -, rest, rfl, hk', hg, hmf, hne, rfl⟩, hsize⟩ := hcut
  rw [Nat.zero_add] at hg
  have hq := h.first hl f hf a
  subst hk
  refine ⟨?_, fun l' hl' => ?_⟩
  · rw [returns_reasm hl, hq]
    rfl
  · cases hl'
    have hre := h.next hl (congrArg Prod.fst hq) (by simp) (h.entry hl).2.1
    have hl1 : (ip4Reasm l f.toMb (some a)).1 ≠ [] :=
      List.length_pos_iff.mp (by rw [ip4Reasm_length hl]; exact List.length_pos_iff.mpr hl)
    refine ⟨finishChain [f.toMb, { g.toMb with mData := g.payload }], ?_, ?_⟩
    · rw [returns_reasm hl1, hk', hre]
      exact second_completes f g a b hf hg hmf hne rfl rfl
    · exact finishChain_whole f { g.toMb with mData := g.payload } (hsize f rfl)

/-- **In order, and only in order.** -/
theorem reasm_whole_iff (hl : l ≠ []) (h : NoneHeld l key) {payload : List UInt8}
    {frags : List Fragment} {first : Fragment} (hcut : Cut key payload frags)
    (hn : frags.length ≤ IP4_MAX_REASM_FRAGMENTS) (hfirst : frags.head? = some first)
    {arr : List (Fragment × Nat)} (hp : (arr.map Prod.fst).Perm frags) :
    Reassembles (Whole first payload) l (arrivals arr) ↔ ∀ x ∈ arr.head?, x.1.offset = 0 := by
  rcases frags with _ | ⟨f, _ | ⟨g, _ | ⟨_, _⟩⟩⟩
  · cases hfirst
  · -- a fragment with offset 0 has `MF`
    obtain ⟨-, hf, hmf, -⟩ := hcut.pieces
    exact absurd hmf (MF_of_offset f hf)
  · have hf0 : f = first := Option.some.inj hfirst
    subst hf0
    have harr : ∃ a b, arr = [(f, a), (g, b)] ∨ arr = [(g, a), (f, b)] := by
      rcases List.perm_pair.mp hp with hc | hc
      · rcases arr with _ | ⟨⟨x, a⟩, _ | ⟨⟨y, b⟩, _ | _⟩⟩ <;>
          simp only [List.map_cons, List.map_nil, List.cons.injEq, and_true, reduceCtorEq,
            and_false] at hc
        obtain ⟨rfl, rfl⟩ := hc
        exact ⟨a, b, .inl rfl⟩
      · rcases arr with _ | ⟨⟨x, a⟩, _ | ⟨⟨y, b⟩, _ | _⟩⟩ <;>
          simp only [List.map_cons, List.map_nil, List.cons.injEq, and_true, reduceCtorEq,
            and_false] at hc
        obtain ⟨rfl, rfl⟩ := hc
        exact ⟨a, b, .inr rfl⟩
    obtain ⟨a, b, rfl | rfl⟩ := harr
    · refine ⟨fun _ x hx => ?_, fun _ => reassembles_in_order hl h hcut a b⟩
      cases hx
      exact hcut.pieces.2.1
    · obtain ⟨⟨-, hf, hmf', rest, rfl, hk', hg, hmf, hne, rfl⟩, -⟩ := hcut
      have hpos := (f.mult hmf').1
      have hg0 : g.offset ≠ 0 := by omega
      constructor
      · rintro ⟨hnil, -⟩
        rw [returns_reasm hl, hk'] at hnil
        exact absurd hnil (h.last hl g hg0 hne hmf a)
      · intro hc
        exact absurd (hc _ rfl) hg0
  · simp [IP4_MAX_REASM_FRAGMENTS] at hn

/-! ## Runs -/

/-- A call for another datagram, or a tick. -/
def OtherDatagram (key : Key) : Event → Prop
  | .reasm frag _ => frag.key ≠ key
  | .slowtimo _ => True

theorem checkComplete_key (re : ReasmEntry) : (checkComplete re).1.key = re.key := by
  unfold checkComplete
  split
  · rfl
  split <;> rfl

theorem queueFrag_key (re : ReasmEntry) (mb : Mb) (alloc : Option Nat) :
    (queueFrag re mb alloc).1.key = re.key := by
  unfold queueFrag
  dsimp only
  split
  · rfl
  split
  · rfl
  split
  · rfl
  · exact checkComplete_key _

theorem Picked.key_eq (h : Picked l key re) : re.key = key := by
  rcases h with ⟨-, -, hk⟩ | ⟨-, hk, -⟩ <;> exact hk

/-- Other datagrams leave nothing of this one. -/
theorem noneHeld_run {pre : List Event} (hpre : ∀ ev ∈ pre, OtherDatagram key ev)
    (hl : (Machine.run reasmMachine (some reasmStart) pre).1 = some l) :
    l.length = IP4_REASM_PACKETS ∧ NoneHeld l key := by
  have hg : Machine.Guarded reasmMachine (fun _ ev => OtherDatagram key ev) (some reasmStart) pre :=
    Machine.guarded_of_forall hpre
  refine (Machine.run_invariant
    (fun l : ReasmList => l.length = IP4_REASM_PACKETS ∧ NoneHeld l key) (fun _ => True) ?_ ?_ hg).1 l hl
  · intro l ev ⟨hlen, hnone⟩ hev
    refine ⟨fun l' hl' => ?_, fun _ _ => trivial⟩
    have hne := ne_nil_of_length hlen
    cases ev with
    | reasm frag alloc =>
      cases hl'
      refine ⟨(ip4Reasm_length hne _ _).trans hlen, ?_⟩
      refine ip4Reasm_forall (P := fun re => re.fragList ≠ [] → re.key ≠ key) hne
        (fun re hnil hc => absurd hnil hc) (fun re hp _ _ => ?_) hnone
      rw [queueFrag_key, hp.key_eq]
      exact hev
    | slowtimo cnt =>
      cases hl'
      refine ⟨(ipSlowtimo_length l cnt).trans hlen, ?_⟩
      refine ipSlowtimo_forall (P := fun re => re.fragList ≠ [] → re.key ≠ key) (fun re hre => ?_)
        hnone cnt
      unfold slowtimoEntry
      split
      · dsimp only
        split
        · exact fun hc => absurd rfl hc
        · exact hre
      · exact hre
  · intro l hl
    cases hl
    refine ⟨rfl, fun re hre hc => ?_⟩
    rw [List.eq_of_mem_replicate hre] at hc
    exact absurd rfl hc

/-- **Reassembly inverts fragmentation when the first fragment comes first.**  A datagram cut into at
    most `IP4_MAX_REASM_FRAGMENTS` fragments, which come behind any calls for other datagrams, is
    returned whole by the call for the last one, and nothing is returned before, exactly when the first
    one to arrive has offset 0.  In every run in which that is so for every datagram, a returned chain
    is made of fragments that cover it from offset 0 to a fragment without `MF`. -/
theorem reasm_inverts (key : Key) (payload : List UInt8) (frags : List Fragment) (first : Fragment)
    (arr : List (Fragment × Nat)) (pre es : List Event) (l : ReasmList) :
    (Cut key payload frags → frags.length ≤ IP4_MAX_REASM_FRAGMENTS → frags.head? = some first →
      (arr.map Prod.fst).Perm frags → (∀ ev ∈ pre, OtherDatagram key ev) →
      (Machine.run reasmMachine (some reasmStart) pre).1 = some l →
      (Reassembles (Whole first payload) l (arrivals arr) ↔ ∀ x ∈ arr.head?, x.1.offset = 0)) ∧
    (Machine.Guarded reasmMachine ReasmFirst (some reasmStart) es →
      ∀ held chain, .returned held chain ∈ (Machine.run reasmMachine (some reasmStart) es).2 →
        Covers held ∧ chain = finishChain (held.map FragEntry.mb)) := by
  constructor
  · intro hcut hn hfirst hp hpre hl
    obtain ⟨hlen, hnone⟩ := noneHeld_run hpre hl
    exact reasm_whole_iff (ne_nil_of_length hlen) hnone hcut hn hfirst hp
  · intro hg held chain hm
    have h := Machine.run_invariant FirstInv Obs.whole (fun l ev h hf => h.step hf)
      (fun l hl => by cases hl; exact FirstInv.start) hg
    exact h.2 _ hm

/-- The datagram of `fragFirst` and `fragLast`. -/
theorem cut_two : Cut fragFirst.key [1, 2, 3, 4, 5, 6, 7, 8, 9, 10, 11] [fragFirst, fragLast] := by
  constructor
  · exact ⟨rfl, by decide, by decide, [9, 10, 11], by decide, by decide, by decide, by decide,
      by decide, by decide⟩
  · intro first hf
    cases hf
    decide

theorem reasm_inverts_two :
    Reassembles (Whole fragFirst [1, 2, 3, 4, 5, 6, 7, 8, 9, 10, 11]) reasmStart
      (arrivals [(fragFirst, 100), (fragLast, 101)]) :=
  ((reasm_inverts _ _ _ _ [(fragFirst, 100), (fragLast, 101)] [] [] reasmStart).1 cut_two (by decide)
    rfl (List.Perm.refl _) (by simp) rfl).mpr (by rintro x hx; cases hx; decide)

/-- The last fragment comes first: it is returned alone, without a header. -/
theorem last_fragment_returned_alone :
    ¬ ∀ (key : Key) (payload : List UInt8) (frags : List Fragment) (first : Fragment)
      (arr : List (Fragment × Nat)) (pre : List Event) (l : ReasmList),
      Cut key payload frags → frags.length ≤ IP4_MAX_REASM_FRAGMENTS → frags.head? = some first →
      (arr.map Prod.fst).Perm frags → (∀ ev ∈ pre, OtherDatagram key ev) →
      (Machine.run reasmMachine (some reasmStart) pre).1 = some l →
      Reassembles (Whole first payload) l (arrivals arr) := by
  intro h
  have hr := h _ _ _ _ [(fragLast, 100), (fragFirst, 101)] [] reasmStart cut_two (by decide) rfl
    (List.Perm.swap fragFirst fragLast []) (by simp) rfl
  have hnil := hr.1
  revert hnil
  decide +kernel

end TnNet.Ip
