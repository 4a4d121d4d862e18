import TnNet.Lib.Ledger
import TnNet.Ip.Reasm

/-!
# Reassembly conserves its buffers

Every mbuf passed to `ip4_reasm` and every `frag_entry` it allocates is in a fragment list, in a
returned chain (an mbuf) or back in its pool.  `reasm_conserves` has that for every run in which a
fragment of a datagram that has a list does not begin in front of it: `ip4_reasm` sets `frag_list` only
when it was `NULL`, so a new first fragment is neither linked nor freed.
-/

set_option autoImplicit false

namespace TnNet.Ip

open Bytes

variable {re re' : ReasmEntry} {l l' : ReasmList} {obs : List Obs} {mb : Mb} {a : Nat} {i : Nat}

/-! ## What happens to the buffers -/

def Obs.passedMbufs : Obs → List Nat
  | .passed mb => [mb]
  | _ => []

def Obs.freedMbufs : Obs → List Nat
  | .freeMbuf mb => [mb]
  | _ => []

def Obs.returnedMbufs : Obs → List Nat
  | .returned _ chain => chain.map Mb.addr
  | _ => []

def Obs.allocFrags : Obs → List Nat
  | .allocFrag frag => [frag]
  | _ => []

def Obs.freedFrags : Obs → List Nat
  | .freeFrag frag => [frag]
  | _ => []

/-- The mbufs of a fragment list. -/
def ReasmEntry.mbufs (re : ReasmEntry) : List Nat := re.fragList.map fun frag => frag.mb.addr

/-- The entries of a fragment list. -/
def ReasmEntry.frags (re : ReasmEntry) : List Nat := re.fragList.map FragEntry.addr

/-- The mbufs that leave the reassembly. -/
def Obs.goneMbufs (o : Obs) : List Nat := o.freedMbufs ++ o.returnedMbufs

/-- The mbufs `before` and then `after`, and the entries `bfrags` and then `afrags`, are held: every
    one is accounted for. -/
structure Balanced (before bfrags : List Nat) (obs : List Obs) (after afrags : List Nat) : Prop where
  mbufs : Ledger Obs.passedMbufs Obs.goneMbufs before obs after
  frags : Ledger Obs.allocFrags Obs.freedFrags bfrags obs afrags

theorem Balanced.refl (before bfrags : List Nat) : Balanced before bfrags [] before bfrags :=
  ⟨.refl _, .refl _⟩

theorem Balanced.trans {before bfrags mid mfrags after afrags : List Nat} {obs obs' : List Obs}
    (h : Balanced before bfrags obs mid mfrags) (h' : Balanced mid mfrags obs' after afrags) :
    Balanced before bfrags (obs ++ obs') after afrags :=
  ⟨h.mbufs.trans h'.mbufs, h.frags.trans h'.frags⟩

/-- Side by side. -/
theorem Balanced.append {b bf a af b' bf' a' af' : List Nat} {obs obs' : List Obs}
    (h : Balanced b bf obs a af) (h' : Balanced b' bf' obs' a' af') :
    Balanced (b ++ b') (bf ++ bf') (obs ++ obs') (a ++ a') (af ++ af') :=
  ⟨h.mbufs.append h'.mbufs, h.frags.append h'.frags⟩

/-- The order of the observations does not matter. -/
theorem Balanced.perm {b bf a af : List Nat} {obs obs' : List Obs} (h : Balanced b bf obs a af)
    (hp : obs.Perm obs') : Balanced b bf obs' a af :=
  ⟨h.mbufs.perm hp, h.frags.perm hp⟩

/-! ## One entry -/

theorem ipFreef_balanced (re : ReasmEntry) :
    Balanced re.mbufs re.frags (ipFreef re).2 [] [] := by
  unfold ReasmEntry.mbufs ReasmEntry.frags ipFreef
  induction re.fragList with
  | nil => exact .refl [] []
  | cons frag l ih =>
    have h : Balanced [frag.mb.addr] [frag.addr]
        [.freeMbuf frag.mb.addr, .freeFrag frag.addr] [] [] := by
      constructor <;> intro a <;> simp [Obs.goneMbufs, Obs.freedMbufs, Obs.returnedMbufs, Obs.freedFrags,
        Obs.allocFrags, Obs.passedMbufs]
    exact h.append ih

theorem slowtimoEntry_balanced (re : ReasmEntry) :
    Balanced re.mbufs re.frags (slowtimoEntry re).2 (slowtimoEntry re).1.mbufs
      (slowtimoEntry re).1.frags := by
  unfold slowtimoEntry
  split
  · dsimp only
    split
    · exact ipFreef_balanced _
    · exact .refl _ _
  · exact .refl _ _

theorem finishChain_addr (chain : List Mb) : (finishChain chain).map Mb.addr = chain.map Mb.addr := by
  cases chain <;> rfl

theorem count_flatMap_freeFrag (l : List FragEntry) (a : Nat) :
    ((l.map fun frag => Obs.freeFrag frag.addr).flatMap Obs.freedFrags).count a =
      (l.map FragEntry.addr).count a := by
  congr 1
  rw [List.flatMap_map]
  induction l with
  | nil => rfl
  | cons frag l ih => simpa [Obs.freedFrags] using ih

theorem flatMap_freeFrag_nil {f : Obs → List Nat} (hf : ∀ x, f (.freeFrag x) = [])
    (l : List FragEntry) : (l.map fun frag => Obs.freeFrag frag.addr).flatMap f = [] := by
  rw [List.flatMap_map]
  induction l with
  | nil => rfl
  | cons frag l ih => simp [hf]

/-- The return. -/
theorem checkComplete_balanced (re : ReasmEntry) :
    Balanced re.mbufs re.frags (checkComplete re).2 (checkComplete re).1.mbufs
      (checkComplete re).1.frags := by
  unfold checkComplete
  split
  · exact .refl _ _
  split
  · constructor
    · intro a
      rw [List.flatMap_append, List.flatMap_append, flatMap_freeFrag_nil (fun _ => rfl),
        flatMap_freeFrag_nil (fun _ => rfl)]
      simp [Obs.goneMbufs, Obs.freedMbufs, Obs.returnedMbufs, Obs.passedMbufs, ReasmEntry.mbufs,
        finishChain_addr, Function.comp_def]
    · intro a
      rw [List.flatMap_append, List.flatMap_append, List.count_append, count_flatMap_freeFrag,
        flatMap_freeFrag_nil (fun _ => rfl)]
      simp [Obs.freedFrags, Obs.allocFrags, ReasmEntry.frags]
  · exact .refl _ _

theorem stripPrev_addr {prev : Option FragEntry} {new new' : FragEntry}
    (h : stripPrev prev new = some new') : new'.addr = new.addr ∧ new'.mb.addr = new.mb.addr := by
  unfold stripPrev at h
  split at h
  · cases h
    exact ⟨rfl, rfl⟩
  · dsimp only at h
    split at h
    · split at h
      · cases h
      · cases h
        exact ⟨rfl, rfl⟩
    · cases h
      exact ⟨rfl, rfl⟩

theorem stripNext_addr {next : Option FragEntry} {new new' : FragEntry}
    (h : stripNext next new = some new') : new'.addr = new.addr ∧ new'.mb.addr = new.mb.addr := by
  unfold stripNext at h
  split at h
  · cases h
    exact ⟨rfl, rfl⟩
  · dsimp only at h
    split at h
    · split at h
      · cases h
      · cases h
        exact ⟨rfl, rfl⟩
    · cases h
      exact ⟨rfl, rfl⟩

theorem cutHeader_addr {new new' : FragEntry} {iphlen : Nat} (h : cutHeader new iphlen = some new') :
    new'.addr = new.addr ∧ new'.mb.addr = new.mb.addr := by
  unfold cutHeader at h
  split at h
  · split at h
    · cases h
    · cases h
      exact ⟨rfl, rfl⟩
  · cases h
    exact ⟨rfl, rfl⟩

/-- Trimming keeps the blocks. -/
theorem trimFrag_addr {before after : List FragEntry} {new new' : FragEntry} {iphlen : Nat}
    (h : trimFrag before after new iphlen = some new') :
    new'.addr = new.addr ∧ new'.mb.addr = new.mb.addr := by
  unfold trimFrag at h
  obtain ⟨x, hx, h3⟩ := Option.bind_eq_some_iff.mp h
  obtain ⟨y, h1, h2⟩ := Option.bind_eq_some_iff.mp hx
  have e1 := cutHeader_addr h1
  have e2 := stripPrev_addr h2
  have e3 := stripNext_addr h3
  exact ⟨e3.1.trans (e2.1.trans e1.1), e3.2.trans (e2.2.trans e1.2)⟩

/-- The fragment is linked: there was no list, or it begins behind the first one. -/
theorem linkFrag_of_before {before after : List FragEntry} {new : FragEntry}
    (h : before = [] → after = []) : linkFrag before after new = before ++ new :: after := by
  unfold linkFrag
  split
  · rename_i hnil
    obtain ⟨rfl, rfl⟩ := List.append_eq_nil_iff.mp hnil
    rfl
  · rename_i hne
    rw [if_pos]
    rintro rfl
    exact hne (h rfl)

/-- The list begins behind an offset. -/
def HeadBehind (l : List FragEntry) (offset : Int) : Prop := ∃ head ∈ l.head?, offset < head.offset

theorem splitFrags_append (offset : Int) (l : List FragEntry) :
    (splitFrags offset l).1 ++ (splitFrags offset l).2 = l := List.takeWhile_append_dropWhile

theorem splitFrags_nil {offset : Int} {l : List FragEntry} (h : ¬HeadBehind l offset)
    (hn : (splitFrags offset l).1 = []) : (splitFrags offset l).2 = [] := by
  cases l with
  | nil => rfl
  | cons head l =>
    have hle : head.offset ≤ offset := by
      by_contra hc
      exact h ⟨head, rfl, by omega⟩
    simp [splitFrags, hle] at hn

/-- A fragment is linked. -/
theorem balanced_link {before after : List FragEntry} (h : before ++ after = re.fragList)
    (new : FragEntry) :
    Balanced re.mbufs re.frags [.passed new.mb.addr, .allocFrag new.addr]
      ((before ++ new :: after).map fun frag => frag.mb.addr)
      ((before ++ new :: after).map FragEntry.addr) := by
  constructor
  · intro a
    simp only [ReasmEntry.mbufs, ← h, List.map_append, List.map_cons, List.count_append,
      List.count_cons, List.count_nil, List.flatMap_cons, List.flatMap_nil,
      Obs.goneMbufs, Obs.freedMbufs, Obs.returnedMbufs, Obs.passedMbufs, List.append_nil]
    omega
  · intro a
    simp only [ReasmEntry.frags, ← h, List.map_append, List.map_cons, List.count_append,
      List.count_cons, List.count_nil, List.flatMap_cons, List.flatMap_nil,
      Obs.freedFrags, Obs.allocFrags, List.append_nil]
    omega

/-- **One fragment.**  It is linked, freed or returned, unless it begins in front of the list. -/
theorem queueFrag_balanced (re : ReasmEntry) (mb : Mb) (alloc : Option Nat)
    (h : re.nfrag < IP4_MAX_REASM_FRAGMENTS → alloc.isSome = true →
      ¬HeadBehind re.fragList mb.offset) :
    Balanced re.mbufs re.frags (.passed mb.addr :: (queueFrag re mb alloc).2)
      (queueFrag re mb alloc).1.mbufs (queueFrag re mb alloc).1.frags := by
  unfold queueFrag
  dsimp only
  split
  · have hall : Balanced re.mbufs re.frags (ipFreef { re with nfrag := re.nfrag + 1 }).2 [] [] :=
      ipFreef_balanced _
    have hfree : Balanced [] [] [.freeMbuf mb.addr, .passed mb.addr] [] [] := by
      constructor <;> intro a <;> simp [Obs.goneMbufs, Obs.freedMbufs, Obs.returnedMbufs, Obs.freedFrags,
        Obs.allocFrags, Obs.passedMbufs]
    refine (hall.trans hfree).perm ?_
    rw [← List.singleton_append, ← List.append_assoc]
    exact List.perm_append_comm
  rename_i hmax
  split
  · constructor <;> intro a <;> simp [Obs.goneMbufs, Obs.freedMbufs, Obs.returnedMbufs, Obs.freedFrags,
      Obs.allocFrags, Obs.passedMbufs, ReasmEntry.mbufs, ReasmEntry.frags]
  rename_i addr
  have hbehind : ¬HeadBehind re.fragList (newFrag addr mb).offset := h (by omega) rfl
  split
  · constructor <;> intro a <;> simp [Obs.goneMbufs, Obs.freedMbufs, Obs.returnedMbufs, Obs.freedFrags,
      Obs.allocFrags, Obs.passedMbufs, ReasmEntry.mbufs, ReasmEntry.frags]
  · rename_i new hnew
    obtain ⟨e1, e2⟩ := trimFrag_addr hnew
    have hlink := balanced_link (splitFrags_append (newFrag addr mb).offset re.fragList) new
    rw [e1, e2] at hlink
    rw [linkFrag_of_before (splitFrags_nil hbehind)]
    have hcheck := checkComplete_balanced { re with
      nfrag := re.nfrag + 1
      fragList := (splitFrags (newFrag addr mb).offset re.fragList).1 ++
        new :: (splitFrags (newFrag addr mb).offset re.fragList).2 }
    exact hlink.trans hcheck

/-! ## The list of entries -/

def heldMbufs (l : ReasmList) : List Nat := l.flatMap ReasmEntry.mbufs

def heldFrags (l : ReasmList) : List Nat := l.flatMap ReasmEntry.frags

/-- One entry changes. -/
theorem balanced_set (hi : i < l.length)
    (h : Balanced (l.getD i default).mbufs (l.getD i default).frags obs re'.mbufs re'.frags) :
    Balanced (heldMbufs l) (heldFrags l) obs (heldMbufs (l.set i re')) (heldFrags (l.set i re')) :=
  ⟨.set hi h.mbufs, .set hi h.frags⟩

/-- Every entry changes. -/
theorem balanced_map {f : ReasmEntry → ReasmEntry × List Obs}
    (h : ∀ re, Balanced re.mbufs re.frags (f re).2 (f re).1.mbufs (f re).1.frags)
    (l : ReasmList) :
    Balanced (heldMbufs l) (heldFrags l) (l.flatMap fun re => (f re).2)
      (heldMbufs (l.map fun re => (f re).1)) (heldFrags (l.map fun re => (f re).1)) :=
  ⟨.map (fun re => (h re).mbufs) l, .map (fun re => (h re).frags) l⟩

theorem searchEntry_some {key : Key} {free : Option Nat} {n m : Nat}
    (h : (searchEntry key l n free).1 = some m) :
    n ≤ m ∧ m < n + l.length ∧ (l.getD (m - n) default).fragList ≠ [] ∧
      key = (l.getD (m - n) default).key := by
  induction l generalizing n free with
  | nil => cases h
  | cons re l ih =>
    unfold searchEntry at h
    have step : ∀ free, (searchEntry key l (n + 1) free).1 = some m →
        n ≤ m ∧ m < n + (re :: l).length ∧ ((re :: l).getD (m - n) default).fragList ≠ [] ∧
          key = ((re :: l).getD (m - n) default).key := by
      intro free h
      obtain ⟨h1, h2, h3, h4⟩ := ih h
      have e : m - n = (m - (n + 1)) + 1 := by omega
      rw [e, List.getD_cons_succ, List.length_cons]
      exact ⟨by omega, by omega, h3, h4⟩
    split at h
    · exact step _ h
    · rename_i hne
      split at h
      · rename_i hkey
        cases h
        rw [Nat.sub_self, List.getD_cons_zero, List.length_cons]
        exact ⟨Nat.le_refl _, by omega, hne, hkey⟩
      · exact step _ h

theorem searchEntry_none {key : Key} {free : Option Nat} {n : Nat}
    (h : (searchEntry key l n free).1 = none) : ∀ re ∈ l, re.fragList ≠ [] → re.key ≠ key := by
  induction l generalizing n free with
  | nil => simp
  | cons re l ih =>
    unfold searchEntry at h
    intro x hx hne
    split at h
    · rename_i hnil
      rcases List.mem_cons.mp hx with rfl | hx
      · exact absurd hnil hne
      · exact ih h x hx hne
    · split at h
      · cases h
      · rename_i hkey
        rcases List.mem_cons.mp hx with rfl | hx
        · exact fun hc => hkey hc.symm
        · exact ih h x hx hne

theorem searchEntry_free {key : Key} {free : Option Nat} {n m : Nat}
    (h : (searchEntry key l n free).1 = none) (hf : (searchEntry key l n free).2 = some m) :
    free = some m ∨ (n ≤ m ∧ m < n + l.length ∧ (l.getD (m - n) default).fragList = []) := by
  induction l generalizing n free with
  | nil => exact .inl hf
  | cons re l ih =>
    unfold searchEntry at h hf
    have step : ∀ free, (searchEntry key l (n + 1) free).1 = none →
        (searchEntry key l (n + 1) free).2 = some m → free = some m ∨
          (n ≤ m ∧ m < n + (re :: l).length ∧ ((re :: l).getD (m - n) default).fragList = []) := by
      intro free h hf
      rcases ih h hf with hc | ⟨h1, h2, h3⟩
      · exact .inl hc
      · have e : m - n = (m - (n + 1)) + 1 := by omega
        rw [e, List.getD_cons_succ, List.length_cons]
        exact .inr ⟨by omega, by omega, h3⟩
    split at h
    · rename_i hnil
      rw [if_pos hnil] at hf
      rcases step _ h hf with hc | hc
      · cases hc
        rw [Nat.sub_self, List.getD_cons_zero, List.length_cons]
        exact .inr ⟨Nat.le_refl _, by omega, hnil⟩
      · exact .inr hc
    · rename_i hne
      rw [if_neg hne] at hf
      split at h
      · cases h
      · rename_i hkey
        rw [if_neg hkey] at hf
        exact step _ h hf

/-- The entry `ip4_reasm` works on: the one of the datagram, or an empty one when there is none. -/
def Picked (l : ReasmList) (key : Key) (re : ReasmEntry) : Prop :=
  (re ∈ l ∧ re.fragList ≠ [] ∧ re.key = key) ∨
    (re.fragList = [] ∧ re.key = key ∧ re.nfrag = 0 ∧ ∀ x ∈ l, x.fragList ≠ [] → x.key ≠ key)

/-- What the choice of an entry does. -/
structure PickOk (l : ReasmList) (key : Key) (p : ReasmList × List Obs × Nat) : Prop where
  lt : p.2.2 < p.1.length
  length : p.1.length = l.length
  balanced : Balanced (heldMbufs l) (heldFrags l) p.2.1 (heldMbufs p.1) (heldFrags p.1)
  picked : Picked l key (p.1.getD p.2.2 default)
  others : ∀ re ∈ p.1, re ∈ l ∨ re.fragList = []
  freed : ∀ o ∈ p.2.1, ∀ held chain, o ≠ .returned held chain

theorem getD_mem (hi : i < l.length) : l.getD i default ∈ l := by
  rw [List.getD_eq_getElem?_getD, List.getElem?_eq_getElem hi]
  exact List.getElem_mem hi

theorem getD_set_self {x : ReasmEntry} (hi : i < l.length) : (l.set i x).getD i default = x := by
  simp [List.getD_eq_getElem?_getD, hi]

theorem fill_balanced (re : ReasmEntry) (key : Key) :
    Balanced re.mbufs re.frags [] (re.fill key).mbufs (re.fill key).frags := .refl _ _

theorem ipFreef_not_returned (re : ReasmEntry) :
    ∀ o ∈ (ipFreef re).2, ∀ held chain, o ≠ .returned held chain := by
  intro o ho held chain
  obtain ⟨frag, -, h⟩ := List.mem_flatMap.mp ho
  simp only [List.mem_cons, List.not_mem_nil, or_false] at h
  rcases h with rfl | rfl <;> simp

/-- **The choice of an entry.** -/
theorem pickEntry_ok (hl : l ≠ []) (key : Key) : PickOk l key (pickEntry l key) := by
  have hpos : 0 < l.length := List.length_pos_iff.mpr hl
  unfold pickEntry
  split
  · rename_i n _ hs
    have h1 := searchEntry_some (congrArg Prod.fst hs)
    rw [Nat.sub_zero, Nat.zero_add] at h1
    obtain ⟨-, hlt, hne, hkey⟩ := h1
    constructor
    case lt => exact hlt
    case length => rfl
    case balanced => exact .refl _ _
    case picked =>
      exact .inl ⟨getD_mem hlt, hne, hkey.symm⟩
    case others => exact fun re hre => .inl hre
    case freed => simp
  · rename_i n hs
    have hnone := searchEntry_none (congrArg Prod.fst hs)
    rcases searchEntry_free (congrArg Prod.fst hs) (congrArg Prod.snd hs) with hc | ⟨-, hlt, hnil⟩
    · cases hc
    rw [Nat.sub_zero] at hnil
    rw [Nat.zero_add] at hlt
    constructor
    case lt => simpa using hlt
    case length => simp
    case balanced => exact balanced_set hlt (fill_balanced _ key)
    case picked =>
      dsimp only
      rw [getD_set_self hlt]
      exact .inr ⟨hnil, rfl, rfl, hnone⟩
    case others =>
      intro re hre
      rcases List.mem_or_eq_of_mem_set hre with h | rfl
      · exact .inl h
      · exact .inr hnil
    case freed => simp
  · rename_i hs
    have hnone := searchEntry_none (congrArg Prod.fst hs)
    have hlt : 0 < (freeAll l).1.length := by
      rw [freeAll, List.length_map]
      exact hpos
    have hempty : ∀ re ∈ (freeAll l).1, re.fragList = [] := by
      intro re hre
      obtain ⟨x, -, rfl⟩ := List.mem_map.mp hre
      rfl
    have hnil : ((freeAll l).1.getD 0 default).fragList = [] := hempty _ (getD_mem hlt)
    have hfree : Balanced (heldMbufs l) (heldFrags l) (freeAll l).2 (heldMbufs (freeAll l).1)
        (heldFrags (freeAll l).1) := balanced_map (fun re => ipFreef_balanced re) l
    constructor
    case lt => simpa using hlt
    case length => simp [freeAll]
    case balanced =>
      have h2 := hfree.trans (balanced_set hlt (fill_balanced _ key))
      simpa only [List.append_nil] using h2
    case picked =>
      dsimp only
      rw [getD_set_self hlt]
      exact .inr ⟨hnil, rfl, rfl, hnone⟩
    case others =>
      intro re hre
      rcases List.mem_or_eq_of_mem_set hre with h | rfl
      · exact .inr (hempty re h)
      · exact .inr hnil
    case freed =>
      intro o ho
      obtain ⟨re, -, h⟩ := List.mem_flatMap.mp ho
      exact ipFreef_not_returned re o h

theorem ip4Reasm_length (hl : l ≠ []) (mb : Mb) (alloc : Option Nat) :
    (ip4Reasm l mb alloc).1.length = l.length := by
  unfold ip4Reasm
  rw [List.length_set]
  exact (pickEntry_ok hl mb.key).length

/-- **Entry rule.**  What holds of an entry without fragments, and of the entry of a fragment behind
    the fragment, holds of every entry. -/
theorem ip4Reasm_forall {P : ReasmEntry → Prop} (hl : l ≠ []) (hnil : ∀ re, re.fragList = [] → P re)
    {mb : Mb} {alloc : Option Nat}
    (hstep : ∀ re, Picked l mb.key re → P re → P (queueFrag re mb alloc).1)
    (h : ∀ re ∈ l, P re) : ∀ re ∈ (ip4Reasm l mb alloc).1, P re := by
  have hp := pickEntry_ok hl mb.key
  have hall : ∀ re ∈ (pickEntry l mb.key).1, P re := by
    intro re hre
    rcases hp.others re hre with hm | hm
    · exact h re hm
    · exact hnil re hm
  intro re hre
  rcases List.mem_or_eq_of_mem_set hre with hm | rfl
  · exact hall re hm
  · exact hstep _ hp.picked (hall _ (getD_mem hp.lt))

theorem ipSlowtimo_length (l : ReasmList) (cnt : Int) : (ipSlowtimo l cnt).1.length = l.length := by
  unfold ipSlowtimo
  split
  · exact List.length_map _
  · rfl

/-- **Entry rule for the timer.** -/
theorem ipSlowtimo_forall {P : ReasmEntry → Prop} (hstep : ∀ re, P re → P (slowtimoEntry re).1)
    (h : ∀ re ∈ l, P re) (cnt : Int) : ∀ re ∈ (ipSlowtimo l cnt).1, P re := by
  unfold ipSlowtimo
  split
  · intro re hre
    obtain ⟨x, hx, rfl⟩ := List.mem_map.mp hre
    exact hstep x (h x hx)
  · exact h

/-! ## The ranges -/

/-- The range of a fragment has the length of the data it keeps; the first one keeps its header. -/
structure FragOk (frag : FragEntry) : Prop where
  lt : frag.offset < frag.last
  first : frag.offset = 0 → (frag.mb.mLen : Int) = frag.mb.iphlen + frag.last
  rest : frag.offset ≠ 0 → (frag.mb.mLen : Int) = frag.last - frag.offset

/-- A fragment list: sorted, without overlap. -/
structure ListOk (l : List FragEntry) : Prop where
  ranges : ∀ frag ∈ l, FragOk frag
  sorted : l.Pairwise fun frag next => frag.last ≤ next.offset

structure EntryOk (re : ReasmEntry) : Prop where
  list : ListOk re.fragList
  count : re.fragList.length ≤ re.nfrag

theorem ListOk.nil : ListOk [] := ⟨by simp, .nil⟩

theorem EntryOk.of_nil (h : re.fragList = []) : EntryOk re := by
  refine ⟨?_, ?_⟩
  · rw [h]
    exact .nil
  · rw [h]
    exact Nat.zero_le _

/-- The range of a fragment that comes in. -/
theorem cutHeader_ok (frag : Fragment) {addr : Nat} {new : FragEntry}
    (h : cutHeader (newFrag addr frag.toMb) frag.iphlen = some new) :
    FragOk new ∧ new.offset = frag.offset ∧ new.flags = (newFrag addr frag.toMb).flags ∧
      new.mb.mLen = if frag.offset = 0 then frag.mLen else frag.mLen - frag.iphlen := by
  have hlen := frag.len
  have hfits := frag.fits
  have hpay : frag.payload.length = frag.mLen - frag.iphlen := by
    simp [Mb.payload, Mb.mLen]
  unfold cutHeader at h
  split at h
  · rename_i hoff
    have hoff' : frag.offset ≠ 0 := fun hc => hoff (by simp [newFrag, hc])
    split at h
    · cases h
    rename_i hm
    cases h
    have hdrop : (frag.mData.drop frag.iphlen).length = frag.mLen - frag.iphlen := by
      simp [Mb.mLen]
    have h0 : (frag.offset : Int) ≠ 0 := by omega
    simp only [newFrag, Mb.mLen] at hm hdrop hlen hfits
    refine ⟨⟨?_, fun hc => absurd hc h0, fun _ => ?_⟩, rfl, rfl, ?_⟩
    · simp only [newFrag]
      omega
    · simp only [newFrag, Mb.mLen]
      rw [hdrop]
      omega
    · simp only [newFrag, Mb.mLen]
      rw [hdrop, if_neg hoff']
  · rename_i hoff
    cases h
    have h0 : (frag.offset : Int) = 0 := not_not.mp hoff
    have hoff' : frag.offset = 0 := by omega
    have hmf : frag.ipOff &&& IP_MF ≠ 0 := frag.frag.resolve_right fun hc => hc hoff'
    have hpos := (frag.mult hmf).1
    refine ⟨⟨?_, fun _ => ?_, fun hc => absurd h0 hc⟩, rfl, rfl, ?_⟩
    · simp only [newFrag]
      omega
    · simp only [newFrag]
      omega
    · rw [if_pos hoff']
      rfl

/-- Behind the only fragment of a list. -/
theorem stripPrev_ok {head new new' : FragEntry} (hnew : FragOk new) (hpos : 0 < new.offset)
    (h : stripPrev (some head) new = some new') :
    FragOk new' ∧ head.last ≤ new'.offset ∧ new'.flags = new.flags ∧ new'.last = new.last := by
  unfold stripPrev at h
  dsimp only at h
  split at h
  · rename_i hov
    split at h
    · cases h
    · rename_i hm
      cases h
      have hlen := hnew.rest (by omega)
      refine ⟨⟨?_, fun hc => ?_, fun _ => ?_⟩, ?_, rfl, rfl⟩
      · dsimp only
        omega
      · dsimp only at hc
        omega
      · dsimp only [Mb.mLen]
        rw [List.length_drop]
        simp only [Mb.mLen] at hlen hm
        omega
      · dsimp only
        omega
  · rename_i hov
    cases h
    exact ⟨hnew, by omega, rfl, rfl⟩

theorem checkComplete_fragList (re : ReasmEntry) :
    (checkComplete re).1.fragList = re.fragList ∨ (checkComplete re).1.fragList = [] := by
  unfold checkComplete
  split
  · exact .inl rfl
  split
  · exact .inr rfl
  · exact .inl rfl

theorem checkComplete_nfrag (re : ReasmEntry) : (checkComplete re).1.nfrag = re.nfrag := by
  unfold checkComplete
  split
  · rfl
  split <;> rfl

/-- The list of a fragment in front of which one fragment may be. -/
theorem splitFrags_single {offset : Int} {l : List FragEntry} (h : ¬HeadBehind l offset)
    (hlen : l.length ≤ 1) : splitFrags offset l = (l, []) := by
  match l, hlen with
  | [], _ => rfl
  | [head], _ =>
    have hle : head.offset ≤ offset := by
      by_contra hc
      exact h ⟨head, rfl, by omega⟩
    simp [splitFrags, hle]

/-- What a fragment owes to the list it comes to. -/
def FitsBehind (l : List FragEntry) (mb : Mb) : Prop :=
  ∀ head ∈ l.head?, head.offset ≤ mb.offset ∧ (mb.offset = 0 → (mb.mLen : Int) ≤ head.last)

theorem FitsBehind.not_headBehind {l : List FragEntry} (h : FitsBehind l mb) :
    ¬HeadBehind l mb.offset := by
  rintro ⟨head, hm, hlt⟩
  have := (h head hm).1
  omega

/-- **One fragment keeps the list in order.** -/
theorem queueFrag_ok (frag : Fragment) (alloc : Option Nat) (h : EntryOk re)
    (hfit : re.nfrag < IP4_MAX_REASM_FRAGMENTS → alloc.isSome = true →
      FitsBehind re.fragList frag.toMb) :
    EntryOk (queueFrag re frag.toMb alloc).1 := by
  have hsame : EntryOk { re with nfrag := re.nfrag + 1 } := ⟨h.list, Nat.le_succ_of_le h.count⟩
  unfold queueFrag
  dsimp only
  split
  · exact .of_nil rfl
  rename_i hmax
  split
  · exact hsame
  rename_i addr
  have hb := hfit (by omega) rfl
  have hcount := h.count
  have hmax' : re.nfrag ≤ 1 := by
    simp only [IP4_MAX_REASM_FRAGMENTS] at hmax
    omega
  have hsplit : splitFrags (newFrag addr frag.toMb).offset re.fragList = (re.fragList, []) :=
    splitFrags_single hb.not_headBehind (by omega)
  rw [hsplit]
  split
  · exact hsame
  rename_i new hnew
  rw [linkFrag_of_before fun _ => rfl]
  -- the list with the new fragment
  have hlist : ListOk (re.fragList ++ [new]) := by
    unfold trimFrag at hnew
    obtain ⟨y, hy, h3⟩ := Option.bind_eq_some_iff.mp hnew
    obtain ⟨x, h1, h2⟩ := Option.bind_eq_some_iff.mp hy
    obtain ⟨hx, hxo, -, hxl⟩ := cutHeader_ok frag h1
    cases h3
    match hl : re.fragList with
    | [] =>
      rw [hl] at h2
      cases h2
      exact ⟨by simpa using hx, List.pairwise_singleton _ _⟩
    | [head] =>
      rw [hl] at h2 hb
      have hhead := hb head rfl
      have hpos : 0 < x.offset := by
        by_contra hc
        have hz : frag.offset = 0 := by omega
        -- a second first fragment leaves nothing
        have hm := hhead.2 hz
        rw [if_pos hz] at hxl
        have hx0 : x.offset = 0 := by omega
        have hhdr := frag.hdr
        have hfits := frag.fits
        simp only [List.getLast?_singleton, stripPrev, hxl, hx0] at h2
        rw [if_pos (by omega), if_pos (by omega)] at h2
        cases h2
      obtain ⟨g1, g2, -, -⟩ := stripPrev_ok hx hpos h2
      refine ⟨?_, ?_⟩
      · intro f hf
        simp only [List.cons_append, List.nil_append, List.mem_cons, List.not_mem_nil,
          or_false] at hf
        rcases hf with rfl | rfl
        · exact h.list.ranges f (by rw [hl]; simp)
        · exact g1
      · simpa using g2
    | _ :: _ :: _ =>
      rw [hl] at hcount
      simp at hcount
      omega
  have hok : EntryOk { re with nfrag := re.nfrag + 1, fragList := re.fragList ++ [new] } := by
    refine ⟨hlist, ?_⟩
    simpa using hcount
  dsimp only
  rcases checkComplete_fragList { re with
    nfrag := re.nfrag + 1, fragList := re.fragList ++ [new] } with hc | hc
  · refine ⟨?_, ?_⟩
    · rw [hc]
      exact hlist
    · rw [hc, checkComplete_nfrag]
      exact hok.count
  · exact .of_nil hc

/-! ## Runs -/

/-- A fragment that is queued to a list fits behind its first fragment. -/
def ReasmFits (l : ReasmList) : Event → Prop
  | .reasm frag alloc => ∀ re ∈ l, re.fragList ≠ [] → re.key = frag.key →
      re.nfrag < IP4_MAX_REASM_FRAGMENTS → alloc.isSome = true → FitsBehind re.fragList frag.toMb
  | .slowtimo _ => True

theorem FitsBehind.nil (mb : Mb) : FitsBehind [] mb := by
  intro head hh
  cases hh

theorem Picked.fits {frag : Fragment} {alloc : Option Nat} (hp : Picked l frag.key re)
    (h : ReasmFits l (.reasm frag alloc)) (hn : re.nfrag < IP4_MAX_REASM_FRAGMENTS)
    (ha : alloc.isSome = true) : FitsBehind re.fragList frag.toMb := by
  rcases hp with ⟨hm, hne, hkey⟩ | ⟨hnil, -⟩
  · exact h re hm hne hkey hn ha
  · rw [hnil]
    exact .nil _

theorem slowtimoEntry_ok (h : EntryOk re) : EntryOk (slowtimoEntry re).1 := by
  unfold slowtimoEntry
  split
  · dsimp only
    split
    · exact .of_nil rfl
    · exact ⟨h.list, h.count⟩
  · exact h

/-- The invariant of a run. -/
structure ReasmInv (l : ReasmList) (hist : List Obs) : Prop where
  length : l.length = IP4_REASM_PACKETS
  entries : ∀ re ∈ l, EntryOk re
  balanced : Balanced [] [] hist (heldMbufs l) (heldFrags l)

theorem ne_nil_of_length (h : l.length = IP4_REASM_PACKETS) : l ≠ [] := by
  rintro rfl
  cases h

theorem ip4Reasm_balanced (hl : l ≠ []) (frag : Fragment) (alloc : Option Nat)
    (h : ReasmFits l (.reasm frag alloc)) :
    Balanced (heldMbufs l) (heldFrags l) (.passed frag.addr :: (ip4Reasm l frag.toMb alloc).2)
      (heldMbufs (ip4Reasm l frag.toMb alloc).1) (heldFrags (ip4Reasm l frag.toMb alloc).1) := by
  have hp := pickEntry_ok hl frag.key
  have hq := hp.balanced.trans (balanced_set hp.lt (queueFrag_balanced _ frag.toMb alloc fun hn ha =>
    (hp.picked.fits h hn ha).not_headBehind))
  exact hq.perm List.perm_middle

theorem ipSlowtimo_balanced (l : ReasmList) (cnt : Int) :
    Balanced (heldMbufs l) (heldFrags l) (ipSlowtimo l cnt).2 (heldMbufs (ipSlowtimo l cnt).1)
      (heldFrags (ipSlowtimo l cnt).1) := by
  unfold ipSlowtimo
  split
  · exact balanced_map slowtimoEntry_balanced l
  · exact .refl _ _

theorem ReasmInv.start : ReasmInv reasmStart [] := by
  constructor
  case length => rfl
  case entries =>
    intro re hre
    rw [List.eq_of_mem_replicate hre]
    exact .of_nil rfl
  case balanced => exact .refl [] []

/-- A call keeps the invariant. -/
theorem ReasmInv.step {hist : List Obs} {ev : Event} (h : ReasmInv l hist) (hfit : ReasmFits l ev)
    (hl' : (reasmMachine l ev).1 = some l') : ReasmInv l' (hist ++ (reasmMachine l ev).2) := by
  have hl := ne_nil_of_length h.length
  cases ev with
  | reasm frag alloc =>
    cases hl'
    constructor
    case length => rw [ip4Reasm_length hl, h.length]
    case entries =>
      refine ip4Reasm_forall hl (fun _ => .of_nil) (fun re hp hre => ?_) h.entries
      exact queueFrag_ok frag alloc hre fun hn ha => hp.fits hfit hn ha
    case balanced => exact h.balanced.trans (ip4Reasm_balanced hl frag alloc hfit)
  | slowtimo cnt =>
    cases hl'
    constructor
    case length => exact (ipSlowtimo_length l cnt).trans h.length
    case entries => exact ipSlowtimo_forall (fun _ => slowtimoEntry_ok) h.entries cnt
    case balanced => exact h.balanced.trans (ipSlowtimo_balanced l cnt)

/-- What reassembly promises of its buffers: every mbuf passed in is in a list, in a returned chain or
    freed, every `frag_entry` is in a list or freed, and the lists are in order. -/
structure Conserved (l : ReasmList) (hist : List Obs) : Prop where
  mbufs : (hist.flatMap Obs.passedMbufs).Perm
    (hist.flatMap Obs.freedMbufs ++ hist.flatMap Obs.returnedMbufs ++ heldMbufs l)
  frags : (hist.flatMap Obs.allocFrags).Perm (hist.flatMap Obs.freedFrags ++ heldFrags l)
  lists : ∀ re ∈ l, ListOk re.fragList

theorem goneMbufs_perm (hist : List Obs) : (hist.flatMap Obs.goneMbufs).Perm
    (hist.flatMap Obs.freedMbufs ++ hist.flatMap Obs.returnedMbufs) :=
  (List.flatMap_append_perm hist Obs.freedMbufs Obs.returnedMbufs).symm

theorem ReasmInv.conserved {hist : List Obs} (h : ReasmInv l hist) : Conserved l hist := by
  constructor
  case mbufs =>
    exact (Ledger.perm_iff.mp h.balanced.mbufs).trans ((goneMbufs_perm hist).append_right _)
  case frags => exact Ledger.perm_iff.mp h.balanced.frags
  case lists => exact fun re hre => (h.entries re hre).list

/-- **Reassembly conserves its buffers.**  In every state of every run of `ip4_reasm` and
    `ip_slowtimo` in which a fragment that is queued to a list does not begin in front of it, and a
    second first fragment is no longer than the data of the first one. -/
theorem reasm_conserves (es : List Event) (l : ReasmList)
    (hg : Machine.Guarded reasmMachine ReasmFits (some reasmStart) es)
    (hl : (Machine.run reasmMachine (some reasmStart) es).1 = some l) :
    Conserved l (Machine.run reasmMachine (some reasmStart) es).2 := by
  have h := Machine.run_record ReasmInv (fun l ev hist l' h hc hl' => h.step hc hl') ReasmInv.start hg hl
  exact h.conserved

instance (l : List FragEntry) (mb : Mb) : Decidable (FitsBehind l mb) :=
  inferInstanceAs (Decidable (∀ head ∈ l.head?, _ ∧ (_ → _)))

instance (l : ReasmList) : ∀ ev, Decidable (ReasmFits l ev)
  | .reasm frag alloc => inferInstanceAs (Decidable (∀ re ∈ l, re.fragList ≠ [] →
      re.key = frag.key → re.nfrag < IP4_MAX_REASM_FRAGMENTS → alloc.isSome = true →
      FitsBehind re.fragList frag.toMb))
  | .slowtimo _ => .isTrue trivial

/-- The first eight bytes of a datagram. -/
def fragFirst : Fragment where
  addr := 1
  mData := [0x45, 0, 0, 28, 0, 7, 0x20, 0, 64, 17, 0, 0, 10, 0, 0, 1, 10, 0, 0, 2,
    1, 2, 3, 4, 5, 6, 7, 8]
  hdr := by decide
  len := by decide
  fits := by decide
  frag := by decide
  mult := by decide

/-- Its last three bytes, which follow them. -/
def fragLast : Fragment where
  addr := 2
  mData := [0x45, 0, 0, 23, 0, 7, 0, 1, 64, 17, 0, 0, 10, 0, 0, 1, 10, 0, 0, 2, 9, 10, 11]
  hdr := by decide
  len := by decide
  fits := by decide
  frag := by decide
  mult := by decide

/-- Eight bytes in the middle of a longer one. -/
def fragMiddle : Fragment where
  addr := 3
  mData := [0x45, 0, 0, 28, 0, 7, 0x20, 1, 64, 17, 0, 0, 10, 0, 0, 1, 10, 0, 0, 2,
    9, 10, 11, 12, 13, 14, 15, 16]
  hdr := by decide
  len := by decide
  fits := by decide
  frag := by decide
  mult := by decide

theorem reasm_conserves_in_order :
    Conserved ((Machine.run reasmMachine (some reasmStart)
        [.reasm fragFirst (some 100), .reasm fragLast (some 101)]).1.getD [])
      (Machine.run reasmMachine (some reasmStart)
        [.reasm fragFirst (some 100), .reasm fragLast (some 101)]).2 :=
  reasm_conserves _ _ (by decide +kernel) rfl

/-- A first fragment behind one from the middle: its mbuf and its `frag_entry` are lost. -/
theorem first_fragment_lost :
    ¬ ∀ (es : List Event) (l : ReasmList),
      (Machine.run reasmMachine (some reasmStart) es).1 = some l →
      Conserved l (Machine.run reasmMachine (some reasmStart) es).2 := by
  intro h
  have hc := h [.reasm fragMiddle (some 100), .reasm fragFirst (some 101)] _ rfl
  have hcount := List.perm_iff_count.mp hc.mbufs 1
  revert hcount
  decide +kernel

end TnNet.Ip
