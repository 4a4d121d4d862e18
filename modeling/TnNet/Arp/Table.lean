import TnNet.Arp.Defs

/-!
# The chains that wait for an address

`table_owned`: every chain with which `arp_resolve` has returned `FALSE` waits in one entry, was handed
to the driver once or was freed once, and no two entries are in use for one address — in every run in
which an ARP packet for an entry with a chain finds a block for the header of the chain, and no ARP
packet sets a free entry when another one is in use for its address (the free entries have the address
0).  Without a block the chain is freed and stays in its entry: `freed_and_held`.
-/

set_option autoImplicit false

namespace TnNet.Arp

variable {arr arr' : List TnArpentry} {ip : BitVec 32} {time idx nelem : Nat} {fr : List Nat} {s : ArpTable}
  {old new : TnArpentry}

/-! ## The statement -/

/-- The chains in the entries. -/
def holds (arr : List TnArpentry) : List Nat := arr.flatMap (·.laHold.toList)

/-- No two entries in use have the same address. -/
def Single (arr : List TnArpentry) : Prop :=
  ∀ (i j : Nat) (a b : TnArpentry), arr[i]? = some a → arr[j]? = some b → a.state ≠ .ARP_FREE →
    b.state ≠ .ARP_FREE → a.itaddr = b.itaddr → i = j

/-- The chains that were passed, and the table. -/
structure Owned (s : ArpTable) : Prop where
  once : ∀ mb ∈ s.taken, (holds s.arpArr ++ s.handed ++ s.freed).count mb = 1
  waits : ∀ mb ∈ holds s.arpArr, mb ∉ s.handed ∧ mb ∉ s.freed
  single : Single s.arpArr

/-- When the entry with the address is free, no other one is in use for it. -/
def Sole (arr : List TnArpentry) (spa : BitVec 32) : Prop :=
  ∀ arpe ∈ arr.find? (·.itaddr = spa), arpe.state = .ARP_FREE → ∀ e ∈ arr, e.itaddr = spa →
    e.state = .ARP_FREE

/-- The condition on a step: an ARP packet finds a block for the chain that waits for it. -/
def Headed (s : ArpTable) : ArpEvent → Prop
  | .input pkt myaddr room _ _ =>
    (pkt.short ∨ pkt.sha = etherbroadcastaddr ∨ pkt.spa = myaddr) ∨
      (Sole s.arpArr pkt.spa ∧
        ∀ arpe ∈ s.arpArr.find? (·.itaddr = pkt.spa), arpe.laHold.isSome = true → room = true)
  | _ => True

/-! ## One entry changes -/

@[simp] theorem holds_nil : holds [] = [] := rfl

@[simp] theorem holds_cons (e : TnArpentry) (l : List TnArpentry) :
    holds (e :: l) = e.laHold.toList ++ holds l := by
  simp [holds]

theorem count_holds_set (h : arr[idx]? = some old) (mb : Nat) :
    (holds (arr.set idx new)).count mb + old.laHold.toList.count mb =
      (holds arr).count mb + new.laHold.toList.count mb := by
  induction arr generalizing idx with
  | nil => simp at h
  | cons e l ih =>
    cases idx with
    | zero =>
      simp only [List.getElem?_cons_zero, Option.some.injEq] at h
      subst h
      simp only [List.set_cons_zero, holds_cons, List.count_append]
      omega
    | succ idx =>
      rw [List.getElem?_cons_succ] at h
      have := ih h
      simp only [List.set_cons_succ, holds_cons, List.count_append]
      omega

/-- The entry is free, or the only one in use for its address. -/
def Alone (arr : List TnArpentry) (idx : Nat) (new : TnArpentry) : Prop :=
  new.state ≠ .ARP_FREE → ∀ (j : Nat) (b : TnArpentry), arr[j]? = some b → j ≠ idx →
    b.state ≠ .ARP_FREE → b.itaddr ≠ new.itaddr

theorem Single.set (h : Single arr) (hnew : Alone arr idx new) : Single (arr.set idx new) := by
  intro i j a b ha hb hfa hfb heq
  rw [List.getElem?_set] at ha hb
  by_contra hne
  split at ha
  · rename_i hi
    rw [if_neg (by omega)] at hb
    split at ha
    · cases ha
      exact hnew hfa j b hb (by omega) hfb heq.symm
    · cases ha
  · split at hb
    · rename_i hj
      split at hb
      · cases hb
        exact hnew hfb i a ha (by omega) hfa heq
      · cases hb
    · exact hne (h i j a b ha hb hfa hfb heq)

/-- An entry in use keeps its address. -/
theorem Single.alone (h : Single arr) (hget : arr[idx]? = some old) (haddr : new.itaddr = old.itaddr)
    (hstate : new.state ≠ .ARP_FREE → old.state ≠ .ARP_FREE) : Alone arr idx new := by
  intro hf j b hb hne hfb heq
  exact hne (h j idx b old hb hget hfb (hstate hf) (heq.trans haddr))

/-! ## The invariant -/

/-- Every chain that was passed has one place, and no other chain has one. -/
structure TableInv (s : ArpTable) : Prop where
  places : ∀ mb, (holds s.arpArr).count mb + s.handed.count mb + s.freed.count mb = s.taken.count mb
  nodup : s.taken.Nodup
  single : Single s.arpArr

theorem TableInv.owned (h : TableInv s) : Owned s := by
  have hle : ∀ mb, s.taken.count mb ≤ 1 := fun mb => List.nodup_iff_count.mp h.nodup mb
  refine ⟨?_, ?_, h.single⟩
  · intro mb hmb
    have := List.one_le_count_iff.mpr hmb
    have := h.places mb
    have := hle mb
    rw [List.count_append, List.count_append]
    omega
  · intro mb hmb
    have := List.one_le_count_iff.mpr hmb
    have := h.places mb
    have := hle mb
    exact ⟨List.count_eq_zero.mp (by omega), List.count_eq_zero.mp (by omega)⟩

theorem start_inv (nelem : Nat) : TableInv (ArpTable.start nelem) := by
  have hget : ∀ e ∈ (ArpTable.start nelem).arpArr, e = ({} : TnArpentry) :=
    fun e he => List.eq_of_mem_replicate he
  have hholds : holds (ArpTable.start nelem).arpArr = [] := by
    refine List.flatMap_eq_nil_iff.mpr fun e he => ?_
    rw [hget e he]
    rfl
  refine ⟨fun mb => ?_, List.nodup_nil, ?_⟩
  · rw [hholds]
    rfl
  · intro i j a b ha hb hfa
    rw [hget a (List.mem_of_getElem? ha)] at hfa
    exact absurd rfl hfa

/-! ## `arp_lookup` -/

/-- A new entry is the only one with its address. -/
theorem Found.single (hf : Found arr ip time idx arr' fr) (h : Single arr) : Single arr' := by
  cases hf with
  | old arpe get first same none_freed =>
    subst same
    exact h
  | new arpe absent get replaced freed =>
    subst replaced
    exact h.set fun _ j b hb _ _ => absent b (List.mem_of_getElem? hb)

/-- The chain of the entry that is replaced is freed. -/
theorem Found.inv (hf : Found s.arpArr ip time idx arr' fr) (hi : TableInv s) :
    TableInv { s with arpArr := arr', freed := s.freed ++ fr } := by
  refine ⟨fun mb => ?_, hi.nodup, hf.single hi.single⟩
  have h1 := hi.places mb
  cases hf with
  | old arpe get first same none_freed =>
    subst same none_freed
    simpa using h1
  | new arpe absent get replaced freed =>
    subst replaced freed
    have h2 := @count_holds_set _ _ _ (newEntry ip time) get mb
    have h3 : (newEntry ip time).laHold.toList.count mb = 0 := rfl
    simp only [List.count_append]
    omega

/-- The entry that was found, in the table it leaves. -/
theorem Found.get (hf : Found arr ip time idx arr' fr) : ∃ arpe, arr'[idx]? = some arpe ∧
    arr'.getD idx {} = arpe ∧ arpe.itaddr = ip := by
  cases hf with
  | old arpe get first same none_freed =>
    subst same
    exact ⟨arpe, get, by rw [List.getD_eq_getElem?_getD, get, Option.getD_some],
      by simpa using List.find?_some first⟩
  | new arpe absent get replaced freed =>
    subst replaced
    have hlt := (List.getElem?_eq_some_iff.mp get).1
    have h1 : (arr.set idx (newEntry ip time))[idx]? = some (newEntry ip time) := by
      rw [List.getElem?_set_self hlt]
    exact ⟨newEntry ip time, h1, by rw [List.getD_eq_getElem?_getD, h1, Option.getD_some], rfl⟩

/-- The entry that is set is the only one in use for its address. -/
theorem Found.alone (hf : Found arr ip time idx arr' fr) (h : Single arr) (hs : Sole arr ip)
    (haddr : new.itaddr = ip) : Alone arr' idx new := by
  intro _ j b hb hne hfb heq
  cases hf with
  | old e get first same none_freed =>
    subst same
    by_cases hst : e.state = .ARP_FREE
    · exact hfb (hs e first hst b (List.mem_of_getElem? hb) (heq.trans haddr))
    · have he : e.itaddr = ip := by simpa using List.find?_some first
      exact hne (h j idx b e hb get hfb hst ((heq.trans haddr).trans he.symm))
  | new e absent get replaced freed =>
    subst replaced
    rw [List.getElem?_set_ne (fun h => hne h.symm)] at hb
    exact absent b (List.mem_of_getElem? hb) (heq.trans haddr)

/-- A new entry has no chain. -/
theorem Found.room {room : Bool} {arpe : TnArpentry} (hf : Found arr ip time idx arr' fr)
    (hget : arr'[idx]? = some arpe)
    (h : ∀ e ∈ arr.find? (·.itaddr = ip), e.laHold.isSome = true → room = true) :
    arpe.laHold.isSome = true → room = true := by
  cases hf with
  | old e get first same none_freed =>
    subst same
    obtain rfl : e = arpe := Option.some.inj (get.symm.trans hget)
    exact h e first
  | new e absent get replaced freed =>
    subst replaced
    rw [List.getElem?_set_self (List.getElem?_eq_some_iff.mp get).1] at hget
    cases hget
    exact fun h => nomatch h

/-! ## The steps -/

/-- The entry changes and the chains move. -/
theorem TableInv.change (hi : TableInv s) (new : TnArpentry) (handed freed taken : List Nat)
    (hget : s.arpArr[idx]? = some old) (halone : Alone s.arpArr idx new)
    (hnodup : (taken ++ s.taken).Nodup)
    (hmove : ∀ mb, new.laHold.toList.count mb + handed.count mb + freed.count mb =
      old.laHold.toList.count mb + taken.count mb) :
    TableInv { s with arpArr := s.arpArr.set idx new, handed := s.handed ++ handed,
                      freed := s.freed ++ freed, taken := taken ++ s.taken } := by
  refine ⟨fun mb => ?_, hnodup, hi.single.set halone⟩
  have h1 := hi.places mb
  have h2 := @count_holds_set _ _ _ new hget mb
  have h3 := hmove mb
  simp only [List.count_append]
  omega

/-- The entry gets an address, and its chain is sent. -/
theorem sendHold_inv {room : Bool} (hi : TableInv s) (hget : s.arpArr[idx]? = some old)
    (hhold : new.laHold = old.laHold) (halone : Alone s.arpArr idx new)
    (hroom : old.laHold.isSome = true → room = true) : TableInv (s.sendHold idx new room) := by
  unfold ArpTable.sendHold
  cases ho : old.laHold with
  | none =>
    rw [hhold, ho]
    have h := hi.change new [] [] [] hget halone hi.nodup (by simp [hhold])
    simpa using h
  | some mb =>
    rw [ho] at hroom
    rw [hhold, ho, hroom rfl]
    have h := hi.change { new with laHold := none } [mb] [] [] hget halone hi.nodup (by simp [ho])
    simpa using h

theorem arpInput_inv {pkt : ArpPkt} {myaddr : BitVec 32} {room : Bool} {time1 time2 : Nat} (hi : TableInv s)
    (hc : Headed s (.input pkt myaddr room time1 time2)) :
    TableInv (s.arpInput pkt myaddr room time1 time2).1 := by
  have hi0 : TableInv { s with now := time2 } := ⟨hi.places, hi.nodup, hi.single⟩
  unfold ArpTable.arpInput
  dsimp only
  split
  · exact hi0
  · rename_i hno
    obtain ⟨hsole, hroom⟩ := hc.resolve_left hno
    cases hl : arpLookup s.arpArr pkt.spa (decide (pkt.tpa = myaddr)) time1 with
    | none => exact hi0
    | some r =>
      obtain ⟨idx, arr, fr⟩ := r
      dsimp only
      have hf := arpLookup_spec hl
      obtain ⟨arpe, hget, hgetD, haddr⟩ := hf.get
      rw [hgetD]
      exact sendHold_inv (hf.inv (s := { s with now := time2 }) hi0) hget rfl
        (hf.alone hi.single hsole haddr) (hf.room hget hroom)

/-- Only the clock and the number of the requests change. -/
theorem ask_eq (arpe : TnArpentry) (time3 time4 : Nat) :
    ∃ rtExpire laAsked, ask arpe time3 time4 = { arpe with rtExpire := rtExpire, laAsked := laAsked } := by
  unfold ask
  split
  · split <;> exact ⟨_, _, rfl⟩
  · exact ⟨_, _, rfl⟩

/-- The chain waits in the entry, the one that was there before is freed. -/
theorem arpResolve_inv {mb : ArpMb} {time1 time2 time3 time4 : Nat} (hi : TableInv s)
    (hnew : mb.id ∉ s.taken) : TableInv (s.arpResolve mb ip time1 time2 time3 time4).1 := by
  have hi0 : TableInv { s with now := time4 } := ⟨hi.places, hi.nodup, hi.single⟩
  have hnodup : ([mb.id] ++ s.taken).Nodup := List.nodup_cons.mpr ⟨hnew, hi.nodup⟩
  unfold ArpTable.arpResolve
  dsimp only
  split
  · exact hi0
  · cases hl : arpLookup s.arpArr ip true time1 with
    | none =>
      refine ⟨fun x => ?_, hnodup, hi.single⟩
      have := hi.places x
      simp only [List.count_append, List.count_cons, List.count_nil]
      omega
    | some r =>
      obtain ⟨idx, arr, fr⟩ := r
      dsimp only
      have hf := arpLookup_spec hl
      obtain ⟨arpe, hget, hgetD, -⟩ := hf.get
      have hi1 := hf.inv (s := { s with now := time4 }) hi0
      rw [hgetD]
      split
      · exact hi1
      · obtain ⟨rtExpire, laAsked, hask⟩ := ask_eq { arpe with laHold := some mb.id } time3 time4
        rw [hask]
        have h := hi1.change { arpe with laHold := some mb.id, rtExpire := rtExpire, laAsked := laAsked } []
          arpe.laHold.toList [mb.id] hget (hi1.single.alone hget rfl id) hnodup
          (by
            intro x
            simp only [Option.toList_some, List.count_nil]
            omega)
        simpa using h

/-! ## Aging -/

theorem count_ageAll (clk : Nat → Nat) (i mb : Nat) :
    (holds (ageAll clk i arr).1).count mb + (ageAll clk i arr).2.count mb = (holds arr).count mb := by
  induction arr generalizing i with
  | nil => rfl
  | cons e l ih =>
    have := ih (i + 1)
    unfold ageAll
    dsimp only
    split
    · simp only [holds_cons, List.count_append, Option.toList_none, List.count_nil]
      omega
    · simp only [holds_cons, List.count_append]
      omega

/-- An entry is kept, or it is free. -/
theorem ageAll_get (clk : Nat → Nat) {i k : Nat} {e : TnArpentry} (h : (ageAll clk i arr).1[k]? = some e) :
    arr[k]? = some e ∨ e = {} := by
  induction arr generalizing i k with
  | nil => simp [ageAll] at h
  | cons a l ih =>
    unfold ageAll at h
    dsimp only at h
    cases k with
    | zero =>
      split at h
      · exact .inr (by simpa using h.symm)
      · exact .inl (by simpa using h)
    | succ k =>
      refine ih (i := i + 1) ?_
      split at h <;> simpa using h

theorem single_ageAll (clk : Nat → Nat) (h : Single arr) : Single (ageAll clk 0 arr).1 := by
  intro i j a b ha hb hfa hfb heq
  rcases ageAll_get clk ha with ha | rfl
  · rcases ageAll_get clk hb with hb | rfl
    · exact h i j a b ha hb hfa hfb heq
    · exact absurd rfl hfb
  · exact absurd rfl hfa

theorem arpTimerFunc_inv {cnt later : Nat} {clk : Nat → Nat} (hi : TableInv s) :
    TableInv (s.arpTimerFunc cnt clk later) := by
  unfold ArpTable.arpTimerFunc
  split
  · refine ⟨fun mb => ?_, hi.nodup, ?_⟩
    · have h1 := hi.places mb
      have h2 := @count_ageAll s.arpArr clk 0 mb
      simp only [List.count_append]
      omega
    · exact single_ageAll clk hi.single
  · exact hi

/-! ## Runs -/

theorem step_inv {ev : ArpEvent} (hi : TableInv s) (hp : Passed s ev) (hh : Headed s ev) :
    TableInv (s.step ev).1 := by
  cases ev with
  | input pkt myaddr room time1 time2 => exact arpInput_inv hi hh
  | resolve mb ip time1 time2 time3 time4 => exact arpResolve_inv hi hp
  | timer cnt clk later => exact arpTimerFunc_inv hi

/-- **The chains.**  In every run in which every chain that waits gets its header, each chain is in one
    place, and the table has one entry in use for an address. -/
theorem table_owned (nelem : Nat) (es : List ArpEvent)
    (hg : Machine.Guarded arpMachine (fun s ev => Passed s ev ∧ Headed s ev)
      (some (ArpTable.start nelem)) es) :
    ∀ s, (Machine.run arpMachine (some (ArpTable.start nelem)) es).1 = some s → Owned s := by
  have hrun := Machine.run_invariant TableInv (fun _ => True) ?_ ?_ hg
  · exact fun s hs => (hrun.1 s hs).owned
  · intro s ev hi hc
    refine ⟨fun s' h => ?_, fun _ _ => trivial⟩
    cases h
    exact step_inv hi hc.1 hc.2
  · intro s h
    cases h
    exact start_inv nelem

/-- A packet to 192.168.0.1 waits for its address. -/
def waitsFor : ArpEvent := .resolve ⟨7, false, false⟩ 0xC0A80001 1 1 1 1

/-- The reply of 192.168.0.1. -/
def replies (room : Bool) : ArpEvent :=
  .input ⟨false, 0x0250C2000001, 0xC0A80001, 0xC0A80002⟩ 0xC0A80002 room 2 2

/-- The packet is sent when the reply arrives. -/
theorem table_owned_small :
    ∃ s, (Machine.run arpMachine (some (ArpTable.start 4)) [waitsFor, replies true]).1 = some s ∧
    Owned s := by
  obtain ⟨s, hs⟩ :=
    Machine.run_total arpMachine (fun s ev => ⟨_, rfl⟩) (ArpTable.start 4) [waitsFor, replies true]
  refine ⟨s, hs, table_owned 4 [waitsFor, replies true] ⟨⟨?_, trivial⟩, ⟨trivial, .inr ?_⟩,
    trivial⟩ s hs⟩
  · exact List.not_mem_nil
  · unfold Sole
    decide +kernel

/-- Without a block for its header it is freed, and still waits. -/
theorem freed_and_held :
    ¬ ∀ (nelem : Nat) (es : List ArpEvent), 2 ≤ nelem →
      Machine.Guarded arpMachine (fun s ev => Clock s ev ∧ Passed s ev) (some (ArpTable.start nelem)) es →
      ∀ s, (Machine.run arpMachine (some (ArpTable.start nelem)) es).1 = some s → Owned s := by
  intro h
  have hclock : Clock ((ArpTable.start 4).step waitsFor).1 (replies false) :=
    ⟨by decide +kernel, Nat.le_refl 2, by decide⟩
  have ho : Owned _ := h 4 [waitsFor, replies false] (by decide)
    ⟨⟨by simp [Clock, waitsFor, ArpTable.start], List.not_mem_nil⟩, ⟨hclock, trivial⟩,
      trivial⟩ _ rfl
  exact absurd (ho.once 7 (by decide +kernel)) (by decide +kernel)

end TnNet.Arp
