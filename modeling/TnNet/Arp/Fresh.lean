import TnNet.Arp.Table

/-!
# How old an answer is

`answers_fresh`: when `arp_resolve` returns an address, the last ARP packet that was accepted from there
has brought it less than `ARP_TIME_KEEP` seconds ago — in every run in which no entry that is solved and
has expired runs out of requests.  After `ARP_MAX_TRIES` requests `rt_expire` is moved on by
`ARP_TIME_DOWN` while the entry is still solved, and its old address is served again: `stale_served`.
-/

set_option autoImplicit false

namespace TnNet.Arp

variable {arr arr' : List TnArpentry} {ip ip' spa : BitVec 32} {mac : Mac} {idx now time nelem : Nat}
  {s : ArpTable} {e : TnArpentry} {hist : List ArpObs} {o : ArpObs} {fr : List Nat}

/-! ## The statement -/

/-- What an ARP packet has brought. -/
def brought (ip : BitVec 32) : ArpObs → Option (Mac × Nat)
  | .accepted ip' mac t => if ip' = ip then some (mac, t) else none
  | .answered .. => none

/-- The last ARP packet that was accepted. -/
def lastAccepted (hist : List ArpObs) (ip : BitVec 32) : Option (Mac × Nat) :=
  hist.reverse.findSome? (brought ip)

/-- An answer is what the last ARP packet has brought, and not too old. -/
def Fresh (hist : List ArpObs) : ArpObs → Prop
  | .answered ip mac t false => ∃ t0, lastAccepted hist ip = some (mac, t0) ∧ t < t0 + ARP_TIME_KEEP
  | _ => True

/-- The condition on a step: there are requests left for an entry that is solved and has expired. -/
def Asks (s : ArpTable) : ArpEvent → Prop
  | .input pkt myaddr _ _ _ =>
    (pkt.short ∨ pkt.sha = etherbroadcastaddr ∨ pkt.spa = myaddr) ∨ Sole s.arpArr pkt.spa
  | .resolve mb arpIpAddr _ time2 time3 _ =>
    (mb.bcast ∨ mb.mcast) ∨ ∀ arpe ∈ s.arpArr.find? (·.itaddr = arpIpAddr),
      arpe.state = .ARP_SOLVED → arpe.permanent = false → arpe.rtExpire ≤ time2 →
      arpe.rtExpire ≠ time3 →
        arpe.laAsked < ARP_MAX_TRIES
  | .timer .. => True

theorem lastAccepted_snoc : lastAccepted (hist ++ [o]) ip = (brought ip o).or (lastAccepted hist ip) := by
  unfold lastAccepted
  rw [List.reverse_append, List.reverse_singleton, List.singleton_append, List.findSome?_cons]
  cases brought ip o <;> rfl

/-! ## The invariant -/

/-- A solved entry has what the last packet has brought, and ends with it or has ended. -/
structure Entry (now : Nat) (hist : List ArpObs) (e : TnArpentry) : Prop where
  permanent : e.permanent = false
  solved : e.state = .ARP_SOLVED → ∃ t0, lastAccepted hist e.itaddr = some (e.macAddr, t0) ∧
    (e.rtExpire ≤ t0 + ARP_TIME_KEEP ∨ e.rtExpire ≤ now)

structure FreshInv (s : ArpTable) (hist : List ArpObs) : Prop where
  entry : ∀ e ∈ s.arpArr, Entry s.now hist e
  single : Single s.arpArr

theorem Entry.later (h : Entry now hist e) (hle : now ≤ time) : Entry time hist e := by
  refine ⟨h.permanent, fun hs => ?_⟩
  obtain ⟨t0, h1, h2⟩ := h.solved hs
  exact ⟨t0, h1, h2.imp_right fun h => Nat.le_trans h hle⟩

/-- Nothing was brought for the entry. -/
theorem Entry.snoc (h : Entry now hist e) (ho : e.state = .ARP_SOLVED → brought e.itaddr o = none) :
    Entry now (hist ++ [o]) e := by
  refine ⟨h.permanent, fun hs => ?_⟩
  rw [lastAccepted_snoc, ho hs, Option.none_or]
  exact h.solved hs

theorem entry_free (now : Nat) (hist : List ArpObs) : Entry now hist {} := ⟨rfl, fun h => nomatch h⟩

theorem entry_new (ip : BitVec 32) (time now : Nat) (hist : List ArpObs) :
    Entry now hist (newEntry ip time) :=
  ⟨rfl, fun h => nomatch h⟩

/-- A new entry is not solved. -/
theorem Found.entry (hf : Found arr ip time idx arr' fr) (h : ∀ e ∈ arr, Entry now hist e) :
    ∀ e ∈ arr', Entry now hist e := by
  cases hf with
  | old arpe get first same none_freed =>
    subst same
    exact h
  | new arpe absent get replaced freed =>
    subst replaced
    intro e he
    rcases List.mem_or_eq_of_mem_set he with he | rfl
    · exact h e he
    · exact entry_new ip time now hist

theorem start_fresh (nelem : Nat) : FreshInv (ArpTable.start nelem) [] := by
  refine ⟨fun e he => ?_, (start_inv nelem).single⟩
  rw [List.eq_of_mem_replicate he]
  exact entry_free _ _

/-! ## The steps -/

/-- What a step leaves, and what it observes. -/
def Kept (hist : List ArpObs) (r : ArpTable × List ArpObs) : Prop :=
  FreshInv r.1 (hist ++ r.2) ∧ (Machine.Throughout Fresh hist → Machine.Throughout Fresh (hist ++ r.2))

theorem kept_nil (hi : FreshInv s hist) : Kept hist (s, []) := by simpa [Kept] using hi

/-- Only the time goes on. -/
theorem FreshInv.later (hi : FreshInv s hist) (hle : s.now ≤ time) : FreshInv { s with now := time } hist :=
  ⟨fun e he => (hi.entry e he).later hle, hi.single⟩

/-- Whether the chain is sent or freed, the entry is set. -/
theorem sendHold_arr (s : ArpTable) (idx : Nat) (arpe : TnArpentry) (room : Bool) :
    (s.sendHold idx arpe room).now = s.now ∧
    ∃ hold, (s.sendHold idx arpe room).arpArr = s.arpArr.set idx { arpe with laHold := hold } := by
  unfold ArpTable.sendHold
  cases ho : arpe.laHold with
  | none => exact ⟨rfl, arpe.laHold, rfl⟩
  | some mb =>
    cases room with
    | true => exact ⟨rfl, none, rfl⟩
    | false => exact ⟨rfl, arpe.laHold, rfl⟩

/-- What was brought for the entry that is set does not concern the others. -/
theorem entry_set {new : TnArpentry} (h : ∀ e ∈ arr, Entry now hist e) (halone : Alone arr idx new)
    (hnew : new.state = .ARP_SOLVED) (ho : ∀ ip, ip ≠ new.itaddr → brought ip o = none)
    (hentry : Entry now (hist ++ [o]) new) : ∀ e ∈ arr.set idx new, Entry now (hist ++ [o]) e := by
  intro e he
  obtain ⟨j, hj⟩ := List.mem_iff_getElem?.mp he
  rw [List.getElem?_set] at hj
  split at hj
  · split at hj
    · cases hj
      exact hentry
    · cases hj
  · rename_i hne
    refine (h e (List.mem_of_getElem? hj)).snoc fun hs => ho _ ?_
    exact halone (by simp [hnew]) j e hj (fun h => hne h.symm) (by simp [hs])

/-- The entry has what the packet has brought; no other one is in use for the address. -/
theorem arpInput_fresh {pkt : ArpPkt} {myaddr : BitVec 32} {room : Bool} {time1 time2 : Nat}
    (hi : FreshInv s hist) (hclock : s.now ≤ time2) (hc : Asks s (.input pkt myaddr room time1 time2)) :
    Kept hist (s.arpInput pkt myaddr room time1 time2) := by
  have hi0 := hi.later hclock
  unfold ArpTable.arpInput
  dsimp only
  split
  · exact kept_nil hi0
  · rename_i hno
    have hsole := hc.resolve_left hno
    cases hl : arpLookup s.arpArr pkt.spa (decide (pkt.tpa = myaddr)) time1 with
    | none => exact kept_nil hi0
    | some r =>
      obtain ⟨idx, arr, fr⟩ := r
      dsimp only
      have hf := arpLookup_spec hl
      obtain ⟨arpe, hget, hgetD, haddr⟩ := hf.get
      rw [hgetD]
      obtain ⟨hnow, hold, harr⟩ :=
        sendHold_arr { s with now := time2, arpArr := arr, freed := s.freed ++ fr } idx
        { arpe with macAddr := pkt.sha, state := .ARP_SOLVED,
                    rtExpire := (time2 + ARP_TIME_KEEP) % 2 ^ 32, laAsked := 0 }
        room
      have hentry := hf.entry hi0.entry
      have halone : Alone arr idx { arpe with
          macAddr := pkt.sha, state := .ARP_SOLVED, rtExpire :=
            (time2 + ARP_TIME_KEEP) % 2 ^ 32, laAsked := 0,
          laHold := hold } := hf.alone hi.single hsole haddr
      refine ⟨⟨?_, ?_⟩, ?_⟩
      · rw [harr, hnow]
        refine entry_set hentry halone rfl (fun x hx => if_neg fun h => hx (h.symm.trans haddr.symm))
          ⟨?_, fun _ => ?_⟩
        · exact (hentry arpe (List.mem_of_getElem? hget)).permanent
        · refine ⟨time2, ?_, .inl (Nat.mod_le _ _)⟩
          rw [lastAccepted_snoc]
          simp [brought, haddr]
      · rw [harr]
        exact (hf.single hi.single).set halone
      · exact fun h => Machine.throughout_snoc h trivial

/-- An entry that is solved was there before. -/
theorem Found.first (hf : Found arr ip time idx arr' fr) (hget : arr'[idx]? = some e)
    (hst : e.state = .ARP_SOLVED) : arr.find? (·.itaddr = ip) = some e := by
  cases hf with
  | old arpe get first same none_freed =>
    subst same
    rw [first, get.symm.trans hget]
  | new arpe absent get replaced freed =>
    subst replaced
    rw [List.getElem?_set_self (List.getElem?_eq_some_iff.mp get).1] at hget
    cases hget
    exact nomatch hst

/-- A request leaves the entry expired. -/
theorem ask_expired {time3 time4 : Nat} (h : e.rtExpire ≤ now) (hle : now ≤ time4)
    (hleft : e.rtExpire ≠ time3 → e.laAsked < ARP_MAX_TRIES) : (ask e time3 time4).rtExpire ≤ time4 := by
  unfold ask
  split
  · rename_i hdue
    have hlt : e.laAsked < ARP_MAX_TRIES := by
      rcases hdue with h0 | hne
      · rw [h0]
        decide
      · exact hleft hne
    exact Nat.le_of_eq (by rw [if_pos hlt])
  · exact Nat.le_trans h hle

/-- What is returned was brought by the last packet. -/
theorem arpResolve_fresh {mb : ArpMb} {time1 time2 time3 time4 : Nat} (hi : FreshInv s hist)
    (hclock : Clock s (.resolve mb ip time1 time2 time3 time4))
    (hc : Asks s (.resolve mb ip time1 time2 time3 time4)) :
    Kept hist (s.arpResolve mb ip time1 time2 time3 time4) := by
  obtain ⟨h1, h2, h3, h4, -⟩ := hclock
  have hle2 : s.now ≤ time2 := by omega
  have hi0 : FreshInv { s with now := time4 } hist := hi.later (by omega)
  unfold ArpTable.arpResolve
  dsimp only
  split
  · exact kept_nil hi0
  · rename_i hno
    have hleft := hc.resolve_left hno
    cases hl : arpLookup s.arpArr ip true time1 with
    | none => exact kept_nil ⟨hi0.entry, hi0.single⟩
    | some r =>
      obtain ⟨idx, arr, fr⟩ := r
      dsimp only
      have hf := arpLookup_spec hl
      obtain ⟨arpe, hget, hgetD, haddr⟩ := hf.get
      have hentry := hf.entry hi.entry
      have harpe := hentry arpe (List.mem_of_getElem? hget)
      rw [hgetD]
      split
      · rename_i hsolved
        obtain ⟨hfresh, hstate⟩ := hsolved
        obtain ⟨t0, ht0, hexp⟩ := harpe.solved hstate
        have hlt : time2 < arpe.rtExpire := by
          rw [harpe.permanent] at hfresh
          simpa using hfresh
        have hle4 : s.now ≤ time4 := by omega
        refine ⟨⟨fun e he => ?_, hf.single hi.single⟩, ?_⟩
        · exact ((hentry e he).later hle4).snoc fun _ => rfl
        · rw [haddr] at ht0
          rw [harpe.permanent]
          exact fun h => Machine.throughout_snoc h ⟨t0, ht0, by omega⟩
      · rename_i hnot
        have hexp : arpe.state = .ARP_SOLVED → arpe.rtExpire ≤ time2 := by
          intro hst
          by_contra hgt
          exact hnot ⟨.inr (by omega), hst⟩
        have hexp2 : arpe.state = .ARP_SOLVED →
            (ask { arpe with laHold := some mb.id } time3 time4).rtExpire ≤ time4 := by
          intro hst
          refine ask_expired (e := { arpe with laHold := some mb.id }) (hexp hst) (by omega) fun hne => ?_
          exact hleft arpe (hf.first hget hst) hst harpe.permanent (hexp hst) hne
        obtain ⟨rtExpire, laAsked, hask⟩ := ask_eq { arpe with laHold := some mb.id } time3 time4
        rw [hask] at hexp2 ⊢
        have hle4 : s.now ≤ time4 := by omega
        refine kept_nil ⟨fun e he => ?_, ?_⟩
        · rcases List.mem_or_eq_of_mem_set he with he | rfl
          · exact (hentry e he).later hle4
          · refine ⟨harpe.permanent, fun hst => ?_⟩
            obtain ⟨t0, ht0, -⟩ := harpe.solved hst
            exact ⟨t0, ht0, .inr (hexp2 hst)⟩
        · exact (hf.single hi.single).set ((hf.single hi.single).alone hget rfl id)

theorem arpTimerFunc_fresh {cnt later : Nat} {clk : Nat → Nat} (hi : FreshInv s hist)
    (hclock : s.now ≤ later) : FreshInv (s.arpTimerFunc cnt clk later) hist := by
  unfold ArpTable.arpTimerFunc
  split
  · refine ⟨fun e he => ?_, single_ageAll clk hi.single⟩
    obtain ⟨k, hk⟩ := List.mem_iff_getElem?.mp he
    rcases ageAll_get clk hk with hk | rfl
    · exact (hi.entry e (List.mem_of_getElem? hk)).later hclock
    · exact entry_free _ _
  · exact hi

/-! ## Runs -/

theorem step_fresh {ev : ArpEvent} (hi : FreshInv s hist) (hclock : Clock s ev) (hc : Asks s ev) :
    Kept hist (s.step ev) := by
  cases ev with
  | input pkt myaddr room time1 time2 => exact arpInput_fresh hi (Nat.le_trans hclock.1 hclock.2.1) hc
  | resolve mb ip time1 time2 time3 time4 => exact arpResolve_fresh hi hclock hc
  | timer cnt clk later =>
    exact kept_nil (arpTimerFunc_fresh hi (Nat.le_trans (hclock.1 0).1 (hclock.1 0).2))

/-- **Fresh answers.**  In every run in which requests are left for the entries that have expired, every
    answer is what the last ARP packet from there has brought, less than `ARP_TIME_KEEP` seconds ago. -/
theorem answers_fresh (nelem : Nat) (es : List ArpEvent)
    (hg : Machine.Guarded arpMachine (fun s ev => Clock s ev ∧ Asks s ev)
      (some (ArpTable.start nelem)) es) :
    Machine.Throughout Fresh (Machine.run arpMachine (some (ArpTable.start nelem)) es).2 := by
  obtain ⟨s', hs'⟩ := Machine.run_total arpMachine (fun s ev => ⟨_, rfl⟩) (ArpTable.start nelem) es
  have h0 : FreshInv (ArpTable.start nelem) [] ∧ Machine.Throughout Fresh [] :=
    ⟨start_fresh nelem, fun h₁ o h₂ h => by simp at h⟩
  have hrun :=
    Machine.run_record (fun s hist => FreshInv s hist ∧ Machine.Throughout Fresh hist) ?_ h0 hg hs'
  · simpa using hrun.2
  · intro s ev hist s1 hi hc h
    cases h
    obtain ⟨hinv, hobs⟩ := step_fresh hi.1 hc.1 hc.2
    exact ⟨hinv, hobs hi.2⟩

/-- An ARP packet of 192.168.0.1. -/
def hears : ArpEvent := .input ⟨false, 0x0250C2000001, 0xC0A80001, 0xC0A80002⟩ 0xC0A80002 true 1 1

/-- A packet to 192.168.0.1, at a time. -/
def sends (id time : Nat) : ArpEvent := .resolve ⟨id, false, false⟩ 0xC0A80001 time time time time

theorem answers_fresh_small :
    Machine.Throughout Fresh
    (Machine.run arpMachine (some (ArpTable.start 4)) [hears, sends 7 1200]).2 := by
  refine answers_fresh 4 [hears, sends 7 1200] ⟨⟨?_, .inr ?_⟩, ⟨?_, .inr ?_⟩, trivial⟩
  · exact ⟨by decide, by decide, by decide⟩
  · unfold Sole
    decide +kernel
  · exact ⟨by decide +kernel, by decide, by decide, by decide, by decide⟩
  · decide +kernel

/-- The entry expires, and six packets are not answered. -/
def silence : List ArpEvent :=
  [hears, sends 0 1201, sends 1 1202, sends 2 1203, sends 3 1204, sends 4 1205, sends 5 1206, sends 6 1207]

theorem sends_passes {id : Nat} (h : s.now ≤ time ∧ time < 2 ^ 32 ∧ id ∉ s.taken) :
    Clock s (sends id time) ∧ Passed s (sends id time) :=
  ⟨⟨h.1, Nat.le_refl _, Nat.le_refl _, Nat.le_refl _, h.2.1⟩, h.2.2⟩

theorem silence_guarded :
    Machine.Guarded arpMachine (fun s ev => Clock s ev ∧ Passed s ev) (some (ArpTable.start 4))
    silence := by
  refine ⟨⟨⟨by decide, by decide, by decide⟩, trivial⟩, sends_passes ?_, sends_passes ?_,
    sends_passes ?_, sends_passes ?_, sends_passes ?_, sends_passes ?_, sends_passes ?_, trivial⟩
  all_goals decide +kernel

/-- The seventh is sent to the old address. -/
theorem stale_served :
    ¬ ∀ (nelem : Nat) (es : List ArpEvent), 2 ≤ nelem →
      Machine.Guarded arpMachine (fun s ev => Clock s ev ∧ Passed s ev) (some (ArpTable.start nelem)) es →
      Machine.Throughout Fresh (Machine.run arpMachine (some (ArpTable.start nelem)) es).2 := by
  intro h
  have hobs : (Machine.run arpMachine (some (ArpTable.start 4)) silence).2 =
      [.accepted 0xC0A80001 0x0250C2000001 1] ++ .answered 0xC0A80001 0x0250C2000001 1207 false :: [] := by
    decide +kernel
  obtain ⟨t0, h1, h2⟩ := h 4 silence (by decide) silence_guarded _ _ _ hobs
  cases h1
  exact absurd h2 (by decide)

end TnNet.Arp
