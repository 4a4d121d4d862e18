import TnNet.Lib.Loop
import TnNet.Tcp.Input

/-!
# TCP options

The loop of `tcp_dooptions` over the memory it reads: `cp` points into the option area, `cnt` bytes of
it are left.  The addresses that are read are recorded.  `tcpDooptions` is the same loop on the list of
the bytes.

`tcp_dooptions_robust` — on an area of any bytes the loop ends, reads bytes of the area only, computes
what `tcpDooptions` does, and changes the connection only for an MSS option of a SYN, to a `t_maxseg`
between 32 and the MTU less the headers.
-/

set_option autoImplicit false

namespace TnNet

open Loop (loop)

/-! ## The model -/

/-- The variables of `tcp_dooptions`, and the addresses read so far. -/
structure OptSt where
  cp : Nat
  cnt : Int
  tp : Tcpcb
  reads : List Nat := []

/-- The `mss` of the option at `cp`: two bytes behind `NTOHS`. -/
def optMss (mem : Nat → UInt8) (cp : Nat) : Nat := (mem (cp + 2)).toNat * 256 + (mem (cp + 3)).toNat

/-- The body of the `for` loop with its update; `cp` is `NULL` when it is 0. -/
def optTurn (syn : Bool) (ifMtu : Int) (mem : Nat → UInt8) (s : OptSt) : OptSt ⊕ OptSt :=
  if s.cp = 0 ∨ s.cnt ≤ 0 then .inr s
  else
    let opt := mem s.cp
    let reads := s.reads ++ [s.cp]
    if opt = 0 then .inr { s with reads }
    else if opt = 1 then .inl { s with cp := s.cp + 1, cnt := s.cnt - 1, reads }
    else if s.cnt < 2 then .inr { s with reads }
    else
      let optlen := (mem (s.cp + 1)).toNat
      let reads := reads ++ [s.cp + 1]
      if optlen < 2 ∨ s.cnt < optlen then .inr { s with reads }
      else
        let s' := { s with cp := s.cp + optlen, cnt := s.cnt - optlen, reads }
        if opt = 2 ∧ optlen = 4 ∧ syn then
          let tp := (tcpMss s.tp (optMss mem s.cp) (some ifMtu)).1
          .inl { s' with tp, reads := reads ++ [s.cp + 2, s.cp + 3] }
        else .inl s'

/-- At most `cnt + 1` turns of `tcp_dooptions`. -/
def dooptions (syn : Bool) (ifMtu : Int) (mem : Nat → UInt8) (cp : Nat) (cnt : Int) (tp : Tcpcb) :
    Option OptSt :=
  loop (optTurn syn ifMtu mem) (cnt.toNat + 1) { cp, cnt, tp }

/-! ## Options -/

/-- The places behind well-formed options: `NOP`, or a kind and a length that counts both. -/
inductive OptionAt (mem : Nat → UInt8) (cp : Nat) : Nat → Prop
  | start : OptionAt mem cp cp
  | nop {p : Nat} : OptionAt mem cp p → mem p = 1 → OptionAt mem cp (p + 1)
  | option {p : Nat} : OptionAt mem cp p → mem p ≠ 0 → mem p ≠ 1 → 2 ≤ (mem (p + 1)).toNat →
      OptionAt mem cp (p + (mem (p + 1)).toNat)

/-- An MSS option among the `cnt` bytes from `cp` on. -/
structure MssOption (mem : Nat → UInt8) (cp : Nat) (cnt : Int) (p : Nat) : Prop where
  place : OptionAt mem cp p
  kind : mem p = 2
  length : mem (p + 1) = 4
  inside : (p : Int) + 4 ≤ cp + cnt

/-- The bytes of the area. -/
def optArea (mem : Nat → UInt8) (cp : Nat) (cnt : Int) : List UInt8 :=
  (List.range cnt.toNat).map fun i => mem (cp + i)

variable {syn : Bool} {ifMtu cnt : Int} {mem : Nat → UInt8} {cp : Nat} {tp : Tcpcb} {s s' : OptSt}

theorem optArea_pos (mem : Nat → UInt8) (cp : Nat) (h : 0 < cnt) :
    optArea mem cp cnt = mem cp :: optArea mem (cp + 1) (cnt - 1) := by
  obtain ⟨n, rfl⟩ : ∃ n : Nat, cnt = n + 1 := ⟨(cnt - 1).toNat, by omega⟩
  unfold optArea
  rw [show ((n : Int) + 1).toNat = n + 1 by omega, show ((n : Int) + 1 - 1).toNat = n by omega,
    List.range_succ_eq_map, List.map_cons, List.map_map]
  simp [Function.comp_def, Nat.add_assoc, Nat.add_comm 1]

theorem optArea_drop (mem : Nat → UInt8) (cp : Nat) (cnt : Int) (n : Nat) :
    (optArea mem cp cnt).drop n = optArea mem (cp + n) (cnt - n) := by
  unfold optArea
  rw [← List.map_drop, show (cnt - n).toNat = cnt.toNat - n by omega]
  apply List.ext_getElem
  · simp
  · intro i h1 h2
    simp [Nat.add_assoc]

@[simp] theorem length_optArea : (optArea mem cp cnt).length = cnt.toNat := by simp [optArea]

/-! ## `tcp_mss` -/

theorem optMss_lt (mem : Nat → UInt8) (cp : Nat) : optMss mem cp < 65536 := by
  have h1 := (mem (cp + 2)).toNat_lt
  have h2 := (mem (cp + 3)).toNat_lt
  unfold optMss
  omega

theorem tcpMss_tMaxseg (tp : Tcpcb) (offer : Nat) (ifMtu : Int) :
    (tcpMss tp offer (some ifMtu)).1.tMaxseg =
      if (tcpMss tp offer (some ifMtu)).2 < tp.tMaxseg ∨ offer ≠ 0 then
        (tcpMss tp offer (some ifMtu)).2.toNat % 65536
      else tp.tMaxseg := by
  have hset : ∀ (c : Prop) [Decidable c] (n : Nat) (cwnd : BitVec 32),
      ({ (if c then { tp with tMaxseg := n } else tp) with sndCwnd := cwnd } : Tcpcb).tMaxseg =
        if c then n else tp.tMaxseg := by
    intro c _ n cwnd
    split <;> rfl
  exact hset _ _ _

/-- The segment size `tcp_mss` computes. -/
theorem tcpMss_bounds (tp : Tcpcb) {offer : Nat} (hmtu : 72 ≤ ifMtu) (ho : offer < 65536) :
    32 ≤ (tcpMss tp offer (some ifMtu)).2 ∧ (tcpMss tp offer (some ifMtu)).2 ≤ ifMtu - 40 ∧
      (offer ≠ 0 → (tcpMss tp offer (some ifMtu)).2 < 65536) := by
  unfold tcpMss
  dsimp only
  split <;> omega

/-- What `tcp_mss` makes of a `t_maxseg` of 16 bits. -/
theorem tcpMss_fits {offer : Nat} (tp : Tcpcb) (hmtu : 72 ≤ ifMtu) (ho : offer < 65536)
    (ht : tp.tMaxseg < 65536) : (tcpMss tp offer (some ifMtu)).1.tMaxseg < 65536 ∧
      ((tcpMss tp offer (some ifMtu)).1.tMaxseg : Int) ≤ ifMtu - 40 ∧
      ((tcpMss tp offer (some ifMtu)).1.tMaxseg = tp.tMaxseg ∨
        32 ≤ (tcpMss tp offer (some ifMtu)).1.tMaxseg) := by
  obtain ⟨h1, h2, h3⟩ := tcpMss_bounds tp hmtu ho
  rw [tcpMss_tMaxseg]
  split
  · omega
  · rename_i hset
    have h4 : offer = 0 := by omega
    have h5 : (tcpMss tp offer (some ifMtu)).2 = ifMtu - 40 := by
      subst h4
      show max (ifMtu - 40) 32 = ifMtu - 40
      omega
    omega

/-! ## The loop on the bytes -/

section Bytes

variable {opt optlen : UInt8} {l body : List UInt8} {f : Nat}

@[simp] theorem dooptionsLoop_nil (f : Nat) : dooptionsLoop syn ifMtu f [] tp = tp := by cases f <;> rfl

theorem dooptionsLoop_eol (f : Nat) : dooptionsLoop syn ifMtu f (0 :: l) tp = tp := by
  cases f with
  | zero => rfl
  | succ f => simp [dooptionsLoop.eq_def]

theorem dooptionsLoop_nop :
    dooptionsLoop syn ifMtu (f + 1) (1 :: l) tp = dooptionsLoop syn ifMtu f l tp := by
  rw [dooptionsLoop.eq_def]
  simp

theorem dooptionsLoop_short (h0 : opt ≠ 0) (h1 : opt ≠ 1) (f : Nat) :
    dooptionsLoop syn ifMtu f [opt] tp = tp := by
  cases f with
  | zero => rfl
  | succ f => simp [dooptionsLoop.eq_def, h0, h1]

theorem dooptionsLoop_bad (h0 : opt ≠ 0) (h1 : opt ≠ 1)
    (hlen : optlen.toNat < 2 ∨ body.length + 2 < optlen.toNat)
    (f : Nat) : dooptionsLoop syn ifMtu f (opt :: optlen :: body) tp = tp := by
  cases f with
  | zero => rfl
  | succ f =>
    rw [dooptionsLoop.eq_def]
    simp only [h0, h1, if_false, List.length_cons]
    rw [if_pos hlen]

theorem dooptionsLoop_option (syn : Bool) (ifMtu : Int) (tp : Tcpcb) (f : Nat) (h0 : opt ≠ 0) (h1 : opt ≠ 1)
    (hlen : ¬ (optlen.toNat < 2 ∨ body.length + 2 < optlen.toNat)) :
    dooptionsLoop syn ifMtu (f + 1) (opt :: optlen :: body) tp =
      dooptionsLoop syn ifMtu f (body.drop (optlen.toNat - 2))
        (if opt = 2 ∧ optlen = 4 ∧ syn then
          (tcpMss tp ((body.getD 0 0).toNat * 256 + (body.getD 1 0).toNat) (some ifMtu)).1
        else tp) := by
  rw [dooptionsLoop.eq_def]
  simp only [h0, h1, if_false, List.length_cons]
  rw [if_neg hlen]

end Bytes

/-! ## A turn -/

/-- The addresses lie in what is left of the area. -/
def Inside (cp : Nat) (cnt : Int) (reads : List Nat) : Prop :=
  ∀ a ∈ reads, cp ≤ a ∧ (a : Int) < cp + cnt

/-- The turn leaves the loop. -/
structure OptLeave (syn : Bool) (ifMtu : Int) (mem : Nat → UInt8) (s : OptSt) (r : List Nat) : Prop where
  turn : optTurn syn ifMtu mem s = .inr { s with reads := s.reads ++ r }
  inside : Inside s.cp s.cnt r
  same : s.cp ≠ 0 → ∀ f, dooptionsLoop syn ifMtu f (optArea mem s.cp s.cnt) s.tp = s.tp

/-- The turn goes on behind an option of `n` bytes. -/
structure OptNext (syn : Bool) (ifMtu : Int) (mem : Nat → UInt8) (s : OptSt) (n : Nat) (r : List Nat)
    (tp : Tcpcb) : Prop where
  turn : optTurn syn ifMtu mem s = .inl ⟨s.cp + n, s.cnt - n, tp, s.reads ++ r⟩
  pos : 0 < n
  le : (n : Int) ≤ s.cnt
  inside : Inside s.cp s.cnt r
  place : ∀ cp, OptionAt mem cp s.cp → OptionAt mem cp (s.cp + n)
  mss : tp = s.tp ∨ syn = true ∧ mem s.cp = 2 ∧ mem (s.cp + 1) = 4 ∧ 4 ≤ s.cnt ∧
    tp = (tcpMss s.tp (optMss mem s.cp) (some ifMtu)).1
  same : ∀ f, dooptionsLoop syn ifMtu (f + 1) (optArea mem s.cp s.cnt) s.tp =
    dooptionsLoop syn ifMtu f (optArea mem (s.cp + n) (s.cnt - n)) tp

theorem optArea_nil (h : cnt ≤ 0) : optArea mem cp cnt = [] := by
  unfold optArea
  rw [show cnt.toNat = 0 by omega]
  rfl

theorem inside_append {r r' : List Nat} : Inside cp cnt (r ++ r') ↔ Inside cp cnt r ∧ Inside cp cnt r' :=
  List.forall_mem_append

/-- A well-formed option. -/
theorem optNext_option (syn : Bool) (ifMtu : Int) (h0 : s.cp ≠ 0) (hcnt : 2 ≤ s.cnt) (heol : mem s.cp ≠ 0)
    (hnop : mem s.cp ≠ 1)
    (hlen : ¬ ((mem (s.cp + 1)).toNat < 2 ∨ s.cnt < (mem (s.cp + 1)).toNat)) :
    ∃ r tp, OptNext syn ifMtu mem s (mem (s.cp + 1)).toNat r tp := by
  have hinside : Inside s.cp s.cnt [s.cp, s.cp + 1] := by
    intro a ha
    simp only [List.mem_cons, List.not_mem_nil, or_false] at ha
    omega
  have harea := optArea_pos mem s.cp (show 0 < s.cnt by omega)
  rw [optArea_pos mem (s.cp + 1) (show 0 < s.cnt - 1 by omega)] at harea
  have hbody : (optArea mem (s.cp + 1 + 1) (s.cnt - 1 - 1)).length = (s.cnt - 1 - 1).toNat := length_optArea
  have hdrop := optArea_drop mem (s.cp + 1 + 1) (s.cnt - 1 - 1) ((mem (s.cp + 1)).toNat - 2)
  rw [show s.cp + 1 + 1 + ((mem (s.cp + 1)).toNat - 2) = s.cp + (mem (s.cp + 1)).toNat by omega,
    show s.cnt - 1 - 1 - ((mem (s.cp + 1)).toNat - 2 : Nat) = s.cnt - (mem (s.cp + 1)).toNat by
  omega] at hdrop
  have hsame := fun f => dooptionsLoop_option syn ifMtu s.tp f heol hnop
    (show ¬ ((mem (s.cp + 1)).toNat < 2 ∨ _ + 2 < (mem (s.cp + 1)).toNat) by rw [hbody]; omega)
  rw [← harea, hdrop] at hsame
  have hlast : ¬ (s.cp = 0 ∨ s.cnt ≤ 0) := by omega
  by_cases hmss : mem s.cp = 2 ∧ mem (s.cp + 1) = 4 ∧ syn = true
  · obtain ⟨hkind, h4, hsyn⟩ := hmss
    have hfour : (mem (s.cp + 1)).toNat = 4 := by rw [h4]; rfl
    have hvalue : (optArea mem (s.cp + 1 + 1) (s.cnt - 1 - 1)).getD 0 0 = mem (s.cp + 2) ∧
        (optArea mem (s.cp + 1 + 1) (s.cnt - 1 - 1)).getD 1 0 = mem (s.cp + 3) := by
      rw [optArea_pos _ _ (by omega), optArea_pos _ _ (by omega)]
      exact ⟨rfl, rfl⟩
    rw [hvalue.1, hvalue.2] at hsame
    refine ⟨[s.cp, s.cp + 1, s.cp + 2, s.cp + 3], (tcpMss s.tp (optMss mem s.cp) (some ifMtu)).1,
      ?_, by omega,
      by omega, ?_, fun _ h => .option h heol hnop (by omega), .inr ⟨hsyn, hkind, h4, by omega, rfl⟩, ?_⟩
    · simp only [optTurn, if_neg hlast, if_neg heol, if_neg hnop, if_neg (show ¬ s.cnt < 2 by omega),
        if_neg hlen]
      rw [if_pos ⟨hkind, hfour, hsyn⟩]
      simp
    · intro a ha
      simp only [List.mem_cons, List.not_mem_nil, or_false] at ha
      omega
    · intro f
      rw [hsame, if_pos ⟨hkind, h4, hsyn⟩]
      rfl
  · refine ⟨[s.cp, s.cp + 1], s.tp, ?_, by omega, by omega, hinside,
      fun _ h => .option h heol hnop (by omega), .inl rfl, ?_⟩
    · simp only [optTurn, if_neg hlast, if_neg heol, if_neg hnop, if_neg (show ¬ s.cnt < 2 by omega),
        if_neg hlen]
      rw [if_neg]
      · simp
      · rintro ⟨h1, h2, h3⟩
        exact hmss ⟨h1, UInt8.toNat_inj.mp h2, h3⟩
    · intro f
      rw [hsame, if_neg hmss]

/-- **What a turn does.** -/
theorem optTurn_cases (syn : Bool) (ifMtu : Int) (mem : Nat → UInt8) (s : OptSt) :
    (∃ r, OptLeave syn ifMtu mem s r) ∨ ∃ n r tp, OptNext syn ifMtu mem s n r tp := by
  by_cases h0 : s.cp = 0 ∨ s.cnt ≤ 0
  · refine .inl ⟨[], ?_, by simp [Inside], fun hcp f => ?_⟩
    · rw [optTurn, if_pos h0, List.append_nil]
    · rw [optArea_nil (by omega), dooptionsLoop_nil]
  have harea := optArea_pos mem s.cp (show 0 < s.cnt by omega)
  have hone : Inside s.cp s.cnt [s.cp] := by
    intro a ha
    rw [List.mem_singleton.mp ha]
    omega
  by_cases heol : mem s.cp = 0
  · refine .inl ⟨[s.cp], ?_, hone, fun _ f => ?_⟩
    · simp only [optTurn, if_neg h0, if_pos heol]
    · rw [harea, heol, dooptionsLoop_eol]
  by_cases hnop : mem s.cp = 1
  · refine .inr ⟨1, [s.cp], s.tp,
      ?_, by omega, by omega, hone, fun _ h => .nop h hnop, .inl rfl, fun f => ?_⟩
    · simp only [optTurn, if_neg h0, if_neg heol, if_pos hnop]
      rfl
    · rw [harea, hnop, dooptionsLoop_nop]
      rfl
  by_cases hcnt : s.cnt < 2
  · refine .inl ⟨[s.cp], ?_, hone, fun _ f => ?_⟩
    · simp only [optTurn, if_neg h0, if_neg heol, if_neg hnop, if_pos hcnt]
    · rw [harea, optArea_nil (by omega), dooptionsLoop_short heol hnop]
  by_cases hlen : (mem (s.cp + 1)).toNat < 2 ∨ s.cnt < (mem (s.cp + 1)).toNat
  · refine .inl ⟨[s.cp, s.cp + 1], ?_, ?_, fun _ f => ?_⟩
    · simp only [optTurn, if_neg h0, if_neg heol, if_neg hnop, if_neg hcnt, if_pos hlen, List.append_assoc,
        List.cons_append, List.nil_append]
    · exact inside_append (r := [s.cp]).mpr ⟨hone, fun a ha => by rw [List.mem_singleton.mp ha]; omega⟩
    · rw [harea, optArea_pos _ _ (by omega), dooptionsLoop_bad heol hnop]
      rw [length_optArea]
      omega
  · obtain ⟨r, tp, h⟩ := optNext_option syn ifMtu (by omega) (by omega) heol hnop hlen
    exact .inr ⟨_, r, tp, h⟩

/-! ## The loop -/

theorem OptionAt.le {p : Nat} (h : OptionAt mem cp p) : cp ≤ p := by
  induction h with
  | start => exact Nat.le_refl cp
  | nop _ _ ih => omega
  | option _ _ _ _ ih => omega

/-- The control block `tp` is what the options of the area make of `tp0`. -/
structure OptResult (syn : Bool) (ifMtu : Int) (mem : Nat → UInt8) (cp : Nat) (cnt : Int)
    (tp0 tp : Tcpcb) : Prop where
  kept : optKept tp = optKept tp0
  mss : tp ≠ tp0 → syn = true ∧ ∃ p, MssOption mem cp cnt p
  short : 72 ≤ ifMtu → tp0.tMaxseg < 65536 → tp.tMaxseg < 65536
  le : 72 ≤ ifMtu → tp0.tMaxseg < 65536 → tp ≠ tp0 → (tp.tMaxseg : Int) ≤ ifMtu - 40
  ge : 72 ≤ ifMtu → tp0.tMaxseg < 65536 → tp.tMaxseg = tp0.tMaxseg ∨ 32 ≤ tp.tMaxseg

theorem OptResult.refl : OptResult syn ifMtu mem cp cnt tp tp :=
  ⟨rfl, fun h => absurd rfl h, fun _ h => h, fun _ _ h => absurd rfl h, fun _ _ => .inl rfl⟩

theorem OptResult.step {tp0 : Tcpcb} {p offer : Nat} (h : OptResult syn ifMtu mem cp cnt tp0 tp)
    (hp : MssOption mem cp cnt p) (hsyn : syn = true) (ho : offer < 65536) :
    OptResult syn ifMtu mem cp cnt tp0 (tcpMss tp offer (some ifMtu)).1 := by
  have hfits := fun (hmtu : 72 ≤ ifMtu) ht => tcpMss_fits tp hmtu ho (h.short hmtu ht)
  refine ⟨(tcpMss_optKept tp offer _).trans h.kept, fun _ => ⟨hsyn, p, hp⟩,
    fun hmtu ht => (hfits hmtu ht).1, fun hmtu ht _ => (hfits hmtu ht).2.1, fun hmtu ht => ?_⟩
  rcases (hfits hmtu ht).2.2 with heq | hge
  · rw [heq]
    exact h.ge hmtu ht
  · exact .inr hge

/-- What every turn keeps. -/
structure OptInv (syn : Bool) (ifMtu : Int) (mem : Nat → UInt8) (cp : Nat) (cnt : Int) (tp : Tcpcb)
    (s : OptSt) : Prop where
  left : (s.cp : Int) + s.cnt = cp + cnt
  place : OptionAt mem cp s.cp
  inside : Inside cp cnt s.reads
  result : OptResult syn ifMtu mem cp cnt tp s.tp
  same : ∃ f, s.cnt.toNat ≤ f ∧ dooptionsLoop syn ifMtu f (optArea mem s.cp s.cnt) s.tp =
    tcpDooptions syn ifMtu (optArea mem cp cnt) tp

theorem OptInv.inside_append (h : OptInv syn ifMtu mem cp cnt tp s) {r : List Nat}
    (hr : Inside s.cp s.cnt r) : Inside cp cnt (s.reads ++ r) := by
  refine TnNet.inside_append.mpr ⟨h.inside, fun a ha => ?_⟩
  have hle := h.place.le
  have hleft := h.left
  have ha' := hr a ha
  omega

theorem OptInv.next (h : OptInv syn ifMtu mem cp cnt tp s) {n : Nat} {r : List Nat} {tp' : Tcpcb}
    (ht : OptNext syn ifMtu mem s n r tp') :
    OptInv syn ifMtu mem cp cnt tp ⟨s.cp + n, s.cnt - n, tp', s.reads ++ r⟩ := by
  obtain ⟨f, hf, hsame⟩ := h.same
  obtain ⟨f, rfl⟩ : ∃ g, f = g + 1 := by
    have := ht.pos
    have := ht.le
    exact ⟨f - 1, by omega⟩
  refine ⟨?_, ht.place cp h.place, h.inside_append ht.inside, ?_, f, ?_, ?_⟩
  · have hleft := h.left
    dsimp only
    push_cast
    omega
  · rcases ht.mss with heq | ⟨hsyn, hkind, hlen, hfour, heq⟩
    · rw [heq]
      exact h.result
    · rw [heq]
      refine h.result.step ⟨h.place, hkind, hlen, ?_⟩ hsyn (optMss_lt mem s.cp)
      have hleft := h.left
      omega
  · have hpos := ht.pos
    dsimp only
    omega
  · rw [← ht.same f]
    exact hsame

theorem OptInv.leave (h : OptInv syn ifMtu mem cp cnt tp s) (hcp : cp ≠ 0) {r : List Nat}
    (ht : OptLeave syn ifMtu mem s r) : s.tp = tcpDooptions syn ifMtu (optArea mem cp cnt) tp := by
  obtain ⟨f, -, hsame⟩ := h.same
  have hle := h.place.le
  rw [← hsame, ht.same (by omega)]

/-- The loop is left with the bytes of the area read, and the options processed. -/
theorem dooptions_result (syn : Bool) (ifMtu : Int) (mem : Nat → UInt8) (cp : Nat) (cnt : Int)
    (tp : Tcpcb) : ∃ s, dooptions syn ifMtu mem cp cnt tp = some s ∧ Inside cp cnt s.reads ∧
      OptResult syn ifMtu mem cp cnt tp s.tp ∧
      (cp ≠ 0 → s.tp = tcpDooptions syn ifMtu (optArea mem cp cnt) tp) := by
  refine Loop.loop_ends (OptInv syn ifMtu mem cp cnt tp) _ (fun s => s.cnt.toNat) ?_ ?_ ?_
    (Nat.lt_succ_self _)
  · intro s s' h hturn
    rcases optTurn_cases syn ifMtu mem s with ⟨r, ht⟩ | ⟨n, r, tp', ht⟩
    · rw [ht.turn] at hturn
      cases hturn
    · rw [ht.turn] at hturn
      cases hturn
      refine ⟨h.next ht, ?_⟩
      have hpos := ht.pos
      have hle := ht.le
      dsimp only
      omega
  · intro s s' h hturn
    rcases optTurn_cases syn ifMtu mem s with ⟨r, ht⟩ | ⟨n, r, tp', ht⟩
    · rw [ht.turn] at hturn
      cases hturn
      exact ⟨h.inside_append ht.inside, h.result, fun hcp => h.leave hcp ht⟩
    · rw [ht.turn] at hturn
      cases hturn
  · refine ⟨rfl, .start, by simp [Inside], .refl, cnt.toNat, Nat.le_refl _, ?_⟩
    rw [tcpDooptions, length_optArea]

/-- **`tcp_dooptions` on any bytes.** -/
theorem tcp_dooptions_robust (syn : Bool) (ifMtu : Int) (mem : Nat → UInt8) (cp : Nat) (cnt : Int)
    (tp : Tcpcb) : ∃ s, dooptions syn ifMtu mem cp cnt tp = some s ∧
      (cp ≠ 0 → s.tp = tcpDooptions syn ifMtu (optArea mem cp cnt) tp) ∧
      (∀ a ∈ s.reads, cp ≤ a ∧ (a : Int) < cp + cnt) ∧
      optKept s.tp = optKept tp ∧
      (s.tp ≠ tp → syn = true ∧ ∃ p, MssOption mem cp cnt p) ∧
      (72 ≤ ifMtu → tp.tMaxseg < 65536 → s.tp ≠ tp →
        (s.tp.tMaxseg ≠ tp.tMaxseg ∨ 32 ≤ tp.tMaxseg → 32 ≤ s.tp.tMaxseg) ∧
        (s.tp.tMaxseg : Int) ≤ ifMtu - 40) := by
  obtain ⟨s, hs, hinside, hr, hsame⟩ := dooptions_result syn ifMtu mem cp cnt tp
  refine ⟨s, hs, hsame, hinside, hr.kept, hr.mss, fun hmtu ht hne => ⟨?_, hr.le hmtu ht hne⟩⟩
  intro hor
  rcases hr.ge hmtu ht with heq | hge
  · rcases hor with hne | hge
    · exact absurd heq hne
    · rw [heq]
      exact hge
  · exact hge

/-- An MSS of 1460 behind a `NOP`, and an option that is cut off. -/
example : (dooptions true 1500 (fun a => [1, 2, 4, 5, 180, 8, 10].getD (a - 100) 0) 100 7 tcpNewtcpcb).map
    (fun s => (s.tp.tMaxseg, s.reads)) = some (1460, [100, 101, 102, 103, 104, 105, 106]) := by
  rfl

end TnNet
