import TnNet.Pcb.Defs

/-!
# The match `in_pcblookup` returns

The local addresses of a block and of the query are compared when both are given, and so are the foreign
ones together with their ports: a foreign port counts only beside a foreign address.  An address that
only one side gives is a wildcard mismatch.

`in_pcblookup_best` — the block returned has the fewest mismatches of those that agree, and there is
none only when no block qualifies.
-/

set_option autoImplicit false

namespace TnNet.Pcb

/-! ## The model -/

def INPLOOKUP_WILDCARD : BitVec 32 := 1

/-- The arguments of `in_pcblookup`. -/
structure Query where
  faddr : BitVec 32
  fportArg : BitVec 32
  laddr : BitVec 32
  lportArg : BitVec 32
  flags : BitVec 32
  deriving DecidableEq, Repr

namespace Query

/-- `u_short fport = fport_arg`. -/
def fport (q : Query) : BitVec 16 := q.fportArg.setWidth 16

def lport (q : Query) : BitVec 16 := q.lportArg.setWidth 16

def wild (q : Query) : Bool := decide (q.flags &&& INPLOOKUP_WILDCARD ≠ 0)

/-- `in_pcblookup`. -/
def lookup (q : Query) (pcbs : List Inpcb) : Option Nat :=
  inPcblookup pcbs q.faddr q.fport q.laddr q.lport q.wild

end Query

/-! ## Matches -/

/-- Two values agree when both are specified. -/
def BothAgree {n : Nat} (a b : BitVec n) : Prop := a ≠ 0 → b ≠ 0 → a = b

instance {n : Nat} (a b : BitVec n) : Decidable (BothAgree a b) := inferInstanceAs (Decidable (_ → _))

/-- A block agrees with a query: the foreign port belongs to the foreign address. -/
def Agrees (q : Query) (inp : Inpcb) : Prop :=
  BothAgree inp.inpLaddr q.laddr ∧ BothAgree inp.inpFaddr q.faddr ∧
    (inp.inpFaddr ≠ 0 → q.faddr ≠ 0 → inp.inpFport = q.fport)

instance (q : Query) (inp : Inpcb) : Decidable (Agrees q inp) := inferInstanceAs (Decidable (_ ∧ _))

/-- An address that one side gives and the other does not. -/
def mismatch (a b : BitVec 32) : Nat := if a ≠ 0 then (if b = 0 then 1 else 0) else (if b ≠ 0 then 1 else 0)

/-- The wildcard mismatches of a block. -/
def mismatches (q : Query) (inp : Inpcb) : Nat :=
  mismatch inp.inpLaddr q.laddr + mismatch inp.inpFaddr q.faddr

/-- A block with the requested port that agrees, in the sense of `agrees`, without mismatches if they
    are not allowed. -/
structure Qualifies (agrees : Query → Inpcb → Prop) (q : Query) (inp : Inpcb) : Prop where
  port : inp.inpLport = q.lport
  agrees : agrees q inp
  exact : q.wild = false → mismatches q inp = 0

/-- **A best match.** -/
structure BestMatch (agrees : Query → Inpcb → Prop) (q : Query) (pcbs : List Inpcb)
    (r : Option Nat) : Prop where
  found : ∀ i, r = some i → ∃ inp, pcbs[i]? = some inp ∧ Qualifies agrees q inp ∧
    ∀ b ∈ pcbs, b.inpLport = q.lport → agrees q b → mismatches q inp ≤ mismatches q b
  null : r = none ↔ ∀ b ∈ pcbs, ¬ Qualifies agrees q b

variable {q : Query} {inp : Inpcb} {pcbs : List Inpcb} {i matchwild w : Nat} {found : Option Nat}

theorem mismatches_lt (q : Query) (inp : Inpcb) : mismatches q inp < 3 := by
  unfold mismatches mismatch
  split <;> split <;> split <;> split <;> omega

/-- What the body of the loop counts. -/
theorem wildcard_eq_some : wildcard q.faddr q.laddr q.fport q.lport inp = some w ↔
    inp.inpLport = q.lport ∧ Agrees q inp ∧ mismatches q inp = w := by
  have hl : (inp.inpLaddr ≠ 0 ∧ q.laddr ≠ 0 ∧ inp.inpLaddr ≠ q.laddr) ↔
      ¬ BothAgree inp.inpLaddr q.laddr := by
    unfold BothAgree
    grind
  have hf : (inp.inpFaddr ≠ 0 ∧ q.faddr ≠ 0 ∧
      (inp.inpFaddr ≠ q.faddr ∨ inp.inpFport ≠ q.fport)) ↔ ¬ (BothAgree inp.inpFaddr q.faddr ∧
        (inp.inpFaddr ≠ 0 → q.faddr ≠ 0 → inp.inpFport = q.fport)) := by
    unfold BothAgree
    grind
  unfold wildcard
  simp only [hl, hf]
  change (if inp.inpLport ≠ q.lport then none else if ¬ BothAgree inp.inpLaddr q.laddr then none else
    if ¬ (BothAgree inp.inpFaddr q.faddr ∧
      (inp.inpFaddr ≠ 0 → q.faddr ≠ 0 → inp.inpFport = q.fport)) then none
    else some (mismatches q inp)) = some w ↔ _
  unfold Agrees
  split
  · rename_i h
    simp [h]
  · split
    · rename_i h
      simp [h]
    · split
      · rename_i h
        simp only [reduceCtorEq, false_iff]
        tauto
      · simp_all

/-! ## The loop -/

/-- The loop takes a block with `w` mismatches into account. -/
def Counts (q : Query) (inp : Inpcb) (w : Nat) : Prop :=
  wildcard q.faddr q.laddr q.fport q.lport inp = some w ∧ (w ≠ 0 → q.wild = true)

theorem counts_iff : Counts q inp w ↔ Qualifies Agrees q inp ∧ mismatches q inp = w := by
  unfold Counts
  rw [wildcard_eq_some]
  constructor
  · rintro ⟨⟨hport, hagrees, rfl⟩, hwild⟩
    refine ⟨⟨hport, hagrees, fun hw => ?_⟩, rfl⟩
    by_contra hne
    rw [hwild hne] at hw
    cases hw
  · rintro ⟨hq, rfl⟩
    refine ⟨⟨hq.port, hq.agrees, rfl⟩, fun hne => ?_⟩
    by_contra hw
    exact hne (hq.exact (by simpa using hw))

/-- What the loop returns from the place `i` on, when it comes there with `found` and `matchwild`. -/
inductive Least (q : Query) (pcbs : List Inpcb) (i : Nat) (found : Option Nat) (matchwild : Nat) :
    Option Nat → Prop
  | kept (hle : ∀ b ∈ pcbs, ∀ w, Counts q b w → matchwild ≤ w) : Least q pcbs i found matchwild found
  | better {j w : Nat} {inp : Inpcb} (hj : pcbs[j]? = some inp) (hc : Counts q inp w) (hlt : w < matchwild)
      (hle : ∀ b ∈ pcbs, ∀ w', Counts q b w' → w ≤ w') : Least q pcbs i found matchwild (some (i + j))

variable {r : Option Nat}

/-- A block that does not improve the match. -/
theorem Least.skip (h : Least q pcbs (i + 1) found matchwild r)
    (hinp : ∀ w, Counts q inp w → matchwild ≤ w) : Least q (inp :: pcbs) i found matchwild r := by
  cases h with
  | kept hle => exact .kept (List.forall_mem_cons.mpr ⟨hinp, hle⟩)
  | @better j w b hj hc hlt hle =>
    rw [Nat.add_assoc, Nat.add_comm 1]
    refine .better (by simpa using hj) hc hlt (List.forall_mem_cons.mpr ⟨fun w' hw' => ?_, hle⟩)
    exact Nat.le_of_lt (Nat.lt_of_lt_of_le hlt (hinp w' hw'))

/-- A block that becomes the match. -/
theorem Least.take (h : Least q pcbs (i + 1) (some i) w r) (hc : Counts q inp w) (hlt : w < matchwild) :
    Least q (inp :: pcbs) i found matchwild r := by
  have hself : ∀ w', Counts q inp w' → w ≤ w' := by
    intro w' hw'
    have heq := hc.1.symm.trans hw'.1
    rw [Option.some_inj.mp heq]
  cases h with
  | kept hle => exact .better (j := 0) rfl hc hlt (List.forall_mem_cons.mpr ⟨hself, hle⟩)
  | @better j w' b hj hc' hlt' hle =>
    rw [Nat.add_assoc, Nat.add_comm 1]
    refine .better (by simpa using hj) hc' (Nat.lt_trans hlt' hlt)
      (List.forall_mem_cons.mpr ⟨fun w'' hw'' => ?_, hle⟩)
    exact Nat.le_of_lt (Nat.lt_of_lt_of_le hlt' (hself w'' hw''))

theorem lookupLoop_least (q : Query) (pcbs : List Inpcb) : ∀ (i : Nat) (found : Option Nat)
    (matchwild : Nat), Least q pcbs i found matchwild
      (lookupLoop q.faddr q.laddr q.fport q.lport q.wild pcbs i found matchwild) := by
  induction pcbs with
  | nil => exact fun i found matchwild => .kept (by simp)
  | cons inp rest ih =>
    intro i found matchwild
    unfold lookupLoop
    split
    · rename_i hnone
      refine (ih (i + 1) found matchwild).skip fun w hw => ?_
      rw [hw.1] at hnone
      cases hnone
    · rename_i w hw
      have hsame : ∀ w', Counts q inp w' → w' = w := by
        intro w' hw'
        have heq := hw'.1.symm.trans hw
        exact Option.some_inj.mp heq
      split
      · rename_i hwild
        refine (ih (i + 1) found matchwild).skip fun w' hw' => ?_
        have hyes := hw'.2 (by rw [hsame w' hw']; exact hwild.1)
        rw [hwild.2] at hyes
        cases hyes
      · rename_i hwild
        have hc : Counts q inp w := by
          refine ⟨hw, fun hne => ?_⟩
          by_contra hno
          exact hwild ⟨hne, by simpa using hno⟩
        split
        · rename_i hlt
          split
          · rename_i h0
            -- the early exit: no block has fewer mismatches than none
            subst h0
            exact .better (j := 0) rfl hc hlt fun _ _ w' _ => Nat.zero_le w'
          · exact (ih (i + 1) (some i) w).take hc hlt
        · rename_i hge
          refine (ih (i + 1) found matchwild).skip fun w' hw' => ?_
          rw [hsame w' hw']
          exact Nat.le_of_not_lt hge

/-! ## The result -/

/-- **`in_pcblookup` returns a best match.** -/
theorem in_pcblookup_best (q : Query) (pcbs : List Inpcb) : BestMatch Agrees q pcbs (q.lookup pcbs) := by
  have h := lookupLoop_least q pcbs 0 none 3
  change Least q pcbs 0 none 3 (q.lookup pcbs) at h
  generalize q.lookup pcbs = r at h
  cases h with
  | kept hle =>
    refine ⟨fun i hi => absurd hi (by simp), fun _ b hb hq => ?_, fun _ => rfl⟩
    have h3 := hle b hb _ (counts_iff.mpr ⟨hq, rfl⟩)
    exact absurd (mismatches_lt q b) (Nat.not_lt.mpr h3)
  | @better j w inp hj hc hlt hle =>
    obtain ⟨hq, rfl⟩ := counts_iff.mp hc
    refine ⟨fun i hi => ?_, fun hnone => absurd hnone (by simp), fun hall => ?_⟩
    · rw [Nat.zero_add, Option.some.injEq] at hi
      subst hi
      refine ⟨inp, hj, hq, fun b hb hport hagrees => ?_⟩
      by_cases hwild : q.wild = true
      · refine hle b hb _ (counts_iff.mpr ⟨⟨hport, hagrees, fun hw => ?_⟩, rfl⟩)
        rw [hwild] at hw
        cases hw
      · rw [hq.exact (by simpa using hwild)]
        exact Nat.zero_le _
    · exact absurd hq (hall inp (List.mem_of_getElem? hj))

/-- A block agrees with a query in every field by itself, the foreign port among them. -/
def AgreesFields (q : Query) (inp : Inpcb) : Prop :=
  BothAgree inp.inpLaddr q.laddr ∧ BothAgree inp.inpFaddr q.faddr ∧ BothAgree inp.inpFport q.fport

/-- A connected block, and a query for its local port with another foreign port and no foreign address. -/
def otherPort : Query := ⟨0, 1234, 0xC0A80002, 1024, INPLOOKUP_WILDCARD⟩

def portEighty : Inpcb :=
  { inpFaddr := 0xC0A80001, inpLaddr := 0xC0A80002, inpFport := 80, inpLport := 1024 }

/-- The foreign port of a query without a foreign address is not compared. -/
theorem fport_alone_ignored : ¬ ∀ (q : Query) (pcbs : List Inpcb),
    BestMatch AgreesFields q pcbs (q.lookup pcbs) := by
  intro hall
  obtain ⟨inp, hinp, hq, -⟩ := (hall otherPort [portEighty]).found 0 (by decide)
  cases hinp
  have hport := hq.agrees.2.2 (by decide) (by decide)
  revert hport
  decide

end TnNet.Pcb
