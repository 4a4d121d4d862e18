import Mathlib.Data.List.Basic
import Mathlib.Data.Nat.Bitwise

/-!
# Dotted addresses

`ip4_str_to_num` and `ip4_num_to_str` of `tn_net_utils.c`.  The scanner passes over blanks and tabs
wherever they stand, also between two digits; what is left it reads as four numbers with dots between
them.

* `scanLoop_iff` — the loop accepts, from any state, what completes the fields it has begun (`Completes`).
* `dotted_quad_exact` — a string that does not begin with a dot is accepted exactly when it is a dotted
  quad without its blanks, and then its value is stored; the output of `ip4_num_to_str` is read back.
-/

set_option autoImplicit false

namespace TnNet.Dotted

/-! ## The model -/

/-- A string of C: the characters in front of the terminating null character. -/
structure CString where
  chars : List Char
  noNul : Char.ofNat 0 ∉ chars

def isBlank (ch : Char) : Bool := decide (ch = ' ') || decide (ch = Char.ofNat 9)

def isDigit (ch : Char) : Bool := decide (0x30 ≤ ch.toNat) && decide (ch.toNat ≤ 0x39)

/-- `atoi`, for digits. -/
def atoi (s : List Char) : Nat := s.foldl (fun n ch => 10 * n + (ch.toNat - 0x30)) 0

/-- The variables of the loop; `digit_cnt` is the length of `digArr`. -/
structure Scan where
  digArr : List Char := []
  dotCnt : Nat := 0
  state : Nat := 0
  res : BitVec 32 := 0

/-- The loop of `ip4_str_to_num`: the value, or none for `FALSE`. -/
def scanLoop : List Char → Scan → Option (BitVec 32)
  | [], x =>
    -- the end of the string
    if 0 < x.digArr.length ∧ x.state = 3 then
      let val := atoi x.digArr
      if 255 < val then none
      else some (x.res ||| BitVec.ofNat 32 val)
    else none
  | ch :: s, x =>
    if isBlank ch then scanLoop s x
    else if isDigit ch then
      let x := { x with dotCnt := 0, digArr := x.digArr ++ [ch] }
      if 3 < x.digArr.length then none
      else scanLoop s x
    else if ch = '.' then
      if 1 < x.dotCnt + 1 then none
      else
        let val := atoi x.digArr
        let x := { x with dotCnt := x.dotCnt + 1, digArr := [] }
        if 255 < val then none
        else
          match x.state with
          | 0 => scanLoop s { x with state := 1, res := x.res ||| BitVec.ofNat 32 val <<< 24 }
          | 1 => scanLoop s { x with state := 2, res := x.res ||| BitVec.ofNat 32 val <<< 16 }
          | 2 => scanLoop s { x with state := 3, res := x.res ||| BitVec.ofNat 32 val <<< 8 }
          | _ => none
    else none

/-- `ip4_str_to_num`: the value, and what is in `*ip4_addr`. -/
def ip4StrToNum (str : CString) (ip4Addr : BitVec 32) : Bool × BitVec 32 :=
  match scanLoop str.chars {} with
  | some res => (true, res)
  | none => (false, ip4Addr)

/-- A byte of the address. -/
def byteOf (ip4Addr : BitVec 32) (shift : Nat) : Nat := (ip4Addr >>> shift &&& 0xFF).toNat

/-- The four numbers in the format of `ip4_num_to_str`; `Nat.toDigits` is the loop of `%d`. -/
def numText (ip4Addr : BitVec 32) : List Char :=
  Nat.toDigits 10 (byteOf ip4Addr 24) ++ '.' :: (Nat.toDigits 10 (byteOf ip4Addr 16) ++ '.' ::
    (Nat.toDigits 10 (byteOf ip4Addr 8) ++ '.' :: Nat.toDigits 10 (byteOf ip4Addr 0)))

/-- The characters without the blanks. -/
def strip (s : List Char) : List Char := s.filter fun ch => !isBlank ch

/-- A field: one to three digits with a value up to 255. -/
structure IsField (f : List Char) : Prop where
  digits : ∀ ch ∈ f, isDigit ch = true
  pos : 0 < f.length
  short : f.length ≤ 3
  value : atoi f ≤ 255

/-- Four fields with dots between them, the first one for the most significant byte. -/
def IsQuad (s : List Char) (x : BitVec 32) : Prop :=
  ∃ a b c d, IsField a ∧ IsField b ∧ IsField c ∧ IsField d ∧
    s = a ++ '.' :: (b ++ '.' :: (c ++ '.' :: d)) ∧
    x = BitVec.ofNat 32 (atoi a * 2 ^ 24 + atoi b * 2 ^ 16 + atoi c * 2 ^ 8 + atoi d)

/-! ## The loop -/

/-- From a state with the digits `ds`, and `n` fields behind the one they belong to, the string
    completes the fields with the value `v`. -/
def Completes : Nat → List Char → List Char → BitVec 32 → Prop
  | 0, ds, s, v => IsField (ds ++ s) ∧ v = BitVec.ofNat 32 (atoi (ds ++ s))
  | n + 1, ds, s, v => ∃ f t v', s = f ++ '.' :: t ∧ IsField (ds ++ f) ∧ Completes n [] t v' ∧
      v = BitVec.ofNat 32 (atoi (ds ++ f)) <<< (8 * (n + 1)) ||| v'

variable {ds f s t : List Char} {ch : Char} {n : Nat} {v : BitVec 32}

theorem scanLoop_strip (s : List Char) (x : Scan) : scanLoop (strip s) x = scanLoop s x := by
  induction s generalizing x with
  | nil => rfl
  | cons ch s ih =>
    unfold strip at ih ⊢
    cases hb : isBlank ch with
    | true => rw [List.filter_cons, hb, scanLoop, hb, if_pos rfl]; exact ih x
    | false =>
      rw [List.filter_cons, hb]
      simp only [Bool.not_false, if_true, scanLoop, ih]

/-- A digit belongs to the current field. -/
theorem completes_digit (hd : isDigit ch = true) : Completes n ds (ch :: s) v ↔
    Completes n (ds ++ [ch]) s v := by
  have hdot : ch ≠ '.' := by
    rintro rfl
    exact absurd hd (by decide)
  cases n with
  | zero => simp [Completes]
  | succ n =>
    constructor
    · rintro ⟨f, t, v', h1, h2, h3, h4⟩
      cases f with
      | nil =>
        rw [List.nil_append, List.cons.injEq] at h1
        exact absurd h1.1 hdot
      | cons c f =>
        rw [List.cons_append, List.cons.injEq] at h1
        obtain ⟨rfl, rfl⟩ := h1
        exact ⟨f, t, v', rfl, by simpa using h2, h3, by simpa using h4⟩
    · rintro ⟨f, t, v', rfl, h2, h3, h4⟩
      exact ⟨ch :: f, t, v', rfl, by simpa using h2, h3, by simpa using h4⟩

/-- A dot ends it. -/
theorem completes_dot : Completes (n + 1) ds ('.' :: s) v ↔
    IsField ds ∧ ∃ v', Completes n [] s v' ∧ v = BitVec.ofNat 32 (atoi ds) <<< (8 * (n + 1)) ||| v' := by
  constructor
  · rintro ⟨f, t, v', h1, h2, h3, h4⟩
    cases f with
    | nil =>
      rw [List.nil_append, List.cons.injEq] at h1
      rw [List.append_nil] at h2 h4
      exact ⟨h2, v', h1.2 ▸ h3, h4⟩
    | cons c f =>
      rw [List.cons_append, List.cons.injEq] at h1
      have hc := h2.digits c (by simp)
      rw [← h1.1] at hc
      exact absurd hc (by decide)
  · rintro ⟨h1, v', h2, h3⟩
    exact ⟨[], s, v', rfl, by simpa using h1, h2, by simpa using h3⟩

/-- No other character can follow, and no dot behind the last field. -/
theorem not_completes (hd : isDigit ch = false) (hn : ch = '.' → n = 0) : ¬ Completes n ds (ch :: s) v := by
  have key : ∀ f, IsField (ds ++ ch :: f) → False := fun f hf => by
    have hc := hf.digits ch (by simp)
    rw [hd] at hc
    cases hc
  cases n with
  | zero => exact fun h => key s h.1
  | succ n =>
    rintro ⟨f, t, v', h1, h2, -, -⟩
    cases f with
    | nil =>
      rw [List.nil_append, List.cons.injEq] at h1
      exact absurd (hn h1.1) (by omega)
    | cons c f =>
      rw [List.cons_append, List.cons.injEq] at h1
      rw [← h1.1] at h2
      exact key f h2

theorem not_completes_nil : ¬ Completes (n + 1) ds [] v := by
  rintro ⟨f, t, v', h1, -⟩
  simp at h1

/-- A field that has become too long. -/
theorem Completes.short (h : Completes n ds s v) : ds.length ≤ 3 := by
  cases n with
  | zero =>
    have hs := h.1.short
    rw [List.length_append] at hs
    omega
  | succ n =>
    obtain ⟨f, t, v', -, h2, -⟩ := h
    have hs := h2.short
    rw [List.length_append] at hs
    omega

/-- The states of the loop with `n` fields behind the current one.  At the beginning, and only there, it
    has neither a digit nor a dot. -/
structure ScanInv (x : Scan) (n : Nat) : Prop where
  state : x.state + n = 3
  digits : ∀ ch ∈ x.digArr, isDigit ch = true
  short : x.digArr.length ≤ 3
  dot : x.dotCnt = 0 ∨ x.dotCnt = 1 ∧ x.digArr = []

variable {x : Scan}

theorem ScanInv.isField_iff (hx : ScanInv x n) :
    IsField x.digArr ↔ 0 < x.digArr.length ∧ atoi x.digArr ≤ 255 :=
  ⟨fun h => ⟨h.pos, h.value⟩, fun h => ⟨hx.digits, h.1, hx.short, h.2⟩⟩

/-- The end of the string. -/
theorem scanLoop_nil (hx : ScanInv x n) (r : BitVec 32) :
    scanLoop [] x = some r ↔ ∃ v, Completes n x.digArr [] v ∧ r = x.res ||| v := by
  have hstate := hx.state
  unfold scanLoop
  cases n with
  | zero =>
    simp only [Completes, List.append_nil, hx.isField_iff, show x.state = 3 by omega, and_true]
    by_cases hpos : 0 < x.digArr.length
    · rw [if_pos hpos]
      by_cases hval : 255 < atoi x.digArr
      · simp [hval, Nat.not_le.mpr hval]
      · simp [hval, Nat.not_lt.mp hval, hpos, eq_comm]
    · simp [hpos]
  | succ n =>
    rw [if_neg (by omega)]
    refine ⟨nofun, ?_⟩
    rintro ⟨v, hv, -⟩
    exact absurd hv not_completes_nil

/-- The assignments of the `switch`: the field goes to the byte it belongs to. -/
theorem scanLoop_dot (hx : ScanInv x (n + 1)) (h0 : x.dotCnt = 0) (hval : atoi x.digArr ≤ 255) :
    scanLoop ('.' :: s) x = scanLoop s
      { digArr := [], dotCnt := 1, state := x.state + 1
        res := x.res ||| BitVec.ofNat 32 (atoi x.digArr) <<< (8 * (n + 1)) } := by
  have hstate := hx.state
  have hn : n = 0 ∨ n = 1 ∨ n = 2 := by omega
  rw [scanLoop, if_neg (by decide), if_neg (by decide), if_pos rfl, if_neg (by omega)]
  dsimp only
  rw [if_neg (by omega), h0]
  rcases hn with rfl | rfl | rfl
  · simp [show x.state = 2 by omega]
  · simp [show x.state = 1 by omega]
  · simp [show x.state = 0 by omega]

/-- A dot that ends no field is not accepted. -/
theorem scanLoop_dot_none (h : 1 ≤ x.dotCnt ∨ 255 < atoi x.digArr ∨ x.state = 3) :
    scanLoop ('.' :: s) x = none := by
  rw [scanLoop, if_neg (by decide), if_neg (by decide), if_pos rfl]
  dsimp only
  by_cases h1 : 1 < x.dotCnt + 1
  · rw [if_pos h1]
  rw [if_neg h1]
  by_cases h2 : 255 < atoi x.digArr
  · rw [if_pos h2]
  · rw [if_neg h2, show x.state = 3 by omega]
    rfl

/-- **The loop accepts what completes its fields**, by induction on the string. -/
theorem scanLoop_iff (s : List Char) {x : Scan} {n : Nat} (hx : ScanInv x n)
    (hb : ∀ ch ∈ s, isBlank ch = false) (hlead : x.dotCnt = 0 → x.digArr = [] → s.head? ≠ some '.')
    (r : BitVec 32) : scanLoop s x = some r ↔ ∃ v, Completes n x.digArr s v ∧ r = x.res ||| v := by
  induction s generalizing x n with
  | nil => exact scanLoop_nil hx r
  | cons ch s ih =>
    have hbs : ∀ c ∈ s, isBlank c = false := fun c hc => hb c (List.mem_cons_of_mem _ hc)
    have hstate := hx.state
    cases hd : isDigit ch with
    | true =>
      rw [scanLoop, if_neg (by simp [hb ch List.mem_cons_self]), if_pos hd]
      dsimp only
      simp only [completes_digit hd]
      split
      · rename_i hlen
        refine ⟨nofun, ?_⟩
        rintro ⟨v, hv, -⟩
        exact absurd hv.short (by omega)
      · rename_i hlen
        have hx' : ScanInv { x with dotCnt := 0, digArr := x.digArr ++ [ch] } n := by
          refine ⟨hx.state, fun c hc => ?_, Nat.not_lt.mp hlen, .inl rfl⟩
          rcases List.mem_append.mp hc with hc | hc
          · exact hx.digits c hc
          · rw [List.mem_singleton.mp hc]
            exact hd
        exact ih hx' hbs (fun _ h => by simp at h)
    | false =>
      by_cases hdot : ch = '.'
      · subst hdot
        by_cases hend : IsField x.digArr ∧ 0 < n
        · -- the dot ends a field that is not the last one
          obtain ⟨m, rfl⟩ : ∃ m, n = m + 1 := ⟨n - 1, by omega⟩
          have h0 : x.dotCnt = 0 := by
            rcases hx.dot with h | ⟨-, h⟩
            · exact h
            · have hpos := hend.1.pos
              simp [h] at hpos
          have hx' : ScanInv
              { digArr := [], dotCnt := 1, state := x.state + 1
                res := x.res ||| BitVec.ofNat 32 (atoi x.digArr) <<< (8 * (m + 1)) } m :=
            ⟨by dsimp only; omega, nofun, by simp, .inr ⟨rfl, rfl⟩⟩
          rw [scanLoop_dot hx h0 hend.1.value, ih hx' hbs (by simp)]
          simp only [completes_dot, hend.1, true_and]
          constructor
          · rintro ⟨v, h1, h2⟩
            exact ⟨_, ⟨v, h1, rfl⟩, by rw [h2, BitVec.or_assoc]⟩
          · rintro ⟨v, ⟨v', h1, h2⟩, h3⟩
            exact ⟨v', h1, by rw [h3, h2, BitVec.or_assoc]⟩
        · have hnone : scanLoop ('.' :: s) x = none := by
            apply scanLoop_dot_none
            rw [hx.isField_iff] at hend
            by_cases h0 : x.dotCnt = 0
            · have hpos : 0 < x.digArr.length :=
                List.length_pos_iff.mpr fun hnil => hlead h0 hnil rfl
              omega
            · omega
          rw [hnone]
          refine ⟨nofun, ?_⟩
          rintro ⟨v, hv, -⟩
          cases n with
          | zero => exact absurd hv (not_completes hd fun _ => rfl)
          | succ m => exact absurd ⟨(completes_dot.mp hv).1, by omega⟩ hend
      · rw [scanLoop, if_neg (by simp [hb ch List.mem_cons_self]), if_neg (by simp [hd]), if_neg hdot]
        refine ⟨nofun, ?_⟩
        rintro ⟨v, hv, -⟩
        exact absurd hv (not_completes hd fun h => absurd h hdot)

/-! ## The value -/

/-- A field above the ones behind it. -/
theorem or_field {m a y : Nat} (hm : m ≤ 3) (ha : a ≤ 255) (hy : y < 2 ^ (8 * m)) :
    BitVec.ofNat 32 a <<< (8 * m) ||| BitVec.ofNat 32 y = BitVec.ofNat 32 (a * 2 ^ (8 * m) + y) := by
  have hpow : 2 ^ (8 * m) ≤ 2 ^ 24 := Nat.pow_le_pow_right (by decide) (by omega)
  have hmul : a * 2 ^ (8 * m) ≤ 255 * 2 ^ 24 := Nat.mul_le_mul ha hpow
  apply BitVec.eq_of_toNat_eq
  rw [BitVec.toNat_or, BitVec.toNat_shiftLeft, BitVec.toNat_ofNat, BitVec.toNat_ofNat, BitVec.toNat_ofNat,
    Nat.mod_eq_of_lt (by omega : a < 2 ^ 32), Nat.mod_eq_of_lt (by omega : y < 2 ^ 32), Nat.shiftLeft_eq,
    Nat.mod_eq_of_lt (by omega), Nat.mod_eq_of_lt (by omega), ← Nat.shiftLeft_eq,
    Nat.shiftLeft_add_eq_or_of_lt hy]

/-- What completes four fields is a dotted quad. -/
theorem completes_iff_quad {s : List Char} {r : BitVec 32} : Completes 3 [] s r ↔ IsQuad s r := by
  have hval : ∀ {a b c d : List Char}, IsField a → IsField b → IsField c → IsField d →
      BitVec.ofNat 32 (atoi a) <<< (8 * 3) ||| (BitVec.ofNat 32 (atoi b) <<< (8 * 2) |||
        (BitVec.ofNat 32 (atoi c) <<< (8 * 1) ||| BitVec.ofNat 32 (atoi d))) =
      BitVec.ofNat 32 (atoi a * 2 ^ 24 + atoi b * 2 ^ 16 + atoi c * 2 ^ 8 + atoi d) := by
    intro a b c d ha hb hc hd
    have h1 := ha.value
    have h2 := hb.value
    have h3 := hc.value
    have h4 := hd.value
    rw [or_field (by omega) h3 (by omega), or_field (by omega) h2 (by omega),
      or_field (by omega) h1 (by omega)]
    refine congrArg (BitVec.ofNat 32) ?_
    simp only [Nat.reduceMul]
    omega
  constructor
  · rintro ⟨a, t1, v1, rfl, ha,
      ⟨b, t2, v2, rfl, hb, ⟨c, d, v3, rfl, hc, ⟨hd, rfl⟩, rfl⟩, rfl⟩, rfl⟩
    exact ⟨a, b, c, d, ha, hb, hc, hd, rfl, hval ha hb hc hd⟩
  · rintro ⟨a, b, c, d, ha, hb, hc, hd, rfl, rfl⟩
    exact ⟨a, _, _, rfl, ha, ⟨b, _, _, rfl, hb, ⟨c, d, _, rfl, hc, ⟨hd, rfl⟩, rfl⟩, rfl⟩,
      (hval ha hb hc hd).symm⟩

theorem strip_not_blank {s : List Char} {ch : Char} (h : ch ∈ strip s) : isBlank ch = false := by
  simpa using (List.mem_filter.mp h).2

/-- The scanner accepts the dotted quads, blanks apart. -/
theorem scanLoop_iff_quad (s : List Char) (hlead : (strip s).head? ≠ some '.') (r : BitVec 32) :
    scanLoop s {} = some r ↔ IsQuad (strip s) r := by
  have hx : ScanInv {} 3 := ⟨rfl, nofun, by simp, .inl rfl⟩
  rw [← scanLoop_strip, scanLoop_iff (strip s) hx (fun _ h => strip_not_blank h) (fun _ _ => hlead),
    ← completes_iff_quad]
  constructor
  · rintro ⟨v, h, rfl⟩
    rwa [show ({} : Scan).res ||| v = v from BitVec.zero_or]
  · exact fun h => ⟨r, h, (show ({} : Scan).res ||| r = r from BitVec.zero_or).symm⟩

/-! ## The way back -/

theorem byteOf_eq (x : BitVec 32) (shift : Nat) : byteOf x shift = x.toNat / 2 ^ shift % 256 := by
  unfold byteOf
  rw [BitVec.toNat_and, BitVec.toNat_ushiftRight, Nat.shiftRight_eq_div_pow]
  exact Nat.and_two_pow_sub_one_eq_mod _ 8

theorem byteOf_lt (x : BitVec 32) (shift : Nat) : byteOf x shift < 256 := by
  rw [byteOf_eq]
  exact Nat.mod_lt _ (by decide)

/-- A digit in the sense of the code. -/
theorem isDigit_of_char {ch : Char} (h : ch.isDigit = true) : isDigit ch = true := by
  rw [Char.isDigit_iff_toNat] at h
  simpa [isDigit] using h

/-- The digits of a byte are a field that has its value. -/
theorem byte_isField (x : BitVec 32) (shift : Nat) :
    IsField (Nat.toDigits 10 (byteOf x shift)) ∧
    atoi (Nat.toDigits 10 (byteOf x shift)) = byteOf x shift := by
  have hlt := byteOf_lt x shift
  have hval : atoi (Nat.toDigits 10 (byteOf x shift)) = byteOf x shift := Nat.ofDigitChars_ten_toDigits
  refine ⟨⟨fun ch hch => ?_, Nat.length_toDigits_pos, ?_, ?_⟩, hval⟩
  · exact isDigit_of_char (Nat.isDigit_of_mem_toDigits (by decide) (by decide) hch)
  · rw [Nat.length_toDigits_le_iff (by decide) (by decide)]
    omega
  · omega

/-- The characters of the text are digits and dots. -/
theorem numText_chars (x : BitVec 32) : ∀ ch ∈ numText x, isDigit ch = true ∨ ch = '.' := by
  have hb := fun shift => (byte_isField x shift).1.digits
  intro ch hch
  simp only [numText, List.mem_append, List.mem_cons] at hch
  rcases hch with h | h | h | h | h | h | h
  · exact .inl (hb _ ch h)
  · exact .inr h
  · exact .inl (hb _ ch h)
  · exact .inr h
  · exact .inl (hb _ ch h)
  · exact .inr h
  · exact .inl (hb _ ch h)

theorem numText_isQuad (x : BitVec 32) : IsQuad (numText x) x := by
  refine ⟨_, _, _, _, (byte_isField x 24).1, (byte_isField x 16).1, (byte_isField x 8).1,
    (byte_isField x 0).1, rfl, ?_⟩
  rw [(byte_isField x 24).2, (byte_isField x 16).2, (byte_isField x 8).2, (byte_isField x 0).2,
    byteOf_eq, byteOf_eq, byteOf_eq, byteOf_eq]
  apply BitVec.eq_of_toNat_eq
  have := x.isLt
  rw [BitVec.toNat_ofNat]
  omega

/-- `ip4_num_to_str`: at most 17 characters and the terminating null character are written, and there
    are at most
    15. -/
def ip4NumToStr (ip4Addr : BitVec 32) : CString where
  chars := (numText ip4Addr).take 17
  noNul h := by
    rcases numText_chars ip4Addr _ (List.mem_of_mem_take h) with h | h
    · exact absurd h (by decide)
    · exact absurd h (by decide)

theorem ip4NumToStr_chars (x : BitVec 32) : (ip4NumToStr x).chars = numText x := by
  apply List.take_of_length_le
  have h := fun shift => (byte_isField x shift).1.short
  have h1 := h 24
  have h2 := h 16
  have h3 := h 8
  have h4 := h 0
  simp only [numText, List.length_append, List.length_cons]
  omega

theorem strip_numText (x : BitVec 32) : strip (numText x) = numText x := by
  rw [strip, List.filter_eq_self]
  intro ch hch
  rcases numText_chars x ch hch with h | rfl
  · unfold isDigit at h
    unfold isBlank
    rw [Bool.and_eq_true, decide_eq_true_eq, decide_eq_true_eq] at h
    have h1 : ch ≠ ' ' := by
      rintro rfl
      exact absurd h.1 (by decide)
    have h2 : ch ≠ Char.ofNat 9 := by
      rintro rfl
      exact absurd h.1 (by decide)
    simp [h1, h2]
  · decide

/-- The text begins with a digit. -/
theorem numText_head (x : BitVec 32) : (numText x).head? ≠ some '.' := by
  have hf := (byte_isField x 24).1
  unfold numText
  cases hl : Nat.toDigits 10 (byteOf x 24) with
  | nil =>
    have hpos := hf.pos
    rw [hl] at hpos
    exact absurd hpos (by decide)
  | cons c l =>
    rw [List.cons_append, List.head?_cons]
    intro h
    have hc := hf.digits c (by simp [hl])
    rw [Option.some.inj h] at hc
    exact absurd hc (by decide)

/-! ## The result -/

/-- **The scanner is exact, blanks apart.**  A string whose first character behind blanks is no dot is
    accepted, with the value it has, if and only if it is a dotted quad without its blanks; every
    address is read back from its text; and a string that is not accepted changes nothing. -/
theorem dotted_quad_exact (str : CString) (out : BitVec 32) :
    ((strip str.chars).head? ≠ some '.' →
      ∀ x, ip4StrToNum str out = (true, x) ↔ IsQuad (strip str.chars) x) ∧
    (∀ x, ip4StrToNum (ip4NumToStr x) out = (true, x)) ∧
    ((ip4StrToNum str out).1 = false → (ip4StrToNum str out).2 = out) := by
  have hval : ∀ (str : CString) x, ip4StrToNum str out = (true, x) ↔ scanLoop str.chars {} = some x := by
    intro str x
    unfold ip4StrToNum
    cases scanLoop str.chars {} <;> simp
  refine ⟨fun hlead x => ?_, fun x => ?_, fun h => ?_⟩
  · rw [hval, scanLoop_iff_quad _ hlead]
  · rw [hval, ip4NumToStr_chars, scanLoop_iff_quad _ (by rw [strip_numText]; exact numText_head x),
      strip_numText]
    exact numText_isQuad x
  · unfold ip4StrToNum at h ⊢
    cases hs : scanLoop str.chars {} with
    | none => rfl
    | some r =>
      rw [hs] at h
      cases h

/-- The address of a board, with blanks around it. -/
def boardText : CString where
  chars := [' ', '1', '9', '2', '.', '1', '6', '8', '.', '0', ' ', '.', '2']
  noNul := by decide

theorem dotted_quad_exact_board :
    ((strip boardText.chars).head? ≠ some '.' →
      ∀ x, ip4StrToNum boardText 0 = (true, x) ↔ IsQuad (strip boardText.chars) x) ∧
    (∀ x, ip4StrToNum (ip4NumToStr x) 0 = (true, x)) ∧
    ((ip4StrToNum boardText 0).1 = false → (ip4StrToNum boardText 0).2 = 0) :=
  dotted_quad_exact boardText 0

/-- Without the blanks at both ends. -/
def trim (s : List Char) : List Char := ((s.dropWhile isBlank).reverse.dropWhile isBlank).reverse

/-- A dotted quad with blanks only in front of its numbers and behind them. -/
def IsSpacedQuad (s : List Char) : Prop :=
  (s.splitOn '.').length = 4 ∧ ∀ f ∈ s.splitOn '.', IsField (trim f)

/-- **Blanks within a number are passed over.**  The text `1 2.3.4.5` is read as 12.3.4.5. -/
theorem split_number_accepted :
    ∃ str : CString, str.chars = ['1', ' ', '2', '.', '3', '.', '4', '.', '5'] ∧
      ip4StrToNum str 0 = (true, 0x0C030405) ∧ ¬ IsSpacedQuad str.chars := by
  refine ⟨⟨['1', ' ', '2', '.', '3', '.', '4', '.', '5'], by decide⟩, rfl, by decide, ?_⟩
  rintro ⟨-, h⟩
  have hf := h ['1', ' ', '2'] (by decide)
  exact absurd (hf.digits ' ' (by decide)) (by decide)

end TnNet.Dotted
