import TnNet.Mem.Sockbuf

/-!
# The invariant of a socket buffer

Two ledgers make up `SbOk`: the bytes, which `contentOf` follows through the calls, and the descriptors,
which come in with a chain or from `mb_get` and are freed or stay in the chain.  Each loop of the source
has one lemma that says what it does to both.
-/

set_option autoImplicit false

namespace TnNet.Mem

variable {sb : Sockbuf} {m chain : List Mbuf} {allocs : List (Option Nat)} {data : List UInt8}
  {obs hist : List Obs} {cc len : Nat}

/-! ## What is seen -/

def Obs.cameIn : Obs → List Nat
  | .passed chain => chain
  | .alloc mb => [mb]
  | _ => []

def Obs.wentOut : Obs → List Nat
  | .free mb => [mb]
  | _ => []

/-- What a call does to the content. -/
def contentBy (content : List UInt8) : Obs → List UInt8
  | .appended bytes => content ++ bytes
  | .dropped len => content.drop len
  | _ => content

/-- The bytes that were put in and not yet taken out. -/
def contentOf (hist : List Obs) : List UInt8 := hist.foldl contentBy []

def addrs (chain : List Mbuf) : List Nat := chain.map Mbuf.addr

/-- Only descriptors move. -/
def Obs.isMove : Obs → Bool
  | .alloc _ => true
  | .free _ => true
  | _ => false

abbrev Moves (before : List Nat) (obs : List Obs) (after : List Nat) : Prop :=
  Ledger Obs.cameIn Obs.wentOut before obs after

@[simp] theorem bytesOf_nil : bytesOf [] = [] := rfl

@[simp] theorem bytesOf_cons (mb : Mbuf) (l : List Mbuf) :
    bytesOf (mb :: l) = mb.mData ++ bytesOf l := List.flatMap_cons

@[simp] theorem bytesOf_append (l l' : List Mbuf) : bytesOf (l ++ l') = bytesOf l ++ bytesOf l' :=
  List.flatMap_append

@[simp] theorem addrs_nil : addrs [] = [] := rfl

@[simp] theorem addrs_cons (mb : Mbuf) (l : List Mbuf) : addrs (mb :: l) = mb.addr :: addrs l := rfl

@[simp] theorem addrs_append (l l' : List Mbuf) : addrs (l ++ l') = addrs l ++ addrs l' :=
  List.map_append

theorem content_moves (h : ∀ o ∈ obs, o.isMove = true) (content : List UInt8) :
    obs.foldl contentBy content = content := by
  induction obs with
  | nil => rfl
  | cons o obs ih =>
    have h1 := h o List.mem_cons_self
    have h2 := ih fun x hx => h x (List.mem_cons_of_mem o hx)
    cases o <;> first | exact h2 | cases h1

theorem not_panic_moves (h : ∀ o ∈ obs, o.isMove = true) : .panic ∉ obs := by
  intro hc
  cases h _ hc

theorem moves_free (addr : Nat) : Moves [addr] [.free addr] [] := by
  intro x
  simp [Obs.cameIn, Obs.wentOut]

theorem moves_alloc (addr : Nat) : Moves [] [.alloc addr] [addr] := by
  intro x
  simp [Obs.cameIn, Obs.wentOut]

theorem moves_freem (chain : List Mbuf) : Moves (addrs chain) (mFreem chain) [] := by
  induction chain with
  | nil => exact .refl []
  | cons mb l ih => exact (moves_free mb.addr).append ih

theorem isMove_freem (chain : List Mbuf) : ∀ o ∈ mFreem chain, o.isMove = true := by
  intro o ho
  obtain ⟨mb, -, rfl⟩ := List.mem_map.mp ho
  rfl

theorem isMove_cons {o : Obs} (ho : o.isMove = true) (h : ∀ x ∈ obs, x.isMove = true) :
    ∀ x ∈ o :: obs, x.isMove = true := by
  intro x hx
  rcases List.mem_cons.mp hx with rfl | hx
  · exact ho
  · exact h x hx

/-! ## `sbcompress` -/

/-- What the loop of `sbcompress` does. -/
structure Compressed (m : List Mbuf) (sb : Sockbuf) (r : Sockbuf × List Obs) : Prop where
  bytes : bytesOf r.1.sbMb = bytesOf sb.sbMb ++ bytesOf m
  cc : r.1.sbCc = sb.sbCc + (bytesOf m).length
  moves : Moves (addrs sb.sbMb ++ addrs m) r.2 (addrs r.1.sbMb)
  kept : (addrs r.1.sbMb).Sublist (addrs sb.sbMb ++ addrs m)
  only : ∀ o ∈ r.2, o.isMove = true

/-- A descriptor is freed, and the loop goes on. -/
theorem Compressed.free {mb : Mbuf} {rest : List Mbuf} {sb' : Sockbuf} {r : Sockbuf × List Obs}
    (h : Compressed rest sb' r) (hb : bytesOf sb'.sbMb = bytesOf sb.sbMb ++ mb.mData)
    (hc : sb'.sbCc = sb.sbCc + mb.mLen) (ha : addrs sb'.sbMb = addrs sb.sbMb) :
    Compressed (mb :: rest) sb (r.1, .free mb.addr :: r.2) := by
  constructor
  case bytes => rw [h.bytes, hb, bytesOf_cons, List.append_assoc]
  case cc =>
    rw [h.cc, hc, bytesOf_cons, List.length_append, Nat.add_assoc]
    rfl
  case moves =>
    have h1 : Moves ([mb.addr] ++ (addrs sb.sbMb ++ addrs rest)) ([.free mb.addr] ++ r.2)
        ([] ++ addrs r.1.sbMb) := by
      rw [← ha]
      exact (moves_free mb.addr).append h.moves
    refine h1.perm_held ?_ (List.Perm.refl _)
    rw [addrs_cons, List.singleton_append]
    exact List.perm_middle.symm
  case kept =>
    rw [← ha]
    exact h.kept.trans ((List.Sublist.refl _).append (List.sublist_cons_self _ _))
  case only => exact isMove_cons rfl h.only

/-- A descriptor is linked, and the loop goes on. -/
theorem Compressed.link {mb : Mbuf} {rest : List Mbuf} {r : Sockbuf × List Obs}
    (h : Compressed rest ⟨sb.sbCc + mb.mLen, sb.sbMb ++ [mb]⟩ r) : Compressed (mb :: rest) sb r := by
  constructor
  case bytes =>
    rw [h.bytes]
    simp
  case cc =>
    rw [h.cc, bytesOf_cons, List.length_append, ← Nat.add_assoc]
    rfl
  case moves =>
    have h1 := h.moves
    simpa using h1
  case kept =>
    have h1 := h.kept
    simpa using h1
  case only => exact h.only

theorem compressLoop_spec (m : List Mbuf) (sb : Sockbuf) : Compressed m sb (compressLoop m sb) := by
  induction m generalizing sb with
  | nil =>
    refine ⟨by simp [compressLoop], by simp [compressLoop], ?_, by simp [compressLoop],
      by simp [compressLoop]⟩
    rw [addrs_nil, List.append_nil]
    exact .refl _
  | cons mb rest ih =>
    unfold compressLoop
    split
    · rename_i h0
      have hnil : mb.mData = [] := List.length_eq_zero_iff.mp h0
      exact (ih sb).free (by rw [hnil, List.append_nil]) (by rw [h0, Nat.add_zero]) rfl
    split
    · exact (ih _).link
    · rename_i n hn
      split
      · have hlast : sb.sbMb = sb.sbMb.dropLast ++ [n] := by
          rw [List.getLast?_eq_some_iff] at hn
          obtain ⟨l, hl⟩ := hn
          rw [hl, List.dropLast_concat]
        refine (ih _).free ?_ rfl ?_
        · conv_rhs => rw [hlast]
          simp
        · conv_rhs => rw [hlast]
          simp
      · exact (ih _).link

/-! ## The conversion of a large buffer -/

/-- What the loop of `m_hi_to_mid1` does when it comes to its end. -/
structure Converted (allocs : List (Option Nat)) (data : List UInt8) (chain : List Mbuf)
    (r : Option (List Mbuf) × List Obs) (new : List Mbuf) : Prop where
  result : r.1 = some (chain ++ new)
  bytes : bytesOf new = data
  blocks : (addrs new).Sublist (allocs.filterMap id)
  moves : Moves [] r.2 (addrs new)
  enough : ∀ i, i * TNNET_MID1_BUF_SIZE < data.length → (allocs.getD i none).isSome = true

theorem hiToMid1Loop_spec (allocs : List (Option Nat)) (data : List UInt8) (chain : List Mbuf) :
    (∀ o ∈ (hiToMid1Loop allocs data chain).2, o.isMove = true) ∧
      ((∃ new, Converted allocs data chain (hiToMid1Loop allocs data chain) new) ∨
        ((hiToMid1Loop allocs data chain).1 = none ∧
          Moves (addrs chain) (hiToMid1Loop allocs data chain).2 [])) := by
  induction allocs generalizing data chain with
  | nil =>
    unfold hiToMid1Loop
    split
    · rename_i hd
      refine ⟨by simp, .inl ⟨[], ?_⟩⟩
      exact ⟨by simp, hd.symm, by simp, .refl [], fun i hi => by simp [hd] at hi⟩
    · exact ⟨isMove_freem chain, .inr ⟨rfl, moves_freem chain⟩⟩
  | cons o allocs ih =>
    unfold hiToMid1Loop
    split
    · rename_i hd
      refine ⟨by simp, .inl ⟨[], ?_⟩⟩
      exact ⟨by simp, hd.symm, by simp, .refl [], fun i hi => by simp [hd] at hi⟩
    cases o with
    | none => exact ⟨isMove_freem chain, .inr ⟨rfl, moves_freem chain⟩⟩
    | some addr =>
      obtain ⟨honly, hcase⟩ := ih (data.drop TNNET_MID1_BUF_SIZE)
        (chain ++ [⟨addr, true, .MB_MID1, .MB_MID1, 0, data.take TNNET_MID1_BUF_SIZE⟩])
      refine ⟨isMove_cons rfl honly, ?_⟩
      rcases hcase with ⟨new, hnew⟩ | ⟨hnone, hmoves⟩
      · refine .inl
          ⟨⟨addr, true, .MB_MID1, .MB_MID1, 0, data.take TNNET_MID1_BUF_SIZE⟩ :: new, ?_⟩
        constructor
        case result =>
          rw [hnew.result, List.append_assoc]
          rfl
        case bytes => rw [bytesOf_cons, hnew.bytes, List.take_append_drop]
        case blocks => exact List.Sublist.cons_cons addr hnew.blocks
        case moves => exact (moves_alloc addr).append hnew.moves
        case enough =>
          intro i hi
          cases i with
          | zero => rfl
          | succ i =>
            rw [List.getD_cons_succ]
            apply hnew.enough
            rw [List.length_drop]
            rw [Nat.succ_mul] at hi
            omega
      · refine .inr ⟨hnone, ?_⟩
        have h1 := ((moves_alloc addr).frame (addrs chain)).trans
          (hmoves.perm_held (by rw [addrs_append]; exact List.perm_append_comm) (List.Perm.refl _))
        exact h1

/-- `mb_get` has a block for every piece of a large buffer with data. -/
def Converts (mb : Mbuf) (allocs : List (Option Nat)) : Prop :=
  mb.mData ≠ [] ∧
    ∀ i, i * TNNET_MID1_BUF_SIZE < mb.mLen → (allocs.getD i none).isSome = true

/-- A large receive buffer that is converted is alone in its chain. -/
def HiAlone (m : List Mbuf) (allocs : List (Option Nat)) : Prop :=
  ∀ mb rest, m = mb :: rest → mb.dbhdr = true → mb.mDbtype = .MB_HI → Converts mb allocs → rest = []

/-- What the conversion does. -/
structure Ready (m : List Mbuf) (allocs : List (Option Nat)) (r : List Mbuf × List Obs) : Prop where
  bytes : bytesOf r.1 = bytesOf m
  moves : Moves (addrs m) r.2 (addrs r.1)
  blocks : (addrs r.1).Sublist (allocs.filterMap id ++ addrs m)
  only : ∀ o ∈ r.2, o.isMove = true

theorem Ready.same (m : List Mbuf) (allocs : List (Option Nat)) (h : Moves [] obs [])
    (ho : ∀ o ∈ obs, o.isMove = true) : Ready m allocs (m, obs) := by
  refine ⟨rfl, ?_, List.sublist_append_right _ _, ho⟩
  have h1 := h.frame (addrs m)
  simpa using h1

theorem convertHi_ready (h : HiAlone m allocs) : Ready m allocs (convertHi m allocs) := by
  unfold convertHi
  split
  · exact .same [] allocs (.refl []) (by simp)
  rename_i mb rest
  split
  swap
  · exact .same _ allocs (.refl []) (by simp)
  rename_i hhi
  obtain ⟨honly, hcase⟩ := hiToMid1Loop_spec allocs mb.mData []
  unfold mHiToMid1
  rcases hcase with ⟨new, hnew⟩ | ⟨hnone, hmoves⟩
  · have hres := hnew.result
    rw [List.nil_append] at hres
    cases new with
    | nil =>
      -- nothing to copy
      dsimp only
      rw [hres]
      exact .same _ allocs hnew.moves honly
    | cons x new =>
      have hne : mb.mData ≠ [] := by
        intro hc
        unfold hiToMid1Loop at hres
        rw [if_pos hc] at hres
        cases hres
      have hrest : rest = [] := h mb rest rfl hhi.1 hhi.2 ⟨hne, hnew.enough⟩
      subst hrest
      dsimp only
      rw [hres]
      dsimp only
      have hb := hnew.bytes
      have hm := hnew.moves
      have hs := hnew.blocks
      constructor
      case bytes => simpa using hb
      case moves =>
        have h1 : Moves ([] ++ addrs [mb]) ((hiToMid1Loop allocs mb.mData []).2 ++ mFreem [mb])
            (addrs (x :: new) ++ []) := hm.append (moves_freem [mb])
        simpa using h1
      case blocks =>
        have h1 : (addrs (x :: new)).Sublist (allocs.filterMap id ++ addrs [mb]) :=
          hs.trans (List.sublist_append_left _ _)
        simpa using h1
      case only =>
        intro o ho
        rcases List.mem_append.mp ho with ho | ho
        · exact honly o ho
        · exact isMove_freem _ o ho
  · dsimp only
    rw [hnone]
    exact .same _ allocs hmoves honly

/-! ## `sbdrop` -/

/-- What a loop of `sbdrop` leaves. -/
structure Dropped (l : List Mbuf) (bytes : List UInt8) (l' : List Mbuf) (obs : List Obs) : Prop where
  bytes : bytesOf l' = bytes
  moves : Moves (addrs l) obs (addrs l')
  kept : (addrs l').Sublist (addrs l)
  only : ∀ o ∈ obs, o.isMove = true

theorem Dropped.free {mb : Mbuf} {l l' : List Mbuf} {bytes : List UInt8} (h : Dropped l bytes l' obs) :
    Dropped (mb :: l) bytes l' (.free mb.addr :: obs) := by
  constructor
  case bytes => exact h.bytes
  case moves => exact (moves_free mb.addr).append h.moves
  case kept => exact h.kept.trans (List.sublist_cons_self _ _)
  case only => exact isMove_cons rfl h.only

theorem dropLoop_spec (l : List Mbuf) (hlen : len ≤ (bytesOf l).length)
    (hcc : cc = (bytesOf l).length) :
    Dropped l ((bytesOf l).drop len) (dropLoop l len cc).1.sbMb (dropLoop l len cc).2 ∧
      (dropLoop l len cc).1.sbCc = cc - len := by
  induction l generalizing len cc with
  | nil =>
    have h0 : len = 0 := Nat.le_zero.mp hlen
    subst h0
    refine ⟨⟨by simp [dropLoop], .refl [], by simp [dropLoop], by simp [dropLoop]⟩, by simp [dropLoop]⟩
  | cons mb l ih =>
    rw [bytesOf_cons, List.length_append] at hlen hcc
    unfold dropLoop
    split
    · rename_i h0
      subst h0
      exact ⟨⟨rfl, .refl _, List.Sublist.refl _, by simp⟩, rfl⟩
    split
    · rename_i hlt
      refine ⟨⟨?_, .refl _, List.Sublist.refl _, by simp⟩, rfl⟩
      rw [bytesOf_cons, bytesOf_cons, List.drop_append_of_le_length (Nat.le_of_lt hlt)]
    · rename_i h0 hge
      have hge' : mb.mData.length ≤ len := Nat.not_lt.mp hge
      have hlen' : len - mb.mLen ≤ (bytesOf l).length := by unfold Mbuf.mLen; omega
      have hcc' : cc - mb.mLen = (bytesOf l).length := by unfold Mbuf.mLen; omega
      obtain ⟨h1, h2⟩ := ih hlen' hcc'
      refine ⟨?_, ?_⟩
      · have hd : (bytesOf (mb :: l)).drop len = (bytesOf l).drop (len - mb.mLen) := by
          rw [bytesOf_cons, List.drop_append, List.drop_eq_nil_of_le hge', List.nil_append]
          rfl
        rw [hd]
        exact h1.free
      · rw [h2]
        unfold Mbuf.mLen
        omega

theorem dropEmpty_spec (l : List Mbuf) :
    Dropped l (bytesOf l) (dropEmpty l).1 (dropEmpty l).2 ∧
      (bytesOf l = [] → (dropEmpty l).1 = []) := by
  induction l with
  | nil => exact ⟨⟨rfl, .refl [], List.Sublist.refl _, by simp [dropEmpty]⟩, fun _ => rfl⟩
  | cons mb l ih =>
    unfold dropEmpty
    split
    · rename_i h0
      have hnil : mb.mData = [] := List.length_eq_zero_iff.mp h0
      rw [bytesOf_cons, hnil, List.nil_append]
      exact ⟨ih.1.free, ih.2⟩
    · rename_i h0
      refine ⟨⟨rfl, .refl _, List.Sublist.refl _, by simp⟩, fun hc => ?_⟩
      rw [bytesOf_cons, List.append_eq_nil_iff] at hc
      exact absurd (List.length_eq_zero_iff.mpr hc.1) h0

/-! ## Runs -/

/-- What a socket buffer promises: `sb_cc` is the length of its content, the content is what was put in
    and not taken out, every descriptor that came in is in the chain or freed, once, and no call has
    panicked. -/
structure SbOk (sb : Sockbuf) (hist : List Obs) : Prop where
  cc : sb.sbCc = (bytesOf sb.sbMb).length
  content : bytesOf sb.sbMb = contentOf hist
  live : (hist.flatMap Obs.cameIn).Perm (hist.flatMap Obs.wentOut ++ addrs sb.sbMb)
  once : (addrs sb.sbMb).Nodup
  panics : .panic ∉ hist

/-- The callers own what they pass: the descriptors of the chain, the blocks `mb_get` returns and the
    descriptors of the socket buffer are all different; and `sbdrop` is called for no more than there
    is. -/
def Owned (sb : Sockbuf) : Event → Prop
  | .append m allocs => (allocs.filterMap id ++ addrs m ++ addrs sb.sbMb).Nodup
  | .drop len => len ≤ sb.sbCc
  | .flush => True

/-- A large receive buffer that is converted comes alone. -/
def AppendsOk : Event → Prop
  | .append m allocs => HiAlone m allocs
  | _ => True

theorem contentOf_append (hist obs : List Obs) :
    contentOf (hist ++ obs) = obs.foldl contentBy (contentOf hist) := List.foldl_append

/-- A call that moves descriptors and changes the content. -/
theorem SbOk.call {sb' : Sockbuf} {o : Obs} (h : SbOk sb hist) (ho : o ≠ .panic)
    (hcc : sb'.sbCc = (bytesOf sb'.sbMb).length)
    (hbytes : bytesOf sb'.sbMb = contentBy (bytesOf sb.sbMb) o)
    (hmoves : Moves (addrs sb.sbMb) (o :: obs) (addrs sb'.sbMb)) (honce : (addrs sb'.sbMb).Nodup)
    (honly : ∀ o ∈ obs, o.isMove = true) : SbOk sb' (hist ++ o :: obs) := by
  constructor
  case cc => exact hcc
  case content =>
    rw [contentOf_append, List.foldl_cons, content_moves honly, ← h.content, hbytes]
  case live => exact Ledger.perm_iff.mp ((Ledger.perm_iff.mpr h.live).trans hmoves)
  case once => exact honce
  case panics =>
    simp only [List.mem_append, List.mem_cons, not_or]
    exact ⟨h.panics, Ne.symm ho, not_panic_moves honly⟩

/-- **`sbdrop`.** -/
theorem SbOk.drop (h : SbOk sb hist) (hlen : len ≤ sb.sbCc) :
    SbOk (sbdrop sb len).1 (hist ++ (sbdrop sb len).2) := by
  have hcc := h.cc
  have hle : len ≤ (bytesOf sb.sbMb).length := by omega
  obtain ⟨h1, h2⟩ := dropLoop_spec sb.sbMb hle hcc
  obtain ⟨h3, -⟩ := dropEmpty_spec (dropLoop sb.sbMb len sb.sbCc).1.sbMb
  unfold sbdrop
  refine h.call (by simp) ?_ ?_ ?_ ?_ ?_
  · dsimp only
    rw [h2, h3.bytes, h1.bytes, List.length_drop, hcc]
  · exact h3.bytes.trans h1.bytes
  · have h4 : Moves (addrs sb.sbMb) ([.dropped len] ++ ((dropLoop sb.sbMb len sb.sbCc).2 ++
        (dropEmpty (dropLoop sb.sbMb len sb.sbCc).1.sbMb).2))
        (addrs (dropEmpty (dropLoop sb.sbMb len sb.sbCc).1.sbMb).1) := by
      refine Ledger.trans (c := addrs sb.sbMb) ?_ (h1.moves.trans h3.moves)
      intro x
      simp [Obs.cameIn, Obs.wentOut]
    exact h4
  · exact ((h3.kept.trans h1.kept).nodup h.once)
  · intro o ho
    rcases List.mem_append.mp ho with ho | ho
    · exact h1.only o ho
    · exact h3.only o ho

/-- **`sbflush`.** -/
theorem SbOk.flush (h : SbOk sb hist) :
    SbOk (sbflush sb).1 (hist ++ (sbflush sb).2) ∧ (sbflush sb).1 = ⟨0, []⟩ := by
  have hdrop := h.drop (Nat.le_refl sb.sbCc)
  have hnil : bytesOf (sbdrop sb sb.sbCc).1.sbMb = [] := by
    obtain ⟨h1, -⟩ := dropLoop_spec sb.sbMb (Nat.le_of_eq h.cc) h.cc
    obtain ⟨h3, -⟩ := dropEmpty_spec (dropLoop sb.sbMb sb.sbCc sb.sbCc).1.sbMb
    refine h3.bytes.trans (h1.bytes.trans ?_)
    rw [h.cc, List.drop_length]
  have hcc : (sbdrop sb sb.sbCc).1.sbCc = 0 := by rw [hdrop.cc, hnil]; rfl
  have hmb : (sbdrop sb sb.sbCc).1.sbMb = [] := by
    obtain ⟨h3, h4⟩ := dropEmpty_spec (dropLoop sb.sbMb sb.sbCc sb.sbCc).1.sbMb
    exact h4 (h3.bytes.symm.trans hnil)
  unfold sbflush
  dsimp only
  rw [if_neg (by simp [hcc, hmb]), List.append_nil]
  refine ⟨hdrop, ?_⟩
  rw [← hcc, ← hmb]

/-- **`sbappend`.** -/
theorem SbOk.append (h : SbOk sb hist) (hown : Owned sb (.append m allocs)) (hhi : HiAlone m allocs) :
    SbOk (sbappend sb m allocs).1 (hist ++ (sbappend sb m allocs).2) := by
  have h1 := convertHi_ready hhi
  have h2 := compressLoop_spec (convertHi m allocs).1 sb
  have hmoves : Moves (addrs sb.sbMb ++ addrs m) ((convertHi m allocs).2 ++
      (compressLoop (convertHi m allocs).1 sb).2)
      (addrs (compressLoop (convertHi m allocs).1 sb).1.sbMb) := by
    refine Ledger.trans (c := addrs sb.sbMb ++ addrs (convertHi m allocs).1) ?_ h2.moves
    exact ((Ledger.refl (addrs sb.sbMb)).append h1.moves)
  have hpass : Moves (addrs sb.sbMb) [.passed (addrs m), .appended (bytesOf m)]
      (addrs sb.sbMb ++ addrs m) := by
    intro x
    simp only [List.flatMap_cons, List.flatMap_nil, Obs.cameIn, Obs.wentOut, List.append_nil,
      List.count_nil, List.count_append]
    omega
  have honly : ∀ o ∈ (convertHi m allocs).2 ++ (compressLoop (convertHi m allocs).1 sb).2,
      o.isMove = true := by
    intro o ho
    rcases List.mem_append.mp ho with ho | ho
    · exact h1.only o ho
    · exact h2.only o ho
  unfold sbappend
  constructor
  case cc =>
    dsimp only
    rw [h2.cc, h2.bytes, List.length_append, h.cc]
  case content =>
    rw [contentOf_append]
    show _ = ((convertHi m allocs).2 ++ (compressLoop (convertHi m allocs).1 sb).2).foldl contentBy
      (contentOf hist ++ bytesOf m)
    rw [content_moves honly, ← h.content]
    exact h2.bytes.trans (by rw [h1.bytes])
  case live =>
    refine Ledger.perm_iff.mp ((Ledger.perm_iff.mpr h.live).trans ?_)
    exact hpass.trans hmoves
  case once =>
    refine h2.kept.nodup ?_
    have hsub : (addrs sb.sbMb ++ addrs (convertHi m allocs).1).Sublist
        (addrs sb.sbMb ++ (allocs.filterMap id ++ addrs m)) :=
      (List.Sublist.refl _).append h1.blocks
    exact hsub.nodup (List.perm_append_comm.nodup_iff.mp hown)
  case panics =>
    have := not_panic_moves honly
    simp only [List.mem_append, List.mem_cons, not_or, reduceCtorEq, not_false_eq_true, true_and,
      List.cons_append] at this ⊢
    exact ⟨h.panics, this⟩

/-- **Socket buffers.**  In every state of every run of `sbappend`, `sbdrop` and `sbflush` on chains the
    caller owns in which a large receive buffer that is converted comes alone; and a flush leaves
    nothing. -/
theorem sockbuf_ok (es : List Event) (sb : Sockbuf)
    (hg : Machine.Guarded sockbufMachine (fun sb ev => Owned sb ev ∧ AppendsOk ev) (some {}) es)
    (hs : (Machine.run sockbufMachine (some {}) es).1 = some sb) :
    SbOk sb (Machine.run sockbufMachine (some {}) es).2 ∧ (sbflush sb).1 = ⟨0, []⟩ := by
  have hstart : SbOk {} [] := ⟨rfl, rfl, List.Perm.refl _, List.nodup_nil, by simp⟩
  have h := Machine.run_record SbOk ?_ hstart hg hs
  · exact ⟨h, h.flush.2⟩
  · intro sb ev hist sb' h hc hs'
    cases ev with
    | append m allocs =>
      cases hs'
      exact h.append hc.1 hc.2
    | drop len =>
      cases hs'
      exact h.drop hc.1
    | flush =>
      cases hs'
      exact h.flush.1

instance (sb : Sockbuf) : ∀ ev, Decidable (Owned sb ev)
  | .append _ _ => inferInstanceAs (Decidable (List.Nodup _))
  | .drop len => inferInstanceAs (Decidable (len ≤ sb.sbCc))
  | .flush => .isTrue trivial

/-- A large receive buffer with three bytes. -/
def hiMbuf : Mbuf := ⟨1, true, .MB_HI, .MB_HI, 14, [1, 2, 3]⟩

/-- A small one with two. -/
def minMbuf : Mbuf := ⟨2, true, .MB_MIN, .MB_MIN, 0, [4, 5]⟩

/-- The large buffer is converted, the small one is copied behind it, and four bytes are read. -/
def sockbufRun : List Event := [.append [hiMbuf] [some 10], .append [minMbuf] [], .drop 4]

theorem sockbuf_ok_five_bytes :
    SbOk ⟨1, [⟨10, true, .MB_MID1, .MB_MID1, 4, [5]⟩]⟩
      (Machine.run sockbufMachine (some {}) sockbufRun).2 := by
  refine (sockbuf_ok sockbufRun _ ⟨⟨by decide, ?_⟩, ⟨by decide, ?_⟩,
    ⟨by decide, trivial⟩, trivial⟩
    (by decide)).1
  · intro mb rest heq _ _ _
    cases heq
    rfl
  · intro mb rest heq _ hhi _
    cases heq
    cases hhi

/-- A large receive buffer at the head of a chain of two: the second one is freed with it and copied
    from all the same, and freed again. -/
theorem hi_buffer_frees_its_chain :
    ¬ ∀ (es : List Event) (sb : Sockbuf), Machine.Guarded sockbufMachine Owned (some {}) es →
      (Machine.run sockbufMachine (some {}) es).1 = some sb →
      SbOk sb (Machine.run sockbufMachine (some {}) es).2 := by
  intro h
  have hok := h [.append [hiMbuf, minMbuf] [some 10]] _ ⟨by decide, trivial⟩ rfl
  have hcount := List.perm_iff_count.mp hok.live 2
  revert hcount
  decide

end TnNet.Mem
