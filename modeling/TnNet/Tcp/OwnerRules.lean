import TnNet.Lib.Ledger
import TnNet.Tcp.Owner
import TnNet.Tcp.Rules

/-!
# A call of `tcp_input` consumes its segment

What the chains and queue blocks do in `tcp_input` is balanced (`Balanced`): in front of the text of the
segment nothing but entries of the queue is freed or appended (`Kept`), and behind the text or one of the
labels the chain passed in has gone too (`Used`).

* `tcpPresent_balanced`, `tcpReass_balanced`, `balanced_freeq` — the queue.
* `inputHead_kept` — every phase, and every state at a jump.
* `inputPass_used` — the whole pass.
-/

set_option autoImplicit false

namespace TnNet.Owned

open SeqArith

/-! ## Balance -/

/-- The chains that come in. -/
def Obs.comes : Obs → List Nat
  | .passed m => [m]
  | _ => []

/-- The chains that are appended or freed. -/
def Obs.goes : Obs → List Nat
  | .sbappend m => [m]
  | .mFreem m => [m]
  | _ => []

/-- The blocks that are allocated. -/
def Obs.allocs : Obs → List Nat
  | .allocMin tiqe => [tiqe]
  | _ => []

/-- The blocks that are returned. -/
def Obs.returns : Obs → List Nat
  | .freeMin tiqe => [tiqe]
  | _ => []

/-- The chains of a queue. -/
def Segq.chains (segq : Segq) : List Nat := segq.map Tiqe.tcpqeM

/-- The blocks of a queue. -/
def Segq.blocks (segq : Segq) : List Nat := segq.map Tiqe.tiqe

/-- The chains `b` and then `a`, and the blocks `bt` and then `at'`, are held: every one is accounted
    for. -/
structure Balanced (b bt : List Nat) (obs : List Obs) (a at' : List Nat) : Prop where
  chains : Ledger Obs.comes Obs.goes b obs a
  blocks : Ledger Obs.allocs Obs.returns bt obs at'

variable {b bt a at' c ct : List Nat} {obs obs' : List Obs} {segq : Segq}

theorem Balanced.refl (b bt : List Nat) : Balanced b bt [] b bt := ⟨.refl b, .refl bt⟩

theorem Balanced.trans (h : Balanced b bt obs c ct) (h' : Balanced c ct obs' a at') :
    Balanced b bt (obs ++ obs') a at' := ⟨h.chains.trans h'.chains, h.blocks.trans h'.blocks⟩

/-- Side by side. -/
theorem Balanced.append {b' bt' a' at'' : List Nat} (h : Balanced b bt obs a at')
    (h' : Balanced b' bt' obs' a' at'') :
    Balanced (b ++ b') (bt ++ bt') (obs ++ obs') (a ++ a') (at' ++ at'') :=
  ⟨h.chains.append h'.chains, h.blocks.append h'.blocks⟩

/-- What is held besides. -/
theorem Balanced.frame (h : Balanced b bt obs a at') (c ct : List Nat) :
    Balanced (b ++ c) (bt ++ ct) obs (a ++ c) (at' ++ ct) := ⟨h.chains.frame c, h.blocks.frame ct⟩

theorem Balanced.perm {b' bt' a' at'' : List Nat} (h : Balanced b bt obs a at') (hb : b.Perm b')
    (hbt : bt.Perm bt') (ha : a.Perm a') (hat : at'.Perm at'') : Balanced b' bt' obs a' at'' :=
  ⟨h.chains.perm_held hb ha, h.blocks.perm_held hbt hat⟩

/-- A chain is freed or appended. -/
theorem balanced_free (m : Nat) : Balanced [m] [] [.mFreem m] [] [] := by
  constructor <;> intro x <;> simp [Obs.comes, Obs.goes, Obs.allocs, Obs.returns]

theorem balanced_sbappend (m : Nat) : Balanced [m] [] [.sbappend m] [] [] := by
  constructor <;> intro x <;> simp [Obs.comes, Obs.goes, Obs.allocs, Obs.returns]

/-- A block is allocated or returned. -/
theorem balanced_alloc (k : Nat) : Balanced [] [] [.allocMin k] [] [k] := by
  constructor <;> intro x <;> simp [Obs.comes, Obs.goes, Obs.allocs, Obs.returns]

theorem balanced_freeMin (k : Nat) : Balanced [] [k] [.freeMin k] [] [] := by
  constructor <;> intro x <;> simp [Obs.comes, Obs.goes, Obs.allocs, Obs.returns]

/-- An entry is taken off the queue. -/
theorem balanced_entry {o : Obs} {m : Nat} (ho : Balanced [m] [] [o] [] []) (k : Nat) :
    Balanced [m] [k] [o, .freeMin k] [] [] := ho.append (balanced_freeMin k)

theorem balanced_freeq (segq : Segq) : Balanced segq.chains segq.blocks (tcpFreeq segq) [] [] := by
  induction segq with
  | nil => exact .refl [] []
  | cons q qs ih => exact (balanced_entry (balanced_free q.tcpqeM) q.tiqe).append ih

/-! ## The queue -/

theorem reassTrim_balanced (fin : BitVec 32) (segq : Segq) :
    Balanced segq.chains segq.blocks (reassTrim fin segq).2 (reassTrim fin segq).1.chains
      (reassTrim fin segq).1.blocks := by
  induction segq with
  | nil => exact .refl [] []
  | cons q qs ih =>
    unfold reassTrim
    dsimp only
    split
    · exact .refl _ _
    · split
      · exact .refl _ _
      · exact (balanced_entry (balanced_free q.tcpqeM) q.tiqe).append ih

theorem presentLoop_balanced (cantrcvmore : Bool) (segq : Segq) (nxt : BitVec 32) :
    Balanced segq.chains segq.blocks (presentLoop cantrcvmore segq nxt).2
      (presentLoop cantrcvmore segq nxt).1.chains (presentLoop cantrcvmore segq nxt).1.blocks := by
  induction segq generalizing nxt with
  | nil => exact .refl [] []
  | cons q qs ih =>
    unfold presentLoop
    split
    · refine (balanced_entry ?_ q.tiqe).append (ih _)
      cases cantrcvmore
      · exact balanced_sbappend q.tcpqeM
      · exact balanced_free q.tcpqeM
    · exact .refl _ _

theorem tcpPresent_balanced (c : Conn) (segq : Segq) :
    Balanced segq.chains segq.blocks (tcpPresent c segq).2 (tcpPresent c segq).1.chains
      (tcpPresent c segq).1.blocks := by
  unfold tcpPresent
  split
  · split
    · exact .refl _ _
    · exact presentLoop_balanced _ _ _
  · exact .refl _ _

/-- The entry of the segment is put in place. -/
theorem reassPlace_balanced (e : Call) (segq : Segq) (seq : BitVec 32) (th : TcpHdr) (m : Chain)
    (tlen : Nat) : Balanced (e.m :: segq.chains) (e.block :: segq.blocks)
    (reassPlace e segq seq th m tlen).2
      (reassPlace e segq seq th m tlen).1.chains (reassPlace e segq seq th m tlen).1.blocks := by
  have hsplit :=
    List.takeWhile_append_dropWhile (p := fun q : Tiqe => !seqGt q.ent.tcpqeTcp.thSeq seq) (l := segq)
  unfold reassPlace
  generalize segq.takeWhile (fun q => !seqGt q.ent.tcpqeTcp.thSeq seq) = before at hsplit ⊢
  generalize segq.dropWhile (fun q => !seqGt q.ent.tcpqeTcp.thSeq seq) = after at hsplit ⊢
  subst hsplit
  have h := ((reassTrim_balanced (th.thSeq + BitVec.ofNat 32 tlen) after).frame
    (e.m :: Segq.chains before) (e.block :: Segq.blocks before))
  refine h.perm ?_ ?_ ?_ ?_
  · exact List.perm_middle.trans
      (.cons _ (by unfold Segq.chains; rw [List.map_append]; exact List.perm_append_comm))
  · exact List.perm_middle.trans
      (.cons _ (by unfold Segq.blocks; rw [List.map_append]; exact List.perm_append_comm))
  · dsimp only
    unfold Segq.chains
    rw [List.map_append, List.map_cons]
    exact List.perm_middle.trans (.trans (.cons _ List.perm_append_comm) List.perm_middle.symm)
  · dsimp only
    unfold Segq.blocks
    rw [List.map_append, List.map_cons]
    exact List.perm_middle.trans (.trans (.cons _ List.perm_append_comm) List.perm_middle.symm)

/-- **`tcp_reass`** links, appends or frees the segment. -/
theorem tcpReass_balanced (e : Call) (c : Conn) (segq : Segq) (th : TcpHdr) (m : Chain) (tlen : Nat) :
    Balanced (e.m :: segq.chains) segq.blocks (tcpReass e c segq th m tlen).2
      (tcpReass e c segq th m tlen).1.chains (tcpReass e c segq th m tlen).1.blocks := by
  have halloc : Balanced (e.m :: segq.chains) segq.blocks [.allocMin e.block] (e.m :: segq.chains)
      (e.block :: segq.blocks) := (balanced_alloc e.block).frame (e.m :: segq.chains) segq.blocks
  unfold tcpReass
  split
  · dsimp only
    split
    · exact halloc.trans ((balanced_entry (balanced_free e.m) e.block).frame segq.chains segq.blocks)
    · refine halloc.trans (.trans ?_ (tcpPresent_balanced _ _))
      split
      · exact reassPlace_balanced e segq th.thSeq _ _ _
      · exact reassPlace_balanced e segq th.thSeq th m tlen
  · have h := (balanced_freeq segq).append (balanced_free e.m)
    exact h.perm List.perm_append_comm (by rw [List.append_nil]) (.refl _) (.refl _)

/-! ## The entries without their owners -/

theorem reassTrim_ents (fin : BitVec 32) (segq : Segq) :
    (reassTrim fin segq).1.ents = TnNet.reassTrim fin segq.ents := by
  induction segq with
  | nil => rfl
  | cons q qs ih =>
    show _ = TnNet.reassTrim fin (q.ent :: Segq.ents qs)
    unfold reassTrim
    simp only [TnNet.reassTrim]
    split
    · rfl
    · split
      · rfl
      · exact ih

theorem presentLoop_ents (cantrcvmore : Bool) (segq : Segq) (nxt : BitVec 32) (sb : Sockbuf) (fin : Bool) :
    (presentLoop cantrcvmore segq nxt).1.ents =
      (TnNet.presentLoop cantrcvmore segq.ents nxt sb fin).segq := by
  induction segq generalizing nxt sb fin with
  | nil => rfl
  | cons q qs ih =>
    show _ = (TnNet.presentLoop cantrcvmore (q.ent :: Segq.ents qs) nxt sb fin).segq
    unfold presentLoop
    simp only [TnNet.presentLoop]
    split
    · exact ih _ _ _
    · rfl

theorem tcpPresent_ents {c : Conn} (h : c.tp.tSegq = segq.ents) :
    (TnNet.tcpPresent c).1.tp.tSegq = (tcpPresent c segq).1.ents := by
  have hhead : (c.tp.tSegq.head?.map fun q => q.tcpqeTcp.thReseqlen) =
      segq.head?.map fun q => q.ent.tcpqeTcp.thReseqlen := by
    rw [h, Segq.ents, List.head?_map, Option.map_map]
    rfl
  unfold TnNet.tcpPresent tcpPresent
  rw [hhead]
  split
  · split
    · exact h
    · dsimp only
      rw [h, presentLoop_ents]
  · exact h

theorem reassPlace_ents (e : Call) (segq : Segq) (seq : BitVec 32) (th : TcpHdr) (m : Chain) (tlen : Nat) :
    (reassPlace e segq seq th m tlen).1.ents = TnNet.reassPlace segq.ents seq th m tlen := by
  unfold reassPlace TnNet.reassPlace reassBefore reassAfter
  dsimp only [Segq.ents]
  rw [List.map_append, List.map_cons, List.takeWhile_map, List.dropWhile_map]
  exact congrArg (fun l => _ ++ _ :: l) (reassTrim_ents _ _)

theorem tcpReass_ents (e : Call) {c : Conn} (h : c.tp.tSegq = segq.ents) (th : TcpHdr) (m : Chain)
    (tlen : Nat) : (TnNet.tcpReass e.tiqe c th m tlen).1.tp.tSegq =
    (tcpReass e c segq th m tlen).1.ents := by
  unfold TnNet.tcpReass tcpReass reassInsert
  split
  · dsimp only
    rw [h]
    by_cases h0 : 0 < reassOverlap segq.ents th.thSeq
    · by_cases h1 : (tlen : Int) ≤ reassOverlap segq.ents th.thSeq
      · simp only [h0, h1, if_true, and_self]
        exact h
      · simp only [h0, h1, if_true, if_false, and_false]
        rw [← reassPlace_ents e]
        exact tcpPresent_ents rfl
    · simp only [h0, if_false, false_and]
      rw [← reassPlace_ents e]
      exact tcpPresent_ents rfl
  · rfl

/-! ## Headers and observations -/

/-- The header of every entry lies in its own chain. -/
def Headed (segq : Segq) : Prop := ∀ q ∈ segq, q.tcpqeTcp = q.tcpqeM

/-- Nothing comes in and no block is allocated. -/
def Quiet (obs : List Obs) : Prop := ∀ o ∈ obs, o.comes = [] ∧ o.allocs = []

theorem quiet_nil : Quiet [] := fun _ h => (List.not_mem_nil h).elim

theorem Quiet.append (h : Quiet obs) (h' : Quiet obs') : Quiet (obs ++ obs') := by
  intro o ho
  rcases List.mem_append.mp ho with ho | ho
  · exact h o ho
  · exact h' o ho

theorem Quiet.cons {o : Obs} (ho : o.comes = [] ∧ o.allocs = []) (h : Quiet obs) : Quiet (o :: obs) := by
  intro x hx
  rcases List.mem_cons.mp hx with rfl | hx
  · exact ho
  · exact h x hx

theorem quiet_mFreem (m : Nat) : Quiet [.mFreem m] := .cons ⟨rfl, rfl⟩ quiet_nil

theorem quiet_freeq (segq : Segq) : Quiet (tcpFreeq segq) := by
  induction segq with
  | nil => exact quiet_nil
  | cons q qs ih => exact .cons ⟨rfl, rfl⟩ (.cons ⟨rfl, rfl⟩ ih)

theorem reassTrim_quiet (fin : BitVec 32) (segq : Segq) : Quiet (reassTrim fin segq).2 := by
  induction segq with
  | nil => exact quiet_nil
  | cons q qs ih =>
    unfold reassTrim
    dsimp only
    split
    · exact quiet_nil
    · split
      · exact quiet_nil
      · exact .cons ⟨rfl, rfl⟩ (.cons ⟨rfl, rfl⟩ ih)

theorem presentLoop_quiet (cantrcvmore : Bool) (segq : Segq) (nxt : BitVec 32) :
    Quiet (presentLoop cantrcvmore segq nxt).2 := by
  induction segq generalizing nxt with
  | nil => exact quiet_nil
  | cons q qs ih =>
    unfold presentLoop
    split
    · refine .cons ?_ (.cons ⟨rfl, rfl⟩ (ih _))
      cases cantrcvmore <;> exact ⟨rfl, rfl⟩
    · exact quiet_nil

theorem tcpPresent_quiet (c : Conn) (segq : Segq) : Quiet (tcpPresent c segq).2 := by
  unfold tcpPresent
  split
  · split
    · exact quiet_nil
    · exact presentLoop_quiet _ _ _
  · exact quiet_nil

theorem reassTrim_headed {segq : Segq} (h : Headed segq) (fin : BitVec 32) :
    Headed (reassTrim fin segq).1 := by
  induction segq with
  | nil => exact h
  | cons q qs ih =>
    obtain ⟨hq, hqs⟩ := List.forall_mem_cons.mp h
    unfold reassTrim
    dsimp only
    split
    · exact h
    · split
      · exact List.forall_mem_cons.mpr ⟨hq, hqs⟩
      · exact ih hqs

theorem presentLoop_headed {segq : Segq} (h : Headed segq) (cantrcvmore : Bool) (nxt : BitVec 32) :
    Headed (presentLoop cantrcvmore segq nxt).1 := by
  induction segq generalizing nxt with
  | nil => exact h
  | cons q qs ih =>
    unfold presentLoop
    split
    · exact ih (List.forall_mem_cons.mp h).2 _
    · exact h

theorem tcpPresent_headed {segq : Segq} (h : Headed segq) (c : Conn) : Headed (tcpPresent c segq).1 := by
  unfold tcpPresent
  split
  · split
    · exact h
    · exact presentLoop_headed h _ _
  · exact h

theorem reassPlace_headed {segq : Segq} (h : Headed segq) {e : Call} (he : e.thBuf = e.m) (seq : BitVec 32)
    (th : TcpHdr) (m : Chain) (tlen : Nat) : Headed (reassPlace e segq seq th m tlen).1 := by
  have hsplit :=
    List.takeWhile_append_dropWhile (p := fun q : Tiqe => !seqGt q.ent.tcpqeTcp.thSeq seq) (l := segq)
  rw [← hsplit] at h
  obtain ⟨h1, h2⟩ := List.forall_mem_append.mp h
  unfold reassPlace
  exact List.forall_mem_append.mpr ⟨h1, List.forall_mem_cons.mpr ⟨he, reassTrim_headed h2 _⟩⟩

theorem tcpReass_headed {segq : Segq} (h : Headed segq) {e : Call} (he : e.thBuf = e.m) (c : Conn)
    (th : TcpHdr) (m : Chain) (tlen : Nat) : Headed (tcpReass e c segq th m tlen).1 := by
  unfold tcpReass
  split
  · dsimp only
    split
    · exact h
    · refine tcpPresent_headed ?_ c
      split
      · exact reassPlace_headed h he _ _ _ _
      · exact reassPlace_headed h he _ _ _ _
  · exact fun _ hq => (List.not_mem_nil hq).elim

/-- Nothing comes in, and at most the block of the call is allocated. -/
structure Modest (k : Nat) (obs : List Obs) : Prop where
  comes : obs.flatMap Obs.comes = []
  allocs : obs.flatMap Obs.allocs = [] ∨ obs.flatMap Obs.allocs = [k]

theorem Quiet.modest (h : Quiet obs) (k : Nat) : Modest k obs :=
  ⟨List.flatMap_eq_nil_iff.mpr fun o ho => (h o ho).1,
    .inl (List.flatMap_eq_nil_iff.mpr fun o ho => (h o ho).2)⟩

theorem Modest.append {k : Nat} (h : Quiet obs) (h' : Modest k obs') : Modest k (obs ++ obs') := by
  have hq := h.modest k
  have hallocs : obs.flatMap Obs.allocs = [] := List.flatMap_eq_nil_iff.mpr fun o ho => (h o ho).2
  constructor
  · rw [List.flatMap_append, hq.comes, h'.comes, List.nil_append]
  · rw [List.flatMap_append, hallocs, List.nil_append]
    exact h'.allocs

theorem Modest.snoc {k : Nat} (h : Modest k obs) (h' : Quiet obs') : Modest k (obs ++ obs') := by
  have hq := h'.modest k
  have hallocs : obs'.flatMap Obs.allocs = [] := List.flatMap_eq_nil_iff.mpr fun o ho => (h' o ho).2
  constructor
  · rw [List.flatMap_append, hq.comes, h.comes, List.nil_append]
  · rw [List.flatMap_append, hallocs, List.append_nil]
    exact h.allocs

theorem tcpReass_modest (e : Call) (c : Conn) (segq : Segq) (th : TcpHdr) (m : Chain) (tlen : Nat) :
    Modest e.block (tcpReass e c segq th m tlen).2 := by
  have halloc : Modest e.block [.allocMin e.block] := ⟨rfl, .inr rfl⟩
  unfold tcpReass
  split
  · dsimp only
    split
    · exact halloc.snoc (.cons ⟨rfl, rfl⟩ (.cons ⟨rfl, rfl⟩ quiet_nil))
    · refine halloc.snoc (.append ?_ (tcpPresent_quiet _ _))
      split
      · exact reassTrim_quiet _ _
      · exact reassTrim_quiet _ _
  · exact ((quiet_freeq segq).append (quiet_mFreem e.m)).modest _

/-! ## Phases -/

/-- In front of the segment's text: the chains `b` and the blocks `bt` that were held are in the queue or
    gone, and the queue is the one of the control block. -/
structure Kept (b bt : List Nat) (st : InOwn) : Prop where
  balanced : Balanced b bt st.obs st.segq.chains st.segq.blocks
  sync : st.x.conn.tp.tSegq = st.segq.ents
  headed : Headed st.segq
  quiet : Quiet st.obs
  gone : st.gone = true → st.segq = []

/-- And the control block is there. -/
structure Live (b bt : List Nat) (st : InOwn) : Prop extends Kept b bt st where
  live : st.gone = false

variable {st st' : InOwn} {e : Call} {s : Seg}

/-- A phase that does not touch the queue. -/
theorem Kept.same (h : Kept b bt st) (hs : st'.x.conn.tp.tSegq = st.x.conn.tp.tSegq)
    (hq : st'.segq = st.segq) (ho : st'.obs = st.obs) (hg : st'.gone = st.gone) : Kept b bt st' := by
  constructor
  · rw [ho, hq]
    exact h.balanced
  · rw [hs, hq, h.sync]
  · rw [hq]
    exact h.headed
  · rw [ho]
    exact h.quiet
  · rw [hg, hq]
    exact h.gone

theorem Live.same (h : Live b bt st) (hs : st'.x.conn.tp.tSegq = st.x.conn.tp.tSegq)
    (hq : st'.segq = st.segq) (ho : st'.obs = st.obs) (hg : st'.gone = st.gone) : Live b bt st' :=
  ⟨h.toKept.same hs hq ho hg, hg.trans h.live⟩

theorem Kept.setConn (h : Kept b bt st) {c : Conn} (hc : c.tp.tSegq = st.x.conn.tp.tSegq) :
    Kept b bt (st.setConn c) := h.same hc rfl rfl rfl

theorem Kept.emptied (h : Kept b bt st) (hs : st'.x.conn.tp.tSegq = []) (hq : st'.segq = [])
    (ho : st'.obs = st.obs ++ tcpFreeq st.segq) : Kept b bt st' := by
  constructor
  · rw [ho, hq]
    exact h.balanced.trans (balanced_freeq st.segq)
  · rw [hs, hq]
    rfl
  · rw [hq]
    exact fun _ hx => (List.not_mem_nil hx).elim
  · rw [ho]
    exact h.quiet.append (quiet_freeq st.segq)
  · exact fun _ => hq

theorem Kept.tcpClose (h : Kept b bt st) : Kept b bt st.tcpClose := h.emptied rfl rfl rfl

theorem Kept.tcpDrop (h : Kept b bt st) (e : Call) (errno : Int) : Kept b bt (st.tcpDrop e errno) :=
  h.emptied rfl rfl rfl

theorem tcpOutput_tSegq (env : Nat → SendEnv) (c : Conn) : (tcpOutput env c).conn.tp.tSegq = c.tp.tSegq :=
  field_of_kept Tcpcb.tSegq (tcpOutput_kept env c).2 fun _ => rfl

theorem Kept.tcpOutput (h : Kept b bt st) (e : Call) : Kept b bt (st.tcpOutput e) :=
  h.same (tcpOutput_tSegq _ _) rfl rfl rfl

/-- The delivery of the queue. -/
theorem Live.tcpPresent (h : Live b bt st) {c : Conn}
    (hs : st'.x.conn.tp.tSegq = (tcpPresent c st.segq).1.ents)
    (hq : st'.segq = (tcpPresent c st.segq).1) (ho : st'.obs = st.obs ++ (tcpPresent c st.segq).2)
    (hg : st'.gone = st.gone) : Live b bt st' := by
  have hlive : st'.gone = false := hg.trans h.live
  refine ⟨?_, hlive⟩
  constructor
  · rw [ho, hq]
    exact h.balanced.trans (tcpPresent_balanced c st.segq)
  · rw [hs, hq]
  · rw [hq]
    exact tcpPresent_headed h.headed c
  · rw [ho]
    exact h.quiet.append (tcpPresent_quiet c st.segq)
  · rw [hlive]
    exact fun h => (nomatch h)

/-- The state behind a phase, or at a jump. -/
def FlowKept (b bt : List Nat) : Flow → Prop
  | .ok st => Live b bt st
  | .error j => Kept b bt j.st

theorem Live.jump (h : Live b bt st) (label : Label) : FlowKept b bt (st.goto label) := h.toKept

theorem FlowKept.bind {f : Flow} {g : InOwn → Flow} (hf : FlowKept b bt f)
    (hg : ∀ st, Live b bt st → FlowKept b bt (g st)) : FlowKept b bt (f >>= g) := by
  cases f with
  | ok st => exact hg st hf
  | error j => exact hf

theorem FlowKept.map {f : Flow} {g : InOwn → InOwn} (hf : FlowKept b bt f)
    (hg : ∀ st, Live b bt st → Live b bt (g st)) : FlowKept b bt (f.map g) := by
  cases f with
  | ok st => exact hg st hf
  | error j => exact hf

theorem listenConn_tSegq (e : InEnv) (s : Seg) (x : InSt) :
    (listenConn e s x).tp.tSegq = x.conn.tp.tSegq := by
  have h := field_of_kept Tcpcb.tSegq (tcpDooptions_kept s.th.thFlags.syn e.ifMtu s.opt
    { x.tp with tTemplate := true }) fun _ => rfl
  exact h

theorem inputListen_kept (h : Live b bt st) : FlowKept b bt (inputListen e s st) := by
  unfold inputListen
  repeat' split
  · exact h.jump _
  · exact h.jump _
  · exact h.jump _
  · exact h.jump _
  · exact (h.tcpDrop e ENOBUFS).same rfl rfl rfl rfl
  · exact h.same (listenConn_tSegq _ _ _) rfl rfl rfl

theorem tcpXmitTimer_tSegq (tp : Tcpcb) (rtt : Int) : (tcpXmitTimer tp rtt).tSegq = tp.tSegq :=
  field_of_kept Tcpcb.tSegq (tcpXmitTimer_kept tp rtt) fun _ => rfl

theorem synSentUna_tSegq (x : InSt) : (synSentUna x).tSegq = x.conn.tp.tSegq := by
  unfold synSentUna
  split <;> rfl

theorem synSentConn_tSegq {x : InSt} {segq : Segq} (h : x.conn.tp.tSegq = segq.ents) :
    (synSentConn x).tp.tSegq =
      (if synAcked x then tcpPresent (synSentEst x) segq else (segq, [])).1.ents := by
  have hest : (synSentEst x).tp.tSegq = segq.ents := (synSentUna_tSegq x).trans h
  have hacked : synAcked x = true ↔ x.tiflags.ack = true ∧
      seqGt (synSentUna x).sndUna (synSentUna x).iss = true := by
    unfold synAcked
    rw [Bool.and_eq_true]
  unfold synSentConn
  by_cases ha : x.tiflags.ack = true ∧ seqGt (synSentUna x).sndUna (synSentUna x).iss = true
  · rw [if_pos (hacked.mpr ha), ← tcpPresent_ents hest]
    refine Eq.trans (congrArg (fun c : Conn => c.tp.tSegq) (if_pos ha)) ?_
    dsimp only
    split
    · exact tcpXmitTimer_tSegq _ _
    · rfl
  · rw [if_neg fun hc => ha (hacked.mp hc)]
    refine Eq.trans (congrArg (fun c : Conn => c.tp.tSegq) (if_neg ha)) ?_
    exact (synSentUna_tSegq x).trans h

theorem inputSynSent_kept (h : Live b bt st) : FlowKept b bt (inputSynSent e st) := by
  unfold inputSynSent
  split
  · exact h.jump _
  · split
    · split
      · exact h.tcpDrop e ECONNREFUSED
      · exact h.jump _
    · split
      · exact h.jump _
      · have hs := synSentConn_tSegq h.sync
        cases ha : synAcked st.x with
        | true =>
          rw [ha] at hs
          exact h.tcpPresent (c := synSentEst st.x) hs rfl rfl rfl
        | false =>
          rw [ha] at hs
          exact h.same (hs.trans h.sync.symm) rfl (List.append_nil _) rfl

theorem trimThenStep6_kept (h : Live b bt st) : Live b bt (trimThenStep6 st) := by
  refine h.same ?_ rfl rfl rfl
  unfold trimThenStep6 TnNet.trimThenStep6
  dsimp only
  split <;> rfl

theorem afterClose_kept (h : Live b bt st) : FlowKept b bt (afterClose st) := by
  unfold afterClose
  split
  · exact h.tcpClose
  · exact h

theorem rightTrim_kept (h : Live b bt st) : FlowKept b bt (rightTrim st) := by
  unfold rightTrim
  dsimp only
  repeat' split
  · exact h.tcpClose
  · exact h.same rfl rfl rfl rfl
  · exact h.jump _
  · exact h.same rfl rfl rfl rfl
  · exact h

theorem Kept.setError (h : Kept b bt st) (errno : Int) : Kept b bt (st.setError errno) :=
  h.same rfl rfl rfl rfl

theorem checkRst_kept (h : Live b bt st) : FlowKept b bt (checkRst st) := by
  unfold checkRst
  split
  · split
    · exact (h.setError ECONNREFUSED).tcpClose
    · split
      · exact h.toKept.same rfl rfl rfl rfl
      · exact (h.setError ECONNRESET).tcpClose
    · exact (h.setError ECONNRESET).tcpClose
    · exact (h.setError ECONNRESET).tcpClose
    · exact (h.setError ECONNRESET).tcpClose
    · exact h.tcpClose
    · exact h.tcpClose
    · exact h.tcpClose
    · exact h
  · exact h

theorem checkSyn_kept (h : Live b bt st) : FlowKept b bt (checkSyn e st) := by
  unfold checkSyn
  split
  · split
    · exact h.jump _
    · exact h.tcpDrop e ECONNRESET
  · exact h

theorem checkAck_kept (h : Live b bt st) : FlowKept b bt (checkAck st) := by
  unfold checkAck
  split
  · exact h
  · exact h.jump _

theorem ackSynReceived_kept (h : Live b bt st) : FlowKept b bt (ackSynReceived st) := by
  unfold ackSynReceived
  split
  · split
    · exact h.jump _
    · exact h.tcpPresent (c := synReceivedEst st.x)
        (tcpPresent_ents (c := synReceivedEst st.x) h.sync) rfl rfl rfl
  · exact h

theorem ackDup_kept (h : Live b bt st) : FlowKept b bt (ackDup e st) := by
  unfold ackDup
  dsimp only
  split
  · split
    · exact h.same rfl rfl rfl rfl
    · split
      · show Kept b bt ((InOwn.tcpOutput e (st.setConn _)).setConn _)
        refine Kept.setConn (Kept.tcpOutput ?_ e) ?_
        · exact h.setConn rfl
        · rfl
      · split
        · show Kept b bt (InOwn.tcpOutput e (st.setConn _))
          refine Kept.tcpOutput ?_ e
          exact h.setConn rfl
        · exact h.same rfl rfl rfl rfl
  · exact h.same rfl rfl rfl rfl

theorem ackConn_tSegq (x : InSt) : (ackConn x).tp.tSegq = x.conn.tp.tSegq := by
  have h := field_of_kept Tcpcb.tSegq (ackRtt_kept x) fun _ => rfl
  exact h

theorem enterFinWait2_tSegq (c : Conn) : (enterFinWait2 c).tp.tSegq = c.tp.tSegq := by
  unfold enterFinWait2
  split <;> rfl

theorem ackState_kept (h : Live b bt st) (fin : Bool) : FlowKept b bt (ackState fin st) := by
  unfold ackState
  split
  · cases fin
    · exact h
    · exact h.same (enterFinWait2_tSegq _) rfl rfl rfl
  · cases fin
    · exact h
    · exact h.same rfl rfl rfl rfl
  · cases fin
    · exact h
    · exact h.tcpClose
  · exact h.toKept.same rfl rfl rfl rfl
  · exact h

theorem ackProcess_kept (h : Live b bt st) : FlowKept b bt (ackProcess e st) := by
  unfold ackProcess
  split
  · exact ackDup_kept h
  · unfold ackNew
    split
    · exact h.toKept.same rfl rfl rfl rfl
    · refine ackState_kept ?_ _
      exact h.same (ackConn_tSegq st.x) rfl rfl rfl

theorem leftTrim_tSegq (x : InSt) : (leftTrim x).conn.tp.tSegq = x.conn.tp.tSegq := by
  rcases leftTrim_conn x with h | h <;> rw [h]
  rfl

theorem inputChecks_kept (h : Live b bt st) : FlowKept b bt (inputChecks e st) := by
  unfold inputChecks
  refine FlowKept.bind (afterClose_kept (h.same (leftTrim_tSegq st.x) rfl rfl rfl)) fun st h => ?_
  refine FlowKept.bind (rightTrim_kept h) fun st h => ?_
  refine FlowKept.bind (checkRst_kept h) fun st h => ?_
  exact FlowKept.bind (checkSyn_kept h) fun st h => checkAck_kept h

/-- **In front of `step6`** the segment is not touched. -/
theorem inputHead_kept (h : Live b bt st) : FlowKept b bt (inputHead e s st) := by
  unfold inputHead
  split
  · exact (inputListen_kept h).map fun _ => trimThenStep6_kept
  · exact (inputSynSent_kept h).map fun _ => trimThenStep6_kept
  · refine FlowKept.bind (inputChecks_kept h) fun st h => ?_
    exact FlowKept.bind (ackSynReceived_kept h) fun st h => ackProcess_kept h

/-! ## The text and the labels -/

/-- The segment has gone: it is in the queue, appended or freed. -/
structure Used (e : Call) (b bt : List Nat) (st : InOwn) : Prop where
  balanced : Balanced (e.m :: b) bt st.obs st.segq.chains st.segq.blocks
  sync : st.x.conn.tp.tSegq = st.segq.ents
  headed : Headed st.segq
  modest : Modest e.block st.obs
  gone : st.gone = true → st.segq = []

theorem Used.tcpDrop (h : Used e b bt st) (errno : Int) : Used e b bt (st.tcpDrop e errno) := by
  constructor
  · exact h.balanced.trans (balanced_freeq st.segq)
  · rfl
  · exact fun _ hx => (List.not_mem_nil hx).elim
  · exact h.modest.snoc (quiet_freeq st.segq)
  · exact fun _ => rfl

/-- A label frees the segment. -/
theorem Kept.free (h : Kept b bt st) (hs : st'.x.conn.tp.tSegq = st.x.conn.tp.tSegq)
    (hq : st'.segq = st.segq) (ho : st'.obs = st.obs ++ [.mFreem e.m]) (hg : st'.gone = st.gone) :
    Used e b bt st' := by
  have hm : Balanced (e.m :: b) bt (st.obs ++ [.mFreem e.m]) st.segq.chains st.segq.blocks :=
    (h.balanced.append (balanced_free e.m)).perm List.perm_append_comm (.of_eq (List.append_nil bt))
      (.of_eq (List.append_nil _)) (.of_eq (List.append_nil _))
  constructor
  · rw [ho, hq]
    exact hm
  · rw [hs, hq, h.sync]
  · rw [hq]
    exact h.headed
  · rw [ho]
    exact (h.quiet.append (quiet_mFreem e.m)).modest _
  · rw [hg, hq]
    exact h.gone

theorem atDrop_used (h : Kept b bt st) : Used e b bt (atDrop e st) := by
  have hfree : Used e b bt (st.mFreem e) := h.free rfl rfl rfl rfl
  unfold atDrop
  dsimp only
  split
  · exact hfree.tcpDrop ECONNABORTED
  · exact hfree

theorem atDropafterack_used (h : Kept b bt st) : Used e b bt (atDropafterack e st) := by
  unfold atDropafterack
  split
  · exact atDrop_used h
  · exact h.free (tcpOutput_tSegq _ _) rfl rfl rfl

theorem tcpRespond_eq (alloc : Bool) (mb : Nat) : tcpRespond alloc mb = [.mFreem mb] := by
  cases alloc <;> rfl

theorem atDropwithreset_used (h : Kept b bt st) : Used e b bt (atDropwithreset e st) := by
  have hfree : Used e b bt { st with obs := st.obs ++ [.mFreem e.m] } := h.free rfl rfl rfl rfl
  unfold atDropwithreset
  rw [tcpRespond_eq]
  split
  · exact atDrop_used h
  · dsimp only
    split
    · exact hfree.tcpDrop ECONNABORTED
    · exact hfree

theorem step6_tSegq (x : InSt) : (step6 x).conn.tp.tSegq = x.conn.tp.tSegq := by
  unfold step6 updateWindow
  dsimp only
  repeat' split
  all_goals rfl

theorem doFin_tSegq (fin : Bool) (c : Conn) : (doFin fin c).tp.tSegq = c.tp.tSegq := by
  unfold doFin
  split
  · have h : (finAdvance c).tp.tSegq = c.tp.tSegq := by
      unfold finAdvance
      split <;> rfl
    rw [← h]
    unfold finState
    split <;> rfl
  · rfl

theorem inputOutput_tSegq (e : InEnv) (needoutput : Bool) (c : Conn) :
    (inputOutput e needoutput c).conn.tp.tSegq = c.tp.tSegq := by
  unfold inputOutput
  split
  · exact tcpOutput_tSegq _ _
  · rfl

theorem doData_ents (e : Call) {x : InSt} (h : x.conn.tp.tSegq = segq.ents) :
    (TnNet.doData e.toInEnv x).1.tp.tSegq = (doData e x segq).1.ents := by
  unfold TnNet.doData doData
  split
  · split
    · exact h
    · exact tcpReass_ents e h _ _ _
  · exact h

/-- The text is linked, appended or freed. -/
theorem doData_balanced (e : Call) (x : InSt) (segq : Segq) :
    Balanced (e.m :: segq.chains) segq.blocks (doData e x segq).2 (doData e x segq).1.chains
      (doData e x segq).1.blocks := by
  unfold doData
  split
  · split
    · cases x.so.ssCantrcvmore with
      | false => exact (balanced_sbappend e.m).frame segq.chains segq.blocks
      | true => exact (balanced_free e.m).frame segq.chains segq.blocks
    · exact tcpReass_balanced e _ _ _ _ _
  · exact (balanced_free e.m).frame segq.chains segq.blocks

theorem doData_headed (he : e.thBuf = e.m) (h : Headed segq) (x : InSt) : Headed (doData e x segq).1 := by
  unfold doData
  split
  · split
    · exact h
    · exact tcpReass_headed h he _ _ _ _
  · exact h

theorem doData_modest (e : Call) (x : InSt) (segq : Segq) : Modest e.block (doData e x segq).2 := by
  unfold doData
  split
  · split
    · refine Quiet.modest (.cons ?_ quiet_nil) _
      cases x.so.ssCantrcvmore <;> exact ⟨rfl, rfl⟩
    · exact tcpReass_modest e _ _ _ _ _
  · exact (quiet_mFreem e.m).modest _

theorem inputTail_used (he : e.thBuf = e.m) (h : Live b bt st) : Used e b bt (inputTail e st) := by
  have hsync : (step6 st.x).conn.tp.tSegq = st.segq.ents := (step6_tSegq st.x).trans h.sync
  have hframe : Balanced (e.m :: b) bt st.obs (e.m :: st.segq.chains) st.segq.blocks :=
    (h.balanced.frame [e.m] []).perm List.perm_append_comm (.of_eq (List.append_nil bt))
      List.perm_append_comm (.of_eq (List.append_nil _))
  constructor
  · exact hframe.trans (doData_balanced e (step6 st.x) st.segq)
  · exact ((inputOutput_tSegq _ _ _).trans (doFin_tSegq _ _)).trans (doData_ents e hsync)
  · exact doData_headed he h.headed _
  · exact .append h.quiet (doData_modest e _ _)
  · intro hg
    exact absurd (hg.symm.trans h.live) (by decide)

/-- **A pass consumes the segment**, or leaves it to the next one. -/
theorem inputPass_used (he : e.thBuf = e.m) (h : Live b bt st) :
    match inputPass e s st with
    | .inl st => Used e b bt st
    | .inr st => Kept b bt st := by
  have hhead := inputHead_kept (e := e) (s := s) h
  unfold inputPass
  revert hhead
  cases inputHead e s st with
  | ok st => exact inputTail_used he
  | error j =>
    obtain ⟨label, st⟩ := j
    intro hhead
    cases label with
    | drop => exact atDrop_used hhead
    | dropafterack => exact atDropafterack_used hhead
    | dropwithreset => exact atDropwithreset_used hhead
    | findpcb => exact hhead

end TnNet.Owned
