import TnNet.Tcp.OwnerRules

/-!
# Segments are consumed once

All connections of the stack, over runs of segments, timers and user calls: every chain passed to
`tcp_input` is in one queue entry, appended to a receive buffer, or freed, once, and every queue block is on
a `t_segq` or returned (`Accounted`).

* `findpcb_consumes`, `tcpInput_consumes` — one call, whatever the lookup finds.
* `netInv_step` — a step of the machine.
* `segments_consumed` — every state of every run, and the call behind it.
-/

set_option autoImplicit false

namespace TnNet.Owned

/-! ## The connections -/

/-- The chains in the queues. -/
def chainsOf (conns : List OConn) : List Nat := conns.flatMap fun c => c.segq.chains

/-- The blocks of the queues. -/
def blocksOf (conns : List OConn) : List Nat := conns.flatMap fun c => c.segq.blocks

/-- The queue of a connection is that of its control block, and its headers lie in their own chains. -/
structure OConn.Ok (c : OConn) : Prop where
  sync : c.conn.tp.tSegq = c.segq.ents
  headed : Headed c.segq

variable {conns : List OConn} {i k : Nat} {c : OConn} {st : InOwn} {obs : List Obs} {b bt : List Nat}

theorem perm_get {α : Type} (f : OConn → List α) (hi : conns[i]? = some c) :
    (f c ++ (conns.eraseIdx i).flatMap f).Perm (conns.flatMap f) := by
  obtain ⟨hlt, rfl⟩ := List.getElem?_eq_some_iff.mp hi
  exact (List.getElem_cons_eraseIdx_perm hlt).flatMap_right f

/-- A connection is put back. -/
theorem perm_putBack {α : Type} {f : OConn → List α} {q : List α} (hi : conns[i]? = some c)
    (hgone : st.gone = true → q = []) (hq : f ⟨st.x.conn, st.segq⟩ = q) :
    (q ++ (conns.eraseIdx i).flatMap f).Perm ((putBack conns i st).flatMap f) := by
  obtain ⟨hlt, rfl⟩ := List.getElem?_eq_some_iff.mp hi
  unfold putBack
  split
  · rename_i hg
    rw [hgone hg, List.nil_append]
  · rw [← hq]
    exact (List.set_perm_cons_eraseIdx hlt _).symm.flatMap_right f

/-- A connection is added. -/
theorem perm_putNew {α : Type} {f : OConn → List α} {q : List α} (hgone : st.gone = true → q = [])
    (hq : f ⟨st.x.conn, st.segq⟩ = q) : (q ++ conns.flatMap f).Perm ((putNew conns st).flatMap f) := by
  unfold putNew
  split
  · rename_i hg
    rw [hgone hg, List.nil_append]
  · rw [← hq, List.flatMap_append, List.flatMap_singleton]
    exact List.perm_append_comm

theorem putBack_ok (hok : ∀ c ∈ conns, c.Ok) (hc : OConn.Ok ⟨st.x.conn, st.segq⟩) :
    ∀ c ∈ putBack conns i st, c.Ok := by
  unfold putBack
  split
  · exact fun c hmem => hok c (List.mem_of_mem_eraseIdx hmem)
  · intro c hmem
    rcases List.mem_or_eq_of_mem_set hmem with hmem | rfl
    · exact hok c hmem
    · exact hc

theorem putNew_ok (hok : ∀ c ∈ conns, c.Ok) (hc : OConn.Ok ⟨st.x.conn, st.segq⟩) :
    ∀ c ∈ putNew conns st, c.Ok := by
  unfold putNew
  split
  · exact hok
  · exact List.forall_mem_append.mpr ⟨hok, List.forall_mem_singleton.mpr hc⟩

/-! ## One call -/

/-- The call for the chain `k` has consumed it. -/
structure Consumes (k : Nat) (conns : List OConn) (r : List OConn × List Obs) : Prop where
  balanced : Balanced (k :: chainsOf conns) (blocksOf conns) r.2 (chainsOf r.1) (blocksOf r.1)
  conns : ∀ c ∈ r.1, c.Ok
  modest : Modest k r.2

theorem consumes_free (hok : ∀ c ∈ conns, c.Ok) (k : Nat) : Consumes k conns (conns, [.mFreem k]) :=
  ⟨(balanced_free k).frame (chainsOf conns) (blocksOf conns), hok, (quiet_mFreem k).modest k⟩

theorem consumes_reset (hok : ∀ c ∈ conns, c.Ok) (a : Arrival) (k : Nat) (tiflags : ThFlags) :
    Consumes k conns (conns, resetSegment a k tiflags) := by
  unfold resetSegment
  rw [tcpRespond_eq, ite_self]
  exact consumes_free hok k

theorem putBack_balanced (hi : conns[i]? = some c) (hgone : st.gone = true → st.segq = []) {p : List Nat}
    (h : Balanced (p ++ c.segq.chains) c.segq.blocks obs st.segq.chains st.segq.blocks) :
    Balanced (p ++ chainsOf conns) (blocksOf conns) obs (chainsOf (putBack conns i st))
      (blocksOf (putBack conns i st)) := by
  refine (h.frame (chainsOf (conns.eraseIdx i)) (blocksOf (conns.eraseIdx i))).perm ?_ ?_ ?_ ?_
  · rw [List.append_assoc]
    exact (perm_get (fun c => c.segq.chains) hi).append_left p
  · exact perm_get (fun c => c.segq.blocks) hi
  · exact perm_putBack hi (fun hg => by rw [hgone hg]; rfl) rfl
  · exact perm_putBack hi (fun hg => by rw [hgone hg]; rfl) rfl

theorem putNew_balanced (hgone : st.gone = true → st.segq = []) {p : List Nat}
    (h : Balanced p [] obs st.segq.chains st.segq.blocks) :
    Balanced (p ++ chainsOf conns) (blocksOf conns) obs (chainsOf (putNew conns st))
      (blocksOf (putNew conns st)) := by
  refine (h.frame (chainsOf conns) (blocksOf conns)).perm (.refl _) (.refl _) ?_ ?_
  · exact perm_putNew (fun hg => by rw [hgone hg]; rfl) rfl
  · exact perm_putNew (fun hg => by rw [hgone hg]; rfl) rfl

theorem inputSetup_tSegq (e : InEnv) (s : Seg) (l : Locals) (c : Conn) :
    (inputSetup e s l c).conn.tp.tSegq = c.tp.tSegq := by
  unfold inputSetup TnNet.inputSetup
  dsimp only
  split
  · rfl
  · have h := field_of_kept Tcpcb.tSegq (tcpDooptions_kept s.th.thFlags.syn e.ifMtu s.opt
      { c.tp with tIdle := 0, timerKeep := tcpKeepidle }) fun _ => rfl
    exact h

/-- The state in front of the state switch. -/
theorem live_setup {segq : Segq} {x : InSt} (hs : x.conn.tp.tSegq = segq.ents) (hh : Headed segq)
    (dropsocket : Bool) : Live segq.chains segq.blocks { x := x, segq := segq, dropsocket := dropsocket } :=
  ⟨⟨.refl _ _, hs, hh, quiet_nil, fun h => (nomatch h)⟩, rfl⟩

/-- What comes in front of another pass. -/
theorem Consumes.behind {conns' : List OConn} {r : List OConn × List Obs} (h : Consumes k conns' r)
    (hb : Balanced (chainsOf conns) (blocksOf conns) obs (chainsOf conns') (blocksOf conns'))
    (hq : Quiet obs) : Consumes k conns (r.1, obs ++ r.2) := by
  refine ⟨.trans ?_ h.balanced, h.conns, .append hq h.modest⟩
  have hframe := hb.frame [k] []
  rw [List.append_nil, List.append_nil] at hframe
  exact hframe.perm List.perm_append_comm (.refl _) List.perm_append_comm (.refl _)

/-- **The lookup and everything behind it** consume the chain. -/
theorem findpcb_consumes (a : Arrival) (s : Seg) (k : Nat) (found : List Found) (l : Locals)
    (conns : List OConn) (hok : ∀ c ∈ conns, c.Ok) : Consumes k conns (findpcb a s k found l conns) := by
  induction found generalizing l conns with
  | nil => exact consumes_reset hok a k _
  | cons f found ih =>
    cases f with
    | none => exact consumes_reset hok a k _
    | closed => exact consumes_free hok k
    | listen e mem so =>
      unfold findpcb
      split
      · split
        · exact consumes_reset hok a k _
        · exact consumes_free hok k
      · split
        · exact consumes_free hok k
        · cases so with
          | none => exact consumes_free hok k
          | some so =>
            have hlive : Live [] [] { x := inputSetup e s l (passiveOpen so), segq := [],
                                      dropsocket := true } :=
              @live_setup [] _ (inputSetup_tSegq e s l _) (fun _ h => (List.not_mem_nil h).elim) true
            have hpass := inputPass_used (e := a.call k e) (s := s) rfl hlive
            dsimp only
            cases hp : inputPass (a.call k e) s
                { x := inputSetup e s l (passiveOpen so), segq := [], dropsocket := true } with
            | inl st =>
              rw [hp] at hpass
              exact ⟨putNew_balanced hpass.gone hpass.balanced,
                putNew_ok hok ⟨hpass.sync, hpass.headed⟩, hpass.modest⟩
            | inr st =>
              rw [hp] at hpass
              refine (ih (.ofSt st.x) (putNew conns st) ?_).behind ?_ hpass.quiet
              · exact putNew_ok hok ⟨hpass.sync, hpass.headed⟩
              · exact putNew_balanced hpass.gone hpass.balanced
    | conn e i =>
      unfold findpcb
      cases hi : conns[i]? with
      | none => exact consumes_reset hok a k _
      | some c =>
        have hc := hok c (List.mem_of_getElem? hi)
        dsimp only
        split
        · exact consumes_free hok k
        · have hlive : Live c.segq.chains c.segq.blocks { x := inputSetup e s l c.conn, segq := c.segq } :=
            live_setup ((inputSetup_tSegq e s l _).trans hc.sync) hc.headed false
          have hpass := inputPass_used (e := a.call k e) (s := s) rfl hlive
          cases hp : inputPass (a.call k e) s { x := inputSetup e s l c.conn, segq := c.segq } with
          | inl st =>
            rw [hp] at hpass
            exact ⟨putBack_balanced (p := [k]) hi hpass.gone hpass.balanced,
              putBack_ok hok ⟨hpass.sync, hpass.headed⟩, hpass.modest⟩
          | inr st =>
            rw [hp] at hpass
            refine (ih (.ofSt st.x) (putBack conns i st) ?_).behind ?_ hpass.quiet
            · exact putBack_ok hok ⟨hpass.sync, hpass.headed⟩
            · exact putBack_balanced (p := []) hi hpass.gone hpass.balanced

/-- **A call of `tcp_input`** consumes the chain. -/
theorem tcpInput_consumes (a : Arrival) (k : Nat) (conns : List OConn) (hok : ∀ c ∈ conns, c.Ok) :
    Consumes k conns (tcpInput a k conns) := by
  unfold tcpInput
  repeat' split
  · exact consumes_free hok k
  · exact consumes_free hok k
  · exact consumes_free hok k
  · exact consumes_free hok k
  · exact consumes_free hok k
  · exact findpcb_consumes a _ k _ _ conns hok

/-! ## The other events -/

/-- An invariant of the rules for a connection: the queue is `q`. -/
theorem segq_stable (q : List Tcpqent) : Stable fun c => c.tp.tSegq = q := by
  constructor
  case core =>
    intro c c' h hcore
    have h1 := congrArg (fun c : Conn => c.tp.tSegq) hcore
    exact h1.trans h
  case output => exact fun env c h => (tcpOutput_tSegq env c).trans h
  case options =>
    intro syn mtu opt c h
    have h1 := field_of_kept Tcpcb.tSegq (tcpDooptions_kept syn mtu opt c.tp) fun _ => rfl
    exact h1.trans h
  case drop => exact fun c h => h

theorem segq_user (q : List Tcpqent) : UserInv fun c => c.tp.tSegq = q := by
  constructor
  all_goals intros
  all_goals assumption

/-- Timers and user calls leave the queue alone, or close the connection. -/
theorem connStep_segq (c : Conn) {ev : Event} (hev : ∀ e s, ev ≠ .input e s)
    (hg : (connStep c ev).gone = false) : (connStep c ev).conn.tp.tSegq = c.tp.tSegq := by
  have hok : (connStep c ev).Ok fun c' => c'.tp.tSegq = c.tp.tSegq := by
    refine connStep_ok (segq_stable _) (segq_user _) rfl ?_ ?_ ?_ ?_
    · exact fun e s h => absurd h (hev e s)
    · exact fun _ _ _ _ _ => rfl
    · exact fun _ _ _ => rfl
    · exact fun _ _ => rfl
  exact hok.conn hg

/-- What holds behind another event. -/
structure Moves (conns : List OConn) (r : List OConn × List Obs) : Prop where
  balanced : Balanced (chainsOf conns) (blocksOf conns) r.2 (chainsOf r.1) (blocksOf r.1)
  conns : ∀ c ∈ r.1, c.Ok
  quiet : Quiet r.2

theorem moves_refl (hok : ∀ c ∈ conns, c.Ok) : Moves conns (conns, []) := ⟨.refl _ _, hok, quiet_nil⟩

/-- A connection is closed. -/
theorem moves_erase (hok : ∀ c ∈ conns, c.Ok) (hi : conns[i]? = some c) :
    Moves conns (conns.eraseIdx i, tcpFreeq c.segq) := by
  constructor
  · have h := (balanced_freeq c.segq).frame (chainsOf (conns.eraseIdx i)) (blocksOf (conns.eraseIdx i))
    exact h.perm (perm_get (fun c => c.segq.chains) hi) (perm_get (fun c => c.segq.blocks) hi)
      (.refl _) (.refl _)
  · exact fun c hmem => hok c (List.mem_of_mem_eraseIdx hmem)
  · exact quiet_freeq c.segq

/-- A connection changes, but not its queue. -/
theorem moves_set (hok : ∀ c ∈ conns, c.Ok) (hi : conns[i]? = some c) {conn : Conn}
    (hconn : conn.tp.tSegq = c.conn.tp.tSegq) : Moves conns (conns.set i ⟨conn, c.segq⟩, []) := by
  have hc := hok c (List.mem_of_getElem? hi)
  have hset : ∀ {α : Type} (f : OConn → List α), f ⟨conn, c.segq⟩ = f c →
      (conns.flatMap f).Perm ((conns.set i ⟨conn, c.segq⟩).flatMap f) := by
    intro α f hf
    obtain ⟨hlt, -⟩ := List.getElem?_eq_some_iff.mp hi
    refine (perm_get f hi).symm.trans ?_
    rw [← hf]
    exact (List.set_perm_cons_eraseIdx hlt _).symm.flatMap_right f
  constructor
  · exact (Balanced.refl _ _).perm (.refl _) (.refl _) (hset _ rfl) (hset _ rfl)
  · intro c' hmem
    rcases List.mem_or_eq_of_mem_set hmem with hmem | rfl
    · exact hok c' hmem
    · exact ⟨hconn.trans hc.sync, hc.headed⟩
  · exact quiet_nil

theorem eventConn_moves (hok : ∀ c ∈ conns, c.Ok) (i : Nat) (ev : Event) :
    Moves conns (eventConn conns i ev) := by
  have hmove : ∀ c, conns[i]? = some c → (∀ e s, ev ≠ .input e s) →
      Moves conns (if (connStep c.conn ev).gone then (conns.eraseIdx i, tcpFreeq c.segq)
        else (conns.set i ⟨(connStep c.conn ev).conn, c.segq⟩, [])) := by
    intro c hi hev
    split
    · exact moves_erase hok hi
    · rename_i hg
      exact moves_set hok hi (connStep_segq c.conn hev (by simpa using hg))
  unfold eventConn
  cases hi : conns[i]? with
  | none => exact moves_refl hok
  | some c =>
    cases ev with
    | input e s => exact moves_refl hok
    | _ => exact hmove c hi fun _ _ h => nomatch h

/-! ## Runs -/

/-- The invariant of the machine. -/
structure NetInv (n : Net) (hist : List Obs) : Prop where
  balanced : Balanced [] [] hist (chainsOf n.conns) (blocksOf n.conns)
  conns : ∀ c ∈ n.conns, c.Ok
  comes : hist.flatMap Obs.comes = List.range n.arrived
  allocs : (hist.flatMap Obs.allocs).Sublist (List.range n.arrived)

theorem netInv_start : NetInv {} [] :=
  ⟨.refl [] [], fun _ h => (List.not_mem_nil h).elim, rfl, List.Sublist.slnil⟩

variable {n n' : Net} {hist : List Obs} {r : List OConn × List Obs}

theorem NetInv.moves (hi : NetInv n hist) (h : Moves n.conns r) :
    NetInv { n with conns := r.1 } (hist ++ r.2) := by
  have hq := h.quiet.modest 0
  have hallocs : r.2.flatMap Obs.allocs = [] := List.flatMap_eq_nil_iff.mpr fun o ho => (h.quiet o ho).2
  constructor
  · exact hi.balanced.trans h.balanced
  · exact h.conns
  · rw [List.flatMap_append, hq.comes, List.append_nil]
    exact hi.comes
  · rw [List.flatMap_append, hallocs, List.append_nil]
    exact hi.allocs

theorem NetInv.consumes (hi : NetInv n hist) (h : Consumes n.arrived n.conns r) :
    NetInv ⟨r.1, n.arrived + 1⟩ (hist ++ .passed n.arrived :: r.2) := by
  have hpassed : Balanced (chainsOf n.conns) (blocksOf n.conns) [.passed n.arrived]
      (n.arrived :: chainsOf n.conns) (blocksOf n.conns) := by
    constructor <;> intro x <;> simp [Obs.comes, Obs.goes, Obs.allocs, Obs.returns, List.count_cons,
      Nat.add_comm]
  constructor
  · exact hi.balanced.trans (hpassed.trans h.balanced)
  · exact h.conns
  · rw [List.flatMap_append, List.flatMap_cons, h.modest.comes, hi.comes, List.range_succ]
    rfl
  · rw [List.flatMap_append, List.flatMap_cons, List.range_succ]
    refine hi.allocs.append ?_
    rcases h.modest.allocs with ha | ha
    · rw [ha]
      exact List.nil_sublist _
    · rw [ha]
      exact .refl _

theorem netInv_step {ev : NetEvent} (hi : NetInv n hist) (hn : (netMachine n ev).1 = some n') :
    NetInv n' (hist ++ (netMachine n ev).2) := by
  cases ev with
  | input a =>
    cases hn
    exact hi.consumes (tcpInput_consumes a n.arrived n.conns hi.conns)
  | connect iss so h =>
    cases hn
    have hnew : ∀ {α : Type} (f : OConn → List α), f ⟨activeOpen iss so, []⟩ = [] →
        (n.conns ++ [(⟨activeOpen iss so, []⟩ : OConn)]).flatMap f = n.conns.flatMap f := by
      intro α f hf
      rw [List.flatMap_append, List.flatMap_singleton, hf, List.append_nil]
    have hmoves : Moves n.conns (n.conns ++ [⟨activeOpen iss so, []⟩], []) := by
      refine ⟨?_, ?_, quiet_nil⟩
      · exact (Balanced.refl _ _).perm (.refl _) (.refl _) (.of_eq (hnew (fun c => c.segq.chains) rfl).symm)
          (.of_eq (hnew (fun c => c.segq.blocks) rfl).symm)
      · exact List.forall_mem_append.mpr ⟨hi.conns,
          List.forall_mem_singleton.mpr ⟨rfl, fun _ h => (List.not_mem_nil h).elim⟩⟩
    exact hi.moves hmoves
  | conn i ev =>
    cases hn
    exact hi.moves (eventConn_moves hi.conns i ev)

theorem netInv_run (es : List NetEvent) (hn : (Machine.run netMachine (some {}) es).1 = some n) :
    NetInv n (Machine.run netMachine (some {}) es).2 := by
  have hg : Machine.Guarded netMachine (fun _ _ => True) (some {}) es := Machine.guarded_true _ _ es
  exact Machine.run_record NetInv (fun n ev hist n' hi _ hn => netInv_step hi hn) netInv_start hg hn

/-! ## Consumed once -/

theorem count_goes (obs : List Obs) (m : Nat) :
    (obs.flatMap Obs.goes).count m = obs.count (.sbappend m) + obs.count (.mFreem m) := by
  induction obs with
  | nil => rfl
  | cons o obs ih =>
    rw [List.flatMap_cons, List.count_append, ih, List.count_cons, List.count_cons]
    cases o <;> simp [Obs.goes, List.count_cons] <;> omega

theorem count_returns (obs : List Obs) (k : Nat) :
    (obs.flatMap Obs.returns).count k = obs.count (.freeMin k) := by
  induction obs with
  | nil => rfl
  | cons o obs ih =>
    rw [List.flatMap_cons, List.count_append, ih, List.count_cons]
    cases o <;> simp [Obs.returns, List.count_cons, Nat.add_comm]

/-- Every chain passed in is in one entry, appended or freed, once; every block is in one entry or
    returned, once; the header of an entry lies in a buffer that is neither appended nor freed; and the
    queues are those of the control blocks. -/
structure Accounted (n : Net) (hist : List Obs) : Prop where
  once : ∀ m, .passed m ∈ hist →
    hist.count (.sbappend m) + hist.count (.mFreem m) + (chainsOf n.conns).count m = 1
  blocks : ∀ k, .allocMin k ∈ hist → hist.count (.freeMin k) + (blocksOf n.conns).count k = 1
  header : ∀ c ∈ n.conns, ∀ q ∈ c.segq,
    q.tcpqeTcp = q.tcpqeM ∧ .sbappend q.tcpqeTcp ∉ hist ∧ .mFreem q.tcpqeTcp ∉ hist
  queues : ∀ c ∈ n.conns, c.conn.tp.tSegq = c.segq.ents

/-- The call for the chain `m` has appended it, freed it or linked it to one entry, once, and the block
    it has allocated is in one entry or returned, once. -/
structure Once (m : Nat) (r : List OConn × List Obs) : Prop where
  chain : r.2.count (.sbappend m) + r.2.count (.mFreem m) + (chainsOf r.1).count m = 1
  block : ∀ k, .allocMin k ∈ r.2 → r.2.count (.freeMin k) + (blocksOf r.1).count k = 1

theorem NetInv.chain_count (hi : NetInv n hist) (m : Nat) :
    hist.count (.sbappend m) + hist.count (.mFreem m) + (chainsOf n.conns).count m =
      if m < n.arrived then 1 else 0 := by
  have h := hi.balanced.chains m
  rw [count_goes, hi.comes, List.count_nil, Nat.add_zero] at h
  rw [h]
  split
  · rename_i hm
    exact List.count_eq_one_of_mem List.nodup_range (List.mem_range.mpr hm)
  · rename_i hm
    exact List.count_eq_zero_of_not_mem fun hc => hm (List.mem_range.mp hc)

theorem NetInv.block_count (hi : NetInv n hist) (k : Nat) :
    hist.count (.freeMin k) + (blocksOf n.conns).count k = (hist.flatMap Obs.allocs).count k := by
  have h := hi.balanced.blocks k
  rwa [count_returns, List.count_nil, Nat.add_zero] at h

theorem NetInv.accounted (hi : NetInv n hist) : Accounted n hist := by
  constructor
  case once =>
    intro m hm
    have hmem : m ∈ List.range n.arrived := by
      rw [← hi.comes]
      exact List.mem_flatMap.mpr ⟨_, hm, List.mem_singleton_self m⟩
    rw [hi.chain_count, if_pos (List.mem_range.mp hmem)]
  case blocks =>
    intro k hk
    rw [hi.block_count]
    exact List.count_eq_one_of_mem (List.nodup_range.sublist hi.allocs)
      (List.mem_flatMap.mpr ⟨_, hk, List.mem_singleton_self k⟩)
  case header =>
    intro c hc q hq
    have hhead := (hi.conns c hc).headed q hq
    have hpos : 0 < (chainsOf n.conns).count q.tcpqeM :=
      List.count_pos_iff.mpr (List.mem_flatMap.mpr ⟨c, hc, List.mem_map_of_mem hq⟩)
    have hcount := hi.chain_count q.tcpqeM
    have hle : (if q.tcpqeM < n.arrived then 1 else 0) ≤ 1 := by split <;> omega
    rw [hhead]
    refine ⟨rfl, ?_, ?_⟩
    · exact List.count_eq_zero.mp (by omega)
    · exact List.count_eq_zero.mp (by omega)
  case queues => exact fun c hc => (hi.conns c hc).sync

theorem Consumes.once (h : Consumes n.arrived n.conns r) (hi : NetInv n hist) : Once n.arrived r := by
  have hfresh := hi.chain_count n.arrived
  rw [if_neg (Nat.lt_irrefl _)] at hfresh
  constructor
  case chain =>
    have hb := h.balanced.chains n.arrived
    rw [count_goes, h.modest.comes, List.count_nil, List.count_cons_self] at hb
    omega
  case block =>
    intro k hk
    have hmem : k ∈ r.2.flatMap Obs.allocs := List.mem_flatMap.mpr ⟨_, hk, List.mem_singleton_self k⟩
    have hb := h.balanced.blocks k
    rw [count_returns] at hb
    rcases h.modest.allocs with ha | ha
    · rw [ha] at hmem
      exact (List.not_mem_nil hmem).elim
    · rw [ha] at hmem hb
      obtain rfl := List.mem_singleton.mp hmem
      have hnew := hi.block_count n.arrived
      have hzero : (hist.flatMap Obs.allocs).count n.arrived = 0 :=
        List.count_eq_zero_of_not_mem fun hc =>
          Nat.lt_irrefl _ (List.mem_range.mp (hi.allocs.subset hc))
      rw [List.count_singleton_self] at hb
      omega

/-- **Segments are consumed once.**  In every state of every run, and in every call of `tcp_input` there. -/
theorem segments_consumed (es : List NetEvent) (n : Net)
    (hn : (Machine.run netMachine (some {}) es).1 = some n) (a : Arrival) :
    Accounted n (Machine.run netMachine (some {}) es).2 ∧
    Once n.arrived (tcpInput a n.arrived n.conns) := by
  have hi := netInv_run es hn
  exact ⟨hi.accounted, (tcpInput_consumes a n.arrived n.conns hi.conns).once hi⟩

/-- A segment of the first connection. -/
def segment (seq : BitVec 32) (syn : Bool) (data : List UInt8) (h : data.length < 65496) : Arrival where
  th := { thSeq := seq, thAck := 2, thFlags := { syn := syn, ack := true }, thWin := 1000 }
  m := (Seg.ofData { thSeq := seq, thFlags := {} } data h).m
  len_lt := (Seg.ofData { thSeq := seq, thFlags := {} } data h).len_lt
  found := [.conn {} 0]

theorem gap_short : ([3, 4] : List UInt8).length < 65496 := by decide

/-- A connection is opened, and two bytes come behind a gap. -/
def reordered : List NetEvent :=
  [.connect 1 newSocket newSocket_fresh, .conn 0 (.output fun _ => {}),
    .input (segment 100 true [] nil_short),
   .input (segment 103 false [3, 4] gap_short)]

theorem reordered_queued :
    ((Machine.run netMachine (some {}) reordered).1.map fun n => chainsOf n.conns) = some [1] := by
  decide +kernel

/-- The gap is filled behind it. -/
theorem segments_consumed_reordered : ∃ n, (Machine.run netMachine (some {}) reordered).1 = some n ∧
    chainsOf n.conns = [1] ∧ Accounted n (Machine.run netMachine (some {}) reordered).2 ∧
    Once n.arrived (tcpInput (segment 101 false [1, 2] (by decide)) n.arrived n.conns) := by
  obtain ⟨n, hn⟩ :=
    Machine.run_total netMachine (fun n ev => by cases ev <;> exact ⟨_, rfl⟩) {} reordered
  have hq := reordered_queued
  rw [hn] at hq
  exact ⟨n, hn, Option.some.inj hq, segments_consumed reordered n hn (segment 101 false [1, 2] (by decide))⟩

/-- Both are delivered. -/
example : (Machine.run netMachine (some {})
    (reordered ++ [.input (segment 101 false [1, 2] (by decide))])).2 =
    [.passed 0, .mFreem 0, .passed 1, .allocMin 1, .passed 2, .allocMin 2, .sbappend 2, .freeMin 2,
      .sbappend 1, .freeMin 1] := by decide +kernel

end TnNet.Owned
