import TnNet.Lib.During
import TnNet.Lib.Run
import TnNet.Tcp.Conn

/-!
# The timer task

`net_task_timer_func` counts the ticks of 100 ms in `cnt`, an `unsigned int`, and hands the count to
`tcp_timer_func` as an `int`, which calls `tcp_fasttimo` or `tcp_slowtimo` for all pcbs.

* `connOf_pcbLoop` — the loops over the pcbs work on each connection by itself.
* `run_counts` — a timer that nothing else changes counts down once on every slow tick.
* `timer_on_time` — it expires on the `k`-th following tick with a number divisible by 5 if and only if all
  those ticks have odd numbers; `oddMultiples_iff`: for `k = 1` only, and every other time.
-/

set_option autoImplicit false

namespace TnNet

open Ticks

/-! ## The loops over the pcbs -/

/-- The index of `t_timer`. -/
inductive TcpTimer where
  | rexmt
  | persist
  | keep
  | twoMsl
  deriving DecidableEq, Repr

/-- `t_timer[i]`. -/
def Tcpcb.timer (tp : Tcpcb) : TcpTimer → Int
  | .rexmt => tp.timerRexmt
  | .persist => tp.timerPersist
  | .keep => tp.timerKeep
  | .twoMsl => tp.timer2msl

/-- An `inpcb` of the list `tnet->tcb`: its address and, if it has one, its control block. -/
structure Pcb where
  inp : Nat
  conn : Option Conn

/-- A loop over the list.  The next entry is read before the body runs; a body that ends the connection
    unlinks its entry. -/
def pcbLoop (f : Nat → Conn → Res) : List Pcb → List Pcb
  | [] => []
  | p :: l =>
    match p.conn with
    | none => p :: pcbLoop f l
    | some c =>
      match (f p.inp c).next with
      | none => pcbLoop f l
      | some d => { p with conn := some d } :: pcbLoop f l

/-- The connection of a pcb. -/
def connOf (l : List Pcb) (inp : Nat) : Option Conn := (l.find? fun p => p.inp = inp).bind Pcb.conn

theorem pcbLoop_inps (f : Nat → Conn → Res) (l : List Pcb) :
    ((pcbLoop f l).map Pcb.inp).Sublist (l.map Pcb.inp) := by
  induction l with
  | nil => exact .slnil
  | cons p l ih =>
    unfold pcbLoop
    split
    · exact ih.cons_cons _
    · split
      · exact ih.cons _
      · exact ih.cons_cons _

theorem connOf_eq_none {l : List Pcb} {inp : Nat} (h : inp ∉ l.map Pcb.inp) : connOf l inp = none := by
  have hnone : (l.find? fun p => p.inp = inp) = none := by
    rw [List.find?_eq_none]
    intro p hp hpi
    exact h (List.mem_map.mpr ⟨p, hp, of_decide_eq_true hpi⟩)
  rw [connOf, hnone]
  rfl

theorem connOf_cons (p : Pcb) (l : List Pcb) (inp : Nat) :
    connOf (p :: l) inp = if p.inp = inp then p.conn else connOf l inp := by
  unfold connOf
  by_cases h : p.inp = inp <;> simp [h]

/-- **The loop** runs its body on each connection. -/
theorem connOf_pcbLoop (f : Nat → Conn → Res) {l : List Pcb} (hl : (l.map Pcb.inp).Nodup) (inp : Nat) :
    connOf (pcbLoop f l) inp = (connOf l inp).bind fun c => (f inp c).next := by
  induction l with
  | nil => rfl
  | cons p l ih =>
    rw [List.map_cons, List.nodup_cons] at hl
    obtain ⟨hp, hl⟩ := hl
    have hgone : p.inp = inp → connOf (pcbLoop f l) inp = none := fun h =>
      connOf_eq_none fun hm => hp (h ▸ (pcbLoop_inps f l).subset hm)
    rw [connOf_cons]
    unfold pcbLoop
    split
    · rename_i hc
      rw [connOf_cons, ih hl, hc]
      split <;> rfl
    · rename_i c hc
      split
      · rename_i hn
        by_cases h : p.inp = inp
        · rw [hgone h, if_pos h, hc]
          subst h
          exact hn.symm
        · rw [if_neg h, ih hl]
      · rename_i d hn
        rw [connOf_cons, ih hl]
        by_cases h : p.inp = inp
        · rw [if_pos h, if_pos h, hc]
          subst h
          exact hn.symm
        · rw [if_neg h, if_neg h]

/-! ## The timers of one connection -/

theorem andThen_next (r : Res) (f : Conn → Res) :
    (r.andThen f).next = r.next.bind fun d => (f d).next := by
  unfold Res.andThen Res.next
  cases hg : r.gone <;> simp [hg]

/-- The connection when the loop of `tcp_slowtimo` comes to its first timer. -/
def turnRexmt (c : Conn) : Option Conn :=
  if c.so.ssNofdref ∧ TcpState.closeWait.num < c.tp.tState.num ∧ c.tp.timer2msl ≤ 0 then none else some c

/-- The connection when the loop comes to the other timers, if it is still there. -/
def turnPersist (env : Nat → Nat → SendEnv) (c : Conn) : Option Conn :=
  (turnRexmt c).bind fun d => (tickRexmt (env 0) d).next

def turnKeep (env : Nat → Nat → SendEnv) (c : Conn) : Option Conn :=
  (turnPersist env c).bind fun d => (tickPersist (env 1) d).next

def turn2msl (env : Nat → Nat → SendEnv) (c : Conn) : Option Conn :=
  (turnKeep env c).bind fun d => (tickKeep (env 2) d).next

def turn (env : Nat → Nat → SendEnv) (c : Conn) : TcpTimer → Option Conn
  | .rexmt => turnRexmt c
  | .persist => turnPersist env c
  | .keep => turnKeep env c
  | .twoMsl => turn2msl env c

/-- The turns are those of `tcp_slowtimo`. -/
theorem tcpSlowtimo_next (env : Nat → Nat → SendEnv) (c : Conn) :
    (tcpSlowtimo env c).next =
      ((turn2msl env c).bind fun d => (tick2msl d).next).bind fun d => (tickCounters d).next := by
  unfold tcpSlowtimo turn2msl turnKeep turnPersist turnRexmt
  by_cases h : c.so.ssNofdref = true ∧ TcpState.closeWait.num < c.tp.tState.num ∧ c.tp.timer2msl ≤ 0
  · rw [if_pos h, if_pos h]
    rfl
  · rw [if_neg h, if_neg h]
    simp only [andThen_next, Option.bind_some]

/-- `tcp_slowtimo` calls `tcp_timers` for the timer. -/
def timersCalled (env : Nat → Nat → SendEnv) (c : Conn) (i : TcpTimer) : Bool :=
  (turn env c i).any fun d => timerExpired (d.tp.timer i)

/-! ## The task -/

/-- The counter and the pcbs. -/
structure TimerNet where
  cnt : BitVec 32
  tcb : List Pcb
  distinct : (tcb.map Pcb.inp).Nodup

/-- What `tcp_timer_func` calls. -/
inductive TimerCall where
  | tcpFasttimo
  | tcpSlowtimo
  deriving DecidableEq, Repr

/-- `tcp_timer_func`. -/
def tcpTimerFunc (cnt : Int) : Option TimerCall :=
  if cnt.tmod 2 = 0 then some .tcpFasttimo
  else if cnt.tmod 5 = 0 then some .tcpSlowtimo
  else none

/-- A round of the timer task, with the passes of `tcp_output` of the pcbs, or anything else that
    happens to a connection, or a new pcb. -/
inductive TimerEvent where
  | tick (fast : Nat → Nat → SendEnv) (slow : Nat → Nat → Nat → SendEnv)
  | conn (inp : Nat) (ev : Event)
  | insque (inp : Nat) (conn : Option Conn)

inductive TimerObs where
  | fasttimo
  | slowtimo
  /-- `tcp_timers` is called. -/
  | timers (inp : Nat) (i : TcpTimer)
  deriving DecidableEq, Repr

def TimerNet.loop (s : TimerNet) (f : Nat → Conn → Res) : TimerNet where
  cnt := s.cnt
  tcb := pcbLoop f s.tcb
  distinct := s.distinct.sublist (pcbLoop_inps f s.tcb)

/-- The calls of `tcp_timers` in a round of `tcp_slowtimo`. -/
def slowObs (env : Nat → Nat → Nat → SendEnv) (l : List Pcb) : List TimerObs :=
  l.flatMap fun p =>
    match p.conn with
    | none => []
    | some c =>
      ([.rexmt, .persist, .keep, .twoMsl].filter (timersCalled (env p.inp) c)).map (.timers p.inp)

/-- Events that are calls of the timer task. -/
def Event.isTimer : Event → Bool
  | .slowtimo _ | .fasttimo _ => true
  | _ => false

def timerStep (s : TimerNet) : TimerEvent → TimerNet × List TimerObs
  | .tick fast slow =>
    let s := { s with cnt := s.cnt + 1 }
    match tcpTimerFunc s.cnt.toInt with
    | some .tcpFasttimo => (s.loop fun inp => tcpFasttimo (fast inp), [.fasttimo])
    | some .tcpSlowtimo => (s.loop fun inp => tcpSlowtimo (slow inp), .slowtimo :: slowObs slow s.tcb)
    | none => (s, [])
  | .conn inp ev =>
    if ev.isTimer then (s, [])
    else (s.loop fun i c => if i = inp then connStep c ev else ⟨c, false, []⟩, [])
  | .insque inp conn =>
    if h : inp ∈ s.tcb.map Pcb.inp then (s, [])
    else ({ cnt := s.cnt, tcb := ⟨inp, conn⟩ :: s.tcb,
            distinct := List.nodup_cons.mpr ⟨h, s.distinct⟩ }, [])

def timerMachine : Machine.Step TimerNet TimerEvent TimerObs := fun s ev =>
  (some (timerStep s ev).1, (timerStep s ev).2)

/-! ## One step -/

/-- The timer of a connection. -/
def TimerNet.timer (s : TimerNet) (inp : Nat) (i : TcpTimer) : Option Int :=
  (connOf s.tcb inp).map fun c => c.tp.timer i

/-- The round of the task calls `tcp_slowtimo`. -/
def TimerNet.slow (s : TimerNet) : Bool := decide (tcpTimerFunc (s.cnt + 1).toInt = some .tcpSlowtimo)

/-- In this round the timer comes to its turn with its value, and what follows its turn leaves it alone. -/
def slowKeeps (inp : Nat) (i : TcpTimer) (s : TimerNet) (ev : TimerEvent)
    (slow : Nat → Nat → Nat → SendEnv) : Bool :=
  (connOf s.tcb inp).any fun c => (turn (slow inp) c i).any fun d =>
    decide (d.tp.timer i = c.tp.timer i) &&
      (timerExpired (d.tp.timer i) ||
        decide ((timerStep s ev).1.timer inp i = some (timerTick (d.tp.timer i))))

/-- Nothing but its own countdown changes the timer. -/
def Unchanged (inp : Nat) (i : TcpTimer) (s : TimerNet) (ev : TimerEvent) : Prop :=
  match ev with
  | .tick _ slow =>
    if s.slow then slowKeeps inp i s ev slow = true
    else (timerStep s ev).1.timer inp i = s.timer inp i
  | _ => (timerStep s ev).1.timer inp i = s.timer inp i

/-- Is the event a round of the task? -/
def TimerEvent.isTick : TimerEvent → Bool
  | .tick _ _ => true
  | _ => false

section

variable {s s' : TimerNet} {ev : TimerEvent} {inp : Nat} {i : TcpTimer} {v : Int}

theorem mem_slowObs (slow : Nat → Nat → Nat → SendEnv) {l : List Pcb} (hl : (l.map Pcb.inp).Nodup) :
    .timers inp i ∈ slowObs slow l ↔
    ∃ c, connOf l inp = some c ∧ timersCalled (slow inp) c i = true := by
  have hall : i ∈ [TcpTimer.rexmt, .persist, .keep, .twoMsl] := by cases i <;> simp
  induction l with
  | nil => simp [slowObs, connOf]
  | cons p l ih =>
    rw [List.map_cons, List.nodup_cons] at hl
    have ih := ih hl.2
    have hcons : TimerObs.timers inp i ∈ slowObs slow (p :: l) ↔
        (p.inp = inp ∧ ∃ c, p.conn = some c ∧ timersCalled (slow inp) c i = true) ∨
          .timers inp i ∈ slowObs slow l := by
      unfold slowObs
      rw [List.flatMap_cons, List.mem_append]
      refine or_congr_left ?_
      cases hc : p.conn with
      | none => simp
      | some c =>
        simp only [List.mem_map, List.mem_filter, TimerObs.timers.injEq, Option.some.injEq,
          exists_eq_left']
        constructor
        · rintro ⟨j, ⟨-, hj⟩, h1, rfl⟩
          exact ⟨h1, h1 ▸ hj⟩
        · rintro ⟨h1, h2⟩
          exact ⟨i, ⟨hall, h1 ▸ h2⟩, h1, rfl⟩
    refine hcons.trans ((or_congr_right ih).trans ?_)
    rw [connOf_cons]
    by_cases h : p.inp = inp
    · have hnone : connOf l inp = none := connOf_eq_none (h ▸ hl.1)
      simp [h, hnone]
    · simp [h]

theorem timerStep_cnt (s : TimerNet) (ev : TimerEvent) :
    (timerStep s ev).1.cnt = s.cnt + if ev.isTick then 1 else 0 := by
  cases ev with
  | tick fast slow =>
    dsimp only [timerStep]
    split <;> rfl
  | conn inp ev =>
    dsimp only [timerStep]
    split <;> exact (BitVec.add_zero _).symm
  | insque inp conn =>
    dsimp only [timerStep]
    split <;> exact (BitVec.add_zero _).symm

/-- **A round of `tcp_slowtimo`** counts the timer down, and calls `tcp_timers` when it was 1. -/
theorem slow_step {fast : Nat → Nat → SendEnv} {slow : Nat → Nat → Nat → SendEnv}
    (hs : s.slow = true) (hv : s.timer inp i = some v) (h1 : 0 < v) (h2 : v ≤ 32767)
    (hu : Unchanged inp i s (.tick fast slow)) :
    (.timers inp i ∈ (timerStep s (.tick fast slow)).2 ↔ v = 1) ∧
      (v ≠ 1 → (timerStep s (.tick fast slow)).1.timer inp i = some (v - 1)) := by
  have hcall : tcpTimerFunc (s.cnt + 1).toInt = some .tcpSlowtimo := of_decide_eq_true hs
  have hobs : (timerStep s (.tick fast slow)).2 = .slowtimo :: slowObs slow s.tcb := by
    dsimp only [timerStep]
    rw [hcall]
  have hkeep : slowKeeps inp i s (.tick fast slow) slow = true := by
    dsimp only [Unchanged] at hu
    rwa [if_pos hs] at hu
  obtain ⟨c, hc, rfl⟩ := Option.map_eq_some_iff.mp hv
  obtain ⟨c', hc', hd⟩ := (Option.any_eq_true _ _).mp hkeep
  rw [hc, Option.some.injEq] at hc'
  subst hc'
  obtain ⟨d, hd, hk⟩ := (Option.any_eq_true _ _).mp hd
  rw [Bool.and_eq_true, decide_eq_true_eq] at hk
  obtain ⟨heq, hk⟩ := hk
  have hs16 : s16 (c.tp.timer i - 1) = c.tp.timer i - 1 := by
    unfold s16
    omega
  have hexp : timerExpired (d.tp.timer i) = decide (c.tp.timer i = 1) := by
    rw [heq, timerExpired, hs16, Bool.eq_iff_iff]
    simp only [Bool.and_eq_true, decide_eq_true_eq]
    omega
  have htick : timerTick (d.tp.timer i) = c.tp.timer i - 1 := by
    rw [heq, timerTick, if_neg (by omega), hs16]
  constructor
  · rw [hobs, List.mem_cons]
    simp only [reduceCtorEq, false_or]
    rw [mem_slowObs slow s.distinct, hc]
    simp only [Option.some.injEq, exists_eq_left']
    rw [timersCalled, hd, Option.any_some, hexp, decide_eq_true_eq]
  · intro hne
    rw [hexp, htick, Bool.or_eq_true, decide_eq_true_eq, decide_eq_true_eq] at hk
    exact hk.resolve_left hne

/-- Any other step leaves the timer alone. -/
theorem other_step (hs : ev.isTick = true → s.slow = false) (hu : Unchanged inp i s ev) :
    .timers inp i ∉ (timerStep s ev).2 ∧ (timerStep s ev).1.timer inp i = s.timer inp i := by
  cases ev with
  | tick fast slow =>
    have hs' := hs rfl
    dsimp only [Unchanged] at hu
    rw [if_neg (by simp [hs'])] at hu
    refine ⟨?_, hu⟩
    have hcall : tcpTimerFunc (s.cnt + 1).toInt ≠ some .tcpSlowtimo := of_decide_eq_false hs'
    dsimp only [timerStep]
    split
    · simp
    · rename_i hc
      exact absurd hc hcall
    · simp
  | conn id ev =>
    refine ⟨?_, hu⟩
    dsimp only [timerStep]
    split <;> simp
  | insque id conn =>
    refine ⟨?_, hu⟩
    dsimp only [timerStep]
    split <;> simp

/-! ## Runs -/

/-- The count that the task hands on in its `t`-th round. -/
def tickNo (t : Nat) : Int := (BitVec.ofNat 32 t).toInt

/-- A round of `tcp_slowtimo`. -/
def SlowTick (t : Nat) : Prop := tcpTimerFunc (tickNo t) = some .tcpSlowtimo

/-- The number of the round is divisible by 5. -/
def MultipleOf5 (t : Nat) : Prop := (5 : Int) ∣ tickNo t

instance : DecidablePred SlowTick := fun _ => inferInstanceAs (Decidable (_ = _))

instance : DecidablePred MultipleOf5 := fun _ => inferInstanceAs (Decidable (_ ∣ _))

/-- `tcp_slowtimo` runs on the odd multiples of 5. -/
theorem slowTick_iff (t : Nat) : SlowTick t ↔ MultipleOf5 t ∧ ¬ (2 : Int) ∣ tickNo t := by
  unfold SlowTick MultipleOf5 tcpTimerFunc
  rw [Int.dvd_iff_tmod_eq_zero, Int.dvd_iff_tmod_eq_zero]
  split
  · simp_all
  · split <;> simp_all

/-- The number of rounds of a run. -/
def rounds (es : List TimerEvent) : Nat := es.countP TimerEvent.isTick

theorem TimerNet.slow_iff {T : Nat} (h : s.cnt = BitVec.ofNat 32 T) :
    s.slow = true ↔ SlowTick (T + 1) := by
  unfold TimerNet.slow SlowTick tickNo
  rw [h, decide_eq_true_eq, BitVec.ofNat_add]
  rfl

theorem cnt_tick {ev : TimerEvent} {T : Nat} (hT : s.cnt = BitVec.ofNat 32 T)
    (htick : ev.isTick = true) : (timerStep s ev).1.cnt = BitVec.ofNat 32 (T + 1) := by
  rw [timerStep_cnt, hT, htick, BitVec.ofNat_add]
  rfl

theorem cnt_other {ev : TimerEvent} {T : Nat} (hT : s.cnt = BitVec.ofNat 32 T)
    (htick : ev.isTick = false) : (timerStep s ev).1.cnt = BitVec.ofNat 32 T := by
  rw [timerStep_cnt, hT, htick]
  simp

/-- The slow rounds of a run that begins with a round. -/
theorem during_rounds {ev : TimerEvent} (htick : ev.isTick = true) (T : Nat) (es : List TimerEvent) :
    T + rounds (ev :: es) = T + 1 + rounds es ∧
      during SlowTick T (T + 1 + rounds es) =
        during SlowTick (T + 1) (T + 1 + rounds es) + if SlowTick (T + 1) then 1 else 0 := by
  have hrounds : rounds (ev :: es) = rounds es + 1 := List.countP_cons_of_pos htick
  exact ⟨by omega, during_next (by omega)⟩

/-- **A timer that nothing else changes** counts down once on every slow tick. -/
theorem run_counts {es : List TimerEvent} : ∀ {s : TimerNet} {T : Nat} {v : Int},
    s.cnt = BitVec.ofNat 32 T → s.timer inp i = some v → 0 < v → v ≤ 32767 →
    Machine.Guarded timerMachine (Unchanged inp i) (some s) es →
    .timers inp i ∉ (Machine.run timerMachine (some s) es).2 →
    (Machine.run timerMachine (some s) es).1 = some s' →
    s'.cnt = BitVec.ofNat 32 (T + rounds es) ∧ (during SlowTick T (T + rounds es) : Int) < v ∧
      s'.timer inp i = some (v - during SlowTick T (T + rounds es)) := by
  induction es with
  | nil =>
    intro s T v hT hv h1 h2 _ _ hr
    cases hr
    simpa [rounds, hv] using ⟨hT, h1⟩
  | cons ev es ih =>
    intro s T v hT hv h1 h2 hg hno hr
    obtain ⟨hu, hg⟩ := hg
    have hno' : .timers inp i ∉ (timerStep s ev).2 ∧
        .timers inp i ∉ (Machine.run timerMachine (some (timerStep s ev).1) es).2 := by
      have heq : (Machine.run timerMachine (some s) (ev :: es)).2 = (timerStep s ev).2 ++
          (Machine.run timerMachine (some (timerStep s ev).1) es).2 := rfl
      rw [heq, List.mem_append, not_or] at hno
      exact hno
    have hr' : (Machine.run timerMachine (some (timerStep s ev).1) es).1 = some s' := hr
    cases htick : ev.isTick with
    | false =>
      have hrounds : rounds (ev :: es) = rounds es := List.countP_cons_of_neg (by simp [htick])
      obtain ⟨-, hnext⟩ := other_step (fun h => by rw [htick] at h; cases h) hu
      rw [hrounds]
      exact ih (cnt_other hT htick) (hnext.trans hv) h1 h2 hg hno'.2 hr'
    | true =>
      obtain ⟨hend, hd⟩ := during_rounds htick T es
      rw [hend, hd]
      cases hslow : s.slow with
      | false =>
        have hnot : ¬ SlowTick (T + 1) := fun h => by
          rw [(s.slow_iff hT).mpr h] at hslow
          cases hslow
        obtain ⟨-, hnext⟩ := other_step (fun _ => hslow) hu
        rw [if_neg hnot]
        exact ih (cnt_tick hT htick) (hnext.trans hv) h1 h2 hg hno'.2 hr'
      | true =>
        -- the timer counts down, and does not expire
        obtain ⟨fast, slow, rfl⟩ : ∃ fast slow, ev = .tick fast slow := by
          cases ev with
          | tick fast slow => exact ⟨fast, slow, rfl⟩
          | _ => cases htick
        obtain ⟨hexp, hnext⟩ := slow_step hslow hv h1 h2 hu
        have hne : v ≠ 1 := fun h => hno'.1 (hexp.mpr h)
        obtain ⟨g1, g2, g3⟩ := ih (cnt_tick hT htick) (hnext hne) (by omega) (by omega) hg hno'.2 hr'
        rw [if_pos ((s.slow_iff hT).mp hslow)]
        refine ⟨g1, by push_cast; omega, ?_⟩
        rw [g3, Option.some.injEq]
        push_cast
        omega

end

/-! ## When a timer expires -/

/-- Round `E` is the `k`-th one behind round `T` with a number divisible by 5, more than `5 (k - 1)` and at
    most `5 k` rounds later. -/
def OnTime (T k E : Nat) : Prop :=
  MultipleOf5 E ∧ during MultipleOf5 T E = k ∧ 5 * (k - 1) < E - T ∧ E - T ≤ 5 * k

/-- The first `k` rounds behind `T` with a number divisible by 5 come in this time, and have odd
    numbers. -/
def OddMultiples (T k : Nat) : Prop :=
  ∃ K, T < K ∧ MultipleOf5 K ∧ during MultipleOf5 T K = k ∧
    (5 * (k - 1) < K - T ∧ K - T ≤ 5 * k) ∧
    ∀ t, T < t → t ≤ K → MultipleOf5 t → ¬ (2 : Int) ∣ tickNo t

/-- `tcp_fasttimo` runs in the even rounds, and only there. -/
def FastOnEven : Prop :=
  ∀ (s : TimerNet) (T : Nat) (ev : TimerEvent), s.cnt = BitVec.ofNat 32 T →
    (.fasttimo ∈ (timerStep s ev).2 ↔ ev.isTick = true ∧ (T + 1) % 2 = 0)

theorem tickNo_even (t : Nat) : (2 : Int) ∣ tickNo t ↔ t % 2 = 0 := by
  unfold tickNo
  rw [BitVec.toInt_eq_toNat_cond, BitVec.toNat_ofNat]
  split <;> omega

theorem fastOnEven : FastOnEven := by
  intro s T ev hT
  cases ev with
  | tick fast slow =>
    have hcnt : (s.cnt + 1).toInt = tickNo (T + 1) := by
      rw [hT, tickNo, BitVec.ofNat_add]
      rfl
    have hfast : tcpTimerFunc (tickNo (T + 1)) = some .tcpFasttimo ↔ (T + 1) % 2 = 0 := by
      rw [← tickNo_even, Int.dvd_iff_tmod_eq_zero]
      unfold tcpTimerFunc
      split
      · simp_all
      · split <;> simp_all
    have hno : TimerObs.fasttimo ∉ slowObs slow s.tcb := by
      unfold slowObs
      rw [List.mem_flatMap]
      rintro ⟨p, -, hp⟩
      split at hp
      · simp at hp
      · simp at hp
    dsimp only [timerStep, TimerEvent.isTick]
    rw [hcnt, ← hfast]
    split
    · rename_i h
      simp [h]
    · rename_i h
      simp [h, hno]
    · rename_i h
      simp [h]
  | conn inp ev =>
    dsimp only [timerStep]
    split <;> simp [TimerEvent.isTick]
  | insque inp conn =>
    dsimp only [timerStep]
    split <;> simp [TimerEvent.isTick]

section

variable {s s' : TimerNet} {T k inp : Nat} {i : TcpTimer} {es : List TimerEvent}
  {fast : Nat → Nat → SendEnv} {slow : Nat → Nat → Nat → SendEnv}

/-- **TCP timers run at `PR_SLOWHZ`** if and only if the rounds that should count are all odd. -/
theorem timer_on_time (hT : s.cnt = BitVec.ofNat 32 T) (hset : s.timer inp i = some (k : Int)) (hk : 0 < k)
    (hshort : k ≤ 32767)
    (hg : Machine.Guarded timerMachine (Unchanged inp i) (some s) (es ++ [.tick fast slow]))
    (hr : (Machine.run timerMachine (some s) es).1 = some s')
    (hno : .timers inp i ∉ (Machine.run timerMachine (some s) es).2)
    (hexp : .timers inp i ∈ (timerStep s' (.tick fast slow)).2) :
    FastOnEven ∧ OnTime T k (T + rounds es + 1) ↔ OddMultiples T k := by
  obtain ⟨hg1, hg2⟩ := Machine.guarded_append hg
  rw [hr] at hg2
  obtain ⟨hcnt, hlt, htim⟩ := run_counts hT hset (by omega) (by omega) hg1 hno hr
  -- the last round is slow, and the timer is 1 in front of it
  have hslow : s'.slow = true := by
    by_contra hs
    exact (other_step (fun _ => by simpa using hs) hg2.1).1 hexp
  obtain ⟨hone, -⟩ := slow_step hslow htim (by omega) (by omega) hg2.1
  have hone := hone.mp hexp
  have hE : SlowTick (T + rounds es + 1) := (s'.slow_iff hcnt).mp hslow
  have hd : during SlowTick T (T + rounds es + 1) = k := by
    rw [during_last (by omega), if_pos hE]
    omega
  have hsub : ∀ t, SlowTick t → MultipleOf5 t := fun t h => ((slowTick_iff t).mp h).1
  have hkth := kth_of_sub hsub (by omega) hE hd
    fun E => 5 * (k - 1) < E - T ∧ E - T ≤ 5 * k
  constructor
  · rintro ⟨-, -, h1, h2⟩
    obtain ⟨K, g1, g2, g3, g4, g5⟩ := hkth.mp ⟨h1, h2⟩
    exact ⟨K, g1, g2, g3, g4, fun t h1 h2 h3 => ((slowTick_iff t).mp (g5 t h1 h2 h3)).2⟩
  · rintro ⟨K, g1, g2, g3, g4, g5⟩
    have hall : ∀ t, T < t → t ≤ K → MultipleOf5 t → SlowTick t := fun t h1 h2 h3 =>
      (slowTick_iff t).mpr ⟨h3, g5 t h1 h2 h3⟩
    obtain ⟨h1, h2⟩ := hkth.mpr ⟨K, g1, g2, g3, g4, hall⟩
    exact ⟨fastOnEven, hsub _ hE, h1, h2⟩

end

theorem tickNo_eq {t : Nat} (h : t < 2147483648) : tickNo t = t := by
  unfold tickNo
  rw [BitVec.toInt_eq_toNat_cond, BitVec.toNat_ofNat]
  split <;> omega

theorem multipleOf5_iff {t : Nat} (h : t < 2147483648) : MultipleOf5 t ↔ t % 5 = 0 := by
  unfold MultipleOf5
  rw [tickNo_eq h]
  omega

/-- **Only a timer set to 1 is on time**, and only behind the first five rounds of ten. -/
theorem oddMultiples_iff {T k : Nat} (hk : 0 < k) (hT : T + 5 * k < 2147483648) :
    OddMultiples T k ↔ k = 1 ∧ T % 10 < 5 := by
  constructor
  · rintro ⟨K, hK, hm, -, ⟨h1, h2⟩, hodd⟩
    have hm' := (multipleOf5_iff (by omega)).mp hm
    have hodd' : ∀ t, T < t → t ≤ K → t % 5 = 0 → t % 2 ≠ 0 := fun t g1 g2 g3 g4 =>
      hodd t g1 g2 ((multipleOf5_iff (by omega)).mpr g3) ((tickNo_even t).mpr g4)
    -- two multiples of 5 in a row are not both odd
    have hfirst := hodd' (5 * (T / 5 + 1)) (by omega) (by omega) (by omega)
    have hk1 : k = 1 := by
      by_contra hne
      have hsecond := hodd' (5 * (T / 5 + 2)) (by omega) (by omega) (by omega)
      omega
    exact ⟨hk1, by omega⟩
  · rintro ⟨rfl, h10⟩
    obtain ⟨K, hK⟩ : ∃ K, 5 * (T / 5 + 1) = K + 1 := ⟨5 * (T / 5) + 4, by omega⟩
    have honly : ∀ t, T < t → t ≤ K + 1 → MultipleOf5 t → t = K + 1 := by
      intro t g1 g2 g3
      have := (multipleOf5_iff (by omega)).mp g3
      omega
    have hmul : MultipleOf5 (K + 1) := (multipleOf5_iff (by omega)).mpr (by omega)
    have hnone : during MultipleOf5 T K = 0 := by
      have hf : during MultipleOf5 T K = during (fun _ => False) T K :=
        during_congr fun t g1 g2 => ⟨fun g3 => by have := honly t g1 (by omega) g3; omega, False.elim⟩
      rw [hf, during, Nat.count_false]
    refine ⟨K + 1, by omega, hmul, ?_, by omega, fun t g1 g2 g3 => ?_⟩
    · rw [during_last (by omega), hnone, if_pos hmul]
    · rw [honly t g1 g2 g3, tickNo_even]
      omega

/-- An established connection whose retransmit timer is set to `TCPTV_MIN`. -/
def armedNet (v : Int) : TimerNet where
  cnt := 0
  tcb := [⟨0, some { tp := { tState := .established, timerRexmt := v }, so := newSocket }⟩]
  distinct := List.nodup_singleton _

/-- A round of the task. -/
def round : TimerEvent := .tick (fun _ _ => {}) fun _ _ _ => {}

instance (inp : Nat) (i : TcpTimer) (s : TimerNet) : (ev : TimerEvent) → Decidable (Unchanged inp i s ev)
  | .tick fast slow =>
    inferInstanceAs (Decidable (if s.slow then slowKeeps inp i s (.tick fast slow) slow = true
      else (timerStep s (.tick fast slow)).1.timer inp i = s.timer inp i))
  | .conn id ev => inferInstanceAs (Decidable ((timerStep s (.conn id ev)).1.timer inp i = s.timer inp i))
  | .insque id c => inferInstanceAs (Decidable ((timerStep s (.insque id c)).1.timer inp i = s.timer inp i))

/-- The state behind `n` rounds. -/
def armedAfter (v : Int) (n : Nat) : Option TimerNet :=
  (Machine.run timerMachine (some (armedNet v)) (List.replicate n round)).1

theorem timer_on_time_one :
    FastOnEven ∧ OnTime 0 1 5 ↔ OddMultiples 0 1 := by
  have hg : Machine.Guarded timerMachine (Unchanged 0 .rexmt) (some (armedNet 1))
      (List.replicate 4 round ++ [round]) := by decide +kernel
  have hno : .timers 0 .rexmt ∉
      (Machine.run timerMachine (some (armedNet 1)) (List.replicate 4 round)).2 := by decide +kernel
  have hany : ((armedAfter 1 4).any fun s =>
      decide (.timers 0 .rexmt ∈ (timerStep s round).2)) = true := by decide +kernel
  obtain ⟨s, hs, hexp⟩ := (Option.any_eq_true _ _).mp hany
  exact timer_on_time (s := armedNet 1) (k := 1) rfl rfl (by decide) (by decide) hg hs hno
    (of_decide_eq_true hexp)

/-- A retransmit timer of one second set behind round 0 expires in round 15, not in round 10. -/
theorem timer_late :
    ¬ ∀ (s s' : TimerNet) (T k inp : Nat) (i : TcpTimer) (es : List TimerEvent)
      (fast : Nat → Nat → SendEnv) (slow : Nat → Nat → Nat → SendEnv),
      s.cnt = BitVec.ofNat 32 T → s.timer inp i = some (k : Int) → 0 < k → k ≤ 32767 →
      Machine.Guarded timerMachine (Unchanged inp i) (some s) (es ++ [.tick fast slow]) →
      (Machine.run timerMachine (some s) es).1 = some s' →
      .timers inp i ∉ (Machine.run timerMachine (some s) es).2 →
      .timers inp i ∈ (timerStep s' (.tick fast slow)).2 → OnTime T k (T + rounds es + 1) := by
  intro h
  have hg : Machine.Guarded timerMachine (Unchanged 0 .rexmt) (some (armedNet 2))
      (List.replicate 14 round ++ [round]) := by decide +kernel
  have hno : .timers 0 .rexmt ∉
      (Machine.run timerMachine (some (armedNet 2)) (List.replicate 14 round)).2 := by decide +kernel
  have hany : ((armedAfter 2 14).any fun s =>
      decide (.timers 0 .rexmt ∈ (timerStep s round).2)) = true := by decide +kernel
  obtain ⟨s, hs, hexp⟩ := (Option.any_eq_true _ _).mp hany
  have hon := h (armedNet 2) s 0 2 0 .rexmt (List.replicate 14 round) _ _ rfl rfl (by decide) (by decide)
    hg hs hno (of_decide_eq_true hexp)
  have hlate := hon.2.2.2
  revert hlate
  decide

end TnNet
