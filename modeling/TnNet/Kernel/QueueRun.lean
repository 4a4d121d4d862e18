import TnNet.Kernel.Outcome
import TnNet.Lib.Ring

/-!
# Data queues are first-in first-out

A datum reaches a receiver through the ring buffer, from hand to hand when a receiver waits, or from
the control block of a blocked sender.  `received` is the sequence of the data the receives have
got and `accepted` the sequence of the sends in the order of the calls, without those that have timed
out, with the task of a send that still is blocked.  `queue_fifo` says that these agree, with the data
on the way, in every state of every run; a blocked call returns what it was granted.
-/

set_option autoImplicit false

namespace TnKernel

variable {k k' : Kernel} {t : TaskId} {hist obs : List Obs} {a : Allow} {i : Nat} {d : Dque}

/-! ## The ring buffer -/

/-- The ring buffer of a data queue. -/
def Dque.ring (d : Dque) : RingBuf Nat := ⟨d.dataFifo, d.numEntries, d.tailCnt, d.headerCnt⟩

/-- The data in the ring buffer, the oldest first. -/
def Dque.fifo (d : Dque) : List Nat := d.ring.content

/-- The counters are in range. -/
def RingOk (d : Dque) : Prop := d.ring.Ok ∨ (d.numEntries = 0 ∧ d.tailCnt = 0 ∧ d.headerCnt = 0)

theorem RingOk.full_iff (h : d.ring.Ok) : d.full = true ↔ d.ring.next d.ring.head = d.ring.tail := by
  have h1 : d.tailCnt < d.numEntries := h.tail
  have h2 : d.headerCnt < d.numEntries := h.head
  have hnext : d.ring.next d.ring.head =
      if d.numEntries ≤ d.headerCnt + 1 then 0 else d.headerCnt + 1 := rfl
  have htail : d.ring.tail = d.tailCnt := rfl
  rw [hnext, htail]
  unfold Dque.full
  simp only [Bool.or_eq_true, decide_eq_true_eq]
  by_cases hc : d.numEntries ≤ d.headerCnt + 1
  · rw [if_pos hc]
    omega
  · rw [if_neg hc]
    omega

/-- `dque_fifo_write`. -/
theorem RingOk.write (h : RingOk d) {x : Nat} (hw : (dqueFifoWrite d x).1 = .noErr) :
    RingOk (dqueFifoWrite d x).2 ∧ (dqueFifoWrite d x).2.fifo = d.fifo ++ [x] := by
  unfold dqueFifoWrite at hw ⊢
  split at hw
  · cases hw
  rename_i h0
  split at hw
  · cases hw
  rename_i hf
  rw [if_neg h0, if_neg hf]
  have hok : d.ring.Ok := h.resolve_right fun hc => h0 hc.1
  rw [RingOk.full_iff hok] at hf
  exact ⟨.inl (hok.write x), RingBuf.content_write hok hf x⟩

/-- A write fails when the ring buffer is full. -/
theorem RingOk.write_fails (h : RingOk d) (x : Nat) :
    (dqueFifoWrite d x).1 ≠ .noErr ↔ d.fifo.length = d.numEntries - 1 := by
  rw [Dque.fifo, RingBuf.length_content]
  unfold dqueFifoWrite
  split
  · rename_i h0
    rcases h with hok | ⟨-, h1, h2⟩
    · exact absurd hok.tail (by simp [Dque.ring, h0])
    · simp [RingBuf.len, Dque.ring, h0, h1, h2]
  · rename_i h0
    have hok : d.ring.Ok := h.resolve_right fun hc => h0 hc.1
    have hfull := (RingOk.full_iff hok).trans hok.full_iff
    have hsize : d.ring.size = d.numEntries := rfl
    rw [hsize, RingBuf.capacity] at hfull
    split
    · rename_i hf
      simp [hfull.mp hf]
    · rename_i hf
      simp [mt hfull.mpr hf]

/-- `dque_fifo_read`. -/
theorem RingOk.read (h : RingOk d) (hr : (dqueFifoRead d).1 = .noErr) :
    RingOk (dqueFifoRead d).2.2 ∧ d.fifo = (dqueFifoRead d).2.1 :: (dqueFifoRead d).2.2.fifo ∧
      (dqueFifoRead d).2.2.numEntries = d.numEntries := by
  unfold dqueFifoRead at hr ⊢
  split at hr
  · cases hr
  rename_i h0
  split at hr
  · cases hr
  rename_i hne
  rw [if_neg h0, if_neg hne]
  have hok : d.ring.Ok := h.resolve_right fun hc => h0 hc.1
  exact ⟨.inl hok.drop, RingBuf.content_drop hok hne, rfl⟩

theorem RingOk.read_fails (h : RingOk d) (hr : (dqueFifoRead d).1 ≠ .noErr) : d.fifo = [] := by
  unfold dqueFifoRead at hr
  split at hr
  · rename_i h0
    rcases h with hok | ⟨-, h1, h2⟩
    · exact absurd hok.tail (by simp [Dque.ring, h0])
    · exact RingBuf.content_nil (h1.trans h2.symm)
  split at hr
  · rename_i heq
    exact RingBuf.content_nil heq
  · exact absurd rfl hr

/-! ## The history of a queue -/

/-- What an observation adds to the data received from a queue. -/
def receivedBy (i : Nat) : Obs → List Nat
  | .ret (.receive j) .noErr data => if j = i then [data] else []
  | .grant _ (.receive j) data => if j = i then [data] else []
  | _ => []

/-- The data of the successful receives. -/
def received (i : Nat) (hist : List Obs) : List Nat := hist.flatMap (receivedBy i)

/-- A send in the history: its datum, and its task while it is blocked. -/
abbrev Sent := Nat × Option TaskId

/-- The send of a task is no longer blocked. -/
def unblock (t : TaskId) (l : List Sent) : List Sent :=
  l.map fun x => if x.2 = some t then (x.1, none) else x

/-- The send of a task has timed out. -/
def withdraw (t : TaskId) (l : List Sent) : List Sent := l.filter fun x => x.2 ≠ some t

/-- What an observation does to the sends of a queue. -/
def acceptBy (i : Nat) (l : List Sent) : Obs → List Sent
  | .ret (.send j data) .noErr _ => if j = i then l ++ [(data, none)] else l
  | .block t (.send j data) => if j = i then l ++ [(data, some t)] else l
  | .grant t (.send j _) _ => if j = i then unblock t l else l
  | .cancel t (.send j _) => if j = i then withdraw t l else l
  | _ => l

/-- The successful and the blocked sends, in the order of the calls. -/
def accepted (i : Nat) (hist : List Obs) : List Sent := hist.foldl (acceptBy i) []

theorem received_append (i : Nat) (hist obs : List Obs) :
    received i (hist ++ obs) = received i hist ++ received i obs := List.flatMap_append

theorem accepted_append (i : Nat) (hist obs : List Obs) :
    accepted i (hist ++ obs) = obs.foldl (acceptBy i) (accepted i hist) := List.foldl_append

/-- An observation that is not about a queue. -/
def Obs.offQueue (i : Nat) (o : Obs) : Prop := receivedBy i o = [] ∧ ∀ l, acceptBy i l o = l

theorem offQueue_silent {o : Obs} (h : o.silent = true) (i : Nat) : o.offQueue i := by
  cases o with
  | ret c rc data =>
    cases c <;> cases rc <;> first | exact ⟨rfl, fun _ => rfl⟩ | cases h
  | block t c => cases c <;> first | exact ⟨rfl, fun _ => rfl⟩ | cases h
  | grant t c data => cases c <;> first | exact ⟨rfl, fun _ => rfl⟩ | cases h
  | cancel t c => cases c <;> first | exact ⟨rfl, fun _ => rfl⟩ | cases h
  | back t c rc data => exact ⟨rfl, fun _ => rfl⟩

theorem offQueue_append (hist : List Obs) (h : ∀ o ∈ obs, o.offQueue i) :
    received i (hist ++ obs) = received i hist ∧ accepted i (hist ++ obs) = accepted i hist := by
  induction obs generalizing hist with
  | nil => simp
  | cons o obs ih =>
    have h1 := h o List.mem_cons_self
    obtain ⟨h2, h3⟩ := ih (hist ++ [o]) fun x hx => h x (List.mem_cons_of_mem o hx)
    rw [List.append_assoc, List.singleton_append] at h2 h3
    rw [h2, h3, received_append, accepted_append]
    refine ⟨?_, h1.2 _⟩
    simp [received, h1.1]

/-! ## The invariant -/

/-- The blocked sends of a queue. -/
def blockedSends (k : Kernel) (i : Nat) : List Sent :=
  (k.sch.que (.wsend i)).map fun t => ((k.sch.tcb t).dataElem, some t)

/-- The invariant of a queue. -/
structure QueueInv (k : Kernel) (hist : List Obs) (i : Nat) : Prop where
  law : accepted i hist =
    (received i hist ++ (k.dque i).fifo).map (fun x => (x, none)) ++ blockedSends k i
  ring : RingOk (k.dque i)
  receivers : k.sch.que (.wreceive i) ≠ [] → (k.dque i).fifo = [] ∧ k.sch.que (.wsend i) = []
  senders : k.sch.que (.wsend i) ≠ [] → (k.dque i).fifo.length = (k.dque i).numEntries - 1
  fresh : (k.dque i).idDque = false → (k.dque i).fifo = []

theorem unblock_done (t : TaskId) (l : List Nat) :
    unblock t (l.map fun x => (x, none)) = l.map fun x => (x, none) := by
  unfold unblock
  rw [List.map_map]
  rfl

theorem withdraw_done (t : TaskId) (l : List Nat) :
    withdraw t (l.map fun x => (x, none)) = l.map fun x => (x, none) := by
  unfold withdraw
  rw [List.filter_eq_self]
  intro x hx
  obtain ⟨y, -, rfl⟩ := List.mem_map.mp hx
  rfl

/-- The sends of other tasks. -/
theorem unblock_blocked (t : TaskId) (l : List TaskId) (f : TaskId → Nat) (h : t ∉ l) :
    unblock t (l.map fun u => (f u, some u)) = l.map fun u => (f u, some u) := by
  unfold unblock
  rw [List.map_map]
  apply List.map_congr_left
  intro u hu
  have hne : u ≠ t := by
    rintro rfl
    exact h hu
  simp [hne]

theorem withdraw_blocked (t : TaskId) (l : List TaskId) (f : TaskId → Nat) :
    withdraw t (l.map fun u => (f u, some u)) =
      (l.filter (· ≠ t)).map fun u => (f u, some u) := by
  unfold withdraw
  rw [List.filter_map]
  congr 1
  apply List.filter_congr
  intro u _
  simp

theorem unblock_append (t : TaskId) (l l' : List Sent) :
    unblock t (l ++ l') = unblock t l ++ unblock t l' := List.map_append

theorem withdraw_append (t : TaskId) (l l' : List Sent) :
    withdraw t (l ++ l') = withdraw t l ++ withdraw t l' := List.filter_append ..

/-- The blocked sends when the same tasks are blocked with the same data. -/
theorem blockedSends_congr (hq : k'.sch.que (.wsend i) = k.sch.que (.wsend i))
    (hv : ∀ u ∈ k.sch.que (.wsend i), (k'.sch.tcb u).dataElem = (k.sch.tcb u).dataElem) :
    blockedSends k' i = blockedSends k i := by
  unfold blockedSends
  rw [hq]
  apply List.map_congr_left
  intro u hu
  rw [hv u hu]

/-- Nothing happens to the queue. -/
theorem QueueInv.keep (h : QueueInv k hist i) (hd : k'.dque i = k.dque i)
    (hs : k'.sch.que (.wsend i) = k.sch.que (.wsend i))
    (hr : k'.sch.que (.wreceive i) = k.sch.que (.wreceive i))
    (hv : ∀ u ∈ k.sch.que (.wsend i), (k'.sch.tcb u).dataElem = (k.sch.tcb u).dataElem)
    (ho : ∀ o ∈ obs, o.offQueue i) : QueueInv k' (hist ++ obs) i := by
  obtain ⟨h1, h2⟩ := offQueue_append hist ho
  constructor
  case law => rw [h1, h2, blockedSends_congr hs hv, hd]; exact h.law
  case ring => rw [hd]; exact h.ring
  case receivers => rw [hd, hs, hr]; exact h.receivers
  case senders => rw [hd, hs]; exact h.senders
  case fresh => rw [hd]; exact h.fresh

/-- A task in one wait list is in no other one. -/
theorem KInv.only_in (hk : KInv k) {q q' : Que} (hq' : q'.isRes = true)
    (hne : q ≠ q') (ht : (k.sch.tcb t).pwaitQueue = some q) : t ∉ k.sch.que q' := by
  intro hm
  have := ((hk.sch.ok t).waits q' (Que.not_ready_of_isRes hq')).mp hm
  rw [ht] at this
  exact hne (Option.some.inj this)

/-- The wait of a task for another resource ends. -/
theorem QueueInv.leaveOther (h : QueueInv k hist i) (hk : KInv k) {q : Que}
    (hl : Leave t k.sch k'.sch) (hq : (k.sch.tcb t).pwaitQueue = some q)
    (hs : q ≠ .wsend i) (hr : q ≠ .wreceive i) (hd : k'.dque i = k.dque i)
    (ho : ∀ o ∈ obs, o.offQueue i) : QueueInv k' (hist ++ obs) i := by
  have h1 : t ∉ k.sch.que (.wsend i) := hk.only_in rfl hs hq
  have h2 : t ∉ k.sch.que (.wreceive i) := hk.only_in rfl hr hq
  refine h.keep hd ?_ ?_ (fun u hu => view_data (hl.view u ?_)) ho
  · rw [hl.que _ rfl, filter_self h1]
  · rw [hl.que _ rfl, filter_self h2]
  · rintro rfl
    exact h1 hu

/-- A wait for a queue ends without a datum. -/
theorem QueueInv.cancel (h : QueueInv k hist i) (hk : KInv k) {q : Que}
    (hl : Leave t k.sch k'.sch) (hq : (k.sch.tcb t).pwaitQueue = some q)
    (hd : k'.dque i = k.dque i) :
    QueueInv k' (hist ++ [.cancel t (waitCall q (k.sch.tcb t).dataElem)]) i := by
  by_cases hs : q = .wsend i
  · subst hs
    have h2 : t ∉ k.sch.que (.wreceive i) := hk.only_in rfl (by simp) hq
    have hrec : k'.sch.que (.wreceive i) = k.sch.que (.wreceive i) := by
      rw [hl.que _ rfl, filter_self h2]
    have hsend := hl.que (.wsend i) rfl
    have hblk : blockedSends k' i = withdraw t (blockedSends k i) := by
      unfold blockedSends
      rw [withdraw_blocked, hsend]
      apply List.map_congr_left
      intro u hu
      have hu' : u ≠ t := by
        have := (List.mem_filter.mp hu).2
        simpa using this
      rw [view_data (hl.view u hu')]
    have hrcv : received i (hist ++ [.cancel t (waitCall (.wsend i) (k.sch.tcb t).dataElem)]) =
        received i hist := by
      rw [received_append]
      simp [received, receivedBy]
    have hacc : accepted i (hist ++ [.cancel t (waitCall (.wsend i) (k.sch.tcb t).dataElem)]) =
        withdraw t (accepted i hist) := by
      rw [accepted_append]
      simp [acceptBy, waitCall]
    constructor
    case law => rw [hacc, hrcv, hd, hblk, h.law, withdraw_append, withdraw_done]
    case ring => rw [hd]; exact h.ring
    case receivers =>
      rw [hrec, hd, hsend]
      intro hne
      obtain ⟨h3, h4⟩ := h.receivers hne
      exact ⟨h3, by rw [h4]; rfl⟩
    case senders =>
      rw [hd, hsend]
      intro hne
      apply h.senders
      intro hnil
      rw [hnil] at hne
      exact hne rfl
    case fresh => rw [hd]; exact h.fresh
  by_cases hr : q = .wreceive i
  · subst hr
    have h1 : t ∉ k.sch.que (.wsend i) := hk.only_in rfl (by simp) hq
    have hsend : k'.sch.que (.wsend i) = k.sch.que (.wsend i) := by
      rw [hl.que _ rfl, filter_self h1]
    have hrec := hl.que (.wreceive i) rfl
    have hblk : blockedSends k' i = blockedSends k i := by
      refine blockedSends_congr hsend fun u hu => view_data (hl.view u ?_)
      rintro rfl
      exact h1 hu
    have hoff : ∀ o ∈ [Obs.cancel t (waitCall (.wreceive i) (k.sch.tcb t).dataElem)],
        o.offQueue i := by
      intro o ho
      rw [List.mem_singleton.mp ho]
      exact ⟨rfl, fun _ => rfl⟩
    obtain ⟨h3, h4⟩ := offQueue_append hist hoff
    constructor
    case law => rw [h3, h4, hd, hblk]; exact h.law
    case ring => rw [hd]; exact h.ring
    case receivers =>
      rw [hrec, hd, hsend]
      intro hne
      apply h.receivers
      intro hnil
      rw [hnil] at hne
      exact hne rfl
    case senders => rw [hd, hsend]; exact h.senders
    case fresh => rw [hd]; exact h.fresh
  · refine h.leaveOther hk hl hq hs hr hd fun o ho => ?_
    rw [List.mem_singleton.mp ho]
    cases q with
    | wsend j => exact ⟨rfl, fun l => if_neg fun hj => hs (by rw [hj])⟩
    | _ => exact ⟨rfl, fun _ => rfl⟩

/-! ## The acts on a queue -/

/-- The task that is granted its resource was at the head of the wait list. -/
theorem Grants.cons {q : Que} {data : Nat} (h : Grants t q data k k') (hk : KInv k)
    (hq : q.isRes = true) : ∃ l, k.sch.que q = t :: l ∧ t ∉ l ∧
      (k.sch.tcb t).pwaitQueue = some q ∧ k'.sch.que q = l := by
  have hhead := h.head
  cases hl : k.sch.que q with
  | nil =>
    rw [hl] at hhead
    cases hhead
  | cons u l =>
    rw [hl] at hhead
    have hu : u = t := Option.some.inj hhead
    subst hu
    have hn := hk.sch.nodup q
    rw [hl] at hn
    have htl := (List.nodup_cons.mp hn).1
    have hm : u ∈ k.sch.que q := by
      rw [hl]
      exact List.mem_cons_self
    refine ⟨l, rfl, htl, ((hk.sch.ok u).waits q (Que.not_ready_of_isRes hq)).mp hm, ?_⟩
    rw [h.leave.que q hq, hl, List.filter_cons, if_neg (by simp), filter_self htl]

/-- A blocked sender is woken. -/
theorem Grants.sends {data : Nat} (h : Grants t (.wsend i) data k k') (hk : KInv k)
    (hdt : (k.sch.tcb t).dataElem = data) :
    unblock t (blockedSends k i) = (data, none) :: blockedSends k' i := by
  obtain ⟨l, hl, htl, -, hl'⟩ := h.cons hk rfl
  have hsame : ∀ u ∈ l, (k'.sch.tcb u).dataElem = (k.sch.tcb u).dataElem := by
    intro u hu
    refine view_data (h.leave.view u ?_)
    rintro rfl
    exact htl hu
  unfold blockedSends
  rw [hl, hl']
  have h1 : unblock t ((t :: l).map fun u => ((k.sch.tcb u).dataElem, some u)) =
      (data, none) :: unblock t (l.map fun u => ((k.sch.tcb u).dataElem, some u)) := by
    unfold unblock
    simp [hdt]
  rw [h1, unblock_blocked t l _ htl]
  congr 1
  apply List.map_congr_left
  intro u hu
  rw [hsame u hu]

section Act

variable (hk : KInv k) (h : QueueInv k hist i)
include hk h

/-- The task at the head of another wait list is given its resource. -/
theorem QueueInv.grantOther {q : Que} {data : Nat} (hg : Grants t q data k k')
    (hq : q.isRes = true) (hs : q ≠ .wsend i) (hr : q ≠ .wreceive i) (hd : k'.dque i = k.dque i)
    (ho : ∀ o ∈ obs, o.offQueue i) : QueueInv k' (hist ++ obs) i := by
  obtain ⟨l, -, -, hw, -⟩ := hg.cons hk hq
  exact h.leaveOther hk hg.leave hw hs hr hd ho

omit hk in
theorem QueueInv.sendFifo {data : Nat} (hc : Changes k k') (hl : k.sch.que (.wreceive i) = [])
    (hw : (dqueFifoWrite (k.dque i) data).1 = .noErr)
    (hd : k'.dque i = (dqueFifoWrite (k.dque i) data).2) (hid : (k.dque i).idDque = true) :
    QueueInv k' (hist ++ [.ret (.send i data) .noErr 0]) i := by
  obtain ⟨hok, hfifo⟩ := h.ring.write hw
  -- a sender would wait for a full ring buffer only
  have hs : k.sch.que (.wsend i) = [] := by
    by_contra hne
    exact ((h.ring.write_fails data).mpr (h.senders hne)) hw
  have hs' : k'.sch.que (.wsend i) = [] := by rw [hc.quiet.que _ rfl, hs]
  have hblk : blockedSends k i = [] := by simp [blockedSends, hs]
  have hblk' : blockedSends k' i = [] := by simp [blockedSends, hs']
  have hrcv : received i (hist ++ [.ret (.send i data) .noErr 0]) = received i hist := by
    rw [received_append]
    simp [received, receivedBy]
  have hacc : accepted i (hist ++ [.ret (.send i data) .noErr 0]) =
      accepted i hist ++ [(data, none)] := by
    rw [accepted_append]
    simp [acceptBy]
  constructor
  case law => rw [hacc, hrcv, hd, hblk', hfifo, h.law, hblk]; simp
  case ring => rw [hd]; exact hok
  case receivers => rw [hc.quiet.que _ rfl, hl]; exact fun hne => absurd rfl hne
  case senders => rw [hs']; exact fun hne => absurd rfl hne
  case fresh =>
    rw [hd, dqueFifoWrite_idDque, hid]
    intro hc
    cases hc

theorem QueueInv.sendGrant {data : Nat} (hg : Grants t (.wreceive i) data k k')
    (hd : k'.dque i = k.dque i) :
    QueueInv k' (hist ++ [.ret (.send i data) .noErr 0, .grant t (.receive i) data]) i := by
  obtain ⟨l, hl, -, hw, hl'⟩ := hg.cons hk rfl
  obtain ⟨hf, hs⟩ := h.receivers (by rw [hl]; simp)
  have hs' : k'.sch.que (.wsend i) = [] := by
    rw [hg.leave.que _ rfl, hs]
    rfl
  have hblk : blockedSends k i = [] := by simp [blockedSends, hs]
  have hblk' : blockedSends k' i = [] := by simp [blockedSends, hs']
  have hrcv : received i (hist ++ [.ret (.send i data) .noErr 0, .grant t (.receive i) data]) =
      received i hist ++ [data] := by
    rw [received_append]
    simp [received, receivedBy]
  have hacc : accepted i (hist ++ [.ret (.send i data) .noErr 0, .grant t (.receive i) data]) =
      accepted i hist ++ [(data, none)] := by
    rw [accepted_append]
    simp [acceptBy]
  constructor
  case law => rw [hacc, hrcv, hd, hblk', hf, h.law, hblk, hf]; simp
  case ring => rw [hd]; exact h.ring
  case receivers => rw [hd, hs']; exact fun _ => ⟨hf, rfl⟩
  case senders => rw [hs']; exact fun hne => absurd rfl hne
  case fresh => rw [hd]; exact h.fresh

omit hk in
theorem QueueInv.receiveFifo (hc : Changes k k') (hl : k.sch.que (.wsend i) = [])
    (hr : (dqueFifoRead (k.dque i)).1 = .noErr) (hd : k'.dque i = (dqueFifoRead (k.dque i)).2.2)
    (hid : (k.dque i).idDque = true) :
    QueueInv k' (hist ++ [.ret (.receive i) .noErr (dqueFifoRead (k.dque i)).2.1]) i := by
  obtain ⟨hok, hfifo, -⟩ := h.ring.read hr
  have hs' : k'.sch.que (.wsend i) = [] := by rw [hc.quiet.que _ rfl, hl]
  have hblk : blockedSends k i = [] := by simp [blockedSends, hl]
  have hblk' : blockedSends k' i = [] := by simp [blockedSends, hs']
  have hrcv : received i (hist ++ [.ret (.receive i) .noErr (dqueFifoRead (k.dque i)).2.1]) =
      received i hist ++ [(dqueFifoRead (k.dque i)).2.1] := by
    rw [received_append]
    simp [received, receivedBy]
  have hacc : accepted i (hist ++ [.ret (.receive i) .noErr (dqueFifoRead (k.dque i)).2.1]) =
      accepted i hist := by
    rw [accepted_append]
    simp [acceptBy]
  constructor
  case law => rw [hacc, hrcv, hd, hblk', h.law, hblk, hfifo]; simp
  case ring => rw [hd]; exact hok
  case receivers =>
    rw [hc.quiet.que _ rfl, hs', hd]
    intro hne
    have := (h.receivers hne).1
    rw [hfifo] at this
    cases this
  case senders => rw [hs']; exact fun hne => absurd rfl hne
  case fresh =>
    rw [hd, dqueFifoRead_idDque, hid]
    intro hc
    cases hc

theorem QueueInv.receiveGrant {data : Nat} (hg : Grants t (.wsend i) data k k')
    (hdt : (k.sch.tcb t).dataElem = data) (hr : (dqueFifoRead (k.dque i)).1 = .noErr)
    (hd : k'.dque i = (dqueFifoWrite (dqueFifoRead (k.dque i)).2.2 data).2) :
    QueueInv k' (hist ++ [.ret (.receive i) .noErr (dqueFifoRead (k.dque i)).2.1,
      .grant t (.send i data) 0]) i := by
  obtain ⟨l, hl, -, hw, hl'⟩ := hg.cons hk rfl
  have hne : k.sch.que (.wsend i) ≠ [] := by
    rw [hl]
    simp
  have hfull := h.senders hne
  have hid : (k.dque i).idDque = true := hk.live t (.wsend i) hw
  have hrecv : k.sch.que (.wreceive i) = [] := by
    by_contra hc
    exact hne (h.receivers hc).2
  have hrecv' : k'.sch.que (.wreceive i) = [] := by
    rw [hg.leave.que _ rfl, hrecv]
    rfl
  obtain ⟨hok, hfifo, hnum⟩ := h.ring.read hr
  -- the read has made room for the datum of the sender
  have hwr : (dqueFifoWrite (dqueFifoRead (k.dque i)).2.2 data).1 = .noErr := by
    by_contra hc
    have := (hok.write_fails data).mp hc
    rw [hnum] at this
    rw [hfifo, List.length_cons] at hfull
    omega
  obtain ⟨hok', hfifo'⟩ := hok.write hwr
  have hnum' : (dqueFifoWrite (dqueFifoRead (k.dque i)).2.2 data).2.numEntries =
      (k.dque i).numEntries := by
    rw [← hnum]
    unfold dqueFifoWrite
    repeat' split
    all_goals rfl
  have hrcv : received i (hist ++ [.ret (.receive i) .noErr (dqueFifoRead (k.dque i)).2.1,
      .grant t (.send i data) 0]) = received i hist ++ [(dqueFifoRead (k.dque i)).2.1] := by
    rw [received_append]
    simp [received, receivedBy]
  have hacc : accepted i (hist ++ [.ret (.receive i) .noErr (dqueFifoRead (k.dque i)).2.1,
      .grant t (.send i data) 0]) = unblock t (accepted i hist) := by
    rw [accepted_append]
    simp [acceptBy]
  constructor
  case law =>
    rw [hacc, hrcv, hd, h.law, unblock_append, unblock_done, hg.sends hk hdt, hfifo', hfifo]
    simp
  case ring => rw [hd]; exact hok'
  case receivers => rw [hrecv']; exact fun hc => absurd rfl hc
  case senders =>
    intro _
    rw [hd, hnum', hfifo', ← hfull, hfifo]
    simp
  case fresh =>
    rw [hd, dqueFifoWrite_idDque, dqueFifoRead_idDque, hid]
    intro hc
    cases hc

theorem QueueInv.receiveDirect {data : Nat} (hg : Grants t (.wsend i) data k k')
    (hdt : (k.sch.tcb t).dataElem = data) (hr : (dqueFifoRead (k.dque i)).1 ≠ .noErr)
    (hd : k'.dque i = k.dque i) :
    QueueInv k' (hist ++ [.ret (.receive i) .noErr data, .grant t (.send i data) 0]) i := by
  obtain ⟨l, hl, -, hw, hl'⟩ := hg.cons hk rfl
  have hne : k.sch.que (.wsend i) ≠ [] := by
    rw [hl]
    simp
  have hfull := h.senders hne
  have hf := h.ring.read_fails hr
  have hrecv : k.sch.que (.wreceive i) = [] := by
    by_contra hc
    exact hne (h.receivers hc).2
  have hrecv' : k'.sch.que (.wreceive i) = [] := by
    rw [hg.leave.que _ rfl, hrecv]
    rfl
  have hrcv : received i (hist ++ [.ret (.receive i) .noErr data, .grant t (.send i data) 0]) =
      received i hist ++ [data] := by
    rw [received_append]
    simp [received, receivedBy]
  have hacc : accepted i (hist ++ [.ret (.receive i) .noErr data, .grant t (.send i data) 0]) =
      unblock t (accepted i hist) := by
    rw [accepted_append]
    simp [acceptBy]
  constructor
  case law =>
    rw [hacc, hrcv, hd, h.law, unblock_append, unblock_done, hg.sends hk hdt, hf]
    simp
  case ring => rw [hd]; exact h.ring
  case receivers => rw [hrecv']; exact fun hc => absurd rfl hc
  case senders => intro _; rw [hd]; exact hfull
  case fresh => rw [hd]; exact h.fresh

omit hk in
/-- A task begins to wait. -/
theorem QueueInv.block {q : Que} {data : Nat} (hj : Join t q k.sch k'.sch) (hx : Exhausted k q data)
    (hw : ∀ q, t ∉ k.sch.que q ∨ q.isRes = false) (hdt : (k'.sch.tcb t).dataElem = data)
    (hd : k'.dque i = k.dque i) : QueueInv k' (hist ++ [.block t (waitCall q data)]) i := by
  have hnot : t ∉ k.sch.que (.wsend i) := (hw (.wsend i)).resolve_right (by simp [Que.isRes])
  have hsame : ∀ u ∈ k.sch.que (.wsend i), (k'.sch.tcb u).dataElem = (k.sch.tcb u).dataElem := by
    intro u hu
    refine view_data (hj.view u ?_)
    rintro rfl
    exact hnot hu
  by_cases hs : q = .wsend i
  · subst hs
    obtain ⟨hrecv, hwf⟩ := hx
    have hrecv' : k'.sch.que (.wreceive i) = [] := by
      rw [hj.queNe _ rfl (by simp), hrecv]
    have hblk : blockedSends k' i = blockedSends k i ++ [(data, some t)] := by
      unfold blockedSends
      rw [hj.que, List.map_append, List.map_singleton, hdt]
      congr 1
      apply List.map_congr_left
      intro u hu
      rw [hsame u hu]
    have hrcv : received i (hist ++ [.block t (waitCall (.wsend i) data)]) = received i hist := by
      rw [received_append]
      simp [received, receivedBy]
    have hacc : accepted i (hist ++ [.block t (waitCall (.wsend i) data)]) =
        accepted i hist ++ [(data, some t)] := by
      rw [accepted_append]
      simp [acceptBy, waitCall]
    constructor
    case law => rw [hacc, hrcv, hd, hblk, h.law, List.append_assoc]
    case ring => rw [hd]; exact h.ring
    case receivers => rw [hrecv']; exact fun hc => absurd rfl hc
    case senders => intro _; rw [hd]; exact (h.ring.write_fails data).mp hwf
    case fresh => rw [hd]; exact h.fresh
  have hsend : k'.sch.que (.wsend i) = k.sch.que (.wsend i) := hj.queNe _ rfl (Ne.symm hs)
  by_cases hr : q = .wreceive i
  · subst hr
    obtain ⟨hs0, hrf⟩ := hx
    have hoff : ∀ o ∈ [Obs.block t (waitCall (.wreceive i) data)], o.offQueue i := by
      intro o ho
      rw [List.mem_singleton.mp ho]
      exact ⟨rfl, fun _ => rfl⟩
    obtain ⟨h1, h2⟩ := offQueue_append hist hoff
    constructor
    case law => rw [h1, h2, hd, blockedSends_congr hsend hsame]; exact h.law
    case ring => rw [hd]; exact h.ring
    case receivers => intro _; rw [hd, hsend]; exact ⟨h.ring.read_fails hrf, hs0⟩
    case senders => rw [hd, hsend]; exact h.senders
    case fresh => rw [hd]; exact h.fresh
  · refine h.keep hd hsend (hj.queNe _ rfl (Ne.symm hr)) hsame fun o ho => ?_
    rw [List.mem_singleton.mp ho]
    cases q with
    | wsend j => exact ⟨rfl, fun l => if_neg fun hji => hs (by rw [hji])⟩
    | _ => exact ⟨rfl, fun _ => rfl⟩

/-- `tn_queue_create`. -/
theorem QueueInv.create {n : Nat} (hc : Changes k k') (hid : (k.dque i).idDque = false)
    (hd : k'.dque i = { k.dque i with
      numEntries := n, tailCnt := 0, headerCnt := 0, idDque := true })
    (ho : ∀ o ∈ obs, o.offQueue i) : QueueInv k' (hist ++ obs) i := by
  have hs : k.sch.que (.wsend i) = [] := hk.que_nil rfl hid
  have hs' : k'.sch.que (.wsend i) = [] := by rw [hc.quiet.que _ rfl, hs]
  have hr' : k'.sch.que (.wreceive i) = [] := by
    rw [hc.quiet.que _ rfl, hk.que_nil (q := .wreceive i) rfl hid]
  have hf' : (k'.dque i).fifo = [] := by
    rw [hd]
    exact RingBuf.content_nil rfl
  have hblk : blockedSends k i = [] := by simp [blockedSends, hs]
  have hblk' : blockedSends k' i = [] := by simp [blockedSends, hs']
  obtain ⟨h1, h2⟩ := offQueue_append hist ho
  constructor
  case law => rw [h1, h2, hf', hblk', h.law, h.fresh hid, hblk]
  case ring =>
    rw [hd]
    by_cases hn : n = 0
    · exact .inr ⟨hn, rfl, rfl⟩
    · exact .inl ⟨Nat.pos_of_ne_zero hn, Nat.pos_of_ne_zero hn⟩
  case receivers => rw [hr']; exact fun hc => absurd rfl hc
  case senders => rw [hs']; exact fun hc => absurd rfl hc
  case fresh => exact fun _ => hf'

end Act

/-- The calls of another queue. -/
theorem offQueue_send {j : Nat} (hj : j ≠ i) (x : Nat) (rc : Terr) (data : Nat) :
    (Obs.ret (.send j x) rc data).offQueue i := by
  refine ⟨rfl, fun l => ?_⟩
  cases rc <;> first | rfl | exact if_neg hj

theorem offQueue_receive {j : Nat} (hj : j ≠ i) (rc : Terr) (data : Nat) :
    (Obs.ret (.receive j) rc data).offQueue i := by
  refine ⟨?_, fun _ => rfl⟩
  cases rc <;> first | rfl | exact if_neg hj

theorem offQueue_grantSend {j : Nat} (hj : j ≠ i) (t : TaskId) (x data : Nat) :
    (Obs.grant t (.send j x) data).offQueue i := ⟨rfl, fun _ => if_neg hj⟩

theorem offQueue_grantReceive {j : Nat} (hj : j ≠ i) (t : TaskId) (data : Nat) :
    (Obs.grant t (.receive j) data).offQueue i := ⟨if_neg hj, fun _ => rfl⟩

theorem offQueue_pair {o o' : Obs} (h : o.offQueue i) (h' : o'.offQueue i) :
    ∀ x ∈ [o, o'], x.offQueue i := by
  intro x hx
  simp only [List.mem_cons, List.not_mem_nil, or_false] at hx
  rcases hx with rfl | rfl
  · exact h
  · exact h'

theorem offQueue_one {o : Obs} (h : o.offQueue i) : ∀ x ∈ [o], x.offQueue i := by
  intro x hx
  rw [List.mem_singleton.mp hx]
  exact h

/-- **The acts keep the invariant of a queue.** -/
theorem QueueInv.act (hk : KInv k) (h : QueueInv k hist i) (hact : Act a k obs k') :
    QueueInv k' (hist ++ obs) i := by
  have silent : (∀ o ∈ obs, o.silent = true) → ∀ o ∈ obs, o.offQueue i := fun ho o hx =>
    offQueue_silent (ho o hx) i
  have changes : Changes k k' → k'.dque i = k.dque i → (∀ o ∈ obs, o.offQueue i) →
      QueueInv k' (hist ++ obs) i := fun hc hd ho =>
    h.keep hd (hc.quiet.que _ rfl) (hc.quiet.que _ rfl) (fun u _ => view_data (hc.quiet.view u)) ho
  have free : ∀ t, Free t k.sch k'.sch → k'.dque i = k.dque i → (∀ o ∈ obs, o.silent = true) →
      QueueInv k' (hist ++ obs) i := by
    intro t hf hd ho
    refine h.keep hd (hf.que _ rfl) (hf.que _ rfl) (fun u hu => view_data (hf.view u ?_)) (silent ho)
    rintro rfl
    have := hf.before _ (((hk.sch.ok u).waits (.wsend i) rfl).mp hu)
    cases this
  cases hact with
  | quiet hc hr ho => exact changes hc (by rw [hr.dque]) (silent ho)
  | @free _ _ t hf hr hp hg hb hn hl ho => exact free t hf (by rw [hr.dque]) ho
  | @reset _ _ t hf hw hr hp hg hn ho => exact free t hf (by rw [hr.dque]) ho
  | @resetWait _ t q hl hq hres hr hp hg hn => exact h.cancel hk hl hq (by rw [hr.dque])
  | @cancel _ t q hl hq hres hd hr hp hg hrc => exact h.cancel hk hl hq (by rw [hr.dque])
  | @release _ t q hl hq hres hr hp hg hrel => exact h.cancel hk hl hq (by rw [hr.dque])
  | @block _ t q data hj hres hl hx ht hw hd hr hb hp hn hg =>
    refine h.block hj hx (fun q' => ?_) hd (by rw [hr.dque])
    cases hq' : q'.isRes with
    | false => exact .inr rfl
    | true => exact .inl (hk.sch.toQInv.not_mem (Que.not_ready_of_isRes hq') (by rw [hw]; simp))
  | @back _ t c hq hw hc hres hr hp hn hg =>
    exact h.keep (by rw [hr.dque]) (hq.que _ rfl) (hq.que _ rfl) (fun u _ => view_data (hq.view u))
      (offQueue_one ⟨rfl, fun _ => rfl⟩)
  | semParam hc hs hd hf ho => exact changes hc (by rw [hd]) (silent ho)
  | semCreate hc hid hs hd hf => exact changes hc (by rw [hd]) (offQueue_one ⟨rfl, fun _ => rfl⟩)
  | semSignal hc hid hl hs hd hf => exact changes hc (by rw [hd]) (offQueue_one ⟨rfl, fun _ => rfl⟩)
  | semGrant hg hr =>
    exact h.grantOther hk hg rfl (by simp) (by simp) (by rw [hr.dque])
      (offQueue_pair ⟨rfl, fun _ => rfl⟩ ⟨rfl, fun _ => rfl⟩)
  | semAcquire hc hid hn hs hd hf =>
    exact changes hc (by rw [hd]) (offQueue_one ⟨rfl, fun _ => rfl⟩)
  | @queueCreate _ j n _ hc hid hd hs hf ho =>
    by_cases hj : j = i
    · subst hj
      exact h.create hk hc hid (by rw [hd, Function.update_self]) (silent ho)
    · exact changes hc (by rw [hd, Function.update_of_ne (Ne.symm hj)]) (silent ho)
  | @sendFifo _ j data hc hid hl hw hd hs hf =>
    by_cases hj : j = i
    · subst hj
      exact h.sendFifo hc hl hw (by rw [hd, Function.update_self]) hid
    · exact changes hc (by rw [hd, Function.update_of_ne (Ne.symm hj)])
        (offQueue_one (offQueue_send hj _ _ _))
  | @sendGrant _ j data t hg hr =>
    by_cases hj : j = i
    · subst hj
      exact h.sendGrant hk hg (by rw [hr.dque])
    · exact h.grantOther hk hg rfl (by simp) (by simpa using hj) (by rw [hr.dque])
        (offQueue_pair (offQueue_send hj _ _ _) (offQueue_grantReceive hj _ _))
  | @receiveFifo _ j hc hid hl hw hd hs hf =>
    by_cases hj : j = i
    · subst hj
      exact h.receiveFifo hc hl hw (by rw [hd, Function.update_self]) hid
    · exact changes hc (by rw [hd, Function.update_of_ne (Ne.symm hj)])
        (offQueue_one (offQueue_receive hj _ _))
  | @receiveGrant _ j data t hg hdt hw hd hs hf =>
    by_cases hj : j = i
    · subst hj
      exact h.receiveGrant hk hg hdt hw (by rw [hd, Function.update_self])
    · exact h.grantOther hk hg rfl (by simpa using hj) (by simp)
        (by rw [hd, Function.update_of_ne (Ne.symm hj)])
        (offQueue_pair (offQueue_receive hj _ _) (offQueue_grantSend hj _ _ _))
  | @receiveDirect _ j data t hg hdt hw hr =>
    by_cases hj : j = i
    · subst hj
      exact h.receiveDirect hk hg hdt hw (by rw [hr.dque])
    · exact h.grantOther hk hg rfl (by simpa using hj) (by simp) (by rw [hr.dque])
        (offQueue_pair (offQueue_receive hj _ _) (offQueue_grantSend hj _ _ _))
  | fmemCreate hc hid hx hcr hf hs hd ho => exact changes hc (by rw [hd]) (silent ho)
  | fmemGet hc hid hn hf hs hd => exact changes hc (by rw [hd]) (offQueue_one ⟨rfl, fun _ => rfl⟩)
  | fmemGrant hg hr hfr =>
    exact h.grantOther hk hg rfl (by simp) (by simp) (by rw [hr.dque])
      (offQueue_pair ⟨rfl, fun _ => rfl⟩ ⟨rfl, fun _ => rfl⟩)
  | fmemRelease hc hid hl hf hs hd hfr =>
    exact changes hc (by rw [hd]) (offQueue_one ⟨rfl, fun _ => rfl⟩)

/-! ## Runs -/

/-- The services that end a wait by force. -/
def Event.releasesWait : Event → Bool
  | .task (.releaseWait _) => true
  | .isr (.ireleaseWait _) => true
  | _ => false

/-- The events of a run without `tn_task_release_wait`. -/
def QueueEvent (k : Kernel) (ev : Event) : Prop :=
  Enabled k ev ∧ ExitOk k ev ∧ ev.releasesWait = false

/-- No wait for a resource is released. -/
def Allow.noRelease : Allow := ⟨fun _ _ _ => True, fun _ _ => True, fun _ => False⟩

theorem noRelease_permits {ev : Event} (h : ev.releasesWait = false) :
    Allow.noRelease.permits k ev := by
  unfold Allow.permits
  split <;> trivial

/-- The invariant of a run. -/
structure RecordInv (k : Kernel) (hist : List Obs) : Prop where
  kinv : KInv k
  outcome : Outcome k hist
  back : BackOk hist
  queue : ∀ i, QueueInv k hist i

theorem RecordInv.acts (h : RecordInv k hist) (hr : ∀ t, ¬a.release t) (hact : Acts a k obs k') :
    RecordInv k' (hist ++ obs) := by
  obtain ⟨h1, h2, h3, h4⟩ := hact.induct
    (fun k hist => Outcome k hist ∧ BackOk hist ∧ ∀ i, QueueInv k hist i)
    (fun k k' hist obs hk _ hi hact =>
      ⟨hi.1.act hk hr hact, hi.2.1.act hk hi.1 hact, fun i => (hi.2.2 i).act hk hact⟩)
    hist h.kinv ⟨h.outcome, h.back, h.queue⟩
  exact ⟨h1, h2, h3, h4⟩

theorem RecordInv.start : RecordInv Kernel.start [] := by
  constructor
  case kinv => exact KInv.start
  case outcome => exact fun t c hc => by cases hc
  case back =>
    intro h₁ t c rc data h₂ heq
    simp at heq
  case queue =>
    intro i
    have hs : Kernel.start.sch.que (.wsend i) = [] := KInv.start.que_nil rfl rfl
    have hr : Kernel.start.sch.que (.wreceive i) = [] := KInv.start.que_nil rfl rfl
    constructor
    case law =>
      unfold blockedSends
      rw [hs]
      rfl
    case ring => exact .inr ⟨rfl, rfl, rfl⟩
    case receivers => rw [hr]; exact fun hc => absurd rfl hc
    case senders => rw [hs]; exact fun hc => absurd rfl hc
    case fresh => exact fun _ => rfl

/-- What is seen of a step. -/
theorem kernelMachine_obs {ev : Event} {r : Res} (hr : kernelStep k ev = some r) :
    (kernelMachine k ev).2 = r.2 := by
  unfold kernelMachine
  rw [hr]
  rfl

theorem RecordInv.run {es : List Event}
    (hg : Machine.Guarded kernelMachine QueueEvent (some Kernel.start) es)
    (hk : (Machine.run kernelMachine (some Kernel.start) es).1 = some k) :
    RecordInv k (Machine.run kernelMachine (some Kernel.start) es).2 := by
  refine Machine.run_record RecordInv ?_ RecordInv.start hg hk
  intro k ev hist k' h hc hk'
  obtain ⟨r, hr, rfl⟩ := Option.map_eq_some_iff.mp hk'
  rw [kernelMachine_obs hr]
  exact h.acts (fun _ => id) (kernelStep_acts h.kinv hc.1 hc.2.1 (noRelease_permits hc.2.2) hr)

/-- **Data queues are first-in first-out.**  In every state of every run without
    `tn_task_release_wait`, for every queue: the data received, then those in the ring buffer, then
    those of the blocked senders in their order, are the data of the accepted sends in the order of
    the calls, and the blocked ones of these are the tasks in `wait_send_list`; a waiting receiver
    means an empty ring buffer and no waiting sender, a waiting sender means a full ring buffer; and
    a call that has blocked has returned what it was granted, or a timeout. -/
theorem queue_fifo (es : List Event) (k : Kernel) (i : Nat)
    (hg : Machine.Guarded kernelMachine QueueEvent (some Kernel.start) es)
    (hk : (Machine.run kernelMachine (some Kernel.start) es).1 = some k) :
    received i (Machine.run kernelMachine (some Kernel.start) es).2 ++ (k.dque i).fifo ++
        (k.sch.que (.wsend i)).map (fun t => (k.sch.tcb t).dataElem) =
      (accepted i (Machine.run kernelMachine (some Kernel.start) es).2).map Prod.fst ∧
    (accepted i (Machine.run kernelMachine (some Kernel.start) es).2).filterMap Prod.snd =
      k.sch.que (.wsend i) ∧
    (k.sch.que (.wreceive i) ≠ [] → (k.dque i).fifo = [] ∧ k.sch.que (.wsend i) = []) ∧
    (k.sch.que (.wsend i) ≠ [] → (k.dque i).fifo.length = (k.dque i).numEntries - 1) ∧
    BackOk (Machine.run kernelMachine (some Kernel.start) es).2 := by
  have h := RecordInv.run hg hk
  have hq := h.queue i
  refine ⟨?_, ?_, hq.receivers, hq.senders, h.back⟩
  · rw [hq.law]
    simp [blockedSends, Function.comp_def]
  · rw [hq.law]
    simp [blockedSends, List.filterMap_append, List.filterMap_map]

instance (k : Kernel) (ev : Event) : Decidable (QueueEvent k ev) :=
  inferInstanceAs (Decidable (_ ∧ _ ∧ _))

/-- Task 2 makes a queue for one datum, fills it and blocks with a second datum; task 3 receives
    both, and blocks for a third one. -/
def queueRun : List Event :=
  twoTasks ++ [.task (.queueCreate 0 true 2), .task (.queueSendPolling 0 10),
    .task (.queueSend 0 11 TN_WAIT_INFINITE), .switchContext, .task (.queueReceivePolling 0),
    .task (.queueReceivePolling 0), .task (.queueReceive 0 5)]

theorem queueRun_isSome :
    (Machine.run kernelMachine (some Kernel.start) queueRun).1.isSome = true := by
  decide +kernel

theorem queue_fifo_two_data :
    received 0 (Machine.run kernelMachine (some Kernel.start) queueRun).2 = [10, 11] ∧
    (accepted 0 (Machine.run kernelMachine (some Kernel.start) queueRun).2).map Prod.fst =
      [10, 11] := by
  have hk := (Option.some_get queueRun_isSome).symm
  have hg : Machine.Guarded kernelMachine QueueEvent (some Kernel.start) queueRun := by
    decide +kernel
  have h := queue_fifo queueRun _ 0 hg hk
  have h1 : received 0 (Machine.run kernelMachine (some Kernel.start) queueRun).2 = [10, 11] := by
    decide +kernel
  refine ⟨h1, ?_⟩
  rw [← h.1, h1]
  decide +kernel

end TnKernel
