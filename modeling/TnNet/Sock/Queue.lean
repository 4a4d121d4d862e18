import TnNet.Sock.Calls
import TnNet.Lib.Chain

/-!
# The queues of a listening socket

The sockets on `so_q0` and `so_q` are chained through the fields of the same names, from the listening
socket on.  `QueueInv` says which sockets these are, for every listening socket; `que k a` is the queue `k`
of the socket `a`.

* `soqremque_ok`, `soqremque_miss` — a socket on the queue is taken off it, one that is not is left alone.
* `soqinsque_ok` — a socket joins the queue at its end.
* `QueueInv.frame` — what does not concern the queues.
-/

set_option autoImplicit false

namespace TnSock

open Chain

variable {N M : Nat} {α β : Type} {n n' : Net N M} {a b c L prev : Fin N} {i : Fin M} {k k' : SoQ}
variable {l l₁ l₂ : List (Fin N)} {que : SoQ → Fin N → List (Fin N)}

/-! ## Running calls -/

@[simp] theorem run_pure (x : α) (n : Net N M) : (pure x : Call N M α) n = .ok (x, n) := rfl

theorem run_bind {x : Call N M α} {f : α → Call N M β} {v : α} (h : x n = .ok (v, n')) :
    (x >>= f) n = f v n' := by
  simp only [bind, h]

theorem run_bind_error {x : Call N M α} {f : α → Call N M β} {e : Fault N M} (h : x n = .error e) :
    (x >>= f) n = .error e := by
  simp only [bind, h]

theorem readSo_ok (h : n.mid1 a = some .socket) : readSo a n = .ok (n.so a, n) := by
  simp [readSo, h]

theorem writeSo_ok (h : n.mid1 a = some .socket) (f : SocketTcp N M → SocketTcp N M) :
    writeSo a f n = .ok ((), n.setSo a f) := by
  simp [writeSo, h]

theorem bind_readSo (h : n.mid1 a = some .socket) (f : SocketTcp N M → Call N M β) :
    (readSo a >>= f) n = f (n.so a) n :=
  run_bind (readSo_ok h)

theorem bind_writeSo {g : SocketTcp N M → SocketTcp N M} (h : n.mid1 a = some .socket)
    (f : Unit → Call N M β) : (writeSo a g >>= f) n = f () (n.setSo a g) :=
  run_bind (writeSo_ok h g)

theorem bind_deref (x : α) (f : α → Call N M β) : (deref (some x) >>= f) n = f x n := rfl

@[simp] theorem deref_some (x : α) (n : Net N M) : (deref (some x) : Call N M α) n = .ok (x, n) := rfl

@[simp] theorem setSo_mid1 (n : Net N M) (a : Fin N) (f : SocketTcp N M → SocketTcp N M) :
    (n.setSo a f).mid1 = n.mid1 := rfl

@[simp] theorem setSo_so_self (n : Net N M) (a : Fin N) (f : SocketTcp N M → SocketTcp N M) :
    (n.setSo a f).so a = f (n.so a) := by
  simp [Net.setSo]

theorem setSo_so_of_ne (f : SocketTcp N M → SocketTcp N M) (h : b ≠ a) :
    (n.setSo a f).so b = n.so b := by
  simp [Net.setSo, h]

/-! ## The walks -/

/-- The links of a queue. -/
def Net.links (n : Net N M) (k : SoQ) (b : Fin N) : Option (Fin N) := (n.so b).link k

theorem lastOf_ok {fuel : Nat} (h : Links (n.links k) a l) (hl : ∀ b ∈ a :: l, n.mid1 b = some .socket)
    (hf : l.length < fuel) : lastOf k fuel a n = .ok (l.getLastD a, n) := by
  induction l generalizing a fuel with
  | nil =>
    obtain ⟨fuel, rfl⟩ : ∃ f, fuel = f + 1 := ⟨fuel - 1, by omega⟩
    change (n.so a).link k = none at h
    rw [lastOf, run_bind (readSo_ok (hl a List.mem_cons_self)), h]
    rfl
  | cons b l ih =>
    obtain ⟨fuel, rfl⟩ : ∃ f, fuel = f + 1 := ⟨fuel - 1, by omega⟩
    have ha : (n.so a).link k = some b := h.1
    rw [lastOf, run_bind (readSo_ok (hl a List.mem_cons_self)), ha, List.getLastD_cons]
    apply ih h.2
    · intro c hc
      exact hl c (List.mem_cons_of_mem a hc)
    · simpa using hf

theorem prevOf_miss {fuel : Nat} (h : Links (n.links k) a l) (hl : ∀ b ∈ a :: l, n.mid1 b = some .socket)
    (hc : c ∉ l) (hf : l.length < fuel) : prevOf k c fuel a n = .ok (none, n) := by
  induction l generalizing a fuel with
  | nil =>
    obtain ⟨fuel, rfl⟩ : ∃ f, fuel = f + 1 := ⟨fuel - 1, by omega⟩
    change (n.so a).link k = none at h
    rw [prevOf, run_bind (readSo_ok (hl a List.mem_cons_self)), h]
    rfl
  | cons b l ih =>
    obtain ⟨fuel, rfl⟩ : ∃ f, fuel = f + 1 := ⟨fuel - 1, by omega⟩
    rw [List.mem_cons, not_or] at hc
    have ha : (n.so a).link k = some b := h.1
    rw [prevOf, run_bind (readSo_ok (hl a List.mem_cons_self)), ha]
    dsimp only
    rw [if_neg (Ne.symm hc.1)]
    apply ih h.2
    · intro c hc
      exact hl c (List.mem_cons_of_mem a hc)
    · exact hc.2
    · simpa using hf

theorem prevOf_found {fuel : Nat} (h : Links (n.links k) a (l₁ ++ c :: l₂))
    (hl : ∀ b ∈ a :: l₁, n.mid1 b = some .socket) (hc : c ∉ l₁) (hf : l₁.length < fuel) :
    prevOf k c fuel a n = .ok (some (l₁.getLastD a), n) := by
  induction l₁ generalizing a fuel with
  | nil =>
    obtain ⟨fuel, rfl⟩ : ∃ f, fuel = f + 1 := ⟨fuel - 1, by omega⟩
    have ha : (n.so a).link k = some c := h.1
    rw [prevOf, run_bind (readSo_ok (hl a List.mem_cons_self)), ha]
    simp
  | cons b l₁ ih =>
    obtain ⟨fuel, rfl⟩ : ∃ f, fuel = f + 1 := ⟨fuel - 1, by omega⟩
    rw [List.mem_cons, not_or] at hc
    have ha : (n.so a).link k = some b := h.1
    rw [prevOf, run_bind (readSo_ok (hl a List.mem_cons_self)), ha]
    dsimp only
    rw [if_neg (Ne.symm hc.1), List.getLastD_cons]
    apply ih h.2
    · intro c hc
      exact hl c (List.mem_cons_of_mem a hc)
    · exact hc.2
    · simpa using hf

theorem length_lt_card (h : (a :: l).Nodup) : l.length < N := by
  have hle := h.length_le_card
  rw [List.length_cons, Fintype.card_fin] at hle
  exact hle

/-! ## The invariant -/

def SocketTcp.len (s : SocketTcp N M) : SoQ → Int
  | .soQ0 => s.soQ0len
  | .soQ => s.soQlen

/-- The socket is in use and listens. -/
def Net.listens (n : Net N M) (a : Fin N) : Prop := n.mid1 a = some .socket ∧ (n.so a).acceptConn = true

/-- The queues of the listening sockets. -/
structure QueueInv (n : Net N M) (que : SoQ → Fin N → List (Fin N)) : Prop where
  links : ∀ k a, n.listens a → Links (n.links k) a (que k a)
  len : ∀ k a, n.listens a → (n.so a).len k = (que k a).length
  nodup : ∀ a, (que .soQ0 a ++ que .soQ a).Nodup
  mem : ∀ k a, ∀ c ∈ que k a, n.mid1 c = some .socket ∧ (n.so c).soHead = some a ∧
    (n.so c).nofdref = true ∧ (n.so c).acceptConn = false
  head : ∀ c a, n.mid1 c = some .socket → (n.so c).soHead = some a → n.listens a ∧ ∃ k, c ∈ que k a
  root : ∀ a, n.listens a → (n.so a).soHead = none
  off : ∀ a, n.mid1 a = some .socket → (n.so a).acceptConn = false → ∀ k, (n.so a).len k = 0 ∧
    ((n.so a).soHead = none → (n.so a).link k = none)
  empty : ∀ k a, ¬ n.listens a → que k a = []

/-- What the queues rest on in a socket. -/
structure SameQueue (s s' : SocketTcp N M) : Prop where
  acceptConn : s'.acceptConn = s.acceptConn
  nofdref : s'.nofdref = s.nofdref
  soHead : s'.soHead = s.soHead
  link : ∀ k, s'.link k = s.link k
  len : ∀ k, s'.len k = s.len k
  limit : s'.soQlimit = s.soQlimit

/-- The socket is on no queue and has none. -/
structure Net.OffQueue (n : Net N M) (a : Fin N) : Prop where
  alive : n.mid1 a = some .socket
  acceptConn : (n.so a).acceptConn = false
  soHead : (n.so a).soHead = none

theorem QueueInv.listens_ne (h : QueueInv n que) (ha : n.listens a) (hc : c ∈ que k b) : a ≠ c := by
  rintro rfl
  have := (h.mem k b a hc).2.2.2
  simp [ha.2] at this

theorem QueueInv.cons_nodup (h : QueueInv n que) (ha : n.listens a) (k : SoQ) : (a :: que k a).Nodup := by
  rw [List.nodup_cons]
  refine ⟨fun hc => h.listens_ne ha hc rfl, ?_⟩
  have hnd := List.nodup_append.mp (h.nodup a)
  cases k with
  | soQ0 => exact hnd.1
  | soQ => exact hnd.2.1

theorem QueueInv.alive (h : QueueInv n que) (ha : n.listens a) (k : SoQ) :
    ∀ b ∈ a :: que k a, n.mid1 b = some .socket := by
  intro b hb
  rcases List.mem_cons.mp hb with rfl | hb
  · exact ha.1
  · exact (h.mem k a b hb).1

theorem QueueInv.off_not_mem (h : QueueInv n que) (ha : n.OffQueue c) : c ∉ que k a := by
  intro hc
  have := (h.mem k a c hc).2.1
  simp [ha.soHead] at this

theorem QueueInv.length_lt (h : QueueInv n que) (ha : n.listens a) (k : SoQ) : (que k a).length < N :=
  length_lt_card (h.cons_nodup ha k)

theorem QueueInv.one_queue (h : QueueInv n que) (hc : c ∈ que k a) (hc' : c ∈ que k' a) : k' = k := by
  have hnd := (List.nodup_append.mp (h.nodup a)).2.2
  cases k <;> cases k'
  · rfl
  · exact absurd rfl (hnd c hc c hc')
  · exact absurd rfl (hnd c hc' c hc)
  · rfl

/-- Everything else may change, and sockets that are on no queue may come and go. -/
theorem QueueInv.frame (h : QueueInv n que)
    (hold : ∀ b, n.mid1 b = some .socket → n'.mid1 b = some .socket ∧ SameQueue (n.so b) (n'.so b) ∨
      n'.mid1 b ≠ some .socket ∧ n.OffQueue b)
    (hnew : ∀ b, n'.mid1 b = some .socket → n.mid1 b = some .socket ∨
      n'.OffQueue b ∧ ∀ k, (n'.so b).len k = 0 ∧ (n'.so b).link k = none) : QueueInv n' que := by
  have hkeep : ∀ b, n.listens b → n'.mid1 b = some .socket ∧ SameQueue (n.so b) (n'.so b) := by
    intro b hb
    rcases hold b hb.1 with hb' | ⟨-, hb'⟩
    · exact hb'
    · have := hb'.acceptConn
      simp [hb.2] at this
  have hback : ∀ b, n'.mid1 b = some .socket → (n'.so b).acceptConn = true ∨ (n'.so b).soHead ≠ none →
      n.mid1 b = some .socket ∧ SameQueue (n.so b) (n'.so b) := by
    intro b hb hq
    rcases hnew b hb with hb' | ⟨hb', -⟩
    · rcases hold b hb' with h1 | h1
      · exact ⟨hb', h1.2⟩
      · exact absurd hb h1.1
    · rcases hq with hq | hq
      · simp [hb'.acceptConn] at hq
      · exact absurd hb'.soHead hq
  have hlis : ∀ b, n'.listens b → n.listens b := by
    intro b hb
    obtain ⟨h1, h2⟩ := hback b hb.1 (.inl hb.2)
    exact ⟨h1, h2.acceptConn.symm.trans hb.2⟩
  have hmem : ∀ k a, ∀ c ∈ que k a, n'.mid1 c = some .socket ∧ SameQueue (n.so c) (n'.so c) := by
    intro k a c hc
    rcases hold c (h.mem k a c hc).1 with h1 | h1
    · exact h1
    · exact absurd hc (h.off_not_mem h1.2)
  refine ⟨?_, ?_, h.nodup, ?_, ?_, ?_, ?_, ?_⟩
  · intro k a ha
    apply (h.links k a (hlis a ha)).frame
    intro b hb
    rcases List.mem_cons.mp hb with rfl | hb
    · exact (hkeep b (hlis b ha)).2.link k
    · exact (hmem k a b hb).2.link k
  · intro k a ha
    rw [(hkeep a (hlis a ha)).2.len k]
    exact h.len k a (hlis a ha)
  · intro k a c hc
    obtain ⟨h1, h2⟩ := hmem k a c hc
    obtain ⟨-, h3, h4, h5⟩ := h.mem k a c hc
    exact ⟨h1, h2.soHead.trans h3, h2.nofdref.trans h4, h2.acceptConn.trans h5⟩
  · intro c a hc hhead
    obtain ⟨h1, h2⟩ := hback c hc (.inr (by simp [hhead]))
    obtain ⟨h3, h4⟩ := h.head c a h1 (h2.soHead.symm.trans hhead)
    obtain ⟨h5, h6⟩ := hkeep a h3
    exact ⟨⟨h5, h6.acceptConn.trans h3.2⟩, h4⟩
  · intro a ha
    rw [(hkeep a (hlis a ha)).2.soHead]
    exact h.root a (hlis a ha)
  · intro a ha hacc k
    rcases hnew a ha with h1 | ⟨-, h1⟩
    · rcases hold a h1 with ⟨-, h2⟩ | h2
      · rw [h2.len, h2.soHead, h2.link]
        exact h.off a h1 (h2.acceptConn.symm.trans hacc) k
      · exact absurd ha h2.1
    · exact ⟨(h1 k).1, fun _ => (h1 k).2⟩
  · intro k a ha
    apply h.empty
    intro hb
    obtain ⟨h1, h2⟩ := hkeep a hb
    exact ha ⟨h1, h2.acceptConn.trans hb.2⟩

/-! ## Removal -/

/-- The stores of `soqremque`. -/
def Net.unlinkQ (n : Net N M) (head prev so : Fin N) (k : SoQ) : Net N M :=
  ((n.setSo prev fun p => p.setLink ((n.so so).link k) k).setSo head fun h => h.addLen (-1) k).setSo so
    fun s => { s with soQ0 := none, soQ := none, soHead := none }

/-- One queue of one socket changes. -/
def setQue (que : SoQ → Fin N → List (Fin N)) (k : SoQ) (a : Fin N) (l : List (Fin N)) :
    SoQ → Fin N → List (Fin N) :=
  fun k' b => if k' = k ∧ b = a then l else que k' b

@[simp] theorem setQue_self (que : SoQ → Fin N → List (Fin N)) (k : SoQ) (a : Fin N) (l : List (Fin N)) :
    setQue que k a l k a = l := by
  simp [setQue]

theorem setQue_of_ne (h : ¬ (k' = k ∧ b = a)) : setQue que k a l k' b = que k' b := by
  simp only [setQue, if_neg h]

theorem setQue_sublist (h : que k a = l₁ ++ c :: l₂) :
    List.Sublist (setQue que k a (l₁ ++ l₂) k' b) (que k' b) := by
  by_cases hkb : k' = k ∧ b = a
  · obtain ⟨rfl, rfl⟩ := hkb
    rw [setQue_self, h]
    apply List.Sublist.append (List.Sublist.refl l₁)
    exact List.sublist_cons_self c l₂
  · rw [setQue_of_ne hkb]

theorem link_setLink (s : SocketTcp N M) (x : Option (Fin N)) :
    (s.setLink x k).link k' = if k' = k then x else s.link k' := by
  cases k <;> cases k' <;> rfl

theorem len_addLen (s : SocketTcp N M) (d : Int) :
    (s.addLen d k).len k' = if k' = k then s.len k' + d else s.len k' := by
  cases k <;> cases k' <;> rfl

@[simp] theorem link_addLen (s : SocketTcp N M) (d : Int) : (s.addLen d k).link k' = s.link k' := by
  cases k <;> cases k' <;> rfl

@[simp] theorem len_setLink (s : SocketTcp N M) (x : Option (Fin N)) :
    (s.setLink x k).len k' = s.len k' := by
  cases k <;> cases k' <;> rfl

/-- The fields the queue operations leave alone. -/
structure SameRest (s s' : SocketTcp N M) : Prop where
  acceptConn : s'.acceptConn = s.acceptConn
  nofdref : s'.nofdref = s.nofdref
  limit : s'.soQlimit = s.soQlimit
  soPcb : s'.soPcb = s.soPcb
  socketEx : s'.socketEx = s.socketEx

theorem SameRest.refl (s : SocketTcp N M) : SameRest s s := ⟨rfl, rfl, rfl, rfl, rfl⟩

theorem SameRest.trans {s s' s'' : SocketTcp N M} (h : SameRest s s') (h' : SameRest s' s'') :
    SameRest s s'' :=
  ⟨h'.acceptConn.trans h.acceptConn, h'.nofdref.trans h.nofdref, h'.limit.trans h.limit,
    h'.soPcb.trans h.soPcb, h'.socketEx.trans h.socketEx⟩

theorem SameRest.setLink (s : SocketTcp N M) (x : Option (Fin N)) (k : SoQ) :
    SameRest s (s.setLink x k) := by
  cases k <;> exact ⟨rfl, rfl, rfl, rfl, rfl⟩

theorem SameRest.addLen (s : SocketTcp N M) (d : Int) (k : SoQ) : SameRest s (s.addLen d k) := by
  cases k <;> exact ⟨rfl, rfl, rfl, rfl, rfl⟩

@[simp] theorem soHead_setLink (s : SocketTcp N M) (x : Option (Fin N)) :
    (s.setLink x k).soHead = s.soHead := by
  cases k <;> rfl

@[simp] theorem soHead_addLen (s : SocketTcp N M) (d : Int) : (s.addLen d k).soHead = s.soHead := by
  cases k <;> rfl

theorem setSo_rest {f : SocketTcp N M → SocketTcp N M} (hf : ∀ s, SameRest s (f s)) (b : Fin N) :
    SameRest (n.so b) ((n.setSo a f).so b) := by
  rcases eq_or_ne b a with rfl | hb
  · rw [setSo_so_self]
    exact hf _
  · rw [setSo_so_of_ne f hb]
    exact .refl _

/-- A store to other fields. -/
theorem setSo_proj {f : SocketTcp N M → SocketTcp N M} (p : SocketTcp N M → α) (hf : ∀ s, p (f s) = p s)
    (b : Fin N) : p ((n.setSo a f).so b) = p (n.so b) := by
  rcases eq_or_ne b a with rfl | hb
  · rw [setSo_so_self, hf]
  · rw [setSo_so_of_ne f hb]

theorem unlinkQ_rest (n : Net N M) (L prev c : Fin N) (k : SoQ) (b : Fin N) :
    SameRest (n.so b) ((n.unlinkQ L prev c k).so b) := by
  unfold Net.unlinkQ
  refine ((setSo_rest ?_ b).trans (setSo_rest ?_ b)).trans (setSo_rest ?_ b)
  · intro s
    exact SameRest.setLink s _ k
  · intro s
    exact SameRest.addLen s (-1) k
  · intro s
    exact ⟨rfl, rfl, rfl, rfl, rfl⟩

theorem unlinkQ_link (hb : b ≠ c) : ((n.unlinkQ L prev c k).so b).link k' =
    if k' = k ∧ b = prev then (n.so c).link k else (n.so b).link k' := by
  unfold Net.unlinkQ
  rw [setSo_so_of_ne _ hb, setSo_proj (fun s => s.link k') fun s => link_addLen s (-1)]
  rcases eq_or_ne b prev with rfl | hp
  · rw [setSo_so_self, link_setLink]
    simp
  · rw [setSo_so_of_ne _ hp]
    simp [hp]

theorem unlinkQ_len (hb : b ≠ c) : ((n.unlinkQ L prev c k).so b).len k' =
    if k' = k ∧ b = L then (n.so b).len k' - 1 else (n.so b).len k' := by
  unfold Net.unlinkQ
  rw [setSo_so_of_ne _ hb]
  rcases eq_or_ne b L with rfl | hL
  · rw [setSo_so_self, len_addLen, setSo_proj (fun s => s.len k') fun s => len_setLink s _]
    simp [Int.sub_eq_add_neg]
  · rw [setSo_so_of_ne _ hL, setSo_proj (fun s => s.len k') fun s => len_setLink s _]
    simp [hL]

theorem unlinkQ_soHead (hb : b ≠ c) : ((n.unlinkQ L prev c k).so b).soHead = (n.so b).soHead := by
  unfold Net.unlinkQ
  rw [setSo_so_of_ne _ hb, setSo_proj _ fun s => soHead_addLen s (-1),
    setSo_proj _ fun s => soHead_setLink s _]

theorem unlinkQ_self_soHead : ((n.unlinkQ L prev c k).so c).soHead = none := by
  unfold Net.unlinkQ
  rw [setSo_so_self]

theorem unlinkQ_self_link : ((n.unlinkQ L prev c k).so c).link k' = none := by
  unfold Net.unlinkQ
  rw [setSo_so_self]
  cases k' <;> rfl

/-- A socket that does not listen has no queue, also while it leaves one. -/
theorem unlinkQ_self_len (hL : L ≠ c) : ((n.unlinkQ L prev c k).so c).len k' = (n.so c).len k' := by
  unfold Net.unlinkQ
  have hclear : ∀ s : SocketTcp N M,
      ({ s with soQ0 := none, soQ := none, soHead := none } : SocketTcp N M).len k' = s.len k' := by
    intro s
    cases k' <;> rfl
  rw [setSo_proj (fun s => s.len k') hclear, setSo_so_of_ne _ hL.symm,
    setSo_proj (fun s => s.len k') fun s => len_setLink s _]

theorem listens_of_rest (hm : n'.mid1 = n.mid1) (hr : ∀ b, SameRest (n.so b) (n'.so b)) :
    n'.listens a ↔ n.listens a := by
  unfold Net.listens
  rw [hm, (hr a).acceptConn]

theorem QueueInv.listens_of_mem (h : QueueInv n que) (hc : c ∈ que k a) : n.listens a := by
  by_contra ha
  simp [h.empty k a ha] at hc

theorem QueueInv.same_queue (h : QueueInv n que) (hc : c ∈ que k a) (hc' : c ∈ que k' b) :
    k' = k ∧ b = a := by
  have hba := (h.mem k' b c hc').2.1.symm.trans (h.mem k a c hc).2.1
  simp only [Option.some.injEq] at hba
  subst hba
  exact ⟨h.one_queue hc hc', rfl⟩

/-- A queue and its listening socket have no socket with other queues. -/
theorem QueueInv.same_root (h : QueueInv n que) (ha : n.listens a) (hb : n.listens b) {x : Fin N}
    (hxa : x ∈ a :: que k a) (hxb : x ∈ b :: que k b) : b = a := by
  rcases List.mem_cons.mp hxa with rfl | hxa
  · rcases List.mem_cons.mp hxb with hxb | hxb
    · exact hxb.symm
    · exact absurd rfl (h.listens_ne ha hxb)
  · rcases List.mem_cons.mp hxb with rfl | hxb
    · exact absurd rfl (h.listens_ne hb hxa)
    · exact (h.same_queue hxa hxb).2

section Unlink

variable (h : QueueInv n que) (hque : que k L = l₁ ++ c :: l₂)

include h hque

theorem QueueInv.split_nodup : c ∉ L :: (l₁ ++ l₂) ∧ (L :: (l₁ ++ l₂)).Nodup := by
  have hc : c ∈ que k L := by simp [hque]
  have hnd := h.cons_nodup (h.listens_of_mem hc) k
  rw [hque] at hnd
  have hnd' : (L :: (l₁ ++ c :: l₂)).Perm (c :: (L :: (l₁ ++ l₂))) :=
    (List.perm_middle.cons L).trans (List.Perm.swap c L _)
  exact List.nodup_cons.mp (hnd'.nodup_iff.mp hnd)

theorem QueueInv.prev_mem : l₁.getLastD L ∈ L :: que k L ∧ l₁.getLastD L ≠ c := by
  have hp : l₁.getLastD L ∈ L :: (l₁ ++ l₂) := by
    rcases List.mem_cons.mp (getLastD_mem L l₁) with hp | hp
    · rw [hp]
      exact List.mem_cons_self
    · exact List.mem_cons_of_mem L (List.mem_append_left l₂ hp)
  refine ⟨?_, ?_⟩
  · rw [hque]
    simp only [List.mem_cons, List.mem_append] at hp ⊢
    tauto
  · intro he
    exact (h.split_nodup hque).1 (he ▸ hp)

theorem QueueInv.mem_unlink {x : Fin N} :
    x ∈ setQue que k L (l₁ ++ l₂) k' b ↔ x ∈ que k' b ∧ x ≠ c := by
  have hc : c ∈ que k L := by simp [hque]
  by_cases hkb : k' = k ∧ b = L
  · obtain ⟨rfl, rfl⟩ := hkb
    have hcnot := (h.split_nodup hque).1
    rw [setQue_self, hque]
    simp only [List.mem_cons, List.mem_append, not_or] at hcnot ⊢
    constructor
    · rintro (hx | hx)
      · refine ⟨.inl hx, ?_⟩
        rintro rfl
        exact hcnot.2.1 hx
      · refine ⟨.inr (.inr hx), ?_⟩
        rintro rfl
        exact hcnot.2.2 hx
    · rintro ⟨hx | rfl | hx, hxc⟩
      · exact .inl hx
      · exact absurd rfl hxc
      · exact .inr hx
  · rw [setQue_of_ne hkb]
    refine ⟨fun hx => ⟨hx, ?_⟩, And.left⟩
    rintro rfl
    exact hkb (h.same_queue hc hx)

theorem QueueInv.unlinkQ_links (hb : n.listens b) :
    Links ((n.unlinkQ L (l₁.getLastD L) c k).links k') b (setQue que k L (l₁ ++ l₂) k' b) := by
  have hc : c ∈ que k L := by simp [hque]
  have hL := h.listens_of_mem hc
  obtain ⟨hp, hpc⟩ := h.prev_mem hque
  by_cases hkb : k' = k ∧ b = L
  · obtain ⟨rfl, rfl⟩ := hkb
    have hold := h.links k' b hb
    have hnd := h.cons_nodup hb k'
    rw [hque] at hold hnd
    rw [setQue_self]
    apply hold.unlink hnd
    · unfold Net.links
      rw [unlinkQ_link hpc]
      simp
    · intro x hx hxp
      have hxc : x ≠ c := by
        rintro rfl
        exact (h.split_nodup hque).1 hx
      unfold Net.links
      rw [unlinkQ_link hxc, if_neg fun hkp => hxp hkp.2]
  · rw [setQue_of_ne hkb]
    apply (h.links k' b hb).frame
    intro x hx
    have hxc : x ≠ c := by
      rintro rfl
      rcases List.mem_cons.mp hx with rfl | hx
      · exact h.listens_ne hb hc rfl
      · exact hkb (h.same_queue hc hx)
    unfold Net.links
    rw [unlinkQ_link hxc, if_neg]
    -- the socket before `c` hangs on `L`, not on `b`
    rintro ⟨rfl, rfl⟩
    exact hkb ⟨rfl, h.same_root hL hb hp hx⟩

theorem QueueInv.unlinkQ_len (hb : n.listens b) :
    ((n.unlinkQ L (l₁.getLastD L) c k).so b).len k' = (setQue que k L (l₁ ++ l₂) k' b).length := by
  have hc : c ∈ que k L := by simp [hque]
  rw [TnSock.unlinkQ_len (h.listens_ne hb hc)]
  by_cases hkb : k' = k ∧ b = L
  · obtain ⟨rfl, rfl⟩ := hkb
    rw [setQue_self, if_pos ⟨rfl, rfl⟩, h.len k' b hb, hque]
    simp only [List.length_append, List.length_cons]
    omega
  · rw [setQue_of_ne hkb, if_neg hkb]
    exact h.len k' b hb

/-- A socket leaves its queue. -/
theorem QueueInv.unlinkQ :
    QueueInv (n.unlinkQ L (l₁.getLastD L) c k) (setQue que k L (l₁ ++ l₂)) := by
  have hc : c ∈ que k L := by simp [hque]
  have hL := h.listens_of_mem hc
  have hcL := h.listens_ne hL hc
  have hrest := unlinkQ_rest n L (l₁.getLastD L) c k
  have hlis : ∀ {b}, (n.unlinkQ L (l₁.getLastD L) c k).listens b ↔ n.listens b := by
    intro b
    exact listens_of_rest rfl hrest
  refine ⟨?_, ?_, ?_, ?_, ?_, ?_, ?_, ?_⟩
  · intro k' b hb
    exact h.unlinkQ_links hque (hlis.mp hb)
  · intro k' b hb
    exact h.unlinkQ_len hque (hlis.mp hb)
  · intro b
    apply List.Nodup.sublist _ (h.nodup b)
    exact List.Sublist.append (setQue_sublist hque) (setQue_sublist hque)
  · intro k' b x hx
    obtain ⟨hx, hxc⟩ := (h.mem_unlink hque).mp hx
    obtain ⟨h1, h2, h3, h4⟩ := h.mem k' b x hx
    exact ⟨h1, (unlinkQ_soHead hxc).trans h2, (hrest x).nofdref.trans h3, (hrest x).acceptConn.trans h4⟩
  · intro x b hx hhead
    have hxc : x ≠ c := by
      rintro rfl
      rw [unlinkQ_self_soHead] at hhead
      cases hhead
    rw [unlinkQ_soHead hxc] at hhead
    obtain ⟨h1, k', h2⟩ := h.head x b hx hhead
    exact ⟨hlis.mpr h1, k', (h.mem_unlink hque).mpr ⟨h2, hxc⟩⟩
  · intro b hb
    rw [hlis] at hb
    rw [unlinkQ_soHead (h.listens_ne hb hc)]
    exact h.root b hb
  · intro b hb hacc k'
    rw [(hrest b).acceptConn] at hacc
    have hoff := h.off b hb hacc k'
    rcases eq_or_ne b c with rfl | hbc
    · rw [unlinkQ_self_len hcL]
      exact ⟨hoff.1, fun _ => unlinkQ_self_link⟩
    · have hbL : b ≠ L := by
        rintro rfl
        simp [hL.2] at hacc
      rw [TnSock.unlinkQ_len hbc, unlinkQ_soHead hbc, unlinkQ_link hbc, if_neg fun hkb => hbL hkb.2]
      refine ⟨hoff.1, fun hh => ?_⟩
      rw [if_neg]
      · exact hoff.2 hh
      · rintro ⟨-, rfl⟩
        rcases List.mem_cons.mp (h.prev_mem hque).1 with hp | hp
        · exact hbL hp
        · rw [(h.mem k L _ hp).2.1] at hh
          cases hh
  · intro k' b hb
    rw [hlis] at hb
    rw [setQue_of_ne]
    · exact h.empty k' b hb
    · rintro ⟨-, rfl⟩
      exact hb hL

end Unlink

theorem soqremque_run (hhead : (n.so c).soHead = some L) (hlinks : Links (n.links k) L (l₁ ++ c :: l₂))
    (hnd : (L :: (l₁ ++ c :: l₂)).Nodup)
    (hl : ∀ b ∈ L :: (l₁ ++ c :: l₂), n.mid1 b = some .socket) :
    soqremque c k n = .ok (true, n.unlinkQ L (l₁.getLastD L) c k) := by
  have hlive : n.mid1 c = some .socket := hl c (by simp)
  have hL : n.mid1 L = some .socket := hl L (by simp)
  have hlt := length_lt_card hnd
  rw [List.length_append, List.length_cons] at hlt
  have hfound : prevOf k c N L n = .ok (some (l₁.getLastD L), n) := by
    apply prevOf_found hlinks
    · intro b hb
      apply hl
      simp only [List.mem_cons, List.mem_append] at hb ⊢
      tauto
    · intro hc
      have hnd' := (List.nodup_append.mp (List.nodup_cons.mp hnd).2).2.2
      exact hnd' c hc c List.mem_cons_self rfl
    · omega
  have hprev : n.mid1 (l₁.getLastD L) = some .socket := by
    apply hl
    rcases List.mem_cons.mp (getLastD_mem L l₁) with hp | hp
    · rw [hp]
      exact List.mem_cons_self
    · exact List.mem_cons_of_mem L (List.mem_append_left _ hp)
  unfold soqremque
  simp only [bind_readSo, hlive, hhead, bind_deref, run_bind hfound, bind_writeSo, setSo_mid1, hprev, hL]
  rfl

theorem soqremque_ok (h : QueueInv n que) (hque : que k L = l₁ ++ c :: l₂) :
    soqremque c k n = .ok (true, n.unlinkQ L (l₁.getLastD L) c k) := by
  have hc : c ∈ que k L := by simp [hque]
  have hL := h.listens_of_mem hc
  have hlinks := h.links k L hL
  have hnd := h.cons_nodup hL k
  have hl := h.alive hL k
  rw [hque] at hlinks hnd hl
  exact soqremque_run (h.mem k L c hc).2.1 hlinks hnd hl

theorem soqremque_miss (h : QueueInv n que) (hlive : n.mid1 c = some .socket)
    (hhead : (n.so c).soHead = some L) (hc : c ∉ que k L) : soqremque c k n = .ok (false, n) := by
  obtain ⟨hL, -⟩ := h.head c L hlive hhead
  have hmiss := prevOf_miss (h.links k L hL) (h.alive hL k) hc (h.length_lt hL k)
  unfold soqremque
  rw [run_bind (readSo_ok hlive), hhead, run_bind (deref_some L n), run_bind hmiss]
  rfl

/-! ## Insertion -/

/-- The stores of `soqinsque` before its walk. -/
def Net.openQ (n : Net N M) (head so : Fin N) (k : SoQ) : Net N M :=
  ((n.setSo so fun s => { s with soHead := some head }).setSo head fun s => s.addLen 1 k).setSo so
    fun s => s.setLink none k

/-- All stores of `soqinsque`. -/
def Net.insertQ (n : Net N M) (head last so : Fin N) (k : SoQ) : Net N M :=
  (n.openQ head so k).setSo last fun s => s.setLink (some so) k

theorem mem_setQue_snoc {x : Fin N} :
    x ∈ setQue que k L (que k L ++ [c]) k' b ↔ x ∈ que k' b ∨ x = c ∧ k' = k ∧ b = L := by
  by_cases hkb : k' = k ∧ b = L
  · obtain ⟨rfl, rfl⟩ := hkb
    simp
  · rw [setQue_of_ne hkb]
    simp [hkb]

theorem insertQ_rest (n : Net N M) (L last c : Fin N) (k : SoQ) (b : Fin N) :
    SameRest (n.so b) ((n.insertQ L last c k).so b) := by
  unfold Net.insertQ Net.openQ
  refine (((setSo_rest ?_ b).trans (setSo_rest ?_ b)).trans (setSo_rest ?_ b)).trans (setSo_rest ?_ b)
  · intro s
    exact ⟨rfl, rfl, rfl, rfl, rfl⟩
  · intro s
    exact SameRest.addLen s 1 k
  · intro s
    exact SameRest.setLink s _ k
  · intro s
    exact SameRest.setLink s _ k

section Insert

variable {last : Fin N}

theorem openQ_link (hb : b ≠ c) : ((n.openQ L c k).so b).link k' = (n.so b).link k' := by
  unfold Net.openQ
  rw [setSo_so_of_ne _ hb, setSo_proj (fun s => s.link k') fun s => link_addLen s 1, setSo_so_of_ne _ hb]

theorem insertQ_link (hb : b ≠ c) : ((n.insertQ L last c k).so b).link k' =
    if k' = k ∧ b = last then some c else (n.so b).link k' := by
  unfold Net.insertQ
  rcases eq_or_ne b last with rfl | hl
  · rw [setSo_so_self, link_setLink, openQ_link hb]
    simp
  · rw [setSo_so_of_ne _ hl, openQ_link hb]
    simp [hl]

theorem insertQ_self_link (hl : last ≠ c) (hL : L ≠ c) : ((n.insertQ L last c k).so c).link k' =
    if k' = k then none else (n.so c).link k' := by
  unfold Net.insertQ Net.openQ
  rw [setSo_so_of_ne _ hl.symm, setSo_so_self, link_setLink, setSo_so_of_ne _ hL.symm, setSo_so_self]
  cases k' <;> rfl

theorem insertQ_len : ((n.insertQ L last c k).so b).len k' =
    if k' = k ∧ b = L then (n.so b).len k' + 1 else (n.so b).len k' := by
  have hhead : ∀ s : SocketTcp N M, ({ s with soHead := some L } : SocketTcp N M).len k' = s.len k' := by
    intro s
    cases k' <;> rfl
  unfold Net.insertQ Net.openQ
  rw [setSo_proj (fun s => s.len k') fun s => len_setLink s _,
    setSo_proj (fun s => s.len k') fun s => len_setLink s _]
  rcases eq_or_ne b L with rfl | hL
  · rw [setSo_so_self, len_addLen, setSo_proj (fun s => s.len k') hhead]
    simp
  · rw [setSo_so_of_ne _ hL, setSo_proj (fun s => s.len k') hhead]
    simp [hL]

theorem insertQ_soHead : ((n.insertQ L last c k).so b).soHead =
    if b = c then some L else (n.so b).soHead := by
  unfold Net.insertQ Net.openQ
  rw [setSo_proj _ fun s => soHead_setLink s _, setSo_proj _ fun s => soHead_setLink s _,
    setSo_proj _ fun s => soHead_addLen s 1]
  rcases eq_or_ne b c with rfl | hb
  · rw [setSo_so_self]
    simp
  · rw [setSo_so_of_ne _ hb]
    simp [hb]

variable (h : QueueInv n que) (hL : n.listens L) (hc : n.OffQueue c)

include h hL hc

theorem QueueInv.last_ne : (que k L).getLastD L ≠ c := by
  intro he
  have hm := getLastD_mem L (que k L)
  rw [he] at hm
  rcases List.mem_cons.mp hm with hm | hm
  · have hacc := hc.acceptConn
    rw [hm, hL.2] at hacc
    cases hacc
  · exact h.off_not_mem hc hm

omit h in
theorem OffQueue.ne_listens : L ≠ c := by
  rintro rfl
  have hacc := hc.acceptConn
  rw [hL.2] at hacc
  cases hacc

theorem QueueInv.insertQ_links (hb : n.listens b) :
    Links ((n.insertQ L ((que k L).getLastD L) c k).links k') b
      (setQue que k L (que k L ++ [c]) k' b) := by
  have hlast := h.last_ne hL hc (k := k)
  have hLc := OffQueue.ne_listens hL hc
  have hne : ∀ x ∈ b :: que k' b, x ≠ c := by
    intro x hx
    rcases List.mem_cons.mp hx with rfl | hx
    · exact OffQueue.ne_listens hb hc
    · rintro rfl
      exact h.off_not_mem hc hx
  by_cases hkb : k' = k ∧ b = L
  · obtain ⟨rfl, rfl⟩ := hkb
    rw [setQue_self]
    apply (h.links k' b hb).snoc (h.cons_nodup hb k')
    · unfold Net.links
      rw [insertQ_self_link hlast hLc, if_pos rfl]
    · unfold Net.links
      rw [insertQ_link hlast, if_pos ⟨rfl, rfl⟩]
    · intro x hx hxl
      unfold Net.links
      rw [insertQ_link (hne x hx), if_neg fun hkl => hxl hkl.2]
  · rw [setQue_of_ne hkb]
    apply (h.links k' b hb).frame
    intro x hx
    unfold Net.links
    rw [insertQ_link (hne x hx), if_neg]
    rintro ⟨rfl, rfl⟩
    exact hkb ⟨rfl, h.same_root hL hb (getLastD_mem L _) hx⟩

omit hL in
theorem QueueInv.insertQ_nodup (b : Fin N) :
    (setQue que k L (que k L ++ [c]) .soQ0 b ++ setQue que k L (que k L ++ [c]) .soQ b).Nodup := by
  have hnot : ∀ k', c ∉ que k' L := fun k' => h.off_not_mem hc
  have hnd := h.nodup b
  rcases eq_or_ne b L with rfl | hb
  · cases k with
    | soQ0 =>
      rw [setQue_self, setQue_of_ne (by simp), List.append_assoc]
      simp only [List.singleton_append]
      rw [List.perm_middle.nodup_iff, List.nodup_cons]
      refine ⟨?_, hnd⟩
      rw [List.mem_append, not_or]
      exact ⟨hnot _, hnot _⟩
    | soQ =>
      rw [setQue_self, setQue_of_ne (by simp), ← List.append_assoc]
      rw [List.nodup_append_comm]
      simp only [List.singleton_append, List.nodup_cons, List.mem_append, not_or]
      exact ⟨⟨hnot _, hnot _⟩, hnd⟩
  · rw [setQue_of_ne fun hk => hb hk.2, setQue_of_ne fun hk => hb hk.2]
    exact hnd

/-- A socket joins a queue at its end. -/
theorem QueueInv.insertQ (hfd : (n.so c).nofdref = true) :
    QueueInv (n.insertQ L ((que k L).getLastD L) c k) (setQue que k L (que k L ++ [c])) := by
  have hLc := OffQueue.ne_listens hL hc
  have hrest := insertQ_rest n L ((que k L).getLastD L) c k
  have hlis : ∀ {b}, (n.insertQ L ((que k L).getLastD L) c k).listens b ↔ n.listens b := by
    intro b
    exact listens_of_rest rfl hrest
  refine ⟨?_, ?_, h.insertQ_nodup hc, ?_, ?_, ?_, ?_, ?_⟩
  · intro k' b hb
    exact h.insertQ_links hL hc (hlis.mp hb)
  · intro k' b hb
    rw [insertQ_len, h.len k' b (hlis.mp hb)]
    by_cases hkb : k' = k ∧ b = L
    · obtain ⟨rfl, rfl⟩ := hkb
      simp
    · rw [setQue_of_ne hkb, if_neg hkb]
  · intro k' b x hx
    rw [insertQ_soHead, (hrest x).nofdref, (hrest x).acceptConn]
    rcases mem_setQue_snoc.mp hx with hold | ⟨rfl, -, rfl⟩
    · have hxc : x ≠ c := by
        rintro rfl
        exact h.off_not_mem hc hold
      rw [if_neg hxc]
      exact h.mem k' b x hold
    · rw [if_pos rfl]
      exact ⟨hc.alive, rfl, hfd, hc.acceptConn⟩
  · intro x b hx hhead
    rw [insertQ_soHead] at hhead
    rcases eq_or_ne x c with rfl | hxc
    · rw [if_pos rfl, Option.some.injEq] at hhead
      subst hhead
      exact ⟨hlis.mpr hL, k, mem_setQue_snoc.mpr (.inr ⟨rfl, rfl, rfl⟩)⟩
    · rw [if_neg hxc] at hhead
      obtain ⟨h1, k', h2⟩ := h.head x b hx hhead
      exact ⟨hlis.mpr h1, k', mem_setQue_snoc.mpr (.inl h2)⟩
  · intro b hb
    rw [hlis] at hb
    rw [insertQ_soHead, if_neg (OffQueue.ne_listens hb hc)]
    exact h.root b hb
  · intro b hb hacc k'
    rw [(hrest b).acceptConn] at hacc
    have hoff := h.off b hb hacc k'
    have hbL : b ≠ L := by
      rintro rfl
      simp [hL.2] at hacc
    rw [insertQ_len, if_neg fun hkb => hbL hkb.2, insertQ_soHead]
    refine ⟨hoff.1, fun hh => ?_⟩
    rcases eq_or_ne b c with rfl | hbc
    · simp at hh
    · rw [if_neg hbc] at hh
      rw [insertQ_link hbc, if_neg]
      · exact hoff.2 hh
      · rintro ⟨-, rfl⟩
        rcases List.mem_cons.mp (getLastD_mem L (que k L)) with hp | hp
        · exact hbL hp
        · rw [(h.mem k L _ hp).2.1] at hh
          cases hh
  · intro k' b hb
    rw [hlis] at hb
    rw [setQue_of_ne]
    · exact h.empty k' b hb
    · rintro ⟨-, rfl⟩
      exact hb hL

theorem soqinsque_ok : soqinsque L c k n = .ok ((), n.insertQ L ((que k L).getLastD L) c k) := by
  have hLc := OffQueue.ne_listens hL hc
  have hwalk : lastOf k N L (n.openQ L c k) = .ok ((que k L).getLastD L, n.openQ L c k) := by
    apply lastOf_ok _ _ (h.length_lt hL k)
    · apply (h.links k L hL).frame
      intro x hx
      apply openQ_link
      rcases List.mem_cons.mp hx with rfl | hx
      · exact hLc
      · rintro rfl
        exact h.off_not_mem hc hx
    · exact h.alive hL k
  have hlast := h.alive hL k _ (getLastD_mem L (que k L))
  unfold soqinsque
  simp only [bind_writeSo, setSo_mid1, hc.alive, hL.1]
  rw [← Net.openQ, run_bind hwalk]
  apply writeSo_ok
  exact hlast

end Insert

end TnSock
