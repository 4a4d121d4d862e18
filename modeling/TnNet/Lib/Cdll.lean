import Mathlib.Data.List.Nodup
import Mathlib.Logic.Function.Basic

/-!
# Circular doubly linked lists

Nodes carry two links.  `IsRing L h l` says that the nodes of `l`, in this order, are the ring that
starts at the head `h`.

* `IsRing.addTail`, `IsRing.removeEntry` — the two ways to change a ring, as writes to the links; a
  node that is taken out keeps its own links.
* `IsRing.congr` — a ring depends on the links of its nodes only.
* `walk_eq_foldl` — the loop that visits the nodes of a ring with a test for the head behind the body
  visits every node of the ring once and in order, also when the body takes out the node it is at.
-/

set_option autoImplicit false

namespace Cdll

variable {ν : Type}

/-- The links of all nodes. -/
structure Links (ν : Type) where
  next : ν → ν
  prev : ν → ν

/-- From `a` over the nodes of a list to `b`. -/
def Path (L : Links ν) (a : ν) : List ν → ν → Prop
  | [], b => L.next a = b ∧ L.prev b = a
  | x :: l, b => (L.next a = x ∧ L.prev x = a) ∧ Path L x l b

/-- The ring that starts at `h`. -/
def IsRing (L : Links ν) (h : ν) (l : List ν) : Prop := (h :: l).Nodup ∧ Path L h l h

variable {L L' : Links ν} {a b e h x : ν} {l l₁ l₂ : List ν}

theorem Path.congr (hp : Path L a l b) (hn : ∀ x ∈ a :: l, L'.next x = L.next x)
    (hv : ∀ x ∈ l ++ [b], L'.prev x = L.prev x) : Path L' a l b := by
  induction l generalizing a with
  | nil => exact ⟨(hn a (by simp)).trans hp.1, (hv b (by simp)).trans hp.2⟩
  | cons x l ih =>
    refine ⟨⟨(hn a (by simp)).trans hp.1.1, (hv x (by simp)).trans hp.1.2⟩, ih hp.2 ?_ ?_⟩
    · exact fun y hy => hn y (List.mem_cons_of_mem a hy)
    · exact fun y hy => hv y (by simpa using Or.inr (by simpa using hy))

theorem path_append : Path L a (l₁ ++ x :: l₂) b ↔ Path L a l₁ x ∧ Path L x l₂ b := by
  induction l₁ generalizing a with
  | nil => exact Iff.rfl
  | cons y l ih =>
    show _ ∧ Path L y (l ++ x :: l₂) b ↔ _
    rw [ih]
    exact and_assoc.symm

/-- The last node in front of the end. -/
theorem Path.prev_mem (hp : Path L a l b) : L.prev b ∈ a :: l := by
  induction l generalizing a with
  | nil =>
    rw [hp.2]
    exact List.mem_cons_self
  | cons x l ih => exact List.mem_cons_of_mem a (ih hp.2)

/-- The first node behind the start. -/
theorem Path.next_mem (hp : Path L a l b) : L.next a ∈ l ++ [b] := by
  cases l with
  | nil => simp [hp.1]
  | cons x l => simp [hp.1.1]

theorem IsRing.congr (hr : IsRing L h l) (hn : ∀ x ∈ h :: l, L'.next x = L.next x)
    (hv : ∀ x ∈ h :: l, L'.prev x = L.prev x) : IsRing L' h l := by
  refine ⟨hr.1, hr.2.congr hn fun x hx => hv x ?_⟩
  rcases List.mem_append.mp hx with hx | hx
  · exact List.mem_cons_of_mem h hx
  · rw [List.mem_singleton.mp hx]
    exact List.mem_cons_self

/-- A node of a ring is not linked to itself. -/
theorem IsRing.next_ne (hr : IsRing L h l) (hx : x ∈ l) : L.next x ≠ x := by
  obtain ⟨l₁, l₂, rfl⟩ := List.append_of_mem hx
  have hnd := List.nodup_cons.mp hr.1
  have hnext := (path_append.mp hr.2).2.next_mem
  intro hc
  rw [hc] at hnext
  rcases List.mem_append.mp hnext with hm | hm
  · exact (List.nodup_cons.mp (List.nodup_append.mp hnd.2).2.1).1 hm
  · rw [List.mem_singleton.mp hm] at hnd
    exact hnd.1 (by simp)

theorem Path.unique (hp : Path L a l b) (hp' : Path L a l₁ b) (hl : b ∉ l) (hl' : b ∉ l₁) :
    l = l₁ := by
  induction l generalizing a l₁ with
  | nil =>
    cases l₁ with
    | nil => rfl
    | cons x l =>
      have hxb : b = x := hp.1.symm.trans hp'.1.1
      exact absurd (by simp [hxb]) hl'
  | cons x l ih =>
    cases l₁ with
    | nil =>
      have hxb : b = x := hp'.1.symm.trans hp.1.1
      exact absurd (by simp [hxb]) hl
    | cons y l' =>
      have hxy : x = y := hp.1.1.symm.trans hp'.1.1
      subst hxy
      rw [ih hp.2 hp'.2 (fun hc => hl (List.mem_cons_of_mem x hc))
        fun hc => hl' (List.mem_cons_of_mem x hc)]

/-- The links determine the ring. -/
theorem IsRing.unique (hr : IsRing L h l) (hr' : IsRing L h l₁) : l = l₁ :=
  hr.2.unique hr'.2 (List.nodup_cons.mp hr.1).1 (List.nodup_cons.mp hr'.1).1

/-! ## Writes -/

variable [DecidableEq ν]

/-- Write the link to the next node. -/
def Links.setNext (L : Links ν) (a b : ν) : Links ν := { L with next := Function.update L.next a b }

/-- Write the link to the previous node. -/
def Links.setPrev (L : Links ν) (a b : ν) : Links ν := { L with prev := Function.update L.prev a b }

/-- The node is alone. -/
def Links.reset (L : Links ν) (a : ν) : Links ν := (L.setNext a a).setPrev a a

/-- The node goes in front of the head. -/
def Links.addTail (L : Links ν) (h e : ν) : Links ν :=
  let L := L.setNext e h
  let L := L.setPrev e (L.prev h)
  let L := L.setNext (L.prev e) e
  L.setPrev h e

/-- The neighbours of the node are linked. -/
def Links.removeEntry (L : Links ν) (e : ν) : Links ν :=
  let L := L.setNext (L.prev e) (L.next e)
  L.setPrev (L.next e) (L.prev e)

theorem isRing_reset (L : Links ν) (h : ν) : IsRing (L.reset h) h [] := by
  refine ⟨List.nodup_singleton h, ?_⟩
  simp [Path, Links.reset, Links.setNext, Links.setPrev]

/-! ## A new node -/

theorem addTail_next_entry (he : e ≠ L.prev h) : (L.addTail h e).next e = h := by
  simp [Links.addTail, Links.setNext, Links.setPrev, Function.update_of_ne he]

theorem addTail_next_last : (L.addTail h e).next (L.prev h) = e := by
  simp [Links.addTail, Links.setNext, Links.setPrev]

theorem addTail_next_of_ne (hx : x ≠ e) (hl : x ≠ L.prev h) : (L.addTail h e).next x = L.next x := by
  simp [Links.addTail, Links.setNext, Links.setPrev, Function.update_of_ne hx,
    Function.update_of_ne hl]

theorem addTail_prev_head : (L.addTail h e).prev h = e := by
  simp [Links.addTail, Links.setNext, Links.setPrev]

theorem addTail_prev_entry (he : e ≠ h) : (L.addTail h e).prev e = L.prev h := by
  simp [Links.addTail, Links.setNext, Links.setPrev, Function.update_of_ne he]

theorem addTail_prev_of_ne (hx : x ≠ e) (hh : x ≠ h) : (L.addTail h e).prev x = L.prev x := by
  simp [Links.addTail, Links.setNext, Links.setPrev, Function.update_of_ne hx,
    Function.update_of_ne hh]

/-- The path up to the head, when the new node is in front of it. -/
theorem Path.addTail (hp : Path L a l h) (hnd : (a :: l).Nodup) (hl : h ∉ l) (he : e ∉ a :: l)
    (heh : e ≠ h) : Path (L.addTail h e) a (l ++ [e]) h := by
  induction l generalizing a with
  | nil =>
    obtain ⟨-, h2⟩ := hp
    have hea : e ≠ L.prev h := by
      rw [h2]
      exact fun hc => he (by simp [hc])
    refine ⟨⟨?_, ?_⟩, addTail_next_entry hea, addTail_prev_head⟩
    · rw [← h2]
      exact addTail_next_last
    · rw [addTail_prev_entry heh, h2]
  | cons x l ih =>
    obtain ⟨⟨h1, h2⟩, h3⟩ := hp
    rw [List.mem_cons, not_or] at he hl
    have hlast := h3.prev_mem
    have hal : a ≠ L.prev h := by
      intro hc
      rw [← hc] at hlast
      exact (List.nodup_cons.mp hnd).1 hlast
    refine ⟨⟨?_, ?_⟩, ih h3 (List.nodup_cons.mp hnd).2 hl.2 he.2⟩
    · rw [addTail_next_of_ne (Ne.symm he.1) hal]
      exact h1
    · rw [addTail_prev_of_ne (fun hc => he.2 (by simp [hc])) (Ne.symm hl.1)]
      exact h2

/-- **A node is added.** -/
theorem IsRing.addTail (hr : IsRing L h l) (he : e ∉ h :: l) : IsRing (L.addTail h e) h (l ++ [e]) := by
  have hh := List.nodup_cons.mp hr.1
  have heh : e ≠ h := fun hc => he (by simp [hc])
  refine ⟨?_, hr.2.addTail hr.1 hh.1 he heh⟩
  have hnd : (h :: l ++ [e]).Nodup := by
    refine List.nodup_append.mpr ⟨hr.1, List.nodup_singleton e, ?_⟩
    intro y hy z hz hyz
    rw [List.mem_singleton.mp hz] at hyz
    exact he (hyz ▸ hy)
  exact hnd

/-! ## A node less -/

theorem removeEntry_next_of_ne (hx : x ≠ L.prev e) : (L.removeEntry e).next x = L.next x := by
  simp [Links.removeEntry, Links.setNext, Links.setPrev, Function.update_of_ne hx]

/-- The write to the link of the previous node comes first. -/
theorem removeEntry_next_prev : (L.removeEntry e).next (L.prev e) = L.next e := by
  simp [Links.removeEntry, Links.setNext, Links.setPrev]

theorem removeEntry_prev_next (he : e ≠ L.prev e) : (L.removeEntry e).prev (L.next e) = L.prev e := by
  simp [Links.removeEntry, Links.setNext, Links.setPrev, Function.update_of_ne he]

theorem removeEntry_prev_of_ne (he : e ≠ L.prev e) (hx : x ≠ L.next e) :
    (L.removeEntry e).prev x = L.prev x := by
  simp [Links.removeEntry, Links.setNext, Links.setPrev, Function.update_of_ne he,
    Function.update_of_ne hx]

theorem Path.removeEntry (h1 : Path L a l₁ e) (h2 : Path L e l₂ b) (hnd : (a :: l₁ ++ l₂).Nodup)
    (hb : b ∉ l₁ ++ l₂) (he : e ∉ a :: l₁) : Path (L.removeEntry e) a (l₁ ++ l₂) b := by
  have hprev := h1.prev_mem
  have hep : e ≠ L.prev e := by
    intro hc
    rw [← hc] at hprev
    exact he hprev
  induction l₁ generalizing a with
  | nil =>
    obtain ⟨-, hpa⟩ := h1
    rw [List.nil_append] at hb ⊢
    have hnd' : a ∉ l₂ ∧ l₂.Nodup := List.nodup_cons.mp hnd
    cases l₂ with
    | nil =>
      obtain ⟨h3, -⟩ := h2
      refine ⟨?_, ?_⟩
      · rw [← hpa, removeEntry_next_prev, h3]
      · rw [← h3, removeEntry_prev_next hep, hpa]
    | cons n l =>
      obtain ⟨⟨h3, -⟩, h4⟩ := h2
      refine ⟨⟨?_, ?_⟩, h4.congr ?_ ?_⟩
      · rw [← hpa, removeEntry_next_prev, h3]
      · rw [← h3, removeEntry_prev_next hep, hpa]
      · intro x hx
        refine removeEntry_next_of_ne ?_
        rintro rfl
        exact hnd'.1 (hpa ▸ hx)
      · intro x hx
        refine removeEntry_prev_of_ne hep ?_
        rintro rfl
        rw [h3] at hx
        rcases List.mem_append.mp hx with hx | hx
        · exact (List.nodup_cons.mp hnd'.2).1 hx
        · rw [List.mem_singleton.mp hx] at hb
          exact hb List.mem_cons_self
  | cons y l ih =>
    obtain ⟨⟨h3, h4⟩, h5⟩ := h1
    rw [List.mem_cons, not_or] at he
    have hlast := h5.prev_mem
    have hnext := h2.next_mem
    have hnd' := List.nodup_cons.mp hnd
    refine ⟨⟨?_, ?_⟩, ih h5 hnd'.2 (fun hc => hb (List.mem_cons_of_mem y hc)) he.2 hlast⟩
    · rw [removeEntry_next_of_ne]
      · exact h3
      · intro hc
        rw [← hc] at hlast
        exact hnd'.1 (List.mem_append_left l₂ hlast)
    · rw [removeEntry_prev_of_ne hep]
      · exact h4
      · intro hc
        rw [← hc] at hnext
        rcases List.mem_append.mp hnext with hy | hy
        · exact (List.nodup_cons.mp hnd'.2).1 (List.mem_append_right l hy)
        · rw [List.mem_singleton.mp hy] at hb
          exact hb List.mem_cons_self

/-- **A node is taken out**, and its own links stay. -/
theorem IsRing.removeEntry (hr : IsRing L h l) (he : e ∈ l) :
    IsRing (L.removeEntry e) h (l.erase e) ∧ (L.removeEntry e).next e = L.next e := by
  obtain ⟨l₁, l₂, rfl⟩ := List.append_of_mem he
  have hnd := List.nodup_cons.mp hr.1
  obtain ⟨h1, h2, h3⟩ := List.nodup_append.mp hnd.2
  have he1 : e ∉ l₁ := fun hc => h3 e hc e List.mem_cons_self rfl
  have herase : (l₁ ++ e :: l₂).erase e = l₁ ++ l₂ := by
    rw [List.erase_append_right _ he1, List.erase_cons_head]
  obtain ⟨hp1, hp2⟩ := path_append.mp hr.2
  have hsub : (h :: l₁ ++ l₂).Sublist (h :: (l₁ ++ e :: l₂)) := by
    rw [List.cons_append]
    exact (List.Sublist.append_left (List.sublist_cons_self e l₂) l₁).cons_cons h
  have hhl : h ∉ l₁ ++ l₂ := by
    intro hc
    rcases List.mem_append.mp hc with hc | hc
    · exact hnd.1 (List.mem_append_left _ hc)
    · exact hnd.1 (List.mem_append_right _ (List.mem_cons_of_mem e hc))
  have heh : e ∉ h :: l₁ := by
    rw [List.mem_cons, not_or]
    refine ⟨?_, he1⟩
    rintro rfl
    exact hnd.1 (List.mem_append_right _ List.mem_cons_self)
  rw [herase]
  refine ⟨⟨hsub.nodup hr.1, hp1.removeEntry hp2 (hsub.nodup hr.1) hhl heh⟩, ?_⟩
  refine removeEntry_next_of_ne ?_
  intro hc
  have hprev := hp1.prev_mem
  rw [← hc] at hprev
  exact heh hprev

/-! ## The loop over a ring -/

section Walk

variable {σ : Type}

/-- The loop: the body, then the test for the head. -/
def walk (lk : σ → Links ν) (body : ν → σ → σ) (h : ν) : Nat → ν → σ → σ
  | 0, _, s => s
  | n + 1, c, s =>
    let s := body c s
    if (lk s).next c = h then s else walk lk body h n ((lk s).next c) s

/-- **The loop visits the ring.**  `inv` is kept by the body, which leaves the ring as it is or takes
    out the node it is at. -/
theorem walk_eq_foldl (lk : σ → Links ν) (body : ν → σ → σ) {h : ν} (inv : σ → Prop)
    (hbody : ∀ c s l, inv s → IsRing (lk s) h l → c ∈ l → inv (body c s) ∧
      (lk (body c s)).next c = (lk s).next c ∧
      (IsRing (lk (body c s)) h l ∨ IsRing (lk (body c s)) h (l.erase c)))
    {rest : List ν} {c : ν} {pre : List ν} {s : σ} {n : Nat} (hs : inv s)
    (hr : IsRing (lk s) h (pre ++ c :: rest)) (hn : rest.length < n) :
    walk lk body h n c s = (c :: rest).foldl (fun s c => body c s) s ∧
      inv (walk lk body h n c s) ∧ ∃ l, IsRing (lk (walk lk body h n c s)) h l := by
  induction rest generalizing c pre s n with
  | nil =>
    obtain ⟨m, rfl⟩ := Nat.exists_eq_succ_of_ne_zero (Nat.pos_iff_ne_zero.mp hn)
    obtain ⟨h1, h2, h3⟩ := hbody c s _ hs hr (by simp)
    have hnext : (lk s).next c = h := (path_append.mp hr.2).2.1
    have hw : walk lk body h (m + 1) c s = body c s := by
      unfold walk
      dsimp only
      rw [if_pos (h2.trans hnext)]
    rw [hw]
    refine ⟨rfl, h1, ?_⟩
    rcases h3 with h3 | h3
    · exact ⟨_, h3⟩
    · exact ⟨_, h3⟩
  | cons d rest ih =>
    obtain ⟨m, rfl⟩ := Nat.exists_eq_succ_of_ne_zero (Nat.ne_of_gt (Nat.zero_lt_of_lt hn))
    obtain ⟨h1, h2, h3⟩ := hbody c s _ hs hr (by simp)
    have hnext : (lk s).next c = d := (path_append.mp hr.2).2.1.1
    have hnd := List.nodup_cons.mp hr.1
    have hdh : d ≠ h := by
      rintro rfl
      exact hnd.1 (by simp)
    have hw : walk lk body h (m + 1) c s = walk lk body h m d (body c s) := by
      conv_lhs => unfold walk
      dsimp only
      rw [h2, hnext, if_neg hdh]
    have hlen : rest.length < m := by
      have : (d :: rest).length < m + 1 := hn
      simpa using this
    rw [hw, List.foldl_cons]
    rcases h3 with h3 | h3
    · have heq : pre ++ c :: d :: rest = (pre ++ [c]) ++ d :: rest := by simp
      rw [heq] at h3
      exact ih h1 h3 hlen
    · have hc : c ∉ pre := by
        intro hc
        exact (List.nodup_append.mp hnd.2).2.2 c hc c List.mem_cons_self rfl
      rw [List.erase_append_right _ hc, List.erase_cons_head] at h3
      exact ih h1 h3 hlen

end Walk

end Cdll
