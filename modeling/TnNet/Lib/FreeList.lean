import Mathlib.Data.Set.Insert
import Mathlib.Data.List.Nodup
import Mathlib.Data.List.Range

/-!
# Free lists

Blocks belong to pools, and each pool keeps its free blocks in a list.  `Exact` says that the free lists
hold, each once, the blocks that are not in a given set, the blocks in use.

* `Exact.take` — the head of a free list goes into use.
* `Exact.give` — a block in use goes back to the front of the free list of its pool.

`Threaded` is the free list in memory: a pointer to the first block, and in each block the pointer to the
next one.

* `Threaded.pop`, `Threaded.push` — a block leaves and joins at the front.
* `Threaded.frame` — memory outside of the blocks may change.
* `threaded_thread` — the loop that links the blocks of a new pool.
-/

set_option autoImplicit false

namespace FreeList

variable {κ β : Type} [DecidableEq κ]

/-- The free lists hold exactly the blocks that are not in use. -/
structure Exact (pool : β → κ) (valid : β → Prop) (free : κ → List β) (used : Set β) : Prop where
  nodup : ∀ q, (free q).Nodup
  mem_iff : ∀ q x, x ∈ free q ↔ pool x = q ∧ valid x ∧ x ∉ used
  isBlock : ∀ x ∈ used, valid x

variable {pool : β → κ} {valid : β → Prop} {free : κ → List β} {used : Set β}

theorem Exact.take (h : Exact pool valid free used) {q : κ} {b : β} {l : List β} (hq : free q = b :: l) :
    pool b = q ∧ b ∉ used ∧ Exact pool valid (Function.update free q l) (insert b used) := by
  have hb : b ∈ free q := by simp [hq]
  obtain ⟨h1, h2, h3⟩ := (h.mem_iff q b).mp hb
  have hnd := h.nodup q
  rw [hq, List.nodup_cons] at hnd
  refine ⟨h1, h3, ⟨?_, ?_, ?_⟩⟩
  · intro r
    rcases eq_or_ne r q with rfl | hr
    · rw [Function.update_self]
      exact hnd.2
    · rw [Function.update_of_ne hr]
      exact h.nodup r
  · intro r x
    have hx := h.mem_iff r x
    rcases eq_or_ne r q with rfl | hr
    · rw [hq, List.mem_cons] at hx
      rw [Function.update_self, Set.mem_insert_iff, not_or]
      constructor
      · intro hl
        have hne : x ≠ b := by
          rintro rfl
          exact hnd.1 hl
        obtain ⟨h4, h5, h6⟩ := hx.mp (.inr hl)
        exact ⟨h4, h5, hne, h6⟩
      · rintro ⟨h4, h5, h6, h7⟩
        exact (hx.mpr ⟨h4, h5, h7⟩).resolve_left h6
    · rw [Function.update_of_ne hr, hx, Set.mem_insert_iff, not_or]
      constructor
      · rintro ⟨h4, h5, h6⟩
        refine ⟨h4, h5, ?_, h6⟩
        rintro rfl
        exact hr (h4.symm.trans h1)
      · rintro ⟨h4, h5, -, h6⟩
        exact ⟨h4, h5, h6⟩
  · rintro x (rfl | hx)
    · exact h2
    · exact h.isBlock x hx

theorem Exact.give (h : Exact pool valid free used) {b : β} (hb : b ∈ used) {used' : Set β}
    (hused : ∀ x, x ∈ used' ↔ x ∈ used ∧ x ≠ b) :
    Exact pool valid (Function.update free (pool b) (b :: free (pool b))) used' := by
  have hnot : b ∉ free (pool b) := fun hf => ((h.mem_iff _ b).mp hf).2.2 hb
  refine ⟨?_, ?_, ?_⟩
  · intro r
    rcases eq_or_ne r (pool b) with rfl | hr
    · rw [Function.update_self]
      exact List.nodup_cons.mpr ⟨hnot, h.nodup _⟩
    · rw [Function.update_of_ne hr]
      exact h.nodup r
  · intro r x
    rw [hused]
    rcases eq_or_ne r (pool b) with rfl | hr
    · rw [Function.update_self, List.mem_cons, h.mem_iff]
      rcases eq_or_ne x b with rfl | hx
      · simp [h.isBlock x hb]
      · simp [hx]
    · rw [Function.update_of_ne hr, h.mem_iff]
      rcases eq_or_ne x b with rfl | hx
      · simp [hr.symm]
      · simp [hx]
  · intro x hx
    exact h.isBlock x ((hused x).mp hx).1

/-! ## Free lists in memory -/

section Threaded

variable {next next' : β → β} {null p b : β} {l : List β}

/-- The blocks a pointer leads to, up to the null pointer. -/
def Threaded (next : β → β) (null : β) : β → List β → Prop
  | p, [] => p = null
  | p, b :: l => p = b ∧ Threaded next null (next b) l

/-- The first blocks a pointer leads to. -/
def chain (next : β → β) : β → Nat → List β
  | _, 0 => []
  | p, n + 1 => p :: chain next (next p) n

theorem Threaded.chain_eq (h : Threaded next null p l) : chain next p l.length = l := by
  induction l generalizing p with
  | nil => rfl
  | cons b l ih =>
    obtain ⟨rfl, h⟩ := h
    simp [chain, ih h]

theorem Threaded.frame (h : Threaded next null p l) (hn : ∀ b ∈ l, next' b = next b) :
    Threaded next' null p l := by
  induction l generalizing p with
  | nil => exact h
  | cons b l ih =>
    obtain ⟨rfl, h⟩ := h
    refine ⟨rfl, ?_⟩
    rw [hn p List.mem_cons_self]
    exact ih h fun x hx => hn x (List.mem_cons_of_mem p hx)

theorem Threaded.pop (h : Threaded next null p (b :: l)) : p = b ∧ Threaded next null (next p) l := by
  obtain ⟨rfl, h⟩ := h
  exact ⟨rfl, h⟩

theorem Threaded.push [DecidableEq β] (h : Threaded next null p l) (hb : b ∉ l) :
    Threaded (Function.update next b p) null b (b :: l) := by
  refine ⟨rfl, ?_⟩
  rw [Function.update_self]
  apply h.frame
  intro x hx
  apply Function.update_of_ne
  rintro rfl
  exact hb hx

end Threaded

section Thread

variable {size p x : Nat}

/-- Links blocks of one size that follow each other: `n` blocks and a last one. -/
def thread (size : Nat) : Nat → Nat → (Nat → Nat) → Nat → Nat
  | 0, p, next => Function.update next p 0
  | n + 1, p, next => thread size n (p + size) (Function.update next p (p + size))

/-- The blocks. -/
def segment (size p n : Nat) : List Nat := (List.range n).map fun j => p + size * j

theorem segment_succ (size p n : Nat) : segment size p (n + 1) = p :: segment size (p + size) n := by
  unfold segment
  rw [List.range_succ_eq_map, List.map_cons, List.map_map]
  congr 1
  apply List.map_congr_left
  intro j _
  simp only [Function.comp_apply, Nat.mul_succ]
  omega

theorem thread_of_not_mem {n : Nat} {next : Nat → Nat} (hx : x ∉ segment size p (n + 1)) :
    thread size n p next x = next x := by
  induction n generalizing p next with
  | zero =>
    apply Function.update_of_ne
    rintro rfl
    exact hx (by simp [segment])
  | succ n ih =>
    rw [segment_succ, List.mem_cons, not_or] at hx
    rw [thread, ih hx.2, Function.update_of_ne hx.1]

theorem not_mem_segment (hs : 0 < size) (n : Nat) : p ∉ segment size (p + size) n := by
  simp only [segment, List.mem_map, not_exists, not_and]
  intro j _ h
  omega

theorem threaded_thread (hs : 0 < size) (n : Nat) (next : Nat → Nat) :
    Threaded (thread size n p next) 0 p (segment size p (n + 1)) := by
  induction n generalizing p next with
  | zero => simp [segment, thread, Threaded]
  | succ n ih =>
    rw [segment_succ]
    refine ⟨rfl, ?_⟩
    rw [thread, thread_of_not_mem (not_mem_segment hs _), Function.update_self]
    exact ih _

end Thread

end FreeList
