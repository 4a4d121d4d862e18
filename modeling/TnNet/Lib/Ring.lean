import Mathlib.Data.List.Basic
import Mathlib.Logic.Function.Basic

/-!
# Ring buffers with a free cell

A ring of `size` cells with a counter for the next cell to read (`tail`) and one for the next cell to
write (`head`).  The ring is empty when the counters are equal and full when one more write would make
them equal, so it holds `capacity size` entries at most, one less than its cells.  `content` is the list
of the entries, the oldest first.
-/

set_option autoImplicit false

/-- A ring buffer. -/
structure RingBuf (α : Type) where
  cells : Nat → α
  size : Nat
  tail : Nat
  head : Nat

namespace RingBuf

variable {α : Type} {r : RingBuf α}

/-- The cell behind another one. -/
def next (r : RingBuf α) (i : Nat) : Nat := if r.size ≤ i + 1 then 0 else i + 1

/-- The number of entries that a ring of `size` cells has room for. -/
def capacity (size : Nat) : Nat := size - 1

/-- The number of entries. -/
def len (r : RingBuf α) : Nat :=
  if r.tail ≤ r.head then r.head - r.tail else r.size - r.tail + r.head

/-- The cell of an entry. -/
def cell (r : RingBuf α) (j : Nat) : Nat :=
  if r.tail + j < r.size then r.tail + j else r.tail + j - r.size

/-- The entries, the oldest first. -/
def content (r : RingBuf α) : List α := (List.range r.len).map fun j => r.cells (r.cell j)

/-- The counters are cells of the ring. -/
structure Ok (r : RingBuf α) : Prop where
  tail : r.tail < r.size
  head : r.head < r.size

/-- Write at `head`. -/
def write (r : RingBuf α) (x : α) : RingBuf α :=
  { r with cells := Function.update r.cells r.head x, head := r.next r.head }

/-- Drop the entry at `tail`. -/
def drop (r : RingBuf α) : RingBuf α := { r with tail := r.next r.tail }

theorem length_content (r : RingBuf α) : r.content.length = r.len := by
  simp [content]

theorem content_nil (h : r.tail = r.head) : r.content = [] := by
  rw [← List.length_eq_zero_iff, length_content]
  simp [len, h]

theorem next_lt (h : 0 < r.size) (i : Nat) : r.next i < r.size := by
  unfold next
  split <;> omega

theorem Ok.write (h : r.Ok) (x : α) : (r.write x).Ok :=
  ⟨h.tail, next_lt (Nat.lt_of_le_of_lt (Nat.zero_le _) h.tail) r.head⟩

theorem Ok.drop (h : r.Ok) : r.drop.Ok :=
  ⟨next_lt (Nat.lt_of_le_of_lt (Nat.zero_le _) h.tail) r.tail, h.head⟩

/-- A ring is full when it has one free cell left. -/
theorem Ok.full_iff (h : r.Ok) : r.next r.head = r.tail ↔ r.len = capacity r.size := by
  have h1 := h.tail
  have h2 := h.head
  unfold next len capacity
  split <;> split <;> omega

theorem len_write (h : r.Ok) (hf : r.next r.head ≠ r.tail) (x : α) :
    (r.write x).len = r.len + 1 := by
  have h1 := h.tail
  have h2 := h.head
  unfold next at hf
  unfold write len next
  dsimp only
  split at hf <;> split <;> split <;> split at * <;> omega

/-- **A write appends an entry.** -/
theorem content_write (h : r.Ok) (hf : r.next r.head ≠ r.tail) (x : α) :
    (r.write x).content = r.content ++ [x] := by
  have h1 := h.tail
  have h2 := h.head
  unfold content
  rw [len_write h hf, List.range_succ, List.map_append, List.map_singleton]
  have hlen : r.len < r.size := by
    unfold len
    split <;> omega
  have hlast : r.cell r.len = r.head := by
    unfold cell len
    split <;> split <;> omega
  congr 1
  · apply List.map_congr_left
    intro j hj
    have hj' : j < r.len := by simpa using hj
    show Function.update r.cells r.head x (r.cell j) = r.cells (r.cell j)
    rw [Function.update_of_ne]
    -- an entry in front of the last one is in another cell
    rw [← hlast]
    unfold cell
    split <;> split <;> omega
  · show [Function.update r.cells r.head x (r.cell r.len)] = [x]
    rw [hlast, Function.update_self]

theorem len_drop (h : r.Ok) (hne : r.tail ≠ r.head) : r.len = r.drop.len + 1 := by
  have h1 := h.tail
  have h2 := h.head
  unfold drop len next
  dsimp only
  split <;> split <;> split at * <;> omega

/-- **A read takes the oldest entry.** -/
theorem content_drop (h : r.Ok) (hne : r.tail ≠ r.head) :
    r.content = r.cells r.tail :: r.drop.content := by
  have h1 := h.tail
  have h2 := h.head
  have hlen : r.len < r.size := by
    unfold len
    split <;> omega
  have hd := len_drop h hne
  unfold content
  rw [hd, List.range_succ_eq_map, List.map_cons, List.map_map]
  congr 1
  · have : r.cell 0 = r.tail := by
      unfold cell
      split <;> omega
    rw [this]
  · apply List.map_congr_left
    intro j hj
    have hj' : j < r.drop.len := by simpa using hj
    show r.cells (r.cell (j + 1)) = r.cells (r.drop.cell j)
    have : r.cell (j + 1) = r.drop.cell j := by
      unfold cell drop next
      dsimp only
      split <;> split <;> split at * <;> omega
    rw [this]

end RingBuf
