import Mathlib.Data.List.Basic
import Mathlib.Tactic.Common

/-!
# Ring buffers

A list written around a block of cells.  The `i`-th element of the list is in the cell
`i` steps after the start, counted round the end of the block.  `Holds` says that a block
holds a list; the lemmas say how it is kept by writing before the first element and after
the last one, by forgetting an element at either end, and by copying a full block into a
larger one so that the list begins at its first cell.
-/

namespace CheckQ

namespace RingBuffer

variable {α : Type*}

/-- The cell `i` steps after `start` in a block of `cap` cells. -/
def pos (cap start i : ℕ) : ℕ := (start + i) % cap

lemma pos_lt {cap : ℕ} (hcap : 0 < cap) (start i : ℕ) : pos cap start i < cap :=
  Nat.mod_lt _ hcap

@[simp] lemma pos_zero {cap start : ℕ} (h : start < cap) : pos cap start 0 = start :=
  Nat.mod_eq_of_lt h

/-- The cell after the `i`-th one. -/
lemma pos_succ (cap start i : ℕ) : pos cap start (i + 1) = pos cap (pos cap start 1) i := by
  rw [pos, pos, pos, Nat.mod_add_mod]
  congr 1
  omega

/-- One step back and `i + 1` steps forward are `i` steps forward. -/
lemma pos_prev {cap : ℕ} (hcap : 0 < cap) (start i : ℕ) :
    pos cap (pos cap start (cap - 1)) (i + 1) = pos cap start i := by
  rw [pos, pos, Nat.mod_add_mod, show start + (cap - 1) + (i + 1) = start + i + cap by omega,
    Nat.add_mod_right, pos]

/-- Counting round the block wraps at most once. -/
lemma pos_eq {cap start i : ℕ} (hs : start < cap) (hi : i ≤ cap) :
    pos cap start i = if start + i < cap then start + i else start + i - cap := by
  rw [pos]
  split
  · exact Nat.mod_eq_of_lt ‹_›
  · rw [Nat.mod_eq_sub_mod (by omega), Nat.mod_eq_of_lt (by omega)]

/-- Different elements are in different cells. -/
lemma pos_ne {cap start i j : ℕ} (hs : start < cap) (hi : i < cap) (hj : j < cap)
    (hij : i ≠ j) : pos cap start i ≠ pos cap start j := by
  rw [pos_eq hs (Nat.le_of_lt hi), pos_eq hs (Nat.le_of_lt hj)]
  split <;> split <;> omega

/-- The block holds the list `l`, from the cell `start` on. -/
def Holds (cells : List (Option α)) (start : ℕ) (l : List α) : Prop :=
  ∀ i a, l[i]? = some a → cells[pos cells.length start i]? = some (some a)

variable {cells : List (Option α)} {start : ℕ} {l : List α} {a : α}

lemma holds_nil (cells : List (Option α)) (start : ℕ) : Holds cells start [] := by
  intro i a h
  simp at h

namespace Holds

/-- The first and the last element can be forgotten. -/
lemma prefix_left {r : List α} (h : Holds cells start (l ++ r)) : Holds cells start l := by
  intro i a hi
  have hlt : i < l.length := (List.getElem?_eq_some_iff.1 hi).1
  exact h i a (by rw [List.getElem?_append_left hlt, hi])

lemma tail (h : Holds cells start (a :: l)) :
    Holds cells (pos cells.length start 1) l := by
  intro i b hi
  rw [← pos_succ]
  exact h (i + 1) b (by simpa using hi)

lemma head (h : Holds cells start (a :: l)) (hs : start < cells.length) :
    cells[start]? = some (some a) := by
  have := h 0 a rfl
  rwa [pos_zero hs] at this

/-- Writing the cell after the last element. -/
lemma push (h : Holds cells start l) (hs : start < cells.length)
    (hl : l.length < cells.length) (a : α) :
    Holds (cells.set (pos cells.length start l.length) (some a)) start (l ++ [a]) := by
  intro i b hi
  rw [List.length_set]
  have hlt : i < (l ++ [a]).length := (List.getElem?_eq_some_iff.1 hi).1
  simp only [List.length_append, List.length_cons, List.length_nil] at hlt
  by_cases hil : i = l.length
  · subst hil
    rw [List.getElem?_concat_length, Option.some.injEq] at hi
    rw [hi, List.getElem?_set_self (pos_lt (by omega) _ _)]
  · rw [List.getElem?_append_left (by omega)] at hi
    rw [List.getElem?_set_ne (pos_ne hs (by omega) (by omega) (Ne.symm hil))]
    exact h i b hi

/-- Writing the cell before the first element. -/
lemma unshift (h : Holds cells start l) (hs : start < cells.length)
    (hl : l.length < cells.length) (a : α) :
    Holds (cells.set (pos cells.length start (cells.length - 1)) (some a))
      (pos cells.length start (cells.length - 1)) (a :: l) := by
  have hcap : 0 < cells.length := by omega
  have hs' := pos_lt hcap start (cells.length - 1)
  intro i b hi
  rw [List.length_set]
  cases i with
  | zero =>
      rw [List.getElem?_cons_zero, Option.some.injEq] at hi
      rw [pos_zero hs', hi, List.getElem?_set_self hs']
  | succ i =>
      rw [List.getElem?_cons_succ] at hi
      have hlt : i < l.length := (List.getElem?_eq_some_iff.1 hi).1
      rw [pos_prev hcap, List.getElem?_set_ne (pos_ne hs (by omega) (by omega) (by omega))]
      exact h i b hi

/-- A full block, unrolled and copied into a larger one. -/
lemma unroll (h : Holds cells start l) (hs : start < cells.length)
    (hl : l.length = cells.length) (rest : List (Option α)) :
    Holds (cells.drop start ++ cells.take start ++ rest) 0 l := by
  intro i a hi
  have hlt : i < cells.length := hl ▸ (List.getElem?_eq_some_iff.1 hi).1
  have hcell := h i a hi
  have hpos : pos (cells.drop start ++ cells.take start ++ rest).length 0 i = i := by
    rw [pos, Nat.zero_add]
    refine Nat.mod_eq_of_lt ?_
    simp only [List.length_append, List.length_drop, List.length_take]
    omega
  rw [hpos]
  rw [pos_eq hs (Nat.le_of_lt hlt)] at hcell
  by_cases hwrap : start + i < cells.length
  · -- before the end of the old block
    rw [if_pos hwrap] at hcell
    rw [List.append_assoc, List.getElem?_append_left (by simp; omega), List.getElem?_drop, hcell]
  · -- after the wrap
    rw [if_neg hwrap] at hcell
    rw [List.append_assoc, List.getElem?_append_right (by simp; omega), List.length_drop,
      List.getElem?_append_left (by simp; omega), List.getElem?_take_of_lt (by omega),
      show i - (cells.length - start) = start + i - cells.length by omega, hcell]

end Holds

end RingBuffer

end CheckQ
