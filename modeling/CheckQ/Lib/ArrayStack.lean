import CheckQ.Lib.Outcome
import Mathlib.Data.List.Basic

/-!
# A stack in an array of pointers

An array of pointers is a list of cells, and `none` is a cell that points to nothing.  An index
is an integer; to read a cell that is not there or points to nothing is a fault, and so is to
write outside the array.  A stack keeps its items in the first cells.
-/

namespace CheckQ

universe u

variable {α : Type u}

/-- Reading `cells[i]`. -/
def fetch (cells : List (Option α)) (i : Int) : Outcome α :=
  if i < 0 then .fault
  else match cells[i.toNat]? with
    | some (some a) => .ret a
    | _ => .fault

/-- Writing `cells[i]`. -/
def store (cells : List (Option α)) (i : Int) (a : α) : Outcome (List (Option α)) :=
  if 0 ≤ i ∧ i < cells.length then .ret (cells.set i.toNat (some a)) else .fault

/-- Freeing what `cells[i]` points to. -/
def release (cells : List (Option α)) (i : Int) : Outcome (List (Option α)) := do
  let _ ← fetch cells i
  return cells.set i.toNat none

/-- The cells of a stack. -/
def stackCells (items : List α) (capacity : ℕ) : List (Option α) :=
  items.map some ++ List.replicate (capacity - items.length) none

variable {items : List α} {capacity : ℕ} {a : α}

lemma length_stackCells (h : items.length ≤ capacity) :
    (stackCells items capacity).length = capacity := by
  rw [stackCells, List.length_append, List.length_map, List.length_replicate]
  omega

/-- The items of a stack can be read. -/
lemma fetch_stackCells {i : ℕ} (h : i < items.length) :
    fetch (stackCells items capacity) i = .ret items[i] := by
  have hcell : (stackCells items capacity)[i]? = some (some items[i]) := by
    rw [stackCells, List.getElem?_append_left (by simpa using h), List.getElem?_map,
      List.getElem?_eq_getElem h, Option.map_some]
  rw [fetch, if_neg (by omega), Int.toNat_natCast]
  simp only [hcell]

/-- The item on top. -/
lemma fetch_stackCells_last (h : items.getLast? = some a) :
    fetch (stackCells items capacity) (items.length - 1) = .ret a := by
  obtain ⟨rest, rfl⟩ := List.getLast?_eq_some_iff.1 h
  have hlt : rest.length < (rest ++ [a]).length := by simp
  have hindex : (((rest ++ [a]).length : ℕ) : Int) - 1 = (rest.length : ℕ) := by simp
  rw [hindex, fetch_stackCells hlt]
  simp

/-- The cell behind the items of a stack that has room. -/
lemma stackCells_of_lt (h : items.length < capacity) :
    stackCells items capacity
      = items.map some ++ none :: List.replicate (capacity - (items.length + 1)) none := by
  have hroom : capacity - items.length = capacity - (items.length + 1) + 1 := by omega
  rw [stackCells, hroom, List.replicate_succ]

lemma stackCells_concat (items : List α) (a : α) (capacity : ℕ) :
    stackCells (items ++ [a]) capacity
      = items.map some ++ some a :: List.replicate (capacity - (items.length + 1)) none := by
  simp [stackCells]

/-- Writing the cell behind the items pushes one. -/
lemma store_stackCells (h : items.length < capacity) (a : α) :
    store (stackCells items capacity) items.length a
      = .ret (stackCells (items ++ [a]) capacity) := by
  have hlen : (stackCells items capacity).length = capacity := length_stackCells (Nat.le_of_lt h)
  rw [store, if_pos (by rw [hlen]; omega), Int.toNat_natCast, stackCells_of_lt h,
    stackCells_concat, List.set_append_right _ _ (by simp), List.length_map, Nat.sub_self,
    List.set_cons_zero]

/-- Freeing the item on top pops it. -/
lemma release_stackCells (hcap : items.length ≤ capacity) (h : items.getLast? = some a) :
    release (stackCells items capacity) (items.length - 1)
      = .ret (stackCells items.dropLast capacity) := by
  rw [release, fetch_stackCells_last h, Outcome.ret_bind, Outcome.pure_eq]
  obtain ⟨rest, rfl⟩ := List.getLast?_eq_some_iff.1 h
  rw [List.length_append, List.length_singleton] at hcap
  have hlt : rest.length < capacity := hcap
  have hindex : ((((rest ++ [a]).length : ℕ) : Int) - 1).toNat = rest.length := by simp
  rw [hindex, List.dropLast_concat, stackCells_concat, stackCells_of_lt hlt,
    List.set_append_right _ _ (by simp), List.length_map, Nat.sub_self, List.set_cons_zero]

end CheckQ
