import CheckQ.Lib.ArrayStack
import Mathlib.Data.List.Nodup
import Mathlib.Data.List.Range
import Mathlib.Logic.Function.Basic
import Mathlib.Order.Basic

/-!
# A stack of blocks that others read

A stack in an array of pointers to blocks, in the steps in which its owner changes it.  To push an
item the owner allocates a block, writes the cell behind the last one, and then counts; to pop one
it frees the block, and then counts.  The cell of a popped item keeps its pointer.  Whoever reads
the stack without a lock follows pointers that may have been in a cell some time ago.

`Holds`: what is in the array and in the blocks.  `Loaded`: what a pointer that was once read from
a cell may point to.
-/

namespace CheckQ

variable {α : Type}

/-- The array, its counter, what is in the blocks that are allocated, and the next block. -/
structure SharedStack (α : Type) where
  cells : List (Option ℕ)
  count : ℕ
  blocks : ℕ → Option α
  next : ℕ

namespace SharedStack

/-- A stack with the items, in an array of `capacity` cells. -/
def ofList (items : List α) (capacity : ℕ) : SharedStack α where
  cells := stackCells (List.range items.length) capacity
  count := items.length
  blocks p := items[p]?
  next := items.length

/-- Allocating a block with an item; its address is the old `next`. -/
def alloc (t : SharedStack α) (a : α) : SharedStack α :=
  { t with blocks := Function.update t.blocks t.next (some a), next := t.next + 1 }

/-- Following a pointer. -/
def deref (t : SharedStack α) (p : ℕ) : Outcome α :=
  match t.blocks p with
  | some a => .ret a
  | none => .fault

/-- Following the pointer of the last cell. -/
def top (t : SharedStack α) : Outcome α := do
  let p ← fetch t.cells (t.count - 1)
  t.deref p

/-- Writing the cell behind the last one. -/
def write (t : SharedStack α) (p : ℕ) : Outcome (SharedStack α) := do
  let cells ← store t.cells t.count p
  return { t with cells }

/-- Freeing the block of the last cell. -/
def free (t : SharedStack α) : Outcome (SharedStack α) := do
  let p ← fetch t.cells (t.count - 1)
  let _ ← t.deref p
  return { t with blocks := Function.update t.blocks p none }

/-- The items of the first `n` cells. -/
def items (t : SharedStack α) (n : ℕ) : List α :=
  (t.cells.take n).filterMap fun cell => cell.bind t.blocks

/-- The blocks `ps` of the first cells have the items, and the pointers of the other cells point to
nothing. -/
structure Holds (t : SharedStack α) (ps : List ℕ) (l : List α) : Prop where
  nodup : ps.Nodup
  length_eq : ps.length = l.length
  block : ∀ (i p : ℕ), ps[i]? = some p → t.blocks p = l[i]?
  cell : ∀ (i p : ℕ), ps[i]? = some p → t.cells[i]? = some (some p)
  dead : ∀ (i p : ℕ), ps.length ≤ i → t.cells[i]? = some (some p) → t.blocks p = none
  known : ∀ (i p : ℕ), t.cells[i]? = some (some p) → p < t.next

/-- A block that the owner has allocated, and that is in no cell yet. -/
structure Pending (t : SharedStack α) (p : ℕ) (a : α) : Prop where
  block : t.blocks p = some a
  unused : ∀ i : ℕ, t.cells[i]? ≠ some (some p)
  known : p < t.next

/-- A pointer that has been read from cell `i`: its block is there as long as it is in the cell. -/
structure Loaded (t : SharedStack α) (ps : List ℕ) (i p : ℕ) : Prop where
  known : p < t.next
  current : ps[i]? = some p ∨ t.blocks p = none

section Lemmas

variable {t t' : SharedStack α} {ps : List ℕ} {l : List α} {a : α} {i p q : ℕ}

lemma holds_ofList (l : List α) (capacity : ℕ) :
    (ofList l capacity).Holds (List.range l.length) l := by
  have hcell : ∀ i p : ℕ, (ofList l capacity).cells[i]? = some (some p) ↔
      (List.range l.length)[i]? = some p := by
    intro i p
    show (stackCells (List.range l.length) capacity)[i]? = _ ↔ _
    rw [stackCells]
    rcases Nat.lt_or_ge i l.length with hlt | hge
    · rw [List.getElem?_append_left (by simpa using hlt)]
      simp [hlt]
    · rw [List.getElem?_append_right (by simpa using hge), List.getElem?_replicate]
      simp [hge]
  have hrange : ∀ i p : ℕ, (List.range l.length)[i]? = some p → i = p ∧ p < l.length := by
    intro i p hp
    obtain ⟨hi, rfl⟩ := List.getElem?_eq_some_iff.1 hp
    rw [List.getElem_range]
    exact ⟨rfl, by simpa using hi⟩
  refine ⟨List.nodup_range, List.length_range, fun i p hp => ?_, fun i p => (hcell i p).2,
    fun i p hi hp => ?_, fun i p hp => ?_⟩
  · obtain ⟨rfl, -⟩ := hrange i p hp
    rfl
  · obtain ⟨rfl, hlt⟩ := hrange i p ((hcell i p).1 hp)
    rw [List.length_range] at hi
    exact absurd hlt (Nat.not_lt.2 hi)
  · exact (hrange i p ((hcell i p).1 hp)).2

namespace Holds

/-- A block in the stack has its item. -/
lemma block_some (h : t.Holds ps l) (hp : ps[i]? = some p) :
    ∃ a, l[i]? = some a ∧ t.blocks p = some a := by
  have hi : i < l.length := h.length_eq ▸ (List.getElem?_eq_some_iff.1 hp).1
  exact ⟨l[i], List.getElem?_eq_getElem hi, by rw [h.block i p hp, List.getElem?_eq_getElem hi]⟩

/-- The items can be read off the array. -/
lemma items_eq (h : t.Holds ps l) {n : ℕ} (hn : n ≤ ps.length) : t.items n = l.take n := by
  have htake : t.cells.take n = (ps.take n).map some := by
    apply List.ext_getElem?
    intro i
    rw [List.getElem?_take, List.getElem?_map, List.getElem?_take]
    split
    · rename_i hi
      rw [List.getElem?_eq_getElem (hi.trans_le hn)]
      exact h.cell i _ (List.getElem?_eq_getElem (hi.trans_le hn))
    · rfl
  have hmap : ps.map t.blocks = l.map some := by
    apply List.ext_getElem?
    intro i
    rw [List.getElem?_map, List.getElem?_map]
    rcases hp : ps[i]? with _ | p
    · rw [List.getElem?_eq_none (h.length_eq ▸ List.getElem?_eq_none_iff.1 hp)]
      rfl
    · obtain ⟨a, ha, hblock⟩ := h.block_some hp
      rw [ha, Option.map_some, Option.map_some, hblock]
  have hfilter : (ps.take n).filterMap t.blocks = ((ps.take n).map t.blocks).filterMap id := by
    rw [List.filterMap_map, Function.id_comp]
  rw [items, htake, List.filterMap_map]
  show (ps.take n).filterMap t.blocks = l.take n
  rw [hfilter, List.map_take, hmap, ← List.map_take, List.filterMap_map, Function.id_comp,
    List.filterMap_some]

/-- The counter does not matter. -/
lemma count (h : t.Holds ps l) (n : ℕ) : { t with count := n }.Holds ps l :=
  ⟨h.nodup, h.length_eq, h.block, h.cell, h.dead, h.known⟩

/-- The item on top. -/
lemma top_eq (h : t.Holds (ps ++ [p]) (l ++ [a])) (hcount : t.count = ps.length + 1) :
    fetch t.cells (t.count - 1) = .ret p ∧ t.blocks p = some a := by
  have hlast : (ps ++ [p])[ps.length]? = some p := List.getElem?_concat_length
  have hlength : ps.length = l.length := by simpa using h.length_eq
  constructor
  · have hcell := h.cell ps.length p hlast
    have hindex : (((ps.length + 1 : ℕ) : Int) - 1).toNat = ps.length := by omega
    rw [fetch, if_neg (by omega), hcount, hindex, hcell]
  · rw [h.block _ _ hlast, hlength]
    exact List.getElem?_concat_length

/-- A pointer to one of the blocks is in one cell only. -/
lemma index_eq (h : t.Holds ps l) {j : ℕ} (hi : ps[i]? = some p) (hj : ps[j]? = some p) :
    i = j := by
  obtain ⟨hi', hp⟩ := List.getElem?_eq_some_iff.1 hi
  obtain ⟨hj', hq⟩ := List.getElem?_eq_some_iff.1 hj
  exact (h.nodup.getElem_inj_iff).1 (hp.trans hq.symm)

lemma known_of_mem (h : t.Holds ps l) (hp : ps[i]? = some p) : p < t.next :=
  h.known i p (h.cell i p hp)

/-! The steps of the owner. -/

lemma alloc (h : t.Holds ps l) (a : α) :
    (t.alloc a).Holds ps l ∧ (t.alloc a).Pending t.next a := by
  have hold : ∀ p, p < t.next → (t.alloc a).blocks p = t.blocks p :=
    fun p hp => Function.update_of_ne hp.ne _ _
  refine ⟨⟨h.nodup, h.length_eq, fun i p hp => ?_, h.cell, fun i p hi hp => ?_,
    fun i p hp => (h.known i p hp).trans (Nat.lt_succ_self _)⟩,
    ⟨Function.update_self .., fun i hi => ?_, Nat.lt_succ_self _⟩⟩
  · rw [hold p (h.known_of_mem hp)]
    exact h.block i p hp
  · rw [hold p (h.known i p hp)]
    exact h.dead i p hi hp
  · exact absurd (h.known i _ hi) (lt_irrefl _)

lemma write (h : t.Holds ps l) (hp : t.Pending p a) (hcount : t.count = ps.length)
    (hroom : t.count < t.cells.length) :
    ∃ t', t.write p = .ret t' ∧ t'.Holds (ps ++ [p]) (l ++ [a]) ∧ t'.count = t.count ∧
      t'.blocks = t.blocks ∧ t'.next = t.next ∧ t'.cells.length = t.cells.length ∧
      ∀ i, t'.cells[i]? = if i = t.count then some (some p) else t.cells[i]? := by
  have hcells : ∀ i : ℕ, (t.cells.set t.count (some p))[i]?
      = if i = t.count then some (some p) else t.cells[i]? := by
    intro i
    rw [List.getElem?_set]
    split
    · rename_i hi
      rw [if_pos hi.symm]
    · rename_i hi
      rw [if_neg (Ne.symm hi)]
  refine ⟨{ t with cells := t.cells.set t.count (some p) }, ?_, ⟨?_, ?_, ?_, ?_, ?_, ?_⟩, rfl, rfl,
    rfl, List.length_set, hcells⟩
  · rw [SharedStack.write, store, if_pos (by omega)]
    rfl
  · refine List.nodup_append.2 ⟨h.nodup, List.nodup_singleton p, ?_⟩
    rintro q hq r hr rfl
    obtain ⟨i, hi⟩ := List.mem_iff_getElem?.1 hq
    rw [List.mem_singleton] at hr
    exact hp.unused i (hr ▸ h.cell i q hi)
  · simp [h.length_eq]
  · intro i q hq
    rcases Nat.lt_or_ge i ps.length with hlt | hge
    · rw [List.getElem?_append_left hlt] at hq
      rw [List.getElem?_append_left (h.length_eq ▸ hlt)]
      exact h.block i q hq
    · obtain ⟨rfl, rfl⟩ : i = ps.length ∧ q = p := by
        rw [List.getElem?_append_right hge, List.getElem?_singleton] at hq
        split at hq
        · exact ⟨by omega, (Option.some.inj hq).symm⟩
        · cases hq
      rw [h.length_eq, List.getElem?_concat_length]
      exact hp.block
  · intro i q hq
    show (t.cells.set t.count (some p))[i]? = _
    rw [hcells, hcount]
    split
    · rename_i hi
      rw [hi, List.getElem?_concat_length] at hq
      rw [← hq]
    · rename_i hi
      have hlt : i < ps.length := by
        have := (List.getElem?_eq_some_iff.1 hq).1
        rw [List.length_append, List.length_singleton] at this
        omega
      rw [List.getElem?_append_left hlt] at hq
      exact h.cell i q hq
  · intro i q hi hq
    have hi' : ps.length + 1 ≤ i := by simpa using hi
    have hq' : (t.cells.set t.count (some p))[i]? = some (some q) := hq
    rw [hcells, if_neg (by omega)] at hq'
    exact h.dead i q (by omega) hq'
  · intro i q hq
    have hq' : (t.cells.set t.count (some p))[i]? = some (some q) := hq
    rw [hcells] at hq'
    split at hq'
    · cases hq'
      exact hp.known
    · exact h.known i q hq'

lemma free (h : t.Holds (ps ++ [p]) (l ++ [a])) (hcount : t.count = ps.length + 1) :
    t.free = .ret { t with blocks := Function.update t.blocks p none } ∧
      { t with blocks := Function.update t.blocks p none }.Holds ps l := by
  obtain ⟨hfetch, hblock⟩ := h.top_eq hcount
  have hlast : (ps ++ [p])[ps.length]? = some p := List.getElem?_concat_length
  have hlength : ps.length = l.length := by simpa using h.length_eq
  have hinit : ∀ {i q : ℕ}, ps[i]? = some q → (ps ++ [p])[i]? = some q ∧ q ≠ p := by
    intro i q hq
    have hlt := (List.getElem?_eq_some_iff.1 hq).1
    have hq' : (ps ++ [p])[i]? = some q := by rw [List.getElem?_append_left hlt, hq]
    refine ⟨hq', ?_⟩
    rintro rfl
    exact hlt.ne (h.index_eq hq' hlast)
  refine ⟨?_, h.nodup.sublist (List.sublist_append_left ..), hlength, fun i q hq => ?_,
    fun i q hq => h.cell i q (hinit hq).1, fun i q hi hq => ?_, h.known⟩
  · rw [SharedStack.free, hfetch, Outcome.ret_bind, deref, hblock]
    rfl
  · obtain ⟨hq', hne⟩ := hinit hq
    show Function.update t.blocks p none q = l[i]?
    rw [Function.update_of_ne hne, h.block i q hq', List.getElem?_append_left]
    exact hlength ▸ (List.getElem?_eq_some_iff.1 hq).1
  · show Function.update t.blocks p none q = none
    rw [Function.update_apply]
    split
    · rfl
    · rename_i hne
      refine h.dead i q ?_ hq
      rcases hi.lt_or_eq with hlt | rfl
      · rw [List.length_append, List.length_singleton]
        exact hlt
      · have hcell := h.cell _ p hlast
        rw [show t.cells[ps.length]? = some (some q) from hq] at hcell
        cases hcell
        exact absurd rfl hne

/-! The readers. -/

/-- A pointer that is read from a cell. -/
lemma load (h : t.Holds ps l) (hp : t.cells[i]? = some (some p)) : t.Loaded ps i p := by
  refine ⟨h.known i p hp, ?_⟩
  rcases Nat.lt_or_ge i ps.length with hlt | hge
  · left
    have hcell := h.cell i _ (List.getElem?_eq_getElem hlt)
    rw [hp] at hcell
    rw [List.getElem?_eq_getElem hlt]
    exact (Option.some.inj (Option.some.inj hcell)) ▸ rfl
  · exact Or.inr (h.dead i p hge hp)

/-- Its block is there just as long as it is in the cell of an item. -/
lemma block_isSome_iff (h : t.Holds ps l) (hp : t.Loaded ps i p) :
    (t.blocks p).isSome ↔ i < ps.length ∧ t.cells[i]? = some (some p) := by
  constructor
  · intro hsome
    rcases hp.current with hi | hdead
    · exact ⟨(List.getElem?_eq_some_iff.1 hi).1, h.cell i p hi⟩
    · rw [hdead] at hsome
      cases hsome
  · rintro ⟨hi, hcell⟩
    rcases (h.load hcell).current with hps | hdead
    · obtain ⟨a, -, ha⟩ := h.block_some hps
      rw [ha]
      rfl
    · have hi' := h.cell i _ (List.getElem?_eq_getElem hi)
      rw [hcell] at hi'
      obtain ⟨a, -, ha⟩ := h.block_some (List.getElem?_eq_getElem hi)
      rw [← Option.some.inj (Option.some.inj hi'), hdead] at ha
      cases ha

end Holds

namespace Loaded

lemma alloc (hp : t.Loaded ps i p) (a : α) : (t.alloc a).Loaded ps i p := by
  refine ⟨hp.known.trans (Nat.lt_succ_self _), hp.current.imp_right fun hdead => ?_⟩
  show Function.update t.blocks t.next (some a) p = none
  rw [Function.update_of_ne hp.known.ne, hdead]

lemma append (hp : t.Loaded ps i p) (hblocks : t'.blocks = t.blocks) (hnext : t'.next = t.next)
    (q : ℕ) : t'.Loaded (ps ++ [q]) i p := by
  refine ⟨hnext ▸ hp.known, hp.current.imp (fun hi => ?_) fun hdead => hblocks ▸ hdead⟩
  rw [List.getElem?_append_left (List.getElem?_eq_some_iff.1 hi).1, hi]

lemma free (hp : t.Loaded (ps ++ [q]) i p) :
    { t with blocks := Function.update t.blocks q none }.Loaded ps i p := by
  refine ⟨hp.known, ?_⟩
  by_cases hpq : p = q
  · right
    rw [hpq]
    exact Function.update_self ..
  · refine hp.current.imp (fun hi => ?_) fun hdead => ?_
    · rcases Nat.lt_or_ge i ps.length with hlt | hge
      · rwa [List.getElem?_append_left hlt] at hi
      · rw [List.getElem?_append_right hge, List.getElem?_singleton] at hi
        split at hi
        · exact absurd (Option.some.inj hi).symm hpq
        · cases hi
    · show Function.update t.blocks q none p = none
      rw [Function.update_of_ne hpq, hdead]

end Loaded

end Lemmas

end SharedStack

end CheckQ
