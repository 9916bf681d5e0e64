import CheckQ.Mylib.HashMap
import CheckQ.Mylib.VectorDeque

/-!
# Random members of a vector and of a hash table

`get_random_cmd_list` and `schema_set_get_random` choose a member of a vector,
`table_set_get_random` and the two functions for the servers of a cluster an entry of a hash
table.  They call `rand()` only if there is something to choose from.
-/

namespace CheckQ

variable {α κ : Type}

/-- The member of a vector that `rand()` chooses. -/
def vectorGetRandom (v : VectorT α) (r : RandStream) : Outcome (Fetched α × RandStream) :=
  if vectorIsempty v then return (.null, r)
  else do
    let (x, r) := r.next
    let e ← vectorGet v (x % vectorSize v)
    return (e, r)

/-- The entry of a hash table that `rand()` chooses; `none` is the null pointer. -/
def hashGetRandom (h : HashT α) (r : RandStream) : Outcome ((Option α × HashT α) × RandStream) := do
  let ((entries, number), h) ← hashGetEntries h
  if number > 0 then
    let (x, r) := r.next
    match entries[x % number]? with
    | none => .fault
    | some a => return ((some a, h), r)
  else
    return ((none, h), r)

/-- A choice from `l`: the null pointer if there is nothing to choose from, and else a pointer to
a member. -/
def Picked {β : Type} (null : β) (pointer : α → β) (l : List α) (x : β) : Prop :=
  (l = [] ∧ x = null) ∨ ∃ a ∈ l, x = pointer a

/-- Whether the choice is a null pointer depends on the list alone. -/
lemma Picked.exists_iff {β : Type} {null : β} {pointer : α → β} {l : List α} {x : β}
    (h : Picked null pointer l x) (hne : ∀ a, pointer a ≠ null) :
    (∃ a, x = pointer a) ↔ l ≠ [] := by
  rcases h with ⟨rfl, rfl⟩ | ⟨a, ha, rfl⟩
  · constructor
    · rintro ⟨a, ha⟩
      exact absurd ha.symm (hne a)
    · intro hnil
      exact absurd rfl hnil
  · exact ⟨fun _ => List.ne_nil_of_mem ha, fun _ => ⟨a, rfl⟩⟩

lemma vectorGetRandom_meets {l : List α} {v : VectorT α} (h : VectorInv l v) (r : RandStream) :
    (vectorGetRandom v r).Meets False False fun q => Picked .null .entry l q.1 := by
  rw [vectorGetRandom, vectorIsempty, h.isempty_eq]
  cases l with
  | nil => exact Or.inl ⟨rfl, rfl⟩
  | cons a l =>
      have hlt : r.next.1 % vectorSize v < (a :: l).length := by
        rw [h.size_eq]
        exact Nat.mod_lt _ (by simp)
      rw [if_neg (by simp)]
      simp only [vectorGet_eq h (List.getElem?_eq_getElem hlt), Outcome.ret_bind]
      exact Or.inr ⟨_, List.getElem_mem hlt, rfl⟩

lemma hashGetRandom_meets {key : α → κ} {probe : κ → UInt64 → UInt64} {l : List α} {h : HashT α}
    (hh : HashHolds key probe l h) (r : RandStream) :
    (hashGetRandom h r).Meets False False fun q => Picked none some l q.1.1 ∧ q.1.2 = h := by
  obtain ⟨es, hes, hperm⟩ := hh.getEntries
  rw [hashGetRandom, hes, Outcome.ret_bind]
  cases es with
  | nil => exact ⟨Or.inl ⟨hperm.symm.eq_nil, rfl⟩, rfl⟩
  | cons e es =>
      have hlt : r.next.1 % (e :: es).length < (e :: es).length := Nat.mod_lt _ (by simp)
      simp only [List.length_cons, gt_iff_lt, Nat.zero_lt_succ, if_true] at hlt ⊢
      rw [List.getElem?_eq_getElem hlt]
      exact ⟨Or.inr ⟨_, hperm.mem_iff.1 (List.getElem_mem hlt), rfl⟩, rfl⟩

end CheckQ
