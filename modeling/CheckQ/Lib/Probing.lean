import Mathlib.Data.Finset.Card
import Mathlib.Data.List.Basic
import Mathlib.Data.List.Nodup
import Mathlib.Tactic.Common

/-!
# Open addressing with tombstones

A table is a list of slots; a slot is empty, holds an element, or holds the tombstone
of an element that has been removed.  Each key `k` has a probe sequence `seq k`, an
arbitrary sequence of slot numbers, and a search for `k` follows it past tombstones
and past elements with other keys until it meets an empty slot or an element with the
key `k`.

The invariant `Sound` says that the search for the key of a stored element arrives at
that element.  It is what makes an unsuccessful search mean that the key is absent
(`Sound.key_ne_of_empty`), it forces the keys of a table to be distinct
(`Sound.nodup_keys`), and it is kept by writing a new element into the empty slot its
search has found (`Sound.insert`) and by turning an element into a tombstone
(`Sound.remove`).  Nothing is assumed of the probe sequences.  A search ends when its sequence
comes to more slots than are in use (`exists_empty_probe`).
-/

namespace CheckQ

/-- A slot of an open-addressing table. -/
inductive Slot (α : Type*) where
  /-- The slot has never been used. -/
  | empty
  /-- The slot holds an element. -/
  | occupied (a : α)
  /-- The slot held an element that has been removed. -/
  | removed
deriving DecidableEq, Repr

namespace Slot

variable {α : Type*}

/-- The element of a slot. -/
def elem? : Slot α → Option α
  | empty => none
  | occupied a => some a
  | removed => none

/-- The slot holds a tombstone. -/
def isRemoved : Slot α → Bool
  | empty => false
  | occupied _ => false
  | removed => true

end Slot

namespace Probing

variable {α κ : Type*}

/-- The elements a table holds, in slot order. -/
def live (slots : List (Slot α)) : List α := slots.filterMap Slot.elem?

/-- The number of tombstones of a table. -/
def tombs (slots : List (Slot α)) : ℕ := slots.countP Slot.isRemoved

lemma mem_live {slots : List (Slot α)} {a : α} :
    a ∈ live slots ↔ ∃ i : ℕ, slots[i]? = some (.occupied a) := by
  rw [live, List.mem_filterMap]
  constructor
  · rintro ⟨s, hs, ha⟩
    obtain ⟨i, hi⟩ := List.mem_iff_getElem?.1 hs
    cases s with
    | empty => exact absurd ha (by simp [Slot.elem?])
    | removed => exact absurd ha (by simp [Slot.elem?])
    | occupied b =>
        simp only [Slot.elem?, Option.some.injEq] at ha
        exact ⟨i, ha ▸ hi⟩
  · rintro ⟨i, hi⟩
    exact ⟨.occupied a, List.mem_iff_getElem?.2 ⟨i, hi⟩, rfl⟩

/-! ### A table without elements -/

@[simp] lemma live_replicate_empty (n : ℕ) : live (List.replicate n (Slot.empty : Slot α)) = [] := by
  simp [live, Slot.elem?]

@[simp] lemma tombs_replicate_empty (n : ℕ) :
    tombs (List.replicate n (Slot.empty : Slot α)) = 0 := by
  simp [tombs, List.countP_replicate, Slot.isRemoved]

/-- A table in which not every slot is in use has an empty slot. -/
lemma exists_empty {slots : List (Slot α)}
    (h : (live slots).length + tombs slots < slots.length) :
    ∃ i : ℕ, slots[i]? = some .empty := by
  rw [← List.mem_iff_getElem?]
  induction slots with
  | nil => simp at h
  | cons s slots ih =>
      cases s with
      | empty => exact List.mem_cons_self
      | occupied a =>
          refine List.mem_cons_of_mem _ (ih ?_)
          simp only [live, tombs, List.filterMap_cons, List.countP_cons, Slot.elem?, Slot.isRemoved,
            List.length_cons] at h ⊢
          omega
      | removed =>
          refine List.mem_cons_of_mem _ (ih ?_)
          simp only [live, tombs, List.filterMap_cons, List.countP_cons, Slot.elem?, Slot.isRemoved,
            List.length_cons] at h ⊢
          simp only [if_true] at h
          omega

/-! ### Writing one slot -/

lemma split_at {slots : List (Slot α)} {i : ℕ} {s : Slot α} (h : slots[i]? = some s) (t : Slot α) :
    slots = slots.take i ++ s :: slots.drop (i + 1) ∧
      slots.set i t = slots.take i ++ t :: slots.drop (i + 1) := by
  obtain ⟨hi, hs⟩ := List.getElem?_eq_some_iff.1 h
  constructor
  · rw [← hs, ← List.drop_eq_getElem_cons hi, List.take_append_drop]
  · exact List.set_eq_take_append_cons_drop.trans (if_pos hi)

/-- Filling an empty slot adds one element and no tombstone. -/
lemma live_set_occupied {slots : List (Slot α)} {i : ℕ} (h : slots[i]? = some .empty) (a : α) :
    (live (slots.set i (.occupied a))).Perm (a :: live slots) ∧
      tombs (slots.set i (.occupied a)) = tombs slots := by
  obtain ⟨h₀, h₁⟩ := split_at h (.occupied a)
  constructor
  · rw [h₁]
    conv_rhs => rw [h₀]
    simp only [live, List.filterMap_append, List.filterMap_cons, Slot.elem?]
    exact List.perm_middle
  · rw [h₁]
    conv_rhs => rw [h₀]
    simp [tombs, List.countP_append, Slot.isRemoved]

/-- Removing an element takes it from the elements and adds a tombstone. -/
lemma live_set_removed {slots : List (Slot α)} {i : ℕ} {a : α}
    (h : slots[i]? = some (.occupied a)) :
    (live slots).Perm (a :: live (slots.set i .removed)) ∧
      tombs (slots.set i .removed) = tombs slots + 1 := by
  obtain ⟨h₀, h₁⟩ := split_at h .removed
  constructor
  · rw [h₁]
    conv_lhs => rw [h₀]
    simp only [live, List.filterMap_append, List.filterMap_cons, Slot.elem?]
    exact List.perm_middle
  · rw [h₁]
    conv_rhs => rw [h₀]
    simp [tombs, List.countP_append, List.countP_cons, Slot.isRemoved, Nat.add_assoc]

/-! ### Searches -/

variable (key : α → κ) (seq : κ → ℕ → ℕ)

/-- A search for `k` goes past this slot. -/
def Passes (k : κ) : Slot α → Prop
  | .empty => False
  | .occupied a => key a ≠ k
  | .removed => True

/-- The search for `k` reaches its `n`-th probe. -/
def Arrives (slots : List (Slot α)) (k : κ) (n : ℕ) : Prop :=
  ∀ m < n, ∃ s, slots[seq k m]? = some s ∧ Passes key k s

lemma arrives_zero (slots : List (Slot α)) (k : κ) : Arrives key seq slots k 0 :=
  fun m hm => absurd hm (Nat.not_lt_zero m)

lemma Arrives.succ {slots : List (Slot α)} {k : κ} {n : ℕ} {s : Slot α}
    (h : Arrives key seq slots k n) (hs : slots[seq k n]? = some s) (hp : Passes key k s) :
    Arrives key seq slots k (n + 1) := by
  intro m hm
  rcases Nat.lt_succ_iff_lt_or_eq.1 hm with hlt | rfl
  · exact h m hlt
  · exact ⟨s, hs, hp⟩

/-- Two searches for the same key that stop, stop at the same probe. -/
lemma Arrives.eq_of_stop {slots : List (Slot α)} {k : κ} {n m : ℕ} {s t : Slot α}
    (hn : Arrives key seq slots k n) (hs : slots[seq k n]? = some s) (hsk : ¬ Passes key k s)
    (hm : Arrives key seq slots k m) (ht : slots[seq k m]? = some t) (htk : ¬ Passes key k t) :
    n = m := by
  rcases Nat.lt_trichotomy n m with hlt | heq | hlt
  · obtain ⟨s', hs', hp⟩ := hm n hlt
    rw [hs, Option.some.injEq] at hs'
    exact absurd (hs' ▸ hp) hsk
  · exact heq
  · obtain ⟨t', ht', hp⟩ := hn m hlt
    rw [ht, Option.some.injEq] at ht'
    exact absurd (ht' ▸ hp) htk

/-- Every stored element is where the search for its key arrives. -/
def Sound (slots : List (Slot α)) : Prop :=
  ∀ i a, slots[i]? = some (.occupied a) →
    ∃ n, seq (key a) n = i ∧ Arrives key seq slots (key a) n

/-- Slots that are not empty are in use. -/
lemma card_le_used {slots : List (Slot α)} {t : Finset ℕ}
    (ht : ∀ i ∈ t, ∃ s, slots[i]? = some s ∧ s ≠ .empty) :
    t.card ≤ (live slots).length + tombs slots := by
  induction slots using List.reverseRecOn generalizing t with
  | nil =>
      have hempty : t = ∅ := Finset.eq_empty_of_forall_notMem fun i hi => by
        obtain ⟨s, hs, -⟩ := ht i hi
        cases hs
      rw [hempty]
      exact Nat.zero_le _
  | append_singleton slots s ih =>
      have hslots : (t.erase slots.length).card ≤ (live slots).length + tombs slots := by
        refine ih fun i hi => ?_
        obtain ⟨hne, hi⟩ := Finset.mem_erase.1 hi
        obtain ⟨s', hs', hs'empty⟩ := ht i hi
        have hlt : i < slots.length := by
          have := (List.getElem?_eq_some_iff.1 hs').1
          rw [List.length_append, List.length_singleton] at this
          omega
        rw [List.getElem?_append_left hlt] at hs'
        exact ⟨s', hs', hs'empty⟩
      have hused : (live (slots ++ [s])).length + tombs (slots ++ [s])
          = (live slots).length + tombs slots + ((live [s]).length + tombs [s]) := by
        rw [live, live, live, tombs, tombs, tombs, List.filterMap_append, List.length_append,
          List.countP_append]
        omega
      rw [hused]
      by_cases hmem : slots.length ∈ t
      · obtain ⟨s', hs', hs'empty⟩ := ht _ hmem
        rw [List.getElem?_concat_length, Option.some.injEq] at hs'
        subst hs'
        have hone : (live [s]).length + tombs [s] = 1 := by
          cases s with
          | empty => exact absurd rfl hs'empty
          | occupied a => rfl
          | removed => rfl
        rw [hone, ← Finset.card_erase_add_one hmem]
        omega
      · rw [← Finset.erase_eq_of_notMem hmem]
        omega

/-- A search that looks at more slots than are in use comes to an empty one. -/
lemma exists_empty_probe {slots : List (Slot α)} {k : κ} {n : ℕ}
    (hlt : ∀ m < n, seq k m < slots.length)
    (hcard : (live slots).length + tombs slots < ((Finset.range n).image (seq k)).card) :
    ∃ m < n, slots[seq k m]? = some .empty := by
  by_contra hno
  have hused : ((Finset.range n).image (seq k)).card ≤ (live slots).length + tombs slots := by
    refine card_le_used fun i hi => ?_
    obtain ⟨m, hm, rfl⟩ := Finset.mem_image.1 hi
    have hlt := hlt m (Finset.mem_range.1 hm)
    have hslot := List.getElem?_eq_getElem hlt
    refine ⟨slots[seq k m], hslot, fun hempty => ?_⟩
    exact hno ⟨m, Finset.mem_range.1 hm, by rw [hslot, hempty]⟩
  exact absurd hused (Nat.not_le_of_lt hcard)

namespace Sound

variable {key seq} {slots : List (Slot α)}

lemma replicate_empty (n : ℕ) : Sound key seq (List.replicate n (Slot.empty : Slot α)) := by
  intro i a h
  rw [List.getElem?_replicate] at h
  split at h <;> simp at h

/-- A key whose search ends in an empty slot is not in the table. -/
lemma key_ne_of_empty (h : Sound key seq slots) {k : κ} {n : ℕ}
    (hn : Arrives key seq slots k n) (hs : slots[seq k n]? = some .empty) :
    ∀ a ∈ live slots, key a ≠ k := by
  rintro a ha rfl
  obtain ⟨i, hi⟩ := mem_live.1 ha
  obtain ⟨m, rfl, hm⟩ := h i a hi
  have hnm := hn.eq_of_stop key seq hs (by simp [Passes]) hm hi (by simp [Passes])
  rw [hnm, hi] at hs
  simp at hs

/-- Two slots with the same key are the same slot. -/
lemma index_unique (h : Sound key seq slots) {i j : ℕ} {a b : α}
    (hi : slots[i]? = some (.occupied a)) (hj : slots[j]? = some (.occupied b))
    (hk : key a = key b) : i = j := by
  obtain ⟨n, rfl, hn⟩ := h i a hi
  obtain ⟨m, rfl, hm⟩ := h j b hj
  rw [← hk] at hm hj ⊢
  rw [hn.eq_of_stop key seq hi (by simp [Passes]) hm hj (by simp [Passes, hk])]

/-- The keys of a table are distinct. -/
lemma nodup_keys (h : Sound key seq slots) : ((live slots).map key).Nodup := by
  rw [live, List.map_filterMap, List.Nodup, List.pairwise_filterMap, List.pairwise_iff_getElem]
  intro i j hi hj hij k hk k' hk' hkk
  -- two different positions with equal keys contradict uniqueness of the slot
  rcases hsi : slots[i] with _ | a | _ <;> rw [hsi] at hk <;> simp [Slot.elem?] at hk
  rcases hsj : slots[j] with _ | b | _ <;> rw [hsj] at hk' <;> simp [Slot.elem?] at hk'
  have hi' : slots[i]? = some (.occupied a) := by rw [List.getElem?_eq_getElem hi, hsi]
  have hj' : slots[j]? = some (.occupied b) := by rw [List.getElem?_eq_getElem hj, hsj]
  have := h.index_unique hi' hj' (by rw [hk, hk', hkk])
  omega

/-- Writing an element into the empty slot its search has found keeps the table sound. -/
lemma insert (h : Sound key seq slots) {a : α} {n : ℕ}
    (hn : Arrives key seq slots (key a) n) (hs : slots[seq (key a) n]? = some .empty) :
    Sound key seq (slots.set (seq (key a) n) (.occupied a)) := by
  -- a search never goes past the slot that was empty, so writing it disturbs none
  have keep : ∀ {k : κ} {m : ℕ}, Arrives key seq slots k m →
      Arrives key seq (slots.set (seq (key a) n) (.occupied a)) k m := by
    intro k m hm l hl
    obtain ⟨s, hs', hp⟩ := hm l hl
    refine ⟨s, ?_, hp⟩
    rw [List.getElem?_set_ne]
    · exact hs'
    · intro heq
      rw [← heq, hs, Option.some.injEq] at hs'
      exact absurd hp (by simp [← hs', Passes])
  intro i b hb
  by_cases hi : seq (key a) n = i
  · subst hi
    rw [List.getElem?_set_self (List.getElem?_eq_some_iff.1 hs).1] at hb
    simp only [Option.some.injEq, Slot.occupied.injEq] at hb
    subst hb
    exact ⟨n, rfl, keep hn⟩
  · rw [List.getElem?_set_ne hi] at hb
    obtain ⟨m, hm, harr⟩ := h i b hb
    exact ⟨m, hm, keep harr⟩

/-- Turning an element into a tombstone keeps the table sound. -/
lemma remove (h : Sound key seq slots) {i : ℕ} {a : α} (hi : slots[i]? = some (.occupied a)) :
    Sound key seq (slots.set i .removed) := by
  have hlt : i < slots.length := (List.getElem?_eq_some_iff.1 hi).1
  intro j b hb
  by_cases hij : i = j
  · subst hij
    rw [List.getElem?_set_self hlt] at hb
    simp at hb
  · rw [List.getElem?_set_ne hij] at hb
    obtain ⟨m, hm, harr⟩ := h j b hb
    refine ⟨m, hm, fun l hl => ?_⟩
    obtain ⟨s, hs, hp⟩ := harr l hl
    by_cases hil : i = seq (key b) l
    · exact ⟨.removed, by rw [← hil, List.getElem?_set_self hlt], trivial⟩
    · exact ⟨s, by rw [List.getElem?_set_ne hil, hs], hp⟩

end Sound

end Probing

end CheckQ
