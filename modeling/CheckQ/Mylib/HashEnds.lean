import CheckQ.Mylib.HashMap

/-!
# Searches that end

The loop of `hash_find` has no exit of its own: it goes on until it comes to an empty slot or to the
key.  So it ends for a key whose probes come to more slots than there are entries.  A level is a
word of 64 bits, and behind the last one the probes begin again; `2 ^ 64` rounds are enough for
every search that ends.
-/

namespace CheckQ

open Probing

variable {α κ : Type} {key : α → κ} {probe : κ → UInt64 → UInt64} {h : HashT α} {fuel : ℕ}

/-- The probes for the key come to more than `n` slots of a table. -/
def Scatters (probe : κ → UInt64 → UInt64) (size n : ℕ) (k : κ) : Prop :=
  ∃ levels ≤ 2 ^ 64, n < ((Finset.range levels).image (slotSeq probe size k)).card

/-- At most `n` of the slots of a table are in use. -/
lemma Scatters.exists_empty {slots : List (Slot α)} {n : ℕ} {k : κ}
    (hk : Scatters probe slots.length n k) (hpos : 0 < slots.length)
    (hused : (live slots).length + tombs slots ≤ n) :
    ∃ level < 2 ^ 64, slots[slotSeq probe slots.length k level]? = some .empty := by
  obtain ⟨levels, hle, hcard⟩ := hk
  obtain ⟨level, hlevel, hempty⟩ := exists_empty_probe (slotSeq probe slots.length)
    (fun _ _ => Nat.mod_lt _ hpos) (hused.trans_lt hcard)
  exact ⟨level, hlevel.trans_le hle, hempty⟩

variable [DecidableEq κ]

/-- The loop ends when it has rounds left for a level with an empty slot. -/
lemma hashFind_ne_spin {slots : List (Slot α)} {size : ℕ} {k : κ} {n level : ℕ}
    (hempty : slots[slotSeq probe size k n]? = some .empty) (hlevel : level ≤ n)
    (hfuel : n < level + fuel) : hashFind key probe slots size k fuel level ≠ .spin := by
  induction fuel generalizing level with
  | zero => omega
  | succ fuel ih =>
      rw [hashFind]
      rcases hlevel.eq_or_lt with rfl | hlt
      · simp [hempty]
      · have hnext : hashFind key probe slots size k fuel (level + 1) ≠ .spin :=
          ih hlt (by omega)
        split
        · simp
        · simp
        · split
          · simp
          · exact hnext
        · exact hnext

lemma Scatters.hashFind_ne_spin {slots : List (Slot α)} {size n : ℕ} {k : κ}
    (hk : Scatters probe size n k) (hsize : slots.length = size) (hpos : 0 < size)
    (hused : (live slots).length + tombs slots ≤ n) (hfuel : 2 ^ 64 ≤ fuel) :
    hashFind key probe slots size k fuel 0 ≠ .spin := by
  subst hsize
  obtain ⟨level, hlevel, hempty⟩ := hk.exists_empty hpos hused
  exact CheckQ.hashFind_ne_spin hempty (Nat.zero_le level) (by omega)

/-- The loop of `rehash` ends for entries whose keys scatter. -/
lemma rehashLoop_ne_spin (hfuel : 2 ^ 64 ≤ fuel) {src : List (Slot α)} {h : HashT α} {n : ℕ}
    (hlen : h.elements.length = h.hashSize) (hpos : 0 < h.hashSize)
    (hzero : tombs h.elements = 0)
    (hcount : (live src).length + (live h.elements).length ≤ n + 1)
    (hkeys : ∀ a ∈ live src, Scatters probe h.hashSize n (key a)) :
    rehashLoop key probe fuel src h ≠ .spin := by
  induction src generalizing h with
  | nil => simp [rehashLoop]
  | cons s src ih =>
      cases s with
      | empty => exact ih hlen hpos hzero hcount hkeys
      | removed => exact ih hlen hpos hzero hcount hkeys
      | occupied a =>
          have hlive : live (Slot.occupied a :: src) = a :: live src := rfl
          rw [hlive] at hcount hkeys
          rw [List.length_cons] at hcount
          rw [rehashLoop]
          have hmeets : (hashFind key probe h.elements h.hashSize (key a) fuel 0).Meets True False
              fun q => Found key probe h.elements h.hashSize (key a) q.1 q.2 :=
            hashFind_meets key probe hlen hpos (key a) fuel 0 (arrives_zero _ _ _ _)
          have hends : hashFind key probe h.elements h.hashSize (key a) fuel 0 ≠ .spin := by
            refine (hkeys a List.mem_cons_self).hashFind_ne_spin hlen hpos ?_ hfuel
            omega
          rcases hfind : hashFind key probe h.elements h.hashSize (key a) fuel 0 with
            ⟨index, status⟩ | _ | _ | _
          · rw [hfind] at hmeets
            obtain ⟨level, -, -, ⟨rfl, hempty⟩ | ⟨rfl, -⟩⟩ := hmeets
            · -- the entry is put into an empty slot
              obtain ⟨hperm, htombs⟩ := live_set_occupied hempty a
              refine ih (h := { h with elements := h.elements.set index (.occupied a) })
                (by simpa using hlen) hpos (htombs.trans hzero) ?_
                fun b hb => hkeys b (List.mem_cons_of_mem a hb)
              show (live src).length + (live (h.elements.set index _)).length ≤ n + 1
              rw [hperm.length_eq, List.length_cons]
              omega
            · simp
          · exact absurd hfind hends
          · simp
          · simp

/-- The part of `hash_add` that rehashes a table `h` without tombstones ends for entries whose keys
scatter in the larger table. -/
lemma rehashStep_ne_spin (hfuel : 2 ^ 64 ≤ fuel) {n : ℕ} (hpos : 0 < h.hashSize)
    (hload : (h.hashEntryCount - 1 + h.hashEntryRemovedCount) * rehashRate ≤ h.hashSize)
    (hcount : (live h.elements).length ≤ n + 1) (hzero : h.hashEntryRemovedCount = 0)
    (hkeys : ∀ a ∈ live h.elements,
      Scatters probe (findFirstPrime (h.hashSize * rehashRate)) n (key a)) :
    (do
      let size ← rehashSize h
      let (ret, h) ← rehash key probe fuel
        { h with hashSize := size, hashEntryRemovedCount := 0 } h.elements
      if ret ≠ .succeed then return (.failed, h) else return (.succeed, h.unlock) :
        Outcome (RetT × HashT α)) ≠ .spin := by
  have hcases := rehashSize_meets h
  refine Outcome.bind_ne_spin (fun hspin => ?_) fun size hsize => ?_
  · rw [hspin] at hcases
    exact hcases
  have hpos' := (rehashSize_load hpos hload hsize).1
  rw [hsize] at hcases
  obtain rfl : size = findFirstPrime (h.hashSize * rehashRate) := by
    rcases hcases with ⟨hlt, -⟩ | ⟨-, heq, -⟩
    · exact absurd (hzero ▸ hlt) (Nat.not_lt_zero _)
    · exact heq
  refine Outcome.bind_ne_spin (rehashLoop_ne_spin hfuel (by simp) hpos' (by simp) ?_ hkeys)
    fun q _ => ?_
  · rw [live_replicate_empty, List.length_nil, Nat.add_zero]
    exact hcount
  · dsimp only
    split <;> simp

/-- A call of `hash_add` ends when the keys scatter in the table as it is and as it may be made
larger. -/
lemma HashHolds.add_ne_spin {l : List α} (hh : HashHolds key probe l h) (hfuel : 2 ^ 64 ≤ fuel)
    {a : α} (hkeys : ∀ b ∈ l ++ [a], Scatters probe (grownSize l.length) l.length (key b) ∧
      Scatters probe (grownSize (l.length + 1)) l.length (key b)) :
    hashAdd key probe fuel h a ≠ .spin := by
  obtain ⟨m, hinv⟩ := hh.exists_inv
  have hsize : h.hashSize = grownSize l.length := by rw [hh.grown.size_eq, hh.count_eq]
  have hzero := hh.grown.removed_eq
  have hlive : (live h.elements).length = l.length := by rw [← hinv.count_eq, hh.count_eq]
  have hused : (live h.elements).length + tombs h.elements ≤ l.length := by
    rw [hlive, ← hinv.removed_eq, hzero, Nat.add_zero]
  have hfind : hashFind key probe h.elements h.hashSize (key a) fuel 0 ≠ .spin := by
    refine Scatters.hashFind_ne_spin ?_ hinv.length_eq hinv.size_pos hused hfuel
    rw [hsize]
    exact (hkeys a (by simp)).1
  rw [hashAdd, hinv.lock_eq, Outcome.ret_bind]
  refine Outcome.bind_ne_spin hfind ?_
  rintro ⟨index, status⟩ hret
  have hmeets : (hashFind key probe h.elements h.hashSize (key a) fuel 0).Meets True False
      fun q => Found key probe h.elements h.hashSize (key a) q.1 q.2 := hinv.find (key a) fuel
  rw [show hashFind key probe h.elements h.hashSize (key a) fuel 0 = _ from hret] at hmeets
  obtain ⟨n, -, -, ⟨rfl, hempty⟩ | ⟨rfl, -⟩⟩ := hmeets
  · obtain ⟨hperm, -⟩ := live_set_occupied hempty a
    have hcount : (live (h.elements.set index (.occupied a))).length ≤ l.length + 1 := by
      rw [hperm.length_eq, List.length_cons, hlive]
    simp only [ne_eq, not_true_eq_false, if_false]
    split
    · rename_i hfull
      rw [hzero, Nat.add_zero, hh.count_eq, hsize] at hfull
      refine rehashStep_ne_spin (h := { h with
        elements := h.elements.set index (.occupied a)
        hashEntryCount := h.hashEntryCount + 1
        hashRwlock := true }) hfuel hinv.size_pos hinv.load_le hcount hzero fun b hb => ?_
      -- this is the size of a table with one entry more
      have hgrown : findFirstPrime (h.hashSize * rehashRate) = grownSize (l.length + 1) := by
        rw [grownSize, grow, if_pos hfull, hsize]
      show Scatters probe (findFirstPrime (h.hashSize * rehashRate)) l.length (key b)
      rw [hgrown]
      refine (hkeys b ?_).2
      rw [← (hh.perm.append_right [a]).mem_iff]
      exact (List.perm_append_singleton a _).mem_iff.2 (hperm.mem_iff.1 hb)
    · simp
  · simp

end CheckQ
