import CheckQ.Mylib.Hash
import Mathlib.Logic.Function.Basic

/-!
# The hash table is a finite map

The abstract state of a table is a function that gives the entry stored under a key.
`HashInv` relates it to the table: the slots are sound for the probe sequences, the
two counters count the entries and the tombstones, the table is at most half full and
the rwlock is free.  Each operation keeps the relation and gives the result of the map
operation, for every `probe` and for every number of rounds of the probe loop that is
enough for it; the results for sequences of calls follow by data refinement.
-/

namespace CheckQ

open Probing

variable {α κ : Type}

/-- `find_first_prime` returns a number larger than its argument. -/
lemma lt_findFirstPrime {n : ℕ} (hn : 0 < n) : n < findFirstPrime n := by
  have loop : ∀ fuel m, m ≤ findFirstPrimeLoop fuel m := by
    intro fuel
    induction fuel with
    | zero => exact fun m => le_rfl
    | succ fuel ih =>
        intro m
        rw [findFirstPrimeLoop]
        split
        · omega
        · exact le_trans (Nat.le_succ m) (ih (m + 1))
  obtain ⟨k, rfl⟩ : ∃ k, n = k + 1 := ⟨n - 1, by omega⟩
  rw [findFirstPrime, findFirstPrimeLoop]
  split
  · omega
  · exact loop k (k + 1 + 1)

variable (key : α → κ) (probe : κ → UInt64 → UInt64)

/-! ### The invariant -/

/-- What a search that stops has found. -/
def Found (slots : List (Slot α)) (size : ℕ) (k : κ) (index : ℕ) (status : HashEntryStatus) :
    Prop :=
  ∃ n, slotSeq probe size k n = index ∧ Arrives key (slotSeq probe size) slots k n ∧
    ((status = .empty ∧ slots[index]? = some .empty) ∨
      (status = .occupied ∧ ∃ a, slots[index]? = some (.occupied a) ∧ key a = k))

/-- The table `h` represents the finite map `m`. -/
structure HashInv (m : κ → Option α) (h : HashT α) : Prop where
  length_eq : h.elements.length = h.hashSize
  size_pos : 0 < h.hashSize
  sound : Sound key (slotSeq probe h.hashSize) h.elements
  count_eq : h.hashEntryCount = (live h.elements).length
  removed_eq : h.hashEntryRemovedCount = tombs h.elements
  load_le : (h.hashEntryCount + h.hashEntryRemovedCount) * rehashRate ≤ h.hashSize
  unlocked : h.hashRwlock = false
  mem_iff : ∀ k a, m k = some a ↔ a ∈ live h.elements ∧ key a = k

variable {key probe} {m : κ → Option α} {h : HashT α}

lemma hashAlloc_inv : HashInv key probe (fun _ => none) (hashAlloc α) := by
  refine ⟨by simp [hashAlloc], ?_, Sound.replicate_empty _, by simp [hashAlloc],
    by simp [hashAlloc], by simp [hashAlloc], rfl, by simp [hashAlloc]⟩
  exact lt_of_le_of_lt (Nat.zero_le _) (lt_findFirstPrime (n := hashInitSize) (by decide))

namespace HashInv

/-- A search that ends in an empty slot is for a key the map does not have. -/
lemma eq_none_of_empty (hinv : HashInv key probe m h) {k : κ} {i : ℕ}
    (hf : Found key probe h.elements h.hashSize k i .empty) : m k = none := by
  obtain ⟨n, rfl, harr, ⟨-, hs⟩ | ⟨hst, -⟩⟩ := hf
  · rw [Option.eq_none_iff_forall_ne_some]
    intro a ha
    obtain ⟨hmem, hk⟩ := (hinv.mem_iff k a).1 ha
    exact hinv.sound.key_ne_of_empty harr hs a hmem hk
  · exact absurd hst (by simp)

/-- A search that ends in an occupied slot has found the entry of the map. -/
lemma eq_some_of_occupied (hinv : HashInv key probe m h) {k : κ} {i : ℕ}
    (hf : Found key probe h.elements h.hashSize k i .occupied) :
    ∃ a, h.elements[i]? = some (.occupied a) ∧ m k = some a := by
  obtain ⟨n, -, -, ⟨hst, -⟩ | ⟨-, a, hs, hk⟩⟩ := hf
  · exact absurd hst (by simp)
  · exact ⟨a, hs, (hinv.mem_iff k a).2 ⟨mem_live.2 ⟨i, hs⟩, hk⟩⟩

lemma status_cases {slots : List (Slot α)} {size : ℕ} {k : κ} {i : ℕ} {st : HashEntryStatus}
    (hf : Found key probe slots size k i st) : st = .empty ∨ st = .occupied := by
  obtain ⟨n, -, -, ⟨hst, -⟩ | ⟨hst, -⟩⟩ := hf
  · exact Or.inl hst
  · exact Or.inr hst

lemma lock_eq (hinv : HashInv key probe m h) :
    h.lock = .ret { h with hashRwlock := true } := by
  simp [HashT.lock, hinv.unlocked]

lemma unlock_eq (hinv : HashInv key probe m h) :
    HashT.unlock { h with hashRwlock := true } = h := by
  simp [HashT.unlock, ← hinv.unlocked]

/-- A map is determined by the entries of its table. -/
lemma congr_map {m' : κ → Option α} (hinv : HashInv key probe m h) (hm : ∀ k, m' k = m k) :
    HashInv key probe m' h := by
  rwa [show m' = m from funext hm]

end HashInv

/-! ### The search -/

variable [DecidableEq κ] {ab : Prop}

/-- The probe loop, entered at a level the search has arrived at. -/
lemma hashFind_meets (key : α → κ) (probe : κ → UInt64 → UInt64)
    {slots : List (Slot α)} {size : ℕ} (hsize : slots.length = size)
    (hpos : 0 < size) (k : κ) (fuel level : ℕ)
    (harr : Arrives key (slotSeq probe size) slots k level) :
    (hashFind key probe slots size k fuel level).Meets True ab fun q =>
      Found key probe slots size k q.1 q.2 := by
  induction fuel generalizing level with
  | zero => trivial
  | succ fuel ih =>
      have hlt : slotSeq probe size k level < slots.length := by
        rw [hsize]
        exact Nat.mod_lt _ hpos
      have hget := List.getElem?_eq_getElem hlt
      rw [hashFind]
      simp only [hget]
      rcases hs : slots[slotSeq probe size k level] with _ | a | _
      · rw [hs] at hget
        exact ⟨level, rfl, harr, Or.inl ⟨rfl, hget⟩⟩
      · rw [hs] at hget
        by_cases hk : key a = k
        · simp only [hk, if_true]
          exact ⟨level, rfl, harr, Or.inr ⟨rfl, a, hget, hk⟩⟩
        · simp only [hk, if_false]
          exact ih (level + 1) (harr.succ key _ hget hk)
      · rw [hs] at hget
        exact ih (level + 1) (harr.succ key _ hget trivial)

lemma HashInv.find (hinv : HashInv key probe m h) (k : κ) (fuel : ℕ) :
    (hashFind key probe h.elements h.hashSize k fuel 0).Meets True ab fun q =>
      Found key probe h.elements h.hashSize k q.1 q.2 :=
  hashFind_meets key probe hinv.length_eq hinv.size_pos k fuel 0 (arrives_zero _ _ _ _)

/-! ### Adding an entry -/

/-- The map that an added entry gives. -/
lemma mem_iff_update {m : κ → Option α} {l l' : List α} {a : α}
    (hmem : ∀ k b, m k = some b ↔ b ∈ l ∧ key b = k) (hperm : l'.Perm (a :: l))
    (hnone : m (key a) = none) (k : κ) (b : α) :
    Function.update m (key a) (some a) k = some b ↔ b ∈ l' ∧ key b = k := by
  rw [hperm.mem_iff, List.mem_cons]
  by_cases hk : k = key a
  · subst hk
    rw [Function.update_self, Option.some.injEq]
    constructor
    · rintro rfl
      exact ⟨Or.inl rfl, rfl⟩
    · rintro ⟨rfl | hb, hkb⟩
      · rfl
      · have := (hmem (key a) b).2 ⟨hb, hkb⟩
        rw [hnone] at this
        exact absurd this (by simp)
  · rw [Function.update_of_ne hk, hmem]
    constructor
    · rintro ⟨hb, hkb⟩
      exact ⟨Or.inr hb, hkb⟩
    · rintro ⟨rfl | hb, hkb⟩
      · exact absurd hkb.symm hk
      · exact ⟨hb, hkb⟩

/-- The loop of `rehash`: it enters every entry of the old block into the new one and
finds none of them there. -/
lemma rehashLoop_meets (fuel : ℕ) (src : List (Slot α)) (h : HashT α)
    (hlen : h.elements.length = h.hashSize) (hpos : 0 < h.hashSize)
    (hsound : Sound key (slotSeq probe h.hashSize) h.elements)
    (hnodup : ((live src).map key).Nodup)
    (hdisj : ∀ a ∈ live src, ∀ b ∈ live h.elements, key b ≠ key a) :
    (rehashLoop key probe fuel src h).Meets True ab fun q =>
      q.1 = .succeed ∧ ∃ els, q.2 = { h with elements := els } ∧ els.length = h.hashSize ∧
        Sound key (slotSeq probe h.hashSize) els ∧
        (live els).Perm (live src ++ live h.elements) ∧ tombs els = tombs h.elements := by
  induction src generalizing h with
  | nil => exact ⟨rfl, h.elements, rfl, hlen, hsound, by simp [live], rfl⟩
  | cons s src ih =>
      cases s with
      | empty => exact ih h hlen hpos hsound hnodup hdisj
      | removed => exact ih h hlen hpos hsound hnodup hdisj
      | occupied a =>
          have hlive : live (Slot.occupied a :: src) = a :: live src := rfl
          rw [hlive] at hnodup hdisj ⊢
          rw [List.map_cons, List.nodup_cons] at hnodup
          rw [rehashLoop]
          refine (hashFind_meets key probe hlen hpos (key a) fuel 0
            (arrives_zero _ _ _ _)).bind ?_
          rintro ⟨index, status⟩ ⟨n, rfl, harr, ⟨rfl, hs⟩ | ⟨-, b, hs, hk⟩⟩
          · obtain ⟨hperm, htombs⟩ := live_set_occupied hs a
            -- the entry just entered has another key than those still to come
            have hdisj' : ∀ c ∈ live src, ∀ b ∈ live (h.elements.set
                (slotSeq probe h.hashSize (key a) n) (.occupied a)), key b ≠ key c := by
              intro c hc b hb
              rcases List.mem_cons.1 (hperm.mem_iff.1 hb) with rfl | hb
              · intro heq
                exact hnodup.1 (heq ▸ List.mem_map_of_mem hc)
              · exact hdisj c (List.mem_cons_of_mem a hc) b hb
            have hrest := ih { h with elements := h.elements.set _ (.occupied a) }
              (by simpa using hlen) hpos (hsound.insert harr hs) hnodup.2 hdisj'
            simp only [ne_eq, not_true_eq_false, if_false]
            refine hrest.mono id ?_
            rintro ⟨r, h'⟩ ⟨hr, els, rfl, hl, hso, hp, ht⟩
            refine ⟨hr, els, rfl, hl, hso, ?_, ht.trans htombs⟩
            exact (hp.trans (hperm.append_left _)).trans List.perm_middle
          · exact absurd hk (hdisj a (by simp) b (mem_live.2 ⟨_, hs⟩))

/-- The number of slots that are not empty. -/
def HashT.used (h : HashT α) : ℕ := h.hashEntryCount + h.hashEntryRemovedCount

/-- `rehash` enters the entries of a sound table into a block of another size; it reports
no duplicate, it loses no entry and it leaves the tombstones behind. -/
lemma rehash_meets (fuel : ℕ) {src : List (Slot α)} {size : ℕ}
    (hsound : Sound key (slotSeq probe size) src) (hpos : 0 < h.hashSize)
    (hcount : h.hashEntryCount = (live src).length) (hzero : h.hashEntryRemovedCount = 0)
    (hload : h.hashEntryCount * rehashRate ≤ h.hashSize)
    (hmem : ∀ k a, m k = some a ↔ a ∈ live src ∧ key a = k) :
    (rehash key probe fuel h src).Meets True ab fun q =>
      q.1 = .succeed ∧ HashInv key probe m q.2.unlock ∧ ∃ els, q.2 = { h with elements := els } := by
  refine (rehashLoop_meets fuel src { h with elements := List.replicate h.hashSize .empty }
    (by simp) hpos (Sound.replicate_empty _) hsound.nodup_keys (by simp)).mono id ?_
  rintro ⟨r, h'⟩ ⟨hr, els, rfl, hl, hso, hp, ht⟩
  rw [live_replicate_empty, List.append_nil] at hp
  rw [tombs_replicate_empty] at ht
  refine ⟨hr, ⟨hl, hpos, hso, hcount.trans hp.length_eq.symm, hzero.trans ht.symm, ?_, rfl, ?_⟩,
    els, rfl⟩
  · simpa [HashT.unlock, hzero] using hload
  · intro k a
    rw [hmem, ← hp.mem_iff]
    rfl

/-- What `hash_add` does to a map. -/
def AddSpec (key : α → κ) (m : κ → Option α) (entry : α) (r : RetT) (m' : κ → Option α) : Prop :=
  if (m (key entry)).isSome then r = .failed ∧ m' = m
  else r = .succeed ∧ m' = Function.update m (key entry) (some entry)

/-- The number of slots of a table without tombstones after it has got its `n`-th entry. -/
def grow (size n : ℕ) : ℕ :=
  if n * rehashRate > size then findFirstPrime (size * rehashRate) else size

/-- What `hash_add` does to the counters. -/
def SizeSpec (h : HashT α) (r : RetT) (h' : HashT α) : Prop :=
  match r with
  | .failed => h'.hashSize = h.hashSize ∧ h'.hashEntryCount = h.hashEntryCount ∧
      h'.hashEntryRemovedCount = h.hashEntryRemovedCount
  | .succeed => h'.hashEntryCount = h.hashEntryCount + 1 ∧
      h'.hashEntryRemovedCount ≤ h.hashEntryRemovedCount ∧
      (h.hashEntryRemovedCount = 0 → h'.hashSize = grow h.hashSize h'.hashEntryCount ∧
        (h.hashSize < h'.hashEntryCount * rehashRate → h.hashSize * rehashRate ≤ intMax))

omit [DecidableEq κ] in
/-- The number of slots that a table is rehashed into. -/
lemma rehashSize_meets (h : HashT α) :
    (rehashSize h).Meets False (intMax < h.hashSize * rehashRate) fun size =>
      (h.hashEntryCount < h.hashEntryRemovedCount ∧ size = h.hashSize) ∨
        (h.hashEntryRemovedCount ≤ h.hashEntryCount ∧
          size = findFirstPrime (h.hashSize * rehashRate) ∧ h.hashSize * rehashRate ≤ intMax) := by
  rw [rehashSize]
  split
  · rename_i hlt
    exact Or.inl ⟨hlt, rfl⟩
  · rename_i hle
    split
    · rename_i hmax
      exact Or.inr ⟨Nat.le_of_not_lt hle, rfl, hmax⟩
    · rename_i hmax
      exact Nat.lt_of_not_le hmax

omit [DecidableEq κ] in
/-- The new block is at most half full when all entries are in it. -/
lemma rehashSize_load {h : HashT α} {size : ℕ} (hpos : 0 < h.hashSize)
    (hload : (h.hashEntryCount - 1 + h.hashEntryRemovedCount) * rehashRate ≤ h.hashSize)
    (hsize : rehashSize h = .ret size) : 0 < size ∧ h.hashEntryCount * rehashRate ≤ size := by
  have hmeets := rehashSize_meets h
  rw [hsize] at hmeets
  rcases hmeets with ⟨hlt, rfl⟩ | ⟨-, rfl, -⟩
  · simp only [rehashRate] at *
    omega
  · have hgt := lt_findFirstPrime (n := h.hashSize * rehashRate) (Nat.mul_pos hpos (by decide))
    simp only [rehashRate] at *
    omega

/-- The part of `hash_add` that rehashes a table `h` in which too many slots are in use. -/
lemma rehashStep_meets (fuel : ℕ) (hpos : 0 < h.hashSize)
    (hload : (h.hashEntryCount - 1 + h.hashEntryRemovedCount) * rehashRate ≤ h.hashSize)
    (hsound : Sound key (slotSeq probe h.hashSize) h.elements)
    (hcount : h.hashEntryCount = (live h.elements).length)
    (hmem : ∀ k a, m k = some a ↔ a ∈ live h.elements ∧ key a = k) :
    (do
      let size ← rehashSize h
      let (ret, h) ← rehash key probe fuel
        { h with hashSize := size, hashEntryRemovedCount := 0 } h.elements
      if ret ≠ .succeed then return (.failed, h) else return (.succeed, h.unlock) :
        Outcome (RetT × HashT α)).Meets True (intMax < h.hashSize * rehashRate) fun q =>
      q.1 = .succeed ∧ HashInv key probe m q.2 ∧ q.2.hashEntryCount = h.hashEntryCount ∧
        q.2.hashEntryRemovedCount = 0 ∧ (h.hashEntryRemovedCount ≤ h.hashEntryCount →
          q.2.hashSize = findFirstPrime (h.hashSize * rehashRate) ∧
            h.hashSize * rehashRate ≤ intMax) := by
  have hcases := rehashSize_meets h
  rcases hsize : rehashSize h with size | _ | _ | _ <;> rw [hsize] at hcases
  · obtain ⟨hpos', hload'⟩ := rehashSize_load hpos hload hsize
    rw [Outcome.ret_bind]
    refine (rehash_meets (h := { h with hashSize := size, hashEntryRemovedCount := 0 }) fuel hsound
      hpos' hcount rfl hload' hmem).bind ?_
    rintro ⟨r, h'⟩ ⟨rfl, hinv, els, rfl⟩
    refine ⟨rfl, hinv, rfl, rfl, fun hle => ?_⟩
    rcases hcases with ⟨hlt, -⟩ | ⟨-, heq, hmax⟩
    · exact absurd hlt (Nat.not_lt_of_le hle)
    · exact ⟨heq, hmax⟩
  · exact hcases.elim
  · exact hcases
  · exact hcases.elim

lemma hashAdd_meets_size (hinv : HashInv key probe m h) (fuel : ℕ) (entry : α) :
    (hashAdd key probe fuel h entry).Meets True
      (h.hashSize < (h.used + 1) * rehashRate ∧ intMax < h.hashSize * rehashRate) fun q =>
        (∃ m', AddSpec key m entry q.1 m' ∧ HashInv key probe m' q.2) ∧ SizeSpec h q.1 q.2 := by
  rw [hashAdd, hinv.lock_eq, Outcome.ret_bind]
  refine (hinv.find (key entry) fuel).bind ?_
  rintro ⟨index, status⟩ hf
  rcases HashInv.status_cases hf with rfl | rfl
  · -- the key is new: its slot is filled
    have hnone := hinv.eq_none_of_empty hf
    obtain ⟨n, rfl, harr, ⟨-, hs⟩ | ⟨hst, -⟩⟩ := hf
    swap
    · exact absurd hst (by simp)
    obtain ⟨hperm, htombs⟩ := live_set_occupied hs entry
    have hsound := hinv.sound.insert harr hs
    have hcount : (live (h.elements.set (slotSeq probe h.hashSize (key entry) n)
        (.occupied entry))).length = h.hashEntryCount + 1 := by
      rw [hperm.length_eq, List.length_cons, hinv.count_eq]
    have hspec : AddSpec key m entry .succeed (Function.update m (key entry) (some entry)) := by
      simp [AddSpec, hnone]
    have hmem := mem_iff_update hinv.mem_iff hperm hnone
    simp only [ne_eq, not_true_eq_false, if_false]
    split
    · rename_i hload
      have hused : h.hashEntryCount + 1 + h.hashEntryRemovedCount = h.used + 1 := by
        rw [HashT.used]
        omega
      refine (rehashStep_meets (h := { h with
        elements := h.elements.set (slotSeq probe h.hashSize (key entry) n) (.occupied entry)
        hashEntryCount := h.hashEntryCount + 1
        hashRwlock := true }) fuel hinv.size_pos hinv.load_le hsound hcount.symm hmem).mono ?_ ?_
      · exact fun hmax => ⟨hused ▸ hload, hmax⟩
      · rintro ⟨r, h'⟩ ⟨rfl, hinv', hcount', hzero', hsize⟩
        refine ⟨⟨_, hspec, hinv'⟩, hcount', hzero'.le.trans (Nat.zero_le _), fun hzero => ?_⟩
        obtain ⟨hsz, hmax⟩ := hsize (hzero.le.trans (Nat.zero_le _))
        rw [hzero, Nat.add_zero] at hload
        simp only at hcount' hsz
        rw [hcount', grow, if_pos hload]
        exact ⟨hsz, fun _ => hmax⟩
    · rename_i hload
      refine ⟨⟨_, hspec, by simpa [HashT.unlock] using hinv.length_eq, hinv.size_pos, hsound,
        hcount.symm, htombs.symm ▸ hinv.removed_eq, Nat.le_of_not_lt hload, rfl, hmem⟩, rfl, le_rfl,
        fun hzero => ?_⟩
      rw [hzero, Nat.add_zero] at hload
      exact ⟨(if_neg hload).symm, fun hgt => absurd hgt hload⟩
  · -- the key is there: the table is left as it is
    obtain ⟨a, -, hm⟩ := hinv.eq_some_of_occupied hf
    refine ⟨⟨m, by simp [AddSpec, hm], ?_⟩, rfl, rfl, rfl⟩
    exact ⟨hinv.length_eq, hinv.size_pos, hinv.sound, hinv.count_eq, hinv.removed_eq,
      hinv.load_le, rfl, hinv.mem_iff⟩

/-- What `hash_add` does to the map and to the number of slots in use. -/
lemma hashAdd_meets (hinv : HashInv key probe m h) (fuel : ℕ) (entry : α) :
    (hashAdd key probe fuel h entry).Meets True (2 ^ 29 ≤ h.used + 1) fun q =>
      (∃ m', AddSpec key m entry q.1 m' ∧ HashInv key probe m' q.2) ∧ q.2.used ≤ h.used + 1 := by
  refine (hashAdd_meets_size hinv fuel entry).mono ?_ ?_
  · rintro ⟨hload, hmax⟩
    simp only [rehashRate, intMax] at *
    omega
  · rintro ⟨r, h'⟩ ⟨hmap, hsize⟩
    refine ⟨hmap, ?_⟩
    cases r with
    | succeed =>
        obtain ⟨hcount, hremoved, -⟩ := hsize
        simp only [HashT.used] at *
        omega
    | failed =>
        obtain ⟨-, hcount, hremoved⟩ := hsize
        simp only [HashT.used] at *
        omega

/-! ### The other operations -/

lemma hashGet_meets (hinv : HashInv key probe m h) (fuel : ℕ) (k : κ) :
    (hashGet key probe fuel h k).Meets True ab fun q => q = (m k, h) := by
  rw [hashGet, hinv.lock_eq, Outcome.ret_bind]
  refine (hinv.find k fuel).bind ?_
  rintro ⟨index, status⟩ hf
  rcases HashInv.status_cases hf with rfl | rfl
  · simp [hinv.unlock_eq, hinv.eq_none_of_empty hf]
  · obtain ⟨a, hs, hm⟩ := hinv.eq_some_of_occupied hf
    simp [hinv.unlock_eq, hs, hm, Slot.elem?]

/-- The map that a removed entry leaves. -/
lemma mem_iff_erase {l l' : List α} {a : α} (hmem : ∀ k b, m k = some b ↔ b ∈ l ∧ key b = k)
    (hperm : l.Perm (a :: l')) (hnodup : (l.map key).Nodup) (k : κ) (b : α) :
    Function.update m (key a) none k = some b ↔ b ∈ l' ∧ key b = k := by
  have hnotin : key a ∉ l'.map key := by
    have := (hperm.map key).nodup_iff.1 hnodup
    exact (List.nodup_cons.1 this).1
  by_cases hk : k = key a
  · subst hk
    simp only [Function.update_self, reduceCtorEq, false_iff, not_and]
    intro hb hkb
    exact hnotin (hkb ▸ List.mem_map_of_mem hb)
  · rw [Function.update_of_ne hk, hmem, hperm.mem_iff, List.mem_cons]
    constructor
    · rintro ⟨rfl | hb, hkb⟩
      · exact absurd hkb.symm hk
      · exact ⟨hb, hkb⟩
    · rintro ⟨hb, hkb⟩
      exact ⟨Or.inr hb, hkb⟩

lemma hashRemove_meets (hinv : HashInv key probe m h) (fuel : ℕ) (k : κ) :
    (hashRemove key probe fuel h k).Meets True ab fun q =>
      q.1 = .succeed ∧ HashInv key probe (Function.update m k none) q.2 ∧ q.2.used = h.used := by
  rw [hashRemove, hinv.lock_eq, Outcome.ret_bind]
  refine (hinv.find k fuel).bind ?_
  rintro ⟨index, status⟩ hf
  rcases HashInv.status_cases hf with rfl | rfl
  · have hsame : ∀ k', Function.update m k none k' = m k' := by
      intro k'
      rw [← hinv.eq_none_of_empty hf, Function.update_eq_self]
    have hcopy : HashInv key probe m (HashT.unlock { h with hashRwlock := true }) :=
      ⟨hinv.length_eq, hinv.size_pos, hinv.sound, hinv.count_eq, hinv.removed_eq, hinv.load_le,
        rfl, hinv.mem_iff⟩
    exact ⟨rfl, hcopy.congr_map hsame, rfl⟩
  · obtain ⟨n, -, -, ⟨hst, -⟩ | ⟨-, a, hs, hk⟩⟩ := hf
    · exact absurd hst (by simp)
    obtain ⟨hperm, htombs⟩ := live_set_removed hs
    have hcount : h.hashEntryCount = (live (h.elements.set index .removed)).length + 1 := by
      rw [hinv.count_eq, hperm.length_eq, List.length_cons]
    have hrem := hinv.removed_eq
    have hload := hinv.load_le
    refine ⟨rfl, ⟨by simpa [HashT.unlock] using hinv.length_eq, hinv.size_pos,
      hinv.sound.remove hs, ?_, ?_, ?_, rfl, ?_⟩, ?_⟩
    · simp only [HashT.unlock]
      omega
    · simp only [HashT.unlock, htombs]
      omega
    · simp only [HashT.unlock, rehashRate] at *
      omega
    · subst hk
      exact mem_iff_erase hinv.mem_iff hperm hinv.sound.nodup_keys
    · simp only [HashT.unlock, HashT.used]
      omega

omit [DecidableEq κ] in
/-- The block of `hash_get_entries` and `hash_get_keys` has room for every entry. -/
lemma hashCollect_eq {β : Type} (hinv : HashInv key probe m h) (f : α → β) :
    hashCollect f h = .ret (((live h.elements).map f, ((live h.elements).map f).length), h) := by
  have hcount : h.hashEntryCount = ((live h.elements).map f).length := by
    rw [List.length_map, hinv.count_eq]
  rw [hashCollect, hinv.lock_eq, Outcome.ret_bind]
  simp only [hinv.unlock_eq]
  rw [if_neg (by omega), hcount, Outcome.pure_eq]

omit [DecidableEq κ] in
/-- The entries of a map, each of them once. -/
lemma HashInv.entries (hinv : HashInv key probe m h) :
    (live h.elements).Nodup ∧ ∀ a, a ∈ live h.elements ↔ m (key a) = some a := by
  refine ⟨hinv.sound.nodup_keys.of_map key, fun a => ?_⟩
  rw [hinv.mem_iff]
  exact ⟨fun ha => ⟨ha, rfl⟩, And.left⟩

omit [DecidableEq κ] in
/-- Two tables of the same map have the same entries. -/
lemma HashInv.live_perm {h' : HashT α} (hinv : HashInv key probe m h)
    (hinv' : HashInv key probe m h') : (live h'.elements).Perm (live h.elements) := by
  rw [List.perm_ext_iff_of_nodup hinv'.entries.1 hinv.entries.1]
  intro b
  rw [hinv'.entries.2, hinv.entries.2]

/-- A table of the map with one entry more has one entry more. -/
lemma HashInv.live_perm_update {h' : HashT α} {a : α} (hinv : HashInv key probe m h)
    (hnone : m (key a) = none)
    (hinv' : HashInv key probe (Function.update m (key a) (some a)) h') :
    (live h'.elements).Perm (a :: live h.elements) := by
  have hnotin : a ∉ live h.elements := by
    intro hmem
    rw [hinv.entries.2, hnone] at hmem
    simp at hmem
  rw [List.perm_ext_iff_of_nodup hinv'.entries.1 (hinv.entries.1.cons hnotin)]
  intro b
  rw [hinv'.entries.2, List.mem_cons, hinv.entries.2]
  by_cases hb : key b = key a
  · rw [hb, Function.update_self, Option.some.injEq, hnone]
    simp [eq_comm]
  · rw [Function.update_of_ne hb]
    constructor
    · exact Or.inr
    · rintro (rfl | hm)
      · exact absurd rfl hb
      · exact hm

omit [DecidableEq κ] in
/-- The keys of a map, each of them once. -/
lemma HashInv.keys (hinv : HashInv key probe m h) :
    ((live h.elements).map key).Nodup ∧
      ∀ k, k ∈ (live h.elements).map key ↔ (m k).isSome := by
  refine ⟨hinv.sound.nodup_keys, fun k => ?_⟩
  rw [List.mem_map, Option.isSome_iff_exists]
  constructor
  · rintro ⟨a, ha, hk⟩
    exact ⟨a, (hinv.mem_iff k a).2 ⟨ha, hk⟩⟩
  · rintro ⟨a, ha⟩
    exact ⟨a, (hinv.mem_iff k a).1 ha⟩

/-! ### Tables that only grow -/

/-- The number of slots of a table that has got `n` entries and lost none. -/
def grownSize : ℕ → ℕ
  | 0 => findFirstPrime hashInitSize
  | n + 1 => grow (grownSize n) (n + 1)

/-- The entry after the first `n` ones does not make such a table larger than an `int` can say. -/
def Fits (n : ℕ) : Prop :=
  grownSize n < (n + 1) * rehashRate → grownSize n * rehashRate ≤ intMax

/-- The table has got all its entries by `hash_add` and has lost none. -/
structure Grown (h : HashT α) : Prop where
  removed_eq : h.hashEntryRemovedCount = 0
  size_eq : h.hashSize = grownSize h.hashEntryCount
  fits : ∀ i < h.hashEntryCount, Fits i

lemma hashAlloc_grown : Grown (hashAlloc α) :=
  ⟨rfl, rfl, fun _ hi => absurd hi (Nat.not_lt_zero _)⟩

/-- The first probe into a new table ends the search, whatever it is. -/
lemma hashAdd_hashAlloc {fuel : ℕ} (hfuel : 0 < fuel) (entry : α) :
    ∃ h', hashAdd key probe fuel (hashAlloc α) entry = .ret (.succeed, h') := by
  obtain ⟨fuel, rfl⟩ := Nat.exists_eq_succ_of_ne_zero hfuel.ne'
  have hsize : (hashAlloc α).hashSize = 11 := by
    show findFirstPrime hashInitSize = 11
    decide +kernel
  have hslot : (hashAlloc α).elements[slotSeq probe (hashAlloc α).hashSize (key entry) 0]?
      = some .empty :=
    List.getElem?_replicate_of_lt (Nat.mod_lt _ (by rw [hsize]; decide))
  have hfind : hashFind key probe (hashAlloc α).elements (hashAlloc α).hashSize (key entry)
      fuel.succ 0 = .ret (slotSeq probe (hashAlloc α).hashSize (key entry) 0, .empty) := by
    rw [hashFind, hslot]
  -- one entry is no load
  have hload : ¬ ((hashAlloc α).hashEntryCount + 1 + (hashAlloc α).hashEntryRemovedCount) *
      rehashRate > (hashAlloc α).hashSize := by
    rw [hsize]
    show ¬ (0 + 1 + 0) * rehashRate > 11
    decide
  rw [hashAdd, (hashAlloc_inv : HashInv key probe _ (hashAlloc α)).lock_eq, Outcome.ret_bind]
  simp only [hfind, Outcome.ret_bind, ne_eq, not_true_eq_false, if_false, if_neg hload]
  exact ⟨_, rfl⟩

/-- Whether `hash_add` stops the process depends on the number of entries alone. -/
lemma hashAdd_grown (hinv : HashInv key probe m h) (hg : Grown h) (fuel : ℕ) (entry : α) :
    (hashAdd key probe fuel h entry).Meets True (¬ Fits h.hashEntryCount) fun q =>
      (∃ m', AddSpec key m entry q.1 m' ∧ HashInv key probe m' q.2) ∧ Grown q.2 := by
  refine (hashAdd_meets_size hinv fuel entry).mono ?_ ?_
  · rintro ⟨hload, hmax⟩ hfits
    rw [HashT.used, hg.removed_eq, Nat.add_zero, hg.size_eq] at hload
    rw [hg.size_eq] at hmax
    exact absurd (hfits hload) (Nat.not_le_of_lt hmax)
  · rintro ⟨r, h'⟩ ⟨hmap, hsize⟩
    refine ⟨hmap, ?_⟩
    cases r with
    | succeed =>
        obtain ⟨hcount, hremoved, hgrow⟩ := hsize
        simp only at hcount hremoved hgrow
        obtain ⟨hsz, hfits⟩ := hgrow hg.removed_eq
        rw [hcount, hg.size_eq] at hsz hfits
        refine ⟨Nat.le_zero.1 (hg.removed_eq ▸ hremoved), by rw [hsz, hcount]; rfl, ?_⟩
        intro i hi
        rcases Nat.lt_succ_iff_lt_or_eq.1 (hcount ▸ hi) with hlt | rfl
        · exact hg.fits i hlt
        · exact hfits
    | failed =>
        obtain ⟨hsz, hcount, hremoved⟩ := hsize
        simp only at hsz hcount hremoved
        refine ⟨hremoved.trans hg.removed_eq, ?_, ?_⟩
        · rw [hsz, hcount, hg.size_eq]
        · rw [hcount]
          exact hg.fits

/-- A table that does not fit has very many entries. -/
lemma le_of_not_fits {n : ℕ} (h : ¬ Fits n) : 2 ^ 29 ≤ n + 1 := by
  rw [Fits, Classical.not_imp] at h
  simp only [rehashRate, intMax] at h
  omega

/-- The table has got the entries `l` by `hash_add` and has lost none. -/
structure HashHolds (key : α → κ) (probe : κ → UInt64 → UInt64) (l : List α) (h : HashT α) :
    Prop where
  exists_inv : ∃ m, HashInv key probe m h
  grown : Grown h
  perm : (live h.elements).Perm l

namespace HashHolds

variable {l : List α}

omit [DecidableEq κ] in
lemma alloc : HashHolds key probe [] (hashAlloc α) :=
  ⟨⟨_, hashAlloc_inv⟩, hashAlloc_grown, by simp [hashAlloc]⟩

omit [DecidableEq κ] in
lemma count_eq (hh : HashHolds key probe l h) : h.hashEntryCount = l.length := by
  obtain ⟨m, hinv⟩ := hh.exists_inv
  rw [hinv.count_eq, hh.perm.length_eq]

omit [DecidableEq κ] in
lemma fits (hh : HashHolds key probe l h) {i : ℕ} (hi : i < l.length) : Fits i :=
  hh.grown.fits i (hh.count_eq ▸ hi)

omit [DecidableEq κ] in
lemma nodup_keys (hh : HashHolds key probe l h) : (l.map key).Nodup := by
  obtain ⟨m, hinv⟩ := hh.exists_inv
  exact (hh.perm.map key).nodup_iff.1 hinv.keys.1

/-- `hash_add` adds an entry with a new key and refuses every other one. -/
lemma add (hh : HashHolds key probe l h) (fuel : ℕ) (a : α) :
    (hashAdd key probe fuel h a).Meets True (¬ Fits l.length) fun q =>
      (q.1 = .succeed ∧ key a ∉ l.map key ∧ HashHolds key probe (l ++ [a]) q.2) ∨
        (q.1 = .failed ∧ key a ∈ l.map key ∧ HashHolds key probe l q.2) := by
  obtain ⟨m, hinv⟩ := hh.exists_inv
  have hkey : key a ∈ l.map key ↔ (m (key a)).isSome := by
    rw [← hinv.keys.2, (hh.perm.map key).mem_iff]
  have hadd := hashAdd_grown hinv hh.grown fuel a
  rw [hh.count_eq] at hadd
  refine hadd.mono id ?_
  rintro ⟨r, h'⟩ ⟨⟨m', hspec, hinv'⟩, hg⟩
  rw [AddSpec] at hspec
  split at hspec
  · rename_i hsome
    obtain ⟨rfl, rfl⟩ := hspec
    exact Or.inr ⟨rfl, hkey.2 hsome, ⟨_, hinv'⟩, hg, (hinv.live_perm hinv').trans hh.perm⟩
  · rename_i hnone
    obtain ⟨rfl, rfl⟩ := hspec
    refine Or.inl ⟨rfl, fun hmem => hnone (hkey.1 hmem), ⟨_, hinv'⟩, hg, ?_⟩
    rw [Option.not_isSome_iff_eq_none] at hnone
    exact (hinv.live_perm_update hnone hinv').trans
      ((hh.perm.cons a).trans (List.perm_append_singleton a l).symm)

omit [DecidableEq κ] in
/-- `hash_get_entries` lists the entries. -/
lemma getEntries (hh : HashHolds key probe l h) :
    ∃ es, hashGetEntries h = .ret ((es, es.length), h) ∧ es.Perm l := by
  obtain ⟨m, hinv⟩ := hh.exists_inv
  refine ⟨live h.elements, ?_, hh.perm⟩
  rw [hashGetEntries, hashCollect_eq hinv, List.map_id]

end HashHolds

/-! ### Sequences of calls -/

/-- A call on a table. -/
inductive HashOp (α κ : Type) where
  | add (entry : α)
  | remove (k : κ)
  | get (k : κ)
  | getEntries
  | getKeys
deriving DecidableEq, Repr

/-- What a call returns.  A list comes with the number written to `*number`. -/
inductive HashRes (α κ : Type) where
  | status (r : RetT)
  | entry (e : Option α)
  | entries (l : List α) (number : ℕ)
  | keys (l : List κ) (number : ℕ)
deriving DecidableEq, Repr

/-- One call on a table, with `fuel` rounds for each probe loop. -/
def hashStep (key : α → κ) (probe : κ → UInt64 → UInt64) (fuel : ℕ) :
    HashOp α κ → HashT α → Outcome (HashRes α κ × HashT α)
  | .add entry, h => do
      let (r, h) ← hashAdd key probe fuel h entry
      return (.status r, h)
  | .remove k, h => do
      let (r, h) ← hashRemove key probe fuel h k
      return (.status r, h)
  | .get k, h => do
      let (e, h) ← hashGet key probe fuel h k
      return (.entry e, h)
  | .getEntries, h => do
      let ((l, number), h) ← hashGetEntries h
      return (.entries l number, h)
  | .getKeys, h => do
      let ((l, number), h) ← hashGetKeys key h
      return (.keys l number, h)

/-- The finite map from keys to entries. -/
def MapSpec (key : α → κ) (m : κ → Option α) :
    HashOp α κ → HashRes α κ → (κ → Option α) → Prop
  | .add entry, r, m' => ∃ ret, r = .status ret ∧ AddSpec key m entry ret m'
  | .remove k, r, m' => r = .status .succeed ∧ m' = Function.update m k none
  | .get k, r, m' => r = .entry (m k) ∧ m' = m
  | .getEntries, r, m' => ∃ l, r = .entries l l.length ∧
      (l.Nodup ∧ ∀ a, a ∈ l ↔ m (key a) = some a) ∧ m' = m
  | .getKeys, r, m' => ∃ l, r = .keys l l.length ∧
      (l.Nodup ∧ ∀ k, k ∈ l ↔ (m k).isSome) ∧ m' = m

/-- One call simulates the map operation. -/
lemma hashStep_meets (fuel : ℕ) (op : HashOp α κ) (hinv : HashInv key probe m h) :
    (hashStep key probe fuel op h).Meets True (2 ^ 29 ≤ h.used + 1) fun q =>
      (∃ m', MapSpec key m op q.1 m' ∧ HashInv key probe m' q.2) ∧ q.2.used ≤ h.used + 1 := by
  cases op with
  | add entry =>
      refine (hashAdd_meets hinv fuel entry).bind ?_
      rintro ⟨r, h'⟩ ⟨⟨m', hspec, hinv'⟩, hused⟩
      exact ⟨⟨m', ⟨r, rfl, hspec⟩, hinv'⟩, hused⟩
  | remove k =>
      refine (hashRemove_meets hinv fuel k).bind ?_
      rintro ⟨r, h'⟩ ⟨rfl, hinv', hused⟩
      exact ⟨⟨_, ⟨rfl, rfl⟩, hinv'⟩, hused.le.trans (Nat.le_succ _)⟩
  | get k =>
      refine (hashGet_meets hinv fuel k).bind ?_
      rintro ⟨e, h'⟩ heq
      obtain ⟨rfl, rfl⟩ := Prod.mk.inj heq
      exact ⟨⟨m, ⟨rfl, rfl⟩, hinv⟩, Nat.le_succ _⟩
  | getEntries =>
      rw [hashStep, hashGetEntries, hashCollect_eq hinv, List.map_id, Outcome.ret_bind]
      exact ⟨⟨m, ⟨_, rfl, hinv.entries, rfl⟩, hinv⟩, Nat.le_succ _⟩
  | getKeys =>
      rw [hashStep, hashGetKeys, hashCollect_eq hinv, Outcome.ret_bind]
      exact ⟨⟨m, ⟨_, rfl, hinv.keys, rfl⟩, hinv⟩, Nat.le_succ _⟩

/-- A sequence of calls on a new table. -/
lemma hashRun_meets (key : α → κ) (probe : κ → UInt64 → UInt64) (fuel : ℕ)
    (ops : List (HashOp α κ)) :
    (runOps (hashStep key probe fuel) ops (hashAlloc α)).Meets True (2 ^ 29 ≤ ops.length) fun q =>
      ∃ m, SpecRun (MapSpec key) (fun _ => none) ops q.1 m ∧ HashInv key probe m q.2 := by
  have hused : (hashAlloc α).used = 0 := rfl
  refine (runOps_refines_cost (R := HashInv key probe) (C := fun _ => True)
    (fun n => 2 ^ 29 ≤ n) (fun hnm hn => hn.trans hnm) HashT.used
    (fun m h op hinv _ => hashStep_meets fuel op hinv) ops (fun _ _ => trivial) (fun _ => none)
    (hashAlloc α) hashAlloc_inv).mono ?_ fun _ => id
  omega

/-- **The hash table is a finite map.**  Every sequence of calls on a new table whose
probe loops end gives the results of the finite map and leaves the rwlock free.  The only
other way out is the failed allocation of a table that has seen `2 ^ 29` calls. -/
theorem hash_refines_map (key : α → κ) (probe : κ → UInt64 → UInt64) (fuel : ℕ)
    (ops : List (HashOp α κ))
    (hloops : runOps (hashStep key probe fuel) ops (hashAlloc α) ≠ .spin) :
    (∃ rs h m, runOps (hashStep key probe fuel) ops (hashAlloc α) = .ret (rs, h) ∧
        SpecRun (MapSpec key) (fun _ => none) ops rs m ∧ h.hashRwlock = false) ∨
      (runOps (hashStep key probe fuel) ops (hashAlloc α) = .abort ∧ 2 ^ 29 ≤ ops.length) := by
  rcases (hashRun_meets key probe fuel ops).exists_ret_or_abort hloops with
    ⟨⟨rs, h⟩, heq, m, hspec, hinv⟩ | habort
  · exact Or.inl ⟨rs, h, m, heq, hspec, hinv.unlocked⟩
  · exact Or.inr habort

/-- Linear probing with colliding keys, a tombstone, a re-added key and a rehash. -/
theorem hash_refines_map_linear :
    ∃ rs h m, runOps (hashStep (α := ℕ × ℕ) Prod.fst (fun k l => UInt64.ofNat k + l) 50)
        [.add (1, 7), .add (12, 8), .remove 1, .add (12, 9), .get 12, .add (1, 6), .add (23, 5),
          .add (34, 4), .add (45, 3), .add (56, 2), .getKeys] (hashAlloc (ℕ × ℕ)) = .ret (rs, h) ∧
      SpecRun (MapSpec Prod.fst) (fun _ => none)
        [.add (1, 7), .add (12, 8), .remove 1, .add (12, 9), .get 12, .add (1, 6), .add (23, 5),
          .add (34, 4), .add (45, 3), .add (56, 2), .getKeys] rs m ∧ h.hashRwlock = false :=
  (hash_refines_map Prod.fst _ 50 _ (by decide +kernel)).resolve_right
    fun h => absurd h.2 (by decide)

end CheckQ
