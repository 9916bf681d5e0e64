import CheckQ.Mylib.HashMap

/-!
# The load of the hash table

The counters of a table count its entries and its tombstones, and at most half of the
slots are in use, after every sequence of calls.  The probe loop therefore always finds
an empty slot somewhere in the table, also while `rehash` is filling the new block.
-/

namespace CheckQ

open Probing

variable {α κ : Type} [DecidableEq κ] (key : α → κ) (probe : κ → UInt64 → UInt64)

/-- The table in which `hash_add` has written `entry` to the slot `index`. -/
def HashT.write (h : HashT α) (index : ℕ) (entry : α) : HashT α :=
  { h with
    elements := h.elements.set index (.occupied entry)
    hashEntryCount := h.hashEntryCount + 1
    hashRwlock := true }

/-- `hash_add` of `entry` to `h` calls `rehash`, and when the loop of `rehash` has the old
slots `rest` still to go over the table is `s`. -/
def InRehash (fuel : ℕ) (h : HashT α) (entry : α) (rest : List (Slot α)) (s : HashT α) : Prop :=
  ∃ index size done,
    hashFind key probe h.elements h.hashSize (key entry) fuel 0 = .ret (index, .empty) ∧
    h.hashSize < (h.write index entry).used * rehashRate ∧
    rehashSize (h.write index entry) = .ret size ∧
    (h.write index entry).elements = done ++ rest ∧
    rehashLoop key probe fuel done { h.write index entry with
      hashSize := size
      hashEntryRemovedCount := 0
      elements := List.replicate size .empty } = .ret (.succeed, s)

variable {key probe}

/-- The loop of `rehash` goes over the slots in order. -/
lemma rehashLoop_append (fuel : ℕ) (done rest : List (Slot α)) (h : HashT α) :
    rehashLoop key probe fuel (done ++ rest) h = (do
      let (ret, h) ← rehashLoop key probe fuel done h
      if ret ≠ .succeed then return (ret, h) else rehashLoop key probe fuel rest h) := by
  induction done generalizing h with
  | nil => rfl
  | cons slot done ih =>
      cases slot with
      | empty => exact ih h
      | removed => exact ih h
      | occupied a =>
          rw [List.cons_append, rehashLoop, rehashLoop]
          rcases hashFind key probe h.elements h.hashSize (key a) fuel 0 with
            ⟨index, status⟩ | _ | _ | _
          · simp only [Outcome.ret_bind]
            split
            · rfl
            · exact ih _
          · rfl
          · rfl
          · rfl

/-- The loop of `rehash` changes nothing but the slots. -/
lemma rehashLoop_frame {fuel : ℕ} {src : List (Slot α)} {h h' : HashT α} {r : RetT}
    (hret : rehashLoop key probe fuel src h = .ret (r, h')) :
    ∃ elements, h' = { h with elements } := by
  induction src generalizing h with
  | nil =>
      obtain ⟨-, rfl⟩ := Prod.mk.inj (Outcome.ret.inj hret)
      exact ⟨_, rfl⟩
  | cons s src ih =>
      cases s with
      | empty => exact ih hret
      | removed => exact ih hret
      | occupied a =>
          obtain ⟨⟨index, status⟩, -, hrest⟩ := Outcome.bind_eq_ret.1 hret
          dsimp only at hrest
          split at hrest
          · obtain ⟨-, rfl⟩ := Prod.mk.inj (Outcome.ret.inj hrest)
            exact ⟨_, rfl⟩
          · obtain ⟨elements, rfl⟩ := ih hrest
            exact ⟨elements, rfl⟩

/-- What `hash_add` has done when it returns: it has found the key, or it has filled a slot, and
then it has rehashed the table if too many slots were in use. -/
lemma hashAdd_ret {fuel : ℕ} {h h' : HashT α} {entry : α} {r : RetT}
    (hret : hashAdd key probe fuel h entry = .ret (r, h')) :
    (r = .failed ∧ h' = h.unlock) ∨
      ∃ index,
        ((h.used + 1) * rehashRate ≤ h.hashSize ∧ r = .succeed ∧ h' = (h.write index entry).unlock) ∨
        (h.hashSize < (h.used + 1) * rehashRate ∧
          ∃ size ret h₂, rehashSize (h.write index entry) = .ret size ∧
            rehash key probe fuel
              { h.write index entry with hashSize := size, hashEntryRemovedCount := 0 }
              (h.write index entry).elements = .ret (ret, h₂) ∧
            r = ret ∧ h' = if ret = .succeed then h₂.unlock else h₂) := by
  have hused : h.hashEntryCount + 1 + h.hashEntryRemovedCount = h.used + 1 := by
    rw [HashT.used]
    omega
  rw [hashAdd] at hret
  obtain ⟨h₁, hlock, hret⟩ := Outcome.bind_eq_ret.1 hret
  obtain rfl : { h with hashRwlock := true } = h₁ := by
    rw [HashT.lock] at hlock
    split at hlock
    · simp at hlock
    · exact Outcome.ret.inj hlock
  obtain ⟨⟨index, status⟩, -, hret⟩ := Outcome.bind_eq_ret.1 hret
  dsimp only at hret
  rw [hused] at hret
  split at hret
  · obtain ⟨rfl, rfl⟩ := Prod.mk.inj (Outcome.ret.inj hret)
    exact Or.inl ⟨rfl, rfl⟩
  · refine Or.inr ⟨index, ?_⟩
    split at hret
    · rename_i hload
      obtain ⟨size, hsize, hret⟩ := Outcome.bind_eq_ret.1 hret
      obtain ⟨⟨ret, h₂⟩, hrehash, hret⟩ := Outcome.bind_eq_ret.1 hret
      refine Or.inr ⟨hload, size, ret, h₂, hsize, hrehash, ?_⟩
      cases ret with
      | succeed =>
          obtain ⟨rfl, rfl⟩ := Prod.mk.inj (Outcome.ret.inj hret)
          exact ⟨rfl, rfl⟩
      | failed =>
          obtain ⟨rfl, rfl⟩ := Prod.mk.inj (Outcome.ret.inj hret)
          exact ⟨rfl, rfl⟩
    · rename_i hload
      obtain ⟨rfl, rfl⟩ := Prod.mk.inj (Outcome.ret.inj hret)
      exact Or.inl ⟨not_lt.1 hload, rfl, rfl⟩

/-- A call of `hash_add` whose `rehash` has come to a table goes on from there. -/
lemma InRehash.hashAdd_eq {fuel : ℕ} {h s : HashT α} {entry : α} {rest : List (Slot α)}
    (hs : InRehash key probe fuel h entry rest s) (hfree : h.hashRwlock = false) :
    hashAdd key probe fuel h entry = (do
      let (ret, h) ← rehashLoop key probe fuel rest s
      if ret ≠ .succeed then return (.failed, h) else return (.succeed, h.unlock)) := by
  obtain ⟨index, size, done, hfind, hload, hsize, helems, hloop⟩ := hs
  have hlock : h.lock = .ret { h with hashRwlock := true } := by
    simp [HashT.lock, hfree]
  have hused : (h.write index entry).used
      = h.hashEntryCount + 1 + h.hashEntryRemovedCount := rfl
  rw [hashAdd, hlock, Outcome.ret_bind, hfind, Outcome.ret_bind]
  simp only [ne_eq, not_true_eq_false, if_false]
  rw [if_pos (hused ▸ hload)]
  have hrehash : rehash key probe fuel
      { h.write index entry with hashSize := size, hashEntryRemovedCount := 0 }
      (h.write index entry).elements = rehashLoop key probe fuel rest s := by
    rw [helems, rehash, rehashLoop_append, hloop]
    rfl
  rw [HashT.write] at hsize hrehash
  rw [hsize, Outcome.ret_bind, hrehash]

omit [DecidableEq κ] in
/-- A table that is at most half full has an empty slot. -/
lemma HashInv.exists_empty {m : κ → Option α} {h : HashT α} (hinv : HashInv key probe m h) :
    ∃ i : ℕ, h.elements[i]? = some .empty := by
  refine Probing.exists_empty ?_
  have hload := hinv.load_le
  have hpos := hinv.size_pos
  rw [← hinv.count_eq, ← hinv.removed_eq, hinv.length_eq]
  simp only [rehashRate] at hload
  omega

/-- The new block has an empty slot at every step of `rehash`. -/
lemma HashInv.exists_empty_of_inRehash {m : κ → Option α} {h s : HashT α}
    (hinv : HashInv key probe m h) {fuel : ℕ} {entry : α} {rest : List (Slot α)}
    (hs : InRehash key probe fuel h entry rest s) : ∃ i : ℕ, s.elements[i]? = some .empty := by
  obtain ⟨index, size, done, hfind, -, hsize, helems, hloop⟩ := hs
  -- the slot of the new entry was empty
  have hf : (hashFind key probe h.elements h.hashSize (key entry) fuel 0).Meets True False fun q =>
      Found key probe h.elements h.hashSize (key entry) q.1 q.2 := hinv.find (key entry) fuel
  rw [hfind] at hf
  obtain ⟨n, rfl, harr, ⟨-, hempty⟩ | ⟨hst, -⟩⟩ := hf
  swap
  · exact absurd hst (by simp)
  have hperm := (live_set_occupied hempty entry).1
  have hnodup := (hinv.sound.insert harr hempty).nodup_keys
  obtain ⟨hpos, hload⟩ := rehashSize_load (h := h.write _ entry) hinv.size_pos hinv.load_le hsize
  simp only [HashT.write] at helems hloop hload
  rw [helems] at hperm hnodup
  have happend : live (done ++ rest) = live done ++ live rest := List.filterMap_append
  have hcount : (live done).length ≤ h.hashEntryCount + 1 := by
    have hlen := hperm.length_eq
    rw [happend, List.length_append, List.length_cons, ← hinv.count_eq] at hlen
    omega
  -- the entries that have been moved are some of those that the new block has room for
  rw [happend, List.map_append] at hnodup
  obtain ⟨-, els, rfl, hlen, -, hlive, htombs⟩ := (hloop ▸ rehashLoop_meets fuel done _ (by simp)
    hpos (Sound.replicate_empty _) hnodup.of_append_left (by simp) : Outcome.Meets True False _ _)
  refine Probing.exists_empty ?_
  simp only [live_replicate_empty, tombs_replicate_empty, List.append_nil] at hlive htombs
  simp only [hlive.length_eq, htombs, hlen, rehashRate] at hload ⊢
  omega

/-- **The counters of the hash table and its load.**  After every sequence of calls on a
new table whose probe loops end, the two counters count the entries and the tombstones
and at most half of the slots are in use, so that there is an empty slot, in the table and
at every step of the `rehash` of a next call.  `hash_get_entries` and `hash_get_keys` fill
exactly the cells that they allocate.  The only other way out is the failed allocation of
a table that has seen `2 ^ 29` calls. -/
theorem hash_load_bounded (key : α → κ) (probe : κ → UInt64 → UInt64) (fuel : ℕ)
    (ops : List (HashOp α κ))
    (hloops : runOps (hashStep key probe fuel) ops (hashAlloc α) ≠ .spin) :
    (∃ rs h, runOps (hashStep key probe fuel) ops (hashAlloc α) = .ret (rs, h) ∧
        h.hashEntryCount = (live h.elements).length ∧
        h.hashEntryRemovedCount = tombs h.elements ∧
        h.elements.length = h.hashSize ∧
        rehashRate * (h.hashEntryCount + h.hashEntryRemovedCount) ≤ h.hashSize ∧
        (∃ i : ℕ, h.elements[i]? = some .empty) ∧
        (∀ entry rest s, InRehash key probe fuel h entry rest s →
          ∃ i : ℕ, s.elements[i]? = some .empty) ∧
        (∃ es, hashGetEntries h = .ret ((es, h.hashEntryCount), h) ∧
          es.length = h.hashEntryCount) ∧
        ∃ ks, hashGetKeys key h = .ret ((ks, h.hashEntryCount), h) ∧
          ks.length = h.hashEntryCount) ∨
      (runOps (hashStep key probe fuel) ops (hashAlloc α) = .abort ∧ 2 ^ 29 ≤ ops.length) := by
  rcases (hashRun_meets key probe fuel ops).exists_ret_or_abort hloops with
    ⟨⟨rs, h⟩, heq, m, -, hinv⟩ | habort
  · have hcollect : ∀ {β : Type} (f : α → β), ∃ l,
        hashCollect f h = .ret ((l, h.hashEntryCount), h) ∧ l.length = h.hashEntryCount := by
      intro β f
      have hlen : ((live h.elements).map f).length = h.hashEntryCount := by
        rw [List.length_map, hinv.count_eq]
      exact ⟨_, hlen ▸ hashCollect_eq hinv f, hlen⟩
    refine Or.inl ⟨rs, h, heq, hinv.count_eq, hinv.removed_eq, hinv.length_eq, ?_,
      hinv.exists_empty, fun _ _ _ => hinv.exists_empty_of_inRehash, hcollect id, hcollect key⟩
    rw [Nat.mul_comm]
    exact hinv.load_le
  · exact Or.inr habort

/-- Linear probing with colliding keys, tombstones and a rehash. -/
theorem hash_load_bounded_linear :
    ∃ rs h, runOps (hashStep (α := ℕ × ℕ) Prod.fst (fun k l => UInt64.ofNat k + l) 50)
        [.add (1, 7), .add (12, 8), .remove 1, .add (23, 5), .add (34, 4), .add (45, 3), .remove 23,
          .add (56, 2), .add (1, 6)] (hashAlloc (ℕ × ℕ)) = .ret (rs, h) ∧
      rehashRate * (h.hashEntryCount + h.hashEntryRemovedCount) ≤ h.hashSize ∧
      ∃ i : ℕ, h.elements[i]? = some .empty := by
  obtain ⟨rs, h, heq, -, -, -, hload, hempty, -⟩ :=
    (hash_load_bounded Prod.fst (fun k l => UInt64.ofNat k + l) 50
      [.add (1, 7), .add (12, 8), .remove 1, .add (23, 5), .add (34, 4), .add (45, 3), .remove 23,
        .add (56, 2), .add (1, 6)] (by decide +kernel)).resolve_right fun h => absurd h.2 (by decide)
  exact ⟨rs, h, heq, hload, hempty⟩

end CheckQ
