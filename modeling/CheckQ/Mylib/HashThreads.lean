import CheckQ.Lib.Locked
import CheckQ.Mylib.HashLoad

/-!
# Threads that share a hash table

`hash_get`, `hash_get_entries` and `hash_get_keys` take `hash_rwlock` for reading, `hash_add` and
`hash_remove` take it for writing.  Here the functions are cut into the single accesses to the
table, so that the accesses of several threads can come in any order that the lock allows; between
two of them the table may have half an entry, or be in the middle of a rehash.

`hash_threads_linearizable`: what the threads get is what one call after another gives.
-/

namespace CheckQ

open Probing

variable {α κ : Type}

/-- A call that searches for a key. -/
inductive HashSearch (α κ : Type) where
  | add (entry : α)
  | remove (k : κ)
  | get (k : κ)

/-- The key. -/
def HashSearch.target (key : α → κ) : HashSearch α κ → κ
  | .add entry => key entry
  | .remove k => k
  | .get k => k

/-- Where a call is between the lock and the result. -/
inductive HashPc (α κ : Type) where
  -- the loop of `hash_find`
  | find (search : HashSearch α κ) (level : ℕ)
  | found (search : HashSearch α κ) (index : ℕ) (status : HashEntryStatus)
  -- `hash_entry_count ++` and the test behind it, in `hash_add`
  | countEntry
  | test
  -- the loop of `rehash`, with the old slots that are left
  | rehash (src : List (Slot α))
  -- the loop of `hash_find` for an entry of an old slot
  | refind (entry : α) (src : List (Slot α)) (level : ℕ)
  | place (entry : α) (src : List (Slot α)) (index : ℕ) (status : HashEntryStatus)
  -- `hash_entry_count --`, `hash_entry_removed_count ++` and the end of `hash_remove`
  | uncountEntry (entry : Option α)
  | countRemoved (entry : Option α)
  | free (entry : Option α)
  -- `my_malloc` and the loop of `hash_get_entries` and `hash_get_keys`
  | alloc (keys : Bool)
  | collect (keys : Bool) (size : ℕ) (i : ℕ) (ret : List α)

section Steps

variable [DecidableEq κ] (key : α → κ) (probe : κ → UInt64 → UInt64)

/-- What `hash_find` does at a level: it returns, or goes on with the next level. -/
def findStep (h : HashT α) (k : κ) (level : ℕ) : Outcome (Option (ℕ × HashEntryStatus)) :=
  let index := slotSeq probe h.hashSize k level
  match h.elements[index]? with
  | none => .fault
  | some .empty => .ret (some (index, .empty))
  | some (.occupied a) => .ret (if key a = k then some (index, .occupied) else none)
  | some .removed => .ret none

/-- What `hash_get_entries` and `hash_get_keys` return. -/
def collected (h : HashT α) (keys : Bool) (ret : List α) : HashRes α κ :=
  if keys then .keys (ret.map key) h.hashEntryCount else .entries ret h.hashEntryCount

/-- One access of a call. -/
def hashPcStep (h : HashT α) :
    HashPc α κ → Outcome (HashT α × Next (HashPc α κ) (HashRes α κ))
  | .find search level => do
      match ← findStep key probe h (search.target key) level with
      | none => return (h, .go (.find search (level + 1)))
      | some (index, status) => return (h, .go (.found search index status))
  | .found (.add entry) index status =>
      if status ≠ .empty then .ret (h, .done (.status .failed) true)
      else .ret ({ h with elements := h.elements.set index (.occupied entry) }, .go .countEntry)
  | .found (.remove _) index status =>
      if status = .occupied then
        .ret ({ h with elements := h.elements.set index .removed },
          .go (.uncountEntry (h.elements[index]?.bind Slot.elem?)))
      else .ret (h, .done (.status .succeed) true)
  | .found (.get _) index status =>
      .ret (h, .done (.entry (if status = .occupied then h.elements[index]?.bind Slot.elem?
        else none)) true)
  | .countEntry => .ret ({ h with hashEntryCount := h.hashEntryCount + 1 }, .go .test)
  | .test =>
      if (h.hashEntryCount + h.hashEntryRemovedCount) * rehashRate > h.hashSize then do
        let size ← rehashSize h
        -- the new block is cleared before it is used
        return ({ h with
          hashSize := size
          hashEntryRemovedCount := 0
          elements := List.replicate size .empty }, .go (.rehash h.elements))
      else .ret (h, .done (.status .succeed) true)
  | .rehash [] => .ret (h, .done (.status .succeed) true)
  | .rehash (.occupied entry :: src) => .ret (h, .go (.refind entry src 0))
  | .rehash (_ :: src) => .ret (h, .go (.rehash src))
  | .refind entry src level => do
      match ← findStep key probe h (key entry) level with
      | none => return (h, .go (.refind entry src (level + 1)))
      | some (index, status) => return (h, .go (.place entry src index status))
  | .place entry src index status =>
      -- a failed rehash returns without `my_rwunlock`
      if status ≠ .empty then .ret (h, .done (.status .failed) false)
      else .ret ({ h with elements := h.elements.set index (.occupied entry) }, .go (.rehash src))
  | .uncountEntry entry =>
      .ret ({ h with hashEntryCount := h.hashEntryCount - 1 }, .go (.countRemoved entry))
  | .countRemoved entry =>
      .ret ({ h with hashEntryRemovedCount := h.hashEntryRemovedCount + 1 }, .go (.free entry))
  | .free entry =>
      .ret ({ h with freed := entry.toList ++ h.freed }, .done (.status .succeed) true)
  | .alloc keys => .ret (h, .go (.collect keys h.hashEntryCount 0 []))
  | .collect keys size i ret =>
      if i < h.hashSize then
        match h.elements[i]? with
        | none => .fault
        | some (.occupied entry) =>
            if ret.length < size then .ret (h, .go (.collect keys size (i + 1) (ret ++ [entry])))
            else .fault
        | some _ => .ret (h, .go (.collect keys size (i + 1) ret))
      else .ret (h, .done (collected key h keys ret) true)

/-- The calls take `my_rdlock` or `my_wrlock`. -/
def HashOp.writes : HashOp α κ → Bool
  | .add _ => true
  | .remove _ => true
  | _ => false

/-- A call that has the lock. -/
def HashOp.start : HashOp α κ → HashPc α κ
  | .add entry => .find (.add entry) 0
  | .remove k => .find (.remove k) 0
  | .get k => .find (.get k) 0
  | .getEntries => .alloc false
  | .getKeys => .alloc true

/-- A hash table behind its lock. -/
def hashObject : LockedObject (HashT α) (HashOp α κ) (HashRes α κ) (HashPc α κ) where
  writes := HashOp.writes
  start := HashOp.start
  step := hashPcStep key probe

lemma hashObject_step (h : HashT α) (pc : HashPc α κ) :
    (hashObject key probe).step h pc = hashPcStep key probe h pc := rfl

end Steps

/-! ### More rounds of the loops -/

section Rounds

variable [DecidableEq κ] {key : α → κ} {probe : κ → UInt64 → UInt64} {h : HashT α} {k : κ}
  {fuel fuel' level : ℕ}

/-- A round of the loop of `hash_find`. -/
lemma hashFind_succ (h : HashT α) (k : κ) (fuel level : ℕ) :
    hashFind key probe h.elements h.hashSize k (fuel + 1) level = (do
      match ← findStep key probe h k level with
      | none => hashFind key probe h.elements h.hashSize k fuel (level + 1)
      | some q => .ret q) := by
  rw [hashFind, findStep]
  rcases h.elements[slotSeq probe h.hashSize k level]? with _ | _ | a | _
  · rfl
  · rfl
  · by_cases ha : key a = k <;> simp [ha]
  · rfl

/-- A search that ends does not use more rounds. -/
lemma hashFind_mono (hle : fuel ≤ fuel')
    (hends : hashFind key probe h.elements h.hashSize k fuel level ≠ .spin) :
    hashFind key probe h.elements h.hashSize k fuel' level
      = hashFind key probe h.elements h.hashSize k fuel level := by
  induction fuel generalizing fuel' level with
  | zero => exact absurd rfl hends
  | succ fuel ih =>
      obtain ⟨n, rfl⟩ : ∃ n, fuel' = n + 1 := ⟨fuel' - 1, by omega⟩
      rw [hashFind_succ] at hends ⊢
      rw [hashFind_succ]
      refine Outcome.bind_eq_bind_of_ends (fun _ => rfl) (fun q hq => ?_) hends
      cases q with
      | none => exact ih (by omega) hq
      | some q => rfl

lemma rehashLoop_mono (hle : fuel ≤ fuel') {src : List (Slot α)}
    (hends : rehashLoop key probe fuel src h ≠ .spin) :
    rehashLoop key probe fuel' src h = rehashLoop key probe fuel src h := by
  induction src generalizing h with
  | nil => rfl
  | cons slot src ih =>
      cases slot with
      | empty => exact ih hends
      | removed => exact ih hends
      | occupied a =>
          rw [rehashLoop] at hends ⊢
          rw [rehashLoop]
          refine Outcome.bind_eq_bind_of_ends (hashFind_mono hle) (fun q hq => ?_) hends
          obtain ⟨index, status⟩ := q
          by_cases hempty : status = .empty
          · simp only [hempty, ne_eq, not_true_eq_false, if_false] at hq ⊢
            exact ih hq
          · simp [hempty]

/-- The loop of `rehash` does not look at the lock. -/
lemma rehashLoop_rwlock (src : List (Slot α)) (h : HashT α) (b : Bool) :
    rehashLoop key probe fuel src { h with hashRwlock := b } = (do
      let (ret, h') ← rehashLoop key probe fuel src h
      return (ret, { h' with hashRwlock := b })) := by
  induction src generalizing h with
  | nil => rfl
  | cons slot src ih =>
      cases slot with
      | empty => exact ih h
      | removed => exact ih h
      | occupied a =>
          rw [rehashLoop, rehashLoop]
          rcases hashFind key probe h.elements h.hashSize (key a) fuel 0 with
            ⟨index, status⟩ | _ | _ | _
          · simp only [Outcome.ret_bind]
            split
            · rfl
            · exact ih { h with elements := h.elements.set index (.occupied a) }
          · rfl
          · rfl
          · rfl

end Rounds

/-! ### What is left of a call -/

section Rest

variable [DecidableEq κ] (key : α → κ) (probe : κ → UInt64 → UInt64) (fuel : ℕ)

/-- The end of `hash_add` behind `rehash`. -/
def afterRehash (x : Outcome (RetT × HashT α)) : Outcome (HashRes α κ × HashT α) := do
  let (ret, h) ← x
  return (.status ret, if ret = .succeed then h else { h with hashRwlock := true })

/-- `hash_add` behind the count. -/
def afterCount (h : HashT α) : Outcome (HashRes α κ × HashT α) :=
  if (h.hashEntryCount + h.hashEntryRemovedCount) * rehashRate > h.hashSize then do
    let size ← rehashSize h
    afterRehash (rehashLoop key probe fuel h.elements
      { h with
        hashSize := size
        hashEntryRemovedCount := 0
        elements := List.replicate size .empty })
  else return (.status .succeed, h)

/-- A call behind `hash_find`. -/
def afterFind (h : HashT α) (index : ℕ) (status : HashEntryStatus) :
    HashSearch α κ → Outcome (HashRes α κ × HashT α)
  | .add entry =>
      if status ≠ .empty then return (.status .failed, h)
      else afterCount key probe fuel { h with
        elements := h.elements.set index (.occupied entry)
        hashEntryCount := h.hashEntryCount + 1 }
  | .remove _ =>
      if status = .occupied then
        return (.status .succeed, { h with
          elements := h.elements.set index .removed
          hashEntryCount := h.hashEntryCount - 1
          hashEntryRemovedCount := h.hashEntryRemovedCount + 1
          freed := (h.elements[index]?.bind Slot.elem?).toList ++ h.freed })
      else return (.status .succeed, h)
  | .get _ =>
      return (.entry (if status = .occupied then h.elements[index]?.bind Slot.elem? else none), h)

/-- The loop of `rehash` behind `hash_find`. -/
def afterPlace (h : HashT α) (entry : α) (src : List (Slot α)) (index : ℕ)
    (status : HashEntryStatus) : Outcome (HashRes α κ × HashT α) :=
  afterRehash (if status ≠ .empty then return (.failed, h)
    else rehashLoop key probe fuel src
      { h with elements := h.elements.set index (.occupied entry) })

/-- What is left of a call, when nobody else is at the table. -/
def HashPc.rest (h : HashT α) : HashPc α κ → Outcome (HashRes α κ × HashT α)
  | .find search level => do
      let (index, status) ←
        hashFind key probe h.elements h.hashSize (search.target key) fuel level
      afterFind key probe fuel h index status search
  | .found search index status => afterFind key probe fuel h index status search
  | .countEntry => afterCount key probe fuel { h with hashEntryCount := h.hashEntryCount + 1 }
  | .test => afterCount key probe fuel h
  | .rehash src => afterRehash (rehashLoop key probe fuel src h)
  | .refind entry src level => do
      let (index, status) ← hashFind key probe h.elements h.hashSize (key entry) fuel level
      afterPlace key probe fuel h entry src index status
  | .place entry src index status => afterPlace key probe fuel h entry src index status
  | .uncountEntry entry => return (.status .succeed, { h with
      hashEntryCount := h.hashEntryCount - 1
      hashEntryRemovedCount := h.hashEntryRemovedCount + 1
      freed := entry.toList ++ h.freed })
  | .countRemoved entry => return (.status .succeed, { h with
      hashEntryRemovedCount := h.hashEntryRemovedCount + 1
      freed := entry.toList ++ h.freed })
  | .free entry => return (.status .succeed, { h with freed := entry.toList ++ h.freed })
  | .alloc keys =>
      if h.hashEntryCount < (live h.elements).length then .fault
      else return (collected key h keys (live h.elements), h)
  | .collect keys size i ret =>
      if live (h.elements.drop i) ≠ [] ∧ size < (ret ++ live (h.elements.drop i)).length then .fault
      else return (collected key h keys (ret ++ live (h.elements.drop i)), h)

variable {key probe} {fuel fuel' : ℕ}

omit [DecidableEq κ] in
lemma afterRehash_mono {x y : Outcome (RetT × HashT α)} (hx : x ≠ .spin → y = x)
    (hends : afterRehash (κ := κ) x ≠ .spin) :
    afterRehash (κ := κ) y = afterRehash x :=
  Outcome.bind_eq_bind_of_ends hx (fun _ _ => rfl) hends

lemma afterCount_mono (hle : fuel ≤ fuel') {h : HashT α}
    (hends : afterCount key probe fuel h ≠ .spin) :
    afterCount key probe fuel' h = afterCount key probe fuel h := by
  rw [afterCount] at hends ⊢
  rw [afterCount]
  split
  · rename_i hload
    rw [if_pos hload] at hends
    refine Outcome.bind_eq_bind_of_ends (fun _ => rfl) (fun size hsize => ?_) hends
    exact afterRehash_mono (rehashLoop_mono hle) hsize
  · rfl

lemma afterFind_mono (hle : fuel ≤ fuel') {h : HashT α} {index : ℕ} {status : HashEntryStatus}
    {search : HashSearch α κ} (hends : afterFind key probe fuel h index status search ≠ .spin) :
    afterFind key probe fuel' h index status search
      = afterFind key probe fuel h index status search := by
  cases search with
  | add entry =>
      by_cases hempty : status = .empty
      · simp only [afterFind, hempty, ne_eq, not_true_eq_false, if_false] at hends ⊢
        exact afterCount_mono hle hends
      · simp [afterFind, hempty]
  | remove k => rfl
  | get k => rfl

lemma afterPlace_mono (hle : fuel ≤ fuel') {h : HashT α} {entry : α} {src : List (Slot α)}
    {index : ℕ} {status : HashEntryStatus}
    (hends : afterPlace key probe fuel h entry src index status ≠ .spin) :
    afterPlace key probe fuel' h entry src index status
      = afterPlace key probe fuel h entry src index status := by
  refine afterRehash_mono (fun hloop => ?_) hends
  by_cases hempty : status = .empty
  · simp only [hempty, ne_eq, not_true_eq_false, if_false] at hloop ⊢
    exact rehashLoop_mono hle hloop
  · simp [hempty]

/-! ### A call that is alone at the table -/

omit [DecidableEq κ] in
lemma lock_of_free {h : HashT α} (hfree : h.hashRwlock = false) :
    h.lock = .ret { h with hashRwlock := true } := by
  simp [HashT.lock, hfree]

omit [DecidableEq κ] in
lemma unlock_of_free {h : HashT α} (hfree : h.hashRwlock = false) :
    HashT.unlock { h with hashRwlock := true } = h := by
  simp [HashT.unlock, ← hfree]

/-- `hash_add` behind the count. -/
lemma hashAdd_tail {h : HashT α} (hfree : h.hashRwlock = false) :
    (do
      let (r, h') ← (do
        if (h.hashEntryCount + h.hashEntryRemovedCount) * rehashRate > h.hashSize then
          let size ← rehashSize { h with hashRwlock := true }
          let (ret, h') ← rehash key probe fuel
            { h with hashRwlock := true, hashSize := size, hashEntryRemovedCount := 0 } h.elements
          if ret ≠ .succeed then return (.failed, h') else return (.succeed, h'.unlock)
        else return (.succeed, HashT.unlock { h with hashRwlock := true }))
      return (HashRes.status r, h')) = afterCount key probe fuel h := by
  rw [afterCount, unlock_of_free hfree]
  split
  · have hsize : rehashSize { h with hashRwlock := true } = rehashSize h := rfl
    rw [hsize]
    rcases rehashSize h with size | _ | _ | _
    · simp only [Outcome.ret_bind, afterRehash]
      set h₁ : HashT α := { h with
        hashSize := size, hashEntryRemovedCount := 0, elements := List.replicate size .empty }
      have hloop := @rehashLoop_rwlock _ _ _ key probe fuel h.elements h₁ true
      have hrehash : rehash key probe fuel { h with
          hashRwlock := true, hashSize := size, hashEntryRemovedCount := 0 } h.elements
          = rehashLoop key probe fuel h.elements { h₁ with hashRwlock := true } := rfl
      rw [hrehash, hloop]
      rcases hret : rehashLoop key probe fuel h.elements h₁ with ⟨ret, h'⟩ | _ | _ | _
      · -- the lock stays as it was
        obtain ⟨elements, rfl⟩ := rehashLoop_frame hret
        cases ret with
        | succeed => simp [HashT.unlock, h₁, hfree]
        | failed => simp
      · rfl
      · rfl
      · rfl
    · rfl
    · rfl
    · rfl
  · rfl

/-- What is left of a call that has the lock is the call. -/
lemma rest_start {h : HashT α} (hfree : h.hashRwlock = false) (op : HashOp α κ) :
    HashPc.rest key probe fuel h op.start = hashStep key probe fuel op h := by
  have hlock := lock_of_free hfree
  have hunlock := unlock_of_free hfree
  cases op with
  | add entry =>
      rw [hashStep, hashAdd, hlock]
      simp only [Outcome.ret_bind, HashOp.start, HashPc.rest, HashSearch.target]
      rcases hashFind key probe h.elements h.hashSize (key entry) fuel 0 with
        ⟨index, status⟩ | _ | _ | _
      · by_cases hempty : status = .empty
        · simp only [Outcome.ret_bind, afterFind, hempty, ne_eq, not_true_eq_false, if_false]
          have hfree' : ({ h with
              elements := h.elements.set index (.occupied entry)
              hashEntryCount := h.hashEntryCount + 1 } : HashT α).hashRwlock = false := hfree
          exact (hashAdd_tail hfree').symm
        · simp [afterFind, hempty, hunlock]
      · rfl
      · rfl
      · rfl
  | remove k =>
      rw [hashStep, hashRemove, hlock]
      simp only [Outcome.ret_bind, HashOp.start, HashPc.rest, HashSearch.target]
      rcases hashFind key probe h.elements h.hashSize k fuel 0 with ⟨index, status⟩ | _ | _ | _
      · by_cases hocc : status = .occupied
        · simp [afterFind, hocc, HashT.unlock, hfree]
        · simp [afterFind, hocc, hunlock]
      · rfl
      · rfl
      · rfl
  | get k =>
      rw [hashStep, hashGet, hlock]
      simp only [Outcome.ret_bind, HashOp.start, HashPc.rest, HashSearch.target]
      rcases hashFind key probe h.elements h.hashSize k fuel 0 with ⟨index, status⟩ | _ | _ | _
      · by_cases hocc : status = .occupied
        · simp [afterFind, hocc, hunlock]
        · simp [afterFind, hocc, hunlock]
      · rfl
      · rfl
      · rfl
  | getEntries =>
      rw [hashStep, hashGetEntries, hashCollect, hlock]
      simp only [Outcome.ret_bind, HashOp.start, HashPc.rest, List.map_id, hunlock]
      split <;> rfl
  | getKeys =>
      rw [hashStep, hashGetKeys, hashCollect, hlock]
      simp only [Outcome.ret_bind, HashOp.start, HashPc.rest, List.length_map, hunlock]
      split <;> rfl

end Rest

/-! ### The accesses of a call, one after the other -/

section Alone

variable [DecidableEq κ] {key : α → κ} {probe : κ → UInt64 → UInt64} {h : HashT α}

/-- There is a slot for every number below the size, and the lock of the struct is not used. -/
structure HashT.Whole (h : HashT α) : Prop where
  length_eq : h.elements.length = h.hashSize
  free : h.hashRwlock = false

/-- A call that takes an access has left what it had left before, apart from the access. -/
def RestOk (key : α → κ) (probe : κ → UInt64 → UInt64) (h : HashT α) (pc : HashPc α κ) :
    Outcome (HashT α × Next (HashPc α κ) (HashRes α κ)) → Prop
  | .ret (h', .go pc') => h'.Whole ∧ ∀ fuel, pc'.rest key probe fuel h' ≠ .spin →
      ∃ fuel', pc.rest key probe fuel' h = pc'.rest key probe fuel h'
  | .ret (h', .done r unlocks) => ∃ fuel, pc.rest key probe fuel h
      = .ret (r, if unlocks then h' else { h' with hashRwlock := true })
  | .spin => False
  | .abort => ∃ fuel, pc.rest key probe fuel h = .abort
  | .fault => ∃ fuel, pc.rest key probe fuel h = .fault

lemma findStep_cases (key : α → κ) (probe : κ → UInt64 → UInt64) (h : HashT α) (k : κ) (level : ℕ) :
    findStep key probe h k level = .ret none ∨
      (∃ q, findStep key probe h k level = .ret (some q)) ∨
      findStep key probe h k level = .fault := by
  rw [findStep]
  rcases h.elements[slotSeq probe h.hashSize k level]? with _ | _ | a | _
  · exact Or.inr (Or.inr rfl)
  · exact Or.inr (Or.inl ⟨_, rfl⟩)
  · by_cases ha : key a = k
    · exact Or.inr (Or.inl ⟨_, by simp only [ha, if_true]; rfl⟩)
    · exact Or.inl (by simp [ha])
  · exact Or.inl rfl

section Find

variable {k : κ} {level : ℕ} {β : Type} {f : ℕ → ℕ × HashEntryStatus → Outcome β}
  (hf : ∀ {fuel fuel'} q, fuel ≤ fuel' → f fuel q ≠ .spin → f fuel' q = f fuel q)
include hf

/-- A search that goes on, and what comes behind it. -/
lemma find_next (hfind : findStep key probe h k level = .ret none) {fuel : ℕ}
    (hends : (hashFind key probe h.elements h.hashSize k fuel (level + 1) >>= f fuel) ≠ .spin) :
    (hashFind key probe h.elements h.hashSize k (fuel + 1) level >>= f (fuel + 1))
      = (hashFind key probe h.elements h.hashSize k fuel (level + 1) >>= f fuel) := by
  rw [hashFind_succ, hfind]
  exact Outcome.bind_eq_bind_of_ends (fun _ => rfl) (fun q => hf q (Nat.le_succ fuel)) hends

/-- A search that returns, and what comes behind it. -/
lemma find_return {q : ℕ × HashEntryStatus}
    (hfind : findStep key probe h k level = .ret (some q)) {fuel : ℕ} (hends : f fuel q ≠ .spin) :
    (hashFind key probe h.elements h.hashSize k (fuel + 1) level >>= f (fuel + 1)) = f fuel q := by
  rw [hashFind_succ, hfind]
  exact hf q (Nat.le_succ fuel) hends

end Find

/-- An access of a search that goes on at `pc`, level by level, and returns to `found`. -/
lemma rest_search (hh : h.Whole) {k : κ} {level : ℕ} (pc : ℕ → HashPc α κ)
    (found : ℕ × HashEntryStatus → HashPc α κ)
    (hfound : ∀ {fuel fuel'} q, fuel ≤ fuel' → (found q).rest key probe fuel h ≠ .spin →
      (found q).rest key probe fuel' h = (found q).rest key probe fuel h)
    (hstep : hashPcStep key probe h (pc level) = (do
      match ← findStep key probe h k level with
      | none => return (h, .go (pc (level + 1)))
      | some (index, status) => return (h, .go (found (index, status)))))
    (hsearch : ∀ fuel level, (pc level).rest key probe fuel h
      = hashFind key probe h.elements h.hashSize k fuel level >>=
        fun q => (found q).rest key probe fuel h) :
    RestOk key probe h (pc level) (hashPcStep key probe h (pc level)) := by
  rw [hstep]
  rcases findStep_cases key probe h k level with hfind | ⟨q, hfind⟩ | hfind
  · rw [hfind]
    refine ⟨hh, fun fuel hends => ⟨fuel + 1, ?_⟩⟩
    rw [hsearch] at hends
    rw [hsearch, hsearch]
    exact find_next (f := fun fuel q => (found q).rest key probe fuel h) hfound hfind hends
  · rw [hfind]
    refine ⟨hh, fun fuel hends => ⟨fuel + 1, ?_⟩⟩
    rw [hsearch]
    exact find_return (f := fun fuel q => (found q).rest key probe fuel h) hfound hfind hends
  · rw [hfind]
    refine ⟨1, ?_⟩
    rw [hsearch, hashFind_succ, hfind]
    rfl

section Accesses

variable (key probe) (hh : h.Whole)
include hh

/-- The access behind `hash_find`. -/
lemma rest_found (search : HashSearch α κ) (index : ℕ) (status : HashEntryStatus) :
    RestOk key probe h (.found search index status)
      (hashPcStep key probe h (.found search index status)) := by
  cases search with
  | add entry =>
      by_cases hempty : status = .empty
      · subst hempty
        exact ⟨⟨by simpa using hh.length_eq, hh.free⟩, fun fuel _ => ⟨fuel, rfl⟩⟩
      · simp only [hashPcStep, ne_eq, hempty, not_false_eq_true, if_true]
        exact ⟨0, by simp [HashPc.rest, afterFind, hempty]⟩
  | remove k =>
      by_cases hocc : status = .occupied
      · subst hocc
        exact ⟨⟨by simpa using hh.length_eq, hh.free⟩, fun fuel _ => ⟨fuel, rfl⟩⟩
      · simp only [hashPcStep, hocc, if_false]
        exact ⟨0, by simp [HashPc.rest, afterFind, hocc]⟩
  | get k => exact ⟨0, rfl⟩

/-- The test of the load, and the new slots. -/
lemma rest_test : RestOk key probe h .test (hashPcStep key probe h .test) := by
  by_cases hload : (h.hashEntryCount + h.hashEntryRemovedCount) * rehashRate > h.hashSize
  · rw [hashPcStep, if_pos hload]
    have hrest : ∀ fuel, HashPc.rest key probe fuel h .test
        = (rehashSize h >>= fun size => afterRehash (rehashLoop key probe fuel h.elements
          { h with
            hashSize := size
            hashEntryRemovedCount := 0
            elements := List.replicate size .empty })) := by
      intro fuel
      rw [HashPc.rest, afterCount, if_pos hload]
    rcases hsize : rehashSize h with size | _ | _ | _
    · refine ⟨⟨by simp, hh.free⟩, fun fuel _ => ⟨fuel, ?_⟩⟩
      rw [hrest, hsize]
      rfl
    · rw [rehashSize] at hsize
      split at hsize <;> [cases hsize; split at hsize <;> cases hsize]
    · exact ⟨0, by rw [hrest, hsize]; rfl⟩
    · exact ⟨0, by rw [hrest, hsize]; rfl⟩
  · rw [hashPcStep, if_neg hload]
    exact ⟨0, by rw [HashPc.rest, afterCount, if_neg hload]; rfl⟩

/-- The next old slot. -/
lemma rest_rehash (src : List (Slot α)) :
    RestOk key probe h (.rehash src) (hashPcStep key probe h (.rehash src)) := by
  cases src with
  | nil => exact ⟨0, rfl⟩
  | cons slot src =>
      cases slot with
      | empty => exact ⟨hh, fun fuel _ => ⟨fuel, rfl⟩⟩
      | removed => exact ⟨hh, fun fuel _ => ⟨fuel, rfl⟩⟩
      | occupied a =>
          refine ⟨hh, fun fuel _ => ⟨fuel, ?_⟩⟩
          rw [HashPc.rest, HashPc.rest, rehashLoop]
          rcases hashFind key probe h.elements h.hashSize (key a) fuel 0 with
            ⟨index, status⟩ | _ | _ | _ <;> rfl

/-- The write of an entry of an old slot. -/
lemma rest_place (entry : α) (src : List (Slot α)) (index : ℕ) (status : HashEntryStatus) :
    RestOk key probe h (.place entry src index status)
      (hashPcStep key probe h (.place entry src index status)) := by
  by_cases hempty : status = .empty
  · subst hempty
    exact ⟨⟨by simpa using hh.length_eq, hh.free⟩, fun fuel _ => ⟨fuel, rfl⟩⟩
  · simp only [hashPcStep, ne_eq, hempty, not_false_eq_true, if_true]
    exact ⟨0, by simp [HashPc.rest, afterPlace, afterRehash, hempty]⟩

variable {keys : Bool} {size i : ℕ} {ret : List α}

/-- A slot without an entry is passed over. -/
lemma rest_skip (hi : i < h.hashSize) (hnone : h.elements[i]?.bind Slot.elem? = none)
    {fuel : ℕ} :
    (HashPc.collect keys size i ret).rest key probe fuel h
      = (HashPc.collect keys size (i + 1) ret).rest key probe fuel h := by
  have hlt : i < h.elements.length := hh.length_eq ▸ hi
  have hlive : live (h.elements.drop i) = live (h.elements.drop (i + 1)) := by
    have hslot : h.elements[i].elem? = none := by
      rw [List.getElem?_eq_getElem hlt] at hnone
      exact hnone
    rw [List.drop_eq_getElem_cons hlt, live, List.filterMap_cons_none hslot]
    rfl
  rw [HashPc.rest, HashPc.rest, hlive]

/-- An entry of a slot is put behind the others, when there is room. -/
lemma rest_entry {entry : α} (hslot : h.elements[i]? = some (.occupied entry)) :
    RestOk key probe h (.collect keys size i ret)
      (if ret.length < size then .ret (h, .go (.collect keys size (i + 1) (ret ++ [entry])))
        else .fault) := by
  obtain ⟨hlt, hget⟩ := List.getElem?_eq_some_iff.1 hslot
  have hlive : live (h.elements.drop i) = entry :: live (h.elements.drop (i + 1)) := by
    rw [List.drop_eq_getElem_cons hlt, hget]
    rfl
  by_cases hroom : ret.length < size
  · rw [if_pos hroom]
    refine ⟨hh, fun fuel _ => ⟨fuel, ?_⟩⟩
    simp only [HashPc.rest, hlive, List.append_assoc, List.singleton_append]
    rcases live (h.elements.drop (i + 1)) with _ | ⟨b, l⟩
    · have hfits : ¬ ([entry] ≠ [] ∧ size < (ret ++ [entry]).length) := by
        rw [List.length_append, List.length_singleton]
        exact fun hfull => Nat.not_lt.2 hroom hfull.2
      rw [if_neg hfits, if_neg fun hne => hne.1 rfl]
    · simp
  · -- the block is full
    rw [if_neg hroom]
    refine ⟨0, ?_⟩
    rw [HashPc.rest, if_pos]
    rw [hlive]
    refine ⟨List.cons_ne_nil _ _, ?_⟩
    rw [List.length_append, List.length_cons]
    omega

/-- The next slot of `hash_get_entries` and `hash_get_keys`. -/
lemma rest_collect (keys : Bool) (size i : ℕ) (ret : List α) :
    RestOk key probe h (.collect keys size i ret)
      (hashPcStep key probe h (.collect keys size i ret)) := by
  by_cases hi : i < h.hashSize
  · have hlt : i < h.elements.length := hh.length_eq ▸ hi
    rw [hashPcStep, if_pos hi]
    rcases hslot : h.elements[i]? with _ | _ | entry | _
    · exact absurd hlt (Nat.not_lt.2 (List.getElem?_eq_none_iff.1 hslot))
    · exact ⟨hh, fun fuel _ => ⟨fuel, rest_skip key probe hh hi (by rw [hslot]; rfl)⟩⟩
    · exact rest_entry key probe hh hslot
    · exact ⟨hh, fun fuel _ => ⟨fuel, rest_skip key probe hh hi (by rw [hslot]; rfl)⟩⟩
  · rw [hashPcStep, if_neg hi]
    have hdrop : h.elements.drop i = [] := List.drop_eq_nil_of_le (hh.length_eq ▸ not_lt.1 hi)
    exact ⟨0, by simp [HashPc.rest, hdrop, live]⟩

end Accesses

/-- Every access of a call. -/
lemma rest_step (key : α → κ) (probe : κ → UInt64 → UInt64) (hh : h.Whole) (pc : HashPc α κ) :
    RestOk key probe h pc (hashPcStep key probe h pc) := by
  cases pc with
  | find search level =>
      exact rest_search hh (.find search) (fun q => .found search q.1 q.2)
        (fun _ hle hends => afterFind_mono hle hends) rfl fun _ _ => rfl
  | found search index status => exact rest_found key probe hh search index status
  | countEntry => exact ⟨⟨hh.length_eq, hh.free⟩, fun fuel _ => ⟨fuel, rfl⟩⟩
  | test => exact rest_test key probe hh
  | rehash src => exact rest_rehash key probe hh src
  | refind entry src level =>
      exact rest_search hh (.refind entry src) (fun q => .place entry src q.1 q.2)
        (fun _ hle hends => afterPlace_mono hle hends) rfl fun _ _ => rfl
  | place entry src index status => exact rest_place key probe hh entry src index status
  | uncountEntry entry => exact ⟨⟨hh.length_eq, hh.free⟩, fun fuel _ => ⟨fuel, rfl⟩⟩
  | countRemoved entry => exact ⟨⟨hh.length_eq, hh.free⟩, fun fuel _ => ⟨fuel, rfl⟩⟩
  | free entry => exact ⟨0, rfl⟩
  | alloc keys =>
      refine ⟨hh, fun fuel _ => ⟨fuel, ?_⟩⟩
      simp only [HashPc.rest, List.drop_zero, List.nil_append]
      rcases live h.elements with _ | ⟨a, l⟩ <;> simp
  | collect keys size i ret => exact rest_collect key probe hh keys size i ret

/-- The accesses of a call that has taken the lock for reading. -/
def HashPc.reads : HashPc α κ → Bool
  | .find (.get _) _ => true
  | .found (.get _) _ _ => true
  | .alloc _ => true
  | .collect _ _ _ _ => true
  | _ => false

omit [DecidableEq κ] in
lemma reads_start {op : HashOp α κ} (hop : op.writes = false) : op.start.reads = true := by
  cases op <;> first | rfl | cases hop

/-- A reader does not change the table. -/
lemma reads_step {pc : HashPc α κ} (hpc : pc.reads = true) {h' : HashT α}
    {next : Next (HashPc α κ) (HashRes α κ)}
    (hstep : hashPcStep key probe h pc = .ret (h', next)) :
    h' = h ∧ ∀ pc', next = .go pc' → pc'.reads = true := by
  cases pc with
  | find search level =>
      cases search with
      | get k =>
          rw [hashPcStep, HashSearch.target] at hstep
          rcases findStep_cases key probe h k level with hfind | ⟨q, hfind⟩ | hfind <;>
            rw [hfind] at hstep
          · obtain ⟨rfl, rfl⟩ := Prod.mk.inj (Outcome.ret.inj hstep)
            exact ⟨rfl, by rintro pc' ⟨⟩; rfl⟩
          · obtain ⟨rfl, rfl⟩ := Prod.mk.inj (Outcome.ret.inj hstep)
            exact ⟨rfl, by rintro pc' ⟨⟩; rfl⟩
          · cases hstep
      | add entry => cases hpc
      | remove k => cases hpc
  | found search index status =>
      cases search with
      | get k =>
          obtain ⟨rfl, rfl⟩ := Prod.mk.inj (Outcome.ret.inj hstep)
          exact ⟨rfl, by rintro pc' ⟨⟩⟩
      | add entry => cases hpc
      | remove k => cases hpc
  | alloc keys =>
      obtain ⟨rfl, rfl⟩ := Prod.mk.inj (Outcome.ret.inj hstep)
      exact ⟨rfl, by rintro pc' ⟨⟩; rfl⟩
  | collect keys size i ret =>
      rw [hashPcStep] at hstep
      split at hstep
      · split at hstep
        · cases hstep
        · split at hstep
          · obtain ⟨rfl, rfl⟩ := Prod.mk.inj (Outcome.ret.inj hstep)
            exact ⟨rfl, by rintro pc' ⟨⟩; rfl⟩
          · cases hstep
        · obtain ⟨rfl, rfl⟩ := Prod.mk.inj (Outcome.ret.inj hstep)
          exact ⟨rfl, by rintro pc' ⟨⟩; rfl⟩
      · obtain ⟨rfl, rfl⟩ := Prod.mk.inj (Outcome.ret.inj hstep)
        exact ⟨rfl, by rintro pc' ⟨⟩⟩
  | _ => cases hpc

/-- What is left of a call that has begun is what is left of the whole call. -/
lemma rest_of_steps {c : HashT α} (hc : c.Whole) {op : HashOp α κ} {q : HashT α × HashPc α κ}
    (hsteps : Relation.ReflTransGen (OpStep (hashObject key probe)) (c, op.start) q) :
    q.1.Whole ∧ (∀ fuel, q.2.rest key probe fuel q.1 ≠ .spin →
      ∃ fuel', hashStep key probe fuel' op c = q.2.rest key probe fuel q.1) ∧
      (op.writes = false → q.1 = c ∧ q.2.reads = true) := by
  induction hsteps with
  | refl =>
      exact ⟨hc, fun fuel _ => ⟨fuel, (rest_start hc.free op).symm⟩,
        fun hop => ⟨rfl, reads_start hop⟩⟩
  | @tail q q' _ hstep ih =>
      obtain ⟨hwhole, hrest, hreads⟩ := ih
      have hstep' : hashPcStep key probe q.1 q.2 = .ret (q'.1, .go q'.2) := hstep
      have hok := rest_step key probe hwhole q.2
      rw [hstep'] at hok
      obtain ⟨hwhole', hnext⟩ := hok
      refine ⟨hwhole', fun fuel hends => ?_, fun hop => ?_⟩
      · obtain ⟨fuel', heq⟩ := hnext fuel hends
        rw [← heq] at hends ⊢
        exact hrest fuel' hends
      · obtain ⟨hsame, hpc⟩ := hreads hop
        obtain ⟨hsame', hpc'⟩ := reads_step hpc hstep'
        exact ⟨hsame'.trans hsame, hpc' q'.2 rfl⟩

omit [DecidableEq κ] in
lemma HashInv.whole {m : κ → Option α} (hinv : HashInv key probe m h) : h.Whole :=
  ⟨hinv.length_eq, hinv.unlocked⟩

/-- **The accesses of a call make the call.** -/
lemma hashObject_implements :
    (hashObject key probe).Implements (fun c => ∃ m, HashInv key probe m c)
      fun c op r c' => ∃ fuel, hashStep key probe fuel op c = .ret (r, c') := by
  rintro c op ⟨m, hinv⟩ h pc hsteps
  obtain ⟨hwhole, hrest, hreads⟩ := rest_of_steps hinv.whole hsteps
  have hok := rest_step key probe hwhole pc
  show (hashPcStep key probe h pc).Meets False True _
  have hsame : op.writes = false → ∀ h' next, hashPcStep key probe h pc = .ret (h', next) →
      h' = h := fun hop h' next hstep => (reads_step (hreads hop).2 hstep).1
  rcases hstep : hashPcStep key probe h pc with ⟨h', pc' | ⟨r, unlocks⟩⟩ | _ | _ | _
  · exact fun hop => hsame hop _ _ hstep
  · rw [hstep] at hok
    obtain ⟨fuel, heq⟩ := hok
    obtain ⟨fuel', hcall⟩ := hrest fuel (by rw [heq]; simp)
    rw [heq] at hcall
    have hmeets := hashStep_meets fuel' op hinv
    rw [hcall] at hmeets
    obtain ⟨⟨m', -, hinv'⟩, -⟩ := hmeets
    cases unlocks with
    | true => exact ⟨rfl, ⟨fuel', hcall⟩, ⟨m', hinv'⟩, fun hop => hsame hop _ _ hstep⟩
    | false => cases hinv'.unlocked
  · rw [hstep] at hok
    exact hok
  · trivial
  · rw [hstep] at hok
    obtain ⟨fuel, heq⟩ := hok
    obtain ⟨fuel', hcall⟩ := hrest fuel (by rw [heq]; simp)
    have hmeets := hashStep_meets fuel' op hinv
    rw [hcall, heq] at hmeets
    exact hmeets.elim

end Alone

/-! ### The threads -/

section Threads

variable [DecidableEq κ] {ι : Type} [DecidableEq ι]

/-- The invariant of a run: the calls that are done have led to a table that is whole. -/
lemma hash_threads_inv (key : α → κ) (probe : κ → UInt64 → UInt64)
    {s : LockState (HashT α) (HashOp α κ) (HashRes α κ) (HashPc α κ) ι}
    (hrun : Relation.ReflTransGen (LockStep (hashObject key probe)) (.initial (hashAlloc α)) s) :
    ∃ c m, LockInv (hashObject key probe) (fun c => ∃ m, HashInv key probe m c)
        (fun c op r c' => ∃ fuel, hashStep key probe fuel op c = .ret (r, c')) (hashAlloc α) c s ∧
      SpecRun (MapSpec key) (fun _ => none) (s.log.map Prod.fst) (s.log.map Prod.snd) m ∧
      HashInv key probe m c := by
  obtain ⟨c, hinv⟩ := linearizable hashObject_implements ⟨_, hashAlloc_inv⟩ hrun
  have hsim : ∀ m c op r c', HashInv key probe m c →
      (∃ fuel, hashStep key probe fuel op c = .ret (r, c')) →
      ∃ m', MapSpec key m op r m' ∧ HashInv key probe m' c' := by
    rintro m c op r c' hm ⟨fuel, hcall⟩
    have hmeets := hashStep_meets fuel op hm
    rw [hcall] at hmeets
    exact hmeets.1
  obtain ⟨m, hspec, hm⟩ := hinv.run.simulates hsim hashAlloc_inv
  exact ⟨c, m, hinv, hspec, hm⟩

/-- **Threads that share a hash table get what one call after another gives.**  In every run of
threads that call the functions of the table in any order, with the accesses of their calls in any
order that `hash_rwlock` allows, the calls that are done have given the results of the finite map,
in the order in which they are done.  Whenever no writer is at the table it represents this map;
nothing undefined happens, and no call that is done has kept the lock. -/
theorem hash_threads_linearizable (key : α → κ) (probe : κ → UInt64 → UInt64)
    {s : LockState (HashT α) (HashOp α κ) (HashRes α κ) (HashPc α κ) ι}
    (hrun : Relation.ReflTransGen (LockStep (hashObject key probe)) (.initial (hashAlloc α)) s) :
    ∃ m, SpecRun (MapSpec key) (fun _ => none) (s.log.map Prod.fst) (s.log.map Prod.snd) m ∧
      ((∀ i op pc, s.threads i = .inside op pc → op.writes = false) →
        HashInv key probe m s.content) ∧
      s.ended ≠ some .faulted ∧
      ∀ i op r unlocks, s.threads i = .leaving op r unlocks → unlocks = true := by
  obtain ⟨c, m, hinv, hspec, hm⟩ := hash_threads_inv key probe hrun
  refine ⟨m, hspec, fun hall => ?_, hinv.safe, hinv.released⟩
  rw [hinv.settled hall]
  exact hm

end Threads

/-! ### Threads that are alone -/

section Runs

variable [DecidableEq κ]

/-- The loop of `hash_get_entries` and `hash_get_keys`, when there is room for the rest. -/
lemma collect_steps (key : α → κ) (probe : κ → UInt64 → UInt64) {h : HashT α} (hh : h.Whole)
    (keys : Bool) (size i : ℕ) (ret : List α) (hi : i ≤ h.hashSize)
    (hroom : ret.length + (live (h.elements.drop i)).length ≤ size) :
    Relation.ReflTransGen (OpStep (hashObject key probe)) (h, .collect keys size i ret)
      (h, .collect keys size h.hashSize (ret ++ live (h.elements.drop i))) := by
  induction hn : h.hashSize - i generalizing i ret with
  | zero =>
      obtain rfl : i = h.hashSize := by omega
      rw [List.drop_eq_nil_of_le hh.length_eq.le]
      simp only [live, List.filterMap_nil, List.append_nil]
      exact .refl
  | succ n ih =>
      have hlt : i < h.hashSize := by omega
      have hlength : i < h.elements.length := hh.length_eq ▸ hlt
      have hget := List.getElem?_eq_getElem hlength
      have hdrop := List.drop_eq_getElem_cons hlength
      have hlive : ∀ a, live (Slot.occupied a :: h.elements.drop (i + 1))
          = a :: live (h.elements.drop (i + 1)) := fun _ => rfl
      have hskip : ∀ slot, h.elements[i]? = some slot → slot.elem? = none →
          OpStep (hashObject key probe) (h, .collect keys size i ret)
            (h, .collect keys size (i + 1) ret) := by
        intro slot hslot hnone
        rw [OpStep, hashObject_step, hashPcStep, if_pos hlt, hslot]
        cases slot with
        | occupied a => cases hnone
        | _ => rfl
      rw [hdrop] at hroom ⊢
      cases hslot : h.elements[i] with
      | occupied a =>
          rw [hslot] at hget hroom
          rw [hlive, List.length_cons] at hroom
          have hstep : OpStep (hashObject key probe) (h, .collect keys size i ret)
              (h, .collect keys size (i + 1) (ret ++ [a])) := by
            rw [OpStep, hashObject_step, hashPcStep, if_pos hlt, hget]
            simp only [show ret.length < size by omega, if_true]
          rw [hlive, List.append_cons]
          refine .head hstep (ih (i + 1) (ret ++ [a]) hlt ?_ (by omega))
          rw [List.length_append, List.length_singleton]
          omega
      | _ =>
          rw [hslot] at hget hroom
          exact .head (hskip _ hget rfl) (ih (i + 1) ret hlt hroom (by omega))

/-- `hash_get_entries`. -/
lemma entries_steps (key : α → κ) (probe : κ → UInt64 → UInt64) {h : HashT α} (hh : h.Whole)
    (hcount : h.hashEntryCount = (live h.elements).length) :
    ∃ pc, Relation.ReflTransGen (OpStep (hashObject key probe)) (h, HashOp.getEntries.start)
        (h, pc) ∧
      (hashObject key probe).step h pc
        = .ret (h, .done (.entries (live h.elements) h.hashEntryCount) true) := by
  refine ⟨.collect false h.hashEntryCount h.hashSize (live h.elements), ?_, ?_⟩
  · have hstart : OpStep (hashObject key probe) (h, HashOp.getEntries.start)
        (h, .collect false h.hashEntryCount 0 []) := rfl
    refine .head hstart (collect_steps key probe hh false _ 0 [] (Nat.zero_le _) ?_)
    rw [List.drop_zero, hcount, List.length_nil, Nat.zero_add]
  · rw [hashObject_step, hashPcStep, if_neg (lt_irrefl _)]
    rfl

/-- `hash_add` on a new table. -/
lemma add_steps (key : α → κ) (probe : κ → UInt64 → UInt64) (entry : α) :
    ∃ h : HashT α, h.Whole ∧ live h.elements = [entry] ∧ h.hashEntryCount = 1 ∧
      Relation.ReflTransGen (OpStep (hashObject key probe)) (hashAlloc α, (HashOp.add entry).start)
        (h, .test) ∧
      (hashObject key probe).step h .test = .ret (h, .done (.status .succeed) true) := by
  set index := slotSeq probe (hashAlloc α).hashSize (key entry) 0
  have hinv : HashInv key probe (fun _ => none) (hashAlloc α) := hashAlloc_inv
  have hslot : (hashAlloc α).elements[index]? = some .empty :=
    List.getElem?_replicate_of_lt (Nat.mod_lt _ hinv.size_pos)
  have hfind : OpStep (hashObject key probe) (hashAlloc α, (HashOp.add entry).start)
      (hashAlloc α, .found (.add entry) index .empty) := by
    rw [OpStep, hashObject_step, HashOp.start, hashPcStep, HashSearch.target, findStep, hslot]
    rfl
  have hlive := (live_set_occupied hslot entry).1
  rw [show live (hashAlloc α).elements = [] from live_replicate_empty _] at hlive
  set h : HashT α := { hashAlloc α with
    elements := (hashAlloc α).elements.set index (.occupied entry) } with hdef
  have hfound : OpStep (hashObject key probe)
      (hashAlloc α, .found (.add entry) index .empty) (h, .countEntry) := rfl
  have hcount : OpStep (hashObject key probe) (h, .countEntry)
      ({ h with hashEntryCount := 1 }, .test) := rfl
  refine ⟨{ h with hashEntryCount := 1 }, ⟨?_, rfl⟩, List.perm_singleton.1 hlive, rfl,
    ((Relation.ReflTransGen.single hfind).tail hfound).tail hcount, ?_⟩
  · rw [hdef, List.length_set]
    exact hinv.length_eq
  · have hlt := lt_findFirstPrime (n := hashInitSize) (by decide)
    rw [hashObject_step, hashPcStep, if_neg]
    show ¬ (1 + 0) * rehashRate > findFirstPrime hashInitSize
    rw [hashInitSize] at hlt ⊢
    rw [rehashRate]
    omega

end Runs

/-- One thread adds an entry while another one waits to ask for its key. -/
theorem hash_threads_linearizable_waiting :
    ∃ (s : LockState (HashT (ℕ × ℕ)) (HashOp (ℕ × ℕ) ℕ) (HashRes (ℕ × ℕ) ℕ)
        (HashPc (ℕ × ℕ) ℕ) Bool) (m : ℕ → Option (ℕ × ℕ)),
      s.threads true = .waiting (.get 1) ∧
      s.threads false = .leaving (.add (1, 7)) (.status .succeed) true ∧
      SpecRun (MapSpec Prod.fst) (fun _ => none) (s.log.map Prod.fst) (s.log.map Prod.snd) m ∧
      m 1 = some (1, 7) := by
  let probe : ℕ → UInt64 → UInt64 := fun k l => UInt64.ofNat k + l
  obtain ⟨h, -, -, -, hops, hdone⟩ := add_steps Prod.fst probe (1, 7)
  let s₁ : LockState (HashT (ℕ × ℕ)) (HashOp (ℕ × ℕ) ℕ) (HashRes (ℕ × ℕ) ℕ)
      (HashPc (ℕ × ℕ) ℕ) Bool := (LockState.initial (hashAlloc _)).move true (.waiting (.get 1))
  let s := s₁.move false (.waiting (.add (1, 7)))
  have hget : LockStep (hashObject Prod.fst probe) (.initial (hashAlloc _)) s₁ := .call rfl rfl _
  have hcalls : Relation.ReflTransGen (LockStep (hashObject Prod.fst probe)) (.initial _) s :=
    (Relation.ReflTransGen.single hget).tail (.call rfl rfl _)
  have hfree : s.Free := (LockState.free_initial.move rfl).move rfl
  have hadd := inner_run (s := s) (i := false) rfl rfl hfree hops hdone
  obtain ⟨m, hspec, -⟩ :=
    hash_threads_linearizable _ _ (hcalls.trans (lockSteps_of_inner hadd))
  refine ⟨_, m, rfl, rfl, hspec, ?_⟩
  have hlog : SpecRun (MapSpec (κ := ℕ) Prod.fst) (fun _ => none)
    [HashOp.add (1, 7)] [.status .succeed] m := hspec
  obtain _ | ⟨⟨ret, -, hadd⟩, _ | _⟩ := hlog
  rw [hadd.2]
  rfl

end CheckQ
