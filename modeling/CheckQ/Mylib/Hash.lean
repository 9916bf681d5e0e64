import CheckQ.Lib.Refinement
import CheckQ.Lib.Probing
import CheckQ.Mylib.Clib
import Mathlib.Data.Nat.Sqrt

/-!
# The hash table of `mylib/hash.c`

An open-addressing table with tombstones.  The entries are of an arbitrary type `α`;
`key` is `hash_entry_key_func` together with `hash_key_size_func`, so that the key of
an entry is its key bytes, and `probe` stands in the place of `hash_func`.  The key
pointer of an element points into its entry, and the keys of stored entries are not
modified, so a slot carries the entry alone.

The probe loop of `hash_find` has no exit of its own, so it is run with a number of
rounds.  The rwlock is a flag; taking it while it is held, as a call after one that
left it locked would, is a fault.  `freed` lists the entries that have been passed to
`hash_entry_free_func`.
-/

namespace CheckQ

/-- `HASH_INIT_SIZE`. -/
def hashInitSize : ℕ := 10

/-- `REHASH_RATE`. -/
def rehashRate : ℕ := 2

/-- The largest `int`. -/
def intMax : ℕ := 2 ^ 31 - 1

/-- No `i` with `2 ≤ i ≤ √n` divides `n`: the inner loop of `find_first_prime`. -/
def noSmallDivisor (n : ℕ) : Bool :=
  (List.range' 2 (Nat.sqrt n - 1)).all fun i => n % i ≠ 0

/-- The outer loop of `find_first_prime`. -/
def findFirstPrimeLoop : ℕ → ℕ → ℕ
  | 0, n => n
  | fuel + 1, n => if noSmallDivisor (n + 1) then n + 1 else findFirstPrimeLoop fuel (n + 1)

/-- `find_first_prime`.  There is a prime between `n` and `2n`, so `n` rounds are
enough for every `n ≥ 1`. -/
def findFirstPrime (n : ℕ) : ℕ := findFirstPrimeLoop n n

/-- `hash_entry_status_t`. -/
inductive HashEntryStatus where
  | empty
  | occupied
  | removed
deriving DecidableEq, Repr

/-- `hash_t`. -/
structure HashT (α : Type) where
  /-- The slots. -/
  elements : List (Slot α)
  /-- The number of slots. -/
  hashSize : ℕ
  /-- The number of entries. -/
  hashEntryCount : ℕ
  /-- The number of tombstones. -/
  hashEntryRemovedCount : ℕ
  /-- The rwlock is held. -/
  hashRwlock : Bool
  /-- The entries passed to `hash_entry_free_func`, the last one first. -/
  freed : List α
deriving DecidableEq, Repr

/-- `hash_alloc`. -/
def hashAlloc (α : Type) : HashT α where
  elements := List.replicate (findFirstPrime hashInitSize) .empty
  hashSize := findFirstPrime hashInitSize
  hashEntryCount := 0
  hashEntryRemovedCount := 0
  hashRwlock := false
  freed := []

variable {α κ : Type}

/-- `my_wrlock` and `my_rdlock`, called by the only thread that uses the table. -/
def HashT.lock (h : HashT α) : Outcome (HashT α) :=
  if h.hashRwlock then .fault else .ret { h with hashRwlock := true }

/-- `my_rwunlock`. -/
def HashT.unlock (h : HashT α) : HashT α := { h with hashRwlock := false }

/-- The slot that the probe loop looks at for the key `k` at a given level.  The level
is a `uint64_t`. -/
def slotSeq (probe : κ → UInt64 → UInt64) (hashSize : ℕ) (k : κ) (level : ℕ) : ℕ :=
  (probe k (UInt64.ofNat level)).toNat % hashSize

variable [DecidableEq κ] (key : α → κ) (probe : κ → UInt64 → UInt64)

/-- `hash_find`, from a given level on.  A slot number outside the table means that
`hash_size` is zero or larger than the block. -/
def hashFind (elements : List (Slot α)) (hashSize : ℕ) (k : κ) :
    ℕ → ℕ → Outcome (ℕ × HashEntryStatus)
  | 0, _ => .spin
  | fuel + 1, level =>
      let index := slotSeq probe hashSize k level
      match elements[index]? with
      | none => .fault
      | some .empty => .ret (index, .empty)
      | some (.occupied a) =>
          if key a = k then .ret (index, .occupied)
          else hashFind elements hashSize k fuel (level + 1)
      | some .removed => hashFind elements hashSize k fuel (level + 1)

/-- The loop of `rehash` over the old slots. -/
def rehashLoop (fuel : ℕ) : List (Slot α) → HashT α → Outcome (RetT × HashT α)
  | [], h => .ret (.succeed, h)
  | .empty :: src, h => rehashLoop fuel src h
  | .removed :: src, h => rehashLoop fuel src h
  | .occupied a :: src, h => do
      let (index, status) ← hashFind key probe h.elements h.hashSize (key a) fuel 0
      if status ≠ .empty then
        return (.failed, h)
      else
        rehashLoop fuel src { h with elements := h.elements.set index (.occupied a) }

/-- `rehash`: clear the new block and enter the old entries into it. -/
def rehash (fuel : ℕ) (h : HashT α) (srcElements : List (Slot α)) : Outcome (RetT × HashT α) :=
  rehashLoop key probe fuel srcElements { h with elements := List.replicate h.hashSize .empty }

/-- The size of the block that `hash_add` rehashes into.  A doubled size that is no
`int` makes `find_first_prime` return a negative number and `my_malloc` stop the
process. -/
def rehashSize (h : HashT α) : Outcome ℕ :=
  if h.hashEntryCount < h.hashEntryRemovedCount then .ret h.hashSize
  else if h.hashSize * rehashRate ≤ intMax then .ret (findFirstPrime (h.hashSize * rehashRate))
  else .abort

/-- `hash_add`.  The branch that reports a failed rehash returns without unlocking. -/
def hashAdd (fuel : ℕ) (h : HashT α) (entry : α) : Outcome (RetT × HashT α) := do
  let h ← h.lock
  let (index, status) ← hashFind key probe h.elements h.hashSize (key entry) fuel 0
  if status ≠ .empty then
    return (.failed, h.unlock)
  else
    let h := { h with
      elements := h.elements.set index (.occupied entry)
      hashEntryCount := h.hashEntryCount + 1 }
    if (h.hashEntryCount + h.hashEntryRemovedCount) * rehashRate > h.hashSize then
      let size ← rehashSize h
      let (ret, h) ← rehash key probe fuel
        { h with hashSize := size, hashEntryRemovedCount := 0 } h.elements
      if ret ≠ .succeed then
        return (.failed, h)
      else
        return (.succeed, h.unlock)
    else
      return (.succeed, h.unlock)

/-- `hash_get`; `none` is the null pointer. -/
def hashGet (fuel : ℕ) (h : HashT α) (k : κ) : Outcome (Option α × HashT α) := do
  let h ← h.lock
  let (index, status) ← hashFind key probe h.elements h.hashSize k fuel 0
  if status = .occupied then
    return (h.elements[index]?.bind Slot.elem?, h.unlock)
  else
    return (none, h.unlock)

/-- `hash_remove`. -/
def hashRemove (fuel : ℕ) (h : HashT α) (k : κ) : Outcome (RetT × HashT α) := do
  let h ← h.lock
  let (index, status) ← hashFind key probe h.elements h.hashSize k fuel 0
  if status = .occupied then
    let entry := h.elements[index]?.bind Slot.elem?
    let h := { h with
      elements := h.elements.set index .removed
      hashEntryCount := h.hashEntryCount - 1
      hashEntryRemovedCount := h.hashEntryRemovedCount + 1
      freed := entry.toList ++ h.freed }
    return (.succeed, h.unlock)
  else
    return (.succeed, h.unlock)

/-- The loop of `hash_get_entries` and `hash_get_keys`: `f` of each entry goes into a
block of `hash_entry_count` cells, and that number is returned with the block. -/
def hashCollect {β : Type} (f : α → β) (h : HashT α) : Outcome ((List β × ℕ) × HashT α) := do
  let h ← h.lock
  let ret := (Probing.live h.elements).map f
  if h.hashEntryCount < ret.length then .fault
  else return ((ret, h.hashEntryCount), h.unlock)

/-- `hash_get_entries`. -/
def hashGetEntries (h : HashT α) : Outcome ((List α × ℕ) × HashT α) := hashCollect id h

/-- `hash_get_keys`. -/
def hashGetKeys (h : HashT α) : Outcome ((List κ × ℕ) × HashT α) := hashCollect key h

/-- `hash_destroy`: the table is gone, and what it has passed to `hash_entry_free_func` is left,
the last entry first. -/
def hashDestroy (h : HashT α) : Outcome (List α) := do
  let h ← h.lock
  return (Probing.live h.elements).foldl (fun freed entry => entry :: freed) h.freed

end CheckQ
