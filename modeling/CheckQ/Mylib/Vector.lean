import CheckQ.Lib.Refinement
import CheckQ.Lib.RingBuffer
import CheckQ.Mylib.Clib

/-!
# The vector of `mylib/vector.c`

A growing ring buffer.  A cell of the block is `none` as long as nothing has been written
to it since it was allocated, and `blockLive` says whether the block that `elements`
points to is still allocated.  It can stop being so in `vector_empty`: `my_realloc` gives
its argument back and not what `realloc` returned, so a `realloc` that has moved the block
leaves the vector with the old address.  Whether it moves is up to the allocator, and
`vectorEmpty` takes it as an argument.  Using a block that is not allocated, or a cell
outside it, is a fault.

`start == end` stands for both the empty and the full vector, and `isempty` tells them
apart.  Capacities are natural numbers.  Every function takes the rwlock of the vector first and
gives it back last, so the lock is left out; `freed` lists the entries that have been passed
to `entry_free_func`, in order.
-/

namespace CheckQ

/-- `VECTOR_INIT_SIZE`. -/
def vectorInitSize : ℕ := 10

/-- `VECTOR_GROW_FACTOR`. -/
def vectorGrowFactor : ℕ := 2

/-- `vector_t`; the field `end` of the source is `stop`. -/
structure VectorT (α : Type) where
  elements : List (Option α)
  blockLive : Bool
  start : ℕ
  stop : ℕ
  capacity : ℕ
  isempty : Bool
  freed : List α
deriving DecidableEq, Repr

/-- What a function that gives an entry pointer returns: `NULL`, what an entry pointer
that has never been set happens to be, or an entry. -/
inductive Fetched (α : Type) where
  | null
  | unset
  | entry (a : α)
deriving DecidableEq, Repr

/-- What is in a cell. -/
def Fetched.ofCell {α : Type} : Option α → Fetched α
  | none => .unset
  | some a => .entry a

variable {α : Type}

namespace VectorT

/-- Read `elements[i].entry`. -/
def read (v : VectorT α) (i : ℕ) : Outcome (Option α) :=
  if v.blockLive then
    match v.elements[i]? with
    | none => .fault
    | some c => .ret c
  else .fault

/-- Write `elements[i].entry`. -/
def write (v : VectorT α) (i : ℕ) (entry : α) : Outcome (VectorT α) :=
  if v.blockLive ∧ i < v.elements.length then
    .ret { v with elements := v.elements.set i (some entry) }
  else .fault

end VectorT

/-- `get_next_index`. -/
def getNextIndex (v : VectorT α) (index : ℕ) : ℕ :=
  if index < v.capacity - 1 then index + 1 else 0

/-- `get_prev_index`. -/
def getPrevIndex (v : VectorT α) (index : ℕ) : ℕ :=
  if index = 0 then v.capacity - 1 else index - 1

/-- `get_real_index`. -/
def getRealIndex (v : VectorT α) (index : ℕ) : ℕ :=
  let realIndex := v.start + index
  if realIndex < v.capacity then realIndex else realIndex - v.capacity

/-- `vector_isfull`. -/
def vectorIsfull (v : VectorT α) : Bool :=
  !v.isempty && v.stop == v.start

/-- `vector_grow`: a block of twice the size, the cells from `start` on first and then
those before it.  The assertion in front of it is compiled in. -/
def vectorGrow (v : VectorT α) : Outcome (RetT × VectorT α) :=
  if vectorIsfull v = false then .abort
  else if v.blockLive ∧ v.elements.length = v.capacity then
    let newCapacity := v.capacity * vectorGrowFactor
    .ret (.succeed, { v with
      elements := v.elements.drop v.start ++ v.elements.take v.start ++
        List.replicate (newCapacity - v.capacity) none
      start := 0
      stop := v.capacity
      capacity := newCapacity })
  else .fault

/-- `vector_alloc`. -/
def vectorAlloc (α : Type) : VectorT α where
  elements := List.replicate vectorInitSize none
  blockLive := true
  start := 0
  stop := 0
  capacity := vectorInitSize
  isempty := true
  freed := []

/-- The test `vector_isfull(vector) && vector_grow(vector) != RET_SUCCEED` in front of both
insertions: whether the insertion is given up, and the vector after it. -/
def vectorMakeRoom (v : VectorT α) : Outcome (Bool × VectorT α) :=
  if vectorIsfull v then do
    let (ret, v) ← vectorGrow v
    return (ret ≠ .succeed, v)
  else return (false, v)

/-- `vector_push_back`. -/
def vectorPushBack (v : VectorT α) (entry : α) : Outcome (RetT × VectorT α) := do
  let (full, v) ← vectorMakeRoom v
  if full then
    return (.failed, v)
  else
    let v ← v.write v.stop entry
    return (.succeed, { v with stop := getNextIndex v v.stop, isempty := false })

/-- `vector_pop`. -/
def vectorPop (v : VectorT α) : Outcome (Fetched α × VectorT α) :=
  if v.isempty then return (.null, v)
  else do
    let index := getPrevIndex v v.stop
    let c ← v.read index
    return (.ofCell c, { v with stop := index, isempty := index == v.start })

/-- `vector_unshift`. -/
def vectorUnshift (v : VectorT α) (entry : α) : Outcome (RetT × VectorT α) := do
  let (full, v) ← vectorMakeRoom v
  if full then
    return (.failed, v)
  else
    let index := getPrevIndex v v.start
    let v ← v.write index entry
    return (.succeed, { v with start := index, isempty := false })

/-- `vector_shift`. -/
def vectorShift (v : VectorT α) : Outcome (Fetched α × VectorT α) :=
  if v.isempty then return (.null, v)
  else do
    let c ← v.read v.start
    let index := getNextIndex v v.start
    return (.ofCell c, { v with start := index, isempty := v.stop == index })

/-- `vector_get`. -/
def vectorGet (v : VectorT α) (index : ℕ) : Outcome (Fetched α) :=
  if v.isempty ∨ index ≥ v.capacity then return .null
  else do
    let c ← v.read (getRealIndex v index)
    return .ofCell c

/-- `vector_size`. -/
def vectorSize (v : VectorT α) : ℕ :=
  if v.isempty then 0
  else if v.start < v.stop then v.stop - v.start
  else v.capacity - v.start + v.stop

/-- `vector_isempty`. -/
def vectorIsempty (v : VectorT α) : Bool := v.isempty

/-- The loop that frees the entries from `i` up to `end`.  A vector that is not broken has
at most `capacity` of them; an entry that was never set cannot be freed. -/
def vectorFreeLoop (v : VectorT α) : ℕ → ℕ → Outcome (List α)
  | 0, i => if i = v.stop then .ret [] else .spin
  | fuel + 1, i =>
      if i = v.stop then .ret []
      else do
        match ← v.read i with
        | none => .fault
        | some a =>
            let freed ← vectorFreeLoop v fuel (getNextIndex v i)
            return a :: freed

/-- `my_realloc` of the block to `size` cells; `moved` says whether `realloc` had to move it.
The address that is kept is the old one. -/
def myRealloc (v : VectorT α) (size : ℕ) (moved : Bool) : Outcome (VectorT α) :=
  if v.blockLive then
    if moved then .ret { v with blockLive := false }
    else .ret { v with
      elements := v.elements.take size ++ List.replicate (size - v.elements.length) none }
  else .fault

/-- The entries that `vector_empty` passes to `entry_free_func`. -/
def vectorEmptyFrees (v : VectorT α) : Outcome (List α) :=
  if v.isempty then .ret [] else vectorFreeLoop v v.capacity v.start

/-- `vector_empty`. -/
def vectorEmpty (v : VectorT α) (moved : Bool) : Outcome (RetT × VectorT α) := do
  let freed ← vectorEmptyFrees v
  let v ← myRealloc v vectorInitSize moved
  return (.succeed, { v with
    start := 0
    stop := 0
    isempty := true
    capacity := vectorInitSize
    freed := v.freed ++ freed })

/-- `vector_destroy`: the vector is gone, and what it has passed to `entry_free_func` is left. The
loop is the one of `vector_empty` without the test of `isempty`. -/
def vectorDestroy (v : VectorT α) : Outcome (List α) := do
  let freed ← vectorFreeLoop v v.capacity v.start
  if v.blockLive then return v.freed ++ freed else .fault

end CheckQ
