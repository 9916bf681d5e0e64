import CheckQ.Mylib.Vector

/-!
# The vector is a double-ended queue

The abstract state of a vector is a list.  `VectorInv` relates it to the ring buffer: the
block is allocated and has `capacity` cells, the list is held from `start` on, `end` is the
cell after its last element and `isempty` says whether it is empty.  Every operation keeps
the relation and gives the result of the list operation, with the exception of a
`vector_empty` whose `realloc` moves the block; runs without one follow by data refinement.
-/

namespace CheckQ

open RingBuffer

variable {α : Type}

/-- The vector `v` represents the list `l`. -/
structure VectorInv (l : List α) (v : VectorT α) : Prop where
  blockLive : v.blockLive = true
  length_eq : v.elements.length = v.capacity
  initSize_le : vectorInitSize ≤ v.capacity
  start_lt : v.start < v.capacity
  length_le : l.length ≤ v.capacity
  stop_eq : v.stop = pos v.capacity v.start l.length
  isempty_eq : v.isempty = l.isEmpty
  holds : Holds v.elements v.start l

variable {l : List α} {v : VectorT α}

lemma vectorAlloc_inv : VectorInv [] (vectorAlloc α) := by
  refine ⟨rfl, by simp [vectorAlloc], le_rfl, ?_, Nat.zero_le _, rfl, rfl, holds_nil _ _⟩
  simp only [vectorAlloc, vectorInitSize]
  omega

/-! ### Indices -/

lemma getNextIndex_eq {i : ℕ} (hi : i < v.capacity) : getNextIndex v i = pos v.capacity i 1 := by
  rw [getNextIndex, pos_eq hi (by omega)]
  split <;> split <;> omega

lemma getPrevIndex_eq {i : ℕ} (hi : i < v.capacity) :
    getPrevIndex v i = pos v.capacity i (v.capacity - 1) := by
  rw [getPrevIndex, pos_eq hi (by omega)]
  split <;> split <;> omega

namespace VectorInv

lemma capacity_pos (h : VectorInv l v) : 0 < v.capacity := Nat.zero_lt_of_lt h.start_lt

lemma stop_lt (h : VectorInv l v) : v.stop < v.capacity := by
  rw [h.stop_eq]
  exact pos_lt h.capacity_pos _ _

/-- `start == end` exactly for the empty and for the full vector. -/
lemma stop_eq_start_iff (h : VectorInv l v) :
    v.stop = v.start ↔ l.length = 0 ∨ l.length = v.capacity := by
  have hs := h.start_lt
  have hl := h.length_le
  rw [h.stop_eq, pos_eq hs hl]
  split <;> omega

lemma isfull_iff (h : VectorInv l v) : vectorIsfull v = true ↔ l.length = v.capacity := by
  have hcap := h.capacity_pos
  rw [vectorIsfull, h.isempty_eq, Bool.and_eq_true, beq_iff_eq, h.stop_eq_start_iff]
  cases l with
  | nil => simp; omega
  | cons a l => simp

lemma size_eq (h : VectorInv l v) : vectorSize v = l.length := by
  have hs := h.start_lt
  have hl := h.length_le
  rw [vectorSize, h.isempty_eq, h.stop_eq, pos_eq hs hl]
  cases l with
  | nil => simp
  | cons a l =>
      simp only [List.isEmpty_cons, Bool.false_eq_true, if_false, List.length_cons] at *
      split <;> split <;> omega

/-- Reading the cell of an element. -/
lemma read_eq (h : VectorInv l v) {i : ℕ} {a : α} (hi : l[i]? = some a) :
    v.read (pos v.capacity v.start i) = .ret (some a) := by
  have hcell := h.holds i a hi
  rw [h.length_eq] at hcell
  simp [VectorT.read, h.blockLive, hcell]

/-- Writing any cell of the block. -/
lemma write_eq (h : VectorInv l v) {i : ℕ} (hi : i < v.capacity) (a : α) :
    v.write i a = .ret { v with elements := v.elements.set i (some a) } := by
  rw [VectorT.write, if_pos ⟨h.blockLive, h.length_eq ▸ hi⟩]

end VectorInv

/-! ### Growing -/

/-- `vector_grow` keeps the list and makes room for more. -/
lemma vectorGrow_meets (h : VectorInv l v) (hfull : l.length = v.capacity) :
    (vectorGrow v).Meets False False fun q =>
      q.1 = .succeed ∧ VectorInv l q.2 ∧ l.length < q.2.capacity := by
  have hcap := h.capacity_pos
  have hs := h.start_lt
  have hinit := h.initSize_le
  rw [vectorGrow, h.isfull_iff.2 hfull, if_neg (by decide),
    if_pos ⟨h.blockLive, h.length_eq⟩]
  refine ⟨rfl, ⟨h.blockLive, ?_, ?_, ?_, ?_, ?_, h.isempty_eq, ?_⟩, ?_⟩
  · simp only [List.length_append, List.length_drop, List.length_take, List.length_replicate,
      h.length_eq, vectorGrowFactor]
    omega
  · simp only [vectorGrowFactor]
    omega
  · simp only [vectorGrowFactor]
    omega
  · simp only [vectorGrowFactor]
    omega
  · rw [pos, hfull, Nat.zero_add, Nat.mod_eq_of_lt]
    simp only [vectorGrowFactor]
    omega
  · exact h.holds.unroll (h.length_eq ▸ hs) (hfull.trans h.length_eq.symm) _
  · simp only [vectorGrowFactor]
    omega

lemma vectorMakeRoom_meets (h : VectorInv l v) :
    (vectorMakeRoom v).Meets False False fun q =>
      q.1 = false ∧ VectorInv l q.2 ∧ l.length < q.2.capacity := by
  rw [vectorMakeRoom]
  by_cases hfull : l.length = v.capacity
  · rw [if_pos (h.isfull_iff.2 hfull)]
    refine (vectorGrow_meets h hfull).bind ?_
    rintro ⟨r, v'⟩ ⟨rfl, hinv, hlt⟩
    exact ⟨rfl, hinv, hlt⟩
  · rw [if_neg (fun hf => hfull (h.isfull_iff.1 hf))]
    exact ⟨rfl, h, lt_of_le_of_ne h.length_le hfull⟩

/-! ### The operations at the two ends -/

lemma vectorPushBack_meets (h : VectorInv l v) (a : α) :
    (vectorPushBack v a).Meets False False fun q =>
      q.1 = .succeed ∧ VectorInv (l ++ [a]) q.2 := by
  refine (vectorMakeRoom_meets h).bind ?_
  rintro ⟨full, v⟩ ⟨rfl, h, hlt⟩
  simp only [Bool.false_eq_true, if_false, h.write_eq h.stop_lt, Outcome.ret_bind]
  refine ⟨rfl, h.blockLive, by simpa using h.length_eq, h.initSize_le, h.start_lt, ?_, ?_, ?_, ?_⟩
  · simpa [Nat.succ_le_iff] using hlt
  · show getNextIndex v v.stop = _
    rw [getNextIndex_eq h.stop_lt, h.stop_eq, List.length_append, List.length_singleton, pos, pos,
      pos, Nat.mod_add_mod, Nat.add_assoc]
  · simp
  · have := h.holds.push (h.length_eq ▸ h.start_lt) (h.length_eq ▸ hlt) a
    rwa [h.length_eq, ← h.stop_eq] at this

lemma vectorUnshift_meets (h : VectorInv l v) (a : α) :
    (vectorUnshift v a).Meets False False fun q =>
      q.1 = .succeed ∧ VectorInv (a :: l) q.2 := by
  refine (vectorMakeRoom_meets h).bind ?_
  rintro ⟨full, v⟩ ⟨rfl, h, hlt⟩
  have hprev := getPrevIndex_eq h.start_lt
  have hlt' : getPrevIndex v v.start < v.capacity := hprev ▸ pos_lt h.capacity_pos _ _
  simp only [Bool.false_eq_true, if_false, h.write_eq hlt', Outcome.ret_bind]
  refine ⟨rfl, h.blockLive, by simpa using h.length_eq, h.initSize_le, hlt', ?_, ?_, ?_, ?_⟩
  · simpa [Nat.succ_le_iff] using hlt
  · show v.stop = pos v.capacity (getPrevIndex v v.start) (l.length + 1)
    rw [hprev, pos_prev h.capacity_pos, h.stop_eq]
  · simp
  · have := h.holds.unshift (h.length_eq ▸ h.start_lt) (h.length_eq ▸ hlt) a
    rw [h.length_eq, ← hprev] at this
    exact this

/-- What a list without its last element gives. -/
def Fetched.ofOption : Option α → Fetched α
  | none => .null
  | some a => .entry a

lemma vectorPop_meets (h : VectorInv l v) :
    (vectorPop v).Meets False False fun q =>
      q.1 = .ofOption l.getLast? ∧ VectorInv l.dropLast q.2 := by
  rw [vectorPop, h.isempty_eq]
  rcases List.eq_nil_or_concat' l with rfl | ⟨l, a, rfl⟩
  · exact ⟨rfl, h⟩
  · have hcap := h.capacity_pos
    have hl := h.length_le
    rw [List.length_append, List.length_singleton] at hl
    -- the cell before `end` is the cell of the last element
    have hidx : getPrevIndex v v.stop = pos v.capacity v.start l.length := by
      rw [getPrevIndex_eq h.stop_lt, h.stop_eq, List.length_append, List.length_singleton, pos, pos,
        pos, Nat.mod_add_mod,
        show v.start + (l.length + 1) + (v.capacity - 1) = v.start + l.length + v.capacity by omega,
        Nat.add_mod_right]
    have hread := h.read_eq (List.getElem?_concat_length (l := l) (a := a))
    rw [if_neg (by simp), List.dropLast_concat, List.getLast?_concat]
    simp only [hidx, hread, Outcome.ret_bind]
    refine ⟨rfl, h.blockLive, h.length_eq, h.initSize_le, h.start_lt, Nat.le_of_succ_le hl, rfl,
      ?_, h.holds.prefix_left⟩
    rw [Bool.eq_iff_iff, beq_iff_eq, List.isEmpty_iff_length_eq_zero, pos_eq h.start_lt (by omega)]
    have hs := h.start_lt
    split <;> omega

lemma vectorShift_meets (h : VectorInv l v) :
    (vectorShift v).Meets False False fun q =>
      q.1 = .ofOption l.head? ∧ VectorInv l.tail q.2 := by
  rw [vectorShift, h.isempty_eq]
  cases l with
  | nil => exact ⟨rfl, h⟩
  | cons a l =>
      have hs := h.start_lt
      have hl := h.length_le
      have hcap := h.capacity_pos
      rw [List.length_cons] at hl
      have hread := h.read_eq (i := 0) (a := a) rfl
      rw [pos_zero hs] at hread
      have hnext := getNextIndex_eq h.start_lt
      have hstop : v.stop = pos v.capacity (getNextIndex v v.start) l.length := by
        rw [h.stop_eq, List.length_cons, pos_succ, hnext]
      have hlt : getNextIndex v v.start < v.capacity := hnext ▸ pos_lt hcap _ _
      simp only [List.isEmpty_cons, Bool.false_eq_true, if_false, hread, Outcome.ret_bind,
        List.head?_cons, List.tail_cons]
      refine ⟨rfl, h.blockLive, h.length_eq, h.initSize_le, hlt, Nat.le_of_succ_le hl,
        hstop, ?_, ?_⟩
      · rw [Bool.eq_iff_iff, beq_iff_eq, List.isEmpty_iff_length_eq_zero, hstop,
          pos_eq hlt (by omega)]
        split <;> omega
      · have := h.holds.tail
        rw [h.length_eq, ← hnext] at this
        exact this

lemma vectorGet_eq (h : VectorInv l v) {i : ℕ} {a : α} (hi : l[i]? = some a) :
    vectorGet v i = .ret (.entry a) := by
  have hlt : i < l.length := (List.getElem?_eq_some_iff.1 hi).1
  have hl := h.length_le
  have hreal : getRealIndex v i = pos v.capacity v.start i := by
    rw [getRealIndex, pos_eq h.start_lt (by omega)]
  have hne : v.isempty = false := by
    rw [h.isempty_eq]
    cases l with
    | nil => simp at hlt
    | cons b l => rfl
  rw [vectorGet, if_neg (by simp [hne]; omega), hreal, h.read_eq hi]
  rfl

/-- A vector has one sequence of entries. -/
lemma VectorInv.unique {l' : List α} (h : VectorInv l v) (h' : VectorInv l' v) : l = l' := by
  refine List.ext_getElem (h.size_eq.symm.trans h'.size_eq) fun i hi hi' => ?_
  have hget := (vectorGet_eq h (List.getElem?_eq_getElem hi)).symm.trans
    (vectorGet_eq h' (List.getElem?_eq_getElem hi'))
  exact Fetched.entry.inj (Outcome.ret.inj hget)

/-! ### Emptying -/

/-- The freeing loop, entered at the `j`-th element of a vector that is not full. -/
lemma vectorFreeLoop_eq (h : VectorInv l v) (hlt : l.length < v.capacity) (fuel j : ℕ)
    (hj : j ≤ l.length) (hfuel : l.length - j ≤ fuel) :
    vectorFreeLoop v fuel (pos v.capacity v.start j) = .ret (l.drop j) := by
  induction fuel generalizing j with
  | zero =>
      obtain rfl : j = l.length := by omega
      rw [vectorFreeLoop, ← h.stop_eq, if_pos rfl, List.drop_length]
  | succ fuel ih =>
      rw [vectorFreeLoop]
      by_cases hend : j = l.length
      · subst hend
        rw [← h.stop_eq, if_pos rfl, List.drop_length]
      · have hjl : j < l.length := by omega
        have hne : pos v.capacity v.start j ≠ v.stop := by
          rw [h.stop_eq]
          exact pos_ne h.start_lt (by omega) hlt hend
        have hnext : getNextIndex v (pos v.capacity v.start j) = pos v.capacity v.start (j + 1) := by
          rw [getNextIndex_eq (pos_lt h.capacity_pos _ _), pos, pos, pos, Nat.mod_add_mod,
            Nat.add_assoc]
        rw [if_neg hne, h.read_eq (List.getElem?_eq_getElem hjl)]
        simp only [Outcome.ret_bind]
        rw [hnext, ih (j + 1) hjl (by omega), List.drop_eq_getElem_cons hjl]
        rfl

/-- What `vector_empty` frees.  The loop starts where it ends when the vector is full. -/
lemma vectorEmptyFrees_eq (h : VectorInv l v) :
    vectorEmptyFrees v = .ret (if l.length = v.capacity then [] else l) := by
  have hcap := h.capacity_pos
  rw [vectorEmptyFrees, h.isempty_eq]
  by_cases hnil : l = []
  · subst hnil
    simp
  rw [if_neg (by simpa using hnil)]
  by_cases hfull : l.length = v.capacity
  · have hstop : v.start = v.stop := (h.stop_eq_start_iff.2 (Or.inr hfull)).symm
    obtain ⟨n, hn⟩ : ∃ n, v.capacity = n + 1 := ⟨v.capacity - 1, by omega⟩
    rw [if_pos hfull, hn, vectorFreeLoop, if_pos hstop]
  · have hlt : l.length < v.capacity := lt_of_le_of_ne h.length_le hfull
    have hrun := vectorFreeLoop_eq h hlt v.capacity 0 (Nat.zero_le _) (by omega)
    rw [pos_zero h.start_lt, List.drop_zero] at hrun
    rw [if_neg hfull, hrun]

/-- `vector_empty`, when `realloc` leaves the block where it is. -/
lemma vectorEmpty_meets (h : VectorInv l v) :
    (vectorEmpty v false).Meets False False fun q => q.1 = .succeed ∧ VectorInv [] q.2 := by
  have hinit := h.initSize_le
  rw [vectorEmpty, vectorEmptyFrees_eq h, Outcome.ret_bind, myRealloc, if_pos h.blockLive, if_neg (by simp),
    Outcome.ret_bind]
  refine ⟨rfl, h.blockLive, ?_, le_rfl, ?_, Nat.zero_le _, rfl, rfl, holds_nil _ _⟩
  · simp only [List.length_append, List.length_take, List.length_replicate, h.length_eq]
    omega
  · simp only [vectorInitSize]
    omega

/-! ### Sequences of calls -/

/-- A call on a vector. -/
inductive VectorOp (α : Type) where
  | pushBack (entry : α)
  | pop
  | unshift (entry : α)
  | shift
  -- `moved`: the `realloc` of this call moves the block
  | empty (moved : Bool)
  | size
  | isempty
  | get (index : ℕ)
deriving DecidableEq, Repr

/-- What a call returns. -/
inductive VectorRes (α : Type) where
  | status (r : RetT)
  | fetched (f : Fetched α)
  | number (n : ℕ)
  | flag (b : Bool)
deriving DecidableEq, Repr

/-- One call on a vector. -/
def vectorStep : VectorOp α → VectorT α → Outcome (VectorRes α × VectorT α)
  | .pushBack entry, v => do
      let (r, v) ← vectorPushBack v entry
      return (.status r, v)
  | .pop, v => do
      let (f, v) ← vectorPop v
      return (.fetched f, v)
  | .unshift entry, v => do
      let (r, v) ← vectorUnshift v entry
      return (.status r, v)
  | .shift, v => do
      let (f, v) ← vectorShift v
      return (.fetched f, v)
  | .empty moved, v => do
      let (r, v) ← vectorEmpty v moved
      return (.status r, v)
  | .size, v => return (.number (vectorSize v), v)
  | .isempty, v => return (.flag (vectorIsempty v), v)
  | .get index, v => do
      let f ← vectorGet v index
      return (.fetched f, v)

/-- The double-ended queue.  A `get` is specified below the size only. -/
def DequeSpec (l : List α) : VectorOp α → VectorRes α → List α → Prop
  | .pushBack entry, r, l' => r = .status .succeed ∧ l' = l ++ [entry]
  | .pop, r, l' => r = .fetched (.ofOption l.getLast?) ∧ l' = l.dropLast
  | .unshift entry, r, l' => r = .status .succeed ∧ l' = entry :: l
  | .shift, r, l' => r = .fetched (.ofOption l.head?) ∧ l' = l.tail
  | .empty _, r, l' => r = .status .succeed ∧ l' = []
  | .size, r, l' => r = .number l.length ∧ l' = l
  | .isempty, r, l' => r = .flag l.isEmpty ∧ l' = l
  | .get index, r, l' => (∀ a, l[index]? = some a → r = .fetched (.entry a)) ∧ l' = l

/-- The call leaves the block where it is. -/
def VectorOp.keepsBlock : VectorOp α → Bool
  | .empty moved => !moved
  | _ => true

/-- Reading any cell of the block. -/
lemma vectorGet_meets (h : VectorInv l v) (i : ℕ) :
    (vectorGet v i).Meets False False fun f => ∀ a, l[i]? = some a → f = .entry a := by
  cases hi : l[i]? with
  | some a =>
      rw [vectorGet_eq h hi]
      rintro b hb
      rw [Option.some.injEq] at hb
      rw [hb]
  | none =>
      rw [vectorGet]
      split
      · simp
      · rename_i hcond
        rw [not_or, not_le] at hcond
        have hreal : getRealIndex v i < v.elements.length := by
          have hs := h.start_lt
          rw [getRealIndex, h.length_eq]
          split <;> omega
        simp [VectorT.read, h.blockLive, List.getElem?_eq_getElem hreal]

/-- One call that keeps the block simulates the list operation. -/
lemma vectorStep_meets (op : VectorOp α) (h : VectorInv l v) (hop : op.keepsBlock = true) :
    (vectorStep op v).Meets False False fun q =>
      ∃ l', DequeSpec l op q.1 l' ∧ VectorInv l' q.2 := by
  cases op with
  | pushBack entry =>
      refine (vectorPushBack_meets h entry).bind ?_
      rintro ⟨r, v'⟩ ⟨rfl, h'⟩
      exact ⟨_, ⟨rfl, rfl⟩, h'⟩
  | pop =>
      refine (vectorPop_meets h).bind ?_
      rintro ⟨f, v'⟩ ⟨rfl, h'⟩
      exact ⟨_, ⟨rfl, rfl⟩, h'⟩
  | unshift entry =>
      refine (vectorUnshift_meets h entry).bind ?_
      rintro ⟨r, v'⟩ ⟨rfl, h'⟩
      exact ⟨_, ⟨rfl, rfl⟩, h'⟩
  | shift =>
      refine (vectorShift_meets h).bind ?_
      rintro ⟨f, v'⟩ ⟨rfl, h'⟩
      exact ⟨_, ⟨rfl, rfl⟩, h'⟩
  | empty moved =>
      obtain rfl : moved = false := by simpa [VectorOp.keepsBlock] using hop
      refine (vectorEmpty_meets h).bind ?_
      rintro ⟨r, v'⟩ ⟨rfl, h'⟩
      exact ⟨_, ⟨rfl, rfl⟩, h'⟩
  | size => exact ⟨l, ⟨by rw [h.size_eq], rfl⟩, h⟩
  | isempty => exact ⟨l, ⟨by rw [vectorIsempty, h.isempty_eq], rfl⟩, h⟩
  | get index =>
      refine (vectorGet_meets h index).bind ?_
      intro f hf
      exact ⟨l, ⟨fun a ha => by rw [hf a ha], rfl⟩, h⟩

/-- **The vector is a double-ended queue** in every run in which each `realloc` of
`vector_empty` leaves the block where it is. -/
theorem vector_refines_deque (ops : List (VectorOp α))
    (hkeep : ∀ op ∈ ops, op.keepsBlock = true) :
    ∃ rs v l, runOps vectorStep ops (vectorAlloc α) = .ret (rs, v) ∧
      SpecRun DequeSpec [] ops rs l ∧ vectorSize v = l.length ∧ vectorIsempty v = l.isEmpty ∧
      ∀ i a, l[i]? = some a → vectorGet v i = .ret (.entry a) := by
  have hrun := runOps_refines (R := VectorInv) (C := fun op => op.keepsBlock = true)
    (fun l v op h hop => vectorStep_meets op h hop) ops hkeep [] (vectorAlloc α) vectorAlloc_inv
  obtain ⟨⟨rs, v⟩, heq, l, hspec, hinv⟩ := hrun.exists_ret
  exact ⟨rs, v, l, heq, hspec, hinv.size_eq, hinv.isempty_eq, fun i a hi => vectorGet_eq hinv hi⟩

/-- A vector that grows while it is wrapped, is emptied, and is used again. -/
theorem vector_refines_deque_wrapped :
    ∃ rs v l, runOps vectorStep
        ([.pushBack 1, .shift, .isempty] ++ (List.range 11).map .pushBack ++
          [.unshift 7, .get 3, .pop, .empty false, .pushBack 9, .size]) (vectorAlloc ℕ)
        = .ret (rs, v) ∧
      SpecRun DequeSpec [] ([.pushBack 1, .shift, .isempty] ++ (List.range 11).map .pushBack ++
          [.unshift 7, .get 3, .pop, .empty false, .pushBack 9, .size]) rs l ∧
      vectorSize v = l.length ∧ vectorIsempty v = l.isEmpty ∧
      ∀ i a, l[i]? = some a → vectorGet v i = .ret (.entry a) :=
  vector_refines_deque _ (by decide)

/-- A `realloc` that moves the block leaves the vector with an address that is no longer
allocated, and the next insertion writes there. -/
theorem vectorEmpty_moved_not_deque :
    ¬ ∃ rs v l, runOps vectorStep [.empty true, .pushBack 1] (vectorAlloc ℕ) = .ret (rs, v) ∧
      SpecRun DequeSpec [] [.empty true, .pushBack 1] rs l := by
  rintro ⟨rs, v, l, hrun, -⟩
  have hfault : runOps vectorStep [.empty true, .pushBack 1] (vectorAlloc ℕ) = .fault := by decide
  rw [hfault] at hrun
  simp at hrun

end CheckQ
