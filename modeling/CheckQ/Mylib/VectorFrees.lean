import CheckQ.Mylib.VectorDeque

/-!
# Full, empty and lost vectors

What a vector does at the edges of its ring.  A run that returns leaves a vector that holds
its list, or an empty one whose block has been moved away by the `realloc` of `vector_empty`.
The freeing loops run from `start` to `end` and do nothing for a full vector; `vector_get`
compares its index with the capacity and not with the size.
-/

namespace CheckQ

open RingBuffer

variable {α : Type}

/-! ### The vectors that are reached -/

/-- What a call does to the list. -/
def dequeNext (l : List α) : VectorOp α → List α
  | .pushBack entry => l ++ [entry]
  | .pop => l.dropLast
  | .unshift entry => entry :: l
  | .shift => l.tail
  | .empty _ => []
  | .size => l
  | .isempty => l
  | .get _ => l

/-- The entries stored in a vector after a sequence of calls, in order. -/
def stored (ops : List (VectorOp α)) : List α := ops.foldl dequeNext []

/-- An empty vector whose block is no longer allocated. -/
structure Lost (v : VectorT α) : Prop where
  blockLive : v.blockLive = false
  isempty : v.isempty = true
  stop_eq : v.stop = v.start

/-- The vector `v` holds `l`, or it is lost and `l` is empty. -/
def VectorReach (l : List α) (v : VectorT α) : Prop := VectorInv l v ∨ (l = [] ∧ Lost v)

variable {l : List α} {v v' : VectorT α} {op : VectorOp α} {r : VectorRes α}

lemma eq_dequeNext {l' : List α} (h : DequeSpec l op r l') : l' = dequeNext l op := by
  cases op <;> exact h.2

/-- A `realloc` that moves the block. -/
lemma vectorEmpty_moved (h : VectorInv l v) :
    ∃ v', vectorEmpty v true = .ret (.succeed, v') ∧ Lost v' ∧
      v'.freed = v.freed ++ if l.length = v.capacity then [] else l := by
  rw [vectorEmpty, vectorEmptyFrees_eq h, Outcome.ret_bind, myRealloc, if_pos h.blockLive,
    if_pos rfl, Outcome.ret_bind]
  exact ⟨_, rfl, ⟨rfl, rfl, rfl⟩, rfl⟩

/-- A lost vector stays empty, and no call that returns writes to it. -/
lemma Lost.step (h : Lost v) (hstep : vectorStep op v = .ret (r, v')) :
    dequeNext [] op = [] ∧ Lost v' := by
  have hroom : vectorMakeRoom v = .ret (false, v) := by
    simp [vectorMakeRoom, vectorIsfull, h.isempty]
  cases op with
  | pushBack entry =>
      simp [vectorStep, vectorPushBack, hroom, VectorT.write, h.blockLive] at hstep
  | unshift entry =>
      simp [vectorStep, vectorUnshift, hroom, VectorT.write, h.blockLive] at hstep
  | pop =>
      simp only [vectorStep, vectorPop, h.isempty, if_true, Outcome.pure_eq, Outcome.ret_bind] at hstep
      obtain ⟨-, rfl⟩ := Prod.mk.inj (Outcome.ret.inj hstep)
      exact ⟨rfl, h⟩
  | shift =>
      simp only [vectorStep, vectorShift, h.isempty, if_true, Outcome.pure_eq,
        Outcome.ret_bind] at hstep
      obtain ⟨-, rfl⟩ := Prod.mk.inj (Outcome.ret.inj hstep)
      exact ⟨rfl, h⟩
  | empty moved =>
      simp [vectorStep, vectorEmpty, vectorEmptyFrees, h.isempty, myRealloc, h.blockLive] at hstep
  | size =>
      obtain ⟨-, rfl⟩ := Prod.mk.inj (Outcome.ret.inj hstep)
      exact ⟨rfl, h⟩
  | isempty =>
      obtain ⟨-, rfl⟩ := Prod.mk.inj (Outcome.ret.inj hstep)
      exact ⟨rfl, h⟩
  | get index =>
      simp only [vectorStep, vectorGet, h.isempty, true_or, if_true, Outcome.pure_eq,
        Outcome.ret_bind] at hstep
      obtain ⟨-, rfl⟩ := Prod.mk.inj (Outcome.ret.inj hstep)
      exact ⟨rfl, h⟩

/-- One call that returns. -/
lemma VectorReach.step (h : VectorReach l v) (hstep : vectorStep op v = .ret (r, v')) :
    VectorReach (dequeNext l op) v' := by
  rcases h with hinv | ⟨rfl, hlost⟩
  · by_cases hop : op.keepsBlock = true
    · have hmeets := vectorStep_meets op hinv hop
      rw [hstep] at hmeets
      obtain ⟨l', hspec, hinv'⟩ := hmeets
      exact Or.inl (eq_dequeNext hspec ▸ hinv')
    · obtain ⟨rfl⟩ : op = .empty true := by
        cases op <;> simp_all [VectorOp.keepsBlock]
      obtain ⟨v₁, hempty, hlost, -⟩ := vectorEmpty_moved hinv
      simp only [vectorStep, hempty, Outcome.ret_bind, Outcome.pure_eq] at hstep
      obtain ⟨-, rfl⟩ := Prod.mk.inj (Outcome.ret.inj hstep)
      exact Or.inr ⟨rfl, hlost⟩
  · obtain ⟨hnil, hlost'⟩ := hlost.step hstep
    exact Or.inr ⟨hnil, hlost'⟩

/-- Every vector that a sequence of calls leaves behind. -/
lemma vectorReach_of_run {ops : List (VectorOp α)} {rs : List (VectorRes α)}
    (hrun : runOps vectorStep ops (vectorAlloc α) = .ret (rs, v)) : VectorReach (stored ops) v :=
  runOps_ret_foldl dequeNext (fun _ _ _ _ _ h hstep => h.step hstep) [] (Or.inl vectorAlloc_inv) hrun

/-! ### Freeing -/

/-- `vector_empty` and `vector_destroy` free the entries `l`, each once and in order. -/
def FreesAll (l : List α) (v : VectorT α) : Prop :=
  (∀ moved, ∃ v', vectorEmpty v moved = .ret (.succeed, v') ∧ v'.freed = v.freed ++ l) ∧
    vectorDestroy v = .ret (v.freed ++ l)

/-- What `vector_empty` has freed, whether the block is moved or not. -/
lemma vectorEmpty_freed (h : VectorInv l v) (moved : Bool) :
    ∃ v', vectorEmpty v moved = .ret (.succeed, v') ∧
      v'.freed = v.freed ++ if l.length = v.capacity then [] else l := by
  cases moved with
  | true =>
      obtain ⟨v', heq, -, hfreed⟩ := vectorEmpty_moved h
      exact ⟨v', heq, hfreed⟩
  | false =>
      rw [vectorEmpty, vectorEmptyFrees_eq h, Outcome.ret_bind, myRealloc, if_pos h.blockLive,
        if_neg (by simp), Outcome.ret_bind]
      exact ⟨_, rfl, rfl⟩

/-- What `vector_destroy` has freed.  Its loop needs no test of `isempty`, since it starts where
it ends for the empty vector too. -/
lemma vectorDestroy_eq (h : VectorInv l v) :
    vectorDestroy v = .ret (v.freed ++ if l.length = v.capacity then [] else l) := by
  have hloop : vectorFreeLoop v v.capacity v.start =
      .ret (if l.length = v.capacity then [] else l) := by
    have hfrees := vectorEmptyFrees_eq h
    rw [vectorEmptyFrees] at hfrees
    split at hfrees
    · rename_i hempty
      obtain rfl : l = [] := by simpa [h.isempty_eq] using hempty
      have hstop : v.start = v.stop := (h.stop_eq_start_iff.2 (Or.inl rfl)).symm
      rw [← hfrees]
      cases v.capacity <;> simp [vectorFreeLoop, hstop]
    · exact hfrees
  rw [vectorDestroy, hloop, Outcome.ret_bind, if_pos h.blockLive, Outcome.pure_eq]

/-- A lost vector cannot be given back. -/
lemma Lost.not_freesAll (h : Lost v) : ¬FreesAll l v := by
  rintro ⟨-, hdestroy⟩
  rw [vectorDestroy] at hdestroy
  obtain ⟨freed, -, hret⟩ := Outcome.bind_eq_ret.1 hdestroy
  simp [h.blockLive] at hret

/-- **What the vector frees.**  After every sequence of calls that returns, `vector_empty` and
`vector_destroy` free the stored entries, each once and in order, exactly if the vector is not
full and no `vector_empty` has lost its block. -/
theorem vector_frees_iff (ops : List (VectorOp α)) (rs : List (VectorRes α)) (v : VectorT α)
    (hrun : runOps vectorStep ops (vectorAlloc α) = .ret (rs, v)) :
    FreesAll (stored ops) v ↔ v.blockLive = true ∧ vectorIsfull v = false := by
  rcases vectorReach_of_run hrun with hinv | ⟨-, hlost⟩
  · have hcap := hinv.capacity_pos
    rw [← Bool.not_eq_true, hinv.isfull_iff]
    constructor
    · rintro ⟨-, hdestroy⟩
      refine ⟨hinv.blockLive, fun hfull => ?_⟩
      rw [vectorDestroy_eq hinv, if_pos hfull, Outcome.ret.injEq, List.append_cancel_left_eq]
        at hdestroy
      rw [← hdestroy, List.length_nil] at hfull
      omega
    · rintro ⟨-, hfull⟩
      refine ⟨fun moved => ?_, ?_⟩
      · have hempty := vectorEmpty_freed hinv moved
        rwa [if_neg hfull] at hempty
      · rw [vectorDestroy_eq hinv, if_neg hfull]
  · simp [hlost.not_freesAll, hlost.blockLive]

/-- A wrapped vector with room. -/
theorem vector_frees_iff_wrapped :
    ∃ rs v, runOps vectorStep ((List.range 9).map .pushBack ++ [.shift, .pushBack 9, .shift,
        .pushBack 10]) (vectorAlloc ℕ) = .ret (rs, v) ∧
      (FreesAll [2, 3, 4, 5, 6, 7, 8, 9, 10] v ↔ v.blockLive = true ∧ vectorIsfull v = false) := by
  obtain ⟨rs, v, -, heq, -⟩ := vector_refines_deque ((List.range 9).map .pushBack ++ [.shift,
    .pushBack 9, .shift, .pushBack 10]) (by decide)
  exact ⟨rs, v, heq, vector_frees_iff _ rs v heq⟩

/-- Ten entries fill the first block, and none of them is freed. -/
theorem vector_frees_not_full :
    ¬∀ (ops : List (VectorOp ℕ)) rs v, runOps vectorStep ops (vectorAlloc ℕ) = .ret (rs, v) →
      FreesAll (stored ops) v := by
  intro hall
  obtain ⟨rs, v, hrun, hdestroy⟩ : ∃ rs v, runOps vectorStep ((List.range 10).map .pushBack)
      (vectorAlloc ℕ) = .ret (rs, v) ∧ vectorDestroy v = .ret [] := ⟨_, _, rfl, rfl⟩
  have hstored : stored ((List.range 10).map .pushBack) = List.range 10 := rfl
  have hfrees := (hall _ rs v hrun).2
  rw [hdestroy, hstored, Outcome.ret.injEq] at hfrees
  simpa using congrArg List.length hfrees

/-! ### Reading behind the end -/

/-- A cell of the block is read, whether it is in use or not. -/
lemma vectorGet_ne_null (h : VectorInv l v) {i : ℕ} (hempty : v.isempty = false)
    (hi : i < v.capacity) : vectorGet v i ≠ .ret .null := by
  have hs := h.start_lt
  have hreal : getRealIndex v i < v.elements.length := by
    rw [getRealIndex, h.length_eq]
    split <;> omega
  rw [vectorGet, if_neg (by simp [hempty]; omega)]
  simp only [VectorT.read, h.blockLive, if_true, List.getElem?_eq_getElem hreal, Outcome.ret_bind,
    Outcome.pure_eq]
  cases v.elements[getRealIndex v i] <;> simp [Fetched.ofCell]

/-- **Reads behind the end.**  After every sequence of calls that returns, a read at an index
that is not below the size is refused exactly if the vector is empty or the index is not below
the capacity; all such reads are refused exactly if the vector is empty or full. -/
theorem vectorGet_refuses_iff (ops : List (VectorOp α)) (rs : List (VectorRes α)) (v : VectorT α)
    (hrun : runOps vectorStep ops (vectorAlloc α) = .ret (rs, v)) :
    (∀ i, vectorSize v ≤ i →
      (vectorGet v i = .ret .null ↔ vectorIsempty v = true ∨ v.capacity ≤ i)) ∧
    ((∀ i, vectorSize v ≤ i → vectorGet v i = .ret .null) ↔
      vectorIsempty v = true ∨ vectorIsfull v = true) := by
  have hnull : ∀ i, vectorIsempty v = true ∨ v.capacity ≤ i → vectorGet v i = .ret .null := by
    intro i hi
    exact if_pos hi
  rcases vectorReach_of_run hrun with hinv | ⟨-, hlost⟩
  · have hread : ∀ i, vectorGet v i = .ret .null ↔ vectorIsempty v = true ∨ v.capacity ≤ i := by
      refine fun i => ⟨fun hget => ?_, hnull i⟩
      by_contra hcond
      rw [not_or, not_le, Bool.not_eq_true] at hcond
      exact vectorGet_ne_null hinv hcond.1 hcond.2 hget
    refine ⟨fun i _ => hread i, ?_⟩
    rw [hinv.isfull_iff, hinv.size_eq]
    constructor
    · intro hall
      refine ((hread _).1 (hall _ le_rfl)).imp_right fun hle => ?_
      exact le_antisymm hinv.length_le hle
    · intro hcond i hi
      refine hnull i (hcond.imp_right fun hfull => ?_)
      rwa [← hfull]
  · have hempty : vectorIsempty v = true := hlost.isempty
    exact ⟨fun i _ => by simp [hnull i (Or.inl hempty), hempty],
      by simp [hempty, fun i => hnull i (Or.inl hempty)]⟩

/-- The index behind a growing vector. -/
theorem vectorGet_refuses_iff_grown :
    ∃ rs v, runOps vectorStep ((List.range 11).map .pushBack) (vectorAlloc ℕ) = .ret (rs, v) ∧
      (vectorGet v 11 = .ret .null ↔ vectorIsempty v = true ∨ v.capacity ≤ 11) := by
  obtain ⟨rs, v, hrun, hsize⟩ : ∃ rs v, runOps vectorStep ((List.range 11).map .pushBack)
      (vectorAlloc ℕ) = .ret (rs, v) ∧ vectorSize v = 11 := ⟨_, _, rfl, rfl⟩
  exact ⟨rs, v, hrun, (vectorGet_refuses_iff _ rs v hrun).1 11 hsize.le⟩

/-- A popped entry is still handed out. -/
theorem vectorGet_stale :
    ¬∀ (ops : List (VectorOp ℕ)) rs v, runOps vectorStep ops (vectorAlloc ℕ) = .ret (rs, v) →
      ∀ i, vectorSize v ≤ i → vectorGet v i = .ret .null := by
  intro hall
  obtain ⟨rs, v, hrun, hsize, hget⟩ : ∃ rs v, runOps vectorStep [.pushBack 5, .pushBack 7, .pop]
      (vectorAlloc ℕ) = .ret (rs, v) ∧ vectorSize v = 1 ∧ vectorGet v 1 = .ret (.entry 7) :=
    ⟨_, _, rfl, rfl, rfl⟩
  have hnull := hall _ rs v hrun 1 hsize.le
  rw [hget] at hnull
  simp at hnull

end CheckQ
