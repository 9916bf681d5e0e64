import CheckQ.Mylib.HashLoad

/-!
# The hash table owns its entries

An entry that `hash_add` has taken is the table's: `hash_remove` or `hash_destroy` passes it to
`hash_entry_free_func`.  An entry that `hash_add` has refused stays the caller's.  The account
of a table is the list of the entries that were given to `hash_add` with the answers; the
entries in the slots and the freed ones are, together, the entries that were taken.
-/

namespace CheckQ

open Probing
open scoped List

variable {α κ : Type}

/-! ### The account of a table -/

/-- The entries given to `hash_add`. -/
def addedEntries (ops : List (HashOp α κ)) : List α :=
  ops.filterMap fun
    | .add entry => some entry
    | _ => none

/-- The entries given to `hash_add`, each with what the call has returned. -/
def addAnswers (ops : List (HashOp α κ)) (rs : List (HashRes α κ)) : List (α × RetT) :=
  (ops.zip rs).filterMap fun
    | (.add entry, .status r) => some (entry, r)
    | _ => none

/-- The entries of an account that were taken. -/
def taken (account : List (α × RetT)) : List α :=
  account.filterMap fun (entry, r) => if r = .succeed then some entry else none

lemma mem_taken {account : List (α × RetT)} {a : α} :
    a ∈ taken account ↔ (a, .succeed) ∈ account := by
  rw [taken, List.mem_filterMap]
  constructor
  · rintro ⟨⟨b, r⟩, hmem, hb⟩
    simp only [Option.ite_none_right_eq_some, Option.some.injEq] at hb
    obtain ⟨rfl, rfl⟩ := hb
    exact hmem
  · intro hmem
    exact ⟨_, hmem, by simp⟩

lemma taken_sublist (account : List (α × RetT)) :
    (taken account).Sublist (account.map Prod.fst) := by
  rw [taken, ← List.filterMap_eq_map]
  induction account with
  | nil => exact List.Sublist.slnil
  | cons e account ih =>
      simp only [List.filterMap_cons, Function.comp_apply]
      split
      · exact ih.cons _
      · rename_i b hb
        simp only [Option.ite_none_right_eq_some, Option.some.injEq] at hb
        rw [← hb.2]
        exact ih.cons_cons _

/-- What the calls on a table have come to: the account and the keys given to `hash_remove`. -/
structure HashBook (α κ : Type) where
  account : List (α × RetT)
  removed : List κ

/-- What a call adds to the book. -/
def BookSpec (b : HashBook α κ) : HashOp α κ → HashRes α κ → HashBook α κ → Prop
  | .add entry, r, b' => ∃ ret, r = .status ret ∧ b' = { b with account := b.account ++ [(entry, ret)] }
  | .remove k, _, b' => b' = { b with removed := b.removed ++ [k] }
  | .get _, _, b' => b' = b
  | .getEntries, _, b' => b' = b
  | .getKeys, _, b' => b' = b

/-- The book of a sequence of calls. -/
lemma book_eq {b b' : HashBook α κ} {ops : List (HashOp α κ)} {rs : List (HashRes α κ)}
    (hrun : SpecRun BookSpec b ops rs b') :
    b'.account = b.account ++ addAnswers ops rs ∧
      (addAnswers ops rs).map Prod.fst = addedEntries ops ∧
        ∀ k ∈ b'.removed, k ∈ b.removed ∨ .remove k ∈ ops := by
  induction hrun with
  | nil b => simp [addAnswers, addedEntries]
  | cons hspec hrest ih =>
      rename_i b b₁ b₂ op ops r rs
      obtain ⟨haccount, hadded, hremoved⟩ := ih
      cases op with
      | add entry =>
          obtain ⟨ret, rfl, rfl⟩ := hspec
          refine ⟨?_, ?_, fun k hk => (hremoved k hk).imp_right (List.mem_cons_of_mem _)⟩
          · rw [haccount]
            simp [addAnswers]
          · simpa [addAnswers, addedEntries] using hadded
      | remove k =>
          obtain rfl := hspec
          refine ⟨haccount, hadded, fun k' hk' => ?_⟩
          rcases hremoved k' hk' with hmem | hmem
          · rcases List.mem_append.1 hmem with hold | hnew
            · exact Or.inl hold
            · rw [List.mem_singleton.1 hnew]
              exact Or.inr List.mem_cons_self
          · exact Or.inr (List.mem_cons_of_mem _ hmem)
      | get k =>
          obtain rfl := hspec
          exact ⟨haccount, hadded, fun k hk => (hremoved k hk).imp_right (List.mem_cons_of_mem _)⟩
      | getEntries =>
          obtain rfl := hspec
          exact ⟨haccount, hadded, fun k hk => (hremoved k hk).imp_right (List.mem_cons_of_mem _)⟩
      | getKeys =>
          obtain rfl := hspec
          exact ⟨haccount, hadded, fun k hk => (hremoved k hk).imp_right (List.mem_cons_of_mem _)⟩

/-! ### The invariant -/

/-- The table `h` has taken the entries of the book: each of them is in a slot or freed, and
only entries with a removed key are freed. -/
structure Owns (key : α → κ) (probe : κ → UInt64 → UInt64) (b : HashBook α κ) (h : HashT α) :
    Prop where
  exists_inv : ∃ m, HashInv key probe m h
  perm : (h.freed ++ live h.elements).Perm (taken b.account)
  removed : ∀ a ∈ h.freed, key a ∈ b.removed

variable {key : α → κ} {probe : κ → UInt64 → UInt64} {m : κ → Option α} {h h' : HashT α}

lemma hashAlloc_owns : Owns key probe ⟨[], []⟩ (hashAlloc α) :=
  ⟨⟨_, hashAlloc_inv⟩, by simp [hashAlloc, taken], by simp [hashAlloc]⟩

variable [DecidableEq κ]

/-- `hash_add` frees no entry. -/
lemma hashAdd_freed {fuel : ℕ} {entry : α} {r : RetT}
    (hret : hashAdd key probe fuel h entry = .ret (r, h')) : h'.freed = h.freed := by
  rcases hashAdd_ret hret with ⟨-, rfl⟩ | ⟨index, ⟨-, -, rfl⟩ |
    ⟨-, size, ret, h₂, -, hrehash, -, rfl⟩⟩
  · rfl
  · rfl
  · obtain ⟨elements, rfl⟩ := rehashLoop_frame hrehash
    split <;> rfl

/-- `hash_remove` frees the entry that it takes out of its slot. -/
lemma hashRemove_freed (hinv : HashInv key probe m h) {fuel : ℕ} {k : κ} {r : RetT}
    (hret : hashRemove key probe fuel h k = .ret (r, h')) :
    (h'.freed ++ live h'.elements).Perm (h.freed ++ live h.elements) ∧
      ∀ a ∈ h'.freed, a ∈ h.freed ∨ key a = k := by
  have hfind : (hashFind key probe h.elements h.hashSize k fuel 0).Meets True False fun q =>
      Found key probe h.elements h.hashSize k q.1 q.2 := hinv.find k fuel
  rw [hashRemove, hinv.lock_eq, Outcome.ret_bind] at hret
  obtain ⟨⟨index, status⟩, hq, hret⟩ := Outcome.bind_eq_ret.1 hret
  rw [hq] at hfind
  obtain ⟨n, -, -, ⟨rfl, -⟩ | ⟨rfl, a, hs, hk⟩⟩ := hfind
  · obtain ⟨-, rfl⟩ := Prod.mk.inj (Outcome.ret.inj hret)
    exact ⟨List.Perm.refl _, fun a ha => Or.inl ha⟩
  · obtain ⟨hperm, -⟩ := live_set_removed hs
    obtain ⟨-, rfl⟩ := Prod.mk.inj (Outcome.ret.inj hret)
    simp only [HashT.unlock, hs, Option.bind_some, Slot.elem?, Option.toList_some]
    constructor
    · calc a :: h.freed ++ live (h.elements.set index .removed)
          _ ~ h.freed ++ a :: live (h.elements.set index .removed) := List.perm_middle.symm
          _ ~ h.freed ++ live h.elements := hperm.symm.append_left _
    · intro b hb
      rcases List.mem_cons.1 hb with rfl | hb
      · exact Or.inr hk
      · exact Or.inl hb

/-- One call keeps the book. -/
lemma hashStep_owns (fuel : ℕ) {b : HashBook α κ} (ho : Owns key probe b h) (op : HashOp α κ) :
    (hashStep key probe fuel op h).Meets True (2 ^ 29 ≤ h.used + 1) fun q =>
      (∃ b', BookSpec b op q.1 b' ∧ Owns key probe b' q.2) ∧ q.2.used ≤ h.used + 1 := by
  obtain ⟨⟨m, hinv⟩, hperm, hremoved⟩ := ho
  cases op with
  | add entry =>
      refine ((hashAdd_meets hinv fuel entry).and_ret fun q hq => hashAdd_freed hq).bind ?_
      rintro ⟨r, h'⟩ ⟨⟨⟨m', hspec, hinv'⟩, hused⟩, hfreed⟩
      refine ⟨⟨_, ⟨r, rfl, rfl⟩, ⟨m', hinv'⟩, ?_, by rwa [hfreed]⟩, hused⟩
      rw [AddSpec] at hspec
      dsimp only at hfreed
      rw [hfreed]
      split at hspec
      · obtain ⟨rfl, rfl⟩ := hspec
        refine ((hinv.live_perm hinv').append_left _).trans ?_
        simpa [taken] using hperm
      · rename_i hnone
        obtain ⟨rfl, rfl⟩ := hspec
        rw [Option.not_isSome_iff_eq_none] at hnone
        -- the new entry is the last of the account
        calc h.freed ++ live h'.elements
            _ ~ h.freed ++ entry :: live h.elements :=
              (hinv.live_perm_update hnone hinv').append_left _
            _ ~ entry :: (h.freed ++ live h.elements) := List.perm_middle
            _ ~ entry :: taken b.account := hperm.cons entry
            _ ~ taken b.account ++ [entry] := (List.perm_append_singleton entry _).symm
            _ = taken (b.account ++ [(entry, .succeed)]) := by simp [taken]
  | remove k =>
      refine ((hashRemove_meets hinv fuel k).and_ret fun q hq =>
        hashRemove_freed hinv hq).bind ?_
      rintro ⟨r, h'⟩ ⟨⟨rfl, hinv', hused⟩, hfreed, hkeys⟩
      refine ⟨⟨_, rfl, ⟨_, hinv'⟩, hfreed.trans hperm, fun a ha => ?_⟩,
        hused.le.trans (Nat.le_succ _)⟩
      rcases hkeys a ha with hold | rfl
      · exact List.mem_append_left _ (hremoved a hold)
      · exact List.mem_append_right _ (List.mem_singleton_self _)
  | get k =>
      refine (hashGet_meets hinv fuel k).bind ?_
      rintro ⟨e, h'⟩ heq
      obtain ⟨rfl, rfl⟩ := Prod.mk.inj heq
      exact ⟨⟨b, rfl, ⟨m, hinv⟩, hperm, hremoved⟩, Nat.le_succ _⟩
  | getEntries =>
      rw [hashStep, hashGetEntries, hashCollect_eq hinv, List.map_id, Outcome.ret_bind]
      exact ⟨⟨b, rfl, ⟨m, hinv⟩, hperm, hremoved⟩, Nat.le_succ _⟩
  | getKeys =>
      rw [hashStep, hashGetKeys, hashCollect_eq hinv, Outcome.ret_bind]
      exact ⟨⟨b, rfl, ⟨m, hinv⟩, hperm, hremoved⟩, Nat.le_succ _⟩

/-- A sequence of calls on a new table keeps the book. -/
lemma hashRun_owns (key : α → κ) (probe : κ → UInt64 → UInt64) (fuel : ℕ)
    (ops : List (HashOp α κ)) :
    (runOps (hashStep key probe fuel) ops (hashAlloc α)).Meets True (2 ^ 29 ≤ ops.length) fun q =>
      ∃ b, SpecRun BookSpec ⟨[], []⟩ ops q.1 b ∧ Owns key probe b q.2 := by
  have hused : (hashAlloc α).used = 0 := rfl
  refine (runOps_refines_cost (R := Owns key probe) (C := fun _ => True)
    (fun n => 2 ^ 29 ≤ n) (fun hnm hn => hn.trans hnm) HashT.used
    (fun b h op ho _ => hashStep_owns fuel ho op) ops (fun _ _ => trivial) _
    (hashAlloc α) hashAlloc_owns).mono ?_ fun _ => id
  omega

/-! ### The end of a table -/

omit [DecidableEq κ] in
/-- `hash_destroy` frees the entries that are left. -/
lemma hashDestroy_eq (hinv : HashInv key probe m h) :
    hashDestroy h = .ret ((live h.elements).reverse ++ h.freed) := by
  rw [hashDestroy, hinv.lock_eq, Outcome.ret_bind, Outcome.pure_eq]
  simp

/-- **The table owns each entry once.**  Take any sequence of calls on a new table with a
different entry in each `hash_add`, and `hash_destroy` after it.  If the probe loops end, each
entry that `hash_add` has taken is freed exactly once, by a `hash_remove` of its key or by
`hash_destroy`, and no other entry is.  The only other way out is the failed allocation of a
table that has seen `2 ^ 29` calls. -/
theorem hash_owns_once (key : α → κ) (probe : κ → UInt64 → UInt64) (fuel : ℕ)
    (ops : List (HashOp α κ)) (hdistinct : (addedEntries ops).Nodup)
    (hloops : runOps (hashStep key probe fuel) ops (hashAlloc α) ≠ .spin) :
    (∃ rs h freed, runOps (hashStep key probe fuel) ops (hashAlloc α) = .ret (rs, h) ∧
        hashDestroy h = .ret freed ∧ freed.Nodup ∧
        (∀ entry, entry ∈ freed ↔ (entry, .succeed) ∈ addAnswers ops rs) ∧
        (∀ entry, (entry, .failed) ∈ addAnswers ops rs → entry ∉ freed) ∧
        ∀ entry ∈ h.freed, .remove (key entry) ∈ ops) ∨
      (runOps (hashStep key probe fuel) ops (hashAlloc α) = .abort ∧ 2 ^ 29 ≤ ops.length) := by
  refine ((hashRun_owns key probe fuel ops).exists_ret_or_abort hloops).imp_left ?_
  rintro ⟨⟨rs, h⟩, heq, b, hspec, ⟨m, hinv⟩, hperm, hremoved⟩
  obtain ⟨haccount, hadded, hkeys⟩ := book_eq hspec
  rw [List.nil_append] at haccount
  rw [haccount] at hperm
  rw [← hadded] at hdistinct
  have hfreed : ((live h.elements).reverse ++ h.freed).Perm (taken (addAnswers ops rs)) :=
    (((List.reverse_perm _).append_right _).trans List.perm_append_comm).trans hperm
  have hmem : ∀ entry, entry ∈ (live h.elements).reverse ++ h.freed ↔
      (entry, .succeed) ∈ addAnswers ops rs := by
    intro entry
    rw [hfreed.mem_iff, mem_taken]
  refine ⟨rs, h, _, heq, hashDestroy_eq hinv, ?_, hmem, ?_, ?_⟩
  · exact hfreed.nodup_iff.2 (hdistinct.sublist (taken_sublist _))
  · intro entry hfailed hin
    have hsame := List.inj_on_of_nodup_map hdistinct hfailed ((hmem entry).1 hin) rfl
    simp at hsame
  · intro entry hentry
    refine (hkeys _ (hremoved entry hentry)).resolve_left ?_
    simp

/-- Two entries under one key, a removal, the key again, and a rehash. -/
def collidingCalls : List (HashOp (ℕ × ℕ) ℕ) :=
  [.add (1, 7), .add (12, 8), .add (1, 9), .remove 1, .add (1, 6), .add (23, 5), .add (34, 4),
    .add (45, 3), .add (56, 2)]

theorem hash_owns_once_colliding :
    ∃ rs h freed, runOps (hashStep Prod.fst (fun k l => UInt64.ofNat k + l) 50) collidingCalls
        (hashAlloc (ℕ × ℕ)) = .ret (rs, h) ∧ hashDestroy h = .ret freed ∧ freed.Nodup ∧
      (∀ entry, entry ∈ freed ↔ (entry, .succeed) ∈ addAnswers collidingCalls rs) := by
  obtain ⟨rs, h, freed, heq, hdestroy, hnodup, hmem, -⟩ :=
    (hash_owns_once Prod.fst (fun k l => UInt64.ofNat k + l) 50 collidingCalls (by decide)
      (by decide +kernel)).resolve_right fun h => absurd h.2 (by decide)
  exact ⟨rs, h, freed, heq, hdestroy, hnodup, hmem⟩

end CheckQ
