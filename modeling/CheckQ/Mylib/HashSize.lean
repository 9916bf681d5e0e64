import CheckQ.Mylib.HashLoad
import Mathlib.NumberTheory.Bertrand
import Mathlib.NumberTheory.LucasLehmer

/-!
# The sizes of the hash table

`find_first_prime` counts up from its argument and tries the divisors up to the square root of
each number.  There is a prime between a number and its double, so it ends before the number has
doubled, and the largest `int` is a prime itself, so that it never counts beyond it.

`hash_alloc` and `hash_add` take the sizes of the table from it, except that a table with more
tombstones than entries is rehashed at the size that it has.
-/

namespace CheckQ

/-! ### The next prime -/

/-- The least prime that is greater than `n`. -/
structure IsNextPrime (n p : ℕ) : Prop where
  prime : p.Prime
  lt : n < p
  le : ∀ q, q.Prime → n < q → p ≤ q

lemma exists_nextPrime {n : ℕ} (hn : n ≠ 0) : ∃ p, IsNextPrime n p ∧ p ≤ 2 * n := by
  classical
  obtain ⟨q, hq, hlt, hle⟩ := Nat.exists_prime_lt_and_le_two_mul n hn
  have hex : ∃ p, p.Prime ∧ n < p := ⟨q, hq, hlt⟩
  refine ⟨Nat.find hex, ⟨(Nat.find_spec hex).1, (Nat.find_spec hex).2, ?_⟩, ?_⟩
  · intro r hr hnr
    exact Nat.find_min' hex ⟨hr, hnr⟩
  · exact (Nat.find_min' hex ⟨hq, hlt⟩).trans hle

lemma IsNextPrime.unique {n p q : ℕ} (hp : IsNextPrime n p) (hq : IsNextPrime n q) : p = q :=
  le_antisymm (hp.le q hq.prime hq.lt) (hq.le p hp.prime hp.lt)

/-- A number that is no prime has the next prime of its successor. -/
lemma IsNextPrime.of_succ {n p : ℕ} (hp : IsNextPrime n p) (hn : ¬ (n + 1).Prime) :
    IsNextPrime (n + 1) p := by
  refine ⟨hp.prime, ?_, fun q hq hlt => hp.le q hq (by omega)⟩
  rcases (Nat.succ_le_of_lt hp.lt).lt_or_eq with hlt | rfl
  · exact hlt
  · exact absurd hp.prime hn

/-- The largest `int` is a prime. -/
lemma intMax_prime : intMax.Prime := by
  have h : (mersenne 31).Prime := lucas_lehmer_sufficiency 31 (by norm_num) (by norm_num)
  exact h

/-- The next prime of a smaller `int` is an `int`. -/
lemma IsNextPrime.le_intMax {n p : ℕ} (hp : IsNextPrime n p) (hn : n < intMax) : p ≤ intMax :=
  hp.le intMax intMax_prime hn

/-! ### The loops of `find_first_prime` -/

/-- The inner loop looks at the divisors up to the square root, which are enough. -/
lemma noSmallDivisor_iff {n : ℕ} (hn : 2 ≤ n) : noSmallDivisor n = true ↔ n.Prime := by
  rw [noSmallDivisor, List.all_eq_true, Nat.prime_def_le_sqrt, and_iff_right hn]
  constructor
  · intro h m hm hle hdvd
    have hmem : m ∈ List.range' 2 (Nat.sqrt n - 1) := by
      rw [List.mem_range'_1]
      omega
    have hmod := h m hmem
    simp only [ne_eq, decide_eq_true_eq] at hmod
    exact hmod (Nat.mod_eq_zero_of_dvd hdvd)
  · intro h m hmem
    rw [List.mem_range'_1] at hmem
    simp only [ne_eq, decide_eq_true_eq]
    intro hmod
    exact h m hmem.1 (by omega) (Nat.dvd_of_mod_eq_zero hmod)

/-- `find_first_prime` on `int`s, with a number of rounds: `n++` overflows at the largest `int`,
and a negative number has no square root. -/
def findFirstPrimeInt : ℕ → ℤ → Outcome ℤ
  | 0, _ => .spin
  | rounds + 1, n =>
      if n = intMax then .fault
      else if n = 0 then .ret (-1)
      else if n + 1 < 0 then .fault
      else if noSmallDivisor (n + 1).toNat then .ret (n + 1)
      else findFirstPrimeInt rounds (n + 1)

/-- The loop on `int`s counts up to the next prime. -/
lemma findFirstPrimeInt_eq {n p rounds : ℕ} (hn : 1 ≤ n) (hp : IsNextPrime n p) (hmax : p ≤ intMax)
    (hrounds : p - n ≤ rounds) : findFirstPrimeInt rounds n = .ret p := by
  induction rounds generalizing n with
  | zero =>
      have := hp.lt
      omega
  | succ rounds ih =>
      have hlt := hp.lt
      have htoNat : ((n : ℤ) + 1).toNat = n + 1 := by omega
      rw [findFirstPrimeInt, if_neg (by omega), if_neg (by omega), if_neg (by omega), htoNat]
      by_cases hprime : (n + 1).Prime
      · rw [if_pos ((noSmallDivisor_iff (by omega)).2 hprime)]
        have hpn : p = n + 1 := le_antisymm (hp.le _ hprime (by omega)) hlt
        rw [hpn]
        rfl
      · rw [if_neg (mt (noSmallDivisor_iff (by omega)).1 hprime)]
        have hrest : p - (n + 1) ≤ rounds := by omega
        exact ih (by omega) (hp.of_succ hprime) hrest

/-- The loop on numbers counts up to the same one. -/
lemma findFirstPrimeLoop_eq {n p rounds : ℕ} (hn : 1 ≤ n) (hp : IsNextPrime n p)
    (hrounds : p - n ≤ rounds) : findFirstPrimeLoop rounds n = p := by
  induction rounds generalizing n with
  | zero =>
      have := hp.lt
      omega
  | succ rounds ih =>
      have hlt := hp.lt
      rw [findFirstPrimeLoop]
      by_cases hprime : (n + 1).Prime
      · rw [if_pos ((noSmallDivisor_iff (by omega)).2 hprime)]
        exact (le_antisymm (hp.le _ hprime (by omega)) hlt).symm
      · rw [if_neg (mt (noSmallDivisor_iff (by omega)).1 hprime)]
        exact ih (by omega) (hp.of_succ hprime) (by omega)

/-- `find_first_prime` is the next prime. -/
lemma findFirstPrime_isNextPrime {n : ℕ} (hn : 1 ≤ n) : IsNextPrime n (findFirstPrime n) := by
  obtain ⟨p, hp, hle⟩ := exists_nextPrime (show n ≠ 0 by omega)
  have heq : findFirstPrime n = p := findFirstPrimeLoop_eq hn hp (by omega)
  rwa [heq]

/-- Below the largest `int` it ends without an overflow, in at most `n` rounds. -/
lemma findFirstPrimeInt_eq_findFirstPrime {n rounds : ℕ} (hn : 1 ≤ n) (hmax : n < intMax)
    (hrounds : n ≤ rounds) : findFirstPrimeInt rounds n = .ret (findFirstPrime n) := by
  obtain ⟨p, hp, hle⟩ := exists_nextPrime (show n ≠ 0 by omega)
  have heq := (findFirstPrime_isNextPrime hn).unique hp
  rw [heq]
  exact findFirstPrimeInt_eq hn hp (hp.le_intMax hmax) (by omega)

/-! ### The largest table -/

variable {α κ : Type} [DecidableEq κ] {key : α → κ} {probe : κ → UInt64 → UInt64}

/-- The size behind a `hash_add` that has added an entry. -/
lemma hashAdd_hashSize {fuel : ℕ} {h h' : HashT α} {entry : α}
    (hret : hashAdd key probe fuel h entry = .ret (.succeed, h')) :
    ((h.used + 1) * rehashRate ≤ h.hashSize ∧ h'.hashSize = h.hashSize) ∨
      h.hashSize < (h.used + 1) * rehashRate ∧
        ∃ index, rehashSize (h.write index entry) = .ret h'.hashSize := by
  rcases hashAdd_ret hret with ⟨hfailed, -⟩ | ⟨index, ⟨hload, -, rfl⟩ |
    ⟨hload, size, ret, h₂, hsize, hrehash, rfl, rfl⟩⟩
  · simp at hfailed
  · exact Or.inl ⟨hload, rfl⟩
  · obtain ⟨elements, rfl⟩ := rehashLoop_frame hrehash
    exact Or.inr ⟨hload, index, hsize⟩

/-- A new entry makes `hash_add` look for a larger size: too many slots are in use with it, and
there are not more tombstones than entries. -/
def HashT.Enlarges (h : HashT α) : Prop :=
  h.hashSize < (h.used + 1) * rehashRate ∧ h.hashEntryRemovedCount ≤ h.hashEntryCount + 1

/-- `hash_add` takes the next prime of the doubled size, or leaves the size as it is. -/
lemma HashInv.add_hashSize {m : κ → Option α} {h h' : HashT α} {fuel : ℕ} {entry : α} {r : RetT}
    (hinv : HashInv key probe m h) (hret : hashAdd key probe fuel h entry = .ret (r, h')) :
    (r = .succeed ∧ h.Enlarges ∧ h'.hashSize = findFirstPrime (h.hashSize * rehashRate) ∧
        h.hashSize * rehashRate ≤ intMax) ∨
      ¬ (r = .succeed ∧ h.Enlarges) ∧ h'.hashSize = h.hashSize := by
  cases r with
  | failed =>
      have hmeets := hashAdd_meets_size hinv fuel entry
      rw [hret] at hmeets
      exact Or.inr ⟨by simp, hmeets.2.1⟩
  | succeed =>
      rcases hashAdd_hashSize hret with ⟨hload, hsize⟩ | ⟨hload, index, hsize⟩
      · exact Or.inr ⟨fun h => absurd h.2.1 (not_lt.2 hload), hsize⟩
      · have hcases := rehashSize_meets (h.write index entry)
        rw [hsize] at hcases
        rcases hcases with ⟨hlt, heq⟩ | ⟨hle, heq, hmax⟩
        · exact Or.inr ⟨fun h => absurd h.2.2 (not_le.2 hlt), heq⟩
        · exact Or.inl ⟨rfl, ⟨hload, hle⟩, heq, hmax⟩

/-- A doubled size is less than the largest `int`, which is odd. -/
lemma lt_intMax_of_double {size : ℕ} (h : size * rehashRate ≤ intMax) :
    size * rehashRate < intMax := by
  simp only [rehashRate, intMax] at h ⊢
  omega

omit [DecidableEq κ] in
lemma HashInv.nextPrime {m : κ → Option α} {h : HashT α} (hinv : HashInv key probe m h) :
    IsNextPrime (h.hashSize * rehashRate) (findFirstPrime (h.hashSize * rehashRate)) := by
  refine findFirstPrime_isNextPrime ?_
  have := hinv.size_pos
  simp only [rehashRate]
  omega

lemma hashRemove_hashSize {m : κ → Option α} {h h' : HashT α} {fuel : ℕ} {k : κ} {r : RetT}
    (hinv : HashInv key probe m h) (hret : hashRemove key probe fuel h k = .ret (r, h')) :
    h'.hashSize = h.hashSize := by
  rw [hashRemove, hinv.lock_eq, Outcome.ret_bind] at hret
  obtain ⟨⟨index, status⟩, -, hret⟩ := Outcome.bind_eq_ret.1 hret
  dsimp only at hret
  split at hret
  · obtain ⟨-, rfl⟩ := Prod.mk.inj (Outcome.ret.inj hret)
    rfl
  · obtain ⟨-, rfl⟩ := Prod.mk.inj (Outcome.ret.inj hret)
    rfl

/-- The table is one that calls have made, and its size is a prime. -/
def PrimeSized (key : α → κ) (probe : κ → UInt64 → UInt64) (h : HashT α) : Prop :=
  (∃ m, HashInv key probe m h) ∧ h.hashSize.Prime

lemma hashStep_primeSized {h h' : HashT α} {fuel : ℕ} {op : HashOp α κ} {r : HashRes α κ}
    (hp : PrimeSized key probe h) (hret : hashStep key probe fuel op h = .ret (r, h')) :
    PrimeSized key probe h' := by
  obtain ⟨⟨m, hinv⟩, hprime⟩ := hp
  have hmeets := hashStep_meets fuel op hinv
  rw [hret] at hmeets
  obtain ⟨⟨m', -, hinv'⟩, -⟩ := hmeets
  refine ⟨⟨m', hinv'⟩, ?_⟩
  cases op with
  | add entry =>
      obtain ⟨⟨r', h₁⟩, hadd, hret⟩ := Outcome.bind_eq_ret.1 hret
      obtain ⟨-, rfl⟩ := Prod.mk.inj (Outcome.ret.inj hret)
      rcases hinv.add_hashSize hadd with ⟨-, -, hsize, -⟩ | ⟨-, hsize⟩
      · rw [hsize]
        exact hinv.nextPrime.prime
      · rwa [hsize]
  | remove k =>
      obtain ⟨⟨r', h₁⟩, hremove, hret⟩ := Outcome.bind_eq_ret.1 hret
      obtain ⟨-, rfl⟩ := Prod.mk.inj (Outcome.ret.inj hret)
      rwa [hashRemove_hashSize hinv hremove]
  | get k =>
      obtain ⟨⟨e, h₁⟩, hget, hret⟩ := Outcome.bind_eq_ret.1 hret
      obtain ⟨-, rfl⟩ := Prod.mk.inj (Outcome.ret.inj hret)
      have hsame : (hashGet key probe fuel h k).Meets True False fun q => q = (m k, h) :=
        hashGet_meets hinv fuel k
      rw [hget] at hsame
      obtain ⟨-, rfl⟩ := Prod.mk.inj hsame
      exact hprime
  | getEntries =>
      rw [hashStep, hashGetEntries, hashCollect_eq hinv] at hret
      obtain ⟨-, rfl⟩ := Prod.mk.inj (Outcome.ret.inj hret)
      exact hprime
  | getKeys =>
      rw [hashStep, hashGetKeys, hashCollect_eq hinv] at hret
      obtain ⟨-, rfl⟩ := Prod.mk.inj (Outcome.ret.inj hret)
      exact hprime

omit [DecidableEq κ] in
lemma hashAlloc_primeSized : PrimeSized key probe (hashAlloc α) :=
  ⟨⟨_, hashAlloc_inv⟩, (findFirstPrime_isNextPrime (n := hashInitSize) (by decide)).prime⟩

/-- **`find_first_prime` is the next prime.**  For `1 ≤ n ≤ 2 ^ 30` it ends without an overflow
and returns the least prime that is greater than `n`.  The first size of a table comes from it,
and the size of every table that calls have made is a prime: `hash_add` takes the next prime of
twice the size when it makes the table larger, and leaves the size as it is otherwise, also when
it rehashes a table that has more tombstones than entries. -/
theorem find_first_prime_sizes (key : α → κ) (probe : κ → UInt64 → UInt64) (fuel : ℕ) :
    (∀ n : ℕ, 1 ≤ n → n ≤ 2 ^ 30 → ∃ p : ℕ, IsNextPrime n p ∧
      ∀ rounds, n ≤ rounds → findFirstPrimeInt rounds n = .ret p) ∧
    IsNextPrime hashInitSize (hashAlloc α).hashSize ∧
    ∀ (ops : List (HashOp α κ)) (rs : List (HashRes α κ)) (h : HashT α) (entry : α) (r : RetT)
      (h' : HashT α), runOps (hashStep key probe fuel) ops (hashAlloc α) = .ret (rs, h) →
      hashAdd key probe fuel h entry = .ret (r, h') →
      h.hashSize.Prime ∧
      (r = .succeed ∧ h.Enlarges → IsNextPrime (2 * h.hashSize) h'.hashSize ∧
        ∀ rounds, 2 * h.hashSize ≤ rounds →
          findFirstPrimeInt rounds (2 * h.hashSize) = .ret h'.hashSize) ∧
      (¬ (r = .succeed ∧ h.Enlarges) → h'.hashSize = h.hashSize) := by
  refine ⟨fun n hn hle => ?_, findFirstPrime_isNextPrime (by decide), ?_⟩
  · have hmax : n < intMax := by
      simp only [intMax]
      omega
    exact ⟨findFirstPrime n, findFirstPrime_isNextPrime hn, fun rounds hrounds =>
      findFirstPrimeInt_eq_findFirstPrime hn hmax hrounds⟩
  · intro ops rs h entry r h' hrun hadd
    obtain ⟨⟨m, hinv⟩, hprime⟩ := runOps_ret_invariant (I := PrimeSized key probe)
      (fun s op r s' => hashStep_primeSized) hashAlloc_primeSized hrun
    have hcomm : 2 * h.hashSize = h.hashSize * rehashRate := Nat.mul_comm _ _
    refine ⟨hprime, fun hlarger => ?_, fun hsame => ?_⟩
    · rcases hinv.add_hashSize hadd with ⟨-, -, hsize, hmax⟩ | ⟨hno, -⟩
      · have hnext := hinv.nextPrime
        rw [hsize, hcomm]
        refine ⟨hnext, fun rounds hrounds => ?_⟩
        have hpos := hinv.size_pos
        have hint := findFirstPrimeInt_eq_findFirstPrime (by omega) (lt_intMax_of_double hmax)
          hrounds
        rw [← hint, ← hcomm]
        push_cast
        rfl
      · exact absurd hlarger hno
    · rcases hinv.add_hashSize hadd with ⟨hr, hlarger, -⟩ | ⟨-, hsize⟩
      · exact absurd ⟨hr, hlarger⟩ hsame
      · exact hsize

/-- The sixth entry of a table with eleven slots. -/
theorem find_first_prime_sizes_sixth :
    (∃ p : ℕ, IsNextPrime 1000000 p ∧
      ∀ rounds, 1000000 ≤ rounds → findFirstPrimeInt rounds (1000000 : ℕ) = .ret p) ∧
    ∃ rs h h', runOps (hashStep (α := ℕ × ℕ) Prod.fst (fun k l => UInt64.ofNat k + l) 50)
        [.add (1, 0), .add (2, 0), .add (3, 0), .add (4, 0), .add (5, 0)] (hashAlloc (ℕ × ℕ))
          = .ret (rs, h) ∧
      hashAdd Prod.fst (fun k l => UInt64.ofNat k + l) 50 h (6, 0) = .ret (.succeed, h') ∧
      h.hashSize.Prime ∧ IsNextPrime (2 * h.hashSize) h'.hashSize := by
  obtain ⟨hprime, -, hsizes⟩ := find_first_prime_sizes (α := ℕ × ℕ) Prod.fst
    (fun k l => UInt64.ofNat k + l) 50
  refine ⟨hprime 1000000 (by norm_num) (by norm_num), ?_⟩
  have hcalls : (runOps (hashStep (α := ℕ × ℕ) Prod.fst (fun k l => UInt64.ofNat k + l) 50)
      [.add (1, 0), .add (2, 0), .add (3, 0), .add (4, 0), .add (5, 0)] (hashAlloc (ℕ × ℕ)) >>=
      fun q => hashAdd Prod.fst (fun k l => UInt64.ofNat k + l) 50 q.2 (6, 0) >>=
      fun q' => pure (q'.1, q.2.hashSize, q.2.used, q.2.hashEntryRemovedCount))
        = .ret (.succeed, 11, 5, 0) := by decide +kernel
  obtain ⟨⟨rs, h⟩, hrun, hcalls⟩ := Outcome.bind_eq_ret.1 hcalls
  obtain ⟨⟨r, h'⟩, hadd, hcalls⟩ := Outcome.bind_eq_ret.1 hcalls
  simp only [Outcome.pure_eq, Outcome.ret.injEq, Prod.mk.injEq] at hcalls
  obtain ⟨rfl, hsize, hused, hremoved⟩ := hcalls
  have hlarger : h.Enlarges := by
    rw [HashT.Enlarges, hsize, hused, hremoved]
    exact ⟨by decide, Nat.zero_le _⟩
  obtain ⟨hp, hnext, -⟩ := hsizes _ rs h (6, 0) .succeed h' hrun hadd
  exact ⟨rs, h, h', hrun, hadd, hp, (hnext ⟨rfl, hlarger⟩).1⟩

/-- Five entries are added and removed again.  The next one makes `hash_add` rehash the table, with
one entry and five tombstones, and the size that it chooses is the old one. -/
theorem rehash_keeps_size :
    ∃ rs h h' index, runOps (hashStep (α := ℕ × ℕ) Prod.fst (fun k l => UInt64.ofNat k + l) 50)
        [.add (1, 0), .remove 1, .add (2, 0), .remove 2, .add (3, 0), .remove 3, .add (4, 0),
          .remove 4, .add (5, 0), .remove 5] (hashAlloc (ℕ × ℕ)) = .ret (rs, h) ∧
      hashAdd Prod.fst (fun k l => UInt64.ofNat k + l) 50 h (6, 0) = .ret (.succeed, h') ∧
      h.hashSize < (h.used + 1) * rehashRate ∧
      rehashSize (h.write index (6, 0)) = .ret h'.hashSize ∧
      h.hashSize = 11 ∧ h'.hashSize = 11 ∧ ¬ 2 * h.hashSize < h'.hashSize := by
  have hcalls : (runOps (hashStep (α := ℕ × ℕ) Prod.fst (fun k l => UInt64.ofNat k + l) 50)
      [.add (1, 0), .remove 1, .add (2, 0), .remove 2, .add (3, 0), .remove 3, .add (4, 0),
        .remove 4, .add (5, 0), .remove 5] (hashAlloc (ℕ × ℕ)) >>=
      fun q => hashAdd Prod.fst (fun k l => UInt64.ofNat k + l) 50 q.2 (6, 0) >>=
      fun q' => pure (q'.1, q.2.hashSize, q.2.used, q'.2.hashSize))
        = .ret (.succeed, 11, 5, 11) := by decide +kernel
  obtain ⟨⟨rs, h⟩, hrun, hcalls⟩ := Outcome.bind_eq_ret.1 hcalls
  obtain ⟨⟨r, h'⟩, hadd, hcalls⟩ := Outcome.bind_eq_ret.1 hcalls
  simp only [Outcome.pure_eq, Outcome.ret.injEq, Prod.mk.injEq] at hcalls
  obtain ⟨rfl, hsize, hused, hsize'⟩ := hcalls
  have hload : h.hashSize < (h.used + 1) * rehashRate := by
    rw [hsize, hused]
    decide
  rcases hashAdd_hashSize hadd with ⟨hno, -⟩ | ⟨-, index, hrehash⟩
  · exact absurd hload (not_lt.2 hno)
  · refine ⟨rs, h, h', index, hrun, hadd, hload, hrehash, hsize, hsize', ?_⟩
    rw [hsize, hsize']
    decide

end CheckQ
