import CheckQ.Parser.CmdFill

/-!
# The shuffled rows of `parser_gen_cmd_bucket`

`parser_shuffle_cmds` exchanges two cells of the array two hundred times.  Both numbers are
remainders by `size - 1`, so the last cell is never one of them, and the exchange is skipped
when they are the same: the exclusive ors would clear the cell.  Each row of the bucket is the
array after one more call.
-/

namespace CheckQ

/-! ### One exchange -/

/-- Three exclusive ors exchange two words. -/
lemma xor_exchange (x y : UInt32) : y ^^^ (x ^^^ y) = x ∧ x ^^^ y ^^^ x = y := by
  constructor
  · rw [UInt32.xor_comm x y, ← UInt32.xor_assoc, UInt32.xor_self, UInt32.zero_xor]
  · rw [UInt32.xor_comm x y, UInt32.xor_assoc, UInt32.xor_self, UInt32.xor_zero]

lemma xorAssign_eq (cmdArray : List UInt32) {a b : ℕ} {x y : UInt32} (ha : cmdArray[a]? = some x)
    (hb : cmdArray[b]? = some y) : xorAssign cmdArray a b = .ret (cmdArray.set a (x ^^^ y)) := by
  rw [xorAssign, ha, hb]

/-- The exchange of two different cells of the array. -/
lemma xorSwap_eq {cmdArray : List UInt32} {a b : ℕ} (ha : a < cmdArray.length)
    (hb : b < cmdArray.length) (hab : a ≠ b) :
    xorSwap cmdArray a b = .ret ((cmdArray.set a cmdArray[b]).set b cmdArray[a]) := by
  obtain ⟨hy, hx⟩ := xor_exchange cmdArray[a] cmdArray[b]
  have h₁ := xorAssign_eq cmdArray (List.getElem?_eq_getElem ha) (List.getElem?_eq_getElem hb)
  have h₂ := xorAssign_eq (cmdArray.set a (cmdArray[a] ^^^ cmdArray[b])) (a := b) (b := a)
    (y := cmdArray[a] ^^^ cmdArray[b])
    ((List.getElem?_set_ne hab).trans (List.getElem?_eq_getElem hb)) (by simp [ha])
  have h₃ := xorAssign_eq ((cmdArray.set a (cmdArray[a] ^^^ cmdArray[b])).set b cmdArray[a])
    (a := a) (b := b) (x := cmdArray[a] ^^^ cmdArray[b]) (y := cmdArray[a])
    (by rw [List.getElem?_set_ne hab.symm]; simp [ha]) (by simp [hb])
  rw [hy] at h₂
  rw [hx, List.set_comm _ _ hab.symm, List.set_set] at h₃
  rw [xorSwap, h₁, Outcome.ret_bind, h₂, Outcome.ret_bind, h₃]

/-- Of a cell with itself nothing is left. -/
example : xorSwap [7, 9] 1 1 = .ret [7, 0] := rfl

/-! ### One call -/

/-- The words are those of `cmdArray` in another order, and the last one is where it was. -/
def Shuffled (cmdArray cmdArray' : List UInt32) : Prop :=
  cmdArray'.Perm cmdArray ∧ cmdArray'.getLast? = cmdArray.getLast?

namespace Shuffled

variable {l l' l'' : List UInt32}

lemma refl (l : List UInt32) : Shuffled l l := ⟨List.Perm.refl l, rfl⟩

lemma trans (h : Shuffled l l') (h' : Shuffled l' l'') : Shuffled l l'' :=
  ⟨h'.1.trans h.1, h'.2.trans h.2⟩

lemma length_eq (h : Shuffled l l') : l'.length = l.length := h.1.length_eq

/-- The exchange of two cells in front of the last one. -/
lemma exchange {a b : ℕ} (ha : a + 1 < l.length) (hb : b + 1 < l.length) :
    Shuffled l ((l.set a (l[b])).set b (l[a])) := by
  refine ⟨List.set_set_perm (by omega) (by omega), ?_⟩
  rw [List.getLast?_eq_getElem?, List.getLast?_eq_getElem?, List.length_set, List.length_set,
    List.getElem?_set_ne (by omega), List.getElem?_set_ne (by omega)]

end Shuffled

/-- The loop of `parser_shuffle_cmds`, with a remainder that leaves out the last cell. -/
lemma shuffleLoop_meets {modulus : ℕ} (hpos : 0 < modulus) (n : ℕ) {cmdArray : List UInt32}
    (hlen : modulus + 1 = cmdArray.length) (r : RandStream) :
    (shuffleLoop modulus n cmdArray r).Meets False False fun q => Shuffled cmdArray q.1 := by
  induction n generalizing cmdArray r with
  | zero => exact Shuffled.refl cmdArray
  | succ n ih =>
      have ha : r.next.1 % modulus < modulus := Nat.mod_lt _ hpos
      have hb : r.next.2.next.1 % modulus < modulus := Nat.mod_lt _ hpos
      simp only [shuffleLoop, if_neg hpos.ne']
      split
      · exact ih hlen _
      · rename_i hne
        have hswap := Shuffled.exchange (l := cmdArray) (a := r.next.1 % modulus)
          (b := r.next.2.next.1 % modulus) (by omega) (by omega)
        rw [xorSwap_eq (by omega) (by omega) hne, Outcome.ret_bind]
        refine (ih (by rw [hswap.length_eq, hlen]) _).mono id fun q hq => ?_
        exact hswap.trans hq

/-- **Shuffling is a permutation that fixes the last command**, whatever `rand()` returns. -/
theorem shuffle_permutes (cmdArray : List UInt32) (hsize : 2 ≤ cmdArray.length) (r : RandStream) :
    ∃ cmdArray' r', parserShuffleCmds cmdArray cmdArray.length r = .ret (cmdArray', r') ∧
      cmdArray'.Perm cmdArray ∧ cmdArray'.getLast? = cmdArray.getLast? := by
  have hmod : ((cmdArray.length : Int) - 1).natAbs + 1 = cmdArray.length := by omega
  obtain ⟨⟨cmdArray', r'⟩, hrun, hshuffled⟩ :=
    (shuffleLoop_meets (by omega) 200 hmod r).exists_ret
  exact ⟨cmdArray', r', hrun, hshuffled⟩

theorem shuffle_permutes_four :
    ∃ cmdArray' r', parserShuffleCmds [1, 2, 3, 4] 4 id = .ret (cmdArray', r') ∧
      cmdArray'.Perm [1, 2, 3, 4] ∧ cmdArray'.getLast? = some 4 :=
  shuffle_permutes [1, 2, 3, 4] (by decide) id

/-! ### The rows -/

/-- Both numbers are zero when the remainder is by one, as it is for an empty array. -/
lemma shuffleLoop_one (n : ℕ) (cmdArray : List UInt32) (r : RandStream) :
    ∃ r', shuffleLoop 1 n cmdArray r = .ret (cmdArray, r') := by
  induction n generalizing r with
  | zero => exact ⟨r, rfl⟩
  | succ n ih =>
      simp only [shuffleLoop, Nat.mod_one, if_true, Nat.one_ne_zero, if_false]
      exact ih _

lemma parserShuffleCmds_meets {cmdArray : List UInt32} (hne : cmdArray.length ≠ 1)
    (r : RandStream) :
    (parserShuffleCmds cmdArray cmdArray.length r).Meets False False
      fun q => Shuffled cmdArray q.1 := by
  by_cases hnil : cmdArray.length = 0
  · obtain ⟨r', hrun⟩ := shuffleLoop_one 200 cmdArray r
    have hmod : ((cmdArray.length : Int) - 1).natAbs = 1 := by omega
    rw [parserShuffleCmds, hmod, hrun]
    exact Shuffled.refl cmdArray
  · exact shuffleLoop_meets (by omega) 200 (by omega) r

/-- The commands of the array go to the end of the list. -/
lemma addCmds_inv (cmds : List UInt32) {cmds' : List UInt32} {ps : List ℕ} {l : CmdList}
    (h : CmdListInv ps cmds' l) :
    ∃ l' ps', addCmds cmds l = .ret l' ∧ CmdListInv ps' (cmds' ++ cmds) l' := by
  induction cmds generalizing cmds' ps l with
  | nil => exact ⟨l, ps, rfl, by simpa using h⟩
  | cons cmd cmds ih =>
      obtain ⟨l₁, ps₁, hadd, h₁⟩ := cmdListAdd_inv h cmd
      obtain ⟨l', ps', hrun, h'⟩ := ih h₁
      refine ⟨l', ps', ?_, by simpa using h'⟩
      rw [addCmds, hadd, Outcome.ret_bind]
      exact hrun

/-- The loop over the rows: each row is the array in another order, with its last command. -/
lemma genRows_meets (n : ℕ) (cmdArray : List UInt32) (hne : cmdArray.length ≠ 1)
    {cmdLists : List (List UInt32)} {bucket : VectorT CmdList} (hbucket : BucketInv cmdLists bucket)
    (r : RandStream) :
    (genRows cmdArray.length n cmdArray bucket r).Meets False False fun bucket' =>
      ∃ rows : List (List UInt32), rows.length = n ∧ (∀ row ∈ rows, Shuffled cmdArray row) ∧
        BucketInv (cmdLists ++ rows) bucket' := by
  induction n generalizing cmdArray cmdLists bucket r with
  | zero => exact ⟨[], rfl, by simp, by simpa using hbucket⟩
  | succ n ih =>
      rw [genRows]
      refine (parserShuffleCmds_meets hne r).bind ?_
      rintro ⟨row, r⟩ hrow
      dsimp only at hrow ⊢
      obtain ⟨l, ps, hlist, hl⟩ := addCmds_inv row cmdListInit_inv
      obtain ⟨bucket₁, hadd, hbucket₁⟩ := cmdBucketAdd_inv hbucket hl
      rw [hlist, Outcome.ret_bind, hadd, Outcome.ret_bind, ← hrow.length_eq]
      refine (ih row (hrow.length_eq ▸ hne) hbucket₁ r).mono id ?_
      rintro bucket' ⟨rows, hlen, hrows, hbucket'⟩
      refine ⟨row :: rows, by rw [List.length_cons, hlen], ?_, by simpa using hbucket'⟩
      intro row' hrow'
      rcases List.mem_cons.1 hrow' with rfl | hmem
      · exact hrow
      · exact hrow.trans (hrows row' hmem)

/-- The remainder for an array of one cell is by zero. -/
lemma parserShuffleCmds_one (cmdArray : List UInt32) (r : RandStream) :
    parserShuffleCmds cmdArray 1 r = .fault := rfl

/-- The rows of `parser_gen_cmd_bucket`, when the fill loop has stayed in the array. -/
lemma parserGenCmdBucket_meets (g : Garbage) (rows : Int) {cols : Int} (hcols : 0 ≤ cols)
    (hne : cols ≠ 1) {rate : List Double} {written : List UInt32}
    (hfill : fillCmdArray cols.toNat (cmdPattern.zip rate) 0 [] = .ret written)
    (hlen : written.length ≤ cols.toNat) {cmdLists : List (List UInt32)} {bucket : VectorT CmdList}
    (hbucket : BucketInv cmdLists bucket) (r : RandStream) :
    (parserGenCmdBucket g rows cols rate bucket r).Meets False False fun q =>
      q.1 = .succeed ∧ ∃ (unset : List UInt32) (added : List (List UInt32)),
        unset.length = cols.toNat - written.length ∧ added.length = rows.toNat ∧
        (∀ row ∈ added, Shuffled (written ++ unset) row) ∧
        BucketInv (cmdLists ++ added) q.2 := by
  let unset := (List.range (cols.toNat - written.length)).map fun i =>
    g.cmdArray (written.length + i)
  have hunset : unset.length = cols.toNat - written.length := by simp [unset]
  have hcells : (written ++ unset).length = cols.toNat := by
    rw [List.length_append, hunset]
    omega
  have hrows := genRows_meets rows.toNat (written ++ unset) (by omega) hbucket r
  rw [hcells] at hrows
  simp only [parserGenCmdBucket, if_neg (not_lt.2 hcols), hfill, Outcome.ret_bind]
  rw [if_neg (by omega)]
  refine hrows.bind ?_
  rintro bucket' ⟨added, hadded, hshuffled, hbucket'⟩
  exact ⟨rfl, unset, added, hunset, hadded, hshuffled, hbucket'⟩

/-- When the fill loop has stayed in the array, the calls of `parser_shuffle_cmds` take no
remainder by zero and stay in the array, whatever its cells hold and whatever `rand()` returns. -/
def ShufflesSafe (rows cols : Int32) : Prop :=
  ∀ g rate written cmdLists bucket r,
    fillCmdArray cols.toInt.toNat (cmdPattern.zip rate) 0 [] = .ret written →
    written.length ≤ cols.toInt.toNat → BucketInv cmdLists bucket →
    parserGenCmdBucket g rows.toInt cols.toInt rate bucket r ≠ .fault

/-- **Accepted windows are safe to shuffle** unless they have one column. -/
theorem shuffles_safe_iff (rows cols : Int32)
    (hwindow : verifyWindow rows.toInt cols.toInt = .succeed) (hrows : 1 ≤ rows.toInt) :
    ShufflesSafe rows cols ↔ cols ≠ 1 := by
  have hcols : 0 ≤ cols.toInt := by
    by_contra hneg
    rw [verifyWindow, if_pos (Or.inr (by omega))] at hwindow
    exact absurd hwindow (by decide)
  constructor
  · rintro hsafe rfl
    have hfill : fillCmdArray 1 (cmdPattern.zip [0, 0, 0, 0]) (0 : Double) [] = .ret [] := by
      decide +kernel
    refine hsafe .zeros [0, 0, 0, 0] [] [] cmdBucketInit id hfill (by decide) bucketInv_init ?_
    obtain ⟨n, hn⟩ : ∃ n, rows.toInt.toNat = n + 1 := ⟨rows.toInt.toNat - 1, by omega⟩
    have hone : (1 : Int32).toInt = 1 := rfl
    rw [parserGenCmdBucket, hone, if_neg (by decide), Int.toNat_one, hfill, Outcome.ret_bind,
      if_neg (by decide), hn]
    simp only [genRows, parserShuffleCmds_one, Outcome.fault_bind]
  · intro hne g rate written cmdLists bucket r hfill hlen hbucket hfault
    have hone : cols.toInt ≠ 1 := by
      rintro h
      exact hne (Int32.toInt_inj.1 h)
    have hmeets := parserGenCmdBucket_meets g rows.toInt hcols hone hfill hlen hbucket r
    rw [hfault] at hmeets
    exact hmeets

theorem shuffles_safe_twenty : ShufflesSafe 1 20 :=
  (shuffles_safe_iff 1 20 (by decide) (by decide)).2 (by decide)

/-- A window of one row and one column is accepted, and its shuffle divides by zero. -/
theorem one_column_divides_by_zero :
    verifyWindow 1 1 = .succeed ∧ ¬ShufflesSafe 1 1 := by
  refine ⟨rfl, fun hsafe => ?_⟩
  have hfill : fillCmdArray 1 (cmdPattern.zip [0.3, 0.1, 0.5, 0.1]) (0 : Double) [] = .ret [1] := by
    decide +kernel
  refine hsafe .zeros [0.3, 0.1, 0.5, 0.1] [1] [] cmdBucketInit id hfill (by decide)
    bucketInv_init ?_
  decide +kernel

end CheckQ
