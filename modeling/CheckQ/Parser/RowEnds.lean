import CheckQ.Parser.CmdShuffle

/-!
# The last command of a row

The shuffle leaves the last cell of `cmd_array` alone, so that a row ends in the command that the
fill loop has put there.  The loop computes with doubles.  It writes the whole part of
`rate * cols` for each command and goes on until the quotient of the numbers of cells has reached
the sum of the rates; both may come to one cell more than the exact numbers do, and the cells that
a command takes too many are missing at the end.

Rates that add up to one leave no cell unset, since their sum in doubles is still above every
quotient of a smaller number by `cols`.
-/

namespace CheckQ

open Double

/-- Whatever `rand()` returns, `parser_gen_cmd_bucket` adds `rows` lists to the bucket, and the
last command of each of them is SELECT. -/
def RowsEndInSelect (g : Garbage) (rows cols : Int) (rate : List Double)
    (cmdLists : List (List UInt32)) (bucket : VectorT CmdList) : Prop :=
  ∀ r, ∃ bucket' added, parserGenCmdBucket g rows cols rate bucket r = .ret (.succeed, bucket') ∧
    BucketInv (cmdLists ++ added) bucket' ∧ added.length = rows.toNat ∧
    ∀ row ∈ added, row.getLast? = some CmdType.select.code

/-- The number of cells that `(int) (rate * cols)` says. -/
def wholePart (rate : Double) (cols : ℕ) : ℕ :=
  ((HasTrunc.trunc (rate * (cols : Double))).getD 0).toNat

/-- All but `n` of the cells are enough for rates with the sum `s`. -/
def EnoughBut (n : ℕ) (s : Double) (cols : ℕ) : Prop :=
  n ≤ cols ∧ ¬((cols - n : ℕ) : Double) / (cols : Double) < s

/-- The cells up to each command are enough when those are left over that the whole parts of the
commands behind it take, and one for SELECT if its whole part is zero. -/
structure RoomForSelect (r₁ r₂ r₃ r₄ : Double) (cols : ℕ) : Prop where
  start : wholePart r₁ cols + wholePart r₂ cols + wholePart r₃ cols + max 1 (wholePart r₄ cols)
    ≤ cols
  insert : EnoughBut (wholePart r₂ cols + wholePart r₃ cols + max 1 (wholePart r₄ cols)) (0 + r₁)
    cols
  delete : EnoughBut (wholePart r₃ cols + max 1 (wholePart r₄ cols)) (0 + r₁ + r₂) cols
  update : EnoughBut (max 1 (wholePart r₄ cols)) (0 + r₁ + r₂ + r₃) cols
  select : EnoughBut 0 (0 + r₁ + r₂ + r₃ + r₄) cols

/-! ### Quotients, products and sums -/

section Values

variable {cols n : ℕ}

lemma quotient_hasVal (hcols : 0 < cols) (hmax : cols < 2 ^ 53) (hn : n < 2 ^ 53) :
    ((n : Double) / (cols : Double)).HasVal (rnd (n / cols)) := by
  have hpos : (1 : ℚ) ≤ cols := by exact_mod_cast hcols
  have hnQ : (n : ℚ) < 2 ^ 53 := by exact_mod_cast hn
  refine (HasVal.natCast hn).div (HasVal.natCast hmax) (by positivity) (by positivity) ?_
  exact (div_le_self (Nat.cast_nonneg n) hpos).trans_lt hnQ

/-- More cells have a greater quotient. -/
lemma not_quotient_lt_of_le {m : ℕ} {s : Double} {x : ℚ} (hs : s.HasVal x) (hcols : 0 < cols)
    (hmax : cols < 2 ^ 53) (hle : m ≤ n) (hn : n < 2 ^ 53)
    (h : ¬(m : Double) / (cols : Double) < s) : ¬(n : Double) / (cols : Double) < s := by
  rw [(quotient_hasVal hcols hmax (by omega)).lt_iff hs, not_lt] at h
  rw [(quotient_hasVal hcols hmax hn).lt_iff hs, not_lt]
  have hpos : (0 : ℚ) ≤ cols := Nat.cast_nonneg cols
  have hleQ : (m : ℚ) ≤ n := by exact_mod_cast hle
  exact h.trans (rnd_mono (by positivity) (div_le_div_of_nonneg_right hleQ hpos))

lemma rnd_one : rnd 1 = 1 := by exact_mod_cast rnd_natCast (n := 1) (by norm_num)

/-- The product with a rate up to one is not greater than `cols`. -/
lemma exists_trunc_mul {q : ℚ} (h₀ : 0 ≤ q) (h₁ : q < 1) (hmax : cols < 2 ^ 31) :
    ∃ t : ℕ, HasTrunc.trunc (ofRat q * (cols : Double)) = some (t : ℤ) ∧ t ≤ cols := by
  have hrnd : rnd q ≤ 1 := rnd_one ▸ rnd_mono h₀ h₁.le
  have hcolsQ : (cols : ℚ) < 2 ^ 53 := by
    have : cols < 2 ^ 53 := by omega
    exact_mod_cast this
  have hnonneg : 0 ≤ rnd q * cols := mul_nonneg (rnd_nonneg h₀) (Nat.cast_nonneg cols)
  have hle : rnd q * cols ≤ cols := mul_le_of_le_one_left (Nat.cast_nonneg cols) hrnd
  have hval := (ofRat_hasVal h₀ (by linarith)).mul (HasVal.natCast (n := cols) (by omega)) hnonneg
    (hle.trans_lt hcolsQ)
  have hprod : rnd (rnd q * cols) ≤ cols := by
    have := rnd_mono hnonneg hle
    rwa [rnd_natCast (by omega)] at this
  refine ⟨⌊rnd (rnd q * cols)⌋₊, ?_, ?_⟩
  · rw [hval.trunc_eq, trunc_eq_floor (rnd_nonneg hnonneg)]
  · have := Nat.floor_mono hprod
    rwa [Nat.floor_natCast] at this

/-- The double is a sum of rates that come to `x`, with an error of at most `e`. -/
def SumsTo (s : Double) (x e : ℚ) : Prop := ∃ v, s.HasVal v ∧ 0 ≤ v ∧ |v - x| ≤ e

/-- One more rate adds two roundings to the error. -/
lemma SumsTo.add {s : Double} {x e q : ℚ} (hs : SumsTo s x e) (h₀ : 0 ≤ q) (h₁ : x + q ≤ 1)
    (hx : 0 ≤ x) (he : e ≤ 1 / 4) : SumsTo (s + ofRat q) (x + q) (e + 2 / 2 ^ 53) := by
  obtain ⟨v, hv, hv₀, hve⟩ := hs
  have hδ : (1 : ℚ) / 2 ^ 53 ≤ 1 / 4 := by norm_num
  have hq := abs_rnd_sub_le h₀ (by linarith)
  have hq₀ := rnd_nonneg h₀
  rw [abs_le] at hve hq
  have hsum := abs_rnd_sub_le (x := v + rnd q) (by linarith) (by linarith)
  rw [abs_le] at hsum
  refine ⟨rnd (v + rnd q), hv.add (ofRat_hasVal h₀ (by linarith)) (by linarith) (by linarith),
    rnd_nonneg (by linarith), ?_⟩
  have htwo : (2 : ℚ) / 2 ^ 53 = 1 / 2 ^ 53 + 1 / 2 ^ 53 := by norm_num
  rw [abs_le, htwo]
  constructor <;> linarith

lemma SumsTo.zero : SumsTo 0 0 0 := by
  refine ⟨0, ?_, le_rfl, by simp⟩
  have h := HasVal.natCast (n := 0) (by norm_num)
  exact_mod_cast h

/-- The sums of four rates that come to one. -/
lemma sums_of_rates {q₁ q₂ q₃ q₄ : ℚ} (hrates : ∀ q ∈ [q₁, q₂, q₃, q₄], 0 ≤ q ∧ q < 1)
    (hsum : q₁ + q₂ + q₃ + q₄ = 1) :
    (∃ x₁, (0 + ofRat q₁).HasVal x₁) ∧ (∃ x₂, (0 + ofRat q₁ + ofRat q₂).HasVal x₂) ∧
      (∃ x₃, (0 + ofRat q₁ + ofRat q₂ + ofRat q₃).HasVal x₃) ∧
      SumsTo (0 + ofRat q₁ + ofRat q₂ + ofRat q₃ + ofRat q₄) 1 (8 / 2 ^ 53) := by
  have h₁ := (hrates q₁ (by simp)).1
  have h₂ := (hrates q₂ (by simp)).1
  have h₃ := (hrates q₃ (by simp)).1
  have h₄ := (hrates q₄ (by simp)).1
  have hs₁ := SumsTo.zero.add h₁ (by linarith) le_rfl (by norm_num)
  have hs₂ := hs₁.add h₂ (by linarith) (by linarith) (by norm_num)
  have hs₃ := hs₂.add h₃ (by linarith) (by linarith) (by norm_num)
  have hs₄ := hs₃.add h₄ (by linarith) (by linarith) (by norm_num)
  have hone : 0 + q₁ + q₂ + q₃ + q₄ = 1 := by rw [zero_add, hsum]
  have herror : (0 : ℚ) + 2 / 2 ^ 53 + 2 / 2 ^ 53 + 2 / 2 ^ 53 + 2 / 2 ^ 53 = 8 / 2 ^ 53 := by
    norm_num
  rw [hone, herror] at hs₄
  exact ⟨hs₁.imp fun _ h => h.1, hs₂.imp fun _ h => h.1, hs₃.imp fun _ h => h.1, hs₄⟩

/-- Below `cols` no quotient reaches a sum that comes to one. -/
lemma le_of_not_quotient_lt {s : Double} {e : ℚ} (hs : SumsTo s 1 e) (he : e ≤ 8 / 2 ^ 53)
    (hcols : 0 < cols) (hmax : cols < 2 ^ 31) (hn : n < 2 ^ 53)
    (h : ¬(n : Double) / (cols : Double) < s) : cols ≤ n := by
  by_contra hlt
  obtain ⟨v, hv, -, hve⟩ := hs
  apply h
  rw [(quotient_hasVal hcols (by omega) hn).lt_iff hv]
  have hpos : (0 : ℚ) < cols := by exact_mod_cast hcols
  have hcolsQ : (cols : ℚ) ≤ 2 ^ 31 := by
    have : cols ≤ 2 ^ 31 := hmax.le
    exact_mod_cast this
  have hquot : (n : ℚ) / cols ≤ 1 - 1 / 2 ^ 31 := by
    have hnQ : (n : ℚ) ≤ cols - 1 := by
      have : (n : ℚ) + 1 ≤ cols := by exact_mod_cast (show n + 1 ≤ cols by omega)
      linarith
    have hinv : 1 / 2 ^ 31 ≤ 1 / (cols : ℚ) := one_div_le_one_div_of_le hpos hcolsQ
    calc (n : ℚ) / cols ≤ (cols - 1) / cols := div_le_div_of_nonneg_right hnQ hpos.le
      _ = 1 - 1 / cols := by rw [sub_div, div_self hpos.ne']
      _ ≤ 1 - 1 / 2 ^ 31 := by linarith
  have hround := abs_rnd_sub_le (x := (n : ℚ) / cols) (by positivity) (by linarith)
  rw [abs_le] at hround hve
  have hgap : (1 : ℚ) / 2 ^ 53 + 8 / 2 ^ 53 < 1 / 2 ^ 31 := by norm_num
  linarith

end Values

/-! ### The fill loop with doubles -/

section Fill

variable {cols : ℕ} {cmd : UInt32} {rate curRate : Double} {rates : List (UInt32 × Double)}
  {written written' : List UInt32}

lemma truncInt_ret {x : Double} {v : Int} (h : truncInt x = .ret v) :
    HasTrunc.trunc x = some v := by
  rw [truncInt] at h
  split at h
  · next v' hv =>
      split_ifs at h
      rw [hv, Outcome.ret.inj h]
  · cases h

/-- A command takes at least the whole part, and the quotient has reached the sum behind it. -/
lemma fillCmdArray_cons_ret (hcols : 0 < cols)
    (h : fillCmdArray cols ((cmd, rate) :: rates) curRate written = .ret written') :
    ∃ n, wholePart rate cols ≤ n ∧
      ¬((written.length + n : ℕ) : Double) / (cols : Double) < curRate + rate ∧
      fillCmdArray cols rates (curRate + rate) (written ++ List.replicate n cmd)
        = .ret written' := by
  obtain ⟨tmp, htmp, h⟩ := Outcome.bind_eq_ret.1 h
  obtain ⟨written₁, hwhile, h⟩ := Outcome.bind_eq_ret.1 h
  obtain ⟨k, rfl, hk⟩ := fillWhile_ret hcols hwhile
  have hwhole : wholePart rate cols = tmp.toNat := by
    rw [wholePart, truncInt_ret htmp, Option.getD_some]
  refine ⟨tmp.toNat + k, by omega, ?_, ?_⟩
  · rwa [List.length_append, List.length_replicate, Nat.add_assoc] at hk
  · rwa [List.append_assoc, ← List.replicate_add] at h

/-- A command takes no more cells than it needs to reach the sum. -/
lemma exists_fillCmdArray_cons (cmd : UInt32) (rates : List (UInt32 × Double))
    (written : List UInt32) {t m : ℕ}
    (ht : HasTrunc.trunc (rate * (cols : Double)) = some (t : ℤ))
    (hm : ¬(m : Double) / (cols : Double) < curRate + rate)
    (hle : written.length + wholePart rate cols ≤ m) (hint : m < 2 ^ 31) :
    ∃ n, written.length + n ≤ m ∧
      fillCmdArray cols ((cmd, rate) :: rates) curRate written
        = fillCmdArray cols rates (curRate + rate) (written ++ List.replicate n cmd) := by
  have hwhole : wholePart rate cols = t := by
    rw [wholePart, ht, Option.getD_some, Int.toNat_natCast]
  have hlen : (written ++ List.replicate t cmd).length = written.length + t := by simp
  obtain ⟨k, hk, hklen⟩ := exists_fillWhile cmd
    (2 ^ 31 - (written ++ List.replicate t cmd).length) (written ++ List.replicate t cmd) hm
    (by omega) (by omega)
  refine ⟨t + k, by omega, ?_⟩
  rw [fillCmdArray, truncInt_eq ht (by omega), Outcome.ret_bind]
  simp only [Int.toNat_natCast]
  rw [hk, Outcome.ret_bind, List.append_assoc, ← List.replicate_add]

variable {r₁ r₂ r₃ r₄ : Double}

/-- The cells of the four commands. -/
def fourBlocks (n₁ n₂ n₃ n₄ : ℕ) : List UInt32 :=
  List.replicate n₁ CmdType.insert.code ++ List.replicate n₂ CmdType.delete.code ++
    List.replicate n₃ CmdType.update.code ++ List.replicate n₄ CmdType.select.code

lemma length_fourBlocks (n₁ n₂ n₃ n₄ : ℕ) :
    (fourBlocks n₁ n₂ n₃ n₄).length = n₁ + n₂ + n₃ + n₄ := by
  simp [fourBlocks, Nat.add_assoc]

/-- A text of commands of four kinds ends in the last kind when it has one. -/
lemma getLast?_blocks_iff {n₁ n₂ n₃ n₄ : ℕ} :
    (fourBlocks n₁ n₂ n₃ n₄).getLast? = some CmdType.select.code ↔ 0 < n₄ := by
  constructor
  · intro hlast
    by_contra hzero
    obtain rfl : n₄ = 0 := by omega
    have hmem := List.mem_of_getLast? hlast
    simp only [fourBlocks, List.replicate_zero, List.append_nil, List.mem_append,
      List.mem_replicate] at hmem
    rcases hmem with (⟨-, h⟩ | ⟨-, h⟩) | ⟨-, h⟩ <;> exact absurd h (by decide)
  · intro hpos
    obtain ⟨n, rfl⟩ : ∃ n, n₄ = n + 1 := ⟨n₄ - 1, by omega⟩
    rw [fourBlocks, List.replicate_succ', ← List.append_assoc, List.getLast?_concat]

/-- What has been written when the loop over the four commands ends. -/
lemma fillCmdArray_ret (hcols : 0 < cols)
    (h : fillCmdArray cols (cmdPattern.zip [r₁, r₂, r₃, r₄]) 0 [] = .ret written) :
    ∃ n₁ n₂ n₃ n₄, written = fourBlocks n₁ n₂ n₃ n₄ ∧
      (wholePart r₁ cols ≤ n₁ ∧ wholePart r₂ cols ≤ n₂ ∧ wholePart r₃ cols ≤ n₃ ∧
        wholePart r₄ cols ≤ n₄) ∧
      ¬(n₁ : Double) / (cols : Double) < 0 + r₁ ∧
      ¬((n₁ + n₂ : ℕ) : Double) / (cols : Double) < 0 + r₁ + r₂ ∧
      ¬((n₁ + n₂ + n₃ : ℕ) : Double) / (cols : Double) < 0 + r₁ + r₂ + r₃ ∧
      ¬((n₁ + n₂ + n₃ + n₄ : ℕ) : Double) / (cols : Double) < 0 + r₁ + r₂ + r₃ + r₄ := by
  obtain ⟨n₁, hw₁, hs₁, h₁⟩ := fillCmdArray_cons_ret hcols h
  obtain ⟨n₂, hw₂, hs₂, h₂⟩ := fillCmdArray_cons_ret hcols h₁
  obtain ⟨n₃, hw₃, hs₃, h₃⟩ := fillCmdArray_cons_ret hcols h₂
  obtain ⟨n₄, hw₄, hs₄, h₄⟩ := fillCmdArray_cons_ret hcols h₃
  refine ⟨n₁, n₂, n₃, n₄, (Outcome.ret.inj h₄).symm, ⟨hw₁, hw₂, hw₃, hw₄⟩, ?_, ?_, ?_, ?_⟩
  · simpa using hs₁
  · simpa using hs₂
  · simpa [Nat.add_assoc] using hs₃
  · simpa [Nat.add_assoc] using hs₄

/-- With room for SELECT the loop ends, and SELECT is behind the other three. -/
lemma RoomForSelect.exists_fillCmdArray (hroom : RoomForSelect r₁ r₂ r₃ r₄ cols)
    (htrunc : ∀ r ∈ [r₁, r₂, r₃, r₄],
      ∃ t : ℕ, HasTrunc.trunc (r * (cols : Double)) = some (t : ℤ)) (hmax : cols < 2 ^ 31) :
    ∃ n₁ n₂ n₃ n₄, fillCmdArray cols (cmdPattern.zip [r₁, r₂, r₃, r₄]) 0 []
        = .ret (fourBlocks n₁ n₂ n₃ n₄) ∧
      n₁ + n₂ + n₃ < cols ∧ n₁ + n₂ + n₃ + n₄ ≤ cols := by
  have hstart := hroom.start
  obtain ⟨t₁, ht₁⟩ := htrunc r₁ (by simp)
  obtain ⟨t₂, ht₂⟩ := htrunc r₂ (by simp)
  obtain ⟨t₃, ht₃⟩ := htrunc r₃ (by simp)
  obtain ⟨t₄, ht₄⟩ := htrunc r₄ (by simp)
  -- each command ends where room is left for those behind it
  obtain ⟨n₁, hn₁, h₁⟩ := exists_fillCmdArray_cons CmdType.insert.code
    ([CmdType.delete, .update, .select].map CmdType.code |>.zip [r₂, r₃, r₄]) [] ht₁
    hroom.insert.2 (by rw [List.length_nil]; omega) (by omega)
  rw [List.length_nil, Nat.zero_add] at hn₁
  have hlen₁ : ([] ++ List.replicate n₁ CmdType.insert.code).length = n₁ := by simp
  obtain ⟨n₂, hn₂, h₂⟩ := exists_fillCmdArray_cons CmdType.delete.code
    ([CmdType.update, .select].map CmdType.code |>.zip [r₃, r₄])
    ([] ++ List.replicate n₁ CmdType.insert.code) ht₂
    hroom.delete.2 (by rw [hlen₁]; omega) (by omega)
  rw [hlen₁] at hn₂
  have hlen₂ : ([] ++ List.replicate n₁ CmdType.insert.code ++
      List.replicate n₂ CmdType.delete.code).length = n₁ + n₂ := by simp
  obtain ⟨n₃, hn₃, h₃⟩ := exists_fillCmdArray_cons CmdType.update.code
    ([CmdType.select].map CmdType.code |>.zip [r₄])
    ([] ++ List.replicate n₁ CmdType.insert.code ++
      List.replicate n₂ CmdType.delete.code) ht₃
    hroom.update.2 (by rw [hlen₂]; omega) (by omega)
  rw [hlen₂] at hn₃
  have hlen₃ : ([] ++ List.replicate n₁ CmdType.insert.code ++
      List.replicate n₂ CmdType.delete.code ++ List.replicate n₃ CmdType.update.code).length
        = n₁ + n₂ + n₃ := by simp [Nat.add_assoc]
  obtain ⟨n₄, hn₄, h₄⟩ := exists_fillCmdArray_cons CmdType.select.code []
    ([] ++ List.replicate n₁ CmdType.insert.code ++
      List.replicate n₂ CmdType.delete.code ++ List.replicate n₃ CmdType.update.code) ht₄
    hroom.select.2 (by rw [hlen₃]; omega) (by omega)
  rw [hlen₃] at hn₄
  refine ⟨n₁, n₂, n₃, n₄, ?_, by omega, by omega⟩
  exact h₁.trans (h₂.trans (h₃.trans h₄))

/-- The cells of the four commands, when they are all there and the last one is SELECT, have left
room for it. -/
lemma roomForSelect_of_fillCmdArray {x₁ x₂ x₃ x₄ : ℚ} (hx₁ : (0 + r₁).HasVal x₁)
    (hx₂ : (0 + r₁ + r₂).HasVal x₂) (hx₃ : (0 + r₁ + r₂ + r₃).HasVal x₃)
    (hx₄ : (0 + r₁ + r₂ + r₃ + r₄).HasVal x₄) (hcols : 0 < cols) (hmax : cols < 2 ^ 31)
    (h : fillCmdArray cols (cmdPattern.zip [r₁, r₂, r₃, r₄]) 0 [] = .ret written)
    (hlen : written.length = cols) (hlast : written.getLast? = some CmdType.select.code) :
    RoomForSelect r₁ r₂ r₃ r₄ cols := by
  obtain ⟨n₁, n₂, n₃, n₄, rfl, ⟨hw₁, hw₂, hw₃, hw₄⟩, hs₁, hs₂, hs₃, hs₄⟩ :=
    fillCmdArray_ret hcols h
  rw [length_fourBlocks] at hlen
  have hpos : 0 < n₄ := getLast?_blocks_iff.1 hlast
  refine ⟨by omega, ⟨by omega, ?_⟩, ⟨by omega, ?_⟩, ⟨by omega, ?_⟩, Nat.zero_le _, ?_⟩
  · exact not_quotient_lt_of_le hx₁ hcols (by omega) (by omega) (by omega) hs₁
  · exact not_quotient_lt_of_le hx₂ hcols (by omega) (by omega) (by omega) hs₂
  · exact not_quotient_lt_of_le hx₃ hcols (by omega) (by omega) (by omega) hs₃
  · exact not_quotient_lt_of_le hx₄ hcols (by omega) (by omega) (by omega) hs₄

end Fill

/-! ### Whole rows -/

/-- The rows end in SELECT when what the fill loop writes does. -/
lemma rowsEndInSelect_iff (g : Garbage) {rows cols : Int} (hrows : 1 ≤ rows) (hcols : 2 ≤ cols)
    {rate : List Double} {written : List UInt32}
    (hfill : fillCmdArray cols.toNat (cmdPattern.zip rate) 0 [] = .ret written)
    (hlen : written.length = cols.toNat) {cmdLists : List (List UInt32)} {bucket : VectorT CmdList}
    (hbucket : BucketInv cmdLists bucket) :
    RowsEndInSelect g rows cols rate cmdLists bucket ↔
      written.getLast? = some CmdType.select.code := by
  have hrun : ∀ r, ∃ bucket' added,
      parserGenCmdBucket g rows cols rate bucket r = .ret (.succeed, bucket') ∧
      BucketInv (cmdLists ++ added) bucket' ∧ added.length = rows.toNat ∧
      ∀ row ∈ added, row.getLast? = written.getLast? := by
    intro r
    obtain ⟨⟨ret, bucket'⟩, hret, hsucceed, unset, added, hunset, hadded, hshuffled, hbucket'⟩ :=
      (parserGenCmdBucket_meets g rows (by omega) (by omega) hfill hlen.le hbucket r).exists_ret
    obtain rfl : ret = .succeed := hsucceed
    have hnil : unset = [] := List.eq_nil_of_length_eq_zero (by omega)
    refine ⟨bucket', added, hret, hbucket', hadded, fun row hrow => ?_⟩
    rw [(hshuffled row hrow).2, hnil, List.append_nil]
  constructor
  · intro hends
    obtain ⟨bucket₁, added₁, hrun₁, hinv₁, hlen₁, hlast₁⟩ := hrun id
    obtain ⟨bucket₂, added₂, hrun₂, hinv₂, -, hlast₂⟩ := hends id
    obtain ⟨-, rfl⟩ := Prod.mk.inj (Outcome.ret.inj (hrun₁.symm.trans hrun₂))
    obtain rfl := List.append_cancel_left (hinv₁.unique hinv₂)
    obtain ⟨row, rest, hadded⟩ := List.exists_cons_of_length_pos (l := added₁) (by omega)
    have hmem : row ∈ added₁ := by simp [hadded]
    rw [← hlast₁ row hmem, hlast₂ row hmem]
  · intro hlast r
    obtain ⟨bucket', added, hret, hinv, hadded, hrows'⟩ := hrun r
    exact ⟨bucket', added, hret, hinv, hadded, fun row hrow => (hrows' row hrow).trans hlast⟩

/-- When the call returns, the fill loop has stayed in the array. -/
lemma parserGenCmdBucket_ret {g : Garbage} {rows cols : Int} {rate : List Double}
    {bucket bucket' : VectorT CmdList} {r : RandStream}
    (h : parserGenCmdBucket g rows cols rate bucket r = .ret (.succeed, bucket')) :
    ∃ written, fillCmdArray cols.toNat (cmdPattern.zip rate) 0 [] = .ret written ∧
      written.length ≤ cols.toNat := by
  rw [parserGenCmdBucket] at h
  split_ifs at h
  obtain ⟨written, hfill, h⟩ := Outcome.bind_eq_ret.1 h
  split_ifs at h with hlong
  exact ⟨written, hfill, by omega⟩

/-- **Every generated row ends with a check** when the cells that are rounded up for the first
three commands leave room for SELECT.  The rates of the text are rational numbers with the sum
one, and the loop gets the doubles nearest to them. -/
theorem rows_end_in_select_iff (q₁ q₂ q₃ q₄ : ℚ) (hrates : ∀ q ∈ [q₁, q₂, q₃, q₄], 0 ≤ q ∧ q < 1)
    (hsum : q₁ + q₂ + q₃ + q₄ = 1) (rows cols : Int32) (hrows : 1 ≤ rows.toInt)
    (hcols : 2 ≤ cols.toInt) (g : Garbage) (cmdLists : List (List UInt32))
    (bucket : VectorT CmdList) (hbucket : BucketInv cmdLists bucket) :
    RowsEndInSelect g rows.toInt cols.toInt [ofRat q₁, ofRat q₂, ofRat q₃, ofRat q₄] cmdLists
        bucket ↔
      RoomForSelect (ofRat q₁) (ofRat q₂) (ofRat q₃) (ofRat q₄) cols.toInt.toNat := by
  have hmax : cols.toInt.toNat < 2 ^ 31 := by
    have := cols.toInt_lt
    omega
  have htrunc : ∀ r ∈ [q₁, q₂, q₃, q₄].map ofRat, ∃ t : ℕ,
      HasTrunc.trunc (r * ((cols.toInt.toNat : ℕ) : Double)) = some (t : ℤ) := by
    intro r hr
    obtain ⟨q, hq, rfl⟩ := List.mem_map.1 hr
    obtain ⟨t, ht, -⟩ := exists_trunc_mul (hrates q hq).1 (hrates q hq).2 hmax
    exact ⟨t, ht⟩
  -- the sums of the doubles are near those of the rates
  obtain ⟨⟨x₁, hx₁⟩, ⟨x₂, hx₂⟩, ⟨x₃, hx₃⟩, hs₄⟩ := sums_of_rates hrates hsum
  have hfull : ∀ n₁ n₂ n₃ n₄ : ℕ, n₁ + n₂ + n₃ + n₄ < 2 ^ 53 →
      ¬((n₁ + n₂ + n₃ + n₄ : ℕ) : Double) / ((cols.toInt.toNat : ℕ) : Double)
        < 0 + ofRat q₁ + ofRat q₂ + ofRat q₃ + ofRat q₄ →
      cols.toInt.toNat ≤ n₁ + n₂ + n₃ + n₄ := fun n₁ n₂ n₃ n₄ hn h =>
    le_of_not_quotient_lt hs₄ le_rfl (by omega) hmax hn h
  obtain ⟨x₄, hx₄, -⟩ := hs₄
  constructor
  · intro hends
    obtain ⟨bucket', added, hrun, -⟩ := hends id
    obtain ⟨written, hfill, hlen⟩ := parserGenCmdBucket_ret hrun
    obtain ⟨n₁, n₂, n₃, n₄, hwritten, -, -, -, -, hlast⟩ := fillCmdArray_ret (by omega) hfill
    have hlen' : written.length = cols.toInt.toNat := by
      rw [hwritten, length_fourBlocks] at hlen ⊢
      have := hfull n₁ n₂ n₃ n₄ (by omega) hlast
      omega
    rw [rowsEndInSelect_iff g hrows hcols hfill hlen' hbucket] at hends
    exact roomForSelect_of_fillCmdArray hx₁ hx₂ hx₃ hx₄ (by omega) hmax hfill hlen' hends
  · intro hroom
    obtain ⟨n₁, n₂, n₃, n₄, hfill, hbefore, hall⟩ := hroom.exists_fillCmdArray htrunc hmax
    obtain ⟨n₁', n₂', n₃', n₄', heq, -, -, -, -, hlast⟩ := fillCmdArray_ret (by omega) hfill
    have hsame : n₁ + n₂ + n₃ + n₄ = n₁' + n₂' + n₃' + n₄' := by
      rw [← length_fourBlocks, heq, length_fourBlocks]
    have hlen : (fourBlocks n₁ n₂ n₃ n₄).length = cols.toInt.toNat := by
      rw [length_fourBlocks]
      have := hfull n₁' n₂' n₃' n₄' (by omega) hlast
      omega
    rw [rowsEndInSelect_iff g hrows hcols hfill hlen hbucket, getLast?_blocks_iff]
    rw [length_fourBlocks] at hlen
    omega

theorem rows_end_in_select_twenty :
    RowsEndInSelect .zeros 1 20 [ofRat (3 / 10), ofRat (1 / 10), ofRat (1 / 2), ofRat (1 / 10)] []
      cmdBucketInit :=
  (rows_end_in_select_iff (3 / 10) (1 / 10) (1 / 2) (1 / 10) (by decide +kernel) (by norm_num)
    1 20 (by decide) (by decide) .zeros [] cmdBucketInit bucketInv_init).2
    ⟨by decide +kernel, ⟨by decide +kernel, by decide +kernel⟩,
      ⟨by decide +kernel, by decide +kernel⟩, ⟨by decide +kernel, by decide +kernel⟩,
      ⟨by decide +kernel, by decide +kernel⟩⟩

/-- A select rate of five percent is lost in a row of ten commands. -/
theorem row_without_select :
    ¬RowsEndInSelect .zeros 1 10 [ofRat (1 / 2), ofRat (1 / 5), ofRat (1 / 4), ofRat (1 / 20)] []
      cmdBucketInit := by
  have hfill : fillCmdArray (10 : Int).toNat
      (cmdPattern.zip [ofRat (1 / 2), ofRat (1 / 5), ofRat (1 / 4), ofRat (1 / 20)]) 0 []
      = .ret [1, 1, 1, 1, 1, 2, 2, 3, 3, 3] := by decide +kernel
  rw [rowsEndInSelect_iff .zeros (by decide) (by decide) hfill rfl bucketInv_init]
  decide

/-- Rates whose doubles add up to one exactly: the sum of the first two is rounded up, and a cell
is written behind the array. -/
example : fillCmdArray 10 (cmdPattern.zip [0.1, 0.2, 0.6, 0.1]) (0 : Double) []
    = .ret [1, 2, 2, 2, 3, 3, 3, 3, 3, 3, 4] := by decide +kernel

end CheckQ
