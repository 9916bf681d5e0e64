import CheckQ.Lib.Apportion
import CheckQ.Parser.Txt
import Mathlib.Algebra.BigOperators.Ring.List
import Mathlib.Data.Rat.Floor
import Mathlib.Tactic.FieldSimp
import Mathlib.Tactic.Positivity

/-!
# The fill loop of `parser_gen_cmd_bucket`

For each command the loop writes as many cells as the floor of `rate * cols` says, and goes on
until the cells written so far are not less than the sum of the rates so far says.  The two
rounding rules together share out `cols` cells: behind each command the number of cells is the
sum of the rates so far, times `cols`, rounded up.
-/

namespace CheckQ

open Apportion

/-! ### Numbers -/

lemma truncInt_eq {α : Type} [HasTrunc α] {x : α} {n : ℕ} (hx : HasTrunc.trunc x = some (n : ℤ))
    (h : n < 2 ^ 31) : truncInt x = .ret (n : Int) := by
  rw [truncInt, hx]
  exact if_pos ⟨by omega, by omega⟩

lemma cast_toNat {v : Int} (h : 0 ≤ v) : ((v.toNat : ℕ) : ℚ) = (v : ℚ) := by
  exact_mod_cast congrArg (Int.cast (R := ℚ)) (Int.toNat_of_nonneg h)

/-! ### One command -/

section

variable {α : Type} [Div α] [NatCast α] [LT α] [DecidableLT α] {cols : ℕ} {curRate : α}
  {cmd : UInt32} {rounds : ℕ} {written : List UInt32}

/-- What the loop `while ((double) cur_cmd_num / (double) cols < cur_rate)` has written when it
ends: as many commands as it takes for the quotient to reach the rate, in any arithmetic. -/
lemma fillWhile_ret (hcols : 0 < cols) {written' : List UInt32}
    (h : fillWhile cols curRate cmd rounds written = .ret written') :
    ∃ k, written' = written ++ List.replicate k cmd ∧
      ¬((written.length + k : ℕ) : α) / (cols : α) < curRate := by
  induction rounds generalizing written with
  | zero => cases h
  | succ rounds ih =>
      rw [fillWhile] at h
      split_ifs at h with hlt
      · obtain ⟨k, rfl, hk⟩ := ih h
        refine ⟨k + 1, ?_, ?_⟩
        · rw [List.replicate_succ, List.append_assoc, List.singleton_append]
        · simpa [Nat.add_assoc, Nat.add_comm 1 k] using hk
      · refine ⟨0, by simpa using h.symm, ?_⟩
        rw [Nat.add_zero]
        exact fun hbelow => hlt ⟨hcols.ne', hbelow⟩

/-- The loop ends at the latest where the quotient is known to have reached the rate. -/
lemma exists_fillWhile (cmd : UInt32) (rounds : ℕ) (written : List UInt32) {n : ℕ}
    (hn : ¬(n : α) / (cols : α) < curRate) (hle : written.length ≤ n)
    (hrounds : n < written.length + rounds) :
    ∃ k, fillWhile cols curRate cmd rounds written = .ret (written ++ List.replicate k cmd) ∧
      written.length + k ≤ n := by
  induction rounds generalizing written with
  | zero => exact absurd hrounds (by omega)
  | succ rounds ih =>
      rw [fillWhile]
      split_ifs with hlt
      · have hne : written.length ≠ n := fun heq => hn (heq ▸ hlt.2)
        obtain ⟨k, hk, hlen⟩ := ih (written ++ [cmd])
          (by rw [List.length_append, List.length_singleton]; omega)
          (by rw [List.length_append, List.length_singleton]; omega)
        refine ⟨k + 1, ?_, by rw [List.length_append, List.length_singleton] at hlen; omega⟩
        rw [hk, List.replicate_succ, List.append_assoc, List.singleton_append]
      · exact ⟨0, by simp, by simpa using hle⟩

end

/-- With exact numbers the loop ends when the rate times `cols`, rounded up, is reached. -/
lemma fillWhile_eq {cols : ℕ} (hcols : 0 < cols) {curRate : ℚ} (cmd : UInt32) {rounds : ℕ}
    {written : List UInt32} (hrounds : ⌈curRate * cols⌉₊ < written.length + rounds)
    (hle : written.length ≤ ⌈curRate * cols⌉₊) :
    fillWhile cols curRate cmd rounds written
      = .ret (written ++ List.replicate (⌈curRate * cols⌉₊ - written.length) cmd) := by
  have hpos : (0 : ℚ) < cols := by exact_mod_cast hcols
  have hreached : ∀ n : ℕ, ¬(n : ℚ) / cols < curRate ↔ ⌈curRate * cols⌉₊ ≤ n := by
    intro n
    rw [div_lt_iff₀ hpos, ← Nat.lt_ceil, not_lt]
  obtain ⟨k, hrun, hk⟩ := exists_fillWhile cmd rounds written ((hreached _).2 le_rfl) hle hrounds
  obtain ⟨k', heq, hk'⟩ := fillWhile_ret hcols hrun
  have hsame : k = k' := by simpa using congrArg List.length heq
  have := (hreached _).1 hk'
  rw [hrun]
  congr 3
  omega

/-- The cells that are written for commands, each as often as `counts` says. -/
def blocks (cmds : List UInt32) (counts : List ℕ) : List UInt32 :=
  (cmds.zip counts).flatMap fun p => List.replicate p.2 p.1

/-- **The fill loop shares out the cells**: behind amounts that come to `cur_rate * cols`, every
command gets its share, as long as the number of cells is an `int`. -/
lemma fillCmdArray_eq {cols : ℕ} (hcols : 0 < cols) (rates : List (UInt32 × ℚ))
    (hrates : ∀ p ∈ rates, 0 ≤ p.2) {curRate : ℚ} (hcur : 0 ≤ curRate)
    (htotal : (curRate + (rates.map Prod.snd).sum) * cols ≤ 2 ^ 31 - 1)
    (written : List UInt32) (hlen : written.length = ⌈curRate * cols⌉₊) :
    fillCmdArray cols rates curRate written
      = .ret (written ++ blocks (rates.map Prod.fst)
          (shares (curRate * cols) (rates.map fun p => p.2 * cols))) := by
  induction rates generalizing curRate written with
  | nil => simp [fillCmdArray, blocks]
  | cons p rates ih =>
      obtain ⟨cmd, rate⟩ := p
      have hrate : 0 ≤ rate := hrates (cmd, rate) (by simp)
      have hrest : 0 ≤ (rates.map Prod.snd).sum := List.sum_nonneg fun x hx => by
        obtain ⟨q, hq, rfl⟩ := List.mem_map.1 hx
        exact hrates q (by simp [hq])
      have hpos : (0 : ℚ) ≤ cols := Nat.cast_nonneg cols
      have hamount : 0 ≤ rate * cols := mul_nonneg hrate hpos
      have hsum : (curRate + rate) * cols = curRate * cols + rate * cols := add_mul _ _ _
      rw [List.map_cons, List.sum_cons, ← add_assoc] at htotal
      -- the numbers of cells are those of `int`
      have hint : (curRate + rate) * cols ≤ 2 ^ 31 - 1 :=
        (mul_le_mul_of_nonneg_right (le_add_of_nonneg_right hrest) hpos).trans htotal
      have hceil : ⌈(curRate + rate) * cols⌉₊ ≤ 2 ^ 31 - 1 := Nat.ceil_le.2 (by exact_mod_cast hint)
      have hfloor := ceil_add_floor_le (mul_nonneg hcur hpos) hamount
      rw [← hsum] at hfloor
      have hlen₁ : (written ++ List.replicate ⌊rate * cols⌋₊ cmd).length
          = ⌈curRate * cols⌉₊ + ⌊rate * cols⌋₊ := by simp [hlen]
      rw [fillCmdArray, truncInt_eq (trunc_eq_floor hamount) (by omega), Outcome.ret_bind]
      simp only [Int.toNat_natCast]
      rw [fillWhile_eq hcols cmd (by omega) (by rw [hlen₁]; exact hfloor), Outcome.ret_bind]
      -- the floor and the rest together are the share
      have hshare : List.replicate ⌊rate * cols⌋₊ cmd
            ++ List.replicate (⌈(curRate + rate) * cols⌉₊
              - (written ++ List.replicate ⌊rate * cols⌋₊ cmd).length) cmd
          = List.replicate (share (curRate * cols) (rate * cols)) cmd := by
        rw [← List.replicate_add, hlen₁, share, ← hsum]
        congr 1
        omega
      rw [List.append_assoc, hshare, ih (fun q hq => hrates q (by simp [hq]))
        (add_nonneg hcur hrate) htotal _ ?_]
      · simp only [hsum, List.map_cons, shares, blocks, List.zip_cons_cons, List.flatMap_cons,
          List.append_assoc]
      · rw [List.length_append, List.length_replicate, hlen, ceil_add_share hamount, hsum]

/-- When the loop ends, the number of cells has reached the sum of the rates. -/
lemma le_length_of_fillCmdArray {cols : ℕ} (hcols : 0 < cols) {rates : List (UInt32 × ℚ)}
    {curRate : ℚ} {written written' : List UInt32} (hlen : curRate * cols ≤ written.length)
    (h : fillCmdArray cols rates curRate written = .ret written') :
    (curRate + (rates.map Prod.snd).sum) * cols ≤ written'.length := by
  induction rates generalizing curRate written with
  | nil =>
      obtain rfl := Outcome.ret.inj h
      simpa using hlen
  | cons p rates ih =>
      obtain ⟨cmd, rate⟩ := p
      obtain ⟨tmp, -, h⟩ := Outcome.bind_eq_ret.1 h
      obtain ⟨written₁, hwhile, h⟩ := Outcome.bind_eq_ret.1 h
      obtain ⟨k, rfl, hk⟩ := fillWhile_ret hcols hwhile
      rw [List.map_cons, List.sum_cons, ← add_assoc]
      refine ih ?_ h
      rw [div_lt_iff₀ (by exact_mod_cast hcols), not_lt] at hk
      simpa [add_assoc] using hk

/-! ### The four commands -/

lemma share_eq_ceil_sub {s x : ℚ} (hs : 0 ≤ s) (hx : 0 ≤ x) :
    (share s x : ℤ) = ⌈s + x⌉ - ⌈s⌉ := by
  have hsum : ((⌈s⌉₊ + share s x : ℕ) : ℤ) = ⌈s + x⌉₊ := congrArg Nat.cast (ceil_add_share hx)
  rw [Nat.cast_add, Int.natCast_ceil_eq_ceil hs, Int.natCast_ceil_eq_ceil (add_nonneg hs hx)]
    at hsum
  omega

/-- The rates can be used for an array of `cols` cells. -/
structure RatesFit (rate : List ℚ) (cols : ℕ) : Prop where
  nonneg : ∀ r ∈ rate, 0 ≤ r
  total : rate.sum * cols ≤ 2 ^ 31 - 1

lemma RatesFit.amounts_nonneg {rate : List ℚ} {cols : ℕ} (h : RatesFit rate cols) :
    ∀ x ∈ rate.map (· * (cols : ℚ)), 0 ≤ x := by
  intro x hx
  obtain ⟨r, hr, rfl⟩ := List.mem_map.1 hx
  exact mul_nonneg (h.nonneg r hr) (Nat.cast_nonneg cols)

/-- What the loop writes for the four rates. -/
lemma fillCmdArray_four {rate : List ℚ} {cols : ℕ} (hcols : 0 < cols) (hfour : rate.length = 4)
    (hrates : RatesFit rate cols) :
    fillCmdArray cols (cmdPattern.zip rate) 0 []
      = .ret (blocks cmdPattern (shares 0 (rate.map (· * (cols : ℚ))))) := by
  have hfst : (cmdPattern.zip rate).map Prod.fst = cmdPattern :=
    List.map_fst_zip (by simp [hfour, cmdPattern])
  have hsnd : (cmdPattern.zip rate).map Prod.snd = rate :=
    List.map_snd_zip (by simp [hfour, cmdPattern])
  have h := fillCmdArray_eq hcols (cmdPattern.zip rate)
    (fun p hp => hrates.nonneg p.2 (List.of_mem_zip hp).2) le_rfl
    (by rw [hsnd, zero_add]; exact hrates.total) [] (by simp)
  have hamounts : (cmdPattern.zip rate).map (fun p => p.2 * (cols : ℚ))
      = rate.map (· * (cols : ℚ)) := by
    conv_rhs => rw [← hsnd, List.map_map]
    rfl
  rw [h, zero_mul, hfst, List.nil_append, hamounts]

lemma length_blocks {cmds : List UInt32} {counts : List ℕ} (h : counts.length = cmds.length) :
    (blocks cmds counts).length = counts.sum := by
  have hsnd : (cmds.zip counts).map Prod.snd = counts := List.map_snd_zip (by omega)
  rw [blocks, List.length_flatMap]
  simp only [List.length_replicate]
  exact congrArg List.sum hsnd

/-- The share of each command, one after the other. -/
lemma fillCmdArray_shares {r₁ r₂ r₃ r₄ : ℚ} {cols : ℕ} (hcols : 0 < cols)
    (hrates : RatesFit [r₁, r₂, r₃, r₄] cols) :
    fillCmdArray cols (cmdPattern.zip [r₁, r₂, r₃, r₄]) 0 []
      = .ret (List.replicate (share 0 (r₁ * cols)) CmdType.insert.code ++
          List.replicate (share (r₁ * cols) (r₂ * cols)) CmdType.delete.code ++
          List.replicate (share (r₁ * cols + r₂ * cols) (r₃ * cols)) CmdType.update.code ++
          List.replicate (share (r₁ * cols + r₂ * cols + r₃ * cols) (r₄ * cols))
            CmdType.select.code) := by
  rw [fillCmdArray_four hcols rfl hrates]
  simp only [blocks, cmdPattern, List.map_cons, List.map_nil, shares, zero_add,
    List.zip_cons_cons, List.zip_nil_left, List.flatMap_cons, List.flatMap_nil, List.append_nil,
    List.append_assoc]

/-- **The commands follow the rates**: the loop ends, and the commands of each kind are the sum
of the rates so far, times `cols` and rounded up, less those before it. -/
theorem commands_follow_rates (r₁ r₂ r₃ r₄ : ℚ) (h₁ : 0 ≤ r₁) (h₂ : 0 ≤ r₂) (h₃ : 0 ≤ r₃)
    (h₄ : 0 ≤ r₄) (cols : ℕ) (hcols : 1 ≤ cols)
    (hint : (r₁ + r₂ + r₃ + r₄) * cols ≤ 2 ^ 31 - 1) :
    ∃ n₁ n₂ n₃ n₄ : ℕ,
      fillCmdArray cols (cmdPattern.zip [r₁, r₂, r₃, r₄]) 0 []
        = .ret (List.replicate n₁ CmdType.insert.code ++ List.replicate n₂ CmdType.delete.code ++
            List.replicate n₃ CmdType.update.code ++ List.replicate n₄ CmdType.select.code) ∧
      (n₁ : ℤ) = ⌈r₁ * cols⌉ ∧
      (n₂ : ℤ) = ⌈(r₁ + r₂) * cols⌉ - ⌈r₁ * cols⌉ ∧
      (n₃ : ℤ) = ⌈(r₁ + r₂ + r₃) * cols⌉ - ⌈(r₁ + r₂) * cols⌉ ∧
      (n₄ : ℤ) = ⌈(r₁ + r₂ + r₃ + r₄) * cols⌉ - ⌈(r₁ + r₂ + r₃) * cols⌉ ∧
      ((n₁ + n₂ + n₃ + n₄ : ℕ) : ℤ) = ⌈(r₁ + r₂ + r₃ + r₄) * cols⌉ ∧
      |(n₁ : ℚ) - r₁ * cols| < 1 ∧ |(n₂ : ℚ) - r₂ * cols| < 1 ∧
      |(n₃ : ℚ) - r₃ * cols| < 1 ∧ |(n₄ : ℚ) - r₄ * cols| < 1 := by
  have hpos : (0 : ℚ) ≤ cols := Nat.cast_nonneg cols
  have a₁ := mul_nonneg h₁ hpos
  have a₂ := mul_nonneg h₂ hpos
  have a₃ := mul_nonneg h₃ hpos
  have a₄ := mul_nonneg h₄ hpos
  simp only [add_mul] at hint ⊢
  have hrates : RatesFit [r₁, r₂, r₃, r₄] cols := by
    constructor
    · simpa using ⟨h₁, h₂, h₃, h₄⟩
    · simp only [List.sum_cons, List.sum_nil, add_zero, add_mul]
      linarith
  have s₁ := share_eq_ceil_sub le_rfl a₁
  have s₂ := share_eq_ceil_sub a₁ a₂
  have s₃ := share_eq_ceil_sub (add_nonneg a₁ a₂) a₃
  have s₄ := share_eq_ceil_sub (add_nonneg (add_nonneg a₁ a₂) a₃) a₄
  rw [zero_add, Int.ceil_zero, sub_zero] at s₁
  refine ⟨share 0 (r₁ * cols), share (r₁ * cols) (r₂ * cols),
    share (r₁ * cols + r₂ * cols) (r₃ * cols),
    share (r₁ * cols + r₂ * cols + r₃ * cols) (r₄ * cols), fillCmdArray_shares hcols hrates,
    s₁, s₂, s₃, s₄, ?_, abs_share_sub_lt le_rfl a₁, abs_share_sub_lt a₁ a₂,
    abs_share_sub_lt (add_nonneg a₁ a₂) a₃,
    abs_share_sub_lt (add_nonneg (add_nonneg a₁ a₂) a₃) a₄⟩
  push_cast
  omega

theorem commands_follow_rates_twenty :
    ∃ n₁ n₂ n₃ n₄ : ℕ,
      fillCmdArray 20 (cmdPattern.zip [3 / 10, 1 / 8, 1 / 2, 3 / 40]) (0 : ℚ) []
        = .ret (List.replicate n₁ CmdType.insert.code ++ List.replicate n₂ CmdType.delete.code ++
            List.replicate n₃ CmdType.update.code ++ List.replicate n₄ CmdType.select.code) ∧
      ((n₁ + n₂ + n₃ + n₄ : ℕ) : ℤ) = ⌈(3 / 10 + 1 / 8 + 1 / 2 + 3 / 40 : ℚ) * (20 : ℕ)⌉ := by
  obtain ⟨n₁, n₂, n₃, n₄, hfill, -, -, -, -, hsum, -⟩ :=
    commands_follow_rates (3 / 10) (1 / 8) (1 / 2) (3 / 40) (by norm_num) (by norm_num)
      (by norm_num) (by norm_num) 20 (by norm_num) (by norm_num)
  exact ⟨n₁, n₂, n₃, n₄, hfill, hsum⟩

/-- A product that is no `int`. -/
theorem huge_rate_undefined :
    fillCmdArray 1 (cmdPattern.zip [2 ^ 31, 0, 0, 0]) (0 : ℚ) [] = .fault := by
  have hconv : truncInt ((2 : ℚ) ^ 31 * (1 : ℕ)) = .fault := by decide +kernel
  simp only [cmdPattern, List.map_cons, List.zip_cons_cons, fillCmdArray, hconv,
    Outcome.fault_bind]

/-! ### Rates that have been checked -/

/-- The number of cells that are written. -/
lemma exists_fillCmdArray {rate : List ℚ} {cols : ℕ} (hcols : 0 < cols) (hfour : rate.length = 4)
    (hrates : RatesFit rate cols) :
    ∃ written, fillCmdArray cols (cmdPattern.zip rate) 0 [] = .ret written ∧
      written.length = ⌈rate.sum * cols⌉₊ := by
  refine ⟨_, fillCmdArray_four hcols hfour hrates, ?_⟩
  have hsum := ceil_add_sum_shares (s := 0) hrates.amounts_nonneg
  rw [Nat.ceil_zero, zero_add, zero_add, List.sum_map_mul_right, List.map_id'] at hsum
  rw [length_blocks, hsum]
  rw [length_shares, List.length_map, hfour]
  rfl

lemma verifyRate_succeed {rate : List ℚ} (h : verifyRate rate = .succeed) :
    ∀ r ∈ rate, 0 ≤ r ∧ r < 1 := by
  intro r hr
  by_contra hbad
  have hany : (rate.any fun r => decide (r < 0) || decide (r ≥ 1)) = true := by
    rw [List.any_eq_true]
    refine ⟨r, hr, ?_⟩
    rw [Bool.or_eq_true, decide_eq_true_iff, decide_eq_true_iff]
    by_contra hnot
    push Not at hnot
    exact hbad hnot
  simp [verifyRate, hany] at h

/-- The loop writes the `cols` cells of the array, and no other. -/
def FillsExactly (rate : List ℚ) (cols : ℕ) : Prop :=
  ∃ written, fillCmdArray cols (cmdPattern.zip rate) 0 [] = .ret written ∧ written.length = cols

/-- **Accepted rates fill the row exactly** when their sum is at most one and falls short of it
by less than one cell. -/
theorem fills_exactly_iff (r₁ r₂ r₃ r₄ : ℚ) (cols : Int32)
    (hrate : verifyRate [r₁, r₂, r₃, r₄] = .succeed) (hcols : 1 ≤ cols.toInt) :
    FillsExactly [r₁, r₂, r₃, r₄] cols.toInt.toNat ↔
      (cols.toInt : ℚ) - 1 < (r₁ + r₂ + r₃ + r₄) * cols.toInt ∧
        (r₁ + r₂ + r₃ + r₄) * cols.toInt ≤ cols.toInt := by
  have hnonneg := fun r hr => (verifyRate_succeed hrate r hr).1
  have hcast := cast_toNat (v := cols.toInt) (by omega)
  have hmax : (cols.toInt : ℚ) ≤ 2 ^ 31 - 1 := by
    have hlt := cols.toInt_lt
    have hle : cols.toInt ≤ 2 ^ 31 - 1 := by omega
    exact_mod_cast hle
  have hsum : [r₁, r₂, r₃, r₄].sum = r₁ + r₂ + r₃ + r₄ := by
    simp only [List.sum_cons, List.sum_nil]
    ring
  by_cases hfits : (r₁ + r₂ + r₃ + r₄) * cols.toInt ≤ cols.toInt
  · -- the loop ends, and the number of cells is the sum rounded up
    obtain ⟨written, hfill, hlen⟩ := @exists_fillCmdArray [r₁, r₂, r₃, r₄] cols.toInt.toNat
      (by omega) rfl
      ⟨hnonneg, by rw [hsum, hcast]; exact hfits.trans hmax⟩
    have hexact : FillsExactly [r₁, r₂, r₃, r₄] cols.toInt.toNat ↔
        written.length = cols.toInt.toNat := by
      constructor
      · rintro ⟨written', hfill', hlen'⟩
        rw [← hlen', Outcome.ret.inj (hfill.symm.trans hfill')]
      · exact fun h => ⟨written, hfill, h⟩
    rw [hexact, hlen, hsum, Nat.ceil_eq_iff (by omega), hcast]
    rw [Nat.cast_sub (by omega), Nat.cast_one, hcast]
  · -- more cells are written than there are, or the number of them overflows
    refine iff_of_false ?_ (fun h => hfits h.2)
    rintro ⟨written, hfill, hlen⟩
    have hle := le_length_of_fillCmdArray (by omega) (by simp) hfill
    rw [List.map_snd_zip (by simp [cmdPattern]), zero_add, hsum, hlen, hcast] at hle
    exact hfits hle

theorem fills_exactly_hundred :
    FillsExactly [3 / 10, 1 / 10, 1 / 2, 1 / 10] 100 :=
  (fills_exactly_iff (3 / 10) (1 / 10) (1 / 2) (1 / 10) 100 (by decide +kernel)
    (by decide)).2 (by norm_num [show (100 : Int32).toInt = 100 from rfl])

/-- A sum of `1.01` is accepted, and one cell is written behind the array; rates of zero are
accepted, and no cell is written. -/
theorem accepted_rates_misfill :
    (verifyRate [(3 / 10 : ℚ), 1 / 10, 1 / 2, 11 / 100] = .succeed ∧ verifyWindow 1 100 = .succeed ∧
      ¬FillsExactly [3 / 10, 1 / 10, 1 / 2, 11 / 100] 100) ∧
    (verifyRate [(0 : ℚ), 0, 0, 0] = .succeed ∧ verifyWindow 1 1 = .succeed ∧
      ¬FillsExactly [0, 0, 0, 0] 1) := by
  have hlong : (fillCmdArray 100 (cmdPattern.zip [3 / 10, 1 / 10, 1 / 2, 11 / 100]) (0 : ℚ) [] >>=
      fun written => pure written.length) = .ret 101 := by decide +kernel
  have hshort : fillCmdArray 1 (cmdPattern.zip [0, 0, 0, 0]) (0 : ℚ) [] = .ret [] := by decide +kernel
  refine ⟨⟨by decide +kernel, rfl, ?_⟩, ⟨by decide +kernel, rfl, ?_⟩⟩
  · rintro ⟨written, hfill, hlen⟩
    rw [hfill, Outcome.ret_bind, hlen] at hlong
    exact absurd (Outcome.ret.inj hlong) (by decide)
  · rintro ⟨written, hfill, hlen⟩
    rw [← Outcome.ret.inj (hshort.symm.trans hfill)] at hlen
    exact absurd hlen (by decide)

end CheckQ
