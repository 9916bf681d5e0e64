import Mathlib.Algebra.Order.Field.Power
import Mathlib.Data.Int.Log
import Mathlib.Data.Rat.Floor
import Mathlib.Tactic.FieldSimp
import Mathlib.Tactic.Linarith
import Mathlib.Tactic.Positivity
import Mathlib.Tactic.Ring

/-!
# Rounding to a number of binary digits

A number is rounded to the nearest multiple of a power of two, and to the even one when two are
as near.  The power is the one that leaves `p` digits, but never less than `2 ^ e₀`: numbers near
zero lose digits.  There is no greatest number here.

Rounding keeps the numbers that have `p` digits, it keeps the order, and it moves a number by at
most half of its last place.
-/

namespace CheckQ

namespace Rounding

/-- The nearest integer; of two that are as near, the even one. -/
def roundInt (x : ℚ) : ℤ :=
  if x - ⌊x⌋ < 1 / 2 then ⌊x⌋
  else if 1 / 2 < x - ⌊x⌋ then ⌊x⌋ + 1
  else if ⌊x⌋ % 2 = 0 then ⌊x⌋
  else ⌊x⌋ + 1

lemma roundInt_intCast (n : ℤ) : roundInt n = n := by
  rw [roundInt, Int.floor_intCast, sub_self, if_pos (by norm_num)]

/-- It is one of the two integers around the number. -/
lemma roundInt_eq_or (x : ℚ) : roundInt x = ⌊x⌋ ∨ roundInt x = ⌊x⌋ + 1 := by
  rw [roundInt]
  split_ifs
  · exact Or.inl rfl
  · exact Or.inr rfl
  · exact Or.inl rfl
  · exact Or.inr rfl

lemma abs_roundInt_sub_le (x : ℚ) : |(roundInt x : ℚ) - x| ≤ 1 / 2 := by
  have hlow := Int.floor_le x
  have hhigh := Int.lt_floor_add_one x
  rw [roundInt, abs_le]
  split_ifs <;> push_cast <;> constructor <;> linarith

lemma roundInt_mono {x y : ℚ} (h : x ≤ y) : roundInt x ≤ roundInt y := by
  rcases (Int.floor_mono h).lt_or_eq with hlt | heq
  · -- an integer lies between the two
    rcases roundInt_eq_or x with hx | hx <;> rcases roundInt_eq_or y with hy | hy <;> omega
  · rw [roundInt, roundInt, heq]
    split_ifs <;> first | omega | linarith

variable (p : ℕ) (e₀ : ℤ)

/-- The exponent of the last place of a number. -/
def lastPlace (x : ℚ) : ℤ := max (Int.log 2 |x| + 1 - p) e₀

/-- The number that `x` is rounded to. -/
def round (x : ℚ) : ℚ := roundInt (x / 2 ^ lastPlace p e₀ x) * 2 ^ lastPlace p e₀ x

variable {p e₀} {x y : ℚ}

lemma zpow_pos (e : ℤ) : (0 : ℚ) < 2 ^ e := by positivity

lemma abs_lt_zpow (x : ℚ) : |x| < 2 ^ (Int.log 2 |x| + 1) := by
  exact_mod_cast Int.lt_zpow_succ_log_self (b := 2) (by decide) |x|

/-- The quotient by a smaller power of two is an integer. -/
lemma exists_int_div_zpow (m : ℤ) {e e' : ℤ} (h : e ≤ e') :
    ∃ n : ℤ, (m * 2 ^ e' : ℚ) / 2 ^ e = n := by
  refine ⟨m * 2 ^ (e' - e).toNat, ?_⟩
  rw [mul_div_assoc, ← zpow_sub₀ (by norm_num)]
  push_cast
  rw [← zpow_natCast, Int.toNat_of_nonneg (by omega)]

/-- A multiple of a power of two that is not below the last place is kept. -/
lemma round_mul_zpow (m : ℤ) {e : ℤ} (h : lastPlace p e₀ (m * 2 ^ e) ≤ e) :
    round p e₀ (m * 2 ^ e) = m * 2 ^ e := by
  obtain ⟨n, hn⟩ := exists_int_div_zpow m h
  rw [round, hn, roundInt_intCast, ← hn, div_mul_cancel₀ _ (zpow_pos _).ne']

/-- The last place of a number below `2 ^ k`. -/
lemma lastPlace_le {k : ℤ} (hx : x ≠ 0) (h : |x| < 2 ^ k) (hk : e₀ ≤ k - p) :
    lastPlace p e₀ x ≤ k - p := by
  have hlog : Int.log 2 |x| < k :=
    (Int.lt_zpow_iff_log_lt (b := 2) (by decide) (abs_pos.2 hx)).1 (by exact_mod_cast h)
  rw [lastPlace, max_le_iff]
  exact ⟨by omega, hk⟩

@[simp] lemma round_zero : round p e₀ 0 = 0 := by
  rw [round, zero_div, ← Int.cast_zero, roundInt_intCast, Int.cast_zero, zero_mul]

/-- Numbers of at most `p` digits are kept. -/
lemma round_eq_self {m e : ℤ} (hm : |m| < 2 ^ p) (he : e₀ ≤ e) :
    round p e₀ (m * 2 ^ e) = m * 2 ^ e := by
  rcases eq_or_ne m 0 with rfl | hne
  · simp
  have hmQ : |(m : ℚ)| < 2 ^ (p : ℤ) := by
    rw [zpow_natCast]
    exact_mod_cast hm
  have habs : |(m * 2 ^ e : ℚ)| < 2 ^ (p + e) := by
    rw [abs_mul, abs_of_pos (zpow_pos e), zpow_add₀ (by norm_num)]
    exact mul_lt_mul_of_pos_right hmQ (zpow_pos e)
  have hx : (m * 2 ^ e : ℚ) ≠ 0 := mul_ne_zero (by exact_mod_cast hne) (zpow_pos e).ne'
  have hlast := @lastPlace_le p e₀ _ _ hx habs (by omega)
  exact round_mul_zpow m (by omega)

/-- Powers of two are kept, also when the digits in front of them are all used. -/
lemma round_two_zpow (hp : 0 < p) {m e : ℤ} (hm : |m| ≤ 1) (he : e₀ ≤ e) :
    round p e₀ (m * 2 ^ e) = m * 2 ^ e :=
  round_eq_self (lt_of_le_of_lt hm (one_lt_pow₀ (by norm_num) hp.ne')) he

lemma lastPlace_ge (x : ℚ) : e₀ ≤ lastPlace p e₀ x := le_max_right _ _

/-- In its last place a number has at most `p` digits. -/
lemma abs_div_lastPlace_lt (x : ℚ) : |x / 2 ^ lastPlace p e₀ x| < 2 ^ (p : ℤ) := by
  have hlast : Int.log 2 |x| + 1 ≤ p + lastPlace p e₀ x := by
    have := le_max_left (Int.log 2 |x| + 1 - p) e₀
    rw [lastPlace]
    omega
  rw [abs_div, abs_of_pos (zpow_pos _), div_lt_iff₀ (zpow_pos _), ← zpow_add₀ (by norm_num)]
  exact (abs_lt_zpow x).trans_le (zpow_le_zpow_right₀ (by norm_num) hlast)

lemma abs_roundInt_le {n : ℤ} (h : |x| ≤ n) : |roundInt x| ≤ n := by
  obtain ⟨hlow, hhigh⟩ := abs_le.1 h
  have h₁ := roundInt_mono hhigh
  have h₂ := roundInt_mono (x := ((-n : ℤ) : ℚ)) (by push_cast; exact hlow)
  rw [roundInt_intCast] at h₁ h₂
  exact abs_le.2 ⟨h₂, h₁⟩

/-- **Rounding is done once.** -/
lemma round_round (hp : 0 < p) (x : ℚ) : round p e₀ (round p e₀ x) = round p e₀ x := by
  have hquot : |x / 2 ^ lastPlace p e₀ x| ≤ ((2 ^ p : ℤ) : ℚ) := by
    have := (@abs_div_lastPlace_lt p e₀ x).le
    rw [zpow_natCast] at this
    exact_mod_cast this
  have hint := abs_roundInt_le hquot
  rw [round.eq_def p e₀ x]
  generalize roundInt (x / 2 ^ lastPlace p e₀ x) = m at hint
  rcases hint.lt_or_eq with hlt | heq
  · exact round_eq_self hlt (lastPlace_ge x)
  · -- one digit more, and all of them zero but the first
    obtain ⟨s, hs, rfl⟩ : ∃ s : ℤ, |s| ≤ 1 ∧ m = s * 2 ^ p := by
      rcases (abs_eq (by positivity)).1 heq with rfl | rfl
      · exact ⟨1, by norm_num, by ring⟩
      · exact ⟨-1, by norm_num, by ring⟩
    have hmul : ((s * 2 ^ p : ℤ) : ℚ) * 2 ^ lastPlace p e₀ x
        = s * 2 ^ ((p : ℤ) + lastPlace p e₀ x) := by
      rw [zpow_add₀ (by norm_num), zpow_natCast]
      push_cast
      ring
    have hge : e₀ ≤ lastPlace p e₀ x := lastPlace_ge x
    rw [hmul, round_two_zpow hp hs (by omega)]

/-- A number moves by at most half of its last place. -/
lemma abs_round_sub_le (x : ℚ) : |round p e₀ x - x| ≤ 2 ^ lastPlace p e₀ x / 2 := by
  have hpos := zpow_pos (lastPlace p e₀ x)
  have hsplit : round p e₀ x - x
      = (roundInt (x / 2 ^ lastPlace p e₀ x) - x / 2 ^ lastPlace p e₀ x)
        * 2 ^ lastPlace p e₀ x := by
    rw [round, sub_mul, div_mul_cancel₀ _ hpos.ne']
  rw [hsplit, abs_mul, abs_of_pos hpos]
  calc _ ≤ 1 / 2 * 2 ^ lastPlace p e₀ x :=
        mul_le_mul_of_nonneg_right (abs_roundInt_sub_le _) hpos.le
    _ = 2 ^ lastPlace p e₀ x / 2 := by ring

lemma round_nonneg (h : 0 ≤ x) : 0 ≤ round p e₀ x := by
  have hint := roundInt_mono (x := ((0 : ℤ) : ℚ)) (y := x / 2 ^ lastPlace p e₀ x)
    (by rw [Int.cast_zero]; exact div_nonneg h (zpow_pos _).le)
  rw [roundInt_intCast] at hint
  exact mul_nonneg (by exact_mod_cast hint) (zpow_pos _).le

/-- A number does not pass a multiple of its last place. -/
lemma round_le_mul_zpow {m e : ℤ} (he : lastPlace p e₀ x ≤ e) (h : x ≤ m * 2 ^ e) :
    round p e₀ x ≤ m * 2 ^ e := by
  obtain ⟨n, hn⟩ := exists_int_div_zpow m he
  have hpos := zpow_pos (lastPlace p e₀ x)
  have hint := roundInt_mono (y := (n : ℚ)) (hn ▸ div_le_div_of_nonneg_right h hpos.le)
  rw [roundInt_intCast] at hint
  calc round p e₀ x ≤ n * 2 ^ lastPlace p e₀ x :=
        mul_le_mul_of_nonneg_right (by exact_mod_cast hint) hpos.le
    _ = m * 2 ^ e := by rw [← hn, div_mul_cancel₀ _ hpos.ne']

lemma mul_zpow_le_round {m e : ℤ} (he : lastPlace p e₀ x ≤ e) (h : m * 2 ^ e ≤ x) :
    m * 2 ^ e ≤ round p e₀ x := by
  obtain ⟨n, hn⟩ := exists_int_div_zpow m he
  have hpos := zpow_pos (lastPlace p e₀ x)
  have hint := roundInt_mono (x := (n : ℚ)) (hn ▸ div_le_div_of_nonneg_right h hpos.le)
  rw [roundInt_intCast] at hint
  calc (m : ℚ) * 2 ^ e = n * 2 ^ lastPlace p e₀ x := by rw [← hn, div_mul_cancel₀ _ hpos.ne']
    _ ≤ round p e₀ x := mul_le_mul_of_nonneg_right (by exact_mod_cast hint) hpos.le

/-- **Rounding keeps the order** of numbers that are not negative. -/
lemma round_mono (hp : 0 < p) (hx : 0 ≤ x) (h : x ≤ y) : round p e₀ x ≤ round p e₀ y := by
  rcases hx.eq_or_lt with rfl | hx
  · rw [round_zero]
    exact round_nonneg h
  have hy : 0 < y := hx.trans_le h
  have hlog : Int.log 2 |x| ≤ Int.log 2 |y| := by
    rw [abs_of_pos hx, abs_of_pos hy]
    exact Int.log_mono_right hx h
  rcases (max_le_max_right e₀ (by omega :
      Int.log 2 |x| + 1 - p ≤ Int.log 2 |y| + 1 - p)).lt_or_eq with hlt | heq
  · -- the power of two with as many digits as `y` lies between the two
    have hlt' : lastPlace p e₀ x < lastPlace p e₀ y := hlt
    have hbig : lastPlace p e₀ y = Int.log 2 |y| + 1 - p := by
      rw [lastPlace]
      have : e₀ ≤ lastPlace p e₀ x := lastPlace_ge x
      rw [lastPlace] at hlt'
      omega
    have hstep : Int.log 2 |x| + 1 ≤ Int.log 2 |y| := by
      have := le_max_left (Int.log 2 |x| + 1 - p) e₀
      rw [lastPlace] at hlt'
      omega
    have hx' : x ≤ (1 : ℤ) * 2 ^ Int.log 2 |y| := by
      rw [Int.cast_one, one_mul]
      exact ((le_abs_self x).trans_lt (abs_lt_zpow x)).le.trans
        (zpow_le_zpow_right₀ (by norm_num) hstep)
    have hy' : (1 : ℤ) * 2 ^ Int.log 2 |y| ≤ y := by
      rw [Int.cast_one, one_mul, abs_of_pos hy]
      exact_mod_cast Int.zpow_log_le_self (b := 2) (by decide) hy
    exact (round_le_mul_zpow (by omega) hx').trans (mul_zpow_le_round (by omega) hy')
  · have heq' : lastPlace p e₀ x = lastPlace p e₀ y := heq
    rw [round, round, heq']
    have hpos := zpow_pos (lastPlace p e₀ y)
    exact mul_le_mul_of_nonneg_right
      (by exact_mod_cast roundInt_mono (div_le_div_of_nonneg_right h hpos.le)) hpos.le

end Rounding

end CheckQ
