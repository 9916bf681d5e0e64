import CheckQ.Lib.Rounding

/-!
# Double-precision numbers

A finite double is a rational number of at most 53 binary digits, the last of them not behind
`2 ^ -1074`, and below `2 ^ 1024`.  The operations give the result of the exact ones, rounded, or
an infinity when that is too great; a result that does not exist is `nan`, and every comparison
with it fails.

There is one zero in the place of two.  They differ only in the sign of a quotient by zero, and
the zero here is the positive one.
-/

namespace CheckQ

/-- The finite doubles. -/
structure FiniteDouble where
  val : ℚ
  rounded : Rounding.round 53 (-1074) val = val
  bounded : |val| < 2 ^ 1024
deriving DecidableEq, Repr

/-- The doubles. -/
inductive Double where
  | finite (x : FiniteDouble)
  | infinity (neg : Bool)
  | nan
deriving DecidableEq, Repr

namespace Double

/-- The double nearest to a number. -/
def ofRat (x : ℚ) : Double :=
  if h : |Rounding.round 53 (-1074) x| < 2 ^ 1024 then
    finite ⟨Rounding.round 53 (-1074) x, Rounding.round_round (by norm_num) x, h⟩
  else infinity (x < 0)

/-- Addition. -/
protected def add : Double → Double → Double
  | finite x, finite y => ofRat (x.val + y.val)
  | infinity s, infinity s' => if s = s' then infinity s else nan
  | infinity s, finite _ => infinity s
  | finite _, infinity s => infinity s
  | nan, _ => nan
  | _, nan => nan

/-- Multiplication. -/
protected def mul : Double → Double → Double
  | finite x, finite y => ofRat (x.val * y.val)
  | infinity s, infinity s' => infinity (s != s')
  | infinity s, finite x => if x.val = 0 then nan else infinity (s != (x.val < 0))
  | finite x, infinity s => if x.val = 0 then nan else infinity (s != (x.val < 0))
  | nan, _ => nan
  | _, nan => nan

/-- Division. -/
protected def div : Double → Double → Double
  | finite x, finite y =>
      if y.val ≠ 0 then ofRat (x.val / y.val)
      else if x.val = 0 then nan
      else infinity (x.val < 0)
  | infinity _, infinity _ => nan
  | infinity s, finite x => infinity (s != (x.val < 0))
  | finite _, infinity _ => ofRat 0
  | nan, _ => nan
  | _, nan => nan

/-- The order; nothing is below or above `nan`. -/
protected def lt : Double → Double → Bool
  | finite x, finite y => x.val < y.val
  | infinity s, infinity s' => s && !s'
  | infinity s, finite _ => s
  | finite _, infinity s => !s
  | nan, _ => false
  | _, nan => false

/-- Not greater. -/
protected def le : Double → Double → Bool
  | finite x, finite y => x.val ≤ y.val
  | infinity s, infinity s' => s || !s'
  | infinity s, finite _ => s
  | finite _, infinity s => !s
  | nan, _ => false
  | _, nan => false

instance : Zero Double := ⟨ofRat 0⟩
instance : One Double := ⟨ofRat 1⟩
instance : NatCast Double := ⟨fun n => ofRat n⟩
instance : OfScientific Double := ⟨fun m s e => ofRat (OfScientific.ofScientific m s e)⟩
instance : Add Double := ⟨Double.add⟩
instance : Mul Double := ⟨Double.mul⟩
instance : Div Double := ⟨Double.div⟩
instance : LT Double := ⟨fun x y => x.lt y = true⟩
instance : LE Double := ⟨fun x y => x.le y = true⟩
instance (x y : Double) : Decidable (x < y) := inferInstanceAs (Decidable (x.lt y = true))
instance (x y : Double) : Decidable (x ≤ y) := inferInstanceAs (Decidable (x.le y = true))

/-- The decimal fractions have no exact doubles, and their sums are not those of the fractions. -/
example : (0.1 : Double) + 0.2 ≠ 0.3 := by decide +kernel

/-! ### Values -/

/-- The double is finite and its value is `x`. -/
def HasVal (d : Double) (x : ℚ) : Prop := ∃ y, d = finite y ∧ y.val = x

/-- The value of the double nearest to a number. -/
def rnd (x : ℚ) : ℚ := Rounding.round 53 (-1074) x

lemma rnd_nonneg {x : ℚ} (h : 0 ≤ x) : 0 ≤ rnd x := Rounding.round_nonneg h

lemma rnd_mono {x y : ℚ} (hx : 0 ≤ x) (h : x ≤ y) : rnd x ≤ rnd y :=
  Rounding.round_mono (by norm_num) hx h

/-- Integers of at most 53 digits are doubles. -/
lemma rnd_natCast {n : ℕ} (h : n < 2 ^ 53) : rnd n = n := by
  have hkept := @Rounding.round_eq_self 53 (-1074) n 0
    (by rw [Nat.abs_cast]; exact_mod_cast h) (by norm_num)
  simpa [rnd] using hkept

/-- Below two, a number moves by at most `2 ^ -53`. -/
lemma abs_rnd_sub_le {x : ℚ} (h₀ : 0 ≤ x) (h : x < 2) : |rnd x - x| ≤ 1 / 2 ^ 53 := by
  rcases h₀.eq_or_lt with rfl | hpos
  · rw [rnd, Rounding.round_zero, sub_zero, abs_zero]
    positivity
  have hlast := @Rounding.lastPlace_le 53 (-1074) x 1 hpos.ne'
    (by rw [abs_of_pos hpos]; simpa using h) (by norm_num)
  calc |rnd x - x| ≤ 2 ^ Rounding.lastPlace 53 (-1074) x / 2 := Rounding.abs_round_sub_le x
    _ ≤ 2 ^ ((1 : ℤ) - (53 : ℕ)) / 2 :=
        div_le_div_of_nonneg_right (zpow_le_zpow_right₀ (by norm_num) hlast) (by norm_num)
    _ = 1 / 2 ^ 53 := by norm_num

/-- Numbers that are far from overflow are rounded to finite doubles. -/
lemma ofRat_hasVal {x : ℚ} (h₀ : 0 ≤ x) (h : x < 2 ^ 53) : (ofRat x).HasVal (rnd x) := by
  have hbound : |rnd x| < 2 ^ 1024 := by
    have hpow : rnd (2 ^ 53) = 2 ^ 53 := by
      have := @Rounding.round_two_zpow 53 (-1074) (by norm_num) 1 53 (by norm_num) (by norm_num)
      simpa [rnd] using this
    rw [abs_of_nonneg (rnd_nonneg h₀)]
    calc rnd x ≤ rnd (2 ^ 53) := rnd_mono h₀ h.le
      _ = 2 ^ 53 := hpow
      _ < 2 ^ 1024 := pow_lt_pow_right₀ (by norm_num) (by norm_num)
  rw [ofRat]
  exact ⟨_, dif_pos hbound, rfl⟩

namespace HasVal

variable {a b : Double} {x y : ℚ}

lemma add (ha : a.HasVal x) (hb : b.HasVal y) (h₀ : 0 ≤ x + y) (h : x + y < 2 ^ 53) :
    (a + b).HasVal (rnd (x + y)) := by
  obtain ⟨u, rfl, rfl⟩ := ha
  obtain ⟨v, rfl, rfl⟩ := hb
  exact ofRat_hasVal h₀ h

lemma mul (ha : a.HasVal x) (hb : b.HasVal y) (h₀ : 0 ≤ x * y) (h : x * y < 2 ^ 53) :
    (a * b).HasVal (rnd (x * y)) := by
  obtain ⟨u, rfl, rfl⟩ := ha
  obtain ⟨v, rfl, rfl⟩ := hb
  exact ofRat_hasVal h₀ h

lemma div (ha : a.HasVal x) (hb : b.HasVal y) (hne : y ≠ 0) (h₀ : 0 ≤ x / y)
    (h : x / y < 2 ^ 53) : (a / b).HasVal (rnd (x / y)) := by
  obtain ⟨u, rfl, rfl⟩ := ha
  obtain ⟨v, rfl, rfl⟩ := hb
  have hdiv : finite u / finite v = ofRat (u.val / v.val) := if_pos hne
  rw [hdiv]
  exact ofRat_hasVal h₀ h

lemma lt_iff (ha : a.HasVal x) (hb : b.HasVal y) : a < b ↔ x < y := by
  obtain ⟨u, rfl, rfl⟩ := ha
  obtain ⟨v, rfl, rfl⟩ := hb
  exact decide_eq_true_iff

lemma natCast {n : ℕ} (h : n < 2 ^ 53) : (n : Double).HasVal n := by
  have hval := ofRat_hasVal (x := n) (Nat.cast_nonneg n) (by exact_mod_cast h)
  rwa [rnd_natCast h] at hval

end HasVal

end Double

/-! ### Whole parts -/

/-- Numbers with a whole part, if they are finite. -/
class HasTrunc (α : Type) where
  /-- The number without its fraction. -/
  trunc : α → Option ℤ

instance : HasTrunc ℚ := ⟨fun x => some (x.num.tdiv x.den)⟩

instance : HasTrunc Double where
  trunc
    | .finite x => some (x.val.num.tdiv x.val.den)
    | .infinity _ => none
    | .nan => none

lemma Double.HasVal.trunc_eq {a : Double} {x : ℚ} (h : a.HasVal x) :
    HasTrunc.trunc a = HasTrunc.trunc x := by
  obtain ⟨u, rfl, rfl⟩ := h
  rfl

/-- The whole part of a number that is not negative. -/
lemma trunc_eq_floor {x : ℚ} (h : 0 ≤ x) : HasTrunc.trunc x = some (⌊x⌋₊ : ℤ) := by
  have hv : x.num.tdiv x.den = (⌊x⌋₊ : ℤ) := by
    rw [Int.tdiv_eq_ediv_of_nonneg (Rat.num_nonneg.2 h), ← Rat.floor_def',
      Int.natCast_floor_eq_floor h]
  exact congrArg some hv

end CheckQ
