import Mathlib.Algebra.Order.Floor.Semiring
import Mathlib.Algebra.BigOperators.Group.List.Basic
import Mathlib.Algebra.Order.BigOperators.Group.List
import Mathlib.Tactic.Linarith

/-!
# Sharing out in whole units

Amounts `x₁, x₂, …` are given out in whole units, one after the other: when the amounts so far
come to `s`, the units so far are `s` rounded up.  An amount then gets at least its floor, the
units differ from the amount by less than one, and together they are the sum of the amounts,
rounded up.
-/

namespace CheckQ

namespace Apportion

variable {R : Type*} [Field R] [LinearOrder R] [IsStrictOrderedRing R] [FloorSemiring R]

/-- The units of an amount behind amounts that come to `s`. -/
def share (s x : R) : ℕ := ⌈s + x⌉₊ - ⌈s⌉₊

/-- The units of each amount. -/
def shares (s : R) : List R → List ℕ
  | [] => []
  | x :: xs => share s x :: shares (s + x) xs

variable {s x : R} {xs : List R}

lemma ceil_add_share (hx : 0 ≤ x) : ⌈s⌉₊ + share s x = ⌈s + x⌉₊ :=
  Nat.add_sub_cancel' (Nat.ceil_mono (le_add_of_nonneg_right hx))

/-- The floor of an amount is not too much for it. -/
lemma ceil_add_floor_le (hs : 0 ≤ s) (hx : 0 ≤ x) : ⌈s⌉₊ + ⌊x⌋₊ ≤ ⌈s + x⌉₊ := by
  rw [← Nat.ceil_add_natCast hs]
  exact Nat.ceil_mono (by linarith [Nat.floor_le hx])

/-- The units are within one of the amount. -/
lemma abs_share_sub_lt (hs : 0 ≤ s) (hx : 0 ≤ x) : |(share s x : R) - x| < 1 := by
  have hsum : (⌈s⌉₊ : R) + share s x = ⌈s + x⌉₊ := by exact_mod_cast ceil_add_share hx
  have h₁ := Nat.le_ceil s
  have h₂ := Nat.le_ceil (s + x)
  have h₃ := Nat.ceil_lt_add_one hs
  have h₄ := Nat.ceil_lt_add_one (add_nonneg hs hx)
  rw [abs_lt]
  constructor <;> linarith

omit [IsStrictOrderedRing R] in
lemma length_shares : (shares s xs).length = xs.length := by
  induction xs generalizing s with
  | nil => rfl
  | cons x xs ih => rw [shares, List.length_cons, ih, List.length_cons]

/-- All units. -/
lemma ceil_add_sum_shares (h : ∀ x ∈ xs, 0 ≤ x) :
    ⌈s⌉₊ + (shares s xs).sum = ⌈s + xs.sum⌉₊ := by
  induction xs generalizing s with
  | nil => simp [shares]
  | cons x xs ih =>
      rw [shares, List.sum_cons, ← Nat.add_assoc, ceil_add_share (h x (by simp)),
        ih fun y hy => h y (by simp [hy]), List.sum_cons, add_assoc]

end Apportion

end CheckQ
