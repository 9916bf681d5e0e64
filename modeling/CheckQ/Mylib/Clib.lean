import Mathlib.Data.List.Basic
import Mathlib.Data.List.TakeWhile
import Mathlib.Tactic.Common
import Mathlib.Tactic.Ring
import Mathlib.Algebra.Order.Ring.Int

/-!
# The C library

What the program uses of the C library, as functions on byte strings.  A C string is
the list of its bytes without the terminator, so reading past the end of the list
reads a NUL.  The conversions follow glibc: `%d` and `atoi` read a `long`, saturating,
and cut it down to an `int`.  The random numbers come from a stream, the values that
`rand()` will return.
-/

namespace CheckQ

/-- `ret_t` of `mylib/return.h`. -/
inductive RetT where
  | succeed
  | failed
deriving DecidableEq, Repr

/-- A byte string. -/
abbrev Bytes := List UInt8

instance : LawfulBEq Bytes := inferInstance

/-- A text over a class of bytes has no byte outside the class. -/
lemma notMem_of_class {cls : UInt8 → Bool} {s : Bytes} {c : UInt8} (h : ∀ e ∈ s, cls e = true)
    (hc : cls c = false) : c ∉ s := by
  intro hmem
  rw [h c hmem] at hc
  exact Bool.noConfusion hc

/-- The bytes of a string literal of the source. -/
def ascii (s : String) : Bytes := s.toList.map fun c => c.toNat.toUInt8

/-! ### Random numbers -/

/-- The values that `rand()` will return. -/
abbrev RandStream := ℕ → ℕ

/-- `rand()`: the next value and the stream behind it. -/
def RandStream.next (r : RandStream) : ℕ × RandStream := (r 0, fun n => r (n + 1))

/-! ### Comparing -/

/-- `strncmp`: the sign of the first difference among the first `n` bytes, up to the
terminator. -/
def strncmp : Bytes → Bytes → ℕ → Int
  | _, _, 0 => 0
  | s, t, n + 1 =>
      if s.headD 0 = t.headD 0 then
        if s.headD 0 = 0 then 0 else strncmp s.tail t.tail n
      else (s.headD 0).toNat - (t.headD 0).toNat

/-- `strstr`: the text from the first occurrence of `t` on; `none` is the null pointer. -/
def strstr (s t : Bytes) : Option Bytes :=
  if t <+: s then some s
  else
    match s with
    | [] => none
    | _ :: s => strstr s t

/-- Comparing as many bytes as the first string has finds whether it is a prefix of
the second one. -/
lemma strncmp_eq_zero_iff {s : Bytes} (hs : (0 : UInt8) ∉ s) (t : Bytes) :
    strncmp s t s.length = 0 ↔ s <+: t := by
  induction s generalizing t with
  | nil => simp [strncmp]
  | cons a s ih =>
      have ha : a ≠ 0 := fun h => hs (by simp [h])
      have hs' : (0 : UInt8) ∉ s := fun h => hs (by simp [h])
      cases t with
      | nil =>
          have hn : a.toNat ≠ 0 := fun h => ha (UInt8.toNat_inj.1 (by simpa using h))
          simp [strncmp, ha, hn]
      | cons b t =>
          by_cases hab : a = b
          · subst hab
            simp [strncmp, ha, ih hs']
          · have hn : a.toNat ≠ b.toNat := fun h => hab (UInt8.toNat_inj.1 h)
            simp only [List.length_cons, strncmp, List.headD_cons, hab, if_false,
              List.cons_prefix_cons, false_and, iff_false]
            omega

/-! ### Numbers -/

/-- `%u` and its relatives: the decimal digits of a number. -/
def decimal (n : ℕ) : Bytes := (Nat.toDigits 10 n).map fun c => c.toNat.toUInt8

/-- `%d`. -/
def decimalInt : Int → Bytes
  | .ofNat n => decimal n
  | .negSucc n => ascii "-" ++ decimal (n + 1)

/-- `isdigit`. -/
def isDigit (c : UInt8) : Bool := decide (48 ≤ c) && decide (c ≤ 57)

/-- `isspace`. -/
def isSpace (c : UInt8) : Bool := decide (c = 32) || (decide (9 ≤ c) && decide (c ≤ 13))

/-- Letters, digits and the underscore: the class `\w` of `regexec`. -/
def isWord (c : UInt8) : Bool :=
  isDigit c || (decide (65 ≤ c.toNat) && decide (c.toNat ≤ 90)) ||
    (decide (97 ≤ c.toNat) && decide (c.toNat ≤ 122)) || decide (c = 95)

/-- The number a string of digits denotes. -/
def digitsVal (ds : Bytes) : ℕ := ds.foldl (fun v c => 10 * v + (c.toNat - 48)) 0

/-- A number as a `long`: `strtol` saturates. -/
def toLong (v : Int) : Int := max (-2 ^ 63) (min v (2 ^ 63 - 1))

/-- A number as an `int`: the low 32 bits. -/
def toInt (v : Int) : Int := v.bmod (2 ^ 32)

/-- The conversion `%d` of `sscanf`: the number read and the text behind it. -/
def scanInt (s : Bytes) : Option (Int × Bytes) :=
  let s := s.dropWhile isSpace
  let neg := s.head? = some 45
  let s := if s.head? = some 45 ∨ s.head? = some 43 then s.tail else s
  let ds := s.takeWhile isDigit
  if ds = [] then none
  else some (toInt (toLong (if neg then -(digitsVal ds : Int) else digitsVal ds)),
    s.dropWhile isDigit)

/-- `atoi`. -/
def atoi (s : Bytes) : Int := ((scanInt s).map Prod.fst).getD 0

/-! ### What is printed is read back -/

lemma decimal_eq_if (n : ℕ) :
    decimal n = if n < 10 then [(48 + n).toUInt8]
      else decimal (n / 10) ++ [(48 + n % 10).toUInt8] := by
  have digit : ∀ d, d < 10 → (Nat.digitChar d).toNat.toUInt8 = (48 + d).toUInt8 := by decide
  rw [decimal, Nat.toDigits_eq_if (by omega)]
  by_cases h : n < 10
  · simp only [h, if_true, List.map_cons, List.map_nil]
    rw [digit n h]
  · simp only [h, if_false, List.map_append, List.map_cons, List.map_nil]
    rw [digit _ (Nat.mod_lt n (by omega)), decimal]

lemma decimal_ne_nil (n : ℕ) : decimal n ≠ [] := by
  simp [decimal, Nat.toDigits_ne_nil]

/-- A number below `10 ^ k` has at most `k` digits. -/
lemma length_decimal_le {n k : ℕ} (hk : 0 < k) (h : n < 10 ^ k) : (decimal n).length ≤ k := by
  rw [decimal, List.length_map, Nat.length_toDigits_le_iff (by omega) hk]
  exact h

lemma digitsVal_append (ds : Bytes) (c : UInt8) :
    digitsVal (ds ++ [c]) = 10 * digitsVal ds + (c.toNat - 48) := by
  simp [digitsVal]

/-- More digits make no smaller number. -/
lemma le_foldl_digits (v : ℕ) (ds : Bytes) :
    v ≤ ds.foldl (fun v c => 10 * v + (c.toNat - 48)) v := by
  induction ds generalizing v with
  | nil => exact le_rfl
  | cons c ds ih =>
      have := ih (10 * v + (c.toNat - 48))
      rw [List.foldl_cons]
      omega

lemma le_digitsVal_append (ds ds' : Bytes) : digitsVal ds ≤ digitsVal (ds ++ ds') := by
  rw [digitsVal, digitsVal, List.foldl_append]
  exact le_foldl_digits _ _

lemma digit_toUInt8 {d : ℕ} (h : d < 10) :
    isDigit (48 + d).toUInt8 = true ∧ (48 + d).toUInt8.toNat - 48 = d := by
  revert h
  revert d
  decide

/-- The digits printed for `n` are digits, and they denote `n`. -/
lemma decimal_spec (n : ℕ) : (∀ c ∈ decimal n, isDigit c = true) ∧ digitsVal (decimal n) = n := by
  induction n using Nat.strong_induction_on with
  | _ n ih =>
      rw [decimal_eq_if]
      by_cases h : n < 10
      · have hd := digit_toUInt8 h
        simp only [h, if_true, List.mem_singleton, forall_eq]
        exact ⟨hd.1, by simpa [digitsVal] using hd.2⟩
      · obtain ⟨hdig, hval⟩ := ih (n / 10) (by omega)
        have hd := digit_toUInt8 (Nat.mod_lt n (show 0 < 10 by omega))
        simp only [h, if_false]
        refine ⟨?_, ?_⟩
        · intro c hc
          rcases List.mem_append.1 hc with hc | hc
          · exact hdig c hc
          · rw [List.mem_singleton.1 hc]
            exact hd.1
        · rw [digitsVal_append, hval, hd.2]
          omega

/-- The bytes of a class in front of one that is not in it. -/
lemma takeWhile_append_stop {cls : UInt8 → Bool} {s rest : Bytes} (hs : ∀ c ∈ s, cls c = true)
    (hrest : ∀ c ∈ rest.head?, cls c = false) :
    (s ++ rest).takeWhile cls = s ∧ (s ++ rest).dropWhile cls = rest := by
  rw [List.takeWhile_append_of_pos hs, List.dropWhile_append_of_pos hs]
  cases rest with
  | nil => simp
  | cons c rest =>
      have hc : cls c = false := hrest c rfl
      simp [hc]

lemma takeWhile_isDigit {ds rest : Bytes} (hds : ∀ c ∈ ds, isDigit c = true)
    (hrest : ∀ c ∈ rest.head?, isDigit c = false) :
    (ds ++ rest).takeWhile isDigit = ds ∧ (ds ++ rest).dropWhile isDigit = rest :=
  takeWhile_append_stop hds hrest

/-- The bytes that `%d` skips or reads as a sign are no digits. -/
lemma not_isDigit_of_special {c : UInt8} (h : isDigit c = true) :
    isSpace c = false ∧ c ≠ 45 ∧ c ≠ 43 := by
  simp only [isDigit, Bool.and_eq_true, decide_eq_true_eq, UInt8.le_iff_toNat_le] at h
  refine ⟨?_, ?_, ?_⟩
  · simp only [isSpace, Bool.or_eq_false_iff, Bool.and_eq_false_iff, decide_eq_false_iff_not,
      UInt8.le_iff_toNat_le, ← UInt8.toNat_inj]
    have h₁ : (48 : UInt8).toNat = 48 := rfl
    have h₂ : (32 : UInt8).toNat = 32 := rfl
    have h₃ : (13 : UInt8).toNat = 13 := rfl
    omega
  · rintro rfl
    exact absurd h (by decide)
  · rintro rfl
    exact absurd h (by decide)

lemma toInt_toLong {v : Int} (h₁ : -2 ^ 31 ≤ v) (h₂ : v < 2 ^ 31) : toInt (toLong v) = v := by
  have hl : toLong v = v := by
    rw [toLong, min_eq_left (by omega), max_eq_right (by omega)]
  rw [hl, toInt, Int.bmod_eq_of_le] <;> omega

/-- The conversion of digits in front of something that is no digit. -/
lemma scanInt_digits {ds rest : Bytes} (hne : ds ≠ []) (hdig : ∀ c ∈ ds, isDigit c = true)
    (hlt : digitsVal ds < 2 ^ 31) (hrest : ∀ c ∈ rest.head?, isDigit c = false) :
    scanInt (ds ++ rest) = some ((digitsVal ds : Int), rest) := by
  obtain ⟨htake, hdrop⟩ := takeWhile_isDigit hdig hrest
  obtain ⟨c, ds', hc⟩ := List.exists_cons_of_ne_nil hne
  obtain ⟨hsp, hm, hp⟩ := not_isDigit_of_special (hdig c (by simp [hc]))
  have hskip : (ds ++ rest).dropWhile isSpace = ds ++ rest := by
    simp [hc, hsp]
  have hhead : (ds ++ rest).head? = some c := by simp [hc]
  simp only [scanInt, hskip, hhead, Option.some.injEq, hm, hp, or_self, if_false, htake, hdrop, hne]
  exact congrArg (fun v => (v, rest)) (toInt_toLong (by omega) (by omega))

lemma atoi_digits {ds : Bytes} (hdig : ∀ c ∈ ds, isDigit c = true) (hlt : digitsVal ds < 2 ^ 31) :
    atoi ds = digitsVal ds := by
  by_cases hne : ds = []
  · subst hne
    rfl
  · have h := scanInt_digits hne hdig hlt (show ∀ c ∈ ([] : Bytes).head?, _ by simp)
    rw [List.append_nil] at h
    rw [atoi, h]
    rfl

/-- **What `%d` prints, `%d` reads**, up to a byte that is no digit. -/
lemma scanInt_decimalInt {v : Int} (h₁ : -2 ^ 31 ≤ v) (h₂ : v < 2 ^ 31) {rest : Bytes}
    (hrest : ∀ c ∈ rest.head?, isDigit c = false) :
    scanInt (decimalInt v ++ rest) = some (v, rest) := by
  cases v with
  | ofNat n =>
      obtain ⟨hdig, hval⟩ := decimal_spec n
      have hlt : n < 2 ^ 31 := by
        have : (n : Int) < 2 ^ 31 := h₂
        omega
      have hscan := scanInt_digits (decimal_ne_nil n) hdig (by omega) hrest
      rw [hval] at hscan
      exact hscan
  | negSucc n =>
      obtain ⟨hdig, hval⟩ := decimal_spec (n + 1)
      obtain ⟨htake, hdrop⟩ := takeWhile_isDigit hdig hrest
      have hminus : ascii "-" = [45] := rfl
      have hskip : (45 :: (decimal (n + 1) ++ rest)).dropWhile isSpace
          = 45 :: (decimal (n + 1) ++ rest) := by simp [isSpace]
      have hneg : -((n + 1 : ℕ) : Int) = Int.negSucc n := rfl
      simp only [decimalInt, scanInt, hminus, List.cons_append, List.nil_append, hskip,
        List.head?_cons, true_or, if_true, List.tail_cons, htake, hdrop, decimal_ne_nil, if_false,
        hval, hneg, toInt_toLong h₁ h₂]

lemma atoi_decimalInt {v : Int} (h₁ : -2 ^ 31 ≤ v) (h₂ : v < 2 ^ 31) :
    atoi (decimalInt v) = v := by
  have h : scanInt (decimalInt v ++ []) = some (v, []) := scanInt_decimalInt h₁ h₂ (by simp)
  rw [List.append_nil] at h
  rw [atoi, h]
  rfl

end CheckQ
