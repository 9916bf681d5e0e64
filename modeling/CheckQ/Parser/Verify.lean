import CheckQ.Lib.Double
import CheckQ.Mylib.Clib

/-!
# The checks of `parser/verify.c`

The check of the rates is written for any arithmetic: the code computes with doubles, and what it
does is compared with the exact rational numbers in their place.
-/

namespace CheckQ

/-- `sscanf(ip, "%d.%d.%d.%d", ..)`, the conversions that are left to do: the numbers that
were read.  A conversion after the first one is behind a dot. -/
def scanQuad : ℕ → Bytes → List Int
  | 0, _ => []
  | n + 1, s =>
      match scanInt s with
      | none => []
      | some (v, rest) =>
          if rest.head? = some 46 then v :: scanQuad n rest.tail else [v]

/-- `verify_ip`.  What follows the fourth number is not looked at. -/
def verifyIp (ip : Bytes) : RetT :=
  let fgm := scanQuad 4 ip
  if fgm.length ≠ 4 then .failed
  else if fgm.any fun v => decide (v < 0) || decide (v > 255) then .failed
  else .succeed

/-- `verify_port`. -/
def verifyPort (port : Int) : RetT := if port ≥ 0 ∧ port < 65536 then .succeed else .failed

/-- `verify_string`. -/
def verifyString (ori ref : Bytes) : RetT := if ori = ref then .succeed else .failed

/-- `verify_rate`; the four rates are checked one by one, and their sum last. -/
def verifyRate {α : Type} [Zero α] [One α] [Add α] [OfScientific α] [LT α] [DecidableLT α] [LE α]
    [DecidableLE α] (rate : List α) : RetT :=
  if rate.any fun r => decide (r < 0) || decide (r ≥ 1) then .failed
  else if rate.foldl (· + ·) 0 > 1 + 0.01 then .failed
  else .succeed

/-- `verify_window`. -/
def verifyWindow (rows cols : Int) : RetT := if rows < 0 ∨ cols < 0 then .failed else .succeed

/-! ### Dotted quads -/

/-- The address `a.b.c.d` without leading zeros. -/
def dottedQuad (a b c d : ℕ) : Bytes :=
  decimal a ++ ascii "." ++ decimal b ++ ascii "." ++ decimal c ++ ascii "." ++ decimal d

/-- The conversion of a number in front of something that is no digit. -/
lemma scanInt_decimal {n : ℕ} (h : n < 2 ^ 31) (rest : Bytes)
    (hrest : ∀ c ∈ rest.head?, isDigit c = false) :
    scanInt (decimal n ++ rest) = some ((n : Int), rest) :=
  scanInt_decimalInt (v := (n : Int)) (by omega) (by omega) hrest

lemma scanQuad_decimal_dot {n k : ℕ} (h : n < 2 ^ 31) (rest : Bytes) :
    scanQuad (k + 1) (decimal n ++ (ascii "." ++ rest)) = (n : Int) :: scanQuad k rest := by
  have hdot : ascii "." = [46] := rfl
  rw [scanQuad, hdot, scanInt_decimal h _ (by simp [isDigit])]
  simp

/-- `verify_ip` accepts the dotted quads. -/
lemma verifyIp_dottedQuad {a b c d : ℕ} (ha : a ≤ 255) (hb : b ≤ 255) (hc : c ≤ 255)
    (hd : d ≤ 255) : verifyIp (dottedQuad a b c d) = .succeed := by
  have hlast : scanQuad 1 (decimal d) = [(d : Int)] := by
    have h := scanInt_decimal (n := d) (by omega) [] (by simp)
    rw [List.append_nil] at h
    rw [scanQuad, h]
    simp
  have hquad : scanQuad 4 (dottedQuad a b c d) = [(a : Int), (b : Int), (c : Int), (d : Int)] := by
    simp only [dottedQuad, List.append_assoc]
    rw [scanQuad_decimal_dot (by omega), scanQuad_decimal_dot (by omega),
      scanQuad_decimal_dot (by omega), hlast]
  rw [verifyIp, hquad]
  have hany : [(a : Int), (b : Int), (c : Int), (d : Int)].any
      (fun v => decide (v < 0) || decide (v > 255)) = false := by
    simp only [List.any_cons, List.any_nil, Bool.or_eq_false_iff, decide_eq_false_iff_not, not_lt,
      gt_iff_lt, and_true]
    omega
  simp [hany]

lemma length_dottedQuad_le {a b c d : ℕ} (ha : a ≤ 255) (hb : b ≤ 255) (hc : c ≤ 255)
    (hd : d ≤ 255) : (dottedQuad a b c d).length ≤ 15 := by
  have h : ∀ n, n ≤ 255 → (decimal n).length ≤ 3 := fun n hn =>
    length_decimal_le (by omega) (by omega)
  have hdot : (ascii ".").length = 1 := rfl
  simp only [dottedQuad, List.length_append, hdot]
  have := h a ha
  have := h b hb
  have := h c hc
  have := h d hd
  omega

end CheckQ
