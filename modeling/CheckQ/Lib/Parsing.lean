import Mathlib.Data.List.Basic

/-!
# Readers of texts

A reader takes the beginning of a text and gives a value and the text behind it.  `expect` reads
a fixed text and `sepBy` items with separators between them.

A list that is written item by item is read back when each item is.  An item that is not read to
its end takes a part of the next item with it: `Derails P r` says that a reader whose result is
`r` fails or stops in front of a text in `P`.  If the texts in `P` do not begin with the
separator, a list with such an item derails as a whole.
-/

namespace CheckQ

variable {α β γ : Type*}

/-- Read the text `lit`. -/
def expect [DecidableEq α] : List α → List α → Option (List α)
  | [], s => some s
  | _ :: _, [] => none
  | c :: lit, d :: s => if c = d then expect lit s else none

/-- Read items up to the first one that has no separator behind it. -/
def sepBy [DecidableEq α] (sep : α) (item : List α → Option (β × List α)) :
    ℕ → List α → Option (List β × List α)
  | 0, _ => none
  | fuel + 1, s => do
      let (b, rest) ← item s
      match rest with
      | [] => return ([b], [])
      | c :: rest =>
          if c = sep then
            let (bs, rest) ← sepBy sep item fuel rest
            return (b :: bs, rest)
          else return ([b], c :: rest)

/-- The reader fails, or it stops in front of a text in `P`. -/
def Derails (P : List α → Prop) (r : Option (β × List α)) : Prop :=
  ∀ b rest, r = some (b, rest) → P rest

section Expect

variable [DecidableEq α]

end Expect

section SepBy

variable [DecidableEq α] {sep : α} {item : List α → Option (β × List α)}

/-- The first item of a list, with what is behind it. -/
lemma sepBy_last {s rest : List α} {b : β} (h : item s = some (b, rest))
    (hrest : rest.head? ≠ some sep) (fuel : ℕ) :
    sepBy sep item (fuel + 1) s = some ([b], rest) := by
  rw [sepBy, h]
  cases rest with
  | nil => rfl
  | cons c rest =>
      have hne : c ≠ sep := by simpa using hrest
      simp [hne]

variable {write : γ → List α} {value : γ → β}

omit [DecidableEq α] in
lemma intercalate_cons_cons (sep : α) (x y : List α) (ys : List (List α)) (tail : List α) :
    [sep].intercalate (x :: y :: ys) ++ tail
      = x ++ sep :: ([sep].intercalate (y :: ys) ++ tail) := by
  simp [List.intercalate]

/-- A list whose first item derails. -/
lemma Derails.sepBy {P : List α → Prop} (hP : ∀ rest, P rest → rest.head? ≠ some sep)
    {s : List α} (h : Derails P (item s)) (fuel : ℕ) :
    Derails P (CheckQ.sepBy sep item fuel s) := by
  intro bs rest hread
  cases fuel with
  | zero => simp [CheckQ.sepBy] at hread
  | succ fuel =>
      rcases hitem : item s with _ | ⟨b, rest'⟩
      · simp [CheckQ.sepBy, hitem] at hread
      · have hrest' := h b rest' hitem
        rw [sepBy_last hitem (hP rest' hrest') fuel] at hread
        obtain ⟨-, rfl⟩ := Prod.mk.inj (Option.some.inj hread)
        exact hrest'

end SepBy

end CheckQ
