import Mathlib.Logic.Equiv.Basic

/-!
# Rounds on three words

A round changes one of three words by a permutation that depends on the other two, and the word
that is changed next stands first.  The two words are still there after the round, so the round
can be undone, whatever the permutation is; so can every sequence of rounds, the last one first.
-/

namespace CheckQ

variable {α : Type*}

/-- One round: the first word is changed with the help of the others and goes to the end. -/
def turn (g : α → α → α ≃ α) : α × α × α ≃ α × α × α where
  toFun p := (p.2.1, p.2.2, g p.2.1 p.2.2 p.1)
  invFun p := ((g p.1 p.2.1).symm p.2.2, p.1, p.2.1)
  left_inv p := by simp
  right_inv p := by simp

/-- The rounds of a list, the first one first. -/
def turns : List (α → α → α ≃ α) → α × α × α ≃ α × α × α
  | [] => Equiv.refl _
  | g :: gs => (turn g).trans (turns gs)

end CheckQ
