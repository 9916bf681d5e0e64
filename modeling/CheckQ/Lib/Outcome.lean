import Mathlib.Logic.Basic
import Mathlib.Tactic.Common

/-!
# Outcomes of a call

A call of a C function does one of four things: it returns, it stays in a loop for
ever, it stops the process, or it runs into undefined behaviour.  A loop whose
termination is not known is run with a number of rounds it may take; `spin` says
that the rounds were used up, so a call that gives something else for some number
of rounds is a call whose loops end.

`Outcome.Meets sp ab Q` is the predicate transformer used throughout: a call that
returns does so with a value in `Q`, no call is undefined, and `sp` and `ab` say when a
call is allowed to stay in a loop and to stop the process.  It is total correctness
when both are `False`.
-/

namespace CheckQ

universe u

/-- How a call ends. -/
inductive Outcome (α : Type u) where
  | ret (a : α)
  -- a loop of the call is still running
  | spin
  -- the process has been stopped, by `abort` or `exit`
  | abort
  -- the call has undefined behaviour
  | fault
deriving DecidableEq, Repr

namespace Outcome

variable {α β : Type u}

/-- Sequencing: what does not return is not continued. -/
protected def bind (x : Outcome α) (f : α → Outcome β) : Outcome β :=
  match x with
  | ret a => f a
  | spin => spin
  | abort => abort
  | fault => fault

instance : Monad Outcome where
  pure := ret
  bind := Outcome.bind

@[simp] lemma pure_eq (a : α) : (pure a : Outcome α) = ret a := rfl

@[simp] lemma ret_bind (a : α) (f : α → Outcome β) : (ret a >>= f) = f a := rfl

@[simp] lemma spin_bind (f : α → Outcome β) : (spin >>= f) = spin := rfl

@[simp] lemma abort_bind (f : α → Outcome β) : (abort >>= f) = abort := rfl

@[simp] lemma fault_bind (f : α → Outcome β) : (fault >>= f) = fault := rfl

/-- A sequence returns when both of its parts do. -/
lemma bind_eq_ret {x : Outcome α} {f : α → Outcome β} {b : β} :
    (x >>= f) = ret b ↔ ∃ a, x = ret a ∧ f a = ret b := by
  cases x <;> simp

lemma bind_ne_spin {x : Outcome α} {f : α → Outcome β} (hx : x ≠ spin)
    (hf : ∀ a, x = ret a → f a ≠ spin) : (x >>= f) ≠ spin := by
  cases x with
  | ret a => exact hf a rfl
  | spin => exact absurd rfl hx
  | abort => simp
  | fault => simp

/-- A sequence that ends stays the same when its parts do wherever they end. -/
lemma bind_eq_bind_of_ends {x y : Outcome α} {f g : α → Outcome β} (hx : x ≠ spin → y = x)
    (hf : ∀ a, f a ≠ spin → g a = f a) (h : (x >>= f) ≠ spin) : (y >>= g) = (x >>= f) := by
  cases x with
  | ret a =>
      rw [hx (by simp)]
      exact hf a h
  | spin => exact absurd rfl h
  | abort => rw [hx (by simp)]; rfl
  | fault => rw [hx (by simp)]; rfl

/-- The call is never undefined, it returns a value in `Q` when it returns, it may stay
in a loop only if `sp` holds and stop the process only if `ab` does. -/
def Meets (sp ab : Prop) (Q : α → Prop) : Outcome α → Prop
  | ret a => Q a
  | spin => sp
  | abort => ab
  | fault => False

variable {sp ab : Prop}

@[simp] lemma meets_ret {Q : α → Prop} {a : α} : (ret a).Meets sp ab Q ↔ Q a := Iff.rfl

lemma Meets.mono {ab' : Prop} {Q Q' : α → Prop} {x : Outcome α} (h : x.Meets sp ab Q)
    (hab : ab → ab') (hQ : ∀ a, Q a → Q' a) : x.Meets sp ab' Q' := by
  cases x with
  | ret a => exact hQ a h
  | spin => exact h
  | abort => exact hab h
  | fault => exact h

/-- A condition under which the loops of the call end. -/
lemma Meets.ends {P : Prop} {Q : α → Prop} {x : Outcome α} (h : x.Meets sp ab Q)
    (hends : P → x ≠ spin) : x.Meets (¬ P) ab Q := by
  cases x with
  | ret a => exact h
  | spin => exact fun hP => hends hP rfl
  | abort => exact h
  | fault => exact h

/-- What is known of a value because it is returned. -/
lemma Meets.and_ret {P Q : α → Prop} {x : Outcome α} (h : x.Meets sp ab P)
    (hQ : ∀ a, x = ret a → Q a) : x.Meets sp ab fun a => P a ∧ Q a := by
  cases x with
  | ret a => exact ⟨h, hQ a rfl⟩
  | spin => exact h
  | abort => exact h
  | fault => exact h

/-- The rule for sequencing. -/
lemma Meets.bind {P : α → Prop} {Q : β → Prop} {x : Outcome α} {f : α → Outcome β}
    (hx : x.Meets sp ab P) (hf : ∀ a, P a → (f a).Meets sp ab Q) : (x >>= f).Meets sp ab Q := by
  cases x with
  | ret a => exact hf a hx
  | spin => exact hx
  | abort => exact hx
  | fault => exact hx

/-- Total correctness: the call returns. -/
lemma Meets.exists_ret {Q : α → Prop} {x : Outcome α} (h : x.Meets False False Q) :
    ∃ a, x = ret a ∧ Q a := by
  cases x with
  | ret a => exact ⟨a, rfl, h⟩
  | spin => exact h.elim
  | abort => exact h.elim
  | fault => exact h.elim

/-- A call whose loops end returns or stops the process. -/
lemma Meets.exists_ret_or_abort {Q : α → Prop} {x : Outcome α} (h : x.Meets sp ab Q)
    (hs : x ≠ spin) : (∃ a, x = ret a ∧ Q a) ∨ (x = abort ∧ ab) := by
  cases x with
  | ret a => exact Or.inl ⟨a, rfl, h⟩
  | spin => exact absurd rfl hs
  | abort => exact Or.inr ⟨rfl, h⟩
  | fault => exact h.elim

end Outcome

end CheckQ
