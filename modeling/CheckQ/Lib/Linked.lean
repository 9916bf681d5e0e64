import Mathlib.Logic.Function.Basic
import Mathlib.Data.List.Basic
import Mathlib.Tactic.Common

/-!
# Doubly linked segments

A doubly linked list in memory, read through the two functions that give the `next` and the
`prev` field of the node at an address.  `Linked next prev p rs q` says that the nodes `rs`
lie between the nodes `p` and `q`, in this order, and that every link has its counterpart.
-/

namespace CheckQ

variable {A : Type*}

/-- The nodes between `p` and `q` are `rs`. -/
def Linked (next prev : A → Option A) : A → List A → A → Prop
  | p, [], q => next p = some q ∧ prev q = some p
  | p, r :: rs, q => next p = some r ∧ prev r = some p ∧ Linked next prev r rs q

namespace Linked

variable {next prev : A → Option A} {p q : A} {rs : List A}

/-- The link backwards out of the end of a segment. -/
lemma prev_eq (h : Linked next prev p rs q) :
    prev q = some ((p :: rs).getLast (List.cons_ne_nil p rs)) := by
  induction rs generalizing p with
  | nil => exact h.2
  | cons r rs ih => simpa using ih h.2.2

/-- A new node `n` in front of the end of a segment. -/
lemma snoc [DecidableEq A] {n : A} (h : Linked next prev p rs q) (hnodup : (p :: rs).Nodup)
    (hq : q ∉ p :: rs) (hn : n ∉ p :: rs) (hnq : n ≠ q) {last : A}
    (hlast : last = (p :: rs).getLast (List.cons_ne_nil p rs)) :
    Linked (Function.update (Function.update next last (some n)) n (some q))
      (Function.update (Function.update prev q (some n)) n (some last)) p (rs ++ [n]) q := by
  induction rs generalizing p with
  | nil =>
      obtain rfl : last = p := by simpa using hlast
      have hpn : last ≠ n := fun heq => hn (by simp [heq])
      refine ⟨?_, ?_, ?_, ?_⟩
      · rw [Function.update_of_ne hpn, Function.update_self]
      · rw [Function.update_self]
      · rw [Function.update_self]
      · rw [Function.update_of_ne hnq.symm, Function.update_self]
  | cons r rs ih =>
      rw [List.nodup_cons] at hnodup
      rw [List.mem_cons, not_or] at hq hn
      have hlast' : last = (r :: rs).getLast (List.cons_ne_nil r rs) := by
        rw [hlast, List.getLast_cons]
      -- the last node is one of the nodes behind `p`
      have hmem : last ∈ r :: rs := hlast' ▸ List.getLast_mem (List.cons_ne_nil r rs)
      have hpl : p ≠ last := fun heq => hnodup.1 (heq ▸ hmem)
      have hrn : r ≠ n := fun heq => hn.2 (by simp [heq])
      have hrq : r ≠ q := fun heq => hq.2 (by simp [heq])
      refine ⟨?_, ?_, ih h.2.2 hnodup.2 hq.2 hn.2 hlast'⟩
      · rw [Function.update_of_ne (Ne.symm hn.1), Function.update_of_ne hpl]
        exact h.1
      · rw [Function.update_of_ne hrn, Function.update_of_ne hrq]
        exact h.2.1

/-- A segment is told by the links between its nodes alone. -/
lemma congr {next' prev' : A → Option A} (h : Linked next prev p rs q)
    (hnext : ∀ x ∈ p :: rs, next' x = next x) (hprev : ∀ x ∈ rs ++ [q], prev' x = prev x) :
    Linked next' prev' p rs q := by
  induction rs generalizing p with
  | nil => exact ⟨(hnext p (by simp)).trans h.1, (hprev q (by simp)).trans h.2⟩
  | cons r rs ih =>
      refine ⟨(hnext p (by simp)).trans h.1, (hprev r (by simp)).trans h.2.1, ih h.2.2 ?_ ?_⟩
      · exact fun x hx => hnext x (List.mem_cons_of_mem _ hx)
      · exact fun x hx => hprev x (List.mem_cons_of_mem _ hx)

/-- Two segments with a node in common. -/
lemma append {r : A} {ss : List A} (h : Linked next prev p rs r) (h' : Linked next prev r ss q) :
    Linked next prev p (rs ++ r :: ss) q := by
  induction rs generalizing p with
  | nil => exact ⟨h.1, h.2, h'⟩
  | cons r' rs ih => exact ⟨h.1, h.2.1, ih h.2.2⟩

/-- A segment read backwards. -/
lemma reverse (h : Linked next prev p rs q) : Linked prev next q rs.reverse p := by
  induction rs generalizing p with
  | nil => exact ⟨h.2, h.1⟩
  | cons r rs ih =>
      rw [List.reverse_cons]
      exact (ih h.2.2).append ⟨h.2.1, h.1⟩

end Linked

end CheckQ
