import CheckQ.Lib.Refinement
import Mathlib.Algebra.GroupWithZero.Nat

/-!
# Systems that come to an end

A measure that no step raises, and that some steps lower, bounds how many of these steps a run has.
When in addition every state that is not final has a step that lowers it, a final state can be
reached from every state.
-/

namespace CheckQ

variable {St Act : Type*} {R : St → St → Prop} {I : St → Prop} {μ : St → ℕ}

section Runs

variable {step : St → Act → Option St}

/-- What every step keeps, every run keeps. -/
theorem invariant_of_run (hstep : ∀ s s', I s → R s s' → I s') {s s' : St} (hs : I s)
    (hrun : Relation.ReflTransGen R s s') : I s' := by
  induction hrun with
  | refl => exact hs
  | tail _ h ih => exact hstep _ _ ih h

/-- **A measure bounds the cost of a schedule.** -/
theorem runSchedule_measure (cost : Act → ℕ)
    (hstep : ∀ s act s', I s → step s act = some s' → I s' ∧ μ s' + cost act ≤ μ s)
    {sched : List Act} {s s' : St} (hs : I s)
    (hrun : runSchedule step (fun _ _ => true) sched s = some s') :
    μ s' + (sched.map cost).sum ≤ μ s := by
  induction sched generalizing s with
  | nil =>
      obtain rfl := Option.some.inj hrun
      simp
  | cons act sched ih =>
      rw [runSchedule, if_pos rfl] at hrun
      obtain ⟨s₁, hact, hrest⟩ := Option.bind_eq_some_iff.1 hrun
      obtain ⟨hs₁, hle⟩ := hstep s act s₁ hs hact
      have hsum := ih hs₁ hrest
      rw [List.map_cons, List.sum_cons]
      omega

end Runs

/-- **A measure that can be lowered takes every state to a final one.** -/
theorem exists_final (Final : St → Prop)
    (hstep : ∀ s, I s → ¬ Final s → ∃ s', R s s' ∧ I s' ∧ μ s' < μ s) {s : St} (hs : I s) :
    ∃ s', Relation.ReflTransGen R s s' ∧ I s' ∧ Final s' := by
  induction hμ : μ s using Nat.strongRecOn generalizing s with
  | ind n ih =>
      by_cases hfinal : Final s
      · exact ⟨s, Relation.ReflTransGen.refl, hs, hfinal⟩
      · obtain ⟨s₁, hR, hs₁, hlt⟩ := hstep s hs hfinal
        obtain ⟨s₂, hrun, hs₂, hend⟩ := ih (μ s₁) (hμ ▸ hlt) hs₁ rfl
        exact ⟨s₂, Relation.ReflTransGen.head hR hrun, hs₂, hend⟩

end CheckQ
