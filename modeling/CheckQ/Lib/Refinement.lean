import CheckQ.Lib.Outcome
import Mathlib.Logic.Relation

/-!
# Data refinement and runs

A component with an internal state is a function that takes an operation and a state
and gives an outcome with a result and a new state; what the component is for is a
relation between an abstract state, an operation, a result and the abstract state
after it.  If one operation of the component does what the relation allows whenever
its state represents the abstract one, then so does every sequence of operations.

A system whose parties take steps in any order is a function that gives the next state for
an action, where there is one; a schedule of actions is a run of it.

A list of assignments leaves in a variable what the last one that names it gives.

A loop that stops at the first item that it cannot take comes to an item when it has taken all
the items before it.
-/

namespace CheckQ

universe u

variable {Op A : Type*} {Res S : Type u}

/-- Run a sequence of operations and collect their results. -/
def runOps (step : Op → S → Outcome (Res × S)) : List Op → S → Outcome (List Res × S)
  | [], s => .ret ([], s)
  | op :: ops, s => do
      let (r, s') ← step op s
      let (rs, s'') ← runOps step ops s'
      return (r :: rs, s'')

/-- One more operation at the end of a sequence. -/
lemma runOps_concat {step : Op → S → Outcome (Res × S)} {ops : List Op} {op : Op} {s s' s'' : S}
    {rs : List Res} {r : Res} (hrun : runOps step ops s = .ret (rs, s'))
    (hop : step op s' = .ret (r, s'')) :
    runOps step (ops ++ [op]) s = .ret (rs ++ [r], s'') := by
  induction ops generalizing s rs with
  | nil =>
      obtain ⟨rfl, rfl⟩ := Prod.mk.inj (Outcome.ret.inj hrun)
      simp [runOps, hop]
  | cons op' ops ih =>
      obtain ⟨⟨r', s₁⟩, hstep, hrest⟩ := Outcome.bind_eq_ret.1 hrun
      obtain ⟨⟨rs', s₂⟩, htail, hret⟩ := Outcome.bind_eq_ret.1 hrest
      obtain ⟨rfl, rfl⟩ := Prod.mk.inj (Outcome.ret.inj hret)
      simp [runOps, hstep, ih htail]

/-- The results the abstract component may give for a sequence of operations, and the
abstract state it ends in. -/
inductive SpecRun (spec : A → Op → Res → A → Prop) : A → List Op → List Res → A → Prop
  | nil (a : A) : SpecRun spec a [] [] a
  | cons {a a' a'' : A} {op : Op} {ops : List Op} {r : Res} {rs : List Res}
      (h : spec a op r a') (hs : SpecRun spec a' ops rs a'') :
      SpecRun spec a (op :: ops) (r :: rs) a''

section Refines

variable {sp : Prop} {step : Op → S → Outcome (Res × S)} {spec : A → Op → Res → A → Prop}
  {R : A → S → Prop} {C : Op → Prop}

/-- **Data refinement** for operations with a cost.  Each operation that meets `C`
simulates the abstract one along `R` and raises the measure `μ` of the state by at most
one; it may stop the process only at a measure with `ab`.  Then every sequence of such
operations simulates the abstract sequence. -/
theorem runOps_refines_cost (ab : ℕ → Prop) (hab : ∀ {n m}, n ≤ m → ab n → ab m) (μ : S → ℕ)
    (hstep : ∀ a s op, R a s → C op → (step op s).Meets sp (ab (μ s + 1)) fun q =>
      (∃ a', spec a op q.1 a' ∧ R a' q.2) ∧ μ q.2 ≤ μ s + 1)
    (ops : List Op) (hC : ∀ op ∈ ops, C op) (a : A) (s : S) (hR : R a s) :
    (runOps step ops s).Meets sp (ab (μ s + ops.length)) fun q =>
      ∃ a', SpecRun spec a ops q.1 a' ∧ R a' q.2 := by
  induction ops generalizing a s with
  | nil => exact ⟨a, SpecRun.nil a, hR⟩
  | cons op ops ih =>
      have hop : C op := hC op (by simp)
      have hops : ∀ o ∈ ops, C o := fun o ho => hC o (by simp [ho])
      have hlen : (op :: ops).length = ops.length + 1 := List.length_cons
      refine Outcome.Meets.bind ((hstep a s op hR hop).mono (hab (by omega)) fun _ h => h) ?_
      rintro ⟨r, s'⟩ ⟨⟨a', hspec, hR'⟩, hμ⟩
      dsimp only at hμ
      refine Outcome.Meets.bind ((ih hops a' s' hR').mono (hab (by omega)) fun _ h => h) ?_
      rintro ⟨rs, s''⟩ ⟨a'', hrun, hR''⟩
      exact ⟨a'', SpecRun.cons hspec hrun, hR''⟩

/-- **Data refinement** for operations that never stop the process. -/
theorem runOps_refines
    (hstep : ∀ a s op, R a s → C op →
      (step op s).Meets sp False fun q => ∃ a', spec a op q.1 a' ∧ R a' q.2)
    (ops : List Op) (hC : ∀ op ∈ ops, C op) (a : A) (s : S) (hR : R a s) :
    (runOps step ops s).Meets sp False fun q => ∃ a', SpecRun spec a ops q.1 a' ∧ R a' q.2 := by
  refine runOps_refines_cost (fun _ => False) (fun _ h => h) (fun _ => 0) ?_ ops hC a s hR
  intro a s op hR hop
  exact (hstep a s op hR hop).mono id fun q hq => ⟨hq, Nat.zero_le _⟩

/-- What every operation keeps, every sequence of operations keeps. -/
theorem runOps_invariant {I : S → Prop}
    (hstep : ∀ s op, I s → C op → (step op s).Meets sp False fun q => I q.2)
    (ops : List Op) (hC : ∀ op ∈ ops, C op) (s : S) (hI : I s) :
    (runOps step ops s).Meets sp False fun q => I q.2 := by
  -- the abstract component has one state and allows everything
  have href : (runOps step ops s).Meets sp False fun q =>
      ∃ a' : Unit, SpecRun (fun _ _ _ _ => True) () ops q.1 a' ∧ I q.2 := by
    refine runOps_refines (R := fun _ s => I s) ?_ ops hC () s hI
    intro _ s op hs hop
    exact (hstep s op hs hop).mono id fun q hq => ⟨(), trivial, hq⟩
  exact href.mono id fun q hq => hq.choose_spec.2

/-- A sequence of operations that returns, when an operation that returns takes `R` to what
`next` makes of the abstract state. -/
theorem runOps_ret_foldl (next : A → Op → A)
    (hstep : ∀ a s op r s', R a s → step op s = .ret (r, s') → R (next a op) s')
    {ops : List Op} (a : A) {s s' : S} {rs : List Res} (hR : R a s)
    (hrun : runOps step ops s = .ret (rs, s')) : R (ops.foldl next a) s' := by
  induction ops generalizing a s rs with
  | nil =>
      obtain ⟨-, rfl⟩ := Prod.mk.inj (Outcome.ret.inj hrun)
      exact hR
  | cons op ops ih =>
      obtain ⟨⟨r, s₁⟩, hop, hrest⟩ := Outcome.bind_eq_ret.1 hrun
      obtain ⟨⟨rs', s₂⟩, htail, hret⟩ := Outcome.bind_eq_ret.1 hrest
      obtain ⟨-, rfl⟩ := Prod.mk.inj (Outcome.ret.inj hret)
      exact ih _ (hstep a s op r s₁ hR hop) htail

/-- What every operation that returns keeps, every sequence of operations that returns keeps. -/
theorem runOps_ret_invariant {I : S → Prop}
    (hstep : ∀ s op r s', I s → step op s = .ret (r, s') → I s')
    {ops : List Op} {s s' : S} {rs : List Res} (hI : I s)
    (hrun : runOps step ops s = .ret (rs, s')) : I s' :=
  runOps_ret_foldl (R := fun _ => I) (fun a _ => a) (fun _ s op r s' => hstep s op r s') () hI hrun

end Refines

section Schedule

variable {St Act : Type*}

/-- Take the steps of a schedule, as long as `ok` allows each of them. -/
def runSchedule (step : St → Act → Option St) (ok : St → Act → Bool) : List Act → St → Option St
  | [], s => some s
  | act :: sched, s => if ok s act then (step s act).bind (runSchedule step ok sched) else none

/-- A schedule is a run of the relation that its steps are in. -/
theorem run_of_schedule {step : St → Act → Option St} {ok : St → Act → Bool}
    {R : St → St → Prop} (hR : ∀ s act s', ok s act = true → step s act = some s' → R s s')
    {sched : List Act} {s s' : St} (h : runSchedule step ok sched s = some s') :
    Relation.ReflTransGen R s s' := by
  induction sched generalizing s with
  | nil =>
      rw [runSchedule, Option.some.injEq] at h
      exact h ▸ Relation.ReflTransGen.refl
  | cons act sched ih =>
      rw [runSchedule] at h
      split at h
      · rename_i hok
        obtain ⟨s₁, hstep, hrest⟩ := Option.bind_eq_some_iff.1 h
        exact Relation.ReflTransGen.head (hR s act s₁ hok hstep) (ih hrest)
      · simp at h

end Schedule

section Assignments

variable {σ τ β : Type*} {f : σ → τ → σ} (get : σ → Option β) (gives : τ → Option β)
  (I : σ → Prop)

/-- What a variable holds after a list of assignments it held before or one of them gave it. -/
lemma get_foldl (hI : ∀ s t, I s → I (f s t))
    (hget : ∀ s t, I s → get (f s t) = (gives t).or (get s)) {ts : List τ} {s : σ} (hs : I s)
    {x : β} (h : get (ts.foldl f s) = some x) : get s = some x ∨ ∃ t ∈ ts, gives t = some x := by
  induction ts generalizing s with
  | nil => exact Or.inl h
  | cons t ts ih =>
      rcases ih (hI s t hs) h with hx | ⟨t', ht', hx⟩
      · rw [hget s t hs, Option.or_eq_some_iff] at hx
        rcases hx with hx | ⟨-, hx⟩
        · exact Or.inr ⟨t, List.mem_cons_self, hx⟩
        · exact Or.inl hx
      · exact Or.inr ⟨t', List.mem_cons_of_mem t ht', hx⟩

/-- A variable that one of the assignments names is set after them. -/
lemma isSome_get_foldl (hI : ∀ s t, I s → I (f s t))
    (hget : ∀ s t, I s → get (f s t) = (gives t).or (get s)) {ts : List τ} {s : σ} (hs : I s)
    (h : (get s).isSome ∨ ∃ t ∈ ts, (gives t).isSome) : (get (ts.foldl f s)).isSome := by
  induction ts generalizing s with
  | nil => simpa using h
  | cons t ts ih =>
      refine ih (hI s t hs) ?_
      rw [hget s t hs, Option.isSome_or, Bool.or_eq_true]
      rcases h with h | ⟨t', ht', h⟩
      · exact Or.inl (Or.inr h)
      · rcases List.mem_cons.1 ht' with rfl | ht'
        · exact Or.inl (Or.inl h)
        · exact Or.inr ⟨t', ht', h⟩

end Assignments

section Walks

variable {τ : Type*} {Good : List τ → Prop} {Bad : List τ → τ → Prop} {x : τ} {items : List τ}

/-- A loop that takes the items before another one when they are `Good` comes to an item that is
`Bad` behind them. -/
def Reaches (Good : List τ → Prop) (Bad : List τ → τ → Prop) (items : List τ) : Prop :=
  ∃ before x after, items = before ++ x :: after ∧ Good before ∧ Bad before x

lemma not_reaches_nil : ¬ Reaches Good Bad [] := by
  rintro ⟨before, x, after, h, -⟩
  simp at h

/-- The first item, and the others behind it. -/
lemma reaches_cons :
    Reaches Good Bad (x :: items) ↔
      Good [] ∧ Bad [] x ∨
        Reaches (fun before => Good (x :: before)) (fun before => Bad (x :: before)) items := by
  constructor
  · rintro ⟨before, y, after, h, hgood, hbad⟩
    cases before with
    | nil =>
        obtain ⟨rfl, -⟩ := List.cons.inj h
        exact Or.inl ⟨hgood, hbad⟩
    | cons z before =>
        obtain ⟨rfl, htail⟩ := List.cons.inj h
        exact Or.inr ⟨before, y, after, htail, hgood, hbad⟩
  · rintro (⟨hgood, hbad⟩ | ⟨before, y, after, rfl, hgood, hbad⟩)
    · exact ⟨[], x, items, rfl, hgood, hbad⟩
    · exact ⟨x :: before, y, after, rfl, hgood, hbad⟩

/-- The loop stops at the first item. -/
lemma not_reaches_cons (hbad : ¬ Bad [] x) (hgood : ∀ before, ¬ Good (x :: before)) :
    ¬ Reaches Good Bad (x :: items) := by
  rw [reaches_cons]
  rintro (⟨-, h⟩ | ⟨before, y, after, -, h, -⟩)
  · exact hbad h
  · exact hgood before h

/-- The loop takes the first item and goes on as a loop with other conditions. -/
lemma reaches_cons_iff {Good' : List τ → Prop} {Bad' : List τ → τ → Prop} (hbad : ¬ Bad [] x)
    (hgood : ∀ before, Good (x :: before) ↔ Good' before)
    (hbad' : ∀ before y, Bad (x :: before) y ↔ Bad' before y) :
    Reaches Good Bad (x :: items) ↔ Reaches Good' Bad' items := by
  rw [reaches_cons]
  simp only [Reaches, hgood, hbad', hbad, and_false, false_or]

end Walks

end CheckQ
