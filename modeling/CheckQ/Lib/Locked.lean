import CheckQ.Lib.Refinement
import Mathlib.Logic.Function.Basic

/-!
# Components behind a readers-writer lock

A component has a content and operations that work on it in small steps; in between an operation
has a state of its own.  Threads call operations in any order.  An operation that only reads takes
the lock together with other readers, one that writes takes it alone, and a thread gives the lock
back when its operation is done; an operation may also return and keep the lock.

When each operation, alone on the content, does what `spec` says, then so do all operations
together, in the order in which they are done: `linearizable`.  An operation is done between its
call and its return, so this order is one that the callers can have seen.
-/

namespace CheckQ

/-- What follows on a step of an operation. -/
inductive Next (L Res : Type) where
  | go (l : L)
  -- the operation has its result; it gives back the lock or not
  | done (r : Res) (unlocks : Bool)

/-- The operations of a component. -/
structure LockedObject (σ Op Res L : Type) where
  writes : Op → Bool
  start : Op → L
  step : σ → L → Outcome (σ × Next L Res)

/-- Where a thread is. -/
inductive LockPhase (Op Res L : Type) where
  | idle
  -- the operation has been called, and waits for the lock
  | waiting (op : Op)
  | inside (op : Op) (l : L)
  -- the operation has its result, and still holds the lock
  | leaving (op : Op) (r : Res) (unlocks : Bool)

/-- The operation for which a thread holds the lock. -/
def LockPhase.holds {Op Res L : Type} : LockPhase Op Res L → Option Op
  | .inside op _ => some op
  | .leaving op _ _ => some op
  | _ => none

/-- The operation that a thread has called and that has not returned yet. -/
def LockPhase.called {Op Res L : Type} : LockPhase Op Res L → Option Op
  | .idle => none
  | .waiting op => some op
  | .inside op _ => some op
  | .leaving op _ _ => some op

/-- How the process ends. -/
inductive ProcessEnd where
  | aborted
  | faulted
deriving DecidableEq, Repr

/-- The content, the threads, and the operations that are done with their results. -/
structure LockState (σ Op Res L ι : Type) where
  content : σ
  threads : ι → LockPhase Op Res L
  log : List (Op × Res)
  ended : Option ProcessEnd

/-- The start: no thread has called an operation. -/
def LockState.initial {σ Op Res L ι : Type} (c : σ) : LockState σ Op Res L ι where
  content := c
  threads _ := .idle
  log := []
  ended := none

section System

variable {σ Op Res L ι : Type} [DecidableEq ι] (O : LockedObject σ Op Res L)

/-- The thread is in another phase. -/
def LockState.move (s : LockState σ Op Res L ι) (i : ι) (phase : LockPhase Op Res L) :
    LockState σ Op Res L ι :=
  { s with threads := Function.update s.threads i phase }

/-- A step of a thread. -/
inductive LockStep : LockState σ Op Res L ι → LockState σ Op Res L ι → Prop
  | call {s} (hs : s.ended = none) {i} (hi : s.threads i = .idle) (op : Op) :
      LockStep s (s.move i (.waiting op))
  | readLock {s} (hs : s.ended = none) {i} {op : Op} (hi : s.threads i = .waiting op)
      (hreads : O.writes op = false)
      (hfree : ∀ j op', (s.threads j).holds = some op' → O.writes op' = false) :
      LockStep s (s.move i (.inside op (O.start op)))
  | writeLock {s} (hs : s.ended = none) {i} {op : Op} (hi : s.threads i = .waiting op)
      (hwrites : O.writes op = true) (hfree : ∀ j, (s.threads j).holds = none) :
      LockStep s (s.move i (.inside op (O.start op)))
  | go {s} (hs : s.ended = none) {i} {op : Op} {l l' : L} (hi : s.threads i = .inside op l) {c : σ}
      (hstep : O.step s.content l = .ret (c, .go l')) :
      LockStep s ({ s with content := c }.move i (.inside op l'))
  | done {s} (hs : s.ended = none) {i} {op : Op} {l : L} (hi : s.threads i = .inside op l) {c : σ}
      {r : Res} {unlocks : Bool} (hstep : O.step s.content l = .ret (c, .done r unlocks)) :
      LockStep s
        ({ s with content := c, log := s.log ++ [(op, r)] }.move i (.leaving op r unlocks))
  | abort {s} (hs : s.ended = none) {i} {op : Op} {l : L} (hi : s.threads i = .inside op l)
      (hstep : O.step s.content l = .abort) : LockStep s { s with ended := some .aborted }
  | fault {s} (hs : s.ended = none) {i} {op : Op} {l : L} (hi : s.threads i = .inside op l)
      (hstep : O.step s.content l = .fault) : LockStep s { s with ended := some .faulted }
  | unlock {s} (hs : s.ended = none) {i} {op : Op} {r : Res}
      (hi : s.threads i = .leaving op r true) : LockStep s (s.move i .idle)

/-- A step in which no operation is called and none returns. -/
def InnerStep (s s' : LockState σ Op Res L ι) : Prop :=
  LockStep O s s' ∧ ∀ i, (s'.threads i).called = (s.threads i).called

end System

section Correct

variable {σ Op Res L : Type} (O : LockedObject σ Op Res L) (I : σ → Prop)
  (spec : σ → Op → Res → σ → Prop)

/-- An operation that is alone on the content goes on. -/
def OpStep (p q : σ × L) : Prop := O.step p.1 p.2 = .ret (q.1, .go q.2)

/-- What a step of an operation that has begun on the content `c` may do. -/
def StepOk (c : σ) (op : Op) (c' : σ) : Next L Res → σ → Prop
  | .go _, c'' => O.writes op = false → c'' = c'
  | .done r unlocks, c'' =>
      unlocks = true ∧ spec c op r c'' ∧ I c'' ∧ (O.writes op = false → c'' = c')

/-- Every operation that is alone on a content with `I` does what `spec` says. -/
def LockedObject.Implements : Prop :=
  ∀ c op, I c → ∀ c' l, Relation.ReflTransGen (OpStep O) (c, O.start op) (c', l) →
    (O.step c' l).Meets False True fun q => StepOk O I spec c op c' q.2 q.1

end Correct

section Runs

variable {A Op Res : Type} {spec : A → Op → Res → A → Prop}

/-- One more operation at the end. -/
lemma SpecRun.concat {a a' a'' : A} {ops : List Op} {rs : List Res} {op : Op} {r : Res}
    (h : SpecRun spec a ops rs a') (hop : spec a' op r a'') :
    SpecRun spec a (ops ++ [op]) (rs ++ [r]) a'' := by
  induction h with
  | nil a => exact .cons hop (.nil a'')
  | cons h₁ _ ih => exact .cons h₁ (ih hop)

/-- What one operation of a component allows, seen from a more abstract one. -/
lemma SpecRun.simulates {B : Type} {spec' : B → Op → Res → B → Prop} {R : B → A → Prop}
    (hstep : ∀ b a op r a', R b a → spec a op r a' → ∃ b', spec' b op r b' ∧ R b' a')
    {a a' : A} {ops : List Op} {rs : List Res} (h : SpecRun spec a ops rs a') {b : B} (hb : R b a) :
    ∃ b', SpecRun spec' b ops rs b' ∧ R b' a' := by
  induction h generalizing b with
  | nil a => exact ⟨b, .nil b, hb⟩
  | cons h₁ _ ih =>
      obtain ⟨b₁, hspec, hb₁⟩ := hstep b _ _ _ _ hb h₁
      obtain ⟨b', hrun, hb'⟩ := ih hb₁
      exact ⟨b', .cons hspec hrun, hb'⟩

end Runs

/-! ### The invariant -/

section Linearizable

variable {σ Op Res L ι : Type} [DecidableEq ι] {O : LockedObject σ Op Res L} {I : σ → Prop}
  {spec : σ → Op → Res → σ → Prop} {c₀ c : σ} {s s' : LockState σ Op Res L ι}

/-- What holds in every state of a run: the operations that are done have led to `c`, every
operation that has begun has worked alone on it, and nobody else is inside with a writer. -/
structure LockInv (O : LockedObject σ Op Res L) (I : σ → Prop) (spec : σ → Op → Res → σ → Prop)
    (c₀ c : σ) (s : LockState σ Op Res L ι) : Prop where
  good : I c
  run : SpecRun spec c₀ (s.log.map Prod.fst) (s.log.map Prod.snd) c
  begun : ∀ i op l, s.threads i = .inside op l →
    Relation.ReflTransGen (OpStep O) (c, O.start op) (s.content, l)
  released : ∀ i op r unlocks, s.threads i = .leaving op r unlocks → unlocks = true
  alone : ∀ i j op op', i ≠ j → (s.threads i).holds = some op → (s.threads j).holds = some op' →
    O.writes op = false
  settled : (∀ i op l, s.threads i = .inside op l → O.writes op = false) → s.content = c
  safe : s.ended ≠ some .faulted

lemma phase_move {i j : ι} {phase : LockPhase Op Res L} :
    (s.move i phase).threads j = if j = i then phase else s.threads j :=
  Function.update_apply ..

/-- A thread that keeps the lock for its operation. -/
lemma holds_move {i : ι} {op : Op} {phase : LockPhase Op Res L}
    (hi : (s.threads i).holds = some op) (hphase : phase.holds = some op) (j : ι) :
    ((s.move i phase).threads j).holds = (s.threads j).holds := by
  rw [phase_move]
  split
  · rename_i hji
    rw [hji, hi, hphase]
  · rfl

namespace LockInv

omit [DecidableEq ι] in
lemma initial (hc : I c₀) : LockInv O I spec c₀ c₀ (.initial (ι := ι) c₀) where
  good := hc
  run := .nil c₀
  begun _ _ _ h := by cases h
  released _ _ _ _ h := by cases h
  alone _ _ _ _ _ h := by cases h
  settled _ := rfl
  safe := by simp [LockState.initial]

/-- A thread that is not inside, before and after. -/
lemma outside (h : LockInv O I spec c₀ c s) {i : ι} {phase : LockPhase Op Res L}
    (hi : ∀ op l, s.threads i ≠ .inside op l) (hphase : phase.holds = none) :
    LockInv O I spec c₀ c (s.move i phase) := by
  have hinside : ∀ op l, phase ≠ .inside op l := by
    rintro op l rfl
    cases hphase
  refine ⟨h.good, h.run, ?_, ?_, ?_, ?_, h.safe⟩
  · intro j op l hj
    rw [phase_move] at hj
    split at hj
    · exact absurd hj (hinside op l)
    · exact h.begun j op l hj
  · intro j op r unlocks hj
    rw [phase_move] at hj
    split at hj
    · rw [hj] at hphase
      cases hphase
    · exact h.released j op r unlocks hj
  · intro j k op op' hne hj hk
    rw [phase_move] at hj hk
    split at hj
    · rw [hphase] at hj
      cases hj
    · split at hk
      · rw [hphase] at hk
        cases hk
      · exact h.alone j k op op' hne hj hk
  · intro hall
    refine h.settled fun j op l hj => hall j op l ?_
    rw [phase_move, if_neg]
    · exact hj
    · rintro rfl
      exact hi op l hj

/-- A thread gets the lock. -/
lemma acquire (h : LockInv O I spec c₀ c s) {i : ι} {op : Op}
    (hfree : ∀ j op', (s.threads j).holds = some op' → O.writes op' = false)
    (halone : ∀ j op', (s.threads j).holds = some op' → O.writes op = false) :
    LockInv O I spec c₀ c (s.move i (.inside op (O.start op))) := by
  have hcontent : s.content = c :=
    h.settled fun j op' l hj => hfree j op' (by rw [hj]; rfl)
  refine ⟨h.good, h.run, ?_, ?_, ?_, ?_, h.safe⟩
  · intro j op' l hj
    rw [phase_move] at hj
    split at hj
    · cases hj
      rw [show (s.move i (.inside op (O.start op))).content = c from hcontent]
    · exact h.begun j op' l hj
  · intro j op' r unlocks hj
    rw [phase_move] at hj
    split at hj
    · cases hj
    · exact h.released j op' r unlocks hj
  · intro j k op₁ op₂ hne hj hk
    rw [phase_move] at hj hk
    split at hj
    · cases hj
      rename_i hji
      rw [if_neg fun hki => hne (hji.trans hki.symm)] at hk
      exact halone k op₂ hk
    · exact hfree j op₁ hj
  · exact fun _ => hcontent

/-- A reader leaves the content as it is. -/
lemma reader (h : LockInv O I spec c₀ c s) {i : ι} {op : Op} {l : L}
    (hi : s.threads i = .inside op l) (hreads : O.writes op = false) : s.content = c := by
  refine h.settled fun j op' l' hj => ?_
  by_cases hji : j = i
  · subst hji
    rw [hi] at hj
    cases hj
    exact hreads
  · exact h.alone j i op' op hji (by rw [hj]; rfl) (by rw [hi]; rfl)

omit [DecidableEq ι] in
/-- Beside a writer nobody is inside. -/
lemma writer (h : LockInv O I spec c₀ c s) {i j : ι} {op : Op} {l : L}
    (hi : s.threads i = .inside op l) (hwrites : O.writes op = true) (hne : j ≠ i) :
    (s.threads j).holds = none := by
  rcases hj : (s.threads j).holds with _ | op'
  · rfl
  · have hreads := h.alone i j op op' hne.symm (by rw [hi]; rfl) hj
    rw [hwrites] at hreads
    cases hreads

/-- A thread goes on with its operation. -/
lemma go (hO : O.Implements I spec) (h : LockInv O I spec c₀ c s) {i : ι} {op : Op} {l l' : L}
    (hi : s.threads i = .inside op l) {c' : σ} (hstep : O.step s.content l = .ret (c', .go l')) :
    LockInv O I spec c₀ c ({ s with content := c' }.move i (.inside op l')) := by
  have hbegun := h.begun i op l hi
  have hok := hO c op h.good _ _ hbegun
  rw [hstep] at hok
  have hkeep : O.writes op = false → c' = s.content := hok
  refine ⟨h.good, h.run, ?_, ?_, ?_, ?_, h.safe⟩
  · intro j op' m hj
    rw [phase_move] at hj
    split at hj
    · cases hj
      exact hbegun.tail hstep
    · rename_i hji
      cases hwrites : O.writes op with
      | false =>
          rw [show LockState.content _ = s.content from hkeep hwrites]
          exact h.begun j op' m hj
      | true =>
          have hnone := h.writer hi hwrites hji
          rw [show s.threads j = _ from hj] at hnone
          cases hnone
  · intro j op' r unlocks hj
    rw [phase_move] at hj
    split at hj
    · cases hj
    · exact h.released j op' r unlocks hj
  · intro j k op₁ op₂ hne hj hk
    rw [holds_move (by exact congrArg LockPhase.holds hi) rfl] at hj hk
    exact h.alone j k op₁ op₂ hne hj hk
  · intro hall
    have hreads : O.writes op = false := hall i op l' (by rw [phase_move, if_pos rfl])
    exact (hkeep hreads).trans (h.reader hi hreads)

/-- A thread is done with its operation. -/
lemma done (hO : O.Implements I spec) (h : LockInv O I spec c₀ c s) {i : ι} {op : Op} {l : L}
    (hi : s.threads i = .inside op l) {c' : σ} {r : Res} {unlocks : Bool}
    (hstep : O.step s.content l = .ret (c', .done r unlocks)) :
    LockInv O I spec c₀ c'
      ({ s with content := c', log := s.log ++ [(op, r)] }.move i (.leaving op r unlocks)) := by
  have hok := hO c op h.good _ _ (h.begun i op l hi)
  rw [hstep] at hok
  obtain ⟨hunlocks, hspec, hgood, hkeep⟩ := hok
  refine ⟨hgood, ?_, ?_, ?_, ?_, ?_, h.safe⟩
  · show SpecRun spec c₀ ((s.log ++ [(op, r)]).map Prod.fst) ((s.log ++ [(op, r)]).map Prod.snd) c'
    rw [List.map_append, List.map_append]
    exact h.run.concat hspec
  · intro j op' m hj
    rw [phase_move] at hj
    split at hj
    · cases hj
    · rename_i hji
      cases hwrites : O.writes op with
      | false =>
          have hcontent := h.reader hi hwrites
          have hsame : c' = c := (hkeep hwrites).trans hcontent
          have hbegun := h.begun j op' m hj
          rw [hcontent, ← hsame] at hbegun
          exact hbegun
      | true =>
          have hnone := h.writer hi hwrites hji
          rw [show s.threads j = _ from hj] at hnone
          cases hnone
  · intro j op' r' unlocks' hj
    rw [phase_move] at hj
    split at hj
    · cases hj
      exact hunlocks
    · exact h.released j op' r' unlocks' hj
  · intro j k op₁ op₂ hne hj hk
    rw [holds_move (by exact congrArg LockPhase.holds hi) rfl] at hj hk
    exact h.alone j k op₁ op₂ hne hj hk
  · exact fun _ => rfl

/-- A step as the callers see it: only the end of an operation counts. -/
lemma step_cases (hO : O.Implements I spec) (h : LockInv O I spec c₀ c s)
    (hstep : LockStep O s s') :
    (LockInv O I spec c₀ c s' ∧ s'.log = s.log ∧ ∀ j op r unlocks,
      s'.threads j = .leaving op r unlocks → s.threads j = .leaving op r unlocks) ∨
    ∃ i op r c', (s.threads i).called = some op ∧ spec c op r c' ∧
      LockInv O I spec c₀ c' s' ∧ s'.log = s.log ++ [(op, r)] ∧
      s'.threads = Function.update s.threads i (.leaving op r true) := by
  have hmove : ∀ {i : ι} {phase : LockPhase Op Res L}, (∀ op r unlocks,
      phase ≠ .leaving op r unlocks) → ∀ j op r unlocks,
      (s.move i phase).threads j = .leaving op r unlocks →
      s.threads j = .leaving op r unlocks := by
    intro i phase hphase j op r unlocks hj
    rw [phase_move] at hj
    split at hj
    · exact absurd hj (hphase op r unlocks)
    · exact hj
  cases hstep with
  | call hs hi op => exact Or.inl ⟨h.outside (by rw [hi]; simp) rfl, rfl, hmove (by simp)⟩
  | readLock hs hi hreads hfree =>
      exact Or.inl ⟨h.acquire hfree fun _ _ _ => hreads, rfl, hmove (by simp)⟩
  | writeLock hs hi hwrites hfree =>
      have hnone : ∀ j op', (s.threads j).holds ≠ some op' := by
        intro j op' hj
        rw [hfree j] at hj
        cases hj
      exact Or.inl ⟨h.acquire (fun j op' hj => absurd hj (hnone j op'))
        fun j op' hj => absurd hj (hnone j op'), rfl, hmove (by simp)⟩
  | go hs hi hstep => exact Or.inl ⟨h.go hO hi hstep, rfl, hmove (by simp)⟩
  | @done hs i op l hi c' r unlocks hstep =>
      have hok := hO c op h.good _ _ (h.begun i op l hi)
      rw [hstep] at hok
      obtain ⟨rfl, hspec, -⟩ := hok
      exact Or.inr ⟨i, op, r, c', by rw [hi]; rfl, hspec, h.done hO hi hstep, rfl, rfl⟩
  | abort hs hi hstep =>
      exact Or.inl ⟨⟨h.good, h.run, h.begun, h.released, h.alone, h.settled, by simp⟩, rfl,
        fun _ _ _ _ hj => hj⟩
  | fault hs hi hstep =>
      have hok := hO c _ h.good _ _ (h.begun _ _ _ hi)
      rw [hstep] at hok
      exact hok.elim
  | unlock hs hi => exact Or.inl ⟨h.outside (by rw [hi]; simp) rfl, rfl, hmove (by simp)⟩

lemma step (hO : O.Implements I spec) (h : LockInv O I spec c₀ c s) (hstep : LockStep O s s') :
    ∃ c', LockInv O I spec c₀ c' s' := by
  rcases h.step_cases hO hstep with ⟨h', -⟩ | ⟨i, op, r, c', -, -, h', -⟩
  · exact ⟨c, h'⟩
  · exact ⟨c', h'⟩

end LockInv

/-- **A component behind a readers-writer lock is linearizable.**  In every run of threads that call
its operations in any order, the operations that are done have given the results that they give one
after the other, in the order in which they are done; nothing undefined happens, no operation keeps
the lock, and whenever no writer is inside the content is the one that these operations lead to. -/
theorem linearizable (hO : O.Implements I spec) (hc : I c₀)
    (hrun : Relation.ReflTransGen (LockStep O) (.initial (ι := ι) c₀) s) :
    ∃ c, LockInv O I spec c₀ c s := by
  induction hrun with
  | refl => exact ⟨c₀, LockInv.initial hc⟩
  | tail _ hstep ih =>
      obtain ⟨c, hinv⟩ := ih
      exact hinv.step hO hstep

/-! ### A thread that is alone -/

lemma called_of_update {i : ι} {phase : LockPhase Op Res L}
    (hphase : phase.called = (s.threads i).called) (j : ι) :
    ((s.move i phase).threads j).called = (s.threads j).called := by
  rw [phase_move]
  split
  · rename_i hji
    rw [hji, hphase]
  · rfl

/-- Nobody holds the lock. -/
def LockState.Free (s : LockState σ Op Res L ι) : Prop := ∀ i, (s.threads i).holds = none

omit [DecidableEq ι] in
lemma LockState.free_initial : (LockState.initial c : LockState σ Op Res L ι).Free := fun _ => rfl

lemma LockState.Free.move (h : s.Free) {i : ι} {phase : LockPhase Op Res L}
    (hphase : phase.holds = none) : (s.move i phase).Free := by
  intro j
  rw [phase_move]
  split
  · exact hphase
  · exact h j

lemma lockSteps_of_inner (h : Relation.ReflTransGen (InnerStep O) s s') :
    Relation.ReflTransGen (LockStep O) s s' :=
  Relation.ReflTransGen.mono (fun _ _ hstep => hstep.1) _ _ h

/-- The accesses of one thread. -/
lemma inner_ops (hs : s.ended = none) {i : ι} {op : Op} {l : L} (hi : s.threads i = .inside op l)
    {q : σ × L} (hops : Relation.ReflTransGen (OpStep O) (s.content, l) q) :
    Relation.ReflTransGen (InnerStep O) s ({ s with content := q.1 }.move i (.inside op q.2)) := by
  induction hops with
  | refl =>
      have hself : ({ s with content := s.content } : LockState σ Op Res L ι).move i (.inside op l)
          = s := by
        rw [LockState.move, ← hi, Function.update_eq_self]
      rw [hself]
  | @tail p q _ hstep ih =>
      have hstep' : O.step p.1 p.2 = .ret (q.1, .go q.2) := hstep
      refine ih.tail ?_
      have hgo := LockStep.go (s := { s with content := p.1 }.move i (.inside op p.2)) hs
        (by rw [phase_move, if_pos rfl]) hstep'
      simp only [LockState.move, Function.update_idem] at hgo
      refine ⟨hgo, fun j => ?_⟩
      show (Function.update s.threads i _ j).called = (Function.update s.threads i _ j).called
      rw [Function.update_apply, Function.update_apply]
      split <;> rfl

/-- A thread that waits for a free lock can run its operation to the end. -/
lemma inner_run (hs : s.ended = none) {i : ι} {op : Op} (hi : s.threads i = .waiting op)
    (hfree : s.Free) {c' : σ} {l : L}
    (hops : Relation.ReflTransGen (OpStep O) (s.content, O.start op) (c', l)) {c'' : σ} {r : Res}
    {unlocks : Bool} (hdone : O.step c' l = .ret (c'', .done r unlocks)) :
    Relation.ReflTransGen (InnerStep O) s
      ({ s with content := c'', log := s.log ++ [(op, r)] }.move i (.leaving op r unlocks)) := by
  have hcalled : ∀ (phase : LockPhase Op Res L), phase.called = some op → ∀ j,
      ((s.move i phase).threads j).called = (s.threads j).called :=
    fun phase hphase => called_of_update (by rw [hphase, hi]; rfl)
  have hlock : InnerStep O s (s.move i (.inside op (O.start op))) := by
    refine ⟨?_, hcalled _ rfl⟩
    cases hwrites : O.writes op with
    | true => exact .writeLock hs hi hwrites hfree
    | false =>
        refine .readLock hs hi hwrites fun j op' hj => ?_
        rw [hfree j] at hj
        cases hj
  have hinside : (s.move i (.inside op (O.start op))).threads i = .inside op (O.start op) := by
    rw [phase_move, if_pos rfl]
  have hrun := inner_ops (s := s.move i (.inside op (O.start op))) hs hinside hops
  simp only [LockState.move, Function.update_idem] at hrun
  have hend := LockStep.done (s := { s with content := c' }.move i (.inside op l)) hs
    (by rw [phase_move, if_pos rfl]) hdone
  simp only [LockState.move, Function.update_idem] at hend
  refine ((Relation.ReflTransGen.single hlock).trans hrun).tail ⟨hend, fun j => ?_⟩
  exact (hcalled (.leaving op r unlocks) rfl j).trans (hcalled (.inside op l) rfl j).symm

end Linearizable

end CheckQ
