import CheckQ.Lib.Refinement
import Mathlib.Algebra.BigOperators.Group.Finset.Basic
import Mathlib.Data.Fintype.BigOperators
import Mathlib.Data.Fin.VecNotation
import Mathlib.Tactic.FinCases

/-!
# The request counters

Every successful statement is counted twice: in `eng_ctx->stats` of its thread, which
`engine_thread` adds to `total_request` under a lock when it ends, and in the global
`g_stat`, from which `stat_thread` prints.  The global counter is written by

    g_stat.n = __sync_add_and_fetch(&g_stat.n, 1);

which is an atomic addition and a separate store of its result.  The threads here take these
steps one at a time and in any order.  A store that comes after another thread's addition puts
the counter back; in the runs without such a store the two counts agree at the end.
-/

namespace CheckQ

/-- The counters of `struct eng_stats`. -/
inductive StatCounter where
  | ninsert
  | nupdate
  | ndelete
  | nselect
deriving DecidableEq, Repr

/-- Values of the four counters. -/
abbrev EngStats := StatCounter → ℕ

/-- The sum that `stat_thread` prints and `engine_thread` adds up. -/
def EngStats.sum (st : EngStats) : ℕ := st .ninsert + st .nupdate + st .ndelete + st .nselect

/-- Count one. -/
def EngStats.incr (st : EngStats) (c : StatCounter) : EngStats := Function.update st c (st c + 1)

/-- A successful command of a traversal; a select counts once for the write server and once
for each read server that answers. -/
inductive Request where
  | insert
  | update
  | delete
  | select (answers : ℕ)
deriving DecidableEq, Repr

/-- The counters a command counts in, in order. -/
def Request.counters : Request → List StatCounter
  | .insert => [.ninsert]
  | .update => [.nupdate]
  | .delete => [.ndelete]
  | .select answers => List.replicate (answers + 1) .nselect

/-- Where a thread is. -/
inductive StatPc where
  -- before the next count, or before the lock of `total_request`
  | ready
  -- `eng_ctx->stats.n ++` is done
  | counted (c : StatCounter)
  -- the atomic addition is done and its result has not been stored
  | added (c : StatCounter) (result : ℕ)
  -- the thread has added its counts to `total_request`
  | finished
deriving DecidableEq, Repr

/-- An engine thread: the counts still to come, its own counters and its position. -/
structure StatThread where
  todo : List StatCounter
  stats : EngStats
  pc : StatPc

/-- `g_stat`, `total_request` and the engine threads. -/
structure StatState (ι : Type) where
  gStat : EngStats
  totalRequest : ℕ
  threads : ι → StatThread

variable {ι : Type} [DecidableEq ι]

/-- The start of a run in which the thread `i` executes the commands `prog i`. -/
def StatState.initial (prog : ι → List Request) : StatState ι where
  gStat := fun _ => 0
  totalRequest := 0
  threads := fun i => ⟨(prog i).flatMap Request.counters, fun _ => 0, .ready⟩

/-- The next step of the thread `i`. -/
def statStep (s : StatState ι) (i : ι) : Option (StatState ι) :=
  let t := s.threads i
  match t.pc with
  | .ready =>
      match t.todo with
      | c :: todo =>
          some { s with threads := Function.update s.threads i ⟨todo, t.stats.incr c, .counted c⟩ }
      | [] =>
          some { s with
            totalRequest := s.totalRequest + t.stats.sum
            threads := Function.update s.threads i { t with pc := .finished } }
  | .counted c =>
      some { s with
        gStat := s.gStat.incr c
        threads := Function.update s.threads i { t with pc := .added c (s.gStat c + 1) } }
  | .added c result =>
      some { s with
        gStat := Function.update s.gStat c result
        threads := Function.update s.threads i { t with pc := .ready } }
  | .finished => none

/-- The next step of the thread `i` does not store a value that is out of date: a store finds
the counter as the thread's own addition left it. -/
def storesFresh (s : StatState ι) (i : ι) : Bool :=
  match (s.threads i).pc with
  | .added c result => s.gStat c == result
  | _ => true

/-- One step of some thread. -/
def StatStep (s s' : StatState ι) : Prop := ∃ i, statStep s i = some s'

/-- One step of some thread that stores no value out of date. -/
def FreshStep (s s' : StatState ι) : Prop :=
  ∃ i, storesFresh s i = true ∧ statStep s i = some s'

/-- All engine threads have ended. -/
def StatState.allFinished (s : StatState ι) : Prop := ∀ i, (s.threads i).pc = .finished

/-! ### The invariant -/

/-- One when the thread has counted for itself and not yet in `g_stat`. -/
def StatThread.pending (t : StatThread) : ℕ :=
  match t.pc with
  | .counted _ => 1
  | _ => 0

/-- What the thread has added to `total_request`. -/
def StatThread.handedIn (t : StatThread) : ℕ :=
  match t.pc with
  | .finished => t.stats.sum
  | _ => 0

/-- The counts of the threads are those of `g_stat` and the pending ones, and `total_request`
has the counts of the threads that have ended. -/
structure StatInv [Fintype ι] (s : StatState ι) : Prop where
  counted : ∑ i, (s.threads i).stats.sum = s.gStat.sum + ∑ i, (s.threads i).pending
  handedIn : s.totalRequest = ∑ i, (s.threads i).handedIn

lemma EngStats.sum_incr (st : EngStats) (c : StatCounter) : (st.incr c).sum = st.sum + 1 := by
  cases c <;> simp [EngStats.sum, EngStats.incr] <;> omega

omit [DecidableEq ι] in
lemma statInv_initial [Fintype ι] (prog : ι → List Request) :
    StatInv (StatState.initial prog) := by
  constructor
  · simp [StatState.initial, EngStats.sum, StatThread.pending]
  · simp [StatState.initial, StatThread.handedIn]

/-- Replacing one thread changes a sum over the threads in its term. -/
lemma sum_update [Fintype ι] (φ : StatThread → ℕ) (threads : ι → StatThread) (i : ι)
    (t : StatThread) :
    ∑ j, φ (Function.update threads i t j) + φ (threads i) = ∑ j, φ (threads j) + φ t := by
  have hcomp : (fun j => φ (Function.update threads i t j))
      = Function.update (fun j => φ (threads j)) i (φ t) := by
    ext j
    by_cases hj : j = i
    · subst hj
      simp
    · simp [hj]
  rw [hcomp, Finset.sum_update_of_mem (Finset.mem_univ i), Finset.sdiff_singleton_eq_erase,
    ← Finset.add_sum_erase Finset.univ (fun j => φ (threads j)) (Finset.mem_univ i)]
  omega

/-- The invariant is about sums, so it is enough to look at the thread that moves. -/
lemma StatInv.move [Fintype ι] {s : StatState ι} (hinv : StatInv s) {i : ι} {g : EngStats}
    {total : ℕ} {t : StatThread}
    (hcount : t.stats.sum + s.gStat.sum + (s.threads i).pending
      = (s.threads i).stats.sum + g.sum + t.pending)
    (hhand : total + (s.threads i).handedIn = s.totalRequest + t.handedIn) :
    StatInv ⟨g, total, Function.update s.threads i t⟩ := by
  have hsum := sum_update (fun t => t.stats.sum) s.threads i t
  have hpend := sum_update StatThread.pending s.threads i t
  have hhanded := sum_update StatThread.handedIn s.threads i t
  have hinvCount := hinv.counted
  have hinvHand := hinv.handedIn
  constructor
  · dsimp only at hsum ⊢
    omega
  · dsimp only
    omega

/-- A step that stores no value out of date keeps the invariant. -/
lemma StatInv.step [Fintype ι] {s s' : StatState ι} (hinv : StatInv s) {i : ι}
    (hfresh : storesFresh s i = true) (hstep : statStep s i = some s') : StatInv s' := by
  simp only [statStep] at hstep
  rcases hpc : (s.threads i).pc with _ | c | ⟨c, result⟩ | _
  · rcases htodo : (s.threads i).todo with _ | ⟨c, todo⟩
    · -- the counts of the thread go to `total_request`
      simp only [hpc, htodo, Option.some.injEq] at hstep
      subst hstep
      refine hinv.move ?_ ?_
      · simp only [StatThread.pending, hpc]
      · simp only [StatThread.handedIn, hpc]
        omega
    · -- the thread counts for itself
      simp only [hpc, htodo, Option.some.injEq] at hstep
      subst hstep
      refine hinv.move ?_ ?_
      · simp only [StatThread.pending, hpc, EngStats.sum_incr]
        omega
      · simp only [StatThread.handedIn, hpc]
  · -- the atomic addition
    simp only [hpc, Option.some.injEq] at hstep
    subst hstep
    refine hinv.move ?_ ?_
    · simp only [StatThread.pending, hpc, EngStats.sum_incr]
      omega
    · simp only [StatThread.handedIn, hpc]
  · -- the store writes what is there
    have hsame : Function.update s.gStat c result = s.gStat := by
      simp only [storesFresh, hpc, beq_iff_eq] at hfresh
      rw [← hfresh, Function.update_eq_self]
    simp only [hpc, hsame, Option.some.injEq] at hstep
    subst hstep
    refine hinv.move ?_ ?_
    · simp only [StatThread.pending, hpc]
    · simp only [StatThread.handedIn, hpc]
  · simp [hpc] at hstep

/-- The invariant along a run. -/
lemma statInv_of_run [Fintype ι] {prog : ι → List Request} {s : StatState ι}
    (hrun : Relation.ReflTransGen FreshStep (StatState.initial prog) s) : StatInv s := by
  induction hrun with
  | refl => exact statInv_initial prog
  | tail _ hstep ih =>
      obtain ⟨i, hfresh, hstep⟩ := hstep
      exact ih.step hfresh hstep

/-- **The two request counts agree** at the end of every run in which no thread stores a value
that is out of date. -/
theorem request_counts_agree [Fintype ι] (prog : ι → List Request) (s : StatState ι)
    (hrun : Relation.ReflTransGen FreshStep (StatState.initial prog) s) (hend : s.allFinished) :
    s.gStat.sum = s.totalRequest := by
  obtain ⟨hcount, hhand⟩ := statInv_of_run hrun
  have hpending : ∀ i, (s.threads i).pending = 0 := by
    intro i
    simp [StatThread.pending, hend i]
  have hhanded : ∀ i, (s.threads i).handedIn = (s.threads i).stats.sum := by
    intro i
    simp [StatThread.handedIn, hend i]
  simp only [hpending, Finset.sum_const_zero, Nat.add_zero] at hcount
  simp only [hhanded] at hhand
  rw [hhand, hcount]

/-! ### Two threads -/

/-- One thread inserts while the other one, which selects on one read server, is between two of
its counts. -/
theorem request_counts_agree_two :
    ∃ s : StatState (Fin 2),
      Relation.ReflTransGen FreshStep (StatState.initial ![[.insert], [.select 1]]) s ∧
        s.allFinished ∧ s.gStat.sum = s.totalRequest := by
  let run := runSchedule statStep storesFresh [1, 1, 1, 0, 0, 0, 1, 1, 1, 0, 1]
    (StatState.initial ![[.insert], [.select 1]])
  have hsome : run.isSome = true := by decide
  have hrun : Relation.ReflTransGen FreshStep (StatState.initial ![[.insert], [.select 1]])
      (run.get hsome) :=
    run_of_schedule (fun s i s' hok hstep => ⟨i, hok, hstep⟩) (Option.some_get hsome).symm
  have hend : (run.get hsome).allFinished := by
    intro i
    fin_cases i <;> rfl
  exact ⟨run.get hsome, hrun, hend, request_counts_agree _ _ hrun hend⟩

/-- Two threads insert once each, and the store of the first addition comes after the store of
the second: `g_stat` ends with one insert and `total_request` with two. -/
theorem request_counts_lost :
    ∃ s : StatState (Fin 2),
      Relation.ReflTransGen StatStep (StatState.initial ![[.insert], [.insert]]) s ∧
        s.allFinished ∧ s.gStat.sum ≠ s.totalRequest := by
  let run := runSchedule statStep (fun _ _ => true) [0, 0, 1, 1, 1, 0, 0, 1]
    (StatState.initial ![[.insert], [.insert]])
  have hsome : run.isSome = true := by decide
  refine ⟨run.get hsome, ?_, ?_, ?_⟩
  · exact run_of_schedule (fun s i s' _ hstep => ⟨i, hstep⟩) (Option.some_get hsome).symm
  · intro i
    fin_cases i <;> rfl
  · have hsum : (run.get hsome).gStat.sum = 1 := rfl
    have htotal : (run.get hsome).totalRequest = 2 := rfl
    omega

end CheckQ
