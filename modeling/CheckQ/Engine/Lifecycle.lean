import CheckQ.Engine.Sleep
import CheckQ.Lib.Progress
import Mathlib.Algebra.BigOperators.Group.Finset.Basic
import Mathlib.Algebra.Order.BigOperators.Group.Finset

/-!
# From the start of the threads to their end

`start_engine` creates the threads one after another and joins them, all but `time_thread`, which
detaches itself.  `alter_thread` and the engine threads wait in `while (!has_first_table)` for
`table_thread` to create a table; all threads look at `is_thread_run` between two rounds.  An
engine thread takes the commands of a traversal one at a time, and hands in its counts at the end.
When a thread cannot be created the process exits.

The clock, `time_thread`, `table_thread` and `alter_thread` are those of `ClockState`.

* `start_engine_returned`: what holds when `start_engine` returns and `clean_env` follows.
* `start_engine_returns_iff`: from which states it can still return.
* `shutdown_bounded`: how many steps are left once the flag is cleared.
-/

namespace CheckQ

/-- What the threads read of the options. -/
structure LifeConfig extends ClockConfig where
  gEngineThreadNum : Int

/-- `engine_thread_num`. -/
def LifeConfig.engineThreadNum (cfg : LifeConfig) : ℕ :=
  (if cfg.gEngineThreadNum > 300 then 300 else cfg.gEngineThreadNum).toNat

/-- Where `main` is in `start_engine`. -/
inductive MainPc where
  | createTable
  | createAlter
  | createTime
  -- the loop over the engine threads
  | createEngine (i : ℕ)
  | createStat
  | joinAlter
  | joinTable
  | joinStat
  -- the second loop over the engine threads
  | joinEngine (i : ℕ)
  | returned
  -- `exit(EXIT_FAILURE)`
  | exited
deriving DecidableEq, Repr

/-- Where an engine thread is. -/
inductive EnginePc where
  -- `while (!has_first_table)`
  | wait
  -- before `while (is_thread_run)`
  | test
  -- in `travel_command_list`, with some commands left
  | travel (left : ℕ)
  -- before `my_lock(&total_request_lock)`
  | handIn
  | done
deriving DecidableEq, Repr

/-- Where `stat_thread` is. -/
inductive ReportPc where
  | test
  | asleep
  | done
deriving DecidableEq, Repr

/-- The threads of the process. -/
inductive LifeThread where
  | time
  | sleeper (t : SleepThread)
  | engine (i : ℕ)
  | stat
deriving DecidableEq, Repr

/-- The process. -/
structure LifeState where
  clk : ClockState
  main : MainPc
  engines : ℕ → EnginePc
  stat : ReportPc

/-- A step: the clock moves on, `pthread_create` succeeds or not, or a thread goes on; an engine
thread that starts a traversal gets a list with some number of commands. -/
inductive LifeAction where
  | tick (d : ℕ)
  | main (ok : Bool)
  | time
  | sleeper (t : SleepThread) (event : SleepEvent)
  | engine (i : ℕ) (ncmd : ℕ)
  | stat
deriving DecidableEq, Repr

/-- The start of the program at the time `clock`. -/
def LifeState.initial (clock : Int) : LifeState where
  clk := .initial clock
  main := .createTable
  engines _ := .wait
  stat := .test

/-- The threads that have been created when `main` is at a place. -/
def MainPc.hasCreated (cfg : LifeConfig) : MainPc → LifeThread → Bool
  | .exited, _ => false
  | .createTable, _ => false
  | .createAlter, th => th = .sleeper .table
  | .createTime, th => th = .sleeper .table || th = .sleeper .alter
  | .createEngine j, .engine i => i < j && i < cfg.engineThreadNum
  | _, .engine i => i < cfg.engineThreadNum
  | .createEngine _, .stat => false
  | .createStat, .stat => false
  | _, _ => true

section Steps

variable (cfg : LifeConfig)

/-- A step of `start_engine`. -/
def mainStep (s : LifeState) (ok : Bool) : Option LifeState :=
  let create (pc : MainPc) : Option LifeState := some { s with main := if ok then pc else .exited }
  let join (ended : Bool) (pc : MainPc) : Option LifeState :=
    if ended then some { s with main := pc } else none
  match s.main with
  | .createTable => create .createAlter
  | .createAlter => create .createTime
  | .createTime => create (.createEngine 0)
  | .createEngine i =>
      if i < cfg.engineThreadNum then create (.createEngine (i + 1))
      else some { s with main := .createStat }
  | .createStat => create .joinAlter
  | .joinAlter => join ((s.clk.threads .alter).pc = .done) .joinTable
  | .joinTable => join ((s.clk.threads .table).pc = .done) .joinStat
  | .joinStat => join (s.stat = .done) (.joinEngine 0)
  | .joinEngine i =>
      if i < cfg.engineThreadNum then join (s.engines i = .done) (.joinEngine (i + 1))
      else some { s with main := .returned }
  | .returned => none
  | .exited => none

/-- A step of an engine thread. -/
def engineStep (s : LifeState) (i ncmd : ℕ) : Option LifeState :=
  let goto (pc : EnginePc) : Option LifeState :=
    some { s with engines := Function.update s.engines i pc }
  match s.engines i with
  | .wait => goto (if s.clk.hasFirstTable then .test else .wait)
  | .test => goto (if s.clk.isThreadRun then .travel ncmd else .handIn)
  | .travel (left + 1) => goto (.travel left)
  | .travel 0 => goto .test
  | .handIn => goto .done
  | .done => none

/-- A step of `stat_thread`. -/
def reportStep (s : LifeState) : Option LifeState :=
  match s.stat with
  | .test => some { s with stat := if s.clk.isThreadRun then .asleep else .done }
  | .asleep => some { s with stat := .test }
  | .done => none

/-- One step; a thread that has not been created takes none. -/
def lifeStep (s : LifeState) : LifeAction → Option LifeState
  | .tick d => (clockStep cfg.toClockConfig s.clk (.tick d)).map fun clk => { s with clk }
  | .main ok => mainStep cfg s ok
  | .time =>
      if s.main.hasCreated cfg .time then
        (timeStep cfg.toClockConfig s.clk).map fun clk => { s with clk }
      else none
  | .sleeper t event =>
      if s.main.hasCreated cfg (.sleeper t) then
        (sleepStep cfg.toClockConfig s.clk t event).map fun clk => { s with clk }
      else none
  | .engine i ncmd => if s.main.hasCreated cfg (.engine i) then engineStep s i ncmd else none
  | .stat => if s.main.hasCreated cfg .stat then reportStep s else none

/-- One step of the process or of the clock. -/
def LifeStep (s s' : LifeState) : Prop := ∃ act, lifeStep cfg s act = some s'

end Steps

/-! ### The rounds of the threads that sleep -/

/-- One step of a round, for a thread that finds the flags as they are. -/
inductive SleepRound (isThreadRun hasFirstTable : Bool) : SleepLocals → SleepLocals → Prop
  | spin {l : SleepLocals} (h : l.pc = .wait) (hfirst : hasFirstTable = false) :
      SleepRound isThreadRun hasFirstTable l l
  | go {l : SleepLocals} (h : l.pc = .wait) (hfirst : hasFirstTable = true) :
      SleepRound isThreadRun hasFirstTable l ⟨.test, none, none⟩
  | test {l : SleepLocals} (h : l.pc = .test) :
      SleepRound isThreadRun hasFirstTable l ⟨if isThreadRun then .work else .done, none, none⟩
  | work {l : SleepLocals} (h : l.pc = .work) :
      SleepRound isThreadRun hasFirstTable l ⟨.remaining, none, none⟩
  | readEnd {l : SleepLocals} (h : l.pc = .remaining) (hend : l.endTime = none) (e : Int) :
      SleepRound isThreadRun hasFirstTable l { l with endTime := some e }
  | readDuration {l : SleepLocals} (h : l.pc = .remaining) (hdur : l.duration = none) (d : Int) :
      SleepRound isThreadRun hasFirstTable l { l with duration := some d }
  | sleep {l : SleepLocals} (h : l.pc = .remaining) :
      SleepRound isThreadRun hasFirstTable l ⟨.test, none, none⟩

/-- The most steps that a thread takes until its end when the flag is cleared. -/
def SleepLocals.left (l : SleepLocals) : ℕ :=
  match l.pc with
  | .wait => 2
  | .test => 1
  | .work => 5
  | .remaining => 2 + (if l.endTime.isNone then 1 else 0) + if l.duration.isNone then 1 else 0
  | .done => 0

section Round

variable {isThreadRun hasFirstTable : Bool} {l l' : SleepLocals}

namespace SleepRound

lemma ne_done (h : SleepRound isThreadRun hasFirstTable l l') : l.pc ≠ .done := by
  cases h <;> simp_all

lemma ne_wait (h : SleepRound isThreadRun hasFirstTable l l') (hl : l.pc ≠ .wait) :
    l'.pc ≠ .wait := by
  cases h with
  | test h => cases isThreadRun <;> simp
  | _ => simp_all

lemma first (h : SleepRound isThreadRun hasFirstTable l l') (hl : l'.pc ≠ .wait) :
    hasFirstTable = true ∨ l.pc ≠ .wait := by
  cases h <;> simp_all

lemma stopped (h : SleepRound isThreadRun hasFirstTable l l') (hl : l'.pc = .done) :
    isThreadRun = false := by
  cases h with
  | test h => cases isThreadRun <;> simp_all
  | _ => simp_all

/-- When the flag is cleared and there is a table, every step brings the thread closer to its
end. -/
lemma left_lt (h : SleepRound false true l l') : l'.left + 1 ≤ l.left := by
  cases h with
  | spin h hfirst => cases hfirst
  | readEnd h hend e =>
      simp only [SleepLocals.left, h, hend, Option.isNone_some, Option.isNone_none,
        Bool.false_eq_true, if_true, if_false]
      omega
  | readDuration h hdur d =>
      simp only [SleepLocals.left, h, hdur, Option.isNone_some, Option.isNone_none,
        Bool.false_eq_true, if_true, if_false]
      omega
  | sleep h => simp only [SleepLocals.left, h]; omega
  | _ h => simp [SleepLocals.left, h]

end SleepRound

end Round

lemma sleepStep_round {cfg : ClockConfig} {s s' : ClockState} {t : SleepThread}
    {event : SleepEvent} (hstep : sleepStep cfg s t event = some s') :
    ∃ l, SleepRound s.isThreadRun s.hasFirstTable (s.threads t) l ∧
      s'.threads = Function.update s.threads t l ∧ s'.isThreadRun = s.isThreadRun ∧
      s'.time = s.time ∧ (s.hasFirstTable = true → s'.hasFirstTable = true) ∧
      (s'.hasFirstTable = true → s.hasFirstTable = true ∨
        t = .table ∧ (s.threads t).pc = .work) := by
  cases event with
  | step =>
      rcases hpc : (s.threads t).pc with _ | _ | _ | _ | _ <;>
        simp only [sleepStep, hpc, Option.some.injEq, reduceCtorEq] at hstep
      · split at hstep
        · rename_i hfirst
          subst hstep
          exact ⟨_, .go hpc hfirst, rfl, rfl, rfl, id, Or.inl⟩
        · rename_i hfirst
          subst hstep
          exact ⟨_, .spin hpc (by simpa using hfirst), (Function.update_eq_self ..).symm, rfl, rfl,
            id, Or.inl⟩
      · subst hstep
        exact ⟨_, .test hpc, rfl, rfl, rfl, id, Or.inl⟩
      · rcases he : (s.threads t).endTime with _ | e <;>
          rcases hd : (s.threads t).duration with _ | d <;>
          simp only [he, hd, Option.some.injEq, reduceCtorEq] at hstep
        subst hstep
        exact ⟨_, .sleep hpc, rfl, rfl, rfl, id, Or.inl⟩
  | statement ok =>
      simp only [sleepStep] at hstep
      split at hstep
      · rename_i hpc
        cases hstep
        refine ⟨_, .work hpc, rfl, rfl, rfl, fun h => by simp [h], fun h => ?_⟩
        simp only [Bool.or_eq_true, Bool.and_eq_true, beq_iff_eq] at h
        exact h.imp id fun h => ⟨h.1, hpc⟩
      · cases hstep
  | readEnd =>
      simp only [sleepStep] at hstep
      split at hstep
      · rename_i hpc
        cases hstep
        exact ⟨_, .readEnd hpc.1 hpc.2 _, rfl, rfl, rfl, id, Or.inl⟩
      · cases hstep
  | readDuration =>
      simp only [sleepStep] at hstep
      split at hstep
      · rename_i hpc
        cases hstep
        exact ⟨_, .readDuration hpc.1 hpc.2 _, rfl, rfl, rfl, id, Or.inl⟩
      · cases hstep

/-- One step of an engine thread, which finds the flags as they are. -/
inductive EngineMove (isThreadRun hasFirstTable : Bool) : EnginePc → EnginePc → Prop
  | spin (hfirst : hasFirstTable = false) : EngineMove isThreadRun hasFirstTable .wait .wait
  | go (hfirst : hasFirstTable = true) : EngineMove isThreadRun hasFirstTable .wait .test
  | test (ncmd : ℕ) :
      EngineMove isThreadRun hasFirstTable .test (if isThreadRun then .travel ncmd else .handIn)
  | cmd (left : ℕ) : EngineMove isThreadRun hasFirstTable (.travel (left + 1)) (.travel left)
  | finish : EngineMove isThreadRun hasFirstTable (.travel 0) .test
  | handIn : EngineMove isThreadRun hasFirstTable .handIn .done

/-- The most steps that an engine thread takes until its end when the flag is cleared. -/
def EnginePc.left : EnginePc → ℕ
  | .wait => 3
  | .test => 2
  | .travel left => 3 + left
  | .handIn => 1
  | .done => 0

/-- When the flag is cleared and there is a table, every step brings the thread closer to its
end. -/
lemma EngineMove.left_lt {pc pc' : EnginePc} (h : EngineMove false true pc pc') :
    pc'.left + 1 ≤ pc.left := by
  cases h with
  | spin hfirst => cases hfirst
  | cmd left => simp only [EnginePc.left]; omega
  | _ => simp [EnginePc.left]

lemma engineStep_move {s s' : LifeState} {i ncmd : ℕ} (hstep : engineStep s i ncmd = some s') :
    ∃ pc, EngineMove s.clk.isThreadRun s.clk.hasFirstTable (s.engines i) pc ∧
      s' = { s with engines := Function.update s.engines i pc } := by
  simp only [engineStep] at hstep
  rcases hpc : s.engines i with _ | _ | ⟨_ | left⟩ | _ | _ <;>
    simp only [hpc, Option.some.injEq, reduceCtorEq] at hstep
  · refine ⟨_, ?_, hstep.symm⟩
    split
    · rename_i hfirst
      exact .go hfirst
    · rename_i hfirst
      exact .spin (by simpa using hfirst)
  · exact ⟨_, .test ncmd, hstep.symm⟩
  · exact ⟨_, .finish, hstep.symm⟩
  · exact ⟨_, .cmd left, hstep.symm⟩
  · exact ⟨_, .handIn, hstep.symm⟩

/-! ### The flags -/

/-- `is_thread_run` is cleared by the last step of `time_thread`; a thread that has ended has found
it cleared, and a thread that no longer waits has found a table. -/
structure FlagInv (s : ClockState) : Prop where
  stopped : s.isThreadRun = false ↔ s.time = .done
  ended : ∀ t, (s.threads t).pc = .done → s.isThreadRun = false
  table : (s.threads .table).pc ≠ .wait
  first : (s.threads .alter).pc ≠ .wait → s.hasFirstTable = true

/-- The flags are set and cleared once, and what has ended stays so. -/
structure FlagMono (s s' : ClockState) : Prop where
  stopped : s.isThreadRun = false → s'.isThreadRun = false
  first : s.hasFirstTable = true → s'.hasFirstTable = true
  ended : ∀ t, (s.threads t).pc = .done → (s'.threads t).pc = .done

lemma FlagMono.refl (s : ClockState) : FlagMono s s := ⟨id, id, fun _ => id⟩

lemma flagInv_initial (clock : Int) : FlagInv (.initial clock) where
  stopped := by simp [ClockState.initial]
  ended t := by cases t <;> simp [ClockState.initial]
  table := by simp [ClockState.initial]
  first h := absurd rfl h

namespace FlagInv

variable {cfg : ClockConfig} {s s' : ClockState}

lemma timeStep (h : FlagInv s) (hstep : CheckQ.timeStep cfg s = some s') :
    FlagInv s' ∧ FlagMono s s' := by
  have hrunning : s.time ≠ .done → s.isThreadRun = true := by
    intro hne
    rw [← Bool.not_eq_false]
    exact fun hfalse => hne (h.stopped.1 hfalse)
  rw [CheckQ.timeStep] at hstep
  rcases hpc : s.time with _ | _ | _ | _ | _ | curr | _ | _ <;>
    simp only [hpc, Option.some.injEq, reduceCtorEq] at hstep <;> subst hstep
  case stop => exact ⟨⟨by simp, by simp, h.table, h.first⟩, ⟨by simp, id, fun _ => id⟩⟩
  case test =>
    refine ⟨⟨?_, h.ended, h.table, h.first⟩, ⟨id, id, fun _ => id⟩⟩
    have hrun := hrunning (by simp [hpc])
    simp only [hrun]
    split <;> simp
  all_goals
    refine ⟨⟨?_, h.ended, h.table, h.first⟩, ⟨id, id, fun _ => id⟩⟩
    simp [hrunning (by simp [hpc])]

lemma sleepStep (h : FlagInv s) {t : SleepThread} {event : SleepEvent}
    (hstep : CheckQ.sleepStep cfg s t event = some s') : FlagInv s' ∧ FlagMono s s' := by
  obtain ⟨l, hround, hthreads, hrun, htime, hfirst, -⟩ := sleepStep_round hstep
  refine ⟨⟨by rw [hrun, htime]; exact h.stopped, ?_, ?_, ?_⟩, ⟨by rw [hrun]; exact id, hfirst, ?_⟩⟩
  · intro u hu
    rw [hrun]
    rw [hthreads] at hu
    by_cases hut : u = t
    · subst hut
      rw [Function.update_self] at hu
      exact hround.stopped hu
    · rw [Function.update_of_ne hut] at hu
      exact h.ended u hu
  · rw [hthreads]
    by_cases ht : SleepThread.table = t
    · subst ht
      rw [Function.update_self]
      exact hround.ne_wait h.table
    · rw [Function.update_of_ne ht]
      exact h.table
  · rw [hthreads]
    by_cases ht : SleepThread.alter = t
    · subst ht
      rw [Function.update_self]
      intro hl
      rcases hround.first hl with hf | hw
      · exact hfirst hf
      · exact hfirst (h.first hw)
    · rw [Function.update_of_ne ht]
      exact fun hw => hfirst (h.first hw)
  · intro u hu
    rw [hthreads]
    by_cases hut : u = t
    · subst hut
      exact absurd hu hround.ne_done
    · rw [Function.update_of_ne hut, hu]

end FlagInv

/-! ### The invariant of the process -/

/-- `main` has joined the thread. -/
def MainPc.hasJoined (cfg : LifeConfig) : MainPc → LifeThread → Bool
  | .joinTable, th => th = .sleeper .alter
  | .joinStat, th => th = .sleeper .alter || th = .sleeper .table
  | .joinEngine _, .sleeper _ => true
  | .joinEngine _, .stat => true
  | .joinEngine j, .engine i => i < j
  | .returned, .time => false
  | .returned, .engine i => i < cfg.engineThreadNum
  | .returned, _ => true
  | _, _ => false

/-- The thread has ended. -/
def LifeState.hasEnded (s : LifeState) : LifeThread → Bool
  | .time => s.clk.time = .done
  | .sleeper t => (s.clk.threads t).pc = .done
  | .engine i => s.engines i = .done
  | .stat => s.stat = .done

/-- What holds in every state of a run. -/
structure LifeInv (cfg : LifeConfig) (s : LifeState) : Prop where
  flags : FlagInv s.clk
  stat : s.stat = .done → s.clk.isThreadRun = false
  engine : ∀ i, s.engines i = .handIn ∨ s.engines i = .done → s.clk.isThreadRun = false
  first : ∀ i, s.engines i ≠ .wait → s.clk.hasFirstTable = true
  joined : ∀ th, s.main.hasJoined cfg th = true → s.hasEnded th = true

lemma lifeInv_initial (cfg : LifeConfig) (clock : Int) : LifeInv cfg (.initial clock) where
  flags := flagInv_initial clock
  stat h := by simp [LifeState.initial] at h
  engine i h := by simp [LifeState.initial] at h
  first i h := absurd rfl h
  joined th h := by simp [LifeState.initial, MainPc.hasJoined] at h

namespace LifeInv

variable {cfg : LifeConfig} {s s' : LifeState}

/-- A step of the clock or of a thread that it is kept with. -/
lemma clk (h : LifeInv cfg s) {clk : ClockState} (hflags : FlagInv clk)
    (hmono : FlagMono s.clk clk) (htime : s.clk.time = .done → clk.time = .done) :
    LifeInv cfg { s with clk } where
  flags := hflags
  stat hs := hmono.stopped (h.stat hs)
  engine i hi := hmono.stopped (h.engine i hi)
  first i hi := hmono.first (h.first i hi)
  joined th hth := by
    have hended := h.joined th hth
    cases th with
    | time =>
        simp only [LifeState.hasEnded, decide_eq_true_eq] at hended ⊢
        exact htime hended
    | sleeper t =>
        simp only [LifeState.hasEnded, decide_eq_true_eq] at hended ⊢
        exact hmono.ended t hended
    | engine i => exact hended
    | stat => exact hended

lemma mainStep (h : LifeInv cfg s) {ok : Bool} (hstep : CheckQ.mainStep cfg s ok = some s') :
    LifeInv cfg s' := by
  have hmain : ∀ pc, (∀ th, pc.hasJoined cfg th = true → s.hasEnded th = true) →
      LifeInv cfg { s with main := pc } :=
    fun pc hpc => ⟨h.flags, h.stat, h.engine, h.first, hpc⟩
  have hcreate : ∀ pc, (∀ th, pc.hasJoined cfg th = false) →
      LifeInv cfg { s with main := if ok then pc else .exited } := by
    intro pc hpc
    refine hmain _ fun th hth => ?_
    cases ok with
    | true => simp [hpc th] at hth
    | false => simp [MainPc.hasJoined] at hth
  have hjoined := h.joined
  simp only [CheckQ.mainStep] at hstep
  rcases hpc : s.main with _ | _ | _ | i | _ | _ | _ | _ | i | _ | _ <;>
    simp only [hpc] at hstep hjoined
  case createTable => cases hstep; exact hcreate _ fun th => rfl
  case createAlter => cases hstep; exact hcreate _ fun th => rfl
  case createTime => cases hstep; exact hcreate _ fun th => rfl
  case createEngine =>
    split at hstep <;> cases hstep
    · exact hcreate _ fun th => rfl
    · exact hmain _ fun th hth => by simp [MainPc.hasJoined] at hth
  case createStat => cases hstep; exact hcreate _ fun th => rfl
  case joinAlter =>
    split at hstep <;> cases hstep
    rename_i hended
    refine hmain _ fun th hth => ?_
    obtain rfl : th = .sleeper .alter := by simpa [MainPc.hasJoined] using hth
    exact hended
  case joinTable =>
    split at hstep <;> cases hstep
    rename_i hended
    refine hmain _ fun th hth => ?_
    simp only [MainPc.hasJoined, Bool.or_eq_true, decide_eq_true_eq] at hth
    rcases hth with rfl | rfl
    · exact hjoined _ (by simp [MainPc.hasJoined])
    · exact hended
  case joinStat =>
    split at hstep <;> cases hstep
    rename_i hended
    refine hmain _ fun th hth => ?_
    match th with
    | .time => simp [MainPc.hasJoined] at hth
    | .sleeper t => exact hjoined _ (by cases t <;> simp [MainPc.hasJoined])
    | .engine i => simp [MainPc.hasJoined] at hth
    | .stat => exact hended
  case joinEngine =>
    split at hstep
    · split at hstep <;> cases hstep
      rename_i hended
      refine hmain _ fun th hth => ?_
      match th with
      | .time => simp [MainPc.hasJoined] at hth
      | .sleeper t => exact hjoined _ rfl
      | .engine j =>
          have hj : j < i + 1 := by simpa [MainPc.hasJoined] using hth
          rcases Nat.lt_succ_iff_lt_or_eq.1 hj with hj | rfl
          · exact hjoined _ (by simpa [MainPc.hasJoined] using hj)
          · exact hended
      | .stat => exact hjoined _ rfl
    · rename_i hle
      cases hstep
      refine hmain _ fun th hth => ?_
      match th with
      | .time => simp [MainPc.hasJoined] at hth
      | .sleeper t => exact hjoined _ rfl
      | .engine j =>
          have hj : j < cfg.engineThreadNum := by simpa [MainPc.hasJoined] using hth
          exact hjoined _ (by simp only [MainPc.hasJoined, decide_eq_true_eq]; omega)
      | .stat => exact hjoined _ rfl
  case returned => cases hstep
  case exited => cases hstep

lemma engineStep (h : LifeInv cfg s) {i ncmd : ℕ} (hstep : CheckQ.engineStep s i ncmd = some s') :
    LifeInv cfg s' := by
  obtain ⟨pc, hmove, rfl⟩ := engineStep_move hstep
  have hdone : s.engines i ≠ .done := by
    intro hdone
    rw [hdone] at hmove
    cases hmove
  have hstopped : pc = .handIn ∨ pc = .done → s.clk.isThreadRun = false := by
    intro hpc
    generalize hold : s.engines i = old at hmove
    cases hmove with
    | test ncmd => cases hrun : s.clk.isThreadRun <;> simp_all
    | handIn => exact h.engine i (Or.inl hold)
    | _ => simp at hpc
  have hfirst : pc ≠ .wait → s.clk.hasFirstTable = true := by
    intro hpc
    generalize hold : s.engines i = old at hmove
    cases hmove with
    | spin => exact absurd rfl hpc
    | go hfirst => exact hfirst
    | _ => exact h.first i (by simp [hold])
  refine ⟨h.flags, h.stat, fun j hj => ?_, fun j hj => ?_, fun th hth => ?_⟩
  · by_cases hji : j = i
    · subst hji
      exact hstopped (by simpa using hj)
    · exact h.engine j (by simpa [Function.update_of_ne hji] using hj)
  · by_cases hji : j = i
    · subst hji
      exact hfirst (by simpa using hj)
    · exact h.first j (by simpa [Function.update_of_ne hji] using hj)
  · have hended := h.joined th hth
    match th with
    | .time => exact hended
    | .sleeper t => exact hended
    | .engine j =>
        have hji : j ≠ i := by
          rintro rfl
          exact hdone (by simpa [LifeState.hasEnded] using hended)
        simpa [LifeState.hasEnded, Function.update_of_ne hji] using hended
    | .stat => exact hended

lemma reportStep (h : LifeInv cfg s) (hstep : CheckQ.reportStep s = some s') : LifeInv cfg s' := by
  have hkeep : ∀ pc, (pc = .done → s.clk.isThreadRun = false) → s.stat ≠ .done →
      LifeInv cfg { s with stat := pc } := by
    intro pc hpc hne
    refine ⟨h.flags, hpc, h.engine, h.first, fun th hth => ?_⟩
    have hended := h.joined th hth
    match th with
    | .time => exact hended
    | .sleeper t => exact hended
    | .engine j => exact hended
    | .stat => exact absurd (by simpa [LifeState.hasEnded] using hended) hne
  simp only [CheckQ.reportStep] at hstep
  rcases hpc : s.stat with _ | _ | _ <;>
    simp only [hpc, Option.some.injEq, reduceCtorEq] at hstep <;> subst hstep
  · refine hkeep _ (fun hdone => ?_) (by simp [hpc])
    cases hrun : s.clk.isThreadRun <;> simp_all
  · exact hkeep _ (by simp) (by simp [hpc])

lemma step (h : LifeInv cfg s) (hstep : LifeStep cfg s s') : LifeInv cfg s' := by
  obtain ⟨act, hstep⟩ := hstep
  cases act with
  | tick d =>
      simp only [lifeStep, clockStep, Option.map_some, Option.some.injEq] at hstep
      subst hstep
      exact h.clk ⟨h.flags.stopped, h.flags.ended, h.flags.table, h.flags.first⟩
        ⟨id, id, fun _ => id⟩ id
  | main ok => exact h.mainStep hstep
  | time =>
      simp only [lifeStep] at hstep
      split at hstep
      · obtain ⟨clk, htime, rfl⟩ := Option.map_eq_some_iff.1 hstep
        obtain ⟨hflags, hmono⟩ := h.flags.timeStep htime
        exact h.clk hflags hmono fun hdone => by simp [timeStep, hdone] at htime
      · cases hstep
  | sleeper t event =>
      simp only [lifeStep] at hstep
      split at hstep
      · obtain ⟨clk, hsleep, rfl⟩ := Option.map_eq_some_iff.1 hstep
        obtain ⟨hflags, hmono⟩ := h.flags.sleepStep hsleep
        obtain ⟨-, -, -, -, htime, -, -⟩ := sleepStep_round hsleep
        exact h.clk hflags hmono fun hdone => htime.trans hdone
      · cases hstep
  | engine i ncmd =>
      simp only [lifeStep] at hstep
      split at hstep
      · exact h.engineStep hstep
      · cases hstep
  | stat =>
      simp only [lifeStep] at hstep
      split at hstep
      · exact h.reportStep hstep
      · cases hstep

end LifeInv

/-- What holds in every state of a run. -/
lemma lifeInv_of_run {cfg : LifeConfig} {clock : Int} {s : LifeState}
    (hrun : Relation.ReflTransGen (LifeStep cfg) (.initial clock) s) : LifeInv cfg s :=
  invariant_of_run (I := LifeInv cfg) (fun _ _ => LifeInv.step) (lifeInv_initial cfg clock) hrun

/-- The threads that are joined: all but `time_thread`. -/
def LifeThread.joinable (cfg : LifeConfig) : LifeThread → Prop
  | .time => False
  | .engine i => i < cfg.engineThreadNum
  | _ => True

/-- **When `start_engine` returns, nothing uses the stores any more.**  Every thread that it has
joined has ended, `time_thread` has taken its last step before it detaches itself, the flag is
cleared and a table has been created. -/
theorem start_engine_returned (cfg : LifeConfig) (clock : Int) {s : LifeState}
    (hrun : Relation.ReflTransGen (LifeStep cfg) (.initial clock) s) (hmain : s.main = .returned) :
    s.clk.hasFirstTable = true ∧ s.clk.isThreadRun = false ∧ s.clk.time = .done ∧
      ∀ th, th.joinable cfg → s.hasEnded th = true := by
  have hinv := lifeInv_of_run hrun
  have hended : ∀ th, th.joinable cfg → s.hasEnded th = true := by
    intro th hth
    refine hinv.joined th ?_
    rw [hmain]
    cases th with
    | time => exact hth.elim
    | sleeper t => rfl
    | engine i => simpa [MainPc.hasJoined, LifeThread.joinable] using hth
    | stat => rfl
  have halter : (s.clk.threads .alter).pc = .done := by
    simpa [LifeState.hasEnded] using hended (.sleeper .alter) trivial
  have hstopped := hinv.flags.ended .alter halter
  exact ⟨hinv.flags.first (by simp [halter]), hstopped, hinv.flags.stopped.1 hstopped, hended⟩

/-! ### A run of one engine thread -/

/-- One engine thread and a second of time. -/
def oneEngine : LifeConfig := ⟨⟨1, 1, by decide, by decide⟩, 1⟩

/-- All threads are created, `table_thread` creates a table, and the others start; `time_thread`
clears the flag while the engine thread is in a traversal. -/
def upToStop : List LifeAction :=
  List.replicate 6 (.main true) ++
    [.sleeper .table .step, .sleeper .table (.statement true), .engine 0 0, .engine 0 2,
      .sleeper .alter .step, .sleeper .alter .step, .stat] ++
    List.replicate 3 .time ++ .tick 1 :: List.replicate 5 .time

/-- The threads come to their ends and are joined. -/
def fromStop : List LifeAction :=
  [.engine 0 0, .engine 0 0, .engine 0 0, .engine 0 0, .engine 0 0, .stat, .stat,
    .sleeper .alter (.statement false), .sleeper .alter .readEnd, .sleeper .alter .readDuration,
    .sleeper .alter .step, .sleeper .alter .step, .sleeper .table .readDuration,
    .sleeper .table .readEnd, .sleeper .table .step, .sleeper .table .step] ++
    List.replicate 5 (.main true)

/-- The run of a schedule from the start. -/
def lifeRun (cfg : LifeConfig) (sched : List LifeAction) : Option LifeState :=
  runSchedule (lifeStep cfg) (fun _ _ => true) sched (.initial 1000)

lemma lifeRun_run {cfg : LifeConfig} {sched : List LifeAction} {s : LifeState}
    (h : lifeRun cfg sched = some s) : Relation.ReflTransGen (LifeStep cfg) (.initial 1000) s :=
  run_of_schedule (fun _ act _ _ hstep => ⟨act, hstep⟩) h

/-- The process comes to its end. -/
theorem start_engine_returned_one :
    ∃ s, Relation.ReflTransGen (LifeStep oneEngine) (.initial 1000) s ∧ s.main = .returned ∧
      s.clk.hasFirstTable = true ∧ s.clk.isThreadRun = false ∧ s.clk.time = .done ∧
      ∀ th, th.joinable oneEngine → s.hasEnded th = true := by
  have hsome : (lifeRun oneEngine (upToStop ++ fromStop)).isSome = true := by decide
  have hrun := lifeRun_run (Option.some_get hsome).symm
  have hmain : ((lifeRun oneEngine (upToStop ++ fromStop)).get hsome).main = .returned := rfl
  exact ⟨_, hrun, hmain, start_engine_returned oneEngine 1000 hrun hmain⟩

/-! ### The end of a run -/

section Shutdown

variable (cfg : LifeConfig)

/-- The most steps that `main` takes until it returns. -/
def MainPc.left : MainPc → ℕ
  | .createTable => 2 * cfg.engineThreadNum + 9
  | .createAlter => 2 * cfg.engineThreadNum + 8
  | .createTime => 2 * cfg.engineThreadNum + 7
  | .createEngine i => (cfg.engineThreadNum - i) + cfg.engineThreadNum + 6
  | .createStat => cfg.engineThreadNum + 5
  | .joinAlter => cfg.engineThreadNum + 4
  | .joinTable => cfg.engineThreadNum + 3
  | .joinStat => cfg.engineThreadNum + 2
  | .joinEngine i => (cfg.engineThreadNum - i) + 1
  | .returned => 0
  | .exited => 0

/-- The most steps that `stat_thread` takes until its end when the flag is cleared. -/
def ReportPc.left : ReportPc → ℕ
  | .test => 1
  | .asleep => 2
  | .done => 0

/-- The most steps that are left when the flag is cleared and there is a table. -/
def LifeState.left (s : LifeState) : ℕ :=
  s.main.left cfg + (s.clk.threads .table).left + (s.clk.threads .alter).left + s.stat.left +
    ∑ i ∈ Finset.range cfg.engineThreadNum, (s.engines i).left

/-- A state behind the end of `time_thread`, with a table. -/
structure Stopping (s : LifeState) : Prop where
  inv : LifeInv cfg s
  stopped : s.clk.isThreadRun = false
  first : s.clk.hasFirstTable = true

/-- The steps that count: all but those of the clock. -/
def LifeAction.cost : LifeAction → ℕ
  | .tick _ => 0
  | _ => 1

variable {cfg} {s s' : LifeState}

lemma mainStep_left {ok : Bool} (hstep : mainStep cfg s ok = some s') :
    s'.main.left cfg + 1 ≤ s.main.left cfg ∧ s'.clk = s.clk ∧ s'.engines = s.engines ∧
      s'.stat = s.stat := by
  have hcreate : ∀ pc, pc.left cfg + 1 ≤ s.main.left cfg →
      (if ok then pc else MainPc.exited).left cfg + 1 ≤ s.main.left cfg := by
    intro pc hpc
    cases ok with
    | true => exact hpc
    | false => exact (Nat.succ_le_succ (Nat.zero_le _)).trans hpc
  simp only [mainStep] at hstep
  rcases hpc : s.main with _ | _ | _ | i | _ | _ | _ | _ | i | _ | _ <;>
    simp only [hpc] at hstep hcreate
  case createTable =>
    cases hstep; exact ⟨hcreate _ (by simp [MainPc.left]), rfl, rfl, rfl⟩
  case createAlter =>
    cases hstep; exact ⟨hcreate _ (by simp [MainPc.left]), rfl, rfl, rfl⟩
  case createTime =>
    cases hstep; exact ⟨hcreate _ (by simp [MainPc.left]; omega), rfl, rfl, rfl⟩
  case createEngine =>
    split at hstep <;> cases hstep
    · exact ⟨hcreate _ (by simp [MainPc.left]; omega), rfl, rfl, rfl⟩
    · exact ⟨by simp only [MainPc.left]; omega, rfl, rfl, rfl⟩
  case createStat =>
    cases hstep; exact ⟨hcreate _ (by simp [MainPc.left]), rfl, rfl, rfl⟩
  case joinAlter =>
    split at hstep <;> cases hstep
    exact ⟨by simp [MainPc.left], rfl, rfl, rfl⟩
  case joinTable =>
    split at hstep <;> cases hstep
    exact ⟨by simp [MainPc.left], rfl, rfl, rfl⟩
  case joinStat =>
    split at hstep <;> cases hstep
    exact ⟨by simp [MainPc.left], rfl, rfl, rfl⟩
  case joinEngine =>
    split at hstep
    · split at hstep <;> cases hstep
      exact ⟨by simp only [MainPc.left]; omega, rfl, rfl, rfl⟩
    · cases hstep
      exact ⟨by simp only [MainPc.left]; omega, rfl, rfl, rfl⟩
  case returned => cases hstep
  case exited => cases hstep

/-- One thread of several comes closer to its end. -/
lemma sum_left_update {engines : ℕ → EnginePc} {i n : ℕ} (hi : i < n) {pc : EnginePc}
    (hlt : pc.left + 1 ≤ (engines i).left) :
    ∑ j ∈ Finset.range n, (Function.update engines i pc j).left + 1
      ≤ ∑ j ∈ Finset.range n, (engines j).left := by
  have hmem : i ∈ Finset.range n := Finset.mem_range.2 hi
  rw [← Finset.add_sum_erase _ _ hmem, ← Finset.add_sum_erase _ (fun j => (engines j).left) hmem,
    Function.update_self]
  have hrest : ∑ j ∈ (Finset.range n).erase i, (Function.update engines i pc j).left
      = ∑ j ∈ (Finset.range n).erase i, (engines j).left := by
    refine Finset.sum_congr rfl fun j hj => ?_
    rw [Function.update_of_ne (Finset.ne_of_mem_erase hj)]
  omega

lemma hasCreated_engine {pc : MainPc} {i : ℕ} (h : pc.hasCreated cfg (.engine i) = true) :
    i < cfg.engineThreadNum := by
  cases pc <;> simp [MainPc.hasCreated] at h <;> omega

/-- Behind the end of `time_thread` every step of a thread counts down. -/
lemma Stopping.step (h : Stopping cfg s) {act : LifeAction} (hstep : lifeStep cfg s act = some s') :
    Stopping cfg s' ∧ s'.left cfg + act.cost ≤ s.left cfg := by
  have hinv' := h.inv.step ⟨act, hstep⟩
  cases act with
  | tick d =>
      simp only [lifeStep, clockStep, Option.map_some, Option.some.injEq] at hstep
      subst hstep
      exact ⟨⟨hinv', h.stopped, h.first⟩, le_rfl⟩
  | main ok =>
      obtain ⟨hle, hclk, hengines, hstat⟩ := mainStep_left hstep
      refine ⟨⟨hinv', by rw [hclk, h.stopped], by rw [hclk, h.first]⟩, ?_⟩
      simp only [LifeState.left, LifeAction.cost, hclk, hengines, hstat]
      omega
  | time =>
      have hdone := h.inv.flags.stopped.1 h.stopped
      simp [lifeStep, timeStep, hdone] at hstep
  | sleeper t event =>
      simp only [lifeStep] at hstep
      split at hstep
      · obtain ⟨clk, hsleep, rfl⟩ := Option.map_eq_some_iff.1 hstep
        obtain ⟨l, hround, hthreads, hrun, -, hfirst, -⟩ := sleepStep_round hsleep
        rw [h.stopped, h.first] at hround
        have hlt := hround.left_lt
        refine ⟨⟨hinv', by rw [hrun, h.stopped], hfirst h.first⟩, ?_⟩
        simp only [LifeState.left, LifeAction.cost, hthreads]
        cases t with
        | table => simp [Function.update_self]; omega
        | alter => simp [Function.update_self]; omega
      · cases hstep
  | engine i ncmd =>
      simp only [lifeStep] at hstep
      split at hstep
      · rename_i hcreated
        obtain ⟨pc, hmove, rfl⟩ := engineStep_move hstep
        rw [h.stopped, h.first] at hmove
        refine ⟨⟨hinv', h.stopped, h.first⟩, ?_⟩
        have hsum := sum_left_update (hasCreated_engine hcreated) hmove.left_lt
        simp only [LifeState.left, LifeAction.cost]
        omega
      · cases hstep
  | stat =>
      simp only [lifeStep] at hstep
      split at hstep
      · simp only [reportStep, h.stopped] at hstep
        rcases hpc : s.stat with _ | _ | _ <;>
          simp only [hpc, Option.some.injEq, reduceCtorEq] at hstep <;> subst hstep
        · refine ⟨⟨hinv', h.stopped, h.first⟩, ?_⟩
          simp only [LifeState.left, LifeAction.cost, hpc, ReportPc.left, if_false]
          omega
        · refine ⟨⟨hinv', h.stopped, h.first⟩, ?_⟩
          simp only [LifeState.left, LifeAction.cost, hpc, ReportPc.left]
          omega
      · cases hstep

/-- **Once the flag is cleared the process comes to its end.**  When `is_thread_run` has been
cleared and a table has been created, the threads take at most `left` more steps, in every order
and however long the traversals are that they are in. -/
theorem shutdown_bounded (cfg : LifeConfig) (clock : Int) {s s' : LifeState}
    (hrun : Relation.ReflTransGen (LifeStep cfg) (.initial clock) s)
    (hstopped : s.clk.isThreadRun = false) (hfirst : s.clk.hasFirstTable = true)
    {sched : List LifeAction}
    (hsched : runSchedule (lifeStep cfg) (fun _ _ => true) sched s = some s') :
    s'.left cfg + (sched.map LifeAction.cost).sum ≤ s.left cfg :=
  runSchedule_measure (I := Stopping cfg) LifeAction.cost (fun _ _ _ h hstep => h.step hstep)
    ⟨lifeInv_of_run hrun, hstopped, hfirst⟩ hsched

/-- The end of the run above. -/
theorem shutdown_bounded_one :
    ∃ s s', Relation.ReflTransGen (LifeStep oneEngine) (.initial 1000) s ∧
      runSchedule (lifeStep oneEngine) (fun _ _ => true) fromStop s = some s' ∧
      s'.left oneEngine + (fromStop.map LifeAction.cost).sum ≤ s.left oneEngine := by
  have hsome : (lifeRun oneEngine upToStop).isSome = true := by decide
  have hrun := lifeRun_run (Option.some_get hsome).symm
  have hsome' : (runSchedule (lifeStep oneEngine) (fun _ _ => true) fromStop
      ((lifeRun oneEngine upToStop).get hsome)).isSome = true := rfl
  have hsched := (Option.some_get hsome').symm
  exact ⟨_, _, hrun, hsched,
    shutdown_bounded oneEngine 1000 hrun rfl rfl hsched⟩

/-! ### The way to the end -/

/-- A thread that sleeps can go on until its end. -/
lemma exists_sleepStep (cfg : ClockConfig) {s : ClockState} {t : SleepThread}
    (h : (s.threads t).pc ≠ .done) : ∃ event s', sleepStep cfg s t event = some s' := by
  rcases hpc : (s.threads t).pc with _ | _ | _ | _ | _
  · exact ⟨.step, by simp [sleepStep, hpc]⟩
  · exact ⟨.step, by simp [sleepStep, hpc]⟩
  · exact ⟨.statement true, by simp [sleepStep, hpc]⟩
  · rcases he : (s.threads t).endTime with _ | e
    · exact ⟨.readEnd, by simp [sleepStep, hpc, he]⟩
    · rcases hd : (s.threads t).duration with _ | d
      · exact ⟨.readDuration, by simp [sleepStep, hpc, hd]⟩
      · exact ⟨.step, by simp [sleepStep, hpc, he, hd]⟩
  · exact absurd hpc h

lemma exists_engineStep {s : LifeState} {i : ℕ} (h : s.engines i ≠ .done) :
    ∃ s', engineStep s i 0 = some s' := by
  rcases hpc : s.engines i with _ | _ | ⟨_ | left⟩ | _ | _
  all_goals first | exact absurd hpc h | exact ⟨_, by simp [engineStep, hpc]; rfl⟩

lemma exists_reportStep {s : LifeState} (h : s.stat ≠ .done) :
    ∃ s', reportStep s = some s' ∧ s'.main = s.main := by
  rcases hpc : s.stat with _ | _ | _
  · exact ⟨{ s with stat := if s.clk.isThreadRun then .asleep else .done },
      by rw [reportStep, hpc], rfl⟩
  · exact ⟨{ s with stat := .test }, by rw [reportStep, hpc], rfl⟩
  · exact absurd hpc h

/-- A thread that is joined and has been created can go on until its end. -/
lemma exists_threadStep {th : LifeThread} (hth : th.joinable cfg)
    (hcreated : s.main.hasCreated cfg th = true) (hended : s.hasEnded th = false) :
    ∃ act s', lifeStep cfg s act = some s' ∧ act.cost = 1 ∧ s'.main = s.main := by
  cases th with
  | time => exact hth.elim
  | sleeper t =>
      have hpc : (s.clk.threads t).pc ≠ .done := by simpa [LifeState.hasEnded] using hended
      obtain ⟨event, clk, hsleep⟩ := exists_sleepStep cfg.toClockConfig hpc
      exact ⟨.sleeper t event, { s with clk }, by simp [lifeStep, hcreated, hsleep], rfl, rfl⟩
  | engine i =>
      have hpc : s.engines i ≠ .done := by simpa [LifeState.hasEnded] using hended
      obtain ⟨s', hengine⟩ := exists_engineStep hpc
      refine ⟨.engine i 0, s', by simp [lifeStep, hcreated, hengine], rfl, ?_⟩
      obtain ⟨pc, -, rfl⟩ := engineStep_move hengine
      rfl
  | stat =>
      have hpc : s.stat ≠ .done := by simpa [LifeState.hasEnded] using hended
      obtain ⟨s', hreport, hsame⟩ := exists_reportStep hpc
      exact ⟨.stat, s', by simp [lifeStep, hcreated, hreport], rfl, hsame⟩

/-- `main` is never stuck for good: it goes on, or the thread that it waits for does. -/
lemma exists_step (hreturned : s.main ≠ .returned) (hexited : s.main ≠ .exited) :
    ∃ act s', lifeStep cfg s act = some s' ∧ act.cost = 1 ∧ s'.main ≠ .exited := by
  have hmain : ∀ {s'}, mainStep cfg s true = some s' → s'.main ≠ .exited →
      ∃ act s', lifeStep cfg s act = some s' ∧ act.cost = 1 ∧ s'.main ≠ .exited :=
    fun hstep hne => ⟨.main true, _, hstep, rfl, hne⟩
  have hthread : ∀ th : LifeThread, th.joinable cfg → s.main.hasCreated cfg th = true →
      s.hasEnded th = false →
      ∃ act s', lifeStep cfg s act = some s' ∧ act.cost = 1 ∧ s'.main ≠ .exited := by
    intro th hth hcreated hended
    obtain ⟨act, s', hstep, hcost, hsame⟩ := exists_threadStep hth hcreated hended
    exact ⟨act, s', hstep, hcost, hsame ▸ hexited⟩
  rcases hpc : s.main with _ | _ | _ | i | _ | _ | _ | _ | i | _ | _
  case createTable => exact hmain (by simp [mainStep, hpc]; rfl) (by simp)
  case createAlter => exact hmain (by simp [mainStep, hpc]; rfl) (by simp)
  case createTime => exact hmain (by simp [mainStep, hpc]; rfl) (by simp)
  case createEngine =>
    by_cases hi : i < cfg.engineThreadNum
    · exact hmain (by simp [mainStep, hpc, hi]; rfl) (by simp)
    · exact hmain (by simp [mainStep, hpc, hi]; rfl) (by simp)
  case createStat => exact hmain (by simp [mainStep, hpc]; rfl) (by simp)
  case joinAlter =>
    cases hended : s.hasEnded (.sleeper .alter) with
    | true =>
        have hdone : (s.clk.threads .alter).pc = .done := by simpa [LifeState.hasEnded] using hended
        exact hmain (by simp [mainStep, hpc, hdone]; rfl) (by simp)
    | false => exact hthread (.sleeper .alter) trivial (by simp [hpc, MainPc.hasCreated]) hended
  case joinTable =>
    cases hended : s.hasEnded (.sleeper .table) with
    | true =>
        have hdone : (s.clk.threads .table).pc = .done := by simpa [LifeState.hasEnded] using hended
        exact hmain (by simp [mainStep, hpc, hdone]; rfl) (by simp)
    | false => exact hthread (.sleeper .table) trivial (by simp [hpc, MainPc.hasCreated]) hended
  case joinStat =>
    cases hended : s.hasEnded .stat with
    | true =>
        have hdone : s.stat = .done := by simpa [LifeState.hasEnded] using hended
        exact hmain (by simp [mainStep, hpc, hdone]; rfl) (by simp)
    | false => exact hthread .stat trivial (by simp [hpc, MainPc.hasCreated]) hended
  case joinEngine =>
    by_cases hi : i < cfg.engineThreadNum
    · cases hended : s.hasEnded (.engine i) with
      | true =>
          have hdone : s.engines i = .done := by simpa [LifeState.hasEnded] using hended
          exact hmain (by simp [mainStep, hpc, hi, hdone]; rfl) (by simp)
      | false => exact hthread (.engine i) hi (by simpa [hpc, MainPc.hasCreated] using hi) hended
    · exact hmain (by simp [mainStep, hpc, hi]; rfl) (by simp)
  case returned => exact absurd hpc hreturned
  case exited => exact absurd hpc hexited

/-- Behind the end of `time_thread`, with a table, `start_engine` returns in the end. -/
lemma Stopping.returns (h : Stopping cfg s) (hexited : s.main ≠ .exited) :
    ∃ s', Relation.ReflTransGen (LifeStep cfg) s s' ∧ s'.main = .returned := by
  have hstep : ∀ s, (Stopping cfg s ∧ s.main ≠ .exited) → ¬ s.main = .returned →
      ∃ s', LifeStep cfg s s' ∧ (Stopping cfg s' ∧ s'.main ≠ .exited) ∧
        s'.left cfg < s.left cfg := by
    rintro s ⟨hs, hne⟩ hreturned
    obtain ⟨act, s', hstep, hcost, hne'⟩ := exists_step hreturned hne
    obtain ⟨hstopping, hleft⟩ := hs.step hstep
    exact ⟨s', ⟨act, hstep⟩, ⟨hstopping, hne'⟩, by omega⟩
  obtain ⟨s', hrun, -, hfinal⟩ := exists_final (μ := LifeState.left cfg)
    (I := fun s => Stopping cfg s ∧ s.main ≠ .exited) (fun s : LifeState => s.main = .returned)
    hstep ⟨h, hexited⟩
  exact ⟨s', hrun, hfinal⟩

end Shutdown

/-! ### Runs without a table -/

section NoTable

variable {cfg : LifeConfig} {s s' : LifeState}

/-- There is a table, or `table_thread` will send another CREATE. -/
def LifeState.tablePossible (s : LifeState) : Prop :=
  s.clk.hasFirstTable = true ∨ s.clk.isThreadRun = true ∨ (s.clk.threads .table).pc = .work

/-- A step of `table_thread` that finds the flag cleared does not come to a CREATE. -/
lemma SleepRound.ne_work {first : Bool} {l l' : SleepLocals} (h : SleepRound false first l l') :
    l'.pc ≠ .work := by
  cases h <;> simp_all

/-- Without a table and without another CREATE there never is a table. -/
lemma not_tablePossible_clock {clk clk' : ClockState}
    (hfirst : clk.hasFirstTable ≠ true) (hrun : clk.isThreadRun ≠ true)
    (hwork : (clk.threads .table).pc ≠ .work) {t : SleepThread} {event : SleepEvent}
    (hstep : sleepStep cfg.toClockConfig clk t event = some clk') :
    clk'.hasFirstTable ≠ true ∧ clk'.isThreadRun ≠ true ∧ (clk'.threads .table).pc ≠ .work := by
  obtain ⟨l, hround, hthreads, hrun', -, -, hfirst'⟩ := sleepStep_round hstep
  refine ⟨fun h => ?_, by rw [hrun']; exact hrun, ?_⟩
  · rcases hfirst' h with h | ⟨rfl, h⟩
    · exact hfirst h
    · exact hwork h
  · rw [hthreads]
    by_cases ht : SleepThread.table = t
    · subst ht
      rw [Function.update_self]
      rw [ne_eq, Bool.not_eq_true] at hrun
      rw [hrun] at hround
      exact hround.ne_work
    · rw [Function.update_of_ne ht]
      exact hwork

lemma not_tablePossible_step (h : LifeInv cfg s) (hs : ¬ s.tablePossible)
    (hstep : LifeStep cfg s s') : ¬ s'.tablePossible := by
  simp only [LifeState.tablePossible, not_or] at hs ⊢
  obtain ⟨hfirst, hrun, hwork⟩ := hs
  obtain ⟨act, hstep⟩ := hstep
  cases act with
  | tick d =>
      simp only [lifeStep, clockStep, Option.map_some, Option.some.injEq] at hstep
      subst hstep
      exact ⟨hfirst, hrun, hwork⟩
  | main ok =>
      obtain ⟨-, hclk, -, -⟩ := mainStep_left hstep
      rw [hclk]
      exact ⟨hfirst, hrun, hwork⟩
  | time =>
      have hdone := h.flags.stopped.1 (by simpa using hrun)
      simp [lifeStep, timeStep, hdone] at hstep
  | sleeper t event =>
      simp only [lifeStep] at hstep
      split at hstep
      · obtain ⟨clk, hsleep, rfl⟩ := Option.map_eq_some_iff.1 hstep
        exact not_tablePossible_clock hfirst hrun hwork hsleep
      · cases hstep
  | engine i ncmd =>
      simp only [lifeStep] at hstep
      split at hstep
      · obtain ⟨pc, -, rfl⟩ := engineStep_move hstep
        exact ⟨hfirst, hrun, hwork⟩
      · cases hstep
  | stat =>
      simp only [lifeStep] at hstep
      split at hstep
      · simp only [reportStep] at hstep
        split at hstep <;> cases hstep <;> exact ⟨hfirst, hrun, hwork⟩
      · cases hstep

/-! ### Runs with a table -/

/-- `main` has created all threads. -/
def MainPc.joining : MainPc → Prop
  | .joinAlter => True
  | .joinTable => True
  | .joinStat => True
  | .joinEngine _ => True
  | .returned => True
  | _ => False

lemma MainPc.joining.hasCreated {pc : MainPc} (h : pc.joining) {th : LifeThread}
    (hth : ∀ i, th ≠ .engine i) : pc.hasCreated cfg th = true := by
  cases th with
  | engine i => exact absurd rfl (hth i)
  | _ => cases pc <;> first | exact h.elim | rfl

/-- `main` can create all threads. -/
lemma exists_joining (cfg : LifeConfig) (h : s.main ≠ .exited) :
    ∃ s', Relation.ReflTransGen (LifeStep cfg) s s' ∧ s'.clk = s.clk ∧ s'.main.joining := by
  have hstep : ∀ t, (t.clk = s.clk ∧ t.main ≠ .exited) → ¬ t.main.joining →
      ∃ t', LifeStep cfg t t' ∧ (t'.clk = s.clk ∧ t'.main ≠ .exited) ∧
        t'.main.left cfg < t.main.left cfg := by
    rintro t ⟨hclk, hexited⟩ hjoining
    have hgo : ∀ t', mainStep cfg t true = some t' → t'.main ≠ .exited →
        ∃ t', LifeStep cfg t t' ∧ (t'.clk = s.clk ∧ t'.main ≠ .exited) ∧
          t'.main.left cfg < t.main.left cfg := by
      intro t' hmain hne
      obtain ⟨hleft, hclk', -, -⟩ := mainStep_left hmain
      exact ⟨t', ⟨.main true, hmain⟩, ⟨hclk'.trans hclk, hne⟩, hleft⟩
    rcases hpc : t.main with _ | _ | _ | i | _ | _ | _ | _ | i | _ | _ <;>
      simp only [hpc] at hgo hjoining
    case createTable =>
      exact hgo { t with main := .createAlter } (by simp [mainStep, hpc]) (by simp)
    case createAlter => exact hgo { t with main := .createTime } (by simp [mainStep, hpc]) (by simp)
    case createTime =>
      exact hgo { t with main := .createEngine 0 } (by simp [mainStep, hpc]) (by simp)
    case createEngine =>
      by_cases hi : i < cfg.engineThreadNum
      · exact hgo { t with main := .createEngine (i + 1) } (by simp [mainStep, hpc, hi]) (by simp)
      · exact hgo { t with main := .createStat } (by simp [mainStep, hpc, hi]) (by simp)
    case createStat => exact hgo { t with main := .joinAlter } (by simp [mainStep, hpc]) (by simp)
    case exited => exact absurd hpc hexited
    all_goals exact absurd trivial hjoining
  obtain ⟨s', hrun, ⟨hclk, -⟩, hjoining⟩ := exists_final (μ := fun t => t.main.left cfg)
    (I := fun t => t.clk = s.clk ∧ t.main ≠ .exited) (fun t : LifeState => t.main.joining) hstep
    ⟨rfl, h⟩
  exact ⟨s', hrun, hclk, hjoining⟩

/-- A step of a thread that sleeps, of a process with all its threads. -/
lemma lifeStep_sleeper (h : s.main.joining) {t : SleepThread} {event : SleepEvent}
    {clk : ClockState} (hsleep : sleepStep cfg.toClockConfig s.clk t event = some clk) :
    LifeStep cfg s { s with clk } := by
  have hcreated : s.main.hasCreated cfg (.sleeper t) = true := h.hasCreated (by simp)
  exact ⟨.sleeper t event, by simp [lifeStep, hcreated, hsleep]⟩

/-- The most steps that `table_thread` takes until its next CREATE. -/
def SleepLocals.toWork (l : SleepLocals) : ℕ :=
  match l.pc with
  | .test => 1
  | .remaining => 2 + (if l.endTime.isNone then 1 else 0) + if l.duration.isNone then 1 else 0
  | _ => 0

/-- `table_thread` comes to a CREATE, as long as the flag is set. -/
lemma exists_work (h : LifeInv cfg s) (hmain : s.main.joining) (hpossible : s.tablePossible) :
    ∃ s', Relation.ReflTransGen (LifeStep cfg) s s' ∧ (LifeInv cfg s' ∧ s'.main = s.main) ∧
      (s'.clk.hasFirstTable = true ∨ (s'.clk.threads .table).pc = .work) := by
  have hstep : ∀ t, ((LifeInv cfg t ∧ t.main = s.main) ∧ t.tablePossible) →
      ¬ (t.clk.hasFirstTable = true ∨ (t.clk.threads .table).pc = .work) →
      ∃ t', LifeStep cfg t t' ∧ ((LifeInv cfg t' ∧ t'.main = s.main) ∧ t'.tablePossible) ∧
        (t'.clk.threads .table).toWork < (t.clk.threads .table).toWork := by
    rintro t ⟨⟨hinv, hsame⟩, hposs⟩ hfinal
    rw [not_or] at hfinal
    have hrun : t.clk.isThreadRun = true := by
      rcases hposs with h | h | h
      · exact absurd h hfinal.1
      · exact h
      · exact absurd h hfinal.2
    have hgo : ∀ event clk, sleepStep cfg.toClockConfig t.clk .table event = some clk →
        (clk.threads .table).toWork < (t.clk.threads .table).toWork →
        ∃ t', LifeStep cfg t t' ∧ ((LifeInv cfg t' ∧ t'.main = s.main) ∧ t'.tablePossible) ∧
          (t'.clk.threads .table).toWork < (t.clk.threads .table).toWork := by
      intro event clk hsleep hlt
      have hlife := lifeStep_sleeper (hsame ▸ hmain) hsleep
      obtain ⟨l, -, -, hrun', -⟩ := sleepStep_round hsleep
      exact ⟨_, hlife, ⟨⟨hinv.step hlife, hsame⟩, Or.inr (Or.inl (hrun'.trans hrun))⟩, hlt⟩
    rcases hpc : (t.clk.threads .table).pc with _ | _ | _ | _ | _
    · exact absurd hpc hinv.flags.table
    · refine hgo .step _ (by simp [sleepStep, hpc]; rfl) ?_
      simp [ClockState.move, SleepLocals.toWork, hpc, hrun]
    · exact absurd hpc hfinal.2
    · rcases he : (t.clk.threads .table).endTime with _ | e
      · refine hgo .readEnd _ (by simp [sleepStep, hpc, he]; rfl) ?_
        simp [ClockState.move, SleepLocals.toWork, hpc, he]
      · rcases hd : (t.clk.threads .table).duration with _ | d
        · refine hgo .readDuration _ (by simp [sleepStep, hpc, hd]; rfl) ?_
          simp [ClockState.move, SleepLocals.toWork, hpc, he, hd]
        · refine hgo .step _ (by simp [sleepStep, hpc, he, hd]; rfl) ?_
          simp [ClockState.move, SleepLocals.toWork, hpc, he, hd]
    · have hstopped := hinv.flags.ended .table hpc
      rw [hrun] at hstopped
      cases hstopped
  obtain ⟨s', hrun, ⟨hs', -⟩, hfinal⟩ := exists_final
    (μ := fun t => (t.clk.threads .table).toWork)
    (I := fun t => (LifeInv cfg t ∧ t.main = s.main) ∧ t.tablePossible)
    (fun t : LifeState => t.clk.hasFirstTable = true ∨ (t.clk.threads .table).pc = .work) hstep
    ⟨⟨h, rfl⟩, hpossible⟩
  exact ⟨s', hrun, hs', hfinal⟩

/-- A table can be created. -/
lemma exists_table (h : LifeInv cfg s) (hmain : s.main.joining) (hpossible : s.tablePossible) :
    ∃ s', Relation.ReflTransGen (LifeStep cfg) s s' ∧ (LifeInv cfg s' ∧ s'.main = s.main) ∧
      s'.clk.hasFirstTable = true := by
  obtain ⟨s', hrun, ⟨hinv, hsame⟩, hfirst | hwork⟩ := exists_work h hmain hpossible
  · exact ⟨s', hrun, ⟨hinv, hsame⟩, hfirst⟩
  · have hcreate : sleepStep cfg.toClockConfig s'.clk .table (.statement true)
        = some { s'.clk.move .table ⟨.remaining, none, none⟩ with hasFirstTable := true } := by
      simp [sleepStep, hwork]
    have hlife := lifeStep_sleeper (hsame ▸ hmain) hcreate
    exact ⟨_, hrun.tail hlife, ⟨hinv.step hlife, hsame⟩, rfl⟩

/-- How far `time_thread` is from its end; the clock has to move on while it sleeps. -/
def ClockState.timeLeft (c : ClockState) : ℕ :=
  match c.time with
  | .begin => 11
  | .setEnd => 10
  | .readClock => if c.endTime ≤ c.clock - c.startTime then 4 else 9
  | .assign currTime => if c.endTime ≤ currTime - c.startTime then 3 else 8
  | .test => if c.duration < c.endTime then 7 else 2
  | .asleep => if c.endTime ≤ c.clock - c.startTime then 5 else 6
  | .stop => 1
  | .done => 0

/-- `time_thread` or the clock can go on, and the other threads stay where they are. -/
lemma exists_timeStep (cfg : ClockConfig) {c : ClockState} (h : c.time ≠ .done) :
    ∃ act c', (act = .time ∨ ∃ d, act = .tick d) ∧ clockStep cfg c act = some c' ∧
      c'.hasFirstTable = c.hasFirstTable ∧ c'.timeLeft < c.timeLeft := by
  rcases hpc : c.time with _ | _ | _ | _ | _ | curr | _ | _
  case begin => exact ⟨.time, { c with startTime := c.clock, time := .setEnd }, Or.inl rfl,
    by simp [clockStep, timeStep, hpc], rfl, by simp [ClockState.timeLeft, hpc]⟩
  case setEnd =>
    refine ⟨.time, { c with endTime := cfg.gEndTime, time := .test }, Or.inl rfl,
      by simp [clockStep, timeStep, hpc], rfl, ?_⟩
    simp only [ClockState.timeLeft, hpc]
    split <;> omega
  case test =>
    refine ⟨.time, { c with time := if c.duration < c.endTime then .asleep else .stop }, Or.inl rfl,
      by simp [clockStep, timeStep, hpc], rfl, ?_⟩
    by_cases hlt : c.duration < c.endTime
    · simp only [ClockState.timeLeft, hpc, hlt, if_true]
      split <;> omega
    · simp [ClockState.timeLeft, hpc, hlt]
  case asleep =>
    by_cases hlate : c.endTime ≤ c.clock - c.startTime
    · refine ⟨.time, { c with time := .readClock }, Or.inl rfl,
        by simp [clockStep, timeStep, hpc], rfl, ?_⟩
      simp [ClockState.timeLeft, hpc, hlate]
    · -- the clock moves on to the end
      refine ⟨.tick (c.endTime - (c.clock - c.startTime)).toNat, _, Or.inr ⟨_, rfl⟩, rfl, rfl, ?_⟩
      simp only [ClockState.timeLeft, hpc, hlate, if_false]
      rw [if_pos (by omega)]
      omega
  case readClock =>
    by_cases hlate : c.endTime ≤ c.clock - c.startTime
    · refine ⟨.time, { c with time := .assign c.clock }, Or.inl rfl,
        by simp [clockStep, timeStep, hpc], rfl, ?_⟩
      simp [ClockState.timeLeft, hpc, hlate]
    · refine ⟨.time, { c with time := .assign c.clock }, Or.inl rfl,
        by simp [clockStep, timeStep, hpc], rfl, ?_⟩
      simp [ClockState.timeLeft, hpc, hlate]
  case assign =>
    refine ⟨.time, { c with duration := curr - c.startTime, time := .test }, Or.inl rfl,
      by simp [clockStep, timeStep, hpc], rfl, ?_⟩
    simp only [ClockState.timeLeft, hpc]
    split <;> split <;> omega
  case stop => exact ⟨.time, { c with isThreadRun := false, time := .done }, Or.inl rfl,
    by simp [clockStep, timeStep, hpc], rfl, by simp [ClockState.timeLeft, hpc]⟩
  case done => exact absurd hpc h

/-- The flag can be cleared. -/
lemma exists_stopping (h : LifeInv cfg s) (hmain : s.main.joining)
    (hfirst : s.clk.hasFirstTable = true) :
    ∃ s', Relation.ReflTransGen (LifeStep cfg) s s' ∧ Stopping cfg s' ∧ s'.main = s.main := by
  have hstep : ∀ t, (LifeInv cfg t ∧ t.main = s.main ∧ t.clk.hasFirstTable = true) →
      ¬ t.clk.time = .done →
      ∃ t', LifeStep cfg t t' ∧
        (LifeInv cfg t' ∧ t'.main = s.main ∧ t'.clk.hasFirstTable = true) ∧
        t'.clk.timeLeft < t.clk.timeLeft := by
    rintro t ⟨hinv, hsame, hf⟩ hdone
    obtain ⟨act, clk, hact, hclk, hf', hlt⟩ := exists_timeStep cfg.toClockConfig hdone
    have hlife : LifeStep cfg t { t with clk } := by
      rcases hact with rfl | ⟨d, rfl⟩
      · have hcreated : t.main.hasCreated cfg .time = true :=
          (hsame ▸ hmain).hasCreated (by simp)
        have htime : timeStep cfg.toClockConfig t.clk = some clk := hclk
        exact ⟨.time, by simp [lifeStep, hcreated, htime]⟩
      · exact ⟨.tick d, by simp only [lifeStep, hclk, Option.map_some]⟩
    exact ⟨_, hlife, ⟨hinv.step hlife, hsame, hf'.trans hf⟩, hlt⟩
  obtain ⟨s', hrun, ⟨hinv, hsame, hf⟩, hdone⟩ := exists_final (μ := fun t => t.clk.timeLeft)
    (I := fun t => LifeInv cfg t ∧ t.main = s.main ∧ t.clk.hasFirstTable = true)
    (fun t : LifeState => t.clk.time = .done) hstep ⟨h, rfl, hfirst⟩
  exact ⟨s', hrun, ⟨hinv, hinv.flags.stopped.2 hdone, hf⟩, hsame⟩

/-- **When `start_engine` can still return.**  As long as all threads can be created, it can return
from a state exactly when there is a table, or the flag is set, or `table_thread` is about to send
another CREATE; from every other state `alter_thread` and the engine threads wait for ever, and
`main` with them. -/
theorem start_engine_returns_iff (cfg : LifeConfig) (clock : Int) {s : LifeState}
    (hrun : Relation.ReflTransGen (LifeStep cfg) (.initial clock) s) (hexited : s.main ≠ .exited) :
    (∃ s', Relation.ReflTransGen (LifeStep cfg) s s' ∧ s'.main = .returned) ↔
      s.tablePossible := by
  constructor
  · rintro ⟨s', hrun', hreturned⟩
    by_contra hnot
    have hs' : LifeInv cfg s' ∧ ¬ s'.tablePossible :=
      invariant_of_run (I := fun t => LifeInv cfg t ∧ ¬ t.tablePossible)
        (fun t t' h hstep => ⟨h.1.step hstep, not_tablePossible_step h.1 h.2 hstep⟩)
        ⟨lifeInv_of_run hrun, hnot⟩ hrun'
    have halter : (s'.clk.threads .alter).pc = .done := by
      simpa [LifeState.hasEnded] using
        hs'.1.joined (.sleeper .alter) (by rw [hreturned]; rfl)
    exact hs'.2 (Or.inl (hs'.1.flags.first (by simp [halter])))
  · intro hpossible
    obtain ⟨s₁, hrun₁, hclk₁, hjoining⟩ := exists_joining cfg hexited
    have hinv₁ : LifeInv cfg s₁ := lifeInv_of_run (hrun.trans hrun₁)
    have hpossible₁ : s₁.tablePossible := by
      rw [LifeState.tablePossible, hclk₁]
      exact hpossible
    obtain ⟨s₂, hrun₂, ⟨hinv₂, hsame₂⟩, hfirst⟩ := exists_table hinv₁ hjoining hpossible₁
    obtain ⟨s₃, hrun₃, hstopping, hsame₃⟩ := exists_stopping hinv₂ (hsame₂ ▸ hjoining) hfirst
    have hexited₃ : s₃.main ≠ .exited := by
      rw [hsame₃, hsame₂]
      intro h
      rw [h] at hjoining
      exact hjoining
    obtain ⟨s₄, hrun₄, hreturned⟩ := hstopping.returns hexited₃
    exact ⟨s₄, ((hrun₁.trans hrun₂).trans hrun₃).trans hrun₄, hreturned⟩

/-- No CREATE succeeds until the time is over. -/
def withoutTable : List LifeAction :=
  List.replicate 6 (.main true) ++
    [.sleeper .table .step, .sleeper .table (.statement false), .engine 0 0, .stat] ++
    List.replicate 3 .time ++ .tick 1 :: List.replicate 5 .time ++
    [.sleeper .table .readEnd, .sleeper .table .readDuration, .sleeper .table .step,
      .sleeper .table .step]

/-- `start_engine` cannot return any more. -/
theorem start_engine_returns_iff_never :
    ∃ s, Relation.ReflTransGen (LifeStep oneEngine) (.initial 1000) s ∧ s.main = .joinAlter ∧
      ¬ ∃ s', Relation.ReflTransGen (LifeStep oneEngine) s s' ∧ s'.main = .returned := by
  have hsome : (lifeRun oneEngine withoutTable).isSome = true := by decide
  have hrun := lifeRun_run (Option.some_get hsome).symm
  have hmain : ((lifeRun oneEngine withoutTable).get hsome).main = .joinAlter := rfl
  have hfirst : ((lifeRun oneEngine withoutTable).get hsome).clk.hasFirstTable = false := rfl
  have hstopped : ((lifeRun oneEngine withoutTable).get hsome).clk.isThreadRun = false := rfl
  have htable : (((lifeRun oneEngine withoutTable).get hsome).clk.threads .table).pc = .done := rfl
  refine ⟨_, hrun, hmain, ?_⟩
  rw [start_engine_returns_iff oneEngine 1000 hrun (by rw [hmain]; decide)]
  simp [LifeState.tablePossible, hfirst, hstopped, htable]

end NoTable

end CheckQ
