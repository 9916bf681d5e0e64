import CheckQ.Lib.Refinement
import Mathlib.Logic.Function.Basic
import Mathlib.Algebra.Order.Ring.Int

/-!
# The remaining time

`time_thread` of `engine/cq_engine.c` moves `duration` along with the clock and clears
`is_thread_run` when `end_time` is reached.  `table_thread` and `alter_thread` compute
`end_time - duration` at the end of each round and sleep for that long, or for a limit of their
own when it is shorter.  The threads take their reads and writes of the three variables one at a
time and in any order; the operands of the subtraction are read in either order, which C leaves
open.  Between two steps the clock may move on by any amount.

`sleep` takes an `unsigned int`, so a negative argument is a very long sleep.  The argument is
kept here as it is computed.  It is negative when the clock has skipped past the end, and when a
thread has read `end_time` before `time_thread` sets it; `OnTimeStep` are the steps that do
neither.
-/

namespace CheckQ

/-- `g_end_time` and `g_alter_interval`. -/
structure ClockConfig where
  gEndTime : Int
  gAlterInterval : Int
  gEndTime_nonneg : 0 ≤ gEndTime
  gAlterInterval_nonneg : 0 ≤ gAlterInterval

/-- The threads that sleep for the remaining time. -/
inductive SleepThread where
  | table
  | alter
deriving DecidableEq, Repr

/-- The longest sleep of a thread: `TABLE_THREAD_SLEEP` and `g_alter_interval`. -/
def SleepThread.limit (cfg : ClockConfig) : SleepThread → Int
  | .table => 1200
  | .alter => cfg.gAlterInterval

/-- Where `time_thread` is. -/
inductive TimePc where
  -- before `start_time = time(NULL)`
  | begin
  -- before `end_time = g_end_time`
  | setEnd
  -- before `while (duration < end_time)`
  | test
  | asleep
  -- before `curr_time = time(NULL)`
  | readClock
  -- before `duration = curr_time - start_time`
  | assign (currTime : Int)
  -- before `is_thread_run = false`
  | stop
  | done
deriving DecidableEq, Repr

/-- Where `table_thread` or `alter_thread` is. -/
inductive SleepPc where
  -- `while (!has_first_table)`, for `alter_thread` only
  | wait
  -- before `while (is_thread_run)`
  | test
  -- before the statement of the round
  | work
  -- at `end_time - duration` and the `sleep`
  | remaining
  | done
deriving DecidableEq, Repr

/-- A thread that sleeps, with what it has read of `end_time` and `duration` in this round. -/
structure SleepLocals where
  pc : SleepPc
  endTime : Option Int
  duration : Option Int
deriving DecidableEq, Repr

/-- The clock, the shared variables, the threads, and the arguments that were passed to `sleep`
by the two threads that compute them. -/
structure ClockState where
  clock : Int
  startTime : Int
  duration : Int
  endTime : Int
  isThreadRun : Bool
  hasFirstTable : Bool
  time : TimePc
  threads : SleepThread → SleepLocals
  slept : List (SleepThread × Int)

/-- What a thread that sleeps does next; a `statement` is its CREATE or ALTER, and whether it
succeeded. -/
inductive SleepEvent where
  | step
  | statement (ok : Bool)
  | readEnd
  | readDuration
deriving DecidableEq, Repr

/-- The clock moves on, or a thread takes a step. -/
inductive ClockAction where
  | tick (d : ℕ)
  | time
  | thread (t : SleepThread) (event : SleepEvent)
deriving DecidableEq, Repr

/-- The start of the program at the time `clock`. -/
def ClockState.initial (clock : Int) : ClockState where
  clock := clock
  startTime := 0
  duration := 0
  endTime := 0
  isThreadRun := true
  hasFirstTable := false
  time := .begin
  threads
    | .table => ⟨.test, none, none⟩
    | .alter => ⟨.wait, none, none⟩
  slept := []

/-- The thread `t` moves on. -/
def ClockState.move (s : ClockState) (t : SleepThread) (l : SleepLocals) : ClockState :=
  { s with threads := Function.update s.threads t l }

/-- The next step of `time_thread`.  It alone writes `duration` and `end_time`, so its test of
the two is one step. -/
def timeStep (cfg : ClockConfig) (s : ClockState) : Option ClockState :=
  match s.time with
  | .begin => some { s with startTime := s.clock, time := .setEnd }
  | .setEnd => some { s with endTime := cfg.gEndTime, time := .test }
  | .test => some { s with time := if s.duration < s.endTime then .asleep else .stop }
  | .asleep => some { s with time := .readClock }
  | .readClock => some { s with time := .assign s.clock }
  | .assign currTime => some { s with duration := currTime - s.startTime, time := .test }
  | .stop => some { s with isThreadRun := false, time := .done }
  | .done => none

/-- The argument of `sleep` for a remaining time. -/
def sleepArgument (cfg : ClockConfig) (t : SleepThread) (remainingTime : Int) : Int :=
  if remainingTime < t.limit cfg then remainingTime else t.limit cfg

/-- A step of `table_thread` or `alter_thread`. -/
def sleepStep (cfg : ClockConfig) (s : ClockState) (t : SleepThread) :
    SleepEvent → Option ClockState
  | .step =>
      match (s.threads t).pc with
      | .wait => some (if s.hasFirstTable then s.move t ⟨.test, none, none⟩ else s)
      | .test => some (s.move t ⟨if s.isThreadRun then .work else .done, none, none⟩)
      | .remaining =>
          match (s.threads t).endTime, (s.threads t).duration with
          | some e, some d =>
              some { s.move t ⟨.test, none, none⟩ with
                slept := s.slept ++ [(t, sleepArgument cfg t (e - d))] }
          | _, _ => none
      | _ => none
  | .statement ok =>
      if (s.threads t).pc = .work then
        some { s.move t ⟨.remaining, none, none⟩ with
          hasFirstTable := s.hasFirstTable || (t == .table && ok) }
      else none
  | .readEnd =>
      if (s.threads t).pc = .remaining ∧ (s.threads t).endTime = none then
        some (s.move t { s.threads t with endTime := some s.endTime })
      else none
  | .readDuration =>
      if (s.threads t).pc = .remaining ∧ (s.threads t).duration = none then
        some (s.move t { s.threads t with duration := some s.duration })
      else none

/-- One step. -/
def clockStep (cfg : ClockConfig) (s : ClockState) : ClockAction → Option ClockState
  | .tick d => some { s with clock := s.clock + d }
  | .time => timeStep cfg s
  | .thread t event => sleepStep cfg s t event

/-- The step is on time: when `time_thread` reads the clock, no more than `g_end_time` has passed
since it started, and a thread whose `end_time` is not `g_end_time` yet finds `duration` at 0. -/
def onTime (cfg : ClockConfig) (s : ClockState) : ClockAction → Bool
  | .time => s.time ≠ .readClock || s.clock - s.startTime ≤ cfg.gEndTime
  | .thread t .readDuration =>
      (s.threads t).endTime.all fun e => e = cfg.gEndTime || s.duration = 0
  | _ => true

/-- One step of a thread or of the clock. -/
def ClockStep (cfg : ClockConfig) (s s' : ClockState) : Prop :=
  ∃ action, clockStep cfg s action = some s'

/-- One step that is on time. -/
def OnTimeStep (cfg : ClockConfig) (s s' : ClockState) : Prop :=
  ∃ action, onTime cfg s action = true ∧ clockStep cfg s action = some s'

/-- All arguments of `sleep` are in their range. -/
def SleepsInRange (cfg : ClockConfig) (s : ClockState) : Prop :=
  ∀ p ∈ s.slept, 0 ≤ p.2 ∧ p.2 ≤ p.1.limit cfg

/-! ### The invariant -/

/-- `end_time` has been set. -/
def TimePc.running : TimePc → Bool
  | .begin | .setEnd => false
  | _ => true

/-- What a thread has read of `end_time` is not negative, and what it has read of `duration` is
at most the `end_time` that it has read or will read. -/
def SleepLocals.Ok (endTime : Int) (l : SleepLocals) : Prop :=
  (∀ e ∈ l.endTime, 0 ≤ e) ∧ ∀ d ∈ l.duration, d ≤ l.endTime.getD endTime

/-- In a run that is on time, `duration` never passes `end_time`. -/
structure ClockInv (cfg : ClockConfig) (s : ClockState) : Prop where
  started : s.time ≠ .begin → s.startTime ≤ s.clock
  duration_nonneg : 0 ≤ s.duration
  duration_le : s.duration ≤ s.endTime
  endTime_le : s.endTime ≤ cfg.gEndTime
  endTime_eq : s.time.running = true → s.endTime = cfg.gEndTime
  assigned : ∀ curr, s.time = .assign curr →
    0 ≤ curr - s.startTime ∧ curr - s.startTime ≤ cfg.gEndTime
  threads : ∀ t, (s.threads t).Ok s.endTime
  slept : SleepsInRange cfg s

lemma clockInv_initial (cfg : ClockConfig) (clock : Int) : ClockInv cfg (.initial clock) where
  started h := absurd rfl h
  duration_nonneg := le_rfl
  duration_le := le_rfl
  endTime_le := cfg.gEndTime_nonneg
  endTime_eq h := by simp [ClockState.initial, TimePc.running] at h
  assigned curr h := by simp [ClockState.initial] at h
  threads t := by cases t <;> simp [ClockState.initial, SleepLocals.Ok]
  slept p hp := by simp [ClockState.initial] at hp

namespace ClockInv

variable {cfg : ClockConfig} {s s' : ClockState}

/-- A thread moves on and the other one stays where it is. -/
lemma move (hinv : ClockInv cfg s) {t : SleepThread} {l : SleepLocals} (hl : l.Ok s.endTime) :
    ClockInv cfg (s.move t l) := by
  refine { hinv with threads := fun t' => ?_ }
  show (Function.update s.threads t l t').Ok s.endTime
  by_cases ht : t' = t
  · subst ht
    rwa [Function.update_self]
  · rw [Function.update_of_ne ht]
    exact hinv.threads t'

/-- `time_thread` moves on after it has set `end_time`. -/
lemma goto (hinv : ClockInv cfg s) (hrunning : s.time.running = true) {pc : TimePc}
    (hassigned : ∀ curr, pc = .assign curr →
      0 ≤ curr - s.startTime ∧ curr - s.startTime ≤ cfg.gEndTime) :
    ClockInv cfg { s with time := pc } := by
  have hne : s.time ≠ .begin := by
    intro h
    simp [h, TimePc.running] at hrunning
  exact { hinv with
    started := fun _ => hinv.started hne
    endTime_eq := fun _ => hinv.endTime_eq hrunning
    assigned := hassigned }

/-- A step of `time_thread`. -/
lemma timeStep (hinv : ClockInv cfg s)
    (hclock : s.time = .readClock → s.clock - s.startTime ≤ cfg.gEndTime)
    (hstep : CheckQ.timeStep cfg s = some s') : ClockInv cfg s' := by
  rw [CheckQ.timeStep] at hstep
  rcases hpc : s.time with _ | _ | _ | _ | _ | curr | _ | _ <;>
    simp only [hpc, Option.some.injEq, reduceCtorEq] at hstep
  · -- `start_time` is the clock
    subst hstep
    refine { hinv with started := fun _ => le_rfl, endTime_eq := ?_, assigned := ?_ } <;>
      simp [TimePc.running]
  · -- `end_time` is set, and grows
    subst hstep
    have hold := hinv.endTime_le
    refine { hinv with
      started := fun _ => hinv.started (by simp [hpc])
      duration_le := hinv.duration_le.trans hold
      endTime_le := le_rfl
      endTime_eq := fun _ => rfl
      assigned := by simp
      threads := fun t => ?_ }
    obtain ⟨hend, hdur⟩ := hinv.threads t
    refine ⟨hend, fun d hd => (hdur d hd).trans ?_⟩
    cases (s.threads t).endTime with
    | none => exact hold
    | some e => exact le_rfl
  · subst hstep
    refine hinv.goto (by simp [hpc, TimePc.running]) fun curr h => ?_
    split at h <;> cases h
  · subst hstep
    exact hinv.goto (by simp [hpc, TimePc.running]) (by simp)
  · -- the clock is read, on time
    subst hstep
    refine hinv.goto (by simp [hpc, TimePc.running]) fun curr h => ?_
    obtain rfl : s.clock = curr := by simpa using h
    have hstart := hinv.started (by simp [hpc])
    exact ⟨Int.sub_nonneg_of_le hstart, hclock hpc⟩
  · -- `duration` is written
    subst hstep
    obtain ⟨hnonneg, hle⟩ := hinv.assigned curr hpc
    have hend := hinv.endTime_eq (by simp [hpc, TimePc.running])
    have hgoto : ClockInv cfg { s with time := .test } :=
      hinv.goto (by simp [hpc, TimePc.running]) (by simp)
    exact { hgoto with
      duration_nonneg := hnonneg
      duration_le := hle.trans hend.ge }
  · subst hstep
    have hgoto : ClockInv cfg { s with time := .done } :=
      hinv.goto (by simp [hpc, TimePc.running]) (by simp)
    exact { hgoto with }

/-- A thread that has read nothing in its round. -/
lemma nothingRead (pc : SleepPc) (endTime : Int) : (SleepLocals.mk pc none none).Ok endTime := by
  simp [SleepLocals.Ok]

/-- The argument of `sleep` is in its range when the remaining time is not negative. -/
lemma sleepArgument_range (cfg : ClockConfig) (t : SleepThread) {remainingTime : Int}
    (h : 0 ≤ remainingTime) :
    0 ≤ sleepArgument cfg t remainingTime ∧ sleepArgument cfg t remainingTime ≤ t.limit cfg := by
  have hlimit : 0 ≤ t.limit cfg := by
    cases t with
    | table => exact (by decide : (0 : Int) ≤ 1200)
    | alter => exact cfg.gAlterInterval_nonneg
  rw [sleepArgument]
  split <;> omega

lemma sleepStep (hinv : ClockInv cfg s) {t : SleepThread} {event : SleepEvent}
    (hread : event = .readDuration →
      ∀ e ∈ (s.threads t).endTime, e = cfg.gEndTime ∨ s.duration = 0)
    (hstep : CheckQ.sleepStep cfg s t event = some s') : ClockInv cfg s' := by
  obtain ⟨hend, hdur⟩ := hinv.threads t
  cases event with
  | step =>
      rcases hpc : (s.threads t).pc with _ | _ | _ | _ | _ <;>
        simp only [CheckQ.sleepStep, hpc, Option.some.injEq, reduceCtorEq] at hstep
      · split at hstep
        · subst hstep
          exact hinv.move (nothingRead _ _)
        · subst hstep
          exact hinv
      · subst hstep
        exact hinv.move (nothingRead _ _)
      · -- the thread sleeps
        rcases he : (s.threads t).endTime with _ | e <;> rcases hd : (s.threads t).duration with _ | d <;>
          simp only [he, hd, Option.some.injEq, reduceCtorEq] at hstep
        subst hstep
        have hle : d ≤ e := by simpa [he] using hdur d (by simp [hd])
        refine { hinv.move (t := t) (nothingRead .test s.endTime) with slept := fun p hp => ?_ }
        rcases List.mem_append.1 hp with hp | hp
        · exact hinv.slept p hp
        · rw [List.mem_singleton.1 hp]
          exact sleepArgument_range cfg t (by omega)
  | statement ok =>
      simp only [CheckQ.sleepStep] at hstep
      split at hstep
      · cases hstep
        exact { hinv.move (t := t) (nothingRead .remaining s.endTime) with }
      · cases hstep
  | readEnd =>
      simp only [CheckQ.sleepStep] at hstep
      split at hstep
      · rename_i hpc
        cases hstep
        refine hinv.move ⟨fun e he => ?_, fun d hd => ?_⟩
        · obtain rfl : s.endTime = e := by simpa using he
          exact hinv.duration_nonneg.trans hinv.duration_le
        · have := hdur d hd
          simpa [hpc.2] using this
      · cases hstep
  | readDuration =>
      simp only [CheckQ.sleepStep] at hstep
      split at hstep
      · cases hstep
        refine hinv.move ⟨hend, fun d hd => ?_⟩
        obtain rfl : s.duration = d := by simpa using hd
        show s.duration ≤ (s.threads t).endTime.getD s.endTime
        rcases he : (s.threads t).endTime with _ | e
        · exact hinv.duration_le
        · -- `end_time` was read before: it is `g_end_time`, or `duration` has not moved
          have hnonneg := hend e (by simp [he])
          show s.duration ≤ e
          rcases hread rfl e (by simp [he]) with rfl | hzero
          · exact hinv.duration_le.trans hinv.endTime_le
          · omega
      · cases hstep

/-- A step that is on time keeps the invariant. -/
lemma step (hinv : ClockInv cfg s) (hstep : OnTimeStep cfg s s') : ClockInv cfg s' := by
  obtain ⟨action, hok, hstep⟩ := hstep
  cases action with
  | tick d =>
      simp only [clockStep, Option.some.injEq] at hstep
      subst hstep
      refine { hinv with started := fun h => ?_ }
      have := hinv.started h
      show s.startTime ≤ s.clock + d
      omega
  | time =>
      refine hinv.timeStep (fun hpc => ?_) hstep
      simpa [onTime, hpc] using hok
  | thread t event =>
      refine hinv.sleepStep ?_ hstep
      rintro rfl e he
      rw [onTime, Option.mem_def.1 he] at hok
      simpa using hok

end ClockInv

/-- The invariant along a run. -/
lemma clockInv_of_run {cfg : ClockConfig} {clock : Int} {s : ClockState}
    (hrun : Relation.ReflTransGen (OnTimeStep cfg) (.initial clock) s) : ClockInv cfg s := by
  induction hrun with
  | refl => exact clockInv_initial cfg clock
  | tail _ hstep ih => exact ih.step hstep

/-- **The arguments of `sleep` are in their range** in every run whose steps are on time. -/
theorem sleeps_in_range (cfg : ClockConfig) (clock : Int) (s : ClockState)
    (hrun : Relation.ReflTransGen (OnTimeStep cfg) (.initial clock) s) : SleepsInRange cfg s :=
  (clockInv_of_run hrun).slept

/-! ### Two runs -/

/-- A run of three seconds. -/
def shortConfig : ClockConfig := ⟨3, 5, by decide, by decide⟩

/-- Both threads sleep at the start, and the table thread once more at the end. -/
theorem sleeps_in_range_short :
    ∃ s, Relation.ReflTransGen (OnTimeStep shortConfig) (.initial 1000) s ∧
      s.slept = [(.table, 3), (.alter, 2), (.table, 0)] ∧ SleepsInRange shortConfig s := by
  let run := runSchedule (clockStep shortConfig) (onTime shortConfig)
    [.time, .time, .thread .table .step, .thread .table (.statement true), .thread .table .readEnd,
      .thread .alter .step, .thread .alter .step, .thread .table .readDuration, .thread .table .step,
      .time, .time, .tick 1, .time, .time, .thread .alter (.statement true),
      .thread .alter .readDuration, .thread .alter .readEnd, .thread .alter .step, .time, .time,
      .tick 2, .time, .time, .thread .table .step, .thread .table (.statement false),
      .thread .table .readEnd, .thread .table .readDuration, .thread .table .step]
    (ClockState.initial 1000)
  have hsome : run.isSome = true := by decide
  have hrun : Relation.ReflTransGen (OnTimeStep shortConfig) (.initial 1000) (run.get hsome) :=
    run_of_schedule (fun s action s' hok hstep => ⟨action, hok, hstep⟩) (Option.some_get hsome).symm
  exact ⟨run.get hsome, hrun, rfl, sleeps_in_range shortConfig 1000 _ hrun⟩

/-- The clock skips a second at the end: `duration` is 4, `is_thread_run` is still set, and the
table thread sleeps for the remaining time -1. -/
theorem sleep_negative :
    ∃ s, Relation.ReflTransGen (ClockStep shortConfig) (.initial 1000) s ∧
      ¬SleepsInRange shortConfig s := by
  let run := runSchedule (clockStep shortConfig) (fun _ _ => true)
    [.time, .time, .time, .time, .tick 2, .time, .time, .time, .time, .tick 2, .time, .time,
      .thread .table .step, .thread .table (.statement true), .thread .table .readEnd,
      .thread .table .readDuration, .thread .table .step] (ClockState.initial 1000)
  have hsome : run.isSome = true := by decide
  refine ⟨run.get hsome, ?_, ?_⟩
  · exact run_of_schedule (fun s action s' _ hstep => ⟨action, hstep⟩) (Option.some_get hsome).symm
  · intro hrange
    have hslept : (run.get hsome).slept = [(.table, -1)] := rfl
    have := (hrange (.table, -1) (by simp [hslept])).1
    exact absurd this (by decide)

end CheckQ
