import CheckQ.Engine.ColumnRace

/-!
# Which statements get to their end while columns come and go

A generator that has copied the counter runs to that number of columns, whatever happens to them
meanwhile.  `alter_thread` stops between two of its accesses, and the generators that have begun go
on: the ones that have copied more columns than there are left follow a pointer to a freed column,
and no other does (`generation_outcome_iff`).  When no column is freed while a generator is at work,
every statement has the columns that there were when its generator began
(`calm_generation_snapshot`).
-/

namespace CheckQ

variable {ι : Type}

/-- A generator in this place still needs a column that is freed. -/
def ColumnState.Stale (s : ColumnState ι) : GenPc → Prop
  | .scan ndata seen => seen.length < ndata ∧ s.columns < ndata
  | .use ndata _ p => s.columns < ndata ∨ s.stack.blocks p = none
  | _ => False

variable [DecidableEq ι] {ps : List ℕ} {schemas : List TableData} {s s' : ColumnState ι} {i : ι}

/-- An access of a generator that has begun. -/
def InFlightStep (s s' : ColumnState ι) : Prop :=
  ColumnStep s s' ∧ s'.alter = s.alter ∧ ∀ i, s.gens i = .idle → s'.gens i = .idle

/-! ### What stays while `alter_thread` does nothing -/

/-- Every step of `alter_thread` gets it to another place. -/
lemma AlterStep.pc_ne {t t' : SharedStack TableData} {pc pc' : AlterPc}
    (h : AlterStep t pc t' pc') : pc' ≠ pc := by
  cases h with
  | check htop => split <;> exact AlterPc.noConfusion
  | dropGen htop accepted => cases accepted <;> exact AlterPc.noConfusion
  | _ => exact AlterPc.noConfusion

lemma InFlightStep.cases (h : InFlightStep s s') :
    s.faulted = false ∧ ((∃ i pc, s.gens i ≠ .idle ∧ GenStep s.stack (s.gens i) pc ∧
      s' = s.goto i pc) ∨ s.Faults ∧ s' = { s with faulted := true }) := by
  obtain ⟨hstep, halter, hidle⟩ := h
  cases hstep with
  | alter hs hstep => exact absurd halter hstep.pc_ne
  | @gen i pc hs hstep =>
      refine ⟨hs, Or.inl ⟨i, pc, fun hpc => ?_, hstep, rfl⟩⟩
      have hpc' := hidle i hpc
      rw [ColumnState.goto_gens, if_pos rfl] at hpc'
      rw [hpc, hpc'] at hstep
      cases hstep
  | fault hs hfault => exact ⟨hs, Or.inr ⟨hfault, rfl⟩⟩

/-- A generator that has begun goes on. -/
lemma InFlightStep.goto {pc : GenPc} (hs : s.faulted = false) (hpc : s.gens i ≠ .idle)
    (hstep : GenStep s.stack (s.gens i) pc) : InFlightStep s (s.goto i pc) := by
  refine ⟨.gen hs hstep, rfl, fun j hj => ?_⟩
  rw [ColumnState.goto_gens, if_neg]
  · exact hj
  · rintro rfl
    exact hpc hj

omit [DecidableEq ι] in
/-- A step of a generator does not change what it needs. -/
lemma ColumnInv.stale_iff (h : ColumnInv ps schemas s) {pc : GenPc} (hpc : s.gens i ≠ .idle)
    (hstep : GenStep s.stack (s.gens i) pc) : s.Stale pc ↔ s.Stale (s.gens i) := by
  have hgen := h.gens i
  have hcolumns := h.columns_eq
  generalize s.gens i = old at hpc hstep hgen
  cases hstep with
  | begin => exact absurd rfl hpc
  | @load ndata seen p hlt hload =>
      refine ⟨?_, fun hstale => Or.inl hstale.2⟩
      rintro (hcols | hblock)
      · exact ⟨hlt, hcols⟩
      · refine ⟨hlt, Nat.lt_of_not_le fun hle => ?_⟩
        have hcell := h.stack.holds.cell seen.length _
          (List.getElem?_eq_getElem (hcolumns ▸ hlt.trans_le hle))
        rw [fetch, if_neg (by omega), Int.toNat_natCast, hcell] at hload
        cases hload
        obtain ⟨data, -, hdata⟩ := h.stack.holds.block_some
          (List.getElem?_eq_getElem (hcolumns ▸ hlt.trans_le hle))
        rw [hdata] at hblock
        cases hblock
  | @again ndata seen p data hderef =>
      have hblock : s.stack.blocks p ≠ none := by
        intro hnone
        rw [SharedStack.deref, hnone] at hderef
        cases hderef
      exact ⟨fun hstale => Or.inl hstale.2, fun hstale => ⟨hgen.2.1, hstale.resolve_right hblock⟩⟩
  | @next ndata seen p data hderef =>
      have hblock : s.stack.blocks p ≠ none := by
        intro hnone
        rw [SharedStack.deref, hnone] at hderef
        cases hderef
      refine ⟨fun hstale => Or.inl hstale.2, fun hstale => ?_⟩
      have hcols := hstale.resolve_right hblock
      refine ⟨?_, hcols⟩
      have hlt := (List.getElem?_eq_some_iff.1 (hgen.2.2.current.resolve_right hblock)).1
      rw [List.length_append, List.length_singleton]
      omega
  | finish hge => exact ⟨False.elim, fun hstale => absurd hstale.1 (Nat.not_lt.2 hge)⟩
  | leave => exact Iff.rfl

/-- What stays in a run of the generators that have begun. -/
structure InFlight (ps : List ℕ) (schemas : List TableData) (s s' : ColumnState ι) : Prop where
  inv : ColumnInv ps schemas s'
  stack : s'.stack = s.stack
  alter : s'.alter = s.alter
  stale : ∀ i, s'.Stale (s'.gens i) ↔ s.Stale (s.gens i)

lemma InFlight.step {s'' : ColumnState ι} (h : InFlight ps schemas s s')
    (hstep : InFlightStep s' s'') : InFlight ps schemas s s'' := by
  obtain ⟨-, ⟨i, pc, hpc, hgen, rfl⟩ | ⟨-, rfl⟩⟩ := hstep.cases
  · refine ⟨h.inv.goto hgen, h.stack, h.alter, fun j => ?_⟩
    rw [← h.stale j, ColumnState.goto_gens]
    split
    · rename_i hji
      rw [hji]
      exact h.inv.stale_iff hpc hgen
    · exact Iff.rfl
  · exact ⟨⟨h.inv.stack, h.inv.gens⟩, h.stack, h.alter, h.stale⟩

lemma ColumnInv.inFlight (h : ColumnInv ps schemas s)
    (hrun : Relation.ReflTransGen InFlightStep s s') : InFlight ps schemas s s' := by
  induction hrun with
  | refl => exact ⟨h, rfl, rfl, fun _ => Iff.rfl⟩
  | tail _ hstep ih => exact ih.step hstep

/-! ### Where a generator gets to -/

/-- A generator goes on alone, to its end or to a column that is freed. -/
lemma ColumnInv.progress (h : ColumnInv ps schemas s) (hs : s.faulted = false) {ndata : ℕ}
    {seen : List TableData} (hpc : s.gens i = .scan ndata seen) :
    ∃ s', Relation.ReflTransGen InFlightStep s s' ∧ s'.faulted = false ∧
      ((∃ seen, s'.gens i = .done seen) ∨
        ∃ ndata seen p, s'.gens i = .use ndata seen p ∧ s'.stack.blocks p = none) := by
  -- on the number of columns that it has not written
  induction hleft : ndata - seen.length generalizing s seen with
  | zero =>
      have hstep : GenStep s.stack (s.gens i) (.done seen) := hpc ▸ .finish (by omega)
      refine ⟨_, .single (.goto hs ?_ hstep), hs, Or.inl ⟨seen, ?_⟩⟩
      · rw [hpc]
        exact GenPc.noConfusion
      · rw [ColumnState.goto_gens, if_pos rfl]
  | succ k ih =>
      have hgen := h.gens i
      rw [hpc] at hgen
      have hlt : seen.length < ndata := by omega
      obtain ⟨p, hp⟩ := hgen _ hlt
      have hload : GenStep s.stack (s.gens i) (.use ndata seen p) := by
        rw [hpc]
        refine .load hlt ?_
        rw [fetch, if_neg (by omega), Int.toNat_natCast, hp]
      have hfirst : InFlightStep s (s.goto i (.use ndata seen p)) := by
        refine .goto hs ?_ hload
        rw [hpc]
        exact GenPc.noConfusion
      have huse : (s.goto i (.use ndata seen p)).gens i = .use ndata seen p := by
        rw [ColumnState.goto_gens, if_pos rfl]
      have hinv := h.goto hload
      rcases hblock : s.stack.blocks p with _ | data
      · exact ⟨_, .single hfirst, hs, Or.inr ⟨ndata, seen, p, huse, hblock⟩⟩
      · have hnext : GenStep (s.goto i (.use ndata seen p)).stack
            ((s.goto i (.use ndata seen p)).gens i) (.scan ndata (seen ++ [data])) := by
          rw [huse]
          refine .next ?_
          show s.stack.deref p = .ret data
          rw [SharedStack.deref, hblock]
        have hsecond : InFlightStep (s.goto i (.use ndata seen p))
            ((s.goto i (.use ndata seen p)).goto i (.scan ndata (seen ++ [data]))) := by
          refine .goto hs ?_ hnext
          rw [huse]
          exact GenPc.noConfusion
        obtain ⟨s', hrun, hs', hend⟩ := ih (hinv.goto hnext) hs
          (by rw [ColumnState.goto_gens, if_pos rfl])
          (by rw [List.length_append, List.length_singleton]; omega)
        exact ⟨s', (hrun.head hsecond).head hfirst, hs', hend⟩

/-- So does one that has read a pointer. -/
lemma ColumnInv.ends (h : ColumnInv ps schemas s) (hs : s.faulted = false)
    (hpc : s.gens i ≠ .idle) :
    ∃ s', Relation.ReflTransGen InFlightStep s s' ∧ s'.faulted = false ∧
      ((∃ seen, s'.gens i = .done seen) ∨
        ∃ ndata seen p, s'.gens i = .use ndata seen p ∧ s'.stack.blocks p = none) := by
  cases hgen : s.gens i with
  | idle => exact absurd hgen hpc
  | scan ndata seen => exact h.progress hs hgen
  | use ndata seen p =>
      rcases hblock : s.stack.blocks p with _ | data
      · exact ⟨s, .refl, hs, Or.inr ⟨ndata, seen, p, hgen, hblock⟩⟩
      · have hderef : s.stack.deref p = .ret data := by rw [SharedStack.deref, hblock]
        have hstep : GenStep s.stack (s.gens i) (.scan ndata seen) := hgen ▸ .again hderef
        obtain ⟨s', hrun, hend⟩ := (h.goto hstep).progress hs
          (by rw [ColumnState.goto_gens, if_pos rfl])
        exact ⟨s', hrun.head (.goto hs hpc hstep), hend⟩
  | done seen => exact ⟨s, .refl, hs, Or.inl ⟨seen, hgen⟩⟩

/-- **Which statements get to their end.**  In every reachable state: when only the generators that
have begun go on, some access follows a pointer to a freed column in one of the orders in which they
can do so just if one of them is stale, which it is from the moment when fewer columns are left than
it has copied.  A stale generator never completes its statement, and any other can complete it. -/
theorem generation_outcome_iff (hlen : schemas.length ≤ 100)
    (hrun : Relation.ReflTransGen ColumnStep (.initial schemas) s) (hs : s.faulted = false) :
    ((∃ s', Relation.ReflTransGen InFlightStep s s' ∧ s'.faulted = true) ↔
        ∃ i, s.Stale (s.gens i)) ∧
      ∀ i, s.gens i ≠ .idle →
        ((∃ s', Relation.ReflTransGen InFlightStep s s' ∧ ∃ seen, s'.gens i = .done seen) ↔
          ¬ s.Stale (s.gens i)) := by
  obtain ⟨ps, l, hinv, -⟩ := column_run_inv hlen hrun schemaInit
  -- where a generator gets to when it goes on alone says whether it is stale
  have hstuck : ∀ {s' : ColumnState ι} {i : ι}, InFlight ps l s s' →
      (∃ ndata seen p, s'.gens i = .use ndata seen p ∧ s'.stack.blocks p = none) →
      s.Stale (s.gens i) := by
    rintro s' i hflight ⟨ndata, seen, p, hpc, hblock⟩
    rw [← hflight.stale i, hpc]
    exact Or.inr hblock
  have hdone : ∀ {s' : ColumnState ι} {i : ι}, InFlight ps l s s' →
      (∃ seen, s'.gens i = .done seen) → ¬ s.Stale (s.gens i) := by
    rintro s' i hflight ⟨seen, hpc⟩ hstale
    rw [← hflight.stale i, hpc] at hstale
    exact hstale
  refine ⟨⟨?_, ?_⟩, fun i hpc => ⟨?_, ?_⟩⟩
  · rintro ⟨s', hsteps, hfault⟩
    -- the last step is the access that goes wrong
    rcases Relation.ReflTransGen.cases_tail hsteps with heq | ⟨s₁, hbefore, hlast⟩
    · rw [heq, hs] at hfault
      cases hfault
    · have hflight := hinv.inFlight hbefore
      obtain ⟨hs₁, ⟨i, pc, -, -, rfl⟩ | ⟨hfaults, -⟩⟩ := hlast.cases
      · rw [show (s₁.goto i pc).faulted = s₁.faulted from rfl, hs₁] at hfault
        cases hfault
      · obtain ⟨i, hi⟩ := hflight.inv.faults_iff.1 hfaults
        exact ⟨i, hstuck hflight hi⟩
  · rintro ⟨i, hstale⟩
    have hpc : s.gens i ≠ .idle := by
      intro hidle
      rw [hidle] at hstale
      exact hstale
    obtain ⟨s', hsteps, hs', hend⟩ := hinv.ends hs hpc
    have hflight := hinv.inFlight hsteps
    rcases hend with hend | hend
    · exact absurd hstale (hdone hflight hend)
    · have hfaults := hflight.inv.faults_iff.2 ⟨i, hend⟩
      exact ⟨_, hsteps.tail ⟨.fault hs' hfaults, rfl, fun _ => id⟩, rfl⟩
  · rintro ⟨s', hsteps, hend⟩
    exact hdone (hinv.inFlight hsteps) hend
  · intro hfresh
    obtain ⟨s', hsteps, -, hend | hend⟩ := hinv.ends hs hpc
    · exact ⟨s', hsteps, hend⟩
    · exact absurd (hstuck (hinv.inFlight hsteps) hend) hfresh

theorem generation_outcome_iff_freed : ∃ s s' : ColumnState Unit,
    Relation.ReflTransGen ColumnStep
      (.initial [tableDataInit (ascii "col0") .bigint 0]) s ∧
    Relation.ReflTransGen InFlightStep s s' ∧ s'.faulted = true := by
  obtain ⟨s, hrun, hs, hcolumns, hpc⟩ := column_freed_run
  have hstale : s.Stale (s.gens ()) := by
    rw [hpc]
    left
    rw [hcolumns]
    exact Nat.one_pos
  obtain ⟨s', hsteps, hfault⟩ :=
    (generation_outcome_iff (by decide) hrun hs).1.2 ⟨(), hstale⟩
  exact ⟨s, s', hrun, hsteps, hfault⟩

/-! ### Runs in which no column is freed under a generator -/

/-- A generator in this place looks at columns. -/
def GenPc.Reading : GenPc → Prop
  | .scan _ _ | .use _ _ _ => True
  | _ => False

/-- No column has been freed while a generator is at work. -/
def ColumnState.Calm (s : ColumnState ι) : Prop := s.alter = .freed → ∀ i, ¬ (s.gens i).Reading

/-- The columns `l` for a generator that begins, and `began` for one that has begun. -/
def GenPc.counted (l began : List TableData) : GenPc → List TableData
  | .idle => l
  | _ => began

/-- Runs through such states; `began i` are the columns that `i` counts when it begins. -/
inductive CalmRun (schemas : List TableData) : ColumnState ι → (ι → List TableData) → Prop
  | initial : CalmRun schemas (.initial schemas) fun _ => []
  | step {s s' began} (h : CalmRun schemas s began) (hstep : ColumnStep s s') (hcalm : s'.Calm) :
      CalmRun schemas s' fun i => (s.gens i).counted (s.stack.items s.stack.count) (began i)

/-- What a generator has written of the columns that there were when it began. -/
def Snapshot (ps : List ℕ) (l began : List TableData) : GenPc → Prop
  | .idle => True
  | .scan ndata seen => ndata = began.length ∧ seen <+: began ∧ began <+: l
  | .use ndata seen p => ndata = began.length ∧ seen <+: began ∧ began <+: l ∧
      seen.length < ndata ∧ ps[seen.length]? = some p
  | .done seen => seen = began

section Calm

variable {ps' : List ℕ} {l l' began : List TableData} {pc pc' : GenPc}

/-- Columns that are added do not matter. -/
lemma Snapshot.mono (h : Snapshot ps l began pc) (hps : ps <+: ps') (hl : l <+: l') :
    Snapshot ps' l' began pc := by
  cases pc with
  | scan ndata seen => exact ⟨h.1, h.2.1, h.2.2.trans hl⟩
  | use ndata seen p =>
      obtain ⟨hndata, hseen, hbegan, hlt, hp⟩ := h
      refine ⟨hndata, hseen, hbegan.trans hl, hlt, ?_⟩
      obtain ⟨rest, rfl⟩ := hps
      rw [List.getElem?_append_left (List.getElem?_eq_some_iff.1 hp).1, hp]
  | _ => exact h

/-- To a generator that does not look at columns they do not matter at all. -/
lemma Snapshot.of_not_reading (h : Snapshot ps l began pc) (hpc : ¬ pc.Reading) :
    Snapshot ps' l' began pc := by
  cases pc with
  | scan ndata seen => exact absurd trivial hpc
  | use ndata seen p => exact absurd trivial hpc
  | _ => exact h

lemma Snapshot.counted (h : Snapshot ps l began pc) (l' : List TableData) :
    Snapshot ps l (pc.counted l' began) pc := by
  cases pc with
  | idle => trivial
  | _ => exact h

/-- What is behind a pointer that a generator has read. -/
lemma Snapshot.block {t : SharedStack TableData} {ndata p : ℕ} {seen : List TableData}
    (h : Snapshot ps l began (.use ndata seen p)) (hholds : t.Holds ps l) :
    ∃ data, t.blocks p = some data ∧ seen ++ [data] <+: began := by
  obtain ⟨hndata, ⟨rest, rfl⟩, ⟨rest', rfl⟩, hlt, hp⟩ := h
  obtain ⟨data, hdata, hblock⟩ := hholds.block_some hp
  refine ⟨data, hblock, ?_⟩
  cases rest with
  | nil =>
      rw [List.append_nil] at hndata
      omega
  | cons a rest =>
      have ha : ((seen ++ a :: rest) ++ rest')[seen.length]? = some a := by simp
      rw [ha] at hdata
      obtain rfl := Option.some.inj hdata
      exact ⟨rest, by simp⟩

/-- A step of a generator. -/
lemma Snapshot.step {t : SharedStack TableData} {apc : AlterPc} (h : Snapshot ps l began pc)
    (hstack : StackInv ps l t apc) (hstep : GenStep t pc pc')
    (hcalm : apc = .freed → ¬ pc'.Reading) :
    Snapshot ps l (pc.counted (t.items t.count) began) pc' := by
  cases hstep with
  | begin =>
      have hle : t.count ≤ ps.length := by
        rw [← hstack.columns_eq]
        cases apc with
        | freed => exact absurd trivial (hcalm rfl)
        | written => exact Nat.le_succ _
        | _ => exact le_rfl
      show Snapshot ps l (t.items t.count) (.scan t.count [])
      rw [hstack.holds.items_eq hle]
      refine ⟨?_, List.nil_prefix, List.take_prefix ..⟩
      rw [List.length_take, ← hstack.holds.length_eq, min_eq_left hle]
  | @load ndata seen p hlt hload =>
      obtain ⟨hndata, hseen, hbegan⟩ := h
      refine ⟨hndata, hseen, hbegan, hlt, ?_⟩
      have hlt' : seen.length < ps.length :=
        (hndata ▸ hlt).trans_le (hstack.holds.length_eq ▸ hbegan.length_le)
      have hcell := hstack.holds.cell _ _ (List.getElem?_eq_getElem hlt')
      rw [fetch, if_neg (by omega), Int.toNat_natCast, hcell] at hload
      rw [List.getElem?_eq_getElem hlt']
      exact congrArg some (Outcome.ret.inj hload)
  | again hderef => exact ⟨h.1, h.2.1, h.2.2.1⟩
  | @next ndata seen p data hderef =>
      obtain ⟨data', hblock, hprefix⟩ := h.block hstack.holds
      rw [SharedStack.deref, hblock] at hderef
      obtain rfl := Outcome.ret.inj hderef
      exact ⟨h.1, hprefix, h.2.2.1⟩
  | finish hge =>
      obtain ⟨hndata, hseen, -⟩ := h
      exact hseen.eq_of_length_le (hndata ▸ hge)
  | leave => trivial

end Calm

lemma calm_run_inv (hlen : schemas.length ≤ 100) {began : ι → List TableData}
    (hrun : CalmRun schemas s began) :
    ∃ ps l, ColumnInv ps l s ∧ s.faulted = false ∧ ¬ s.Faults ∧
      ∀ i, Snapshot ps l (began i) (s.gens i) := by
  -- no generator has read a pointer to a freed column
  have hsafe : ∀ {s : ColumnState ι} {ps l}, ColumnInv ps l s →
      (∀ i, ∃ began, Snapshot ps l began (s.gens i)) → ¬ s.Faults := by
    intro s ps l hinv hsnap hfaults
    obtain ⟨i, ndata, seen, p, hpc, hblock⟩ := hinv.faults_iff.1 hfaults
    obtain ⟨began, hi⟩ := hsnap i
    rw [hpc] at hi
    obtain ⟨data, hdata, -⟩ := hi.block hinv.stack.holds
    rw [hdata] at hblock
    cases hblock
  induction hrun with
  | initial =>
      exact ⟨_, _, columnInv_initial hlen, rfl,
        hsafe (columnInv_initial hlen) fun _ => ⟨[], trivial⟩, fun _ => trivial⟩
  | @step s s' began _ hstep hcalm ih =>
      obtain ⟨ps, l, hinv, -, hfaults, hsnap⟩ := ih
      suffices hnew : ∃ ps' l', ColumnInv ps' l' s' ∧ s'.faulted = false ∧ ∀ i, Snapshot ps' l'
          ((s.gens i).counted (s.stack.items s.stack.count) (began i)) (s'.gens i) by
        obtain ⟨ps', l', hinv', hs', hsnap'⟩ := hnew
        exact ⟨ps', l', hinv', hs', hsafe hinv' fun i => ⟨_, hsnap' i⟩, hsnap'⟩
      cases hstep with
      | alter hs hstep =>
          obtain ⟨ps', l', hstack, -, hframe, hfreed | ⟨hps, hl⟩⟩ := hinv.stack.step hstep
          · exact ⟨ps', l', ⟨hstack, fun i => (hinv.gens i).frame hframe⟩, hs, fun i =>
              ((hsnap i).of_not_reading (hcalm hfreed i)).counted _⟩
          · exact ⟨ps', l', ⟨hstack, fun i => (hinv.gens i).frame hframe⟩, hs, fun i =>
              ((hsnap i).mono hps hl).counted _⟩
      | @gen i pc hs hstep =>
          refine ⟨ps, l, hinv.goto hstep, hs, fun j => ?_⟩
          rw [ColumnState.goto_gens]
          by_cases hji : j = i
          · rw [if_pos hji, hji]
            refine (hsnap i).step hinv.stack hstep fun hfreed => ?_
            have := hcalm hfreed i
            rwa [ColumnState.goto_gens, if_pos rfl] at this
          · rw [if_neg hji]
            exact (hsnap j).counted _
      | fault hs hfault => exact absurd hfault hfaults

/-- **Statements are snapshots as long as no column is freed under a generator.**  In every run in
which `drop_table_data` frees a column only while no generator is at work, no access goes wrong,
and each statement has, in order, all the columns that were counted when its generator began.
Columns may be added in the meantime. -/
theorem calm_generation_snapshot (hlen : schemas.length ≤ 100) {began : ι → List TableData}
    (hrun : CalmRun schemas s began) :
    s.faulted = false ∧ ¬ s.Faults ∧ ∀ i seen, s.gens i = .done seen → seen = began i := by
  obtain ⟨ps, l, -, hs, hfaults, hsnap⟩ := calm_run_inv hlen hrun
  refine ⟨hs, hfaults, fun i seen hpc => ?_⟩
  have hi := hsnap i
  rw [hpc] at hi
  exact hi

/-- A column is added while a generator is at work. -/
lemma column_added_run : ∃ (s : ColumnState Unit) (began : Unit → List TableData),
    CalmRun [tableDataInit (ascii "col0") .bigint 0] s began ∧
    s.gens () = .done [tableDataInit (ascii "col0") .bigint 0] ∧ s.columns = 2 := by
  have hcalm : ∀ {s : ColumnState Unit}, s.alter ≠ .freed → s.Calm :=
    fun hpc hfreed => absurd hfreed hpc
  exact ⟨_, _, .step (.step (.step (.step (.step (.step (.step .initial
    (.gen (i := ()) rfl .begin) (hcalm (by decide)))
    (.alter rfl (.add (by decide) (Or.inl rfl))) (hcalm (by decide)))
    (.gen (i := ()) rfl (.load (by decide) rfl)) (hcalm (by decide)))
    (.alter rfl (.write (by decide) rfl)) (hcalm (by decide)))
    (.gen (i := ()) rfl (.next rfl)) (hcalm (by decide)))
    (.alter rfl .count) (hcalm (by decide)))
    (.gen (i := ()) rfl (.finish (by decide))) (hcalm (by decide)), rfl, rfl⟩

theorem calm_generation_snapshot_added : ∃ (s : ColumnState Unit) (began : Unit → List TableData),
    CalmRun [tableDataInit (ascii "col0") .bigint 0] s began ∧ s.columns = 2 ∧
    began () = [tableDataInit (ascii "col0") .bigint 0] := by
  obtain ⟨s, began, hrun, hpc, hcolumns⟩ := column_added_run
  exact ⟨s, began, hrun, hcolumns,
    ((calm_generation_snapshot (by decide) hrun).2.2 () _ hpc).symm⟩

end CheckQ
