import CheckQ.Engine.SchemaSync
import CheckQ.Mylib.HashThreads

/-!
# The first table

`table_thread` adds tables to the table set, while `alter_thread` and the engine threads choose
tables from it.  Nobody tests whether `table_set_get_random` has returned a null pointer: these
threads wait in `while (!has_first_table)`, and `table_thread` sets the flag behind
`table_set_add`, whatever that has returned.

Here the accesses of all threads to the table set come in any order that its lock allows, and the
flag is read and written in single steps.  `first_table_not_null`: this is enough.
-/

namespace CheckQ

open Probing

/-- The threads that choose tables. -/
inductive TableUser where
  | table
  | alter
  | engine (i : ℕ)
deriving DecidableEq, Repr

/-- Where a thread is. -/
inductive UserPc where
  -- `while (!has_first_table)`
  | wait
  -- before `table_set_get_random` of `eng_context_config`, and in it
  | config
  | pick
  -- the context is configured with this table
  | work (table : Option TableT)
  -- in `table_set_add`, and before the flag is set
  | add (table : TableT)
  | publish
deriving DecidableEq, Repr

/-- The call that a thread is in. -/
def UserPc.called : UserPc → Option (HashOp TableT Bytes)
  | .pick => some .getEntries
  | .add table => some (.add table)
  | _ => none

/-- The table set with its lock, the flag, and the threads. -/
structure UserState where
  set : LockState (HashT TableT) (HashOp TableT Bytes) (HashRes TableT Bytes)
    (HashPc TableT Bytes) TableUser
  hasFirstTable : Bool
  pcs : TableUser → UserPc

/-- The threads when `start_engine` creates them, for a table set that a parser has left. -/
def UserState.initial (tableSet : HashT TableT) : UserState where
  set := .initial tableSet
  hasFirstTable := false
  pcs
    | .table => .config
    | _ => .wait

/-- A thread goes on, and is in another phase for the table set. -/
def UserState.move (s : UserState) (i : TableUser)
    (phase : LockPhase (HashOp TableT Bytes) (HashRes TableT Bytes) (HashPc TableT Bytes))
    (pc : UserPc) : UserState :=
  { s with set := s.set.move i phase, pcs := Function.update s.pcs i pc }

/-- A thread goes on. -/
def UserState.goto (s : UserState) (i : TableUser) (pc : UserPc) : UserState :=
  { s with pcs := Function.update s.pcs i pc }

/-- The table that `table_set_get_random` returns. -/
def tablePick (ptables : List TableT) (tableNum rand : ℕ) : Option TableT :=
  if tableNum > 0 then ptables[rand % tableNum]? else none

/-- A table that `table_thread` makes, with a schema of the schema set. -/
def MadeTable (schemas : List ℕ) (table : TableT) : Prop :=
  ∃ rand, ∃ schema ∈ schemas, table = tableInit (randomTableName rand) schema

/-- A step of a thread; the schema set has the pointers `schemas`. -/
inductive UserStep (probe : Bytes → UInt64 → UInt64) (schemas : List ℕ) :
    UserState → UserState → Prop
  -- an access in a call, or to the lock
  | tableSet {s l} (h : InnerStep (hashObject TableT.name probe) s.set l) :
      UserStep probe schemas s { s with set := l }
  | gate {s i} (hs : s.set.ended = none) (hpc : s.pcs i = .wait)
      (hfirst : s.hasFirstTable = true) : UserStep probe schemas s (s.goto i .config)
  | config {s i} (hs : s.set.ended = none) (hpc : s.pcs i = .config) :
      UserStep probe schemas s (s.move i (.waiting .getEntries) .pick)
  | pick {s i ptables tableNum} (hs : s.set.ended = none) (hpc : s.pcs i = .pick)
      (hret : s.set.threads i = .leaving .getEntries (.entries ptables tableNum) true)
      (rand : ℕ) :
      UserStep probe schemas s (s.move i .idle (.work (tablePick ptables tableNum rand)))
  -- the next round
  | next {s i table} (hs : s.set.ended = none) (hpc : s.pcs i = .work table) :
      UserStep probe schemas s (s.goto i .config)
  -- `mysql_create_table` has returned 0
  | created {s table} (hs : s.set.ended = none) (hpc : s.pcs .table = .work table) {ptable}
      (hmade : MadeTable schemas ptable) :
      UserStep probe schemas s (s.move .table (.waiting (.add ptable)) (.add ptable))
  | added {s ptable r} (hs : s.set.ended = none) (hpc : s.pcs .table = .add ptable)
      (hret : s.set.threads .table = .leaving (.add ptable) r true) :
      UserStep probe schemas s (s.move .table .idle .publish)
  | publish {s} (hs : s.set.ended = none) (hpc : s.pcs .table = .publish) :
      UserStep probe schemas s { s.goto .table .config with hasFirstTable := true }

/-! ### The invariant -/

section Invariant

variable (probe : Bytes → UInt64 → UInt64) (schemas : List ℕ) (tables₀ : List TableT)
  (tableSet : HashT TableT)

/-- There is a table. -/
def HasTable (m : Bytes → Option TableT) : Prop := ∃ table, m table.name = some table

/-- What a place in a thread says about the tables `m` and the flag. -/
def PcOk (m : Bytes → Option TableT) (first : Bool) (i : TableUser) : UserPc → Prop
  | .wait => True
  | .config => i ≠ .table → first = true
  | .pick => i ≠ .table → first = true
  | .work table => (i ≠ .table → first = true ∧ table ≠ none) ∧
      ∀ ptable, table = some ptable → m ptable.name = some ptable
  | .add ptable => i = .table ∧ MadeTable schemas ptable
  | .publish => i = .table ∧ HasTable m

/-- What a thread that is about to leave the table set takes with it. -/
def PhaseOk (m : Bytes → Option TableT) (i : TableUser) :
    LockPhase (HashOp TableT Bytes) (HashRes TableT Bytes) (HashPc TableT Bytes) → Prop
  | .leaving .getEntries r _ => ∃ l, r = .entries l l.length ∧ (i ≠ .table → l ≠ []) ∧
      ∀ table ∈ l, m table.name = some table
  | .leaving (.add _) _ _ => HasTable m
  | _ => True

/-- What holds in every state of a run, for the tables `m` that the calls so far have led to. -/
structure UserInv (m : Bytes → Option TableT) (s : UserState) : Prop where
  set : ∃ c, LockInv (hashObject TableT.name probe) (fun c => ∃ m, HashInv TableT.name probe m c)
    (fun c op r c' => ∃ fuel, hashStep TableT.name probe fuel op c = .ret (r, c')) tableSet c
      s.set ∧
    HashInv TableT.name probe m c
  origin : ∀ name table, m name = some table → table ∈ tables₀ ∨ MadeTable schemas table
  called : ∀ i, (s.set.threads i).called = (s.pcs i).called
  first : s.hasFirstTable = true → HasTable m
  pcs : ∀ i, PcOk schemas m s.hasFirstTable i (s.pcs i)
  phases : ∀ i, PhaseOk m i (s.set.threads i)

end Invariant

section Steps

variable {probe : Bytes → UInt64 → UInt64} {schemas : List ℕ} {tables₀ : List TableT}
  {tableSet : HashT TableT} {m m' : Bytes → Option TableT} {s s' : UserState}

/-- More tables and a flag that stays set do no harm to a thread. -/
lemma PcOk.mono {first first' : Bool} {i : TableUser} {pc : UserPc}
    (h : PcOk schemas m first i pc)
    (hm : ∀ name table, m name = some table → m' name = some table)
    (hfirst : first = true → first' = true) : PcOk schemas m' first' i pc := by
  cases pc with
  | wait => trivial
  | config => exact fun hi => hfirst (h hi)
  | pick => exact fun hi => hfirst (h hi)
  | work table =>
      exact ⟨fun hi => ⟨hfirst (h.1 hi).1, (h.1 hi).2⟩, fun ptable ht => hm _ _ (h.2 ptable ht)⟩
  | add ptable => exact h
  | publish =>
      obtain ⟨hi, table, ht⟩ := h
      exact ⟨hi, table, hm _ _ ht⟩

lemma PhaseOk.mono {i : TableUser}
    {phase : LockPhase (HashOp TableT Bytes) (HashRes TableT Bytes) (HashPc TableT Bytes)}
    (h : PhaseOk m i phase) (hm : ∀ name table, m name = some table → m' name = some table) :
    PhaseOk m' i phase := by
  cases phase with
  | leaving op r unlocks =>
      cases op with
      | getEntries =>
          obtain ⟨l, hr, hne, hl⟩ := h
          exact ⟨l, hr, hne, fun table ht => hm _ _ (hl table ht)⟩
      | add table =>
          obtain ⟨table, ht⟩ := h
          exact ⟨table, hm _ _ ht⟩
      | _ => trivial
  | _ => trivial

/-- What a call of a thread does to the tables. -/
lemma mapSpec_mono {op : HashOp TableT Bytes} {r : HashRes TableT Bytes}
    (hspec : MapSpec TableT.name m op r m') (hop : ∀ k, op ≠ .remove k) {name : Bytes}
    {table : TableT} (h : m name = some table) : m' name = some table := by
  cases op with
  | add entry =>
      obtain ⟨ret, -, hadd⟩ := hspec
      rw [AddSpec] at hadd
      split at hadd
      · rw [hadd.2, h]
      · rename_i hnew
        rw [hadd.2, Function.update_of_ne, h]
        rintro rfl
        rw [h] at hnew
        exact hnew rfl
  | remove k => exact absurd rfl (hop k)
  | get k => rw [hspec.2, h]
  | getEntries =>
      obtain ⟨-, -, -, rfl⟩ := hspec
      exact h
  | getKeys =>
      obtain ⟨-, -, -, rfl⟩ := hspec
      exact h

/-- A table that is added is there, or another one with its name. -/
lemma hasTable_add {entry : TableT} {r : HashRes TableT Bytes} {c : HashT TableT}
    (hspec : MapSpec TableT.name m (.add entry) r m') (hinv : HashInv TableT.name probe m' c) :
    HasTable m' := by
  obtain ⟨ret, -, hadd⟩ := hspec
  rw [AddSpec] at hadd
  split at hadd
  · rename_i hold
    obtain ⟨table, ht⟩ := Option.isSome_iff_exists.1 hold
    rw [← hadd.2] at ht
    refine ⟨table, ?_⟩
    rw [((hinv.mem_iff _ _).1 ht).2, ht]
  · exact ⟨entry, by rw [hadd.2, Function.update_self]⟩

/-- Where a new table comes from. -/
lemma mapSpec_origin {op : HashOp TableT Bytes} {r : HashRes TableT Bytes}
    (hspec : MapSpec TableT.name m op r m') (hop : op = .getEntries ∨ ∃ entry, op = .add entry)
    {name : Bytes} {table : TableT} (h : m' name = some table) :
    m name = some table ∨ op = .add table := by
  rcases hop with rfl | ⟨entry, rfl⟩
  · obtain ⟨-, -, -, rfl⟩ := hspec
    exact Or.inl h
  · obtain ⟨ret, -, hadd⟩ := hspec
    rw [AddSpec] at hadd
    split at hadd
    · rw [hadd.2] at h
      exact Or.inl h
    · rw [hadd.2, Function.update_apply] at h
      split at h
      · cases h
        exact Or.inr rfl
      · exact Or.inl h

namespace UserInv

/-- A thread goes on, and the table set sees at most that a call begins or ends. -/
lemma move (h : UserInv probe schemas tables₀ tableSet m s) {i : TableUser}
    {phase : LockPhase (HashOp TableT Bytes) (HashRes TableT Bytes) (HashPc TableT Bytes)}
    {pc : UserPc} (houtside : ∀ op pc, s.set.threads i ≠ .inside op pc)
    (hholds : phase.holds = none) (hcalled : phase.called = pc.called)
    (hpc : PcOk schemas m s.hasFirstTable i pc) :
    UserInv probe schemas tables₀ tableSet m (s.move i phase pc) := by
  obtain ⟨c, hset, hm⟩ := h.set
  refine ⟨⟨c, hset.outside houtside hholds, hm⟩, h.origin, ?_, h.first, ?_, ?_⟩
  · intro j
    show ((s.set.move i phase).threads j).called = (Function.update s.pcs i pc j).called
    rw [phase_move, Function.update_apply]
    split
    · exact hcalled
    · exact h.called j
  · intro j
    show PcOk schemas m s.hasFirstTable j (Function.update s.pcs i pc j)
    rw [Function.update_apply]
    split
    · rename_i hi
      rw [hi]
      exact hpc
    · exact h.pcs j
  · intro j
    show PhaseOk m j ((s.set.move i phase).threads j)
    rw [phase_move]
    split
    · cases phase with
      | leaving op r unlocks => cases hholds
      | _ => trivial
    · exact h.phases j

/-- A thread that is not in a call goes on. -/
lemma goto (h : UserInv probe schemas tables₀ tableSet m s) {i : TableUser} {pc : UserPc}
    (hcalled : (s.pcs i).called = pc.called) (hpc : PcOk schemas m s.hasFirstTable i pc) :
    UserInv probe schemas tables₀ tableSet m (s.goto i pc) := by
  refine ⟨h.set, h.origin, ?_, h.first, ?_, h.phases⟩
  · intro j
    show (s.set.threads j).called = (Function.update s.pcs i pc j).called
    rw [Function.update_apply]
    split
    · rename_i hi
      rw [hi, ← hcalled]
      exact h.called i
    · exact h.called j
  · intro j
    show PcOk schemas m s.hasFirstTable j (Function.update s.pcs i pc j)
    rw [Function.update_apply]
    split
    · rename_i hi
      rw [hi]
      exact hpc
    · exact h.pcs j

/-- A thread that is in no call is not at the table set. -/
lemma idle (h : UserInv probe schemas tables₀ tableSet m s) {i : TableUser}
    (hi : (s.pcs i).called = none) : s.set.threads i = .idle := by
  have hcalled := h.called i
  rw [hi] at hcalled
  cases hphase : s.set.threads i with
  | idle => rfl
  | _ => rw [hphase] at hcalled; cases hcalled

/-- An access to the table set. -/
lemma tableSet_step (h : UserInv probe schemas tables₀ tableSet m s)
    {l : LockState (HashT TableT) (HashOp TableT Bytes) (HashRes TableT Bytes)
      (HashPc TableT Bytes) TableUser}
    (hstep : InnerStep (hashObject TableT.name probe) s.set l) :
    ∃ m', UserInv probe schemas tables₀ tableSet m' { s with set := l } := by
  obtain ⟨c, hset, hm⟩ := h.set
  obtain ⟨hstep, hcall⟩ := hstep
  rcases hset.step_cases hashObject_implements hstep with
    ⟨hset', -, hleaving⟩ | ⟨i, op, r, c', hop, ⟨fuel, hdone⟩, hset', -, hthreads⟩
  · refine ⟨m, ⟨c, hset', hm⟩, h.origin, fun i => (hcall i).trans (h.called i), h.first, h.pcs,
      fun i => ?_⟩
    show PhaseOk m i (l.threads i)
    cases hphase : l.threads i with
    | leaving op r unlocks =>
        have hok := h.phases i
        rw [hleaving i op r unlocks hphase] at hok
        exact hok
    | _ => trivial
  · -- a call has come to its end, with the result of the finite map
    have hmeets := hashStep_meets fuel op hm
    rw [hdone] at hmeets
    obtain ⟨⟨m', hspec, hm'⟩, -⟩ := hmeets
    have hpcs := h.called i
    rw [hop] at hpcs
    have hopcases : op = .getEntries ∨ ∃ entry, op = .add entry := by
      cases hpc : s.pcs i with
      | pick => rw [hpc] at hpcs; cases hpcs; exact Or.inl rfl
      | add entry => rw [hpc] at hpcs; cases hpcs; exact Or.inr ⟨entry, rfl⟩
      | _ => rw [hpc] at hpcs; cases hpcs
    have hmono : ∀ name table, m name = some table → m' name = some table := by
      intro name table ht
      refine mapSpec_mono hspec ?_ ht
      rcases hopcases with rfl | ⟨entry, rfl⟩ <;> simp
    refine ⟨m', ⟨c', hset', hm'⟩, ?_, fun i => (hcall i).trans (h.called i), ?_,
      fun i => (h.pcs i).mono hmono id, ?_⟩
    · intro name table ht
      rcases mapSpec_origin hspec hopcases ht with hold | rfl
      · exact h.origin name table hold
      · cases hpc : s.pcs i with
        | add entry =>
            have hok := h.pcs i
            rw [hpc] at hpcs hok
            cases hpcs
            exact Or.inr hok.2
        | _ => rw [hpc] at hpcs; cases hpcs
    · intro hfirst
      obtain ⟨table, ht⟩ := h.first hfirst
      exact ⟨table, hmono _ _ ht⟩
    · intro j
      show PhaseOk m' j (l.threads j)
      rw [hthreads, Function.update_apply]
      split
      · rename_i hi
        subst hi
        rcases hopcases with rfl | ⟨entry, rfl⟩
        · obtain ⟨l, rfl, hmem, rfl⟩ := hspec
          refine ⟨l, rfl, ?_, fun table ht => (hmem.2 table).1 ht⟩
          -- behind the gate there is a table
          intro hi
          cases hpc : s.pcs j with
          | pick =>
              have hok := h.pcs j
              rw [hpc] at hok
              obtain ⟨table, ht⟩ := h.first (hok hi)
              exact List.ne_nil_of_mem ((hmem.2 table).2 ht)
          | _ => rw [hpc] at hpcs; cases hpcs
        · exact hasTable_add hspec hm'
      · exact (h.phases j).mono hmono

/-- Every step. -/
lemma step (h : UserInv probe schemas tables₀ tableSet m s) (hstep : UserStep probe schemas s s') :
    ∃ m', UserInv probe schemas tables₀ tableSet m' s' := by
  cases hstep with
  | tableSet hstep => exact h.tableSet_step hstep
  | @gate i hs hpc hfirst =>
      exact ⟨m, h.goto (by rw [hpc]; rfl) fun _ => hfirst⟩
  | @config i hs hpc =>
      have hok := h.pcs i
      have hidle := h.idle (i := i) (by rw [hpc]; rfl)
      rw [hpc] at hok
      exact ⟨m, h.move (by rw [hidle]; simp) rfl rfl hok⟩
  | @pick i ptables tableNum hs hpc hret rand =>
      have hok := h.pcs i
      have hphase := h.phases i
      rw [hpc] at hok
      rw [hret] at hphase
      obtain ⟨l, hr, hne, hl⟩ := hphase
      cases hr
      refine ⟨m, h.move (by rw [hret]; simp) rfl rfl ⟨fun hi => ⟨hok hi, ?_⟩, fun ptable ht => ?_⟩⟩
      · have hpos : ptables.length > 0 := List.length_pos_of_ne_nil (hne hi)
        rw [tablePick, if_pos hpos, List.getElem?_eq_getElem (Nat.mod_lt _ hpos)]
        exact Option.some_ne_none _
      · rw [tablePick] at ht
        split at ht
        · exact hl ptable (List.mem_of_getElem? ht)
        · cases ht
  | @next i table hs hpc =>
      have hok := h.pcs i
      rw [hpc] at hok
      exact ⟨m, h.goto (by rw [hpc]; rfl) fun hi => (hok.1 hi).1⟩
  | created hs hpc hmade =>
      have hidle := h.idle (i := .table) (by rw [hpc]; rfl)
      exact ⟨m, h.move (by rw [hidle]; simp) rfl rfl ⟨rfl, hmade⟩⟩
  | added hs hpc hret =>
      have hphase := h.phases .table
      rw [hret] at hphase
      exact ⟨m, h.move (by rw [hret]; simp) rfl rfl ⟨rfl, hphase⟩⟩
  | publish hs hpc =>
      have hok := h.pcs .table
      rw [hpc] at hok
      have hgoto : UserInv probe schemas tables₀ tableSet m (s.goto .table .config) :=
        h.goto (by rw [hpc]; rfl) fun hi => absurd rfl hi
      exact ⟨m, hgoto.set, hgoto.origin, hgoto.called, fun _ => hok.2,
        fun i => (hgoto.pcs i).mono (fun _ _ => id) fun _ => rfl, hgoto.phases⟩

end UserInv

/-- Accesses to the table set. -/
lemma set_run {l : LockState (HashT TableT) (HashOp TableT Bytes) (HashRes TableT Bytes)
    (HashPc TableT Bytes) TableUser}
    (h : Relation.ReflTransGen (InnerStep (hashObject TableT.name probe)) s.set l) :
    Relation.ReflTransGen (UserStep probe schemas) s { s with set := l } := by
  induction h with
  | refl => exact .refl
  | tail _ hstep ih => exact ih.tail (.tableSet hstep)

lemma userInv_initial (hset : HashHolds TableT.name probe tables₀ tableSet) :
    ∃ m, UserInv probe schemas tables₀ tableSet m (.initial tableSet) := by
  obtain ⟨m, hinv⟩ := hset.exists_inv
  refine ⟨m, ⟨tableSet, LockInv.initial ⟨m, hinv⟩, hinv⟩, ?_, ?_, ?_, ?_, fun i => trivial⟩
  · intro name table ht
    exact Or.inl (hset.perm.mem_iff.1 ((hinv.mem_iff _ _).1 ht).1)
  · rintro (_ | _ | i) <;> rfl
  · intro hfirst
    cases hfirst
  · rintro (_ | _ | i)
    · exact fun hi => absurd rfl hi
    · trivial
    · trivial

end Steps

/-- **No thread behind the gate gets a null pointer for a table.**  In every run of
`table_thread`, `alter_thread` and any number of engine threads, with their accesses to the table
set in any order that its lock allows, `alter_thread` and the engine threads have configured their
contexts with a table: one of the configuration, or one that `table_thread` has made with a schema
of the schema set.  All threads that have tables of one name have the same table, and nothing
undefined happens at the table set. -/
theorem first_table_not_null {probe : Bytes → UInt64 → UInt64} {schemas : List ℕ}
    {tables₀ : List TableT} {tableSet : HashT TableT} {s : UserState}
    (hset : HashHolds TableT.name probe tables₀ tableSet)
    (hrun : Relation.ReflTransGen (UserStep probe schemas) (.initial tableSet) s) :
    (∀ i table, i ≠ .table → s.pcs i = .work table →
      ∃ ptable, table = some ptable ∧ (ptable ∈ tables₀ ∨ MadeTable schemas ptable)) ∧
    (∀ i j ptable ptable', s.pcs i = .work (some ptable) → s.pcs j = .work (some ptable') →
      ptable.name = ptable'.name → ptable = ptable') ∧
    s.set.ended ≠ some .faulted := by
  have hinv : ∃ m, UserInv probe schemas tables₀ tableSet m s := by
    induction hrun with
    | refl => exact userInv_initial hset
    | tail _ hstep ih =>
        obtain ⟨m, hinv⟩ := ih
        exact hinv.step hstep
  obtain ⟨m, hinv⟩ := hinv
  have hwork : ∀ i ptable, s.pcs i = .work (some ptable) → m ptable.name = some ptable := by
    intro i ptable hpc
    have hok := hinv.pcs i
    rw [hpc] at hok
    exact hok.2 ptable rfl
  refine ⟨?_, ?_, ?_⟩
  · intro i table hi hpc
    have hok := hinv.pcs i
    rw [hpc] at hok
    obtain ⟨ptable, rfl⟩ := Option.ne_none_iff_exists'.1 (hok.1 hi).2
    exact ⟨ptable, rfl, hinv.origin _ _ (hok.2 ptable rfl)⟩
  · intro i j ptable ptable' hpc hpc' hname
    have ht := hwork i ptable hpc
    rw [hname, hwork j ptable' hpc'] at ht
    exact (Option.some.inj ht).symm
  · obtain ⟨c, hset', -⟩ := hinv.set
    exact hset'.safe

/-- A call of a thread that is alone at the table set. -/
lemma call_run {probe : Bytes → UInt64 → UInt64} {schemas : List ℕ} {s : UserState}
    {i : TableUser} (hs : s.set.ended = none) (hfree : s.set.Free)
    (hidle : s.set.threads i = .idle) {op : HashOp TableT Bytes} {pc pc' : UserPc}
    (hbegin : UserStep probe schemas s (s.move i (.waiting op) pc)) {c c' : HashT TableT}
    {l : HashPc TableT Bytes} {r : HashRes TableT Bytes}
    (hops : Relation.ReflTransGen (OpStep (hashObject TableT.name probe)) (s.set.content, op.start)
      (c, l))
    (hdone : (hashObject TableT.name probe).step c l = .ret (c', .done r true))
    (hend : ∀ u : UserState, u.set.ended = none → u.pcs i = pc →
      u.set.threads i = .leaving op r true → UserStep probe schemas u (u.move i .idle pc')) :
    Relation.ReflTransGen (UserStep probe schemas) s { s with
      set := { s.set with content := c', log := s.set.log ++ [(op, r)] }
      pcs := Function.update s.pcs i pc' } := by
  have hcall : Relation.ReflTransGen (UserStep probe schemas) (s.move i (.waiting op) pc) _ :=
    set_run (inner_run (s := s.set.move i (.waiting op)) hs (by rw [phase_move, if_pos rfl])
      (hfree.move rfl) hops hdone)
  have hstep := hend { s with
    set := { s.set with content := c', log := s.set.log ++ [(op, r)] }.move i (.leaving op r true)
    pcs := Function.update s.pcs i pc } hs (Function.update_self ..) (Function.update_self ..)
  have hself : Function.update s.set.threads i .idle = s.set.threads := by
    rw [← hidle, Function.update_eq_self]
  simp only [UserState.move, LockState.move, Function.update_idem, hself] at hcall hstep
  exact ((Relation.ReflTransGen.single hbegin).trans hcall).tail hstep

/-- A thread that is alone at the table set chooses a table. -/
lemma pick_run (probe : Bytes → UInt64 → UInt64) (schemas : List ℕ) {s : UserState}
    {i : TableUser} (hs : s.set.ended = none) (hfree : s.set.Free)
    (hidle : s.set.threads i = .idle) (hpc : s.pcs i = .config) (hh : s.set.content.Whole)
    (hcount : s.set.content.hashEntryCount = (live s.set.content.elements).length) (rand : ℕ) :
    ∃ log, Relation.ReflTransGen (UserStep probe schemas) s { s with
      set := { s.set with log }
      pcs := Function.update s.pcs i (.work (tablePick (live s.set.content.elements)
        s.set.content.hashEntryCount rand)) } := by
  obtain ⟨pc, hops, hdone⟩ := entries_steps TableT.name probe hh hcount
  exact ⟨_, call_run hs hfree hidle (.config hs hpc) hops hdone
    fun u hu hupc hret => .pick hu hupc hret rand⟩

/-- `table_thread` makes the first table, and an engine thread chooses it. -/
theorem first_table_not_null_engine :
    ∃ s, Relation.ReflTransGen (UserStep (fun _ l => l) [5]) (.initial (hashAlloc TableT)) s ∧
      ∃ ptable, s.pcs (.engine 0) = .work (some ptable) ∧ MadeTable [5] ptable := by
  have hmade : MadeTable [5] (tableInit (randomTableName 7) 5) :=
    ⟨7, 5, List.mem_singleton_self 5, rfl⟩
  have hinv : HashInv TableT.name (fun _ l => l) (fun _ => none) (hashAlloc TableT) :=
    hashAlloc_inv
  obtain ⟨h, hh, hlive, hcount, hops, hdone⟩ :=
    add_steps TableT.name (fun _ l => l) (tableInit (randomTableName 7) 5)
  obtain ⟨log, h₁⟩ := pick_run (fun _ l => l) [5]
    (s := .initial (hashAlloc TableT)) (i := .table) rfl (fun _ => rfl) rfl rfl hinv.whole
    hinv.count_eq 0
  have h₂ := h₁.trans (call_run (i := .table) rfl (fun _ => rfl) rfl
    (.created rfl rfl hmade) hops hdone fun u hu hupc hret => .added hu hupc hret)
  have h₃ := (h₂.tail (.publish rfl rfl)).tail (.gate (i := .engine 0) rfl rfl rfl)
  have hlast : ∀ {s : UserState},
      Relation.ReflTransGen (UserStep (fun _ l => l) [5]) (.initial (hashAlloc TableT)) s →
      s.set.ended = none → s.set.Free → s.set.threads (.engine 0) = .idle →
      s.pcs (.engine 0) = .config → s.set.content = h →
      ∃ s', Relation.ReflTransGen (UserStep (fun _ l => l) [5]) (.initial (hashAlloc TableT)) s' ∧
        s'.pcs (.engine 0) = .work (some (tableInit (randomTableName 7) 5)) := by
    rintro s hrun hs hfree hidle hpc rfl
    obtain ⟨log, hpick⟩ := pick_run _ [5] hs hfree hidle hpc hh (by rw [hcount, hlive]; rfl) 0
    refine ⟨_, hrun.trans hpick, ?_⟩
    simp [tablePick, hlive, hcount]
  obtain ⟨s, hrun, hpc⟩ := hlast h₃ rfl (fun _ => rfl) rfl rfl rfl
  obtain ⟨ptable, hptable, hnew | hmade⟩ :=
    (first_table_not_null HashHolds.alloc hrun).1 (.engine 0) _ (by simp) hpc
  · cases hnew
  · exact ⟨s, hrun, ptable, hptable ▸ hpc, hmade⟩

end CheckQ
