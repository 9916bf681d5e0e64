import CheckQ.Engine.NullFields
import CheckQ.Mysql.SqlServer
import Mathlib.Data.Fintype.Defs

/-!
# Engine threads on servers with the same contents

The engine threads take traversals of a command list, each with a seed of its own, while
`table_thread` creates tables and `alter_thread` alters them.  All servers answer from one
database: this is what the program is there to check.  A command is generated in one step and sent
in another one; a SELECT asks the write server first and then the read servers one after another,
and anything may happen in between.  Any statement may be refused.

The tables have one key column.  Their value columns are those of the schema at the time of the
call, whatever `alter_thread` has made of it, and the statements that change tables may be any that
leave the key columns alone.  Of the server nothing is known but that it is lawful.

`mysql_select` stops the process when a read server gives another row than the write server.
On servers with the same contents it does not, as long as the traversals of a table that run at
the same time have different keys: the row that the write server gave stays the row of its key, and
may only lose fields to `alter_thread`.
-/

namespace CheckQ

/-- What is fixed in a run: the server, the numbers of the threads, the key column of each table,
and how many read servers there are. -/
structure ReplSetting (ι Db K : Type) where
  server : SqlServer Db K
  tid : ι → Int32
  key : Bytes → TableData
  nread : ℕ

/-- Where a traversal is. -/
inductive ReplPhase where
  | ready
  -- the statement of a command has been generated
  | sent (cmd : CmdType) (sql : Bytes)
  -- the write server has given a row, and some read servers are left
  | reading (sql : Bytes) (wrow : Row) (servers : ℕ)
deriving DecidableEq, Repr

/-- A traversal of a command list. -/
structure Traversal where
  ctx : EngCtx
  table : Bytes
  cmds : List CmdType
  phase : ReplPhase
deriving DecidableEq, Repr

/-- The database, `engine_frandom_seed`, the traversals of the threads, and how the process has
been stopped. -/
structure ReplState (ι Db : Type) where
  db : Db
  seed : Int32
  threads : ι → Option Traversal
  ended : Option SelectEnd

/-- A step of a thread, or a statement that changes a table. -/
inductive ReplAction (ι : Type) where
  | start (i : ι) (table : Bytes) (cmds : List CmdType)
  | gen (i : ι) (vals : Schema) (g : Globals)
  | write (i : ι) (refused : Bool)
  | read (i : ι) (refused : Bool)
  | finish (i : ι)
  | ddl (stmt : SqlStmt)

section Steps

variable {ι Db K : Type} [DecidableEq ι] (w : ReplSetting ι Db K)

namespace ReplState

/-- The thread is in another phase of its traversal. -/
def move (s : ReplState ι Db) (i : ι) (tr : Traversal) : ReplState ι Db :=
  { s with threads := Function.update s.threads i (some tr) }

/-- `set_seed`, and the table and the command list of `eng_context_config`. -/
def start (s : ReplState ι Db) (i : ι) (table : Bytes) (cmds : List CmdType) :
    Option (ReplState ι Db) :=
  match s.threads i with
  | some _ => none
  | none => some { s with
      seed := s.seed + 1
      threads := Function.update s.threads i
        (some ⟨⟨w.tid i, s.seed + 1⟩, table, cmds, .ready⟩) }

/-- `sql_gen` for the next command of `travel_command_list`; other types are skipped. -/
def gen (s : ReplState ι Db) (i : ι) (vals : Schema) (g : Globals) : Option (ReplState ι Db) :=
  match s.threads i with
  | some ⟨ctx, table, cmd :: cmds, .ready⟩ =>
      if cmd.isTraversal then
        match sqlGen ctx table (singleKey (w.key table) vals) g cmd with
        | .ret (buf, _) => some (s.move i ⟨ctx, table, cmds, .sent cmd buf.text⟩)
        | _ => some { s with ended := some .faulted }
      else some (s.move i ⟨ctx, table, cmds, .ready⟩)
  | _ => none

/-- What `mysql_real_query` gives. -/
def query (s : ReplState ι Db) (sql : Bytes) (refused : Bool) : Option (Db × Option Row) :=
  if refused then none else w.server.query s.db sql

/-- The write server gets the statement.  `mysql_select` goes on with the read servers when there
is a row. -/
def write (s : ReplState ι Db) (i : ι) (refused : Bool) : Option (ReplState ι Db) :=
  match s.threads i with
  | some ⟨ctx, table, cmds, .sent cmd sql⟩ =>
      match s.query w sql refused with
      | none => some (s.move i ⟨ctx, table, cmds, .ready⟩)
      | some (db, none) => some ({ s with db }.move i ⟨ctx, table, cmds, .ready⟩)
      | some (db, some wrow) =>
          if cmd = .select then
            some ({ s with db }.move i ⟨ctx, table, cmds, .reading sql wrow w.nread⟩)
          else some ({ s with db }.move i ⟨ctx, table, cmds, .ready⟩)
  | _ => none

/-- One turn of the loop over the read servers. -/
def read (s : ReplState ι Db) (i : ι) (refused : Bool) : Option (ReplState ι Db) :=
  match s.threads i with
  | some ⟨ctx, table, cmds, .reading _ _ 0⟩ => some (s.move i ⟨ctx, table, cmds, .ready⟩)
  | some ⟨ctx, table, cmds, .reading sql wrow (n + 1)⟩ =>
      match readTurn wrow ((s.query w sql refused).map Prod.snd) with
      | .returned _ => some (s.move i ⟨ctx, table, cmds, .reading sql wrow n⟩)
      | stopped => some { s with ended := some stopped }
  | _ => none

/-- The traversal is at its end. -/
def finish (s : ReplState ι Db) (i : ι) : Option (ReplState ι Db) :=
  match s.threads i with
  | some ⟨_, _, [], .ready⟩ => some { s with threads := Function.update s.threads i none }
  | _ => none

end ReplState

/-- One step, as long as the process has not been stopped. -/
def replStep (s : ReplState ι Db) (act : ReplAction ι) : Option (ReplState ι Db) :=
  if s.ended.isSome then none
  else match act with
    | .start i table cmds => s.start w i table cmds
    | .gen i vals g => s.gen w i vals g
    | .write i refused => s.write w i refused
    | .read i refused => s.read w i refused
    | .finish i => s.finish i
    | .ddl stmt => (w.server.ddl s.db stmt).map fun db => { s with db }

end Steps

/-! ### The conditions -/

section Conditions

variable {ι Db K : Type} (w : ReplSetting ι Db K)

/-- The value of the key of a traversal, as a server compares it. -/
def keyValue (ctx : EngCtx) (table : Bytes) : Option K :=
  match keyLiteral ctx (w.key table) with
  | .ret lit => some (w.server.canon (denoted w.server.unescape lit.2))
  | _ => none

/-- Names are words and lengths are positive, and no statement touches a key column. -/
def ProperAction (s : ReplState ι Db) : ReplAction ι → Prop
  | .start _ table _ => NameText table ∧ ProperColumn (w.key table)
  | .gen i vals _ => ∀ tr, s.threads i = some tr → ∀ data ∈ vals.schemas,
      ProperColumn data ∧ data.name ≠ (w.key tr.table).name
  | .ddl stmt => stmt.KeepsKey w.key
  | _ => True

/-- A traversal gets a key that no other traversal of the table has at the time. -/
def DistinctKeys (s : ReplState ι Db) : ReplAction ι → Prop
  | .start i table _ => ∀ j tr, s.threads j = some tr → tr.table = table →
      keyValue w tr.ctx table ≠ keyValue w ⟨w.tid i, s.seed + 1⟩ table
  | _ => True

instance [DecidableEq ι] (s : ReplState ι Db) : DecidablePred (ProperAction w s)
  | .start _ table _ => inferInstanceAs (Decidable (NameText table ∧ ProperColumn (w.key table)))
  | .gen i vals _ => decidable_of_iff (∀ tr ∈ s.threads i, ∀ data ∈ vals.schemas,
      ProperColumn data ∧ data.name ≠ (w.key tr.table).name) Iff.rfl
  | .write _ _ => isTrue trivial
  | .read _ _ => isTrue trivial
  | .finish _ => isTrue trivial
  | .ddl stmt => inferInstanceAs (Decidable (stmt.KeepsKey w.key))

instance [Fintype ι] [DecidableEq K] (s : ReplState ι Db) : DecidablePred (DistinctKeys w s)
  | .start i table _ => decidable_of_iff (∀ j, ∀ tr ∈ s.threads j, tr.table = table →
      keyValue w tr.ctx table ≠ keyValue w ⟨w.tid i, s.seed + 1⟩ table) Iff.rfl
  | .gen _ _ _ => isTrue trivial
  | .write _ _ => isTrue trivial
  | .read _ _ => isTrue trivial
  | .finish _ => isTrue trivial
  | .ddl _ => isTrue trivial

/-- The start: no traversal is running, and the tables have their key columns. -/
structure ReplState.Initial (s : ReplState ι Db) : Prop where
  keyed : w.server.keyed s.db
  threads : ∀ i, s.threads i = none
  ended : s.ended = none

end Conditions

/-! ### What a statement does to the rows that others watch -/

section Fading

variable {ι Db K : Type} {w : ReplSetting ι Db K} {db db' : Db}

/-- The row with a key is still there, and has at most lost fields. -/
def KeepsRow (w : ReplSetting ι Db K) (db db' : Db) (table : Bytes) (k : K) : Prop :=
  ∀ f, w.server.rowAt db table k = some f →
    ∃ f', w.server.rowAt db' table k = some f' ∧ Fades f f'

lemma keepsRow_of_eq {table : Bytes} {k : K}
    (h : w.server.rowAt db' table k = w.server.rowAt db table k) : KeepsRow w db db' table k :=
  fun f hf => ⟨f, h.trans hf, Fades.refl f⟩

lemma keepsRow_of_rel {table : Bytes} {k : K}
    (h : Option.Rel Fades (w.server.rowAt db table k) (w.server.rowAt db' table k)) :
    KeepsRow w db db' table k := by
  intro f hf
  rw [hf] at h
  rcases hf' : w.server.rowAt db' table k with _ | f'
  · rw [hf'] at h
    cases h
  · rw [hf'] at h
    cases h with
    | some hfades => exact ⟨f', rfl, hfades⟩

end Fading

/-! ### The texts on their way -/

section Texts

variable {ι Db K : Type} (w : ReplSetting ι Db K)

/-- The text is a statement of the command for the key of the traversal. -/
def TextFor (ctx : EngCtx) (table : Bytes) (cmd : CmdType) (sql : Bytes) : Prop :=
  ∃ v, keyValue w ctx table = some (w.server.canon v) ∧
    KeyText w.server.unescape (w.key table).name table cmd v sql

/-- The text that a traversal has on its way. -/
def Traversal.Text (tr : Traversal) : Prop :=
  match tr.phase with
  | .ready => True
  | .sent cmd sql => TextFor w tr.ctx tr.table cmd sql
  | .reading sql _ _ => TextFor w tr.ctx tr.table .select sql

/-- What holds in every state of a run, whatever the keys. -/
structure TextInv (s : ReplState ι Db) : Prop where
  keyed : w.server.keyed s.db
  proper : ∀ i tr, s.threads i = some tr → NameText tr.table ∧ ProperColumn (w.key tr.table)
  text : ∀ i tr, s.threads i = some tr → tr.Text w

end Texts

section TextRun

variable {ι Db K : Type} [DecidableEq ι] {w : ReplSetting ι Db K} {s s' : ReplState ι Db}

lemma threads_move {i j : ι} {tr tr' : Traversal} (h : (s.move i tr').threads j = some tr) :
    (j = i ∧ tr = tr') ∨ (j ≠ i ∧ s.threads j = some tr) := by
  by_cases hj : j = i
  · subst hj
    simp only [ReplState.move, Function.update_self] at h
    exact Or.inl ⟨rfl, (Option.some.inj h).symm⟩
  · simp only [ReplState.move, Function.update_of_ne hj] at h
    exact Or.inr ⟨hj, h⟩

/-- The other threads are where they were when one is at its end. -/
lemma threads_finish {i j : ι} {tr : Traversal}
    (h : Function.update s.threads i none j = some tr) : s.threads j = some tr := by
  by_cases hji : j = i
  · rw [hji, Function.update_self] at h
    cases h
  · rwa [Function.update_of_ne hji] at h

omit [DecidableEq ι] in
lemma query_eq_some {sql : Bytes} {refused : Bool} {p : Db × Option Row}
    (hq : s.query w sql refused = some p) : w.server.query s.db sql = some p := by
  rw [ReplState.query] at hq
  split at hq
  · cases hq
  · exact hq

namespace TextInv

omit [DecidableEq ι] in
lemma initial (h : s.Initial w) : TextInv w s where
  keyed := h.keyed
  proper i tr htr := by rw [h.threads i] at htr; cases htr
  text i tr htr := by rw [h.threads i] at htr; cases htr

/-- One thread goes on with its traversal. -/
lemma move (h : TextInv w s) {i : ι} {tr tr' : Traversal} (htr : s.threads i = some tr)
    (htable : tr'.table = tr.table) {db : Db} (hdb : w.server.keyed db) (htext : tr'.Text w) :
    TextInv w ({ s with db }.move i tr') := by
  refine ⟨hdb, fun j tr₁ h₁ => ?_, fun j tr₁ h₁ => ?_⟩
  · rcases threads_move h₁ with ⟨rfl, rfl⟩ | ⟨-, h₁⟩
    · rw [htable]
      exact h.proper j tr htr
    · exact h.proper j tr₁ h₁
  · rcases threads_move h₁ with ⟨rfl, rfl⟩ | ⟨-, h₁⟩
    · exact htext
    · exact h.text j tr₁ h₁

omit [DecidableEq ι] in
/-- A text that is executed leaves the key columns in their places. -/
lemma keyed_query (hlaw : w.server.Lawful w.key) (h : TextInv w s) {i : ι} {tr : Traversal}
    (htr : s.threads i = some tr) {cmd : CmdType} {sql : Bytes}
    (htext : TextFor w tr.ctx tr.table cmd sql) {db : Db} {row : Option Row}
    (hq : w.server.query s.db sql = some (db, row)) : w.server.keyed db := by
  obtain ⟨v, -, hsql⟩ := htext
  exact (hlaw.executed h.keyed (h.proper i tr htr).1 hsql hq).1

lemma start (h : TextInv w s) {i : ι} {table : Bytes} {cmds : List CmdType}
    (hproper : ProperAction w s (.start i table cmds))
    (hstep : s.start w i table cmds = some s') : TextInv w s' := by
  rw [ReplState.start] at hstep
  split at hstep
  · cases hstep
  · cases hstep
    refine ⟨h.keyed, fun j tr hj => ?_, fun j tr hj => ?_⟩
    · rcases threads_move hj with ⟨rfl, rfl⟩ | ⟨-, hj⟩
      · exact hproper
      · exact h.proper j tr hj
    · rcases threads_move hj with ⟨rfl, rfl⟩ | ⟨-, hj⟩
      · trivial
      · exact h.text j tr hj

lemma gen (h : TextInv w s) {i : ι} {vals : Schema} {g : Globals}
    (hproper : ProperAction w s (.gen i vals g)) (hstep : s.gen w i vals g = some s') :
    TextInv w s' := by
  rw [ReplState.gen] at hstep
  split at hstep
  · rename_i ctx table cmd cmds htr
    obtain ⟨-, hkey⟩ := h.proper i _ htr
    have hvals := hproper _ htr
    split at hstep
    · rename_i hcmd
      split at hstep
      · rename_i buf g' hgen
        cases hstep
        obtain ⟨lit, hlit⟩ := keyLiteral_ret ctx hkey.sized
        refine h.move htr (by rfl) h.keyed
          ⟨denoted w.server.unescape lit.2, by simp [keyValue, hlit], ?_⟩
        exact sqlGen_keyText hkey (fun data hd => (hvals data hd).1) hcmd w.server.unescape
          (fun data hd => (hvals data hd).2) hlit hgen
      · cases hstep
        exact ⟨h.keyed, h.proper, h.text⟩
    · cases hstep
      exact h.move htr (by rfl) h.keyed trivial
  · cases hstep

lemma write (hlaw : w.server.Lawful w.key) (h : TextInv w s) {i : ι} {refused : Bool}
    (hstep : s.write w i refused = some s') : TextInv w s' := by
  rw [ReplState.write] at hstep
  split at hstep
  · rename_i ctx table cmds cmd sql htr
    have htext : TextFor w ctx table cmd sql := h.text i _ htr
    rcases hquery : s.query w sql refused with _ | ⟨db, row⟩
    · rw [hquery] at hstep
      cases hstep
      exact h.move htr (by rfl) h.keyed trivial
    · have hkeyed := h.keyed_query hlaw htr htext (query_eq_some hquery)
      rw [hquery] at hstep
      cases row with
      | none =>
          cases hstep
          exact h.move htr (by rfl) hkeyed trivial
      | some wrow =>
          dsimp only at hstep
          split at hstep
          · rename_i hcmd
            cases hstep
            subst hcmd
            exact h.move htr (by rfl) hkeyed htext
          · cases hstep
            exact h.move htr (by rfl) hkeyed trivial
  · cases hstep

lemma read (h : TextInv w s) {i : ι} {refused : Bool} (hstep : s.read w i refused = some s') :
    TextInv w s' := by
  rw [ReplState.read] at hstep
  split at hstep
  · rename_i htr
    cases hstep
    exact h.move htr (by rfl) h.keyed trivial
  · rename_i ctx table cmds sql wrow n htr
    have htext : TextFor w ctx table .select sql := h.text i _ htr
    split at hstep <;> cases hstep
    · exact h.move htr (by rfl) h.keyed htext
    · exact ⟨h.keyed, h.proper, h.text⟩
  · cases hstep

lemma finish (h : TextInv w s) {i : ι} (hstep : s.finish i = some s') : TextInv w s' := by
  rw [ReplState.finish] at hstep
  split at hstep
  · cases hstep
    exact ⟨h.keyed, fun j tr hj => h.proper j tr (threads_finish hj),
      fun j tr hj => h.text j tr (threads_finish hj)⟩
  · cases hstep

/-- **A step** keeps the texts those of their traversals. -/
lemma step (hlaw : w.server.Lawful w.key) (h : TextInv w s) {act : ReplAction ι}
    (hproper : ProperAction w s act) (hstep : replStep w s act = some s') : TextInv w s' := by
  unfold replStep at hstep
  split at hstep
  · cases hstep
  · cases act with
    | start i table cmds => exact h.start hproper hstep
    | gen i vals g => exact h.gen hproper hstep
    | write i refused => exact h.write hlaw hstep
    | read i refused => exact h.read hstep
    | finish i => exact h.finish hstep
    | ddl stmt =>
        obtain ⟨db, hddl, rfl⟩ := Option.map_eq_some_iff.1 hstep
        exact ⟨hlaw.keyed_ddl _ _ _ h.keyed hproper hddl, h.proper, h.text⟩

end TextInv

end TextRun

/-! ### The rows that are watched -/

section Watching

variable {ι Db K : Type} (w : ReplSetting ι Db K)

/-- The row that the write server has given is still the one with the key of the traversal, and
has at most lost fields. -/
def Watches (db : Db) (ctx : EngCtx) (table sql : Bytes) (wrow : Row) : Prop :=
  ∃ cols cond v f f', (DataStmt.select cols cond).Readable ∧
    sql = (DataStmt.select cols cond).text table ∧
    (cond.1, denoted w.server.unescape cond.2) = ((w.key table).name, v) ∧
    keyValue w ctx table = some (w.server.canon v) ∧
    w.server.rowAt db table (w.server.canon v) = some f' ∧ Fades f f' ∧ wrow = cols.map f

/-- What holds in every state of a run with different keys. -/
structure ReplInv (s : ReplState ι Db) : Prop where
  text : TextInv w s
  distinct : ∀ i j tr tr', s.threads i = some tr → s.threads j = some tr' → i ≠ j →
    tr.table = tr'.table → keyValue w tr.ctx tr.table ≠ keyValue w tr'.ctx tr.table
  watches : ∀ i tr sql wrow n, s.threads i = some tr → tr.phase = .reading sql wrow n →
    Watches w s.db tr.ctx tr.table sql wrow
  ended : s.ended ≠ some .aborted

variable {w} {db db' : Db} {ctx : EngCtx} {table sql : Bytes} {wrow : Row}

lemma Watches.keep (h : Watches w db ctx table sql wrow)
    (hkeep : ∀ k, keyValue w ctx table = some k → KeepsRow w db db' table k) :
    Watches w db' ctx table sql wrow := by
  obtain ⟨cols, cond, v, f, f', hreadable, hsql, hcond, hv, hrow, hfades, hwrow⟩ := h
  obtain ⟨f'', hrow', hfades'⟩ := hkeep _ hv f' hrow
  exact ⟨cols, cond, v, f, f'', hreadable, hsql, hcond, hv, hrow', hfades.trans hfades', hwrow⟩

/-- A SELECT with a row: from then on the row is watched. -/
lemma TextFor.watches (hlaw : w.server.Lawful w.key) (h : TextFor w ctx table .select sql)
    (hname : NameText table) (hdb : w.server.keyed db)
    (hq : w.server.query db sql = some (db', some wrow)) : Watches w db' ctx table sql wrow := by
  obtain ⟨v, hv, ⟨cond, hcond, rfl⟩ | ⟨stmt, hreadable, hcmd, rfl, hfor⟩⟩ := h
  · rw [hlaw.no_assignments db table cond hname hcond] at hq
    cases hq
  · have heffect := hlaw.effect db db' table v stmt (some wrow) hdb hname hreadable hfor hq
    cases stmt with
    | insert lits => cases hcmd
    | delete cond => cases hcmd
    | update sets cond => cases hcmd
    | select cols cond =>
        obtain ⟨hafter, hrow⟩ := heffect
        obtain ⟨f, hf, rfl⟩ := Option.map_eq_some_iff.1 hrow.symm
        exact ⟨cols, cond, v, f, f, hreadable, rfl, hfor, hv, hafter.trans hf, Fades.refl f, rfl⟩

/-- A read server gives the row that is watched, or refuses; what it gives is not another row. -/
lemma Watches.readTurn (hlaw : w.server.Lawful w.key) (h : Watches w db ctx table sql wrow)
    (hname : NameText table) (hdb : w.server.keyed db) {row : Option Row}
    (hq : w.server.query db sql = some (db', row)) : readTurn wrow (some row) ≠ .aborted := by
  obtain ⟨cols, cond, v, f, f', hreadable, rfl, hcond, hv, hrow, hfades, rfl⟩ := h
  obtain ⟨-, hanswer⟩ := hlaw.effect db db' table v (.select cols cond) row hdb hname hreadable
    hcond hq
  rw [hrow] at hanswer
  subst hanswer
  rw [Option.map_some, CheckQ.readTurn, compareFields_fades hfades]
  split_ifs <;> simp

end Watching

section Run

variable {ι Db K : Type} [DecidableEq ι] {w : ReplSetting ι Db K} {s s' : ReplState ι Db}

namespace ReplInv

omit [DecidableEq ι] in
lemma initial (h : s.Initial w) : ReplInv w s where
  text := TextInv.initial h
  distinct i j tr tr' htr := by rw [h.threads i] at htr; cases htr
  watches i tr sql wrow n htr := by rw [h.threads i] at htr; cases htr
  ended := by simp [h.ended]

/-- One thread goes on with its traversal, and the others keep their rows. -/
lemma move (h : ReplInv w s) {i : ι} {tr tr' : Traversal} (htr : s.threads i = some tr)
    (hctx : tr'.ctx = tr.ctx) (htable : tr'.table = tr.table) {db : Db}
    (htext : TextInv w ({ s with db }.move i tr'))
    (hkeep : ∀ j tr₁, j ≠ i → s.threads j = some tr₁ → ∀ k,
      keyValue w tr₁.ctx tr₁.table = some k → KeepsRow w s.db db tr₁.table k)
    (hwatch : ∀ sql wrow n, tr'.phase = .reading sql wrow n →
      Watches w db tr'.ctx tr'.table sql wrow) : ReplInv w ({ s with db }.move i tr') := by
  -- the traversals are the same as before, in other phases
  have hsame : ∀ j tr₁, ({ s with db }.move i tr').threads j = some tr₁ →
      ∃ tr₀, s.threads j = some tr₀ ∧ tr₁.ctx = tr₀.ctx ∧ tr₁.table = tr₀.table := by
    intro j tr₁ h₁
    rcases threads_move h₁ with ⟨rfl, rfl⟩ | ⟨-, h₁⟩
    · exact ⟨tr, htr, hctx, htable⟩
    · exact ⟨tr₁, h₁, rfl, rfl⟩
  refine ⟨htext, ?_, ?_, h.ended⟩
  · intro j k tr₁ tr₂ h₁ h₂ hne heq
    obtain ⟨tr₃, h₃, hctx₁, htable₁⟩ := hsame j tr₁ h₁
    obtain ⟨tr₄, h₄, hctx₂, htable₂⟩ := hsame k tr₂ h₂
    rw [hctx₁, hctx₂, htable₁]
    exact h.distinct j k tr₃ tr₄ h₃ h₄ hne (by rw [← htable₁, heq, htable₂])
  · intro j tr₁ sql wrow n h₁ hphase
    rcases threads_move h₁ with ⟨rfl, rfl⟩ | ⟨hj, h₁⟩
    · exact hwatch sql wrow n hphase
    · exact (h.watches j tr₁ sql wrow n h₁ hphase).keep (hkeep j tr₁ hj h₁)

/-- One thread goes on with its traversal, without a statement. -/
lemma move_same (h : ReplInv w s) {i : ι} {tr tr' : Traversal} (htr : s.threads i = some tr)
    (hctx : tr'.ctx = tr.ctx) (htable : tr'.table = tr.table)
    (htext : TextInv w (s.move i tr'))
    (hwatch : ∀ sql wrow n, tr'.phase = .reading sql wrow n →
      Watches w s.db tr'.ctx tr'.table sql wrow) : ReplInv w (s.move i tr') :=
  h.move htr hctx htable htext (fun _ _ _ _ _ _ => keepsRow_of_eq rfl) hwatch

lemma start (h : ReplInv w s) {i : ι} {table : Bytes} {cmds : List CmdType}
    (htext : TextInv w s') (hdistinct : DistinctKeys w s (.start i table cmds))
    (hstep : s.start w i table cmds = some s') : ReplInv w s' := by
  rw [ReplState.start] at hstep
  split at hstep
  · cases hstep
  · cases hstep
    refine ⟨htext, ?_, ?_, h.ended⟩
    · intro j k tr tr' hj hk hne htable
      rcases threads_move hj with ⟨rfl, rfl⟩ | ⟨-, hj'⟩
      · rcases threads_move hk with ⟨rfl, rfl⟩ | ⟨-, hk'⟩
        · exact absurd rfl hne
        · exact (hdistinct k tr' hk' htable.symm).symm
      · rcases threads_move hk with ⟨rfl, rfl⟩ | ⟨-, hk'⟩
        · rw [htable]
          exact hdistinct j tr hj' htable
        · exact h.distinct j k tr tr' hj' hk' hne htable
    · intro j tr sql wrow n hj hphase
      rcases threads_move hj with ⟨rfl, rfl⟩ | ⟨-, hj⟩
      · cases hphase
      · exact h.watches j tr sql wrow n hj hphase

lemma gen (h : ReplInv w s) {i : ι} {vals : Schema} {g : Globals} (htext : TextInv w s')
    (hstep : s.gen w i vals g = some s') : ReplInv w s' := by
  rw [ReplState.gen] at hstep
  split at hstep
  · rename_i ctx table cmd cmds htr
    split at hstep
    · split at hstep <;> cases hstep
      · exact h.move_same htr (by rfl) (by rfl) htext (by simp)
      · exact ⟨htext, h.distinct, h.watches, by simp⟩
    · cases hstep
      exact h.move_same htr (by rfl) (by rfl) htext (by simp)
  · cases hstep

omit [DecidableEq ι] in
/-- A statement that a thread sends leaves the rows of the other traversals alone. -/
lemma rowAt_others (hlaw : w.server.Lawful w.key) (h : ReplInv w s) {i : ι} {tr : Traversal}
    (htr : s.threads i = some tr) {cmd : CmdType} {sql : Bytes}
    (htext : TextFor w tr.ctx tr.table cmd sql) {db : Db} {row : Option Row}
    (hq : w.server.query s.db sql = some (db, row)) :
    ∀ j tr₁, j ≠ i → s.threads j = some tr₁ → ∀ k, keyValue w tr₁.ctx tr₁.table = some k →
      w.server.rowAt db tr₁.table k = w.server.rowAt s.db tr₁.table k := by
  intro j tr₁ hj h₁ k hk
  obtain ⟨v, hv, hsql⟩ := htext
  have hframe := (hlaw.executed h.text.keyed (h.text.proper i tr htr).1 hsql hq).2.1
  refine hframe tr₁.table k fun htable hcanon => ?_
  have hne := h.distinct i j tr tr₁ htr h₁ hj.symm htable
  rw [hv, hcanon, htable, hk] at hne
  exact hne rfl

lemma write (hlaw : w.server.Lawful w.key) (h : ReplInv w s) {i : ι} {refused : Bool}
    (htext : TextInv w s') (hstep : s.write w i refused = some s') : ReplInv w s' := by
  rw [ReplState.write] at hstep
  split at hstep
  · rename_i ctx table cmds cmd sql htr
    have hsql : TextFor w ctx table cmd sql := h.text.text i _ htr
    rcases hquery : s.query w sql refused with _ | ⟨db, row⟩
    · rw [hquery] at hstep
      cases hstep
      exact h.move_same htr (by rfl) (by rfl) htext (by simp)
    · have hq := query_eq_some hquery
      have hothers : ∀ j tr₁, j ≠ i → s.threads j = some tr₁ → ∀ k,
          keyValue w tr₁.ctx tr₁.table = some k → KeepsRow w s.db db tr₁.table k :=
        fun j tr₁ hj h₁ k hk => keepsRow_of_eq (h.rowAt_others hlaw htr hsql hq j tr₁ hj h₁ k hk)
      rw [hquery] at hstep
      cases row with
      | none =>
          cases hstep
          exact h.move htr (by rfl) (by rfl) htext hothers (by simp)
      | some wrow =>
          dsimp only at hstep
          split at hstep
          · rename_i hcmd
            cases hstep
            subst hcmd
            refine h.move htr (by rfl) (by rfl) htext hothers fun sql' wrow' n hphase => ?_
            cases hphase
            exact hsql.watches hlaw (h.text.proper i _ htr).1 h.text.keyed hq
          · cases hstep
            exact h.move htr (by rfl) (by rfl) htext hothers (by simp)
  · cases hstep

lemma read (hlaw : w.server.Lawful w.key) (h : ReplInv w s) {i : ι} {refused : Bool}
    (htext : TextInv w s') (hstep : s.read w i refused = some s') : ReplInv w s' := by
  rw [ReplState.read] at hstep
  split at hstep
  · rename_i htr
    cases hstep
    exact h.move_same htr (by rfl) (by rfl) htext (by simp)
  · rename_i ctx table cmds sql wrow n htr
    have hwatch : Watches w s.db ctx table sql wrow := h.watches i _ sql wrow _ htr rfl
    split at hstep
    · cases hstep
      refine h.move_same htr (by rfl) (by rfl) htext fun sql' wrow' n' hphase => ?_
      cases hphase
      exact hwatch
    · rename_i stopped hturn
      cases hstep
      refine ⟨htext, h.distinct, h.watches, ?_⟩
      rcases hquery : s.query w sql refused with _ | ⟨db, row⟩
      · rw [hquery] at hturn
        simp [readTurn] at hturn
      · have hne := hwatch.readTurn hlaw (h.text.proper i _ htr).1 h.text.keyed
          (query_eq_some hquery)
        simpa [hquery] using hne
  · cases hstep

lemma finish (h : ReplInv w s) {i : ι} (htext : TextInv w s') (hstep : s.finish i = some s') :
    ReplInv w s' := by
  rw [ReplState.finish] at hstep
  split at hstep
  · cases hstep
    exact ⟨htext,
      fun j k tr tr' hj hk => h.distinct j k tr tr' (threads_finish hj) (threads_finish hk),
      fun j tr sql wrow n hj => h.watches j tr sql wrow n (threads_finish hj), h.ended⟩
  · cases hstep

lemma step (hlaw : w.server.Lawful w.key) (h : ReplInv w s) {act : ReplAction ι}
    (hproper : ProperAction w s act) (hdistinct : DistinctKeys w s act)
    (hstep : replStep w s act = some s') : ReplInv w s' := by
  have htext := h.text.step hlaw hproper hstep
  unfold replStep at hstep
  split at hstep
  · cases hstep
  · cases act with
    | start i table cmds => exact h.start htext hdistinct hstep
    | gen i vals g => exact h.gen htext hstep
    | write i refused => exact h.write hlaw htext hstep
    | read i refused => exact h.read hlaw htext hstep
    | finish i => exact h.finish htext hstep
    | ddl stmt =>
        obtain ⟨db, hddl, rfl⟩ := Option.map_eq_some_iff.1 hstep
        have hrows := hlaw.ddl_rows _ _ _ h.text.keyed hproper hddl
        exact ⟨htext, h.distinct, fun i tr sql wrow n htr hphase =>
          (h.watches i tr sql wrow n htr hphase).keep fun k _ => keepsRow_of_rel (hrows tr.table k),
          h.ended⟩

end ReplInv

end Run

end CheckQ
