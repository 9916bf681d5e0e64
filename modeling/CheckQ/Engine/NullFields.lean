import CheckQ.Lib.Refinement
import CheckQ.Lib.RowSet
import CheckQ.Mysql.Alter
import CheckQ.Mysql.Select

/-!
# Fields that are `NULL`

One traversal of `travel_command_list` writes and reads the row of its key while `alter_thread`
adds and drops columns of the same table.  A statement is made from the schema of the moment and
executed later, and `mysql_select` sends its statement to the write server and then to the read
servers, one after another; `alter_thread` may come in between everywhere.  So are its own commands
two steps: `add_table_data` comes before the statement and `drop_table_data` behind it.  Statements
are kept as statements, so that a server can execute them; `columns_agree` says what their texts
list.

The server gives the field of a new column of an existing row the value `NULL`, since
`alter_add_gen` declares no default.  `unwritten` are the columns of the row that were added behind
its INSERT and that no UPDATE has named since.  It is a record of the statements that were executed,
which no step reads; a field is `NULL` exactly when its column is in it.  The read servers answer
from the same contents as the write server, at the time they are asked.  A column that is dropped
and added again while a SELECT is on its way to a read server has been written when the write server
answered, and is `NULL` in the row of the read server.
-/

namespace CheckQ

/-- A statement of a traversal, for the row of its key. -/
inductive RowStmt where
  | insert (values : List Bytes)
  | update (sets : List (Bytes × Bytes))
  | delete
  | select (names : List Bytes)
deriving DecidableEq, Repr

/-- The statement that `sql_gen` writes for a command of a traversal. -/
def rowStmt (ctx : EngCtx) (name : Bytes) (s : TableSchema) (g : Globals) (cmd : CmdType) :
    Option RowStmt :=
  match sqlGen ctx name s g cmd with
  | .ret (buf, _) =>
      match cmd with
      | .insert => some (.insert (buf.literals.map Literal.bytes))
      | .update =>
          some (.update ((s.valSchema.schemas.map TableData.name).zip
            (buf.literals.map Literal.bytes)))
      | .delete => some .delete
      | .select => some (.select (s.columns.map TableData.name))
      | _ => none
  | _ => none

/-- The table on the server: its columns, and the fields of the row with the key of the
traversal. -/
structure RowTable where
  cols : List Bytes
  row : Option (Bytes → Option Bytes)

namespace RowTable

/-- Execute a statement of the traversal; `none` is an error.  An INSERT needs a value for every
column and no row with its key; an UPDATE without value columns is not a statement. -/
def exec (t : RowTable) : RowStmt → Option RowTable
  | .insert values =>
      if t.row.isSome = true ∨ values.length ≠ t.cols.length then none
      else some { t with row := some fun c => (t.cols.zip values).lookup c }
  | .update sets =>
      if sets = [] ∨ ¬∀ p ∈ sets, p.1 ∈ t.cols then none
      else some { t with row := t.row.map fun f c => (sets.lookup c).or (f c) }
  | .delete => some { t with row := none }
  | .select names => if ∀ c ∈ names, c ∈ t.cols then some t else none

/-- The row that a SELECT gets; `none` is an error. -/
def read (t : RowTable) (names : List Bytes) : Option (Option Row) :=
  if ∀ c ∈ names, c ∈ t.cols then some (t.row.map fun f => names.map f) else none

/-- Execute an ALTER. -/
def alter (t : RowTable) : SqlStmt → Option RowTable
  | .alterAdd _ col =>
      if col.name ∈ t.cols then none
      else some ⟨t.cols ++ [col.name], t.row.map fun f => Function.update f col.name none⟩
  | .alterDrop _ (some c) =>
      if c ∈ t.cols then some { t with cols := t.cols.filter fun c' => c' ≠ c } else none
  | _ => none

end RowTable

/-- The record of the columns that are unwritten, behind a statement of the traversal. -/
def unwrittenAfter (unwritten : List Bytes) : RowStmt → List Bytes
  | .insert _ => []
  | .update sets => unwritten.filter fun c => c ∉ sets.map Prod.fst
  | .delete => []
  | .select _ => unwritten

/-- The record behind an ALTER of a table. -/
def unwrittenAfterAlter (t : RowTable) (unwritten : List Bytes) : SqlStmt → List Bytes
  | .alterAdd _ col => if t.row.isSome then col.name :: unwritten else unwritten
  | _ => unwritten

/-- Where the traversal is. -/
inductive TravelPhase where
  | ready
  -- the statement of a command has been generated
  | sent (stmt : RowStmt)
  -- the write server has given a row, and some read servers are left
  | reading (names : List Bytes) (wrow : Row) (servers : ℕ)
deriving DecidableEq, Repr

/-- Where `alter_thread` is. -/
inductive AlterPhase where
  | idle
  -- the statement has been generated
  | sent (stmt : SqlStmt)
  -- a DROP has been executed
  | dropped
deriving DecidableEq, Repr

/-- The schema of the table, the table on the server, where the two threads are, and how the process
has been stopped. -/
structure RaceState where
  schema : TableSchema
  table : RowTable
  unwritten : List Bytes
  phase : TravelPhase
  alter : AlterPhase
  ended : Option SelectEnd

/-- A step of the traversal or of `alter_thread`.  A statement of the traversal may be refused for
any reason. -/
inductive RaceAction where
  | gen (cmd : CmdType) (g : Globals)
  | write (refused : Bool)
  | read (refused : Bool)
  | alterAdd (r : RandStream)
  | alterDrop
  | alterExec
  | alterDone

namespace RaceState

/-- The start of a traversal: the table has the columns of the schema and no row with the key. -/
def initial (schema : TableSchema) : RaceState where
  schema := schema
  table := ⟨schema.columns.map TableData.name, none⟩
  unwritten := []
  phase := .ready
  alter := .idle
  ended := none

/-- The write server gets the statement.  `mysql_select` goes on with the read servers when there
is a row. -/
def write (s : RaceState) (nread : ℕ) (refused : Bool) : Option RaceState :=
  match s.phase with
  | .sent stmt =>
      match if refused then none else s.table.exec stmt with
      | none => some { s with phase := .ready }
      | some table =>
          some { s with
            table
            unwritten := unwrittenAfter s.unwritten stmt
            phase := match stmt, table.row with
              | .select names, some f => .reading names (names.map f) nread
              | _, _ => .ready }
  | _ => none

/-- One turn of the loop over the read servers. -/
def read (s : RaceState) (refused : Bool) : Option RaceState :=
  match s.phase with
  | .reading _ _ 0 => some { s with phase := .ready }
  | .reading names wrow (n + 1) =>
      match readTurn wrow (if refused then none else s.table.read names) with
      | .returned _ => some { s with phase := .reading names wrow n }
      | stopped => some { s with ended := some stopped }
  | _ => none

/-- `alter_thread` executes its statement. -/
def alterExec (s : RaceState) : Option RaceState :=
  match s.alter with
  | .sent stmt => do
      let table ← s.table.alter stmt
      return { s with
        table
        unwritten := unwrittenAfterAlter s.table s.unwritten stmt
        alter := match stmt with
          | .alterDrop _ _ => .dropped
          | _ => .idle }
  | _ => none

end RaceState

/-- One step, as long as the process has not been stopped; the statements of `alter_thread`
succeed. -/
def raceStep (ctx : EngCtx) (name : Bytes) (nread : ℕ) (s : RaceState) (act : RaceAction) :
    Option RaceState :=
  if s.ended.isSome then none
  else match act with
    | .gen cmd g =>
        if s.phase = .ready then
          (rowStmt ctx name s.schema g cmd).map fun stmt => { s with phase := .sent stmt }
        else none
    | .write refused => s.write nread refused
    | .read refused => s.read refused
    | .alterAdd r =>
        if s.alter = .idle ∧ isTableSchemaFull s.schema = false then
          match addTableData s.schema r with
          | .ret (schema, _) =>
              match alterAddStmt name schema with
              | .ret stmt => some { s with schema, alter := .sent stmt }
              | _ => none
          | _ => none
        else none
    | .alterDrop =>
        if s.alter = .idle ∧ dropsColumn s.schema = true then
          some { s with alter := .sent (alterDropStmt name s.schema) }
        else none
    | .alterExec => s.alterExec
    | .alterDone =>
        match s.alter, dropTableData s.schema with
        | .dropped, .ret schema => some { s with schema, alter := .idle }
        | _, _ => none

/-- The step does not give a read server a SELECT that it accepts and that names a column of the
row that is unwritten at the time. -/
def readsWritten (s : RaceState) : RaceAction → Bool
  | .read false =>
      match s.phase with
      | .reading names _ (_ + 1) =>
          !((names.all fun c => c ∈ s.table.cols) && names.any fun c => c ∈ s.unwritten)
      | _ => true
  | _ => true

/-! ### The comparison -/

lemma strncmp_self (s : Bytes) (n : ℕ) : strncmp s s n = 0 := by
  induction n generalizing s with
  | zero => rfl
  | succ n ih =>
      rw [strncmp, if_pos rfl, ih]
      split <;> rfl

/-- A row that has lost fields, compared with the row it was: a `NULL` is reached, since no field
before it differs. -/
lemma compareFields_fades {f f' : Bytes → Option Bytes} (h : Fades f f') (cols : List Bytes) :
    compareFields (cols.map f) (cols.map f') = if none ∈ cols.map f' then .fault else .same := by
  induction cols with
  | nil => rfl
  | cons c cols ih =>
      rw [List.map_cons, List.map_cons]
      rcases h c with hc | hc
      · rw [hc]
        cases hf : f c with
        | none => simp [compareFields]
        | some a => simp [compareFields, strncmp_self, ih]
      · cases hf : f c <;> simp [compareFields, hc]

/-! ### The record -/

/-- The field of a column is `NULL` exactly when the column is unwritten, and while a SELECT is on
its way the row has at most lost fields. -/
structure RaceInv (s : RaceState) : Prop where
  none_row : s.table.row = none → s.unwritten = []
  null_iff : ∀ f, s.table.row = some f → ∀ c ∈ s.table.cols, f c = none ↔ c ∈ s.unwritten
  watched : ∀ names wrow n, s.phase = .reading names wrow n →
    ∃ f f', s.table.row = some f' ∧ Fades f f' ∧ wrow = names.map f

/-- A value for every column leaves none without one. -/
lemma lookup_zip_ne_none {cols values : List Bytes} (hlen : values.length = cols.length) {c : Bytes}
    (hc : c ∈ cols) : (cols.zip values).lookup c ≠ none := by
  rw [ne_eq, List.lookup_eq_none_iff]
  intro hnone
  rw [← List.map_fst_zip (hlen.ge)] at hc
  obtain ⟨p, hp, rfl⟩ := List.mem_map.1 hc
  simpa using hnone p hp

namespace RaceInv

variable {s s' : RaceState}

lemma initial (schema : TableSchema) : RaceInv (.initial schema) :=
  ⟨fun _ => rfl, fun f hf => (by cases hf), fun names wrow n h => (by cases h)⟩

/-- Executing a statement of the traversal. -/
lemma exec (hinv : RaceInv s) {stmt : RowStmt} {table : RowTable}
    (hexec : s.table.exec stmt = some table) :
    (table.row = none → unwrittenAfter s.unwritten stmt = []) ∧
      ∀ f, table.row = some f → ∀ c ∈ table.cols,
        f c = none ↔ c ∈ unwrittenAfter s.unwritten stmt := by
  cases stmt with
  | insert values =>
      simp only [RowTable.exec] at hexec
      split at hexec
      · cases hexec
      · rename_i hok
        rw [not_or, not_not] at hok
        cases hexec
        refine ⟨fun _ => rfl, fun f hf c hc => ?_⟩
        obtain rfl := Option.some.inj hf
        simpa [unwrittenAfter] using lookup_zip_ne_none hok.2 hc
  | update sets =>
      simp only [RowTable.exec] at hexec
      split at hexec
      · cases hexec
      · cases hexec
        constructor
        · intro hrow
          rw [unwrittenAfter, hinv.none_row (by simpa using hrow), List.filter_nil]
        · intro f hf c hc
          obtain ⟨f₀, hf₀, rfl⟩ := Option.map_eq_some_iff.1 hf
          have hold := hinv.null_iff f₀ hf₀ c hc
          -- the field stays `NULL` when the column is not named
          have hnamed : sets.lookup c = none ↔ c ∉ sets.map Prod.fst := by
            rw [List.lookup_eq_none_iff, List.mem_map]
            constructor
            · rintro hnone ⟨p, hp, rfl⟩
              simpa using hnone p hp
            · intro hnone p hp
              simpa using fun heq => hnone ⟨p, hp, heq.symm⟩
          simp only [unwrittenAfter, List.mem_filter, Option.or_eq_none_iff, hold, hnamed,
            decide_eq_true_eq]
          exact and_comm
  | delete =>
      cases hexec
      exact ⟨fun _ => rfl, fun f hf => by cases hf⟩
  | select names =>
      simp only [RowTable.exec] at hexec
      split at hexec
      · cases hexec
        exact ⟨hinv.none_row, hinv.null_iff⟩
      · cases hexec

/-- Executing an ALTER. -/
lemma alter (hinv : RaceInv s) {stmt : SqlStmt} {table : RowTable}
    (halter : s.table.alter stmt = some table) :
    (table.row = none → unwrittenAfterAlter s.table s.unwritten stmt = []) ∧
      ∀ f, table.row = some f → ∀ c ∈ table.cols,
        f c = none ↔ c ∈ unwrittenAfterAlter s.table s.unwritten stmt := by
  cases stmt with
  | create name keys vals => cases halter
  | alterAdd name col =>
      simp only [RowTable.alter] at halter
      split at halter
      · cases halter
      · rename_i hnew
        cases halter
        constructor
        · intro hrow
          have hnone : s.table.row = none := by simpa using hrow
          simp [unwrittenAfterAlter, hnone, hinv.none_row hnone]
        · intro f hf c hc
          obtain ⟨f₀, hf₀, rfl⟩ := Option.map_eq_some_iff.1 hf
          simp only [unwrittenAfterAlter, hf₀, Option.isSome_some, if_true, List.mem_cons]
          by_cases hcol : c = col.name
          · simp [hcol]
          · have hold : c ∈ s.table.cols := by
              rcases List.mem_append.1 hc with hc | hc
              · exact hc
              · exact absurd (List.mem_singleton.1 hc) hcol
            rw [Function.update_of_ne hcol, hinv.null_iff f₀ hf₀ c hold]
            simp [hcol]
  | alterDrop name col =>
      rcases col with _ | c₀
      · cases halter
      · simp only [RowTable.alter] at halter
        split at halter
        · cases halter
          exact ⟨hinv.none_row, fun f hf c hc => hinv.null_iff f hf c (List.mem_of_mem_filter hc)⟩
        · cases halter

/-- A row that was there before an ALTER is there behind it, and has at most lost fields. -/
lemma row_alter {t t' : RowTable} {stmt : SqlStmt} (h : t.alter stmt = some t')
    {f : Bytes → Option Bytes} (hf : t.row = some f) : ∃ f', t'.row = some f' ∧ Fades f f' := by
  cases stmt with
  | create name keys vals => cases h
  | alterAdd name col =>
      simp only [RowTable.alter] at h
      split at h
      · cases h
      · cases h
        exact ⟨_, by rw [hf]; rfl, fades_update f col.name⟩
  | alterDrop name col =>
      rcases col with _ | c
      · cases h
      · simp only [RowTable.alter] at h
        split at h
        · cases h
          exact ⟨f, hf, Fades.refl f⟩
        · cases h

/-- The traversal is elsewhere, with no SELECT on its way. -/
lemma idle (hinv : RaceInv s) (htable : s'.table = s.table) (hun : s'.unwritten = s.unwritten)
    (hphase : s'.phase = s.phase ∨ ∀ names wrow n, s'.phase ≠ .reading names wrow n) :
    RaceInv s' := by
  refine ⟨by rw [htable, hun]; exact hinv.none_row, by rw [htable, hun]; exact hinv.null_iff, ?_⟩
  intro names wrow n hreading
  rcases hphase with hphase | hphase
  · rw [htable]
    exact hinv.watched names wrow n (hphase ▸ hreading)
  · exact absurd hreading (hphase names wrow n)

lemma write (hinv : RaceInv s) {nread : ℕ} {refused : Bool}
    (hstep : s.write nread refused = some s') : RaceInv s' := by
  rw [RaceState.write] at hstep
  split at hstep
  · rename_i stmt hphase
    rcases hexec : (if refused = true then none else s.table.exec stmt) with _ | table
    · rw [hexec] at hstep
      cases hstep
      exact hinv.idle rfl rfl (Or.inr fun _ _ _ => by simp)
    · rw [hexec] at hstep
      cases hstep
      have hexec' : s.table.exec stmt = some table := by
        split at hexec
        · cases hexec
        · exact hexec
      obtain ⟨hnone, hnull⟩ := hinv.exec hexec'
      refine ⟨hnone, hnull, fun names wrow n hreading => ?_⟩
      dsimp only at hreading
      split at hreading
      · rename_i f hf
        cases hreading
        exact ⟨f, f, hf, Fades.refl f, rfl⟩
      · cases hreading
  · cases hstep

/-- A turn of the loop compares a `NULL` exactly when the read server accepts the SELECT and it
names an unwritten column. -/
lemma readTurn_eq (hinv : RaceInv s) {names : List Bytes} {wrow : Row} {n : ℕ}
    (hphase : s.phase = .reading names wrow (n + 1)) (refused : Bool) :
    readTurn wrow (if refused then none else s.table.read names)
      = if readsWritten s (.read refused) = true then .returned 0 else .faulted := by
  cases refused with
  | true => rfl
  | false =>
      obtain ⟨f, f', hrow, hfades, rfl⟩ := hinv.watched names wrow _ hphase
      simp only [Bool.false_eq_true, if_false, RowTable.read, hrow, Option.map_some, readsWritten,
        hphase]
      by_cases hnames : ∀ c ∈ names, c ∈ s.table.cols
      · have hnull : none ∈ names.map f' ↔ ∃ c ∈ names, c ∈ s.unwritten := by
          rw [List.mem_map]
          exact exists_congr fun c => and_congr_right fun hc =>
            hinv.null_iff f' hrow c (hnames c hc)
        rw [if_pos hnames, readTurn, compareFields_fades hfades]
        by_cases hun : ∃ c ∈ names, c ∈ s.unwritten
        · have hbad : ((names.all fun c => c ∈ s.table.cols) &&
              names.any fun c => c ∈ s.unwritten) = true := by simpa using ⟨hnames, hun⟩
          simp [hnull.2 hun, hbad]
        · have hgood : ((names.all fun c => c ∈ s.table.cols) &&
              names.any fun c => c ∈ s.unwritten) = false := by
            rw [Bool.and_eq_false_iff]
            exact Or.inr (by simpa using hun)
          simp [mt hnull.1 hun, hgood]
      · have hgood : (names.all fun c => c ∈ s.table.cols) = false := by simpa using hnames
        rw [if_neg hnames, hgood]
        rfl

lemma read (hinv : RaceInv s) {refused : Bool} (hstep : s.read refused = some s') :
    RaceInv s' ∧ s'.ended = if readsWritten s (.read refused) then s.ended else some .faulted := by
  rw [RaceState.read] at hstep
  split at hstep
  · rename_i names wrow hphase
    cases hstep
    refine ⟨hinv.idle rfl rfl (Or.inr fun _ _ _ => by simp), ?_⟩
    cases refused <;> simp [readsWritten, hphase]
  · rename_i names wrow n hphase
    rw [hinv.readTurn_eq hphase] at hstep
    by_cases hok : readsWritten s (.read refused) = true
    · rw [if_pos hok] at hstep
      cases hstep
      refine ⟨⟨hinv.none_row, hinv.null_iff, fun names' wrow' n' hreading => ?_⟩,
        by rw [if_pos hok]⟩
      cases hreading
      exact hinv.watched names wrow _ hphase
    · rw [if_neg hok] at hstep
      cases hstep
      exact ⟨⟨hinv.none_row, hinv.null_iff, hinv.watched⟩, by rw [if_neg hok]⟩
  · cases hstep

lemma alterExec (hinv : RaceInv s) (hstep : s.alterExec = some s') :
    RaceInv s' ∧ s'.ended = s.ended := by
  rw [RaceState.alterExec] at hstep
  split at hstep
  · obtain ⟨table, halter, hret⟩ := Option.bind_eq_some_iff.1 hstep
    cases hret
    obtain ⟨hnone, hnull⟩ := hinv.alter halter
    refine ⟨⟨hnone, hnull, fun names wrow n hreading => ?_⟩, rfl⟩
    obtain ⟨f, f', hrow, hfades, hwrow⟩ := hinv.watched names wrow n hreading
    obtain ⟨f'', hrow', hfades'⟩ := row_alter halter hrow
    exact ⟨f, f'', hrow', hfades.trans hfades', hwrow⟩
  · cases hstep

/-- **A step** keeps the record right, and passes a `NULL` to `strncmp` exactly when it gives a
read server a SELECT that names an unwritten column. -/
lemma step {ctx : EngCtx} {name : Bytes} {nread : ℕ} {act : RaceAction} (hinv : RaceInv s)
    (hstep : raceStep ctx name nread s act = some s') :
    RaceInv s' ∧ (s'.ended = some .faulted ↔ readsWritten s act = false) := by
  unfold raceStep at hstep
  split at hstep
  · cases hstep
  rename_i hrunning
  have hnone : s.ended = none := by simpa using hrunning
  have hidle : readsWritten s act = true → s'.ended = s.ended →
      (s'.ended = some .faulted ↔ readsWritten s act = false) := by
    intro hok hended
    simp [hok, hended, hnone]
  cases act with
  | gen cmd g =>
      dsimp only at hstep
      split at hstep
      · obtain ⟨stmt, -, rfl⟩ := Option.map_eq_some_iff.1 hstep
        exact ⟨hinv.idle rfl rfl (Or.inr fun _ _ _ => by simp), hidle rfl rfl⟩
      · cases hstep
  | write refused =>
      refine ⟨hinv.write hstep, hidle rfl ?_⟩
      dsimp only [RaceState.write] at hstep
      split at hstep
      · split at hstep <;> cases hstep <;> rfl
      · cases hstep
  | read refused =>
      obtain ⟨hinv', hended⟩ := hinv.read hstep
      refine ⟨hinv', ?_⟩
      rw [hended]
      by_cases hok : readsWritten s (.read refused) = true
      · simp [hok, hnone]
      · simp [hok]
  | alterAdd r =>
      dsimp only at hstep
      split at hstep
      · split at hstep
        · split at hstep <;> cases hstep
          exact ⟨hinv.idle rfl rfl (Or.inl rfl), hidle rfl rfl⟩
        · cases hstep
      · cases hstep
  | alterDrop =>
      dsimp only at hstep
      split at hstep <;> cases hstep
      exact ⟨hinv.idle rfl rfl (Or.inl rfl), hidle rfl rfl⟩
  | alterExec =>
      obtain ⟨hinv', hended⟩ := hinv.alterExec hstep
      exact ⟨hinv', hidle rfl hended⟩
  | alterDone =>
      dsimp only at hstep
      split at hstep <;> cases hstep
      exact ⟨hinv.idle rfl rfl (Or.inl rfl), hidle rfl rfl⟩

end RaceInv

/-! ### Runs -/

section Run

variable {ctx : EngCtx} {name : Bytes} {nread : ℕ} {sched : List RaceAction} {s s' : RaceState}

/-- A process that has been stopped takes no step. -/
lemma runSchedule_ended (hended : s.ended.isSome = true)
    (hrun : runSchedule (raceStep ctx name nread) (fun _ _ => true) sched s = some s') :
    sched = [] := by
  cases sched with
  | nil => rfl
  | cons act sched =>
      rw [runSchedule, if_pos rfl] at hrun
      obtain ⟨s₁, hstep, -⟩ := Option.bind_eq_some_iff.1 hrun
      simp [raceStep, hended] at hstep

/-- A run from any state in which the record is right. -/
lemma faulted_run_iff (hinv : RaceInv s) (hrunning : s.ended ≠ some .faulted)
    (hrun : runSchedule (raceStep ctx name nread) (fun _ _ => true) sched s = some s') :
    s'.ended ≠ some .faulted ↔
      runSchedule (raceStep ctx name nread) readsWritten sched s = some s' := by
  induction sched generalizing s with
  | nil =>
      obtain rfl : s = s' := Option.some.inj hrun
      simp [runSchedule, hrunning]
  | cons act sched ih =>
      rw [runSchedule, if_pos rfl] at hrun
      obtain ⟨s₁, hstep, hrest⟩ := Option.bind_eq_some_iff.1 hrun
      obtain ⟨hinv₁, hfault⟩ := hinv.step hstep
      rw [runSchedule, hstep, Option.bind_some]
      by_cases hok : readsWritten s act = true
      · have hgoes : s₁.ended ≠ some .faulted := fun h => by simp [hfault.1 h] at hok
        rw [if_pos hok]
        exact ih hinv₁ hgoes hrest
      · -- the process is stopped by the step, and the run ends there
        have hended : s₁.ended = some .faulted := hfault.2 (Bool.eq_false_iff.2 hok)
        obtain rfl := runSchedule_ended (by rw [hended]; rfl) hrest
        obtain rfl : s₁ = s' := Option.some.inj hrest
        simp [hok, hended]

/-- **When no `NULL` is compared.**  In a run of a traversal and `alter_thread`, with any number of
read servers and whatever comes between the statements of `mysql_select`, no `NULL` is passed to
`strncmp` if and only if no step of it gives a read server a SELECT that names a column which was
added behind the INSERT of the row and has not been written since. -/
theorem null_compared_iff (ctx : EngCtx) (name : Bytes) (nread : ℕ) (schema : TableSchema)
    (sched : List RaceAction) (s : RaceState)
    (hrun : runSchedule (raceStep ctx name nread) (fun _ _ => true) sched (.initial schema)
      = some s) :
    s.ended ≠ some .faulted ↔
      runSchedule (raceStep ctx name nread) readsWritten sched (.initial schema) = some s :=
  faulted_run_iff (.initial schema) (by simp [RaceState.initial]) hrun

end Run

/-! ### Runs with one read server -/

/-- A table with one key and one value column. -/
def noteSchema : TableSchema :=
  ⟨⟨[⟨ascii "id", .bigint, 0⟩], 100⟩, ⟨[⟨ascii "note", .bigint, 0⟩], 100⟩⟩

/-- INSERT, an added column, and SELECT. -/
def addedRun : List RaceAction :=
  [.gen .insert ⟨0, fun _ => 0⟩, .write false, .alterAdd fun _ => 0, .alterExec,
    .gen .select ⟨0, fun _ => 0⟩, .write false, .read false]

/-- INSERT, an added column, UPDATE, and SELECT. -/
def updatedRun : List RaceAction :=
  [.gen .insert ⟨0, fun _ => 0⟩, .write false, .alterAdd fun _ => 0, .alterExec,
    .gen .update ⟨0, fun _ => 0⟩, .write false, .gen .select ⟨0, fun _ => 0⟩, .write false,
    .read false, .read false]

/-- A column is dropped and added again between the write server and the read server. -/
def droppedRun : List RaceAction :=
  [.alterAdd fun _ => 0, .alterExec, .gen .insert ⟨0, fun _ => 0⟩, .write false,
    .gen .select ⟨0, fun _ => 0⟩, .write false, .alterDrop, .alterExec, .alterDone,
    .alterAdd fun _ => 0, .alterExec, .read false]

/-- The UPDATE writes the added column, so that the SELECT compares no `NULL`. -/
theorem null_compared_iff_updated :
    ∃ s, runSchedule (raceStep ⟨1, 3⟩ (ascii "test7") 1) readsWritten updatedRun
        (.initial noteSchema) = some s ∧ s.ended ≠ some .faulted := by
  have hended : (runSchedule (raceStep ⟨1, 3⟩ (ascii "test7") 1) (fun _ _ => true) updatedRun
      (.initial noteSchema)).map RaceState.ended = some none := by decide +kernel
  obtain ⟨s, hrun, hs⟩ := Option.map_eq_some_iff.1 hended
  have hnot : s.ended ≠ some .faulted := by simp [hs]
  exact ⟨s, (null_compared_iff ⟨1, 3⟩ (ascii "test7") 1 noteSchema updatedRun s hrun).1 hnot, hnot⟩

/-- The SELECT behind the ALTER compares the `NULL` of the added column. -/
theorem null_compared :
    ∃ s, runSchedule (raceStep ⟨1, 3⟩ (ascii "test7") 1) (fun _ _ => true) addedRun
        (.initial noteSchema) = some s ∧ s.ended = some .faulted := by
  have hended : (runSchedule (raceStep ⟨1, 3⟩ (ascii "test7") 1) (fun _ _ => true) addedRun
      (.initial noteSchema)).map RaceState.ended = some (some .faulted) := by decide +kernel
  obtain ⟨s, hrun, hs⟩ := Option.map_eq_some_iff.1 hended
  exact ⟨s, hrun, hs⟩

/-- The write server has given all fields, and the read server gives a `NULL`. -/
example : (runSchedule (raceStep ⟨1, 3⟩ (ascii "test7") 1) (fun _ _ => true) droppedRun
    (.initial noteSchema)).map RaceState.ended = some (some .faulted) := by decide +kernel

end CheckQ
