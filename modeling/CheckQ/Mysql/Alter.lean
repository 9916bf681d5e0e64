import CheckQ.Mysql.SqlGen
import Mathlib.Logic.Function.Basic

/-!
# Creating and altering tables

`mysql_create_table`, `mysql_alter_add_table` and `mysql_alter_drop_table` of
`cq_mysql/cq_mysql_cmd.c`.  The statements they send are kept as statements and not as text,
so that a server can execute them; `SqlStmt.text` is their text, and it is what the generators
write.

`mysql_alter_add_table` changes the schema before it sends the statement, and
`mysql_alter_drop_table` after it has been executed.
-/

namespace CheckQ

/-- The type of a column of a table. -/
inductive ColumnType where
  | bigint
  | varchar (len : Int32)
deriving DecidableEq, Repr

/-- A column of a table, as a server knows it. -/
structure ColumnDef where
  name : Bytes
  type : ColumnType
deriving DecidableEq, Repr

/-- The column that a generator declares for a `table_data`. -/
def TableData.columnDef (data : TableData) : ColumnDef where
  name := data.name
  type := match data.type with
    | .bigint => .bigint
    | .varchar => .varchar data.len

/-- The columns of a schema, in order: names, types and lengths. -/
def TableSchema.columnDefs (s : TableSchema) : List ColumnDef := s.columns.map TableData.columnDef

/-- A statement that changes tables. -/
inductive SqlStmt where
  | create (name : Bytes) (keys vals : List ColumnDef)
  | alterAdd (name : Bytes) (col : ColumnDef)
  -- without a column the statement is `alter table name`
  | alterDrop (name : Bytes) (col : Option Bytes)
deriving DecidableEq, Repr

/-- The text of a type. -/
def ColumnType.text : ColumnType → Bytes
  | .bigint => ascii "bigint"
  | .varchar len => ascii "varchar(" ++ decimalInt len.toInt ++ ascii ")"

/-- The text of a statement. -/
def SqlStmt.text : SqlStmt → Bytes
  | .create name keys vals =>
      (ascii "create table " ++ name ++ ascii " (" ++
        (keys.flatMap fun c => c.name ++ ascii " " ++ c.type.text ++ ascii " primary key" ++ ascii ",") ++
        (vals.flatMap fun c => c.name ++ ascii " " ++ c.type.text ++ ascii ",")).dropLast ++ ascii ")"
  | .alterAdd name col =>
      ascii "alter table " ++ name ++ ascii " " ++ ascii "add " ++ col.name ++ ascii " " ++
        col.type.text
  | .alterDrop name none => ascii "alter table " ++ name ++ ascii " "
  | .alterDrop name (some col) =>
      ascii "alter table " ++ name ++ ascii " " ++ ascii "DROP COLUMN " ++ col

/-- The statement of `create_gen`. -/
def createStmt (name : Bytes) (s : TableSchema) : SqlStmt :=
  .create name (s.keySchema.schemas.map TableData.columnDef)
    (s.valSchema.schemas.map TableData.columnDef)

/-- The statement of `alter_add_gen`. -/
def alterAddStmt (name : Bytes) (s : TableSchema) : Outcome SqlStmt :=
  match s.valSchema.schemas.getLast? with
  | none => .fault
  | some data => .ret (.alterAdd name data.columnDef)

/-- The statement of `alter_drop_gen`. -/
def alterDropStmt (name : Bytes) (s : TableSchema) : SqlStmt :=
  .alterDrop name (s.valSchema.schemas.getLast?.map TableData.name)

lemma columnDef_text (data : TableData) : data.columnDef.type.text = columnType data := by
  rw [TableData.columnDef, columnType]
  cases data.type <;> rfl

/-- The statements have the text that the generators write. -/
lemma createStmt_text (name : Bytes) (s : TableSchema) :
    (createStmt name s).text = createGen name s := by
  simp only [createStmt, SqlStmt.text, createGen, List.flatMap_map, columnDef_text]
  rfl

lemma alterAddStmt_text (name : Bytes) (s : TableSchema) :
    (alterAddStmt name s >>= fun stmt => .ret stmt.text) = alterAddGen name s := by
  rw [alterAddStmt, alterAddGen]
  cases s.valSchema.schemas.getLast? with
  | none => rfl
  | some data =>
      simp only [Outcome.ret_bind, SqlStmt.text, columnDef_text]
      rfl

lemma alterDropStmt_text (name : Bytes) (s : TableSchema) :
    (alterDropStmt name s).text = alterDropGen name s := by
  rw [alterDropStmt, alterDropGen]
  cases s.valSchema.schemas.getLast? with
  | none => rfl
  | some data => rfl

/-! ### The commands -/

/-- A server for statements that change tables: what `mysql_select_db` returns, and what
`mysql_real_query` returns and leaves behind. -/
structure DdlServer (σ : Type) where
  selectDb : Int
  realQuery : SqlStmt → σ → Int × σ

variable {σ : Type} (server : DdlServer σ)

/-- `mysql_create_table`. -/
def mysqlCreateTable (name : Bytes) (s : TableSchema) (db : σ) : Int × σ :=
  if server.selectDb ≠ 0 then (server.selectDb, db)
  else server.realQuery (createStmt name s) db

/-- `mysql_alter_add_table` on the table `name` with the schema `s`. -/
def mysqlAlterAddTable (name : Bytes) (s : TableSchema) (r : RandStream) (db : σ) :
    Outcome (Int × TableSchema × RandStream × σ) :=
  if server.selectDb ≠ 0 then .ret (server.selectDb, s, r, db)
  else if isTableSchemaFull s then .ret (0, s, r, db)
  else do
    let (s, r) ← addTableData s r
    let stmt ← alterAddStmt name s
    let reply := server.realQuery stmt db
    return (reply.1, s, r, reply.2)

/-- `mysql_alter_drop_table` on the table `name` with the schema `s`. -/
def mysqlAlterDropTable (name : Bytes) (s : TableSchema) (db : σ) :
    Outcome (Int × TableSchema × σ) :=
  match s.valSchema.schemas.getLast? with
  | none => .ret (0, s, db)
  | some data =>
      if server.selectDb ≠ 0 then .ret (server.selectDb, s, db)
      else if strncmp data.name (ascii "col") 3 ≠ 0 then .ret (0, s, db)
      else
        let reply := server.realQuery (alterDropStmt name s) db
        if reply.1 = 0 then do
          let s ← dropTableData s
          return (0, s, reply.2)
        else .ret (reply.1, s, reply.2)

/-! ### What the commands do to a schema -/

/-- A schema with one more value column. -/
def TableSchema.push (s : TableSchema) (data : TableData) : TableSchema :=
  { s with valSchema := { s.valSchema with schemas := s.valSchema.schemas ++ [data] } }

/-- A schema without its last value column. -/
def TableSchema.pop (s : TableSchema) : TableSchema :=
  { s with valSchema := { s.valSchema with schemas := s.valSchema.schemas.dropLast } }

/-- The name of the column that is added to `n` value columns. -/
def colName (n : ℕ) : Bytes := ascii "col" ++ decimal n

/-- `add_table_data` on a schema that is not full appends one column, named by its place. -/
lemma addTableData_eq {s : TableSchema} (h : isTableSchemaFull s = false) (r : RandStream) :
    ∃ data r', data.name = colName s.valSchema.nschema ∧
      addTableData s r = .ret (s.push data, r') := by
  have hlt : s.valSchema.nschema < s.valSchema.capacity := by
    simpa [isTableSchemaFull] using h
  have hadd : ∀ data, schemaAdd s.valSchema data
      = .ret (.succeed, { s.valSchema with schemas := s.valSchema.schemas ++ [data] }) :=
    fun data => schemaAdd_eq hlt data
  simp only [addTableData]
  split <;> simp only [hadd, Outcome.ret_bind] <;> exact ⟨_, _, rfl, rfl⟩

/-- `mysql_alter_add_table`, when the database can be selected: nothing happens to a full
schema, and otherwise a column is appended and declared. -/
lemma mysqlAlterAddTable_cases {name : Bytes} {s s' : TableSchema} {r r' : RandStream} {db db' : σ}
    {ret : Int} (hdb : server.selectDb = 0)
    (h : mysqlAlterAddTable server name s r db = .ret (ret, s', r', db')) :
    (isTableSchemaFull s = true ∧ s' = s ∧ db' = db) ∨
      (isTableSchemaFull s = false ∧ ∃ data, s' = s.push data ∧
        server.realQuery (.alterAdd name data.columnDef) db = (ret, db')) := by
  rw [mysqlAlterAddTable, if_neg (by simp [hdb])] at h
  by_cases hfull : isTableSchemaFull s = true
  · rw [if_pos hfull, Outcome.ret.injEq] at h
    simp only [Prod.mk.injEq] at h
    exact Or.inl ⟨hfull, h.2.1.symm, h.2.2.2.symm⟩
  · rw [if_neg hfull] at h
    rw [Bool.not_eq_true] at hfull
    obtain ⟨data, r₁, -, hadd⟩ := addTableData_eq hfull r
    refine Or.inr ⟨hfull, data, ?_⟩
    simp only [hadd, Outcome.ret_bind, alterAddStmt, TableSchema.push, List.getLast?_concat,
      Outcome.pure_eq, Outcome.ret.injEq, Prod.mk.injEq] at h
    exact ⟨h.2.1.symm, Prod.ext h.1 h.2.2.2⟩

/-- The last value column of a schema may be dropped: there is one, and its name begins with
`col`. -/
def dropsColumn (s : TableSchema) : Bool :=
  match s.valSchema.schemas.getLast? with
  | none => false
  | some data => strncmp data.name (ascii "col") 3 == 0

/-- `mysql_alter_drop_table`, when the database can be selected and statements succeed. -/
lemma mysqlAlterDropTable_cases {name : Bytes} {s s' : TableSchema} {db db' : σ}
    (hdb : server.selectDb = 0)
    (h : mysqlAlterDropTable server name s db = .ret (0, s', db')) :
    (dropsColumn s = false ∧ s' = s ∧ db' = db) ∨
      (dropsColumn s = true ∧ ∃ data, s.valSchema.schemas.getLast? = some data ∧ s' = s.pop ∧
        server.realQuery (.alterDrop name (some data.name)) db = (0, db')) := by
  rw [mysqlAlterDropTable] at h
  rw [dropsColumn]
  rcases hlast : s.valSchema.schemas.getLast? with _ | data
  · simp only [hlast, Outcome.ret.injEq, Prod.mk.injEq, true_and] at h
    exact Or.inl ⟨rfl, h.1.symm, h.2.symm⟩
  · simp only [hlast, hdb, ne_eq, not_true_eq_false, if_false] at h
    have hpos : s.valSchema.nschema ≠ 0 := (Schema.nschema_pos hlast).ne'
    by_cases hcol : strncmp data.name (ascii "col") 3 = 0
    · rw [if_neg (by simp [hcol])] at h
      simp only [alterDropStmt, hlast, Option.map_some] at h
      rcases hq : server.realQuery (.alterDrop name (some data.name)) db with ⟨ret, db₁⟩
      rw [hq] at h
      by_cases hret : ret = 0
      · simp only [hret, if_true, dropTableData, hpos, if_false, Outcome.ret_bind, Outcome.pure_eq,
          Outcome.ret.injEq, Prod.mk.injEq, true_and] at h
        refine Or.inr ⟨by simp [hcol], data, rfl, h.1.symm, ?_⟩
        rw [hq, hret, h.2]
      · simp only [hret, if_false, Outcome.ret.injEq, Prod.mk.injEq, false_and] at h
    · rw [if_pos hcol, Outcome.ret.injEq] at h
      simp only [Prod.mk.injEq, true_and] at h
      exact Or.inl ⟨by simp [hcol], h.1.symm, h.2.symm⟩

end CheckQ
