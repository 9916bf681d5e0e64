import CheckQ.Lib.Refinement
import CheckQ.Table.SchemaArray
import CheckQ.Mysql.AlterRuns
import CheckQ.Parser.XmlTable
import CheckQ.Parser.TxtTable

/-!
# Schemas as bounded stacks

The parsers fill a schema with `schema_add`, and from then on `alter_thread` pushes and pops
value columns.  `schema_add` refuses a column only when the counter is equal to the capacity, and
`drop_table_data` looks at nothing: the commands do, with `is_table_schema_full`, with the number
of columns and with the name of the last one.  `schemas_bounded` says that this is enough along
every run.
-/

namespace CheckQ

variable {σ : Type} (server : DdlServer σ)

/-! ### The commands on arrays -/

/-- The statement of `alter_add_gen`. -/
def alterAddStmtArray (name : Bytes) (s : TableSchemaArrays) : Outcome SqlStmt := do
  let data ← fetch s.valSchema.schemas (s.valSchema.nschema - 1)
  return .alterAdd name data.columnDef

/-- The statement of `alter_drop_gen`. -/
def alterDropStmtArray (name : Bytes) (s : TableSchemaArrays) : Outcome SqlStmt :=
  if s.valSchema.nschema > 0 then do
    let data ← fetch s.valSchema.schemas (s.valSchema.nschema - 1)
    return .alterDrop name (some data.name)
  else .ret (.alterDrop name none)

/-- `mysql_alter_add_table`; the first result is what `schema_add` returns when
`add_table_data` is called. -/
def mysqlAlterAddTableArray (name : Bytes) (s : TableSchemaArrays) (r : RandStream) (db : σ) :
    Outcome (Option RetT × Int × TableSchemaArrays × RandStream × σ) :=
  if server.selectDb ≠ 0 then .ret (none, server.selectDb, s, r, db)
  else if isTableSchemaFullArray s then .ret (none, 0, s, r, db)
  else do
    let (added, s, r) ← addTableDataArray s r
    let stmt ← alterAddStmtArray name s
    let reply := server.realQuery stmt db
    return (some added, reply.1, s, r, reply.2)

/-- `mysql_alter_drop_table`. -/
def mysqlAlterDropTableArray (name : Bytes) (s : TableSchemaArrays) (db : σ) :
    Outcome (Int × TableSchemaArrays × σ) :=
  if s.valSchema.nschema ≤ 0 then .ret (0, s, db)
  else if server.selectDb ≠ 0 then .ret (server.selectDb, s, db)
  else do
    let data ← fetch s.valSchema.schemas (s.valSchema.nschema - 1)
    if strncmp data.name (ascii "col") 3 ≠ 0 then return (0, s, db)
    else
      let stmt ← alterDropStmtArray name s
      let reply := server.realQuery stmt db
      if reply.1 = 0 then
        let s ← dropTableDataArray s
        return (0, s, reply.2)
      else return (reply.1, s, reply.2)

/-- Both parts of a schema are within their capacities. -/
structure TableSchema.Bounded (s : TableSchema) : Prop where
  key : s.keySchema.Bounded
  val : s.valSchema.Bounded

/-- The command on the arrays does what it does on the columns, and where it calls
`add_table_data`, `schema_add` succeeds. -/
lemma mysqlAlterAddTableArray_eq {s : TableSchema} (hs : s.Bounded) (name : Bytes) (r : RandStream)
    (db : σ) :
    mysqlAlterAddTableArray server name s.arrays r db = (do
      let (ret, s', r', db') ← mysqlAlterAddTable server name s r db
      return (if server.selectDb = 0 ∧ isTableSchemaFull s = false then some .succeed else none,
        ret, s'.arrays, r', db')) := by
  rw [mysqlAlterAddTableArray, mysqlAlterAddTable, isTableSchemaFullArray_eq]
  by_cases hdb : server.selectDb = 0
  · by_cases hfull : isTableSchemaFull s = true
    · simp [hdb, hfull]
    · rw [Bool.not_eq_true] at hfull
      have hroom : s.valSchema.nschema < s.valSchema.capacity := by
        simpa [isTableSchemaFull] using hfull
      have hname : s.valSchema.nschema < 10 ^ 6 := by
        have := hs.val.nschema_le
        omega
      obtain ⟨data, r', -, hadd⟩ := addTableData_eq hfull r
      have hstmt : alterAddStmtArray name (s.push data).arrays
          = .ret (.alterAdd name data.columnDef) := by
        have hlast : fetch (s.push data).arrays.valSchema.schemas
            ((s.push data).arrays.valSchema.nschema - 1) = .ret data :=
          fetch_stackCells_last List.getLast?_concat
        rw [alterAddStmtArray, hlast]
        rfl
      simp only [hdb, hfull, ne_eq, not_true_eq_false, if_false, Bool.false_eq_true, and_self,
        if_true, addTableDataArray_eq hroom hname, hadd, Outcome.ret_bind, Outcome.pure_eq, hstmt]
      simp [alterAddStmt, TableSchema.push]
  · simp [hdb]

lemma mysqlAlterDropTableArray_eq {s : TableSchema} (hs : s.Bounded) (name : Bytes) (db : σ) :
    mysqlAlterDropTableArray server name s.arrays db = (do
      let (ret, s', db') ← mysqlAlterDropTable server name s db
      return (ret, s'.arrays, db')) := by
  rw [mysqlAlterDropTableArray, mysqlAlterDropTable]
  rcases hlast : s.valSchema.schemas.getLast? with _ | data
  · have hnil : s.valSchema.schemas = [] := List.getLast?_eq_none_iff.1 hlast
    have hzero : s.arrays.valSchema.nschema ≤ 0 := by
      simp [TableSchema.arrays, Schema.array, Schema.nschema, hnil]
    rw [if_pos hzero]
    rfl
  · have hpos : 0 < s.arrays.valSchema.nschema := Int.ofNat_lt.2 (Schema.nschema_pos hlast)
    have hfetch : fetch s.arrays.valSchema.schemas (s.arrays.valSchema.nschema - 1) = .ret data :=
      fetch_stackCells_last hlast
    have hstmt : alterDropStmtArray name s.arrays = .ret (alterDropStmt name s) := by
      rw [alterDropStmtArray, if_pos hpos, hfetch, alterDropStmt, hlast]
      rfl
    rw [if_neg (not_le.2 hpos), hfetch]
    by_cases hdb : server.selectDb = 0
    · by_cases hcol : strncmp data.name (ascii "col") 3 = 0
      · by_cases hq : (server.realQuery (alterDropStmt name s) db).1 = 0
        · simp only [hdb, hcol, hstmt, hq, dropTableDataArray_eq hs.val.le_capacity hlast, ne_eq,
            not_true_eq_false, if_false, if_true, Outcome.ret_bind]
          cases dropTableData s <;> rfl
        · simp [hdb, hcol, hstmt, hq]
      · simp [hdb, hcol]
    · simp [hdb]

/-! ### Runs -/

/-- What a program does with a schema: the parsers add columns, and the commands are called on
the tables that have the schema. -/
inductive SchemaOp where
  | addKey (data : TableData)
  | addVal (data : TableData)
  | alter (name : Bytes) (call : AlterCall)

/-- What is returned: by `schema_add`, or by a command, and by the `schema_add` in it. -/
inductive SchemaRes where
  | filled (ret : RetT)
  | altered (added : Option RetT) (ret : Int)

/-- Execute a call on the arrays of a schema. -/
def AlterCall.execArray (call : AlterCall) (name : Bytes) (s : TableSchemaArrays) :
    Outcome (Option RetT × Int × TableSchemaArrays) :=
  match call.op with
  | .add => do
      let (added, ret, s, _, _) ← mysqlAlterAddTableArray call.server name s call.rand []
      return (added, ret, s)
  | .drop => do
      let (ret, s, _) ← mysqlAlterDropTableArray call.server name s []
      return (none, ret, s)

/-- One operation of a run. -/
def schemaStep : SchemaOp → TableSchemaArrays → Outcome (SchemaRes × TableSchemaArrays)
  | .addKey data, s => do
      let (ret, keySchema) ← schemaAddArray s.keySchema data
      return (.filled ret, { s with keySchema })
  | .addVal data, s => do
      let (ret, valSchema) ← schemaAddArray s.valSchema data
      return (.filled ret, { s with valSchema })
  | .alter name call, s => do
      let (added, ret, s) ← call.execArray name s
      return (.altered added ret, s)

/-- `table_schema_init` with two new schemas. -/
def emptyArrays : TableSchemaArrays := ⟨schemaInitArray, schemaInitArray⟩

/-- The call reaches `add_table_data`. -/
def AlterCall.Adds (call : AlterCall) (s : TableSchema) : Prop :=
  call.op = .add ∧ call.selectDb = 0 ∧ isTableSchemaFull s = false

instance (call : AlterCall) (s : TableSchema) : Decidable (call.Adds s) :=
  inferInstanceAs (Decidable (_ ∧ _))

namespace TableSchema.Bounded

variable {s : TableSchema}

lemma init : (tableSchemaInit schemaInit schemaInit).Bounded :=
  ⟨Schema.Bounded.init, Schema.Bounded.init⟩

/-- A call on the arrays does what it does on the columns. -/
lemma execArray_eq (hs : s.Bounded) (call : AlterCall) (name : Bytes) :
    call.execArray name s.arrays = (do
      let reply ← call.exec name s
      return (if call.Adds s then some .succeed else none, reply.ret, reply.schema.arrays)) := by
  rw [AlterCall.execArray, AlterCall.exec]
  rcases hop : call.op with _ | _
  · have hadds : call.Adds s ↔ call.server.selectDb = 0 ∧ isTableSchemaFull s = false := by
      simp [AlterCall.Adds, hop, AlterCall.server]
    simp only [mysqlAlterAddTableArray_eq call.server hs, hadds]
    cases mysqlAlterAddTable call.server name s call.rand [] <;> rfl
  · have hadds : ¬ call.Adds s := by simp [AlterCall.Adds, hop]
    simp only [mysqlAlterDropTableArray_eq call.server hs, if_neg hadds]
    cases mysqlAlterDropTable call.server name s [] <;> rfl

/-- A call keeps a schema within its capacity, and one that reaches `add_table_data` appends a
column. -/
lemma exec (hs : s.Bounded) (call : AlterCall) (name : Bytes) :
    (call.exec name s).Meets False False fun reply => reply.schema.Bounded ∧
      (call.Adds s → s.arrays.valSchema.Appended reply.schema.arrays.valSchema) := by
  rcases hop : call.op with _ | _
  · rcases call.exec_add hop name s with ⟨hskip, ret, hret⟩ | ⟨-, hfull, data, hname, hret⟩
    · rw [hret]
      refine ⟨hs, fun hadds => ?_⟩
      obtain ⟨-, hdb, hfull⟩ := hadds
      simp [hdb, hfull] at hskip
    · have hroom : s.valSchema.nschema < s.valSchema.capacity := by
        simpa [isTableSchemaFull] using hfull
      rw [hret]
      exact ⟨⟨hs.key, hs.val.push hroom data⟩, fun _ => Schema.appended hname⟩
  · have hadds : ¬ call.Adds s := by simp [AlterCall.Adds, hop]
    rcases call.exec_drop hop name s with ⟨-, ret, sent, hret, -⟩ | ⟨-, -, data, -, hret⟩
    · rw [hret]
      exact ⟨hs, fun h => absurd h hadds⟩
    · rw [hret]
      exact ⟨⟨hs.key, hs.val.pop⟩, fun h => absurd h hadds⟩

/-- An operation takes the arrays of a bounded schema to those of another one. -/
lemma step (hs : s.Bounded) (op : SchemaOp) :
    (schemaStep op s.arrays).Meets False False fun q =>
      ∃ s' : TableSchema, s'.Bounded ∧ q.2 = s'.arrays := by
  cases op with
  | addKey data =>
      obtain ⟨ret, keySchema, hkey, hret⟩ := hs.key.schemaAddArray data
      rw [schemaStep, TableSchema.arrays, hret]
      exact ⟨{ s with keySchema }, ⟨hkey, hs.val⟩, rfl⟩
  | addVal data =>
      obtain ⟨ret, valSchema, hval, hret⟩ := hs.val.schemaAddArray data
      rw [schemaStep, TableSchema.arrays, hret]
      exact ⟨{ s with valSchema }, ⟨hs.key, hval⟩, rfl⟩
  | alter name call =>
      obtain ⟨reply, hret, hreply, -⟩ := (hs.exec call name).exists_ret
      rw [schemaStep, hs.execArray_eq, hret]
      exact ⟨reply.schema, hreply, rfl⟩

end TableSchema.Bounded

/-- Every run reaches the arrays of a bounded schema. -/
lemma runOps_schemaStep (ops : List SchemaOp) :
    ∃ results, ∃ s : TableSchema, s.Bounded ∧
      runOps schemaStep ops emptyArrays = .ret (results, s.arrays) := by
  have hrun : (runOps schemaStep ops emptyArrays).Meets False False fun q =>
      ∃ s : TableSchema, s.Bounded ∧ q.2 = s.arrays := by
    refine runOps_invariant (I := fun a => ∃ s : TableSchema, s.Bounded ∧ a = s.arrays)
      (C := fun _ => True) ?_ ops (fun _ _ => trivial) emptyArrays
      ⟨_, TableSchema.Bounded.init, rfl⟩
    rintro _ op ⟨s, hs, rfl⟩ -
    exact hs.step op
  obtain ⟨⟨results, _⟩, hret, s, hs, rfl⟩ := hrun.exists_ret
  exact ⟨results, s, hs, hret⟩

/-! ### Schemas of the parsers -/

/-- A schema that was filled by `schema_add`. -/
def Filled (s : TableSchemaArrays) : Prop :=
  ∃ keys vals : List TableData, ∃ results,
    runOps schemaStep (keys.map .addKey ++ vals.map .addVal) emptyArrays = .ret (results, s)

lemma filled_keys {keys : List TableData} (h : keys.length ≤ 100) :
    ∃ results, runOps schemaStep (keys.map .addKey) emptyArrays
      = .ret (results, (⟨⟨keys, 100⟩, schemaInit⟩ : TableSchema).arrays) := by
  induction keys using List.reverseRecOn with
  | nil => exact ⟨[], rfl⟩
  | append_singleton keys data ih =>
      rw [List.length_append, List.length_singleton] at h
      obtain ⟨results, hrun⟩ := ih (by omega)
      have hadd := schemaAddArray_room (s := ⟨keys, 100⟩) h data
      refine ⟨results ++ [.filled .succeed], ?_⟩
      rw [List.map_append]
      refine runOps_concat hrun ?_
      rw [schemaStep, TableSchema.arrays, hadd]
      rfl

lemma filled_vals {keys vals : List TableData} (hkeys : keys.length ≤ 100)
    (hvals : vals.length ≤ 100) :
    ∃ results, runOps schemaStep (keys.map .addKey ++ vals.map .addVal) emptyArrays
      = .ret (results, (⟨⟨keys, 100⟩, ⟨vals, 100⟩⟩ : TableSchema).arrays) := by
  induction vals using List.reverseRecOn with
  | nil =>
      rw [List.map_nil, List.append_nil]
      exact filled_keys hkeys
  | append_singleton vals data ih =>
      rw [List.length_append, List.length_singleton] at hvals
      obtain ⟨results, hrun⟩ := ih (by omega)
      have hadd := schemaAddArray_room (s := ⟨vals, 100⟩) hvals data
      refine ⟨results ++ [.filled .succeed], ?_⟩
      rw [List.map_append, ← List.append_assoc]
      refine runOps_concat hrun ?_
      rw [schemaStep, TableSchema.arrays, hadd]
      rfl

/-- A bounded schema can be filled by `schema_add`. -/
lemma TableSchema.Bounded.filled {s : TableSchema} (hs : s.Bounded) : Filled s.arrays := by
  obtain ⟨⟨keys, keyCapacity⟩, ⟨vals, valCapacity⟩⟩ := s
  obtain ⟨⟨rfl, hkeys⟩, ⟨rfl, hvals⟩⟩ := hs
  exact ⟨keys, vals, filled_vals hkeys hvals⟩

/-- What the XML parser reads. -/
lemma parserReadTableSchema_bounded {node : XmlNode} {schema : TableSchema}
    (h : parserReadTableSchema node = .ret (some schema)) : schema.Bounded := by
  obtain ⟨keys, vals, -, -, hkey, hval⟩ := readColumns_reads h
  exact ⟨⟨hkey.capacity_eq, hkey.le_capacity (Nat.zero_le _)⟩,
    ⟨hval.capacity_eq, hval.le_capacity (Nat.zero_le _)⟩⟩

lemma parserReadTxtTableData_bounded {text : Bytes} {so : ℕ} {schema schema' : Schema} {ret : RetT}
    (hs : schema.Bounded) (h : parserReadTxtTableData schema text so = .ret (ret, schema')) :
    schema'.Bounded := by
  rw [parserReadTxtTableData] at h
  split at h
  · exact hs.of_schemaAdd h
  · split at h
    · simp at h
    · obtain ⟨-, rfl⟩ := Prod.mk.inj (Outcome.ret.inj h)
      exact hs

/-- What the TXT parser reads. -/
lemma parserReadTxtTableSchema_bounded {text : Bytes} {so : ℕ} {schema : TableSchema}
    (h : parserReadTxtTableSchema text so = .ret schema) : schema.Bounded := by
  obtain ⟨keySchema, hkey, h⟩ := Outcome.bind_eq_ret.1 h
  obtain ⟨valSchema, hval, h⟩ := Outcome.bind_eq_ret.1 h
  obtain rfl := Outcome.ret.inj h
  have hstep : ∀ s so ret s', s.Bounded → parserReadTxtTableData s text so = .ret (ret, s') →
      s'.Bounded := fun s so ret s' hs h => parserReadTxtTableData_bounded hs h
  exact ⟨readTxtColumns_invariant hstep Schema.Bounded.init hkey,
    readTxtColumns_invariant hstep Schema.Bounded.init hval⟩

/-- **Schemas are bounded stacks.**  The schemas that the parsers read are filled by
`schema_add`.  A run of additions and commands, whatever the server answers and whatever the
random numbers are, meets no index out of bounds and no name too long for its buffer, and it
leaves the counters within the arrays.  A further command calls `add_table_data` when the
database can be selected and there is room, and then the column is there. -/
theorem schemas_bounded :
    (∀ node schema, parserReadTableSchema node = .ret (some schema) → Filled schema.arrays) ∧
    (∀ text so schema, parserReadTxtTableSchema text so = .ret schema → Filled schema.arrays) ∧
    ∀ ops : List SchemaOp, ∃ results s, runOps schemaStep ops emptyArrays = .ret (results, s) ∧
      s.keySchema.InBounds ∧ s.valSchema.InBounds ∧
      ∀ (call : AlterCall) (name : Bytes), ∃ added ret s',
        call.execArray name s = .ret (added, ret, s') ∧
        (added.isSome ↔ call.op = .add ∧ call.selectDb = 0 ∧
          s.valSchema.nschema < s.valSchema.capacity) ∧
        ∀ r, added = some r → r = .succeed ∧ s.valSchema.Appended s'.valSchema := by
  refine ⟨fun node schema h => (parserReadTableSchema_bounded h).filled,
    fun text so schema h => (parserReadTxtTableSchema_bounded h).filled, fun ops => ?_⟩
  obtain ⟨results, s, hs, hrun⟩ := runOps_schemaStep ops
  refine ⟨results, s.arrays, hrun, hs.key.inBounds, hs.val.inBounds, fun call name => ?_⟩
  obtain ⟨reply, hret, -, happended⟩ := (hs.exec call name).exists_ret
  refine ⟨_, reply.ret, reply.schema.arrays, by rw [hs.execArray_eq, hret]; rfl, ?_, ?_⟩
  · have hadds : call.Adds s ↔ call.op = .add ∧ call.selectDb = 0 ∧
        s.arrays.valSchema.nschema < s.arrays.valSchema.capacity := by
      simp [AlterCall.Adds, isTableSchemaFull, TableSchema.arrays, Schema.array]
    rw [← hadds]
    by_cases h : call.Adds s <;> simp [h]
  · intro r hr
    by_cases h : call.Adds s
    · rw [if_pos h, Option.some.injEq] at hr
      exact ⟨hr.symm, happended h⟩
    · simp [h] at hr

end CheckQ
