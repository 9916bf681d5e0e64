import CheckQ.Lib.Refinement
import CheckQ.Mysql.Alter
import Mathlib.Data.List.DropRight
import Mathlib.Data.List.Nodup

/-!
# Sequences of ALTER commands on one table

`alter_thread` calls `mysql_alter_add_table` and `mysql_alter_drop_table` on a table again and
again.  A call is what it does together with what it meets: the values that `mysql_select_db`
and `mysql_real_query` return and the random numbers it draws.  The server of a call keeps the
statements that are sent to it.

* `alter_atomic_iff`: when a call that fails leaves the schema as it was;
* `configured_columns_kept_iff`: when no sequence of calls drops a column that was configured;
* `names_distinct_iff`: when no sequence of calls makes two columns of one name.
-/

namespace CheckQ

/-- The two commands. -/
inductive AlterOp where
  | add
  | drop
deriving DecidableEq, Repr

/-- A call of a command and what it meets. -/
structure AlterCall where
  op : AlterOp
  -- what `mysql_select_db` and `mysql_real_query` return
  selectDb : Int
  realQuery : Int
  rand : RandStream

namespace AlterCall

/-- The server of a call; its state are the statements it has been sent. -/
def server (call : AlterCall) : DdlServer (List SqlStmt) where
  selectDb := call.selectDb
  realQuery stmt sent := (call.realQuery, sent ++ [stmt])

/-- All statements of the call succeed. -/
def Succeeds (call : AlterCall) : Prop := call.selectDb = 0 ∧ call.realQuery = 0

instance (call : AlterCall) : Decidable call.Succeeds := inferInstanceAs (Decidable (_ ∧ _))

end AlterCall

/-- What a call returns, the schema behind it and the statements it has sent. -/
structure AlterReply where
  ret : Int
  schema : TableSchema
  sent : List SqlStmt
deriving DecidableEq

/-- Execute a call on the table `name` with the schema `s`. -/
def AlterCall.exec (call : AlterCall) (name : Bytes) (s : TableSchema) : Outcome AlterReply :=
  match call.op with
  | .add => do
      let (ret, s, _, sent) ← mysqlAlterAddTable call.server name s call.rand []
      return ⟨ret, s, sent⟩
  | .drop => do
      let (ret, s, sent) ← mysqlAlterDropTable call.server name s []
      return ⟨ret, s, sent⟩

/-! ### What a call does -/

/-- `mysql_alter_add_table` appends a column and declares it, unless the database cannot be
selected or the schema is full. -/
lemma AlterCall.exec_add {call : AlterCall} (hop : call.op = .add) (name : Bytes)
    (s : TableSchema) :
    ((call.selectDb ≠ 0 ∨ isTableSchemaFull s = true) ∧
        ∃ ret, call.exec name s = .ret ⟨ret, s, []⟩) ∨
      (call.selectDb = 0 ∧ isTableSchemaFull s = false ∧
        ∃ data, data.name = colName s.valSchema.nschema ∧
          call.exec name s
            = .ret ⟨call.realQuery, s.push data, [.alterAdd name data.columnDef]⟩) := by
  rw [exec, hop]
  by_cases hdb : call.selectDb = 0
  · by_cases hfull : isTableSchemaFull s = true
    · refine Or.inl ⟨Or.inr hfull, 0, ?_⟩
      simp [mysqlAlterAddTable, server, hdb, hfull]
    · rw [Bool.not_eq_true] at hfull
      obtain ⟨data, r, hname, hadd⟩ := addTableData_eq hfull call.rand
      refine Or.inr ⟨hdb, hfull, data, hname, ?_⟩
      simp [mysqlAlterAddTable, server, hdb, hfull, hadd, alterAddStmt, TableSchema.push]
  · refine Or.inl ⟨Or.inl hdb, call.selectDb, ?_⟩
    simp [mysqlAlterAddTable, server, hdb]

/-- `mysql_alter_drop_table` drops the last value column when its name begins with `col` and
the statements succeed; otherwise the schema is left alone, and a statement has been sent only
if it failed. -/
lemma AlterCall.exec_drop {call : AlterCall} (hop : call.op = .drop) (name : Bytes)
    (s : TableSchema) :
    (¬(call.Succeeds ∧ dropsColumn s = true) ∧
        ∃ ret sent, call.exec name s = .ret ⟨ret, s, sent⟩ ∧ (ret = 0 → sent = [])) ∨
      (call.Succeeds ∧ dropsColumn s = true ∧
        ∃ data, s.valSchema.schemas.getLast? = some data ∧
          call.exec name s = .ret ⟨0, s.pop, [.alterDrop name (some data.name)]⟩) := by
  rw [exec, hop, dropsColumn, Succeeds]
  rcases hlast : s.valSchema.schemas.getLast? with _ | data
  · refine Or.inl ⟨by simp, 0, [], ?_, fun _ => rfl⟩
    simp [mysqlAlterDropTable, hlast]
  by_cases hdb : call.selectDb = 0
  · by_cases hcol : strncmp data.name (ascii "col") 3 = 0
    · have hpos : s.valSchema.nschema ≠ 0 := (Schema.nschema_pos hlast).ne'
      by_cases hq : call.realQuery = 0
      · refine Or.inr ⟨⟨hdb, hq⟩, by simp [hcol], data, rfl, ?_⟩
        simp [mysqlAlterDropTable, hlast, server, hdb, hcol, hq, alterDropStmt, dropTableData, hpos,
          TableSchema.pop]
      · refine Or.inl ⟨fun h => hq h.1.2, call.realQuery, [alterDropStmt name s], ?_,
          fun h => absurd h hq⟩
        simp [mysqlAlterDropTable, hlast, server, hdb, hcol, hq]
    · refine Or.inl ⟨by simp [hcol], 0, [], ?_, fun _ => rfl⟩
      simp [mysqlAlterDropTable, hlast, server, hdb, hcol]
  · refine Or.inl ⟨fun h => hdb h.1.1, call.selectDb, [], ?_, fun _ => rfl⟩
    simp [mysqlAlterDropTable, hlast, server, hdb]

/-! ### One call -/

/-- The schema `s'` is `s` changed by exactly the column that the statement names. -/
def ChangedBy (name : Bytes) (s s' : TableSchema) : SqlStmt → Prop
  | .alterAdd table col => table = name ∧ ∃ data, data.columnDef = col ∧ s' = s.push data
  | .alterDrop table col => table = name ∧ ∃ data, some data.name = col ∧ s = s'.push data
  | .create _ _ _ => False

/-- A call that does not return 0 leaves the schema as it was, and one that has sent a statement
and returns 0 has changed it by the column of the statement. -/
def AlterCall.Atomic (call : AlterCall) (name : Bytes) (s : TableSchema) : Prop :=
  ∃ reply, call.exec name s = .ret reply ∧ (reply.ret ≠ 0 → reply.schema = s) ∧
    (reply.ret = 0 → ∀ stmt ∈ reply.sent, ChangedBy name s reply.schema stmt)

lemma TableSchema.pop_push {s : TableSchema} {data : TableData}
    (h : s.valSchema.schemas.getLast? = some data) : s.pop.push data = s := by
  rw [push, pop]
  simp only [List.dropLast_append_getLast? data h]

lemma TableSchema.push_ne (s : TableSchema) (data : TableData) : s.push data ≠ s := by
  intro h
  have hlen := congrArg (fun s : TableSchema => s.valSchema.schemas.length) h
  simp [push] at hlen

lemma AlterCall.atomic_drop {call : AlterCall} (hop : call.op = .drop) (name : Bytes)
    (s : TableSchema) : call.Atomic name s := by
  rcases call.exec_drop hop name s with ⟨-, ret, sent, hret, hsent⟩ | ⟨-, -, data, hlast, hret⟩
  · refine ⟨_, hret, fun _ => rfl, fun h => ?_⟩
    rw [hsent h]
    simp
  · refine ⟨_, hret, fun h => absurd rfl h, fun _ stmt hstmt => ?_⟩
    rw [List.mem_singleton.1 hstmt]
    exact ⟨rfl, data, rfl, (TableSchema.pop_push hlast).symm⟩

/-- **When a failed ALTER leaves the schema alone.**  Always for `mysql_alter_drop_table`; for
`mysql_alter_add_table`, which edits the schema before it sends the statement, unless the
statement is sent and fails. -/
theorem alter_atomic_iff (call : AlterCall) (name : Bytes) (s : TableSchema) :
    call.Atomic name s ↔ call.op = .drop ∨ call.selectDb ≠ 0 ∨ isTableSchemaFull s = true ∨
      call.realQuery = 0 := by
  rcases hop : call.op with _ | _
  · rcases call.exec_add hop name s with ⟨hskip, ret, hret⟩ | ⟨hdb, hfull, data, -, hret⟩
    · refine iff_of_true ⟨_, hret, fun _ => rfl, by simp⟩ ?_
      rcases hskip with hdb | hfull
      · exact Or.inr (Or.inl hdb)
      · exact Or.inr (Or.inr (Or.inl hfull))
    · simp only [reduceCtorEq, hdb, hfull, ne_eq, not_true_eq_false, Bool.false_eq_true, false_or]
      constructor
      · rintro ⟨reply, hreply, hfail, -⟩
        obtain rfl : _ = reply := Outcome.ret.inj (hret.symm.trans hreply)
        by_contra hq
        exact s.push_ne data (hfail hq)
      · intro hq
        refine ⟨_, hret, fun h => absurd hq h, fun _ stmt hstmt => ?_⟩
        rw [List.mem_singleton.1 hstmt]
        exact ⟨rfl, data, rfl, rfl⟩
  · simp only [true_or, iff_true]
    exact call.atomic_drop hop name s

/-- A call of `mysql_alter_add_table` whose statement fails on the server. -/
def failedAdd : AlterCall := ⟨.add, 0, 1, fun _ => 0⟩

/-- A table with one key column and no value column. -/
def keyOnlySchema : TableSchema := ⟨⟨[⟨ascii "id", .bigint, 0⟩], 100⟩, ⟨[], 100⟩⟩

/-- The failed statement leaves a column in the schema. -/
theorem failedAdd_not_atomic : ¬failedAdd.Atomic (ascii "t") keyOnlySchema := by
  rintro ⟨reply, hreply, hfail, -⟩
  have hret : failedAdd.exec (ascii "t") keyOnlySchema
      = .ret ⟨1, keyOnlySchema.push ⟨colName 0, .bigint, 0⟩,
          [.alterAdd (ascii "t") ⟨colName 0, .bigint⟩]⟩ := by decide
  obtain rfl : _ = reply := Outcome.ret.inj (hret.symm.trans hreply)
  exact keyOnlySchema.push_ne _ (hfail (by decide))

/-! ### Runs -/

/-- The schema of a table, and the columns of it that calls have added and that are still
there, in order. -/
structure AlterState where
  schema : TableSchema
  added : List TableData

/-- One call of a run. -/
def alterStep (name : Bytes) (call : AlterCall) (st : AlterState) : Outcome (Int × AlterState) := do
  let reply ← call.exec name st.schema
  let added := match call.op with
    | .add => st.added ++ reply.schema.valSchema.schemas.drop st.schema.valSchema.nschema
    | .drop =>
        if reply.schema.valSchema.nschema < st.schema.valSchema.nschema then st.added.dropLast
        else st.added
  return (reply.ret, ⟨reply.schema, added⟩)

/-- A call of a run, by what it does to the schema: nothing, or one column more or less. -/
lemma alterStep_cases (name : Bytes) (call : AlterCall) (st : AlterState) :
    ((call.op = .add → call.selectDb ≠ 0 ∨ isTableSchemaFull st.schema = true) ∧
        (call.op = .drop → ¬(call.Succeeds ∧ dropsColumn st.schema = true)) ∧
        ∃ ret, alterStep name call st = .ret (ret, st)) ∨
      (call.op = .add ∧ isTableSchemaFull st.schema = false ∧
        ∃ ret data, data.name = colName st.schema.valSchema.nschema ∧
          alterStep name call st = .ret (ret, ⟨st.schema.push data, st.added ++ [data]⟩)) ∨
      (call.op = .drop ∧ dropsColumn st.schema = true ∧
        ∃ ret, alterStep name call st = .ret (ret, ⟨st.schema.pop, st.added.dropLast⟩)) := by
  rcases hop : call.op with _ | _
  · rcases call.exec_add hop name st.schema with ⟨hskip, ret, hret⟩ | ⟨-, hfull, data, hname, hret⟩
    · refine Or.inl ⟨fun _ => hskip, by simp, ret, ?_⟩
      simp [alterStep, hret, hop, Schema.nschema]
    · refine Or.inr (Or.inl ⟨rfl, hfull, call.realQuery, data, hname, ?_⟩)
      simp [alterStep, hret, hop, Schema.nschema, TableSchema.push]
  · rcases call.exec_drop hop name st.schema with
      ⟨hskip, ret, _, hret, -⟩ | ⟨-, hcol, data, hlast, hret⟩
    · refine Or.inl ⟨by simp, fun _ => hskip, ret, ?_⟩
      simp [alterStep, hret, hop]
    · have hpos : 0 < st.schema.valSchema.schemas.length := Schema.nschema_pos hlast
      refine Or.inr (Or.inr ⟨rfl, hcol, 0, ?_⟩)
      simp [alterStep, hret, hop, Schema.nschema, TableSchema.pop, hpos]

/-! ### Configured columns -/

/-- After every sequence of calls the value columns of `s₀` are the first ones of the schema,
and a further `mysql_alter_drop_table` takes away nothing, or the last of the columns that
were added. -/
def ConfiguredColumnsKept (name : Bytes) (s₀ : TableSchema) : Prop :=
  ∀ calls : List AlterCall, ∃ rets st, runOps (alterStep name) calls ⟨s₀, []⟩ = .ret (rets, st) ∧
    s₀.valSchema.schemas <+: st.schema.valSchema.schemas ∧
    ∀ call : AlterCall, call.op = .drop → ∃ reply, call.exec name st.schema = .ret reply ∧
      (reply.schema = st.schema ∨
        ∃ data, st.added.getLast? = some data ∧ st.schema = reply.schema.push data)

/-- The value columns are those of `s₀` and the ones that were added. -/
def Kept (s₀ : TableSchema) (st : AlterState) : Prop :=
  st.schema.valSchema.schemas = s₀.valSchema.schemas ++ st.added

/-- When the last column of `s₀` may not be dropped, a column that may be dropped was added. -/
lemma Kept.added_ne_nil {s₀ : TableSchema} {st : AlterState} (hkept : Kept s₀ st)
    (h : dropsColumn s₀ = false) (hdrop : dropsColumn st.schema = true) : st.added ≠ [] := by
  intro hnil
  rw [Kept, hnil, List.append_nil] at hkept
  rw [dropsColumn, hkept] at hdrop
  rw [dropsColumn, hdrop] at h
  exact absurd h (by simp)

lemma Kept.step {s₀ : TableSchema} {st : AlterState} (hkept : Kept s₀ st)
    (h : dropsColumn s₀ = false) (name : Bytes) (call : AlterCall) :
    (alterStep name call st).Meets False False fun q => Kept s₀ q.2 := by
  rcases alterStep_cases name call st with
    ⟨-, -, ret, hret⟩ | ⟨-, -, ret, data, -, hret⟩ | ⟨-, hdrop, ret, hret⟩
  · rw [hret]
    exact hkept
  · rw [hret]
    show st.schema.valSchema.schemas ++ [data] = _
    rw [hkept, List.append_assoc]
  · rw [hret]
    show st.schema.valSchema.schemas.dropLast = _
    rw [hkept, List.dropLast_append_of_ne_nil (hkept.added_ne_nil h hdrop)]

/-- Calls whose statements succeed. -/
def addCall : AlterCall := ⟨.add, 0, 0, fun _ => 0⟩

@[inherit_doc addCall]
def dropCall : AlterCall := ⟨.drop, 0, 0, fun _ => 0⟩

/-- **When only added columns are dropped.**  The guard of `mysql_alter_drop_table` looks at the
name of the last column; it is enough that the last configured value column has another name,
and when it has not, the first call may drop it. -/
theorem configured_columns_kept_iff (name : Bytes) (s₀ : TableSchema) :
    ConfiguredColumnsKept name s₀ ↔ dropsColumn s₀ = false := by
  constructor
  · intro hall
    by_contra hdrop
    rw [Bool.not_eq_false] at hdrop
    obtain ⟨_, st, hrun, -, hcall⟩ := hall []
    obtain ⟨-, rfl⟩ : _ ∧ (⟨s₀, []⟩ : AlterState) = st := by simpa [runOps] using hrun
    obtain ⟨reply, hreply, hsame | ⟨data, hlast, -⟩⟩ := hcall dropCall rfl
    · rcases dropCall.exec_drop rfl name s₀ with ⟨hno, -⟩ | ⟨-, -, data, hlast, hret⟩
      · exact hno ⟨⟨rfl, rfl⟩, hdrop⟩
      · obtain rfl : _ = reply := Outcome.ret.inj (hret.symm.trans hreply)
        refine s₀.pop.push_ne data ?_
        rw [TableSchema.pop_push hlast]
        exact hsame.symm
    · simp at hlast
  · intro h calls
    have hrun : (runOps (alterStep name) calls ⟨s₀, []⟩).Meets False False fun q => Kept s₀ q.2 :=
      runOps_invariant (I := Kept s₀) (C := fun _ => True)
        (fun st call hkept _ => Kept.step hkept h name call) calls (fun _ _ => trivial) ⟨s₀, []⟩
        (List.append_nil _).symm
    obtain ⟨⟨rets, st⟩, hret, hkept⟩ := hrun.exists_ret
    refine ⟨rets, st, hret, ⟨st.added, hkept.symm⟩, fun call hop => ?_⟩
    rcases call.exec_drop hop name st.schema with
      ⟨-, ret, sent, hcall, -⟩ | ⟨-, hdrop, data, hlast, hcall⟩
    · exact ⟨_, hcall, Or.inl rfl⟩
    · refine ⟨_, hcall, Or.inr ⟨data, ?_, (TableSchema.pop_push hlast).symm⟩⟩
      rwa [hkept, List.getLast?_append_of_ne_nil _ (hkept.added_ne_nil h hdrop)] at hlast

/-- The first table of `table/t/test_table.c`. -/
def testSchema : TableSchema :=
  ⟨⟨[⟨ascii "col1", .bigint, 0⟩], 100⟩,
    ⟨[⟨ascii "col2", .varchar, 10⟩, ⟨ascii "col3", .varchar, 11⟩, ⟨ascii "col4", .varchar, 12⟩,
      ⟨ascii "col5", .varchar, 13⟩, ⟨ascii "col6", .varchar, 14⟩, ⟨ascii "col7", .varchar, 15⟩],
      100⟩⟩

/-- The configured column `col7` is dropped. -/
theorem configured_column_dropped : ¬ConfiguredColumnsKept (ascii "t") testSchema := by
  intro hall
  obtain ⟨_, st, hrun, hprefix, -⟩ := hall [dropCall]
  have hdropped : runOps (alterStep (ascii "t")) [dropCall] ⟨testSchema, []⟩
      = .ret ([0], ⟨testSchema.pop, []⟩) := rfl
  obtain rfl : _ = st := (Prod.mk.inj (Outcome.ret.inj (hdropped.symm.trans hrun))).2
  exact absurd hprefix.length_le (by decide)

/-! ### Names of columns -/

/-- The names of the columns, those of the key first. -/
def TableSchema.names (s : TableSchema) : List Bytes := s.columns.map TableData.name

/-- The number of value columns that drops of the last column leave. -/
def fixedColumns (s : TableSchema) : ℕ :=
  (s.valSchema.schemas.rdropWhile fun data => strncmp data.name (ascii "col") 3 == 0).length

/-- After every sequence of calls whose statements succeed, the names are distinct. -/
def NamesStayDistinct (name : Bytes) (s₀ : TableSchema) : Prop :=
  ∀ calls : List AlterCall, (∀ call ∈ calls, call.Succeeds) →
    ∃ rets st, runOps (alterStep name) calls ⟨s₀, []⟩ = .ret (rets, st) ∧ st.schema.names.Nodup

/-- None of the names that columns are given when drops have left `j` value columns is the name
of a column that is still there. -/
def NoClash (s : TableSchema) : Prop :=
  ∀ j ≤ s.valSchema.nschema, ∀ i < s.valSchema.capacity, fixedColumns s ≤ j → j ≤ i →
    colName i ∉ (s.keySchema.schemas ++ s.valSchema.schemas.take j).map TableData.name

/-- A schema that is reached from `s₀`: the first `j` of its value columns, and `k` columns that
were added behind them. -/
structure AlterReach (s₀ : TableSchema) (j k : ℕ) (s : TableSchema) : Prop where
  keys : s.keySchema = s₀.keySchema
  capacity : s.valSchema.capacity = s₀.valSchema.capacity
  vals : s.valSchema.schemas.map TableData.name
    = (s₀.valSchema.schemas.take j).map TableData.name ++ (List.range' j k).map colName
  fixed : fixedColumns s₀ ≤ j
  le : j ≤ s₀.valSchema.nschema
  bound : k = 0 ∨ j + k ≤ s₀.valSchema.capacity

lemma colName_injective : Function.Injective colName := by
  intro n m h
  have hdec : decimal n = decimal m := List.append_cancel_left h
  rw [← (decimal_spec n).2, hdec, (decimal_spec m).2]

lemma fixedColumns_le (s : TableSchema) : fixedColumns s ≤ s.valSchema.nschema :=
  (List.rdropWhile_prefix _ _).length_le

/-- An element behind those that `rdropWhile` leaves meets the predicate, and the last of those
does not. -/
lemma last_take_iff {α : Type*} {p : α → Bool} {l : List α} {j : ℕ} {x : α} (hle : j ≤ l.length)
    (hdrop : (l.rdropWhile p).length ≤ j) (hx : (l.take j).getLast? = some x) :
    p x = true ↔ (l.rdropWhile p).length < j := by
  induction l using List.reverseRecOn with
  | nil => simp at hx
  | append_singleton l y ih =>
      rw [List.length_append, List.length_singleton] at hle
      rcases Nat.lt_or_ge l.length j with hlt | hge
      · -- all of the list is taken
        obtain rfl : y = x := by
          rw [List.take_of_length_le (by simp; omega), List.getLast?_concat] at hx
          exact Option.some.inj hx
        by_cases hy : p y = true
        · rw [List.rdropWhile_concat_pos p l y hy]
          have hprefix := (List.rdropWhile_prefix p l).length_le
          exact iff_of_true hy (by omega)
        · rw [List.rdropWhile_concat_neg p l y hy, List.length_append, List.length_singleton]
          exact iff_of_false hy (by omega)
      · by_cases hy : p y = true
        · rw [List.rdropWhile_concat_pos p l y hy] at hdrop ⊢
          rw [List.take_append_of_le_length hge] at hx
          exact ih hge hdrop hx
        · rw [List.rdropWhile_concat_neg p l y hy, List.length_append, List.length_singleton] at hdrop
          omega

namespace AlterReach

variable {s₀ s : TableSchema} {j k : ℕ}

lemma initial (s₀ : TableSchema) : AlterReach s₀ s₀.valSchema.nschema 0 s₀ where
  keys := rfl
  capacity := rfl
  vals := by simp [Schema.nschema]
  fixed := fixedColumns_le s₀
  le := le_rfl
  bound := Or.inl rfl

lemma nschema_eq (h : AlterReach s₀ j k s) : s.valSchema.nschema = j + k := by
  have hlen := congrArg List.length h.vals
  have hle := h.le
  simp only [List.length_map, List.length_append, List.length_take, List.length_range'] at hlen
  simp only [Schema.nschema] at hle ⊢
  omega

/-- A column is added. -/
lemma add (h : AlterReach s₀ j k s) (hfull : isTableSchemaFull s = false) {data : TableData}
    (hname : data.name = colName s.valSchema.nschema) : AlterReach s₀ j (k + 1) (s.push data) where
  keys := h.keys
  capacity := h.capacity
  vals := by
    show (s.valSchema.schemas ++ [data]).map TableData.name = _
    rw [List.map_append, h.vals, List.range'_concat, List.map_append, List.append_assoc]
    simp [hname, h.nschema_eq]
  fixed := h.fixed
  le := h.le
  bound := by
    have hlt : s.valSchema.nschema < s.valSchema.capacity := by
      simpa [isTableSchemaFull] using hfull
    rw [h.nschema_eq, h.capacity] at hlt
    exact Or.inr hlt

/-- A column that was added is dropped. -/
lemma dropAdded (h : AlterReach s₀ j (k + 1) s) : AlterReach s₀ j k s.pop where
  keys := h.keys
  capacity := h.capacity
  vals := by
    show s.valSchema.schemas.dropLast.map TableData.name = _
    rw [List.map_dropLast, h.vals, List.range'_concat, List.map_append, ← List.append_assoc]
    exact List.dropLast_concat
  fixed := h.fixed
  le := h.le
  bound := by
    rcases h.bound with hzero | hle
    · omega
    · exact Or.inr (by omega)

/-- Without added columns, a column may be dropped as long as one is left behind the fixed
ones. -/
lemma dropsColumn_iff (h : AlterReach s₀ j 0 s) : dropsColumn s = true ↔ fixedColumns s₀ < j := by
  have hlast := congrArg List.getLast? h.vals
  rw [List.range'_zero, List.map_nil, List.append_nil, List.getLast?_map, List.getLast?_map] at hlast
  rw [dropsColumn]
  rcases htake : (s₀.valSchema.schemas.take j).getLast? with _ | data
  · rw [htake, Option.map_none, Option.map_eq_none_iff] at hlast
    simp only [hlast]
    have hzero : j = 0 := by
      have hnil := List.getLast?_eq_none_iff.1 htake
      have hle := h.le
      have hlen := congrArg List.length hnil
      simp only [List.length_take, List.length_nil, Schema.nschema] at hlen hle
      omega
    simp [hzero]
  · rw [htake, Option.map_some, Option.map_eq_some_iff] at hlast
    obtain ⟨data', hdata', hname⟩ := hlast
    simp only [hdata', hname]
    exact last_take_iff h.le h.fixed htake

/-- A configured column is dropped. -/
lemma dropConfigured (h : AlterReach s₀ j 0 s) (hlt : fixedColumns s₀ < j) :
    AlterReach s₀ (j - 1) 0 s.pop where
  keys := h.keys
  capacity := h.capacity
  vals := by
    have hle : j ≤ s₀.valSchema.schemas.length := h.le
    have hvals := h.vals
    show s.valSchema.schemas.dropLast.map TableData.name = _
    rw [List.range'_zero, List.map_nil, List.append_nil] at hvals ⊢
    rw [List.map_dropLast, hvals, ← List.map_dropLast, List.dropLast_eq_take, List.take_take,
      List.length_take, Nat.min_eq_left hle, Nat.min_eq_left (Nat.sub_le j 1)]
  fixed := by omega
  le := h.le.trans' (Nat.sub_le j 1)
  bound := Or.inl rfl

/-- What a call makes of a schema that is reached is reached. -/
lemma step (name : Bytes) (call : AlterCall) {st : AlterState} (h : ∃ j k, AlterReach s₀ j k st.schema) :
    (alterStep name call st).Meets False False fun q => ∃ j k, AlterReach s₀ j k q.2.schema := by
  obtain ⟨j, k, h⟩ := h
  rcases alterStep_cases name call st with
    ⟨-, -, ret, hret⟩ | ⟨-, hfull, ret, data, hname, hret⟩ | ⟨-, hdrop, ret, hret⟩
  · rw [hret]
    exact ⟨j, k, h⟩
  · rw [hret]
    exact ⟨j, k + 1, h.add hfull hname⟩
  · rw [hret]
    cases k with
    | zero => exact ⟨j - 1, 0, h.dropConfigured (h.dropsColumn_iff.1 hdrop)⟩
    | succ k => exact ⟨j, k, h.dropAdded⟩

lemma names_eq (h : AlterReach s₀ j k s) :
    s.names = (s₀.keySchema.schemas ++ s₀.valSchema.schemas.take j).map TableData.name
      ++ (List.range' j k).map colName := by
  rw [TableSchema.names, TableSchema.columns, List.map_append, h.keys, h.vals, List.map_append,
    List.append_assoc]

/-- Without a clash the names of a schema that is reached are distinct. -/
lemma nodup_names (h : AlterReach s₀ j k s) (hnodup : s₀.names.Nodup) (hclash : NoClash s₀) :
    s.names.Nodup := by
  have hsub : (s₀.keySchema.schemas ++ s₀.valSchema.schemas.take j).Sublist s₀.columns :=
    (List.Sublist.refl _).append (List.take_sublist j _)
  rw [h.names_eq, List.nodup_append']
  refine ⟨hnodup.sublist (hsub.map _), (List.nodup_range' 1).map colName_injective, ?_⟩
  intro x hx hadded
  obtain ⟨i, hi, rfl⟩ := List.mem_map.1 hadded
  rw [List.mem_range'_1] at hi
  refine hclash j h.le i ?_ h.fixed hi.1 hx
  rcases h.bound with hzero | hle <;> omega

end AlterReach

/-- A run of calls whose statements succeed leads from `s₀` to a state with this schema. -/
def Reached (name : Bytes) (s₀ s : TableSchema) : Prop :=
  ∃ calls : List AlterCall, (∀ call ∈ calls, call.Succeeds) ∧
    ∃ rets added, runOps (alterStep name) calls ⟨s₀, []⟩ = .ret (rets, ⟨s, added⟩)

lemma Reached.concat {name : Bytes} {s₀ s : TableSchema} (h : Reached name s₀ s) {call : AlterCall}
    (hok : call.Succeeds) {P : TableSchema → Prop}
    (hstep : ∀ added, ∃ q, alterStep name call ⟨s, added⟩ = .ret q ∧ P q.2.schema) :
    ∃ s', P s' ∧ Reached name s₀ s' := by
  obtain ⟨calls, hcalls, rets, added, hrun⟩ := h
  obtain ⟨⟨ret, st⟩, hret, hst⟩ := hstep added
  refine ⟨st.schema, hst, calls ++ [call], ?_, rets ++ [ret], st.added, runOps_concat hrun hret⟩
  intro c hc
  rcases List.mem_append.1 hc with hc | hc
  · exact hcalls c hc
  · rwa [List.mem_singleton.1 hc]

/-- Drops lead down to every number of columns from the fixed ones on. -/
lemma exists_reached_drop (name : Bytes) (s₀ : TableSchema) {j : ℕ} (hfixed : fixedColumns s₀ ≤ j)
    (hle : j ≤ s₀.valSchema.nschema) : ∃ s, AlterReach s₀ j 0 s ∧ Reached name s₀ s := by
  induction hle using Nat.decreasingInduction with
  | self => exact ⟨s₀, AlterReach.initial s₀, [], by simp, [], [], rfl⟩
  | of_succ j hlt ih =>
      obtain ⟨s, hreach, hrun⟩ := ih (by omega)
      have hdrop : dropsColumn s = true := hreach.dropsColumn_iff.2 (by omega)
      refine hrun.concat (show dropCall.Succeeds from ⟨rfl, rfl⟩) fun added => ?_
      rcases alterStep_cases name dropCall ⟨s, added⟩ with ⟨-, hno, -⟩ | ⟨hop, -⟩ | ⟨-, -, ret, hret⟩
      · exact absurd ⟨⟨rfl, rfl⟩, hdrop⟩ (hno rfl)
      · exact absurd hop (by decide)
      · exact ⟨_, hret, hreach.dropConfigured (by omega)⟩

/-- Adds lead up to the capacity. -/
lemma exists_reached_add {name : Bytes} {s₀ s : TableSchema} {j : ℕ} (hreach : AlterReach s₀ j 0 s)
    (hrun : Reached name s₀ s) {k : ℕ} (hk : j + k ≤ s₀.valSchema.capacity) :
    ∃ s', AlterReach s₀ j k s' ∧ Reached name s₀ s' := by
  induction k with
  | zero => exact ⟨s, hreach, hrun⟩
  | succ k ih =>
      obtain ⟨s', hreach', hrun'⟩ := ih (by omega)
      have hroom : isTableSchemaFull s' = false := by
        simp only [isTableSchemaFull, hreach'.nschema_eq, hreach'.capacity, decide_eq_false_iff_not]
        omega
      refine hrun'.concat (show addCall.Succeeds from ⟨rfl, rfl⟩) fun added => ?_
      rcases alterStep_cases name addCall ⟨s', added⟩ with
        ⟨hno, -⟩ | ⟨-, -, ret, data, hname, hret⟩ | ⟨hop, -⟩
      · rcases hno rfl with hdb | hfull
        · exact absurd rfl hdb
        · exact absurd (hfull.symm.trans hroom) (by decide)
      · exact ⟨_, hret, hreach'.add hroom hname⟩
      · exact absurd hop (by decide)

/-- **When the names of columns stay distinct.**  A new column is named by the number of value
columns, whatever the others are called, so a configured name of this form is met again when
that number comes up. -/
theorem names_distinct_iff (name : Bytes) (s₀ : TableSchema) (hnodup : s₀.names.Nodup) :
    NamesStayDistinct name s₀ ↔ NoClash s₀ := by
  constructor
  · intro hall j hle i hi hfixed hji hmem
    -- drop down to `j` value columns, then add until `col i` is there
    obtain ⟨s, hreach, hrun⟩ := exists_reached_drop name s₀ hfixed hle
    obtain ⟨s', hreach', calls, hcalls, rets, added, hret⟩ :=
      exists_reached_add hreach hrun (show j + (i - j + 1) ≤ s₀.valSchema.capacity by omega)
    obtain ⟨_, st, hret', hst⟩ := hall calls hcalls
    obtain rfl : _ = st := (Prod.mk.inj (Outcome.ret.inj (hret.symm.trans hret'))).2
    rw [hreach'.names_eq, List.nodup_append'] at hst
    refine hst.2.2 hmem (List.mem_map.2 ⟨i, ?_, rfl⟩)
    rw [List.mem_range'_1]
    omega
  · intro hclash calls _
    have hrun : (runOps (alterStep name) calls ⟨s₀, []⟩).Meets False False fun q =>
        ∃ j k, AlterReach s₀ j k q.2.schema :=
      runOps_invariant (I := fun st : AlterState => ∃ j k, AlterReach s₀ j k st.schema)
        (C := fun _ => True) (fun st call h _ => AlterReach.step name call h) calls
        (fun _ _ => trivial) ⟨s₀, []⟩ ⟨_, _, AlterReach.initial s₀⟩
    obtain ⟨⟨rets, st⟩, hret, j, k, hreach⟩ := hrun.exists_ret
    exact ⟨rets, st, hret, hreach.nodup_names hnodup hclash⟩

/-- Columns that are not called `col…` never clash. -/
theorem names_distinct_keyOnly :
    keyOnlySchema.names.Nodup ∧ NamesStayDistinct (ascii "t") keyOnlySchema := by
  have hnodup : keyOnlySchema.names.Nodup := by decide
  refine ⟨hnodup, (names_distinct_iff (ascii "t") keyOnlySchema hnodup).2 ?_⟩
  intro j _ i _ _ _ hmem
  obtain ⟨data, hdata, hname⟩ := List.mem_map.1 hmem
  obtain rfl : data = ⟨ascii "id", .bigint, 0⟩ := by
    simpa [keyOnlySchema] using hdata
  have hhead := congrArg List.head? hname
  simp [colName, ascii] at hhead

/-- The first column that is added is a second `col6`. -/
theorem names_clash : testSchema.names.Nodup ∧ ¬NamesStayDistinct (ascii "t") testSchema := by
  refine ⟨by decide, fun hall => ?_⟩
  obtain ⟨_, st, hrun, hst⟩ := hall [addCall] (by decide)
  have hadded : runOps (alterStep (ascii "t")) [addCall] ⟨testSchema, []⟩
      = .ret ([0], ⟨testSchema.push ⟨colName 6, .bigint, 0⟩, [⟨colName 6, .bigint, 0⟩]⟩) := rfl
  obtain rfl : _ = st := (Prod.mk.inj (Outcome.ret.inj (hadded.symm.trans hrun))).2
  exact absurd hst (by decide)

end CheckQ
