import CheckQ.Lib.RowSet
import CheckQ.Mysql.Alter
import CheckQ.Mysql.Select
import CheckQ.Mysql.SqlParse

/-!
# MySQL servers

The servers are not part of the program.  `SqlServer` is what its threads ask of one, and `Lawful`
is what they rely on, for tables with one key column: a statement in one of the four forms that is
executed does what it says to the row of its key and leaves the other rows alone, and a statement
that changes tables leaves the rows there, which may lose fields.  Nothing is said of which
statements are executed, but that an UPDATE without assignments is not.

A generated statement is for one key: the literal that `keyLiteral` gives for the traversal, as the
server reads it.
-/

namespace CheckQ

/-! ### Statements for one key -/

namespace DataStmt

/-- The statement is for the key `v` of the column `pk`, and it does not change the key.  The key
column is the first one of its table. -/
def For (pk v : Bytes) : DataStmt → Prop
  | insert lits => lits.head? = some v
  | delete cond => cond = (pk, v)
  | update sets cond => cond = (pk, v) ∧ pk ∉ sets.map Prod.fst
  | select _ cond => cond = (pk, v)

/-- What a statement does to the row that it is for, and the row that it gives. -/
def Effect (before after : Option (Bytes → Option Bytes)) (row : Option Row) : DataStmt → Prop
  | insert _ => before = none ∧ after.isSome = true ∧ row = none
  | delete _ => after = none ∧ row = none
  | update sets _ => after = before.map (RowSet.setFields sets) ∧ row = none
  | select cols _ => after = before ∧ row = before.map fun f => cols.map f

end DataStmt

/-- The text of an UPDATE without assignments. -/
def noAssignments (name : Bytes) (cond : Bytes × Bytes) : Bytes :=
  ascii "update " ++ name ++ ascii " set where " ++ equation cond

/-- The key of a table is created with it and never dropped. -/
def SqlStmt.KeepsKey (key : Bytes → TableData) : SqlStmt → Prop
  | .create name keys _ => keys.map ColumnDef.name = [(key name).name]
  | .alterAdd _ _ => True
  | .alterDrop name c => c ≠ some (key name).name

instance (key : Bytes → TableData) : DecidablePred (SqlStmt.KeepsKey key)
  | .create name keys _ => inferInstanceAs (Decidable (keys.map ColumnDef.name = [(key name).name]))
  | .alterAdd _ _ => isTrue trivial
  | .alterDrop name c => inferInstanceAs (Decidable (c ≠ some (key name).name))

/-! ### Servers -/

/-- A server with databases in `Db`, as the threads see it; values that it compares as equal have
one image in `K`. -/
structure SqlServer (Db K : Type) where
  -- what a byte behind a backslash denotes
  unescape : UInt8 → UInt8
  canon : Bytes → K
  -- `mysql_real_query` for a statement of a traversal, with the first row of the result
  query : Db → Bytes → Option (Db × Option Row)
  -- `mysql_real_query` for a statement that changes tables
  ddl : Db → SqlStmt → Option Db
  -- the key columns of the tables are there, each the first one of its table
  keyed : Db → Prop
  -- the row of a table with a key
  rowAt : Db → Bytes → K → Option (Bytes → Option Bytes)

/-- What the threads rely on, for tables with the key columns `key`. -/
structure SqlServer.Lawful {Db K : Type} (S : SqlServer Db K) (key : Bytes → TableData) :
    Prop where
  no_assignments : ∀ (db : Db) (name : Bytes) (cond : Bytes × Bytes), NameText name →
    EquationText cond → S.query db (noAssignments name cond) = none
  keyed_query : ∀ (db db' : Db) (name : Bytes) (stmt : DataStmt) (row : Option Row),
    S.keyed db → NameText name → stmt.Readable →
    S.query db (stmt.text name) = some (db', row) → S.keyed db'
  effect : ∀ (db db' : Db) (name v : Bytes) (stmt : DataStmt) (row : Option Row),
    S.keyed db → NameText name → stmt.Readable →
    (stmt.mapLiterals (denoted S.unescape)).For (key name).name v →
    S.query db (stmt.text name) = some (db', row) →
    (stmt.mapLiterals (denoted S.unescape)).Effect (S.rowAt db name (S.canon v))
      (S.rowAt db' name (S.canon v)) row
  frame : ∀ (db db' : Db) (name v : Bytes) (stmt : DataStmt) (row : Option Row),
    S.keyed db → NameText name → stmt.Readable →
    (stmt.mapLiterals (denoted S.unescape)).For (key name).name v →
    S.query db (stmt.text name) = some (db', row) →
    ∀ (table : Bytes) (k : K), (name = table → S.canon v ≠ k) →
      S.rowAt db' table k = S.rowAt db table k
  keyed_ddl : ∀ (db db' : Db) (stmt : SqlStmt), S.keyed db → stmt.KeepsKey key →
    S.ddl db stmt = some db' → S.keyed db'
  ddl_rows : ∀ (db db' : Db) (stmt : SqlStmt), S.keyed db → stmt.KeepsKey key →
    S.ddl db stmt = some db' →
    ∀ (table : Bytes) (k : K), Option.Rel Fades (S.rowAt db table k) (S.rowAt db' table k)

/-! ### The key of a generated statement -/

/-- A table with one key column. -/
def singleKey (key : TableData) (vals : Schema) : TableSchema := ⟨⟨[key], 100⟩, vals⟩

/-- Columns whose names can be read, with lengths. -/
structure ProperColumn (data : TableData) : Prop where
  name : NameText data.name
  sized : data.Sized

instance : DecidablePred ProperColumn := fun data =>
  decidable_of_iff (NameText data.name ∧ data.Sized) ⟨fun h => ⟨h.1, h.2⟩, fun h => ⟨h.1, h.2⟩⟩

section Lits

variable {ctx : EngCtx} {key : TableData} {lit : LiteralSource × Bytes} {s : TableSchema}
  {buf buf' : SqlBuf} {g g' : Globals}

/-- The literal of a condition is the key literal. -/
lemma whereGen_lits (hget : s.keySchema.schemas[0]? = some key)
    (hlit : keyLiteral ctx key = .ret lit) (h : whereGen ctx s buf g = .ret (buf', g')) :
    buf'.lits = buf.lits ++ [lit.2] := by
  simp only [whereGen, Schema.get, hget, Outcome.ret_bind, writeColumns, writeLiteral_key, hlit,
    Outcome.pure_eq, if_true, Outcome.ret.injEq, Prod.mk.injEq] at h
  have hback : ((buf.put (key.name ++ ascii "=")).column lit).back.lits
      = ((buf.put (key.name ++ ascii "=")).column lit).lits := rfl
  rw [← h.1, hback, lits_column]
  rfl

/-- An INSERT has the key literal and one literal for every value column. -/
lemma insertGen_lits {vals : Schema} (hlit : keyLiteral ctx key = .ret lit) {name : Bytes}
    (hvals : ∀ data ∈ vals.schemas, data.Sized)
    (h : insertGen ctx name (singleKey key vals) g = .ret (buf, g')) :
    ∃ lits, buf.lits = lit.2 :: lits ∧ List.Forall₂ LiteralFits vals.schemas lits := by
  simp only [insertGen, singleKey, writeColumns, writeLiteral_key, hlit, Outcome.ret_bind,
    Bool.false_eq_true, if_false] at h
  obtain ⟨⟨buf₁, g₁⟩, hcols, h⟩ := Outcome.bind_eq_ret.1 h
  simp only [Outcome.pure_eq, Outcome.ret.injEq, Prod.mk.injEq] at h
  obtain ⟨lits, hfits, -, hrec, -⟩ := writeColumns_items hvals hcols
  have hback : (buf₁.back.put (ascii ")")).lits = buf₁.lits := rfl
  refine ⟨lits, ?_, hfits⟩
  rw [← h.1, hback, hrec, lits_column]
  rfl

end Lits

/-- The text is that of a statement of the command for the key `v`, or of an UPDATE without
assignments. -/
def KeyText (unescape : UInt8 → UInt8) (pk name : Bytes) (cmd : CmdType) (v sql : Bytes) : Prop :=
  (∃ cond, EquationText cond ∧ sql = noAssignments name cond) ∨
    ∃ stmt : DataStmt, stmt.Readable ∧ stmt.cmd = cmd ∧ sql = stmt.text name ∧
      (stmt.mapLiterals (denoted unescape)).For pk v

/-- Without value columns an UPDATE has no assignments. -/
lemma updateGen_nil {name : Bytes} {ctx : EngCtx} {s : TableSchema} {key : TableData}
    (hget : s.keySchema.schemas[0]? = some key) (hkey : ProperColumn key)
    (hval : s.valSchema.schemas = []) {g g' : Globals} {buf : SqlBuf}
    (h : updateGen ctx name s g = .ret (buf, g')) :
    ∃ cond, EquationText cond ∧ buf.text = noAssignments name cond := by
  simp only [updateGen, hval, writeColumns, Outcome.ret_bind] at h
  obtain ⟨lit, hlit, -, htext⟩ := whereGen_items hget hkey.sized h
  refine ⟨(key.name, lit), ⟨hkey.name, hlit⟩, ?_⟩
  have hset : ascii " set " = ascii " set" ++ [32] := rfl
  have hwhere : ascii " set where " = ascii " set" ++ ascii " where " := rfl
  rw [htext, noAssignments, hwhere]
  simp only [SqlBuf.put, SqlBuf.back, hset, ← List.append_assoc, List.dropLast_concat]

section Generated

variable {unescape : UInt8 → UInt8} {key : TableData} {vals : Schema} {ctx : EngCtx}
  {name : Bytes} {cmd : CmdType} {lit : LiteralSource × Bytes} {g g' : Globals} {buf : SqlBuf}
  (hkey : ProperColumn key) (hvals : ∀ data ∈ vals.schemas, ProperColumn data)
  (hcmd : cmd.isTraversal = true)
include hvals

include hkey in
lemma properColumn_columns : ∀ data ∈ (singleKey key vals).columns, ProperColumn data := by
  intro data hd
  rcases List.mem_cons.1 hd with rfl | hd
  · exact hkey
  · exact hvals data hd

include hcmd

/-- The key literal is the first one of an INSERT, and the last one of the other statements. -/
lemma sqlGen_keyLiteral (hlit : keyLiteral ctx key = .ret lit)
    (h : sqlGen ctx name (singleKey key vals) g cmd = .ret (buf, g')) :
    if cmd = .insert then buf.lits.head? = some lit.2 else buf.lits.getLast? = some lit.2 := by
  have hget : (singleKey key vals).keySchema.schemas[0]? = some key := rfl
  rcases CmdType.isTraversal_iff.1 hcmd with rfl | rfl | rfl | rfl
  · obtain ⟨lits, hlits, -⟩ := insertGen_lits hlit (fun data hd => (hvals data hd).sized) h
    rw [if_pos rfl, hlits]
    rfl
  · rw [if_neg (by decide), whereGen_lits hget hlit h, List.getLast?_concat]
  · simp only [sqlGen, updateGen] at h
    obtain ⟨⟨buf₁, g₁⟩, -, h⟩ := Outcome.bind_eq_ret.1 h
    rw [if_neg (by decide), whereGen_lits hget hlit h, List.getLast?_concat]
  · rw [if_neg (by decide), whereGen_lits hget hlit h, List.getLast?_concat]

include hkey

/-- **A generated statement is for the key of its traversal.** -/
lemma sqlGen_keyText (unescape : UInt8 → UInt8)
    (hfresh : ∀ data ∈ vals.schemas, data.name ≠ key.name)
    (hlit : keyLiteral ctx key = .ret lit)
    (h : sqlGen ctx name (singleKey key vals) g cmd = .ret (buf, g')) :
    KeyText unescape key.name name cmd (denoted unescape lit.2) buf.text := by
  have hget : (singleKey key vals).keySchema.schemas[0]? = some key := rfl
  have hproper := properColumn_columns hkey hvals
  by_cases hval : cmd = .update → vals.schemas ≠ []
  swap
  · obtain ⟨rfl, hnil⟩ := Classical.not_imp.1 hval
    exact Or.inl (updateGen_nil hget hkey (not_not.1 hnil) h)
  obtain ⟨stmt, hmeant⟩ := sqlGen_meant (fun data hd => (hproper data hd).name)
    (fun data hd => (hproper data hd).sized) hget hcmd hval h
  have hkeylit := sqlGen_keyLiteral hvals hcmd hlit h
  have hstmt := hmeant.meant (denoted unescape)
  have hlast : cmd ≠ .insert →
      (buf.lits.map (denoted unescape)).getLast? = some (denoted unescape lit.2) := by
    intro hne
    rw [if_neg hne] at hkeylit
    rw [List.getLast?_map, hkeylit]
    rfl
  have hcmdOf : (stmt.mapLiterals (denoted unescape)).cmd = stmt.cmd := by cases stmt <;> rfl
  refine Or.inr ⟨stmt, hmeant.readable, ?_⟩
  rw [← hcmdOf]
  -- what was meant, with the key literal in its place
  rcases CmdType.isTraversal_iff.1 hcmd with rfl | rfl | rfl | rfl
  · obtain ⟨lits, hlits⟩ := List.head?_eq_some_iff.1 hkeylit
    simp only [meantStmt, hget, hlits, List.map_cons, List.getLast?_cons, Option.bind_eq_bind,
      Option.bind_some, Option.some.injEq] at hstmt
    rw [← hstmt]
    exact ⟨rfl, hmeant.text, rfl⟩
  · simp only [meantStmt, hget, hlast (by decide), Option.bind_eq_bind, Option.bind_some,
      Option.some.injEq] at hstmt
    rw [← hstmt]
    exact ⟨rfl, hmeant.text, rfl⟩
  · simp only [meantStmt, hget, hlast (by decide), Option.bind_eq_bind, Option.bind_some,
      Option.some.injEq] at hstmt
    rw [← hstmt]
    refine ⟨rfl, hmeant.text, rfl, fun hmem => ?_⟩
    obtain ⟨⟨w, l⟩, he, hw⟩ := List.mem_map.1 hmem
    obtain ⟨data, hdata, hdw⟩ := List.mem_map.1 (List.of_mem_zip he).1
    exact hfresh data hdata (hdw.trans hw)
  · simp only [meantStmt, hget, hlast (by decide), Option.bind_eq_bind, Option.bind_some,
      Option.some.injEq] at hstmt
    rw [← hstmt]
    exact ⟨rfl, hmeant.text, rfl⟩

end Generated

/-- **A generated statement that is executed** does to the row of its key what its command says, and
nothing else. -/
lemma SqlServer.Lawful.executed {Db K : Type} {S : SqlServer Db K} {key : Bytes → TableData}
    (hS : S.Lawful key) {db db' : Db} (hdb : S.keyed db) {name v sql : Bytes} {cmd : CmdType}
    {row : Option Row} (hname : NameText name)
    (htext : KeyText S.unescape (key name).name name cmd v sql)
    (hq : S.query db sql = some (db', row)) :
    S.keyed db' ∧
      (∀ table k, (name = table → S.canon v ≠ k) → S.rowAt db' table k = S.rowAt db table k) ∧
      ∃ stmt : DataStmt, stmt.cmd = cmd ∧
        stmt.Effect (S.rowAt db name (S.canon v)) (S.rowAt db' name (S.canon v)) row := by
  rcases htext with ⟨cond, hcond, rfl⟩ | ⟨stmt, hreadable, hcmd, rfl, hfor⟩
  · rw [hS.no_assignments db name cond hname hcond] at hq
    cases hq
  · have hcmdOf : (stmt.mapLiterals (denoted S.unescape)).cmd = stmt.cmd := by cases stmt <;> rfl
    exact ⟨hS.keyed_query db db' name stmt row hdb hname hreadable hq,
      hS.frame db db' name v stmt row hdb hname hreadable hfor hq,
      stmt.mapLiterals (denoted S.unescape), hcmdOf.trans hcmd,
      hS.effect db db' name v stmt row hdb hname hreadable hfor hq⟩

section Executed

variable {Db K : Type} {S : SqlServer Db K} {key : Bytes → TableData} {db db' : Db}
  {name v sql : Bytes} {row : Option Row}

end Executed

end CheckQ
