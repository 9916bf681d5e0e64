import CheckQ.Mysql.SqlColumns
import Mathlib.Data.List.Perm.Basic

/-!
# Tables with several key columns

In a CREATE statement a primary key is declared behind one of its columns, or by a clause
of its own that lists the columns; a statement may do so only once.  `create_gen` puts
`primary key` behind every key column, and the conditions of DELETE, UPDATE and SELECT name
the first one only, so a key is treated as one key when it has one column.
-/

namespace CheckQ

/-! ### Declared keys -/

/-- A column of a CREATE statement. -/
structure ColumnDecl where
  data : TableData
  /-- The words `primary key` stand behind it. -/
  primary : Bool

/-- The columns of a CREATE statement and its clauses `primary key (..)`. -/
structure CreateStmt where
  columns : List ColumnDecl
  clauses : List (List Bytes)

namespace CreateStmt

/-- What stands between the commas. -/
def items (c : CreateStmt) : List Bytes :=
  c.columns.map (fun d => columnItem d.primary d.data) ++
    c.clauses.map fun names =>
      ascii "primary key (" ++ (ascii ",").intercalate names ++ ascii ")"

/-- The statement that creates the table `name`. -/
def text (name : Bytes) (c : CreateStmt) : Bytes :=
  ascii "create table " ++ name ++ ascii " (" ++ (ascii ",").intercalate c.items ++ ascii ")"

/-- The primary keys that the statement declares, each as the list of its columns. -/
def primaryKeys (c : CreateStmt) : List (List Bytes) :=
  (c.columns.filter ColumnDecl.primary).map (fun d => [d.data.name]) ++ c.clauses

end CreateStmt

/-- The statement creates the columns of `s` and declares a single primary key, which consists
of all key columns. -/
def DeclaresKey (name : Bytes) (s : TableSchema) (text : Bytes) : Prop :=
  ∃ c : CreateStmt, c.text name = text ∧ c.columns.map ColumnDecl.data = s.columns ∧
    ∃ key, c.primaryKeys = [key] ∧ key.Perm (s.keySchema.schemas.map TableData.name)

/-- A statement with the text of `create_gen` has `primary key` behind every key column. -/
lemma primary_of_text {keys vals : List TableData} {defs : List ColumnDecl} {more rest : List Bytes}
    (hdata : defs.map ColumnDecl.data = keys ++ vals)
    (htext : (defs.map (fun d => columnItem d.primary d.data) ++ more).flatMap (· ++ ascii ",")
      = (keys.map (columnItem true) ++ rest).flatMap (· ++ ascii ",")) :
    keys.length ≤ (defs.filter ColumnDecl.primary).length := by
  induction keys generalizing defs with
  | nil => exact Nat.zero_le _
  | cons key keys ih =>
      cases defs with
      | nil => simp at hdata
      | cons d defs =>
          simp only [List.map_cons, List.cons_append, List.cons.injEq] at hdata
          simp only [List.map_cons, List.cons_append, List.flatMap_cons, hdata.1] at htext
          rw [columnItem, columnItem] at htext
          simp only [List.append_assoc, List.append_cancel_left_eq] at htext
          -- the texts go on with a comma or with ` primary key`
          cases hd : d.primary with
          | true =>
              simp only [hd, if_true, List.append_cancel_left_eq] at htext
              rw [List.filter_cons_of_pos hd, List.length_cons, List.length_cons]
              exact Nat.succ_le_succ (ih hdata.2 htext)
          | false =>
              rw [hd] at htext
              have hhead := congrArg List.head? htext
              exact absurd hhead (by simp [ascii])

/-- `create_gen` declares one key exactly when the key has one column. -/
lemma declaresKey_iff {s : TableSchema} (hkey : s.keySchema.schemas ≠ []) (name : Bytes) :
    DeclaresKey name s (createGen name s) ↔ s.keySchema.nschema = 1 := by
  constructor
  · rintro ⟨c, htext, hdata, key, hkeys, -⟩
    have hne : c.items ≠ [] := by
      have hcolumns := columns_ne_nil hkey
      rw [← hdata] at hcolumns
      exact List.append_ne_nil_of_left_ne_nil (by simpa using hcolumns) _
    rw [createGen_eq hkey, CreateStmt.text, List.append_cancel_right_eq,
      List.append_cancel_left_eq] at htext
    have hflat := flatMap_comma hne
    rw [htext, ← flatMap_comma (columnItems_ne_nil hkey)] at hflat
    have hle := primary_of_text hdata hflat
    have hlen := congrArg List.length hkeys
    simp only [CreateStmt.primaryKeys, List.length_append, List.length_map,
      List.length_singleton] at hlen
    have hpos := List.length_pos_of_ne_nil hkey
    rw [Schema.nschema]
    omega
  · intro hone
    obtain ⟨key, hkeys⟩ := List.length_eq_one_iff.1 hone
    refine ⟨⟨⟨key, true⟩ :: s.valSchema.schemas.map (⟨·, false⟩), []⟩, ?_, ?_, [key.name], ?_, ?_⟩
    · rw [createGen_eq hkey, CreateStmt.text, columnItems, hkeys]
      simp [CreateStmt.items, Function.comp_def]
    · simp [TableSchema.columns, hkeys, Function.comp_def]
    · simp [CreateStmt.primaryKeys, List.filter_map, Function.comp_def]
    · rw [hkeys]
      exact List.Perm.refl _

/-! ### Conditions -/

lemma infix_intercalate {sep item : Bytes} {items : List Bytes} (h : item ∈ items) :
    item <:+: sep.intercalate items := by
  induction items with
  | nil => simp at h
  | cons first items ih =>
      cases items with
      | nil =>
          obtain rfl := List.mem_singleton.1 h
          simp
      | cons second items =>
          rw [List.intercalate_cons_cons]
          rcases List.mem_cons.1 h with rfl | h
          · exact ⟨[], _, by simp [List.append_assoc]; rfl⟩
          · exact (ih h).trans (List.suffix_append _ _).isInfix

/-- The statement ends in a conjunction of conditions, and among them each of the columns
`keys` is compared with the literal that INSERT writes for it. -/
def ConstrainsKeys (ctx : EngCtx) (keys : List TableData) (text : Bytes) : Prop :=
  ∃ (front : Bytes) (conds : List (Bytes × Bytes)),
    text = front ++ ascii " where " ++
      (ascii " and ").intercalate (conds.map fun c => c.1 ++ ascii "=" ++ quoted c.2) ∧
    ∀ key ∈ keys, ∃ lit, keyLiteral ctx key = .ret lit ∧ (key.name, lit.2) ∈ conds

/-- A column that is constrained is mentioned in the statement. -/
lemma ConstrainsKeys.mentions {ctx : EngCtx} {keys : List TableData} {text : Bytes}
    (h : ConstrainsKeys ctx keys text) {k : TableData} (hk : k ∈ keys) :
    k.name ++ ascii "=" <:+: text := by
  obtain ⟨front, conds, rfl, hkeys⟩ := h
  obtain ⟨lit, -, hmem⟩ := hkeys k hk
  refine List.IsInfix.trans ?_ (List.suffix_append _ _).isInfix
  refine List.IsInfix.trans (List.prefix_append _ (quoted lit.2)).isInfix ?_
  exact infix_intercalate (List.mem_map_of_mem (f := fun c => c.1 ++ ascii "=" ++ quoted c.2) hmem)

/-- The commands whose statements have a condition. -/
def CmdType.hasWhere : CmdType → Bool
  | .delete => true
  | .update => true
  | .select => true
  | _ => false

lemma CmdType.hasWhere_iff {cmd : CmdType} : cmd.hasWhere = true ↔
    cmd = .delete ∨ cmd = .update ∨ cmd = .select := by
  cases cmd <;> simp [CmdType.hasWhere]

/-- A condition is written when the literal of the first key column is. -/
lemma whereGen_reads {ctx : EngCtx} {s : TableSchema} {buf : SqlBuf} {g : Globals}
    {q : SqlBuf × Globals} (h : whereGen ctx s buf g = .ret q) :
    ∃ key lit, s.keySchema.schemas[0]? = some key ∧ keyLiteral ctx key = .ret lit := by
  simp only [whereGen] at h
  obtain ⟨key, hkey, h⟩ := Outcome.bind_eq_ret.1 h
  obtain ⟨q₁, hcol, -⟩ := Outcome.bind_eq_ret.1 h
  simp only [writeColumns, writeLiteral_key] at hcol
  obtain ⟨q₂, hlit, -⟩ := Outcome.bind_eq_ret.1 hcol
  obtain ⟨lit, hlit, -⟩ := Outcome.bind_eq_ret.1 hlit
  refine ⟨key, lit, ?_, hlit⟩
  rw [Schema.get] at hkey
  split at hkey
  · exact absurd hkey (by simp)
  · rename_i d hd
    rw [hd, Outcome.ret.inj hkey]

/-- The condition of a statement is about the first key column. -/
lemma sqlGen_addresses {ctx : EngCtx} {name : Bytes} {s : TableSchema} {g g' : Globals}
    {cmd : CmdType} (hcmd : cmd.hasWhere = true) {buf : SqlBuf}
    (h : sqlGen ctx name s g cmd = .ret (buf, g')) :
    ∃ key lit, s.keySchema.schemas[0]? = some key ∧ keyLiteral ctx key = .ret lit ∧
      AddressesKey key lit.2 buf.text := by
  rcases CmdType.hasWhere_iff.1 hcmd with rfl | rfl | rfl
  · obtain ⟨key, lit, hkey, hlit⟩ := whereGen_reads h
    exact ⟨key, lit, hkey, hlit, deleteGen_text hkey hlit h⟩
  · have hrun := h
    simp only [sqlGen, updateGen] at hrun
    obtain ⟨q, -, hwhere⟩ := Outcome.bind_eq_ret.1 hrun
    obtain ⟨key, lit, hkey, hlit⟩ := whereGen_reads hwhere
    exact ⟨key, lit, hkey, hlit, updateGen_text hkey hlit h⟩
  · obtain ⟨key, lit, hkey, hlit⟩ := whereGen_reads h
    exact ⟨key, lit, hkey, hlit, selectGen_text hkey hlit h⟩

/-! ### One key -/

/-- The key columns of a table are treated as one key: CREATE declares it, and DELETE, UPDATE
and SELECT are written for tables whose columns have lengths and constrain all of it. -/
def OneKey (name : Bytes) (s : TableSchema) : Prop :=
  DeclaresKey name s (createGen name s) ∧
    ∀ cmd : CmdType, cmd.hasWhere = true → ∀ ctx g,
      ((∀ data ∈ s.columns, data.Sized) → ∃ q, sqlGen ctx name s g cmd = .ret q) ∧
      ∀ buf g', sqlGen ctx name s g cmd = .ret (buf, g') →
        ConstrainsKeys ctx s.keySchema.schemas buf.text

/-- **Key columns are treated as one key exactly when there is one of them.** -/
theorem one_key_iff (name : Bytes) (s : TableSchema) (hkey : s.keySchema.schemas ≠ []) :
    OneKey name s ↔ s.keySchema.nschema = 1 := by
  constructor
  · intro h
    exact (declaresKey_iff hkey name).1 h.1
  · intro hone
    refine ⟨(declaresKey_iff hkey name).2 hone, fun cmd hcmd ctx g => ⟨fun hsized => ?_, ?_⟩⟩
    · have htraversal : cmd.isTraversal = true :=
        CmdType.isTraversal_iff.2 (Or.inr (CmdType.hasWhere_iff.1 hcmd))
      exact sqlGen_ret ctx name hkey (fun data hd => hsized data (List.mem_append_left _ hd))
        (fun data hd => hsized data (List.mem_append_right _ hd)) g htraversal
    · intro buf g' hrun
      obtain ⟨key, lit, hget, hlit, front, htext⟩ := sqlGen_addresses hcmd hrun
      refine ⟨front, [(key.name, lit.2)], ?_, ?_⟩
      · rw [htext]
        simp
      · intro key' hmem
        obtain ⟨key₀, hkeys⟩ := List.length_eq_one_iff.1 hone
        rw [hkeys] at hget hmem
        obtain rfl := List.mem_singleton.1 hmem
        obtain rfl := Option.some.inj hget
        exact ⟨lit, hlit, List.mem_singleton_self _⟩

theorem one_key_iff_single :
    OneKey (ascii "test7")
        ⟨⟨[⟨ascii "id", .varchar, 8⟩], 100⟩, ⟨[⟨ascii "age", .bigint, 0⟩], 100⟩⟩ ↔
      Schema.nschema ⟨[⟨ascii "id", .varchar, 8⟩], 100⟩ = 1 :=
  one_key_iff (ascii "test7")
    ⟨⟨[⟨ascii "id", .varchar, 8⟩], 100⟩, ⟨[⟨ascii "age", .bigint, 0⟩], 100⟩⟩ (by simp)

/-- The schema with two key columns of `t/test_mysql_cmd.c`. -/
def testMysqlCmdSchema : TableSchema :=
  ⟨⟨[⟨ascii "col1", .bigint, 0⟩, ⟨ascii "col2", .bigint, 0⟩], 100⟩,
    ⟨[⟨ascii "col3", .varchar, 11⟩, ⟨ascii "col4", .varchar, 12⟩, ⟨ascii "col5", .varchar, 13⟩,
      ⟨ascii "col6", .varchar, 14⟩, ⟨ascii "col7", .varchar, 15⟩], 100⟩⟩

/-- CREATE declares two primary keys for the table of the test, and its DELETE says nothing of
the second key column. -/
theorem two_key_columns_fail :
    ¬ DeclaresKey (ascii "test_mysql_cmd") testMysqlCmdSchema
        (createGen (ascii "test_mysql_cmd") testMysqlCmdSchema) ∧
      ∃ buf g', sqlGen ⟨0, 0⟩ (ascii "test_mysql_cmd") testMysqlCmdSchema ⟨0, fun _ => 0⟩ .delete
          = .ret (buf, g') ∧
        ¬ ConstrainsKeys ⟨0, 0⟩ testMysqlCmdSchema.keySchema.schemas buf.text := by
  constructor
  · intro h
    have := (declaresKey_iff (by simp [testMysqlCmdSchema]) _).1 h
    simp [testMysqlCmdSchema, Schema.nschema] at this
  · have hsized : TableData.Sized ⟨ascii "col1", .bigint, 0⟩ := by decide
    obtain ⟨lit, hlit⟩ := keyLiteral_ret ⟨0, 0⟩ hsized
    obtain ⟨buf, hrun, htext⟩ := whereGen_text (s := testMysqlCmdSchema) rfl hlit
      ⟨ascii "delete from test_mysql_cmd where ", []⟩ ⟨0, fun _ => 0⟩
    refine ⟨buf, _, hrun, fun h => ?_⟩
    -- the only equals sign of the statement is behind `col1`
    obtain ⟨before, behind, heq⟩ := h.mentions (k := ⟨ascii "col2", .bigint, 0⟩)
      (by simp [testMysqlCmdSchema])
    have hplain : (61 : UInt8) ∉ quoted lit.2 := by
      rw [keyLiteral, Outcome.ret.injEq] at hlit
      rw [← hlit]
      simp only [quoted, List.mem_append, not_or]
      exact ⟨⟨by decide, notMem_of_class (decimal_spec _).1 rfl⟩, by decide⟩
    have hsplit : ascii "delete from test_mysql_cmd where col1" ++ 61 :: quoted lit.2
        = before ++ ascii "col2" ++ 61 :: behind := by
      have happ : before ++ (ascii "col2" ++ ascii "=") ++ behind
          = before ++ ascii "col2" ++ 61 :: behind := by
        simp [ascii]
      rw [← happ, heq, htext]
      rfl
    have hsuffix : ascii "col2" <:+ ascii "delete from test_mysql_cmd where col1" :=
      ⟨before, ((List.append_cons_inj_of_notMem (by decide) hplain).1 hsplit).1.symm⟩
    exact absurd hsuffix (by decide)

end CheckQ
