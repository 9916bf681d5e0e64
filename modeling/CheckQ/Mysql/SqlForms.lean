import CheckQ.Mysql.CompositeKey

/-!
# The forms of the row statements

INSERT, DELETE, UPDATE and SELECT have one form each: lists of items that are separated by
commas, and a condition `k=l`.  The generators take a separator back after every list, also
after an empty one, and they write the condition from the first key column without looking
whether there is one; so a schema gets well-formed statements exactly when it has a key
column and a value column.
-/

namespace CheckQ

/-! ### Statements -/

/-- A statement on the rows of a table; a pair is a column and the literal behind its `=`. -/
inductive DataStmt where
  | insert (lits : List Bytes)
  | delete (cond : Bytes × Bytes)
  | update (sets : List (Bytes × Bytes)) (cond : Bytes × Bytes)
  | select (cols : List Bytes) (cond : Bytes × Bytes)

/-- `k=l`. -/
def equation (e : Bytes × Bytes) : Bytes := e.1 ++ ascii "=" ++ quoted e.2

/-- The name is made of word characters, and the literal ends at its closing quote. -/
def IsEquation (e : Bytes × Bytes) : Prop := (∀ c ∈ e.1, isWord c = true) ∧ quoteByte ∉ e.2

namespace DataStmt

/-- The command that writes the statement. -/
def cmd : DataStmt → CmdType
  | insert _ => .insert
  | delete _ => .delete
  | update _ _ => .update
  | select _ _ => .select

/-- The text of the statement for the table `name`. -/
def text (name : Bytes) : DataStmt → Bytes
  | insert lits => ascii "insert into " ++ name ++ ascii " values(" ++
      (ascii ",").intercalate (lits.map quoted) ++ ascii ")"
  | delete cond => ascii "delete from " ++ name ++ ascii " where " ++ equation cond
  | update sets cond => ascii "update " ++ name ++ ascii " set " ++
      (ascii ",").intercalate (sets.map equation) ++ ascii " where " ++ equation cond
  | select cols cond => ascii "select " ++ (ascii ",").intercalate cols ++ ascii " from " ++ name ++
      ascii " where " ++ equation cond

/-- Every list has an item, and the items are names, literals and equations. -/
def WellFormed : DataStmt → Prop
  | insert lits => lits ≠ [] ∧ ∀ lit ∈ lits, quoteByte ∉ lit
  | delete cond => IsEquation cond
  | update sets cond => sets ≠ [] ∧ (∀ e ∈ sets, IsEquation e) ∧ IsEquation cond
  | select cols cond => cols ≠ [] ∧ (∀ col ∈ cols, ∀ c ∈ col, isWord c = true) ∧ IsEquation cond

end DataStmt

/-- The four generators write a well-formed statement for every table of the schema, whatever
the thread, the seeds and the random numbers are. -/
def WritesDataStmts (s : TableSchema) : Prop :=
  ∀ (ctx : EngCtx) (name : Bytes) (g : Globals) (cmd : CmdType), cmd.isTraversal = true →
    ∃ buf g', ∃ stmt : DataStmt, sqlGen ctx name s g cmd = .ret (buf, g') ∧
      stmt.cmd = cmd ∧ stmt.WellFormed ∧ buf.text = stmt.text name

/-! ### Items and equations -/

lemma LiteralFits.quoteByte_notMem {data : TableData} {lit : Bytes} (h : LiteralFits data lit) :
    quoteByte ∉ lit := by
  rw [LiteralFits] at h
  cases hty : data.type with
  | bigint =>
      rw [hty] at h
      obtain ⟨v, -, rfl⟩ := h
      exact (special_notMem_decimal v).1
  | varchar =>
      rw [hty] at h
      exact h.2.2.1

lemma firstKey_mem_columns {s : TableSchema} {key : TableData}
    (hget : s.keySchema.schemas[0]? = some key) : key ∈ s.columns :=
  List.mem_append_left _ (List.mem_of_getElem? hget)

/-- The equation of a column. -/
def EquationOf (data : TableData) (e : Bytes × Bytes) : Prop :=
  e.1 = data.name ∧ LiteralFits data e.2

lemma EquationOf.isEquation {data : TableData} {e : Bytes × Bytes} (h : EquationOf data e)
    (hnamed : data.Named) : IsEquation e :=
  ⟨h.1 ▸ hnamed, h.2.quoteByte_notMem⟩

/-- The assignments of an UPDATE. -/
lemma writeColumns_equations {datas : List TableData} (h : ∀ data ∈ datas, data.Sized)
    (ctx : EngCtx) (isKey : Bool) (buf : SqlBuf) (g : Globals) :
    ∃ sets buf' g', writeColumns ctx isKey true datas buf g = .ret (buf', g') ∧
      buf'.text = buf.text ++ (sets.map equation).flatMap (fun item => item ++ ascii ",") ∧
      List.Forall₂ EquationOf datas sets := by
  induction datas generalizing buf g with
  | nil => exact ⟨[], buf, g, rfl, by simp, List.Forall₂.nil⟩
  | cons data datas ih =>
      obtain ⟨lit, g₁, hlit, hfits⟩ := writeLiteral_fits (h data (by simp)) ctx isKey g
      obtain ⟨sets, buf', g', hrun, htext, hall⟩ := ih (fun d hd => h d (by simp [hd]))
        ((buf.put (data.name ++ ascii "=")).column lit) g₁
      refine ⟨(data.name, lit.2) :: sets, buf', g', ?_, ?_, List.Forall₂.cons ⟨rfl, hfits⟩ hall⟩
      · rw [writeColumns, hlit]
        exact hrun
      · rw [htext, text_column, List.map_cons, List.flatMap_cons, equation, SqlBuf.put]
        simp only [List.append_assoc]

/-- The condition on the first key column. -/
lemma whereGen_equation {s : TableSchema} {key : TableData}
    (hget : s.keySchema.schemas[0]? = some key) (hsized : key.Sized) (ctx : EngCtx) (buf : SqlBuf)
    (g : Globals) :
    ∃ cond buf' g', whereGen ctx s buf g = .ret (buf', g') ∧
      buf'.text = buf.text ++ equation cond ∧ EquationOf key cond := by
  have hone : ∀ data ∈ [key], data.Sized := by simpa using hsized
  obtain ⟨sets, buf₁, g₁, hrun, htext, hall⟩ := writeColumns_equations hone ctx true buf g
  obtain ⟨cond, sets', hcond, hnil, rfl⟩ := List.forall₂_cons_left_iff.1 hall
  obtain rfl := List.forall₂_nil_left_iff.1 hnil
  refine ⟨cond, buf₁.back, g₁, ?_, ?_, hcond⟩
  · simp [whereGen, Schema.get, hget, hrun]
  · rw [SqlBuf.back, htext, dropLast_flatMap_comma (by simp)]
    simp

/-! ### Schemas with keys and values -/

section Forms

variable {s : TableSchema} (hnamed : ∀ data ∈ s.columns, data.Named)
  (hsized : ∀ data ∈ s.columns, data.Sized)
include hsized

lemma insertGen_form (hkey : s.keySchema.schemas ≠ []) (ctx : EngCtx) (name : Bytes)
    (g : Globals) :
    ∃ buf g' lits, insertGen ctx name s g = .ret (buf, g') ∧
      (DataStmt.insert lits).WellFormed ∧ buf.text = (DataStmt.insert lits).text name := by
  obtain ⟨lits, buf, g', hrun, ⟨body, htext, hbody⟩, hall⟩ :=
    insertGen_lists hkey hsized ctx name g
  have hne : lits ≠ [] := by
    rintro rfl
    exact columns_ne_nil hkey (List.forall₂_nil_right_iff.1 hall)
  refine ⟨buf, g', lits, hrun, ⟨hne, ?_⟩, ?_⟩
  · intro lit hlit
    obtain ⟨data, -, hfits⟩ := exists_of_mem_right hall hlit
    exact hfits.quoteByte_notMem
  · have hjoin : (ascii ",").intercalate (body.splitOn commaByte) = body :=
      List.intercalate_splitOn commaByte
    rw [htext, DataStmt.text, ← hbody, hjoin]

include hnamed

lemma deleteGen_form {key : TableData} (hget : s.keySchema.schemas[0]? = some key) (ctx : EngCtx)
    (name : Bytes) (g : Globals) :
    ∃ buf g' cond, deleteGen ctx name s g = .ret (buf, g') ∧
      (DataStmt.delete cond).WellFormed ∧ buf.text = (DataStmt.delete cond).text name := by
  have hmem := firstKey_mem_columns hget
  obtain ⟨cond, buf, g', hrun, htext, hcond⟩ := whereGen_equation hget (hsized key hmem) ctx
    ⟨ascii "delete from " ++ name ++ ascii " where ", []⟩ g
  exact ⟨buf, g', cond, hrun, hcond.isEquation (hnamed key hmem), htext⟩

lemma updateGen_form {key : TableData} (hget : s.keySchema.schemas[0]? = some key)
    (hval : s.valSchema.schemas ≠ []) (ctx : EngCtx) (name : Bytes) (g : Globals) :
    ∃ buf g' sets cond, updateGen ctx name s g = .ret (buf, g') ∧
      (DataStmt.update sets cond).WellFormed ∧ buf.text = (DataStmt.update sets cond).text name := by
  have hmem := firstKey_mem_columns hget
  obtain ⟨sets, buf₁, g₁, hrun₁, htext₁, hall⟩ :=
    writeColumns_equations (fun data hd => hsized data (List.mem_append_right _ hd)) ctx false
      ⟨ascii "update " ++ name ++ ascii " set ", []⟩ g
  obtain ⟨cond, buf, g', hrun, htext, hcond⟩ := whereGen_equation hget (hsized key hmem) ctx
    (buf₁.back.put (ascii " where ")) g₁
  have hne : sets ≠ [] := by
    rintro rfl
    exact hval (List.forall₂_nil_right_iff.1 hall)
  refine ⟨buf, g', sets, cond, ?_, ⟨hne, ?_, hcond.isEquation (hnamed key hmem)⟩, ?_⟩
  · simp only [updateGen, hrun₁, Outcome.ret_bind, hrun]
  · intro e he
    obtain ⟨data, hdata, heq⟩ := exists_of_mem_right hall he
    exact heq.isEquation (hnamed data (List.mem_append_right _ hdata))
  · rw [htext, SqlBuf.put, SqlBuf.back, htext₁, dropLast_flatMap_comma (by simpa using hne)]
    rfl

lemma selectGen_form {key : TableData} (hget : s.keySchema.schemas[0]? = some key) (ctx : EngCtx)
    (name : Bytes) (g : Globals) :
    ∃ buf g' cols cond, selectGen ctx name s g = .ret (buf, g') ∧
      (DataStmt.select cols cond).WellFormed ∧ buf.text = (DataStmt.select cols cond).text name := by
  have hmem := firstKey_mem_columns hget
  have hne : s.columns.map TableData.name ≠ [] :=
    List.ne_nil_of_mem (List.mem_map_of_mem hmem)
  obtain ⟨cond, buf, g', hrun, htext, hcond⟩ := whereGen_equation hget (hsized key hmem) ctx
    (selectHead name s) g
  refine ⟨buf, g', s.columns.map TableData.name, cond, hrun,
    ⟨hne, ?_, hcond.isEquation (hnamed key hmem)⟩, ?_⟩
  · intro col hcol
    obtain ⟨data, hdata, rfl⟩ := List.mem_map.1 hcol
    exact hnamed data hdata
  · have hlist := dropLast_flatMap_comma hne (ascii "select ")
    rw [List.flatMap_map] at hlist
    rw [htext, selectHead, SqlBuf.put, SqlBuf.back, SqlBuf.put, hlist, DataStmt.text]
    simp only [List.append_assoc]

lemma writesDataStmts (hkey : s.keySchema.schemas ≠ []) (hval : s.valSchema.schemas ≠ []) :
    WritesDataStmts s := by
  obtain ⟨key, keys, heq⟩ := List.exists_cons_of_ne_nil hkey
  have hget : s.keySchema.schemas[0]? = some key := by simp [heq]
  intro ctx name g cmd hcmd
  rcases CmdType.isTraversal_iff.1 hcmd with rfl | rfl | rfl | rfl
  · obtain ⟨buf, g', lits, hrun, hwf, htext⟩ := insertGen_form hsized hkey ctx name g
    exact ⟨buf, g', .insert lits, hrun, rfl, hwf, htext⟩
  · obtain ⟨buf, g', cond, hrun, hwf, htext⟩ := deleteGen_form hnamed hsized hget ctx name g
    exact ⟨buf, g', .delete cond, hrun, rfl, hwf, htext⟩
  · obtain ⟨buf, g', sets, cond, hrun, hwf, htext⟩ :=
      updateGen_form hnamed hsized hget hval ctx name g
    exact ⟨buf, g', .update sets cond, hrun, rfl, hwf, htext⟩
  · obtain ⟨buf, g', cols, cond, hrun, hwf, htext⟩ := selectGen_form hnamed hsized hget ctx name g
    exact ⟨buf, g', .select cols cond, hrun, rfl, hwf, htext⟩

end Forms

/-! ### Schemas without keys or without values -/

/-- Without a key column the first cell of the key schema is read although it is not set. -/
lemma whereGen_nil {s : TableSchema} (hkey : s.keySchema.schemas = []) (ctx : EngCtx) (buf : SqlBuf)
    (g : Globals) : whereGen ctx s buf g = .fault := by
  simp [whereGen, Schema.get, hkey]

/-- A name is not followed by a space where an equation should be. -/
lemma update_set_ne (name : Bytes) {sets : List (Bytes × Bytes)} {cond : Bytes × Bytes}
    (hwf : (DataStmt.update sets cond).WellFormed) (rest : Bytes) :
    (DataStmt.update sets cond).text name
      ≠ ascii "update " ++ name ++ ascii " set" ++ ascii " where " ++ rest := by
  obtain ⟨hne, hsets, -⟩ := hwf
  obtain ⟨e, sets, rfl⟩ := List.exists_cons_of_ne_nil hne
  obtain ⟨more, hmore⟩ : ∃ more, (ascii ",").intercalate ((e :: sets).map equation)
      = e.1 ++ ascii "=" ++ more := by
    cases sets with
    | nil => exact ⟨quoted e.2, by simp [equation]⟩
    | cons e' sets =>
        rw [List.map_cons, List.map_cons, List.intercalate_cons_cons, equation]
        exact ⟨_, by simp only [List.append_assoc]; rfl⟩
  intro heq
  -- behind ` set ` one text has a name and an equals sign, and the other one `where` and a space
  have hcancel : e.1 ++ 61 :: (more ++ (ascii " where " ++ equation cond))
      = ascii "where" ++ 32 :: rest := by
    rw [DataStmt.text, hmore] at heq
    simpa [ascii] using heq
  have hdrop := congrArg (List.dropWhile isWord) hcancel
  rw [List.dropWhile_append_of_pos (hsets e (by simp)).1,
    List.dropWhile_append_of_pos (List.all_eq_true.1 rfl), List.dropWhile_cons_of_neg (by decide),
    List.dropWhile_cons_of_neg (by decide)] at hdrop
  exact absurd (List.cons.inj hdrop).1 (by decide)

/-- **The generators write well-formed statements exactly when there are a key column and a
value column.** -/
lemma writesDataStmts_iff {s : TableSchema} (hnamed : ∀ data ∈ s.columns, data.Named)
    (hsized : ∀ data ∈ s.columns, data.Sized) :
    WritesDataStmts s ↔ s.keySchema.schemas ≠ [] ∧ s.valSchema.schemas ≠ [] := by
  constructor
  · intro h
    have hkey : s.keySchema.schemas ≠ [] := by
      intro hnil
      obtain ⟨buf, g', stmt, hrun, -⟩ := h ⟨0, 0⟩ [] ⟨0, fun _ => 0⟩ .delete rfl
      rw [sqlGen, deleteGen, whereGen_nil hnil] at hrun
      exact absurd hrun (by simp)
    refine ⟨hkey, fun hnil => ?_⟩
    obtain ⟨key, keys, heq⟩ := List.exists_cons_of_ne_nil hkey
    have hget : s.keySchema.schemas[0]? = some key := by simp [heq]
    have hmem := firstKey_mem_columns hget
    obtain ⟨buf, g', stmt, hrun, hcmd, hwf, htext⟩ := h ⟨0, 0⟩ [] ⟨0, fun _ => 0⟩ .update rfl
    obtain ⟨cond, buf', g'', hrun', htext', -⟩ := whereGen_equation hget (hsized key hmem) ⟨0, 0⟩
      ((SqlBuf.back ⟨ascii "update " ++ [] ++ ascii " set ", []⟩).put (ascii " where "))
      ⟨0, fun _ => 0⟩
    simp only [sqlGen, updateGen, hnil, writeColumns, Outcome.ret_bind, hrun', Outcome.ret.injEq,
      Prod.mk.injEq] at hrun
    cases stmt with
    | update sets cond' =>
        refine update_set_ne [] hwf (equation cond) ?_
        rw [← htext, ← hrun.1, htext']
        rfl
    | insert lits => simp [DataStmt.cmd] at hcmd
    | delete cond' => simp [DataStmt.cmd] at hcmd
    | select cols cond' => simp [DataStmt.cmd] at hcmd
  · rintro ⟨hkey, hval⟩
    exact writesDataStmts hnamed hsized hkey hval

end CheckQ
