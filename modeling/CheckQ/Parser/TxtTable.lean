import CheckQ.Parser.RoundTrip
import CheckQ.Parser.TxtPatterns

/-!
# Table definitions of a TXT file

The documented form of a definition is `create table NAME ( COL TYPE [primary key], ... );` with
any white space between the words, line breaks included, as in `config.txt.example`.

`parser_read_txt_table_schema` looks for the columns of the key and for the other ones with two
patterns.  It uses the offset of a match in the text that is left as an offset in the whole text,
so that from the second column on it reads some other column; `primary key,` itself looks like
a column without a key; and the length of a `varchar` is read from behind an array.  So of the
definitions only those of one `bigint` column are read back.
-/

namespace CheckQ

open Regex

/-! ### Definitions -/

/-- A name. -/
structure Word where
  bytes : Bytes
  run : Run isWord bytes

/-- White space. -/
structure Gap where
  bytes : Bytes
  run : Run isSpace bytes

/-- The type of a column as it is declared. -/
inductive TxtType where
  | bigint
  | varchar (len : ℕ)
deriving DecidableEq, Repr

/-- A column as it is written: the white space in front of it, and that in `primary key`. -/
structure TxtColumn where
  before : Gap
  name : Word
  type : TxtType
  key : Option (Gap × Gap)

/-- The type as it is written. -/
def TxtType.text : TxtType → Bytes
  | .bigint => ascii "bigint"
  | .varchar len => ascii "varchar(" ++ decimal len ++ ascii ")"

namespace TxtColumn

/-- The mark of a column of the key. -/
def keyText (c : TxtColumn) : Bytes :=
  match c.key with
  | none => []
  | some (g, h) => g.bytes ++ ascii "primary" ++ h.bytes ++ ascii "key"

/-- The column as it is written. -/
def text (c : TxtColumn) : Bytes :=
  c.before.bytes ++ c.name.bytes ++ ascii " " ++ c.type.text ++ c.keyText

/-- The column that is declared. -/
def data (c : TxtColumn) : TableData :=
  match c.type with
  | .bigint => tableDataInit c.name.bytes .bigint 0
  | .varchar len => tableDataInit c.name.bytes .varchar (Int32.ofNat len)

end TxtColumn

/-- A definition: the columns, no two of which have one name, and the white space around them.
Behind the semicolon there is nothing but white space on the line. -/
structure TxtTable where
  afterCreate : Gap
  afterTable : Gap
  name : Word
  afterName : Gap
  first : TxtColumn
  others : List TxtColumn
  last : Gap
  tail : Bytes
  nodup : ((first :: others).map fun c => c.name.bytes).Nodup
  tail_isSpace : ∀ c ∈ tail, isSpace c = true

namespace TxtTable

variable (d : TxtTable)

/-- All columns. -/
def columns : List TxtColumn := d.first :: d.others

/-- The text behind a column, for the columns that are left. -/
def closing : List TxtColumn → Bytes
  | [] => d.last.bytes ++ ascii ")" ++ (ascii ";" ++ d.tail)
  | c :: cs => ascii "," ++ (c.text ++ closing cs)

/-- The text in front of the name. -/
def head : Bytes := ascii "create" ++ d.afterCreate.bytes ++ ascii "table" ++ d.afterTable.bytes

/-- The text between the name and the columns, with the name. -/
def opening : Bytes := d.name.bytes ++ d.afterName.bytes ++ ascii "("

/-- The text from the name on. -/
def body : Bytes := d.opening ++ (d.first.text ++ d.closing d.others)

/-- The definition as it is written. -/
def text : Bytes := d.head ++ d.body

/-- The columns of the key, in order. -/
def keys : List TableData := (d.columns.filter fun c => c.key.isSome).map TxtColumn.data

/-- The other columns, in order. -/
def vals : List TableData := (d.columns.filter fun c => c.key.isNone).map TxtColumn.data

end TxtTable

/-- The lines that a text is on; `);` is on the last one only. -/
structure WrittenOn (text : Bytes) (lines : List Bytes) : Prop where
  flatten : lines.flatten = text
  ending : ∃ line, lines.getLast? = some line ∧ ascii ");" <:+: line
  others : ∀ line ∈ lines.dropLast, ¬ascii ");" <:+: line

/-- The lines fit, one after the other, the block that `parser_read_a_table` reads them to: `cnt`
bytes of it are in use, and it is doubled when less than `CONFIG_MAX_LENGTH` are left. -/
def FitsBlock : List Bytes → ℕ → ℕ → Prop
  | [], _, _ => True
  | line :: lines, cnt, size =>
      cnt + line.length < size ∧
        if cnt + line.length + configMaxLength ≥ size then
          size * 2 ≤ 1024 * configMaxLength ∧ FitsBlock lines (cnt + line.length) (size * 2)
        else FitsBlock lines (cnt + line.length) size

instance instDecidableFitsBlock :
    (lines : List Bytes) → (cnt size : ℕ) → Decidable (FitsBlock lines cnt size)
  | [], _, _ => inferInstanceAs (Decidable True)
  | line :: lines, cnt, size =>
      have := instDecidableFitsBlock lines (cnt + line.length) (size * 2)
      have := instDecidableFitsBlock lines (cnt + line.length) size
      inferInstanceAs (Decidable (cnt + line.length < size ∧
        if cnt + line.length + configMaxLength ≥ size then
          size * 2 ≤ 1024 * configMaxLength ∧ FitsBlock lines (cnt + line.length) (size * 2)
        else FitsBlock lines (cnt + line.length) size))

section

variable (probe : Bytes → UInt64 → UInt64) (fuel : ℕ) (d : TxtTable) (heap : List TableSchema)
  (tableSet : HashT TableT)

/-- The table set takes a table with the name of the definition. -/
def TakesTable (tableSet' : HashT TableT) : Prop :=
  tableSetAdd probe fuel tableSet (tableInit d.name.bytes heap.length) = .ret (.succeed, tableSet')

/-- `parser_read_txt_table` adds the table that the lines define. -/
def ReadsBack (lines rest : List Bytes) : Prop :=
  ∃ schema tableSet', TakesTable probe fuel d heap tableSet tableSet' ∧
    parserReadTxtTable probe fuel (lines ++ rest) heap tableSet =
      .ret (.succeed, rest, heap ++ [schema], tableSet') ∧
    schema.keySchema.schemas = d.keys ∧ schema.valSchema.schemas = d.vals

end

lemma Gap.notMem {g : Gap} {e : UInt8} (he : isSpace e = false) : e ∉ g.bytes :=
  notMem_of_class g.run.mem he

/-! ### Matches of a column -/

/-- The end of a column, and the text behind it. -/
def EndsColumn (s t : Bytes) : Prop :=
  ∃ h e, s = h ++ e :: t ∧ (∀ c ∈ h, isSpace c = true) ∧ isColumnEnd e = true ∧
    (h ≠ [] ∨ isTypeByte e = false)

namespace TxtColumn

variable {c : TxtColumn} {s t : Bytes}

/-- Where the pattern of a column without a key matches in a column. -/
def valStart (c : TxtColumn) : ℕ :=
  match c.key with
  | none => 0
  | some _ => c.before.bytes.length + c.name.bytes.length + 7

lemma text_append (hc : c.type = .bigint) (s : Bytes) : c.text ++ s =
    c.before.bytes ++ (c.name.bytes ++ (ascii " " ++ (ascii "bigint" ++ (c.keyText ++ s)))) := by
  simp only [text, hc, TxtType.text, List.append_assoc]

lemma keyText_none (hkey : c.key = none) (s : Bytes) : c.keyText ++ s = s := by
  simp [keyText, hkey]

lemma keyText_some {g h : Gap} (hkey : c.key = some (g, h)) (s : Bytes) : c.keyText ++ s =
    g.bytes ++ (ascii "primary" ++ (h.bytes ++ (ascii "key" ++ s))) := by
  simp only [keyText, hkey, List.append_assoc]

/-- The pattern of a column without a key matches in every column: in one of the key it matches
`primary key`. -/
lemma regexecFrom_val (hc : c.type = .bigint) (hs : EndsColumn s t) (pos : ℕ) :
    ∃ k gs, regexecFrom patternVal (c.text ++ s) pos = some ((pos + c.valStart, pos + k) :: gs) ∧
      (c.text ++ s).drop k = t := by
  obtain ⟨h, e, rfl, hh, he, hhe⟩ := hs
  rw [text_append hc]
  cases hkey : c.key with
  | none =>
      rw [keyText_none hkey, valStart, hkey]
      exact regexecFrom_val_match c.before.run.mem c.name.run run_space run_bigint.isTypeByte
        run_bigint.isColumnEnd hh he hhe pos
  | some gaps =>
      obtain ⟨g, g'⟩ := gaps
      rw [keyText_some hkey, valStart, hkey]
      -- neither the column nor its type with `primary` are followed by the end of a column
      rw [regexecFrom_val_append c.before.run.mem c.name.run run_space run_bigint.isTypeByte
          run_bigint.isColumnEnd g.run run_primary,
        regexecFrom_val_append run_space.mem run_bigint g.run run_primary.isTypeByte
          run_primary.isColumnEnd g'.run run_key]
      obtain ⟨k, gs, hmatch, hdrop⟩ := regexecFrom_val_match (t := t) g.run.mem run_primary g'.run
        run_key.isTypeByte run_key.isColumnEnd hh he hhe
        (pos + c.before.bytes.length + c.name.bytes.length + (ascii " ").length +
          (ascii "bigint").length)
      have hblank : (ascii " ").length = 1 := rfl
      have hbigint : (ascii "bigint").length = 6 := rfl
      refine ⟨c.before.bytes.length + c.name.bytes.length + 7 + k, gs, ?_, ?_⟩
      · rw [hmatch, hblank, hbigint]
        simp only [Option.some.injEq, List.cons.injEq, Prod.mk.injEq, and_true]
        omega
      · have hlen : c.before.bytes.length + c.name.bytes.length + 7 + k = c.before.bytes.length +
            (c.name.bytes.length + ((ascii " ").length + ((ascii "bigint").length + k))) := by
          omega
        rw [hlen]
        simp only [List.drop_length_add_append]
        exact hdrop

/-- The pattern of a column of the key matches one from its beginning. -/
lemma regexecFrom_key (hc : c.type = .bigint) (hkey : c.key.isSome) (hs : EndsColumn s t)
    (pos : ℕ) :
    ∃ k gs, regexecFrom patternKey (c.text ++ s) pos = some ((pos, pos + k) :: gs) ∧
      (c.text ++ s).drop k = t := by
  obtain ⟨h, e, rfl, hh, he, -⟩ := hs
  obtain ⟨⟨g, g'⟩, hkey⟩ := Option.isSome_iff_exists.1 hkey
  have hnotSpace : Run (! isSpace ·) (ascii "bigint") := run_ascii (by decide)
  rw [text_append hc, keyText_some hkey]
  have hways := ways_key (r := ascii "primary" ++ (g'.bytes ++ (ascii "key" ++ (h ++ e :: t))))
    c.before.run.mem c.name.run run_space hnotSpace g.run (run_primary.head? isSpace_of_isWord)
  rw [ways_primary_key g'.run hh he, List.map_singleton] at hways
  refine ⟨_, _, regexecFrom_of_way hways pos, ?_⟩
  have htext : c.before.bytes ++ (c.name.bytes ++ (ascii " " ++ (ascii "bigint" ++ (g.bytes ++
      (ascii "primary" ++ (g'.bytes ++ (ascii "key" ++ (h ++ e :: t)))))))) =
      (c.before.bytes ++ c.name.bytes ++ ascii " " ++ ascii "bigint" ++ g.bytes ++
        ascii "primary" ++ g'.bytes ++ ascii "key" ++ h ++ [e]) ++ t := by
    simp only [List.append_assoc, List.singleton_append]
  have hprimary : (ascii "primary").length = 7 := rfl
  have hword : (ascii "key").length = 3 := rfl
  rw [htext, List.drop_left']
  simp [hprimary, hword]
  omega

end TxtColumn

namespace TxtTable

variable (d : TxtTable)

/-- The text behind the end of a column, for the columns that are left. -/
def after : List TxtColumn → Bytes
  | [] => ascii ";" ++ d.tail
  | c :: cs => c.text ++ d.closing cs

lemma closing_ends (cs : List TxtColumn) : EndsColumn (d.closing cs) (d.after cs) := by
  cases cs with
  | nil =>
      refine ⟨d.last.bytes, 41, ?_, d.last.run.mem, by decide, Or.inl d.last.run.ne_nil⟩
      rw [closing, after, List.append_assoc]
      rfl
  | cons c cs => exact ⟨[], 44, rfl, by simp, by decide, Or.inr (by decide)⟩

lemma bracket_append (r : Bytes) : ascii "(" ++ r = 40 :: r := rfl

lemma comma_append (r : Bytes) : ascii "," ++ r = 44 :: r := rfl

variable {d} {c : TxtColumn} {s : Bytes} {pos : ℕ}

/-- The name of the table and the bracket are no column. -/
lemma regexecFrom_val_opening (hc : c.type = .bigint) :
    regexecFrom patternVal (d.opening ++ (c.text ++ s)) pos =
      regexecFrom patternVal (c.text ++ s) (pos + d.opening.length) := by
  have hbracket : Run isTypeByte (ascii "(") := run_ascii (by decide)
  have hend : ∀ e ∈ ascii "(", isColumnEnd e = false := List.forall_mem_singleton.2 rfl
  have hlen : (ascii "(").length = 1 := rfl
  rw [TxtColumn.text_append hc, opening, List.append_assoc, List.append_assoc]
  rw [← List.nil_append d.name.bytes, List.append_assoc,
    regexecFrom_val_append (by simp) d.name.run d.afterName.run hbracket hend c.before.run
      c.name.run, bracket_append, patternVal_eq,
    regexecFrom_column_append d.afterName.run.mem (by decide) (by decide)]
  congr 1
  simp only [List.length_append, List.length_nil, hlen]
  omega

/-- A column is no `primary key`. -/
lemma ways_primary_column (c : TxtColumn) (s : Bytes) :
    ways (lit (ascii "primary") ++ keyItems)
      (c.name.bytes ++ (ascii " " ++ (ascii "bigint" ++ s))) = [] := by
  have hcons : ∀ r, ascii "bigint" ++ r = 98 :: (ascii "igint" ++ r) := fun r => rfl
  refine ways_primary_word c.name.run run_space ?_
  rw [hcons]
  simp [isSpace]

lemma regexecFrom_key_opening (hc : c.type = .bigint) :
    regexecFrom patternKey (d.opening ++ (c.text ++ s)) pos =
      regexecFrom patternKey (c.text ++ s) (pos + d.opening.length) := by
  have hbracket : Run (! isSpace ·) (ascii "(") := run_ascii (by decide)
  have hlen : (ascii "(").length = 1 := rfl
  rw [TxtColumn.text_append hc, opening, List.append_assoc, List.append_assoc]
  rw [← List.nil_append d.name.bytes, List.append_assoc,
    regexecFrom_key_append (by simp) d.name.run d.afterName.run hbracket c.before.run
      (c.name.run.head? isSpace_of_isWord) (ways_primary_column c _), bracket_append, patternKey_eq,
    regexecFrom_column_append d.afterName.run.mem (by decide) (by decide)]
  congr 1
  simp only [List.length_append, List.length_nil, hlen]
  omega

lemma regexecFrom_bigint_opening :
    regexecFrom patternBigint (d.opening ++ (c.text ++ s)) pos =
      regexecFrom patternBigint (c.text ++ s) (pos + d.opening.length) := by
  have hfail : ∀ b, b ≠ [] → b <:+ d.name.bytes →
      ways patternBigint (b ++ (d.afterName.bytes ++ (ascii "(" ++ (c.text ++ s)))) = [] := by
    intro b hne hb
    refine ways_bigint_other (d.name.run.suffix hne hb) d.afterName.run ?_
    rw [bracket_append]
    simp [isSpace]
  rw [opening, List.append_assoc, List.append_assoc, regexecFrom_append hfail,
    ← List.append_assoc d.afterName.bytes, regexecFrom_bigint_append]
  · congr 1
    simp only [List.length_append]
    omega
  · intro e he
    rcases List.mem_append.1 he with he | he
    · exact isWord_of_isSpace (d.afterName.run.mem e he)
    · obtain rfl : e = 40 := List.mem_singleton.1 he
      decide

/-- `primary key` and a comma have no column in them. -/
lemma regexecFrom_bigint_key {c₁ : TxtColumn} (hkey : c₁.key.isSome) :
    regexecFrom patternBigint (c₁.keyText ++ (ascii "," ++ s)) pos =
      regexecFrom patternBigint s (pos + (c₁.keyText ++ ascii ",").length) := by
  obtain ⟨⟨g, g'⟩, hkey⟩ := Option.isSome_iff_exists.1 hkey
  have hcons : ∀ r, ascii "key" ++ r = 107 :: (ascii "ey" ++ r) := fun r => rfl
  have hspace : ∀ g : Gap, ∀ e ∈ g.bytes, isWord e = false :=
    fun g e he => isWord_of_isSpace (g.run.mem e he)
  rw [TxtColumn.keyText_some hkey, regexecFrom_bigint_append (hspace g),
    regexecFrom_append fun b hne hb => ways_bigint_other (run_primary.suffix hne hb) g'.run
      (by rw [hcons]; simp [isSpace]),
    regexecFrom_bigint_append (hspace g'), comma_append,
    regexecFrom_append fun b hne hb => ways_bigint_end (run_key.suffix hne hb) (by decide)
      (by decide),
    ← List.singleton_append, regexecFrom_bigint_append (List.forall_mem_singleton.2 rfl)]
  congr 1
  have hlen : (ascii ",").length = 1 := rfl
  simp only [TxtColumn.keyText, hkey, List.length_append, List.length_singleton, hlen]
  omega

end TxtTable

/-! ### Reading a column -/

section Read

variable {c : TxtColumn} {text s : Bytes} {so : ℕ} {schema schema' : Schema}

lemma regexecFrom_bigint_text (hc : c.type = .bigint) (pos : ℕ) :
    ∃ m, regexecFrom patternBigint (c.text ++ s) pos = some [m,
      (pos + c.before.bytes.length, pos + c.before.bytes.length + c.name.bytes.length)] := by
  rw [TxtColumn.text_append hc,
    regexecFrom_bigint_append fun e he => isWord_of_isSpace (c.before.run.mem e he),
    regexecFrom_of_way (ways_bigint_column c.name.run run_space)]
  exact ⟨_, rfl⟩

/-- A column of type `bigint` is read where no column is in front of it. -/
lemma parserReadTxtTableData_eq (pre s : Bytes) (hc : c.type = .bigint)
    (htext : text.drop so = pre ++ (c.text ++ s))
    (hpre : regexecFrom patternBigint (pre ++ (c.text ++ s)) 0 =
      regexecFrom patternBigint (c.text ++ s) (0 + pre.length)) :
    parserReadTxtTableData schema text so = schemaAdd schema c.data := by
  obtain ⟨m, hm⟩ := regexecFrom_bigint_text (s := s) hc (0 + pre.length)
  rw [parserReadTxtTableData, htext, regexec, hpre, hm]
  have hname : substring (pre ++ (c.text ++ s)) (0 + pre.length + c.before.bytes.length,
      0 + pre.length + c.before.bytes.length + c.name.bytes.length) = c.name.bytes := by
    rw [TxtColumn.text_append hc, substring, Nat.zero_add, ← List.append_assoc pre,
      ← List.append_assoc (pre ++ c.before.bytes), ← List.length_append, ← List.length_append,
      List.take_left, List.drop_left]
  show schemaAdd schema (tableDataInit (substring _ (_, _)) .bigint 0) = _
  rw [hname, TxtColumn.data, hc]

/-- What reading a column does to the schema. -/
lemma parserReadTxtTableData_cases {ret : RetT}
    (h : parserReadTxtTableData schema text so = .ret (ret, schema')) :
    schema' = schema ∨ ∃ name,
      schema' = { schema with schemas := schema.schemas ++ [tableDataInit name .bigint 0] } := by
  rw [parserReadTxtTableData] at h
  split at h
  · rw [schemaAdd] at h
    split_ifs at h
    · exact Or.inl (Prod.mk.inj (Outcome.ret.inj h)).2.symm
    · exact Or.inr ⟨_, (Prod.mk.inj (Outcome.ret.inj h)).2.symm⟩
  · split at h
    · simp at h
    · exact Or.inl (Prod.mk.inj (Outcome.ret.inj h)).2.symm

/-- A column is added wherever one can be found. -/
lemma parserReadTxtTableData_adds {t : Bytes} (ht : t <:+ text.drop so)
    (hways : ways patternBigint t ≠ []) (hroom : schema.schemas.length < 100)
    (hcap : schema.capacity = 100) : ∃ name, parserReadTxtTableData schema text so =
      .ret (.succeed, ⟨schema.schemas ++ [tableDataInit name .bigint 0], 100⟩) := by
  obtain ⟨m, hm⟩ := Option.isSome_iff_exists.1 (regexecFrom_isSome 0 ht hways)
  obtain ⟨cols, cap⟩ := schema
  subst hcap
  rw [parserReadTxtTableData, regexec, hm]
  exact ⟨_, schemaAdd_eq hroom _⟩

/-- What reading a column keeps, reading the columns keeps. -/
lemma readTxtColumns_invariant {I : Schema → Prop} {items : List (Item UInt8)} {fuel : ℕ}
    {cur : Bytes}
    (hstep : ∀ s so ret s', I s → parserReadTxtTableData s text so = .ret (ret, s') → I s')
    (hI : I schema) (h : readTxtColumns items text so fuel cur schema = .ret schema') :
    I schema' := by
  induction fuel generalizing cur schema with
  | zero => simp [readTxtColumns] at h
  | succ fuel ih =>
      rw [readTxtColumns] at h
      split at h
      · obtain rfl := Outcome.ret.inj h
        exact hI
      · obtain ⟨⟨ret, schema₁⟩, hdata, h⟩ := Outcome.bind_eq_ret.1 h
        exact ih (hstep schema _ ret schema₁ hI hdata) h

/-- What reading the columns does to the schema: it gets columns of type `bigint`. -/
lemma readTxtColumns_cases {items : List (Item UInt8)} {fuel : ℕ} {cur : Bytes}
    (h : readTxtColumns items text so fuel cur schema = .ret schema') :
    ∃ more, schema'.schemas = schema.schemas ++ more ∧ ∀ x ∈ more, x.type = .bigint := by
  refine readTxtColumns_invariant (I := fun s => ∃ more, s.schemas = schema.schemas ++ more ∧
    ∀ x ∈ more, x.type = .bigint) ?_ ⟨[], by simp, by simp⟩ h
  rintro s so ret s' ⟨more, hmore, htypes⟩ hdata
  rcases parserReadTxtTableData_cases hdata with rfl | ⟨name, rfl⟩
  · exact ⟨more, hmore, htypes⟩
  · refine ⟨more ++ [tableDataInit name .bigint 0], by simp [hmore], ?_⟩
    intro x hx
    rcases List.mem_append.1 hx with hx | hx
    · exact htypes x hx
    · rw [List.mem_singleton.1 hx]
      rfl

/-- The columns of a schema stay in it. -/
lemma readTxtColumns_keeps {items : List (Item UInt8)} {fuel : ℕ} {cur : Bytes}
    (h : readTxtColumns items text so fuel cur schema = .ret schema') :
    schema.schemas <+: schema'.schemas := by
  obtain ⟨more, hmore, -⟩ := readTxtColumns_cases h
  exact ⟨more, hmore.symm⟩

/-- One round of the loop over the columns. -/
lemma readTxtColumns_succ {items : List (Item UInt8)} {fuel a b : ℕ} {cur : Bytes}
    {gs : List (ℕ × ℕ)} (h : regexec items cur = some ((a, b) :: gs)) :
    readTxtColumns items text so (fuel + 1) cur schema =
      parserReadTxtTableData schema text (so + a) >>= fun q =>
        readTxtColumns items text so fuel (cur.drop b) q.2 := by
  rw [readTxtColumns, h]
  rfl

end Read

/-! ### The loops over the columns -/

namespace TxtTable

variable {d : TxtTable} {c : TxtColumn} {cs : List TxtColumn} {schema : Schema} {fuel : ℕ}

lemma drop_head (n : ℕ) : d.text.drop (d.head.length + n) = d.body.drop n := by
  rw [text, List.drop_length_add_append]

lemma drop_opening (n : ℕ) :
    d.body.drop (d.opening.length + n) = (d.first.text ++ d.closing d.others).drop n := by
  rw [body, List.drop_length_add_append]

/-- The first column is read at the beginning of the text. -/
lemma data_start (hc : d.first.type = .bigint) :
    parserReadTxtTableData schema d.text (d.head.length + 0) = schemaAdd schema d.first.data := by
  refine parserReadTxtTableData_eq d.opening (d.closing d.others) hc ?_ regexecFrom_bigint_opening
  rw [drop_head, List.drop_zero, body]

/-- It is read where the column begins. -/
lemma data_first (hc : d.first.type = .bigint) :
    parserReadTxtTableData schema d.text (d.head.length + (d.opening.length + 0)) =
      schemaAdd schema d.first.data := by
  refine parserReadTxtTableData_eq [] (d.closing d.others) hc ?_ rfl
  rw [drop_head, drop_opening, List.drop_zero, List.nil_append]

lemma drop_valStart {s : Bytes} (hc : c.type = .bigint) (hkey : c.key.isSome) :
    (c.text ++ s).drop c.valStart = c.keyText ++ s := by
  obtain ⟨gaps, hkey⟩ := Option.isSome_iff_exists.1 hkey
  have hlen : c.before.bytes.length + c.name.bytes.length + 7 = c.before.bytes.length +
      (c.name.bytes.length + ((ascii " ").length + ((ascii "bigint").length + 0))) := by
    have hblank : (ascii " ").length = 1 := rfl
    have hbigint : (ascii "bigint").length = 6 := rfl
    omega
  rw [TxtColumn.text_append hc, TxtColumn.valStart, hkey]
  simp only [hlen, List.drop_length_add_append, List.drop_zero]

/-- Behind a column of the key the second column is read. -/
lemma data_second (hc : d.first.type = .bigint) (hkey : d.first.key.isSome)
    (hothers : d.others = c :: cs) (hc' : c.type = .bigint) :
    parserReadTxtTableData schema d.text
      (d.head.length + (d.opening.length + d.first.valStart)) = schemaAdd schema c.data := by
  refine parserReadTxtTableData_eq (d.first.keyText ++ ascii ",") (d.closing cs) hc' ?_ ?_
  · rw [drop_head, drop_opening, drop_valStart hc hkey, hothers, closing, List.append_assoc]
  · rw [List.append_assoc, regexecFrom_bigint_key hkey]

lemma notMem_tail {e : UInt8} (he : isSpace e = false) : e ∉ d.tail :=
  notMem_of_class d.tail_isSpace he

/-- Behind the only column nothing is read. -/
lemma data_none (hc : d.first.type = .bigint) (hkey : d.first.key.isSome) (hothers : d.others = []) :
    parserReadTxtTableData schema d.text
      (d.head.length + (d.opening.length + d.first.valStart)) = .ret (.failed, schema) := by
  obtain ⟨⟨g, g'⟩, hgaps⟩ := Option.isSome_iff_exists.1 hkey
  -- the bytes `b` and `v` are not in the text
  have hbyte : ∀ e, isSpace e = false → e ∉ ascii "primary" ++ ascii "key" ++ ascii ");" →
      e ∉ d.first.keyText ++ d.closing [] := by
    have hend : ascii ");" = ascii ")" ++ ascii ";" := rfl
    intro e he hwords
    simp only [hend, List.mem_append, not_or] at hwords
    simp only [TxtColumn.keyText_some hgaps, closing, List.mem_append, not_or]
    exact ⟨Gap.notMem he, hwords.1.1, Gap.notMem he, hwords.1.2, ⟨Gap.notMem he, hwords.2.1⟩,
      hwords.2.2, notMem_tail he⟩
  have hbigint : regexec patternBigint (d.first.keyText ++ d.closing []) = none :=
    regexecFrom_eq_none_of_lit (t := ascii "bigint") (c := 98) (by decide)
      (fun item hitem => List.mem_append_right _ hitem) (hbyte 98 (by decide) (by decide))
  have hvarchar : regexec patternVarchar (d.first.keyText ++ d.closing []) = none :=
    regexecFrom_eq_none_of_lit (t := ascii "varchar(") (c := 118) (by decide)
      (fun item hitem => List.mem_append_left _ (List.mem_append_left _
        (List.mem_append_right _ hitem))) (hbyte 118 (by decide) (by decide))
  rw [parserReadTxtTableData, drop_head, drop_opening, drop_valStart hc hkey, hothers, hbigint]
  simp only [hvarchar]

/-- The loop for the columns without a key, at the first column. -/
lemma val_first (hc : d.first.type = .bigint) :
    readTxtColumns patternVal d.text d.head.length (fuel + 1) d.body schema =
      parserReadTxtTableData schema d.text
        (d.head.length + (d.opening.length + d.first.valStart)) >>= fun q =>
          readTxtColumns patternVal d.text d.head.length fuel (d.after d.others) q.2 := by
  obtain ⟨k, gs, hmatch, hdrop⟩ :=
    TxtColumn.regexecFrom_val hc (d.closing_ends d.others) d.opening.length
  have hregexec : regexec patternVal d.body =
      some ((d.opening.length + d.first.valStart, d.opening.length + k) :: gs) := by
    rw [regexec, body, regexecFrom_val_opening hc, Nat.zero_add, hmatch]
  rw [readTxtColumns_succ hregexec, drop_opening, hdrop]

/-- The loop for the columns without a key, at a later column. -/
lemma val_next (hc : c.type = .bigint) :
    readTxtColumns patternVal d.text d.head.length (fuel + 1) (d.after (c :: cs)) schema =
      parserReadTxtTableData schema d.text (d.head.length + c.valStart) >>= fun q =>
        readTxtColumns patternVal d.text d.head.length fuel (d.after cs) q.2 := by
  obtain ⟨k, gs, hmatch, hdrop⟩ := TxtColumn.regexecFrom_val hc (d.closing_ends cs) 0
  rw [Nat.zero_add, Nat.zero_add] at hmatch
  rw [after, readTxtColumns_succ hmatch, hdrop]

/-- The loop for the columns of the key, at a column of the key that is not the first. -/
lemma key_next (hc : c.type = .bigint) (hkey : c.key.isSome) :
    readTxtColumns patternKey d.text d.head.length (fuel + 1) (d.after (c :: cs)) schema =
      parserReadTxtTableData schema d.text (d.head.length + 0) >>= fun q =>
        readTxtColumns patternKey d.text d.head.length fuel (d.after cs) q.2 := by
  obtain ⟨k, gs, hmatch, hdrop⟩ := TxtColumn.regexecFrom_key hc hkey (d.closing_ends cs) 0
  rw [Nat.zero_add] at hmatch
  rw [after, readTxtColumns_succ hmatch, hdrop]

/-- The loop for the columns of the key, when the first column is one. -/
lemma key_first (hc : d.first.type = .bigint) (hkey : d.first.key.isSome) :
    readTxtColumns patternKey d.text d.head.length (fuel + 1) d.body schema =
      parserReadTxtTableData schema d.text (d.head.length + (d.opening.length + 0)) >>= fun q =>
        readTxtColumns patternKey d.text d.head.length fuel (d.after d.others) q.2 := by
  obtain ⟨k, gs, hmatch, hdrop⟩ :=
    TxtColumn.regexecFrom_key hc hkey (d.closing_ends d.others) d.opening.length
  have hregexec : regexec patternKey d.body =
      some ((d.opening.length + 0, d.opening.length + k) :: gs) := by
    rw [regexec, body, regexecFrom_key_opening hc, Nat.zero_add, hmatch, Nat.add_zero]
  rw [readTxtColumns_succ hregexec, drop_opening, hdrop]

/-- A first column without a key is passed. -/
lemma regexecFrom_key_second (hc : d.first.type = .bigint) (hkey : d.first.key = none)
    (hothers : d.others = c :: cs) (hc' : c.type = .bigint) :
    ∃ n, regexecFrom patternKey d.body 0 = regexecFrom patternKey (c.text ++ d.closing cs) n ∧
      ∀ k, d.body.drop (n + k) = (c.text ++ d.closing cs).drop k := by
  have hz : Run (! isSpace ·) (ascii "bigint" ++ ascii ",") := ⟨by decide, List.all_eq_true.1 rfl⟩
  have htext : d.first.text ++ d.closing d.others = d.first.before.bytes ++ (d.first.name.bytes ++
      (ascii " " ++ ((ascii "bigint" ++ ascii ",") ++ (c.text ++ d.closing cs)))) := by
    rw [TxtColumn.text_append hc, TxtColumn.keyText_none hkey, hothers, closing,
      List.append_assoc (ascii "bigint")]
  refine ⟨(d.opening ++ d.first.before.bytes ++ d.first.name.bytes ++ ascii " " ++
    ascii "bigint" ++ ascii ",").length, ?_, fun k => ?_⟩
  · have hpass : regexecFrom patternKey (d.first.text ++ d.closing d.others) d.opening.length =
        regexecFrom patternKey (ascii " " ++ ((ascii "bigint" ++ ascii ",") ++
          (c.text ++ d.closing cs)))
          (d.opening.length + d.first.before.bytes.length + d.first.name.bytes.length) := by
      rw [htext, TxtColumn.text_append hc']
      exact regexecFrom_key_append d.first.before.run.mem d.first.name.run run_space hz c.before.run
        (c.name.run.head? isSpace_of_isWord) (ways_primary_column c _)
    rw [body, regexecFrom_key_opening hc, Nat.zero_add, hpass, List.append_assoc, comma_append,
      regexecFrom_key_end run_space.mem run_bigint (by decide) (by decide), patternKey_eq,
      ← List.nil_append (44 :: _), regexecFrom_column_append (by simp) (by decide) (by decide)]
    congr 1
    have hlen : (ascii ",").length = 1 := rfl
    simp only [List.length_append, List.length_nil, hlen]
  · have hbody : d.body = (d.opening ++ d.first.before.bytes ++ d.first.name.bytes ++ ascii " " ++
        ascii "bigint" ++ ascii ",") ++ (c.text ++ d.closing cs) := by
      rw [body, htext]
      simp only [List.append_assoc]
    rw [hbody, List.drop_length_add_append]

/-- The loop for the columns of the key, when the second column is the first one of the key. -/
lemma key_second (fuel : ℕ) (schema : Schema) (hc : d.first.type = .bigint) (hkey : d.first.key = none)
    (hothers : d.others = c :: cs) (hc' : c.type = .bigint) (hkey' : c.key.isSome) :
    ∃ a, readTxtColumns patternKey d.text d.head.length (fuel + 1) d.body schema =
      parserReadTxtTableData schema d.text (d.head.length + a) >>= fun q =>
        readTxtColumns patternKey d.text d.head.length fuel (d.after cs) q.2 := by
  obtain ⟨n, hpass, hrest⟩ := regexecFrom_key_second hc hkey hothers hc'
  obtain ⟨k, gs, hmatch, hdrop⟩ := TxtColumn.regexecFrom_key hc' hkey' (d.closing_ends cs) n
  exact ⟨n, by rw [readTxtColumns_succ (hpass.trans hmatch), hrest, hdrop]⟩

/-- Without a column of the key there is no match. -/
lemma key_none (hc : d.first.type = .bigint) (hkey : d.first.key = none) (hothers : d.others = []) :
    readTxtColumns patternKey d.text d.head.length (fuel + 1) d.body schema = .ret schema := by
  have hz : Run (! isSpace ·) (ascii "bigint") := run_ascii (by decide)
  have hbracket : ∀ r, ascii ")" ++ r = 41 :: r := fun r => rfl
  have hnone : regexec patternKey d.body = none := by
    rw [regexec, body, regexecFrom_key_opening hc, hothers, TxtColumn.text_append hc,
      TxtColumn.keyText_none hkey, closing, List.append_assoc, hbracket,
      regexecFrom_key_append d.first.before.run.mem d.first.name.run run_space hz d.last.run
        (by simp [isSpace]) (ways_primary_other (by simp))]
    -- the byte `p` is not in what is left
    refine regexecFrom_eq_none_of_lit (t := ascii "primary") (c := 112) (by decide) ?_ ?_
    · intro item hitem
      rw [patternKey_eq]
      simp only [List.mem_cons, List.mem_append, hitem, true_or, or_true]
    · simp only [List.mem_append, List.mem_cons, not_or]
      exact ⟨by decide, by decide, Gap.notMem rfl, by decide, by decide,
        notMem_tail rfl⟩
  rw [readTxtColumns, hnone]

/-- Both loops end behind the last column. -/
lemma columns_end {items : List (Item UInt8)} (hitems : .one isColumnEnd ∈ items) :
    readTxtColumns items d.text d.head.length (fuel + 1) (d.after []) schema = .ret schema := by
  have hnone : regexec items (d.after []) = none := by
    refine regexecFrom_eq_none_of_one hitems fun e he => ?_
    rcases List.mem_append.1 he with he | he
    · obtain rfl : e = 59 := List.mem_singleton.1 he
      decide
    · exact isColumnEnd_of_isSpace (d.tail_isSpace e he)
  rw [readTxtColumns, hnone]

end TxtTable

end CheckQ
