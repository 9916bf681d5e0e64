import CheckQ.Mylib.HashFunc
import CheckQ.Parser.TxtTable

/-!
# Reading table definitions back

The lines of a definition are read to one block, the table name is found in it, and the two loops
over the columns are run.  A definition with more than one column is misread within its first
three columns: the value loop or the key loop takes the first column again.
-/

namespace CheckQ

open Regex

/-! ### Reading the text -/

lemma zero_notMem_word {w : Word} : (0 : UInt8) ∉ w.bytes :=
  notMem_of_class w.run.mem rfl

lemma TxtColumn.zero_notMem_text (c : TxtColumn) : (0 : UInt8) ∉ c.text := by
  have hgap : ∀ g : Gap, (0 : UInt8) ∉ g.bytes := fun g => Gap.notMem rfl
  have htype : (0 : UInt8) ∉ c.type.text := by
    cases c.type with
    | bigint => decide
    | varchar len =>
        have hdecimal : (0 : UInt8) ∉ decimal len :=
          notMem_of_class (decimal_spec len).1 rfl
        simp only [TxtType.text, List.mem_append, not_or]
        exact ⟨⟨by decide, hdecimal⟩, by decide⟩
  have hkey : (0 : UInt8) ∉ c.keyText := by
    rw [TxtColumn.keyText]
    split
    · simp
    · simp only [List.mem_append, not_or]
      exact ⟨⟨⟨hgap _, by decide⟩, hgap _⟩, by decide⟩
  simp only [TxtColumn.text, List.mem_append, not_or]
  exact ⟨⟨⟨⟨hgap _, zero_notMem_word⟩, by decide⟩, htype⟩, hkey⟩

lemma TxtTable.zero_notMem_text (d : TxtTable) : (0 : UInt8) ∉ d.text := by
  have hgap : ∀ g : Gap, (0 : UInt8) ∉ g.bytes := fun g => Gap.notMem rfl
  have hclosing : ∀ cs, (0 : UInt8) ∉ d.closing cs := by
    intro cs
    induction cs with
    | nil =>
        simp only [closing, List.mem_append, not_or]
        exact ⟨⟨hgap _, by decide⟩, by decide, notMem_tail rfl⟩
    | cons c cs ih =>
        simp only [closing, List.mem_append, not_or]
        exact ⟨by decide, c.zero_notMem_text, ih⟩
  simp only [text, body, head, opening, List.mem_append, not_or]
  exact ⟨⟨⟨⟨by decide, hgap _⟩, by decide⟩, hgap _⟩, ⟨⟨zero_notMem_word, hgap _⟩, by decide⟩,
    d.first.zero_notMem_text, hclosing _⟩

/-- The lines of a definition are read, or they do not fit. -/
lemma readATable_lines {lines : List Bytes} (rest : List Bytes) (t : Bytes) (size : ℕ)
    (hzero : ∀ line ∈ lines, (0 : UInt8) ∉ line)
    (hlast : ∃ line, lines.getLast? = some line ∧ ascii ");" <:+: line)
    (hothers : ∀ line ∈ lines.dropLast, ¬ascii ");" <:+: line) (t' : Bytes) (file : List Bytes) :
    readATable (lines ++ rest) t size = .ret (some t', file) ↔
      FitsBlock lines t.length size ∧ t' = t ++ lines.flatten ∧ file = rest := by
  induction lines generalizing t size with
  | nil => simp at hlast
  | cons line lines ih =>
      have hbuf : line.takeWhile (· ≠ 0) = line := by
        refine List.takeWhile_eq_self_iff.2 fun c hc => ?_
        simpa using fun h : c = 0 => hzero line List.mem_cons_self (h ▸ hc)
      have hzero' : ∀ l ∈ lines, (0 : UInt8) ∉ l := fun l hl => hzero l (List.mem_cons_of_mem line hl)
      -- what happens behind a line that fits, for the size of the block then
      have hrest : ∀ size', (if (regexec patternTableEnd line).isSome then
            Outcome.ret (some (t ++ line), lines ++ rest)
          else readATable (lines ++ rest) (t ++ line) size') = .ret (some t', file) ↔
          FitsBlock lines (t.length + line.length) size' ∧ t' = t ++ (line :: lines).flatten ∧
            file = rest := by
        intro size'
        cases lines with
        | nil =>
            obtain ⟨last, hline, hinfix⟩ := hlast
            obtain rfl : line = last := by simpa using hline
            rw [if_pos (patternTableEnd_isSome.2 hinfix)]
            simp [FitsBlock, eq_comm]
        | cons l lines =>
            have hinfix : ¬ascii ");" <:+: line := hothers line (by simp)
            rw [if_neg (mt patternTableEnd_isSome.1 hinfix),
              ih (t ++ line) size' hzero' (by simpa using hlast)
                (fun l' hl' => hothers l' (by simp [hl']))]
            simp [List.append_assoc]
      rw [List.cons_append, readATable, FitsBlock]
      simp only [hbuf, List.length_append]
      by_cases hroom : t.length + line.length < size
      · rw [if_neg (by omega), and_iff_right hroom]
        by_cases hfull : t.length + line.length + configMaxLength ≥ size
        · simp only [hfull, if_true, true_and]
          by_cases hmax : size * 2 > 1024 * configMaxLength
          · rw [if_pos hmax]
            exact iff_of_false (by simp) fun h => by omega
          · rw [if_neg hmax, hrest, and_assoc, and_iff_right (not_lt.1 hmax)]
        · simp only [hfull, if_false, false_and]
          exact hrest size
      · rw [if_pos (by omega)]
        exact iff_of_false (by simp) fun h => hroom h.1.1

/-- The items of the pattern behind the opening bracket. -/
def innerItems : List (Item UInt8) :=
  .opening :: .plus (fun _ => true) :: .closing :: (lit (ascii ");") ++ [])

lemma patternTableName_eq : patternTableName = lit (ascii "create") ++ (.plus isSpace ::
    (lit (ascii "table") ++ (.plus isSpace :: .opening :: .plus isWord :: .closing ::
      .star isSpace :: (lit (ascii "(") ++ innerItems)))) := rfl

namespace TxtTable

variable {d : TxtTable}

lemma exists_inner (d : TxtTable) : ∃ a, a ≠ [] ∧
    d.first.text ++ d.closing d.others = a ++ (ascii ");" ++ d.tail) := by
  have hclosing : ∀ cs, ∃ a, d.closing cs = a ++ (ascii ");" ++ d.tail) := by
    intro cs
    induction cs with
    | nil =>
        have hend : ascii ");" = ascii ")" ++ ascii ";" := rfl
        exact ⟨d.last.bytes, by rw [closing, hend, List.append_assoc, List.append_assoc]⟩
    | cons c cs ih =>
        obtain ⟨a, ha⟩ := ih
        exact ⟨ascii "," ++ (c.text ++ a), by rw [closing, ha]; simp only [List.append_assoc]⟩
  obtain ⟨a, ha⟩ := hclosing d.others
  refine ⟨d.first.text ++ a, ?_, by rw [ha, List.append_assoc]⟩
  simp [TxtColumn.text, d.first.before.run.ne_nil]

/-- The ways to match a definition differ in what is taken for its columns. -/
lemma ways_tableName (d : TxtTable) (r : Bytes) : ways patternTableName (d.head ++ (d.opening ++ r)) =
    (ways innerItems r).map fun w => List.replicate 6 1 ++ (d.afterCreate.bytes.length ::
      (List.replicate 5 1 ++ (d.afterTable.bytes.length :: 0 :: d.name.bytes.length :: 0 ::
        d.afterName.bytes.length :: (List.replicate 1 1 ++ w)))) := by
  have htable : Run isWord (ascii "table") := run_ascii (by decide)
  have hbracket : Run (! isSpace ·) (ascii "(") := run_ascii (by decide)
  simp only [head, opening, List.append_assoc]
  rw [patternTableName_eq, ways_lit_append, ways_plus_append d.afterCreate.run.ne_nil
      d.afterCreate.run.mem (htable.head? isSpace_of_isWord) fun c hc =>
      notFirst_word htable.notSpace (d.afterCreate.run.mem c hc),
    ways_lit_append, ways_plus_append d.afterTable.run.ne_nil d.afterTable.run.mem
      (d.name.run.head? isSpace_of_isWord) fun c hc =>
      notFirst_opening (notFirst_plus (isWord_of_isSpace (d.afterTable.run.mem c hc))),
    ways, ways_plus_append d.name.run.ne_nil d.name.run.mem
      (d.afterName.run.head? isWord_of_isSpace) ?_,
    ways, ways_star_append d.afterName.run.mem (hbracket.head? fun hc => by simpa using hc)
      fun c hc => notFirst_word hbracket (d.afterName.run.mem c hc), ways_lit_append]
  · simp only [List.map_map]
    rfl
  · intro c hc
    have hword := d.name.run.mem c hc
    refine notFirst_closing (notFirst_star (isSpace_of_isWord hword) (notFirst_lit ?_))
    rintro rfl
    exact absurd hword (by decide)

/-- The first subexpression of the pattern is the name of the table. -/
lemma regexec_tableName (d : TxtTable) : ∃ m, regexec patternTableName d.text = some m ∧
    group m 1 = (d.head.length, d.head.length + d.name.bytes.length) := by
  obtain ⟨a, hne, ha⟩ := d.exists_inner
  have hinner : ways innerItems (d.first.text ++ d.closing d.others) ≠ [] := by
    rw [ha]
    refine List.ne_nil_of_mem (mem_ways_opening.2 ⟨_, mem_ways_plus.2 ⟨a, _, _, rfl, hne,
      fun _ _ => rfl, mem_ways_closing.2 ⟨_, mem_ways_lit.2 ⟨d.tail, [], rfl, ?_, rfl⟩, rfl⟩, rfl⟩,
      rfl⟩)
    exact mem_ways_nil.2 rfl
  have hways : ways patternTableName d.text = _ := d.ways_tableName _
  obtain ⟨w, hw, hmatch⟩ := regexecFrom_of_ways 0 (mt (hways ▸ List.map_eq_nil_iff.1) hinner)
  refine ⟨_, hmatch, ?_⟩
  rw [hways, List.mem_map] at hw
  obtain ⟨w, -, rfl⟩ := hw
  have hhead : d.head.length = 6 + d.afterCreate.bytes.length + 5 + d.afterTable.bytes.length := by
    have hcreate : (ascii "create").length = 6 := rfl
    have htable : (ascii "table").length = 5 := rfl
    simp only [head, List.length_append, hcreate, htable]
  rw [hhead]
  rfl

end TxtTable

/-! ### The schema that is read -/

lemma TxtColumn.type_of_data {c : TxtColumn} (h : c.data.type = .bigint) : c.type = .bigint := by
  rw [TxtColumn.data] at h
  split at h
  · assumption
  · simp [tableDataInit] at h

namespace TxtTable

variable {d : TxtTable} {c c₂ c₃ : TxtColumn} {cs : List TxtColumn}

/-- The names of the columns tell them apart. -/
lemma eq_of_data {c' : TxtColumn} (hc : c ∈ d.columns) (hc' : c' ∈ d.columns)
    (h : c'.data = c.data) : c' = c := by
  have hname : ∀ c : TxtColumn, c.data.name = c.name.bytes := by
    intro c
    rw [TxtColumn.data]
    split <;> rfl
  refine List.inj_on_of_nodup_map d.nodup hc' hc ?_
  rw [← hname c', ← hname c, h]

lemma key_of_mem_keys (hc : c ∈ d.columns) (h : c.data ∈ d.keys) : c.key.isSome := by
  obtain ⟨c', hc', hdata⟩ := List.mem_map.1 h
  obtain ⟨hmem, hkey⟩ := List.mem_filter.1 hc'
  exact eq_of_data hc hmem hdata ▸ hkey

lemma key_of_mem_vals (hc : c ∈ d.columns) (h : c.data ∈ d.vals) : c.key = none := by
  obtain ⟨c', hc', hdata⟩ := List.mem_map.1 h
  obtain ⟨hmem, hkey⟩ := List.mem_filter.1 hc'
  exact Option.isNone_iff_eq_none.1 (eq_of_data hc hmem hdata ▸ hkey)

lemma nodup_vals : d.vals.Nodup := by
  have hcolumns : d.columns.Nodup := List.Nodup.of_map _ d.nodup
  refine List.Nodup.map_on ?_ (hcolumns.filter _)
  intro c hc c' hc' h
  exact eq_of_data (List.mem_of_mem_filter hc') (List.mem_of_mem_filter hc) h

/-- The two loops. -/
lemma parserReadTxtTableSchema_eq : parserReadTxtTableSchema d.text d.head.length = (do
    let keySchema ← readTxtColumns patternKey d.text d.head.length (d.body.length + 1) d.body schemaInit
    let valSchema ← readTxtColumns patternVal d.text d.head.length (d.body.length + 1) d.body schemaInit
    return tableSchemaInit keySchema valSchema) := by
  have hdrop : d.text.drop d.head.length = d.body := drop_head 0
  rw [parserReadTxtTableSchema, hdrop]

/-- There are rounds for the first three columns. -/
lemma exists_rounds (d : TxtTable) : ∃ n, d.body.length = n + 3 := by
  have hname := List.length_pos_iff.2 d.name.run.ne_nil
  have hgap := List.length_pos_iff.2 d.afterName.run.ne_nil
  have hbracket : (ascii "(").length = 1 := rfl
  refine ⟨d.body.length - 3, ?_⟩
  simp only [body, opening, List.length_append, hbracket]
  omega

lemma schemaAdd_init (x : TableData) : schemaAdd schemaInit x = .ret (.succeed, ⟨[x], 100⟩) :=
  schemaAdd_eq (by simp) x

/-- A definition of one `bigint` column is read back. -/
lemma schema_one (hothers : d.others = []) (hc : d.first.type = .bigint) :
    ∃ schema, parserReadTxtTableSchema d.text d.head.length = .ret schema ∧
      schema.keySchema.schemas = d.keys ∧ schema.valSchema.schemas = d.vals := by
  obtain ⟨n, hn⟩ := d.exists_rounds
  have hval : Item.one isColumnEnd ∈ patternVal := by simp [patternVal_eq]
  have hkey : Item.one isColumnEnd ∈ patternKey := by simp [patternKey_eq, keyItems]
  rw [parserReadTxtTableSchema_eq, hn]
  cases hfirst : d.first.key with
  | none =>
      have hstart : d.first.valStart = 0 := by rw [TxtColumn.valStart, hfirst]
      refine ⟨⟨⟨[], 100⟩, ⟨[d.first.data], 100⟩⟩, ?_, ?_, ?_⟩
      · rw [key_none hc hfirst hothers, Outcome.ret_bind, val_first hc, hstart, data_first hc,
          schemaAdd_init, Outcome.ret_bind, hothers, columns_end hval]
        rfl
      · simp [keys, columns, hothers, hfirst]
      · simp [vals, columns, hothers, hfirst]
  | some gaps =>
      have hsome : d.first.key.isSome := by rw [hfirst, Option.isSome_some]
      refine ⟨⟨⟨[d.first.data], 100⟩, ⟨[], 100⟩⟩, ?_, ?_, ?_⟩
      · rw [key_first hc hsome, data_first hc, schemaAdd_init, Outcome.ret_bind, hothers,
          columns_end hkey, Outcome.ret_bind, val_first hc, data_none hc hsome hothers,
          Outcome.ret_bind, hothers, columns_end hval]
        rfl
      · simp [keys, columns, hothers, hfirst]
      · simp [vals, columns, hothers, hfirst]

/-- At the place where the second column, one of the key, sends the reader to, there is a column. -/
lemma data_shifted (schema : Schema) (hfirst : d.first.type = .bigint)
    (hothers : d.others = c :: cs) (hc : c.type = .bigint)
    (hkey : c.key.isSome) (hroom : schema.schemas.length < 100) (hcap : schema.capacity = 100) :
    ∃ name, parserReadTxtTableData schema d.text (d.head.length + c.valStart) =
      .ret (.succeed, ⟨schema.schemas ++ [tableDataInit name .bigint 0], 100⟩) := by
  obtain ⟨gaps, hkey⟩ := Option.isSome_iff_exists.1 hkey
  obtain ⟨u, e, hname⟩ := (List.eq_nil_or_concat' c.name.bytes).resolve_left c.name.run.ne_nil
  have he : Run isWord [e] := c.name.run.suffix (by simp) ⟨u, hname.symm⟩
  -- the last byte of the name and the type are behind that place
  have hbody : d.body = (d.opening ++ d.first.text ++ ascii "," ++ c.before.bytes ++ u) ++
      ([e] ++ (ascii " " ++ (ascii "bigint" ++ (c.keyText ++ d.closing cs)))) := by
    rw [body, hothers, closing, TxtColumn.text_append hc, hname]
    simp only [List.append_assoc]
  have hplace : c.valStart ≤
      (d.opening ++ d.first.text ++ ascii "," ++ c.before.bytes ++ u).length := by
    have htext : d.first.text.length ≥ 6 := by
      have hbigint : (ascii "bigint").length = 6 := rfl
      rw [← List.append_nil d.first.text, TxtColumn.text_append hfirst]
      simp only [List.length_append, hbigint]
      omega
    have hcomma : (ascii ",").length = 1 := rfl
    have hbracket : (ascii "(").length = 1 := rfl
    have hlen : c.name.bytes.length = u.length + 1 := by rw [hname, List.length_append]; rfl
    rw [TxtColumn.valStart, hkey]
    simp only [opening, List.length_append, hcomma, hbracket]
    omega
  refine parserReadTxtTableData_adds (t := [e] ++ (ascii " " ++ (ascii "bigint" ++
    (c.keyText ++ d.closing cs)))) ?_ ?_ hroom hcap
  · rw [drop_head, hbody, List.drop_append_of_le_length hplace]
    exact List.suffix_append _ _
  · rw [ways_bigint_column he run_space]
    exact List.cons_ne_nil _ _

variable {n : ℕ} {keySchema valSchema : Schema}

/-- Only columns of type `bigint` are read. -/
lemma type_of_read
    (hkey : readTxtColumns patternKey d.text d.head.length (n + 3 + 1) d.body schemaInit =
      .ret keySchema)
    (hval : readTxtColumns patternVal d.text d.head.length (n + 3 + 1) d.body schemaInit =
      .ret valSchema)
    (hkeys : keySchema.schemas = d.keys) (hvals : valSchema.schemas = d.vals)
    (hc : c ∈ d.columns) : c.type = .bigint := by
  obtain ⟨keys, hkeys', hkeyTypes⟩ := readTxtColumns_cases hkey
  obtain ⟨vals, hvals', hvalTypes⟩ := readTxtColumns_cases hval
  refine TxtColumn.type_of_data ?_
  cases hc' : c.key with
  | none =>
      have hmem : c.data ∈ d.vals :=
        List.mem_map_of_mem (List.mem_filter.2 ⟨hc, by rw [hc', Option.isNone_none]⟩)
      rw [← hvals, hvals'] at hmem
      exact hvalTypes _ hmem
  | some gaps =>
      have hmem : c.data ∈ d.keys :=
        List.mem_map_of_mem (List.mem_filter.2 ⟨hc, by rw [hc', Option.isSome_some]⟩)
      rw [← hkeys, hkeys'] at hmem
      exact hkeyTypes _ hmem

/-- A first column of the key becomes a column without a key, or the second one does. -/
lemma not_read_key
    (hval : readTxtColumns patternVal d.text d.head.length (n + 3 + 1) d.body schemaInit =
      .ret valSchema)
    (hvals : valSchema.schemas = d.vals) (hc : d.first.type = .bigint)
    (hkey₁ : d.first.key.isSome) (hothers : d.others = c :: cs) (hc₂ : c.type = .bigint) :
    False := by
  rw [val_first hc, data_second hc hkey₁ hothers hc₂, schemaAdd_init, Outcome.ret_bind, hothers]
    at hval
  have hsecond : c.data ∈ d.vals := hvals ▸ (readTxtColumns_keeps hval).subset (by simp)
  have hkey₂ := key_of_mem_vals (by simp [columns, hothers]) hsecond
  have hstart : c.valStart = 0 := by rw [TxtColumn.valStart, hkey₂]
  rw [val_next hc₂, hstart, data_start hc, schemaAdd_eq (by simp), Outcome.ret_bind] at hval
  have hfirst : d.first.data ∈ d.vals := hvals ▸ (readTxtColumns_keeps hval).subset (by simp)
  rw [key_of_mem_vals (by simp [columns]) hfirst] at hkey₁
  simp at hkey₁

/-- A first column without a key is read as a column of the key for the second column of the
key. -/
lemma not_read_keys
    (hkey : readTxtColumns patternKey d.text d.head.length (n + 3 + 1) d.body schemaInit =
      .ret keySchema)
    (hkeys : keySchema.schemas = d.keys) (hc : d.first.type = .bigint) (hkey₁ : d.first.key = none)
    (hothers : d.others = c₂ :: c₃ :: cs) (hc₂ : c₂.type = .bigint) (hsome₂ : c₂.key.isSome)
    (hc₃ : c₃.type = .bigint) (hsome₃ : c₃.key.isSome) : False := by
  obtain ⟨a, hround⟩ := key_second (n + 3) schemaInit hc hkey₁ hothers hc₂ hsome₂
  rw [hround] at hkey
  obtain ⟨⟨ret, schema⟩, hdata, hkey⟩ := Outcome.bind_eq_ret.1 hkey
  rw [key_next hc₃ hsome₃, data_start hc] at hkey
  have hfirst : d.first.data ∈ d.keys := by
    rw [← hkeys]
    rcases parserReadTxtTableData_cases hdata with rfl | ⟨name, rfl⟩
    · rw [schemaAdd_init, Outcome.ret_bind] at hkey
      exact (readTxtColumns_keeps hkey).subset (by simp)
    · rw [schemaInit, schemaAdd_eq (by simp), Outcome.ret_bind] at hkey
      exact (readTxtColumns_keeps hkey).subset (by simp)
  have hsome₁ := key_of_mem_keys (by simp [columns]) hfirst
  simp [hkey₁] at hsome₁

/-- A first column without a key is read again for the next column without one. -/
lemma not_read_val
    (hkey : readTxtColumns patternKey d.text d.head.length (n + 3 + 1) d.body schemaInit =
      .ret keySchema)
    (hval : readTxtColumns patternVal d.text d.head.length (n + 3 + 1) d.body schemaInit =
      .ret valSchema)
    (hkeys : keySchema.schemas = d.keys) (hvals : valSchema.schemas = d.vals)
    (htypes : ∀ c ∈ d.columns, c.type = .bigint) (hkey₁ : d.first.key = none)
    (hothers : d.others = c₂ :: cs) : False := by
  have hc : d.first.type = .bigint := htypes _ (by simp [columns])
  have hc₂ : c₂.type = .bigint := htypes _ (by simp [columns, hothers])
  have hstart₁ : d.first.valStart = 0 := by rw [TxtColumn.valStart, hkey₁]
  rw [val_first hc, hstart₁, data_first hc, schemaAdd_init, Outcome.ret_bind, hothers,
    val_next hc₂] at hval
  cases hkey₂ : c₂.key with
  | none =>
      have hstart₂ : c₂.valStart = 0 := by rw [TxtColumn.valStart, hkey₂]
      rw [hstart₂, data_start hc, schemaAdd_eq (by simp), Outcome.ret_bind] at hval
      have hnodup := (readTxtColumns_keeps hval).sublist.nodup (hvals ▸ nodup_vals)
      simp at hnodup
  | some gaps =>
      have hsome₂ : c₂.key.isSome := by rw [hkey₂, Option.isSome_some]
      obtain ⟨name, hdata⟩ := data_shifted ⟨[d.first.data], 100⟩ hc hothers hc₂ hsome₂ (by simp) rfl
      rw [hdata, Outcome.ret_bind] at hval
      cases cs with
      | nil =>
          have hlen := (readTxtColumns_keeps hval).length_le
          rw [hvals] at hlen
          simp [vals, columns, hothers, hkey₁, hkey₂] at hlen
      | cons c₃ cs =>
          have hc₃ : c₃.type = .bigint := htypes _ (by simp [columns, hothers])
          cases hkey₃ : c₃.key with
          | none =>
              have hstart₃ : c₃.valStart = 0 := by rw [TxtColumn.valStart, hkey₃]
              rw [val_next hc₃, hstart₃, data_start hc, schemaAdd_eq (by simp),
                Outcome.ret_bind] at hval
              have hnodup := (readTxtColumns_keeps hval).sublist.nodup (hvals ▸ nodup_vals)
              simp at hnodup
          | some gaps' =>
              have hsome₃ : c₃.key.isSome := by rw [hkey₃, Option.isSome_some]
              exact not_read_keys hkey hkeys hc hkey₁ hothers hc₂ hsome₂ hc₃ hsome₃

/-- A definition is read back when it has one column and that is a `bigint`. -/
lemma schema_read_iff : (∃ schema, parserReadTxtTableSchema d.text d.head.length = .ret schema ∧
      schema.keySchema.schemas = d.keys ∧ schema.valSchema.schemas = d.vals) ↔
    d.others = [] ∧ d.first.type = .bigint := by
  constructor
  · rintro ⟨schema, h, hkeys, hvals⟩
    obtain ⟨n, hn⟩ := d.exists_rounds
    rw [parserReadTxtTableSchema_eq, hn] at h
    obtain ⟨keySchema, hkey, h⟩ := Outcome.bind_eq_ret.1 h
    obtain ⟨valSchema, hval, h⟩ := Outcome.bind_eq_ret.1 h
    obtain rfl := Outcome.ret.inj h
    have htypes : ∀ c ∈ d.columns, c.type = .bigint :=
      fun c hc => type_of_read hkey hval hkeys hvals hc
    have hc : d.first.type = .bigint := htypes d.first (by simp [columns])
    refine ⟨?_, hc⟩
    by_contra hne
    obtain ⟨c₂, cs, hothers⟩ := List.exists_cons_of_ne_nil hne
    have hc₂ : c₂.type = .bigint := htypes c₂ (by simp [columns, hothers])
    cases hkey₁ : d.first.key with
    | none => exact not_read_val hkey hval hkeys hvals htypes hkey₁ hothers
    | some gaps => exact not_read_key hval hvals hc (by simp [hkey₁]) hothers hc₂
  · rintro ⟨hothers, hc⟩
    exact schema_one hothers hc

end TxtTable

/-! ### The whole definition -/

section Definition

variable {probe : Bytes → UInt64 → UInt64} {fuel : ℕ} {d : TxtTable} {lines rest : List Bytes}
  {heap : List TableSchema} {tableSet : HashT TableT}

lemma parserReadATable_iff (hlines : WrittenOn d.text lines) (text : Bytes) (file : List Bytes) :
    parserReadATable (lines ++ rest) = .ret (some text, file) ↔
      FitsBlock lines 0 (8 * configMaxLength) ∧ text = d.text ∧ file = rest := by
  have hzero : ∀ line ∈ lines, (0 : UInt8) ∉ line := by
    intro line hline hmem
    refine d.zero_notMem_text ?_
    rw [← hlines.flatten]
    exact List.mem_flatten_of_mem hline hmem
  rw [parserReadATable, readATable_lines rest [] _ hzero hlines.ending hlines.others,
    List.nil_append, hlines.flatten, List.length_nil]

/-- What `parser_read_txt_table` does with a definition that fits. -/
lemma parserReadTxtTable_fits (hlines : WrittenOn d.text lines)
    (hfits : FitsBlock lines 0 (8 * configMaxLength)) :
    parserReadTxtTable probe fuel (lines ++ rest) heap tableSet = (do
      let schema ← parserReadTxtTableSchema d.text d.head.length
      let (ret, tableSet) ← tableSetAdd probe fuel tableSet (tableInit d.name.bytes heap.length)
      return (ret, rest, heap ++ [schema], tableSet)) := by
  obtain ⟨m, hmatch, hgroup⟩ := d.regexec_tableName
  have hname : substring d.text (group m 1) = d.name.bytes := by
    rw [hgroup, substring, TxtTable.text, TxtTable.body, TxtTable.opening, List.append_assoc,
      List.append_assoc, ← List.append_assoc d.head, ← List.length_append, List.take_left,
      List.drop_left]
  rw [parserReadTxtTable, (parserReadATable_iff hlines d.text rest).2 ⟨hfits, rfl, rfl⟩,
    Outcome.ret_bind]
  simp only [hmatch, hname]
  rw [hgroup]

/-- A definition that does not fit adds no table. -/
lemma fits_of_read (hlines : WrittenOn d.text lines) {ret : RetT} {file : List Bytes}
    {schema : TableSchema} {tableSet' : HashT TableT}
    (h : parserReadTxtTable probe fuel (lines ++ rest) heap tableSet =
      .ret (ret, file, heap ++ [schema], tableSet')) :
    FitsBlock lines 0 (8 * configMaxLength) := by
  rw [parserReadTxtTable] at h
  obtain ⟨⟨text, file'⟩, hread, h⟩ := Outcome.bind_eq_ret.1 h
  cases text with
  | none => simp at h
  | some text => exact ((parserReadATable_iff hlines text file').1 hread).1

end Definition

/-- A table definition is read back just when it has one column, of type `bigint`, the lines it
is on fit in the block they are read to, and the table set takes the table. -/
theorem txt_table_read_back_iff (probe : Bytes → UInt64 → UInt64) (fuel : ℕ) (d : TxtTable)
    (heap : List TableSchema) (tableSet : HashT TableT) (lines rest : List Bytes)
    (hlines : WrittenOn d.text lines) :
    ReadsBack probe fuel d heap tableSet lines rest ↔
      (d.others = [] ∧ d.first.type = .bigint) ∧ FitsBlock lines 0 (8 * configMaxLength) ∧
        ∃ tableSet', TakesTable probe fuel d heap tableSet tableSet' := by
  rw [← TxtTable.schema_read_iff]
  constructor
  · rintro ⟨schema, tableSet', htakes, hread, hkeys, hvals⟩
    have hfits := fits_of_read hlines hread
    refine ⟨⟨schema, ?_, hkeys, hvals⟩, hfits, tableSet', htakes⟩
    rw [parserReadTxtTable_fits hlines hfits] at hread
    obtain ⟨schema', hschema, hread⟩ := Outcome.bind_eq_ret.1 hread
    obtain ⟨q, -, hread⟩ := Outcome.bind_eq_ret.1 hread
    have heap_eq : heap ++ [schema'] = heap ++ [schema] :=
      (Prod.mk.inj (Prod.mk.inj (Prod.mk.inj (Outcome.ret.inj hread)).2).2).1
    obtain rfl : schema' = schema := by simpa using heap_eq
    exact hschema
  · rintro ⟨⟨schema, hschema, hkeys, hvals⟩, hfits, tableSet', htakes⟩
    refine ⟨schema, tableSet', htakes, ?_, hkeys, hvals⟩
    rw [parserReadTxtTable_fits hlines hfits, hschema, Outcome.ret_bind]
    rw [TakesTable] at htakes
    rw [htakes]
    rfl

/-- A gap that is written down. -/
def Gap.ofAscii (w : String) (h : ascii w ≠ [] ∧ (ascii w).all CheckQ.isSpace = true) : Gap :=
  ⟨ascii w, run_ascii h⟩

/-- A name that is written down. -/
def Word.ofAscii (w : String) (h : ascii w ≠ [] ∧ (ascii w).all CheckQ.isWord = true) : Word :=
  ⟨ascii w, run_ascii h⟩

/-- A blank. -/
def blank : Gap := .ofAscii " " (by decide)

/-- A line break and the indentation of `config.txt.example`. -/
def indent : Gap := .ofAscii "\n    " (by decide)

/-- A line break. -/
def lineBreak : Gap := .ofAscii "\n" (by decide)

/-- The column `a bigint primary key` of `config.txt.example`. -/
def keyColumn : TxtColumn :=
  ⟨indent, .ofAscii "a" (by decide), .bigint, some (blank, blank)⟩

/-- The table of `config.txt.example` with some other columns behind `a`. -/
def exampleTable (others : List TxtColumn)
    (h : ((keyColumn :: others).map fun c => c.name.bytes).Nodup) : TxtTable where
  afterCreate := blank
  afterTable := blank
  name := .ofAscii "test" (by decide)
  afterName := lineBreak
  first := keyColumn
  others := others
  last := lineBreak
  tail := ascii "\n"
  nodup := h
  tail_isSpace := List.all_eq_true.1 rfl

/-- The lines of the table with one column. -/
def oneColumnLines : List Bytes :=
  ["create table test\n", "(\n", "    a bigint primary key\n", ");\n"].map ascii

/-- The table with one column is read back. -/
theorem txt_table_read_back_one :
    WrittenOn (exampleTable [] (by decide)).text oneColumnLines ∧
      ReadsBack (hashFunc true) 100 (exampleTable [] (by decide)) [] tableSetInit oneColumnLines
        [] := by
  have hlines : WrittenOn (exampleTable [] (by decide)).text oneColumnLines :=
    ⟨by decide +kernel, ⟨ascii ");\n", by decide +kernel⟩, by decide +kernel⟩
  have hadd : (tableSetAdd (hashFunc true) 100 tableSetInit (tableInit (ascii "test") 0) >>=
      fun q => pure q.1) = .ret .succeed := by decide +kernel
  obtain ⟨⟨ret, tableSet⟩, htakes, hret⟩ := Outcome.bind_eq_ret.1 hadd
  obtain rfl : ret = .succeed := Outcome.ret.inj hret
  exact ⟨hlines, (txt_table_read_back_iff (hashFunc true) 100 _ [] tableSetInit _ [] hlines).2
    ⟨⟨rfl, rfl⟩, by decide +kernel, tableSet, htakes⟩⟩

/-- A second column, `b bigint`. -/
def valColumn : TxtColumn := ⟨indent, .ofAscii "b" (by decide), .bigint, none⟩

/-- The lines of the table with two columns. -/
def twoColumnLines : List Bytes :=
  ["create table test\n", "(\n", "    a bigint primary key,\n", "    b bigint\n", ");\n"].map ascii

/-- With a second column, the column of the key is read as a column without a key too. -/
theorem txt_table_misread :
    WrittenOn (exampleTable [valColumn] (by decide)).text twoColumnLines ∧
      ¬ReadsBack (hashFunc true) 100 (exampleTable [valColumn] (by decide)) [] tableSetInit
        twoColumnLines [] := by
  refine ⟨⟨by decide +kernel, ⟨ascii ");\n", by decide +kernel⟩, by decide +kernel⟩, ?_⟩
  have hrun : (parserReadTxtTable (hashFunc true) 100 (twoColumnLines ++ []) [] tableSetInit >>=
      fun q => pure (q.2.2.1.map fun s => s.valSchema.schemas)) =
      .ret [[valColumn.data, keyColumn.data]] := by decide +kernel
  obtain ⟨q, hread, hq⟩ := Outcome.bind_eq_ret.1 hrun
  rintro ⟨schema, tableSet, -, hback, -, hvals⟩
  obtain rfl := Outcome.ret.inj (hback.symm.trans hread)
  have hmisread : schema.valSchema.schemas = [valColumn.data, keyColumn.data] := by
    simpa using Outcome.ret.inj hq
  rw [hvals] at hmisread
  exact absurd hmisread (by decide +kernel)

end CheckQ
