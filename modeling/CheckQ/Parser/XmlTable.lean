import CheckQ.Mysql.SqlForms
import CheckQ.Parser.Xml

/-!
# The columns of a table element

`parser_read_table_data` takes the type, the length and the name of a column from the
attributes of an element.  It looks neither at the length nor at the number of key and value
columns of the table; what the generators make of the tables that it accepts is here.
-/

namespace CheckQ

/-! ### What the columns are read as -/

/-- The node is read as the column. -/
def ReadsColumn (node : XmlNode) (data : TableData) : Prop :=
  ∃ name, node.getProp (ascii "name") = some name ∧
    ((node.getProp (ascii "type") = some (ascii "varchar") ∧
        ∃ lengthStr, node.getProp (ascii "length") = some lengthStr ∧
          data = ⟨name, .varchar, Int32.ofInt (atoi lengthStr)⟩) ∨
      (node.getProp (ascii "type") = some (ascii "bigint") ∧ data = ⟨name, .bigint, 0⟩))

lemma verifyString_succeed {ori ref : Bytes} : verifyString ori ref = .succeed ↔ ori = ref := by
  rw [verifyString]
  split
  · simpa
  · simpa

lemma schemaAdd_succeed {s s' : Schema} {d : TableData} (h : schemaAdd s d = .ret (.succeed, s')) :
    s.nschema < s.capacity ∧ s' = { s with schemas := s.schemas ++ [d] } := by
  rw [schemaAdd] at h
  split at h
  · simp at h
  · split at h
    · rename_i hlt
      exact ⟨hlt, (Prod.mk.inj (Outcome.ret.inj h)).2.symm⟩
    · simp at h

/-- An element that is accepted is read as a column, which goes behind the others. -/
lemma parserReadTableData_reads {node : XmlNode} {schema schema' : Schema}
    (h : parserReadTableData node schema = .ret (.succeed, schema')) :
    ∃ data, ReadsColumn node data ∧ schema.nschema < schema.capacity ∧
      schema' = { schema with schemas := schema.schemas ++ [data] } := by
  rw [parserReadTableData] at h
  split at h
  · simp at h
  · rename_i type htype
    split at h
    · rename_i hvarchar
      obtain rfl := verifyString_succeed.1 hvarchar
      split at h
      · rename_i lengthStr name hlength hname
        exact ⟨_, ⟨name, hname, Or.inl ⟨htype, lengthStr, hlength, rfl⟩⟩, schemaAdd_succeed h⟩
      · simp at h
    · split at h
      · rename_i hbigint
        obtain rfl := verifyString_succeed.1 hbigint
        split at h
        · rename_i name hname
          exact ⟨_, ⟨name, hname, Or.inr ⟨htype, rfl⟩⟩, schemaAdd_succeed h⟩
        · simp at h
      · simp at h

/-- The schema `s'` is `s` with the columns `new` behind its own, within its capacity. -/
structure Extends (s s' : Schema) (new : List TableData) : Prop where
  schemas_eq : s'.schemas = s.schemas ++ new
  capacity_eq : s'.capacity = s.capacity
  le_capacity : s.nschema ≤ s.capacity → s'.nschema ≤ s.capacity

lemma Extends.refl (s : Schema) : Extends s s [] := ⟨by simp, rfl, id⟩

lemma Extends.cons {s s' : Schema} {data : TableData} {new : List TableData}
    (hlt : s.nschema < s.capacity)
    (h : Extends { s with schemas := s.schemas ++ [data] } s' new) : Extends s s' (data :: new) := by
  refine ⟨by simpa using h.schemas_eq, h.capacity_eq, fun _ => h.le_capacity ?_⟩
  rw [Schema.nschema, List.length_append, List.length_singleton]
  exact hlt

/-- The name of a key element. -/
def XmlNode.isKey (node : XmlNode) : Bool := node.name = ascii "key"

/-- The children of a table element that is accepted are read as its columns. -/
lemma readColumns_reads {nodes : List XmlNode} {schema schema' : TableSchema}
    (h : readColumns nodes schema = .ret (some schema')) :
    ∃ keys vals, List.Forall₂ ReadsColumn (nodes.filter XmlNode.isKey) keys ∧
      List.Forall₂ ReadsColumn (nodes.filter fun node => !node.isKey) vals ∧
      Extends schema.keySchema schema'.keySchema keys ∧
      Extends schema.valSchema schema'.valSchema vals := by
  induction nodes generalizing schema with
  | nil =>
      rw [readColumns, Outcome.ret.injEq, Option.some.injEq] at h
      subst h
      exact ⟨[], [], List.Forall₂.nil, List.Forall₂.nil, Extends.refl _, Extends.refl _⟩
  | cons node nodes ih =>
      rw [readColumns] at h
      split at h
      · rename_i hname
        have hkey : node.isKey = true := by simp [XmlNode.isKey, hname]
        obtain ⟨⟨ret, keySchema⟩, hdata, h⟩ := Outcome.bind_eq_ret.1 h
        cases ret with
        | failed => simp at h
        | succeed =>
            obtain ⟨data, hread, hlt, rfl⟩ := parserReadTableData_reads hdata
            obtain ⟨keys, vals, hkeys, hvals, hek, hev⟩ := ih h
            refine ⟨data :: keys, vals, ?_, ?_, hek.cons hlt, hev⟩
            · rw [List.filter_cons_of_pos hkey]
              exact List.Forall₂.cons hread hkeys
            · rwa [List.filter_cons_of_neg (by simp [hkey])]
      · rename_i hname
        have hkey : node.isKey = false := by simp [XmlNode.isKey, hname]
        obtain ⟨⟨ret, valSchema⟩, hdata, h⟩ := Outcome.bind_eq_ret.1 h
        cases ret with
        | failed => simp at h
        | succeed =>
            obtain ⟨data, hread, hlt, rfl⟩ := parserReadTableData_reads hdata
            obtain ⟨keys, vals, hkeys, hvals, hek, hev⟩ := ih h
            refine ⟨keys, data :: vals, ?_, ?_, hek, hev.cons hlt⟩
            · rwa [List.filter_cons_of_neg (by simp [hkey])]
            · rw [List.filter_cons_of_pos (by simp [hkey])]
              exact List.Forall₂.cons hread hvals

/-- The columns of an accepted table, one for each child. -/
lemma ReadsTable.columns {node : XmlNode} {schema : TableSchema} (h : ReadsTable node schema) :
    List.Forall₂ ReadsColumn (node.children.filter XmlNode.isKey) schema.keySchema.schemas ∧
      List.Forall₂ ReadsColumn (node.children.filter fun c => !c.isKey) schema.valSchema.schemas ∧
      schema.valSchema.capacity = 100 ∧ schema.valSchema.nschema ≤ 100 := by
  obtain ⟨keys, vals, hkeys, hvals, hek, hev⟩ := readColumns_reads h
  have hk := hek.schemas_eq
  have hv := hev.schemas_eq
  simp only [tableSchemaInit, schemaInit, List.nil_append] at hk hv
  exact ⟨hk ▸ hkeys, hv ▸ hvals, hev.capacity_eq, hev.le_capacity (Nat.zero_le _)⟩

/-! ### Tables of every shape -/

/-- A table that is accepted has a key column when it has a key element, and a value column
when it has another one. -/
lemma ne_nil_iff_of_reads {p : XmlNode → Bool} {nodes : List XmlNode} {datas : List TableData}
    (h : List.Forall₂ ReadsColumn (nodes.filter p) datas) :
    datas ≠ [] ↔ ∃ c ∈ nodes, p c = true := by
  rw [← List.length_pos_iff_ne_nil, ← h.length_eq, List.length_pos_iff_exists_mem]
  simp [List.mem_filter]

/-- **Which accepted tables get well-formed statements.**  For a table element that the parser
accepts, with word characters in the names and positive lengths, the four generators read only
columns that are there and write statements of their forms exactly when the element has a key
and a value column. -/
theorem accepted_table_statements_iff (node : XmlNode) (schema : TableSchema)
    (hread : parserReadTableSchema node = .ret (some schema))
    (hnamed : ∀ data ∈ schema.columns, data.Named)
    (hsized : ∀ data ∈ schema.columns, data.Sized) :
    WritesDataStmts schema ↔
      (∃ c ∈ node.children, c.isKey = true) ∧ ∃ c ∈ node.children, c.isKey = false := by
  obtain ⟨hkeys, hvals, -⟩ := ReadsTable.columns hread
  rw [writesDataStmts_iff hnamed hsized, ne_nil_iff_of_reads hkeys, ne_nil_iff_of_reads hvals]
  simp

/-- `<table><key name="id" type="varchar" length="8"/><column name="age" type="bigint"/></table>`. -/
theorem accepted_table_statements_iff_two :
    WritesDataStmts
        ⟨⟨[⟨ascii "id", .varchar, 8⟩], 100⟩, ⟨[⟨ascii "age", .bigint, 0⟩], 100⟩⟩ ↔
      (∃ c ∈ [XmlNode.mk (ascii "key") [(ascii "name", ascii "id"), (ascii "type", ascii "varchar"),
          (ascii "length", ascii "8")] [], XmlNode.mk (ascii "column") [(ascii "name", ascii "age"),
          (ascii "type", ascii "bigint")] []], c.isKey = true) ∧
        ∃ c ∈ [XmlNode.mk (ascii "key") [(ascii "name", ascii "id"), (ascii "type", ascii "varchar"),
          (ascii "length", ascii "8")] [], XmlNode.mk (ascii "column") [(ascii "name", ascii "age"),
          (ascii "type", ascii "bigint")] []], c.isKey = false :=
  accepted_table_statements_iff
    (.mk (ascii "table") [] [.mk (ascii "key") [(ascii "name", ascii "id"),
      (ascii "type", ascii "varchar"), (ascii "length", ascii "8")] [], .mk (ascii "column")
      [(ascii "name", ascii "age"), (ascii "type", ascii "bigint")] []])
    ⟨⟨[⟨ascii "id", .varchar, 8⟩], 100⟩, ⟨[⟨ascii "age", .bigint, 0⟩], 100⟩⟩ (by decide) (by decide)
    (by decide)

/-- For a table with a key column only UPDATE assigns nothing, and for one with a value column
only DELETE reads a column that is not there. -/
theorem accepted_tables_without_statements :
    (∃ schema, parserReadTableSchema (.mk (ascii "table") [] [.mk (ascii "key")
        [(ascii "name", ascii "id"), (ascii "type", ascii "bigint")] []]) = .ret (some schema) ∧
      (∀ data ∈ schema.columns, data.Named ∧ data.Sized) ∧ ¬ WritesDataStmts schema ∧
      ∃ buf g' lit, sqlGen ⟨1, 3⟩ (ascii "test7") schema ⟨0, fun _ => 0⟩ .update = .ret (buf, g') ∧
        buf.text = ascii "update test7 set where id=" ++ quoted lit) ∧
    ∃ schema, parserReadTableSchema (.mk (ascii "table") [] [.mk (ascii "column")
        [(ascii "name", ascii "age"), (ascii "type", ascii "bigint")] []]) = .ret (some schema) ∧
      (∀ data ∈ schema.columns, data.Named ∧ data.Sized) ∧ ¬ WritesDataStmts schema ∧
      sqlGen ⟨1, 3⟩ (ascii "test7") schema ⟨0, fun _ => 0⟩ .delete = .fault := by
  constructor
  · refine ⟨⟨⟨[⟨ascii "id", .bigint, 0⟩], 100⟩, ⟨[], 100⟩⟩, by decide, by decide, ?_, ?_⟩
    · rw [writesDataStmts_iff (by decide) (by decide)]
      simp
    · obtain ⟨cond, buf, g', hrun, htext, hcond⟩ := whereGen_equation
        (s := ⟨⟨[⟨ascii "id", .bigint, 0⟩], 100⟩, ⟨[], 100⟩⟩) rfl (by decide) ⟨1, 3⟩
        ⟨ascii "update test7 set where ", []⟩ ⟨0, fun _ => 0⟩
      refine ⟨buf, g', cond.2, hrun, ?_⟩
      rw [htext, equation, hcond.1]
      rfl
  · refine ⟨⟨⟨[], 100⟩, ⟨[⟨ascii "age", .bigint, 0⟩], 100⟩⟩, by decide, by decide, ?_, rfl⟩
    rw [writesDataStmts_iff (by decide) (by decide)]
    simp

/-! ### Lengths -/

/-- `write_varchar` divides by no zero on a `VARCHAR` column, and it chooses a length between
one and the declared one. -/
def ChoosesLength (data : TableData) : Prop :=
  data.type = .varchar → ∀ (ctx : EngCtx) (isKey : Bool) (g : Globals),
    ∃ seed len bytes g', writeVarchar ctx data isKey g = .ret ((.varchar seed len, bytes), g') ∧
      1 ≤ len ∧ (len : Int) ≤ data.len.toInt

/-- The `length` of a `varchar` element is a positive number. -/
def LengthPositive (node : XmlNode) : Prop :=
  node.getProp (ascii "type") = some (ascii "varchar") →
    ∀ lengthStr, node.getProp (ascii "length") = some lengthStr → 1 ≤ atoi lengthStr

lemma choosesLength_iff (data : TableData) : ChoosesLength data ↔ data.Sized := by
  constructor
  · intro h hty
    obtain ⟨seed, len, bytes, g', -, hpos, hle⟩ := h hty ⟨0, 0⟩ true ⟨0, fun _ => 0⟩
    omega
  · intro h hty ctx isKey g
    have hpos := h hty
    rw [writeVarchar, if_neg (ne_zero_of_pos hpos)]
    cases isKey with
    | true =>
        have hlen := keyLength hpos (frandom (toUint64 ctx.seedBase) (toUint64 ctx.tid))
        simp only [if_true]
        rw [stringFrandomInt_ret (by omega)]
        exact ⟨_, _, _, _, rfl, by omega, by omega⟩
    | false =>
        have hlen := valLength hpos g.nextSeed.2.nextRand.1
        simp only [Bool.false_eq_true, if_false]
        rw [stringFrandomInt_ret (by omega)]
        exact ⟨_, _, _, _, rfl, by omega, by omega⟩

/-- `atoi` returns an `int`. -/
lemma toInt_ofInt_atoi (s : Bytes) : (Int32.ofInt (atoi s)).toInt = atoi s := by
  have hbmod : ∀ v : Int, (Int32.ofInt (toInt v)).toInt = toInt v := by
    intro v
    rw [Int32.toInt_ofInt, toInt]
    exact Int.bmod_bmod
  rw [atoi]
  rcases h : scanInt s with _ | ⟨v, rest⟩
  · rfl
  · simp only [scanInt, Option.ite_none_left_eq_some, Option.some.injEq, Prod.mk.injEq] at h
    rw [Option.map_some, Option.getD_some, ← h.2.1]
    exact hbmod _

/-- The declared length of an accepted column is positive when the attribute is. -/
lemma ReadsColumn.sized_iff {node : XmlNode} {data : TableData} (h : ReadsColumn node data) :
    data.Sized ↔ LengthPositive node := by
  obtain ⟨name, -, ⟨htype, lengthStr, hlength, rfl⟩ | ⟨htype, rfl⟩⟩ := h
  · have hcast := toInt_ofInt_atoi lengthStr
    constructor
    · intro hsized _ lengthStr' hlength'
      obtain rfl := Option.some.inj (hlength.symm.trans hlength')
      have hpos := hsized rfl
      rw [hcast] at hpos
      omega
    · intro hpos _
      have := hpos htype lengthStr hlength
      rw [hcast]
      omega
  · constructor
    · intro _ htype'
      rw [htype, Option.some.injEq] at htype'
      exact absurd htype' (by decide)
    · intro _ hty
      simp at hty

/-- A column that `add_table_data` adds is a number or has a length from 10 to 512. -/
lemma addTableData_spec {s s' : TableSchema} {r r' : RandStream}
    (h : addTableData s r = .ret (s', r')) :
    s' = s ∨ ∃ data, s' = { s with
        valSchema := { s.valSchema with schemas := s.valSchema.schemas ++ [data] } } ∧
      s.valSchema.nschema < s.valSchema.capacity ∧
      data.name = ascii "col" ++ decimal s.valSchema.nschema ∧
      (data.type = .varchar → 10 ≤ data.len.toInt ∧ data.len.toInt ≤ 512) := by
  simp only [addTableData] at h
  obtain ⟨⟨ret, valSchema⟩, hadd, h⟩ := Outcome.bind_eq_ret.1 h
  rw [Outcome.pure_eq, Outcome.ret.injEq, Prod.mk.injEq] at h
  obtain ⟨rfl, -⟩ := h
  cases ret with
  | failed =>
      rw [schemaAdd] at hadd
      split at hadd
      · rw [Outcome.ret.injEq, Prod.mk.injEq] at hadd
        exact Or.inl (by rw [← hadd.2])
      · split at hadd <;> simp at hadd
  | succeed =>
      obtain ⟨hlt, rfl⟩ := schemaAdd_succeed hadd
      refine Or.inr ⟨_, rfl, hlt, ?_, ?_⟩
      · split <;> rfl
      · split
        · exact fun hty => absurd hty (by simp [tableDataInit])
        · intro _
          have hmod := Nat.mod_lt (r.next.2.next.1) (show 0 < 503 by omega)
          rw [tableDataInit, Int32.toInt_ofNat_of_lt (by omega)]
          omega

/-- **When `write_varchar` is safe.**  On a column that the parser accepts it divides by no zero
and chooses a length of at least one and at most the declared length exactly when the length
attribute of a `varchar` element is a positive number; on a column that `add_table_data` adds
it always does. -/
theorem varchar_lengths_iff (node : XmlNode) (schema schema' : Schema)
    (h : parserReadTableData node schema = .ret (.succeed, schema')) :
    (∃ data, schema'.schemas = schema.schemas ++ [data] ∧
      (ChoosesLength data ↔ LengthPositive node)) ∧
    ∀ (s s' : TableSchema) (r r' : RandStream), addTableData s r = .ret (s', r') →
      s'.valSchema.schemas = s.valSchema.schemas ∨
        ∃ data, s'.valSchema.schemas = s.valSchema.schemas ++ [data] ∧ ChoosesLength data := by
  constructor
  · obtain ⟨data, hread, -, rfl⟩ := parserReadTableData_reads h
    exact ⟨data, rfl, (choosesLength_iff data).trans hread.sized_iff⟩
  · intro s s' r r' hadd
    rcases addTableData_spec hadd with rfl | ⟨data, rfl, -, -, hlen⟩
    · exact Or.inl rfl
    · refine Or.inr ⟨data, rfl, (choosesLength_iff data).2 fun hty => ?_⟩
      have := hlen hty
      omega

theorem varchar_lengths_iff_eight :
    ∃ data, [(⟨ascii "id", .varchar, 8⟩ : TableData)] = [] ++ [data] ∧
      (ChoosesLength data ↔ LengthPositive (.mk (ascii "key") [(ascii "name", ascii "id"),
        (ascii "type", ascii "varchar"), (ascii "length", ascii "8")] [])) :=
  (varchar_lengths_iff (.mk (ascii "key") [(ascii "name", ascii "id"),
    (ascii "type", ascii "varchar"), (ascii "length", ascii "8")] []) schemaInit
    ⟨[⟨ascii "id", .varchar, 8⟩], 100⟩ (by decide)).1

/-- The element `<key name="id" type="varchar" length="0"/>` is accepted, and the key of its
column is the remainder of a division by zero. -/
theorem zero_length_accepted :
    parserReadTableData (.mk (ascii "key") [(ascii "name", ascii "id"),
        (ascii "type", ascii "varchar"), (ascii "length", ascii "0")] []) schemaInit
        = .ret (.succeed, ⟨[⟨ascii "id", .varchar, 0⟩], 100⟩) ∧
      (∀ ctx isKey g, writeVarchar ctx ⟨ascii "id", .varchar, 0⟩ isKey g = .fault) ∧
      ¬ ChoosesLength ⟨ascii "id", .varchar, 0⟩ := by
  refine ⟨by decide, fun ctx isKey g => rfl, ?_⟩
  rw [choosesLength_iff]
  decide

end CheckQ
