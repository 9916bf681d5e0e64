import CheckQ.Engine.SchemaSync
import CheckQ.Parser.Txt
import CheckQ.Parser.XmlTable

/-!
# The statement buffer

`eng_context_init` allocates `SQL_BUFFER_LEN` bytes for the statements of a thread, and the
generators write into the buffer without looking at its end.  How long a statement can get
depends on the names, the types and the declared lengths of the columns: `stmtMax` is that
length.  Columns come and go while the program runs; `FitsBuffer` says that the statements of
a table fit with any of its own value columns dropped from the end and the largest columns
that `add_table_data` makes put in their place, and this is enough for every schema that is
reached.  The parser does not look at the declared lengths, so it accepts tables that are too
large.
-/

namespace CheckQ

/-- `SQL_BUFFER_LEN`. -/
def sqlBufferLen : ℕ := 1048576

/-! ### The longest statements of a schema -/

/-- The length of the longest literal of a column.  A number below `2 ^ 63` has 19 digits. -/
def literalMax (data : TableData) : ℕ :=
  match data.type with
  | .bigint => 19
  | .varchar => data.len.toInt.toNat

/-- The length of the longest condition on the first key column. -/
def condMax (s : TableSchema) : ℕ :=
  match s.keySchema.schemas[0]? with
  | none => 0
  | some key => key.name.length + literalMax key + 3

/-- The length of the declaration of a column, with the space and the comma. -/
def declLength (data : TableData) : ℕ := data.name.length + (columnType data).length + 2

/-- The length of the longest statement of a command, for a table name of `n` bytes. -/
def stmtMax (n : ℕ) (s : TableSchema) : CmdType → ℕ
  | .insert => 20 + n + (s.keySchema.schemas.map fun d => literalMax d + 3).sum +
      (s.valSchema.schemas.map fun d => literalMax d + 3).sum
  | .delete => 19 + n + condMax s
  | .update => 18 + n + (s.valSchema.schemas.map fun d => d.name.length + literalMax d + 4).sum +
      condMax s
  | .select => 19 + n + (s.keySchema.schemas.map fun d => d.name.length + 1).sum +
      (s.valSchema.schemas.map fun d => d.name.length + 1).sum + condMax s
  | .create => 15 + n + (s.keySchema.schemas.map fun d => declLength d + 12).sum +
      (s.valSchema.schemas.map declLength).sum
  | .alterAdd => 16 + n + (s.valSchema.schemas.map declLength).foldr max 0
  | .alterDrop => 25 + n + (s.valSchema.schemas.map fun d => d.name.length).foldr max 0
  | .drop => 11 + n

lemma LiteralFits.length_le {data : TableData} {lit : Bytes} (h : LiteralFits data lit) :
    lit.length ≤ literalMax data := by
  rw [LiteralFits] at h
  rw [literalMax]
  cases hty : data.type with
  | bigint =>
      rw [hty] at h
      obtain ⟨v, hv, rfl⟩ := h
      have hdigits : (decimal v).length ≤ 19 :=
        length_decimal_le (by decide) (lt_trans hv (by decide))
      exact hdigits
  | varchar =>
      rw [hty] at h
      simp only at h ⊢
      omega

/-- The items that are written for columns. -/
lemma length_flatMap_le {α β : Type} {R : α → β → Prop} {f : β → Bytes} {cost : α → ℕ}
    (hle : ∀ a b, R a b → (f b).length ≤ cost a) {l₁ : List α} {l₂ : List β}
    (h : List.Forall₂ R l₁ l₂) : (l₂.flatMap f).length ≤ (l₁.map cost).sum := by
  induction h with
  | nil => simp
  | cons hab _ ih =>
      rw [List.flatMap_cons, List.length_append, List.map_cons, List.sum_cons]
      exact Nat.add_le_add (hle _ _ hab) ih

lemma length_quoted (lit : Bytes) : (quoted lit).length = lit.length + 2 := by
  simp [quoted, ascii]

section Lengths

variable {s : TableSchema} (hsized : ∀ data ∈ s.columns, data.Sized)
include hsized

lemma length_whereGen_le {ctx : EngCtx} {buf buf' : SqlBuf} {g g' : Globals}
    (h : whereGen ctx s buf g = .ret (buf', g')) :
    buf'.text.length ≤ buf.text.length + condMax s := by
  obtain ⟨key, lit, hget, hlit⟩ := whereGen_reads h
  have hmem := firstKey_mem_columns hget
  obtain ⟨cond, buf₁, g₁, hrun, htext, hcond⟩ :=
    whereGen_equation hget (hsized key hmem) ctx buf g
  rw [hrun, Outcome.ret.injEq, Prod.mk.injEq] at h
  have hle := hcond.2.length_le
  have hone : (ascii "=").length = 1 := rfl
  rw [← h.1, htext, condMax, hget, equation, List.length_append, List.length_append,
    List.length_append, length_quoted, hcond.1]
  simp only
  omega

lemma length_insertGen_le {ctx : EngCtx} {name : Bytes} {g g' : Globals} {buf : SqlBuf}
    (h : insertGen ctx name s g = .ret (buf, g')) :
    buf.text.length ≤ stmtMax name.length s .insert := by
  obtain ⟨lits, buf₁, g₁, hrun, htext, hall⟩ := insertGen_fits hsized ctx name g
  rw [hrun, Outcome.ret.injEq, Prod.mk.injEq] at h
  have hcost : ∀ data lit, LiteralFits data lit →
      (quoted lit ++ ascii ",").length ≤ literalMax data + 3 := by
    intro data lit hfits
    have hle := hfits.length_le
    have hcomma : (ascii ",").length = 1 := rfl
    rw [List.length_append, length_quoted]
    omega
  have hle := length_flatMap_le hcost hall
  rw [TableSchema.columns, List.map_append, List.sum_append] at hle
  have hinto : (ascii "insert into ").length = 12 := rfl
  have hvalues : (ascii " values(").length = 8 := rfl
  have hclose : (ascii ")").length = 1 := rfl
  rw [← h.1, htext, List.flatMap_map, stmtMax]
  simp only [List.length_append, List.length_dropLast]
  omega

lemma length_updateGen_le {ctx : EngCtx} {name : Bytes} {g g' : Globals} {buf : SqlBuf}
    (h : updateGen ctx name s g = .ret (buf, g')) :
    buf.text.length ≤ stmtMax name.length s .update := by
  obtain ⟨sets, buf₁, g₁, hrun, htext, hall⟩ :=
    writeColumns_equations (fun data hd => hsized data (List.mem_append_right _ hd)) ctx false
      ⟨ascii "update " ++ name ++ ascii " set ", []⟩ g
  simp only [updateGen, hrun, Outcome.ret_bind] at h
  have hcost : ∀ data e, EquationOf data e →
      (equation e ++ ascii ",").length ≤ data.name.length + literalMax data + 4 := by
    intro data e he
    have hle := he.2.length_le
    have hcomma : (ascii ",").length = 1 := rfl
    have hequals : (ascii "=").length = 1 := rfl
    rw [equation, List.length_append, List.length_append, List.length_append, length_quoted, he.1]
    omega
  have hle := length_flatMap_le hcost hall
  have hwhere := length_whereGen_le hsized h
  have hupdate : (ascii "update ").length = 7 := rfl
  have hset : (ascii " set ").length = 5 := rfl
  have hwheretext : (ascii " where ").length = 7 := rfl
  rw [SqlBuf.put, SqlBuf.back, htext, List.flatMap_map] at hwhere
  simp only [List.length_append, List.length_dropLast] at hwhere
  rw [stmtMax]
  omega

lemma length_selectGen_le {ctx : EngCtx} {name : Bytes} {g g' : Globals} {buf : SqlBuf}
    (h : selectGen ctx name s g = .ret (buf, g')) :
    buf.text.length ≤ stmtMax name.length s .select := by
  have hwhere := length_whereGen_le hsized h
  have hlength : ∀ l : List TableData, (l.flatMap fun data => data.name ++ ascii ",").length
      = (l.map fun d => d.name.length + 1).sum := by
    intro l
    rw [List.length_flatMap]
    simp [ascii]
  have hselect : (ascii "select ").length = 7 := rfl
  have hfrom : (ascii " from ").length = 6 := rfl
  have hwheretext : (ascii " where ").length = 7 := rfl
  rw [selectHead, SqlBuf.put, SqlBuf.back, SqlBuf.put, TableSchema.columns,
    List.flatMap_append] at hwhere
  simp only [List.length_append, List.length_dropLast, hlength] at hwhere
  rw [stmtMax]
  omega

omit hsized in
lemma length_createGen_le (name : Bytes) :
    (createGen name s).length ≤ stmtMax name.length s .create := by
  have hkeys : (s.keySchema.schemas.flatMap fun data =>
      data.name ++ ascii " " ++ columnType data ++ ascii " primary key" ++ ascii ",").length
      = (s.keySchema.schemas.map fun d => declLength d + 12).sum := by
    rw [List.length_flatMap]
    refine congrArg List.sum (List.map_congr_left fun data _ => ?_)
    simp only [List.length_append, declLength]
    have hspace : (ascii " ").length = 1 := rfl
    have hprimary : (ascii " primary key").length = 12 := rfl
    have hcomma : (ascii ",").length = 1 := rfl
    omega
  have hvals : (s.valSchema.schemas.flatMap fun data =>
      data.name ++ ascii " " ++ columnType data ++ ascii ",").length
      = (s.valSchema.schemas.map declLength).sum := by
    rw [List.length_flatMap]
    refine congrArg List.sum (List.map_congr_left fun data _ => ?_)
    simp only [List.length_append, declLength]
    have hspace : (ascii " ").length = 1 := rfl
    have hcomma : (ascii ",").length = 1 := rfl
    omega
  have hcreate : (ascii "create table ").length = 13 := rfl
  have hopen : (ascii " (").length = 2 := rfl
  have hclose : (ascii ")").length = 1 := rfl
  rw [createGen, stmtMax]
  simp only [List.length_append, List.length_dropLast, hkeys, hvals]
  omega

omit hsized in
lemma le_foldr_max {l : List ℕ} {n : ℕ} (h : n ∈ l) : n ≤ l.foldr max 0 := by
  induction l with
  | nil => simp at h
  | cons m l ih =>
      rcases List.mem_cons.1 h with rfl | h
      · exact le_max_left _ _
      · exact (ih h).trans (le_max_right _ _)

omit hsized in
lemma length_alterAddGen_le {name text : Bytes} (h : alterAddGen name s = .ret text) :
    text.length ≤ stmtMax name.length s .alterAdd := by
  rw [alterAddGen] at h
  split at h
  · simp at h
  · rename_i data hlast
    have hle := le_foldr_max (List.mem_map_of_mem (f := declLength) (List.mem_of_getLast? hlast))
    have halter : (ascii "alter table ").length = 12 := rfl
    have hspace : (ascii " ").length = 1 := rfl
    have hadd : (ascii "add ").length = 4 := rfl
    rw [Outcome.ret.injEq] at h
    rw [← h, stmtMax]
    simp only [declLength, List.length_append] at hle ⊢
    omega

omit hsized in
lemma length_alterDropGen_le (name : Bytes) :
    (alterDropGen name s).length ≤ stmtMax name.length s .alterDrop := by
  have halter : (ascii "alter table ").length = 12 := rfl
  have hspace : (ascii " ").length = 1 := rfl
  have hdrop : (ascii "DROP COLUMN ").length = 12 := rfl
  rw [alterDropGen, stmtMax]
  split
  · simp only [List.length_append]
    omega
  · rename_i data hlast
    have hle := le_foldr_max
      (List.mem_map_of_mem (f := fun d => d.name.length) (List.mem_of_getLast? hlast))
    simp only [List.length_append]
    omega

/-- No statement is longer than `stmtMax`. -/
lemma length_sqlGen_le {ctx : EngCtx} {name : Bytes} {g g' : Globals} {cmd : CmdType}
    {buf : SqlBuf} (h : sqlGen ctx name s g cmd = .ret (buf, g')) :
    buf.text.length ≤ stmtMax name.length s cmd := by
  cases cmd with
  | insert => exact length_insertGen_le hsized h
  | delete =>
      have hwhere := length_whereGen_le hsized h
      have hdelete : (ascii "delete from ").length = 12 := rfl
      have hwheretext : (ascii " where ").length = 7 := rfl
      simp only [List.length_append] at hwhere
      rw [stmtMax]
      omega
  | update => exact length_updateGen_le hsized h
  | select => exact length_selectGen_le hsized h
  | create =>
      rw [sqlGen, Outcome.ret.injEq, Prod.mk.injEq] at h
      rw [← h.1]
      exact length_createGen_le name
  | alterAdd =>
      rw [sqlGen] at h
      obtain ⟨text, htext, h⟩ := Outcome.bind_eq_ret.1 h
      rw [Outcome.pure_eq, Outcome.ret.injEq, Prod.mk.injEq] at h
      rw [← h.1]
      exact length_alterAddGen_le htext
  | alterDrop =>
      rw [sqlGen, Outcome.ret.injEq, Prod.mk.injEq] at h
      rw [← h.1]
      exact length_alterDropGen_le name
  | drop =>
      rw [sqlGen, Outcome.ret.injEq, Prod.mk.injEq] at h
      rw [← h.1, stmtMax, dropGen, List.length_append]
      exact le_rfl

end Lengths

/-! ### Larger columns and more of them -/

/-- Nothing that is written for the column `d` is longer than what is written for `d'`. -/
structure Under (d d' : TableData) : Prop where
  name_le : d.name.length ≤ d'.name.length
  literal_le : literalMax d ≤ literalMax d'
  type_le : (columnType d).length ≤ (columnType d').length

lemma Under.refl (d : TableData) : Under d d := ⟨le_rfl, le_rfl, le_rfl⟩

lemma Under.declLength_le {d d' : TableData} (h : Under d d') : declLength d ≤ declLength d' := by
  have := h.name_le
  have := h.type_le
  rw [declLength, declLength]
  omega

lemma sum_le_of_under {f : TableData → ℕ} (hf : ∀ d d', Under d d' → f d ≤ f d')
    {l l' : List TableData} (h : List.SublistForall₂ Under l l') :
    (l.map f).sum ≤ (l'.map f).sum := by
  induction h with
  | nil => simp
  | cons hd _ ih =>
      rw [List.map_cons, List.map_cons, List.sum_cons, List.sum_cons]
      exact Nat.add_le_add (hf _ _ hd) ih
  | cons_right _ ih =>
      rw [List.map_cons, List.sum_cons]
      exact ih.trans (Nat.le_add_left _ _)

lemma foldr_max_le_of_under {f : TableData → ℕ} (hf : ∀ d d', Under d d' → f d ≤ f d')
    {l l' : List TableData} (h : List.SublistForall₂ Under l l') :
    (l.map f).foldr max 0 ≤ (l'.map f).foldr max 0 := by
  induction h with
  | nil => simp
  | cons hd _ ih =>
      rw [List.map_cons, List.map_cons, List.foldr_cons, List.foldr_cons]
      exact max_le_max (hf _ _ hd) ih
  | cons_right _ ih =>
      rw [List.map_cons, List.foldr_cons]
      exact ih.trans (le_max_right _ _)

/-- More and larger value columns and a longer name make the statements longer. -/
lemma stmtMax_mono {n n' : ℕ} (hn : n ≤ n') {s s' : TableSchema} (hkeys : s.keySchema = s'.keySchema)
    (hvals : List.SublistForall₂ Under s.valSchema.schemas s'.valSchema.schemas) (cmd : CmdType) :
    stmtMax n s cmd ≤ stmtMax n' s' cmd := by
  have hcond : condMax s = condMax s' := by
    rw [condMax, condMax, hkeys]
  cases cmd with
  | insert =>
      have hle := sum_le_of_under (f := fun d => literalMax d + 3)
        (fun _ _ h => Nat.add_le_add_right h.literal_le 3) hvals
      rw [stmtMax, stmtMax, hkeys]
      omega
  | delete =>
      rw [stmtMax, stmtMax, hcond]
      omega
  | update =>
      have hle := sum_le_of_under (f := fun d => d.name.length + literalMax d + 4)
        (fun _ _ h => Nat.add_le_add_right (Nat.add_le_add h.name_le h.literal_le) 4) hvals
      rw [stmtMax, stmtMax, hcond]
      omega
  | select =>
      have hle := sum_le_of_under (f := fun d => d.name.length + 1)
        (fun _ _ h => Nat.add_le_add_right h.name_le 1) hvals
      rw [stmtMax, stmtMax, hcond, hkeys]
      omega
  | create =>
      have hle := sum_le_of_under (f := declLength) (fun _ _ h => h.declLength_le) hvals
      rw [stmtMax, stmtMax, hkeys]
      omega
  | alterAdd =>
      have hle := foldr_max_le_of_under (f := declLength) (fun _ _ h => h.declLength_le) hvals
      rw [stmtMax, stmtMax]
      omega
  | alterDrop =>
      have hle := foldr_max_le_of_under (f := fun d => d.name.length) (fun _ _ h => h.name_le) hvals
      rw [stmtMax, stmtMax]
      omega
  | drop =>
      rw [stmtMax, stmtMax]
      omega

/-! ### Schemas that change -/

/-- One call of `add_table_data` or `drop_table_data`. -/
def Alters (s s' : TableSchema) : Prop :=
  (∃ r r', addTableData s r = .ret (s', r')) ∨ dropTableData s = .ret s'

/-- The largest column that `add_table_data` makes as the value column `i`. -/
def addedMax (i : ℕ) : TableData := ⟨ascii "col" ++ decimal i, .varchar, 512⟩

/-- The schema with its first `j` value columns and the largest added ones behind them. -/
def grownMax (s : TableSchema) (j : ℕ) : TableSchema :=
  { s with valSchema := { s.valSchema with
      schemas := s.valSchema.schemas.take j ++
        (List.range' j (s.valSchema.capacity - j)).map addedMax } }

/-- The statements of a table with a name of at most eight bytes fit into the buffer, whatever
value columns are dropped and added. -/
def FitsBuffer (s : TableSchema) : Prop :=
  ∀ j ≤ s.valSchema.nschema, ∀ cmd, stmtMax 8 (grownMax s j) cmd + 1 ≤ sqlBufferLen

/-- The schema `s` has come from `s₀`: it has the first `j` of its value columns, and what
`add_table_data` has added behind them. -/
structure Evolved (s₀ s : TableSchema) : Prop where
  keySchema_eq : s.keySchema = s₀.keySchema
  capacity_eq : s.valSchema.capacity = s₀.valSchema.capacity
  le_capacity : s.valSchema.nschema ≤ s₀.valSchema.capacity
  sized : ∀ data ∈ s.valSchema.schemas, data.Sized
  exists_added : ∃ j added, j ≤ s₀.valSchema.nschema ∧
    s.valSchema.schemas = s₀.valSchema.schemas.take j ++ added ∧
    List.Forall₂ Under added ((List.range' j added.length).map addedMax)

lemma columnType_length_le {data : TableData}
    (h : data.type = .varchar → 10 ≤ data.len.toInt ∧ data.len.toInt ≤ 512) :
    (columnType data).length ≤ 12 := by
  rw [columnType]
  cases hty : data.type with
  | bigint => exact (by decide : (ascii "bigint").length ≤ 12)
  | varchar =>
      obtain ⟨h₁, h₂⟩ := h hty
      obtain ⟨n, hn⟩ := Int.eq_ofNat_of_zero_le (by omega : 0 ≤ data.len.toInt)
      have hdigits : (decimal n).length ≤ 3 := length_decimal_le (by omega) (by omega)
      have hopen : (ascii "varchar(").length = 8 := rfl
      have hclose : (ascii ")").length = 1 := rfl
      rw [hn]
      show (ascii "varchar(" ++ decimal n ++ ascii ")").length ≤ 12
      simp only [List.length_append]
      omega

/-- What `add_table_data` adds is under the largest column. -/
lemma under_addedMax {data : TableData} {i : ℕ} (hname : data.name = ascii "col" ++ decimal i)
    (hlen : data.type = .varchar → 10 ≤ data.len.toInt ∧ data.len.toInt ≤ 512) :
    Under data (addedMax i) := by
  have htype : (columnType (addedMax i)).length = 12 :=
    (by decide : (columnType ⟨[], .varchar, 512⟩).length = 12)
  refine ⟨le_of_eq (by rw [hname]; rfl), ?_, htype ▸ columnType_length_le hlen⟩
  show literalMax data ≤ 512
  rw [literalMax]
  cases hty : data.type with
  | bigint => exact (by decide : 19 ≤ 512)
  | varchar =>
      obtain ⟨-, h⟩ := hlen hty
      simp only
      omega

namespace Evolved

variable {s₀ s s' : TableSchema}

lemma refl (hcap : s₀.valSchema.nschema ≤ s₀.valSchema.capacity)
    (hsized : ∀ data ∈ s₀.valSchema.schemas, data.Sized) : Evolved s₀ s₀ := by
  refine ⟨rfl, rfl, hcap, hsized, s₀.valSchema.nschema, [], le_rfl, ?_, List.Forall₂.nil⟩
  rw [Schema.nschema, List.take_length, List.append_nil]

lemma nschema_eq {j : ℕ} {added : List TableData} (hj : j ≤ s₀.valSchema.nschema)
    (hschemas : s.valSchema.schemas = s₀.valSchema.schemas.take j ++ added) :
    s.valSchema.nschema = j + added.length := by
  rw [Schema.nschema] at hj ⊢
  rw [hschemas, List.length_append, List.length_take, min_eq_left hj]

lemma add (h : Evolved s₀ s) {r r' : RandStream} (hadd : addTableData s r = .ret (s', r')) :
    Evolved s₀ s' := by
  rcases addTableData_spec hadd with rfl | ⟨data, rfl, hlt, hname, hlen⟩
  · exact h
  obtain ⟨j, added, hj, hschemas, hadded⟩ := h.exists_added
  have hcount := nschema_eq hj hschemas
  refine ⟨h.keySchema_eq, h.capacity_eq, ?_, ?_, j, added ++ [data], hj, ?_, ?_⟩
  · rw [h.capacity_eq] at hlt
    rw [Schema.nschema, List.length_append, List.length_singleton]
    exact hlt
  · intro d hd
    rcases List.mem_append.1 hd with hd | hd
    · exact h.sized d hd
    · obtain rfl := List.mem_singleton.1 hd
      intro hty
      have := hlen hty
      omega
  · rw [hschemas, List.append_assoc]
  · rw [List.length_append, List.length_singleton, List.range'_concat, List.map_append, Nat.one_mul]
    refine List.rel_append hadded (List.Forall₂.cons ?_ List.Forall₂.nil)
    exact under_addedMax (hcount ▸ hname) hlen

lemma drop (h : Evolved s₀ s) (hdrop : dropTableData s = .ret s') : Evolved s₀ s' := by
  rw [dropTableData] at hdrop
  split at hdrop
  · simp at hdrop
  rename_i hne
  obtain rfl := Outcome.ret.inj hdrop
  obtain ⟨j, added, hj, hschemas, hadded⟩ := h.exists_added
  have hcap := h.le_capacity
  refine ⟨h.keySchema_eq, h.capacity_eq, ?_, ?_, ?_⟩
  · rw [Schema.nschema] at hcap
    rw [Schema.nschema, List.length_dropLast]
    omega
  · exact fun d hd => h.sized d (List.dropLast_subset _ hd)
  rcases List.eq_nil_or_concat' added with rfl | ⟨added, last, rfl⟩
  · -- a column of the configuration goes
    rw [List.append_nil] at hschemas
    refine ⟨j - 1, [], by omega, ?_, List.Forall₂.nil⟩
    show s.valSchema.schemas.dropLast = _
    rw [Schema.nschema] at hj
    rw [hschemas, List.append_nil, List.dropLast_eq_take, List.length_take, List.take_take,
      min_eq_left hj, min_eq_left (Nat.sub_le j 1)]
  · refine ⟨j, added, hj, ?_, ?_⟩
    · show s.valSchema.schemas.dropLast = _
      rw [hschemas, ← List.append_assoc, List.dropLast_concat]
    · rw [List.length_append, List.length_singleton, List.range'_concat, List.map_append] at hadded
      have htake := List.forall₂_take added.length hadded
      rwa [List.take_left' rfl, List.take_left' (by simp)] at htake

lemma reach (h : Evolved s₀ s) (hreach : Relation.ReflTransGen Alters s s') : Evolved s₀ s' := by
  induction hreach with
  | refl => exact h
  | tail _ hstep ih =>
      rcases hstep with ⟨r, r', hadd⟩ | hdrop
      · exact ih.add hadd
      · exact ih.drop hdrop

/-- The statements of a schema that has come from `s₀` are no longer than those of `s₀` with the
largest columns. -/
lemma stmtMax_le (h : Evolved s₀ s) {n : ℕ} (hn : n ≤ 8) (cmd : CmdType) :
    ∃ j ≤ s₀.valSchema.nschema, stmtMax n s cmd ≤ stmtMax 8 (grownMax s₀ j) cmd := by
  obtain ⟨j, added, hj, hschemas, hadded⟩ := h.exists_added
  have hkeys : s.keySchema = (grownMax s₀ j).keySchema := h.keySchema_eq
  refine ⟨j, hj, stmtMax_mono hn hkeys ?_ cmd⟩
  rw [List.sublistForall₂_iff]
  refine ⟨s₀.valSchema.schemas.take j ++ (List.range' j added.length).map addedMax, ?_, ?_⟩
  · rw [hschemas]
    exact List.rel_append (List.forall₂_same.2 fun d _ => Under.refl d) hadded
  · refine List.Sublist.append_left (List.Sublist.map _ ?_) _
    rw [List.range'_sublist_right]
    have hcap := h.le_capacity
    rw [nschema_eq hj hschemas] at hcap
    omega

end Evolved

/-! ### Configuration files -/

/-- `config_type_t`. -/
inductive ConfigType where
  | xml
  | txt
  | unrecognized
  | error
deriving DecidableEq, Repr

/-- The lines that `getline` delivers, each with its newline. -/
def fileLines : Bytes → List Bytes
  | [] => []
  | c :: file =>
      if c = 10 then [c] :: fileLines file
      else
        match fileLines file with
        | [] => [[c]]
        | line :: lines => (c :: line) :: lines

/-- The loop of `parser_check_type`: the last line with one of the patterns decides. -/
def checkLines : List Bytes → ConfigType → ConfigType
  | [], ret => ret
  | line :: file, ret =>
      -- the search ends at a NUL
      let buff := line.takeWhile (· ≠ 0)
      if (strstr buff (ascii "<?xml")).isSome then checkLines file .xml
      else if (strstr buff (ascii "[server]")).isSome then checkLines file .txt
      else checkLines file ret

/-- `parser_check_type`; `none` is a file that cannot be read.  With a size that is not valid
`fclose` is called before the file has been opened. -/
def parserCheckType : Option Bytes → Outcome ConfigType
  | none => .fault
  | some file =>
      if file.length = 0 ∨ file.length > configMaxLength then .fault
      else .ret (checkLines (fileLines file) .error)

/-- The schema is made from a table element of a file that is accepted as an XML file.
`xmlReadFile` is the function of libxml2. -/
structure ConfigTable (xmlReadFile : Bytes → Option (Option XmlNode))
    (probe : Bytes → UInt64 → UInt64) (fuel : ℕ) (file : Bytes) (schema : TableSchema) : Prop where
  check : parserCheckType (some file) = .ret .xml
  read : ∃ stores, parserReadXml probe fuel (xmlReadFile file) Stores.init = .ret (.succeed, stores)
  table : ∃ root tables node, xmlReadFile file = some (some root) ∧
    findSection (ascii "tables") root.children = .ret (some tables) ∧
    node ∈ nodesNamed (ascii "table") tables.children ∧
    parserReadTableSchema node = .ret (some schema)

lemma length_randomTableName_le (v : ℕ) : (randomTableName v).length ≤ 8 := by
  have hdigits : (decimal (v % 10000)).length ≤ 4 :=
    length_decimal_le (by decide) (Nat.mod_lt _ (by decide))
  have htest : (ascii "test").length = 4 := rfl
  rw [randomTableName, List.length_append]
  omega

/-- **Statements that fit the buffer.**  When the longest statements of a table of an accepted
configuration file fit, so does, with its NUL, every statement that is written for a schema
which any number of `add_table_data` and `drop_table_data` has made from it. -/
theorem statements_fit_buffer (xmlReadFile : Bytes → Option (Option XmlNode))
    (probe : Bytes → UInt64 → UInt64) (fuel : ℕ) (file : Bytes) (s₀ s : TableSchema)
    (hconfig : ConfigTable xmlReadFile probe fuel file s₀)
    (hsized : ∀ data ∈ s₀.columns, data.Sized) (hfits : FitsBuffer s₀)
    (hreach : Relation.ReflTransGen Alters s₀ s) (ctx : EngCtx) (v : ℕ) (g g' : Globals)
    (cmd : CmdType) (buf : SqlBuf)
    (hrun : sqlGen ctx (randomTableName v) s g cmd = .ret (buf, g')) :
    buf.text.length + 1 ≤ sqlBufferLen := by
  obtain ⟨root, tables, node, -, -, -, hread⟩ := hconfig.table
  obtain ⟨-, -, hcapacity, hle⟩ := ReadsTable.columns hread
  have hevolved : Evolved s₀ s :=
    (Evolved.refl (hcapacity ▸ hle) fun d hd => hsized d (List.mem_append_right _ hd)).reach hreach
  have hsized' : ∀ data ∈ s.columns, data.Sized := by
    intro d hd
    rcases List.mem_append.1 hd with hd | hd
    · rw [hevolved.keySchema_eq] at hd
      exact hsized d (List.mem_append_left _ hd)
    · exact hevolved.sized d hd
  obtain ⟨j, hj, hmax⟩ := hevolved.stmtMax_le (length_randomTableName_le v) cmd
  have hlen := length_sqlGen_le hsized' hrun
  have hfit := hfits j hj cmd
  omega

/-- The text of a configuration file with one table: the key `id` and one `varchar` column of
the given length. -/
def oneTableFile (length : String) : Bytes :=
  ascii "<?xml version=\"1.0\"?>\n<checkq><servers/><cmds/><tables><table>" ++
    ascii "<key name=\"id\" type=\"bigint\"/><column name=\"text\" type=\"varchar\" length=\"" ++
    ascii length ++ ascii "\"/></table></tables></checkq>\n"

/-- The tree of the file. -/
def oneTableRoot (length : String) : XmlNode :=
  .mk (ascii "checkq") [] [.mk (ascii "servers") [] [], .mk (ascii "cmds") [] [],
    .mk (ascii "tables") [] [.mk (ascii "table") [] [
      .mk (ascii "key") [(ascii "name", ascii "id"), (ascii "type", ascii "bigint")] [],
      .mk (ascii "column") [(ascii "name", ascii "text"), (ascii "type", ascii "varchar"),
        (ascii "length", ascii length)] []]]]

/-- The schema of the table. -/
def oneTableSchema (len : Int32) : TableSchema :=
  ⟨⟨[⟨ascii "id", .bigint, 0⟩], 100⟩, ⟨[⟨ascii "text", .varchar, len⟩], 100⟩⟩

lemma oneTable_config {length : String} {len : Int32}
    (hcheck : parserCheckType (some (oneTableFile length)) = .ret .xml)
    (hlen : Int32.ofInt (atoi (ascii length)) = len) :
    ConfigTable (fun _ => some (some (oneTableRoot length))) (fun _ _ => 0) 0 (oneTableFile length)
      (oneTableSchema len) := by
  subst hlen
  exact ⟨hcheck, ⟨_, rfl⟩, oneTableRoot length, _, _, rfl, rfl, List.mem_singleton_self _, rfl⟩

/-- A column of 100 characters, before and after it is dropped. -/
theorem statements_fit_buffer_hundred :
    ∃ s, dropTableData (oneTableSchema 100) = .ret s ∧ ∃ buf g',
      sqlGen ⟨0, 0⟩ (randomTableName 7) s ⟨0, fun _ => 0⟩ .insert = .ret (buf, g') ∧
        buf.text.length + 1 ≤ sqlBufferLen := by
  have hsized : ∀ data ∈ (oneTableSchema 100).columns, data.Sized := by decide
  have hfits : FitsBuffer (oneTableSchema 100) := by
    intro j hj cmd
    cases cmd <;> revert j <;> decide +kernel
  obtain ⟨⟨buf, g'⟩, hrun⟩ := sqlGen_ret ⟨0, 0⟩ (randomTableName 7)
    (s := ⟨(oneTableSchema 100).keySchema, ⟨[], 100⟩⟩) (by decide) (by decide) (by decide)
    ⟨0, fun _ => 0⟩ (show CmdType.isTraversal .insert = true from rfl)
  refine ⟨_, rfl, buf, g', hrun, ?_⟩
  exact statements_fit_buffer (fun _ => some (some (oneTableRoot "100"))) (fun _ _ => 0) 0
    (oneTableFile "100") (oneTableSchema 100) _ (oneTable_config (by decide +kernel) (by decide))
    hsized hfits (Relation.ReflTransGen.single (Or.inr rfl)) ⟨0, 0⟩ 7 ⟨0, fun _ => 0⟩ g' .insert buf
    hrun

/-- What `write_varchar` writes for a value when `rand()` gives the largest remainder. -/
lemma writeLiteral_largest {data : TableData} (hty : data.type = .varchar) {n : ℕ}
    (hlen : data.len.toInt = n + 1) (ctx : EngCtx) {g : Globals} (hrand : g.rand 0 = n) :
    ∃ lit g', writeLiteral ctx data false g = .ret (lit, g') ∧ lit.2.length = n + 1 := by
  have hpos : 0 < data.len.toInt := by omega
  have hmax := data.len.toInt_lt
  have hmod : (Int32.ofInt ((g.nextSeed.2.nextRand.1 : Int).tmod data.len.toInt + 1)).toInt
      = n + 1 := by
    have hnext : g.nextSeed.2.nextRand.1 = n := hrand
    rw [hnext, hlen, Int.tmod_eq_of_lt (by omega) (by omega),
      Int32.toInt_ofInt_of_le (by omega) (by omega)]
  rw [writeLiteral, hty]
  simp only [writeVarchar, if_neg (ne_zero_of_pos hpos), Bool.false_eq_true, if_false]
  rw [stringFrandomInt_ret (by omega)]
  refine ⟨_, _, rfl, ?_⟩
  rw [length_stringFrandom, hmod]
  rfl

/-- A table with a column of 2000000 characters is accepted, and an INSERT for it is longer than
the buffer when `rand()` gives 1999999. -/
theorem accepted_table_overflows :
    ConfigTable (fun _ => some (some (oneTableRoot "2000000"))) (fun _ _ => 0) 0
        (oneTableFile "2000000") (oneTableSchema 2000000) ∧
      (∀ data ∈ (oneTableSchema 2000000).columns, data.Sized) ∧
      ∃ buf g', sqlGen ⟨0, 0⟩ (randomTableName 7) (oneTableSchema 2000000) ⟨0, fun _ => 1999999⟩
          .insert = .ret (buf, g') ∧
        sqlBufferLen < buf.text.length + 1 := by
  refine ⟨oneTable_config (by decide +kernel) (by decide), by decide, ?_⟩
  have hsized : TableData.Sized ⟨ascii "id", .bigint, 0⟩ := by decide
  obtain ⟨key, hkey⟩ := keyLiteral_ret ⟨0, 0⟩ hsized
  obtain ⟨buf₁, hrun₁, -⟩ := writeColumns_keys (List.Forall₂.cons hkey List.Forall₂.nil)
    ⟨ascii "insert into " ++ randomTableName 7 ++ ascii " values(", []⟩ ⟨0, fun _ => 1999999⟩
  obtain ⟨lit, g', hlit, hlen⟩ := writeLiteral_largest (n := 1999999)
    (show TableData.type ⟨ascii "text", .varchar, 2000000⟩ = .varchar from rfl) (by decide) ⟨0, 0⟩
    (g := ⟨0, fun _ => 1999999⟩) rfl
  refine ⟨(buf₁.column lit).back.put (ascii ")"), g', ?_, ?_⟩
  · simp only [sqlGen, insertGen, oneTableSchema, hrun₁, Outcome.ret_bind, writeColumns, hlit,
      Bool.false_eq_true, if_false, Outcome.pure_eq]
  · rw [SqlBuf.put, SqlBuf.back, text_column]
    simp only [List.length_append, List.length_dropLast, length_quoted, hlen, sqlBufferLen]
    omega

end CheckQ
