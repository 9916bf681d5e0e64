import CheckQ.Mysql.SqlKeys
import CheckQ.Mysql.SqlLexer

/-!
# CREATE, INSERT and SELECT agree column by column

An INSERT names no columns: its literals go to the columns of the table in the order in which
CREATE declared them, and SELECT reads them back by name in the same order.  Each of the three
texts is a head, items that are separated by commas, and a tail; when the names of the columns
are words no item has a comma in it, so the items are what lies between the commas.
-/

namespace CheckQ

/-- The byte `,`. -/
def commaByte : UInt8 := 44

/-- A text of items between `head` and `tail`, separated by commas. -/
def ListsItems (head : Bytes) (items : List Bytes) (tail text : Bytes) : Prop :=
  ∃ body, text = head ++ body ++ tail ∧ body.splitOn commaByte = items

/-- What the generators write for `items`, with the last comma taken back. -/
lemma listsItems_flatMap {items : List Bytes} (hne : items ≠ [])
    (hcomma : ∀ item ∈ items, commaByte ∉ item) (head tail : Bytes) :
    ListsItems head items tail
      ((head ++ items.flatMap fun item => item ++ ascii ",").dropLast ++ tail) := by
  refine ⟨(ascii ",").intercalate items, ?_, List.splitOn_intercalate commaByte hcomma hne⟩
  rw [dropLast_flatMap_comma hne]

/-! ### The items -/

/-- The declaration of a column in `create_gen`. -/
def columnItem (isKey : Bool) (data : TableData) : Bytes :=
  data.name ++ ascii " " ++ columnType data ++ if isKey then ascii " primary key" else []

/-- The declarations of all columns. -/
def columnItems (s : TableSchema) : List Bytes :=
  s.keySchema.schemas.map (columnItem true) ++ s.valSchema.schemas.map (columnItem false)

/-- A literal of a column: a number below `2^63`, or as many characters as the column has room
for, without quotes and commas. -/
def LiteralFits (data : TableData) (lit : Bytes) : Prop :=
  match data.type with
  | .bigint => ∃ v < 2 ^ 63, lit = decimal v
  | .varchar => 1 ≤ lit.length ∧ (lit.length : Int) ≤ data.len.toInt ∧
      quoteByte ∉ lit ∧ commaByte ∉ lit

/-- The name of a column consists of letters, digits and underscores. -/
def TableData.Named (data : TableData) : Prop := ∀ c ∈ data.name, isWord c = true

instance (data : TableData) : Decidable data.Named :=
  List.decidableBAll (fun c => isWord c = true) data.name

lemma commaByte_notMem_decimalInt (v : Int) : commaByte ∉ decimalInt v := by
  cases v with
  | ofNat n => exact notMem_of_class (decimal_spec n).1 rfl
  | negSucc n =>
      rw [decimalInt, List.mem_append, not_or]
      exact ⟨by decide, notMem_of_class (decimal_spec (n + 1)).1 rfl⟩

lemma commaByte_notMem_columnItem {data : TableData} (h : data.Named) (isKey : Bool) :
    commaByte ∉ columnItem isKey data := by
  have htype : commaByte ∉ columnType data := by
    rw [columnType]
    cases data.type with
    | bigint => exact (by decide : commaByte ∉ ascii "bigint")
    | varchar =>
        simp only [List.mem_append, not_or]
        exact ⟨⟨by decide, commaByte_notMem_decimalInt _⟩, by decide⟩
  have hkey : commaByte ∉ (if isKey then ascii " primary key" else []) := by
    cases isKey <;> decide
  simp only [columnItem, List.mem_append, not_or]
  exact ⟨⟨⟨notMem_of_class h rfl, by decide⟩, htype⟩, hkey⟩

lemma LiteralFits.commaByte_notMem {data : TableData} {lit : Bytes} (h : LiteralFits data lit) :
    commaByte ∉ quoted lit := by
  have hlit : commaByte ∉ lit := by
    rw [LiteralFits] at h
    cases hty : data.type with
    | bigint =>
        rw [hty] at h
        obtain ⟨v, -, rfl⟩ := h
        exact notMem_of_class (decimal_spec v).1 rfl
    | varchar =>
        rw [hty] at h
        exact h.2.2.2
  simp only [quoted, List.mem_append, not_or]
  exact ⟨⟨by decide, hlit⟩, by decide⟩

/-- Lists that are related item by item: an item on the right has a partner on the left. -/
lemma exists_of_mem_right {α β : Type} {R : α → β → Prop} {l₁ : List α} {l₂ : List β}
    (h : List.Forall₂ R l₁ l₂) {b : β} (hb : b ∈ l₂) : ∃ a ∈ l₁, R a b := by
  induction h with
  | nil => simp at hb
  | @cons a b' l₁ l₂ hab _ ih =>
      rcases List.mem_cons.1 hb with rfl | hb
      · exact ⟨a, by simp, hab⟩
      · obtain ⟨a', ha', hab'⟩ := ih hb
        exact ⟨a', by simp [ha'], hab'⟩

lemma commaByte_notMem_of_fits {datas : List TableData} {lits : List Bytes}
    (h : List.Forall₂ LiteralFits datas lits) : ∀ item ∈ lits.map quoted, commaByte ∉ item := by
  intro item hitem
  obtain ⟨lit, hlit, rfl⟩ := List.mem_map.1 hitem
  obtain ⟨data, -, hfits⟩ := exists_of_mem_right h hlit
  exact hfits.commaByte_notMem

/-! ### The literals -/

lemma commaByte_notMem_stringFrandom (len : ℕ) (seed : UInt64) :
    commaByte ∉ stringFrandom len seed := by
  intro h
  have := le_of_mem_stringFrandom h
  exact absurd this (by decide)

/-- A random string of a length in the range of the column. -/
lemma stringFrandomInt_fits {data : TableData} (hty : data.type = .varchar) {len : Int32}
    (h₁ : 1 ≤ len.toInt) (h₂ : len.toInt ≤ data.len.toInt) (seed : Int32) :
    ∃ lit, stringFrandomInt len seed = .ret lit ∧ LiteralFits data lit.2 := by
  refine ⟨_, stringFrandomInt_ret (by omega) seed, ?_⟩
  rw [LiteralFits, hty]
  dsimp only
  rw [length_stringFrandom]
  exact ⟨by omega, by omega, quoteByte_notMem_stringFrandom _ _, commaByte_notMem_stringFrandom _ _⟩

lemma toNat_shiftRight_one_lt (u : UInt64) : (u >>> 1).toNat < 2 ^ 63 := by
  have hlt := u.toNat_lt
  have hone : (1 : UInt64).toNat % 64 = 1 := rfl
  rw [UInt64.toNat_shiftRight, hone, Nat.shiftRight_eq_div_pow]
  omega

/-- `write_bigint` and `write_varchar` write a literal of the column. -/
lemma writeLiteral_fits {data : TableData} (h : data.Sized) (ctx : EngCtx) (isKey : Bool)
    (g : Globals) :
    ∃ lit g', writeLiteral ctx data isKey g = .ret (lit, g') ∧ LiteralFits data lit.2 := by
  rw [writeLiteral]
  cases hty : data.type with
  | bigint =>
      refine ⟨_, _, rfl, ?_⟩
      rw [LiteralFits, hty]
      exact ⟨_, toNat_shiftRight_one_lt _, rfl⟩
  | varchar =>
      have hpos := h hty
      simp only [writeVarchar, if_neg (ne_zero_of_pos hpos)]
      cases isKey with
      | true =>
          have hlen := keyLength hpos (frandom (toUint64 ctx.seedBase) (toUint64 ctx.tid))
          obtain ⟨lit, hlit, hfits⟩ := stringFrandomInt_fits hty hlen.1 hlen.2 ctx.seedBase
          exact ⟨lit, g, by simp only [if_true, hlit]; rfl, hfits⟩
      | false =>
          have hlen := valLength hpos g.nextSeed.2.nextRand.1
          obtain ⟨lit, hlit, hfits⟩ := stringFrandomInt_fits hty hlen.1 hlen.2 g.nextSeed.1
          exact ⟨lit, _, by simp only [Bool.false_eq_true, if_false, hlit]; rfl, hfits⟩

/-- The columns of an INSERT. -/
lemma writeColumns_fits {datas : List TableData} (h : ∀ data ∈ datas, data.Sized) (ctx : EngCtx)
    (isKey : Bool) (buf : SqlBuf) (g : Globals) :
    ∃ lits buf' g', writeColumns ctx isKey false datas buf g = .ret (buf', g') ∧
      buf'.text = buf.text ++ (lits.map quoted).flatMap (fun item => item ++ ascii ",") ∧
      List.Forall₂ LiteralFits datas lits := by
  induction datas generalizing buf g with
  | nil => exact ⟨[], buf, g, rfl, by simp, List.Forall₂.nil⟩
  | cons data datas ih =>
      obtain ⟨lit, g₁, hlit, hfits⟩ := writeLiteral_fits (h data (by simp)) ctx isKey g
      obtain ⟨lits, buf', g', hrun, htext, hall⟩ :=
        ih (fun d hd => h d (by simp [hd])) (buf.column lit) g₁
      refine ⟨lit.2 :: lits, buf', g', ?_, ?_, List.Forall₂.cons hfits hall⟩
      · rw [writeColumns, hlit]
        exact hrun
      · rw [htext, text_column, List.map_cons, List.flatMap_cons, List.append_assoc]

/-! ### The statements -/

/-- INSERT writes a literal for every column. -/
lemma insertGen_fits {s : TableSchema} (hsized : ∀ data ∈ s.columns, data.Sized) (ctx : EngCtx)
    (name : Bytes) (g : Globals) :
    ∃ lits buf g', insertGen ctx name s g = .ret (buf, g') ∧
      buf.text = (ascii "insert into " ++ name ++ ascii " values(" ++
        (lits.map quoted).flatMap fun item => item ++ ascii ",").dropLast ++ ascii ")" ∧
      List.Forall₂ LiteralFits s.columns lits := by
  obtain ⟨lits₁, buf₁, g₁, hrun₁, htext₁, hall₁⟩ :=
    writeColumns_fits (fun data hd => hsized data (List.mem_append_left _ hd)) ctx true
      ⟨ascii "insert into " ++ name ++ ascii " values(", []⟩ g
  obtain ⟨lits₂, buf₂, g₂, hrun₂, htext₂, hall₂⟩ :=
    writeColumns_fits (fun data hd => hsized data (List.mem_append_right _ hd)) ctx false buf₁ g₁
  have hall : List.Forall₂ LiteralFits s.columns (lits₁ ++ lits₂) := List.rel_append hall₁ hall₂
  refine ⟨lits₁ ++ lits₂, buf₂.back.put (ascii ")"), g₂, ?_, ?_, hall⟩
  · simp only [insertGen, hrun₁, hrun₂, Outcome.ret_bind, Outcome.pure_eq]
  · rw [SqlBuf.put, SqlBuf.back, htext₂, htext₁, List.append_assoc _ (List.flatMap _ _),
      ← List.flatMap_append, ← List.map_append]

section Statements

variable {s : TableSchema} (hkey : s.keySchema.schemas ≠ [])
include hkey

lemma columns_ne_nil : s.columns ≠ [] := by
  rw [TableSchema.columns]
  exact List.append_ne_nil_of_left_ne_nil hkey _

lemma columnItems_ne_nil : columnItems s ≠ [] := by
  rw [columnItems]
  exact List.append_ne_nil_of_left_ne_nil (by simpa using hkey) _

/-- The text of `create_gen`, as items separated by commas. -/
lemma createGen_eq (name : Bytes) :
    createGen name s = ascii "create table " ++ name ++ ascii " (" ++
      (ascii ",").intercalate (columnItems s) ++ ascii ")" := by
  rw [← dropLast_flatMap_comma (columnItems_ne_nil hkey), columnItems, List.flatMap_append,
    List.flatMap_map, List.flatMap_map]
  simp only [createGen, columnItem, if_true, Bool.false_eq_true, if_false, List.append_nil,
    List.append_assoc]

lemma createGen_lists (hnamed : ∀ data ∈ s.columns, data.Named) (name : Bytes) :
    ListsItems (ascii "create table " ++ name ++ ascii " (") (columnItems s) (ascii ")")
      (createGen name s) := by
  refine ⟨_, createGen_eq hkey name,
    List.splitOn_intercalate commaByte ?_ (columnItems_ne_nil hkey)⟩
  intro item hitem
  rcases List.mem_append.1 hitem with hmem | hmem
  · obtain ⟨data, hdata, rfl⟩ := List.mem_map.1 hmem
    exact commaByte_notMem_columnItem (hnamed data (List.mem_append_left _ hdata)) true
  · obtain ⟨data, hdata, rfl⟩ := List.mem_map.1 hmem
    exact commaByte_notMem_columnItem (hnamed data (List.mem_append_right _ hdata)) false

lemma insertGen_lists (hsized : ∀ data ∈ s.columns, data.Sized) (ctx : EngCtx) (name : Bytes)
    (g : Globals) :
    ∃ lits buf g', insertGen ctx name s g = .ret (buf, g') ∧
      ListsItems (ascii "insert into " ++ name ++ ascii " values(") (lits.map quoted) (ascii ")")
        buf.text ∧ List.Forall₂ LiteralFits s.columns lits := by
  obtain ⟨lits, buf, g', hrun, htext, hall⟩ := insertGen_fits hsized ctx name g
  refine ⟨lits, buf, g', hrun, ?_, hall⟩
  rw [htext]
  refine listsItems_flatMap ?_ (commaByte_notMem_of_fits hall) _ _
  intro hnil
  rw [List.map_eq_nil_iff] at hnil
  rw [hnil, List.forall₂_nil_right_iff] at hall
  exact columns_ne_nil hkey hall

lemma selectGen_lists (hnamed : ∀ data ∈ s.columns, data.Named)
    (hsized : ∀ data ∈ s.columns, data.Sized) (ctx : EngCtx) (name : Bytes) (g : Globals) :
    ∃ rest buf g', selectGen ctx name s g = .ret (buf, g') ∧
      ListsItems (ascii "select ") (s.columns.map TableData.name)
        (ascii " from " ++ name ++ ascii " where " ++ rest) buf.text := by
  obtain ⟨key, keys, heq⟩ := List.exists_cons_of_ne_nil hkey
  have hget : s.keySchema.schemas[0]? = some key := by simp [heq]
  obtain ⟨lit, hlit⟩ := keyLiteral_ret ctx (hsized key (by simp [TableSchema.columns, heq]))
  obtain ⟨buf, hrun, htext⟩ := whereGen_text hget hlit (selectHead name s) g
  refine ⟨key.name ++ ascii "=" ++ quoted lit.2, buf, g, hrun, ?_⟩
  have hcomma : ∀ item ∈ s.columns.map TableData.name, commaByte ∉ item := by
    intro item hitem
    obtain ⟨data, hdata, rfl⟩ := List.mem_map.1 hitem
    exact notMem_of_class (hnamed data hdata) rfl
  have hitems := listsItems_flatMap (by simpa using columns_ne_nil hkey) hcomma (ascii "select ")
    (ascii " from " ++ name ++ ascii " where " ++ (key.name ++ ascii "=" ++ quoted lit.2))
  rw [List.flatMap_map] at hitems
  rw [htext]
  simpa only [selectHead, SqlBuf.put, SqlBuf.back, List.append_assoc] using hitems

end Statements

lemma columnItems_getElem? {s : TableSchema} {i : ℕ} {data : TableData}
    (h : s.columns[i]? = some data) :
    (columnItems s)[i]? = some (columnItem (decide (i < s.keySchema.nschema)) data) := by
  rw [TableSchema.columns] at h
  rw [columnItems, Schema.nschema]
  by_cases hi : i < s.keySchema.schemas.length
  · rw [List.getElem?_append_left hi] at h
    rw [List.getElem?_append_left (by simpa using hi), List.getElem?_map, h]
    simp [hi]
  · rw [List.getElem?_append_right (by omega)] at h
    rw [List.getElem?_append_right (by simpa using hi), List.length_map, List.getElem?_map, h]
    simp [hi]

/-- The texts of CREATE, INSERT and SELECT have one item for every column, and the items at one
place belong to one column: the declaration of it, a literal that it has room for, and its
name. -/
def TextsAgree (name : Bytes) (s : TableSchema) (create insert select : Bytes) : Prop :=
  ∃ (defs lits names : List Bytes) (rest : Bytes),
    ListsItems (ascii "create table " ++ name ++ ascii " (") defs (ascii ")") create ∧
    ListsItems (ascii "insert into " ++ name ++ ascii " values(") (lits.map quoted) (ascii ")")
      insert ∧
    ListsItems (ascii "select ") names (ascii " from " ++ name ++ ascii " where " ++ rest)
      select ∧
    defs.length = s.keySchema.nschema + s.valSchema.nschema ∧
    lits.length = s.keySchema.nschema + s.valSchema.nschema ∧
    names.length = s.keySchema.nschema + s.valSchema.nschema ∧
    ∀ i data, s.columns[i]? = some data →
      defs[i]? = some (columnItem (decide (i < s.keySchema.nschema)) data) ∧
      names[i]? = some data.name ∧ ∃ lit, lits[i]? = some lit ∧ LiteralFits data lit

/-- **CREATE, INSERT and SELECT agree column by column**, whatever the threads, the seeds and the
random numbers of the statements are. -/
theorem columns_agree (s : TableSchema) (hkey : s.keySchema.schemas ≠ [])
    (hnamed : ∀ data ∈ s.columns, data.Named) (hsized : ∀ data ∈ s.columns, data.Sized)
    (name : Bytes) (ctx₁ ctx₂ : EngCtx) (g₁ g₂ : Globals) :
    ∃ buf₁ g₁' buf₂ g₂', insertGen ctx₁ name s g₁ = .ret (buf₁, g₁') ∧
      selectGen ctx₂ name s g₂ = .ret (buf₂, g₂') ∧
      TextsAgree name s (createGen name s) buf₁.text buf₂.text := by
  obtain ⟨lits, buf₁, g₁', hinsert, hlits, hfits⟩ := insertGen_lists hkey hsized ctx₁ name g₁
  obtain ⟨rest, buf₂, g₂', hselect, hnames⟩ := selectGen_lists hkey hnamed hsized ctx₂ name g₂
  have hlen : s.columns.length = s.keySchema.nschema + s.valSchema.nschema := by
    rw [TableSchema.columns, List.length_append]
    rfl
  refine ⟨buf₁, g₁', buf₂, g₂', hinsert, hselect, columnItems s, lits,
    s.columns.map TableData.name, rest, createGen_lists hkey hnamed name, hlits, hnames,
    ?_, ?_, ?_, ?_⟩
  · simp [columnItems, Schema.nschema]
  · rw [← hfits.length_eq, hlen]
  · rw [List.length_map, hlen]
  · intro i data hdata
    refine ⟨columnItems_getElem? hdata, by simp [hdata], ?_⟩
    obtain ⟨hi, rfl⟩ := List.getElem?_eq_some_iff.1 hdata
    have hi' : i < lits.length := hfits.length_eq ▸ hi
    exact ⟨lits[i], List.getElem?_eq_getElem hi', hfits.get hi hi'⟩

/-- A table with a key and a value column of each type. -/
def fourSchema : TableSchema :=
  ⟨⟨[⟨ascii "id", .varchar, 8⟩, ⟨ascii "no", .bigint, 0⟩], 100⟩,
    ⟨[⟨ascii "first_name", .varchar, 20⟩, ⟨ascii "age", .bigint, 0⟩], 100⟩⟩

theorem columns_agree_four :
    ∃ buf₁ g₁' buf₂ g₂',
      insertGen ⟨1, 3⟩ (ascii "test7") fourSchema ⟨5, fun n => n⟩ = .ret (buf₁, g₁') ∧
      selectGen ⟨1, 3⟩ (ascii "test7") fourSchema ⟨9, fun n => n⟩ = .ret (buf₂, g₂') ∧
      TextsAgree (ascii "test7") fourSchema (createGen (ascii "test7") fourSchema) buf₁.text
        buf₂.text :=
  columns_agree fourSchema (by decide) (by decide) (by decide) (ascii "test7") ⟨1, 3⟩ ⟨1, 3⟩
    ⟨5, fun n => n⟩ ⟨9, fun n => n⟩

end CheckQ
