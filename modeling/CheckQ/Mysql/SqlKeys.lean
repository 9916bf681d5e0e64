import CheckQ.Mysql.SqlGen
import Mathlib.Data.List.Forall2

/-!
# All statements of a traversal address the same row

The literal of a key column is made from the thread number and the seed that the traversal
started with, and from nothing else: `keyLiteral` is that function, and `writeLiteral_key`
says that the generators write its value whatever the globals are.  The texts of the four
generators follow from it: INSERT writes the literals of all key columns in order, and the
other three end in a condition with the literal of the first one.
-/

namespace CheckQ

/-- The literal of a key column. -/
def keyLiteral (ctx : EngCtx) (data : TableData) : Outcome (LiteralSource × Bytes) :=
  match data.type with
  | .bigint => .ret (.bigint ctx.seedBase,
      decimal (frandom (toUint64 ctx.seedBase) (toUint64 ctx.tid) >>> 1).toNat)
  | .varchar =>
      if data.len = 0 then .fault
      else stringFrandomInt (frandom (toUint64 ctx.seedBase) (toUint64 ctx.tid)
        % toUint64 data.len + 1).toUInt32.toInt32 ctx.seedBase

/-- A key literal neither depends on the globals nor changes them. -/
lemma writeLiteral_key (ctx : EngCtx) (data : TableData) (g : Globals) :
    writeLiteral ctx data true g = keyLiteral ctx data >>= fun lit => .ret (lit, g) := by
  rw [writeLiteral, keyLiteral]
  cases data.type with
  | bigint => rfl
  | varchar =>
      rw [writeVarchar]
      by_cases h : data.len = 0
      · simp [h]
      · simp [h]

/-! ### Columns whose literals can be written -/

/-- A `VARCHAR` has a positive length. -/
def TableData.Sized (data : TableData) : Prop := data.type = .varchar → 0 < data.len.toInt

instance (data : TableData) : Decidable data.Sized := by
  unfold TableData.Sized
  infer_instance

lemma toNat_toUint64 {v : Int32} (h : 0 ≤ v.toInt) : (toUint64 v).toNat = v.toInt.toNat := by
  have hle : (0 : Int64) ≤ v.toInt64 := by
    rw [Int64.le_iff_toInt_le, Int32.toInt_toInt64]
    exact h
  rw [toUint64, Int64.toNat_toUInt64_of_le hle, Int64.toNatClampNeg, Int32.toInt_toInt64]

lemma toInt_toInt32 {u : UInt64} (h : u.toNat < 2 ^ 31) : u.toUInt32.toInt32.toInt = u.toNat := by
  have hu : u.toUInt32 = UInt32.ofNat u.toNat := by
    rw [← UInt32.toNat_inj, UInt64.toNat_toUInt32, UInt32.toNat_ofNat']
  rw [hu, UInt32.toInt32_ofNat', Int32.toInt_ofNat_of_lt h]

lemma stringFrandomInt_ret {len : Int32} (h : 0 ≤ len.toInt) (seed : Int32) :
    stringFrandomInt len seed
      = .ret (.varchar seed len.toInt.toNat, stringFrandom len.toInt.toNat (toUint64 seed)) := by
  rw [stringFrandomInt, if_neg]
  rw [Int32.lt_iff_toInt_lt, Int32.toInt_zero]
  omega

lemma ne_zero_of_pos {v : Int32} (h : 0 < v.toInt) : v ≠ 0 := by
  rintro rfl
  simp at h

/-- The length chosen for a key: between one and the declared length. -/
lemma keyLength {len : Int32} (h : 0 < len.toInt) (u : UInt64) :
    1 ≤ (u % toUint64 len + 1).toUInt32.toInt32.toInt ∧
      (u % toUint64 len + 1).toUInt32.toInt32.toInt ≤ len.toInt := by
  have hlen := toNat_toUint64 (le_of_lt h)
  have hmax := len.toInt_lt
  have hmod : u.toNat % len.toInt.toNat < len.toInt.toNat := Nat.mod_lt _ (by omega)
  have hnat : (u % toUint64 len + 1).toNat = u.toNat % len.toInt.toNat + 1 := by
    have hone : (1 : UInt64).toNat = 1 := rfl
    rw [UInt64.toNat_add, UInt64.toNat_mod, hlen, hone]
    exact Nat.mod_eq_of_lt (by omega)
  rw [toInt_toInt32 (by omega), hnat]
  omega

/-- The length chosen for a value: between one and the declared length. -/
lemma valLength {len : Int32} (h : 0 < len.toInt) (v : ℕ) :
    1 ≤ (Int32.ofInt ((v : Int).tmod len.toInt + 1)).toInt ∧
      (Int32.ofInt ((v : Int).tmod len.toInt + 1)).toInt ≤ len.toInt := by
  have hmax := len.toInt_lt
  have hmod : (v : Int).tmod len.toInt = v % len.toInt :=
    Int.tmod_eq_emod_of_nonneg (Int.natCast_nonneg v)
  have hnonneg := Int.emod_nonneg (v : Int) (show len.toInt ≠ 0 by omega)
  have hlt := Int.emod_lt_of_pos (v : Int) h
  rw [hmod, Int32.toInt_ofInt_of_le (by omega) (by omega)]
  omega

lemma keyLiteral_ret {data : TableData} (ctx : EngCtx) (h : data.Sized) :
    ∃ lit, keyLiteral ctx data = .ret lit := by
  rw [keyLiteral]
  cases hty : data.type with
  | bigint => exact ⟨_, rfl⟩
  | varchar =>
      have hpos := h hty
      have hlen := keyLength hpos (frandom (toUint64 ctx.seedBase) (toUint64 ctx.tid))
      simp only [if_neg (ne_zero_of_pos hpos)]
      exact ⟨_, stringFrandomInt_ret (by omega) _⟩

lemma writeLiteral_ret {data : TableData} (ctx : EngCtx) (isKey : Bool) (g : Globals)
    (h : data.Sized) : ∃ q, writeLiteral ctx data isKey g = .ret q := by
  cases isKey with
  | true =>
      obtain ⟨lit, hlit⟩ := keyLiteral_ret ctx h
      exact ⟨(lit, g), by rw [writeLiteral_key, hlit]; rfl⟩
  | false =>
      rw [writeLiteral]
      cases hty : data.type with
      | bigint => exact ⟨_, rfl⟩
      | varchar =>
          have hpos := h hty
          have hlen := valLength hpos g.nextSeed.2.nextRand.1
          simp only [writeVarchar, if_neg (ne_zero_of_pos hpos), Bool.false_eq_true, if_false]
          exact ⟨_, by rw [stringFrandomInt_ret (by omega)]; rfl⟩

/-! ### The text of the columns -/

/-- A literal in its quotes. -/
def quoted (lit : Bytes) : Bytes := ascii "'" ++ lit ++ ascii "'"

lemma text_column (buf : SqlBuf) (lit : LiteralSource × Bytes) :
    (buf.column lit).text = buf.text ++ (quoted lit.2 ++ ascii ",") := by
  have h : ascii "'," = ascii "'" ++ ascii "," := rfl
  simp [SqlBuf.column, quoted, h]

/-- Columns are written behind what is there already. -/
lemma writeColumns_extends {ctx : EngCtx} {isKey named : Bool} {datas : List TableData}
    {buf buf' : SqlBuf} {g g' : Globals}
    (h : writeColumns ctx isKey named datas buf g = .ret (buf', g')) :
    ∃ ext, buf'.text = buf.text ++ ext := by
  induction datas generalizing buf g with
  | nil =>
      simp only [writeColumns, Outcome.ret.injEq, Prod.mk.injEq] at h
      exact ⟨[], by simp [h.1]⟩
  | cons data datas ih =>
      simp only [writeColumns] at h
      obtain ⟨⟨lit, g₁⟩, -, h⟩ := Outcome.bind_eq_ret.1 h
      obtain ⟨ext, hext⟩ := ih h
      rw [hext, text_column]
      cases named with
      | true => exact ⟨_, by simp [SqlBuf.put, List.append_assoc]; rfl⟩
      | false => exact ⟨_, by simp [List.append_assoc]; rfl⟩

lemma writeColumns_ret (ctx : EngCtx) (isKey named : Bool) {datas : List TableData}
    (h : ∀ data ∈ datas, data.Sized) (buf : SqlBuf) (g : Globals) :
    ∃ q, writeColumns ctx isKey named datas buf g = .ret q := by
  induction datas generalizing buf g with
  | nil => exact ⟨_, rfl⟩
  | cons data datas ih =>
      obtain ⟨⟨lit, g₁⟩, hlit⟩ := writeLiteral_ret ctx isKey g (h data (by simp))
      rw [writeColumns, hlit]
      exact ih (fun d hd => h d (by simp [hd])) _ _

/-- The key columns of INSERT. -/
lemma writeColumns_keys {ctx : EngCtx} {keys : List TableData}
    {lits : List (LiteralSource × Bytes)}
    (h : List.Forall₂ (fun data lit => keyLiteral ctx data = .ret lit) keys lits) (buf : SqlBuf)
    (g : Globals) :
    ∃ buf', writeColumns ctx true false keys buf g = .ret (buf', g) ∧
      buf'.text = buf.text ++ lits.flatMap fun lit => quoted lit.2 ++ ascii "," := by
  induction h generalizing buf with
  | nil => exact ⟨buf, rfl, by simp⟩
  | @cons data lit keys lits hlit _ ih =>
      obtain ⟨buf', hrun, htext⟩ := ih (buf.column lit)
      refine ⟨buf', ?_, ?_⟩
      · simp only [writeColumns, writeLiteral_key, hlit, Outcome.ret_bind]
        exact hrun
      · rw [htext, text_column, List.flatMap_cons, List.append_assoc]

/-- Items that each end in a comma, without the last one. -/
lemma flatMap_comma {lits : List Bytes} (h : lits ≠ []) :
    (lits.flatMap fun lit => lit ++ ascii ",") = (ascii ",").intercalate lits ++ ascii "," := by
  induction lits with
  | nil => exact absurd rfl h
  | cons lit lits ih =>
      cases lits with
      | nil => simp
      | cons lit' lits =>
          rw [List.flatMap_cons, ih (by simp), List.intercalate_cons_cons]
          simp [List.append_assoc]

/-- The items are written with a comma behind each, and the last comma is taken back. -/
lemma dropLast_flatMap_comma {items : List Bytes} (hne : items ≠ []) (head : Bytes) :
    (head ++ items.flatMap fun item => item ++ ascii ",").dropLast
      = head ++ (ascii ",").intercalate items := by
  have hcomma : ascii "," = [44] := rfl
  rw [flatMap_comma hne, hcomma, ← List.append_assoc, List.dropLast_concat]

/-! ### The statements -/

/-- An INSERT statement for the table `name` whose first values are the literals `lits`. -/
def InsertsKeys (name : Bytes) (lits : List Bytes) (text : Bytes) : Prop :=
  ∃ rest, text = ascii "insert into " ++ name ++ ascii " values(" ++
      (ascii ",").intercalate (lits.map quoted) ++ rest ∧
    (rest = ascii ")" ∨ ∃ more, rest = ascii "," ++ more)

/-- A statement that ends in the condition `key='lit'`. -/
def AddressesKey (key : TableData) (lit : Bytes) (text : Bytes) : Prop :=
  ∃ start, text = start ++ ascii " where " ++ key.name ++ ascii "=" ++ quoted lit

lemma insertGen_text {ctx : EngCtx} {name : Bytes} {s : TableSchema}
    {lits : List (LiteralSource × Bytes)} (hne : s.keySchema.schemas ≠ [])
    (hlits : List.Forall₂ (fun data lit => keyLiteral ctx data = .ret lit)
      s.keySchema.schemas lits)
    {g g' : Globals} {buf : SqlBuf} (h : insertGen ctx name s g = .ret (buf, g')) :
    InsertsKeys name (lits.map Prod.snd) buf.text := by
  have hne' : lits.map (fun lit => quoted lit.2) ≠ [] := by
    intro hnil
    rw [List.map_eq_nil_iff] at hnil
    subst hnil
    exact hne (List.forall₂_nil_right_iff.1 hlits)
  obtain ⟨buf₁, hkeys, htext₁⟩ := writeColumns_keys hlits
    ⟨ascii "insert into " ++ name ++ ascii " values(", []⟩ g
  simp only [insertGen, hkeys, Outcome.ret_bind] at h
  obtain ⟨⟨buf₂, g₂⟩, hvals, h⟩ := Outcome.bind_eq_ret.1 h
  obtain ⟨ext, hext⟩ := writeColumns_extends hvals
  simp only [Outcome.pure_eq, Outcome.ret.injEq, Prod.mk.injEq] at h
  rw [← List.flatMap_map (fun lit : LiteralSource × Bytes => quoted lit.2)
    (fun lit => lit ++ ascii ","), flatMap_comma hne'] at htext₁
  have hcomma : ascii "," = [44] := rfl
  rw [← h.1, InsertsKeys, List.map_map]
  simp only [SqlBuf.put, SqlBuf.back, hext, htext₁]
  rcases List.eq_nil_or_concat' ext with rfl | ⟨ext, c, rfl⟩
  · -- no value columns: the comma behind the last key is taken back
    refine ⟨ascii ")", ?_, Or.inl rfl⟩
    rw [List.append_nil, hcomma, ← List.append_assoc, List.dropLast_concat]
    rfl
  · refine ⟨ascii "," ++ (ext ++ ascii ")"), ?_, Or.inr ⟨_, rfl⟩⟩
    rw [← List.append_assoc _ ext [c], List.dropLast_concat]
    simp only [List.append_assoc]
    rfl

lemma whereGen_text {ctx : EngCtx} {s : TableSchema} {key : TableData}
    {lit : LiteralSource × Bytes} (hkey : s.keySchema.schemas[0]? = some key)
    (hlit : keyLiteral ctx key = .ret lit) (buf : SqlBuf) (g : Globals) :
    ∃ buf', whereGen ctx s buf g = .ret (buf', g) ∧
      buf'.text = buf.text ++ key.name ++ ascii "=" ++ quoted lit.2 := by
  have hcomma : ascii "," = [44] := rfl
  refine ⟨((buf.put (key.name ++ ascii "=")).column lit).back, ?_, ?_⟩
  · simp [whereGen, Schema.get, hkey, writeColumns, writeLiteral_key, hlit]
  · rw [SqlBuf.back, text_column, hcomma, ← List.append_assoc, List.dropLast_concat]
    simp [SqlBuf.put, List.append_assoc]

lemma deleteGen_text {ctx : EngCtx} {s : TableSchema} {key : TableData}
    {lit : LiteralSource × Bytes} (hkey : s.keySchema.schemas[0]? = some key)
    (hlit : keyLiteral ctx key = .ret lit) {name : Bytes} {g g' : Globals} {buf : SqlBuf}
    (h : deleteGen ctx name s g = .ret (buf, g')) : AddressesKey key lit.2 buf.text := by
  obtain ⟨buf', hrun, htext⟩ := whereGen_text hkey hlit
    ⟨ascii "delete from " ++ name ++ ascii " where ", []⟩ g
  rw [deleteGen, hrun, Outcome.ret.injEq, Prod.mk.injEq] at h
  exact ⟨ascii "delete from " ++ name, by rw [← h.1, htext]⟩

lemma updateGen_text {ctx : EngCtx} {s : TableSchema} {key : TableData}
    {lit : LiteralSource × Bytes} (hkey : s.keySchema.schemas[0]? = some key)
    (hlit : keyLiteral ctx key = .ret lit) {name : Bytes} {g g' : Globals} {buf : SqlBuf}
    (h : updateGen ctx name s g = .ret (buf, g')) : AddressesKey key lit.2 buf.text := by
  simp only [updateGen] at h
  obtain ⟨⟨buf₁, g₁⟩, -, h⟩ := Outcome.bind_eq_ret.1 h
  obtain ⟨buf', hrun, htext⟩ := whereGen_text hkey hlit (buf₁.back.put (ascii " where ")) g₁
  rw [hrun, Outcome.ret.injEq, Prod.mk.injEq] at h
  exact ⟨buf₁.back.text, by rw [← h.1, htext, SqlBuf.put]⟩

lemma selectGen_text {ctx : EngCtx} {s : TableSchema} {key : TableData}
    {lit : LiteralSource × Bytes} (hkey : s.keySchema.schemas[0]? = some key)
    (hlit : keyLiteral ctx key = .ret lit) {name : Bytes} {g g' : Globals} {buf : SqlBuf}
    (h : selectGen ctx name s g = .ret (buf, g')) : AddressesKey key lit.2 buf.text := by
  obtain ⟨buf', hrun, htext⟩ := whereGen_text hkey hlit (selectHead name s) g
  rw [selectGen, hrun, Outcome.ret.injEq, Prod.mk.injEq] at h
  refine ⟨(SqlBuf.back ((⟨ascii "select ", []⟩ : SqlBuf).put
    (s.columns.flatMap fun data => data.name ++ ascii ","))).text ++ ascii " from " ++ name, ?_⟩
  rw [← h.1, htext, selectHead]
  simp only [SqlBuf.put, List.append_assoc]

/-- The four commands of a command list. -/
def CmdType.isTraversal : CmdType → Bool
  | .insert => true
  | .delete => true
  | .update => true
  | .select => true
  | _ => false

lemma CmdType.isTraversal_iff {cmd : CmdType} : cmd.isTraversal = true ↔
    cmd = .insert ∨ cmd = .delete ∨ cmd = .update ∨ cmd = .select := by
  cases cmd <;> simp [CmdType.isTraversal]

/-- The statement `text` of a command writes the key literals `lits` of the columns `keys`. -/
def WritesKeys (name : Bytes) (keys : List TableData) (lits : List Bytes) :
    CmdType → Bytes → Prop
  | .insert, text => InsertsKeys name lits text
  | _, text => ∃ key lit, keys[0]? = some key ∧ lits[0]? = some lit ∧ AddressesKey key lit text

/-- A call of `sql_gen` in a traversal: the command, and the globals and the value columns
at the time of the call. -/
structure SqlGenCall where
  cmd : CmdType
  globals : Globals
  valSchema : Schema

lemma exists_keyLiterals (ctx : EngCtx) {keys : List TableData} (h : ∀ data ∈ keys, data.Sized) :
    ∃ lits, List.Forall₂ (fun data lit => keyLiteral ctx data = .ret lit) keys lits := by
  induction keys with
  | nil => exact ⟨[], List.Forall₂.nil⟩
  | cons key keys ih =>
      obtain ⟨lit, hlit⟩ := keyLiteral_ret ctx (h key (by simp))
      obtain ⟨lits, hlits⟩ := ih fun data hd => h data (by simp [hd])
      exact ⟨lit :: lits, List.Forall₂.cons hlit hlits⟩

/-- The generators return when every column they write has a length. -/
lemma sqlGen_ret (ctx : EngCtx) (name : Bytes) {s : TableSchema}
    (hne : s.keySchema.schemas ≠ []) (hkeys : ∀ data ∈ s.keySchema.schemas, data.Sized)
    (hvals : ∀ data ∈ s.valSchema.schemas, data.Sized) (g : Globals) {cmd : CmdType}
    (hcmd : cmd.isTraversal = true) : ∃ q, sqlGen ctx name s g cmd = .ret q := by
  obtain ⟨key, keys, heq⟩ := List.exists_cons_of_ne_nil hne
  have hkey : s.keySchema.schemas[0]? = some key := by simp [heq]
  obtain ⟨lit, hlit⟩ := keyLiteral_ret ctx (hkeys key (by simp [heq]))
  rcases CmdType.isTraversal_iff.1 hcmd with rfl | rfl | rfl | rfl
  · obtain ⟨⟨buf₁, g₁⟩, h₁⟩ := writeColumns_ret ctx true false hkeys
      ⟨ascii "insert into " ++ name ++ ascii " values(", []⟩ g
    obtain ⟨⟨buf₂, g₂⟩, h₂⟩ := writeColumns_ret ctx false false hvals buf₁ g₁
    refine ⟨(buf₂.back.put (ascii ")"), g₂), ?_⟩
    simp only [sqlGen, insertGen, h₁, h₂, Outcome.ret_bind, Outcome.pure_eq]
  · obtain ⟨buf', h, -⟩ := whereGen_text hkey hlit
      ⟨ascii "delete from " ++ name ++ ascii " where ", []⟩ g
    exact ⟨_, h⟩
  · obtain ⟨⟨buf₁, g₁⟩, h₁⟩ := writeColumns_ret ctx false true hvals
      ⟨ascii "update " ++ name ++ ascii " set ", []⟩ g
    obtain ⟨buf', h, -⟩ := whereGen_text hkey hlit (buf₁.back.put (ascii " where ")) g₁
    refine ⟨(buf', g₁), ?_⟩
    simp only [sqlGen, updateGen, h₁, Outcome.ret_bind, h]
  · obtain ⟨buf', h, -⟩ := whereGen_text hkey hlit (selectHead name s) g
    exact ⟨_, h⟩

/-- **All statements of one traversal address the same row.**  The key columns have literals
that every statement of the traversal writes for them, whatever the globals and the value
columns are at each call; and a call whose value columns have lengths returns. -/
theorem traversal_key_literals_agree (ctx : EngCtx) (name : Bytes) (keys : Schema)
    (hne : keys.schemas ≠ []) (hsized : ∀ data ∈ keys.schemas, data.Sized) :
    ∃ lits : List Bytes, lits.length = keys.nschema ∧
      ∀ calls : List SqlGenCall, ∀ call ∈ calls, call.cmd.isTraversal = true →
        (∀ buf g', sqlGen ctx name ⟨keys, call.valSchema⟩ call.globals call.cmd = .ret (buf, g') →
          WritesKeys name keys.schemas lits call.cmd buf.text) ∧
        ((∀ data ∈ call.valSchema.schemas, data.Sized) →
          ∃ q, sqlGen ctx name ⟨keys, call.valSchema⟩ call.globals call.cmd = .ret q) := by
  obtain ⟨lits, hlits⟩ := exists_keyLiterals ctx hsized
  refine ⟨lits.map Prod.snd, ?_, ?_⟩
  · rw [List.length_map, ← hlits.length_eq, Schema.nschema]
  rintro calls ⟨cmd, g, vals⟩ - hcmd
  refine ⟨?_, fun hvals => sqlGen_ret ctx name hne hsized hvals g hcmd⟩
  intro buf g' h
  cases hkeys : keys.schemas with
  | nil => exact absurd hkeys hne
  | cons key rest =>
      cases hl : lits with
      | nil =>
          rw [hl, hkeys] at hlits
          cases hlits
      | cons lit lits' =>
          have hkey : (TableSchema.mk keys vals).keySchema.schemas[0]? = some key := by simp [hkeys]
          have hlit : keyLiteral ctx key = .ret lit := by
            rw [hl, hkeys] at hlits
            exact (List.forall₂_cons.1 hlits).1
          have hhead : ∀ text, AddressesKey key lit.2 text →
              ∃ key' lit', (key :: rest)[0]? = some key' ∧
                ((lit :: lits').map Prod.snd)[0]? = some lit' ∧ AddressesKey key' lit' text :=
            fun text htext => ⟨key, lit.2, rfl, rfl, htext⟩
          rcases CmdType.isTraversal_iff.1 hcmd with rfl | rfl | rfl | rfl
          · rw [← hl]
            exact insertGen_text hne hlits h
          · exact hhead _ (deleteGen_text hkey hlit h)
          · exact hhead _ (updateGen_text hkey hlit h)
          · exact hhead _ (selectGen_text hkey hlit h)

/-- A table with a `VARCHAR` and a `BIGINT` key. -/
theorem traversal_key_literals_agree_two :
    ∃ lits : List Bytes, lits.length = 2 ∧
      ∀ calls : List SqlGenCall, ∀ call ∈ calls, call.cmd.isTraversal = true →
        (∀ buf g', sqlGen ⟨1, 3⟩ (ascii "test7")
            ⟨⟨[⟨ascii "id", .varchar, 8⟩, ⟨ascii "no", .bigint, 0⟩], 100⟩, call.valSchema⟩
            call.globals call.cmd = .ret (buf, g') →
          WritesKeys (ascii "test7") [⟨ascii "id", .varchar, 8⟩, ⟨ascii "no", .bigint, 0⟩] lits
            call.cmd buf.text) ∧
        ((∀ data ∈ call.valSchema.schemas, data.Sized) →
          ∃ q, sqlGen ⟨1, 3⟩ (ascii "test7")
            ⟨⟨[⟨ascii "id", .varchar, 8⟩, ⟨ascii "no", .bigint, 0⟩], 100⟩, call.valSchema⟩
            call.globals call.cmd = .ret q) :=
  traversal_key_literals_agree ⟨1, 3⟩ (ascii "test7")
    ⟨[⟨ascii "id", .varchar, 8⟩, ⟨ascii "no", .bigint, 0⟩], 100⟩ (by decide) (by decide)

end CheckQ
