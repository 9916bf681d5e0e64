import CheckQ.Mysql.SqlGen

/-!
# Generated literals and MySQL's lexer

`lexLiteral` reads a string literal by MySQL's default rules, from the byte after its opening
quote on: a quote ends the literal and a backslash escapes the byte after it.  What an escaped
byte stands for is left open.  A literal of a generated statement survives the lexer exactly
when it has neither of the two bytes, and the four alphabets of `string_frandom` have no
quote; the third one, `P` to `_`, has the backslash.
-/

namespace CheckQ

/-- The quote of a string literal. -/
def quoteByte : UInt8 := 0x27

/-- The escape byte of a string literal. -/
def backslashByte : UInt8 := 0x5c

/-- Read a literal: the bytes it denotes and the text behind its closing quote. -/
def lexLiteral (unescape : UInt8 → UInt8) : Bytes → Option (Bytes × Bytes)
  | [] => none
  | [c] => if c = quoteByte then some ([], []) else none
  | c :: d :: rest =>
      if c = quoteByte then some ([], d :: rest)
      else if c = backslashByte then
        (lexLiteral unescape rest).map fun q => (unescape d :: q.1, q.2)
      else (lexLiteral unescape (d :: rest)).map fun q => (c :: q.1, q.2)

variable {unescape : UInt8 → UInt8}

/-- A text without the two special bytes is read as it stands. -/
lemma lexLiteral_plain {bytes : Bytes} (hq : quoteByte ∉ bytes) (hb : backslashByte ∉ bytes)
    (rest : Bytes) :
    lexLiteral unescape (bytes ++ quoteByte :: rest) = some (bytes, rest) := by
  induction bytes with
  | nil => cases rest <;> simp [lexLiteral]
  | cons c bytes ih =>
      rw [List.mem_cons, not_or] at hq hb
      have ih' := ih hq.2 hb.2
      obtain ⟨d, more, hd⟩ : ∃ d more, bytes ++ quoteByte :: rest = d :: more := by
        cases bytes with
        | nil => exact ⟨_, _, rfl⟩
        | cons d bytes => exact ⟨_, _, rfl⟩
      rw [hd] at ih'
      rw [List.cons_append, hd, lexLiteral, if_neg (Ne.symm hq.1), if_neg (Ne.symm hb.1), ih']
      rfl

/-- Reading a literal takes more text than it denotes, and the more so where bytes are
escaped; without an escape the denoted bytes are what was read. -/
lemma lexLiteral_length {text bytes rest : Bytes}
    (h : lexLiteral unescape text = some (bytes, rest)) :
    bytes.length + 1 + rest.length ≤ text.length ∧
      (text.length = bytes.length + 1 + rest.length →
        quoteByte ∉ bytes ∧ backslashByte ∉ bytes) := by
  induction text using lexLiteral.induct generalizing bytes rest with
  | case1 => simp [lexLiteral] at h
  | case2 =>
      simp only [lexLiteral, if_true, Option.some.injEq, Prod.mk.injEq] at h
      simp [← h.1, ← h.2]
  | case3 c hc => simp [lexLiteral, hc] at h
  | case4 d more =>
      simp only [lexLiteral, if_true, Option.some.injEq, Prod.mk.injEq] at h
      obtain ⟨rfl, rfl⟩ := h
      simp only [List.length_nil, List.length_cons, List.not_mem_nil, not_false_eq_true, and_self,
        implies_true, and_true]
      omega
  | case5 d more hne ih =>
      simp only [lexLiteral, hne, if_false, if_true, Option.map_eq_some_iff, Prod.mk.injEq] at h
      obtain ⟨⟨bytes', rest'⟩, hrec, rfl, rfl⟩ := h
      have hlen := (ih hrec).1
      simp only [List.length_cons] at hlen ⊢
      refine ⟨by omega, fun heq => ?_⟩
      omega
  | case6 c d more hq hb ih =>
      simp only [lexLiteral, hq, hb, if_false, Option.map_eq_some_iff, Prod.mk.injEq] at h
      obtain ⟨⟨bytes', rest'⟩, hrec, rfl, rfl⟩ := h
      obtain ⟨hle, hplain⟩ := ih hrec
      simp only [List.length_cons] at hle hplain ⊢
      refine ⟨by omega, fun heq => ?_⟩
      obtain ⟨hq', hb'⟩ := hplain (by omega)
      exact ⟨by simp [hq', Ne.symm hq], by simp [hb', Ne.symm hb]⟩

/-- **A text in quotes survives exactly when it has neither a quote nor a backslash.** -/
lemma lexLiteral_iff (bytes rest : Bytes) :
    lexLiteral unescape (bytes ++ quoteByte :: rest) = some (bytes, rest) ↔
      quoteByte ∉ bytes ∧ backslashByte ∉ bytes := by
  constructor
  · intro h
    refine (lexLiteral_length h).2 ?_
    simp only [List.length_append, List.length_cons]
    omega
  · rintro ⟨hq, hb⟩
    exact lexLiteral_plain hq hb rest

/-! ### The bytes of the alphabets -/

lemma maskByte_spec {index : ℕ} (hi : index < 4) (b : UInt8) :
    maskByte index b ≠ quoteByte ∧
      (maskByte index b = backslashByte ↔ index = 2 ∧ b &&& 0x0f = 0x0c) := by
  have table : ∀ i < 4, ∀ n < 256, maskByte i (UInt8.ofNat n) ≠ quoteByte ∧
      (maskByte i (UInt8.ofNat n) = backslashByte ↔ i = 2 ∧ UInt8.ofNat n &&& 0x0f = 0x0c) := by
    decide +kernel
  have := table index hi b.toNat b.toNat_lt
  rwa [UInt8.ofNat_toNat] at this

lemma quoteByte_notMem_stringFrandom (len : ℕ) (seed : UInt64) :
    quoteByte ∉ stringFrandom len seed := by
  rw [stringFrandom_eq_map, List.mem_map]
  rintro ⟨b, -, hb⟩
  exact (maskByte_spec (alphabetIndex_lt seed) b).1 hb

/-- A string has a backslash when its seed chooses the third alphabet and one of its random
bytes has the low half `c`. -/
lemma backslashByte_notMem_stringFrandom (len : ℕ) (seed : UInt64) :
    backslashByte ∉ stringFrandom len seed ↔
      alphabetIndex seed ≠ 2 ∨ ∀ b ∈ rawBytes len seed, b &&& 0x0f ≠ 0x0c := by
  have hspec := fun b => (maskByte_spec (alphabetIndex_lt seed) b).2
  rw [stringFrandom_eq_map, List.mem_map, not_exists]
  constructor
  · intro h
    by_cases hi : alphabetIndex seed = 2
    · exact Or.inr fun b hb hlow => h b ⟨hb, (hspec b).2 ⟨hi, hlow⟩⟩
    · exact Or.inl hi
  · rintro (hi | hlow) b ⟨hb, heq⟩
    · exact hi ((hspec b).1 heq).1
    · exact hlow b hb ((hspec b).1 heq).2

lemma special_notMem_decimal (n : ℕ) :
    quoteByte ∉ decimal n ∧ backslashByte ∉ decimal n := by
  have hdig := (decimal_spec n).1
  exact ⟨notMem_of_class hdig rfl, notMem_of_class hdig rfl⟩

/-! ### The literals of a buffer -/

/-- The bytes that `write_bigint` or `write_varchar` makes from a source. -/
def LiteralSource.produced (ctx : EngCtx) : LiteralSource → Bytes
  | .bigint seed => decimal (frandom (toUint64 seed) (toUint64 ctx.tid) >>> 1).toNat
  | .varchar seed len => stringFrandom len (toUint64 seed)

/-- Every literal on record stands in the text with its closing quote, at least `k` bytes
before the end, and is what its source makes. -/
def Recorded (ctx : EngCtx) (k : ℕ) (buf : SqlBuf) : Prop :=
  ∀ lit ∈ buf.literals, lit.bytes = lit.source.produced ctx ∧
    lit.bytes ++ [quoteByte] <+: buf.text.drop lit.offset ∧
    lit.offset + lit.bytes.length + 1 + k ≤ buf.text.length

namespace Recorded

variable {ctx : EngCtx} {k : ℕ} {buf : SqlBuf}

lemma init (ctx : EngCtx) (k : ℕ) (text : Bytes) : Recorded ctx k ⟨text, []⟩ := by
  intro lit h
  simp at h

lemma put (h : Recorded ctx k buf) (s : Bytes) : Recorded ctx (k + s.length) (buf.put s) := by
  intro lit hlit
  obtain ⟨hsrc, hpre, hlen⟩ := h lit hlit
  refine ⟨hsrc, ?_, ?_⟩
  · rw [SqlBuf.put, List.drop_append_of_le_length (by omega)]
    exact hpre.trans (List.prefix_append _ _)
  · simp only [SqlBuf.put, List.length_append]
    omega

lemma mono {k' : ℕ} (h : Recorded ctx k buf) (hk : k' ≤ k) : Recorded ctx k' buf := by
  intro lit hlit
  obtain ⟨hsrc, hpre, hlen⟩ := h lit hlit
  exact ⟨hsrc, hpre, by omega⟩

/-- Taking back a byte behind the literals. -/
lemma back (h : Recorded ctx (k + 1) buf) : Recorded ctx k buf.back := by
  intro lit hlit
  obtain ⟨hsrc, hpre, hlen⟩ := h lit hlit
  refine ⟨hsrc, ?_, ?_⟩
  · rw [SqlBuf.back, List.dropLast_eq_take, List.drop_take]
    rw [List.prefix_iff_eq_take] at hpre ⊢
    rw [List.take_take, min_eq_left]
    · exact hpre
    · simp only [List.length_append, List.length_singleton]
      omega
  · simp only [SqlBuf.back, List.length_dropLast]
    omega

/-- A new literal, with a comma behind it. -/
lemma column (h : Recorded ctx k buf) {lit : LiteralSource × Bytes}
    (hlit : lit.2 = lit.1.produced ctx) : Recorded ctx 1 (buf.column lit) := by
  have hold : Recorded ctx 1 (buf.put (ascii "'" ++ lit.2 ++ ascii "',")) := by
    refine (h.put _).mono ?_
    simp only [ascii, List.length_append, List.length_map]
    exact le_add_left (le_add_left (by decide))
  intro lit' hmem
  rcases List.mem_append.1 hmem with hmem | hmem
  · exact hold lit' hmem
  · rw [List.mem_singleton] at hmem
    subst hmem
    have hopen : ascii "'" = [quoteByte] := rfl
    have hclose : ascii "'," = [quoteByte, 44] := rfl
    refine ⟨hlit, ⟨[44], ?_⟩, ?_⟩
    · simp [SqlBuf.column, hopen, hclose]
    · simp only [SqlBuf.column, hopen, hclose, List.length_append, List.length_cons,
        List.length_nil]
      omega

end Recorded

/-- The literal that a column writes is what its source makes. -/
lemma writeLiteral_produced {ctx : EngCtx} {data : TableData} {isKey : Bool} {g g' : Globals}
    {lit : LiteralSource × Bytes} (h : writeLiteral ctx data isKey g = .ret (lit, g')) :
    lit.2 = lit.1.produced ctx := by
  have hstring : ∀ {len seed lit}, stringFrandomInt len seed = .ret lit →
      lit.2 = lit.1.produced ctx := by
    intro len seed lit hs
    rw [stringFrandomInt] at hs
    split at hs
    · simp at hs
    · rw [Outcome.ret.injEq] at hs
      rw [← hs]
      rfl
  rw [writeLiteral] at h
  cases hty : data.type with
  | bigint =>
      simp only [hty, writeBigint, Outcome.ret.injEq, Prod.mk.injEq] at h
      rw [← h.1]
      rfl
  | varchar =>
      simp only [hty, writeVarchar] at h
      split at h
      · simp at h
      · split at h
        · obtain ⟨lit', hlit', heq⟩ := Outcome.bind_eq_ret.1 h
          simp only [Outcome.pure_eq, Outcome.ret.injEq, Prod.mk.injEq] at heq
          exact heq.1 ▸ hstring hlit'
        · obtain ⟨lit', hlit', heq⟩ := Outcome.bind_eq_ret.1 h
          simp only [Outcome.pure_eq, Outcome.ret.injEq, Prod.mk.injEq] at heq
          exact heq.1 ▸ hstring hlit'

/-- The record after the columns of a loop: one more literal for each column. -/
lemma writeColumns_recorded {ctx : EngCtx} {isKey named : Bool} {datas : List TableData}
    {buf buf' : SqlBuf} {g g' : Globals} (hbuf : Recorded ctx 1 buf)
    (h : writeColumns ctx isKey named datas buf g = .ret (buf', g')) :
    Recorded ctx 1 buf' ∧ buf'.literals.length = buf.literals.length + datas.length := by
  induction datas generalizing buf g with
  | nil =>
      simp only [writeColumns, Outcome.ret.injEq, Prod.mk.injEq] at h
      exact ⟨h.1 ▸ hbuf, by simp [h.1]⟩
  | cons data datas ih =>
      simp only [writeColumns] at h
      obtain ⟨⟨lit, g₁⟩, hlit, h⟩ := Outcome.bind_eq_ret.1 h
      have hprod := writeLiteral_produced hlit
      cases named with
      | true =>
          obtain ⟨hrec, hlen⟩ := ih ((hbuf.put _).column hprod) h
          refine ⟨hrec, hlen.trans ?_⟩
          simp only [SqlBuf.column, SqlBuf.put, List.length_append, List.length_cons,
            List.length_nil]
          omega
      | false =>
          obtain ⟨hrec, hlen⟩ := ih (hbuf.column hprod) h
          refine ⟨hrec, hlen.trans ?_⟩
          simp only [SqlBuf.column, List.length_append, List.length_cons, List.length_nil]
          omega

lemma whereGen_recorded {ctx : EngCtx} {s : TableSchema} {buf buf' : SqlBuf} {g g' : Globals}
    (hbuf : Recorded ctx 1 buf) (h : whereGen ctx s buf g = .ret (buf', g')) :
    Recorded ctx 0 buf' ∧ buf'.literals.length = buf.literals.length + 1 := by
  simp only [whereGen] at h
  obtain ⟨key, -, h⟩ := Outcome.bind_eq_ret.1 h
  obtain ⟨⟨buf₁, g₁⟩, hcol, h⟩ := Outcome.bind_eq_ret.1 h
  simp only [Outcome.pure_eq, Outcome.ret.injEq, Prod.mk.injEq] at h
  obtain ⟨hrec, hlen⟩ := writeColumns_recorded hbuf hcol
  rw [← h.1]
  exact ⟨hrec.back, hlen⟩

/-! ### The statements -/

/-- The lexer, started behind the opening quote of a literal, stops at the quote the generator
wrote and has read what `write_bigint` or `write_varchar` produced. -/
def SurvivesLexer (unescape : UInt8 → UInt8) (ctx : EngCtx) (text : Bytes) (lit : Literal) : Prop :=
  lexLiteral unescape (text.drop lit.offset)
    = some (lit.source.produced ctx, text.drop (lit.offset + lit.bytes.length + 1))

/-- No byte of the literal is special: it is a number, or the seed does not choose the third
alphabet, or none of its random bytes has the low half `c`. -/
def LiteralSource.Plain : LiteralSource → Prop
  | .bigint _ => True
  | .varchar seed len => alphabetIndex (toUint64 seed) ≠ 2 ∨
      ∀ b ∈ rawBytes len (toUint64 seed), b &&& 0x0f ≠ 0x0c

lemma produced_plain_iff (ctx : EngCtx) (src : LiteralSource) :
    quoteByte ∉ src.produced ctx ∧ backslashByte ∉ src.produced ctx ↔ src.Plain := by
  cases src with
  | bigint seed => exact ⟨fun _ => trivial, fun _ => special_notMem_decimal _⟩
  | varchar seed len =>
      rw [LiteralSource.Plain, ← backslashByte_notMem_stringFrandom, LiteralSource.produced]
      exact ⟨And.right, fun h => ⟨quoteByte_notMem_stringFrandom _ _, h⟩⟩

lemma Recorded.survives_iff {ctx : EngCtx} {k : ℕ} {buf : SqlBuf} (h : Recorded ctx k buf)
    (unescape : UInt8 → UInt8) {lit : Literal} (hlit : lit ∈ buf.literals) :
    SurvivesLexer unescape ctx buf.text lit ↔ lit.source.Plain := by
  obtain ⟨hsrc, ⟨rest, hrest⟩, hlen⟩ := h lit hlit
  have hafter : buf.text.drop (lit.offset + lit.bytes.length + 1) = rest := by
    rw [Nat.add_assoc, ← List.drop_drop, ← hrest]
    exact List.drop_left' (by simp)
  rw [SurvivesLexer, hafter, ← hrest, ← produced_plain_iff ctx, ← hsrc, List.append_assoc]
  exact lexLiteral_iff lit.bytes rest

/-- The number of literals in the statement of a command. -/
def literalCount (s : TableSchema) : CmdType → ℕ
  | .insert => s.keySchema.nschema + s.valSchema.nschema
  | .update => s.valSchema.nschema + 1
  | .delete => 1
  | .select => 1
  | _ => 0

lemma sqlGen_recorded {ctx : EngCtx} {name : Bytes} {s : TableSchema} {g g' : Globals}
    {cmd : CmdType} {buf : SqlBuf} (h : sqlGen ctx name s g cmd = .ret (buf, g')) :
    Recorded ctx 0 buf ∧ buf.literals.length = literalCount s cmd := by
  cases cmd with
  | insert =>
      simp only [sqlGen, insertGen] at h
      obtain ⟨⟨buf₁, g₁⟩, hkeys, h⟩ := Outcome.bind_eq_ret.1 h
      obtain ⟨⟨buf₂, g₂⟩, hvals, h⟩ := Outcome.bind_eq_ret.1 h
      simp only [Outcome.pure_eq, Outcome.ret.injEq, Prod.mk.injEq] at h
      obtain ⟨hrec₁, hlen₁⟩ := writeColumns_recorded (Recorded.init ctx 1 _) hkeys
      obtain ⟨hrec₂, hlen₂⟩ := writeColumns_recorded hrec₁ hvals
      rw [← h.1]
      refine ⟨(hrec₂.back.put _).mono (Nat.zero_le _), ?_⟩
      show buf₂.literals.length = _
      rw [hlen₂, hlen₁, List.length_nil, Nat.zero_add]
      rfl
  | delete => exact whereGen_recorded (Recorded.init ctx 1 _) h
  | update =>
      simp only [sqlGen, updateGen] at h
      obtain ⟨⟨buf₁, g₁⟩, hvals, h⟩ := Outcome.bind_eq_ret.1 h
      obtain ⟨hrec₁, hlen₁⟩ := writeColumns_recorded (Recorded.init ctx 1 _) hvals
      have hwhere : Recorded ctx 1 (buf₁.back.put (ascii " where ")) :=
        (hrec₁.back.put _).mono (by decide)
      obtain ⟨hrec, hlen⟩ := whereGen_recorded hwhere h
      refine ⟨hrec, hlen.trans ?_⟩
      show buf₁.literals.length + 1 = _
      rw [hlen₁, List.length_nil, Nat.zero_add]
      rfl
  | select => exact whereGen_recorded (Recorded.init ctx 1 _) h
  | create =>
      simp only [sqlGen, Outcome.ret.injEq, Prod.mk.injEq] at h
      rw [← h.1]
      exact ⟨Recorded.init ctx 0 _, rfl⟩
  | alterAdd =>
      simp only [sqlGen] at h
      obtain ⟨text, -, h⟩ := Outcome.bind_eq_ret.1 h
      simp only [Outcome.pure_eq, Outcome.ret.injEq, Prod.mk.injEq] at h
      rw [← h.1]
      exact ⟨Recorded.init ctx 0 _, rfl⟩
  | alterDrop =>
      simp only [sqlGen, Outcome.ret.injEq, Prod.mk.injEq] at h
      rw [← h.1]
      exact ⟨Recorded.init ctx 0 _, rfl⟩
  | drop =>
      simp only [sqlGen, Outcome.ret.injEq, Prod.mk.injEq] at h
      rw [← h.1]
      exact ⟨Recorded.init ctx 0 _, rfl⟩

/-- **When a generated literal survives the lexer.**  Each of the literals that a generator
emits, one for each column it writes, is read back as what was produced for it exactly when
its source is plain. -/
theorem generated_literal_survives_iff (unescape : UInt8 → UInt8) (ctx : EngCtx) (name : Bytes)
    (s : TableSchema) (g g' : Globals) (cmd : CmdType) (buf : SqlBuf)
    (h : sqlGen ctx name s g cmd = .ret (buf, g')) :
    buf.literals.length = literalCount s cmd ∧
      ∀ lit ∈ buf.literals, SurvivesLexer unescape ctx buf.text lit ↔ lit.source.Plain := by
  obtain ⟨hrec, hlen⟩ := sqlGen_recorded h
  exact ⟨hlen, fun lit hlit => hrec.survives_iff unescape hlit⟩

/-- The statement `delete from t where id='_\[QR_]['`. -/
theorem generated_literal_survives_iff_delete :
    [(⟨24, ascii "_\\[QR_][", .varchar 33 8⟩ : Literal)].length = 1 ∧
      ∀ lit ∈ [(⟨24, ascii "_\\[QR_][", .varchar 33 8⟩ : Literal)],
        SurvivesLexer id ⟨0, 33⟩ (ascii "delete from t where id='_\\[QR_]['") lit ↔
          lit.source.Plain :=
  generated_literal_survives_iff id ⟨0, 33⟩ (ascii "t")
    ⟨⟨[⟨ascii "id", .varchar, 8⟩], 100⟩, ⟨[], 100⟩⟩ ⟨0, fun _ => 0⟩ ⟨0, fun _ => 0⟩ .delete
    ⟨ascii "delete from t where id='_\\[QR_]['", [⟨24, ascii "_\\[QR_][", .varchar 33 8⟩]⟩ rfl

/-- With the seed 33 the key of a `VARCHAR(8)` column is `_\[QR_][`, and the lexer takes the
backslash for an escape. -/
theorem generated_literal_escaped :
    ∃ buf g', sqlGen ⟨0, 33⟩ (ascii "t") ⟨⟨[⟨ascii "id", .varchar, 8⟩], 100⟩, ⟨[], 100⟩⟩
        ⟨0, fun _ => 0⟩ .delete = .ret (buf, g') ∧
      ∃ lit ∈ buf.literals, ∀ unescape, ¬ SurvivesLexer unescape ⟨0, 33⟩ buf.text lit := by
  have hrun : sqlGen ⟨0, 33⟩ (ascii "t") ⟨⟨[⟨ascii "id", .varchar, 8⟩], 100⟩, ⟨[], 100⟩⟩
      ⟨0, fun _ => 0⟩ .delete
      = .ret (⟨ascii "delete from t where id='_\\[QR_]['",
        [⟨24, ascii "_\\[QR_][", .varchar 33 8⟩]⟩, ⟨0, fun _ => 0⟩) := rfl
  have hplain : ¬ LiteralSource.Plain (.varchar 33 8) := by
    rw [LiteralSource.Plain]
    decide +kernel
  refine ⟨_, _, hrun, _, List.mem_singleton_self _, fun unescape hs => hplain ?_⟩
  exact ((sqlGen_recorded hrun).1.survives_iff unescape (List.mem_singleton_self _)).1 hs

end CheckQ
