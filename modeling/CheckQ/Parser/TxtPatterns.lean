import CheckQ.Parser.Txt

/-!
# The patterns of a table definition

What the patterns of `parser_read_txt_table_schema` and `parser_read_txt_table_data` match in a
text that is put together from names, white space and a few other bytes.  Each pattern has at most
one way to match such a text from a given byte on, since the classes of two items that follow each
other have no byte in common.
-/

namespace CheckQ

open Regex

/-! ### Classes of bytes -/

/-- The bytes of a type, in the pattern of a column. -/
def isTypeByte (c : UInt8) : Bool := isWord c || oneOf "()" c

/-- The bytes that end a column. -/
def isColumnEnd (c : UInt8) : Bool := oneOf ",\\)" c

lemma isSpace_iff {c : UInt8} :
    isSpace c = true ↔ c.toNat = 32 ∨ 9 ≤ c.toNat ∧ c.toNat ≤ 13 := by
  simp [isSpace, UInt8.le_iff_toNat_le, ← UInt8.toNat_inj]

lemma isWord_iff {c : UInt8} : isWord c = true ↔ 48 ≤ c.toNat ∧ c.toNat ≤ 57 ∨
    65 ≤ c.toNat ∧ c.toNat ≤ 90 ∨ 97 ≤ c.toNat ∧ c.toNat ≤ 122 ∨ c.toNat = 95 := by
  simp [isWord, isDigit, UInt8.le_iff_toNat_le, ← UInt8.toNat_inj, or_assoc]

lemma isTypeByte_iff {c : UInt8} :
    isTypeByte c = true ↔ isWord c = true ∨ c.toNat = 40 ∨ c.toNat = 41 := by
  have hbytes : ascii "()" = [40, 41] := rfl
  simp [isTypeByte, oneOf, hbytes, ← UInt8.toNat_inj]

lemma isColumnEnd_iff {c : UInt8} :
    isColumnEnd c = true ↔ c.toNat = 44 ∨ c.toNat = 92 ∨ c.toNat = 41 := by
  have hbytes : ascii ",\\)" = [44, 92, 41] := rfl
  simp [isColumnEnd, oneOf, hbytes, ← UInt8.toNat_inj]

lemma isSpace_of_isWord {c : UInt8} (h : isWord c = true) : isSpace c = false := by
  rw [isWord_iff] at h
  rw [Bool.eq_false_iff, ne_eq, isSpace_iff]
  omega

lemma isWord_of_isSpace {c : UInt8} (h : isSpace c = true) : isWord c = false := by
  rw [isSpace_iff] at h
  rw [Bool.eq_false_iff, ne_eq, isWord_iff]
  omega

lemma isTypeByte_of_isSpace {c : UInt8} (h : isSpace c = true) : isTypeByte c = false := by
  rw [isSpace_iff] at h
  rw [Bool.eq_false_iff, ne_eq, isTypeByte_iff, isWord_iff]
  omega

lemma isSpace_of_isTypeByte {c : UInt8} (h : isTypeByte c = true) : isSpace c = false := by
  rw [isTypeByte_iff, isWord_iff] at h
  rw [Bool.eq_false_iff, ne_eq, isSpace_iff]
  omega

lemma isSpace_of_isColumnEnd {c : UInt8} (h : isColumnEnd c = true) : isSpace c = false := by
  rw [isColumnEnd_iff] at h
  rw [Bool.eq_false_iff, ne_eq, isSpace_iff]
  omega

lemma isColumnEnd_of_isWord {c : UInt8} (h : isWord c = true) : isColumnEnd c = false := by
  rw [isWord_iff] at h
  rw [Bool.eq_false_iff, ne_eq, isColumnEnd_iff]
  omega

lemma isTypeByte_of_isWord {c : UInt8} (h : isWord c = true) : isTypeByte c = true :=
  isTypeByte_iff.2 (Or.inl h)

lemma isColumnEnd_of_isSpace {c : UInt8} (h : isSpace c = true) : isColumnEnd c = false := by
  rw [isSpace_iff] at h
  rw [Bool.eq_false_iff, ne_eq, isColumnEnd_iff]
  omega

/-- Some bytes of a class. -/
structure Run (cls : UInt8 → Bool) (a : Bytes) : Prop where
  ne_nil : a ≠ []
  mem : ∀ c ∈ a, cls c = true

namespace Run

variable {cls cls' : UInt8 → Bool} {a b s : Bytes}

lemma suffix (h : Run cls a) (hb : b ≠ []) (hsuffix : b <:+ a) : Run cls b :=
  ⟨hb, fun c hc => h.mem c (hsuffix.subset hc)⟩

/-- What a text that begins with bytes of a class begins with. -/
lemma head? (h : Run cls a) (hcls : ∀ {c}, cls c = true → cls' c = false) :
    ∀ c ∈ (a ++ s).head?, cls' c = false := by
  obtain ⟨c, a, rfl⟩ := List.exists_cons_of_ne_nil h.ne_nil
  simpa using hcls (h.mem c List.mem_cons_self)

end Run

/-- The words of the form. -/
lemma run_ascii {cls : UInt8 → Bool} {w : String} (h : ascii w ≠ [] ∧ (ascii w).all cls = true) :
    Run cls (ascii w) :=
  ⟨h.1, List.all_eq_true.1 h.2⟩

lemma run_space : Run isSpace (ascii " ") := run_ascii (by decide)

lemma run_bigint : Run isWord (ascii "bigint") := run_ascii (by decide)

lemma run_primary : Run isWord (ascii "primary") := run_ascii (by decide)

lemma run_key : Run isWord (ascii "key") := run_ascii (by decide)

lemma Run.isTypeByte {a : Bytes} (h : Run isWord a) : Run isTypeByte a :=
  ⟨h.ne_nil, fun c hc => isTypeByte_of_isWord (h.mem c hc)⟩

lemma Run.isColumnEnd {a : Bytes} (h : Run isWord a) : ∀ c ∈ a, isColumnEnd c = false :=
  fun c hc => isColumnEnd_of_isWord (h.mem c hc)

lemma Run.notSpace {a : Bytes} (h : Run isWord a) : Run (! isSpace ·) a :=
  ⟨h.ne_nil, fun c hc => by rw [isSpace_of_isWord (h.mem c hc), Bool.not_false]⟩

/-- A word does not begin with white space. -/
lemma notFirst_word {a : Bytes} {items : List (Item UInt8)} {c : UInt8} (ha : Run (! isSpace ·) a)
    (hc : isSpace c = true) : NotFirst (lit a ++ items) c := by
  obtain ⟨e, a, rfl⟩ := List.exists_cons_of_ne_nil ha.ne_nil
  refine notFirst_lit fun heq => ?_
  have he := ha.mem e List.mem_cons_self
  simp [← heq, hc] at he

/-! ### A name in front of white space -/

section Name

variable {items : List (Item UInt8)} {x y g r s t : Bytes} {e : UInt8} {pos : ℕ}

lemma ways_name (hy : Run isWord y) (hg : Run isSpace g) (hr : ∀ c ∈ r.head?, isSpace c = false)
    (hitems : ∀ c ∈ g, NotFirst items c) :
    ways (.opening :: .plus isWord :: .closing :: .plus isSpace :: items) (y ++ (g ++ r)) =
      (ways items r).map fun w => [0, y.length, 0, g.length] ++ w := by
  rw [ways, ways_plus_append hy.ne_nil hy.mem (hg.head? isWord_of_isSpace) fun c hc =>
      notFirst_closing (notFirst_plus (isSpace_of_isWord (hy.mem c hc))),
    ways, ways_plus_append hg.ne_nil hg.mem hr hitems]
  simp only [List.map_map]
  rfl

/-- A name without white space behind it. -/
lemma ways_name_end (hy : Run isWord y) (he : isWord e = false) (he' : isSpace e = false) :
    ways (.opening :: .plus isWord :: .closing :: .plus isSpace :: items) (y ++ e :: t) = [] := by
  rw [ways, ways_plus_append hy.ne_nil hy.mem (by simpa using he) fun c hc =>
      notFirst_closing (notFirst_plus (isSpace_of_isWord (hy.mem c hc))),
    ways, notFirst_plus he' t]
  rfl

/-- The white space in front of a column. -/
lemma ways_space (hx : ∀ c ∈ x, isSpace c = true) (hs : ∀ c ∈ s.head?, isSpace c = false) :
    ways (.star isSpace :: .opening :: .plus isWord :: items) (x ++ s) =
      (ways (.opening :: .plus isWord :: items) s).map (x.length :: ·) :=
  ways_star_append hx hs fun c hc =>
    notFirst_opening (notFirst_plus (isWord_of_isSpace (hx c hc)))

/-- White space and a name are passed when what is behind them matches no end of them. -/
lemma regexecFrom_name_append (hfail : ∀ {x y}, (∀ c ∈ x, isSpace c = true) → Run isWord y →
      ways items (x ++ (y ++ s)) = []) (hx : ∀ c ∈ x, isSpace c = true) (hy : Run isWord y) :
    regexecFrom items (x ++ (y ++ s)) pos =
      regexecFrom items s (pos + x.length + y.length) := by
  rw [regexecFrom_append fun b _ hb => hfail (fun c hc => hx c (hb.subset hc)) hy,
    regexecFrom_append fun b hne hb => hfail (x := []) (by simp) (hy.suffix hne hb)]

/-- So are white space and a byte that begins no name. -/
lemma regexecFrom_column_append (hg : ∀ c ∈ g, isSpace c = true) (he : isWord e = false)
    (he' : isSpace e = false) :
    regexecFrom (.star isSpace :: .opening :: .plus isWord :: items) (g ++ e :: s) pos =
      regexecFrom (.star isSpace :: .opening :: .plus isWord :: items) s (pos + g.length + 1) := by
  have hfail : ∀ {b : Bytes}, (∀ c ∈ b, isSpace c = true) →
      ways (.star isSpace :: .opening :: .plus isWord :: items) (b ++ e :: s) = [] := by
    intro b hb
    rw [ways_space hb (by simpa using he'), notFirst_opening (notFirst_plus he) s, List.map_nil]
  rw [regexecFrom_append fun b _ hb => hfail fun c hc => hg c (hb.subset hc),
    regexecFrom_cons (hfail (b := []) (by simp))]

end Name

/-! ### A column without a key -/

lemma patternVal_eq : patternVal = [.star isSpace, .opening, .plus isWord, .closing, .plus isSpace,
    .opening, .plus isTypeByte, .closing, .star isSpace, .one isColumnEnd] := rfl

section Val

variable {x y g z h t : Bytes} {e : UInt8}

/-- The ways to match a column without a key, for a text that looks like one up to the byte `e`
that has to end it. -/
lemma ways_val (hx : ∀ c ∈ x, isSpace c = true) (hy : Run isWord y) (hg : Run isSpace g)
    (hz : Run isTypeByte z) (hze : ∀ c ∈ z, isColumnEnd c = false)
    (hh : ∀ c ∈ h, isSpace c = true) (he : isSpace e = false)
    (hhe : h ≠ [] ∨ isTypeByte e = false) :
    ways patternVal (x ++ (y ++ (g ++ (z ++ (h ++ e :: t))))) =
      if isColumnEnd e = true then
        [[x.length, 0, y.length, 0, g.length, 0, z.length, 0, h.length, 1]]
      else [] := by
  have hnext : ∀ c ∈ (h ++ e :: t).head?, isTypeByte c = false := by
    by_cases hne : h = []
    · simpa [hne] using hhe.resolve_left (by simp [hne])
    · exact Run.head? ⟨hne, hh⟩ isTypeByte_of_isSpace
  rw [patternVal_eq, ways_space hx (hy.head? isSpace_of_isWord),
    ways_name hy hg (hz.head? isSpace_of_isTypeByte) fun c hc =>
      notFirst_opening (notFirst_plus (isTypeByte_of_isSpace (hg.mem c hc))),
    ways, ways_plus_append hz.ne_nil hz.mem hnext fun c hc =>
      notFirst_closing (notFirst_star (isSpace_of_isTypeByte (hz.mem c hc))
        (notFirst_one (hze c hc))),
    ways, ways_star_append hh (by simpa using he) fun c hc =>
      notFirst_one (isColumnEnd_of_isSpace (hh c hc)), ways]
  split <;> simp [ways]

/-- A text that looks like a column and has the byte that ends it. -/
lemma regexecFrom_val_match (hx : ∀ c ∈ x, isSpace c = true) (hy : Run isWord y)
    (hg : Run isSpace g) (hz : Run isTypeByte z) (hze : ∀ c ∈ z, isColumnEnd c = false)
    (hh : ∀ c ∈ h, isSpace c = true) (he : isColumnEnd e = true)
    (hhe : h ≠ [] ∨ isTypeByte e = false) (pos : ℕ) :
    ∃ k gs, regexecFrom patternVal (x ++ (y ++ (g ++ (z ++ (h ++ e :: t))))) pos =
        some ((pos, pos + k) :: gs) ∧
      (x ++ (y ++ (g ++ (z ++ (h ++ e :: t))))).drop k = t := by
  have hways := ways_val (t := t) hx hy hg hz hze hh (isSpace_of_isColumnEnd he) hhe
  rw [if_pos he] at hways
  refine ⟨_, _, regexecFrom_of_way hways pos, ?_⟩
  have htext : x ++ (y ++ (g ++ (z ++ (h ++ e :: t)))) = (x ++ y ++ g ++ z ++ h ++ [e]) ++ t := by
    simp only [List.append_assoc, List.singleton_append]
  rw [htext, List.drop_left']
  simp

/-- The text is passed up to its second white space when a word is where a column has to end. -/
lemma regexecFrom_val_append {a : Bytes} {pos : ℕ} (hx : ∀ c ∈ x, isSpace c = true)
    (hy : Run isWord y) (hg : Run isSpace g) (hz : Run isTypeByte z)
    (hze : ∀ c ∈ z, isColumnEnd c = false) (hh : Run isSpace h) (ha : Run isWord a) :
    regexecFrom patternVal (x ++ (y ++ (g ++ (z ++ (h ++ (a ++ t)))))) pos =
      regexecFrom patternVal (g ++ (z ++ (h ++ (a ++ t)))) (pos + x.length + y.length) := by
  refine regexecFrom_name_append (fun {x y} hx hy => ?_) hx hy
  obtain ⟨e, a, rfl⟩ := List.exists_cons_of_ne_nil ha.ne_nil
  have he := ha.mem e List.mem_cons_self
  rw [List.cons_append, ways_val hx hy hg hz hze hh.mem (isSpace_of_isWord he)
    (Or.inl hh.ne_nil), if_neg (by simp [isColumnEnd_of_isWord he])]

end Val

/-! ### A column of the key -/

/-- The items of the pattern behind `primary`. -/
def keyItems : List (Item UInt8) :=
  .plus isSpace :: (lit (ascii "key") ++ [.star isSpace, .one isColumnEnd])

lemma patternKey_eq : patternKey = .star isSpace :: .opening :: .plus isWord :: .closing ::
    .plus isSpace :: .opening :: .plus (! isSpace ·) :: .closing :: .plus isSpace ::
    (lit (ascii "primary") ++ keyItems) := rfl

section Key

variable {x y g z v h r t : Bytes} {e : UInt8}

/-- A text that looks like a column up to its type matches as what is behind the type does. -/
lemma ways_key (hx : ∀ c ∈ x, isSpace c = true) (hy : Run isWord y) (hg : Run isSpace g)
    (hz : Run (! isSpace ·) z) (hv : Run isSpace v) (hr : ∀ c ∈ r.head?, isSpace c = false) :
    ways patternKey (x ++ (y ++ (g ++ (z ++ (v ++ r))))) =
      (ways (lit (ascii "primary") ++ keyItems) r).map fun w =>
        [x.length, 0, y.length, 0, g.length, 0, z.length, 0, v.length] ++ w := by
  rw [patternKey_eq, ways_space hx (hy.head? isSpace_of_isWord),
    ways_name hy hg (hz.head? fun hc => by simpa using hc) fun c hc =>
      notFirst_opening (notFirst_plus (by simpa using hg.mem c hc)),
    ways, ways_plus_append hz.ne_nil hz.mem (hv.head? fun hc => by simpa using hc) fun c hc =>
      notFirst_closing (notFirst_plus (by simpa using hz.mem c hc)),
    ways, ways_plus_append hv.ne_nil hv.mem hr fun c hc =>
      notFirst_word run_primary.notSpace (hv.mem c hc)]
  simp only [List.map_map]
  rfl

lemma ways_primary_key (hv : Run isSpace v) (hh : ∀ c ∈ h, isSpace c = true)
    (he : isColumnEnd e = true) :
    ways (lit (ascii "primary") ++ keyItems)
        (ascii "primary" ++ (v ++ (ascii "key" ++ (h ++ e :: t)))) =
      [List.replicate 7 1 ++ v.length :: (List.replicate 3 1 ++ [h.length, 1])] := by
  rw [ways_lit_append, keyItems, ways_plus_append hv.ne_nil hv.mem
      (run_key.head? isSpace_of_isWord) fun c hc => notFirst_word run_key.notSpace (hv.mem c hc),
    ways_lit_append, ways_star_append hh (by simpa using isSpace_of_isColumnEnd he) fun c hc =>
      notFirst_one (isColumnEnd_of_isSpace (hh c hc)), ways, if_pos he]
  rfl

/-- `primary key` is not found where a name and another word than `key` are. -/
lemma ways_primary_word (hy : Run isWord y) (hv : Run isSpace v)
    (hr : ∀ c ∈ r.head?, isSpace c = false ∧ c ≠ 107) :
    ways (lit (ascii "primary") ++ keyItems) (y ++ (v ++ r)) = [] := by
  have hkey : ascii "key" = 107 :: ascii "ey" := rfl
  rw [List.eq_nil_iff_forall_not_mem]
  intro w hw
  obtain ⟨s, w', hs, hw', -⟩ := mem_ways_lit.1 hw
  -- white space follows `primary`, so that the name is `primary`
  obtain ⟨a, s', w'', rfl, hne, ha, hw'', -⟩ := mem_ways_plus.1 hw'
  have hspace : Run isSpace a := ⟨hne, ha⟩
  obtain ⟨-, hrest⟩ := split_unique hs hy.mem (hv.head? isWord_of_isSpace)
    run_primary.mem (hspace.head? isWord_of_isSpace)
  obtain ⟨s'', -, rfl, -, -⟩ := mem_ways_lit.1 hw''
  obtain ⟨-, hr'⟩ := split_unique hrest hv.mem (fun c hc => (hr c hc).1) ha (by simp [hkey, isSpace])
  exact (hr 107 (by simp [hr', hkey])).2 rfl

/-- Nor is it where the columns end. -/
lemma ways_primary_other (hr : ∀ c ∈ r.head?, c ≠ 112) :
    ways (lit (ascii "primary") ++ keyItems) r = [] := by
  have hprimary : ascii "primary" = 112 :: ascii "rimary" := rfl
  rw [List.eq_nil_iff_forall_not_mem]
  intro w hw
  obtain ⟨s, -, rfl, -, -⟩ := mem_ways_lit.1 hw
  exact hr 112 (by simp [hprimary]) rfl

/-- The text is passed up to its second white space when `primary key` is not behind it. -/
lemma regexecFrom_key_append {pos : ℕ} (hx : ∀ c ∈ x, isSpace c = true) (hy : Run isWord y)
    (hg : Run isSpace g) (hz : Run (! isSpace ·) z) (hv : Run isSpace v)
    (hr : ∀ c ∈ r.head?, isSpace c = false)
    (hnone : ways (lit (ascii "primary") ++ keyItems) r = []) :
    regexecFrom patternKey (x ++ (y ++ (g ++ (z ++ (v ++ r))))) pos =
      regexecFrom patternKey (g ++ (z ++ (v ++ r))) (pos + x.length + y.length) := by
  refine regexecFrom_name_append (fun {x y} hx hy => ?_) hx hy
  rw [ways_key hx hy hg hz hv hr, hnone, List.map_nil]

/-- A name without white space behind it is passed. -/
lemma regexecFrom_key_end {pos : ℕ} (hx : ∀ c ∈ x, isSpace c = true) (hy : Run isWord y)
    (he : isWord e = false) (he' : isSpace e = false) :
    regexecFrom patternKey (x ++ (y ++ e :: t)) pos =
      regexecFrom patternKey (e :: t) (pos + x.length + y.length) := by
  refine regexecFrom_name_append (fun {x y} hx hy => ?_) hx hy
  rw [patternKey_eq, ways_space hx (hy.head? isSpace_of_isWord), ways_name_end hy he he',
    List.map_nil]

end Key

/-! ### A column of type `bigint` -/

lemma patternBigint_eq : patternBigint =
    .opening :: .plus isWord :: .closing :: .plus isSpace :: (lit (ascii "bigint") ++ []) := rfl

section Bigint

variable {y g r t : Bytes} {e : UInt8}

lemma ways_bigint (hy : Run isWord y) (hg : Run isSpace g) (hr : ∀ c ∈ r.head?, isSpace c = false) :
    ways patternBigint (y ++ (g ++ r)) =
      (ways (lit (ascii "bigint") ++ []) r).map fun w => [0, y.length, 0, g.length] ++ w :=
  ways_name hy hg hr fun c hc => notFirst_word run_bigint.notSpace (hg.mem c hc)

/-- A name and `bigint`. -/
lemma ways_bigint_column (hy : Run isWord y) (hg : Run isSpace g) :
    ways patternBigint (y ++ (g ++ (ascii "bigint" ++ t))) =
      [[0, y.length, 0, g.length] ++ List.replicate 6 1] := by
  rw [ways_bigint hy hg (run_bigint.head? isSpace_of_isWord), ways_lit_append, ways]
  rfl

/-- A name and something else. -/
lemma ways_bigint_other (hy : Run isWord y) (hg : Run isSpace g)
    (hr : ∀ c ∈ r.head?, isSpace c = false ∧ c ≠ 98) : ways patternBigint (y ++ (g ++ r)) = [] := by
  have hbigint : ascii "bigint" = 98 :: ascii "igint" := rfl
  rw [ways_bigint hy hg fun c hc => (hr c hc).1, List.map_eq_nil_iff,
    List.eq_nil_iff_forall_not_mem]
  intro w hw
  obtain ⟨s, -, rfl, -, -⟩ := mem_ways_lit.1 hw
  exact (hr 98 (by simp [hbigint])).2 rfl

/-- A name without white space behind it. -/
lemma ways_bigint_end (hy : Run isWord y) (he : isWord e = false) (he' : isSpace e = false) :
    ways patternBigint (y ++ e :: t) = [] :=
  ways_name_end hy he he'

/-- Bytes that are in no name are passed. -/
lemma regexecFrom_bigint_append {a s : Bytes} {pos : ℕ} (ha : ∀ c ∈ a, isWord c = false) :
    regexecFrom patternBigint (a ++ s) pos = regexecFrom patternBigint s (pos + a.length) := by
  refine regexecFrom_append fun b hb hsuffix => ?_
  obtain ⟨c, b, rfl⟩ := List.exists_cons_of_ne_nil hb
  have hc := ha c (hsuffix.subset List.mem_cons_self)
  rw [patternBigint_eq]
  exact notFirst_opening (notFirst_plus hc) _

end Bigint

end CheckQ
