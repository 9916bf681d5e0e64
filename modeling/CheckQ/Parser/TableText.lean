import CheckQ.Lib.CString
import CheckQ.Parser.Txt
import Mathlib.Data.List.Infix

/-!
# The text of a table

`parser_read_a_table` copies lines one behind the other to a block and looks only then whether
there is still room for another line.  If there is none, it copies the text to a block of twice
the size, in which the place of the next line is found by the number of bytes that were read.

The loop is here with its blocks and pointers; `readATable` is the same loop with the text alone.
-/

namespace CheckQ

open Regex

/-- The variables of `parser_read_a_table`: the block that `text` points to, the place in it that
`cur` points to, and `cnt` and `str_size`, which are `int`s and stay far below their limit. -/
structure TextBuffer where
  text : Bytes
  cur : ℕ
  cnt : ℕ
  strSize : ℕ

variable (fill : ℕ → ℕ → UInt8)

/-- A block of `size` bytes from `my_malloc`, with what is in it by chance. -/
def newBlock (size : ℕ) : Bytes := (List.range size).map (fill size)

/-- The body of the loop up to the match, for the line `buf`; `none` is `RET_FAILED`. -/
def addLine (b : TextBuffer) (buf : Bytes) : Outcome (Option TextBuffer) := do
  let text ← strcpy b.text b.cur buf
  let cnt := b.cnt + buf.length
  let cur := b.cur + buf.length
  if cnt + configMaxLength ≥ b.strSize then
    let strSize := b.strSize * 2
    if strSize > 1024 * configMaxLength then return none
    else
      let old := text
      let text := (newBlock fill strSize).set 0 0
      let src ← cString old
      let text ← strcpy text 0 src
      return some ⟨text, cnt, cnt, strSize⟩
  else return some ⟨text, cur, cnt, b.strSize⟩

/-- The loop of `parser_read_a_table` with its block.  What is returned is the string in it. -/
def readTableBlock : List Bytes → TextBuffer → Outcome (Option Bytes × List Bytes)
  | [], b => do
      let text ← cString b.text
      return (some text, [])
  | line :: file, b => do
      let buf := line.takeWhile (· ≠ 0)
      match ← addLine fill b buf with
      | none => return (none, file)
      | some b =>
          if (regexec patternTableEnd buf).isSome then
            let text ← cString b.text
            return (some text, file)
          else readTableBlock file b

/-- `parser_read_a_table`, from the first block on. -/
def parserReadATableBlock (file : List Bytes) : Outcome (Option Bytes × List Bytes) :=
  readTableBlock fill file
    ⟨(newBlock fill (8 * configMaxLength)).set 0 0, 0, 0, 8 * configMaxLength⟩

/-! ### The block -/

lemma length_newBlock (size : ℕ) : (newBlock fill size).length = size := by
  simp [newBlock]

/-- The text `t` has been read to the block, and there is room for another line. -/
structure Accumulates (t : Bytes) (b : TextBuffer) : Prop where
  text : HoldsString b.text t
  cur_eq : b.cur = t.length
  cnt_eq : b.cnt = t.length
  length_eq : b.text.length = b.strSize
  room : t.length + configMaxLength < b.strSize

variable {fill}

/-- A new block holds the empty text. -/
lemma newBlock_accumulates {size : ℕ} (h : configMaxLength < size) :
    Accumulates [] ⟨(newBlock fill size).set 0 0, 0, 0, size⟩ where
  text := by
    refine HoldsString.set_zero (List.ne_nil_of_length_pos ?_)
    rw [length_newBlock]
    omega
  cur_eq := rfl
  cnt_eq := rfl
  length_eq := by simp [length_newBlock]
  room := by simpa using h

/-- A line is added, and the block is doubled if it has become too small for another one. -/
lemma addLine_accumulates (fill : ℕ → ℕ → UInt8) {t buf : Bytes} {b : TextBuffer}
    (hb : Accumulates t b)
    (hzero : 0 ∉ buf) (hlen : buf.length ≤ configMaxLength) :
    (b.strSize ≤ t.length + buf.length + configMaxLength ∧
        1024 * configMaxLength < b.strSize * 2 ∧ addLine fill b buf = .ret none) ∨
      ∃ b', addLine fill b buf = .ret (some b') ∧ Accumulates (t ++ buf) b' ∧
        ((b.strSize ≤ t.length + buf.length + configMaxLength ∧
            b.strSize * 2 ≤ 1024 * configMaxLength ∧ b'.strSize = b.strSize * 2) ∨
          t.length + buf.length + configMaxLength < b.strSize ∧ b'.strSize = b.strSize) := by
  have hroom := hb.room
  obtain ⟨text, hcopy, htext, hholds⟩ := hb.text.strcpy_append hzero (by rw [hb.length_eq]; omega)
  rw [addLine, hb.cur_eq, hcopy, Outcome.ret_bind, hb.cnt_eq]
  by_cases hfull : b.strSize ≤ t.length + buf.length + configMaxLength
  · simp only [ge_iff_le, hfull, if_true]
    by_cases hmax : 1024 * configMaxLength < b.strSize * 2
    · rw [if_pos hmax]
      exact Or.inl ⟨trivial, hmax, rfl⟩
    · rw [if_neg hmax, hholds.cString_eq, Outcome.ret_bind]
      -- the text goes to the beginning of the new block
      have hnew : Accumulates [] ⟨(newBlock fill (b.strSize * 2)).set 0 0, 0, 0, b.strSize * 2⟩ :=
        newBlock_accumulates (by omega)
      have hsrc : t.length + buf.length = (t ++ buf).length := by rw [List.length_append]
      obtain ⟨text', hcopy', htext', hholds'⟩ := hnew.text.strcpy_append hholds.zero_notMem (by
        rw [hnew.length_eq, List.length_nil, ← hsrc]
        dsimp only
        omega)
      rw [List.length_nil] at hcopy'
      rw [hcopy', Outcome.ret_bind]
      refine Or.inr ⟨_, rfl, ⟨hholds', hsrc, hsrc, ?_, ?_⟩, Or.inl ⟨trivial, not_lt.1 hmax, rfl⟩⟩
      · exact htext'.trans hnew.length_eq
      · rw [← hsrc]
        dsimp only
        omega
  · rw [if_neg (by omega)]
    have hsrc : t.length + buf.length = (t ++ buf).length := by rw [List.length_append]
    refine Or.inr ⟨_, rfl, ⟨hholds, hsrc, hsrc, htext.trans hb.length_eq, ?_⟩,
      Or.inr ⟨not_le.1 hfull, rfl⟩⟩
    rw [← hsrc]
    exact not_le.1 hfull

/-- A line as `parser_read_a_table` can take it: it has no NUL, and `CONFIG_MAX_LENGTH` bytes are
enough for it. -/
def ShortLine (line : Bytes) : Prop := 0 ∉ line ∧ line.length ≤ configMaxLength

lemma ShortLine.takeWhile_eq {line : Bytes} (h : ShortLine line) :
    line.takeWhile (· ≠ 0) = line := by
  refine List.takeWhile_eq_self_iff.2 fun c hc => ?_
  simpa using fun hzero : c = 0 => h.1 (hzero ▸ hc)

/-- The loop with the block does what the loop with the text does. -/
lemma readTableBlock_eq {lines : List Bytes} (hlines : ∀ line ∈ lines, ShortLine line) {t : Bytes}
    {b : TextBuffer} (hb : Accumulates t b) :
    readTableBlock fill lines b = readATable lines t b.strSize := by
  induction lines generalizing t b with
  | nil =>
      rw [readTableBlock, hb.text.cString_eq]
      rfl
  | cons line lines ih =>
      have hline := hlines line List.mem_cons_self
      have hrest : ∀ l ∈ lines, ShortLine l := fun l hl => hlines l (List.mem_cons_of_mem line hl)
      have hroom := hb.room
      have hlen := hline.2
      rw [readTableBlock, readATable]
      simp only [hline.takeWhile_eq, List.length_append]
      rw [if_neg (show ¬ t.length + line.length + 1 > b.strSize by omega)]
      rcases addLine_accumulates fill hb hline.1 hline.2 with
        ⟨hfull, hmax, hadd⟩ | ⟨b', hadd, hb', ⟨hfull, hmax, hsize⟩ | ⟨hfits, hsize⟩⟩
      · simp only [hadd, Outcome.ret_bind, ge_iff_le, hfull, if_true, true_and]
        rw [if_pos hmax]
        rfl
      · simp only [hadd, Outcome.ret_bind, ge_iff_le, hfull, if_true, true_and]
        rw [if_neg (not_lt.2 hmax), hb'.text.cString_eq, ih hrest hb', hsize]
        rfl
      · simp only [hadd, Outcome.ret_bind, ge_iff_le, not_le.2 hfits, if_false, false_and]
        rw [hb'.text.cString_eq, ih hrest hb', hsize]
        rfl

/-! ### The text -/

/-- The lines of a table: up to the first one with `);`, or all of them. -/
def tableLines : List Bytes → List Bytes
  | [] => []
  | line :: file => line :: if ascii ");" <:+: line then [] else tableLines file

/-- The size of a block that has been doubled at most seven times is within the limit. -/
lemma doubled_le {k : ℕ} (hk : k ≤ 7) :
    2 ^ k * (8 * configMaxLength) ≤ 1024 * configMaxLength := by
  have hpow : 2 ^ k ≤ 2 ^ 7 := Nat.pow_le_pow_right (by decide) hk
  have := Nat.mul_le_mul_right (8 * configMaxLength) hpow
  omega

/-- The text of the lines behind `t`, in a block that has been doubled `k` times.  The limit is
the size after seven times. -/
lemma readATable_text {lines : List Bytes} (hlines : ∀ line ∈ lines, ShortLine line) {t : Bytes}
    {k : ℕ} (hk : k ≤ 7) (hroom : t.length + configMaxLength < 2 ^ k * (8 * configMaxLength)) :
    ∃ rest, readATable lines t (2 ^ k * (8 * configMaxLength)) =
      .ret (if 1024 * configMaxLength
          ≤ t.length + (tableLines lines).flatten.length + configMaxLength then none
        else some (t ++ (tableLines lines).flatten), rest) := by
  induction lines generalizing t k with
  | nil =>
      have hlimit := doubled_le hk
      refine ⟨[], ?_⟩
      rw [readATable, tableLines, List.flatten_nil, List.length_nil, if_neg (by omega),
        List.append_nil]
  | cons line lines ih =>
      have hline := hlines line List.mem_cons_self
      have hrest : ∀ l ∈ lines, ShortLine l := fun l hl => hlines l (List.mem_cons_of_mem line hl)
      have hlen := hline.2
      have htable : line.length ≤ (tableLines (line :: lines)).flatten.length := by
        rw [tableLines, List.flatten_cons, List.length_append]
        omega
      -- what happens behind the line, for the size of the block then
      have hbehind : ∀ k', k' ≤ 7 → t.length + line.length + configMaxLength
            < 2 ^ k' * (8 * configMaxLength) →
          ∃ rest, (if (regexec patternTableEnd line).isSome then Outcome.ret (some (t ++ line), lines)
            else readATable lines (t ++ line) (2 ^ k' * (8 * configMaxLength))) =
          .ret (if 1024 * configMaxLength
              ≤ t.length + (tableLines (line :: lines)).flatten.length + configMaxLength then none
            else some (t ++ (tableLines (line :: lines)).flatten), rest) := by
        intro k' hk' hroom'
        by_cases hend : ascii ");" <:+: line
        · have hlimit := doubled_le hk'
          refine ⟨lines, ?_⟩
          rw [if_pos (patternTableEnd_isSome.2 hend), tableLines, if_pos hend,
            List.flatten_singleton, if_neg (by omega)]
        · obtain ⟨rest, hrun⟩ := ih (t := t ++ line) hrest hk' (by rwa [List.length_append])
          refine ⟨rest, ?_⟩
          rw [if_neg (mt patternTableEnd_isSome.1 hend), hrun, tableLines, if_neg hend,
            List.flatten_cons, List.length_append, List.length_append, List.append_assoc,
            Nat.add_assoc t.length]
      rw [readATable]
      simp only [hline.takeWhile_eq, List.length_append]
      rw [if_neg (show ¬ t.length + line.length + 1 > 2 ^ k * (8 * configMaxLength) by omega)]
      by_cases hfull : 2 ^ k * (8 * configMaxLength) ≤ t.length + line.length + configMaxLength
      · simp only [ge_iff_le, hfull, if_true, true_and]
        have hdouble : 2 ^ k * (8 * configMaxLength) * 2 = 2 ^ (k + 1) * (8 * configMaxLength) := by
          rw [pow_succ]
          ring
        rcases hk.lt_or_eq with hlt | rfl
        · have hlimit := doubled_le (Nat.succ_le_of_lt hlt)
          rw [hdouble, if_neg (not_lt.2 hlimit)]
          exact hbehind (k + 1) hlt (by omega)
        · refine ⟨lines, ?_⟩
          rw [if_pos (by norm_num [configMaxLength]), if_pos (by omega)]
      · simp only [ge_iff_le, hfull, if_false, false_and]
        exact hbehind k hk (not_le.1 hfull)

/-- **The text of a table is accumulated without loss or overflow.**  For lines without NULs and of
at most `CONFIG_MAX_LENGTH` bytes `parser_read_a_table` returns and no copy leaves its block,
through any number of doublings and whatever is in the new blocks.  It fails exactly when a block
of `1024 * CONFIG_MAX_LENGTH` bytes has no room for another line behind the lines of the table,
and else it returns these lines one behind the other; `readATable` does the same. -/
theorem table_text_accumulated (fill : ℕ → ℕ → UInt8) (lines : List Bytes)
    (hzero : ∀ line ∈ lines, 0 ∉ line)
    (hlen : ∀ line ∈ lines, line.length ≤ configMaxLength) :
    (∃ rest, parserReadATableBlock fill lines =
      .ret (if 1024 * configMaxLength ≤ (tableLines lines).flatten.length + configMaxLength
        then none else some (tableLines lines).flatten, rest)) ∧
      parserReadATableBlock fill lines = parserReadATable lines := by
  have hlines : ∀ line ∈ lines, ShortLine line := fun line hl => ⟨hzero line hl, hlen line hl⟩
  have hroom : configMaxLength < 8 * configMaxLength := by norm_num [configMaxLength]
  have heq : parserReadATableBlock fill lines = parserReadATable lines :=
    readTableBlock_eq hlines (newBlock_accumulates hroom)
  refine ⟨?_, heq⟩
  obtain ⟨rest, hrun⟩ := readATable_text (t := []) hlines (Nat.zero_le 7) (by simpa using hroom)
  rw [pow_zero, Nat.one_mul, List.length_nil, Nat.zero_add] at hrun
  exact ⟨rest, by rw [heq, parserReadATable, hrun, List.nil_append]⟩

/-- A table on two lines, and the line behind it. -/
theorem table_text_accumulated_two : ∃ rest,
    parserReadATableBlock (fun _ _ => 120)
        [ascii "create table t (", ascii "id bigint primary key);", ascii "[cmd_rate]"]
      = .ret (some (ascii "create table t (id bigint primary key);"), rest) := by
  obtain ⟨⟨rest, hrun⟩, -⟩ := table_text_accumulated (fun _ _ => 120)
    [ascii "create table t (", ascii "id bigint primary key);", ascii "[cmd_rate]"]
    (by decide +kernel) (by decide +kernel)
  have htext : (tableLines [ascii "create table t (", ascii "id bigint primary key);",
      ascii "[cmd_rate]"]).flatten = ascii "create table t (id bigint primary key);" := by
    decide +kernel
  have hlength : (ascii "create table t (id bigint primary key);").length = 39 := by decide +kernel
  rw [htext, hlength, if_neg (by norm_num [configMaxLength])] at hrun
  exact ⟨rest, hrun⟩

end CheckQ
