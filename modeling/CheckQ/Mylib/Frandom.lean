import CheckQ.Lib.Outcome
import CheckQ.Lib.Rounds
import CheckQ.Mylib.Clib

/-!
# The random strings of `mylib/frandom.c`

`string_frandom` fills a buffer with pseudo-random words, each of them cut down to one of
four alphabets of sixteen characters: a word is masked with `BIT_MASK` and then given the
bits of `BIT_SET`.  The words come in groups of 31, 15, 7, 3 and 1, a group being the sums
of the subsets of a few calls of `frandom`; the last bytes are a part of one word.  Words are
stored with the low byte first.
-/

namespace CheckQ

/-- `mix64`. -/
def mix64 (a b c : UInt64) : UInt64 × UInt64 × UInt64 :=
  let a := a - b; let a := a - c; let a := a ^^^ (c >>> 43)
  let b := b - c; let b := b - a; let b := b ^^^ (a <<< 9)
  let c := c - a; let c := c - b; let c := c ^^^ (b >>> 8)
  let a := a - b; let a := a - c; let a := a ^^^ (c >>> 38)
  let b := b - c; let b := b - a; let b := b ^^^ (a <<< 23)
  let c := c - a; let c := c - b; let c := c ^^^ (b >>> 5)
  let a := a - b; let a := a - c; let a := a ^^^ (c >>> 35)
  let b := b - c; let b := b - a; let b := b ^^^ (a <<< 49)
  let c := c - a; let c := c - b; let c := c ^^^ (b >>> 11)
  let a := a - b; let a := a - c; let a := a ^^^ (c >>> 12)
  let b := b - c; let b := b - a; let b := b ^^^ (a <<< 18)
  let c := c - a; let c := c - b; let c := c ^^^ (b >>> 22)
  (a, b, c)

/-- `frandom`. -/
def frandom (k level : UInt64) : UInt64 :=
  (mix64 (k + level) level 0x9e3779b97f4a7c13).2.2

/-- `bit_sets`. -/
def bitSets : List UInt64 :=
  [0x3030303030303030, 0x4040404040404040, 0x5050505050505050, 0x6060606060606060]

/-- `bit_masks`. -/
def bitMasks : List UInt64 :=
  [0x3f3f3f3f3f3f3f3f, 0x4f4f4f4f4f4f4f4f, 0x5f5f5f5f5f5f5f5f, 0x6f6f6f6f6f6f6f6f]

/-- The words of `string_gen_1`, before they are masked. -/
def stringGen1 (seed level : UInt64) : List UInt64 := [frandom seed level]

/-- The words of `string_gen_2`, before they are masked. -/
def stringGen2 (seed level : UInt64) : List UInt64 :=
  let rd1 := frandom seed level
  let rd2 := frandom seed (level + 1)
  [rd1, rd2, rd1 ^^^ rd2]

/-- The words of `string_gen_3`, before they are masked. -/
def stringGen3 (seed level : UInt64) : List UInt64 :=
  let rd1 := frandom seed level
  let rd2 := frandom seed (level + 1)
  let rd3 := frandom seed (level + 2)
  let rd_12 := rd1 ^^^ rd2
  [rd1, rd2, rd3, rd_12, rd1 ^^^ rd3, rd2 ^^^ rd3, rd_12 ^^^ rd3]

/-- The words of `string_gen_4`, before they are masked. -/
def stringGen4 (seed level : UInt64) : List UInt64 :=
  let rd1 := frandom seed level
  let rd2 := frandom seed (level + 1)
  let rd3 := frandom seed (level + 2)
  let rd4 := frandom seed (level + 3)
  let rd_12 := rd1 ^^^ rd2
  let rd_23 := rd2 ^^^ rd3
  let rd_34 := rd3 ^^^ rd4
  let rd_123 := rd_12 ^^^ rd3
  [rd1, rd2, rd3, rd4, rd_12, rd1 ^^^ rd3, rd1 ^^^ rd4, rd_23, rd2 ^^^ rd4, rd_34, rd_123,
    rd_12 ^^^ rd4, rd1 ^^^ rd_34, rd_23 ^^^ rd4, rd_123 ^^^ rd4]

/-- The words of `string_gen_5`, before they are masked. -/
def stringGen5 (seed level : UInt64) : List UInt64 :=
  let rd1 := frandom seed level
  let rd2 := frandom seed (level + 1)
  let rd3 := frandom seed (level + 2)
  let rd4 := frandom seed (level + 3)
  let rd5 := frandom seed (level + 4)
  let rd_12 := rd1 ^^^ rd2
  let rd_13 := rd1 ^^^ rd3
  let rd_23 := rd2 ^^^ rd3
  let rd_34 := rd3 ^^^ rd4
  let rd_45 := rd4 ^^^ rd5
  let rd_123 := rd_12 ^^^ rd3
  let rd_234 := rd_23 ^^^ rd4
  let rd_345 := rd_34 ^^^ rd5
  let rd_1234 := rd_123 ^^^ rd4
  [rd1, rd2, rd3, rd4, rd5, rd_12, rd_13, rd1 ^^^ rd4, rd1 ^^^ rd5, rd_23, rd2 ^^^ rd4,
    rd2 ^^^ rd5, rd_34, rd3 ^^^ rd5, rd_45, rd_123, rd_12 ^^^ rd4, rd_12 ^^^ rd5, rd_13 ^^^ rd4,
    rd_13 ^^^ rd5, rd1 ^^^ rd_45, rd_234, rd_23 ^^^ rd5, rd2 ^^^ rd_45, rd_345, rd_1234,
    rd_123 ^^^ rd5, rd_12 ^^^ rd_45, rd1 ^^^ rd_345, rd2 ^^^ rd_345, rd_1234 ^^^ rd5]

/-- An entry of `selector`: the number of bytes a generator writes, the generator, and the
number of levels it uses. -/
structure SelectorEntry where
  size : ℕ
  gen : UInt64 → UInt64 → List UInt64
  draws : UInt64

/-- `selector`. -/
def selector : List SelectorEntry :=
  [⟨248, stringGen5, 5⟩, ⟨120, stringGen4, 4⟩, ⟨56, stringGen3, 3⟩, ⟨24, stringGen2, 2⟩,
    ⟨8, stringGen1, 1⟩]

/-- The bytes of a word in memory. -/
def leBytes (w : UInt64) : Bytes :=
  [w.toUInt8, (w >>> 8).toUInt8, (w >>> 16).toUInt8, (w >>> 24).toUInt8, (w >>> 32).toUInt8,
    (w >>> 40).toUInt8, (w >>> 48).toUInt8, (w >>> 56).toUInt8]

/-- The loop of `string_frandom`, with `mask` for what is done to a word before it is stored.
Each round but the last writes at least eight bytes, so `len` rounds are enough. -/
def stringFrandomLoop (mask : UInt64 → UInt64) (seed : UInt64) : ℕ → ℕ → UInt64 → Bytes
  | 0, _, _ => []
  | fuel + 1, len, level =>
      if len = 0 then []
      else match selector.find? fun e => e.size ≤ len with
        | some e =>
            (e.gen seed level).flatMap (fun w => leBytes (mask w)) ++
              stringFrandomLoop mask seed fuel (len - e.size) (level + e.draws)
        | none => (leBytes (mask (frandom seed level))).take len

/-- The alphabet a seed chooses. -/
def alphabetIndex (seed : UInt64) : ℕ := ((seed &&& 0x30) >>> 4).toNat

/-- `(word & BIT_MASK) | BIT_SET`. -/
def maskWord (index : ℕ) (w : UInt64) : UInt64 :=
  (w &&& bitMasks.getD index 0) ||| bitSets.getD index 0

/-- `string_frandom`: the bytes it writes to the buffer. -/
def stringFrandom (length : ℕ) (seed : UInt64) : Bytes :=
  stringFrandomLoop (maskWord (alphabetIndex seed)) seed length length 0

/-- The pseudo-random bytes that `string_frandom` uses, before they are masked. -/
def rawBytes (length : ℕ) (seed : UInt64) : Bytes :=
  stringFrandomLoop id seed length length 0

/-! ### Masking the bytes -/

/-- What the masks do to one byte. -/
def maskByte (index : ℕ) (b : UInt8) : UInt8 :=
  (b &&& (bitMasks.getD index 0).toUInt8) ||| (bitSets.getD index 0).toUInt8

/-- The alphabet is chosen by the bits 4 and 5 of the seed. -/
lemma alphabetIndex_eq (seed : UInt64) : alphabetIndex seed = seed.toNat / 16 % 4 := by
  have hnat : ((seed &&& 0x30) >>> 4).toNat = (seed.toNat &&& 0x30) >>> 4 := by
    simp
  rw [alphabetIndex, hnat, Nat.shiftRight_and_distrib, Nat.shiftRight_eq_div_pow]
  exact Nat.and_two_pow_sub_one_eq_mod (seed.toNat / 2 ^ 4) 2

lemma alphabetIndex_lt (seed : UInt64) : alphabetIndex seed < 4 := by
  rw [alphabetIndex_eq]
  exact Nat.mod_lt _ (by decide)

/-- Each byte of a masked word is the byte of the word, masked. -/
lemma leBytes_maskWord {index : ℕ} (h : index < 4) (w : UInt64) :
    leBytes (maskWord index w) = (leBytes w).map (maskByte index) := by
  -- the masks repeat one byte eight times
  have hmask : ∀ i < 4, leBytes (bitMasks.getD i 0)
      = List.replicate 8 (bitMasks.getD i 0).toUInt8 := by decide
  have hset : ∀ i < 4, leBytes (bitSets.getD i 0)
      = List.replicate 8 (bitSets.getD i 0).toUInt8 := by decide
  have hm := hmask index h
  have hs := hset index h
  simp only [leBytes, List.replicate, List.cons.injEq, and_true, true_and] at hm hs
  simp only [leBytes, maskWord, maskByte, List.map_cons, List.map_nil, UInt64.toUInt8_or,
    UInt64.toUInt8_and, UInt64.shiftRight_or, UInt64.shiftRight_and, hm, hs]

lemma stringFrandomLoop_map {mask : UInt64 → UInt64} {f : UInt8 → UInt8}
    (hf : ∀ w, leBytes (mask w) = (leBytes w).map f) (seed : UInt64) (fuel len : ℕ)
    (level : UInt64) :
    stringFrandomLoop mask seed fuel len level
      = (stringFrandomLoop id seed fuel len level).map f := by
  induction fuel generalizing len level with
  | zero => rfl
  | succ fuel ih =>
      simp only [stringFrandomLoop]
      split
      · rfl
      · split
        · simp only [hf, ih, id_eq, List.map_append, List.map_flatMap]
        · simp only [hf, id_eq, List.map_take]

/-- **The string is its random bytes, masked.** -/
lemma stringFrandom_eq_map (length : ℕ) (seed : UInt64) :
    stringFrandom length seed = (rawBytes length seed).map (maskByte (alphabetIndex seed)) :=
  stringFrandomLoop_map (leBytes_maskWord (alphabetIndex_lt seed)) seed length length 0

/-- A masked byte is in the window of sixteen characters of its alphabet. -/
lemma maskByte_window {index : ℕ} (hi : index < 4) (b : UInt8) :
    48 + 16 * index ≤ (maskByte index b).toNat ∧ (maskByte index b).toNat ≤ 63 + 16 * index := by
  have table : ∀ i < 4, ∀ n < 256, 48 + 16 * i ≤ (maskByte i (UInt8.ofNat n)).toNat ∧
      (maskByte i (UInt8.ofNat n)).toNat ≤ 63 + 16 * i := by
    decide +kernel
  have := table index hi b.toNat b.toNat_lt
  rwa [UInt8.ofNat_toNat] at this

lemma le_of_mem_stringFrandom {length : ℕ} {seed : UInt64} {c : UInt8}
    (h : c ∈ stringFrandom length seed) : 48 ≤ c.toNat := by
  rw [stringFrandom_eq_map, List.mem_map] at h
  obtain ⟨b, -, rfl⟩ := h
  have := (maskByte_window (alphabetIndex_lt seed) b).1
  omega

/-! ### The length -/

lemma length_leBytes (w : UInt64) : (leBytes w).length = 8 := rfl

/-- Every entry of the selector writes as many bytes as it says. -/
lemma selector_size {e : SelectorEntry} (he : e ∈ selector) (seed level : UInt64) :
    8 * (e.gen seed level).length = e.size ∧ 0 < e.size := by
  simp only [selector, List.mem_cons, List.not_mem_nil, or_false] at he
  rcases he with rfl | rfl | rfl | rfl | rfl <;> exact ⟨rfl, by decide⟩

lemma length_flatMap_leBytes (mask : UInt64 → UInt64) (ws : List UInt64) :
    (ws.flatMap fun w => leBytes (mask w)).length = 8 * ws.length := by
  induction ws with
  | nil => rfl
  | cons w ws ih =>
      rw [List.flatMap_cons, List.length_append, length_leBytes, ih, List.length_cons]
      omega

/-- `string_frandom` writes as many bytes as it is told to. -/
lemma length_stringFrandomLoop (mask : UInt64 → UInt64) (seed : UInt64) (fuel len : ℕ)
    (level : UInt64) (h : len ≤ fuel) :
    (stringFrandomLoop mask seed fuel len level).length = len := by
  induction fuel generalizing len level with
  | zero =>
      obtain rfl : len = 0 := by omega
      rfl
  | succ fuel ih =>
      rw [stringFrandomLoop]
      split
      · simp [*]
      · split
        · rename_i e he
          obtain ⟨hsize, hpos⟩ := selector_size (List.mem_of_find?_eq_some he) seed level
          have hle : e.size ≤ len := by simpa using List.find?_some he
          rw [List.length_append, length_flatMap_leBytes, ih _ _ (by omega)]
          omega
        · rename_i hnone
          have hlt : len < 8 := by
            have := List.find?_eq_none.1 hnone ⟨8, stringGen1, 1⟩ (by simp [selector])
            simpa using this
          rw [List.length_take, length_leBytes]
          omega

lemma length_stringFrandom (length : ℕ) (seed : UInt64) :
    (stringFrandom length seed).length = length :=
  length_stringFrandomLoop _ _ _ _ _ le_rfl

/-! ### The buffer -/

/-- The positions that bytes are written to, the first of them at `pos`. -/
def writesAt (pos : ℕ) (bs : Bytes) : List (ℕ × UInt8) := (List.range' pos bs.length).zip bs

/-- What a generator writes: the words `string[0]`, `string[1]`, and so on, of the buffer. -/
def genWrites (mask : UInt64 → UInt64) : ℕ → List UInt64 → List (ℕ × UInt8)
  | _, [] => []
  | pos, w :: ws => writesAt pos (leBytes (mask w)) ++ genWrites mask (pos + 8) ws

/-- The loop of `string_frandom` with the buffer: what it writes, and where.  After a generator
the buffer is moved on by the size that the selector has for it. -/
def stringFrandomWrites (mask : UInt64 → UInt64) (seed : UInt64) :
    ℕ → ℕ → ℕ → UInt64 → Outcome (List (ℕ × UInt8))
  | 0, _, len, _ => if len = 0 then .ret [] else .spin
  | fuel + 1, buf, len, level =>
      if len = 0 then .ret []
      else match selector.find? fun e => e.size ≤ len with
        | some e => do
            let rest ← stringFrandomWrites mask seed fuel (buf + e.size) (len - e.size)
              (level + e.draws)
            return genWrites mask buf (e.gen seed level) ++ rest
        | none => .ret (writesAt buf ((leBytes (mask (frandom seed level))).take len))

lemma writesAt_append (pos : ℕ) (as bs : Bytes) :
    writesAt pos (as ++ bs) = writesAt pos as ++ writesAt (pos + as.length) bs := by
  rw [writesAt, List.length_append, ← List.range'_append_1, List.zip_append (by simp)]
  rfl

lemma genWrites_eq (mask : UInt64 → UInt64) (pos : ℕ) (ws : List UInt64) :
    genWrites mask pos ws = writesAt pos (ws.flatMap fun w => leBytes (mask w)) := by
  induction ws generalizing pos with
  | nil => rfl
  | cons w ws ih => rw [genWrites, ih, List.flatMap_cons, writesAt_append, length_leBytes]

/-- The loop writes the bytes of the string one after the other. -/
lemma stringFrandomWrites_eq (mask : UInt64 → UInt64) (seed : UInt64) (fuel fuel' buf len : ℕ)
    (level : UInt64) (h : len ≤ fuel) (h' : len ≤ fuel') :
    stringFrandomWrites mask seed fuel buf len level =
      .ret (writesAt buf (stringFrandomLoop mask seed fuel' len level)) := by
  induction fuel generalizing fuel' buf len level with
  | zero =>
      obtain rfl : len = 0 := by omega
      cases fuel' <;> rfl
  | succ fuel ih =>
      cases fuel' with
      | zero =>
          obtain rfl : len = 0 := by omega
          rfl
      | succ fuel' =>
          rw [stringFrandomWrites, stringFrandomLoop]
          split
          · rfl
          · split
            · rename_i e he
              obtain ⟨hsize, hpos⟩ := selector_size (List.mem_of_find?_eq_some he) seed level
              have hle : e.size ≤ len := by simpa using List.find?_some he
              -- the generator has written as many bytes as the buffer is moved on
              rw [ih fuel' _ _ _ (by omega) (by omega), Outcome.ret_bind, genWrites_eq,
                writesAt_append, length_flatMap_leBytes, hsize]
              rfl
            · rfl

/-- **Random strings stay in their alphabet.**  For every length and every seed the loop of
`string_frandom` ends and has written one byte to each of the `length` positions from the
beginning of the buffer on, in order and to no other; the bytes are in the window of sixteen
characters that the bits 4 and 5 of the seed choose, so none of them is a NUL, a line feed, a
carriage return or a space. -/
theorem string_frandom_alphabet (buf length : ℕ) (seed : UInt64) :
    ∃ writes : List (ℕ × UInt8),
      (∀ fuel, length ≤ fuel →
        stringFrandomWrites (maskWord (alphabetIndex seed)) seed fuel buf length 0 =
          .ret writes) ∧
      writes.map Prod.fst = List.range' buf length ∧
      ∀ w ∈ writes,
        (0x30 + 16 * (seed.toNat / 16 % 4) ≤ w.2.toNat ∧
          w.2.toNat ≤ 0x3F + 16 * (seed.toNat / 16 % 4)) ∧
        w.2 ∉ [0, 10, 13, 32] := by
  refine ⟨writesAt buf (stringFrandom length seed), fun fuel hfuel => ?_, ?_, ?_⟩
  · exact stringFrandomWrites_eq _ seed fuel length buf length 0 hfuel le_rfl
  · rw [writesAt, length_stringFrandom, List.map_fst_zip]
    simp [length_stringFrandom]
  · intro w hw
    have hmem : w.2 ∈ stringFrandom length seed := (List.of_mem_zip hw).2
    have hlow := le_of_mem_stringFrandom hmem
    constructor
    · rw [stringFrandom_eq_map, List.mem_map] at hmem
      obtain ⟨b, -, hb⟩ := hmem
      rw [← alphabetIndex_eq, ← hb]
      exact maskByte_window (alphabetIndex_lt seed) b
    · intro hin
      simp only [List.mem_cons, List.not_mem_nil, or_false] at hin
      rcases hin with h | h | h | h <;> rw [h] at hlow <;> simp at hlow

/-! ### `mix64` backwards -/

/-- A line of `mix64`: two subtractions and an exclusive or with the last word, shifted. -/
def mixLine (shift : UInt64 → UInt64) (y z : UInt64) : UInt64 ≃ UInt64 where
  toFun x := (x - y - z) ^^^ shift z
  invFun x := (x ^^^ shift z) + z + y
  left_inv x := by
    show ((x - y - z ^^^ shift z) ^^^ shift z) + z + y = x
    rw [UInt64.xor_assoc, UInt64.xor_self, UInt64.xor_zero, UInt64.sub_add_cancel,
      UInt64.sub_add_cancel]
  right_inv x := by
    show ((x ^^^ shift z) + z + y - y - z) ^^^ shift z = x
    rw [UInt64.add_sub_cancel, UInt64.add_sub_cancel, UInt64.xor_assoc, UInt64.xor_self,
      UInt64.xor_zero]

/-- The twelve lines of `mix64`.  They change `a`, `b` and `c` in turn. -/
def mixLines : List (UInt64 → UInt64 → UInt64 ≃ UInt64) :=
  [mixLine (· >>> 43), mixLine (· <<< 9), mixLine (· >>> 8),
    mixLine (· >>> 38), mixLine (· <<< 23), mixLine (· >>> 5),
    mixLine (· >>> 35), mixLine (· <<< 49), mixLine (· >>> 11),
    mixLine (· >>> 12), mixLine (· <<< 18), mixLine (· >>> 22)]

/-- After twelve rounds the words are in their places again. -/
lemma mix64_eq_turns (a b c : UInt64) : mix64 a b c = turns mixLines (a, b, c) := rfl

/-- The lines of `mix64` undone, the last one first. -/
def unmix64 (a b c : UInt64) : UInt64 × UInt64 × UInt64 := (turns mixLines).symm (a, b, c)

/-- **`mix64` is reversible.**  It is a bijection of the triples of words, every triple comes from
exactly one, and that is the one that the lines give when they are undone. -/
theorem mix64_reversible :
    (Function.Bijective fun p : UInt64 × UInt64 × UInt64 => mix64 p.1 p.2.1 p.2.2) ∧
      ∀ a b c : UInt64,
        (∃! p : UInt64 × UInt64 × UInt64, mix64 p.1 p.2.1 p.2.2 = (a, b, c)) ∧
        (let p := unmix64 a b c; mix64 p.1 p.2.1 p.2.2 = (a, b, c)) ∧
        (let p := mix64 a b c; unmix64 p.1 p.2.1 p.2.2 = (a, b, c)) := by
  have hmix : (fun p : UInt64 × UInt64 × UInt64 => mix64 p.1 p.2.1 p.2.2) = turns mixLines := by
    ext p : 1
    exact mix64_eq_turns p.1 p.2.1 p.2.2
  have hbij : Function.Bijective fun p : UInt64 × UInt64 × UInt64 => mix64 p.1 p.2.1 p.2.2 := by
    rw [hmix]
    exact (turns mixLines).bijective
  refine ⟨hbij, fun a b c => ⟨hbij.existsUnique (a, b, c), ?_, ?_⟩⟩
  · show mix64 (unmix64 a b c).1 (unmix64 a b c).2.1 (unmix64 a b c).2.2 = (a, b, c)
    rw [mix64_eq_turns]
    exact (turns mixLines).apply_symm_apply (a, b, c)
  · show (turns mixLines).symm (mix64 a b c) = (a, b, c)
    rw [mix64_eq_turns, Equiv.symm_apply_apply]

end CheckQ
