import CheckQ.Mylib.Frandom
import CheckQ.Mylib.Hash

/-!
# The hash function of `mylib/hash.c`

`hash_func` reads the key in blocks of 24 bytes, as three words, and mixes each block into
three words of state, with the `mix64` that `frandom.c` has as well.  A key at an address
that is a multiple of 8 is read word by word, any other one byte by byte, and `aligned` says
which of the two it is.  On a little-endian machine the two give the same words, so that the
value of a key, and with it the slots that a search for it looks at, is the same wherever the
key is.
-/

namespace CheckQ

/-- A sum of bytes, each shifted by 8 more than the one before it. -/
def shiftSum : Bytes → UInt64 → UInt64
  | [], _ => 0
  | b :: bs, shift => (b.toUInt64 <<< shift) + shiftSum bs (shift + 8)

/-- The word at an address, on a little-endian machine. -/
def loadWord (bs : Bytes) : UInt64 :=
  UInt64.ofNat ((bs.take 8).foldr (fun b v => b.toNat + 256 * v) 0)

/-- One of the three words of a block. -/
def blockWord (aligned : Bool) (bs : Bytes) : UInt64 :=
  if aligned then loadWord bs else shiftSum (bs.take 8) 0

/-- The loop over the blocks of 24 bytes: the state and the bytes that are left. -/
def hashBlocks (aligned : Bool) : ℕ → Bytes → UInt64 × UInt64 × UInt64 →
    (UInt64 × UInt64 × UInt64) × Bytes
  | 0, k, s => (s, k)
  | n + 1, k, (a, b, c) =>
      hashBlocks aligned n (k.drop 24)
        (mix64 (a + blockWord aligned k) (b + blockWord aligned (k.drop 8))
          (c + blockWord aligned (k.drop 16)))

/-- `hash_func`. -/
def hashFunc (aligned : Bool) (key : Bytes) (level : UInt64) : UInt64 :=
  let ((a, b, c), k) := hashBlocks aligned (key.length / 24) key (level, level, 0x9e3779b97f4a7c13)
  let c := c + UInt64.ofNat key.length
  -- the first byte of `c` is reserved for the length
  let c := c + shiftSum (k.drop 16) 8
  let b := b + shiftSum ((k.drop 8).take 8) 0
  let a := a + shiftSum (k.take 8) 0
  (mix64 a b c).2.2

/-! ### Words and bytes -/

/-- The number that bytes stand for, the lowest one first. -/
def byteValue (bs : Bytes) : ℕ := bs.foldr (fun b v => b.toNat + 256 * v) 0

/-- The sum that the unaligned loop writes out for a word. -/
lemma shiftSum_word (k₀ k₁ k₂ k₃ k₄ k₅ k₆ k₇ : UInt8) :
    shiftSum [k₀, k₁, k₂, k₃, k₄, k₅, k₆, k₇] 0 =
      k₀.toUInt64 + (k₁.toUInt64 <<< 8) + (k₂.toUInt64 <<< 16) + (k₃.toUInt64 <<< 24) +
        (k₄.toUInt64 <<< 32) + (k₅.toUInt64 <<< 40) + (k₆.toUInt64 <<< 48) +
          (k₇.toUInt64 <<< 56) := by
  simp [shiftSum, UInt64.add_assoc]

/-- A byte shifted by whole bytes, inside a word. -/
lemma shiftLeft_byte (b : UInt8) {n : ℕ} (hn : n < 8) :
    b.toUInt64 <<< UInt64.ofNat (8 * n) = UInt64.ofNat (256 ^ n * b.toNat) := by
  have hshift : b.toNat <<< (8 * n) = 256 ^ n * b.toNat := by
    rw [Nat.shiftLeft_eq, Nat.pow_mul, Nat.mul_comm]
  rw [← UInt64.ofNat_uInt8ToNat b, ← UInt64.ofNat_shiftLeft _ _ (by omega), hshift]

/-- The shifted bytes add up to the number they stand for, as long as they are in one word. -/
lemma shiftSum_eq (bs : Bytes) (n : ℕ) (hlen : n + bs.length ≤ 8) :
    shiftSum bs (UInt64.ofNat (8 * n)) = UInt64.ofNat (256 ^ n * byteValue bs) := by
  induction bs generalizing n with
  | nil => simp [shiftSum, byteValue]
  | cons b bs ih =>
      rw [List.length_cons] at hlen
      have hnext : UInt64.ofNat (8 * n) + 8 = UInt64.ofNat (8 * (n + 1)) := by
        rw [Nat.mul_succ, UInt64.ofNat_add]
        rfl
      have hvalue : 256 ^ n * byteValue (b :: bs) =
          256 ^ n * b.toNat + 256 ^ (n + 1) * byteValue bs := by
        rw [byteValue, List.foldr_cons, Nat.mul_add, Nat.pow_succ, Nat.mul_assoc]
        rfl
      rw [shiftSum, shiftLeft_byte b (by omega), hnext, ih (n + 1) (by omega), hvalue,
        UInt64.ofNat_add]

/-- The two ways to read a word of a block. -/
lemma blockWord_aligned (bs : Bytes) : blockWord true bs = blockWord false bs := by
  have hsum := shiftSum_eq (bs.take 8) 0 (by simp)
  rw [Nat.pow_zero, Nat.one_mul] at hsum
  rw [blockWord, blockWord, if_pos rfl, if_neg (by simp), loadWord]
  exact hsum.symm

lemma hashBlocks_aligned (n : ℕ) (k : Bytes) (s : UInt64 × UInt64 × UInt64) :
    hashBlocks true n k s = hashBlocks false n k s := by
  induction n generalizing k s with
  | zero => rfl
  | succ n ih =>
      obtain ⟨a, b, c⟩ := s
      simp only [hashBlocks, blockWord_aligned, ih]

/-- The two loops of `hash_func` give the same value. -/
lemma hashFunc_true_eq : hashFunc true = hashFunc false := by
  ext key level
  rw [hashFunc, hashFunc, hashBlocks_aligned]

/-- **The hash value does not depend on the address of the key.**  For every key and every level
the loop over words and the loop over bytes give the same value, so that a search for a key
looks at the same slots, and finds the same in every table, wherever its key is. -/
theorem hashFunc_alignment (key : Bytes) (aligned aligned' : Bool) :
    (∀ level, hashFunc aligned key level = hashFunc aligned' key level) ∧
      (∀ hashSize level,
        slotSeq (hashFunc aligned) hashSize key level =
          slotSeq (hashFunc aligned') hashSize key level) ∧
      ∀ {α : Type} (entryKey : α → Bytes) (elements : List (Slot α)) (hashSize fuel level : ℕ),
        hashFind entryKey (hashFunc aligned) elements hashSize key fuel level =
          hashFind entryKey (hashFunc aligned') elements hashSize key fuel level := by
  have hsame : hashFunc aligned = hashFunc aligned' := by
    cases aligned <;> cases aligned' <;> simp [hashFunc_true_eq]
  simp [hsame]

end CheckQ
