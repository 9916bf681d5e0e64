import CheckQ.Lib.Outcome
import Mathlib.Data.List.TakeWhile

/-!
# Strings in blocks of memory

A block is the list of its bytes, and the string in it is what stands before the first NUL.  A
string that has no NUL behind it in its block is read beyond the end, and a copy that has no room,
the NUL included, is written beyond it; both are faults.
-/

namespace CheckQ

/-- The string at the beginning of a block. -/
def cString (block : List UInt8) : Outcome (List UInt8) :=
  if 0 ∈ block then .ret (block.takeWhile (· ≠ 0)) else .fault

/-- `strcpy` of the string `src` to the place `dst` of a block. -/
def strcpy (block : List UInt8) (dst : ℕ) (src : List UInt8) : Outcome (List UInt8) :=
  if block.length < dst + src.length + 1 then .fault
  else .ret (block.take dst ++ src ++ 0 :: block.drop (dst + src.length + 1))

/-- The string in the block is `t`. -/
structure HoldsString (block t : List UInt8) : Prop where
  zero_notMem : 0 ∉ t
  exists_rest : ∃ rest, block = t ++ 0 :: rest

namespace HoldsString

variable {block t : List UInt8}

lemma cString_eq (h : HoldsString block t) : cString block = .ret t := by
  obtain ⟨rest, rfl⟩ := h.exists_rest
  rw [cString, if_pos (by simp), Outcome.ret.injEq]
  have hall : ∀ c ∈ t, decide (c ≠ 0) = true := by
    intro c hc
    simpa using fun hzero : c = 0 => h.zero_notMem (hzero ▸ hc)
  rw [List.takeWhile_append_of_pos hall, List.takeWhile_cons_of_neg (by simp), List.append_nil]

/-- A block that begins with a NUL holds the empty string. -/
lemma set_zero (h : block ≠ []) : HoldsString (block.set 0 0) [] := by
  obtain ⟨c, rest, rfl⟩ := List.exists_cons_of_ne_nil h
  exact ⟨by simp, rest, rfl⟩

/-- A string is copied behind the one that is there, over its NUL. -/
lemma strcpy_append (h : HoldsString block t) {src : List UInt8} (hsrc : 0 ∉ src)
    (hroom : t.length + src.length < block.length) :
    ∃ block', strcpy block t.length src = .ret block' ∧ block'.length = block.length ∧
      HoldsString block' (t ++ src) := by
  obtain ⟨rest, rfl⟩ := h.exists_rest
  rw [strcpy, if_neg (by omega), List.take_left]
  refine ⟨_, rfl, ?_, ?_, _, rfl⟩
  · simp only [List.length_append, List.length_cons, List.length_drop] at hroom ⊢
    omega
  · rw [List.mem_append, not_or]
    exact ⟨h.zero_notMem, hsrc⟩

end HoldsString

end CheckQ
