import CheckQ.Mylib.RandomPick
import CheckQ.Table.Table

/-!
# The schema set and the table set of `table/cq_table.c`

The schema set is a vector of pointers to table schemas, and the table set a hash table of
tables by their names.  A table holds the pointer to its schema and no copy of it, so schemas
are cells of a heap and pointers to them are addresses.
-/

namespace CheckQ

/-- `table`, with the schema as a pointer. -/
structure TableT where
  name : Bytes
  schema : ℕ
deriving DecidableEq, Repr

/-- `table_init`; `strdup` does not fail. -/
def tableInit (name : Bytes) (schema : ℕ) : TableT := ⟨name, schema⟩

/-- `schema_set_init`. -/
def schemaSetInit : VectorT ℕ := vectorAlloc ℕ

/-- `schema_set_add`. -/
def schemaSetAdd (schemaSet : VectorT ℕ) (schema : ℕ) : Outcome (RetT × VectorT ℕ) :=
  vectorPushBack schemaSet schema

/-- `schema_set_get_random`. -/
def schemaSetGetRandom (schemaSet : VectorT ℕ) (r : RandStream) :
    Outcome (Fetched ℕ × RandStream) :=
  vectorGetRandom schemaSet r

/-- `table_set_init`. -/
def tableSetInit : HashT TableT := hashAlloc TableT

/-- `table_set_add`. -/
def tableSetAdd (probe : Bytes → UInt64 → UInt64) (fuel : ℕ) (tableSet : HashT TableT)
    (table : TableT) : Outcome (RetT × HashT TableT) :=
  hashAdd TableT.name probe fuel tableSet table

/-- `table_set_get_random`. -/
def tableSetGetRandom (tableSet : HashT TableT) (r : RandStream) :
    Outcome ((Option TableT × HashT TableT) × RandStream) :=
  hashGetRandom tableSet r

end CheckQ
