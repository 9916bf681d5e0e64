import CheckQ.Lib.Outcome
import CheckQ.Mylib.Clib

/-!
# Columns and schemas of `table/cq_table.c`

A `schema` is an array of `capacity` column pointers of which the first `nschema` are set;
the model keeps these columns as a list, so that `nschema` is its length, and reading a
later cell is a fault.
-/

namespace CheckQ

/-- `table_data_type_t`. -/
inductive TableDataType where
  | bigint
  | varchar
deriving DecidableEq, Repr

/-- `table_data`; `len`, an `int`, is used for `VARCHAR` only. -/
structure TableData where
  name : Bytes
  type : TableDataType
  len : Int32
deriving DecidableEq, Repr

/-- `schema`. -/
structure Schema where
  schemas : List TableData
  capacity : ℕ
deriving DecidableEq, Repr

namespace Schema

/-- `nschema`. -/
def nschema (s : Schema) : ℕ := s.schemas.length

/-- Reading `schemas[i]`. -/
def get (s : Schema) (i : ℕ) : Outcome TableData :=
  match s.schemas[i]? with
  | none => .fault
  | some d => .ret d

end Schema

/-- `table_schema`. -/
structure TableSchema where
  keySchema : Schema
  valSchema : Schema
deriving DecidableEq, Repr

/-- `table_data_init`; `strdup` does not fail. -/
def tableDataInit (name : Bytes) (type : TableDataType) (len : Int32) : TableData :=
  ⟨name, type, len⟩

/-- `schema_init`. -/
def schemaInit : Schema := ⟨[], 100⟩

/-- `schema_add`.  Beyond the capacity the cell that is written is outside the array. -/
def schemaAdd (s : Schema) (d : TableData) : Outcome (RetT × Schema) :=
  if s.nschema = s.capacity then .ret (.failed, s)
  else if s.nschema < s.capacity then .ret (.succeed, { s with schemas := s.schemas ++ [d] })
  else .fault

/-- `table_schema_init`. -/
def tableSchemaInit (keySchema valSchema : Schema) : TableSchema := ⟨keySchema, valSchema⟩

/-- `is_table_schema_full`. -/
def isTableSchemaFull (s : TableSchema) : Bool := s.valSchema.nschema ≥ s.valSchema.capacity

/-- `add_table_data`.  The result of `schema_add` is not looked at. -/
def addTableData (s : TableSchema) (r : RandStream) : Outcome (TableSchema × RandStream) := do
  let dataName := ascii "col" ++ decimal s.valSchema.nschema
  let (coin, r) := r.next
  let (data, r) :=
    if coin % 2 = 0 then (tableDataInit dataName .bigint 0, r)
    else
      let (v, r) := r.next
      (tableDataInit dataName .varchar (Int32.ofNat (v % 503 + 10)), r)
  let (_, valSchema) ← schemaAdd s.valSchema data
  return ({ s with valSchema }, r)

/-- `drop_table_data`.  Without columns it reads `schemas[-1]`. -/
def dropTableData (s : TableSchema) : Outcome TableSchema :=
  if s.valSchema.nschema = 0 then .fault
  else .ret { s with
    valSchema := { s.valSchema with schemas := s.valSchema.schemas.dropLast } }

/-! ### Room for columns -/

/-- `schema_add` appends a column where there is room. -/
lemma schemaAdd_eq {cols : List TableData} {cap : ℕ} (h : cols.length < cap) (d : TableData) :
    schemaAdd ⟨cols, cap⟩ d = .ret (.succeed, ⟨cols ++ [d], cap⟩) := by
  rw [schemaAdd, if_neg, if_pos]
  · exact h
  · exact h.ne

lemma Schema.nschema_pos {s : Schema} {d : TableData} (h : s.schemas.getLast? = some d) :
    0 < s.nschema := List.length_pos_of_mem (List.mem_of_getLast? h)

/-- The columns of a table, those of the key first. -/
def TableSchema.columns (s : TableSchema) : List TableData :=
  s.keySchema.schemas ++ s.valSchema.schemas

end CheckQ
