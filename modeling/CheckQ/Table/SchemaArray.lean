import CheckQ.Lib.ArrayStack
import CheckQ.Table.Table

/-!
# The arrays of a schema

`schema_add` writes the cell behind the last column, unless the counter is equal to the capacity,
and `drop_table_data` frees the last column without a look at the counter.  Here a schema is the
array itself, with the counters as `int`s, and an index out of bounds is a fault.  On a schema
within its capacity the functions do what those on lists of columns do.
-/

namespace CheckQ

/-- `schema`, with the cells of its array. -/
structure SchemaArray where
  schemas : List (Option TableData)
  capacity : Int
  nschema : Int
deriving DecidableEq, Repr

/-- `table_schema`, with arrays. -/
structure TableSchemaArrays where
  keySchema : SchemaArray
  valSchema : SchemaArray
deriving DecidableEq, Repr

/-- `schema_init`. -/
def schemaInitArray : SchemaArray where
  schemas := List.replicate 100 none
  capacity := 100
  nschema := 0

/-- `schema_add`. -/
def schemaAddArray (s : SchemaArray) (d : TableData) : Outcome (RetT × SchemaArray) :=
  if s.nschema = s.capacity then .ret (.failed, s)
  else do
    let schemas ← store s.schemas s.nschema d
    return (.succeed, { s with schemas, nschema := s.nschema + 1 })

/-- `is_table_schema_full`. -/
def isTableSchemaFullArray (s : TableSchemaArrays) : Bool :=
  s.valSchema.nschema ≥ s.valSchema.capacity

/-- `sprintf(data_name, "col%d", nschema)`, where `data_name` has 10 bytes. -/
def sprintfDataName (nschema : Int) : Outcome Bytes :=
  let text := ascii "col" ++ decimalInt nschema
  if text.length + 1 ≤ 10 then .ret text else .fault

/-- `add_table_data`, with what `schema_add` returns. -/
def addTableDataArray (s : TableSchemaArrays) (r : RandStream) :
    Outcome (RetT × TableSchemaArrays × RandStream) := do
  let dataName ← sprintfDataName s.valSchema.nschema
  let (coin, r) := r.next
  let (data, r) :=
    if coin % 2 = 0 then (tableDataInit dataName .bigint 0, r)
    else
      let (v, r) := r.next
      (tableDataInit dataName .varchar (Int32.ofNat (v % 503 + 10)), r)
  let (ret, valSchema) ← schemaAddArray s.valSchema data
  return (ret, { s with valSchema }, r)

/-- `drop_table_data`. -/
def dropTableDataArray (s : TableSchemaArrays) : Outcome TableSchemaArrays := do
  let schemas ← release s.valSchema.schemas (s.valSchema.nschema - 1)
  return { s with valSchema := { s.valSchema with schemas, nschema := s.valSchema.nschema - 1 } }

/-! ### Lists of columns in arrays -/

/-- The array of a schema. -/
def Schema.array (s : Schema) : SchemaArray where
  schemas := stackCells s.schemas s.capacity
  capacity := s.capacity
  nschema := s.nschema

/-- The arrays of a schema. -/
def TableSchema.arrays (s : TableSchema) : TableSchemaArrays where
  keySchema := s.keySchema.array
  valSchema := s.valSchema.array

lemma schemaAddArray_eq {s : Schema} (h : s.nschema ≤ s.capacity) (d : TableData) :
    schemaAddArray s.array d = (do
      let (ret, s') ← schemaAdd s d
      return (ret, s'.array)) := by
  rw [schemaAddArray, schemaAdd]
  rcases h.lt_or_eq with hlt | hfull
  · have hroom : s.array.nschema ≠ s.array.capacity := by
      show (s.nschema : Int) ≠ s.capacity
      omega
    have hstore : store s.array.schemas s.array.nschema d
        = .ret (stackCells (s.schemas ++ [d]) s.capacity) := store_stackCells hlt d
    rw [if_neg hroom, hstore, if_neg hlt.ne, if_pos hlt]
    simp [Schema.array, Schema.nschema]
  · have hfull' : s.array.nschema = s.array.capacity := congrArg Nat.cast hfull
    rw [if_pos hfull', if_pos hfull]
    rfl

/-- A column is added where there is room. -/
lemma schemaAddArray_room {s : Schema} (h : s.nschema < s.capacity) (data : TableData) :
    schemaAddArray s.array data
      = .ret (.succeed, ({ s with schemas := s.schemas ++ [data] } : Schema).array) := by
  have hadd : schemaAdd s data = .ret (.succeed, { s with schemas := s.schemas ++ [data] }) :=
    schemaAdd_eq h data
  rw [schemaAddArray_eq h.le, hadd]
  rfl

lemma isTableSchemaFullArray_eq (s : TableSchema) :
    isTableSchemaFullArray s.arrays = isTableSchemaFull s := by
  simp [isTableSchemaFullArray, isTableSchemaFull, TableSchema.arrays, Schema.array]

/-- The name of a column fits its buffer. -/
lemma sprintfDataName_eq {n : ℕ} (h : n < 10 ^ 6) :
    sprintfDataName n = .ret (ascii "col" ++ decimal n) := by
  have hlen : (decimal n).length ≤ 6 := length_decimal_le (by omega) h
  have hcol : (ascii "col").length = 3 := rfl
  have hfits : (ascii "col" ++ decimalInt n).length + 1 ≤ 10 := by
    show (ascii "col" ++ decimal n).length + 1 ≤ 10
    rw [List.length_append, hcol]
    omega
  rw [sprintfDataName, if_pos hfits]
  rfl

/-- With room in the array and in the buffer, a column is appended. -/
lemma addTableDataArray_eq {s : TableSchema} (hroom : s.valSchema.nschema < s.valSchema.capacity)
    (hname : s.valSchema.nschema < 10 ^ 6) (r : RandStream) :
    addTableDataArray s.arrays r = (do
      let (s', r') ← addTableData s r
      return (.succeed, s'.arrays, r')) := by
  have hadd : ∀ d, schemaAdd s.valSchema d
      = .ret (.succeed, { s.valSchema with schemas := s.valSchema.schemas ++ [d] }) :=
    fun d => schemaAdd_eq hroom d
  have haddArray : ∀ d, schemaAddArray s.arrays.valSchema d
      = .ret (.succeed, ({ s.valSchema with
          schemas := s.valSchema.schemas ++ [d] } : Schema).array) :=
    fun d => schemaAddArray_room hroom d
  have hdata : sprintfDataName s.arrays.valSchema.nschema
      = .ret (ascii "col" ++ decimal s.valSchema.nschema) := sprintfDataName_eq hname
  simp only [addTableDataArray, addTableData, hdata, haddArray, hadd, Outcome.ret_bind,
    Outcome.pure_eq]
  rfl

/-- The last column of a schema within its capacity is freed. -/
lemma dropTableDataArray_eq {s : TableSchema} (h : s.valSchema.nschema ≤ s.valSchema.capacity)
    {data : TableData} (hlast : s.valSchema.schemas.getLast? = some data) :
    dropTableDataArray s.arrays = (do
      let s' ← dropTableData s
      return s'.arrays) := by
  have hpos : 0 < s.valSchema.nschema := Schema.nschema_pos hlast
  have hrelease : release s.arrays.valSchema.schemas (s.arrays.valSchema.nschema - 1)
      = .ret (stackCells s.valSchema.schemas.dropLast s.valSchema.capacity) :=
    release_stackCells h hlast
  have hcount : (s.valSchema.nschema : Int) - 1 = (s.valSchema.schemas.dropLast.length : ℕ) := by
    rw [List.length_dropLast]
    show ((s.valSchema.nschema : ℕ) : Int) - 1 = (s.valSchema.nschema - 1 : ℕ)
    omega
  rw [dropTableDataArray, hrelease, dropTableData, if_neg hpos.ne']
  simp only [Outcome.ret_bind, Outcome.pure_eq, TableSchema.arrays, Schema.array, hcount]
  rfl

/-! ### The bounds of a schema -/

/-- The counter of a schema is within its array. -/
structure SchemaArray.InBounds (s : SchemaArray) : Prop where
  nonneg : 0 ≤ s.nschema
  le_capacity : s.nschema ≤ s.capacity
  length_eq : (s.schemas.length : Int) = s.capacity

/-- The schema `s'` is `s` with the column `colN` behind the `N` columns it had. -/
structure SchemaArray.Appended (s s' : SchemaArray) : Prop where
  nschema_eq : s'.nschema = s.nschema + 1
  capacity_eq : s'.capacity = s.capacity
  old : ∀ i, 0 ≤ i → i < s.nschema → fetch s'.schemas i = fetch s.schemas i
  new : ∃ data, fetch s'.schemas s.nschema = .ret data ∧
    data.name = ascii "col" ++ decimalInt s.nschema

/-- A schema that `schema_init` has made and that is within its capacity. -/
structure Schema.Bounded (s : Schema) : Prop where
  capacity_eq : s.capacity = 100
  nschema_le : s.nschema ≤ 100

namespace Schema.Bounded

variable {s : Schema}

lemma init : schemaInit.Bounded := ⟨rfl, Nat.zero_le _⟩

lemma le_capacity (h : s.Bounded) : s.nschema ≤ s.capacity := by
  rw [h.capacity_eq]
  exact h.nschema_le

lemma inBounds (h : s.Bounded) : s.array.InBounds where
  nonneg := Int.natCast_nonneg _
  le_capacity := Int.ofNat_le.2 h.le_capacity
  length_eq := congrArg Nat.cast (length_stackCells h.le_capacity)

lemma push (h : s.Bounded) (hroom : s.nschema < s.capacity) (data : TableData) :
    ({ s with schemas := s.schemas ++ [data] } : Schema).Bounded where
  capacity_eq := h.capacity_eq
  nschema_le := by
    rw [h.capacity_eq] at hroom
    rw [Schema.nschema, List.length_append, List.length_singleton]
    exact hroom

lemma pop (h : s.Bounded) : ({ s with schemas := s.schemas.dropLast } : Schema).Bounded where
  capacity_eq := h.capacity_eq
  nschema_le := by
    rw [Schema.nschema, List.length_dropLast]
    exact (Nat.sub_le _ 1).trans h.nschema_le

/-- `schema_add` keeps a schema within its capacity. -/
lemma schemaAdd (h : s.Bounded) (data : TableData) :
    (CheckQ.schemaAdd s data).Meets False False fun q => q.2.Bounded := by
  rw [CheckQ.schemaAdd]
  rcases h.le_capacity.lt_or_eq with hlt | hfull
  · rw [if_neg hlt.ne, if_pos hlt]
    exact h.push hlt data
  · rw [if_pos hfull]
    exact h

lemma schemaAddArray (h : s.Bounded) (data : TableData) :
    ∃ ret, ∃ s' : Schema, s'.Bounded ∧
      CheckQ.schemaAddArray s.array data = .ret (ret, s'.array) := by
  obtain ⟨⟨ret, s'⟩, hadd, hs'⟩ := (h.schemaAdd data).exists_ret
  refine ⟨ret, s', hs', ?_⟩
  rw [schemaAddArray_eq h.le_capacity, hadd]
  rfl

lemma of_schemaAdd {s' : Schema} {data : TableData} {ret : RetT} (h : s.Bounded)
    (hadd : CheckQ.schemaAdd s data = .ret (ret, s')) : s'.Bounded := by
  have hs' := h.schemaAdd data
  rw [hadd] at hs'
  exact hs'

end Schema.Bounded

/-- A column with the name `colN` behind `N` columns. -/
lemma Schema.appended {s : Schema} {data : TableData}
    (hname : data.name = ascii "col" ++ decimal s.nschema) :
    s.array.Appended ({ s with schemas := s.schemas ++ [data] } : Schema).array where
  nschema_eq := by simp [array, nschema]
  capacity_eq := rfl
  old := by
    intro i hi hlt
    lift i to ℕ using hi
    have hold : i < s.schemas.length := Int.ofNat_lt.1 hlt
    have hnew : i < (s.schemas ++ [data]).length := by
      rw [List.length_append]
      omega
    simp only [Schema.array, fetch_stackCells hold, fetch_stackCells hnew,
      List.getElem_append_left hold]
  new := by
    have hlt : s.nschema < (s.schemas ++ [data]).length := by simp [Schema.nschema]
    refine ⟨data, ?_, hname⟩
    show fetch (stackCells (s.schemas ++ [data]) s.capacity) (s.nschema : ℕ) = _
    rw [fetch_stackCells hlt]
    simp [Schema.nschema]

end CheckQ
