import CheckQ.Mylib.Frandom
import CheckQ.Table.Table

/-!
# The statement generators of `cq_mysql/cq_sql_gen.c`

The generators write a statement into the buffer `eng_ctx->sql`; `sql_offset--` takes the
last byte back.  A buffer of the model is the text written so far together with a record of
the quoted literals in it: where the text of each begins, what `write_bigint` or
`write_varchar` wrote there, and the seed and length it was made from.  The record is never
read by a generator.

The globals are `sql_frandom_seed` and the stream of `rand()`.  A remainder by zero, a
negative length passed to `string_frandom` and the use of a column that is not there are
faults.
-/

namespace CheckQ

/-- `cmd_type_t`. -/
inductive CmdType where
  | insert
  | delete
  | update
  | select
  | create
  | alterAdd
  | alterDrop
  | drop
deriving DecidableEq, Repr

/-- What the generators read of `eng_ctx_t` beside the table. -/
structure EngCtx where
  tid : Int32
  seedBase : Int32
deriving DecidableEq, Repr

/-- The state the generators share. -/
structure Globals where
  sqlFrandomSeed : Int32
  rand : RandStream

/-- `__sync_add_and_fetch(&sql_frandom_seed, 1)`. -/
def Globals.nextSeed (g : Globals) : Int32 × Globals :=
  (g.sqlFrandomSeed + 1, { g with sqlFrandomSeed := g.sqlFrandomSeed + 1 })

/-- `rand()`. -/
def Globals.nextRand (g : Globals) : ℕ × Globals := (g.rand.next.1, { g with rand := g.rand.next.2 })

/-- An `int` passed as a `uint64_t`. -/
def toUint64 (v : Int32) : UInt64 := v.toInt64.toUInt64

/-- What a literal is made from. -/
inductive LiteralSource where
  | bigint (seed : Int32)
  | varchar (seed : Int32) (len : ℕ)
deriving DecidableEq, Repr

/-- A quoted literal: the offset of the byte after its opening quote, and its bytes. -/
structure Literal where
  offset : ℕ
  bytes : Bytes
  source : LiteralSource
deriving DecidableEq, Repr

/-- A statement buffer. -/
structure SqlBuf where
  text : Bytes
  literals : List Literal
deriving DecidableEq, Repr

namespace SqlBuf

/-- `sprintf` and single bytes. -/
def put (buf : SqlBuf) (s : Bytes) : SqlBuf := { buf with text := buf.text ++ s }

/-- `sql_offset--`. -/
def back (buf : SqlBuf) : SqlBuf := { buf with text := buf.text.dropLast }

/-- A quote, a literal, a quote and a comma. -/
def column (buf : SqlBuf) (lit : LiteralSource × Bytes) : SqlBuf where
  text := buf.text ++ (ascii "'" ++ lit.2 ++ ascii "',")
  literals := buf.literals ++ [⟨buf.text.length + 1, lit.2, lit.1⟩]

end SqlBuf

/-- `write_bigint`: the text it writes. -/
def writeBigint (ctx : EngCtx) (isKey : Bool) (g : Globals) :
    (LiteralSource × Bytes) × Globals :=
  let (seed, g) := if isKey then (ctx.seedBase, g) else g.nextSeed
  ((.bigint seed, decimal (frandom (toUint64 seed) (toUint64 ctx.tid) >>> 1).toNat), g)

/-- `string_frandom(sql_buf, len, seed)` with an `int` for the length. -/
def stringFrandomInt (len : Int32) (seed : Int32) : Outcome (LiteralSource × Bytes) :=
  if len < 0 then .fault
  else .ret (.varchar seed len.toInt.toNat, stringFrandom len.toInt.toNat (toUint64 seed))

/-- `write_varchar`: the text it writes. -/
def writeVarchar (ctx : EngCtx) (data : TableData) (isKey : Bool) (g : Globals) :
    Outcome ((LiteralSource × Bytes) × Globals) :=
  if data.len = 0 then .fault
  else if isKey then do
    let seed := ctx.seedBase
    let len := (frandom (toUint64 seed) (toUint64 ctx.tid) % toUint64 data.len + 1).toUInt32.toInt32
    let lit ← stringFrandomInt len seed
    return (lit, g)
  else do
    let (seed, g) := g.nextSeed
    let (v, g) := g.nextRand
    let len := Int32.ofInt ((v : Int).tmod data.len.toInt + 1)
    let lit ← stringFrandomInt len seed
    return (lit, g)

/-- The literal of a column. -/
def writeLiteral (ctx : EngCtx) (data : TableData) (isKey : Bool) (g : Globals) :
    Outcome ((LiteralSource × Bytes) × Globals) :=
  match data.type with
  | .bigint => .ret (writeBigint ctx isKey g)
  | .varchar => writeVarchar ctx data isKey g

/-- The loops over the columns; with `named` each literal comes behind `name=`. -/
def writeColumns (ctx : EngCtx) (isKey named : Bool) :
    List TableData → SqlBuf → Globals → Outcome (SqlBuf × Globals)
  | [], buf, g => .ret (buf, g)
  | data :: datas, buf, g => do
      let buf := if named then buf.put (data.name ++ ascii "=") else buf
      let (lit, g) ← writeLiteral ctx data isKey g
      writeColumns ctx isKey named datas (buf.column lit) g

/-- The end of `delete_gen`, `update_gen` and `select_gen`: the first key column is written
behind `where`, and its comma taken back. -/
def whereGen (ctx : EngCtx) (s : TableSchema) (buf : SqlBuf) (g : Globals) :
    Outcome (SqlBuf × Globals) := do
  let key ← s.keySchema.get 0
  let (buf, g) ← writeColumns ctx true true [key] buf g
  return (buf.back, g)

/-- `insert_gen`. -/
def insertGen (ctx : EngCtx) (name : Bytes) (s : TableSchema) (g : Globals) :
    Outcome (SqlBuf × Globals) := do
  let buf : SqlBuf := ⟨ascii "insert into " ++ name ++ ascii " values(", []⟩
  let (buf, g) ← writeColumns ctx true false s.keySchema.schemas buf g
  let (buf, g) ← writeColumns ctx false false s.valSchema.schemas buf g
  return (buf.back.put (ascii ")"), g)

/-- `delete_gen`. -/
def deleteGen (ctx : EngCtx) (name : Bytes) (s : TableSchema) (g : Globals) :
    Outcome (SqlBuf × Globals) :=
  whereGen ctx s ⟨ascii "delete from " ++ name ++ ascii " where ", []⟩ g

/-- `update_gen`. -/
def updateGen (ctx : EngCtx) (name : Bytes) (s : TableSchema) (g : Globals) :
    Outcome (SqlBuf × Globals) := do
  let buf : SqlBuf := ⟨ascii "update " ++ name ++ ascii " set ", []⟩
  let (buf, g) ← writeColumns ctx false true s.valSchema.schemas buf g
  whereGen ctx s (buf.back.put (ascii " where ")) g

/-- The text of `select_gen` up to the key. -/
def selectHead (name : Bytes) (s : TableSchema) : SqlBuf :=
  let buf : SqlBuf := ⟨ascii "select ", []⟩
  let buf := buf.put (s.columns.flatMap fun data => data.name ++ ascii ",")
  buf.back.put (ascii " from " ++ name ++ ascii " where ")

/-- `select_gen`. -/
def selectGen (ctx : EngCtx) (name : Bytes) (s : TableSchema) (g : Globals) :
    Outcome (SqlBuf × Globals) :=
  whereGen ctx s (selectHead name s) g

/-- The type of a column in `create_gen` and `alter_add_gen`. -/
def columnType (data : TableData) : Bytes :=
  match data.type with
  | .bigint => ascii "bigint"
  | .varchar => ascii "varchar(" ++ decimalInt data.len.toInt ++ ascii ")"

/-- `create_gen`. -/
def createGen (name : Bytes) (s : TableSchema) : Bytes :=
  let text := ascii "create table " ++ name ++ ascii " ("
  let text := text ++ s.keySchema.schemas.flatMap fun data =>
    data.name ++ ascii " " ++ columnType data ++ ascii " primary key" ++ ascii ","
  let text := text ++ s.valSchema.schemas.flatMap fun data =>
    data.name ++ ascii " " ++ columnType data ++ ascii ","
  text.dropLast ++ ascii ")"

/-- `alter_add_gen`.  Without value columns it reads `table_datas[-1]`. -/
def alterAddGen (name : Bytes) (s : TableSchema) : Outcome Bytes :=
  match s.valSchema.schemas.getLast? with
  | none => .fault
  | some data =>
      .ret (ascii "alter table " ++ name ++ ascii " " ++ ascii "add " ++ data.name ++ ascii " " ++
        columnType data)

/-- `alter_drop_gen`. -/
def alterDropGen (name : Bytes) (s : TableSchema) : Bytes :=
  match s.valSchema.schemas.getLast? with
  | none => ascii "alter table " ++ name ++ ascii " "
  | some data => ascii "alter table " ++ name ++ ascii " " ++ ascii "DROP COLUMN " ++ data.name

/-- `drop_gen`. -/
def dropGen (name : Bytes) : Bytes := ascii "drop table " ++ name

/-- `sql_gen`, for a table `name` with the schema `s`.  `create_gen` takes the name and the
schema from other fields of the context. -/
def sqlGen (ctx : EngCtx) (name : Bytes) (s : TableSchema) (g : Globals) :
    CmdType → Outcome (SqlBuf × Globals)
  | .insert => insertGen ctx name s g
  | .delete => deleteGen ctx name s g
  | .update => updateGen ctx name s g
  | .select => selectGen ctx name s g
  | .create => .ret (⟨createGen name s, []⟩, g)
  | .alterAdd => do
      let text ← alterAddGen name s
      return (⟨text, []⟩, g)
  | .alterDrop => .ret (⟨alterDropGen name s, []⟩, g)
  | .drop => .ret (⟨dropGen name, []⟩, g)

end CheckQ
