import CheckQ.Engine.Stores
import CheckQ.Lib.Regex
import CheckQ.Parser.Verify

/-!
# The TXT parser of `parser/parser.c`

A file is the list of its lines, and every reader takes lines off it.  `regcomp` compiles all
patterns of the parser, with the classes `\w`, `\s` and `\S` of GNU; the pattern `);` has an
unmatched bracket, which stands for itself.

The loop that fills the array of commands is written for any arithmetic, as `verifyRate` is; the
rates of a file are doubles.  A variable that has not been set holds whatever was in its memory
before, and so do the cells of a new block: `Garbage` is what that is, and `none` stands for a
variable that has not been set.
-/

namespace CheckQ

open Regex

/-- What is in memory that has not been set. -/
structure Garbage where
  rows : Int
  cols : Int
  rate : ℕ → Double
  /-- The cells of `cmd_array`. -/
  cmdArray : ℕ → UInt32

/-- Memory full of zeros. -/
def Garbage.zeros : Garbage := ⟨0, 0, fun _ => 0, fun _ => 0⟩

/-- `CONFIG_MAX_LENGTH`. -/
def configMaxLength : ℕ := 10240

/-! ### Library functions -/

/-- `getline`: the next line as a C string, which ends at a NUL. -/
def getline : List Bytes → Option (Bytes × List Bytes)
  | [] => none
  | line :: file => some (line.takeWhile (· ≠ 0), file)

/-- The value of a hexadecimal digit. -/
def xdigit (c : UInt8) : Option ℕ :=
  if isDigit c then some (c.toNat - 48)
  else if 65 ≤ c.toNat ∧ c.toNat ≤ 70 then some (c.toNat - 55)
  else if 97 ≤ c.toNat ∧ c.toNat ≤ 102 then some (c.toNat - 87)
  else none

/-- The value of a decimal digit. -/
def ddigit (c : UInt8) : Option ℕ := if isDigit c then some (c.toNat - 48) else none

/-- Digits with at most one point among them: their value and the text behind them. -/
def scanMantissa (base : ℕ) (digit : UInt8 → Option ℕ) (s : Bytes) : Option (ℚ × Bytes) :=
  let isDig := fun c => (digit c).isSome
  let ds := s.takeWhile isDig
  let rest := s.dropWhile isDig
  let fs := if rest.head? = some 46 then rest.tail.takeWhile isDig else []
  let rest := if rest.head? = some 46 then rest.tail.dropWhile isDig else rest
  if ds ++ fs = [] then none
  else some ((((ds ++ fs).filterMap digit).foldl (fun v d => base * v + d) 0 : ℕ) /
    (base ^ fs.length : ℕ), rest)

/-- An exponent behind one of the letters `marks`; an incomplete one is not read. -/
def scanExponent (marks : Bytes) (s : Bytes) : Int :=
  match s with
  | [] => 0
  | c :: s =>
      if c ∉ marks then 0
      else
        let neg := s.head? = some 45
        let s := if s.head? = some 45 ∨ s.head? = some 43 then s.tail else s
        let v := digitsVal (s.takeWhile isDigit)
        if neg then -(v : Int) else v

/-- A hexadecimal number behind `0x`.  A point without digits is a zero. -/
def scanHex (s : Bytes) : Option ℚ :=
  match scanMantissa 16 xdigit s with
  | some (v, s) => some (v * 2 ^ scanExponent (ascii "pP") s)
  | none => if s.head? = some 46 then some 0 else none

/-- The conversion `%lf` of `sscanf`, to the double nearest to the number.  The texts it is used
for begin with a digit, a point or a backslash, so the forms `inf` and `nan` are left out. -/
def scanDouble (s : Bytes) : Option Double :=
  let s := s.dropWhile isSpace
  let neg := s.head? = some 45
  let s := if s.head? = some 45 ∨ s.head? = some 43 then s.tail else s
  let v :=
    if s.take 2 = ascii "0x" ∨ s.take 2 = ascii "0X" then scanHex (s.drop 2)
    else (scanMantissa 10 ddigit s).map fun (v, s) => v * 10 ^ scanExponent (ascii "eE") s
  v.map fun v => Double.ofRat (if neg then -v else v)

/-- The bytes of a bracket expression. -/
def oneOf (s : String) (c : UInt8) : Bool := decide (c ∈ ascii s)

/-- The substring of a subexpression. -/
def substring (s : Bytes) (m : ℕ × ℕ) : Bytes := (s.take m.2).drop m.1

/-- `match[i]` of a match. -/
def group (m : List (ℕ × ℕ)) (i : ℕ) : ℕ × ℕ := m.getD i (0, 0)

/-! ### Servers -/

/-- The blocks `ip` and `port_str` of `parser_read_txt_server`: how many bytes have been written to
each, from its beginning on. -/
structure TxtBlocks where
  ip : ℕ
  portStr : ℕ
deriving DecidableEq, Repr

/-- The sizes of the blocks. -/
def TxtBlocks.sizes : TxtBlocks := ⟨20, 7⟩

/-- The two calls of `memset` in front of the loop: the size they are given is that of a pointer.
The byte that is written behind the block of the port is in what `malloc` rounds it up to, and the
call goes on. -/
def TxtBlocks.memset : TxtBlocks := ⟨8, 8⟩

/-- The copy of an address and a port, with their terminators. -/
def TxtBlocks.copy (b : TxtBlocks) (ip portStr : Bytes) : TxtBlocks :=
  ⟨max b.ip (ip.length + 1), max b.portStr (portStr.length + 1)⟩

/-- What the loop of `parser_read_txt_server` makes of a line: the address, the port and the
type.  A line without `=` is skipped, and one without a keyword leaves `cur` null.  A copy that
does not fit its block is a fault. -/
def readServerLine (buf : Bytes) : Outcome (Option (Bytes × Int × ServerType)) := do
  let (cur, type) ←
    match strstr buf (ascii "write_servers"), strstr buf (ascii "read_servers") with
    | some cur, _ => Outcome.ret (cur, ServerType.write)
    | none, some cur => .ret (cur, ServerType.read)
    | none, none => .fault
  let cur := cur.dropWhile (· ≠ 61)
  if cur = [] then return none
  else
    let isIp := fun c => decide (c = 46) || isDigit c
    let cur := cur.dropWhile (! isDigit ·)
    let ip := cur.takeWhile isIp
    let cur := ((cur.dropWhile isIp).dropWhile (· ≠ 58)).tail
    -- the digit `9` is no part of a port
    let portStr := cur.takeWhile fun c => decide (48 ≤ c) && decide (c < 57)
    if ip.length + 1 > TxtBlocks.sizes.ip ∨ portStr.length + 1 > TxtBlocks.sizes.portStr then
      .fault
    else return some (ip, atoi portStr, type)

section

variable (probe : Bytes → UInt64 → UInt64) (fuel : ℕ)

/-- The loop of `parser_read_txt_server`, with the number of lines still to read. -/
def readServerLines : ℕ → List Bytes → CqServerCluster →
    Outcome (RetT × List Bytes × CqServerCluster)
  | 0, file, cluster => .ret (.succeed, file, cluster)
  | n + 1, file, cluster =>
      match getline file with
      | none => .ret (.failed, file, cluster)
      | some (buf, file) => do
          match ← readServerLine buf with
          | none => readServerLines n file cluster
          | some (ip, port, type) =>
              if verifyIp ip = .failed then return (.failed, file, cluster)
              else if verifyPort port = .failed then return (.failed, file, cluster)
              else
                let (ret, cluster) ← cqClusterAdd probe fuel cluster (serverInit ip port type)
                if ret = .failed then return (.failed, file, cluster)
                else readServerLines n file cluster

/-- `parser_read_txt_server`; the `memset` in front of the loop is `TxtBlocks.memset`. -/
def parserReadTxtServer (file : List Bytes) (cluster : CqServerCluster) :
    Outcome (RetT × List Bytes × CqServerCluster) :=
  readServerLines probe fuel 2 file cluster

end

/-! ### Tables -/

/-- `);` -/
def patternTableEnd : List (Item UInt8) := lit (ascii ");")

lemma patternTableEnd_isSome {line : Bytes} :
    (regexec patternTableEnd line).isSome ↔ ascii ");" <:+: line :=
  regexec_lit_isSome

/-- `(\w+)\s+bigint` -/
def patternBigint : List (Item UInt8) :=
  [.opening, .plus isWord, .closing, .plus isSpace] ++ lit (ascii "bigint")

/-- `(\w+)\s+varchar\(([0-9]+)\)` -/
def patternVarchar : List (Item UInt8) :=
  [.opening, .plus isWord, .closing, .plus isSpace] ++ lit (ascii "varchar(") ++
    [.opening, .plus isDigit, .closing] ++ lit (ascii ")")

/-- `\s*(\w+)\s+(\S+)\s+primary\s+key\s*[,\)]` -/
def patternKey : List (Item UInt8) :=
  [.star isSpace, .opening, .plus isWord, .closing, .plus isSpace, .opening,
    .plus (! isSpace ·), .closing, .plus isSpace] ++ lit (ascii "primary") ++ [.plus isSpace] ++
    lit (ascii "key") ++ [.star isSpace, .one (oneOf ",\\)")]

/-- `\s*(\w+)\s+([a-zA-Z0-9_()]+)\s*[,\)]` -/
def patternVal : List (Item UInt8) :=
  [.star isSpace, .opening, .plus isWord, .closing, .plus isSpace, .opening,
    .plus (fun c => isWord c || oneOf "()" c), .closing, .star isSpace, .one (oneOf ",\\)")]

/-- `create\s+table\s+(\w+)\s*\((.+)\);` -/
def patternTableName : List (Item UInt8) :=
  lit (ascii "create") ++ [.plus isSpace] ++ lit (ascii "table") ++
    [.plus isSpace, .opening, .plus isWord, .closing, .star isSpace] ++ lit (ascii "(") ++
    [.opening, .plus fun _ => true, .closing] ++ lit (ascii ");")

/-- The loop of `parser_read_a_table`: `text` has been read into a block of `strSize` bytes.  The
result is `none` for `RET_FAILED`. -/
def readATable : List Bytes → Bytes → ℕ → Outcome (Option Bytes × List Bytes)
  | [], text, _ => .ret (some text, [])
  | line :: file, text, strSize =>
      let buf := line.takeWhile (· ≠ 0)
      -- `strcpy` writes the line and a terminator
      if text.length + buf.length + 1 > strSize then .fault
      else
        let text := text ++ buf
        let full := text.length + configMaxLength ≥ strSize
        let strSize := if full then strSize * 2 else strSize
        if full ∧ strSize > 1024 * configMaxLength then .ret (none, file)
        else if (regexec patternTableEnd buf).isSome then .ret (some text, file)
        else readATable file text strSize

/-- `parser_read_a_table`. -/
def parserReadATable (file : List Bytes) : Outcome (Option Bytes × List Bytes) :=
  readATable file [] (8 * configMaxLength)

/-- `parser_read_txt_table_data`.  The array that `regexec` fills has room for the match and one
subexpression, and the length of a `varchar` is read from the cell behind it. -/
def parserReadTxtTableData (schema : Schema) (text : Bytes) (so : ℕ) : Outcome (RetT × Schema) :=
  let cur := text.drop so
  match regexec patternBigint cur with
  | some m => schemaAdd schema (tableDataInit (substring cur (group m 1)) .bigint 0)
  | none =>
      match regexec patternVarchar cur with
      | some _ => .fault
      | none => .ret (.failed, schema)

/-- The loop of `parser_read_txt_table_schema` over the matches of a pattern.  The result of
`parser_read_txt_table_data` is not looked at, and the offset of a match in `cur` is used as one
in `text + so`. -/
def readTxtColumns (items : List (Item UInt8)) (text : Bytes) (so : ℕ) :
    ℕ → Bytes → Schema → Outcome Schema
  | 0, _, _ => .spin
  | fuel + 1, cur, schema =>
      match regexec items cur with
      | none => .ret schema
      | some m => do
          let (_, schema) ← parserReadTxtTableData schema text (so + (group m 0).1)
          readTxtColumns items text so fuel (cur.drop (group m 0).2) schema

/-- `parser_read_txt_table_schema`.  A match takes at least one byte, so there are not more
matches than bytes. -/
def parserReadTxtTableSchema (text : Bytes) (so : ℕ) : Outcome TableSchema := do
  let cur := text.drop so
  let keySchema ← readTxtColumns patternKey text so (cur.length + 1) cur schemaInit
  let valSchema ← readTxtColumns patternVal text so (cur.length + 1) cur schemaInit
  return tableSchemaInit keySchema valSchema

/-- `parser_read_txt_table`.  When the text is too long, `error` frees a pattern that has not been
compiled yet. -/
def parserReadTxtTable (probe : Bytes → UInt64 → UInt64) (fuel : ℕ) (file : List Bytes)
    (heap : List TableSchema) (tableSet : HashT TableT) :
    Outcome (RetT × List Bytes × List TableSchema × HashT TableT) := do
  match ← parserReadATable file with
  | (none, _) => .fault
  | (some text, file) =>
      match regexec patternTableName text with
      | none => return (.succeed, file, heap, tableSet)
      | some m =>
          let schema ← parserReadTxtTableSchema text (group m 1).1
          let table := tableInit (substring text (group m 1)) heap.length
          let (ret, tableSet) ← tableSetAdd probe fuel tableSet table
          return (ret, file, heap ++ [schema], tableSet)

/-! ### Rates and window -/

/-- `(\w+)\s*=\s*([0-9\.]+)\s*` -/
def patternRate : List (Item UInt8) :=
  [.opening, .plus isWord, .closing, .star isSpace] ++ lit (ascii "=") ++
    [.star isSpace, .opening, .plus (fun c => isDigit c || oneOf "\\." c), .closing, .star isSpace]

/-- `(\w+)\s*=\s*([0-9]+)\s*` -/
def patternWindow : List (Item UInt8) :=
  [.opening, .plus isWord, .closing, .star isSpace] ++ lit (ascii "=") ++
    [.star isSpace, .opening, .plus isDigit, .closing, .star isSpace]

/-- The local variables of `parser_read_txt`. -/
structure TxtLocals where
  rows : Option Int
  cols : Option Int
  rate : List (Option Double)
deriving DecidableEq, Repr

/-- The local variables at the start. -/
def TxtLocals.unset : TxtLocals := ⟨none, none, List.replicate 4 none⟩

namespace TxtLocals

variable (v : TxtLocals) (g : Garbage)

/-- What is in `rows`. -/
def rowsVal : Int := v.rows.getD g.rows

/-- What is in `cols`. -/
def colsVal : Int := v.cols.getD g.cols

/-- What is in `rate`. -/
def rateVal : List Double := v.rate.mapIdx fun i r => r.getD (g.rate i)

end TxtLocals

/-- The rate that the first letter of a name stands for. -/
def rateIndex (c : UInt8) : Option ℕ :=
  if c = 105 then some 0 else if c = 100 then some 1 else if c = 117 then some 2
  else if c = 115 then some 3 else none

/-- The loop of `parser_read_txt_cmd_rate`, with the number of lines still to read. -/
def readRates : ℕ → List Bytes → TxtLocals → RetT × List Bytes × TxtLocals
  | 0, file, v => (.succeed, file, v)
  | n + 1, file, v =>
      match getline file with
      | none => (.failed, file, v)
      | some (buf, file) =>
          match regexec patternRate buf with
          | none => readRates n file v
          | some m =>
              match rateIndex ((buf.drop (group m 1).1).headD 0) with
              | none => (.failed, file, v)
              | some i =>
                  match scanDouble (buf.drop (group m 2).1) with
                  | none => readRates n file v
                  | some x => readRates n file { v with rate := v.rate.set i (some x) }

/-- `parser_read_txt_cmd_rate`. -/
def parserReadTxtCmdRate (g : Garbage) (file : List Bytes) (v : TxtLocals) :
    RetT × List Bytes × TxtLocals :=
  match readRates 4 file v with
  | (.failed, file, v) => (.failed, file, v)
  | (.succeed, file, v) => (verifyRate (v.rateVal g), file, v)

/-- `sscanf(.., "%d", ..)` into a variable that may keep its value. -/
def scanInto (s : Bytes) (old : Option Int) : Option Int :=
  match scanInt s with
  | none => old
  | some (x, _) => some x

/-- The loop of `parser_read_txt_cmd_window`, with the number of lines still to read. -/
def readWindow : ℕ → List Bytes → TxtLocals → RetT × List Bytes × TxtLocals
  | 0, file, v => (.succeed, file, v)
  | n + 1, file, v =>
      match getline file with
      | none => (.failed, file, v)
      | some (buf, file) =>
          match regexec patternWindow buf with
          | none => readWindow n file v
          | some m =>
              let key := buf.drop (group m 1).1
              let value := buf.drop (group m 2).1
              if (strstr key (ascii "cmd_rows")).isSome then
                readWindow n file { v with rows := scanInto value v.rows }
              else if (strstr key (ascii "cmd_cols")).isSome then
                readWindow n file { v with cols := scanInto value v.cols }
              else (.failed, file, v)

/-- `parser_read_txt_cmd_window`. -/
def parserReadTxtCmdWindow (g : Garbage) (file : List Bytes) (v : TxtLocals) :
    RetT × List Bytes × TxtLocals :=
  match readWindow 2 file v with
  | (.failed, file, v) => (.failed, file, v)
  | (.succeed, file, v) => (verifyWindow (v.rowsVal g) (v.colsVal g), file, v)

/-! ### Generating the command lists -/

/-- `cmd_array[a] ^= cmd_array[b]`. -/
def xorAssign (cmdArray : List UInt32) (a b : ℕ) : Outcome (List UInt32) :=
  match cmdArray[a]?, cmdArray[b]? with
  | some x, some y => .ret (cmdArray.set a (x ^^^ y))
  | _, _ => .fault

/-- The three assignments that swap `cmd_array[a]` and `cmd_array[b]`. -/
def xorSwap (cmdArray : List UInt32) (a b : ℕ) : Outcome (List UInt32) := do
  let cmdArray ← xorAssign cmdArray a b
  let cmdArray ← xorAssign cmdArray b a
  xorAssign cmdArray a b

/-- The loop of `parser_shuffle_cmds`; `modulus` is the absolute value of `size - 1`. -/
def shuffleLoop (modulus : ℕ) : ℕ → List UInt32 → RandStream → Outcome (List UInt32 × RandStream)
  | 0, cmdArray, r => .ret (cmdArray, r)
  | n + 1, cmdArray, r =>
      if modulus = 0 then .fault
      else do
        let (x, r) := r.next
        let (y, r) := r.next
        let a := x % modulus
        let b := y % modulus
        if a = b then shuffleLoop modulus n cmdArray r
        else
          let cmdArray ← xorSwap cmdArray a b
          shuffleLoop modulus n cmdArray r

/-- `parser_shuffle_cmds`.  It seeds `rand()` anew, so that the stream may be any. -/
def parserShuffleCmds (cmdArray : List UInt32) (size : ℕ) (r : RandStream) :
    Outcome (List UInt32 × RandStream) :=
  shuffleLoop ((size : Int) - 1).natAbs 200 cmdArray r

/-- The conversion of a double to an `int`. -/
def truncInt {α : Type} [HasTrunc α] (x : α) : Outcome Int :=
  match HasTrunc.trunc x with
  | some v => if -2 ^ 31 ≤ v ∧ v < 2 ^ 31 then .ret v else .fault
  | none => .fault

/-- The loop `while ((double) cur_cmd_num / (double) cols < cur_rate)`, with the number of rounds
after which `cur_cmd_num` is no `int` any more.  Without columns the quotient is no number or
infinite, and the comparison fails. -/
def fillWhile {α : Type} [Div α] [NatCast α] [LT α] [DecidableLT α] (cols : ℕ) (curRate : α)
    (cmd : UInt32) : ℕ → List UInt32 → Outcome (List UInt32)
  | 0, _ => .fault
  | rounds + 1, written =>
      if cols ≠ 0 ∧ (written.length : α) / (cols : α) < curRate then
        fillWhile cols curRate cmd rounds (written ++ [cmd])
      else .ret written

/-- The loop of `parser_gen_cmd_bucket` over the four commands: what is written to `cmd_array`,
from its first cell on. -/
def fillCmdArray {α : Type} [Add α] [Mul α] [Div α] [NatCast α] [LT α] [DecidableLT α]
    [HasTrunc α] (cols : ℕ) : List (UInt32 × α) → α → List UInt32 → Outcome (List UInt32)
  | [], _, written => .ret written
  | (cmd, rate) :: rates, curRate, written => do
      let tmp ← truncInt (rate * (cols : α))
      let written := written ++ List.replicate tmp.toNat cmd
      let curRate := curRate + rate
      let written ← fillWhile cols curRate cmd (2 ^ 31 - written.length) written
      fillCmdArray cols rates curRate written

/-- `cmd_pattern`. -/
def cmdPattern : List UInt32 := [.insert, .delete, .update, .select].map CmdType.code

/-- The loop that makes a command list of the commands of the array. -/
def addCmds : List UInt32 → CmdList → Outcome CmdList
  | [], l => .ret l
  | cmd :: cmds, l => do
      let (_, l) ← cmdListAdd l (cmdInit cmd)
      addCmds cmds l

/-- The loop of `parser_gen_cmd_bucket` over the rows. -/
def genRows (cols : ℕ) : ℕ → List UInt32 → VectorT CmdList → RandStream →
    Outcome (VectorT CmdList)
  | 0, _, bucket, _ => .ret bucket
  | n + 1, cmdArray, bucket, r => do
      let (cmdArray, r) ← parserShuffleCmds cmdArray cols r
      let l ← addCmds cmdArray cmdListInit
      let (_, bucket) ← cmdBucketAdd bucket l
      genRows cols n cmdArray bucket r

/-- `parser_gen_cmd_bucket`.  A negative number of columns is a size that `my_malloc` cannot
serve; a write behind the last column is outside the block. -/
def parserGenCmdBucket (g : Garbage) (rows cols : Int) (rate : List Double) (bucket : VectorT CmdList)
    (r : RandStream) : Outcome (RetT × VectorT CmdList) :=
  if cols < 0 then .abort
  else do
    let written ← fillCmdArray cols.toNat (cmdPattern.zip rate) 0 []
    if written.length > cols.toNat then .fault
    else
      let unset := (List.range (cols.toNat - written.length)).map
        fun i => g.cmdArray (written.length + i)
      let bucket ← genRows cols.toNat rows.toNat (written ++ unset) bucket r
      return (.succeed, bucket)

/-! ### The whole file -/

variable (probe : Bytes → UInt64 → UInt64) (fuel : ℕ)

/-- The loop of `parser_read_txt` over the lines; every round takes at least one of them. -/
def readSections (g : Garbage) : ℕ → List Bytes → Stores → TxtLocals →
    Outcome (RetT × Stores × TxtLocals)
  | 0, _, _, _ => .spin
  | n + 1, file, stores, v =>
      match getline file with
      | none => .ret (.succeed, stores, v)
      | some (buf, file) =>
          if (strstr buf (ascii "[server]")).isSome then do
            let (ret, file, clusterBase) ← parserReadTxtServer probe fuel file stores.clusterBase
            let stores := { stores with clusterBase }
            if ret = .failed then return (.failed, stores, v)
            else readSections g n file stores v
          else if (strstr buf (ascii "[table]")).isSome then do
            let (ret, file, schemaHeap, tableSet) ←
              parserReadTxtTable probe fuel file stores.schemaHeap stores.tableSet
            let stores := { stores with schemaHeap, tableSet }
            if ret = .failed then return (.failed, stores, v)
            else readSections g n file stores v
          else if (strstr buf (ascii "[cmd_rate]")).isSome then
            match parserReadTxtCmdRate g file v with
            | (.failed, _, v) => .ret (.failed, stores, v)
            | (.succeed, file, v) => readSections g n file stores v
          else if (strstr buf (ascii "[cmd_window]")).isSome then
            match parserReadTxtCmdWindow g file v with
            | (.failed, _, v) => .ret (.failed, stores, v)
            | (.succeed, file, v) => readSections g n file stores v
          else readSections g n file stores v

/-- `parser_read_txt`.  A file that cannot be opened is closed all the same. -/
def parserReadTxt (g : Garbage) (r : RandStream) (file : Option (List Bytes)) (stores : Stores) :
    Outcome (RetT × Stores) :=
  match file with
  | none => .fault
  | some file => do
      let (ret, stores, v) ← readSections probe fuel g (file.length + 1) file stores .unset
      if ret = .failed then return (.failed, stores)
      else
        let (ret, cmdBucket) ←
          parserGenCmdBucket g (v.rowsVal g) (v.colsVal g) (v.rateVal g) stores.cmdBucket r
        return (ret, { stores with cmdBucket })

end CheckQ
