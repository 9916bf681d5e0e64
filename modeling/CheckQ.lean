import CheckQ.Lib.Outcome
import CheckQ.Lib.Refinement
import CheckQ.Lib.Probing
import CheckQ.Lib.RingBuffer
import CheckQ.Lib.ArrayStack
import CheckQ.Lib.SharedStack
import CheckQ.Lib.Linked
import CheckQ.Lib.Regex
import CheckQ.Lib.Apportion
import CheckQ.Lib.Rounding
import CheckQ.Lib.Double
import CheckQ.Lib.Rounds
import CheckQ.Lib.Progress
import CheckQ.Lib.Locked
import CheckQ.Lib.CString
import CheckQ.Lib.Parsing
import CheckQ.Lib.RowSet
import CheckQ.Mylib.Clib
import CheckQ.Mylib.Hash
import CheckQ.Mylib.HashMap
import CheckQ.Mylib.HashEnds
import CheckQ.Mylib.HashLoad
import CheckQ.Mylib.HashThreads
import CheckQ.Mylib.HashOwns
import CheckQ.Mylib.HashSize
import CheckQ.Mylib.HashFunc
import CheckQ.Mylib.Vector
import CheckQ.Mylib.VectorDeque
import CheckQ.Mylib.VectorFrees
import CheckQ.Mylib.RandomPick
import CheckQ.Mylib.Frandom
import CheckQ.Table.Table
import CheckQ.Table.SchemaArray
import CheckQ.Table.TableSet
import CheckQ.Command.CmdList
import CheckQ.Command.CmdLinks
import CheckQ.Server.Cluster
import CheckQ.Mysql.SqlGen
import CheckQ.Mysql.SqlKeys
import CheckQ.Mysql.SqlLexer
import CheckQ.Mysql.SqlColumns
import CheckQ.Mysql.CompositeKey
import CheckQ.Mysql.SqlForms
import CheckQ.Mysql.SqlParse
import CheckQ.Mysql.Select
import CheckQ.Mysql.Alter
import CheckQ.Mysql.AlterRuns
import CheckQ.Mysql.SqlServer
import CheckQ.Mysql.RowServer
import CheckQ.Parser.Verify
import CheckQ.Parser.Address
import CheckQ.Parser.Xml
import CheckQ.Parser.XmlTable
import CheckQ.Parser.XmlNulls
import CheckQ.Parser.RoundTrip
import CheckQ.Parser.Txt
import CheckQ.Parser.TableText
import CheckQ.Parser.TxtServer
import CheckQ.Parser.TxtScan
import CheckQ.Parser.TxtSections
import CheckQ.Parser.TxtValues
import CheckQ.Parser.TxtPatterns
import CheckQ.Parser.TxtTable
import CheckQ.Parser.TxtReadBack
import CheckQ.Parser.CmdFill
import CheckQ.Parser.CmdShuffle
import CheckQ.Parser.RowEnds
import CheckQ.Engine.Stores
import CheckQ.Engine.Stats
import CheckQ.Engine.Sleep
import CheckQ.Engine.Lifecycle
import CheckQ.Engine.NullFields
import CheckQ.Engine.Replicas
import CheckQ.Engine.FalseAlarm
import CheckQ.Engine.Isolation
import CheckQ.Engine.SchemaSync
import CheckQ.Engine.FirstTable
import CheckQ.Engine.SchemaStack
import CheckQ.Engine.SqlBuffer
import CheckQ.Engine.ColumnRace
import CheckQ.Engine.ColumnSnapshot
import CheckQ.Engine.Startup
