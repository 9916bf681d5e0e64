import CheckQ.Mylib.HashFunc
import CheckQ.Mylib.HashSize
import CheckQ.Parser.Xml

/-!
# XML configurations are read back

A configuration is a value: servers, tables and command lists.  It is written as the tree of
elements of `config.xml.example`, with the three sections in any order, and `parser_read_xml`
leaves exactly its servers, its schemas and its command lists in the stores.  For this the searches
in the hash tables of the servers have to end, and the sizes that are doubled have to stay ints:
there are configurations with so many servers that the process is stopped.
-/

namespace CheckQ

/-! ### Configurations -/

/-- A server with the address `a.b.c.d`. -/
structure ServerConfig where
  type : ServerType
  a : Fin 256
  b : Fin 256
  c : Fin 256
  d : Fin 256
  port : Fin 65536
deriving DecidableEq, Repr

/-- The type of a column as it is written. -/
inductive ColumnTypeConfig where
  | bigint
  | varchar (len : Int32)
deriving DecidableEq, Repr

/-- A column; the name of its element says whether it belongs to the key. -/
structure ColumnConfig where
  tag : Bytes
  name : Bytes
  type : ColumnTypeConfig
deriving DecidableEq, Repr

/-- The columns of the key have the element `key`. -/
def ColumnConfig.isKey (c : ColumnConfig) : Bool := c.tag = ascii "key"

/-- A table, with room for its columns in a schema. -/
structure TableConfig where
  columns : List ColumnConfig
  keys_le : (columns.filter ColumnConfig.isKey).length ≤ 100
  vals_le : (columns.filter fun c => !c.isKey).length ≤ 100

/-- A command of a command list. -/
inductive DmlType where
  | insert
  | delete
  | update
  | select
deriving DecidableEq, Repr

/-- A configuration; no server is in it twice. -/
structure Configuration where
  servers : List ServerConfig
  servers_nodup : servers.Nodup
  tables : List TableConfig
  cmds : List (List DmlType)

/-! ### The element tree of a configuration -/

/-- The address as it is written. -/
def ServerConfig.ip (s : ServerConfig) : Bytes := dottedQuad s.a s.b s.c s.d

/-- The element of a server. -/
def ServerConfig.node (s : ServerConfig) : XmlNode :=
  .mk (match s.type with | .write => ascii "write" | .read => ascii "read")
    [(ascii "ip", s.ip), (ascii "port", decimal s.port)] []

/-- The element of a column. -/
def ColumnConfig.node (c : ColumnConfig) : XmlNode :=
  match c.type with
  | .bigint => .mk c.tag [(ascii "name", c.name), (ascii "type", ascii "bigint")] []
  | .varchar len => .mk c.tag [(ascii "name", c.name), (ascii "type", ascii "varchar"),
      (ascii "length", decimalInt len.toInt)] []

/-- The element of a table. -/
def TableConfig.node (t : TableConfig) : XmlNode :=
  .mk (ascii "table") [] (t.columns.map ColumnConfig.node)

/-- The element of a command. -/
def DmlType.node : DmlType → XmlNode
  | .insert => .mk (ascii "insert") [] []
  | .delete => .mk (ascii "delete") [] []
  | .update => .mk (ascii "update") [] []
  | .select => .mk (ascii "select") [] []

/-- The element of a command list. -/
def cmdNode (cmds : List DmlType) : XmlNode := .mk (ascii "cmd") [] (cmds.map DmlType.node)

namespace Configuration

/-- The section of the servers. -/
def serversNode (cfg : Configuration) : XmlNode :=
  .mk (ascii "servers") [] (cfg.servers.map ServerConfig.node)

/-- The section of the tables. -/
def tablesNode (cfg : Configuration) : XmlNode :=
  .mk (ascii "tables") [] (cfg.tables.map TableConfig.node)

/-- The section of the command lists. -/
def cmdsNode (cfg : Configuration) : XmlNode :=
  .mk (ascii "cmds") [] (cfg.cmds.map cmdNode)

/-- A root with the three sections of the configuration, in any order, and nothing else. -/
def IsTree (cfg : Configuration) (root : XmlNode) : Prop :=
  root.children.Perm [cfg.serversNode, cfg.tablesNode, cfg.cmdsNode]

end Configuration

/-! ### What the stores hold -/

/-- The server in the cluster. -/
def ServerConfig.server (s : ServerConfig) : CqServer where
  ip := s.ip
  port := (s.port : ℕ)
  name := serverName s.ip (s.port : ℕ)
  type := s.type

/-- The column in a schema. -/
def ColumnConfig.data (c : ColumnConfig) : TableData :=
  match c.type with
  | .bigint => ⟨c.name, .bigint, 0⟩
  | .varchar len => ⟨c.name, .varchar, len⟩

/-- The schema of a table: the columns of the key and the others, each in order. -/
def TableConfig.schema (t : TableConfig) : TableSchema where
  keySchema := ⟨(t.columns.filter ColumnConfig.isKey).map ColumnConfig.data, 100⟩
  valSchema := ⟨(t.columns.filter fun c => !c.isKey).map ColumnConfig.data, 100⟩

/-- The command in the nodes of a command list. -/
def DmlType.cmdType : DmlType → CmdType
  | .insert => .insert
  | .delete => .delete
  | .update => .update
  | .select => .select

/-- The servers of one type. -/
def Configuration.serversOf (cfg : Configuration) (type : ServerType) : List CqServer :=
  (cfg.servers.filter (·.type = type)).map ServerConfig.server

/-- The stores hold the configuration and nothing else, as the program itself reads them. -/
structure Stores.Hold (cfg : Configuration) (s : Stores) : Prop where
  write : ∃ l h, hashGetEntries s.clusterBase.writeServers = .ret ((l, l.length), h) ∧
    l.Perm (cfg.serversOf .write)
  read : ∃ l h, hashGetEntries s.clusterBase.readServers = .ret ((l, l.length), h) ∧
    l.Perm (cfg.serversOf .read)
  schemas_size : vectorSize s.schemaSet = cfg.tables.length
  schemas : ∀ i t, cfg.tables[i]? = some t →
    ∃ p, vectorGet s.schemaSet i = .ret (.entry p) ∧ s.schemaHeap[p]? = some t.schema
  cmds_size : vectorSize s.cmdBucket = cfg.cmds.length
  cmds : ∀ i cs, cfg.cmds[i]? = some cs → ∃ l, vectorGet s.cmdBucket i = .ret (.entry l) ∧
    travelCommandList l = .ret (cs.map fun c => some c.cmdType.code)

/-! ### Names of servers -/

lemma decimal_append_inj {n m : ℕ} {x y : Bytes} (hx : ∀ c ∈ x.head?, isDigit c = false)
    (hy : ∀ c ∈ y.head?, isDigit c = false) (h : decimal n ++ x = decimal m ++ y) :
    n = m ∧ x = y := by
  obtain ⟨hn, hnv⟩ := decimal_spec n
  obtain ⟨hm, hmv⟩ := decimal_spec m
  obtain ⟨htn, hdn⟩ := takeWhile_isDigit hn hx
  obtain ⟨htm, hdm⟩ := takeWhile_isDigit hm hy
  refine ⟨?_, ?_⟩
  · rw [← hnv, ← hmv, ← htn, ← htm, h]
  · rw [← hdn, ← hdm, h]

/-- The name determines the address and the port. -/
lemma serverName_inj {s t : ServerConfig} (htype : s.type = t.type)
    (h : s.server.name = t.server.name) : s = t := by
  have hdot : ∀ x : Bytes, ∀ c ∈ (ascii "." ++ x).head?, isDigit c = false := by
    intro x c hc
    obtain rfl : c = 46 := by simpa [ascii] using hc.symm
    decide
  have hcolon : ∀ x : Bytes, ∀ c ∈ (ascii ":" ++ x).head?, isDigit c = false := by
    intro x c hc
    obtain rfl : c = 58 := by simpa [ascii] using hc.symm
    decide
  simp only [ServerConfig.server, serverName, ServerConfig.ip, dottedQuad, List.append_assoc] at h
  obtain ⟨ha, h⟩ := decimal_append_inj (hdot _) (hdot _) h
  obtain ⟨hb, h⟩ := decimal_append_inj (hdot _) (hdot _) (List.append_cancel_left h)
  obtain ⟨hc, h⟩ := decimal_append_inj (hdot _) (hdot _) (List.append_cancel_left h)
  obtain ⟨hd, h⟩ := decimal_append_inj (hcolon _) (hcolon _) (List.append_cancel_left h)
  have hport : decimal s.port ++ [] = decimal t.port ++ [] := by
    simpa [decimalInt] using List.append_cancel_left h
  obtain ⟨hp, -⟩ := decimal_append_inj (by simp) (by simp) hport
  obtain ⟨st, sa, sb, sc, sd, sp⟩ := s
  obtain ⟨tt, ta, tb, tc, td, tp⟩ := t
  simp only [ServerConfig.mk.injEq, Fin.ext_iff]
  exact ⟨htype, ha, hb, hc, hd, hp⟩

lemma ofType_servers (type : ServerType) (servers : List ServerConfig) :
    ofType type (servers.map ServerConfig.server)
      = (servers.filter (·.type = type)).map ServerConfig.server := by
  rw [ofType, List.filter_map]
  rfl

lemma Configuration.nodup_names (cfg : Configuration) (type : ServerType) :
    ((ofType type (cfg.servers.map ServerConfig.server)).map CqServer.name).Nodup := by
  rw [ofType_servers, List.map_map]
  refine List.Nodup.map_on ?_ (cfg.servers_nodup.filter _)
  intro s hs t ht heq
  refine serverName_inj ?_ heq
  rw [of_decide_eq_true (List.mem_filter.1 hs).2, of_decide_eq_true (List.mem_filter.1 ht).2]

/-! ### Elements are read as what they were written for -/

lemma serverInit_server (s : ServerConfig) :
    serverInit s.ip (s.port : ℕ) s.type = some s.server := by
  have hip : s.ip.length ≤ 15 :=
    length_dottedQuad_le (by omega) (by omega) (by omega) (by omega)
  have hport : (decimal s.port).length ≤ 5 := length_decimal_le (by omega) (by omega)
  have hname : (serverName s.ip (s.port : ℕ)).length ≤ maxServerNameLen := by
    have hcolon : (ascii ":").length = 1 := rfl
    show (s.ip ++ ascii ":" ++ decimal s.port).length ≤ 21
    rw [List.length_append, List.length_append, hcolon]
    omega
  simp only [serverInit, gt_iff_lt, if_neg (Nat.not_lt_of_le hname)]
  rfl

lemma readsServer_node (s : ServerConfig) : ReadsServer s.node s.server := by
  have hne : ascii "ip" ≠ ascii "port" := by decide
  have hip : s.node.getProp (ascii "ip") = some s.ip := by
    simp [ServerConfig.node, XmlNode.getProp, XmlNode.props]
  have hport : s.node.getProp (ascii "port") = some (decimal s.port) := by
    simp [ServerConfig.node, XmlNode.getProp, XmlNode.props, hne]
  have hatoi : atoi (decimal s.port) = ((s.port : ℕ) : Int) :=
    atoi_decimalInt (v := ((s.port : ℕ) : Int)) (by omega) (by omega)
  have hverify : verifyIp s.ip = .succeed :=
    verifyIp_dottedQuad (by omega) (by omega) (by omega) (by omega)
  have hvport : verifyPort ((s.port : ℕ) : Int) = .succeed := by
    rw [verifyPort, if_pos (by omega)]
  refine ⟨s.type, ?_, ?_⟩
  · rw [ServerConfig.node, XmlNode.name]
    cases s.type with
    | write => rfl
    | read => rfl
  · simp only [readServerNode, hip, hport, hatoi, hverify, hvport, Option.bind_eq_bind,
      Option.bind_some, reduceCtorEq, if_false, serverInit_server]

/-- The element of a column adds the column. -/
lemma parserReadTableData_node (c : ColumnConfig) (schema : Schema) :
    parserReadTableData c.node schema = schemaAdd schema c.data := by
  have hnt : ascii "name" ≠ ascii "type" := by decide
  have hnl : ascii "name" ≠ ascii "length" := by decide
  have htl : ascii "type" ≠ ascii "length" := by decide
  have hbv : ascii "bigint" ≠ ascii "varchar" := by decide
  cases htype : c.type with
  | bigint =>
      simp [parserReadTableData, ColumnConfig.node, ColumnConfig.data, htype, XmlNode.getProp,
        XmlNode.props, hnt, verifyString, hbv, tableDataInit]
  | varchar len =>
      have hatoi : Int32.ofInt (atoi (decimalInt len.toInt)) = len := by
        rw [atoi_decimalInt len.le_toInt len.toInt_lt, Int32.ofInt_toInt]
      simp [parserReadTableData, ColumnConfig.node, ColumnConfig.data, htype, XmlNode.getProp,
        XmlNode.props, hnt, hnl, htl, verifyString, tableDataInit, hatoi]

/-- The elements of columns are added in order, as long as there is room for them. -/
lemma readColumns_nodes (cols : List ColumnConfig) (keys vals : List TableData)
    (hk : keys.length + (cols.filter ColumnConfig.isKey).length ≤ 100)
    (hv : vals.length + (cols.filter fun c => !c.isKey).length ≤ 100) :
    readColumns (cols.map ColumnConfig.node) ⟨⟨keys, 100⟩, ⟨vals, 100⟩⟩ = .ret (some
      ⟨⟨keys ++ (cols.filter ColumnConfig.isKey).map ColumnConfig.data, 100⟩,
        ⟨vals ++ (cols.filter fun c => !c.isKey).map ColumnConfig.data, 100⟩⟩) := by
  induction cols generalizing keys vals with
  | nil => simp [readColumns]
  | cons c cols ih =>
      have hname : c.node.name = c.tag := by
        rw [ColumnConfig.node]
        cases c.type with
        | bigint => rfl
        | varchar len => rfl
      rw [List.map_cons, readColumns, hname, parserReadTableData_node, parserReadTableData_node]
      by_cases hkey : c.tag = ascii "key"
      · have hpos : c.isKey = true := by simp [ColumnConfig.isKey, hkey]
        simp only [List.filter_cons, hpos, Bool.not_true, Bool.false_eq_true, if_true, if_false,
          List.length_cons, List.map_cons] at hk hv ⊢
        rw [if_pos hkey, schemaAdd_eq (by omega), Outcome.ret_bind]
        simp only [reduceCtorEq, if_false]
        rw [ih _ _ (by simp; omega) hv, List.append_assoc]
        rfl
      · have hneg : c.isKey = false := by simp [ColumnConfig.isKey, hkey]
        simp only [List.filter_cons, hneg, Bool.not_false, Bool.false_eq_true, if_true, if_false,
          List.length_cons, List.map_cons] at hk hv ⊢
        rw [if_neg hkey, schemaAdd_eq (by omega), Outcome.ret_bind]
        simp only [reduceCtorEq, if_false]
        rw [ih _ _ hk (by simp; omega), List.append_assoc]
        rfl

lemma readsTable_node (t : TableConfig) : ReadsTable t.node t.schema := by
  have h := readColumns_nodes t.columns [] [] (by simpa using t.keys_le) (by simpa using t.vals_le)
  simpa [ReadsTable, parserReadTableSchema, TableConfig.node, XmlNode.children, tableSchemaInit,
    schemaInit, TableConfig.schema] using h

lemma readsCmd_node (cs : List DmlType) : ReadsCmd (cmdNode cs) (cs.map DmlType.cmdType) := by
  rw [ReadsCmd, cmdNode, XmlNode.children, List.forall₂_map_left_iff, List.forall₂_map_right_iff,
    List.forall₂_same]
  intro c _
  cases c with
  | insert => rfl
  | delete => rfl
  | update => rfl
  | select => rfl

/-! ### The whole document -/

/-- The section of a name is found where it is the only node of that name. -/
lemma findSection_eq {nodes : List XmlNode} {node : XmlNode} (hmem : node ∈ nodes)
    (huniq : ∀ n ∈ nodes, n.name = node.name → n = node) :
    findSection node.name nodes = .ret (some node) := by
  rw [findSection_find? (List.ne_nil_of_mem hmem)]
  cases hfind : nodes.find? (·.name = node.name) with
  | none =>
      have hnone := List.find?_eq_none.1 hfind node hmem
      simp at hnone
  | some n =>
      have hname : n.name = node.name := by simpa using List.find?_some hfind
      rw [huniq n (List.mem_of_find?_eq_some hfind) hname]

lemma nodesNamed_eq_self {name : Bytes} {nodes : List XmlNode} (h : ∀ n ∈ nodes, n.name = name) :
    nodesNamed name nodes = nodes :=
  List.filter_eq_self.2 fun n hn => by simp [h n hn]

/-- The element tree of a configuration is read as the configuration. -/
lemma Configuration.IsTree.reads {cfg : Configuration} {root : XmlNode} (h : cfg.IsTree root) :
    ReadsXml root (cfg.servers.map ServerConfig.server) (cfg.cmds.map (·.map DmlType.cmdType))
      (cfg.tables.map TableConfig.schema) := by
  have hst : ascii "servers" ≠ ascii "tables" := by decide
  have hsc : ascii "servers" ≠ ascii "cmds" := by decide
  have htc : ascii "tables" ≠ ascii "cmds" := by decide
  have hfind : ∀ node ∈ [cfg.serversNode, cfg.tablesNode, cfg.cmdsNode],
      findSection node.name root.children = .ret (some node) := by
    intro node hnode
    refine findSection_eq (h.mem_iff.2 hnode) fun n hn hname => ?_
    have hn := h.mem_iff.1 hn
    simp only [List.mem_cons, List.not_mem_nil, or_false] at hn hnode
    rcases hn with rfl | rfl | rfl <;> rcases hnode with rfl | rfl | rfl <;>
      first
      | rfl
      | simp [serversNode, tablesNode, cmdsNode, XmlNode.name, hst, hsc, htc, hst.symm, hsc.symm,
          htc.symm] at hname
  refine ⟨⟨_, hfind cfg.serversNode (by simp), ?_⟩, ⟨_, hfind cfg.cmdsNode (by simp), ?_⟩,
    ⟨_, hfind cfg.tablesNode (by simp), ?_⟩⟩
  · rw [serversNode, XmlNode.children, List.forall₂_map_left_iff, List.forall₂_map_right_iff,
      List.forall₂_same]
    exact fun s _ => readsServer_node s
  · rw [cmdsNode, XmlNode.children, nodesNamed_eq_self, List.forall₂_map_left_iff,
      List.forall₂_map_right_iff, List.forall₂_same]
    · exact fun cs _ => readsCmd_node cs
    · simp [cmdNode, XmlNode.name]
  · rw [tablesNode, XmlNode.children, nodesNamed_eq_self, List.forall₂_map_left_iff,
      List.forall₂_map_right_iff, List.forall₂_same]
    · exact fun t _ => readsTable_node t
    · simp [TableConfig.node, XmlNode.name]

lemma exists_of_forall₂ {α β : Type} {R : α → β → Prop} {as : List α} {bs : List β} {i : ℕ} {a : α}
    (h : List.Forall₂ R as bs) (hi : as[i]? = some a) : ∃ b, bs[i]? = some b ∧ R a b := by
  obtain ⟨hlt, rfl⟩ := List.getElem?_eq_some_iff.1 hi
  have hlt' : i < bs.length := h.length_eq ▸ hlt
  exact ⟨bs[i], List.getElem?_eq_getElem hlt', h.get hlt hlt'⟩

/-- What the invariant of the stores says to a reader of them. -/
lemma StoresInv.hold {probe : Bytes → UInt64 → UInt64} {cfg : Configuration} {s : Stores}
    (h : StoresInv probe (cfg.servers.map ServerConfig.server)
      (codes (cfg.cmds.map (·.map DmlType.cmdType))) (cfg.tables.map TableConfig.schema) s) :
    s.Hold cfg := by
  obtain ⟨⟨hwrite, hread, -⟩, ⟨ls, hbucket, hls⟩, ⟨ptrs, hset, hptrs⟩, -⟩ := h
  obtain ⟨ws, hws, hwperm⟩ := hwrite.getEntries
  obtain ⟨rs, hrs, hrperm⟩ := hread.getEntries
  rw [ofType_servers] at hwperm hrperm
  refine ⟨⟨ws, _, hws, hwperm⟩, ⟨rs, _, hrs, hrperm⟩, ?_, ?_, ?_, ?_⟩
  · rw [hset.size_eq, ← hptrs.length_eq, List.length_map]
  · intro i t ht
    have hi : (cfg.tables.map TableConfig.schema)[i]? = some t.schema := by simp [ht]
    obtain ⟨p, hp, hheap⟩ := exists_of_forall₂ hptrs hi
    exact ⟨p, vectorGet_eq hset hp, hheap⟩
  · rw [hbucket.size_eq, ← hls.length_eq, codes, List.length_map, List.length_map]
  · intro i cs hcs
    have hi : (codes (cfg.cmds.map (·.map DmlType.cmdType)))[i]?
        = some (cs.map fun c => c.cmdType.code) := by simp [codes, hcs]
    obtain ⟨l, hl, ps, hinv⟩ := exists_of_forall₂ hls hi
    refine ⟨l, vectorGet_eq hbucket hl, ?_⟩
    rw [travelCommandList_eq hinv, List.map_map]
    rfl

/-- **An XML configuration is read back.**  Of every configuration, `parser_read_xml` on empty
stores reads the element tree with success and leaves exactly the configuration in the stores,
when its probe loops end.  The only other way out is the failed allocation of a hash table for
`2 ^ 29` servers. -/
theorem xml_round_trip (probe : Bytes → UInt64 → UInt64) (fuel : ℕ) (cfg : Configuration)
    (root : XmlNode) (htree : cfg.IsTree root)
    (hloops : parserReadXml probe fuel (some (some root)) Stores.init ≠ .spin) :
    (∃ s, parserReadXml probe fuel (some (some root)) Stores.init = .ret (.succeed, s) ∧
        s.Hold cfg) ∨
      (parserReadXml probe fuel (some (some root)) Stores.init = .abort ∧
        2 ^ 29 ≤ cfg.servers.length) := by
  have hmeets := parserReadXml_meets probe fuel htree.reads cfg.nodup_names
  rcases hmeets.exists_ret_or_abort hloops with ⟨⟨ret, s⟩, hrun, hret, hinv⟩ | ⟨habort, hlen⟩
  · obtain rfl : ret = .succeed := hret
    exact Or.inl ⟨s, hrun, hinv.hold⟩
  · exact Or.inr ⟨habort, by simpa using le_of_not_serversFit hlen⟩

namespace Configuration

end Configuration

/-- The configuration of `config.xml.example`. -/
def exampleConfiguration : Configuration where
  servers := [⟨.write, 10, 1, 150, 1, 3306⟩, ⟨.write, 10, 1, 152, 1, 3306⟩,
    ⟨.read, 10, 1, 150, 1, 3306⟩, ⟨.read, 10, 1, 152, 1, 3306⟩, ⟨.read, 10, 1, 127, 1, 3306⟩]
  servers_nodup := by decide
  tables := [⟨[⟨ascii "key", ascii "a", .bigint⟩, ⟨ascii "val", ascii "b", .varchar 512⟩],
    by decide, by decide⟩]
  cmds := [[.insert, .delete, .update, .select]]

/-- The element tree of `config.xml.example`. -/
def exampleTree : XmlNode :=
  .mk (ascii "definition") [(ascii "name", ascii "checkQ")]
    [exampleConfiguration.serversNode, exampleConfiguration.tablesNode,
      exampleConfiguration.cmdsNode]

/-- `config.xml.example`, with the hash function of the source. -/
theorem xml_round_trip_example :
    ∃ s, parserReadXml (hashFunc true) 100 (some (some exampleTree)) Stores.init
        = .ret (.succeed, s) ∧ s.Hold exampleConfiguration :=
  (xml_round_trip (hashFunc true) 100 exampleConfiguration exampleTree (List.Perm.refl _)
    (by decide +kernel)).resolve_right fun h => absurd h.2 (by decide)

end CheckQ
