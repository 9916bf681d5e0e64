import CheckQ.Engine.Stores
import CheckQ.Parser.Verify

/-!
# The XML parser of `parser/parser.c`

`libxml2` delivers a tree of nodes.  The three readers each walk along the children of the
root to their section and then along the nodes of the section.  Reading a field of a node
that is not there, and passing an attribute that is not there to `strcmp`, `atoi` or `strdup`,
are faults; `xmlGetProp` gives `NULL` for such an attribute.

`ReadsServer`, `ReadsTable` and `ReadsCmd` say what one node of a section is read as; a reader
succeeds exactly when every node of its section is read so, and then the stores have what was
read, behind what they had before.
-/

namespace CheckQ

/-- `xmlNode`: the name, the attributes and the children.  A node that is no element, such as
a text, has a name as well. -/
inductive XmlNode where
  | mk (name : Bytes) (props : List (Bytes × Bytes)) (children : List XmlNode)

namespace XmlNode

/-- `name`. -/
def name : XmlNode → Bytes
  | mk name _ _ => name

/-- `properties`. -/
def props : XmlNode → List (Bytes × Bytes)
  | mk _ props _ => props

/-- `xmlChildrenNode` and the nodes that `next` leads to from it. -/
def children : XmlNode → List XmlNode
  | mk _ _ children => children

/-- `xmlGetProp`. -/
def getProp (node : XmlNode) (attr : Bytes) : Option Bytes :=
  (node.props.find? (·.1 = attr)).map Prod.snd

end XmlNode

/-- The loop that looks for the section of a name.  It reads the name of the first child
before it knows that there is one. -/
def findSection (name : Bytes) : List XmlNode → Outcome (Option XmlNode)
  | [] => .fault
  | [node] => .ret (if node.name = name then some node else none)
  | node :: next => if node.name = name then .ret (some node) else findSection name next

/-! ### Servers -/

/-- The type that the name of a node stands for. -/
def serverTypeOf (name : Bytes) : Option ServerType :=
  if name = ascii "write" then some .write
  else if name = ascii "read" then some .read
  else none

/-- The part of the loop of `parser_read_xml_server` from the attributes to `server_init`, for
one node: `none` goes to `error`, and `some` has the pointer that `server_init` returned. -/
def readServerNode (node : XmlNode) (type : ServerType) : Option (Option CqServer) := do
  let ip ← node.getProp (ascii "ip")
  let portStr ← node.getProp (ascii "port")
  let port := atoi portStr
  if verifyIp ip = .failed then none
  else if verifyPort port = .failed then none
  else some (serverInit ip port type)

variable (probe : Bytes → UInt64 → UInt64) (fuel : ℕ)

/-- The loop of `parser_read_xml_server`.  `freed` says that `ip` and `port_str` still point to
the strings of the last round, which have been freed: a node of another name then makes `error`
free them once more. -/
def readServers : Bool → List XmlNode → CqServerCluster → Outcome (RetT × CqServerCluster)
  | _, [], cluster => .ret (.succeed, cluster)
  | freed, node :: next, cluster =>
      match serverTypeOf node.name with
      | none => if freed then .fault else .ret (.failed, cluster)
      | some type =>
          match readServerNode node type with
          | none => .ret (.failed, cluster)
          | some server => do
              let (ret, cluster) ← cqClusterAdd probe fuel cluster server
              if ret = .failed then return (.failed, cluster)
              else readServers true next cluster

/-- `parser_read_xml_server`. -/
def parserReadXmlServer (root : XmlNode) (cluster : CqServerCluster) :
    Outcome (RetT × CqServerCluster) := do
  match ← findSection (ascii "servers") root.children with
  | none => return (.failed, cluster)
  | some servers => readServers probe fuel false servers.children cluster

/-! ### Tables -/

/-- `parser_read_table_data`. -/
def parserReadTableData (node : XmlNode) (schema : Schema) : Outcome (RetT × Schema) :=
  match node.getProp (ascii "type") with
  | none => .fault
  | some type =>
      if verifyString type (ascii "varchar") = .succeed then
        match node.getProp (ascii "length"), node.getProp (ascii "name") with
        | some lengthStr, some name =>
            schemaAdd schema (tableDataInit name .varchar (Int32.ofInt (atoi lengthStr)))
        | _, _ => .fault
      else if verifyString type (ascii "bigint") = .succeed then
        match node.getProp (ascii "name") with
        | some name => schemaAdd schema (tableDataInit name .bigint 0)
        | none => .fault
      else .ret (.failed, schema)

/-- The loop of `parser_read_table_schema`. -/
def readColumns : List XmlNode → TableSchema → Outcome (Option TableSchema)
  | [], schema => .ret (some schema)
  | node :: next, schema =>
      if node.name = ascii "key" then do
        let (ret, keySchema) ← parserReadTableData node schema.keySchema
        if ret = .failed then return none
        else readColumns next { schema with keySchema }
      else do
        let (ret, valSchema) ← parserReadTableData node schema.valSchema
        if ret = .failed then return none
        else readColumns next { schema with valSchema }

/-- `parser_read_table_schema`; `none` is `RET_FAILED`, after which the schema is not used. -/
def parserReadTableSchema (node : XmlNode) : Outcome (Option TableSchema) :=
  readColumns node.children (tableSchemaInit schemaInit schemaInit)

/-- The loop of `parser_read_xml_table`. -/
def readTables : List XmlNode → List TableSchema → VectorT ℕ →
    Outcome (RetT × List TableSchema × VectorT ℕ)
  | [], heap, set => .ret (.succeed, heap, set)
  | node :: next, heap, set =>
      if node.name = ascii "table" then do
        match ← parserReadTableSchema node with
        | none => return (.failed, heap, set)
        | some schema =>
            let (ret, set) ← schemaSetAdd set heap.length
            if ret = .failed then return (.failed, heap ++ [schema], set)
            else readTables next (heap ++ [schema]) set
      else readTables next heap set

/-- `parser_read_xml_table`. -/
def parserReadXmlTable (root : XmlNode) (heap : List TableSchema) (set : VectorT ℕ) :
    Outcome (RetT × List TableSchema × VectorT ℕ) := do
  match ← findSection (ascii "tables") root.children with
  | none => return (.failed, heap, set)
  | some tables => readTables tables.children heap set

/-! ### Commands -/

/-- The command that the name of a node stands for. -/
def cmdTypeOf (name : Bytes) : Option CmdType :=
  if name = ascii "insert" then some .insert
  else if name = ascii "delete" then some .delete
  else if name = ascii "update" then some .update
  else if name = ascii "select" then some .select
  else none

/-- `parser_read_cmd_list`. -/
def parserReadCmdList : List XmlNode → CmdList → Outcome (RetT × CmdList)
  | [], l => .ret (.succeed, l)
  | node :: next, l =>
      match cmdTypeOf node.name with
      | none => .ret (.failed, l)
      | some type => do
          let (ret, l) ← cmdListAdd l (cmdInit type.code)
          if ret = .failed then return (.failed, l)
          else parserReadCmdList next l

/-- The loop of `parser_read_xml_cmd`. -/
def readCmds : List XmlNode → VectorT CmdList → Outcome (RetT × VectorT CmdList)
  | [], bucket => .ret (.succeed, bucket)
  | node :: next, bucket =>
      if node.name = ascii "cmd" then do
        let (ret, l) ← parserReadCmdList node.children cmdListInit
        if ret = .failed then return (.failed, bucket)
        else
          let (ret, bucket) ← cmdBucketAdd bucket l
          if ret = .failed then return (.failed, bucket)
          else readCmds next bucket
      else readCmds next bucket

/-- `parser_read_xml_cmd`. -/
def parserReadXmlCmd (root : XmlNode) (bucket : VectorT CmdList) :
    Outcome (RetT × VectorT CmdList) := do
  match ← findSection (ascii "cmds") root.children with
  | none => return (.failed, bucket)
  | some cmds => readCmds cmds.children bucket

/-- `parser_read_xml`.  The outer `none` is a file that `xmlReadFile` cannot read and the inner
one a document without a root. -/
def parserReadXml (doc : Option (Option XmlNode)) (stores : Stores) : Outcome (RetT × Stores) :=
  match doc with
  | some (some root) => do
      let (ret, clusterBase) ← parserReadXmlServer probe fuel root stores.clusterBase
      let stores := { stores with clusterBase }
      if ret = .failed then return (.failed, stores)
      let (ret, cmdBucket) ← parserReadXmlCmd root stores.cmdBucket
      let stores := { stores with cmdBucket }
      if ret = .failed then return (.failed, stores)
      let (ret, schemaHeap, schemaSet) ← parserReadXmlTable root stores.schemaHeap stores.schemaSet
      let stores := { stores with schemaHeap, schemaSet }
      if ret = .failed then return (.failed, stores)
      return (.succeed, stores)
  | _ => .ret (.failed, stores)

/-- The first section of the name, when the root has children at all. -/
lemma findSection_find? {name : Bytes} {nodes : List XmlNode} (h : nodes ≠ []) :
    findSection name nodes = .ret (nodes.find? (·.name = name)) := by
  induction nodes with
  | nil => exact absurd rfl h
  | cons node nodes ih =>
      cases nodes with
      | nil => by_cases hname : node.name = name <;> simp [findSection, hname]
      | cons node' nodes =>
          rw [findSection]
          by_cases hname : node.name = name
          · simp [hname]
          · rw [if_neg hname, List.find?_cons_of_neg (by simpa using hname), ih (by simp)]
          · simp

/-! ### What the servers are read as -/

variable {probe fuel}

/-- A check of the form `if (RET_FAILED == ..) return RET_FAILED;` in a call that succeeds. -/
lemma guard_succeed {β : Type} {ret : RetT} {b b' : β} {rest : Outcome (RetT × β)}
    (h : (if ret = .failed then pure (.failed, b) else rest) = .ret (.succeed, b')) :
    ret = .succeed ∧ rest = .ret (.succeed, b') := by
  cases ret with
  | succeed => exact ⟨rfl, h⟩
  | failed => simp at h

/-- The node is read as the server `s`. -/
def ReadsServer (node : XmlNode) (s : CqServer) : Prop :=
  ∃ type, serverTypeOf node.name = some type ∧ readServerNode node type = some (some s)

lemma ReadsServer.made {node : XmlNode} {s : CqServer} (h : ReadsServer node s) :
    serverInit s.ip s.port s.type = some s ∧ serverTypeOf node.name = some s.type := by
  obtain ⟨type, htype, hread⟩ := h
  simp only [readServerNode, Option.bind_eq_bind, Option.bind_eq_some_iff] at hread
  obtain ⟨ip, -, portStr, -, hinit⟩ := hread
  split at hinit
  · exact absurd hinit (by simp)
  · split at hinit
    · exact absurd hinit (by simp)
    · have hs := Option.some.inj hinit
      obtain ⟨hip, hport, hst, -⟩ := serverInit_fields hs
      rw [hip, hport, hst]
      exact ⟨hs, htype⟩

/-- The round of the loop for a node that is read as a server. -/
lemma readServers_cons {node : XmlNode} {s : CqServer} (hs : ReadsServer node s)
    (nodes : List XmlNode) (cluster : CqServerCluster) (freed : Bool) :
    readServers probe fuel freed (node :: nodes) cluster = (do
      let (ret, cluster) ← cqClusterAdd probe fuel cluster (some s)
      if ret = .failed then return (.failed, cluster)
      else readServers probe fuel true nodes cluster) := by
  obtain ⟨type, htype, hread⟩ := hs
  rw [readServers, htype]
  simp only [hread]

/-- The node makes the loop free two strings twice or follow the `NULL` of `server_init`. -/
def ServerFaults (freed : Bool) (node : XmlNode) : Prop :=
  match serverTypeOf node.name with
  | none => freed = true
  | some type => readServerNode node type = some none

/-- The loop does not go on behind another node. -/
lemma readServers_cons_other {node : XmlNode} (h : ∀ s, ¬ ReadsServer node s)
    (nodes : List XmlNode) (cluster : CqServerCluster) (freed : Bool) :
    (ServerFaults freed node ∧ readServers probe fuel freed (node :: nodes) cluster = .fault) ∨
      ¬ ServerFaults freed node ∧
        readServers probe fuel freed (node :: nodes) cluster = .ret (.failed, cluster) := by
  rw [readServers, ServerFaults]
  cases htype : serverTypeOf node.name with
  | none => cases freed <;> simp
  | some type =>
      dsimp only
      rcases hread : readServerNode node type with _ | _ | s
      · exact Or.inr ⟨by simp, rfl⟩
      · exact Or.inl ⟨rfl, rfl⟩
      · exact absurd ⟨type, htype, hread⟩ (h s)

variable (probe) in
/-- There are rounds enough for the searches in the hash tables of a cluster. -/
def RoundsEnough (fuel : ℕ) (l : List CqServer) : Prop :=
  2 ^ 64 ≤ fuel ∧ ServersScatter probe l

/-- A section whose servers have different names is read, unless a search does not end or a table
cannot be made large enough. -/
lemma readServers_meets (fuel : ℕ) {nodes : List XmlNode} {ss l : List CqServer}
    {cluster : CqServerCluster} (hreads : List.Forall₂ ReadsServer nodes ss)
    (hinv : ClusterInv probe l cluster)
    (hnodup : ∀ type, ((ofType type (l ++ ss)).map CqServer.name).Nodup) (freed : Bool) :
    (readServers probe fuel freed nodes cluster).Meets (¬ RoundsEnough probe fuel (l ++ ss))
      (¬ ServersFit (l ++ ss)) fun q =>
        q.1 = .succeed ∧ ClusterInv probe (l ++ ss) q.2 := by
  induction hreads generalizing l cluster freed with
  | nil => exact ⟨rfl, by simpa using hinv⟩
  | @cons node s nodes ss hs hreads ih =>
      obtain ⟨hmade, -⟩ := hs.made
      rw [readServers_cons hs]
      have hnew : s.name ∉ (ofType s.type l).map CqServer.name := by
        have h := hnodup s.type
        rw [ofType, List.filter_append, List.filter_cons_of_pos (by simp)] at h
        exact name_notMem_of_nodup h
      have happ : l ++ s :: ss = l ++ [s] ++ ss := by simp
      rw [happ] at hnodup ⊢
      have hadd := (cqClusterAdd_meets fuel hinv hmade).ends
        (P := RoundsEnough probe fuel (l ++ [s] ++ ss)) fun hrounds =>
          cqClusterAdd_ne_spin hinv hrounds.1 (hrounds.2.sublist (List.sublist_append_left _ _))
      refine (hadd.mono (fun hfits hall => hfits ?_) fun _ => id).bind ?_
      · refine (hall.sublist (List.sublist_append_left (l ++ [s]) ss)) s.type _ ?_
        rw [ofType_concat, List.length_append]
        exact Nat.lt_succ_self _
      · rintro ⟨ret, cluster'⟩ (⟨rfl, -, hinv'⟩ | ⟨-, hold, -⟩)
        · exact ih hinv' hnodup true
        · exact absurd hold hnew

/-- A section that is read with success has been read as servers. -/
lemma readServers_reads {nodes : List XmlNode} {l : List CqServer}
    {cluster cluster' : CqServerCluster} (hinv : ClusterInv probe l cluster) {freed : Bool}
    (hrun : readServers probe fuel freed nodes cluster = .ret (.succeed, cluster')) :
    ∃ ss, List.Forall₂ ReadsServer nodes ss ∧ ClusterInv probe (l ++ ss) cluster' := by
  induction nodes generalizing l cluster freed with
  | nil =>
      rw [readServers, Outcome.ret.injEq, Prod.mk.injEq] at hrun
      exact ⟨[], List.Forall₂.nil, by simpa [← hrun.2] using hinv⟩
  | cons node nodes ih =>
      by_cases hreads : ∃ s, ReadsServer node s
      · obtain ⟨s, hs⟩ := hreads
        rw [readServers_cons hs] at hrun
        obtain ⟨⟨ret, cluster₁⟩, hadd, hrun⟩ := Outcome.bind_eq_ret.1 hrun
        have hmeets := cqClusterAdd_meets fuel hinv hs.made.1
        rw [hadd] at hmeets
        obtain ⟨rfl, hrun⟩ := guard_succeed hrun
        rcases hmeets with ⟨-, -, hinv₁⟩ | ⟨hret, -⟩
        · obtain ⟨ss, hss, hinv'⟩ := ih hinv₁ hrun
          exact ⟨s :: ss, List.Forall₂.cons hs hss, by simpa using hinv'⟩
        · exact absurd hret (by simp)
      · rcases readServers_cons_other (not_exists.1 hreads) nodes cluster freed with ⟨-, h⟩ | ⟨-, h⟩
        · exact absurd (h.symm.trans hrun) (by simp)
        · exact absurd (h.symm.trans hrun) (by simp)

/-! ### What the tables are read as -/

/-- The node is read as the table schema. -/
def ReadsTable (node : XmlNode) (schema : TableSchema) : Prop :=
  parserReadTableSchema node = .ret (some schema)

/-- The nodes of a section that the parser does not skip. -/
def nodesNamed (name : Bytes) (nodes : List XmlNode) : List XmlNode :=
  nodes.filter (·.name = name)

lemma readTables_eq {nodes : List XmlNode} {schemas new heap : List TableSchema} {set : VectorT ℕ}
    (hreads : List.Forall₂ ReadsTable (nodesNamed (ascii "table") nodes) new)
    (hinv : SchemaSetInv schemas heap set) :
    ∃ heap' set', readTables nodes heap set = .ret (.succeed, heap', set') ∧
      SchemaSetInv (schemas ++ new) heap' set' := by
  induction nodes generalizing schemas new heap set with
  | nil =>
      obtain rfl := List.forall₂_nil_left_iff.1 hreads
      exact ⟨heap, set, rfl, by simpa using hinv⟩
  | cons node nodes ih =>
      rw [readTables]
      by_cases hname : node.name = ascii "table"
      · rw [nodesNamed, List.filter_cons_of_pos (by simp [hname]), List.forall₂_cons_left_iff]
          at hreads
        obtain ⟨schema, new, hread, hreads, rfl⟩ := hreads
        obtain ⟨set₁, hadd, hinv₁⟩ := schemaSetAdd_inv schema hinv
        obtain ⟨heap', set', hrun, hinv'⟩ := ih hreads hinv₁
        refine ⟨heap', set', ?_, by simpa using hinv'⟩
        rw [if_pos hname, show parserReadTableSchema node = _ from hread, Outcome.ret_bind]
        simp only [hadd, Outcome.ret_bind, reduceCtorEq, if_false, hrun]
      · rw [nodesNamed, List.filter_cons_of_neg (by simp [hname])] at hreads
        rw [if_neg hname]
        exact ih hreads hinv

lemma readTables_reads {nodes : List XmlNode} {heap heap' : List TableSchema} {set set' : VectorT ℕ}
    (hrun : readTables nodes heap set = .ret (.succeed, heap', set')) :
    ∃ new, List.Forall₂ ReadsTable (nodesNamed (ascii "table") nodes) new := by
  induction nodes generalizing heap set with
  | nil => exact ⟨[], List.Forall₂.nil⟩
  | cons node nodes ih =>
      rw [readTables] at hrun
      by_cases hname : node.name = ascii "table"
      · rw [if_pos hname] at hrun
        obtain ⟨schema?, hread, hrun⟩ := Outcome.bind_eq_ret.1 hrun
        cases schema? with
        | none => simp at hrun
        | some schema =>
            obtain ⟨⟨ret, set₁⟩, -, hrun⟩ := Outcome.bind_eq_ret.1 hrun
            obtain ⟨new, hnew⟩ := ih (guard_succeed hrun).2
            refine ⟨schema :: new, ?_⟩
            rw [nodesNamed, List.filter_cons_of_pos (by simp [hname])]
            exact List.Forall₂.cons hread hnew
      · rw [if_neg hname] at hrun
        rw [nodesNamed, List.filter_cons_of_neg (by simp [hname])]
        exact ih hrun

/-! ### What the commands are read as -/

/-- The node is read as the list of commands. -/
def ReadsCmd (node : XmlNode) (cmds : List CmdType) : Prop :=
  List.Forall₂ (fun c type => cmdTypeOf c.name = some type) node.children cmds

lemma parserReadCmdList_eq {nodes : List XmlNode} {types : List CmdType} {ps : List ℕ}
    {cmds : List UInt32} {l : CmdList}
    (hreads : List.Forall₂ (fun c type => cmdTypeOf c.name = some type) nodes types)
    (hinv : CmdListInv ps cmds l) :
    ∃ l' ps', parserReadCmdList nodes l = .ret (.succeed, l') ∧
      CmdListInv ps' (cmds ++ types.map CmdType.code) l' := by
  induction hreads generalizing ps cmds l with
  | nil => exact ⟨l, ps, rfl, by simpa using hinv⟩
  | @cons node type nodes types htype _ ih =>
      obtain ⟨l₁, ps₁, hadd, hinv₁⟩ := cmdListAdd_inv hinv type.code
      obtain ⟨l', ps', hrun, hinv'⟩ := ih hinv₁
      refine ⟨l', ps', ?_, by simpa using hinv'⟩
      rw [parserReadCmdList, htype]
      simp only [hadd, Outcome.ret_bind, reduceCtorEq, if_false, hrun]

lemma parserReadCmdList_reads {nodes : List XmlNode} {l l' : CmdList}
    (hrun : parserReadCmdList nodes l = .ret (.succeed, l')) :
    ∃ types, List.Forall₂ (fun c type => cmdTypeOf c.name = some type) nodes types := by
  induction nodes generalizing l with
  | nil => exact ⟨[], List.Forall₂.nil⟩
  | cons node nodes ih =>
      rw [parserReadCmdList] at hrun
      cases htype : cmdTypeOf node.name with
      | none => simp [htype] at hrun
      | some type =>
          simp only [htype] at hrun
          obtain ⟨⟨ret, l₁⟩, -, hrun⟩ := Outcome.bind_eq_ret.1 hrun
          obtain ⟨types, htypes⟩ := ih (guard_succeed hrun).2
          exact ⟨type :: types, List.Forall₂.cons htype htypes⟩

lemma readCmds_eq {nodes : List XmlNode} {cmdLists : List (List UInt32)} {new : List (List CmdType)}
    {bucket : VectorT CmdList}
    (hreads : List.Forall₂ ReadsCmd (nodesNamed (ascii "cmd") nodes) new)
    (hinv : BucketInv cmdLists bucket) :
    ∃ bucket', readCmds nodes bucket = .ret (.succeed, bucket') ∧
      BucketInv (cmdLists ++ new.map (·.map CmdType.code)) bucket' := by
  induction nodes generalizing cmdLists new bucket with
  | nil =>
      obtain rfl := List.forall₂_nil_left_iff.1 hreads
      exact ⟨bucket, rfl, by simpa using hinv⟩
  | cons node nodes ih =>
      rw [readCmds]
      by_cases hname : node.name = ascii "cmd"
      · rw [nodesNamed, List.filter_cons_of_pos (by simp [hname]), List.forall₂_cons_left_iff]
          at hreads
        obtain ⟨types, new, hread, hreads, rfl⟩ := hreads
        obtain ⟨l, ps, hlist, hl⟩ := parserReadCmdList_eq hread cmdListInit_inv
        obtain ⟨bucket₁, hadd, hinv₁⟩ := cmdBucketAdd_inv hinv hl
        obtain ⟨bucket', hrun, hinv'⟩ := ih hreads hinv₁
        refine ⟨bucket', ?_, by simpa using hinv'⟩
        rw [if_pos hname, hlist, Outcome.ret_bind]
        simp only [hadd, Outcome.ret_bind, reduceCtorEq, if_false, hrun]
      · rw [nodesNamed, List.filter_cons_of_neg (by simp [hname])] at hreads
        rw [if_neg hname]
        exact ih hreads hinv

lemma readCmds_reads {nodes : List XmlNode} {bucket bucket' : VectorT CmdList}
    (hrun : readCmds nodes bucket = .ret (.succeed, bucket')) :
    ∃ new, List.Forall₂ ReadsCmd (nodesNamed (ascii "cmd") nodes) new := by
  induction nodes generalizing bucket with
  | nil => exact ⟨[], List.Forall₂.nil⟩
  | cons node nodes ih =>
      rw [readCmds] at hrun
      by_cases hname : node.name = ascii "cmd"
      · rw [if_pos hname] at hrun
        obtain ⟨⟨ret, l⟩, hlist, hrun⟩ := Outcome.bind_eq_ret.1 hrun
        obtain ⟨rfl, hrun⟩ := guard_succeed hrun
        obtain ⟨types, htypes⟩ := parserReadCmdList_reads hlist
        obtain ⟨⟨ret, bucket₁⟩, -, hrun⟩ := Outcome.bind_eq_ret.1 hrun
        obtain ⟨new, hnew⟩ := ih (guard_succeed hrun).2
        refine ⟨types :: new, ?_⟩
        rw [nodesNamed, List.filter_cons_of_pos (by simp [hname])]
        exact List.Forall₂.cons htypes hnew
      · rw [if_neg hname] at hrun
        rw [nodesNamed, List.filter_cons_of_neg (by simp [hname])]
        exact ih hrun

/-! ### What a document is read as -/

/-- The three sections are there and are read as these servers, command lists and schemas. -/
structure ReadsXml (root : XmlNode) (servers : List CqServer) (cmdLists : List (List CmdType))
    (schemas : List TableSchema) : Prop where
  servers : ∃ node, findSection (ascii "servers") root.children = .ret (some node) ∧
    List.Forall₂ ReadsServer node.children servers
  cmds : ∃ node, findSection (ascii "cmds") root.children = .ret (some node) ∧
    List.Forall₂ ReadsCmd (nodesNamed (ascii "cmd") node.children) cmdLists
  tables : ∃ node, findSection (ascii "tables") root.children = .ret (some node) ∧
    List.Forall₂ ReadsTable (nodesNamed (ascii "table") node.children) schemas

/-- The commands as the machine words that the nodes of a command list hold. -/
def codes (cmdLists : List (List CmdType)) : List (List UInt32) :=
  cmdLists.map (·.map CmdType.code)

/-- A document whose servers have different names is read, and the stores have what it says, unless
a search does not end or a table cannot be made large enough. -/
lemma parserReadXml_meets (probe : Bytes → UInt64 → UInt64) (fuel : ℕ) {root : XmlNode}
    {servers : List CqServer} {cmdLists : List (List CmdType)} {schemas : List TableSchema}
    (h : ReadsXml root servers cmdLists schemas)
    (hnodup : ∀ type, ((ofType type servers).map CqServer.name).Nodup) :
    (parserReadXml probe fuel (some (some root)) Stores.init).Meets
      (¬ RoundsEnough probe fuel servers) (¬ ServersFit servers) fun q =>
        q.1 = .succeed ∧ StoresInv probe servers (codes cmdLists) schemas q.2 := by
  obtain ⟨serversNode, hserversNode, hservers⟩ := h.servers
  obtain ⟨cmdsNode, hcmdsNode, hcmds⟩ := h.cmds
  obtain ⟨tablesNode, htablesNode, htables⟩ := h.tables
  obtain ⟨bucket, hbucket, hbinv⟩ := readCmds_eq hcmds bucketInv_init
  obtain ⟨heap, set, hset, hsinv⟩ := readTables_eq htables schemaSetInv_init
  have hinit : ClusterInv probe [] cqClusterInit := cqClusterInit_inv
  have hread := readServers_meets fuel hservers hinit (by simpa using hnodup) false
  rw [List.nil_append] at hread hbinv hsinv
  rw [parserReadXml, parserReadXmlServer, hserversNode, Outcome.ret_bind]
  refine hread.bind ?_
  rintro ⟨ret, cluster⟩ ⟨rfl, hcluster⟩
  have hcmd : parserReadXmlCmd root Stores.init.cmdBucket = .ret (.succeed, bucket) := by
    rw [parserReadXmlCmd, hcmdsNode, Outcome.ret_bind]
    exact hbucket
  have htable : parserReadXmlTable root Stores.init.schemaHeap Stores.init.schemaSet
      = .ret (.succeed, heap, set) := by
    rw [parserReadXmlTable, htablesNode, Outcome.ret_bind]
    exact hset
  simp only [reduceCtorEq, if_false, hcmd, htable, Outcome.ret_bind]
  exact ⟨rfl, hcluster, hbinv, hsinv, [], HashHolds.alloc⟩

/-- A document that is read with success has been read as something, and the stores have what
it says. -/
lemma parserReadXml_reads {doc : Option (Option XmlNode)} {s : Stores}
    (hrun : parserReadXml probe fuel doc Stores.init = .ret (.succeed, s)) :
    ∃ root servers cmdLists schemas, doc = some (some root) ∧
      ReadsXml root servers cmdLists schemas ∧
      StoresInv probe servers (codes cmdLists) schemas s := by
  rcases doc with _ | _ | root
  · simp [parserReadXml] at hrun
  · simp [parserReadXml] at hrun
  · rw [parserReadXml] at hrun
    obtain ⟨⟨ret, cluster⟩, hserver, hrun⟩ := Outcome.bind_eq_ret.1 hrun
    obtain ⟨rfl, hrun⟩ := guard_succeed hrun
    obtain ⟨⟨ret, bucket⟩, hcmd, hrun⟩ := Outcome.bind_eq_ret.1 hrun
    obtain ⟨rfl, hrun⟩ := guard_succeed hrun
    obtain ⟨⟨ret, heap, set⟩, htable, hrun⟩ := Outcome.bind_eq_ret.1 hrun
    obtain ⟨rfl, hrun⟩ := guard_succeed hrun
    obtain rfl := (Prod.mk.inj (Outcome.ret.inj hrun)).2
    -- each reader has found its section
    obtain ⟨node | serversNode, hserversNode, hserver⟩ := Outcome.bind_eq_ret.1 hserver
    · simp at hserver
    obtain ⟨node | cmdsNode, hcmdsNode, hcmd⟩ := Outcome.bind_eq_ret.1 hcmd
    · simp at hcmd
    obtain ⟨node | tablesNode, htablesNode, htable⟩ := Outcome.bind_eq_ret.1 htable
    · simp at htable
    obtain ⟨servers, hservers, hcluster⟩ := readServers_reads cqClusterInit_inv hserver
    obtain ⟨cmdLists, hcmds⟩ := readCmds_reads hcmd
    obtain ⟨schemas, htables⟩ := readTables_reads htable
    obtain ⟨bucket', hbucket, hbinv⟩ := readCmds_eq hcmds bucketInv_init
    obtain ⟨heap', set', hset, hsinv⟩ := readTables_eq htables schemaSetInv_init
    have hb : bucket = bucket' := by
      have := hcmd.symm.trans hbucket
      simpa using this
    have hs : heap = heap' ∧ set = set' := by
      have := htable.symm.trans hset
      simpa using this
    obtain ⟨rfl, rfl⟩ := hs
    subst hb
    rw [List.nil_append] at hcluster hbinv hsinv
    exact ⟨root, servers, cmdLists, schemas, rfl,
      ⟨⟨serversNode, hserversNode, hservers⟩, ⟨cmdsNode, hcmdsNode, hcmds⟩,
        ⟨tablesNode, htablesNode, htables⟩⟩, hcluster, hbinv, hsinv, [], HashHolds.alloc⟩

end CheckQ
