import CheckQ.Lib.Refinement
import CheckQ.Mylib.HashFunc
import CheckQ.Parser.XmlTable

/-!
# The nodes and attributes that the XML parser takes for granted

The three readers test the pointer to the next node and two attributes of a server, and they
test neither the first child of the root nor an attribute of a column.  Each loop stops at the
first node that it rejects, so what is missing behind that node does no harm: a fault needs a
node that its loop comes to.  A server whose name is too long for `server_init` is a null
pointer as well, and a node of another name behind a server frees two strings twice.
-/

namespace CheckQ

/-! ### Columns -/

/-- The element lacks an attribute that `parser_read_table_data` passes on. -/
def LacksAttribute (node : XmlNode) : Prop :=
  node.getProp (ascii "type") = none ∨
    node.getProp (ascii "type") = some (ascii "varchar") ∧
      (node.getProp (ascii "length") = none ∨ node.getProp (ascii "name") = none) ∨
    node.getProp (ascii "type") = some (ascii "bigint") ∧ node.getProp (ascii "name") = none

lemma ReadsColumn.not_lacks {node : XmlNode} {data : TableData} (h : ReadsColumn node data) :
    ¬ LacksAttribute node := by
  obtain ⟨name, hname, ⟨htype, lengthStr, hlength, -⟩ | ⟨htype, -⟩⟩ := h
  · rintro (h | ⟨-, h | h⟩ | ⟨-, h⟩)
    · simp [htype] at h
    · simp [hlength] at h
    · simp [hname] at h
    · simp [hname] at h
  · rintro (h | ⟨h, -⟩ | ⟨-, h⟩)
    · simp [htype] at h
    · rw [htype, Option.some.injEq] at h
      exact absurd h (by decide)
    · simp [hname] at h

/-- A column that lacks an attribute is a fault, whatever the schema holds. -/
lemma parserReadTableData_fault {node : XmlNode} (schema : Schema) (h : LacksAttribute node) :
    parserReadTableData node schema = .fault := by
  rw [parserReadTableData]
  rcases h with htype | ⟨htype, hattr⟩ | ⟨htype, hname⟩
  · rw [htype]
  · rw [htype]
    simp only [verifyString, if_true]
    rcases hattr with hlength | hname
    · rw [hlength]
    · rw [hname]
      cases node.getProp (ascii "length") with
      | none => rfl
      | some lengthStr => rfl
  · rw [htype]
    have hne : ascii "bigint" ≠ ascii "varchar" := by decide
    simp only [verifyString, hne, reduceCtorEq, if_false, if_true, hname]

/-- A column that has its attributes is made and goes to `schema_add`, or its type is another
one. -/
lemma parserReadTableData_eq {node : XmlNode} (schema : Schema) (h : ¬ LacksAttribute node) :
    (∃ data, ReadsColumn node data ∧
        parserReadTableData node schema = schemaAdd schema data) ∨
      (∀ data, ¬ ReadsColumn node data) ∧
        parserReadTableData node schema = .ret (.failed, schema) := by
  rw [parserReadTableData]
  cases htype : node.getProp (ascii "type") with
  | none => exact absurd (Or.inl htype) h
  | some type =>
      by_cases hvarchar : type = ascii "varchar"
      · subst hvarchar
        cases hlength : node.getProp (ascii "length") with
        | none => exact absurd (Or.inr (Or.inl ⟨htype, Or.inl hlength⟩)) h
        | some lengthStr =>
            cases hname : node.getProp (ascii "name") with
            | none => exact absurd (Or.inr (Or.inl ⟨htype, Or.inr hname⟩)) h
            | some name =>
                refine Or.inl ⟨_, ⟨name, hname, Or.inl ⟨htype, lengthStr, hlength, rfl⟩⟩, ?_⟩
                simp only [verifyString, if_true, tableDataInit]
      · by_cases hbigint : type = ascii "bigint"
        · subst hbigint
          cases hname : node.getProp (ascii "name") with
          | none => exact absurd (Or.inr (Or.inr ⟨htype, hname⟩)) h
          | some name =>
              refine Or.inl ⟨_, ⟨name, hname, Or.inr ⟨htype, rfl⟩⟩, ?_⟩
              simp only [verifyString, hvarchar, reduceCtorEq, if_false, if_true, tableDataInit]
        · refine Or.inr ⟨?_, ?_⟩
          · rintro data ⟨name, -, ⟨htype', -⟩ | ⟨htype', -⟩⟩
            · exact absurd (Option.some.inj (htype.symm.trans htype')) hvarchar
            · exact absurd (Option.some.inj (htype.symm.trans htype')) hbigint
          · simp only [verifyString, hvarchar, hbigint, reduceCtorEq, if_false]

/-- A column that has its attributes is added or makes the reading stop. -/
lemma parserReadTableData_cases {node : XmlNode} {schema : Schema}
    (hcap : schema.nschema ≤ schema.capacity) (h : ¬ LacksAttribute node) :
    (∃ data, ReadsColumn node data ∧ schema.nschema < schema.capacity ∧
        parserReadTableData node schema
          = .ret (.succeed, { schema with schemas := schema.schemas ++ [data] })) ∨
      (∀ data, ReadsColumn node data → schema.nschema = schema.capacity) ∧
        parserReadTableData node schema = .ret (.failed, schema) := by
  rcases parserReadTableData_eq schema h with ⟨data, hread, heq⟩ | ⟨hother, heq⟩
  · rw [heq, schemaAdd]
    rcases hcap.lt_or_eq with hlt | hfull
    · rw [if_neg hlt.ne, if_pos hlt]
      exact Or.inl ⟨data, hread, hlt, rfl⟩
    · rw [if_pos hfull]
      exact Or.inr ⟨fun _ _ => hfull, rfl⟩
  · exact Or.inr ⟨fun data hread => absurd hread (hother data), heq⟩

/-- The key or the value part of a schema. -/
def TableSchema.part (schema : TableSchema) (isKey : Bool) : Schema :=
  if isKey then schema.keySchema else schema.valSchema

/-- The schema with another key or value part. -/
def TableSchema.withPart (schema : TableSchema) (isKey : Bool) (s : Schema) : TableSchema :=
  if isKey then { schema with keySchema := s } else { schema with valSchema := s }

lemma TableSchema.part_withPart (schema : TableSchema) (b c : Bool) (s : Schema) :
    (schema.withPart b s).part c = if c = b then s else schema.part c := by
  cases b <;> cases c <;> rfl

/-- One node of the loop of `parser_read_table_schema`. -/
lemma readColumns_cons (node : XmlNode) (nodes : List XmlNode) (schema : TableSchema) :
    readColumns (node :: nodes) schema = (do
      let (ret, s) ← parserReadTableData node (schema.part node.isKey)
      if ret = .failed then return none
      else readColumns nodes (schema.withPart node.isKey s)) := by
  rw [readColumns]
  by_cases hname : node.name = ascii "key"
  · rw [if_pos hname, show node.isKey = true by simp [XmlNode.isKey, hname]]
    rfl
  · rw [if_neg hname, show node.isKey = false by simp [XmlNode.isKey, hname]]
    rfl

/-- Both parts of a schema are within their capacities. -/
def TableSchema.InCapacity (schema : TableSchema) : Prop :=
  ∀ isKey, (schema.part isKey).nschema ≤ (schema.part isKey).capacity

/-- The loop of `parser_read_table_schema` takes these nodes: each of them is read as a column,
and there is room for the key columns and for the others. -/
structure ColumnsTaken (schema : TableSchema) (nodes : List XmlNode) : Prop where
  reads : ∀ node ∈ nodes, ∃ data, ReadsColumn node data
  fit : ∀ isKey, (schema.part isKey).nschema + nodes.countP (·.isKey = isKey)
    ≤ (schema.part isKey).capacity

/-- The schema with one more column. -/
def TableSchema.extend (schema : TableSchema) (isKey : Bool) (data : TableData) : TableSchema :=
  schema.withPart isKey { schema.part isKey with
    schemas := (schema.part isKey).schemas ++ [data] }

lemma TableSchema.nschema_extend (schema : TableSchema) (b c : Bool) (data : TableData) :
    ((schema.extend b data).part c).nschema = (schema.part c).nschema + if b = c then 1 else 0 := by
  rw [extend, part_withPart]
  by_cases h : c = b
  · subst h
    simp [Schema.nschema]
  · simp [h, Ne.symm h]

lemma TableSchema.capacity_extend (schema : TableSchema) (b c : Bool) (data : TableData) :
    ((schema.extend b data).part c).capacity = (schema.part c).capacity := by
  rw [extend, part_withPart]
  by_cases h : c = b
  · subst h
    simp
  · simp [h]

/-- What the loop takes behind a column that it has added. -/
lemma columnsTaken_cons (schema : TableSchema) {node : XmlNode} {data : TableData}
    (hread : ReadsColumn node data) (nodes : List XmlNode) :
    ColumnsTaken schema (node :: nodes) ↔
      ColumnsTaken (schema.extend node.isKey data) nodes := by
  have hcount : ∀ isKey, ((schema.extend node.isKey data).part isKey).nschema
      + nodes.countP (·.isKey = isKey)
      = (schema.part isKey).nschema + (node :: nodes).countP (·.isKey = isKey) := by
    intro isKey
    rw [TableSchema.nschema_extend, List.countP_cons]
    simp only [decide_eq_true_eq]
    omega
  constructor
  · rintro ⟨hreads, hfit⟩
    refine ⟨fun n hn => hreads n (List.mem_cons_of_mem _ hn), fun isKey => ?_⟩
    rw [hcount, TableSchema.capacity_extend]
    exact hfit isKey
  · rintro ⟨hreads, hfit⟩
    refine ⟨fun n hn => ?_, fun isKey => ?_⟩
    · rcases List.mem_cons.1 hn with rfl | hn
      · exact ⟨data, hread⟩
      · exact hreads n hn
    · have := hfit isKey
      rwa [hcount, TableSchema.capacity_extend] at this

lemma columnsTaken_nil {schema : TableSchema} :
    ColumnsTaken schema [] ↔ schema.InCapacity := by
  constructor
  · rintro ⟨-, hfit⟩
    exact hfit
  · exact fun h => ⟨by simp, h⟩

/-- What the loop does with its next node: it faults, or it stops and takes no list that begins
with the node, or it goes on with one more column. -/
lemma readColumns_step {schema : TableSchema} (hcap : schema.InCapacity) (node : XmlNode)
    (nodes : List XmlNode) :
    (LacksAttribute node ∧ readColumns (node :: nodes) schema = .fault) ∨
      (¬ LacksAttribute node ∧ (∀ next, ¬ ColumnsTaken schema (node :: next)) ∧
        readColumns (node :: nodes) schema = .ret none) ∨
      ∃ schema', ¬ LacksAttribute node ∧ schema'.InCapacity ∧
        (∀ next, ColumnsTaken schema (node :: next) ↔ ColumnsTaken schema' next) ∧
        readColumns (node :: nodes) schema = readColumns nodes schema' := by
  rw [readColumns_cons]
  by_cases hlacks : LacksAttribute node
  · rw [parserReadTableData_fault _ hlacks]
    exact Or.inl ⟨hlacks, rfl⟩
  · rcases parserReadTableData_cases (hcap node.isKey) hlacks with
      ⟨data, hread, hlt, heq⟩ | ⟨hfull, heq⟩
    · rw [heq]
      have htaken := columnsTaken_cons schema hread
      refine Or.inr (Or.inr ⟨schema.extend node.isKey data, hlacks, ?_, htaken, rfl⟩)
      rw [← columnsTaken_nil, ← htaken]
      refine ⟨by simpa using ⟨data, hread⟩, fun isKey => ?_⟩
      have := hcap isKey
      by_cases h : node.isKey = isKey
      · subst h
        simpa [Nat.succ_le_iff] using hlt
      · simpa [h] using this
    · rw [heq]
      refine Or.inr (Or.inl ⟨hlacks, ?_, rfl⟩)
      rintro next ⟨hreads, hfit⟩
      obtain ⟨data, hread⟩ := hreads node (by simp)
      have hroom := hfit node.isKey
      rw [List.countP_cons_of_pos (by simp), hfull data hread] at hroom
      omega

/-- The loop accepts the nodes that it takes. -/
lemma readColumns_accepts_iff {schema : TableSchema} (hcap : schema.InCapacity)
    (nodes : List XmlNode) :
    (∃ schema', readColumns nodes schema = .ret (some schema')) ↔ ColumnsTaken schema nodes := by
  induction nodes generalizing schema with
  | nil => simpa [readColumns] using columnsTaken_nil.2 hcap
  | cons node nodes ih =>
      rcases readColumns_step hcap node nodes with
        ⟨hlacks, heq⟩ | ⟨-, hstop, heq⟩ | ⟨schema', -, hcap', htaken, heq⟩
      · rw [heq]
        refine iff_of_false (by simp) fun h => ?_
        obtain ⟨data, hread⟩ := h.reads node (by simp)
        exact hread.not_lacks hlacks
      · rw [heq]
        exact iff_of_false (by simp) (hstop nodes)
      · rw [heq, htaken]
        exact ih hcap'

/-- The loop returns when it comes to no column that lacks an attribute. -/
lemma readColumns_returns_iff {schema : TableSchema} (hcap : schema.InCapacity)
    (nodes : List XmlNode) :
    (∃ q, readColumns nodes schema = .ret q) ↔
      ¬ Reaches (ColumnsTaken schema) (fun _ => LacksAttribute) nodes := by
  induction nodes generalizing schema with
  | nil => exact iff_of_true ⟨_, rfl⟩ not_reaches_nil
  | cons node nodes ih =>
      rcases readColumns_step hcap node nodes with
        ⟨hlacks, heq⟩ | ⟨hlacks, hstop, heq⟩ | ⟨schema', hlacks, hcap', htaken, heq⟩
      · rw [heq]
        refine iff_of_false (by simp) (not_not_intro ?_)
        exact reaches_cons.2 (Or.inl ⟨columnsTaken_nil.2 hcap, hlacks⟩)
      · rw [heq]
        exact iff_of_true ⟨_, rfl⟩ (not_reaches_cons hlacks hstop)
      · rw [heq, reaches_cons_iff hlacks htaken fun _ _ => Iff.rfl]
        exact ih hcap'

/-! ### Tables -/

/-- The schema of a table with no columns. -/
def noColumns : TableSchema := tableSchemaInit schemaInit schemaInit

lemma noColumns_inCapacity : noColumns.InCapacity := by
  intro isKey
  cases isKey <;> exact Nat.zero_le _

/-- The loop of `parser_read_xml_table` takes these nodes. -/
def TablesTaken (nodes : List XmlNode) : Prop :=
  ∀ node ∈ nodes, node.name = ascii "table" → ColumnsTaken noColumns node.children

/-- The node is a table, and the loop over its columns comes to one that lacks an attribute. -/
def TableLacks (node : XmlNode) : Prop :=
  node.name = ascii "table" ∧
    Reaches (ColumnsTaken noColumns) (fun _ => LacksAttribute) node.children

/-- A table is read without a fault unless its columns lack something, and it is accepted when
all of them are taken. -/
lemma parserReadTableSchema_cases (node : XmlNode) :
    ((∃ q, parserReadTableSchema node = .ret q) ↔
        ¬ Reaches (ColumnsTaken noColumns) (fun _ => LacksAttribute) node.children) ∧
      ((∃ schema, parserReadTableSchema node = .ret (some schema)) ↔
        ColumnsTaken noColumns node.children) :=
  ⟨readColumns_returns_iff noColumns_inCapacity node.children,
    readColumns_accepts_iff noColumns_inCapacity node.children⟩

lemma tablesTaken_cons {node : XmlNode} {nodes : List XmlNode} :
    TablesTaken (node :: nodes) ↔
      (node.name = ascii "table" → ColumnsTaken noColumns node.children) ∧ TablesTaken nodes :=
  List.forall_mem_cons

/-- What the loop does with its next node: it does not return, or it stops and takes no list that
begins with the node, or it goes on. -/
lemma readTables_step {schemas heap : List TableSchema} {set : VectorT ℕ}
    (hinv : SchemaSetInv schemas heap set) (node : XmlNode) (nodes : List XmlNode) :
    (TableLacks node ∧ ∀ q, readTables (node :: nodes) heap set ≠ .ret q) ∨
      (¬ TableLacks node ∧ (∀ next, ¬ TablesTaken (node :: next)) ∧
        ∃ q, readTables (node :: nodes) heap set = .ret q) ∨
      ∃ schemas' heap' set', ¬ TableLacks node ∧ SchemaSetInv schemas' heap' set' ∧
        (∀ next, TablesTaken (node :: next) ↔ TablesTaken next) ∧
        readTables (node :: nodes) heap set = readTables nodes heap' set' := by
  rw [readTables]
  by_cases hname : node.name = ascii "table"
  · rw [if_pos hname]
    obtain ⟨hreturns, haccepts⟩ := parserReadTableSchema_cases node
    by_cases hlacks : TableLacks node
    · refine Or.inl ⟨hlacks, fun q hq => ?_⟩
      obtain ⟨schema?, hread, -⟩ := Outcome.bind_eq_ret.1 hq
      exact hreturns.1 ⟨schema?, hread⟩ hlacks.2
    · obtain ⟨schema?, hread⟩ := hreturns.2 fun h => hlacks ⟨hname, h⟩
      rw [hread, Outcome.ret_bind]
      rw [hread] at haccepts
      cases schema? with
      | none =>
          refine Or.inr (Or.inl ⟨hlacks, fun next h => ?_, _, rfl⟩)
          have := haccepts.2 ((tablesTaken_cons.1 h).1 hname)
          simp at this
      | some schema =>
          obtain ⟨set', hadd, hinv'⟩ := schemaSetAdd_inv schema hinv
          simp only [hadd, Outcome.ret_bind, reduceCtorEq, if_false]
          refine Or.inr (Or.inr ⟨_, _, set', hlacks, hinv', fun next => ?_, rfl⟩)
          rw [tablesTaken_cons]
          exact and_iff_right fun _ => haccepts.1 ⟨schema, rfl⟩
  · rw [if_neg hname]
    refine Or.inr (Or.inr ⟨schemas, heap, set, fun h => hname h.1, hinv, fun next => ?_, rfl⟩)
    rw [tablesTaken_cons]
    exact and_iff_right fun h => absurd h hname

/-- The loop returns when it comes to no table that lacks an attribute. -/
lemma readTables_returns_iff {nodes : List XmlNode} {schemas heap : List TableSchema}
    {set : VectorT ℕ} (hinv : SchemaSetInv schemas heap set) :
    (∃ q, readTables nodes heap set = .ret q) ↔
      ¬ Reaches TablesTaken (fun _ => TableLacks) nodes := by
  induction nodes generalizing schemas heap set with
  | nil => exact iff_of_true ⟨_, rfl⟩ not_reaches_nil
  | cons node nodes ih =>
      rcases readTables_step hinv node nodes with
        ⟨hlacks, hno⟩ | ⟨hlacks, hstop, hret⟩ | ⟨schemas', heap', set', hlacks, hinv', htaken, heq⟩
      · refine iff_of_false (not_exists.2 hno) (not_not_intro ?_)
        exact reaches_cons.2 (Or.inl ⟨by simp [TablesTaken], hlacks⟩)
      · exact iff_of_true hret (not_reaches_cons hlacks hstop)
      · rw [heq, reaches_cons_iff hlacks htaken fun _ _ => Iff.rfl]
        exact ih hinv'

/-! ### Servers -/

/-- The address and the port are accepted, and together they are too long for `server_init`,
which returns `NULL`. -/
def NameTooLong (node : XmlNode) : Prop :=
  ∃ ip portStr, node.getProp (ascii "ip") = some ip ∧ node.getProp (ascii "port") = some portStr ∧
    verifyIp ip = .succeed ∧ verifyPort (atoi portStr) = .succeed ∧
    maxServerNameLen < (serverName ip (atoi portStr)).length

lemma readServerNode_null {node : XmlNode} {type : ServerType} :
    readServerNode node type = some none ↔ NameTooLong node := by
  simp only [readServerNode, Option.bind_eq_bind, Option.bind_eq_some_iff]
  constructor
  · rintro ⟨ip, hip, portStr, hport, h⟩
    refine ⟨ip, portStr, hip, hport, ?_⟩
    cases hvip : verifyIp ip with
    | failed => simp [hvip] at h
    | succeed =>
        cases hvport : verifyPort (atoi portStr) with
        | failed => simp [hvip, hvport] at h
        | succeed =>
            simp only [hvip, hvport, reduceCtorEq, if_false, Option.some.injEq, serverInit] at h
            split at h
            · rename_i hlong
              exact ⟨rfl, rfl, hlong⟩
            · simp at h
  · rintro ⟨ip, portStr, hip, hport, hvip, hvport, hlong⟩
    refine ⟨ip, hip, portStr, hport, ?_⟩
    simp only [hvip, hvport, reduceCtorEq, if_false, serverInit, hlong, if_true]

/-- The loop of `parser_read_xml_server` takes these nodes: each of them is read as a server, and
no two of one type have the same name, also with the servers `l` that are there before. -/
def ServersTaken (l : List CqServer) (nodes : List XmlNode) : Prop :=
  ∃ ss, List.Forall₂ ReadsServer nodes ss ∧
    ∀ type, ((ofType type (l ++ ss)).map CqServer.name).Nodup

/-- A node of another name behind a server, and a server whose name is too long. -/
def BreaksServers (freed : Bool) (before : List XmlNode) (node : XmlNode) : Prop :=
  match serverTypeOf node.name with
  | none => freed = true ∨ before ≠ []
  | some _ => NameTooLong node

lemma ReadsServer.unique {node : XmlNode} {s s' : CqServer} (h : ReadsServer node s)
    (h' : ReadsServer node s') : s = s' := by
  obtain ⟨type, htype, hread⟩ := h
  obtain ⟨type', htype', hread'⟩ := h'
  obtain rfl := Option.some.inj (htype.symm.trans htype')
  simpa using hread.symm.trans hread'

lemma serversTaken_cons {l : List CqServer} {node : XmlNode} {s : CqServer}
    (h : ReadsServer node s) (nodes : List XmlNode) :
    ServersTaken l (node :: nodes) ↔ ServersTaken (l ++ [s]) nodes := by
  constructor
  · rintro ⟨ss, hreads, hnodup⟩
    obtain ⟨s', ss', hs', hreads', rfl⟩ := List.forall₂_cons_left_iff.1 hreads
    obtain rfl := h.unique hs'
    exact ⟨ss', hreads', by simpa using hnodup⟩
  · rintro ⟨ss, hreads, hnodup⟩
    exact ⟨s :: ss, List.Forall₂.cons h hreads, by simpa using hnodup⟩

/-- A server with the name of one that is there is not taken. -/
lemma not_serversTaken_of_mem {l : List CqServer} {node : XmlNode} {s : CqServer}
    (h : ReadsServer node s) (hmem : s.name ∈ (ofType s.type l).map CqServer.name)
    (nodes : List XmlNode) : ¬ ServersTaken l (node :: nodes) := by
  rintro ⟨ss, hreads, hnodup⟩
  obtain ⟨s', ss', hs', -, rfl⟩ := List.forall₂_cons_left_iff.1 hreads
  obtain rfl := h.unique hs'
  have hty := hnodup s.type
  rw [ofType, List.filter_append, List.filter_cons_of_pos (by simp)] at hty
  exact name_notMem_of_nodup hty hmem

variable {probe : Bytes → UInt64 → UInt64} {fuel : ℕ}

/-- The servers that are in the cluster have different names. -/
lemma ClusterInv.nodup {l : List CqServer} {cluster : CqServerCluster}
    (h : ClusterInv probe l cluster) (type : ServerType) :
    ((ofType type l).map CqServer.name).Nodup := by
  cases type with
  | write => exact h.write.nodup_keys
  | read => exact h.read.nodup_keys

lemma ClusterInv.taken {l : List CqServer} {cluster : CqServerCluster}
    (h : ClusterInv probe l cluster) : ServersTaken l [] :=
  ⟨[], List.Forall₂.nil, fun type => by simpa using h.nodup type⟩

/-- The first node of a loop breaks it when the round for it is a fault. -/
lemma breaksServers_nil {freed : Bool} {node : XmlNode} :
    BreaksServers freed [] node ↔ ServerFaults freed node := by
  rw [BreaksServers, ServerFaults]
  cases serverTypeOf node.name with
  | none => simp
  | some type => exact readServerNode_null.symm

lemma ReadsServer.not_breaks {node : XmlNode} {s : CqServer} (h : ReadsServer node s)
    (freed : Bool) : ¬ BreaksServers freed [] node := by
  obtain ⟨type, htype, hread⟩ := h
  rw [breaksServers_nil, ServerFaults, htype]
  simp [hread]

/-- A node that is read as no server is not taken. -/
lemma not_serversTaken_of_reads {l : List CqServer} {node : XmlNode}
    (h : ∀ s, ¬ ReadsServer node s) (nodes : List XmlNode) : ¬ ServersTaken l (node :: nodes) := by
  rintro ⟨ss, hreads, -⟩
  obtain ⟨s, -, hs, -⟩ := List.forall₂_cons_left_iff.1 hreads
  exact h s hs

/-- What the loop does with its next node: it faults, or it stops and takes no list that begins
with the node, or it goes on with one more server in the cluster.  The only other way out of
probe loops that end is the failed allocation of a table for `2 ^ 29` servers. -/
lemma readServers_step {node : XmlNode} {nodes : List XmlNode} {l : List CqServer}
    {cluster : CqServerCluster} {freed : Bool} (hinv : ClusterInv probe l cluster)
    (hloops : readServers probe fuel freed (node :: nodes) cluster ≠ .spin) :
    (BreaksServers freed [] node ∧ readServers probe fuel freed (node :: nodes) cluster = .fault) ∨
      (¬ BreaksServers freed [] node ∧ (∀ next, ¬ ServersTaken l (node :: next)) ∧
        ∃ q, readServers probe fuel freed (node :: nodes) cluster = .ret q) ∨
      (∃ s cluster', ReadsServer node s ∧ ClusterInv probe (l ++ [s]) cluster' ∧
        readServers probe fuel freed (node :: nodes) cluster
          = readServers probe fuel true nodes cluster') ∨
      readServers probe fuel freed (node :: nodes) cluster = .abort ∧ 2 ^ 29 ≤ l.length + 1 := by
  by_cases hreads : ∃ s, ReadsServer node s
  · obtain ⟨s, hs⟩ := hreads
    have hadd := cqClusterAdd_meets fuel hinv hs.made.1
    rw [readServers_cons hs] at hloops ⊢
    -- what `cq_cluster_add` does with the server
    rcases hrun : cqClusterAdd probe fuel cluster (some s) with ⟨ret, cluster'⟩ | _ | _ | _
    · rw [hrun] at hadd
      rcases hadd with ⟨rfl, -, hinv'⟩ | ⟨rfl, hold, -⟩
      · exact Or.inr (Or.inr (Or.inl ⟨s, cluster', hs, hinv', rfl⟩))
      · exact Or.inr (Or.inl ⟨hs.not_breaks freed, not_serversTaken_of_mem hs hold, _, rfl⟩)
    · rw [hrun] at hloops
      exact absurd rfl hloops
    · rw [hrun] at hadd
      have hlen : (ofType s.type l).length ≤ l.length := List.length_filter_le _ _
      have hbig := le_of_not_fits hadd
      exact Or.inr (Or.inr (Or.inr ⟨rfl, by omega⟩))
    · rw [hrun] at hadd
      exact hadd.elim
  · have hother := not_exists.1 hreads
    rw [breaksServers_nil]
    rcases readServers_cons_other hother nodes cluster freed with ⟨hfaults, heq⟩ | ⟨hfaults, heq⟩
    · exact Or.inl ⟨hfaults, heq⟩
    · exact Or.inr (Or.inl ⟨hfaults, not_serversTaken_of_reads hother, _, heq⟩)

/-- The loop returns when it comes to no node that breaks it. -/
lemma readServers_returns_iff {nodes : List XmlNode} {l : List CqServer}
    {cluster : CqServerCluster} {freed : Bool} (hinv : ClusterInv probe l cluster)
    (hloops : readServers probe fuel freed nodes cluster ≠ .spin) :
    ((∃ q, readServers probe fuel freed nodes cluster = .ret q) ↔
        ¬ Reaches (ServersTaken l) (BreaksServers freed) nodes) ∨
      readServers probe fuel freed nodes cluster = .abort ∧
        2 ^ 29 ≤ l.length + nodes.length := by
  induction nodes generalizing l cluster freed with
  | nil => exact Or.inl (iff_of_true ⟨_, rfl⟩ not_reaches_nil)
  | cons node nodes ih =>
      rcases readServers_step hinv hloops with
        ⟨hbreaks, heq⟩ | ⟨hbreaks, hstop, hret⟩ | ⟨s, cluster', hs, hinv', heq⟩ | ⟨habort, hlen⟩
      · rw [heq]
        refine Or.inl (iff_of_false (by simp) (not_not_intro ?_))
        exact reaches_cons.2 (Or.inl ⟨hinv.taken, hbreaks⟩)
      · exact Or.inl (iff_of_true hret (not_reaches_cons hbreaks hstop))
      · rw [heq] at hloops ⊢
        -- behind a server the two strings have been freed
        have hfreed : ∀ before y, BreaksServers freed (node :: before) y ↔
            BreaksServers true before y := by
          intro before y
          simp [BreaksServers]
        rw [reaches_cons_iff (hs.not_breaks freed) (serversTaken_cons hs) hfreed]
        have hlen : l.length + (node :: nodes).length = (l ++ [s]).length + nodes.length := by
          simp only [List.length_append, List.length_cons, List.length_nil]
          omega
        rw [hlen]
        exact ih hinv' hloops
      · refine Or.inr ⟨habort, ?_⟩
        rw [List.length_cons]
        omega

/-! ### Commands -/

/-- The commands need no attribute. -/
lemma parserReadCmdList_returns (nodes : List XmlNode) {ps : List ℕ} {cmds : List UInt32}
    {l : CmdList} (hinv : CmdListInv ps cmds l) :
    ∃ ret l' ps' cmds', parserReadCmdList nodes l = .ret (ret, l') ∧ CmdListInv ps' cmds' l' := by
  induction nodes generalizing ps cmds l with
  | nil => exact ⟨.succeed, l, ps, cmds, rfl, hinv⟩
  | cons node nodes ih =>
      rw [parserReadCmdList]
      cases cmdTypeOf node.name with
      | none => exact ⟨.failed, l, ps, cmds, rfl, hinv⟩
      | some type =>
          obtain ⟨l₁, ps₁, hadd, hinv₁⟩ := cmdListAdd_inv hinv type.code
          simp only [hadd, Outcome.ret_bind, reduceCtorEq, if_false]
          exact ih hinv₁

lemma readCmds_returns {nodes : List XmlNode} {cmdLists : List (List UInt32)}
    {bucket : VectorT CmdList} (hinv : BucketInv cmdLists bucket) :
    ∃ q, readCmds nodes bucket = .ret q := by
  induction nodes generalizing cmdLists bucket with
  | nil => exact ⟨_, rfl⟩
  | cons node nodes ih =>
      rw [readCmds]
      split
      · obtain ⟨ret, l, ps, cmds, hlist, hl⟩ :=
          parserReadCmdList_returns node.children cmdListInit_inv
        rw [hlist, Outcome.ret_bind]
        cases ret with
        | failed => exact ⟨_, rfl⟩
        | succeed =>
            obtain ⟨bucket₁, hadd, hinv₁⟩ := cmdBucketAdd_inv hinv hl
            simp only [hadd, Outcome.ret_bind, reduceCtorEq, if_false]
            exact ih hinv₁
      · exact ih hinv

/-! ### The three readers -/

/-- The nodes of the first section of a name. -/
def XmlNode.sectionNodes (root : XmlNode) (name : Bytes) : List XmlNode :=
  match root.children.find? (·.name = name) with
  | none => []
  | some node => node.children

/-- The loop that looks for a section faults, or there is none, or it finds it. -/
lemma findSection_cases (root : XmlNode) (name : Bytes) :
    (root.children = [] ∧ findSection name root.children = .fault) ∨
      root.children ≠ [] ∧
        (findSection name root.children = .ret none ∧ root.sectionNodes name = [] ∨
          ∃ node, findSection name root.children = .ret (some node) ∧
            root.sectionNodes name = node.children) := by
  by_cases hchildren : root.children = []
  · rw [hchildren]
    exact Or.inl ⟨rfl, rfl⟩
  · rw [findSection_find? hchildren, XmlNode.sectionNodes]
    cases root.children.find? (·.name = name) with
    | none => exact Or.inr ⟨hchildren, Or.inl ⟨rfl, rfl⟩⟩
    | some node => exact Or.inr ⟨hchildren, Or.inr ⟨node, rfl, rfl⟩⟩

lemma parserReadXmlServer_returns_iff {root : XmlNode} {l : List CqServer}
    {cluster : CqServerCluster} (hinv : ClusterInv probe l cluster)
    (hloops : parserReadXmlServer probe fuel root cluster ≠ .spin) :
    ((∃ q, parserReadXmlServer probe fuel root cluster = .ret q) ↔
        root.children ≠ [] ∧ ¬ Reaches (ServersTaken l) (BreaksServers false)
          (root.sectionNodes (ascii "servers"))) ∨
      parserReadXmlServer probe fuel root cluster = .abort ∧
        2 ^ 29 ≤ l.length + (root.sectionNodes (ascii "servers")).length := by
  rw [parserReadXmlServer] at hloops ⊢
  rcases findSection_cases root (ascii "servers") with
    ⟨hnil, hfind⟩ | ⟨hchildren, ⟨hfind, hnodes⟩ | ⟨node, hfind, hnodes⟩⟩
  · rw [hfind]
    exact Or.inl (iff_of_false (by simp) fun h => h.1 hnil)
  · rw [hfind, hnodes]
    exact Or.inl (iff_of_true ⟨_, rfl⟩ ⟨hchildren, not_reaches_nil⟩)
  · rw [hfind] at hloops ⊢
    rw [hnodes, and_iff_right hchildren]
    exact readServers_returns_iff hinv hloops

lemma parserReadXmlCmd_returns_iff (root : XmlNode) {cmdLists : List (List UInt32)}
    {bucket : VectorT CmdList} (hinv : BucketInv cmdLists bucket) :
    (∃ q, parserReadXmlCmd root bucket = .ret q) ↔ root.children ≠ [] := by
  rw [parserReadXmlCmd]
  rcases findSection_cases root (ascii "cmds") with
    ⟨hnil, hfind⟩ | ⟨hchildren, ⟨hfind, -⟩ | ⟨node, hfind, -⟩⟩
  · rw [hfind]
    exact iff_of_false (by simp) fun h => h hnil
  · rw [hfind]
    exact iff_of_true ⟨_, rfl⟩ hchildren
  · rw [hfind]
    exact iff_of_true (readCmds_returns hinv) hchildren

lemma parserReadXmlTable_returns_iff (root : XmlNode) {schemas heap : List TableSchema}
    {set : VectorT ℕ} (hinv : SchemaSetInv schemas heap set) :
    (∃ q, parserReadXmlTable root heap set = .ret q) ↔
      root.children ≠ [] ∧ ¬ Reaches TablesTaken (fun _ => TableLacks)
        (root.sectionNodes (ascii "tables")) := by
  rw [parserReadXmlTable]
  rcases findSection_cases root (ascii "tables") with
    ⟨hnil, hfind⟩ | ⟨hchildren, ⟨hfind, hnodes⟩ | ⟨node, hfind, hnodes⟩⟩
  · rw [hfind]
    exact iff_of_false (by simp) fun h => h.1 hnil
  · rw [hfind, hnodes]
    exact iff_of_true ⟨_, rfl⟩ ⟨hchildren, not_reaches_nil⟩
  · rw [hfind, hnodes, and_iff_right hchildren]
    exact readTables_returns_iff hinv

/-- The three readers return, with `RET_SUCCEED` or with `RET_FAILED`. -/
def XmlReadersReturn (probe : Bytes → UInt64 → UInt64) (fuel : ℕ) (root : XmlNode)
    (stores : Stores) : Prop :=
  (∃ q, parserReadXmlServer probe fuel root stores.clusterBase = .ret q) ∧
    (∃ q, parserReadXmlCmd root stores.cmdBucket = .ret q) ∧
    ∃ q, parserReadXmlTable root stores.schemaHeap stores.schemaSet = .ret q

/-- The root has a child, and the loops over the servers and the tables come to no node that
lacks what they need. -/
structure NothingMissing (servers : List CqServer) (root : XmlNode) : Prop where
  children : root.children ≠ []
  servers : ¬ Reaches (ServersTaken servers) (BreaksServers false)
    (root.sectionNodes (ascii "servers"))
  tables : ¬ Reaches TablesTaken (fun _ => TableLacks) (root.sectionNodes (ascii "tables"))

/-- **When the XML parser follows no null.**  Over stores with any contents, and with probe loops
that end, the three readers return for an element tree exactly when nothing is missing in it. -/
theorem xml_readers_return_iff (probe : Bytes → UInt64 → UInt64) (fuel : ℕ) (root : XmlNode)
    (servers : List CqServer) (cmdLists : List (List UInt32)) (schemas : List TableSchema)
    (stores : Stores) (hinv : StoresInv probe servers cmdLists schemas stores)
    (hloops : parserReadXmlServer probe fuel root stores.clusterBase ≠ .spin) :
    (XmlReadersReturn probe fuel root stores ↔ NothingMissing servers root) ∨
      parserReadXmlServer probe fuel root stores.clusterBase = .abort ∧
        2 ^ 29 ≤ servers.length + (root.sectionNodes (ascii "servers")).length := by
  have hcmds := parserReadXmlCmd_returns_iff root hinv.bucket
  have htables := parserReadXmlTable_returns_iff root hinv.schemaSet
  rcases parserReadXmlServer_returns_iff hinv.cluster hloops with hservers | habort
  · refine Or.inl ?_
    rw [XmlReadersReturn, hservers, hcmds, htables]
    constructor
    · rintro ⟨⟨hchildren, hs⟩, -, -, ht⟩
      exact ⟨hchildren, hs, ht⟩
    · rintro ⟨hchildren, hs, ht⟩
      exact ⟨⟨hchildren, hs⟩, hchildren, hchildren, ht⟩
  · exact Or.inr habort

/-- A document with one server.  The loop over the columns of its table stops at the column of
the type `float` and does not come to the one without attributes. -/
theorem xml_readers_return_iff_stopped :
    XmlReadersReturn (hashFunc true) 100 (.mk (ascii "config") [] [.mk (ascii "servers") []
        [.mk (ascii "write") [(ascii "ip", ascii "10.0.0.1"), (ascii "port", ascii "3306")] []],
      .mk (ascii "tables") [] [.mk (ascii "table") []
        [.mk (ascii "key") [(ascii "name", ascii "id"), (ascii "type", ascii "bigint")] [],
          .mk (ascii "column") [(ascii "type", ascii "float")] [],
          .mk (ascii "column") [] []]]]) Stores.init ↔
      NothingMissing [] (.mk (ascii "config") [] [.mk (ascii "servers") []
        [.mk (ascii "write") [(ascii "ip", ascii "10.0.0.1"), (ascii "port", ascii "3306")] []],
      .mk (ascii "tables") [] [.mk (ascii "table") []
        [.mk (ascii "key") [(ascii "name", ascii "id"), (ascii "type", ascii "bigint")] [],
          .mk (ascii "column") [(ascii "type", ascii "float")] [],
          .mk (ascii "column") [] []]]]) :=
  (xml_readers_return_iff (hashFunc true) 100 _ [] [] [] Stores.init
    ⟨cqClusterInit_inv, bucketInv_init, schemaSetInv_init, [], HashHolds.alloc⟩
    (by decide +kernel)).resolve_right fun h => absurd h.2 (by decide +kernel)

/-- A root without children has no first child whose name could be read, and a column without a
type is an absent string for `strcmp`. -/
theorem xml_readers_fault :
    parserReadXmlServer (hashFunc true) 100 (.mk (ascii "config") [] []) Stores.init.clusterBase
        = .fault ∧
      ¬ XmlReadersReturn (hashFunc true) 100 (.mk (ascii "config") [] []) Stores.init ∧
      ¬ XmlReadersReturn (hashFunc true) 100 (.mk (ascii "config") [] [.mk (ascii "tables") []
        [.mk (ascii "table") [] [.mk (ascii "key") [(ascii "name", ascii "id")] []]]])
        Stores.init := by
  refine ⟨rfl, ?_, ?_⟩
  · rintro ⟨⟨q, hq⟩, -⟩
    have hfault : parserReadXmlServer (hashFunc true) 100 (.mk (ascii "config") [] [])
      Stores.init.clusterBase = .fault := rfl
    simp [hfault] at hq
  · rintro ⟨-, -, q, hq⟩
    have hfault : parserReadXmlTable (.mk (ascii "config") [] [.mk (ascii "tables") []
        [.mk (ascii "table") [] [.mk (ascii "key") [(ascii "name", ascii "id")] []]]])
      Stores.init.schemaHeap Stores.init.schemaSet = .fault := by decide +kernel
    simp [hfault] at hq

end CheckQ
