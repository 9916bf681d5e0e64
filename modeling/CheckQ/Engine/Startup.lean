import CheckQ.Parser.RoundTrip
import CheckQ.Parser.Txt

/-!
# From a configuration to the first round of a thread

`eng_context_init` copies the servers of `cluster_base` into a cluster of the thread, and
`eng_context_config` chooses a command list, a write server, a table and a table schema at
random.  A configuration that has been read with success may leave a store empty, and then the
choice is `NULL`: an XML file may have a section without a member, and the tables of a TXT file
go into the table set and not into the schema set.
-/

namespace CheckQ

/-- What `eng_context_init` and `eng_context_config` set in `eng_ctx_t`; `none` is the null
pointer, and an array comes with its number of entries. -/
structure EngContext where
  threadCluster : CqServerCluster
  cmdList : Fetched CmdList
  writeServer : Option CqServer
  writeServers : List CqServer × ℕ
  readServers : List CqServer × ℕ
  table : Option TableT
  tableSchema : Fetched ℕ
  tableName : Bytes
deriving DecidableEq, Repr

/-- The entries of an array, up to the number that came with it. -/
def readCells (all : List CqServer × ℕ) : Outcome (List CqServer) :=
  if all.2 ≤ all.1.length then .ret (all.1.take all.2) else .fault

variable (probe : Bytes → UInt64 → UInt64) (fuel : ℕ)

/-- The loops of `eng_context_init`: every server is made anew, and one that cannot be added
stops the process. -/
def copyServers (type : ServerType) : List CqServer → CqServerCluster → Outcome CqServerCluster
  | [], cluster => .ret cluster
  | server :: servers, cluster => do
      let (ret, cluster) ← cqClusterAdd probe fuel cluster (serverInit server.ip server.port type)
      if ret = .failed then .abort
      else copyServers type servers cluster

/-- `eng_context_init`: the context of a new thread, and `cluster_base`. -/
def engContextInit (clusterBase : CqServerCluster) : Outcome (EngContext × CqServerCluster) := do
  let (all, clusterBase) ← cqClusterGetAllWriteServer clusterBase
  let writeServers ← readCells all
  let threadCluster ← copyServers probe fuel .write writeServers cqClusterInit
  let (all, clusterBase) ← cqClusterGetAllReadServer clusterBase
  let readServers ← readCells all
  let threadCluster ← copyServers probe fuel .read readServers threadCluster
  return (⟨threadCluster, .null, none, ([], 0), ([], 0), none, .null, []⟩, clusterBase)

/-- `eng_context_config`. -/
def engContextConfig (ctx : EngContext) (stores : Stores) (r : RandStream) :
    Outcome EngContext := do
  let (cmdList, r) ← getRandomCmdList stores.cmdBucket r
  let ((writeServer, cluster), r) ← cqClusterGetRandomWriteServer ctx.threadCluster r
  let (writeServers, cluster) ← cqClusterGetAllWriteServer cluster
  let (readServers, cluster) ← cqClusterGetAllReadServer cluster
  let ((table, _), r) ← tableSetGetRandom stores.tableSet r
  let (tableSchema, r) ← schemaSetGetRandom stores.schemaSet r
  let tableName := ascii "test" ++ decimal (r.next.1 % 10000)
  return ⟨cluster, cmdList, writeServer, writeServers, readServers, table, tableSchema, tableName⟩

/-- The start of `table_thread`, up to the first `eng_context_config`. -/
def tableThreadStart (stores : Stores) (r : RandStream) : Outcome EngContext := do
  let (ctx, clusterBase) ← engContextInit probe fuel stores.clusterBase
  engContextConfig ctx { stores with clusterBase } r

/-- Whatever `rand()` returns, the first round of `table_thread` has a command list, a write
server and a table schema. -/
def Runnable (stores : Stores) : Prop :=
  ∀ r, ∃ ctx, tableThreadStart probe fuel stores r = .ret ctx ∧
    (∃ l, ctx.cmdList = .entry l) ∧ (∃ s, ctx.writeServer = some s) ∧
    ∃ p, ctx.tableSchema = .entry p

/-- A configuration: what `xmlReadFile` delivers, or the lines of a file. -/
inductive Config where
  | xml (doc : Option (Option XmlNode))
  | txt (file : Option (List Bytes))

/-- The call of `parser_read_file` for a configuration of either type. -/
def parserRead (g : Garbage) (r : RandStream) : Config → Stores → Outcome (RetT × Stores)
  | .xml doc, stores => parserReadXml probe fuel doc stores
  | .txt file, stores => parserReadTxt probe fuel g r file stores

/-- A section of the document has an element of a name. -/
def sectionHas (root : XmlNode) (name element : Bytes) : Bool :=
  match findSection name root.children with
  | .ret (some node) => node.children.any (·.name = element)
  | _ => false

/-- The configuration is an XML document with a write server, a command list and a table. -/
def Config.populated : Config → Bool
  | .xml (some (some root)) =>
      sectionHas root (ascii "servers") (ascii "write") &&
        sectionHas root (ascii "cmds") (ascii "cmd") &&
        sectionHas root (ascii "tables") (ascii "table")
  | _ => false

variable {probe fuel}

/-! ### The cluster of a thread -/

lemma copyServers_meets {type : ServerType} {es l : List CqServer} {cluster : CqServerCluster}
    (hinv : ClusterInv probe l cluster)
    (hmade : ∀ s ∈ es, serverInit s.ip s.port type = some s)
    (hnodup : ((ofType type l ++ es).map CqServer.name).Nodup)
    (hfits : ∀ i < (ofType type l ++ es).length, Fits i) :
    (copyServers probe fuel type es cluster).Meets True False (ClusterInv probe (l ++ es)) := by
  induction es generalizing l cluster with
  | nil => simpa [copyServers] using hinv
  | cons s es ih =>
      have hs := hmade s (by simp)
      obtain ⟨-, -, htype, -⟩ := serverInit_fields hs
      have hof : ofType type (l ++ [s]) = ofType type l ++ [s] := htype ▸ ofType_concat l s
      have happ : ofType type l ++ s :: es = ofType type (l ++ [s]) ++ es := by simp [hof]
      have hnew : s.name ∉ (ofType s.type l).map CqServer.name := by
        rw [htype]
        exact name_notMem_of_nodup hnodup
      rw [copyServers, hs]
      have hadd := cqClusterAdd_meets fuel hinv (htype.symm ▸ hs)
      refine (hadd.mono (fun hno => hno (hfits _ ?_)) fun _ => id).bind ?_
      · rw [htype, List.length_append, List.length_cons]
        omega
      · rintro ⟨ret, cluster'⟩ (⟨rfl, -, hinv'⟩ | ⟨-, hold, -⟩)
        · have hrest := ih hinv' (fun t ht => hmade t (List.mem_cons_of_mem _ ht))
            (happ ▸ hnodup) (happ ▸ hfits)
          simpa using hrest
        · exact absurd hold hnew

lemma readCells_eq (l : List CqServer) : readCells (l, l.length) = .ret l := by
  simp [readCells]

lemma ofType_of_forall {type : ServerType} {l : List CqServer} (h : ∀ s ∈ l, s.type = type) :
    ofType type l = l :=
  List.filter_eq_self.2 fun s hs => by simp [h s hs]

lemma ofType_of_forall_ne {type : ServerType} {l : List CqServer} (h : ∀ s ∈ l, s.type ≠ type) :
    ofType type l = [] :=
  List.filter_eq_nil_iff.2 fun s hs => by simp [h s hs]

/-- The thread gets a copy of the servers of `cluster_base`. -/
lemma engContextInit_meets (fuel : ℕ) {l : List CqServer} {base : CqServerCluster}
    (h : ClusterInv probe l base) :
    (engContextInit probe fuel base).Meets True False fun q =>
      (∃ l', ClusterInv probe l' q.1.threadCluster ∧
        ∀ type, (ofType type l').Perm (ofType type l)) ∧ q.2 = base := by
  obtain ⟨ws, hws, hwperm⟩ := h.write.getEntries
  obtain ⟨rs, hrs, hrperm⟩ := h.read.getEntries
  have htype : ∀ type s, s ∈ ofType type l → s.type = type := fun type s hs =>
    of_decide_eq_true (List.mem_filter.1 hs).2
  have hwt : ∀ s ∈ ws, s.type = .write := fun s hs => htype _ s (hwperm.mem_iff.1 hs)
  have hrt : ∀ s ∈ rs, s.type = .read := fun s hs => htype _ s (hrperm.mem_iff.1 hs)
  have hmade : ∀ type s, s ∈ ofType type l → serverInit s.ip s.port type = some s := by
    intro type s hs
    have := h.made s (List.mem_of_mem_filter hs)
    rwa [htype type s hs] at this
  have hofw : ofType .write ws = ws := ofType_of_forall hwt
  have hofr : ofType .read ws = [] := ofType_of_forall_ne fun s hs => by simp [hwt s hs]
  simp only [engContextInit, cqClusterGetAllWriteServer, cqClusterGetAllReadServer, hws, hrs,
    Outcome.ret_bind, Outcome.pure_eq, readCells_eq]
  refine Outcome.Meets.bind (P := ClusterInv probe ws) ?_ fun cluster hcluster => ?_
  · refine copyServers_meets cqClusterInit_inv
      (fun s hs => hmade _ s (hwperm.mem_iff.1 hs)) ?_ fun i hi => h.write.fits ?_
    · simpa [ofType] using (hwperm.map _).nodup_iff.2 h.write.nodup_keys
    · simpa [ofType, hwperm.length_eq] using hi
  · refine Outcome.Meets.bind (P := ClusterInv probe (ws ++ rs)) ?_ fun cluster hcluster => ?_
    · refine copyServers_meets hcluster
        (fun s hs => hmade _ s (hrperm.mem_iff.1 hs)) ?_ fun i hi => h.read.fits ?_
      · simpa [hofr] using (hrperm.map _).nodup_iff.2 h.read.nodup_keys
      · simpa [hofr, hrperm.length_eq] using hi
    · refine ⟨⟨ws ++ rs, hcluster, fun type => ?_⟩, rfl⟩
      cases type with
      | write =>
          rw [ofType, List.filter_append, ← ofType, hofw, ← ofType,
            ofType_of_forall_ne fun s hs => by simp [hrt s hs], List.append_nil]
          exact hwperm
      | read =>
          rw [ofType, List.filter_append, ← ofType, hofr, ← ofType, ofType_of_forall hrt]
          exact hrperm

/-- The addresses and ports of the servers in a table of a cluster. -/
def endpoints (servers : HashT CqServer) : List (Bytes × Int) :=
  (Probing.live servers.elements).map fun s => (s.ip, s.port)

/-- Servers with different names have different addresses or ports. -/
lemma nodup_endpoints {l : List CqServer} {servers : HashT CqServer}
    (h : HashHolds CqServer.name probe l servers)
    (hmade : ∀ s ∈ l, serverInit s.ip s.port s.type = some s) : (endpoints servers).Nodup := by
  have hperm : (endpoints servers).Perm (l.map fun s => (s.ip, s.port)) := h.perm.map _
  have hname : (l.map fun s => (s.ip, s.port)).map (fun e => serverName e.1 e.2)
      = l.map CqServer.name := by
    rw [List.map_map]
    refine List.map_congr_left fun s hs => ?_
    exact (serverInit_fields (hmade s hs)).2.2.2.symm
  exact hperm.nodup_iff.2 (List.Nodup.of_map _ (hname ▸ h.nodup_keys))

/-- **Thread clusters are copies.**  For every `cluster_base` that a sequence of calls of
`cq_cluster_add` has built, `eng_context_init` returns, if its probe loops end, and the write
set and the read set of the thread hold the addresses and ports of the sets of `cluster_base`,
each of them once. -/
theorem engContextInit_copies (probe : Bytes → UInt64 → UInt64) (fuel₀ fuel : ℕ)
    (calls : List ClusterCall) (rs : List RetT) (base : CqServerCluster)
    (hbuilt : runOps (clusterStep probe fuel₀) calls cqClusterInit = .ret (rs, base))
    (hloops : engContextInit probe fuel base ≠ .spin) :
    ∃ ctx, engContextInit probe fuel base = .ret (ctx, base) ∧
      ((endpoints ctx.threadCluster.writeServers).Nodup ∧
        (endpoints ctx.threadCluster.writeServers).Perm (endpoints base.writeServers)) ∧
      ((endpoints ctx.threadCluster.readServers).Nodup ∧
        (endpoints ctx.threadCluster.readServers).Perm (endpoints base.readServers)) := by
  obtain ⟨l, hbase⟩ := clusterInv_of_run hbuilt
  have hinit := (engContextInit_meets fuel hbase).exists_ret_or_abort hloops
  obtain ⟨⟨ctx, base'⟩, hctx, ⟨l', hcluster, hperm⟩, hsame⟩ := hinit.resolve_right fun h => h.2
  obtain rfl : base' = base := hsame
  have hmade : ∀ type, ∀ s ∈ ofType type l', serverInit s.ip s.port s.type = some s :=
    fun type s hs => hcluster.made s (List.mem_of_mem_filter hs)
  have hcopy : ∀ {type : ServerType} {h h' : HashT CqServer},
      HashHolds CqServer.name probe (ofType type l') h' →
      HashHolds CqServer.name probe (ofType type l) h → (endpoints h').Perm (endpoints h) := by
    intro type h h' hh' hh
    exact ((hh'.perm.trans (hperm type)).trans hh.perm.symm).map _
  exact ⟨ctx, hctx,
    ⟨nodup_endpoints hcluster.write (hmade _), hcopy hcluster.write hbase.write⟩,
    ⟨nodup_endpoints hcluster.read (hmade _), hcopy hcluster.read hbase.read⟩⟩

/-- A write server, the same server for reading, a second one that reads, and it once more. -/
def replicaCalls : List ClusterCall :=
  [⟨ascii "10.1.150.1", 3306, .write⟩, ⟨ascii "10.1.150.1", 3306, .read⟩,
    ⟨ascii "10.1.150.2", 3306, .read⟩, ⟨ascii "10.1.150.2", 3306, .read⟩]

theorem engContextInit_copies_replicas :
    ∃ rs base ctx, runOps (clusterStep (hashFunc true) 100) replicaCalls cqClusterInit
        = .ret (rs, base) ∧
      engContextInit (hashFunc true) 100 base = .ret (ctx, base) ∧
      (endpoints ctx.threadCluster.readServers).Nodup ∧
      (endpoints ctx.threadCluster.readServers).Perm (endpoints base.readServers) := by
  have hrun : (runOps (clusterStep (hashFunc true) 100) replicaCalls cqClusterInit >>= fun q =>
      engContextInit (hashFunc true) 100 q.2 >>= fun _ => pure q.1)
        = .ret [.succeed, .succeed, .succeed, .failed] := by decide +kernel
  obtain ⟨⟨rs, base⟩, hbuilt, hrun⟩ := Outcome.bind_eq_ret.1 hrun
  obtain ⟨ctx, hctx, -⟩ := Outcome.bind_eq_ret.1 hrun
  have hloops : engContextInit (hashFunc true) 100 base ≠ .spin := by
    intro hspin
    rw [hspin] at hctx
    exact absurd hctx (by simp)
  obtain ⟨ctx, hinit, -, hread⟩ :=
    engContextInit_copies (hashFunc true) 100 100 replicaCalls rs base hbuilt hloops
  exact ⟨rs, base, ctx, hbuilt, hinit, hread⟩

/-! ### The choices of a round -/

lemma engContextConfig_meets {l : List CqServer} {ls : List CmdList} {ptrs : List ℕ}
    {tables : List TableT} {ctx : EngContext} {stores : Stores}
    (hcluster : ClusterInv probe l ctx.threadCluster) (hbucket : VectorInv ls stores.cmdBucket)
    (hset : VectorInv ptrs stores.schemaSet)
    (htables : HashHolds TableT.name probe tables stores.tableSet) (r : RandStream) :
    (engContextConfig ctx stores r).Meets False False fun ctx' =>
      Picked .null .entry ls ctx'.cmdList ∧ Picked none some (ofType .write l) ctx'.writeServer ∧
        Picked .null .entry ptrs ctx'.tableSchema := by
  obtain ⟨ws, hws, -⟩ := hcluster.write.getEntries
  obtain ⟨rs, hrs, -⟩ := hcluster.read.getEntries
  rw [engContextConfig]
  refine (vectorGetRandom_meets hbucket r).bind ?_
  rintro ⟨cmdList, r⟩ hcmd
  refine (cqClusterGetRandomWriteServer_meets hcluster r).bind ?_
  rintro ⟨⟨writeServer, cluster⟩, r⟩ ⟨hwrite, hsame⟩
  obtain rfl : cluster = ctx.threadCluster := hsame
  simp only [cqClusterGetAllWriteServer, cqClusterGetAllReadServer, hws, hrs, Outcome.ret_bind,
    Outcome.pure_eq]
  refine (hashGetRandom_meets htables r).bind ?_
  rintro ⟨⟨table, tableSet⟩, r⟩ -
  refine (vectorGetRandom_meets hset r).bind ?_
  rintro ⟨tableSchema, r⟩ hschema
  exact ⟨hcmd, hwrite, hschema⟩

/-- The first round can be run when none of the three stores is empty. -/
lemma runnable_iff {servers : List CqServer} {cmdLists : List (List UInt32)}
    {schemas : List TableSchema} {s : Stores} (h : StoresInv probe servers cmdLists schemas s)
    (hloops : engContextInit probe fuel s.clusterBase ≠ .spin) :
    Runnable probe fuel s ↔ ofType .write servers ≠ [] ∧ cmdLists ≠ [] ∧ schemas ≠ [] := by
  obtain ⟨hbase, ⟨ls, hbucket, hls⟩, ⟨ptrs, hset, hptrs⟩, tables, htables⟩ := h
  have hinit := (engContextInit_meets fuel hbase).exists_ret_or_abort hloops
  obtain ⟨⟨ctx, base⟩, hctx, ⟨l, hcluster, hperm⟩, rfl⟩ := hinit.resolve_right fun h => h.2
  have hlists : cmdLists = [] ↔ ls = [] := by
    rw [← List.length_eq_zero_iff, hls.length_eq, List.length_eq_zero_iff]
  have hschemas : schemas = [] ↔ ptrs = [] := by
    rw [← List.length_eq_zero_iff, hptrs.length_eq, List.length_eq_zero_iff]
  have hwrites : ofType .write servers = [] ↔ ofType .write l = [] := by
    rw [← List.length_eq_zero_iff, ← (hperm .write).length_eq, List.length_eq_zero_iff]
  rw [ne_eq, ne_eq, ne_eq, hlists, hschemas, hwrites]
  have hstart : ∀ r, ∃ ctx', tableThreadStart probe fuel s r = .ret ctx' ∧
      Picked .null .entry ls ctx'.cmdList ∧ Picked none some (ofType .write l) ctx'.writeServer ∧
        Picked .null .entry ptrs ctx'.tableSchema := by
    intro r
    rw [tableThreadStart, hctx, Outcome.ret_bind]
    exact (engContextConfig_meets hcluster hbucket hset htables r).exists_ret
  constructor
  · intro hrun
    obtain ⟨ctx₁, h₁, hcmd, hwrite, hschema⟩ := hstart fun _ => 0
    obtain ⟨ctx₂, h₂, hc, hw, hs⟩ := hrun fun _ => 0
    obtain rfl : ctx₁ = ctx₂ := Outcome.ret.inj (h₁.symm.trans h₂)
    exact ⟨(hwrite.exists_iff (by simp)).1 hw, (hcmd.exists_iff (by simp)).1 hc,
      (hschema.exists_iff (by simp)).1 hs⟩
  · rintro ⟨hw, hc, hs⟩ r
    obtain ⟨ctx, hctx, hcmd, hwrite, hschema⟩ := hstart r
    exact ⟨ctx, hctx, (hcmd.exists_iff (by simp)).2 hc, (hwrite.exists_iff (by simp)).2 hw,
      (hschema.exists_iff (by simp)).2 hs⟩

/-! ### XML documents -/

lemma ne_nil_iff_any {β : Type} {R : XmlNode → β → Prop} {name : Bytes} {nodes : List XmlNode}
    {l : List β} (h : List.Forall₂ R (nodesNamed name nodes) l) :
    l ≠ [] ↔ (nodes.any fun n => n.name = name) = true := by
  rw [ne_eq, ← List.length_eq_zero_iff, ← h.length_eq, List.length_eq_zero_iff, nodesNamed,
    List.filter_eq_nil_iff, List.any_eq_true]
  push Not
  rfl

lemma ofType_write_ne_nil_iff {nodes : List XmlNode} {servers : List CqServer}
    (h : List.Forall₂ ReadsServer nodes servers) :
    ofType .write servers ≠ [] ↔ (nodes.any fun n => n.name = ascii "write") = true := by
  induction h with
  | nil => simp [ofType]
  | @cons node s nodes servers hs _ ih =>
      have htype := hs.made.2
      have hname : node.name = ascii "write" ↔ s.type = .write := by
        rw [serverTypeOf] at htype
        split at htype
        · rename_i heq
          simp [heq, ← Option.some.inj htype]
        · rename_i hne
          split at htype
          · simp [hne, ← Option.some.inj htype]
          · exact absurd htype (by simp)
      rw [List.any_cons, Bool.or_eq_true, ← ih, decide_eq_true_iff, hname, ofType, List.filter_cons]
      by_cases hw : s.type = .write
      · simp [hw]
      · simp [hw, ofType]

/-- The document says which stores are empty. -/
lemma ReadsXml.populated_iff {root : XmlNode} {servers : List CqServer}
    {cmdLists : List (List CmdType)} {schemas : List TableSchema}
    (h : ReadsXml root servers cmdLists schemas) :
    (Config.xml (some (some root))).populated = true ↔
      ofType .write servers ≠ [] ∧ codes cmdLists ≠ [] ∧ schemas ≠ [] := by
  obtain ⟨serversNode, hserversNode, hservers⟩ := h.servers
  obtain ⟨cmdsNode, hcmdsNode, hcmds⟩ := h.cmds
  obtain ⟨tablesNode, htablesNode, htables⟩ := h.tables
  have hcodes : codes cmdLists ≠ [] ↔ cmdLists ≠ [] := by
    rw [codes, ne_eq, List.map_eq_nil_iff]
  rw [hcodes, ofType_write_ne_nil_iff hservers, ne_nil_iff_any hcmds, ne_nil_iff_any htables,
    Config.populated, sectionHas, sectionHas, sectionHas, hserversNode, hcmdsNode, htablesNode,
    Bool.and_eq_true, Bool.and_eq_true, and_assoc]

/-! ### TXT files -/

lemma stores_eq_of_ret {a a' : RetT} {s s' : Stores} {v v' : TxtLocals}
    (h : Outcome.ret (a, s, v) = .ret (a', s', v')) : s' = s := by
  simpa [eq_comm] using (Prod.mk.inj (Prod.mk.inj (Outcome.ret.inj h)).2).1

/-- No section of a TXT file goes into the schema set. -/
lemma readSections_schemaSet {g : Garbage} {n : ℕ} {file : List Bytes} {stores stores' : Stores}
    {v v' : TxtLocals} {ret : RetT}
    (h : readSections probe fuel g n file stores v = .ret (ret, stores', v')) :
    stores'.schemaSet = stores.schemaSet := by
  induction n generalizing file stores v with
  | zero => simp [readSections] at h
  | succ n ih =>
      rw [readSections] at h
      split at h
      · rw [stores_eq_of_ret h]
      · split_ifs at h
        · obtain ⟨⟨ret₁, file₁, cluster⟩, -, h⟩ := Outcome.bind_eq_ret.1 h
          simp only at h
          split_ifs at h
          · rw [stores_eq_of_ret h]
          · have hrest := ih h
            exact hrest
        · obtain ⟨⟨ret₁, file₁, heap, tableSet⟩, -, h⟩ := Outcome.bind_eq_ret.1 h
          simp only at h
          split_ifs at h
          · rw [stores_eq_of_ret h]
          · have hrest := ih h
            exact hrest
        · split at h
          · rw [stores_eq_of_ret h]
          · exact ih h
        · split at h
          · rw [stores_eq_of_ret h]
          · exact ih h
        · exact ih h

lemma parserReadTxt_schemaSet {g : Garbage} {r : RandStream} {file : Option (List Bytes)}
    {stores stores' : Stores} {ret : RetT}
    (h : parserReadTxt probe fuel g r file stores = .ret (ret, stores')) :
    stores'.schemaSet = stores.schemaSet := by
  cases file with
  | none => simp [parserReadTxt] at h
  | some file =>
      rw [parserReadTxt] at h
      obtain ⟨⟨ret₁, stores₁, v⟩, hread, h⟩ := Outcome.bind_eq_ret.1 h
      simp only at h
      split_ifs at h
      · obtain rfl := (Prod.mk.inj (Outcome.ret.inj h)).2
        exact readSections_schemaSet hread
      · obtain ⟨⟨ret₂, bucket⟩, -, h⟩ := Outcome.bind_eq_ret.1 h
        obtain rfl := (Prod.mk.inj (Outcome.ret.inj h)).2
        have hsections := readSections_schemaSet hread
        exact hsections

/-- Without schemas the first round gets none. -/
lemma tableThreadStart_tableSchema {stores : Stores} {r : RandStream} {ctx : EngContext}
    (hset : stores.schemaSet = schemaSetInit)
    (h : tableThreadStart probe fuel stores r = .ret ctx) : ctx.tableSchema = .null := by
  rw [tableThreadStart] at h
  obtain ⟨⟨ctx₀, base⟩, -, h⟩ := Outcome.bind_eq_ret.1 h
  simp only [engContextConfig] at h
  obtain ⟨⟨cmdList, r₁⟩, -, h⟩ := Outcome.bind_eq_ret.1 h
  obtain ⟨⟨⟨writeServer, c₁⟩, r₂⟩, -, h⟩ := Outcome.bind_eq_ret.1 h
  obtain ⟨⟨writeServers, c₂⟩, -, h⟩ := Outcome.bind_eq_ret.1 h
  obtain ⟨⟨readServers, c₃⟩, -, h⟩ := Outcome.bind_eq_ret.1 h
  obtain ⟨⟨⟨table, tableSet⟩, r₃⟩, -, h⟩ := Outcome.bind_eq_ret.1 h
  obtain ⟨⟨tableSchema, r₄⟩, hschema, h⟩ := Outcome.bind_eq_ret.1 h
  obtain rfl := Outcome.ret.inj h
  have hinv : VectorInv [] stores.schemaSet := by
    rw [hset]
    exact vectorAlloc_inv
  have hmeets := vectorGetRandom_meets hinv r₃
  rw [show vectorGetRandom stores.schemaSet r₃ = _ from hschema] at hmeets
  rcases hmeets with ⟨-, hnull⟩ | ⟨p, hp, -⟩
  · exact hnull
  · exact absurd hp (by simp)

/-- **When an accepted configuration can be run.**  Of the configurations that are read with
success on new stores, those can be run that are XML documents with a write server, a command
list and a table, and no others, when the probe loops of `eng_context_init` end. -/
theorem accepted_runnable_iff (probe : Bytes → UInt64 → UInt64) (fuel : ℕ) (g : Garbage)
    (r : RandStream) (config : Config) (stores : Stores)
    (haccepted : parserRead probe fuel g r config Stores.init = .ret (.succeed, stores))
    (hloops : engContextInit probe fuel stores.clusterBase ≠ .spin) :
    Runnable probe fuel stores ↔ config.populated = true := by
  cases config with
  | xml doc =>
      obtain ⟨root, servers, cmdLists, schemas, rfl, hreads, hinv⟩ := parserReadXml_reads haccepted
      rw [runnable_iff hinv hloops, hreads.populated_iff]
  | txt file =>
      have hset := parserReadTxt_schemaSet haccepted
      constructor
      · intro hrun
        obtain ⟨ctx, hctx, -, -, p, hp⟩ := hrun fun _ => 0
        rw [tableThreadStart_tableSchema hset hctx] at hp
        exact absurd hp (by simp)
      · intro hpop
        exact absurd hpop (by simp [Config.populated])

/-- `config.xml.example` can be run, with the hash function of the source. -/
theorem accepted_runnable_iff_example :
    ∃ stores, parserRead (hashFunc true) 100 .zeros (fun _ => 0)
        (.xml (some (some exampleTree))) Stores.init = .ret (.succeed, stores) ∧
      Runnable (hashFunc true) 100 stores := by
  have hrun : (parserReadXml (hashFunc true) 100 (some (some exampleTree)) Stores.init >>= fun q =>
      engContextInit (hashFunc true) 100 q.2.clusterBase >>= fun _ => pure q.1)
        = .ret .succeed := by decide +kernel
  obtain ⟨⟨ret, stores⟩, hread, hrun⟩ := Outcome.bind_eq_ret.1 hrun
  obtain ⟨ctx, hctx, hret⟩ := Outcome.bind_eq_ret.1 hrun
  obtain rfl : ret = .succeed := Outcome.ret.inj hret
  have hloops : engContextInit (hashFunc true) 100 stores.clusterBase ≠ .spin := by
    intro hspin
    rw [hspin] at hctx
    exact absurd hctx (by simp)
  exact ⟨stores, hread, (accepted_runnable_iff (hashFunc true) 100 .zeros (fun _ => 0)
    (.xml (some (some exampleTree))) stores hread hloops).2 (by decide +kernel)⟩

/-- An XML document with a write server, a command list and an empty section of tables. -/
def tablelessTree : XmlNode :=
  .mk (ascii "definition") []
    [.mk (ascii "servers") [] [.mk (ascii "write")
        [(ascii "ip", ascii "10.1.150.1"), (ascii "port", ascii "3306")] []],
      .mk (ascii "tables") [] [],
      .mk (ascii "cmds") [] [.mk (ascii "cmd") [] [.mk (ascii "insert") [] []]]]

/-- A TXT file with a write server, a table and a window of one row. -/
def txtLines : List Bytes :=
  ["[server]", "write_servers = 10.1.150.1:3306", "read_servers = 10.1.150.1:3306", "[table]",
    "create table test (a bigint primary key);", "[cmd_rate]", "insert = 0.5", "delete = 0",
    "update = 0", "select = 0.5", "[cmd_window]", "cmd_rows = 1", "cmd_cols = 2"].map
    fun line => ascii line ++ [10]

/-- Both are read with success, and both leave the first round without a table schema. -/
theorem accepted_not_runnable :
    (∃ stores, parserRead (hashFunc true) 100 .zeros (fun _ => 0)
        (.xml (some (some tablelessTree))) Stores.init = .ret (.succeed, stores) ∧
      ¬ Runnable (hashFunc true) 100 stores) ∧
    ∃ stores, parserRead (hashFunc true) 100 .zeros (fun _ => 0)
        (.txt (some txtLines)) Stores.init = .ret (.succeed, stores) ∧
      ¬ Runnable (hashFunc true) 100 stores := by
  -- the parser succeeds and the thread comes to a round without a schema
  have stuck : ∀ config : Config,
      (parserRead (hashFunc true) 100 .zeros (fun _ => 0) config
        Stores.init >>= fun q => tableThreadStart (hashFunc true) 100 q.2 (fun _ => 0) >>= fun ctx =>
          pure (q.1, ctx.tableSchema)) = .ret (.succeed, .null) →
      ∃ stores, parserRead (hashFunc true) 100 .zeros (fun _ => 0) config
          Stores.init = .ret (.succeed, stores) ∧ ¬ Runnable (hashFunc true) 100 stores := by
    intro config hrun
    obtain ⟨⟨ret, stores⟩, hread, hrun⟩ := Outcome.bind_eq_ret.1 hrun
    obtain ⟨ctx, hctx, hret⟩ := Outcome.bind_eq_ret.1 hrun
    obtain ⟨hsucceed, hnull⟩ := Prod.mk.inj (Outcome.ret.inj hret)
    obtain rfl : ret = .succeed := hsucceed
    refine ⟨stores, hread, fun hrunnable => ?_⟩
    obtain ⟨ctx', hctx', -, -, p, hp⟩ := hrunnable fun _ => 0
    obtain rfl : ctx = ctx' := Outcome.ret.inj (hctx.symm.trans hctx')
    rw [hnull] at hp
    exact absurd hp (by simp)
  exact ⟨stuck _ (by decide +kernel), stuck _ (by decide +kernel)⟩

end CheckQ
