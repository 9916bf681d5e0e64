import CheckQ.Table.TableSet
import CheckQ.Mysql.Alter
import CheckQ.Mysql.SqlLexer

/-!
# The schemas in memory and the tables of the server

`table_thread` creates tables from the schemas of the schema set and `alter_thread` adds and
drops columns of tables of the table set, in any order.  A table holds a pointer to the schema
it was made from: schemas are cells of a heap, and two tables made from one member of the
schema set share a cell.  The server has the columns of each table by its name; it executes
statements, so a step in which it would refuse one is not a step of the system.

An ALTER of one table edits the schema of every table that shares it.  `UnsharedStep` are the
steps in which this does not happen, and along these the schemas agree with the server.
-/

namespace CheckQ

open Probing

/-- The tables of a server, by name. -/
abbrev Db := Bytes → Option (List ColumnDef)

/-- Execute a statement; `none` is an error. -/
def Db.exec (db : Db) : SqlStmt → Option Db
  | .create name keys vals =>
      if db name = none ∧ ((keys ++ vals).map ColumnDef.name).Nodup then
        some (Function.update db name (some (keys ++ vals)))
      else none
  | .alterAdd name col => do
      let cols ← db name
      if col.name ∈ cols.map ColumnDef.name then none
      else some (Function.update db name (some (cols ++ [col])))
  | .alterDrop name col => do
      let cols ← db name
      let col ← col
      if col ∈ cols.map ColumnDef.name then
        some (Function.update db name (some (cols.filter fun c => c.name ≠ col)))
      else none

/-- A server that executes statements. -/
def execServer : DdlServer Db where
  selectDb := 0
  realQuery := fun stmt db =>
    match db.exec stmt with
    | some db' => (0, db')
    | none => (1, db)

/-- The schemas, the schema set, the table set and the server. -/
structure SyncState where
  schemaHeap : List TableSchema
  schemaSet : List ℕ
  tableSet : HashT TableT
  db : Db

/-- A round of `table_thread`, with the member of the schema set and the number of the new
table's name, or of `alter_thread`, with the table. -/
inductive SyncAction where
  | create (index : ℕ) (v : ℕ)
  | alterAdd (index : ℕ) (r : RandStream)
  | alterDrop (index : ℕ)

/-- `sprintf(eng_ctx->table_name, "test%d", rand() % 10000)`. -/
def randomTableName (v : ℕ) : Bytes := ascii "test" ++ decimal (v % 10000)

/-- The table that an ALTER of an action is about, and its schema. -/
def SyncState.tableAt (s : SyncState) (index : ℕ) : Option (TableT × TableSchema) := do
  let table ← (live s.tableSet.elements)[index]?
  let schema ← s.schemaHeap[table.schema]?
  return (table, schema)

/-- One round.  `none` says that it is no step of the system: there is no such member or table,
or the server refuses the statement. -/
def syncStep (probe : Bytes → UInt64 → UInt64) (fuel : ℕ) (s : SyncState) :
    SyncAction → Option SyncState
  | .create index v => do
      let p ← s.schemaSet[index]?
      let schema ← s.schemaHeap[p]?
      let name := randomTableName v
      match mysqlCreateTable execServer name schema s.db,
        hashAdd TableT.name probe fuel s.tableSet ⟨name, p⟩ with
      | (0, db), .ret (_, tableSet) => some { s with db, tableSet }
      | _, _ => none
  | .alterAdd index r => do
      let (table, schema) ← s.tableAt index
      match mysqlAlterAddTable execServer table.name schema r s.db with
      | .ret (0, schema, _, db) =>
          some { s with db, schemaHeap := s.schemaHeap.set table.schema schema }
      | _ => none
  | .alterDrop index => do
      let (table, schema) ← s.tableAt index
      match mysqlAlterDropTable execServer table.name schema s.db with
      | .ret (0, schema, db) =>
          some { s with db, schemaHeap := s.schemaHeap.set table.schema schema }
      | _ => none

/-- The state after the configuration has been read. -/
def SyncState.initial (schemaHeap : List TableSchema) (schemaSet : List ℕ) : SyncState where
  schemaHeap := schemaHeap
  schemaSet := schemaSet
  tableSet := hashAlloc TableT
  db := fun _ => none

/-- Whether the round edits a schema: an ALTER that sends a statement. -/
def editsSchema (s : SyncState) : SyncAction → Bool
  | .create _ _ => false
  | .alterAdd index _ =>
      match s.tableAt index with
      | none => false
      | some (_, schema) => !isTableSchemaFull schema
  | .alterDrop index =>
      match s.tableAt index with
      | none => false
      | some (_, schema) => dropsColumn schema

/-- The table of the action is the only one of the table set with its schema. -/
def soleOwner (s : SyncState) : SyncAction → Bool
  | .create _ _ => true
  | .alterAdd index _ | .alterDrop index =>
      match s.tableAt index with
      | none => true
      | some (table, _) =>
          (live s.tableSet.elements).all fun t => t.schema ≠ table.schema || t = table

/-- One round of a thread. -/
def SyncStep (probe : Bytes → UInt64 → UInt64) (fuel : ℕ) (s s' : SyncState) : Prop :=
  ∃ action, syncStep probe fuel s action = some s'

/-- One round of a thread that edits no schema which two tables share. -/
def UnsharedStep (probe : Bytes → UInt64 → UInt64) (fuel : ℕ) (s s' : SyncState) : Prop :=
  ∃ action, (editsSchema s action = true → soleOwner s action = true) ∧
    syncStep probe fuel s action = some s'

/-! ### The invariant -/

/-- The schema of the table `t` is what the server has for it. -/
def TableAgrees (heap : List TableSchema) (db : Db) (t : TableT) : Prop :=
  ∃ schema, heap[t.schema]? = some schema ∧ db t.name = some schema.columnDefs ∧
    (schema.columnDefs.map ColumnDef.name).Nodup

/-- The table set is a map, and all its tables agree with the server. -/
structure SyncInv (probe : Bytes → UInt64 → UInt64) (s : SyncState) : Prop where
  tableSet : ∃ m, HashInv TableT.name probe m s.tableSet
  agrees : ∀ t ∈ live s.tableSet.elements, TableAgrees s.schemaHeap s.db t

variable {probe : Bytes → UInt64 → UInt64} {fuel : ℕ} {s s' : SyncState}

lemma syncInv_initial (heap : List TableSchema) (set : List ℕ) :
    SyncInv probe (SyncState.initial heap set) := by
  refine ⟨⟨_, hashAlloc_inv⟩, ?_⟩
  intro t ht
  simp [SyncState.initial, hashAlloc] at ht

/-- Two tables of the table set with one name are one table. -/
lemma SyncInv.eq_of_name (hinv : SyncInv probe s) {t t' : TableT}
    (ht : t ∈ live s.tableSet.elements) (ht' : t' ∈ live s.tableSet.elements)
    (hname : t.name = t'.name) : t = t' := by
  obtain ⟨m, hm⟩ := hinv.tableSet
  have h := (hm.entries.2 t).1 ht
  have h' := (hm.entries.2 t').1 ht'
  rw [hname, h'] at h
  exact (Option.some.inj h).symm

/-- A table whose schema and columns change together, when no other table has the schema. -/
lemma SyncInv.edit (hinv : SyncInv probe s) {t : TableT} (ht : t ∈ live s.tableSet.elements)
    {schema : TableSchema} (hheap : s.schemaHeap[t.schema]? = some schema)
    (hsole : ∀ t' ∈ live s.tableSet.elements, t'.schema = t.schema → t' = t)
    {schema' : TableSchema} (hnodup : (schema'.columnDefs.map ColumnDef.name).Nodup) :
    SyncInv probe { s with
      db := Function.update s.db t.name (some schema'.columnDefs)
      schemaHeap := s.schemaHeap.set t.schema schema' } := by
  have hlt : t.schema < s.schemaHeap.length := (List.getElem?_eq_some_iff.1 hheap).1
  refine ⟨hinv.tableSet, ?_⟩
  intro t' ht'
  by_cases heq : t' = t
  · subst heq
    exact ⟨schema', by simp [hlt], by simp, hnodup⟩
  · obtain ⟨old, hold, hdb, hold'⟩ := hinv.agrees t' ht'
    have hname : t'.name ≠ t.name := fun h => heq (hinv.eq_of_name ht' ht h)
    have hschema : t.schema ≠ t'.schema := fun h => heq (hsole t' ht' h.symm)
    refine ⟨old, ?_, ?_, hold'⟩
    · rw [List.getElem?_set_ne hschema, hold]
    · exact (Function.update_of_ne hname _ _).trans hdb

lemma columnDefs_push (schema : TableSchema) (data : TableData) :
    (schema.push data).columnDefs = schema.columnDefs ++ [data.columnDef] := by
  simp [TableSchema.columnDefs, TableSchema.columns, TableSchema.push]

lemma columnDefs_pop {schema : TableSchema} {data : TableData}
    (h : schema.valSchema.schemas.getLast? = some data) :
    schema.columnDefs = schema.pop.columnDefs ++ [data.columnDef] := by
  obtain ⟨init, hinit⟩ := List.getLast?_eq_some_iff.1 h
  simp [TableSchema.columnDefs, TableSchema.columns, TableSchema.pop, hinit]

/-- Dropping the last column by its name. -/
lemma filter_ne_last {cols : List ColumnDef} {col : ColumnDef}
    (h : ((cols ++ [col]).map ColumnDef.name).Nodup) :
    ((cols ++ [col]).filter fun c => c.name ≠ col.name) = cols := by
  have hnotin : col.name ∉ cols.map ColumnDef.name := by
    rw [List.map_append, List.nodup_append] at h
    intro hmem
    exact h.2.2 col.name hmem col.name (by simp) rfl
  rw [List.filter_append, List.filter_eq_self.2]
  · simp
  · intro c hc
    have hne : c.name ≠ col.name := fun heq => hnotin (heq ▸ List.mem_map_of_mem hc)
    simpa using hne

/-- A statement that the server has executed. -/
lemma realQuery_ok {stmt : SqlStmt} {db db' : Db} (h : execServer.realQuery stmt db = (0, db')) :
    db.exec stmt = some db' := by
  simp only [execServer] at h
  cases hexec : db.exec stmt with
  | none => simp [hexec] at h
  | some db₁ =>
      simp only [hexec, Prod.mk.injEq, true_and] at h
      rw [h]

lemma tableAt_eq {index : ℕ} {t : TableT} {schema : TableSchema}
    (h : s.tableAt index = some (t, schema)) :
    t ∈ live s.tableSet.elements ∧ s.schemaHeap[t.schema]? = some schema := by
  simp only [SyncState.tableAt, bind, Option.bind_eq_some_iff, pure, Option.some.injEq,
    Prod.mk.injEq] at h
  obtain ⟨t', ht', schema', hs', rfl, rfl⟩ := h
  exact ⟨List.mem_of_getElem? ht', hs'⟩

/-! ### One step -/

/-- A table that has been created agrees with the server. -/
lemma SyncInv.create (hinv : SyncInv probe s) {p : ℕ} {schema : TableSchema}
    (hheap : s.schemaHeap[p]? = some schema) {name : Bytes} {db : Db}
    (hcreate : mysqlCreateTable execServer name schema s.db = (0, db)) {r : RetT}
    {tableSet : HashT TableT}
    (hadd : hashAdd TableT.name probe fuel s.tableSet ⟨name, p⟩ = .ret (r, tableSet)) :
    SyncInv probe { s with db, tableSet } := by
  obtain ⟨m, hm⟩ := hinv.tableSet
  have hexec := realQuery_ok (show execServer.realQuery (createStmt name schema) s.db = (0, db) by
    simpa [mysqlCreateTable, execServer] using hcreate)
  simp only [createStmt, Db.exec] at hexec
  split at hexec
  swap
  · simp at hexec
  rename_i hnew
  rw [← List.map_append, Option.some.injEq] at hexec
  subst hexec
  -- no table of the set has the name, since all of them are on the server
  have hnone : m name = none := by
    rw [Option.eq_none_iff_forall_ne_some]
    intro t ht
    obtain ⟨htmem, htname⟩ := (hm.mem_iff name t).1 ht
    obtain ⟨_, _, hdb, _⟩ := hinv.agrees t htmem
    rw [htname, hnew.1] at hdb
    simp at hdb
  have hmeets := hashAdd_meets hm fuel (⟨name, p⟩ : TableT)
  rw [hadd] at hmeets
  obtain ⟨⟨m', hspec, hm'⟩, -⟩ := hmeets
  simp only [AddSpec, hnone, Option.isSome_none, Bool.false_eq_true, if_false] at hspec
  refine ⟨⟨m', hm'⟩, ?_⟩
  intro t ht
  have hmt := (hm'.entries.2 t).1 ht
  rw [hspec.2] at hmt
  by_cases hname : t.name = name
  · rw [hname, Function.update_self, Option.some.injEq] at hmt
    subst hmt
    refine ⟨schema, hheap, ?_, ?_⟩
    · simp [TableSchema.columnDefs, TableSchema.columns]
    · simpa [TableSchema.columnDefs, TableSchema.columns] using hnew.2
  · rw [Function.update_of_ne hname] at hmt
    obtain ⟨old, hold, hdb, hnodup⟩ := hinv.agrees t ((hm.entries.2 t).2 hmt)
    exact ⟨old, hold, (Function.update_of_ne hname _ _).trans hdb, hnodup⟩

/-- Writing back the schema that is there. -/
lemma SyncInv.unchanged (hinv : SyncInv probe s) {p : ℕ} {schema : TableSchema}
    (hheap : s.schemaHeap[p]? = some schema) :
    SyncInv probe { s with schemaHeap := s.schemaHeap.set p schema } := by
  have hset : s.schemaHeap.set p schema = s.schemaHeap := by
    obtain ⟨hlt, heq⟩ := List.getElem?_eq_some_iff.1 hheap
    rw [← heq, List.set_getElem_self]
  rw [hset]
  exact hinv

lemma SyncInv.alterAdd (hinv : SyncInv probe s) {t : TableT} (ht : t ∈ live s.tableSet.elements)
    {schema schema' : TableSchema} (hheap : s.schemaHeap[t.schema]? = some schema)
    (hsole : isTableSchemaFull schema = false →
      ∀ t' ∈ live s.tableSet.elements, t'.schema = t.schema → t' = t)
    {r r' : RandStream} {db : Db}
    (h : mysqlAlterAddTable execServer t.name schema r s.db = .ret (0, schema', r', db)) :
    SyncInv probe { s with db, schemaHeap := s.schemaHeap.set t.schema schema' } := by
  rcases mysqlAlterAddTable_cases execServer rfl h with ⟨-, rfl, rfl⟩ | ⟨hfull, data, rfl, hq⟩
  · exact hinv.unchanged hheap
  · obtain ⟨old, hold, hdb, hnodup⟩ := hinv.agrees t ht
    rw [hheap, Option.some.injEq] at hold
    subst hold
    have hexec := realQuery_ok hq
    simp only [Db.exec, hdb, bind, Option.bind_some] at hexec
    split at hexec
    · simp at hexec
    · rename_i hfresh
      rw [Option.some.injEq, ← columnDefs_push] at hexec
      subst hexec
      refine hinv.edit ht hheap (hsole hfull) ?_
      rw [columnDefs_push, List.map_append, List.nodup_append]
      refine ⟨hnodup, by simp, ?_⟩
      intro n hn n' hn' heq
      simp only [List.map_cons, List.map_nil, List.mem_singleton] at hn'
      exact hfresh (hn' ▸ heq ▸ hn)

lemma SyncInv.alterDrop (hinv : SyncInv probe s) {t : TableT} (ht : t ∈ live s.tableSet.elements)
    {schema schema' : TableSchema} (hheap : s.schemaHeap[t.schema]? = some schema)
    (hsole : dropsColumn schema = true →
      ∀ t' ∈ live s.tableSet.elements, t'.schema = t.schema → t' = t) {db : Db}
    (h : mysqlAlterDropTable execServer t.name schema s.db = .ret (0, schema', db)) :
    SyncInv probe { s with db, schemaHeap := s.schemaHeap.set t.schema schema' } := by
  rcases mysqlAlterDropTable_cases execServer rfl h with
    ⟨-, rfl, rfl⟩ | ⟨hdrops, data, hlast, rfl, hq⟩
  · exact hinv.unchanged hheap
  · obtain ⟨old, hold, hdb, hnodup⟩ := hinv.agrees t ht
    rw [hheap, Option.some.injEq] at hold
    subst hold
    have hcols := columnDefs_pop hlast
    have hexec := realQuery_ok hq
    have hname : data.columnDef.name = data.name := rfl
    simp only [Db.exec, hdb, bind, Option.bind_some] at hexec
    rw [hcols] at hnodup
    split at hexec
    · rw [hcols, ← hname, filter_ne_last hnodup, Option.some.injEq] at hexec
      subst hexec
      refine hinv.edit ht hheap (hsole hdrops) ?_
      rw [List.map_append, List.nodup_append] at hnodup
      exact hnodup.1
    · simp at hexec

/-- What the check for a sole owner says. -/
lemma soleOwner_of_tableAt {t : TableT} {schema : TableSchema} {index : ℕ}
    (hat : s.tableAt index = some (t, schema)) {action : SyncAction}
    (haction : action = .alterDrop index ∨ ∃ r, action = .alterAdd index r)
    (hsole : soleOwner s action = true) :
    ∀ t' ∈ live s.tableSet.elements, t'.schema = t.schema → t' = t := by
  have hall : ((live s.tableSet.elements).all fun t' => t'.schema ≠ t.schema || t' = t) = true := by
    rcases haction with rfl | ⟨r, rfl⟩ <;> simpa [soleOwner, hat] using hsole
  intro t' ht' hschema
  have := List.all_eq_true.1 hall t' ht'
  simpa [hschema] using this

/-- One round that edits no shared schema keeps the invariant. -/
lemma SyncInv.step (hinv : SyncInv probe s) (hstep : UnsharedStep probe fuel s s') :
    SyncInv probe s' := by
  obtain ⟨action, hcond, hstep⟩ := hstep
  cases action with
  | create index v =>
      simp only [syncStep, bind, Option.bind_eq_some_iff] at hstep
      obtain ⟨p, -, schema, hheap, hstep⟩ := hstep
      split at hstep
      · rename_i db r tableSet hcreate hadd
        rw [Option.some.injEq] at hstep
        subst hstep
        exact hinv.create hheap hcreate hadd
      · simp at hstep
  | alterAdd index r =>
      simp only [syncStep, bind, Option.bind_eq_some_iff] at hstep
      obtain ⟨⟨t, schema⟩, hat, hstep⟩ := hstep
      obtain ⟨ht, hheap⟩ := tableAt_eq hat
      split at hstep
      · rename_i schema' r' db halter
        rw [Option.some.injEq] at hstep
        subst hstep
        refine hinv.alterAdd ht hheap (fun hfull => ?_) halter
        exact soleOwner_of_tableAt hat (Or.inr ⟨r, rfl⟩) (hcond (by simp [editsSchema, hat, hfull]))
      · simp at hstep
  | alterDrop index =>
      simp only [syncStep, bind, Option.bind_eq_some_iff] at hstep
      obtain ⟨⟨t, schema⟩, hat, hstep⟩ := hstep
      obtain ⟨ht, hheap⟩ := tableAt_eq hat
      split at hstep
      · rename_i schema' db halter
        rw [Option.some.injEq] at hstep
        subst hstep
        refine hinv.alterDrop ht hheap (fun hdrops => ?_) halter
        exact soleOwner_of_tableAt hat (Or.inl rfl) (hcond (by simp [editsSchema, hat, hdrops]))
      · simp at hstep

/-- The invariant along a run. -/
lemma syncInv_of_run {heap : List TableSchema} {set : List ℕ}
    (hrun : Relation.ReflTransGen (UnsharedStep probe fuel) (SyncState.initial heap set) s) :
    SyncInv probe s := by
  induction hrun with
  | refl => exact syncInv_initial heap set
  | tail _ hstep ih => exact ih.step hstep

/-! ### Whole runs -/

/-- The property of a state: every table of the table set has in memory the columns the server
has for it, and its INSERT statements have one value for each of them. -/
def SchemasAgree (s : SyncState) : Prop :=
  ∀ t ∈ live s.tableSet.elements, ∃ schema cols, s.schemaHeap[t.schema]? = some schema ∧
    s.db t.name = some cols ∧ schema.columnDefs = cols ∧
    ∀ ctx g buf g', insertGen ctx t.name schema g = .ret (buf, g') →
      buf.literals.length = cols.length

/-- **The schemas in memory agree with the server** in every state of every run in which no
ALTER edits a schema that two tables share. -/
theorem schemas_agree_of_unshared (probe : Bytes → UInt64 → UInt64) (fuel : ℕ)
    (heap : List TableSchema) (set : List ℕ) (s : SyncState)
    (hrun : Relation.ReflTransGen (UnsharedStep probe fuel) (SyncState.initial heap set) s) :
    SchemasAgree s := by
  intro t ht
  obtain ⟨schema, hheap, hdb, -⟩ := (syncInv_of_run hrun).agrees t ht
  refine ⟨schema, schema.columnDefs, hheap, hdb, rfl, ?_⟩
  intro ctx g buf g' hgen
  have hsql : sqlGen ctx t.name schema g .insert = .ret (buf, g') := hgen
  rw [(sqlGen_recorded hsql).2]
  simp [literalCount, Schema.nschema, TableSchema.columnDefs, TableSchema.columns]

/-- A schema with a key and a value. -/
def sampleTable (key val : String) : TableSchema :=
  ⟨⟨[⟨ascii key, .bigint, 0⟩], 100⟩, ⟨[⟨ascii val, .varchar, 8⟩], 100⟩⟩

/-- Tables of two schemas, of which one gets a column, loses it and is used for a third table. -/
theorem schemas_agree_of_unshared_two :
    ∃ s, Relation.ReflTransGen (UnsharedStep (fun _ l => l) 20)
        (SyncState.initial [sampleTable "id" "v", sampleTable "k" "w"] [0, 1]) s ∧
      (live s.tableSet.elements).length = 3 ∧ SchemasAgree s := by
  let run := runSchedule (syncStep (fun _ l => l) 20)
    (fun s act => !editsSchema s act || soleOwner s act)
    [.create 0 1, .create 1 2, .alterAdd 0 (fun _ => 1), .alterDrop 0, .alterDrop 1, .create 1 3]
    (SyncState.initial [sampleTable "id" "v", sampleTable "k" "w"] [0, 1])
  have hlen : run.map (fun s => (live s.tableSet.elements).length) = some 3 := by decide +kernel
  obtain ⟨s, hs, hlen⟩ := Option.map_eq_some_iff.1 hlen
  have hrun : Relation.ReflTransGen (UnsharedStep (fun _ l => l) 20)
      (SyncState.initial [sampleTable "id" "v", sampleTable "k" "w"] [0, 1]) s := by
    refine run_of_schedule (fun s act s' hok hstep => ⟨act, fun hedit => ?_, hstep⟩) hs
    simpa [hedit] using hok
  exact ⟨s, hrun, hlen, schemas_agree_of_unshared _ _ _ _ _ hrun⟩

/-- Two tables are made from one schema and the first one gets a column: the schema of the
second one in memory has it too, its columns on the server do not. -/
theorem schemas_disagree_when_shared :
    ∃ s, Relation.ReflTransGen (SyncStep (fun _ l => l) 20)
        (SyncState.initial [sampleTable "id" "v"] [0]) s ∧ ¬ SchemasAgree s := by
  let run := runSchedule (syncStep (fun _ l => l) 20) (fun _ _ => true)
    [.create 0 1, .create 0 2, .alterAdd 0 (fun _ => 0)]
    (SyncState.initial [sampleTable "id" "v"] [0])
  have hfacts : run.map (fun s => (decide (⟨ascii "test2", 0⟩ ∈ live s.tableSet.elements),
      s.schemaHeap[0]?.map fun schema => schema.columnDefs.length,
      (s.db (ascii "test2")).map List.length)) = some (true, some 3, some 2) := by decide +kernel
  obtain ⟨s, hs, hfacts⟩ := Option.map_eq_some_iff.1 hfacts
  simp only [Prod.mk.injEq, decide_eq_true_eq] at hfacts
  obtain ⟨hmem, hmemory, hserver⟩ := hfacts
  refine ⟨s, run_of_schedule (fun s act s' _ hstep => ⟨act, hstep⟩) hs, ?_⟩
  intro hagree
  obtain ⟨schema, cols, hheap, hdb, hcols, -⟩ := hagree _ hmem
  rw [hheap, Option.map_some, hcols] at hmemory
  rw [hdb, Option.map_some, hmemory] at hserver
  simp at hserver

end CheckQ
