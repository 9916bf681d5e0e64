import CheckQ.Command.CmdList
import CheckQ.Server.Cluster
import CheckQ.Table.TableSet

/-!
# The stores of the program

The parsers fill four stores, which are global variables of the source, and the threads
read them.  `StoresInv` says what is in them: the servers of `cluster_base`, the command lists
of the bucket and the schemas of the schema set, the latter two in order.
-/

namespace CheckQ

/-- `cluster_base`, `cq_cmd_bucket`, `cq_schema_set` and `cq_table_set`; the schemas that the
pointers of the schema set and of the tables point to are in `schemaHeap`. -/
structure Stores where
  clusterBase : CqServerCluster
  cmdBucket : VectorT CmdList
  schemaHeap : List TableSchema
  schemaSet : VectorT ℕ
  tableSet : HashT TableT
deriving DecidableEq, Repr

/-- The stores as `init_env` makes them. -/
def Stores.init : Stores where
  clusterBase := cqClusterInit
  cmdBucket := cmdBucketInit
  schemaHeap := []
  schemaSet := schemaSetInit
  tableSet := tableSetInit

/-- The bucket holds lists with these commands. -/
def BucketInv (cmdLists : List (List UInt32)) (bucket : VectorT CmdList) : Prop :=
  ∃ ls, VectorInv ls bucket ∧
    List.Forall₂ (fun cmds l => ∃ ps, CmdListInv ps cmds l) cmdLists ls

/-- The set holds pointers to these schemas. -/
def SchemaSetInv (schemas : List TableSchema) (heap : List TableSchema) (set : VectorT ℕ) : Prop :=
  ∃ ptrs : List ℕ, VectorInv ptrs set ∧
    List.Forall₂ (fun schema p => heap[p]? = some schema) schemas ptrs

/-- A bucket has one sequence of lists. -/
lemma BucketInv.unique {cmdLists cmdLists' : List (List UInt32)} {bucket : VectorT CmdList}
    (h : BucketInv cmdLists bucket) (h' : BucketInv cmdLists' bucket) : cmdLists = cmdLists' := by
  obtain ⟨ls, hv, hls⟩ := h
  obtain ⟨ls', hv', hls'⟩ := h'
  obtain rfl := hv.unique hv'
  have hrel : Relator.RightUnique fun (l : CmdList) (cmds : List UInt32) =>
      ∃ ps, CmdListInv ps cmds l := by
    rintro l cmds cmds' ⟨ps, hl⟩ ⟨ps', hl'⟩
    exact hl.unique hl'
  exact List.right_unique_forall₂' hrel hls.flip hls'.flip

lemma bucketInv_init : BucketInv [] cmdBucketInit := ⟨[], vectorAlloc_inv, List.Forall₂.nil⟩

lemma schemaSetInv_init : SchemaSetInv [] [] schemaSetInit :=
  ⟨[], vectorAlloc_inv, List.Forall₂.nil⟩

/-- What is in the stores.  No table has been made as long as no thread is running, unless the
configuration is a TXT file. -/
structure StoresInv (probe : Bytes → UInt64 → UInt64) (servers : List CqServer)
    (cmdLists : List (List UInt32)) (schemas : List TableSchema) (s : Stores) : Prop where
  cluster : ClusterInv probe servers s.clusterBase
  bucket : BucketInv cmdLists s.cmdBucket
  schemaSet : SchemaSetInv schemas s.schemaHeap s.schemaSet
  tableSet : ∃ tables, HashHolds TableT.name probe tables s.tableSet

/-- `cmd_bucket_add`. -/
lemma cmdBucketAdd_inv {cmdLists : List (List UInt32)} {bucket : VectorT CmdList} {ps : List ℕ}
    {cmds : List UInt32} {l : CmdList} (h : BucketInv cmdLists bucket) (hl : CmdListInv ps cmds l) :
    ∃ bucket', cmdBucketAdd bucket l = .ret (.succeed, bucket') ∧
      BucketInv (cmdLists ++ [cmds]) bucket' := by
  obtain ⟨ls, hv, hls⟩ := h
  obtain ⟨⟨ret, bucket'⟩, heq, hret, hv'⟩ := (vectorPushBack_meets hv l).exists_ret
  refine ⟨bucket', by rw [cmdBucketAdd, heq, ← hret], ls ++ [l], hv', ?_⟩
  exact List.rel_append hls (List.Forall₂.cons ⟨ps, hl⟩ List.Forall₂.nil)

/-- `schema_set_add` of a schema that has just been made. -/
lemma schemaSetAdd_inv {schemas heap : List TableSchema} {set : VectorT ℕ} (schema : TableSchema)
    (h : SchemaSetInv schemas heap set) :
    ∃ set', schemaSetAdd set heap.length = .ret (.succeed, set') ∧
      SchemaSetInv (schemas ++ [schema]) (heap ++ [schema]) set' := by
  obtain ⟨ptrs, hv, hptrs⟩ := h
  obtain ⟨⟨ret, set'⟩, heq, hret, hv'⟩ := (vectorPushBack_meets hv heap.length).exists_ret
  refine ⟨set', by rw [schemaSetAdd, heq, ← hret], ptrs ++ [heap.length], hv', ?_⟩
  refine List.rel_append (hptrs.imp ?_) (List.Forall₂.cons (by simp) List.Forall₂.nil)
  intro s p hp
  rw [List.getElem?_append_left (List.getElem?_eq_some_iff.1 hp).1, hp]

end CheckQ
