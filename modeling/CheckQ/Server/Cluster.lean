import CheckQ.Mylib.HashEnds
import CheckQ.Mylib.RandomPick

/-!
# Servers and clusters of `server/cq_server.c`

A server is known by its name `ip:port`, which is the key of the two hash tables of a
cluster.  Connecting to a server succeeds, so the handle of the connection is left out.
-/

namespace CheckQ

/-- `server_type_t`. -/
inductive ServerType where
  | write
  | read
deriving DecidableEq, Repr

/-- `cq_server`. -/
structure CqServer where
  ip : Bytes
  port : Int
  name : Bytes
  type : ServerType
deriving DecidableEq, Repr

/-- `MAX_SERVER_NAME_LEN`. -/
def maxServerNameLen : ℕ := 21

/-- The text that `asprintf` makes with the format `%s:%d`. -/
def serverName (ip : Bytes) (port : Int) : Bytes := ip ++ ascii ":" ++ decimalInt port

/-- The server that `server_init` makes, and `none` for a name that is too long. -/
def serverInit (ip : Bytes) (port : Int) (type : ServerType) : Option CqServer :=
  let name := serverName ip port
  if name.length > maxServerNameLen then none else some ⟨ip, port, name, type⟩

/-- `cq_server_cluster`. -/
structure CqServerCluster where
  writeServers : HashT CqServer
  readServers : HashT CqServer
deriving DecidableEq, Repr

/-- `cq_cluster_init`. -/
def cqClusterInit : CqServerCluster := ⟨hashAlloc CqServer, hashAlloc CqServer⟩

variable (probe : Bytes → UInt64 → UInt64) (fuel : ℕ)

/-- `add_write_server`. -/
def addWriteServer (cluster : CqServerCluster) (server : CqServer) :
    Outcome (RetT × CqServerCluster) := do
  let (ret, writeServers) ← hashAdd CqServer.name probe fuel cluster.writeServers server
  return (ret, { cluster with writeServers })

/-- `add_read_server`. -/
def addReadServer (cluster : CqServerCluster) (server : CqServer) :
    Outcome (RetT × CqServerCluster) := do
  let (ret, readServers) ← hashAdd CqServer.name probe fuel cluster.readServers server
  return (ret, { cluster with readServers })

/-- `cq_cluster_add`.  A null pointer is followed to read the type. -/
def cqClusterAdd (cluster : CqServerCluster) : Option CqServer → Outcome (RetT × CqServerCluster)
  | none => .fault
  | some server =>
      if server.type = .write then addWriteServer probe fuel cluster server
      else addReadServer probe fuel cluster server

/-- `cq_cluster_get_all_write_server`. -/
def cqClusterGetAllWriteServer (cluster : CqServerCluster) :
    Outcome ((List CqServer × ℕ) × CqServerCluster) := do
  let (all, writeServers) ← hashGetEntries cluster.writeServers
  return (all, { cluster with writeServers })

/-- `cq_cluster_get_all_read_server`. -/
def cqClusterGetAllReadServer (cluster : CqServerCluster) :
    Outcome ((List CqServer × ℕ) × CqServerCluster) := do
  let (all, readServers) ← hashGetEntries cluster.readServers
  return (all, { cluster with readServers })

/-- `cq_cluster_get_random_write_server`. -/
def cqClusterGetRandomWriteServer (cluster : CqServerCluster) (r : RandStream) :
    Outcome ((Option CqServer × CqServerCluster) × RandStream) := do
  let ((server, writeServers), r) ← hashGetRandom cluster.writeServers r
  return ((server, { cluster with writeServers }), r)

/-! ### Names that are too long -/

/-- `server_destroy` of a server whose connection has not been opened: `close_mysql` compares the
handle with `NULL` and closes it, and nothing has been written to it since the block was made. -/
def serverDestroyUnopened : Outcome PUnit := .fault

/-- A call of `server_init`.  The branch of a name that is too long destroys the server before its
connection is opened, and so does not come to return the null pointer. -/
def callServerInit (ip : Bytes) (port : Int) (type : ServerType) : Outcome (Option CqServer) :=
  match serverInit ip port type with
  | some server => .ret (some server)
  | none => do
      serverDestroyUnopened
      return none

variable {probe fuel} in
/-- The callers, which add the server to a cluster, do not come to follow a null pointer: the call
that would return one is undefined already. -/
lemma callServerInit_bind (cluster : CqServerCluster) (ip : Bytes) (port : Int)
    (type : ServerType) :
    (callServerInit ip port type >>= cqClusterAdd probe fuel cluster)
      = cqClusterAdd probe fuel cluster (serverInit ip port type) := by
  rw [callServerInit]
  cases serverInit ip port type with
  | none => rfl
  | some server => rfl

/-! ### Clusters that only grow -/

/-- The servers of a list that are of one type. -/
def ofType (type : ServerType) (l : List CqServer) : List CqServer := l.filter (·.type = type)

/-- The cluster has got the servers `l` by `cq_cluster_add`; each of them is what
`server_init` makes of its address and port. -/
structure ClusterInv (l : List CqServer) (cluster : CqServerCluster) : Prop where
  write : HashHolds CqServer.name probe (ofType .write l) cluster.writeServers
  read : HashHolds CqServer.name probe (ofType .read l) cluster.readServers
  made : ∀ s ∈ l, serverInit s.ip s.port s.type = some s

variable {probe}

lemma cqClusterInit_inv : ClusterInv probe [] cqClusterInit :=
  ⟨HashHolds.alloc, HashHolds.alloc, by simp⟩

lemma serverInit_fields {ip : Bytes} {port : Int} {type : ServerType} {s : CqServer}
    (h : serverInit ip port type = some s) :
    s.ip = ip ∧ s.port = port ∧ s.type = type ∧ s.name = serverName ip port := by
  simp only [serverInit] at h
  split at h
  · exact absurd h (by simp)
  · obtain rfl := Option.some.inj h
    exact ⟨rfl, rfl, rfl, rfl⟩

lemma name_notMem_of_nodup {l ss : List CqServer} {s : CqServer}
    (h : ((l ++ s :: ss).map CqServer.name).Nodup) : s.name ∉ l.map CqServer.name := by
  rw [List.map_append, List.map_cons, List.nodup_append] at h
  intro hmem
  exact h.2.2 _ hmem s.name (by simp) rfl

lemma ofType_concat (l : List CqServer) (s : CqServer) :
    ofType s.type (l ++ [s]) = ofType s.type l ++ [s] := by
  rw [ofType, List.filter_append, List.filter_cons_of_pos (by simp)]
  rfl

variable (probe) in
/-- The names of the servers scatter in the hash tables of a cluster that gets them: in the table as
it is behind `n` servers of the type, and as it may be made larger for the next one, the probes of a
name come to more than `n` slots. -/
def ServersScatter (l : List CqServer) : Prop :=
  ∀ s ∈ l, ∀ n < (ofType s.type l).length,
    Scatters probe (grownSize n) n s.name ∧ Scatters probe (grownSize (n + 1)) n s.name

/-- The hash tables of a cluster can be made large enough for the servers. -/
def ServersFit (l : List CqServer) : Prop := ∀ type, ∀ n < (ofType type l).length, Fits n

lemma ServersScatter.sublist {l l' : List CqServer} (h : ServersScatter probe l')
    (hsub : l.Sublist l') : ServersScatter probe l :=
  fun s hs n hn => h s (hsub.subset hs) n (hn.trans_le (hsub.filter _).length_le)

lemma ServersFit.sublist {l l' : List CqServer} (h : ServersFit l') (hsub : l.Sublist l') :
    ServersFit l :=
  fun type n hn => h type n (hn.trans_le (hsub.filter _).length_le)

/-- Servers that do not fit are very many. -/
lemma le_of_not_serversFit {l : List CqServer} (h : ¬ ServersFit l) : 2 ^ 29 ≤ l.length := by
  simp only [ServersFit, not_forall] at h
  obtain ⟨type, n, hn, hfits⟩ := h
  have hlen : (ofType type l).length ≤ l.length := List.length_filter_le _ _
  have := le_of_not_fits hfits
  omega

/-- The search for a new server ends. -/
lemma cqClusterAdd_ne_spin {fuel : ℕ} {l : List CqServer} {cluster : CqServerCluster}
    {s : CqServer} (h : ClusterInv probe l cluster) (hfuel : 2 ^ 64 ≤ fuel)
    (hscatter : ServersScatter probe (l ++ [s])) :
    cqClusterAdd probe fuel cluster (some s) ≠ .spin := by
  have hkeys : ∀ t ∈ ofType s.type l ++ [s],
      Scatters probe (grownSize (ofType s.type l).length) (ofType s.type l).length t.name ∧
        Scatters probe (grownSize ((ofType s.type l).length + 1)) (ofType s.type l).length
          t.name := by
    intro t ht
    rw [← ofType_concat] at ht
    obtain ⟨ht, htype⟩ := List.mem_filter.1 ht
    refine hscatter t ht _ ?_
    rw [of_decide_eq_true htype, ofType_concat, List.length_append]
    exact Nat.lt_succ_self _
  rw [cqClusterAdd]
  cases htype : s.type with
  | write =>
      rw [htype] at hkeys
      rw [if_pos rfl]
      exact Outcome.bind_ne_spin (h.write.add_ne_spin hfuel hkeys) fun _ _ => by simp
  | read =>
      rw [htype] at hkeys
      rw [if_neg (by simp)]
      exact Outcome.bind_ne_spin (h.read.add_ne_spin hfuel hkeys) fun _ _ => by simp

/-- `cq_cluster_add` adds a server with a new name and refuses every other one. -/
lemma cqClusterAdd_meets (fuel : ℕ) {l : List CqServer} {cluster : CqServerCluster} {s : CqServer}
    (h : ClusterInv probe l cluster) (hmade : serverInit s.ip s.port s.type = some s) :
    (cqClusterAdd probe fuel cluster (some s)).Meets True (¬ Fits (ofType s.type l).length) fun q =>
      (q.1 = .succeed ∧ s.name ∉ (ofType s.type l).map CqServer.name ∧
          ClusterInv probe (l ++ [s]) q.2) ∨
        (q.1 = .failed ∧ s.name ∈ (ofType s.type l).map CqServer.name ∧
          ClusterInv probe l q.2) := by
  have hmade' : ∀ t ∈ l ++ [s], serverInit t.ip t.port t.type = some t := by
    intro t ht
    rcases List.mem_append.1 ht with ht | ht
    · exact h.made t ht
    · exact List.mem_singleton.1 ht ▸ hmade
  rw [cqClusterAdd]
  cases htype : s.type with
  | write =>
      rw [if_pos rfl, addWriteServer]
      refine (h.write.add fuel s).bind ?_
      rintro ⟨ret, writeServers⟩ (⟨rfl, hnew, hw⟩ | ⟨rfl, hold, hw⟩)
      · refine Or.inl ⟨rfl, hnew, ⟨?_, ?_, hmade'⟩⟩
        · simpa [ofType, htype] using hw
        · simpa [ofType, htype] using h.read
      · exact Or.inr ⟨rfl, hold, hw, h.read, h.made⟩
  | read =>
      rw [if_neg (by simp), addReadServer]
      refine (h.read.add fuel s).bind ?_
      rintro ⟨ret, readServers⟩ (⟨rfl, hnew, hr⟩ | ⟨rfl, hold, hr⟩)
      · refine Or.inl ⟨rfl, hnew, ⟨?_, ?_, hmade'⟩⟩
        · simpa [ofType, htype] using h.write
        · simpa [ofType, htype] using hr
      · exact Or.inr ⟨rfl, hold, h.write, hr, h.made⟩

/-- A server and its registration: `cq_cluster_add(cluster, server_init(ip, port, type))`. -/
structure ClusterCall where
  ip : Bytes
  port : Int
  type : ServerType
deriving DecidableEq, Repr

variable (probe) in
/-- One registration. -/
def clusterStep (fuel : ℕ) (call : ClusterCall) (cluster : CqServerCluster) :
    Outcome (RetT × CqServerCluster) := do
  cqClusterAdd probe fuel cluster (← callServerInit call.ip call.port call.type)

lemma clusterStep_inv {fuel : ℕ} {l : List CqServer} {cluster cluster' : CqServerCluster}
    {call : ClusterCall} {r : RetT} (h : ClusterInv probe l cluster)
    (hstep : clusterStep probe fuel call cluster = .ret (r, cluster')) :
    ∃ l', ClusterInv probe l' cluster' := by
  rw [clusterStep, callServerInit_bind] at hstep
  cases hs : serverInit call.ip call.port call.type with
  | none =>
      rw [hs, cqClusterAdd] at hstep
      cases hstep
  | some s =>
      obtain ⟨hip, hport, htype, -⟩ := serverInit_fields hs
      have hadd := cqClusterAdd_meets fuel h (by rw [hip, hport, htype, hs])
      rw [← hs, hstep] at hadd
      rcases hadd with ⟨-, -, hinv⟩ | ⟨-, -, hinv⟩
      · exact ⟨_, hinv⟩
      · exact ⟨_, hinv⟩

/-- The cluster that a sequence of registrations builds. -/
lemma clusterInv_of_run {fuel : ℕ} {calls : List ClusterCall} {rs : List RetT}
    {cluster : CqServerCluster}
    (hrun : runOps (clusterStep probe fuel) calls cqClusterInit = .ret (rs, cluster)) :
    ∃ l, ClusterInv probe l cluster := by
  refine runOps_ret_invariant (I := fun cluster => ∃ l, ClusterInv probe l cluster) ?_
    ⟨_, cqClusterInit_inv⟩ hrun
  rintro cluster call r cluster' ⟨l, hinv⟩ hstep
  exact clusterStep_inv hinv hstep

lemma cqClusterGetRandomWriteServer_meets {l : List CqServer} {cluster : CqServerCluster}
    (h : ClusterInv probe l cluster) (r : RandStream) :
    (cqClusterGetRandomWriteServer cluster r).Meets False False fun q =>
      Picked none some (ofType .write l) q.1.1 ∧ q.1.2 = cluster := by
  refine (hashGetRandom_meets h.write r).bind ?_
  rintro ⟨⟨server, writeServers⟩, r⟩ ⟨hserver, rfl⟩
  exact ⟨hserver, rfl⟩

end CheckQ
