import CheckQ.Mylib.HashFunc
import CheckQ.Parser.RoundTrip
import CheckQ.Parser.Txt

/-!
# Server lines of a TXT file

The documented line `write_servers = e1,e2,…` (or `read_servers = …`) lists endpoints
`a.b.c.d:port` with commas between them.  `parser_read_txt_server` reads two lines and takes one
endpoint from each, the first; of its port it takes the digits in front of the first `9`, since
the loop over them runs while `*cur < '9'`.
-/

namespace CheckQ

/-- An address and a port. -/
structure Endpoint where
  a : Fin 256
  b : Fin 256
  c : Fin 256
  d : Fin 256
  port : Fin 65536
deriving DecidableEq, Repr

namespace Endpoint

/-- The endpoint as a server of the configuration. -/
def config (e : Endpoint) (type : ServerType) : ServerConfig := ⟨type, e.a, e.b, e.c, e.d, e.port⟩

/-- The address as it is written. -/
def ip (e : Endpoint) : Bytes := dottedQuad e.a e.b e.c e.d

/-- The endpoint as it is written. -/
def text (e : Endpoint) : Bytes := e.ip ++ ascii ":" ++ decimal e.port

/-- The port that is read: the digits in front of the first `9`. -/
def portRead (e : Endpoint) : Int := atoi ((decimal e.port).takeWhile (· ≠ 57))

end Endpoint

/-- The keyword of a line. -/
def serversKeyword : ServerType → Bytes
  | .write => ascii "write_servers"
  | .read => ascii "read_servers"

/-- A line of endpoints, which ends in a newline unless it is the last one of the file. -/
def serversLine (type : ServerType) (es : List Endpoint) (newline : Bool) : Bytes :=
  serversKeyword type ++ ascii " = " ++ (ascii ",").intercalate (es.map Endpoint.text) ++
    if newline then ascii "\n" else []

/-! ### Scanning a line -/

lemma strstr_append (t x : Bytes) : strstr (t ++ x) t = some (t ++ x) := by
  rw [strstr.eq_def, if_pos (List.prefix_append t x)]

/-- A text without a byte of `t` has no occurrence of `t`. -/
lemma strstr_eq_none {s t : Bytes} {c : UInt8} (hc : c ∈ t) (hs : c ∉ s) : strstr s t = none := by
  have hstart : ∀ {s : Bytes}, c ∉ s → ¬t <+: s := fun hs h => hs (h.subset hc)
  induction s with
  | nil => rw [strstr.eq_def, if_neg (hstart hs)]
  | cons d s ih =>
      rw [strstr.eq_def, if_neg (hstart hs)]
      exact ih fun hmem => hs (List.mem_cons_of_mem _ hmem)

/-- The bytes of an endpoint and what separates endpoints: digits and a few marks. -/
def isEndpointByte (c : UInt8) : Bool := isDigit c || c = 46 || c = 58 || c = 44 || c = 10

lemma isEndpointByte_text (e : Endpoint) : ∀ c ∈ e.text, isEndpointByte c = true := by
  have hdec : ∀ n, ∀ c ∈ decimal n, isEndpointByte c = true := by
    intro n c hc
    simp [isEndpointByte, (decimal_spec n).1 c hc]
  have hdot : ∀ c ∈ ascii ".", isEndpointByte c = true := List.all_eq_true.1 rfl
  have hcolon : ∀ c ∈ ascii ":", isEndpointByte c = true := List.all_eq_true.1 rfl
  intro c hc
  simp only [Endpoint.text, Endpoint.ip, dottedQuad, List.mem_append] at hc
  rcases hc with ((((((((hc | hc) | hc) | hc) | hc) | hc) | hc)) | hc) | hc
  all_goals first
    | exact hdec _ c hc
    | exact hdot c hc
    | exact hcolon c hc

lemma isEndpointByte_intercalate (es : List Endpoint) :
    ∀ c ∈ (ascii ",").intercalate (es.map Endpoint.text), isEndpointByte c = true := by
  induction es with
  | nil => simp
  | cons e es ih =>
      cases es with
      | nil => simpa using isEndpointByte_text e
      | cons e' es =>
          intro c hc
          rw [List.map_cons, List.map_cons, List.intercalate_cons_cons] at hc
          simp only [List.mem_append] at hc
          rcases hc with (hc | hc) | hc
          · exact isEndpointByte_text e c hc
          · rw [List.mem_singleton.1 hc]
            decide
          · exact ih c hc

/-- What comes behind the first endpoint. -/
lemma serversLine_cons (type : ServerType) (e : Endpoint) (es : List Endpoint) (newline : Bool) :
    ∃ rest, serversLine type (e :: es) newline
        = serversKeyword type ++ ascii " = " ++ (e.text ++ rest) ∧
      (∀ c ∈ rest.head?, isDigit c = false) ∧ ∀ c ∈ rest, isEndpointByte c = true := by
  have hend : ∀ c ∈ (if newline then ascii "\n" else []), c = 10 := by
    cases newline <;> simp [ascii]
  cases es with
  | nil =>
      refine ⟨if newline then ascii "\n" else [], by simp [serversLine], ?_, ?_⟩
      · intro c hc
        rw [hend c (List.mem_of_mem_head? hc)]
        decide
      · intro c hc
        rw [hend c hc]
        decide
  | cons e' es =>
      refine ⟨ascii "," ++ ((ascii ",").intercalate ((e' :: es).map Endpoint.text) ++
        if newline then ascii "\n" else []), ?_, ?_, ?_⟩
      · simp [serversLine, List.intercalate_cons_cons]
      · intro c hc
        obtain rfl : c = 44 := by simpa [ascii] using hc.symm
        decide
      · intro c hc
        simp only [List.mem_append] at hc
        rcases hc with hc | hc | hc
        · rw [List.mem_singleton.1 hc]
          decide
        · exact isEndpointByte_intercalate _ c hc
        · rw [hend c hc]
          decide

lemma length_text_le (e : Endpoint) : e.ip.length ≤ 15 ∧ (decimal e.port).length ≤ 5 :=
  ⟨length_dottedQuad_le (by omega) (by omega) (by omega) (by omega),
    length_decimal_le (by omega) (by omega)⟩

/-- The bytes of an address. -/
lemma isIp_ip (e : Endpoint) : ∀ c ∈ e.ip, (decide (c = 46) || isDigit c) = true := by
  have hdec : ∀ n, ∀ c ∈ decimal n, (decide (c = 46) || isDigit c) = true := by
    intro n c hc
    simp [(decimal_spec n).1 c hc]
  have hdot : ∀ c ∈ ascii ".", (decide (c = 46) || isDigit c) = true := List.all_eq_true.1 rfl
  intro c hc
  simp only [Endpoint.ip, dottedQuad, List.mem_append] at hc
  rcases hc with (((((hc | hc) | hc) | hc) | hc) | hc) | hc
  all_goals first
    | exact hdec _ c hc
    | exact hdot c hc

/-- An address begins with a digit. -/
lemma ip_eq_cons (e : Endpoint) : ∃ c rest, e.ip = c :: rest ∧ isDigit c = true := by
  obtain ⟨c, rest, hdec⟩ := List.exists_cons_of_ne_nil (decimal_ne_nil e.a)
  refine ⟨c, rest ++ (ascii "." ++ (decimal e.b ++ (ascii "." ++ (decimal e.c ++
    (ascii "." ++ decimal e.d))))), ?_, (decimal_spec e.a).1 c (by simp [hdec])⟩
  simp [Endpoint.ip, dottedQuad, hdec]

/-- The loop over the port runs over the digits other than `9`. -/
lemma portByte_eq (c : UInt8) :
    (decide (48 ≤ c) && decide (c < 57)) = (isDigit c && decide (c ≠ 57)) := by
  have hlt : c < 57 ↔ c ≤ 57 ∧ c ≠ 57 := by
    rw [UInt8.lt_iff_toNat_lt, UInt8.le_iff_toNat_le, ne_eq, ← UInt8.toNat_inj]
    omega
  rw [isDigit, Bool.and_assoc, ← Bool.decide_and (c ≤ 57), decide_eq_decide.2 hlt]

/-- The digits of the port, up to the first `9`. -/
lemma takeWhile_port (e : Endpoint) {rest : Bytes} (hrest : ∀ c ∈ rest.head?, isDigit c = false) :
    (decimal e.port ++ rest).takeWhile (fun c => decide (48 ≤ c) && decide (c < 57))
      = (decimal e.port).takeWhile (· ≠ 57) := by
  have hdigits := (decimal_spec e.port).1
  simp only [portByte_eq]
  generalize decimal e.port = ds at hdigits
  induction ds with
  | nil =>
      cases rest with
      | nil => rfl
      | cons c rest => simp [hrest c rfl]
  | cons c ds ih =>
      have hc : isDigit c = true := hdigits c (by simp)
      have ih' := ih fun c' hc' => hdigits c' (by simp [hc'])
      by_cases hnine : c = 57
      · simp [hnine]
      · rw [List.cons_append, List.takeWhile_cons_of_pos (by simp [hc, hnine]), ih',
          List.takeWhile_cons_of_pos (by simp [hnine])]

/-- The scanner of a line behind the search for the keyword. -/
def scanServer (cur : Bytes) (type : ServerType) : Outcome (Option (Bytes × Int × ServerType)) :=
  let cur := cur.dropWhile (· ≠ 61)
  if cur = [] then .ret none
  else
    let isIp := fun c => decide (c = 46) || isDigit c
    let cur := cur.dropWhile (! isDigit ·)
    let ip := cur.takeWhile isIp
    let cur := ((cur.dropWhile isIp).dropWhile (· ≠ 58)).tail
    let portStr := cur.takeWhile fun c => decide (48 ≤ c) && decide (c < 57)
    if ip.length + 1 > TxtBlocks.sizes.ip ∨ portStr.length + 1 > TxtBlocks.sizes.portStr then
      .fault
    else .ret (some (ip, atoi portStr, type))

lemma readServerLine_write {buf cur : Bytes} (h : strstr buf (ascii "write_servers") = some cur) :
    readServerLine buf = scanServer cur .write := by
  rw [readServerLine, h]
  rfl

lemma readServerLine_read {buf cur : Bytes} (hw : strstr buf (ascii "write_servers") = none)
    (hr : strstr buf (ascii "read_servers") = some cur) :
    readServerLine buf = scanServer cur .read := by
  rw [readServerLine, hw, hr]
  rfl

lemma strstr_keyword (type : ServerType) {x : Bytes} (hx : ∀ c ∈ x, isEndpointByte c = true) :
    strstr (serversKeyword type ++ (ascii " = " ++ x)) (ascii "write_servers")
        = (if type = .write then some (serversKeyword type ++ (ascii " = " ++ x)) else none) ∧
      strstr (serversKeyword .read ++ (ascii " = " ++ x)) (ascii "read_servers")
        = some (serversKeyword .read ++ (ascii " = " ++ x)) := by
  refine ⟨?_, strstr_append _ _⟩
  cases type with
  | write => exact strstr_append _ _
  | read =>
      -- there is no `w` in the line
      rw [if_neg (by decide)]
      refine strstr_eq_none (c := 119) (by decide) ?_
      simp only [List.mem_append, not_or]
      exact ⟨by decide, by decide, notMem_of_class hx rfl⟩

/-- The scanner of a line, from the `=` on. -/
lemma scan_endpoint (e : Endpoint) (rest : Bytes) :
    (ascii "= " ++ (e.text ++ rest)).dropWhile (! isDigit ·) = e.text ++ rest ∧
      (e.text ++ rest).takeWhile (fun c => decide (c = 46) || isDigit c) = e.ip ∧
      (e.text ++ rest).dropWhile (fun c => decide (c = 46) || isDigit c)
        = 58 :: (decimal e.port ++ rest) := by
  obtain ⟨c₀, ip', hip, hc₀⟩ := ip_eq_cons e
  have htext : e.text ++ rest = e.ip ++ 58 :: (decimal e.port ++ rest) := by
    have hcolon : ascii ":" = [58] := rfl
    simp [Endpoint.text, hcolon]
  refine ⟨?_, ?_, ?_⟩
  · rw [List.dropWhile_append_of_pos (List.all_eq_true.1 rfl), htext, hip]
    simp [hc₀]
  · rw [htext, List.takeWhile_append_of_pos (isIp_ip e)]
    simp [isDigit]
  · rw [htext, List.dropWhile_append_of_pos (isIp_ip e)]
    simp [isDigit]

/-- **A line gives its first endpoint**, with the digits of the port in front of the first
`9`. -/
lemma readServerLine_serversLine (type : ServerType) (e : Endpoint) (es : List Endpoint)
    (newline : Bool) :
    readServerLine (serversLine type (e :: es) newline) = .ret (some (e.ip, e.portRead, type)) := by
  obtain ⟨rest, hline, hhead, hbytes⟩ := serversLine_cons type e es newline
  have hline' : serversLine type (e :: es) newline
      = serversKeyword type ++ (ascii " = " ++ (e.text ++ rest)) := by
    rw [hline, List.append_assoc]
  have hx : ∀ c ∈ e.text ++ rest, isEndpointByte c = true := by
    intro c hc
    rcases List.mem_append.1 hc with hc | hc
    · exact isEndpointByte_text e c hc
    · exact hbytes c hc
  -- up to the `=`
  have heq : (serversKeyword type ++ (ascii " = " ++ (e.text ++ rest))).dropWhile (· ≠ 61)
      = ascii "= " ++ (e.text ++ rest) := by
    cases type <;> rfl
  have hne : ascii "= " ++ (e.text ++ rest) ≠ [] := by simp [ascii]
  obtain ⟨hstart, hip, hcolon⟩ := scan_endpoint e rest
  obtain ⟨hiplen, hportlen⟩ := length_text_le e
  have htakelen := (List.takeWhile_prefix (l := decimal e.port) (· ≠ (57 : UInt8))).length_le
  have hroom : ¬(e.ip.length + 1 > TxtBlocks.sizes.ip ∨
      ((decimal e.port).takeWhile (· ≠ 57)).length + 1 > TxtBlocks.sizes.portStr) := by
    simp only [TxtBlocks.sizes]
    omega
  have hscan : scanServer (serversKeyword type ++ (ascii " = " ++ (e.text ++ rest))) type
      = .ret (some (e.ip, e.portRead, type)) := by
    simp only [scanServer, heq, if_neg hne, hstart, hip, hcolon]
    rw [List.dropWhile_cons_of_neg (by simp), List.tail_cons, takeWhile_port e hhead, if_neg hroom]
    rfl
  obtain ⟨hwrite, hread⟩ := strstr_keyword type hx
  rw [hline']
  cases type with
  | write => exact (readServerLine_write hwrite).trans hscan
  | read => exact (readServerLine_read hwrite hread).trans hscan

/-! ### The port -/

/-- The port that is read is not greater than the port, and equal to it only when that has no
`9` among its digits. -/
lemma portRead_spec (e : Endpoint) :
    ∃ v : ℕ, e.portRead = v ∧ v ≤ e.port ∧ (v = e.port ↔ (57 : UInt8) ∉ decimal e.port) := by
  obtain ⟨hdig, hval⟩ := decimal_spec e.port
  have hsplit := List.takeWhile_append_dropWhile (p := fun c => decide (c ≠ (57 : UInt8)))
    (l := decimal e.port)
  have hle := le_digitsVal_append ((decimal e.port).takeWhile (· ≠ 57))
    ((decimal e.port).dropWhile (· ≠ 57))
  rw [hsplit, hval] at hle
  refine ⟨digitsVal ((decimal e.port).takeWhile (· ≠ 57)), ?_, hle, ?_⟩
  · refine atoi_digits (fun c hc => hdig c ((List.takeWhile_prefix _).subset hc)) ?_
    omega
  constructor
  · intro heq hmem
    -- the part that is read is followed by a `9`
    obtain ⟨ds', hdrop⟩ : ∃ ds', (decimal e.port).dropWhile (· ≠ 57) = 57 :: ds' := by
      rcases hd : (decimal e.port).dropWhile (· ≠ 57) with _ | ⟨c, ds'⟩
      · have hall := List.dropWhile_eq_nil_iff.1 hd 57 hmem
        simp at hall
      · have hhead := List.head?_dropWhile_not (fun c => decide (c ≠ (57 : UInt8))) (decimal e.port)
        rw [hd] at hhead
        have hc : c = 57 := by simpa using hhead
        exact ⟨ds', by rw [hd, hc]⟩
    have hlt := le_digitsVal_append ((decimal e.port).takeWhile (· ≠ 57) ++ [57]) ds'
    rw [List.append_assoc, List.singleton_append, ← hdrop, hsplit, hval, digitsVal_append] at hlt
    have hnine : (57 : UInt8).toNat - 48 = 9 := rfl
    omega
  · intro hno
    rw [List.takeWhile_eq_self_iff.2 (by
      intro c hc
      simpa using fun h : c = 57 => hno (h ▸ hc)), hval]

/-! ### Rounds -/

section Rounds

variable (probe : Bytes → UInt64 → UInt64) (fuel : ℕ)

/-- A round of the loop of `parser_read_txt_server`, with the line that it reads. -/
def readTxtServerLine (line : Bytes) (cluster : CqServerCluster) :
    Outcome (RetT × CqServerCluster) := do
  let (ret, _, cluster) ← readServerLines probe fuel 1 [line] cluster
  return (ret, cluster)

/-- The loop is its first round and the rest of it. -/
lemma readServerLines_cons (n : ℕ) (line : Bytes) (file : List Bytes) (cluster : CqServerCluster) :
    readServerLines probe fuel (n + 1) (line :: file) cluster = (do
      let (ret, cluster) ← readTxtServerLine probe fuel line cluster
      if ret = .failed then return (.failed, file, cluster)
      else readServerLines probe fuel n file cluster) := by
  simp only [readTxtServerLine, readServerLines, getline]
  rcases hread : readServerLine (line.takeWhile (· ≠ 0)) with q | _ | _ | _
  · rcases q with _ | ⟨ip, port, type⟩
    · simp
    · simp only [Outcome.ret_bind]
      by_cases hip : verifyIp ip = .failed
      · simp [hip]
      by_cases hport : verifyPort port = .failed
      · simp [hip, hport]
      rw [if_neg hip, if_neg hport, if_neg hip, if_neg hport]
      rcases cqClusterAdd probe fuel cluster (serverInit ip port type) with ⟨ret, c⟩ | _ | _ | _
      · cases ret <;> simp
      · rfl
      · rfl
      · rfl
  · rfl
  · rfl
  · rfl

lemma zero_notMem_serversLine (type : ServerType) (e : Endpoint) (es : List Endpoint)
    (newline : Bool) : (0 : UInt8) ∉ serversLine type (e :: es) newline := by
  obtain ⟨rest, hline, -, hbytes⟩ := serversLine_cons type e es newline
  rw [hline]
  simp only [List.mem_append, not_or]
  refine ⟨⟨?_, by decide⟩, notMem_of_class (isEndpointByte_text e) rfl,
    notMem_of_class hbytes rfl⟩
  cases type <;> decide

/-- What the parser makes of an endpoint. -/
def Endpoint.serverRead (e : Endpoint) (type : ServerType) : CqServer :=
  ⟨e.ip, e.portRead, serverName e.ip e.portRead, type⟩

lemma serverInit_serverRead (e : Endpoint) (type : ServerType) :
    serverInit e.ip e.portRead type = some (e.serverRead type) := by
  obtain ⟨v, hv, hle, -⟩ := portRead_spec e
  have hport : (decimal v).length ≤ 5 := length_decimal_le (by omega) (by omega)
  have hname : (serverName e.ip e.portRead).length ≤ maxServerNameLen := by
    have hcolon : (ascii ":").length = 1 := rfl
    have hip := (length_text_le e).1
    rw [hv]
    show (e.ip ++ ascii ":" ++ decimal v).length ≤ 21
    rw [List.length_append, List.length_append, hcolon]
    omega
  simp only [serverInit, gt_iff_lt, if_neg (Nat.not_lt_of_le hname)]
  rfl

/-- The round of a line adds the first endpoint of it, as it is read. -/
lemma readTxtServerLine_serversLine (type : ServerType) (e : Endpoint) (es : List Endpoint)
    (newline : Bool) (cluster : CqServerCluster) :
    readTxtServerLine probe fuel (serversLine type (e :: es) newline) cluster
      = cqClusterAdd probe fuel cluster (some (e.serverRead type)) := by
  have hbuf : (serversLine type (e :: es) newline).takeWhile (· ≠ 0)
      = serversLine type (e :: es) newline := by
    refine List.takeWhile_eq_self_iff.2 fun c hc => ?_
    simpa using fun h : c = 0 => zero_notMem_serversLine type e es newline (h ▸ hc)
  have hip : verifyIp e.ip = .succeed :=
    verifyIp_dottedQuad (by omega) (by omega) (by omega) (by omega)
  have hport : verifyPort e.portRead = .succeed := by
    obtain ⟨v, hv, hle, -⟩ := portRead_spec e
    rw [verifyPort, hv, if_pos (by omega)]
  simp only [readTxtServerLine, readServerLines, getline, hbuf, readServerLine_serversLine,
    Outcome.ret_bind, hip, hport, reduceCtorEq, if_false, serverInit_serverRead]
  rcases cqClusterAdd probe fuel cluster (some (e.serverRead type)) with ⟨ret, c⟩ | _ | _ | _
  · cases ret <;> rfl
  · rfl
  · rfl
  · rfl

end Rounds

/-! ### What a line registers -/

section Registered

variable {probe : Bytes → UInt64 → UInt64} {fuel : ℕ} {l : List CqServer}
  {cluster cluster' : CqServerCluster}

/-- What a cluster holds is determined by it. -/
lemma ClusterInv.mem_iff {l' : List CqServer} (h : ClusterInv probe l cluster)
    (h' : ClusterInv probe l' cluster) (s : CqServer) : s ∈ l ↔ s ∈ l' := by
  have hperm : ∀ type, (ofType type l).Perm (ofType type l') := by
    intro type
    cases type with
    | write => exact h.write.perm.symm.trans h'.write.perm
    | read => exact h.read.perm.symm.trans h'.read.perm
  have hmem : ∀ l : List CqServer, s ∈ ofType s.type l ↔ s ∈ l := by
    intro l
    simp [ofType]
  rw [← hmem l, ← hmem l', (hperm s.type).mem_iff]

lemma ClusterInv.length_ofType {l' : List CqServer} (h : ClusterInv probe l cluster)
    (h' : ClusterInv probe l' cluster) (type : ServerType) :
    (ofType type l).length = (ofType type l').length := by
  cases type with
  | write => exact (h.write.perm.symm.trans h'.write.perm).length_eq
  | read => exact (h.read.perm.symm.trans h'.read.perm).length_eq

/-- A round for a line that is successful has added one server. -/
lemma clusterInv_of_round (hinv : ClusterInv probe l cluster) {type : ServerType} {e : Endpoint}
    {es : List Endpoint} {newline : Bool}
    (hround : readTxtServerLine probe fuel (serversLine type (e :: es) newline) cluster
      = .ret (.succeed, cluster')) : ClusterInv probe (l ++ [e.serverRead type]) cluster' := by
  rw [readTxtServerLine_serversLine] at hround
  have hmade : serverInit (e.serverRead type).ip (e.serverRead type).port (e.serverRead type).type
      = some (e.serverRead type) := serverInit_serverRead e type
  have hmeets := cqClusterAdd_meets fuel hinv hmade
  rw [hround, Outcome.meets_ret] at hmeets
  rcases hmeets with ⟨-, -, hinv'⟩ | ⟨hret, -⟩
  · exact hinv'
  · cases hret

/-- A round for any line leaves a cluster that has got its servers by `cq_cluster_add`. -/
lemma exists_clusterInv_of_round (hinv : ClusterInv probe l cluster) {line : Bytes}
    (hround : readTxtServerLine probe fuel line cluster = .ret (.succeed, cluster')) :
    ∃ l', ClusterInv probe l' cluster' := by
  obtain ⟨⟨ret, file, c⟩, hlines, hret⟩ := Outcome.bind_eq_ret.1 hround
  obtain ⟨rfl, rfl⟩ := Prod.mk.inj (Outcome.ret.inj hret)
  simp only [readServerLines, getline] at hlines
  obtain ⟨q, -, hlines⟩ := Outcome.bind_eq_ret.1 hlines
  rcases q with _ | ⟨ip, port, type⟩
  · -- the line is skipped
    simp only [Outcome.ret.injEq, Prod.mk.injEq, true_and] at hlines
    exact ⟨l, hlines.2 ▸ hinv⟩
  · obtain ⟨-, hlines⟩ := guard_succeed hlines
    obtain ⟨-, hlines⟩ := guard_succeed hlines
    obtain ⟨⟨ret, c'⟩, hadd, hlines⟩ := Outcome.bind_eq_ret.1 hlines
    obtain ⟨rfl, hlines⟩ := guard_succeed hlines
    obtain ⟨-, rfl⟩ : _ ∧ c' = c := by simpa using hlines
    rcases hserver : serverInit ip port type with _ | s
    · rw [hserver] at hadd
      cases hadd
    · obtain ⟨hip, hport, htype, -⟩ := serverInit_fields hserver
      have hmade : serverInit s.ip s.port s.type = some s := by rw [hip, hport, htype, hserver]
      have hmeets := cqClusterAdd_meets fuel hinv hmade
      rw [← hserver, hadd, Outcome.meets_ret] at hmeets
      rcases hmeets with ⟨-, -, hinv'⟩ | ⟨hfailed, -⟩
      · exact ⟨_, hinv'⟩
      · cases hfailed

/-- The round of the line adds the server `s` to a cluster that holds `l`, and the loop goes on
with that cluster, wherever it stands in the loop. -/
def Registers (probe : Bytes → UInt64 → UInt64) (fuel : ℕ) (line : Bytes) (l : List CqServer)
    (cluster : CqServerCluster) (s : CqServer) : Prop :=
  ∃ cluster', readTxtServerLine probe fuel line cluster = .ret (.succeed, cluster') ∧
    ClusterInv probe (l ++ [s]) cluster' ∧
    ∀ n file, readServerLines probe fuel (n + 1) (line :: file) cluster
      = readServerLines probe fuel n file cluster'

/-- **When a TXT endpoint is read exactly.**  The line of an endpoint that is not registered yet
registers a server with its type, its address and its port if and only if there is no `9` among
the digits of the port. -/
theorem txt_endpoint_exact_iff (probe : Bytes → UInt64 → UInt64) (fuel : ℕ) (type : ServerType)
    (e : Endpoint) (newline : Bool) (l : List CqServer) (cluster : CqServerCluster)
    (hinv : ClusterInv probe l cluster) (hroom : l.length + 1 < 2 ^ 29)
    (hnew : (e.config type).server.name ∉ (ofType type l).map CqServer.name)
    (hloops : readTxtServerLine probe fuel (serversLine type [e] newline) cluster ≠ .spin) :
    Registers probe fuel (serversLine type [e] newline) l cluster (e.config type).server ↔
      (57 : UInt8) ∉ decimal e.port := by
  obtain ⟨v, hv, -, hnine⟩ := portRead_spec e
  rw [← hnine]
  constructor
  · -- the server that is registered is the one that is read
    rintro ⟨cluster', hround, hinv', -⟩
    have hmem := (hinv'.mem_iff (clusterInv_of_round hinv hround) (e.config type).server).1 (by simp)
    rcases List.mem_append.1 hmem with hold | hread
    · refine absurd (List.mem_map.2 ⟨_, ?_, rfl⟩) hnew
      simpa [ofType] using ⟨hold, rfl⟩
    · have hport := congrArg CqServer.port (List.mem_singleton.1 hread)
      simp only [ServerConfig.server, Endpoint.config, Endpoint.serverRead, hv] at hport
      omega
  · intro hport
    have hserver : e.serverRead type = (e.config type).server := by
      rw [Endpoint.serverRead, hv, hport]
      rfl
    rw [readTxtServerLine_serversLine, hserver] at hloops
    have hmade : serverInit (e.config type).server.ip (e.config type).server.port
        (e.config type).server.type = some (e.config type).server := serverInit_server _
    have hadd := cqClusterAdd_meets fuel hinv hmade
    rcases hadd.exists_ret_or_abort hloops with ⟨⟨ret, cluster'⟩, hret, hq⟩ | ⟨-, hfits⟩
    · rcases hq with ⟨rfl, -, hinv'⟩ | ⟨-, hold, -⟩
      · have hround : readTxtServerLine probe fuel (serversLine type [e] newline) cluster
            = .ret (.succeed, cluster') := by
          rw [readTxtServerLine_serversLine, hserver, hret]
        refine ⟨cluster', hround, hinv', fun n file => ?_⟩
        rw [readServerLines_cons, hround]
        rfl
      · exact absurd hold hnew
    · have hlen : (ofType (e.config type).server.type l).length ≤ l.length :=
        List.length_filter_le _ _
      have := le_of_not_fits hfits
      omega

/-- The round of the first line of a file comes to its end, whatever the probe function is. -/
lemma readTxtServerLine_cqClusterInit_ne_spin (probe : Bytes → UInt64 → UInt64) {fuel : ℕ}
    (hfuel : 0 < fuel) (type : ServerType) (e : Endpoint) (es : List Endpoint) (newline : Bool) :
    readTxtServerLine probe fuel (serversLine type (e :: es) newline) cqClusterInit ≠ .spin := by
  obtain ⟨h', hadd⟩ : ∃ h', hashAdd CqServer.name probe fuel (hashAlloc CqServer)
      (e.serverRead type) = .ret (.succeed, h') := hashAdd_hashAlloc hfuel _
  rw [readTxtServerLine_serversLine, cqClusterAdd]
  split
  · rw [addWriteServer, cqClusterInit, hadd]
    simp
  · rw [addReadServer, cqClusterInit, hadd]
    simp

/-- The cluster holds `l` and `n` servers of the type more. -/
def RegistersExactly (probe : Bytes → UInt64 → UInt64) (l : List CqServer)
    (cluster : CqServerCluster) (type : ServerType) (n : ℕ) : Prop :=
  ∃ ss : List CqServer, ss.length = n ∧ (∀ s ∈ ss, s.type = type) ∧
    ClusterInv probe (l ++ ss) cluster

/-- The round of a line registers as many servers as it lists only when it lists one. -/
lemma registersExactly_iff (hinv : ClusterInv probe l cluster) {type : ServerType}
    {es : List Endpoint} (hne : es ≠ []) {newline : Bool}
    (hround : readTxtServerLine probe fuel (serversLine type es newline) cluster
      = .ret (.succeed, cluster')) :
    RegistersExactly probe l cluster' type es.length ↔ es.length = 1 := by
  obtain ⟨e, es, rfl⟩ := List.exists_cons_of_ne_nil hne
  have hinv' := clusterInv_of_round hinv hround
  constructor
  · rintro ⟨ss, hlen, htypes, hss⟩
    have heq := hss.length_ofType hinv' type
    have hof : ofType type ss = ss := List.filter_eq_self.2 (by simpa using htypes)
    have hone : ofType type [e.serverRead type] = [e.serverRead type] := by
      simp [ofType, Endpoint.serverRead]
    simp only [ofType, List.filter_append, List.length_append] at heq hof hone
    rw [hof, hone] at heq
    simp only [List.length_singleton] at heq
    omega
  · intro hlen
    exact ⟨[e.serverRead type], by simp [hlen], by simp [Endpoint.serverRead], hinv'⟩

/-- **When no TXT server is dropped.**  A successful `parser_read_txt_server` is two successful
rounds, and the round of a line that lists endpoints registers as many servers of the type as it
lists if and only if it lists one. -/
theorem txt_servers_registered_iff (probe : Bytes → UInt64 → UInt64) (fuel : ℕ)
    (line₁ line₂ : Bytes) (file file' : List Bytes) (l : List CqServer)
    (cluster cluster' : CqServerCluster) (hinv : ClusterInv probe l cluster)
    (hrun : parserReadTxtServer probe fuel (line₁ :: line₂ :: file) cluster
      = .ret (.succeed, file', cluster')) :
    ∃ mid, readTxtServerLine probe fuel line₁ cluster = .ret (.succeed, mid) ∧
      readTxtServerLine probe fuel line₂ mid = .ret (.succeed, cluster') ∧
      ∃ l₁, ClusterInv probe l₁ mid ∧
      ∀ type es newline, es ≠ [] →
        (line₁ = serversLine type es newline →
          (RegistersExactly probe l mid type es.length ↔ es.length = 1)) ∧
        (line₂ = serversLine type es newline →
          (RegistersExactly probe l₁ cluster' type es.length ↔ es.length = 1)) := by
  rw [parserReadTxtServer, readServerLines_cons] at hrun
  obtain ⟨⟨ret₁, mid⟩, hround₁, hrest₁⟩ := Outcome.bind_eq_ret.1 hrun
  obtain ⟨hret₁, hsecond⟩ := guard_succeed hrest₁
  rw [hret₁] at hround₁
  rw [readServerLines_cons] at hsecond
  obtain ⟨⟨ret₂, cluster₂⟩, hround₂, hrest₂⟩ := Outcome.bind_eq_ret.1 hsecond
  obtain ⟨hret₂, hend⟩ := guard_succeed hrest₂
  obtain ⟨-, rfl⟩ : _ ∧ cluster₂ = cluster' := by simpa [readServerLines] using hend
  rw [hret₂] at hround₂
  obtain ⟨l₁, hmid⟩ := exists_clusterInv_of_round hinv hround₁
  refine ⟨mid, hround₁, hround₂, l₁, hmid, fun type es newline hne => ⟨?_, ?_⟩⟩
  · rintro rfl
    exact registersExactly_iff hinv hne hround₁
  · rintro rfl
    exact registersExactly_iff hmid hne hround₂

end Registered

/-! ### `config.txt.example` -/

theorem txt_endpoint_exact_example :
    Registers (hashFunc true) 100 (serversLine .write [⟨10, 1, 150, 1, 3306⟩] true) []
        cqClusterInit ((⟨10, 1, 150, 1, 3306⟩ : Endpoint).config .write).server :=
  (txt_endpoint_exact_iff (hashFunc true) 100 .write ⟨10, 1, 150, 1, 3306⟩ true [] cqClusterInit
    cqClusterInit_inv (by decide) (by decide)
    (readTxtServerLine_cqClusterInit_ne_spin _ (by decide) _ _ _ _)).2 (by decide)

/-- Port 3309 is read as 330. -/
theorem txt_endpoint_misread :
    ¬Registers (hashFunc true) 100 (serversLine .write [⟨10, 1, 150, 1, 3309⟩] true) []
      cqClusterInit ((⟨10, 1, 150, 1, 3309⟩ : Endpoint).config .write).server := by
  rintro ⟨cluster', hround, hinv', -⟩
  have hmem := (hinv'.mem_iff (clusterInv_of_round cqClusterInit_inv hround)
    ((⟨10, 1, 150, 1, 3309⟩ : Endpoint).config .write).server).1 (by simp)
  have hserver := List.mem_singleton.1 hmem
  exact absurd (congrArg CqServer.port hserver) (by decide)

/-- A section with one server in each line. -/
theorem txt_servers_registered_one :
    ∃ cluster', parserReadTxtServer (hashFunc true) 100
        [serversLine .write [⟨10, 1, 150, 1, 3306⟩] true,
          serversLine .read [⟨10, 1, 150, 1, 3306⟩] true] cqClusterInit
        = .ret (.succeed, [], cluster') ∧
      ∃ mid, readTxtServerLine (hashFunc true) 100
          (serversLine .write [⟨10, 1, 150, 1, 3306⟩] true) cqClusterInit = .ret (.succeed, mid) ∧
        RegistersExactly (hashFunc true) [] mid .write 1 := by
  have hok : (parserReadTxtServer (hashFunc true) 100
        [serversLine .write [⟨10, 1, 150, 1, 3306⟩] true,
          serversLine .read [⟨10, 1, 150, 1, 3306⟩] true] cqClusterInit >>=
      fun q => pure (q.1, q.2.1)) = .ret (.succeed, []) := by decide +kernel
  obtain ⟨⟨ret, file, cluster'⟩, hrun, hret⟩ := Outcome.bind_eq_ret.1 hok
  obtain ⟨rfl, rfl⟩ := Prod.mk.inj (Outcome.ret.inj hret)
  obtain ⟨mid, hround, -, l₁, -, hlines⟩ :=
    txt_servers_registered_iff (hashFunc true) 100 _ _ [] [] [] cqClusterInit cluster'
      cqClusterInit_inv hrun
  exact ⟨cluster', hrun, mid, hround, ((hlines .write _ true (by simp)).1 rfl).2 rfl⟩

/-- The file lists two write servers, and one of them is registered. -/
theorem txt_server_dropped :
    ∃ cluster', parserReadTxtServer (hashFunc true) 100
        [serversLine .write [⟨10, 1, 150, 1, 3306⟩, ⟨10, 1, 152, 1, 3306⟩] true,
          serversLine .read
            [⟨10, 1, 150, 1, 3306⟩, ⟨10, 1, 152, 1, 3306⟩, ⟨10, 1, 127, 1, 3306⟩] true]
        cqClusterInit = .ret (.succeed, [], cluster') ∧
      ¬RegistersExactly (hashFunc true) [] cluster' .write 2 := by
  have hok : (parserReadTxtServer (hashFunc true) 100
        [serversLine .write [⟨10, 1, 150, 1, 3306⟩, ⟨10, 1, 152, 1, 3306⟩] true,
          serversLine .read
            [⟨10, 1, 150, 1, 3306⟩, ⟨10, 1, 152, 1, 3306⟩, ⟨10, 1, 127, 1, 3306⟩] true]
        cqClusterInit >>=
      fun q => pure (q.1, q.2.1, q.2.2.writeServers.hashEntryCount)) = .ret (.succeed, [], 1) := by
    decide +kernel
  obtain ⟨⟨ret, file, cluster'⟩, hrun, hret⟩ := Outcome.bind_eq_ret.1 hok
  obtain ⟨rfl, rfl, hcount⟩ : ret = .succeed ∧ file = [] ∧
      cluster'.writeServers.hashEntryCount = 1 := by simpa using hret
  refine ⟨cluster', hrun, ?_⟩
  rintro ⟨ss, hlen, htypes, hss⟩
  have hof : ofType .write ([] ++ ss) = ss := List.filter_eq_self.2 (by simpa using htypes)
  have hheld := hss.write.count_eq
  rw [hof, hcount, hlen] at hheld
  exact absurd hheld (by decide)

end CheckQ
