import CheckQ.Parser.TxtServer

/-!
# The scanner of the server lines

The loops of `parser_read_txt_server` over a line, without the limits of the two blocks they
write to.  The cursor is null for a line without a keyword, and it is followed before it is
compared with `NULL`; the digits of the address and of the port are copied as many as there are.
The variable `type` is kept from one line to the next.

No call is safe, whatever the lines are: the blocks are cleared by as many bytes as a pointer has,
and the one of the port is smaller.  Apart from that, the lines that can break the scanner are
those without a keyword and those with an address or a port that does not fit its block.
-/

namespace CheckQ

/-- What the loops do with a line. -/
inductive LineScan where
  -- the cursor is null when it is followed
  | nullCursor
  -- there is no `=`
  | skipped
  -- what is copied to the two blocks, a terminator behind each, and the variable `type`
  | server (ip portStr : Bytes) (type : Option ServerType)
deriving DecidableEq, Repr

/-- A byte that is copied to the address. -/
def isIpByte (c : UInt8) : Bool := decide (c = 46) || isDigit c

/-- The body of the loop of `parser_read_txt_server`, up to the checks.  The variable `type` holds
`type` before it, and what it holds after it is returned as well. -/
def scanLine (type : Option ServerType) (buf : Bytes) : LineScan × Option ServerType :=
  let (cur, type) :=
    match strstr buf (ascii "write_servers"), strstr buf (ascii "read_servers") with
    | some cur, _ => (some cur, some ServerType.write)
    | none, some cur => (some cur, some ServerType.read)
    | none, none => (none, type)
  match cur with
  | none => (.nullCursor, type)
  | some cur =>
      let cur := cur.dropWhile (· ≠ 61)
      if cur = [] then (.skipped, type)
      else
        let cur := cur.dropWhile (! isDigit ·)
        let ip := cur.takeWhile isIpByte
        let cur := ((cur.dropWhile isIpByte).dropWhile (· ≠ 58)).tail
        let portStr := cur.takeWhile fun c => decide (48 ≤ c) && decide (c < 57)
        (.server ip portStr type, type)

/-- The reader of a line is the scanner, with the limits of the blocks. -/
lemma readServerLine_scanLine (prev : Option ServerType) (buf : Bytes) :
    readServerLine buf = match (scanLine prev buf).1 with
      | .server ip portStr (some type) =>
          if ip.length + 1 > TxtBlocks.sizes.ip ∨ portStr.length + 1 > TxtBlocks.sizes.portStr then
            .fault
          else .ret (some (ip, atoi portStr, type))
      | .skipped => .ret none
      | _ => .fault := by
  rw [readServerLine, scanLine]
  rcases strstr buf (ascii "write_servers") with _ | cur
  · rcases strstr buf (ascii "read_servers") with _ | cur
    · rfl
    · simp only [Outcome.ret_bind]
      split <;> rfl
  · simp only [Outcome.ret_bind]
    split <;> rfl

/-! ### The runs -/

section Runs

variable (probe : Bytes → UInt64 → UInt64) (fuel : ℕ)

/-- The lines that the loop of `parser_read_txt_server` comes to, with what its scanner does with
each.  The loop goes on to the next line when its body ends with success. -/
def scanRounds : ℕ → Option ServerType → List Bytes → CqServerCluster → List (Bytes × LineScan)
  | 0, _, _, _ => []
  | _ + 1, _, [], _ => []
  | n + 1, type, line :: file, cluster =>
      let buf := line.takeWhile (· ≠ 0)
      (buf, (scanLine type buf).1) ::
        match readTxtServerLine probe fuel line cluster with
        | .ret (.succeed, cluster) => scanRounds n (scanLine type buf).2 file cluster
        | _ => []

/-- What the loop writes to the blocks, behind the calls of `memset`. -/
def blocksWritten (rounds : List (Bytes × LineScan)) : TxtBlocks :=
  rounds.foldl (fun b p =>
    match p.2 with
    | .server ip portStr _ => b.copy ip portStr
    | _ => b) .memset

end Runs

/-- The text from the keyword on. -/
def keywordText (buf : Bytes) : Option Bytes :=
  (strstr buf (ascii "write_servers")).or (strstr buf (ascii "read_servers"))

/-- What the scanner may do with a line: the cursor is not null, at most 20 bytes are written for
the address and at most 7 for the port, the type is the one of a keyword of the line, and a line
without a keyword or without `=` is skipped. -/
structure LineOk (buf : Bytes) (scan : LineScan) : Prop where
  cursor : scan ≠ .nullCursor
  ip_fits : ∀ ip portStr type, scan = .server ip portStr type → ip.length + 1 ≤ 20
  port_fits : ∀ ip portStr type, scan = .server ip portStr type → portStr.length + 1 ≤ 7
  type_set : ∀ ip portStr type, scan = .server ip portStr type →
    ∃ t, type = some t ∧ (strstr buf (serversKeyword t)).isSome
  skips : keywordText buf = none ∨ 61 ∉ buf → scan = .skipped

/-- The digits and dots of the address, behind the `=`. -/
def addressText (cur : Bytes) : Bytes :=
  ((cur.dropWhile (· ≠ 61)).dropWhile (! isDigit ·)).takeWhile isIpByte

/-- The digits of the port, behind the `:`. -/
def portText (cur : Bytes) : Bytes :=
  ((((cur.dropWhile (· ≠ 61)).dropWhile (! isDigit ·)).dropWhile isIpByte).dropWhile
    (· ≠ 58)).tail.takeWhile fun c => decide (48 ≤ c) && decide (c < 57)

/-- The line has a keyword, and if there is a `=` behind it, an address of at most 19 bytes and a
port of at most 6. -/
def SafeLine (buf : Bytes) : Prop :=
  ∃ cur, keywordText buf = some cur ∧
    (61 ∈ cur → (addressText cur).length ≤ 19 ∧ (portText cur).length ≤ 6)

/-! ### Lines -/

/-- What is found is an end of the text. -/
lemma suffix_of_strstr {s t u : Bytes} (h : strstr s t = some u) : u <:+ s := by
  induction s with
  | nil =>
      rw [strstr.eq_def] at h
      split at h
      · cases h
        exact List.suffix_refl _
      · cases h
  | cons c s ih =>
      rw [strstr.eq_def] at h
      split at h
      · cases h
        exact List.suffix_refl _
      · exact (ih h).trans (List.suffix_cons c s)

lemma suffix_of_keywordText {buf cur : Bytes} (h : keywordText buf = some cur) : cur <:+ buf := by
  rw [keywordText, Option.or_eq_some_iff] at h
  rcases h with h | ⟨-, h⟩
  · exact suffix_of_strstr h
  · exact suffix_of_strstr h

/-- The scanner, by the keyword of the line. -/
lemma scanLine_cases (prev : Option ServerType) (buf : Bytes) :
    (keywordText buf = none ∧ (scanLine prev buf).1 = .nullCursor) ∨
      ∃ cur t, keywordText buf = some cur ∧ (strstr buf (serversKeyword t)).isSome ∧
        (scanLine prev buf).1 =
          if 61 ∈ cur then .server (addressText cur) (portText cur) (some t) else .skipped := by
  have hrest : ∀ (cur : Bytes) (t : ServerType),
      (if cur.dropWhile (· ≠ 61) = [] then LineScan.skipped
        else .server (addressText cur) (portText cur) (some t)) =
      if 61 ∈ cur then .server (addressText cur) (portText cur) (some t) else .skipped := by
    intro cur t
    have hnone : cur.dropWhile (· ≠ 61) = [] ↔ 61 ∉ cur := by
      rw [List.dropWhile_eq_nil_iff]
      simp only [ne_eq, decide_not, Bool.not_eq_eq_eq_not, Bool.not_true, decide_eq_false_iff_not]
      exact ⟨fun h hmem => h 61 hmem rfl, fun h c hc heq => h (heq ▸ hc)⟩
    by_cases hmem : 61 ∈ cur
    · rw [if_neg (by rw [hnone]; exact not_not.2 hmem), if_pos hmem]
    · rw [if_pos (hnone.2 hmem), if_neg hmem]
  rw [keywordText, scanLine]
  cases hw : strstr buf (ascii "write_servers") with
  | some cur =>
      refine Or.inr ⟨cur, .write, rfl, ?_, ?_⟩
      · rw [serversKeyword, hw]
        rfl
      · rw [← hrest]
        dsimp only
        split <;> rfl
  | none =>
      cases hr : strstr buf (ascii "read_servers") with
      | some cur =>
          refine Or.inr ⟨cur, .read, rfl, ?_, ?_⟩
          · rw [serversKeyword, hr]
            rfl
          · rw [← hrest]
            dsimp only
            split <;> rfl
      | none => exact Or.inl ⟨rfl, rfl⟩

/-- The scanner does what it may do exactly with the safe lines. -/
lemma lineOk_iff (prev : Option ServerType) (buf : Bytes) :
    LineOk buf (scanLine prev buf).1 ↔ SafeLine buf := by
  rcases scanLine_cases prev buf with ⟨hnone, hscan⟩ | ⟨cur, t, hcur, ht, hscan⟩
  · rw [hscan]
    constructor
    · intro hok
      exact absurd rfl hok.cursor
    · rintro ⟨cur, hcur, -⟩
      rw [hnone] at hcur
      cases hcur
  · rw [hscan]
    by_cases hmem : 61 ∈ cur
    · rw [if_pos hmem]
      constructor
      · intro hok
        exact ⟨cur, hcur, fun _ => ⟨Nat.le_of_succ_le_succ (hok.ip_fits _ _ _ rfl),
          Nat.le_of_succ_le_succ (hok.port_fits _ _ _ rfl)⟩⟩
      · rintro ⟨cur', hcur', hlen⟩
        obtain rfl : cur' = cur := Option.some.inj (hcur'.symm.trans hcur)
        obtain ⟨hip, hport⟩ := hlen hmem
        refine ⟨by simp, ?_, ?_, ?_, ?_⟩
        · rintro ip portStr type heq
          cases heq
          omega
        · rintro ip portStr type heq
          cases heq
          omega
        · rintro ip portStr type heq
          cases heq
          exact ⟨t, rfl, ht⟩
        · rintro (hnone | hno)
          · rw [hnone] at hcur
            cases hcur
          · exact absurd ((suffix_of_keywordText hcur).subset hmem) hno
    · rw [if_neg hmem]
      constructor
      · exact fun _ => ⟨cur, hcur, fun h => absurd h hmem⟩
      · exact fun _ => ⟨by simp, by simp, by simp, by simp, fun _ => rfl⟩

/-- A line that is scanned as it may be is read to its end. -/
lemma LineOk.returns {prev : Option ServerType} {buf : Bytes}
    (h : LineOk buf (scanLine prev buf).1) : ∃ r, readServerLine buf = .ret r := by
  rw [readServerLine_scanLine prev]
  cases hscan : (scanLine prev buf).1 with
  | nullCursor => exact absurd hscan h.cursor
  | skipped => exact ⟨none, rfl⟩
  | server ip portStr type =>
      obtain ⟨t, rfl, -⟩ := h.type_set ip portStr type hscan
      have hip := h.ip_fits ip portStr _ hscan
      have hport := h.port_fits ip portStr _ hscan
      exact ⟨some (ip, atoi portStr, t), if_neg (by simp only [TxtBlocks.sizes]; omega)⟩

/-- **Which lines the scanner is safe on**, apart from the `memset`.  For every two lines behind
`[server]`, whatever the file goes on with and the cluster holds: the scanner ends on each line
that the loop comes to, never follows a null cursor, never writes behind a block, uses a type of
the line and skips the lines without a keyword or `=`, if and only if the first line is a safe
one and so is the second, if the loop comes to it. -/
theorem scanRounds_ok_iff (probe : Bytes → UInt64 → UInt64) (fuel : ℕ) (line₁ line₂ : Bytes)
    (file : List Bytes) (type : Option ServerType) (cluster : CqServerCluster) :
    (∀ p ∈ scanRounds probe fuel 2 type (line₁ :: line₂ :: file) cluster,
        LineOk p.1 p.2 ∧ ∃ r, readServerLine p.1 = .ret r) ↔
      SafeLine (line₁.takeWhile (· ≠ 0)) ∧
        ((∃ cluster', readTxtServerLine probe fuel line₁ cluster = .ret (.succeed, cluster')) →
          SafeLine (line₂.takeWhile (· ≠ 0))) := by
  have hline : ∀ (prev : Option ServerType) (buf : Bytes),
      (LineOk buf (scanLine prev buf).1 ∧ ∃ r, readServerLine buf = .ret r) ↔ SafeLine buf := by
    intro prev buf
    rw [← lineOk_iff prev buf]
    exact ⟨And.left, fun h => ⟨h, h.returns⟩⟩
  rw [scanRounds, List.forall_mem_cons, hline]
  refine and_congr_right fun _ => ?_
  split
  · rename_i cluster' hround
    simp only [scanRounds]
    rw [List.forall_mem_cons, hline]
    constructor
    · exact fun h _ => h.1
    · refine fun h => ⟨h ⟨cluster', hround⟩, ?_⟩
      split <;> simp
  · rename_i hstop
    constructor
    · rintro - ⟨cluster', hround⟩
      exact absurd hround (hstop cluster')
    · simp

/-! ### Whole calls -/

/-- A copy only adds to what has been written. -/
lemma portStr_memset_le (rounds : List (Bytes × LineScan)) :
    TxtBlocks.memset.portStr ≤ (blocksWritten rounds).portStr := by
  rw [blocksWritten]
  generalize TxtBlocks.memset = b
  induction rounds generalizing b with
  | nil => exact le_rfl
  | cons p rounds ih =>
      rw [List.foldl_cons]
      refine le_trans ?_ (ih _)
      split
      · exact le_max_left _ _
      · exact le_rfl

/-- A call of `parser_read_txt_server` does what it may do: it returns, it writes no more than
their sizes to the two blocks, and its loop does with each line what it may do. -/
structure TxtServerSafe (probe : Bytes → UInt64 → UInt64) (fuel : ℕ) (file : List Bytes)
    (type : Option ServerType) (cluster : CqServerCluster) : Prop where
  returns : ∃ q, parserReadTxtServer probe fuel file cluster = .ret q
  ip_block : (blocksWritten (scanRounds probe fuel 2 type file cluster)).ip ≤ TxtBlocks.sizes.ip
  port_block : (blocksWritten (scanRounds probe fuel 2 type file cluster)).portStr
    ≤ TxtBlocks.sizes.portStr
  lines : ∀ p ∈ scanRounds probe fuel 2 type file cluster, LineOk p.1 p.2

/-- **No call is safe**: `memset` writes the size of a pointer to the block of the port, which has
seven bytes. -/
theorem txt_server_never_safe (probe : Bytes → UInt64 → UInt64) (fuel : ℕ) (line₁ line₂ : Bytes)
    (file : List Bytes) (type : Option ServerType) (cluster : CqServerCluster) :
    ¬TxtServerSafe probe fuel (line₁ :: line₂ :: file) type cluster := by
  intro h
  exact absurd ((portStr_memset_le _).trans h.port_block) (by decide)

/-- Two lines as the documentation has them. -/
theorem txt_server_memset_overrun :
    ¬∀ (probe : Bytes → UInt64 → UInt64) (fuel : ℕ) (line₁ line₂ : Bytes) (file : List Bytes)
        (type : Option ServerType) (cluster : CqServerCluster),
      TxtServerSafe probe fuel (line₁ :: line₂ :: file) type cluster := by
  intro hall
  have hsafe := (hall (hashFunc true) 100 (ascii "write_servers = 10.1.150.1:3306")
    (ascii "read_servers = 10.1.150.1:3306") [] none cqClusterInit).port_block
  revert hsafe
  decide +kernel

/-- A line without a keyword is not a safe one: the cursor is null, and it is followed. -/
example : readServerLine (ascii "servers = 10.1.150.1:3306") = .fault := by decide +kernel

end CheckQ
