import CheckQ.Parser.TxtScan
import CheckQ.Table.SchemaArray

/-!
# The sections of a TXT file

`parser_read_txt` looks for the heading of a section in each line, and the reader of the section
takes the lines behind it: two for the servers, four for the rates, two for the window and those
up to `);` for a table.  What is said here of the lines of a section is what makes its reader take
them or refuse them: `SectionTaken` and `SectionRefused`.  A section that is neither is one whose
reader does not return.

A file is taken when its sections are, one after the other; it is refused when a section is, and
those before it are taken.  The loop of `parser_read_txt` ends at the end of the file exactly in
the first case, and with `RET_FAILED` exactly in the second.
-/

namespace CheckQ

open Regex

/-! ### What a line assigns -/

/-- The rate that a line assigns, and its value. -/
def rateOf (line : Bytes) : Option (ℕ × Double) :=
  let buf := line.takeWhile (· ≠ 0)
  (regexec patternRate buf).bind fun m =>
    (rateIndex ((buf.drop (group m 1).1).headD 0)).bind fun i =>
      (scanDouble (buf.drop (group m 2).1)).map fun x => (i, x)

/-- The variables of a window. -/
inductive WindowVar where
  | rows
  | cols
deriving DecidableEq, Repr

/-- The variable that a name stands for; `cmd_rows` is looked for first. -/
def windowVar (name : Bytes) : Option WindowVar :=
  if (strstr name (ascii "cmd_rows")).isSome then some .rows
  else if (strstr name (ascii "cmd_cols")).isSome then some .cols
  else none

/-- The variable of the window that a line assigns, and its value. -/
def windowOf (line : Bytes) : Option (WindowVar × Int) :=
  let buf := line.takeWhile (· ≠ 0)
  (regexec patternWindow buf).bind fun m =>
    (windowVar (buf.drop (group m 1).1)).bind fun var =>
      (scanInt (buf.drop (group m 2).1)).map fun x => (var, x.1)

/-! ### Sections of a file -/

/-- The kinds of sections. -/
inductive SectionKind where
  | server
  | table
  | cmdRate
  | cmdWindow
deriving DecidableEq, Repr

/-- The section that a line begins; the names are looked for in this order. -/
def sectionKind (line : Bytes) : Option SectionKind :=
  let buf := line.takeWhile (· ≠ 0)
  if (strstr buf (ascii "[server]")).isSome then some .server
  else if (strstr buf (ascii "[table]")).isSome then some .table
  else if (strstr buf (ascii "[cmd_rate]")).isSome then some .cmdRate
  else if (strstr buf (ascii "[cmd_window]")).isSome then some .cmdWindow
  else none

/-- The number of lines of a table: up to the first line with `);`. -/
def tableSize : List Bytes → ℕ
  | [] => 0
  | line :: file =>
      if (regexec patternTableEnd (line.takeWhile (· ≠ 0))).isSome then 1
      else tableSize file + 1

/-- The number of lines that the reader of a section takes off the file. -/
def sectionSize (file : List Bytes) : SectionKind → ℕ
  | .server => 2
  | .table => tableSize file
  | .cmdRate => 4
  | .cmdWindow => 2

namespace TxtLocals

/-- A line of a section assigns what it names. -/
def assign (v : TxtLocals) : SectionKind × Bytes → TxtLocals
  | (.cmdRate, line) =>
      match rateOf line with
      | none => v
      | some (i, x) => { v with rate := v.rate.set i (some x) }
  | (.cmdWindow, line) =>
      match windowOf line with
      | none => v
      | some (.rows, x) => { v with rows := some x }
      | some (.cols, x) => { v with cols := some x }
  | _ => v

end TxtLocals

/-- The lines of a section, with its kind. -/
def labelled (kind : SectionKind) (lines : List Bytes) : List (SectionKind × Bytes) :=
  lines.map fun line => (kind, line)

lemma labelled_cons (kind : SectionKind) (line : Bytes) (lines : List Bytes) :
    labelled kind (line :: lines) = (kind, line) :: labelled kind lines := rfl

/-! ### Lines of servers -/

/-- The text from the keyword on, with the type that the keyword stands for. -/
def serversText (buf : Bytes) : Option (Bytes × ServerType) :=
  match strstr buf (ascii "write_servers"), strstr buf (ascii "read_servers") with
  | some cur, _ => some (cur, .write)
  | none, some cur => some (cur, .read)
  | none, none => none

/-- There is no `=` behind the keyword. -/
def NamesNoServer (buf : Bytes) : Prop := ∃ cur type, serversText buf = some (cur, type) ∧ 61 ∉ cur

/-- The line has a keyword, a `=`, and behind it this address and this port, which fit their
blocks. -/
def NamesServer (buf : Bytes) (call : ClusterCall) : Prop :=
  ∃ cur, serversText buf = some (cur, call.type) ∧ 61 ∈ cur ∧
    addressText cur = call.ip ∧ atoi (portText cur) = call.port ∧
    (addressText cur).length ≤ 19 ∧ (portText cur).length ≤ 6

section

variable (probe : Bytes → UInt64 → UInt64) (fuel : ℕ)

/-- The line names no server, or one with a valid address and port that is added to the cluster. -/
def ServerTaken (line : Bytes) (cluster cluster' : CqServerCluster) : Prop :=
  (NamesNoServer (line.takeWhile (· ≠ 0)) ∧ cluster' = cluster) ∨
    ∃ call, NamesServer (line.takeWhile (· ≠ 0)) call ∧ verifyIp call.ip = .succeed ∧
      verifyPort call.port = .succeed ∧
      clusterStep probe fuel call cluster = .ret (.succeed, cluster')

/-- The line names a server whose address or port is not valid, or that the cluster refuses. -/
def ServerRefused (line : Bytes) (cluster : CqServerCluster) : Prop :=
  ∃ call, NamesServer (line.takeWhile (· ≠ 0)) call ∧
    (verifyIp call.ip = .failed ∨ verifyPort call.port = .failed ∨
      ∃ cluster', clusterStep probe fuel call cluster = .ret (.failed, cluster'))

/-- Two lines that are taken, at the beginning of the rest of the file. -/
inductive TxtServersTaken : List Bytes → CqServerCluster → CqServerCluster → Prop
  | both {line₁ line₂ : Bytes} {file : List Bytes} {cluster mid cluster' : CqServerCluster} :
      ServerTaken probe fuel line₁ cluster mid → ServerTaken probe fuel line₂ mid cluster' →
      TxtServersTaken (line₁ :: line₂ :: file) cluster cluster'

/-- Of the two lines one is refused, or there are not so many. -/
inductive TxtServersRefused : List Bytes → CqServerCluster → Prop
  | noFirst {cluster : CqServerCluster} : TxtServersRefused [] cluster
  | first {line : Bytes} {file : List Bytes} {cluster : CqServerCluster} :
      ServerRefused probe fuel line cluster → TxtServersRefused (line :: file) cluster
  | noSecond {line : Bytes} {cluster mid : CqServerCluster} :
      ServerTaken probe fuel line cluster mid → TxtServersRefused [line] cluster
  | second {line₁ line₂ : Bytes} {file : List Bytes} {cluster mid : CqServerCluster} :
      ServerTaken probe fuel line₁ cluster mid → ServerRefused probe fuel line₂ mid →
      TxtServersRefused (line₁ :: line₂ :: file) cluster

end

/-- The reader of a line is the scanner, from the keyword on. -/
lemma readServerLine_eq (buf : Bytes) :
    readServerLine buf = match serversText buf with
      | none => .fault
      | some (cur, type) => scanServer cur type := by
  rw [serversText]
  rcases hw : strstr buf (ascii "write_servers") with _ | cur
  · rcases hr : strstr buf (ascii "read_servers") with _ | cur
    · rw [readServerLine, hw, hr]
      rfl
    · exact readServerLine_read hw hr
  · exact readServerLine_write hw

/-- The scanner behind the keyword, by what is behind it. -/
lemma scanServer_eq (cur : Bytes) (type : ServerType) :
    scanServer cur type =
      if 61 ∉ cur then .ret none
      else if (addressText cur).length ≤ 19 ∧ (portText cur).length ≤ 6 then
        .ret (some (addressText cur, atoi (portText cur), type))
      else .fault := by
  have hnone : cur.dropWhile (· ≠ 61) = [] ↔ 61 ∉ cur := by
    rw [List.dropWhile_eq_nil_iff]
    simp only [ne_eq, decide_not, Bool.not_eq_eq_eq_not, Bool.not_true, decide_eq_false_iff_not]
    exact ⟨fun h hmem => h 61 hmem rfl, fun h c hc heq => h (heq ▸ hc)⟩
  rw [scanServer]
  by_cases hmem : 61 ∈ cur
  · simp only [hnone, not_not.2 hmem, if_false]
    by_cases hfit : (addressText cur).length ≤ 19 ∧ (portText cur).length ≤ 6
    · rw [if_pos hfit]
      refine if_neg ?_
      simp only [TxtBlocks.sizes]
      exact not_or.2 ⟨fun h => absurd hfit.1 (by exact Nat.not_le.2 (Nat.lt_of_succ_lt_succ h)),
        fun h => absurd hfit.2 (by exact Nat.not_le.2 (Nat.lt_of_succ_lt_succ h))⟩
    · rw [if_neg hfit]
      refine if_pos ?_
      simp only [TxtBlocks.sizes]
      rcases not_and_or.1 hfit with h | h
      · exact Or.inl (Nat.succ_lt_succ (Nat.not_le.1 h))
      · exact Or.inr (Nat.succ_lt_succ (Nat.not_le.1 h))
  · simp only [hnone, hmem, not_false_eq_true, if_true]

/-- What the reader of a line returns is what the line names. -/
lemma readServerLine_ret_iff (buf : Bytes) :
    (readServerLine buf = .ret none ↔ NamesNoServer buf) ∧
      ∀ call : ClusterCall, readServerLine buf = .ret (some (call.ip, call.port, call.type)) ↔
        NamesServer buf call := by
  rw [readServerLine_eq]
  rcases htext : serversText buf with _ | ⟨cur, type⟩
  · simp [NamesNoServer, NamesServer, htext]
  · simp only [NamesNoServer, NamesServer, htext, scanServer_eq, Option.some.injEq, Prod.mk.injEq]
    by_cases hmem : 61 ∈ cur
    · by_cases hfit : (addressText cur).length ≤ 19 ∧ (portText cur).length ≤ 6
      · constructor
        · simp [hmem, hfit]
        · intro call
          simp only [hmem, not_true_eq_false, if_false, hfit, and_self, if_true, Outcome.ret.injEq,
            Option.some.injEq, Prod.mk.injEq]
          constructor
          · rintro ⟨hip, hport, htype⟩
            exact ⟨cur, ⟨rfl, htype⟩, hmem, hip, hport, hfit⟩
          · rintro ⟨_, ⟨rfl, htype⟩, -, hip, hport, -⟩
            exact ⟨hip, hport, htype⟩
      · constructor
        · simp [hmem, hfit]
        · intro call
          simp only [hmem, not_true_eq_false, if_false, hfit, if_false, reduceCtorEq, false_iff]
          rintro ⟨_, ⟨rfl, -⟩, -, -, -, hfit'⟩
          exact hfit hfit'
    · constructor
      · simp [hmem]
      · intro call
        simp only [hmem, not_false_eq_true, if_true, Outcome.ret.injEq, reduceCtorEq, false_iff]
        rintro ⟨_, ⟨rfl, -⟩, hmem', -⟩
        exact hmem hmem'

section Servers

variable {probe : Bytes → UInt64 → UInt64} {fuel : ℕ} {line : Bytes} {file : List Bytes}
  {cluster cluster' : CqServerCluster}

/-- The round of a line, from what it names. -/
lemma readTxtServerLine_eq (line : Bytes) (cluster : CqServerCluster) :
    readTxtServerLine probe fuel line cluster = (do
      match ← readServerLine (line.takeWhile (· ≠ 0)) with
      | none => return (.succeed, cluster)
      | some (ip, port, type) =>
          if verifyIp ip = .failed ∨ verifyPort port = .failed then return (.failed, cluster)
          else clusterStep probe fuel ⟨ip, port, type⟩ cluster) := by
  simp only [readTxtServerLine, readServerLines, getline, clusterStep, callServerInit_bind]
  rcases readServerLine (line.takeWhile (· ≠ 0)) with q | _ | _ | _
  · rcases q with _ | ⟨ip, port, type⟩
    · simp
    · simp only [Outcome.ret_bind]
      by_cases hip : verifyIp ip = .failed
      · simp [hip]
      by_cases hport : verifyPort port = .failed
      · simp [hip, hport]
      rw [if_neg hip, if_neg hport, if_neg (not_or.2 ⟨hip, hport⟩)]
      rcases cqClusterAdd probe fuel cluster (serverInit ip port type) with ⟨ret, c⟩ | _ | _ | _
      · cases ret <;> simp
      · rfl
      · rfl
      · rfl
  · rfl
  · rfl
  · rfl

lemma succeed_of_not_failed {r : RetT} (h : r ≠ .failed) : r = .succeed := by
  cases r with
  | succeed => rfl
  | failed => exact absurd rfl h

/-- A line is taken when its round goes on, and refused when it fails. -/
lemma readTxtServerLine_iff :
    (∀ mid, readTxtServerLine probe fuel line cluster = .ret (.succeed, mid) ↔
        ServerTaken probe fuel line cluster mid) ∧
      ((∃ c, readTxtServerLine probe fuel line cluster = .ret (.failed, c)) ↔
        ServerRefused probe fuel line cluster) := by
  obtain ⟨hnone, hsome⟩ := readServerLine_ret_iff (line.takeWhile (· ≠ 0))
  simp only [readTxtServerLine_eq, ServerTaken, ServerRefused, ← hnone, ← hsome]
  rcases hread : readServerLine (line.takeWhile (· ≠ 0)) with q | _ | _ | _
  · rcases q with _ | ⟨ip, port, type⟩
    · simp [eq_comm]
    · simp only [Outcome.ret_bind, Outcome.ret.injEq, Option.some.injEq, Prod.mk.injEq,
        reduceCtorEq, false_and, false_or]
      by_cases hbad : verifyIp ip = .failed ∨ verifyPort port = .failed
      · rw [if_pos hbad]
        constructor
        · simp only [Outcome.pure_eq, Outcome.ret.injEq, Prod.mk.injEq, reduceCtorEq, false_and,
            false_iff]
          rintro mid ⟨⟨_, _, _⟩, ⟨rfl, rfl, rfl⟩, hip, hport, -⟩
          simp [hip, hport] at hbad
        · refine iff_of_true ⟨cluster, rfl⟩ ⟨⟨ip, port, type⟩, ⟨rfl, rfl, rfl⟩, ?_⟩
          exact hbad.imp_right Or.inl
      · rw [if_neg hbad]
        obtain ⟨hip, hport⟩ := not_or.1 hbad
        constructor
        · intro mid
          constructor
          · intro h
            exact ⟨⟨ip, port, type⟩, ⟨rfl, rfl, rfl⟩, succeed_of_not_failed hip,
              succeed_of_not_failed hport, h⟩
          · rintro ⟨⟨_, _, _⟩, ⟨rfl, rfl, rfl⟩, -, -, h⟩
            exact h
        · constructor
          · rintro ⟨c, h⟩
            exact ⟨⟨ip, port, type⟩, ⟨rfl, rfl, rfl⟩, Or.inr (Or.inr ⟨c, h⟩)⟩
          · rintro ⟨⟨_, _, _⟩, ⟨rfl, rfl, rfl⟩, h | h | h⟩
            · exact absurd h hip
            · exact absurd h hport
            · exact h
  all_goals simp

/-- The loop goes on behind a line that is taken. -/
lemma readServerLines_succeed_iff {n : ℕ} {file' : List Bytes} :
    readServerLines probe fuel (n + 1) (line :: file) cluster = .ret (.succeed, file', cluster') ↔
      ∃ mid, ServerTaken probe fuel line cluster mid ∧
        readServerLines probe fuel n file mid = .ret (.succeed, file', cluster') := by
  rw [readServerLines_cons, Outcome.bind_eq_ret]
  constructor
  · rintro ⟨⟨ret, mid⟩, hline, hrest⟩
    obtain ⟨rfl, hrest⟩ := guard_succeed hrest
    exact ⟨mid, (readTxtServerLine_iff.1 mid).1 hline, hrest⟩
  · rintro ⟨mid, htaken, hrest⟩
    exact ⟨(.succeed, mid), (readTxtServerLine_iff.1 mid).2 htaken, hrest⟩

/-- The loop fails at a line that is refused, or behind one that is taken. -/
lemma readServerLines_failed_iff {n : ℕ} :
    (∃ q, readServerLines probe fuel (n + 1) (line :: file) cluster = .ret (.failed, q)) ↔
      ServerRefused probe fuel line cluster ∨ ∃ mid, ServerTaken probe fuel line cluster mid ∧
        ∃ q, readServerLines probe fuel n file mid = .ret (.failed, q) := by
  rw [readServerLines_cons]
  constructor
  · rintro ⟨q, h⟩
    obtain ⟨⟨ret, mid⟩, hline, hrest⟩ := Outcome.bind_eq_ret.1 h
    cases ret with
    | failed => exact Or.inl (readTxtServerLine_iff.2.1 ⟨mid, hline⟩)
    | succeed => exact Or.inr ⟨mid, (readTxtServerLine_iff.1 mid).1 hline, q, hrest⟩
  · rintro (hrefused | ⟨mid, htaken, q, hrest⟩)
    · obtain ⟨c, hline⟩ := readTxtServerLine_iff.2.2 hrefused
      exact ⟨(file, c), by rw [hline]; rfl⟩
    · exact ⟨q, by rw [(readTxtServerLine_iff.1 mid).2 htaken]; exact hrest⟩

/-- The two lines are taken when the section is read. -/
lemma parserReadTxtServer_succeed_iff {file' : List Bytes} :
    parserReadTxtServer probe fuel file cluster = .ret (.succeed, file', cluster') ↔
      TxtServersTaken probe fuel file cluster cluster' ∧ file' = file.drop 2 := by
  rw [parserReadTxtServer]
  rcases file with _ | ⟨line₁, _ | ⟨line₂, file⟩⟩
  · refine iff_of_false (by simp [readServerLines, getline]) ?_
    rintro ⟨⟨⟩, -⟩
  · refine iff_of_false (fun h => ?_) ?_
    · obtain ⟨mid, -, h⟩ := readServerLines_succeed_iff.1 h
      simp [readServerLines, getline] at h
    · rintro ⟨⟨⟩, -⟩
  · constructor
    · intro h
      obtain ⟨mid, h₁, h⟩ := readServerLines_succeed_iff.1 h
      obtain ⟨mid', h₂, h⟩ := readServerLines_succeed_iff.1 h
      obtain ⟨rfl, rfl⟩ : file = file' ∧ mid' = cluster' := by simpa [readServerLines] using h
      exact ⟨.both h₁ h₂, rfl⟩
    · rintro ⟨⟨h₁, h₂⟩, rfl⟩
      exact readServerLines_succeed_iff.2 ⟨_, h₁, readServerLines_succeed_iff.2 ⟨_, h₂, rfl⟩⟩

/-- One of the two lines is refused, or missing, when the section fails. -/
lemma parserReadTxtServer_failed_iff :
    (∃ q, parserReadTxtServer probe fuel file cluster = .ret (.failed, q)) ↔
      TxtServersRefused probe fuel file cluster := by
  rw [parserReadTxtServer]
  rcases file with _ | ⟨line₁, _ | ⟨line₂, file⟩⟩
  · exact iff_of_true ⟨([], cluster), rfl⟩ .noFirst
  · rw [readServerLines_failed_iff]
    constructor
    · rintro (h | ⟨mid, h, -⟩)
      · exact .first h
      · exact .noSecond h
    · rintro (_ | h | h)
      · exact Or.inl h
      · exact Or.inr ⟨_, h, ([], _), rfl⟩
  · rw [readServerLines_failed_iff]
    simp only [readServerLines_failed_iff]
    constructor
    · rintro (h | ⟨mid, h₁, h | ⟨mid', h₂, q, hend⟩⟩)
      · exact .first h
      · exact .second h₁ h
      · simp [readServerLines] at hend
    · rintro (_ | h | _ | ⟨h₁, h₂⟩)
      · exact Or.inl h
      · exact Or.inr ⟨_, h₁, Or.inl h₂⟩

end Servers

/-! ### Lines of rates and of the window -/

/-- The line gives a value to a name that stands for no rate. -/
def RateUnknown (line : Bytes) : Prop :=
  ∃ m, regexec patternRate (line.takeWhile (· ≠ 0)) = some m ∧
    rateIndex (((line.takeWhile (· ≠ 0)).drop (group m 1).1).headD 0) = none

/-- The line gives a value to a name that stands for no variable of the window. -/
def WindowUnknown (line : Bytes) : Prop :=
  ∃ m, regexec patternWindow (line.takeWhile (· ≠ 0)) = some m ∧
    windowVar ((line.takeWhile (· ≠ 0)).drop (group m 1).1) = none

/-- The variables after `n` lines of a section. -/
def TxtLocals.after (v : TxtLocals) (kind : SectionKind) (n : ℕ) (file : List Bytes) : TxtLocals :=
  (labelled kind (file.take n)).foldl .assign v

/-- There are `n` lines, and none of them has a name that is not known. -/
def LinesKnown (unknown : Bytes → Prop) (n : ℕ) (file : List Bytes) : Prop :=
  n ≤ file.length ∧ ∀ line ∈ file.take n, ¬unknown line

/-- The four lines are known, and the rates behind them pass the check. -/
structure RatesTaken (g : Garbage) (file : List Bytes) (v v' : TxtLocals) : Prop where
  known : LinesKnown RateUnknown 4 file
  after : v' = v.after .cmdRate 4 file
  verify : verifyRate (v'.rateVal g) = .succeed

/-- A line is missing or not known, or the rates do not pass the check. -/
def RatesRefused (g : Garbage) (file : List Bytes) (v : TxtLocals) : Prop :=
  ¬LinesKnown RateUnknown 4 file ∨ verifyRate ((v.after .cmdRate 4 file).rateVal g) = .failed

/-- The two lines are known, and the window behind them passes the check. -/
structure WindowTaken (g : Garbage) (file : List Bytes) (v v' : TxtLocals) : Prop where
  known : LinesKnown WindowUnknown 2 file
  after : v' = v.after .cmdWindow 2 file
  verify : verifyWindow (v'.rowsVal g) (v'.colsVal g) = .succeed

/-- A line is missing or not known, or the window does not pass the check. -/
def WindowRefused (g : Garbage) (file : List Bytes) (v : TxtLocals) : Prop :=
  ¬LinesKnown WindowUnknown 2 file ∨
    verifyWindow ((v.after .cmdWindow 2 file).rowsVal g) ((v.after .cmdWindow 2 file).colsVal g)
      = .failed

/-- A loop over lines that assigns what they name, and fails at a name that is not known. -/
structure AssignLoop (loop : ℕ → List Bytes → TxtLocals → RetT × List Bytes × TxtLocals)
    (kind : SectionKind) (unknown : Bytes → Prop) : Prop where
  zero : ∀ file v, loop 0 file v = (.succeed, file, v)
  nil : ∀ n v, loop (n + 1) [] v = (.failed, [], v)
  stop : ∀ n line file v, unknown line → loop (n + 1) (line :: file) v = (.failed, file, v)
  next : ∀ n line file v, ¬unknown line →
    loop (n + 1) (line :: file) v = loop n file (v.assign (kind, line))

section Loops

variable {loop : ℕ → List Bytes → TxtLocals → RetT × List Bytes × TxtLocals} {kind : SectionKind}
  {unknown : Bytes → Prop} {n : ℕ} {line : Bytes} {file : List Bytes} {v : TxtLocals}

lemma linesKnown_zero : LinesKnown unknown 0 file := ⟨Nat.zero_le _, by simp⟩

lemma linesKnown_cons :
    LinesKnown unknown (n + 1) (line :: file) ↔ ¬unknown line ∧ LinesKnown unknown n file := by
  simp only [LinesKnown, List.length_cons, Nat.add_le_add_iff_right, List.take_succ_cons,
    List.forall_mem_cons]
  exact and_left_comm

/-- Known lines are read to the last one. -/
lemma AssignLoop.of_known (h : AssignLoop loop kind unknown) (hknown : LinesKnown unknown n file) :
    loop n file v = (.succeed, file.drop n, v.after kind n file) := by
  induction n generalizing file v with
  | zero => exact h.zero file v
  | succ n ih =>
      cases file with
      | nil => exact absurd hknown.1 (by simp)
      | cons line file =>
          obtain ⟨hline, hrest⟩ := linesKnown_cons.1 hknown
          rw [h.next n line file v hline, ih hrest]
          rfl

lemma AssignLoop.of_not_known (h : AssignLoop loop kind unknown)
    (hnot : ¬LinesKnown unknown n file) : (loop n file v).1 = .failed := by
  induction n generalizing file v with
  | zero => exact absurd linesKnown_zero hnot
  | succ n ih =>
      cases file with
      | nil => rw [h.nil]
      | cons line file =>
          by_cases hline : unknown line
          · rw [h.stop n line file v hline]
          · rw [h.next n line file v hline]
            exact ih fun hrest => hnot (linesKnown_cons.2 ⟨hline, hrest⟩)

/-- The loop of `parser_read_txt_cmd_rate`. -/
lemma readRates_loop : AssignLoop readRates .cmdRate RateUnknown where
  zero _ _ := rfl
  nil _ _ := rfl
  stop := by
    rintro n line file v ⟨m, hm, hname⟩
    simp only [readRates, getline, hm, hname]
  next := by
    intro n line file v hknown
    simp only [readRates, getline, TxtLocals.assign, rateOf]
    rcases hm : regexec patternRate (line.takeWhile (· ≠ 0)) with _ | m
    · rfl
    · rcases hname : rateIndex (((line.takeWhile (· ≠ 0)).drop (group m 1).1).headD 0) with _ | i
      · exact absurd ⟨m, hm, hname⟩ hknown
      · simp only [hname, Option.bind_some]
        generalize scanDouble _ = x
        cases x <;> rfl

/-- The loop of `parser_read_txt_cmd_window`. -/
lemma readWindow_loop : AssignLoop readWindow .cmdWindow WindowUnknown where
  zero _ _ := rfl
  nil _ _ := rfl
  stop := by
    rintro n line file v ⟨m, hm, hname⟩
    rw [windowVar] at hname
    split_ifs at hname with hrows hcols
    simp only [readWindow, getline, hm, hrows, hcols, if_false, Bool.false_eq_true]
  next := by
    intro n line file v hknown
    simp only [readWindow, getline, TxtLocals.assign, windowOf]
    rcases hm : regexec patternWindow (line.takeWhile (· ≠ 0)) with _ | m
    · rfl
    · have hvar : windowVar ((line.takeWhile (· ≠ 0)).drop (group m 1).1) ≠ none :=
        fun hname => hknown ⟨m, hm, hname⟩
      simp only [Option.bind_some]
      rw [windowVar] at hvar ⊢
      simp only [scanInto]
      split_ifs at hvar ⊢ with hrows hcols
      · generalize scanInt _ = x
        cases x <;> rfl
      · generalize scanInt _ = x
        cases x <;> rfl
      · exact absurd rfl hvar

/-- The section of the rates. -/
lemma parserReadTxtCmdRate_iff (g : Garbage) :
    (∀ file' v', parserReadTxtCmdRate g file v = (.succeed, file', v') ↔
        RatesTaken g file v v' ∧ file' = file.drop 4) ∧
      ((∃ q, parserReadTxtCmdRate g file v = (.failed, q)) ↔ RatesRefused g file v) := by
  rw [parserReadTxtCmdRate, RatesRefused]
  by_cases hknown : LinesKnown RateUnknown 4 file
  · rw [readRates_loop.of_known hknown]
    constructor
    · intro file' v'
      constructor
      · intro h
        obtain ⟨hverify, rfl, rfl⟩ : _ ∧ _ = file' ∧ _ = v' := by simpa using h
        exact ⟨⟨hknown, rfl, hverify⟩, rfl⟩
      · rintro ⟨⟨-, rfl, hverify⟩, rfl⟩
        simp only [hverify]
    · simp [hknown]
  · rcases hread : readRates 4 file v with ⟨ret, file₁, v₁⟩
    have hret := readRates_loop.of_not_known hknown (v := v)
    rw [hread] at hret
    obtain rfl : ret = .failed := hret
    refine ⟨fun file' v' => iff_of_false (by simp) fun h => hknown h.1.known, ?_⟩
    exact iff_of_true ⟨_, rfl⟩ (Or.inl hknown)

/-- The section of the window. -/
lemma parserReadTxtCmdWindow_iff (g : Garbage) :
    (∀ file' v', parserReadTxtCmdWindow g file v = (.succeed, file', v') ↔
        WindowTaken g file v v' ∧ file' = file.drop 2) ∧
      ((∃ q, parserReadTxtCmdWindow g file v = (.failed, q)) ↔ WindowRefused g file v) := by
  rw [parserReadTxtCmdWindow, WindowRefused]
  by_cases hknown : LinesKnown WindowUnknown 2 file
  · rw [readWindow_loop.of_known hknown]
    constructor
    · intro file' v'
      constructor
      · intro h
        obtain ⟨hverify, rfl, rfl⟩ : _ ∧ _ = file' ∧ _ = v' := by simpa using h
        exact ⟨⟨hknown, rfl, hverify⟩, rfl⟩
      · rintro ⟨⟨-, rfl, hverify⟩, rfl⟩
        simp only [hverify]
    · simp [hknown]
  · rcases hread : readWindow 2 file v with ⟨ret, file₁, v₁⟩
    have hret := readWindow_loop.of_not_known hknown (v := v)
    rw [hread] at hret
    obtain rfl : ret = .failed := hret
    refine ⟨fun file' v' => iff_of_false (by simp) fun h => hknown h.1.known, ?_⟩
    exact iff_of_true ⟨_, rfl⟩ (Or.inl hknown)

end Loops

/-! ### Tables -/

/-- The text of a table: its lines, each up to a NUL. -/
def tableText (file : List Bytes) : Bytes :=
  ((file.take (tableSize file)).map fun line => line.takeWhile (· ≠ 0)).flatten

/-- The lines of a table fit the block they are read into, which holds `cnt` bytes and has room for
`size`: a line and its terminator are copied to it before it is doubled, and it is not doubled
beyond the limit. -/
def TextFits : List Bytes → ℕ → ℕ → Prop
  | [], _, _ => True
  | line :: lines, cnt, size =>
      let cnt' := cnt + (line.takeWhile (· ≠ 0)).length
      cnt' + 1 ≤ size ∧
        if cnt' + configMaxLength ≥ size then
          size * 2 ≤ 1024 * configMaxLength ∧ TextFits lines cnt' (size * 2)
        else TextFits lines cnt' size

/-- The text behind a match, from which the loop over the columns goes on. -/
def NextColumn (items : List (Item UInt8)) (cur cur' : Bytes) : Prop :=
  ∃ m, regexec items cur = some m ∧ cur' = cur.drop (group m 0).2

/-- A text in which no `bigint` column is found, and a `varchar` one is: the length of that is
read from behind the array of the match. -/
def VarcharFirst (text : Bytes) : Prop :=
  regexec patternBigint text = none ∧ (regexec patternVarchar text).isSome

/-- None of the columns that the pattern finds in the text from `so` on is read as a `varchar`.
The offset of the match is taken from `so`, wherever the match was looked for. -/
def ColumnsRead (items : List (Item UInt8)) (text : Bytes) (so : ℕ) : Prop :=
  ∀ cur m, Relation.ReflTransGen (NextColumn items) (text.drop so) cur →
    regexec items cur = some m → ¬VarcharFirst (text.drop (so + (group m 0).1))

/-- The text is that of a table with the name, and its columns can be read. -/
def NamesTable (text name : Bytes) : Prop :=
  ∃ m, regexec patternTableName text = some m ∧ name = substring text (group m 1) ∧
    ColumnsRead patternKey text (group m 1).1 ∧ ColumnsRead patternVal text (group m 1).1

/-- What the sections of a file depend on, of what is there before them: the cluster, the tables,
with the number of schemas made so far, and the variables. -/
structure TxtScene where
  cluster : CqServerCluster
  tableSet : HashT TableT
  tables : ℕ
  v : TxtLocals

section

variable (probe : Bytes → UInt64 → UInt64) (fuel : ℕ) (g : Garbage)

/-- The text fits, and if it is one of a table, that is added to the table set. -/
def TableTaken (file : List Bytes) (s s' : TxtScene) : Prop :=
  TextFits (file.take (tableSize file)) 0 (8 * configMaxLength) ∧
    ((regexec patternTableName (tableText file) = none ∧ s' = s) ∨
      ∃ name tableSet, NamesTable (tableText file) name ∧
        tableSetAdd probe fuel s.tableSet (tableInit name s.tables) = .ret (.succeed, tableSet) ∧
        s' = { s with tableSet, tables := s.tables + 1 })

/-- The text fits, and it is one of a table that the table set refuses. -/
def TableRefused (file : List Bytes) (s : TxtScene) : Prop :=
  TextFits (file.take (tableSize file)) 0 (8 * configMaxLength) ∧
    ∃ name tableSet, NamesTable (tableText file) name ∧
      tableSetAdd probe fuel s.tableSet (tableInit name s.tables) = .ret (.failed, tableSet)

/-- The section at the beginning of the rest of the file is taken. -/
def SectionTaken : SectionKind → List Bytes → TxtScene → TxtScene → Prop
  | .server, file, s, s' =>
      ∃ cluster, TxtServersTaken probe fuel file s.cluster cluster ∧ s' = { s with cluster }
  | .table, file, s, s' => TableTaken probe fuel file s s'
  | .cmdRate, file, s, s' => ∃ v, RatesTaken g file s.v v ∧ s' = { s with v }
  | .cmdWindow, file, s, s' => ∃ v, WindowTaken g file s.v v ∧ s' = { s with v }

/-- The section at the beginning of the rest of the file is refused. -/
def SectionRefused : SectionKind → List Bytes → TxtScene → Prop
  | .server, file, s => TxtServersRefused probe fuel file s.cluster
  | .table, file, s => TableRefused probe fuel file s
  | .cmdRate, file, s => RatesRefused g file s.v
  | .cmdWindow, file, s => WindowRefused g file s.v

/-- Every section of the file is taken. -/
inductive FileTaken : List Bytes → TxtScene → TxtScene → Prop
  | nil {s : TxtScene} : FileTaken [] s s
  | skip {line : Bytes} {file : List Bytes} {s s' : TxtScene} :
      sectionKind line = none → FileTaken file s s' → FileTaken (line :: file) s s'
  | section_ {line : Bytes} {file : List Bytes} {kind : SectionKind} {s s₁ s' : TxtScene} :
      sectionKind line = some kind → SectionTaken probe fuel g kind file s s₁ →
      FileTaken (file.drop (sectionSize file kind)) s₁ s' → FileTaken (line :: file) s s'

/-- A section of the file is refused, and those in front of it are taken. -/
inductive FileRefused : List Bytes → TxtScene → Prop
  | skip {line : Bytes} {file : List Bytes} {s : TxtScene} :
      sectionKind line = none → FileRefused file s → FileRefused (line :: file) s
  | here {line : Bytes} {file : List Bytes} {kind : SectionKind} {s : TxtScene} :
      sectionKind line = some kind → SectionRefused probe fuel g kind file s →
      FileRefused (line :: file) s
  | later {line : Bytes} {file : List Bytes} {kind : SectionKind} {s s₁ : TxtScene} :
      sectionKind line = some kind → SectionTaken probe fuel g kind file s s₁ →
      FileRefused (file.drop (sectionSize file kind)) s₁ → FileRefused (line :: file) s

end

/-- The text is read when its lines fit, and it is what they make. -/
lemma readATable_iff {file : List Bytes} {text t : Bytes} {size : ℕ} :
    (∃ file', readATable file text size = .ret (some t, file')) ↔
      TextFits (file.take (tableSize file)) text.length size ∧ t = text ++ tableText file := by
  induction file generalizing text size with
  | nil => simp [readATable, tableSize, TextFits, tableText, eq_comm]
  | cons line file ih =>
      have hrest : ∃ rest, (line :: file).take (tableSize (line :: file)) = line :: rest ∧
          ∀ text' size', (∃ file',
              (if (regexec patternTableEnd (line.takeWhile (· ≠ 0))).isSome then
                .ret (some text', file) else readATable file text' size') = .ret (some t, file')) ↔
            TextFits rest text'.length size' ∧
              t = text' ++ (rest.map fun l => l.takeWhile (· ≠ 0)).flatten := by
        rw [tableSize]
        split_ifs
        · exact ⟨[], by simp, fun text' size' => by simp [TextFits, eq_comm]⟩
        · exact ⟨file.take (tableSize file), by simp, fun text' size' => ih⟩
      obtain ⟨rest, hlines, hrest⟩ := hrest
      have htext : tableText (line :: file) = line.takeWhile (· ≠ 0) ++
          (rest.map fun l => l.takeWhile (· ≠ 0)).flatten := by
        rw [tableText, hlines, List.map_cons, List.flatten_cons]
      rw [hlines, htext, TextFits, readATable]
      generalize line.takeWhile (· ≠ 0) = buf at hrest
      by_cases hover : text.length + buf.length + 1 > size
      · rw [if_pos hover]
        exact iff_of_false (by simp) fun h => absurd h.1.1 (by omega)
      rw [if_neg hover]
      simp only [List.length_append]
      by_cases hfull : text.length + buf.length + configMaxLength ≥ size
      · by_cases hmax : size * 2 > 1024 * configMaxLength
        · simp only [hfull, hmax, true_and, if_true]
          exact iff_of_false (by simp) fun h => absurd h.1.2.1 (by omega)
        · simp only [hfull, hmax, true_and, if_true, if_false]
          rw [hrest, List.length_append, List.append_assoc]
          refine and_congr_left fun _ => ⟨fun h => ⟨by omega, by omega, h⟩, fun h => h.2.2⟩
      · simp only [hfull, false_and, if_false]
        rw [hrest, List.length_append, List.append_assoc]
        exact and_congr_left fun _ => ⟨fun h => ⟨by omega, h⟩, fun h => h.2⟩

/-- What holds of every match from a text on holds of the first one and of those behind it. -/
lemma forall_nextColumn_iff {items : List (Item UInt8)} {cur : Bytes} {m : List (ℕ × ℕ)}
    (hm : regexec items cur = some m) (P : List (ℕ × ℕ) → Prop) :
    (∀ cur' m', Relation.ReflTransGen (NextColumn items) cur cur' →
        regexec items cur' = some m' → P m') ↔
      P m ∧ ∀ cur' m', Relation.ReflTransGen (NextColumn items) (cur.drop (group m 0).2) cur' →
        regexec items cur' = some m' → P m' := by
  constructor
  · exact fun h => ⟨h cur m .refl hm, fun cur' m' hreach => h cur' m' (.head ⟨m, hm, rfl⟩ hreach)⟩
  · rintro ⟨hhere, hbehind⟩ cur' m' hreach hm'
    rcases Relation.ReflTransGen.cases_head hreach with rfl | ⟨c, ⟨m'', hm'', rfl⟩, hreach'⟩
    · rw [hm, Option.some.injEq] at hm'
      exact hm' ▸ hhere
    · rw [hm, Option.some.injEq] at hm''
      exact hbehind cur' m' (hm'' ▸ hreach') hm'

/-- A column is read, unless it is read as a `varchar`. -/
lemma parserReadTxtTableData_ret_or_fault {schema : Schema} (hschema : schema.Bounded)
    (text : Bytes) (so : ℕ) :
    (VarcharFirst (text.drop so) ∧ parserReadTxtTableData schema text so = .fault) ∨
      ¬VarcharFirst (text.drop so) ∧ ∃ ret schema', schema'.Bounded ∧
        parserReadTxtTableData schema text so = .ret (ret, schema') := by
  rw [parserReadTxtTableData]
  rcases hbig : regexec patternBigint (text.drop so) with _ | m
  · rcases hvar : regexec patternVarchar (text.drop so) with _ | m
    · exact Or.inr ⟨by simp [VarcharFirst, hvar], .failed, schema, hschema, rfl⟩
    · exact Or.inl ⟨⟨hbig, by simp [hvar]⟩, rfl⟩
  · obtain ⟨⟨ret, schema'⟩, hadd, hschema'⟩ := (hschema.schemaAdd (tableDataInit (substring
      (text.drop so) (group m 1)) .bigint 0)).exists_ret
    exact Or.inr ⟨by simp [VarcharFirst, hbig], ret, schema', hschema', hadd⟩

/-- What the loop over the columns has not returned from is a column read as a `varchar`. -/
lemma readTxtColumns_iff {items : List (Item UInt8)} {cls : UInt8 → Bool}
    (hone : .one cls ∈ items) (text : Bytes) (so : ℕ) {fuel : ℕ} {cur : Bytes}
    (hfuel : cur.length < fuel) {schema : Schema} (hschema : schema.Bounded) :
    (∃ schema', readTxtColumns items text so fuel cur schema = .ret schema') ↔
      ∀ cur' m, Relation.ReflTransGen (NextColumn items) cur cur' →
        regexec items cur' = some m → ¬VarcharFirst (text.drop (so + (group m 0).1)) := by
  induction fuel generalizing cur schema with
  | zero => exact absurd hfuel (by omega)
  | succ fuel ih =>
      rw [readTxtColumns]
      rcases hm : regexec items cur with _ | m
      · refine iff_of_true ⟨schema, rfl⟩ fun cur' m hreach hm' => ?_
        rcases Relation.ReflTransGen.cases_head hreach with rfl | ⟨c, ⟨m', hm'', -⟩, -⟩
        · rw [hm] at hm'
          cases hm'
        · rw [hm] at hm''
          cases hm''
      · -- the column of the match, and those behind it
        obtain ⟨hne, hpos⟩ := match_nonempty hone hm
        have hshort : (cur.drop (group m 0).2).length < fuel := by
          have := List.length_pos_iff.2 hne
          rw [List.length_drop]
          have : 0 < (group m 0).2 := hpos
          omega
        rw [forall_nextColumn_iff hm fun m => ¬VarcharFirst (text.drop (so + (group m 0).1))]
        dsimp only
        rcases parserReadTxtTableData_ret_or_fault hschema text (so + (group m 0).1) with
          ⟨hfirst, hread⟩ | ⟨hnot, ret, schema', hschema', hread⟩
        · rw [hread]
          exact iff_of_false (by simp) fun h => h.1 hfirst
        · rw [hread, Outcome.ret_bind, and_iff_right hnot]
          exact ih hshort hschema'

lemma one_mem_patternKey : .one (oneOf ",\\)") ∈ patternKey := by simp [patternKey]

lemma one_mem_patternVal : .one (oneOf ",\\)") ∈ patternVal := by simp [patternVal]

/-- The schemas are read when the columns can be. -/
lemma parserReadTxtTableSchema_iff (text : Bytes) (so : ℕ) :
    (∃ schema, parserReadTxtTableSchema text so = .ret schema) ↔
      ColumnsRead patternKey text so ∧ ColumnsRead patternVal text so := by
  have hkey := readTxtColumns_iff one_mem_patternKey text so
    (Nat.lt_succ_self (text.drop so).length) .init
  have hval := readTxtColumns_iff one_mem_patternVal text so
    (Nat.lt_succ_self (text.drop so).length) .init
  rw [ColumnsRead, ColumnsRead, ← hkey, ← hval, parserReadTxtTableSchema]
  constructor
  · rintro ⟨schema, h⟩
    obtain ⟨keySchema, hkeys, h⟩ := Outcome.bind_eq_ret.1 h
    obtain ⟨valSchema, hvals, -⟩ := Outcome.bind_eq_ret.1 h
    exact ⟨⟨keySchema, hkeys⟩, ⟨valSchema, hvals⟩⟩
  · rintro ⟨⟨keySchema, hkeys⟩, ⟨valSchema, hvals⟩⟩
    exact ⟨_, by simp only [hkeys, hvals, Outcome.ret_bind]; rfl⟩

/-- A table that is read takes the lines up to its end. -/
lemma readATable_file {file file' : List Bytes} {text t : Bytes} {size : ℕ}
    (h : readATable file text size = .ret (some t, file')) :
    file' = file.drop (tableSize file) := by
  induction file generalizing text size with
  | nil =>
      simp only [readATable, Outcome.ret.injEq, Prod.mk.injEq] at h
      exact h.2.symm
  | cons line file ih =>
      rw [readATable] at h
      simp only at h
      rw [tableSize]
      by_cases hend : (regexec patternTableEnd (line.takeWhile (· ≠ 0))).isSome
      · rw [if_pos hend, List.drop_one]
        rw [if_pos hend] at h
        split_ifs at h <;>
          simp only [Outcome.ret.injEq, Prod.mk.injEq, reduceCtorEq, false_and] at h
        all_goals exact h.2.symm
      · rw [if_neg hend, List.drop_succ_cons]
        rw [if_neg hend] at h
        split_ifs at h
        all_goals first | exact ih h | simp at h

section Tables

variable {probe : Bytes → UInt64 → UInt64} {fuel : ℕ} {file : List Bytes} {heap : List TableSchema}
  {tableSet : HashT TableT}

/-- The block of a table is read when its lines fit. -/
lemma parserReadATable_ret_iff {text : Bytes} {file' : List Bytes} :
    parserReadATable file = .ret (some text, file') ↔
      TextFits (file.take (tableSize file)) 0 (8 * configMaxLength) ∧ text = tableText file ∧
        file' = file.drop (tableSize file) := by
  rw [parserReadATable]
  have hiff : (∃ file', readATable file [] (8 * configMaxLength) = .ret (some text, file')) ↔
      TextFits (file.take (tableSize file)) 0 (8 * configMaxLength) ∧ text = [] ++ tableText file :=
    readATable_iff
  rw [List.nil_append] at hiff
  constructor
  · intro h
    obtain ⟨hfits, htext⟩ := hiff.1 ⟨file', h⟩
    exact ⟨hfits, htext, readATable_file h⟩
  · rintro ⟨hfits, htext, rfl⟩
    obtain ⟨file', h⟩ := hiff.2 ⟨hfits, htext⟩
    exact readATable_file h ▸ h

/-- What a table that is read comes to. -/
lemma parserReadTxtTable_ret_iff {ret : RetT} {file' : List Bytes} {heap' : List TableSchema}
    {tableSet' : HashT TableT} :
    parserReadTxtTable probe fuel file heap tableSet = .ret (ret, file', heap', tableSet') ↔
      TextFits (file.take (tableSize file)) 0 (8 * configMaxLength) ∧
        file' = file.drop (tableSize file) ∧
        ((regexec patternTableName (tableText file) = none ∧ ret = .succeed ∧ heap' = heap ∧
            tableSet' = tableSet) ∨
          ∃ m schema, regexec patternTableName (tableText file) = some m ∧
            parserReadTxtTableSchema (tableText file) (group m 1).1 = .ret schema ∧
            heap' = heap ++ [schema] ∧
            tableSetAdd probe fuel tableSet (tableInit (substring (tableText file) (group m 1))
              heap.length) = .ret (ret, tableSet')) := by
  rw [parserReadTxtTable, Outcome.bind_eq_ret]
  constructor
  · rintro ⟨⟨_ | text, file₁⟩, hread, h⟩
    · cases h
    obtain ⟨hfits, rfl, rfl⟩ := parserReadATable_ret_iff.1 hread
    dsimp only at h
    rcases hm : regexec patternTableName (tableText file) with _ | m
    · rw [hm] at h
      simp only [Outcome.pure_eq, Outcome.ret.injEq, Prod.mk.injEq] at h
      obtain ⟨rfl, rfl, rfl, rfl⟩ := h
      exact ⟨hfits, rfl, Or.inl ⟨rfl, rfl, rfl, rfl⟩⟩
    · rw [hm] at h
      obtain ⟨schema, hschema, h⟩ := Outcome.bind_eq_ret.1 h
      obtain ⟨⟨ret', set⟩, hadd, h⟩ := Outcome.bind_eq_ret.1 h
      simp only [Outcome.pure_eq, Outcome.ret.injEq, Prod.mk.injEq] at h
      obtain ⟨rfl, rfl, rfl, rfl⟩ := h
      exact ⟨hfits, rfl, Or.inr ⟨m, schema, rfl, hschema, rfl, hadd⟩⟩
  · rintro ⟨hfits, rfl, h⟩
    refine ⟨_, parserReadATable_ret_iff.2 ⟨hfits, rfl, rfl⟩, ?_⟩
    rcases h with ⟨hm, rfl, rfl, rfl⟩ | ⟨m, schema, hm, hschema, rfl, hadd⟩
    · simp only [hm]
      rfl
    · simp only [hm, hschema, Outcome.ret_bind, hadd]
      rfl

/-- The name of a table whose columns can be read, from the match. -/
lemma namesTable_iff {text name : Bytes} :
    NamesTable text name ↔ ∃ m schema, regexec patternTableName text = some m ∧
      parserReadTxtTableSchema text (group m 1).1 = .ret schema ∧
      name = substring text (group m 1) := by
  constructor
  · rintro ⟨m, hm, hname, hcolumns⟩
    obtain ⟨schema, hschema⟩ := (parserReadTxtTableSchema_iff _ _).2 hcolumns
    exact ⟨m, schema, hm, hschema, hname⟩
  · rintro ⟨m, schema, hm, hschema, hname⟩
    exact ⟨m, hm, hname, (parserReadTxtTableSchema_iff _ _).1 ⟨schema, hschema⟩⟩

end Tables

/-! ### Rounds of the loop -/

/-- What the loop of `parser_read_txt` goes on from. -/
structure TxtState where
  file : List Bytes
  stores : Stores
  v : TxtLocals

section

variable (probe : Bytes → UInt64 → UInt64) (fuel : ℕ) (g : Garbage)

/-- A round of the loop, for the line it has taken. -/
def sectionStep (line : Bytes) (s : TxtState) : Outcome (RetT × TxtState) :=
  match sectionKind line with
  | none => .ret (.succeed, s)
  | some .server => do
      let (ret, file, clusterBase) ← parserReadTxtServer probe fuel s.file s.stores.clusterBase
      return (ret, { s with file, stores := { s.stores with clusterBase } })
  | some .table => do
      let (ret, file, schemaHeap, tableSet) ←
        parserReadTxtTable probe fuel s.file s.stores.schemaHeap s.stores.tableSet
      return (ret, { s with file, stores := { s.stores with schemaHeap, tableSet } })
  | some .cmdRate =>
      let (ret, file, v) := parserReadTxtCmdRate g s.file s.v
      .ret (ret, { s with file, v })
  | some .cmdWindow =>
      let (ret, file, v) := parserReadTxtCmdWindow g s.file s.v
      .ret (ret, { s with file, v })

end

/-- What the sections depend on. -/
def TxtState.scene (s : TxtState) : TxtScene :=
  ⟨s.stores.clusterBase, s.stores.tableSet, s.stores.schemaHeap.length, s.v⟩

section

variable {probe : Bytes → UInt64 → UInt64} {fuel : ℕ} {g : Garbage} {line : Bytes}
  {kind : SectionKind} {s : TxtState}

/-- A round that takes no section does nothing. -/
lemma sectionStep_none (hkind : sectionKind line = none) :
    sectionStep probe fuel g line s = .ret (.succeed, s) := by
  rw [sectionStep, hkind]

lemma sectionStep_server (hkind : sectionKind line = some .server) {ret : RetT}
    {file : List Bytes} {clusterBase : CqServerCluster}
    (h : parserReadTxtServer probe fuel s.file s.stores.clusterBase
      = .ret (ret, file, clusterBase)) :
    sectionStep probe fuel g line s
      = .ret (ret, { s with file, stores := { s.stores with clusterBase } }) := by
  rw [sectionStep, hkind]
  simp only [h, Outcome.ret_bind, Outcome.pure_eq]

lemma sectionStep_table (hkind : sectionKind line = some .table) {ret : RetT}
    {file : List Bytes} {schemaHeap : List TableSchema} {tableSet : HashT TableT}
    (h : parserReadTxtTable probe fuel s.file s.stores.schemaHeap s.stores.tableSet
      = .ret (ret, file, schemaHeap, tableSet)) :
    sectionStep probe fuel g line s
      = .ret (ret, { s with file, stores := { s.stores with schemaHeap, tableSet } }) := by
  rw [sectionStep, hkind]
  simp only [h, Outcome.ret_bind, Outcome.pure_eq]

lemma sectionStep_cmdRate (hkind : sectionKind line = some .cmdRate) {ret : RetT}
    {file : List Bytes} {v : TxtLocals}
    (h : parserReadTxtCmdRate g s.file s.v = (ret, file, v)) :
    sectionStep probe fuel g line s = .ret (ret, { s with file, v }) := by
  rw [sectionStep, hkind]
  simp only [h]

lemma sectionStep_cmdWindow (hkind : sectionKind line = some .cmdWindow) {ret : RetT}
    {file : List Bytes} {v : TxtLocals}
    (h : parserReadTxtCmdWindow g s.file s.v = (ret, file, v)) :
    sectionStep probe fuel g line s = .ret (ret, { s with file, v }) := by
  rw [sectionStep, hkind]
  simp only [h]

/-- A section that is taken makes a round. -/
lemma sectionStep_taken (hkind : sectionKind line = some kind) {scene : TxtScene}
    (h : SectionTaken probe fuel g kind s.file s.scene scene) :
    ∃ s', sectionStep probe fuel g line s = .ret (.succeed, s') ∧ s'.scene = scene := by
  cases kind with
  | server =>
      obtain ⟨cluster, htaken, rfl⟩ := h
      have hread := parserReadTxtServer_succeed_iff.2 ⟨htaken, rfl⟩
      exact ⟨_, sectionStep_server hkind hread, rfl⟩
  | table =>
      obtain ⟨hfits, ⟨hm, rfl⟩ | ⟨name, tableSet, hname, hadd, rfl⟩⟩ := h
      · exact ⟨_, sectionStep_table hkind
          (parserReadTxtTable_ret_iff.2 ⟨hfits, rfl, Or.inl ⟨hm, rfl, rfl, rfl⟩⟩), rfl⟩
      · obtain ⟨m, schema, hm, hschema, rfl⟩ := namesTable_iff.1 hname
        have hread := parserReadTxtTable_ret_iff.2
          ⟨hfits, rfl, Or.inr ⟨m, schema, hm, hschema, rfl, hadd⟩⟩
        exact ⟨_, sectionStep_table hkind hread, by simp [TxtState.scene]⟩
  | cmdRate =>
      obtain ⟨v, htaken, rfl⟩ := h
      have hread := ((parserReadTxtCmdRate_iff g).1 _ _).2 ⟨htaken, rfl⟩
      exact ⟨_, sectionStep_cmdRate hkind hread, rfl⟩
  | cmdWindow =>
      obtain ⟨v, htaken, rfl⟩ := h
      have hread := ((parserReadTxtCmdWindow_iff g).1 _ _).2 ⟨htaken, rfl⟩
      exact ⟨_, sectionStep_cmdWindow hkind hread, rfl⟩

/-- A section that is refused fails its round. -/
lemma sectionStep_refused (hkind : sectionKind line = some kind)
    (h : SectionRefused probe fuel g kind s.file s.scene) :
    ∃ s', sectionStep probe fuel g line s = .ret (.failed, s') := by
  cases kind with
  | server =>
      obtain ⟨⟨file, cluster⟩, hread⟩ := parserReadTxtServer_failed_iff.2 h
      exact ⟨_, sectionStep_server hkind hread⟩
  | table =>
      obtain ⟨hfits, name, tableSet, hname, hadd⟩ := h
      obtain ⟨m, schema, hm, hschema, rfl⟩ := namesTable_iff.1 hname
      have hread := parserReadTxtTable_ret_iff.2
        ⟨hfits, rfl, Or.inr ⟨m, schema, hm, hschema, rfl, hadd⟩⟩
      exact ⟨_, sectionStep_table hkind hread⟩
  | cmdRate =>
      obtain ⟨⟨file, v⟩, hread⟩ := (parserReadTxtCmdRate_iff g).2.2 h
      exact ⟨_, sectionStep_cmdRate hkind hread⟩
  | cmdWindow =>
      obtain ⟨⟨file, v⟩, hread⟩ := (parserReadTxtCmdWindow_iff g).2.2 h
      exact ⟨_, sectionStep_cmdWindow hkind hread⟩

/-- A round that returns has taken its section or refused it. -/
lemma sectionStep_ret (hkind : sectionKind line = some kind) {ret : RetT} {s' : TxtState}
    (h : sectionStep probe fuel g line s = .ret (ret, s')) :
    (ret = .succeed ∧ SectionTaken probe fuel g kind s.file s.scene s'.scene ∧
        s'.file = s.file.drop (sectionSize s.file kind)) ∨
      (ret = .failed ∧ SectionRefused probe fuel g kind s.file s.scene) := by
  rw [sectionStep, hkind] at h
  cases kind with
  | server =>
      obtain ⟨⟨ret', file, cluster⟩, hread, h⟩ := Outcome.bind_eq_ret.1 h
      simp only [Outcome.pure_eq, Outcome.ret.injEq, Prod.mk.injEq] at h
      obtain ⟨rfl, rfl⟩ := h
      cases ret' with
      | succeed =>
          obtain ⟨htaken, rfl⟩ := parserReadTxtServer_succeed_iff.1 hread
          exact Or.inl ⟨rfl, ⟨cluster, htaken, rfl⟩, rfl⟩
      | failed => exact Or.inr ⟨rfl, parserReadTxtServer_failed_iff.1 ⟨_, hread⟩⟩
  | table =>
      obtain ⟨⟨ret', file, heap, set⟩, hread, h⟩ := Outcome.bind_eq_ret.1 h
      simp only [Outcome.pure_eq, Outcome.ret.injEq, Prod.mk.injEq] at h
      obtain ⟨rfl, rfl⟩ := h
      obtain ⟨hfits, rfl, ⟨hm, rfl, rfl, rfl⟩ | ⟨m, schema, hm, hschema, rfl, hadd⟩⟩ :=
        parserReadTxtTable_ret_iff.1 hread
      · exact Or.inl ⟨rfl, ⟨hfits, Or.inl ⟨hm, rfl⟩⟩, rfl⟩
      · have hname := namesTable_iff.2 ⟨m, schema, hm, hschema, rfl⟩
        cases ret' with
        | succeed =>
            refine Or.inl ⟨rfl, ⟨hfits, Or.inr ⟨_, set, hname, hadd, ?_⟩⟩, rfl⟩
            simp [TxtState.scene]
        | failed => exact Or.inr ⟨rfl, hfits, _, set, hname, hadd⟩
  | cmdRate =>
      rcases hread : parserReadTxtCmdRate g s.file s.v with ⟨ret', file, v⟩
      simp only [hread, Outcome.ret.injEq, Prod.mk.injEq] at h
      obtain ⟨rfl, rfl⟩ := h
      cases ret' with
      | succeed =>
          obtain ⟨htaken, rfl⟩ := ((parserReadTxtCmdRate_iff g).1 _ _).1 hread
          exact Or.inl ⟨rfl, ⟨v, htaken, rfl⟩, rfl⟩
      | failed => exact Or.inr ⟨rfl, (parserReadTxtCmdRate_iff g).2.1 ⟨_, hread⟩⟩
  | cmdWindow =>
      rcases hread : parserReadTxtCmdWindow g s.file s.v with ⟨ret', file, v⟩
      simp only [hread, Outcome.ret.injEq, Prod.mk.injEq] at h
      obtain ⟨rfl, rfl⟩ := h
      cases ret' with
      | succeed =>
          obtain ⟨htaken, rfl⟩ := ((parserReadTxtCmdWindow_iff g).1 _ _).1 hread
          exact Or.inl ⟨rfl, ⟨v, htaken, rfl⟩, rfl⟩
      | failed => exact Or.inr ⟨rfl, (parserReadTxtCmdWindow_iff g).2.1 ⟨_, hread⟩⟩

/-! ### The loop over the sections -/

/-- The loop is a sequence of rounds. -/
lemma readSections_cons {n : ℕ} {file : List Bytes} {stores : Stores} {v : TxtLocals} :
    readSections probe fuel g (n + 1) (line :: file) stores v =
      sectionStep probe fuel g line ⟨file, stores, v⟩ >>= fun (ret, s) =>
        if ret = .failed then .ret (.failed, s.stores, s.v)
        else readSections probe fuel g n s.file s.stores s.v := by
  rw [readSections, getline, sectionStep, sectionKind]
  simp only
  split_ifs
  · cases parserReadTxtServer probe fuel file stores.clusterBase <;> rfl
  · cases parserReadTxtTable probe fuel file stores.schemaHeap stores.tableSet <;> rfl
  · rcases parserReadTxtCmdRate g file v with ⟨_ | _, _, _⟩ <;> rfl
  · rcases parserReadTxtCmdWindow g file v with ⟨_ | _, _, _⟩ <;> rfl
  · rfl

lemma readSections_nil {n : ℕ} {stores : Stores} {v : TxtLocals} :
    readSections probe fuel g (n + 1) [] stores v = .ret (.succeed, stores, v) := rfl

variable {file : List Bytes} {scene scene' : TxtScene} {n : ℕ}

lemma exists_eq_succ_of_cons (h : (line :: file).length ≤ n) :
    ∃ m, n = m + 1 ∧ file.length ≤ m := by
  cases n with
  | zero => cases h
  | succ m => exact ⟨m, rfl, Nat.le_of_succ_le_succ h⟩

/-- The loop comes to the end of a file whose sections are taken. -/
lemma FileTaken.readSections (h : FileTaken probe fuel g file scene scene') (hn : file.length ≤ n)
    {stores : Stores} {v : TxtLocals} (hscene : (⟨file, stores, v⟩ : TxtState).scene = scene) :
    ∃ stores' v', CheckQ.readSections probe fuel g (n + 1) file stores v
      = .ret (.succeed, stores', v') := by
  induction h generalizing n stores v with
  | nil => exact ⟨stores, v, rfl⟩
  | skip hkind hrest ih =>
      obtain ⟨m, rfl, hm⟩ := exists_eq_succ_of_cons hn
      rw [readSections_cons, sectionStep_none hkind]
      exact ih hm hscene
  | @section_ line file kind _ _ _ hkind htaken hrest ih =>
      obtain ⟨m, rfl, hm⟩ := exists_eq_succ_of_cons hn
      subst hscene
      obtain ⟨⟨file₁, stores₁, v₁⟩, hstep, hs⟩ :=
        sectionStep_taken (s := ⟨file, stores, v⟩) hkind htaken
      obtain ⟨-, -, hfile⟩ | ⟨hret, -⟩ := sectionStep_ret hkind hstep
      · obtain rfl : file₁ = file.drop (sectionSize file kind) := hfile
        rw [readSections_cons, hstep]
        exact ih ((List.length_drop ▸ Nat.sub_le _ _).trans hm) hs
      · cases hret

/-- The loop fails in a file that is refused. -/
lemma FileRefused.readSections (h : FileRefused probe fuel g file scene) (hn : file.length ≤ n)
    {stores : Stores} {v : TxtLocals} (hscene : (⟨file, stores, v⟩ : TxtState).scene = scene) :
    ∃ stores' v', CheckQ.readSections probe fuel g (n + 1) file stores v
      = .ret (.failed, stores', v') := by
  induction h generalizing n stores v with
  | skip hkind hrest ih =>
      obtain ⟨m, rfl, hm⟩ := exists_eq_succ_of_cons hn
      rw [readSections_cons, sectionStep_none hkind]
      exact ih hm hscene
  | @here line file kind _ hkind hrefused =>
      obtain ⟨m, rfl, hm⟩ := exists_eq_succ_of_cons hn
      subst hscene
      obtain ⟨s', hstep⟩ := sectionStep_refused (s := ⟨file, stores, v⟩) hkind hrefused
      exact ⟨s'.stores, s'.v, by rw [readSections_cons, hstep]; rfl⟩
  | @later line file kind _ _ hkind htaken hrest ih =>
      obtain ⟨m, rfl, hm⟩ := exists_eq_succ_of_cons hn
      subst hscene
      obtain ⟨⟨file₁, stores₁, v₁⟩, hstep, hs⟩ :=
        sectionStep_taken (s := ⟨file, stores, v⟩) hkind htaken
      obtain ⟨-, -, hfile⟩ | ⟨hret, -⟩ := sectionStep_ret hkind hstep
      · obtain rfl : file₁ = file.drop (sectionSize file kind) := hfile
        rw [readSections_cons, hstep]
        exact ih ((List.length_drop ▸ Nat.sub_le _ _).trans hm) hs
      · cases hret

/-- A loop that returns has taken every section, or refused one. -/
lemma readSections_ret {stores stores' : Stores} {v v' : TxtLocals} {ret : RetT}
    (h : readSections probe fuel g n file stores v = .ret (ret, stores', v')) :
    (ret = .succeed ∧ FileTaken probe fuel g file (⟨file, stores, v⟩ : TxtState).scene
        (⟨[], stores', v'⟩ : TxtState).scene) ∨
      (ret = .failed ∧ FileRefused probe fuel g file (⟨file, stores, v⟩ : TxtState).scene) := by
  induction n generalizing file stores v with
  | zero => cases h
  | succ n ih =>
      cases file with
      | nil =>
          rw [readSections_nil] at h
          cases h
          exact Or.inl ⟨rfl, .nil⟩
      | cons line file =>
          rw [readSections_cons] at h
          obtain ⟨⟨ret₁, file₁, stores₁, v₁⟩, hstep, h⟩ := Outcome.bind_eq_ret.1 h
          rcases hkind : sectionKind line with _ | kind
          · rw [sectionStep_none hkind] at hstep
            cases hstep
            exact (ih h).imp (fun hrest => ⟨hrest.1, .skip hkind hrest.2⟩)
              (fun hrest => ⟨hrest.1, .skip hkind hrest.2⟩)
          · obtain ⟨rfl, htaken, hfile⟩ | ⟨rfl, hrefused⟩ := sectionStep_ret hkind hstep
            · obtain rfl : file₁ = file.drop (sectionSize file kind) := hfile
              exact (ih h).imp (fun hrest => ⟨hrest.1, .section_ hkind htaken hrest.2⟩)
                (fun hrest => ⟨hrest.1, .later hkind htaken hrest.2⟩)
            · cases h
              exact Or.inr ⟨rfl, .here hkind hrefused⟩

end

end CheckQ
