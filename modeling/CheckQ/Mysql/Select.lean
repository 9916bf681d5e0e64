import CheckQ.Mysql.SqlGen
import Mathlib.Data.List.Forall2

/-!
# The consistency check of `mysql_select`

The row that the write server gives for a key is compared with the row of every read server
that answers.  A server is what MySQL answers for it: the result of `mysql_select_db`, and
for a statement the result of `mysql_real_query` with the first row of the result set, if it
has one.  A field is `none` when it is `NULL`; a row knows the lengths of its fields.

The comparison is `strncmp` with the length of the write server's field.  Passing `NULL` to it,
or reading a field the row does not have, is a fault.
-/

namespace CheckQ

/-- `MYSQL_ROW` with its lengths. -/
abbrev Row := List (Option Bytes)

/-- What a server answers. -/
structure MysqlServer where
  selectDb : Int
  realQuery : Bytes → Int × Option Row

/-- The counters that `mysql_select` changes: `eng_ctx->stats.nselect`, `g_stat.nselect` and
`g_stat.ncheck_fail`. -/
structure SelectStats where
  ctxNselect : ℕ
  nselect : ℕ
  ncheckFail : ℕ
deriving DecidableEq, Repr

/-- One more select. -/
def SelectStats.countSelect (st : SelectStats) : SelectStats :=
  { st with ctxNselect := st.ctxNselect + 1, nselect := st.nselect + 1 }

/-- How `mysql_select` ends. -/
inductive SelectEnd where
  | returned (ret : Int)
  | aborted
  | faulted
deriving DecidableEq, Repr

/-- What the loop over the fields finds. -/
inductive Comparison where
  | same
  | differ
  | fault
deriving DecidableEq, Repr

/-- The loop over the fields of the write server's row. -/
def compareFields : Row → Row → Comparison
  | [], _ => .same
  | some w :: ws, some r :: rs =>
      if strncmp w r w.length ≠ 0 then .differ else compareFields ws rs
  | _, _ => .fault

/-- The loop over the read servers.  Both kinds of difference count a failed check and stop
the process. -/
def checkReadServers (sql : Bytes) (wrow : Row) :
    List MysqlServer → SelectStats → SelectEnd × SelectStats
  | [], st => (.returned 0, st)
  | server :: servers, st =>
      if server.selectDb ≠ 0 then checkReadServers sql wrow servers st
      else if (server.realQuery sql).1 ≠ 0 then checkReadServers sql wrow servers st
      else
        let st := st.countSelect
        let failed := { st with ncheckFail := st.ncheckFail + 1 }
        match (server.realQuery sql).2 with
        | none => (.aborted, failed)
        | some rrow =>
            match compareFields wrow rrow with
            | .same => checkReadServers sql wrow servers st
            | .differ => (.aborted, failed)
            | .fault => (.faulted, st)

/-- `mysql_select` after the statement has been generated. -/
def selectWith (sql : Bytes) (writeServer : MysqlServer) (readServers : List MysqlServer)
    (st : SelectStats) : SelectEnd × SelectStats :=
  if (writeServer.realQuery sql).1 ≠ 0 then (.returned (writeServer.realQuery sql).1, st)
  else
    let st := st.countSelect
    match (writeServer.realQuery sql).2 with
    | none => (.returned 1, st)
    | some wrow => checkReadServers sql wrow readServers st

/-- `mysql_select`. -/
def mysqlSelect (ctx : EngCtx) (name : Bytes) (s : TableSchema) (g : Globals)
    (writeServer : MysqlServer) (readServers : List MysqlServer) (st : SelectStats) :
    SelectEnd × SelectStats :=
  if writeServer.selectDb ≠ 0 then (.returned writeServer.selectDb, st)
  else match selectGen ctx name s g with
    | .ret (buf, _) => selectWith buf.text writeServer readServers st
    | _ => (.faulted, st)

/-! ### Answers and verdicts -/

/-- What a read server contributes to the check: nothing, an empty result, or a row. -/
def MysqlServer.answer (sql : Bytes) (server : MysqlServer) : Option (Option Row) :=
  if server.selectDb ≠ 0 ∨ (server.realQuery sql).1 ≠ 0 then none
  else some (server.realQuery sql).2

/-- A turn of the loop over the read servers, by what the server contributes. -/
def readTurn (wrow : Row) : Option (Option Row) → SelectEnd
  | none => .returned 0
  | some none => .aborted
  | some (some rrow) =>
      match compareFields wrow rrow with
      | .same => .returned 0
      | .differ => .aborted
      | .fault => .faulted

/-- **The loop is one turn after another**, up to the first one that stops it. -/
lemma checkReadServers_turns (sql : Bytes) (wrow : Row) (servers : List MysqlServer)
    (st : SelectStats) :
    (checkReadServers sql wrow servers st).1 =
      ((servers.map fun server => readTurn wrow (server.answer sql)).find?
        (· ≠ .returned 0)).getD (.returned 0) := by
  induction servers generalizing st with
  | nil => rfl
  | cons server servers ih =>
      rw [checkReadServers, List.map_cons, MysqlServer.answer]
      by_cases hdb : server.selectDb = 0
      swap
      · simpa [hdb, readTurn] using ih st
      by_cases hq : (server.realQuery sql).1 = 0
      swap
      · simpa [hdb, hq, readTurn] using ih st
      simp only [hdb, hq, ne_eq, not_true_eq_false, if_false, or_self]
      rcases hrow : (server.realQuery sql).2 with _ | rrow
      · simp [readTurn]
      · rcases hcmp : compareFields wrow rrow with _ | _ | _
        · simpa [readTurn, hcmp] using ih st.countSelect
        · simp [readTurn, hcmp]
        · simp [readTurn, hcmp]

/-- The call has flagged an inconsistency. -/
def Flagged (st : SelectStats) (q : SelectEnd × SelectStats) : Prop :=
  q.1 = .aborted ∧ q.2.ncheckFail = st.ncheckFail + 1

/-- Each field of `r` begins with the field of `w` in its place. -/
def FieldsExtend (w r : List Bytes) : Prop := List.Forall₂ (fun a b => a <+: b) w r

/-- The loop over the fields finds whether the second row extends the first one. -/
lemma compareFields_eq {w r : List Bytes} (hw : ∀ f ∈ w, (0 : UInt8) ∉ f)
    (hlen : r.length = w.length) :
    (FieldsExtend w r → compareFields (w.map some) (r.map some) = .same) ∧
      (¬ FieldsExtend w r → compareFields (w.map some) (r.map some) = .differ) := by
  induction w generalizing r with
  | nil =>
      have hr : r = [] := List.eq_nil_of_length_eq_zero (by simpa using hlen)
      subst hr
      exact ⟨fun _ => rfl, fun h => absurd List.Forall₂.nil h⟩
  | cons a w ih =>
      cases r with
      | nil => simp at hlen
      | cons b r =>
          have ha : (0 : UInt8) ∉ a := hw a (by simp)
          have ih' := ih (r := r) (fun f hf => hw f (by simp [hf])) (by simpa using hlen)
          simp only [List.map_cons, compareFields, ne_eq, strncmp_eq_zero_iff ha, FieldsExtend,
            List.forall₂_cons]
          by_cases hab : a <+: b
          · simp only [hab, not_true_eq_false, if_false, true_and]
            exact ih'
          · simp [hab]

variable {sql : Bytes} {w : List Bytes} {servers : List MysqlServer}

/-- The rows that the answering servers give have the fields of the write server's row. -/
def SameShape (sql : Bytes) (w : List Bytes) (servers : List MysqlServer) : Prop :=
  ∀ server ∈ servers, ∀ row, server.answer sql = some (some row) →
    ∃ r : List Bytes, row = r.map some ∧ r.length = w.length

/-- A server answers with no row, or with a row that does not extend `w`. -/
def Refutes (sql : Bytes) (w : List Bytes) (server : MysqlServer) : Prop :=
  server.answer sql = some none ∨
    ∃ r : List Bytes, server.answer sql = some (some (r.map some)) ∧ ¬ FieldsExtend w r

/-- **The check flags exactly the servers that refute the row**, and counts one failed check
then; otherwise it returns. -/
lemma checkReadServers_spec (hw : ∀ f ∈ w, (0 : UInt8) ∉ f) (hshape : SameShape sql w servers)
    (st : SelectStats) :
    ((∃ server ∈ servers, Refutes sql w server) →
        Flagged st (checkReadServers sql (w.map some) servers st)) ∧
      ((¬ ∃ server ∈ servers, Refutes sql w server) →
        (checkReadServers sql (w.map some) servers st).1 = .returned 0) := by
  induction servers generalizing st with
  | nil => exact ⟨fun ⟨_, h, _⟩ => absurd h (by simp), fun _ => rfl⟩
  | cons server servers ih =>
      have hshape' : SameShape sql w servers := fun s hs => hshape s (by simp [hs])
      have hsplit : (∃ s ∈ server :: servers, Refutes sql w s) ↔
          Refutes sql w server ∨ ∃ s ∈ servers, Refutes sql w s := by simp
      rw [hsplit, checkReadServers]
      by_cases hdb : server.selectDb = 0
      swap
      · have hans : ¬ Refutes sql w server := by simp [Refutes, MysqlServer.answer, hdb]
        simp only [hans, false_or, ne_eq, hdb, not_false_eq_true, if_true]
        exact ih hshape' _
      by_cases hq : (server.realQuery sql).1 = 0
      swap
      · have hans : ¬ Refutes sql w server := by simp [Refutes, MysqlServer.answer, hdb, hq]
        simp only [hans, false_or, ne_eq, hdb, hq, not_true_eq_false, not_false_eq_true, if_false,
          if_true]
        exact ih hshape' _
      have hans : server.answer sql = some (server.realQuery sql).2 := by
        simp [MysqlServer.answer, hdb, hq]
      simp only [ne_eq, hdb, hq, not_true_eq_false, if_false]
      rcases hrow : (server.realQuery sql).2 with _ | row
      · have href : Refutes sql w server := Or.inl (by rw [hans, hrow])
        exact ⟨fun _ => ⟨rfl, rfl⟩, fun h => absurd (Or.inl href) h⟩
      · obtain ⟨r, rfl, hlen⟩ := hshape server (by simp) row (by rw [hans, hrow])
        have hcmp := compareFields_eq hw hlen
        by_cases hext : FieldsExtend w r
        · have href : ¬ Refutes sql w server := by
            rintro (hn | ⟨r', hr', hne⟩)
            · rw [hans, hrow] at hn
              simp at hn
            · rw [hans, hrow, Option.some.injEq, Option.some.injEq] at hr'
              exact hne (List.map_injective_iff.2 (Option.some_injective _) hr' ▸ hext)
          simp only [href, false_or, hcmp.1 hext]
          exact ih hshape' _
        · have href : Refutes sql w server := Or.inr ⟨r, by rw [hans, hrow], hext⟩
          simp only [hcmp.2 hext]
          exact ⟨fun _ => ⟨rfl, rfl⟩, fun h => absurd (Or.inl href) h⟩

/-! ### The verdict of a call -/

/-- A server answers with no row, or with a row other than `w`. -/
def Differs (sql : Bytes) (w : List Bytes) (server : MysqlServer) : Prop :=
  server.answer sql = some none ∨
    ∃ r : List Bytes, server.answer sql = some (some (r.map some)) ∧ r ≠ w

/-- Every server that answers gives a row whose fields begin with those of `w`, and one of
these rows is not `w`. -/
def OnlyExtended (sql : Bytes) (w : List Bytes) (servers : List MysqlServer) : Prop :=
  (∀ server ∈ servers, ∀ a, server.answer sql = some a →
      ∃ r : List Bytes, a = some (r.map some) ∧ FieldsExtend w r) ∧
    ∃ server ∈ servers, ∃ r : List Bytes, server.answer sql = some (some (r.map some)) ∧ r ≠ w

lemma fieldsExtend_refl (w : List Bytes) : FieldsExtend w w :=
  List.forall₂_same.2 fun f _ => List.prefix_refl f

lemma Refutes.differs {server : MysqlServer} (h : Refutes sql w server) :
    Differs sql w server := by
  rcases h with h | ⟨r, hr, hne⟩
  · exact Or.inl h
  · refine Or.inr ⟨r, hr, ?_⟩
    rintro rfl
    exact hne (fieldsExtend_refl r)

/-- The servers differ but none refutes the row exactly when all of them extend it. -/
lemma onlyExtended_iff (hshape : SameShape sql w servers) :
    OnlyExtended sql w servers ↔
      (∃ server ∈ servers, Differs sql w server) ∧ ¬ ∃ server ∈ servers, Refutes sql w server := by
  constructor
  · rintro ⟨hall, server, hs, r, hr, hne⟩
    refine ⟨⟨server, hs, Or.inr ⟨r, hr, hne⟩⟩, ?_⟩
    rintro ⟨server', hs', hnone | ⟨r', hr', hext'⟩⟩
    · obtain ⟨r', hr', -⟩ := hall server' hs' none hnone
      simp at hr'
    · obtain ⟨r'', hr'', hext''⟩ := hall server' hs' _ hr'
      rw [Option.some.injEq] at hr''
      exact hext' (List.map_injective_iff.2 (Option.some_injective _) hr'' ▸ hext'')
  · rintro ⟨⟨server, hs, hdiff⟩, hnone⟩
    have hext : ∀ server ∈ servers, ∀ a, server.answer sql = some a →
        ∃ r : List Bytes, a = some (r.map some) ∧ FieldsExtend w r := by
      intro server hs a ha
      cases a with
      | none => exact absurd ⟨server, hs, Or.inl ha⟩ hnone
      | some row =>
          obtain ⟨r, rfl, -⟩ := hshape server hs row ha
          refine ⟨r, rfl, ?_⟩
          by_contra hne
          exact hnone ⟨server, hs, Or.inr ⟨r, ha, hne⟩⟩
    refine ⟨hext, server, hs, ?_⟩
    rcases hdiff with h | h
    · exact absurd ⟨server, hs, Or.inl h⟩ hnone
    · exact h

/-- **When the check is exact.**  For a row `w` of the write server, `mysql_select` flags an
inconsistency exactly when a read server differs, unless the read servers that answer have
rows that only extend the fields of `w`. -/
theorem mysqlSelect_exact_iff (ctx : EngCtx) (name : Bytes) (s : TableSchema) (g g' : Globals)
    (buf : SqlBuf) (hgen : selectGen ctx name s g = .ret (buf, g')) (writeServer : MysqlServer)
    (readServers : List MysqlServer) (st : SelectStats) (w : List Bytes)
    (hdb : writeServer.selectDb = 0)
    (hrow : writeServer.realQuery buf.text = (0, some (w.map some)))
    (hw : ∀ f ∈ w, (0 : UInt8) ∉ f) (hshape : SameShape buf.text w readServers) :
    (Flagged st (mysqlSelect ctx name s g writeServer readServers st) ↔
        ∃ server ∈ readServers, Differs buf.text w server) ↔
      ¬ OnlyExtended buf.text w readServers := by
  have hcall : mysqlSelect ctx name s g writeServer readServers st
      = checkReadServers buf.text (w.map some) readServers st.countSelect := by
    simp [mysqlSelect, selectWith, hdb, hgen, hrow]
  obtain ⟨hyes, hno⟩ := checkReadServers_spec hw hshape st.countSelect
  have hflag : Flagged st (mysqlSelect ctx name s g writeServer readServers st) ↔
      ∃ server ∈ readServers, Refutes buf.text w server := by
    rw [hcall]
    constructor
    · rintro ⟨habort, -⟩
      by_contra hnone
      rw [hno hnone] at habort
      simp at habort
    · exact hyes
  rw [hflag, onlyExtended_iff hshape]
  constructor
  · rintro h ⟨hdiff, hnone⟩
    exact hnone (h.2 hdiff)
  · intro h
    refine ⟨fun ⟨server, hs, href⟩ => ⟨server, hs, href.differs⟩, fun hdiff => ?_⟩
    by_contra hnone
    exact h ⟨hdiff, hnone⟩

/-- A server that answers every statement with the same result. -/
def fixedServer (row : Option (List Bytes)) : MysqlServer := ⟨0, fun _ => (0, row.map (·.map some))⟩

/-- A table with a key and a value. -/
def sampleSchema : TableSchema :=
  ⟨⟨[⟨ascii "id", .bigint, 0⟩], 100⟩, ⟨[⟨ascii "v", .varchar, 8⟩], 100⟩⟩

/-- The statement that thread 0 sends for it with the seed 1. -/
def sampleSelect : Bytes := ascii "select id,v from t where id='3733449787446023075'"

/-- The row it asks for, with a given value. -/
def sampleRow (v : String) : List Bytes := [ascii "3733449787446023075", ascii v]

lemma sameShape_fixed {w : List Bytes} {rows : List (List Bytes)}
    (h : ∀ r ∈ rows, r.length = w.length) (sql : Bytes) :
    SameShape sql w (rows.map fun r => fixedServer (some r)) := by
  intro server hs row hrow
  obtain ⟨r, hr, rfl⟩ := List.mem_map.1 hs
  simp only [MysqlServer.answer, fixedServer, ne_eq, not_true_eq_false, or_self, if_false,
    Option.map_some, Option.some.injEq] at hrow
  exact ⟨r, hrow.symm, h r hr⟩

/-- Two read servers, of which the second one has another value. -/
theorem mysqlSelect_exact_iff_two :
    (Flagged ⟨0, 0, 0⟩ (mysqlSelect ⟨0, 1⟩ (ascii "t") sampleSchema ⟨0, fun _ => 0⟩
          (fixedServer (some (sampleRow "ab")))
          ([sampleRow "ab", sampleRow "ac"].map fun r => fixedServer (some r)) ⟨0, 0, 0⟩) ↔
        ∃ server ∈ [sampleRow "ab", sampleRow "ac"].map fun r => fixedServer (some r),
          Differs sampleSelect (sampleRow "ab") server) ↔
      ¬ OnlyExtended sampleSelect (sampleRow "ab")
        ([sampleRow "ab", sampleRow "ac"].map fun r => fixedServer (some r)) :=
  mysqlSelect_exact_iff ⟨0, 1⟩ (ascii "t") sampleSchema ⟨0, fun _ => 0⟩ ⟨0, fun _ => 0⟩ _ rfl _ _ _
    (sampleRow "ab") rfl rfl (by decide) (sameShape_fixed (by decide) _)

/-- The read server has `abc` where the write server has `ab`, and the call returns. -/
theorem mysqlSelect_misses_extension :
    ¬ (Flagged ⟨0, 0, 0⟩ (mysqlSelect ⟨0, 1⟩ (ascii "t") sampleSchema ⟨0, fun _ => 0⟩
          (fixedServer (some (sampleRow "ab"))) [fixedServer (some (sampleRow "abc"))] ⟨0, 0, 0⟩) ↔
        ∃ server ∈ [fixedServer (some (sampleRow "abc"))],
          Differs sampleSelect (sampleRow "ab") server) := by
  intro h
  have hdiff : Differs sampleSelect (sampleRow "ab") (fixedServer (some (sampleRow "abc"))) :=
    Or.inr ⟨sampleRow "abc", rfl, by decide⟩
  have hend : (mysqlSelect ⟨0, 1⟩ (ascii "t") sampleSchema ⟨0, fun _ => 0⟩
      (fixedServer (some (sampleRow "ab"))) [fixedServer (some (sampleRow "abc"))] ⟨0, 0, 0⟩).1
      = .returned 0 := rfl
  obtain ⟨habort, -⟩ := h.2 ⟨_, List.mem_singleton_self _, hdiff⟩
  rw [hend] at habort
  simp at habort

/-- **A key without a row on the write server is never checked.**  No answer of the read servers
is asked for. -/
theorem mysqlSelect_lost_delete_unflagged (ctx : EngCtx) (name : Bytes) (s : TableSchema)
    (g g' : Globals) (buf : SqlBuf) (hgen : selectGen ctx name s g = .ret (buf, g'))
    (writeServer : MysqlServer) (readServers : List MysqlServer) (st : SelectStats)
    (hdb : writeServer.selectDb = 0) (hrow : writeServer.realQuery buf.text = (0, none))
    (_hread : ∃ server ∈ readServers, ∃ row, server.answer buf.text = some (some row)) :
    ¬ Flagged st (mysqlSelect ctx name s g writeServer readServers st) := by
  have hcall : mysqlSelect ctx name s g writeServer readServers st
      = (.returned 1, st.countSelect) := by
    simp [mysqlSelect, selectWith, hdb, hgen, hrow]
  rintro ⟨habort, -⟩
  rw [hcall] at habort
  simp at habort

/-- The row has been deleted on the write server and is still there on the read server. -/
theorem mysqlSelect_lost_delete_unflagged_one :
    (∃ server ∈ [fixedServer (some (sampleRow "ab"))], ∃ row,
        server.answer sampleSelect = some (some row)) ∧
      ¬ Flagged ⟨0, 0, 0⟩ (mysqlSelect ⟨0, 1⟩ (ascii "t") sampleSchema ⟨0, fun _ => 0⟩
        (fixedServer none) [fixedServer (some (sampleRow "ab"))] ⟨0, 0, 0⟩) :=
  ⟨⟨_, List.mem_singleton_self _, _, rfl⟩,
    mysqlSelect_lost_delete_unflagged ⟨0, 1⟩ (ascii "t") sampleSchema ⟨0, fun _ => 0⟩
      ⟨0, fun _ => 0⟩ _ rfl _ _ _ rfl rfl ⟨_, List.mem_singleton_self _, _, rfl⟩⟩

/-- The call returns 1 and has counted no failed check, so the two verdicts are not
symmetric. -/
theorem mysqlSelect_skips_read_servers :
    ¬ ((∃ server ∈ [fixedServer (some (sampleRow "ab"))], ∃ row,
        server.answer sampleSelect = some (some row)) →
      Flagged ⟨0, 0, 0⟩ (mysqlSelect ⟨0, 1⟩ (ascii "t") sampleSchema ⟨0, fun _ => 0⟩
        (fixedServer none) [fixedServer (some (sampleRow "ab"))] ⟨0, 0, 0⟩)) := by
  intro h
  obtain ⟨habort, -⟩ := h ⟨_, List.mem_singleton_self _, _, rfl⟩
  have hend : (mysqlSelect ⟨0, 1⟩ (ascii "t") sampleSchema ⟨0, fun _ => 0⟩ (fixedServer none)
      [fixedServer (some (sampleRow "ab"))] ⟨0, 0, 0⟩).1 = .returned 1 := rfl
  rw [hend] at habort
  simp at habort

end CheckQ
