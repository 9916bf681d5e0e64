import CheckQ.Engine.FalseAlarm

/-!
# Every traversal has its row for itself

The statements of a traversal are for one row.  Seen from the traversal this row is a cell: an
INSERT is accepted when the cell is empty, a SELECT gives a row when it is not, and so on.  The
answers that a traversal gets, from the write server and from the read servers, are those of a cell
that nobody else writes, whatever the other traversals and `alter_thread` do in between.
-/

namespace CheckQ

/-- What a server answers to a statement. -/
inductive Reply where
  | refused
  -- executed, without a row
  | done
  | row
deriving DecidableEq, Repr

/-- The answer of `mysql_real_query` and `mysql_fetch_row`. -/
def Reply.of {Db : Type} : Option (Db × Option Row) → Reply
  | none => .refused
  | some (_, none) => .done
  | some (_, some _) => .row

/-- Whether there is a row after a command with its answer, for a row that was there or not; `none`
when a single row does not answer so. -/
def cellStep (present : Bool) : CmdType × Reply → Option Bool
  | (_, .refused) => some present
  | (.insert, .done) => if present then none else some true
  | (.delete, .done) => some false
  | (.update, .done) => some present
  | (.select, .done) => if present then none else some false
  | (.select, .row) => if present then some true else none
  | _ => none

/-- A row that was there or not when a traversal started, and the answers to its commands. -/
structure History where
  before : Bool
  events : List (CmdType × Reply)

/-- Whether there is a row now. -/
def History.after (h : History) : Option Bool := h.events.foldlM cellStep h.before

section Log

variable {ι Db K : Type} [DecidableEq ι] (w : ReplSetting ι Db K)

namespace ReplState

/-- There is a row with the key of a traversal. -/
def hasRow (s : ReplState ι Db) (ctx : EngCtx) (table : Bytes) : Bool :=
  match keyValue w ctx table with
  | some k => (w.server.rowAt s.db table k).isSome
  | none => false

/-- The answer that a thread gets in a step. -/
def event (s : ReplState ι Db) : ReplAction ι → Option (ι × CmdType × Reply)
  | .write i refused =>
      match s.threads i with
      | some ⟨_, _, _, .sent cmd sql⟩ => some (i, cmd, .of (s.query w sql refused))
      | _ => none
  | .read i refused =>
      match s.threads i with
      | some ⟨_, _, _, .reading sql _ (_ + 1)⟩ => some (i, .select, .of (s.query w sql refused))
      | _ => none
  | _ => none

/-- The histories of the traversals after a step. -/
def log (s : ReplState ι Db) (h : ι → History) (act : ReplAction ι) : ι → History :=
  match act, s.event w act with
  | .start i table _, _ => Function.update h i ⟨s.hasRow w ⟨w.tid i, s.seed + 1⟩ table, []⟩
  | _, some (i, e) => Function.update h i { h i with events := (h i).events ++ [e] }
  | _, none => h

end ReplState

end Log

lemma History.after_concat {h : History} {present : Bool} (ha : h.after = some present)
    (e : CmdType × Reply) :
    ({ h with events := h.events ++ [e] } : History).after = cellStep present e := by
  rw [History.after] at ha ⊢
  rw [List.foldlM_append, ha]
  simp

/-! ### The answer to a statement -/

/-- A statement answers as the cell of its row does. -/
lemma DataStmt.Effect.cellStep {Db : Type} {before after : Option (Bytes → Option Bytes)}
    {row : Option Row} {stmt : DataStmt} (h : stmt.Effect before after row) (db : Db) :
    CheckQ.cellStep before.isSome (stmt.cmd, .of (some (db, row))) = some after.isSome := by
  cases stmt with
  | insert lits =>
      obtain ⟨rfl, hafter, rfl⟩ := h
      rw [hafter]
      rfl
  | delete cond =>
      obtain ⟨rfl, rfl⟩ := h
      rfl
  | update sets cond =>
      obtain ⟨rfl, rfl⟩ := h
      rw [Option.isSome_map]
      rfl
  | select cols cond =>
      obtain ⟨rfl, rfl⟩ := h
      cases after <;> rfl

/-- An answer to a SELECT leaves the cell as it is. -/
lemma cellStep_select {present present' : Bool} {r : Reply}
    (hstep : cellStep present (.select, r) = some present') : present' = present := by
  cases r <;> cases present <;> simp_all [cellStep]

section Traversals

variable {ι Db K : Type} [DecidableEq ι] {w : ReplSetting ι Db K} {s s' : ReplState ι Db}
  {h : ι → History}

omit [DecidableEq ι] in
lemma hasRow_eq {ctx : EngCtx} {table : Bytes} {k : K} (hk : keyValue w ctx table = some k) :
    s.hasRow w ctx table = (w.server.rowAt s.db table k).isSome := by
  rw [ReplState.hasRow, hk]

omit [DecidableEq ι] in
/-- The answer to a statement of a traversal is that of its cell. -/
lemma cellStep_text (hlaw : w.server.Lawful w.key) (hdb : w.server.keyed s.db) {ctx : EngCtx}
    {table sql : Bytes} {cmd : CmdType} (hname : NameText table)
    (htext : TextFor w ctx table cmd sql) {db : Db} {row : Option Row}
    (hq : w.server.query s.db sql = some (db, row)) :
    cellStep (s.hasRow w ctx table) (cmd, .of (some (db, row)))
      = some (({ s with db } : ReplState ι Db).hasRow w ctx table) := by
  obtain ⟨v, hv, hsql⟩ := htext
  obtain ⟨-, -, stmt, rfl, heffect⟩ := hlaw.executed hdb hname hsql hq
  rw [hasRow_eq hv, hasRow_eq hv]
  exact heffect.cellStep db

omit [DecidableEq ι] in
/-- The rows of the traversals that are the same have the same cells. -/
lemma hasRow_congr {db : Db} {ctx : EngCtx} {table : Bytes}
    (hrow : ∀ k, keyValue w ctx table = some k →
      (w.server.rowAt db table k).isSome = (w.server.rowAt s.db table k).isSome) :
    ({ s with db } : ReplState ι Db).hasRow w ctx table = s.hasRow w ctx table := by
  rw [ReplState.hasRow, ReplState.hasRow]
  rcases hk : keyValue w ctx table with _ | k
  · rfl
  · exact hrow k hk

/-- The histories of the traversals are those of cells. -/
def Legal (w : ReplSetting ι Db K) (s : ReplState ι Db) (h : ι → History) : Prop :=
  ∀ i tr, s.threads i = some tr → (h i).after = some (s.hasRow w tr.ctx tr.table)

namespace Legal

omit [DecidableEq ι] in
/-- The traversals go on without an answer, and their rows stay there. -/
lemma keep (hl : Legal w s h)
    (hthreads : ∀ j tr', s'.threads j = some tr' → ∃ tr, s.threads j = some tr ∧
      tr'.ctx = tr.ctx ∧ tr'.table = tr.table)
    (hrows : ∀ j tr, s.threads j = some tr →
      s'.hasRow w tr.ctx tr.table = s.hasRow w tr.ctx tr.table) : Legal w s' h := by
  intro j tr' htr'
  obtain ⟨tr, htr, hctx, htable⟩ := hthreads j tr' htr'
  rw [hctx, htable, hrows j tr htr]
  exact hl j tr htr

lemma move (hl : Legal w s h) {i : ι} {tr tr' : Traversal} (htr : s.threads i = some tr)
    (hctx : tr'.ctx = tr.ctx) (htable : tr'.table = tr.table) : Legal w (s.move i tr') h := by
  refine hl.keep (fun j tr₁ h₁ => ?_) fun _ _ _ => rfl
  rcases threads_move h₁ with ⟨rfl, rfl⟩ | ⟨-, h₁⟩
  · exact ⟨tr, htr, hctx, htable⟩
  · exact ⟨tr₁, h₁, rfl, rfl⟩

/-- One thread gets an answer, and the rows of the others stay there. -/
lemma event (hl : Legal w s h) {i : ι} {tr tr' : Traversal} (htr : s.threads i = some tr)
    (hctx : tr'.ctx = tr.ctx) (htable : tr'.table = tr.table) {db : Db}
    (hothers : ∀ j tr₁, j ≠ i → s.threads j = some tr₁ →
      ({ s with db } : ReplState ι Db).hasRow w tr₁.ctx tr₁.table = s.hasRow w tr₁.ctx tr₁.table)
    {e : CmdType × Reply}
    (hcell : cellStep (s.hasRow w tr.ctx tr.table) e
      = some (({ s with db } : ReplState ι Db).hasRow w tr.ctx tr.table)) :
    Legal w ({ s with db }.move i tr')
      (Function.update h i { h i with events := (h i).events ++ [e] }) := by
  intro j tr₁ h₁
  rcases threads_move h₁ with ⟨rfl, rfl⟩ | ⟨hj, h₁⟩
  · rw [Function.update_self, History.after_concat (hl j tr htr), hctx, htable]
    exact hcell
  · rw [Function.update_of_ne hj]
    exact (hl j tr₁ h₁).trans (congrArg some (hothers j tr₁ hj h₁).symm)

/-- An answer that leaves the row as it is. -/
lemma answer (hl : Legal w s h) {i : ι} {tr : Traversal} (htr : s.threads i = some tr)
    {e : CmdType × Reply}
    (hcell : cellStep (s.hasRow w tr.ctx tr.table) e = some (s.hasRow w tr.ctx tr.table)) :
    Legal w s (Function.update h i { h i with events := (h i).events ++ [e] }) := by
  intro j tr₁ h₁
  by_cases hj : j = i
  · subst hj
    obtain rfl := Option.some.inj (htr.symm.trans h₁)
    rw [Function.update_self, History.after_concat (hl j tr htr), hcell]
  · rw [Function.update_of_ne hj]
    exact hl j tr₁ h₁

lemma start (hl : Legal w s h) {i : ι} {table : Bytes} {cmds : List CmdType}
    (hstep : s.start w i table cmds = some s') :
    Legal w s' (s.log w h (.start i table cmds)) := by
  rw [ReplState.start] at hstep
  split at hstep
  · cases hstep
  · cases hstep
    intro j tr htr
    rw [ReplState.log]
    rcases threads_move htr with ⟨rfl, rfl⟩ | ⟨hj, htr⟩
    · rw [Function.update_self]
      rfl
    · rw [Function.update_of_ne hj]
      exact hl j tr htr

lemma gen (hl : Legal w s h) {i : ι} {vals : Schema} {g : Globals}
    (hstep : s.gen w i vals g = some s') : Legal w s' h := by
  rw [ReplState.gen] at hstep
  split at hstep
  · rename_i ctx table cmd cmds htr
    split at hstep
    · split at hstep <;> cases hstep
      · exact hl.move htr (by rfl) (by rfl)
      · exact hl
    · cases hstep
      exact hl.move htr (by rfl) (by rfl)
  · cases hstep

lemma write (hlaw : w.server.Lawful w.key) (hl : Legal w s h) (hinv : ReplInv w s) {i : ι}
    {refused : Bool} (hstep : s.write w i refused = some s') :
    Legal w s' (s.log w h (.write i refused)) := by
  rw [ReplState.write] at hstep
  split at hstep
  · rename_i ctx table cmds cmd sql htr
    have htext : TextFor w ctx table cmd sql := hinv.text.text i _ htr
    simp only [ReplState.log, ReplState.event, htr]
    rcases hquery : s.query w sql refused with _ | ⟨db, row⟩
    · rw [hquery] at hstep
      cases hstep
      exact (hl.answer htr rfl).move htr (by rfl) (by rfl)
    · have hq := query_eq_some hquery
      have hothers : ∀ j tr₁, j ≠ i → s.threads j = some tr₁ →
          ({ s with db } : ReplState ι Db).hasRow w tr₁.ctx tr₁.table
            = s.hasRow w tr₁.ctx tr₁.table := fun j tr₁ hj h₁ =>
        hasRow_congr fun k hk => by rw [hinv.rowAt_others hlaw htr htext hq j tr₁ hj h₁ k hk]
      have hcell := cellStep_text hlaw hinv.text.keyed (hinv.text.proper i _ htr).1 htext hq
      rw [hquery] at hstep
      cases row with
      | none =>
          cases hstep
          exact hl.event htr (by rfl) (by rfl) hothers hcell
      | some wrow =>
          dsimp only at hstep
          split at hstep <;> cases hstep
          · exact hl.event htr (by rfl) (by rfl) hothers hcell
          · exact hl.event htr (by rfl) (by rfl) hothers hcell
  · cases hstep

lemma read (hlaw : w.server.Lawful w.key) (hl : Legal w s h) (hinv : ReplInv w s) {i : ι}
    {refused : Bool} (hstep : s.read w i refused = some s') :
    Legal w s' (s.log w h (.read i refused)) := by
  rw [ReplState.read] at hstep
  split at hstep
  · rename_i htr
    cases hstep
    simp only [ReplState.log, ReplState.event, htr]
    exact hl.move htr (by rfl) (by rfl)
  · rename_i ctx table cmds sql wrow n htr
    have htext : TextFor w ctx table .select sql := hinv.text.text i _ htr
    simp only [ReplState.log, ReplState.event, htr]
    -- a read server does not change the row
    have hcell : cellStep (s.hasRow w ctx table) (.select, .of (s.query w sql refused))
        = some (s.hasRow w ctx table) := by
      rcases hquery : s.query w sql refused with _ | ⟨db, row⟩
      · rfl
      · have hstep := cellStep_text hlaw hinv.text.keyed (hinv.text.proper i _ htr).1 htext
          (query_eq_some hquery)
        rw [hstep, cellStep_select hstep]
    have hl' := hl.answer htr hcell
    -- the thread goes on, or the process is stopped
    split at hstep <;> cases hstep
    · exact hl'.move htr (by rfl) (by rfl)
    · exact hl'
  · cases hstep

lemma finish (hl : Legal w s h) {i : ι} (hstep : s.finish i = some s') : Legal w s' h := by
  rw [ReplState.finish] at hstep
  split at hstep
  · cases hstep
    exact fun j tr htr => hl j tr (threads_finish htr)
  · cases hstep

omit [DecidableEq ι] in
lemma ddl (hlaw : w.server.Lawful w.key) (hl : Legal w s h) (hinv : ReplInv w s) {stmt : SqlStmt}
    (hkeep : stmt.KeepsKey w.key) {db : Db} (hddl : w.server.ddl s.db stmt = some db) :
    Legal w { s with db } h := by
  refine hl.keep (fun j tr htr => ⟨tr, htr, rfl, rfl⟩) fun j tr htr => hasRow_congr fun k _ => ?_
  have hrel := hlaw.ddl_rows _ _ _ hinv.text.keyed hkeep hddl tr.table k
  generalize w.server.rowAt s.db tr.table k = before at hrel
  generalize w.server.rowAt db tr.table k = after at hrel
  cases hrel <;> rfl

lemma step (hlaw : w.server.Lawful w.key) (hl : Legal w s h) (hinv : ReplInv w s)
    {act : ReplAction ι} (hproper : ProperAction w s act) (hstep : replStep w s act = some s') :
    Legal w s' (s.log w h act) := by
  unfold replStep at hstep
  split at hstep
  · cases hstep
  · cases act with
    | start i table cmds => exact hl.start hstep
    | gen i vals g => exact hl.gen hstep
    | write i refused => exact hl.write hlaw hinv hstep
    | read i refused => exact hl.read hlaw hinv hstep
    | finish i => exact hl.finish hstep
    | ddl stmt =>
        obtain ⟨db, hddl, rfl⟩ := Option.map_eq_some_iff.1 hstep
        exact hl.ddl hlaw hinv hproper hddl

end Legal

end Traversals

end CheckQ
