import CheckQ.Lib.SharedStack
import CheckQ.Engine.SqlBuffer

/-!
# Statements that are generated while columns are added and dropped

The value columns of a schema are an array of pointers with a counter, and no lock.  A generator of
`sql_gen` copies the counter and then follows the pointers one after another; `alter_thread` adds a
column with `add_table_data` and frees the last one with `drop_table_data`, each in several
accesses.  Here all these accesses come in any order.  `column_access_faults_iff` says which access
of which thread follows a pointer to a freed column.
-/

namespace CheckQ

/-- A column that `add_table_data` makes for `nschema` columns. -/
def MadeColumn (nschema : ℕ) (data : TableData) : Prop :=
  data = tableDataInit (colName nschema) .bigint 0 ∨
    ∃ v, data = tableDataInit (colName nschema) .varchar (Int32.ofNat (v % 503 + 10))

/-- Where `alter_thread` is. -/
inductive AlterPc where
  | idle
  -- `mysql_alter_add_table`: in `schema_add`, before and behind the write, and in `alter_add_gen`
  | made (p : ℕ)
  | written
  | addGen
  -- `mysql_alter_drop_table`: before `strncmp`, in `alter_drop_gen` and in `drop_table_data`,
  -- before and behind `table_data_destroy`
  | check
  | dropGen
  | free
  | freed
deriving DecidableEq, Repr

/-- The number of columns that are in the array and not freed, when the counter is `nschema`. -/
def AlterPc.columns (nschema : ℕ) : AlterPc → ℕ
  | .written => nschema + 1
  | .freed => nschema - 1
  | _ => nschema

/-- Where a generator is; `seen` are the columns that it has written. -/
inductive GenPc where
  | idle
  | scan (ndata : ℕ) (seen : List TableData)
  -- `table_datas[i]` has been read
  | use (ndata : ℕ) (seen : List TableData) (p : ℕ)
  -- the statement is complete
  | done (seen : List TableData)

/-- One access of `alter_thread`. -/
inductive AlterStep : SharedStack TableData → AlterPc → SharedStack TableData → AlterPc → Prop
  -- `table_data_init` in `add_table_data`, when `is_table_schema_full` has not returned 1
  | add {t : SharedStack TableData} (hroom : t.count < t.cells.length) {data}
      (hdata : MadeColumn t.count data) : AlterStep t .idle (t.alloc data) (.made t.next)
  -- `schema_add`
  | full {t : SharedStack TableData} {p} (hfull : t.count = t.cells.length) :
      AlterStep t (.made p) t .addGen
  | write {t t' : SharedStack TableData} {p} (hroom : t.count ≠ t.cells.length)
      (hwrite : t.write p = .ret t') : AlterStep t (.made p) t' .written
  | count {t} : AlterStep t .written { t with count := t.count + 1 } .addGen
  | addGen {t data} (htop : t.top = .ret data) : AlterStep t .addGen t .idle
  -- `mysql_alter_drop_table` with a column
  | drop {t} (hpos : 0 < t.count) : AlterStep t .idle t .check
  | check {t data} (htop : t.top = .ret data) :
      AlterStep t .check t (if strncmp data.name (ascii "col") 3 ≠ 0 then .idle else .dropGen)
  -- the server accepts the statement or not
  | dropGen {t data} (htop : t.top = .ret data) (accepted : Bool) :
      AlterStep t .dropGen t (if accepted then .free else .idle)
  | free {t t'} (hfree : t.free = .ret t') : AlterStep t .free t' .freed
  | uncount {t} : AlterStep t .freed { t with count := t.count - 1 } .idle

/-- One access of a generator.  It may look at a column more than once. -/
inductive GenStep (t : SharedStack TableData) : GenPc → GenPc → Prop
  | begin : GenStep t .idle (.scan t.count [])
  | load {ndata seen p} (hlt : seen.length < ndata) (hload : fetch t.cells seen.length = .ret p) :
      GenStep t (.scan ndata seen) (.use ndata seen p)
  | again {ndata seen p data} (hderef : t.deref p = .ret data) :
      GenStep t (.use ndata seen p) (.scan ndata seen)
  | next {ndata seen p data} (hderef : t.deref p = .ret data) :
      GenStep t (.use ndata seen p) (.scan ndata (seen ++ [data]))
  | finish {ndata seen} (hge : ndata ≤ seen.length) : GenStep t (.scan ndata seen) (.done seen)
  | leave {seen} : GenStep t (.done seen) .idle

/-- The next access of `alter_thread` is outside of the array, or is to a column that has been
freed. -/
def AlterFaults (t : SharedStack TableData) : AlterPc → Prop
  | .made p => t.count ≠ t.cells.length ∧ t.write p = .fault
  | .addGen | .check | .dropGen => t.top = .fault
  | .free => t.free = .fault
  | _ => False

/-- The next access of a generator is. -/
def GenFaults (t : SharedStack TableData) : GenPc → Prop
  | .scan ndata seen => seen.length < ndata ∧ fetch t.cells seen.length = .fault
  | .use _ _ p => t.deref p = .fault
  | _ => False

/-- The value columns of a schema, `alter_thread`, and the threads that generate statements. -/
structure ColumnState (ι : Type) where
  stack : SharedStack TableData
  alter : AlterPc
  gens : ι → GenPc
  faulted : Bool

namespace ColumnState

variable {ι : Type}

/-- The columns of the configuration, in the array of `schema_init`. -/
def initial (schemas : List TableData) : ColumnState ι where
  stack := .ofList schemas 100
  alter := .idle
  gens _ := .idle
  faulted := false

/-- A generator goes on. -/
def goto [DecidableEq ι] (s : ColumnState ι) (i : ι) (pc : GenPc) : ColumnState ι :=
  { s with gens := Function.update s.gens i pc }

/-- The next access of some thread goes wrong. -/
def Faults (s : ColumnState ι) : Prop :=
  AlterFaults s.stack s.alter ∨ ∃ i, GenFaults s.stack (s.gens i)

/-- The number of columns that are not freed. -/
def columns (s : ColumnState ι) : ℕ := s.alter.columns s.stack.count

end ColumnState

/-- One access, of any thread. -/
inductive ColumnStep {ι : Type} [DecidableEq ι] : ColumnState ι → ColumnState ι → Prop
  | alter {s t pc} (hs : s.faulted = false) (hstep : AlterStep s.stack s.alter t pc) :
      ColumnStep s { s with stack := t, alter := pc }
  | gen {s i pc} (hs : s.faulted = false) (hstep : GenStep s.stack (s.gens i) pc) :
      ColumnStep s (s.goto i pc)
  | fault {s} (hs : s.faulted = false) (hfault : s.Faults) :
      ColumnStep s { s with faulted := true }

/-! ### The invariant -/

/-- What a place in `alter_thread` says about the columns `ps`. -/
def AlterOk (t : SharedStack TableData) (ps : List ℕ) : AlterPc → Prop
  | .idle => t.count = ps.length
  | .made p => t.count = ps.length ∧ t.count < t.cells.length ∧
      ∃ data, t.Pending p data ∧ MadeColumn t.count data
  | .written => t.count + 1 = ps.length
  | .freed => t.count = ps.length + 1 ∧ ∃ p, t.cells[ps.length]? = some (some p)
  | _ => t.count = ps.length ∧ 0 < t.count

/-- What a place in a generator says. -/
def GenOk (t : SharedStack TableData) (ps : List ℕ) : GenPc → Prop
  | .scan ndata _ => ∀ k < ndata, ∃ p, t.cells[k]? = some (some p)
  | .use ndata seen p => (∀ k < ndata, ∃ p, t.cells[k]? = some (some p)) ∧ seen.length < ndata ∧
      t.Loaded ps seen.length p
  | _ => True

/-- The array holds the columns `schemas`, in the blocks `ps`. -/
structure StackInv (ps : List ℕ) (schemas : List TableData) (t : SharedStack TableData)
    (pc : AlterPc) : Prop where
  holds : t.Holds ps schemas
  capacity : t.cells.length = 100
  alter : AlterOk t ps pc

/-- What holds in every state of a run. -/
structure ColumnInv {ι : Type} (ps : List ℕ) (schemas : List TableData) (s : ColumnState ι) :
    Prop where
  stack : StackInv ps schemas s.stack s.alter
  gens : ∀ i, GenOk s.stack ps (s.gens i)

/-- What a step of `alter_thread` does to the columns. -/
inductive ColumnChange : List TableData → List TableData → Prop
  | same {l : List TableData} : ColumnChange l l
  | add {l : List TableData} {data : TableData} (hroom : l.length < 100)
      (hdata : MadeColumn l.length data) : ColumnChange l (l ++ [data])
  | drop {l : List TableData} {data : TableData} : ColumnChange (l ++ [data]) l

/-- What it leaves to the generators. -/
structure GenFrame (t : SharedStack TableData) (ps : List ℕ) (t' : SharedStack TableData)
    (ps' : List ℕ) : Prop where
  cells : ∀ k p : ℕ, t.cells[k]? = some (some p) → ∃ q, t'.cells[k]? = some (some q)
  loaded : ∀ k p, t.Loaded ps k p → t'.Loaded ps' k p

section Invariant

variable {t t' : SharedStack TableData} {ps ps' : List ℕ} {schemas : List TableData}
  {apc apc' : AlterPc} {pc pc' : GenPc}

/-- A generator after a step of `alter_thread`. -/
lemma GenOk.frame (h : GenOk t ps pc) (hframe : GenFrame t ps t' ps') : GenOk t' ps' pc := by
  have hscan : ∀ {ndata : ℕ}, (∀ k < ndata, ∃ p, t.cells[k]? = some (some p)) →
      ∀ k < ndata, ∃ p, t'.cells[k]? = some (some p) := by
    intro ndata hall k hk
    obtain ⟨p, hp⟩ := hall k hk
    exact hframe.cells k p hp
  cases pc with
  | scan ndata seen => exact hscan h
  | use ndata seen p => exact ⟨hscan h.1, h.2.1, hframe.loaded _ _ h.2.2⟩
  | _ => trivial

lemma GenFrame.refl (t : SharedStack TableData) (ps : List ℕ) : GenFrame t ps t ps :=
  ⟨fun _ p hp => ⟨p, hp⟩, fun _ _ hp => hp⟩

lemma GenFrame.count (t : SharedStack TableData) (ps : List ℕ) (n : ℕ) :
    GenFrame t ps { t with count := n } ps :=
  ⟨fun _ p hp => ⟨p, hp⟩, fun _ _ hp => ⟨hp.known, hp.current⟩⟩

namespace StackInv

lemma columns_eq (h : StackInv ps schemas t apc) : apc.columns t.count = ps.length := by
  have halter := h.alter
  cases apc with
  | idle => exact halter
  | written => exact halter
  | freed =>
      show t.count - 1 = ps.length
      have := halter.1
      omega
  | _ => exact halter.1

/-- The cells below the counter have been written. -/
lemma cell_of_lt (h : StackInv ps schemas t apc) {k : ℕ} (hk : k < t.count) :
    ∃ p, t.cells[k]? = some (some p) := by
  have hps : ∀ {k}, k < ps.length → ∃ p, t.cells[k]? = some (some p) :=
    fun hlt => ⟨_, h.holds.cell _ _ (List.getElem?_eq_getElem hlt)⟩
  have hcount := h.columns_eq
  cases apc with
  | freed =>
      obtain ⟨hcount', hcell⟩ := h.alter
      rcases Nat.lt_or_ge k ps.length with hlt | hge
      · exact hps hlt
      · obtain rfl : k = ps.length := by omega
        exact hcell
  | written =>
      have hlen : t.count + 1 = ps.length := hcount
      exact hps (by omega)
  | _ =>
      have hlen : t.count = ps.length := hcount
      exact hps (hlen ▸ hk)

/-- The last column, while `alter_thread` looks at it. -/
lemma top (h : StackInv ps schemas t apc) (hcount : t.count = ps.length) (hpos : 0 < t.count) :
    ∃ ps' p schemas' data, ps = ps' ++ [p] ∧ schemas = schemas' ++ [data] ∧
      t.count = ps'.length + 1 ∧ t.top = .ret data := by
  obtain ⟨ps', p, rfl⟩ : ∃ ps' p, ps = ps' ++ [p] :=
    ⟨_, _, (List.dropLast_append_getLast (List.ne_nil_of_length_pos (hcount ▸ hpos))).symm⟩
  have hlength := h.holds.length_eq
  obtain ⟨schemas', data, rfl⟩ : ∃ schemas' data, schemas = schemas' ++ [data] :=
    ⟨_, _, (List.dropLast_append_getLast
      (List.ne_nil_of_length_pos (by rw [← hlength]; simp))).symm⟩
  have hcount' : t.count = ps'.length + 1 := by simpa using hcount
  obtain ⟨hfetch, hblock⟩ := h.holds.top_eq hcount'
  refine ⟨ps', p, schemas', data, rfl, rfl, hcount', ?_⟩
  rw [SharedStack.top, hfetch, Outcome.ret_bind, SharedStack.deref, hblock]

/-- `alter_thread` never follows a pointer to a freed column. -/
lemma not_alterFaults (h : StackInv ps schemas t apc) : ¬ AlterFaults t apc := by
  have htop : t.count = ps.length ∧ 0 < t.count → t.top ≠ .fault := by
    rintro ⟨hcount, hpos⟩ hfault
    obtain ⟨-, -, -, data, -, -, -, hret⟩ := h.top hcount hpos
    rw [hret] at hfault
    cases hfault
  have halter := h.alter
  cases apc with
  | made p =>
      rintro ⟨-, hwrite⟩
      obtain ⟨hcount, hroom, data, hpending, -⟩ := halter
      obtain ⟨t', hret, -⟩ := h.holds.write hpending hcount hroom
      rw [hret] at hwrite
      cases hwrite
  | addGen => exact htop halter
  | check => exact htop halter
  | dropGen => exact htop halter
  | free =>
      intro hfree
      obtain ⟨ps', p, schemas', data, rfl, rfl, hcount, -⟩ := h.top halter.1 halter.2
      rw [AlterFaults, (h.holds.free hcount).1] at hfree
      cases hfree
  | _ => exact id

/-- A generator reads cells that have been written. -/
lemma fetch_ret {ndata : ℕ} {seen : List TableData} (hgen : GenOk t ps (.scan ndata seen))
    (hlt : seen.length < ndata) : ∃ p, fetch t.cells seen.length = .ret p := by
  obtain ⟨p, hp⟩ := hgen _ hlt
  refine ⟨p, ?_⟩
  rw [fetch, if_neg (by omega), Int.toNat_natCast, hp]

/-- A generator follows one only from a cell that it has read. -/
lemma genFaults_iff (hgen : GenOk t ps pc) :
    GenFaults t pc ↔ ∃ ndata seen p, pc = .use ndata seen p ∧ t.blocks p = none := by
  cases pc with
  | scan ndata seen =>
      constructor
      · rintro ⟨hlt, hload⟩
        obtain ⟨p, hp⟩ := fetch_ret hgen hlt
        rw [hp] at hload
        cases hload
      · rintro ⟨_, _, _, hpc, -⟩
        cases hpc
  | use ndata seen p =>
      rw [GenFaults, SharedStack.deref]
      constructor
      · intro hderef
        refine ⟨ndata, seen, p, rfl, ?_⟩
        split at hderef
        · cases hderef
        · assumption
      · rintro ⟨_, _, _, hpc, hblock⟩
        cases hpc
        rw [hblock]
  | _ =>
      refine ⟨False.elim, ?_⟩
      rintro ⟨_, _, _, hpc, -⟩
      cases hpc

/-- A step of `alter_thread` changes the columns by whole items. -/
lemma step (h : StackInv ps schemas t apc) (hstep : AlterStep t apc t' apc') :
    ∃ ps' schemas', StackInv ps' schemas' t' apc' ∧ ColumnChange schemas schemas' ∧
      GenFrame t ps t' ps' ∧ (apc' = .freed ∨ ps <+: ps' ∧ schemas <+: schemas') := by
  have halter := h.alter
  have hprefix : apc' = .freed ∨ ps <+: ps ∧ schemas <+: schemas :=
    Or.inr ⟨List.prefix_refl _, List.prefix_refl _⟩
  -- the steps that only look at the columns
  have hlook : AlterOk t ps apc' → ∃ ps' schemas', StackInv ps' schemas' t apc' ∧
      ColumnChange schemas schemas' ∧ GenFrame t ps t ps' ∧
      (apc' = .freed ∨ ps <+: ps' ∧ schemas <+: schemas') :=
    fun hok => ⟨ps, schemas, ⟨h.holds, h.capacity, hok⟩, .same, .refl t ps, hprefix⟩
  cases hstep with
  | add hroom hdata =>
      obtain ⟨hholds, hpending⟩ := h.holds.alloc _
      exact ⟨ps, schemas, ⟨hholds, h.capacity, halter, hroom, _, hpending, hdata⟩, .same,
        ⟨fun k p hp => ⟨p, hp⟩, fun k p hp => hp.alloc _⟩, hprefix⟩
  | full hfull => exact absurd hfull halter.2.1.ne
  | @write _ p hroom hwrite =>
      obtain ⟨hcount, hlt, data, hpending, hdata⟩ := halter
      obtain ⟨t₁, hret, hholds, hcount', hblocks, hnext, hlength, hcells⟩ :=
        h.holds.write hpending hcount hlt
      obtain rfl := Outcome.ret.inj (hwrite.symm.trans hret)
      rw [h.capacity, hcount, h.holds.length_eq] at hlt
      rw [hcount, h.holds.length_eq] at hdata
      refine ⟨ps ++ [p], schemas ++ [data], ⟨hholds, hlength.trans h.capacity, ?_⟩,
        .add hlt hdata, ⟨fun k q hq => ?_, fun k q hq => hq.append hblocks hnext p⟩,
        Or.inr ⟨List.prefix_append .., List.prefix_append ..⟩⟩
      · show t'.count + 1 = (ps ++ [p]).length
        rw [hcount', hcount, List.length_append, List.length_singleton]
      · rw [hcells]
        split
        · exact ⟨p, rfl⟩
        · exact ⟨q, hq⟩
  | count =>
      have hlen : t.count + 1 = ps.length := halter
      exact ⟨ps, schemas, ⟨h.holds.count _, h.capacity, hlen, Nat.succ_pos _⟩, .same,
        .count t ps _, hprefix⟩
  | addGen htop => exact hlook halter.1
  | drop hpos => exact hlook ⟨halter, hpos⟩
  | check htop =>
      refine hlook ?_
      split
      · exact halter.1
      · exact halter
  | dropGen htop accepted =>
      refine hlook ?_
      cases accepted with
      | true => exact halter
      | false => exact halter.1
  | free hfree =>
      obtain ⟨ps', p, schemas', data, rfl, rfl, hcount, -⟩ := h.top halter.1 halter.2
      obtain ⟨hret, hholds⟩ := h.holds.free hcount
      obtain rfl := Outcome.ret.inj (hfree.symm.trans hret)
      have hlast := h.holds.cell ps'.length p List.getElem?_concat_length
      exact ⟨ps', schemas', ⟨hholds, h.capacity, hcount, p, hlast⟩, .drop,
        ⟨fun k p hp => ⟨p, hp⟩, fun k p hp => hp.free⟩, Or.inl rfl⟩
  | uncount =>
      refine ⟨ps, schemas, ⟨h.holds.count _, h.capacity, ?_⟩, .same, .count t ps _, hprefix⟩
      show t.count - 1 = ps.length
      have := halter.1
      omega

/-- A step of a generator. -/
lemma genStep (h : StackInv ps schemas t apc) (hgen : GenOk t ps pc) (hstep : GenStep t pc pc') :
    GenOk t ps pc' := by
  cases hstep with
  | begin => exact fun k hk => h.cell_of_lt hk
  | load hlt hload =>
      refine ⟨hgen, hlt, h.holds.load ?_⟩
      obtain ⟨q, hq⟩ := hgen _ hlt
      rw [fetch, if_neg (by omega), Int.toNat_natCast, hq] at hload
      rw [hq, Outcome.ret.inj hload]
  | again hderef => exact hgen.1
  | next hderef => exact hgen.1
  | finish hge => trivial
  | leave => trivial

end StackInv

section Run

variable {ι : Type} {s s' : ColumnState ι}

lemma ColumnInv.faults_iff (h : ColumnInv ps schemas s) :
    s.Faults ↔ ∃ i ndata seen p, s.gens i = .use ndata seen p ∧ s.stack.blocks p = none := by
  rw [ColumnState.Faults, or_iff_right h.stack.not_alterFaults]
  exact exists_congr fun i => StackInv.genFaults_iff (h.gens i)

lemma ColumnInv.columns_eq (h : ColumnInv ps schemas s) : s.columns = ps.length :=
  h.stack.columns_eq

variable [DecidableEq ι]

lemma ColumnState.goto_gens (s : ColumnState ι) (i : ι) (pc : GenPc) (j : ι) :
    (s.goto i pc).gens j = if j = i then pc else s.gens j := Function.update_apply ..

/-- A generator goes on. -/
lemma ColumnInv.goto (h : ColumnInv ps schemas s) {i : ι} (hstep : GenStep s.stack (s.gens i) pc) :
    ColumnInv ps schemas (s.goto i pc) := by
  refine ⟨h.stack, fun j => ?_⟩
  rw [ColumnState.goto_gens]
  split
  · exact h.stack.genStep (h.gens i) hstep
  · exact h.gens j

lemma ColumnInv.step (h : ColumnInv ps schemas s) (hstep : ColumnStep s s') :
    ∃ ps' schemas', ColumnInv ps' schemas' s' ∧ ColumnChange schemas schemas' := by
  cases hstep with
  | alter hs hstep =>
      obtain ⟨ps', schemas', hstack, hchange, hframe, -⟩ := h.stack.step hstep
      exact ⟨ps', schemas', ⟨hstack, fun i => (h.gens i).frame hframe⟩, hchange⟩
  | gen hs hstep => exact ⟨ps, schemas, h.goto hstep, .same⟩
  | fault hs hfault => exact ⟨ps, schemas, ⟨h.stack, h.gens⟩, .same⟩

omit [DecidableEq ι] in
lemma columnInv_initial (hlen : schemas.length ≤ 100) :
    ColumnInv (List.range schemas.length) schemas (.initial schemas : ColumnState ι) where
  stack :=
    { holds := SharedStack.holds_ofList schemas 100
      capacity := length_stackCells (by simpa using hlen)
      alter := List.length_range.symm }
  gens _ := trivial

/-- The schema with a list of value columns, in an array of 100 cells. -/
def schemaOf (keySchema : Schema) (l : List TableData) : TableSchema := ⟨keySchema, ⟨l, 100⟩⟩

/-- A change of the columns is a call of `add_table_data` or of `drop_table_data`. -/
lemma ColumnChange.alters {l l' : List TableData} (h : ColumnChange l l') (keySchema : Schema) :
    schemaOf keySchema l' = schemaOf keySchema l ∨
      Alters (schemaOf keySchema l) (schemaOf keySchema l') := by
  cases h with
  | same => exact Or.inl rfl
  | @add l data hroom hdata =>
      right
      left
      have hadd : schemaAdd ⟨l, 100⟩ data = .ret (.succeed, ⟨l ++ [data], 100⟩) :=
        schemaAdd_eq hroom data
      rcases hdata with rfl | ⟨v, rfl⟩
      · refine ⟨fun _ => 0, fun k => (fun _ => 0) (k + 1), ?_⟩
        simp only [addTableData]
        exact (congrArg (· >>= _) hadd).trans rfl
      · refine ⟨fun k => if k = 0 then 1 else v, fun _ => v, ?_⟩
        simp only [addTableData]
        exact (congrArg (· >>= _) hadd).trans rfl
  | @drop l data =>
      right
      right
      rw [dropTableData, if_neg]
      · simp [schemaOf]
      · simp [schemaOf, Schema.nschema]

/-- The invariant of a run. -/
lemma column_run_inv (hlen : schemas.length ≤ 100)
    (hrun : Relation.ReflTransGen ColumnStep (.initial schemas) s) (keySchema : Schema) :
    ∃ ps l, ColumnInv ps l s ∧
      Relation.ReflTransGen Alters (schemaOf keySchema schemas) (schemaOf keySchema l) := by
  induction hrun with
  | refl => exact ⟨_, _, columnInv_initial hlen, .refl⟩
  | tail _ hstep ih =>
      obtain ⟨ps, l, hinv, hreach⟩ := ih
      obtain ⟨ps', l', hinv', hchange⟩ := hinv.step hstep
      refine ⟨ps', l', hinv', ?_⟩
      rcases hchange.alters keySchema with heq | halters
      · rw [heq]
        exact hreach
      · exact hreach.tail halters

/-- **Which access is to a column that has been freed.**  In every run of `alter_thread` and of any
number of threads that generate statements, the array holds at all times the columns that whole
calls of `add_table_data` and `drop_table_data`, one after another, lead to.  `alter_thread` stays
inside of the array and never follows a pointer to a freed column, and the generators read only
cells of the array that have been written.  A generator follows a pointer to a freed column just
when the column that it is about to look at has been dropped since it read the pointer, or
before. -/
theorem column_access_faults_iff (hlen : schemas.length ≤ 100)
    (hrun : Relation.ReflTransGen ColumnStep (.initial schemas) s) (keySchema : Schema) :
    Relation.ReflTransGen Alters (schemaOf keySchema schemas)
        (schemaOf keySchema (s.stack.items s.columns)) ∧
      ¬ AlterFaults s.stack s.alter ∧
      (∀ i ndata seen, s.gens i = .scan ndata seen → seen.length < ndata →
        ∃ p, fetch s.stack.cells seen.length = .ret p) ∧
      ∀ i, GenFaults s.stack (s.gens i) ↔ ∃ ndata seen p, s.gens i = .use ndata seen p ∧
        ¬ (seen.length < s.columns ∧ s.stack.cells[seen.length]? = some (some p)) := by
  obtain ⟨ps, l, hinv, hreach⟩ := column_run_inv hlen hrun keySchema
  have hitems : s.stack.items s.columns = l := by
    rw [hinv.columns_eq, hinv.stack.holds.items_eq le_rfl, hinv.stack.holds.length_eq,
      List.take_length]
  refine ⟨hitems ▸ hreach, hinv.stack.not_alterFaults, fun i ndata seen hpc hlt => ?_,
    fun i => ?_⟩
  · have hgen := hinv.gens i
    rw [hpc] at hgen
    exact StackInv.fetch_ret hgen hlt
  · rw [StackInv.genFaults_iff (hinv.gens i), hinv.columns_eq]
    refine exists_congr fun ndata => exists_congr fun seen => exists_congr fun p =>
      and_congr_right fun hpc => ?_
    have hgen := hinv.gens i
    rw [hpc] at hgen
    rw [← hinv.stack.holds.block_isSome_iff hgen.2.2, Option.not_isSome_iff_eq_none]

end Run

end Invariant

/-- A run in which a column is freed after a generator has read the pointer to it. -/
lemma column_freed_run : ∃ s : ColumnState Unit,
    Relation.ReflTransGen ColumnStep
      (.initial [tableDataInit (ascii "col0") .bigint 0]) s ∧
    s.faulted = false ∧ s.columns = 0 ∧ s.gens () = .use 1 [] 0 := by
  have htop : (SharedStack.ofList [tableDataInit (ascii "col0") .bigint 0] 100).top
      = .ret (tableDataInit (ascii "col0") .bigint 0) := rfl
  have hcheck := AlterStep.check htop
  rw [if_neg (by decide)] at hcheck
  refine ⟨_, .tail (.tail (.tail (.tail (.tail (.single
    (.gen (i := ()) rfl .begin))
    (.gen (i := ()) rfl (.load (by decide) rfl)))
    (.alter rfl (.drop (by decide))))
    (.alter rfl hcheck))
    (.alter rfl (.dropGen rfl true)))
    (.alter rfl (.free rfl)), rfl, rfl, rfl⟩

theorem column_access_faults_iff_freed : ∃ s : ColumnState Unit,
    Relation.ReflTransGen ColumnStep
      (.initial [tableDataInit (ascii "col0") .bigint 0]) s ∧
      ¬ AlterFaults s.stack s.alter ∧ GenFaults s.stack (s.gens ()) := by
  obtain ⟨s, hrun, -, hcolumns, hpc⟩ := column_freed_run
  obtain ⟨-, halter, -, hgen⟩ := column_access_faults_iff (by decide) hrun schemaInit
  refine ⟨s, hrun, halter, (hgen ()).2 ⟨1, [], 0, hpc, fun hcell => ?_⟩⟩
  rw [hcolumns] at hcell
  exact Nat.not_lt_zero _ hcell.1

end CheckQ
