import CheckQ.Lib.Refinement
import CheckQ.Mylib.HashFunc
import CheckQ.Parser.TxtSections

/-!
# Rates and window of a TXT file

`parser_read_txt` has the variables `rows`, `cols` and `rate[4]` and sets none of them before it
reads the file.  A section `[cmd_rate]` or `[cmd_window]` assigns those that its lines name, and
the check at its end looks at all of them; at the end of the file nothing asks which of the
sections were there.  So the values come from the file just when the sections are taken and their
lines assign each of them, or a section is refused before the file ends.

The variables at the end of a file that is taken are what the lines of its sections, one after the
other, make of them.
-/

namespace CheckQ

open Regex

/-! ### What the sections assign -/

/-- The lines of the sections of a file, each with the section it is in, for a number of rounds.
A line outside a section is skipped. -/
def sectionLines : ℕ → List Bytes → List (SectionKind × Bytes)
  | 0, _ => []
  | _ + 1, [] => []
  | n + 1, line :: file =>
      match sectionKind line with
      | none => sectionLines n file
      | some kind =>
          labelled kind (file.take (sectionSize file kind)) ++
            sectionLines n (file.drop (sectionSize file kind))

/-- Every variable is assigned by a line of a section that assigns it.  A round takes at least
one line, so there are not more rounds than lines. -/
structure AssignsAll (file : List Bytes) : Prop where
  window : ∀ var, ∃ line x, (.cmdWindow, line) ∈ sectionLines file.length file ∧
    windowOf line = some (var, x)
  rate : ∀ i < 4, ∃ line x, (.cmdRate, line) ∈ sectionLines file.length file ∧
    rateOf line = some (i, x)

namespace TxtLocals

/-- The variable of the window. -/
def window (v : TxtLocals) : WindowVar → Option Int
  | .rows => v.rows
  | .cols => v.cols

/-- The values that `parser_gen_cmd_bucket` gets were assigned from lines of the file and passed
their checks. -/
structure FromFile (g : Garbage) (file : List Bytes) (v : TxtLocals) : Prop where
  window : ∀ var, ∃ line ∈ file, ∃ x, windowOf line = some (var, x) ∧ v.window var = some x
  rate : ∀ i < 4, ∃ line ∈ file, ∃ x, rateOf line = some (i, x) ∧ v.rate[i]? = some (some x)
  verifyWindow : verifyWindow (v.rowsVal g) (v.colsVal g) = .succeed
  verifyRate : verifyRate (v.rateVal g) = .succeed

/-- What a line of a section gives to a variable of the window. -/
def windowBy (var : WindowVar) : SectionKind × Bytes → Option Int
  | (.cmdWindow, line) => (windowOf line).bind fun (w, x) => if w = var then some x else none
  | _ => none

/-- What a line of a section gives to a rate. -/
def rateBy (i : ℕ) : SectionKind × Bytes → Option Double
  | (.cmdRate, line) => (rateOf line).bind fun (j, x) => if j = i then some x else none
  | _ => none

lemma windowBy_eq_some {var : WindowVar} {l : SectionKind × Bytes} {x : Int} :
    windowBy var l = some x ↔ l.1 = .cmdWindow ∧ windowOf l.2 = some (var, x) := by
  obtain ⟨kind, line⟩ := l
  cases kind <;> simp [windowBy, Option.bind_eq_some_iff]

lemma rateBy_eq_some {i : ℕ} {l : SectionKind × Bytes} {x : Double} :
    rateBy i l = some x ↔ l.1 = .cmdRate ∧ rateOf l.2 = some (i, x) := by
  obtain ⟨kind, line⟩ := l
  cases kind <;> simp [rateBy, Option.bind_eq_some_iff]

lemma window_assign (v : TxtLocals) (l : SectionKind × Bytes) (var : WindowVar) :
    (v.assign l).window var = (windowBy var l).or (v.window var) := by
  obtain ⟨kind, line⟩ := l
  cases kind with
  | server | table => rfl
  | cmdRate =>
      simp only [assign, windowBy, Option.none_or]
      split <;> cases var <;> rfl
  | cmdWindow =>
      simp only [assign, windowBy]
      rcases windowOf line with _ | ⟨w, x⟩
      · rfl
      · cases w <;> cases var <;> rfl

lemma length_rate_assign (v : TxtLocals) (l : SectionKind × Bytes) :
    (v.assign l).rate.length = v.rate.length := by
  obtain ⟨kind, line⟩ := l
  cases kind with
  | server | table => rfl
  | cmdRate =>
      simp only [assign]
      split <;> simp
  | cmdWindow =>
      simp only [assign]
      split <;> rfl

/-- The rate at an index, if it is set. -/
def rateAt (v : TxtLocals) (i : ℕ) : Option Double := v.rate[i]?.join

lemma rateAt_unset (i : ℕ) : unset.rateAt i = none := by
  rw [rateAt, unset, List.getElem?_replicate]
  split <;> rfl

lemma rateAt_assign {v : TxtLocals} {i : ℕ} (hi : i < v.rate.length) (l : SectionKind × Bytes) :
    (v.assign l).rateAt i = (rateBy i l).or (v.rateAt i) := by
  obtain ⟨kind, line⟩ := l
  cases kind with
  | server | table => rfl
  | cmdWindow =>
      simp only [assign, rateBy, Option.none_or]
      split <;> rfl
  | cmdRate =>
      simp only [assign, rateBy, rateAt]
      rcases rateOf line with _ | ⟨j, x⟩
      · rfl
      · by_cases hj : j = i
        · subst hj
          simp [hi]
        · simp [hj]

/-- The variables after the lines of some sections. -/
lemma window_foldl {ls : List (SectionKind × Bytes)} {v : TxtLocals} {var : WindowVar} {x : Int}
    (h : (ls.foldl assign v).window var = some x) :
    v.window var = some x ∨ ∃ line, (.cmdWindow, line) ∈ ls ∧ windowOf line = some (var, x) := by
  rcases get_foldl (window · var) (windowBy var) (fun _ => True) (fun _ _ _ => trivial)
    (fun v l _ => window_assign v l var) trivial h with h | ⟨l, hl, h⟩
  · exact Or.inl h
  · obtain ⟨hkind, hline⟩ := windowBy_eq_some.1 h
    exact Or.inr ⟨l.2, hkind ▸ hl, hline⟩

lemma isSome_window_foldl {ls : List (SectionKind × Bytes)} {v : TxtLocals} {var : WindowVar}
    {line : Bytes} {x : Int} (hl : (.cmdWindow, line) ∈ ls) (hx : windowOf line = some (var, x)) :
    ((ls.foldl assign v).window var).isSome := by
  refine isSome_get_foldl (window · var) (windowBy var) (fun _ => True) (fun _ _ _ => trivial)
    (fun v l _ => window_assign v l var) trivial (Or.inr ⟨_, hl, ?_⟩)
  rw [windowBy_eq_some.2 ⟨rfl, hx⟩, Option.isSome_some]

lemma rateAt_foldl {ls : List (SectionKind × Bytes)} {v : TxtLocals} {i : ℕ} {x : Double}
    (hi : i < v.rate.length) (h : (ls.foldl assign v).rateAt i = some x) :
    v.rateAt i = some x ∨ ∃ line, (.cmdRate, line) ∈ ls ∧ rateOf line = some (i, x) := by
  rcases get_foldl (rateAt · i) (rateBy i) (fun v => i < v.rate.length)
    (fun v l hv => (length_rate_assign v l).symm ▸ hv) (fun v l hv => rateAt_assign hv l) hi h
    with h | ⟨l, hl, h⟩
  · exact Or.inl h
  · obtain ⟨hkind, hline⟩ := rateBy_eq_some.1 h
    exact Or.inr ⟨l.2, hkind ▸ hl, hline⟩

lemma isSome_rateAt_foldl {ls : List (SectionKind × Bytes)} {v : TxtLocals} {i : ℕ} {line : Bytes}
    {x : Double} (hi : i < v.rate.length) (hl : (.cmdRate, line) ∈ ls)
    (hx : rateOf line = some (i, x)) : ((ls.foldl assign v).rateAt i).isSome := by
  refine isSome_get_foldl (rateAt · i) (rateBy i) (fun v => i < v.rate.length)
    (fun v l hv => (length_rate_assign v l).symm ▸ hv) (fun v l hv => rateAt_assign hv l) hi
    (Or.inr ⟨_, hl, ?_⟩)
  rw [rateBy_eq_some.2 ⟨rfl, hx⟩, Option.isSome_some]

/-- The variables after the lines of some sections, when they were not set before. -/
lemma window_unset_foldl {ls : List (SectionKind × Bytes)} {var : WindowVar} {x : Int}
    (h : (ls.foldl assign unset).window var = some x) :
    ∃ line, (.cmdWindow, line) ∈ ls ∧ windowOf line = some (var, x) := by
  refine (window_foldl h).resolve_left ?_
  cases var <;> simp [window, unset]

lemma rateAt_unset_foldl {ls : List (SectionKind × Bytes)} {i : ℕ} {x : Double} (hi : i < 4)
    (h : (ls.foldl assign unset).rateAt i = some x) :
    ∃ line, (.cmdRate, line) ∈ ls ∧ rateOf line = some (i, x) :=
  (rateAt_foldl (by simpa [unset] using hi) h).resolve_left (by simp [rateAt_unset])

/-- The lines of one section leave the variables of the other ones alone. -/
lemma foldl_assign_other (kind : SectionKind) (ls : List Bytes) (v : TxtLocals) :
    (kind ≠ .cmdRate → ((labelled kind ls).foldl assign v).rate = v.rate) ∧
      (kind ≠ .cmdWindow → ∀ var,
        ((labelled kind ls).foldl assign v).window var = v.window var) := by
  induction ls generalizing v with
  | nil => exact ⟨fun _ => rfl, fun _ _ => rfl⟩
  | cons line ls ih =>
      obtain ⟨hrate, hwindow⟩ := ih (v.assign (kind, line))
      refine ⟨fun hkind => ?_, fun hkind var => ?_⟩
      · rw [labelled_cons, List.foldl_cons, hrate hkind]
        cases kind with
        | server | table => rfl
        | cmdRate => exact absurd rfl hkind
        | cmdWindow =>
            rw [assign]
            split <;> rfl
      · rw [labelled_cons, List.foldl_cons, hwindow hkind, window_assign]
        cases kind with
        | server | table | cmdRate => rfl
        | cmdWindow => exact absurd rfl hkind

/-- The lines of a server or a table assign nothing. -/
lemma foldl_assign_idle {kind : SectionKind} (hkind : kind = .server ∨ kind = .table)
    (ls : List Bytes) (v : TxtLocals) : (labelled kind ls).foldl assign v = v := by
  induction ls with
  | nil => rfl
  | cons l ls ih => rcases hkind with rfl | rfl <;> exact ih

/-- What has been assigned so far has passed its check. -/
structure Checked (g : Garbage) (v : TxtLocals) : Prop where
  rate : v.rate = unset.rate ∨ CheckQ.verifyRate (v.rateVal g) = .succeed
  window : (∀ var, v.window var = none) ∨
    CheckQ.verifyWindow (v.rowsVal g) (v.colsVal g) = .succeed

lemma Checked.unset (g : Garbage) : unset.Checked g :=
  ⟨Or.inl rfl, Or.inl fun var => by cases var <;> rfl⟩

end TxtLocals

section

variable {probe : Bytes → UInt64 → UInt64} {fuel : ℕ} {g : Garbage} {kind : SectionKind}
  {file : List Bytes} {s s' : TxtScene}

/-- What the lines of a section assign when it is taken, and the check at its end. -/
lemma SectionTaken.assigned (h : SectionTaken probe fuel g kind file s s') :
    s'.v = (labelled kind (file.take (sectionSize file kind))).foldl .assign s.v ∧
      (kind = .cmdRate → verifyRate (s'.v.rateVal g) = .succeed) ∧
      (kind = .cmdWindow → verifyWindow (s'.v.rowsVal g) (s'.v.colsVal g) = .succeed) := by
  cases kind with
  | server =>
      obtain ⟨cluster, -, rfl⟩ := h
      exact ⟨(TxtLocals.foldl_assign_idle (Or.inl rfl) _ _).symm, by simp, by simp⟩
  | table =>
      have hv : s'.v = s.v := by
        rcases h with ⟨-, ⟨-, rfl⟩ | ⟨name, tableSet, -, -, rfl⟩⟩ <;> rfl
      exact ⟨hv.trans (TxtLocals.foldl_assign_idle (Or.inr rfl) _ _).symm, by simp, by simp⟩
  | cmdRate =>
      obtain ⟨v, htaken, rfl⟩ := h
      exact ⟨htaken.after, fun _ => htaken.verify, by simp⟩
  | cmdWindow =>
      obtain ⟨v, htaken, rfl⟩ := h
      exact ⟨htaken.after, by simp, fun _ => htaken.verify⟩

/-- A section that is taken keeps what has been assigned checked. -/
lemma SectionTaken.checked (h : SectionTaken probe fuel g kind file s s') (hs : s.v.Checked g) :
    s'.v.Checked g := by
  obtain ⟨hv, hrate, hwindow⟩ := h.assigned
  obtain ⟨hsameRate, hsameWindow⟩ :=
    TxtLocals.foldl_assign_other kind (file.take (sectionSize file kind)) s.v
  rw [← hv] at hsameRate hsameWindow
  constructor
  · by_cases hk : kind = .cmdRate
    · exact Or.inr (hrate hk)
    · rw [TxtLocals.rateVal, hsameRate hk]
      exact hs.rate
  · by_cases hk : kind = .cmdWindow
    · exact Or.inr (hwindow hk)
    · have hrows : s'.v.rows = s.v.rows := hsameWindow hk .rows
      have hcols : s'.v.cols = s.v.cols := hsameWindow hk .cols
      rw [TxtLocals.rowsVal, TxtLocals.colsVal, hrows, hcols]
      exact hs.window.imp_left fun hnone var => (hsameWindow hk var).trans (hnone var)

/-- The variables at the end of a file that is taken. -/
lemma FileTaken.assigned (h : FileTaken probe fuel g file s s') {n : ℕ} (hn : file.length ≤ n) :
    s'.v = (sectionLines n file).foldl .assign s.v ∧ (s.v.Checked g → s'.v.Checked g) := by
  induction h generalizing n with
  | nil => cases n <;> exact ⟨rfl, id⟩
  | skip hkind hrest ih =>
      obtain ⟨m, rfl, hm⟩ := exists_eq_succ_of_cons hn
      obtain ⟨hv, hchecked⟩ := ih hm
      exact ⟨by rw [hv, sectionLines, hkind], hchecked⟩
  | section_ hkind htaken hrest ih =>
      obtain ⟨m, rfl, hm⟩ := exists_eq_succ_of_cons hn
      obtain ⟨hv, hchecked⟩ := ih ((List.length_drop ▸ Nat.sub_le _ _).trans hm)
      refine ⟨?_, fun hs => hchecked (htaken.checked hs)⟩
      rw [hv, sectionLines, hkind]
      simp only [List.foldl_append]
      rw [← htaken.assigned.1]

end

/-! ### The whole file -/

lemma mem_of_mem_sectionLines {n : ℕ} {file : List Bytes} {l : SectionKind × Bytes}
    (h : l ∈ sectionLines n file) : l.2 ∈ file := by
  induction n generalizing file with
  | zero => simp [sectionLines] at h
  | succ n ih =>
      cases file with
      | nil => simp [sectionLines] at h
      | cons line file =>
          rw [sectionLines] at h
          split at h
          · exact List.mem_cons_of_mem line (ih h)
          · rcases List.mem_append.1 h with h | h
            · obtain ⟨l', hl', rfl⟩ := List.mem_map.1 h
              exact List.mem_cons_of_mem line (List.mem_of_mem_take hl')
            · exact List.mem_cons_of_mem line (List.mem_of_mem_drop (ih h))

section

variable {probe : Bytes → UInt64 → UInt64} {fuel : ℕ} {g : Garbage} {file : List Bytes}
  {stores stores' : Stores}

/-- The values at the end of a file that is taken come from the file when its sections assign
all of them. -/
lemma FileTaken.fromFile_iff {v : TxtLocals}
    (h : FileTaken probe fuel g file (⟨file, stores, .unset⟩ : TxtState).scene
      (⟨[], stores', v⟩ : TxtState).scene) : v.FromFile g file ↔ AssignsAll file := by
  obtain ⟨hv, hchecked⟩ := h.assigned le_rfl
  replace hv : v = (sectionLines file.length file).foldl .assign .unset := hv
  replace hchecked : v.Checked g := hchecked (.unset g)
  constructor
  · intro hfrom
    constructor
    · intro var
      obtain ⟨-, -, x, -, hx⟩ := hfrom.window var
      obtain ⟨line, hline⟩ := TxtLocals.window_unset_foldl (hv ▸ hx)
      exact ⟨line, x, hline⟩
    · intro i hi
      obtain ⟨-, -, x, -, hx⟩ := hfrom.rate i hi
      replace hx : v.rateAt i = some x := by rw [TxtLocals.rateAt, hx, Option.join_some]
      obtain ⟨line, hline⟩ := TxtLocals.rateAt_unset_foldl hi (hv ▸ hx)
      exact ⟨line, x, hline⟩
  · intro hall
    have hwindowSome : ∀ var, ∃ x, v.window var = some x := by
      intro var
      obtain ⟨line, x, hline, hx⟩ := hall.window var
      exact Option.isSome_iff_exists.1 (hv ▸ TxtLocals.isSome_window_foldl hline hx)
    have hrateSome : ∀ i < 4, ∃ x, v.rateAt i = some x := by
      intro i hi
      obtain ⟨line, x, hline, hx⟩ := hall.rate i hi
      exact Option.isSome_iff_exists.1
        (hv ▸ TxtLocals.isSome_rateAt_foldl (by simpa [TxtLocals.unset] using hi) hline hx)
    constructor
    · intro var
      obtain ⟨x, hx⟩ := hwindowSome var
      obtain ⟨line, hline, hline'⟩ := TxtLocals.window_unset_foldl (hv ▸ hx)
      exact ⟨line, mem_of_mem_sectionLines hline, x, hline', hx⟩
    · intro i hi
      obtain ⟨x, hx⟩ := hrateSome i hi
      obtain ⟨line, hline, hline'⟩ := TxtLocals.rateAt_unset_foldl hi (hv ▸ hx)
      exact ⟨line, mem_of_mem_sectionLines hline, x, hline', Option.join_eq_some_iff.1 hx⟩
    · obtain ⟨x, hx⟩ := hwindowSome .rows
      refine hchecked.window.resolve_left fun hnone => ?_
      simp [hnone] at hx
    · obtain ⟨x, hx⟩ := hrateSome 0 (by omega)
      refine hchecked.rate.resolve_left fun hnone => ?_
      rw [TxtLocals.rateAt, hnone, ← TxtLocals.rateAt, TxtLocals.rateAt_unset] at hx
      simp at hx

end

section

variable (probe : Bytes → UInt64 → UInt64) (fuel : ℕ) (g : Garbage) (r : RandStream)
  (file : List Bytes) (stores : Stores)

/-- The values of the window and of the rates come from the file, and a file for which they are
not asked for is refused. -/
def ValuesFromFile : Prop :=
  (∀ stores' v, readSections probe fuel g (file.length + 1) file stores .unset =
      .ret (.succeed, stores', v) → v.FromFile g file) ∧
    ((∀ stores' v, readSections probe fuel g (file.length + 1) file stores .unset ≠
        .ret (.succeed, stores', v)) →
      ∃ stores', parserReadTxt probe fuel g r (some file) stores = .ret (.failed, stores'))

/-- **The values come from the file** just when its sections are taken and their lines assign all of
them, or one of the sections is refused. -/
theorem values_from_file_iff :
    ValuesFromFile probe fuel g r file stores ↔
      ((∃ scene, FileTaken probe fuel g file (⟨file, stores, .unset⟩ : TxtState).scene scene) ∧
          AssignsAll file) ∨
        FileRefused probe fuel g file (⟨file, stores, .unset⟩ : TxtState).scene := by
  -- what the loop returns, when the sections are taken and when one is refused
  have htakenRead : ∀ scene, FileTaken probe fuel g file (⟨file, stores, .unset⟩ : TxtState).scene
      scene → ∃ q, readSections probe fuel g (file.length + 1) file stores .unset
        = .ret (.succeed, q) := by
    intro scene htaken
    obtain ⟨stores', v', hread⟩ := htaken.readSections le_rfl rfl
    exact ⟨(stores', v'), hread⟩
  have hrefusedRead : FileRefused probe fuel g file (⟨file, stores, .unset⟩ : TxtState).scene →
      ∃ q, readSections probe fuel g (file.length + 1) file stores .unset = .ret (.failed, q) := by
    intro hrefused
    obtain ⟨stores', v', hread⟩ := hrefused.readSections le_rfl rfl
    exact ⟨(stores', v'), hread⟩
  by_cases hret : ∃ q, readSections probe fuel g (file.length + 1) file stores .unset = .ret q
  · obtain ⟨⟨ret, stores', v⟩, hread⟩ := hret
    rcases readSections_ret hread with ⟨rfl, htaken⟩ | ⟨rfl, hrefused⟩
    · -- the file ends: the values are used
      have hnot : ¬FileRefused probe fuel g file (⟨file, stores, .unset⟩ : TxtState).scene := by
        intro hrefused
        obtain ⟨q, hq⟩ := hrefusedRead hrefused
        cases hread.symm.trans hq
      rw [or_iff_left hnot, and_iff_right ⟨_, htaken⟩, ← htaken.fromFile_iff]
      constructor
      · exact fun hvalues => hvalues.1 _ _ hread
      · intro hfrom
        refine ⟨fun stores₁ v₁ hread₁ => ?_, fun hnone => absurd hread (hnone _ _)⟩
        cases hread.symm.trans hread₁
        exact hfrom
    · -- a section is refused, and the file with it
      refine iff_of_true ⟨fun stores₁ v₁ hread₁ => ?_, fun _ => ⟨stores', ?_⟩⟩ (Or.inr hrefused)
      · cases hread.symm.trans hread₁
      · simp [parserReadTxt, hread]
  · -- the loop does not return, and the file is not refused
    refine iff_of_false (fun hvalues => ?_) ?_
    · obtain ⟨stores', hfailed⟩ := hvalues.2 fun stores₁ v₁ hread => hret ⟨_, hread⟩
      obtain ⟨q, hq, -⟩ := Outcome.bind_eq_ret.1 hfailed
      exact hret ⟨q, hq⟩
    · rintro (⟨⟨scene, htaken⟩, -⟩ | hrefused)
      · obtain ⟨q, hq⟩ := htakenRead scene htaken
        exact hret ⟨_, hq⟩
      · obtain ⟨q, hq⟩ := hrefusedRead hrefused
        exact hret ⟨_, hq⟩

end

/-- A file whose rates leave out `select`. -/
def noSelectFile : List Bytes :=
  ["[cmd_rate]", "insert = 0.3", "delete = 0.1", "update = 0.5", "", "[cmd_window]",
    "cmd_rows = 1", "cmd_cols = 20"].map ascii

/-- The file is accepted, and the fourth rate is whatever the variable happens to hold. -/
theorem rate_not_from_file :
    ¬ValuesFromFile (hashFunc true) 100 Garbage.zeros (fun _ => 0) noSelectFile Stores.init := by
  have hok : (readSections (hashFunc true) 100 Garbage.zeros (noSelectFile.length + 1) noSelectFile
      Stores.init .unset >>= fun q => pure (q.1, q.2.2.rate[3]?)) = .ret (.succeed, some none) := by
    decide +kernel
  obtain ⟨⟨ret, stores, v⟩, hread, hret⟩ := Outcome.bind_eq_ret.1 hok
  obtain ⟨rfl, hv⟩ : ret = .succeed ∧ v.rate[3]? = some none := by simpa using hret
  intro hvalues
  obtain ⟨-, -, x, -, hx⟩ := (hvalues.1 stores v hread).rate 3 (by omega)
  simp [hv] at hx

end CheckQ
