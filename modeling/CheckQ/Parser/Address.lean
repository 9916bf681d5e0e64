import CheckQ.Parser.Verify
import CheckQ.Server.Cluster
import Mathlib.Data.List.Induction

/-!
# What `verify_ip` accepts

`verify_ip` leaves the reading to `sscanf`.  A conversion skips blanks, takes a sign and then
digits, as many as there are, and what follows the fourth number is not looked at.  So an
accepted text is four fields of this kind with dots between them and any text behind; it is an
address of the usual form exactly if the fields are plain and nothing is behind them.
-/

namespace CheckQ

/-! ### The fields of `%d` -/

/-- What one conversion `%d` reads. -/
structure IntField where
  blanks : Bytes
  sign : Bytes
  digits : Bytes
deriving DecidableEq, Repr

namespace IntField

/-- The field as it stands in the text. -/
def text (f : IntField) : Bytes := f.blanks ++ (f.sign ++ f.digits)

/-- The field can be read by `%d`. -/
structure Ok (f : IntField) : Prop where
  blanks : ∀ c ∈ f.blanks, isSpace c = true
  sign : f.sign = [] ∨ f.sign = [43] ∨ f.sign = [45]
  ne_nil : f.digits ≠ []
  digits : ∀ c ∈ f.digits, isDigit c = true

/-- The `int` that is stored for the field. -/
def value (f : IntField) : Int :=
  toInt (toLong (if f.sign = [45] then -(digitsVal f.digits : Int) else digitsVal f.digits))

/-- Nothing but one to three digits. -/
def Plain (f : IntField) : Prop := f.blanks = [] ∧ f.sign = [] ∧ f.digits.length ≤ 3

/-- The number is one of an address. -/
def InRange (f : IntField) : Prop := 0 ≤ f.value ∧ f.value ≤ 255

end IntField

/-- The sign at the beginning of a text, and what is behind it. -/
def readSign (s : Bytes) : Bytes × Bytes :=
  if s.head? = some 45 ∨ s.head? = some 43 then (s.take 1, s.tail) else ([], s)

/-- The field at the beginning of a text, and what is behind it. -/
def readField (s : Bytes) : IntField × Bytes :=
  let (sign, t) := readSign (s.dropWhile isSpace)
  (⟨s.takeWhile isSpace, sign, t.takeWhile isDigit⟩, t.dropWhile isDigit)

lemma readSign_spec (s : Bytes) :
    s = (readSign s).1 ++ (readSign s).2 ∧
      ((readSign s).1 = [] ∨ (readSign s).1 = [43] ∨ (readSign s).1 = [45]) ∧
      ((readSign s).1 = [45] ↔ s.head? = some 45) := by
  cases s with
  | nil => simp [readSign]
  | cons c s =>
      by_cases hminus : c = 45
      · simp [readSign, hminus]
      · by_cases hplus : c = 43
        · simp [readSign, hplus]
        · simp [readSign, hminus, hplus]

/-- `%d` reads the field at the beginning. -/
lemma scanInt_eq (s : Bytes) :
    scanInt s = if (readField s).1.digits = [] then none
      else some ((readField s).1.value, (readField s).2) := by
  have hneg := (readSign_spec (s.dropWhile isSpace)).2.2
  have hrest : (readSign (s.dropWhile isSpace)).2 =
      if (s.dropWhile isSpace).head? = some 45 ∨ (s.dropWhile isSpace).head? = some 43
        then (s.dropWhile isSpace).tail else s.dropWhile isSpace := by
    rw [readSign]
    split <;> rfl
  simp only [scanInt, readField, IntField.value, ← hrest, hneg]

/-- The field that is read. -/
lemma readField_spec (s : Bytes) (h : (readField s).1.digits ≠ []) :
    (readField s).1.Ok ∧ s = (readField s).1.text ++ (readField s).2 ∧
      ∀ c ∈ (readField s).2.head?, isDigit c = false := by
  obtain ⟨htext, hsign, -⟩ := readSign_spec (s.dropWhile isSpace)
  refine ⟨⟨fun c hc => List.mem_takeWhile_imp hc, hsign, h, fun c hc => List.mem_takeWhile_imp hc⟩,
    ?_, ?_⟩
  · simp only [readField, IntField.text, List.append_assoc, List.takeWhile_append_dropWhile]
    rw [← htext, List.takeWhile_append_dropWhile]
  · intro c hc
    have hnot := List.head?_dropWhile_not isDigit (readSign (s.dropWhile isSpace)).2
    simp only [readField] at hc
    rw [Option.mem_def.1 hc] at hnot
    simpa using hnot

/-- A text that begins with a field. -/
lemma readField_append {f : IntField} (hf : f.Ok) {rest : Bytes}
    (hrest : ∀ c ∈ rest.head?, isDigit c = false) : readField (f.text ++ rest) = (f, rest) := by
  obtain ⟨blanks, sign, digits⟩ := f
  obtain ⟨hblanks, hsign, hne, hdigits⟩ := hf
  dsimp only at hblanks hsign hne hdigits
  obtain ⟨d, ds, rfl⟩ := List.exists_cons_of_ne_nil hne
  obtain ⟨hspace, hminus, hplus⟩ := not_isDigit_of_special (hdigits d (by simp))
  obtain ⟨htake, hdrop⟩ := takeWhile_append_stop hdigits hrest
  -- neither a sign nor a digit is a blank
  have hstop : ∀ c ∈ (sign ++ (d :: ds ++ rest)).head?, isSpace c = false := by
    rcases hsign with rfl | rfl | rfl
    · simpa using hspace
    · simp [isSpace]
    · simp [isSpace]
  obtain ⟨hskip, hbehind⟩ := takeWhile_append_stop hblanks hstop
  have hread : readSign (sign ++ (d :: ds ++ rest)) = (sign, d :: ds ++ rest) := by
    rcases hsign with rfl | rfl | rfl
    · simp [readSign, hminus, hplus]
    · simp [readSign]
    · simp [readSign]
  simp only [IntField.text, List.append_assoc, readField, hskip, hbehind, hread, htake, hdrop]

/-- `%d` reads a field that is followed by no digit. -/
lemma scanInt_eq_some_iff {s rest : Bytes} {v : Int} :
    scanInt s = some (v, rest) ↔ ∃ f : IntField, f.Ok ∧ s = f.text ++ rest ∧ v = f.value ∧
      ∀ c ∈ rest.head?, isDigit c = false := by
  rw [scanInt_eq]
  constructor
  · intro h
    split at h
    · cases h
    · rename_i hne
      obtain ⟨hok, htext, hstop⟩ := readField_spec s hne
      obtain ⟨rfl, rfl⟩ := Prod.mk.inj (Option.some.inj h)
      exact ⟨_, hok, htext, rfl, hstop⟩
  · rintro ⟨f, hok, rfl, rfl, hstop⟩
    rw [readField_append hok hstop, if_neg hok.ne_nil]

/-! ### Four fields -/

/-- The text is the fields `fs` with dots between them, and `rest` behind the last one. -/
structure ReadsFields (s : Bytes) (fs : List IntField) (rest : Bytes) : Prop where
  ok : ∀ f ∈ fs, f.Ok
  text_eq : s = (ascii ".").intercalate (fs.map IntField.text) ++ rest
  stop : ∀ c ∈ rest.head?, isDigit c = false

/-- The first field and the others. -/
lemma readsFields_cons {s rest : Bytes} {f g : IntField} {fs : List IntField} :
    ReadsFields s (f :: g :: fs) rest ↔
      f.Ok ∧ ∃ t, s = f.text ++ 46 :: t ∧ ReadsFields t (g :: fs) rest := by
  have hdot : ascii "." = [46] := rfl
  constructor
  · rintro ⟨hok, htext, hstop⟩
    refine ⟨hok f (by simp), (ascii ".").intercalate ((g :: fs).map IntField.text) ++ rest, ?_,
      fun f hf => hok f (List.mem_cons_of_mem _ hf), rfl, hstop⟩
    rw [htext]
    simp [List.intercalate_cons_cons, hdot]
  · rintro ⟨hf, t, rfl, hok, rfl, hstop⟩
    refine ⟨fun e he => ?_, ?_, hstop⟩
    · rcases List.mem_cons.1 he with rfl | he
      · exact hf
      · exact hok e he
    · simp [List.intercalate_cons_cons, hdot]

lemma readsFields_singleton {s rest : Bytes} {f : IntField} :
    ReadsFields s [f] rest ↔
      f.Ok ∧ s = f.text ++ rest ∧ ∀ c ∈ rest.head?, isDigit c = false := by
  constructor
  · rintro ⟨hok, htext, hstop⟩
    exact ⟨hok f (by simp), by simpa using htext, hstop⟩
  · rintro ⟨hf, rfl, hstop⟩
    exact ⟨by simpa using hf, by simp, hstop⟩

/-- A conversion with another one behind it. -/
lemma scanQuad_cons_iff {n : ℕ} {s : Bytes} {v : Int} {vs : List Int} (hne : vs ≠ []) :
    scanQuad (n + 1) s = v :: vs ↔ ∃ t, scanInt s = some (v, 46 :: t) ∧ scanQuad n t = vs := by
  rw [scanQuad]
  rcases scanInt s with _ | ⟨w, rest⟩
  · simp
  · cases rest with
    | nil => simp [hne.symm]
    | cons c rest =>
        by_cases hc : c = 46
        · subst hc
          simp
        · simp [hc, hne.symm]

lemma scanQuad_one_iff {s : Bytes} {v : Int} :
    scanQuad 1 s = [v] ↔ ∃ rest, scanInt s = some (v, rest) := by
  rw [scanQuad]
  rcases scanInt s with _ | ⟨w, rest⟩
  · simp
  · by_cases hdot : rest.head? = some 46 <;> simp [hdot, scanQuad]

/-- The conversions of `sscanf` that succeed. -/
lemma scanQuad_eq_iff {n : ℕ} {s : Bytes} {vs : List Int} (hlen : vs.length = n + 1) :
    scanQuad (n + 1) s = vs ↔
      ∃ fs rest, ReadsFields s fs rest ∧ vs = fs.map IntField.value := by
  induction n generalizing s vs with
  | zero =>
      obtain ⟨v, rfl⟩ := List.length_eq_one_iff.1 hlen
      rw [scanQuad_one_iff]
      constructor
      · rintro ⟨rest, hscan⟩
        obtain ⟨f, hok, htext, rfl, hstop⟩ := scanInt_eq_some_iff.1 hscan
        exact ⟨[f], rest, readsFields_singleton.2 ⟨hok, htext, hstop⟩, rfl⟩
      · rintro ⟨fs, rest, hreads, hvs⟩
        obtain ⟨f, rfl, rfl⟩ := List.map_eq_singleton_iff.1 hvs.symm
        obtain ⟨hok, htext, hstop⟩ := readsFields_singleton.1 hreads
        exact ⟨rest, scanInt_eq_some_iff.2 ⟨f, hok, htext, rfl, hstop⟩⟩
  | succ n ih =>
      obtain ⟨v, vs, rfl⟩ := List.exists_cons_of_length_eq_add_one hlen
      rw [List.length_cons, Nat.add_right_cancel_iff] at hlen
      rw [scanQuad_cons_iff (by rintro rfl; simp at hlen)]
      constructor
      · rintro ⟨t, hscan, hrest⟩
        obtain ⟨f, hok, htext, rfl, -⟩ := scanInt_eq_some_iff.1 hscan
        obtain ⟨fs, rest, hreads, rfl⟩ := (ih hlen).1 hrest
        obtain ⟨g, fs, rfl⟩ := List.exists_cons_of_length_eq_add_one
          ((List.length_map _).symm.trans hlen)
        exact ⟨f :: g :: fs, rest, readsFields_cons.2 ⟨hok, t, htext, hreads⟩, rfl⟩
      · rintro ⟨fs, rest, hreads, hvs⟩
        obtain ⟨f, fs, rfl, rfl, rfl⟩ := List.map_eq_cons_iff.1 hvs.symm
        obtain ⟨g, fs, rfl⟩ := List.exists_cons_of_length_eq_add_one
          ((List.length_map _).symm.trans hlen)
        obtain ⟨hok, t, htext, hreads'⟩ := readsFields_cons.1 hreads
        refine ⟨t, scanInt_eq_some_iff.2 ⟨f, hok, htext, rfl, by simp [isDigit]⟩, ?_⟩
        exact (ih hlen).2 ⟨g :: fs, rest, hreads', rfl⟩

/-- A text is read in one way only. -/
lemma ReadsFields.unique {s rest rest' : Bytes} {fs fs' : List IntField}
    (h : ReadsFields s fs rest) (h' : ReadsFields s fs' rest') (hne : fs ≠ [])
    (hlen : fs.length = fs'.length) : fs = fs' ∧ rest = rest' := by
  induction fs generalizing s fs' with
  | nil => exact absurd rfl hne
  | cons f fs ih =>
      obtain ⟨f', fs', rfl⟩ := List.exists_cons_of_length_eq_add_one hlen.symm
      rw [List.length_cons, List.length_cons, Nat.add_right_cancel_iff] at hlen
      cases fs with
      | nil =>
          obtain rfl : fs' = [] := List.length_eq_zero_iff.1 hlen.symm
          obtain ⟨hok, htext, hstop⟩ := readsFields_singleton.1 h
          obtain ⟨hok', htext', hstop'⟩ := readsFields_singleton.1 h'
          have hsame := (readField_append hok hstop).symm.trans
            ((congrArg readField (htext.symm.trans htext')).trans (readField_append hok' hstop'))
          obtain ⟨rfl, rfl⟩ := Prod.mk.inj hsame
          exact ⟨rfl, rfl⟩
      | cons g fs =>
          obtain ⟨g', fs', rfl⟩ := List.exists_cons_of_length_eq_add_one hlen.symm
          obtain ⟨hok, t, htext, hreads⟩ := readsFields_cons.1 h
          obtain ⟨hok', t', htext', hreads'⟩ := readsFields_cons.1 h'
          have hdot : ∀ t : Bytes, ∀ c ∈ (46 :: t).head?, isDigit c = false := by
            simp [isDigit]
          have hsame := (readField_append hok (hdot t)).symm.trans
            ((congrArg readField (htext.symm.trans htext')).trans (readField_append hok' (hdot t')))
          rw [Prod.mk.injEq, List.cons.injEq] at hsame
          obtain ⟨rfl, -, rfl⟩ := hsame
          obtain ⟨heq, rfl⟩ := ih hreads hreads' (by simp) hlen
          rw [heq]
          exact ⟨rfl, rfl⟩

/-- What `verify_ip` accepts: four fields with numbers up to 255, and anything behind them. -/
lemma verifyIp_iff (ip : Bytes) :
    verifyIp ip = .succeed ↔
      ∃ fs rest, ReadsFields ip fs rest ∧ fs.length = 4 ∧ ∀ f ∈ fs, f.InRange := by
  have hfgm : verifyIp ip = .succeed ↔
      (scanQuad 4 ip).length = 4 ∧ ∀ v ∈ scanQuad 4 ip, 0 ≤ v ∧ v ≤ 255 := by
    rw [verifyIp]
    by_cases hlen : (scanQuad 4 ip).length = 4
    · simp [hlen]
    · simp [hlen]
  rw [hfgm]
  constructor
  · rintro ⟨hlen, hrange⟩
    obtain ⟨fs, rest, hreads, hvs⟩ := (scanQuad_eq_iff hlen).1 rfl
    rw [hvs] at hlen hrange
    refine ⟨fs, rest, hreads, by simpa using hlen, fun f hf => ?_⟩
    exact hrange _ (List.mem_map_of_mem hf)
  · rintro ⟨fs, rest, hreads, hlen, hrange⟩
    rw [(scanQuad_eq_iff (by simpa using hlen)).2 ⟨fs, rest, hreads, rfl⟩]
    refine ⟨by simpa using hlen, fun v hv => ?_⟩
    obtain ⟨f, hf, rfl⟩ := List.mem_map.1 hv
    exact hrange f hf

/-! ### Addresses -/

/-- Four decimal numbers of one to three digits, each up to 255, with single dots between them
and nothing else. -/
def StrictQuad (ip : Bytes) : Prop :=
  ∃ ns : List Bytes, ns.length = 4 ∧ ip = (ascii ".").intercalate ns ∧
    ∀ n ∈ ns, n ≠ [] ∧ n.length ≤ 3 ∧ (∀ c ∈ n, isDigit c = true) ∧ digitsVal n ≤ 255

/-- The text is read as four numbers up to 255, but one of them has a blank or a sign before it
or more than three digits, or something is behind the fourth. -/
def Sloppy (ip : Bytes) : Prop :=
  ∃ fs rest, ReadsFields ip fs rest ∧ fs.length = 4 ∧ (∀ f ∈ fs, f.InRange) ∧
    ¬((∀ f ∈ fs, f.Plain) ∧ rest = [])

/-- A few digits stand for what is stored for them. -/
lemma IntField.value_plain {f : IntField} (hsign : f.sign = []) (h : digitsVal f.digits < 2 ^ 31) :
    f.value = digitsVal f.digits := by
  rw [value, if_neg (by simp [hsign])]
  exact toInt_toLong (by omega) (by omega)

lemma digitsVal_lt {ds : Bytes} (hdig : ∀ c ∈ ds, isDigit c = true) :
    digitsVal ds < 10 ^ ds.length := by
  induction ds using List.reverseRecOn with
  | nil => simp [digitsVal]
  | append_singleton ds c ih =>
      have hds := ih fun d hd => hdig d (List.mem_append_left _ hd)
      have hc := hdig c (by simp)
      have h₅₇ : (57 : UInt8).toNat = 57 := rfl
      simp only [isDigit, Bool.and_eq_true, decide_eq_true_eq, UInt8.le_iff_toNat_le] at hc
      rw [digitsVal_append, List.length_append, List.length_singleton, Nat.pow_succ]
      omega

/-- An address is read as four plain fields. -/
lemma strictQuad_iff (ip : Bytes) :
    StrictQuad ip ↔
      ∃ fs, ReadsFields ip fs [] ∧ fs.length = 4 ∧ ∀ f ∈ fs, f.InRange ∧ f.Plain := by
  constructor
  · rintro ⟨ns, hlen, rfl, hns⟩
    have htext : (ns.map fun n => (⟨[], [], n⟩ : IntField)).map IntField.text = ns := by
      simp [IntField.text, Function.comp_def]
    refine ⟨ns.map fun n => ⟨[], [], n⟩, ⟨?_, ?_, by simp⟩, by simpa using hlen, ?_⟩
    · intro f hf
      obtain ⟨n, hn, rfl⟩ := List.mem_map.1 hf
      obtain ⟨hne, -, hdig, -⟩ := hns n hn
      exact ⟨by simp, Or.inl rfl, hne, hdig⟩
    · rw [htext, List.append_nil]
    · intro f hf
      obtain ⟨n, hn, rfl⟩ := List.mem_map.1 hf
      obtain ⟨-, hthree, -, hval⟩ := hns n hn
      have hvalue := IntField.value_plain (f := ⟨[], [], n⟩) rfl (by dsimp only; omega)
      refine ⟨?_, rfl, rfl, hthree⟩
      rw [IntField.InRange, hvalue]
      exact ⟨Int.natCast_nonneg _, by exact_mod_cast hval⟩
  · rintro ⟨fs, ⟨hok, htext, -⟩, hlen, hfs⟩
    have hmap : fs.map IntField.text = fs.map IntField.digits := by
      refine List.map_congr_left fun f hf => ?_
      obtain ⟨hblanks, hsign, -⟩ := (hfs f hf).2
      rw [IntField.text, hblanks, hsign, List.nil_append, List.nil_append]
    refine ⟨fs.map IntField.digits, by simpa using hlen, ?_, ?_⟩
    · rw [htext, hmap, List.append_nil]
    · intro n hn
      obtain ⟨f, hf, rfl⟩ := List.mem_map.1 hn
      obtain ⟨⟨-, hle⟩, -, hsign, hthree⟩ := hfs f hf
      have hlt : digitsVal f.digits < 10 ^ 3 :=
        (digitsVal_lt (hok f hf).digits).trans_le (Nat.pow_le_pow_right (by decide) hthree)
      rw [IntField.value_plain hsign (by omega)] at hle
      exact ⟨(hok f hf).ne_nil, hthree, (hok f hf).digits, by exact_mod_cast hle⟩

/-- An address is at most as long as `255.255.255.255`. -/
lemma StrictQuad.length_le {ip : Bytes} (h : StrictQuad ip) : ip.length ≤ 15 := by
  obtain ⟨ns, hlen, rfl, hns⟩ := h
  obtain ⟨a, b, c, d, rfl⟩ : ∃ a b c d, ns = [a, b, c, d] := by
    match ns, hlen with
    | [a, b, c, d], _ => exact ⟨a, b, c, d, rfl⟩
  have hthree : ∀ n ∈ [a, b, c, d], n.length ≤ 3 := fun n hn => (hns n hn).2.1
  have hdot : (ascii ".").length = 1 := rfl
  simp only [List.forall_mem_cons, List.not_mem_nil, false_imp_iff, implies_true, and_true]
    at hthree
  simp only [List.intercalate_cons_cons, List.intercalate_singleton, List.length_append, hdot]
  omega

/-- The name of a server with an address and a port that have been checked. -/
lemma serverInit_of_strictQuad {ip : Bytes} {port : Int} (hip : StrictQuad ip)
    (hport : verifyPort port = .succeed) (type : ServerType) :
    (serverName ip port).length ≤ maxServerNameLen ∧ (serverInit ip port type).isSome := by
  have hrange : 0 ≤ port ∧ port < 65536 := by
    rw [verifyPort] at hport
    split at hport
    · assumption
    · cases hport
  obtain ⟨n, rfl⟩ := Int.eq_ofNat_of_zero_le hrange.1
  have hdigits : (decimalInt (n : Int)).length ≤ 5 :=
    length_decimal_le (by omega) (by omega : n < 10 ^ 5)
  have hcolon : (ascii ":").length = 1 := rfl
  have hname : (serverName ip n).length ≤ maxServerNameLen := by
    have hfifteen := hip.length_le
    rw [serverName, List.length_append, List.length_append, hcolon, maxServerNameLen]
    omega
  refine ⟨hname, ?_⟩
  simp [serverInit, hname]

/-- **When `verify_ip` is exact.**  For every text: `verify_ip` accepts it exactly if it is an
address, and every server with an accepted address and an accepted port has a name that
`server_init` allows, if and only if the text is not a sloppy one. -/
theorem verify_ip_exact_iff (ip : Bytes) :
    ((verifyIp ip = .succeed ↔ StrictQuad ip) ∧
      ∀ port type, verifyIp ip = .succeed → verifyPort port = .succeed →
        (serverName ip port).length ≤ maxServerNameLen ∧ (serverInit ip port type).isSome) ↔
      ¬Sloppy ip := by
  constructor
  · rintro ⟨hexact, -⟩ ⟨fs, rest, hreads, hlen, hrange, hnot⟩
    obtain ⟨fs', hreads', hlen', hplain⟩ := (strictQuad_iff ip).1
      (hexact.1 ((verifyIp_iff ip).2 ⟨fs, rest, hreads, hlen, hrange⟩))
    obtain ⟨rfl, rfl⟩ := hreads.unique hreads' (by rintro rfl; simp at hlen)
      (hlen.trans hlen'.symm)
    exact hnot ⟨fun f hf => (hplain f hf).2, rfl⟩
  · intro hnot
    have hstrict : verifyIp ip = .succeed → StrictQuad ip := by
      intro hip
      obtain ⟨fs, rest, hreads, hlen, hrange⟩ := (verifyIp_iff ip).1 hip
      obtain ⟨hplain, rfl⟩ : (∀ f ∈ fs, f.Plain) ∧ rest = [] := by
        by_contra hsloppy
        exact hnot ⟨fs, rest, hreads, hlen, hrange, hsloppy⟩
      exact (strictQuad_iff ip).2 ⟨fs, hreads, hlen, fun f hf => ⟨hrange f hf, hplain f hf⟩⟩
    refine ⟨⟨hstrict, fun hip => ?_⟩, fun port type hip hport => ?_⟩
    · obtain ⟨fs, hreads, hlen, hfs⟩ := (strictQuad_iff ip).1 hip
      exact (verifyIp_iff ip).2 ⟨fs, [], hreads, hlen, fun f hf => (hfs f hf).1⟩
    · exact serverInit_of_strictQuad (hstrict hip) hport type

/-- An address with a text behind it is accepted, and the server made of it is a null pointer. -/
theorem verify_ip_trailing_text :
    ¬∀ ip : Bytes, (verifyIp ip = .succeed ↔ StrictQuad ip) ∧
      ∀ port type, verifyIp ip = .succeed → verifyPort port = .succeed →
        (serverName ip port).length ≤ maxServerNameLen ∧ (serverInit ip port type).isSome := by
  intro hall
  obtain ⟨-, hserver⟩ := (hall (ascii "10.1.150.1 standby")).2 3306 .read (by decide) (by decide)
  revert hserver
  decide

end CheckQ
