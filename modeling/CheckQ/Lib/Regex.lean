import Mathlib.Algebra.GroupWithZero.Nat
import Mathlib.Data.List.TakeWhile
import Mathlib.Tactic.Common

/-!
# Extended regular expressions without alternatives

A pattern is a sequence of items: one symbol of a class, any number of symbols of a class, at
least one of them, and the two brackets of a subexpression.  Matching follows the POSIX rule:
of all matches the leftmost ones, of these the longest ones, and of these the one in which
each item, from left to right, takes as many symbols as it can.

A way to match a text is a decomposition of it, with one part for each item; where a class and
what follows it have no symbol in common there is at most one.
-/

namespace CheckQ.Regex

variable {α : Type}

/-- An item of a pattern. -/
inductive Item (α : Type) where
  | one (cls : α → Bool)
  | star (cls : α → Bool)
  | plus (cls : α → Bool)
  | opening
  | closing

/-- The numbers of symbols that the items take, for every way to match a prefix of the text.
An item that can take several numbers takes the larger ones first. -/
def ways : List (Item α) → List α → List (List ℕ)
  | [], _ => [[]]
  | .one cls :: items, s =>
      match s with
      | [] => []
      | c :: s => if cls c then (ways items s).map (1 :: ·) else []
  | .star cls :: items, s =>
      (List.range ((s.takeWhile cls).length + 1)).reverse.flatMap fun n =>
        (ways items (s.drop n)).map (n :: ·)
  | .plus cls :: items, s =>
      (List.range (s.takeWhile cls).length).reverse.flatMap fun n =>
        (ways items (s.drop (n + 1))).map ((n + 1) :: ·)
  | .opening :: items, s => (ways items s).map (0 :: ·)
  | .closing :: items, s => (ways items s).map (0 :: ·)

/-- The first of the longest ways. -/
def longest : List (List ℕ) → Option (List ℕ)
  | [] => none
  | w :: ws =>
      match longest ws with
      | none => some w
      | some v => some (if w.sum < v.sum then v else w)

/-- Where the subexpressions begin and end, for items from the offset `pos` on.  `start` is where
the subexpression that is open begins. -/
def groups : List (Item α) → List ℕ → ℕ → ℕ → List (ℕ × ℕ)
  | .opening :: items, _ :: w, pos, _ => groups items w pos pos
  | .closing :: items, _ :: w, pos, start => (start, pos) :: groups items w pos start
  | _ :: items, n :: w, pos, start => groups items w (pos + n) start
  | _, _, _, _ => []

/-- `regexec`: where the match and its subexpressions begin and end, from a given offset on. -/
def regexecFrom (items : List (Item α)) : List α → ℕ → Option (List (ℕ × ℕ))
  | s, pos =>
      match longest (ways items s) with
      | some w => some ((pos, pos + w.sum) :: groups items w pos pos)
      | none =>
          match s with
          | [] => none
          | _ :: s => regexecFrom items s (pos + 1)

/-- `regexec`; `none` is `REG_NOMATCH`. -/
def regexec (items : List (Item α)) (s : List α) : Option (List (ℕ × ℕ)) := regexecFrom items s 0

/-- The symbols of a text, one after the other. -/
def lit [DecidableEq α] (text : List α) : List (Item α) := text.map fun c => .one fun d => d = c

/-! ### Ways as decompositions of the text -/

section Ways

variable {cls : α → Bool} {items : List (Item α)} {s : List α} {w : List ℕ}

lemma mem_ways_nil : w ∈ ways [] s ↔ w = [] := by
  rw [ways, List.mem_singleton]

lemma mem_ways_one : w ∈ ways (.one cls :: items) s ↔
    ∃ c s' w', s = c :: s' ∧ cls c = true ∧ w' ∈ ways items s' ∧ w = 1 :: w' := by
  cases s with
  | nil => simp [ways]
  | cons c s =>
      rw [ways]
      split
      · next hc =>
          rw [List.mem_map]
          constructor
          · rintro ⟨w', hw', rfl⟩
            exact ⟨c, s, w', rfl, hc, hw', rfl⟩
          · rintro ⟨c', s', w', hs, -, hw', rfl⟩
            obtain ⟨rfl, rfl⟩ := List.cons.inj hs
            exact ⟨w', hw', rfl⟩
      · next hc =>
          refine iff_of_false List.not_mem_nil ?_
          rintro ⟨c', s', w', hs, hc', -, -⟩
          obtain ⟨rfl, rfl⟩ := List.cons.inj hs
          exact hc hc'

lemma length_le_takeWhile {a : List α} (s' : List α) (ha : ∀ c ∈ a, cls c = true) :
    a.length ≤ ((a ++ s').takeWhile cls).length := by
  rw [List.takeWhile_append_of_pos ha, List.length_append]
  exact Nat.le_add_right _ _

lemma take_of_le_takeWhile {n : ℕ} (hn : n ≤ (s.takeWhile cls).length) :
    (s.take n).length = n ∧ ∀ c ∈ s.take n, cls c = true := by
  obtain ⟨t, ht⟩ := List.takeWhile_prefix (l := s) cls
  have htake : s.take n = (s.takeWhile cls).take n := by
    rw [← List.take_append_of_le_length hn, ht]
  refine ⟨?_, fun c hc => ?_⟩
  · rw [htake, List.length_take, Nat.min_eq_left hn]
  · rw [htake] at hc
    exact List.mem_takeWhile_imp (List.mem_of_mem_take hc)

lemma mem_ways_star : w ∈ ways (.star cls :: items) s ↔
    ∃ a s' w', s = a ++ s' ∧ (∀ c ∈ a, cls c = true) ∧ w' ∈ ways items s' ∧
      w = a.length :: w' := by
  simp only [ways, List.mem_flatMap, List.mem_reverse, List.mem_range, List.mem_map]
  constructor
  · rintro ⟨n, hn, w', hw', rfl⟩
    obtain ⟨hlen, hcls⟩ := take_of_le_takeWhile (Nat.le_of_lt_succ hn)
    exact ⟨s.take n, s.drop n, w', (List.take_append_drop n s).symm, hcls, hw', by rw [hlen]⟩
  · rintro ⟨a, s', w', rfl, ha, hw', rfl⟩
    exact ⟨a.length, Nat.lt_succ_of_le (length_le_takeWhile s' ha), w', by rwa [List.drop_left], rfl⟩

lemma mem_ways_plus : w ∈ ways (.plus cls :: items) s ↔
    ∃ a s' w', s = a ++ s' ∧ a ≠ [] ∧ (∀ c ∈ a, cls c = true) ∧ w' ∈ ways items s' ∧
      w = a.length :: w' := by
  simp only [ways, List.mem_flatMap, List.mem_reverse, List.mem_range, List.mem_map]
  constructor
  · rintro ⟨n, hn, w', hw', rfl⟩
    obtain ⟨hlen, hcls⟩ := take_of_le_takeWhile (n := n + 1) hn
    refine ⟨s.take (n + 1), s.drop (n + 1), w', (List.take_append_drop _ s).symm, ?_, hcls, hw',
      by rw [hlen]⟩
    exact List.ne_nil_of_length_pos (by omega)
  · rintro ⟨a, s', w', rfl, hne, ha, hw', rfl⟩
    have hpos := List.length_pos_iff.2 hne
    have hle := length_le_takeWhile s' ha
    have hlen : a.length - 1 + 1 = a.length := by omega
    exact ⟨a.length - 1, by omega, w', by rwa [hlen, List.drop_left], by rw [hlen]⟩

lemma mem_ways_opening : w ∈ ways (.opening :: items) s ↔ ∃ w', w' ∈ ways items s ∧ w = 0 :: w' := by
  simp only [ways, List.mem_map, eq_comm]

lemma mem_ways_closing : w ∈ ways (.closing :: items) s ↔ ∃ w', w' ∈ ways items s ∧ w = 0 :: w' := by
  simp only [ways, List.mem_map, eq_comm]

lemma mem_ways_lit [DecidableEq α] {t : List α} : w ∈ ways (lit t ++ items) s ↔
    ∃ s' w', s = t ++ s' ∧ w' ∈ ways items s' ∧ w = List.replicate t.length 1 ++ w' := by
  induction t generalizing s w with
  | nil => simp [lit]
  | cons c t ih =>
      have hcons : lit (c :: t) ++ items = .one (fun d => d = c) :: (lit t ++ items) := rfl
      rw [hcons, mem_ways_one]
      constructor
      · rintro ⟨d, s', w', rfl, hd, hw', rfl⟩
        obtain ⟨s'', w'', rfl, hw'', rfl⟩ := ih.1 hw'
        obtain rfl : d = c := by simpa using hd
        exact ⟨s'', w'', rfl, hw'', rfl⟩
      · rintro ⟨s', w', rfl, hw', rfl⟩
        exact ⟨c, t ++ s', _, rfl, by simp, ih.2 ⟨s', w', rfl, hw', rfl⟩, rfl⟩

/-- A way takes a symbol for each item that is one symbol. -/
lemma exists_mem_of_one (hw : w ∈ ways items s) (hone : .one cls ∈ items) :
    ∃ c ∈ s, cls c = true := by
  induction items generalizing s w with
  | nil => simp at hone
  | cons item items ih =>
      -- the symbol is found at the item itself or behind it
      have hrest : ∀ {s' w'}, w' ∈ ways items s' → item ≠ .one cls → ∃ c ∈ s', cls c = true :=
        fun hw' hne => ih hw' ((List.mem_cons.1 hone).resolve_left (Ne.symm hne))
      cases item with
      | one cls' =>
          obtain ⟨c, s', w', rfl, hc, hw', -⟩ := mem_ways_one.1 hw
          by_cases hcls : cls' = cls
          · exact ⟨c, List.mem_cons_self, hcls ▸ hc⟩
          · obtain ⟨d, hd, hclsd⟩ := hrest hw' (by simpa using hcls)
            exact ⟨d, List.mem_cons_of_mem c hd, hclsd⟩
      | star cls' =>
          obtain ⟨a, s', w', rfl, -, hw', -⟩ := mem_ways_star.1 hw
          obtain ⟨d, hd, hclsd⟩ := hrest hw' (by simp)
          exact ⟨d, List.mem_append_right a hd, hclsd⟩
      | plus cls' =>
          obtain ⟨a, s', w', rfl, -, -, hw', -⟩ := mem_ways_plus.1 hw
          obtain ⟨d, hd, hclsd⟩ := hrest hw' (by simp)
          exact ⟨d, List.mem_append_right a hd, hclsd⟩
      | opening =>
          obtain ⟨w', hw', -⟩ := mem_ways_opening.1 hw
          exact hrest hw' (by simp)
      | closing =>
          obtain ⟨w', hw', -⟩ := mem_ways_closing.1 hw
          exact hrest hw' (by simp)

/-- A pattern with an item that is one symbol takes at least one. -/
lemma sum_pos_of_one (hw : w ∈ ways items s) (hone : .one cls ∈ items) : 0 < w.sum := by
  induction items generalizing s w with
  | nil => simp at hone
  | cons item items ih =>
      cases item with
      | one cls' =>
          obtain ⟨-, -, w', -, -, -, rfl⟩ := mem_ways_one.1 hw
          simp only [List.sum_cons]
          omega
      | star cls' =>
          obtain ⟨a, s', w', -, -, hw', rfl⟩ := mem_ways_star.1 hw
          have := ih hw' ((List.mem_cons.1 hone).resolve_left (by simp))
          simp only [List.sum_cons]
          omega
      | plus cls' =>
          obtain ⟨a, s', w', -, -, -, hw', rfl⟩ := mem_ways_plus.1 hw
          have := ih hw' ((List.mem_cons.1 hone).resolve_left (by simp))
          simp only [List.sum_cons]
          omega
      | opening =>
          obtain ⟨w', hw', rfl⟩ := mem_ways_opening.1 hw
          simpa using ih hw' ((List.mem_cons.1 hone).resolve_left (by simp))
      | closing =>
          obtain ⟨w', hw', rfl⟩ := mem_ways_closing.1 hw
          simpa using ih hw' ((List.mem_cons.1 hone).resolve_left (by simp))

/-! ### Texts with one way -/

/-- No match begins with the symbol. -/
def NotFirst (items : List (Item α)) (c : α) : Prop := ∀ s, ways items (c :: s) = []

section NotFirst

variable {c : α}

lemma notFirst_one (h : cls c = false) : NotFirst (.one cls :: items) c := by
  intro s
  simp [ways, h]

lemma notFirst_plus (h : cls c = false) : NotFirst (.plus cls :: items) c := by
  intro s
  simp [ways, h]

lemma notFirst_star (h : cls c = false) (hrest : NotFirst items c) :
    NotFirst (.star cls :: items) c := by
  intro s
  simp [ways, h, hrest s]

lemma notFirst_opening (h : NotFirst items c) : NotFirst (.opening :: items) c := by
  intro s
  simp [ways, h s]

lemma notFirst_closing (h : NotFirst items c) : NotFirst (.closing :: items) c := by
  intro s
  simp [ways, h s]

lemma notFirst_lit [DecidableEq α] {d : α} {t : List α} (h : c ≠ d) :
    NotFirst (lit (d :: t) ++ items) c :=
  notFirst_one (by simpa using h)

end NotFirst

/-- Two ways to split a text behind symbols of a class, where what follows is outside it. -/
lemma split_unique {a b t u : List α} (h : a ++ t = b ++ u) (ha : ∀ c ∈ a, cls c = true)
    (ht : ∀ c ∈ t.head?, cls c = false) (hb : ∀ c ∈ b, cls c = true)
    (hu : ∀ c ∈ u.head?, cls c = false) : a = b ∧ t = u := by
  have hsplit : ∀ {x y : List α}, (∀ c ∈ x, cls c = true) → (∀ c ∈ y.head?, cls c = false) →
      (x ++ y).takeWhile cls = x := by
    intro x y hx hy
    rw [List.takeWhile_append_of_pos hx]
    cases y with
    | nil => simp
    | cons d y => simp [hy d (by simp)]
  have hab : a = b := by rw [← hsplit ha ht, h, hsplit hb hu]
  subst hab
  exact ⟨rfl, List.append_cancel_left h⟩

lemma length_takeWhile_append {a t : List α} (ha : ∀ c ∈ a, cls c = true)
    (ht : ∀ c ∈ t.head?, cls c = false) : ((a ++ t).takeWhile cls).length = a.length := by
  rw [List.takeWhile_append_of_pos ha, List.length_append]
  cases t with
  | nil => rfl
  | cons c t => simp [ht c (by simp)]

lemma ways_drop_append {a t : List α} {n : ℕ} (hn : n < a.length) (h : ∀ c ∈ a, NotFirst items c) :
    ways items ((a ++ t).drop n) = [] := by
  rw [List.drop_append_of_le_length hn.le, List.drop_eq_getElem_cons hn, List.cons_append]
  exact h _ (List.getElem_mem hn) _

/-- Symbols of a class, behind which the text is outside of it, are all taken when no match of
the other items begins with one of them. -/
lemma ways_star_append {a t : List α} (ha : ∀ c ∈ a, cls c = true)
    (ht : ∀ c ∈ t.head?, cls c = false) (hrest : ∀ c ∈ a, NotFirst items c) :
    ways (.star cls :: items) (a ++ t) = (ways items t).map (a.length :: ·) := by
  have hfewer : ∀ n ∈ (List.range a.length).reverse,
      (ways items ((a ++ t).drop n)).map (n :: ·) = [] := by
    intro n hn
    rw [ways_drop_append (by simpa using hn) hrest, List.map_nil]
  rw [ways, length_takeWhile_append ha ht, List.range_succ, List.reverse_append,
    List.reverse_singleton, List.singleton_append, List.flatMap_cons, List.drop_left,
    List.flatMap_eq_nil_iff.2 hfewer, List.append_nil]

lemma ways_plus_append {a t : List α} (hne : a ≠ []) (ha : ∀ c ∈ a, cls c = true)
    (ht : ∀ c ∈ t.head?, cls c = false) (hrest : ∀ c ∈ a, NotFirst items c) :
    ways (.plus cls :: items) (a ++ t) = (ways items t).map (a.length :: ·) := by
  obtain ⟨k, hk⟩ : ∃ k, a.length = k + 1 :=
    Nat.exists_eq_succ_of_ne_zero (List.length_pos_iff.2 hne).ne'
  have hfewer : ∀ n ∈ (List.range k).reverse,
      (ways items ((a ++ t).drop (n + 1))).map ((n + 1) :: ·) = [] := by
    intro n hn
    have hlt : n < k := by simpa using hn
    rw [ways_drop_append (by omega) hrest, List.map_nil]
  rw [ways, length_takeWhile_append ha ht, hk, List.range_succ, List.reverse_append,
    List.reverse_singleton, List.singleton_append, List.flatMap_cons, ← hk, List.drop_left,
    List.flatMap_eq_nil_iff.2 hfewer, List.append_nil]

lemma ways_lit_append [DecidableEq α] (t : List α) :
    ways (lit t ++ items) (t ++ s) = (ways items s).map (List.replicate t.length 1 ++ ·) := by
  induction t with
  | nil => simp [lit]
  | cons c t ih =>
      have hcons : lit (c :: t) ++ items = .one (fun d => d = c) :: (lit t ++ items) := rfl
      rw [hcons, List.cons_append, ways, if_pos (by simp), ih, List.map_map]
      rfl

end Ways

/-! ### Where a match is found -/

section Matches

variable {items : List (Item α)} {s : List α} {pos : ℕ}

lemma longest_eq_none_iff {ws : List (List ℕ)} : longest ws = none ↔ ws = [] := by
  cases ws with
  | nil => simp [longest]
  | cons w ws =>
      rw [longest]
      split <;> simp

lemma mem_of_longest {ws : List (List ℕ)} {w : List ℕ} (h : longest ws = some w) : w ∈ ws := by
  induction ws generalizing w with
  | nil => simp [longest] at h
  | cons v ws ih =>
      rw [longest] at h
      split at h
      · obtain rfl := Option.some.inj h
        exact List.mem_cons_self
      · next u hu =>
          obtain rfl := Option.some.inj h
          split
          · exact List.mem_cons_of_mem v (ih hu)
          · exact List.mem_cons_self

lemma regexecFrom_some {w : List ℕ} (h : longest (ways items s) = some w) :
    regexecFrom items s pos = some ((pos, pos + w.sum) :: groups items w pos pos) := by
  rw [regexecFrom.eq_def]
  simp only [h]

lemma regexecFrom_nil (h : ways items [] = []) : regexecFrom items [] pos = none := by
  rw [regexecFrom.eq_def]
  simp only [longest_eq_none_iff.2 h]

lemma regexecFrom_cons {c : α} (h : ways items (c :: s) = []) :
    regexecFrom items (c :: s) pos = regexecFrom items s (pos + 1) := by
  rw [regexecFrom.eq_def]
  simp only [longest_eq_none_iff.2 h]

/-- A match at the first symbol. -/
lemma regexecFrom_of_ways (pos : ℕ) (h : ways items s ≠ []) : ∃ w ∈ ways items s,
    regexecFrom items s pos = some ((pos, pos + w.sum) :: groups items w pos pos) := by
  obtain ⟨w, hw⟩ := Option.ne_none_iff_exists'.1 (mt longest_eq_none_iff.1 h)
  exact ⟨w, mem_of_longest hw, regexecFrom_some hw⟩

/-- A match at the first symbol of a text with one way. -/
lemma regexecFrom_of_way {w : List ℕ} (h : ways items s = [w]) (pos : ℕ) :
    regexecFrom items s pos = some ((pos, pos + w.sum) :: groups items w pos pos) :=
  regexecFrom_some (by rw [h, longest, longest])

/-- Symbols at which no match begins are passed. -/
lemma regexecFrom_append {pre : List α} (h : ∀ b, b ≠ [] → b <:+ pre → ways items (b ++ s) = []) :
    regexecFrom items (pre ++ s) pos = regexecFrom items s (pos + pre.length) := by
  induction pre generalizing pos with
  | nil => rfl
  | cons c pre ih =>
      have hfirst : ways items (c :: (pre ++ s)) = [] :=
        h (c :: pre) (by simp) (List.suffix_refl _)
      have hrest : ∀ b, b ≠ [] → b <:+ pre → ways items (b ++ s) = [] :=
        fun b hb hsuffix => h b hb (hsuffix.trans (List.suffix_cons c pre))
      rw [List.cons_append, regexecFrom_cons hfirst, ih hrest, List.length_cons]
      congr 1
      omega

lemma regexecFrom_eq_none (h : ∀ b, b <:+ s → ways items b = []) :
    regexecFrom items s pos = none := by
  rw [← List.append_nil s, regexecFrom_append fun b _ hb => by rw [List.append_nil]; exact h b hb]
  exact regexecFrom_nil (h [] List.nil_suffix)

/-- A match takes a symbol, when the pattern has an item that is one. -/
lemma match_nonempty {cls : α → Bool} (hone : .one cls ∈ items) {m : List (ℕ × ℕ)}
    (h : regexecFrom items s pos = some m) : s ≠ [] ∧ 0 < (m.getD 0 (0, 0)).2 := by
  induction s generalizing pos with
  | nil =>
      cases hw : ways items [] with
      | nil =>
          rw [regexecFrom_nil hw] at h
          cases h
      | cons w ws =>
          obtain ⟨c, hc, -⟩ := exists_mem_of_one (w := w) (hw ▸ List.mem_cons_self) hone
          cases hc
  | cons c s ih =>
      refine ⟨by simp, ?_⟩
      by_cases hw : ways items (c :: s) = []
      · rw [regexecFrom_cons hw] at h
        exact (ih h).2
      · obtain ⟨w, hmem, hrun⟩ := regexecFrom_of_ways pos hw
        rw [h, Option.some.injEq] at hrun
        have := sum_pos_of_one hmem hone
        rw [hrun, List.getD_cons_zero]
        omega

/-- A text without a symbol that the pattern asks for. -/
lemma regexecFrom_eq_none_of_one {cls : α → Bool} (hone : .one cls ∈ items)
    (hs : ∀ c ∈ s, cls c = false) : regexecFrom items s pos = none := by
  refine regexecFrom_eq_none fun b hb => List.eq_nil_iff_forall_not_mem.2 fun w hw => ?_
  obtain ⟨c, hc, hcls⟩ := exists_mem_of_one hw hone
  simp [hs c (hb.subset hc)] at hcls

lemma regexecFrom_eq_none_of_lit [DecidableEq α] {t : List α} {c : α} (ht : c ∈ t)
    (hitems : ∀ item ∈ lit t, item ∈ items) (hs : c ∉ s) : regexecFrom items s pos = none :=
  regexecFrom_eq_none_of_one (hitems _ (List.mem_map_of_mem ht)) fun d hd => by
    simpa using fun hdc : d = c => hs (hdc ▸ hd)

lemma regexecFrom_isSome {s' : List α} (pos : ℕ) (hs : s' <:+ s) (h : ways items s' ≠ []) :
    (regexecFrom items s pos).isSome := by
  have hhere : ∀ {t : List α} {p : ℕ}, ways items t ≠ [] → (regexecFrom items t p).isSome := by
    intro t p ht
    obtain ⟨w, -, hw⟩ := regexecFrom_of_ways p ht
    rw [hw, Option.isSome_some]
  induction s generalizing pos with
  | nil =>
      obtain rfl := List.suffix_nil.1 hs
      exact hhere h
  | cons c s ih =>
      rcases List.suffix_cons_iff.1 hs with rfl | hs
      · exact hhere h
      · by_cases hfirst : ways items (c :: s) = []
        · rw [regexecFrom_cons hfirst]
          exact ih _ hs
        · exact hhere hfirst

/-- A pattern that is a text matches where the text occurs. -/
lemma regexec_lit_isSome [DecidableEq α] {t : List α} : (regexec (lit t) s).isSome ↔ t <:+: s := by
  have hways : ∀ b, ways (lit t) b ≠ [] ↔ t <+: b := by
    intro b
    rw [← List.append_nil (lit t)]
    constructor
    · intro hne
      obtain ⟨w, hw⟩ := List.exists_mem_of_ne_nil _ hne
      obtain ⟨s', -, rfl, -, -⟩ := mem_ways_lit.1 hw
      exact List.prefix_append t s'
    · rintro ⟨s', rfl⟩
      exact List.ne_nil_of_mem (mem_ways_lit.2 ⟨s', [], rfl, mem_ways_nil.2 rfl, rfl⟩)
  rw [List.infix_iff_prefix_suffix]
  constructor
  · contrapose!
    intro h
    rw [regexec, regexecFrom_eq_none fun b hb => ?_]
    · simp
    · by_contra hne
      exact h b ((hways b).1 hne) hb
  · rintro ⟨b, hbegin, hend⟩
    exact regexecFrom_isSome 0 hend ((hways b).2 hbegin)

end Matches

end CheckQ.Regex
