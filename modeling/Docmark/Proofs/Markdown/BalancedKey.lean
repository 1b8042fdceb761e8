import Docmark.Proofs.Markdown.KeyRuns
import Mathlib.Algebra.Ring.Parity

/-!
The ends of a key. Its first sign and its last one tell whether its first and its last run are in
bold, so the pairs that are taken off belong together exactly where both are the same run or neither
is in bold.
-/

namespace Docmark.Markdown

section opens

variable {m : List (Option Char)} {strong : Bool}

/-- The first sign that shows something begins a pair of asterisks, or is a character. -/
inductive Opens : Bool → List (Option Char) → Prop
  | pair {m r : List (Option Char)} (h : m.dropWhile isPadSign = none :: none :: r) : Opens true m
  | char {m r : List (Option Char)} {c : Char} (h : m.dropWhile isPadSign = some c :: r) :
    Opens false m

theorem Opens.append (h : Opens strong m) (m' : List (Option Char)) : Opens strong (m ++ m') := by
  cases h with
  | pair h => exact .pair (by rw [List.dropWhile_append, h]; rfl)
  | char h => exact .char (by rw [List.dropWhile_append, h]; rfl)

theorem Opens.behind {p : List (Option Char)} (pads : ∀ x ∈ p, isPadSign x = true)
    (h : Opens strong m) : Opens strong (p ++ m) := by
  cases h with
  | pair h => exact .pair (by rw [List.dropWhile_append_of_pos pads, h])
  | char h => exact .char (by rw [List.dropWhile_append_of_pos pads, h])

theorem isPadSign_of_mem_map {t : Text} (blank : ∀ c ∈ t, Text.isBlankChar c = true) :
    ∀ x ∈ t.map some, isPadSign x = true := by
  intro x hx
  obtain ⟨c, hc, rfl⟩ := List.mem_map.mp hx
  exact blank c hc

theorem opens_text {t : Text} (shown : Text.isBlank t = false) : Opens false (t.map some) := by
  have front : (t.map some).dropWhile isPadSign = (t.dropWhile Text.isBlankChar).map some :=
    List.dropWhile_map
  cases rest : t.dropWhile Text.isBlankChar with
  | nil =>
    rw [Text.isBlank, List.all_eq_true.mpr (List.dropWhile_eq_nil_iff.mp rest)] at shown
    cases shown
  | cons c r =>
    rw [rest] at front
    exact .char front

/-- Trimmed signs begin as they open. -/
theorem Opens.trimSigns_cases (h : Opens strong m) :
    (strong = true ∧ ∃ r, trimSigns m = none :: none :: r) ∨
      strong = false ∧ (trimSigns m).head? ≠ some none := by
  cases h with
  | @pair _ r h =>
    left
    rw [trimSigns, h, Text.rdropWhile_cons, if_neg (by simp [isPadSign]), Text.rdropWhile_cons,
      if_neg (by simp [isPadSign])]
    exact ⟨rfl, _, rfl⟩
  | @char _ r c h =>
    right
    rw [trimSigns, h, Text.rdropWhile_cons]
    refine ⟨rfl, ?_⟩
    split
    · simp
    · simp

end opens

section runs

variable {r : KeyRun} {rs : List KeyRun}

theorem KeyRun.opens (shown : Text.isBlank r.text = false) : Opens r.strong r.signs := by
  cases strong : r.strong with
  | false =>
    rw [signs_of_plain strong]
    exact opens_text shown
  | true =>
    obtain ⟨a, b, front, -, written⟩ := signs_of_strong strong shown
    rw [written]
    exact (Opens.pair rfl).behind (isPadSign_of_mem_map front)

theorem KeyRun.closes (shown : Text.isBlank r.text = false) : Opens r.strong r.signs.reverse := by
  cases strong : r.strong with
  | false =>
    have turned : Text.isBlank r.text.reverse = false := by
      rw [Text.isBlank, List.all_reverse]
      exact shown
    rw [signs_of_plain strong, ← List.map_reverse]
    exact opens_text turned
  | true =>
    obtain ⟨a, b, -, back, written⟩ := signs_of_strong strong shown
    have pads : ∀ x ∈ (b.map some).reverse, isPadSign x = true :=
      fun x hx => isPadSign_of_mem_map back x (List.mem_reverse.mp hx)
    rw [written]
    simp only [List.reverse_append, List.reverse_cons, List.append_assoc, List.nil_append,
      List.cons_append]
    exact (Opens.pair rfl).behind pads

theorem KeyRun.isPadSign_of_mem (blank : Text.isBlank r.text = true) :
    ∀ x ∈ r.signs, isPadSign x = true := by
  rw [signs_of_blank blank]
  exact isPadSign_of_mem_map (List.all_eq_true.mp blank)

/-- The first run that shows something gives the first sign that does. -/
theorem opens_runs {f : KeyRun → List (Option Char)}
    (pads : ∀ r, Text.isBlank r.text = true → ∀ x ∈ f r, isPadSign x = true)
    (opens : ∀ r, Text.isBlank r.text = false → Opens r.strong (f r))
    (first : (shownRuns rs).head? = some r) : Opens r.strong (rs.flatMap f) := by
  induction rs with
  | nil => cases first
  | cons k rs ih =>
    rw [List.flatMap_cons]
    cases blank : Text.isBlank k.text with
    | true =>
      rw [shownRuns_cons_of_blank blank] at first
      exact (ih first).behind (pads k blank)
    | false =>
      rw [shownRuns_cons_of_shown blank] at first
      obtain rfl := Option.some.inj first
      exact (opens k blank).append _

theorem trimSigns_of_blank (none : shownRuns rs = []) : trimSigns (signs (keyContent rs)) = [] := by
  have pads : ∀ x ∈ rs.flatMap KeyRun.signs, isPadSign x = true := by
    intro x hx
    obtain ⟨r, hr, hx⟩ := List.mem_flatMap.mp hx
    have blank : Text.isBlank r.text = true := by simpa using List.filter_eq_nil_iff.mp none r hr
    exact KeyRun.isPadSign_of_mem blank x hx
  rw [trimSigns, signs_keyContent, List.dropWhile_eq_nil_iff.mpr pads]
  rfl

/-- Whether the first run that shows something is in bold. -/
def beginsStrong (rs : List KeyRun) : Bool :=
  (shownRuns rs).head?.any KeyRun.strong

def endsStrong (rs : List KeyRun) : Bool :=
  (shownRuns rs).getLast?.any KeyRun.strong

/-- The signs of a key begin with a pair of asterisks, or with none, as its runs do. -/
theorem beginsStrong_cases (rs : List KeyRun) :
    (beginsStrong rs = true ∧ ∃ m, trimSigns (signs (keyContent rs)) = none :: none :: m) ∨
      beginsStrong rs = false ∧ (trimSigns (signs (keyContent rs))).head? ≠ some none := by
  rw [beginsStrong]
  cases first : (shownRuns rs).head? with
  | none =>
    rw [trimSigns_of_blank (List.head?_eq_none_iff.mp first)]
    exact Or.inr ⟨rfl, by simp⟩
  | some r =>
    rw [signs_keyContent]
    exact (opens_runs (fun _ => KeyRun.isPadSign_of_mem) (fun _ => KeyRun.opens)
      first).trimSigns_cases

theorem endsStrong_cases (rs : List KeyRun) :
    (endsStrong rs = true ∧ ∃ m, trimSigns (signs (keyContent rs)) = m ++ [none, none]) ∨
      endsStrong rs = false ∧ (trimSigns (signs (keyContent rs))).getLast? ≠ some none := by
  rw [endsStrong]
  cases last : (shownRuns rs).getLast? with
  | none =>
    rw [trimSigns_of_blank (List.getLast?_eq_none_iff.mp last)]
    exact Or.inr ⟨rfl, by simp⟩
  | some r =>
    -- the same from behind: the last run is the first one of the reversed key
    have first : (shownRuns rs.reverse).head? = some r := by
      rw [shownRuns, List.filter_reverse, List.head?_reverse]
      exact last
    have pads : ∀ r, Text.isBlank r.text = true →
        ∀ x ∈ (List.reverse ∘ KeyRun.signs) r, isPadSign x = true :=
      fun r blank x hx => KeyRun.isPadSign_of_mem blank x (List.mem_reverse.mp hx)
    have closes := opens_runs pads (fun _ => KeyRun.closes) first
    rw [← List.reverse_flatMap, ← signs_keyContent] at closes
    rcases closes.trimSigns_cases with ⟨bold, m, hm⟩ | ⟨plain, other⟩
    · rw [← reverse_trimSigns, List.reverse_eq_iff] at hm
      refine Or.inl ⟨bold, m.reverse, ?_⟩
      rw [hm, List.reverse_cons, List.reverse_cons, List.append_assoc]
      rfl
    · rw [← reverse_trimSigns, List.head?_reverse] at other
      exact Or.inr ⟨plain, other⟩

end runs

section line

variable {rs : List KeyRun} {r : KeyRun}

/-- A break at the end of a spelling has its backslash from the text, and leaves one of two. -/
theorem Spells.trimSigns_dropBreaks {u t : Text} (h : Spells u t) :
    trimSigns (signs (dropBreaks u)) = trimSigns (signs u) := by
  by_cases broken : hardBreak <:+ u
  · obtain ⟨v, rfl⟩ := broken
    have cut : v ++ hardBreak = (v ++ ['\\']) ++ '\n' :: [] :=
      (List.append_assoc v ['\\'] ['\n']).symm
    have inner : Glyph.bare '\\' ∉ glyphs (v ++ ['\\']) := by
      have lone := h.bare_not_mem
      rw [cut, glyphs_append_plain (by decide), List.mem_append, not_or] at lone
      exact lone.1
    have ends : EndsEscaping v := by
      by_contra free
      apply inner
      rw [glyphs_append (mt (getLast?_glyphs v).mp free)]
      exact List.mem_append_right _ (List.mem_singleton_self _)
    obtain ⟨gs, last⟩ := List.getLast?_eq_some_iff.mp ((getLast?_glyphs v).mpr ends)
    have slash : v.getLast? ≠ some '\n' := by
      rw [← flatMap_written_glyphs v, last, List.flatMap_append]
      simp [Glyph.written]
    obtain ⟨m, before, after⟩ := signs_append_of_endsEscaping (c := '\\') (by decide) ends []
    have pad : ∀ x ∈ [some '\n'], isPadSign x = true := by
      intro x hx
      rw [List.mem_singleton.mp hx]
      decide
    calc trimSigns (signs (dropBreaks (v ++ hardBreak)))
      _ = trimSigns (signs v) := by
        rw [dropBreaks_append_hardBreak, dropBreaks_of_getLast?_ne slash]
      _ = trimSigns (signs (v ++ ['\\'])) := by rw [before, after]; rfl
      _ = trimSigns (signs (v ++ ['\\']) ++ [some '\n']) := (trimSigns_append pad _).symm
      _ = trimSigns (signs (v ++ hardBreak)) := by
        rw [cut]
        exact congrArg trimSigns (signs_append_plain (by decide) (v ++ ['\\']) []).symm
  · rw [dropBreaks_of_not_suffix broken]

/-- The paragraph of a key, trimmed as its cell trims it. -/
def keyLine (rs : List KeyRun) : Text :=
  Text.strip (escapeLines (Text.strip (dropBreaks (keyContent rs))))

theorem keyText_eq (rs : List KeyRun) : keyText rs = cellForm (keyLine rs) :=
  joinCell_paragraph _

theorem strip_keyLine (rs : List KeyRun) : Text.strip (keyLine rs) = keyLine rs :=
  Text.dropAround_dropAround _ _

theorem strip_keyText (rs : List KeyRun) : Text.strip (keyText rs) = keyText rs := by
  rw [keyText_eq]
  exact strip_cellForm (strip_keyLine rs)

theorem trimSigns_keyContent (rs : List KeyRun) :
    trimSigns (signs (Text.strip (dropBreaks (keyContent rs)))) =
      trimSigns (signs (keyContent rs)) := by
  obtain ⟨t, ht⟩ := exists_spells_content rs
  rw [signs_strip, trimSigns_trimSigns, ht.trimSigns_dropBreaks]

theorem signs_keyLine (plain : ∀ l ∈ keyLines rs, isStarRule l = false) :
    signs (keyLine rs) = trimSigns (signs (keyContent rs)) := by
  rw [keyLine, signs_strip, signs_escapeLines plain, trimSigns_keyContent]

theorem count_none_keyText (rs : List KeyRun) :
    (signs (keyText rs)).count none = (signs (keyLine rs)).count none := by
  rw [keyText_eq, signs_cellForm, count_none_cellSigns]

/-- A rule between asterisks costs the key one of them. -/
theorem count_none_keyText_lt (star : ∃ l ∈ keyLines rs, isStarRule l = true) :
    (signs (keyText rs)).count none < (signs (keyContent rs)).count none := by
  have fewer := count_none_escapeLines_lt star
  have same := congrArg (List.count none) (trimSigns_keyContent rs)
  rw [count_none_trimSigns, count_none_trimSigns] at same
  rw [count_none_keyText, keyLine, signs_strip, count_none_trimSigns, ← same]
  exact fewer

theorem strongTexts_keyText (plain : ∀ l ∈ keyLines rs, isStarRule l = false) :
    strongTexts (keyText rs) =
      some ((strongRuns rs).map fun r => cellForm (Text.strip r.text)) := by
  have texts := strongTexts_keyContent rs
  rw [strongTexts] at texts
  rw [keyText_eq, strongTexts_cellForm, strongTexts, signs_keyLine plain, enclosed_trimSigns, texts,
    Option.map_some, List.map_map]
  rfl

theorem prefix_keyText_iff (plain : ∀ l ∈ keyLines rs, isStarRule l = false) :
    strongMark <+: keyText rs ↔ beginsStrong rs = true := by
  have written := signs_keyLine plain
  rcases beginsStrong_cases rs with ⟨bold, m, hm⟩ | ⟨none, other⟩
  · obtain ⟨u, hu, inner⟩ := exists_of_signs_cons (written.trans hm)
    obtain ⟨v, rfl, -⟩ := exists_of_signs_cons inner
    refine iff_of_true ?_ bold
    rw [keyText_eq, hu, cellForm_cons (by decide) (Or.inl (by decide)),
      cellForm_cons (by decide) (Or.inl (by decide))]
    exact ⟨cellForm v, rfl⟩
  · refine iff_of_false ?_ (by simp [none])
    intro begins
    have head := head?_signs_star begins
    rw [keyText_eq, signs_cellForm, head?_cellSigns_none, written] at head
    exact other head

theorem suffix_keyText_iff (plain : ∀ l ∈ keyLines rs, isStarRule l = false) :
    strongMark <:+ keyText rs ↔ endsStrong rs = true := by
  have written := signs_keyLine plain
  rcases endsStrong_cases rs with ⟨bold, m, hm⟩ | ⟨none, other⟩
  · obtain ⟨u, hu, -⟩ := exists_of_signs_append (written.trans hm)
    refine iff_of_true ?_ bold
    rw [keyText_eq, hu, strongMark, cellForm_append (by decide)]
    exact ⟨cellForm u, rfl⟩
  · refine iff_of_false ?_ (by simp [none])
    intro ends
    have last := getLast?_signs_star ends
    rw [keyText_eq, signs_cellForm] at last
    have inner := getLast?_cellSigns_none last
    rw [written] at inner
    exact other inner

end line

section laws

/--
A key whose pairs of asterisks are taken off together, and only those of a bold run that is all of
it. The line of the property has an even number of pairs then, and with its own pairs in place of
those taken off, the bold texts of the key are those of its runs.
-/
structure KeepsStrong (rs : List KeyRun) (key : Text) : Prop where
  together : (strongEdges key).front = (strongEdges key).back
  whole : (strongEdges key).front ≠ [] → ∃ r, shownRuns rs = [r] ∧ r.strong = true
  even : Even (strongMarks (keyPart key))
  same : strongTexts ((strongEdges key).front ++ (stripStrong key ++ (strongEdges key).back)) =
    some ((strongRuns rs).map fun r => cellForm (Text.strip r.text))

/-- Runs of which one in bold is alone, or none in bold is at an end; and no line is a rule. -/
structure EndsAlike (rs : List KeyRun) : Prop where
  plain : ∀ l ∈ keyLines rs, isStarRule l = false
  ends : (∃ r, shownRuns rs = [r] ∧ r.strong = true) ∨
    beginsStrong rs = false ∧ endsStrong rs = false

variable {rs : List KeyRun} {r : KeyRun}

/-- A text is trimmed where its signs are those of a trimmed one. -/
theorem strip_of_signs {t u : Text} (h : signs u = (Text.strip t).map some) : Text.strip u = u := by
  apply Text.dropAround_of_ends
  · intro c head
    rw [← Bool.not_eq_true]
    intro blank
    have first := (head?_signs_iff blank).mpr head
    rw [h, List.head?_map] at first
    obtain ⟨d, hd, same⟩ := Option.map_eq_some_iff.mp first
    obtain rfl := Option.some.inj same
    rw [Text.not_head?_dropAround hd] at blank
    cases blank
  · intro c last
    rw [← Bool.not_eq_true]
    intro blank
    have final := (getLast?_signs_iff blank).mpr last
    rw [h, List.getLast?_map] at final
    obtain ⟨d, hd, same⟩ := Option.map_eq_some_iff.mp final
    obtain rfl := Option.some.inj same
    rw [Text.not_getLast?_dropAround hd] at blank
    cases blank

theorem trimSigns_pair (m : List (Option Char)) :
    trimSigns (none :: (m ++ [none])) = none :: (m ++ [none]) := by
  rw [trimSigns, List.dropWhile_cons_of_neg (by simp [isPadSign]), ← List.cons_append,
    List.rdropWhile_concat_neg _ _ _ (by simp [isPadSign])]

theorem trimSigns_behind {p : List (Option Char)} (pads : ∀ x ∈ p, isPadSign x = true)
    (m : List (Option Char)) : trimSigns (p ++ m) = trimSigns m := by
  rw [trimSigns, List.dropWhile_append_of_pos pads, trimSigns]

/-- The signs of a key that is one bold run. -/
theorem trimSigns_covered (alone : shownRuns rs = [r]) (strong : r.strong = true) :
    trimSigns (signs (keyContent rs)) =
      none :: none :: ((Text.strip r.text).map some ++ [none, none]) := by
  obtain ⟨ks, ls, rfl, before, shown, after⟩ := List.filter_eq_cons_iff.mp alone
  have blank {ks : List KeyRun} (hidden : ∀ k ∈ ks, ¬ (!Text.isBlank k.text) = true) :
      ∀ x ∈ ks.flatMap KeyRun.signs, isPadSign x = true := by
    intro x hx
    obtain ⟨k, hk, hx⟩ := List.mem_flatMap.mp hx
    exact KeyRun.isPadSign_of_mem (by simpa using hidden k hk) x hx
  obtain ⟨a, b, front, back, written⟩ := KeyRun.signs_of_strong strong (by simpa using shown)
  have behind : ∀ x ∈ b.map some ++ ls.flatMap KeyRun.signs, isPadSign x = true := by
    intro x hx
    rcases List.mem_append.mp hx with hx | hx
    · exact isPadSign_of_mem_map back x hx
    · exact blank (List.filter_eq_nil_iff.mp after) x hx
  have whole : signs (keyContent (ks ++ r :: ls)) = ks.flatMap KeyRun.signs ++ (a.map some ++
      ((none :: ((none :: ((Text.strip r.text).map some ++ [none])) ++ [none])) ++
        (b.map some ++ ls.flatMap KeyRun.signs))) := by
    rw [signs_keyContent, List.flatMap_append, List.flatMap_cons, written]
    simp
  rw [whole, trimSigns_behind (blank before), trimSigns_behind (isPadSign_of_mem_map front),
    trimSigns_append behind, trimSigns_pair]
  simp

theorem keepsStrong_covered (plain : ∀ l ∈ keyLines rs, isStarRule l = false)
    (alone : shownRuns rs = [r]) (strong : r.strong = true) : KeepsStrong rs (keyText rs) := by
  obtain ⟨u, line, inner⟩ :=
    exists_of_signs_strong ((signs_keyLine plain).trans (trimSigns_covered alone strong))
  have written : keyText rs = strongMark ++ (cellForm u ++ strongMark) := by
    rw [keyText_eq, line]
    exact (cellForm_append (c := '*') (by decide) ('*' :: '*' :: u) ['*']).trans (by
      rw [cellForm_cons (by decide) (Or.inl (by decide)),
        cellForm_cons (by decide) (Or.inl (by decide))]
      rfl)
  have trimmed : Text.strip (cellForm u) = cellForm u := strip_cellForm (strip_of_signs inner)
  have edges := strongEdges_strong ((strip_keyText rs).trans written)
  have left : stripStrong (keyText rs) = cellForm u := by rw [stripStrong_eq, edges, trimmed]
  have none : strongTexts (cellForm u) = some [] := by
    have outside := enclosed_text [] (Text.strip r.text)
    rw [List.append_nil] at outside
    rw [strongTexts_cellForm, strongTexts, inner, outside]
    rfl
  refine ⟨?_, ?_, ?_, ?_⟩
  · rw [edges]
  · intro _
    exact ⟨r, alone, strong⟩
  · rw [strongMarks_keyPart, left, strongMarks_of_strongTexts none]
    decide
  · rw [left, edges, ← written]
    exact strongTexts_keyText plain

theorem keepsStrong_plain (plain : ∀ l ∈ keyLines rs, isStarRule l = false)
    (begins : beginsStrong rs = false) (ends : endsStrong rs = false) :
    KeepsStrong rs (keyText rs) := by
  have trimmed := strip_keyText rs
  have edges : strongEdges (keyText rs) = ⟨[], keyText rs, []⟩ := by
    have parts := strongEdges_plain (t := keyText rs)
    rw [trimmed] at parts
    apply parts
    · rw [prefix_keyText_iff plain, begins]
      exact Bool.false_ne_true
    · rw [suffix_keyText_iff plain, ends]
      exact Bool.false_ne_true
  have left : stripStrong (keyText rs) = keyText rs := by rw [stripStrong_eq, edges, trimmed]
  refine ⟨?_, ?_, ?_, ?_⟩
  · rw [edges]
  · rw [edges]
    intro front
    exact absurd rfl front
  · rw [strongMarks_keyPart, left, strongMarks_of_strongTexts (strongTexts_keyText plain)]
    exact (even_two_mul _).add even_two
  · rw [left, edges, List.nil_append, List.append_nil]
    exact strongTexts_keyText plain

/-- A rule between asterisks leaves fewer of them than the bold runs need. -/
theorem KeepsStrong.plain (h : KeepsStrong rs (keyText rs)) :
    ∀ l ∈ keyLines rs, isStarRule l = false := by
  intro l hl
  rw [← Bool.not_eq_true]
  intro star
  have need := four_mul_length_le h.same
  have kept := count_none_stripStrong_le (keyText rs)
  have fewer := count_none_keyText_lt ⟨l, hl, star⟩
  rw [strip_keyText] at kept
  rw [count_none_keyContent] at fewer
  rw [List.length_map] at need
  omega

theorem KeepsStrong.endsAlike (h : KeepsStrong rs (keyText rs)) : EndsAlike rs := by
  refine ⟨h.plain, ?_⟩
  cases begins : beginsStrong rs with
  | true =>
    obtain ⟨t, ht⟩ := (prefix_keyText_iff h.plain).mpr begins
    left
    apply h.whole
    rw [strongEdges_of_begins ((strip_keyText rs).trans ht.symm)]
    exact List.cons_ne_nil _ _
  | false =>
    refine Or.inr ⟨rfl, ?_⟩
    rw [← Bool.not_eq_true]
    intro ends
    have other : ¬ strongMark <+: Text.strip (keyText rs) := by
      rw [strip_keyText, prefix_keyText_iff h.plain, begins]
      exact Bool.false_ne_true
    have closes : strongMark <:+ Text.strip (keyText rs) := by
      rw [strip_keyText]
      exact (suffix_keyText_iff h.plain).mpr ends
    obtain ⟨front, back⟩ := strongEdges_suffix other closes
    have together := h.together
    rw [front, back] at together
    exact absurd together.symm (List.cons_ne_nil _ _)

/-- The pairs of a key are taken off as they belong together exactly where its ends are alike. -/
theorem keepsStrong_iff (rs : List KeyRun) : KeepsStrong rs (keyText rs) ↔ EndsAlike rs := by
  constructor
  · intro h
    exact h.endsAlike
  · rintro ⟨plain, ⟨r, alone, strong⟩ | ⟨begins, ends⟩⟩
    · exact keepsStrong_covered plain alone strong
    · exact keepsStrong_plain plain begins ends

end laws

end Docmark.Markdown
