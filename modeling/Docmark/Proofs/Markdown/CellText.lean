import Docmark.Markdown.Table
import Docmark.Proofs.Markdown.PlainLine
import Docmark.Proofs.Markdown.StrongText

/-!
Paragraphs on the single line of a cell. Tags stand for their line breaks, and no pair of asterisks
is lost or won by them.
-/

namespace Docmark.Markdown

open Preview (isPunctuation)

/-- A text on one line, with tags for its breaks. -/
def cellForm (t : Text) : Text :=
  Text.replaceChar '\n' lineBreak (replaceBreaks lineBreak t)

/-- The signs of such a line, from those of the text. -/
def cellSigns : List (Option Char) → List (Option Char)
  | some '\\' :: some '\n' :: r => lineBreak.map some ++ cellSigns r
  | some '\n' :: r => lineBreak.map some ++ cellSigns r
  | x :: r => x :: cellSigns r
  | [] => []

section cellForm

variable {c : Char} {r : Text}

theorem cellForm_newline (r : Text) : cellForm ('\n' :: r) = lineBreak ++ cellForm r := by
  rw [cellForm, replaceBreaks_cons lineBreak (Or.inl (by decide)), Text.replaceChar,
    List.flatMap_cons, if_pos rfl]
  rfl

theorem cellForm_break (r : Text) : cellForm ('\\' :: '\n' :: r) = lineBreak ++ cellForm r := by
  rw [cellForm, replaceBreaks, Text.replaceChar, List.flatMap_append]
  rfl

theorem cellForm_cons (inside : c ≠ '\n') (h : c ≠ '\\' ∨ r.head? ≠ some '\n') :
    cellForm (c :: r) = c :: cellForm r := by
  rw [cellForm, replaceBreaks_cons lineBreak h, Text.replaceChar_cons_of_ne lineBreak inside]
  rfl

/-- Only a line feed is written together with what stands in front of it. -/
theorem cellForm_append (inside : c ≠ '\n') (u v : Text) :
    cellForm (u ++ c :: v) = cellForm u ++ cellForm (c :: v) := by
  fun_induction replaceBreaks lineBreak u with
  | case1 => rfl
  | case2 r ih =>
    rw [List.cons_append, List.cons_append, cellForm_break, cellForm_break, ih, List.append_assoc]
  | case3 d r other ih =>
    rw [List.cons_append]
    by_cases feed : d = '\n'
    · subst feed
      rw [cellForm_newline, cellForm_newline, ih, List.append_assoc]
    · have lone : d ≠ '\\' ∨ r.head? ≠ some '\n' := by
        by_cases slash : d = '\\'
        · right
          intro next
          obtain ⟨s, hs⟩ := List.head?_eq_some_iff.mp next
          exact other s slash hs
        · exact Or.inl slash
      have longer : d ≠ '\\' ∨ (r ++ c :: v).head? ≠ some '\n' := by
        cases r with
        | nil => exact Or.inr fun next => inside (Option.some.inj next)
        | cons e r => exact lone
      rw [cellForm_cons feed longer, cellForm_cons feed lone, ih, List.cons_append]

/-- A trimmed text is trimmed on its line. -/
theorem strip_cellForm {t : Text} (trimmed : Text.strip t = t) :
    Text.strip (cellForm t) = cellForm t := by
  have inside {d : Char} (shown : Text.isBlankChar d = false) : d ≠ '\n' := by
    rintro rfl
    exact absurd shown (by decide)
  apply Text.dropAround_of_ends
  · intro d head
    cases t with
    | nil => cases head
    | cons c r =>
      have shown : Text.isBlankChar c = false := by
        apply Text.not_head?_dropAround (t := c :: r)
        exact (congrArg List.head? trimmed).trans rfl
      by_cases broken : c = '\\' ∧ r.head? = some '\n'
      · obtain ⟨rfl, next⟩ := broken
        obtain ⟨s, rfl⟩ := List.head?_eq_some_iff.mp next
        rw [cellForm_break] at head
        rw [← Option.some.inj head]
        decide
      · rw [cellForm_cons (inside shown) (not_and_or.mp broken)] at head
        exact Option.some.inj head ▸ shown
  · intro d last
    rcases List.eq_nil_or_concat' t with rfl | ⟨u, c, rfl⟩
    · cases last
    · have shown : Text.isBlankChar c = false := by
        apply Text.not_getLast?_dropAround (t := u ++ [c])
        exact (congrArg List.getLast? trimmed).trans List.getLast?_concat
      have alone : cellForm [c] = [c] :=
        cellForm_cons (inside shown) (Or.inr (Option.some_ne_none _ ∘ Eq.symm))
      rw [cellForm_append (inside shown), alone, List.getLast?_concat] at last
      exact Option.some.inj last ▸ shown

/-- What a cell of one paragraph holds. -/
theorem joinCell_paragraph (t : Text) : (joinCell [t]).1 = cellForm (Text.strip t) := by
  by_cases none : Text.strip t = []
  · simp [joinCell, none, Text.joinWith, cellForm, replaceBreaks, Text.replaceChar]
  · simp [joinCell, none, Text.joinWith, cellForm]

end cellForm

section cellSigns

variable {x : Option Char} {m : List (Option Char)}

theorem cellSigns_cons (inside : x ≠ some '\n')
    (h : x ≠ some '\\' ∨ m.head? ≠ some (some '\n')) : cellSigns (x :: m) = x :: cellSigns m := by
  rw [cellSigns]
  · intro r slash feed
    rcases h with h | h
    · exact h slash
    · apply h
      rw [feed]
      rfl
  · exact inside

theorem sign_bare_ne {c d : Char} (other : c ≠ d) : (Glyph.bare c).sign ≠ some d := by
  by_cases star : c = '*'
  · rw [star]
    exact Option.some_ne_none d ∘ Eq.symm
  · rw [sign_bare star]
    exact fun same => other (Option.some.inj same)

theorem signs_newline (r : Text) : signs ('\n' :: r) = some '\n' :: signs r :=
  signs_cons (by decide) r

theorem signs_cellForm (t : Text) : signs (cellForm t) = cellSigns (signs t) := by
  induction t using glyphs.induct with
  | case1 c r mark ih =>
    have inside : c ≠ '\n' := by
      rintro rfl
      exact absurd mark (by decide)
    have next : (c :: r).head? ≠ some '\n' := fun head => inside (Option.some.inj head)
    rw [signs_escaped mark, cellForm_cons (by decide) (Or.inr next)]
    by_cases broken : c = '\\' ∧ r.head? = some '\n'
    · -- the second backslash goes with the line feed, the first one escapes the tag
      obtain ⟨rfl, head⟩ := broken
      obtain ⟨s, rfl⟩ := List.head?_eq_some_iff.mp head
      rw [cellForm_newline, signs_newline] at ih
      rw [cellForm_break, signs_newline]
      calc signs ('\\' :: (lineBreak ++ cellForm s))
        _ = signs (lineBreak ++ cellForm s) := signs_escaped (by decide) _
        _ = cellSigns (some '\n' :: signs s) := ih
    · have apart : c ≠ '\\' ∨ r.head? ≠ some '\n' := not_and_or.mp broken
      have apart' : some c ≠ some '\\' ∨ (signs r).head? ≠ some (some '\n') :=
        apart.imp (fun other same => other (Option.some.inj same))
          (mt (head?_signs_iff (by decide)).mp)
      rw [cellForm_cons inside apart, signs_escaped mark, ih,
        cellSigns_cons (fun same => inside (Option.some.inj same)) apart']
  | case2 c r mark ih =>
    have plain : isPunctuation c = false := by simpa using mark
    rw [signs_lone plain]
    by_cases feed : c = '\n'
    · subst feed
      rw [cellForm_newline, signs_newline] at ih
      rw [cellForm_break, signs_newline, ih]
      rfl
    · have other : c ≠ '\\' := by
        rintro rfl
        exact absurd plain (by decide)
      have next : (c :: r).head? ≠ some '\n' := fun head => feed (Option.some.inj head)
      have written : cellForm (c :: r) = c :: cellForm r := cellForm_cons feed (Or.inl other)
      rw [cellForm_cons (by decide) (Or.inr next), written, signs_lone plain, ← written, ih,
        cellSigns_cons (by decide) (Or.inr (mt (head?_signs_iff (by decide)).mp next))]
  | case3 c r lone ih =>
    by_cases feed : c = '\n'
    · subst feed
      rw [cellForm_newline, signs_newline, cellSigns, ← ih]
      rfl
    · by_cases slash : c = '\\'
      · have last : r = [] := by
          cases r with
          | nil => rfl
          | cons d r => exact absurd rfl (lone d r slash)
        rw [slash, last]
        rfl
      · rw [cellForm_cons feed (Or.inl slash), signs_cons slash, signs_cons slash, ih,
          cellSigns_cons (sign_bare_ne feed) (Or.inl (sign_bare_ne slash))]
  | case4 => rfl

theorem map_modifyHead {f g h : Text → Text} (same : ∀ t, h (f t) = g (h t)) (l : List Text) :
    (l.modifyHead f).map h = (l.map h).modifyHead g := by
  cases l with
  | nil => rfl
  | cons t l => rw [List.modifyHead_cons, List.map_cons, same, List.map_cons, List.modifyHead_cons]

theorem head?_cellSigns_none (m : List (Option Char)) :
    (cellSigns m).head? = some none ↔ m.head? = some none := by
  fun_cases cellSigns m with
  | case1 => simp [lineBreak]
  | case2 => simp [lineBreak]
  | case3 => rfl
  | case4 => rfl

theorem cellSigns_ne_nil (ne : m ≠ []) : cellSigns m ≠ [] := by
  fun_cases cellSigns m with
  | case1 => simp [lineBreak]
  | case2 => simp [lineBreak]
  | case3 => simp
  | case4 => exact absurd rfl ne

theorem getLast?_cellSigns_break {r : List (Option Char)}
    (h : (lineBreak.map some ++ cellSigns r).getLast? = some none) :
    r ≠ [] ∧ (cellSigns r).getLast? = some none := by
  have inner : r ≠ [] := by
    rintro rfl
    exact absurd h (by decide)
  rw [List.getLast?_append_of_ne_nil _ (cellSigns_ne_nil inner)] at h
  exact ⟨inner, h⟩

theorem getLast?_cellSigns_none (h : (cellSigns m).getLast? = some none) :
    m.getLast? = some none := by
  fun_induction cellSigns m with
  | case1 r ih =>
    obtain ⟨inner, last⟩ := getLast?_cellSigns_break h
    obtain ⟨x, s, rfl⟩ := List.exists_cons_of_ne_nil inner
    rw [List.getLast?_cons_cons, List.getLast?_cons_cons, ih last]
  | case2 r ih =>
    obtain ⟨inner, last⟩ := getLast?_cellSigns_break h
    obtain ⟨x, s, rfl⟩ := List.exists_cons_of_ne_nil inner
    rw [List.getLast?_cons_cons, ih last]
  | case3 x r _ _ ih =>
    cases r with
    | nil => exact h
    | cons y s =>
      obtain ⟨z, n, hz⟩ := List.exists_cons_of_ne_nil (cellSigns_ne_nil (List.cons_ne_nil y s))
      rw [hz, List.getLast?_cons_cons, ← hz] at h
      rw [List.getLast?_cons_cons, ih h]
  | case4 => cases h

theorem head?_of_segments {m : List (Option Char)} {t : Text} {l : List Text} {c : Char}
    (whole : segments m = t :: l) (head : t.head? = some c) (other : c ≠ '*') :
    m.head? = some (some c) := by
  fun_cases segments m with
  | case1 r =>
    rw [segments] at whole
    obtain ⟨rfl, -⟩ := List.cons.inj whole
    cases head
  | case2 r single =>
    have alone : r.head? ≠ some none := by
      intro next
      obtain ⟨s, hs⟩ := List.head?_eq_some_iff.mp next
      exact single s hs
    rw [segments_single alone] at whole
    cases inner : segments r with
    | nil =>
      rw [inner] at whole
      cases whole
    | cons u l' =>
      rw [inner] at whole
      obtain ⟨rfl, -⟩ := List.cons.inj whole
      exact absurd (Option.some.inj head).symm other
  | case3 d r =>
    rw [segments] at whole
    cases inner : segments r with
    | nil =>
      rw [inner] at whole
      cases whole
    | cons u l' =>
      rw [inner] at whole
      obtain ⟨rfl, -⟩ := List.cons.inj whole
      exact congrArg some head
  | case4 =>
    obtain ⟨rfl, -⟩ := List.cons.inj whole
    cases head

/-- Pairs of asterisks are in their places, and each piece between them is written on one line. -/
theorem segments_cellSigns (m : List (Option Char)) :
    segments (cellSigns m) = (segments m).map cellForm := by
  fun_induction segments m with
  | case1 r ih =>
    rw [cellSigns_cons (by simp) (Or.inl (by simp)), cellSigns_cons (by simp) (Or.inl (by simp)),
      segments, ih]
    rfl
  | case2 r single ih =>
    have alone : (cellSigns r).head? ≠ some none := by
      rw [Ne, head?_cellSigns_none]
      intro head
      obtain ⟨s, rfl⟩ := List.head?_eq_some_iff.mp head
      exact single s rfl
    have star (t : Text) : cellForm ('*' :: t) = '*' :: cellForm t :=
      cellForm_cons (by decide) (Or.inl (by decide))
    rw [cellSigns_cons (by simp) (Or.inl (by simp)), segments_single alone, ih,
      map_modifyHead star]
  | case3 c r ih =>
    by_cases feed : c = '\n'
    · subst feed
      rw [cellSigns, segments_text, ih, map_modifyHead cellForm_newline]
    · by_cases broken : c = '\\' ∧ r.head? = some (some '\n')
      · obtain ⟨rfl, head⟩ := broken
        obtain ⟨s, rfl⟩ := List.head?_eq_some_iff.mp head
        calc segments (lineBreak.map some ++ cellSigns s)
          _ = ((segments s).modifyHead ('\n' :: ·)).map cellForm := ih
          _ = ((segments s).map cellForm).modifyHead (lineBreak ++ ·) :=
            map_modifyHead cellForm_newline _
          _ = ((segments s).modifyHead fun t => '\\' :: '\n' :: t).map cellForm :=
            (map_modifyHead cellForm_break _).symm
          _ = (((segments s).modifyHead ('\n' :: ·)).modifyHead ('\\' :: ·)).map cellForm := by
            rw [List.modifyHead_modifyHead]
            rfl
      · have apart : some c ≠ some '\\' ∨ r.head? ≠ some (some '\n') :=
          (not_and_or.mp broken).imp_left fun other same => other (Option.some.inj same)
        rw [cellSigns_cons (fun same => feed (Option.some.inj same)) apart, segments, ih]
        cases pieces : segments r with
        | nil => rfl
        | cons t l =>
          have apart' : c ≠ '\\' ∨ t.head? ≠ some '\n' :=
            (not_and_or.mp broken).imp_right
              (mt fun head => head?_of_segments pieces head (by decide))
          have first : cellForm (c :: t) = c :: cellForm t := cellForm_cons feed apart'
          rw [List.modifyHead_cons, List.map_cons, List.map_cons, first, List.modifyHead_cons]
  | case4 => rfl

/-- The strong texts of a cell are those of its paragraph, each on one line. -/
theorem strongTexts_cellForm (t : Text) :
    strongTexts (cellForm t) = (strongTexts t).map (List.map cellForm) := by
  rw [strongTexts, signs_cellForm, segments_cellSigns, strongTexts]
  induction segments (signs t) using enclosed.induct with
  | case1 => rfl
  | case2 => rfl
  | case3 u v rest ih =>
    rw [List.map_cons, List.map_cons, enclosed, ih, enclosed, Option.map_map, Option.map_map]
    rfl

theorem count_none_cellSigns (m : List (Option Char)) :
    (cellSigns m).count none = m.count none := by
  fun_induction cellSigns m with
  | case1 r ih => simp [lineBreak, ih]
  | case2 r ih => simp [lineBreak, ih]
  | case3 x r _ _ ih => rw [List.count_cons, List.count_cons, ih]
  | case4 => rfl

end cellSigns

end Docmark.Markdown
