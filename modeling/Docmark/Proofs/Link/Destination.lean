import Docmark.Link.Resolve
import Docmark.Proofs.Markdown.Brackets
import Docmark.Proofs.Markdown.PlainLine

/-!
Where the destination of an inline link ends. Closing brackets are escaped with a look at the one
character in front of them, and opening ones never: so the bracket that is written last closes the
destination just where the brackets that are left are in pairs.
-/

namespace Docmark.Link

open Markdown
open Preview (isPunctuation)

/-- True for a character that may stand in a destination: no space and no control character. -/
def isDestinationChar (c : Char) : Bool :=
  32 < c.toNat && c.toNat != 127

/-- The destination that a text begins with, and what follows the bracket that closes it. -/
def readDestination (t : Text) : Option (Text × Text) :=
  (readBracketed .round t).filter fun (destination, _) =>
    destination.head? != some '<' && destination.all isDestinationChar

/-- A closing bracket without backslash gets one, unless an escaped backslash stands before it. -/
def guarded (before : Option Glyph) : List Glyph → List Glyph
  | [] => []
  | g :: gs =>
    (if g = .bare ')' ∧ before ≠ some (.escaped '\\') then .escaped ')' else g) ::
      guarded (some g) gs

/-- The brackets that are left without backslash: all that open, and few that close. -/
def leftBare (before : Option Glyph) : List Glyph → List Glyph
  | [] => []
  | g :: gs =>
    if g = .bare '(' ∨ g = .bare ')' ∧ before = some (.escaped '\\') then
      g :: leftBare (some g) gs
    else leftBare (some g) gs

section guarded

variable {gs : List Glyph} {before : Option Glyph}

theorem escapeBrackets_written (h : Legible gs) (before : Option Glyph)
    (lone : before = some (.bare '\\') →
      ∀ g, gs.head? = some g → ∃ d, g = .bare d ∧ isPunctuation d = false) :
    escapeBrackets (before.map Glyph.meant) (gs.flatMap Glyph.written) =
      (guarded before gs).flatMap Glyph.written := by
  induction h generalizing before with
  | nil => rfl
  | @escaped c gs mark rest ih =>
    have inner := ih (some (.escaped c)) (by simp)
    simp only [Option.map_some, Glyph.meant] at inner
    simp [guarded, Glyph.written, escapeBrackets, inner]
  | @bare c gs rest lone' ih =>
    have inner := ih (some (.bare c)) (by simpa using lone')
    simp only [Option.map_some, Glyph.meant] at inner
    by_cases closing : c = ')'
    · subst closing
      -- a lone backslash cannot stand in front of the bracket
      have slash : before.map Glyph.meant = some '\\' ↔ before = some (.escaped '\\') := by
        cases before with
        | none => simp
        | some g =>
          cases g with
          | escaped d => simp [Glyph.meant]
          | bare d =>
            have other : d ≠ '\\' := by
              rintro rfl
              obtain ⟨e, same, plain⟩ := lone rfl (.bare ')') rfl
              rw [← Glyph.bare.inj same] at plain
              exact absurd plain (by decide)
            simp [Glyph.meant, other]
      by_cases behind : before = some (.escaped '\\')
      · have same : before.map Glyph.meant = some '\\' := slash.mpr behind
        simp only [guarded, behind, ne_eq, not_true_eq_false, and_false, ↓reduceIte]
        simp [Glyph.written, escapeBrackets, inner, ← behind, same]
      · have other : before.map Glyph.meant ≠ some '\\' := mt slash.mp behind
        simp [guarded, Glyph.written, escapeBrackets, inner, other, behind]
    · simp [guarded, Glyph.written, escapeBrackets, inner, closing]

theorem legible_guarded (h : Legible gs) (before : Option Glyph) : Legible (guarded before gs) := by
  induction h generalizing before with
  | nil => exact .nil
  | escaped mark rest ih => exact .escaped mark (ih _)
  | @bare c gs rest lone ih =>
    by_cases taken : c = ')' ∧ before ≠ some (.escaped '\\')
    · rw [guarded, if_pos (by simpa using taken)]
      exact .escaped (by decide) (ih _)
    · rw [guarded, if_neg (by simpa using taken)]
      apply Legible.bare (ih _)
      intro slash g hg
      cases gs with
      | nil => simp [guarded] at hg
      | cons d gs =>
        obtain ⟨e, rfl, plain⟩ := lone slash d rfl
        have other : e ≠ ')' := by
          rintro rfl
          exact absurd plain (by decide)
        rw [guarded, List.head?_cons, if_neg (by simp [other])] at hg
        exact ⟨e, (Option.some.inj hg).symm, plain⟩

theorem glyphs_escapeBrackets (t : Text) :
    glyphs (escapeBrackets none t) = guarded none (glyphs t) := by
  have written := escapeBrackets_written (legible_glyphs t) none (by simp)
  rw [Option.map_none, flatMap_written_glyphs] at written
  rw [written, (legible_guarded (legible_glyphs t) none).glyphs_written]

theorem filter_guarded (before : Option Glyph) (gs : List Glyph) :
    (guarded before gs).filter (Glyph.isBracket .round) = leftBare before gs := by
  have isBracket (g : Glyph) :
      Glyph.isBracket .round g = (g == .bare '(' || g == .bare ')') := rfl
  induction gs generalizing before with
  | nil => rfl
  | cons g gs ih =>
    by_cases opening : g = .bare '('
    · simp [guarded, leftBare, isBracket, opening, ih]
    · by_cases closing : g = .bare ')'
      · by_cases behind : before = some (.escaped '\\')
        · simp [guarded, leftBare, isBracket, closing, behind, ih]
        · simp [guarded, leftBare, isBracket, closing, behind, ih]
      · simp [guarded, leftBare, isBracket, opening, closing, ih]

/-- Just the brackets that are left have to be in pairs. -/
theorem paired_guarded_iff {gs : List Glyph} :
    Paired .round (guarded none gs) ↔ Paired .round (leftBare none gs) := by
  apply paired_of_filter_eq
  rw [← filter_guarded, List.filter_filter]
  simp

theorem getLast?_guarded (before : Option Glyph) (gs : List Glyph) :
    (guarded before gs).getLast? = some (.bare '\\') ↔ gs.getLast? = some (.bare '\\') := by
  induction gs generalizing before with
  | nil => rfl
  | cons g gs ih =>
    cases gs with
    | nil =>
      rw [guarded, guarded, List.getLast?_singleton, List.getLast?_singleton]
      split
      · rename_i taken
        simp [taken.1]
      · rfl
    | cons d gs =>
      rw [guarded, guarded, List.getLast?_cons_cons, ← guarded, ih, List.getLast?_cons_cons]

theorem endsEscaping_escapeBrackets (t : Text) :
    EndsEscaping (escapeBrackets none t) ↔ EndsEscaping t := by
  rw [← getLast?_glyphs, glyphs_escapeBrackets, getLast?_guarded, getLast?_glyphs]

end guarded

section plain

variable {url : Text}

/-- Neither white space nor control characters are in such a URL. -/
theorem plain_of_all (h : (url.all fun c => !Text.isBlankChar c && isDestinationChar c) = true) :
    ∀ c ∈ url, Text.isBlankChar c = false ∧ isDestinationChar c = true := by
  simpa using h

theorem escapeBrackets_mem {c : Char} {before : Option Char} {t : Text}
    (h : c ∈ escapeBrackets before t) : c = '\\' ∨ c ∈ t := by
  induction t generalizing before with
  | nil => exact Or.inr h
  | cons d t ih =>
    rw [escapeBrackets] at h
    split at h
    · simp only [List.mem_cons] at h ⊢
      rcases h with h | h | h
      · exact Or.inl h
      · exact Or.inr (Or.inl h)
      · exact (ih h).imp_right Or.inr
    · simp only [List.mem_cons] at h ⊢
      rcases h with h | h
      · exact Or.inr (Or.inl h)
      · exact (ih h).imp_right Or.inr

/-- Without white space in it a URL is only given backslashes. -/
theorem escapeDestination_of_plain (plain : ∀ c ∈ url, Text.isBlankChar c = false) :
    escapeDestination url = escapeBrackets none url := by
  have space : ' ' ∉ escapeBrackets none url := by
    intro h
    rcases escapeBrackets_mem h with h | h
    · exact absurd h (by decide)
    · exact absurd (plain ' ' h) (by decide)
  have trimmed : Text.strip url = url := Text.dropAround_of_ends
    (fun c hc => plain c (List.mem_of_mem_head? hc))
    (fun c hc => plain c (List.mem_of_mem_getLast? hc))
  rw [escapeDestination, trimmed, Text.replaceChar_of_not_mem _ space]

theorem head?_escapeBrackets_ne (start : url.head? ≠ some '<') :
    (escapeBrackets none url).head? ≠ some '<' := by
  cases url with
  | nil => exact start
  | cons c r =>
    rw [escapeBrackets]
    split
    · simp
    · simpa using start

/-- Such a URL is read up to the bracket that closes the destination, whichever that is. -/
theorem readDestination_iff (plain : ∀ c ∈ url, isDestinationChar c = true)
    (start : url.head? ≠ some '<') (rest : Text) :
    readDestination (escapeBrackets none url ++ ')' :: rest) = some (escapeBrackets none url, rest) ↔
      Contained .round (escapeBrackets none url) := by
  have allowed : (escapeBrackets none url).all isDestinationChar = true := by
    rw [List.all_eq_true]
    intro c hc
    rcases escapeBrackets_mem hc with rfl | hc
    · decide
    · exact plain c hc
  have kept := head?_escapeBrackets_ne start
  rw [readDestination, Option.filter_eq_some_iff, ← readBracketed_iff (u := rest)]
  simp [allowed, kept, Brackets.round]

theorem leftBare_of_plain {t : Text} (free : '\\' ∉ t) (before : Option Glyph)
    (front : before ≠ some (.escaped '\\')) :
    leftBare before (t.map Glyph.bare) = (t.filter (· == '(')).map Glyph.bare := by
  induction t generalizing before with
  | nil => rfl
  | cons c t ih =>
    have rest := ih (fun h => free (List.mem_cons_of_mem c h)) (some (.bare c)) (by simp)
    by_cases opening : c = '('
    · simp [leftBare, opening, ← rest]
    · simp [leftBare, opening, front, rest]

/-- Without backslashes in a URL all its closing brackets are escaped. -/
theorem paired_leftBare_iff (free : '\\' ∉ url) :
    Paired .round (leftBare none (glyphs url)) ↔ '(' ∉ url := by
  rw [glyphs_of_not_mem free, leftBare_of_plain free none (by simp),
    paired_iff_not_mem (by simp [Brackets.round])]
  simp [Brackets.round]

end plain

/--
The destination of a link is closed by the bracket that is written behind it just where the brackets
left without backslash are in pairs and no backslash at the end escapes the last one. Without
backslashes in the URL this is so where it has no opening bracket.
-/
theorem format_destination {url : Text}
    (plain : ∀ c ∈ url, Text.isBlankChar c = false ∧ isDestinationChar c = true)
    (start : url.head? ≠ some '<') (label : Text) :
    (Paired .round (glyphs (escapeDestination url)) ↔ Paired .round (leftBare none (glyphs url))) ∧
    (∃ behind, format label url = '[' :: label ++ ']' :: '(' :: behind ∧
      (readDestination behind = some (escapeDestination url, []) ↔
        Paired .round (leftBare none (glyphs url)) ∧ ¬ EndsEscaping url)) ∧
    ('\\' ∉ url → (Paired .round (leftBare none (glyphs url)) ∧ ¬ EndsEscaping url ↔ '(' ∉ url)) := by
  have written := escapeDestination_of_plain fun c hc => (plain c hc).1
  have paired : Paired .round (glyphs (escapeDestination url)) ↔
      Paired .round (leftBare none (glyphs url)) := by
    rw [written, glyphs_escapeBrackets, paired_guarded_iff]
  refine ⟨paired, ⟨escapeDestination url ++ [')'], by simp [format], ?_⟩, ?_⟩
  · have read := readDestination_iff (fun c hc => (plain c hc).2) start []
    rw [← written] at read
    rw [read, contained_iff, ← paired, written, endsEscaping_escapeBrackets]
  · intro free
    rw [paired_leftBare_iff free]
    exact and_iff_left (not_endsEscaping_of_not_mem free)

/-- Brackets of all sorts: escaped ones, one that gets a backslash, and a pair that stays. -/
def pairedUrl : Text := "/a\\(b)(c\\\\)".toList

theorem pairedUrl_destination :
    (∀ c ∈ pairedUrl, Text.isBlankChar c = false ∧ isDestinationChar c = true) ∧
      pairedUrl.head? ≠ some '<' ∧
      escapeDestination pairedUrl = "/a\\(b\\)(c\\\\)".toList ∧
      ∃ behind, format ['x'] pairedUrl = "[x](".toList ++ behind ∧
        readDestination behind = some (escapeDestination pairedUrl, []) := by
  have plain := @plain_of_all pairedUrl (by decide)
  have start : pairedUrl.head? ≠ some '<' := by decide
  obtain ⟨-, ⟨behind, written, reads⟩, -⟩ := format_destination plain start ['x']
  have left : Paired .round (leftBare none (glyphs pairedUrl)) ∧ ¬ EndsEscaping pairedUrl := by
    decide
  exact ⟨plain, start, by decide, behind, written, reads.mpr left⟩

/-- Two backslashes do not escape the bracket behind them, and it gets no third one. -/
def slashedUrl : Text := "/a\\\\)".toList

theorem slashedUrl_ends_early :
    (∀ c ∈ slashedUrl, Text.isBlankChar c = false ∧ isDestinationChar c = true) ∧
      slashedUrl.head? ≠ some '<' ∧ escapeDestination slashedUrl = slashedUrl ∧
      ¬ Paired .round (glyphs (escapeDestination slashedUrl)) ∧
      ∃ behind, format ['x'] slashedUrl = "[x](".toList ++ behind ∧
        readDestination behind = some ("/a\\\\".toList, [')']) := by
  refine ⟨plain_of_all (by decide), by decide, by decide, by decide, slashedUrl ++ [')'],
    by decide, by decide⟩

end Docmark.Link
