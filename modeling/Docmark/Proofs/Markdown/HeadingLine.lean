import Docmark.Proofs.Markdown.BrokenLines

/-!
Headings read back from their line. No run of number signs at the end of a heading is read as the
one that closes it, and a break in it is read as a space.
-/

namespace Docmark.Markdown

/-- What is left of a heading without the run of number signs that closes it. -/
def dropCloser (t : Text) : Text :=
  let front := Text.dropEndWhile (· == '#') t
  if front.isEmpty || front.getLast?.any Text.isPad then front else t

/-- The level and the text of a line that begins with one to six number signs. -/
def readHeading (line : Text) : Option (Nat × Text) :=
  let signs := line.takeWhile (· == '#')
  let rest := line.dropWhile (· == '#')
  if 1 ≤ signs.length && signs.length ≤ 6 && (rest.isEmpty || rest.head? == some ' ') then
    some (signs.length, Preview.unescape (dropCloser (Text.dropAround Text.isPad rest)))
  else none

/-- A break in a heading is a space. -/
theorem SpellsLines.replaceBreaks {u t : Text} (h : SpellsLines u t) :
    Spells (replaceBreaks [' '] u) (Text.replaceChar '\n' [' '] t) := by
  induction h with
  | nil => exact .nil
  | plain bare inside _ ih =>
    rw [replaceBreaks_cons _ (Or.inl bare), Text.replaceChar_cons_of_ne _ inside]
    exact .plain bare ih
  | @escaped c u t mark rest ih =>
    by_cases feed : c = '\n'
    · subst feed
      exact .plain (by decide) ih
    · have next : (c :: u).head? ≠ some '\n' := fun head => feed (Option.some.inj head)
      rw [replaceBreaks_cons _ (Or.inr next), replaceBreaks_cons _ (Or.inr rest.head?_ne),
        Text.replaceChar_cons_of_ne _ feed]
      exact .escaped (mark.resolve_right feed) ih

theorem not_isPad_of_not_isBlankChar {c : Char} (h : Text.isBlankChar c = false) :
    Text.isPad c = false := by
  cases pad : Text.isPad c with
  | false => rfl
  | true =>
    rw [Text.isPad, Bool.or_eq_true, beq_iff_eq, beq_iff_eq] at pad
    rcases pad with rfl | rfl
    all_goals exact absurd h (by decide)

/-- A spelling begins and ends as what it means, or with a backslash. -/
theorem Spells.trimmed {u t : Text} (h : Spells u t) (line : '\n' ∉ t) (trimmed : Text.Trimmed t) :
    Text.Trimmed u := by
  refine Text.trimmed_of_ends (fun none => trimmed.ne_nil (h.eq_nil_iff.mp none)) ?_ ?_
  · intro c hc
    cases h with
    | nil => cases hc
    | plain bare rest => exact trimmed.head hc
    | escaped mark rest =>
      obtain rfl := Option.some.inj hc
      decide
  · intro c hc
    rw [(h.spellsLines line).getLast?] at hc
    exact trimmed.last hc

/-- The run at the end of a heading closes nothing, or is escaped. -/
theorem escapeHeading_cases {t : Text} (line : '\n' ∉ t) (trimmed : Text.Trimmed t) :
    escapeHeading t = t ∧ dropCloser t = t ∨
      ∃ front back, t = front ++ '#' :: back ∧ escapeHeading t = front ++ '\\' :: '#' :: back ∧
        (∀ c ∈ back, c = '#') ∧ front.getLast? ≠ some '\\' := by
  have body := Text.endsWith_newline_of_not_mem line
  have core : Text.dropEndWhile Text.isPad t = t := Text.dropEndWhile_of_not_getLast? fun c hc =>
    not_isPad_of_not_isBlankChar (trimmed.last hc)
  have whole := Text.dropEndWhile_append_takeEndWhile (· == '#') t
  unfold escapeHeading dropCloser
  simp only [body, Bool.false_eq_true, ↓reduceIte, core]
  generalize hf : Text.dropEndWhile (· == '#') t = front at whole ⊢
  cases hc : Text.takeEndWhile (· == '#') t with
  | nil =>
    rw [hc, List.append_nil] at whole
    exact Or.inl ⟨rfl, by rw [whole, ite_self]⟩
  | cons c back =>
    have signs : ∀ d ∈ c :: back, d = '#' := by
      intro d hd
      rw [← hc] at hd
      have sign := Text.of_mem_takeEndWhile hd
      exact beq_iff_eq.mp sign
    obtain rfl := signs c (by simp)
    rw [hc] at whole
    cases closes : front.isEmpty || front.getLast?.any Text.isPad with
    | false => exact Or.inl ⟨rfl, rfl⟩
    | true =>
      refine Or.inr ⟨front, back, whole.symm, ?_, fun d hd => signs d (by simp [hd]), ?_⟩
      · rw [← whole]
        simp [insertBackslash]
      · intro last
        rw [last] at closes
        cases front with
        | nil => cases last
        | cons d r => exact absurd closes (by simp [Text.isPad])

/-- Nothing of an escaped heading is read as the run that closes it. -/
theorem Spells.escapeHeading {u t : Text} (h : Spells u t) (line : '\n' ∉ t)
    (trimmed : Text.Trimmed t) :
    Spells (escapeHeading u) t ∧ dropCloser (escapeHeading u) = escapeHeading u := by
  have inside : '\n' ∉ u := (h.spellsLines line).newline_not_mem line
  rcases escapeHeading_cases inside (h.trimmed line trimmed) with
    ⟨same, closed⟩ | ⟨front, back, whole, he, signs, last⟩
  · rw [same]
    exact ⟨h, closed⟩
  · rw [whole] at h
    refine ⟨he ▸ h.insert last (by decide) (by decide), ?_⟩
    have sign : ∀ c ∈ '#' :: back, (c == '#') = true := by
      intro c hc
      rcases List.mem_cons.mp hc with rfl | hc
      · rfl
      · exact beq_iff_eq.mpr (signs c hc)
    have left : Text.dropEndWhile (· == '#') (front ++ ['\\']) = front ++ ['\\'] := by
      rw [Text.dropEndWhile_append, if_neg (by decide)]
      rfl
    rw [he, dropCloser, List.append_cons, Text.dropEndWhile_append_of_pos sign, left]
    simp [Text.isPad]

/-- The line of a heading with a text. -/
def headingLine (level : Nat) (t : Text) : Text :=
  if t.isEmpty then List.replicate level '#' else List.replicate level '#' ++ ' ' :: t

theorem readHeading_headingLine {level : Nat} (low : 1 ≤ level) (high : level ≤ 6) {t : Text}
    (ends : Text.strip t = t) :
    readHeading (headingLine level t) = some (level, Preview.unescape (dropCloser t)) := by
  have signs : ∀ c ∈ List.replicate level '#', (c == '#') = true := by
    intro c hc
    rw [List.eq_of_mem_replicate hc]
    rfl
  have counted : (decide (1 ≤ level) && decide (level ≤ 6)) = true := by simp [low, high]
  cases t with
  | nil =>
    have whole : headingLine level [] = List.replicate level '#' := rfl
    have ended : (([] : Text).isEmpty || ([] : Text).head? == some ' ') = true := rfl
    simp only [whole, readHeading, List.takeWhile_eq_self_iff.mpr signs,
      List.dropWhile_eq_nil_iff.mpr signs, List.length_replicate, counted, ended, Bool.and_self,
      ↓reduceIte]
    rfl
  | cons c r =>
    have whole : headingLine level (c :: r) = List.replicate level '#' ++ ' ' :: c :: r := rfl
    obtain ⟨front, rest⟩ := Text.span_stop signs (a := ' ') (by decide) (c :: r)
    have inner : Text.dropAround Text.isPad (' ' :: c :: r) = c :: r := by
      have trimmed : Text.Trimmed (c :: r) := ⟨List.cons_ne_nil c r, ends⟩
      have space : Text.dropAround Text.isPad (' ' :: c :: r) =
          Text.dropAround Text.isPad (c :: r) := rfl
      rw [space]
      exact Text.dropAround_of_ends (fun d hd => not_isPad_of_not_isBlankChar (trimmed.head hd))
        fun d hd => not_isPad_of_not_isBlankChar (trimmed.last hd)
    have spaced : ((' ' :: c :: r).isEmpty || (' ' :: c :: r).head? == some ' ') = true := rfl
    simp only [whole, readHeading, front, rest, List.length_replicate, inner, counted, spaced,
      Bool.and_self, ↓reduceIte]

/-- A heading is read as it is meant, with a space for each break, and trimmed. -/
theorem SpellsLines.readHeading_headingText {u t : Text} (h : SpellsLines u t) {level : Nat}
    (low : 1 ≤ level) (high : level ≤ 6) :
    readHeading (headingLine level (Convert.headingText true u)) =
      some (level, Text.strip (Text.replaceChar '\n' [' '] t)) := by
  have line : '\n' ∉ Text.replaceChar '\n' [' '] t := Text.not_mem_replaceChar (by decide) t
  have spelled := h.replaceBreaks
  have unbroken := (spelled.spellsLines line).newline_not_mem line
  have written : Convert.headingText true u =
      escapeHeading (Text.strip (Markdown.replaceBreaks [' '] u)) := by
    simp only [Convert.headingText, Text.replaceChar_of_not_mem _ unbroken, ↓reduceIte]
  have meant := spelled.strip
  rw [written]
  cases blank : Text.isBlank (Text.replaceChar '\n' [' '] t) with
  | true =>
    rw [Text.strip_eq_nil_iff.mpr blank] at meant ⊢
    rw [meant.eq_nil_iff.mpr rfl]
    exact readHeading_headingLine low high rfl
  | false =>
    have inside : '\n' ∉ Text.strip (Text.replaceChar '\n' [' '] t) :=
      fun hm => line (Text.mem_of_mem_strip hm)
    obtain ⟨kept, closed⟩ := meant.escapeHeading inside (Text.trimmed_strip blank)
    rw [readHeading_headingLine low high (kept.trimmed inside (Text.trimmed_strip blank)).stripped,
      closed, kept.unescape]

end Docmark.Markdown
