import Docmark.Convert.Block
import Docmark.Proofs.Markdown.Framed
import Mathlib.Data.List.Induction

/-!
Paragraphs with line breaks in them. A paragraph is trimmed after the breaks at its end are taken
off, so a break that has other white space behind it loses its line feed and leaves its backslash.
-/

namespace Docmark.Text

/-- White space that does not end a line. -/
def isLineSpace (c : Char) : Bool :=
  isBlankChar c && c != '\n'

/-- Trimmed, but with the line breaks in front of the first character that is shown. -/
def trimBroken (t : Text) : Text :=
  dropEndWhile isBlankChar (t.dropWhile isLineSpace)

/-- Behind a line break that nothing is shown behind, there are only other line breaks. -/
def BreaksLast (t : Text) : Prop :=
  ∀ a b, t = a ++ '\n' :: b → isBlank b = true → ∀ c ∈ b, c = '\n'

/-- What is left when first the breaks and then the white space in front of them are taken off. -/
def beforeBreaks (t : Text) : Text :=
  dropEndWhile isLineSpace (dropEndWhile (· == '\n') t)

theorem isBlankChar_of_isLineSpace {c : Char} (h : isLineSpace c = true) : isBlankChar c = true := by
  rw [isLineSpace, Bool.and_eq_true] at h
  exact h.1

theorem ne_of_isLineSpace {c : Char} (h : isLineSpace c = true) : c ≠ '\n' := by
  rw [isLineSpace, Bool.and_eq_true, bne_iff_ne] at h
  exact h.2

theorem not_isBlankChar_of_not_isLineSpace {c : Char} (h : isLineSpace c = false) (line : c ≠ '\n') :
    isBlankChar c = false := by
  rw [isLineSpace, Bool.and_eq_false_iff] at h
  rcases h with blank | feed
  · exact blank
  · exact absurd (by simpa using feed) line

/-- A text, up to where its last breaks and the white space in front of them begin. -/
theorem exists_beforeBreaks (t : Text) : ∃ pads breaks, t = beforeBreaks t ++ (pads ++ breaks) ∧
    (∀ c ∈ pads, isLineSpace c = true) ∧ (∀ c ∈ breaks, c = '\n') ∧
    (pads = [] → (beforeBreaks t).getLast? ≠ some '\n') := by
  obtain ⟨breaks, whole, feeds⟩ := exists_dropEndWhile (· == '\n') t
  obtain ⟨pads, inner, spaces⟩ := exists_dropEndWhile isLineSpace (dropEndWhile (· == '\n') t)
  refine ⟨pads, breaks, ?_, spaces, ?_, ?_⟩
  · rw [← List.append_assoc, beforeBreaks, ← inner, ← whole]
  · intro c hc
    exact beq_iff_eq.mp (feeds c hc)
  · intro none last
    rw [none, List.append_nil] at inner
    rw [beforeBreaks, ← inner] at last
    have := not_getLast?_dropEndWhile last
    simp at this

theorem isBlankChar_of_mem_end {pads breaks : Text} (spaces : ∀ c ∈ pads, isLineSpace c = true)
    (feeds : ∀ c ∈ breaks, c = '\n') : ∀ c ∈ pads ++ breaks, isBlankChar c = true := by
  intro c hc
  rcases List.mem_append.mp hc with hc | hc
  · exact isBlankChar_of_isLineSpace (spaces c hc)
  · exact isBlankChar_of_eq_newline (feeds c hc)

/-- No break is left exactly where none had white space behind it. -/
theorem breaksLast_iff (t : Text) : BreaksLast t ↔ (beforeBreaks t).getLast? ≠ some '\n' := by
  constructor
  · intro h last
    obtain ⟨pads, breaks, whole, spaces, feeds, left⟩ := exists_beforeBreaks t
    obtain ⟨front, hf⟩ := List.getLast?_eq_some_iff.mp last
    have none : pads = [] := by
      rw [List.eq_nil_iff_forall_not_mem]
      intro c hc
      refine ne_of_isLineSpace (spaces c hc) (h front (pads ++ breaks) ?_ ?_ c ?_)
      · rw [hf] at whole
        rw [whole, List.append_assoc]
        rfl
      · exact List.all_eq_true.mpr (isBlankChar_of_mem_end spaces feeds)
      · exact List.mem_append_left _ hc
    exact left none last
  · intro h a b whole blank
    by_contra other
    have behind : dropEndWhile (· == '\n') b ≠ [] := by
      intro none
      apply other
      intro c hc
      exact beq_iff_eq.mp (dropEndWhile_eq_nil_iff.mp none c hc)
    have inner : beforeBreaks t =
        dropEndWhile isLineSpace ((a ++ ['\n']) ++ dropEndWhile (· == '\n') b) := by
      rw [beforeBreaks, whole, List.append_cons, dropEndWhile_append, if_neg behind]
    rw [inner, dropEndWhile_append] at h
    split at h
    · apply h
      rw [dropEndWhile_append, if_neg (by decide)]
      exact List.getLast?_concat
    · rename_i filled
      obtain ⟨c, last⟩ := Option.isSome_iff_exists.mp (List.getLast?_isSome.mpr filled)
      have inside : c ∈ b := mem_of_mem_dropEndWhile
        (mem_of_mem_dropEndWhile (List.mem_of_getLast? last))
      apply h
      rw [List.getLast?_append, last]
      by_contra line
      have shown := not_isBlankChar_of_not_isLineSpace (not_getLast?_dropEndWhile last)
        (fun he => line (congrArg some he))
      rw [List.all_eq_true.mp blank c inside] at shown
      cases shown

theorem trimBroken_eq (t : Text) :
    trimBroken t = dropEndWhile isBlankChar ((beforeBreaks t).dropWhile isLineSpace) := by
  obtain ⟨pads, breaks, whole, spaces, feeds, -⟩ := exists_beforeBreaks t
  rw [trimBroken]
  conv_lhs => rw [whole]
  exact dropEndWhile_dropWhile_append (isBlankChar_of_mem_end spaces feeds) _

end Docmark.Text

namespace Docmark.Markdown

open Preview (isPunctuation)

/-- What lines are read as: a backslash breaks the line that it ends, and makes punctuation plain. -/
def readLines : Text → Text
  | '\\' :: c :: r =>
    if c = '\n' || isPunctuation c then c :: readLines r else '\\' :: readLines (c :: r)
  | c :: r => c :: readLines r
  | [] => []

/--
A text with a backslash before each of its backslashes and line feeds and before some of its
punctuation, and the text that is meant.
-/
inductive SpellsLines : Text → Text → Prop
  | nil : SpellsLines [] []
  | plain {c : Char} {u t : Text} (bare : c ≠ '\\') (inside : c ≠ '\n') (rest : SpellsLines u t) :
    SpellsLines (c :: u) (c :: t)
  | escaped {c : Char} {u t : Text} (mark : isPunctuation c = true ∨ c = '\n')
    (rest : SpellsLines u t) : SpellsLines ('\\' :: c :: u) (c :: t)

theorem spellsLines_hardBreak : SpellsLines hardBreak ['\n'] :=
  .escaped (Or.inr rfl) .nil

/-- A spelling is read to its end, whatever stands behind it. -/
theorem SpellsLines.readLines_append {u t : Text} (h : SpellsLines u t) (rest : Text) :
    readLines (u ++ rest) = t ++ readLines rest := by
  induction h with
  | nil => rfl
  | @plain c u t bare _ _ ih =>
    rw [List.cons_append, readLines, ih, List.cons_append]
    intro d r he _
    exact bare he
  | @escaped c u t mark _ ih =>
    have read : (decide (c = '\n') || isPunctuation c) = true := by
      rw [Bool.or_eq_true, decide_eq_true_eq]
      exact mark.symm
    rw [List.cons_append, List.cons_append, readLines, if_pos read, ih, List.cons_append]

theorem SpellsLines.append {u t v w : Text} (h : SpellsLines u t) (h' : SpellsLines v w) :
    SpellsLines (u ++ v) (t ++ w) := by
  induction h with
  | nil => exact h'
  | plain bare inside _ ih => exact .plain bare inside ih
  | escaped mark _ ih => exact .escaped mark ih

theorem spellsLines_flatMap {α : Type} {f g : α → Text} {as : List α}
    (h : ∀ a ∈ as, SpellsLines (f a) (g a)) : SpellsLines (as.flatMap f) (as.flatMap g) := by
  induction as with
  | nil => exact .nil
  | cons a as ih => exact (h a (by simp)).append (ih fun b hb => h b (by simp [hb]))

/-- A text of one line is spelled as any other. -/
theorem Spells.spellsLines {u t : Text} (h : Spells u t) (line : '\n' ∉ t) : SpellsLines u t := by
  induction h with
  | nil => exact .nil
  | plain bare _ ih =>
    rw [List.mem_cons, not_or] at line
    exact .plain bare (Ne.symm line.1) (ih line.2)
  | escaped mark _ ih =>
    rw [List.mem_cons, not_or] at line
    exact .escaped (Or.inl mark) (ih line.2)

theorem SpellsLines.spells {u t : Text} (h : SpellsLines u t) (line : '\n' ∉ t) : Spells u t := by
  induction h with
  | nil => exact .nil
  | plain bare _ _ ih =>
    rw [List.mem_cons, not_or] at line
    exact .plain bare (ih line.2)
  | escaped mark _ ih =>
    rw [List.mem_cons, not_or] at line
    exact .escaped (mark.resolve_right (Ne.symm line.1)) (ih line.2)

/-- What is meant can be cut only where its spelling can. -/
theorem SpellsLines.split {u t v : Text} (h : SpellsLines u (t ++ v)) :
    ∃ a b, u = a ++ b ∧ SpellsLines a t ∧ SpellsLines b v := by
  induction t generalizing u with
  | nil => exact ⟨[], u, rfl, .nil, h⟩
  | cons c t ih =>
    cases h with
    | plain bare inside rest =>
      obtain ⟨a, b, rfl, ha, hb⟩ := ih rest
      exact ⟨c :: a, b, rfl, .plain bare inside ha, hb⟩
    | escaped mark rest =>
      obtain ⟨a, b, rfl, ha, hb⟩ := ih rest
      exact ⟨'\\' :: c :: a, b, rfl, .escaped mark ha, hb⟩

theorem SpellsLines.of_break {u t : Text} (h : SpellsLines u ('\n' :: t)) :
    ∃ v, u = hardBreak ++ v ∧ SpellsLines v t := by
  cases h with
  | plain bare inside rest => exact absurd rfl inside
  | escaped mark rest => exact ⟨_, rfl, rest⟩

theorem SpellsLines.getLast? {u t : Text} (h : SpellsLines u t) : u.getLast? = t.getLast? := by
  induction h with
  | nil => rfl
  | plain _ _ _ ih => rw [List.getLast?_cons, List.getLast?_cons, ih]
  | escaped _ _ ih => rw [List.getLast?_cons_cons, List.getLast?_cons, List.getLast?_cons, ih]

/-- Line feeds stand for breaks only. -/
theorem SpellsLines.newline_not_mem {u t : Text} (h : SpellsLines u t) (line : '\n' ∉ t) :
    '\n' ∉ u := by
  induction h with
  | nil => exact line
  | plain _ inside _ ih =>
    rw [List.mem_cons, not_or] at line ⊢
    exact ⟨line.1, ih line.2⟩
  | escaped _ _ ih =>
    rw [List.mem_cons, not_or] at line
    rw [List.mem_cons, List.mem_cons, not_or, not_or]
    exact ⟨by decide, line.1, ih line.2⟩

theorem SpellsLines.head?_ne {u t : Text} (h : SpellsLines u t) : u.head? ≠ some '\n' := by
  cases h with
  | nil => simp
  | plain bare inside rest => exact fun he => inside (Option.some.inj he)
  | escaped mark rest => exact fun he => absurd (Option.some.inj he) (by decide)

theorem dropBreaks_append_hardBreak (t : Text) : dropBreaks (t ++ hardBreak) = dropBreaks t := by
  rw [dropBreaks, List.reverse_append, hardBreak]
  rfl

/-- The breaks at the end of a spelling are those at the end of what it means. -/
theorem SpellsLines.dropBreaks {u t : Text} (h : SpellsLines u t) :
    SpellsLines (dropBreaks u) (Text.dropEndWhile (· == '\n') t) := by
  induction t using List.reverseRecOn generalizing u with
  | nil =>
    cases h
    exact .nil
  | append_singleton t c ih =>
    by_cases feed : c = '\n'
    · obtain ⟨a, b, rfl, front, back⟩ := h.split
      rw [feed] at back
      obtain ⟨v, rfl, rest⟩ := back.of_break
      cases rest
      rw [List.append_nil, dropBreaks_append_hardBreak,
        Text.dropEndWhile_append_of_pos (by simp [feed])]
      exact ih front
    · have last : (t ++ [c]).getLast? = some c := List.getLast?_concat
      rw [dropBreaks_of_getLast?_ne, Text.dropEndWhile_of_not_getLast?]
      · exact h
      · intro d hd
        rw [last] at hd
        cases hd
        exact beq_eq_false_iff_ne.mpr feed
      · rw [h.getLast?, last]
        exact fun he => feed (Option.some.inj he)

theorem not_isLineSpace_of_isPunctuation {c : Char} (h : isPunctuation c = true ∨ c = '\n') :
    Text.isLineSpace c = false := by
  rcases h with mark | rfl
  · rw [Text.isLineSpace, not_isBlankChar_of_isPunctuation mark, Bool.false_and]
  · decide

/-- In front, white space is taken off a spelling as far as it is no break. -/
theorem SpellsLines.dropWhile {u t : Text} (h : SpellsLines u t) :
    SpellsLines (u.dropWhile Text.isBlankChar) (t.dropWhile Text.isLineSpace) := by
  induction h with
  | nil => exact .nil
  | @plain c u t bare inside rest ih =>
    have same : Text.isLineSpace c = Text.isBlankChar c := by
      rw [Text.isLineSpace, bne_iff_ne.mpr inside, Bool.and_true]
    rw [List.dropWhile_cons, List.dropWhile_cons, same]
    split
    · exact ih
    · exact .plain bare inside rest
  | @escaped c u t mark rest ih =>
    rw [List.dropWhile_cons_of_neg (by decide),
      List.dropWhile_cons_of_neg (by simp [not_isLineSpace_of_isPunctuation mark])]
    exact .escaped mark rest

/-- Each line is kept from opening another block, also where a backslash stands at the end. -/
theorem Spells.escapeBlockStart_append {u t slashes : Text} (h : Spells u t)
    (all : ∀ c ∈ slashes, c = '\\') :
    ∃ v, Markdown.escapeBlockStart (u ++ slashes) = v ++ slashes ∧ Spells v t := by
  rcases escapeBlockStart_cases (u ++ slashes) with he | ⟨a, c, b, whole, he, plain, mark, bare⟩
  · exact ⟨u, he, h⟩
  · rcases List.append_eq_append_iff.mp whole with ⟨r, rfl, hr⟩ | ⟨r, rfl, hr⟩
    · -- the mark cannot stand among the backslashes
      exact absurd (all c (by simp [hr])) bare
    · cases r with
      | nil =>
        have behind : slashes = c :: b := hr.symm
        exact absurd (all c (by simp [behind])) bare
      | cons d r =>
        obtain ⟨rfl, rfl⟩ := List.cons.inj hr
        refine ⟨a ++ '\\' :: c :: r, ?_, ?_⟩
        · rw [he, List.append_assoc]
          rfl
        · exact h.insert (fun last => plain (List.mem_of_getLast? last)) mark bare

/-- The lines of a paragraph, each kept from opening another block. -/
def escapeLines (t : Text) : Text :=
  Text.unlines ((Text.lines t).map escapeBlockStart)

theorem escapeLines_break (t u : Text) :
    escapeLines (t ++ '\n' :: u) = escapeLines t ++ '\n' :: escapeLines u := by
  have lines (t : Text) : (Text.lines t).map escapeBlockStart ≠ [] :=
    fun none => Text.lines_ne_nil t (List.map_eq_nil_iff.mp none)
  rw [escapeLines, Text.lines_append_newline, List.map_append,
    Text.unlines_append (lines t) (lines u)]
  rfl

theorem escapeLines_of_line {t : Text} (line : '\n' ∉ t) : escapeLines t = escapeBlockStart t := by
  rw [escapeLines, Text.lines_of_not_mem line]
  rfl

/-- The induction is on the lines that are meant. -/
theorem SpellsLines.escapeLines_append {slashes : Text} (all : ∀ c ∈ slashes, c = '\\')
    {ls : List Text} (ne : ls ≠ []) (lines : ∀ l ∈ ls, '\n' ∉ l) {u : Text}
    (h : SpellsLines u (Text.unlines ls)) :
    ∃ v, escapeLines (u ++ slashes) = v ++ slashes ∧ SpellsLines v (Text.unlines ls) := by
  have end_line : '\n' ∉ slashes := fun hm => absurd (all _ hm) (by decide)
  induction ls generalizing u with
  | nil => exact absurd rfl ne
  | cons l ls ih =>
    have line : '\n' ∉ l := lines l (by simp)
    by_cases last : ls = []
    · subst last
      have spelled : Spells u l := h.spells line
      obtain ⟨v, he, hv⟩ := spelled.escapeBlockStart_append all
      refine ⟨v, ?_, hv.spellsLines line⟩
      rw [escapeLines_of_line, he]
      exact fun hm => (List.mem_append.mp hm).elim (h.newline_not_mem line) end_line
    · rw [Text.unlines_cons l last] at h ⊢
      obtain ⟨a, b, rfl, front, back⟩ := h.split
      obtain ⟨w, rfl, rest⟩ := back.of_break
      have slash : ∀ c ∈ ['\\'], c = '\\' := fun c hc => List.mem_singleton.mp hc
      obtain ⟨v, hv, first⟩ := (front.spells line).escapeBlockStart_append slash
      obtain ⟨x, hx, others⟩ := ih last (fun m hm => lines m (by simp [hm])) rest
      refine ⟨v ++ (hardBreak ++ x), ?_,
        (first.spellsLines line).append (spellsLines_hardBreak.append others)⟩
      have broken : '\n' ∉ a ++ ['\\'] := fun hm =>
        (List.mem_append.mp hm).elim (front.newline_not_mem line) (by simp)
      have cut : a ++ (hardBreak ++ w) ++ slashes = (a ++ ['\\']) ++ '\n' :: (w ++ slashes) := by
        simp [hardBreak]
      rw [cut, escapeLines_break, escapeLines_of_line broken, hv, hx]
      simp [hardBreak]

theorem paragraphText_eq (t : Text) :
    Convert.paragraphText true t = escapeLines (Text.strip (dropBreaks t)) :=
  rfl

theorem SpellsLines.readLines_escapeLines {u t slashes : Text} (h : SpellsLines u t)
    (all : ∀ c ∈ slashes, c = '\\') :
    readLines (escapeLines (u ++ slashes)) = t ++ readLines slashes := by
  have spelled : SpellsLines u (Text.unlines (Text.lines t)) := (Text.unlines_lines t).symm ▸ h
  obtain ⟨v, he, hv⟩ := spelled.escapeLines_append all (Text.lines_ne_nil t)
    fun l hl => Text.newline_not_mem_of_mem_lines hl
  rw [he, hv.readLines_append, Text.unlines_lines]

/-- White space inside a line is written as it is. -/
theorem SpellsLines.eq_of_isLineSpace {u t : Text} (h : SpellsLines u t)
    (spaces : ∀ c ∈ t, Text.isLineSpace c = true) : u = t := by
  induction h with
  | nil => rfl
  | plain _ _ _ ih => rw [ih fun c hc => spaces c (List.mem_cons_of_mem _ hc)]
  | @escaped c u t mark _ _ =>
    have shown := not_isLineSpace_of_isPunctuation mark
    rw [spaces c List.mem_cons_self] at shown
    cases shown

/-- What a paragraph is before its lines are looked at. -/
theorem SpellsLines.exists_strip {u t : Text} (h : SpellsLines u t) :
    ∃ v, Text.strip (Markdown.dropBreaks u) = Text.strip v ∧ SpellsLines v (Text.beforeBreaks t) := by
  obtain ⟨pads, whole, spaces⟩ :=
    Text.exists_dropEndWhile Text.isLineSpace (Text.dropEndWhile (· == '\n') t)
  have spelled := h.dropBreaks
  rw [whole] at spelled
  obtain ⟨v, b, cut, front, back⟩ := spelled.split
  refine ⟨v, ?_, front⟩
  rw [cut, back.eq_of_isLineSpace spaces]
  exact Text.strip_append_blank v fun c hc => Text.isBlankChar_of_isLineSpace (spaces c hc)

/-- Where no break is left to be trimmed. -/
theorem SpellsLines.readLines_of_shown {u t : Text} (h : SpellsLines u t)
    (shown : (Text.beforeBreaks t).getLast? ≠ some '\n') :
    readLines (Convert.paragraphText true u) = Text.trimBroken t := by
  obtain ⟨v, stripped, spelled⟩ := h.exists_strip
  have inner := spelled.dropWhile
  have last : ∀ c, ((Text.beforeBreaks t).dropWhile Text.isLineSpace).getLast? = some c →
      Text.isBlankChar c = false := by
    intro c hc
    have whole := Text.getLast?_of_dropWhile hc
    refine Text.not_isBlankChar_of_not_isLineSpace (Text.not_getLast?_dropEndWhile whole) ?_
    rintro rfl
    exact shown whole
  have written : Text.strip (Markdown.dropBreaks u) = v.dropWhile Text.isBlankChar := by
    rw [stripped, Text.strip, Text.dropAround]
    apply Text.dropEndWhile_of_not_getLast?
    rw [inner.getLast?]
    exact last
  have none : ∀ c ∈ ([] : Text), c = '\\' := by simp
  have read := inner.readLines_escapeLines none
  rw [List.append_nil] at read
  rw [paragraphText_eq, written, read, readLines, List.append_nil, Text.trimBroken_eq,
    Text.dropEndWhile_of_not_getLast? last]

/-- A break that is trimmed leaves its backslash. -/
theorem SpellsLines.readLines_of_break {u t front : Text} (h : SpellsLines u t)
    (left : Text.beforeBreaks t = front ++ ['\n']) :
    readLines (Convert.paragraphText true u) = front.dropWhile Text.isLineSpace ++ ['\\'] := by
  obtain ⟨v, stripped, spelled⟩ := h.exists_strip
  rw [left] at spelled
  obtain ⟨a, b, rfl, inner, back⟩ := spelled.split
  obtain ⟨w, rfl, rest⟩ := back.of_break
  cases rest
  have slash : ∀ c, ['\\'].head? = some c → Text.isBlankChar c = false := by
    intro c hc
    rw [← Option.some.inj hc]
    decide
  have written : Text.strip (a ++ ['\\']) = a.dropWhile Text.isBlankChar ++ ['\\'] := by
    rw [Text.strip, Text.dropAround, Text.dropWhile_append_of_not_head? slash,
      Text.dropEndWhile_append, if_neg (by decide)]
    rfl
  have trimmed : Text.strip (Markdown.dropBreaks u) = a.dropWhile Text.isBlankChar ++ ['\\'] := by
    have feed : ∀ c ∈ ['\n'], Text.isBlankChar c = true :=
      fun c hc => Text.isBlankChar_of_eq_newline (List.mem_singleton.mp hc)
    rw [stripped, ← written, ← Text.strip_append_blank (a ++ ['\\']) feed]
    simp [hardBreak]
  rw [paragraphText_eq, trimmed]
  exact inner.dropWhile.readLines_escapeLines fun c hc => List.mem_singleton.mp hc

/--
A paragraph is read as it is meant, trimmed, exactly where no break has other white space behind it
up to the end.
-/
theorem SpellsLines.readLines_paragraphText {u t : Text} (h : SpellsLines u t) :
    readLines (Convert.paragraphText true u) = Text.trimBroken t ↔ Text.BreaksLast t := by
  rw [Text.breaksLast_iff]
  constructor
  · intro read last
    obtain ⟨front, left⟩ := List.getLast?_eq_some_iff.mp last
    have feed : ∀ c ∈ ['\n'], Text.isBlankChar c = true :=
      fun c hc => Text.isBlankChar_of_eq_newline (List.mem_singleton.mp hc)
    rw [h.readLines_of_break left, Text.trimBroken_eq, left,
      Text.dropEndWhile_dropWhile_append feed] at read
    obtain ⟨b, whole, -⟩ :=
      Text.exists_dropEndWhile Text.isBlankChar (front.dropWhile Text.isLineSpace)
    rw [← read] at whole
    have length := congrArg List.length whole
    simp at length
  · exact h.readLines_of_shown

end Docmark.Markdown
