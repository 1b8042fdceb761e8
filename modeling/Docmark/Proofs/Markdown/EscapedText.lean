import Docmark.Proofs.Markdown.Spelling

/-!
Escaped runs of text, read from left to right. No delimiter in them stands for itself, and each run
comes back as it was, also from runs that are written one after the other.
-/

namespace Docmark.Markdown

open Preview (isPunctuation unescape)

/-- What a text is read as: characters that stand for themselves, and punctuation with a backslash. -/
inductive Glyph
  | bare (c : Char)
  | escaped (c : Char)
  deriving DecidableEq, Repr

namespace Glyph

/-- The character that is meant. -/
def meant : Glyph → Char
  | bare c => c
  | escaped c => c

def written : Glyph → Text
  | bare c => [c]
  | escaped c => ['\\', c]

end Glyph

def glyphs : Text → List Glyph
  | '\\' :: c :: r =>
    if isPunctuation c then .escaped c :: glyphs r else .bare '\\' :: glyphs (c :: r)
  | c :: r => .bare c :: glyphs r
  | [] => []

/-- Nothing of a text is lost. -/
theorem flatMap_written_glyphs (t : Text) : (glyphs t).flatMap Glyph.written = t := by
  fun_induction glyphs t with
  | case1 c r mark ih => simp [Glyph.written, ih]
  | case2 c r mark ih => simpa [Glyph.written] using ih
  | case3 c r lone ih => simp [Glyph.written, ih]
  | case4 => rfl

/-- Taking the backslashes off punctuation is reading what is meant. -/
theorem map_meant_glyphs (t : Text) : (glyphs t).map Glyph.meant = unescape t := by
  fun_induction glyphs t with
  | case1 c r mark ih => rw [List.map_cons, ih, unescape, if_pos mark]; rfl
  | case2 c r mark ih => rw [List.map_cons, ih, unescape, if_neg mark]; rfl
  | case3 c r lone ih =>
    rw [List.map_cons, ih, unescape]
    · rfl
    · exact lone
  | case4 => rfl

theorem glyphs_cons {c : Char} (bare : c ≠ '\\') (r : Text) :
    glyphs (c :: r) = .bare c :: glyphs r := by
  rw [glyphs]
  intro d s he _
  exact bare he

theorem glyphs_escaped {c : Char} (mark : isPunctuation c = true) (r : Text) :
    glyphs ('\\' :: c :: r) = .escaped c :: glyphs r := by
  rw [glyphs, if_pos mark]

/-- Letters and digits are no punctuation. -/
theorem not_isPunctuation_of_isAlphanumeric {c : Char} (h : Text.isAlphanumeric c = true) :
    isPunctuation c = false := by
  cases mark : isPunctuation c with
  | false => rfl
  | true =>
    simp only [isPunctuation, Bool.or_eq_true, Bool.and_eq_true, decide_eq_true_eq] at mark
    rw [Text.isAlphanumeric, if_pos (by omega)] at h
    delta Char.isAlphanum Char.isAlpha Char.isUpper Char.isLower Char.isDigit at h
    simp only [Bool.or_eq_true, Bool.and_eq_true, decide_eq_true_eq, ge_iff_le,
      UInt32.le_iff_toNat_le] at h
    change ((65 ≤ c.toNat ∧ c.toNat ≤ 90) ∨ (97 ≤ c.toNat ∧ c.toNat ≤ 122)) ∨
      (48 ≤ c.toNat ∧ c.toNat ≤ 57) at h
    omega

/-- A character is written with a backslash just where it needs one. -/
theorem glyphs_escapeFrom_cons (before : Option Char) (c : Char) (r : Text) :
    glyphs (escapeFrom before (c :: r)) =
      (if needsEscape before c r.head? then .escaped c else .bare c) ::
        glyphs (escapeFrom (some c) r) := by
  rw [escapeFrom]
  split
  · rename_i needed
    exact glyphs_escaped (isPunctuation_of_needsEscape needed) _
  · rename_i plain
    refine glyphs_cons ?_ _
    intro slash
    apply plain
    rw [slash]
    rfl

/-- Characters that open or close something wherever they stand. -/
def delimiters : Text :=
  ['\\', '\x60', '*', '\x7b', '\x7d', '[', ']', '~', '<']

/-- No delimiter stands for itself, nor does an underscore but inside a word. -/
structure Literal (gs : List Glyph) : Prop where
  delimiter : ∀ c ∈ delimiters, Glyph.bare c ∉ gs
  underscore : ∀ front back, gs = front ++ Glyph.bare '_' :: back →
    (∃ c, front.getLast? = some (.bare c) ∧ Text.isAlphanumeric c = true) ∧
      ∃ c, back.head? = some (.bare c) ∧ Text.isAlphanumeric c = true
  start : gs.head? ≠ some (.bare '#')

theorem isActive_of_mem_delimiters {c : Char} (h : c ∈ delimiters) : isActive c = true := by
  have all : delimiters.all isActive = true := by decide
  exact List.all_eq_true.mp all c h

theorem bare_not_mem_glyphs_escapeFrom {c : Char} (active : isActive c = true)
    (before : Option Char) (t : Text) : Glyph.bare c ∉ glyphs (escapeFrom before t) := by
  induction t generalizing before with
  | nil => exact List.not_mem_nil
  | cons d r ih =>
    rw [glyphs_escapeFrom_cons, List.mem_cons, not_or]
    refine ⟨?_, ih (some d)⟩
    intro he
    split at he
    · cases he
    · rename_i plain
      cases he
      apply plain
      rw [needsEscape, active]
      rfl

/-- Letters and digits are written without backslash. -/
theorem not_needsEscape_of_isAlphanumeric {c : Char} (h : Text.isAlphanumeric c = true)
    (before after : Option Char) : needsEscape before c after = false := by
  cases needed : needsEscape before c after with
  | false => rfl
  | true =>
    have mark := isPunctuation_of_needsEscape needed
    rw [not_isPunctuation_of_isAlphanumeric h] at mark
    cases mark

theorem head?_glyphs_escapeFrom {c : Char} (h : Text.isAlphanumeric c = true)
    (before : Option Char) (r : Text) :
    (glyphs (escapeFrom before (c :: r))).head? = some (.bare c) := by
  rw [glyphs_escapeFrom_cons, not_needsEscape_of_isAlphanumeric h]
  rfl

/--
An underscore without backslash stands between letters or digits. The one in front is the last of
the text read so far, or the character `before` that text.
-/
theorem underscore_glyphs_escapeFrom {before : Option Char} {t : Text} {front back : List Glyph}
    (h : glyphs (escapeFrom before t) = front ++ Glyph.bare '_' :: back) :
    (∃ c, ((before.map Glyph.bare).toList ++ front).getLast? = some (.bare c) ∧
        Text.isAlphanumeric c = true) ∧
      ∃ c, back.head? = some (.bare c) ∧ Text.isAlphanumeric c = true := by
  induction t generalizing before front with
  | nil => simp [escapeFrom, glyphs] at h
  | cons d r ih =>
    rw [glyphs_escapeFrom_cons] at h
    cases front with
    | nil =>
      rw [List.nil_append, List.cons.injEq] at h
      obtain ⟨first, rfl⟩ := h
      split at first
      · cases first
      · rename_i plain
        cases first
        have inside : isInsideWord before r.head? = true := by
          simpa [needsEscape, isActive] using plain
        simp only [isInsideWord, Bool.and_eq_true, Option.any_eq_true] at inside
        obtain ⟨⟨b, rfl, left⟩, a, next, right⟩ := inside
        obtain ⟨s, rfl⟩ := List.head?_eq_some_iff.mp next
        exact ⟨⟨b, rfl, left⟩, a, head?_glyphs_escapeFrom right _ s, right⟩
    | cons g front =>
      rw [List.cons_append, List.cons.injEq] at h
      obtain ⟨first, rest⟩ := h
      obtain ⟨⟨b, last, left⟩, right⟩ := ih rest
      refine ⟨⟨b, ?_, left⟩, right⟩
      cases front with
      | nil =>
        -- the letter in front is the character just read, and needs no backslash
        cases last
        rw [not_needsEscape_of_isAlphanumeric left, if_neg Bool.false_ne_true] at first
        rw [← first, List.getLast?_append]
        rfl
      | cons g' front =>
        rw [Option.map_some, Option.toList_some, List.singleton_append,
          List.getLast?_cons_cons] at last
        rw [List.getLast?_append, List.getLast?_cons_cons, last]
        rfl

theorem literal_glyphs_escape (t : Text) : Literal (glyphs (escape t)) where
  delimiter := by
    intro c hc
    exact bare_not_mem_glyphs_escapeFrom (isActive_of_mem_delimiters hc) none t
  underscore := by
    intro front back h
    exact underscore_glyphs_escapeFrom h
  start := by
    cases t with
    | nil => simp [escape, escapeFrom, glyphs]
    | cons c r =>
      rw [escape, glyphs_escapeFrom_cons, List.head?_cons, Ne, Option.some.injEq]
      intro he
      split at he
      · cases he
      · rename_i plain
        cases he
        exact plain rfl

/-- Escaped runs are read back, and no delimiter in them stands for itself. -/
theorem escape_literal (t : Text) :
    unescape (escape t) = t ∧ Literal (glyphs (escape t)) ∧
      ∀ ts : List Text, unescape (ts.flatMap escape) = ts.flatten := by
  refine ⟨(spells_escape t).unescape, literal_glyphs_escape t, ?_⟩
  intro ts
  rw [← List.flatMap_id]
  exact (spells_flatMap fun u _ => spells_escape u).unescape

end Docmark.Markdown
