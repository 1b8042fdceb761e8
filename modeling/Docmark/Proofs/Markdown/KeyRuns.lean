import Docmark.Proofs.Markdown.EscapedText
import Docmark.Proofs.Markdown.StarLines
import Docmark.Proofs.Markdown.StrongEdges

/-!
Keys of properties, made of runs that are in bold or not. The signs of a key are those of its runs:
the bold texts are between pairs of asterisks, and all else is outside of them.
-/

namespace Docmark.Markdown

/-- A run of the key of a property, in bold or not. -/
structure KeyRun where
  strong : Bool
  text : Text
  deriving DecidableEq, Repr

namespace KeyRun

def markdown (r : KeyRun) : Text :=
  if r.strong then wrap strongMark (escape r.text) else escape r.text

def signs (r : KeyRun) : List (Option Char) :=
  Markdown.signs r.markdown

end KeyRun

/-- The runs that show something. -/
def shownRuns (rs : List KeyRun) : List KeyRun :=
  rs.filter fun r => !Text.isBlank r.text

def keyContent (rs : List KeyRun) : Text :=
  rs.flatMap KeyRun.markdown

/-- The lines of a key, before they are kept from opening another block. -/
def keyLines (rs : List KeyRun) : List Text :=
  Text.lines (Text.strip (dropBreaks (keyContent rs)))

/-- What the cell of a key holds. -/
def keyText (rs : List KeyRun) : Text :=
  (joinCell [Convert.paragraphText true (keyContent rs)]).1

section run

variable {t u : Text}

theorem signs_escape (t : Text) : signs (escape t) = t.map some :=
  (spells_escape t).signs_of_not_mem (bare_not_mem_glyphs_escapeFrom rfl none t)

theorem trimSigns_map_some (t : Text) : trimSigns (t.map some) = (Text.strip t).map some := by
  have front : (t.map some).dropWhile isPadSign = (t.dropWhile Text.isBlankChar).map some :=
    List.dropWhile_map
  rw [trimSigns, front, Text.rdropWhile_map]
  rfl

theorem signs_blank (blank : ∀ c ∈ t, Text.isBlankChar c = true) : signs t = t.map some := by
  induction t with
  | nil => rfl
  | cons c t ih =>
    have plain := not_isPunctuation_of_isBlankChar (blank c List.mem_cons_self)
    have first := signs_append_plain plain [] t
    rw [ih fun d hd => blank d (List.mem_cons_of_mem c hd)] at first
    exact first

/-- A text without backslashes is written as it is. -/
theorem spells_self (free : '\\' ∉ t) : Spells t t := by
  induction t with
  | nil => exact .nil
  | cons c t ih =>
    rw [List.mem_cons, not_or] at free
    exact .plain (Ne.symm free.1) (ih free.2)

theorem wrap_of_shown (mark : Text) (shown : Text.isBlank t = false) :
    ∃ a b, (∀ c ∈ a, Text.isBlankChar c = true) ∧ (∀ c ∈ b, Text.isBlankChar c = true) ∧
      wrap mark t = a ++ (mark ++ (Text.strip t ++ (mark ++ b))) := by
  have filled : (Text.strip t).isEmpty = false := by
    rw [List.isEmpty_eq_false_iff, Ne, Text.strip_eq_nil_iff, shown]
    exact Bool.false_ne_true
  refine ⟨t.takeWhile Text.isBlankChar, Text.takeEndWhile Text.isBlankChar t,
    List.all_eq_true.mp List.all_takeWhile, fun c hc => Text.of_mem_takeEndWhile hc, ?_⟩
  rw [wrap, if_neg (by simp [filled])]
  simp only [List.append_assoc]

theorem wrap_of_blank {mark : Text} (blank : Text.isBlank t = true) : wrap mark t = t := by
  rw [wrap, if_pos (by rw [Text.strip_eq_nil_iff.mpr blank]; rfl)]

theorem Spells.wrap_strongMark (h : Spells u t) : ∃ w, Spells (wrap strongMark u) w := by
  cases blank : Text.isBlank u with
  | true =>
    rw [wrap_of_blank blank]
    exact ⟨t, h⟩
  | false =>
    obtain ⟨a, b, front, back, written⟩ := wrap_of_shown strongMark blank
    have mark : Spells strongMark strongMark := spells_self (by decide)
    rw [written]
    exact ⟨_, (spells_self (slash_not_mem_of_blank front)).append (mark.append
      (h.strip.append (mark.append (spells_self (slash_not_mem_of_blank back)))))⟩

end run

namespace KeyRun

variable {r : KeyRun}

theorem exists_spells (r : KeyRun) : ∃ t, Spells r.markdown t := by
  rw [markdown]
  split
  · exact (spells_escape r.text).wrap_strongMark
  · exact ⟨r.text, spells_escape r.text⟩

theorem signs_of_plain (plain : r.strong = false) : r.signs = r.text.map some := by
  rw [signs, markdown, if_neg (by simp [plain]), signs_escape]

theorem signs_of_blank (blank : Text.isBlank r.text = true) : r.signs = r.text.map some := by
  rw [signs, markdown]
  split
  · rw [wrap_of_blank ((isBlank_escape r.text).trans blank), signs_escape]
  · exact signs_escape r.text

/-- A bold run that shows something has a pair on each side of it, inside its white space. -/
theorem signs_of_strong (strong : r.strong = true) (shown : Text.isBlank r.text = false) :
    ∃ a b : Text, (∀ c ∈ a, Text.isBlankChar c = true) ∧ (∀ c ∈ b, Text.isBlankChar c = true) ∧
      r.signs = a.map some ++
        none :: none :: ((Text.strip r.text).map some ++ none :: none :: b.map some) := by
  obtain ⟨a, b, front, back, written⟩ :=
    wrap_of_shown strongMark ((isBlank_escape r.text).trans shown)
  have core := (spells_escape r.text).strip
  have indent : ¬ EndsEscaping a := not_endsEscaping_of_blank front
  refine ⟨a, b, front, back, ?_⟩
  rw [signs, markdown, if_pos strong, written, signs_append indent, signs_blank front,
    signs_strongMark_append, core.signs_append, signs_strongMark_append, signs_blank back,
    signs_strip, signs_escape, trimSigns_map_some]

end KeyRun

section content

variable {rs : List KeyRun}

theorem exists_spells_content (rs : List KeyRun) : ∃ t, Spells (keyContent rs) t := by
  induction rs with
  | nil => exact ⟨[], .nil⟩
  | cons r rs ih =>
    obtain ⟨t, ht⟩ := r.exists_spells
    obtain ⟨u, hu⟩ := ih
    exact ⟨t ++ u, ht.append hu⟩

theorem signs_keyContent (rs : List KeyRun) : signs (keyContent rs) = rs.flatMap KeyRun.signs := by
  induction rs with
  | nil => rfl
  | cons r rs ih =>
    obtain ⟨t, ht⟩ := r.exists_spells
    rw [keyContent, List.flatMap_cons, ht.signs_append, List.flatMap_cons]
    exact congrArg _ ih

theorem shownRuns_cons_of_blank {r : KeyRun} (blank : Text.isBlank r.text = true)
    (rs : List KeyRun) : shownRuns (r :: rs) = shownRuns rs :=
  List.filter_cons_of_neg (by simp [blank])

theorem shownRuns_cons_of_shown {r : KeyRun} (shown : Text.isBlank r.text = false)
    (rs : List KeyRun) : shownRuns (r :: rs) = r :: shownRuns rs :=
  List.filter_cons_of_pos (by simp [shown])

/-- The bold runs that show something. -/
def strongRuns (rs : List KeyRun) : List KeyRun :=
  (shownRuns rs).filter KeyRun.strong

theorem strongRuns_cons (r : KeyRun) (rs : List KeyRun) :
    strongRuns (r :: rs) = strongRuns [r] ++ strongRuns rs := by
  rw [strongRuns, strongRuns, strongRuns, ← List.filter_append, shownRuns, shownRuns, shownRuns,
    ← List.filter_append]
  rfl

/-- A run is text, or a text between pairs of asterisks and white space. -/
theorem KeyRun.signs_cases (r : KeyRun) :
    (strongRuns [r] = [] ∧ r.signs = r.text.map some) ∨
      strongRuns [r] = [r] ∧ ∃ a b : Text, r.signs = a.map some ++
        none :: none :: ((Text.strip r.text).map some ++ none :: none :: b.map some) := by
  cases blank : Text.isBlank r.text with
  | true =>
    left
    rw [strongRuns, shownRuns_cons_of_blank blank]
    exact ⟨rfl, signs_of_blank blank⟩
  | false =>
    rw [strongRuns, shownRuns_cons_of_shown blank]
    cases strong : r.strong with
    | false =>
      left
      rw [List.filter_cons_of_neg (by simp [strong])]
      exact ⟨rfl, signs_of_plain strong⟩
    | true =>
      right
      obtain ⟨a, b, -, -, written⟩ := signs_of_strong strong blank
      rw [List.filter_cons_of_pos strong]
      exact ⟨rfl, a, b, written⟩

theorem strongTexts_keyContent (rs : List KeyRun) :
    strongTexts (keyContent rs) = some ((strongRuns rs).map fun r => Text.strip r.text) := by
  rw [strongTexts, signs_keyContent]
  induction rs with
  | nil => rfl
  | cons r rs ih =>
    rw [List.flatMap_cons, strongRuns_cons]
    rcases r.signs_cases with ⟨none, written⟩ | ⟨own, a, b, written⟩
    · rw [written, enclosed_text, ih, none]
      rfl
    · rw [written, own]
      simp only [List.append_assoc, List.cons_append]
      rw [enclosed_text, enclosed_strong, enclosed_text, ih]
      rfl

theorem count_none_map_some (t : Text) : (t.map some).count none = 0 :=
  List.count_eq_zero.mpr (by simp)

theorem count_none_keyContent (rs : List KeyRun) :
    (signs (keyContent rs)).count none = 4 * (strongRuns rs).length := by
  rw [signs_keyContent]
  induction rs with
  | nil => rfl
  | cons r rs ih =>
    rw [List.flatMap_cons, List.count_append, ih, strongRuns_cons]
    rcases r.signs_cases with ⟨none, written⟩ | ⟨own, a, b, written⟩
    · rw [written, count_none_map_some, none, Nat.zero_add]
      rfl
    · have four : r.signs.count none = 4 := by
        rw [written]
        simp [count_none_map_some]
      rw [four, own, List.length_append, List.length_singleton]
      omega

end content

end Docmark.Markdown
