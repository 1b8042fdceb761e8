import Docmark.Markdown.Table
import Docmark.Proofs.Markdown.Spelling
import Docmark.Proofs.Text.Words
import Mathlib.Data.List.Forall2

/-!
Rows of a table read back. A reader splits a row at the bars that no backslash escapes and trims
the pieces; what is written into a cell is not split and comes back as it was.
-/

namespace Docmark.Text

/-- A text comes out of its padding trimmed. -/
theorem strip_pad (t : Text) : strip (' ' :: t ++ [' ']) = strip t := by
  have front : strip (' ' :: t) = strip t := by
    rw [strip, dropAround, List.dropWhile_cons_of_pos (by decide)]
    rfl
  rw [strip_append_blank _ fun c hc => ?_, front]
  obtain rfl := List.mem_singleton.mp hc
  decide

end Docmark.Text

namespace Docmark.Markdown

/--
The pieces of a line between the bars that stand behind an even number of backslashes; `odd` tells
that an odd number stands in front.
-/
def splitBars (odd : Bool) : Text → List Text
  | [] => [[]]
  | c :: r =>
    if c = '|' && !odd then [] :: splitBars false r
    else (splitBars (c = '\\' && !odd) r).modifyHead (c :: ·)

/-- Takes the backslashes off escaped bars. -/
def unescapeBars : Text → Text
  | '\\' :: '|' :: r => '|' :: unescapeBars r
  | c :: r => c :: unescapeBars r
  | [] => []

/-- What a piece of a row says. -/
def readCell (piece : Text) : Text :=
  Preview.unescape (unescapeBars (Text.strip piece))

/-- The cells of a row; nothing stands before its first bar and behind its last. -/
def readRow (line : Text) : Option (List Text) :=
  match splitBars false line with
  | [] :: pieces => if pieces.getLast? = some [] then some (pieces.dropLast.map readCell) else none
  | _ => none

theorem unescapeBars_cons {c : Char} (h : c ≠ '\\') (r : Text) :
    unescapeBars (c :: r) = c :: unescapeBars r := by
  rw [unescapeBars]
  intro s he _
  exact h he

theorem unescapeBars_escaped {c : Char} (h : c ≠ '|') (r : Text) :
    unescapeBars ('\\' :: c :: r) = '\\' :: unescapeBars (c :: r) := by
  rw [unescapeBars]
  intro s _ he
  exact h (List.cons.inj he).1

/-- A bar is never written without a backslash. -/
theorem head?_escapePipesFrom (t : Text) : (escapePipesFrom false t).head? ≠ some '|' := by
  cases t with
  | nil => simp [escapePipesFrom]
  | cons c r =>
    rw [escapePipesFrom]
    by_cases slash : c = '\\'
    · simp [slash]
    · by_cases bar : c = '|'
      · simp [bar]
      · simp [slash, bar]

theorem unescapeBars_slash_escapePipesFrom (t : Text) :
    unescapeBars ('\\' :: escapePipesFrom false t) =
      '\\' :: unescapeBars (escapePipesFrom false t) := by
  have head := head?_escapePipesFrom t
  cases ht : escapePipesFrom false t with
  | nil => rfl
  | cons c r =>
    rw [ht] at head
    exact unescapeBars_escaped (fun he => head (by rw [he]; rfl)) r

/-- The bars of a spelling are escaped and read back, which leaves a spelling of the same text. -/
theorem Spells.unescapeBars {u t : Text} (h : Spells u t) :
    Spells (unescapeBars (escapePipesFrom false u)) t := by
  induction h with
  | nil => exact .nil
  | @plain c u t bare _ ih =>
    by_cases bar : c = '|'
    · subst bar
      exact .plain bare ih
    · simp only [escapePipesFrom, bare, bar, ↓reduceIte, decide_false, Bool.false_and,
        Bool.false_eq_true]
      rw [unescapeBars_cons bare]
      exact .plain bare ih
  | @escaped c u t mark _ ih =>
    by_cases slash : c = '\\'
    · subst slash
      have written : escapePipesFrom false ('\\' :: '\\' :: u) =
          '\\' :: '\\' :: escapePipesFrom false u := rfl
      rw [written, unescapeBars_escaped (by decide), unescapeBars_slash_escapePipesFrom]
      exact .escaped mark ih
    · have written : escapePipesFrom false ('\\' :: c :: u) =
          '\\' :: c :: escapePipesFrom false u := by
        simp [escapePipesFrom, slash]
      rw [written]
      by_cases bar : c = '|'
      · subst bar
        exact .plain (by decide) ih
      · rw [unescapeBars_escaped bar, unescapeBars_cons slash]
        exact .escaped mark ih

theorem escapePipesFrom_eq_nil_iff {odd : Bool} {t : Text} :
    escapePipesFrom odd t = [] ↔ t = [] := by
  cases t with
  | nil => simp [escapePipesFrom]
  | cons c r =>
    rw [escapePipesFrom]
    split
    · simp
    · split <;> simp

theorem escapePipesFrom_blank (odd : Bool) {c : Char} (blank : Text.isBlankChar c = true)
    (t : Text) : escapePipesFrom odd (c :: t) = c :: escapePipesFrom false t := by
  have slash : c ≠ '\\' := by
    rintro rfl
    exact absurd blank (by decide)
  have bar : c ≠ '|' := by
    rintro rfl
    exact absurd blank (by decide)
  simp [escapePipesFrom, slash, bar]

/-- White space is not touched when bars are escaped. -/
theorem dropWhile_escapePipesFrom (t : Text) :
    (escapePipesFrom false t).dropWhile Text.isBlankChar =
      escapePipesFrom false (t.dropWhile Text.isBlankChar) := by
  induction t with
  | nil => rfl
  | cons c r ih =>
    by_cases blank : Text.isBlankChar c = true
    · rw [List.dropWhile_cons_of_pos blank, escapePipesFrom_blank false blank,
        List.dropWhile_cons_of_pos blank, ih]
    · rw [List.dropWhile_cons_of_neg blank, escapePipesFrom]
      split
      · rw [List.dropWhile_cons_of_neg blank]
      · split
        · rw [List.dropWhile_cons_of_neg (by decide)]
        · rw [List.dropWhile_cons_of_neg blank]

theorem dropEndWhile_escapePipesFrom (odd : Bool) (t : Text) :
    Text.dropEndWhile Text.isBlankChar (escapePipesFrom odd t) =
      escapePipesFrom odd (Text.dropEndWhile Text.isBlankChar t) := by
  induction t generalizing odd with
  | nil => rfl
  | cons c r ih =>
    by_cases blank : Text.isBlankChar c = true
    · have written := escapePipesFrom_blank odd blank
      rw [written, Text.dropEndWhile_cons, Text.dropEndWhile_cons, ih]
      by_cases none : Text.dropEndWhile Text.isBlankChar r = []
      · rw [if_pos ⟨escapePipesFrom_eq_nil_iff.mpr none, blank⟩, if_pos ⟨none, blank⟩]
        rfl
      · rw [if_neg fun h => none (escapePipesFrom_eq_nil_iff.mp h.1), if_neg fun h => none h.1,
          written]
    · have solid : Text.isBlankChar c = false := by simpa using blank
      rw [Text.dropEndWhile_cons_of_neg solid, escapePipesFrom, escapePipesFrom]
      split
      · rw [Text.dropEndWhile_cons_of_neg solid, ih]
      · split
        · rw [Text.dropEndWhile_cons_of_neg (by decide), Text.dropEndWhile_cons_of_neg solid, ih]
        · rw [Text.dropEndWhile_cons_of_neg solid, ih]

theorem escapeCell_eq (t : Text) : escapeCell t = escapePipesFrom false (Text.strip t) := by
  rw [escapeCell, Text.strip, Text.dropAround, dropWhile_escapePipesFrom,
    dropEndWhile_escapePipesFrom]
  rfl

theorem strip_escapeCell (t : Text) : Text.strip (escapeCell t) = escapeCell t :=
  Text.dropAround_dropAround _ _

theorem escapePipesFrom_mem {odd : Bool} {t : Text} {c : Char} (h : c ∈ escapePipesFrom odd t) :
    c = '\\' ∨ c ∈ t := by
  induction t generalizing odd with
  | nil => exact Or.inr h
  | cons d r ih =>
    rw [escapePipesFrom] at h
    split at h
    · rcases List.mem_cons.mp h with h | h
      · exact Or.inr (by simp [h])
      · exact (ih h).imp_right fun hr => by simp [hr]
    · split at h
      · simp only [List.mem_cons] at h
        rcases h with h | h | h
        · exact Or.inl h
        · exact Or.inr (by simp [h])
        · exact (ih h).imp_right fun hr => by simp [hr]
      · rcases List.mem_cons.mp h with h | h
        · exact Or.inr (by simp [h])
        · exact (ih h).imp_right fun hr => by simp [hr]

/-- Cells on one line each give a row on one line. -/
theorem newline_not_mem_formatRow {us : List Text} (h : ∀ u ∈ us, '\n' ∉ u) :
    '\n' ∉ formatRow us := by
  intro hm
  simp only [formatRow, List.cons_append, List.nil_append, List.mem_cons, List.mem_append] at hm
  rcases hm with hm | hm | hm | hm | hm | hm
  case inr.inr.inl =>
    rcases Text.mem_joinWith hm with hs | ⟨e, he, hc⟩
    · revert hs
      decide
    · obtain ⟨u, hu, rfl⟩ := List.mem_map.mp he
      rw [escapeCell] at hc
      rcases escapePipesFrom_mem (Text.mem_of_mem_strip hc) with hb | hc
      · revert hb
        decide
      · exact h u hu hc
  all_goals
    revert hm
    decide

/-- What is written into a cell is read back from its piece of the row. -/
theorem readCell_escapeCell {u t : Text} (h : Spells u t) :
    readCell (' ' :: escapeCell u ++ [' ']) = Text.strip t := by
  rw [readCell, Text.strip_pad, strip_escapeCell, escapeCell_eq]
  exact h.strip.unescapeBars.unescape

/-- No bar of a cell splits the row, and the bar behind the cell does. -/
theorem splitBars_escapePipesFrom (odd : Bool) (t r : Text) :
    splitBars odd (escapePipesFrom odd t ++ ' ' :: '|' :: r) =
      (escapePipesFrom odd t ++ [' ']) :: splitBars false r := by
  induction t generalizing odd with
  | nil => simp [escapePipesFrom, splitBars]
  | cons c t ih =>
    rw [escapePipesFrom]
    by_cases slash : c = '\\'
    · subst slash
      have := ih (!odd)
      simp [splitBars, this]
    · have := ih false
      by_cases bar : c = '|'
      · subst bar
        cases odd <;> simp [splitBars, this]
      · simp [splitBars, slash, bar, this]

theorem splitBars_escapeCell (t r : Text) :
    splitBars false (' ' :: (escapeCell t ++ ' ' :: '|' :: r)) =
      (' ' :: escapeCell t ++ [' ']) :: splitBars false r := by
  rw [escapeCell_eq, splitBars]
  simp [splitBars_escapePipesFrom]

/-- The pieces of the cells of a row that is written as far as its first bar. -/
theorem splitBars_joinWith {ts : List Text} (ne : ts ≠ []) :
    splitBars false (' ' :: (Text.joinWith [' ', '|', ' '] (ts.map escapeCell) ++ [' ', '|'])) =
      ts.map (fun t => ' ' :: escapeCell t ++ [' ']) ++ [[]] := by
  induction ts with
  | nil => exact absurd rfl ne
  | cons t ts ih =>
    cases ts with
    | nil => exact splitBars_escapeCell t []
    | cons u us =>
      have rest := ih (by simp)
      have piece := splitBars_escapeCell t
        (' ' :: (Text.joinWith [' ', '|', ' '] ((u :: us).map escapeCell) ++ [' ', '|']))
      rw [rest] at piece
      rw [List.map_cons, Text.joinWith_cons _ _ (by simp)]
      simpa using piece

/-- A row that is written is read back cell by cell. -/
theorem readRow_formatRow {us ts : List Text} (ne : us ≠ []) (h : List.Forall₂ Spells us ts) :
    readRow (formatRow us) = some (ts.map Text.strip) := by
  have pieces : splitBars false (formatRow us) =
      [] :: (us.map (fun u => ' ' :: escapeCell u ++ [' ']) ++ [[]]) := by
    rw [← splitBars_joinWith ne, formatRow]
    simp [splitBars]
  have cells : (us.map fun u => ' ' :: escapeCell u ++ [' ']).map readCell = ts.map Text.strip := by
    clear pieces ne
    induction h with
    | nil => rfl
    | cons first _ ih =>
      rw [List.map_cons, List.map_cons, List.map_cons, readCell_escapeCell first, ih]
  simp only [readRow, pieces, List.getLast?_concat, List.dropLast_concat, ↓reduceIte, cells]

end Docmark.Markdown
