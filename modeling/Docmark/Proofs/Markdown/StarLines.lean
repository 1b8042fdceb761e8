import Docmark.Proofs.Markdown.BlockStart
import Docmark.Proofs.Markdown.BrokenLines
import Docmark.Proofs.Markdown.StrongText

/-!
Lines that begin with asterisks. A paragraph is kept from opening another block by backslashes; one
of them stands before an asterisk just where a line begins with it and looks like a bullet or a
rule.
-/

namespace Docmark.Markdown

/-- True for a line that begins with an asterisk and looks like a bullet or a rule. -/
def isStarRule (line : Text) : Bool :=
  let body := line.dropWhile Text.isPad
  body.head? == some '*' && (isBulletMarker body || isRuleLike body)

section line

variable {line : Text}

theorem openerPosition?_star (r : Text) :
    openerPosition? ('*' :: r) =
      if isBulletMarker ('*' :: r) || isRuleLike ('*' :: r) then some 0 else none := by
  have none : orderedDelimiter? ([] ++ '*' :: r) = none := by
    apply orderedDelimiter?_eq_none r
    · simp
    · exact Text.not_isDecimal_of_gap (by decide)
    · decide
    · decide
  rw [List.nil_append] at none
  have other : Text.startsWith "!!!".toList ('*' :: r) = false := rfl
  rw [openerPosition?, none]
  simp only [other]
  by_cases bullet : isBulletMarker ('*' :: r) = true
  · simp [bullet]
  · by_cases like : isRuleLike ('*' :: r) = true
    · simp [bullet, like]
    · simp [bullet, like]

/-- A backslash before an asterisk is one at the start of a line. -/
theorem eq_nil_of_star {a b : Text} (h : openerPosition? (a ++ '*' :: b) = some a.length) :
    a = [] := by
  rcases openerPosition?_cases h with ⟨none, -⟩ | ordered | ⟨like, -, place⟩
  · exact List.length_eq_zero_iff.mp none
  · obtain ⟨ds, c, rest, whole, length, -, delimiter, -⟩ := exists_of_orderedDelimiter ordered
    obtain ⟨-, behind⟩ := List.append_inj whole length.symm
    obtain ⟨rfl, -⟩ := List.cons.inj behind
    rcases delimiter with dot | bracket
    · exact absurd dot (by decide)
    · exact absurd bracket (by decide)
  · have stands {c : Char} (found : (a ++ '*' :: b).findIdx? (· == c) = some a.length) :
        c = '*' := by
      obtain ⟨_, hc, -⟩ := List.findIdx?_eq_some_iff_getElem.mp found
      simp only [List.getElem_append_right le_rfl, Nat.sub_self, List.getElem_cons_zero] at hc
      exact (beq_iff_eq.mp hc).symm
    rcases place with dash | bar
    · exact absurd (stands dash) (by decide)
    · exact absurd (stands bar) (by decide)

theorem signs_append_of_not_mem {a : Text} (free : '\\' ∉ a) (b : Text) :
    signs (a ++ b) = signs a ++ signs b :=
  signs_append (not_endsEscaping_of_not_mem free) b

theorem slash_not_mem_indent (line : Text) : '\\' ∉ line.takeWhile Text.isPad := fun hm =>
  absurd (List.all_eq_true.mp List.all_takeWhile _ hm) (by decide)

/-- All signs stay as they are where no asterisk stands at the start of a bullet or a rule. -/
theorem signs_escapeBlockStart (plain : isStarRule line = false) :
    signs (escapeBlockStart line) = signs line := by
  have whole := List.takeWhile_append_dropWhile (p := Text.isPad) (l := line)
  have indent := slash_not_mem_indent line
  unfold isStarRule at plain
  unfold escapeBlockStart
  dsimp only at plain ⊢
  split
  · rename_i n hn
    obtain ⟨a, c, b, hb, rfl, free, mark, bare⟩ := isOpener_openerPosition hn
    have other : c ≠ '*' := by
      rintro rfl
      rw [hb] at hn plain
      obtain rfl := eq_nil_of_star hn
      rw [List.nil_append, openerPosition?_star] at hn
      split at hn
      · rename_i opens
        rw [List.nil_append, opens] at plain
        cases plain
      · cases hn
    conv_rhs => rw [← whole]
    rw [hb, insertBackslash, List.take_left, List.drop_left, signs_append_of_not_mem indent,
      signs_append_of_not_mem indent, signs_append_of_not_mem free, signs_append_of_not_mem free,
      signs_escaped mark, signs_cons bare, sign_bare other]
  · rfl

/-- The first asterisk of such a line gets a backslash. -/
theorem signs_escapeBlockStart_star (star : isStarRule line = true) :
    ∃ m m', signs line = m ++ none :: m' ∧ signs (escapeBlockStart line) = m ++ some '*' :: m' := by
  have whole := List.takeWhile_append_dropWhile (p := Text.isPad) (l := line)
  have indent := slash_not_mem_indent line
  unfold isStarRule at star
  dsimp only at star
  rw [Bool.and_eq_true, beq_iff_eq] at star
  obtain ⟨r, hr⟩ := List.head?_eq_some_iff.mp star.1
  have opens := star.2
  rw [hr] at opens whole
  refine ⟨signs (line.takeWhile Text.isPad), signs r, ?_, ?_⟩
  · conv_lhs => rw [← whole]
    rw [signs_append_of_not_mem indent, signs_cons (by decide)]
    rfl
  · unfold escapeBlockStart
    dsimp only
    rw [hr, openerPosition?_star, if_pos opens]
    dsimp only
    rw [signs_append_of_not_mem indent]
    exact congrArg _ (signs_escaped (by decide) r)

theorem count_none_escapeBlockStart_le (line : Text) :
    (signs (escapeBlockStart line)).count none ≤ (signs line).count none := by
  cases star : isStarRule line with
  | false => rw [signs_escapeBlockStart star]
  | true =>
    obtain ⟨m, m', before, after⟩ := signs_escapeBlockStart_star star
    rw [before, after]
    simp

theorem count_none_escapeBlockStart_lt (star : isStarRule line = true) :
    (signs (escapeBlockStart line)).count none < (signs line).count none := by
  obtain ⟨m, m', before, after⟩ := signs_escapeBlockStart_star star
  rw [before, after]
  simp

end line

section lines

theorem signs_unlines_map {f : Text → Text} {ls : List Text}
    (same : ∀ l ∈ ls, signs (f l) = signs l) :
    signs (Text.unlines (ls.map f)) = signs (Text.unlines ls) := by
  induction ls with
  | nil => rfl
  | cons l ls ih =>
    by_cases last : ls = []
    · subst last
      exact same l List.mem_cons_self
    · have inner := ih fun k hk => same k (List.mem_cons_of_mem l hk)
      have more : ls.map f ≠ [] := mt List.map_eq_nil_iff.mp last
      rw [List.map_cons, Text.unlines_cons _ more, Text.unlines_cons _ last,
        signs_append_plain (by decide), signs_append_plain (by decide), inner,
        same l List.mem_cons_self]

theorem count_none_unlines_cons (l : Text) {ls : List Text} (ne : ls ≠ []) :
    (signs (Text.unlines (l :: ls))).count none =
      (signs l).count none + (signs (Text.unlines ls)).count none := by
  rw [Text.unlines_cons _ ne, signs_append_plain (by decide), List.count_append,
    List.count_cons_of_ne (Option.some_ne_none '\n')]

theorem count_none_unlines_le (ls : List Text) :
    (signs (Text.unlines (ls.map escapeBlockStart))).count none ≤
      (signs (Text.unlines ls)).count none := by
  induction ls with
  | nil => exact le_rfl
  | cons l ls ih =>
    have first := count_none_escapeBlockStart_le l
    by_cases last : ls = []
    · subst last
      exact first
    · rw [List.map_cons, count_none_unlines_cons _ (mt List.map_eq_nil_iff.mp last),
        count_none_unlines_cons _ last]
      omega

theorem count_none_unlines_lt {ls : List Text} (star : ∃ l ∈ ls, isStarRule l = true) :
    (signs (Text.unlines (ls.map escapeBlockStart))).count none <
      (signs (Text.unlines ls)).count none := by
  obtain ⟨k, hk, hs⟩ := star
  induction ls with
  | nil => cases hk
  | cons l ls ih =>
    by_cases last : ls = []
    · subst last
      obtain rfl := List.mem_singleton.mp hk
      exact count_none_escapeBlockStart_lt hs
    · rw [List.map_cons, count_none_unlines_cons _ (mt List.map_eq_nil_iff.mp last),
        count_none_unlines_cons _ last]
      rcases List.mem_cons.mp hk with rfl | inner
      · have first := count_none_escapeBlockStart_lt hs
        have rest := count_none_unlines_le ls
        omega
      · have first := count_none_escapeBlockStart_le l
        have rest := ih inner
        omega

/-- A paragraph without such lines keeps its signs. -/
theorem signs_escapeLines {t : Text} (plain : ∀ l ∈ Text.lines t, isStarRule l = false) :
    signs (escapeLines t) = signs t := by
  have same := signs_unlines_map fun l hl => signs_escapeBlockStart (plain l hl)
  rw [Text.unlines_lines] at same
  exact same

/-- A paragraph with one loses an asterisk. -/
theorem count_none_escapeLines_lt {t : Text} (star : ∃ l ∈ Text.lines t, isStarRule l = true) :
    (signs (escapeLines t)).count none < (signs t).count none := by
  have fewer := count_none_unlines_lt star
  rw [Text.unlines_lines] at fewer
  exact fewer

end lines

end Docmark.Markdown
