import Docmark.Proofs.Footnote.Signs
import Docmark.Proofs.Markdown.Collapse

/-!
What the validator of footnotes finds. In a text whose carets all belong to signs, its references
are the signs that no colon follows, and its definitions those that begin a line and that a colon
follows, as long as something stands behind the colon.
-/

namespace Docmark.Footnote

open Annotation (IsNumeral)

/-- The characters that a find covers are passed over. -/
theorem findAll_skip {α : Type} (find : Option Char → Text → Option (α × Nat))
    (before : Option Char) (u : Text) (c : Char) (t : Text) :
    Text.findAll find before (u.length + 1) (u ++ c :: t) = Text.findAll find (some c) 0 t := by
  induction u generalizing before with
  | nil => rfl
  | cons d u ih => exact ih (some d)

theorem sign?_of_ne {c : Char} (h : c ≠ '[') (t : Text) : sign? (c :: t) = none := by
  rw [sign?]
  intro r he
  exact h (List.cons.inj he).1

/-- Signs begin with a bracket before a caret. -/
theorem sign_none {c : Char} {t : Text} (h : c = '[' → t.head? ≠ some '^') :
    sign? (c :: t) = none ∧ numberSign? (c :: t) = none := by
  by_cases hc : c = '['
  · subst hc
    cases t with
    | nil => exact ⟨rfl, rfl⟩
    | cons d t =>
      have other : d ≠ '^' := fun he => h rfl (by rw [he]; rfl)
      constructor
      · rw [sign?]
        intro r he
        exact other (List.cons.inj (List.cons.inj he).2).1
      · rw [numberSign?]
        intro r he
        exact other (List.cons.inj (List.cons.inj he).2).1
  · exact ⟨sign?_of_ne hc t, numberSign?_of_ne hc t⟩

theorem sign?_sign {d : Text} (hd : IsNumeral d) (t : Text) :
    sign? ('[' :: '^' :: (d ++ ']' :: t)) = some (d, d.length + 3, t) := by
  obtain ⟨front, back⟩ := Text.span_ne (hd.not_mem isDecimal_bracket) t
  rw [sign?]
  simp [front, back, hd.1]

section references

/-- Where no bracket stands, no reference begins. -/
theorem findAll_reference_append {u : Text} (none : '[' ∉ u) {t : Text} {found : List Text}
    (rest : ∀ before, Text.findAll reference? before 0 t = found) (before : Option Char) :
    Text.findAll reference? before 0 (u ++ t) = found := by
  induction u generalizing before with
  | nil => exact rest before
  | cons c u ih =>
    rw [List.mem_cons, not_or] at none
    rw [List.cons_append, Text.findAll, reference?, sign?_of_ne (Ne.symm none.1)]
    exact ih none.2 (some c)

/-- The references of a text are its signs that no colon follows. -/
theorem findAll_reference {t : Text} (signed : Signed t) (before : Option Char) :
    Text.findAll reference? before 0 t = openSigns t := by
  induction signed generalizing before with
  | nil => rfl
  | @char c t caret bracket rest ih =>
    obtain ⟨here, here'⟩ := sign_none bracket
    rw [Text.findAll, reference?, here, openSigns, signsWhere_of_none here']
    exact ih (some c)
  | @sign d t numeral rest ih =>
    have sign := sign?_sign numeral t
    have inside := open_not_mem_sign numeral
    rw [openSigns, signsWhere_sign numeral]
    rw [← List.cons_append] at sign
    rw [List.cons_append]
    by_cases colon : beforeColon t = true
    · obtain ⟨r, rfl⟩ := beforeColon_iff.mp colon
      rw [Text.findAll, reference?, sign, if_neg (by simp [beforeColon])]
      have whole := findAll_reference_append inside ih (some '[')
      rwa [List.append_assoc] at whole
    · have found : reference? before ('[' :: ('^' :: d ++ ']' :: t)) = some (d, d.length + 3) := by
        rw [reference?, sign]
        cases t with
        | nil => rfl
        | cons c r =>
          have other : c ≠ ':' := by simpa [beforeColon] using colon
          simp [other]
      have passed := findAll_skip reference? (some '[') ('^' :: d) ']' t
      rw [Text.findAll, found, if_pos (by simpa using colon)]
      exact congrArg (d :: ·) (passed.trans (ih (some ']')))

end references

section definitions

/-- The digits of a sign at the start of a line that a colon follows. -/
def headSign? (line : Text) : Option Text :=
  (numberSign? line).bind fun s => if beforeColon s.2 then some s.1 else none

/-- A line that shows something behind the colon of the sign it begins with. -/
def Filled (line : Text) : Prop :=
  ∀ d r, numberSign? line = some (d, ':' :: r) → Text.isBlank r = false

/-- The definitions that a text shows. -/
def heads (t : Text) : List Text :=
  (Text.lines t).filterMap headSign?

theorem headSign?_of_isBlank {line : Text} (blank : Text.isBlank line = true) :
    headSign? line = none := by
  cases line with
  | nil => rfl
  | cons c r =>
    have apart : c ≠ '[' := by
      rintro rfl
      exact foreign_open.not_parts (Or.inl (List.all_eq_true.mp blank '[' (by simp)))
    rw [headSign?, numberSign?_of_ne apart]
    rfl

theorem filled_of_headSign?_eq_none {line : Text} (none : headSign? line = none) : Filled line := by
  intro d r sign
  rw [headSign?, sign] at none
  cases none

theorem heads_joinBlocks (bs : List Text) : heads (Text.joinBlocks bs) = bs.flatMap heads := by
  induction bs with
  | nil => rfl
  | cons b bs ih =>
    cases bs with
    | nil => simp [Text.joinBlocks, Text.joinWith]
    | cons b' bs =>
      rw [heads, Text.lines_joinBlocks_cons b (by simp), List.filterMap_append,
        List.flatMap_cons, ← ih]
      rfl

/-- Collapsing takes blank lines away, with which no definition begins. -/
theorem heads_collapseBlankLines (t : Text) : heads (Markdown.collapseBlankLines t) = heads t := by
  have shown (ls : List Text) :
      ls.filterMap headSign? = (ls.filter fun l => !Text.isBlank l).filterMap headSign? := by
    rw [List.filterMap_filter]
    congr 1
    funext l
    cases blank : Text.isBlank l with
    | false => rfl
    | true => exact headSign?_of_isBlank blank
  rw [heads, Markdown.Tracking.lines_collapseBlankLines, shown, Markdown.Tracking.filter_collapse,
    ← shown, heads]

/-- The end of a line. -/
def Ends (u : Text) : Prop :=
  ∀ c ∈ u.head?, c = '\n'

theorem Ends.head?_append_ne {u : Text} (ends : Ends u) {c : Char} (hc : c ≠ '\n') {t : Text}
    (h : t.head? ≠ some c) : (t ++ u).head? ≠ some c := by
  cases t with
  | nil => exact fun he => hc (ends c he)
  | cons d t => exact h

/-- The text of a line goes to its end. -/
theorem Ends.takeWhile_append {u : Text} (ends : Ends u) {t : Text} (line : '\n' ∉ t) :
    (t ++ u).takeWhile (· != '\n') = t := by
  have inside : ∀ c ∈ t, (c != '\n') = true := by
    intro c hc
    rw [bne_iff_ne]
    rintro rfl
    exact line hc
  have stop : u.takeWhile (· != '\n') = [] := by
    cases u with
    | nil => rfl
    | cons e u =>
      obtain rfl : e = '\n' := ends e rfl
      exact List.takeWhile_cons_of_neg (by simp)
  rw [List.takeWhile_append_of_pos inside, stop, List.append_nil]

/-- White space at the begin of a line that shows something ends in the line. -/
theorem strip_append_of_shown {t : Text} (shown : Text.isBlank t = false) (u : Text) :
    Text.stripStart (t ++ u) = Text.stripStart t ++ u ∧
      Text.indentWidth (t ++ u) = Text.indentWidth t := by
  have some_left : Text.stripStart t ≠ [] := by
    intro none
    rw [Text.stripStart, List.dropWhile_eq_nil_iff] at none
    rw [Text.isBlank, List.all_eq_true.mpr none] at shown
    cases shown
  obtain ⟨c, content, strip⟩ := List.exists_cons_of_ne_nil some_left
  have parts := List.takeWhile_append_dropWhile (p := Text.isBlankChar) (l := t)
  rw [← Text.stripStart] at parts
  have shorter := congrArg List.length parts
  rw [List.length_append, strip, List.length_cons] at shorter
  constructor
  · rw [Text.stripStart, List.dropWhile_append, ← Text.stripStart, strip]
    rfl
  · rw [Text.indentWidth, List.takeWhile_append, if_neg (by omega), Text.indentWidth]

theorem definition?_inside {c : Char} (hc : c ≠ '\n') (t : Text) :
    definition? (some c) t = none := by
  simp [definition?, hc]

theorem findAll_definition_ends {u : Text} (ends : Ends u) (before : Option Char) :
    Text.findAll definition? before 0 u = Text.findAll definition? none 0 u := by
  cases u with
  | nil => rfl
  | cons c u =>
    obtain rfl : c = '\n' := ends c rfl
    have skipped (b : Option Char) : definition? b ('\n' :: u) = none := by
      rw [definition?, sign?_of_ne (by decide)]
      split <;> rfl
    rw [Text.findAll, Text.findAll, skipped, skipped]

theorem findAll_definition_covered {before : Option Char} (w : Text) {u : Text} (ends : Ends u) :
    Text.findAll definition? before w.length (w ++ u) = Text.findAll definition? none 0 u := by
  induction w generalizing before with
  | nil => exact findAll_definition_ends ends before
  | cons c w ih => exact ih

/-- Definitions begin at the start of a line only. -/
theorem findAll_definition_inside {c : Char} (hc : c ≠ '\n') {l u : Text} (line : '\n' ∉ l)
    (ends : Ends u) :
    Text.findAll definition? (some c) 0 (l ++ u) = Text.findAll definition? none 0 u := by
  induction l generalizing c with
  | nil => exact findAll_definition_ends ends (some c)
  | cons d l ih =>
    rw [List.mem_cons, not_or] at line
    rw [List.cons_append, Text.findAll, definition?_inside hc]
    exact ih (Ne.symm line.1) line.2

/-- What a definition covers when its line shows something: the line to its end. -/
theorem definition?_of_filled {before : Option Char} (start : before.any (· != '\n') = false)
    {d r u : Text} (hd : IsNumeral d) (line : '\n' ∉ r) (shown : Text.isBlank r = false)
    (ends : Ends u) :
    definition? before ('[' :: ('^' :: d ++ ']' :: ':' :: r ++ u)) =
      some (d, ('^' :: d ++ ']' :: ':' :: r).length + 1) := by
  obtain ⟨back, front⟩ := strip_append_of_shown shown u
  have covered : (Text.stripStart (r ++ u)).takeWhile (· != '\n') = Text.stripStart r := by
    rw [back]
    exact ends.takeWhile_append fun hm => line ((List.dropWhile_suffix _).mem hm)
  have whole : Text.indentWidth r + (Text.stripStart r).length = r.length := by
    rw [Text.indentWidth, Text.stripStart, ← List.length_append, List.takeWhile_append_dropWhile]
  have sign := sign?_sign hd (':' :: (r ++ u))
  simp only [List.cons_append, List.append_assoc, definition?, start, Bool.false_eq_true, if_false,
    sign, covered, front, Option.some.injEq, Prod.mk.injEq, true_and, List.length_cons,
    List.length_append]
  omega

/-- A line that does not begin with a definition has none. -/
theorem findAll_definition_passed {before : Option Char} {l u : Text} (ne : l ≠ [])
    (line : '\n' ∉ l) (ends : Ends u) (none_here : definition? before (l ++ u) = none) :
    Text.findAll definition? before 0 (l ++ u) = Text.findAll definition? none 0 u := by
  obtain ⟨c, r, rfl⟩ := List.exists_cons_of_ne_nil ne
  rw [List.mem_cons, not_or] at line
  rw [List.cons_append] at none_here ⊢
  rw [Text.findAll, none_here]
  exact findAll_definition_inside (Ne.symm line.1) line.2 ends

/-- A sign without a colon behind it is not read as a definition. -/
theorem definition?_of_open (before : Option Char) {d t : Text} (hd : IsNumeral d)
    (colon : t.head? ≠ some ':') :
    definition? before ('[' :: ('^' :: d ++ ']' :: t)) = none := by
  rw [definition?, List.cons_append, sign?_sign hd]
  split
  · rfl
  · split
    · rename_i name size rest he
      obtain rfl := (Prod.mk.inj (Prod.mk.inj (Option.some.inj he)).2).2
      exact absurd rfl colon
    · rfl

/-- In a line whose carets all belong to signs, a definition is the sign it begins with. -/
theorem findAll_definition_line {before : Option Char} (start : before.any (· != '\n') = false)
    {l u : Text} (line : '\n' ∉ l) (signed : Signed l) (filled : Filled l) (ends : Ends u) :
    Text.findAll definition? before 0 (l ++ u) =
      (headSign? l).toList ++ Text.findAll definition? none 0 u := by
  cases signed with
  | nil => exact findAll_definition_ends ends before
  | @char c r caret bracket rest =>
    have next : c = '[' → (r ++ u).head? ≠ some '^' :=
      fun hc => ends.head?_append_ne (by decide) (bracket hc)
    rw [headSign?, (sign_none bracket).2]
    refine findAll_definition_passed (List.cons_ne_nil c r) line ends ?_
    rw [definition?, start, List.cons_append, (sign_none next).1]
    rfl
  | @sign d r numeral rest =>
    have sign : numberSign? ('[' :: '^' :: d ++ ']' :: r) = some (d, r) :=
      numberSign?_eq_some.mpr ⟨numeral, rfl⟩
    by_cases colon : beforeColon r = true
    · obtain ⟨r, rfl⟩ := beforeColon_iff.mp colon
      have free : '\n' ∉ r := fun hm => line (by simp [hm])
      have found := definition?_of_filled start numeral free (filled d r sign) ends
      rw [headSign?, sign, List.cons_append, List.cons_append, Text.findAll, found]
      exact congrArg (d :: ·) (findAll_definition_covered _ ends)
    · have behind : (r ++ u).head? ≠ some ':' :=
        ends.head?_append_ne (by decide) (by simpa [beforeColon] using colon)
      have none_here := definition?_of_open before numeral behind
      rw [headSign?, sign]
      simp only [Option.bind_some, if_neg colon, Option.toList_none, List.nil_append]
      exact findAll_definition_passed (List.cons_ne_nil _ _) line ends (by simpa using none_here)

theorem findAll_definition_unlines {ls : List Text} (ne : ls ≠ []) (line : ∀ l ∈ ls, '\n' ∉ l)
    (signed : ∀ l ∈ ls, Signed l) (filled : ∀ l ∈ ls, Filled l) (before : Option Char)
    (start : before.any (· != '\n') = false) :
    Text.findAll definition? before 0 (Text.unlines ls) = ls.filterMap headSign? := by
  induction ls generalizing before with
  | nil => exact absurd rfl ne
  | cons l ls ih =>
    rw [List.forall_mem_cons] at line signed filled
    have step {u : Text} (ends : Ends u) :=
      findAll_definition_line start line.1 signed.1 filled.1 ends
    cases ls with
    | nil =>
      have last := step (u := []) (by simp [Ends])
      rw [List.append_nil] at last
      rw [Text.unlines, Text.joinWith, last, List.filterMap_cons]
      cases headSign? l <;> rfl
    | cons m ms =>
      have others := ih (List.cons_ne_nil m ms) line.2 signed.2 filled.2 (some '\n') rfl
      have newline : definition? none ('\n' :: Text.unlines (m :: ms)) = none := by
        rw [definition?, sign?_of_ne (by decide)]
        rfl
      rw [Text.unlines_cons l (List.cons_ne_nil m ms), step (by simp [Ends]), Text.findAll, newline,
        others, List.filterMap_cons (a := l)]
      cases headSign? l <;> rfl

/-- The definitions of a text are the signs that begin its lines and that a colon follows. -/
theorem findAll_definition {t : Text} (signed : Signed t)
    (filled : ∀ l ∈ Text.lines t, Filled l) :
    Text.findAll definition? none 0 t = heads t := by
  have whole := findAll_definition_unlines (Text.lines_ne_nil t)
    (fun l hl => Text.newline_not_mem_of_mem_lines hl) (signed_lines.mpr signed) filled none rfl
  rwa [Text.unlines_lines] at whole

end definitions

end Docmark.Footnote
