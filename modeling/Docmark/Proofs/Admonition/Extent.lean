import Docmark.Proofs.Admonition.ReadBack
import Docmark.Proofs.Text.WholeLines

/-!
How far an admonition reaches in its source: over its header line and the run of lines below it that
are blank or indented. Where it ends, which lines it covers and what its body is all follow from
that run.
-/

namespace Docmark.Admonition
open Text

/-- A line that is blank, or begins with the indentation of a body. -/
def InBody (line : Text) : Prop :=
  isBlank line = true ∨ spaces bodyIndent <+: line ∨ ['\t'] <+: line

instance : DecidablePred InBody := fun _ => inferInstanceAs (Decidable (_ ∨ _ ∨ _))

/-- A line without the spaces or the tab that it begins with. -/
def dedented (line : Text) : Text :=
  if spaces bodyIndent <+: line then line.drop bodyIndent
  else if ['\t'] <+: line then line.drop 1
  else line

/-- The lines as a text, without the blank ones at its ends. -/
def trimmedText (lines : List Text) : Text :=
  (((lines.dropWhile isBlank).rdropWhile isBlank).map (· ++ ['\n'])).flatten

/-- The body that is read from whole lines: the blank ones are emptied, the others dedented. -/
def bodyOf (taken : List Text) : Text :=
  trimmedText (taken.map fun l => dedented (clearBlank (lineText l)))

/-- The whole lines that the scanner reads an admonition from: its header and those it takes. -/
structure Takes (source : Text) (start : Nat) (a : Scanned) (first : Text)
    (taken left : List Text) : Prop where
  lines : wholeLines (source.drop start) = first :: (taken ++ left)
  header : Header.parse (lineText first) = some a.header
  inBody : ∀ l ∈ taken, InBody (lineText l)
  ends : ∀ l, left.head? = some l → ¬ InBody (lineText l)
  body : a.body = bodyOf taken
  stop : a.stop = start + (first :: taken).flatten.length
  firstLine : a.firstLine = (source.take start).count '\n'
  lastLine : a.lastLine = a.firstLine + (first :: taken).length

theorem dedent?_eq (line : Text) :
    dedent? line = if InBody line then some (dedented (clearBlank line)) else none := by
  by_cases blank : isBlank line = true
  · have inBody : InBody line := Or.inl blank
    rw [dedent?_of_isBlank blank, if_pos inBody, clearBlank, if_pos blank]
    rfl
  · have after (p : Text) :
        after? p line = if p <+: line then some (line.drop p.length) else none := by
      by_cases h : p <+: line <;> simp [after?, h]
    have width : (spaces bodyIndent).length = bodyIndent := rfl
    rw [dedent?, if_neg blank, clearBlank, if_neg blank, dedented, after, after, width]
    by_cases spaced : spaces bodyIndent <+: line
    · simp [InBody, spaced]
    · by_cases tabbed : ['\t'] <+: line <;> simp [InBody, blank, spaced, tabbed]

theorem dedent?_of_inBody {line : Text} (h : InBody line) :
    dedent? line = some (dedented (clearBlank line)) := by
  rw [dedent?_eq, if_pos h]

theorem endsBody_iff {line : Text} : EndsBody line ↔ ¬ InBody line := by
  rw [EndsBody, dedent?_eq]
  by_cases h : InBody line <;> simp [h]

/-- The lines that the body takes of those below the header. -/
def bodyRun (ls : List Text) : List Text :=
  ls.takeWhile fun l => InBody (lineText l)

theorem bodyRun_cons (l : Text) (ls : List Text) :
    bodyRun (l :: ls) = if InBody (lineText l) then l :: bodyRun ls else [] := by
  rw [bodyRun, List.takeWhile_cons]
  by_cases h : InBody (lineText l) <;> simp [h, bodyRun]

/-- The scanner takes the run line by line, and counts the characters in it. -/
theorem takeBody_lines (t : Text) :
    takeBody (lines t) =
      ((bodyRun (wholeLines t)).map fun l => dedented (clearBlank (lineText l)),
        (bodyRun (wholeLines t)).flatten.length) := by
  induction t using lineInduction with
  | nil => rfl
  | last l ne line =>
    rw [lines_of_not_mem line, wholeLines_last ne line, bodyRun_cons, lineText_of_not_mem line]
    by_cases h : InBody l
    · simp [takeBody, dedent?_of_inBody h, ne, h, lineText_of_not_mem line, bodyRun]
    · simp [takeBody_of_endsBody (endsBody_iff.mpr h), h]
  | cons l r line ih =>
    rw [lines_append_newline, lines_of_not_mem line, List.singleton_append, wholeLines_cons line,
      bodyRun_cons, lineText_append line]
    by_cases h : InBody l
    · simp [takeBody_cons (dedent?_of_inBody h) (lines_ne_nil r), ih, h, lineText_append line,
        Nat.add_assoc, Nat.add_comm]
    · simp [takeBody_of_endsBody (endsBody_iff.mpr h), h]

theorem trimBlankLines_eq (ls : List Text) :
    bodyText (trimBlankLines ls) = trimmedText ls := by
  have closed (ms : List Text) : bodyText ms = (ms.map (· ++ ['\n'])).flatten := by
    induction ms with
    | nil => rfl
    | cons m ms ih =>
      cases ms with
      | nil => simp [bodyText, unlines, joinWith]
      | cons k ks =>
        have below : bodyText (k :: ks) = unlines (k :: ks) ++ ['\n'] := rfl
        rw [List.map_cons, List.flatten_cons, ← ih, below, bodyText, unlines_cons m (by simp)]
        simp
  rw [closed, trimmedText, trimBlankLines]
  rfl

theorem countLines_eq {t : Text} (ne : t ≠ []) : countLines t = (wholeLines t).length := by
  induction t using lineInduction with
  | nil => exact absurd rfl ne
  | last l ne line =>
    simp [countLines, wholeLines_last ne line, List.count_eq_zero_of_not_mem line,
      endsWith_newline_of_not_mem line]
  | cons l r line ih =>
    rw [wholeLines_cons line, List.length_cons]
    by_cases none : r = []
    · simp [none, countLines, endsWith_newline, List.count_eq_zero_of_not_mem line, wholeLines]
    · obtain ⟨c, s, rfl⟩ := List.exists_cons_of_ne_nil none
      have last : (l ++ '\n' :: c :: s).getLast? = (c :: s).getLast? := by
        rw [List.getLast?_append_of_ne_nil _ (by simp), List.getLast?_cons_cons]
      have count : (l ++ '\n' :: c :: s).count '\n' = (c :: s).count '\n' + 1 := by
        rw [List.count_append, List.count_eq_zero_of_not_mem line, List.count_cons_self,
          Nat.zero_add]
      rw [← ih none, countLines, countLines, endsWith_newline, endsWith_newline, last, count,
        Nat.add_right_comm]

variable {t first source : Text} {start : Nat} {a : Scanned} {below taken left : List Text}

theorem scanHead_of_declined (h : Header.parse (lineText t) = none) : scanHead t = none := by
  rw [lineText] at h
  simp [scanHead, h]

/-- What a text begins with decides whether an admonition is read there. -/
theorem isSome_scan (source : Text) (start : Nat) :
    (scan source start).isSome = (Header.parse (lineText (source.drop start))).isSome := by
  cases parsed : Header.parse (lineText (source.drop start)) with
  | none =>
    rw [scan, scanHead_of_declined parsed]
    rfl
  | some header =>
    rw [lineText] at parsed
    rw [scan, scanHead, parsed]
    cases (source.drop start).dropWhile (· != '\n') <;> rfl

/-- A text that begins with a header line is read line by line, up to the end of the run. -/
theorem scanHead_eq (h : wholeLines t = first :: below) :
    scanHead t = (Header.parse (lineText first)).map fun header =>
      (header, bodyOf (bodyRun below), (first :: bodyRun below).flatten.length) := by
  cases t using lineInduction with
  | nil => cases h
  | last l ne line =>
    rw [wholeLines_last ne line] at h
    obtain ⟨rfl, rfl⟩ := List.cons.inj h
    rw [lineText_of_not_mem line]
    cases parsed : Header.parse t with
    | none => exact scanHead_of_declined (by rw [lineText_of_not_mem line, parsed])
    | some header => simp [scanHead_lone line parsed, bodyRun, bodyOf, trimmedText]
  | cons l r line =>
    rw [wholeLines_cons line] at h
    obtain ⟨rfl, rfl⟩ := List.cons.inj h
    rw [lineText_append line]
    cases parsed : Header.parse l with
    | none => exact scanHead_of_declined (by rw [lineText_append line, parsed])
    | some header =>
      rw [scanHead_line line parsed, takeBody_lines, trimBlankLines_eq]
      simp [bodyOf, Nat.add_comm, Nat.add_assoc]

theorem scan_eq (h : wholeLines (source.drop start) = first :: below) :
    scan source start = (Header.parse (lineText first)).map fun header =>
      ⟨header, bodyOf (bodyRun below), start + (first :: bodyRun below).flatten.length,
        (source.take start).count '\n',
        (source.take start).count '\n' + (first :: bodyRun below).length⟩ := by
  -- The text that is consumed ends with a line, so its lines are those of the run.
  have split : first :: below = (first :: bodyRun below) ++
      below.dropWhile fun l => InBody (lineText l) := by
    rw [List.cons_append, bodyRun, List.takeWhile_append_dropWhile]
  have consumed : (source.drop start).take (first :: bodyRun below).flatten.length =
      (first :: bodyRun below).flatten := by
    rw [← flatten_wholeLines (source.drop start), h, split, List.flatten_append, List.take_left]
  have counted : countLines (first :: bodyRun below).flatten = (first :: bodyRun below).length := by
    rw [countLines_eq, (wholeLines_append (h.trans split)).1]
    have : first ≠ [] := ne_nil_of_mem_wholeLines (h ▸ List.mem_cons_self)
    simp [this]
  rw [scan, scanHead_eq h]
  cases Header.parse (lineText first) with
  | none => rfl
  | some header =>
    dsimp only [Option.map_some, Option.bind_eq_bind, Option.bind_some]
    rw [consumed, counted]
    rfl

theorem inBody_of_mem_bodyRun {l : Text} {ls : List Text} (h : l ∈ bodyRun ls) :
    InBody (lineText l) := by
  simpa using List.mem_takeWhile_imp h

/-- A run ends where it does however the lines of it were found. -/
theorem bodyRun_append (inBody : ∀ l ∈ taken, InBody (lineText l))
    (ends : ∀ l, left.head? = some l → ¬ InBody (lineText l)) :
    bodyRun (taken ++ left) = taken := by
  rw [bodyRun, List.takeWhile_append_of_pos (by simpa using inBody)]
  cases left with
  | nil => simp
  | cons l ls => simp [ends l rfl]

/-- The scanner accepts where a header line begins, and takes the lines of the run below it. -/
theorem scan_eq_some_iff :
    scan source start = some a ↔ ∃ first taken left, Takes source start a first taken left := by
  constructor
  · intro h
    cases whole : wholeLines (source.drop start) with
    | nil =>
      have none : source.drop start = [] := by
        rw [← flatten_wholeLines (source.drop start), whole]
        rfl
      rw [scan, none] at h
      cases h
    | cons first below =>
      rw [scan_eq whole, Option.map_eq_some_iff] at h
      obtain ⟨header, parsed, rfl⟩ := h
      refine ⟨first, bodyRun below, below.dropWhile fun l => InBody (lineText l),
        ⟨?_, parsed, fun l => inBody_of_mem_bodyRun, fun l hl => ?_, rfl, rfl, rfl, rfl⟩⟩
      · rw [whole, bodyRun, List.takeWhile_append_dropWhile]
      · have stop := List.head?_dropWhile_not (fun l => InBody (lineText l)) below
        rw [hl] at stop
        simpa using stop
  · rintro ⟨first, taken, left, h⟩
    rw [scan_eq h.lines, h.header, bodyRun_append h.inBody h.ends, Option.map_some, ← h.body,
      ← h.stop, ← h.firstLine, ← h.lastLine]

section takes
variable (h : Takes source start a first taken left)
include h

theorem Takes.start_lt : start < source.length := by
  by_contra beyond
  have lines := h.lines
  rw [List.drop_eq_nil_of_le (Nat.le_of_not_lt beyond)] at lines
  cases lines

theorem Takes.source_eq :
    source = (source.take start ++ (first :: taken).flatten) ++ left.flatten := by
  rw [List.append_assoc, ← List.flatten_append, List.cons_append, ← h.lines, flatten_wholeLines,
    List.take_append_drop]

theorem Takes.length_eq : (source.take start ++ (first :: taken).flatten).length = a.stop := by
  rw [List.length_append, List.length_take_of_le (Nat.le_of_lt h.start_lt), h.stop]

theorem Takes.length_source : source.length = a.stop + left.flatten.length := by
  rw [← h.length_eq, ← List.length_append, ← h.source_eq]

theorem Takes.take_stop : source.take a.stop = source.take start ++ (first :: taken).flatten :=
  (congrArg (List.take a.stop) h.source_eq).trans (List.take_left' h.length_eq)

theorem Takes.drop_stop : source.drop a.stop = left.flatten :=
  (congrArg (List.drop a.stop) h.source_eq).trans (List.drop_left' h.length_eq)

theorem Takes.start_lt_stop : start < a.stop := by
  have ne : first ≠ [] := ne_nil_of_mem_wholeLines (h.lines ▸ List.mem_cons_self)
  have := List.length_pos_iff.mpr ne
  rw [h.stop, List.flatten_cons, List.length_append]
  omega

theorem Takes.stop_le : a.stop ≤ source.length := by
  rw [h.length_source]
  exact Nat.le_add_right _ _

/-- What is left begins on a line of its own. -/
theorem Takes.line_end :
    a.stop = source.length ∨ (source.take a.stop).getLast? = some '\n' := by
  cases left with
  | nil => exact Or.inl h.length_source.symm
  | cons k ks =>
    obtain ⟨upper, last, lines⟩ := (List.eq_nil_or_concat' (first :: taken)).resolve_left (by simp)
    have ended : last.getLast? = some '\n' :=
      getLast?_of_wholeLines (h.lines.trans List.cons_append.symm) (by simp [lines])
    right
    rw [h.take_stop, lines, List.flatten_append, List.flatten_singleton, List.getLast?_append,
      List.getLast?_append, ended]
    rfl

/-- The same lines elsewhere are taken there. -/
theorem Takes.move {other : Text} {place : Nat} (same : other.drop place = source.drop start) :
    ∃ b, Takes other place b first taken left ∧ b.header = a.header ∧ b.body = a.body ∧
      b.stop - place = a.stop - start := by
  refine ⟨{ a with
      stop := place + (first :: taken).flatten.length
      firstLine := (other.take place).count '\n'
      lastLine := (other.take place).count '\n' + (first :: taken).length },
    ⟨same ▸ h.lines, h.header, h.inBody, h.ends, h.body, rfl, rfl, rfl⟩, rfl, rfl, ?_⟩
  rw [h.stop, Nat.add_sub_cancel_left, Nat.add_sub_cancel_left]

end takes

/--
The scanner accepts just where a header line begins. The admonition ends behind that line and the
run of blank and indented lines below it, which is as long as it can be; its lines are counted and
its body is read off that run. Apart from its place, it depends on nothing before it.
-/
theorem scan_extent (source : Text) (start : Nat) :
    ((scan source start).isSome = true ↔
      (Header.parse (lineText (source.drop start))).isSome = true) ∧
    ∀ a, scan source start = some a →
      (∃ first taken left, Takes source start a first taken left ∧
        wholeLines (source.drop a.stop) = left) ∧
      start < a.stop ∧ a.stop ≤ source.length ∧
      (a.stop = source.length ∨ (source.take a.stop).getLast? = some '\n') ∧
      ∀ (other : Text) (place : Nat), other.drop place = source.drop start →
        ∃ b, scan other place = some b ∧ b.header = a.header ∧ b.body = a.body ∧
          b.stop - place = a.stop - start := by
  refine ⟨by rw [isSome_scan], fun a h => ?_⟩
  obtain ⟨first, taken, left, takes⟩ := scan_eq_some_iff.mp h
  have rest : wholeLines (source.drop a.stop) = left := by
    rw [takes.drop_stop]
    exact (wholeLines_append (takes.lines.trans (List.cons_append).symm)).2
  refine ⟨⟨first, taken, left, takes, rest⟩, takes.start_lt_stop, takes.stop_le, takes.line_end,
    fun other place same => ?_⟩
  obtain ⟨b, moved, rest⟩ := takes.move same
  exact ⟨b, scan_eq_some_iff.mpr ⟨first, taken, left, moved⟩, rest⟩

/-- Below a line of text, an admonition with a blank line of one space, cut off by a last line. -/
def indentedTip : Text :=
  "intro\n!!! tip\n\n\tx\n    y\n \nend".toList

theorem indentedTip_extent :
    scan indentedTip 6 = some ⟨⟨.tip, "Tip".toList⟩, "x\ny\n".toList, 26, 1, 6⟩ ∧
    (∃ first taken left,
      Takes indentedTip 6 ⟨⟨.tip, "Tip".toList⟩, "x\ny\n".toList, 26, 1, 6⟩ first taken left ∧
      wholeLines (indentedTip.drop 26) = left) ∧
    6 < 26 ∧ 26 ≤ indentedTip.length ∧
    (26 = indentedTip.length ∨ (indentedTip.take 26).getLast? = some '\n') ∧
    ∀ (other : Text) (place : Nat), other.drop place = indentedTip.drop 6 →
      ∃ b, scan other place = some b ∧ b.header = ⟨.tip, "Tip".toList⟩ ∧
        b.body = "x\ny\n".toList ∧ b.stop - place = 26 - 6 := by
  have scanned : scan indentedTip 6 =
      some ⟨⟨.tip, "Tip".toList⟩, "x\ny\n".toList, 26, 1, 6⟩ := by decide
  exact ⟨scanned, (scan_extent indentedTip 6).2 _ scanned⟩

/-- A body whose second line is blank and wider than the indentation. -/
def spacedNote : Text :=
  "!!! note\n    a\n      \n    b\n".toList

/-- A blank line is emptied where dedenting it would leave two spaces. -/
theorem spacedNote_cleared :
    ∃ a first taken left, scan spacedNote 0 = some a ∧ Takes spacedNote 0 a first taken left ∧
      a.body = "a\n\nb\n".toList ∧
      trimmedText (taken.map fun l => dedented (lineText l)) = "a\n  \nb\n".toList ∧
      a.body ≠ trimmedText (taken.map fun l => dedented (lineText l)) := by
  have scanned : scan spacedNote 0 =
      some ⟨⟨.note, "Note".toList⟩, "a\n\nb\n".toList, 28, 0, 4⟩ := by decide
  refine ⟨_, "!!! note\n".toList, ["    a\n".toList, "      \n".toList, "    b\n".toList], [],
    scanned, ?_, rfl, by decide, by decide⟩
  exact {
    lines := by decide
    header := by decide
    inBody := by decide
    ends := by decide
    body := by decide
    stop := rfl
    firstLine := rfl
    lastLine := rfl }

end Docmark.Admonition
