import Docmark.Proofs.Text.Lines
import Docmark.Proofs.Text.Trim

/-!
Indented lines: how far a line is indented, and what indenting it keeps. Blank lines are written
empty at every indentation.
-/

namespace Docmark.Text

/-- A line as it stands where blank lines are empty. -/
def clearBlank (line : Text) : Text :=
  if isBlank line then [] else line

theorem strip_clearBlank (line : Text) : strip (clearBlank line) = strip line := by
  rw [clearBlank]
  split
  · rename_i blank
    rw [strip_eq_nil_iff.mpr blank]
    rfl
  · rfl

/-- A line moved to the right, or an empty one for a blank one. -/
def indentLine (k : Nat) (line : Text) : Text :=
  if isBlank line then [] else spaces k ++ line

theorem isBlank_of_mem_lines {t l : Text} (blank : isBlank t = true) (hl : l ∈ lines t) :
    isBlank l = true :=
  List.all_eq_true.mpr fun c hc => List.all_eq_true.mp blank c (mem_of_mem_lines hl hc)

theorem isBlank_iff_lines {t : Text} : isBlank t = true ↔ ∀ l ∈ lines t, isBlank l = true := by
  refine ⟨fun blank _ hl => isBlank_of_mem_lines blank hl, fun h => ?_⟩
  induction t with
  | nil => rfl
  | cons c r ih =>
    rw [lines] at h
    rw [isBlank, List.all_cons, Bool.and_eq_true]
    split at h
    · rename_i newline
      refine ⟨by rw [newline]; decide, ih fun l hl => h l (List.mem_cons_of_mem _ hl)⟩
    · obtain ⟨m, ms, cut⟩ := List.exists_cons_of_ne_nil (lines_ne_nil r)
      rw [cut, List.modifyHead_cons, List.forall_mem_cons, isBlank, List.all_cons,
        Bool.and_eq_true] at h
      refine ⟨h.1.1, ih ?_⟩
      rw [cut, List.forall_mem_cons]
      exact ⟨h.1.2, h.2⟩

/-- Line feeds at the ends of a text stand for empty lines around those of the rest. -/
theorem exists_lines_trimNewlines (t : Text) : ∃ j k,
    lines t = List.replicate j [] ++ lines (trimNewlines t) ++ List.replicate k [] := by
  have front {a : Text} (feeds : ∀ c ∈ a, (c == '\n') = true) (u : Text) :
      lines (a ++ u) = List.replicate a.length [] ++ lines u := by
    induction a with
    | nil => rfl
    | cons c a ih =>
      rw [List.forall_mem_cons, beq_iff_eq] at feeds
      rw [List.cons_append, lines, if_pos feeds.1, ih feeds.2, List.length_cons,
        List.replicate_succ, List.cons_append]
  have back {b : Text} (feeds : ∀ c ∈ b, (c == '\n') = true) (u : Text) :
      lines (u ++ b) = lines u ++ List.replicate b.length [] := by
    cases b with
    | nil => simp
    | cons c b =>
      rw [List.forall_mem_cons, beq_iff_eq] at feeds
      have empty : lines b = List.replicate b.length [] ++ [[]] := by
        have := front feeds.2 []
        rwa [List.append_nil] at this
      rw [feeds.1, lines_append_newline, empty, ← List.replicate_succ', List.length_cons]
  obtain ⟨a, b, whole, ha, hb⟩ := exists_dropAround (· == '\n') t
  refine ⟨a.length, b.length, ?_⟩
  have cut := congrArg lines whole
  rwa [back hb, front ha] at cut

/-- A line that is empty, or is indented so far and has a character that is not white space. -/
def Reaches (column : Nat) (line : Text) : Prop :=
  line = [] ∨ (isBlank line = false ∧ column ≤ indentWidth line)

theorem spaces_append (j k : Nat) : spaces j ++ spaces k = spaces (j + k) :=
  List.replicate_append_replicate

theorem isBlankChar_of_mem_spaces {k : Nat} {c : Char} (h : c ∈ spaces k) :
    isBlankChar c = true := by
  rw [List.eq_of_mem_replicate h]
  decide

theorem newline_not_mem_spaces (k : Nat) : '\n' ∉ spaces k := by
  intro h
  have := List.eq_of_mem_replicate h
  revert this
  decide

theorem isBlank_spaces_append (k : Nat) (t : Text) : isBlank (spaces k ++ t) = isBlank t := by
  have : isBlank (spaces k) = true :=
    List.all_eq_true.mpr fun c hc => isBlankChar_of_mem_spaces hc
  rw [isBlank_append, this, Bool.true_and]

theorem strip_spaces_append (k : Nat) (t : Text) : strip (spaces k ++ t) = strip t := by
  rw [strip, dropAround, List.dropWhile_append_of_pos fun c hc => isBlankChar_of_mem_spaces hc]
  rfl

theorem takeWhile_spaces_append (k : Nat) (t : Text) :
    (spaces k ++ t).takeWhile isBlankChar = spaces k ++ t.takeWhile isBlankChar :=
  List.takeWhile_append_of_pos fun _ hc => isBlankChar_of_mem_spaces hc

theorem dropWhile_spaces_append (k : Nat) (t : Text) :
    (spaces k ++ t).dropWhile isBlankChar = t.dropWhile isBlankChar :=
  List.dropWhile_append_of_pos fun _ hc => isBlankChar_of_mem_spaces hc

theorem indentWidth_spaces_append (k : Nat) (t : Text) :
    indentWidth (spaces k ++ t) = k + indentWidth t := by
  rw [indentWidth, takeWhile_spaces_append, List.length_append, spaces, List.length_replicate]
  rfl

theorem indentLine_of_isBlank {line : Text} (h : isBlank line = true) (k : Nat) :
    indentLine k line = [] :=
  if_pos h

theorem indentLine_of_shown {line : Text} (h : isBlank line = false) (k : Nat) :
    indentLine k line = spaces k ++ line := by
  rw [indentLine, h]
  rfl

theorem isBlank_indentLine (k : Nat) (line : Text) :
    isBlank (indentLine k line) = isBlank line := by
  cases h : isBlank line with
  | true =>
    rw [indentLine_of_isBlank h]
    rfl
  | false => rw [indentLine_of_shown h, isBlank_spaces_append, h]

theorem strip_indentLine (k : Nat) (line : Text) : strip (indentLine k line) = strip line := by
  cases h : isBlank line with
  | true =>
    rw [indentLine_of_isBlank h, strip_eq_nil_iff.mpr h]
    rfl
  | false => rw [indentLine_of_shown h, strip_spaces_append]

theorem indentLine_indentLine (j k : Nat) (line : Text) :
    indentLine k (indentLine j line) = indentLine (j + k) line := by
  cases h : isBlank line with
  | true =>
    rw [indentLine_of_isBlank h, indentLine_of_isBlank h]
    rfl
  | false =>
    rw [indentLine_of_shown (by rw [isBlank_indentLine, h]), indentLine_of_shown h,
      indentLine_of_shown h, ← List.append_assoc, spaces_append, Nat.add_comm]

theorem newline_not_mem_indentLine {line : Text} (h : '\n' ∉ line) (k : Nat) :
    '\n' ∉ indentLine k line := by
  rw [indentLine]
  split
  · simp
  · simp [newline_not_mem_spaces, h]

theorem Reaches.le {j k : Nat} {line : Text} (h : Reaches k line) (le : j ≤ k) : Reaches j line :=
  h.imp_right fun ⟨shown, far⟩ => ⟨shown, Nat.le_trans le far⟩

theorem Reaches.indentLine {column : Nat} {line : Text} (h : Reaches column line) (k : Nat) :
    Reaches (column + k) (indentLine k line) := by
  rcases h with rfl | ⟨shown, far⟩
  · exact Or.inl rfl
  · refine Or.inr ?_
    rw [isBlank_indentLine, indentLine_of_shown shown, indentWidth_spaces_append]
    exact ⟨shown, by omega⟩

theorem reaches_indentLine (k : Nat) (line : Text) : Reaches k (Text.indentLine k line) := by
  cases h : isBlank line with
  | true => exact Or.inl (indentLine_of_isBlank h k)
  | false =>
    refine Or.inr ?_
    rw [isBlank_indentLine, indentLine_of_shown h, indentWidth_spaces_append]
    exact ⟨h, by omega⟩

end Docmark.Text
