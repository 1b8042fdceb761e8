import Docmark.Proofs.Markdown.Collapse
import Docmark.Proofs.Markdown.Framed
import Docmark.Proofs.Text.Indent
import Mathlib.Data.List.Forall2

/-!
Code between its fences: no line inside closes the fence, whatever the code is, so that collapsing
blank lines leaves the code alone wherever its first line is seen to open a fence.
-/

namespace Docmark.Markdown

/-- The run of a line with one character more. -/
def lengthen : Nat × Nat → Char → Nat × Nat :=
  fun (longest, run) c =>
    if c = backtick then (max longest (run + 1), run + 1) else (longest, 0)

theorem fst_le_foldl_lengthen (p : Nat × Nat) (t : Text) : p.1 ≤ (t.foldl lengthen p).1 := by
  induction t generalizing p with
  | nil => exact Nat.le_refl _
  | cons c r ih =>
    have first : p.1 ≤ (lengthen p c).1 := by
      rw [lengthen]
      split
      · exact Nat.le_max_left _ _
      · exact Nat.le_refl _
    exact Nat.le_trans first (ih _)

theorem add_le_foldl_replicate (k : Nat) (p : Nat × Nat) :
    p.2 + (k + 1) ≤ ((List.replicate (k + 1) backtick).foldl lengthen p).1 := by
  induction k generalizing p with
  | zero => exact Nat.le_max_right _ _
  | succ k ih =>
    have rest := ih (lengthen p backtick)
    have longer : (lengthen p backtick).2 = p.2 + 1 := by simp [lengthen]
    rw [longer] at rest
    rw [List.replicate_succ, List.foldl_cons]
    omega

/-- No run of backticks in a text is longer than the longest one. -/
theorem le_longestRun {k : Nat} {t : Text} (h : List.replicate k backtick <:+: t) :
    k ≤ longestRun t := by
  cases k with
  | zero => exact Nat.zero_le _
  | succ k =>
    obtain ⟨front, back, rfl⟩ := h
    have counted : longestRun (front ++ List.replicate (k + 1) backtick ++ back) =
        (back.foldl lengthen ((List.replicate (k + 1) backtick).foldl lengthen
          (front.foldl lengthen (0, 0)))).1 := by
      rw [List.append_assoc, ← List.foldl_append, ← List.foldl_append]
      rfl
    rw [counted]
    have inside := add_le_foldl_replicate k (front.foldl lengthen (0, 0))
    have behind := fst_le_foldl_lengthen ((List.replicate (k + 1) backtick).foldl lengthen
      (front.foldl lengthen (0, 0))) back
    omega

theorem exists_fence (code : Text) :
    ∃ k, fenceFor code = List.replicate k backtick ∧ 3 ≤ k ∧ longestRun code < k := by
  rw [fenceFor]
  split
  · rename_i short
    exact ⟨3, rfl, Nat.le_refl 3, short⟩
  · exact ⟨longestRun code + 1, rfl, by omega, Nat.lt_succ_self _⟩

theorem not_fence_infix (code : Text) : ¬ fenceFor code <:+: code := by
  intro h
  obtain ⟨k, fence, -, longer⟩ := exists_fence code
  rw [fence] at h
  have := le_longestRun h
  omega

theorem fenceOf_of_stripStart {line rest : Text} {c : Char}
    (body : Text.stripStart line = c :: rest) : fenceOf line =
      if c = backtick ∨ c = '~' then
        if ((c :: rest).takeWhile (· == c)).length < 3 then none
        else some ((c :: rest).takeWhile (· == c))
      else none := by
  rw [fenceOf]
  simp only [body, Bool.or_eq_true, decide_eq_true_eq]
  by_cases mark : c = backtick ∨ c = '~'
  · simp only [if_pos mark]
  · simp only [if_neg mark]
    rfl

/-- The run that a line begins with is part of the line. -/
theorem infix_of_fenceOf {line run : Text} (h : fenceOf line = some run) : run <:+: line := by
  cases body : Text.stripStart line with
  | nil =>
    rw [fenceOf, body] at h
    cases h
  | cons c rest =>
    rw [fenceOf_of_stripStart body] at h
    split at h
    · split at h
      · cases h
      · rw [← Option.some.inj h, ← body]
        exact (List.takeWhile_prefix _).isInfix.trans (List.dropWhile_suffix _).isInfix
    · cases h

/-- Only a line that has the fence in it closes it. -/
theorem not_closesFence {fence run line : Text} (free : ¬ fence <:+: line)
    (h : fenceOf line = some run) : closesFence fence run line = false := by
  refine Bool.eq_false_iff.mpr fun closes => free ?_
  rw [closesFence, Bool.and_eq_true] at closes
  exact (List.isPrefixOf_iff_prefix.mp closes.1).isInfix.trans (infix_of_fenceOf h)

/-- A run of backticks ends where something else begins. -/
theorem span_backticks (k : Nat) {rest : Text} (free : backtick ∉ rest) :
    (List.replicate k backtick ++ rest).takeWhile (· == backtick) = List.replicate k backtick ∧
      (List.replicate k backtick ++ rest).dropWhile (· == backtick) = rest := by
  have marks : ∀ c ∈ List.replicate k backtick, (c == backtick) = true := fun c hc =>
    beq_iff_eq.mpr (List.eq_of_mem_replicate hc)
  cases rest with
  | nil =>
    rw [List.append_nil]
    exact ⟨List.takeWhile_eq_self_iff.mpr marks, List.dropWhile_eq_nil_iff.mpr marks⟩
  | cons c r =>
    have other : (c == backtick) = false :=
      beq_eq_false_iff_ne.mpr fun same => free (same ▸ List.mem_cons_self)
    exact Text.span_stop marks other r

theorem fenceOf_fence {k : Nat} (long : 3 ≤ k) (rest : Text) (free : backtick ∉ rest) :
    fenceOf (List.replicate k backtick ++ rest) = some (List.replicate k backtick) := by
  obtain ⟨j, rfl⟩ : ∃ j, k = j + 1 := ⟨k - 1, by omega⟩
  have shown : Text.isBlankChar backtick = false := by decide
  have body : Text.stripStart (List.replicate (j + 1) backtick ++ rest) =
      backtick :: (List.replicate j backtick ++ rest) :=
    List.dropWhile_cons_of_neg (by simp [shown])
  have run : (backtick :: (List.replicate j backtick ++ rest)).takeWhile (· == backtick) =
      List.replicate (j + 1) backtick := (span_backticks (j + 1) free).1
  rw [fenceOf_of_stripStart body, run, if_pos (Or.inl rfl), List.length_replicate,
    if_neg (by omega)]

theorem strip_replicate_backtick (k : Nat) :
    Text.strip (List.replicate k backtick) = List.replicate k backtick := by
  have shown : Text.isBlankChar backtick = false := by decide
  apply Text.dropAround_of_ends
  · intro c hc
    rw [List.eq_of_mem_replicate (List.mem_of_mem_head? hc), shown]
  · intro c hc
    rw [List.eq_of_mem_replicate (List.mem_of_mem_getLast? hc), shown]

theorem closesFence_fence (k : Nat) :
    closesFence (List.replicate k backtick) (List.replicate k backtick)
      (List.replicate k backtick) = true := by
  rw [closesFence, strip_replicate_backtick, Bool.and_eq_true]
  exact ⟨List.isPrefixOf_iff_prefix.mpr (List.prefix_refl _), beq_self_eq_true _⟩

theorem newline_not_mem_fenceFor (code : Text) : '\n' ∉ fenceFor code := by
  obtain ⟨k, fence, -, -⟩ := exists_fence code
  rw [fence]
  intro hn
  exact absurd (List.eq_of_mem_replicate hn) (by decide)

/-- The lines of a code block: those of the language and the code stand between the fences. -/
theorem lines_codeMarkdown (language code : Text) : ∃ opening inner,
    Text.lines (Convert.codeMarkdown language code) =
      (fenceFor code ++ opening) :: (inner ++ [fenceFor code]) ∧
    opening ∈ Text.lines language ∧ ∀ l ∈ inner, l ∈ Text.lines language ∨ l <:+: code := by
  have line := newline_not_mem_fenceFor code
  obtain ⟨opening, below, cut⟩ := List.exists_cons_of_ne_nil (Text.lines_ne_nil language)
  have front : Text.lines (fenceFor code ++ language) = (fenceFor code ++ opening) :: below := by
    rw [Text.lines_append_of_not_mem line, cut]
    rfl
  have language' : ∀ l ∈ below, l ∈ Text.lines language := fun l hl => by simp [cut, hl]
  rw [Convert.codeMarkdown]
  split
  · refine ⟨opening, below, ?_, by simp [cut], fun l hl => Or.inl (language' l hl)⟩
    rw [List.append_assoc, List.cons_append, List.nil_append, Text.lines_append_newline, front,
      Text.lines_of_not_mem line]
    rfl
  · refine ⟨opening, below ++ Text.lines (Text.dropEndWhile (· == '\n') code), ?_, by simp [cut],
      fun l hl => ?_⟩
    · rw [List.append_assoc, List.cons_append,
        Text.lines_append_newline (fenceFor code ++ language), front, List.append_assoc,
        List.singleton_append, Text.lines_append_newline, Text.lines_of_not_mem line]
      simp
    · rcases List.mem_append.mp hl with hl | hl
      · exact Or.inl (language' l hl)
      · obtain ⟨back, hb, -⟩ := Text.exists_dropEndWhile (· == '\n') code
        refine Or.inr ((Text.infix_of_mem_lines hl).trans ⟨[], back, hb.symm⟩)

/-- Code begins and ends with its fences, which are not blank. -/
theorem framed_codeMarkdown (language code : Text) :
    Framed (Text.lines (Convert.codeMarkdown language code)) := by
  obtain ⟨opening, inner, cut, -, -⟩ := lines_codeMarkdown language code
  obtain ⟨k, fence, long, -⟩ := exists_fence code
  have shown : Text.isBlank (fenceFor code) = false := by
    obtain ⟨j, rfl⟩ : ∃ j, k = j + 1 := ⟨k - 1, by omega⟩
    rw [fence]
    rfl
  rw [cut]
  constructor
  · intro l hl
    cases hl
    rw [Text.isBlank_append, shown, Bool.false_and]
  · intro l hl
    rw [← List.cons_append, List.getLast?_concat] at hl
    cases hl
    exact shown

/-- A line as it is, or moved to the right. -/
def Indented (l m : Text) : Prop :=
  m = l ∨ ∃ k, m = Text.indentLine k l

theorem Indented.fenceOf_eq {l m : Text} (h : Indented l m) : fenceOf m = fenceOf l := by
  rcases h with rfl | ⟨k, rfl⟩
  · rfl
  · cases blank : Text.isBlank l with
    | true =>
      rw [Text.indentLine_of_isBlank blank, Tracking.fenceOf_of_isBlank blank]
      rfl
    | false =>
      have body : Text.stripStart (Text.spaces k ++ l) = Text.stripStart l :=
        Text.dropWhile_spaces_append k l
      rw [Text.indentLine_of_shown blank, fenceOf, body]
      rfl

theorem Indented.closesFence_eq {l m : Text} (h : Indented l m) (fence run : Text) :
    closesFence fence run m = closesFence fence run l := by
  have text : Text.strip m = Text.strip l := by
    rcases h with rfl | ⟨k, rfl⟩
    · rfl
    · exact Text.strip_indentLine k l
  rw [closesFence, text, closesFence]

theorem backtick_not_mem_languageFor (declared code : Text) :
    backtick ∉ languageFor declared code := by
  have plain : backtick ∉ diagramLanguage := by decide
  rw [languageFor]
  split
  · split
    · exact plain
    · simp
  · split
    · exact plain
    · intro h
      simpa using Text.mem_of_mem_strip h

theorem Indented.isBlank_eq {l m : Text} (h : Indented l m) : Text.isBlank m = Text.isBlank l := by
  rcases h with rfl | ⟨k, rfl⟩
  · rfl
  · exact Text.isBlank_indentLine k l

theorem Indented.eq_nil {m : Text} (h : Indented [] m) : m = [] := by
  rcases h with rfl | ⟨k, rfl⟩
  · rfl
  · rfl

namespace Tracking

theorem step_indented {l m : Text} (h : Indented l m) (t : Tracking) : t.step m = t.step l := by
  rw [step, h.fenceOf_eq, h.isBlank_eq, step]
  simp only [h.closesFence_eq]

variable {ls own : List Text}

/-- Fences are seen at every indentation. -/
theorem after_indented (h : List.Forall₂ Indented ls own) (t : Tracking) :
    t.after own = t.after ls := by
  induction h generalizing t with
  | nil => rfl
  | cons first _ ih =>
    rw [after, List.foldl_cons, step_indented first]
    exact ih _

theorem Spares.indented {t : Tracking} (spares : t.Spares ls) (h : List.Forall₂ Indented ls own) :
    t.Spares own := by
  induction h generalizing t with
  | nil => exact spares
  | @cons l m ls own first _ ih =>
    obtain ⟨here, below⟩ := spares_cons.mp spares
    apply spares_cons.mpr
    constructor
    · apply emit_eq_singleton_iff.mpr
      intro blank
      rw [first.isBlank_eq] at blank
      rcases emit_eq_singleton_iff.mp here blank with fenced | ⟨rfl, shown⟩
      · exact Or.inl fenced
      · exact Or.inr ⟨first.eq_nil, shown⟩
    · rw [step_indented first]
      exact ih below

/-- Code met with no fence open stays as it is, and no fence is open behind it. -/
theorem spares_codeMarkdown {t : Tracking} (closed : t.fence = none) {language code : Text}
    (plain : backtick ∉ language)
    (h : List.Forall₂ Indented (Text.lines (Convert.codeMarkdown language code)) own) :
    t.Spares own ∧ t.after own = {} := by
  obtain ⟨opening, inner, cut, first, between⟩ := lines_codeMarkdown language code
  obtain ⟨k, fence, long, -⟩ := exists_fence code
  have free : backtick ∉ opening := fun hb => plain (Text.mem_of_mem_lines first hb)
  -- A line that closed the fence would have all of it, and neither the language nor the code does.
  have inside : ∀ l ∈ inner, ∀ run, fenceOf l = some run →
      closesFence (fenceFor code) run l = false := by
    intro l hl run hr
    apply not_closesFence _ hr
    intro fenced
    rcases between l hl with hl | hl
    · refine plain (Text.mem_of_mem_lines hl (fenced.subset ?_))
      rw [fence]
      exact List.mem_replicate.mpr ⟨by omega, rfl⟩
    · exact not_fence_infix code (fenced.trans hl)
  have opens : fenceOf (fenceFor code ++ opening) = some (fenceFor code) := by
    rw [fence]
    exact fenceOf_fence long opening free
  have ends : fenceOf (fenceFor code) = some (fenceFor code) := by
    have alone := fenceOf_fence long [] (by simp)
    rwa [List.append_nil, ← fence] at alone
  have closes : closesFence (fenceFor code) (fenceFor code) (fenceFor code) = true := by
    rw [fence]
    exact closesFence_fence k
  obtain ⟨spares, after⟩ := spares_fenced closed opens inside ends closes
  rw [← cut] at spares after
  exact ⟨spares.indented h, (after_indented h t).trans after⟩

end Tracking

end Docmark.Markdown
