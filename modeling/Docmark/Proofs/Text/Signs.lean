import Docmark.Markdown.Escape
import Docmark.Proofs.Text.Lines
import Docmark.Proofs.Text.Trim
import Mathlib.Data.List.Flatten

/-!
Signs in a text that all begin with one character, such as markers. Reading the signs off a text
that is put together from lines and blocks, or trimmed, is reading them off its parts.
-/

namespace Docmark.Text

/-- White space and backslashes, over which no sign reaches. -/
def Parts (c : Char) : Prop :=
  isBlankChar c = true ∨ c = '\\'

/-- A character that no layout of Markdown writes of its own. -/
structure Foreign (c : Char) : Prop where
  blank : isBlankChar c = false
  decimal : isDecimal c = false
  rule : Markdown.isRuleChar c = false
  letter : c.isAlpha = false
  layout : c ∉ ['.', ')', '\\', '>', '!', '\x22']

/-- A reading `μ` of texts for signs, each of which begins with the character `o`. -/
structure Signs {α : Type} (o : Char) (μ : Text → List α) : Prop where
  foreign : Foreign o
  empty : μ [] = []
  skip : ∀ {c : Char}, c ≠ o → ∀ t, μ (c :: t) = μ t
  part : ∀ {c : Char}, Parts c → ∀ t u, μ (t ++ c :: u) = μ t ++ μ u

theorem parts_newline : Parts '\n' :=
  Or.inl (by decide)

theorem parts_space : Parts ' ' :=
  Or.inl (by decide)

theorem parts_backslash : Parts '\\' :=
  Or.inr rfl

namespace Foreign

variable {o : Char} (h : Foreign o)

include h

theorem not_parts : ¬ Parts o := by
  rintro (blank | rfl)
  · rw [h.blank] at blank
    cases blank
  · exact h.layout (by simp)

theorem ne_of_mem_layout {c : Char} (hc : c ∈ ['.', ')', '\\', '>', '!', '\x22']) : c ≠ o := by
  rintro rfl
  exact h.layout hc

theorem ne_of_isRuleChar {c : Char} (hc : Markdown.isRuleChar c = true) : c ≠ o := by
  rintro rfl
  rw [h.rule] at hc
  cases hc

theorem ne_of_isBlankChar {c : Char} (hc : isBlankChar c = true) : c ≠ o := by
  rintro rfl
  rw [h.blank] at hc
  cases hc

theorem not_mem_spaces (n : Nat) : o ∉ spaces n := by
  intro hm
  exact h.ne_of_isBlankChar (c := ' ') (by decide) (List.eq_of_mem_replicate hm).symm

end Foreign

theorem not_mem_of_all {p : Char → Bool} {o : Char} (hp : p o = false) {t : Text}
    (h : ∀ c ∈ t, p c = true) : o ∉ t := by
  intro hm
  have := h o hm
  simp [hp] at this

theorem not_mem_takeWhile {p : Char → Bool} {o : Char} (hp : p o = false) (t : Text) :
    o ∉ t.takeWhile p :=
  not_mem_of_all hp (List.all_eq_true.mp List.all_takeWhile)

namespace Signs

variable {α : Type} {o : Char} {μ : Text → List α} (h : Signs o μ)

include h

theorem of_not_mem_append {t : Text} (none : o ∉ t) (u : Text) : μ (t ++ u) = μ u := by
  induction t with
  | nil => rfl
  | cons c t ih =>
    rw [List.mem_cons, not_or] at none
    rw [List.cons_append, h.skip (Ne.symm none.1), ih none.2]

theorem of_not_mem {t : Text} (none : o ∉ t) : μ t = [] := by
  have := h.of_not_mem_append none []
  rwa [List.append_nil, h.empty] at this

theorem append_of_parts (t : Text) {u : Text} (parts : ∀ c ∈ u, Parts c) : μ (t ++ u) = μ t := by
  cases u with
  | nil => rw [List.append_nil]
  | cons c u =>
    have none : o ∉ u := fun hm => h.foreign.not_parts (parts o (by simp [hm]))
    rw [h.part (parts c (by simp)), h.of_not_mem none, List.append_nil]

theorem of_isBlank {t : Text} (blank : isBlank t = true) : μ t = [] :=
  h.of_not_mem (not_mem_of_all h.foreign.blank (List.all_eq_true.mp blank))

theorem joinWith {c : Char} {sep : Text} (parts : ∀ d ∈ c :: sep, Parts d) (ts : List Text) :
    μ (Text.joinWith (c :: sep) ts) = ts.flatMap μ := by
  induction ts with
  | nil => exact h.empty
  | cons t ts ih =>
    cases ts with
    | nil => simp [Text.joinWith]
    | cons u us =>
      have none : o ∉ sep := fun hm => h.foreign.not_parts (parts o (by simp [hm]))
      rw [joinWith_cons _ _ (by simp), List.append_assoc, List.cons_append,
        h.part (parts c (by simp)), h.of_not_mem_append none, ih]
      rfl

theorem unlines (ls : List Text) : μ (Text.unlines ls) = ls.flatMap μ :=
  h.joinWith (by simp [parts_newline]) ls

theorem joinBlocks (bs : List Text) : μ (Text.joinBlocks bs) = bs.flatMap μ :=
  h.joinWith (by simp [parts_newline]) bs

/-- The signs of a text are those of its lines. -/
theorem lines (t : Text) : (Text.lines t).flatMap μ = μ t := by
  rw [← h.unlines, unlines_lines]

/-- What keeps the signs of every line keeps those of a text. -/
theorem mapLines {g : Text → Text} (same : ∀ l, μ (g l) = μ l) (t : Text) :
    μ (Text.unlines ((Text.lines t).map g)) = μ t := by
  rw [h.unlines, List.flatMap_map, ← h.lines t]
  simp only [same]

/-- Taking blanks and the like off the ends takes no sign away. -/
theorem dropAround {p : Char → Bool} (parts : ∀ c, p c = true → Parts c) (t : Text) :
    μ (Text.dropAround p t) = μ t := by
  obtain ⟨a, b, ht, ha, hb⟩ := exists_dropAround p t
  have none : o ∉ a := fun hm => h.foreign.not_parts (parts o (ha o hm))
  have whole := h.append_of_parts (a ++ Text.dropAround p t) (fun c hc => parts c (hb c hc))
  rw [← ht, h.of_not_mem_append none] at whole
  exact whole.symm

theorem strip (t : Text) : μ (Text.strip t) = μ t :=
  h.dropAround (fun _ => Or.inl) t

theorem trimNewlines (t : Text) : μ (Text.trimNewlines t) = μ t :=
  h.dropAround (fun c hc => by rw [beq_iff_eq.mp hc]; exact parts_newline) t

end Signs

end Docmark.Text
