import Docmark.Proofs.Text.Decimal
import Docmark.Proofs.Text.Trim

/-!
Texts of digits as numbers. Such a text is read just where all its digits are decimal ones, and
where there are not too many.
-/

namespace Docmark.Text

/-- A text of digits that stands for a number. -/
structure Countable (t : Text) : Prop where
  decimal : ∀ c ∈ t, isDecimal c = true
  short : t.length ≤ maxDigits

/-- Where the digits that do not combine stand, as far as it matters here. -/
theorem gap_of_mem_lesserDigits : ∀ p ∈ lesserDigits,
    178 ≤ p.1 ∧ p.2 ≤ 185 ∨ 4969 ≤ p.1 ∧ p.2 ≤ 4977 ∨ 6618 ≤ p.1 ∧ p.2 ≤ 6618 ∨
      8304 ≤ p.1 ∧ p.2 ≤ 10130 ∨ 68160 ≤ p.1 := by
  decide

theorem not_isBlankChar_of_isDigit {c : Char} (h : isDigit c = true) : isBlankChar c = false := by
  rw [isDigit, Bool.or_eq_true] at h
  rcases h with h | h
  · exact not_isBlankChar_of_isDecimal h
  · obtain ⟨p, hp, inside⟩ := List.any_eq_true.mp h
    have gap := gap_of_mem_lesserDigits p hp
    simp only [Bool.and_eq_true, decide_eq_true_eq] at inside
    simp only [isBlankChar, Bool.or_eq_false_iff, Bool.and_eq_false_iff, decide_eq_false_iff_not,
      beq_eq_false_iff_ne]
    omega

theorem not_isNumberPad_of_isDigit {c : Char} (h : isDigit c = true) : isNumberPad c = false := by
  rw [isNumberPad, not_isBlankChar_of_isDigit h, Bool.false_and]

/-- Digits are read up to the first that is no decimal one. -/
theorem leadingDigits_of_digits {t : Text} (h : ∀ c ∈ t, isDigit c = true) :
    ∃ ds rest, leadingDigits false t = some (ds, rest) ∧ ds.length + rest.length = t.length ∧
      (∀ c ∈ rest, isDigit c = true) ∧ (rest = [] ↔ ∀ c ∈ t, isDecimal c = true) := by
  induction t with
  | nil => exact ⟨[], [], rfl, rfl, by simp, by simp⟩
  | cons c r ih =>
    have bar : c ≠ '_' := by
      rintro rfl
      exact absurd (h '_' (by simp)) (by decide)
    rw [leadingDigits, if_neg bar]
    cases value : digitValue? c with
    | none =>
      have lesser : isDecimal c = false := by rw [isDecimal, value]; rfl
      exact ⟨[], c :: r, rfl, by simp, h, by simp [lesser]⟩
    | some d =>
      have decimal : isDecimal c = true := by rw [isDecimal, value]; rfl
      obtain ⟨ds, rest, read, length, digits, all⟩ := ih fun e he => h e (by simp [he])
      refine ⟨d :: ds, rest, by rw [read]; rfl, ?_, digits, by simp [all, decimal]⟩
      rw [List.length_cons, List.length_cons]
      omega

theorem leadingDigits_needed {c : Char} (h : isDigit c = true) (r : Text) :
    leadingDigits true (c :: r) = if isDecimal c then leadingDigits false (c :: r) else none := by
  have bar : c ≠ '_' := by
    rintro rfl
    exact absurd h (by decide)
  rw [leadingDigits, leadingDigits, if_neg bar, if_neg bar, isDecimal]
  cases digitValue? c <;> rfl

/-- Before the digits there is nothing to skip. -/
theorem readInt_digits {c : Char} (h : isDigit c = true) (r : Text) :
    readInt (c :: r) =
      match leadingDigits true (c :: r) with
      | none => .error (.notANumber (c :: r))
      | some (ds, rest) =>
        if ds.length > maxDigits then .error (.tooManyDigits ds.length)
        else if rest.all isNumberPad then .ok (ofDigits ds)
        else .error (.notANumber (c :: r)) := by
  have skip : (c :: r).dropWhile isNumberPad = c :: r := by
    simp [not_isNumberPad_of_isDigit h]
  have unsigned : cutSign (c :: r) = (false, c :: r) := by
    unfold cutSign
    split
    · rename_i front
      rw [List.cons.injEq] at front
      exact absurd (front.1 ▸ h) (by decide)
    · rename_i front
      rw [List.cons.injEq] at front
      exact absurd (front.1 ▸ h) (by decide)
    · rfl
  rw [readInt, skip, unsigned]
  rfl

theorem exists_readInt_iff {t : Text} (ne : t ≠ []) (h : ∀ c ∈ t, isDigit c = true) :
    (∃ n, readInt t = .ok n) ↔ Countable t := by
  obtain ⟨c, r, rfl⟩ := List.exists_cons_of_ne_nil ne
  have here := h c (by simp)
  rw [readInt_digits here, leadingDigits_needed here]
  by_cases decimal : isDecimal c = true
  · obtain ⟨ds, rest, read, length, digits, all⟩ := leadingDigits_of_digits h
    simp only [decimal, ↓reduceIte, read]
    by_cases many : ds.length > maxDigits
    · have long : ¬ Countable (c :: r) := fun k => by
        have := k.short
        omega
      simp [many, long]
    · cases rest with
      | nil =>
        rw [List.length_nil, Nat.add_zero] at length
        have countable : Countable (c :: r) := ⟨all.mp rfl, by omega⟩
        simp [many, countable]
      | cons e es =>
        have mixed : ¬ Countable (c :: r) := fun k => List.cons_ne_nil _ _ (all.mpr k.decimal)
        have stops : isNumberPad e = false := not_isNumberPad_of_isDigit (digits e (by simp))
        simp [many, mixed, stops]
  · have lesser : ¬ Countable (c :: r) := fun k => decimal (k.decimal c (by simp))
    simp [decimal, lesser]

end Docmark.Text
