import Docmark.Text.Digit
import Mathlib.Data.List.Basic

/-!
Whole numbers in base ten: their digits, and that reading gives back what was written.
-/

namespace Docmark.Text

theorem digitValue?_of_isDigit {c : Char} (h : c.isDigit = true) :
    digitValue? c = some (c.toNat - 48) := by
  have hc : 48 ≤ c.toNat ∧ c.toNat ≤ 57 := by
    simp only [Char.isDigit, Bool.and_eq_true, decide_eq_true_eq] at h
    exact h
  simp [digitValue?, decimalZeros, hc.1, hc.2]

theorem isDecimal_of_isDigit {c : Char} (h : c.isDigit = true) : isDecimal c = true := by
  simp [isDecimal, digitValue?_of_isDigit h]

theorem decimal_ne_nil (n : Nat) : decimal n ≠ [] :=
  Nat.toDigits_ne_nil

theorem isDigit_of_mem_decimal {n : Nat} {c : Char} (h : c ∈ decimal n) : c.isDigit = true :=
  Nat.isDigit_of_mem_toDigits (by decide) (by decide) h

theorem decimal_injective : Function.Injective decimal := by
  intro m n h
  rw [← Nat.ofDigitChars_ten_toDigits (n := m), ← Nat.ofDigitChars_ten_toDigits (n := n)]
  exact congrArg (fun t => Nat.ofDigitChars 10 t 0) h

theorem decimalInt_injective : Function.Injective decimalInt := by
  -- no digit is a minus sign
  have signed {m n : Nat} (h : decimal m = '-' :: decimal n) : False := by
    have digit := isDigit_of_mem_decimal (n := m) (c := '-') (by rw [h]; exact List.mem_cons_self)
    exact absurd digit (by decide)
  intro m n h
  cases m with
  | ofNat m =>
    cases n with
    | ofNat n => exact congrArg Int.ofNat (decimal_injective h)
    | negSucc n => exact (signed h).elim
  | negSucc m =>
    cases n with
    | ofNat n => exact (signed h.symm).elim
    | negSucc n =>
      have same := decimal_injective (List.tail_eq_of_cons_eq h)
      exact congrArg Int.negSucc (Nat.succ.inj same)

theorem leadingDigits_of_isDigit {t : Text} (h : ∀ c ∈ t, c.isDigit = true) :
    leadingDigits false t = some (t.map fun c => c.toNat - 48, []) := by
  induction t with
  | nil => rfl
  | cons c r ih =>
    have hc := h c (by simp)
    have hu : c ≠ '_' := by
      rintro rfl
      exact absurd hc (by decide)
    rw [leadingDigits, if_neg hu, digitValue?_of_isDigit hc, ih fun d hd => h d (by simp [hd])]
    rfl

theorem readInt_decimal {n : Nat} (h : (decimal n).length ≤ maxDigits) :
    readInt (decimal n) = .ok n := by
  obtain ⟨c, r, hd⟩ := List.exists_cons_of_ne_nil (decimal_ne_nil n)
  have digits : ∀ x ∈ decimal n, x.isDigit = true := fun x hx => isDigit_of_mem_decimal hx
  have hc : c.isDigit = true := digits c (by simp [hd])
  have no_pad : isNumberPad c = false := by
    simp only [Char.isDigit, Bool.and_eq_true, decide_eq_true_eq] at hc
    have : 48 ≤ c.toNat ∧ c.toNat ≤ 57 := hc
    simp only [isNumberPad, isBlankChar, Bool.and_eq_false_iff, Bool.or_eq_false_iff,
      decide_eq_false_iff_not, beq_eq_false_iff_ne]
    omega
  have no_sign : cutSign (decimal n) = (false, decimal n) := by
    rw [hd]
    unfold cutSign
    split
    · rename_i he
      rw [List.cons.injEq] at he
      exact absurd (he.1 ▸ hc) (by decide)
    · rename_i he
      rw [List.cons.injEq] at he
      exact absurd (he.1 ▸ hc) (by decide)
    · rfl
  have first : leadingDigits true (decimal n) = leadingDigits false (decimal n) := by
    rw [hd]
    unfold leadingDigits
    rw [digitValue?_of_isDigit hc]
    split <;> simp_all
  have value : ofDigits ((decimal n).map fun c => c.toNat - 48) = n := by
    have := Nat.ofDigitChars_ten_toDigits (n := n)
    simpa [ofDigits, List.foldl_map, Nat.ofDigitChars, decimal] using this
  have skip : (decimal n).dropWhile isNumberPad = decimal n := by simp [hd, no_pad]
  rw [readInt, skip, no_sign]
  simp only [first, leadingDigits_of_isDigit digits, List.length_map, value, gt_iff_lt,
    Nat.not_lt.mpr h, ↓reduceIte, List.all_nil, Bool.false_eq_true]

end Docmark.Text
