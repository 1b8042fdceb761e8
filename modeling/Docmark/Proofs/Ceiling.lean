import Docmark.Options
import Mathlib.Algebra.Group.Nat.Defs

/-!
What is left of a ceiling below a level: all levels that are left, for every depth that can be asked
for. Where the depth is no whole number, this rests on its difference from a level being rounded to
no less than the whole numbers below it.
-/

namespace Docmark

namespace Binary64

theorem le_roundDiv (num den : Nat) : num / den ≤ roundDiv num den := by
  unfold roundDiv
  dsimp only
  split <;> omega

/-- The whole part of a number without factors of two before the point. -/
theorem floor?_finite {m : Nat} {e : Int} (small : e ≤ 0) :
    (finite false m e).floor? = some ((m / 2 ^ (-e).toNat : Nat) : Int) := by
  have one : power 2 e = 1 := by
    rw [power, Int.toNat_of_nonpos small, Nat.pow_eq, Nat.pow_zero]
  simp only [floor?, quotient?, one, Bool.false_eq_true, ↓reduceIte, Option.map_some,
    Option.some.injEq, Int.natCast_one, Int.mul_one]
  exact (Int.ofNat_fdiv m _).symm

/-- The number nearest to a quotient, on a grid that is fine enough for whole numbers. -/
theorem le_roundDiv_scaled {num den i : Nat} (pos : 0 < den) (le : i * den ≤ num) {e : Int}
    (small : e < 0) :
    i * 2 ^ (-e).toNat ≤ roundDiv (scaled num den e).1 (scaled num den e).2 := by
  rw [scaled, if_neg (by omega)]
  refine Nat.le_trans ((Nat.le_div_iff_mul_le pos).mpr ?_) (le_roundDiv _ _)
  rw [Nat.mul_right_comm]
  exact Nat.mul_le_mul_right _ le

theorem quotient?_pos {x : Binary64} {n : Int} {d : Nat} (h : x.quotient? = some (n, d)) :
    0 < d := by
  cases x with
  | finite negative m e =>
    obtain ⟨-, rfl⟩ := Prod.mk.inj (Option.some.inj h)
    exact Nat.pow_pos (by decide)
  | infinite negative => cases h
  | notANumber => cases h

/-- A quotient within the limit on depths has few factors of two. -/
theorem log2_le_of_bounded {num den : Nat} (bounded : num ≤ depthLimit * den) :
    num.log2 ≤ den.log2 + 9 := by
  have less : den < 2 ^ (den.log2 + 1) := Nat.lt_log2_self
  by_cases zero : num = 0
  · simp [zero]
  · have bound : num < 2 ^ (den.log2 + 10) := by
      rw [Nat.pow_succ] at less
      rw [Nat.pow_add]
      simp only [depthLimit] at bounded
      omega
    have := (Nat.log2_lt zero).mpr bound
    omega

/-- A quotient is not rounded below a whole number that it reaches. -/
theorem le_floor_ofQuotient {num den i : Nat} (pos : 0 < den) (bounded : num ≤ depthLimit * den)
    (le : i * den ≤ num) :
    ∃ f : Int, (ofQuotient false num den).floor? = some f ∧ (i : Int) ≤ f := by
  have near := log2_le_of_bounded bounded
  unfold ofQuotient
  extract_lets guess fits lowest e
  have small : e < -1 := by
    have : lowest ≤ guess + 2 := by
      simp only [lowest]
      split
      · omega
      · split <;> omega
    simp only [e, guess, minExponent] at this ⊢
    omega
  have negative : e < 0 := by omega
  have reached := le_roundDiv_scaled pos le negative
  generalize scaled num den e = p at reached
  obtain ⟨n, d⟩ := p
  dsimp only at reached ⊢
  generalize roundDiv n d = m at reached
  have bounds : ¬ e > maxExponent ∧ ¬ e + 1 > maxExponent := by
    simp only [maxExponent]
    omega
  by_cases carry : m = mantissaLimit
  · have half : (-e).toNat = (-(e + 1)).toNat + 1 := by omega
    have even : mantissaLimit = mantissaLimit / 2 * 2 := by decide
    rw [carry, even, half, Nat.pow_succ, ← Nat.mul_assoc] at reached
    simp only [carry, beq_self_eq_true, ↓reduceIte, bounds.2]
    refine ⟨_, floor?_finite (by omega), Int.ofNat_le.mpr ?_⟩
    exact (Nat.le_div_iff_mul_le (Nat.two_pow_pos _)).mpr
      (Nat.le_of_mul_le_mul_right reached (by decide))
  · simp only [beq_iff_eq, carry, ↓reduceIte, bounds.1]
    exact ⟨_, floor?_finite (by omega), Int.ofNat_le.mpr
      ((Nat.le_div_iff_mul_le (Nat.two_pow_pos _)).mpr reached)⟩

/-- Nor is a difference. -/
theorem le_floor_minus {x : Binary64} {num den k : Nat} (h : x.quotient? = some ((num : Int), den))
    (bounded : num ≤ depthLimit * den) (inside : k ≤ num / den) :
    ∃ f : Int, (x.minus k).floor? = some f ∧ ((num / den - k : Nat) : Int) ≤ f := by
  have pos : 0 < den := quotient?_pos h
  have reached : num / den * den ≤ num := Nat.div_mul_le_self num den
  have part : k * den ≤ num / den * den := Nat.mul_le_mul_right den inside
  have difference : (num : Int) - k * den = (num - k * den : Nat) := by
    rw [Int.ofNat_sub (Nat.le_trans part reached), Int.natCast_mul]
  rw [minus, h]
  dsimp only
  rw [difference]
  split
  · rename_i zero
    have none : num / den ≤ k := by
      refine Nat.le_of_mul_le_mul_right (Nat.le_trans reached ?_) pos
      omega
    have empty : num / den - k = 0 := Nat.sub_eq_zero_of_le none
    exact ⟨_, floor?_finite (by decide), Int.ofNat_le.mpr (Nat.le_trans (Nat.le_of_eq empty)
      (Nat.zero_le _))⟩
  · have natural : ¬ ((num - k * den : Nat) : Int) < 0 := by omega
    rw [decide_eq_false natural, Int.natAbs_natCast]
    refine le_floor_ofQuotient pos (Nat.le_trans (Nat.sub_le _ _) bounded) ?_
    rw [Nat.sub_mul]
    omega

end Binary64

namespace Ceiling

theorem levels_whole (n : Nat) : (whole n).levels = n + 1 :=
  Int.toNat_natCast (n + 1)

theorem levels_below_whole (n : Int) (k : Nat) :
    ((whole n).below k).levels = (whole n).levels - k := by
  simp only [below, levels]
  omega

theorem levels_below_flag (b : Bool) (k : Nat) :
    ((flag b).below k).levels = (flag b).levels - k := by
  simp only [below, levels]
  omega

end Ceiling

/-- Below a level there are all levels that are left. -/
theorem Depth.le_levels_below (depth : Depth) {k : Nat} (inside : k < depth.ceiling.levels) :
    depth.ceiling.levels - k ≤ (depth.ceiling.below k).levels := by
  obtain ⟨ceiling, positive, bounded⟩ := depth
  cases ceiling with
  | whole n => exact Nat.le_of_eq (Ceiling.levels_below_whole n k).symm
  | flag b => exact Nat.le_of_eq (Ceiling.levels_below_flag b k).symm
  | real x =>
    dsimp only at inside ⊢
    simp only [Ceiling.isLess, Ceiling.isGreater, Binary64.isLess, Binary64.isGreater]
      at positive bounded
    cases hq : x.quotient? with
    | none =>
      have same : x.minus k = x := by simp [Binary64.minus, hq]
      rw [Ceiling.below, same]
      exact Nat.sub_le _ _
    | some q =>
      obtain ⟨n, den⟩ := q
      have pos : 0 < den := Binary64.quotient?_pos hq
      simp only [hq, decide_eq_false_iff_not, Int.one_mul, Int.not_lt] at positive bounded
      obtain ⟨num, rfl⟩ := Int.eq_ofNat_of_zero_le (a := n) (by omega)
      have whole : x.floor? = some ((num / den : Nat) : Int) := by
        rw [Binary64.floor?, hq, Option.map_some, Int.ofNat_fdiv]
      have levels : (Ceiling.real x).levels = num / den + 1 := by
        simp only [Ceiling.levels, whole]
        exact Int.toNat_natCast _
      rw [levels] at inside ⊢
      obtain ⟨f, floor, le⟩ := Binary64.le_floor_minus hq (by exact_mod_cast bounded)
        (Nat.lt_succ_iff.mp inside)
      simp only [Ceiling.below, Ceiling.levels, floor]
      omega

end Docmark
