import Docmark.Convert.Block
import Docmark.Proofs.Convert.ListColumns
import Docmark.Proofs.Markdown.PlainLine

/-!
The column of a marker in a line of a list, through what containers do to the line. In front of the
marker a line has white space, or what other containers put there.
-/

namespace Docmark

open Markdown Text

/-- The markers of list items in both of their forms. -/
inductive IsMarker : Text → Prop
  | bullet {c : Char} (form : c = '-' ∨ c = '*') : IsMarker [c]
  | ordered (number : Nat) {c : Char} (form : c = '.' ∨ c = ')') : IsMarker (decimal number ++ [c])

/-- A character that no line has in front of a marker of its own. -/
def IsSign (c : Char) : Prop :=
  isBlankChar c = false ∧ isDecimal c = false

theorem HasMarkers.isMarker {n : Node} {other : Bool} {ms : List Text} (h : HasMarkers n other ms)
    {m : Text} (hm : m ∈ ms) : IsMarker m := by
  cases h with
  | bullet =>
    obtain ⟨-, -, rfl⟩ := List.mem_map.mp hm
    exact .bullet (by cases other <;> simp)
  | ordered =>
    obtain ⟨number, -, rfl⟩ := List.mem_map.mp hm
    exact .ordered number (by cases other <;> simp)

namespace IsMarker

variable {m : Text} (h : IsMarker m)

include h

theorem exists_cons : ∃ c r, m = c :: r ∧ isBlankChar c = false := by
  cases h with
  | bullet form => exact ⟨_, [], rfl, by rcases form with rfl | rfl <;> decide⟩
  | @ordered number c =>
    obtain ⟨d, ds, hd⟩ := List.exists_cons_of_ne_nil (decimal_ne_nil number)
    refine ⟨d, ds ++ [c], by rw [hd]; rfl, ?_⟩
    exact not_isBlankChar_of_isDecimal
      (isDecimal_of_isDigit (isDigit_of_mem_decimal (n := number) (by simp [hd])))

theorem exists_concat : ∃ front c, m = front ++ [c] ∧ IsSign c := by
  cases h with
  | bullet form =>
    refine ⟨[], _, rfl, ?_⟩
    rcases form with rfl | rfl <;> exact ⟨by decide, not_isDecimal_of_gap (by decide)⟩
  | ordered number form =>
    refine ⟨decimal number, _, rfl, ?_⟩
    rcases form with rfl | rfl <;> exact ⟨by decide, not_isDecimal_of_gap (by decide)⟩

theorem not_open : '(' ∉ m := by
  cases h with
  | bullet form => rcases form with rfl | rfl <;> decide
  | ordered number form =>
    intro hm
    rcases List.mem_append.mp hm with hd | hc
    · have := isDigit_of_mem_decimal hd
      revert this
      decide
    · rcases form with rfl | rfl <;> revert hc <;> decide

theorem shown : isBlank m = false := by
  obtain ⟨c, r, rfl, shown⟩ := h.exists_cons
  rw [isBlank, List.all_cons, shown, Bool.false_and]

end IsMarker

/-- What may stand in front of a marker: white space, or at least one sign of a container. -/
def IsFront (t : Text) : Prop :=
  '(' ∉ t ∧ (isBlank t = true ∨ ∃ c ∈ t, IsSign c)

/-- A line with the marker of a list item at a column. -/
inductive StandsAt (column : Nat) (marker : Text) : Text → Prop
  | intro {front beside : Text} (width : front.length = column) (clear : IsFront front)
      (mark : IsMarker marker) (ends : isMarkerEnd beside = true) :
    StandsAt column marker (front ++ marker ++ beside)

theorem isFront_spaces (k : Nat) : IsFront (spaces k) := by
  have blank : ∀ c ∈ spaces k, isBlankChar c = true := fun c hc => isBlankChar_of_mem_spaces hc
  refine ⟨fun hm => ?_, Or.inl (List.all_eq_true.mpr blank)⟩
  have := blank _ hm
  revert this
  decide

theorem IsFront.append {t u : Text} (ht : IsFront t) (hu : IsFront u) : IsFront (t ++ u) := by
  refine ⟨by simp [ht.1, hu.1], ?_⟩
  rcases ht.2, hu.2 with ⟨blank | ⟨c, hc, sign⟩, blank' | ⟨d, hd, sign'⟩⟩
  · exact Or.inl (by rw [isBlank_append, blank, blank']; rfl)
  · exact Or.inr ⟨d, by simp [hd], sign'⟩
  · exact Or.inr ⟨c, by simp [hc], sign⟩
  · exact Or.inr ⟨c, by simp [hc], sign⟩

theorem IsMarker.isFront {m : Text} (h : IsMarker m) : IsFront m := by
  refine ⟨h.not_open, Or.inr ?_⟩
  obtain ⟨front, c, rfl, sign⟩ := h.exists_concat
  exact ⟨c, by simp, sign⟩

theorem isMarkerEnd_cases {t : Text} : isMarkerEnd t = true ↔
    t = [] ∨ ∃ c r, t = c :: r ∧ isBlankChar c = true := by
  cases t <;> simp [isMarkerEnd]

/-- One sign for another behind the first white space and digits of what stands in front. -/
theorem StandsAt.of_replaced {column : Nat} {marker front beside : Text}
    (width : front.length = column) (clear : IsFront front) (sign : ∃ c ∈ front, IsSign c)
    (mark : IsMarker marker) (ends : isMarkerEnd beside = true) {u v : Text}
    (plain : ∀ c ∈ u, isBlankChar c = true ∨ isDecimal c = true) {a b : Char} (closed : b ≠ '(')
    (new : IsSign b) (whole : front ++ marker ++ beside = u ++ a :: v) :
    StandsAt column marker (u ++ b :: v) := by
  have outside (h : ∀ c ∈ front, c ∈ u) : False := by
    obtain ⟨c, hc, sign⟩ := sign
    rcases plain c (h c hc) with blank | digit
    · rw [sign.1] at blank
      cases blank
    · rw [sign.2] at digit
      cases digit
  rw [List.append_assoc] at whole
  rcases List.append_eq_append_iff.mp whole with ⟨more, rfl, -⟩ | ⟨rest, rfl, tail⟩
  · exact (outside fun c hc => List.mem_append_left _ hc).elim
  · match rest with
    | [] => exact (outside fun c hc => by simpa using hc).elim
    | _ :: rest =>
      obtain ⟨rfl, below⟩ := List.cons.inj tail
      have same : u ++ b :: v = (u ++ b :: rest) ++ marker ++ beside := by simp [below]
      rw [same]
      refine .intro (by simpa using width) ⟨?_, Or.inr ⟨b, by simp, new⟩⟩ mark ends
      have := clear.1
      simp only [List.mem_append, List.mem_cons, not_or] at this ⊢
      exact ⟨this.1, closed.symm, this.2.2⟩

namespace StandsAt

variable {column : Nat} {marker line : Text} (h : StandsAt column marker line)

include h

theorem shown : isBlank line = false := by
  cases h with
  | intro _ _ mark =>
    rw [isBlank_append, isBlank_append, mark.shown, Bool.and_false, Bool.false_and]

theorem prefix_drop : marker <+: line.drop column := by
  cases h with
  | intro width =>
    rw [List.append_assoc, List.drop_left' width]
    exact List.prefix_append _ _

/-- Behind more of what may stand in front of a marker. -/
theorem behind {front : Text} (clear : IsFront front) :
    StandsAt (column + front.length) marker (front ++ line) := by
  cases h with
  | @intro own beside width clear' mark ends =>
    rw [← List.append_assoc, ← List.append_assoc]
    refine .intro ?_ (clear.append clear') mark ends
    rw [List.length_append, width, Nat.add_comm]

theorem indentLine (k : Nat) : StandsAt (column + k) marker (indentLine k line) := by
  have moved := h.behind (isFront_spaces k)
  rw [spaces, List.length_replicate] at moved
  rwa [indentLine_of_shown h.shown]

theorem quoteLine : StandsAt (column + 2) marker (Convert.quoteLine line) := by
  have filled : line.isEmpty = false := by simp [ne_nil_of_not_isBlank h.shown]
  have clear : IsFront ['>', ' '] :=
    ⟨by decide, Or.inr ⟨'>', by simp, by decide, not_isDecimal_of_gap (by decide)⟩⟩
  rw [Convert.quoteLine, filled]
  exact h.behind clear

/-- Behind the marker of an item, if it begins without white space. -/
theorem beside (first : ∀ c, line.head? = some c → isBlankChar c = false) (k : Nat) {m : Text}
    (mark : IsMarker m) :
    StandsAt (column + (k + m.length + 1)) marker (spaces k ++ m ++ ' ' :: strip line) := by
  have stripped : StandsAt column marker (strip line) := by
    cases h with
    | @intro front beside width clear own ends =>
      obtain ⟨base, c, rfl, sign⟩ := own.exists_concat
      have last : dropEndWhile isBlankChar (front ++ (base ++ [c])) = front ++ (base ++ [c]) := by
        refine dropEndWhile_of_not_getLast? fun d hd => ?_
        rw [← List.append_assoc, List.getLast?_concat] at hd
        cases hd
        exact sign.1
      rw [strip, dropAround, dropWhile_of_not_head? first, dropEndWhile_append, last]
      split
      · rw [← List.append_nil (front ++ _)]
        exact .intro width clear own rfl
      · refine .intro width clear own ?_
        rcases isMarkerEnd_cases.mp ends with rfl | ⟨d, r, rfl, blank⟩
        · rfl
        · rw [dropEndWhile_cons]
          split
          · rfl
          · exact isMarkerEnd_cases.mpr (Or.inr ⟨d, _, rfl, blank⟩)
  have clear : IsFront (spaces k ++ m ++ [' ']) :=
    ((isFront_spaces k).append mark.isFront).append (isFront_spaces 1)
  have moved := stripped.behind clear
  have width : k + m.length + 1 = (spaces k ++ m ++ [' ']).length := by
    simp [spaces, Nat.add_assoc]
  rw [width]
  simpa using moved

/-- New numbers in a line come behind its marker. -/
theorem relabel (f : Text → Text) : StandsAt column marker ( Annotation.relabel f line) := by
  cases h with
  | @intro front beside width clear mark ends =>
    have closed : '(' ∉ front ++ marker := by simp [clear.1, mark.not_open]
    rw [ Annotation.relabel_append_of_not_open f closed]
    refine .intro width clear mark ?_
    rcases isMarkerEnd_cases.mp ends with rfl | ⟨c, r, rfl, blank⟩
    · rfl
    · have bare : '(' ∉ [c] := by
        intro hm
        rw [← List.mem_singleton.mp hm] at blank
        revert blank
        decide
      rw [← List.singleton_append, Annotation.relabel_append_of_not_open f bare]
      exact isMarkerEnd_cases.mpr (Or.inr ⟨c, _, rfl, blank⟩)

/-- Switching the markers of a list further to the left leaves the marker as it is. -/
theorem switchLine {depth : Nat} (lt : depth < column) (kind : ListKind) :
    StandsAt column marker (switchLine depth kind line) := by
  rw [Docmark.switchLine]
  split
  · rename_i own
    have width' : indentWidth line = depth := by
      rw [Bool.and_eq_true] at own
      exact beq_iff_eq.mp own.2
    cases h with
    | @intro front beside width clear mark ends =>
      -- What is switched stands in front: behind white space alone the line would not be one.
      obtain ⟨c, hc, sign⟩ : ∃ c ∈ front, IsSign c := by
        refine clear.2.resolve_left fun blank => ?_
        obtain ⟨d, r, rfl, shown⟩ := mark.exists_cons
        have all : ∀ c ∈ front, isBlankChar c = true := List.all_eq_true.mp blank
        rw [indentWidth, List.append_assoc, List.takeWhile_append_of_pos all, List.cons_append,
          List.takeWhile_cons_of_neg (by simp [shown]), List.append_nil] at width'
        omega
      rcases switchMarker_cases kind (front ++ marker ++ beside) with he |
          ⟨u, v, hu, ⟨whole, he⟩ | ⟨whole, he⟩⟩
      · rw [he]
        exact .intro width clear mark ends
      · rw [he]
        exact of_replaced width clear ⟨c, hc, sign⟩ mark ends hu (by decide)
          ⟨by decide, not_isDecimal_of_gap (by decide)⟩ whole
      · rw [he]
        exact of_replaced width clear ⟨c, hc, sign⟩ mark ends hu (by decide)
          ⟨by decide, not_isDecimal_of_gap (by decide)⟩ whole
  · exact h

end StandsAt

end Docmark
