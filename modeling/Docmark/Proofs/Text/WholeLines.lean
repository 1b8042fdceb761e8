import Docmark.Proofs.Text.Lines
import Docmark.Proofs.Text.Trim

/-!
The lines of a text with the line feeds that end them: together they are the text, and each but the
last one ends in a line feed.
-/

namespace Docmark.Text

/-- The lines of a text, each with the line feed that ends it; the last one may lack its own. -/
def wholeLines : Text → List Text
  | [] => []
  | c :: r =>
    if c = '\n' then ['\n'] :: wholeLines r
    else match wholeLines r with
      | [] => [[c]]
      | l :: ls => (c :: l) :: ls

/-- A line without the line feed that ends it. -/
def lineText (l : Text) : Text :=
  l.takeWhile (· != '\n')

variable {l t : Text} {ls ms : List Text}

theorem wholeLines_cons (line : '\n' ∉ l) (r : Text) :
    wholeLines (l ++ '\n' :: r) = (l ++ ['\n']) :: wholeLines r := by
  induction l with
  | nil => simp [wholeLines]
  | cons c l ih =>
    simp only [List.mem_cons, not_or] at line
    rw [List.cons_append, wholeLines, if_neg (Ne.symm line.1), ih line.2]
    rfl

theorem wholeLines_last (ne : l ≠ []) (line : '\n' ∉ l) : wholeLines l = [l] := by
  induction l with
  | nil => exact absurd rfl ne
  | cons c l ih =>
    simp only [List.mem_cons, not_or] at line
    rw [wholeLines, if_neg (Ne.symm line.1)]
    cases l with
    | nil => rfl
    | cons d l => rw [ih (by simp) line.2]

theorem lineText_of_not_mem (line : '\n' ∉ l) : lineText l = l := by
  refine List.takeWhile_eq_self_iff.mpr fun c hc => bne_iff_ne.mpr ?_
  rintro rfl
  exact line hc

theorem lineText_append (line : '\n' ∉ l) (r : Text) : lineText (l ++ '\n' :: r) = l :=
  (span_ne line r).1

/-- A text is empty, or its last line, or a line with its line feed and a text. -/
@[elab_as_elim]
theorem lineInduction {P : Text → Prop} (nil : P [])
    (last : ∀ l, l ≠ [] → '\n' ∉ l → P l) (cons : ∀ l r, '\n' ∉ l → P r → P (l ++ '\n' :: r))
    (t : Text) : P t := by
  induction size : t.length using Nat.strong_induction_on generalizing t with
  | _ size ih =>
    subst size
    by_cases line : '\n' ∈ t
    · obtain ⟨l, r, rfl, first⟩ := List.eq_append_cons_of_mem line
      exact cons l r first (ih r.length (by simp; omega) r rfl)
    · by_cases ne : t = []
      · exact ne ▸ nil
      · exact last t ne line

theorem flatten_wholeLines (t : Text) : (wholeLines t).flatten = t := by
  induction t using lineInduction with
  | nil => rfl
  | last l ne line => simp [wholeLines_last ne line]
  | cons l r line ih => simp [wholeLines_cons line, ih]

theorem ne_nil_of_mem_wholeLines (h : l ∈ wholeLines t) : l ≠ [] := by
  induction t using lineInduction with
  | nil => cases h
  | last m ne line =>
    rw [wholeLines_last ne line, List.mem_singleton] at h
    exact h ▸ ne
  | cons m r line ih =>
    rw [wholeLines_cons line, List.mem_cons] at h
    rcases h with rfl | h
    · simp
    · exact ih h

/-- The lines of a text, cut in two, are those of two texts. -/
theorem wholeLines_append (h : wholeLines t = ls ++ ms) :
    wholeLines ls.flatten = ls ∧ wholeLines ms.flatten = ms := by
  induction ls generalizing t with
  | nil =>
    rw [List.nil_append] at h
    exact ⟨rfl, by rw [← h, flatten_wholeLines]⟩
  | cons k ks ih =>
    cases t using lineInduction with
    | nil => cases h
    | last l ne line =>
      rw [wholeLines_last ne line] at h
      obtain ⟨rfl, rest⟩ := List.cons.inj h
      obtain ⟨rfl, rfl⟩ := List.append_eq_nil_iff.mp rest.symm
      exact ⟨by rw [List.flatten_singleton, wholeLines_last ne line], rfl⟩
    | cons l r line =>
      rw [wholeLines_cons line] at h
      obtain ⟨rfl, rest⟩ := List.cons.inj h
      obtain ⟨upper, lower⟩ := ih rest
      refine ⟨?_, lower⟩
      rw [List.flatten_cons, List.append_assoc, List.singleton_append, wholeLines_cons line, upper]

/-- Only the last line of a text may lack its line feed. -/
theorem getLast?_of_wholeLines {k : Text} (h : wholeLines t = ls ++ k :: ms) (hl : l ∈ ls) :
    l.getLast? = some '\n' := by
  induction t using lineInduction generalizing ls with
  | nil => simp [wholeLines] at h
  | last m ne line =>
    rw [wholeLines_last ne line] at h
    cases ls with
    | nil => cases hl
    | cons a as => simp at h
  | cons m r line ih =>
    rw [wholeLines_cons line] at h
    cases ls with
    | nil => cases hl
    | cons a as =>
      obtain ⟨rfl, rest⟩ := List.cons.inj h
      rcases List.mem_cons.mp hl with rfl | hl
      · exact List.getLast?_concat
      · exact ih rest hl

end Docmark.Text
