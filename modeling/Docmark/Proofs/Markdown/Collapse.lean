import Docmark.Markdown.Fence
import Docmark.Proofs.Text.Lines
import Docmark.Proofs.Text.Trim

/-!
Collapsing blank lines, line by line: what is known of the lines above decides what is written for a
line, so that a part of a text can be followed through the whole.
-/

namespace Docmark.Markdown

/-- What is known of the lines above: the open fence, and whether the last line is a blank one. -/
structure Tracking where
  fence : Option Text := none
  blank : Bool := false

namespace Tracking

def step (t : Tracking) (line : Text) : Tracking :=
  match t.fence, fenceOf line with
  | none, some run => ⟨some run, false⟩
  | none, none => ⟨none, Text.isBlank line⟩
  | some fence, some run => ⟨if closesFence fence run line then none else some fence, false⟩
  | some fence, none => ⟨some fence, false⟩

/-- What is known after some lines. -/
def after (t : Tracking) (ls : List Text) : Tracking :=
  ls.foldl step t

/-- What is written for a line. -/
def emit (t : Tracking) (line : Text) : List Text :=
  if t.fence.isNone && Text.isBlank line then if t.blank then [] else [[]] else [line]

def collapse (t : Tracking) (ls : List Text) : List Text :=
  collapseLines t.fence t.blank ls

/--
Every blank line is met with a fence open, or is an empty one below a line that is not blank or
stands in a fence.
-/
def Spares (t : Tracking) (ls : List Text) : Prop :=
  ∀ above line below, ls = above ++ line :: below → Text.isBlank line = true →
    (t.after above).fence.isSome = true ∨ (line = [] ∧ (t.after above).blank = false)

theorem fenceOf_of_isBlank {line : Text} (h : Text.isBlank line = true) : fenceOf line = none := by
  have start : Text.stripStart line = [] := List.dropWhile_eq_nil_iff.mpr (List.all_eq_true.mp h)
  rw [fenceOf, start]
  rfl

theorem collapse_cons (t : Tracking) (line : Text) (ls : List Text) :
    t.collapse (line :: ls) = t.emit line ++ (t.step line).collapse ls := by
  obtain ⟨fence, blank⟩ := t
  cases fence with
  | some fence =>
    cases hf : fenceOf line with
    | some run => simp [collapse, collapseLines, emit, step, hf]
    | none => simp [collapse, collapseLines, emit, step, hf]
  | none =>
    cases hf : fenceOf line with
    | some run =>
      have shown : Text.isBlank line = false := by
        apply Bool.eq_false_iff.mpr
        intro hb
        rw [fenceOf_of_isBlank hb] at hf
        cases hf
      simp [collapse, collapseLines, emit, step, hf, shown]
    | none =>
      cases hb : Text.isBlank line with
      | false => simp [collapse, collapseLines, emit, step, hf, hb]
      | true => cases blank <;> simp [collapse, collapseLines, emit, step, hf, hb]

/-- Two parts of a text are collapsed one after the other. -/
theorem collapse_append (t : Tracking) (ls ms : List Text) :
    t.collapse (ls ++ ms) = t.collapse ls ++ (t.after ls).collapse ms := by
  induction ls generalizing t with
  | nil => rfl
  | cons l ls ih =>
    rw [List.cons_append, collapse_cons, collapse_cons, ih, List.append_assoc]
    rfl

theorem length_emit_le (t : Tracking) (line : Text) : (t.emit line).length ≤ 1 := by
  rw [emit]
  split
  · split <;> simp
  · simp

theorem length_collapse_le (t : Tracking) (ls : List Text) :
    (t.collapse ls).length ≤ ls.length := by
  induction ls generalizing t with
  | nil => exact Nat.le_refl _
  | cons l ls ih =>
    have first := t.length_emit_le l
    have rest := ih (t.step l)
    rw [collapse_cons, List.length_append, List.length_cons]
    omega

theorem mem_collapse {t : Tracking} {ls : List Text} {l : Text} (h : l ∈ t.collapse ls) :
    l = [] ∨ l ∈ ls := by
  induction ls generalizing t with
  | nil => cases h
  | cons k ks ih =>
    rw [collapse_cons] at h
    rcases List.mem_append.mp h with h | h
    · rw [emit] at h
      split at h
      · split at h
        · cases h
        · exact Or.inl (List.mem_singleton.mp h)
      · exact Or.inr (List.mem_cons.mpr (Or.inl (List.mem_singleton.mp h)))
    · exact (ih h).imp_right (List.mem_cons_of_mem k)

/-- The first line of a text leaves a line. -/
theorem collapse_ne_nil {t : Tracking} (shown : t.blank = false) {ls : List Text} (ne : ls ≠ []) :
    t.collapse ls ≠ [] := by
  obtain ⟨l, rest, rfl⟩ := List.exists_cons_of_ne_nil ne
  rw [collapse_cons, emit, shown]
  split <;> simp

/-- The lines of a text with its blank lines collapsed. -/
theorem lines_collapseBlankLines (t : Text) :
    Text.lines (collapseBlankLines t) = collapse {} (Text.lines t) := by
  have ne : collapse {} (Text.lines t) ≠ [] := collapse_ne_nil rfl (Text.lines_ne_nil t)
  apply Text.lines_unlines ne
  intro l hl
  rcases mem_collapse (t := {}) hl with rfl | hl
  · simp
  · exact Text.newline_not_mem_of_mem_lines hl

theorem emit_eq_singleton_iff {t : Tracking} {line : Text} : t.emit line = [line] ↔
    (Text.isBlank line = true → t.fence.isSome = true ∨ (line = [] ∧ t.blank = false)) := by
  rw [emit]
  cases hb : Text.isBlank line with
  | false => simp
  | true =>
    cases hf : t.fence with
    | some fence => simp
    | none =>
      cases hl : t.blank with
      | true => simp
      | false => simp [eq_comm]

theorem spares_cons {t : Tracking} {line : Text} {ls : List Text} :
    t.Spares (line :: ls) ↔ t.emit line = [line] ∧ (t.step line).Spares ls := by
  rw [emit_eq_singleton_iff]
  constructor
  · intro h
    exact ⟨fun blank => h [] line ls rfl blank, fun above l below he blank =>
      h (line :: above) l below (by rw [he]; rfl) blank⟩
  · rintro ⟨first, rest⟩ above l below he blank
    cases above with
    | nil =>
      obtain ⟨rfl, -⟩ := List.cons.inj he
      exact first blank
    | cons a above =>
      rw [List.cons_append] at he
      obtain ⟨rfl, tail⟩ := List.cons.inj he
      exact rest above l below tail blank

/-- Collapsing leaves lines as they are just where it spares them. -/
theorem collapse_eq_self_iff {t : Tracking} {ls : List Text} :
    t.collapse ls = ls ↔ t.Spares ls := by
  induction ls generalizing t with
  | nil =>
    constructor
    · intro _ above line below he
      simp at he
    · intro _
      rfl
  | cons l ls ih =>
    rw [spares_cons, ← ih, collapse_cons]
    constructor
    · intro same
      have first := t.length_emit_le l
      have rest := (t.step l).length_collapse_le ls
      have total := congrArg List.length same
      rw [List.length_append, List.length_cons] at total
      have one : (t.emit l).length = [l].length := by
        rw [List.length_singleton]
        omega
      exact List.append_inj same one
    · rintro ⟨first, rest⟩
      rw [first, rest]
      rfl

theorem emit_of_fenceOf (t : Tracking) {line run : Text} (h : fenceOf line = some run) :
    t.emit line = [line] := by
  apply emit_eq_singleton_iff.mpr
  intro blank
  rw [fenceOf_of_isBlank blank] at h
  cases h

/-- Lines that do not close the open fence leave it open, and stay as they are. -/
theorem collapse_inside {fence : Text} {ls : List Text}
    (inside : ∀ l ∈ ls, ∀ run, fenceOf l = some run → closesFence fence run l = false) :
    collapse ⟨some fence, false⟩ ls = ls ∧ after ⟨some fence, false⟩ ls = ⟨some fence, false⟩ := by
  induction ls with
  | nil => exact ⟨rfl, rfl⟩
  | cons l ls ih =>
    obtain ⟨same, still⟩ := ih fun m hm => inside m (by simp [hm])
    have next : step ⟨some fence, false⟩ l = ⟨some fence, false⟩ := by
      cases hl : fenceOf l with
      | none => simp [step, hl]
      | some run => simp [step, hl, inside l (by simp) run hl]
    refine ⟨?_, ?_⟩
    · rw [collapse_cons, next, same]
      rfl
    · rw [after, List.foldl_cons, next]
      exact still

/-- A part of a text with its own fences, met with no fence open. -/
theorem spares_fenced {t : Tracking} (closed : t.fence = none) {opening closing run run' : Text}
    {inner : List Text} (opens : fenceOf opening = some run)
    (inside : ∀ l ∈ inner, ∀ run', fenceOf l = some run' → closesFence run run' l = false)
    (fence : fenceOf closing = some run') (closes : closesFence run run' closing = true) :
    t.Spares (opening :: (inner ++ [closing])) ∧
      t.after (opening :: (inner ++ [closing])) = {} := by
  have first : t.step opening = ⟨some run, false⟩ := by simp [step, closed, opens]
  have last : step ⟨some run, false⟩ closing = {} := by simp [step, fence, closes]
  obtain ⟨same, still⟩ := collapse_inside inside
  constructor
  · rw [← collapse_eq_self_iff, collapse_cons, first, collapse_append, same, still, collapse_cons,
      emit_of_fenceOf t opens, emit_of_fenceOf _ fence]
    rfl
  · rw [after, List.foldl_cons, first, List.foldl_append]
    rw [after] at still
    rw [still, List.foldl_cons, last]
    rfl

/-- All lines that are not blank stay, in their order. -/
theorem filter_collapse (t : Tracking) (ls : List Text) :
    (t.collapse ls).filter (fun l => !Text.isBlank l) = ls.filter fun l => !Text.isBlank l := by
  induction ls generalizing t with
  | nil => rfl
  | cons l ls ih =>
    have first : (t.emit l).filter (fun l => !Text.isBlank l) =
        [l].filter fun l => !Text.isBlank l := by
      rw [emit]
      split
      · rename_i h
        simp only [Bool.and_eq_true] at h
        have empty : Text.isBlank [] = true := rfl
        split <;> simp [h.2, empty]
      · rfl
    rw [collapse_cons, List.filter_append, first, ih, ← List.filter_append, List.singleton_append]

end Tracking

end Docmark.Markdown
