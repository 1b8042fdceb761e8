import Docmark.Proofs.Markdown.ItemLayout

/-!
Blocks in a row: which of them are written, at which places, and which lists among them have their
markers switched.
-/

namespace Docmark.Markdown

/-- A list is switched where the block before it is a list of the same kind that is not. -/
def Block.switches (b : Block) (before : Option ListKind × Bool) : Bool :=
  b.list.isSome && b.list == before.1 && !before.2

/-- A block without line feeds around it, under its own markers or the other ones. -/
def Block.written (b : Block) (switched : Bool) : Text :=
  match b.list with
  | some kind =>
    if switched then switchMarkers kind (Text.trimNewlines b.markdown)
    else Text.trimNewlines b.markdown
  | none => Text.trimNewlines b.markdown

theorem Block.written_false (b : Block) : b.written false = Text.trimNewlines b.markdown := by
  rw [written]
  split <;> rfl

theorem Block.written_of_plain {b : Block} (plain : b.list = none) (switched : Bool) :
    b.written switched = Text.trimNewlines b.markdown := by
  rw [written, plain]

theorem Block.written_of_list {b : Block} {kind : ListKind} (list : b.list = some kind)
    (switched : Bool) : b.written switched =
      if switched then switchMarkers kind (Text.trimNewlines b.markdown)
      else Text.trimNewlines b.markdown := by
  rw [written, list]

theorem Block.switches_of_plain {b : Block} (plain : b.list = none)
    (before : Option ListKind × Bool) : b.switches before = false := by
  rw [switches, plain]
  rfl

theorem isBlank_switchMarkers (kind : ListKind) (t : Text) :
    Text.isBlank (switchMarkers kind t) = Text.isBlank t := by
  rw [Bool.eq_iff_iff, Text.isBlank_iff_lines, Text.isBlank_iff_lines, switchMarkers]
  rw [Text.lines_mapLines, List.forall_mem_map]
  · refine forall₂_congr fun l _ => ?_
    split
    · rw [isBlank_switchMarker]
    · rfl
  · intro l hl
    split
    · exact newline_not_mem_switchMarker kind hl
    · exact hl

theorem Block.isBlank_written (b : Block) (switched : Bool) :
    Text.isBlank (b.written switched) = Text.isBlank b.markdown := by
  rw [written]
  split
  · split
    · rw [isBlank_switchMarkers, Text.isBlank_trimNewlines]
    · exact Text.isBlank_trimNewlines _
  · exact Text.isBlank_trimNewlines _

variable {b : Block} {index : Nat} {before : Option ListKind × Bool} {rest : List Block}

theorem separateFrom_cons_of_blank (blank : Text.isBlank b.markdown = true) :
    separateFrom index before (b :: rest) = separateFrom (index + 1) before rest := by
  rw [separateFrom]
  simp only [Text.isBlank_trimNewlines, blank, ↓reduceIte]

theorem separateFrom_cons_of_shown (shown : Text.isBlank b.markdown = false) :
    separateFrom index before (b :: rest) = (index, b.written (b.switches before)) ::
      separateFrom (index + 1) (b.list, b.switches before) rest := by
  rw [separateFrom]
  simp only [Text.isBlank_trimNewlines, shown, Bool.false_eq_true, ↓reduceIte]
  rfl

theorem separateFrom_of_blank {blocks : List Block}
    (blank : ∀ b ∈ blocks, Text.isBlank b.markdown = true) :
    separateFrom index before blocks = [] := by
  induction blocks generalizing index with
  | nil => rfl
  | cons b blocks ih =>
    rw [separateFrom_cons_of_blank (blank b (by simp))]
    exact ih fun c hc => blank c (by simp [hc])

/-- Blocks behind others are separated as those others leave them. -/
theorem exists_separateFrom_append (as bs : List Block) (index : Nat)
    (before : Option ListKind × Bool) : ∃ last, separateFrom index before (as ++ bs) =
      separateFrom index before as ++ separateFrom (index + as.length) last bs := by
  induction as generalizing index before with
  | nil => exact ⟨before, rfl⟩
  | cons a as ih =>
    rw [List.cons_append, List.length_cons, Nat.add_comm as.length, ← Nat.add_assoc]
    cases blank : Text.isBlank a.markdown with
    | true =>
      rw [separateFrom_cons_of_blank blank, separateFrom_cons_of_blank blank]
      exact ih (index + 1) before
    | false =>
      obtain ⟨last, split⟩ := ih (index + 1) (a.list, a.switches before)
      refine ⟨last, ?_⟩
      rw [separateFrom_cons_of_shown blank, separateFrom_cons_of_shown blank, split]
      rfl

/-- A block that is not blank is written in one of its forms. -/
theorem exists_mem_separateLists {blocks : List Block} (hb : b ∈ blocks)
    (shown : Text.isBlank b.markdown = false) :
    ∃ x ∈ separateLists blocks, ∃ switched, x.2 = b.written switched := by
  obtain ⟨above, below, rfl⟩ := List.append_of_mem hb
  obtain ⟨last, split⟩ := exists_separateFrom_append above (b :: below) 0 (none, false)
  refine ⟨(above.length, b.written (b.switches last)), ?_, b.switches last, rfl⟩
  rw [separateLists, split, separateFrom_cons_of_shown shown, Nat.zero_add]
  exact List.mem_append_right _ List.mem_cons_self

end Docmark.Markdown
