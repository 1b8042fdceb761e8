import Docmark.Proofs.Convert.Items
import Docmark.Proofs.Convert.ListColumns

/-!
The content of a list item as it is put together block by block: the indices that it keeps are those
of the lines of its nested lists.
-/

namespace Docmark

open Markdown Text

theorem Text.length_lines (t : Text) : (lines t).length = t.count '\n' + 1 := by
  induction t with
  | nil => rfl
  | cons c r ih =>
    rw [lines]
    split
    · rename_i newline
      rw [List.length_cons, ih, newline, List.count_cons_self]
    · rename_i other
      rw [List.length_modifyHead, ih, List.count_cons_of_ne other]

namespace Convert

/-- The lines of the content so far, those of nested lists marked. -/
def ItemText.body (item : ItemText) : MarkedLines :=
  if item.text.isEmpty then [] else markFrom item.nested 0 (lines item.text)

/-- Only lines that are there have their indices kept. -/
def ItemText.Recorded (item : ItemText) : Prop :=
  ∀ index ∈ item.nested, index < item.body.length

theorem ItemText.body_of_ne_nil {item : ItemText} (ne : item.text ≠ []) :
    item.body = markFrom item.nested 0 (lines item.text) := by
  rw [body, if_neg (by simpa using ne)]

theorem length_markFrom (nested : List Nat) (index : Nat) (ls : List Text) :
    (markFrom nested index ls).length = ls.length := by
  rw [← List.length_map (f := Prod.snd), map_snd_markFrom]

theorem ItemText.body_eq_nil_iff {item : ItemText} : item.body = [] ↔ item.text = [] := by
  by_cases empty : item.text = []
  · simp [body, empty]
  · have ne : markFrom item.nested 0 (lines item.text) ≠ [] := by
      intro he
      have := congrArg List.length he
      rw [length_markFrom, length_lines] at this
      cases this
    simp [body_of_ne_nil empty, empty, ne]

/-- The lines above a block that is added, and what they are marked as. -/
theorem ItemText.exists_above {item : ItemText} {gap : Text} (recorded : item.Recorded)
    (block : Text)
    (written : if item.text = [] then gap = [] else gap = ['\n'] ∨ gap = ['\n', '\n']) :
    ∃ above marked, (item.body = [] → marked = false) ∧
      lines (item.text ++ gap ++ block) = above ++ lines block ∧
      above.length = (item.text ++ gap).count '\n' ∧
      markFrom item.nested 0 above = item.body ++ if marked then [(false, [])] else [] := by
  by_cases empty : item.text = []
  · rw [if_pos empty] at written
    refine ⟨[], false, fun _ => rfl, ?_, ?_, ?_⟩
    · simp [empty, written]
    · simp [empty, written]
    · simp [body, empty, markFrom]
  · rw [if_neg empty] at written
    have filled : item.body ≠ [] := fun he => empty (body_eq_nil_iff.mp he)
    have body := body_of_ne_nil empty
    rcases written with rfl | rfl
    · refine ⟨lines item.text, false, fun he => absurd he filled, ?_, ?_, ?_⟩
      · rw [List.append_assoc]
        exact lines_append_newline item.text block
      · rw [length_lines, List.count_append]
        rfl
      · rw [body]
        simp
    · refine ⟨lines item.text ++ [[]], true, fun he => absurd he filled, ?_, ?_, ?_⟩
      · rw [lines_append_gap, List.append_assoc]
        rfl
      · rw [List.length_append, length_lines, List.count_append]
        rfl
      · have free : item.nested.contains (0 + (lines item.text).length) = false := by
          refine Bool.eq_false_iff.mpr fun hm => ?_
          have := recorded _ (List.contains_iff_mem.mp hm)
          rw [body, length_markFrom] at this
          omega
        rw [body, markFrom_append, markFrom, free]
        rfl

theorem mem_marks_iff {marks : List Nat} {list : Bool} {first size index : Nat} :
    index ∈ (marks ++ if list then List.range' first size else []) ↔
      index ∈ marks ∨ list = true ∧ first ≤ index ∧ index < first + size := by
  cases list <;> simp [List.mem_range'_1]

/-- A block is added with its lines marked, behind a blank line or not. -/
theorem ItemText.body_add {item item' : ItemText} {n : Node} {block : Text}
    (h : item.add n block = .ok item') (recorded : item.Recorded) (ne : block ≠ []) :
    ∃ gap, (item.body = [] → gap = false) ∧
      item'.body = item.body ++ (PlacedBlock.mk n gap (lines block)).body ∧ item'.Recorded := by
  obtain ⟨gap, written, text, nested⟩ := add_ok h
  obtain ⟨above, marked, front, cut, first, marks⟩ := exists_above recorded block written
  rw [← first, ← length_lines] at nested
  have filled : item'.text ≠ [] := by simp [text, ne]
  have low : ∀ index ∈ item.nested, index < above.length := by
    intro index hi
    have within := recorded index hi
    have total := congrArg List.length marks
    rw [length_markFrom, List.length_append] at total
    omega
  have upper : markFrom item'.nested 0 above =
      item.body ++ if marked then [(false, [])] else [] := by
    rw [← marks]
    refine markFrom_congr fun index _ hi => ?_
    rw [nested, mem_marks_iff, or_iff_left]
    omega
  have lower : markFrom item'.nested (0 + above.length) (lines block) =
      (lines block).map fun l => (n.kind.isList, l) := by
    refine markFrom_const fun index hlow hhigh => ?_
    have fresh : index ∉ item.nested := fun hm => absurd (low index hm) (by omega)
    rw [Bool.eq_iff_iff, List.contains_iff_mem, nested, mem_marks_iff, or_iff_right fresh]
    exact and_iff_left ⟨by omega, by omega⟩
  have body : item'.body = item.body ++ (PlacedBlock.mk n marked (lines block)).body := by
    rw [body_of_ne_nil filled, text, cut, markFrom_append, upper, lower, List.append_assoc]
    rfl
  refine ⟨marked, front, body, fun index hi => ?_⟩
  rw [body_of_ne_nil filled, length_markFrom, text, cut, List.length_append]
  rw [nested, mem_marks_iff] at hi
  rcases hi with hi | ⟨-, -, hi⟩
  · have := low index hi
    omega
  · exact hi

/-- Lines stay as they are while blocks are added behind them. -/
theorem ItemText.prefix_body {bs : List (Node × Text)} (filled : ∀ b ∈ bs, b.2 ≠ [])
    {item item' : ItemText} (recorded : item.Recorded) (run : item.addAll bs = .ok item') :
    item.body <+: item'.body ∧ item'.Recorded := by
  induction bs generalizing item with
  | nil =>
    cases run
    exact ⟨List.prefix_rfl, recorded⟩
  | cons b bs ih =>
    obtain ⟨next, added, rest⟩ := addAll_cons_ok.mp run
    obtain ⟨gap, -, body, recorded'⟩ := body_add added recorded (filled b (by simp))
    obtain ⟨front, kept⟩ := ih (fun c hc => filled c (by simp [hc])) recorded' rest
    refine ⟨List.IsPrefix.trans ?_ front, kept⟩
    rw [body]
    exact List.prefix_append _ _

theorem ItemText.recorded_empty : ({} : ItemText).Recorded :=
  fun index hi => by cases hi

/-- The lines of each block stand among those of the content. -/
theorem ItemText.exists_body {as bs : List (Node × Text)} {b : Node × Text}
    (filled : ∀ c ∈ as ++ b :: bs, c.2 ≠ []) {item : ItemText}
    (run : addAll {} (as ++ b :: bs) = .ok item) :
    ∃ above below,
      item.body = above ++ (lines b.2).map (fun l => (b.1.kind.isList, l)) ++ below := by
  obtain ⟨before, front, run⟩ := addAll_append_ok.mp run
  obtain ⟨next, added, back⟩ := addAll_cons_ok.mp run
  obtain ⟨-, recorded⟩ := prefix_body (fun c hc => filled c (by simp [hc])) recorded_empty front
  obtain ⟨gap, -, body, recorded'⟩ := body_add added recorded (filled b (by simp))
  obtain ⟨⟨below, whole⟩, -⟩ :=
    prefix_body (fun c hc => filled c (by simp [hc])) recorded' back
  refine ⟨before.body ++ if gap then [(false, [])] else [], below, ?_⟩
  rw [← whole, body, PlacedBlock.body]
  simp

end Convert

/-- The blocks of an item that are not blank, as they are put together. -/
def shownBlocks (bs : List (Node × List Text)) : List (Node × Text) :=
  (bs.filter fun b => !b.2.isEmpty).map fun b => (b.1, unlines b.2)

/-- Lines without line feeds, the first and the last of them not blank. -/
structure IsBlock (ls : List Text) : Prop where
  framed : Framed ls
  line : ∀ l ∈ ls, '\n' ∉ l

theorem IsBlock.lines_unlines {ls : List Text} (h : IsBlock ls) (ne : ls ≠ []) :
    lines (unlines ls) = ls :=
  Text.lines_unlines ne h.line

theorem unlines_ne_nil_of_framed {ls : List Text} (h : Framed ls) (ne : ls ≠ []) :
    unlines ls ≠ [] := by
  obtain ⟨l, rest, rfl⟩ := List.exists_cons_of_ne_nil ne
  have filled := ne_nil_of_not_isBlank (h.first l rfl)
  intro he
  by_cases only : rest = []
  · rw [only] at he
    exact filled he
  · rw [unlines_cons l only] at he
    simp at he

/-- The lines of an item are those of its blocks. -/
theorem Convert.ItemText.body_foldlM {bs : List (Node × List Text)} (h : ∀ b ∈ bs, IsBlock b.2)
    {item item' : ItemText} (recorded : item.Recorded) (framed : Framed (item.body.map Prod.snd))
    (run : item.addAll (shownBlocks bs) = .ok item') :
    ∃ blocks : List PlacedBlock, blocks.map (fun b => (b.node, b.lines)) = bs ∧
      item'.body = item.body ++ blocks.flatMap PlacedBlock.body ∧
      Framed (item'.body.map Prod.snd) := by
  induction bs generalizing item with
  | nil =>
    cases run
    exact ⟨[], rfl, by simp, framed⟩
  | cons b bs ih =>
    have others : ∀ c ∈ bs, IsBlock c.2 := fun c hc => h c (by simp [hc])
    by_cases empty : b.2 = []
    · have same : shownBlocks (b :: bs) = shownBlocks bs := by simp [shownBlocks, empty]
      rw [same] at run
      obtain ⟨blocks, made, body, ends⟩ := ih others recorded framed run
      refine ⟨⟨b.1, false, []⟩ :: blocks, ?_, ?_, ends⟩
      · rw [List.map_cons, made, ← empty]
      · rw [body]
        rfl
    · have first : shownBlocks (b :: bs) = (b.1, unlines b.2) :: shownBlocks bs := by
        simp [shownBlocks, empty]
      have block := h b (by simp)
      rw [first] at run
      obtain ⟨next, added, run⟩ := ItemText.addAll_cons_ok.mp run
      obtain ⟨gap, front, body, recorded'⟩ :=
        body_add added recorded (unlines_ne_nil_of_framed block.framed empty)
      rw [block.lines_unlines empty] at body
      have framed' : Framed (next.body.map Prod.snd) := by
        have own : (PlacedBlock.mk b.1 gap b.2).body.map Prod.snd =
            (if gap then [[]] else []) ++ b.2 := by
          cases gap <;> simp [PlacedBlock.body, Function.comp_def]
        rw [body, List.map_append, own, ← List.append_assoc]
        by_cases none : item.body = []
        · rw [none, front none]
          exact block.framed
        · exact framed.append (by simpa using none) _ block.framed empty
      obtain ⟨blocks, made, rest, ends⟩ := ih others recorded' framed' run
      refine ⟨⟨b.1, gap, b.2⟩ :: blocks, ?_, ?_, ends⟩
      · rw [List.map_cons, made]
      · rw [rest, body, List.flatMap_cons, List.append_assoc]

end Docmark
