import Docmark.Convert.Document
import Docmark.Proofs.Convert.NotedRun

/-!
Pages of annotated blocks with one line each: their Markdown is as a conversion leaves it, and what
the processor makes of it.
-/

namespace Docmark

open Annotation

/-- A text keeps its ends where its first and its last line are not empty. -/
theorem Text.trimNewlines_of_lines {t : Text} (first : (Text.lines t).head? ≠ some [])
    (last : (Text.lines t).getLast? ≠ some []) : Text.trimNewlines t = t := by
  refine Text.dropAround_of_ends (fun c hc => ?_) (fun c hc => ?_)
  · refine beq_false_of_ne ?_
    rintro rfl
    obtain ⟨r, rfl⟩ := List.head?_eq_some_iff.mp hc
    exact first rfl
  · refine beq_false_of_ne ?_
    rintro rfl
    obtain ⟨r, rfl⟩ := List.getLast?_eq_some_iff.mp hc
    rw [Text.lines_append_newline] at last
    exact last (by simp [Text.lines])

namespace Markdown

/-- No fence is opened, blank lines are empty, and no two of them follow each other. -/
def Tidy (blank : Bool) : List Text → Prop
  | [] => True
  | l :: ls => fenceOf l = none ∧ (Text.isBlank l = true → l = [] ∧ blank = false) ∧
      Tidy (Text.isBlank l) ls

theorem collapseLines_of_tidy {blank : Bool} {ls : List Text} (h : Tidy blank ls) :
    collapseLines none blank ls = ls := by
  induction ls generalizing blank with
  | nil => rfl
  | cons l ls ih =>
    obtain ⟨fence, empty, rest⟩ := h
    have rest := ih rest
    unfold collapseLines
    simp only [fence]
    cases hb : Text.isBlank l with
    | false =>
      rw [hb] at rest
      simp [rest]
    | true =>
      obtain ⟨rfl, rfl⟩ := empty hb
      rw [hb] at rest
      simp [rest]

theorem Tidy.shown {l : Text} {ls : List Text} (plain : Guarded l) (shown : Text.isBlank l = false)
    (rest : Tidy false ls) (blank : Bool) : Tidy blank (l :: ls) := by
  refine ⟨fenceOf_eq_none plain, fun hb => ?_, ?_⟩
  · rw [shown] at hb
    cases hb
  · rw [shown]
    exact rest

theorem Tidy.empty {ls : List Text} (rest : Tidy true ls) : Tidy false ([] :: ls) :=
  ⟨rfl, fun _ => ⟨rfl, rfl⟩, rest⟩

end Markdown

namespace NotedLine

/-- The Markdown of blocks, one after the other. -/
def page (emitting : Bool) (es : List NotedLine) : Text :=
  Text.joinBlocks (es.map (markdown emitting))

theorem numbered_of_mem_number {es : List NotedLine} (proper : ∀ e ∈ es, e.Proper) {base : Nat}
    {f : NotedLine} (h : f ∈ number base es) : f.Numbered := by
  induction es generalizing base with
  | nil => simp [number] at h
  | cons e es ih =>
    rcases List.mem_cons.mp h with rfl | h
    · exact (proper e (by simp)).numbered base
    · exact ih (fun g hg => proper g (by simp [hg])) h

theorem lines_page {es : List NotedLine} (ne : es ≠ []) (h : ∀ e ∈ es, e.Numbered)
    (emitting : Bool) : Text.lines (page emitting es) = layouts (layout emitting) es := by
  induction es with
  | nil => exact absurd rfl ne
  | cons e es ih =>
    have first := (h e (by simp)).lines_markdown emitting
    cases es with
    | nil => exact first
    | cons e₁ es =>
      rw [page, List.map_cons, Text.lines_joinBlocks_cons _ (by simp), first, layouts]
      exact congrArg (fun ls => e.layout emitting ++ [] :: ls)
        (ih (by simp) fun f hf => h f (by simp [hf]))

theorem layouts_sublist {f g : NotedLine → List Text} (h : ∀ e, (f e).Sublist (g e))
    (es : List NotedLine) : (layouts f es).Sublist (layouts g es) := by
  induction es with
  | nil => exact List.Sublist.slnil
  | cons e es ih =>
    cases es with
    | nil => exact h e
    | cons e₁ es => exact (h e).append (ih.cons_cons [])

theorem kept_sublist (e : NotedLine) : e.kept.Sublist (e.layout true) := by
  refine ((List.Sublist.cons_cons e.line ?_).cons_cons []).cons_cons sentinel
  rw [noteLines]
  cases e.notes with
  | nil => exact List.Sublist.slnil
  | cons n ns => exact (List.nil_sublist _).cons_cons []

/-- The lines of a text that are not blank. -/
def shownLines (ls : List Text) : List Text :=
  ls.filter fun l => !Text.isBlank l

theorem markersOf_shownLines (t : Text) :
    (shownLines (Text.lines t)).flatMap markersOf = markersOf t := by
  rw [← markersOf_lines t]
  induction Text.lines t with
  | nil => rfl
  | cons l ls ih =>
    rw [List.flatMap_cons, ← ih, shownLines, List.filter_cons]
    split
    · rw [List.flatMap_cons]
      rfl
    · rename_i hb
      rw [markersOf_of_isBlank (by simpa using hb)]
      rfl

theorem shownLines_kept (e : NotedLine) : shownLines e.kept = shownLines (e.layout false) := by
  rw [kept, layout, noteLines]
  cases e.notes <;> rfl

theorem shownLines_layouts {f g : NotedLine → List Text}
    (h : ∀ e, shownLines (f e) = shownLines (g e)) (es : List NotedLine) :
    shownLines (layouts f es) = shownLines (layouts g es) := by
  induction es with
  | nil => rfl
  | cons e es ih =>
    cases es with
    | nil => exact h e
    | cons e₁ es =>
      have hb : shownLines [[]] = [] := rfl
      have (k : NotedLine → List Text) : shownLines (layouts k (e :: e₁ :: es)) =
          shownLines (k e) ++ shownLines (layouts k (e₁ :: es)) := by
        rw [layouts, shownLines, List.filter_append]
        rfl
      rw [this f, this g, h e, ih]

theorem not_isBlank_noteLine {n : Text × Text} (h : ProperNote n) :
    Text.isBlank (noteLine n) = false := by
  rw [noteLine, Text.isBlank_append, not_isBlank_of_isNumeral h.number, Bool.false_and]

open Markdown in
theorem Numbered.tidy {e : NotedLine} (h : e.Numbered) (emitting : Bool) {ls : List Text}
    (rest : Tidy false ls) (blank : Bool) : Tidy blank (e.layout emitting ++ ls) := by
  have notes {ns : List (Text × Text)} (hn : ∀ n ∈ ns, ProperNote n) :
      Tidy false (ns.map noteLine ++ ls) := by
    induction ns with
    | nil => exact rest
    | cons n ns ih =>
      have hn₁ := hn n (by simp)
      exact .shown (plainLine_noteLine hn₁).guarded (not_isBlank_noteLine hn₁)
        (ih fun m hm => hn m (by simp [hm])) false
  have below : Tidy false (e.noteLines emitting ++ ls) := by
    rw [noteLines]
    split
    · rename_i hs
      have hnotes := h.notes
      cases hn : e.notes with
      | nil => simp [hn] at hs
      | cons n ns =>
        rw [hn] at hnotes
        have hn₁ := hnotes n (by simp)
        exact .empty (.shown (plainLine_noteLine hn₁).guarded (not_isBlank_noteLine hn₁)
          (notes fun m hm => hnotes m (by simp [hm])) true)
    · exact rest
  have first : Tidy blank (sentinel :: [] :: e.line :: (e.noteLines emitting ++ ls)) := by
    refine ⟨by decide, fun hb => ?_, ?_⟩
    · cases hb
    · exact .empty (.shown h.line.guarded h.shown below true)
  exact first

theorem tidy_layouts {es : List NotedLine} (h : ∀ e ∈ es, e.Numbered) (emitting : Bool)
    (blank : Bool) : Markdown.Tidy blank (layouts (layout emitting) es) := by
  induction es generalizing blank with
  | nil => trivial
  | cons e es ih =>
    have he := h e (by simp)
    cases es with
    | nil =>
      rw [layouts, ← List.append_nil (e.layout emitting)]
      exact he.tidy emitting (show Markdown.Tidy false [] from trivial) blank
    | cons e₁ es =>
      exact he.tidy emitting (.empty (ih (fun f hf => h f (by simp [hf])) true)) blank

theorem Numbered.getLast?_layout {e : NotedLine} (h : e.Numbered) (emitting : Bool) {l : Text}
    (hl : (e.layout emitting).getLast? = some l) : Text.isBlank l = false := by
  rw [layout, noteLines, List.getLast?_cons_cons, List.getLast?_cons_cons] at hl
  split at hl
  · rename_i hs
    have hnotes := h.notes
    cases hn : e.notes with
    | nil => simp [hn] at hs
    | cons n ns =>
      rw [hn] at hl hnotes
      rw [List.map_cons, List.getLast?_cons_cons, List.getLast?_cons_cons, ← List.map_cons] at hl
      obtain ⟨m, hm, rfl⟩ := List.mem_map.mp (List.mem_of_getLast? hl)
      exact not_isBlank_noteLine (hnotes m hm)
  · obtain rfl : e.line = l := by simpa using hl
    exact h.shown

theorem getLast?_layouts {es : List NotedLine} (h : ∀ e ∈ es, e.Numbered) (emitting : Bool)
    {l : Text} (hl : (layouts (layout emitting) es).getLast? = some l) :
    Text.isBlank l = false := by
  induction es with
  | nil => cases hl
  | cons e es ih =>
    cases es with
    | nil => exact (h e (by simp)).getLast?_layout emitting hl
    | cons e₁ es =>
      refine ih (fun f hf => h f (by simp [hf])) ?_
      obtain ⟨ls, hls⟩ : ∃ ls, layouts (layout emitting) (e₁ :: es) = sentinel :: ls :=
        List.head?_eq_some_iff.mp (head?_layouts emitting e₁ es)
      rw [layouts, List.getLast?_append, hls, List.getLast?_cons_cons] at hl
      rw [hls]
      rwa [List.getLast?_eq_some_getLast (by simp), Option.some_or,
        ← List.getLast?_eq_some_getLast] at hl

theorem trimNewlines_page (es : List NotedLine) (h : ∀ e ∈ es, e.Numbered) (emitting : Bool) :
    Text.trimNewlines (page emitting es) = page emitting es := by
  cases es with
  | nil => rfl
  | cons e es =>
    refine Text.trimNewlines_of_lines ?_ ?_
    · rw [lines_page (by simp) h, head?_layouts]
      decide
    · rw [lines_page (by simp) h]
      intro hl
      cases getLast?_layouts h emitting hl

theorem not_isBlank_markdown (emitting : Bool) (e : NotedLine) :
    Text.isBlank (e.markdown emitting) = false := by
  rw [markdown, Convert.blockMarkdown, List.cons_append]
  generalize (if e.line.isEmpty then [] else [e.line]) ++ _ = bs
  cases bs with
  | nil => rfl
  | cons b bs =>
    rw [Text.joinBlocks_cons sentinel (by simp), Text.isBlank_append]
    rfl

theorem collapseBlankLines_page {es : List NotedLine} (h : ∀ e ∈ es, e.Numbered)
    (emitting : Bool) : Markdown.collapseBlankLines (page emitting es) = page emitting es := by
  cases es with
  | nil => rfl
  | cons e es =>
    rw [Markdown.collapseBlankLines, lines_page (by simp) h,
      Markdown.collapseLines_of_tidy (tidy_layouts h emitting false), ← lines_page (by simp) h,
      Text.unlines_lines]

end NotedLine

open NotedLine

/-- Read back, a page with its notes gives the state behind it and loses the notes alone. -/
theorem process_page {es : List NotedLine} (proper : ∀ e ∈ es, e.Proper) :
    (({} : Processor).process (page true (number 0 es))).2.state = es.foldl NotedLine.after {} ∧
      (Text.lines (({} : Processor).process (page true (number 0 es))).1).Sublist
        (Text.lines (page true (number 0 es))) ∧
      shownLines (Text.lines (({} : Processor).process (page true (number 0 es))).1) =
        shownLines (Text.lines (page false (number 0 es))) := by
  cases es with
  | nil => exact ⟨rfl, List.Sublist.refl _, rfl⟩
  | cons e es =>
    obtain ⟨written, state⟩ := Processor.run_layouts proper (p := {}) rfl State.sound_initial
    have lines (emitting : Bool) : Text.lines (page emitting (number 0 (e :: es))) =
        layouts (layout emitting) (number 0 (e :: es)) :=
      lines_page (by simp [number]) (fun _ => numbered_of_mem_number proper) emitting
    have sub := layouts_sublist kept_sublist (number 0 (e :: es))
    have run : ({} : Processor).process (page true (number 0 (e :: es))) =
        (Text.unlines (({} : Processor).run none
            (Text.lines (page true (number 0 (e :: es))))).1,
          (({} : Processor).run none
            (Text.lines (page true (number 0 (e :: es))))).2.finish) := rfl
    have ne : layouts kept (number 0 (e :: es)) ≠ [] := by
      cases es <;> simp [number, layouts, kept]
    have back : Text.lines (Text.unlines (layouts kept (number 0 (e :: es)))) =
        layouts kept (number 0 (e :: es)) := by
      refine Text.lines_unlines ne fun l hl => ?_
      have hl := sub.subset hl
      rw [← lines true] at hl
      exact Text.newline_not_mem_of_mem_lines hl
    have none : ({} : Processor).state.counter.toNat = 0 := rfl
    rw [none] at written state
    rw [run, lines true, written, state, back, lines false]
    exact ⟨rfl, sub, shownLines_layouts shownLines_kept _⟩

end Docmark
