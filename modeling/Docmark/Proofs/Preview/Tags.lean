import Docmark.Preview.Inline
import Docmark.Proofs.Preview.Places

/-!
The tags in the HTML of a paragraph. Markers are looked for in all of it, in character data and in
tags alike: the tags come through, with places in the character data alone, just where no tag holds
the marker of a known number.
-/

namespace Docmark.Preview

open Annotation

/-- A tag and the character data up to the next one. The values of its attributes may hold whatever
is no angle bracket. -/
structure TaggedText where
  tag : Text
  data : Text
  noOpening : '<' ∉ tag
  noClosing : '>' ∉ tag
  plain : '<' ∉ data

/-- The HTML of inlines: character data, and tags with more of it between them. -/
structure InlineHtml where
  first : Text
  rest : List TaggedText
  plain : '<' ∉ first

/-- The HTML, where something may be done with the character data. -/
def InlineHtml.write (f : Text → Text) (h : InlineHtml) : Text :=
  f h.first ++ h.rest.flatMap fun x => '<' :: (x.tag ++ '>' :: f x.data)

def InlineHtml.html (h : InlineHtml) : Text := h.write id

def InlineHtml.tags (h : InlineHtml) : List Text := h.rest.map TaggedText.tag

/-- Reads the tags of HTML behind one that has begun, whose characters so far are in reverse. -/
def tagsFrom : Option Text → Text → List Text
  | _, [] => []
  | none, c :: r => tagsFrom (if c = '<' then some [] else none) r
  | some begun, c :: r =>
    if c = '<' then tagsFrom (some []) r
    else if c = '>' then begun.reverse :: tagsFrom none r
    else tagsFrom (some (c :: begun)) r

/-- The tags of HTML, as they are written between angle brackets. -/
def tagsIn (html : Text) : List Text := tagsFrom none html

/-- An opening bracket begins a tag anew. -/
theorem tagsFrom_append_open (begun : Option Text) (t r : Text) :
    tagsFrom begun (t ++ '<' :: r) = tagsFrom begun t ++ tagsFrom (some []) r := by
  induction t generalizing begun with
  | nil => cases begun <;> simp [tagsFrom]
  | cons c t ih =>
    cases begun with
    | none => simp only [List.cons_append, tagsFrom, ih]
    | some b =>
      simp only [List.cons_append, tagsFrom, ih]
      split
      · rfl
      · split <;> simp

theorem tagsFrom_close {x : Text} (noOpening : '<' ∉ x) (noClosing : '>' ∉ x) (begun r : Text) :
    tagsFrom (some begun) (x ++ '>' :: r) = (begun.reverse ++ x) :: tagsIn r := by
  induction x generalizing begun with
  | nil => simp [tagsFrom, tagsIn]
  | cons c x ih =>
    simp only [List.mem_cons, not_or] at noOpening noClosing
    have more := ih noOpening.2 noClosing.2 (c :: begun)
    simp only [List.cons_append, tagsFrom, if_neg (Ne.symm noOpening.1),
      if_neg (Ne.symm noClosing.1)]
    simpa using more

/-- A tag is read where it stands, whatever is around it. -/
theorem tagsIn_append_tag (t : Text) (x : TaggedText) (r : Text) :
    tagsIn (t ++ '<' :: (x.tag ++ '>' :: r)) = tagsIn t ++ x.tag :: tagsIn r := by
  rw [tagsIn, tagsFrom_append_open, tagsFrom_close x.noOpening x.noClosing]
  rfl

/-- What has been read of a text, written as it stands in it. -/
def begunText : Option Text → Text
  | none => []
  | some begun => '<' :: begun.reverse

/-- A tag that is read stands in the text, between its brackets. -/
theorem exists_of_mem_tagsFrom {begun : Option Text} {t x : Text} (h : x ∈ tagsFrom begun t) :
    ∃ a b, begunText begun ++ t = a ++ '<' :: (x ++ '>' :: b) := by
  induction t generalizing begun with
  | nil => cases begun <;> cases h
  | cons c t ih =>
    cases begun with
    | none =>
      obtain ⟨a, b, e⟩ := ih h
      by_cases open_ : c = '<'
      · subst open_
        exact ⟨a, b, by simpa [begunText] using e⟩
      · refine ⟨c :: a, b, ?_⟩
        simpa [begunText, open_] using e
    | some begun =>
      rw [tagsFrom] at h
      split at h
      · rename_i open_
        subst open_
        obtain ⟨a, b, e⟩ := ih h
        refine ⟨begunText (some begun) ++ a, b, ?_⟩
        have e' : '<' :: t = a ++ '<' :: (x ++ '>' :: b) := by simpa [begunText] using e
        rw [e', List.append_assoc]
      · split at h
        · rename_i close
          subst close
          rcases List.mem_cons.mp h with rfl | h
          · exact ⟨[], t, by simp [begunText]⟩
          · obtain ⟨a, b, e⟩ := ih h
            refine ⟨begunText (some begun) ++ '>' :: a, b, ?_⟩
            have e' : t = a ++ '<' :: (x ++ '>' :: b) := e
            rw [e', List.append_assoc, List.cons_append]
        · obtain ⟨a, b, e⟩ := ih h
          exact ⟨a, b, by simpa [begunText] using e⟩

theorem mem_markersOf_of_mem_tagsIn {t x d : Text} (hx : x ∈ tagsIn t) (hd : d ∈ markersOf x) :
    d ∈ markersOf t := by
  obtain ⟨a, b, e⟩ := exists_of_mem_tagsFrom hx
  have split : t = a ++ '<' :: (x ++ '>' :: b) := e
  rw [split, markersOf_append_inert a inert_angle.1, markersOf_append_inert x inert_angle.2]
  simp [hd]

namespace InlineHtml

variable {ids : List Text} (h : InlineHtml)

/-- Whatever is done with the character data, the tags are read in their order. -/
theorem tags_sublist_write (f : Text → Text) (before behind : Text) :
    h.tags.Sublist (tagsIn (before ++ (h.write f ++ behind))) := by
  have along (xs : List TaggedText) (t : Text) : (xs.map TaggedText.tag).Sublist
      (tagsIn (t ++ ((xs.flatMap fun x => '<' :: (x.tag ++ '>' :: f x.data)) ++ behind))) := by
    induction xs generalizing t with
    | nil => exact List.nil_sublist _
    | cons x xs ih =>
      have tail := ih (f x.data)
      simp only [List.flatMap_cons, List.map_cons, List.cons_append, List.append_assoc] at tail ⊢
      rw [tagsIn_append_tag]
      exact (tail.cons_cons x.tag).trans (List.sublist_append_right _ _)
  have whole := along h.rest (before ++ f h.first)
  rwa [List.append_assoc, ← List.append_assoc (f h.first)] at whole

/-- Places are put into the tags as into the character data. -/
theorem placed_html (ids : List Text) :
    placed ids h.html = placed ids h.first ++
      h.rest.flatMap fun x => '<' :: (placed ids x.tag ++ '>' :: placed ids x.data) := by
  have along (xs : List TaggedText) (t : Text) :
      placed ids (t ++ xs.flatMap fun x => '<' :: (x.tag ++ '>' :: x.data)) = placed ids t ++
        xs.flatMap fun x => '<' :: (placed ids x.tag ++ '>' :: placed ids x.data) := by
    induction xs generalizing t with
    | nil => simp
    | cons x xs ih =>
      have tail := ih x.data
      simp only [List.flatMap_cons, List.cons_append, List.append_assoc]
      rw [placed_append_inert ids t inert_angle.1, placed_append_inert ids x.tag inert_angle.2,
        tail]
  exact along h.rest h.first

theorem placed_html_of_unknown (unknown : ∀ t ∈ h.tags, ∀ d ∈ markersOf t, d ∉ ids) :
    placed ids h.html = h.write (placed ids) := by
  rw [placed_html, write]
  congr 1
  apply List.flatMap_congr
  intro x hx
  rw [placed_of_unknown (unknown x.tag (List.mem_map_of_mem hx))]

/-- What is taken for the sentinel of a block has no tags. -/
theorem tags_eq_nil_of_sentinel (sentinel : isSentinel (Text.strip h.html) = true) :
    h.tags = [] := by
  cases hx : h.rest with
  | nil => rw [tags, hx, List.map_nil]
  | cons x xs =>
    have free : '<' ∉ h.html := not_mem_of_isSentinel sentinel (by decide) (by decide)
    simp [html, write, hx] at free

/-- No marker of a known number is left in what a paragraph becomes. -/
theorem unknown_of_mem_annotatedParagraph {html d : Text}
    (hd : d ∈ markersOf (annotatedParagraph ids html)) : d ∉ ids := by
  cases sentinel : isSentinel (Text.strip html) with
  | true =>
    rw [annotatedParagraph_of_sentinel sentinel] at hd
    cases hd
  | false =>
    have front : markersOf "<p>".toList = [] := markersOf_of_not_open (by decide)
    have back : markersOf "/p>\n".toList = [] := markersOf_of_not_open (by decide)
    have split : annotatedParagraph ids html =
        "<p>".toList ++ (placed ids html ++ '<' :: "/p>\n".toList) :=
      annotatedParagraph_of_shown sentinel
    rw [split, markersOf_append_of_not_open (by decide),
      markersOf_append_inert _ inert_angle.1, back, List.append_nil] at hd
    exact unknown_of_mem_placed hd

/-- The tags of a paragraph occur in its HTML, in their order and with their attributes, just where
none of them holds the marker of a known number; then places are in its character data alone. -/
theorem annotatedParagraph_tags :
    (h.tags.Sublist (tagsIn (annotatedParagraph ids h.html)) ↔
      ∀ t ∈ h.tags, ∀ d ∈ markersOf t, d ∉ ids) ∧
    ((∀ t ∈ h.tags, ∀ d ∈ markersOf t, d ∉ ids) → annotatedParagraph ids h.html =
      if isSentinel (Text.strip h.html) then [] else plainParagraph (h.write (placed ids))) := by
  have shown (unknown : ∀ t ∈ h.tags, ∀ d ∈ markersOf t, d ∉ ids) : annotatedParagraph ids h.html =
      if isSentinel (Text.strip h.html) then [] else plainParagraph (h.write (placed ids)) := by
    rw [← h.placed_html_of_unknown unknown]
    rfl
  refine ⟨⟨?_, ?_⟩, shown⟩
  · intro occur t ht d hd
    exact unknown_of_mem_annotatedParagraph (mem_markersOf_of_mem_tagsIn (occur.subset ht) hd)
  · intro unknown
    rw [shown unknown]
    split
    · rename_i sentinel
      rw [h.tags_eq_nil_of_sentinel sentinel]
      exact List.nil_sublist _
    · rw [plainParagraph_eq]
      exact h.tags_sublist_write (placed ids) "<p>".toList "</p>\n".toList

end InlineHtml

/-- A link whose address has a number in brackets. -/
def numberedLink : InlineHtml where
  first := []
  rest :=
    [⟨"a href=\"/f(1)\"".toList, ['x'], by decide, by decide, by decide⟩,
      ⟨"/a".toList, [], by decide, by decide, by decide⟩]
  plain := by decide

/-- Where the number is known, the place is put into the address and its tag is lost. -/
theorem numberedLink_broken :
    numberedLink.html = Inline.toHtml true (.link [.text ['x']] "/f(1)".toList none) ∧
      ¬ numberedLink.tags.Sublist (tagsIn (annotatedParagraph [['1']] numberedLink.html)) := by
  constructor
  · rfl
  · decide

end Docmark.Preview
