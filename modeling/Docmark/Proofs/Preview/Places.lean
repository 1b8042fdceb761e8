import Docmark.Preview.Renderer
import Docmark.Proofs.Annotation.Marker

/-!
The places that markers of annotations become in the HTML of a paragraph. A marker becomes a place
just where its number is known, so that no known one is left, and a paragraph without known ones is
not changed.
-/

namespace Docmark.Annotation

/-- A marker stands in the text with its brackets. -/
theorem exists_of_mem_markersOf {t d : Text} (h : d ∈ markersOf t) :
    ∃ a b, t = a ++ ('(' :: d ++ ')' :: b) := by
  obtain ⟨p, hp, he⟩ := List.mem_filterMap.mp h
  cases p with
  | char c => cases he
  | marker id =>
    cases he
    obtain ⟨ps, qs, split⟩ := List.append_of_mem hp
    refine ⟨renderPieces ps, renderPieces qs, ?_⟩
    rw [← renderPieces_pieces t, split, renderPieces_append, renderPieces_cons]
    simp [Piece.render]

theorem markersOf_of_not_open {t : Text} (h : '(' ∉ t) : markersOf t = [] := by
  rw [← List.append_nil t, markersOf_append_of_not_open h]
  rfl

/-- In a sentinel there is white space around the word. -/
theorem exists_of_isSentinel {t : Text} (h : isSentinel t = true) :
    ∃ a b, (∀ c ∈ a ++ b, Text.isBlankChar c = true) ∧
      t = '\x7b' :: (a ++ (sentinelWord ++ (b ++ ['\x7d']))) := by
  have space (t : Text) : t = t.takeWhile Text.isBlankChar ++ Text.stripStart t :=
    List.takeWhile_append_dropWhile.symm
  rw [isSentinel, beq_iff_eq] at h
  unfold afterSentinel? at h
  split at h
  · rename_i r
    split at h
    · rename_i s word
      split at h
      · rename_i rest close
        cases h
        refine ⟨r.takeWhile Text.isBlankChar, s.takeWhile Text.isBlankChar, ?_, ?_⟩
        · intro c hc
          rcases List.mem_append.mp hc with hc | hc
          · exact List.mem_takeWhile_imp hc
          · exact List.mem_takeWhile_imp hc
        · rw [← close, ← space s, ← Text.eq_of_after? word, ← space r]
      · cases h
    · cases h
  · cases h

/-- A character that is neither white space nor in the sentinel is not in the text around one. -/
theorem not_mem_of_isSentinel {t : Text} (h : isSentinel (Text.strip t) = true) {o : Char}
    (shown : Text.isBlankChar o = false) (foreign : o ∉ '\x7b' :: (sentinelWord ++ ['\x7d'])) :
    o ∉ t := by
  have free {u : Text} (blank : ∀ c ∈ u, Text.isBlankChar c = true) : o ∉ u := by
    intro hm
    simp [blank o hm] at shown
  obtain ⟨pre, post, whole, before, behind⟩ := Text.exists_dropAround Text.isBlankChar t
  obtain ⟨a, b, blank, word⟩ := exists_of_isSentinel h
  have inside := free blank
  have sentinel : o ∉ Text.strip t := by
    rw [word]
    simp only [List.mem_append, List.mem_cons, List.not_mem_nil, not_or, or_false]
      at inside foreign ⊢
    exact ⟨foreign.1, inside.1, foreign.2.1, inside.2, foreign.2.2⟩
  rw [whole]
  simp only [List.mem_append, not_or]
  exact ⟨⟨free before, sentinel⟩, free behind⟩

end Docmark.Annotation

namespace Docmark.Preview

open Annotation

/-- A text with places for the markers of known numbers. -/
def placed (ids : List Text) (t : Text) : Text :=
  (pieces t).flatMap (placeMarker ids)

variable {ids : List Text}

theorem placed_append_inert (ids : List Text) (t : Text) {c : Char} (hc : Inert c) (u : Text) :
    placed ids (t ++ c :: u) = placed ids t ++ c :: placed ids u := by
  simp [placed, pieces, piecesFrom_append_inert none t hc, placeMarker, Piece.render]

theorem placed_append_marker (ids : List Text) (t : Text) {d : Text} (hd : IsNumeral d) (u : Text) :
    placed ids (t ++ ('(' :: d ++ ')' :: u)) =
      placed ids t ++ (placeMarker ids (.marker d) ++ placed ids u) := by
  rw [placed, pieces_append_marker t hd, List.flatMap_append, List.flatMap_cons]
  rfl

/-- Without known numbers in it a text is not changed. -/
theorem placed_of_unknown {t : Text} (h : ∀ d ∈ markersOf t, d ∉ ids) : placed ids t = t := by
  have same : (pieces t).flatMap (placeMarker ids) = (pieces t).flatMap Piece.render := by
    apply List.flatMap_congr
    intro p hp
    cases p with
    | char c => rfl
    | marker d =>
      have unknown : d ∉ ids := h d (List.mem_filterMap.mpr ⟨.marker d, hp, rfl⟩)
      rw [placeMarker, if_neg (by simpa using unknown)]
  rw [placed, same]
  exact renderPieces_pieces t

/-- A place begins and ends with an angle bracket, and has no bracket of a marker in it. -/
theorem exists_annotationPlace {d : Text} (hd : IsNumeral d) :
    ∃ inner, annotationPlace d = '<' :: (inner ++ ['>']) ∧ '(' ∉ inner := by
  have framed {front a b c back e : Text} (hf : front = '<' :: a) (hb : back = e ++ ['>']) :
      front ++ b ++ c ++ d ++ back = '<' :: ((a ++ (b ++ (c ++ (d ++ e)))) ++ ['>']) := by
    subst hf hb
    simp
  refine ⟨_, framed (List.cons_head_tail (by decide)).symm
    (List.dropLast_append_getLast (by decide)).symm, ?_⟩
  simp only [List.mem_append, not_or]
  exact ⟨by decide, by decide, by decide, hd.not_mem isDecimal_open, by decide⟩

theorem inert_angle : Inert '<' ∧ Inert '>' :=
  ⟨⟨by decide, by decide, Text.not_isDecimal_of_gap (by decide)⟩,
    ⟨by decide, by decide, Text.not_isDecimal_of_gap (by decide)⟩⟩

/-- No known number is left in a marker. -/
theorem unknown_of_mem_placed {t d : Text} (h : d ∈ markersOf (placed ids t)) : d ∉ ids := by
  -- A known marker leaves two shorter texts, one on each side.
  induction hn : t.length using Nat.strongRecOn generalizing t with
  | ind n ih =>
    subst hn
    by_cases known : ∃ e ∈ markersOf t, e ∈ ids
    · obtain ⟨e, marker, he⟩ := known
      obtain ⟨a, b, rfl⟩ := exists_of_mem_markersOf marker
      have numeral := isNumeral_of_mem_markersOf marker
      obtain ⟨inner, place, free⟩ := exists_annotationPlace numeral
      have none : markersOf inner = [] := markersOf_of_not_open free
      rw [placed_append_marker ids a numeral, placeMarker, if_pos (by simpa using he), place,
        List.cons_append, markersOf_append_inert _ inert_angle.1, List.append_assoc,
        List.singleton_append, markersOf_append_inert _ inert_angle.2, none,
        List.nil_append, List.mem_append] at h
      rcases h with h | h
      · exact ih a.length (by simp) h rfl
      · exact ih b.length (by simp; omega) h rfl
    · have unknown : ∀ e ∈ markersOf t, e ∉ ids := fun e he hm => known ⟨e, he, hm⟩
      rw [placed_of_unknown unknown] at h
      exact unknown d h

theorem placed_eq_self_iff {t : Text} : placed ids t = t ↔ ∀ d ∈ markersOf t, d ∉ ids := by
  constructor
  · intro same d hd
    rw [← same] at hd
    exact unknown_of_mem_placed hd
  · exact placed_of_unknown

theorem annotatedParagraph_of_sentinel {html : Text} (h : isSentinel (Text.strip html) = true) :
    annotatedParagraph ids html = [] := by
  rw [annotatedParagraph, if_pos h]

theorem plainParagraph_eq (html : Text) :
    plainParagraph html = "<p>".toList ++ (html ++ "</p>\n".toList) := by
  simp [plainParagraph, element]

theorem annotatedParagraph_of_shown {html : Text} (h : isSentinel (Text.strip html) = false) :
    annotatedParagraph ids html = "<p>".toList ++ (placed ids html ++ "</p>\n".toList) := by
  rw [annotatedParagraph, if_neg (by simp [h]), plainParagraph_eq]
  rfl

/-- A paragraph is shown as where no number is known just where it has no marker of a known one. -/
theorem annotatedParagraph_eq_iff {html : Text} :
    annotatedParagraph ids html = annotatedParagraph [] html ↔ ∀ d ∈ markersOf html, d ∉ ids := by
  cases sentinel : isSentinel (Text.strip html) with
  | true =>
    have none : markersOf html = [] :=
      markersOf_of_not_open (not_mem_of_isSentinel sentinel (by decide) (by decide))
    simp [annotatedParagraph_of_sentinel sentinel, none]
  | false =>
    have plain : placed [] html = html := placed_of_unknown (by simp)
    rw [annotatedParagraph_of_shown sentinel, annotatedParagraph_of_shown sentinel, plain,
      ← placed_eq_self_iff]
    simp

end Docmark.Preview
