import Docmark.Preview.Rendered
import Docmark.Proofs.Annotation.GivenDefinitions
import Docmark.Proofs.Annotation.KnownNumbers
import Docmark.Proofs.Preview.Places

/-!
Paragraphs outside of annotated blocks in a preview. A preview knows the numbers of all blocks, and
looks for their markers in every paragraph: one outside of the blocks is shown as it is just where
no number in brackets is one of these.
-/

namespace Docmark.Dictionary

variable {κ β : Type} [BEq κ] [LawfulBEq κ]

theorem mem_keys_iff {d : Dictionary κ β} {k : κ} : k ∈ d.keys ↔ ∃ v, d.get? k = some v := by
  rw [← Option.ne_none_iff_exists', ne_eq, get?_eq_none_iff, not_not]

end Docmark.Dictionary

namespace Docmark.Annotation

/-- A text in which some characters are written with others that belong to no marker. -/
theorem markersOf_flatMap {f : Char → Text}
    (h : ∀ c, f c = [c] ∨ Inert c ∧ ∃ d w, f c = d :: w ∧ Inert d ∧ '(' ∉ w) (t : Text) :
    markersOf (t.flatMap f) = markersOf t := by
  -- A character that is kept may complete a marker, so that the text in front of it is needed.
  have behind (a : Text) : markersOf (a ++ t.flatMap f) = markersOf (a ++ t) := by
    induction t generalizing a with
    | nil => rfl
    | cons c t ih =>
      rw [List.flatMap_cons]
      rcases h c with kept | ⟨inert, d, w, written, inert', free⟩
      · rw [kept, ← List.append_assoc, ih, List.append_assoc, List.singleton_append]
      · have rest := ih []
        rw [List.nil_append, List.nil_append] at rest
        rw [written, List.cons_append, markersOf_append_inert a inert',
          markersOf_append_of_not_open free, rest, markersOf_append_inert a inert]
  exact behind []

namespace State

/-- Among the numerals, those become known that a definition is given for. -/
theorem mem_keys_addDefinitions {s u : State} {given : List (Text × Text)}
    (added : s.addDefinitions given = (u, none)) {d : Text} (numeral : IsNumeral d) :
    u.referenced = s.referenced ∧
      (d ∈ u.definitions.keys ↔ d ∈ s.definitions.keys ∨ d ∈ given.map Prod.fst) := by
  obtain ⟨taken, rest, rfl, passed, ends, completes⟩ := s.exists_taken given
  rw [added] at ends completes
  cases ends
  rw [List.append_nil]
  refine ⟨completes.referenced, ?_⟩
  rw [Dictionary.mem_keys_iff, Dictionary.mem_keys_iff]
  constructor
  · rintro ⟨v, known⟩
    rcases (completes.definitions d v).mp known with old | ⟨-, gives⟩
    · exact Or.inl ⟨v, old⟩
    · obtain ⟨content, found, -⟩ := gives.content
      exact Or.inr (Dictionary.mem_keys_iff.mpr ⟨content, found⟩)
  · rintro (⟨v, old⟩ | new)
    · exact ⟨v, (completes.definitions d v).mpr (Or.inl old)⟩
    · cases unknown : s.definitions.get? d with
      | some v => exact ⟨v, (completes.definitions d v).mpr (Or.inl unknown)⟩
      | none =>
        have digits : IsDigits d :=
          ⟨numeral.1, fun c hc => by simp [Text.isDigit, numeral.2 c hc]⟩
        obtain ⟨p, hp, rfl⟩ := List.mem_map.mp new
        have countable : Text.Countable p.1 := by
          by_contra unread
          exact passed p hp ⟨unknown, digits, unread⟩
        obtain ⟨n, number⟩ := (Text.exists_readInt_iff digits.1 digits.2).mpr countable
        obtain ⟨content, found⟩ := Dictionary.mem_keys_iff.mp new
        have gives : Gives taken p.1 ⟨p.1, Text.strip content, n⟩ :=
          ⟨digits, number, ⟨content, found, rfl⟩, rfl⟩
        exact ⟨_, (completes.definitions p.1 _).mpr (Or.inr ⟨unknown, gives⟩)⟩

end State

end Docmark.Annotation

namespace Docmark.Preview

open Annotation

theorem escapeChar_cases (c : Char) :
    escapeChar c = [c] ∨ Inert c ∧ ∃ d w, escapeChar c = d :: w ∧ Inert d ∧ '(' ∉ w := by
  have inert {c : Char} (shown : c ≠ '(' ∧ c ≠ ')') (gap : Text.isDecimal c = false) : Inert c :=
    ⟨shown.1, shown.2, gap⟩
  have mark : Inert '&' := inert (by decide) (Text.not_isDecimal_of_gap (by decide))
  unfold escapeChar
  split
  · rename_i same
    subst same
    exact Or.inr ⟨mark, _, _, rfl, mark, by decide⟩
  split
  · rename_i same
    subst same
    exact Or.inr ⟨inert_angle.1, _, _, rfl, mark, by decide⟩
  split
  · rename_i same
    subst same
    exact Or.inr ⟨inert_angle.2, _, _, rfl, mark, by decide⟩
  split
  · rename_i same
    subst same
    exact Or.inr ⟨inert (by decide) (Text.not_isDecimal_of_gap (by decide)), _, _, rfl, mark,
      by decide⟩
  · exact Or.inl rfl

theorem markersOf_escapeText (t : Text) : markersOf (escapeText t) = markersOf t :=
  markersOf_flatMap escapeChar_cases t

/-- A paragraph of plain text is shown as where no number is known just where it has no marker of a
known one. -/
theorem plainParagraph_shown_iff {ids : List Text} {t : Text} (plain : resolveReferences t = t)
    (escaping : Bool) (highlight : Highlighter) :
    Block.toHtml (.preview escaping highlight ids) (.paragraph [.text t]) =
        Block.toHtml (.preview escaping highlight []) (.paragraph [.text t]) ↔
      ∀ d ∈ markersOf t, d ∉ ids := by
  have html : Inline.allToHtml escaping [.text t] = escapeText t := by
    have run : Inline.allToHtml escaping [.text t] =
        (if escaping then escapeText t else normalizeText t) ++ [] := rfl
    rw [run, List.append_nil, normalizeText, plain, ite_self]
  have shown (ids : List Text) : Block.toHtml (.preview escaping highlight ids)
      (.paragraph [.text t]) = annotatedParagraph ids (Inline.allToHtml escaping [.text t]) := rfl
  rw [shown, shown, html, annotatedParagraph_eq_iff, markersOf_escapeText]

/-- The blocks of a text are read first, and all definitions given are added then. -/
theorem of_annotate_eq_ok {t source : Text} {given : List (Text × Text)} {u : State}
    (h : annotate t given = .ok (source, u)) : source = (({} : Processor).process t).1 ∧
      (({} : Processor).process t).2.state.addDefinitions given = (u, none) := by
  unfold annotate at h
  dsimp only at h
  split at h
  · rename_i s added
    cases h
    exact ⟨rfl, added⟩
  · cases h

/-- Known are the numbers of the blocks, and those for which a definition is given. -/
theorem mem_knownIds_iff {s u : State} {n : Nat} (known : s.KnowsUpTo n)
    {given : List (Text × Text)} (added : s.addDefinitions given = (u, none)) {d : Text}
    (numeral : IsNumeral d) :
    d ∈ knownIds u ↔ d ∈ given.map Prod.fst ∨ ∃ m, 1 ≤ m ∧ m ≤ n ∧ d = Text.decimal m := by
  obtain ⟨referenced, keys⟩ := s.mem_keys_addDefinitions added numeral
  have natural {m : Int} (within : 1 ≤ m ∧ m ≤ n) :
      ∃ k : Nat, 1 ≤ k ∧ k ≤ n ∧ Text.decimalInt m = Text.decimal k := by
    obtain ⟨k, rfl⟩ := Int.eq_ofNat_of_zero_le (a := m) (by omega)
    exact ⟨k, by omega, by omega, rfl⟩
  rw [knownIds, List.mem_append, keys, referenced, List.mem_map]
  constructor
  · rintro (⟨m, hm, rfl⟩ | old | new)
    · exact Or.inr (natural ((known.referenced m).mp hm))
    · obtain ⟨m, within, rfl⟩ := known.defined d old
      exact Or.inr (natural within)
    · exact Or.inl new
  · rintro (new | ⟨m, low, high, rfl⟩)
    · exact Or.inr (Or.inr new)
    · exact Or.inl ⟨m, (known.referenced m).mpr (by omega), rfl⟩

/--
A paragraph of one line of plain text outside of the blocks of a text is in the text that is shown,
and is shown there as where no number is known, just where none of its markers has a number of the
blocks, which are those from 1 to the number of names in them, or one for which a definition is
given.
-/
theorem outsideParagraph_shown {t source : Text} {given : List (Text × Text)} {u : State}
    (annotated : annotate t given = .ok (source, u)) {ps : List Passage} {final : State}
    (reads : Reads {} none [] ps final) (lines : Text.lines t = ps.flatMap Passage.lines)
    {line : Text} (outside : .outside line ∈ ps)
    (plain : resolveReferences (Text.strip line) = Text.strip line) (escaping : Bool)
    (highlight : Highlighter) :
    line ∈ Text.lines source ∧
    (Block.toHtml (.preview escaping highlight (knownIds u)) (.paragraph [.text (Text.strip line)]) =
        Block.toHtml (.preview escaping highlight []) (.paragraph [.text (Text.strip line)]) ↔
      ∀ d ∈ markersOf line, d ∉ given.map Prod.fst ∧
        ∀ n, 1 ≤ n → n ≤ (Passage.blockNames ps).length → d ≠ Text.decimal n) := by
  obtain ⟨rfl, added⟩ := of_annotate_eq_ok annotated
  obtain ⟨written, known⟩ := reads.process lines
  have shown : line ∈ Text.lines (({} : Processor).process t).1 := by
    rw [written]
    exact List.mem_flatMap.mpr ⟨.outside line, outside, by simp [Passage.written]⟩
  refine ⟨shown, ?_⟩
  rw [plainParagraph_shown_iff plain, signs_markersOf.strip]
  apply forall₂_congr
  intro d hd
  rw [mem_knownIds_iff known added (isNumeral_of_mem_markersOf hd)]
  simp only [not_or, not_exists, not_and, ne_eq]

/-- A block with one name, and two paragraphs below it with numbers in brackets. -/
def numberedText : Text :=
  "\x7b .annotate \x7d\n\nA (1)\n\n1. note\n\nB (2)\n\nC (1)".toList

def numberedSource : Text :=
  "\x7b .annotate \x7d\n\nA (1)\n\n\nB (2)\n\nC (1)".toList

def numberedState : State where
  counter := 1
  definitions := [(['1'], ⟨['1'], "note".toList, 1⟩)]
  referenced := [1]

def numberedPassages : List Passage :=
  [.sentinel "\x7b .annotate \x7d".toList, .body [] [], .body "A (1)".toList "A (1)".toList,
    .body [] [], .definition "1. note".toList [], .body [] [], .outside "B (2)".toList,
    .outside [], .outside "C (1)".toList]

theorem numberedText_annotated : annotate numberedText [] = .ok (numberedSource, numberedState) :=
  rfl

theorem numberedText_lines : Text.lines numberedText = numberedPassages.flatMap Passage.lines :=
  rfl

theorem numberedText_reads : Reads {} none [] numberedPassages numberedState := by
  have undefined {line : Text} (names : List Text) (h : definition? (Text.strip line) = none) :
      ∀ name text, definition? (Text.strip line) = some (name, text) → name ∉ names := by
    intro name text found
    rw [h] at found
    cases found
  refine .sentinel rfl (.body rfl (undefined _ rfl) rfl (.body rfl (undefined _ rfl) rfl
    (.body rfl (undefined _ rfl) rfl ?_)))
  refine .definition rfl rfl (by decide) (by simp) (by decide) ?_
  exact .last rfl (undefined _ rfl) rfl (.outside rfl (.outside rfl (.outside rfl .done)))

/-- A number that no block uses is shown as it is. -/
theorem numberedText_keeps_two :
    (annotate numberedText [] = .ok (numberedSource, numberedState) ∧
      Reads {} none [] numberedPassages numberedState ∧
      Text.lines numberedText = numberedPassages.flatMap Passage.lines ∧
      .outside "B (2)".toList ∈ numberedPassages ∧
      resolveReferences "B (2)".toList = "B (2)".toList) ∧
    Block.toHtml (.preview true plainHighlight (knownIds numberedState))
        (.paragraph [.text "B (2)".toList]) =
      Block.toHtml (.preview true plainHighlight []) (.paragraph [.text "B (2)".toList]) := by
  have outside : .outside "B (2)".toList ∈ numberedPassages := by decide
  have plain : resolveReferences "B (2)".toList = "B (2)".toList := rfl
  have shown := outsideParagraph_shown numberedText_annotated numberedText_reads
    numberedText_lines outside plain true plainHighlight
  refine ⟨⟨numberedText_annotated, numberedText_reads, numberedText_lines, outside, plain⟩,
    shown.2.mpr ?_⟩
  decide

/-- The number of the block becomes its place, also in a paragraph outside of the block. -/
theorem numberedText_takes_one :
    (annotate numberedText [] = .ok (numberedSource, numberedState) ∧
      Reads {} none [] numberedPassages numberedState ∧
      Text.lines numberedText = numberedPassages.flatMap Passage.lines ∧
      .outside "C (1)".toList ∈ numberedPassages) ∧
    Block.toHtml (.preview true plainHighlight (knownIds numberedState))
        (.paragraph [.text "C (1)".toList]) =
      plainParagraph ("C ".toList ++ annotationPlace ['1']) ∧
    Block.toHtml (.preview true plainHighlight (knownIds numberedState))
        (.paragraph [.text "C (1)".toList]) ≠
      Block.toHtml (.preview true plainHighlight []) (.paragraph [.text "C (1)".toList]) :=
  ⟨⟨numberedText_annotated, numberedText_reads, numberedText_lines, by decide⟩, rfl, by decide⟩

end Docmark.Preview
