import Docmark.Convert.Block
import Docmark.Proofs.Convert.NotedLine
import Docmark.Proofs.Document.Annotated
import Docmark.Proofs.Markdown.SignLayout

/-!
Documents of annotated blocks with one paragraph each: what such a block holds, and the line and the
notes that it stands for.
-/

namespace Docmark.Node

open Annotation

def content (n : Node) : Text :=
  (n.text.getD "").toList

/-- A run of text without marks. -/
structure IsRun (n : Node) : Prop where
  kind : n.kind = .text
  marks : n.marks = []
  leaf : n.children = []
  line : '\n' ∉ n.content

/-- A reference with a decimal number as its name. -/
structure IsMarker (n : Node) : Prop where
  reference : n.isReference = true
  leaf : n.children = []
  named : ∃ d, n.localName = some d ∧ IsNumeral d

structure IsTextParagraph (n : Node) : Prop where
  kind : n.kind = .paragraph
  runs : ∀ c ∈ n.children, c.IsRun

structure IsMarkedParagraph (n : Node) : Prop where
  kind : n.kind = .paragraph
  runs : ∀ c ∈ n.children, c.IsRun ∨ c.IsMarker

/-- A definition with some text. -/
structure IsNote (n : Node) : Prop where
  definition : n.isDefinition = true
  paragraphs : ∀ p ∈ n.children, p.IsTextParagraph
  filled : ∃ p ∈ n.children, Text.isBlank (p.children.flatMap content) = false

/-- An annotated block of a paragraph and notes whose names are all marked in it. -/
structure IsNotedBlock (n : Node) : Prop where
  block : n.isAnnotatedBlock = true
  holds : ∃ p ds, n.children = p :: ds ∧ p.IsMarkedParagraph ∧
    ∀ d ∈ ds, d.IsNote ∧ ∃ r ∈ p.children, r.isReference = true ∧ d.localName = r.localName

structure IsNotedDocument (n : Node) : Prop where
  kind : n.kind = .doc
  blocks : ∀ b ∈ n.children, b.IsNotedBlock

/-- The Markdown of a run or a marker. -/
def runText (n : Node) : Text :=
  if n.isReference then (Piece.marker n.markerName).render else Markdown.escape n.content

/-- The Markdown of a paragraph of runs and markers. -/
def paragraphLine (n : Node) : Text :=
  Convert.paragraphText true (n.children.flatMap runText)

def noteText (n : Node) : Text :=
  Text.joinWith [' ']
    ((n.children.map fun p => Text.strip p.paragraphLine).filter fun t => !t.isEmpty)

/-- The line and the notes of a block. -/
def noted (n : Node) : NotedLine :=
  match n.children with
  | [] => ⟨[], []⟩
  | p :: ds => ⟨p.paragraphLine, ds.map fun d => (d.localName.getD [], d.noteText)⟩

/-- The lines of blocks that are not blank, with their notes. -/
def notedLines (ns : List Node) : List NotedLine :=
  (ns.map noted).filter fun e => !Text.isBlank e.line

theorem not_isReference_of_isRun {n : Node} (h : n.IsRun) : n.isReference = false := by
  simp [isReference, h.kind]

theorem runText_of_isRun {n : Node} (h : n.IsRun) : n.runText = Markdown.escape n.content := by
  simp [runText, not_isReference_of_isRun h]

theorem runText_of_isMarker {n : Node} (h : n.IsMarker) :
    n.runText = (Piece.marker n.markerName).render := by
  simp [runText, h.reference]

theorem isNumeral_markerName {n : Node} (h : n.IsMarker) : IsNumeral n.markerName := by
  obtain ⟨d, hd, hn⟩ := h.named
  rw [markerName, hd]
  exact hn

theorem plainLine_runText {n : Node} (h : n.IsRun ∨ n.IsMarker) :
    Markdown.PlainLine n.runText := by
  rcases h with h | h
  · rw [runText_of_isRun h]
    exact Markdown.plainLine_escape h.line
  · rw [runText_of_isMarker h]
    exact Markdown.plainLine_marker (isNumeral_markerName h)

theorem plainLine_runs {ns : List Node} (h : ∀ c ∈ ns, c.IsRun ∨ c.IsMarker) :
    Markdown.PlainLine (ns.flatMap runText) :=
  Markdown.plainLine_flatMap fun c hc => plainLine_runText (h c hc)

theorem IsTextParagraph.marked {n : Node} (h : n.IsTextParagraph) : n.IsMarkedParagraph :=
  ⟨h.kind, fun c hc => Or.inl (h.runs c hc)⟩

theorem IsMarkedParagraph.plainLine {n : Node} (h : n.IsMarkedParagraph) :
    Markdown.PlainLine n.paragraphLine :=
  (plainLine_runs h.runs).paragraphText

theorem IsMarkedParagraph.isMarker {n r : Node} (h : n.IsMarkedParagraph) (hr : r ∈ n.children)
    (reference : r.isReference = true) : r.IsMarker := by
  refine (h.runs r hr).resolve_left fun hrun => ?_
  rw [not_isReference_of_isRun hrun] at reference
  cases reference

/-- The name of every reference stands in a marker. -/
theorem IsMarkedParagraph.mem_markersOf {n r : Node} (h : n.IsMarkedParagraph)
    (hr : r ∈ n.children) (reference : r.isReference = true) :
    r.markerName ∈ markersOf n.paragraphLine := by
  have marker := h.isMarker hr reference
  obtain ⟨before, rest, hs⟩ := List.append_of_mem hr
  rw [paragraphLine, signs_markersOf.paragraphText, hs, List.flatMap_append, List.flatMap_cons,
    runText_of_isMarker marker]
  have shape (u : Text) : (Piece.marker r.markerName).render ++ u =
      '(' :: r.markerName ++ ')' :: u := by simp [Piece.render]
  rw [shape, markersOf_append_marker _ (isNumeral_markerName marker)]
  simp

theorem isBlank_runs {ns : List Node} (h : ∀ c ∈ ns, c.IsRun) :
    Text.isBlank (ns.flatMap runText) = Text.isBlank (ns.flatMap content) := by
  induction ns with
  | nil => rfl
  | cons c ns ih =>
    rw [List.flatMap_cons, List.flatMap_cons, Text.isBlank_append, Text.isBlank_append,
      ih fun d hd => h d (by simp [hd]), runText_of_isRun (h c (by simp)),
      Markdown.isBlank_escape]

theorem IsNote.plainLine {n : Node} (h : n.IsNote) : Markdown.PlainLine n.noteText := by
  refine Markdown.plainLine_joinWith ⟨by simp, ?_⟩ fun t ht => ?_
  · refine Markdown.guardedAfter_of_plain fun c hc => ?_
    obtain rfl := List.mem_singleton.mp hc
    decide
  · obtain ⟨p, hp, rfl⟩ := List.mem_map.mp (List.mem_filter.mp ht).1
    exact (h.paragraphs p hp).marked.plainLine.strip

theorem IsNote.trimmed {n : Node} (h : n.IsNote) : Text.Trimmed n.noteText := by
  obtain ⟨p, hp, filled⟩ := h.filled
  have hrun := (h.paragraphs p hp).runs
  have shown : Text.isBlank p.paragraphLine = false := by
    have line := (plainLine_runs fun c hc => Or.inl (hrun c hc)).line
    rw [paragraphLine, Markdown.isBlank_paragraphText line, isBlank_runs hrun, filled]
  refine Text.trimmed_joinWith (fun he => ?_) fun t ht => ?_
  · have mem : Text.strip p.paragraphLine ∈
        ((n.children.map fun p => Text.strip p.paragraphLine).filter fun t => !t.isEmpty) := by
      refine List.mem_filter.mpr ⟨List.mem_map.mpr ⟨p, hp, rfl⟩, ?_⟩
      simp [(Text.trimmed_strip shown).ne_nil]
    rw [he] at mem
    cases mem
  · obtain ⟨ht, ne⟩ := List.mem_filter.mp ht
    obtain ⟨q, -, rfl⟩ := List.mem_map.mp ht
    refine Text.trimmed_strip (Bool.eq_false_iff.mpr fun hb => ?_)
    rw [Text.strip_eq_nil_iff.mpr hb] at ne
    cases ne

/-- Every note of a block has a marker in its line. -/
theorem IsNotedBlock.marked {n : Node} (h : n.IsNotedBlock) :
    ∀ p ∈ n.noted.notes, p.1 ∈ markersOf n.noted.line := by
  obtain ⟨p, ds, hc, hp, hds⟩ := h.holds
  simp only [noted, hc]
  intro q hq
  obtain ⟨d, hd, rfl⟩ := List.mem_map.mp hq
  obtain ⟨-, r, hr, reference, named⟩ := hds d hd
  obtain ⟨name, hname, -⟩ := (hp.isMarker hr reference).named
  have mem := hp.mem_markersOf hr reference
  rw [markerName, hname] at mem
  rw [named, hname]
  exact mem

theorem IsNotedBlock.proper {n : Node} (h : n.IsNotedBlock)
    (shown : Text.isBlank n.noted.line = false) : n.noted.Proper := by
  refine ⟨?_, shown, h.marked, ?_, ?_⟩
  all_goals
    obtain ⟨p, ds, hc, hp, hds⟩ := h.holds
    simp only [noted, hc]
  · exact hp.plainLine
  · intro q hq
    obtain ⟨d, hd, rfl⟩ := List.mem_map.mp hq
    exact (hds d hd).1.plainLine
  · intro q hq
    obtain ⟨d, hd, rfl⟩ := List.mem_map.mp hq
    exact (hds d hd).1.trimmed

theorem isRun_ofText {t : String} (line : '\n' ∉ t.toList) : (ofText t).IsRun :=
  ⟨rfl, rfl, rfl, line⟩

theorem isMarker_referenceTo {name : String} {d : Text}
    (named : (referenceTo name).localName = some d) (number : IsNumeral d) :
    (referenceTo name).IsMarker :=
  ⟨rfl, rfl, d, named, number⟩

theorem isNote_definitionOf {name t : String} (line : '\n' ∉ t.toList)
    (filled : Text.isBlank t.toList = false) : (definitionOf name [ofText t]).IsNote where
  definition := rfl
  paragraphs := by
    intro p hp
    obtain rfl := List.mem_singleton.mp hp
    exact ⟨rfl, fun c hc => List.mem_singleton.mp hc ▸ isRun_ofText line⟩
  filled := ⟨paragraphOf [ofText t], List.mem_singleton_self _,
    (congrArg Text.isBlank (List.append_nil t.toList)).trans filled⟩

theorem proper_of_mem_notedLines {ns : List Node} (h : ∀ n ∈ ns, n.IsNotedBlock) {e : NotedLine}
    (he : e ∈ notedLines ns) : e.Proper := by
  obtain ⟨hm, shown⟩ := List.mem_filter.mp he
  obtain ⟨n, hn, rfl⟩ := List.mem_map.mp hm
  exact (h n hn).proper (by simpa using shown)

end Docmark.Node
