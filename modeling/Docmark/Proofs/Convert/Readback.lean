import Docmark.Proofs.Convert.Document
import Docmark.Proofs.Convert.NotedPage
import Docmark.Proofs.Document.Noted
import Docmark.Proofs.Markdown.BlocksInRow

/-!
Documents whose annotations can be read back from their Markdown: where every block is one paragraph
with notes on it, the processor finds the numbers, the references and the definitions that the
conversion kept, and takes out the lines that the definitions are shown in.
-/

namespace Docmark

open Annotation Conversion

/-- What a run or a marker is converted to. -/
def runFragment (n : Node) : Fragment :=
  ⟨n.runText, if n.isReference then .annotationReference n.markerName else .plain⟩

section walk

variable {ctx : Context} {level : Int}

/-- A run without marks is escaped, whatever stands below it. -/
theorem text_run (escaping : ctx.options.escapeSpecial = true) {n : Node} (marks : n.marks = [])
    (children : List Fragment) (s : Session) :
    Convert.text ctx n children level s = .ok (⟨Markdown.escape n.content, .plain⟩, s) := by
  have unlinked : n.findMark .link = none := by rw [Node.findMark, marks]; rfl
  have unmarked (k : MarkKind) : n.hasMark k = false := by rw [Node.hasMark, marks]; rfl
  rw [Node.content, Convert.text]
  cases ht : n.text with
  | none => rfl
  | some t =>
    by_cases empty : t.isEmpty = true
    · have : t = "" := by simpa using empty
      subst this
      rfl
    · simp only [empty, unlinked, Convert.runMarkdown, Convert.emphasize, unmarked, escaping,
        Bool.false_eq_true, ↓reduceIte, Bool.false_and]
      rfl

theorem walk_run (escaping : ctx.options.escapeSpecial = true) (below : Nat) (s : Session)
    {n : Node} (h : n.IsRun) :
    walkLevels Registry.standard.settle ctx (below + 1) level n s = .ok (runFragment n, s) := by
  have registered : (Registry.standard.settle.get n.kind).1 = some Convert.text := by
    rw [h.kind]
    rfl
  have children : n.children.mapM (walkLevels Registry.standard.settle ctx below
      (n.kind.childLevel level)) s = .ok ([], s) := by
    rw [h.leaf]
    exact mapM_nil_ok.mpr ⟨rfl, rfl⟩
  rw [walkLevels_run registered children, text_run escaping h.marks, runFragment,
    Node.runText_of_isRun h, Node.not_isReference_of_isRun h]
  rfl

theorem walk_marker (below : Nat) (s : Session) {n : Node} (h : n.IsMarker) :
    walkLevels Registry.standard.settle ctx (below + 1) level n s = .ok (runFragment n, s) := by
  have registered : (Registry.standard.settle.get n.kind).1 = some Convert.annotation := by
    rw [Node.kind_of_isReference h.reference]
    rfl
  have children : n.children.mapM (walkLevels Registry.standard.settle ctx below
      (n.kind.childLevel level)) s = .ok ([], s) := by
    rw [h.leaf]
    exact mapM_nil_ok.mpr ⟨rfl, rfl⟩
  rw [walkLevels_run registered children, Convert.annotation_of_reference _ _ _ h.reference,
    runFragment, Node.runText_of_isMarker h, h.reference]
  rfl

theorem walk_paragraph (escaping : ctx.options.escapeSpecial = true) (below : Nat) (s : Session)
    {n : Node} (h : n.IsMarkedParagraph) :
    walkLevels Registry.standard.settle ctx (below + 2) level n s =
      .ok (⟨n.paragraphLine, .plain⟩, s) := by
  have registered : (Registry.standard.settle.get n.kind).1 = some Convert.paragraph := by
    rw [h.kind]
    rfl
  have children : n.children.mapM (walkLevels Registry.standard.settle ctx (below + 1)
      (n.kind.childLevel level)) s = .ok (n.children.map runFragment, s) := by
    refine mapM_of_pure fun c hc => ?_
    rcases h.runs c hc with hr | hm
    · exact walk_run escaping below s hr
    · exact walk_marker below s hm
  rw [walkLevels_run registered children, Convert.paragraph, escaping, Fragment.joined,
    List.flatMap_map]
  rfl

/-- What a note is converted to. -/
def noteFragment (n : Node) : Fragment :=
  ⟨[], .annotationDefinition n.noteText (n.attr "localId")⟩

theorem walk_note (escaping : ctx.options.escapeSpecial = true) (below : Nat) (s : Session)
    {n : Node} (h : n.IsNote) :
    walkLevels Registry.standard.settle ctx (below + 3) level n s = .ok (noteFragment n, s) := by
  have registered : (Registry.standard.settle.get n.kind).1 = some Convert.annotation := by
    rw [Node.kind_of_isDefinition h.definition]
    rfl
  have children : n.children.mapM (walkLevels Registry.standard.settle ctx (below + 2)
      (n.kind.childLevel level)) s =
        .ok (n.children.map fun p => ⟨p.paragraphLine, .plain⟩, s) :=
    mapM_of_pure fun p hp => walk_paragraph escaping below s (h.paragraphs p hp).marked
  rw [walkLevels_run registered children, Convert.annotation_of_definition _ _ _ h.definition,
    Convert.annotationDefinition, Fragment.joinedWords, List.map_map]
  rfl

end walk

section block

variable {p : Node} {ds : List Node}

/-- What the children of a block are converted to. -/
def notedFragments (p : Node) (ds : List Node) : List Fragment :=
  ⟨p.paragraphLine, .plain⟩ :: ds.map noteFragment

theorem definitionsFrom_notes (named : ∀ d ∈ ds, ∃ name, d.localName = some name) (place : Nat) :
    Convert.definitionsFrom place (ds.map noteFragment) =
      ds.map fun d => (d.localName.getD [], d.noteText) := by
  induction ds generalizing place with
  | nil => rfl
  | cons d ds ih =>
    obtain ⟨name, hname⟩ := named d (by simp)
    have rest := ih (fun e he => named e (by simp [he])) (place + 1)
    rw [List.map_cons, List.map_cons, Convert.definitionsFrom, noteFragment]
    dsimp only
    rw [rest, ← Node.localName, hname]
    rfl

theorem childBlocks_noted (h : p.IsMarkedParagraph) (ds : List Node) :
    Convert.childBlocks (notedFragments p ds) =
      if Text.isBlank p.paragraphLine then [] else [(false, p.paragraphLine)] := by
  have trimmed := Text.trimNewlines_of_not_mem h.plainLine.line
  have empty : ∀ b ∈ (ds.map noteFragment).map Fragment.block,
      Text.isBlank b.markdown = true := by
    intro b hb
    obtain ⟨f, hf, rfl⟩ := List.mem_map.mp hb
    obtain ⟨d, -, rfl⟩ := List.mem_map.mp hf
    rfl
  have block : Fragment.block ⟨p.paragraphLine, .plain⟩ = ⟨p.paragraphLine, none⟩ := rfl
  rw [Convert.childBlocks, notedFragments, List.map_cons, Markdown.separateLists, block]
  split
  · rename_i blank
    rw [Markdown.separateFrom_cons_of_blank (b := ⟨p.paragraphLine, none⟩) blank,
      Markdown.separateFrom_of_blank empty]
    rfl
  · rename_i shown
    rw [Bool.not_eq_true] at shown
    rw [Markdown.separateFrom_cons_of_shown (b := ⟨p.paragraphLine, none⟩) shown,
      Markdown.separateFrom_of_blank empty, Markdown.Block.written_of_plain rfl, trimmed]
    rfl

theorem definitionsFrom_noted (named : ∀ d ∈ ds, ∃ name, d.localName = some name) :
    Convert.definitionsFrom 1 (notedFragments p ds) =
      ds.map fun d => (d.localName.getD [], d.noteText) :=
  definitionsFrom_notes named 1

/-- What a block with notes on its line is converted to, and the state after it. -/
theorem annotationBlock_noted {e : NotedLine} (proper : e.Proper)
    (line : e.line = p.paragraphLine)
    (notes : e.notes = ds.map fun d => (d.localName.getD [], d.noteText))
    (h : p.IsMarkedParagraph) (named : ∀ d ∈ ds, ∃ name, d.localName = some name)
    {s : Session} (sound : s.annotations.Sound) (ctx : Context) (n : Node) (level : Int) :
    Convert.annotationBlock ctx n (notedFragments p ds) level s = .ok
      (⟨(e.numbered s.annotations.counter.toNat).markdown ctx.options.emitAnnotationDefinitions,
        .annotatedBlock⟩, { s with annotations := e.after s.annotations }) := by
  have shown : Text.isBlank p.paragraphLine = false := line ▸ proper.shown
  have blocks := childBlocks_noted h ds
  simp only [shown, Bool.false_eq_true, ↓reduceIte] at blocks
  have own : Convert.ownMarkers (Convert.childBlocks (notedFragments p ds)) = markersOf e.line := by
    rw [blocks, Convert.ownMarkers_cons_false, line]
    exact List.append_nil _
  have names : Convert.blockNames (notedFragments p ds) = e.names := by
    rw [Convert.blockNames, own, NotedLine.names]
  have defs : Convert.definitionsFrom 1 (notedFragments p ds) = e.notes := by
    rw [definitionsFrom_noted named, notes]
  have all : Convert.allNames (notedFragments p ds) = e.names := by
    rw [Convert.allNames, names, defs, NotedLine.distinctFrom_notes proper.marked]
  have after : Convert.afterBlock s.annotations (notedFragments p ds) = e.after s.annotations := by
    rw [NotedLine.after_eq sound proper.marked, Convert.afterBlock, all, names, own, defs]
  have parts : (Convert.childBlocks (notedFragments p ds)).map
      (Convert.writtenBlock s.annotations.counter.toNat e.names) =
        [(e.numbered s.annotations.counter.toNat).line] := by
    rw [blocks, ← line]
    rfl
  have lines : Convert.definitionLines s.annotations.counter.toNat (notedFragments p ds) =
      (e.numbered s.annotations.counter.toNat).notes.map NotedLine.noteLine := by
    rw [Convert.definitionLines, defs, all, NotedLine.numbered, List.map_map]
    rfl
  have ne : (Text.joinBlocks [(e.numbered s.annotations.counter.toNat).line]).isEmpty = false :=
    List.isEmpty_eq_false_iff.mpr
      (Text.ne_nil_of_not_isBlank (proper.numbered s.annotations.counter.toNat).shown)
  rw [Convert.annotationBlock_run sound, after, names, parts, lines, Convert.blockFragment, ne]
  rfl

/-- A block whose line is blank has no notes, and leaves nothing. -/
theorem annotationBlock_blank (blank : Text.isBlank p.paragraphLine = true)
    (h : p.IsMarkedParagraph) {s : Session} (sound : s.annotations.Sound) (ctx : Context)
    (n : Node) (level : Int) :
    Convert.annotationBlock ctx n (notedFragments p []) level s = .ok (.empty, s) := by
  have blocks := childBlocks_noted h []
  simp only [blank, ↓reduceIte] at blocks
  have same : Convert.afterBlock s.annotations (notedFragments p []) = s.annotations := by
    have counter : ((s.annotations.counter.toNat + 0 : Nat) : Int) = s.annotations.counter :=
      Int.toNat_of_nonneg sound.natural
    rw [Convert.afterBlock, Convert.allNames, Convert.blockNames, blocks]
    show State.mk ((s.annotations.counter.toNat + 0 : Nat) : Int) s.annotations.definitions []
      s.annotations.referenced = s.annotations
    rw [counter, ← sound.closed]
  rw [Convert.annotationBlock_run sound, same, blocks]
  rfl

/-- Blocks of such documents are converted to their lines with numbers. -/
theorem walk_block {ctx : Context} (escaping : ctx.options.escapeSpecial = true) (below : Nat)
    (level : Int) {s : Session} (sound : s.annotations.Sound) {n : Node} (h : n.IsNotedBlock) :
    walkLevels Registry.standard.settle ctx (below + 4) level n s = .ok
      (if Text.isBlank n.noted.line then (.empty, s)
      else (⟨(n.noted.numbered s.annotations.counter.toNat).markdown
          ctx.options.emitAnnotationDefinitions, .annotatedBlock⟩,
        { s with annotations := n.noted.after s.annotations })) := by
  have registered : (Registry.standard.settle.get n.kind).1 = some Convert.annotation := by
    rw [Node.kind_of_isAnnotatedBlock h.block]
    rfl
  obtain ⟨p, ds, hc, hp, hds⟩ := h.holds
  have children : n.children.mapM (walkLevels Registry.standard.settle ctx (below + 3)
      (n.kind.childLevel level)) s = .ok (notedFragments p ds, s) := by
    rw [hc]
    refine mapM_cons_ok.mpr ⟨_, s, ds.map noteFragment, walk_paragraph escaping (below + 1) s hp,
      mapM_of_pure fun d hd => ?_, rfl⟩
    exact walk_note escaping below s (hds d hd).1
  have named : ∀ d ∈ ds, ∃ name, d.localName = some name := by
    intro d hd
    obtain ⟨-, r, hr, reference, same⟩ := hds d hd
    obtain ⟨name, hname, -⟩ := (hp.isMarker hr reference).named
    exact ⟨name, same.trans hname⟩
  have noted : n.noted = ⟨p.paragraphLine, ds.map fun d => (d.localName.getD [], d.noteText)⟩ := by
    rw [Node.noted, hc]
  rw [walkLevels_run registered children, Convert.annotation_of_block _ _ _ h.block]
  cases blank : Text.isBlank n.noted.line with
  | false =>
    rw [annotationBlock_noted (h.proper blank) (by rw [noted]) (by rw [noted]) hp named sound]
    rfl
  | true =>
    cases ds with
    | nil =>
      rw [annotationBlock_blank (by rwa [noted] at blank) hp sound]
      rfl
    | cons d ds =>
      have mem := h.marked _ (by rw [noted]; exact List.mem_cons_self)
      rw [markersOf_of_isBlank blank] at mem
      cases mem

end block

/-- A block with its numbers stays as it is among the others. -/
theorem NotedLine.separateFrom_cons {e : NotedLine} (numbered : e.Numbered) (emitting : Bool)
    (i : Nat) (blocks : List Markdown.Block) :
    (Markdown.separateFrom i (none, false)
        (Fragment.block ⟨e.markdown emitting, .annotatedBlock⟩ :: blocks)).map Prod.snd =
      e.markdown emitting :: (Markdown.separateFrom (i + 1) (none, false) blocks).map Prod.snd := by
  have plain : (Fragment.block ⟨e.markdown emitting, .annotatedBlock⟩).list = none := rfl
  have trimmed := NotedLine.trimNewlines_page [e] (by simpa using numbered) emitting
  rw [Markdown.separateFrom_cons_of_shown (NotedLine.not_isBlank_markdown _ _),
    Markdown.Block.written_of_plain plain, Markdown.Block.switches_of_plain plain, List.map_cons,
    plain]
  exact congrArg (· :: _) trimmed

section document

variable {ctx : Context} (escaping : ctx.options.escapeSpecial = true)

include escaping

/-- The blocks of a document, one after the other. -/
theorem walk_blocks (below : Nat) (level : Int) {ns : List Node} (h : ∀ n ∈ ns, n.IsNotedBlock)
    {s : Session} (sound : s.annotations.Sound) (i : Nat) :
    ∃ fs, ns.mapM (walkLevels Registry.standard.settle ctx (below + 4) level) s = .ok (fs,
        { s with annotations := (Node.notedLines ns).foldl NotedLine.after s.annotations }) ∧
      (Markdown.separateFrom i (none, false) (fs.map Fragment.block)).map Prod.snd =
        (NotedLine.number s.annotations.counter.toNat (Node.notedLines ns)).map
          (NotedLine.markdown ctx.options.emitAnnotationDefinitions) := by
  induction ns generalizing s i with
  | nil => exact ⟨[], mapM_nil_ok.mpr ⟨rfl, rfl⟩, rfl⟩
  | cons n ns ih =>
    have hn := h n (by simp)
    have hns : ∀ m ∈ ns, m.IsNotedBlock := fun m hm => h m (by simp [hm])
    have first := walk_block escaping below level sound hn
    cases blank : Text.isBlank n.noted.line with
    | true =>
      obtain ⟨fs, run, blocks⟩ := ih hns sound (i + 1)
      rw [blank] at first
      have lines : Node.notedLines (n :: ns) = Node.notedLines ns := by
        simp [Node.notedLines, blank]
      refine ⟨.empty :: fs, mapM_cons_ok.mpr ⟨_, s, fs, first, lines ▸ run, rfl⟩, ?_⟩
      rw [List.map_cons, Markdown.separateFrom_cons_of_blank (b := Fragment.block .empty) rfl,
        blocks, lines]
    | false =>
      have proper := hn.proper blank
      obtain ⟨fs, run, blocks⟩ := ih hns
        (s := { s with annotations := n.noted.after s.annotations })
        (NotedLine.sound_after sound proper.marked) (i + 1)
      rw [blank] at first
      have lines : Node.notedLines (n :: ns) = n.noted :: Node.notedLines ns := by
        simp [Node.notedLines, blank]
      have count : (n.noted.after s.annotations).counter.toNat =
          s.annotations.counter.toNat + n.noted.names.length := by
        rw [NotedLine.after_eq sound proper.marked]
        exact Int.toNat_natCast _
      refine ⟨_ :: fs, mapM_cons_ok.mpr ⟨_, _, fs, first, ?_, rfl⟩, ?_⟩
      · rw [lines]
        exact run
      · rw [List.map_cons]
        refine (NotedLine.separateFrom_cons (proper.numbered _) _ i _).trans ?_
        rw [blocks, lines, NotedLine.number, List.map_cons, count]

/-- The walk through a document of such blocks gives a page of their lines. -/
theorem walk_noted (below : Nat) (deep : ctx.ceiling.levels = below + 5) {n : Node}
    (h : n.IsNotedDocument) :
    walk Registry.standard ctx 0 n {} = .ok
      (⟨NotedLine.page ctx.options.emitAnnotationDefinitions
        (NotedLine.number 0 (Node.notedLines n.children)), .plain⟩,
      { annotations := (Node.notedLines n.children).foldl NotedLine.after {} }) := by
  have registered : (Registry.standard.settle.get n.kind).1 = some Convert.blocks := by
    rw [h.kind]
    rfl
  obtain ⟨fs, run, blocks⟩ := walk_blocks escaping below (n.kind.childLevel 0) h.blocks
    (s := {}) State.sound_initial 0
  rw [walk, deep, walkLevels_run registered run, Convert.blocks, Fragment.joinedBlocks,
    Markdown.joinBlocks, Markdown.separateLists, blocks]
  rfl

end document

/-- Nothing is left to be done for a page. -/
theorem finishDocument_page {es : List NotedLine} (h : ∀ e ∈ es, e.Numbered)
    (options : ConversionOptions) (a : State) :
    (finishDocument options (NotedLine.page options.emitAnnotationDefinitions es)
      { annotations := a }).markdown = NotedLine.page options.emitAnnotationDefinitions es := by
  have body : withFootnotes options
      (Text.trimNewlines (NotedLine.page options.emitAnnotationDefinitions es)) {} =
        NotedLine.page options.emitAnnotationDefinitions es := by
    have none : ({} : Footnote.State).renderDefinitions = [] := rfl
    rw [NotedLine.trimNewlines_page es h, withFootnotes, none]
    simp
  rw [finishDocument]
  simp only [body, NotedLine.collapseBlankLines_page h, ite_self]

/-- The options that show the definitions of annotations. -/
def showingDefinitions : ConversionOptions := { emitAnnotationDefinitions := true }

/--
What reading back the Markdown of `shown`, a conversion that shows the definitions and ends in `a`,
has to come to; `plain` is the conversion that does not show them.
-/
structure ReadBack (a : State) (shown plain : Converted) : Prop where
  state : (({} : Processor).process shown.markdown).2.state = a
  tooltips : (({} : Processor).process shown.markdown).2.state.tooltips = shown.annotations
  /-- No line is changed. -/
  removed : (Text.lines (({} : Processor).process shown.markdown).1).Sublist
    (Text.lines shown.markdown)
  /-- The definitions are gone, and they alone. -/
  left : NotedLine.shownLines (Text.lines (({} : Processor).process shown.markdown).1) =
    NotedLine.shownLines (Text.lines plain.markdown)
  /-- Every marker keeps its number. -/
  markers : markersOf (({} : Processor).process shown.markdown).1 = markersOf plain.markdown

/-- Two blocks that use one name, the first with its notes in another order. -/
def notedDocument : Node :=
  .documentOf [
    .blockOf [
      .paragraphOf [.referenceTo "7", .ofText "\x7b .annotate \x7d (3) ", .referenceTo "3"],
      .definitionOf "3" [.ofText "1. three"], .definitionOf "7" [.ofText "seven"]],
    .blockOf [.paragraphOf [.referenceTo "7"]]]

end Docmark
