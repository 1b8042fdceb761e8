import Docmark.Proofs.Convert.Readback
import Docmark.Proofs.Markdown.HeadingLine

/-!
Paragraphs and headings of plain text and line breaks, read back from their Markdown. A heading is
always read as it was; a paragraph is just where its breaks are the last of the white space that it
ends in.
-/

namespace Docmark

open Conversion

namespace Node

/-- A run of text without marks, or a line break. -/
inductive IsInline (n : Node) : Prop
  | run (kind : n.kind = .text) (marks : n.marks = []) (line : '\n' ∉ n.content)
  | hardBreak (kind : n.kind = .hardBreak)

/-- What a run or a break says, with a text for the break. -/
def inlineText (lineBreak : Text) (n : Node) : Text :=
  if n.kind == .hardBreak then lineBreak else n.content

/-- The text of the runs in a block, with a text for each break. -/
def brokenText (lineBreak : Text) (n : Node) : Text :=
  n.children.flatMap (inlineText lineBreak)

def inlineMarkdown (n : Node) : Text :=
  if n.kind == .hardBreak then Markdown.hardBreak else Markdown.escape n.content

section kind

variable {n : Node}

theorem inlineText_of_text (kind : n.kind = .text) (lineBreak : Text) :
    n.inlineText lineBreak = n.content := by
  rw [inlineText, kind]
  rfl

theorem inlineText_of_hardBreak (kind : n.kind = .hardBreak) (lineBreak : Text) :
    n.inlineText lineBreak = lineBreak := by
  rw [inlineText, kind]
  rfl

theorem inlineMarkdown_of_text (kind : n.kind = .text) :
    n.inlineMarkdown = Markdown.escape n.content := by
  rw [inlineMarkdown, kind]
  rfl

theorem inlineMarkdown_of_hardBreak (kind : n.kind = .hardBreak) :
    n.inlineMarkdown = Markdown.hardBreak := by
  rw [inlineMarkdown, kind]
  rfl

end kind

theorem IsInline.spells {n : Node} (h : n.IsInline) :
    Markdown.SpellsLines n.inlineMarkdown (n.inlineText ['\n']) := by
  cases h with
  | run kind marks line =>
    rw [inlineMarkdown_of_text kind, inlineText_of_text kind]
    exact (Markdown.spells_escape n.content).spellsLines line
  | hardBreak kind =>
    rw [inlineMarkdown_of_hardBreak kind, inlineText_of_hardBreak kind]
    exact Markdown.spellsLines_hardBreak

/-- Line feeds stand for breaks only, so that they can be exchanged. -/
theorem IsInline.replaceChar {n : Node} (h : n.IsInline) (new : Text) :
    Text.replaceChar '\n' new (n.inlineText ['\n']) = n.inlineText new := by
  cases h with
  | run kind marks line =>
    rw [inlineText_of_text kind, inlineText_of_text kind, Text.replaceChar_of_not_mem new line]
  | hardBreak kind =>
    rw [inlineText_of_hardBreak kind, inlineText_of_hardBreak kind, Text.replaceChar,
      List.flatMap_singleton, if_pos rfl]

def lineBreak : Node :=
  ⟨"hardBreak", [], [], none, []⟩

theorem isInline_lineBreak : lineBreak.IsInline :=
  .hardBreak rfl

theorem isInline_ofText {t : String} (line : '\n' ∉ t.toList) : (ofText t).IsInline :=
  .run rfl rfl line

theorem spells_inlines {n : Node} (h : ∀ c ∈ n.children, c.IsInline) :
    Markdown.SpellsLines (n.children.flatMap inlineMarkdown) (n.brokenText ['\n']) :=
  Markdown.spellsLines_flatMap fun c hc => (h c hc).spells

theorem replaceChar_brokenText {n : Node} (h : ∀ c ∈ n.children, c.IsInline) (new : Text) :
    Text.replaceChar '\n' new (n.brokenText ['\n']) = n.brokenText new := by
  rw [Text.replaceChar, brokenText, List.flatMap_assoc]
  exact List.flatMap_congr fun c hc => (h c hc).replaceChar new

end Node

section walk

variable {ctx : Context} {level : Int}

/-- What stands below a run or a break does not matter. -/
theorem inline_converter (escaping : ctx.options.escapeSpecial = true) {n : Node}
    (h : n.IsInline) : ∃ convert, (Registry.standard.settle.get n.kind).1 = some convert ∧
      ∀ children level s, convert ctx n children level s = .ok (⟨n.inlineMarkdown, .plain⟩, s) := by
  cases h with
  | run kind marks =>
    refine ⟨Convert.text, ?_, ?_⟩
    · rw [kind]
      rfl
    · intro children level s
      rw [text_run escaping marks, Node.inlineMarkdown_of_text kind]
  | hardBreak kind =>
    refine ⟨Convert.hardBreak, ?_, ?_⟩
    · rw [kind]
      rfl
    · intro children level s
      rw [Node.inlineMarkdown_of_hardBreak kind]
      rfl

theorem walk_inline_ok (escaping : ctx.options.escapeSpecial = true) {below : Nat}
    {s s' : Session} {n : Node} (h : n.IsInline) {f : Fragment}
    (walked : walkLevels Registry.standard.settle ctx below level n s = .ok (f, s')) :
    f.markdown = n.inlineMarkdown := by
  obtain ⟨convert, registered, converts⟩ := inline_converter escaping h
  obtain ⟨-, fs, s₁, -, -, made⟩ := walkLevels_made registered walked
  rw [converts] at made
  cases made
  rfl

theorem joined_inlines (escaping : ctx.options.escapeSpecial = true) {below : Nat}
    {s s' : Session} {ns : List Node} (h : ∀ c ∈ ns, c.IsInline) {fs : List Fragment}
    (walked : ns.mapM (walkLevels Registry.standard.settle ctx below level) s = .ok (fs, s')) :
    Fragment.joined fs = ns.flatMap Node.inlineMarkdown := by
  induction ns generalizing s fs with
  | nil =>
    obtain ⟨rfl, -⟩ := mapM_nil_ok.mp walked
    rfl
  | cons n ns ih =>
    obtain ⟨f, s₁, gs, first, rest, rfl⟩ := mapM_cons_ok.mp walked
    have inner := ih (fun c hc => h c (List.mem_cons_of_mem _ hc)) rest
    rw [Fragment.joined] at inner
    rw [Fragment.joined, List.flatMap_cons, List.flatMap_cons, inner,
      walk_inline_ok escaping (h n List.mem_cons_self) first]

/-- Runs and breaks are converted as long as a level is left. -/
theorem walk_inline (escaping : ctx.options.escapeSpecial = true) (below : Nat) (s : Session)
    {n : Node} (h : n.IsInline) (leaf : n.children = []) :
    walkLevels Registry.standard.settle ctx (below + 1) level n s =
      .ok (⟨n.inlineMarkdown, .plain⟩, s) := by
  obtain ⟨convert, registered, converts⟩ := inline_converter escaping h
  have children : n.children.mapM (walkLevels Registry.standard.settle ctx below
      (n.kind.childLevel level)) s = .ok ([], s) := by
    rw [leaf]
    exact mapM_nil_ok.mpr ⟨rfl, rfl⟩
  rw [walkLevels_run registered children, converts]

/--
A block of runs and breaks is made of their Markdown. Two levels are enough where nothing stands
below these.
-/
theorem walk_inlines (escaping : ctx.options.escapeSpecial = true) {n : Node} {convert : Converter}
    (registered : (Registry.standard.settle.get n.kind).1 = some convert) (g : Text → Text)
    (converts : ∀ children level s, convert ctx n children level s =
      .ok (⟨g (Fragment.joined children), .plain⟩, s))
    (inline : ∀ c ∈ n.children, c.IsInline) (level : Int) (s : Session) :
    ((∀ c ∈ n.children, c.children = []) → 2 ≤ ctx.ceiling.levels →
      ∃ f, walk Registry.standard ctx level n s = .ok (f, s)) ∧
    ∀ f s', walk Registry.standard ctx level n s = .ok (f, s') →
      f.markdown = g (n.children.flatMap Node.inlineMarkdown) := by
  constructor
  · intro leaves deep
    obtain ⟨below, levels⟩ := Nat.exists_eq_add_of_le' deep
    have children : n.children.mapM (walkLevels Registry.standard.settle ctx (below + 1)
        (n.kind.childLevel level)) s =
          .ok (n.children.map fun c => ⟨c.inlineMarkdown, .plain⟩, s) :=
      mapM_of_pure fun c hc => walk_inline escaping below s (inline c hc) (leaves c hc)
    have ran := walkLevels_run registered children
    rw [converts] at ran
    rw [walk, levels]
    exact ⟨_, ran⟩
  · intro f s' walked
    rw [walk] at walked
    obtain ⟨below, fs, s₁, -, children, made⟩ := walkLevels_made registered walked
    rw [converts] at made
    cases made
    rw [joined_inlines escaping inline children]

end walk

/--
A paragraph of runs and breaks is read as its text, trimmed, exactly where no break in it has other
white space behind it up to the end.
-/
theorem walk_paragraph_reads {ctx : Context} (escaping : ctx.options.escapeSpecial = true)
    {n : Node} (kind : n.kind = .paragraph) (inline : ∀ c ∈ n.children, c.IsInline) (level : Int)
    (s : Session) :
    ((∀ c ∈ n.children, c.children = []) → 2 ≤ ctx.ceiling.levels →
      ∃ f, walk Registry.standard ctx level n s = .ok (f, s)) ∧
    ∀ f s', walk Registry.standard ctx level n s = .ok (f, s') →
      (Markdown.readLines f.markdown = Text.trimBroken (n.brokenText ['\n']) ↔
        Text.BreaksLast (n.brokenText ['\n'])) := by
  have registered : (Registry.standard.settle.get n.kind).1 = some Convert.paragraph := by
    rw [kind]
    rfl
  have converts : ∀ children level s, Convert.paragraph ctx n children level s =
      .ok (⟨Convert.paragraphText true (Fragment.joined children), .plain⟩, s) := by
    intro children level s
    rw [← escaping]
    rfl
  obtain ⟨runs, written⟩ :=
    walk_inlines escaping registered (Convert.paragraphText true) converts inline level s
  refine ⟨runs, ?_⟩
  intro f s' walked
  rw [written f s' walked]
  exact (Node.spells_inlines inline).readLines_paragraphText

/-- Signs that open blocks, a backslash, and breaks with white space on both sides. -/
def brokenParagraph : Node :=
  .paragraphOf [.ofText " - a\\", .lineBreak, .lineBreak, .ofText " # b ", .lineBreak]

theorem brokenParagraph_reads :
    (∀ c ∈ brokenParagraph.children, c.IsInline) ∧
      ∃ f, walk Registry.standard {} 0 brokenParagraph {} = .ok (f, {}) ∧
        Markdown.readLines f.markdown = "- a\\\n\n # b".toList := by
  have inline : ∀ c ∈ brokenParagraph.children, c.IsInline := by
    intro c hc
    simp only [brokenParagraph, Node.paragraphOf, List.mem_cons, List.not_mem_nil, or_false] at hc
    rcases hc with rfl | rfl | rfl | rfl | rfl
    · exact Node.isInline_ofText (by decide)
    · exact Node.isInline_lineBreak
    · exact Node.isInline_lineBreak
    · exact Node.isInline_ofText (by decide)
    · exact Node.isInline_lineBreak
  have last : Text.BreaksLast (brokenParagraph.brokenText ['\n']) :=
    (Text.breaksLast_iff _).mpr (by decide)
  obtain ⟨runs, reads⟩ := @walk_paragraph_reads {} rfl brokenParagraph rfl inline 0 {}
  obtain ⟨f, walked⟩ := runs (by decide) (by decide)
  exact ⟨inline, f, walked, (reads f {} walked).mpr last⟩

/-- White space behind the last break. -/
def spacedParagraph : Node :=
  .paragraphOf [.ofText "a", .lineBreak, .ofText " "]

/-- The break is trimmed, and its backslash stays. -/
theorem spacedParagraph_keeps_backslash :
    (walk Registry.standard {} 0 spacedParagraph {}).toOption.map
        (fun r => Markdown.readLines r.1.markdown) = some "a\\".toList ∧
      Text.trimBroken (spacedParagraph.brokenText ['\n']) = "a".toList := by
  decide +kernel

/-- Levels are whole numbers from 1 to 6. -/
theorem headingLevel_bounds (n : Node) :
    1 ≤ Convert.headingLevel n ∧ Convert.headingLevel n ≤ 6 := by
  unfold Convert.headingLevel
  split
  · omega
  · decide

/-- Levels are moved into that range, and are 1 where none is given. -/
theorem headingLevel_eq (n : Node) :
    (∀ i, n.attr? "level" = some (.int i) → (Convert.headingLevel n : Int) = max 1 (min 6 i)) ∧
      ((∀ i, n.attr? "level" ≠ some (.int i)) → Convert.headingLevel n = 1) := by
  constructor
  · intro i given
    have moved : Convert.headingLevel n = (max 1 (min 6 i)).toNat := by
      rw [Convert.headingLevel, given]
    omega
  · intro none
    unfold Convert.headingLevel
    split
    · rename_i i given
      exact absurd given (none i)
    · rfl

/-- A heading of runs and breaks is read as its level and its text, with a space for each break. -/
theorem walk_heading_reads {ctx : Context} (escaping : ctx.options.escapeSpecial = true)
    {n : Node} (kind : n.kind = .heading) (inline : ∀ c ∈ n.children, c.IsInline) (level : Int)
    (s : Session) :
    ((∀ c ∈ n.children, c.children = []) → 2 ≤ ctx.ceiling.levels →
      ∃ f, walk Registry.standard ctx level n s = .ok (f, s)) ∧
    ∀ f s', walk Registry.standard ctx level n s = .ok (f, s') →
      ∃ k : Nat, Markdown.readHeading f.markdown = some (k, Text.strip (n.brokenText [' '])) ∧
        (∀ i, n.attr? "level" = some (.int i) → (k : Int) = max 1 (min 6 i)) ∧
        ((∀ i, n.attr? "level" ≠ some (.int i)) → k = 1) := by
  have registered : (Registry.standard.settle.get n.kind).1 = some Convert.heading := by
    rw [kind]
    rfl
  let line (t : Text) := Markdown.headingLine (Convert.headingLevel n) (Convert.headingText true t)
  have converts : ∀ children level s, Convert.heading ctx n children level s =
      .ok (⟨line (Fragment.joined children), .plain⟩, s) := by
    intro children level s
    rw [Convert.heading, escaping]
    rfl
  obtain ⟨runs, written⟩ := walk_inlines escaping registered line converts inline level s
  refine ⟨runs, ?_⟩
  intro f s' walked
  obtain ⟨low, high⟩ := headingLevel_bounds n
  have reads := (Node.spells_inlines inline).readHeading_headingText low high
  rw [Node.replaceChar_brokenText inline] at reads
  rw [written f s' walked]
  exact ⟨Convert.headingLevel n, reads, headingLevel_eq n⟩

/-- A level out of range, and signs at both ends of the last break. -/
def closedHeading : Node :=
  ⟨"heading", [("level", .int 9)], [.ofText "Issue #", .lineBreak, .ofText " ##"], none, []⟩

theorem closedHeading_reads :
    (∀ c ∈ closedHeading.children, c.IsInline) ∧
      ∃ f, walk Registry.standard {} 0 closedHeading {} = .ok (f, {}) ∧
        Markdown.readHeading f.markdown = some (6, "Issue #  ##".toList) := by
  have inline : ∀ c ∈ closedHeading.children, c.IsInline := by
    intro c hc
    simp only [closedHeading, List.mem_cons, List.not_mem_nil, or_false] at hc
    rcases hc with rfl | rfl | rfl
    · exact Node.isInline_ofText (by decide)
    · exact Node.isInline_lineBreak
    · exact Node.isInline_ofText (by decide)
  obtain ⟨runs, reads⟩ := @walk_heading_reads {} rfl closedHeading rfl inline 0 {}
  obtain ⟨f, walked⟩ := runs (by decide) (by decide)
  obtain ⟨k, read, moved, -⟩ := reads f {} walked
  have six : (k : Int) = max 1 (min 6 9) := moved 9 rfl
  obtain rfl : k = 6 := by omega
  exact ⟨inline, f, walked, read⟩

end Docmark
