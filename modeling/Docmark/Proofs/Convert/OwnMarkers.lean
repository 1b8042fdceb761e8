import Docmark.Convert.Document
import Docmark.Proofs.Convert.Walk

/-!
What an annotated block changes in the Markdown of its children. A marker is known by its form
alone: whatever stands in brackets and consists of digits gets a number, be it the marker of a
reference or a year in a sentence. Main statement: the Markdown stays as it is just where every name
happens to be its own number.
-/

namespace Docmark

open Annotation

theorem Annotation.lines_relabel_length (base : Nat) (names : List Text) (t : Text) :
    (Text.lines (relabel (numeralIn base names) t)).length = (Text.lines t).length := by
  rw [lines_relabel fun d _ => isNumeral_numeralIn base names d, List.length_map]

namespace Convert

variable {base : Nat} {names : List Text}

theorem mem_ownMarkers {blocks : List (Bool × Text)} {d : Text} :
    d ∈ ownMarkers blocks ↔ ∃ b ∈ blocks, b.1 = false ∧ d ∈ markersOf b.2 := by
  simp only [ownMarkers, ownTexts, List.mem_flatMap, List.mem_map, List.mem_filter,
    Bool.not_eq_true']
  constructor
  · rintro ⟨t, ⟨b, ⟨hb, hf⟩, rfl⟩, hd⟩
    exact ⟨b, hb, hf, hd⟩
  · rintro ⟨b, hb, hf, hd⟩
    exact ⟨b.2, ⟨b, ⟨hb, hf⟩, rfl⟩, hd⟩

theorem lines_writtenBlock_length (b : Bool × Text) :
    (Text.lines (writtenBlock base names b)).length = (Text.lines b.2).length := by
  unfold writtenBlock
  split
  · rfl
  · exact lines_relabel_length base names b.2

theorem writtenBlock_eq_self_iff {b : Bool × Text} :
    writtenBlock base names b = b.2 ↔
      (b.1 = false → ∀ d ∈ markersOf b.2, numeralIn base names d = d) := by
  unfold writtenBlock
  split
  · simp [*]
  · rename_i hb
    rw [relabel_eq_self_iff fun d _ => isNumeral_numeralIn base names d]
    simp [hb]

/-- The body of a block stays as it is just where its names are their own numbers. -/
theorem joinBlocks_writtenBlock_iff (blocks : List (Bool × Text)) :
    Text.joinBlocks (blocks.map (writtenBlock base names)) =
        Text.joinBlocks (blocks.map Prod.snd) ↔
      ∀ d ∈ ownMarkers blocks, numeralIn base names d = d := by
  rw [Text.joinBlocks_map_inj fun b _ => lines_writtenBlock_length b]
  simp only [writtenBlock_eq_self_iff, mem_ownMarkers]
  constructor
  · rintro h d ⟨b, hb, hf, hd⟩
    exact h b hb hf d hd
  · intro h b hb hf d hd
    exact h d ⟨b, hb, hf, hd⟩

theorem blockMarkdown_inj {emitting : Bool} {body body' : Text} {lines : List Text}
    (h : blockMarkdown emitting body lines = blockMarkdown emitting body' lines) :
    body = body' := by
  unfold blockMarkdown at h
  dsimp only at h
  have one : ∃ x, (if emitting && !lines.isEmpty then [Text.unlines lines] else []) = [x] ∨
      (if emitting && !lines.isEmpty then [Text.unlines lines] else []) = [] := by
    refine ⟨Text.unlines lines, ?_⟩
    split <;> simp
  obtain ⟨x, hx | hx⟩ := one
  all_goals
    rw [hx] at h
    by_cases hb : body = [] <;> by_cases hb' : body' = []
  all_goals have hl := congrArg List.length h
  all_goals
    simp only [List.isEmpty_iff, hb, hb', ↓reduceIte, Text.joinBlocks, Text.joinWith,
      List.append_nil, List.cons_append, List.nil_append, List.length_append, List.length_cons,
      List.append_assoc, List.append_cancel_left_eq, List.cons.injEq, true_and,
      List.append_left_inj] at h hl ⊢
  all_goals first
    | exact h
    | omega

/-- What a block is written as shows its body. -/
theorem blockFragment_inj {emitting : Bool} {parts parts' lines : List Text} :
    blockFragment emitting parts lines = blockFragment emitting parts' lines ↔
      Text.joinBlocks parts = Text.joinBlocks parts' := by
  refine ⟨fun h => ?_, fun h => by rw [blockFragment, h, blockFragment]⟩
  unfold blockFragment at h
  split at h <;> split at h
  · simp_all
  · simp [Fragment.empty] at h
  · simp [Fragment.empty] at h
  · exact blockMarkdown_inj (Fragment.mk.inj h).1

theorem joinedBlocks_eq (children : List Fragment) :
    Fragment.joinedBlocks children = Text.joinBlocks ((childBlocks children).map Prod.snd) := by
  rw [Fragment.joinedBlocks, Markdown.joinBlocks, childBlocks, List.map_map]
  rfl

/-- The block with its children as they are, one after the other below the sentinel. -/
def plainBlock (emitting : Bool) (children : List Fragment) (lines : List Text) : Fragment :=
  blockFragment emitting [Fragment.joinedBlocks children] lines

theorem blockFragment_eq_plainBlock_iff {emitting : Bool} {children : List Fragment}
    {lines : List Text} :
    blockFragment emitting ((childBlocks children).map (writtenBlock base names)) lines =
        plainBlock emitting children lines ↔
      ∀ d ∈ ownMarkers (childBlocks children), numeralIn base names d = d := by
  rw [plainBlock, blockFragment_inj, ← joinBlocks_writtenBlock_iff, joinedBlocks_eq]
  rfl

/--
What becomes of an annotated block after its children. Each text in brackets and digits of its own
Markdown gets the number of its digits, whichever node wrote it.
-/
structure Renumbered (ctx : Context) (children : List Fragment) (before after : Session)
    (f : Fragment) : Prop where
  written : f = blockFragment ctx.options.emitAnnotationDefinitions
    ((childBlocks children).map
      (writtenBlock before.annotations.counter.toNat (blockNames children)))
    (definitionLines before.annotations.counter.toNat children)
  /-- A marker shows the number that the block gives to its digits. -/
  marker : ∀ t ∈ ownTexts (childBlocks children), ∀ a d b, IsNumeral d →
    t = a ++ ('(' :: d ++ ')' :: b) →
      relabel (numeralIn before.annotations.counter.toNat (blockNames children)) t =
        relabel (numeralIn before.annotations.counter.toNat (blockNames children)) a ++
          ('(' :: numeralIn before.annotations.counter.toNat (blockNames children) d ++ ')' ::
            relabel (numeralIn before.annotations.counter.toNat (blockNames children)) b)
  referenced : after.annotations.referenced = before.annotations.referenced ++
    (List.range' (before.annotations.counter.toNat + 1) (blockNames children).length).map Int.ofNat
  plain_iff : f = plainBlock ctx.options.emitAnnotationDefinitions children
      (definitionLines before.annotations.counter.toNat children) ↔
    ∀ d ∈ ownMarkers (childBlocks children),
      numeralIn before.annotations.counter.toNat (blockNames children) d = d
  untouched_iff : f = plainBlock ctx.options.emitAnnotationDefinitions children
        (definitionLines before.annotations.counter.toNat children) ∧
      after.annotations.referenced = before.annotations.referenced ↔
    ownMarkers (childBlocks children) = []

theorem renumbered_of_run {s : Session} (hs : s.annotations.Sound) {ctx : Context} {n : Node}
    {children : List Fragment} {level : Int} {f : Fragment} {s' : Session}
    (h : annotationBlock ctx n children level s = .ok (f, s')) :
    Renumbered ctx children s s' f := by
  rw [annotationBlock_run hs] at h
  cases h
  have old : ∀ m ∈ s.annotations.referenced, m ≤ (s.annotations.counter.toNat : Int) := by
    intro m hm
    rw [Int.toNat_of_nonneg hs.natural]
    exact hs.referenced m hm
  have hr : (afterBlock s.annotations children).referenced =
      s.annotations.referenced ++ (List.range' (s.annotations.counter.toNat + 1)
        (blockNames children).length).map Int.ofNat := distinctFrom_numbers old _
  refine ⟨rfl, ?_, hr, blockFragment_eq_plainBlock_iff, ?_⟩
  · rintro t - a d b hd rfl
    exact relabel_append_marker _ a hd b
  · rw [hr, blockFragment_eq_plainBlock_iff]
    constructor
    · rintro ⟨-, hn⟩
      have : (blockNames children).length = 0 := by simpa using hn
      exact Text.distinct_eq_nil_iff.mp (List.length_eq_zero_iff.mp this)
    · intro hn
      have : blockNames children = [] := Text.distinct_eq_nil_iff.mpr hn
      simp [hn, this]

end Convert

/--
An annotated block takes whatever has the form of a marker in its own Markdown for one. Its body is
that of its children where all these names are their own numbers, and only a block without any such
text also adds nothing to the numbers referred to.
-/
theorem annotatedBlock_renumbered {ctx : Context} {s s' : Session} (reached : Reached ctx s)
    {n : Node} (block : n.isAnnotatedBlock = true) {below : Nat} {level : Int} {f : Fragment}
    (h : walkLevels Registry.standard.settle ctx (below + 1) level n s = .ok (f, s')) :
    ∃ children s₁,
      n.children.mapM (walkLevels Registry.standard.settle ctx below (n.kind.childLevel level)) s =
        .ok (children, s₁) ∧
      Convert.Renumbered ctx children s₁ s' f := by
  rcases walkLevels_ok h with ⟨hc, -, -⟩ | ⟨convert, children, s₁, hc, hchildren, hf⟩
  · rw [Node.kind_of_isAnnotatedBlock block, standard_annotation] at hc
    cases hc
  · rw [Node.kind_of_isAnnotatedBlock block, standard_annotation] at hc
    cases hc
    rw [Convert.annotation_of_block ctx children level block] at hf
    exact ⟨children, s₁, hchildren, Convert.renumbered_of_run (reached.mapM hchildren).sound hf⟩

/-- An annotated block with a year in brackets and no annotation. -/
def yearBlock : Node :=
  .blockOf [.paragraphOf [.ofText "A (2024)"]]

theorem yearBlock_renumbered :
    ∃ f s', Reached {} {} ∧ yearBlock.isAnnotatedBlock = true ∧
      walkLevels Registry.standard.settle {} 3 0 yearBlock {} = .ok (f, s') ∧
      ∃ children s₁,
        yearBlock.children.mapM (walkLevels Registry.standard.settle {} 2 0) {} =
          .ok (children, s₁) ∧
        Convert.Renumbered {} children s₁ s' f := by
  obtain ⟨⟨f, s'⟩, h⟩ := exists_ok
    (x := walkLevels Registry.standard.settle {} 3 0 yearBlock {}) (by decide +kernel)
  have block : yearBlock.isAnnotatedBlock = true := by decide
  exact ⟨f, s', .start, block, h, annotatedBlock_renumbered .start block h⟩

/-- The year is taken for a marker, although no node of the block is a reference. -/
theorem year_becomes_marker :
    yearBlock.descendants.all (fun n => n.kind != NodeKind.annotation) = true ∧
      (convertDocument (.tree (.documentOf [yearBlock]))).toOption.map
          (fun c => (c.markdown, c.findings)) =
        some (Text.joinBlocks [sentinel, "A (1)".toList],
          ["Orphaned annotation reference: (1)".toList]) := by
  decide +kernel

end Docmark
