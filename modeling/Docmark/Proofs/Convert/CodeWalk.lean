import Docmark.Proofs.Convert.CodeInContainers
import Docmark.Proofs.Convert.Walk

/-!
Code blocks through the walk: the Markdown of a tree holds the code blocks of its quotes, panels,
lists and annotated blocks in document order.
-/

namespace Docmark

open Conversion

/-- Kinds of nodes that write the blocks inside them line by line. -/
def NodeKind.holdsBlocks : NodeKind → Bool
  | .doc | .mediaSingle | .blockquote | .panel | .expand | .nestedExpand | .bulletList
  | .orderedList | .listItem => true
  | _ => false

/-- Nodes that write the blocks inside them line by line. -/
def Node.holdsBlocks (n : Node) : Bool :=
  n.kind.holdsBlocks || n.isAnnotatedBlock

mutual

/-- The code blocks of a tree in document order, those in cells, notes and text apart. -/
def Node.codeBlocks : Node → List Node
  | ⟨tag, attributes, children, text, marks⟩ =>
    let n : Node := ⟨tag, attributes, children, text, marks⟩
    if n.kind = .codeBlock then [n] else if n.holdsBlocks then codeBlocksOf children else []

def codeBlocksOf : List Node → List Node
  | [] => []
  | n :: ns => n.codeBlocks ++ codeBlocksOf ns

end

theorem codeBlocksOf_eq (ns : List Node) : codeBlocksOf ns = (ns.map Node.codeBlocks).flatten := by
  induction ns with
  | nil => rfl
  | cons n ns ih => rw [codeBlocksOf, ih, List.map_cons, List.flatten_cons]

theorem Node.codeBlocks_eq (n : Node) : n.codeBlocks =
    if n.kind = .codeBlock then [n]
    else if n.holdsBlocks then (n.children.map codeBlocks).flatten else [] := by
  cases n
  rw [codeBlocks, codeBlocksOf_eq]

namespace HoldsCode

variable {ctx : Context} {n : Node} {fs : List Fragment} {level : Int} {s s' : Session}
  {f : Fragment} {nss : List (List Node)}

theorem of_listItem (each : Each Fragment.markdown nss fs) (same : fs.length = n.children.length)
    (run : Convert.listItem ctx n fs level s = .ok (f, s')) :
    HoldsCode nss.flatten (Text.lines f.markdown) := by
  obtain ⟨item, bs, rfl, blocks, added⟩ := Convert.listItem_ok same run
  obtain ⟨nss', flat, kept⟩ := separateFrom each 0 (none, false)
  have start : HoldsCode [] (Text.lines ({} : Convert.ItemText).text) := texts _
  have texts : Each id nss' (bs.map Prod.snd) := by
    rw [blocks]
    exact each_map.mpr kept
  have whole := start.addAll (each_map.mp texts) added
  rwa [flat] at whole

theorem of_item {marker : Text} (mark : IsListMarker marker) {ns : List Node}
    (h : HoldsCode ns (Text.lines f.markdown)) :
    HoldsCode ns (Text.lines ((Convert.itemOf level f).render marker)) := by
  apply render _ marker mark
  rwa [Convert.text_itemOf]

theorem of_items (level : Int) {ms : List Text} (marks : ∀ m ∈ ms, IsListMarker m)
    (length : ms.length = fs.length) (each : Each Fragment.markdown nss fs) :
    HoldsCode nss.flatten (Text.lines (Text.unlines
      (List.zipWith (fun m f => (Convert.itemOf level f).render m) ms fs))) := by
  refine unlines ?_
  induction each generalizing ms with
  | nil =>
    rw [List.zipWith_nil_right]
    exact .nil
  | cons first _ ih =>
    match ms with
    | [] => cases length
    | m :: ms =>
      rw [List.zipWith_cons_cons]
      exact .cons (of_item (marks m (by simp)) first)
        (ih (fun k hk => marks k (by simp [hk])) (Nat.succ.inj length))

theorem of_bulletList (each : Each Fragment.markdown nss fs)
    (run : Convert.bulletList ctx n fs level s = .ok (f, s')) :
    HoldsCode nss.flatten (Text.lines f.markdown) := by
  obtain ⟨rfl, -⟩ := pure_ok.mp run
  have marks : ∀ m ∈ fs.map fun _ => Convert.bulletMarker, IsListMarker m := by
    intro m hm
    obtain ⟨-, -, rfl⟩ := List.mem_map.mp hm
    exact Or.inl rfl
  have items := of_items level marks (List.length_map _) each
  rwa [List.zipWith_map_left, List.zipWith_self] at items

theorem of_orderedList (each : Each Fragment.markdown nss fs)
    (run : Convert.orderedList ctx n fs level s = .ok (f, s')) :
    HoldsCode nss.flatten (Text.lines f.markdown) := by
  obtain ⟨start, s₁, -, run⟩ := bind_ok.mp run
  obtain ⟨written, s₂, numbered, made⟩ := bind_ok.mp run
  obtain ⟨numbered, -⟩ := lift_ok.mp numbered
  obtain ⟨rfl, -⟩ := pure_ok.mp made
  dsimp only
  rw [Convert.numberedItems_ok numbered]
  apply of_items level _ (by simp) each
  intro m hm
  obtain ⟨number, -, rfl⟩ := List.mem_map.mp hm
  exact Or.inr ⟨number, rfl⟩

theorem of_blockquote (each : Each Fragment.markdown nss fs)
    (run : Convert.blockquote ctx n fs level s = .ok (f, s')) :
    HoldsCode nss.flatten (Text.lines f.markdown) := by
  obtain ⟨rfl, -⟩ := pure_ok.mp run
  have body := joinedBlocks each
  split
  · rename_i empty
    exact body.of_empty (List.isEmpty_iff.mp empty) _
  · exact body.quote

/-- Containers other than annotated blocks write all code blocks of their children. -/
theorem of_container {k : NodeKind} {convert : Converter} (kind : k.holdsBlocks = true)
    (found : Registry.builtinConverters.get? k = some convert)
    (same : fs.length = n.children.length) (each : Each Fragment.markdown nss fs)
    (run : convert ctx n fs level s = .ok (f, s')) :
    HoldsCode nss.flatten (Text.lines f.markdown) := by
  cases k with
  | doc =>
    cases found
    obtain ⟨rfl, -⟩ := pure_ok.mp run
    exact joinedBlocks each
  | mediaSingle =>
    cases found
    obtain ⟨rfl, -⟩ := pure_ok.mp run
    exact joinedBlocks each
  | blockquote =>
    cases found
    exact of_blockquote each run
  | panel =>
    cases found
    obtain ⟨rfl, -⟩ := pure_ok.mp run
    dsimp only
    exact (joinedBlocks each).admonition _ _
  | expand =>
    cases found
    obtain ⟨rfl, -⟩ := pure_ok.mp run
    dsimp only
    exact (joinedBlocks each).admonition _ _
  | nestedExpand =>
    cases found
    obtain ⟨rfl, -⟩ := pure_ok.mp run
    dsimp only
    exact (joinedBlocks each).admonition _ _
  | bulletList =>
    cases found
    exact of_bulletList each run
  | orderedList =>
    cases found
    exact of_orderedList each run
  | listItem =>
    cases found
    exact of_listItem each same run
  | _ => cases kind

theorem writtenBlock {ns : List Node} {b : Bool × Text} (h : HoldsCode ns (Text.lines b.2))
    (base : Nat) (names : List Text) :
    HoldsCode ns (Text.lines (Convert.writtenBlock base names b)) := by
  rw [Convert.writtenBlock]
  split
  · exact h
  · rw [ Annotation.lines_relabel fun d _ => Annotation.isNumeral_numeralIn base names d]
    exact h.map fun _ _ hm => hm.renumber base names

theorem blockFragment {ns : List Node} {parts : List Text}
    (body : HoldsCode ns (Text.lines (Text.joinBlocks parts))) (emitting : Bool) (ls : List Text) :
    HoldsCode ns (Text.lines (Convert.blockFragment emitting parts ls).markdown) := by
  by_cases empty : Text.joinBlocks parts = []
  · exact body.of_empty empty _
  · have filled : (Text.joinBlocks parts).isEmpty = false := by simpa using empty
    rw [Convert.blockFragment, filled]
    simp only [Bool.false_and, Bool.false_eq_true, ↓reduceIte, Convert.blockMarkdown, filled]
    split
    · have each : Each id [[], ns, []]
          [ Annotation.sentinel, Text.joinBlocks parts, Text.unlines ls] :=
        .cons (texts _) (.cons body (.cons (texts _) .nil))
      have whole := joinBlocks each
      rwa [List.flatten_cons, List.flatten_cons, List.flatten_singleton, List.append_nil] at whole
    · have each : Each id [[], ns] [ Annotation.sentinel, Text.joinBlocks parts] :=
        .cons (texts _) (.cons body .nil)
      have whole := joinBlocks each
      rwa [List.flatten_cons, List.flatten_singleton] at whole

/-- An annotated block writes its body behind its sentinel and in front of its definitions. -/
theorem of_annotationBlock (sound : s.annotations.Sound) (each : Each Fragment.markdown nss fs)
    (run : Convert.annotationBlock ctx n fs level s = .ok (f, s')) :
    HoldsCode nss.flatten (Text.lines f.markdown) := by
  rw [Convert.annotationBlock_run sound] at run
  cases run
  obtain ⟨nss', flat, kept⟩ := separateFrom each 0 (none, false)
  have written : Each id nss' ((Convert.childBlocks fs).map
      (Convert.writtenBlock s.annotations.counter.toNat (Convert.blockNames fs))) := by
    rw [Convert.childBlocks, List.map_map]
    apply List.forall₂_map_right_iff.mpr
    apply List.Forall₂.imp _ kept
    intro ns p h
    exact writtenBlock h _ _
  have body := joinBlocks written
  rw [flat] at body
  exact blockFragment body _ _

end HoldsCode

theorem Node.registered_of_holdsBlocks {n : Node} (h : n.holdsBlocks = true) :
    ∃ convert, (Registry.standard.settle.get n.kind).1 = some convert := by
  rcases Bool.or_eq_true _ _ ▸ h with kind | block
  · generalize n.kind = k at kind
    cases k
    all_goals first
      | exact ⟨_, rfl⟩
      | cases kind
  · rw [kind_of_isAnnotatedBlock block]
    exact ⟨_, standard_annotation⟩

/-- The Markdown of a tree holds its code blocks in document order. -/
theorem walk_holdsCode {ctx : Context} {s s' : Session} (reached : Reached ctx s) {levels : Nat}
    {level : Int} {n : Node} {f : Fragment}
    (run : walkLevels Registry.standard.settle ctx levels level n s = .ok (f, s')) :
    HoldsCode n.codeBlocks (Text.lines f.markdown) := by
  induction levels generalizing level n s f s' with
  | zero => simp [walkLevels] at run
  | succ below ih =>
    rw [Node.codeBlocks_eq]
    by_cases code : n.kind = .codeBlock
    · rw [if_pos code]
      have registered : (Registry.standard.settle.get n.kind).1 = some Convert.codeBlock := by
        rw [code]
        rfl
      obtain ⟨-, fs, s₁, -, -, made⟩ := walkLevels_made registered run
      obtain ⟨rfl, -⟩ := pure_ok.mp made
      have own := HoldsCode.code (ShowsCode.refl n) .nil
      rwa [List.append_nil] at own
    · rw [if_neg code]
      by_cases holds : n.holdsBlocks = true
      · rw [if_pos holds]
        obtain ⟨convert, found⟩ := n.registered_of_holdsBlocks holds
        obtain ⟨below, fs, s₁, same, walked, made⟩ := walkLevels_made found run
        cases same
        have each : HoldsCode.Each Fragment.markdown (n.children.map Node.codeBlocks) fs :=
          List.forall₂_map_left_iff.mpr (reached.forall₂ walked fun h hw => ih h hw)
        have same : fs.length = n.children.length := (forall₂_of_mapM_ok walked).length_eq.symm
        by_cases block : n.isAnnotatedBlock = true
        · rw [Node.kind_of_isAnnotatedBlock block, standard_annotation] at found
          cases found
          rw [Convert.annotation_of_block ctx fs level block] at made
          exact .of_annotationBlock (reached.mapM walked).sound each made
        · have kind : n.kind.holdsBlocks = true := by simpa [Node.holdsBlocks, block] using holds
          exact .of_container kind found same each made
      · rw [if_neg holds]
        exact .texts _

end Docmark
