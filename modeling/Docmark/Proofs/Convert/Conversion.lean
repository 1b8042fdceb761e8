import Docmark.Proofs.Convert.ListLines
import Docmark.Proofs.Convert.Walk

/-!
What the nodes of a document are converted to, in whatever session the walk reaches them: the
children first, then the node from what they give.
-/

namespace Docmark

open Markdown Text Conversion

/-- What a node is converted to at a list level, somewhere in a document. -/
def IsConversion (ctx : Context) (level : Int) (n : Node) (f : Fragment) : Prop :=
  ∃ levels s s', Reached ctx s ∧
    walkLevels Registry.standard.settle ctx levels level n s = .ok (f, s')

variable {ctx : Context} {level : Int} {n : Node} {f : Fragment}

theorem isConversion_of_walk {s : Session}
    (run : walk Registry.standard ctx level n {} = .ok (f, s)) : IsConversion ctx level n f :=
  ⟨_, _, s, .start, run⟩

/-- A node that has a converter is converted from its children. -/
theorem IsConversion.children (h : IsConversion ctx level n f) {convert : Converter}
    (found : (Registry.standard.settle.get n.kind).1 = some convert) :
    ∃ fs s s', List.Forall₂ (IsConversion ctx (n.kind.childLevel level)) n.children fs ∧
      Reached ctx s ∧ convert ctx n fs level s = .ok (f, s') := by
  obtain ⟨levels, s, s', reached, run⟩ := h
  obtain ⟨below, fs, s₁, -, walked, made⟩ := walkLevels_made found run
  exact ⟨fs, s₁, s', reached.forall₂ walked fun h hw => ⟨below, _, _, h, hw⟩,
    reached.mapM walked, made⟩

/-- An item is put together from its children. -/
theorem IsConversion.item (h : IsConversion ctx level n f) (kind : n.kind = .listItem) :
    ∃ fs item, List.Forall₂ (IsConversion ctx (level + 1)) n.children fs ∧
      f = ⟨item.text, .listItem item.nested⟩ ∧
      Convert.ItemText.addAll {} (Convert.keptBlocks (none, false) n.children fs) = .ok item := by
  obtain ⟨fs, s, s', children, -, made⟩ := h.children (by rw [kind]; rfl)
  obtain ⟨item, hf, added⟩ := Convert.listItem_addAll children.length_eq.symm made
  rw [kind] at children
  exact ⟨fs, item, children, hf, added⟩

/-- A list is written as its items under their markers. -/
theorem IsConversion.list (h : IsConversion ctx level n f) (list : n.kind.isList = true) :
    ∃ fs ms, List.Forall₂ (IsConversion ctx level) n.children fs ∧ HasMarkers n false ms ∧
      ms.length = fs.length ∧ f.markdown = unlines (listLines level ms fs) ∧
      f.fact.listKind? = listKindOf n.kind := by
  obtain ⟨convert, found⟩ : ∃ convert, (Registry.standard.settle.get n.kind).1 = some convert := by
    rcases kind_of_isList list with kind | kind
    all_goals
      rw [kind]
      exact ⟨_, rfl⟩
  have same : n.kind.childLevel level = level := by
    rcases kind_of_isList list with kind | kind
    all_goals
      rw [kind]
      rfl
  obtain ⟨fs, s, s', children, -, made⟩ := h.children found
  obtain ⟨ms, markers, length, markdown, fact⟩ :=
    convert_items children.length_eq.symm list found made
  rw [unlines_listLines markers] at markdown
  rw [same] at children
  exact ⟨fs, ms, children, markers, length, markdown, fact⟩

end Docmark
