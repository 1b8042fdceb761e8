import Docmark.Proofs.Convert.Items
import Docmark.Proofs.Document.Annotated

/-!
Containers hand the signs of their children on: paragraphs, quotes, lists and their items, panels
and sections that expand write all signs of the children, in order. So does the text of a note.
-/

open Docmark.Convert

namespace Docmark.Text.Signs

variable {α : Type} {o : Char} {μ : Text → List α} (h : Signs o μ)

include h

theorem joinedBlocks (fs : List Fragment) :
    μ (Fragment.joinedBlocks fs) = fs.flatMap fun f => μ f.markdown := by
  rw [Fragment.joinedBlocks, h.joinedLists, List.flatMap_map]
  rfl

omit h in
/-- Fragments on one line may form more signs together. -/
theorem joinedFragments (grows : ∀ t u, (μ t ++ μ u).Sublist (μ (t ++ u))) (fs : List Fragment) :
    (fs.flatMap fun f => μ f.markdown).Sublist (μ (Fragment.joined fs)) := by
  induction fs with
  | nil => exact List.nil_sublist _
  | cons f fs ih =>
    exact (List.Sublist.append (List.Sublist.refl _) ih).trans
      (grows f.markdown (Fragment.joined fs))

/-- Where no sign reaches from one text to the next, they form no others. -/
theorem joinedFragments_eq (apart : ∀ t u, μ (t ++ u) = μ t ++ μ u) (fs : List Fragment) :
    μ (Fragment.joined fs) = fs.flatMap fun f => μ f.markdown := by
  induction fs with
  | nil => exact h.empty
  | cons f fs ih =>
    rw [Fragment.joined, List.flatMap_cons, List.flatMap_cons, apart, ← ih]
    rfl

theorem joinedWords (fs : List Fragment) :
    μ (Fragment.joinedWords fs) = fs.flatMap fun f => μ f.markdown := by
  rw [Fragment.joinedWords, h.joinWith (by simp [parts_space])]
  induction fs with
  | nil => rfl
  | cons f fs ih =>
    rw [List.map_cons, List.flatMap_cons, ← ih, ← h.strip f.markdown]
    cases Text.strip f.markdown with
    | nil => simp [h.empty]
    | cons c r => simp

variable {ctx : Context} {n : Node} {children : List Fragment} {level : Int} {s s' : Session}
  {f : Fragment}

theorem blocks (run : Convert.blocks ctx n children level s = .ok (f, s')) :
    μ f.markdown = children.flatMap fun g => μ g.markdown := by
  obtain ⟨rfl, -⟩ := Conversion.pure_ok.mp run
  exact h.joinedBlocks children

theorem paragraph (run : Convert.paragraph ctx n children level s = .ok (f, s')) :
    μ f.markdown = μ (Fragment.joined children) := by
  obtain ⟨rfl, -⟩ := Conversion.pure_ok.mp run
  exact h.paragraphText _ _

theorem blockquote (run : Convert.blockquote ctx n children level s = .ok (f, s')) :
    μ f.markdown = children.flatMap fun g => μ g.markdown := by
  obtain ⟨rfl, -⟩ := Conversion.pure_ok.mp run
  rw [← h.joinedBlocks]
  split
  · rename_i he
    rw [List.isEmpty_iff.mp he]
    rfl
  · rw [h.quoteLines]

theorem panel (run : Convert.panel ctx n children level s = .ok (f, s')) :
    μ f.markdown = children.flatMap fun g => μ g.markdown := by
  obtain ⟨rfl, -⟩ := Conversion.pure_ok.mp run
  rw [← h.joinedBlocks]
  exact (h.admonition _ _ none).2 (by simp)

/-- The title of a section may have signs of its own. -/
theorem expand (run : Convert.expand ctx n children level s = .ok (f, s')) :
    ((∀ t u, (μ t ++ μ u).Sublist (μ (t ++ u))) →
        (children.flatMap fun g => μ g.markdown).Sublist (μ f.markdown)) ∧
      (o ∉ expandTitle n → μ f.markdown = children.flatMap fun g => μ g.markdown) := by
  obtain ⟨rfl, -⟩ := Conversion.pure_ok.mp run
  rw [← h.joinedBlocks]
  obtain ⟨all, only⟩ := h.admonition .note (Fragment.joinedBlocks children) (some (expandTitle n))
  exact ⟨all, fun untitled => only fun t ht => Option.some.inj ht ▸ untitled⟩

theorem itemOf (level : Int) (f : Fragment) {marker : Text} (none : o ∉ marker) :
    μ ((Convert.itemOf level f).render marker) = μ f.markdown := by
  rw [h.renderItem _ none, text_itemOf]

theorem bulletList (run : Convert.bulletList ctx n children level s = .ok (f, s')) :
    μ f.markdown = children.flatMap fun g => μ g.markdown := by
  obtain ⟨rfl, -⟩ := Conversion.pure_ok.mp run
  rw [h.unlines, List.flatMap_map]
  have bullet : o ∉ bulletMarker := by
    have := h.foreign.ne_of_isRuleChar (c := '-') (by decide)
    simp [bulletMarker, this.symm]
  simp only [h.itemOf level _ bullet]

theorem numberedItems {number : Nat} {fs : List Fragment} {items : List Text}
    (made : Convert.numberedItems level number fs = .ok items) :
    items.flatMap μ = fs.flatMap fun g => μ g.markdown := by
  rw [numberedItems_ok made]
  clear made
  induction fs generalizing number with
  | nil => rfl
  | cons f fs ih =>
    have digits : o ∉ Text.decimal number ++ ['.'] := by
      intro hm
      rcases List.mem_append.mp hm with hm | hm
      · have := h.foreign.decimal
        rw [Text.isDecimal_of_isDigit (Text.isDigit_of_mem_decimal hm)] at this
        cases this
      · exact h.foreign.ne_of_mem_layout (c := '.') (by simp) (List.mem_singleton.mp hm).symm
    rw [List.length_cons, List.range'_succ, List.map_cons, List.zipWith_cons_cons,
      List.flatMap_cons, h.itemOf level f digits, ih]
    rfl

theorem orderedList (run : Convert.orderedList ctx n children level s = .ok (f, s')) :
    μ f.markdown = children.flatMap fun g => μ g.markdown := by
  obtain ⟨start, s₁, hs, rest⟩ := Conversion.bind_ok.mp run
  obtain ⟨items, s₂, hi, made⟩ := Conversion.bind_ok.mp rest
  obtain ⟨rfl, -⟩ := Conversion.pure_ok.mp made
  rw [h.unlines, h.numberedItems (Conversion.lift_ok.mp hi).1]

theorem add {item item' : ItemText} {m : Node} {block : Text}
    (added : item.add m block = .ok item') : μ item'.text = μ item.text ++ μ block := by
  have newline : '\n' ≠ o := h.foreign.ne_of_isBlankChar (by decide)
  obtain ⟨gap, written, text, -⟩ := ItemText.add_ok added
  rw [text]
  by_cases empty : item.text = []
  · rw [if_pos empty] at written
    rw [written, empty, h.empty]
    rfl
  · rw [if_neg empty] at written
    rcases written with rfl | rfl
    · rw [List.append_assoc, List.singleton_append, h.part parts_newline]
    · rw [List.append_assoc, List.cons_append, List.singleton_append, h.part parts_newline,
        h.skip newline]

theorem addAll {bs : List (Node × Text)} {item item' : ItemText}
    (added : item.addAll bs = .ok item') :
    μ item'.text = μ item.text ++ (bs.map Prod.snd).flatMap μ := by
  induction bs generalizing item with
  | nil =>
    cases added
    simp
  | cons b bs ih =>
    obtain ⟨next, first, rest⟩ := ItemText.addAll_cons_ok.mp added
    rw [ih rest, h.add first, List.map_cons, List.flatMap_cons, List.append_assoc]

theorem listItem (same : children.length = n.children.length)
    (run : Convert.listItem ctx n children level s = .ok (f, s')) :
    μ f.markdown = children.flatMap fun g => μ g.markdown := by
  obtain ⟨item, bs, rfl, blocks, added⟩ := listItem_ok same run
  have text := h.addAll added
  rw [blocks, List.flatMap_map, h.separateLists, List.flatMap_map] at text
  rw [text, h.empty]
  rfl

/--
A container with children in their places writes all their signs. Others it has only where children
on one line form them, or in its title.
-/
theorem carries {k : NodeKind} {convert : Converter} (hk : k.carriesMarkers = true)
    (hc : Registry.builtinConverters.get? k = some convert)
    (same : children.length = n.children.length)
    (run : convert ctx n children level s = .ok (f, s')) :
    ((∀ t u, (μ t ++ μ u).Sublist (μ (t ++ u))) →
        (children.flatMap fun g => μ g.markdown).Sublist (μ f.markdown)) ∧
      ((∀ t u, μ (t ++ u) = μ t ++ μ u) →
        (k = .expand ∨ k = .nestedExpand → o ∉ expandTitle n) →
        μ f.markdown = children.flatMap fun g => μ g.markdown) := by
  have of_eq (he : μ f.markdown = children.flatMap fun g => μ g.markdown) :
      ((∀ t u, (μ t ++ μ u).Sublist (μ (t ++ u))) →
          (children.flatMap fun g => μ g.markdown).Sublist (μ f.markdown)) ∧
        ((∀ t u, μ (t ++ u) = μ t ++ μ u) →
          (k = .expand ∨ k = .nestedExpand → o ∉ expandTitle n) →
          μ f.markdown = children.flatMap fun g => μ g.markdown) :=
    ⟨fun _ => he ▸ List.Sublist.refl _, fun _ _ => he⟩
  cases k with
  | doc =>
    cases hc
    exact of_eq (h.blocks run)
  | paragraph =>
    cases hc
    rw [h.paragraph run]
    exact ⟨fun grows => joinedFragments grows children,
      fun apart _ => h.joinedFragments_eq apart children⟩
  | blockquote =>
    cases hc
    exact of_eq (h.blockquote run)
  | bulletList =>
    cases hc
    exact of_eq (h.bulletList run)
  | orderedList =>
    cases hc
    exact of_eq (h.orderedList run)
  | listItem =>
    cases hc
    exact of_eq (h.listItem same run)
  | panel =>
    cases hc
    exact of_eq (h.panel run)
  | expand =>
    cases hc
    obtain ⟨all, only⟩ := h.expand run
    exact ⟨all, fun _ untitled => only (untitled (Or.inl rfl))⟩
  | nestedExpand =>
    cases hc
    obtain ⟨all, only⟩ := h.expand run
    exact ⟨all, fun _ untitled => only (untitled (Or.inr rfl))⟩
  | _ => simp [NodeKind.carriesMarkers] at hk

end Docmark.Text.Signs
