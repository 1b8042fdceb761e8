import Docmark.Proofs.Convert.Items
import Docmark.Proofs.Convert.ListColumns

/-!
The lines of a list: those of its items one after the other, each item under its marker, whatever
the items hold.
-/

namespace Docmark

open Markdown Text Conversion

theorem kind_of_isList {k : NodeKind} (h : k.isList = true) :
    k = .bulletList ∨ k = .orderedList := by
  cases k with
  | bulletList => exact Or.inl rfl
  | orderedList => exact Or.inr rfl
  | _ => cases h

/-- A list is written as its items under their markers. -/
theorem convert_items {ctx : Context} {n : Node} {fs : List Fragment}
    (length : fs.length = n.children.length) (list : n.kind.isList = true) {convert : Converter}
    (found : (Registry.standard.settle.get n.kind).1 = some convert) {level : Int}
    {s s' : Session} {f : Fragment} (run : convert ctx n fs level s = .ok (f, s')) :
    ∃ ms, HasMarkers n false ms ∧ ms.length = fs.length ∧
      f.markdown = unlines (List.zipWith (fun m f => (Convert.itemOf level f).render m) ms fs) ∧
      f.fact.listKind? = listKindOf n.kind := by
  rcases kind_of_isList list with kind | kind
  · rw [kind] at found
    cases found
    obtain ⟨rfl, -⟩ := pure_ok.mp run
    refine ⟨_, .bullet kind, by simp [length], ?_, by rw [kind]; rfl⟩
    have same : List.zipWith (fun m f => (Convert.itemOf level f).render m)
        (n.children.map fun _ => Convert.bulletMarker) fs =
          fs.map fun f => (Convert.itemOf level f).render Convert.bulletMarker :=
      List.ext_getElem (by simp [length]) (by simp)
    exact congrArg unlines same.symm
  · rw [kind] at found
    cases found
    rw [Convert.orderedList, bind_ok] at run
    obtain ⟨start, s₁, first, run⟩ := run
    rw [bind_ok] at run
    obtain ⟨written, s₂, numbered, made⟩ := run
    obtain ⟨first, -⟩ := lift_ok.mp first
    obtain ⟨numbered, -⟩ := lift_ok.mp numbered
    obtain ⟨rfl, -⟩ := pure_ok.mp made
    refine ⟨_, .ordered kind first, by simp [length], ?_, by rw [kind]; rfl⟩
    rw [Convert.numberedItems_ok numbered, length]
    rfl

/-- The lines of a list, item by item. -/
def listLines (level : Int) (ms : List Text) (fs : List Fragment) : List Text :=
  (ms.zip fs).flatMap fun x => (Convert.itemOf level x.2).written x.1

section listLines

variable {n : Node} {other : Bool} {ms : List Text} (markers : HasMarkers n other ms) (level : Int)
  (fs : List Fragment)

include markers

theorem unlines_listLines :
    unlines (List.zipWith (fun m f => (Convert.itemOf level f).render m) ms fs) =
      unlines (listLines level ms fs) := by
  rw [listLines, List.flatMap_def, unlines_flatten, List.map_map,
    ← List.map_uncurry_zip_eq_zipWith]
  · congr 1
    refine List.map_congr_left fun x hx => ?_
    exact render_eq _ _ (markers.filled (List.of_mem_zip hx).1)
  · intro ls hl
    obtain ⟨x, hx, rfl⟩ := List.mem_map.mp hl
    simp [written_eq _ _ (markers.filled (List.of_mem_zip hx).1)]

theorem framed_listLines : Framed (listLines level ms fs) := by
  rw [listLines, List.flatMap_def]
  refine framed_flatten (fun ls hl => ?_) fun ls hl => ?_
  all_goals
    obtain ⟨x, hx, rfl⟩ := List.mem_map.mp hl
    have mem := (List.of_mem_zip hx).1
  · simp [written_eq _ _ (markers.filled mem)]
  · exact framed_written _ _ (markers.shown mem)

theorem newline_not_mem_listLines {l : Text} (h : l ∈ listLines level ms fs) : '\n' ∉ l := by
  obtain ⟨x, hx, hl⟩ := List.mem_flatMap.mp h
  have mem := (List.of_mem_zip hx).1
  exact newline_not_mem_written _ _ (markers.filled mem) (markers.newline mem) hl

theorem lines_unlines_listLines (ne : listLines level ms fs ≠ []) :
    lines (unlines (listLines level ms fs)) = listLines level ms fs :=
  lines_unlines ne fun _ hl => newline_not_mem_listLines markers _ _ hl

/-- A list begins with the line of its first marker. -/
theorem exists_head_listLines (ne : listLines level ms fs ≠ []) :
    ∃ m ms' f, ms = m :: ms' ∧ fs.head? = some f ∧ (listLines level ms fs).headD [] =
      spaces (2 * level).toNat ++ m ++ besideMarker (Convert.itemOf level f).shown := by
  match ms, fs with
  | [], _ => exact absurd rfl ne
  | _ :: _, [] => exact absurd rfl ne
  | m :: ms, f :: fs =>
    refine ⟨m, ms, f, rfl, rfl, ?_⟩
    rw [listLines, List.zip_cons_cons, List.flatMap_cons,
      written_eq _ _ (markers.filled List.mem_cons_self), Convert.level_itemOf]
    rfl

/-- Switching the markers of a list is done to its lines one by one. -/
theorem switchMarkers_listLines (ne : listLines level ms fs ≠ []) (kind : ListKind) :
    switchMarkers kind (unlines (listLines level ms fs)) =
      unlines ((listLines level ms fs).map (switchLine (2 * level).toNat kind)) := by
  obtain ⟨m, ms', f, he, -, head⟩ := exists_head_listLines markers level fs ne
  have depth : indentWidth ((listLines level ms fs).headD []) = (2 * level).toNat := by
    obtain ⟨c, r, hm, shown⟩ := markers.exists_cons (m := m) (by simp [he])
    rw [head, List.append_assoc, indentWidth_spaces_append, hm]
    simp [indentWidth, shown]
  rw [Markdown.switchMarkers, lines_unlines_listLines markers level fs ne]
  simp only [depth]
  rfl

/-- A list has no line feeds around it. -/
theorem trimNewlines_listLines :
    trimNewlines (unlines (listLines level ms fs)) = unlines (listLines level ms fs) := by
  by_cases none : listLines level ms fs = []
  · rw [none]
    rfl
  · apply trimNewlines_of_framed
    rw [lines_unlines_listLines markers _ _ none]
    exact framed_listLines markers _ _

end listLines

end Docmark
