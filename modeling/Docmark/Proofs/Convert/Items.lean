import Docmark.Proofs.Convert.Run
import Docmark.Proofs.Markdown.BlocksInRow
import Docmark.Proofs.Markdown.SignLayout
import Docmark.Proofs.Text.Decimal

/-!
What the converters of lists and of their items do step by step, for all that is followed through
them.
-/

namespace Docmark.Convert

theorem text_itemOf (level : Int) (f : Fragment) : (itemOf level f).text = f.markdown := by
  rw [itemOf]
  split <;> rfl

theorem level_itemOf (level : Int) (f : Fragment) : (itemOf level f).level = level := by
  rw [itemOf]
  split <;> rfl

/-- The items of an ordered list are laid out under their numbers. -/
theorem numberedItems_ok {level : Int} {number : Nat} {fs : List Fragment} {written : List Text}
    (h : numberedItems level number fs = .ok written) :
    written = List.zipWith (fun m f => (itemOf level f).render m)
      ((List.range' number fs.length).map fun k => Text.decimal k ++ ['.']) fs := by
  induction fs generalizing number written with
  | nil =>
    cases h
    rfl
  | cons f fs ih =>
    obtain ⟨marker, first, h⟩ := bind_eq_ok.mp h
    obtain ⟨others, rest, made⟩ := bind_eq_ok.mp h
    rw [orderedMarker, Text.writeNat] at first
    split at first
    · cases first
    · cases first
      cases made
      rw [ih rest]
      rfl

theorem ItemText.gap_ok {item : ItemText} {n : Node} {gap : Text} (h : item.gap n = .ok gap) :
    if item.text = [] then gap = [] else ∃ follows, interruptsParagraph n = .ok follows ∧
      gap = if follows then ['\n'] else ['\n', '\n'] := by
  rw [ItemText.gap] at h
  by_cases empty : item.text = []
  · rw [if_pos (List.isEmpty_iff.mpr empty)] at h
    rw [if_pos empty]
    exact (Except.ok.inj h).symm
  · rw [if_neg fun none => empty (List.isEmpty_iff.mp none)] at h
    rw [if_neg empty]
    cases hi : interruptsParagraph n with
    | error e =>
      rw [hi] at h
      cases h
    | ok follows =>
      rw [hi] at h
      exact ⟨follows, rfl, (Except.ok.inj h).symm⟩

theorem ItemText.add_gap_ok {item item' : ItemText} {n : Node} {block : Text}
    (h : item.add n block = .ok item') :
    ∃ gap, item.gap n = .ok gap ∧ item'.text = item.text ++ gap ++ block ∧
      item'.nested = item.nested ++ if n.kind.isList then
        List.range' ((item.text ++ gap).count '\n') (block.count '\n' + 1) else [] := by
  rw [add] at h
  obtain ⟨gap, hg, made⟩ := bind_eq_ok.mp h
  cases made
  exact ⟨gap, hg, rfl, rfl⟩

/-- What a block is put behind, and where its lines begin. -/
theorem ItemText.add_ok {item item' : ItemText} {n : Node} {block : Text}
    (h : item.add n block = .ok item') :
    ∃ gap, (if item.text = [] then gap = [] else gap = ['\n'] ∨ gap = ['\n', '\n']) ∧
      item'.text = item.text ++ gap ++ block ∧
      item'.nested = item.nested ++ if n.kind.isList then
        List.range' ((item.text ++ gap).count '\n') (block.count '\n' + 1) else [] := by
  obtain ⟨gap, hg, text, nested⟩ := add_gap_ok h
  have written := gap_ok hg
  refine ⟨gap, ?_, text, nested⟩
  split at written
  · rename_i empty
    rwa [if_pos empty]
  · rename_i filled
    obtain ⟨follows, -, rfl⟩ := written
    rw [if_neg filled]
    cases follows <;> simp

/-- The blocks of an item, each behind those before it. -/
def ItemText.addAll (item : ItemText) (bs : List (Node × Text)) :
    Except Text.NumberError ItemText :=
  bs.foldlM (fun item b => item.add b.1 b.2) item

theorem ItemText.addAll_cons_ok {item item' : ItemText} {b : Node × Text}
    {bs : List (Node × Text)} :
    item.addAll (b :: bs) = .ok item' ↔
      ∃ next, item.add b.1 b.2 = .ok next ∧ next.addAll bs = .ok item' := by
  rw [addAll, List.foldlM_cons, bind_eq_ok]
  rfl

theorem ItemText.addAll_append_ok {item item' : ItemText} {bs cs : List (Node × Text)} :
    item.addAll (bs ++ cs) = .ok item' ↔
      ∃ next, item.addAll bs = .ok next ∧ next.addAll cs = .ok item' := by
  rw [addAll, List.foldlM_append, bind_eq_ok]
  rfl

/-- Blocks are put behind those that are there. -/
theorem ItemText.prefix_addAll {item item' : ItemText} {bs : List (Node × Text)}
    (h : item.addAll bs = .ok item') : item.text <+: item'.text := by
  induction bs generalizing item with
  | nil =>
    cases h
    exact List.prefix_rfl
  | cons b bs ih =>
    obtain ⟨next, added, rest⟩ := addAll_cons_ok.mp h
    obtain ⟨gap, -, text, -⟩ := add_ok added
    refine List.IsPrefix.trans ?_ (ih rest)
    rw [text, List.append_assoc]
    exact List.prefix_append _ _

/-- Blocks with the children that they come from. -/
def withChildren (ns : List Node) (bs : List (Nat × Text)) : List (Node × Text) :=
  bs.filterMap fun (i, block) => ns[i]?.map (·, block)

theorem withChildren_cons {ns : List Node} {i : Nat} {n : Node} (child : ns[i]? = some n)
    (block : Text) (bs : List (Nat × Text)) :
    withChildren ns ((i, block) :: bs) = (n, block) :: withChildren ns bs :=
  List.filterMap_cons_some (by dsimp only; rw [child]; rfl)

/-- The blocks of the children that are not blank, each with its child. -/
def keptBlocks (before : Option Markdown.ListKind × Bool) :
    List Node → List Fragment → List (Node × Text)
  | n :: ns, f :: fs =>
    if Text.isBlank f.markdown then keptBlocks before ns fs
    else (n, f.block.written (f.block.switches before)) ::
      keptBlocks (f.block.list, f.block.switches before) ns fs
  | _, _ => []

section keptBlocks

variable {before : Option Markdown.ListKind × Bool} {n : Node} {ns : List Node} {f : Fragment}
  {fs : List Fragment}

theorem keptBlocks_of_blank (blank : Text.isBlank f.markdown = true) :
    keptBlocks before (n :: ns) (f :: fs) = keptBlocks before ns fs := by
  rw [keptBlocks, if_pos blank]

theorem keptBlocks_of_shown (shown : Text.isBlank f.markdown = false) :
    keptBlocks before (n :: ns) (f :: fs) = (n, f.block.written (f.block.switches before)) ::
      keptBlocks (f.block.list, f.block.switches before) ns fs := by
  rw [keptBlocks, shown]
  rfl

/-- Behind other children the places of the blocks are those of the children all the same. -/
theorem withChildren_separateFrom (same : fs.length = ns.length) (pre : List Node)
    (before : Option Markdown.ListKind × Bool) : withChildren (pre ++ ns)
        (Markdown.separateFrom pre.length before (fs.map Fragment.block)) =
      keptBlocks before ns fs := by
  induction fs generalizing ns pre before with
  | nil =>
    rw [List.length_eq_zero_iff.mp same.symm]
    rfl
  | cons f fs ih =>
    obtain ⟨n, ns, rfl⟩ := List.exists_cons_of_length_eq_add_one same.symm
    have place : (pre ++ n :: ns)[pre.length]? = some n := by simp
    have rest (before : Option Markdown.ListKind × Bool) : withChildren (pre ++ n :: ns)
        (Markdown.separateFrom (pre.length + 1) before (fs.map Fragment.block)) =
          keptBlocks before ns fs := by
      rw [← ih (Nat.succ.inj same) (pre ++ [n]) before, List.append_assoc, List.length_append]
      rfl
    rw [List.map_cons]
    cases blank : Text.isBlank f.markdown with
    | true =>
      rw [Markdown.separateFrom_cons_of_blank blank, keptBlocks_of_blank blank]
      exact rest before
    | false =>
      rw [Markdown.separateFrom_cons_of_shown blank, keptBlocks_of_shown blank,
        withChildren_cons place]
      exact congrArg (_ :: ·) (rest _)

/-- The blocks of the children behind others. -/
theorem exists_keptBlocks_append {as : List Node} {gs : List Fragment}
    (same : gs.length = as.length) (ns : List Node) (fs : List Fragment)
    (before : Option Markdown.ListKind × Bool) : ∃ bs last,
      keptBlocks before (as ++ ns) (gs ++ fs) = bs ++ keptBlocks last ns fs := by
  induction gs generalizing as before with
  | nil =>
    rw [List.length_eq_zero_iff.mp same.symm]
    exact ⟨[], before, rfl⟩
  | cons g gs ih =>
    obtain ⟨a, as, rfl⟩ := List.exists_cons_of_length_eq_add_one same.symm
    rw [List.cons_append, List.cons_append]
    cases blank : Text.isBlank g.markdown with
    | true =>
      rw [keptBlocks_of_blank blank]
      exact ih (Nat.succ.inj same) before
    | false =>
      obtain ⟨bs, last, split⟩ :=
        ih (Nat.succ.inj same) (g.block.list, g.block.switches before)
      rw [keptBlocks_of_shown blank, split]
      exact ⟨_ :: bs, last, rfl⟩

theorem isBlank_of_mem_keptBlocks {b : Node × Text} (h : b ∈ keptBlocks before ns fs) :
    Text.isBlank b.2 = false := by
  induction before, ns, fs using keptBlocks.induct with
  | case1 before n ns f fs blank ih =>
    rw [keptBlocks_of_blank blank] at h
    exact ih h
  | case2 before n ns f fs shown ih =>
    rw [Bool.not_eq_true] at shown
    rw [keptBlocks_of_shown shown] at h
    rcases List.mem_cons.mp h with rfl | h
    · rw [Markdown.Block.isBlank_written]
      exact shown
    · exact ih h
  | case3 before ns fs none =>
    rw [keptBlocks] at h
    · cases h
    · exact none

/-- Every block of an item comes from one of its children. -/
theorem keptBlocks_snd (same : fs.length = ns.length) (index : Nat)
    (before : Option Markdown.ListKind × Bool) : (keptBlocks before ns fs).map Prod.snd =
      (Markdown.separateFrom index before (fs.map Fragment.block)).map Prod.snd := by
  induction fs generalizing ns index before with
  | nil =>
    rw [List.length_eq_zero_iff.mp same.symm]
    rfl
  | cons f fs ih =>
    obtain ⟨n, ns, rfl⟩ := List.exists_cons_of_length_eq_add_one same.symm
    rw [List.map_cons]
    cases blank : Text.isBlank f.markdown with
    | true =>
      rw [Markdown.separateFrom_cons_of_blank blank, keptBlocks_of_blank blank]
      exact ih (Nat.succ.inj same) (index + 1) before
    | false =>
      rw [Markdown.separateFrom_cons_of_shown blank, keptBlocks_of_shown blank, List.map_cons,
        List.map_cons]
      exact congrArg (_ :: ·) (ih (Nat.succ.inj same) (index + 1) _)

end keptBlocks

/-- An item is put together from the blocks of its children. -/
theorem listItem_addAll {ctx : Context} {n : Node} {children : List Fragment} {level : Int}
    {s s' : Session} {f : Fragment} (same : children.length = n.children.length)
    (h : listItem ctx n children level s = .ok (f, s')) :
    ∃ item : ItemText, f = ⟨item.text, .listItem item.nested⟩ ∧
      ItemText.addAll {} (keptBlocks (none, false) n.children children) = .ok item := by
  obtain ⟨item, s₁, lifted, made⟩ := Conversion.bind_ok.mp h
  obtain ⟨rfl, -⟩ := Conversion.pure_ok.mp made
  obtain ⟨folded, -⟩ := Conversion.lift_ok.mp lifted
  refine ⟨item, rfl, ?_⟩
  rw [← withChildren_separateFrom same [] (none, false)]
  exact folded

theorem listItem_ok {ctx : Context} {n : Node} {children : List Fragment} {level : Int}
    {s s' : Session} {f : Fragment} (same : children.length = n.children.length)
    (h : listItem ctx n children level s = .ok (f, s')) :
    ∃ item bs, f = ⟨item.text, .listItem item.nested⟩ ∧
      bs.map Prod.snd = (Markdown.separateLists (children.map Fragment.block)).map Prod.snd ∧
      ItemText.addAll {} bs = .ok item := by
  obtain ⟨item, rfl, added⟩ := listItem_addAll same h
  exact ⟨item, _, rfl, keptBlocks_snd same 0 (none, false), added⟩

end Docmark.Convert
