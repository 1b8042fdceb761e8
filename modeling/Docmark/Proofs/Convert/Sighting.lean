import Docmark.Proofs.Convert.Containers
import Docmark.Proofs.Convert.OwnMarkers

/-!
References followed through a conversion. A reference is sighted in the Markdown of its node, and
every annotated block around it renumbers what it shows, unless it is in a child that is a block
itself.
-/

namespace Docmark

open Annotation Conversion

/-- True for what may stand between the brackets of a marker. -/
def isNumeral (d : Text) : Bool :=
  !d.isEmpty && d.all Text.isDecimal

theorem isNumeral_iff {d : Text} : isNumeral d = true ↔ IsNumeral d := by
  simp [isNumeral, IsNumeral, List.all_eq_true]

/-- The nearest block around a reference: its number for the name, and its converted children. -/
structure Home where
  number : Nat
  children : List Fragment

/-- A reference in the Markdown of a node. -/
structure Sighting where
  name : Text
  /-- What stands in its marker. -/
  shown : Text
  /-- How many blocks have renumbered it. -/
  passes : Nat
  home : Option Home

/-- The sighting after a block with these children, whose numbers count on from `base`. -/
def Sighting.pass (base : Nat) (children : List Fragment) (x : Sighting) : Sighting where
  name := x.name
  shown :=
    if isNumeral x.shown then numeralIn base (Convert.blockNames children) x.shown else x.shown
  passes := x.passes + 1
  home := x.home.or (some ⟨numberIn base (Convert.allNames children) x.name, children⟩)

/-- A converted node, with the references in its Markdown. -/
structure Tracked where
  fragment : Fragment
  isBlock : Bool
  sightings : List Sighting

/-- The sightings of the parts of a block, after the block. -/
def sightingsInBlock (base : Nat) (parts : List Tracked) : List Sighting :=
  parts.flatMap fun p =>
    if p.isBlock then p.sightings
    else p.sightings.map (Sighting.pass base (parts.map Tracked.fragment))

def sightingsIn (n : Node) (base : Nat) (parts : List Tracked) : List Sighting :=
  if n.isReference then [⟨n.markerName, n.markerName, 0, none⟩]
  else if n.isAnnotatedBlock then sightingsInBlock base parts
  else if n.kind.carriesMarkers then parts.flatMap Tracked.sightings
  else []

/-- The walk, with the references that it meets. -/
def trace (ctx : Context) : Nat → Int → Node → Conversion Tracked
  | 0, _, n => Conversion.fail (.tooDeep ⟨ctx.ceiling, n.tag⟩)
  | below + 1, level, n =>
    match (Registry.standard.settle.get n.kind).1 with
    | none => do
      let f ← walkLevels Registry.standard.settle ctx (below + 1) level n
      return ⟨f, n.isAnnotatedBlock, []⟩
    | some convert => do
      let parts ← n.children.mapM (trace ctx below (n.kind.childLevel level))
      let s ← get
      let f ← convert ctx n (parts.map Tracked.fragment) level
      return ⟨f, n.isAnnotatedBlock, sightingsIn n s.annotations.counter.toNat parts⟩

variable {ctx : Context} {s s' : Session} {level : Int} {n : Node}

/-- Every conversion can be followed. -/
theorem trace_of_walk {levels : Nat} {f : Fragment}
    (h : walkLevels Registry.standard.settle ctx levels level n s = .ok (f, s')) :
    ∃ p, trace ctx levels level n s = .ok (p, s') ∧ p.fragment = f := by
  induction levels generalizing level n s s' f with
  | zero => simp [walkLevels] at h
  | succ below ih =>
    rw [trace]
    rcases walkLevels_ok h with ⟨hc, -, -⟩ | ⟨convert, children, s₁, hc, hchildren, hf⟩
    · rw [hc]
      exact ⟨⟨f, n.isAnnotatedBlock, []⟩, bind_ok.mpr ⟨f, s', h, pure_ok.mpr ⟨rfl, rfl⟩⟩, rfl⟩
    · rw [hc]
      obtain ⟨ps, hps, rfl⟩ := mapM_of_refines ih hchildren
      refine ⟨⟨f, n.isAnnotatedBlock, sightingsIn n s₁.annotations.counter.toNat ps⟩, ?_, rfl⟩
      refine bind_ok.mpr ⟨ps, s₁, hps, bind_ok.mpr ⟨s₁, s₁, get_ok.mpr ⟨rfl, rfl⟩, ?_⟩⟩
      exact bind_ok.mpr ⟨f, s', hf, pure_ok.mpr ⟨rfl, rfl⟩⟩

/-- What a step of the trace did. -/
theorem trace_ok {below : Nat} {p : Tracked} (h : trace ctx (below + 1) level n s = .ok (p, s')) :
    (Registry.builtinConverters.get? n.kind = none ∧ p.fragment.fact = .plain ∧
        p.isBlock = n.isAnnotatedBlock ∧ p.sightings = [] ∧ s' = s) ∨
      ∃ convert parts s₁, Registry.builtinConverters.get? n.kind = some convert ∧
        n.children.mapM (trace ctx below (n.kind.childLevel level)) s = .ok (parts, s₁) ∧
        convert ctx n (parts.map Tracked.fragment) level s₁ = .ok (p.fragment, s') ∧
        p.isBlock = n.isAnnotatedBlock ∧
        p.sightings = sightingsIn n s₁.annotations.counter.toNat parts := by
  rw [trace] at h
  rw [← standard_get]
  cases hc : (Registry.standard.settle.get n.kind).1 with
  | none =>
    rw [hc] at h
    obtain ⟨f, s₁, hw, h⟩ := bind_ok.mp h
    obtain ⟨rfl, rfl⟩ := pure_ok.mp h
    rcases walkLevels_ok hw with ⟨-, hplain, rfl⟩ | ⟨convert, -, -, hc', -, -⟩
    · exact Or.inl ⟨rfl, hplain, rfl, rfl, rfl⟩
    · rw [hc] at hc'
      cases hc'
  | some convert =>
    rw [hc] at h
    obtain ⟨parts, s₁, hparts, hrest⟩ := bind_ok.mp h
    obtain ⟨t, s₂, ht, hconvert⟩ := bind_ok.mp hrest
    obtain ⟨rfl, rfl⟩ := get_ok.mp ht
    obtain ⟨f, s₃, hf, hpure⟩ := bind_ok.mp hconvert
    obtain ⟨rfl, rfl⟩ := pure_ok.mp hpure
    exact Or.inr ⟨convert, parts, _, rfl, hparts, hf, rfl, rfl⟩

namespace Convert

/-- The children in their blocks: those left out have no markers. -/
theorem flatMap_childBlocks {α : Type} {g : Bool → List Text → List α} (hg : ∀ b, g b [] = [])
    (children : List Fragment) :
    (childBlocks children).flatMap (fun b => g b.1 (markersOf b.2)) =
      children.flatMap fun f => g (isAnnotatedBlock f) (markersOf f.markdown) := by
  have places := signs_markersOf.flatMap_separateFrom
    (g := fun i ms => g ((children[i]?.map isAnnotatedBlock).getD false) ms) (fun _ => hg _) 0
    (none, false) (children.map Fragment.block)
  rw [childBlocks, List.flatMap_map]
  refine places.trans ?_
  rw [List.zipIdx_map, List.flatMap_map]
  have same : ∀ b ∈ children.zipIdx,
      g ((children[b.2]?.map isAnnotatedBlock).getD false) (markersOf b.1.markdown) =
        g (isAnnotatedBlock b.1) (markersOf b.1.markdown) := by
    intro b hb
    rw [List.mem_zipIdx_iff_getElem?.mp hb]
    rfl
  have first := List.flatMap_map Prod.fst
    (fun f : Fragment => g (isAnnotatedBlock f) (markersOf f.markdown)) children.zipIdx
  rw [List.zipIdx_map_fst] at first
  rw [first]
  exact List.flatMap_congr same

theorem ownMarkers_childBlocks (children : List Fragment) :
    ownMarkers (childBlocks children) =
      children.flatMap fun f => if isAnnotatedBlock f then [] else markersOf f.markdown := by
  have own (blocks : List (Bool × Text)) :
      ownMarkers blocks = blocks.flatMap fun b => if b.1 then [] else markersOf b.2 := by
    induction blocks with
    | nil => rfl
    | cons b bs ih =>
      obtain ⟨numbered, t⟩ := b
      cases numbered with
      | true => rw [ownMarkers_cons_true, ih]; rfl
      | false => rw [ownMarkers_cons_false, ih]; rfl
  rw [own]
  exact flatMap_childBlocks (g := fun b ms => if b then [] else ms) (by simp) children

/-- The markers of a block, before the lines of its definitions. -/
theorem markersOf_body (base : Nat) (children : List Fragment) :
    markersOf (Text.joinBlocks ((childBlocks children).map
        (writtenBlock base (blockNames children)))) =
      children.flatMap fun f => if isAnnotatedBlock f then markersOf f.markdown
        else (markersOf f.markdown).map (numeralIn base (blockNames children)) := by
  have written (b : Bool × Text) : markersOf (writtenBlock base (blockNames children) b) =
      if b.1 then markersOf b.2
      else (markersOf b.2).map (numeralIn base (blockNames children)) := by
    unfold writtenBlock
    split
    · rfl
    · exact markersOf_relabel (fun d _ => isNumeral_numeralIn _ _ d) b.2
  rw [markersOf_joinBlocks, List.flatMap_map]
  simp only [written]
  exact flatMap_childBlocks
    (g := fun b ms => if b then ms else ms.map (numeralIn base (blockNames children)))
    (by simp) children

/-- A block writes the markers of its body. -/
theorem markersOf_blockFragment (emitting : Bool) (parts lines : List Text) :
    (markersOf (Text.joinBlocks parts)).Sublist
      (markersOf (blockFragment emitting parts lines).markdown) := by
  unfold blockFragment
  generalize Text.joinBlocks parts = body
  split
  · rename_i he
    simp only [Bool.and_eq_true, List.isEmpty_iff] at he
    rw [he.1]
    exact List.nil_sublist _
  · dsimp only
    unfold blockMarkdown
    dsimp only
    rw [markersOf_joinBlocks, List.cons_append, List.flatMap_cons, List.flatMap_append]
    have shown : (markersOf body).Sublist
        ((if body.isEmpty then [] else [body]).flatMap markersOf) := by
      split
      · rename_i he
        rw [List.isEmpty_iff.mp he]
        exact List.nil_sublist _
      · simp
    exact (shown.trans (List.sublist_append_left _ _)).trans (List.sublist_append_right _ _)

end Convert

end Docmark
