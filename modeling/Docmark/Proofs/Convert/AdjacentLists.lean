import Docmark.Proofs.Convert.ListWalk
import Docmark.Proofs.Markdown.BlocksInRow
import Mathlib.Data.List.Chain

/-!
Lists in a row. Of lists of one kind every other one is written with its other markers, so that no
two neighbours share a marker; nothing else in a list is changed.
-/

namespace Docmark

open Markdown Text

/-- What a list of items is converted to, somewhere in a document. -/
def IsListFragment (f : Fragment) : Prop :=
  ∃ (ctx : Context) (levels level : Nat) (n : Node) (s s' : Session), IsListTree n ∧
    walkLevels Registry.standard.settle ctx levels level n s = .ok (f, s')

/--
A block as it stands among others, with its own markers if it is a list. These are the markers that
the list was written with, or all of them switched.
-/
inductive Separated (f : Fragment) : Option (ListKind × List Text) → Text → Prop
  | block (fact : f.fact.listKind? = none) : Separated f none (trimNewlines f.markdown)
  | list {ctx : Context} {column : Nat} {n : Node} {items : List PlacedItem} {kind : ListKind}
      (fact : f.fact.listKind? = some kind) (made : listKindOf n.kind = some kind)
      (listing : IsListing ctx column n items)
      (written : trimNewlines f.markdown = unlines (items.flatMap (PlacedItem.lines column)))
      {shown : List PlacedItem} (form : shown = items ∨ shown = items.map PlacedItem.switch) :
      Separated f (some (kind, shown.map PlacedItem.marker))
        (unlines (shown.flatMap (PlacedItem.lines column)))

/-- Two lists of one kind have no marker with the same bullet or delimiter. -/
def MarkedApart (a b : Option (ListKind × List Text)) : Prop :=
  ∀ kind ms ms', a = some (kind, ms) → b = some (kind, ms') →
    ∀ m ∈ ms, ∀ m' ∈ ms', m.getLast? ≠ m'.getLast?

/-- The bullet or the delimiter of a list. -/
def markerEnd (kind : ListKind) (other : Bool) : Char :=
  match kind with
  | .bullet => if other then '*' else '-'
  | .ordered | .named _ => if other then ')' else '.'

theorem markerEnd_ne {kind : ListKind} {a b : Bool} (h : a ≠ b) :
    markerEnd kind a ≠ markerEnd kind b := by
  cases kind <;> cases a <;> cases b <;> simp_all [markerEnd]

theorem HasMarkers.getLast? {n : Node} {other : Bool} {ms : List Text} (h : HasMarkers n other ms)
    {kind : ListKind} (made : listKindOf n.kind = some kind) {m : Text} (hm : m ∈ ms) :
    m.getLast? = some (markerEnd kind other) := by
  cases h with
  | bullet list =>
    obtain ⟨c, -, rfl⟩ := List.mem_map.mp hm
    rw [list] at made
    cases made
    rfl
  | ordered list =>
    obtain ⟨number, -, rfl⟩ := List.mem_map.mp hm
    rw [list] at made
    cases made
    exact List.getLast?_concat

/-- What the pass over the blocks keeps of the last one: its kind and the form of its markers. -/
structure Remembers (before : Option ListKind × Bool) (mark : Option (ListKind × List Text)) :
    Prop where
  kind : mark.map Prod.fst = before.1
  form : ∀ kind ms, mark = some (kind, ms) → ∀ m ∈ ms, m.getLast? = some (markerEnd kind before.2)

/-- A list that is not blank is separated from the blocks around it. -/
theorem IsListFragment.separated {f : Fragment} (h : IsListFragment f) {kind : ListKind}
    (fact : f.fact.listKind? = some kind) (shown : isBlank f.markdown = false) (switched : Bool) :
    ∃ ms, Separated f (some (kind, ms)) (f.block.written switched) ∧
      Remembers (some kind, switched) (some (kind, ms)) := by
  obtain ⟨ctx, levels, level, n, s, s', tree, run⟩ := h
  obtain ⟨items, listing, markdown, same⟩ := walk_listing tree run
  have made : listKindOf n.kind = some kind := same.symm.trans fact
  have ne : items.flatMap (PlacedItem.lines (2 * level)) ≠ [] := by
    intro none
    rw [markdown, none] at shown
    cases shown
  have clean : ∀ l ∈ items.flatMap (PlacedItem.lines (2 * level)), '\n' ∉ l :=
    fun _ hl => listing.listAt.newline hl
  have whole : trimNewlines f.markdown =
      unlines (items.flatMap (PlacedItem.lines (2 * level))) := by
    rw [markdown]
    exact trimNewlines_of_framed (by rw [lines_unlines ne clean]; exact listing.framed)
  cases switched with
  | false =>
    refine ⟨items.map PlacedItem.marker, ?_, rfl, ?_⟩
    · rw [Block.written_false, Fragment.block, whole]
      exact .list fact made listing whole (Or.inl rfl)
    · intro k ms he m hm
      obtain ⟨rfl, rfl⟩ := Prod.mk.inj (Option.some.inj he)
      exact listing.markers.getLast? made hm
  | true =>
    have text : f.block.written true =
        unlines ((items.map PlacedItem.switch).flatMap (PlacedItem.lines (2 * level))) := by
      rw [← map_switchLine_items listing.markers
        (fun i hi _ hl => (listing.placed i hi).below hl) made,
        ← listing.listAt.switchMarkers ne kind, ← whole]
      simp only [Block.written, Fragment.block, fact, ↓reduceIte]
    refine ⟨(items.map PlacedItem.switch).map PlacedItem.marker, ?_, rfl, ?_⟩
    · rw [text]
      exact .list fact made listing whole (Or.inr rfl)
    · intro k ms he m hm
      obtain ⟨rfl, rfl⟩ := Prod.mk.inj (Option.some.inj he)
      have other := listing.markers.other
      rw [List.map_map] at other hm
      exact other.getLast? made hm

/-- The next block in a row, and what is kept of it. -/
theorem exists_separated {f : Fragment} (list : f.fact.listKind? ≠ none → IsListFragment f)
    (shown : isBlank f.markdown = false) {before : Option ListKind × Bool}
    {mark : Option (ListKind × List Text)} (last : Remembers before mark) :
    ∃ mark', Separated f mark' (f.block.written (f.block.switches before)) ∧
      Remembers (f.block.list, f.block.switches before) mark' ∧ MarkedApart mark mark' := by
  have own : f.block.list = f.fact.listKind? := rfl
  cases fact : f.fact.listKind? with
  | none =>
    refine ⟨none, ?_, ⟨?_, by simp⟩, fun kind ms ms' _ h => by cases h⟩
    · rw [Block.written_of_plain fact]
      exact .block fact
    · rw [own, fact]
      rfl
  | some kind =>
    obtain ⟨ms, separated, kept⟩ := (list (by simp [fact])).separated fact shown
      (f.block.switches before)
    refine ⟨some (kind, ms), separated, ?_, ?_⟩
    · rw [own, fact]
      exact kept
    -- The block before is of the same kind: it is switched just where this one is not.
    · rintro k ms₁ ms₂ rfl he m hm m' hm' same
      obtain ⟨rfl, rfl⟩ := Prod.mk.inj (Option.some.inj he)
      have again : before.1 = some kind := last.kind.symm
      rw [last.form kind ms₁ rfl m hm, kept.form kind ms rfl m' hm', Option.some_inj] at same
      refine markerEnd_ne ?_ same
      simp [Block.switches, own, fact, again]

theorem separateFrom_apart {fs : List Fragment}
    (lists : ∀ f ∈ fs, f.fact.listKind? ≠ none → IsListFragment f) (pre : List Fragment)
    {before : Option ListKind × Bool} {mark : Option (ListKind × List Text)}
    (last : Remembers before mark) :
    (separateFrom pre.length before (fs.map Fragment.block)).map Prod.fst =
        fs.findIdxs (fun f => !isBlank f.markdown) pre.length ∧
      ∃ marks, List.Forall₂ (fun p mark => ∃ f, (pre ++ fs)[p.1]? = some f ∧ Separated f mark p.2)
          (separateFrom pre.length before (fs.map Fragment.block)) marks ∧
        (mark :: marks).IsChain MarkedApart := by
  induction fs generalizing pre before mark with
  | nil => exact ⟨rfl, [], .nil, .singleton _⟩
  | cons f fs ih =>
    have others : ∀ g ∈ fs, g.fact.listKind? ≠ none → IsListFragment g :=
      fun g hg => lists g (by simp [hg])
    have place : (pre ++ f :: fs)[pre.length]? = some f := by simp
    have shift : pre ++ f :: fs = (pre ++ [f]) ++ fs := by simp
    have next : pre.length + 1 = (pre ++ [f]).length := by simp
    rw [List.map_cons, List.findIdxs_cons]
    cases blank : isBlank f.markdown with
    | true =>
      rw [separateFrom_cons_of_blank blank, next, shift]
      exact ih others (pre ++ [f]) last
    | false =>
      obtain ⟨mark', separated, kept, apart⟩ := exists_separated (lists f (by simp)) blank last
      obtain ⟨indices, marks, rest, chain⟩ := ih others (pre ++ [f]) kept
      rw [separateFrom_cons_of_shown blank, List.map_cons, next, indices]
      refine ⟨rfl, mark' :: marks, .cons ⟨f, place, separated⟩ ?_, .cons_cons apart chain⟩
      rw [shift]
      exact rest

/--
Blocks in a row are those that are not blank, at their places. Each is as it was converted, but for
the markers of a list, which may all be switched; neighbours that are lists of one kind have
different markers.
-/
theorem separateLists_apart {fs : List Fragment}
    (lists : ∀ f ∈ fs, f.fact.listKind? ≠ none → IsListFragment f) :
    (separateLists (fs.map Fragment.block)).map Prod.fst =
        fs.findIdxs (fun f => !isBlank f.markdown) ∧
      ∃ marks, List.Forall₂ (fun p mark => ∃ f, fs[p.1]? = some f ∧ Separated f mark p.2)
          (separateLists (fs.map Fragment.block)) marks ∧
        marks.IsChain MarkedApart := by
  have start : Remembers (none, false) none := ⟨rfl, by simp⟩
  obtain ⟨indices, marks, each, chain⟩ := separateFrom_apart lists [] start
  exact ⟨indices, marks, each, chain.tail⟩

/-- A list of an item with a line that looks like an item of its own. -/
def dashedList : Node :=
  .bulletListOf [.listItemOf [.codeOf "- x"]]

theorem dashedList_apart : ∃ f s, walk Registry.standard {} 0 dashedList {} = .ok (f, s) ∧
    (∀ g ∈ [f, .empty, f, f], g.fact.listKind? ≠ none → IsListFragment g) ∧
    (separateLists ([f, .empty, f, f].map Fragment.block)).map Prod.fst =
      [f, .empty, f, f].findIdxs (fun g => !isBlank g.markdown) ∧
    ∃ marks, List.Forall₂ (fun p mark => ∃ g, [f, .empty, f, f][p.1]? = some g ∧
        Separated g mark p.2) (separateLists ([f, .empty, f, f].map Fragment.block)) marks ∧
      marks.IsChain MarkedApart := by
  have tree : IsListTree dashedList := by
    refine .intro rfl (fun i hi => ?_) (fun i hi c hc _ code => ?_)
    all_goals obtain rfl := List.mem_singleton.mp hi
    · rfl
    · obtain rfl := List.mem_singleton.mp hc
      exact absurd rfl code
  obtain ⟨⟨f, s⟩, run⟩ := exists_ok
    (x := walk Registry.standard {} 0 dashedList {}) (by decide +kernel)
  have list : IsListFragment f := ⟨_, _, 0, _, _, _, tree, run⟩
  have lists : ∀ g ∈ [f, .empty, f, f], g.fact.listKind? ≠ none → IsListFragment g := by
    intro g hg kind
    simp only [List.mem_cons, List.not_mem_nil, or_false] at hg
    rcases hg with rfl | rfl | rfl | rfl
    all_goals first | exact list | exact absurd rfl kind
  exact ⟨f, s, run, lists, separateLists_apart lists⟩

end Docmark
