import Docmark.Convert.Document
import Docmark.Proofs.Convert.Conversion
import Docmark.Proofs.Convert.ItemContent
import Docmark.Proofs.Document.Annotated
import Docmark.Proofs.Markdown.BlocksInRow

/-!
A list right below a paragraph in an item. Without a blank line between them the list has to
interrupt the paragraph: its first line has to be a bullet or the number 1 with something behind it.
It is so just where the first item of the list does not begin with a list of its own and is not
empty.
-/

namespace Docmark

open Markdown Text Conversion

/--
A line that begins a list below the text of a paragraph: an item with a bullet or the number 1 that
is not empty.
-/
inductive InterruptsParagraph : Text → Prop
  | bullet (column : Nat) {c : Char} (mark : c ∈ ['-', '+', '*']) {rest : Text}
      (shown : isBlank rest = false) : InterruptsParagraph (spaces column ++ c :: ' ' :: rest)
  | one (column : Nat) {c : Char} (mark : c ∈ ['.', ')']) {rest : Text}
      (shown : isBlank rest = false) :
    InterruptsParagraph (spaces column ++ '1' :: c :: ' ' :: rest)

theorem InterruptsParagraph.space {line : Text} (h : InterruptsParagraph line) :
    ' ' ∈ line.dropWhile isBlankChar := by
  cases h with
  | bullet column mark =>
    have shown {c : Char} (hc : c ∈ ['-', '+', '*']) : isBlankChar c = false := by
      simp only [List.mem_cons, List.not_mem_nil, or_false] at hc
      rcases hc with rfl | rfl | rfl <;> decide
    rw [dropWhile_spaces_append, List.dropWhile_cons_of_neg (by simp [shown mark])]
    simp
  | one column mark =>
    rw [dropWhile_spaces_append, List.dropWhile_cons_of_neg (by decide)]
    simp

/-- The content of an item begins with a line that belongs to no list inside it. -/
def Markdown.ListItem.Leads (item : ListItem) : Prop :=
  ∃ line rest, item.shown = (false, line) :: rest

theorem interruptsParagraph_iff {marker : Text} (mark : marker = ['-'] ∨ marker = ['1', '.'])
    (column : Nat) (item : ListItem) :
    InterruptsParagraph (spaces column ++ marker ++ besideMarker item.shown) ↔ item.Leads := by
  have bare : ¬ InterruptsParagraph (spaces column ++ marker ++ []) := by
    intro h
    have := h.space
    rw [List.append_nil, dropWhile_spaces_append] at this
    rcases mark with rfl | rfl
    all_goals
      revert this
      decide
  constructor
  · intro h
    match hs : item.shown with
    | [] =>
      rw [hs] at h
      exact absurd h bare
    | (true, _) :: _ =>
      rw [hs] at h
      exact absurd h bare
    | (false, line) :: rest => exact ⟨line, rest, hs⟩
  · rintro ⟨line, rest, hs⟩
    have shown : isBlank line = false := by
      have := List.head?_dropWhile_not (fun x : Bool × Text => isBlank x.2)
        (markFrom item.nested 0 (lines item.text))
      rw [ListItem.shown] at hs
      rw [hs] at this
      exact this
    rw [hs, List.append_assoc]
    rcases mark with rfl | rfl
    · exact .bullet column (by decide) (by rwa [isBlank_strip])
    · exact .one column (by decide) (by rwa [isBlank_strip])

theorem interruptsParagraph_list {l : Node} (list : l.kind.isList = true) {follows : Bool}
    (h : Convert.interruptsParagraph l = .ok follows) :
    follows = true ↔ l.kind = .bulletList ∨ Convert.orderedStart l = .ok 1 := by
  rcases kind_of_isList list with kind | kind
  · rw [Convert.interruptsParagraph, kind] at h
    simp [kind, (Except.ok.inj h).symm]
  · rw [Convert.interruptsParagraph, kind] at h
    cases start : Convert.orderedStart l with
    | error e => simp [start, Except.map] at h
    | ok number =>
      rw [start] at h
      simp [kind, ← Except.ok.inj h]

/-- The first marker of a list that may follow a paragraph right away. -/
theorem HasMarkers.head_of_interrupts {l : Node} {m : Text} {ms : List Text}
    (h : HasMarkers l false (m :: ms))
    (follows : l.kind = .bulletList ∨ Convert.orderedStart l = .ok 1) :
    m = ['-'] ∨ m = ['1', '.'] := by
  generalize hw : m :: ms = written at h
  cases h with
  | bullet kind =>
    have mem : m ∈ l.children.map fun _ => ['-'] := by
      have := List.mem_cons_self (a := m) (l := ms)
      rwa [hw] at this
    obtain ⟨-, -, rfl⟩ := List.mem_map.mp mem
    exact Or.inl rfl
  | @ordered kind start first =>
    have one : start = 1 := by simpa [kind, first] using follows
    cases children : l.children with
    | nil => simp [children] at hw
    | cons c cs =>
      rw [children, List.length_cons, List.range'_succ, List.map_cons, one] at hw
      exact Or.inr ((List.cons.inj hw).1.trans (by decide))

/-- The first of the children of an item that is not blank. -/
def firstShown? (ns : List Node) (fs : List Fragment) : Option Node :=
  ((ns.zip fs).find? fun x => !isBlank x.2.markdown).map Prod.fst

theorem head?_keptBlocks {ns : List Node} {fs : List Fragment} (same : fs.length = ns.length)
    (before : Option ListKind × Bool) :
    (Convert.keptBlocks before ns fs).head?.map Prod.fst = firstShown? ns fs := by
  induction fs generalizing ns with
  | nil =>
    rw [List.length_eq_zero_iff.mp same.symm]
    rfl
  | cons f fs ih =>
    obtain ⟨n, ns, rfl⟩ := List.exists_cons_of_length_eq_add_one same.symm
    rw [firstShown?, List.zip_cons_cons, List.find?_cons]
    cases blank : isBlank f.markdown with
    | true =>
      rw [Convert.keptBlocks_of_blank blank]
      exact ih (Nat.succ.inj same)
    | false =>
      rw [Convert.keptBlocks_of_shown blank]
      rfl

/-- The first line of a block that is not blank has the mark of the block, whatever is below. -/
theorem exists_marked_line {t : Text} (shown : isBlank t = false) (mark : Bool)
    (rest : MarkedLines) :
    ∃ line below, ((lines t).map (fun l => (mark, l)) ++ rest).dropWhile (fun x => isBlank x.2) =
      (mark, line) :: below := by
  rw [Bool.eq_false_iff, ne_eq, isBlank_iff_lines] at shown
  generalize lines t = ls at shown ⊢
  induction ls with
  | nil => exact absurd (by simp) shown
  | cons l ls ih =>
    rw [List.map_cons, List.cons_append, List.dropWhile_cons]
    cases hl : isBlank l with
    | true => exact ih fun blank => shown (List.forall_mem_cons.mpr ⟨hl, blank⟩)
    | false => exact ⟨l, _, rfl⟩

/-- Content put together from blocks begins with a list where the first block is one. -/
theorem Convert.ItemText.leads_iff {bs : List (Node × Text)}
    (shown : ∀ b ∈ bs, isBlank b.2 = false) {item : ItemText} (run : addAll {} bs = .ok item)
    (level : Int) : (ListItem.mk item.text level item.nested).Leads ↔
      ∃ b, bs.head? = some b ∧ b.1.kind.isList = false := by
  have filled : ∀ b ∈ bs, b.2 ≠ [] := fun b hb => ne_nil_of_not_isBlank (shown b hb)
  match bs with
  | [] =>
    cases run
    constructor
    · rintro ⟨line, rest, hs⟩
      cases hs
    · rintro ⟨b, hb, -⟩
      cases hb
  | b :: bs =>
    obtain ⟨next, added, rest⟩ := addAll_cons_ok.mp run
    obtain ⟨gap, front, body, recorded⟩ :=
      body_add added recorded_empty (filled b (by simp))
    obtain ⟨⟨tail, whole⟩, -⟩ := prefix_body (fun c hc => filled c (by simp [hc])) recorded rest
    have own : next.body = (lines b.2).map fun l => (b.1.kind.isList, l) := by
      rw [body, front rfl]
      rfl
    -- The first line of the first block that is not blank is that of the whole content.
    obtain ⟨line, below, first⟩ := exists_marked_line (shown b (by simp)) b.1.kind.isList tail
    rw [← own, whole] at first
    have text : item.text ≠ [] := by
      intro empty
      rw [ItemText.body_eq_nil_iff.mpr empty] at first
      cases first
    have begins : (ListItem.mk item.text level item.nested).shown =
        (b.1.kind.isList, line) :: below := by
      rw [ListItem.shown, ← body_of_ne_nil text]
      exact first
    rw [ListItem.Leads, begins]
    simp

section item

variable {ctx : Context} {level : Int} {n : Node} {f : Fragment}

/-- What an item begins with is decided by the first of its children that is not blank. -/
theorem IsConversion.leads_iff (h : IsConversion ctx level n f) (kind : n.kind = .listItem)
    (column : Int) : ∃ fs, List.Forall₂ (IsConversion ctx (level + 1)) n.children fs ∧
      ((Convert.itemOf column f).Leads ↔
        ∃ c, firstShown? n.children fs = some c ∧ c.kind.isList = false) := by
  obtain ⟨fs, item, children, rfl, added⟩ := h.item kind
  refine ⟨fs, children, ?_⟩
  have first := head?_keptBlocks children.length_eq.symm (none, false)
  rw [Convert.itemOf, Convert.ItemText.leads_iff (fun _ => Convert.isBlank_of_mem_keptBlocks) added,
    ← first]
  simp [Option.map_eq_some_iff]

theorem IsConversion.paragraph (h : IsConversion ctx level n f) (kind : n.kind = .paragraph) :
    f.fact.listKind? = none := by
  obtain ⟨fs, s, s', -, -, made⟩ := h.children (by rw [kind]; rfl)
  obtain ⟨rfl, -⟩ := pure_ok.mp made
  rfl

/-- A list behind a block that is no list keeps its own markers. -/
theorem exists_blocks_of_pair {before : List Node} {gs : List Fragment} {fp fl : Fragment}
    (same : gs.length = before.length) (unlisted : fp.fact.listKind? = none)
    (shown : isBlank fp.markdown = false) (shown' : isBlank fl.markdown = false) (p l : Node)
    (after : List Node) (hs : List Fragment) :
    ∃ as bs, Convert.keptBlocks (none, false) (before ++ p :: l :: after) (gs ++ fp :: fl :: hs) =
      as ++ (p, trimNewlines fp.markdown) :: (l, trimNewlines fl.markdown) :: bs := by
  obtain ⟨as, last, split⟩ :=
    Convert.exists_keptBlocks_append same (p :: l :: after) (fp :: fl :: hs) (none, false)
  have first : fp.block.written (fp.block.switches last) = trimNewlines fp.markdown :=
    Block.written_of_plain unlisted _
  have second (state : Bool) : fl.block.switches (fp.block.list, state) = false := by
    simp only [Block.switches, Fragment.block, unlisted]
    cases fl.fact.listKind? <;> rfl
  rw [split, Convert.keptBlocks_of_shown shown, Convert.keptBlocks_of_shown shown', first, second,
    Block.written_false]
  exact ⟨_, _, rfl⟩

/--
A list behind a paragraph in an item is joined to it without a blank line if it is a bullet list or
begins with the number 1. It interrupts the paragraph then just where the content of its first item
begins with a line of no other list, that is, where the first child of that item that is not blank
is no list.
-/
theorem IsConversion.listBelowParagraph (h : IsConversion ctx level n f) (kind : n.kind = .listItem)
    {before after : List Node} {p l : Node} (children : n.children = before ++ p :: l :: after)
    (paragraph : p.kind = .paragraph) (list : l.kind.isList = true) :
    ∃ fp fl ks, IsConversion ctx (level + 1) p fp ∧ IsConversion ctx (level + 1) l fl ∧
      List.Forall₂ (IsConversion ctx (level + 1)) l.children ks ∧
      (isBlank fp.markdown = false → isBlank fl.markdown = false → ∃ front gap back,
        f.markdown = front ++ trimNewlines fp.markdown ++ gap ++ fl.markdown ++ back ∧
        (gap = ['\n'] ∨ gap = ['\n', '\n']) ∧
        (gap = ['\n'] ↔ l.kind = .bulletList ∨ Convert.orderedStart l = .ok 1) ∧
        (gap = ['\n'] → (InterruptsParagraph ((lines fl.markdown).headD []) ↔
          ∃ k, ks.head? = some k ∧ (Convert.itemOf (level + 1) k).Leads)) ∧
        ∀ i, l.children.head? = some i → i.kind = .listItem →
          ∃ cs, List.Forall₂ (IsConversion ctx (level + 1 + 1)) i.children cs ∧
            (gap = ['\n'] → (InterruptsParagraph ((lines fl.markdown).headD []) ↔
              ∃ c, firstShown? i.children cs = some c ∧ c.kind.isList = false))) := by
  obtain ⟨fs, item, walked, rfl, added⟩ := h.item kind
  rw [children] at walked
  obtain ⟨gs, rest, rfl, front, behind⟩ := forall₂_append_left walked
  obtain ⟨fp, others, walkedP, second, rfl⟩ := List.forall₂_cons_left_iff.mp behind
  obtain ⟨fl, hs, walkedL, -, rfl⟩ := List.forall₂_cons_left_iff.mp second
  obtain ⟨ks, ms, converted, markers, -, markdown, -⟩ := walkedL.list list
  refine ⟨fp, fl, ks, walkedP, walkedL, converted, fun shown shown' => ?_⟩
  obtain ⟨as, bs, blocks⟩ := exists_blocks_of_pair front.length_eq.symm
    (walkedP.paragraph paragraph) shown shown' p l after hs
  have ne : listLines (level + 1) ms ks ≠ [] := by
    intro none
    rw [markdown, none] at shown'
    cases shown'
  obtain ⟨m, ms, k, rfl, firstItem, firstLine⟩ := exists_head_listLines markers _ _ ne
  rw [children, blocks, markdown, trimNewlines_listLines markers, ← markdown] at added
  obtain ⟨above, -, added⟩ := Convert.ItemText.addAll_append_ok.mp added
  obtain ⟨upper, addedP, added⟩ := Convert.ItemText.addAll_cons_ok.mp added
  obtain ⟨lower, addedL, added⟩ := Convert.ItemText.addAll_cons_ok.mp added
  obtain ⟨gap, -, textP, -⟩ := Convert.ItemText.add_gap_ok addedP
  obtain ⟨gap', written, textL, -⟩ := Convert.ItemText.add_gap_ok addedL
  have filled : upper.text ≠ [] := by
    have ne : trimNewlines fp.markdown ≠ [] :=
      ne_nil_of_not_isBlank (by rwa [isBlank_trimNewlines])
    simp [textP, ne]
  have join := Convert.ItemText.gap_ok written
  rw [if_neg filled] at join
  obtain ⟨follows, decided, rfl⟩ := join
  have joined : (if follows then ['\n'] else ['\n', '\n']) = ['\n'] ↔ follows = true := by
    cases follows <;> decide
  have when := interruptsParagraph_list list decided
  have interrupts (hf : follows = true) : InterruptsParagraph ((lines fl.markdown).headD []) ↔
      (Convert.itemOf (level + 1) k).Leads := by
    rw [markdown, lines_unlines_listLines markers _ _ ne, firstLine]
    exact interruptsParagraph_iff (markers.head_of_interrupts (when.mp hf)) _ _
  obtain ⟨back, below⟩ := Convert.ItemText.prefix_addAll added
  refine ⟨above.text ++ gap, _, back, ?_, ?_, joined.trans when, fun hg => ?_, fun i hi item => ?_⟩
  · rw [← below, textL, textP]
  · cases follows <;> simp
  · rw [interrupts (joined.mp hg), firstItem]
    simp
  · obtain ⟨is, items⟩ := List.head?_eq_some_iff.mp hi
    obtain ⟨ks', rfl⟩ := List.head?_eq_some_iff.mp firstItem
    rw [items, List.forall₂_cons] at converted
    obtain ⟨cs, content, leads⟩ := converted.1.leads_iff item (level + 1)
    exact ⟨cs, content, fun hg => (interrupts (joined.mp hg)).trans leads⟩

end item

/-- An item with a paragraph and a list whose only item has the given content. -/
def pairedItem (content : List Node) : Node :=
  .listItemOf [.paragraphOf [.ofText "a"], .bulletListOf [.listItemOf content]]

theorem pairedItem_listBelowParagraph : ∃ f,
    IsConversion {} 0 (pairedItem [.codeOf "x"]) f ∧
    ∃ fp fl ks, IsConversion {} (0 + 1) (.paragraphOf [.ofText "a"]) fp ∧
      IsConversion {} (0 + 1) (.bulletListOf [.listItemOf [.codeOf "x"]]) fl ∧
      List.Forall₂ (IsConversion {} (0 + 1)) [.listItemOf [.codeOf "x"]] ks ∧
      (isBlank fp.markdown = false → isBlank fl.markdown = false → ∃ front gap back,
        f.markdown = front ++ trimNewlines fp.markdown ++ gap ++ fl.markdown ++ back ∧
        (gap = ['\n'] ∨ gap = ['\n', '\n']) ∧
        (gap = ['\n'] ↔ NodeKind.bulletList = .bulletList ∨
          Convert.orderedStart (.bulletListOf [.listItemOf [.codeOf "x"]]) = .ok 1) ∧
        (gap = ['\n'] → (InterruptsParagraph ((lines fl.markdown).headD []) ↔
          ∃ k, ks.head? = some k ∧ (Convert.itemOf (0 + 1) k).Leads)) ∧
        ∀ i, [Node.listItemOf [.codeOf "x"]].head? = some i → i.kind = .listItem →
          ∃ cs, List.Forall₂ (IsConversion {} (0 + 1 + 1)) i.children cs ∧
            (gap = ['\n'] → (InterruptsParagraph ((lines fl.markdown).headD []) ↔
              ∃ c, firstShown? i.children cs = some c ∧ c.kind.isList = false))) := by
  obtain ⟨⟨f, s⟩, run⟩ := exists_ok
    (x := walk Registry.standard {} 0 (pairedItem [.codeOf "x"]) {}) (by decide +kernel)
  have made : IsConversion {} 0 (pairedItem [.codeOf "x"]) f := isConversion_of_walk run
  have children : (pairedItem [.codeOf "x"]).children =
      [] ++ .paragraphOf [.ofText "a"] :: .bulletListOf [.listItemOf [.codeOf "x"]] :: [] := rfl
  exact ⟨f, made, made.listBelowParagraph rfl children rfl rfl⟩

/-- The list of an empty item is joined to the paragraph, which its bare marker does not end. -/
theorem pairedItem_not_interrupted :
    (convertDocument (.tree (.documentOf [.bulletListOf [pairedItem []]]))).toOption.map
        (fun c => lines c.markdown) = some ["- a".toList, "  -".toList] ∧
      ¬ InterruptsParagraph "  -".toList := by
  refine ⟨by decide +kernel, fun h => ?_⟩
  have := h.space
  revert this
  decide

end Docmark
