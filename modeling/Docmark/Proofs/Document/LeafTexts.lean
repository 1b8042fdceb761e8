import Docmark.Proofs.Document.Height
import Docmark.Proofs.Text.Insertion

/-!
The text of a tree is that of its leaves in document order. A separator stands in it once at each
place where a paragraph or heading below the root ends.
-/

namespace Docmark.Node

/-- A node lies so many levels below another one. -/
inductive Below : Node → Nat → Node → Prop
  | here (n : Node) : Below n 0 n
  | inside {n c m : Node} {k : Nat} (child : c ∈ n.children) (deeper : Below c k m) :
      Below n (k + 1) m

/-- Some node of the tree lies deeper than a limit. -/
def Exceeds (n : Node) (limit : Int) : Prop :=
  ∃ k m, n.Below k m ∧ limit < k

/-- The text of a node that has one and has no children. -/
def leafText (n : Node) : Text :=
  match n.text, n.children with
  | some t, [] => t.toList
  | _, _ => []

def leafTexts (ns : List Node) : Text :=
  ns.flatMap leafText

/-- The text of a node and of all nodes below it. -/
def subtreeText (n : Node) : Text :=
  leafTexts (n :: n.descendants)

/--
Where the texts of paragraphs and headings end, with all that is below these. The nodes are in
document order, and their texts begin at the offset `start`.
-/
def blockEnds (start : Nat) : List Node → List Nat
  | [] => []
  | n :: ns =>
    (if n.isTextBlock then [start + n.subtreeText.length] else []) ++
      blockEnds (start + n.leafText.length) ns

/-- Holds of all trees in a row if it holds of those below the first one and of those after it. -/
@[elab_as_elim]
theorem forestInduction {P : List Node → Prop} (nil : P [])
    (cons : ∀ n ns, P n.children → P ns → P (n :: ns)) : ∀ ns, P ns
  | [] => nil
  | ⟨tag, attributes, children, text, marks⟩ :: ns =>
    cons ⟨tag, attributes, children, text, marks⟩ ns (forestInduction nil cons children)
      (forestInduction nil cons ns)

theorem descendants_eq (n : Node) : n.descendants = forest n.children := by
  cases n
  rw [descendants]

theorem le_height_iff {n : Node} {k : Nat} : k ≤ n.height ↔ ∃ m, n.Below k m := by
  induction k generalizing n with
  | zero => exact ⟨fun _ => ⟨n, .here n⟩, fun _ => Nat.zero_le _⟩
  | succ k ih =>
    rw [Nat.succ_le_iff, lt_height_iff]
    constructor
    · rintro ⟨c, child, low⟩
      obtain ⟨m, deeper⟩ := ih.mp low
      exact ⟨m, .inside child deeper⟩
    · rintro ⟨m, _ | ⟨child, deeper⟩⟩
      exact ⟨_, child, ih.mpr ⟨m, deeper⟩⟩

theorem exceeds_iff {n : Node} {limit : Int} :
    n.Exceeds limit ↔ (Ceiling.whole limit).levels ≤ n.height := by
  rw [le_height_iff]
  constructor
  · rintro ⟨k, m, below, deep⟩
    refine le_height_iff.mp (Nat.le_trans ?_ (le_height_iff.mpr ⟨m, below⟩))
    rw [Ceiling.levels]
    omega
  · rintro ⟨m, below⟩
    refine ⟨_, m, below, ?_⟩
    rw [Ceiling.levels]
    omega

theorem leafTexts_append (ns ms : List Node) :
    leafTexts (ns ++ ms) = leafTexts ns ++ leafTexts ms :=
  List.flatMap_append

theorem subtreeText_eq (n : Node) : n.subtreeText = n.leafText ++ leafTexts n.descendants :=
  List.flatMap_cons

theorem leafTexts_forest_cons (n : Node) (ns : List Node) :
    leafTexts (forest (n :: ns)) = n.subtreeText ++ leafTexts (forest ns) := by
  rw [forest, leafTexts_append, subtreeText]

theorem blockEnds_append (start : Nat) (ns ms : List Node) :
    blockEnds start (ns ++ ms) =
      blockEnds start ns ++ blockEnds (start + (leafTexts ns).length) ms := by
  induction ns generalizing start with
  | nil => rfl
  | cons n ns ih =>
    have next : start + (leafTexts (n :: ns)).length =
        start + n.leafText.length + (leafTexts ns).length := by
      rw [leafTexts, List.flatMap_cons, List.length_append, leafTexts, Nat.add_assoc]
    rw [List.cons_append, blockEnds, blockEnds, ih, List.append_assoc, next]

theorem blockEnds_forest_cons (start : Nat) (n : Node) (ns : List Node) :
    blockEnds start (forest (n :: ns)) =
      ((if n.isTextBlock then [start + n.subtreeText.length] else []) ++
        blockEnds (start + n.leafText.length) n.descendants) ++
        blockEnds (start + n.subtreeText.length) (forest ns) := by
  have next : start + n.leafText.length + (leafTexts n.descendants).length =
      start + n.subtreeText.length := by
    rw [subtreeText_eq, List.length_append, Nat.add_assoc]
  rw [forest, List.cons_append, blockEnds, blockEnds_append, next, List.append_assoc]

theorem le_of_mem_blockEnds {start o : Nat} {ns : List Node} (h : o ∈ blockEnds start ns) :
    start ≤ o := by
  induction ns generalizing start with
  | nil => cases h
  | cons n ns ih =>
    rcases List.mem_append.mp h with own | later
    · split at own
      · rw [List.mem_singleton.mp own]
        exact Nat.le_add_right _ _
      · cases own
    · exact Nat.le_trans (Nat.le_add_right _ _) (ih later)

/-- Nothing below some nodes ends later than their whole text. -/
theorem blockEnds_forest_le (ns : List Node) {start o : Nat}
    (h : o ∈ blockEnds start (forest ns)) : o ≤ start + (leafTexts (forest ns)).length := by
  induction ns using forestInduction generalizing start with
  | nil => cases h
  | cons n ns below after =>
    rw [blockEnds_forest_cons] at h
    rw [leafTexts_forest_cons, List.length_append]
    have inner := subtreeText_eq n
    have length := congrArg List.length inner
    rw [List.length_append, descendants_eq] at length
    rcases List.mem_append.mp h with first | later
    · rcases List.mem_append.mp first with own | deeper
      · split at own
        · rw [List.mem_singleton.mp own]
          omega
        · cases own
      · rw [descendants_eq] at deeper
        have := below deeper
        omega
    · have := after later
      omega

/-- The text of the subtrees of some nodes, and a separator behind each that is a text block. -/
theorem insertFrom_forest_cons (separator : Text) (start : Nat) (n : Node) (ns : List Node) :
    Text.insertFrom separator (blockEnds start (forest (n :: ns))) start
        (leafTexts (forest (n :: ns))) =
      (Text.insertFrom separator (blockEnds (start + n.leafText.length) n.descendants) start
          n.subtreeText ++ (if n.isTextBlock then separator else [])) ++
        Text.insertFrom separator (blockEnds (start + n.subtreeText.length) (forest ns))
          (start + n.subtreeText.length) (leafTexts (forest ns)) := by
  have within : ∀ o ∈ blockEnds (start + n.leafText.length) n.descendants,
      o ≤ start + n.subtreeText.length := by
    intro o ho
    rw [descendants_eq] at ho
    have := blockEnds_forest_le n.children ho
    rwa [← descendants_eq, Nat.add_assoc, ← List.length_append, ← subtreeText_eq] at this
  rw [blockEnds_forest_cons, leafTexts_forest_cons, Text.insertFrom_append]
  · congr 1
    split
    · exact Text.insertFrom_end within
    · rw [List.nil_append, List.append_nil]
  · intro o ho
    rcases List.mem_append.mp ho with own | deeper
    · split at own
      · exact Nat.le_of_eq (List.mem_singleton.mp own)
      · cases own
    · exact within o deeper
  · exact fun o ho => le_of_mem_blockEnds ho

/-- Nodes in a row, each read by itself with a separator behind a text block. -/
theorem flatten_eq_insertFrom {separator : Text} {extract : Node → Except TooDeep Text}
    (each : ∀ {n t}, extract n = .ok t → ∀ start, t = Text.insertFrom separator
      (blockEnds (start + n.leafText.length) n.descendants) start n.subtreeText)
    {ns : List Node} {parts : List Text}
    (h : List.Forall₂ (fun n part => (do
      let part ← extract n
      return if n.isTextBlock then part ++ separator else part) = Except.ok part) ns parts)
    (start : Nat) :
    parts.flatten =
      Text.insertFrom separator (blockEnds start (forest ns)) start (leafTexts (forest ns)) := by
  induction h generalizing start with
  | nil => simp [forest, blockEnds, leafTexts, Text.insertFrom]
  | @cons n part ns parts first _ rest =>
    obtain ⟨own, extracted, written⟩ := bind_eq_ok.mp first
    cases written
    rw [insertFrom_forest_cons, ← rest, ← each extracted, List.flatten_cons]
    split
    · rfl
    · rw [List.append_nil]

/-- What is extracted is the text of the leaves with separators where text blocks end. -/
theorem eq_insertFrom_of_extractLevels {limit : Ceiling} {separator : Text} {levels : Nat}
    {n : Node} {t : Text} (h : extractLevels limit separator levels n = .ok t) (start : Nat) :
    t = Text.insertFrom separator (blockEnds (start + n.leafText.length) n.descendants) start
      n.subtreeText := by
  induction levels generalizing n t start with
  | zero => cases h
  | succ levels ih =>
    rw [extractLevels] at h
    split at h
    · rename_i own text none
      have leaf : n.leafText = own.toList := by rw [leafText, text, none]
      cases h
      rw [subtreeText_eq, descendants_eq, none, leaf]
      simp [forest, blockEnds, leafTexts, Text.insertFrom_no_offsets]
    · rename_i inner
      have bare : n.leafText = [] := by
        rw [leafText]
        split
        · rename_i own text none
          exact absurd none (inner own text)
        · rfl
      obtain ⟨parts, each, joined⟩ := bind_eq_ok.mp h
      cases joined
      rw [subtreeText_eq, bare, descendants_eq]
      exact flatten_eq_insertFrom ih (mapM_eq_ok_iff.mp each) start

/-- A refusal tells the limit, and the tag of a node just beyond it. -/
theorem below_of_extractLevels_error {limit : Ceiling} {separator : Text} {levels : Nat}
    {n : Node} {e : TooDeep} (h : extractLevels limit separator levels n = .error e) :
    e.limit = limit ∧ ∃ m, n.Below levels m ∧ e.tag = m.tag := by
  induction levels generalizing n with
  | zero =>
    cases h
    exact ⟨rfl, n, .here n, rfl⟩
  | succ levels ih =>
    rw [extractLevels] at h
    split at h
    · cases h
    · rcases bind_eq_error.mp h with refused | ⟨parts, -, joined⟩
      · obtain ⟨c, child, hc⟩ := exists_of_mapM_eq_error refused
        rcases bind_eq_error.mp hc with deeper | ⟨part, -, written⟩
        · obtain ⟨same, m, below, tag⟩ := ih deeper
          exact ⟨same, m, .inside child below, tag⟩
        · cases written
      · cases joined

theorem extractText_eq_ok_iff {n : Node} {separator t : Text} {limit : Int} :
    n.extractText separator (.whole limit) = .ok t ↔ ¬ n.Exceeds limit ∧
      t = Text.insertFrom separator (blockEnds n.leafText.length n.descendants) 0
        n.subtreeText := by
  have within : (∃ t, n.extractText separator (.whole limit) = .ok t) ↔ ¬ n.Exceeds limit := by
    rw [exceeds_iff, Nat.not_le]
    exact exists_extractLevels_iff
  constructor
  · intro h
    have := eq_insertFrom_of_extractLevels h 0
    rw [Nat.zero_add] at this
    exact ⟨within.mp ⟨t, h⟩, this⟩
  · rintro ⟨low, rfl⟩
    obtain ⟨u, hu⟩ := within.mpr low
    have := eq_insertFrom_of_extractLevels hu 0
    rw [Nat.zero_add] at this
    rw [hu, this]

/--
The text of a tree is refused just where a node lies deeper than the limit, which the refusal tells
with the tag of such a node. Without separator it is the text of the leaves in document order; a
separator is put into this once for each paragraph and heading below the root, where it ends.
-/
theorem extractText_leafTexts (n : Node) (separator : Text) (limit : Int) :
    ((∃ e, n.extractText separator (.whole limit) = .error e) ↔
      ∃ k m, n.Below k m ∧ limit < k) ∧
    (∀ e, n.extractText separator (.whole limit) = .error e →
      e.limit = .whole limit ∧ ∃ k m, n.Below k m ∧ limit < k ∧ e.tag = m.tag) ∧
    (∀ t, n.extractText [] (.whole limit) = .ok t ↔
      (∀ k m, n.Below k m → k ≤ limit) ∧ t = leafTexts (n :: n.descendants)) ∧
    ∀ t, n.extractText separator (.whole limit) = .ok t ↔
      (∀ k m, n.Below k m → k ≤ limit) ∧
        t = Text.insertFrom separator (blockEnds n.leafText.length n.descendants) 0
          (leafTexts (n :: n.descendants)) := by
  have low : ¬ n.Exceeds limit ↔ ∀ k m, n.Below k m → k ≤ limit := by
    simp only [Exceeds, not_exists, not_and, Int.not_lt]
  refine ⟨?_, fun e refused => ?_, fun t => ?_, fun t => ?_⟩
  · change _ ↔ n.Exceeds limit
    rw [← not_iff_not, low]
    constructor
    · intro accepted
      cases h : n.extractText separator (.whole limit) with
      | error e => exact absurd ⟨e, h⟩ accepted
      | ok t => exact low.mp (extractText_eq_ok_iff.mp h).1
    · rintro shallow ⟨e, refused⟩
      rw [extractText_eq_ok_iff.mpr ⟨low.mpr shallow, rfl⟩] at refused
      cases refused
  · obtain ⟨same, m, below, tag⟩ := below_of_extractLevels_error refused
    refine ⟨same, _, m, below, ?_, tag⟩
    rw [Ceiling.levels]
    omega
  · rw [extractText_eq_ok_iff, low, Text.insertFrom_empty, subtreeText]
  · rw [extractText_eq_ok_iff, low, subtreeText]

/-- An empty paragraph has its separator, and the text of a node with children is not read. -/
example : Node.extractText ⟨"doc", [], [
    ⟨"paragraph", [], [⟨"text", [], [], some "ab", []⟩], none, []⟩,
    ⟨"blockquote", [], [⟨"paragraph", [], [], none, []⟩], some "unread", []⟩,
    ⟨"text", [], [], some "c", []⟩], none, []⟩ ['|'] (.whole 2) = .ok "ab||c".toList := by
  rfl

end Docmark.Node
