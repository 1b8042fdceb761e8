import Docmark.Proofs.Convert.Conversion
import Docmark.Proofs.Document.Noted
import Docmark.Proofs.Markdown.BalancedKey

/-!
Property tables whose keys are runs of text, some of them in bold. The key of a line keeps its pairs
of asterisks balanced exactly where one bold run is all of it, or no bold run stands at either end.
-/

namespace Docmark

open Markdown

namespace Node

/-- A run of text with no mark but bold, and no link. -/
structure IsKeyRun (n : Node) : Prop where
  kind : n.kind = .text
  code : n.hasMark .code = false
  em : n.hasMark .em = false
  strike : n.hasMark .strike = false
  unlinked : n.findMark .link = none

/-- A cell of one paragraph of such runs. -/
structure IsKeyCell (n : Node) : Prop where
  kind : n.kind = .tableCell ∨ n.kind = .tableHeader
  holds : ∃ p, n.children = [p] ∧ p.kind = .paragraph ∧ ∀ r ∈ p.children, r.IsKeyRun

def keyRun (n : Node) : KeyRun :=
  ⟨n.hasMark .strong, n.content⟩

/-- The runs in the paragraphs of a cell. -/
def keyRuns (n : Node) : List KeyRun :=
  (n.children.flatMap Node.children).map keyRun

end Node

section conversion

variable {ctx : Context} {level : Int} {n : Node} {f : Fragment}

theorem emphasize_run (h : n.IsKeyRun) (t : Text) :
    Convert.emphasize n t = if n.hasMark .strong then wrap strongMark t else t := by
  unfold Convert.emphasize
  dsimp only
  rw [h.em, h.strike, Bool.and_false, if_neg Bool.false_ne_true, if_neg Bool.false_ne_true,
    if_neg Bool.false_ne_true]
  rfl

theorem IsConversion.keyRun (h : IsConversion ctx level n f)
    (escaping : ctx.options.escapeSpecial = true) (run : n.IsKeyRun) :
    f.markdown = n.keyRun.markdown := by
  have registered : (Registry.standard.settle.get n.kind).1 = some Convert.text := by
    rw [run.kind]
    rfl
  obtain ⟨fs, s, s', -, -, made⟩ := h.children registered
  have nothing : Fragment.empty.markdown = KeyRun.markdown ⟨n.hasMark .strong, []⟩ := by
    cases n.hasMark .strong with
    | false => rfl
    | true => rfl
  rw [Convert.text] at made
  cases text : n.text with
  | none =>
    rw [text] at made
    obtain ⟨rfl, -⟩ := Conversion.pure_ok.mp made
    rw [nothing, Node.keyRun, Node.content, text]
    rfl
  | some t =>
    rw [text] at made
    have content : n.content = t.toList := by
      rw [Node.content, text]
      rfl
    dsimp only at made
    split at made
    · rename_i empty
      obtain ⟨rfl, -⟩ := Conversion.pure_ok.mp made
      rw [nothing, Node.keyRun, content, String.isEmpty_iff.mp empty]
      rfl
    · rw [run.unlinked] at made
      obtain ⟨rfl, -⟩ := Conversion.pure_ok.mp made
      rw [Convert.runMarkdown, run.code, if_neg Bool.false_ne_true, escaping, if_pos rfl,
        emphasize_run run, Node.keyRun, content]
      rfl

theorem joined_keyRuns (escaping : ctx.options.escapeSpecial = true) {ns : List Node}
    {fs : List Fragment} (runs : ∀ r ∈ ns, r.IsKeyRun)
    (h : List.Forall₂ (IsConversion ctx level) ns fs) :
    Fragment.joined fs = keyContent (ns.map Node.keyRun) := by
  induction h with
  | nil => rfl
  | @cons n f ns fs first _ ih =>
    have inner := ih fun r hr => runs r (List.mem_cons_of_mem n hr)
    rw [Fragment.joined, List.flatMap_cons, List.map_cons, keyContent, List.flatMap_cons,
      first.keyRun escaping (runs n List.mem_cons_self)]
    exact congrArg _ inner

/-- What a key cell holds, and what the row has of it. -/
theorem IsConversion.keyCell (h : IsConversion ctx level n f)
    (escaping : ctx.options.escapeSpecial = true) (cell : n.IsKeyCell) :
    f.markdown = keyText n.keyRuns ∧ (Convert.cellOf f).text = f.markdown := by
  obtain ⟨p, holds, paragraph, runs⟩ := cell.holds
  have registered : (Registry.standard.settle.get n.kind).1 = some Convert.tableCell := by
    rcases cell.kind with kind | kind
    all_goals
      rw [kind]
      rfl
  obtain ⟨fs, s, s', children, -, made⟩ := h.children registered
  rw [holds] at children
  cases children with
  | @cons _ g _ gs converted none =>
    cases none
    have block : (Registry.standard.settle.get p.kind).1 = some Convert.paragraph := by
      rw [paragraph]
      rfl
    obtain ⟨ks, t, t', inner, -, written⟩ := converted.children block
    obtain ⟨rfl, -⟩ := Conversion.pure_ok.mp written
    obtain ⟨rfl, -⟩ := Conversion.pure_ok.mp made
    refine ⟨?_, rfl⟩
    rw [Node.keyRuns, holds, List.flatMap_singleton, keyText, ← joined_keyRuns escaping runs inner,
      ← escaping]
    rfl

/-- The first cell of a row. -/
theorem IsConversion.firstCell (h : IsConversion ctx level n f) (kind : n.kind = .tableRow)
    {key : Node} {rest : List Node} (cells : n.children = key :: rest) :
    ∃ inner g others, IsConversion ctx inner key g ∧
      Convert.cellsOf f = Convert.cellOf g :: others := by
  have registered : (Registry.standard.settle.get n.kind).1 = some Convert.tableRow := by
    rw [kind]
    rfl
  obtain ⟨fs, s, s', children, -, made⟩ := h.children registered
  rw [cells] at children
  cases children with
  | @cons _ g _ gs first _ =>
    obtain ⟨rfl, -⟩ := Conversion.pure_ok.mp made
    exact ⟨_, g, _, first, rfl⟩

/-- A property table has a line for each row with cells. -/
theorem IsConversion.propertyRows (h : IsConversion ctx level n f) (kind : n.kind = .table)
    (property : f.fact = .propertyTable) :
    ∃ fs rows, List.Forall₂ (IsConversion ctx (n.kind.childLevel level)) n.children fs ∧
      f.markdown = propertyTable rows ∧ isPropertyTable rows = true ∧
      ∀ g ∈ fs, Convert.cellsOf g ≠ [] → Convert.cellsOf g ∈ rows := by
  have registered : (Registry.standard.settle.get n.kind).1 = some Convert.table := by
    rw [kind]
    rfl
  obtain ⟨fs, s, s', children, -, made⟩ := h.children registered
  obtain ⟨made, -⟩ := Conversion.pure_ok.mp made
  split at made
  · subst made
    cases property
  · split at made
    · rename_i table
      subst made
      refine ⟨fs, _, children, rfl, ((Bool.and_eq_true _ _).mp table).2, ?_⟩
      intro g hg filled
      exact List.mem_filter.mpr ⟨List.mem_map_of_mem hg, by simpa using filled⟩
    · subst made
      cases property

/-- The rows of a property table have two cells. -/
theorem length_of_mem_propertyRows {rows : List (List Cell)} (table : isPropertyTable rows = true)
    {row : List Cell} (hr : row ∈ rows) : row.length = 2 := by
  rw [isPropertyTable, Bool.and_eq_true] at table
  have pair := List.all_eq_true.mp table.2 row hr
  split at pair
  · rfl
  · cases pair

theorem propertyLine_pair (k v : Cell) :
    propertyLine [k, v] = keyPart k.text ++ ' ' :: escapeCell v.text := by
  simp [propertyLine, keyPart, strongMark]

theorem exists_of_forall₂ {α β : Type} {R : α → β → Prop} {as : List α} {bs : List β}
    (h : List.Forall₂ R as bs) {a : α} (ha : a ∈ as) : ∃ b ∈ bs, R a b := by
  induction h with
  | nil => cases ha
  | @cons _ b _ bs first _ ih =>
    rcases List.mem_cons.mp ha with rfl | ha
    · exact ⟨b, List.mem_cons_self, first⟩
    · obtain ⟨b', hb, related⟩ := ih ha
      exact ⟨b', List.mem_cons_of_mem b hb, related⟩

/--
In a property table, each row whose key is made of runs has a line with the key in bold. The pairs
of asterisks of the key are taken off as they belong together, and all others enclose what they did,
exactly where one bold run is all of the key or none stands at an end of it.
-/
theorem IsConversion.propertyKeys (h : IsConversion ctx level n f)
    (escaping : ctx.options.escapeSpecial = true) (kind : n.kind = .table)
    (property : f.fact = .propertyTable) :
    ∃ lines, f.markdown = Text.joinBlocks lines ∧
      ∀ row ∈ n.children, row.kind = .tableRow →
        ∀ key rest, row.children = key :: rest → key.IsKeyCell →
          ∃ inner g value, IsConversion ctx inner key g ∧
            keyPart g.markdown ++ ' ' :: escapeCell value ∈ lines ∧
            (KeepsStrong key.keyRuns g.markdown ↔ EndsAlike key.keyRuns) := by
  obtain ⟨fs, rows, children, written, table, kept⟩ := h.propertyRows kind property
  refine ⟨rows.map propertyLine, written, ?_⟩
  intro row hrow isRow key rest cells isKey
  obtain ⟨r, hr, converted⟩ := exists_of_forall₂ children hrow
  obtain ⟨inner, g, others, first, has⟩ := converted.firstCell isRow cells
  have found := kept r hr (by rw [has]; exact List.cons_ne_nil _ _)
  rw [has] at found
  obtain ⟨v, rfl⟩ : ∃ v, others = [v] :=
    List.length_eq_one_iff.mp (Nat.succ.inj (length_of_mem_propertyRows table found))
  obtain ⟨text, cell⟩ := first.keyCell escaping isKey
  refine ⟨inner, g, v.text, first, ?_, ?_⟩
  · rw [← cell, ← propertyLine_pair]
    exact List.mem_map_of_mem found
  · rw [text]
    exact keepsStrong_iff key.keyRuns

end conversion

/-- A run of text, in bold. -/
def boldRun (s : String) : Node :=
  ⟨"text", [], [], some s, [⟨"strong", []⟩]⟩

def headerOf (runs : List Node) : Node :=
  ⟨"tableHeader", [], [.paragraphOf runs], none, []⟩

/-- A table of one property. -/
def propertyOf (key : List Node) (value : String) : Node :=
  let cell : Node := ⟨"tableCell", [], [.paragraphOf [.ofText value]], none, []⟩
  ⟨"table", [], [⟨"tableRow", [], [headerOf key, cell], none, []⟩], none, []⟩

/-- A bold run in the middle of a key, with an asterisk of its own. -/
def middleKey : List Node :=
  [.ofText "a ", boldRun "b*", .ofText " c"]

theorem middleKey_keys :
    ∃ f lines inner g value, IsConversion {} 0 (propertyOf middleKey "x") f ∧
      f.fact = .propertyTable ∧ f.markdown = Text.joinBlocks lines ∧
      (headerOf middleKey).IsKeyCell ∧ IsConversion {} inner (headerOf middleKey) g ∧
      keyPart g.markdown ++ ' ' :: escapeCell value ∈ lines ∧
      KeepsStrong (headerOf middleKey).keyRuns g.markdown := by
  have walked : walk Registry.standard {} 0 (propertyOf middleKey "x") {} =
      .ok (⟨"**a **b\\*** c:** x".toList, .propertyTable⟩, {}) := rfl
  have isKey : (headerOf middleKey).IsKeyCell := by
    refine ⟨Or.inr rfl, _, rfl, rfl, ?_⟩
    intro r hr
    simp only [Node.paragraphOf, middleKey, List.mem_cons, List.not_mem_nil, or_false] at hr
    rcases hr with rfl | rfl | rfl
    all_goals exact ⟨rfl, rfl, rfl, rfl, rfl⟩
  have alike : EndsAlike (headerOf middleKey).keyRuns := ⟨by decide, Or.inr ⟨rfl, rfl⟩⟩
  have converted := isConversion_of_walk walked
  obtain ⟨lines, written, keys⟩ := converted.propertyKeys rfl rfl rfl
  obtain ⟨inner, g, value, cell, line, balanced⟩ :=
    keys _ (List.mem_singleton_self _) rfl (headerOf middleKey) _ rfl isKey
  exact ⟨_, lines, inner, g, value, converted, rfl, written, isKey, cell, line,
    balanced.mpr alike⟩

/-- A bold run at the start of a key, with another run behind it. -/
def partlyBoldKey : List Node :=
  [boldRun "a", .ofText " b"]

/-- Only the first pair of such a key is taken off, and three are left in its line. -/
theorem partlyBoldKey_unbalanced :
    walk Registry.standard {} 0 (propertyOf partlyBoldKey "x") {} =
        .ok (⟨"**a** b:** x".toList, .propertyTable⟩, {}) ∧
      ∃ f, walk Registry.standard {} 0 (headerOf partlyBoldKey) {} = .ok (f, {}) ∧
        f.markdown = "**a** b".toList ∧ (strongEdges f.markdown).front = strongMark ∧
        (strongEdges f.markdown).back = [] ∧ strongMarks (keyPart f.markdown) = 3 ∧
        ¬ KeepsStrong (headerOf partlyBoldKey).keyRuns f.markdown := by
  refine ⟨rfl, ⟨"**a** b".toList, .cell ⟨"**a** b".toList, true⟩ false⟩, ?_⟩
  refine ⟨rfl, rfl, rfl, rfl, rfl, ?_⟩
  intro keeps
  exact absurd keeps.together (by decide)

end Docmark
