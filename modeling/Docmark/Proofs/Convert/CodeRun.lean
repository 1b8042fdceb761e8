import Docmark.Proofs.Convert.Run
import Docmark.Proofs.Markdown.CodeSpan

/-!
Runs of code in a text. Their Markdown is a code span and nothing else, which reads back as the run
unless its backticks or its spaces are taken for those of the span.
-/

namespace Docmark

open Markdown

/-- A run of code is a code span whatever its other marks and the options are. -/
theorem codeRun_converter (ctx : Context) {n : Node} (code : n.hasMark .code = true)
    (unlinked : n.findMark .link = none) {t : String} (text : n.text = some t) (filled : t ≠ "")
    (children : List Fragment) (level : Int) (s : Session) :
    Convert.text ctx n children level s = .ok (⟨codeSpan t.toList, .plain⟩, s) := by
  have nonempty : t.isEmpty = false := by simpa using filled
  simp only [Convert.text, text, nonempty, unlinked, Convert.runMarkdown, code,
    Bool.false_eq_true, ↓reduceIte]
  rfl

/--
A run of code is converted wherever its children are. It reads back just where it has no run of two
backticks in it or, without any backtick, no space at both ends around something else.
-/
theorem walk_codeRun_reads (ctx : Context) {n : Node} (kind : n.kind = .text)
    (code : n.hasMark .code = true) (unlinked : n.findMark .link = none) {t : String}
    (text : n.text = some t) (filled : t ≠ "") (line : '\n' ∉ t.toList) (level : Int)
    (s : Session) :
    (∀ below children s₁, n.children.mapM
        (walkLevels Registry.standard.settle ctx below (n.kind.childLevel level)) s =
          .ok (children, s₁) →
      ∃ f, walkLevels Registry.standard.settle ctx (below + 1) level n s = .ok (f, s₁)) ∧
    ∀ levels f s', walkLevels Registry.standard.settle ctx levels level n s = .ok (f, s') →
      (readCodeSpan f.markdown = some (t.toList, []) ↔
        if backtick ∈ t.toList then 2 ∉ runs t.toList else isPadded t.toList = false) := by
  have registered : (Registry.standard.settle.get n.kind).1 = some Convert.text := by
    rw [kind]
    rfl
  have converts := codeRun_converter ctx code unlinked text filled
  constructor
  · intro below children s₁ converted
    exact ⟨_, (walkLevels_run registered converted).trans (converts children level s₁)⟩
  · intro levels f s' run
    cases levels with
    | zero => simp [walkLevels] at run
    | succ below =>
      rcases walkLevels_ok run with ⟨none, -, -⟩ | ⟨convert, children, s₁, found, -, made⟩
      · simp [registered] at none
      · rw [registered] at found
        cases found
        rw [converts] at made
        cases made
        exact readCodeSpan_codeSpan_iff (by simpa using filled) line

/-- A run of code, in bold as well. -/
def codeRun (t : String) : Node :=
  ⟨"text", [], [], some t, [⟨"code", []⟩, ⟨"strong", []⟩]⟩

/-- Backticks at both ends, and runs of one and of three, are kept apart from those of the span. -/
theorem tickedRun_reads :
    (codeRun "`a```b `").hasMark .code = true ∧ (codeRun "`a```b `").findMark .link = none ∧
      ∃ f s, walkLevels Registry.standard.settle {} 1 0 (codeRun "`a```b `") {} = .ok (f, s) ∧
        readCodeSpan f.markdown = some ("`a```b `".toList, []) := by
  have unlinked : (codeRun "`a```b `").findMark .link = none := by decide
  obtain ⟨converted, reads⟩ := walk_codeRun_reads {} (n := codeRun "`a```b `") rfl rfl
    unlinked rfl (by decide) (by decide) 0 {}
  obtain ⟨f, run⟩ := converted 0 [] {} rfl
  exact ⟨rfl, unlinked, f, {}, run, (reads 1 f {} run).mpr (by decide)⟩

/-- Two backticks in a run end the span, and what follows them is no code any more. -/
theorem doubledRun_splits :
    ∃ f s, walkLevels Registry.standard.settle {} 1 0 (codeRun "a``b") {} = .ok (f, s) ∧
      readCodeSpan f.markdown = some (" a".toList, "b ``".toList) ∧
      readCodeSpan f.markdown ≠ some ("a``b".toList, []) := by
  refine ⟨⟨codeSpan "a``b".toList, .plain⟩, {}, rfl, ?_, ?_⟩
  · decide
  · decide

end Docmark
