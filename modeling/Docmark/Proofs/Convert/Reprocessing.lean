import Docmark.Proofs.Annotation.Settled
import Docmark.Proofs.Convert.Document

/-!
The Markdown of a document, processed again. Main statement: it stays as it is just where its
annotated blocks count 1, 2, 3 and so on in the order of their markers, and then the definitions
that the conversion kept back are the tooltips of the processed text.
-/

namespace Docmark

open Annotation

/--
The processor leaves the Markdown of a document alone just where it is settled. It then has found no
definition itself, and takes over those of the conversion.
-/
theorem convertDocument_reprocessed {source : Source} {c : Converted}
    (h : convertDocument source = .ok c) :
    ((({} : Processor).process c.markdown).1 = c.markdown ↔ Settled c.markdown) ∧
      (Settled c.markdown → (∀ p ∈ c.annotations, p.1.length ≤ Text.maxDigits) →
        ∃ s, (({} : Processor).process c.markdown).2.state.addDefinitions c.annotations =
            (s, none) ∧
          s.tooltips = c.annotations) := by
  refine ⟨process_eq_self_iff c.markdown, fun settled short => ?_⟩
  obtain ⟨o, n, f, s, -, -, hw, rfl⟩ := convertDocument_ok h
  exact (reached_of_walk hw).sound.tooltips_addDefinitions short (definitions_process settled)

/-- A document with one block, whose definition belongs to its marker. -/
def singleDocument : Node :=
  .documentOf [.blockOf [.paragraphOf [.ofText "A ", .referenceTo "1"],
    .definitionOf "1" [.ofText "one"]]]

theorem singleDocument_reprocessed :
    ∃ c, convertDocument (.tree singleDocument) = .ok c ∧ Settled c.markdown ∧
      (∀ p ∈ c.annotations, p.1.length ≤ Text.maxDigits) ∧
      (({} : Processor).process c.markdown).1 = c.markdown ∧
      ∃ s, (({} : Processor).process c.markdown).2.state.addDefinitions c.annotations =
          (s, none) ∧
        s.tooltips = c.annotations := by
  obtain ⟨c, h⟩ := exists_ok (x := convertDocument (.tree singleDocument)) (by decide +kernel)
  have run : (convertDocument (.tree singleDocument)).toOption.map (fun c =>
      decide ((({} : Processor).process c.markdown).1 = c.markdown) &&
        c.annotations.all fun p => decide (p.1.length ≤ Text.maxDigits)) = some true := by
    decide +kernel
  rw [h] at run
  simp only [Except.toOption, Option.map_some, Option.some.injEq, Bool.and_eq_true,
    decide_eq_true_eq, List.all_eq_true] at run
  obtain ⟨stays_iff, backed⟩ := convertDocument_reprocessed h
  have settled := stays_iff.mp run.1
  exact ⟨c, h, settled, run.2, run.1, backed settled run.2⟩

/-- A document with two blocks, the first of which defines a name that no marker has. -/
def skippingDocument : Node :=
  .documentOf [
    .blockOf [.paragraphOf [.ofText "A ", .referenceTo "1"], .definitionOf "1" [.ofText "one"],
      .definitionOf "2" [.ofText "two"]],
    .blockOf [.paragraphOf [.ofText "B ", .referenceTo "1"], .definitionOf "1" [.ofText "three"]]]

/-- The marker of the third definition is processed to that of the second one. -/
theorem skippingDocument_changes :
    (convertDocument (.tree skippingDocument)).toOption.map (fun c =>
        (c.markdown, c.annotations, (({} : Processor).process c.markdown).1)) =
      some
        (Text.joinBlocks [sentinel, "A (1)".toList, sentinel, "B (3)".toList],
          [("1".toList, "one".toList), ("2".toList, "two".toList), ("3".toList, "three".toList)],
          Text.joinBlocks [sentinel, "A (1)".toList, sentinel, "B (2)".toList]) := by
  decide +kernel

end Docmark
