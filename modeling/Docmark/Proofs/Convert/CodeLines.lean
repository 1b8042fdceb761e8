import Docmark.Convert.List
import Docmark.Proofs.Annotation.Numbering
import Docmark.Proofs.Markdown.FencedCode
import Docmark.Proofs.Markdown.ItemLayout
import Docmark.Proofs.Text.Decimal
import Mathlib.Data.List.Forall2

/-!
Lines that hold code blocks: each code block has as many lines as it was written with, one after the
other, and each of these is what the containers around made of a line of the code.
-/

namespace Docmark

open Markdown

/-- The markers that lists are written with before any of them is switched. -/
def IsListMarker (m : Text) : Prop :=
  m = Convert.bulletMarker ∨ ∃ number, m = Text.decimal number ++ ['.']

theorem IsListMarker.newline {m : Text} (h : IsListMarker m) : '\n' ∉ m := by
  rcases h with rfl | ⟨number, rfl⟩
  · decide
  · intro hn
    rcases List.mem_append.mp hn with hn | hn
    · have := Text.isDigit_of_mem_decimal hn
      revert this
      decide
    · revert hn
      decide

/-- A line and what containers make of it. -/
inductive Edited : Text → Text → Prop
  | refl (l : Text) : Edited l l
  | indent {l m : Text} (h : Edited l m) (k : Nat) : Edited l (Text.indentLine k m)
  | quote {l m : Text} (h : Edited l m) : Edited l (Convert.quoteLine m)
  | beside {l m : Text} (h : Edited l m) (column : Nat) {marker : Text}
      (mark : IsListMarker marker) :
    Edited l (Text.spaces column ++ marker ++ ' ' :: Text.strip m)
  | switch {l m : Text} (h : Edited l m) (kind : ListKind) : Edited l (switchMarker kind m)
  | renumber {l m : Text} (h : Edited l m) (base : Nat) (names : List Text) :
    Edited l ( Annotation.relabel ( Annotation.numeralIn base names) m)

/-- A code block as it is written before any container takes it. -/
def codeLines (n : Node) : List Text :=
  let code := Convert.codeOf n
  Text.lines (Convert.codeMarkdown
    (languageFor ((n.attr "language").string?.getD "").toList code) code)

/-- The lines of a code block inside containers. -/
def ShowsCode (n : Node) (own : List Text) : Prop :=
  List.Forall₂ Edited (codeLines n) own

/-- Lines among which code blocks stand in their order. -/
inductive HoldsCode : List Node → List Text → Prop
  | nil : HoldsCode [] []
  | text {ns : List Node} {ls : List Text} (line : Text) (rest : HoldsCode ns ls) :
    HoldsCode ns (line :: ls)
  | code {n : Node} {ns : List Node} {own ls : List Text} (shows : ShowsCode n own)
      (rest : HoldsCode ns ls) : HoldsCode (n :: ns) (own ++ ls)

theorem Edited.shown {l m : Text} (h : Edited l m) (shown : Text.isBlank l = false) :
    Text.isBlank m = false := by
  induction h with
  | refl => exact shown
  | indent _ k ih => rw [Text.isBlank_indentLine, ih]
  | quote _ _ =>
    rw [Convert.quoteLine]
    split <;> rfl
  | @beside m _ column marker _ ih =>
    have text : Text.isBlank (' ' :: Text.strip m) = Text.isBlank (Text.strip m) := rfl
    rw [Text.isBlank_append, text, Text.isBlank_strip, ih, Bool.and_false]
  | switch _ kind ih => rw [isBlank_switchMarker, ih]
  | renumber _ _ _ ih => rw [isBlank_relabel, ih]

theorem framed_codeLines (n : Node) : Framed (codeLines n) :=
  framed_codeMarkdown _ _

theorem codeLines_ne_nil (n : Node) : codeLines n ≠ [] :=
  Text.lines_ne_nil _

/-- A code block begins and ends with its fences, which are not blank. -/
theorem ShowsCode.framed {n : Node} {own : List Text} (h : ShowsCode n own) : Framed own := by
  have ends := framed_codeLines n
  have head {as bs : List Text} (h : List.Forall₂ Edited as bs)
      (shown : ∀ l, as.head? = some l → Text.isBlank l = false) (m : Text)
      (hm : bs.head? = some m) : Text.isBlank m = false := by
    cases h with
    | nil => cases hm
    | cons first _ =>
      cases hm
      exact first.shown (shown _ rfl)
  have back : ∀ l, (codeLines n).reverse.head? = some l → Text.isBlank l = false := by
    intro l hl
    rw [List.head?_reverse] at hl
    exact ends.last l hl
  constructor
  · exact head h ends.first
  · intro m hm
    rw [← List.head?_reverse] at hm
    exact head (List.forall₂_reverse_iff.mpr h) back m hm

theorem ShowsCode.refl (n : Node) : ShowsCode n (codeLines n) :=
  List.forall₂_same.mpr fun l _ => .refl l

theorem ShowsCode.ne_nil {n : Node} {own : List Text} (h : ShowsCode n own) : own ≠ [] := by
  rintro rfl
  exact codeLines_ne_nil n (List.forall₂_nil_right_iff.mp h)

theorem ShowsCode.map {n : Node} {own : List Text} (h : ShowsCode n own) {g : Text → Text}
    (hg : ∀ l m, Edited l m → Edited l (g m)) : ShowsCode n (own.map g) :=
  List.forall₂_map_right_iff.mpr (h.imp fun l m => hg l m)

namespace HoldsCode

variable {ns : List Node} {ls ms : List Text}

theorem texts (ls : List Text) : HoldsCode [] ls := by
  induction ls with
  | nil => exact .nil
  | cons l ls ih => exact .text l ih

theorem append {ns' : List Node} (h : HoldsCode ns ls) (h' : HoldsCode ns' ms) :
    HoldsCode (ns ++ ns') (ls ++ ms) := by
  induction h with
  | nil => exact h'
  | text line _ ih => exact .text line ih
  | code shows _ ih =>
    rw [List.append_assoc]
    exact .code shows ih

theorem map (h : HoldsCode ns ls) {g : Text → Text} (hg : ∀ l m, Edited l m → Edited l (g m)) :
    HoldsCode ns (ls.map g) := by
  induction h with
  | nil => exact .nil
  | text line _ ih => exact .text (g line) ih
  | code shows _ ih =>
    rw [List.map_append]
    exact .code (shows.map hg) ih

/-- Blank lines hold no code. -/
theorem eq_nil_of_blank (h : HoldsCode ns ls) (blank : ∀ l ∈ ls, Text.isBlank l = true) :
    ns = [] := by
  induction h with
  | nil => rfl
  | text line _ ih => exact ih fun l hl => blank l (by simp [hl])
  | @code n ns own ls shows _ _ =>
    obtain ⟨l, rest, rfl⟩ := List.exists_cons_of_ne_nil shows.ne_nil
    have := shows.framed.first l rfl
    rw [blank l (by simp)] at this
    cases this

/-- A blank line may be left out in front. -/
theorem of_cons {line : Text} (h : HoldsCode ns (line :: ls)) (blank : Text.isBlank line = true) :
    HoldsCode ns ls := by
  generalize hw : line :: ls = written at h
  cases h with
  | nil => cases hw
  | text _ rest =>
    cases hw
    exact rest
  | code shows rest =>
    obtain ⟨l, own, rfl⟩ := List.exists_cons_of_ne_nil shows.ne_nil
    have shown := shows.framed.first l rfl
    rw [← (List.cons.inj hw).1, blank] at shown
    cases shown

/-- A blank line may be left out at the end. -/
theorem of_concat {line : Text} (h : HoldsCode ns (ls ++ [line]))
    (blank : Text.isBlank line = true) : HoldsCode ns ls := by
  generalize hw : ls ++ [line] = written at h
  induction h generalizing ls with
  | nil => simp at hw
  | @text ns rest l below ih =>
    cases ls with
    | nil =>
      obtain ⟨-, rfl⟩ := List.cons.inj hw
      exact below
    | cons m ms =>
      obtain ⟨rfl, tail⟩ := List.cons.inj hw
      exact .text m (ih tail)
  | @code n ns own rest shows below ih =>
    rcases List.eq_nil_or_concat rest with rfl | ⟨front, last, rfl⟩
    · rw [List.append_nil] at hw
      have shown := shows.framed.last line (by rw [← hw, List.getLast?_concat])
      rw [blank] at shown
      cases shown
    · rw [List.concat_eq_append, ← List.append_assoc] at hw
      obtain ⟨rfl, same⟩ := List.append_inj' hw rfl
      exact .code shows (ih (by rw [(List.cons.inj same).1, List.concat_eq_append]))

/-- Each code block stands somewhere, those before it above and those behind it below. -/
theorem split {before after : List Node} {n : Node} (h : HoldsCode (before ++ n :: after) ls) :
    ∃ above own below, ls = above ++ own ++ below ∧ HoldsCode before above ∧ ShowsCode n own ∧
      HoldsCode after below := by
  generalize hw : before ++ n :: after = written at h
  induction h generalizing before with
  | nil => simp at hw
  | text line _ ih =>
    obtain ⟨above, own, below, rfl, front, shows, back⟩ := ih hw
    exact ⟨line :: above, own, below, rfl, .text line front, shows, back⟩
  | @code m ns first rest here behind ih =>
    cases before with
    | nil =>
      obtain ⟨rfl, rfl⟩ := List.cons.inj hw
      exact ⟨[], first, rest, rfl, .nil, here, behind⟩
    | cons b before =>
      obtain ⟨rfl, tail⟩ := List.cons.inj hw
      obtain ⟨above, own, below, rfl, front, shows, back⟩ := ih tail
      refine ⟨first ++ above, own, below, ?_, .code here front, shows, back⟩
      rw [List.append_assoc, List.append_assoc, List.append_assoc]

end HoldsCode

end Docmark
