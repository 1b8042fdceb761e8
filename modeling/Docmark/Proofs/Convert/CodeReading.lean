import Docmark.Proofs.Convert.Run
import Docmark.Proofs.Document.Annotated
import Docmark.Proofs.Markdown.FencedCode

/-!
Code read back from between its fences. The fence is longer than every run of backticks in the code,
so that the first line that closes it is the one that was written to close it.
-/

namespace Docmark

namespace Markdown

/-- Fenced code as it is read: the length of the fence, what stands behind it, and the lines. -/
structure FencedCode where
  fence : Nat
  info : Text
  lines : List Text
  deriving DecidableEq, Repr

/-- True for a line of so many backticks or more, with nothing but white space around them. -/
def closesCode (fence : Nat) (line : Text) : Bool :=
  fence ≤ (Text.strip line).length && (Text.strip line).all (· == backtick)

/-- The lines above the first one that closes a fence, and those below it. -/
def cutAtClose (fence : Nat) : List Text → Option (List Text × List Text)
  | [] => none
  | line :: rest =>
    if closesCode fence line then some ([], rest)
    else (cutAtClose fence rest).map fun (above, below) => (line :: above, below)

/-- The fenced code that lines begin with, and the lines below it. -/
def readFenced : List Text → Option (FencedCode × List Text)
  | [] => none
  | line :: rest =>
    let run := line.takeWhile (· == backtick)
    let info := line.dropWhile (· == backtick)
    if run.length < 3 || info.contains backtick then none
    else (cutAtClose run.length rest).map fun (code, below) => (⟨run.length, info, code⟩, below)

/-- Lines that are fenced code from the first to the last, which are fences of the same length. -/
structure FencedCode.Written (c : FencedCode) (ls : List Text) : Prop where
  whole : ls = (List.replicate c.fence backtick ++ c.info) ::
    (c.lines ++ [List.replicate c.fence backtick])
  long : 3 ≤ c.fence
  info : backtick ∉ c.info
  inside : ∀ l ∈ c.lines, closesCode c.fence l = false

theorem closesCode_fence (k : Nat) : closesCode k (List.replicate k backtick) = true := by
  simp [closesCode, strip_replicate_backtick]

/-- A line that closes a fence has the fence in it. -/
theorem infix_of_closesCode {k : Nat} {line : Text} (h : closesCode k line = true) :
    List.replicate k backtick <:+: line := by
  rw [closesCode, Bool.and_eq_true, decide_eq_true_eq, List.all_eq_true] at h
  obtain ⟨long, marks⟩ := h
  have run : Text.strip line = List.replicate (Text.strip line).length backtick :=
    List.eq_replicate_of_mem fun c hc => beq_iff_eq.mp (marks c hc)
  have part : List.replicate k backtick <+: Text.strip line := by
    rw [run, List.prefix_replicate_iff, List.length_replicate]
    exact ⟨long, rfl⟩
  exact part.isInfix.trans (Text.infix_strip line)

theorem cutAtClose_append {k : Nat} {ls : List Text} (inside : ∀ l ∈ ls, closesCode k l = false)
    {line : Text} (closes : closesCode k line = true) (below : List Text) :
    cutAtClose k (ls ++ line :: below) = some (ls, below) := by
  induction ls with
  | nil => simp [cutAtClose, closes]
  | cons l ls ih =>
    rw [List.cons_append, cutAtClose, inside l (by simp), ih fun m hm => inside m (by simp [hm])]
    rfl

/-- The reader finds what was written, and leaves nothing. -/
theorem FencedCode.Written.readFenced {c : FencedCode} {ls : List Text} (h : c.Written ls) :
    readFenced ls = some (c, []) := by
  obtain ⟨run, rest⟩ := span_backticks c.fence h.info
  have long := h.long
  rw [h.whole, Markdown.readFenced]
  simp only [run, rest, List.length_replicate,
    cutAtClose_append h.inside (closesCode_fence c.fence) [], Option.map_some]
  rw [if_neg]
  simp [h.info]
  omega

/-- The lines of code between its fences; line feeds at its end are left out. -/
def innerLines (code : Text) : List Text :=
  let body := Text.dropEndWhile (· == '\n') code
  if body.isEmpty then [] else Text.lines body

theorem infix_of_mem_innerLines {code l : Text} (h : l ∈ innerLines code) : l <:+: code := by
  rw [innerLines] at h
  split at h
  · cases h
  · obtain ⟨back, hb, -⟩ := Text.exists_dropEndWhile (· == '\n') code
    exact (Text.infix_of_mem_lines h).trans ⟨[], back, hb.symm⟩

theorem lines_codeMarkdown_of_line {language : Text} (line : '\n' ∉ language) (code : Text) :
    Text.lines (Convert.codeMarkdown language code) =
      (fenceFor code ++ language) :: (innerLines code ++ [fenceFor code]) := by
  have bare := newline_not_mem_fenceFor code
  have first : '\n' ∉ fenceFor code ++ language := by simp [bare, line]
  rw [Convert.codeMarkdown, innerLines, List.append_assoc (fenceFor code ++ language),
    List.cons_append, Text.lines_append_newline (fenceFor code ++ language),
    Text.lines_of_not_mem first, List.singleton_append]
  split
  · rw [List.nil_append, Text.lines_of_not_mem bare]
    rfl
  · rw [List.append_assoc, List.singleton_append, Text.lines_append_newline,
      Text.lines_of_not_mem bare]

theorem newline_not_mem_languageFor {declared : Text} (line : '\n' ∉ declared) (code : Text) :
    '\n' ∉ languageFor declared code := by
  have plain : '\n' ∉ diagramLanguage := by decide
  have kept : '\n' ∉ Text.strip (declared.filter (· != backtick)) := fun h =>
    line (List.mem_filter.mp (Text.mem_of_mem_strip h)).1
  rw [languageFor]
  split
  · split
    · exact plain
    · simp
  · split
    · exact plain
    · exact kept

/-- Code is written as one block of fenced code. -/
theorem written_codeMarkdown {language : Text} (plain : backtick ∉ language)
    (line : '\n' ∉ language) (code : Text) : ∃ k : Nat,
    (FencedCode.mk k language (innerLines code)).Written
      (Text.lines (Convert.codeMarkdown language code)) := by
  obtain ⟨k, fence, long, -⟩ := exists_fence code
  refine ⟨k, ?_, long, plain, fun l hl => ?_⟩
  · rw [lines_codeMarkdown_of_line line, fence]
  · refine Bool.eq_false_iff.mpr fun closes => not_fence_infix code ?_
    rw [fence]
    exact (infix_of_closesCode closes).trans (infix_of_mem_innerLines hl)

end Markdown

open Markdown

/--
A code block is converted wherever its children are, and reads back as one block of fenced code
whose lines are those of its text. Its language is a line at most, which may have backticks in it.
-/
theorem walk_codeBlock_reads {ctx : Context} {n : Node} (kind : n.kind = .codeBlock)
    (line : ∀ language, (n.attr "language").string? = some language → '\n' ∉ language.toList)
    (level : Int) (s : Session) :
    (∀ below children s₁, n.children.mapM
        (walkLevels Registry.standard.settle ctx below (n.kind.childLevel level)) s =
          .ok (children, s₁) →
      ∃ f, walkLevels Registry.standard.settle ctx (below + 1) level n s = .ok (f, s₁)) ∧
    ∀ levels f s', walkLevels Registry.standard.settle ctx levels level n s = .ok (f, s') →
      ∃ k info, (FencedCode.mk k info (innerLines (Convert.codeOf n))).Written
          (Text.lines f.markdown) ∧
        readFenced (Text.lines f.markdown) =
          some (⟨k, info, innerLines (Convert.codeOf n)⟩, []) := by
  have registered : (Registry.standard.settle.get n.kind).1 = some Convert.codeBlock := by
    rw [kind]
    rfl
  have declared : '\n' ∉ ((n.attr "language").string?.getD "").toList := by
    cases given : (n.attr "language").string? with
    | none => simp
    | some language => exact line language given
  constructor
  · intro below children s₁ converted
    exact ⟨_, walkLevels_run registered converted⟩
  · intro levels f s' run
    cases levels with
    | zero => simp [walkLevels] at run
    | succ below =>
      rcases walkLevels_ok run with ⟨none, -, -⟩ | ⟨convert, children, s₁, found, -, made⟩
      · rw [registered] at none
        cases none
      · rw [registered] at found
        cases found
        obtain ⟨rfl, -⟩ := Conversion.pure_ok.mp made
        obtain ⟨k, written⟩ := written_codeMarkdown
          (backtick_not_mem_languageFor ((n.attr "language").string?.getD "").toList
            (Convert.codeOf n))
          (newline_not_mem_languageFor declared (Convert.codeOf n)) (Convert.codeOf n)
        exact ⟨k, _, written, written.readFenced⟩

/-- Code with a fence and a longer run in it, and backticks in its language. -/
def fencedBlock : Node :=
  ⟨"codeBlock", [("language", .str "`a b`")], [.ofText "```\n\n````", .ofText " x\n\n"], none, []⟩

theorem fencedBlock_reads :
    fencedBlock.kind = .codeBlock ∧ (fencedBlock.attr "language").string? = some "`a b`" ∧
      ∃ f s k info, walkLevels Registry.standard.settle {} 2 0 fencedBlock {} = .ok (f, s) ∧
        readFenced (Text.lines f.markdown) =
          some (⟨k, info, ["```".toList, [], "```` x".toList]⟩, []) := by
  have language : (fencedBlock.attr "language").string? = some "`a b`" := rfl
  have line : ∀ l, (fencedBlock.attr "language").string? = some l → '\n' ∉ l.toList := by
    intro l given
    obtain rfl := Option.some.inj (language.symm.trans given)
    decide
  obtain ⟨⟨f, s⟩, run⟩ := exists_ok
    (x := walkLevels Registry.standard.settle {} 2 0 fencedBlock {}) (by decide +kernel)
  obtain ⟨-, reads⟩ := @walk_codeBlock_reads {} fencedBlock rfl line 0 {}
  obtain ⟨k, info, -, read⟩ := reads 2 f s run
  have inner : innerLines (Convert.codeOf fencedBlock) =
      ["```".toList, [], "```` x".toList] := by decide
  rw [inner] at read
  exact ⟨rfl, language, f, s, k, info, run, read⟩

end Docmark
