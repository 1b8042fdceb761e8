import Docmark.Proofs.Convert.CodeWalk
import Docmark.Proofs.Convert.Document

/-!
Collapsing the blank lines of a document, and what becomes of its code blocks. Fences are looked for
in the finished Markdown, behind white space only, so that the fence of a code block that stands
beside the marker of a list is not seen. Main statement: the lines of a code block stay as they are
just where a fence is open at its blank lines, or these are alone.
-/

namespace Docmark

open Markdown

def ConversionOptions.collapsing (o : ConversionOptions) (b : Bool) : ConversionOptions :=
  { o with collapseBlankLines := b }

section independence

variable (o : ConversionOptions) (resolver : Link.Resolver) (b : Bool)

theorem convert_collapsing {k : NodeKind} {convert : Converter}
    (found : Registry.builtinConverters.get? k = some convert) :
    convert ⟨o.collapsing b, resolver⟩ = convert ⟨o, resolver⟩ := by
  cases k with
  | unknown => cases found
  | _ =>
    cases found
    rfl

/-- The walk does not look at whether blank lines will be collapsed. -/
theorem walkLevels_collapsing (levels : Nat) (level : Int) (n : Node) :
    walkLevels Registry.standard.settle ⟨o.collapsing b, resolver⟩ levels level n =
      walkLevels Registry.standard.settle ⟨o, resolver⟩ levels level n := by
  induction levels generalizing level n with
  | zero => rfl
  | succ below ih =>
    have children : walkLevels Registry.standard.settle ⟨o.collapsing b, resolver⟩ below
        (n.kind.childLevel level) =
        walkLevels Registry.standard.settle ⟨o, resolver⟩ below (n.kind.childLevel level) :=
      funext fun m => ih _ m
    rw [walkLevels, walkLevels, children]
    cases found : (Registry.standard.settle.get n.kind).1 with
    | none => rfl
    | some convert =>
      simp only [convert_collapsing o resolver b found]

/-- A conversion with the blank lines of its Markdown collapsed. -/
def Converted.collapsed (c : Converted) : Converted :=
  { c with markdown := collapseBlankLines c.markdown }

theorem convertTree_collapsing (n : Node) :
    convertTree Registry.standard ⟨o.collapsing true, resolver⟩ n =
      (convertTree Registry.standard ⟨o.collapsing false, resolver⟩ n).map Converted.collapsed := by
  have walked (b : Bool) : walk Registry.standard ⟨o.collapsing b, resolver⟩ 0 n =
      walk Registry.standard ⟨o, resolver⟩ 0 n := walkLevels_collapsing o resolver b _ 0 n
  rw [convertTree, convertTree, walked, walked]
  cases (walk Registry.standard ⟨o, resolver⟩ 0 n).run {} with
  | error e => rfl
  | ok r => rfl

/-- Collapsing blank lines is done last, and the rest of a conversion is the same without it. -/
theorem convertDocument_collapsing (source : Source) :
    convertDocument source (o.collapsing true) [] resolver =
      (convertDocument source (o.collapsing false) [] resolver).map Converted.collapsed := by
  cases source with
  | tree n => exact convertTree_collapsing o resolver n
  | json v =>
    cases v with
    | object members =>
      have run (b : Bool) : convertDocument (.json (.object members)) (o.collapsing b) [] resolver =
          (Source.load o (.json (.object members))).bind
            (convertTree Registry.standard ⟨o.collapsing b, resolver⟩) := rfl
      rw [run, run]
      cases Source.load o (.json (.object members)) with
      | error e => rfl
      | ok n => exact convertTree_collapsing o resolver n
    | _ => rfl

end independence

theorem HoldsCode.withFootnotes {ns : List Node} {body : Text} (h : HoldsCode ns (Text.lines body))
    (o : ConversionOptions) (s : Footnote.State) :
    HoldsCode ns (Text.lines (Docmark.withFootnotes o body s)) := by
  rw [Docmark.withFootnotes]
  split
  · exact h
  · split
    · rename_i empty
      exact h.of_empty (List.isEmpty_iff.mp empty) _
    · rw [Text.lines_append_gap, ← List.append_nil ns]
      exact h.append (.text [] (texts _))

/-- The Markdown of a document holds the code blocks of its tree. -/
theorem convertDocument_holdsCode {source : Source} {o : ConversionOptions}
    {resolver : Link.Resolver} {n : Node} {c : Converted} (loaded : source.load o = .ok n)
    (run : convertDocument source (o.collapsing false) [] resolver = .ok c) :
    HoldsCode n.codeBlocks (Text.lines c.markdown) := by
  obtain ⟨o', m, f, s, updated, same, walked, rfl⟩ := convertDocument_ok run
  cases updated
  have load : source.load (o.collapsing false) = source.load o := by cases source <;> rfl
  rw [load, loaded] at same
  cases same
  exact (walk_holdsCode .start walked).trimNewlines.withFootnotes _ _

/-- What collapsing makes of the lines of a code block, those above and those below. -/
structure CollapsedAt (n : Node) (above own below collapsed : List Text) : Prop where
  split : collapsed = Tracking.collapse {} above ++ (Tracking.after {} above).collapse own ++
    (Tracking.after {} (above ++ own)).collapse below
  unchanged_iff : (Tracking.after {} above).collapse own = own ↔
    (Tracking.after {} above).Spares own
  fenced : (Tracking.after {} above).fence = none → List.Forall₂ Indented (codeLines n) own →
    (Tracking.after {} above).collapse own = own ∧ Tracking.after {} (above ++ own) = {}

theorem collapsedAt (n : Node) (above own below : List Text) :
    CollapsedAt n above own below (Tracking.collapse {} (above ++ own ++ below)) := by
  refine ⟨?_, Tracking.collapse_eq_self_iff, ?_⟩
  · rw [Tracking.collapse_append, Tracking.collapse_append]
  · intro closed indented
    obtain ⟨spares, after⟩ := Tracking.spares_codeMarkdown closed
      (backtick_not_mem_languageFor _ _) indented
    refine ⟨Tracking.collapse_eq_self_iff.mpr spares, ?_⟩
    rw [Tracking.after, List.foldl_append]
    exact after

/--
Collapsing takes away blank lines only, and it leaves a code block as it is just where it meets
every blank line of it with a fence open, or alone. Code that is indented at most is left as it is
where no fence is open above.
-/
theorem convertDocument_collapsed {source : Source} {o : ConversionOptions}
    {resolver : Link.Resolver} {n : Node} {plain : Converted} (loaded : source.load o = .ok n)
    (run : convertDocument source (o.collapsing false) [] resolver = .ok plain) :
    ∃ collapsed, convertDocument source (o.collapsing true) [] resolver = .ok collapsed ∧
      (Text.lines collapsed.markdown).filter (fun l => !Text.isBlank l) =
        (Text.lines plain.markdown).filter (fun l => !Text.isBlank l) ∧
      ∀ before m after, n.codeBlocks = before ++ m :: after →
        ∃ above own below, Text.lines plain.markdown = above ++ own ++ below ∧
          HoldsCode before above ∧ ShowsCode m own ∧ HoldsCode after below ∧
          CollapsedAt m above own below (Text.lines collapsed.markdown) := by
  have cut := Tracking.lines_collapseBlankLines plain.markdown
  refine ⟨plain.collapsed, by rw [convertDocument_collapsing, run]; rfl, ?_, ?_⟩
  · rw [Converted.collapsed, cut, Tracking.filter_collapse]
  · intro before m after position
    have holds := convertDocument_holdsCode loaded run
    rw [position] at holds
    obtain ⟨above, own, below, lines, front, shows, back⟩ := holds.split
    refine ⟨above, own, below, lines, front, shows, back, ?_⟩
    rw [Converted.collapsed, cut, lines]
    exact collapsedAt m above own below

/-- A document with code beside the marker of a list, and code below the list. -/
def codeDocument : Node :=
  .documentOf [.bulletListOf [.listItemOf [.codeOf "a\n\n\nb"]], .codeOf "c\n\n\nd"]

theorem codeDocument_collapsed :
    Source.load {} (.tree codeDocument) = .ok codeDocument ∧
      codeDocument.codeBlocks = [.codeOf "a\n\n\nb", .codeOf "c\n\n\nd"] ∧
      ∃ plain collapsed,
        convertDocument (.tree codeDocument) (ConversionOptions.collapsing {} false) = .ok plain ∧
        convertDocument (.tree codeDocument) (ConversionOptions.collapsing {} true) =
          .ok collapsed ∧
        (Text.lines collapsed.markdown).filter (fun l => !Text.isBlank l) =
          (Text.lines plain.markdown).filter (fun l => !Text.isBlank l) ∧
        ∀ before m after, codeDocument.codeBlocks = before ++ m :: after →
          ∃ above own below, Text.lines plain.markdown = above ++ own ++ below ∧
            HoldsCode before above ∧ ShowsCode m own ∧ HoldsCode after below ∧
            CollapsedAt m above own below (Text.lines collapsed.markdown) := by
  obtain ⟨plain, run⟩ := exists_ok
    (x := convertDocument (.tree codeDocument) (ConversionOptions.collapsing {} false))
    (by decide +kernel)
  obtain ⟨collapsed, run', shown, each⟩ := convertDocument_collapsed rfl run
  exact ⟨rfl, rfl, plain, collapsed, run, run', shown, each⟩

/--
The fence beside the marker is not seen, and the one that closes the first code block is taken for
one that opens: both lose a blank line.
-/
theorem codeDocument_loses_lines :
    (convertDocument (.tree codeDocument) (ConversionOptions.collapsing {} false)).toOption.map
        (fun c => Text.lines c.markdown) =
      some (["- \x60\x60\x60", "  a", "", "", "  b", "  \x60\x60\x60", "",
        "\x60\x60\x60", "c", "", "", "d", "\x60\x60\x60"].map String.toList) ∧
    (convertDocument (.tree codeDocument) (ConversionOptions.collapsing {} true)).toOption.map
        (fun c => Text.lines c.markdown) =
      some (["- \x60\x60\x60", "  a", "", "  b", "  \x60\x60\x60", "",
        "\x60\x60\x60", "c", "", "d", "\x60\x60\x60"].map String.toList) := by
  decide +kernel

end Docmark
