import Docmark.Convert.Block
import Docmark.Convert.Inline
import Docmark.Convert.List
import Docmark.Convert.Note
import Docmark.Convert.Registry
import Docmark.Convert.Table

/-!
The walk through a document: children first, each with the converter for its kind. A node without a
converter gives the text of its leaves.
-/

namespace Docmark

def Registry.builtinConverters : Dictionary NodeKind Converter :=
  [(.doc, Convert.blocks), (.paragraph, Convert.paragraph), (.text, Convert.text),
   (.heading, Convert.heading), (.hardBreak, Convert.hardBreak), (.rule, Convert.rule),
   (.blockquote, Convert.blockquote), (.bulletList, Convert.bulletList),
   (.orderedList, Convert.orderedList), (.listItem, Convert.listItem),
   (.codeBlock, Convert.codeBlock), (.table, Convert.table), (.tableRow, Convert.tableRow),
   (.tableHeader, Convert.tableCell), (.tableCell, Convert.tableCell), (.link, Convert.link),
   (.inlineCard, Convert.card), (.blockCard, Convert.card), (.panel, Convert.panel),
   (.expand, Convert.expand), (.nestedExpand, Convert.expand), (.emoji, Convert.emoji),
   (.status, Convert.status), (.mention, Convert.mention), (.date, Convert.date),
   (.mediaSingle, Convert.blocks), (.media, Convert.media),
   ( NodeKind.annotation, Convert.annotation),
   (.footnote, Convert.footnote)]

/-- The registry that documents are converted with. -/
def Registry.standard : Registry Converter :=
  { builtins := builtinConverters }

/-- Converts a tree of at most so many levels, those left of the levels up to the ceiling. -/
def walkLevels (registry : Registry Converter) (ctx : Context) :
    Nat → Int → Node → Conversion Fragment
  | 0, _, n => Conversion.fail (.tooDeep ⟨ctx.ceiling, n.tag⟩)
  | below + 1, level, n => do
    match (registry.get n.kind).1 with
    | none =>
      let left := ctx.ceiling.below (ctx.ceiling.levels - (below + 1))
      let text ← Conversion.lift .tooDeep (n.extractText [] left)
      return ⟨text, .plain⟩
    | some convert =>
      let children ← n.children.mapM (walkLevels registry ctx below (n.kind.childLevel level))
      convert ctx n children level

/-- Converts a node at a list level, and all below it. -/
def walk (registry : Registry Converter) (ctx : Context) (level : Int) (n : Node) :
    Conversion Fragment :=
  walkLevels registry.settle ctx ctx.ceiling.levels level n

end Docmark
