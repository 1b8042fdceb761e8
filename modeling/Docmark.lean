import Docmark.Admonition.Event
import Docmark.Admonition.Header
import Docmark.Admonition.Host
import Docmark.Admonition.Kind
import Docmark.Admonition.Scan
import Docmark.Annotation.Marker
import Docmark.Annotation.Processor
import Docmark.Annotation.State
import Docmark.Binary64
import Docmark.Ceiling
import Docmark.CommandLine.Arguments
import Docmark.CommandLine.Log
import Docmark.CommandLine.Run
import Docmark.CommandLine.Setting
import Docmark.Convert.Block
import Docmark.Convert.Document
import Docmark.Convert.Fragment
import Docmark.Convert.Inline
import Docmark.Convert.List
import Docmark.Convert.Note
import Docmark.Convert.Registry
import Docmark.Convert.Table
import Docmark.Convert.Walk
import Docmark.Date
import Docmark.Dictionary
import Docmark.Document.Kind
import Docmark.Document.Load
import Docmark.Document.Node
import Docmark.Failure
import Docmark.Folder
import Docmark.Footnote.State
import Docmark.Json.Basic
import Docmark.Json.Display
import Docmark.Json.Encoding
import Docmark.Json.Reader
import Docmark.Link.Host
import Docmark.Link.Resolve
import Docmark.Link.Url
import Docmark.Main
import Docmark.Markdown.Escape
import Docmark.Markdown.Fence
import Docmark.Markdown.Inline
import Docmark.Markdown.ListLayout
import Docmark.Markdown.Table
import Docmark.Options
import Docmark.Preview.Backslash
import Docmark.Preview.Block
import Docmark.Preview.CharacterName
import Docmark.Preview.CharacterReference
import Docmark.Preview.Container
import Docmark.Preview.Html
import Docmark.Preview.Inline
import Docmark.Preview.InlineReader
import Docmark.Preview.Line
import Docmark.Preview.NoteText
import Docmark.Preview.Page
import Docmark.Preview.Reader
import Docmark.Preview.Rendered
import Docmark.Preview.Renderer
import Docmark.Preview.Span
import Docmark.Preview.TableText
import Docmark.Preview.Tag
import Docmark.Proofs.Admonition.BodyLines
import Docmark.Proofs.Admonition.BodyParsing
import Docmark.Proofs.Admonition.Extent
import Docmark.Proofs.Admonition.Nesting
import Docmark.Proofs.Admonition.ReadBack
import Docmark.Proofs.Annotation.Calls
import Docmark.Proofs.Annotation.Chunks
import Docmark.Proofs.Annotation.GivenDefinitions
import Docmark.Proofs.Annotation.KnownNumbers
import Docmark.Proofs.Annotation.LineStep
import Docmark.Proofs.Annotation.Marker
import Docmark.Proofs.Annotation.Numbering
import Docmark.Proofs.Annotation.Passages
import Docmark.Proofs.Annotation.Settled
import Docmark.Proofs.Annotation.Sound
import Docmark.Proofs.Ceiling
import Docmark.Proofs.Convert.Acceptable
import Docmark.Proofs.Convert.AdjacentLists
import Docmark.Proofs.Convert.AnnotatedBlock
import Docmark.Proofs.Convert.Backing
import Docmark.Proofs.Convert.BlockNumbers
import Docmark.Proofs.Convert.Captions
import Docmark.Proofs.Convert.Checks
import Docmark.Proofs.Convert.CodeInContainers
import Docmark.Proofs.Convert.CodeLines
import Docmark.Proofs.Convert.CodeReading
import Docmark.Proofs.Convert.CodeRun
import Docmark.Proofs.Convert.CodeWalk
import Docmark.Proofs.Convert.CollapsedCode
import Docmark.Proofs.Convert.Containers
import Docmark.Proofs.Convert.Conversion
import Docmark.Proofs.Convert.Depth
import Docmark.Proofs.Convert.Document
import Docmark.Proofs.Convert.FootnoteFindings
import Docmark.Proofs.Convert.FootnoteNumbers
import Docmark.Proofs.Convert.InnerLists
import Docmark.Proofs.Convert.ItemContent
import Docmark.Proofs.Convert.Items
import Docmark.Proofs.Convert.ListBelowParagraph
import Docmark.Proofs.Convert.ListColumns
import Docmark.Proofs.Convert.ListLines
import Docmark.Proofs.Convert.ListWalk
import Docmark.Proofs.Convert.MarkerColumn
import Docmark.Proofs.Convert.NodeMarkers
import Docmark.Proofs.Convert.NotedLine
import Docmark.Proofs.Convert.NotedPage
import Docmark.Proofs.Convert.NotedRun
import Docmark.Proofs.Convert.OwnMarkers
import Docmark.Proofs.Convert.PlainBlocks
import Docmark.Proofs.Convert.PropertyKey
import Docmark.Proofs.Convert.Readback
import Docmark.Proofs.Convert.Registration
import Docmark.Proofs.Convert.Reprocessing
import Docmark.Proofs.Convert.Run
import Docmark.Proofs.Convert.ShownMarkers
import Docmark.Proofs.Convert.Sighting
import Docmark.Proofs.Convert.TextTable
import Docmark.Proofs.Convert.Visits
import Docmark.Proofs.Convert.Walk
import Docmark.Proofs.Dictionary
import Docmark.Proofs.Document.Annotated
import Docmark.Proofs.Document.Height
import Docmark.Proofs.Document.LeafTexts
import Docmark.Proofs.Document.Noted
import Docmark.Proofs.Footnote.Calls
import Docmark.Proofs.Footnote.Findings
import Docmark.Proofs.Footnote.Numbering
import Docmark.Proofs.Footnote.Scan
import Docmark.Proofs.Footnote.Signs
import Docmark.Proofs.Link.Destination
import Docmark.Proofs.Markdown.BalancedKey
import Docmark.Proofs.Markdown.BlockStart
import Docmark.Proofs.Markdown.BlocksInRow
import Docmark.Proofs.Markdown.Brackets
import Docmark.Proofs.Markdown.BrokenLines
import Docmark.Proofs.Markdown.CellText
import Docmark.Proofs.Markdown.CodeSpan
import Docmark.Proofs.Markdown.Collapse
import Docmark.Proofs.Markdown.EscapedText
import Docmark.Proofs.Markdown.FencedCode
import Docmark.Proofs.Markdown.FencedRegions
import Docmark.Proofs.Markdown.Framed
import Docmark.Proofs.Markdown.Guard
import Docmark.Proofs.Markdown.HeadingLine
import Docmark.Proofs.Markdown.ItemLayout
import Docmark.Proofs.Markdown.ItemReading
import Docmark.Proofs.Markdown.KeyRuns
import Docmark.Proofs.Markdown.PlainLine
import Docmark.Proofs.Markdown.RowReading
import Docmark.Proofs.Markdown.SignLayout
import Docmark.Proofs.Markdown.Spelling
import Docmark.Proofs.Markdown.StarLines
import Docmark.Proofs.Markdown.StrongEdges
import Docmark.Proofs.Markdown.StrongText
import Docmark.Proofs.Preview.OutsideBlocks
import Docmark.Proofs.Preview.Places
import Docmark.Proofs.Preview.Tags
import Docmark.Proofs.Text.Decimal
import Docmark.Proofs.Text.Digits
import Docmark.Proofs.Text.Distinct
import Docmark.Proofs.Text.Indent
import Docmark.Proofs.Text.Insertion
import Docmark.Proofs.Text.Lines
import Docmark.Proofs.Text.Order
import Docmark.Proofs.Text.Signs
import Docmark.Proofs.Text.Trim
import Docmark.Proofs.Text.WholeLines
import Docmark.Proofs.Text.Words
import Docmark.Text.Basic
import Docmark.Text.Blank
import Docmark.Text.Case
import Docmark.Text.Digit
import Docmark.Text.Letter
import Docmark.Text.Printable
import Docmark.Text.Quoted
