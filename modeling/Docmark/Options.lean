import Docmark.Failure

/-!
Options of the conversion and of the preview. They are set by name, all names are checked first, and
the nesting depth keeps within its limits. Where an option is a switch, every value is taken for what
it counts as; beside the options themselves their values are kept as they were given.
-/

namespace Docmark

/-- A nesting depth that can be asked for. -/
structure Depth where
  ceiling : Ceiling
  positive : ceiling.isLess 1 = false
  bounded : ceiling.isGreater depthLimit = false

def Depth.ofCeiling (c : Ceiling) : Except OptionError Depth :=
  if low : c.isLess 1 then .error (.depthNotPositive c)
  else if high : c.isGreater depthLimit then .error (.depthAboveLimit c)
  else .ok ⟨c, by simpa using low, by simpa using high⟩

def Depth.ofJson (v : Json) : Except OptionError Depth :=
  match Ceiling.ofJson? v with
  | some c => Depth.ofCeiling c
  | none => .error (.notANumber v.kindName)

def Depth.default : Depth :=
  ⟨.whole 64, by decide, by decide⟩

/-- Values of options by name, as they were given. -/
abbrev OptionValues := Dictionary String Json

/-- The word for the step in which options are made. -/
def OptionValues.making (holder : String) : Text := (holder ++ ".__init__()").toList

/-- The word for the step in which they are changed. -/
def OptionValues.changing : Text := "CloneFrozenMixin.create_updated()".toList

namespace OptionValues

/-- The name of what options belong to, which is no option. -/
def ownName : String := "self"

/-- The first name that is none of those known. -/
def checkNames (holder : String) (known : List String) (given : OptionValues) :
    Except OptionError Unit :=
  match given.find? fun (name, _) => !known.contains name with
  | some (name, _) =>
    .error (if name == ownName then .repeatedName (making holder) name.toList
      else .unknownName (making holder) name.toList)
  | none => .ok ()

/-- In changes the name of what they belong to is found before all others. -/
def checkChanges (holder : String) (known : List String) (given : OptionValues) :
    Except OptionError Unit :=
  if given.has ownName then .error (.repeatedName changing ownName.toList)
  else checkNames holder known given

/-- The values after a change, the changed ones in their old places. -/
def change (old given : OptionValues) : OptionValues :=
  given.foldl (fun values (name, v) => values.put name v) old

end OptionValues

structure ConversionOptions where
  /-- Used if it counts as true, and then it has to be a text. -/
  baseUrl : Json := .str ""
  maxNestingDepth : Depth := Depth.default
  propertyTables : Bool := true
  emitAnnotationDefinitions : Bool := false
  collapseBlankLines : Bool := true
  includeFootnotes : Bool := true
  escapeSpecial : Bool := true

structure PreviewOptions where
  /-- A text, or null for the built-in style. -/
  stylesheetPath : Json := .null
  escapeHtml : Bool := false
  processAnnotations : Bool := true
  /-- Has to be a text for a page. -/
  title : Json := .str "Preview"

namespace ConversionOptions

def holder : String := "ConversionOptions"

/-- The options with what they are for. -/
def help : List (String × String) :=
  [("base_url", "Base URL used to resolve relative link targets"),
   ("max_nesting_depth", "Maximum document nesting depth before conversion fails"),
   ("property_tables", "Render two-column key/value tables as bold key lines"),
   ("emit_annotation_definitions", "Keep annotation definitions as numbered lines in the output"),
   ("collapse_blank_lines", "Collapse multiple blank lines into one"),
   ("include_footnotes", "Append footnote definitions at the end of the document"),
   ("escape_special", "Escape special Markdown characters in text")]

/-- The values of options that nothing is given for. -/
def initial : OptionValues :=
  [("base_url", .str ""), ("max_nesting_depth", .int 64), ("property_tables", .bool true),
   ("emit_annotation_definitions", .bool false), ("collapse_blank_lines", .bool true),
   ("include_footnotes", .bool true), ("escape_special", .bool true)]

def set (o : ConversionOptions) (name : String) (v : Json) :
    Except OptionError ConversionOptions :=
  match name with
  | "base_url" => .ok { o with baseUrl := v }
  | "max_nesting_depth" => do return { o with maxNestingDepth := ← Depth.ofJson v }
  | "property_tables" => .ok { o with propertyTables := v.isTruthy }
  | "emit_annotation_definitions" => .ok { o with emitAnnotationDefinitions := v.isTruthy }
  | "collapse_blank_lines" => .ok { o with collapseBlankLines := v.isTruthy }
  | "include_footnotes" => .ok { o with includeFootnotes := v.isTruthy }
  | "escape_special" => .ok { o with escapeSpecial := v.isTruthy }
  | _ => .ok o

def setAll (o : ConversionOptions) (given : OptionValues) :
    Except OptionError ConversionOptions :=
  given.foldlM (fun o (name, v) => o.set name v) o

/-- Options made from values. -/
def ofValues (given : OptionValues) : Except OptionError ConversionOptions := do
  OptionValues.checkNames holder (help.map Prod.fst) given
  setAll {} given

/-- Options with some of them changed. -/
def update (o : ConversionOptions) (given : OptionValues) :
    Except OptionError ConversionOptions := do
  OptionValues.checkChanges holder (help.map Prod.fst) given
  o.setAll given

end ConversionOptions

namespace PreviewOptions

def holder : String := "PreviewOptions"

/-- The options with what they are for. -/
def help : List (String × String) :=
  [("stylesheet_path", "Stylesheet to inline into preview pages"),
   ("escape_html", "Escape raw HTML in the Markdown source"),
   ("process_annotations", "Turn annotated blocks into annotation markers"),
   ("title", "Title of generated preview pages")]

/-- The values of options that nothing is given for. -/
def initial : OptionValues :=
  [("stylesheet_path", .null), ("escape_html", .bool false), ("process_annotations", .bool true),
   ("title", .str "Preview")]

def set (o : PreviewOptions) (name : String) (v : Json) : PreviewOptions :=
  match name with
  | "stylesheet_path" => { o with stylesheetPath := v }
  | "escape_html" => { o with escapeHtml := v.isTruthy }
  | "process_annotations" => { o with processAnnotations := v.isTruthy }
  | "title" => { o with title := v }
  | _ => o

def setAll (o : PreviewOptions) (given : OptionValues) : PreviewOptions :=
  given.foldl (fun o (name, v) => o.set name v) o

/-- Options made from values. -/
def ofValues (given : OptionValues) : Except OptionError PreviewOptions := do
  OptionValues.checkNames holder (help.map Prod.fst) given
  return setAll {} given

/-- Options with some of them changed. -/
def update (o : PreviewOptions) (given : OptionValues) : Except OptionError PreviewOptions := do
  OptionValues.checkChanges holder (help.map Prod.fst) given
  return o.setAll given

end PreviewOptions
end Docmark
