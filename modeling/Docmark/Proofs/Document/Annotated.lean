import Docmark.Convert.Note
import Mathlib.Tactic.Tauto

/-!
Annotation nodes: references, definitions, and the blocks that both stand in. All that is neither a
reference nor a definition is a block.
-/

namespace Docmark

/-- Kinds of nodes whose Markdown has all markers of their children. -/
def NodeKind.carriesMarkers : NodeKind → Bool
  | .doc | .paragraph | .blockquote | .bulletList | .orderedList | .listItem | .panel | .expand
  | .nestedExpand => true
  | _ => false

namespace Node

/-- What an annotation node says that it is. -/
def annotationWord (n : Node) : Option String :=
  (n.attr "annotationType").string?

def isReference (n : Node) : Bool :=
  n.kind == NodeKind.annotation && n.annotationWord == some "reference"

def isDefinition (n : Node) : Bool :=
  n.kind == NodeKind.annotation && n.annotationWord == some "definition"

def isAnnotatedBlock (n : Node) : Bool :=
  n.kind == NodeKind.annotation && n.annotationWord != some "reference" &&
    n.annotationWord != some "definition"

/-- The name that a reference or a definition gives, if it gives one. -/
def localName (n : Node) : Option Text :=
  Convert.nameOf (n.attr "localId")

def ofText (s : String) : Node :=
  ⟨"text", [], [], some s, []⟩

def paragraphOf (children : List Node) : Node :=
  ⟨"paragraph", [], children, none, []⟩

def referenceTo (name : String) : Node :=
  ⟨"annotation", [("annotationType", .str "reference"), ("localId", .str name)], [], none, []⟩

def definitionOf (name : String) (content : List Node) : Node :=
  ⟨"annotation", [("annotationType", .str "definition"), ("localId", .str name)],
    [paragraphOf content], none, []⟩

def blockOf (children : List Node) : Node :=
  ⟨"annotation", [("annotationType", .str "block")], children, none, []⟩

def panelOf (children : List Node) : Node :=
  ⟨"panel", [("panelType", .str "info")], children, none, []⟩

def codeOf (code : String) : Node :=
  ⟨"codeBlock", [], [ofText code], none, []⟩

def listItemOf (children : List Node) : Node :=
  ⟨"listItem", [], children, none, []⟩

def bulletListOf (items : List Node) : Node :=
  ⟨"bulletList", [], items, none, []⟩

def documentOf (children : List Node) : Node :=
  ⟨"doc", [], children, none, []⟩

theorem attr_of_annotationWord {n : Node} {w : String} (h : n.annotationWord = some w) :
    n.attr "annotationType" = .str w := by
  rw [annotationWord] at h
  cases hv : n.attr "annotationType" with
  | str s =>
    rw [hv] at h
    cases h
    rfl
  | _ => simp [hv, Json.string?] at h

theorem kind_of_isReference {n : Node} (h : n.isReference = true) :
    n.kind = NodeKind.annotation := by
  simp only [isReference, Bool.and_eq_true, beq_iff_eq] at h
  exact h.1

theorem kind_of_isDefinition {n : Node} (h : n.isDefinition = true) :
    n.kind = NodeKind.annotation := by
  simp only [isDefinition, Bool.and_eq_true, beq_iff_eq] at h
  exact h.1

theorem kind_of_isAnnotatedBlock {n : Node} (h : n.isAnnotatedBlock = true) :
    n.kind = NodeKind.annotation := by
  simp only [isAnnotatedBlock, Bool.and_eq_true, beq_iff_eq] at h
  exact h.1.1

theorem isAnnotatedBlock_of_isReference {n : Node} (h : n.isReference = true) :
    n.isAnnotatedBlock = false := by
  simp only [isReference, Bool.and_eq_true, beq_iff_eq] at h
  simp [isAnnotatedBlock, h.2]

theorem isAnnotatedBlock_of_isDefinition {n : Node} (h : n.isDefinition = true) :
    n.isAnnotatedBlock = false := by
  simp only [isDefinition, Bool.and_eq_true, beq_iff_eq] at h
  simp [isAnnotatedBlock, h.2]

/-- An annotation node is one of the three. -/
theorem annotation_cases {n : Node} (h : n.kind = NodeKind.annotation) :
    n.isReference = true ∨ n.isDefinition = true ∨ n.isAnnotatedBlock = true := by
  simp only [isReference, isDefinition, isAnnotatedBlock, h, beq_self_eq_true, Bool.true_and,
    Bool.and_eq_true, bne_iff_ne, beq_iff_eq]
  tauto

/-- The name in the marker of a reference. -/
def markerName (n : Node) : Text :=
  n.localName.getD ['1']

mutual

/--
The references whose markers stand in the Markdown of a node, each with the number of annotated
blocks that renumber it: those around it of which it is not in a child that is a block itself.
-/
def references : Node → List (Text × Nat)
  | ⟨tag, attributes, children, text, marks⟩ =>
    if isReference ⟨tag, attributes, children, text, marks⟩ then
      [(markerName ⟨tag, attributes, children, text, marks⟩, 0)]
    else if isAnnotatedBlock ⟨tag, attributes, children, text, marks⟩ then
      referencesInBlock children
    else if (kind ⟨tag, attributes, children, text, marks⟩).carriesMarkers then
      referencesOf children
    else []

def referencesInBlock : List Node → List (Text × Nat)
  | [] => []
  | n :: ns =>
    (if n.isAnnotatedBlock then references n
      else (references n).map fun r => (r.1, r.2 + 1)) ++ referencesInBlock ns

def referencesOf : List Node → List (Text × Nat)
  | [] => []
  | n :: ns => references n ++ referencesOf ns

end

theorem references_eq (n : Node) : n.references =
    if n.isReference then [(n.markerName, 0)]
    else if n.isAnnotatedBlock then referencesInBlock n.children
    else if n.kind.carriesMarkers then referencesOf n.children
    else [] := by
  cases n
  rw [references]

end Node

namespace Convert

variable {n : Node} (ctx : Context) (children : List Fragment) (level : Int)

theorem annotation_of_reference (h : n.isReference = true) :
    annotation ctx n children level = annotationReference ctx n children level := by
  simp only [Node.isReference, Bool.and_eq_true, beq_iff_eq] at h
  unfold annotation
  rw [Node.attr_of_annotationWord h.2]
  rfl

theorem annotation_of_definition (h : n.isDefinition = true) :
    annotation ctx n children level = annotationDefinition ctx n children level := by
  simp only [Node.isDefinition, Bool.and_eq_true, beq_iff_eq] at h
  unfold annotation
  rw [Node.attr_of_annotationWord h.2]
  rfl

theorem annotation_of_block (h : n.isAnnotatedBlock = true) :
    annotation ctx n children level = annotationBlock ctx n children level := by
  simp only [Node.isAnnotatedBlock, Bool.and_eq_true, bne_iff_ne] at h
  unfold annotation
  split
  · rename_i he
    exact absurd (congrArg Json.string? he) h.1.2
  · rename_i he
    exact absurd (congrArg Json.string? he) h.2
  · rfl

end Convert

end Docmark
