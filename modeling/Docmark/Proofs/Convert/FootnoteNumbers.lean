import Docmark.Proofs.Convert.BlockNumbers
import Docmark.Proofs.Convert.Document
import Docmark.Proofs.Footnote.Numbering

/-!
Footnotes through a document. Main statement: names are numbered in the order of their first nodes,
references show these numbers, and below the body stand the definitions by number, for each name
the content of the last one.
-/

namespace Docmark

open Conversion Footnote

namespace Node

/-- The name of a footnote, none for one without a name and for all other nodes. -/
def footnoteName (n : Node) : Option Text :=
  if n.kind = .footnote then Convert.nameOf (n.attr "id") else none

def isFootnoteDefinition (n : Node) : Bool :=
  (n.attr "footnoteType").string? == some "definition"

/-- The names of the footnotes of a tree, as their nodes are converted. -/
def footnoteNames (n : Node) : List Text :=
  n.converted.flatMap fun m => m.footnoteName.toList

/-- The names of the references to footnotes. -/
def footnoteReferences (n : Node) : List Text :=
  n.converted.flatMap fun m => if m.isFootnoteDefinition then [] else m.footnoteName.toList

theorem mem_footnoteNames {n : Node} {x : Text} (h : x ∈ n.footnoteReferences) :
    x ∈ n.footnoteNames := by
  obtain ⟨m, hm, hx⟩ := List.mem_flatMap.mp h
  refine List.mem_flatMap.mpr ⟨m, hm, ?_⟩
  split at hx
  · cases hx
  · exact hx

/-- A reference to a footnote. -/
def footnoteTo (name : String) : Node :=
  ⟨"footnote", [("id", .str name)], [], none, []⟩

/-- The definition of a footnote. -/
def footnoteOf (name : String) (content : List Node) : Node :=
  ⟨"footnote", [("id", .str name), ("footnoteType", .str "definition")], [paragraphOf content],
    none, []⟩

end Node

namespace Visit

def named (v : Visit) : List Text :=
  v.node.footnoteName.toList

def referenced (v : Visit) : List Text :=
  if v.node.isFootnoteDefinition then [] else v.named

/-- The name and the content of a definition. -/
def defined (v : Visit) : List (Text × Text) :=
  if v.node.isFootnoteDefinition then v.named.map fun x => (x, Fragment.joinedWords v.children)
  else []

theorem named_of_mem_referenced {v : Visit} {x : Text} (h : x ∈ v.referenced) : v.named = [x] := by
  rw [referenced] at h
  rw [named] at h ⊢
  cases name : v.node.footnoteName <;> simp_all

end Visit

/-- What a reference to a footnote is written as. -/
def Footnote.sign (number : Nat) : Text :=
  '[' :: '^' :: Text.decimal number ++ [']']

/-- A footnote below the body, by number and content. -/
def Footnote.noteEntry (e : Nat × Text) : Text :=
  sign e.1 ++ ':' :: ' ' :: e.2

/-- The body of a document with footnotes below it. -/
def pageOf (body : Text) (entries : List (Nat × Text)) : Text :=
  Text.joinBlocks ((if body.isEmpty then [] else [body]) ++ entries.map noteEntry)

theorem strip_joinedWords (fs : List Fragment) :
    Text.strip (Fragment.joinedWords fs) = Fragment.joinedWords fs := by
  rw [Fragment.joinedWords]
  generalize hw : ((fs.map fun f => Text.strip f.markdown).filter fun t => !t.isEmpty) = ws
  have trimmed : ∀ w ∈ ws, Text.Trimmed w := by
    intro w hm
    rw [← hw, List.mem_filter, List.mem_map] at hm
    obtain ⟨⟨f, -, rfl⟩, ne⟩ := hm
    exact ⟨by simpa using ne, Text.dropAround_dropAround _ _⟩
  by_cases none : ws = []
  · rw [none]
    rfl
  · exact (Text.trimmed_joinWith none trimmed).stripped

/-- Annotations leave the numbers of footnotes alone. -/
theorem Convert.footnotes_annotation {ctx : Context} {n : Node} {children : List Fragment}
    {level : Int} {s s' : Session} {f : Fragment} (kind : n.kind = NodeKind.annotation)
    (h : Convert.annotation ctx n children level s = .ok (f, s')) : s'.footnotes = s.footnotes := by
  rcases Node.annotation_cases kind with reference | definition | block
  · rw [Convert.annotation_of_reference _ _ _ reference] at h
    rw [(pure_ok.mp h).2]
  · rw [Convert.annotation_of_definition _ _ _ definition] at h
    rw [(pure_ok.mp h).2]
  · rw [Convert.annotation_of_block _ _ _ block] at h
    rw [Convert.annotationBlock_after h]

/-- What a footnote node does: nothing without a name, else it defines the name or refers to it. -/
theorem Convert.footnote_ok {ctx : Context} {n : Node} {children : List Fragment} {level : Int}
    {s s' : Session} {f : Fragment} (kind : n.kind = .footnote)
    (h : Convert.footnote ctx n children level s = .ok (f, s')) :
    (n.footnoteName = none ∧ f.markdown = [] ∧ s'.footnotes = s.footnotes) ∨
      ∃ x, n.footnoteName = some x ∧
        ((n.isFootnoteDefinition = true ∧ f.markdown = [] ∧
            s'.footnotes = (s.footnotes.define x (Fragment.joinedWords children)).2) ∨
          (n.isFootnoteDefinition = false ∧ f.markdown = sign (s.footnotes.reference x).1 ∧
            s'.footnotes = (s.footnotes.reference x).2)) := by
  have name : n.footnoteName = Convert.nameOf (n.attr "id") := if_pos kind
  rw [Convert.footnote] at h
  rw [name]
  cases id : Convert.nameOf (n.attr "id") with
  | none =>
    rw [id] at h
    obtain ⟨rfl, rfl⟩ := pure_ok.mp h
    exact Or.inl ⟨rfl, rfl, rfl⟩
  | some x =>
    rw [id] at h
    obtain ⟨t, s₁, get, run⟩ := bind_ok.mp h
    obtain ⟨rfl, rfl⟩ := get_ok.mp get
    refine Or.inr ⟨x, rfl, ?_⟩
    split at run
    all_goals
      rename_i defines
      obtain ⟨_, s₂, stored, done⟩ := bind_ok.mp run
      obtain ⟨written, after⟩ := pure_ok.mp done
      rw [set_ok] at stored
      rw [← written, ← after, stored]
    · exact Or.inl ⟨defines, rfl, rfl⟩
    · exact Or.inr ⟨Bool.eq_false_iff.mpr defines, rfl, rfl⟩

namespace Visit.Made

variable {ctx : Context} {v : Visit}

/-- Only footnote nodes touch the numbers of footnotes. -/
theorem footnotes_of_other (made : v.Made ctx) (other : v.node.kind ≠ .footnote) :
    v.after.footnotes = v.before.footnotes := by
  cases made with
  | read unknown same => rw [same]
  | @converted convert registered _ run =>
    by_cases kind : v.node.kind = NodeKind.annotation
    · rw [kind] at registered
      cases registered
      exact Convert.footnotes_annotation kind run
    · exact (keeps_plain (Dictionary.mem_of_get? registered) kind other _ _ _ _ _ _ _ run).2

theorem run_of_footnote (made : v.Made ctx) (kind : v.node.kind = .footnote) :
    Convert.footnote ctx v.node v.children v.level v.before = .ok (v.fragment, v.after) := by
  cases made with
  | read unknown same =>
    rw [kind] at unknown
    cases unknown
  | converted registered _ run =>
    rw [kind] at registered
    cases registered
    exact run

theorem counts (made : v.Made ctx) {names refs : List Text} {defs : List (Text × Text)}
    (h : v.before.footnotes.Counts names refs defs) :
    v.after.footnotes.Counts (names ++ v.named) (refs ++ v.referenced) (defs ++ v.defined) ∧
      ∀ x ∈ v.referenced, v.fragment.markdown = sign (numberAmong (names ++ [x]) x) := by
  rw [Visit.referenced, Visit.defined, Visit.named]
  by_cases kind : v.node.kind = .footnote
  · rcases Convert.footnote_ok kind (made.run_of_footnote kind) with
      ⟨name, -, same⟩ | ⟨x, name, ⟨defines, -, next⟩ | ⟨refers, shown, next⟩⟩
    · rw [same, name]
      simpa using h
    · rw [next, name, defines]
      simpa using (h.define x _).2
    · obtain ⟨number, counts⟩ := h.reference x
      rw [next, name, refers]
      refine ⟨by simpa using counts, fun y hy => ?_⟩
      obtain rfl : y = x := by simpa using hy
      rw [shown, number]
  · rw [made.footnotes_of_other kind, Node.footnoteName, if_neg kind]
    simpa using h

end Visit.Made

/-- Footnotes through conversions one after the other. -/
theorem Visited.counts {ctx : Context} {s t : Session} {vs : List Visit} (h : Visited ctx s vs t)
    {names refs : List Text} {defs : List (Text × Text)}
    (start : s.footnotes.Counts names refs defs) :
    t.footnotes.Counts (names ++ vs.flatMap Visit.named) (refs ++ vs.flatMap Visit.referenced)
        (defs ++ vs.flatMap Visit.defined) ∧
      ∀ v ∈ vs, ∀ x ∈ v.referenced,
        v.fragment.markdown = sign (numberAmong (names ++ vs.flatMap Visit.named) x) := by
  induction h generalizing names refs defs with
  | nil s => simpa using start
  | @cons v vs t made rest ih =>
    obtain ⟨first, shown⟩ := made.counts start
    obtain ⟨counts, others⟩ := ih first
    simp only [List.append_assoc, ← List.flatMap_cons] at counts others
    refine ⟨counts, fun w hw x hx => ?_⟩
    rcases List.mem_cons.mp hw with rfl | hw
    · have later := numberAmong_append (List.mem_append_right names (List.mem_singleton_self x))
        (vs.flatMap Visit.named)
      rw [shown x hx, List.flatMap_cons, Visit.named_of_mem_referenced hx, ← List.append_assoc,
        later]
    · exact others w hw x hx

theorem footnoteNames_eq {n : Node} {vs : List Visit} (nodes : vs.map Visit.node = n.converted) :
    n.footnoteNames = vs.flatMap Visit.named := by
  rw [Node.footnoteNames, ← nodes, List.flatMap_map]
  rfl

theorem footnoteReferences_eq {n : Node} {vs : List Visit}
    (nodes : vs.map Visit.node = n.converted) :
    n.footnoteReferences = vs.flatMap Visit.referenced := by
  rw [Node.footnoteReferences, ← nodes, List.flatMap_map]
  rfl

/-- The footnotes of a document, as its conversions leave and show them. -/
theorem visits_footnotes {ctx : Context} {level : Int} {n : Node} {f : Fragment} {vs : List Visit}
    {s : Session} (made : visits Registry.standard ctx level n {} = .ok ((f, vs), s)) :
    s.footnotes.Counts n.footnoteNames n.footnoteReferences (vs.flatMap Visit.defined) ∧
      (∀ v ∈ vs, ∀ x ∈ v.referenced,
        v.fragment.markdown = sign (numberAmong n.footnoteNames x)) ∧
      ∀ p ∈ vs.flatMap Visit.defined, Text.strip p.2 = p.2 := by
  obtain ⟨visited, nodes⟩ := visits_ok made
  obtain ⟨counts, shown⟩ := visited.counts State.counts_initial
  rw [List.nil_append, List.nil_append, List.nil_append, ← footnoteNames_eq nodes,
    ← footnoteReferences_eq nodes] at counts
  rw [List.nil_append, ← footnoteNames_eq nodes] at shown
  refine ⟨counts, shown, fun p hp => ?_⟩
  obtain ⟨v, -, hp⟩ := List.mem_flatMap.mp hp
  rw [Visit.defined] at hp
  split at hp
  · obtain ⟨x, -, rfl⟩ := List.mem_map.mp hp
    exact strip_joinedWords v.children
  · cases hp

/-- The footnotes that are kept, by number. -/
def Footnote.State.entries (s : Footnote.State) : List (Nat × Text) :=
  s.ordered.map fun d => (d.number, d.content)

theorem withFootnotes_eq (o : ConversionOptions) (body : Text) (s : Footnote.State) :
    withFootnotes o body s = if o.includeFootnotes then pageOf body s.entries else body := by
  have rendered : s.ordered.map Definition.render = s.entries.map noteEntry := by
    rw [State.entries, List.map_map]
    apply List.map_congr_left
    intro d _
    simp [Definition.render, noteEntry, sign]
  rw [withFootnotes, State.renderDefinitions, rendered, pageOf]
  cases o.includeFootnotes with
  | false => rfl
  | true =>
    cases s.entries with
    | nil => cases body <;> rfl
    | cons e es =>
      have shown : (Text.joinBlocks ((e :: es).map noteEntry)).isEmpty = false := by
        cases es <;> rfl
      rw [shown]
      cases body with
      | nil => rfl
      | cons c r => rfl

namespace Footnote.State.Counts

variable {s : Footnote.State} {names refs : List Text} {defs : List (Text × Text)}

theorem entries_lt (h : s.Counts names refs defs) :
    s.entries.Pairwise fun a b => a.1 < b.1 :=
  List.pairwise_map.mpr h.ordered_lt

theorem mem_entries (h : s.Counts names refs defs)
    (stripped : ∀ p ∈ defs, Text.strip p.2 = p.2) {k : Nat} {t : Text} :
    (k, t) ∈ s.entries ↔
      ∃ x, Convert.lastContent x defs = some t ∧ k = numberAmong names x := by
  rw [entries, List.mem_map]
  constructor
  · rintro ⟨d, hd, he⟩
    obtain ⟨x, c, hc, rfl⟩ := h.mem_ordered.mp hd
    obtain ⟨rfl, rfl⟩ := Prod.mk.inj he
    exact ⟨x, by rw [stripped _ (Convert.mem_of_lastContent hc)]; exact hc, rfl⟩
  · rintro ⟨x, hc, rfl⟩
    refine ⟨_, h.mem_ordered.mpr ⟨x, t, hc, rfl⟩, ?_⟩
    rw [stripped _ (Convert.mem_of_lastContent hc)]

end Footnote.State.Counts

/--
The footnotes of a document: the numbers of their names, the references in the Markdown, and the
entries below it, which are those of the last definitions.
-/
theorem convertDocument_footnotes {source : Source} {options : ConversionOptions}
    {overrides : OptionValues} {resolver : Link.Resolver} {c : Converted}
    (h : convertDocument source options overrides resolver = .ok c) :
    ∃ o n f s vs, options.update overrides = .ok o ∧ source.load o = .ok n ∧
      visits Registry.standard ⟨o, resolver⟩ 0 n {} = .ok ((f, vs), s) ∧
      vs.map Visit.node = n.converted ∧
      (∀ x k, s.footnotes.numbers.get? x = some k ↔
        x ∈ n.footnoteNames ∧ k = numberAmong n.footnoteNames x) ∧
      (∀ v ∈ vs, ∀ x, v.node.footnoteName = some x → v.node.isFootnoteDefinition = false →
        v.fragment.markdown = sign (numberAmong n.footnoteNames x)) ∧
      ∃ entries : List (Nat × Text), (entries.Pairwise fun a b => a.1 < b.1) ∧
        (∀ k t, (k, t) ∈ entries ↔ ∃ x, Convert.lastContent x (vs.flatMap Visit.defined) = some t ∧
          k = numberAmong n.footnoteNames x) ∧
        c.footnotes = entries.map (fun e => (Text.decimal e.1, e.2)) ∧
        c.markdown = (if o.collapseBlankLines then Markdown.collapseBlankLines else id)
          (if o.includeFootnotes then pageOf (Text.trimNewlines f.markdown) entries
            else Text.trimNewlines f.markdown) := by
  obtain ⟨o, n, f, s, updated, loaded, walked, rfl⟩ := convertDocument_ok h
  obtain ⟨vs, made⟩ := visits_of_walk walked
  obtain ⟨-, nodes⟩ := visits_ok made
  obtain ⟨counts, shown, stripped⟩ := visits_footnotes made
  refine ⟨o, n, f, s, vs, updated, loaded, made, nodes, ?_, ?_, s.footnotes.entries,
    counts.entries_lt, fun k t => counts.mem_entries stripped, ?_, ?_⟩
  · intro x k
    rw [counts.numbers]
    split <;> simp [*, eq_comm]
  · intro v hv x name reference
    exact shown v hv x (by simp [Visit.referenced, Visit.named, name, reference])
  · simp [finishDocument, State.tooltips, State.entries]
  · rw [finishDocument, withFootnotes_eq]
    split <;> rfl

/-- Two footnotes, one of which refers to a third that is not defined. -/
def footedDocument : Node :=
  .documentOf [.paragraphOf [.ofText "A", .footnoteTo "b", .ofText " and", .footnoteTo "a"],
    .footnoteOf "a" [.ofText "one", .footnoteTo "c"], .footnoteOf "b" [.ofText "two"]]

theorem footedDocument_footnotes :
    ∃ c, convertDocument (.tree footedDocument) = .ok c ∧
      footedDocument.footnoteNames.map (numberAmong footedDocument.footnoteNames) =
        [1, 2, 3, 2, 1] ∧
      ∃ f s vs, visits Registry.standard {} 0 footedDocument {} = .ok ((f, vs), s) ∧
        (∀ v ∈ vs, ∀ x, v.node.footnoteName = some x → v.node.isFootnoteDefinition = false →
          v.fragment.markdown = sign (numberAmong footedDocument.footnoteNames x)) ∧
        ∃ entries : List (Nat × Text), (entries.Pairwise fun a b => a.1 < b.1) ∧
          c.footnotes = entries.map (fun e => (Text.decimal e.1, e.2)) ∧
          c.footnotes = [("1".toList, "two".toList), ("2".toList, "one[^3]".toList)] := by
  have run : (convertDocument (.tree footedDocument)).toOption.map Converted.footnotes =
      some [("1".toList, "two".toList), ("2".toList, "one[^3]".toList)] := by decide +kernel
  obtain ⟨c, h, contents⟩ := exists_ok_of_map run
  obtain ⟨o, n, f, s, vs, updated, loaded, made, -, -, shown, entries, up, -, kept, -⟩ :=
    convertDocument_footnotes h
  cases updated
  cases loaded
  exact ⟨c, h, by decide, f, s, vs, made, shown, entries, up, kept, contents⟩

end Docmark
