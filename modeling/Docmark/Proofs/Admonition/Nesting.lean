import Docmark.Admonition.Event

/-!
The events of admonitions nest as the admonitions do. Whatever the tokens are, each group of events
that opens is closed, with titles and other groups between; where admonitions are built of titles
and content, each has its group, in document order, around the groups of those in it.
-/

namespace Docmark

variable {α : Type}

/-- The tokens right below a token. -/
def Token.within (t : Token α) : List (Token α) :=
  t.children.getD []

namespace Admonition

/-- Holds of all tokens in a row if it holds of those below the first one and of those after it. -/
@[elab_as_elim]
theorem tokenInduction {P : List (Token α) → Prop} (nil : P [])
    (cons : ∀ t ts, P t.within → P ts → P (t :: ts)) : ∀ ts, P ts
  | [] => nil
  | ⟨kind, label, text, raw, none⟩ :: ts =>
    cons ⟨kind, label, text, raw, none⟩ ts nil (tokenInduction nil cons ts)
  | ⟨kind, label, text, raw, some children⟩ :: ts =>
    cons ⟨kind, label, text, raw, some children⟩ ts (tokenInduction nil cons children)
      (tokenInduction nil cons ts)

mutual

def tokensOf : Token α → List (Token α)
  | ⟨kind, label, text, raw, children⟩ => ⟨kind, label, text, raw, children⟩ :: tokensIn children

def tokensIn : Option (List (Token α)) → List (Token α)
  | none => []
  | some ts => documentOrder ts

/-- The tokens and those at any depth below them, each before those below it. -/
def documentOrder : List (Token α) → List (Token α)
  | [] => []
  | t :: ts => tokensOf t ++ documentOrder ts

end

/-- The admonitions among the tokens and below them, in document order. -/
def admonitions (ts : List (Token α)) : List (Token α) :=
  (documentOrder ts).filter fun t => t.kind == admonitionTag

def titleEvents (label : α) (text : Text) : List (Event α) :=
  [⟨.titleOpens, label, []⟩, ⟨.title, label, text⟩, ⟨.titleCloses, label, []⟩]

mutual

/-- Events that nest: one group after another. -/
inductive Nested : List (Event α) → Prop
  | nil : Nested []
  | group {label : α} {inner own rest : List (Event α)} (body : Body label inner own)
      (below : Nested rest) : Nested (⟨.opens, label, []⟩ :: inner ++ ⟨.closes, label, []⟩ :: rest)

/-- The events inside a group: titles with its label, and other groups, which are its `own`. -/
inductive Body : α → List (Event α) → List (Event α) → Prop
  | nil {label : α} : Body label [] []
  | title {label : α} {inner own : List (Event α)} (text : Text) (rest : Body label inner own) :
      Body label (titleEvents label text ++ inner) own
  | groups {label : α} {es inner own : List (Event α)} (first : Nested es)
      (rest : Body label inner own) : Body label (es ++ inner) (es ++ own)

end

-- By recursion on the first derivation, since `induction` refuses one of a mutual pair.
theorem Nested.append {es fs : List (Event α)} : Nested es → Nested fs → Nested (es ++ fs)
  | .nil, h => h
  | .group body below, h => by
    rw [List.append_assoc, List.cons_append]
    exact .group body (below.append h)

theorem events_cons (t : Token α) (ts : List (Token α)) :
    events (t :: ts) = (if t.kind = admonitionTag then
      ⟨.opens, t.label, []⟩ :: partsEvents t.label t.within ++ [⟨.closes, t.label, []⟩]
      else events t.within) ++ events ts := by
  obtain ⟨kind, label, text, raw, children⟩ := t
  cases children <;> simp [events, eventsOf, eventsIn, partEvents, Token.within, partsEvents]

theorem partsEvents_cons (label : α) (p : Token α) (ps : List (Token α)) :
    partsEvents label (p :: ps) = (if p.kind = titleTag then titleEvents label (titleText p)
      else events p.within) ++ partsEvents label ps := by
  obtain ⟨kind, l, text, raw, children⟩ := p
  cases children <;> simp [events, eventsIn, Token.within, partsEvents, titleEvents]

theorem documentOrder_cons (t : Token α) (ts : List (Token α)) :
    documentOrder (t :: ts) = t :: documentOrder t.within ++ documentOrder ts := by
  obtain ⟨kind, label, text, raw, children⟩ := t
  cases children <;> simp [documentOrder, tokensOf, tokensIn, Token.within]

theorem admonitions_cons (t : Token α) (ts : List (Token α)) :
    admonitions (t :: ts) = (if t.kind = admonitionTag then [t] else []) ++
      admonitions t.within ++ admonitions ts := by
  rw [admonitions, documentOrder_cons]
  by_cases h : t.kind = admonitionTag <;> simp [h, admonitions]

/-- The events of any tokens nest, and so do those that stand inside an admonition. -/
theorem nested_events (ts : List (Token α)) :
    Nested (events ts) ∧ ∀ label, ∃ own, Body label (partsEvents label ts) own := by
  induction ts using tokenInduction with
  | nil => exact ⟨.nil, fun _ => ⟨[], .nil⟩⟩
  | cons t ts below after =>
    refine ⟨?_, fun label => ?_⟩
    · rw [events_cons]
      split
      · obtain ⟨own, body⟩ := below.2 t.label
        rw [List.append_assoc]
        exact .group body after.1
      · exact below.1.append after.1
    · obtain ⟨own, rest⟩ := after.2 label
      rw [partsEvents_cons]
      split
      · exact ⟨own, .title _ rest⟩
      · exact ⟨events t.within ++ own, .groups below.1 rest⟩

/-- The labels of the groups that open, in order. -/
def opened (es : List (Event α)) : List α :=
  (es.filter fun e => e.kind = .opens).map Event.label

theorem opened_append (es fs : List (Event α)) : opened (es ++ fs) = opened es ++ opened fs := by
  rw [opened, List.filter_append, List.map_append]
  rfl

theorem opened_group (label : α) (inner : List (Event α)) :
    opened (⟨.opens, label, []⟩ :: inner ++ [⟨.closes, label, []⟩]) = label :: opened inner := by
  simp [opened]

/--
The group of an admonition among events. It holds the events of the tokens below it, besides
titles; the groups before it are of the admonitions `before`, and those after it of the admonitions
`rest`, which are `after` less those below it.
-/
structure Grouped (t : Token α) (before after rest : List (Token α))
    (es front inner back : List (Event α)) : Prop where
  stream : es = front ++ (⟨.opens, t.label, []⟩ :: inner ++ [⟨.closes, t.label, []⟩]) ++ back
  inside : Body t.label inner (events t.within)
  before : opened front = before.map Token.label
  after : after = admonitions t.within ++ rest
  back : opened back = rest.map Token.label

/-- The groups of events are those of admonitions: one of each, in their order. -/
def Shows (as : List (Token α)) (es : List (Event α)) : Prop :=
  opened es = as.map Token.label ∧
    ∀ before t after, as = before ++ t :: after →
      ∃ rest front inner back, Grouped t before after rest es front inner back

section grouped
variable {t : Token α} {before after rest as bs : List (Token α)}
  {es fs front inner back : List (Event α)}

theorem Grouped.behind (g : Grouped t before after rest es front inner back)
    (h : opened fs = as.map Token.label) :
    Grouped t (as ++ before) after rest (fs ++ es) (fs ++ front) inner back := by
  refine ⟨?_, g.inside, ?_, g.after, g.back⟩
  · rw [g.stream]
    simp only [List.append_assoc]
  · rw [opened_append, h, g.before, List.map_append]

theorem Grouped.ahead (g : Grouped t before after rest es front inner back)
    (h : opened fs = as.map Token.label) :
    Grouped t before (after ++ as) (rest ++ as) (es ++ fs) front inner (back ++ fs) := by
  refine ⟨?_, g.inside, g.before, ?_, ?_⟩
  · rw [g.stream, List.append_assoc]
  · rw [g.after, List.append_assoc]
  · rw [opened_append, g.back, h, List.map_append]

theorem shows_nil (h : opened es = []) : Shows [] es :=
  ⟨h, fun before t after split => by simp at split⟩

theorem Shows.append (h : Shows as es) (h' : Shows bs fs) : Shows (as ++ bs) (es ++ fs) := by
  have second {upper lower : List (Token α)} {t : Token α} (split : bs = upper ++ t :: lower) :
      ∃ rest front inner back, Grouped t (as ++ upper) lower rest (es ++ fs) front inner back := by
    obtain ⟨rest, front, inner, back, g⟩ := h'.2 upper t lower split
    exact ⟨rest, es ++ front, inner, back, g.behind h.1⟩
  refine ⟨by rw [opened_append, h.1, h'.1, List.map_append], fun before t after split => ?_⟩
  -- Where the first list ends with `before`, the admonition is the head of the second one.
  rcases List.append_eq_append_iff.mp split with ⟨upper, rfl, lower⟩ | ⟨upper, first, lower⟩
  · exact second lower
  · cases upper with
    | nil =>
      rw [List.append_nil] at first
      exact first ▸ List.append_nil as ▸ second lower.symm
    | cons u upper =>
      obtain ⟨rfl, rfl⟩ := List.cons.inj lower
      obtain ⟨rest, front, inner, back, g⟩ := h.2 before t upper first
      exact ⟨rest ++ bs, front, inner, back ++ fs, g.ahead h'.1⟩

theorem Shows.group (h : Shows (admonitions t.within) inner)
    (body : Body t.label inner (events t.within)) :
    Shows (t :: admonitions t.within)
      (⟨.opens, t.label, []⟩ :: inner ++ [⟨.closes, t.label, []⟩]) := by
  refine ⟨by rw [opened_group, h.1, List.map_cons], fun before s after split => ?_⟩
  cases before with
  | nil =>
    obtain ⟨rfl, rfl⟩ := List.cons.inj split
    exact ⟨[], [], inner, [], by simp, body, rfl, by simp, rfl⟩
  | cons u before =>
    obtain ⟨rfl, below⟩ := List.cons.inj split
    obtain ⟨rest, front, middle, back, g⟩ := h.2 before s after below
    have opens : opened [⟨.opens, t.label, []⟩] = [t].map Token.label := rfl
    have closes : opened [⟨.closes, t.label, []⟩] = ([] : List (Token α)).map Token.label := rfl
    have g := (g.behind opens).ahead closes
    rw [List.append_nil, List.append_nil] at g
    exact ⟨rest, _, middle, _, g⟩

end grouped

/-- What an admonition is built of: a title that holds no admonition, or its content. -/
def IsPart (p : Token α) : Prop :=
  p.kind = titleTag ∧ admonitions p.within = [] ∨ p.kind = contentTag

/-- Each admonition, at any depth, has titles and contents below it only. -/
def Built (ts : List (Token α)) : Prop :=
  ∀ t ∈ admonitions ts, ∀ p ∈ t.within, IsPart p

theorem built_nil : Built ([] : List (Token α)) :=
  fun _ h => nomatch h

theorem built_cons {t : Token α} {ts : List (Token α)} :
    Built (t :: ts) ↔ (t.kind = admonitionTag → ∀ p ∈ t.within, IsPart p) ∧
      Built t.within ∧ Built ts := by
  rw [Built, admonitions_cons]
  by_cases h : t.kind = admonitionTag <;> simp [h, or_imp, forall_and, Built]

theorem built_other {t : Token α} {ts : List (Token α)} (h : t.kind ≠ admonitionTag) :
    Built (t :: ts) ↔ Built t.within ∧ Built ts := by
  rw [built_cons]
  exact ⟨And.right, fun below => ⟨fun he => absurd he h, below⟩⟩

/-- An admonition as it is built, with its title and the tokens of its body. -/
def ofBody (label : α) (title : Text) (content : List (Token α)) : Token α :=
  ⟨admonitionTag, label, none, none,
    some [⟨titleTag, label, some title, none, none⟩,
      ⟨contentTag, label, none, none, some content⟩]⟩

theorem built_ofBody (label : α) (title : Text) {content ts : List (Token α)} :
    Built (ofBody label title content :: ts) ↔ Built content ∧ Built ts := by
  have row : ∀ p ∈ (ofBody label title content).within, IsPart p := by
    simp [ofBody, Token.within, IsPart, admonitions, documentOrder]
  have inner : Built (ofBody label title content).within ↔ Built content := by
    have other : titleTag ≠ admonitionTag ∧ contentTag ≠ admonitionTag := by decide
    simp [ofBody, Token.within, built_other, built_nil, other]
  rw [built_cons, inner]
  exact ⟨And.right, fun h => ⟨fun _ => row, h⟩⟩

theorem events_eq_nil {ts : List (Token α)} (h : admonitions ts = []) : events ts = [] := by
  induction ts using tokenInduction with
  | nil => rfl
  | cons t ts below after =>
    rw [admonitions_cons] at h
    obtain ⟨upper, rest⟩ := List.append_eq_nil_iff.mp h
    obtain ⟨self, inner⟩ := List.append_eq_nil_iff.mp upper
    have other : t.kind ≠ admonitionTag := fun he => by simp [he] at self
    rw [events_cons, if_neg other, below inner, after rest]
    rfl

/-- Inside an admonition stand its titles and the events of what it holds. -/
theorem body_partsEvents (label : α) {ps : List (Token α)} (parts : ∀ p ∈ ps, IsPart p) :
    Body label (partsEvents label ps) (events ps) := by
  induction ps with
  | nil => exact .nil
  | cons p ps ih =>
    have rest := ih fun q hq => parts q (List.mem_cons_of_mem p hq)
    rw [partsEvents_cons, events_cons]
    rcases parts p List.mem_cons_self with ⟨title, none⟩ | content
    · have inner : p.kind ≠ admonitionTag := by rw [title]; decide
      rw [if_pos title, if_neg inner, events_eq_nil none]
      exact .title _ rest
    · have other : p.kind ≠ titleTag ∧ p.kind ≠ admonitionTag := by rw [content]; decide
      rw [if_neg other.1, if_neg other.2]
      exact .groups (nested_events p.within).1 rest

/--
The groups of admonitions that are built of parts are shown. The second half is what the induction
needs below an admonition, where the tokens are its parts and titles have events of their own.
-/
theorem shows_events {ts : List (Token α)} (built : Built ts) :
    Shows (admonitions ts) (events ts) ∧
      ((∀ p ∈ ts, IsPart p) → ∀ label, Shows (admonitions ts) (partsEvents label ts)) := by
  induction ts using tokenInduction with
  | nil => exact ⟨shows_nil rfl, fun _ _ => shows_nil rfl⟩
  | cons t ts below after =>
    obtain ⟨parts, inner, rest⟩ := built_cons.mp built
    refine ⟨?_, fun row label => ?_⟩
    · rw [admonitions_cons, events_cons]
      refine Shows.append ?_ (after rest).1
      by_cases h : t.kind = admonitionTag
      · rw [if_pos h, if_pos h]
        exact ((below inner).2 (parts h) t.label).group (body_partsEvents t.label (parts h))
      · rw [if_neg h, if_neg h]
        exact (below inner).1
    · rw [admonitions_cons, partsEvents_cons]
      have later := (after rest).2 (fun q hq => row q (List.mem_cons_of_mem t hq)) label
      refine Shows.append ?_ later
      rcases row t List.mem_cons_self with ⟨title, none⟩ | content
      · have other : t.kind ≠ admonitionTag := by rw [title]; decide
        rw [if_neg other, if_pos title, none]
        exact shows_nil rfl
      · have other : t.kind ≠ titleTag ∧ t.kind ≠ admonitionTag := by rw [content]; decide
        rw [if_neg other.2, if_neg other.1]
        exact (below inner).1

/-- A quote with a note that holds a tip, and a warning after it. -/
def quotedNote : List (Token Label) :=
  [⟨"block_quote".toList, {}, none, none, some
    [ofBody ⟨"note".toList, (0, 5)⟩ "Note".toList
      [⟨"paragraph".toList, {}, none, none, some []⟩,
        ofBody ⟨"tip".toList, (2, 5)⟩ "Look".toList []]]⟩,
    ofBody ⟨"warning".toList, (6, 8)⟩ "Warning".toList []]

end Admonition
end Docmark
