import Docmark.Proofs.Convert.Document
import Docmark.Proofs.Convert.Sighting

/-!
Which markers are backed by the definitions of their blocks. The walk keeps what the sightings tell:
what a reference shows is a marker of the Markdown, and as long as only its own block has renumbered
it, this is the number that the definitions of the block are kept under.
-/

namespace Docmark

open Annotation Conversion

theorem isNumeral_eq_true (n : Nat) : isNumeral (Text.decimal n) = true :=
  isNumeral_iff.mpr (isNumeral_decimal n)

/-- The last content of a name is found under its number. -/
def Home.Kept (a : State) (name : Text) (h : Home) : Prop :=
  ∀ c, Convert.lastContent name (Convert.definitionsFrom 1 h.children) = some c →
    (h.number : Int) ≤ a.counter ∧
      (a.definitions.get? (Text.decimal h.number)).map Definition.content = some (Text.strip c)

/-- What a sighting tells is so, with these numbers given. -/
structure Sighting.Valid (a : State) (x : Sighting) : Prop where
  literal : isNumeral x.name = false → x.shown = x.name
  numeral : isNumeral x.name = true → isNumeral x.shown = true
  homeless : x.home = none → x.passes = 0 ∧ x.shown = x.name
  housed : ∀ h, x.home = some h → 1 ≤ x.passes
  numbered : ∀ h, x.home = some h → isNumeral x.name = true → x.passes = 1 →
    x.shown = Text.decimal h.number
  kept : ∀ h, x.home = some h → h.Kept a x.name

theorem Home.Kept.grows {a b : State} {name : Text} {h : Home} (hk : h.Kept a name)
    (grows : a.Grows b) : h.Kept b name := by
  intro c hc
  obtain ⟨given, content⟩ := hk c hc
  exact ⟨Int.le_trans given grows.counter, by rw [grows.definitions h.number given, content]⟩

theorem Sighting.Valid.grows {a b : State} {x : Sighting} (hx : x.Valid a) (h : a.Grows b) :
    x.Valid b :=
  ⟨hx.literal, hx.numeral, hx.homeless, hx.housed, hx.numbered,
    fun home hh => (hx.kept home hh).grows h⟩

/-- The numerals that references show. -/
def shownNumerals (xs : List Sighting) : List Text :=
  (xs.map Sighting.shown).filter isNumeral

theorem shownNumerals_append (xs ys : List Sighting) :
    shownNumerals (xs ++ ys) = shownNumerals xs ++ shownNumerals ys := by
  simp [shownNumerals]

theorem shownNumerals_flatMap {α : Type} (f : α → List Sighting) (as : List α) :
    shownNumerals (as.flatMap f) = as.flatMap fun a => shownNumerals (f a) := by
  induction as with
  | nil => rfl
  | cons a as ih => rw [List.flatMap_cons, List.flatMap_cons, shownNumerals_append, ih]

/-- A block gives new numbers to what is shown. -/
theorem shownNumerals_pass (base : Nat) (children : List Fragment) (xs : List Sighting) :
    shownNumerals (xs.map (Sighting.pass base children)) =
      (shownNumerals xs).map (numeralIn base (Convert.blockNames children)) := by
  induction xs with
  | nil => rfl
  | cons x xs ih =>
    simp only [shownNumerals, List.map_cons, Sighting.pass] at ih ⊢
    cases hx : isNumeral x.shown with
    | true =>
      have : isNumeral (numeralIn base (Convert.blockNames children) x.shown) = true :=
        isNumeral_eq_true _
      simpa [hx, this] using ih
    | false => simpa [hx] using ih

/-- A converted node of which the sightings tell the truth. -/
structure Tracked.Faithful (a : State) (p : Tracked) : Prop where
  markers : (shownNumerals p.sightings).Sublist (markersOf p.fragment.markdown)
  valid : ∀ x ∈ p.sightings, x.Valid a
  block : p.isBlock = true →
    Convert.isAnnotatedBlock p.fragment = true ∨ p.fragment.markdown = []
  noBlock : p.isBlock = false → Convert.isAnnotatedBlock p.fragment = false

theorem Tracked.Faithful.grows {a b : State} {p : Tracked} (hp : p.Faithful a) (h : a.Grows b) :
    p.Faithful b :=
  ⟨hp.markers, fun x hx => (hp.valid x hx).grows h, hp.block, hp.noBlock⟩

/-- The last content that a block gives a name is kept under the number of the name there. -/
theorem Home.kept_afterBlock (a : State) (children : List Fragment) (name : Text) :
    Home.Kept (Convert.afterBlock a children) name
      ⟨numberIn a.counter.toNat (Convert.allNames children) name, children⟩ := by
  intro c hc
  have named : name ∈ Convert.allNames children :=
    Convert.mem_allNames_of_definition (Convert.mem_of_lastContent hc)
  refine ⟨?_, ?_⟩
  · have := Convert.numberIn_le a.counter.toNat named
    simp only [Convert.afterBlock]
    omega
  · have put : (Convert.afterBlock a children).definitions.get?
        (numeralIn a.counter.toNat (Convert.allNames children) name) = _ :=
      Convert.get?_putDefinitions (fun _ => Convert.mem_allNames_of_definition) name
    rw [hc] at put
    exact congrArg (Option.map Definition.content) put

/-- A reference in a child of the block, which is no block itself, comes home or passes through. -/
theorem Sighting.Valid.pass {a : State} (ha : a.Sound) {children : List Fragment} {x : Sighting}
    (hx : x.Valid a)
    (own : isNumeral x.shown = true → x.shown ∈ Convert.blockNames children) :
    (x.pass a.counter.toNat children).Valid (Convert.afterBlock a children) := by
  have numeral_shown (hn : isNumeral x.name = true) : (x.pass a.counter.toNat children).shown =
      numeralIn a.counter.toNat (Convert.blockNames children) x.shown := by
    simp [Sighting.pass, hx.numeral hn]
  have literal_shown (hn : isNumeral x.name = false) :
      (x.pass a.counter.toNat children).shown = x.name := by
    have := hx.literal hn
    simp [Sighting.pass, this, hn]
  refine ⟨literal_shown, fun hn => ?_, fun hh => ?_, fun _ _ => Nat.le_add_left 1 _, ?_, ?_⟩
  · rw [numeral_shown hn]
    exact isNumeral_eq_true _
  · cases hhome : x.home <;> simp [Sighting.pass, hhome] at hh
  · intro h hh hn hp
    rcases Option.or_eq_some_iff.mp hh with housed | ⟨homeless, here⟩
    · have passed := hx.housed h housed
      have unpassed : x.passes = 0 := by simpa [Sighting.pass] using hp
      omega
    · obtain rfl := Option.some.inj here
      have same := (hx.homeless homeless).2
      have known := own (hx.numeral hn)
      rw [numeral_shown hn, same, numeralIn, Convert.allNames,
        numberIn_distinctFrom (same ▸ known)]
  · intro h hh
    rcases Option.or_eq_some_iff.mp hh with housed | ⟨-, here⟩
    · exact (hx.kept h housed).grows (Convert.grows_afterBlock ha children)
    · obtain rfl := Option.some.inj here
      exact Home.kept_afterBlock a children x.name

variable {ctx : Context} {level : Int} {n : Node} {s s' : Session}

/-- The references of the parts of a block, in the Markdown of the block. -/
theorem faithful_block {parts : List Tracked} (hs : s.annotations.Sound)
    (hparts : ∀ p ∈ parts, p.Faithful s.annotations) {emitting : Bool} {lines : List Text} :
    (shownNumerals (sightingsInBlock s.annotations.counter.toNat parts)).Sublist
      (markersOf (Convert.blockFragment emitting
        ((Convert.childBlocks (parts.map Tracked.fragment)).map
          (Convert.writtenBlock s.annotations.counter.toNat
            (Convert.blockNames (parts.map Tracked.fragment)))) lines).markdown) ∧
      ∀ x ∈ sightingsInBlock s.annotations.counter.toNat parts,
        x.Valid (Convert.afterBlock s.annotations (parts.map Tracked.fragment)) := by
  constructor
  · refine List.Sublist.trans ?_ (Convert.markersOf_blockFragment _ _ _)
    rw [Convert.markersOf_body, sightingsInBlock, shownNumerals_flatMap, List.flatMap_map]
    refine List.Sublist.flatMap_right parts fun p hp => ?_
    have faithful := hparts p hp
    cases hb : p.isBlock with
    | true =>
      rcases faithful.block hb with h | h
      · simpa [h] using faithful.markers
      · have empty : shownNumerals p.sightings = [] := by
          have := faithful.markers
          rw [h] at this
          exact List.sublist_nil.mp this
        simp [empty]
    | false =>
      simp only [faithful.noBlock hb, Bool.false_eq_true, ↓reduceIte, shownNumerals_pass]
      exact faithful.markers.map _
  · intro x hx
    obtain ⟨p, hp, hx⟩ := List.mem_flatMap.mp hx
    have faithful := hparts p hp
    cases hb : p.isBlock with
    | true =>
      rw [hb] at hx
      exact (faithful.valid x hx).grows (Convert.grows_afterBlock hs _)
    | false =>
      simp only [hb, Bool.false_eq_true, ↓reduceIte, List.mem_map] at hx
      obtain ⟨y, hy, rfl⟩ := hx
      refine (faithful.valid y hy).pass hs fun hn => ?_
      have shown : y.shown ∈ shownNumerals p.sightings :=
        List.mem_filter.mpr ⟨List.mem_map_of_mem hy, hn⟩
      rw [Convert.blockNames, Text.mem_distinct, Convert.ownMarkers_childBlocks,
        List.flatMap_map]
      refine List.mem_flatMap.mpr ⟨p, hp, ?_⟩
      simpa [faithful.noBlock hb] using faithful.markers.subset shown

theorem faithful_mapM {levels : Nat}
    (node : ∀ {s s' : Session} {n : Node} {p : Tracked}, s.annotations.Sound →
      trace ctx levels level n s = .ok (p, s') →
        s.annotations.Grows s'.annotations ∧ p.Faithful s'.annotations)
    {ns : List Node} {ps : List Tracked} (hs : s.annotations.Sound)
    (h : ns.mapM (trace ctx levels level) s = .ok (ps, s')) :
    s.annotations.Grows s'.annotations ∧ ps.length = ns.length ∧
      ∀ p ∈ ps, p.Faithful s'.annotations := by
  induction ns generalizing s ps with
  | nil =>
    obtain ⟨rfl, rfl⟩ := mapM_nil_ok.mp h
    exact ⟨hs.grows, rfl, by simp⟩
  | cons n ns ih =>
    obtain ⟨p, s₁, qs, hp, hqs, rfl⟩ := mapM_cons_ok.mp h
    obtain ⟨grows, faithful⟩ := node hs hp
    obtain ⟨grows', same, faithfuls⟩ := ih grows.sound hqs
    refine ⟨grows.trans grows', by simp [same], ?_⟩
    intro q hq
    rcases List.mem_cons.mp hq with rfl | hq
    · exact faithful.grows grows'
    · exact faithfuls q hq

theorem faithful_reference {a : State} (hn : n.isReference = true) (fact : Fact)
    (hf : Convert.isAnnotatedBlock ⟨'(' :: n.markerName ++ [')'], fact⟩ = false) :
    Tracked.Faithful a ⟨⟨'(' :: n.markerName ++ [')'], fact⟩, n.isAnnotatedBlock,
      [⟨n.markerName, n.markerName, 0, none⟩]⟩ := by
  have noBlock := Node.isAnnotatedBlock_of_isReference hn
  refine ⟨?_, ?_, by simp [noBlock], fun _ => hf⟩
  · cases hd : isNumeral n.markerName with
    | false => simp [shownNumerals, hd]
    | true =>
      have marker := markersOf_append_marker [] (isNumeral_iff.mp hd) []
      have written : ([] : Text) ++ ('(' :: n.markerName ++ ')' :: []) =
          '(' :: n.markerName ++ [')'] := rfl
      have empty : markersOf [] = [] := rfl
      rw [written, empty] at marker
      rw [marker]
      simp [shownNumerals, hd]
  · intro x hx
    rw [List.mem_singleton.mp hx]
    exact ⟨fun _ => rfl, fun hd => hd, fun _ => ⟨rfl, rfl⟩, by simp, by simp, by simp⟩

theorem sightingsIn_of_carries {base : Nat} {parts : List Tracked}
    (hk : n.kind ≠ NodeKind.annotation) :
    sightingsIn n base parts =
      if n.kind.carriesMarkers then parts.flatMap Tracked.sightings else [] := by
  have noReference : n.isReference = false := by simp [Node.isReference, hk]
  have noBlock : n.isAnnotatedBlock = false := by simp [Node.isAnnotatedBlock, hk]
  simp [sightingsIn, noReference, noBlock]

/-- Containers hand on what is in their children, other nodes have no references. -/
theorem faithful_container {parts : List Tracked} {convert : Converter} {base : Nat}
    {f : Fragment} (hk : n.kind ≠ NodeKind.annotation)
    (hc : Registry.builtinConverters.get? n.kind = some convert)
    (same : parts.length = n.children.length)
    (hparts : ∀ p ∈ parts, p.Faithful s.annotations)
    (h : convert ctx n (parts.map Tracked.fragment) level s = .ok (f, s')) :
    Tracked.Faithful s.annotations ⟨f, n.isAnnotatedBlock, sightingsIn n base parts⟩ := by
  have noBlock : n.isAnnotatedBlock = false := by simp [Node.isAnnotatedBlock, hk]
  refine ⟨?_, ?_, by simp [noBlock], fun _ =>
    Convert.noBlock_builtin ctx n _ level hk hc s f s' h⟩
  · rw [sightingsIn_of_carries hk]
    split
    · rename_i hcarries
      refine List.Sublist.trans ?_
        ((signs_markersOf.carries hcarries hc (by simpa using same) h).1 markersOf_append_sublist)
      rw [shownNumerals_flatMap, List.flatMap_map]
      exact List.Sublist.flatMap_right parts fun p hp => (hparts p hp).markers
    · exact List.nil_sublist _
  · intro x hx
    rw [sightingsIn_of_carries hk] at hx
    split at hx
    · obtain ⟨p, hp, hx⟩ := List.mem_flatMap.mp hx
      exact (hparts p hp).valid x hx
    · simp at hx

/-- An annotation node with converted children. -/
theorem faithful_annotation {parts : List Tracked} {f : Fragment}
    (hk : n.kind = NodeKind.annotation)
    (hs : s.annotations.Sound) (hparts : ∀ p ∈ parts, p.Faithful s.annotations)
    (h : Convert.annotation ctx n (parts.map Tracked.fragment) level s = .ok (f, s')) :
    Tracked.Faithful s'.annotations
      ⟨f, n.isAnnotatedBlock, sightingsIn n s.annotations.counter.toNat parts⟩ := by
  rcases Node.annotation_cases hk with hn | hn | hn
  · rw [Convert.annotation_of_reference ctx _ level hn] at h
    obtain ⟨rfl, rfl⟩ := pure_ok.mp h
    simp only [sightingsIn, hn, ↓reduceIte]
    exact faithful_reference hn _ rfl
  · rw [Convert.annotation_of_definition ctx _ level hn] at h
    obtain ⟨rfl, rfl⟩ := pure_ok.mp h
    have noBlock := Node.isAnnotatedBlock_of_isDefinition hn
    simp only [Node.isDefinition, Bool.and_eq_true, beq_iff_eq] at hn
    have noReference : n.isReference = false := by simp [Node.isReference, hn.2]
    have none : sightingsIn n s.annotations.counter.toNat parts = [] := by
      simp [sightingsIn, noReference, noBlock, hn.1, NodeKind.carriesMarkers]
    rw [none]
    exact ⟨List.nil_sublist _, by simp, by simp [noBlock], fun _ => rfl⟩
  · rw [Convert.annotation_of_block ctx _ level hn, Convert.annotationBlock_run hs] at h
    cases h
    have noReference : n.isReference = false := by
      simp only [Node.isAnnotatedBlock, Bool.and_eq_true, bne_iff_ne] at hn
      simp [Node.isReference, hn.1.2]
    have inside : sightingsIn n s.annotations.counter.toNat parts =
        sightingsInBlock s.annotations.counter.toNat parts := by
      simp [sightingsIn, noReference, hn]
    rw [inside]
    obtain ⟨markers, valid⟩ := faithful_block hs hparts
    refine ⟨markers, valid, fun _ => ?_, by simp [hn]⟩
    unfold Convert.blockFragment
    split
    · exact Or.inr rfl
    · exact Or.inl rfl

/-- The walk keeps what the sightings tell. -/
theorem trace_faithful {levels : Nat} {p : Tracked} (hs : s.annotations.Sound)
    (h : trace ctx levels level n s = .ok (p, s')) :
    s.annotations.Grows s'.annotations ∧ p.Faithful s'.annotations := by
  induction levels generalizing level n s s' p with
  | zero => simp [trace] at h
  | succ below ih =>
    obtain ⟨f, isBlock, sightings⟩ := p
    rcases trace_ok h with ⟨hc, hf, hb, hx, rfl⟩ |
      ⟨convert, parts, s₁, hc, hparts, hf, hb, hx⟩
    · dsimp only at hf hb hx
      subst hb hx
      have noBlock : n.isAnnotatedBlock = false := by
        cases hn : n.isAnnotatedBlock with
        | false => rfl
        | true =>
          rw [Node.kind_of_isAnnotatedBlock hn] at hc
          cases hc
      refine ⟨hs.grows, List.nil_sublist _, by simp, by simp [noBlock], fun _ => ?_⟩
      simp [Convert.isAnnotatedBlock, hf]
    · dsimp only at hf hb hx
      subst hb hx
      obtain ⟨grows, same, faithful⟩ := faithful_mapM (fun hs h => ih hs h) hs hparts
      by_cases hk : n.kind = NodeKind.annotation
      · have hc' : convert = Convert.annotation := by
          rw [hk] at hc
          cases hc
          rfl
        subst hc'
        have grows' := keeps_annotation ctx n _ level s₁ f s' hf grows.sound
        exact ⟨grows.trans grows', faithful_annotation hk grows.sound faithful hf⟩
      · have kept := keeps_builtin (Dictionary.mem_of_get? hc) hk ctx n _ level s₁ f s' hf
        rw [SameAnnotations] at kept
        rw [kept]
        exact ⟨grows, faithful_container hk hc same faithful hf⟩

/-- The name of a reference, and how many blocks have renumbered it. -/
def Sighting.key (x : Sighting) : Text × Nat :=
  (x.name, x.passes)

theorem references_mapM {levels : Nat}
    (node : ∀ {s s' : Session} {n : Node} {p : Tracked},
      trace ctx levels level n s = .ok (p, s') →
        p.isBlock = n.isAnnotatedBlock ∧ p.sightings.map Sighting.key = n.references)
    {ns : List Node} {ps : List Tracked} (h : ns.mapM (trace ctx levels level) s = .ok (ps, s')) :
    (ps.flatMap Tracked.sightings).map Sighting.key = Node.referencesOf ns ∧
      ∀ base children, (ps.flatMap fun p =>
          if p.isBlock then p.sightings
          else p.sightings.map (Sighting.pass base children)).map Sighting.key =
        Node.referencesInBlock ns := by
  induction ns generalizing s ps with
  | nil =>
    obtain ⟨rfl, rfl⟩ := mapM_nil_ok.mp h
    exact ⟨rfl, fun _ _ => rfl⟩
  | cons n ns ih =>
    obtain ⟨p, s₁, qs, hp, hqs, rfl⟩ := mapM_cons_ok.mp h
    obtain ⟨hb, hx⟩ := node hp
    obtain ⟨outside, inside⟩ := ih hqs
    refine ⟨?_, fun base children => ?_⟩
    · rw [List.flatMap_cons, List.map_append, hx, outside, Node.referencesOf]
    · rw [List.flatMap_cons, List.map_append, inside base children, Node.referencesInBlock,
        ← hx, ← hb]
      congr 1
      split
      · rfl
      · rw [List.map_map, List.map_map]
        rfl

/-- The trace sights every reference of the tree, in document order. -/
theorem trace_references {levels : Nat} {p : Tracked}
    (h : trace ctx levels level n s = .ok (p, s')) :
    p.isBlock = n.isAnnotatedBlock ∧ p.sightings.map Sighting.key = n.references := by
  induction levels generalizing level n s s' p with
  | zero => simp [trace] at h
  | succ below ih =>
    rcases trace_ok h with ⟨hc, -, hb, hx, -⟩ | ⟨convert, parts, s₁, hc, hparts, -, hb, hx⟩
    · refine ⟨hb, ?_⟩
      have unknown : n.kind ≠ NodeKind.annotation ∧ n.kind.carriesMarkers = false := by
        cases hk : n.kind with
        | unknown => exact ⟨by decide, rfl⟩
        | _ =>
          rw [hk] at hc
          cases hc
      have noReference : n.isReference = false := by simp [Node.isReference, unknown.1]
      have noBlock : n.isAnnotatedBlock = false := by simp [Node.isAnnotatedBlock, unknown.1]
      rw [hx, Node.references_eq]
      simp [noReference, noBlock, unknown.2]
    · obtain ⟨outside, inside⟩ := references_mapM (fun h => ih h) hparts
      refine ⟨hb, ?_⟩
      rw [hx, Node.references_eq, sightingsIn]
      split
      · rfl
      · split
        · exact inside _ _
        · split
          · exact outside
          · rfl

namespace Convert

/-- The definitions among children that have a name of their own. -/
def namedDefinitions (children : List Fragment) : List (Text × Text) :=
  children.filterMap fun f =>
    match f.fact with
    | .annotationDefinition content name => (nameOf name).map (·, content)
    | _ => none

theorem mem_definitionsFrom_of_named (place : Nat) {children : List Fragment} {p : Text × Text}
    (h : p ∈ namedDefinitions children) : p ∈ definitionsFrom place children := by
  induction children generalizing place with
  | nil => simp [namedDefinitions] at h
  | cons f fs ih =>
    have rest (h : p ∈ namedDefinitions fs) : p ∈ definitionsFrom place (f :: fs) := by
      unfold definitionsFrom
      split
      · exact List.mem_cons_of_mem _ (ih _ h)
      · exact ih _ h
    rw [namedDefinitions, List.mem_filterMap] at h
    obtain ⟨g, hg, hp⟩ := h
    rcases List.mem_cons.mp hg with rfl | hg
    · split at hp
      · rename_i content name hf
        rw [Option.map_eq_some_iff] at hp
        obtain ⟨d, hd, rfl⟩ := hp
        unfold definitionsFrom
        simp [hf, hd]
      · cases hp
    · exact rest (List.mem_filterMap.mpr ⟨g, hg, hp⟩)

/-- A name that a definition has of its own is a name of the block. -/
theorem exists_lastContent {name c : Text} {children : List Fragment}
    (h : lastContent name (namedDefinitions children) = some c) :
    ∃ d, lastContent name (definitionsFrom 1 children) = some d := by
  have mem := mem_definitionsFrom_of_named 1 (mem_of_lastContent h)
  generalize definitionsFrom 1 children = defs at mem
  induction defs with
  | nil => simp at mem
  | cons p defs ih =>
    rw [lastContent]
    rcases List.mem_cons.mp mem with rfl | mem
    · cases hl : lastContent name defs with
      | some d => exact ⟨d, rfl⟩
      | none => exact ⟨c, by simp⟩
    · obtain ⟨d, hd⟩ := ih mem
      exact ⟨d, by rw [hd]; rfl⟩

end Convert

/-- The Markdown of a document has all markers of its body. -/
theorem markersOf_finishDocument (options : ConversionOptions) (body : Text) (s : Session) :
    (markersOf body).Sublist (markersOf (finishDocument options body s).markdown) := by
  have noted : (markersOf body).Sublist
      (markersOf (withFootnotes options (Text.trimNewlines body) s.footnotes)) := by
    rw [← markersOf_trimNewlines body]
    unfold withFootnotes
    dsimp only
    split
    · exact List.Sublist.refl _
    · split
      · rename_i he
        rw [List.isEmpty_iff.mp he]
        exact List.nil_sublist _
      · rw [List.append_assoc]
        exact (List.sublist_append_left _ _).trans (markersOf_append_sublist _ _)
  unfold finishDocument
  dsimp only
  split
  · rw [signs_markersOf.collapseBlankLines]
    exact noted
  · exact noted

/--
The marker of a sighting shows a number under which the document has the content, and no second
block has renumbered it.
-/
def Sighting.BackedBy (x : Sighting) (annotations : List (Text × Text)) (content : Text) : Prop :=
  annotations.lookup x.shown = some (Text.strip content) ∧ x.passes ≤ 1

/-- The references of a document, what they show, and which are backed by their definitions. -/
structure Backing (n : Node) (c : Converted) (xs : List Sighting) : Prop where
  references : xs.map Sighting.key = n.references
  shown : (shownNumerals xs).Sublist (markersOf c.markdown)
  backed_iff : ∀ x ∈ xs, ∀ home, x.home = some home → ∀ content,
    Convert.lastContent x.name (Convert.namedDefinitions home.children) = some content →
      (x.BackedBy c.annotations content ↔
        isNumeral x.name = true ∧ x.passes = 1 ∧
          (Convert.lastContent x.name (Convert.definitionsFrom 1 home.children)).map Text.strip =
            some (Text.strip content))

theorem Sighting.Valid.backedBy_iff {a : State} (ha : a.Sound) {x : Sighting} (hx : x.Valid a)
    {home : Home} (hh : x.home = some home) {content : Text}
    (defined : Convert.lastContent x.name (Convert.namedDefinitions home.children) =
      some content) :
    x.BackedBy a.tooltips content ↔
      isNumeral x.name = true ∧ x.passes = 1 ∧
        (Convert.lastContent x.name (Convert.definitionsFrom 1 home.children)).map Text.strip =
          some (Text.strip content) := by
  obtain ⟨d, hd⟩ := Convert.exists_lastContent defined
  obtain ⟨-, kept⟩ := hx.kept home hh d hd
  rw [BackedBy, ha.lookup_tooltips, hd, Option.map_some, Option.some.injEq]
  constructor
  · rintro ⟨found, once⟩
    have numeral : isNumeral x.name = true := by
      cases hn : isNumeral x.name with
      | true => rfl
      | false =>
        rw [hx.literal hn, Option.map_eq_some_iff] at found
        obtain ⟨e, he, -⟩ := found
        obtain ⟨m, hm⟩ := ha.kept _ (Dictionary.mem_of_get? he)
        have key : x.name = Text.decimal m := hm.key
        rw [key, isNumeral_eq_true] at hn
        cases hn
    have passes : x.passes = 1 := Nat.le_antisymm once (hx.housed home hh)
    rw [hx.numbered home hh numeral passes, kept] at found
    exact ⟨numeral, passes, Option.some.inj found⟩
  · rintro ⟨numeral, passes, same⟩
    rw [hx.numbered home hh numeral passes, kept, same]
    exact ⟨rfl, Nat.le_of_eq passes⟩

/--
A reference in an annotated block shows the number of its definition just where its name is a
numeral, no block but its own has renumbered it, and no later definition without a name is called by
this name with another content.
-/
theorem convertDocument_backing {source : Source} {options : ConversionOptions}
    {overrides : OptionValues} {resolver : Link.Resolver} {c : Converted}
    (h : convertDocument source options overrides resolver = .ok c) :
    ∃ o n p s, options.update overrides = .ok o ∧ source.load o = .ok n ∧
      trace ⟨o, resolver⟩ (Context.mk o resolver).ceiling.levels 0 n {} = .ok (p, s) ∧
      Backing n c p.sightings := by
  obtain ⟨o, n, f, s, ho, hn, hw, rfl⟩ := convertDocument_ok h
  obtain ⟨p, hp, rfl⟩ := trace_of_walk hw
  obtain ⟨grows, faithful⟩ := trace_faithful State.sound_initial hp
  refine ⟨o, n, p, s, ho, hn, hp, (trace_references hp).2, ?_, ?_⟩
  · exact faithful.markers.trans (markersOf_finishDocument o p.fragment.markdown s)
  · intro x hx home hh content defined
    exact (faithful.valid x hx).backedBy_iff grows.sound hh defined

/-- A block in a panel in another block. -/
def panelledDocument : Node :=
  .documentOf [.blockOf [.panelOf [.blockOf [.paragraphOf [.ofText "B ", .referenceTo "1"],
    .definitionOf "1" [.ofText "in"]]]]]

theorem panelledDocument_backing :
    ∃ c, convertDocument (.tree panelledDocument) = .ok c ∧
      ∃ o n p s, ConversionOptions.update {} [] = .ok o ∧
        (Source.tree panelledDocument).load o = .ok n ∧
        trace ⟨o, Link.resolve⟩ (Context.mk o Link.resolve).ceiling.levels 0 n {} =
          .ok (p, s) ∧
        Backing n c p.sightings := by
  obtain ⟨c, h⟩ := exists_ok (x := convertDocument (.tree panelledDocument)) (by decide +kernel)
  exact ⟨c, h, convertDocument_backing h⟩

/-- The marker of the only reference is renumbered twice and shows a number without definition. -/
theorem panelledDocument_unbacked :
    panelledDocument.references = [("1".toList, 2)] ∧
      (convertDocument (.tree panelledDocument)).toOption.map
          (fun c => (c.markdown, c.annotations)) =
        some (Text.joinBlocks [sentinel, "!!! info".toList, "    \x7b .annotate \x7d".toList,
          "    B (2)".toList], [("1".toList, "in".toList)]) := by
  decide +kernel

end Docmark
