import Docmark.Proofs.Annotation.Sound
import Docmark.Proofs.Convert.Run

/-!
What the conversion of an annotated block does to the numbers of annotations. The markers of its own
Markdown, that of its children apart from annotated blocks, name the numbers in the order in which
they come; the names that only definitions have get theirs after them.
-/

namespace Docmark.Convert

open Annotation

/-- The Markdown of the children, and which of them are annotated blocks. -/
def childBlocks (children : List Fragment) : List (Bool × Text) :=
  (Markdown.separateLists (children.map Fragment.block)).map
    fun (i, block) => ((children[i]?.map isAnnotatedBlock).getD false, block)

/-- The Markdown that a block has of its own. -/
def ownTexts (blocks : List (Bool × Text)) : List Text :=
  (blocks.filter fun b => !b.1).map Prod.snd

/-- The markers among which a block counts. -/
def ownMarkers (blocks : List (Bool × Text)) : List Text :=
  (ownTexts blocks).flatMap markersOf

theorem ownMarkers_cons_true (t : Text) (blocks : List (Bool × Text)) :
    ownMarkers ((true, t) :: blocks) = ownMarkers blocks := rfl

theorem ownMarkers_cons_false (t : Text) (blocks : List (Bool × Text)) :
    ownMarkers ((false, t) :: blocks) = markersOf t ++ ownMarkers blocks := rfl

/-- The Markdown of a child where the names of the block are `names`. -/
def writtenBlock (base : Nat) (names : List Text) (b : Bool × Text) : Text :=
  if b.1 then b.2 else relabel (numeralIn base names) b.2

theorem renumberBlocks_opened {s : State} {base : Nat} {names : List Text}
    (h : s.Opened base names) (blocks : List (Bool × Text)) :
    (renumberBlocks s blocks).1 =
        blocks.map (writtenBlock base (Text.distinctFrom names (ownMarkers blocks))) ∧
      (renumberBlocks s blocks).2.Opened base (Text.distinctFrom names (ownMarkers blocks)) ∧
      (renumberBlocks s blocks).2.definitions = s.definitions ∧
      (renumberBlocks s blocks).2.referenced = Text.distinctFrom s.referenced
        ((ownMarkers blocks).map fun d =>
          ((numberIn base (Text.distinctFrom names (ownMarkers blocks)) d : Nat) : Int)) := by
  induction blocks generalizing s names with
  | nil => exact ⟨rfl, h, rfl, rfl⟩
  | cons b blocks ih =>
    obtain ⟨numbered, t⟩ := b
    cases numbered with
    | true =>
      obtain ⟨hw, ho, hd, hr⟩ := ih h
      rw [ownMarkers_cons_true]
      refine ⟨?_, ho, hd, hr⟩
      simp [renumberBlocks, hw, writtenBlock]
    | false =>
      obtain ⟨hw, ho, hd, hr⟩ := h.renumber t
      obtain ⟨hw', ho', hd', hr'⟩ := ih ho
      rw [ownMarkers_cons_false]
      rw [← Text.distinctFrom_append] at hw' ho' hr'
      have later {d : Text} (hd : d ∈ markersOf t) :
          numberIn base (Text.distinctFrom names (markersOf t ++ ownMarkers blocks)) d =
            numberIn base (Text.distinctFrom names (markersOf t)) d := by
        rw [Text.distinctFrom_append]
        exact numberIn_distinctFrom (Text.mem_distinctFrom.mpr (Or.inr hd)) base _
      refine ⟨?_, ho', hd'.trans hd, ?_⟩
      · simp only [renumberBlocks, Bool.false_eq_true, ↓reduceIte, List.map_cons, hw', hw]
        congr 1
        exact relabel_congr fun d hd => by rw [numeralIn, numeralIn, later hd]
      · have same : (markersOf t).map (fun d =>
            ((numberIn base (Text.distinctFrom names (markersOf t)) d : Nat) : Int)) =
            (markersOf t).map fun d => ((numberIn base
              (Text.distinctFrom names (markersOf t ++ ownMarkers blocks)) d : Nat) : Int) :=
          List.map_congr_left fun d hd => by rw [later hd]
        simp only [renumberBlocks, Bool.false_eq_true, ↓reduceIte, hr', hr, same, List.map_append,
          Text.distinctFrom_append]

/-- The definition that a block keeps for a name and a content. -/
def definitionIn (base : Nat) (names : List Text) (p : Text × Text) : Definition :=
  ⟨numeralIn base names p.1, Text.strip p.2, numberIn base names p.1⟩

/-- The definitions of a block are put under the numbers of their names, one after the other. -/
def putDefinitions (base : Nat) (names : List Text) (d : Dictionary Text Definition)
    (defs : List (Text × Text)) : Dictionary Text Definition :=
  defs.foldl (fun d p => d.put (numeralIn base names p.1) (definitionIn base names p)) d

theorem storeDefinitions_opened {s : State} {base : Nat} {names : List Text}
    (h : s.Opened base names) (defs : List (Text × Text)) :
    (storeDefinitions s defs).1 = defs.map (fun p =>
        numeralIn base (Text.distinctFrom names (defs.map Prod.fst)) p.1 ++ '.' :: ' ' :: p.2) ∧
      (storeDefinitions s defs).2.Opened base (Text.distinctFrom names (defs.map Prod.fst)) ∧
      (storeDefinitions s defs).2.definitions = putDefinitions base
        (Text.distinctFrom names (defs.map Prod.fst)) s.definitions defs ∧
      (storeDefinitions s defs).2.referenced = s.referenced := by
  induction defs generalizing s names with
  | nil => exact ⟨rfl, h, rfl, rfl⟩
  | cons p defs ih =>
    obtain ⟨name, content⟩ := p
    obtain ⟨hn, ho, hr⟩ := h.define name content
    obtain ⟨hl', ho', hd', hr'⟩ := ih ho
    have hall : Text.distinctFrom (Text.distinctFrom names [name]) (defs.map Prod.fst) =
        Text.distinctFrom names (name :: defs.map Prod.fst) :=
      (Text.distinctFrom_append names [name] _).symm
    have known : name ∈ Text.distinctFrom names [name] := Text.mem_distinctFrom.mpr (by simp)
    have hnum : (s.define name content).1 =
        (numberIn base (Text.distinctFrom names (name :: defs.map Prod.fst)) name : Nat) := by
      rw [hn, ← hall, numberIn_distinctFrom known]
    have hput : (s.define name content).2.definitions = s.definitions.put
        (Text.decimalInt (s.define name content).1)
        ⟨Text.decimalInt (s.define name content).1, Text.strip content,
          (s.define name content).1⟩ := by
      have := State.definitions_resolve s name
      simp only [State.define, this]
    rw [hall] at hl' ho' hd'
    refine ⟨?_, ho', ?_, hr'.trans hr⟩
    · simp only [storeDefinitions, List.map_cons, hl', hnum]
      rfl
    · simp only [storeDefinitions, List.map_cons, hd', hput, hnum]
      rfl

/-- The names of a block in the order of their numbers, as far as its markers give them. -/
def blockNames (children : List Fragment) : List Text :=
  Text.distinct (ownMarkers (childBlocks children))

/-- All names of a block in the order of their numbers. -/
def allNames (children : List Fragment) : List Text :=
  Text.distinctFrom (blockNames children) ((definitionsFrom 1 children).map Prod.fst)

/-- The state after a block. -/
def afterBlock (a : State) (children : List Fragment) : State where
  counter := (a.counter.toNat + (allNames children).length : Nat)
  definitions := putDefinitions a.counter.toNat (allNames children) a.definitions
    (definitionsFrom 1 children)
  block := []
  referenced := Text.distinctFrom a.referenced ((ownMarkers (childBlocks children)).map fun d =>
    ((numberIn a.counter.toNat (blockNames children) d : Nat) : Int))

/-- What a block is written as, where its children are written as `parts`. -/
def blockFragment (emitting : Bool) (parts lines : List Text) : Fragment :=
  if (Text.joinBlocks parts).isEmpty && lines.isEmpty then .empty
  else ⟨blockMarkdown emitting (Text.joinBlocks parts) lines, .annotatedBlock⟩

def definitionLines (base : Nat) (children : List Fragment) : List Text :=
  (definitionsFrom 1 children).map fun p =>
    numeralIn base (allNames children) p.1 ++ '.' :: ' ' :: p.2

/-- A block numbers what its children wrote, then its definitions. -/
theorem annotationBlock_eq (s : Session) (ctx : Context) (n : Node) (children : List Fragment)
    (level : Int) : annotationBlock ctx n children level s = .ok
      (blockFragment ctx.options.emitAnnotationDefinitions
          (renumberBlocks s.annotations.closeBlock (childBlocks children)).1
          (storeDefinitions (renumberBlocks s.annotations.closeBlock (childBlocks children)).2
            (definitionsFrom 1 children)).1,
        { s with annotations := (storeDefinitions
            (renumberBlocks s.annotations.closeBlock (childBlocks children)).2
            (definitionsFrom 1 children)).2.closeBlock }) := rfl

/-- A block writes its own Markdown with new numbers, and that of blocks inside it as it is. -/
theorem annotationBlock_run {s : Session} (hs : s.annotations.Sound) (ctx : Context) (n : Node)
    (children : List Fragment) (level : Int) :
    annotationBlock ctx n children level s = .ok
      (blockFragment ctx.options.emitAnnotationDefinitions
          ((childBlocks children).map
            (writtenBlock s.annotations.counter.toNat (blockNames children)))
          (definitionLines s.annotations.counter.toNat children),
        { s with annotations := afterBlock s.annotations children }) := by
  obtain ⟨hw, ho, hd, hr⟩ := renumberBlocks_opened hs.opened (childBlocks children)
  obtain ⟨hl, ho', hd', hr'⟩ := storeDefinitions_opened ho (definitionsFrom 1 children)
  rw [← hs.closeBlock_eq] at hw ho hd hr hl ho' hd' hr'
  have after : (storeDefinitions (renumberBlocks s.annotations.closeBlock (childBlocks children)).2
      (definitionsFrom 1 children)).2.closeBlock = afterBlock s.annotations children := by
    rw [State.closeBlock, afterBlock, State.mk.injEq]
    refine ⟨ho'.counter, ?_, rfl, ?_⟩
    · rw [hd', hd]
      rfl
    · rw [hr', hr]
      rfl
  rw [annotationBlock_eq, after, hw, hl]
  rfl

theorem mem_allNames_of_definition {children : List Fragment} {p : Text × Text}
    (h : p ∈ definitionsFrom 1 children) : p.1 ∈ allNames children :=
  Text.mem_distinctFrom.mpr (Or.inr (List.mem_map_of_mem h))

theorem numberIn_le (base : Nat) {names : List Text} {d : Text} (h : d ∈ names) :
    numberIn base names d ≤ base + names.length := by
  have := List.idxOf_lt_length_of_mem h
  rw [numberIn]
  omega

theorem lt_numberIn (base : Nat) (names : List Text) (d : Text) : base < numberIn base names d := by
  rw [numberIn]
  omega

section putDefinitions

variable {base : Nat} {names : List Text} {d : Dictionary Text Definition}
  {defs : List (Text × Text)}

theorem putDefinitions_cons (p : Text × Text) :
    putDefinitions base names d (p :: defs) = putDefinitions base names
      (d.put (numeralIn base names p.1) (definitionIn base names p)) defs := rfl

/-- Numbers given before the block keep their definitions. -/
theorem get?_putDefinitions_of_le {n : Nat} (h : n ≤ base) :
    (putDefinitions base names d defs).get? (Text.decimal n) = d.get? (Text.decimal n) := by
  induction defs generalizing d with
  | nil => rfl
  | cons p defs ih =>
    rw [putDefinitions_cons, ih, Dictionary.get?_put_of_ne]
    intro he
    have := Text.decimal_injective he
    have := lt_numberIn base names p.1
    omega

theorem mem_putDefinitions {p : Text × Definition} (h : p ∈ putDefinitions base names d defs) :
    p ∈ d ∨ ∃ q ∈ defs, p = (numeralIn base names q.1, definitionIn base names q) := by
  induction defs generalizing d with
  | nil => exact Or.inl h
  | cons q defs ih =>
    rcases ih h with hm | ⟨r, hr, he⟩
    · rcases Dictionary.mem_of_mem_put hm with he | hm
      · exact Or.inr ⟨q, by simp, he⟩
      · exact Or.inl hm
    · exact Or.inr ⟨r, by simp [hr], he⟩

theorem nodup_keys_putDefinitions (h : d.keys.Nodup) :
    (putDefinitions base names d defs).keys.Nodup := by
  induction defs generalizing d with
  | nil => exact h
  | cons p defs ih => exact ih (Dictionary.nodup_keys_put h)

/-- The content of the last definition of a name. -/
def lastContent (name : Text) : List (Text × Text) → Option Text
  | [] => none
  | p :: defs => (lastContent name defs).or (if p.1 = name then some p.2 else none)

theorem mem_of_lastContent {name c : Text} (h : lastContent name defs = some c) :
    (name, c) ∈ defs := by
  induction defs with
  | nil => simp [lastContent] at h
  | cons p defs ih =>
    rw [lastContent, Option.or_eq_some_iff] at h
    rcases h with h | ⟨-, h⟩
    · exact List.mem_cons_of_mem _ (ih h)
    · split at h
      · rename_i hp
        cases h
        rw [← hp]
        exact List.mem_cons_self
      · cases h

/-- Of several definitions of a name the last one counts. -/
theorem get?_putDefinitions (mem : ∀ p ∈ defs, p.1 ∈ names) (name : Text) :
    (putDefinitions base names d defs).get? (numeralIn base names name) =
      ((lastContent name defs).map fun c => definitionIn base names (name, c)).or
        (d.get? (numeralIn base names name)) := by
  induction defs generalizing d with
  | nil => rfl
  | cons p defs ih =>
    rw [putDefinitions_cons, ih fun q hq => mem q (by simp [hq]), lastContent]
    cases lastContent name defs with
    | some c => rfl
    | none =>
      by_cases hp : p.1 = name
      · subst hp
        simp [Dictionary.get?_put_self]
      · have ne : numeralIn base names name ≠ numeralIn base names p.1 := fun he =>
          hp (numberIn_inj (mem p (by simp)) (Text.decimal_injective he).symm)
        simp [hp, Dictionary.get?_put_of_ne ne]

end putDefinitions

/-- Where `names` count on from the last number, earlier numbers keep their definitions. -/
theorem grows_of_numbers {a t : State} (h : a.Sound) {names : List Text}
    {defs : List (Text × Text)} (known : ∀ p ∈ defs, p.1 ∈ names)
    (counter : t.counter = (a.counter.toNat + names.length : Nat))
    (definitions : t.definitions = putDefinitions a.counter.toNat names a.definitions defs)
    (closed : t.block = []) (referenced : ∀ n ∈ t.referenced, n ∈ a.referenced ∨ n ≤ t.counter) :
    a.Grows t := by
  have base : ((a.counter.toNat : Nat) : Int) = a.counter := Int.toNat_of_nonneg h.natural
  have more : a.counter ≤ t.counter := by omega
  refine ⟨⟨closed, by omega, ?_, ?_, ?_⟩, more, ?_⟩
  · intro n hn
    rcases referenced n hn with hn | hn
    · exact Int.le_trans (h.referenced n hn) more
    · exact hn
  · rw [definitions]
    exact nodup_keys_putDefinitions h.keys
  · intro p hp
    rw [definitions] at hp
    rcases mem_putDefinitions hp with hm | ⟨q, hq, rfl⟩
    · obtain ⟨n, hk⟩ := h.kept p hm
      exact ⟨n, Int.le_trans hk.given more, hk.key, hk.id, hk.number, hk.stripped⟩
    · have := numberIn_le a.counter.toNat (known q hq)
      refine ⟨numberIn a.counter.toNat names q.1, ?_, rfl, rfl, rfl, ?_⟩
      · omega
      · exact Text.dropAround_dropAround _ _
  · intro n hn
    rw [definitions]
    exact get?_putDefinitions_of_le (by omega)

/-- A block leaves a sound state in which the definitions of earlier numbers stand. -/
theorem grows_afterBlock {a : State} (h : a.Sound) (children : List Fragment) :
    a.Grows (afterBlock a children) := by
  refine grows_of_numbers h (fun _ => mem_allNames_of_definition) rfl rfl rfl fun n hn => ?_
  rcases Text.mem_distinctFrom.mp hn with hn | hn
  · exact Or.inl hn
  · obtain ⟨d, hd, rfl⟩ := List.mem_map.mp hn
    have own : d ∈ blockNames children := Text.mem_distinct.mpr hd
    have := numberIn_le a.counter.toNat own
    have := (Text.prefix_distinctFrom (blockNames children)
      ((definitionsFrom 1 children).map Prod.fst)).length_le
    refine Or.inr ?_
    simp only [afterBlock, allNames]
    omega

end Docmark.Convert
