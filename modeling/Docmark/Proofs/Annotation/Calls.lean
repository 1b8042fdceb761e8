import Docmark.Proofs.Annotation.Numbering
import Docmark.Proofs.Dictionary

/-!
Calls on the state in any order, and what is seen of them: the identifiers that names are given, and
the ends of blocks. Main statement: an identifier stands for one name in one block, and what is kept
under it is kept, unless the same block defines the name once more.
-/

namespace Docmark.Annotation

/-- What a state is told while a document is written. -/
inductive Call
  | resolve (name : Text)
  | reference (name : Text)
  | define (name content : Text)
  | renumber (t : Text)
  | closeBlock

inductive Event
  | resolved (name id : Text)
  | closed
  deriving DecidableEq

namespace State

/-- What is seen of a call, and the state after it. Each marker in a text is seen with its new one. -/
def call (s : State) : Call → List Event × State
  | .resolve name => ([.resolved name (Text.decimalInt (s.resolve name).1)], (s.resolve name).2)
  | .reference name =>
    ([.resolved name (Text.decimalInt (s.reference name).1)], (s.reference name).2)
  | .define name content =>
    ([.resolved name (Text.decimalInt (s.define name content).1)], (s.define name content).2)
  | .renumber t =>
    (List.zipWith .resolved (markersOf t) (markersOf (s.renumber t).1), (s.renumber t).2)
  | .closeBlock => ([.closed], s.closeBlock)

/-- What is seen of calls one after the other. -/
def events (s : State) : List Call → List Event
  | [] => []
  | c :: cs => (s.call c).1 ++ (s.call c).2.events cs

/-- The state after calls one after the other. -/
def after (s : State) : List Call → State
  | [] => s
  | c :: cs => (s.call c).2.after cs

end State

/-- Names get the same identifier just where they are the same and no block ends between them. -/
def Apart (es : List Event) : Prop :=
  ∀ front x i between y j back,
    es = front ++ .resolved x i :: (between ++ .resolved y j :: back) →
      (i = j ↔ x = y ∧ .closed ∉ between)

/-- Identifiers of the open block, in which `names` count on from `base`, and of those before it. -/
structure Numbered (first base : Nat) (names : List Text) (es : List Event) : Prop where
  le : first ≤ base
  apart : Apart es
  here : ∀ front x i back, es = front ++ .resolved x i :: back → .closed ∉ back →
    x ∈ names ∧ i = numeralIn base names x
  past : ∀ front x i back, es = front ++ .resolved x i :: back → .closed ∈ back →
    ∃ n ≤ base, i = Text.decimal n

section numbered

variable {first base : Nat} {names : List Text} {es : List Event}

/-- The last member is the one that is looked at, or stands behind it. -/
theorem split_concat {α : Type} {as front back : List α} {a b : α}
    (h : as ++ [b] = front ++ a :: back) :
    (front = as ∧ a = b ∧ back = []) ∨ ∃ rest, back = rest ++ [b] ∧ as = front ++ a :: rest := by
  rcases List.eq_nil_or_concat back with rfl | ⟨rest, c, rfl⟩
  · obtain ⟨rfl, same⟩ := List.append_inj' h rfl
    exact Or.inl ⟨rfl, (List.singleton_inj.mp same).symm, rfl⟩
  · rw [List.concat_eq_append, ← List.cons_append, ← List.append_assoc] at h
    obtain ⟨rfl, same⟩ := List.append_inj' h rfl
    exact Or.inr ⟨rest, by rw [List.singleton_inj.mp same, List.concat_eq_append], rfl⟩

theorem numbered_nil (first : Nat) : Numbered first first [] [] where
  le := Nat.le_refl first
  apart := by
    intro front x i between y j back none
    simp at none
  here := by
    intro front x i back none
    simp at none
  past := by
    intro front x i back none
    simp at none

theorem Numbered.resolve (h : Numbered first base names es) (d : Text) :
    Numbered first base (Text.distinctFrom names [d])
      (es ++ [.resolved d (numeralIn base (Text.distinctFrom names [d]) d)]) := by
  have known {x : Text} (hx : x ∈ names) : x ∈ Text.distinctFrom names [d] ∧
      numeralIn base names x = numeralIn base (Text.distinctFrom names [d]) x :=
    ⟨Text.mem_distinctFrom.mpr (Or.inl hx),
      by rw [numeralIn, numeralIn, numberIn_distinctFrom hx]⟩
  have new : d ∈ Text.distinctFrom names [d] := Text.mem_distinctFrom.mpr (by simp)
  refine ⟨h.le, ?_, ?_, ?_⟩
  · intro front x i between y j back split
    rw [← List.cons_append, ← List.append_assoc] at split
    rcases split_concat split with ⟨whole, last, -⟩ | ⟨rest, -, whole⟩
    · cases last
      by_cases ended : .closed ∈ between
      · obtain ⟨n, old, rfl⟩ := h.past front x i between whole.symm ended
        have differ : Text.decimal n ≠ numeralIn base (Text.distinctFrom names [d]) d := by
          intro same
          have := Text.decimal_injective same
          rw [numberIn] at this
          omega
        simp [differ, ended]
      · obtain ⟨mem, rfl⟩ := h.here front x i between whole.symm ended
        obtain ⟨mem', same⟩ := known mem
        simp only [same, ended, not_false_eq_true, and_true]
        constructor
        · intro ids
          exact numberIn_inj mem' (Text.decimal_injective ids)
        · rintro rfl
          rfl
    · rw [List.append_assoc, List.cons_append] at whole
      exact h.apart front x i between y j rest whole
  · intro front x i back split behind
    rcases split_concat split with ⟨-, last, -⟩ | ⟨rest, rfl, whole⟩
    · cases last
      exact ⟨new, rfl⟩
    · obtain ⟨mem, rfl⟩ := h.here front x i rest whole (by simpa using behind)
      exact known mem
  · intro front x i back split behind
    rcases split_concat split with ⟨-, -, rfl⟩ | ⟨rest, rfl, whole⟩
    · simp at behind
    · exact h.past front x i rest whole (by simpa using behind)

/-- Names of an open block are given their numbers one after the other. -/
theorem Numbered.resolves (h : Numbered first base names es) (ds : List Text) :
    Numbered first base (Text.distinctFrom names ds)
      (es ++ ds.map fun d => .resolved d (numeralIn base (Text.distinctFrom names ds) d)) := by
  induction ds generalizing names es with
  | nil => simpa using h
  | cons d ds ih =>
    have step := ih (h.resolve d)
    have known : d ∈ Text.distinctFrom names [d] := Text.mem_distinctFrom.mpr (by simp)
    have all : Text.distinctFrom (Text.distinctFrom names [d]) ds =
        Text.distinctFrom names (d :: ds) := (Text.distinctFrom_append names [d] ds).symm
    have same : numeralIn base (Text.distinctFrom names [d]) d =
        numeralIn base (Text.distinctFrom names (d :: ds)) d := by
      rw [numeralIn, numeralIn, ← all, numberIn_distinctFrom known]
    rw [all, same, List.append_assoc] at step
    exact step

theorem Numbered.close (h : Numbered first base names es) :
    Numbered first (base + names.length) [] (es ++ [.closed]) := by
  have behind {front : List Event} {e : Event} {back : List Event}
      (split : es ++ [.closed] = front ++ e :: back) (ne : e ≠ .closed) :
      ∃ rest, back = rest ++ [.closed] ∧ es = front ++ e :: rest := by
    rcases split_concat split with ⟨-, last, -⟩ | found
    · exact absurd last ne
    · exact found
  refine ⟨Nat.le_add_right_of_le h.le, ?_, ?_, ?_⟩
  · intro front x i between y j back split
    rw [← List.cons_append, ← List.append_assoc] at split
    obtain ⟨rest, -, whole⟩ := behind split (by simp)
    rw [List.append_assoc, List.cons_append] at whole
    exact h.apart front x i between y j rest whole
  · intro front x i back split unended
    obtain ⟨rest, rfl, -⟩ := behind split (by simp)
    simp at unended
  · intro front x i back split _
    obtain ⟨rest, -, whole⟩ := behind split (by simp)
    by_cases ended : .closed ∈ rest
    · obtain ⟨n, old, same⟩ := h.past front x i rest whole ended
      exact ⟨n, by omega, same⟩
    · obtain ⟨mem, same⟩ := h.here front x i rest whole ended
      have := List.idxOf_lt_length_iff.mpr mem
      exact ⟨numberIn base names x, by rw [numberIn]; omega, same⟩

end numbered

namespace State

section calls

variable {s : State} {base : Nat} {names : List Text}

/-- A call gives numbers to names of the open block, or closes it. -/
theorem Opened.call (h : s.Opened base names) (c : Call) :
    (∃ ds, (s.call c).1 =
        ds.map (fun d => .resolved d (numeralIn base (Text.distinctFrom names ds) d)) ∧
      (s.call c).2.Opened base (Text.distinctFrom names ds)) ∨
    (s.call c).1 = [.closed] ∧ (s.call c).2.Opened (base + names.length) [] := by
  have one {d : Text} {n : Int} (number : n = numberIn base (Text.distinctFrom names [d]) d) :
      [Event.resolved d (Text.decimalInt n)] =
        [d].map fun d => .resolved d (numeralIn base (Text.distinctFrom names [d]) d) := by
    rw [number]
    rfl
  cases c with
  | resolve name =>
    obtain ⟨number, opened⟩ := h.resolve name
    exact Or.inl ⟨[name], one number, opened⟩
  | reference name =>
    obtain ⟨number, opened, -⟩ := h.reference name
    exact Or.inl ⟨[name], one number, opened⟩
  | define name content =>
    obtain ⟨number, opened, -⟩ := h.define name content
    exact Or.inl ⟨[name], one number, opened⟩
  | renumber t =>
    obtain ⟨written, opened, -⟩ := h.renumber t
    refine Or.inl ⟨markersOf t, ?_, opened⟩
    rw [State.call, written, markersOf_relabel fun d _ => isNumeral_numeralIn base _ d]
    simp [List.zipWith_map_right]
  | closeBlock => exact Or.inr ⟨rfl, opened_nil h.counter rfl⟩

theorem Opened.counter_call (h : s.Opened base names) (c : Call) :
    s.counter ≤ (s.call c).2.counter := by
  rcases h.call c with ⟨ds, -, opened⟩ | ⟨-, opened⟩
  · have longer := (Text.prefix_distinctFrom names ds).length_le
    rw [h.counter, opened.counter]
    omega
  · rw [h.counter, opened.counter]
    simp

/-- Only numbers that are seen are added to those that are referred to. -/
theorem Opened.mem_referenced_call (h : s.Opened base names) (c : Call) {n : Int}
    (hn : n ∈ (s.call c).2.referenced) :
    n ∈ s.referenced ∨ ∃ x, .resolved x (Text.decimalInt n) ∈ (s.call c).1 := by
  cases c with
  | resolve name => exact Or.inl (referenced_resolve s name ▸ hn)
  | reference name =>
    obtain ⟨-, -, -, added⟩ := h.reference name
    rw [State.call, added, Text.mem_distinctFrom, List.mem_singleton] at hn
    refine hn.imp_right ?_
    rintro rfl
    exact ⟨name, by simp [State.call]⟩
  | define name content => exact Or.inl (referenced_resolve s name ▸ hn)
  | renumber t =>
    obtain ⟨written, -, -, added⟩ := h.renumber t
    rw [State.call, added, Text.mem_distinctFrom, List.mem_map] at hn
    refine hn.imp_right ?_
    rintro ⟨d, mem, rfl⟩
    refine ⟨d, ?_⟩
    rw [State.call, written, markersOf_relabel fun d _ => isNumeral_numeralIn base _ d]
    simp only [List.zipWith_map_right, List.zipWith_self, List.mem_map]
    exact ⟨d, mem, rfl⟩
  | closeBlock => exact Or.inl hn

theorem definitions_renumberPieces (s : State) (ps : List Piece) :
    (s.renumberPieces ps).2.definitions = s.definitions := by
  induction ps generalizing s with
  | nil => rfl
  | cons p ps ih =>
    cases p with
    | char c => exact ih s
    | marker d => exact (ih _).trans (definitions_resolve s d)

/-- Only a definition changes what is kept, and only under its identifier. -/
theorem get?_definitions_call (s : State) (c : Call) (id : Text) :
    (s.call c).2.definitions.get? id = s.definitions.get? id ∨
    ∃ name content, c = .define name content ∧
      id = Text.decimalInt (s.define name content).1 ∧
      (s.call c).2.definitions.get? id =
        some ⟨id, Text.strip content, (s.define name content).1⟩ := by
  cases c with
  | resolve name => exact Or.inl (by rw [State.call, definitions_resolve])
  | reference name => exact Or.inl (congrArg (·.get? id) (definitions_resolve s name))
  | define name content =>
    have put : (s.call (.define name content)).2.definitions =
        s.definitions.put (Text.decimalInt (s.define name content).1)
          ⟨Text.decimalInt (s.define name content).1, Text.strip content,
            (s.define name content).1⟩ := by
      rw [← definitions_resolve s name]
      rfl
    rw [put]
    by_cases same : id = Text.decimalInt (s.define name content).1
    · right
      refine ⟨name, content, rfl, same, ?_⟩
      rw [same, Dictionary.get?_put_self]
    · left
      rw [Dictionary.get?_put_of_ne same]
  | renumber t => exact Or.inl (congrArg (·.get? id) (definitions_renumberPieces s (pieces t)))
  | closeBlock => exact Or.inl rfl

end calls

section run

variable {s : State} {base first : Nat} {names : List Text}

theorem after_append (s : State) (cs ds : List Call) :
    s.after (cs ++ ds) = (s.after cs).after ds := by
  induction cs generalizing s with
  | nil => rfl
  | cons c cs ih => exact ih _

theorem events_append (s : State) (cs ds : List Call) :
    s.events (cs ++ ds) = s.events cs ++ (s.after cs).events ds := by
  induction cs generalizing s with
  | nil => rfl
  | cons c cs ih => simp [events, after, ih]

/-- What has been seen and the state agree after each call. -/
theorem Opened.after {es : List Event} (h : s.Opened base names)
    (numbered : Numbered first base names es) (cs : List Call) :
    ∃ base' names', (s.after cs).Opened base' names' ∧
      Numbered first base' names' (es ++ s.events cs) := by
  induction cs generalizing s base names es with
  | nil => exact ⟨base, names, h, by simpa [events] using numbered⟩
  | cons c cs ih =>
    rw [events, ← List.append_assoc]
    rcases h.call c with ⟨ds, seen, opened⟩ | ⟨seen, opened⟩
    · rw [seen]
      exact ih opened (numbered.resolves ds)
    · rw [seen]
      exact ih opened numbered.close

theorem Opened.exists_opened_call (h : s.Opened base names) (c : Call) :
    ∃ base' names', (s.call c).2.Opened base' names' := by
  rcases h.call c with ⟨ds, -, opened⟩ | ⟨-, opened⟩
  · exact ⟨base, _, opened⟩
  · exact ⟨_, [], opened⟩

theorem Opened.counter_after (h : s.Opened base names) (cs : List Call) :
    s.counter ≤ (s.after cs).counter := by
  induction cs generalizing s base names with
  | nil => exact Int.le_refl _
  | cons c cs ih =>
    obtain ⟨base', names', opened⟩ := h.exists_opened_call c
    exact Int.le_trans (h.counter_call c) (ih opened)

theorem Opened.mem_referenced_after (h : s.Opened base names) (cs : List Call) {n : Int}
    (hn : n ∈ (s.after cs).referenced) :
    n ∈ s.referenced ∨ ∃ x, .resolved x (Text.decimalInt n) ∈ s.events cs := by
  induction cs generalizing s base names with
  | nil => exact Or.inl hn
  | cons c cs ih =>
    obtain ⟨base', names', opened⟩ := h.exists_opened_call c
    rcases ih opened hn with before | ⟨x, seen⟩
    · refine (h.mem_referenced_call c before).imp_right ?_
      rintro ⟨x, seen⟩
      exact ⟨x, List.mem_append_left _ seen⟩
    · exact Or.inr ⟨x, List.mem_append_right _ seen⟩

/-- What is kept under an identifier is from before, or from a call that defines its name. -/
theorem get?_definitions_after (s : State) (cs : List Call) (id : Text) :
    (s.after cs).definitions.get? id = s.definitions.get? id ∨
    ∃ front name content back, cs = front ++ .define name content :: back ∧
      id = Text.decimalInt ((s.after front).define name content).1 ∧
      (s.after cs).definitions.get? id =
        some ⟨id, Text.strip content, ((s.after front).define name content).1⟩ := by
  induction cs generalizing s with
  | nil => exact Or.inl rfl
  | cons c cs ih =>
    rcases ih (s.call c).2 with kept | ⟨front, name, content, back, rfl, same, put⟩
    · rw [after, kept]
      rcases get?_definitions_call s c id with kept' | ⟨name, content, rfl, same, put⟩
      · exact Or.inl kept'
      · exact Or.inr ⟨[], name, content, cs, rfl, same, put⟩
    · exact Or.inr ⟨c :: front, name, content, back, rfl, same, put⟩

theorem closed_mem_events {cs : List Call} (h : .closeBlock ∈ cs) : .closed ∈ s.events cs := by
  induction cs generalizing s with
  | nil => cases h
  | cons c cs ih =>
    rw [events]
    rcases List.mem_cons.mp h with rfl | h
    · exact List.mem_append_left _ (by simp [call])
    · exact List.mem_append_right _ (ih h)

/-- A call that defines a name is seen between those before and behind it. -/
theorem events_define (s : State) (front : List Call) (name content : Text) (back : List Call) :
    s.events (front ++ .define name content :: back) = s.events front ++
      .resolved name (Text.decimalInt ((s.after front).define name content).1) ::
        ((s.after front).define name content).2.events back := by
  rw [events_append, events, call]
  rfl

/-- A definition that is kept is replaced only where the same block defines its name again. -/
theorem definition_stays (none : s.definitions = []) {calls more : List Call}
    (apart : Apart (s.events (calls ++ more))) {id : Text} {d : Definition}
    (kept : (s.after calls).definitions.get? id = some d) :
    (∃ x, .resolved x id ∈ s.events calls) ∧
    ((s.after (calls ++ more)).definitions.get? id = some d ∨
      ∃ name content content' front between front' back,
        calls = front ++ .define name content :: between ∧
        more = front' ++ .define name content' :: back ∧
        .closeBlock ∉ between ++ front' ∧
        id = Text.decimalInt ((s.after front).define name content).1 ∧
        (s.after (calls ++ more)).definitions.get? id =
          some { d with content := Text.strip content' }) := by
  rcases get?_definitions_after s calls id with
    old | ⟨front, name, content, between, whole, given, put⟩
  · rw [old, none] at kept
    cases kept
  have seen : s.events calls = s.events front ++ .resolved name id ::
      ((s.after front).define name content).2.events between := by
    rw [whole, events_define, given]
  refine ⟨⟨name, by simp [seen]⟩, ?_⟩
  rw [after_append]
  rcases get?_definitions_after (s.after calls) more id with
    same | ⟨front', name', content', back, whole', given', put'⟩
  · exact Or.inl (same.trans kept)
  right
  have both : s.events (calls ++ more) = s.events front ++ .resolved name id ::
      ((((s.after front).define name content).2.events between ++ (s.after calls).events front') ++
        .resolved name' id ::
          (((s.after calls).after front').define name' content').2.events back) := by
    rw [events_append, seen, whole', events_define, ← given']
    simp
  -- the two definitions give one identifier
  obtain ⟨rfl, unended⟩ := (apart _ _ _ _ _ _ _ both).mp rfl
  refine ⟨name, content, content', front, between, front', back, whole, whole', ?_, given, ?_⟩
  · intro ended
    apply unended
    rcases List.mem_append.mp ended with ended | ended
    · exact List.mem_append_left _ (closed_mem_events ended)
    · exact List.mem_append_right _ (closed_mem_events ended)
  · rw [put] at kept
    cases kept
    rw [put', Text.decimalInt_injective (given'.symm.trans given)]

/-- The names of the open block have numbers of their own, from those behind the first one. -/
theorem Opened.block_numbers {es : List Event} (h : s.Opened base names)
    (numbered : Numbered first base names es) {x : Text} {n : Int}
    (hx : s.block.get? x = some n) :
    first < n ∧ n ≤ s.counter ∧
      ∀ y m, s.block.get? y = some m → Text.decimalInt n = Text.decimalInt m → x = y := by
  have number {x : Text} {n : Int} (hx : s.block.get? x = some n) :
      x ∈ names ∧ n = (numberIn base names x : Nat) := by
    rw [h.block x] at hx
    split at hx
    · rename_i mem
      exact ⟨mem, (Option.some.inj hx).symm⟩
    · cases hx
  obtain ⟨mem, rfl⟩ := number hx
  have lower := numbered.le
  have upper := List.idxOf_lt_length_iff.mpr mem
  have value : numberIn base names x = base + 1 + names.idxOf x := rfl
  rw [h.counter]
  refine ⟨by omega, by omega, ?_⟩
  intro y m hy same
  obtain ⟨-, rfl⟩ := number hy
  exact numberIn_inj mem (Text.decimal_injective same)

end run

/--
Calls on a fresh state, whose numbers count up from any first one. Names get the same identifier just
where they are the same name in the same block; the counter never falls; the open block gives each of
its names a number of its own, above the first one and up to the counter; only identifiers that a name
was given are referred to or defined. A definition is kept under its identifier, and gets another
content only where its name is defined again before the block ends.
-/
theorem after_fresh (first : Nat) (calls more : List Call) :
    let s : State := { counter := first }
    Apart (s.events calls) ∧
    (s.after calls).counter ≤ (s.after (calls ++ more)).counter ∧
    (∀ x n, (s.after calls).block.get? x = some n →
      first < n ∧ n ≤ (s.after calls).counter ∧
      ∀ y m, (s.after calls).block.get? y = some m →
        Text.decimalInt n = Text.decimalInt m → x = y) ∧
    (∀ n ∈ (s.after calls).referenced, ∃ x, .resolved x (Text.decimalInt n) ∈ s.events calls) ∧
    ∀ id d, (s.after calls).definitions.get? id = some d →
      (∃ x, .resolved x id ∈ s.events calls) ∧
      ((s.after (calls ++ more)).definitions.get? id = some d ∨
        ∃ name content content' front between front' back,
          calls = front ++ .define name content :: between ∧
          more = front' ++ .define name content' :: back ∧
          .closeBlock ∉ between ++ front' ∧
          id = Text.decimalInt ((s.after front).define name content).1 ∧
          (s.after (calls ++ more)).definitions.get? id =
            some { d with content := Text.strip content' }) := by
  intro s
  have start : s.Opened first [] := opened_nil rfl rfl
  have run (cs : List Call) : ∃ base names, (s.after cs).Opened base names ∧
      Numbered first base names (s.events cs) := by
    simpa using start.after (numbered_nil first) cs
  obtain ⟨base, names, opened, numbered⟩ := run calls
  obtain ⟨_, _, -, numbered'⟩ := run (calls ++ more)
  refine ⟨numbered.apart, ?_, ?_, ?_, ?_⟩
  · rw [after_append]
    exact opened.counter_after more
  · intro x n hx
    exact opened.block_numbers numbered hx
  · intro n hn
    rcases start.mem_referenced_after calls hn with none | seen
    · cases none
    · exact seen
  · intro id d kept
    exact definition_stays rfl numbered'.apart kept

/-- Two blocks, the first of which defines a name twice. -/
def twoBlocks : List Call :=
  [.define ['1'] "one".toList, .renumber "(2) and (1)".toList, .define ['1'] "two ".toList,
    .closeBlock, .reference ['1']]

theorem twoBlocks_apart :
    let s : State := { counter := 3 }
    s.events twoBlocks = [.resolved ['1'] ['4'], .resolved ['2'] ['5'], .resolved ['1'] ['4'],
      .resolved ['1'] ['4'], .closed, .resolved ['1'] ['6']] ∧
    (s.after twoBlocks).definitions.get? ['4'] = some ⟨['4'], "two".toList, 4⟩ ∧
    Apart (s.events twoBlocks) := by
  refine ⟨by decide, by decide, (after_fresh 3 twoBlocks []).1⟩

end State

end Docmark.Annotation
