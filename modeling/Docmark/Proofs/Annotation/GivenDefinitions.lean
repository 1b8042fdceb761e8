import Docmark.Annotation.State
import Docmark.Proofs.Dictionary
import Docmark.Proofs.Text.Digits

/-!
Definitions that are given with their identifiers. Main statement: those that are known stand, and
each other identifier that is a number gets its definition; the first one that passes for a number
and cannot be read as one ends this, with those in front of it added.
-/

namespace Docmark.Annotation.State

/-- A text that passes for a number. -/
def IsDigits (id : Text) : Prop :=
  id ≠ [] ∧ ∀ c ∈ id, Text.isDigit c = true

/-- Nothing is known of the identifier, which passes for a number but is not read as one. -/
structure Refuses (s : State) (id : Text) : Prop where
  unknown : s.definitions.get? id = none
  digits : IsDigits id
  unread : ¬ Text.Countable id

/-- The definition of an identifier among those that are given. -/
structure Gives (given : Dictionary Text Text) (id : Text) (d : Definition) : Prop where
  digits : IsDigits id
  number : Text.readInt id = .ok d.number
  content : ∃ content, given.get? id = some content ∧ d.content = Text.strip content
  id : d.id = id

theorem not_gives_nil (id : Text) (d : Definition) : ¬ Gives [] id d := by
  intro h
  obtain ⟨content, none, -⟩ := h.content
  simp at none

theorem gives_cons_of_ne {given : Dictionary Text Text} {id k content : Text} {d : Definition}
    (ne : id ≠ k) : Gives ((k, content) :: given) id d ↔ Gives given id d := by
  have same : Dictionary.get? ((k, content) :: given) id = given.get? id := by
    simp [Dictionary.get?_cons, ne]
  constructor
  · intro h
    exact ⟨h.digits, h.number, same ▸ h.content, h.id⟩
  · intro h
    exact ⟨h.digits, h.number, same ▸ h.content, h.id⟩

/-- What an identifier can be to a state: a number not known yet, a refused one, or neither. -/
theorem addDefinition_cases (s : State) (id content : Text) :
    (s.addDefinition id content = .ok s ∧ (s.definitions.get? id = none → ¬ IsDigits id)) ∨
    (∃ n, s.definitions.get? id = none ∧ IsDigits id ∧ Text.readInt id = .ok n ∧
      s.addDefinition id content =
        .ok { s with definitions := s.definitions.put id ⟨id, Text.strip content, n⟩ }) ∨
    ∃ cause, s.Refuses id ∧ Text.readInt id = .error cause ∧
      s.addDefinition id content = .error cause := by
  have has : s.definitions.has id = (s.definitions.get? id).isSome := rfl
  have passes : IsDigits id ↔ id.isEmpty = false ∧ id.all Text.isDigit = true := by
    simp [IsDigits]
  by_cases skipped : s.definitions.has id || id.isEmpty || !id.all Text.isDigit
  · left
    constructor
    · rw [addDefinition, if_pos skipped]
    · intro unknown digits
      simp [has, unknown, passes.mp digits] at skipped
  · right
    have taken : s.addDefinition id content = (Text.readInt id).bind fun n =>
        .ok { s with definitions := s.definitions.put id ⟨id, Text.strip content, n⟩ } := by
      rw [addDefinition, if_neg skipped]
      rfl
    simp only [Bool.or_eq_true, not_or, Bool.not_eq_true, Bool.not_eq_false',
      has, Option.isSome_eq_false_iff, Option.isNone_iff_eq_none] at skipped
    obtain ⟨⟨unknown, filled⟩, all⟩ := skipped
    have digits : IsDigits id := passes.mpr ⟨filled, all⟩
    have countable := Text.exists_readInt_iff digits.1 digits.2
    cases read : Text.readInt id with
    | ok n =>
      left
      exact ⟨n, unknown, digits, rfl, by rw [taken, read]; rfl⟩
    | error cause =>
      right
      refine ⟨cause, ⟨unknown, digits, ?_⟩, rfl, by rw [taken, read]; rfl⟩
      intro short
      obtain ⟨n, number⟩ := countable.mpr short
      rw [read] at number
      cases number

/-- What is known after some of the definitions given. -/
structure Completes (s : State) (taken : Dictionary Text Text) (u : State) : Prop where
  counter : u.counter = s.counter
  block : u.block = s.block
  referenced : u.referenced = s.referenced
  definitions : ∀ id d, u.definitions.get? id = some d ↔
    s.definitions.get? id = some d ∨ s.definitions.get? id = none ∧ Gives taken id d

theorem completes_nil (s : State) : s.Completes [] s where
  counter := rfl
  block := rfl
  referenced := rfl
  definitions := by simp [not_gives_nil]

section cons

variable {s u : State} {taken : Dictionary Text Text} {id content : Text}

/-- An identifier that is known, or is no number, is skipped. -/
theorem Completes.skip (h : s.Completes taken u)
    (skipped : s.definitions.get? id = none → ¬ IsDigits id) :
    s.Completes ((id, content) :: taken) u where
  counter := h.counter
  block := h.block
  referenced := h.referenced
  definitions := by
    intro k d
    rw [h.definitions]
    by_cases same : k = id
    · subst same
      refine or_congr_right (and_congr_right fun unknown => ?_)
      exact iff_of_false (fun g => skipped unknown g.digits) fun g => skipped unknown g.digits
    · rw [gives_cons_of_ne same]

/-- A new one gets its definition, whatever else is given for it later. -/
theorem Completes.add {n : Int} (unknown : s.definitions.get? id = none) (digits : IsDigits id)
    (number : Text.readInt id = .ok n)
    (h : Completes { s with definitions := s.definitions.put id ⟨id, Text.strip content, n⟩ }
      taken u) : s.Completes ((id, content) :: taken) u where
  counter := h.counter
  block := h.block
  referenced := h.referenced
  definitions := by
    intro k d
    rw [h.definitions]
    by_cases same : k = id
    · subst same
      have gives : Gives ((k, content) :: taken) k d ↔ d = ⟨k, Text.strip content, n⟩ := by
        have first : Dictionary.get? ((k, content) :: taken) k = some content := by
          simp [Dictionary.get?_cons]
        constructor
        · intro g
          obtain ⟨c, found, text⟩ := g.content
          rw [first, Option.some.injEq] at found
          have value := g.number
          rw [number, Except.ok.injEq] at value
          obtain ⟨i, t, m⟩ := d
          rw [Definition.mk.injEq]
          exact ⟨g.id, found ▸ text, value.symm⟩
        · rintro rfl
          exact ⟨digits, number, ⟨content, first, rfl⟩, rfl⟩
      simp [Dictionary.get?_put_self, unknown, gives, eq_comm]
    · simp only [Dictionary.get?_put_of_ne same, gives_cons_of_ne same]

end cons

/-- How the definitions given end: with the last one, or in front of one that is refused. -/
inductive Ends (s : State) : Dictionary Text Text → Option Text.NumberError → Prop
  | done : s.Ends [] none
  | refused {id content rest cause} (refuses : s.Refuses id)
    (unread : Text.readInt id = .error cause) : s.Ends ((id, content) :: rest) (some cause)

/-- Whether an identifier is refused does not hang on the definitions added before. -/
theorem refuses_put_iff {s : State} {id k : Text} (d : Definition) (read : Text.Countable id) :
    Refuses { s with definitions := s.definitions.put id d } k ↔ s.Refuses k := by
  by_cases same : k = id
  · subst same
    exact iff_of_false (fun h => h.unread read) fun h => h.unread read
  · constructor
    · intro h
      exact ⟨(Dictionary.get?_put_of_ne same d s.definitions).symm.trans h.unknown,
        h.digits, h.unread⟩
    · intro h
      exact ⟨(Dictionary.get?_put_of_ne same d s.definitions).trans h.unknown,
        h.digits, h.unread⟩

theorem exists_taken (s : State) (given : Dictionary Text Text) :
    ∃ taken rest, given = taken ++ rest ∧ (∀ p ∈ taken, ¬ s.Refuses p.1) ∧
      s.Ends rest (s.addDefinitions given).2 ∧ s.Completes taken (s.addDefinitions given).1 := by
  induction given generalizing s with
  | nil => exact ⟨[], [], rfl, by simp, .done, s.completes_nil⟩
  | cons p given ih =>
    obtain ⟨id, content⟩ := p
    rw [addDefinitions]
    rcases s.addDefinition_cases id content with
      ⟨run, skipped⟩ | ⟨n, unknown, digits, number, run⟩ | ⟨cause, refuses, unread, run⟩
    · obtain ⟨taken, rest, rfl, passed, ends, completes⟩ := ih s
      rw [run]
      refine ⟨(id, content) :: taken, rest, rfl, ?_, ends, completes.skip skipped⟩
      rw [List.forall_mem_cons]
      exact ⟨fun h => skipped h.unknown h.digits, passed⟩
    · obtain ⟨taken, rest, rfl, passed, ends, completes⟩ :=
        ih { s with definitions := s.definitions.put id ⟨id, Text.strip content, n⟩ }
      have read : Text.Countable id :=
        (Text.exists_readInt_iff digits.1 digits.2).mp ⟨n, number⟩
      simp only [refuses_put_iff _ read] at passed
      rw [run]
      refine ⟨(id, content) :: taken, rest, rfl, ?_, ?_, completes.add unknown digits number⟩
      · rw [List.forall_mem_cons]
        exact ⟨fun h => h.unread read, passed⟩
      · generalize (addDefinitions _ (taken ++ rest)).2 = outcome at ends
        cases ends with
        | done => exact .done
        | refused refuses unread => exact .refused ((refuses_put_iff _ read).mp refuses) unread
    · rw [run]
      exact ⟨[], (id, content) :: given, rfl, by simp, .refused refuses unread, s.completes_nil⟩

/--
Definitions are added one after the other up to the first identifier that is refused, if there is
one: what is known stands, each other number gets its content, and all else is skipped. Nothing but
the definitions changes.
-/
theorem addDefinitions_given (s : State) (given : Dictionary Text Text) :
    ((s.addDefinitions given).2 = none ↔ ∀ p ∈ given, ¬ s.Refuses p.1) ∧
    ∃ taken rest, given = taken ++ rest ∧ (∀ p ∈ taken, ¬ s.Refuses p.1) ∧
      s.Ends rest (s.addDefinitions given).2 ∧ s.Completes taken (s.addDefinitions given).1 := by
  obtain ⟨taken, rest, rfl, passed, ends, completes⟩ := s.exists_taken given
  refine ⟨?_, taken, rest, rfl, passed, ends, completes⟩
  generalize (s.addDefinitions (taken ++ rest)).2 = outcome at ends
  cases ends with
  | done => simpa using passed
  | @refused id content rest cause refuses unread =>
    constructor
    · intro none
      cases none
    · intro all
      exact absurd refuses (all (id, content) (by simp))

/-- A superscript passes for a number and is not read: the call fails before the number behind. -/
theorem superscript_refused :
    ({} : State).addDefinitions [(['²'], "x".toList), (['1'], "one".toList)] =
      ({}, some (.notANumber ['²'])) :=
  rfl

end Docmark.Annotation.State
