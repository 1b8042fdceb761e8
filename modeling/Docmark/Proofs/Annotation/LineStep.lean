import Docmark.Annotation.Processor
import Docmark.Proofs.Annotation.Numbering

/-!
What a single line does to the processor: it opens a block, stands outside of one, begins a
definition that is taken out, or gets its numbers, after which the block may be closed.
-/

namespace Docmark.Annotation

theorem State.Opened.closeBlock {s : State} {base : Nat} {names : List Text}
    (h : s.Opened base names) : s.closeBlock.Opened (base + names.length) [] :=
  State.opened_nil h.counter rfl

namespace Processor

/--
The processor where `block` is none outside of blocks, and tells of the open block whether it has a
line that is not blank. The names of the block count on from `base`.
-/
structure At (p : Processor) (block : Option Bool) (base : Nat) (names : List Text) : Prop where
  inBlock : p.inBlock = block.isSome
  hasContent : ∀ c, block = some c → p.hasContent = c
  outside : block = none → names = []
  opened : p.state.Opened base names

theorem at_initial : ({} : Processor).At none 0 [] :=
  ⟨rfl, by simp, fun _ => rfl, State.opened_nil rfl rfl⟩

/-- A blank line closes a block with content, unless the next line goes on with it. -/
def closesAfter (content : Bool) (line : Text) (next : Option Text) : Bool :=
  Text.isBlank line && content && next.any closesBlock

/-- What is left of the block after a line of it. -/
def blockAfter (content : Bool) (line : Text) (next : Option Text) : Option Bool :=
  if closesAfter content line next then none else some (content || !Text.isBlank line)

/-- The names of the block after a line of it. -/
def namesAfter (names : List Text) (line : Text) : List Text :=
  Text.distinctFrom names (markersOf line)

/-- All that a line can do. -/
inductive Takes (p : Processor) (block : Option Bool) (base : Nat) (names : List Text)
    (line : Text) (next : Option Text) : Step → Prop
  | opens {q : Processor} : hasSentinel (Text.strip line) = true →
    q.At (some false) (base + names.length) [] → q.state.definitions = p.state.definitions →
    q.state.referenced = p.state.referenced →
    Takes p block base names line next ⟨some line, none, q⟩
  | passes : hasSentinel (Text.strip line) = false → block = none →
    Takes p block base names line next ⟨some line, none, p⟩
  | defines {content : Bool} {name text : Text} : hasSentinel (Text.strip line) = false →
    block = some content → definition? (Text.strip line) = some (name, text) → name ∈ names →
    Takes p block base names line next ⟨none, some ⟨name, [Text.strip text]⟩, p⟩
  | numbers {content : Bool} {q : Processor} : hasSentinel (Text.strip line) = false →
    block = some content →
    (∀ name text, definition? (Text.strip line) = some (name, text) → name ∉ names) →
    (closesAfter content line next = true →
      q.At none (base + (namesAfter names line).length) []) →
    (closesAfter content line next = false →
      q.At (blockAfter content line next) base (namesAfter names line)) →
    q.state.definitions = p.state.definitions →
    q.state.referenced = Text.distinctFrom p.state.referenced ((markersOf line).map fun d =>
      ((numberIn base (namesAfter names line) d : Nat) : Int)) →
    Takes p block base names line next
      ⟨some (relabel (numeralIn base (namesAfter names line)) line), none, q⟩

/-- The processor with the numbers of a line given, before the end of the block is looked for. -/
def numbered (p : Processor) (line : Text) : Processor :=
  { p with state := (p.state.renumber line).2 }

theorem bodyLine_eq {p : Processor} {content : Bool} (h : p.hasContent = content) (line : Text)
    (next : Option Text) :
    p.bodyLine line next = ⟨some (p.state.renumber line).1, none,
      if closesAfter content line next then (p.numbered line).close
      else if Text.isBlank line then
        if content && next.isNone then { p.numbered line with pending := true }
        else p.numbered line
      else { p.numbered line with hasContent := true }⟩ := by
  subst h
  unfold bodyLine closesAfter numbered
  cases hb : Text.isBlank line with
  | false => simp
  | true =>
    cases hc : p.hasContent with
    | false => simp
    | true =>
      cases next with
      | none => simp
      | some n => cases hn : closesBlock n <;> simp [hn]

theorem bodyLine_takes {p : Processor} {content : Bool} {base : Nat} {names : List Text}
    (h : p.At (some content) base names) {line : Text} {next : Option Text}
    (plain : hasSentinel (Text.strip line) = false)
    (undefined : ∀ name text, definition? (Text.strip line) = some (name, text) → name ∉ names) :
    Takes p (some content) base names line next (p.bodyLine line next) := by
  obtain ⟨hw, ho, hd, hr⟩ := h.opened.renumber line
  rw [bodyLine_eq (h.hasContent content rfl), hw]
  refine .numbers plain rfl undefined (fun hc => ?_) (fun hc => ?_) ?_ ?_
  · rw [if_pos hc]
    exact ⟨rfl, by simp, fun _ => rfl, State.Opened.closeBlock ho⟩
  · have open' : ¬ closesAfter content line next = true := by simp [hc]
    rw [if_neg open', blockAfter, if_neg open']
    have inBlock := h.inBlock
    have hasContent := h.hasContent content rfl
    split
    · rename_i hb
      rw [hb]
      split <;> exact ⟨inBlock, by simp [numbered, hasContent], by simp, ho⟩
    · rename_i hb
      exact ⟨inBlock, by simp [hb], by simp, ho⟩
  · split
    · exact hd
    · split
      · split <;> exact hd
      · exact hd
  · split
    · exact hr
    · split
      · split <;> exact hr
      · exact hr

section step

variable {p : Processor} {line : Text} (next : Option Text)

theorem step_of_sentinel (found : hasSentinel (Text.strip line) = true) :
    p.step line next = ⟨some line, none,
      { (if p.inBlock then p.close else p) with inBlock := true, hasContent := false }⟩ := by
  unfold step
  simp only [found, ↓reduceIte]

variable (plain : hasSentinel (Text.strip line) = false)

include plain

theorem step_outside (closed : p.inBlock = false) : p.step line next = ⟨some line, none, p⟩ := by
  unfold step
  simp only [plain, closed, Bool.not_false, Bool.false_eq_true, ↓reduceIte]

/-- A definition of a name in use. -/
theorem step_of_definition (opened : p.inBlock = true) {name text : Text}
    (defines : definition? (Text.strip line) = some (name, text))
    (known : p.state.isKnown name = true) :
    p.step line next = ⟨none, some ⟨name, [Text.strip text]⟩, p⟩ := by
  unfold step
  simp only [plain, opened, defines, known, Bool.not_true, Bool.false_eq_true, ↓reduceIte]

/-- A line of an open block that defines no name in use. -/
theorem step_of_body (opened : p.inBlock = true)
    (undefined : ∀ name text, definition? (Text.strip line) = some (name, text) →
      p.state.isKnown name = false) :
    p.step line next = p.bodyLine line next := by
  unfold step
  simp only [plain, opened, Bool.not_true, Bool.false_eq_true, ↓reduceIte]
  split
  · rename_i name text hd
    rw [undefined name text hd]
    rfl
  · rfl

end step

/-- A line does one of these things. -/
theorem step_takes {p : Processor} {block : Option Bool} {base : Nat} {names : List Text}
    (h : p.At block base names) (line : Text) (next : Option Text) :
    Takes p block base names line next (p.step line next) := by
  cases plain : hasSentinel (Text.strip line) with
  | true =>
    rw [step_of_sentinel next plain]
    refine .opens plain ⟨rfl, by simp, by simp, ?_⟩ ?_ ?_
    · cases block with
      | none =>
        have hb : p.inBlock = false := h.inBlock
        have ho := h.opened
        rw [h.outside rfl] at ho ⊢
        simpa [hb] using ho
      | some content =>
        have hb : p.inBlock = true := h.inBlock
        simpa [hb, close] using h.opened.closeBlock
    · split <;> rfl
    · split <;> rfl
  | false =>
    cases block with
    | none =>
      rw [step_outside next plain h.inBlock]
      exact .passes plain rfl
    | some content =>
      by_cases known : ∃ name text, definition? (Text.strip line) = some (name, text) ∧ name ∈ names
      · obtain ⟨name, text, hd, hn⟩ := known
        rw [step_of_definition next plain h.inBlock hd ((h.opened.isKnown_iff name).mpr hn)]
        exact .defines plain rfl hd hn
      · have undefined : ∀ name text, definition? (Text.strip line) = some (name, text) →
            name ∉ names := fun name text hd hn => known ⟨name, text, hd, hn⟩
        rw [step_of_body next plain h.inBlock fun name text hd => by
          rw [Bool.eq_false_iff, ne_eq, h.opened.isKnown_iff]
          exact undefined name text hd]
        exact bodyLine_takes h plain undefined

/-- A definition is kept under the number that its name has. -/
theorem At.commit {p : Processor} {block : Option Bool} {base : Nat} {names : List Text}
    (h : p.At block base names) {c : Capture} (known : c.name ∈ names) :
    (p.commit (some c)).At block base names ∧
      (p.commit (some c)).state.referenced = p.state.referenced := by
  obtain ⟨-, ho, hr⟩ := h.opened.define c.name (Text.unlines c.parts)
  rw [Text.distinctFrom_cons_of_mem known, Text.distinctFrom_nil] at ho
  exact ⟨⟨h.inBlock, h.hasContent, h.outside, ho⟩, hr⟩

theorem run_cons (p : Processor) (l : Text) (ls : List Text) :
    p.run none (l :: ls) = ((p.step l ls.head?).written.toList ++
        ((p.step l ls.head?).after.run (p.step l ls.head?).capture ls).1,
      ((p.step l ls.head?).after.run (p.step l ls.head?).capture ls).2) := rfl

end Processor

end Docmark.Annotation
