import Docmark.Proofs.Annotation.Settled

/-!
What becomes of a text, passage by passage. Main statement: the processor takes out the definitions
of names in use, each with the lines that continue it, and writes all other lines in their order;
of these it changes nothing but the digits of markers inside blocks.
-/

namespace Docmark.Annotation

/-- A part of a text that is treated as one: a line, or a definition that is taken out. -/
inductive Passage
  | sentinel (line : Text)
  | outside (line : Text)
  /-- A line of a block, as it is read and as it is written. -/
  | body (line written : Text)
  /-- A definition line, and the lines that continue it. -/
  | definition (line : Text) (more : List Text)
  deriving DecidableEq, Repr

namespace Passage

/-- The lines of the text that a passage consists of. -/
def lines : Passage → List Text
  | sentinel line => [line]
  | outside line => [line]
  | body line _ => [line]
  | definition line more => line :: more

/-- The lines that are written for it. -/
def written : Passage → List Text
  | sentinel line => [line]
  | outside line => [line]
  | body _ written => [written]
  | definition _ _ => []

/-- Read and written line differ in the digits of markers only. -/
def KeepsText : Passage → Prop
  | body line written =>
    ∃ number : Text → Text, (∀ d, IsNumeral (number d)) ∧ written = relabel number line
  | _ => True

end Passage

open Processor

/--
How passages are read, from one state of the numbers to another. As in `Processor.At`, `block` is
none outside of blocks, and `names` are those used in the open block so far.
-/
inductive Reads : State → Option Bool → List Text → List Passage → State → Prop
  | done {s block names} : Reads s block names [] s
  | sentinel {s t block names line ps} (found : hasSentinel (Text.strip line) = true)
    (rest : Reads s.closeBlock (some false) [] ps t) :
    Reads s block names (.sentinel line :: ps) t
  | outside {s t line ps} (plain : hasSentinel (Text.strip line) = false)
    (rest : Reads s none [] ps t) :
    Reads s none [] (.outside line :: ps) t
  | body {s t content names line ps} (plain : hasSentinel (Text.strip line) = false)
    (undefined : ∀ name text, definition? (Text.strip line) = some (name, text) → name ∉ names)
    (stays : closesAfter content line (ps.flatMap Passage.lines).head? = false)
    (rest : Reads (s.renumber line).2 (some (content || !Text.isBlank line))
      (namesAfter names line) ps t) :
    Reads s (some content) names (.body line (s.renumber line).1 :: ps) t
  /-- The blank line that a block ends with. -/
  | last {s t content names line ps} (plain : hasSentinel (Text.strip line) = false)
    (undefined : ∀ name text, definition? (Text.strip line) = some (name, text) → name ∉ names)
    (closes : closesAfter content line (ps.flatMap Passage.lines).head? = true)
    (rest : Reads (s.renumber line).2.closeBlock none [] ps t) :
    Reads s (some content) names (.body line (s.renumber line).1 :: ps) t
  | definition {s t content names line name text more ps}
    (plain : hasSentinel (Text.strip line) = false)
    (defines : definition? (Text.strip line) = some (name, text)) (used : name ∈ names)
    (continued : ∀ l ∈ more, continuesDefinition l = true)
    (ends : ∀ l, (ps.flatMap Passage.lines).head? = some l → continuesDefinition l = false)
    (rest : Reads (s.define name (Text.unlines (Text.strip text :: more.map Text.strip))).2
      (some content) names ps t) :
    Reads s (some content) names (.definition line more :: ps) t

namespace Processor

/-- Outside of blocks no name has a number. -/
theorem At.block_eq_nil {p : Processor} {block : Option Bool} {base : Nat} {names : List Text}
    (h : p.At block base names) (closed : block = none) : p.state.block = [] := by
  have unnamed := h.opened.block
  rw [h.outside closed] at unnamed
  cases hb : p.state.block with
  | nil => rfl
  | cons q d =>
    obtain ⟨name, number⟩ := q
    have := unnamed name
    rw [hb, Dictionary.get?_cons] at this
    simp at this

theorem state_bodyLine {p : Processor} {content : Bool} (h : p.hasContent = content) (line : Text)
    (next : Option Text) : (p.bodyLine line next).after.state =
      if closesAfter content line next then (p.state.renumber line).2.closeBlock
      else (p.state.renumber line).2 := by
  rw [bodyLine_eq h]
  dsimp only
  split
  · rfl
  · split
    · split <;> rfl
    · rfl

theorem At.sentinel {p : Processor} {block : Option Bool} {base : Nat} {names : List Text}
    (h : p.At block base names) {line : Text} (found : hasSentinel (Text.strip line) = true)
    (next : Option Text) : (p.step line next).after.state = p.state.closeBlock ∧
      (p.step line next).after.At (some false) (base + names.length) [] := by
  have takes := step_takes h line next
  have step := step_of_sentinel (p := p) next found
  constructor
  · rw [step]
    dsimp only
    split
    · rfl
    · rename_i outside
      have closed : block = none := by
        have := h.inBlock
        cases block with
        | none => rfl
        | some content => simp [this] at outside
      rw [State.closeBlock, ← h.block_eq_nil closed]
  · generalize p.step line next = s at takes
    cases takes with
    | opens _ opened => exact opened
    | passes plain => simp [found] at plain
    | defines plain => simp [found] at plain
    | numbers plain => simp [found] at plain

/-- A line of a block that is written: what it is written as, and where the processor is then. -/
theorem At.bodyLine {p : Processor} {content : Bool} {base : Nat} {names : List Text}
    (h : p.At (some content) base names) {line : Text} (next : Option Text)
    (plain : hasSentinel (Text.strip line) = false)
    (undefined : ∀ name text, definition? (Text.strip line) = some (name, text) → name ∉ names) :
    p.bodyLine line next =
        ⟨some (p.state.renumber line).1, none, (p.bodyLine line next).after⟩ ∧
      (closesAfter content line next = true → (p.bodyLine line next).after.At none
        (base + (namesAfter names line).length) []) ∧
      (closesAfter content line next = false → (p.bodyLine line next).after.At
        (some (content || !Text.isBlank line)) base (namesAfter names line)) := by
  have takes : Takes p _ base names line next (p.bodyLine line next) :=
    bodyLine_takes h plain undefined
  have written := bodyLine_eq (h.hasContent content rfl) line next
  refine ⟨by rw [written], fun closes => ?_, fun stays => ?_⟩
  all_goals
    generalize p.bodyLine line next = s at takes
    cases takes with
    | passes _ none => cases none
    | opens found => simp [plain] at found
    | defines _ _ defines known => exact absurd known (undefined _ _ defines)
    | numbers _ same _ closed opened =>
      cases same
      first
        | exact closed closes
        | simpa [blockAfter, stays] using opened stays

/-- The lines that continue a definition are kept with it. -/
theorem run_continued (p : Processor) (c : Capture) {more ls : List Text}
    (continued : ∀ l ∈ more, continuesDefinition l = true)
    (ends : ∀ l, ls.head? = some l → continuesDefinition l = false) :
    p.run (some c) (more ++ ls) =
      (p.commit (some ⟨c.name, c.parts ++ more.map Text.strip⟩)).run none ls := by
  induction more generalizing c with
  | nil =>
    cases ls with
    | nil => simp [run, commit]
    | cons l ls =>
      rw [List.nil_append, run, if_neg (by simp [ends l rfl]), run]
      simp
  | cons m more ih =>
    rw [List.cons_append, run, if_pos (continued m (by simp)),
      ih _ fun l hl => continued l (by simp [hl])]
    simp

/-- The lines that continue a definition, and those below these. -/
theorem exists_continued (ls : List Text) : ∃ more below, ls = more ++ below ∧
    (∀ m ∈ more, continuesDefinition m = true) ∧
    ∀ m, below.head? = some m → continuesDefinition m = false := by
  refine ⟨_, _, List.takeWhile_append_dropWhile.symm,
    fun m hm => List.mem_takeWhile_imp (p := continuesDefinition) hm, fun m hm => ?_⟩
  have := List.head?_dropWhile_not continuesDefinition ls
  rw [hm] at this
  simpa using this

/-- Outside of blocks nothing happens as long as no sentinel comes. -/
theorem run_outside {p : Processor} (closed : p.inBlock = false) {ls : List Text}
    (plain : ∀ l ∈ ls, hasSentinel (Text.strip l) = false) : p.run none ls = (ls, p) := by
  induction ls with
  | nil => rfl
  | cons l ls ih =>
    rw [run_cons, step_outside _ (plain l (by simp)) closed]
    dsimp only
    rw [ih fun m hm => plain m (by simp [hm])]
    rfl

/-- The passages `ps` of the lines `ls`, as the processor runs over these. -/
structure Falls (p : Processor) (block : Option Bool) (names : List Text) (ls : List Text)
    (ps : List Passage) : Prop where
  reads : Reads p.state block names ps (p.run none ls).2.state
  lines : ps.flatMap Passage.lines = ls
  written : ps.flatMap Passage.written = (p.run none ls).1
  kept : ∀ q ∈ ps, q.KeepsText
  last : ∃ block base names, (p.run none ls).2.At block base names

/-- A passage before others. -/
theorem Falls.cons {p r : Processor} {block block' : Option Bool} {names names' : List Text}
    {ls below : List Text} {q : Passage} {ps : List Passage} (rest : Falls r block' names' below ps)
    (lines : ls = q.lines ++ below)
    (run : p.run none ls = (q.written ++ (r.run none below).1, (r.run none below).2))
    (kept : q.KeepsText) (reads : Reads p.state block names (q :: ps) (r.run none below).2.state) :
    Falls p block names ls (q :: ps) where
  reads := by rwa [run]
  lines := by rw [List.flatMap_cons, rest.lines, lines]
  written := by rw [List.flatMap_cons, rest.written, run]
  kept := by simpa [kept] using rest.kept
  last := by rw [run]; exact rest.last

section passages

variable {p : Processor} {base : Nat} {names : List Text} {content : Bool} {l : Text}
  {ls : List Text} {ps : List Passage}

theorem At.falls_sentinel {block : Option Bool} (h : p.At block base names)
    (found : hasSentinel (Text.strip l) = true)
    (rest : Falls (p.step l ls.head?).after (some false) [] ls ps) :
    Falls p block names (l :: ls) (.sentinel l :: ps) := by
  obtain ⟨ended, -⟩ := h.sentinel found ls.head?
  refine rest.cons rfl ?_ trivial (.sentinel found (ended ▸ rest.reads))
  rw [run_cons, step_of_sentinel _ found]
  rfl

theorem At.falls_outside (h : p.At none base []) (plain : hasSentinel (Text.strip l) = false)
    (rest : Falls p none [] ls ps) : Falls p none [] (l :: ls) (.outside l :: ps) := by
  refine rest.cons rfl ?_ trivial (.outside plain rest.reads)
  rw [run_cons, step_outside _ plain h.inBlock]
  rfl

theorem At.falls_definition (h : p.At (some content) base names)
    (plain : hasSentinel (Text.strip l) = false) {name text : Text}
    (defines : definition? (Text.strip l) = some (name, text)) (used : name ∈ names)
    {more below : List Text} (continued : ∀ m ∈ more, continuesDefinition m = true)
    (ends : ∀ m, below.head? = some m → continuesDefinition m = false)
    (rest : Falls (p.commit (some ⟨name, Text.strip text :: more.map Text.strip⟩)) (some content)
      names below ps) :
    Falls p (some content) names (l :: (more ++ below)) (.definition l more :: ps) := by
  refine rest.cons rfl ?_ trivial
    (.definition plain defines used continued (by rwa [rest.lines]) rest.reads)
  rw [run_cons, step_of_definition _ plain h.inBlock defines
    ((h.opened.isKnown_iff name).mpr used), run_continued p _ continued ends]
  rfl

section body

variable (h : p.At (some content) base names) (plain : hasSentinel (Text.strip l) = false)
  (undefined : ∀ name text, definition? (Text.strip l) = some (name, text) → name ∉ names)

include h

theorem At.keepsText_body : (Passage.body l (p.state.renumber l).1).KeepsText :=
  ⟨numeralIn base (namesAfter names l), isNumeral_numeralIn _ _, (h.opened.renumber l).1⟩

include plain undefined

theorem At.run_body : p.run none (l :: ls) =
    ((p.state.renumber l).1 :: ((p.bodyLine l ls.head?).after.run none ls).1,
      ((p.bodyLine l ls.head?).after.run none ls).2) := by
  have unknown : ∀ name text, definition? (Text.strip l) = some (name, text) →
      p.state.isKnown name = false := by
    intro name text hd
    rw [Bool.eq_false_iff, ne_eq, h.opened.isKnown_iff]
    exact undefined name text hd
  obtain ⟨step, -⟩ := h.bodyLine ls.head? plain undefined
  rw [run_cons, step_of_body _ plain h.inBlock unknown, step]
  rfl

theorem At.falls_last (ended : closesAfter content l ls.head? = true)
    (rest : Falls (p.bodyLine l ls.head?).after none [] ls ps) :
    Falls p (some content) names (l :: ls) (.body l (p.state.renumber l).1 :: ps) := by
  have state := state_bodyLine (h.hasContent content rfl) l ls.head?
  rw [if_pos ended] at state
  exact rest.cons rfl (h.run_body plain undefined) h.keepsText_body
    (.last plain undefined (by rwa [rest.lines]) (state ▸ rest.reads))

theorem At.falls_body (stays : closesAfter content l ls.head? = false)
    (rest : Falls (p.bodyLine l ls.head?).after (some (content || !Text.isBlank l))
      (namesAfter names l) ls ps) :
    Falls p (some content) names (l :: ls) (.body l (p.state.renumber l).1 :: ps) := by
  have state := state_bodyLine (h.hasContent content rfl) l ls.head?
  rw [if_neg (by simp [stays])] at state
  exact rest.cons rfl (h.run_body plain undefined) h.keepsText_body
    (.body plain undefined (by rwa [rest.lines]) (state ▸ rest.reads))

end body

end passages

/-- Lines fall into passages, and are read as these. -/
theorem exists_falls {p : Processor} {block : Option Bool} {base : Nat} {names : List Text}
    (h : p.At block base names) (ls : List Text) : ∃ ps, Falls p block names ls ps := by
  -- A definition takes several lines at once, so the induction is on their number.
  induction hn : ls.length using Nat.strongRecOn generalizing p block base names ls with
  | ind k ih =>
    subst hn
    cases ls with
    | nil => exact ⟨[], .done, rfl, rfl, by simp, block, base, names, h⟩
    | cons l ls =>
      have shorter : ls.length < (l :: ls).length := by simp
      cases plain : hasSentinel (Text.strip l) with
      | true =>
        obtain ⟨ps, rest⟩ := ih _ shorter (h.sentinel plain ls.head?).2 ls rfl
        exact ⟨_, h.falls_sentinel plain rest⟩
      | false =>
        cases block with
        | none =>
          obtain rfl := h.outside rfl
          obtain ⟨ps, rest⟩ := ih _ shorter h ls rfl
          exact ⟨_, h.falls_outside plain rest⟩
        | some content =>
          by_cases known : ∃ name text,
              definition? (Text.strip l) = some (name, text) ∧ name ∈ names
          · obtain ⟨name, text, defines, used⟩ := known
            obtain ⟨more, below, rfl, continued, ends⟩ := exists_continued ls
            have fewer : below.length < (l :: (more ++ below)).length := by
              rw [List.length_cons, List.length_append]
              omega
            obtain ⟨ps, rest⟩ := ih _ fewer
              (h.commit (c := ⟨name, Text.strip text :: more.map Text.strip⟩) used).1 below rfl
            exact ⟨_, h.falls_definition plain defines used continued ends rest⟩
          · have undefined : ∀ name text, definition? (Text.strip l) = some (name, text) →
                name ∉ names := fun name text hd hm => known ⟨name, text, hd, hm⟩
            obtain ⟨-, closed, opened⟩ := h.bodyLine ls.head? plain undefined
            cases ended : closesAfter content l ls.head? with
            | true =>
              obtain ⟨ps, rest⟩ := ih _ shorter (closed ended) ls rfl
              exact ⟨_, h.falls_last plain undefined ended rest⟩
            | false =>
              obtain ⟨ps, rest⟩ := ih _ shorter (opened ended) ls rfl
              exact ⟨_, h.falls_body plain undefined ended rest⟩

/-- At the end of a text no block is open. -/
theorem At.finish {p : Processor} {block : Option Bool} {base : Nat} {names : List Text}
    (h : p.At block base names) : p.finish.state = p.state.closeBlock ∧
      p.finish.inBlock = false ∧ p.finish.state.block = [] := by
  rw [Processor.finish]
  cases block with
  | none =>
    have closed : p.inBlock = false := h.inBlock
    have none := h.block_eq_nil rfl
    simp only [closed, Bool.false_eq_true, ↓reduceIte, none, and_true, State.closeBlock]
    rw [← none]
  | some content =>
    have opened : p.inBlock = true := h.inBlock
    rw [if_pos opened]
    exact ⟨rfl, rfl, rfl⟩

/--
The lines of a text are written in their order and as they are, but for the definitions that are
taken out, with exactly the text that is kept for each, and for the digits of markers in blocks.
-/
theorem process_passages {s : State} (closed : s.block = []) (natural : 0 ≤ s.counter) (t : Text) :
    ∃ ps final, Reads s none [] ps final ∧
      Text.lines t = ps.flatMap Passage.lines ∧
      Text.lines (({ state := s } : Processor).process t).1 = ps.flatMap Passage.written ∧
      (∀ q ∈ ps, q.KeepsText) ∧
      (({ state := s } : Processor).process t).2.state = final.closeBlock ∧
      (({ state := s } : Processor).process t).2.inBlock = false ∧
      (({ state := s } : Processor).process t).2.state.block = [] ∧
      ((∀ l ∈ Text.lines t, hasSentinel (Text.strip l) = false) →
        ({ state := s } : Processor).process t = (t, { state := s })) := by
  have start : ({ state := s } : Processor).At none s.counter.toNat [] :=
    ⟨rfl, by simp, fun _ => rfl, State.opened_nil (Int.toNat_of_nonneg natural).symm closed⟩
  obtain ⟨ps, falls⟩ := exists_falls start (Text.lines t)
  have free : ∀ l ∈ (({ state := s } : Processor).run none (Text.lines t)).1, '\n' ∉ l :=
    newline_not_mem_run start (by simp) fun _ hl => Text.newline_not_mem_of_mem_lines hl
  obtain ⟨block, base, names, last⟩ := falls.last
  obtain ⟨state, inBlock, none⟩ := last.finish
  refine ⟨ps, _, falls.reads, falls.lines.symm, ?_, falls.kept, state, inBlock, none, ?_⟩
  · rw [falls.written]
    exact Text.lines_unlines (run_ne_nil rfl (Text.lines_ne_nil t)) free
  · intro plain
    have run := run_outside (p := { state := s }) rfl plain
    simp only [process, feed, feedLines, resume, Bool.false_eq_true, ↓reduceIte, run,
      Text.unlines_lines, Processor.finish]

/-- A block in which one of two names is defined, in two lines. -/
def definingText : Text :=
  "\x7b .annotate \x7d\nA (4) and (7)\n4. four\n    more\n\nB (4)".toList

theorem definingText_passages :
    (({} : State).block = [] ∧ 0 ≤ ({} : State).counter) ∧
      ∃ ps final, Reads {} none [] ps final ∧
        Text.lines definingText = ps.flatMap Passage.lines ∧
        ["\x7b .annotate \x7d".toList, "A (1) and (2)".toList, [], "B (4)".toList] =
          ps.flatMap Passage.written ∧
        (∀ q ∈ ps, q.KeepsText) ∧
        { counter := 2, definitions := [("1".toList, ⟨"1".toList, "four\nmore".toList, 1⟩)],
          referenced := [1, 2] } = final.closeBlock := by
  obtain ⟨ps, final, reads, lines, written, kept, state, -⟩ :=
    process_passages (s := {}) rfl (by decide) definingText
  refine ⟨⟨rfl, by decide⟩, ps, final, reads, lines, ?_, kept, ?_⟩
  · rw [← written]
    rfl
  · rw [← state]
    rfl

end Processor

end Docmark.Annotation
