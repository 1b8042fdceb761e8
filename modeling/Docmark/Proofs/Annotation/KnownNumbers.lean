import Docmark.Proofs.Annotation.Passages
import Docmark.Proofs.Dictionary

/-!
The numbers that are known when a text has been read. They are counted through all of its blocks, so
that they tell nothing of where a number may stand: known are the numbers from 1 to the number of
names that the blocks have between them.
-/

namespace Docmark.Annotation

namespace Passage

/-- The lines up to the next sentinel that belong to a block, and those of each block behind it. -/
def blocks : List Passage → List Text × List (List Text)
  | [] => ([], [])
  | sentinel _ :: ps => ([], (blocks ps).1 :: (blocks ps).2)
  | body line _ :: ps => (line :: (blocks ps).1, (blocks ps).2)
  | outside _ :: ps => blocks ps
  | definition _ _ :: ps => blocks ps

/-- The names that are marked in the blocks of a text, each once in every block. -/
def blockNames (ps : List Passage) : List Text :=
  ((blocks ps).1 :: (blocks ps).2).flatMap markedNames

/-- The number of names in use behind the passages, where `names` are those of the open block. -/
def countFrom (names : List Text) (ps : List Passage) : Nat :=
  (Text.distinctFrom names ((blocks ps).1.flatMap markersOf)).length +
    ((blocks ps).2.flatMap markedNames).length

theorem countFrom_nil (ps : List Passage) : countFrom [] ps = (blockNames ps).length := by
  simp [countFrom, blockNames, markedNames, Text.distinct_eq]

/-- Where no line belongs to the open block, the other blocks are counted by themselves. -/
theorem countFrom_of_closed (names : List Text) {ps : List Passage} (closed : (blocks ps).1 = []) :
    countFrom names ps = names.length + countFrom [] ps := by
  simp [countFrom, closed]

theorem countFrom_sentinel (names : List Text) (line : Text) (ps : List Passage) :
    countFrom names (sentinel line :: ps) = names.length + countFrom [] ps := by
  have same : countFrom [] (sentinel line :: ps) = countFrom [] ps := by
    simp [countFrom, blocks, markedNames, Text.distinct_eq]
  rw [countFrom_of_closed names rfl, same]

theorem countFrom_body (names : List Text) (line written : Text) (ps : List Passage) :
    countFrom names (body line written :: ps) =
      countFrom (Processor.namesAfter names line) ps := by
  simp only [countFrom, blocks, List.flatMap_cons, Text.distinctFrom_append]
  rfl

end Passage

namespace State

/-- What is known are the numbers from 1 to `n`, with a marker each. -/
structure KnowsUpTo (s : State) (n : Nat) : Prop where
  referenced : ∀ m : Int, m ∈ s.referenced ↔ 1 ≤ m ∧ m ≤ n
  defined : ∀ k ∈ s.definitions.keys, ∃ m : Int, (1 ≤ m ∧ m ≤ n) ∧ k = Text.decimalInt m

theorem knowsUpTo_initial : KnowsUpTo {} 0 where
  referenced := by
    intro m
    simp
    omega
  defined := by simp [Dictionary.keys]

theorem KnowsUpTo.closeBlock {s : State} {n : Nat} (h : s.KnowsUpTo n) : s.closeBlock.KnowsUpTo n :=
  ⟨h.referenced, h.defined⟩

theorem KnowsUpTo.finish {p : Processor} {n : Nat} (h : p.state.KnowsUpTo n) :
    p.finish.state.KnowsUpTo n := by
  unfold Processor.finish
  dsimp only
  split
  · exact h.closeBlock
  · exact h

variable {s : State} {base : Nat} {names : List Text}

/-- The numbers of the names of a block. -/
theorem mem_numbers_iff (nodup : names.Nodup) (base : Nat) (m : Int) :
    (∃ d ∈ names, ((numberIn base names d : Nat) : Int) = m) ↔
      base + 1 ≤ m ∧ m ≤ (base + names.length : Nat) := by
  have all (n : Nat) : (∃ d ∈ names, numberIn base names d = n) ↔
      base + 1 ≤ n ∧ n < base + 1 + names.length := by
    rw [← List.mem_map, map_numberIn nodup, List.mem_range'_1]
  constructor
  · rintro ⟨d, hd, rfl⟩
    have := (all _).mp ⟨d, hd, rfl⟩
    omega
  · intro h
    obtain ⟨n, rfl⟩ := Int.eq_ofNat_of_zero_le (a := m) (by omega)
    obtain ⟨d, hd, number⟩ := (all n).mpr (by omega)
    exact ⟨d, hd, congrArg Int.ofNat number⟩

/-- A line of a block makes the numbers of its new names known. -/
theorem KnowsUpTo.renumber (known : s.KnowsUpTo (base + names.length))
    (opened : s.Opened base names) (nodup : names.Nodup) (line : Text) :
    (s.renumber line).2.KnowsUpTo (base + (Processor.namesAfter names line).length) := by
  obtain ⟨-, -, definitions, referenced⟩ := opened.renumber line
  have more : names.length ≤ (Processor.namesAfter names line).length :=
    (Text.prefix_distinctFrom names (markersOf line)).length_le
  have old := known.referenced
  refine ⟨fun m => ?_, fun k hk => ?_⟩
  · have all := mem_numbers_iff (Text.nodup_distinctFrom nodup (markersOf line)) base m
    have before := mem_numbers_iff nodup base m
    rw [referenced, Text.mem_distinctFrom, old, List.mem_map]
    constructor
    · rintro (earlier | ⟨d, hd, number⟩)
      · omega
      · have := all.mp ⟨d, Text.mem_distinctFrom.mpr (Or.inr hd), number⟩
        rw [Processor.namesAfter]
        omega
    · intro within
      by_cases earlier : m ≤ (base + names.length : Nat)
      · exact Or.inl ⟨within.1, earlier⟩
      · obtain ⟨d, hd, number⟩ := all.mpr ⟨by omega, within.2⟩
        rcases Text.mem_distinctFrom.mp hd with hd | hd
        · rw [numberIn_distinctFrom hd] at number
          have := before.mp ⟨d, hd, number⟩
          omega
        · exact Or.inr ⟨d, hd, number⟩
  · rw [definitions] at hk
    obtain ⟨m, within, rfl⟩ := known.defined k hk
    exact ⟨m, by omega, rfl⟩

/-- A definition of a name in use makes no other number known. -/
theorem KnowsUpTo.define (known : s.KnowsUpTo (base + names.length)) (opened : s.Opened base names)
    (nodup : names.Nodup) {name : Text} (used : name ∈ names) (content : Text) :
    (s.define name content).2.KnowsUpTo (base + names.length) := by
  obtain ⟨number, -, referenced⟩ := opened.define name content
  rw [Text.distinctFrom_cons_of_mem used, Text.distinctFrom_nil] at number
  have within := (mem_numbers_iff nodup base _).mp ⟨name, used, rfl⟩
  refine ⟨fun m => by rw [referenced, known.referenced], fun k hk => ?_⟩
  have keys : k ∈ s.definitions.keys ∨ k = Text.decimalInt (s.define name content).1 := by
    have put : (s.define name content).2.definitions.keys =
        (s.definitions.put (Text.decimalInt (s.define name content).1) _).keys :=
      congrArg (fun d => Dictionary.keys (Dictionary.put _ _ d)) (definitions_resolve s name)
    rw [put, Dictionary.keys_put] at hk
    split at hk
    · exact Or.inl hk
    · simpa using hk
  rcases keys with old | rfl
  · exact known.defined k old
  · exact ⟨_, by rw [number]; omega, rfl⟩

end State

/-- Outside of blocks no line belongs to one before the next sentinel. -/
theorem Reads.blocks_closed {s t : State} {block : Option Bool} {names : List Text}
    {ps : List Passage} (h : Reads s block names ps t) (closed : block = none) :
    (Passage.blocks ps).1 = [] := by
  induction h with
  | done => rfl
  | sentinel found rest ih => rfl
  | outside plain rest ih => exact ih rfl
  | body => cases closed
  | last => cases closed
  | definition => cases closed

/-- What is known behind the passages of a text. -/
theorem Reads.knowsUpTo {s t : State} {block : Option Bool} {names : List Text} {ps : List Passage}
    (h : Reads s block names ps t) {base : Nat} (opened : s.Opened base names)
    (nodup : names.Nodup) (known : s.KnowsUpTo (base + names.length)) :
    t.KnowsUpTo (base + Passage.countFrom names ps) := by
  induction h generalizing base with
  | done => simpa [Passage.countFrom, Passage.blocks] using known
  | sentinel found rest ih =>
    rw [Passage.countFrom_sentinel, ← Nat.add_assoc]
    exact ih opened.closeBlock List.nodup_nil known.closeBlock
  | outside plain rest ih => exact ih opened nodup known
  | @body s t content names line ps plain undefined stays rest ih =>
    rw [Passage.countFrom_body]
    exact ih (opened.renumber line).2.1 (Text.nodup_distinctFrom nodup _)
      (known.renumber opened nodup line)
  | @last s t content names line ps plain undefined closes rest ih =>
    have after : (s.renumber line).2.Opened base (Processor.namesAfter names line) :=
      (opened.renumber line).2.1
    rw [Passage.countFrom_body, Passage.countFrom_of_closed _ (rest.blocks_closed rfl),
      ← Nat.add_assoc]
    exact ih after.closeBlock List.nodup_nil (known.renumber opened nodup line).closeBlock
  | @definition s t content names line name text more ps plain defines used continued ends rest ih =>
    have after := (opened.define name (Text.unlines (Text.strip text :: more.map Text.strip))).2.1
    rw [Text.distinctFrom_cons_of_mem used, Text.distinctFrom_nil] at after
    exact ih after nodup (known.define opened nodup used _)

open Processor in
/-- The run over the lines of passages writes what is written for them, and ends in the state that
they are read to. -/
theorem Reads.run {s t : State} {block : Option Bool} {names : List Text} {ps : List Passage}
    (h : Reads s block names ps t) {p : Processor} {base : Nat} (place : p.At block base names)
    (start : p.state = s) : (p.run none (ps.flatMap Passage.lines)).1 = ps.flatMap Passage.written ∧
      (p.run none (ps.flatMap Passage.lines)).2.state = t := by
  induction h generalizing p base with
  | done => exact ⟨rfl, start⟩
  | @sentinel s t block names line ps found rest ih =>
    obtain ⟨ended, after⟩ := place.sentinel found (ps.flatMap Passage.lines).head?
    rw [step_of_sentinel _ found] at ended after
    obtain ⟨written, state⟩ := ih after (start ▸ ended)
    rw [List.flatMap_cons, Passage.lines, List.singleton_append, run_cons,
      step_of_sentinel _ found]
    exact ⟨congrArg (line :: ·) written, state⟩
  | @outside s t line ps plain rest ih =>
    obtain ⟨written, state⟩ := ih place start
    rw [List.flatMap_cons, Passage.lines, List.singleton_append, run_cons,
      step_outside _ plain place.inBlock]
    exact ⟨congrArg (line :: ·) written, state⟩
  | @body s t content names line ps plain undefined stays rest ih =>
    have numbered := state_bodyLine (place.hasContent content rfl) line
      (ps.flatMap Passage.lines).head?
    rw [stays, if_neg (by simp), start] at numbered
    obtain ⟨-, -, opened⟩ := place.bodyLine (ps.flatMap Passage.lines).head? plain undefined
    obtain ⟨written, state⟩ := ih (opened stays) numbered
    rw [List.flatMap_cons, Passage.lines, List.singleton_append, place.run_body plain undefined,
      start]
    exact ⟨congrArg ((s.renumber line).1 :: ·) written, state⟩
  | @last s t content names line ps plain undefined closes rest ih =>
    have numbered := state_bodyLine (place.hasContent content rfl) line
      (ps.flatMap Passage.lines).head?
    rw [closes, if_pos rfl, start] at numbered
    obtain ⟨-, closed, -⟩ := place.bodyLine (ps.flatMap Passage.lines).head? plain undefined
    obtain ⟨written, state⟩ := ih (closed closes) numbered
    rw [List.flatMap_cons, Passage.lines, List.singleton_append, place.run_body plain undefined,
      start]
    exact ⟨congrArg ((s.renumber line).1 :: ·) written, state⟩
  | @definition s t content names line name text more ps plain defines used continued ends rest ih =>
    have known : p.state.isKnown name = true := (place.opened.isKnown_iff name).mpr used
    rw [List.flatMap_cons, Passage.lines, List.cons_append, run_cons,
      step_of_definition _ plain place.inBlock defines known]
    dsimp only
    rw [run_continued p _ continued ends]
    exact ih (place.commit used).1 (by rw [← start]; rfl)

/-- What a text is written as, and what is known then, by its passages. -/
theorem Reads.process {ps : List Passage} {final : State} (h : Reads {} none [] ps final) {t : Text}
    (lines : Text.lines t = ps.flatMap Passage.lines) :
    Text.lines (({} : Processor).process t).1 = ps.flatMap Passage.written ∧
      (({} : Processor).process t).2.state.KnowsUpTo (Passage.blockNames ps).length := by
  have start := Processor.at_initial
  obtain ⟨written, state⟩ := h.run start rfl
  rw [← lines] at written state
  have known := h.knowsUpTo start.opened List.nodup_nil State.knowsUpTo_initial
  rw [Passage.countFrom_nil, Nat.zero_add, ← state] at known
  exact ⟨(Processor.lines_process start t).trans written, known.finish⟩

end Docmark.Annotation
