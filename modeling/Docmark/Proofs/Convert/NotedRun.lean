import Docmark.Proofs.Annotation.LineStep
import Docmark.Proofs.Convert.NotedLine

/-!
The processor over annotated blocks of one line each, with the definitions shown below the lines. It
takes the definitions out again, writes the lines as they are, and ends in the state in which the
conversion ended.
-/

namespace Docmark

open Annotation

namespace NotedLine

/-- The line that shows a note. -/
def noteLine (p : Text × Text) : Text :=
  p.1 ++ '.' :: ' ' :: p.2

/-- The lines of the notes, where they are shown, set off by a blank line. -/
def noteLines (emitting : Bool) (e : NotedLine) : List Text :=
  if emitting && !e.notes.isEmpty then [] :: e.notes.map noteLine else []

/-- The lines of a block. -/
def layout (emitting : Bool) (e : NotedLine) : List Text :=
  sentinel :: [] :: e.line :: e.noteLines emitting

/-- The lines of a block without those of its notes. -/
def kept (e : NotedLine) : List Text :=
  sentinel :: [] :: e.line :: if e.notes.isEmpty then [] else [[]]

/-- A note under a number, as it can be shown on a line of its own. -/
structure ProperNote (p : Text × Text) : Prop where
  number : IsNumeral p.1
  plain : Markdown.PlainLine p.2
  trimmed : Text.Trimmed p.2

section noteLine

variable {p : Text × Text} (h : ProperNote p)

include h

theorem trimmed_noteLine : Text.Trimmed (noteLine p) := by
  have number : Text.Trimmed p.1 := by
    refine Text.trimmed_of_ends h.number.1 (fun c hc => ?_) (fun c hc => ?_)
    · exact Text.not_isBlankChar_of_isDecimal (h.number.2 c (List.mem_of_mem_head? hc))
    · exact Text.not_isBlankChar_of_isDecimal (h.number.2 c (List.mem_of_mem_getLast? hc))
  have := number.append ['.', ' '] h.trimmed
  rwa [List.append_assoc] at this

theorem plainLine_noteLine : Markdown.PlainLine (noteLine p) := by
  have plain : ∀ c ∈ p.1 ++ ['.', ' '], Markdown.needsGuard c = false := by
    intro c hc
    rcases List.mem_append.mp hc with hc | hc
    · exact Markdown.needsGuard_of_isDecimal (h.number.2 c hc)
    · simp only [List.mem_cons, List.not_mem_nil, or_false] at hc
      rcases hc with rfl | rfl <;> decide
  have number : Markdown.PlainLine (p.1 ++ ['.', ' ']) := by
    refine ⟨?_, Markdown.guardedAfter_of_plain plain⟩
    simp [h.number.not_mem (c := '\n') (Text.not_isDecimal_of_gap (by decide))]
  have := number.append h.plain
  rwa [List.append_assoc] at this

theorem definition?_noteLine : definition? (Text.strip (noteLine p)) = some p := by
  have dot : Text.isDecimal '.' = false := Text.not_isDecimal_of_gap (by decide)
  obtain ⟨id, rest⟩ := Text.span_stop h.number.2 dot (' ' :: p.2)
  have ne : p.1.isEmpty = false := List.isEmpty_eq_false_iff.mpr h.number.1
  rw [(trimmed_noteLine h).stripped, definition?, noteLine]
  simp only [id, rest, ne, Bool.not_false, Bool.true_and, h.trimmed.stripStart]
  rfl

theorem hasSentinel_noteLine : hasSentinel (Text.strip (noteLine p)) = false :=
  Markdown.hasSentinel_eq_false (plainLine_noteLine h).guarded.strip

/-- Such a line begins a definition, and goes on with none. -/
theorem continuesDefinition_noteLine : Processor.continuesDefinition (noteLine p) = false := by
  obtain ⟨c, r, hc⟩ := List.exists_cons_of_ne_nil h.number.1
  have blank : Text.isBlankChar c = false :=
    Text.not_isBlankChar_of_isDecimal (h.number.2 c (by simp [hc]))
  have space : (' ' == c) = false := by
    refine beq_false_of_ne fun he => ?_
    rw [← he] at blank
    cases blank
  have tab : ('\t' == c) = false := by
    refine beq_false_of_ne fun he => ?_
    rw [← he] at blank
    cases blank
  simp only [Processor.continuesDefinition, noteLine, hc, Text.startsWith, Text.spaces,
    List.replicate, List.cons_append, List.isPrefixOf, space, tab, Bool.false_and, Bool.or_self,
    Bool.and_false]

theorem closesBlock_noteLine : Processor.closesBlock (noteLine p) = false := by
  rw [Processor.closesBlock, definition?_noteLine h]
  simp

end noteLine

/-- Blocks one after the other, each as its own lines, with a blank line between two. -/
def layouts (f : NotedLine → List Text) : List NotedLine → List Text
  | [] => []
  | [e] => f e
  | e :: e' :: es => f e ++ [] :: layouts f (e' :: es)

/-- The blocks with numbers that count on from one to the next. -/
def number (base : Nat) : List NotedLine → List NotedLine
  | [] => []
  | e :: es => e.numbered base :: number (base + e.names.length) es

theorem head?_layouts (emitting : Bool) (e : NotedLine) (es : List NotedLine) :
    (layouts (layout emitting) (e :: es)).head? = some sentinel := by
  cases es <;> rfl

/-- A block that has its numbers. -/
structure Numbered (e : NotedLine) : Prop where
  line : Markdown.PlainLine e.line
  shown : Text.isBlank e.line = false
  notes : ∀ n ∈ e.notes, ProperNote n

theorem Proper.numbered {e : NotedLine} (h : e.Proper) (base : Nat) :
    (e.numbered base).Numbered := by
  refine ⟨h.line.relabel fun d _ => isNumeral_numeralIn base e.names d, ?_, fun n hn => ?_⟩
  · exact (isBlank_relabel _ e.line).trans h.shown
  · obtain ⟨m, hm, rfl⟩ := List.mem_map.mp hn
    exact ⟨isNumeral_numeralIn base e.names m.1, h.plain m hm, h.trimmed m hm⟩

/-- The Markdown of a block. -/
def markdown (emitting : Bool) (e : NotedLine) : Text :=
  Convert.blockMarkdown emitting e.line (e.notes.map noteLine)

theorem Numbered.lines_markdown {e : NotedLine} (h : e.Numbered) (emitting : Bool) :
    Text.lines (e.markdown emitting) = e.layout emitting := by
  have ne : e.line.isEmpty = false :=
    List.isEmpty_eq_false_iff.mpr (Text.ne_nil_of_not_isBlank h.shown)
  have first : Text.lines sentinel = [sentinel] := Text.lines_of_not_mem (by decide)
  have second := Text.lines_of_not_mem h.line.line
  rw [markdown, Convert.blockMarkdown, layout]
  simp only [ne, Bool.false_eq_true, ↓reduceIte, List.isEmpty_map]
  by_cases hs : (emitting && !e.notes.isEmpty) = true
  · have shown : e.notes.map noteLine ≠ [] := by
      simp only [Bool.and_eq_true, Bool.not_eq_true', List.isEmpty_eq_false_iff] at hs
      simpa using hs.2
    have third : Text.lines (Text.unlines (e.notes.map noteLine)) = e.notes.map noteLine := by
      refine Text.lines_unlines shown fun l hl => ?_
      obtain ⟨n, hn, rfl⟩ := List.mem_map.mp hl
      exact (plainLine_noteLine (h.notes n hn)).line
    simp only [hs, ↓reduceIte, List.cons_append, List.nil_append]
    rw [Text.lines_joinBlocks_cons _ (by simp), Text.lines_joinBlocks_cons _ (by simp), first,
      second]
    show _ ++ [] :: (_ ++ [] :: Text.lines (Text.unlines (e.notes.map noteLine))) = _
    rw [third, noteLines, if_pos hs]
    rfl
  · simp only [hs, Bool.false_eq_true, ↓reduceIte, List.append_nil]
    rw [Text.lines_joinBlocks_cons _ (by simp), first, noteLines, if_neg hs]
    exact congrArg (fun ls => sentinel :: [] :: ls) second

end NotedLine

namespace Annotation.Processor

open NotedLine

theorem step_note {p : Processor} (opened : p.inBlock = true) {n : Text × Text}
    (h : ProperNote n) (known : p.state.isKnown n.1 = true) (next : Option Text) :
    p.step (noteLine n) next = ⟨none, some ⟨n.1, [n.2]⟩, p⟩ := by
  rw [step_of_definition next (hasSentinel_noteLine h) opened (definition?_noteLine h) known,
    h.trimmed.stripped]

/-- A definition ends before a line that does not go on with it. -/
theorem run_capture (p : Processor) (c : Capture) {ls : List Text}
    (ends : ∀ l, ls.head? = some l → continuesDefinition l = false) :
    p.run (some c) ls = (p.commit (some c)).run none ls := by
  cases ls with
  | nil => rfl
  | cons l ls =>
    rw [run, if_neg (by simp [ends l rfl]), run]

/-- A line that is written, and what comes after it. -/
theorem run_written {p q : Processor} {line written : Text} (ls : List Text)
    (h : p.step line ls.head? = ⟨some written, none, q⟩) :
    p.run none (line :: ls) = (written :: (q.run none ls).1, (q.run none ls).2) := by
  rw [run_cons, h]
  rfl

/-- A blank line before the first line of a block, or before one that goes on with it. -/
theorem step_blank {p : Processor} (opened : p.inBlock = true) (next : Text)
    (stays : p.hasContent = true → closesBlock next = false) :
    p.step [] (some next) = ⟨some [], none, p⟩ := by
  have none : definition? (Text.strip []) = none := by decide
  have stays' : closesAfter p.hasContent [] (some next) = false := by
    cases hc : p.hasContent with
    | false => rfl
    | true => simp [closesAfter, stays hc]
  rw [step_of_body _ rfl opened (by simp [none]), bodyLine_eq rfl, stays']
  simp only [Bool.false_eq_true, ↓reduceIte, Option.isNone_some, Bool.and_false,
    show Text.isBlank [] = true from rfl]
  rfl

/-- A blank line that a block ends with. -/
theorem step_gap {p : Processor} (opened : p.inBlock = true) (content : p.hasContent = true)
    {next : Text} (closes : closesBlock next = true) :
    p.step [] (some next) = ⟨some [], none, p.close⟩ := by
  have none : definition? (Text.strip []) = none := by decide
  have closes' : closesAfter true [] (some next) = true := by
    simp [closesAfter, closes, show Text.isBlank [] = true from rfl]
  rw [step_of_body _ rfl opened (by simp [none]), bodyLine_eq content, closes']
  rfl

/-- The first line of a block that is not blank. -/
theorem step_first {p : Processor} (opened : p.inBlock = true) (unnamed : p.state.block = [])
    {line : Text} (plain : Markdown.PlainLine line) (shown : Text.isBlank line = false)
    (next : Option Text) :
    p.step line next = ⟨some (p.state.renumber line).1, none,
      { p with hasContent := true, state := (p.state.renumber line).2 }⟩ := by
  have undefined (name : Text) : p.state.isKnown name = false := by
    rw [State.isKnown, unnamed]
    rfl
  rw [step_of_body _ (Markdown.hasSentinel_eq_false plain.guarded.strip) opened
    (fun name _ _ => undefined name), bodyLine_eq rfl]
  simp [closesAfter, shown, numbered]

/-- The first lines of a block, of which none is a definition. -/
theorem run_opening {p : Processor} (closed : p.inBlock = false) (unnamed : p.state.block = [])
    {line : Text} (plain : Markdown.PlainLine line) (shown : Text.isBlank line = false)
    (ls : List Text) :
    p.run none (sentinel :: [] :: line :: ls) =
      let q := { p with
        inBlock := true, hasContent := true, state := (p.state.renumber line).2 }
      (sentinel :: [] :: (p.state.renumber line).1 :: (q.run none ls).1, (q.run none ls).2) := by
  have first := run_written ls (step_first (p := { p with
    inBlock := true, hasContent := false }) rfl unnamed plain shown ls.head?)
  have blank := run_written (line :: ls) (step_blank (p := { p with
    inBlock := true, hasContent := false }) rfl line (by simp))
  have opening : p.step sentinel ([] :: line :: ls).head? = ⟨some sentinel, none,
      { p with inBlock := true, hasContent := false }⟩ := by
    rw [step_of_sentinel _ (by decide), if_neg (by simp [closed])]
  rw [run_written _ opening, blank, first]

theorem isKnown_define {s : State} {d : Text} (known : s.isKnown d = true) (content e : Text) :
    (s.define d content).2.isKnown e = s.isKnown e := by
  obtain ⟨n, hn⟩ := Option.isSome_iff_exists.mp known
  have same : s.resolve d = (n, s) := by
    unfold State.resolve
    rw [Dictionary.get?, hn]
  simp only [State.define, same]
  rfl

/-- The processor with definitions taken over. -/
def storing (p : Processor) (notes : List (Text × Text)) : Processor :=
  { p with state := (Convert.storeDefinitions p.state notes).2 }

/-- The lines of notes are taken out, one after the other. -/
theorem run_notes {p : Processor} (opened : p.inBlock = true) {notes : List (Text × Text)}
    (h : ∀ n ∈ notes, ProperNote n) (known : ∀ n ∈ notes, p.state.isKnown n.1 = true)
    {ls : List Text} (ends : ∀ l, ls.head? = some l → continuesDefinition l = false) :
    p.run none (notes.map noteLine ++ ls) = (p.storing notes).run none ls := by
  induction notes generalizing p with
  | nil => rfl
  | cons n notes ih =>
    have hn := h n (by simp)
    have next : ∀ l, (notes.map noteLine ++ ls).head? = some l → continuesDefinition l = false := by
      cases notes with
      | nil => exact ends
      | cons m notes =>
        intro l hl
        obtain rfl : noteLine m = l := by simpa using hl
        exact continuesDefinition_noteLine (h m (by simp))
    rw [List.map_cons, List.cons_append, run_cons, step_note opened hn (known n (by simp)),
      run_capture _ _ next]
    have still (e : Text) : (p.commit (some ⟨n.1, [n.2]⟩)).state.isKnown e = p.state.isKnown e :=
      isKnown_define (known n (by simp)) n.2 e
    exact ih opened (fun m hm => h m (by simp [hm])) fun m hm => by
      rw [still, known m (by simp [hm])]

/-- Of the notes of a block only the blank line before them is left. -/
theorem run_noteLines {p : Processor} (opened : p.inBlock = true) {e : NotedLine}
    (h : ∀ n ∈ e.notes, ProperNote n) (known : ∀ n ∈ e.notes, p.state.isKnown n.1 = true)
    {ls : List Text} (ends : ∀ l, ls.head? = some l → continuesDefinition l = false) :
    p.run none (e.noteLines true ++ ls) =
      ((if e.notes.isEmpty then [] else [[]]) ++ ((p.storing e.notes).run none ls).1,
        ((p.storing e.notes).run none ls).2) := by
  have notes := run_notes opened h known ends
  rw [noteLines]
  cases hn : e.notes with
  | nil => rfl
  | cons n ns =>
    rw [hn] at h notes
    have stays : closesBlock (noteLine n) = false := closesBlock_noteLine (h n (by simp))
    have blank := run_written ((n :: ns).map noteLine ++ ls)
      (step_blank opened (noteLine n) fun _ => stays)
    rw [notes] at blank
    exact blank

/-- The processor at the end of a block, before the block is closed. -/
def reading (p : Processor) (e : NotedLine) : Processor where
  state := (Convert.storeDefinitions (p.state.renumber e.line).2 e.notes).2
  inBlock := true
  hasContent := true
  pending := p.pending

/-- A block that has its numbers loses the lines of its notes and nothing else. -/
theorem run_layout {p : Processor} (closed : p.inBlock = false) (sound : p.state.Sound)
    {e f : NotedLine} (h : e.Proper) (hf : f = e.numbered p.state.counter.toNat) (ls : List Text)
    (ends : ∀ l, ls.head? = some l → continuesDefinition l = false) :
    p.run none (f.layout true ++ ls) =
      (f.kept ++ ((p.reading f).run none ls).1, ((p.reading f).run none ls).2) := by
  obtain ⟨plain, shown, notes⟩ := h.numbered p.state.counter.toNat
  have marked := marked_numbered p.state.counter.toNat h.marked
  have fixed := relabel_numbered p.state.counter.toNat e
  rw [← hf] at plain shown notes marked fixed
  obtain ⟨written, opened, -, -⟩ := sound.opened.renumber f.line
  have known : ∀ n ∈ f.notes, (p.state.renumber f.line).2.isKnown n.1 = true := fun n hn =>
    (opened.isKnown_iff n.1).mpr (mem_names.mpr (marked n hn))
  rw [layout, List.cons_append, List.cons_append, List.cons_append,
    run_opening closed sound.closed plain shown, written.trans fixed]
  dsimp only
  rw [run_noteLines rfl notes known ends]
  rfl

theorem close_reading {p : Processor} (sound : p.state.Sound) {e f : NotedLine} (h : e.Proper)
    (hf : f = e.numbered p.state.counter.toNat) : (p.reading f).close.state = e.after p.state := by
  rw [hf]
  exact after_numbered sound h.marked

/-- Blocks with their numbers lose the lines of their notes, which the processor remembers. -/
theorem run_layouts {es : List NotedLine} (proper : ∀ e ∈ es, e.Proper) {p : Processor}
    (closed : p.inBlock = false) (sound : p.state.Sound) :
    (p.run none (layouts (layout true) (number p.state.counter.toNat es))).1 =
        layouts kept (number p.state.counter.toNat es) ∧
      (p.run none (layouts (layout true) (number p.state.counter.toNat es))).2.finish.state =
        es.foldl NotedLine.after p.state := by
  induction es generalizing p with
  | nil => exact ⟨rfl, by simp [number, layouts, run, commit, finish, closed]⟩
  | cons e es ih =>
    have he := proper e (by simp)
    have closing := close_reading sound he rfl
    rw [List.foldl_cons, number]
    cases es with
    | nil =>
      have block := run_layout closed sound he rfl [] (by simp)
      rw [List.append_nil] at block
      rw [number, layouts, layouts, block]
      exact ⟨List.append_nil _, closing⟩
    | cons e₁ es =>
      have count : (e.after p.state).counter.toNat = p.state.counter.toNat + e.names.length := by
        rw [after_eq sound he.marked]
        exact Int.toNat_natCast _
      have rest := ih (p := (p.reading (e.numbered p.state.counter.toNat)).close)
        (fun f hf => proper f (by simp [hf])) rfl (by
          rw [closing]
          exact sound_after sound he.marked)
      rw [closing, count, number] at rest
      have block := run_layout closed sound he rfl ([] :: layouts (layout true)
        (number (p.state.counter.toNat + e.names.length) (e₁ :: es))) (by
          intro l hl
          obtain rfl : [] = l := by simpa using hl
          rfl)
      have gap := run_written (layouts (layout true)
        (number (p.state.counter.toNat + e.names.length) (e₁ :: es))) (by
          rw [number, head?_layouts]
          exact step_gap (p := p.reading (e.numbered p.state.counter.toNat)) rfl rfl (by decide))
      rw [number] at block gap
      rw [number, layouts, layouts, block, gap, rest.1, rest.2]
      exact ⟨rfl, rfl⟩

end Annotation.Processor

end Docmark
