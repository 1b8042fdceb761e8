import Docmark.Proofs.Annotation.LineStep

/-!
Texts that the processor leaves as they are. Main statement: these are the texts in whose annotated
blocks no line defines a name that is marked before it, and whose blocks, one after the other, use
the names 1, 2, 3 and so on when each name counts once in each block.
-/

namespace Docmark.Annotation

/-- The lines of the open block, if one is open, and those of the blocks after it. -/
def blockLines : Option Bool → List Text → List Text × List (List Text)
  | _, [] => ([], [])
  | block, line :: rest =>
    if hasSentinel (Text.strip line) then
      let (b, bs) := blockLines (some false) rest
      ([], b :: bs)
    else match block with
      | none => blockLines none rest
      | some content =>
        let (b, bs) := blockLines (Processor.blockAfter content line rest.head?) rest
        (line :: b, bs)

/-- The annotated blocks of a text, each as its lines below the sentinel. -/
def annotatedBlocks (t : Text) : List (List Text) :=
  (blockLines none (Text.lines t)).2

/-- The names that a block uses, in the order of their first markers. -/
def markedNames (b : List Text) : List Text :=
  Text.distinct (b.flatMap markersOf)

/-- A line of the block is the definition of a name that is marked before, or was seen earlier. -/
def DefinesMarked (seen : List Text) (b : List Text) : Prop :=
  ∃ before line after name content, b = before ++ line :: after ∧
    definition? (Text.strip line) = some (name, content) ∧ name ∈ seen ++ before.flatMap markersOf

structure Settled (t : Text) : Prop where
  kept : ∀ b ∈ annotatedBlocks t, ¬ DefinesMarked [] b
  counted : (annotatedBlocks t).flatMap markedNames =
    (List.range' 1 ((annotatedBlocks t).flatMap markedNames).length).map Text.decimal

theorem blockLines_none (ls : List Text) : (blockLines none ls).1 = [] := by
  induction ls with
  | nil => rfl
  | cons l ls ih =>
    rw [blockLines]
    split
    · rfl
    · exact ih

theorem not_definesMarked_nil (seen : List Text) : ¬ DefinesMarked seen [] := by
  rintro ⟨before, line, after, -, -, h, -⟩
  simp at h

theorem definesMarked_cons {seen : List Text} {l : Text} {b : List Text} :
    DefinesMarked seen (l :: b) ↔
      (∃ name content, definition? (Text.strip l) = some (name, content) ∧ name ∈ seen) ∨
        DefinesMarked (seen ++ markersOf l) b := by
  constructor
  · rintro ⟨before, line, after, name, content, hb, hd, hn⟩
    cases before with
    | nil =>
      obtain ⟨rfl, rfl⟩ := List.cons.inj hb
      exact Or.inl ⟨name, content, hd, by simpa using hn⟩
    | cons m before =>
      obtain ⟨rfl, rfl⟩ := List.cons.inj hb
      refine Or.inr ⟨before, line, after, name, content, rfl, hd, ?_⟩
      rwa [List.flatMap_cons, ← List.append_assoc] at hn
  · rintro (⟨name, content, hd, hn⟩ | ⟨before, line, after, name, content, rfl, hd, hn⟩)
    · exact ⟨[], l, b, name, content, rfl, hd, by simpa using hn⟩
    · refine ⟨l :: before, line, after, name, content, rfl, hd, ?_⟩
      rwa [List.flatMap_cons, ← List.append_assoc]

theorem definesMarked_congr {seen seen' : List Text} (h : ∀ d, d ∈ seen ↔ d ∈ seen')
    (b : List Text) : DefinesMarked seen b ↔ DefinesMarked seen' b := by
  simp only [DefinesMarked, List.mem_append, h]

/-- The rest of a block stays as it is, its names counting on from `base`. -/
def Holds (base : Nat) (names : List Text) (b : List Text) : Prop :=
  ¬ DefinesMarked names b ∧ ∀ d ∈ b.flatMap markersOf,
    numeralIn base (Text.distinctFrom names (b.flatMap markersOf)) d = d

/-- So do the blocks after it. -/
def Stay (base : Nat) (names : List Text) (b : List Text) : List (List Text) → Prop
  | [] => Holds base names b
  | c :: cs => Holds base names b ∧
      Stay (base + (Text.distinctFrom names (b.flatMap markersOf)).length) [] c cs

theorem holds_nil (base : Nat) (names : List Text) : Holds base names [] :=
  ⟨not_definesMarked_nil names, by simp⟩

theorem stay_nil (base : Nat) (names : List Text) (bs : List (List Text)) :
    Stay base names [] bs ↔ Stay (base + names.length) [] [] bs := by
  cases bs with
  | nil => simp [Stay, holds_nil]
  | cons c cs => simp [Stay, holds_nil]

theorem stay_nil_cons (base : Nat) (names : List Text) (b : List Text) (bs : List (List Text)) :
    Stay base names [] (b :: bs) ↔ Stay (base + names.length) [] b bs := by
  simp [Stay, holds_nil]

theorem holds_cons {base : Nat} {names : List Text} {l : Text} {b : List Text} :
    Holds base names (l :: b) ↔
      ((∀ name content, definition? (Text.strip l) = some (name, content) → name ∉ names) ∧
        ∀ d ∈ markersOf l, numeralIn base (Processor.namesAfter names l) d = d) ∧
      Holds base (Processor.namesAfter names l) b := by
  have all : Text.distinctFrom names ((l :: b).flatMap markersOf) =
      Text.distinctFrom (Processor.namesAfter names l) (b.flatMap markersOf) :=
    Text.distinctFrom_append names (markersOf l) _
  have seen : ∀ d, d ∈ names ++ markersOf l ↔ d ∈ Processor.namesAfter names l := by
    simp [Processor.namesAfter, Text.mem_distinctFrom]
  have same : ∀ d ∈ markersOf l, numeralIn base
      (Text.distinctFrom (Processor.namesAfter names l) (b.flatMap markersOf)) d =
        numeralIn base (Processor.namesAfter names l) d := by
    intro d hd
    rw [numeralIn, numberIn_distinctFrom ((seen d).mp (by simp [hd])), numeralIn]
  rw [Holds, Holds, all, definesMarked_cons, definesMarked_congr seen]
  simp only [List.flatMap_cons, List.mem_append, not_or, not_exists, not_and, or_imp,
    forall_and]
  constructor
  · rintro ⟨⟨hk, hm⟩, hl, hb⟩
    exact ⟨⟨hk, fun d hd => (same d hd).symm.trans (hl d hd)⟩, hm, hb⟩
  · rintro ⟨⟨hk, hl⟩, hm, hb⟩
    exact ⟨⟨hk, hm⟩, fun d hd => (same d hd).trans (hl d hd), hb⟩

theorem stay_cons {base : Nat} {names : List Text} {l : Text} {b : List Text}
    {bs : List (List Text)} :
    Stay base names (l :: b) bs ↔
      ((∀ name content, definition? (Text.strip l) = some (name, content) → name ∉ names) ∧
        ∀ d ∈ markersOf l, numeralIn base (Processor.namesAfter names l) d = d) ∧
      Stay base (Processor.namesAfter names l) b bs := by
  have all : Text.distinctFrom names ((l :: b).flatMap markersOf) =
      Text.distinctFrom (Processor.namesAfter names l) (b.flatMap markersOf) :=
    Text.distinctFrom_append names (markersOf l) _
  cases bs with
  | nil => exact holds_cons
  | cons c cs => rw [Stay, Stay, holds_cons, all, and_assoc]

namespace Processor

/-- A definition that is taken out is missing in what is written. -/
theorem run_length_le (p : Processor) (capture : Option Capture) (ls : List Text) :
    (p.run capture ls).1.length ≤ ls.length := by
  have written (s : Step) : s.written.toList.length ≤ 1 := by
    cases s.written <;> simp
  induction ls generalizing p capture with
  | nil => simp [run]
  | cons l ls ih =>
    cases capture with
    | none =>
      simp only [run, List.length_append, List.length_cons]
      have := written (p.step l ls.head?)
      have := ih (p.step l ls.head?).after (p.step l ls.head?).capture
      omega
    | some c =>
      simp only [run]
      split
      · have := ih p (some { c with parts := c.parts ++ [Text.strip l] })
        simp only [List.length_cons]
        omega
      · simp only [List.length_append, List.length_cons]
        have := written ((p.commit (some c)).step l ls.head?)
        have := ih ((p.commit (some c)).step l ls.head?).after
          ((p.commit (some c)).step l ls.head?).capture
        omega

/-- Lines are written as they are just where the blocks among them stay as they are. -/
theorem run_eq_self_iff {p : Processor} {block : Option Bool} {base : Nat} {names : List Text}
    (h : p.At block base names) (ls : List Text) :
    (p.run none ls).1 = ls ↔
      Stay base names (blockLines block ls).1 (blockLines block ls).2 := by
  induction ls generalizing p block base names with
  | nil => simp [run, commit, blockLines, Stay, holds_nil]
  | cons l ls ih =>
    rw [run_cons]
    have takes := step_takes h l ls.head?
    generalize p.step l ls.head? = s at takes ⊢
    cases takes with
    | opens hs hq =>
      simp only [blockLines, hs, ↓reduceIte, stay_nil_cons, Option.toList_some,
        List.cons_append, List.nil_append, List.cons.injEq, true_and]
      exact ih hq
    | passes hs hb =>
      subst hb
      obtain rfl := h.outside rfl
      simp only [blockLines, hs, Bool.false_eq_true, ↓reduceIte, Option.toList_some,
        List.cons_append, List.nil_append, List.cons.injEq, true_and]
      exact ih h
    | defines hs hb hd hn =>
      subst hb
      simp only [blockLines, hs, Bool.false_eq_true, ↓reduceIte, stay_cons, Option.toList_none,
        List.nil_append]
      rename_i name text
      refine iff_of_false (fun he => ?_) (fun hk => hk.1.1 _ _ hd hn)
      have := run_length_le p (some ⟨name, [Text.strip text]⟩) ls
      rw [he, List.length_cons] at this
      omega
    | numbers hs hb hu hclosed hopen =>
      rename_i content q _ _
      subst hb
      have fixed : relabel (numeralIn base (namesAfter names l)) l = l ↔
          ∀ d ∈ markersOf l, numeralIn base (namesAfter names l) d = d :=
        relabel_eq_self_iff fun d _ => isNumeral_numeralIn _ _ d
      simp only [blockLines, hs, Bool.false_eq_true, ↓reduceIte, stay_cons, Option.toList_some,
        List.cons_append, List.nil_append, List.cons.injEq, fixed]
      have rest : (q.run none ls).1 = ls ↔ Stay base (namesAfter names l)
          (blockLines (blockAfter content l ls.head?) ls).1
          (blockLines (blockAfter content l ls.head?) ls).2 := by
        cases hc : closesAfter content l ls.head? with
        | false => exact ih (hopen hc)
        | true =>
          have ended : blockAfter content l ls.head? = none := by simp [blockAfter, hc]
          rw [ih (hclosed hc), ended, blockLines_none, ← stay_nil]
      rw [rest]
      constructor
      · rintro ⟨hl, hr⟩
        exact ⟨⟨hu, hl⟩, hr⟩
      · rintro ⟨⟨-, hl⟩, hr⟩
        exact ⟨hl, hr⟩

/-- Where no line is lost, no definition is taken over. -/
theorem definitions_run {p : Processor} {block : Option Bool} {base : Nat} {names : List Text}
    (h : p.At block base names) {ls : List Text} (same : (p.run none ls).1 = ls) :
    (p.run none ls).2.state.definitions = p.state.definitions := by
  induction ls generalizing p block base names with
  | nil => rfl
  | cons l ls ih =>
    rw [run_cons] at same ⊢
    have takes := step_takes h l ls.head?
    generalize p.step l ls.head? = s at takes same ⊢
    cases takes with
    | opens _ hq hd _ =>
      exact (ih hq (List.cons.inj same).2).trans hd
    | passes _ _ => exact ih h (List.cons.inj same).2
    | defines _ _ _ _ =>
      rename_i name text _ _ _ _
      have := run_length_le p (some ⟨name, [Text.strip text]⟩) ls
      rw [show (p.run (some ⟨name, [Text.strip text]⟩) ls).1 = l :: ls from same,
        List.length_cons] at this
      omega
    | numbers _ _ _ hclosed hopen hd _ =>
      rename_i content _ _ _ _ _
      cases hc : closesAfter content l ls.head? with
      | false => exact (ih (hopen hc) (List.cons.inj same).2).trans hd
      | true => exact (ih (hclosed hc) (List.cons.inj same).2).trans hd

theorem Takes.newline_not_mem {p : Processor} {block : Option Bool} {base : Nat}
    {names : List Text} {line : Text} {next : Option Text} {s : Step}
    (h : Takes p block base names line next s) (hl : '\n' ∉ line) :
    ∀ m ∈ s.written, '\n' ∉ m := by
  intro m hm
  cases h with
  | opens _ _ _ _ =>
    cases hm
    exact hl
  | passes _ _ =>
    cases hm
    exact hl
  | defines _ _ _ _ => cases hm
  | numbers _ _ _ _ _ _ _ =>
    cases hm
    exact newline_not_mem_relabel (fun d _ => isNumeral_numeralIn _ _ d) hl

/-- No line that is written has a line feed. -/
theorem newline_not_mem_run {p : Processor} {block : Option Bool} {base : Nat}
    {names : List Text} (h : p.At block base names) {capture : Option Capture}
    (known : ∀ c, capture = some c → block.isSome = true ∧ c.name ∈ names) {ls : List Text}
    (hl : ∀ l ∈ ls, '\n' ∉ l) : ∀ l ∈ (p.run capture ls).1, '\n' ∉ l := by
  induction ls generalizing p block base names capture with
  | nil => simp [run]
  | cons l ls ih =>
    have hls : ∀ m ∈ ls, '\n' ∉ m := fun m hm => hl m (by simp [hm])
    -- The lines from a step on, whatever the step came after.
    have stepped {p : Processor} (h : p.At block base names) :
        ∀ m ∈ (p.step l ls.head?).written.toList ++
          ((p.step l ls.head?).after.run (p.step l ls.head?).capture ls).1, '\n' ∉ m := by
      have takes := step_takes h l ls.head?
      generalize p.step l ls.head? = s at takes ⊢
      rw [List.forall_mem_append]
      have own := takes.newline_not_mem (hl l (by simp))
      refine ⟨fun m hm => own m (Option.mem_toList.mp hm), ?_⟩
      have none_known {names : List Text} {block : Option Bool} : ∀ c : Capture, none = some c →
          block.isSome = true ∧ c.name ∈ names := by simp
      cases takes with
      | opens _ hq => exact ih hq none_known hls
      | passes _ _ => exact ih h none_known hls
      | defines _ hb _ hn =>
        refine ih h (fun c hc => ?_) hls
        cases hc
        exact ⟨by simp [hb], hn⟩
      | @numbers content _ _ _ _ hclosed hopen =>
        cases hc : closesAfter content l ls.head? with
        | false => exact ih (hopen hc) none_known hls
        | true => exact ih (hclosed hc) none_known hls
    cases capture with
    | none => exact stepped h
    | some c =>
      obtain ⟨hb, hn⟩ := known c rfl
      simp only [run]
      split
      · refine ih h (fun c' hc => ?_) hls
        cases hc
        exact ⟨hb, hn⟩
      · exact stepped (h.commit hn).1

/-- What is read first outside of blocks is written. -/
theorem run_ne_nil {p : Processor} (closed : p.inBlock = false) {ls : List Text} (ne : ls ≠ []) :
    (p.run none ls).1 ≠ [] := by
  obtain ⟨l, ls, rfl⟩ := List.exists_cons_of_ne_nil ne
  rw [run_cons]
  cases plain : hasSentinel (Text.strip l) with
  | true => simp [step_of_sentinel _ plain]
  | false => simp [step_outside _ plain closed]

/-- The lines of what is written for a text are the lines that are written. -/
theorem lines_process {s : State} {base : Nat} (start : ({ state := s } : Processor).At none base [])
    (t : Text) : Text.lines (({ state := s } : Processor).process t).1 =
      (({ state := s } : Processor).run none (Text.lines t)).1 :=
  Text.lines_unlines (run_ne_nil rfl (Text.lines_ne_nil t))
    (newline_not_mem_run start (by simp) fun _ hl => Text.newline_not_mem_of_mem_lines hl)

/-- A text is written as it is just where all its lines are. -/
theorem process_eq_self_iff_run (t : Text) :
    (({} : Processor).process t).1 = t ↔
      (({} : Processor).run none (Text.lines t)).1 = Text.lines t := by
  rw [← lines_process at_initial t]
  constructor
  · intro h
    rw [h]
  · intro h
    rw [← Text.unlines_lines (({} : Processor).process t).1, h, Text.unlines_lines]

end Processor

/-- Each block counts on where the ones before it ended. -/
theorem stay_iff_counted (base : Nat) (bs : List (List Text)) :
    Stay base [] [] bs ↔ (∀ b ∈ bs, ¬ DefinesMarked [] b) ∧
      bs.flatMap markedNames =
        (List.range' (base + 1) (bs.flatMap markedNames).length).map Text.decimal := by
  induction bs generalizing base with
  | nil => simp [Stay, holds_nil]
  | cons b bs ih =>
    have holds : Holds base [] b ↔ ¬ DefinesMarked [] b ∧
        markedNames b = (List.range' (base + 1) (markedNames b).length).map Text.decimal := by
      have fixed := numeralIn_fixed_iff (Text.nodup_distinct (b.flatMap markersOf)) base
      rw [Holds, markedNames, ← fixed]
      simp only [Text.mem_distinct]
      rfl
    have next : Stay base [] [] (b :: bs) ↔
        Holds base [] b ∧ Stay (base + (markedNames b).length) [] [] bs := by
      cases bs with
      | nil => simp [Stay, holds_nil]
      | cons c cs => simp [Stay, holds_nil, markedNames, Text.distinct_eq]
    have shift : (List.range' (base + (markedNames b).length + 1)
        (bs.flatMap markedNames).length).map Text.decimal =
        (List.range' (base + 1 + (markedNames b).length)
          (bs.flatMap markedNames).length).map Text.decimal := by
      rw [Nat.add_right_comm]
    rw [next, holds, ih]
    simp only [List.flatMap_cons, List.length_append, List.mem_cons, forall_eq_or_imp,
      List.range'_append_1.symm, List.map_append]
    constructor
    · rintro ⟨⟨hk, hb⟩, hks, hbs⟩
      exact ⟨⟨hk, hks⟩, by rw [← shift, ← hb, ← hbs]⟩
    · rintro ⟨⟨hk, hks⟩, he⟩
      obtain ⟨hb, hbs⟩ := List.append_inj he (by simp)
      exact ⟨⟨hk, hb⟩, hks, hbs.trans shift.symm⟩

/-- The settled texts are those that the processor leaves as they are. -/
theorem process_eq_self_iff (t : Text) :
    (({} : Processor).process t).1 = t ↔ Settled t := by
  have run_iff := Processor.run_eq_self_iff Processor.at_initial (Text.lines t)
  rw [blockLines_none] at run_iff
  rw [Processor.process_eq_self_iff_run, run_iff]
  refine (stay_iff_counted 0 _).trans ?_
  constructor
  · rintro ⟨hk, hc⟩
    exact ⟨hk, hc⟩
  · intro h
    exact ⟨h.kept, h.counted⟩

theorem definitions_process {t : Text} (h : Settled t) :
    (({} : Processor).process t).2.state.definitions = [] := by
  have same := (Processor.process_eq_self_iff_run t).mp ((process_eq_self_iff t).mpr h)
  have run := Processor.definitions_run Processor.at_initial same
  have finished (p : Processor) : p.finish.state.definitions = p.state.definitions := by
    unfold Processor.finish
    dsimp only
    split <;> rfl
  exact (finished _).trans run

end Docmark.Annotation
