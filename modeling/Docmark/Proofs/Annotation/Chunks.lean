import Docmark.Proofs.Annotation.Passages

/-!
Texts that are fed in chunks of lines. Main statement: it does not show where a text is cut, as long as
no definition that is taken out is cut in two; and where one is, the lines behind the cut are missing
in what is kept for it.
-/

namespace Docmark.Annotation

open Processor

/-- The chunks consist of whole passages. -/
inductive CutBetween : List Passage → List (List Text) → Prop
  | done : CutBetween [] []
  | chunk {qs ps chunks} (rest : CutBetween ps chunks) :
    CutBetween (qs ++ ps) (qs.flatMap Passage.lines :: chunks)

theorem CutBetween.lines {ps : List Passage} {chunks : List (List Text)}
    (h : CutBetween ps chunks) : ps.flatMap Passage.lines = chunks.flatten := by
  induction h with
  | done => rfl
  | chunk _ ih => rw [List.flatMap_append, List.flatten_cons, ih]

namespace Passage

theorem lines_ne_nil (q : Passage) : q.lines ≠ [] := by
  cases q <;> simp [lines]

/-- Lines end between two passages, or behind the first lines of a definition. -/
theorem exists_cut {ps : List Passage} {ls : List Text} {m : Text} {ms : List Text}
    (h : ps.flatMap lines = ls ++ m :: ms) :
    (∃ qs rs, ps = qs ++ rs ∧ qs.flatMap lines = ls) ∨
      ∃ qs line above below rs, ps = qs ++ definition line (above ++ m :: below) :: rs ∧
        ls = qs.flatMap lines ++ line :: above := by
  induction ps generalizing ls with
  | nil => simp at h
  | cons q ps ih =>
    cases ls with
    | nil => exact Or.inl ⟨[], q :: ps, rfl, rfl⟩
    | cons l ls =>
      rw [List.flatMap_cons] at h
      -- Where the lines go on behind the passage, they are cut in the passages that follow it.
      have later (ls' : List Text) (whole : l :: ls = q.lines ++ ls')
          (rest : ps.flatMap lines = ls' ++ m :: ms) :
          (∃ qs rs, q :: ps = qs ++ rs ∧ qs.flatMap lines = l :: ls) ∨
            ∃ qs line above below rs, q :: ps = qs ++ definition line (above ++ m :: below) :: rs ∧
              l :: ls = qs.flatMap lines ++ line :: above := by
        rcases ih rest with ⟨qs, rs, rfl, rfl⟩ | ⟨qs, line, above, below, rs, rfl, rfl⟩
        · exact Or.inl ⟨q :: qs, rs, rfl, by rw [List.flatMap_cons, whole]⟩
        · exact Or.inr ⟨q :: qs, line, above, below, rs, rfl,
            by rw [List.flatMap_cons, whole, List.append_assoc]⟩
      rcases List.append_eq_append_iff.mp h with ⟨ls', whole, rest⟩ | ⟨left, part, rest⟩
      · exact later ls' whole rest
      · cases left with
        | nil => exact later [] (by simpa using part.symm) (by simpa using rest.symm)
        | cons n left =>
          obtain ⟨rfl, rfl⟩ : m = n ∧ ms = left ++ ps.flatMap lines := by simpa using rest
          cases q with
          | definition line more =>
            obtain ⟨rfl, rfl⟩ : line = l ∧ more = ls ++ m :: left := by simpa [lines] using part
            exact Or.inr ⟨[], line, ls, left, ps, rfl, rfl⟩
          | _ => simp [lines] at part

end Passage

namespace Processor

/-- A blank line that ended the lines before is judged. -/
@[simp] theorem pending_resume (p : Processor) (first : Option Text) :
    (p.resume first).pending = false := by
  unfold resume
  cases hp : p.pending with
  | false => simpa using hp
  | true =>
    cases first with
    | none => rfl
    | some l => cases hc : closesBlock l <;> simp [hc, close]

theorem resume_of_idle {p : Processor} (idle : p.pending = false) (first : Option Text) :
    p.resume first = p := by
  rw [resume, idle]
  rfl

/-- It does not matter whether the line after a blank one is known now or later. -/
theorem bodyLine_resume {p : Processor} (idle : p.pending = false) (line m : Text) :
    (p.bodyLine line (some m)).after = (p.bodyLine line none).after.resume (some m) := by
  rw [bodyLine_eq rfl, bodyLine_eq rfl]
  have later : closesAfter p.hasContent line none = false := by simp [closesAfter]
  have judged : (p.numbered line).pending = false := idle
  simp only [later, Bool.false_eq_true, ↓reduceIte]
  cases hb : Text.isBlank line with
  | false => simp [closesAfter, hb, resume, judged]
  | true =>
    cases hc : p.hasContent with
    | false => simp [closesAfter, hb, resume, judged]
    | true =>
      -- Having judged the line leaves the processor as if it had not waited.
      have waited : { p.numbered line with pending := false } = p.numbered line := by
        rw [← judged]
      cases hm : closesBlock m <;> simp [closesAfter, hb, hm, resume, waited]

theorem step_resume {p : Processor} (idle : p.pending = false) (line m : Text) :
    p.step line (some m) =
      { p.step line none with after := (p.step line none).after.resume (some m) } := by
  have written (next : Option Text) : p.bodyLine line next =
      ⟨some (p.state.renumber line).1, none, (p.bodyLine line next).after⟩ := by
    rw [bodyLine_eq rfl]
  have body : p.bodyLine line (some m) =
      { p.bodyLine line none with after := (p.bodyLine line none).after.resume (some m) } := by
    rw [written, bodyLine_resume idle, written none]
  unfold step
  dsimp only
  split
  · rw [resume_of_idle]
    dsimp only
    split <;> exact idle
  · split
    · rw [resume_of_idle idle]
    · split
      · split
        · rw [resume_of_idle idle]
        · exact body
      · exact body

/--
The processor gets over the lines `ls` and is then `q` before the line `m`, whether the lines are
cut there or not.
-/
structure Passes (p : Processor) (ls : List Text) (m : Text) (q : Processor) : Prop where
  cut : (p.run none ls).2.resume (some m) = q
  whole : ∀ ms, p.run none (ls ++ m :: ms) =
    ((p.run none ls).1 ++ (q.run none (m :: ms)).1, (q.run none (m :: ms)).2)

variable {p q r : Processor} {ls : List Text} {l m n : Text}

theorem Passes.idle (h : p.Passes ls m q) : q.pending = false := by
  rw [← h.cut]
  exact pending_resume _ _

theorem passes_nil (idle : p.pending = false) (m : Text) : p.Passes [] m p :=
  ⟨resume_of_idle idle _, fun _ => rfl⟩

theorem Passes.append (h : p.Passes ls m q) {ms : List Text} (h' : q.Passes (m :: ms) n r) :
    p.Passes (ls ++ m :: ms) n r where
  cut := by rw [h.whole]; exact h'.cut
  whole ns := by
    rw [List.append_assoc, List.cons_append, h.whole, h.whole, ← List.cons_append, h'.whole,
      List.append_assoc]

theorem passes_line (idle : p.pending = false) (free : (p.step l none).capture = none) (m : Text) :
    p.Passes [l] m (p.step l (some m)).after where
  cut := by
    rw [run_cons, step_resume idle]
    simp only [List.head?_nil, free]
    rfl
  whole ms := by
    rw [List.singleton_append, run_cons, run_cons, List.head?_cons, List.head?_nil,
      step_resume idle]
    simp only [free, run, commit, List.append_nil]

theorem At.run_definition {content : Bool} {base : Nat} {names : List Text}
    (h : p.At (some content) base names) (plain : hasSentinel (Text.strip l) = false)
    {name text : Text} (defines : definition? (Text.strip l) = some (name, text))
    (used : name ∈ names) {more : List Text} (continued : ∀ k ∈ more, continuesDefinition k = true)
    (ls : List Text) (ends : ∀ k, ls.head? = some k → continuesDefinition k = false) :
    p.run none (l :: (more ++ ls)) =
      (p.commit (some ⟨name, Text.strip text :: more.map Text.strip⟩)).run none ls := by
  rw [run_cons, step_of_definition _ plain h.inBlock defines
    ((h.opened.isKnown_iff name).mpr used), run_continued p _ continued ends]
  rfl

/-- A definition that the lines end with. -/
theorem At.run_lastDefinition {content : Bool} {base : Nat} {names : List Text}
    (h : p.At (some content) base names) (plain : hasSentinel (Text.strip l) = false)
    {name text : Text} (defines : definition? (Text.strip l) = some (name, text))
    (used : name ∈ names) {more : List Text} (continued : ∀ k ∈ more, continuesDefinition k = true) :
    p.run none (l :: more) =
      ([], p.commit (some ⟨name, Text.strip text :: more.map Text.strip⟩)) := by
  have run := h.run_definition plain defines used continued [] (by simp)
  rwa [List.append_nil] at run

theorem passes_definition {content : Bool} {base : Nat} {names : List Text}
    (h : p.At (some content) base names) (idle : p.pending = false)
    (plain : hasSentinel (Text.strip l) = false) {name text : Text}
    (defines : definition? (Text.strip l) = some (name, text)) (used : name ∈ names)
    {more : List Text} (continued : ∀ k ∈ more, continuesDefinition k = true)
    (ends : continuesDefinition m = false) :
    p.Passes (l :: more) m
      (p.commit (some ⟨name, Text.strip text :: more.map Text.strip⟩)) := by
  have behind := h.run_lastDefinition plain defines used continued
  constructor
  · rw [behind]
    have kept : (p.commit (some ⟨name, Text.strip text :: more.map Text.strip⟩)).pending =
      false := idle
    exact resume_of_idle kept _
  · intro ms
    rw [List.cons_append, behind,
      h.run_definition plain defines used continued (m :: ms) (by simpa using ends)]
    rfl

theorem At.passes_body {content : Bool} {base : Nat} {names : List Text}
    (h : p.At (some content) base names) (idle : p.pending = false)
    (plain : hasSentinel (Text.strip l) = false)
    (undefined : ∀ name text, definition? (Text.strip l) = some (name, text) → name ∉ names)
    (m : Text) : p.Passes [l] m (p.bodyLine l (some m)).after ∧
      (p.bodyLine l (some m)).after.state =
        if closesAfter content l (some m) then (p.state.renumber l).2.closeBlock
        else (p.state.renumber l).2 := by
  have step (next : Option Text) : p.step l next = p.bodyLine l next :=
    step_of_body next plain h.inBlock fun name text hd => by
      rw [Bool.eq_false_iff, ne_eq, h.opened.isKnown_iff]
      exact undefined name text hd
  obtain ⟨written, -⟩ := h.bodyLine none plain undefined
  have passes := passes_line idle (by rw [step, written]) m
  rw [step] at passes
  exact ⟨passes, state_bodyLine (h.hasContent content rfl) l (some m)⟩

end Processor

/-- The processor is at the beginning of the passages `ps`. -/
structure Processor.Stands (p : Processor) (ps : List Passage) (t : State) : Prop where
  idle : p.pending = false
  reads : ∃ block base names, p.At block base names ∧ Reads p.state block names ps t

section passages

variable {p : Processor} {t : State} {qs rs : List Passage} {m : Text}

/-- The processor gets over a passage by itself. -/
theorem Processor.Stands.passage {q : Passage} (h : p.Stands (q :: rs) t)
    (next : (rs.flatMap Passage.lines).head? = some m) :
    ∃ r, p.Passes q.lines m r ∧ r.Stands rs t := by
  obtain ⟨block, base, names, there, reads⟩ := h.reads
  suffices ∃ r, p.Passes q.lines m r ∧ ∃ block base names, r.At block base names ∧
      Reads r.state block names rs t by
    obtain ⟨r, passes, reads⟩ := this
    exact ⟨r, passes, passes.idle, reads⟩
  cases reads with
  | sentinel found rest =>
    obtain ⟨ended, opened⟩ := there.sentinel found (some m)
    have free : ∀ line, hasSentinel (Text.strip line) = true →
        (p.step line none).capture = none := fun line found => by rw [step_of_sentinel _ found]
    exact ⟨_, passes_line h.idle (free _ found) m, _, _, _, opened, ended ▸ rest⟩
  | outside plain rest =>
    have closed : p.inBlock = false := there.inBlock
    have same (next : Option Text) := step_outside next plain closed
    refine ⟨_, passes_line h.idle (by rw [same]) m, ?_⟩
    rw [same]
    exact ⟨_, _, _, there, rest⟩
  | body plain undefined stays rest =>
    obtain ⟨passes, state⟩ := there.passes_body h.idle plain undefined m
    obtain ⟨-, -, opened⟩ := there.bodyLine (some m) plain undefined
    rw [next] at stays
    rw [if_neg (by simp [stays])] at state
    exact ⟨_, passes, _, _, _, opened stays, state ▸ rest⟩
  | last plain undefined closes rest =>
    obtain ⟨passes, state⟩ := there.passes_body h.idle plain undefined m
    obtain ⟨-, closed, -⟩ := there.bodyLine (some m) plain undefined
    rw [next] at closes
    rw [if_pos closes] at state
    exact ⟨_, passes, _, _, _, closed closes, state ▸ rest⟩
  | definition plain defines used continued ends rest =>
    exact ⟨_, passes_definition there h.idle plain defines used continued (ends m next),
      _, _, _, (there.commit used).1, rest⟩

/-- So it does over several. -/
theorem Processor.Stands.passages (h : p.Stands (qs ++ rs) t)
    (next : (rs.flatMap Passage.lines).head? = some m) :
    ∃ r, p.Passes (qs.flatMap Passage.lines) m r ∧ r.Stands rs t := by
  induction qs generalizing p with
  | nil => exact ⟨p, passes_nil h.idle m, h⟩
  | cons q qs ih =>
    rw [List.flatMap_cons]
    cases hqs : qs.flatMap Passage.lines with
    | nil =>
      obtain rfl : qs = [] := by
        cases qs with
        | nil => rfl
        | cons q' qs => simp [q'.lines_ne_nil] at hqs
      rw [List.append_nil]
      exact h.passage next
    | cons k ls =>
      have next' : ((qs ++ rs).flatMap Passage.lines).head? = some k := by simp [hqs]
      obtain ⟨r, first, stands⟩ := h.passage next'
      obtain ⟨r', later, stands'⟩ := ih stands
      rw [hqs] at later
      exact ⟨r', first.append later, stands'⟩

end passages

namespace Processor

/-- Feeds texts one after the other. All lines that are written for them stand together. -/
def feedChunks (p : Processor) : List Text → List Text × Processor
  | [] => ([], p)
  | chunk :: chunks =>
    let (written, p) := p.feedLines (Text.lines chunk)
    let (below, p) := p.feedChunks chunks
    (written ++ below, p)

theorem feedChunks_cons {c : List Text} (ne : c ≠ []) (free : ∀ l ∈ c, '\n' ∉ l) (p : Processor)
    (chunks : List Text) : p.feedChunks (Text.unlines c :: chunks) =
      ((p.feedLines c).1 ++ ((p.feedLines c).2.feedChunks chunks).1,
        ((p.feedLines c).2.feedChunks chunks).2) := by
  rw [feedChunks, Text.lines_unlines ne free]

/-- Lines up to `m` can be fed by themselves. -/
theorem Passes.feed {p r : Processor} {ls : List Text} {m : Text}
    (h : (p.resume ls.head?).Passes ls m r) (ms : List Text) (ne : ls ≠ []) :
    p.feedLines (ls ++ m :: ms) =
      ((p.feedLines ls).1 ++ ((p.feedLines ls).2.feedLines (m :: ms)).1,
        ((p.feedLines ls).2.feedLines (m :: ms)).2) := by
  have first : (ls ++ m :: ms).head? = ls.head? := by
    obtain ⟨l, ls, rfl⟩ := List.exists_cons_of_ne_nil ne
    rfl
  have behind : ((p.resume ls.head?).run none ls).2.resume (m :: ms).head? = r := h.cut
  simp only [feedLines, first, behind, h.whole]

end Processor

/-! A definition that is cut in two. -/

theorem exists_of_definition? {line name text : Text} (h : definition? line = some (name, text)) :
    ∃ c r, line = name ++ '.' :: c :: r ∧ Text.isBlankChar c = true ∧ text = Text.stripStart r := by
  have parts := List.takeWhile_append_dropWhile (p := Text.isDecimal) (l := line)
  rw [definition?] at h
  split at h
  · rename_i c r point
    split at h
    · rename_i filled
      obtain ⟨rfl, rfl⟩ : _ = name ∧ _ = text := by simpa using h
      exact ⟨c, r, by rw [← point, parts], (Bool.and_eq_true_iff.mp filled).2, rfl⟩
    · cases h
  · cases h

/-- A definition says something, in less than its line. -/
theorem filled_of_definition? {line name text : Text}
    (h : definition? (Text.strip line) = some (name, text)) :
    Text.isBlank text = false ∧ (Text.strip text).length < (Text.strip line).length := by
  obtain ⟨c, r, whole, blank, rfl⟩ := exists_of_definition? h
  constructor
  · rw [Bool.eq_false_iff]
    intro none
    -- What follows the point would be white space, and a stripped line does not end with it.
    have all : ∀ d ∈ c :: r, Text.isBlankChar d = true := by
      have rest : Text.isBlank r = true := by
        rw [← List.takeWhile_append_dropWhile (p := Text.isBlankChar) (l := r), Text.isBlank_append,
          Bool.and_eq_true]
        exact ⟨List.all_takeWhile, none⟩
      simpa [blank] using List.all_eq_true.mp rest
    have last : (Text.strip line).getLast? = (c :: r).getLast? := by
      rw [whole, List.getLast?_append, List.getLast?_cons_cons,
        List.getLast?_eq_some_getLast (List.cons_ne_nil c r), Option.some_or]
    have shown := Text.not_getLast?_dropAround
      (last.trans (List.getLast?_eq_some_getLast (List.cons_ne_nil c r)))
    rw [all _ (List.getLast_mem _)] at shown
    cases shown
  · have inner := (Text.infix_strip (Text.stripStart r)).length_le
    have start := (List.dropWhile_sublist (p := Text.isBlankChar) (l := r)).length_le
    rw [whole]
    simp only [List.length_append, List.length_cons]
    simp only [Text.stripStart] at inner ⊢
    omega

/-- The text that is kept for a definition. -/
def Capture.text (c : Capture) : Text :=
  Text.strip (Text.unlines c.parts)

/-- With one more line, more is kept than without the line, and than in the line alone. -/
theorem Capture.length_text_append {c : Capture} (ne : c.parts ≠ [])
    (trimmed : ∀ l ∈ c.parts, Text.Trimmed l) {l : Text} (last : Text.Trimmed l) :
    c.text.length < (Capture.text ⟨c.name, c.parts ++ [l]⟩).length ∧
      l.length < (Capture.text ⟨c.name, c.parts ++ [l]⟩).length := by
  have all : Text.Trimmed (Text.unlines c.parts) := Text.trimmed_joinWith ne trimmed
  have joined : Text.unlines (c.parts ++ [l]) = Text.unlines c.parts ++ ['\n'] ++ l := by
    rw [Text.unlines_append ne (by simp), List.append_assoc]
    rfl
  rw [Capture.text, Capture.text, all.stripped, joined, (all.append ['\n'] last).stripped]
  simp only [List.length_append, List.length_singleton]
  omega

namespace Processor

/-- The key under which a definition is kept. -/
def keyOf (p : Processor) (name : Text) : Text :=
  Text.decimalInt (p.state.resolve name).1

/-- The text that is kept under a key. -/
def textAt (p : Processor) (id : Text) : Option Text :=
  (p.state.definitions.get? id).map Definition.content

theorem definitions_commit (p : Processor) (c : Capture) :
    (p.commit (some c)).state.definitions = p.state.definitions.put (p.keyOf c.name)
      ⟨p.keyOf c.name, c.text, (p.state.resolve c.name).1⟩ := by
  rw [commit, State.define]
  dsimp only
  rw [State.definitions_resolve]
  rfl

theorem textAt_commit (p : Processor) (c : Capture) :
    (p.commit (some c)).textAt (p.keyOf c.name) = some c.text := by
  rw [textAt, definitions_commit, Dictionary.get?_put_self]
  rfl

theorem textAt_commit_of_ne (p : Processor) (c : Capture) {id : Text} (ne : id ≠ p.keyOf c.name) :
    (p.commit (some c)).textAt id = p.textAt id := by
  rw [textAt, definitions_commit, Dictionary.get?_put_of_ne ne, textAt]

/-- One more line changes no definition, unless it is a definition itself. -/
theorem At.textAt_line {p : Processor} {block : Option Bool} {base : Nat} {names : List Text}
    (h : p.At block base names) (id line : Text) :
    (p.run none [line]).2.textAt id = p.textAt id ∨
      ∃ name text, definition? (Text.strip line) = some (name, text) ∧
        (p.run none [line]).2.textAt id = some (Capture.text ⟨name, [Text.strip text]⟩) := by
  have same {q : Processor} (h : q.state.definitions = p.state.definitions) :
      q.textAt id = p.textAt id := by rw [textAt, h, textAt]
  have takes := step_takes h line none
  rw [run_cons, List.head?_nil]
  generalize p.step line none = s at takes ⊢
  cases takes with
  | opens _ _ unchanged _ => exact Or.inl (same unchanged)
  | passes _ _ => exact Or.inl rfl
  | numbers _ _ _ _ _ unchanged _ => exact Or.inl (same unchanged)
  | defines _ _ defines _ =>
    rename_i name text _ _ _
    let c : Capture := ⟨name, [Text.strip text]⟩
    by_cases key : id = p.keyOf name
    · subst key
      exact Or.inr ⟨name, text, defines, p.textAt_commit c⟩
    · exact Or.inl (p.textAt_commit_of_ne c key)

theorem trimmed_of_continuesDefinition {line : Text} (h : continuesDefinition line = true) :
    Text.Trimmed (Text.strip line) := by
  refine Text.trimmed_strip ?_
  rw [continuesDefinition, Bool.and_eq_true, Bool.not_eq_true'] at h
  exact h.1

/-- What is cut off from a definition is missing in it. -/
theorem Stands.cut_definition {p : Processor} {line m : Text} {above below : List Text}
    {rs : List Passage} {t : State}
    (h : p.Stands (.definition line (above ++ m :: below) :: rs) t) :
    ∃ id, (((p.run none (line :: above)).2.resume (some m)).run none [m]).2.textAt id ≠
      (p.run none (line :: above ++ [m])).2.textAt id := by
  obtain ⟨block, base, names, there, reads⟩ := h.reads
  cases reads with
  | definition plain defines used continued ends rest =>
    rename_i content name text
    have before : ∀ k ∈ above, continuesDefinition k = true := fun k hk => continued k (by simp [hk])
    have last : continuesDefinition m = true := continued m (by simp)
    have next : ∀ k ∈ above ++ [m], continuesDefinition k = true := by
      simpa [or_imp, forall_and] using ⟨before, last⟩
    let c : Capture := ⟨name, Text.strip text :: above.map Text.strip⟩
    have cut : p.run none (line :: above) = ([], p.commit (some c)) :=
      there.run_lastDefinition plain defines used before
    have whole : p.run none (line :: above ++ [m]) =
        ([], p.commit (some ⟨name, c.parts ++ [Text.strip m]⟩)) := by
      have run := there.run_lastDefinition plain defines used next
      rwa [List.map_append] at run
    have trimmed : ∀ k ∈ c.parts, Text.Trimmed k := by
      intro k hk
      rcases List.mem_cons.mp hk with rfl | hk
      · exact Text.trimmed_strip (filled_of_definition? defines).1
      · obtain ⟨l, hl, rfl⟩ := List.mem_map.mp hk
        exact trimmed_of_continuesDefinition (before l hl)
    obtain ⟨longer, longer'⟩ := c.length_text_append (List.cons_ne_nil _ _) trimmed
      (trimmed_of_continuesDefinition last)
    have idle : (p.commit (some c)).pending = false := h.idle
    refine ⟨p.keyOf name, ?_⟩
    rw [whole, p.textAt_commit ⟨name, c.parts ++ [Text.strip m]⟩, cut, resume_of_idle idle]
    -- Without the line, what is kept is the shorter text, or that of the line alone.
    intro same
    rcases (there.commit (c := c) used).1.textAt_line (p.keyOf name) m with
      kept | ⟨name', text', defines', kept⟩
    · rw [kept, p.textAt_commit c] at same
      rw [Option.some.inj same] at longer
      exact Nat.lt_irrefl _ longer
    · rw [kept] at same
      have inner := (Text.infix_strip (Text.strip text')).length_le
      have less := (filled_of_definition? defines').2
      rw [← Option.some.inj same] at longer'
      exact absurd (Nat.lt_trans less longer') (Nat.not_lt.mpr inner)

theorem Stands.cut_chunk {p : Processor} {line m : Text} {above below : List Text}
    {qs rs : List Passage} {t : State}
    (h : p.Stands (qs ++ .definition line (above ++ m :: below) :: rs) t) :
    ∃ id, (((p.run none (qs.flatMap Passage.lines ++ line :: above)).2.resume (some m)).run none
        [m]).2.textAt id ≠
      (p.run none (qs.flatMap Passage.lines ++ line :: above ++ [m])).2.textAt id := by
  obtain ⟨r, passes, there⟩ := h.passages (m := line) (by simp [Passage.lines])
  obtain ⟨id, differ⟩ := there.cut_definition
  refine ⟨id, ?_⟩
  rw [List.append_assoc, List.cons_append, passes.whole, passes.whole]
  exact differ

end Processor

/-- A part of the chunks that is cut off begins as they do. -/
theorem exists_of_cut {m line : Text} {ms more : List Text} {chunks front below : List (List Text)}
    (cut : (m :: ms) :: chunks = front ++ (line :: more) :: below) :
    ∃ ns, front.flatten ++ [line] = m :: ns := by
  cases front with
  | nil =>
    obtain ⟨rfl, -⟩ := List.cons.inj (List.cons.inj cut).1
    exact ⟨[], rfl⟩
  | cons d front =>
    obtain ⟨rfl, -⟩ := List.cons.inj cut
    exact ⟨ms ++ (front.flatten ++ [line]), by simp⟩

section chunks

variable {p : Processor} {t : State} {ps : List Passage} {chunks : List (List Text)}
  (filled : ∀ c ∈ chunks, c ≠ []) (free : ∀ c ∈ chunks, ∀ l ∈ c, '\n' ∉ l)
  (stands : (p.resume chunks.flatten.head?).Stands ps t)

include filled free stands

/-- It does not show where a text is cut between two passages. -/
theorem Processor.Stands.feedChunks (h : CutBetween ps chunks) (ne : chunks ≠ []) :
    p.feedChunks (chunks.map Text.unlines) = p.feedLines chunks.flatten := by
  induction h generalizing p with
  | done => exact absurd rfl ne
  | chunk rest ih =>
    rename_i qs rs chunks
    rw [List.map_cons, List.flatten_cons, feedChunks_cons (filled _ (by simp)) (free _ (by simp))]
    cases chunks with
    | nil => simp [Processor.feedChunks]
    | cons c chunks =>
      obtain ⟨m, ms, rfl⟩ := List.exists_cons_of_ne_nil (filled c (by simp))
      have first := filled (qs.flatMap Passage.lines) (by simp)
      rw [List.flatten_cons, List.head?_append_of_ne_nil _ first] at stands
      obtain ⟨r, passes, behind⟩ := stands.passages (m := m) (by rw [rest.lines]; rfl)
      have later := ih (p := (p.feedLines (qs.flatMap Passage.lines)).2)
        (fun c hc => filled c (by simp [hc])) (fun c hc => free c (by simp [hc]))
        (passes.cut.symm ▸ behind) (by simp)
      rw [later]
      exact (passes.feed (ms ++ chunks.flatten) first).symm

/-- Where a definition is cut in two, it is not kept as it would be without the cut. -/
theorem Processor.Stands.cutBetween_or (h : ps.flatMap Passage.lines = chunks.flatten) :
    CutBetween ps chunks ∨ ∃ front line more below id, chunks = front ++ (line :: more) :: below ∧
      (p.feedChunks ((front ++ [[line]]).map Text.unlines)).2.textAt id ≠
        (p.feedLines (front.flatten ++ [line])).2.textAt id := by
  induction chunks generalizing p ps with
  | nil =>
    obtain rfl : ps = [] := by
      cases ps with
      | nil => rfl
      | cons q ps => simp [q.lines_ne_nil] at h
    exact Or.inl .done
  | cons c chunks ih =>
    have first := filled c (by simp)
    have free' := free c (by simp)
    cases chunks with
    | nil =>
      have all : CutBetween (ps ++ []) [ps.flatMap Passage.lines] := .chunk .done
      rw [List.append_nil, h, List.flatten_cons, List.flatten_nil, List.append_nil] at all
      exact Or.inl all
    | cons c' chunks =>
      obtain ⟨m, ms, rfl⟩ := List.exists_cons_of_ne_nil (filled c' (by simp))
      rw [List.flatten_cons, List.head?_append_of_ne_nil _ first] at stands
      rw [List.flatten_cons, List.flatten_cons, List.cons_append] at h
      rcases Passage.exists_cut h with ⟨qs, rs, rfl, rfl⟩ | ⟨qs, line, above, below, rs, rfl, rfl⟩
      · rw [List.flatMap_append, List.append_cancel_left_eq] at h
        obtain ⟨r, passes, behind⟩ := stands.passages (m := m) (by rw [h]; rfl)
        rcases ih (p := (p.feedLines (qs.flatMap Passage.lines)).2)
          (fun c hc => filled c (by simp [hc])) (fun c hc => free c (by simp [hc]))
          (passes.cut.symm ▸ behind) h with between | ⟨front, line, more, below, id, cut, differ⟩
        · exact Or.inl (.chunk between)
        · refine Or.inr ⟨_ :: front, line, more, below, id, by rw [cut, List.cons_append], ?_⟩
          obtain ⟨ns, next⟩ := exists_of_cut cut
          rw [List.cons_append, List.map_cons, feedChunks_cons first free', List.flatten_cons,
            List.append_assoc, next, passes.feed ns first, ← next]
          exact differ
      · obtain ⟨id, differ⟩ := stands.cut_chunk
        refine Or.inr ⟨[_], m, ms, chunks, id, rfl, ?_⟩
        have single : ∀ l ∈ [m], '\n' ∉ l := by simpa using free (m :: ms) (by simp) m (by simp)
        rw [List.singleton_append, List.map_cons, feedChunks_cons first free', List.map_singleton,
          feedChunks_cons (List.cons_ne_nil _ _) single, List.flatten_singleton]
        simpa only [Processor.feedLines, Processor.feedChunks, List.head?_cons,
          List.head?_append_of_ne_nil _ first] using differ

end chunks

/--
However a text is cut into chunks of lines, they are written as the whole text is, and leave the
same numbers and definitions and the same open block, if no definition that is taken out is cut in
two. Where one is, it is kept without the lines behind the cut.
-/
theorem Processor.feedChunks_passages {t : Text} {chunks : List (List Text)}
    (cut : chunks.flatten = Text.lines t) (filled : ∀ c ∈ chunks, c ≠ []) :
    ∃ ps final, Reads {} none [] ps final ∧ Text.lines t = ps.flatMap Passage.lines ∧
      (CutBetween ps chunks → ({} : Processor).feedChunks (chunks.map Text.unlines) =
        ({} : Processor).feedChunks [t]) ∧
      (¬ CutBetween ps chunks → ∃ front line more below id,
        chunks = front ++ (line :: more) :: below ∧
        (({} : Processor).feedChunks ((front ++ [[line]]).map Text.unlines)).2.textAt id ≠
          (({} : Processor).feedChunks [Text.unlines (front.flatten ++ [line])]).2.textAt id) := by
  obtain ⟨ps, falls⟩ := exists_falls at_initial (Text.lines t)
  have stands : (({} : Processor).resume chunks.flatten.head?).Stands ps
      (({} : Processor).run none (Text.lines t)).2.state :=
    ⟨rfl, none, 0, [], at_initial, falls.reads⟩
  have free : ∀ c ∈ chunks, ∀ l ∈ c, '\n' ∉ l := fun c hc l hl =>
    Text.newline_not_mem_of_mem_lines (cut ▸ List.mem_flatten_of_mem hc hl)
  have ne : chunks ≠ [] := by
    rintro rfl
    exact Text.lines_ne_nil t cut.symm
  have whole (t : Text) :
      ({} : Processor).feedChunks [t] = ({} : Processor).feedLines (Text.lines t) := by
    simp [feedChunks]
  refine ⟨ps, _, falls.reads, falls.lines.symm, fun between => ?_, fun within => ?_⟩
  · rw [Stands.feedChunks filled free stands between ne, cut, whole]
  · obtain ⟨front, line, more, below, id, parts, differ⟩ :=
      (Stands.cutBetween_or filled free stands (falls.lines.trans cut.symm)).resolve_left within
    refine ⟨front, line, more, below, id, parts, ?_⟩
    have lines : ∀ l ∈ front.flatten ++ [line], '\n' ∉ l := by
      intro l hl
      rcases List.mem_append.mp hl with hl | hl
      · obtain ⟨c, hc, hl⟩ := List.mem_flatten.mp hl
        exact free c (by simp [parts, hc]) l hl
      · exact free (line :: more) (by simp [parts]) l (by simp [List.mem_singleton.mp hl])
    rw [whole, Text.lines_unlines (by simp) lines]
    exact differ

/-- The lines of a text, cut before a definition and behind a blank line. -/
def definingChunks : List (List Text) :=
  [["\x7b .annotate \x7d".toList, "A (4) and (7)".toList],
    ["4. four".toList, "    more".toList, []], ["B (4)".toList]]

theorem definingChunks_fed :
    (definingChunks.flatten = Text.lines Processor.definingText ∧ ∀ c ∈ definingChunks, c ≠ []) ∧
      ∃ ps final, Reads {} none [] ps final ∧
        Text.lines Processor.definingText = ps.flatMap Passage.lines ∧
        CutBetween ps definingChunks ∧
        ({} : Processor).feedChunks (definingChunks.map Text.unlines) =
          ({} : Processor).feedChunks [Processor.definingText] := by
  have cut : definingChunks.flatten = Text.lines Processor.definingText := by decide
  have filled : ∀ c ∈ definingChunks, c ≠ [] := by decide
  obtain ⟨ps, final, reads, lines, fed, kept⟩ := Processor.feedChunks_passages cut filled
  have between : CutBetween ps definingChunks := by
    by_contra within
    obtain ⟨front, line, more, below, id, parts, differ⟩ := kept within
    -- At neither cut anything is missing before it.
    apply differ
    apply congrArg fun r : List Text × Processor => r.2.textAt id
    rcases front with _ | ⟨first, _ | ⟨second, _ | ⟨third, front⟩⟩⟩
    · rfl
    · obtain ⟨rfl, rest⟩ := List.cons.inj parts
      obtain ⟨rfl, -⟩ := List.cons.inj (List.cons.inj rest).1
      decide
    · obtain ⟨rfl, rest⟩ := List.cons.inj parts
      obtain ⟨rfl, last⟩ := List.cons.inj rest
      obtain ⟨rfl, -⟩ := List.cons.inj (List.cons.inj last).1
      decide
    · simp [definingChunks] at parts
  exact ⟨⟨cut, filled⟩, ps, final, reads, lines, between, fed between⟩

/-- A definition that is cut before the line that continues it. -/
def cutChunks : List (List Text) :=
  [["\x7b .annotate \x7d".toList, "A (1)".toList, "1. one".toList], ["    more".toList]]

theorem cutChunks_differ :
    (∀ c ∈ cutChunks, c ≠ []) ∧ cutChunks.flatten = Text.lines (Text.unlines cutChunks.flatten) ∧
      ({} : Processor).feedChunks (cutChunks.map Text.unlines) ≠
        ({} : Processor).feedChunks [Text.unlines cutChunks.flatten] := by
  decide

end Docmark.Annotation
