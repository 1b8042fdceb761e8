import Docmark.Proofs.Markdown.EscapedText

/-!
Brackets around texts in Markdown. The bracket written behind a text closes the one in front of it
just where every bracket of that kind in the text is escaped or one of a pair, and where the text
does not end in a backslash that escapes what follows.
-/

namespace Docmark.Markdown

open Preview (isPunctuation)

/-- Brackets of a kind. -/
structure Brackets where
  opening : Char
  closing : Char
  distinct : opening ≠ closing := by decide
  closing_mark : isPunctuation closing = true := by decide
  closing_ne : closing ≠ '\\' := by decide

def Brackets.round : Brackets := { opening := '(', closing := ')' }

def Brackets.square : Brackets := { opening := '[', closing := ']' }

/-- Each bracket without a backslash is one of a pair, with pairs only in between. -/
inductive Paired (b : Brackets) : List Glyph → Prop
  | nil : Paired b []
  | other {g : Glyph} {gs : List Glyph} (opening : g ≠ .bare b.opening)
    (closing : g ≠ .bare b.closing) (rest : Paired b gs) : Paired b (g :: gs)
  | pair {gs hs : List Glyph} (inner : Paired b gs) (rest : Paired b hs) :
    Paired b (.bare b.opening :: (gs ++ .bare b.closing :: hs))

/-- What stands before the bracket that closes the one in front, and behind it. -/
def cutGlyphs (b : Brackets) : Nat → List Glyph → Option (List Glyph × List Glyph)
  | _, [] => none
  | depth, g :: gs =>
    if g = .bare b.closing then
      match depth with
      | 0 => some ([], gs)
      | depth + 1 => (cutGlyphs b depth gs).map fun (inner, rest) => (g :: inner, rest)
    else
      (cutGlyphs b (if g = .bare b.opening then depth + 1 else depth) gs).map
        fun (inner, rest) => (g :: inner, rest)

/-- True where all brackets are in pairs but for so many that close others in front. -/
def pairsUp (b : Brackets) : Nat → List Glyph → Bool
  | depth, [] => depth == 0
  | depth, g :: gs =>
    if g = .bare b.closing then
      match depth with
      | 0 => false
      | depth + 1 => pairsUp b depth gs
    else pairsUp b (if g = .bare b.opening then depth + 1 else depth) gs

/-- The text in the brackets of which the opening one has been read, and what follows them. -/
def readBracketed (b : Brackets) (t : Text) : Option (Text × Text) :=
  (cutGlyphs b 0 (glyphs t)).map fun (inner, rest) =>
    (inner.flatMap Glyph.written, rest.flatMap Glyph.written)

/-- True for a text with an odd number of backslashes at its end. -/
def EndsEscaping (t : Text) : Prop :=
  (Text.takeEndWhile (· == '\\') t).length % 2 = 1

instance (t : Text) : Decidable (EndsEscaping t) :=
  inferInstanceAs (Decidable (_ = _))

/-- A text that brackets can be written around. -/
structure Contained (b : Brackets) (t : Text) : Prop where
  paired : Paired b (glyphs t)
  ends : ¬ EndsEscaping t

theorem contained_iff {b : Brackets} {t : Text} :
    Contained b t ↔ Paired b (glyphs t) ∧ ¬ EndsEscaping t :=
  ⟨fun h => ⟨h.paired, h.ends⟩, fun h => ⟨h.1, h.2⟩⟩

/-- Glyphs that some text is read as: a lone backslash has no punctuation behind it. -/
inductive Legible : List Glyph → Prop
  | nil : Legible []
  | escaped {c : Char} {gs : List Glyph} (mark : isPunctuation c = true) (rest : Legible gs) :
    Legible (.escaped c :: gs)
  | bare {c : Char} {gs : List Glyph} (rest : Legible gs)
    (lone : c = '\\' → ∀ g, gs.head? = some g → ∃ d, g = .bare d ∧ isPunctuation d = false) :
    Legible (.bare c :: gs)

section legible

variable {gs hs : List Glyph} {t : Text} {c : Char}

theorem glyphs_of_plain (plain : isPunctuation c = false) (r : Text) :
    glyphs (c :: r) = .bare c :: glyphs r := by
  apply glyphs_cons
  rintro rfl
  exact absurd plain (by decide)

theorem legible_glyphs (t : Text) : Legible (glyphs t) := by
  fun_induction glyphs t with
  | case1 c r mark ih => exact .escaped mark ih
  | case2 c r mark ih =>
    have plain : isPunctuation c = false := by simpa using mark
    apply Legible.bare ih
    intro _ g hg
    rw [glyphs_of_plain plain] at hg
    exact ⟨c, (Option.some.inj hg).symm, plain⟩
  | case3 c r lone ih =>
    apply Legible.bare ih
    intro slash g hg
    cases r with
    | nil => simp [glyphs] at hg
    | cons d r => exact absurd rfl (lone d r slash)
  | case4 => exact .nil

theorem glyphs_of_not_mem {t : Text} (free : '\\' ∉ t) : glyphs t = t.map Glyph.bare := by
  induction t with
  | nil => rfl
  | cons c t ih =>
    simp only [List.mem_cons, not_or] at free
    rw [glyphs_cons (Ne.symm free.1), ih free.2, List.map_cons]

/-- Such glyphs are read as they are written. -/
theorem Legible.glyphs_written (h : Legible gs) : glyphs (gs.flatMap Glyph.written) = gs := by
  induction h with
  | nil => rfl
  | @escaped c gs mark rest ih =>
    rw [List.flatMap_cons, Glyph.written, List.cons_append, List.singleton_append,
      glyphs_escaped mark, ih]
  | @bare c gs rest lone ih =>
    rw [List.flatMap_cons, Glyph.written, List.singleton_append]
    by_cases slash : c = '\\'
    · subst slash
      cases gs with
      | nil => rfl
      | cons g gs =>
        obtain ⟨d, rfl, plain⟩ := lone rfl g rfl
        rw [List.flatMap_cons, Glyph.written, List.singleton_append] at ih ⊢
        rw [glyphs, if_neg (by simp [plain]), ih]
    · rw [glyphs_cons slash, ih]

theorem Legible.append (h : Legible gs) (h' : Legible hs)
    (ends : gs.getLast? ≠ some (.bare '\\')) : Legible (gs ++ hs) := by
  induction h with
  | nil => exact h'
  | @escaped c gs mark rest ih =>
    apply Legible.escaped mark
    cases gs with
    | nil => exact h'
    | cons g gs => exact ih (by simpa using ends)
  | @bare c gs rest lone ih =>
    cases gs with
    | nil =>
      apply Legible.bare h'
      rintro rfl
      exact absurd rfl ends
    | cons g gs => exact .bare (ih (by simpa using ends)) lone

theorem Legible.of_append (h : Legible (gs ++ hs)) : Legible gs := by
  induction gs with
  | nil => exact .nil
  | cons g gs ih =>
    cases h with
    | escaped mark rest => exact .escaped mark (ih rest)
    | bare rest lone =>
      apply Legible.bare (ih rest)
      intro slash d hd
      exact lone slash d (by simp [hd])

/-- No lone backslash stands in front of punctuation. -/
theorem Legible.getLast?_ne (h : Legible (gs ++ .bare c :: hs)) (mark : isPunctuation c = true) :
    gs.getLast? ≠ some (.bare '\\') := by
  induction gs with
  | nil => simp
  | cons g gs ih =>
    cases gs with
    | nil =>
      rintro last
      cases last
      cases h with
      | bare _ lone =>
        obtain ⟨d, same, plain⟩ := lone rfl (.bare c) rfl
        rw [Glyph.bare.inj same, plain] at mark
        cases mark
    | cons g' gs =>
      rw [List.getLast?_cons_cons]
      apply ih
      cases h with
      | escaped _ rest => exact rest
      | bare rest _ => exact rest

/-- What is written after a text is read on its own, unless the last backslash escapes it. -/
theorem glyphs_append (ends : (glyphs t).getLast? ≠ some (.bare '\\')) (u : Text) :
    glyphs (t ++ u) = glyphs t ++ glyphs u := by
  have joined : Legible (glyphs t ++ glyphs u) := (legible_glyphs t).append (legible_glyphs u) ends
  rw [← joined.glyphs_written, List.flatMap_append, flatMap_written_glyphs, flatMap_written_glyphs]

theorem endsEscaping_cons (other : c ≠ '\\') (r : Text) :
    EndsEscaping (c :: r) ↔ EndsEscaping r := by
  rw [EndsEscaping, Text.takeEndWhile_cons, if_neg (by simp [other]), EndsEscaping]

/-- Two backslashes more leave their number odd or even. -/
theorem endsEscaping_slashes (r : Text) : EndsEscaping ('\\' :: '\\' :: r) ↔ EndsEscaping r := by
  by_cases whole : r.all (· == '\\') = true
  · have all := Text.takeEndWhile_of_all whole
    simp [EndsEscaping, Text.takeEndWhile_cons, whole, all]
    omega
  · simp [EndsEscaping, Text.takeEndWhile_cons, whole]

theorem endsEscaping_slash_cons (other : c ≠ '\\') (r : Text) :
    EndsEscaping ('\\' :: c :: r) ↔ EndsEscaping r := by
  rw [EndsEscaping, Text.takeEndWhile_cons, if_neg (by simp [other]), ← EndsEscaping,
    endsEscaping_cons other]

theorem getLast?_glyphs_cons {g : Glyph} (other : g ≠ .bare '\\') (gs : List Glyph) :
    (g :: gs).getLast? = some (.bare '\\') ↔ gs.getLast? = some (.bare '\\') := by
  cases gs with
  | nil => simpa using other
  | cons d gs => rw [List.getLast?_cons_cons]

/-- The last glyph is a lone backslash just where the number of those at the end is odd. -/
theorem getLast?_glyphs (t : Text) :
    (glyphs t).getLast? = some (.bare '\\') ↔ EndsEscaping t := by
  fun_induction glyphs t with
  | case1 c r mark ih =>
    rw [getLast?_glyphs_cons (by simp), ih]
    by_cases slash : c = '\\'
    · rw [slash, endsEscaping_slashes]
    · rw [endsEscaping_slash_cons slash]
  | case2 c r mark ih =>
    have plain : isPunctuation c = false := by simpa using mark
    have other : c ≠ '\\' := by
      rintro rfl
      exact absurd plain (by decide)
    rw [glyphs_of_plain plain, List.getLast?_cons_cons, ← glyphs_of_plain plain, ih,
      endsEscaping_cons other, endsEscaping_slash_cons other]
  | case3 c r lone ih =>
    cases r with
    | nil =>
      by_cases slash : c = '\\'
      · subst slash
        decide
      · simp [glyphs, slash, EndsEscaping, Text.takeEndWhile]
    | cons d r =>
      have other : c ≠ '\\' := fun slash => lone d r slash rfl
      rw [getLast?_glyphs_cons (by simpa using other), ih, endsEscaping_cons other]
  | case4 => simp [EndsEscaping, Text.takeEndWhile]

theorem not_endsEscaping_of_not_mem (free : '\\' ∉ t) : ¬ EndsEscaping t := by
  rw [← getLast?_glyphs, glyphs_of_not_mem free]
  intro last
  obtain ⟨c, hc, same⟩ := List.mem_map.mp (List.mem_of_getLast? last)
  exact free (Glyph.bare.inj same ▸ hc)

/-- The last backslash of an odd number escapes the punctuation behind it, also another backslash. -/
theorem glyphs_append_of_endsEscaping (mark : isPunctuation c = true) (ends : EndsEscaping t)
    (u : Text) : glyphs (t ++ c :: u) = (glyphs t).dropLast ++ .escaped c :: glyphs u := by
  have last := (getLast?_glyphs t).mpr ends
  obtain ⟨gs, whole⟩ := List.getLast?_eq_some_iff.mp last
  have slashed : Legible (gs ++ [.bare '\\']) := whole ▸ legible_glyphs t
  have free : gs.getLast? ≠ some (.bare '\\') := slashed.getLast?_ne (by decide)
  have joined : Legible (gs ++ .escaped c :: glyphs u) :=
    slashed.of_append.append (.escaped mark (legible_glyphs u)) free
  rw [whole, List.dropLast_concat, ← joined.glyphs_written]
  conv_lhs => rw [← flatMap_written_glyphs t, whole]
  simp [flatMap_written_glyphs, Glyph.written]

/-- Punctuation is escaped by an odd number of backslashes in front of it, and by no other. -/
theorem glyphs_append_mark (mark : isPunctuation c = true) (other : c ≠ '\\') (u : Text) :
    glyphs (t ++ c :: u) = if EndsEscaping t then (glyphs t).dropLast ++ .escaped c :: glyphs u
      else glyphs t ++ .bare c :: glyphs u := by
  split
  · rename_i ends
    exact glyphs_append_of_endsEscaping mark ends u
  · rename_i ends
    rw [← glyphs_cons other]
    exact glyphs_append (mt (getLast?_glyphs t).mp ends) (c :: u)

end legible

section brackets

variable {b : Brackets} {gs hs : List Glyph} {depth : Nat}

theorem Paired.count_eq (h : Paired b gs) :
    gs.count (.bare b.opening) = gs.count (.bare b.closing) := by
  have distinct := b.distinct
  induction h with
  | nil => rfl
  | other opening closing _ ih => simp [ih, opening, closing]
  | pair _ _ inner rest =>
    simp [inner, rest, distinct, Ne.symm distinct]
    omega

/-- Where none closes, no bracket is one of a pair. -/
theorem paired_iff_not_mem (none : .bare b.closing ∉ gs) :
    Paired b gs ↔ .bare b.opening ∉ gs := by
  constructor
  · intro paired
    have count := paired.count_eq
    rw [List.count_eq_zero.mpr none] at count
    exact List.count_eq_zero.mp count
  · intro unopened
    induction gs with
    | nil => exact .nil
    | cons g gs ih =>
      simp only [List.mem_cons, not_or] at none unopened
      exact .other (Ne.symm unopened.1) (Ne.symm none.1) (ih none.2 unopened.2)

/-- Glyphs up to so many closing brackets, with pairs only in between. -/
inductive Segments (b : Brackets) : Nat → List Glyph → Prop
  | last {gs : List Glyph} (inner : Paired b gs) : Segments b 0 gs
  | next {gs hs : List Glyph} {depth : Nat} (inner : Paired b gs) (rest : Segments b depth hs) :
    Segments b (depth + 1) (gs ++ .bare b.closing :: hs)

theorem Segments.other {g : Glyph} (opening : g ≠ .bare b.opening) (closing : g ≠ .bare b.closing)
    (h : Segments b depth gs) : Segments b depth (g :: gs) := by
  cases h with
  | last inner => exact .last (.other opening closing inner)
  | next inner rest => exact .next (.other opening closing inner) rest

/-- An opening bracket and the first closing one are a pair. -/
theorem Segments.opened (h : Segments b (depth + 1) gs) :
    Segments b depth (.bare b.opening :: gs) := by
  cases h with
  | next inner rest =>
    cases rest with
    | last inner' => exact .last (.pair inner inner')
    | @next gs' hs' _ inner' rest' => simpa using Segments.next (.pair inner inner') rest'

theorem pairsUp_append (h : Paired b gs) (depth : Nat) (hs : List Glyph) :
    pairsUp b depth (gs ++ hs) = pairsUp b depth hs := by
  have distinct := b.distinct
  induction h generalizing depth hs with
  | nil => rfl
  | other opening closing _ ih => simp [pairsUp, opening, closing, ih]
  | pair _ _ inner rest => simp [pairsUp, distinct, inner, rest]

theorem segments_of_pairsUp (h : pairsUp b depth gs = true) : Segments b depth gs := by
  induction gs generalizing depth with
  | nil =>
    obtain rfl : depth = 0 := by simpa [pairsUp] using h
    exact .last .nil
  | cons g gs ih =>
    by_cases closing : g = .bare b.closing
    · subst closing
      cases depth with
      | zero => simp [pairsUp] at h
      | succ depth => exact .next .nil (ih (by simpa [pairsUp] using h))
    · by_cases opening : g = .bare b.opening
      · subst opening
        exact .opened (ih (by simpa [pairsUp, closing] using h))
      · exact .other opening closing (ih (by simpa [pairsUp, closing, opening] using h))

/-- Counting the brackets that are open finds out whether all are in pairs. -/
theorem paired_iff : Paired b gs ↔ pairsUp b 0 gs = true := by
  constructor
  · intro h
    simpa [pairsUp] using pairsUp_append h 0 []
  · intro h
    cases segments_of_pairsUp h with
    | last inner => exact inner

instance (b : Brackets) (gs : List Glyph) : Decidable (Paired b gs) :=
  decidable_of_iff _ paired_iff.symm

/-- Only the brackets that are not escaped count. -/
def Glyph.isBracket (b : Brackets) (g : Glyph) : Bool :=
  g == .bare b.opening || g == .bare b.closing

theorem pairsUp_filter (depth : Nat) (gs : List Glyph) :
    pairsUp b depth (gs.filter (Glyph.isBracket b)) = pairsUp b depth gs := by
  induction gs generalizing depth with
  | nil => rfl
  | cons g gs ih =>
    by_cases closing : g = .bare b.closing
    · cases depth <;> simp [pairsUp, Glyph.isBracket, closing, ih]
    · by_cases opening : g = .bare b.opening
      · simp [pairsUp, Glyph.isBracket, opening, ih, b.distinct]
      · simp [pairsUp, Glyph.isBracket, opening, closing, ih]

theorem paired_of_filter_eq (same : gs.filter (Glyph.isBracket b) = hs.filter (Glyph.isBracket b)) :
    Paired b gs ↔ Paired b hs := by
  rw [paired_iff, paired_iff, ← pairsUp_filter, same, pairsUp_filter]

theorem map_cons_eq_some_iff {g d : Glyph} {found : Option (List Glyph × List Glyph)}
    {inner rest : List Glyph} :
    found.map (fun (inner, rest) => (g :: inner, rest)) = some (d :: inner, rest) ↔
      g = d ∧ found = some (inner, rest) := by
  cases found with
  | none => simp
  | some p =>
    obtain ⟨i, r⟩ := p
    simp [and_assoc]

/-- The first closing bracket that has no partner is the one that is found. -/
theorem cutGlyphs_eq_some_iff {inner rest : List Glyph} :
    cutGlyphs b depth gs = some (inner, rest) ↔
      gs = inner ++ .bare b.closing :: rest ∧ pairsUp b depth inner = true := by
  induction gs generalizing depth inner with
  | nil => simp [cutGlyphs]
  | cons g gs ih =>
    cases inner with
    | nil =>
      by_cases closing : g = .bare b.closing
      · cases depth <;> simp [cutGlyphs, pairsUp, closing]
      · simp [cutGlyphs, closing]
    | cons d inner =>
      by_cases closing : g = .bare b.closing
      · subst closing
        cases depth with
        | zero =>
          have never : pairsUp b 0 (.bare b.closing :: inner) = false := by simp [pairsUp]
          simp only [cutGlyphs, ↓reduceIte, Option.some.injEq, Prod.mk.injEq, reduceCtorEq,
            false_and, List.cons_append, List.cons.injEq, false_iff]
          rintro ⟨⟨rfl, -⟩, up⟩
          simp [never] at up
        | succ depth =>
          simp only [cutGlyphs, ↓reduceIte, map_cons_eq_some_iff, ih, List.cons_append,
            List.cons.injEq, and_assoc]
          refine and_congr_right fun same => and_congr_right fun _ => ?_
          simp [pairsUp, ← same]
      · simp only [cutGlyphs, closing, ↓reduceIte, map_cons_eq_some_iff, ih, List.cons_append,
          List.cons.injEq, and_assoc]
        refine and_congr_right fun same => and_congr_right fun _ => ?_
        simp [pairsUp, ← same, closing]

/-- The text in brackets is read as it was written just where it can be contained in them. -/
theorem readBracketed_iff {t u : Text} :
    readBracketed b (t ++ b.closing :: u) = some (t, u) ↔ Contained b t := by
  constructor
  · intro read
    obtain ⟨⟨inner, rest⟩, cut, same⟩ := Option.map_eq_some_iff.mp read
    simp only [Prod.mk.injEq] at same
    obtain ⟨whole, up⟩ := cutGlyphs_eq_some_iff.mp cut
    have legible : Legible (inner ++ .bare b.closing :: rest) := whole ▸ legible_glyphs _
    have glyphs_t : glyphs t = inner := by rw [← same.1, legible.of_append.glyphs_written]
    refine ⟨?_, ?_⟩
    · rw [glyphs_t]
      exact paired_iff.mpr up
    · rw [← getLast?_glyphs, glyphs_t]
      exact legible.getLast?_ne b.closing_mark
  · rintro ⟨paired, ends⟩
    have parts : glyphs (t ++ b.closing :: u) = glyphs t ++ .bare b.closing :: glyphs u := by
      rw [glyphs_append_mark b.closing_mark b.closing_ne, if_neg ends]
    have cut := cutGlyphs_eq_some_iff.mpr ⟨parts, paired_iff.mp paired⟩
    simp [readBracketed, cut, flatMap_written_glyphs]

end brackets

end Docmark.Markdown
