import Docmark.Proofs.Markdown.FencedCode
import Mathlib.Data.List.Chain

/-!
A text divided by its fences: lines outside them, and the lines from each opening fence to the one
that closes it. Main statement: collapsing leaves all within fences as it is, and outside it leaves
one empty line of several blank ones; what is collapsed stays so.
-/

namespace Docmark.Markdown

/-- A line that begins with `n` backticks or tildes, three at least, white space apart. -/
def OpensFence (c : Char) (n : Nat) (line : Text) : Prop :=
  (c = backtick ∨ c = '~') ∧ 3 ≤ n ∧ ∃ pad rest, Text.isBlank pad = true ∧
    line = pad ++ (List.replicate n c ++ rest) ∧ rest.head? ≠ some c

/-- A line of `n` or more of one mark, with nothing but white space around them. -/
def ClosesFence (c : Char) (n : Nat) (line : Text) : Prop :=
  ∃ front m back, Text.isBlank front = true ∧ Text.isBlank back = true ∧ n ≤ m ∧
    line = front ++ (List.replicate m c ++ back)

section lines

variable {c d : Char} {n m : Nat} {line run pad rest : Text}

theorem not_isBlankChar_of_mark (mark : c = backtick ∨ c = '~') : Text.isBlankChar c = false := by
  rcases mark with rfl | rfl <;> decide

theorem replicate_inj (pos : 0 < n) (h : List.replicate n c = List.replicate m d) :
    n = m ∧ c = d := by
  obtain rfl : n = m := by simpa using congrArg List.length h
  exact ⟨rfl, by simpa [Nat.ne_of_gt pos] using h⟩

/-- White space in front of a run of marks, the run, and what is behind it. -/
theorem span_run (mark : c = backtick ∨ c = '~') (pos : 0 < n) (blank : Text.isBlank pad = true)
    (stop : rest.head? ≠ some c) :
    Text.stripStart (pad ++ (List.replicate n c ++ rest)) = List.replicate n c ++ rest ∧
      (List.replicate n c ++ rest).takeWhile (· == c) = List.replicate n c := by
  obtain ⟨k, rfl⟩ : ∃ k, n = k + 1 := ⟨n - 1, by omega⟩
  have shown := not_isBlankChar_of_mark mark
  constructor
  · rw [Text.stripStart, List.dropWhile_append_of_pos (List.all_eq_true.mp blank),
      List.replicate_succ, List.cons_append, List.dropWhile_cons_of_neg (by simp [shown])]
  · rw [List.takeWhile_append_of_pos (by simp)]
    cases rest with
    | nil => simp
    | cons d r => simpa using stop

theorem fenceOf_run (mark : c = backtick ∨ c = '~') (long : 3 ≤ n)
    (blank : Text.isBlank pad = true) (stop : rest.head? ≠ some c) :
    fenceOf (pad ++ (List.replicate n c ++ rest)) = some (List.replicate n c) := by
  obtain ⟨k, rfl⟩ : ∃ k, n = k + 1 := ⟨n - 1, by omega⟩
  obtain ⟨body, run⟩ := span_run mark k.succ_pos blank stop
  rw [List.replicate_succ, List.cons_append] at body run
  rw [List.replicate_succ, List.cons_append, fenceOf_of_stripStart body, if_pos mark, run,
    List.length_cons, List.length_replicate, if_neg (by omega)]

/-- The reader of fences sees the lines that open one. -/
theorem fenceOf_eq_some_iff :
    fenceOf line = some run ↔ ∃ c n, run = List.replicate n c ∧ OpensFence c n line := by
  constructor
  · intro h
    cases body : Text.stripStart line with
    | nil =>
      rw [fenceOf, body] at h
      cases h
    | cons c r =>
      rw [fenceOf_of_stripStart body] at h
      split at h
      · rename_i mark
        split at h
        · cases h
        · rename_i short
          cases h
          have all : ∀ d ∈ (c :: r).takeWhile (· == c), d = c := fun d hd =>
            beq_iff_eq.mp (List.mem_takeWhile_imp (p := (· == c)) hd)
          refine ⟨c, ((c :: r).takeWhile (· == c)).length, List.eq_replicate_of_mem all, mark,
            by omega, line.takeWhile Text.isBlankChar, (c :: r).dropWhile (· == c),
            List.all_takeWhile, ?_, ?_⟩
          · rw [← List.eq_replicate_of_mem all, List.takeWhile_append_dropWhile, ← body]
            exact List.takeWhile_append_dropWhile.symm
          · intro head
            have := List.head?_dropWhile_not (· == c) (c :: r)
            rw [head] at this
            simp at this
      · cases h
  · rintro ⟨c, n, rfl, mark, long, pad, rest, blank, rfl, stop⟩
    exact fenceOf_run mark long blank stop

theorem fenceOf_eq_none_iff : fenceOf line = none ↔ ∀ c n, ¬ OpensFence c n line := by
  rw [Option.eq_none_iff_forall_ne_some]
  constructor
  · intro none c n opens
    exact none _ (fenceOf_eq_some_iff.mpr ⟨c, n, rfl, opens⟩)
  · intro plain run h
    obtain ⟨c, n, -, opens⟩ := fenceOf_eq_some_iff.mp h
    exact plain c n opens

theorem strip_run (mark : c = backtick ∨ c = '~') (pos : 0 < n)
    (blank : Text.isBlank pad = true) (stop : rest.head? ≠ some c) :
    Text.strip (pad ++ (List.replicate n c ++ rest)) =
      List.replicate n c ++ Text.stripEnd rest := by
  have shown := not_isBlankChar_of_mark mark
  have body := (span_run mark pos blank stop).1
  rw [Text.stripStart] at body
  rw [Text.strip, Text.dropAround, body, Text.dropEndWhile_append, Text.stripEnd]
  split
  · rename_i none
    rw [none, List.append_nil]
    refine Text.dropEndWhile_of_not_getLast? fun d hd => ?_
    rw [List.eq_of_mem_replicate (List.mem_of_mem_getLast? hd), shown]
  · rfl

/-- The reader of fences sees the lines that close one. -/
theorem closesFence_iff (mark : c = backtick ∨ c = '~') (long : 3 ≤ n) :
    ClosesFence c n line ↔
      ∃ run, fenceOf line = some run ∧ closesFence (List.replicate n c) run line = true := by
  constructor
  · rintro ⟨front, m, back, blank, blank', longer, rfl⟩
    have stop : back.head? ≠ some c := by
      intro head
      have := List.all_eq_true.mp blank' c (List.mem_of_mem_head? head)
      rw [not_isBlankChar_of_mark mark] at this
      cases this
    have none : Text.stripEnd back = [] :=
      Text.dropEndWhile_eq_nil_iff.mpr (List.all_eq_true.mp blank')
    refine ⟨_, fenceOf_run mark (Nat.le_trans long longer) blank stop, ?_⟩
    rw [closesFence, strip_run mark (by omega) blank stop, none, List.append_nil, Bool.and_eq_true,
      Text.startsWith, List.isPrefixOf_iff_prefix, List.prefix_replicate_iff]
    simpa using longer
  · rintro ⟨run, fence, closes⟩
    obtain ⟨d, m, rfl, mark', long', pad, rest, blank, rfl, stop⟩ := fenceOf_eq_some_iff.mp fence
    rw [closesFence, strip_run mark' (by omega) blank stop, Bool.and_eq_true, Text.startsWith,
      List.isPrefixOf_iff_prefix, List.prefix_replicate_iff] at closes
    obtain ⟨⟨longer, same⟩, size⟩ := closes
    rw [List.length_replicate] at longer same
    obtain ⟨-, rfl⟩ := replicate_inj (by omega) same
    have none : Text.stripEnd rest = [] := by simpa using size
    exact ⟨pad, m, rest, blank,
      List.all_eq_true.mpr (Text.dropEndWhile_eq_nil_iff.mp none), longer, rfl⟩

end lines

/-- A line outside fences, or the lines from a fence to the one that closes it. -/
inductive Part
  | line (l : Text)
  | code (ls : List Text)
  deriving DecidableEq

namespace Part

def lines : Part → List Text
  | line l => [l]
  | code ls => ls

/-- True for a blank line outside fences. -/
def isBlank : Part → Bool
  | line l => Text.isBlank l
  | code _ => false

end Part

/-- Lines divided from the first on; a fence that no line closes goes to the end. -/
inductive Divided : List Text → List Part → Prop
  | nil : Divided [] []
  | line {l : Text} {ls : List Text} {ps : List Part} (plain : ∀ c n, ¬ OpensFence c n l)
    (rest : Divided ls ps) : Divided (l :: ls) (.line l :: ps)
  | code {c : Char} {n : Nat} {opening closing : Text} {inner ls : List Text} {ps : List Part}
    (opens : OpensFence c n opening) (inside : ∀ l ∈ inner, ¬ ClosesFence c n l)
    (closes : ClosesFence c n closing) (rest : Divided ls ps) :
    Divided (opening :: (inner ++ closing :: ls)) (.code (opening :: (inner ++ [closing])) :: ps)
  | unclosed {c : Char} {n : Nat} {opening : Text} {inner : List Text}
    (opens : OpensFence c n opening) (inside : ∀ l ∈ inner, ¬ ClosesFence c n l) :
    Divided (opening :: inner) [.code (opening :: inner)]

/-- What is left of parts: code stays, and so does a line that is not blank; a blank line is made
empty, or dropped where the next line is blank, too. -/
inductive Thinned : List Part → List Part → Prop
  | nil : Thinned [] []
  | code (ls : List Text) {ps qs : List Part} (rest : Thinned ps qs) :
    Thinned (.code ls :: ps) (.code ls :: qs)
  | shown {l : Text} {ps qs : List Part} (shown : Text.isBlank l = false) (rest : Thinned ps qs) :
    Thinned (.line l :: ps) (.line l :: qs)
  | emptied {l : Text} {ps qs : List Part} (blank : Text.isBlank l = true) (rest : Thinned ps qs) :
    Thinned (.line l :: ps) (.line [] :: qs)
  | dropped {k l : Text} {ps qs : List Part} (blank : Text.isBlank k = true)
    (next : Text.isBlank l = true) (rest : Thinned (.line l :: ps) qs) :
    Thinned (.line k :: .line l :: ps) qs

/-- No two blank lines are neighbours outside fences. -/
def Spaced (ps : List Part) : Prop :=
  ps.IsChain fun p q => ¬ (p.isBlank = true ∧ q.isBlank = true)

section parts

variable {ls : List Text} {ps qs : List Part}

theorem Divided.lines (h : Divided ls ps) : ps.flatMap Part.lines = ls := by
  induction h with
  | nil => rfl
  | line _ _ ih => simp [Part.lines, ih]
  | code _ _ _ _ ih => simp [Part.lines, ih]
  | unclosed => simp [Part.lines]

theorem exists_first {p : Text → Prop} (h : ∃ l ∈ ls, p l) :
    ∃ above l below, ls = above ++ l :: below ∧ (∀ k ∈ above, ¬ p k) ∧ p l := by
  classical
  obtain ⟨k, hk, hp⟩ := h
  have some : (ls.find? p).isSome = true := List.find?_isSome.mpr ⟨k, hk, by simpa using hp⟩
  obtain ⟨l, found⟩ := Option.isSome_iff_exists.mp some
  obtain ⟨hl, above, below, cut, before⟩ := List.find?_eq_some_iff_append.mp found
  exact ⟨above, l, below, cut, fun k hk => by simpa using before k hk, by simpa using hl⟩

/-- All lines can be divided. -/
theorem exists_divided (ls : List Text) : ∃ ps, Divided ls ps := by
  induction size : ls.length using Nat.strong_induction_on generalizing ls with
  | _ size ih =>
    subst size
    cases ls with
    | nil => exact ⟨[], .nil⟩
    | cons l ls =>
      cases hl : fenceOf l with
      | none =>
        obtain ⟨ps, rest⟩ := ih ls.length (by simp) ls rfl
        exact ⟨_, .line (fenceOf_eq_none_iff.mp hl) rest⟩
      | some run =>
        obtain ⟨c, n, -, opens⟩ := fenceOf_eq_some_iff.mp hl
        by_cases closed : ∃ k ∈ ls, ClosesFence c n k
        · obtain ⟨inner, closing, below, rfl, inside, closes⟩ := exists_first closed
          obtain ⟨ps, rest⟩ := ih below.length (by simp; omega) below rfl
          exact ⟨_, .code opens inside closes rest⟩
        · exact ⟨_, .unclosed opens fun k hk closes => closed ⟨k, hk, closes⟩⟩

/-- Which of the blank lines is dropped does not matter. -/
theorem Thinned.blank_head {l : Text} (h : Thinned (.line [] :: ps) qs)
    (blank : Text.isBlank l = true) : Thinned (.line l :: ps) qs := by
  cases h with
  | shown shown => cases shown
  | emptied _ rest => exact .emptied blank rest
  | dropped _ next rest => exact .dropped blank next rest

theorem Thinned.emptied_of_mem (h : Thinned ps qs) {l : Text} (hl : .line l ∈ qs)
    (blank : Text.isBlank l = true) : l = [] := by
  induction h with
  | nil => cases hl
  | code _ _ ih => exact ih (by simpa using hl)
  | shown shown _ ih =>
    rcases List.mem_cons.mp hl with he | hl
    · cases he
      rw [shown] at blank
      cases blank
    · exact ih hl
  | emptied _ _ ih =>
    rcases List.mem_cons.mp hl with he | hl
    · exact Part.line.inj he
    · exact ih hl
  | dropped _ _ _ ih => exact ih hl

/-- Parts without anything to take away stay as they are. -/
theorem Thinned.eq_of_spaced (h : Thinned ps qs) (spaced : Spaced ps)
    (empty : ∀ l, .line l ∈ ps → Text.isBlank l = true → l = []) : qs = ps := by
  induction h with
  | nil => rfl
  | code ls rest ih => rw [ih spaced.tail fun l hl => empty l (List.mem_cons_of_mem _ hl)]
  | shown _ _ ih => rw [ih spaced.tail fun l hl => empty l (List.mem_cons_of_mem _ hl)]
  | emptied blank _ ih =>
    rw [ih spaced.tail fun l hl => empty l (List.mem_cons_of_mem _ hl),
      empty _ List.mem_cons_self blank]
  | dropped blank next =>
    exact absurd ⟨blank, next⟩ (List.isChain_cons_cons.mp spaced).1

/-- An empty line, if there is a blank line above. -/
def blankAbove (blank : Bool) : List Part :=
  if blank then [.line []] else []

theorem Thinned.blankAbove (h : Thinned ps qs) (blank : Bool) :
    Thinned (blankAbove blank ++ ps) (blankAbove blank ++ qs) := by
  cases blank with
  | false => exact h
  | true => exact .emptied rfl h

theorem Spaced.blankAbove (h : Spaced qs) {p : Part} (shown : p.isBlank = false) (blank : Bool) :
    Spaced (blankAbove blank ++ p :: qs) := by
  have first : Spaced (p :: qs) := h.cons fun q _ both => by
    rw [shown] at both
    cases both.1
  cases blank with
  | false => exact first
  | true =>
    refine first.cons fun q hq both => ?_
    cases hq
    rw [shown] at both
    cases both.2

/-- The lines of a fence do not end it, as the reader of fences sees them. -/
theorem not_closesFence_of_inside {c : Char} {n : Nat} {opening : Text} {inner : List Text}
    (opens : OpensFence c n opening) (inside : ∀ l ∈ inner, ¬ ClosesFence c n l) :
    ∀ l ∈ inner, ∀ run, fenceOf l = some run →
      closesFence (List.replicate n c) run l = false := by
  intro l hl run fence
  refine Bool.eq_false_iff.mpr fun closes => inside l hl ?_
  exact (closesFence_iff opens.1 opens.2.1).mpr ⟨run, fence, closes⟩

section fence

variable {c : Char} {n : Nat} {opening : Text} {inner : List Text} (opens : OpensFence c n opening)
  (inside : ∀ l ∈ inner, ¬ ClosesFence c n l) (blank : Bool)

include opens inside

theorem collapse_unclosed : Tracking.collapse ⟨none, blank⟩ (opening :: inner) =
    opening :: inner := by
  have first : fenceOf opening = some (List.replicate n c) :=
    fenceOf_eq_some_iff.mpr ⟨c, n, rfl, opens⟩
  have next : Tracking.step ⟨none, blank⟩ opening = ⟨some (List.replicate n c), false⟩ := by
    simp [Tracking.step, first]
  rw [Tracking.collapse_cons, Tracking.emit_of_fenceOf _ first, next,
    (Tracking.collapse_inside (not_closesFence_of_inside opens inside)).1]
  rfl

/-- What is below a fence is collapsed as it is below a line that is not blank. -/
theorem collapse_closed {closing : Text} (closes : ClosesFence c n closing) (ls : List Text) :
    Tracking.collapse ⟨none, blank⟩ (opening :: (inner ++ closing :: ls)) =
      opening :: (inner ++ closing :: Tracking.collapse ⟨none, false⟩ ls) := by
  have first : fenceOf opening = some (List.replicate n c) :=
    fenceOf_eq_some_iff.mpr ⟨c, n, rfl, opens⟩
  obtain ⟨run, last, closes'⟩ := (closesFence_iff opens.1 opens.2.1).mp closes
  obtain ⟨spares, after⟩ := Tracking.spares_fenced (t := ⟨none, blank⟩) rfl first
    (not_closesFence_of_inside opens inside) last closes'
  have whole : opening :: (inner ++ closing :: ls) = opening :: (inner ++ [closing]) ++ ls := by
    simp
  rw [whole, Tracking.collapse_append, Tracking.collapse_eq_self_iff.mpr spares, after]
  simp

end fence

/-- The parts of what collapsing leaves, below a line that is blank or not. -/
theorem Divided.collapse (h : Divided ls ps) (blank : Bool) :
    ∃ qs, Divided (Tracking.collapse ⟨none, blank⟩ ls) qs ∧
      Thinned (blankAbove blank ++ ps) (blankAbove blank ++ qs) ∧
      Spaced (blankAbove blank ++ qs) := by
  induction h generalizing blank with
  | nil =>
    refine ⟨[], .nil, Thinned.nil.blankAbove blank, ?_⟩
    cases blank with
    | false => exact List.isChain_nil
    | true => exact List.isChain_singleton _
  | @line l ls ps plain rest ih =>
    have fence : fenceOf l = none := fenceOf_eq_none_iff.mpr plain
    have next : Tracking.step ⟨none, blank⟩ l = ⟨none, Text.isBlank l⟩ := by
      simp [Tracking.step, fence]
    rw [Tracking.collapse_cons, next]
    cases hl : Text.isBlank l with
    | false =>
      obtain ⟨qs, divided, thinned, spaced⟩ := ih false
      refine ⟨.line l :: qs, ?_, (Thinned.shown hl thinned).blankAbove blank,
        spaced.blankAbove (p := .line l) hl blank⟩
      simpa [Tracking.emit, hl] using .line plain divided
    | true =>
      obtain ⟨qs, divided, thinned, spaced⟩ := ih true
      cases blank with
      | false =>
        have empty : ∀ c n, ¬ OpensFence c n [] := fenceOf_eq_none_iff.mp rfl
        refine ⟨.line [] :: qs, ?_, thinned.blank_head hl, spaced⟩
        simpa [Tracking.emit, hl] using Divided.line empty divided
      | true =>
        refine ⟨qs, ?_, .dropped rfl hl (thinned.blank_head hl), spaced⟩
        simpa [Tracking.emit, hl] using divided
  | code opens inside closes rest ih =>
    obtain ⟨qs, divided, thinned, spaced⟩ := ih false
    rw [collapse_closed opens inside blank closes]
    exact ⟨_, .code opens inside closes divided, (Thinned.code _ thinned).blankAbove blank,
      spaced.blankAbove rfl blank⟩
  | unclosed opens inside =>
    rw [collapse_unclosed opens inside]
    exact ⟨_, .unclosed opens inside, (Thinned.code _ .nil).blankAbove blank,
      Spaced.blankAbove List.isChain_nil rfl blank⟩

end parts

/--
However the lines of a text are divided by fences, what collapsing leaves is divided in the same
way: within fences all stays as it is, outside them a blank line is made empty or dropped, and no
two blank lines are neighbours. Collapsing once more changes nothing.
-/
theorem collapseBlankLines_divided (t : Text) :
    (∃ ps, Divided (Text.lines t) ps) ∧
    (∀ ps, Divided (Text.lines t) ps →
      ∃ qs, Divided (Text.lines (collapseBlankLines t)) qs ∧ Thinned ps qs ∧ Spaced qs) ∧
    collapseBlankLines (collapseBlankLines t) = collapseBlankLines t := by
  have thin {u : Text} {ps : List Part} (h : Divided (Text.lines u) ps) :
      ∃ qs, Divided (Text.lines (collapseBlankLines u)) qs ∧ Thinned ps qs ∧ Spaced qs := by
    rw [Tracking.lines_collapseBlankLines]
    exact h.collapse false
  obtain ⟨ps, divided⟩ := exists_divided (Text.lines t)
  refine ⟨⟨ps, divided⟩, fun ps h => thin h, ?_⟩
  obtain ⟨qs, once, thinned, spaced⟩ := thin divided
  obtain ⟨rs, twice, thinned', -⟩ := thin once
  obtain rfl : rs = qs := thinned'.eq_of_spaced spaced fun l hl => thinned.emptied_of_mem hl
  exact Text.lines_injective (twice.lines.symm.trans once.lines)

/-- Blank lines around and in a fence that a shorter one does not close, and in one left open. -/
def fencedText : Text :=
  "a\n \n\n  ~~~~ x\n\n\n~~~\n~~~~~ \n\n\n```\n\n".toList

def fencedParts : List Part :=
  [.line ['a'], .line [' '], .line [],
    .code ["  ~~~~ x".toList, [], [], "~~~".toList, "~~~~~ ".toList], .line [], .line [],
    .code ["```".toList, [], []]]

theorem divided_fencedText : Divided (Text.lines fencedText) fencedParts := by
  have plain {l : Text} (h : fenceOf l = none) : ∀ c n, ¬ OpensFence c n l :=
    fenceOf_eq_none_iff.mp h
  have empty {c : Char} {n : Nat} (mark : c = backtick ∨ c = '~') (long : 3 ≤ n) :
      ¬ ClosesFence c n [] := by
    rw [closesFence_iff mark long]
    rintro ⟨run, fence, -⟩
    cases fence
  have short : ¬ ClosesFence '~' 4 "~~~".toList := by
    rw [closesFence_iff (Or.inr rfl) (by decide)]
    rintro ⟨run, fence, closes⟩
    obtain rfl : "~~~".toList = run := Option.some.inj fence
    revert closes
    decide
  have inner : ∀ l ∈ [[], [], "~~~".toList], ¬ ClosesFence '~' 4 l := by
    simp only [List.mem_cons, List.not_mem_nil, or_false]
    rintro l (rfl | rfl | rfl)
    · exact empty (Or.inr rfl) (by decide)
    · exact empty (Or.inr rfl) (by decide)
    · exact short
  have below : ∀ l ∈ [[], []], ¬ ClosesFence backtick 3 l := by
    simp only [List.mem_cons, List.not_mem_nil, or_false]
    rintro l (rfl | rfl)
    · exact empty (Or.inl rfl) (by decide)
    · exact empty (Or.inl rfl) (by decide)
  refine .line (plain (by decide)) (.line (plain (by decide)) (.line (plain (by decide)) ?_))
  refine Divided.code (c := '~') (n := 4)
    ⟨Or.inr rfl, by decide, "  ".toList, " x".toList, by decide, rfl, by decide⟩ inner
    ⟨[], 5, [' '], rfl, by decide, by decide, rfl⟩ ?_
  refine .line (plain (by decide)) (.line (plain (by decide)) ?_)
  exact Divided.unclosed (c := backtick) (n := 3)
    ⟨Or.inl rfl, by decide, [], [], rfl, rfl, by decide⟩ below

theorem fencedText_collapsed :
    collapseBlankLines fencedText = "a\n\n  ~~~~ x\n\n\n~~~\n~~~~~ \n\n```\n\n".toList ∧
      Divided (Text.lines fencedText) fencedParts ∧
      ∃ qs, Divided (Text.lines (collapseBlankLines fencedText)) qs ∧
        Thinned fencedParts qs ∧ Spaced qs :=
  ⟨by decide, divided_fencedText,
    (collapseBlankLines_divided fencedText).2.1 fencedParts divided_fencedText⟩

end Docmark.Markdown
