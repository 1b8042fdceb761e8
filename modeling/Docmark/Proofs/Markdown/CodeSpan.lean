import Docmark.Markdown.Inline
import Docmark.Proofs.Markdown.FencedCode
import Docmark.Proofs.Markdown.PlainLine

/-!
Code spans read back. A span is open until the next run of just as many backticks, and a space at
both ends of what it holds is left out. The writer knows two lengths only, and pads the longer one:
a text comes back from its span just where neither gets in its way.
-/

namespace Docmark.Markdown

/--
The lengths of the runs of backticks between the other characters, where nothing counts as a run of
length zero; `run` backticks stand in front of the text.
-/
def runsFrom : Nat → Text → List Nat
  | run, [] => [run]
  | run, c :: r => if c = backtick then runsFrom (run + 1) r else run :: runsFrom 0 r

def runs (t : Text) : List Nat :=
  runsFrom 0 t

/-- What stands before the first run of `n` backticks, and behind it; `run` of them are read. -/
def cutAtRun (n : Nat) : Nat → Text → Option (Text × Text)
  | run, [] => if run = n then some ([], []) else none
  | run, c :: r =>
    if c = backtick then cutAtRun n (run + 1) r
    else if run = n then some ([], c :: r)
    else (cutAtRun n 0 r).map fun (inner, rest) => (List.replicate run backtick ++ c :: inner, rest)

/-- True for a text with a space at both ends and something else in it. -/
def isPadded (t : Text) : Bool :=
  t.head? == some ' ' && t.getLast? == some ' ' && t.any (· != ' ')

/-- The code in a span: line feeds count as spaces, and padding is left out. -/
def spanContent (inner : Text) : Text :=
  let line := Text.replaceChar '\n' [' '] inner
  if isPadded line then line.tail.dropLast else line

/-- The code in the span that a text begins with, and what follows the span. -/
def readCodeSpan (t : Text) : Option (Text × Text) :=
  let opening := t.takeWhile (· == backtick)
  if opening.isEmpty then none
  else (cutAtRun opening.length 0 (t.dropWhile (· == backtick))).map fun (inner, rest) =>
    (spanContent inner, rest)

section cut

variable {n run : Nat} {t : Text} {c : Char}

/-- Runs of other lengths are passed over. -/
theorem cutAtRun_append (free : n ∉ runsFrom run t) (other : c ≠ backtick) (r : Text) :
    cutAtRun n run (t ++ c :: r) = (cutAtRun n 0 r).map fun (inner, rest) =>
      (List.replicate run backtick ++ t ++ c :: inner, rest) := by
  induction t generalizing run with
  | nil =>
    have passed : run ≠ n := by
      intro same
      simp [runsFrom, same] at free
    simp [cutAtRun, other, passed]
  | cons d t ih =>
    by_cases mark : d = backtick
    · have inner : n ∉ runsFrom (run + 1) t := by simpa [runsFrom, mark] using free
      have longer : List.replicate (run + 1) backtick ++ t = List.replicate run backtick ++ d :: t := by
        rw [List.replicate_succ', List.append_assoc, List.singleton_append, mark]
      rw [List.cons_append, cutAtRun, if_pos mark, ih inner, longer]
    · have free' : n ≠ run ∧ n ∉ runsFrom 0 t := by simpa [runsFrom, mark] using free
      rw [List.cons_append, cutAtRun, if_neg mark, if_neg (Ne.symm free'.1), ih free'.2]
      cases cutAtRun n 0 r <;> simp

/-- The first run of the right length ends what is read, so that the end of the text is left. -/
theorem exists_cutAtRun (found : n ∈ runsFrom run t) (other : c ≠ backtick) (r : Text) :
    ∃ inner rest, cutAtRun n run (t ++ c :: r) = some (inner, rest ++ c :: r) := by
  induction t generalizing run with
  | nil =>
    have same : n = run := by simpa [runsFrom] using found
    exact ⟨[], [], by simp [cutAtRun, other, same]⟩
  | cons d t ih =>
    by_cases mark : d = backtick
    · have inside : n ∈ runsFrom (run + 1) t := by simpa [runsFrom, mark] using found
      obtain ⟨inner, rest, cut⟩ := ih inside
      exact ⟨inner, rest, by rw [List.cons_append, cutAtRun, if_pos mark, cut]⟩
    · by_cases same : run = n
      · exact ⟨[], d :: t, by simp [cutAtRun, mark, same]⟩
      · have inside : n ∈ runsFrom 0 t := by
          have h : n = run ∨ n ∈ runsFrom 0 t := by simpa [runsFrom, mark] using found
          exact h.resolve_left (Ne.symm same)
        obtain ⟨inner, rest, cut⟩ := ih inside
        exact ⟨List.replicate run backtick ++ d :: inner, rest, by
          rw [List.cons_append, cutAtRun, if_neg mark, if_neg same, cut, Option.map_some]⟩

theorem cutAtRun_append_of_not_mem (pos : n ≠ 0) (free : backtick ∉ t) (r : Text) :
    cutAtRun n 0 (t ++ r) = (cutAtRun n 0 r).map fun (inner, rest) => (t ++ inner, rest) := by
  induction t with
  | nil => simp
  | cons d t ih =>
    simp only [List.mem_cons, not_or] at free
    rw [List.cons_append, cutAtRun, if_neg (Ne.symm free.1), if_neg (Ne.symm pos), ih free.2]
    cases cutAtRun n 0 r <;> simp

theorem cutAtRun_replicate (n : Nat) : cutAtRun n 0 (List.replicate n backtick) = some ([], []) := by
  have counted (k run : Nat) (h : run + k = n) :
      cutAtRun n run (List.replicate k backtick) = some ([], []) := by
    induction k generalizing run with
    | zero => simp [cutAtRun, show run = n by omega]
    | succ k ih =>
      rw [List.replicate_succ, cutAtRun, if_pos rfl]
      exact ih (run + 1) (by omega)
  exact counted n 0 (by omega)

end cut

section content

variable {t : Text}

theorem spanContent_of_line (line : '\n' ∉ t) :
    spanContent t = if isPadded t then t.tail.dropLast else t := by
  simp only [spanContent, Text.replaceChar_of_not_mem _ line]

theorem spanContent_eq_self_iff (line : '\n' ∉ t) : spanContent t = t ↔ isPadded t = false := by
  rw [spanContent_of_line line]
  cases padded : isPadded t with
  | false => simp
  | true =>
    have filled : t ≠ [] := by
      rintro rfl
      cases padded
    have shorter : t.tail.dropLast.length < t.length := by
      have := List.length_pos_of_ne_nil filled
      simp
      omega
    have differs : t.tail.dropLast ≠ t := fun same => by
      rw [same] at shorter
      omega
    simp [differs]

/-- Spaces that are written around a text are left out again. -/
theorem spanContent_pad (line : '\n' ∉ t) (shown : t.any (· != ' ') = true) :
    spanContent (' ' :: t ++ [' ']) = t := by
  have padded : isPadded (' ' :: t ++ [' ']) = true := by
    rw [isPadded, List.getLast?_concat]
    simpa using shown
  rw [spanContent_of_line (by simpa using line), if_pos padded]
  simp

end content

section span

variable {t : Text}

theorem readCodeSpan_replicate {n : Nat} (pos : n ≠ 0) {c : Char} (other : c ≠ backtick) (r : Text) :
    readCodeSpan (List.replicate n backtick ++ c :: r) =
      (cutAtRun n 0 (c :: r)).map fun (inner, rest) => (spanContent inner, rest) := by
  have marks : ∀ d ∈ List.replicate n backtick, (d == backtick) = true := by
    intro d hd
    exact beq_iff_eq.mpr (List.eq_of_mem_replicate hd)
  obtain ⟨opening, behind⟩ := Text.span_stop marks (beq_eq_false_iff_ne.mpr other) r
  simp [readCodeSpan, opening, behind, pos]

/-- Without backticks in the text its span ends where the text does. -/
theorem readCodeSpan_of_not_mem (filled : t ≠ []) (free : backtick ∉ t) :
    readCodeSpan (codeSpan t) = some (spanContent t, []) := by
  have written : codeSpan t = List.replicate 1 backtick ++ (t ++ List.replicate 1 backtick) := by
    simp [codeSpan, free]
  obtain ⟨c, r, rfl⟩ := List.exists_cons_of_ne_nil filled
  have other : c ≠ backtick := by
    rintro rfl
    exact free List.mem_cons_self
  rw [written, List.cons_append, readCodeSpan_replicate Nat.one_ne_zero other, ← List.cons_append,
    cutAtRun_append_of_not_mem Nat.one_ne_zero free, cutAtRun_replicate]
  simp

theorem codeSpan_of_mem (mark : backtick ∈ t) :
    codeSpan t = List.replicate 2 backtick ++ ' ' :: (t ++ ' ' :: List.replicate 2 backtick) := by
  simp [codeSpan, mark]

/-- Two backticks are read as the end of the span, wherever they stand. -/
theorem readCodeSpan_of_mem (mark : backtick ∈ t) (line : '\n' ∉ t) :
    (2 ∉ runs t → readCodeSpan (codeSpan t) = some (t, [])) ∧
      (2 ∈ runs t → ∃ code rest, readCodeSpan (codeSpan t) = some (code, rest) ∧ rest ≠ []) := by
  have space : ' ' ≠ backtick := by decide
  have inside : runsFrom 0 (' ' :: t) = 0 :: runs t := by simp [runsFrom, runs, space]
  rw [codeSpan_of_mem mark, readCodeSpan_replicate (Nat.succ_ne_zero 1) space]
  constructor
  · intro free
    have free' : 2 ∉ runsFrom 0 (' ' :: t) := by simpa [inside] using free
    have shown : t.any (· != ' ') = true := List.any_eq_true.mpr ⟨backtick, mark, by decide⟩
    rw [← List.cons_append, cutAtRun_append free' space, cutAtRun_replicate]
    simpa using spanContent_pad line shown
  · intro found
    have found' : 2 ∈ runsFrom 0 (' ' :: t) := by simpa [inside] using found
    obtain ⟨inner, rest, cut⟩ := exists_cutAtRun found' space (List.replicate 2 backtick)
    rw [← List.cons_append, cut]
    exact ⟨spanContent inner, rest ++ ' ' :: List.replicate 2 backtick, rfl, by simp⟩

/-- A text comes back where it has no run of two backticks, or no backticks and no padding. -/
theorem readCodeSpan_codeSpan_iff (filled : t ≠ []) (line : '\n' ∉ t) :
    readCodeSpan (codeSpan t) = some (t, []) ↔
      if backtick ∈ t then 2 ∉ runs t else isPadded t = false := by
  split
  · rename_i mark
    obtain ⟨free, found⟩ := readCodeSpan_of_mem mark line
    refine ⟨fun read inside => ?_, free⟩
    obtain ⟨code, rest, read', open_⟩ := found inside
    rw [read] at read'
    cases read'
    exact open_ rfl
  · rename_i free
    rw [readCodeSpan_of_not_mem filled free, ← spanContent_eq_self_iff line]
    simp

end span

end Docmark.Markdown
