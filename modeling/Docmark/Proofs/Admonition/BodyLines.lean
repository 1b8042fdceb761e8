import Docmark.Admonition.Scan
import Docmark.Proofs.Text.Indent
import Mathlib.Data.List.DropRight

/-!
The lines that an admonition takes as its body: a run of lines that are blank or indented, up to the
first one that is neither.
-/

namespace Docmark

namespace Text

/-- Where the first line that is not blank begins; the end of a text that has none. -/
def shownStart (t : Text) : Nat :=
  t.length - (unlines ((lines t).dropWhile isBlank)).length

theorem length_unlines_cons (l : Text) {ls : List Text} (h : ls ≠ []) :
    (unlines (l :: ls)).length = l.length + 1 + (unlines ls).length := by
  rw [unlines_cons l h, List.length_append, List.length_cons]
  omega

/-- The lines above the first one that is not blank are a part of the text. -/
theorem length_dropBlank_le (t : Text) :
    (unlines ((lines t).dropWhile isBlank)).length ≤ t.length := by
  have whole := congrArg List.length (unlines_lines t)
  have suffix_le (ls : List Text) :
      (unlines (ls.dropWhile isBlank)).length ≤ (unlines ls).length := by
    induction ls with
    | nil => exact Nat.le_refl _
    | cons l ls ih =>
      rw [List.dropWhile_cons]
      split
      · cases ls with
        | nil => exact Nat.zero_le _
        | cons m ms =>
          rw [length_unlines_cons l (by simp)]
          omega
      · exact Nat.le_refl _
  have := suffix_le (lines t)
  omega

end Text

namespace Admonition

/-- A line that no body takes. -/
def EndsBody (line : Text) : Prop :=
  dedent? line = none

/-- A run of lines, and what the body has in their place. -/
inductive Dedents : List Text → List Text → Prop
  | nil : Dedents [] []
  | cons {line inner : Text} {lines inners : List Text} (first : dedent? line = some inner)
      (rest : Dedents lines inners) : Dedents (line :: lines) (inner :: inners)

theorem Dedents.append {as bs cs ds : List Text} (h : Dedents as bs) (h' : Dedents cs ds) :
    Dedents (as ++ cs) (bs ++ ds) := by
  induction h with
  | nil => exact h'
  | cons first _ ih => exact .cons first ih

theorem dedent?_of_isBlank {line : Text} (h : Text.isBlank line = true) :
    dedent? line = some [] := by
  rw [dedent?, if_pos h]

theorem dedents_of_isBlank {ls : List Text} (h : ∀ l ∈ ls, Text.isBlank l = true) :
    Dedents ls (ls.map fun _ => []) := by
  induction ls with
  | nil => exact .nil
  | cons l ls ih =>
    exact .cons (dedent?_of_isBlank (h l (by simp))) (ih fun m hm => h m (by simp [hm]))

theorem takeBody_cons {line inner : Text} {rest : List Text} (h : dedent? line = some inner)
    (ne : rest ≠ []) :
    takeBody (line :: rest) =
      (inner :: (takeBody rest).1, line.length + 1 + (takeBody rest).2) := by
  cases rest with
  | nil => exact absurd rfl ne
  | cons r rs => simp [takeBody, h]

theorem takeBody_of_endsBody {line : Text} (h : EndsBody line) (rest : List Text) :
    takeBody (line :: rest) = ([], 0) := by
  rw [EndsBody] at h
  cases rest with
  | nil =>
    rw [takeBody, h]
    split <;> rfl
  | cons r rs => simp [takeBody, h]

/--
A body takes the run that can be dedented and no more; at the end of the text an empty last line is
no line of its own.
-/
theorem takeBody_run {as bs ends : List Text} (h : Dedents as bs)
    (stop : ∀ l, ends.head? = some l → EndsBody l) :
    (∃ last, bs = (takeBody (as ++ ends)).1 ++ last ∧ ∀ l ∈ last, l = []) ∧
      (takeBody (as ++ ends)).2 + (Text.unlines ends).length =
        (Text.unlines (as ++ ends)).length := by
  induction h with
  | nil =>
    cases ends with
    | nil => exact ⟨⟨[], rfl, by simp⟩, rfl⟩
    | cons l ls =>
      have := takeBody_of_endsBody (stop l rfl) ls
      rw [List.nil_append, this]
      exact ⟨⟨[], rfl, by simp⟩, Nat.zero_add _⟩
  | @cons line inner as bs first rest ih =>
    obtain ⟨⟨last, taken, empty⟩, size⟩ := ih
    by_cases ne : as ++ ends = []
    · obtain ⟨rfl, rfl⟩ := List.append_eq_nil_iff.mp ne
      cases rest
      rw [List.append_nil, takeBody]
      split
      · rename_i none
        rw [List.isEmpty_iff.mp none] at first ⊢
        obtain rfl : inner = [] := by simpa [dedent?, Text.isBlank] using first.symm
        exact ⟨⟨[[]], rfl, by simp⟩, rfl⟩
      · rw [first]
        exact ⟨⟨[], rfl, by simp⟩, rfl⟩
    · rw [List.cons_append, takeBody_cons first ne, Text.length_unlines_cons line ne]
      refine ⟨⟨last, ?_, empty⟩, by omega⟩
      rw [taken]
      rfl

/-- Blank lines at the end are trimmed away with those before them. -/
theorem trimBlankLines_append {ls last : List Text} (h : ∀ l ∈ last, Text.isBlank l = true) :
    trimBlankLines (ls ++ last) = trimBlankLines ls := by
  have none : last.reverse.dropWhile Text.isBlank = [] := by
    rw [List.dropWhile_eq_nil_iff]
    intro l hl
    exact h l (List.mem_reverse.mp hl)
  rw [trimBlankLines, trimBlankLines]
  by_cases blank : ls.all Text.isBlank
  · rw [List.all_eq_true] at blank
    have skip (ms : List Text) : (ls ++ ms).dropWhile Text.isBlank = ms.dropWhile Text.isBlank := by
      rw [List.dropWhile_append, List.dropWhile_eq_nil_iff.mpr blank]
      rfl
    have := skip []
    rw [List.append_nil] at this
    rw [skip, this, List.dropWhile_eq_nil_iff.mpr h]
    rfl
  · have shown : ls.dropWhile Text.isBlank ≠ [] := by
      rw [Ne, List.dropWhile_eq_nil_iff]
      simpa using blank
    rw [List.dropWhile_append, if_neg (by simpa using shown), List.reverse_append,
      List.dropWhile_append, none]
    rfl

/-- The body of an admonition: its lines between the outer blank ones, each with a line feed. -/
theorem trimBlankLines_clear (ls : List Text) :
    trimBlankLines (ls.map Text.clearBlank) =
      ((ls.map Text.clearBlank).dropWhile List.isEmpty).rdropWhile List.isEmpty := by
  have same : ∀ l ∈ ls.map Text.clearBlank, Text.isBlank l = List.isEmpty l := by
    intro l hl
    obtain ⟨m, -, rfl⟩ := List.mem_map.mp hl
    rw [Text.clearBlank]
    split
    · rfl
    · rename_i shown
      cases m with
      | nil => exact absurd rfl shown
      | cons c r => simpa using shown
  have congr {ms : List Text} (h : ∀ l ∈ ms, Text.isBlank l = List.isEmpty l) :
      ms.dropWhile Text.isBlank = ms.dropWhile List.isEmpty := by
    induction ms with
    | nil => rfl
    | cons m ms ih =>
      rw [List.dropWhile_cons, List.dropWhile_cons, h m (by simp),
        ih fun l hl => h l (by simp [hl])]
  rw [trimBlankLines, List.rdropWhile, congr same]
  congr 1
  refine congr fun l hl => same l ?_
  exact (List.dropWhile_sublist _).subset (List.mem_reverse.mp hl)

end Admonition

end Docmark
