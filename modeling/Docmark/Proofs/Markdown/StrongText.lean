import Docmark.Proofs.Markdown.Brackets
import Docmark.Proofs.Text.Signs

/-!
Strong texts, which stand between pairs of asterisks without backslash. A text is read as its signs,
which are cut at each pair of asterisks: the pieces are outside and inside of strong text by turns.
-/

namespace Docmark.Markdown

open Preview (isPunctuation)

/-- The character that a glyph means; none for an asterisk that may be one of a pair. -/
def Glyph.sign : Glyph → Option Char
  | bare '*' => none
  | g => some g.meant

def signs (t : Text) : List (Option Char) :=
  (glyphs t).map Glyph.sign

/-- The pieces of signs between pairs of asterisks. A single one stands for itself. -/
def segments : List (Option Char) → List Text
  | none :: none :: r => [] :: segments r
  | none :: r => (segments r).modifyHead ('*' :: ·)
  | some c :: r => (segments r).modifyHead (c :: ·)
  | [] => [[]]

/-- Every second piece, if the last one is outside again. -/
def enclosed : List Text → Option (List Text)
  | [] => none
  | [_] => some []
  | _ :: s :: rest => (enclosed rest).map (s :: ·)

/-- The strong texts of a text, as they are meant; none if a pair that opens one is not closed. -/
def strongTexts (t : Text) : Option (List Text) :=
  enclosed (segments (signs t))

/-- The number of pairs of asterisks without backslash. -/
def strongMarks (t : Text) : Nat :=
  (segments (signs t)).length - 1

section segments

variable (m : List (Option Char))

theorem modifyHead_nil_append (l : List Text) : l.modifyHead ([] ++ ·) = l := by
  cases l with
  | nil => rfl
  | cons t l => rfl

theorem segments_text (t : Text) :
    segments (t.map some ++ m) = (segments m).modifyHead (t ++ ·) := by
  induction t with
  | nil =>
    rw [modifyHead_nil_append]
    rfl
  | cons c t ih =>
    rw [List.map_cons, List.cons_append, segments, ih, List.modifyHead_modifyHead]
    rfl

theorem enclosed_modifyHead (f : Text → Text) (l : List Text) :
    enclosed (l.modifyHead f) = enclosed l := by
  match l with
  | [] => rfl
  | [_] => rfl
  | _ :: _ :: _ => rfl

/-- An asterisk that is not followed by another one stands for itself. -/
theorem segments_single {r : List (Option Char)} (single : r.head? ≠ some none) :
    segments (none :: r) = (segments r).modifyHead ('*' :: ·) := by
  rw [segments]
  intro s hs
  apply single
  rw [hs]
  rfl

/-- Text in front of the first pair is outside. -/
theorem enclosed_text (t : Text) :
    enclosed (segments (t.map some ++ m)) = enclosed (segments m) := by
  rw [segments_text, enclosed_modifyHead]

theorem enclosed_strong (t : Text) :
    enclosed (segments (none :: none :: (t.map some ++ none :: none :: m))) =
      (enclosed (segments m)).map (t :: ·) := by
  rw [segments, segments_text, segments]
  simp [enclosed]

theorem enclosed_append_last (front : List Text) (x y : Text) :
    enclosed (front ++ [x]) = enclosed (front ++ [y]) := by
  fun_induction enclosed front with
  | case1 => rfl
  | case2 => rfl
  | case3 p s rest ih => simp only [List.cons_append, enclosed, ih]

/-- A character in front leaves the last piece as it is, unless there is no other one. -/
theorem exists_cons_pieces (c : Char) (front : List Text) (last : Text) :
    ∃ front' last', (front ++ [last]).modifyHead (c :: ·) = front' ++ [last'] ∧
      ∀ l : List Text, (front ++ l.modifyHead (last ++ ·)).modifyHead (c :: ·) =
        front' ++ l.modifyHead (last' ++ ·) := by
  cases front with
  | nil =>
    refine ⟨[], c :: last, rfl, fun l => ?_⟩
    rw [List.nil_append, List.modifyHead_modifyHead]
    rfl
  | cons t front => exact ⟨(c :: t) :: front, last, rfl, fun _ => rfl⟩

/-- What begins with a character goes on with the last piece. -/
theorem exists_segments_append (c : Char) : ∃ front last, segments m = front ++ [last] ∧
    ∀ r, segments (m ++ some c :: r) =
      front ++ (segments (some c :: r)).modifyHead (last ++ ·) := by
  fun_induction segments m with
  | case1 s ih =>
    obtain ⟨front, last, h, h'⟩ := ih
    refine ⟨[] :: front, last, congrArg ([] :: ·) h, ?_⟩
    intro r
    rw [List.cons_append, List.cons_append, segments, h']
    rfl
  | case2 s single ih =>
    obtain ⟨front, last, h, h'⟩ := ih
    have alone (r : List (Option Char)) : (s ++ some c :: r).head? ≠ some none := by
      cases s with
      | nil => simp
      | cons x s =>
        intro head
        obtain rfl := Option.some.inj head
        exact single s rfl
    obtain ⟨front', last', pieces, onward⟩ := exists_cons_pieces '*' front last
    refine ⟨front', last', by rw [h, pieces], ?_⟩
    intro r
    rw [List.cons_append, segments_single (alone r), h', onward]
  | case3 d s ih =>
    obtain ⟨front, last, h, h'⟩ := ih
    obtain ⟨front', last', pieces, onward⟩ := exists_cons_pieces d front last
    refine ⟨front', last', by rw [h, pieces], ?_⟩
    intro r
    rw [List.cons_append, segments, h', onward]
  | case4 =>
    refine ⟨[], [], rfl, ?_⟩
    intro r
    rw [modifyHead_nil_append]
    rfl

theorem enclosed_append_char (c : Char) :
    enclosed (segments (m ++ [some c])) = enclosed (segments m) := by
  obtain ⟨front, last, h, h'⟩ := exists_segments_append m c
  rw [h', h]
  exact enclosed_append_last front (last ++ [c]) last

theorem length_segments_mark (c : Char) :
    (segments (m ++ [some c, none, none])).length = (segments m).length + 1 := by
  obtain ⟨front, last, h, h'⟩ := exists_segments_append m c
  rw [h', h]
  simp [segments]

/-- Each cut takes two asterisks. -/
theorem length_segments_le : 2 * (segments m).length ≤ m.count none + 2 := by
  fun_induction segments m with
  | case1 r ih =>
    simp only [List.length_cons, List.count_cons_self]
    omega
  | case2 r single ih =>
    simp only [List.length_modifyHead, List.count_cons_self]
    omega
  | case3 c r ih =>
    simp only [List.length_modifyHead, List.count_cons_of_ne (Option.some_ne_none c)]
    exact ih
  | case4 => simp

theorem length_of_enclosed {l ts : List Text} (h : enclosed l = some ts) :
    l.length = 2 * ts.length + 1 := by
  fun_induction enclosed l generalizing ts with
  | case1 => cases h
  | case2 p =>
    cases h
    rfl
  | case3 p s rest ih =>
    obtain ⟨us, inner, rfl⟩ := Option.map_eq_some_iff.mp h
    have := ih inner
    simp only [List.length_cons]
    omega

theorem strongMarks_of_strongTexts {t : Text} {ts : List Text} (h : strongTexts t = some ts) :
    strongMarks t = 2 * ts.length := by
  rw [strongMarks, length_of_enclosed h, Nat.add_sub_cancel]

/-- A strong text has two asterisks on each side. -/
theorem four_mul_length_le {t : Text} {ts : List Text} (h : strongTexts t = some ts) :
    4 * ts.length ≤ (signs t).count none := by
  have pieces := length_of_enclosed h
  have cuts := length_segments_le (signs t)
  omega

end segments

section signs

variable {u v t : Text} {c : Char}

theorem sign_bare (other : c ≠ '*') : Glyph.sign (.bare c) = some c := by
  rw [Glyph.sign]
  · rfl
  · intro h
    exact other (Glyph.bare.inj h)

theorem sign_of_ne {g : Glyph} (other : g ≠ .bare '*') : g.sign = some g.meant := by
  rw [Glyph.sign]
  exact other

theorem signs_escaped (mark : isPunctuation c = true) (r : Text) :
    signs ('\\' :: c :: r) = some c :: signs r := by
  rw [signs, glyphs_escaped mark, List.map_cons]
  rfl

theorem signs_lone (plain : isPunctuation c = false) (r : Text) :
    signs ('\\' :: c :: r) = some '\\' :: signs (c :: r) := by
  rw [signs, glyphs, if_neg (by simp [plain]), List.map_cons]
  rfl

theorem signs_cons (other : c ≠ '\\') (r : Text) :
    signs (c :: r) = (Glyph.bare c).sign :: signs r := by
  rw [signs, glyphs_cons other, List.map_cons]
  rfl

theorem signs_append (ends : ¬ EndsEscaping u) (v : Text) :
    signs (u ++ v) = signs u ++ signs v := by
  rw [signs, glyphs_append (mt (getLast?_glyphs u).mp ends), List.map_append]
  rfl

/-- No character but punctuation is touched by what stands in front of it. -/
theorem glyphs_append_plain (plain : isPunctuation c = false) (u v : Text) :
    glyphs (u ++ c :: v) = glyphs u ++ .bare c :: glyphs v := by
  fun_induction glyphs u with
  | case1 d r mark ih =>
    rw [List.cons_append, List.cons_append, glyphs_escaped mark, ih, List.cons_append]
  | case2 d r mark ih =>
    rw [List.cons_append] at ih
    rw [List.cons_append, List.cons_append, glyphs, if_neg mark, ih, List.cons_append]
  | case3 d r lone ih =>
    cases r with
    | nil =>
      by_cases slash : d = '\\'
      · subst slash
        simp [glyphs, plain, glyphs_of_plain plain]
      · rw [List.cons_append, glyphs_cons slash, ih, List.cons_append]
    | cons e r =>
      have other : d ≠ '\\' := fun slash => lone e r slash rfl
      rw [List.cons_append, glyphs_cons other, ih, List.cons_append]
  | case4 => exact glyphs_of_plain plain v

theorem not_isPunctuation_of_isBlankChar (blank : Text.isBlankChar c = true) :
    isPunctuation c = false := by
  rw [← Bool.not_eq_true]
  intro mark
  rw [not_isBlankChar_of_isPunctuation mark] at blank
  cases blank

theorem signs_append_plain (plain : isPunctuation c = false) (u v : Text) :
    signs (u ++ c :: v) = signs u ++ some c :: signs v := by
  have other : c ≠ '*' := by
    rintro rfl
    exact absurd plain (by decide)
  rw [signs, glyphs_append_plain plain, List.map_append, List.map_cons, sign_bare other]
  rfl

/-- Punctuation that a backslash escapes takes the place of the backslash. -/
theorem signs_append_of_endsEscaping (mark : isPunctuation c = true) (ends : EndsEscaping u)
    (v : Text) :
    ∃ m, signs u = m ++ [some '\\'] ∧ signs (u ++ c :: v) = m ++ some c :: signs v := by
  obtain ⟨gs, whole⟩ := List.getLast?_eq_some_iff.mp ((getLast?_glyphs u).mpr ends)
  refine ⟨gs.map Glyph.sign, ?_, ?_⟩
  · rw [signs, whole, List.map_append]
    rfl
  · rw [signs, glyphs_append_of_endsEscaping mark ends, whole, List.dropLast_concat,
      List.map_append]
    rfl

/-- A spelling has no lone backslash. -/
theorem Spells.bare_not_mem (h : Spells u t) : Glyph.bare '\\' ∉ glyphs u := by
  induction h with
  | nil => exact List.not_mem_nil
  | plain bare rest ih =>
    rw [glyphs_cons bare, List.mem_cons, not_or]
    exact ⟨fun same => bare (Glyph.bare.inj same).symm, ih⟩
  | escaped mark rest ih =>
    rw [glyphs_escaped mark, List.mem_cons, not_or]
    exact ⟨by simp, ih⟩

theorem Spells.signs_append (h : Spells u t) (v : Text) : signs (u ++ v) = signs u ++ signs v :=
  Markdown.signs_append
    (fun ends => h.bare_not_mem (List.mem_of_getLast? ((getLast?_glyphs u).mpr ends))) v

/-- Where every asterisk has a backslash, all signs are characters of the text. -/
theorem Spells.signs_of_not_mem (h : Spells u t) (free : Glyph.bare '*' ∉ glyphs u) :
    signs u = t.map some := by
  have meant : (glyphs u).map Glyph.sign = (glyphs u).map fun g => some g.meant := by
    apply List.map_congr_left
    intro g hg
    exact sign_of_ne fun same => free (same ▸ hg)
  rw [signs, meant, ← h.unescape, ← map_meant_glyphs, List.map_map]
  rfl

end signs

/-! Trimming, of texts and of their signs. -/

def isPadSign (x : Option Char) : Bool :=
  x.any Text.isBlankChar

def trimSigns (m : List (Option Char)) : List (Option Char) :=
  (m.dropWhile isPadSign).rdropWhile isPadSign

section trimmed

variable {t : Text} {c : Char}

theorem isPunctuation_of_escaped {gs : List Glyph} (h : Legible gs) (hc : Glyph.escaped c ∈ gs) :
    isPunctuation c = true := by
  induction h with
  | nil => cases hc
  | @escaped d gs mark rest ih =>
    rcases List.mem_cons.mp hc with same | hc
    · exact Glyph.escaped.inj same ▸ mark
    · exact ih hc
  | bare rest lone ih =>
    rcases List.mem_cons.mp hc with same | hc
    · cases same
    · exact ih hc

/-- White space is written as it is. -/
theorem eq_bare_of_sign {g : Glyph} (hg : g ∈ glyphs t) (blank : Text.isBlankChar c = true)
    (sign : g.sign = some c) : g = .bare c := by
  have other : g ≠ .bare '*' := by
    intro star
    rw [star] at sign
    cases sign
  rw [sign_of_ne other] at sign
  obtain rfl := Option.some.inj sign
  cases g with
  | bare c => rfl
  | escaped c =>
    have mark := isPunctuation_of_escaped (legible_glyphs t) hg
    rw [Glyph.meant, not_isBlankChar_of_isPunctuation mark] at blank
    cases blank

theorem head?_signs_iff (blank : Text.isBlankChar c = true) :
    (signs t).head? = some (some c) ↔ t.head? = some c := by
  constructor
  · intro head
    obtain ⟨g, first, sign⟩ := Option.map_eq_some_iff.mp (List.head?_map.symm.trans head)
    obtain rfl := eq_bare_of_sign (List.mem_of_mem_head? first) blank sign
    obtain ⟨gs, whole⟩ := List.head?_eq_some_iff.mp first
    rw [← flatMap_written_glyphs t, whole]
    rfl
  · intro head
    obtain ⟨s, rfl⟩ := List.head?_eq_some_iff.mp head
    exact congrArg List.head? (signs_append_plain (not_isPunctuation_of_isBlankChar blank) [] s)

theorem getLast?_signs_iff (blank : Text.isBlankChar c = true) :
    (signs t).getLast? = some (some c) ↔ t.getLast? = some c := by
  constructor
  · intro last
    obtain ⟨g, final, sign⟩ := Option.map_eq_some_iff.mp (List.getLast?_map.symm.trans last)
    obtain rfl := eq_bare_of_sign (List.mem_of_getLast? final) blank sign
    obtain ⟨gs, whole⟩ := List.getLast?_eq_some_iff.mp final
    rw [← flatMap_written_glyphs t, whole, List.flatMap_append]
    exact List.getLast?_concat
  · intro last
    obtain ⟨s, rfl⟩ := List.getLast?_eq_some_iff.mp last
    rw [signs_append_plain (not_isPunctuation_of_isBlankChar blank)]
    exact List.getLast?_concat

theorem slash_not_mem_of_blank (blank : ∀ c ∈ t, Text.isBlankChar c = true) : '\\' ∉ t :=
  fun hm => absurd (blank _ hm) (by decide)

theorem not_endsEscaping_of_blank (blank : ∀ c ∈ t, Text.isBlankChar c = true) :
    ¬ EndsEscaping t :=
  not_endsEscaping_of_not_mem (slash_not_mem_of_blank blank)

theorem exists_of_isPadSign {x : Option Char} (pad : isPadSign x = true) :
    ∃ c, x = some c ∧ Text.isBlankChar c = true := by
  cases x with
  | none => cases pad
  | some c => exact ⟨c, rfl, pad⟩

theorem signs_dropWhile (t : Text) :
    signs (t.dropWhile Text.isBlankChar) = (signs t).dropWhile isPadSign := by
  induction t with
  | nil => rfl
  | cons c t ih =>
    cases blank : Text.isBlankChar c with
    | true =>
      have first := signs_append_plain (not_isPunctuation_of_isBlankChar blank) [] t
      have pad : isPadSign (some c) = true := blank
      rw [List.nil_append] at first
      rw [List.dropWhile_cons_of_pos blank, ih, first]
      exact (List.dropWhile_cons_of_pos pad).symm
    | false =>
      rw [List.dropWhile_cons_of_neg (by simp [blank])]
      cases written : signs (c :: t) with
      | nil => rfl
      | cons x m =>
        have shown : ¬ isPadSign x = true := by
          intro pad
          obtain ⟨d, rfl, hd⟩ := exists_of_isPadSign pad
          have head := (head?_signs_iff hd).mp (congrArg List.head? written)
          rw [Option.some.inj head, hd] at blank
          cases blank
        rw [List.dropWhile_cons_of_neg shown]

theorem signs_rdropWhile (t : Text) :
    signs (t.rdropWhile Text.isBlankChar) = (signs t).rdropWhile isPadSign := by
  induction t using List.reverseRecOn with
  | nil => rfl
  | append_singleton t c ih =>
    cases blank : Text.isBlankChar c with
    | true =>
      have last := signs_append_plain (not_isPunctuation_of_isBlankChar blank) t []
      rw [List.rdropWhile_concat_pos _ _ _ blank, ih, last]
      exact (List.rdropWhile_concat_pos isPadSign (signs t) (some c) blank).symm
    | false =>
      rw [List.rdropWhile_concat_neg _ _ _ (by simp [blank]), eq_comm, List.rdropWhile_eq_self_iff]
      intro filled pad
      obtain ⟨d, hx, hd⟩ := exists_of_isPadSign pad
      have last := List.getLast?_eq_some_getLast filled
      rw [hx, getLast?_signs_iff hd, List.getLast?_concat] at last
      rw [Option.some.inj last, hd] at blank
      cases blank

theorem signs_strip (t : Text) : signs (Text.strip t) = trimSigns (signs t) :=
  (signs_rdropWhile (t.dropWhile Text.isBlankChar)).trans
    (congrArg (List.rdropWhile isPadSign) (signs_dropWhile t))

end trimmed

section trimSigns

variable {m : List (Option Char)}

theorem trimSigns_trimSigns (m : List (Option Char)) : trimSigns (trimSigns m) = trimSigns m := by
  rw [trimSigns, trimSigns, Text.dropWhile_rdropWhile, List.rdropWhile_idempotent,
    List.dropWhile_idempotent]

theorem reverse_trimSigns (m : List (Option Char)) :
    (trimSigns m).reverse = trimSigns m.reverse := by
  rw [trimSigns, List.rdropWhile, List.reverse_reverse, ← List.rdropWhile_reverse,
    Text.dropWhile_rdropWhile]
  rfl

theorem trimSigns_append {b : List (Option Char)} (pads : ∀ x ∈ b, isPadSign x = true)
    (m : List (Option Char)) : trimSigns (m ++ b) = trimSigns m := by
  have behind (m : List (Option Char)) :
      (m ++ b).rdropWhile isPadSign = m.rdropWhile isPadSign := by
    rw [List.rdropWhile, List.reverse_append, List.dropWhile_append_of_pos]
    · rfl
    · intro x hx
      exact pads x (List.mem_reverse.mp hx)
  rw [trimSigns, trimSigns, List.dropWhile_append]
  split
  · rename_i none
    rw [List.isEmpty_iff] at none
    rw [none, List.dropWhile_eq_nil_iff.mpr pads]
  · exact behind _

/-- White space at the ends is outside of strong text. -/
theorem enclosed_trimSigns (m : List (Option Char)) :
    enclosed (segments (trimSigns m)) = enclosed (segments m) := by
  have front (m : List (Option Char)) :
      enclosed (segments (m.dropWhile isPadSign)) = enclosed (segments m) := by
    induction m with
    | nil => rfl
    | cons x m ih =>
      rw [List.dropWhile_cons]
      split
      · rename_i pad
        obtain ⟨c, rfl, -⟩ := exists_of_isPadSign pad
        rw [ih, segments, enclosed_modifyHead]
      · rfl
  have back (m : List (Option Char)) :
      enclosed (segments (m.rdropWhile isPadSign)) = enclosed (segments m) := by
    induction m using List.reverseRecOn with
    | nil => rfl
    | append_singleton m x ih =>
      rw [List.rdropWhile_concat]
      split
      · rename_i pad
        obtain ⟨c, rfl, -⟩ := exists_of_isPadSign pad
        rw [ih, enclosed_append_char]
      · rfl
  rw [trimSigns, back, front]

theorem count_none_trimSigns (m : List (Option Char)) :
    (trimSigns m).count none = m.count none := by
  have shown : ∀ x, isPadSign x = true → (x == none) = false := by
    intro x pad
    obtain ⟨c, rfl, -⟩ := exists_of_isPadSign pad
    rfl
  rw [List.count_eq_length_filter, List.count_eq_length_filter, trimSigns,
    Text.filter_rdropWhile shown, Text.filter_dropWhile shown]

end trimSigns

end Docmark.Markdown
