import Docmark.Text.Digit
import Mathlib.Data.List.DropRight
import Mathlib.Data.List.TakeWhile

/-!
What trimming takes off the ends of a text, and what it leaves there; white space, digits and the
characters of markers are different characters.
-/

namespace Docmark.Text

section span

variable {α : Type} {as : List α} {a : α}

/-- A scan goes to the first member of another kind. -/
theorem span_stop {p : α → Bool} (inside : ∀ b ∈ as, p b = true) (stop : p a = false)
    (bs : List α) :
    (as ++ a :: bs).takeWhile p = as ∧ (as ++ a :: bs).dropWhile p = a :: bs := by
  constructor
  · rw [List.takeWhile_append_of_pos inside, List.takeWhile_cons_of_neg (by simp [stop]),
      List.append_nil]
  · rw [List.dropWhile_append_of_pos inside, List.dropWhile_cons_of_neg (by simp [stop])]

theorem span_ne [BEq α] [LawfulBEq α] (new : a ∉ as) (bs : List α) :
    (as ++ a :: bs).takeWhile (· != a) = as ∧ (as ++ a :: bs).dropWhile (· != a) = a :: bs := by
  refine span_stop (fun b hb => ?_) (by simp) bs
  rw [bne_iff_ne]
  rintro rfl
  exact new hb

/-- The last character stays the last one of what is left when others in front are taken off. -/
theorem getLast?_of_dropWhile {p : α → Bool}
    (h : (as.dropWhile p).getLast? = some a) : as.getLast? = some a := by
  rw [← List.takeWhile_append_dropWhile (p := p) (l := as), List.getLast?_append, h]
  rfl

theorem filter_rdropWhile {p q : α → Bool} (h : ∀ a, p a = true → q a = false)
    (as : List α) : (as.rdropWhile p).filter q = as.filter q := by
  induction as using List.reverseRecOn with
  | nil => rfl
  | append_singleton as a ih =>
    rw [List.rdropWhile_concat]
    split
    · rename_i dropped
      rw [ih, List.filter_append, List.filter_singleton, h a dropped]
      simp
    · rfl

theorem filter_dropWhile {p q : α → Bool} (h : ∀ a, p a = true → q a = false)
    (as : List α) : (as.dropWhile p).filter q = as.filter q := by
  induction as with
  | nil => rfl
  | cons a as ih =>
    rw [List.dropWhile_cons]
    split
    · rename_i dropped
      rw [ih, List.filter_cons_of_neg (by simp [h a dropped])]
    · rfl

theorem rdropWhile_cons (p : α → Bool) (a : α) (as : List α) :
    (a :: as).rdropWhile p =
      if as.rdropWhile p = [] ∧ p a = true then [] else a :: as.rdropWhile p := by
  simp only [List.rdropWhile, List.reverse_cons, List.dropWhile_append, List.reverse_eq_nil_iff,
    List.isEmpty_iff]
  by_cases none : as.reverse.dropWhile p = []
  · by_cases ha : p a = true
    · simp [none, ha]
    · simp [none, ha]
  · simp [none]

theorem rdropWhile_map {β : Type} (f : β → α) (p : α → Bool) (bs : List β) :
    (bs.map f).rdropWhile p = (bs.rdropWhile (p ∘ f)).map f := by
  rw [List.rdropWhile, List.rdropWhile, ← List.map_reverse, List.dropWhile_map, List.map_reverse]

/-- The ends of a list can be trimmed in any order. -/
theorem dropWhile_rdropWhile (p : α → Bool) (as : List α) :
    (as.rdropWhile p).dropWhile p = (as.dropWhile p).rdropWhile p := by
  induction as with
  | nil => rfl
  | cons a as ih =>
    rw [rdropWhile_cons]
    by_cases ha : p a = true
    · rw [List.dropWhile_cons_of_pos ha, ← ih]
      split
      · rename_i none
        rw [none.1]
      · exact List.dropWhile_cons_of_pos ha
    · rw [if_neg fun h => ha h.2, List.dropWhile_cons_of_neg ha, List.dropWhile_cons_of_neg ha,
        rdropWhile_cons, if_neg fun h => ha h.2]

end span

theorem after?_append (p r : Text) : after? p (p ++ r) = some r := by
  rw [after?, if_pos (List.isPrefixOf_iff_prefix.mpr (List.prefix_append p r)), List.drop_left]

theorem after?_of_other {p t : Text} (begins : ¬ p <+: t) : after? p t = none := by
  rw [after?, if_neg (mt List.isPrefixOf_iff_prefix.mp begins)]

theorem eq_of_after? {p t r : Text} (h : after? p t = some r) : t = p ++ r := by
  rw [after?] at h
  split at h
  · rename_i front
    obtain ⟨s, rfl⟩ := List.isPrefixOf_iff_prefix.mp front
    cases h
    simp
  · cases h

theorem dropEndWhile_append_takeEndWhile (p : Char → Bool) (t : Text) :
    dropEndWhile p t ++ takeEndWhile p t = t := by
  rw [dropEndWhile, takeEndWhile, ← List.reverse_append, List.takeWhile_append_dropWhile,
    List.reverse_reverse]

theorem of_mem_takeEndWhile {p : Char → Bool} {t : Text} {c : Char} (h : c ∈ takeEndWhile p t) :
    p c = true :=
  List.all_eq_true.mp List.all_takeWhile c (List.mem_reverse.mp h)

theorem takeEndWhile_of_all {p : Char → Bool} {t : Text} (h : t.all p = true) :
    takeEndWhile p t = t :=
  List.rtakeWhile_eq_self_iff.mpr (List.all_eq_true.mp h)

/-- The end of a text goes on to its first character where nothing else is in it. -/
theorem takeEndWhile_cons (p : Char → Bool) (c : Char) (r : Text) :
    takeEndWhile p (c :: r) = if (c :: r).all p then c :: r else takeEndWhile p r := by
  split
  · rename_i whole
    exact takeEndWhile_of_all whole
  · rename_i part
    rw [takeEndWhile, List.reverse_cons, List.takeWhile_append, takeEndWhile]
    split
    · rename_i all
      have run : r.reverse.takeWhile p = r.reverse := (List.takeWhile_prefix p).eq_of_length all
      have inside : r.all p = true := by simpa [List.takeWhile_eq_self_iff] using run
      have stop : p c = false := by simpa [inside] using part
      simp [stop, run]
    · rfl

/-- Trimming takes off characters of the given kind only. -/
theorem exists_dropEndWhile (p : Char → Bool) (t : Text) :
    ∃ b, t = dropEndWhile p t ++ b ∧ ∀ c ∈ b, p c = true :=
  ⟨takeEndWhile p t, (dropEndWhile_append_takeEndWhile p t).symm, fun _ hc => of_mem_takeEndWhile hc⟩

theorem mem_of_mem_dropEndWhile {p : Char → Bool} {t : Text} {c : Char}
    (h : c ∈ dropEndWhile p t) : c ∈ t := by
  obtain ⟨b, hb, -⟩ := exists_dropEndWhile p t
  rw [hb]
  exact List.mem_append_left b h

theorem exists_dropAround (p : Char → Bool) (t : Text) :
    ∃ a b, t = a ++ dropAround p t ++ b ∧ (∀ c ∈ a, p c = true) ∧ ∀ c ∈ b, p c = true := by
  obtain ⟨b, hb, hp⟩ := exists_dropEndWhile p (t.dropWhile p)
  refine ⟨t.takeWhile p, b, ?_, List.all_eq_true.mp List.all_takeWhile, hp⟩
  rw [dropAround, List.append_assoc, ← hb, List.takeWhile_append_dropWhile]

/-- Trimming ends at a character of another kind. -/
theorem not_getLast?_dropEndWhile {p : Char → Bool} {t : Text} {c : Char}
    (h : (dropEndWhile p t).getLast? = some c) : p c = false := by
  rw [dropEndWhile, List.getLast?_reverse] at h
  have := List.head?_dropWhile_not p t.reverse
  rw [h] at this
  simpa using this

theorem dropEndWhile_of_not_getLast? {p : Char → Bool} {t : Text}
    (h : ∀ c, t.getLast? = some c → p c = false) : dropEndWhile p t = t := by
  rw [dropEndWhile]
  cases hr : t.reverse with
  | nil => simpa using hr.symm
  | cons c r =>
    have hc : p c = false := h c (by rw [← List.head?_reverse, hr]; rfl)
    rw [List.dropWhile_cons_of_neg (by simp [hc]), ← hr, List.reverse_reverse]

/-- Trimming the end goes on to the first character where nothing is left behind it. -/
theorem dropEndWhile_cons (p : Char → Bool) (c : Char) (r : Text) :
    dropEndWhile p (c :: r) =
      if dropEndWhile p r = [] ∧ p c = true then [] else c :: dropEndWhile p r :=
  rdropWhile_cons p c r

theorem dropEndWhile_cons_of_neg {p : Char → Bool} {c : Char} (h : p c = false) (r : Text) :
    dropEndWhile p (c :: r) = c :: dropEndWhile p r := by
  simp [dropEndWhile_cons, h]

theorem dropWhile_of_not_head? {p : Char → Bool} {t : Text}
    (h : ∀ c, t.head? = some c → p c = false) : t.dropWhile p = t := by
  cases t with
  | nil => rfl
  | cons c r => simp [h c rfl]

/-- Trimming the front does not reach into a text that begins with another character. -/
theorem dropWhile_append_of_not_head? {p : Char → Bool} {u : Text}
    (h : ∀ c, u.head? = some c → p c = false) (t : Text) :
    (t ++ u).dropWhile p = t.dropWhile p ++ u := by
  rw [List.dropWhile_append]
  split
  · rename_i none
    rw [List.isEmpty_iff.mp none, List.nil_append]
    exact dropWhile_of_not_head? h
  · rfl

/-- Trimming the end goes on to the first part where nothing is left of the second. -/
theorem dropEndWhile_append (p : Char → Bool) (t u : Text) :
    dropEndWhile p (t ++ u) =
      if dropEndWhile p u = [] then dropEndWhile p t else t ++ dropEndWhile p u := by
  simp only [dropEndWhile, List.reverse_append, List.dropWhile_append, List.reverse_eq_nil_iff,
    List.isEmpty_iff]
  split
  · rfl
  · rw [List.reverse_append, List.reverse_reverse]

theorem dropEndWhile_eq_nil_iff {p : Char → Bool} {t : Text} :
    dropEndWhile p t = [] ↔ ∀ c ∈ t, p c = true := by
  rw [dropEndWhile, List.reverse_eq_nil_iff, List.dropWhile_eq_nil_iff]
  simp only [List.mem_reverse]

theorem dropEndWhile_append_of_pos {p : Char → Bool} {u : Text} (h : ∀ c ∈ u, p c = true)
    (t : Text) : dropEndWhile p (t ++ u) = dropEndWhile p t := by
  rw [dropEndWhile_append, if_pos (dropEndWhile_eq_nil_iff.mpr h)]

theorem dropAround_of_ends {p : Char → Bool} {t : Text}
    (front : ∀ c, t.head? = some c → p c = false)
    (back : ∀ c, t.getLast? = some c → p c = false) : dropAround p t = t := by
  rw [dropAround, dropWhile_of_not_head? front, dropEndWhile_of_not_getLast? back]

theorem not_head?_dropAround {p : Char → Bool} {t : Text} {c : Char}
    (h : (dropAround p t).head? = some c) : p c = false := by
  obtain ⟨b, hb, _⟩ := exists_dropEndWhile p (t.dropWhile p)
  have hd : (t.dropWhile p).head? = some c := by
    rw [hb]
    rw [dropAround] at h
    cases hx : dropEndWhile p (t.dropWhile p) with
    | nil => simp [hx] at h
    | cons d r => simpa [hx] using h
  have := List.head?_dropWhile_not p t
  rw [hd] at this
  simpa using this

theorem not_getLast?_dropAround {p : Char → Bool} {t : Text} {c : Char}
    (h : (dropAround p t).getLast? = some c) : p c = false :=
  not_getLast?_dropEndWhile h

/-- A trimmed text is not trimmed any further. -/
theorem dropAround_dropAround (p : Char → Bool) (t : Text) :
    dropAround p (dropAround p t) = dropAround p t :=
  dropAround_of_ends (fun _ h => not_head?_dropAround h) (fun _ h => not_getLast?_dropAround h)

theorem dropAround_eq_nil_iff {p : Char → Bool} {t : Text} :
    dropAround p t = [] ↔ ∀ c ∈ t, p c = true := by
  constructor
  · intro h c hc
    obtain ⟨a, b, ht, ha, hb⟩ := exists_dropAround p t
    rw [ht, h] at hc
    rcases List.mem_append.mp hc with hc | hc
    · exact ha c (by simpa using hc)
    · exact hb c hc
  · intro h
    rw [dropAround, List.dropWhile_eq_nil_iff.mpr h]
    rfl

theorem isBlankChar_of_eq_newline {c : Char} (h : c = '\n') : isBlankChar c = true := by
  rw [h]
  decide

theorem strip_eq_nil_iff {t : Text} : strip t = [] ↔ isBlank t = true := by
  rw [strip, dropAround_eq_nil_iff, isBlank, List.all_eq_true]

theorem isBlank_strip (t : Text) : isBlank (strip t) = isBlank t := by
  rw [Bool.eq_iff_iff, ← strip_eq_nil_iff, ← strip_eq_nil_iff (t := t)]
  simp [strip, dropAround_dropAround]

theorem trimNewlines_of_not_mem {t : Text} (h : '\n' ∉ t) : trimNewlines t = t := by
  refine dropAround_of_ends (fun c hc => ?_) (fun c hc => ?_)
  · simpa using fun he : c = '\n' => h (he ▸ List.mem_of_mem_head? hc)
  · simpa using fun he : c = '\n' => h (he ▸ List.mem_of_mem_getLast? hc)

theorem isBlank_append (t u : Text) :
    isBlank (t ++ u) = (isBlank t && isBlank u) :=
  List.all_append

/-- Line feeds at the ends are white space. -/
theorem isBlank_trimNewlines (t : Text) : isBlank (trimNewlines t) = isBlank t := by
  obtain ⟨a, b, whole, ha, hb⟩ := exists_dropAround (· == '\n') t
  have feeds {u : Text} (h : ∀ c ∈ u, (c == '\n') = true) : isBlank u = true :=
    List.all_eq_true.mpr fun c hc => by rw [beq_iff_eq.mp (h c hc)]; decide
  have cut := congrArg isBlank whole
  rw [isBlank_append, isBlank_append, feeds ha, feeds hb, Bool.true_and, Bool.and_true] at cut
  exact cut.symm

theorem ne_nil_of_not_isBlank {t : Text} (h : isBlank t = false) : t ≠ [] := by
  rintro rfl
  cases h

/-- What is taken off the end does not matter, also where nothing in front of it is left. -/
theorem dropEndWhile_dropWhile_append {p q : Char → Bool} {u : Text} (h : ∀ c ∈ u, q c = true)
    (t : Text) : dropEndWhile q ((t ++ u).dropWhile p) = dropEndWhile q (t.dropWhile p) := by
  rw [List.dropWhile_append]
  split
  · rename_i none
    rw [List.isEmpty_iff.mp none]
    exact dropEndWhile_eq_nil_iff.mpr fun c hc => h c ((List.dropWhile_subset p) hc)
  · exact dropEndWhile_append_of_pos h _

theorem strip_append_blank (t : Text) {b : Text} (h : ∀ c ∈ b, isBlankChar c = true) :
    strip (t ++ b) = strip t :=
  dropEndWhile_dropWhile_append h t

theorem infix_strip (t : Text) : strip t <:+: t := by
  obtain ⟨a, b, ht, -, -⟩ := exists_dropAround isBlankChar t
  exact ⟨a, b, ht.symm⟩

theorem mem_of_mem_strip {t : Text} {c : Char} (h : c ∈ strip t) : c ∈ t :=
  (infix_strip t).subset h

/-- A text that is not empty and has no white space at its ends. -/
structure Trimmed (t : Text) : Prop where
  ne_nil : t ≠ []
  stripped : strip t = t

theorem Trimmed.head {t : Text} (h : Trimmed t) {c : Char} (hc : t.head? = some c) :
    isBlankChar c = false := by
  rw [← h.stripped] at hc
  exact not_head?_dropAround hc

theorem Trimmed.last {t : Text} (h : Trimmed t) {c : Char} (hc : t.getLast? = some c) :
    isBlankChar c = false := by
  rw [← h.stripped] at hc
  exact not_getLast?_dropAround hc

theorem trimmed_of_ends {t : Text} (ne : t ≠ [])
    (front : ∀ c, t.head? = some c → isBlankChar c = false)
    (back : ∀ c, t.getLast? = some c → isBlankChar c = false) : Trimmed t :=
  ⟨ne, dropAround_of_ends front back⟩

theorem trimmed_strip {t : Text} (h : isBlank t = false) : Trimmed (strip t) := by
  refine ⟨fun he => ?_, dropAround_dropAround _ _⟩
  rw [strip_eq_nil_iff.mp he] at h
  cases h

theorem Trimmed.stripStart {t : Text} (h : Trimmed t) : stripStart t = t :=
  dropWhile_of_not_head? fun _ hc => h.head hc

/-- Whatever stands between two such texts. -/
theorem Trimmed.append {t u : Text} (ht : Trimmed t) (v : Text) (hu : Trimmed u) :
    Trimmed (t ++ v ++ u) := by
  obtain ⟨c, r, rfl⟩ := List.exists_cons_of_ne_nil ht.ne_nil
  refine trimmed_of_ends (by simp) (fun d hd => ht.head hd) (fun d hd => hu.last ?_)
  obtain ⟨e, s, rfl⟩ := List.exists_cons_of_ne_nil hu.ne_nil
  rwa [List.getLast?_append, List.getLast?_eq_some_getLast (by simp), Option.some_or,
    ← List.getLast?_eq_some_getLast] at hd

theorem trimmed_joinWith {sep : Text} {ts : List Text} (ne : ts ≠ [])
    (h : ∀ t ∈ ts, Trimmed t) : Trimmed (joinWith sep ts) := by
  induction ts with
  | nil => exact absurd rfl ne
  | cons t ts ih =>
    cases ts with
    | nil => exact h t (by simp)
    | cons u us =>
      exact (h t (by simp)).append sep (ih (by simp) fun v hv => h v (by simp [hv]))

/-- Where the digits of the scripts stand, as far as it matters here. -/
theorem gap_of_mem_decimalZeros : ∀ z ∈ decimalZeros,
    z = 48 ∨ 1632 ≤ z ∧ z + 9 ≤ 4249 ∨ 6112 ≤ z ∧ z + 9 ≤ 7257 ∨ 42528 ≤ z := by
  decide

theorem not_isDecimal_of_gap {c : Char}
    (gap : c.toNat < 48 ∨ 57 < c.toNat ∧ c.toNat < 1632 ∨ 4249 < c.toNat ∧ c.toNat < 6112 ∨
      7257 < c.toNat ∧ c.toNat < 42528) : isDecimal c = false := by
  have none : decimalZeros.find? (fun z => z ≤ c.toNat && c.toNat ≤ z + 9) = none := by
    rw [List.find?_eq_none]
    intro z hz
    have zero := gap_of_mem_decimalZeros z hz
    simp only [Bool.and_eq_true, decide_eq_true_eq]
    omega
  rw [isDecimal, digitValue?, none]
  rfl

theorem not_isDecimal_of_isBlankChar {c : Char} (h : isBlankChar c = true) :
    isDecimal c = false := by
  simp only [isBlankChar, Bool.or_eq_true, Bool.and_eq_true, decide_eq_true_eq, beq_iff_eq] at h
  exact not_isDecimal_of_gap (by omega)

theorem not_isBlankChar_of_isDecimal {c : Char} (h : isDecimal c = true) :
    isBlankChar c = false := by
  cases hb : isBlankChar c with
  | false => rfl
  | true => simp [not_isDecimal_of_isBlankChar hb] at h

end Docmark.Text
