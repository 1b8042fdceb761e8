import Docmark.Footnote.State
import Docmark.Proofs.Annotation.Marker
import Docmark.Proofs.Text.Signs

/-!
Footnote signs in a text, and texts whose carets all belong to signs. Both are read off the parts of
a text, and counting tells whether a caret is left over.
-/

namespace Docmark.Footnote

open Annotation (IsNumeral)

/-- The digits of the sign that a text begins with, and what follows the sign. -/
def numberSign? : Text → Option (Text × Text)
  | '[' :: '^' :: r =>
    match r.dropWhile Text.isDecimal with
    | ']' :: rest =>
      if (r.takeWhile Text.isDecimal).isEmpty then none else some (r.takeWhile Text.isDecimal, rest)
    | _ => none
  | _ => none

/-- The signs of a text behind which `p` holds. -/
def signsWhere (p : Text → Bool) : Text → List Text
  | [] => []
  | c :: r =>
    match numberSign? (c :: r) with
    | some (d, rest) => if p rest then d :: signsWhere p r else signsWhere p r
    | none => signsWhere p r

def beforeColon (rest : Text) : Bool :=
  rest.head? == some ':'

def signs : Text → List Text :=
  signsWhere fun _ => true

def openSigns : Text → List Text :=
  signsWhere fun rest => !beforeColon rest

def carets (t : Text) : List Char :=
  t.filter (· == '^')

theorem isDecimal_bracket : Text.isDecimal ']' = false :=
  Text.not_isDecimal_of_gap (by decide)

theorem numberSign?_eq_some {t d rest : Text} :
    numberSign? t = some (d, rest) ↔ IsNumeral d ∧ t = '[' :: '^' :: d ++ ']' :: rest := by
  constructor
  · intro h
    unfold numberSign? at h
    split at h
    · rename_i r
      split at h
      · rename_i rest' hr
        split at h
        · cases h
        · rename_i ne
          obtain ⟨rfl, rfl⟩ := Prod.mk.inj (Option.some.inj h)
          refine ⟨⟨by simpa using ne, List.all_eq_true.mp List.all_takeWhile⟩, ?_⟩
          have whole := List.takeWhile_append_dropWhile (p := Text.isDecimal) (l := r)
          rw [hr] at whole
          rw [List.cons_append, List.cons_append, whole]
      · cases h
    · cases h
  · rintro ⟨⟨ne, digits⟩, rfl⟩
    obtain ⟨front, back⟩ := Text.span_stop digits isDecimal_bracket rest
    rw [List.cons_append, List.cons_append, numberSign?, back]
    simp [front, ne]

theorem numberSign?_of_ne {c : Char} (h : c ≠ '[') (t : Text) : numberSign? (c :: t) = none := by
  cases hs : numberSign? (c :: t) with
  | none => rfl
  | some s =>
    obtain ⟨-, he⟩ := numberSign?_eq_some.mp hs
    exact absurd (List.cons.inj he).1 h

theorem not_parts_of_mem : ∀ c ∈ ['[', '^', ']', ':'], ¬ Text.Parts c := by
  intro c hc parts
  simp only [List.mem_cons, List.not_mem_nil, or_false] at hc
  rcases parts with blank | rfl
  · rcases hc with rfl | rfl | rfl | rfl <;> cases blank
  · revert hc
    decide

/-- No character of a sign is white space or the like. -/
theorem not_parts_of_mem_sign {d : Text} (hd : IsNumeral d) :
    ∀ c ∈ '[' :: '^' :: d ++ [']'], ¬ Text.Parts c := by
  intro c hc parts
  simp only [List.cons_append, List.mem_cons, List.mem_append, List.not_mem_nil, or_false] at hc
  rcases hc with rfl | rfl | digit | rfl
  · exact not_parts_of_mem '[' (by simp) parts
  · exact not_parts_of_mem '^' (by simp) parts
  · have decimal := hd.2 c digit
    rcases parts with blank | rfl
    · rw [Text.not_isDecimal_of_isBlankChar blank] at decimal
      cases decimal
    · rw [Text.not_isDecimal_of_gap (by decide)] at decimal
      cases decimal
  · exact not_parts_of_mem ']' (by simp) parts

/-- So a sign does not reach over it. -/
theorem numberSign?_append {c : Char} (parts : Text.Parts c) (t u : Text) :
    numberSign? (t ++ c :: u) = (numberSign? t).map fun s => (s.1, s.2 ++ c :: u) := by
  cases hs : numberSign? t with
  | some s =>
    obtain ⟨d, rest⟩ := s
    obtain ⟨numeral, rfl⟩ := numberSign?_eq_some.mp hs
    exact numberSign?_eq_some.mpr ⟨numeral, by simp⟩
  | none =>
    -- A sign of the whole would end before the white space, and be one of the part.
    have not_here {d w : Text} (numeral : IsNumeral d) (sign : t = '[' :: '^' :: d ++ ']' :: w) :
        False := by
      rw [numberSign?_eq_some.mpr ⟨numeral, sign⟩] at hs
      cases hs
    cases hs' : numberSign? (t ++ c :: u) with
    | none => rfl
    | some s =>
      obtain ⟨d, rest⟩ := s
      obtain ⟨numeral, he⟩ := numberSign?_eq_some.mp hs'
      have whole : t ++ c :: u = ('[' :: '^' :: d ++ [']']) ++ rest := by simpa using he
      rcases List.append_eq_append_iff.mp whole with ⟨w, sign, after⟩ | ⟨w, sign, -⟩
      · cases w with
        | nil => exact (not_here (w := []) numeral (by simpa using sign.symm)).elim
        | cons e w =>
          obtain ⟨rfl, -⟩ := List.cons.inj after
          exact absurd parts (not_parts_of_mem_sign numeral c (by rw [sign]; simp))
      · exact (not_here (w := w) numeral (by simpa using sign)).elim

theorem foreign_open : Text.Foreign '[' :=
  ⟨by decide, Text.not_isDecimal_of_gap (by decide), by decide, by decide, by decide⟩

theorem foreign_caret : Text.Foreign '^' :=
  ⟨by decide, Text.not_isDecimal_of_gap (by decide), by decide, by decide, by decide⟩

section signsWhere

variable {p : Text → Bool}

theorem signsWhere_of_none {c : Char} {t : Text} (none : numberSign? (c :: t) = none) :
    signsWhere p (c :: t) = signsWhere p t := by
  rw [signsWhere, none]

theorem signsWhere_of_some {c : Char} {t d rest : Text}
    (sign : numberSign? (c :: t) = some (d, rest)) :
    signsWhere p (c :: t) = if p rest then d :: signsWhere p t else signsWhere p t := by
  rw [signsWhere, sign]

theorem signsWhere_of_ne {c : Char} (ne : c ≠ '[') (t : Text) :
    signsWhere p (c :: t) = signsWhere p t :=
  signsWhere_of_none (numberSign?_of_ne ne t)

theorem signsWhere_of_not_mem {t : Text} (none : '[' ∉ t) (u : Text) :
    signsWhere p (t ++ u) = signsWhere p u := by
  induction t with
  | nil => rfl
  | cons c t ih =>
    rw [List.mem_cons, not_or] at none
    rw [List.cons_append, signsWhere_of_ne (Ne.symm none.1), ih none.2]

theorem open_not_mem_sign {d : Text} (hd : IsNumeral d) : '[' ∉ '^' :: d ++ [']'] := by
  have digits := hd.not_mem foreign_open.decimal
  simp [digits]

theorem signsWhere_sign {d : Text} (hd : IsNumeral d) (t : Text) :
    signsWhere p ('[' :: '^' :: d ++ ']' :: t) =
      if p t then d :: signsWhere p t else signsWhere p t := by
  have inside : signsWhere p ('^' :: d ++ ']' :: t) = signsWhere p t := by
    have := signsWhere_of_not_mem (p := p) (open_not_mem_sign hd) t
    rwa [List.append_assoc] at this
  have sign : numberSign? ('[' :: '^' :: d ++ ']' :: t) = some (d, t) :=
    numberSign?_eq_some.mpr ⟨hd, rfl⟩
  rw [List.cons_append] at sign ⊢
  rw [signsWhere_of_some sign, inside]

/-- Signs are read off the parts of a text, where white space decides what follows a sign. -/
theorem signs_signsWhere (hp : ∀ {c : Char}, Text.Parts c → ∀ t u, p (t ++ c :: u) = p t) :
    Text.Signs '[' (signsWhere p) where
  foreign := foreign_open
  empty := rfl
  skip := signsWhere_of_ne
  part := by
    intro c parts t u
    have apart : c ≠ '[' := fun he => foreign_open.not_parts (he ▸ parts)
    induction t with
    | nil => exact signsWhere_of_ne apart u
    | cons d t ih =>
      have longer := numberSign?_append parts (d :: t) u
      rw [List.cons_append] at longer ⊢
      cases sign : numberSign? (d :: t) with
      | none =>
        rw [sign] at longer
        rw [signsWhere_of_none longer, signsWhere_of_none sign, ih]
      | some s =>
        rw [sign] at longer
        rw [signsWhere_of_some longer, signsWhere_of_some sign, ih, hp parts]
        split <;> rfl

end signsWhere

theorem mem_signs {p : Text → Bool} {t d : Text} (h : d ∈ signsWhere p t) : d ∈ signs t := by
  induction t with
  | nil => cases h
  | cons c t ih =>
    rw [signs]
    cases sign : numberSign? (c :: t) with
    | none =>
      rw [signsWhere_of_none sign] at h ⊢
      exact ih h
    | some s =>
      rw [signsWhere_of_some sign] at h ⊢
      rw [if_pos rfl]
      split at h
      · exact List.mem_cons.mpr ((List.mem_cons.mp h).imp_right ih)
      · exact List.mem_cons_of_mem _ (ih h)

theorem beforeColon_iff {t : Text} : beforeColon t = true ↔ ∃ r, t = ':' :: r := by
  cases t with
  | nil => simp [beforeColon]
  | cons c r => simp [beforeColon]

theorem beforeColon_append {c : Char} (parts : Text.Parts c) (t u : Text) :
    beforeColon (t ++ c :: u) = beforeColon t := by
  cases t with
  | nil =>
    have other : c ≠ ':' := by
      rintro rfl
      exact not_parts_of_mem ':' (by simp) parts
    simp [beforeColon, other]
  | cons d t => rfl

theorem signs_signs : Text.Signs '[' signs :=
  signs_signsWhere fun _ _ _ => rfl

theorem signs_openSigns : Text.Signs '[' openSigns :=
  signs_signsWhere fun parts t u => by rw [beforeColon_append parts]

theorem signs_carets : Text.Signs '^' carets where
  foreign := foreign_caret
  empty := rfl
  skip := fun ne t => by simp [carets, ne]
  part := fun {c} parts t u => by
    have apart : c ≠ '^' := fun he => foreign_caret.not_parts (he ▸ parts)
    simp [carets, apart]

/-- Texts one after the other may form more signs together, but keep theirs. -/
theorem signs_append_sublist (t u : Text) : (signs t ++ signs u).Sublist (signs (t ++ u)) := by
  induction t with
  | nil => exact List.Sublist.refl _
  | cons c t ih =>
    rw [List.cons_append, signs]
    cases sign : numberSign? (c :: t) with
    | some s =>
      obtain ⟨d, rest⟩ := s
      obtain ⟨numeral, he⟩ := numberSign?_eq_some.mp sign
      have longer : numberSign? (c :: (t ++ u)) = some (d, rest ++ u) := by
        refine numberSign?_eq_some.mpr ⟨numeral, ?_⟩
        rw [← List.cons_append, he]
        simp
      rw [signsWhere_of_some sign, signsWhere_of_some longer]
      exact ih.cons_cons d
    | none =>
      rw [signsWhere_of_none sign]
      cases whole : numberSign? (c :: (t ++ u)) with
      | some s =>
        rw [signsWhere_of_some whole]
        exact ih.cons s.1
      | none =>
        rw [signsWhere_of_none whole]
        exact ih

theorem carets_of_ne {c : Char} (h : c ≠ '^') (t : Text) : carets (c :: t) = carets t :=
  signs_carets.skip h t

theorem carets_caret (t : Text) : carets ('^' :: t) = '^' :: carets t :=
  List.filter_cons_of_pos (by decide)

theorem signs_caret (t : Text) : signs ('^' :: t) = signs t :=
  signsWhere_of_ne (by decide) t

/-- Every sign has a caret of its own. -/
theorem length_signs_le (t : Text) : (signs t).length ≤ (carets t).length := by
  -- The caret of a sign is the character after the bracket, which the part behind it still counts.
  have both : (signs t).length ≤ (carets t).length ∧
      (t.head? = some '^' → (signs t).length < (carets t).length) := by
    induction t with
    | nil => exact ⟨Nat.le_refl _, by simp⟩
    | cons c r ih =>
      by_cases caret : c = '^'
      · subst caret
        rw [carets_caret, signs_caret, List.length_cons]
        omega
      · refine ⟨?_, by simp [caret]⟩
        rw [carets_of_ne caret]
        cases sign : numberSign? (c :: r) with
        | none =>
          rw [signs, signsWhere_of_none sign]
          exact ih.1
        | some s =>
          obtain ⟨d, rest⟩ := s
          obtain ⟨-, he⟩ := numberSign?_eq_some.mp sign
          have next : r.head? = some '^' := by
            rw [(List.cons.inj he).2]
            rfl
          have strict := ih.2 next
          rw [signs, signsWhere_of_some sign]
          exact strict
  exact both.1

/-- A caret at the begin of a text belongs to none of its signs. -/
theorem length_signs_caret_lt (t : Text) :
    (signs ('^' :: t)).length < (carets ('^' :: t)).length := by
  rw [signs_caret, carets_caret]
  exact Nat.lt_succ_of_le (length_signs_le t)

/-- A text whose carets all belong to signs. -/
inductive Signed : Text → Prop
  | nil : Signed []
  | char {c : Char} {t : Text} (caret : c ≠ '^') (bracket : c = '[' → t.head? ≠ some '^')
    (rest : Signed t) : Signed (c :: t)
  | sign {d t : Text} (numeral : IsNumeral d) (rest : Signed t) :
    Signed ('[' :: '^' :: d ++ ']' :: t)

theorem carets_sign {d : Text} (hd : IsNumeral d) (t : Text) :
    carets ('[' :: '^' :: d ++ ']' :: t) = '^' :: carets t := by
  have digits : '^' ∉ d := hd.not_mem foreign_caret.decimal
  have none : d.filter (· == '^') = [] := by
    rw [List.filter_eq_nil_iff]
    intro c hc
    rw [beq_iff_eq]
    rintro rfl
    exact digits hc
  simp [carets, none]

theorem signed_of_length_le {t : Text} (h : (carets t).length ≤ (signs t).length) : Signed t := by
  induction hn : t.length using Nat.strong_induction_on generalizing t with
  | _ n ih =>
    cases t with
    | nil => exact .nil
    | cons c r =>
      cases sign : numberSign? (c :: r) with
      | some s =>
        obtain ⟨d, rest⟩ := s
        obtain ⟨numeral, he⟩ := numberSign?_eq_some.mp sign
        rw [he] at h hn ⊢
        rw [carets_sign numeral, signs, signsWhere_sign numeral, if_pos rfl] at h
        refine .sign numeral (ih rest.length ?_ (Nat.le_of_succ_le_succ h) rfl)
        rw [← hn]
        simp
        omega
      | none =>
        have same : signs (c :: r) = signs r := signsWhere_of_none sign
        have caret : c ≠ '^' := by
          rintro rfl
          exact absurd h (Nat.not_le.mpr (length_signs_caret_lt r))
        rw [carets_of_ne caret, same] at h
        refine .char caret ?_ (ih r.length (by rw [← hn]; simp) h rfl)
        rintro rfl next
        obtain ⟨r', rfl⟩ := List.head?_eq_some_iff.mp next
        exact absurd h (Nat.not_le.mpr (length_signs_caret_lt r'))

/-- Counting tells whether all carets belong to signs. -/
theorem signed_iff {t : Text} : Signed t ↔ (carets t).length ≤ (signs t).length := by
  refine ⟨fun h => ?_, signed_of_length_le⟩
  induction h with
  | nil => exact Nat.le_refl 0
  | @char c t caret bracket rest ih =>
    have more := signs_append_sublist [c] t
    have none : signs [c] = [] := by
      cases sign : numberSign? [c] with
      | none => exact signsWhere_of_none sign
      | some s =>
        obtain ⟨-, he⟩ := numberSign?_eq_some.mp sign
        simp at he
    rw [none, List.nil_append] at more
    rw [carets_of_ne caret]
    exact ih.trans more.length_le
  | @sign d t numeral rest ih =>
    rw [carets_sign numeral, signs, signsWhere_sign numeral, if_pos rfl]
    exact Nat.succ_le_succ ih

instance : DecidablePred Signed :=
  fun _ => decidable_of_iff _ signed_iff.symm

/-- Since no part has more signs than carets, none has more carets in a whole that has not. -/
theorem signed_parts (ts : List Text) :
    (ts.flatMap carets).length ≤ (ts.flatMap signs).length ↔ ∀ t ∈ ts, Signed t := by
  induction ts with
  | nil => simp
  | cons t ts ih =>
    have here := length_signs_le t
    have others : (ts.flatMap signs).length ≤ (ts.flatMap carets).length := by
      rw [← signs_signs.unlines, ← signs_carets.unlines]
      exact length_signs_le _
    rw [List.flatMap_cons, List.flatMap_cons, List.length_append, List.length_append,
      List.forall_mem_cons, ← ih, signed_iff]
    omega

theorem signed_joinBlocks {bs : List Text} : Signed (Text.joinBlocks bs) ↔ ∀ b ∈ bs, Signed b := by
  rw [signed_iff, signs_carets.joinBlocks, signs_signs.joinBlocks, signed_parts]

theorem signed_lines {t : Text} : (∀ l ∈ Text.lines t, Signed l) ↔ Signed t := by
  rw [← signed_parts, signs_carets.lines, signs_signs.lines, signed_iff]

end Docmark.Footnote
