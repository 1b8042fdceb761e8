import Docmark.Markdown.Escape
import Docmark.Preview.Backslash
import Docmark.Proofs.Text.Trim

/-!
Texts spelled with backslashes: escaping a run, trimming and keeping a line from opening a block
leave a spelling of the text, and taking the backslashes off a spelling gives the text.
-/

namespace Docmark.Markdown

open Preview (isPunctuation unescape)

/--
A text with a backslash before each of its backslashes and before some of its punctuation, and the
text that is meant.
-/
inductive Spells : Text → Text → Prop
  | nil : Spells [] []
  | plain {c : Char} {u t : Text} (bare : c ≠ '\\') (rest : Spells u t) : Spells (c :: u) (c :: t)
  | escaped {c : Char} {u t : Text} (mark : isPunctuation c = true) (rest : Spells u t) :
    Spells ('\\' :: c :: u) (c :: t)

theorem isPunctuation_of_isActive {c : Char} (h : isActive c = true) : isPunctuation c = true := by
  simp only [isActive, Bool.or_eq_true, beq_iff_eq] at h
  rcases h with (((((((rfl | rfl) | rfl) | rfl) | rfl) | rfl) | rfl) | rfl) | rfl
  all_goals decide

theorem not_isBlankChar_of_isPunctuation {c : Char} (h : isPunctuation c = true) :
    Text.isBlankChar c = false := by
  simp only [isPunctuation, Bool.or_eq_true, Bool.and_eq_true, decide_eq_true_eq] at h
  simp only [Text.isBlankChar, Bool.or_eq_false_iff, Bool.and_eq_false_iff, decide_eq_false_iff_not,
    beq_eq_false_iff_ne]
  omega

/-- Reading a spelling from left to right gives what is meant. -/
theorem Spells.unescape {u t : Text} (h : Spells u t) : unescape u = t := by
  induction h with
  | nil => rfl
  | @plain c u t bare _ ih =>
    rw [Preview.unescape, ih]
    intro d r he _
    exact bare he
  | escaped mark _ ih => rw [Preview.unescape, if_pos mark, ih]

theorem Spells.append {u t v w : Text} (h : Spells u t) (h' : Spells v w) :
    Spells (u ++ v) (t ++ w) := by
  induction h with
  | nil => exact h'
  | plain bare _ ih => exact .plain bare ih
  | escaped mark _ ih => exact .escaped mark ih

theorem spells_flatMap {α : Type} {f g : α → Text} {as : List α}
    (h : ∀ a ∈ as, Spells (f a) (g a)) : Spells (as.flatMap f) (as.flatMap g) := by
  induction as with
  | nil => exact .nil
  | cons a as ih => exact (h a (by simp)).append (ih fun b hb => h b (by simp [hb]))

/-- White space is written as it is, and all else is written with something that is none. -/
theorem Spells.isBlank {u t : Text} (h : Spells u t) : Text.isBlank u = Text.isBlank t := by
  induction h with
  | nil => rfl
  | @plain c u t _ _ ih => exact congrArg (Text.isBlankChar c && ·) ih
  | @escaped c u t mark _ _ =>
    have shown : (Text.isBlankChar c && Text.isBlank t) = false := by
      rw [not_isBlankChar_of_isPunctuation mark, Bool.false_and]
    exact shown.symm

theorem Spells.eq_nil_iff {u t : Text} (h : Spells u t) : u = [] ↔ t = [] := by
  cases h <;> simp

/-- Only punctuation is escaped. -/
theorem isPunctuation_of_needsEscape {before after : Option Char} {c : Char}
    (h : needsEscape before c after = true) : isPunctuation c = true := by
  simp only [needsEscape, Bool.or_eq_true, Bool.and_eq_true, beq_iff_eq] at h
  rcases h with (active | ⟨rfl, -⟩) | ⟨rfl, -⟩
  · exact isPunctuation_of_isActive active
  · decide
  · decide

theorem spells_escapeFrom (before : Option Char) (t : Text) : Spells (escapeFrom before t) t := by
  induction t generalizing before with
  | nil => exact .nil
  | cons c r ih =>
    rw [escapeFrom]
    split
    · rename_i needed
      exact .escaped (isPunctuation_of_needsEscape needed) (ih _)
    · rename_i bare
      refine .plain ?_ (ih _)
      rintro rfl
      exact bare rfl

theorem spells_escape (t : Text) : Spells (escape t) t :=
  spells_escapeFrom none t

theorem Spells.dropWhile {u t : Text} (h : Spells u t) :
    Spells (u.dropWhile Text.isBlankChar) (t.dropWhile Text.isBlankChar) := by
  induction h with
  | nil => exact .nil
  | @plain c u t bare rest ih =>
    rw [List.dropWhile_cons, List.dropWhile_cons]
    split
    · exact ih
    · exact .plain bare rest
  | @escaped c u t mark rest ih =>
    have shown := not_isBlankChar_of_isPunctuation mark
    rw [List.dropWhile_cons_of_neg (by decide), List.dropWhile_cons_of_neg (by simp [shown])]
    exact .escaped mark rest

theorem Spells.dropEndWhile {u t : Text} (h : Spells u t) :
    Spells (Text.dropEndWhile Text.isBlankChar u) (Text.dropEndWhile Text.isBlankChar t) := by
  induction h with
  | nil => exact .nil
  | @plain c u t bare _ ih =>
    rw [Text.dropEndWhile_cons, Text.dropEndWhile_cons]
    by_cases all : Text.dropEndWhile Text.isBlankChar t = [] ∧ Text.isBlankChar c = true
    · rw [if_pos all, if_pos ⟨ih.eq_nil_iff.mpr all.1, all.2⟩]
      exact .nil
    · rw [if_neg all, if_neg fun h => all ⟨ih.eq_nil_iff.mp h.1, h.2⟩]
      exact .plain bare ih
  | @escaped c u t mark _ ih =>
    have shown := not_isBlankChar_of_isPunctuation mark
    rw [Text.dropEndWhile_cons_of_neg (by decide), Text.dropEndWhile_cons_of_neg shown,
      Text.dropEndWhile_cons_of_neg shown]
    exact .escaped mark ih

/-- White space is never escaped, so a spelling is trimmed with what it means. -/
theorem Spells.strip {u t : Text} (h : Spells u t) : Spells (Text.strip u) (Text.strip t) :=
  h.dropWhile.dropEndWhile

/-- What the end of a list is not, the end of its tail is not. -/
theorem getLast?_ne_of_cons {α : Type} {a b : α} {as : List α}
    (h : (b :: as).getLast? ≠ some a) : as.getLast? ≠ some a := by
  cases as with
  | nil => simp
  | cons c as => rwa [List.getLast?_cons_cons] at h

/-- Escaping a mark that stands behind no backslash. -/
theorem Spells.insert {a : Text} {c : Char} {b t : Text} (h : Spells (a ++ c :: b) t)
    (free : a.getLast? ≠ some '\\') (mark : isPunctuation c = true) (bare : c ≠ '\\') :
    Spells (a ++ '\\' :: c :: b) t := by
  generalize hw : a ++ c :: b = w at h
  induction h generalizing a with
  | nil => simp at hw
  | @plain d u t unread rest ih =>
    cases a with
    | nil =>
      obtain ⟨rfl, rfl⟩ := List.cons.inj hw
      exact .escaped mark rest
    | cons e a =>
      obtain ⟨rfl, hu⟩ := List.cons.inj hw
      exact .plain unread (ih (getLast?_ne_of_cons free) hu)
  | @escaped d u t mark' rest ih =>
    -- the backslash in front of `d` is no place for another one
    match a, hw with
    | [], hw => exact absurd (List.cons.inj hw).1 bare
    | [e], hw => exact absurd (congrArg some (List.cons.inj hw).1) free
    | e :: f :: a, hw =>
      obtain ⟨rfl, hr⟩ := List.cons.inj hw
      obtain ⟨rfl, hu⟩ := List.cons.inj hr
      exact .escaped mark' (ih (getLast?_ne_of_cons (getLast?_ne_of_cons free)) hu)

/-- A place in a text where a mark stands behind no backslash. -/
def IsOpener (t : Text) (n : Nat) : Prop :=
  ∃ a c b, t = a ++ c :: b ∧ a.length = n ∧ '\\' ∉ a ∧ isPunctuation c = true ∧ c ≠ '\\'

theorem isOpener_head {t : Text} {c : Char} (h : t.head? = some c) (mark : isPunctuation c = true)
    (bare : c ≠ '\\') : IsOpener t 0 := by
  obtain ⟨r, rfl⟩ := List.head?_eq_some_iff.mp h
  exact ⟨[], c, r, rfl, rfl, by simp, mark, bare⟩

/-- Only digits stand before the delimiter of a list marker. -/
theorem exists_of_orderedDelimiter {t : Text} {n : Nat} (h : orderedDelimiter? t = some n) :
    ∃ ds c rest, t = ds ++ c :: rest ∧ ds.length = n ∧ (∀ d ∈ ds, Text.isDecimal d = true) ∧
      (c = '.' ∨ c = ')') ∧ 1 ≤ n ∧ n ≤ 9 ∧ endsMarker rest = true := by
  have whole := List.takeWhile_append_dropWhile (p := Text.isDecimal) (l := t)
  unfold orderedDelimiter? at h
  dsimp only at h
  split at h
  · rename_i c rest hr
    split at h
    · rename_i delimits
      cases h
      rw [hr] at whole
      simp only [Bool.and_eq_true, Bool.or_eq_true, decide_eq_true_eq] at delimits
      obtain ⟨⟨⟨delimiter, some⟩, few⟩, ends⟩ := delimits
      exact ⟨_, c, rest, whole.symm, rfl, List.all_eq_true.mp List.all_takeWhile, delimiter,
        some, few, ends⟩
    · cases h
  · cases h

theorem isOpener_orderedDelimiter {t : Text} {n : Nat} (h : orderedDelimiter? t = some n) :
    IsOpener t n := by
  obtain ⟨ds, c, rest, rfl, length, digits, delimiter, -⟩ := exists_of_orderedDelimiter h
  refine ⟨ds, c, rest, rfl, length, ?_, ?_, ?_⟩
  · intro hm
    have := digits _ hm
    rw [Text.not_isDecimal_of_gap (by decide)] at this
    cases this
  · rcases delimiter with rfl | rfl
    all_goals rfl
  · rcases delimiter with rfl | rfl
    all_goals decide

/-- No backslash stands on a line of rule characters. -/
theorem not_mem_of_isRuleLike {c : Char} (other : isRuleChar c = false) (line : c ≠ '\n') {t : Text}
    (h : isRuleLike t = true) : c ∉ t := by
  have chars {u : Text} (hu : u.all isRuleChar = true) : c ∉ u := fun hm => by
    rw [List.all_eq_true.mp hu _ hm] at other
    cases other
  simp only [isRuleLike, Bool.and_eq_true] at h
  have body := chars h.2
  split at body
  · rename_i he
    obtain ⟨u, rfl⟩ := List.isSuffixOf_iff_suffix.mp he
    simpa [line] using body
  · exact body

theorem isOpener_findIdx {t : Text} {c : Char} {n : Nat} (h : t.findIdx? (· == c) = some n)
    (none : '\\' ∉ t) (mark : isPunctuation c = true) (bare : c ≠ '\\') : IsOpener t n := by
  obtain ⟨hn, hc, -⟩ := List.findIdx?_eq_some_iff_getElem.mp h
  have whole := List.take_append_drop n t
  rw [List.drop_eq_getElem_cons hn, beq_iff_eq.mp hc] at whole
  refine ⟨t.take n, c, _, whole.symm, List.length_take_of_le hn.le, fun hm => ?_, mark, bare⟩
  exact none (List.mem_of_mem_take hm)

/-- The signs that a mark may begin with where it stands first. -/
def markSigns : Text :=
  ['#', '>', '!', '-', '+', '*', '=', '_']

theorem head?_of_isBulletMarker {t : Text} (h : isBulletMarker t = true) :
    ∃ c ∈ markSigns, t.head? = some c := by
  cases t with
  | nil => cases h
  | cons c rest =>
    simp only [isBulletMarker, Bool.and_eq_true, Bool.or_eq_true, beq_iff_eq] at h
    refine ⟨c, ?_, rfl⟩
    rcases h.1 with (rfl | rfl) | rfl
    all_goals decide

/-- A line is escaped at its first sign, behind the digits of a list marker, or where all is rule. -/
theorem openerPosition?_cases {t : Text} {n : Nat} (h : openerPosition? t = some n) :
    (n = 0 ∧ ∃ c ∈ markSigns, t.head? = some c) ∨ orderedDelimiter? t = some n ∨
      isRuleLike t = true ∧
        (∀ c, t.head? = some c → c ≠ '-' ∧ c ≠ '=' ∧ c ≠ '_' ∧ c ≠ '*') ∧
        (t.findIdx? (· == '-') = some n ∨ t.findIdx? (· == '|') = some n) := by
  rw [openerPosition?] at h
  split at h
  · rename_i m ordered
    cases h
    exact Or.inr (Or.inl ordered)
  · split at h
    · rename_i start
      cases h
      simp only [Bool.or_eq_true, beq_iff_eq] at start
      refine Or.inl ⟨rfl, ?_⟩
      rcases start with (head | head) | marks
      · exact ⟨_, by decide, head⟩
      · exact ⟨_, by decide, head⟩
      · obtain ⟨r, rfl⟩ := List.isPrefixOf_iff_prefix.mp marks
        exact ⟨'!', by decide, rfl⟩
    · split at h
      · rename_i bullet
        cases h
        exact Or.inl ⟨rfl, head?_of_isBulletMarker bullet⟩
      · split at h
        · rename_i like
          split at h
          · rename_i first
            cases h
            obtain ⟨c, head, mark⟩ := (Option.any_eq_true _ _).mp first
            simp only [Bool.or_eq_true, beq_iff_eq] at mark
            refine Or.inl ⟨rfl, c, ?_, head⟩
            rcases mark with ((rfl | rfl) | rfl) | rfl
            all_goals decide
          · rename_i first
            refine Or.inr (Or.inr ⟨like, ?_, ?_⟩)
            · intro c head
              rw [head] at first
              simpa [and_assoc] using first
            · exact (Option.or_eq_some_iff.mp h).imp_right And.right
        · cases h

theorem isPunctuation_of_mem_markSigns {c : Char} (h : c ∈ markSigns) :
    isPunctuation c = true ∧ c ≠ '\\' := by
  have all : (markSigns.all fun c => isPunctuation c && c != '\\') = true := by decide
  simpa using List.all_eq_true.mp all c h

/-- What stands at the place where a line is escaped. -/
theorem isOpener_openerPosition {t : Text} {n : Nat} (h : openerPosition? t = some n) :
    IsOpener t n := by
  rcases openerPosition?_cases h with ⟨rfl, c, sign, head⟩ | ordered | ⟨like, -, place⟩
  · obtain ⟨mark, bare⟩ := isPunctuation_of_mem_markSigns sign
    exact isOpener_head head mark bare
  · exact isOpener_orderedDelimiter ordered
  · have none := not_mem_of_isRuleLike (c := '\\') (by decide) (by decide) like
    rcases place with place | place
    · exact isOpener_findIdx place none (by decide) (by decide)
    · exact isOpener_findIdx place none (by decide) (by decide)

/-- A line is kept from opening another block by one backslash at most, before a mark. -/
theorem escapeBlockStart_cases (t : Text) : escapeBlockStart t = t ∨
    ∃ a c b, t = a ++ c :: b ∧ escapeBlockStart t = a ++ '\\' :: c :: b ∧ '\\' ∉ a ∧
      isPunctuation c = true ∧ c ≠ '\\' := by
  unfold escapeBlockStart
  dsimp only
  split
  · rename_i n hn
    obtain ⟨a, c, b, hb, rfl, plain, mark, bare⟩ := isOpener_openerPosition hn
    have whole := List.takeWhile_append_dropWhile (p := Text.isPad) (l := t)
    rw [hb, ← List.append_assoc] at whole
    refine Or.inr ⟨_, c, b, whole.symm, ?_, ?_, mark, bare⟩
    · rw [hb, insertBackslash, List.take_left, List.drop_left, List.append_assoc]
    · intro hm
      rcases List.mem_append.mp hm with hm | hm
      · exact absurd (List.all_eq_true.mp List.all_takeWhile _ hm) (by decide)
      · exact plain hm
  · exact Or.inl rfl

/-- Only a line with something to escape is escaped. -/
theorem isBlank_escapeBlockStart (line : Text) :
    Text.isBlank (escapeBlockStart line) = Text.isBlank line := by
  rcases escapeBlockStart_cases line with he | ⟨a, c, b, hl, he, -, mark, -⟩
  · rw [he]
  · have shown := not_isBlankChar_of_isPunctuation mark
    rw [he, hl]
    simp [Text.isBlank, shown]

theorem Spells.escapeBlockStart {u t : Text} (h : Spells u t) : Spells (escapeBlockStart u) t := by
  rcases escapeBlockStart_cases u with he | ⟨a, c, b, hu, he, plain, mark, bare⟩
  · rwa [he]
  · rw [he]
    rw [hu] at h
    exact h.insert (fun last => plain (List.mem_of_getLast? last)) mark bare

end Docmark.Markdown
