import Docmark.Proofs.Markdown.Spelling
import Docmark.Proofs.Text.Lines

/-!
Lines that are kept from opening another block: what they begin with opens none, at most one
backslash is written for it, and a line that was kept once is left as it is.
-/

namespace Docmark.Markdown

open Preview (isPunctuation)

/-- What follows a list marker: nothing, or a space or tab first. -/
def MarkerEnds (rest : Text) : Prop :=
  ∀ c, rest.head? = some c → Text.isPad c = true

/-- Lines without indentation that Markdown reads as something else than the text of a paragraph. -/
inductive Opener : Text → Prop
  | heading (rest : Text) : Opener ('#' :: rest)
  | quote (rest : Text) : Opener ('>' :: rest)
  | admonition (rest : Text) : Opener ('!' :: '!' :: '!' :: rest)
  | bullet {c : Char} {rest : Text} (mark : c = '-' ∨ c = '+' ∨ c = '*') (ends : MarkerEnds rest) :
    Opener (c :: rest)
  | ordered {ds : Text} {c : Char} {rest : Text} (digits : ∀ d ∈ ds, Text.isDecimal d = true)
    (some : 1 ≤ ds.length) (few : ds.length ≤ 9) (delimiter : c = '.' ∨ c = ')')
    (ends : MarkerEnds rest) : Opener (ds ++ c :: rest)
  | thematicBreak {c : Char} {t : Text} (mark : c = '-' ∨ c = '_' ∨ c = '*')
    (only : ∀ d ∈ t, d = c ∨ Text.isPad d = true) (three : 3 ≤ t.count c) : Opener t
  | underline {c : Char} {n : Nat} {pads : Text} (mark : c = '=' ∨ c = '-') (some : 1 ≤ n)
    (blank : ∀ d ∈ pads, Text.isPad d = true) : Opener (List.replicate n c ++ pads)
  | delimiterRow {t : Text} (only : ∀ d ∈ t, d = '-' ∨ d = ':' ∨ d = '|' ∨ Text.isPad d = true)
    (some : '-' ∈ t ∨ '|' ∈ t) : Opener t

theorem isRuleChar_of_isPad {c : Char} (h : Text.isPad c = true) : isRuleChar c = true := by
  simp only [Text.isPad, Bool.or_eq_true, beq_iff_eq] at h
  rcases h with rfl | rfl
  · rfl
  · rfl

theorem endsMarker_of_markerEnds {rest : Text} (h : MarkerEnds rest) : endsMarker rest = true := by
  cases rest with
  | nil => rfl
  | cons c rest => simp [endsMarker, h c rfl]

theorem markerEnds_of_endsMarker {rest : Text} (one : '\n' ∉ rest)
    (h : endsMarker rest = true) : MarkerEnds rest := by
  intro c head
  obtain ⟨r, rfl⟩ := List.head?_eq_some_iff.mp head
  have new : c ≠ '\n' := by
    rintro rfl
    exact one List.mem_cons_self
  simpa [endsMarker, Text.atEnd, new] using h

/-- A line of rule characters, without its line feed. -/
theorem isRuleLike_of_all {t : Text} (ne : t ≠ []) (only : ∀ c ∈ t, isRuleChar c = true) :
    isRuleLike t = true := by
  have line := Text.endsWith_newline_of_not_mem fun h => absurd (only '\n' h) (by decide)
  rw [isRuleLike, line, if_neg Bool.false_ne_true, Bool.and_eq_true, Bool.not_eq_true',
    List.isEmpty_eq_false_iff, List.all_eq_true]
  exact ⟨ne, only⟩

/-- A line in which no mark is found that has to be escaped. -/
structure Unmarked (t : Text) : Prop where
  ordered : orderedDelimiter? t = none
  heading : t.head? ≠ some '#'
  quote : t.head? ≠ some '>'
  admonition : ¬ "!!!".toList <+: t
  bullet : isBulletMarker t = false
  first : isRuleLike t = true → ∀ c, t.head? = some c → c ≠ '-' ∧ c ≠ '=' ∧ c ≠ '_' ∧ c ≠ '*'
  inner : isRuleLike t = true → '-' ∉ t ∧ '|' ∉ t

theorem findIdx?_eq_none_iff_not_mem {t : Text} {c : Char} :
    t.findIdx? (· == c) = none ↔ c ∉ t := by
  rw [List.findIdx?_eq_none_iff]
  constructor
  · intro h hm
    have := h c hm
    simp at this
  · intro h d hd
    rw [beq_eq_false_iff_ne]
    intro he
    exact h (he ▸ hd)

/-- A line of rule characters has no mark where it begins with none and has none inside. -/
theorem rulePosition?_eq_none_iff {t : Text} :
    (if t.head?.any fun c => c == '-' || c == '=' || c == '_' || c == '*' then some 0
      else (t.findIdx? (· == '-')).or (t.findIdx? (· == '|'))) = none ↔
    (∀ c, t.head? = some c → c ≠ '-' ∧ c ≠ '=' ∧ c ≠ '_' ∧ c ≠ '*') ∧ '-' ∉ t ∧ '|' ∉ t := by
  have first : (t.head?.any fun c => c == '-' || c == '=' || c == '_' || c == '*') = false ↔
      ∀ c, t.head? = some c → c ≠ '-' ∧ c ≠ '=' ∧ c ≠ '_' ∧ c ≠ '*' := by
    simp [Option.any_eq_false, and_assoc]
  rw [← first, ← findIdx?_eq_none_iff_not_mem, ← findIdx?_eq_none_iff_not_mem,
    ← Option.or_eq_none_iff]
  split
  · rename_i begins
    simp [begins]
  · rename_i begins
    simp [begins]

theorem openerPosition?_eq_none_iff {t : Text} : openerPosition? t = none ↔ Unmarked t := by
  have marks : Text.startsWith "!!!".toList t = true ↔ "!!!".toList <+: t :=
    List.isPrefixOf_iff_prefix
  have each : openerPosition? t = none ↔ orderedDelimiter? t = none ∧
      ((t.head? ≠ some '#' ∧ t.head? ≠ some '>') ∧ ¬ "!!!".toList <+: t) ∧
      isBulletMarker t = false ∧ (isRuleLike t = true →
        (∀ c, t.head? = some c → c ≠ '-' ∧ c ≠ '=' ∧ c ≠ '_' ∧ c ≠ '*') ∧ '-' ∉ t ∧ '|' ∉ t) := by
    rw [openerPosition?, ← rulePosition?_eq_none_iff, ← marks]
    cases orderedDelimiter? t with
    | some n => simp
    | none =>
      simp only [ite_eq_right_iff, reduceCtorEq, Bool.or_eq_true, beq_iff_eq, not_or,
        Bool.not_eq_true, ite_eq_iff, true_and, and_false, false_or, ne_eq]
  rw [each]
  constructor
  · rintro ⟨ordered, ⟨⟨heading, quote⟩, admonition⟩, bullet, rule⟩
    exact ⟨ordered, heading, quote, admonition, bullet, fun like => (rule like).1,
      fun like => (rule like).2⟩
  · intro h
    exact ⟨h.ordered, ⟨⟨h.heading, h.quote⟩, h.admonition⟩, h.bullet,
      fun like => ⟨h.first like, h.inner like⟩⟩

theorem isBulletMarker_cons {c : Char} {rest : Text} (mark : c = '-' ∨ c = '+' ∨ c = '*')
    (ends : MarkerEnds rest) : isBulletMarker (c :: rest) = true := by
  rw [isBulletMarker, endsMarker_of_markerEnds ends, Bool.and_true]
  rcases mark with rfl | rfl | rfl
  · rfl
  · rfl
  · rfl

/-- The delimiter stands behind all digits. -/
theorem orderedDelimiter?_append {ds : Text} {c : Char} {rest : Text}
    (digits : ∀ d ∈ ds, Text.isDecimal d = true) (some : 1 ≤ ds.length) (few : ds.length ≤ 9)
    (delimiter : c = '.' ∨ c = ')') (ends : MarkerEnds rest) :
    orderedDelimiter? (ds ++ c :: rest) = Option.some ds.length := by
  have stop : Text.isDecimal c = false := by
    rcases delimiter with rfl | rfl
    · exact Text.not_isDecimal_of_gap (by decide)
    · exact Text.not_isDecimal_of_gap (by decide)
  obtain ⟨front, back⟩ := Text.span_stop digits stop rest
  rw [orderedDelimiter?, front, back]
  simp [delimiter, some, few, endsMarker_of_markerEnds ends]

/-- A line of some marks of rules, and white space. -/
theorem isRuleLike_of_marks {t : Text} (ne : t ≠ []) (marks : Text)
    (rules : marks.all isRuleChar = true)
    (only : ∀ c ∈ t, c ∈ marks ∨ Text.isPad c = true) : isRuleLike t = true := by
  apply isRuleLike_of_all ne
  intro c hc
  rcases only c hc with mark | pad
  · exact List.all_eq_true.mp rules c mark
  · exact isRuleChar_of_isPad pad

/-- Whatever opens another block has a mark that has to be escaped. -/
theorem Opener.not_unmarked {t : Text} (h : Opener t)
    (flush : ∀ c, t.head? = some c → Text.isPad c = false) : ¬ Unmarked t := by
  intro left
  cases h with
  | heading rest => exact left.heading rfl
  | quote rest => exact left.quote rfl
  | admonition rest => exact left.admonition ⟨rest, rfl⟩
  | bullet mark ends =>
    have := left.bullet
    rw [isBulletMarker_cons mark ends] at this
    cases this
  | ordered digits some few delimiter ends =>
    have := left.ordered
    rw [orderedDelimiter?_append digits some few delimiter ends] at this
    cases this
  | @thematicBreak c t mark only three =>
    have ne : t ≠ [] := by
      rintro rfl
      simp at three
    obtain ⟨d, r, rfl⟩ := List.exists_cons_of_ne_nil ne
    have like : isRuleLike (d :: r) = true := by
      refine isRuleLike_of_marks ne [c] ?_ (by simpa using only)
      rcases mark with rfl | rfl | rfl
      all_goals decide
    -- No white space comes first, so that the mark does.
    obtain rfl : d = c := (only d List.mem_cons_self).resolve_right (by simp [flush d rfl])
    have bare := left.first like d rfl
    rcases mark with rfl | rfl | rfl
    · exact bare.1 rfl
    · exact bare.2.2.1 rfl
    · exact bare.2.2.2 rfl
  | @underline c n pads mark some blank =>
    obtain ⟨m, rfl⟩ := Nat.exists_eq_add_of_le' some
    have like : isRuleLike (List.replicate (m + 1) c ++ pads) = true := by
      refine isRuleLike_of_marks (by simp) [c] ?_ fun e he => ?_
      · rcases mark with rfl | rfl
        all_goals decide
      · rcases List.mem_append.mp he with he | he
        · exact Or.inl (by simp [List.eq_of_mem_replicate he])
        · exact Or.inr (blank e he)
    have bare := left.first like c rfl
    rcases mark with rfl | rfl
    · exact bare.2.1 rfl
    · exact bare.1 rfl
  | delimiterRow only some =>
    have ne : t ≠ [] := by
      rintro rfl
      simp at some
    have like : isRuleLike t = true :=
      isRuleLike_of_marks ne ['-', ':', '|'] (by decide) (by simpa [or_assoc] using only)
    obtain ⟨hyphen, bar⟩ := left.inner like
    rcases some with hm | hm
    · exact hyphen hm
    · exact bar hm

/-- Where not all is rule, only what opens another block has such a mark. -/
theorem unmarked_of_not_opener {t : Text} (one : '\n' ∉ t) (other : isRuleLike t = false)
    (h : ¬ Opener t) : Unmarked t := by
  refine ⟨?_, ?_, ?_, ?_, ?_, ?_, ?_⟩
  · cases ordered : orderedDelimiter? t with
    | none => rfl
    | some n =>
      obtain ⟨ds, c, rest, rfl, rfl, digits, delimiter, some, few, ends⟩ :=
        exists_of_orderedDelimiter ordered
      have line : '\n' ∉ rest := fun hm => one (by simp [hm])
      exact absurd (.ordered digits some few delimiter (markerEnds_of_endsMarker line ends)) h
  · intro head
    obtain ⟨r, rfl⟩ := List.head?_eq_some_iff.mp head
    exact h (.heading r)
  · intro head
    obtain ⟨r, rfl⟩ := List.head?_eq_some_iff.mp head
    exact h (.quote r)
  · intro marks
    obtain ⟨r, rfl⟩ := marks
    exact h (.admonition r)
  · rw [← Bool.not_eq_true]
    intro bullet
    cases t with
    | nil => cases bullet
    | cons c rest =>
      simp only [isBulletMarker, Bool.and_eq_true, Bool.or_eq_true, beq_iff_eq, or_assoc] at bullet
      have line : '\n' ∉ rest := fun hm => one (List.mem_cons_of_mem c hm)
      exact h (.bullet bullet.1 (markerEnds_of_endsMarker line bullet.2))
  · intro like
    rw [other] at like
    cases like
  · intro like
    rw [other] at like
    cases like

theorem orderedDelimiter?_eq_none {ds : Text} {c : Char} (rest : Text)
    (digits : ∀ d ∈ ds, Text.isDecimal d = true) (stop : Text.isDecimal c = false)
    (dot : c ≠ '.') (bracket : c ≠ ')') : orderedDelimiter? (ds ++ c :: rest) = none := by
  obtain ⟨front, back⟩ := Text.span_stop digits stop rest
  rw [orderedDelimiter?, front, back]
  simp [dot, bracket]

theorem not_isDecimal_of_mem_markSigns {c : Char} (h : c ∈ markSigns) :
    Text.isDecimal c = false := by
  have low : (markSigns.all fun c => c.toNat < 48 || 57 < c.toNat && c.toNat < 1632) = true := by
    decide
  have outside := List.all_eq_true.mp low c h
  simp only [Bool.or_eq_true, Bool.and_eq_true, decide_eq_true_eq] at outside
  exact Text.not_isDecimal_of_gap (by omega)

/-- A backslash behind digits, or behind a sign of another kind, leaves no mark. -/
theorem unmarked_of_slash {ds : Text} {c : Char} {rest : Text}
    (digits : ∀ d ∈ ds, Text.isDecimal d = true) (stop : c = '\\' ∨ c = ':' ∨ c = '|')
    (slash : '\\' ∈ ds ++ c :: rest) : Unmarked (ds ++ c :: rest) := by
  have gap : c ∉ markSigns ∧ Text.isDecimal c = false ∧ c ≠ '.' ∧ c ≠ ')' := by
    rcases stop with rfl | rfl | rfl
    all_goals exact ⟨by decide, Text.not_isDecimal_of_gap (by decide), by decide, by decide⟩
  have head : ∀ d, (ds ++ c :: rest).head? = some d → d ∉ markSigns := by
    intro d hd
    cases ds with
    | nil =>
      cases hd
      exact gap.1
    | cons e ds =>
      cases hd
      intro hm
      have := digits d List.mem_cons_self
      rw [not_isDecimal_of_mem_markSigns hm] at this
      cases this
  have unruled : ¬ isRuleLike (ds ++ c :: rest) = true := by
    intro like
    exact not_mem_of_isRuleLike (by decide) (by decide) like slash
  refine ⟨orderedDelimiter?_eq_none rest digits gap.2.1 gap.2.2.1 gap.2.2.2, ?_, ?_, ?_, ?_, ?_, ?_⟩
  · intro h
    exact head _ h (by decide)
  · intro h
    exact head _ h (by decide)
  · intro h
    obtain ⟨r, hr⟩ := h
    apply head '!' _ (by decide)
    rw [← hr]
    rfl
  · rw [← Bool.not_eq_true]
    intro h
    obtain ⟨d, sign, hd⟩ := head?_of_isBulletMarker h
    exact head d hd sign
  · intro like
    exact absurd like unruled
  · intro like
    exact absurd like unruled

/-- The one backslash leaves no mark that has to be escaped. -/
theorem unmarked_insertBackslash {t : Text} {n : Nat} (line : '\n' ∉ t)
    (flush : ∀ c, t.head? = some c → Text.isPad c = false) (h : openerPosition? t = some n) :
    Unmarked (insertBackslash t n) := by
  have none : ∀ d ∈ ([] : Text), Text.isDecimal d = true := by simp
  rcases openerPosition?_cases h with ⟨rfl, -⟩ | ordered | ⟨like, first, -⟩
  · exact unmarked_of_slash none (Or.inl rfl) List.mem_cons_self
  · obtain ⟨ds, c, rest, rfl, rfl, digits, -⟩ := exists_of_orderedDelimiter ordered
    rw [insertBackslash, List.take_left, List.drop_left]
    exact unmarked_of_slash digits (Or.inl rfl) (by simp)
  · cases t with
    | nil => cases like
    | cons c rest =>
      -- neither a pad nor one of the first signs: a colon or a bar is left
      have stop : c = ':' ∨ c = '|' := by
        have rule : isRuleChar c = true := by
          cases other : isRuleChar c with
          | true => rfl
          | false =>
            have new : c ≠ '\n' := by
              rintro rfl
              exact line List.mem_cons_self
            exact absurd List.mem_cons_self (not_mem_of_isRuleLike other new like)
        have pad := flush c rfl
        have sign := first c rfl
        simp only [isRuleChar, Text.isPad, Bool.or_eq_true, Bool.or_eq_false_iff, beq_iff_eq,
          beq_eq_false_iff_ne] at rule pad
        simpa [sign, pad] using rule
      cases n with
      | zero => exact unmarked_of_slash none (Or.inl rfl) List.mem_cons_self
      | succ n =>
        have whole : insertBackslash (c :: rest) (n + 1) = [] ++ c :: insertBackslash rest n := rfl
        rw [whole]
        exact unmarked_of_slash none (Or.inr stop) (by simp [insertBackslash])

theorem head?_insertBackslash (t : Text) (n : Nat) :
    (insertBackslash t n).head? = some '\\' ∨ (insertBackslash t n).head? = t.head? := by
  cases n with
  | zero => exact Or.inl rfl
  | succ n =>
    cases t with
    | nil => exact Or.inl rfl
    | cons c t => exact Or.inr rfl

theorem flush_dropWhile (line : Text) :
    ∀ c, (line.dropWhile Text.isPad).head? = some c → Text.isPad c = false := by
  intro c head
  have := List.head?_dropWhile_not Text.isPad line
  rw [head] at this
  simpa using this

/-- A line that was kept from opening another block has no mark behind its indentation. -/
theorem unmarked_escapeBlockStart {line : Text} (one : '\n' ∉ line) :
    Unmarked ((escapeBlockStart line).dropWhile Text.isPad) := by
  have flush := flush_dropWhile line
  have inner : '\n' ∉ line.dropWhile Text.isPad := by
    intro hm
    exact one ((List.dropWhile_suffix Text.isPad).subset hm)
  unfold escapeBlockStart
  dsimp only
  split
  · rename_i n found
    have body : ∀ c, (insertBackslash (line.dropWhile Text.isPad) n).head? = some c →
        Text.isPad c = false := by
      intro c head
      rcases head?_insertBackslash (line.dropWhile Text.isPad) n with slash | same
      · rw [slash] at head
        cases head
        decide
      · exact flush c (same ▸ head)
    rw [List.dropWhile_append_of_pos (List.all_eq_true.mp List.all_takeWhile),
      Text.dropWhile_of_not_head? body]
    exact unmarked_insertBackslash inner flush found
  · rename_i found
    exact openerPosition?_eq_none_iff.mp found

theorem escapeBlockStart_of_unmarked {line : Text} (h : Unmarked (line.dropWhile Text.isPad)) :
    escapeBlockStart line = line := by
  unfold escapeBlockStart
  dsimp only
  rw [openerPosition?_eq_none_iff.mpr h]

/-- A line with a character that rules are not made of is not all rule behind its indentation. -/
theorem not_isRuleLike_dropWhile {line : Text} (one : '\n' ∉ line) {c : Char} (hc : c ∈ line)
    (other : isRuleChar c = false) : isRuleLike (line.dropWhile Text.isPad) = false := by
  rw [← Bool.not_eq_true]
  intro like
  have whole := List.takeWhile_append_dropWhile (p := Text.isPad) (l := line)
  rw [← whole] at hc
  rcases List.mem_append.mp hc with front | back
  · have pad := List.all_eq_true.mp List.all_takeWhile c front
    rw [isRuleChar_of_isPad pad] at other
    cases other
  · have new : c ≠ '\n' := by
      rintro rfl
      exact one ((List.dropWhile_suffix Text.isPad).subset back)
    exact not_mem_of_isRuleLike other new like back

/--
A line that was kept from opening another block opens none. It is the line as it was, or has one
more backslash before a mark, and is kept no further. Lines that open no block are left as they are,
those made of the characters of rules apart.
-/
theorem escapeBlockStart_neutral {line : Text} (one : '\n' ∉ line) :
    ¬ Opener ((escapeBlockStart line).dropWhile Text.isPad) ∧
      (escapeBlockStart line = line ∨ ∃ a c b, line = a ++ c :: b ∧
        isPunctuation c = true ∧ escapeBlockStart line = a ++ '\\' :: c :: b) ∧
      escapeBlockStart (escapeBlockStart line) = escapeBlockStart line ∧
      (¬ Opener (line.dropWhile Text.isPad) → (∃ c ∈ line, isRuleChar c = false) →
        escapeBlockStart line = line) := by
  have settled := unmarked_escapeBlockStart one
  refine ⟨?_, ?_, escapeBlockStart_of_unmarked settled, ?_⟩
  · intro opens
    exact opens.not_unmarked (flush_dropWhile _) settled
  · rcases escapeBlockStart_cases line with same | ⟨a, c, b, whole, written, -, mark, -⟩
    · exact Or.inl same
    · exact Or.inr ⟨a, c, b, whole, mark, written⟩
  · intro opens other
    obtain ⟨c, hc, other⟩ := other
    have inner : '\n' ∉ line.dropWhile Text.isPad := by
      intro hm
      exact one ((List.dropWhile_suffix Text.isPad).subset hm)
    apply escapeBlockStart_of_unmarked
    exact unmarked_of_not_opener inner (not_isRuleLike_dropWhile one hc other) opens

/-- A row of hyphens between bars, behind a tab. -/
def ruledLine : Text :=
  "\t| --- | :-: |".toList

theorem ruledLine_neutral :
    '\n' ∉ ruledLine ∧ ¬ Opener ((escapeBlockStart ruledLine).dropWhile Text.isPad) ∧
      (escapeBlockStart ruledLine = ruledLine ∨ ∃ a c b, ruledLine = a ++ c :: b ∧
        isPunctuation c = true ∧ escapeBlockStart ruledLine = a ++ '\\' :: c :: b) ∧
      escapeBlockStart (escapeBlockStart ruledLine) = escapeBlockStart ruledLine ∧
      (¬ Opener (ruledLine.dropWhile Text.isPad) → (∃ c ∈ ruledLine, isRuleChar c = false) →
        escapeBlockStart ruledLine = ruledLine) := by
  have one : '\n' ∉ ruledLine := by decide
  exact ⟨one, escapeBlockStart_neutral one⟩

end Docmark.Markdown
