import Docmark.Annotation.Marker
import Docmark.Proofs.Text.Signs

/-!
The markers of a text: how they fall to the parts that a text is put together from, and what
becomes of them when each is given another number.
-/

namespace Docmark.Annotation

/-- What may stand between the brackets of a marker. -/
def IsNumeral (d : Text) : Prop :=
  d ≠ [] ∧ ∀ c ∈ d, Text.isDecimal c = true

/-- A character that no marker holds. -/
def Inert (c : Char) : Prop :=
  c ≠ '(' ∧ c ≠ ')' ∧ Text.isDecimal c = false

/-- Digits that the scan has seen so far are digits. -/
def SeenDigits (seen : Option Text) : Prop :=
  ∀ ds ∈ seen, ∀ c ∈ ds, Text.isDecimal c = true

def pieceMarkers (ps : List Piece) : List Text :=
  ps.filterMap fun
    | .marker id => some id
    | .char _ => none

theorem markersOf_eq (t : Text) : markersOf t = pieceMarkers (pieces t) := rfl

@[simp] theorem pieceMarkers_char (c : Char) (ps : List Piece) :
    pieceMarkers (.char c :: ps) = pieceMarkers ps := rfl

@[simp] theorem pieceMarkers_marker (d : Text) (ps : List Piece) :
    pieceMarkers (.marker d :: ps) = d :: pieceMarkers ps := rfl

@[simp] theorem pieceMarkers_nil : pieceMarkers [] = [] := rfl

theorem pieceMarkers_append (ps qs : List Piece) :
    pieceMarkers (ps ++ qs) = pieceMarkers ps ++ pieceMarkers qs :=
  List.filterMap_append

theorem pieceMarkers_chars (t : Text) : pieceMarkers (t.map .char) = [] := by
  induction t with
  | nil => rfl
  | cons c r ih => simpa using ih

theorem pieceMarkers_unfinished (seen : Option Text) : pieceMarkers (unfinished seen) = [] := by
  cases seen with
  | none => rfl
  | some ds => rw [unfinished, pieceMarkers_char, pieceMarkers_chars]

@[simp] theorem isDecimal_open : Text.isDecimal '(' = false :=
  Text.not_isDecimal_of_gap (by decide)

@[simp] theorem isDecimal_close : Text.isDecimal ')' = false :=
  Text.not_isDecimal_of_gap (by decide)

theorem inert_newline : Inert '\n' := by
  exact ⟨by decide, by decide, Text.not_isDecimal_of_gap (by decide)⟩

theorem inert_of_isBlankChar {c : Char} (h : Text.isBlankChar c = true) : Inert c := by
  refine ⟨?_, ?_, Text.not_isDecimal_of_isBlankChar h⟩ <;> rintro rfl
  · exact absurd h (by decide)
  · exact absurd h (by decide)

theorem IsNumeral.not_mem {d : Text} (h : IsNumeral d) {c : Char} (hc : Text.isDecimal c = false) :
    c ∉ d := by
  intro hm
  simp [h.2 c hm] at hc

/-- An opening bracket begins the scan anew. -/
theorem piecesFrom_append_open (seen : Option Text) (t u : Text) :
    piecesFrom seen (t ++ '(' :: u) = piecesFrom seen t ++ piecesFrom (some []) u := by
  induction t generalizing seen with
  | nil => cases seen <;> simp [piecesFrom, unfinished]
  | cons c r ih =>
    cases seen with
    | none =>
      simp only [List.cons_append, piecesFrom]
      split
      · exact ih _
      · simp [ih]
    | some ds =>
      simp only [List.cons_append, piecesFrom]
      split
      · exact ih _
      · split
        · simp [ih]
        · split
          · simp [ih]
          · simp [ih]

/-- So does a character that belongs to no marker. -/
theorem piecesFrom_append_inert (seen : Option Text) (t : Text) {c : Char} (hc : Inert c)
    (u : Text) : piecesFrom seen (t ++ c :: u) = piecesFrom seen t ++ .char c :: pieces u := by
  obtain ⟨hopen, hclose, hdec⟩ := hc
  induction t generalizing seen with
  | nil => cases seen <;> simp [piecesFrom, unfinished, hopen, hclose, hdec, pieces]
  | cons d r ih =>
    cases seen with
    | none =>
      simp only [List.cons_append, piecesFrom]
      split
      · exact ih _
      · simp [ih]
    | some ds =>
      simp only [List.cons_append, piecesFrom]
      split
      · exact ih _
      · split
        · simp [ih]
        · split
          · simp [ih]
          · simp [ih]

/-- Digits behind an open bracket are kept for the marker that it may begin. -/
theorem piecesFrom_digits (ds : Text) {es : Text} (h : ∀ c ∈ es, Text.isDecimal c = true)
    (t : Text) : piecesFrom (some ds) (es ++ t) = piecesFrom (some (es.reverse ++ ds)) t := by
  induction es generalizing ds with
  | nil => rfl
  | cons c r ih =>
    have hc := h c (by simp)
    simp only [List.cons_append, piecesFrom, hc, ↓reduceIte]
    rw [ih (c :: ds) fun x hx => h x (by simp [hx])]
    simp

/-- A marker in a text is a piece of it, whatever stands around it. -/
theorem pieces_append_marker (t : Text) {d : Text} (hd : IsNumeral d) (u : Text) :
    pieces (t ++ ('(' :: d ++ ')' :: u)) = pieces t ++ .marker d :: pieces u := by
  have marker : piecesFrom (some []) (d ++ ')' :: u) = .marker d :: pieces u := by
    rw [piecesFrom_digits [] hd.2]
    simp [piecesFrom, pieces, hd.1]
  rw [List.cons_append, pieces, piecesFrom_append_open, marker]
  rfl

/-- Characters in front that open no marker stand for themselves. -/
theorem pieces_append_of_not_open {t : Text} (h : '(' ∉ t) (u : Text) :
    pieces (t ++ u) = t.map .char ++ pieces u := by
  induction t with
  | nil => rfl
  | cons c r ih =>
    simp only [List.mem_cons, not_or] at h
    have := ih h.2
    simp only [pieces] at this ⊢
    simp [piecesFrom, Ne.symm h.1, this]

theorem piecesFrom_held {seen : Option Text} (hs : SeenDigits seen) (t : Text) :
    pieces (held seen ++ t) = piecesFrom seen t := by
  cases seen with
  | none => rfl
  | some ds =>
    have h := piecesFrom_digits [] (fun c hc => hs ds rfl c (List.mem_reverse.mp hc)) t
    simpa [pieces, held, piecesFrom] using h

theorem SeenDigits.none : SeenDigits none := by simp [SeenDigits]

theorem SeenDigits.opened : SeenDigits (some []) := by simp [SeenDigits]

theorem SeenDigits.push {ds : Text} (h : SeenDigits (some ds)) {c : Char}
    (hc : Text.isDecimal c = true) : SeenDigits (some (c :: ds)) := by
  intro es he x hx
  cases he
  rcases List.mem_cons.mp hx with rfl | hx
  · exact hc
  · exact h ds rfl x hx

/-- What the scan takes for a marker has digits between its brackets. -/
theorem isNumeral_of_mem_piecesFrom {seen : Option Text} (hs : SeenDigits seen) {t d : Text}
    (h : .marker d ∈ piecesFrom seen t) : IsNumeral d := by
  induction t generalizing seen with
  | nil => cases seen <;> simp [piecesFrom, unfinished] at h
  | cons c r ih =>
    cases seen with
    | none =>
      simp only [piecesFrom] at h
      split at h
      · exact ih .opened h
      · exact ih .none (by simpa using h)
    | some ds =>
      simp only [piecesFrom] at h
      split at h
      · rename_i hc
        exact ih (hs.push hc) h
      · split at h
        · rename_i hc
          simp only [Bool.and_eq_true, Bool.not_eq_true', List.isEmpty_eq_false_iff] at hc
          rcases List.mem_cons.mp h with he | h
          · cases he
            exact ⟨by simpa using hc.2, fun x hx => hs ds rfl x (List.mem_reverse.mp hx)⟩
          · exact ih .none h
        · rcases List.mem_append.mp h with h | h
          · simp [unfinished] at h
          · split at h
            · exact ih .opened h
            · exact ih .none (by simpa using h)

theorem isNumeral_of_mem_markersOf {t d : Text} (h : d ∈ markersOf t) : IsNumeral d := by
  obtain ⟨p, hp, he⟩ := List.mem_filterMap.mp h
  cases p with
  | char c => simp at he
  | marker id =>
    simp only [Option.some.injEq] at he
    exact isNumeral_of_mem_piecesFrom .none (he ▸ hp)

theorem markersOf_append_inert (t : Text) {c : Char} (hc : Inert c) (u : Text) :
    markersOf (t ++ c :: u) = markersOf t ++ markersOf u := by
  simp only [markersOf_eq, pieces, piecesFrom_append_inert none t hc, pieceMarkers_append,
    pieceMarkers_char]

theorem markersOf_append_marker (t : Text) {d : Text} (hd : IsNumeral d) (u : Text) :
    markersOf (t ++ ('(' :: d ++ ')' :: u)) = markersOf t ++ d :: markersOf u := by
  simp only [markersOf_eq, pieces_append_marker t hd, pieceMarkers_append, pieceMarkers_marker]

theorem markersOf_append_of_not_open {t : Text} (h : '(' ∉ t) (u : Text) :
    markersOf (t ++ u) = markersOf u := by
  rw [markersOf_eq, pieces_append_of_not_open h, pieceMarkers_append, pieceMarkers_chars]
  rfl

/-- Digits in front of a text complete no marker that begins in it, and take none away. -/
theorem markersOf_sublist_piecesFrom (seen : Option Text) (t : Text) :
    (markersOf t).Sublist (pieceMarkers (piecesFrom seen t)) := by
  cases seen with
  | none => exact List.Sublist.refl _
  | some ds =>
    induction t generalizing ds with
    | nil => simp [markersOf_eq, pieces, piecesFrom, unfinished]
    | cons c r ih =>
      simp only [markersOf_eq, pieces, piecesFrom]
      by_cases hopen : c = '('
      · simp [hopen, pieceMarkers_append, pieceMarkers_unfinished]
      · by_cases hc : Text.isDecimal c = true
        · simpa [hopen, hc, markersOf_eq, pieces] using ih (c :: ds)
        · simp only [hopen, ↓reduceIte, hc, Bool.false_eq_true]
          split
          · simp
          · simp [pieceMarkers_append, pieceMarkers_unfinished]

/-- Writing texts one after the other may complete a marker, but loses none. -/
theorem markersOf_append_sublist (t u : Text) :
    (markersOf t ++ markersOf u).Sublist (markersOf (t ++ u)) := by
  have scan (seen : Option Text) : (pieceMarkers (piecesFrom seen t) ++ markersOf u).Sublist
      (pieceMarkers (piecesFrom seen (t ++ u))) := by
    induction t generalizing seen with
    | nil =>
      have h : pieceMarkers (piecesFrom seen []) = [] := by
        cases seen <;> simp [piecesFrom, pieceMarkers_unfinished]
      simpa [h] using markersOf_sublist_piecesFrom seen u
    | cons c r ih =>
      cases seen with
      | none =>
        simp only [List.cons_append, piecesFrom]
        split
        · exact ih _
        · exact ih _
      | some ds =>
        simp only [List.cons_append, piecesFrom]
        split
        · exact ih _
        · split
          · simpa using ih none
          · simp only [pieceMarkers_append, pieceMarkers_unfinished, List.nil_append]
            split
            · exact ih _
            · exact ih _
  exact scan none

/-- Markers are signs that begin with a bracket. -/
theorem signs_markersOf : Text.Signs '(' markersOf where
  foreign := ⟨by decide, isDecimal_open, by decide, by decide, by decide⟩
  empty := rfl
  skip := fun {c} ne t => markersOf_append_of_not_open (t := [c]) (by simpa using ne.symm) t
  part := by
    rintro c (blank | rfl) t u
    · exact markersOf_append_inert t (inert_of_isBlankChar blank) u
    · exact markersOf_append_inert t ⟨by decide, by decide, Text.not_isDecimal_of_gap (by decide)⟩ u

theorem markersOf_lines (t : Text) : (Text.lines t).flatMap markersOf = markersOf t :=
  signs_markersOf.lines t

theorem markersOf_joinBlocks (bs : List Text) :
    markersOf (Text.joinBlocks bs) = bs.flatMap markersOf :=
  signs_markersOf.joinBlocks bs

theorem markersOf_trimNewlines (t : Text) : markersOf (Text.trimNewlines t) = markersOf t :=
  signs_markersOf.trimNewlines t

theorem markersOf_of_isBlank {t : Text} (h : Text.isBlank t = true) : markersOf t = [] :=
  signs_markersOf.of_isBlank h

/-- A piece whose marker is given another name. -/
def Piece.rename (f : Text → Text) : Piece → Piece
  | char c => char c
  | marker d => marker (f d)

/-- The text with another name in every marker. -/
def relabel (f : Text → Text) (t : Text) : Text :=
  renderPieces ((pieces t).map (Piece.rename f))

theorem relabel_append_marker (f : Text → Text) (t : Text) {d : Text} (hd : IsNumeral d)
    (u : Text) :
    relabel f (t ++ ('(' :: d ++ ')' :: u)) =
      relabel f t ++ ('(' :: f d ++ ')' :: relabel f u) := by
  rw [relabel, pieces_append_marker t hd, List.map_append, List.map_cons, renderPieces_append,
    renderPieces_cons]
  simp [relabel, Piece.rename, Piece.render]

theorem relabel_append_of_not_open (f : Text → Text) {t : Text} (h : '(' ∉ t) (u : Text) :
    relabel f (t ++ u) = t ++ relabel f u := by
  have same : (t.map Piece.char).map (Piece.rename f) = t.map Piece.char := by
    rw [List.map_map]
    rfl
  rw [relabel, pieces_append_of_not_open h, List.map_append, same, renderPieces_append,
    renderPieces_chars]
  rfl

theorem relabel_append_inert (f : Text → Text) (t : Text) {c : Char} (hc : Inert c) (u : Text) :
    relabel f (t ++ c :: u) = relabel f t ++ c :: relabel f u := by
  simp [relabel, pieces, piecesFrom_append_inert none t hc, renderPieces_append,
    renderPieces_cons, Piece.rename, Piece.render]

theorem relabel_congr {f g : Text → Text} {t : Text} (h : ∀ d ∈ markersOf t, f d = g d) :
    relabel f t = relabel g t := by
  rw [relabel, relabel]
  congr 1
  apply List.map_congr_left
  intro p hp
  cases p with
  | char c => rfl
  | marker d =>
    rw [Piece.rename, Piece.rename, h d]
    exact List.mem_filterMap.mpr ⟨.marker d, hp, rfl⟩

theorem append_close_inj {d e t u : Text} (hd : ')' ∉ d) (he : ')' ∉ e)
    (h : d ++ ')' :: t = e ++ ')' :: u) : d = e ∧ t = u := by
  induction d generalizing e with
  | nil =>
    cases e with
    | nil => simpa using h
    | cons c e =>
      simp only [List.nil_append, List.cons_append, List.cons.injEq] at h
      simp [← h.1] at he
  | cons c d ih =>
    cases e with
    | nil =>
      simp only [List.nil_append, List.cons_append, List.cons.injEq] at h
      simp [h.1] at hd
    | cons c' e =>
      simp only [List.cons_append, List.cons.injEq, List.mem_cons, not_or] at h hd he
      obtain ⟨rfl, h⟩ := h
      obtain ⟨rfl, ht⟩ := ih hd.2 he.2 h
      exact ⟨rfl, ht⟩

theorem renderPieces_rename_eq_iff {f : Text → Text} (hf : ∀ d, IsNumeral d → IsNumeral (f d))
    {ps : List Piece} (numeral : ∀ d, .marker d ∈ ps → IsNumeral d) :
    renderPieces (ps.map (Piece.rename f)) = renderPieces ps ↔
      ∀ d ∈ pieceMarkers ps, f d = d := by
  induction ps with
  | nil => simp
  | cons p ps ih =>
    have ih := ih fun d hd => numeral d (by simp [hd])
    cases p with
    | char c => simpa [renderPieces_cons, Piece.rename, Piece.render] using ih
    | marker d =>
      have hd := numeral d (by simp)
      simp only [List.map_cons, renderPieces_cons, Piece.rename, Piece.render, List.cons_append,
        List.append_assoc, List.cons.injEq, true_and, List.nil_append, pieceMarkers_marker,
        List.mem_cons, forall_eq_or_imp, ← ih]
      constructor
      · intro h
        exact append_close_inj ((hf d hd).not_mem isDecimal_close)
          (hd.not_mem isDecimal_close) h
      · rintro ⟨h, hr⟩
        rw [h, hr]

/-- Only names that change show in a relabelled text. -/
theorem relabel_eq_self_iff {f : Text → Text} (hf : ∀ d, IsNumeral d → IsNumeral (f d))
    {t : Text} : relabel f t = t ↔ ∀ d ∈ markersOf t, f d = d := by
  have numeral : ∀ d, .marker d ∈ pieces t → IsNumeral d := fun d hd =>
    isNumeral_of_mem_piecesFrom .none hd
  have h := renderPieces_rename_eq_iff hf numeral
  rwa [renderPieces_pieces] at h

/-- Pieces that the text which they make up falls into. -/
def IsReading (ps : List Piece) : Prop :=
  pieces (renderPieces ps) = ps

theorem IsReading.char {ps : List Piece} (h : IsReading ps) {c : Char} (hc : c ≠ '(') :
    IsReading (.char c :: ps) := by
  have front := pieces_append_of_not_open (t := [c]) (by simpa using hc.symm) (renderPieces ps)
  rw [h] at front
  exact front

theorem IsReading.marker {ps : List Piece} (h : IsReading ps) {d : Text} (hd : IsNumeral d) :
    IsReading (.marker d :: ps) := by
  have front := pieces_append_marker [] hd (renderPieces ps)
  rw [h] at front
  rw [IsReading, renderPieces_cons, Piece.render, List.append_assoc]
  exact front

/-- A bracket with digits begins no marker if neither a digit nor the other bracket is behind it. -/
theorem IsReading.unfinished {ps : List Piece} (h : IsReading ps) {seen : Option Text}
    (hs : SeenDigits seen) (ends : ∀ c, (renderPieces ps).head? = some c →
      Text.isDecimal c = false ∧ (c = ')' → seen.getD [] = [])) :
    IsReading (unfinished seen ++ ps) := by
  rw [IsReading, renderPieces_append, renderPieces_unfinished, piecesFrom_held hs]
  cases seen with
  | none => exact h
  | some ds =>
    rw [IsReading] at h
    generalize renderPieces ps = t at h ends
    cases t with
    | nil =>
      rw [← h]
      exact (List.append_nil _).symm
    | cons c r =>
      obtain ⟨digit, closes⟩ := ends c rfl
      have close : (c = ')' && !ds.isEmpty) = false := by
        cases ds with
        | nil => simp
        | cons d ds => simpa using closes
      rw [piecesFrom, if_neg (by simp [digit]), close, ← h]
      rfl

theorem rename_unfinished (f : Text → Text) (seen : Option Text) :
    (unfinished seen).map (Piece.rename f) = unfinished seen := by
  cases seen with
  | none => rfl
  | some ds => simp [unfinished, Piece.rename]

/-- What is written for an open bracket begins with it, be it a marker or not. -/
theorem head?_rename_of_open (f : Text → Text) (ds t : Text) :
    (renderPieces ((piecesFrom (some ds) t).map (Piece.rename f))).head? = some '(' := by
  induction t generalizing ds with
  | nil => simp [piecesFrom, unfinished, renderPieces_cons, Piece.rename, Piece.render]
  | cons c r ih =>
    simp only [piecesFrom]
    split
    · exact ih _
    · split
      · simp [renderPieces_cons, Piece.rename, Piece.render]
      · simp [unfinished, renderPieces_cons, Piece.rename, Piece.render]

theorem head?_relabel (f : Text → Text) (c : Char) (r : Text) :
    (relabel f (c :: r)).head? = some c := by
  rw [relabel, pieces, piecesFrom]
  split
  · rename_i bracket
    rw [bracket, head?_rename_of_open]
  · simp [renderPieces_cons, Piece.rename, Piece.render]

/-- With other names in their markers, the pieces of a text are read from what they make up. -/
theorem isReading_rename {f : Text → Text} (hf : ∀ d, IsNumeral d → IsNumeral (f d))
    {seen : Option Text} (hs : SeenDigits seen) (t : Text) :
    IsReading ((piecesFrom seen t).map (Piece.rename f)) := by
  induction t generalizing seen with
  | nil =>
    have none : IsReading [] := rfl
    have held : piecesFrom seen [] = unfinished seen ++ [] := by cases seen <;> simp [piecesFrom]
    rw [held, List.append_nil, rename_unfinished, ← List.append_nil (unfinished seen)]
    exact none.unfinished hs (by simp [renderPieces])
  | cons c r ih =>
    have anew : IsReading ((pieces (c :: r)).map (Piece.rename f)) := by
      rw [pieces, piecesFrom]
      split
      · exact ih .opened
      · rename_i other
        exact (ih .none).char other
    cases seen with
    | none => exact anew
    | some ds =>
      rw [piecesFrom]
      split
      · rename_i digit
        exact ih (hs.push digit)
      · rename_i digit
        split
        · rename_i close
          simp only [Bool.and_eq_true, Bool.not_eq_true', List.isEmpty_eq_false_iff] at close
          have numeral : IsNumeral ds.reverse :=
            ⟨by simpa using close.2, fun x hx => hs ds rfl x (List.mem_reverse.mp hx)⟩
          exact (ih .none).marker (hf _ numeral)
        · rename_i close
          rw [List.map_append, rename_unfinished]
          refine anew.unfinished hs fun d hd => ?_
          obtain rfl := Option.some.inj ((head?_relabel f c r).symm.trans hd)
          exact ⟨by simpa using digit, by simpa using close⟩

/-- A relabelled text falls into the same pieces, up to the names. -/
theorem pieces_relabel {f : Text → Text} (hf : ∀ d, IsNumeral d → IsNumeral (f d)) (t : Text) :
    pieces (relabel f t) = (pieces t).map (Piece.rename f) :=
  isReading_rename hf .none t

theorem markersOf_relabel {f : Text → Text} (hf : ∀ d, IsNumeral d → IsNumeral (f d))
    (t : Text) : markersOf (relabel f t) = (markersOf t).map f := by
  rw [markersOf_eq, pieces_relabel hf, markersOf_eq]
  induction pieces t with
  | nil => rfl
  | cons p ps ih =>
    cases p with
    | char c => simpa [Piece.rename] using ih
    | marker d => simpa [Piece.rename] using ih

theorem relabel_unlines (f : Text → Text) (ls : List Text) :
    relabel f (Text.unlines ls) = Text.unlines (ls.map (relabel f)) := by
  induction ls with
  | nil => rfl
  | cons l ls ih =>
    cases ls with
    | nil => rfl
    | cons m ms =>
      have ne : (m :: ms).map (relabel f) ≠ [] := by simp
      rw [Text.unlines_cons l (by simp), relabel_append_inert f l inert_newline, ih,
        ← Text.unlines_cons (relabel f l) ne, ← List.map_cons]

theorem newline_not_mem_renderPieces {ps : List Piece} :
    '\n' ∉ renderPieces ps ↔ ∀ p ∈ ps, '\n' ∉ p.render := by
  simp [renderPieces]

theorem newline_not_mem_relabel {f : Text → Text} (hf : ∀ d, IsNumeral d → IsNumeral (f d))
    {t : Text} (h : '\n' ∉ t) : '\n' ∉ relabel f t := by
  rw [← renderPieces_pieces t, newline_not_mem_renderPieces] at h
  rw [relabel, newline_not_mem_renderPieces, List.forall_mem_map]
  intro p hp
  cases p with
  | char c => exact h _ hp
  | marker d =>
    have numeral : IsNumeral (f d) := hf d (isNumeral_of_mem_piecesFrom .none hp)
    simp [Piece.rename, Piece.render, numeral.not_mem inert_newline.2.2]

theorem lines_relabel {f : Text → Text} (hf : ∀ d, IsNumeral d → IsNumeral (f d)) (t : Text) :
    Text.lines (relabel f t) = (Text.lines t).map (relabel f) := by
  have ne : (Text.lines t).map (relabel f) ≠ [] := by simpa using Text.lines_ne_nil t
  have free : ∀ l ∈ (Text.lines t).map (relabel f), '\n' ∉ l := by
    intro l hl
    obtain ⟨m, hm, rfl⟩ := List.mem_map.mp hl
    exact newline_not_mem_relabel hf (Text.newline_not_mem_of_mem_lines hm)
  rw [← Text.lines_unlines ne free, ← relabel_unlines, Text.unlines_lines]

end Docmark.Annotation
