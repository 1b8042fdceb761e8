import Docmark.Convert.Block
import Docmark.Proofs.Text.Lines
import Docmark.Proofs.Text.Trim
import Docmark.Proofs.Annotation.Marker

/-!
Text that was escaped: every backtick, tilde and closing brace in it follows a backslash. No line of
such a text opens a fence or has a sentinel, wherever it is put together, trimmed or renumbered.
-/

namespace Docmark.Markdown

open Annotation

/-- Characters that fences and the ends of sentinels are made of. -/
def needsGuard (c : Char) : Bool :=
  c == backtick || c == '~' || c == '\x7d'

/-- Each of them follows a backslash; `slash` tells that the text itself follows one. -/
def GuardedAfter (slash : Bool) : Text → Prop
  | [] => True
  | c :: r => (needsGuard c = true → slash = true) ∧ GuardedAfter (c == '\\') r

def Guarded (t : Text) : Prop :=
  GuardedAfter false t

/-- True after a text that ends with a backslash. -/
def slashAfter (slash : Bool) (t : Text) : Bool :=
  t.foldl (fun _ c => c == '\\') slash

theorem slashAfter_of_not_mem {t : Text} (h : '\\' ∉ t) : slashAfter false t = false := by
  induction t with
  | nil => rfl
  | cons c r ih =>
    rw [List.mem_cons, not_or] at h
    have hc : (c == '\\') = false := by simpa using fun he : c = '\\' => h.1 he.symm
    rw [slashAfter, List.foldl_cons, hc]
    exact ih h.2

theorem guardedAfter_append {slash : Bool} {t u : Text} :
    GuardedAfter slash (t ++ u) ↔
      GuardedAfter slash t ∧ GuardedAfter (slashAfter slash t) u := by
  induction t generalizing slash with
  | nil => simp [GuardedAfter, slashAfter]
  | cons c r ih =>
    rw [List.cons_append, GuardedAfter, ih, GuardedAfter, and_assoc]
    rfl

theorem GuardedAfter.weaken {slash : Bool} {t : Text} (h : GuardedAfter slash t) :
    GuardedAfter true t := by
  cases t with
  | nil => exact trivial
  | cons c r => exact ⟨fun _ => rfl, h.2⟩

theorem Guarded.after {t : Text} (h : Guarded t) (slash : Bool) : GuardedAfter slash t := by
  cases slash with
  | false => exact h
  | true => exact GuardedAfter.weaken h

theorem guardedAfter_of_plain {slash : Bool} {t : Text} (h : ∀ c ∈ t, needsGuard c = false) :
    GuardedAfter slash t := by
  induction t generalizing slash with
  | nil => exact trivial
  | cons c r ih =>
    refine ⟨fun hc => ?_, ih fun d hd => h d (by simp [hd])⟩
    rw [h c (by simp)] at hc
    cases hc

theorem Guarded.append {t u : Text} (ht : Guarded t) (hu : Guarded u) : Guarded (t ++ u) :=
  guardedAfter_append.mpr ⟨ht, hu.after _⟩

theorem guarded_flatMap {α : Type} {g : α → Text} {as : List α} (h : ∀ a ∈ as, Guarded (g a)) :
    Guarded (as.flatMap g) := by
  induction as with
  | nil => exact trivial
  | cons a as ih =>
    rw [List.flatMap_cons]
    exact (h a (by simp)).append (ih fun b hb => h b (by simp [hb]))

/-- What follows characters that are no backslashes is guarded as well. -/
theorem Guarded.right {t u : Text} (h : Guarded (t ++ u)) (ht : '\\' ∉ t) : Guarded u := by
  have := (guardedAfter_append.mp h).2
  rwa [slashAfter_of_not_mem ht] at this

theorem backslash_not_mem_of_isBlankChar {t : Text} (h : ∀ c ∈ t, Text.isBlankChar c = true) :
    '\\' ∉ t := by
  intro hm
  have := h _ hm
  revert this
  decide

theorem Guarded.stripStart {t : Text} (h : Guarded t) : Guarded (Text.stripStart t) := by
  rw [← List.takeWhile_append_dropWhile (p := Text.isBlankChar) (l := t)] at h
  exact h.right (backslash_not_mem_of_isBlankChar (List.all_eq_true.mp List.all_takeWhile))

theorem Guarded.strip {t : Text} (h : Guarded t) : Guarded (Text.strip t) := by
  obtain ⟨a, b, ht, ha, -⟩ := Text.exists_dropAround Text.isBlankChar t
  rw [ht] at h
  exact Guarded.right (guardedAfter_append.mp h).1 (backslash_not_mem_of_isBlankChar ha)

/-- One more backslash takes no guard away. -/
theorem Guarded.insert {t u : Text} (h : Guarded (t ++ u)) : Guarded (t ++ '\\' :: u) := by
  obtain ⟨ht, hu⟩ := guardedAfter_append.mp h
  exact guardedAfter_append.mpr ⟨ht, fun hc => absurd hc (by decide), GuardedAfter.weaken hu⟩

theorem needsGuard_of_isDecimal {c : Char} (h : Text.isDecimal c = true) :
    needsGuard c = false := by
  cases hn : needsGuard c with
  | false => rfl
  | true =>
    simp only [needsGuard, Bool.or_eq_true, beq_iff_eq] at hn
    rcases hn with (rfl | rfl) | rfl <;> rw [Text.not_isDecimal_of_gap (by decide)] at h <;> cases h

/-- A marker has nothing to guard, and ends without a backslash. -/
theorem guardedAfter_marker {slash : Bool} {d u : Text} (hd : IsNumeral d) :
    GuardedAfter slash ((Piece.marker d).render ++ u) ↔ Guarded u := by
  have plain : ∀ c ∈ (Piece.marker d).render, needsGuard c = false := by
    intro c hc
    simp only [Piece.render, List.cons_append, List.mem_cons, List.mem_append, List.not_mem_nil,
      or_false] at hc
    rcases hc with rfl | hc | rfl
    · decide
    · exact needsGuard_of_isDecimal (hd.2 c hc)
    · decide
  have ends : slashAfter slash (Piece.marker d).render = false := by
    simp [Piece.render, slashAfter]
  rw [guardedAfter_append, ends]
  exact ⟨fun h => h.2, fun h => ⟨guardedAfter_of_plain plain, h⟩⟩

theorem guardedAfter_rename {f : Text → Text} (hf : ∀ d, IsNumeral d → IsNumeral (f d))
    {ps : List Piece} (hp : ∀ d ∈ pieceMarkers ps, IsNumeral d) {slash : Bool}
    (h : GuardedAfter slash (renderPieces ps)) :
    GuardedAfter slash (renderPieces (ps.map (Piece.rename f))) := by
  induction ps generalizing slash with
  | nil => exact trivial
  | cons p ps ih =>
    rw [List.map_cons, renderPieces_cons]
    rw [renderPieces_cons] at h
    cases p with
    | char c => exact ⟨h.1, ih hp h.2⟩
    | marker d =>
      rw [pieceMarkers_marker] at hp
      have hd := hp d (by simp)
      exact (guardedAfter_marker (hf d hd)).mpr
        (ih (fun e he => hp e (by simp [he])) ((guardedAfter_marker hd).mp h))

theorem Guarded.relabel {t : Text} (h : Guarded t) {f : Text → Text}
    (hf : ∀ d, IsNumeral d → IsNumeral (f d)) : Guarded (relabel f t) := by
  refine guardedAfter_rename hf (fun d hd => isNumeral_of_mem_markersOf hd) ?_
  rw [renderPieces_pieces]
  exact h

theorem not_guarded_close {a rest : Text} (h : '\\' ∉ a) (ne : a ≠ []) (slash : Bool) :
    ¬ GuardedAfter slash (a ++ '\x7d' :: rest) := by
  intro hg
  have ends : slashAfter slash a = false := by
    obtain ⟨c, r, rfl⟩ := List.exists_cons_of_ne_nil ne
    rw [List.mem_cons, not_or] at h
    have hc : (c == '\\') = false := by simpa using fun he : c = '\\' => h.1 he.symm
    rw [slashAfter, List.foldl_cons, hc]
    exact slashAfter_of_not_mem h.2
  have := (guardedAfter_append.mp hg).2.1 (by decide)
  rw [ends] at this
  cases this

theorem afterSentinel?_eq_none {slash : Bool} {t : Text} (h : GuardedAfter slash t) :
    afterSentinel? t = none := by
  unfold afterSentinel?
  split
  · rename_i r
    split
    · rename_i s hs
      split
      · rename_i rest hr
        exfalso
        unfold Text.after? at hs
        split at hs
        · rename_i hw
          cases hs
          obtain ⟨u, hu⟩ := List.isPrefixOf_iff_prefix.mp hw
          rw [← hu, List.drop_left] at hr
          have front := List.takeWhile_append_dropWhile (p := Text.isBlankChar) (l := r)
          have back := List.takeWhile_append_dropWhile (p := Text.isBlankChar) (l := u)
          have blank (v : Text) : '\\' ∉ v.takeWhile Text.isBlankChar :=
            backslash_not_mem_of_isBlankChar (List.all_eq_true.mp List.all_takeWhile)
          have whole : '\x7b' :: r = ('\x7b' :: (r.takeWhile Text.isBlankChar ++
              (sentinelWord ++ u.takeWhile Text.isBlankChar))) ++ '\x7d' :: rest := by
            rw [← hr, List.cons_append, List.append_assoc, List.append_assoc, Text.stripStart, back,
              hu, Text.stripStart, front]
          rw [whole] at h
          refine not_guarded_close ?_ (by simp) slash h
          simp only [List.mem_cons, List.mem_append, not_or]
          exact ⟨by decide, blank r, by decide, blank u⟩
        · cases hs
      · rfl
    · rfl
  · rfl

/-- Escaped text has no sentinel. -/
theorem hasSentinel_eq_false {slash : Bool} {t : Text} (h : GuardedAfter slash t) :
    hasSentinel t = false := by
  induction t generalizing slash with
  | nil => rfl
  | cons c r ih =>
    rw [hasSentinel, afterSentinel?_eq_none h, ih h.2]
    rfl

/-- Escaped text opens no fence. -/
theorem fenceOf_eq_none {t : Text} (h : Guarded t) : fenceOf t = none := by
  have hs := h.stripStart
  unfold fenceOf
  cases hb : Text.stripStart t with
  | nil => rfl
  | cons c r =>
    rw [hb] at hs
    have hc : ¬ (c = backtick ∨ c = '~') := by
      intro hc
      have := hs.1 (by rcases hc with rfl | rfl <;> decide)
      cases this
    simp [hc]

theorem guarded_escapeFrom (slash : Bool) (before : Option Char) (t : Text) :
    GuardedAfter slash (escapeFrom before t) := by
  induction t generalizing slash before with
  | nil => exact trivial
  | cons c r ih =>
    rw [escapeFrom]
    split
    · exact ⟨fun hc => absurd hc (by decide), fun _ => rfl, ih _ _⟩
    · rename_i hn
      refine ⟨fun hc => absurd ?_ hn, ih _ _⟩
      simp only [needsGuard, backtick, Bool.or_eq_true, beq_iff_eq] at hc
      rcases hc with (rfl | rfl) | rfl <;> rfl

theorem guarded_escape (t : Text) : Guarded (escape t) :=
  guarded_escapeFrom false none t

end Docmark.Markdown
