import Docmark.Proofs.Text.Lines
import Docmark.Proofs.Text.Trim

/-!
The words of a text hold no white space, so that a text written on one line, its words with single
spaces between them, is trimmed and has no line feed.
-/

namespace Docmark.Text

/-- The words of a text with a space between each two. -/
def singleSpaced (t : Text) : Text :=
  joinWith [' '] (words t)

theorem words_go_shown {t w : Text} (h : w ∈ words.go t) :
    w ≠ [] ∧ ∀ c ∈ w, isBlankChar c = false := by
  fun_induction words.go t generalizing w with
  | case1 => cases h
  | case2 c r blank ih => exact ih h
  | case3 c shown =>
    obtain rfl := List.mem_singleton.mp h
    simpa using shown
  | case4 c shown d r blank ih =>
    rcases List.mem_cons.mp h with rfl | h
    · simpa using shown
    · exact ih h
  | case5 c shown d r next ih =>
    cases hg : words.go (d :: r) with
    | nil => simp [hg] at h
    | cons v vs =>
      rw [hg, List.modifyHead_cons] at h
      rcases List.mem_cons.mp h with rfl | h
      · obtain ⟨-, hv⟩ := ih (w := v) (by simp [hg])
        refine ⟨by simp, fun e he => ?_⟩
        rcases List.mem_cons.mp he with rfl | he
        · simpa using shown
        · exact hv e he
      · exact ih (by simp [hg, h])

theorem words_shown {t w : Text} (h : w ∈ words t) :
    w ≠ [] ∧ ∀ c ∈ w, isBlankChar c = false :=
  words_go_shown h

theorem trimmed_of_mem_words {t w : Text} (h : w ∈ words t) : Trimmed w := by
  obtain ⟨ne, shown⟩ := words_shown h
  exact trimmed_of_ends ne (fun c hc => shown c (List.mem_of_mem_head? hc))
    (fun c hc => shown c (List.mem_of_mem_getLast? hc))

theorem mem_joinWith {sep : Text} {ts : List Text} {c : Char} (h : c ∈ joinWith sep ts) :
    c ∈ sep ∨ ∃ t ∈ ts, c ∈ t := by
  induction ts with
  | nil => cases h
  | cons t ts ih =>
    cases ts with
    | nil => exact Or.inr ⟨t, by simp, h⟩
    | cons u us =>
      rw [joinWith_cons _ _ (by simp), List.append_assoc, List.mem_append, List.mem_append] at h
      rcases h with h | h | h
      · exact Or.inr ⟨t, by simp, h⟩
      · exact Or.inl h
      · rcases ih h with hs | ⟨v, hv, hc⟩
        · exact Or.inl hs
        · exact Or.inr ⟨v, by simp [hv], hc⟩

theorem newline_not_mem_singleSpaced (t : Text) : '\n' ∉ singleSpaced t := by
  intro h
  rcases mem_joinWith h with h | ⟨w, hw, h⟩
  · simp at h
  · have := (words_shown hw).2 '\n' h
    revert this
    decide

theorem strip_singleSpaced (t : Text) : strip (singleSpaced t) = singleSpaced t := by
  by_cases none : words t = []
  · rw [singleSpaced, none]
    rfl
  · exact (trimmed_joinWith none fun w hw => trimmed_of_mem_words hw).stripped

end Docmark.Text
