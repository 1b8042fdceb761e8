import Docmark.Text.Basic

/-!
Cutting a text into lines and joining lines again undo each other, and lines and blocks can be
joined one part at a time.
-/

namespace Docmark.Text

theorem lines_ne_nil (t : Text) : lines t ≠ [] := by
  induction t with
  | nil => simp [lines]
  | cons c r ih =>
    simp only [lines]
    split
    · simp
    · obtain ⟨l, ls, hl⟩ := List.exists_cons_of_ne_nil ih
      simp [hl]

theorem joinWith_cons (sep t : Text) {ts : List Text} (h : ts ≠ []) :
    joinWith sep (t :: ts) = t ++ sep ++ joinWith sep ts := by
  cases ts with
  | nil => exact absurd rfl h
  | cons u us => rfl

theorem unlines_cons (l : Text) {ls : List Text} (h : ls ≠ []) :
    unlines (l :: ls) = l ++ '\n' :: unlines ls := by
  simp [unlines, joinWith_cons _ _ h]

theorem unlines_append {ls ms : List Text} (ne : ls ≠ []) (ne' : ms ≠ []) :
    unlines (ls ++ ms) = unlines ls ++ '\n' :: unlines ms := by
  induction ls with
  | nil => exact absurd rfl ne
  | cons l ls ih =>
    cases ls with
    | nil => exact unlines_cons l ne'
    | cons k ks =>
      rw [List.cons_append, unlines_cons l (by simp), ih (by simp), unlines_cons l (by simp)]
      simp

/-- Texts that are put together from lines can be put together at once. -/
theorem unlines_flatten {lss : List (List Text)} (ne : ∀ ls ∈ lss, ls ≠ []) :
    unlines lss.flatten = unlines (lss.map unlines) := by
  induction lss with
  | nil => rfl
  | cons ls lss ih =>
    have rest := ih fun ms hm => ne ms (by simp [hm])
    cases lss with
    | nil => simp [unlines, joinWith]
    | cons ms lss =>
      have filled : (ms :: lss).flatten ≠ [] := by simp [ne ms]
      rw [List.flatten_cons, unlines_append (ne ls (by simp)) filled, rest]
      exact (unlines_cons _ (List.cons_ne_nil _ _)).symm

theorem unlines_lines (t : Text) : unlines (lines t) = t := by
  induction t with
  | nil => rfl
  | cons c r ih =>
    simp only [lines]
    split
    · rename_i hc
      rw [unlines_cons [] (lines_ne_nil r), ih, hc]
      rfl
    · obtain ⟨l, ls, hl⟩ := List.exists_cons_of_ne_nil (lines_ne_nil r)
      rw [hl] at ih ⊢
      cases ls with
      | nil => simpa [unlines, joinWith] using ih
      | cons m ms => simpa [unlines, joinWith] using ih

theorem newline_not_mem_of_mem_lines {l t : Text} (h : l ∈ lines t) : '\n' ∉ l := by
  induction t generalizing l with
  | nil =>
    simp only [lines, List.mem_singleton] at h
    simp [h]
  | cons c r ih =>
    simp only [lines] at h
    split at h
    · rcases List.mem_cons.mp h with rfl | h
      · simp
      · exact ih h
    · rename_i hc
      obtain ⟨m, ms, hm⟩ := List.exists_cons_of_ne_nil (lines_ne_nil r)
      rw [hm, List.modifyHead_cons] at h
      rcases List.mem_cons.mp h with rfl | h
      · have := ih (l := m) (by simp [hm])
        simp [Ne.symm hc, this]
      · exact ih (by simp [hm, h])

theorem endsWith_newline (t : Text) : endsWith ['\n'] t = (t.getLast? == some '\n') := by
  rw [Bool.eq_iff_iff, endsWith, List.isSuffixOf_iff_suffix, beq_iff_eq, List.getLast?_eq_some_iff]
  constructor
  · rintro ⟨r, rfl⟩
    exact ⟨r, rfl⟩
  · rintro ⟨r, rfl⟩
    exact ⟨r, rfl⟩

theorem endsWith_newline_of_not_mem {t : Text} (line : '\n' ∉ t) :
    endsWith ['\n'] t = false := by
  rw [endsWith_newline, beq_eq_false_iff_ne]
  exact fun last => line (List.mem_of_getLast? last)

theorem infix_of_mem_lines {l t : Text} (hl : l ∈ lines t) : l <:+: t := by
  obtain ⟨above, below, cut⟩ := List.append_of_mem hl
  have whole := unlines_lines t
  have inner : l <:+: unlines (l :: below) := by
    by_cases last : below = []
    · exact ⟨[], [], by rw [last]; simp [unlines, joinWith]⟩
    · exact ⟨[], '\n' :: unlines below, by rw [unlines_cons l last]; rfl⟩
  rw [cut] at whole
  rw [← whole]
  by_cases first : above = []
  · rw [first]
    exact inner
  · obtain ⟨front, back, hb⟩ := inner
    refine ⟨unlines above ++ '\n' :: front, back, ?_⟩
    rw [unlines_append first (List.cons_ne_nil l below), ← hb]
    simp

theorem mem_of_mem_lines {l t : Text} {c : Char} (hl : l ∈ lines t) (hc : c ∈ l) : c ∈ t :=
  (infix_of_mem_lines hl).subset hc

theorem lines_append_newline (t u : Text) : lines (t ++ '\n' :: u) = lines t ++ lines u := by
  induction t with
  | nil => simp [lines]
  | cons c r ih =>
    simp only [List.cons_append, lines, ih]
    split
    · rfl
    · obtain ⟨l, ls, hl⟩ := List.exists_cons_of_ne_nil (lines_ne_nil r)
      simp [hl]

/-- A blank line stands between two texts. -/
theorem lines_append_gap (t u : Text) :
    lines (t ++ ['\n', '\n'] ++ u) = lines t ++ [] :: lines u := by
  rw [List.append_assoc]
  exact lines_append_newline t ('\n' :: u)

/-- What is put in front of a text joins its first line. -/
theorem lines_append_of_not_mem {l : Text} (line : '\n' ∉ l) (t : Text) :
    lines (l ++ t) = (lines t).modifyHead (l ++ ·) := by
  induction l with
  | nil =>
    obtain ⟨m, ms, hm⟩ := List.exists_cons_of_ne_nil (lines_ne_nil t)
    simp [hm]
  | cons c r ih =>
    simp only [List.mem_cons, not_or] at line
    obtain ⟨m, ms, hm⟩ := List.exists_cons_of_ne_nil (lines_ne_nil t)
    simp [lines, Ne.symm line.1, ih line.2, hm]

theorem lines_of_not_mem {t : Text} (h : '\n' ∉ t) : lines t = [t] := by
  induction t with
  | nil => rfl
  | cons c r ih =>
    simp only [List.mem_cons, not_or] at h
    simp [lines, Ne.symm h.1, ih h.2]

/-- The lines that a text is joined from can be read back. -/
theorem lines_unlines {ls : List Text} (ne : ls ≠ []) (h : ∀ l ∈ ls, '\n' ∉ l) :
    lines (unlines ls) = ls := by
  induction ls with
  | nil => exact absurd rfl ne
  | cons l ls ih =>
    have hl : lines l = [l] := lines_of_not_mem (h l (by simp))
    cases ls with
    | nil => exact hl
    | cons m ms =>
      rw [unlines_cons l (by simp), lines_append_newline, hl,
        ih (by simp) (fun k hk => h k (by simp [hk]))]
      rfl

/-- What is done to each line of a text, as long as it leaves one line. -/
theorem lines_mapLines {g : Text → Text} (h : ∀ l, '\n' ∉ l → '\n' ∉ g l) (t : Text) :
    lines (unlines ((lines t).map g)) = (lines t).map g := by
  refine lines_unlines (by simpa using lines_ne_nil t) fun l hl => ?_
  obtain ⟨m, hm, rfl⟩ := List.mem_map.mp hl
  exact h m (newline_not_mem_of_mem_lines hm)

theorem joinBlocks_cons (b : Text) {bs : List Text} (h : bs ≠ []) :
    joinBlocks (b :: bs) = b ++ '\n' :: '\n' :: joinBlocks bs := by
  simp [joinBlocks, joinWith_cons _ _ h]

/-- The lines of joined blocks are those of the blocks, an empty one between each two. -/
theorem lines_joinBlocks_cons (b : Text) {bs : List Text} (h : bs ≠ []) :
    lines (joinBlocks (b :: bs)) = lines b ++ [] :: lines (joinBlocks bs) := by
  rw [joinBlocks_cons b h, lines_append_newline]
  simp [lines]

/-- Only empty lines stand between blocks. -/
theorem mem_lines_joinBlocks {bs : List Text} {l : Text} (h : l ∈ lines (joinBlocks bs)) :
    l = [] ∨ ∃ b ∈ bs, l ∈ lines b := by
  induction bs with
  | nil => exact Or.inl (List.mem_singleton.mp h)
  | cons b bs ih =>
    cases bs with
    | nil => exact Or.inr ⟨b, by simp, h⟩
    | cons b' bs =>
      rw [lines_joinBlocks_cons b (by simp), List.mem_append, List.mem_cons] at h
      rcases h with here | between | below
      · exact Or.inr ⟨b, by simp, here⟩
      · exact Or.inl between
      · exact (ih below).imp_right fun ⟨b'', hb, hl⟩ => ⟨b'', List.mem_cons_of_mem b hb, hl⟩

theorem lines_injective {t u : Text} (h : lines t = lines u) : t = u := by
  rw [← unlines_lines t, h, unlines_lines]

/-- Joined blocks are equal just where the blocks are, if these have as many lines each. -/
theorem joinBlocks_map_inj {α : Type} {f g : α → Text} {bs : List α}
    (same : ∀ b ∈ bs, (lines (f b)).length = (lines (g b)).length) :
    joinBlocks (bs.map f) = joinBlocks (bs.map g) ↔ ∀ b ∈ bs, f b = g b := by
  refine ⟨fun h => ?_, fun h => by rw [List.map_congr_left h]⟩
  induction bs with
  | nil => simp
  | cons b bs ih =>
    cases bs with
    | nil => simpa [joinBlocks, joinWith] using h
    | cons c bs =>
      have hl : lines (joinBlocks (f b :: (c :: bs).map f)) =
          lines (joinBlocks (g b :: (c :: bs).map g)) := congrArg lines h
      have ne (k : α → Text) : (c :: bs).map k ≠ [] := by simp
      rw [lines_joinBlocks_cons (f b) (ne f), lines_joinBlocks_cons (g b) (ne g)] at hl
      obtain ⟨hb, hrest⟩ := List.append_inj hl (same b (by simp))
      intro d hd
      rcases List.mem_cons.mp hd with rfl | hd
      · exact lines_injective hb
      · refine ih (fun e he => same e (by simp [he])) ?_ d hd
        exact lines_injective (List.cons.inj hrest).2

end Docmark.Text
