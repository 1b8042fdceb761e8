import Docmark.Text.Basic

/-!
A text written into another one at given offsets. Where two texts follow one another, what is
written into the first one and what is written into the second follow one another too.
-/

namespace Docmark.Text

/--
A text that begins at the offset `start`, with `s` written at each of the offsets; at one that is
listed more than once, as often as it is listed.
-/
def insertFrom (s : Text) (offsets : List Nat) (start : Nat) : Text → Text
  | [] => (List.replicate (offsets.count start) s).flatten
  | c :: r =>
    (List.replicate (offsets.count start) s).flatten ++ c :: insertFrom s offsets (start + 1) r

theorem insertFrom_no_offsets (s : Text) (start : Nat) (t : Text) :
    insertFrom s [] start t = t := by
  induction t generalizing start with
  | nil => rfl
  | cons c r ih => simp [insertFrom, ih]

theorem insertFrom_empty (offsets : List Nat) (start : Nat) (t : Text) :
    insertFrom [] offsets start t = t := by
  induction t generalizing start with
  | nil => simp [insertFrom]
  | cons c r ih => simp [insertFrom, ih]

/-- Only the offsets from the start on count, and how often each is listed. -/
theorem insertFrom_congr {s : Text} {os ps : List Nat} {start : Nat}
    (same : ∀ i, start ≤ i → os.count i = ps.count i) (t : Text) :
    insertFrom s os start t = insertFrom s ps start t := by
  induction t generalizing start with
  | nil => simp only [insertFrom, same start (Nat.le_refl _)]
  | cons c r ih =>
    have rest := ih fun i le => same i (Nat.le_of_succ_le le)
    simp only [insertFrom, same start (Nat.le_refl _), rest]

/-- Offsets up to the start only put something in front. -/
theorem insertFrom_append_offsets {s : Text} {os : List Nat} {start : Nat}
    (low : ∀ o ∈ os, o ≤ start) (ps : List Nat) (t : Text) :
    insertFrom s (os ++ ps) start t =
      (List.replicate (os.count start) s).flatten ++ insertFrom s ps start t := by
  have front : (List.replicate ((os ++ ps).count start) s).flatten =
      (List.replicate (os.count start) s).flatten ++
        (List.replicate (ps.count start) s).flatten := by
    rw [List.count_append, ← List.replicate_append_replicate, List.flatten_append]
  cases t with
  | nil => exact front
  | cons c r =>
    have rest : insertFrom s (os ++ ps) (start + 1) r = insertFrom s ps (start + 1) r := by
      refine insertFrom_congr (fun i le => ?_) r
      have passed : os.count i = 0 := List.count_eq_zero.mpr fun hi => by
        have := low i hi
        omega
      rw [List.count_append, passed, Nat.zero_add]
    rw [insertFrom, insertFrom, front, rest, List.append_assoc]

theorem insertFrom_append {s t : Text} {os ps : List Nat} {start : Nat}
    (low : ∀ o ∈ os, o ≤ start + t.length) (high : ∀ p ∈ ps, start + t.length ≤ p) (u : Text) :
    insertFrom s (os ++ ps) start (t ++ u) =
      insertFrom s os start t ++ insertFrom s ps (start + t.length) u := by
  induction t generalizing start with
  | nil => exact insertFrom_append_offsets low ps u
  | cons c r ih =>
    have next : start + (c :: r).length = start + 1 + r.length := by
      rw [List.length_cons]
      omega
    rw [next] at low high ⊢
    have later : ps.count start = 0 := List.count_eq_zero.mpr fun hp => by
      have := high start hp
      omega
    rw [List.cons_append, insertFrom, insertFrom, List.count_append, later, Nat.add_zero,
      ih low high, List.append_assoc, List.cons_append]

/-- One more offset at the end of a text. -/
theorem insertFrom_end {s t : Text} {os : List Nat} {start : Nat}
    (low : ∀ o ∈ os, o ≤ start + t.length) :
    insertFrom s ((start + t.length) :: os) start t = insertFrom s os start t ++ s := by
  have moved : insertFrom s ((start + t.length) :: os) start t =
      insertFrom s (os ++ [start + t.length]) start t :=
    insertFrom_congr (fun i _ => (List.perm_append_singleton _ os).symm.count_eq i) t
  have split : insertFrom s (os ++ [start + t.length]) start (t ++ []) = insertFrom s os start t ++
      insertFrom s [start + t.length] (start + t.length) [] := insertFrom_append low (by simp) []
  rw [moved]
  simpa [insertFrom] using split

end Docmark.Text
