import Docmark.Annotation.State
import Docmark.Proofs.Annotation.Marker
import Docmark.Proofs.Text.Decimal
import Docmark.Proofs.Text.Distinct

/-!
What an open block does to the numbers: its names count on from the last number given, in the order
in which they are first used, and each marker is written with the number of its name.
-/

namespace Docmark.Annotation

theorem isNumeral_decimal (n : Nat) : IsNumeral (Text.decimal n) :=
  ⟨Text.decimal_ne_nil n,
    fun _ hc => Text.isDecimal_of_isDigit (Text.isDigit_of_mem_decimal hc)⟩

/-- The number of a name, where `names` count on from `base`. -/
def numberIn (base : Nat) (names : List Text) (d : Text) : Nat :=
  base + 1 + names.idxOf d

def numeralIn (base : Nat) (names : List Text) (d : Text) : Text :=
  Text.decimal (numberIn base names d)

theorem isNumeral_numeralIn (base : Nat) (names : List Text) (d : Text) :
    IsNumeral (numeralIn base names d) :=
  isNumeral_decimal _

/-- A name keeps its number when others get theirs. -/
theorem numberIn_distinctFrom {names : List Text} {d : Text} (h : d ∈ names) (base : Nat)
    (ds : List Text) : numberIn base (Text.distinctFrom names ds) d = numberIn base names d := by
  rw [numberIn, Text.idxOf_distinctFrom h, numberIn]

theorem map_numberIn {names : List Text} (h : names.Nodup) (base : Nat) :
    names.map (numberIn base names) = List.range' (base + 1) names.length := by
  apply List.ext_getElem
  · simp
  · intro i hi _
    simp [numberIn, h.idxOf_getElem]

theorem numberIn_inj {names : List Text} {base : Nat} {d e : Text} (hd : d ∈ names)
    (h : numberIn base names d = numberIn base names e) : d = e := by
  refine List.idxOf_inj hd |>.mp ?_
  simpa [numberIn] using h

/-- The numbers referred to after a block whose markers are `ds`. -/
theorem distinctFrom_numbers {refs : List Int} {base : Nat} (old : ∀ n ∈ refs, n ≤ base)
    (ds : List Text) :
    Text.distinctFrom refs (ds.map fun d => ((numberIn base (Text.distinct ds) d : Nat) : Int)) =
      refs ++ (List.range' (base + 1) (Text.distinct ds).length).map Int.ofNat := by
  have inj : ∀ d ∈ ds, ∀ e ∈ [] ++ ds, ((numberIn base (Text.distinct ds) d : Nat) : Int) =
      (numberIn base (Text.distinct ds) e : Nat) → d = e := fun d hd e _ he =>
    numberIn_inj (Text.mem_distinct.mpr hd) (Int.ofNat.inj he)
  have fresh : ∀ d ∈ ds, ((numberIn base (Text.distinct ds) d : Nat) : Int) ∉ refs := by
    intro d _ hm
    have := old _ hm
    rw [numberIn] at this
    omega
  have h := Text.distinctFrom_map inj fresh
  rw [List.map_nil, List.append_nil] at h
  rw [h, ← map_numberIn (Text.nodup_distinct ds), List.map_map]
  rfl

/-- Markers keep their names just where these are the numbers that come next. -/
theorem numeralIn_fixed_iff {names : List Text} (h : names.Nodup) (base : Nat) :
    (∀ d ∈ names, numeralIn base names d = d) ↔
      names = (List.range' (base + 1) names.length).map Text.decimal := by
  rw [← map_numberIn h base, List.map_map]
  constructor
  · intro hd
    exact (List.map_id' names).symm.trans (List.map_congr_left fun d hm => (hd d hm).symm)
  · intro he d hd
    exact (List.map_inj_left.mp (he.symm.trans (List.map_id' names).symm)) d hd

namespace State

/-- The open block has given numbers to `names`, in this order, on from `base`. -/
structure Opened (s : State) (base : Nat) (names : List Text) : Prop where
  counter : s.counter = (base + names.length : Nat)
  block : ∀ d, s.block.get? d =
    if d ∈ names then some ((numberIn base names d : Nat) : Int) else none

theorem opened_nil {s : State} {base : Nat} (hc : s.counter = base) (hb : s.block = []) :
    s.Opened base [] := by
  refine ⟨by simpa using hc, fun d => ?_⟩
  simp [hb]

theorem Opened.isKnown_iff {s : State} {base : Nat} {names : List Text} (h : s.Opened base names)
    (d : Text) : s.isKnown d = true ↔ d ∈ names := by
  have := h.block d
  rw [Dictionary.get?] at this
  rw [isKnown, Dictionary.has, this]
  split <;> simp [*]

@[simp] theorem definitions_resolve (s : State) (d : Text) :
    (s.resolve d).2.definitions = s.definitions := by
  unfold resolve
  split <;> rfl

@[simp] theorem referenced_resolve (s : State) (d : Text) :
    (s.resolve d).2.referenced = s.referenced := by
  unfold resolve
  split <;> rfl

theorem Opened.resolve {s : State} {base : Nat} {names : List Text} (h : s.Opened base names)
    (d : Text) :
    (s.resolve d).1 = numberIn base (Text.distinctFrom names [d]) d ∧
      (s.resolve d).2.Opened base (Text.distinctFrom names [d]) := by
  have hd := h.block d
  by_cases hm : d ∈ names
  · rw [if_pos hm] at hd
    rw [Text.distinctFrom_cons_of_mem hm, Text.distinctFrom_nil]
    have he : s.resolve d = (((numberIn base names d : Nat) : Int), s) := by
      unfold State.resolve
      rw [hd]
    rw [he]
    exact ⟨rfl, h⟩
  · rw [if_neg hm] at hd
    rw [Text.distinctFrom_cons_of_not_mem hm, Text.distinctFrom_nil]
    have hn : s.counter + 1 = (numberIn base (names ++ [d]) d : Nat) := by
      rw [h.counter, numberIn, List.idxOf_append_of_notMem hm, List.idxOf_cons_self]
      omega
    have he : s.resolve d = (s.counter + 1,
        { s with counter := s.counter + 1, block := s.block.put d (s.counter + 1) }) := by
      unfold State.resolve
      rw [hd]
    rw [he]
    refine ⟨hn, ?_, ?_⟩
    · simp only [h.counter, List.length_append, List.length_singleton]
      omega
    · intro e
      by_cases hed : e = d
      · subst e
        simp [Dictionary.get?_put_self, hn]
      · rw [Dictionary.get?_put_of_ne hed, h.block e]
        by_cases hem : e ∈ names
        · simp [hem, numberIn, List.idxOf_append_of_mem hem]
        · simp [hem, hed]

theorem Opened.reference {s : State} {base : Nat} {names : List Text} (h : s.Opened base names)
    (d : Text) :
    (s.reference d).1 = numberIn base (Text.distinctFrom names [d]) d ∧
      (s.reference d).2.Opened base (Text.distinctFrom names [d]) ∧
      (s.reference d).2.definitions = s.definitions ∧
      (s.reference d).2.referenced = Text.distinctFrom s.referenced [(s.reference d).1] := by
  obtain ⟨hn, ho⟩ := h.resolve d
  refine ⟨hn, ⟨ho.counter, ho.block⟩, definitions_resolve s d, ?_⟩
  simp [State.reference, Text.distinctFrom]

/-- In an open block every marker gets the number of its name. -/
theorem Opened.renumberPieces {s : State} {base : Nat} {names : List Text}
    (h : s.Opened base names) (ps : List Piece) :
    (s.renumberPieces ps).1 =
        ps.map (Piece.rename (numeralIn base (Text.distinctFrom names (pieceMarkers ps)))) ∧
      (s.renumberPieces ps).2.Opened base (Text.distinctFrom names (pieceMarkers ps)) ∧
      (s.renumberPieces ps).2.definitions = s.definitions ∧
      (s.renumberPieces ps).2.referenced = Text.distinctFrom s.referenced
        ((pieceMarkers ps).map fun d =>
          ((numberIn base (Text.distinctFrom names (pieceMarkers ps)) d : Nat) : Int)) := by
  induction ps generalizing s names with
  | nil => exact ⟨rfl, h, rfl, rfl⟩
  | cons p ps ih =>
    cases p with
    | char c =>
      obtain ⟨hp, ho, hd, hr⟩ := ih h
      simp only [State.renumberPieces, pieceMarkers_char, List.map_cons, Piece.rename, hp]
      exact ⟨trivial, ho, hd, hr⟩
    | marker d =>
      obtain ⟨hn, ho, hd, hr⟩ := h.reference d
      obtain ⟨hp', ho', hd', hr'⟩ := ih ho
      have hall : Text.distinctFrom (Text.distinctFrom names [d]) (pieceMarkers ps) =
          Text.distinctFrom names (d :: pieceMarkers ps) :=
        (Text.distinctFrom_append names [d] (pieceMarkers ps)).symm
      have known : d ∈ Text.distinctFrom names [d] := Text.mem_distinctFrom.mpr (by simp)
      have hnum : (s.reference d).1 =
          (numberIn base (Text.distinctFrom names (d :: pieceMarkers ps)) d : Nat) := by
        rw [hn, ← hall, numberIn_distinctFrom known]
      rw [hall] at hp' ho' hr'
      simp only [State.renumberPieces, pieceMarkers_marker, List.map_cons, Piece.rename, hp', hnum]
      refine ⟨rfl, ho', hd'.trans hd, ?_⟩
      rw [hr', hr, hnum, ← Text.distinctFrom_append]
      rfl

theorem Opened.renumber {s : State} {base : Nat} {names : List Text} (h : s.Opened base names)
    (t : Text) :
    (s.renumber t).1 = relabel (numeralIn base (Text.distinctFrom names (markersOf t))) t ∧
      (s.renumber t).2.Opened base (Text.distinctFrom names (markersOf t)) ∧
      (s.renumber t).2.definitions = s.definitions ∧
      (s.renumber t).2.referenced = Text.distinctFrom s.referenced ((markersOf t).map fun d =>
        ((numberIn base (Text.distinctFrom names (markersOf t)) d : Nat) : Int)) := by
  obtain ⟨hp, ho, hd, hr⟩ := h.renumberPieces (pieces t)
  refine ⟨?_, ho, hd, hr⟩
  have hw : (s.renumber t).1 = renderPieces (s.renumberPieces (pieces t)).1 := rfl
  rw [hw, hp]
  rfl

theorem Opened.define {s : State} {base : Nat} {names : List Text} (h : s.Opened base names)
    (d content : Text) :
    (s.define d content).1 = numberIn base (Text.distinctFrom names [d]) d ∧
      (s.define d content).2.Opened base (Text.distinctFrom names [d]) ∧
      (s.define d content).2.referenced = s.referenced := by
  obtain ⟨hn, ho⟩ := h.resolve d
  exact ⟨hn, ⟨ho.counter, ho.block⟩, referenced_resolve s d⟩

end State

end Docmark.Annotation
