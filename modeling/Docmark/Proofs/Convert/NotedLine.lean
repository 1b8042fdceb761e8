import Docmark.Annotation.Processor
import Docmark.Proofs.Convert.AnnotatedBlock
import Docmark.Proofs.Markdown.PlainLine

/-!
Lines with markers and the notes that belong to them. A block numbers its line once: what it wrote
gets the same numbers and the same notes again.
-/

namespace Docmark

open Annotation

/-- A line, and the names and contents of the notes on it. -/
structure NotedLine where
  line : Text
  notes : List (Text × Text)

namespace NotedLine

/-- The names in the markers, in the order of their numbers. -/
def names (e : NotedLine) : List Text :=
  Text.distinct (markersOf e.line)

/-- The line is one of text that was escaped, every note is one to be shown, and has a marker. -/
structure Proper (e : NotedLine) : Prop where
  line : Markdown.PlainLine e.line
  shown : Text.isBlank e.line = false
  marked : ∀ p ∈ e.notes, p.1 ∈ markersOf e.line
  plain : ∀ p ∈ e.notes, Markdown.PlainLine p.2
  trimmed : ∀ p ∈ e.notes, Text.Trimmed p.2

/-- The line with numbers that count on from `base`. -/
def numbered (base : Nat) (e : NotedLine) : NotedLine where
  line := relabel (numeralIn base e.names) e.line
  notes := e.notes.map fun p => (numeralIn base e.names p.1, p.2)

/-- The state after the line and its notes. -/
def after (a : State) (e : NotedLine) : State :=
  (Convert.storeDefinitions (a.renumber e.line).2 e.notes).2.closeBlock

theorem mem_names {e : NotedLine} {d : Text} : d ∈ e.names ↔ d ∈ markersOf e.line :=
  Text.mem_distinct

theorem nodup_names (e : NotedLine) : e.names.Nodup :=
  Text.nodup_distinct _

theorem distinctFrom_notes {e : NotedLine} (marked : ∀ p ∈ e.notes, p.1 ∈ markersOf e.line) :
    Text.distinctFrom e.names (e.notes.map Prod.fst) = e.names := by
  refine Text.distinctFrom_of_subset fun d hd => ?_
  obtain ⟨p, hp, rfl⟩ := List.mem_map.mp hd
  exact mem_names.mpr (marked p hp)

theorem after_eq {a : State} (h : a.Sound) {e : NotedLine}
    (marked : ∀ p ∈ e.notes, p.1 ∈ markersOf e.line) :
    after a e = {
      counter := (a.counter.toNat + e.names.length : Nat)
      definitions := Convert.putDefinitions a.counter.toNat e.names a.definitions e.notes
      block := []
      referenced := Text.distinctFrom a.referenced
        ((markersOf e.line).map fun d => ((numberIn a.counter.toNat e.names d : Nat) : Int)) } := by
  obtain ⟨-, ho, hd, hr⟩ := h.opened.renumber e.line
  obtain ⟨-, ho', hd', hr'⟩ := Convert.storeDefinitions_opened ho e.notes
  have known : Text.distinctFrom (Text.distinctFrom [] (markersOf e.line))
      (e.notes.map Prod.fst) = e.names := distinctFrom_notes marked
  rw [known] at ho' hd'
  rw [after, State.closeBlock, State.mk.injEq]
  refine ⟨ho'.counter, ?_, rfl, hr'.trans hr⟩
  rw [hd', hd]

theorem names_numbered (base : Nat) (e : NotedLine) :
    (e.numbered base).names = e.names.map (numeralIn base e.names) := by
  have ms : markersOf (e.numbered base).line =
      (markersOf e.line).map (numeralIn base e.names) :=
    markersOf_relabel (fun d _ => isNumeral_numeralIn base e.names d) e.line
  have inj : ∀ d ∈ markersOf e.line, ∀ d' ∈ [] ++ markersOf e.line,
      numeralIn base e.names d = numeralIn base e.names d' → d = d' := fun d hd d' _ he =>
    numberIn_inj (mem_names.mpr hd) (Text.decimal_injective he)
  have images : Text.distinctFrom ([] ++ [].map (numeralIn base e.names))
      ((markersOf e.line).map (numeralIn base e.names)) = _ :=
    Text.distinctFrom_map inj (by simp)
  rw [List.map_nil, List.append_nil, List.nil_append] at images
  rw [names, ms]
  exact images

/-- Numbers that were given are given again. -/
theorem numeralIn_numbered (base : Nat) {e : NotedLine} {d : Text} (hd : d ∈ e.names) :
    numeralIn base (e.numbered base).names (numeralIn base e.names d) =
      numeralIn base e.names d := by
  have fixed : (e.numbered base).names = (List.range' (base + 1)
      (e.numbered base).names.length).map Text.decimal := by
    rw [names_numbered, List.length_map, ← map_numberIn (nodup_names e) base, List.map_map]
    rfl
  refine (numeralIn_fixed_iff (nodup_names (e.numbered base)) base).mpr fixed _ ?_
  rw [names_numbered]
  exact List.mem_map_of_mem hd

theorem numberIn_numbered (base : Nat) {e : NotedLine} {d : Text} (hd : d ∈ e.names) :
    numberIn base (e.numbered base).names (numeralIn base e.names d) = numberIn base e.names d :=
  Text.decimal_injective (numeralIn_numbered base hd)

theorem marked_numbered (base : Nat) {e : NotedLine}
    (marked : ∀ p ∈ e.notes, p.1 ∈ markersOf e.line) :
    ∀ p ∈ (e.numbered base).notes, p.1 ∈ markersOf (e.numbered base).line := by
  intro p hp
  obtain ⟨q, hq, rfl⟩ := List.mem_map.mp hp
  have known := List.mem_map_of_mem (f := numeralIn base e.names)
    (mem_names.mpr (marked q hq))
  rwa [← names_numbered, mem_names] at known

/-- The numbers of a line leave it as it is. -/
theorem relabel_numbered (base : Nat) (e : NotedLine) :
    relabel (numeralIn base (e.numbered base).names) (e.numbered base).line =
      (e.numbered base).line := by
  refine (relabel_eq_self_iff fun d _ => isNumeral_numeralIn base _ d).mpr fun d hd => ?_
  rw [← mem_names, names_numbered] at hd
  obtain ⟨d', hd', rfl⟩ := List.mem_map.mp hd
  exact numeralIn_numbered base hd'

/-- A line that has its numbers, and its notes with them, come to the same as those before. -/
theorem after_numbered {a : State} (h : a.Sound) {e : NotedLine}
    (marked : ∀ p ∈ e.notes, p.1 ∈ markersOf e.line) :
    after a (e.numbered a.counter.toNat) = after a e := by
  have notes (d : Dictionary Text Definition) :
      Convert.putDefinitions a.counter.toNat (e.numbered a.counter.toNat).names d
          (e.numbered a.counter.toNat).notes =
        Convert.putDefinitions a.counter.toNat e.names d e.notes := by
    rw [show (e.numbered a.counter.toNat).notes = e.notes.map fun p =>
      (numeralIn a.counter.toNat e.names p.1, p.2) from rfl, Convert.putDefinitions,
      Convert.putDefinitions, List.foldl_map]
    refine List.foldl_ext _ _ _ fun d p hp => ?_
    have hp := mem_names.mpr (marked p hp)
    simp only [Convert.definitionIn, numeralIn_numbered a.counter.toNat hp,
      numberIn_numbered a.counter.toNat hp]
  have references : (markersOf (e.numbered a.counter.toNat).line).map (fun d =>
      ((numberIn a.counter.toNat (e.numbered a.counter.toNat).names d : Nat) : Int)) =
      (markersOf e.line).map fun d => ((numberIn a.counter.toNat e.names d : Nat) : Int) := by
    rw [numbered, markersOf_relabel fun d _ => isNumeral_numeralIn a.counter.toNat e.names d,
      List.map_map]
    refine List.map_congr_left fun d hd => ?_
    exact congrArg Int.ofNat (numberIn_numbered a.counter.toNat (mem_names.mpr hd))
  rw [after_eq h marked, after_eq h (marked_numbered _ marked), State.mk.injEq]
  refine ⟨?_, notes _, rfl, by rw [references]⟩
  rw [names_numbered, List.length_map]

theorem sound_after {a : State} (h : a.Sound) {e : NotedLine}
    (marked : ∀ p ∈ e.notes, p.1 ∈ markersOf e.line) : (after a e).Sound := by
  rw [after_eq h marked]
  refine (Convert.grows_of_numbers h (fun p hp => mem_names.mpr (marked p hp)) rfl rfl rfl
    fun n hn => ?_).sound
  rcases Text.mem_distinctFrom.mp hn with hn | hn
  · exact Or.inl hn
  · obtain ⟨d, hd, rfl⟩ := List.mem_map.mp hn
    have := Convert.numberIn_le a.counter.toNat (mem_names.mpr hd)
    exact Or.inr (by simp only; omega)

end NotedLine

end Docmark
