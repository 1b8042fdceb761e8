import Docmark.Proofs.Convert.Visits

/-!
The numbers that annotated blocks give. Main statement: when a node has been converted no block is
open; the blocks, in the order in which they end, count through all numbers up to the last one, each
on from where the one before it stopped; and definitions and markers have these numbers only.
-/

namespace Docmark

open Annotation Conversion

namespace Annotation

/-- So many numbers, on from the last one before them. -/
def numbersAfter (base count : Nat) : List Int :=
  (List.range' (base + 1) count).map fun k : Nat => (k : Int)

theorem numbersAfter_succ (base count : Nat) :
    numbersAfter base (count + 1) =
      numbersAfter base count ++ [((base + count : Nat) : Int) + 1] := by
  rw [numbersAfter, List.range'_concat, List.map_append, numbersAfter, List.map_singleton]
  congr 2
  omega

theorem numbersAfter_append (base m n : Nat) :
    numbersAfter base m ++ numbersAfter (base + m) n = numbersAfter base (m + n) := by
  have next : base + m + 1 = base + 1 + 1 * m := by omega
  rw [numbersAfter, numbersAfter, numbersAfter, ← List.map_append, next, List.range'_append]

namespace State

/-- The names of the open block have the numbers from `base` on, in the order in which they came. -/
structure CountsOn (base : Nat) (s : State) : Prop where
  counter : s.counter = (base + s.block.length : Nat)
  numbers : s.block.values = numbersAfter base s.block.length

variable {base : Nat} {s : State}

theorem CountsOn.of_closed (counter : s.counter = base) (closed : s.block = []) :
    s.CountsOn base :=
  ⟨by simp [closed, counter], by simp [closed, Dictionary.values, numbersAfter]⟩

theorem CountsOn.resolve (h : s.CountsOn base) (name : Text) :
    (s.resolve name).2.CountsOn base := by
  unfold State.resolve
  cases known : s.block.get? name with
  | some n => exact h
  | none =>
    have put := Dictionary.put_of_not_mem (v := s.counter + 1)
      (Dictionary.get?_eq_none_iff.mp known)
    refine ⟨?_, ?_⟩
    · simp only [put, List.length_append, List.length_cons, List.length_nil]
      have := h.counter
      omega
    · simp only [put, List.length_append, List.length_cons, List.length_nil, Nat.zero_add,
        Dictionary.values, List.map_append, List.map_cons, List.map_nil]
      rw [numbersAfter_succ, ← h.numbers, h.counter]
      rfl

theorem CountsOn.reference (h : s.CountsOn base) (name : Text) :
    (s.reference name).2.CountsOn base :=
  ⟨(h.resolve name).counter, (h.resolve name).numbers⟩

theorem CountsOn.define (h : s.CountsOn base) (name content : Text) :
    (s.define name content).2.CountsOn base :=
  ⟨(h.resolve name).counter, (h.resolve name).numbers⟩

theorem CountsOn.renumberPieces (h : s.CountsOn base) (ps : List Piece) :
    (s.renumberPieces ps).2.CountsOn base := by
  induction ps generalizing s with
  | nil => exact h
  | cons p ps ih =>
    cases p with
    | char c => exact ih h
    | marker name => exact ih (h.reference name)

end State

end Annotation

namespace Convert

variable {base : Nat} {s : State}

theorem countsOn_renumberBlocks (h : s.CountsOn base) (blocks : List (Bool × Text)) :
    (renumberBlocks s blocks).2.CountsOn base := by
  induction blocks generalizing s with
  | nil => exact h
  | cons b blocks ih =>
    obtain ⟨numbered, t⟩ := b
    cases numbered with
    | true => exact ih h
    | false => exact ih (h.renumberPieces (pieces t))

theorem countsOn_storeDefinitions (h : s.CountsOn base) (defs : List (Text × Text)) :
    (storeDefinitions s defs).2.CountsOn base := by
  induction defs generalizing s with
  | nil => exact h
  | cons p defs ih => exact ih (h.define p.1 p.2)

/-- The state of a block in which all names have their numbers. -/
def numberedBlock (a : State) (children : List Fragment) : State :=
  (storeDefinitions (renumberBlocks a.closeBlock (childBlocks children)).2
    (definitionsFrom 1 children)).2

theorem annotationBlock_after {s s' : Session} {ctx : Context} {n : Node}
    {children : List Fragment} {level : Int} {f : Fragment}
    (h : annotationBlock ctx n children level s = .ok (f, s')) :
    s' = { s with annotations := (numberedBlock s.annotations children).closeBlock } := by
  rw [annotationBlock_eq] at h
  cases h
  rfl

end Convert

/-- All definitions and markers have numbers that were given. -/
structure Annotation.State.Numbered (s : State) : Prop where
  definitions : ∀ p ∈ s.definitions, ∃ k : Nat, 1 ≤ k ∧ (k : Int) ≤ s.counter ∧
    p.1 = Text.decimal k ∧ p.2.id = Text.decimal k ∧ p.2.number = k
  referenced : ∀ m ∈ s.referenced, ∃ k : Nat, 1 ≤ k ∧ (k : Int) ≤ s.counter ∧ m = k

namespace Convert

theorem numbered_afterBlock {a : State} (sound : a.Sound) (h : a.Numbered)
    (children : List Fragment) : (afterBlock a children).Numbered := by
  have more := (grows_afterBlock sound children).counter
  constructor
  · intro p hp
    rcases mem_putDefinitions hp with hm | ⟨q, hq, rfl⟩
    · obtain ⟨k, pos, le, same⟩ := h.definitions p hm
      exact ⟨k, pos, Int.le_trans le more, same⟩
    · have := lt_numberIn a.counter.toNat (allNames children) q.1
      have := numberIn_le a.counter.toNat (mem_allNames_of_definition hq)
      refine ⟨numberIn a.counter.toNat (allNames children) q.1, by omega, ?_, rfl, rfl, rfl⟩
      simp only [afterBlock]
      omega
  · intro m hm
    rcases Text.mem_distinctFrom.mp hm with hm | hm
    · obtain ⟨k, pos, le, same⟩ := h.referenced m hm
      exact ⟨k, pos, Int.le_trans le more, same⟩
    · obtain ⟨d, hd, rfl⟩ := List.mem_map.mp hm
      have own : d ∈ blockNames children := Text.mem_distinct.mpr hd
      have := lt_numberIn a.counter.toNat (blockNames children) d
      have := numberIn_le a.counter.toNat own
      have := (Text.prefix_distinctFrom (blockNames children)
        ((definitionsFrom 1 children).map Prod.fst)).length_le
      refine ⟨numberIn a.counter.toNat (blockNames children) d, by omega, ?_, rfl⟩
      simp only [afterBlock, allNames]
      omega

end Convert

/-- The numbers that a conversion gives: an annotated block those of its names. -/
def Visit.allocated (v : Visit) : List Int :=
  if v.node.isAnnotatedBlock then
    (Convert.numberedBlock v.before.annotations v.children).block.values
  else []

namespace Convert

variable {a : State}

theorem closeBlock_numberedBlock (h : a.Sound) (children : List Fragment) :
    (numberedBlock a children).closeBlock = afterBlock a children := by
  have run := annotationBlock_run (s := { annotations := a }) h {} ⟨"", [], [], none, []⟩ children 0
  exact (congrArg Session.annotations (annotationBlock_after run)).symm

/-- The names of a block have all numbers between the last one before it and the last one after. -/
theorem countsOn_numberedBlock (h : a.Sound) (children : List Fragment) :
    (numberedBlock a children).CountsOn a.counter.toNat := by
  refine countsOn_storeDefinitions (countsOn_renumberBlocks ?_ _) _
  exact .of_closed (Int.toNat_of_nonneg h.natural).symm rfl

end Convert

namespace Visit.Made

variable {ctx : Context} {v : Visit}

/-- Only the conversion of a block touches the numbers of annotations. -/
theorem annotations (made : v.Made ctx) : v.after.annotations =
    if v.node.isAnnotatedBlock then
      (Convert.numberedBlock v.before.annotations v.children).closeBlock
    else v.before.annotations := by
  cases made with
  | read unknown same =>
    have noBlock : v.node.isAnnotatedBlock = false := by simp [Node.isAnnotatedBlock, unknown]
    rw [noBlock, same]
    rfl
  | @converted convert registered _ run =>
    by_cases kind : v.node.kind = NodeKind.annotation
    · rw [kind] at registered
      cases registered
      rcases Node.annotation_cases kind with reference | definition | block
      · rw [Convert.annotation_of_reference _ _ _ reference] at run
        rw [Node.isAnnotatedBlock_of_isReference reference, (pure_ok.mp run).2]
        rfl
      · rw [Convert.annotation_of_definition _ _ _ definition] at run
        rw [Node.isAnnotatedBlock_of_isDefinition definition, (pure_ok.mp run).2]
        rfl
      · rw [Convert.annotation_of_block _ _ _ block] at run
        rw [if_pos block, Convert.annotationBlock_after run]
    · have noBlock : v.node.isAnnotatedBlock = false := by
        simp [Node.isAnnotatedBlock, kind]
      rw [noBlock, keeps_builtin (Dictionary.mem_of_get? registered) kind _ _ _ _ _ _ _ run]
      rfl

theorem sound (made : v.Made ctx) (h : v.before.annotations.Sound) :
    v.after.annotations.Sound := by
  rw [made.annotations]
  split
  · rw [Convert.closeBlock_numberedBlock h]
    exact (Convert.grows_afterBlock h v.children).sound
  · exact h

theorem numbered (made : v.Made ctx) (h : v.before.annotations.Sound)
    (numbered : v.before.annotations.Numbered) : v.after.annotations.Numbered := by
  rw [made.annotations]
  split
  · rw [Convert.closeBlock_numberedBlock h]
    exact Convert.numbered_afterBlock h numbered v.children
  · exact numbered

/-- A conversion gives the numbers between the last ones before and after it. -/
theorem allocated (made : v.Made ctx) (h : v.before.annotations.Sound) :
    ∃ count, v.after.annotations.counter = (v.before.annotations.counter.toNat + count : Nat) ∧
      v.allocated = numbersAfter v.before.annotations.counter.toNat count := by
  rw [made.annotations, Visit.allocated]
  split
  · have counts := Convert.countsOn_numberedBlock h v.children
    exact ⟨_, counts.counter, counts.numbers⟩
  · exact ⟨0, (Int.toNat_of_nonneg h.natural).symm, rfl⟩

end Visit.Made

/-- Conversions one after the other give all numbers between the last ones before and after them. -/
theorem Visited.allocated {ctx : Context} {s t : Session} {vs : List Visit}
    (h : Visited ctx s vs t) (sound : s.annotations.Sound) :
    ∃ count, t.annotations.counter = (s.annotations.counter.toNat + count : Nat) ∧
      vs.flatMap Visit.allocated = numbersAfter s.annotations.counter.toNat count := by
  induction h with
  | nil s => exact ⟨0, (Int.toNat_of_nonneg sound.natural).symm, rfl⟩
  | @cons v vs t made rest ih =>
    obtain ⟨m, first, allocated⟩ := made.allocated sound
    obtain ⟨n, others, allocated'⟩ := ih (made.sound sound)
    have base : v.after.annotations.counter.toNat = v.before.annotations.counter.toNat + m := by
      rw [first, Int.toNat_natCast]
    refine ⟨m + n, ?_, ?_⟩
    · rw [others, base, Nat.add_assoc]
    · rw [List.flatMap_cons, allocated, allocated', base, numbersAfter_append]

/--
After every conversion no block is open. The blocks, as they end, give all numbers up to the last,
each those that follow the last number before it. Definitions and markers have these numbers only.
-/
theorem walk_blockNumbers {ctx : Context} {level : Int} {n : Node} {f : Fragment} {s : Session}
    (h : walk Registry.standard ctx level n {} = .ok (f, s)) :
    ∃ vs, visits Registry.standard ctx level n {} = .ok ((f, vs), s) ∧
      vs.map Visit.node = n.converted ∧
      (∀ v ∈ vs, v.after.annotations.block = []) ∧
      (∀ v ∈ vs, v.after.annotations =
        if v.node.isAnnotatedBlock then
          (Convert.numberedBlock v.before.annotations v.children).closeBlock
        else v.before.annotations) ∧
      (∀ v ∈ vs, ∃ base count : Nat, v.before.annotations.counter = base ∧
        v.after.annotations.counter = (base + count : Nat) ∧
        v.allocated = numbersAfter base count) ∧
      ∃ last : Nat, s.annotations.counter = last ∧
        vs.flatMap Visit.allocated = numbersAfter 0 last ∧
        (∀ p ∈ s.annotations.definitions, ∃ k : Nat, 1 ≤ k ∧ k ≤ last ∧
          p.1 = Text.decimal k ∧ p.2.id = Text.decimal k ∧ p.2.number = k) ∧
        ∀ m ∈ s.annotations.referenced, ∃ k : Nat, 1 ≤ k ∧ k ≤ last ∧ m = k := by
  obtain ⟨vs, made⟩ := visits_of_walk h
  obtain ⟨visited, nodes⟩ := visits_ok made
  have kept (v : Visit) (hv : v.Made ctx)
      (hs : v.before.annotations.Sound ∧ v.before.annotations.Numbered) :
      v.after.annotations.Sound ∧ v.after.annotations.Numbered :=
    ⟨hv.sound hs.1, hv.numbered hs.1 hs.2⟩
  obtain ⟨⟨-, numbered⟩, each⟩ := visited.invariant
    (P := fun t => t.annotations.Sound ∧ t.annotations.Numbered) kept
    ⟨State.sound_initial, by simp, by simp⟩
  obtain ⟨last, counter, allocated⟩ := visited.allocated State.sound_initial
  have zero : ({} : Session).annotations.counter.toNat = 0 := rfl
  rw [zero, Nat.zero_add] at counter
  refine ⟨vs, made, nodes, ?_, ?_, ?_, last, counter, allocated, ?_, ?_⟩
  · intro v hv
    exact (each v hv).2.2.1.closed
  · intro v hv
    exact (each v hv).1.annotations
  · intro v hv
    obtain ⟨hm, ⟨sound, -⟩, -⟩ := each v hv
    obtain ⟨count, after, given⟩ := hm.allocated sound
    exact ⟨_, count, (Int.toNat_of_nonneg sound.natural).symm, after, given⟩
  · intro p hp
    obtain ⟨k, pos, le, same⟩ := numbered.definitions p hp
    exact ⟨k, pos, by omega, same⟩
  · intro m hm
    obtain ⟨k, pos, le, same⟩ := numbered.referenced m hm
    exact ⟨k, pos, by omega, same⟩

/-- A block with a definition of its own and another block inside. -/
def nestedDocument : Node :=
  .documentOf [.blockOf [.paragraphOf [.ofText "A ", .referenceTo "1"],
    .blockOf [.paragraphOf [.ofText "B ", .referenceTo "7"]],
    .definitionOf "2" [.ofText "two"]]]

/-- The block inside ends first and gives one number, the block around it the next two. -/
theorem nestedDocument_blockNumbers :
    ∃ f s vs, visits Registry.standard {} 0 nestedDocument {} = .ok ((f, vs), s) ∧
      vs.map Visit.node = nestedDocument.converted ∧
      (∀ v ∈ vs, v.after.annotations.block = []) ∧
      (∀ v ∈ vs, ∃ base count : Nat, v.before.annotations.counter = base ∧
        v.after.annotations.counter = (base + count : Nat) ∧
        v.allocated = numbersAfter base count) ∧
      s.annotations.counter = 3 ∧ vs.flatMap Visit.allocated = [1, 2, 3] := by
  have run : (walk Registry.standard {} 0 nestedDocument {}).toOption.map
      (fun r => r.2.annotations.counter) = some 3 := rfl
  obtain ⟨⟨f, s⟩, h, three⟩ := exists_ok_of_map run
  have three : s.annotations.counter = 3 := three
  obtain ⟨vs, made, nodes, closed, -, given, last, counter, allocated, -⟩ := walk_blockNumbers h
  obtain rfl : last = 3 := by omega
  exact ⟨f, s, vs, made, nodes, closed, given, three, allocated⟩

end Docmark
