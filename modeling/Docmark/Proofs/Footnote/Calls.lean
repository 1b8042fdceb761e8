import Docmark.Proofs.Footnote.Findings
import Docmark.Proofs.Text.Order
import Mathlib.Data.List.DropRight
import Mathlib.Order.Interval.Set.Basic

/-!
Calls on the numbers of footnotes in any order, and what is answered to them. Main statement: after
any calls the table numbers the names seen since the last reset from one on, in the order in which
they were first seen, and the definitions and the orphans are told each once, in that order.
-/

open Docmark.Convert

namespace Docmark.Footnote

/-- What a state of footnotes is told or asked. -/
inductive Call
  | numberFor (id : Text)
  | reference (id : Text)
  | define (id content : Text)
  | renderDefinitions
  | tooltips
  | findings
  | reset
  deriving DecidableEq

namespace Call

/-- The name that a call brings. -/
def seen? : Call → Option Text
  | numberFor id => some id
  | reference id => some id
  | define id _ => some id
  | _ => none

def referenced? : Call → Option Text
  | reference id => some id
  | _ => none

def defined? : Call → Option (Text × Text)
  | define id content => some (id, content)
  | _ => none

end Call

/-- Findings are none where they ask for the number of a name that has none. -/
inductive Answer
  | number (n : Nat)
  | text (t : Text)
  | pairs (ps : List (Text × Text))
  | messages (ms : Option (List Text))
  | done
  deriving DecidableEq

namespace State

/-- The findings, as long as every name that they look up is in the table. -/
def findings? (s : State) : Option (List Text) := do
  let numbers ← (s.referenced.filter fun id => !s.definitions.has id).mapM s.numbers.get?
  return (Text.sortByKey Int.ofNat numbers).map (fun n => orphanedReference (Text.decimal n)) ++
    s.unreferenced.map fun d => orphanedDefinition (Text.decimal d.number)

/-- What is answered to a call, and the state after it. -/
def call (s : State) : Call → Answer × State
  | .numberFor id => (.number (s.numberFor id).1, (s.numberFor id).2)
  | .reference id => (.number (s.reference id).1, (s.reference id).2)
  | .define id content => (.number (s.define id content).1, (s.define id content).2)
  | .renderDefinitions => (.text s.renderDefinitions, s)
  | .tooltips => (.pairs s.tooltips, s)
  | .findings => (.messages s.findings?, s)
  | .reset => (.done, {})

/-- The state after calls one after the other. -/
def after (s : State) (cs : List Call) : State :=
  cs.foldl (fun s c => (s.call c).2) s

end State

def sinceReset (cs : List Call) : List Call :=
  cs.rtakeWhile (· ≠ .reset)

/-- The names seen since the last reset, in the order of the calls. -/
def seenIn (cs : List Call) : List Text :=
  (sinceReset cs).filterMap Call.seen?

def referencedIn (cs : List Call) : List Text :=
  (sinceReset cs).filterMap Call.referenced?

/-- The definitions since the last reset, each with the content it came with. -/
def definedIn (cs : List Call) : List (Text × Text) :=
  (sinceReset cs).filterMap Call.defined?

def definedNames (cs : List Call) : List Text :=
  (definedIn cs).map Prod.fst

/-- What the last definition of a name says. -/
def contentIn (cs : List Call) (id : Text) : Text :=
  Text.strip ((lastContent id (definedIn cs)).getD [])

/-- A call adds what it tells, unless all is forgotten. -/
theorem told_concat {α : Type} (f : Call → Option α) (cs : List Call) {c : Call}
    (ne : c ≠ .reset) :
    (sinceReset (cs ++ [c])).filterMap f = (sinceReset cs).filterMap f ++ (f c).toList := by
  have kept : sinceReset (cs ++ [c]) = sinceReset cs ++ [c] :=
    List.rtakeWhile_concat_pos _ _ c (by simpa using ne)
  rw [kept, List.filterMap_append]
  cases h : f c <;> simp [h]

theorem sinceReset_reset (cs : List Call) : sinceReset (cs ++ [.reset]) = [] :=
  List.rtakeWhile_concat_neg _ _ _ (by simp)

theorem mem_seenIn_of_referencedIn {cs : List Call} {x : Text} (h : x ∈ referencedIn cs) :
    x ∈ seenIn cs := by
  obtain ⟨c, hc, hx⟩ := List.mem_filterMap.mp h
  refine List.mem_filterMap.mpr ⟨c, hc, ?_⟩
  cases c with
  | reference id => exact hx
  | _ => cases hx

namespace State

variable {s : State} {names refs : List Text} {defs : List (Text × Text)}

/-- The state after footnotes with these names, which stand in the table as they were first seen. -/
structure Lists (s : State) (names refs : List Text) (defs : List (Text × Text)) : Prop
    extends s.Counts names refs defs where
  listed : s.numbers = (Text.distinct names).zipIdx 1

theorem lists_initial : Lists {} [] [] [] :=
  ⟨counts_initial, rfl⟩

/-- A new name is put behind those in the table. -/
theorem Lists.numbers_numberFor (h : s.Lists names refs defs) (x : Text) :
    (s.numberFor x).2.numbers = (Text.distinct (names ++ [x])).zipIdx 1 := by
  have known := h.numbers x
  rw [State.numberFor, Text.distinct_append_singleton]
  by_cases hx : x ∈ names
  · rw [if_pos hx] at known ⊢
    rw [known]
    exact h.listed
  · rw [if_neg hx] at known ⊢
    have new : x ∉ s.numbers.keys := Dictionary.get?_eq_none_iff.mp known
    simp only [known]
    rw [Dictionary.put_of_not_mem new, h.listed, h.counter, List.zipIdx_append, Nat.add_comm]
    rfl

theorem numbers_reference (s : State) (x : Text) :
    (s.reference x).2.numbers = (s.numberFor x).2.numbers := by
  rw [reference, numberFor, numberFor]
  cases s.numbers.get? x <;> rfl

/-- What a call tells is added to the state, and a name that it brings gets a number. -/
theorem Lists.call (h : s.Lists names refs defs) {c : Call} (ne : c ≠ .reset) :
    (s.call c).2.Lists (names ++ c.seen?.toList) (refs ++ c.referenced?.toList)
      (defs ++ c.defined?.toList) := by
  have same : s.Lists (names ++ []) (refs ++ []) (defs ++ []) := by simpa using h
  cases c with
  | numberFor x =>
    refine ⟨?_, h.numbers_numberFor x⟩
    simpa [State.call, Call.seen?, Call.referenced?, Call.defined?] using (h.numberFor x).2
  | reference x =>
    refine ⟨?_, (numbers_reference s x).trans (h.numbers_numberFor x)⟩
    simpa [State.call, Call.seen?, Call.referenced?, Call.defined?] using (h.reference x).2
  | define x content =>
    refine ⟨?_, h.numbers_numberFor x⟩
    simpa [State.call, Call.seen?, Call.referenced?, Call.defined?] using (h.define x content).2
  | renderDefinitions => exact same
  | tooltips => exact same
  | findings => exact same
  | reset => exact absurd rfl ne

/-- A state that is new at first knows what the calls have told since the last reset. -/
theorem lists_after (cs : List Call) :
    (({} : State).after cs).Lists (seenIn cs) (referencedIn cs) (definedIn cs) := by
  induction cs using List.reverseRecOn with
  | nil => exact lists_initial
  | append_singleton cs c ih =>
    have last : ({} : State).after (cs ++ [c]) = ((({} : State).after cs).call c).2 := by
      rw [after, List.foldl_append]
      rfl
    rw [last, seenIn, referencedIn, definedIn]
    by_cases reset : c = .reset
    · rw [reset, sinceReset_reset]
      exact lists_initial
    · rw [told_concat _ _ reset, told_concat _ _ reset, told_concat _ _ reset]
      exact ih.call reset

/-- Names that a condition is true of, each once, in the order of their numbers. -/
structure InOrder (s : State) (P : Text → Prop) (xs : List Text) : Prop where
  mem : ∀ x, x ∈ xs ↔ P x
  nodup : xs.Nodup
  ordered : xs.Pairwise fun x y => s.numberOf x < s.numberOf y

theorem inOrder_of_lt {P : Text → Prop} {xs : List Text} (mem : ∀ x, x ∈ xs ↔ P x)
    (ordered : xs.Pairwise fun x y => s.numberOf x < s.numberOf y) : s.InOrder P xs := by
  refine ⟨mem, ordered.imp ?_, ordered⟩
  rintro x y lt rfl
  exact Nat.lt_irrefl _ lt

theorem Counts.numberOf_inj (h : s.Counts names refs defs) {x y : Text} (hx : x ∈ names)
    (hy : y ∈ names) (he : s.numberOf x = s.numberOf y) : x = y := by
  rw [h.numberOf_eq hx, h.numberOf_eq hy] at he
  exact numberAmong_inj hx hy he

/-- The numbers from one up to the counter stand for the names. -/
theorem Counts.bijOn (h : s.Counts names refs defs) :
    Set.BijOn s.numberOf {x | x ∈ names} (Set.Icc 1 s.counter) := by
  refine ⟨fun x hx => ?_, fun x hx y hy => h.numberOf_inj hx hy, fun n hn => ?_⟩
  · have place := List.idxOf_lt_length_iff.mpr (Text.mem_distinct.mpr hx)
    rw [h.numberOf_eq hx, numberAmong_eq hx, h.counter]
    exact ⟨by omega, by omega⟩
  · obtain ⟨lower, upper⟩ := hn
    rw [h.counter] at upper
    have place : n - 1 < (Text.distinct names).length := by omega
    have mem : (Text.distinct names)[n - 1] ∈ names := Text.mem_distinct.mp (List.getElem_mem place)
    refine ⟨(Text.distinct names)[n - 1], mem, ?_⟩
    rw [h.numberOf_eq mem, numberAmong_eq mem, (Text.nodup_distinct names).idxOf_getElem]
    omega

theorem Counts.get?_numbers (h : s.Counts names refs defs) {x : Text} (hx : x ∈ names) :
    s.numbers.get? x = some (s.numberOf x) := by
  rw [h.numberOf_eq hx, h.numbers, if_pos hx]

theorem Counts.mem_names (h : s.Counts names refs defs) {x : Text}
    (hx : x ∈ defs.map Prod.fst) : x ∈ names := by
  obtain ⟨p, hp, rfl⟩ := List.mem_map.mp hx
  exact h.named p hp

/-- A definition carries the number of its name, and the content that it came with last. -/
theorem Counts.fields_of_mem_ordered (h : s.Counts names refs defs) {d : Definition}
    (hd : d ∈ s.ordered) : d.id ∈ defs.map Prod.fst ∧ d.number = s.numberOf d.id ∧
      d.content = Text.strip ((lastContent d.id defs).getD []) := by
  obtain ⟨x, c, hc, rfl⟩ := h.mem_ordered.mp hd
  have defined : x ∈ defs.map Prod.fst := List.mem_map_of_mem (mem_of_lastContent hc)
  exact ⟨defined, (h.numberOf_eq (h.mem_names defined)).symm, by rw [hc]; rfl⟩

/-- Some of the definitions, as their names in order. -/
theorem Counts.inOrder_ids (h : s.Counts names refs defs) {ds : List Definition}
    (part : ds.Sublist s.ordered) {P : Text → Prop} (mem : ∀ x, x ∈ ds.map Definition.id ↔ P x) :
    s.InOrder P (ds.map Definition.id) := by
  refine inOrder_of_lt mem (List.pairwise_map.mpr ?_)
  refine (h.ordered_lt.sublist part).imp_of_mem fun {a b} ha hb lt => ?_
  rwa [← (h.fields_of_mem_ordered (part.subset ha)).2.1,
    ← (h.fields_of_mem_ordered (part.subset hb)).2.1]

theorem Counts.mem_ids (h : s.Counts names refs defs) (x : Text) :
    x ∈ s.ordered.map Definition.id ↔ x ∈ defs.map Prod.fst := by
  constructor
  · intro hx
    obtain ⟨d, hd, rfl⟩ := List.mem_map.mp hx
    exact (h.fields_of_mem_ordered hd).1
  · intro hx
    obtain ⟨c, hc⟩ := h.exists_lastContent hx
    exact List.mem_map.mpr ⟨_, h.mem_ordered.mpr ⟨x, c, hc, rfl⟩, rfl⟩

theorem Counts.inOrder_undefinedNames (h : s.Counts names refs defs)
    (known : ∀ x ∈ refs, x ∈ names) :
    s.InOrder (fun x => x ∈ refs ∧ x ∉ defs.map Prod.fst) s.undefinedNames := by
  refine inOrder_of_lt (fun x => h.mem_undefinedNames) ?_
  have nodup : s.undefinedNames.Nodup := by
    rw [undefinedNames, (Text.sortByKey_perm _ _).nodup_iff, h.referenced]
    exact (Text.nodup_distinct refs).filter _
  have up := Text.sortByKey_ordered (fun x => (s.numberOf x : Int))
    (s.referenced.filter fun x => !s.definitions.has x)
  refine (List.Pairwise.and up nodup).imp_of_mem fun {x y} hx hy both => ?_
  have seen {z : Text} (hz : z ∈ s.undefinedNames) : z ∈ names :=
    known z (h.mem_undefinedNames.mp hz).1
  have apart : s.numberOf x ≠ s.numberOf y := fun he =>
    both.2 (h.numberOf_inj (seen hx) (seen hy) he)
  have := both.1
  omega

theorem Counts.mem_unreferenced_ids (h : s.Counts names refs defs) (x : Text) :
    x ∈ s.unreferenced.map Definition.id ↔ x ∈ defs.map Prod.fst ∧ x ∉ refs := by
  rw [← h.mem_ids, List.mem_map, List.mem_map]
  constructor
  · rintro ⟨d, hd, rfl⟩
    obtain ⟨ordered, unused⟩ := h.mem_unreferenced.mp hd
    exact ⟨⟨d, ordered, rfl⟩, unused⟩
  · rintro ⟨⟨d, ordered, rfl⟩, unused⟩
    exact ⟨d, h.mem_unreferenced.mpr ⟨ordered, unused⟩, rfl⟩

/-- Looking up succeeds where it does for each. -/
theorem mapM_eq_some {α β : Type} {f : α → Option β} {g : α → β} {as : List α}
    (h : ∀ a ∈ as, f a = some (g a)) : as.mapM f = some (as.map g) := by
  induction as with
  | nil => rfl
  | cons a as ih =>
    rw [List.mapM_cons, h a (by simp), ih fun b hb => h b (by simp [hb])]
    rfl

/-- No name without a number is looked up. -/
theorem Counts.findings?_eq (h : s.Counts names refs defs) (known : ∀ x ∈ refs, x ∈ names) :
    s.findings? = some s.findings := by
  have found : (s.referenced.filter fun id => !s.definitions.has id).mapM s.numbers.get? =
      some ((s.referenced.filter fun id => !s.definitions.has id).map s.numberOf) := by
    refine mapM_eq_some fun x hx => h.get?_numbers (known x ?_)
    rw [h.referenced] at hx
    exact Text.mem_distinct.mp (List.mem_filter.mp hx).1
  have sorted := Text.sortByKey_map Int.ofNat s.numberOf
    (s.referenced.filter fun id => !s.definitions.has id)
  rw [findings?, found, findings, undefinedNames]
  simp only [Option.bind_eq_bind, Option.bind_some, pure, sorted, List.map_map]
  rfl

/-- There is nothing to find where the same names are referred to and defined. -/
theorem Counts.findings_eq_nil_iff (h : s.Counts names refs defs) :
    s.findings = [] ↔ ∀ x, x ∈ refs ↔ x ∈ defs.map Prod.fst := by
  have ids : s.unreferenced = [] ↔ s.unreferenced.map Definition.id = [] := List.map_eq_nil_iff.symm
  rw [findings, List.append_eq_nil_iff, List.map_eq_nil_iff, List.map_eq_nil_iff, ids]
  simp only [List.eq_nil_iff_forall_not_mem, h.mem_undefinedNames, h.mem_unreferenced_ids,
    ← forall_and]
  refine forall_congr' fun x => ?_
  tauto

/-- The number that is answered for a name is the one that the name has from then on. -/
theorem Lists.number_call (h : s.Lists names refs defs) {c : Call} {x : Text}
    (brings : c.seen? = some x) : (s.call c).1 = .number ((s.call c).2.numberOf x) := by
  have ne : c ≠ .reset := by
    rintro rfl
    cases brings
  have next := (h.call ne).numberOf_eq (x := x) (by rw [brings]; simp)
  rw [brings, Option.toList_some] at next
  rw [next]
  cases c with
  | numberFor y =>
    cases brings
    exact congrArg _ (h.numberFor x).1
  | reference y =>
    cases brings
    exact congrArg _ (h.reference x).1
  | define y content =>
    cases brings
    exact congrArg _ (h.define x content).1
  | _ => cases brings

/--
Calls on a new state. The table numbers the names seen since the last reset from one on, in the
order in which they were first seen. What is referred to or defined has a number there, and a
definition carries it. The definitions are written, and the orphans reported, each once and by their
numbers, all of which are found; nothing is reported just where the names referred to are those
defined. A call that brings a name is answered its number.
-/
theorem after_calls (cs : List Call) :
    let s := ({} : State).after cs
    s.numbers = (Text.distinct (seenIn cs)).zipIdx 1 ∧
    Set.BijOn s.numberOf {x | x ∈ seenIn cs} (Set.Icc 1 s.counter) ∧
    (∀ x, x ∈ s.referenced ↔ x ∈ referencedIn cs) ∧
    (∀ x, x ∈ s.definitions.keys ↔ x ∈ definedNames cs) ∧
    (∀ x, x ∈ s.referenced ∨ x ∈ s.definitions.keys → s.numbers.get? x = some (s.numberOf x)) ∧
    (∀ x d, s.definitions.get? x = some d → d = ⟨x, contentIn cs x, s.numberOf x⟩) ∧
    (∃ xs, s.InOrder (· ∈ definedNames cs) xs ∧
      s.renderDefinitions = Text.joinBlocks (xs.map fun x =>
        "[^".toList ++ Text.decimal (s.numberOf x) ++ "]: ".toList ++ contentIn cs x) ∧
      s.tooltips = xs.map fun x => (Text.decimal (s.numberOf x), contentIn cs x)) ∧
    (∃ us ds, s.InOrder (fun x => x ∈ referencedIn cs ∧ x ∉ definedNames cs) us ∧
      s.InOrder (fun x => x ∈ definedNames cs ∧ x ∉ referencedIn cs) ds ∧
      s.findings = us.map (fun x => orphanedReference (Text.decimal (s.numberOf x))) ++
        ds.map fun x => orphanedDefinition (Text.decimal (s.numberOf x))) ∧
    s.findings? = some s.findings ∧
    (s.findings = [] ↔ ∀ x, x ∈ referencedIn cs ↔ x ∈ definedNames cs) ∧
    ∀ c x, c.seen? = some x → (s.call c).1 = .number ((s.call c).2.numberOf x) := by
  intro s
  have h : s.Lists (seenIn cs) (referencedIn cs) (definedIn cs) := lists_after cs
  have known : ∀ x ∈ referencedIn cs, x ∈ seenIn cs := fun x hx => mem_seenIn_of_referencedIn hx
  have referenced (x : Text) : x ∈ s.referenced ↔ x ∈ referencedIn cs := by
    rw [h.referenced, Text.mem_distinct]
  have defined (x : Text) : x ∈ s.definitions.keys ↔ x ∈ definedNames cs := by
    rw [h.defined, Text.mem_distinct, definedNames]
  refine ⟨h.listed, h.bijOn, referenced, defined, ?_, ?_, ?_, ?_, h.findings?_eq known,
    h.findings_eq_nil_iff, fun c x => h.number_call⟩
  · rintro x (hx | hx)
    · exact h.get?_numbers (known x ((referenced x).mp hx))
    · exact h.get?_numbers (h.mem_names ((defined x).mp hx))
  · intro x d hd
    rw [h.definitions] at hd
    obtain ⟨c, hc, rfl⟩ := Option.map_eq_some_iff.mp hd
    have mem : x ∈ definedNames cs := List.mem_map_of_mem (mem_of_lastContent hc)
    rw [h.numberOf_eq (h.mem_names mem), contentIn, hc]
    rfl
  · refine ⟨_, h.inOrder_ids (List.Sublist.refl _) h.mem_ids, ?_, ?_⟩
    · rw [renderDefinitions, List.map_map]
      refine congrArg _ (List.map_congr_left fun d hd => ?_)
      obtain ⟨-, number, content⟩ := h.fields_of_mem_ordered hd
      rw [Definition.render, number, content]
      simp [contentIn]
    · rw [tooltips, List.map_map]
      refine List.map_congr_left fun d hd => ?_
      obtain ⟨-, number, content⟩ := h.fields_of_mem_ordered hd
      rw [number, content]
      rfl
  · refine ⟨_, _, h.inOrder_undefinedNames known,
      h.inOrder_ids List.filter_sublist h.mem_unreferenced_ids, ?_⟩
    rw [findings, List.map_map]
    refine congrArg _ (List.map_congr_left fun d hd => ?_)
    rw [(h.fields_of_mem_ordered (h.mem_unreferenced.mp hd).1).2.1]
    rfl

/-- Calls with a reset among them, and names that are referred to or defined only. -/
def orphaningCalls : List Call :=
  [.reference ['z'], .reset, .define ['b'] "two ".toList, .reference ['a'], .findings,
    .define ['b'] " last ".toList, .numberFor ['c'], .renderDefinitions]

theorem orphaningCalls_after :
    let s := ({} : State).after orphaningCalls
    s.numbers = [(['b'], 1), (['a'], 2), (['c'], 3)] ∧
    s.renderDefinitions = "[^1]: last".toList ∧
    s.findings = ["Orphaned footnote reference: [^2]".toList,
      "Orphaned footnote definition: [^1]".toList] ∧
    Set.BijOn s.numberOf {x | x ∈ seenIn orphaningCalls} (Set.Icc 1 s.counter) := by
  refine ⟨by decide, by decide, by decide, (after_calls orphaningCalls).2.1⟩

end State

end Docmark.Footnote
