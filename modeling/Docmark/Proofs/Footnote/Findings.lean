import Docmark.Proofs.Footnote.Numbering
import Docmark.Proofs.Text.Decimal

/-!
Orphans among footnotes, as the validator finds them in a text and as the numbers have them. Where
both know the same definitions, they report the same just when they know the same references.
-/

open Docmark.Convert

namespace Docmark.Footnote

theorem orphanedReference_inj {d e : Text} (h : orphanedReference d = orphanedReference e) :
    d = e := by
  unfold orphanedReference at h
  have front := List.append_cancel_right h
  exact List.append_cancel_left front

theorem orphanedDefinition_inj {d e : Text} (h : orphanedDefinition d = orphanedDefinition e) :
    d = e := by
  unfold orphanedDefinition at h
  have front := List.append_cancel_right h
  exact List.append_cancel_left front

/-- The two kinds of messages differ in their words. -/
theorem orphanedReference_ne (d e : Text) : orphanedReference d ≠ orphanedDefinition e := by
  intro h
  have words := congrArg (List.take 20) h
  unfold orphanedReference orphanedDefinition at words
  rw [List.append_assoc, List.append_assoc, List.take_append_of_le_length (by decide),
    List.take_append_of_le_length (by decide)] at words
  revert words
  decide

/-- A message about one of what is referenced and what is defined without the other. -/
inductive Orphan (Referenced Defined : Text → Prop) : Text → Prop
  | reference {d : Text} (referenced : Referenced d) (undefined : ¬ Defined d) :
    Orphan Referenced Defined (orphanedReference d)
  | definition {d : Text} (defined : Defined d) (unreferenced : ¬ Referenced d) :
    Orphan Referenced Defined (orphanedDefinition d)

namespace Orphan

variable {Referenced Referenced' Defined : Text → Prop} {d : Text}

theorem reference_iff :
    Orphan Referenced Defined (orphanedReference d) ↔ Referenced d ∧ ¬ Defined d := by
  refine ⟨fun h => ?_, fun h => .reference h.1 h.2⟩
  generalize he : orphanedReference d = m at h
  cases h with
  | reference referenced undefined =>
    obtain rfl := orphanedReference_inj he
    exact ⟨referenced, undefined⟩
  | definition => exact absurd he (orphanedReference_ne _ _)

theorem definition_iff :
    Orphan Referenced Defined (orphanedDefinition d) ↔ Defined d ∧ ¬ Referenced d := by
  refine ⟨fun h => ?_, fun h => .definition h.1 h.2⟩
  generalize he : orphanedDefinition d = m at h
  cases h with
  | reference => exact absurd he.symm (orphanedReference_ne _ _)
  | definition defined unreferenced =>
    obtain rfl := orphanedDefinition_inj he
    exact ⟨defined, unreferenced⟩

/-- With the same definitions, the messages tell the references apart. -/
theorem same_iff : (∀ m, Orphan Referenced Defined m ↔ Orphan Referenced' Defined m) ↔
    ∀ d, Referenced d ↔ Referenced' d := by
  constructor
  · intro same d
    have references := same (orphanedReference d)
    have definitions := same (orphanedDefinition d)
    rw [reference_iff, reference_iff] at references
    rw [definition_iff, definition_iff] at definitions
    tauto
  · intro same m
    obtain rfl : Referenced = Referenced' := funext fun d => propext (same d)
    rfl

end Orphan

/-- The messages of the validator. -/
theorem mem_validate {t m : Text} : m ∈ validate t ↔
    Orphan (· ∈ Text.findAll reference? none 0 t) (· ∈ Text.findAll definition? none 0 t) m := by
  simp only [validate, List.mem_append, List.mem_map, List.mem_filter, Bool.not_eq_true',
    List.contains_eq_mem, decide_eq_false_iff_not, Text.mem_distinct]
  constructor
  · rintro (⟨d, ⟨referenced, undefined⟩, rfl⟩ | ⟨d, ⟨defined, unreferenced⟩, rfl⟩)
    · exact .reference referenced undefined
    · exact .definition defined unreferenced
  · rintro (⟨referenced, undefined⟩ | ⟨defined, unreferenced⟩)
    · exact Or.inl ⟨_, ⟨referenced, undefined⟩, rfl⟩
    · exact Or.inr ⟨_, ⟨defined, unreferenced⟩, rfl⟩

/-- The digits that some names are shown with. -/
def Numbered (names : List Text) (P : Text → Prop) (d : Text) : Prop :=
  ∃ x, P x ∧ d = Text.decimal (numberAmong names x)

theorem numbered_iff {names : List Text} {P : Text → Prop} (known : ∀ x, P x → x ∈ names) {x : Text}
    (hx : x ∈ names) : Numbered names P (Text.decimal (numberAmong names x)) ↔ P x := by
  constructor
  · rintro ⟨y, hy, he⟩
    rwa [numberAmong_inj hx (known y hy) (Text.decimal_injective he)]
  · intro h
    exact ⟨x, h, rfl⟩

/-- The messages about footnotes, among those of a conversion. -/
def IsMessage (m : Text) : Prop :=
  "Orphaned footnote".toList <+: m

instance : DecidablePred IsMessage :=
  fun m => inferInstanceAs (Decidable ("Orphaned footnote".toList <+: m))

theorem Orphan.isMessage {Referenced Defined : Text → Prop} {m : Text}
    (h : Orphan Referenced Defined m) : IsMessage m := by
  have front {t : Text} (ht : "Orphaned footnote".toList <+: t) (d : Text) :
      IsMessage (t ++ d ++ [']']) :=
    ht.trans ((List.prefix_append t d).trans (List.prefix_append _ _))
  cases h with
  | reference => exact front (by decide) _
  | definition => exact front (by decide) _

theorem not_isMessage_of_mem_findings {a : Annotation.State} {m : Text} (h : m ∈ a.findings) :
    ¬ IsMessage m := by
  have apart {t : Text} (ht : ¬ "Orphaned footnote".toList <+: t)
      (long : "Orphaned footnote".toList.length ≤ t.length) (d u : Text) :
      ¬ IsMessage (t ++ d ++ u) := by
    intro message
    rw [IsMessage, List.append_assoc] at message
    exact ht (List.prefix_of_prefix_length_le message (List.prefix_append t _) long)
  unfold Annotation.State.findings at h
  rw [List.mem_append, List.mem_map, List.mem_map] at h
  rcases h with ⟨n, -, rfl⟩ | ⟨d, -, rfl⟩
  · exact apart (by decide) (by decide) _ _
  · exact apart (by decide) (by decide) _ _

namespace State

variable {s : State} {names refs : List Text} {defs : List (Text × Text)}

theorem Counts.lastContent_eq_none_iff (h : s.Counts names refs defs) {x : Text} :
    lastContent x defs = none ↔ x ∉ defs.map Prod.fst := by
  have keys : x ∈ s.definitions.keys ↔ x ∈ defs.map Prod.fst := by rw [h.defined, Text.mem_distinct]
  rw [← keys, ← Dictionary.get?_eq_none_iff, h.definitions, Option.map_eq_none_iff]

theorem Counts.exists_lastContent (h : s.Counts names refs defs) {x : Text}
    (hx : x ∈ defs.map Prod.fst) : ∃ c, lastContent x defs = some c := by
  cases hc : lastContent x defs with
  | none => exact absurd hx (h.lastContent_eq_none_iff.mp hc)
  | some c => exact ⟨c, rfl⟩

theorem Counts.mem_undefinedNames (h : s.Counts names refs defs) {x : Text} :
    x ∈ s.undefinedNames ↔ x ∈ refs ∧ x ∉ defs.map Prod.fst := by
  have kept := congrArg Option.isSome (h.definitions x)
  rw [Option.isSome_map] at kept
  rw [undefinedNames, (Text.sortByKey_perm _ _).mem_iff, List.mem_filter, h.referenced,
    Text.mem_distinct, ← h.lastContent_eq_none_iff, Bool.not_eq_true',
    ← Option.isNone_iff_eq_none, ← Option.isSome_eq_false_iff, ← kept]
  rfl

theorem Counts.mem_unreferenced (h : s.Counts names refs defs) {d : Definition} :
    d ∈ s.unreferenced ↔ d ∈ s.ordered ∧ d.id ∉ refs := by
  rw [State.unreferenced, List.mem_filter, h.referenced, Bool.not_eq_true',
    List.contains_eq_mem, decide_eq_false_iff_not, Text.mem_distinct]

theorem Counts.numberOf_eq (h : s.Counts names refs defs) {x : Text} (hx : x ∈ names) :
    s.numberOf x = numberAmong names x := by
  rw [numberOf, h.numbers, if_pos hx]
  rfl

/-- The messages of a conversion. -/
theorem Counts.mem_findings (h : s.Counts names refs defs) (known : ∀ x ∈ refs, x ∈ names)
    {m : Text} : m ∈ s.findings ↔
      Orphan (Numbered names (· ∈ refs)) (Numbered names (· ∈ defs.map Prod.fst)) m := by
  have known' : ∀ x ∈ defs.map Prod.fst, x ∈ names := by
    intro x hx
    obtain ⟨p, hp, rfl⟩ := List.mem_map.mp hx
    exact h.named p hp
  rw [findings, List.mem_append, List.mem_map, List.mem_map]
  constructor
  · rintro (⟨x, hx, rfl⟩ | ⟨d, hd, rfl⟩)
    · obtain ⟨hr, none⟩ := h.mem_undefinedNames.mp hx
      rw [h.numberOf_eq (known x hr), Orphan.reference_iff, numbered_iff known (known x hr),
        numbered_iff known' (known x hr)]
      exact ⟨hr, none⟩
    · obtain ⟨ordered, unused⟩ := h.mem_unreferenced.mp hd
      obtain ⟨x, c, hc, rfl⟩ := h.mem_ordered.mp ordered
      have defined : x ∈ defs.map Prod.fst := List.mem_map_of_mem (mem_of_lastContent hc)
      rw [Orphan.definition_iff, numbered_iff known' (known' x defined),
        numbered_iff known (known' x defined)]
      exact ⟨defined, unused⟩
  · rintro (⟨⟨x, hr, rfl⟩, undefined⟩ | ⟨⟨x, hx, rfl⟩, unreferenced⟩)
    · rw [numbered_iff known' (known x hr)] at undefined
      exact Or.inl ⟨x, h.mem_undefinedNames.mpr ⟨hr, undefined⟩,
        by rw [h.numberOf_eq (known x hr)]⟩
    · rw [numbered_iff known (known' x hx)] at unreferenced
      obtain ⟨c, hc⟩ := h.exists_lastContent hx
      exact Or.inr ⟨_, h.mem_unreferenced.mpr
        ⟨h.mem_ordered.mpr ⟨x, c, hc, rfl⟩, unreferenced⟩, rfl⟩

end State

end Docmark.Footnote
