import Docmark.Proofs.Annotation.Numbering
import Docmark.Proofs.Dictionary
import Docmark.Proofs.Text.Order

/-!
The state between two blocks: no number is above the last one given, and every definition is kept
under its own number. A block leaves such a state, and what was said of earlier numbers stands.
-/

namespace Docmark.Annotation.State

/-- A definition that is kept under its own number. -/
structure Kept (counter : Int) (p : Text × Definition) (n : Nat) : Prop where
  given : (n : Int) ≤ counter
  key : p.1 = Text.decimal n
  id : p.2.id = Text.decimal n
  number : p.2.number = n
  stripped : Text.strip p.2.content = p.2.content

structure Sound (s : State) : Prop where
  closed : s.block = []
  natural : 0 ≤ s.counter
  referenced : ∀ n ∈ s.referenced, n ≤ s.counter
  keys : s.definitions.keys.Nodup
  kept : ∀ p ∈ s.definitions, ∃ n : Nat, Kept s.counter p n

/-- The state after some blocks: earlier numbers have the definitions that they had. -/
structure Grows (s t : State) : Prop where
  sound : t.Sound
  counter : s.counter ≤ t.counter
  definitions : ∀ n : Nat, (n : Int) ≤ s.counter →
    t.definitions.get? (Text.decimal n) = s.definitions.get? (Text.decimal n)

theorem sound_initial : Sound {} :=
  ⟨rfl, by decide, by simp, List.nodup_nil, by simp⟩

theorem Sound.grows {s : State} (h : s.Sound) : Grows s s :=
  ⟨h, Int.le_refl _, fun _ _ => rfl⟩

theorem Grows.trans {s t u : State} (h : Grows s t) (h' : Grows t u) : Grows s u :=
  ⟨h'.sound, Int.le_trans h.counter h'.counter, fun n hn =>
    (h'.definitions n (Int.le_trans hn h.counter)).trans (h.definitions n hn)⟩

theorem Sound.opened {s : State} (h : s.Sound) : s.Opened s.counter.toNat [] :=
  opened_nil (Int.toNat_of_nonneg h.natural).symm h.closed

theorem Sound.closeBlock_eq {s : State} (h : s.Sound) : s.closeBlock = s := by
  rw [closeBlock, ← h.closed]

/-- The definitions of a state are those of its tooltips. -/
theorem Sound.lookup_tooltips {s : State} (h : s.Sound) (k : Text) :
    s.tooltips.lookup k = (s.definitions.get? k).map Definition.content := by
  have ids (d : Dictionary Text Definition) (hd : ∀ p ∈ d, p.2.id = p.1) :
      d.values.map (fun d => (d.id, d.content)) = d.map fun p => (p.1, p.2.content) := by
    rw [Dictionary.values, List.map_map]
    apply List.map_congr_left
    intro p hp
    simp [hd p hp]
  have perm : s.tooltips.Perm (s.definitions.map fun p => (p.1, p.2.content)) := by
    rw [tooltips, ← ids s.definitions]
    · exact (Text.sortByKey_perm _ _).map _
    · intro p hp
      obtain ⟨n, hn⟩ := h.kept p hp
      rw [hn.id, hn.key]
  have nodup : Dictionary.keys (s.definitions.map fun p => (p.1, p.2.content)) |>.Nodup := by
    rw [Dictionary.keys, List.map_map]
    exact h.keys
  rw [← Dictionary.get?_map]
  exact (Dictionary.get?_perm perm.symm nodup k).symm

/-- Definitions that nothing is known of are all added, in their order. -/
theorem addDefinitions_eq {ds : List Definition} {s : State} {counter : Int}
    (kept : ∀ d ∈ ds, ∃ n : Nat, Kept counter (d.id, d) n)
    (short : ∀ d ∈ ds, d.id.length ≤ Text.maxDigits)
    (nodup : (s.definitions.keys ++ ds.map Definition.id).Nodup) :
    s.addDefinitions (ds.map fun d => (d.id, d.content)) =
      ({ s with definitions := s.definitions ++ ds.map fun d => (d.id, d) }, none) := by
  induction ds generalizing s with
  | nil => simp [addDefinitions]
  | cons d ds ih =>
    obtain ⟨n, hn⟩ := kept d (by simp)
    have fresh : d.id ∉ s.definitions.keys := by
      intro hm
      have := List.nodup_append.mp nodup
      exact this.2.2 _ hm _ (by simp) rfl
    have has : s.definitions.has d.id = false := by
      have := Dictionary.get?_eq_none_iff.mpr fresh
      rw [Dictionary.get?] at this
      simp [Dictionary.has, this]
    have digits : d.id.all Text.isDigit = true := by
      rw [hn.id, List.all_eq_true]
      intro c hc
      simp [Text.isDigit, Text.isDecimal_of_isDigit (Text.isDigit_of_mem_decimal hc)]
    have number : Text.readInt d.id = .ok d.number := by
      rw [hn.number, hn.id]
      exact Text.readInt_decimal (hn.id ▸ short d (by simp))
    have ne : d.id ≠ [] := hn.id ▸ Text.decimal_ne_nil n
    have content : Text.strip d.content = d.content := hn.stripped
    have added : s.addDefinition d.id d.content =
        .ok { s with definitions := s.definitions ++ [(d.id, d)] } := by
      simp only [addDefinition, has, digits, List.isEmpty_eq_false_iff.mpr ne, Bool.not_true,
        Bool.or_self, Bool.false_eq_true, ↓reduceIte, number, content,
        Dictionary.put_of_not_mem fresh]
      rfl
    rw [List.map_cons, addDefinitions, added]
    dsimp only
    rw [ih (fun e he => kept e (by simp [he])) (fun e he => short e (by simp [he]))]
    · simp
    · simpa [Dictionary.keys] using nodup

/-- The tooltips of a sound state, added where no definition is kept, are the tooltips again. -/
theorem Sound.tooltips_addDefinitions {s : State} (h : s.Sound)
    (short : ∀ p ∈ s.tooltips, p.1.length ≤ Text.maxDigits) {t : State}
    (empty : t.definitions = []) :
    ∃ u, t.addDefinitions s.tooltips = (u, none) ∧ u.tooltips = s.tooltips := by
  have perm := Text.sortByKey_perm Definition.number s.definitions.values
  have stored : ∀ d ∈ Text.sortByKey Definition.number s.definitions.values,
      ∃ n : Nat, Kept s.counter (d.id, d) n := by
    intro d hd
    obtain ⟨p, hp, rfl⟩ := List.mem_map.mp (perm.mem_iff.mp hd)
    obtain ⟨n, hn⟩ := h.kept p hp
    exact ⟨n, hn.given, hn.id, hn.id, hn.number, hn.stripped⟩
  have ids : s.definitions.values.map Definition.id = s.definitions.keys := by
    rw [Dictionary.values, List.map_map, Dictionary.keys]
    apply List.map_congr_left
    intro p hp
    obtain ⟨n, hn⟩ := h.kept p hp
    rw [hn.key, ← hn.id]
    rfl
  have nodup : (t.definitions.keys ++
      (Text.sortByKey Definition.number s.definitions.values).map Definition.id).Nodup := by
    rw [empty, Dictionary.keys, List.map_nil, List.nil_append,
      (perm.map Definition.id).nodup_iff, ids]
    exact h.keys
  refine ⟨_, addDefinitions_eq stored (fun d hd => short _ (List.mem_map_of_mem hd)) nodup, ?_⟩
  rw [empty, List.nil_append, tooltips, tooltips]
  congr 1
  rw [Dictionary.values, List.map_map]
  have same : (Text.sortByKey Definition.number s.definitions.values).map
      (Prod.snd ∘ fun d => (d.id, d)) = Text.sortByKey Definition.number s.definitions.values :=
    List.map_id _
  rw [same]
  exact Text.sortByKey_of_ordered (Text.sortByKey_ordered _ _)

end Docmark.Annotation.State
