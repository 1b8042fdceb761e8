import Docmark.Proofs.Convert.Checks
import Docmark.Proofs.Text.Digits

/-!
Which documents are converted. Main statement: a document that is not nested too deep is converted
just where the numbers of its lists can be read and written and its links can be resolved.
-/

namespace Docmark

/-- A value that is no text of digits, or one that stands for a number. -/
def Startable (v : Json) : Prop :=
  ∀ s, v = .str s → s ≠ "" → (∀ c ∈ s.toList, Text.isDigit c = true) → Text.Countable s.toList

/-- A list whose numbers can be read and written. -/
structure Node.Numbered (n : Node) : Prop where
  order : Startable (n.attr "order")
  /-- The other attribute is looked at only where the first gives no number. -/
  start : Convert.startValue? (n.attr "order") = .ok none → Startable (n.attr "start")
  written : ∀ first, Convert.orderedStart n = .ok first →
    ∀ i < n.children.length, (Text.decimal (first + i)).length ≤ Text.maxDigits

/-- A node that stops no conversion. -/
structure Node.Acceptable (base : Json) (n : Node) : Prop where
  numbered : n.kind = .orderedList → n.Numbered
  /-- Without a base no link is looked into. -/
  linked : base.isTruthy = true → ∀ request, n.request? base = some request →
    ∃ target, Link.resolve request = .ok target

theorem startable_str_iff {s : String} (ne : s ≠ "")
    (digits : ∀ c ∈ s.toList, Text.isDigit c = true) :
    Startable (.str s) ↔ Text.Countable s.toList := by
  constructor
  · exact fun h => h s rfl ne digits
  · rintro countable t same - -
    rw [← Json.str.inj same]
    exact countable

theorem exists_startValue_iff {v : Json} :
    (∃ x, Convert.startValue? v = .ok x) ↔ Startable v := by
  unfold Convert.startValue?
  split
  · simp [Startable]
  · rename_i s
    by_cases filled : s ≠ "" ∧ ∀ c ∈ s.toList, Text.isDigit c = true
    · have taken : (!s.toList.isEmpty && s.toList.all Text.isDigit) = true := by
        simpa using filled
      have ne : s.toList ≠ [] := by simpa using filled.1
      rw [if_pos taken, exists_map_eq_ok_iff, Text.exists_readInt_iff ne filled.2,
        startable_str_iff filled.1 filled.2]
    · have taken : ¬ (!s.toList.isEmpty && s.toList.all Text.isDigit) = true := by
        simpa using filled
      have startable : Startable (.str s) := by
        rintro t same ne digits
        rw [← Json.str.inj same] at ne digits
        exact absurd ⟨ne, digits⟩ filled
      simp [taken, startable]
  · rename_i noText
    have startable : Startable v := fun s same => absurd same (noText s)
    simp [startable]

theorem exists_orderedStart_iff {n : Node} :
    (∃ first, Convert.orderedStart n = .ok first) ↔ Startable (n.attr "order") ∧
      (Convert.startValue? (n.attr "order") = .ok none → Startable (n.attr "start")) := by
  rw [← exists_startValue_iff, ← exists_startValue_iff, Convert.orderedStart]
  cases Convert.startValue? (n.attr "order") with
  | error e => simp [bind, Except.bind]
  | ok x =>
    cases x with
    | some first => simp [bind, Except.bind, pure, Except.pure]
    | none =>
      cases Convert.startValue? (n.attr "start") with
      | error e => simp [bind, Except.bind]
      | ok y => cases y <;> simp [bind, Except.bind, pure, Except.pure]

theorem verdict_writeNat_iff {k : Nat} :
    verdict (Text.writeNat k) = .ok () ↔ (Text.decimal k).length ≤ Text.maxDigits := by
  rw [Text.writeNat]
  by_cases long : (Text.decimal k).length > Text.maxDigits
  · simp [verdict, Except.map, long]
  · simp [verdict, Except.map, long, Nat.not_lt.mp long]

theorem Node.checkNumbers_eq_ok_iff {n : Node} : n.checkNumbers = .ok () ↔ n.Numbered := by
  rw [checkNumbers, bind_eq_ok]
  simp only [forM_eq_ok_iff, verdict_writeNat_iff, List.mem_range'_1]
  constructor
  · rintro ⟨first, hf, written⟩
    obtain ⟨order, start⟩ := exists_orderedStart_iff.mp ⟨first, hf⟩
    refine ⟨order, start, fun first' hf' i hi => ?_⟩
    rw [hf] at hf'
    rw [← Except.ok.inj hf']
    exact written (first + i) (by omega)
  · rintro ⟨order, start, written⟩
    obtain ⟨first, hf⟩ := exists_orderedStart_iff.mpr ⟨order, start⟩
    refine ⟨first, hf, fun k hk => ?_⟩
    obtain ⟨i, rfl⟩ := Nat.exists_eq_add_of_le hk.1
    exact written first hf i (by omega)

/-- Without a base every link can be resolved. -/
theorem exists_resolve {request : Link.Request} (none : request.base.isTruthy = false) :
    ∃ target, Link.resolve request = .ok target := by
  unfold Link.resolve
  simp only [none, Bool.not_false, Bool.or_true, ↓reduceIte]
  exact ⟨_, rfl⟩

theorem Node.check_eq_ok_iff {n : Node} {options : ConversionOptions} :
    n.check ⟨options, Link.resolve⟩ = .ok () ↔ n.Acceptable options.baseUrl := by
  by_cases kind : n.kind = .orderedList
  · have request : n.request? options.baseUrl = none := by
      rw [Node.request?, Node.target?, kind]
      rfl
    have check : n.check ⟨options, Link.resolve⟩ = orFail .number n.checkNumbers := by
      rw [Node.check, kind]
    rw [check, orFail_ok, checkNumbers_eq_ok_iff]
    exact ⟨fun h => ⟨fun _ => h, by simp [request]⟩, fun h => h.numbered kind⟩
  · cases target : n.target? with
    | none =>
      rw [n.check_of_none kind target]
      exact ⟨fun _ => ⟨fun h => absurd h kind, by simp [Node.request?, target]⟩, fun _ => rfl⟩
    | some asked =>
      obtain ⟨href, attributes⟩ := asked
      have request : n.request? options.baseUrl = some ⟨href, attributes, options.baseUrl⟩ := by
        rw [Node.request?, target]
        rfl
      rw [n.check_of_some kind target, orFail_ok, verdict_eq_ok_iff]
      constructor
      · intro h
        refine ⟨fun h => absurd h kind, fun _ r asked => ?_⟩
        rw [request] at asked
        rw [← Option.some.inj asked]
        exact h
      · intro h
        cases base : options.baseUrl.isTruthy with
        | false => exact exists_resolve base
        | true => exact h.linked base _ request

/-- The verdict on a document is that on its nodes. -/
theorem verdict_convertDocument {members : List (String × Json)} {options : ConversionOptions}
    {n : Node} (loaded : Node.load options.maxNestingDepth.ceiling members = .ok n) :
    verdict (convertDocument (.json (.object members)) options) =
      forM n.converted (Node.check ⟨options, Link.resolve⟩) := by
  have low : n.height < options.maxNestingDepth.ceiling.levels := Node.height_lt_of_load loaded
  have source : (Source.json (.object members)).load options = .ok n := by
    rw [Source.load, loaded]
    rfl
  have judged : verdict (walk Registry.standard ⟨options, Link.resolve⟩ 0 n {}) =
      forM n.converted (Node.check ⟨options, Link.resolve⟩) :=
    judged_walkLevels (Nat.le_refl _) low 0 {}
  have updated : options.update [] = .ok options := rfl
  rw [convertDocument_eq (by simp) updated, source, ← judged]
  exact verdict_bind fun _ => ⟨_, rfl⟩

/-- The value of a node with children. -/
def valueOf (tag : String) (attributes : List (String × Json)) (content : List Json) : Json :=
  .object [("type", .str tag), ("attrs", .object attributes), ("content", .list content)]

/-- A document that is a list of one item, with its start as a text. -/
def listStarting (order : String) : List (String × Json) :=
  [("type", .str "doc"), ("content", .list [
    valueOf "orderedList" [("order", .str order)] [
      valueOf "listItem" [] [
        valueOf "paragraph" [] [.object [("type", .str "text"), ("text", .str "a")]]]]])]

end Docmark
