import Docmark.Proofs.Convert.Run

/-!
How deep documents are. A tree is loaded from just the values that are not nested too deep, with as
many levels as the value has, and its text can be extracted with just so many levels.
-/

namespace Docmark

/-- Among the objects in lists of content there is one so many levels down. -/
inductive HasLevel : List (String × Json) → Nat → Prop
  | here (members : List (String × Json)) : HasLevel members 0
  | inside {members child : List (String × Json)} {k : Nat}
    (listed : child ∈ Node.objectsOf "content" members) (deeper : HasLevel child k) :
    HasLevel members (k + 1)

theorem hasLevel_succ_iff {members : List (String × Json)} {k : Nat} :
    HasLevel members (k + 1) ↔ ∃ child ∈ Node.objectsOf "content" members, HasLevel child k := by
  constructor
  · rintro (_ | ⟨listed, deeper⟩)
    exact ⟨_, listed, deeper⟩
  · rintro ⟨child, listed, deeper⟩
    exact .inside listed deeper

theorem mapM_eq_ok_iff {ε α β : Type} {f : α → Except ε β} {as : List α} {bs : List β} :
    as.mapM f = .ok bs ↔ List.Forall₂ (fun a b => f a = .ok b) as bs := by
  induction as generalizing bs with
  | nil => simp [pure, Except.pure, eq_comm]
  | cons a as ih =>
    rw [List.mapM_cons, bind_eq_ok]
    constructor
    · rintro ⟨b, hb, h⟩
      obtain ⟨cs, hcs, h⟩ := bind_eq_ok.mp h
      cases h
      exact .cons hb (ih.mp hcs)
    · rintro (_ | ⟨hb, hcs⟩)
      exact ⟨_, hb, bind_eq_ok.mpr ⟨_, ih.mpr hcs, rfl⟩⟩

theorem exists_of_mapM_eq_error {ε α β : Type} {f : α → Except ε β} {as : List α} {e : ε}
    (h : as.mapM f = .error e) : ∃ a ∈ as, f a = .error e := by
  induction as with
  | nil => cases h
  | cons a as ih =>
    rw [List.mapM_cons] at h
    rcases bind_eq_error.mp h with here | ⟨b, -, h⟩
    · exact ⟨a, List.mem_cons_self, here⟩
    · rcases bind_eq_error.mp h with later | ⟨bs, -, made⟩
      · obtain ⟨c, hc, refused⟩ := ih later
        exact ⟨c, List.mem_cons_of_mem a hc, refused⟩
      · cases made

/-- A list can be mapped just where each of its members can. -/
theorem exists_mapM_eq_ok_iff {ε α β : Type} {f : α → Except ε β} {as : List α} :
    (∃ bs, as.mapM f = .ok bs) ↔ ∀ a ∈ as, ∃ b, f a = .ok b := by
  simp only [mapM_eq_ok_iff]
  induction as with
  | nil => simp
  | cons a as ih =>
    rw [List.forall_mem_cons, ← ih]
    constructor
    · rintro ⟨bs, _ | ⟨hb, hbs⟩⟩
      exact ⟨⟨_, hb⟩, _, hbs⟩
    · rintro ⟨⟨b, hb⟩, bs, hbs⟩
      exact ⟨b :: bs, .cons hb hbs⟩

theorem exists_map_eq_ok_iff {ε α β : Type} {f : α → β} {x : Except ε α} :
    (∃ b, x.map f = .ok b) ↔ ∃ a, x = .ok a := by
  cases x <;> simp [Except.map]

/-- What follows a step and always succeeds can be left out. -/
theorem exists_bind_eq_ok_iff {ε α β : Type} {x : Except ε α} {f : α → Except ε β}
    (total : ∀ a, ∃ b, f a = .ok b) : (∃ b, (x >>= f) = .ok b) ↔ ∃ a, x = .ok a := by
  simp only [bind_eq_ok]
  constructor
  · rintro ⟨b, a, ha, -⟩
    exact ⟨a, ha⟩
  · rintro ⟨a, ha⟩
    obtain ⟨b, hb⟩ := total a
    exact ⟨b, a, ha, hb⟩

theorem exists_mem_iff_of_forall₂ {α β : Type} {R : α → β → Prop} {P : α → Prop} {Q : β → Prop}
    {as : List α} {bs : List β} (h : List.Forall₂ R as bs)
    (same : ∀ a b, R a b → (P a ↔ Q b)) : (∃ a ∈ as, P a) ↔ ∃ b ∈ bs, Q b := by
  induction h with
  | nil => simp
  | cons hab _ ih => simp only [List.exists_mem_cons_iff, ih, same _ _ hab]

namespace Node

theorem lt_heightOf_iff {ns : List Node} {k : Nat} :
    k < heightOf ns ↔ ∃ n ∈ ns, k ≤ n.height := by
  induction ns with
  | nil => simp [heightOf]
  | cons n ns ih =>
    have here : k < heightOf (n :: ns) ↔ k ≤ n.height ∨ k < heightOf ns := by
      rw [heightOf]
      omega
    rw [here, ih, List.exists_mem_cons_iff]

theorem lt_height_iff {n : Node} {k : Nat} : k < n.height ↔ ∃ c ∈ n.children, k ≤ c.height := by
  cases n
  rw [height, lt_heightOf_iff]

theorem height_lt_of_mem {n c : Node} (h : c ∈ n.children) : c.height < n.height :=
  lt_height_iff.mpr ⟨c, h, Nat.le_refl _⟩

/-- A value is loaded just where it is not nested too deep. -/
theorem exists_loadLevels_iff {limit : Ceiling} {levels : Nat} {members : List (String × Json)} :
    (∃ n, loadLevels limit levels members = .ok n) ↔ ¬ HasLevel members levels := by
  induction levels generalizing members with
  | zero => simp [loadLevels, HasLevel.here]
  | succ levels ih =>
    have children : (∃ ns, (objectsOf "content" members).mapM (loadLevels limit levels) = .ok ns) ↔
        ¬ HasLevel members (levels + 1) := by
      rw [exists_mapM_eq_ok_iff, hasLevel_succ_iff]
      simp only [ih, not_exists, not_and]
    rw [← children, loadLevels]
    exact exists_bind_eq_ok_iff fun _ => ⟨_, rfl⟩

theorem exists_load_iff {limit : Ceiling} {members : List (String × Json)} :
    (∃ n, load limit members = .ok n) ↔ ¬ HasLevel members limit.levels :=
  exists_loadLevels_iff

/-- The tree has as many levels as the value. -/
theorem hasLevel_iff_le_height {limit : Ceiling} {levels : Nat} {members : List (String × Json)}
    {n : Node} (h : loadLevels limit levels members = .ok n) (k : Nat) :
    HasLevel members k ↔ k ≤ n.height := by
  induction levels generalizing members n k with
  | zero => cases h
  | succ levels ih =>
    rw [loadLevels] at h
    obtain ⟨ns, hns, made⟩ := bind_eq_ok.mp h
    have each := mapM_eq_ok_iff.mp hns
    obtain rfl : n.children = ns := by
      cases made
      rfl
    cases k with
    | zero => simp [HasLevel.here]
    | succ k =>
      rw [hasLevel_succ_iff, Nat.succ_le_iff, lt_height_iff]
      exact exists_mem_iff_of_forall₂ each fun _ _ hc => ih hc k

theorem height_lt_of_load {limit : Ceiling} {members : List (String × Json)} {n : Node}
    (loaded : load limit members = .ok n) : n.height < limit.levels := by
  have shallow := exists_load_iff.mp ⟨n, loaded⟩
  rw [hasLevel_iff_le_height loaded] at shallow
  omega

theorem exists_extractLevels_iff {limit : Ceiling} {separator : Text} {levels : Nat} {n : Node} :
    (∃ t, extractLevels limit separator levels n = .ok t) ↔ n.height < levels := by
  induction levels generalizing n with
  | zero => simp [extractLevels]
  | succ levels ih =>
    have children : n.height < levels + 1 ↔ ∀ c ∈ n.children, c.height < levels := by
      rw [Nat.lt_succ_iff, ← Nat.not_lt, lt_height_iff]
      simp
    rw [extractLevels]
    split
    · rename_i none
      simp [children, none]
    · have parts : (∃ ts, (n.children.mapM fun child => do
          let part ← extractLevels limit separator levels child
          return if child.isTextBlock then part ++ separator else part) = .ok ts) ↔
            ∀ c ∈ n.children, c.height < levels := by
        rw [exists_mapM_eq_ok_iff]
        refine forall₂_congr fun c _ => ?_
        rw [← ih]
        exact exists_bind_eq_ok_iff fun _ => ⟨_, rfl⟩
      rw [children, ← parts]
      exact exists_bind_eq_ok_iff fun _ => ⟨_, rfl⟩

end Node

end Docmark
