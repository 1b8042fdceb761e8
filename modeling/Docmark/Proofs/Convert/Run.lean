import Docmark.Convert.Walk
import Mathlib.Data.List.Forall2

/-!
Runs of conversions: what a run that succeeds did step by step, and how a relation between the
sessions before and after goes from the converters to the walk.
-/

namespace Docmark

theorem exists_ok {ε α : Type} {x : Except ε α} (h : x.isOk = true) : ∃ a, x = .ok a := by
  cases x with
  | error e => simp [Except.isOk, Except.toBool] at h
  | ok a => exact ⟨a, rfl⟩

/-- A run of which something is known has an outcome. -/
theorem exists_ok_of_map {ε α β : Type} {x : Except ε α} {g : α → β} {b : β}
    (h : x.toOption.map g = some b) : ∃ a, x = .ok a ∧ g a = b := by
  cases x with
  | error e => cases h
  | ok a => exact ⟨a, rfl, Option.some.inj h⟩

theorem orFail_ok {ε α : Type} {wrap : ε → Failure} {x : Except ε α} {a : α} :
    orFail wrap x = .ok a ↔ x = .ok a := by
  cases x <;> simp [orFail]

theorem bind_eq_ok {ε α β : Type} {x : Except ε α} {f : α → Except ε β} {b : β} :
    (x >>= f) = .ok b ↔ ∃ a, x = .ok a ∧ f a = .ok b := by
  cases x <;> simp [bind, Except.bind]

theorem bind_eq_error {ε α β : Type} {x : Except ε α} {f : α → Except ε β} {e : ε} :
    (x >>= f) = .error e ↔ x = .error e ∨ ∃ a, x = .ok a ∧ f a = .error e := by
  cases x <;> simp [bind, Except.bind]

namespace Conversion

variable {α β : Type} {s s' : Session}

@[simp] theorem pure_ok {a b : α} : (pure a : Conversion α) s = .ok (b, s') ↔ a = b ∧ s = s' := by
  show Except.ok (a, s) = Except.ok (b, s') ↔ _
  simp

@[simp] theorem fail_ok {e : Failure} {a : α} :
    (Conversion.fail e : Conversion α) s = .ok (a, s') ↔ False := by
  simp [Conversion.fail]

theorem bind_ok {x : Conversion α} {f : α → Conversion β} {b : β} :
    (x >>= f) s = .ok (b, s') ↔ ∃ a s₁, x s = .ok (a, s₁) ∧ f a s₁ = .ok (b, s') := by
  simp only [bind, StateT.bind, Except.bind]
  cases x s with
  | error e => simp
  | ok r =>
    obtain ⟨a, s₁⟩ := r
    refine ⟨fun h => ⟨a, s₁, rfl, h⟩, ?_⟩
    rintro ⟨a', s₁', he, h⟩
    cases he
    exact h

theorem bind_error {x : Conversion α} {f : α → Conversion β} {e : Failure} :
    (x >>= f) s = .error e ↔
      x s = .error e ∨ ∃ a s₁, x s = .ok (a, s₁) ∧ f a s₁ = .error e := by
  simp only [bind, StateT.bind, Except.bind]
  cases x s with
  | error e => simp
  | ok r =>
    obtain ⟨a, s₁⟩ := r
    simp

@[simp] theorem get_ok {a : Session} :
    (get : Conversion Session) s = .ok (a, s') ↔ a = s ∧ s' = s := by
  show Except.ok (s, s) = Except.ok (a, s') ↔ _
  simp [eq_comm]

@[simp] theorem set_ok {t : Session} {a : PUnit} :
    (set t : Conversion PUnit) s = .ok (a, s') ↔ s' = t := by
  show Except.ok (PUnit.unit, t) = Except.ok (a, s') ↔ _
  simp [eq_comm]

@[simp] theorem modify_ok {f : Session → Session} {a : PUnit} :
    (modify f : Conversion PUnit) s = .ok (a, s') ↔ s' = f s := by
  show Except.ok (PUnit.unit, f s) = Except.ok (a, s') ↔ _
  simp [eq_comm]

@[simp] theorem lift_ok {ε : Type} {wrap : ε → Failure} {r : Except ε α} {a : α} :
    (Conversion.lift wrap r) s = .ok (a, s') ↔ r = .ok a ∧ s' = s := by
  cases r with
  | error e => simp [Conversion.lift]
  | ok b =>
    rw [Conversion.lift, pure_ok]
    simp [eq_comm]

theorem mapM_nil_ok {f : α → Conversion β} {bs : List β} :
    ([] : List α).mapM f s = .ok (bs, s') ↔ bs = [] ∧ s' = s := by
  rw [List.mapM_nil, pure_ok]
  simp [eq_comm]

theorem mapM_cons_ok {f : α → Conversion β} {a : α} {as : List α} {bs : List β} :
    (a :: as).mapM f s = .ok (bs, s') ↔
      ∃ b s₁ cs, f a s = .ok (b, s₁) ∧ as.mapM f s₁ = .ok (cs, s') ∧ bs = b :: cs := by
  rw [List.mapM_cons, bind_ok]
  constructor
  · rintro ⟨b, s₁, hb, h⟩
    rw [bind_ok] at h
    obtain ⟨cs, s₂, hcs, h⟩ := h
    rw [pure_ok] at h
    exact ⟨b, s₁, cs, hb, h.2 ▸ hcs, h.1.symm⟩
  · rintro ⟨b, s₁, cs, hb, hcs, rfl⟩
    exact ⟨b, s₁, hb, bind_ok.mpr ⟨cs, s', hcs, pure_ok.mpr ⟨rfl, rfl⟩⟩⟩

/-- Runs that leave the session as it is, one after the other. -/
theorem mapM_of_pure {f : α → Conversion β} {g : α → β} {as : List α}
    (h : ∀ a ∈ as, f a s = .ok (g a, s)) : as.mapM f s = .ok (as.map g, s) := by
  induction as with
  | nil => exact mapM_nil_ok.mpr ⟨rfl, rfl⟩
  | cons a as ih =>
    exact mapM_cons_ok.mpr ⟨g a, s, as.map g, h a (by simp), ih fun b hb => h b (by simp [hb]), rfl⟩

theorem mapM_of_imp {f g : α → Conversion β} {as : List α} {bs : List β}
    (imp : ∀ a ∈ as, ∀ t b t', f a t = .ok (b, t') → g a t = .ok (b, t'))
    (h : as.mapM f s = .ok (bs, s')) : as.mapM g s = .ok (bs, s') := by
  induction as generalizing s bs with
  | nil => exact h
  | cons a as ih =>
    obtain ⟨b, s₁, cs, hb, hcs, rfl⟩ := mapM_cons_ok.mp h
    exact mapM_cons_ok.mpr ⟨b, s₁, cs, imp a (by simp) s b s₁ hb,
      ih (fun c hc => imp c (by simp [hc])) hcs, rfl⟩

/-- Where every run goes with another one that tells more, so do those of a list. -/
theorem mapM_of_refines {γ : Type} {f : α → Conversion β} {g : α → Conversion γ} {part : γ → β}
    (refines : ∀ {s s' a b}, f a s = .ok (b, s') → ∃ c, g a s = .ok (c, s') ∧ part c = b)
    {as : List α} {bs : List β} (h : as.mapM f s = .ok (bs, s')) :
    ∃ cs, as.mapM g s = .ok (cs, s') ∧ cs.map part = bs := by
  induction as generalizing s bs with
  | nil =>
    obtain ⟨rfl, rfl⟩ := mapM_nil_ok.mp h
    exact ⟨[], mapM_nil_ok.mpr ⟨rfl, rfl⟩, rfl⟩
  | cons a as ih =>
    obtain ⟨b, s₁, bs, hb, hbs, rfl⟩ := mapM_cons_ok.mp h
    obtain ⟨c, hc, rfl⟩ := refines hb
    obtain ⟨cs, hcs, rfl⟩ := ih hbs
    exact ⟨c :: cs, mapM_cons_ok.mpr ⟨c, s₁, cs, hc, hcs, rfl⟩, rfl⟩

theorem forall₂_of_mapM_ok {f : α → Conversion β} {as : List α} {bs : List β}
    (h : as.mapM f s = .ok (bs, s')) :
    List.Forall₂ (fun a b => ∃ t t', f a t = .ok (b, t')) as bs := by
  induction as generalizing s bs with
  | nil =>
    obtain ⟨rfl, -⟩ := mapM_nil_ok.mp h
    exact .nil
  | cons a as ih =>
    obtain ⟨b, s₁, cs, hb, hcs, rfl⟩ := mapM_cons_ok.mp h
    exact .cons ⟨s, s₁, hb⟩ (ih hcs)

/-- What corresponds to the parts of a list. -/
theorem forall₂_append_left {R : α → β → Prop} {as as' : List α} {bs : List β}
    (h : List.Forall₂ R (as ++ as') bs) :
    ∃ cs cs', bs = cs ++ cs' ∧ List.Forall₂ R as cs ∧ List.Forall₂ R as' cs' := by
  refine ⟨bs.take as.length, bs.drop as.length, (List.take_append_drop _ _).symm, ?_, ?_⟩
  · have front := List.forall₂_take as.length h
    rwa [List.take_left] at front
  · have back := List.forall₂_drop as.length h
    rwa [List.drop_left] at back

theorem exists_of_mem_forall₂ {R : α → β → Prop} {as : List α} {bs : List β}
    (h : List.Forall₂ R as bs) {a : α} (ha : a ∈ as) : ∃ b ∈ bs, R a b := by
  obtain ⟨front, behind, rfl⟩ := List.append_of_mem ha
  obtain ⟨cs, rest, rfl, -, others⟩ := forall₂_append_left h
  obtain ⟨b, ds, hb, -, rfl⟩ := List.forall₂_cons_left_iff.mp others
  exact ⟨b, by simp, hb⟩

theorem exists_of_mem_mapM_ok {f : α → Conversion β} {as : List α} {bs : List β}
    (h : as.mapM f s = .ok (bs, s')) {b : β} (hb : b ∈ bs) : ∃ a t t', f a t = .ok (b, t') := by
  induction as generalizing s bs with
  | nil =>
    obtain ⟨rfl, -⟩ := mapM_nil_ok.mp h
    cases hb
  | cons a as ih =>
    obtain ⟨c, s₁, cs, hc, hcs, rfl⟩ := mapM_cons_ok.mp h
    rcases List.mem_cons.mp hb with rfl | hb
    · exact ⟨a, s, s₁, hc⟩
    · exact ih hcs hb

theorem exists_run_of_mem {f : α → Conversion β} {as : List α} {bs : List β}
    (h : as.mapM f s = .ok (bs, s')) {a : α} (ha : a ∈ as) : ∃ t b t', f a t = .ok (b, t') := by
  induction as generalizing s bs with
  | nil => cases ha
  | cons c as ih =>
    obtain ⟨b, s₁, cs, hb, hcs, rfl⟩ := mapM_cons_ok.mp h
    rcases List.mem_cons.mp ha with rfl | ha
    · exact ⟨s, b, s₁, hb⟩
    · exact ih hcs ha

/-- Every run that succeeds leads to a session that is related to the one before. -/
def Keeps (R : Session → Session → Prop) (x : Conversion α) : Prop :=
  ∀ s a s', x s = .ok (a, s') → R s s'

variable {R : Session → Session → Prop}

theorem Keeps.bind (trans : ∀ s t u, R s t → R t u → R s u) {x : Conversion α}
    {f : α → Conversion β} (hx : Keeps R x) (hf : ∀ a, Keeps R (f a)) : Keeps R (x >>= f) := by
  intro s b s' h
  obtain ⟨a, s₁, ha, hb⟩ := bind_ok.mp h
  exact trans s s₁ s' (hx s a s₁ ha) (hf a s₁ b s' hb)

theorem Keeps.pure (refl : ∀ s, R s s) (a : α) : Keeps R (pure a : Conversion α) := by
  intro s b s' h
  obtain ⟨-, rfl⟩ := pure_ok.mp h
  exact refl s

theorem Keeps.lift (refl : ∀ s, R s s) {ε : Type} (wrap : ε → Failure) (r : Except ε α) :
    Keeps R (Conversion.lift wrap r) := by
  intro s b s' h
  obtain ⟨-, rfl⟩ := lift_ok.mp h
  exact refl s'

theorem Keeps.mapM (refl : ∀ s, R s s) (trans : ∀ s t u, R s t → R t u → R s u)
    {f : α → Conversion β} {as : List α} (h : ∀ a ∈ as, Keeps R (f a)) : Keeps R (as.mapM f) := by
  induction as with
  | nil =>
    intro s bs s' hs
    obtain ⟨-, rfl⟩ := mapM_nil_ok.mp hs
    exact refl s'
  | cons a as ih =>
    intro s bs s' hs
    obtain ⟨b, s₁, cs, hb, hcs, -⟩ := mapM_cons_ok.mp hs
    exact trans s s₁ s' (h a (by simp) s b s₁ hb) (ih (fun c hc => h c (by simp [hc])) s₁ cs s' hcs)

/-- Every run that succeeds gives a value with a property. -/
def Yields (P : α → Prop) (x : Conversion α) : Prop :=
  ∀ s a s', x s = .ok (a, s') → P a

theorem Yields.pure {P : α → Prop} {a : α} (h : P a) : Yields P (pure a : Conversion α) := by
  intro s b s' hb
  obtain ⟨rfl, -⟩ := pure_ok.mp hb
  exact h

theorem Yields.bind {P : β → Prop} {x : Conversion α} {f : α → Conversion β}
    (hf : ∀ a, Yields P (f a)) : Yields P (x >>= f) := by
  intro s b s' h
  obtain ⟨a, s₁, -, hb⟩ := bind_ok.mp h
  exact hf a s₁ b s' hb

end Conversion

/-- What a step of the walk did. -/
theorem walkLevels_ok {registry : Registry Converter} {ctx : Context} {below : Nat} {level : Int}
    {n : Node} {s s' : Session} {f : Fragment}
    (h : walkLevels registry ctx (below + 1) level n s = .ok (f, s')) :
    ((registry.get n.kind).1 = none ∧ f.fact = .plain ∧ s' = s) ∨
      ∃ convert children s₁, (registry.get n.kind).1 = some convert ∧
        n.children.mapM (walkLevels registry ctx below (n.kind.childLevel level)) s =
          .ok (children, s₁) ∧
        convert ctx n children level s₁ = .ok (f, s') := by
  rw [walkLevels] at h
  cases hc : (registry.get n.kind).1 with
  | none =>
    simp only [hc, Conversion.bind_ok, Conversion.lift_ok, Conversion.pure_ok] at h
    obtain ⟨t, s₁, ⟨-, rfl⟩, rfl, rfl⟩ := h
    exact Or.inl ⟨rfl, rfl, rfl⟩
  | some convert =>
    simp only [hc, Conversion.bind_ok] at h
    obtain ⟨children, s₁, hchildren, hconvert⟩ := h
    exact Or.inr ⟨convert, children, s₁, rfl, hchildren, hconvert⟩

/-- What a walk did where the converter of the node is known. -/
theorem walkLevels_made {registry : Registry Converter} {ctx : Context} {levels : Nat}
    {level : Int} {n : Node} {s s' : Session} {f : Fragment} {convert : Converter}
    (registered : (registry.get n.kind).1 = some convert)
    (run : walkLevels registry ctx levels level n s = .ok (f, s')) :
    ∃ below children s₁, levels = below + 1 ∧
      n.children.mapM (walkLevels registry ctx below (n.kind.childLevel level)) s =
        .ok (children, s₁) ∧
      convert ctx n children level s₁ = .ok (f, s') := by
  cases levels with
  | zero =>
    rw [walkLevels, Conversion.fail_ok] at run
    exact run.elim
  | succ below =>
    rcases walkLevels_ok run with ⟨none, -, -⟩ | ⟨other, children, s₁, found, walked, made⟩
    · rw [registered] at none
      cases none
    · obtain rfl : convert = other := Option.some.inj (registered.symm.trans found)
      exact ⟨below, children, s₁, rfl, walked, made⟩

/-- A step of the walk where the children are converted already. -/
theorem walkLevels_run {registry : Registry Converter} {ctx : Context} {below : Nat} {level : Int}
    {n : Node} {s s₁ : Session} {convert : Converter} {children : List Fragment}
    (registered : (registry.get n.kind).1 = some convert)
    (converted : n.children.mapM (walkLevels registry ctx below (n.kind.childLevel level)) s =
      .ok (children, s₁)) :
    walkLevels registry ctx (below + 1) level n s = convert ctx n children level s₁ := by
  rw [walkLevels, registered]
  simp only [bind, StateT.bind, converted, Except.bind]

/-- A tree in which every node has a converter. -/
inductive Registry.Covers (registry : Registry Converter) : Node → Prop
  | intro {n : Node} (registered : (registry.get n.kind).1.isSome = true)
      (below : ∀ c ∈ n.children, registry.Covers c) : registry.Covers n

/-- A walk that reaches all leaves of such a tree does the same with more levels left. -/
theorem Registry.Covers.walkLevels_le {registry : Registry Converter} {ctx : Context}
    {few many : Nat} (le : few ≤ many) {n : Node} (h : registry.Covers n) {level : Int}
    {s s' : Session} {f : Fragment} (run : walkLevels registry ctx few level n s = .ok (f, s')) :
    walkLevels registry ctx many level n s = .ok (f, s') := by
  induction few generalizing many n level s f s' with
  | zero =>
    rw [walkLevels, Conversion.fail_ok] at run
    exact run.elim
  | succ few ih =>
    obtain ⟨many, rfl⟩ := Nat.exists_eq_add_of_le' (Nat.le_of_add_left_le le)
    cases h with
    | intro registered below =>
      rcases walkLevels_ok run with ⟨none, -, -⟩ | ⟨convert, children, s₁, found, walked, made⟩
      · rw [none] at registered
        cases registered
      · refine (walkLevels_run found ?_).trans made
        exact Conversion.mapM_of_imp (fun c hc t b t' hb => ih (by omega) (below c hc) hb) walked

/-- What the converters keep, the walk keeps. -/
theorem Conversion.Keeps.walkLevels {R : Session → Session → Prop} (refl : ∀ s, R s s)
    (trans : ∀ s t u, R s t → R t u → R s u) {registry : Registry Converter} {ctx : Context}
    (converters : ∀ k convert, (registry.get k).1 = some convert →
      ∀ n children level, n.kind = k → Keeps R (convert ctx n children level))
    (levels : Nat) (level : Int) (n : Node) :
    Keeps R (walkLevels registry ctx levels level n) := by
  induction levels generalizing level n with
  | zero =>
    intro s f s' h
    simp [Docmark.walkLevels] at h
  | succ below ih =>
    intro s f s' h
    rcases walkLevels_ok h with ⟨-, -, rfl⟩ | ⟨convert, children, s₁, hc, hchildren, hf⟩
    · exact refl s'
    · have first : R s s₁ := Keeps.mapM refl trans
        (fun m _ => ih (n.kind.childLevel level) m) s children s₁ hchildren
      exact trans s s₁ s' first (converters _ convert hc n children level rfl s₁ f s' hf)

end Docmark
