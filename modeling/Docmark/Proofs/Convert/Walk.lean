import Docmark.Proofs.Convert.AnnotatedBlock
import Docmark.Proofs.Document.Annotated

/-!
Annotations through the walk: only annotation nodes touch their state, and every walk leaves a sound
one. So do walks one after the other, which give all sessions that a conversion can be in.
-/

namespace Docmark

/-- Runs that leave the numbers of annotations alone. -/
def SameAnnotations (s s' : Session) : Prop :=
  s'.annotations = s.annotations

/-- Runs that leave those of footnotes alone, too. -/
def SameNotes (s s' : Session) : Prop :=
  s'.annotations = s.annotations ∧ s'.footnotes = s.footnotes

theorem SameAnnotations.refl (s : Session) : SameAnnotations s s := rfl

theorem SameNotes.refl (s : Session) : SameNotes s s := ⟨rfl, rfl⟩

theorem SameNotes.trans (s t u : Session) (h : SameNotes s t) (h' : SameNotes t u) :
    SameNotes s u :=
  ⟨h'.1.trans h.1, h'.2.trans h.2⟩

open Conversion

theorem keeps_resolveLink (ctx : Context) (href : Text) (attributes : Attributes) :
    Keeps SameNotes (resolveLink ctx href attributes) := by
  refine Keeps.bind SameNotes.trans ?_ fun _ => Keeps.lift SameNotes.refl _ _
  intro s a s' h
  rw [modify_ok] at h
  rw [h]
  exact ⟨rfl, rfl⟩

/-- A converter after which a link may be asked for. -/
theorem keeps_linked (ctx : Context) (href : Text) (attributes : Attributes)
    (f : Link.Resolved → Fragment) :
    Keeps SameNotes (do return f (← resolveLink ctx href attributes)) :=
  Keeps.bind SameNotes.trans (keeps_resolveLink ctx href attributes) fun _ =>
    Keeps.pure SameNotes.refl _

namespace Convert

variable (ctx : Context) (n : Node) (children : List Fragment) (level : Int)

theorem keeps_text : Keeps SameNotes (text ctx n children level) := by
  unfold text
  split
  · exact Keeps.pure SameNotes.refl _
  · split
    · exact Keeps.pure SameNotes.refl _
    · split
      · exact Keeps.pure SameNotes.refl _
      · split
        · exact Keeps.pure SameNotes.refl _
        · exact keeps_linked ctx _ _ _

theorem keeps_link : Keeps SameNotes (link ctx n children level) :=
  keeps_linked ctx _ _ _

theorem keeps_card : Keeps SameNotes (card ctx n children level) := by
  unfold card
  dsimp only
  split
  · exact Keeps.pure SameNotes.refl _
  · exact keeps_linked ctx _ _ _

theorem keeps_media : Keeps SameNotes (media ctx n children level) := by
  unfold media
  split
  · split
    · exact Keeps.pure SameNotes.refl _
    · exact keeps_linked ctx _ _ _
  · exact Keeps.pure SameNotes.refl _

theorem keeps_listItem : Keeps SameNotes (listItem ctx n children level) :=
  Keeps.bind SameNotes.trans (Keeps.lift SameNotes.refl _ _) fun _ =>
    Keeps.pure SameNotes.refl _

theorem keeps_orderedList : Keeps SameNotes (orderedList ctx n children level) :=
  Keeps.bind SameNotes.trans (Keeps.lift SameNotes.refl _ _) fun _ =>
    Keeps.bind SameNotes.trans (Keeps.lift SameNotes.refl _ _) fun _ =>
      Keeps.pure SameNotes.refl _

theorem keeps_footnote : Keeps SameAnnotations (footnote ctx n children level) := by
  unfold footnote
  split
  · exact Keeps.pure SameAnnotations.refl _
  · intro s f s' h
    rw [bind_ok] at h
    obtain ⟨t, s₁, hg, h⟩ := h
    obtain ⟨rfl, rfl⟩ := get_ok.mp hg
    split at h
    all_goals
      rw [bind_ok] at h
      obtain ⟨_, s₂, hset, h⟩ := h
      rw [set_ok] at hset
      obtain ⟨-, rfl⟩ := pure_ok.mp h
      rw [hset]
      rfl

end Convert

/-- Only the nodes of annotations and footnotes touch the numbers of either. -/
theorem keeps_plain {k : NodeKind} {convert : Converter}
    (h : (k, convert) ∈ Registry.builtinConverters) (hk : k ≠ NodeKind.annotation)
    (hk' : k ≠ .footnote) (ctx : Context) (n : Node) (children : List Fragment) (level : Int) :
    Keeps SameNotes (convert ctx n children level) := by
  simp only [Registry.builtinConverters, List.mem_cons, List.not_mem_nil, or_false,
    Prod.mk.injEq] at h
  rcases h with h | h | h | h | h | h | h | h | h | h | h | h | h | h | h | h | h | h | h | h | h |
    h | h | h | h | h | h | h | h <;> obtain ⟨rfl, rfl⟩ := h
  all_goals first
    | exact Keeps.pure SameNotes.refl _
    | exact Convert.keeps_text ctx n children level
    | exact Convert.keeps_listItem ctx n children level
    | exact Convert.keeps_orderedList ctx n children level
    | exact Convert.keeps_link ctx n children level
    | exact Convert.keeps_card ctx n children level
    | exact Convert.keeps_media ctx n children level
    | exact absurd rfl hk
    | exact absurd rfl hk'

/-- Only annotation nodes touch the numbers of annotations. -/
theorem keeps_builtin {k : NodeKind} {convert : Converter}
    (h : (k, convert) ∈ Registry.builtinConverters) (hk : k ≠ NodeKind.annotation) (ctx : Context)
    (n : Node) (children : List Fragment) (level : Int) :
    Keeps SameAnnotations (convert ctx n children level) := by
  by_cases hk' : k = .footnote
  · subst hk'
    obtain rfl : convert = Convert.footnote := by
      simpa [Registry.builtinConverters] using h
    exact Convert.keeps_footnote ctx n children level
  · intro s f s' run
    exact (keeps_plain h hk hk' ctx n children level s f s' run).1

theorem standard_get (k : NodeKind) :
    (Registry.standard.settle.get k).1 = Registry.builtinConverters.get? k := rfl

theorem standard_annotation :
    (Registry.standard.settle.get NodeKind.annotation).1 = some Convert.annotation := rfl

namespace Convert

variable (ctx : Context) (n : Node) (children : List Fragment) (level : Int)

/-- No conversion but that of an annotated block gives a fragment that says to be one. -/
def NoBlock (f : Fragment) : Prop :=
  isAnnotatedBlock f = false

theorem noBlock_ite {c : Prop} [Decidable c] {f g : Fragment} (hf : NoBlock f) (hg : NoBlock g) :
    NoBlock (if c then f else g) := by
  split
  · exact hf
  · exact hg

theorem noBlock_text : Yields NoBlock (text ctx n children level) := by
  unfold text
  split
  · exact Yields.pure rfl
  · split
    · exact Yields.pure rfl
    · split
      · exact Yields.pure rfl
      · split
        · exact Yields.pure rfl
        · exact Yields.bind fun _ => Yields.pure rfl

theorem noBlock_card : Yields NoBlock (card ctx n children level) := by
  unfold card
  dsimp only
  split
  · exact Yields.pure rfl
  · exact Yields.bind fun _ => Yields.pure rfl

theorem noBlock_media : Yields NoBlock (media ctx n children level) := by
  unfold media
  split
  · split
    · exact Yields.pure rfl
    · exact Yields.bind fun _ => Yields.pure rfl
  · exact Yields.pure rfl

theorem noBlock_date : Yields NoBlock (date ctx n children level) := by
  unfold date
  refine Yields.pure ?_
  split <;> rfl

theorem noBlock_status : Yields NoBlock (status ctx n children level) := by
  refine Yields.pure (noBlock_ite rfl ?_)
  split <;> rfl

theorem noBlock_footnote : Yields NoBlock (footnote ctx n children level) := by
  unfold footnote
  split
  · exact Yields.pure rfl
  · refine Yields.bind fun _ => ?_
    split
    all_goals exact Yields.bind fun _ => Yields.pure rfl

theorem noBlock_table : Yields NoBlock (table ctx n children level) :=
  Yields.pure (noBlock_ite rfl (noBlock_ite rfl rfl))

theorem noBlock_builtin {k : NodeKind} {convert : Converter} (hk : k ≠ NodeKind.annotation)
    (hc : Registry.builtinConverters.get? k = some convert) :
    Yields NoBlock (convert ctx n children level) := by
  cases k with
  | annotation => exact absurd rfl hk
  | text =>
    cases hc
    exact noBlock_text ctx n children level
  | inlineCard =>
    cases hc
    exact noBlock_card ctx n children level
  | blockCard =>
    cases hc
    exact noBlock_card ctx n children level
  | media =>
    cases hc
    exact noBlock_media ctx n children level
  | date =>
    cases hc
    exact noBlock_date ctx n children level
  | status =>
    cases hc
    exact noBlock_status ctx n children level
  | footnote =>
    cases hc
    exact noBlock_footnote ctx n children level
  | table =>
    cases hc
    exact noBlock_table ctx n children level
  | link =>
    cases hc
    exact Yields.bind fun _ => Yields.pure rfl
  | listItem =>
    cases hc
    exact Yields.bind fun _ => Yields.pure rfl
  | orderedList =>
    cases hc
    exact Yields.bind fun _ => Yields.bind fun _ => Yields.pure rfl
  | blockquote =>
    cases hc
    exact Yields.pure (noBlock_ite rfl rfl)
  | mention =>
    cases hc
    exact Yields.pure (noBlock_ite rfl rfl)
  | unknown => cases hc
  | _ =>
    cases hc
    exact Yields.pure rfl

end Convert

/-- Sessions in which the state of annotations is sound, and only grows. -/
def GrowsSoundly (s s' : Session) : Prop :=
  s.annotations.Sound → s.annotations.Grows s'.annotations

theorem GrowsSoundly.refl (s : Session) : GrowsSoundly s s := fun h => h.grows

theorem GrowsSoundly.trans (s t u : Session) (h : GrowsSoundly s t) (h' : GrowsSoundly t u) :
    GrowsSoundly s u := fun hs => (h hs).trans (h' (h hs).sound)

theorem SameAnnotations.growsSoundly {s s' : Session} (h : SameAnnotations s s') :
    GrowsSoundly s s' := by
  intro hs
  rw [h]
  exact hs.grows

theorem keeps_annotation (ctx : Context) (n : Node) (children : List Fragment) (level : Int) :
    Keeps GrowsSoundly ( Convert.annotation ctx n children level) := by
  unfold Convert.annotation
  split
  · exact Keeps.pure GrowsSoundly.refl _
  · exact Keeps.pure GrowsSoundly.refl _
  · intro s f s' h hs
    rw [Convert.annotationBlock_run hs] at h
    cases h
    exact Convert.grows_afterBlock hs children

/-- Every walk leaves a sound state, in which the definitions of earlier numbers stand. -/
theorem keeps_walkLevels (ctx : Context) (levels : Nat) (level : Int) (n : Node) :
    Keeps GrowsSoundly (walkLevels Registry.standard.settle ctx levels level n) := by
  refine Keeps.walkLevels GrowsSoundly.refl GrowsSoundly.trans ?_ levels level n
  intro k convert hc n children level _
  rw [standard_get] at hc
  by_cases hk : k = NodeKind.annotation
  · subst hk
    cases hc
    exact keeps_annotation ctx n children level
  · intro s f s' h
    exact (keeps_builtin (Dictionary.mem_of_get? hc) hk ctx n children level s f s' h).growsSoundly

/-- Sessions that walks one after the other lead to, as those through the nodes of a document. -/
inductive Reached (ctx : Context) : Session → Prop
  | start : Reached ctx {}
  | walked {s s' : Session} {levels : Nat} {level : Int} {n : Node} {f : Fragment} :
    Reached ctx s → walkLevels Registry.standard.settle ctx levels level n s = .ok (f, s') →
      Reached ctx s'

theorem Reached.sound {ctx : Context} {s : Session} (h : Reached ctx s) : s.annotations.Sound := by
  induction h with
  | start => exact Annotation.State.sound_initial
  | walked _ hw ih => exact (keeps_walkLevels ctx _ _ _ _ _ _ hw ih).sound

theorem Reached.mapM {ctx : Context} {s s' : Session} (h : Reached ctx s) {levels : Nat}
    {level : Int} {ns : List Node} {fs : List Fragment}
    (hw : ns.mapM (walkLevels Registry.standard.settle ctx levels level) s = .ok (fs, s')) :
    Reached ctx s' := by
  induction ns generalizing s fs with
  | nil =>
    obtain ⟨-, rfl⟩ := mapM_nil_ok.mp hw
    exact h
  | cons n ns ih =>
    obtain ⟨f, s₁, gs, hf, hg, -⟩ := mapM_cons_ok.mp hw
    exact ih (.walked h hf) hg

/-- What holds of every walk from such a session holds of walks one after the other. -/
theorem Reached.forall₂ {ctx : Context} {s s' : Session} (h : Reached ctx s) {levels : Nat}
    {level : Int} {ns : List Node} {fs : List Fragment} {P : Node → Fragment → Prop}
    (hw : ns.mapM (walkLevels Registry.standard.settle ctx levels level) s = .ok (fs, s'))
    (each : ∀ {n t t' f}, Reached ctx t →
      walkLevels Registry.standard.settle ctx levels level n t = .ok (f, t') → P n f) :
    List.Forall₂ P ns fs := by
  induction ns generalizing s fs with
  | nil =>
    obtain ⟨rfl, -⟩ := mapM_nil_ok.mp hw
    exact .nil
  | cons n ns ih =>
    obtain ⟨f, s₁, gs, hf, hg, rfl⟩ := mapM_cons_ok.mp hw
    exact .cons (each h hf) (ih (.walked h hf) hg)

end Docmark
