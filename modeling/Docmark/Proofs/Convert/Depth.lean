import Docmark.Proofs.Convert.Checks
import Docmark.Proofs.Convert.Registration

/-!
One ceiling for all that reads a document: loading it, walking through it and extracting text on the
way count levels alike. Main statement: with a ceiling of whole levels just the values that are
nested deeper are refused for it, and no deeper tree is converted.
-/

namespace Docmark

open Conversion

namespace Conversion

variable {α β : Type}

/-- No run finds a tree too deep. -/
def Shallow (x : Conversion α) : Prop :=
  ∀ s cause, x s ≠ .error (.tooDeep cause)

theorem Shallow.pure (a : α) : Shallow (pure a) := nofun

theorem Shallow.lift {ε : Type} {wrap : ε → Failure} (h : ∀ e cause, wrap e ≠ .tooDeep cause)
    (r : Except ε α) : Shallow (Conversion.lift wrap r) := by
  intro s cause failed
  cases r with
  | ok a => cases failed
  | error e => exact h e cause (Except.error.inj failed)

theorem Shallow.bind {x : Conversion α} {f : α → Conversion β} (hx : Shallow x)
    (hf : ∀ s a s', x s = .ok (a, s') → Shallow (f a)) : Shallow (x >>= f) := by
  intro s cause failed
  rcases bind_error.mp failed with here | ⟨a, s₁, run, later⟩
  · exact hx s cause here
  · exact hf s a s₁ run s₁ cause later

theorem Shallow.mapM {f : α → Conversion β} {as : List α} (h : ∀ a ∈ as, Shallow (f a)) :
    Shallow (as.mapM f) := by
  induction as with
  | nil => exact .pure _
  | cons a as ih =>
    rw [List.mapM_cons]
    refine (h a (by simp)).bind fun _ _ _ _ => ?_
    exact (ih fun b hb => h b (by simp [hb])).bind fun _ _ _ _ => .pure _

theorem Judged.shallow {x : Conversion α} {v : Except Failure Unit} (judged : Judged x v)
    (h : ∀ cause, v ≠ .error (.tooDeep cause)) : Shallow x := by
  intro s cause failed
  exact h cause ((judged s).symm.trans (verdict_eq_error_iff.mpr failed))

end Conversion

/-- No converter finds a tree too deep. -/
def Registry.Shallow (registry : Registry Converter) : Prop :=
  ∀ ctx n convert, (registry.get n.kind).1 = some convert →
    ∀ children level, children.length = n.children.length →
      Conversion.Shallow (convert ctx n children level)

theorem Registry.Shallow.settle {registry : Registry Converter} (shallow : registry.Shallow) :
    registry.settle.Shallow := by
  intro ctx n convert registered
  rw [get, settle_settle] at registered
  exact shallow ctx n convert registered

namespace Convert

theorem shallow_listItem (ctx : Context) (n : Node) (children : List Fragment) (level : Int) :
    Shallow (listItem ctx n children level) :=
  Shallow.bind (.lift nofun _) fun _ _ _ _ => .pure _

end Convert

theorem Registry.standard_shallow : Registry.standard.Shallow := by
  intro ctx n convert registered children level places
  have listed : builtinConverters.get? n.kind = some convert := by
    rw [← standard_get, get, settle_settle]
    exact registered
  by_cases item : n.kind = .listItem
  · rw [item] at listed
    cases listed
    exact Convert.shallow_listItem ctx n children level
  · have judged : Judged (convert ctx n children level) (n.check ctx) :=
      Convert.judged_builtin listed places fun h => absurd h item
    refine judged.shallow fun cause failed => ?_
    rcases n.check_error failed with ⟨_, number⟩ | ⟨_, url⟩
    · cases number
    · cases url

/-- A tree that is not too deep stays so below each of its nodes. -/
theorem shallow_walkLevels {registry : Registry Converter} (shallow : registry.Shallow)
    {ctx : Context} {levels : Nat} (within : levels ≤ ctx.ceiling.levels) {n : Node}
    (low : n.height < levels) (level : Int) :
    Shallow (walkLevels registry ctx levels level n) := by
  induction levels generalizing n level with
  | zero => exact absurd low (Nat.not_lt_zero _)
  | succ below ih =>
    rw [walkLevels]
    split
    · obtain ⟨t, ht⟩ := exists_extractText within low
      dsimp only
      rw [ht]
      exact .pure _
    · rename_i convert registered
      have children : Shallow (n.children.mapM (walkLevels registry ctx below
          (n.kind.childLevel level))) := by
        refine .mapM fun c hc => ih (by omega) ?_ _
        have := Node.height_lt_of_mem hc
        omega
      refine children.bind fun s fs s' run => ?_
      exact shallow ctx n convert registered fs level (forall₂_of_mapM_ok run).length_eq.symm

/-- A walk that comes through has found no more levels than it was allowed. -/
theorem height_lt_of_walkLevels {registry : Registry Converter} {ctx : Context} {N : Nat}
    (ceiling : ctx.ceiling = .whole N) {levels : Nat} (within : levels ≤ N + 1) {n : Node}
    {level : Int} {s s' : Session} {f : Fragment}
    (run : walkLevels registry ctx levels level n s = .ok (f, s')) : n.height < levels := by
  induction levels generalizing n level s s' f with
  | zero =>
    rw [walkLevels] at run
    cases run
  | succ below ih =>
    rw [walkLevels] at run
    cases registered : (registry.get n.kind).1 with
    | none =>
      rw [registered] at run
      obtain ⟨t, s₁, extracted, -⟩ := bind_ok.mp run
      have low := Node.exists_extractLevels_iff.mp ⟨t, (lift_ok.mp extracted).1⟩
      rw [ceiling, Ceiling.levels_below_whole, Ceiling.levels_whole] at low
      omega
    | some convert =>
      rw [registered] at run
      obtain ⟨fs, s₁, walked, -⟩ := bind_ok.mp run
      rw [Nat.lt_succ_iff, ← Nat.not_lt, Node.lt_height_iff]
      rintro ⟨c, hc, deep⟩
      obtain ⟨t, g, t', inner⟩ := exists_run_of_mem walked hc
      exact Nat.not_lt.mpr deep (ih (by omega) inner)

section

variable {registry : Registry Converter} {ctx : Context} {n : Node} {N : Nat}

theorem shallow_walk (shallow : registry.Shallow) (low : n.height < ctx.ceiling.levels)
    (level : Int) : Shallow (walk registry ctx level n) :=
  shallow_walkLevels shallow.settle (Nat.le_refl _) low level

theorem walk_of_lt_height (ceiling : ctx.ceiling = .whole N) (deep : N < n.height) (level : Int)
    (s : Session) (r : Fragment × Session) : walk registry ctx level n s ≠ .ok r := by
  intro run
  have levels : ctx.ceiling.levels = N + 1 := by rw [ceiling, Ceiling.levels_whole]
  have low := height_lt_of_walkLevels ceiling (Nat.le_of_eq levels) run
  omega

theorem convertTree_shallow (shallow : registry.Shallow) (low : n.height < ctx.ceiling.levels)
    (cause : TooDeep) : convertTree registry ctx n ≠ .error (.tooDeep cause) := by
  intro failed
  rcases bind_eq_error.mp failed with here | ⟨r, -, later⟩
  · exact shallow_walk shallow low 0 {} cause here
  · cases later

theorem convertTree_of_lt_height (ceiling : ctx.ceiling = .whole N) (deep : N < n.height)
    (c : Converted) : convertTree registry ctx n ≠ .ok c := by
  intro converted
  obtain ⟨r, run, -⟩ := bind_eq_ok.mp converted
  exact walk_of_lt_height ceiling deep 0 {} r run

/-- What is loaded is not too deep for what follows. -/
theorem exists_tooDeep_iff (shallow : registry.Shallow) (members : List (String × Json)) :
    (∃ cause, (orFail .tooDeep (Node.load ctx.ceiling members) >>= convertTree registry ctx) =
      .error (.tooDeep cause)) ↔ HasLevel members ctx.ceiling.levels := by
  constructor
  · rintro ⟨cause, failed⟩
    by_contra low
    obtain ⟨n, loaded⟩ := Node.exists_load_iff.mpr low
    rw [loaded] at failed
    exact convertTree_shallow shallow (Node.height_lt_of_load loaded) cause failed
  · intro deep
    cases loaded : Node.load ctx.ceiling members with
    | ok n => exact absurd deep (Node.exists_load_iff.mp ⟨n, loaded⟩)
    | error cause => exact ⟨cause, rfl⟩

/-- Every whole ceiling up to the limit can be asked for. -/
theorem exists_update_depth (options : ConversionOptions) (positive : 1 ≤ N)
    (bounded : N ≤ depthLimit) :
    ∃ o, options.update [("max_nesting_depth", .int N)] = .ok o ∧
      o.maxNestingDepth.ceiling = .whole N := by
  have low : (Ceiling.whole N).isLess 1 = false := by
    rw [Ceiling.isLess, decide_eq_false_iff_not]
    omega
  have high : (Ceiling.whole N).isGreater depthLimit = false := by
    rw [Ceiling.isGreater, decide_eq_false_iff_not]
    omega
  have depth : Depth.ofJson (.int N) = .ok ⟨.whole N, low, high⟩ := by
    rw [Depth.ofJson, Ceiling.ofJson?]
    dsimp only
    rw [Depth.ofCeiling, dif_neg (by simp [low]), dif_neg (by simp [high])]
  refine ⟨{ options with maxNestingDepth := ⟨.whole N, low, high⟩ }, ?_, rfl⟩
  have set : options.set "max_nesting_depth" (.int N) =
      .ok { options with maxNestingDepth := ⟨.whole N, low, high⟩ } := by
    have asked : options.set "max_nesting_depth" (.int N) =
        (Depth.ofJson (.int N) >>= fun d => pure { options with maxNestingDepth := d }) := rfl
    rw [asked, depth]
    rfl
  have alone : options.update [("max_nesting_depth", .int N)] =
      (options.set "max_nesting_depth" (.int N) >>= pure) := rfl
  exact alone.trans (congrArg (· >>= pure) set)

end

/-- A text in a node of unknown kind, two levels down. -/
def textInUnknown : List (String × Json) :=
  [("type", .str "doc"), ("content", .list [.object
    [("type", .str "layout"), ("content", .list [.object
      [("type", .str "text"), ("text", .str "a")]])]])]

end Docmark
