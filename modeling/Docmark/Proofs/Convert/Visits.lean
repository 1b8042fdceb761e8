import Docmark.Proofs.Convert.Walk

/-!
A walk as the conversions of its nodes, in the order in which they end. Each of them begins in the
session that the one before it left, so that an invariant of a walk is one of single conversions.
-/

namespace Docmark

open Conversion

/-- The conversion of a node: what it was given, and what it left. -/
structure Visit where
  node : Node
  level : Int
  children : List Fragment
  before : Session
  fragment : Fragment
  after : Session

/-- The walk, with the conversions of its nodes. -/
def visitLevels (registry : Registry Converter) (ctx : Context) :
    Nat → Int → Node → Conversion (Fragment × List Visit)
  | 0, _, n => Conversion.fail (.tooDeep ⟨ctx.ceiling, n.tag⟩)
  | below + 1, level, n =>
    match (registry.get n.kind).1 with
    | none => do
      let s ← get
      let f ← walkLevels registry ctx (below + 1) level n
      return (f, [⟨n, level, [], s, f, s⟩])
    | some convert => do
      let parts ← n.children.mapM (visitLevels registry ctx below (n.kind.childLevel level))
      let s ← get
      let f ← convert ctx n (parts.map Prod.fst) level
      let t ← get
      return (f, parts.flatMap Prod.snd ++ [⟨n, level, parts.map Prod.fst, s, f, t⟩])

/-- The conversions of which the walk from a node consists. -/
def visits (registry : Registry Converter) (ctx : Context) (level : Int) (n : Node) :
    Conversion (Fragment × List Visit) :=
  visitLevels registry.settle ctx ctx.ceiling.levels level n

mutual

/-- The nodes that are converted, each after those below it; a node of unknown kind is only read. -/
def Node.converted : Node → List Node
  | ⟨tag, attributes, children, text, marks⟩ =>
    let n : Node := ⟨tag, attributes, children, text, marks⟩
    (if n.kind = .unknown then [] else convertedOf children) ++ [n]

def convertedOf : List Node → List Node
  | [] => []
  | n :: ns => n.converted ++ convertedOf ns

end

theorem convertedOf_eq (ns : List Node) : convertedOf ns = ns.flatMap Node.converted := by
  induction ns with
  | nil => rfl
  | cons n ns ih => rw [convertedOf, ih, List.flatMap_cons]

theorem Node.converted_eq (n : Node) : n.converted =
    (if n.kind = .unknown then [] else n.children.flatMap Node.converted) ++ [n] := by
  cases n
  rw [Node.converted, ← convertedOf_eq]

theorem get?_builtinConverters_eq_none_iff {k : NodeKind} :
    Registry.builtinConverters.get? k = none ↔ k = .unknown := by
  cases k <;> simp [Registry.builtinConverters, Dictionary.get?_cons]

section projection

variable {registry : Registry Converter} {ctx : Context} {s s' : Session} {level : Int}

/-- Every walk consists of such conversions. -/
theorem visitLevels_of_walk {levels : Nat} {n : Node} {f : Fragment}
    (h : walkLevels registry ctx levels level n s = .ok (f, s')) :
    ∃ vs, visitLevels registry ctx levels level n s = .ok ((f, vs), s') := by
  induction levels generalizing level n s s' f with
  | zero => simp [walkLevels] at h
  | succ below ih =>
    rw [visitLevels]
    rcases walkLevels_ok h with ⟨hc, -, rfl⟩ | ⟨convert, children, s₁, hc, hchildren, hf⟩
    · rw [hc]
      exact ⟨_, bind_ok.mpr ⟨_, _, get_ok.mpr ⟨rfl, rfl⟩,
        bind_ok.mpr ⟨f, _, h, pure_ok.mpr ⟨rfl, rfl⟩⟩⟩⟩
    · rw [hc]
      have each {s s' : Session} {c : Node} {g : Fragment}
          (h : walkLevels registry ctx below (n.kind.childLevel level) c s = .ok (g, s')) :
          ∃ p, visitLevels registry ctx below (n.kind.childLevel level) c s = .ok (p, s') ∧
            p.1 = g := by
        obtain ⟨vs, hv⟩ := ih h
        exact ⟨(g, vs), hv, rfl⟩
      obtain ⟨ps, hps, rfl⟩ := mapM_of_refines each hchildren
      exact ⟨_, bind_ok.mpr ⟨ps, s₁, hps, bind_ok.mpr ⟨s₁, s₁, get_ok.mpr ⟨rfl, rfl⟩,
        bind_ok.mpr ⟨f, s', hf, bind_ok.mpr ⟨s', s', get_ok.mpr ⟨rfl, rfl⟩,
          pure_ok.mpr ⟨rfl, rfl⟩⟩⟩⟩⟩⟩

theorem visits_of_walk {n : Node} {f : Fragment}
    (h : walk registry ctx level n s = .ok (f, s')) :
    ∃ vs, visits registry ctx level n s = .ok ((f, vs), s') :=
  visitLevels_of_walk h

end projection

/-- How a built-in converter, or the reading of a node of unknown kind, did its part. -/
inductive Visit.Made (ctx : Context) (v : Visit) : Prop
  | read (unknown : v.node.kind = .unknown) (same : v.after = v.before)
  | converted {convert : Converter}
    (registered : Registry.builtinConverters.get? v.node.kind = some convert)
    (places : v.children.length = v.node.children.length)
    (run : convert ctx v.node v.children v.level v.before = .ok (v.fragment, v.after))

/-- Conversions one after the other, from one session to another. -/
inductive Visited (ctx : Context) : Session → List Visit → Session → Prop
  | nil (s : Session) : Visited ctx s [] s
  | cons {v : Visit} {vs : List Visit} {s : Session} (made : v.Made ctx)
    (rest : Visited ctx v.after vs s) : Visited ctx v.before (v :: vs) s

theorem Visited.single {ctx : Context} {v : Visit} (made : v.Made ctx) :
    Visited ctx v.before [v] v.after :=
  .cons made (.nil _)

theorem Visited.append {ctx : Context} {s t u : Session} {vs ws : List Visit}
    (h : Visited ctx s vs t) (h' : Visited ctx t ws u) : Visited ctx s (vs ++ ws) u := by
  induction h with
  | nil s => exact h'
  | cons made _ ih => exact .cons made (ih h')

section standard

variable {ctx : Context} {s s' : Session} {level : Int}

/-- What the walk of a single node did. -/
theorem visitLevels_ok {below : Nat} {n : Node} {p : Fragment × List Visit}
    (h : visitLevels Registry.standard.settle ctx (below + 1) level n s = .ok (p, s')) :
    (n.kind = .unknown ∧ p.2 = [⟨n, level, [], s, p.1, s'⟩] ∧ s' = s) ∨
      ∃ convert parts s₁, Registry.builtinConverters.get? n.kind = some convert ∧
        n.children.mapM (visitLevels Registry.standard.settle ctx below
          (n.kind.childLevel level)) s = .ok (parts, s₁) ∧
        convert ctx n (parts.map Prod.fst) level s₁ = .ok (p.1, s') ∧
        p.2 = parts.flatMap Prod.snd ++ [⟨n, level, parts.map Prod.fst, s₁, p.1, s'⟩] := by
  rw [visitLevels, standard_get] at h
  cases hc : Registry.builtinConverters.get? n.kind with
  | none =>
    rw [hc] at h
    obtain ⟨t, s₁, ht, read⟩ := bind_ok.mp h
    obtain ⟨rfl, rfl⟩ := get_ok.mp ht
    obtain ⟨f, s₂, hw, done⟩ := bind_ok.mp read
    obtain ⟨rfl, rfl⟩ := pure_ok.mp done
    rcases walkLevels_ok hw with ⟨-, -, rfl⟩ | ⟨convert, -, -, hc', -, -⟩
    · exact Or.inl ⟨get?_builtinConverters_eq_none_iff.mp hc, rfl, rfl⟩
    · rw [standard_get, hc] at hc'
      cases hc'
  | some convert =>
    rw [hc] at h
    obtain ⟨parts, s₁, hparts, walked⟩ := bind_ok.mp h
    obtain ⟨t, s₂, ht, converts⟩ := bind_ok.mp walked
    obtain ⟨rfl, rfl⟩ := get_ok.mp ht
    obtain ⟨f, s₃, hf, ends⟩ := bind_ok.mp converts
    obtain ⟨t', s₄, ht', done⟩ := bind_ok.mp ends
    obtain ⟨rfl, rfl⟩ := get_ok.mp ht'
    obtain ⟨rfl, rfl⟩ := pure_ok.mp done
    exact Or.inr ⟨convert, parts, _, rfl, hparts, hf, rfl⟩

theorem mapM_visited {levels : Nat}
    (node : ∀ {s s' : Session} {n : Node} {p : Fragment × List Visit},
      visitLevels Registry.standard.settle ctx levels level n s = .ok (p, s') →
        Visited ctx s p.2 s' ∧ p.2.map Visit.node = n.converted)
    {ns : List Node} {ps : List (Fragment × List Visit)}
    (h : ns.mapM (visitLevels Registry.standard.settle ctx levels level) s = .ok (ps, s')) :
    Visited ctx s (ps.flatMap Prod.snd) s' ∧
      (ps.flatMap Prod.snd).map Visit.node = ns.flatMap Node.converted := by
  induction ns generalizing s ps with
  | nil =>
    obtain ⟨rfl, rfl⟩ := mapM_nil_ok.mp h
    exact ⟨.nil _, rfl⟩
  | cons n ns ih =>
    obtain ⟨p, s₁, qs, hp, hqs, rfl⟩ := mapM_cons_ok.mp h
    obtain ⟨first, nodes⟩ := node hp
    obtain ⟨others, nodes'⟩ := ih hqs
    refine ⟨first.append others, ?_⟩
    rw [List.flatMap_cons, List.map_append, nodes, nodes', List.flatMap_cons]

/-- The conversions of a walk follow each other, one for each node that is converted. -/
theorem visited_of_visitLevels {levels : Nat} {n : Node} {p : Fragment × List Visit}
    (h : visitLevels Registry.standard.settle ctx levels level n s = .ok (p, s')) :
    Visited ctx s p.2 s' ∧ p.2.map Visit.node = n.converted := by
  induction levels generalizing level n s s' p with
  | zero =>
    rw [visitLevels, fail_ok] at h
    exact h.elim
  | succ below ih =>
    rw [Node.converted_eq]
    rcases visitLevels_ok h with ⟨unknown, only, rfl⟩ | ⟨convert, parts, s₁, hc, hparts, hf, all⟩
    · rw [only]
      refine ⟨.single (v := ⟨n, level, [], _, p.1, _⟩) (.read unknown rfl), ?_⟩
      simp [unknown]
    · have known : n.kind ≠ .unknown := fun hk => by
        rw [get?_builtinConverters_eq_none_iff.mpr hk] at hc
        cases hc
      have places := (forall₂_of_mapM_ok hparts).length_eq
      obtain ⟨below, nodes⟩ := mapM_visited (fun h => ih h) hparts
      rw [all]
      refine ⟨below.append (.single (v := ⟨n, level, _, _, p.1, _⟩)
        (.converted hc (by simp [places]) hf)), ?_⟩
      rw [List.map_append, nodes, if_neg known]
      rfl

theorem visits_ok {n : Node} {p : Fragment × List Visit}
    (h : visits Registry.standard ctx level n s = .ok (p, s')) :
    Visited ctx s p.2 s' ∧ p.2.map Visit.node = n.converted :=
  visited_of_visitLevels h

/-- What every conversion gives on from the children to the node holds of all that is converted. -/
theorem fragments_of_visitLevels {Q : Fragment → Prop} {levels : Nat} {n : Node}
    {p : Fragment × List Visit}
    (h : visitLevels Registry.standard.settle ctx levels level n s = .ok (p, s'))
    (step : ∀ v ∈ p.2, (∀ g ∈ v.children, Q g) → Q v.fragment) :
    Q p.1 ∧ ∀ v ∈ p.2, ∀ g ∈ v.children, Q g := by
  induction levels generalizing level n s s' p with
  | zero =>
    rw [visitLevels, fail_ok] at h
    exact h.elim
  | succ below ih =>
    rcases visitLevels_ok h with ⟨-, only, -⟩ | ⟨convert, parts, s₁, -, hparts, -, all⟩
    · rw [only] at step ⊢
      have here := step _ (List.mem_singleton_self _) (by simp)
      refine ⟨here, fun v hv => ?_⟩
      rw [List.mem_singleton.mp hv]
      simp
    · have each : ∀ q ∈ parts, Q q.1 ∧ ∀ v ∈ q.2, ∀ g ∈ v.children, Q g := by
        intro q hq
        obtain ⟨m, t, t', hm⟩ := exists_of_mem_mapM_ok hparts hq
        refine ih hm fun v hv => step v ?_
        rw [all]
        exact List.mem_append_left _ (List.mem_flatMap.mpr ⟨q, hq, hv⟩)
      have children : ∀ g ∈ parts.map Prod.fst, Q g := by
        intro g hg
        obtain ⟨q, hq, rfl⟩ := List.mem_map.mp hg
        exact (each q hq).1
      refine ⟨step ⟨n, level, parts.map Prod.fst, s₁, p.1, s'⟩ (by simp [all]) children, ?_⟩
      intro v hv
      rw [all] at hv
      rcases List.mem_append.mp hv with hv | hv
      · obtain ⟨q, hq, hv⟩ := List.mem_flatMap.mp hv
        exact (each q hq).2 v hv
      · rw [List.mem_singleton.mp hv]
        exact children

end standard

namespace Visited

variable {ctx : Context} {s t : Session} {vs : List Visit}

/-- What every conversion keeps holds before and after each of them. -/
theorem invariant {P : Session → Prop} (h : Visited ctx s vs t)
    (step : ∀ v : Visit, v.Made ctx → P v.before → P v.after) (start : P s) :
    P t ∧ ∀ v ∈ vs, v.Made ctx ∧ P v.before ∧ P v.after := by
  induction h with
  | nil s => exact ⟨start, by simp⟩
  | @cons v vs s made _ ih =>
    obtain ⟨last, each⟩ := ih (step v made start)
    refine ⟨last, fun w hw => ?_⟩
    rcases List.mem_cons.mp hw with rfl | hw
    · exact ⟨made, start, step _ made start⟩
    · exact each w hw

theorem made (h : Visited ctx s vs t) : ∀ v ∈ vs, v.Made ctx := by
  induction h with
  | nil s => simp
  | cons made _ ih => exact List.forall_mem_cons.mpr ⟨made, ih⟩

end Visited

end Docmark
