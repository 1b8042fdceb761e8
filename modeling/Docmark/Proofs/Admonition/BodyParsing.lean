import Docmark.Admonition.Host

/-!
Parsing the body of an admonition leaves the parser around it where it was, whatever the parse of
the body does and also where it fails. The body is parsed once, unless it is empty, by the rules of
the text around it, of which near the greatest depth that for admonitions is left out.
-/

namespace Docmark.Admonition

section rules

variable {ρ : Type} [BEq ρ] [LawfulBEq ρ] {maxDepth depth : Int} {rule : ρ} {rules : List ρ}

/-- The rule for the block, where it is listed once, is left out just near the greatest depth. -/
theorem mem_rulesWithin_iff (distinct : rules.Nodup) :
    rule ∈ rulesWithin maxDepth depth rule rules ↔ rule ∈ rules ∧ depth < maxDepth - 1 := by
  rw [rulesWithin]
  split
  · rename_i near
    have out : rule ∉ rules.erase rule := distinct.not_mem_erase
    simp [out, near]
  · rename_i far
    simp [Int.not_le.mp far]

end rules

/-- What a parser is used for: its place is kept, a text is parsed, a place is returned to. -/
inductive Use (κ : Type)
  | kept (place : κ)
  | parsed (text : Text)
  | returned (place : κ)
  deriving DecidableEq, Repr

section Host

variable {σ κ τ ε : Type} (host : Host σ κ τ ε)

/-- The parser with a record of what it is used for. -/
def Host.recorded : Host (σ × List (Use κ)) κ τ ε where
  snapshot s :=
    let (place, after) := host.snapshot s.1
    (place, after, s.2 ++ [.kept place])
  restore place s := (host.restore place s.1, s.2 ++ [.returned place])
  tokenize text s :=
    let (result, after) := host.tokenize text s.1
    (result, after, s.2 ++ [.parsed text])

/-- The use that is made of a parser for the body of an admonition. -/
def Host.usesFor (a : Scanned) (s : σ) : List (Use κ) :=
  let place := (host.snapshot s).1
  .kept place :: ((if a.body = [] then [] else [.parsed a.body]) ++ [.returned place])

/-- The record does not change what is parsed, and tells all that the parser was used for. -/
theorem Host.parseBody_recorded (a : Scanned) (s : σ) (uses : List (Use κ)) :
    host.recorded.parseBody a (s, uses) =
      ((host.parseBody a s).1, (host.parseBody a s).2, uses ++ host.usesFor a s) := by
  by_cases empty : a.body = []
  · simp [parseBody, recorded, usesFor, empty]
  · simp [parseBody, recorded, usesFor, empty]

/-- Returning to the place that was kept undoes whatever a parse did. -/
structure Host.Returns : Prop where
  unparsed (s : σ) : host.restore (host.snapshot s).1 (host.snapshot s).2 = s
  parsed (text : Text) (s : σ) :
    host.restore (host.snapshot s).1 (host.tokenize text (host.snapshot s).2).2 = s

theorem Host.Returns.parseBody {host : Host σ κ τ ε} (h : host.Returns) (a : Scanned) (s : σ) :
    (host.parseBody a s).2 = s := by
  by_cases empty : a.body = []
  · simp [Host.parseBody, empty, h.unparsed]
  · simp [Host.parseBody, empty, h.parsed]

/-- What a parse of the body gives: nothing for an empty one. -/
def Host.content (a : Scanned) (s : σ) : Except ε (List τ) :=
  if a.body = [] then .ok [] else (host.tokenize a.body (host.snapshot s).2).1

theorem Host.parseBody_fst (a : Scanned) (s : σ) :
    (host.parseBody a s).1 =
      (host.content a s).map fun tokens => ⟨a.header, a.firstLine, a.lastLine, tokens⟩ := by
  by_cases empty : a.body = []
  · simp [parseBody, content, empty]
  · simp [parseBody, content, empty]

theorem Host.parseBody_eq_error_iff {a : Scanned} {s : σ} {err : ε} :
    (host.parseBody a s).1 = .error err ↔ host.content a s = .error err := by
  rw [parseBody_fst]
  cases host.content a s <;> simp [Except.map]

theorem Host.parseBody_eq_ok_iff {a : Scanned} {s : σ} {p : Parsed τ} :
    (host.parseBody a s).1 = .ok p ↔
      ∃ tokens, host.content a s = .ok tokens ∧ p = ⟨a.header, a.firstLine, a.lastLine, tokens⟩ := by
  rw [parseBody_fst]
  cases host.content a s <;> simp [Except.map, eq_comm]

end Host

section Engine

variable {τ ε : Type} (rule : Text)
  (parse : Text → List Text → Place → Except ε (List τ) × Place)

theorem Engine.returns_host : (Engine.host rule parse).Returns :=
  ⟨fun _ => rfl, fun _ _ => rfl⟩

/--
The body of an admonition is parsed once, unless it is empty, and then the parser is back where it
was, whatever the parse has done to its place; its rules are the same too. A parse that fails is the
only failure. It is given the rules of the parser in order, near the greatest depth without the
one for admonitions.
-/
theorem Engine.parseBody_host (a : Scanned) (e : Engine) :
    ∃ result given,
      (Engine.host rule parse).parseBody a e = (result, e) ∧
      (Engine.host rule parse).recorded.parseBody a (e, []) = (result, e,
        .kept e.place :: ((if a.body = [] then [] else [.parsed a.body]) ++ [.returned e.place])) ∧
      given = (if e.maxDepth - 1 ≤ e.depth then e.rules.erase rule else e.rules) ∧
      (e.rules.Nodup → (rule ∈ given ↔ rule ∈ e.rules ∧ e.depth < e.maxDepth - 1)) ∧
      (∀ err, result = .error err ↔
        a.body ≠ [] ∧ (parse a.body given e.place).1 = .error err) ∧
      ∀ p, result = .ok p ↔ ∃ tokens, p = ⟨a.header, a.firstLine, a.lastLine, tokens⟩ ∧
        if a.body = [] then tokens = [] else (parse a.body given e.place).1 = .ok tokens := by
  refine ⟨((Engine.host rule parse).parseBody a e).1, rulesWithin e.maxDepth e.depth rule e.rules,
    ?_, ?_, rfl, mem_rulesWithin_iff, fun err => ?_, fun p => ?_⟩
  · exact Prod.ext rfl ((returns_host rule parse).parseBody a e)
  · rw [Host.parseBody_recorded, (returns_host rule parse).parseBody]
    rfl
  · rw [Host.parseBody_eq_error_iff, Host.content]
    split
    · rename_i empty
      simp [empty]
    · rename_i filled
      simp [filled, Engine.host]
  · rw [Host.parseBody_eq_ok_iff, Host.content]
    split
    · simp [eq_comm]
    · simp [Engine.host, and_comm]

end Engine

end Docmark.Admonition
