import Docmark.Convert.Walk
import Docmark.Proofs.Dictionary
import Mathlib.Data.List.Sort

/-!
Registries in use: calls in any order, and what each of them is answered. Main statement: it does not
show that the built-in converters join a registry only when it is first asked.
-/

namespace Docmark

namespace Dictionary

variable {κ β : Type} [BEq κ] [LawfulBEq κ]

/-- Of values put one after the other the last one for a key counts. -/
theorem get?_foldl_put (d e : Dictionary κ β) (k : κ) :
    get? (d.foldl (fun e (k, v) => put k v e) e) k = ((ofPairs d).get? k).or (e.get? k) := by
  induction d generalizing e with
  | nil => rfl
  | cons p d ih =>
    obtain ⟨l, v⟩ := p
    have alone : ofPairs ((l, v) :: d) = d.foldl (fun e (k, v) => put k v e) [(l, v)] := rfl
    rw [List.foldl_cons, alone, ih, ih, Option.or_assoc]
    congr 1
    by_cases h : k = l
    · subst h
      simp [get?_put_self, get?_cons]
    · simp [get?_put_of_ne h, get?_cons, h]

theorem nodup_keys_foldl_put (d : Dictionary κ β) {e : Dictionary κ β} (nodup : e.keys.Nodup) :
    (keys (d.foldl (fun e (k, v) => put k v e) e)).Nodup := by
  induction d generalizing e with
  | nil => exact nodup
  | cons p d ih => exact ih (nodup_keys_put nodup)

/-- A dictionary with different keys is made of its own pairs. -/
theorem get?_ofPairs {d : Dictionary κ β} (nodup : d.keys.Nodup) (k : κ) :
    (ofPairs d).get? k = d.get? k := by
  induction d with
  | nil => rfl
  | cons p d ih =>
    obtain ⟨l, v⟩ := p
    rw [keys, List.map_cons, List.nodup_cons] at nodup
    have alone : ofPairs ((l, v) :: d) = d.foldl (fun e (k, v) => put k v e) [(l, v)] := rfl
    rw [alone, get?_foldl_put, ih nodup.2, get?_cons, get?_cons]
    by_cases h : k = l
    · subst h
      rw [get?_eq_none_iff.mpr nodup.1]
      simp
    · simp [h]

end Dictionary

theorem NodeKind.tag_inj {k l : NodeKind} (h : k.tag = l.tag) : k = l := by
  rw [← ofTag_tag k, h, ofTag_tag]

/-- How a kind is named where a converter is registered for it. -/
inductive KindName
  | tag (t : String)
  | kind (k : NodeKind)

/-- The kind that is meant; tags that no kind has mean the unknown one. -/
def KindName.meant : KindName → NodeKind
  | tag t => NodeKind.ofTag t
  | kind k => k

/-- The name as messages show it. -/
def KindName.shown : KindName → Text
  | tag t => Text.quoted t.toList
  | kind _ => Registry.shownUnknown

namespace Registry

/-- What a registry can be told and asked. -/
inductive Call (α : Type)
  | register (name : KindName) (c : α)
  /-- The first of two steps of a registration; the second registers under the kind itself. -/
  | announce (name : KindName)
  | get (k : NodeKind)
  | isRegistered (k : NodeKind)
  | kinds

inductive Answer (α : Type)
  | accepted
  | refused (e : Failure)
  | converter (c : Option α)
  | registered (b : Bool)
  | kinds (ks : List NodeKind)

variable {α : Type}

def registerNamed (r : Registry α) (c : α) : KindName → Except Failure (Registry α)
  | .tag t => r.registerTag t c
  | .kind k => r.registerKind k c

/-- What a call is answered, and the registry after it. -/
def call (r : Registry α) : Call α → Answer α × Registry α
  | .register name c =>
    match r.registerNamed c name with
    | .ok after => (.accepted, after)
    | .error e => (.refused e, r)
  | .announce name =>
    match Registry.announce name.meant name.shown with
    | .ok _ => (.accepted, r)
    | .error e => (.refused e, r)
  | .get k => (.converter (r.get k).1, (r.get k).2)
  | .isRegistered k => (.registered (r.isRegistered k).1, (r.isRegistered k).2)
  | .kinds => (.kinds r.kinds.1, r.kinds.2)

/-- The answers to calls one after the other. -/
def answers (r : Registry α) : List (Call α) → List (Answer α)
  | [] => []
  | c :: cs => (r.call c).1 :: (r.call c).2.answers cs

/-- The registry after calls one after the other. -/
def after (r : Registry α) : List (Call α) → Registry α
  | [] => r
  | c :: cs => (r.call c).2.after cs

/-- A new registry, which built-in converters join late or, unless they are included, never. -/
def fresh (included : Bool) (b : Dictionary NodeKind α) : Registry α :=
  if included then { builtins := b } else bare

/-- A registry that had the same converters registered when it was made. -/
def complete (included : Bool) (b : Dictionary NodeKind α) : Registry α :=
  { (bare : Registry α) with own := if included then Dictionary.ofPairs b else [] }

/-- The converter that a call registers for a kind. -/
def Call.registered? (k : NodeKind) : Call α → Option α
  | register name c => if name.meant = k ∧ k ≠ .unknown then some c else none
  | _ => none

/-- The last converter that calls register for a kind. -/
def lastRegistered (k : NodeKind) : List (Call α) → Option α
  | [] => none
  | c :: cs => (lastRegistered k cs).or (c.registered? k)

section settle

variable {r : Registry α}

@[simp] theorem settle_settle (r : Registry α) : r.settle.settle = r.settle := by
  have settled : r.settle.settled = true := by
    unfold settle
    split <;> simp_all
  rw [settle, if_pos settled]

/-- Converters of its own come before those that are built in. -/
theorem get?_settle (nodup : r.own.keys.Nodup) (k : NodeKind) :
    r.settle.own.get? k = (r.own.get? k).or
      (if r.settled then none else (Dictionary.ofPairs r.builtins).get? k) := by
  unfold settle
  cases r.settled with
  | true => simp
  | false =>
    simp only [Bool.false_eq_true, ↓reduceIte]
    rw [Dictionary.get?_foldl_put, Dictionary.get?_foldl_put, Dictionary.get?_ofPairs nodup]
    cases r.own.get? k <;> simp

theorem nodup_settle (nodup : r.own.keys.Nodup) : r.settle.own.keys.Nodup := by
  unfold settle
  split
  · exact nodup
  · exact Dictionary.nodup_keys_foldl_put _ (Dictionary.nodup_keys_foldl_put _ nodup)

/-- The registry after a registration that is accepted. -/
def put (r : Registry α) (k : NodeKind) (c : α) : Registry α :=
  { r with own := r.own.put k c }

/-- It counts whether the built-in converters have joined before or not. -/
theorem get?_settle_put (nodup : r.own.keys.Nodup) (k l : NodeKind) (c : α) :
    (r.put k c).settle.own.get? l = if l = k then some c else r.settle.own.get? l := by
  have nodup' : (r.put k c).own.keys.Nodup := Dictionary.nodup_keys_put nodup
  have own : (r.put k c).own.get? l = if l = k then some c else r.own.get? l := by
    by_cases h : l = k
    · rw [h, if_pos rfl]
      exact Dictionary.get?_put_self k c r.own
    · rw [if_neg h]
      exact Dictionary.get?_put_of_ne h c r.own
  rw [get?_settle nodup', get?_settle nodup, own]
  split
  · rw [Option.some_or]
  · rfl

end settle

section calls

variable (r : Registry α) (name : KindName) (c : α) (k : NodeKind)

theorem call_register : r.call (.register name c) =
    if name.meant = .unknown then (.refused (.unknownKind name.shown), r)
    else (.accepted, r.put name.meant c) := by
  have registers : r.registerNamed c name = if name.meant = .unknown then
      .error (.unknownKind name.shown) else .ok (r.put name.meant c) := by
    cases name <;> rfl
  rw [call, registers]
  by_cases unknown : name.meant = .unknown <;> simp [unknown]

theorem call_announce : r.call (.announce name) =
    if name.meant = .unknown then (.refused (.unknownKind name.shown), r) else (.accepted, r) := by
  rw [call, Registry.announce]
  by_cases unknown : name.meant = .unknown <;> simp [unknown]

theorem call_get : r.call (.get k) = (.converter (r.settle.own.get? k), r.settle) := rfl

theorem call_isRegistered :
    r.call (.isRegistered k) = (.registered (r.settle.own.get? k).isSome, r.settle) := rfl

end calls

/-- Registries that a lookup finds the same converters in. -/
structure Alike (r e : Registry α) : Prop where
  nodup : r.own.keys.Nodup
  nodup' : e.own.keys.Nodup
  same : ∀ k, r.settle.own.get? k = e.settle.own.get? k

namespace Alike

variable {r e : Registry α}

theorem put (h : Alike r e) (k : NodeKind) (c : α) : Alike (r.put k c) (e.put k c) where
  nodup := Dictionary.nodup_keys_put h.nodup
  nodup' := Dictionary.nodup_keys_put h.nodup'
  same l := by rw [get?_settle_put h.nodup, get?_settle_put h.nodup', h.same]

theorem settle (h : Alike r e) : Alike r.settle e.settle where
  nodup := nodup_settle h.nodup
  nodup' := nodup_settle h.nodup'
  same k := by rw [settle_settle, settle_settle, h.same]

/-- The kinds are listed in the order of their tags, so the order of the pairs does not show. -/
theorem kinds (h : Alike r e) : r.kinds.1 = e.kinds.1 := by
  have perm : r.settle.own.keys.Perm e.settle.own.keys := by
    refine (List.perm_ext_iff_of_nodup (nodup_settle h.nodup) (nodup_settle h.nodup')).mpr ?_
    intro k
    have unknown := (Dictionary.get?_eq_none_iff (k := k) (d := r.settle.own)).symm
    rw [h.same, Dictionary.get?_eq_none_iff] at unknown
    exact not_iff_not.mp unknown
  have ordered (ks : List NodeKind) : (ks.mergeSort fun a b => a.tag ≤ b.tag).Pairwise
      fun a b => decide (a.tag ≤ b.tag) = true :=
    List.pairwise_mergeSort (fun a b c hab hbc => by
        simp only [decide_eq_true_eq] at *
        exact String.le_trans hab hbc)
      (fun a b => by simpa using String.le_total a.tag b.tag) ks
  refine List.Perm.eq_of_pairwise (fun a b _ _ hab hba => ?_) (ordered _) (ordered _)
    ((List.mergeSort_perm _ _).trans (perm.trans (List.mergeSort_perm _ _).symm))
  simp only [decide_eq_true_eq] at hab hba
  exact NodeKind.tag_inj (String.le_antisymm hab hba)

/-- A call is answered alike, and they stay alike. -/
theorem call (h : Alike r e) (call : Call α) :
    (r.call call).1 = (e.call call).1 ∧ Alike (r.call call).2 (e.call call).2 := by
  cases call with
  | register name c =>
    rw [call_register, call_register]
    split
    · exact ⟨rfl, h⟩
    · exact ⟨rfl, h.put name.meant c⟩
  | announce name =>
    rw [call_announce, call_announce]
    split <;> exact ⟨rfl, h⟩
  | get k =>
    rw [call_get, call_get, h.same]
    exact ⟨rfl, h.settle⟩
  | isRegistered k =>
    rw [call_isRegistered, call_isRegistered, h.same]
    exact ⟨rfl, h.settle⟩
  | kinds => exact ⟨congrArg Answer.kinds h.kinds, h.settle⟩

theorem answers (h : Alike r e) (calls : List (Call α)) : r.answers calls = e.answers calls := by
  induction calls generalizing r e with
  | nil => rfl
  | cons call calls ih =>
    obtain ⟨same, alike⟩ := h.call call
    rw [Registry.answers, Registry.answers, same, ih alike]

end Alike

/-- A registry is at all times like one that had its converters from the start. -/
theorem alike_fresh (included : Bool) (b : Dictionary NodeKind α) :
    Alike (fresh included b) (complete included b) := by
  cases included with
  | false => exact ⟨List.nodup_nil, List.nodup_nil, fun _ => rfl⟩
  | true => exact ⟨List.nodup_nil, Dictionary.nodup_keys_foldl_put b List.nodup_nil, fun _ => rfl⟩

section lookup

variable {r : Registry α} (nodup : r.own.keys.Nodup)

include nodup

theorem nodup_call (call : Call α) : (r.call call).2.own.keys.Nodup :=
  (Alike.call ⟨nodup, nodup, fun _ => rfl⟩ call).2.nodup

theorem get?_call (call : Call α) (k : NodeKind) : (r.call call).2.settle.own.get? k =
    (call.registered? k).or (r.settle.own.get? k) := by
  cases call with
  | register name c =>
    rw [call_register, Call.registered?]
    split
    · rename_i unknown
      rw [if_neg (by rw [unknown]; exact fun h => h.2 h.1.symm)]
      rfl
    · rename_i known
      rw [get?_settle_put nodup]
      by_cases meant : k = name.meant
      · rw [if_pos meant, if_pos ⟨meant.symm, meant ▸ known⟩, Option.some_or]
      · rw [if_neg meant, if_neg fun h => meant h.1.symm, Option.none_or]
  | announce name =>
    rw [call_announce]
    split <;> rfl
  | _ => exact congrArg (fun r => r.own.get? k) (settle_settle r)

/-- The last converter registered for a kind is found, or else the one that was there before. -/
theorem get?_after (calls : List (Call α)) (k : NodeKind) : (r.after calls).settle.own.get? k =
    (lastRegistered k calls).or (r.settle.own.get? k) := by
  induction calls generalizing r with
  | nil => rfl
  | cons call calls ih =>
    rw [after, lastRegistered, ih (nodup_call nodup call), get?_call nodup, Option.or_assoc]

end lookup

/--
Whatever a registry is told and asked, it answers as one that had the built-in converters, or none,
from the start. So a lookup finds the last converter registered for a kind, or else the built-in one;
and what is refused changes nothing.
-/
theorem answers_fresh (included : Bool) (calls : List (Call Converter)) :
    (fresh included builtinConverters).answers calls =
        (complete included builtinConverters).answers calls ∧
      (∀ k, (((fresh included builtinConverters).after calls).get k).1 =
        (lastRegistered k calls).or (if included then builtinConverters.get? k else none)) ∧
      ∀ (r : Registry Converter) (call : Call Converter) (e : Failure),
        (r.call call).1 = .refused e → (r.call call).2 = r := by
  have alike := alike_fresh included builtinConverters
  refine ⟨alike.answers calls, fun k => ?_, fun r call e refused => ?_⟩
  · show ((fresh included builtinConverters).after calls).settle.own.get? k = _
    rw [get?_after alike.nodup, alike.same]
    cases included <;> rfl
  · cases call with
    | register name c =>
      rw [call_register] at refused ⊢
      split at refused
      · rename_i unknown
        rw [if_pos unknown]
      · cases refused
    | announce name =>
      rw [call_announce]
      split <;> rfl
    | _ => cases refused

theorem standard_refuses :
    ∃ e, (Registry.standard.call (.register (.tag "layout") Convert.rule)).1 = .refused e ∧
      (Registry.standard.call (.register (.tag "layout") Convert.rule)).2 = Registry.standard := by
  obtain ⟨-, -, unchanged⟩ := answers_fresh true []
  exact ⟨.unknownKind (Text.quoted "layout".toList), rfl, unchanged _ _ _ rfl⟩

end Registry
end Docmark
