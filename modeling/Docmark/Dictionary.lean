/-!
Pairs of keys and values in the order in which the keys were first put.
-/

namespace Docmark

abbrev Dictionary (κ β : Type) := List (κ × β)

namespace Dictionary

variable {κ β : Type} [BEq κ]

def get? (d : Dictionary κ β) (k : κ) : Option β :=
  d.lookup k

def has (d : Dictionary κ β) (k : κ) : Bool :=
  (d.lookup k).isSome

/-- A new key goes to the end, a known one keeps its place. -/
def put (k : κ) (v : β) : Dictionary κ β → Dictionary κ β
  | [] => [(k, v)]
  | (l, w) :: d => if k == l then (l, v) :: d else (l, w) :: put k v d

def ofPairs (pairs : List (κ × β)) : Dictionary κ β :=
  pairs.foldl (fun d (k, v) => put k v d) []

def keys (d : Dictionary κ β) : List κ :=
  d.map Prod.fst

def values (d : Dictionary κ β) : List β :=
  d.map Prod.snd

@[simp] theorem get?_nil (k : κ) : get? ([] : Dictionary κ β) k = none := rfl

theorem get?_cons (k l : κ) (v : β) (d : Dictionary κ β) :
    get? ((l, v) :: d) k = if k == l then some v else get? d k := by
  simp only [get?, List.lookup_cons]
  cases k == l <;> rfl

theorem get?_put_self [LawfulBEq κ] (k : κ) (v : β) (d : Dictionary κ β) :
    get? (put k v d) k = some v := by
  induction d with
  | nil => simp [put, get?_cons]
  | cons p d ih =>
    obtain ⟨l, w⟩ := p
    by_cases h : k = l
    · simp [put, h, get?_cons]
    · simp [put, h, get?_cons, ih]

theorem get?_put_of_ne [LawfulBEq κ] {k l : κ} (ne : l ≠ k) (v : β) (d : Dictionary κ β) :
    get? (put k v d) l = get? d l := by
  induction d with
  | nil => simp [put, get?_cons, ne]
  | cons p d ih =>
    obtain ⟨m, w⟩ := p
    by_cases h : k = m
    · subst h
      simp [put, get?_cons, ne]
    · simp [put, h, get?_cons, ih]

end Dictionary
end Docmark
