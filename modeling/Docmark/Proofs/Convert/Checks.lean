import Docmark.Proofs.Ceiling
import Docmark.Proofs.Convert.Document
import Docmark.Proofs.Convert.Items
import Docmark.Proofs.Convert.Visits
import Docmark.Proofs.Document.Height

/-!
What a conversion can fail at. Main statement: a walk that reaches the deepest level fails just where
a check of one of its nodes does, and with the cause of the first of these in the order in which the
nodes are converted. Only the numbers of lists and the links of nodes are checked.
-/

namespace Docmark

/-- Whether there is a result, or why there is none. -/
def verdict {ε α : Type} (x : Except ε α) : Except ε Unit :=
  x.map fun _ => ()

theorem verdict_eq_ok_iff {ε α : Type} {x : Except ε α} :
    verdict x = .ok () ↔ ∃ a, x = .ok a := by
  cases x <;> simp [verdict, Except.map]

theorem verdict_eq_error_iff {ε α : Type} {x : Except ε α} {e : ε} :
    verdict x = .error e ↔ x = .error e := by
  cases x <;> simp [verdict, Except.map]

/-- What follows and always succeeds can be left out. -/
theorem verdict_bind {ε α β : Type} {x : Except ε α} {f : α → Except ε β}
    (total : ∀ a, ∃ b, f a = .ok b) : verdict (x >>= f) = verdict x := by
  cases x with
  | error e => rfl
  | ok a =>
    obtain ⟨b, hb⟩ := total a
    exact congrArg verdict hb

/-- Where a node that is a link points to, and the attributes that the link comes with. -/
def Node.target? (n : Node) : Option (Text × Attributes) :=
  match n.kind with
  | .text => do
    let s ← n.text
    if s.isEmpty then none
    else
      let mark ← n.findMark .link
      let href ← (mark.attributes.get? "href").bind Json.string?
      return (href.toList, mark.attributes)
  | .link => some (((n.attr "href").string?.getD "").toList, n.attributes)
  | .inlineCard | .blockCard =>
    if Text.isBlank (Convert.cardUrl n) then none else some (Convert.cardUrl n, n.attributes)
  | .media =>
    match n.attr "url" with
    | .str s => if Text.isBlank s.toList then none else some (s.toList, n.attributes)
    | _ => none
  | _ => none

/-- The link that is asked for in the conversion of a node. -/
def Node.request? (base : Json) (n : Node) : Option Link.Request :=
  n.target?.map fun (href, attributes) => ⟨href, attributes, base⟩

/-- The numbers of a list: the first is read, and all are written. -/
def Node.checkNumbers (n : Node) : Except Text.NumberError Unit := do
  let start ← Convert.orderedStart n
  forM (List.range' start n.children.length) fun k => verdict (Text.writeNat k)

/-- What may fail in the conversion of a node. -/
def Node.check (ctx : Context) (n : Node) : Except Failure Unit :=
  match n.kind with
  | .orderedList => orFail .number n.checkNumbers
  | _ =>
    match n.request? ctx.options.baseUrl with
    | none => .ok ()
    | some request => orFail .url (verdict (ctx.resolver request))

namespace Conversion

/-- In every session a run ends alike: with a result, or with the same cause. -/
def Judged {α : Type} (x : Conversion α) (v : Except Failure Unit) : Prop :=
  ∀ s, verdict (x s) = v

variable {α β : Type}

theorem Judged.pure (a : α) : Judged (pure a) (.ok ()) := fun _ => rfl

theorem Judged.lift {ε : Type} (wrap : ε → Failure) (r : Except ε α) :
    Judged (Conversion.lift wrap r) (orFail wrap (verdict r)) := by
  intro s
  cases r <;> rfl

theorem Judged.bind {x : Conversion α} {f : α → Conversion β} {v w : Except Failure Unit}
    (hx : Judged x v) (hf : v = .ok () → ∀ s a s', x s = .ok (a, s') → verdict (f a s') = w) :
    Judged (x >>= f) (v >>= fun _ => w) := by
  intro s
  have here := hx s
  simp only [Bind.bind, StateT.bind, Except.bind]
  cases hs : x s with
  | error e =>
    rw [hs] at here
    rw [← here]
    rfl
  | ok r =>
    obtain ⟨a, s₁⟩ := r
    rw [hs] at here
    rw [← here]
    exact hf here.symm s a s₁ hs

/-- What follows and always succeeds can be left out. -/
theorem Judged.then {x : Conversion α} {f : α → Conversion β} {v : Except Failure Unit}
    (hx : Judged x v) (hf : ∀ a, Judged (f a) (.ok ())) : Judged (x >>= f) v := by
  have h := hx.bind (f := f) fun _ _ a s' _ => hf a s'
  cases v <;> exact h

theorem Judged.mapM {f : α → Conversion β} {g : α → Except Failure Unit} {as : List α}
    (h : ∀ a ∈ as, Judged (f a) (g a)) : Judged (as.mapM f) (forM as g) := by
  induction as with
  | nil => exact fun _ => rfl
  | cons a as ih =>
    rw [List.mapM_cons, List.forM_cons]
    refine (h a (by simp)).bind fun _ s b s' _ => ?_
    exact (ih fun c hc => h c (by simp [hc])).then (fun _ => .pure _) s'

theorem judged_get : Judged get (.ok ()) := fun _ => rfl

theorem judged_set (t : Session) : Judged (set t) (.ok ()) := fun _ => rfl

theorem judged_modify (f : Session → Session) : Judged (modify f) (.ok ()) := fun _ => rfl

end Conversion

open Conversion

theorem judged_resolveLink (ctx : Context) (href : Text) (attributes : Attributes) :
    Judged (resolveLink ctx href attributes)
      (orFail .url (verdict (ctx.resolver ⟨href, attributes, ctx.options.baseUrl⟩))) :=
  (judged_modify _).bind fun _ _ _ s' _ => Judged.lift _ _ s'

/-- A conversion in which a link is asked for. -/
theorem judged_linked (ctx : Context) (href : Text) (attributes : Attributes)
    (f : Link.Resolved → Fragment) :
    Judged (do return f (← resolveLink ctx href attributes))
      (orFail .url (verdict (ctx.resolver ⟨href, attributes, ctx.options.baseUrl⟩))) :=
  (judged_resolveLink ctx href attributes).then fun _ => .pure _

theorem Node.check_of_none {n : Node} {ctx : Context} (kind : n.kind ≠ .orderedList)
    (none : n.target? = none) : n.check ctx = .ok () := by
  rw [Node.check, Node.request?, none]
  split
  · exact absurd ‹_› kind
  · rfl

theorem Node.check_of_some {n : Node} {ctx : Context} {href : Text} {attributes : Attributes}
    (kind : n.kind ≠ .orderedList) (asked : n.target? = some (href, attributes)) :
    n.check ctx =
      orFail .url (verdict (ctx.resolver ⟨href, attributes, ctx.options.baseUrl⟩)) := by
  rw [Node.check, Node.request?, asked]
  split
  · exact absurd ‹_› kind
  · rfl

/-- Only numbers and links stop a conversion. -/
theorem Node.check_error {n : Node} {ctx : Context} {e : Failure} (h : n.check ctx = .error e) :
    (∃ cause, e = .number cause) ∨ ∃ cause, e = .url cause := by
  have cause {ε : Type} {wrap : ε → Failure} {x : Except ε Unit} (h : orFail wrap x = .error e) :
      ∃ cause, e = wrap cause := by
    cases x with
    | ok a => cases h
    | error cause => exact ⟨cause, (Except.error.inj h).symm⟩
  unfold Node.check at h
  split at h
  · exact Or.inl (cause h)
  · split at h
    · cases h
    · exact Or.inr (cause h)

namespace Convert

variable {ctx : Context} {n : Node} {children : List Fragment} {level : Int}

theorem judged_text (kind : n.kind = .text) : Judged (text ctx n children level) (n.check ctx) := by
  have other : n.kind ≠ .orderedList := by simp [kind]
  have target : n.target? = (do
      let s ← n.text
      if s.isEmpty then none
      else
        let mark ← n.findMark .link
        let href ← (mark.attributes.get? "href").bind Json.string?
        return (href.toList, mark.attributes)) := by
    rw [Node.target?, kind]
  unfold text
  split
  · rename_i none
    rw [n.check_of_none other (by simp [target, none])]
    exact .pure _
  · rename_i s some
    split
    · rename_i empty
      have none : s = "" := by simpa using empty
      rw [n.check_of_none other (by simp [target, some, none])]
      exact .pure _
    · rename_i filled
      split
      · rename_i unmarked
        rw [n.check_of_none other (by simp [target, some, unmarked])]
        exact .pure _
      · rename_i mark marked
        split
        · rename_i unlinked
          rw [n.check_of_none other (by simp [target, some, marked, unlinked])]
          exact .pure _
        · rename_i href linked
          have asked : n.target? = Option.some (href.toList, mark.attributes) := by
            rw [target, some]
            simp only [Option.bind_eq_bind, Option.bind_some, filled, Bool.false_eq_true,
              ↓reduceIte, marked, linked, Option.pure_def]
          rw [n.check_of_some other asked]
          exact judged_linked ctx _ _ _

theorem judged_link (kind : n.kind = .link) : Judged (link ctx n children level) (n.check ctx) := by
  rw [n.check_of_some (by simp [kind]) (by rw [Node.target?, kind])]
  exact judged_linked ctx _ _ _

/-- A conversion in which a link is asked for unless its address is blank. -/
theorem judged_unless_blank (other : n.kind ≠ .orderedList) {url : Text}
    (target : n.target? = if Text.isBlank url then none else some (url, n.attributes))
    (unlinked : Fragment) (f : Link.Resolved → Fragment) :
    Judged (if Text.isBlank url then pure unlinked
      else do return f (← resolveLink ctx url n.attributes)) (n.check ctx) := by
  split
  · rename_i blank
    rw [n.check_of_none other (by rw [target, if_pos blank])]
    exact .pure _
  · rename_i shown
    rw [n.check_of_some other (by rw [target, if_neg shown])]
    exact judged_linked ctx _ _ _

theorem judged_card (kind : n.kind = .inlineCard ∨ n.kind = .blockCard) :
    Judged (card ctx n children level) (n.check ctx) := by
  have other : n.kind ≠ .orderedList := by rcases kind with kind | kind <;> simp [kind]
  have target : n.target? =
      if Text.isBlank (cardUrl n) then none else some (cardUrl n, n.attributes) := by
    rcases kind with kind | kind <;> rw [Node.target?, kind]
  exact judged_unless_blank other target _ _

theorem judged_media (kind : n.kind = .media) :
    Judged (media ctx n children level) (n.check ctx) := by
  have other : n.kind ≠ .orderedList := by simp [kind]
  unfold media
  split
  · rename_i s url
    have target : n.target? =
        if Text.isBlank s.toList then none else some (s.toList, n.attributes) := by
      rw [Node.target?, kind, url]
    exact judged_unless_blank other target _ _
  · rename_i noText
    have none : n.target? = none := by
      rw [Node.target?, kind]
      dsimp only
      split
      · rename_i s url
        exact absurd url (noText s)
      · rfl
    rw [n.check_of_none other none]
    exact .pure _

theorem judged_footnote : Judged (footnote ctx n children level) (.ok ()) := by
  unfold footnote
  split
  · exact .pure _
  · refine judged_get.then fun s => ?_
    split
    · exact (judged_set _).then fun _ => .pure _
    · exact (judged_set _).then fun _ => .pure _

theorem judged_annotation : Judged ( annotation ctx n children level) (.ok ()) := by
  unfold annotation
  split
  · exact .pure _
  · exact .pure _
  · exact judged_get.then fun s => (judged_modify _).then fun _ => .pure _

/-- The items of a list can be written just where their numbers can. -/
theorem verdict_numberedItems (level : Int) (start : Nat) (fs : List Fragment) :
    verdict (numberedItems level start fs) =
      forM (List.range' start fs.length) fun k => verdict (Text.writeNat k) := by
  induction fs generalizing start with
  | nil => rfl
  | cons f fs ih =>
    rw [List.length_cons, List.range'_succ, List.forM_cons, ← ih, numberedItems, orderedMarker]
    cases Text.writeNat start with
    | error e => rfl
    | ok marker => cases numberedItems level (start + 1) fs <;> rfl

theorem judged_orderedList (kind : n.kind = .orderedList)
    (places : children.length = n.children.length) :
    Judged (orderedList ctx n children level) (n.check ctx) := by
  rw [Node.check, kind]
  dsimp only
  rw [Node.checkNumbers, orderedList]
  cases orderedStart n with
  | error e => exact fun _ => rfl
  | ok start =>
    have items := verdict_numberedItems level start children
    rw [places] at items
    have lifted := Judged.lift .number (numberedItems level start children)
    rw [items] at lifted
    have written := lifted.then (f := fun items : List Text =>
      (pure ⟨Text.unlines items, .orderedList items.length start⟩ : Conversion Fragment))
      fun _ => .pure _
    exact written

theorem exists_interruptsParagraph {c : Node}
    (start : c.kind = .orderedList → ∃ start, orderedStart c = .ok start) :
    ∃ b, interruptsParagraph c = .ok b := by
  unfold interruptsParagraph
  split
  · exact ⟨true, rfl⟩
  · exact ⟨true, rfl⟩
  · rename_i kind
    obtain ⟨k, hk⟩ := start kind
    exact ⟨k == 1, by rw [hk]; rfl⟩
  · exact ⟨false, rfl⟩

theorem ItemText.exists_add (item : ItemText) {c : Node} (block : Text)
    (start : c.kind = .orderedList → ∃ start, orderedStart c = .ok start) :
    ∃ next, item.add c block = .ok next := by
  have gap : ∃ gap, item.gap c = .ok gap := by
    obtain ⟨b, hb⟩ := exists_interruptsParagraph start
    rw [gap, hb]
    split <;> exact ⟨_, rfl⟩
  exact (exists_bind_eq_ok_iff fun _ => ⟨_, rfl⟩).mpr gap

theorem ItemText.exists_addAll (item : ItemText) {bs : List (Node × Text)}
    (starts : ∀ b ∈ bs, b.1.kind = .orderedList → ∃ start, orderedStart b.1 = .ok start) :
    ∃ last, item.addAll bs = .ok last := by
  induction bs generalizing item with
  | nil => exact ⟨item, rfl⟩
  | cons b bs ih =>
    obtain ⟨next, hn⟩ := item.exists_add b.2 (starts b (by simp))
    obtain ⟨last, hl⟩ := ih next fun c hc => starts c (by simp [hc])
    exact ⟨last, addAll_cons_ok.mpr ⟨next, hn, hl⟩⟩

/-- An item reads the starts of lists in it only after they have been converted. -/
theorem judged_listItem
    (starts : ∀ c ∈ n.children, c.kind = .orderedList → ∃ start, orderedStart c = .ok start) :
    Judged (listItem ctx n children level) (.ok ()) := by
  let bs := (Markdown.separateLists (children.map Fragment.block)).filterMap
    fun p => n.children[p.1]?.map (·, p.2)
  have inside : ∀ b ∈ bs, b.1 ∈ n.children := by
    intro b hb
    obtain ⟨⟨i, block⟩, -, found⟩ := List.mem_filterMap.mp hb
    obtain ⟨c, hc, rfl⟩ := Option.map_eq_some_iff.mp found
    exact List.mem_of_getElem? hc
  obtain ⟨item, hi⟩ := ItemText.exists_addAll {} fun b hb => starts b.1 (inside b hb)
  have run : listItem ctx n children level = (do
      let item ← Conversion.lift .number (ItemText.addAll {} bs)
      return ⟨item.text, .listItem item.nested⟩) := rfl
  rw [run, hi]
  exact fun _ => rfl

/-- A built-in converter fails just where a check of its node does, and with the same cause. -/
theorem judged_builtin {convert : Converter}
    (registered : Registry.builtinConverters.get? n.kind = some convert)
    (places : children.length = n.children.length)
    (starts : n.kind = .listItem →
      ∀ c ∈ n.children, c.kind = .orderedList → ∃ start, orderedStart c = .ok start) :
    Judged (convert ctx n children level) (n.check ctx) := by
  have free (other : n.kind ≠ .orderedList) (none : n.target? = none)
      (total : Judged (convert ctx n children level) (.ok ())) :
      Judged (convert ctx n children level) (n.check ctx) := by
    rwa [n.check_of_none other none]
  generalize kind : n.kind = k at registered
  cases k with
  | text =>
    cases registered
    exact judged_text kind
  | link =>
    cases registered
    exact judged_link kind
  | inlineCard =>
    cases registered
    exact judged_card (Or.inl kind)
  | blockCard =>
    cases registered
    exact judged_card (Or.inr kind)
  | media =>
    cases registered
    exact judged_media kind
  | orderedList =>
    cases registered
    exact judged_orderedList kind places
  | listItem =>
    cases registered
    exact free (by simp [kind]) (by rw [Node.target?, kind])
      (judged_listItem (starts kind))
  | annotation =>
    cases registered
    exact free (by simp [kind]) (by rw [Node.target?, kind]) judged_annotation
  | footnote =>
    cases registered
    exact free (by simp [kind]) (by rw [Node.target?, kind]) judged_footnote
  | unknown => cases registered
  | _ =>
    cases registered
    exact free (by simp [kind]) (by rw [Node.target?, kind]) (.pure _)

end Convert

theorem forM_eq_ok_iff {ε α : Type} {g : α → Except ε Unit} {as : List α} :
    forM as g = .ok () ↔ ∀ a ∈ as, g a = .ok () := by
  induction as with
  | nil => simp [pure, Except.pure]
  | cons a as ih =>
    rw [List.forM_cons, bind_eq_ok, List.forall_mem_cons, ← ih]
    exact ⟨fun ⟨_, here, rest⟩ => ⟨here, rest⟩, fun ⟨here, rest⟩ => ⟨(), here, rest⟩⟩

theorem forM_error {ε α : Type} {g : α → Except ε Unit} {as : List α} {e : ε}
    (h : forM as g = .error e) : ∃ a ∈ as, g a = .error e := by
  induction as with
  | nil => cases h
  | cons a as ih =>
    rw [List.forM_cons] at h
    rcases bind_eq_error.mp h with here | ⟨_, -, later⟩
    · exact ⟨a, by simp, here⟩
    · obtain ⟨b, hb, failed⟩ := ih later
      exact ⟨b, by simp [hb], failed⟩

theorem forM_flatMap {ε α β : Type} {g : β → Except ε Unit} (f : α → List β) (as : List α) :
    forM (as.flatMap f) g = forM as fun a => forM (f a) g := by
  induction as with
  | nil => rfl
  | cons a as ih => rw [List.flatMap_cons, List.forM_append, List.forM_cons, ih]

theorem Node.mem_converted (n : Node) : n ∈ n.converted := by
  rw [Node.converted_eq]
  exact List.mem_append_right _ (List.mem_singleton_self n)

/-- A list whose check is passed has a start. -/
theorem Node.exists_start {n : Node} {ctx : Context} (kind : n.kind = .orderedList)
    (passed : n.check ctx = .ok ()) : ∃ start, Convert.orderedStart n = .ok start := by
  rw [Node.check, kind] at passed
  obtain ⟨start, hs, -⟩ := bind_eq_ok.mp (orFail_ok.mp passed)
  exact ⟨start, hs⟩

/-- The text of a node without a converter can be read with the levels that are left. -/
theorem exists_extractText {ctx : Context} {below : Nat} {n : Node}
    (within : below + 1 ≤ ctx.ceiling.levels) (low : n.height < below + 1) :
    ∃ t, n.extractText [] (ctx.ceiling.below (ctx.ceiling.levels - (below + 1))) = .ok t := by
  have inside : ctx.ceiling.levels - (below + 1) < ctx.ceiling.levels := by omega
  have left : ctx.ceiling.levels - (ctx.ceiling.levels - (below + 1)) ≤
      (ctx.ceiling.below (ctx.ceiling.levels - (below + 1))).levels :=
    ctx.options.maxNestingDepth.le_levels_below inside
  exact Node.exists_extractLevels_iff.mpr (by omega)

theorem judged_walkLevels {ctx : Context} {levels : Nat} (within : levels ≤ ctx.ceiling.levels)
    {n : Node} (low : n.height < levels) (level : Int) :
    Judged (walkLevels Registry.standard.settle ctx levels level n)
      (forM n.converted (Node.check ctx)) := by
  induction levels generalizing n level with
  | zero => exact absurd low (Nat.not_lt_zero _)
  | succ below ih =>
    have single : forM [n] (Node.check ctx) = n.check ctx := by simp
    rw [Node.converted_eq]
    cases hc : Registry.builtinConverters.get? n.kind with
    | none =>
      have unknown := get?_builtinConverters_eq_none_iff.mp hc
      obtain ⟨t, ht⟩ := exists_extractText within low
      rw [if_pos unknown, List.nil_append, single, n.check_of_none (by simp [unknown])
        (by rw [Node.target?, unknown]), walkLevels, standard_get, hc]
      dsimp only
      rw [ht]
      exact fun _ => rfl
    | some convert =>
      have known : n.kind ≠ .unknown := fun hk => by
        rw [get?_builtinConverters_eq_none_iff.mpr hk] at hc
        cases hc
      have children : Judged (n.children.mapM (walkLevels Registry.standard.settle ctx below
          (n.kind.childLevel level))) (forM n.children fun c => forM c.converted (Node.check ctx)) :=
        .mapM fun c hc => ih (by omega) (by have := Node.height_lt_of_mem hc; omega) _
      rw [if_neg known, List.forM_append, forM_flatMap, walkLevels, single, standard_get, hc]
      refine children.bind fun passed s fs s' run => ?_
      have checked : ∀ c ∈ n.children, c.check ctx = .ok () := fun c hc =>
        forM_eq_ok_iff.mp (forM_eq_ok_iff.mp passed c hc) c c.mem_converted
      exact Convert.judged_builtin hc (forall₂_of_mapM_ok run).length_eq.symm
        (fun _ c hc kind => c.exists_start kind (checked c hc)) s'

end Docmark
