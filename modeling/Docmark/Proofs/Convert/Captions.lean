import Docmark.Proofs.Convert.Checks
import Docmark.Proofs.Markdown.Brackets
import Docmark.Proofs.Markdown.PlainLine

/-!
What links, cards and images are called in their attributes, and whether it stays in its brackets.
A link or a card writes it as it is. An image puts a backslash before each closing bracket in it:
one that has a backslash already is not escaped any more.
-/

namespace Docmark

open Markdown

/-- A closing bracket gets a backslash, or loses the one that it has. -/
def exchanged (g : Glyph) : Glyph :=
  if g = .bare ']' then .escaped ']' else if g = .escaped ']' then .bare ']' else g

/-- What is read behind one more backslash before each closing bracket. -/
def slashed (g : Glyph) : List Glyph :=
  if g = .escaped ']' then [.escaped '\\', exchanged g] else [exchanged g]

/-- What a node is called in its attributes, where its target is found at `url`. -/
def Node.caption (n : Node) (url : Text) : Text :=
  match n.kind with
  | .media => (n.attr "alt").displayIfTruthy
  | _ => Link.firstTruthy [n.attr "title", n.attr "text"] url

/-- The text that is put in brackets. -/
def Node.label (n : Node) (url : Text) : Text :=
  match n.kind with
  | .media => Text.replaceChar ']' ['\\', ']'] (n.caption url)
  | _ => n.caption url

/-- The caption with the brackets that count in the label. -/
def Node.labelGlyphs (n : Node) (url : Text) : List Glyph :=
  match n.kind with
  | .media => (glyphs (n.caption url)).map exchanged
  | _ => glyphs (n.caption url)

/-- What stands in front of the brackets of an image. -/
def Node.sign (n : Node) : Text :=
  match n.kind with
  | .media => ['!']
  | _ => []

section slashed

variable {gs : List Glyph} {t : Text}

theorem slashed_of_ne {c : Char} (other : c ≠ ']') : slashed (.bare c) = [.bare c] := by
  simp [slashed, exchanged, other]

theorem legible_slashed (h : Legible gs) : Legible (gs.flatMap slashed) := by
  induction h with
  | nil => exact .nil
  | @escaped c gs mark rest ih =>
    rw [List.flatMap_cons]
    by_cases closing : c = ']'
    · subst closing
      exact .escaped (by decide) (.bare ih (by simp))
    · simpa [slashed, exchanged, closing] using Legible.escaped mark ih
  | @bare c gs rest lone ih =>
    rw [List.flatMap_cons]
    by_cases closing : c = ']'
    · subst closing
      exact .escaped (by decide) ih
    · rw [slashed_of_ne closing]
      apply Legible.bare ih
      intro slash g hg
      cases gs with
      | nil => simp at hg
      | cons d gs =>
        obtain ⟨e, rfl, plain⟩ := lone slash d rfl
        have other : e ≠ ']' := by
          rintro rfl
          exact absurd plain (by decide)
        rw [List.flatMap_cons, slashed_of_ne other] at hg
        exact ⟨e, (Option.some.inj hg).symm, plain⟩

theorem written_slashed (g : Glyph) :
    (slashed g).flatMap Glyph.written = Text.replaceChar ']' ['\\', ']'] g.written := by
  cases g with
  | bare c => by_cases closing : c = ']' <;>
      simp [slashed, exchanged, Text.replaceChar, Glyph.written, closing]
  | escaped c => by_cases closing : c = ']' <;>
      simp [slashed, exchanged, Text.replaceChar, Glyph.written, closing]

theorem glyphs_replaceChar (t : Text) :
    glyphs (Text.replaceChar ']' ['\\', ']'] t) = (glyphs t).flatMap slashed := by
  rw [← (legible_slashed (legible_glyphs t)).glyphs_written, List.flatMap_assoc]
  simp only [written_slashed, Text.replaceChar]
  rw [← List.flatMap_assoc, flatMap_written_glyphs]

theorem filter_slashed (gs : List Glyph) :
    (gs.flatMap slashed).filter (Glyph.isBracket .square) =
      (gs.map exchanged).filter (Glyph.isBracket .square) := by
  have slash : Glyph.isBracket .square (.escaped '\\') = false := by decide
  induction gs with
  | nil => rfl
  | cons g gs ih =>
    rw [List.flatMap_cons, List.filter_append, ih, List.map_cons, ← List.singleton_append,
      List.filter_append, slashed]
    split
    · rw [List.filter_cons_of_neg (by simp [slash])]
    · rfl

/-- The brackets are in pairs where escaped ones and those without backslash change places. -/
theorem paired_replaceChar (t : Text) :
    Paired .square (glyphs (Text.replaceChar ']' ['\\', ']'] t)) ↔
      Paired .square ((glyphs t).map exchanged) := by
  rw [glyphs_replaceChar]
  exact paired_of_filter_eq (filter_slashed _)

theorem endsEscaping_replaceChar (t : Text) :
    EndsEscaping (Text.replaceChar ']' ['\\', ']'] t) ↔ EndsEscaping t := by
  rw [← getLast?_glyphs, ← getLast?_glyphs, glyphs_replaceChar]
  rcases List.eq_nil_or_concat (glyphs t) with none | ⟨gs, g, some⟩
  · simp [none]
  · have last : (slashed g).getLast? = Option.some (exchanged g) := by
      rw [slashed]
      split <;> rfl
    have same : exchanged g = .bare '\\' ↔ g = .bare '\\' := by
      rw [exchanged]
      split
      · rename_i closing
        simp [closing]
      · split
        · rename_i closing
          simp [closing]
        · rfl
    simp [some, last, same]

/-- Without backslashes each closing bracket is escaped, and none may open. -/
theorem paired_exchanged_iff (free : '\\' ∉ t) :
    Paired .square ((glyphs t).map exchanged) ↔ '[' ∉ t := by
  have open_mem : Glyph.bare '[' ∈ (t.map Glyph.bare).map exchanged ↔ '[' ∈ t := by
    simp [exchanged, ite_eq_iff]
  have unclosed : Glyph.bare ']' ∉ (t.map Glyph.bare).map exchanged := by
    simp [exchanged, ite_eq_iff]
  rw [glyphs_of_not_mem free, paired_iff_not_mem unclosed]
  exact not_congr open_mem

end slashed

section captioned

variable {ctx : Context} {n : Node} {request : Link.Request} {target : Link.Resolved}

theorem resolve_text (h : Link.resolve request = .ok target) :
    target.text = Link.firstTruthy [(request.attributes.get? "title").getD .null,
      (request.attributes.get? "text").getD .null] target.url := by
  have finish (relative : Bool) (found : Except Link.UrlError Text)
      (h : (do
        let url ← found
        pure (⟨Link.firstTruthy [(request.attributes.get? "title").getD .null,
            (request.attributes.get? "text").getD .null] url, url,
          if relative then [("source_href", .str (String.ofList (Text.strip request.href)))]
          else []⟩ : Link.Resolved)) = .ok target) :
      target.text = Link.firstTruthy [(request.attributes.get? "title").getD .null,
        (request.attributes.get? "text").getD .null] target.url := by
    obtain ⟨url, -, made⟩ := bind_eq_ok.mp h
    cases made
    rfl
  simp only [Link.resolve] at h
  split at h
  · exact finish false (pure (Text.strip request.href)) h
  · obtain ⟨relative, -, h⟩ := bind_eq_ok.mp h
    cases relative with
    | false => exact finish false (pure (Text.strip request.href)) h
    | true => exact finish true (Link.joinOnto _ _) h

/-- The label stays in its brackets where those that count are in pairs. -/
theorem contained_label_iff (n : Node) (url : Text) :
    Contained .square (n.label url) ↔
      Paired .square (n.labelGlyphs url) ∧ ¬ EndsEscaping (n.caption url) := by
  rw [contained_iff]
  unfold Node.label Node.labelGlyphs
  split
  · rw [paired_replaceChar, endsEscaping_replaceChar]
  · rfl

/-- Links and cards take their text from the same attributes. -/
theorem label_of_resolve (named : n.kind ≠ .media) (same : request.attributes = n.attributes)
    (h : Link.resolve request = .ok target) :
    n.sign = [] ∧ n.label target.url = target.text := by
  have text := resolve_text h
  rw [same] at text
  unfold Node.sign Node.label Node.caption
  split
  · contradiction
  · split
    · contradiction
    · exact ⟨rfl, text.symm⟩

/-- What comes to stand behind the brackets. -/
def inRound (url : Text) : Text :=
  '(' :: Link.escapeDestination url ++ [')']

/-- A conversion that asks for the target of the node and writes its label. -/
def Labels (ctx : Context) (n : Node) (request : Link.Request) (x : Conversion Fragment) : Prop :=
  ∃ made : Link.Resolved → Fragment,
    x = (do return made (← resolveLink ctx request.href request.attributes)) ∧
    ∀ target, Link.resolve request = .ok target →
      (made target).markdown = n.sign ++ '[' :: n.label target.url ++ ']' :: inRound target.url

theorem labels_link (kind : n.kind = .link) (asked : n.request? ctx.options.baseUrl = some request)
    {children : List Fragment} (unnamed : Text.isBlank (Fragment.joined children) = true)
    (level : Int) : Labels ctx n request (Convert.link ctx n children level) := by
  simp only [Node.request?, Node.target?, kind, Option.map_some, Option.some.injEq] at asked
  subst asked
  refine ⟨fun target => ⟨Link.format target.text target.url, .link target.metadata⟩, ?_, ?_⟩
  · simp only [Convert.link, unnamed, ↓reduceIte]
  · intro target found
    obtain ⟨sign, label⟩ := label_of_resolve (n := n) (by simp [kind]) rfl found
    simp [sign, label, Link.format, inRound]

theorem labels_card (kind : n.kind = .inlineCard ∨ n.kind = .blockCard)
    (asked : n.request? ctx.options.baseUrl = some request) (children : List Fragment)
    (level : Int) : Labels ctx n request (Convert.card ctx n children level) := by
  have named : n.kind ≠ .media := by rcases kind with kind | kind <;> simp [kind]
  have target : n.target? = if Text.isBlank (Convert.cardUrl n) then none
      else some (Convert.cardUrl n, n.attributes) := by
    rcases kind with kind | kind <;> rw [Node.target?, kind]
  rw [Node.request?, target] at asked
  split at asked
  · cases asked
  · rename_i filled
    cases asked
    refine ⟨fun target => ⟨Link.format target.text target.url, .link target.metadata⟩, ?_, ?_⟩
    · simp only [Convert.card, filled, Bool.false_eq_true, ↓reduceIte]
    · intro target found
      obtain ⟨sign, label⟩ := label_of_resolve named rfl found
      simp [sign, label, Link.format, inRound]

theorem labels_media (kind : n.kind = .media)
    (asked : n.request? ctx.options.baseUrl = some request) (children : List Fragment)
    (level : Int) : Labels ctx n request (Convert.media ctx n children level) := by
  simp only [Node.request?, Node.target?, kind] at asked
  split at asked
  · rename_i s url
    split at asked
    · cases asked
    · rename_i filled
      cases asked
      let written (target : Link.Resolved) : Text :=
        n.sign ++ '[' :: n.label target.url ++ ']' :: inRound target.url
      refine ⟨fun target => ⟨written target, .plain⟩, ?_, fun _ _ => rfl⟩
      simp [Convert.media, url, filled, written, Node.sign, Node.label, Node.caption, kind, inRound]
  · cases asked

theorem registered_labels (other : n.kind ≠ .text)
    (asked : n.request? ctx.options.baseUrl = some request) {children : List Fragment}
    (unnamed : n.kind = .link → Text.isBlank (Fragment.joined children) = true) (level : Int) :
    ∃ convert, (Registry.standard.settle.get n.kind).1 = some convert ∧
      Labels ctx n request (convert ctx n children level) := by
  cases kind : n.kind with
  | link => exact ⟨Convert.link, rfl, labels_link kind asked (unnamed kind) level⟩
  | inlineCard => exact ⟨Convert.card, rfl, labels_card (Or.inl kind) asked children level⟩
  | blockCard => exact ⟨Convert.card, rfl, labels_card (Or.inr kind) asked children level⟩
  | media => exact ⟨Convert.media, rfl, labels_media kind asked children level⟩
  | text => exact absurd kind other
  | _ => simp [Node.request?, Node.target?, kind] at asked

theorem request_base (asked : n.request? ctx.options.baseUrl = some request) :
    request.base = ctx.options.baseUrl := by
  obtain ⟨⟨href, attributes⟩, -, rfl⟩ := Option.map_eq_some_iff.mp asked
  rfl

theorem resolveLink_run (default : ctx.resolver = Link.resolve)
    (base : request.base = ctx.options.baseUrl) (s : Session) :
    resolveLink ctx request.href request.attributes s =
      Conversion.lift .url (Link.resolve request)
        { s with requests := s.requests ++ [request] } := by
  cases request
  cases base
  simp only [resolveLink, default]
  rfl

/--
A link without text in it, a card or an image is written wherever its target can be found. The label
is closed by the bracket behind it just where its own brackets are in pairs and no backslash at its
end escapes that one. In an image the closing brackets that were escaped count, and the others do
not; so without backslashes its description may have no opening bracket.
-/
theorem walk_label_reads (default : ctx.resolver = Link.resolve) (other : n.kind ≠ .text)
    (asked : n.request? ctx.options.baseUrl = some request) {below : Nat} {level : Int}
    {s s₁ : Session} {children : List Fragment}
    (converted : n.children.mapM
      (walkLevels Registry.standard.settle ctx below (n.kind.childLevel level)) s =
        .ok (children, s₁))
    (unnamed : n.kind = .link → Text.isBlank (Fragment.joined children) = true) :
    (∀ cause, Link.resolve request = .error cause →
      walkLevels Registry.standard.settle ctx (below + 1) level n s = .error (.url cause)) ∧
    ∀ target, Link.resolve request = .ok target →
      ∃ f s₂ behind, walkLevels Registry.standard.settle ctx (below + 1) level n s = .ok (f, s₂) ∧
        f.markdown = n.sign ++ '[' :: behind ∧
        behind = n.label target.url ++ ']' :: inRound target.url ∧
        (readBracketed .square behind = some (n.label target.url, inRound target.url) ↔
          Contained .square (n.label target.url)) ∧
        (Contained .square (n.label target.url) ↔
          Paired .square (n.labelGlyphs target.url) ∧ ¬ EndsEscaping (n.caption target.url)) ∧
        (n.kind = .media → '\\' ∉ n.caption target.url →
          (Contained .square (n.label target.url) ↔ '[' ∉ n.caption target.url)) := by
  obtain ⟨convert, registered, made, labels, written⟩ :=
    registered_labels other asked unnamed level
  have run := walkLevels_run registered converted
  have resolved := resolveLink_run default (request_base asked) s₁
  rw [labels] at run
  constructor
  · intro cause failed
    rw [failed] at resolved
    rw [run, Conversion.bind_error]
    exact Or.inl resolved
  · intro target found
    rw [found] at resolved
    refine ⟨made target, _, _, run.trans (Conversion.bind_ok.mpr ⟨target, _, resolved, rfl⟩),
      (written target found).trans ?_, rfl, readBracketed_iff, contained_label_iff n target.url, ?_⟩
    · simp
    · intro kind free
      rw [contained_label_iff, Node.labelGlyphs, kind, paired_exchanged_iff free]
      exact and_iff_left (not_endsEscaping_of_not_mem free)

end captioned

/-- A node at an address, with another attribute. -/
def addressed (tag name caption : String) : Node :=
  ⟨tag, [("url", .str "https://x.org"), (name, .str caption)], [], none, []⟩

/-- The description of an image, with a closing bracket and an opening one that is escaped. -/
def image : Node := addressed "media" "alt" "a]b\\["

theorem image_label_reads :
    image.kind ≠ .text ∧ ∃ f s behind,
      walkLevels Registry.standard.settle {} 1 0 image {} = .ok (f, s) ∧
        f.markdown = ['!', '['] ++ behind ∧
        readBracketed .square behind =
          some ("a\\]b\\[".toList, "(https://x.org)".toList) := by
  have other : image.kind ≠ .text := by decide
  have asked : image.request? ({} : Context).options.baseUrl =
      some ⟨"https://x.org".toList, image.attributes, .str ""⟩ := rfl
  have converted : image.children.mapM (walkLevels Registry.standard.settle {} 0 0) {} =
      .ok ([], {}) := rfl
  obtain ⟨-, reads⟩ := walk_label_reads rfl other asked converted (by intro link; cases link)
  obtain ⟨f, s, behind, run, written, -, closes, contained, -⟩ :=
    reads ⟨"https://x.org".toList, "https://x.org".toList, []⟩ rfl
  exact ⟨other, f, s, behind, run, written, closes.mpr (contained.mpr (by decide))⟩

/-- The title of a card is written without backslash, and its bracket closes the label. -/
theorem card_label_ends_early :
    ∃ f s, walkLevels Registry.standard.settle {} 1 0 (addressed "inlineCard" "title" "a]b") {} =
        .ok (f, s) ∧
      f.markdown = "[a]b](https://x.org)".toList ∧
      ¬ Contained .square ((addressed "inlineCard" "title" "a]b").label "https://x.org".toList) ∧
      readBracketed .square (f.markdown.drop 1) =
        some (['a'], "b](https://x.org)".toList) := by
  refine ⟨⟨"[a]b](https://x.org)".toList, .link []⟩, _, rfl, rfl, ?_, by decide⟩
  intro contained
  exact absurd contained.paired (by decide)

end Docmark
