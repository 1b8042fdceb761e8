import Docmark.Convert.Block
import Docmark.Proofs.Admonition.BodyLines
import Docmark.Proofs.Text.Indent
import Docmark.Proofs.Text.Words

/-!
Admonitions that are written out are read back: the scanner finds the kind, the title and the body
that `render` was given, and stops where the text after the admonition begins.
-/

namespace Docmark

namespace AdmonitionKind

/-- Every kind goes by its own tag. -/
theorem named?_tag (k : AdmonitionKind) : named? k.tag = some k := by
  cases k <;> decide

theorem isAlpha_of_mem_tag {k : AdmonitionKind} {c : Char} (h : c ∈ k.tag) : c.isAlpha = true := by
  have letters : k.tag.all Char.isAlpha = true := by
    cases k <;> rfl
  exact List.all_eq_true.mp letters c h

theorem tag_ne_nil (k : AdmonitionKind) : k.tag ≠ [] := by
  cases k <;> decide

end AdmonitionKind

namespace Admonition

/-- The title as a header has it behind the name, with the space before it. -/
def titleSuffix : Option Text → Text
  | some t => if t.isEmpty then [] else ' ' :: '\x22' :: t ++ ['\x22']
  | none => []

def headerLine (name : Text) (title : Option Text) : Text :=
  marker ++ ' ' :: name ++ titleSuffix title

/-- The title that is shown where this one is given. -/
def shownTitle (k : AdmonitionKind) : Option Text → Text
  | some t => if t.isEmpty then k.title else t
  | none => k.title

/-- The body that is read: blank lines are empty, and none stands at either end. -/
def readBody (body : Text) : Text :=
  let kept := (((Text.lines body).map Text.clearBlank).dropWhile List.isEmpty).rdropWhile
    List.isEmpty
  if kept.isEmpty then [] else Text.unlines kept ++ ['\n']

/-- What may follow an admonition: its own lines, and no body where the first of them is shown. -/
structure Follows (rest : Text) : Prop where
  newline : ∀ c, rest.head? = some c → c = '\n'
  unindented : ∀ line, (Text.lines rest).find? (fun l => !Text.isBlank l) = some line →
    Text.startsWith (Text.spaces bodyIndent) line = false ∧ Text.startsWith ['\t'] line = false

theorem isNameChar_of_isAlpha {c : Char} (h : c.isAlpha = true) : isNameChar c = true := by
  have ascii : c.toNat < 128 := by
    have cases : (c.isUpper || c.isLower) = true := h
    rcases Bool.or_eq_true_iff.mp cases with upper | lower
    · have : c.toNat ≤ 90 := (of_decide_eq_true upper).2
      omega
    · have : c.toNat ≤ 122 := of_decide_eq_true (Bool.and_eq_true_iff.mp lower).2
      omega
  have word := Text.isAlphanumeric_of_isAlphanum ascii (by simp [Char.isAlphanum, h])
  simp [isNameChar, Text.isWordChar, word]

theorem titlePart?_titleSuffix (title : Option Text) :
    titlePart? (titleSuffix title) = some (title.getD []) := by
  cases title with
  | none => rfl
  | some t =>
    rw [titleSuffix]
    split
    · rename_i empty
      rw [List.isEmpty_iff.mp empty]
      rfl
    · have closing : Text.dropEndWhile Text.isPad (t ++ ['\x22']) = t ++ ['\x22'] := by
        refine Text.dropEndWhile_of_not_getLast? fun c hc => ?_
        obtain rfl : '\x22' = c := by simpa using hc
        decide
      have closed : Text.endsWith ['\x22'] (t ++ ['\x22']) = true := by
        rw [Text.endsWith, List.isSuffixOf_iff_suffix]
        exact List.suffix_append _ _
      have quoted : quotedTitle? ('\x22' :: t ++ ['\x22']) = some t := by
        rw [List.cons_append, quotedTitle?, closing, closed]
        simp
      have pads : (' ' :: '\x22' :: t ++ ['\x22']).all Text.isPad = false := by
        simp [Text.isPad]
      rw [titlePart?, pads]
      simpa [Text.isPad] using quoted

theorem newline_not_mem_headerLine (k : AdmonitionKind) {title : Option Text}
    (line : ∀ t, title = some t → '\n' ∉ t) : '\n' ∉ headerLine k.tag title := by
  have name : '\n' ∉ k.tag := fun h => by
    have := AdmonitionKind.isAlpha_of_mem_tag h
    revert this
    decide
  have rest : '\n' ∉ titleSuffix title := by
    cases title with
    | none => simp [titleSuffix]
    | some t =>
      rw [titleSuffix]
      split
      · simp
      · simpa using line t rfl
  simp [headerLine, marker, name, rest]

/-- A name ends where the title begins. -/
theorem span_name {name suffix : Text} (letters : ∀ c ∈ name, isNameChar c = true)
    (stop : ∀ c, suffix.head? = some c → isNameChar c = false) :
    (name ++ suffix).takeWhile isNameChar = name ∧
      (name ++ suffix).dropWhile isNameChar = suffix := by
  rw [List.takeWhile_append_of_pos letters, List.dropWhile_append_of_pos letters]
  cases suffix with
  | nil => simp
  | cons c r => simp [stop c rfl]

theorem Header.parse_headerLine (k : AdmonitionKind) {title : Option Text}
    (line : ∀ t, title = some t → '\n' ∉ t) (stripped : ∀ t, title = some t → Text.strip t = t) :
    Header.parse (headerLine k.tag title) = some ⟨k, shownTitle k title⟩ := by
  obtain ⟨c, r, hk⟩ := List.exists_cons_of_ne_nil k.tag_ne_nil
  have letter : c.isAlpha = true := AdmonitionKind.isAlpha_of_mem_tag (k := k) (by simp [hk])
  have unpadded : c ≠ ' ' ∧ c ≠ '\t' := by
    constructor <;> (rintro rfl; exact absurd letter (by decide))
  have whole : Text.dropEndWhile (· == '\n') (headerLine k.tag title) = headerLine k.tag title := by
    refine Text.dropEndWhile_of_not_getLast? fun d hd => ?_
    refine beq_eq_false_iff_ne.mpr fun he => newline_not_mem_headerLine k line ?_
    exact he ▸ List.mem_of_mem_getLast? hd
  have marked : afterMarker? (headerLine k.tag title) = some (k.tag ++ titleSuffix title) := by
    simp [afterMarker?, headerLine, marker, Text.after?, hk, Text.isPad, unpadded]
  have stop : ∀ d, (titleSuffix title).head? = some d → isNameChar d = false := by
    intro d hd
    have space : d = ' ' := by
      cases title with
      | none => cases hd
      | some t =>
        rw [titleSuffix] at hd
        split at hd
        · cases hd
        · exact (Option.some.inj hd).symm
    rw [space]
    decide
  have letters : ∀ d ∈ k.tag, isNameChar d = true :=
    fun d hd => isNameChar_of_isAlpha (AdmonitionKind.isAlpha_of_mem_tag hd)
  obtain ⟨name, rest⟩ := span_name letters stop
  have clean : (title.getD []).contains '\n' = false := by
    cases title with
    | none => rfl
    | some t => simpa using line t rfl
  have shown : (if (Text.strip (title.getD [])).isEmpty then k.title
      else Text.strip (title.getD [])) = shownTitle k title := by
    cases title with
    | none => rfl
    | some t => simp only [Option.getD_some, stripped t rfl, shownTitle]
  have first : ((k.tag ++ titleSuffix title).head?.any Char.isAlpha) = true := by
    simp [hk, letter]
  simp only [Header.parse, whole, marked, name, rest, titlePart?_titleSuffix, first, clean,
    AdmonitionKind.named?_tag, Option.bind_eq_bind, Option.bind_some, Bool.not_true,
    Bool.false_eq_true, ↓reduceIte, pure, shown]

/-- An admonition is its header line, and an indented body below an empty line if it has any. -/
theorem render_eq (name body : Text) (title : Option Text) :
    render name body title = headerLine name title ++ if body.isEmpty then []
      else '\n' :: '\n' :: Markdown.indentBlock body (Text.spaces bodyIndent) := by
  cases title with
  | none =>
    simp only [render, headerLine, titleSuffix]
    split <;> simp
  | some t =>
    simp only [render, headerLine, titleSuffix]
    split <;> simp

theorem scanHead_line {line : Text} (h : '\n' ∉ line) {header : Header}
    (parsed : Header.parse line = some header) (rest : Text) :
    scanHead (line ++ '\n' :: rest) = some (header,
      bodyText (trimBlankLines (takeBody (Text.lines rest)).1),
      line.length + 1 + (takeBody (Text.lines rest)).2) := by
  obtain ⟨head, below⟩ := Text.span_ne h rest
  rw [scanHead, head, below]
  simp [parsed]

theorem scanHead_lone {line : Text} (h : '\n' ∉ line) {header : Header}
    (parsed : Header.parse line = some header) :
    scanHead line = some (header, [], line.length) := by
  have before : ∀ c ∈ line, (c != '\n') = true := fun c hc => by
    simpa using fun he : c = '\n' => h (he ▸ hc)
  have all : line.takeWhile (· != '\n') = line := List.takeWhile_eq_self_iff.mpr before
  have none : line.dropWhile (· != '\n') = [] := List.dropWhile_eq_nil_iff.mpr before
  rw [scanHead, all, none]
  simp [parsed]

theorem dedent?_indentLine (line : Text) :
    dedent? (Text.indentLine bodyIndent line) = some (Text.clearBlank line) := by
  cases h : Text.isBlank line with
  | true =>
    rw [Text.indentLine_of_isBlank h, Text.clearBlank, if_pos h]
    rfl
  | false =>
    have shown : Text.isBlank (Text.spaces bodyIndent ++ line) = false := by
      rw [Text.isBlank_spaces_append, h]
    rw [Text.indentLine_of_shown h, Text.clearBlank, h]
    simp [dedent?, shown, Text.after?]

theorem lines_indentBlock (t : Text) :
    Text.lines (Markdown.indentBlock t (Text.spaces bodyIndent)) =
      (Text.lines t).map (Text.indentLine bodyIndent) :=
  Text.lines_mapLines (fun _ hl => Text.newline_not_mem_indentLine hl bodyIndent) t

/-- The indented body is dedented to its lines, of which the blank ones are empty. -/
theorem dedents_indent (ls : List Text) :
    Dedents (ls.map (Text.indentLine bodyIndent)) (ls.map Text.clearBlank) := by
  induction ls with
  | nil => exact .nil
  | cons l ls ih => exact .cons (dedent?_indentLine l) ih

/-- The body ends where what follows is shown. -/
theorem Follows.endsBody {rest : Text} (h : Follows rest) {line : Text}
    (first : ((Text.lines rest).dropWhile Text.isBlank).head? = some line) : EndsBody line := by
  have found : (Text.lines rest).find? (fun l => !Text.isBlank l) = some line := by
    rw [← first, ← List.find?_not_eq_head?_dropWhile]
  obtain ⟨unindented, untabbed⟩ := h.unindented line found
  have shown : Text.isBlank line = false := by simpa using List.find?_some found
  rw [Text.startsWith] at unindented untabbed
  simp [EndsBody, dedent?, shown, Text.after?, unindented, untabbed]

/-- What follows a text begins on a line of its own. -/
theorem Follows.lines_append {rest : Text} (h : Follows rest) (t : Text) :
    Text.lines (t ++ rest) = Text.lines t ++ (Text.lines rest).tail := by
  cases rest with
  | nil => simp [Text.lines]
  | cons c r =>
    obtain rfl := h.newline c rfl
    rw [Text.lines_append_newline]
    rfl

theorem Follows.dropBlank {rest : Text} (h : Follows rest) :
    (Text.lines rest).tail.dropWhile Text.isBlank = (Text.lines rest).dropWhile Text.isBlank := by
  cases rest with
  | nil => rfl
  | cons c r =>
    obtain rfl := h.newline c rfl
    rfl

/-- A body of dedented lines ends before the first line that is shown after it. -/
theorem takeBody_follows {rest : Text} (h : Follows rest) {as bs : List Text} (d : Dedents as bs) :
    trimBlankLines (takeBody (as ++ (Text.lines rest).tail)).1 = trimBlankLines bs ∧
      (takeBody (as ++ (Text.lines rest).tail)).2 +
          (Text.unlines ((Text.lines rest).dropWhile Text.isBlank)).length =
        (Text.unlines (as ++ (Text.lines rest).tail)).length := by
  have blanks : ∀ l ∈ (Text.lines rest).tail.takeWhile Text.isBlank, Text.isBlank l = true :=
    List.all_eq_true.mp List.all_takeWhile
  have whole := List.takeWhile_append_dropWhile (p := Text.isBlank) (l := (Text.lines rest).tail)
  rw [h.dropBlank] at whole
  obtain ⟨⟨last, taken, empty⟩, size⟩ :=
    takeBody_run (d.append (dedents_of_isBlank blanks)) fun l hl => h.endsBody hl
  rw [List.append_assoc, whole] at taken size
  refine ⟨?_, size⟩
  have trimmed : trimBlankLines (bs ++ ((Text.lines rest).tail.takeWhile Text.isBlank).map
      fun _ => []) = trimBlankLines bs := by
    refine trimBlankLines_append fun l hl => ?_
    obtain ⟨m, -, rfl⟩ := List.mem_map.mp hl
    rfl
  rw [← trimmed, taken, trimBlankLines_append fun l hl => by rw [empty l hl]; rfl]

theorem bodyText_trimBlankLines (body : Text) :
    bodyText (trimBlankLines ((Text.lines body).map Text.clearBlank)) = readBody body := by
  rw [trimBlankLines_clear]
  rfl

/-- The head of a text that an admonition was written to. -/
theorem scanHead_render (k : AdmonitionKind) (body : Text) {title : Option Text}
    (line : ∀ t, title = some t → '\n' ∉ t) (stripped : ∀ t, title = some t → Text.strip t = t)
    {rest : Text} (h : Follows rest) :
    scanHead (render k.tag body title ++ rest) = some (⟨k, shownTitle k title⟩, readBody body,
      (render k.tag body title).length + Text.shownStart rest) := by
  have single := newline_not_mem_headerLine k line
  have parsed := Header.parse_headerLine k line stripped
  have below := Text.length_dropBlank_le rest
  rw [render_eq]
  by_cases empty : body.isEmpty = true
  · rw [if_pos empty, List.append_nil]
    rw [List.isEmpty_iff.mp empty]
    cases rest with
    | nil =>
      rw [List.append_nil, scanHead_lone single parsed]
      rfl
    | cons c r =>
      obtain rfl := h.newline c rfl
      obtain ⟨body, size⟩ := takeBody_follows h .nil
      have tail : (Text.lines ('\n' :: r)).tail = Text.lines r := rfl
      rw [List.nil_append, tail] at body size
      rw [Text.unlines_lines] at size
      rw [scanHead_line single parsed, body, Text.shownStart, List.length_cons]
      refine congrArg some (Prod.ext rfl (Prod.ext rfl ?_))
      dsimp only
      omega
  · rw [if_neg empty, List.append_assoc]
    have first : dedent? [] = some [] := rfl
    obtain ⟨inner, size⟩ := takeBody_follows h (.cons first (dedents_indent (Text.lines body)))
    have cut : Text.lines ('\n' :: (Markdown.indentBlock body (Text.spaces bodyIndent) ++ rest)) =
        [] :: (Text.lines body).map (Text.indentLine bodyIndent) ++ (Text.lines rest).tail := by
      rw [← List.cons_append, h.lines_append, Text.lines, if_pos rfl, lines_indentBlock]
    rw [← cut] at inner size
    rw [Text.unlines_lines, List.length_cons, List.length_append] at size
    have trimmed : trimBlankLines ([] :: (Text.lines body).map Text.clearBlank) =
        trimBlankLines ((Text.lines body).map Text.clearBlank) := rfl
    rw [List.cons_append, List.cons_append, scanHead_line single parsed, inner, trimmed,
      bodyText_trimBlankLines, Text.shownStart]
    refine congrArg some (Prod.ext rfl (Prod.ext rfl ?_))
    simp only [List.length_append, List.length_cons]
    omega

/--
An admonition that is written out is read back with its kind, its title and its body, and the
scanner stops where the first line that follows it begins.
-/
theorem scan_render (k : AdmonitionKind) (body : Text) (title : Option Text) {rest : Text}
    (h : Follows rest) :
    ∃ found, scan (render k.tag body (title.map Text.singleSpaced) ++ rest) 0 = some found ∧
      found.header = ⟨k, shownTitle k (title.map Text.singleSpaced)⟩ ∧
      found.body = readBody body ∧
      found.stop = (render k.tag body (title.map Text.singleSpaced)).length +
        Text.shownStart rest := by
  have line : ∀ t, title.map Text.singleSpaced = some t → '\n' ∉ t := by
    intro t ht
    obtain ⟨u, -, rfl⟩ := Option.map_eq_some_iff.mp ht
    exact Text.newline_not_mem_singleSpaced u
  have stripped : ∀ t, title.map Text.singleSpaced = some t → Text.strip t = t := by
    intro t ht
    obtain ⟨u, -, rfl⟩ := Option.map_eq_some_iff.mp ht
    exact Text.strip_singleSpaced u
  have head := scanHead_render k body line stripped h
  rw [scan, List.drop_zero, head]
  exact ⟨_, rfl, rfl, rfl, Nat.zero_add _⟩

/-- A body with a blank line and tabs, a title with quotes, and an admonition that follows it. -/
theorem scan_titledWarning :
    Follows "\n\n!!! note".toList ∧
      ∃ found, scan (render AdmonitionKind.warning.tag "\n  x\n \t\n\ty".toList
          ((some " a  \"b\"".toList).map Text.singleSpaced) ++ "\n\n!!! note".toList) 0 =
            some found ∧
        found.header = ⟨.warning, "a \"b\"".toList⟩ ∧ found.body = "  x\n\n\ty\n".toList ∧
        found.stop = 39 := by
  have follows : Follows "\n\n!!! note".toList := by
    refine ⟨fun c hc => (Option.some.inj hc).symm, fun line hl => ?_⟩
    obtain rfl := Option.some.inj hl
    decide
  obtain ⟨found, scanned, header, body, stop⟩ :=
    scan_render .warning "\n  x\n \t\n\ty".toList (some " a  \"b\"".toList) follows
  refine ⟨follows, found, scanned, header.trans ?_, body.trans ?_, stop.trans ?_⟩
  · decide
  · decide
  · decide

end Admonition

end Docmark
