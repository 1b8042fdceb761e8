import Docmark.Proofs.Convert.Containers
import Docmark.Proofs.Convert.FootnoteNumbers
import Docmark.Proofs.Footnote.Findings
import Docmark.Proofs.Footnote.Scan

/-!
The orphans that the validator reports for the Markdown of a document, against those that the
conversion reports. Main statement: on a page whose carets all belong to signs, the two agree just
when the signs that no colon follows show the numbers of the references.
-/

namespace Docmark

/-- A text without white space at its begin shows something on its first line. -/
theorem Text.Trimmed.first_line {t l : Text} {ls : List Text} (h : Trimmed t)
    (hl : lines t = l :: ls) : isBlank l = false := by
  obtain ⟨c, r, rfl⟩ := List.exists_cons_of_ne_nil h.ne_nil
  have shown : isBlankChar c = false := h.head rfl
  have line : c ≠ '\n' := by
    rintro rfl
    revert shown
    decide
  obtain ⟨m, ms, hm⟩ := List.exists_cons_of_ne_nil (lines_ne_nil r)
  rw [lines, if_neg line, hm, List.modifyHead_cons] at hl
  rw [← (List.cons.inj hl).1]
  simp [isBlank, shown]

namespace Footnote

open Annotation (isNumeral_decimal)

theorem signsWhere_noteEntry (p : Text → Bool) (e : Nat × Text) : signsWhere p (noteEntry e) =
    if p (':' :: ' ' :: e.2) then Text.decimal e.1 :: signsWhere p e.2 else signsWhere p e.2 := by
  have content : signsWhere p (':' :: ' ' :: e.2) = signsWhere p e.2 := by
    rw [signsWhere_of_ne (by decide), signsWhere_of_ne (by decide)]
  have entry : noteEntry e = '[' :: '^' :: Text.decimal e.1 ++ ']' :: ':' :: ' ' :: e.2 := by
    simp [noteEntry, sign]
  rw [entry, signsWhere_sign (isNumeral_decimal e.1), content]

theorem openSigns_noteEntry (e : Nat × Text) : openSigns (noteEntry e) = openSigns e.2 :=
  signsWhere_noteEntry _ e

theorem signed_noteEntry {e : Nat × Text} (signed : Signed e.2) : Signed (noteEntry e) := by
  have content : Signed (':' :: ' ' :: e.2) :=
    .char (by decide) (fun he => absurd he (by decide))
      (.char (by decide) (fun he => absurd he (by decide)) signed)
  have entry : noteEntry e = '[' :: '^' :: Text.decimal e.1 ++ ']' :: ':' :: ' ' :: e.2 := by
    simp [noteEntry, sign]
  rw [entry]
  exact .sign (isNumeral_decimal e.1) content

/-- An entry has its sign and the first line of the content on one line. -/
theorem lines_noteEntry (e : Nat × Text) : ∃ l ls, Text.lines e.2 = l :: ls ∧
    Text.lines (noteEntry e) = (sign e.1 ++ ':' :: ' ' :: l) :: ls := by
  obtain ⟨l, ls, hl⟩ := List.exists_cons_of_ne_nil (Text.lines_ne_nil e.2)
  have digits : '\n' ∉ Text.decimal e.1 :=
    (isNumeral_decimal e.1).not_mem (Text.not_isDecimal_of_gap (by decide))
  have front : '\n' ∉ sign e.1 ++ [':', ' '] := by simp [sign, digits]
  have entry : noteEntry e = sign e.1 ++ [':', ' '] ++ e.2 := by simp [noteEntry]
  refine ⟨l, ls, hl, ?_⟩
  rw [entry, Text.lines_append_of_not_mem front, hl]
  simp

theorem numberSign?_entry (k : Nat) (l : Text) :
    numberSign? (sign k ++ ':' :: ' ' :: l) = some (Text.decimal k, ':' :: ' ' :: l) :=
  numberSign?_eq_some.mpr ⟨isNumeral_decimal k, by simp [sign]⟩

theorem heads_noteEntry {e : Nat × Text} (headless : heads e.2 = []) :
    heads (noteEntry e) = [Text.decimal e.1] := by
  obtain ⟨l, ls, content, entry⟩ := lines_noteEntry e
  have below : ls.filterMap headSign? = [] := by
    rw [heads, content, List.filterMap_eq_nil_iff, List.forall_mem_cons] at headless
    exact List.filterMap_eq_nil_iff.mpr headless.2
  have first : headSign? (sign e.1 ++ ':' :: ' ' :: l) = some (Text.decimal e.1) := by
    rw [headSign?, numberSign?_entry]
    rfl
  rw [heads, entry, List.filterMap_cons_some first, below]

theorem filled_noteEntry {e : Nat × Text} (headless : heads e.2 = []) (trimmed : Text.Trimmed e.2) :
    ∀ l ∈ Text.lines (noteEntry e), Filled l := by
  obtain ⟨l, ls, content, entry⟩ := lines_noteEntry e
  rw [heads, content, List.filterMap_eq_nil_iff, List.forall_mem_cons] at headless
  rw [entry, List.forall_mem_cons]
  refine ⟨?_, fun k hk => filled_of_headSign?_eq_none (headless.2 k hk)⟩
  intro d r shown
  rw [numberSign?_entry] at shown
  obtain ⟨-, rfl⟩ : Text.decimal e.1 = d ∧ ' ' :: l = r := by simpa using shown
  have first := trimmed.first_line content
  simpa [Text.isBlank, Text.isBlankChar] using first

/--
A page that says what is a definition: no line of the body and the contents begins like one, and
every content has a text.
-/
structure Legible (body : Text) (contents : List Text) : Prop where
  headless : ∀ t ∈ body :: contents, heads t = []
  filled : ∀ t ∈ contents, t ≠ []

section page

variable {body : Text} {entries : List (Nat × Text)}

theorem flatMap_page {α : Type} {μ : Text → List α} (empty : μ [] = []) :
    ((if body.isEmpty then [] else [body]) ++ entries.map noteEntry).flatMap μ =
      μ body ++ entries.flatMap fun e => μ (noteEntry e) := by
  rw [List.flatMap_append, List.flatMap_map]
  cases body with
  | nil => simp [empty]
  | cons c r => simp

theorem mem_page {b : Text}
    (h : b ∈ (if body.isEmpty then [] else [body]) ++ entries.map noteEntry) :
    b = body ∨ ∃ e ∈ entries, noteEntry e = b := by
  rcases List.mem_append.mp h with hb | hb
  · split at hb
    · cases hb
    · exact Or.inl (List.mem_singleton.mp hb)
  · exact Or.inr (List.mem_map.mp hb)

variable (signed : ∀ t ∈ body :: entries.map Prod.snd, Signed t)

include signed

theorem signed_page : Signed (Markdown.collapseBlankLines (pageOf body entries)) := by
  rw [signed_iff, signs_carets.collapseBlankLines, signs_signs.collapseBlankLines, ← signed_iff,
    pageOf, signed_joinBlocks]
  intro b hb
  rcases mem_page hb with rfl | ⟨e, he, rfl⟩
  · exact signed b (by simp)
  · exact signed_noteEntry (signed e.2 (List.mem_cons_of_mem _ (List.mem_map_of_mem he)))

/-- The validator takes the signs of a page that no colon follows for references. -/
theorem references_page :
    Text.findAll reference? none 0 (Markdown.collapseBlankLines (pageOf body entries)) =
      (body :: entries.map Prod.snd).flatMap openSigns := by
  rw [findAll_reference (signed_page signed), signs_openSigns.collapseBlankLines, pageOf,
    signs_openSigns.joinBlocks, flatMap_page rfl, List.flatMap_cons, List.flatMap_map]
  simp only [openSigns_noteEntry]

/-- The validator takes just the entries of a page for definitions. -/
theorem definitions_page (legible : Legible body (entries.map Prod.snd))
    (stripped : ∀ e ∈ entries, Text.strip e.2 = e.2) :
    Text.findAll definition? none 0 (Markdown.collapseBlankLines (pageOf body entries)) =
      entries.map fun e => Text.decimal e.1 := by
  have headless : ∀ e ∈ entries, heads e.2 = [] := by
    intro e he
    exact legible.headless e.2 (List.mem_cons_of_mem _ (List.mem_map_of_mem he))
  -- A definition whose line ends behind the colon would take the next line for its text.
  have filled : ∀ l ∈ Text.lines (Markdown.collapseBlankLines (pageOf body entries)), Filled l := by
    intro l hl
    rw [Markdown.Tracking.lines_collapseBlankLines] at hl
    have blank : Filled [] := filled_of_headSign?_eq_none rfl
    rcases Markdown.Tracking.mem_collapse hl with rfl | shown
    · exact blank
    rcases Text.mem_lines_joinBlocks shown with rfl | ⟨b, hb, line⟩
    · exact blank
    rcases mem_page hb with rfl | ⟨e, he, rfl⟩
    · have none := List.filterMap_eq_nil_iff.mp (legible.headless b (by simp))
      exact filled_of_headSign?_eq_none (none l line)
    · have trimmed : Text.Trimmed e.2 :=
        ⟨legible.filled e.2 (List.mem_map_of_mem he), stripped e he⟩
      exact filled_noteEntry (headless e he) trimmed l line
  have entry : ∀ e ∈ entries, heads (noteEntry e) = [Text.decimal e.1] := by
    intro e he
    exact heads_noteEntry (headless e he)
  rw [findAll_definition (signed_page signed) filled, heads_collapseBlankLines, pageOf,
    heads_joinBlocks, flatMap_page rfl, legible.headless body (by simp), List.nil_append,
    List.map_eq_flatMap]
  exact List.flatMap_congr entry

end page

end Footnote

open Conversion Footnote

theorem signed_fragments {fs : List Fragment} :
    (fs.flatMap fun f => carets f.markdown).length ≤
      (fs.flatMap fun f => signs f.markdown).length ↔ ∀ f ∈ fs, Signed f.markdown := by
  have parts := signed_parts (fs.map Fragment.markdown)
  rwa [List.flatMap_map, List.flatMap_map, List.forall_mem_map] at parts

/-- What a node writes has no carets but those of signs that its children have, too. -/
def Visit.HandsOn (v : Visit) : Prop :=
  Signed v.fragment.markdown ∧
    ∀ d ∈ signs v.fragment.markdown, ∃ g ∈ v.children, d ∈ signs g.markdown

/-- Neither the title of a section nor a node that is no container brings a caret of its own. -/
structure Visit.Clear (v : Visit) : Prop where
  other : v.node.kind.carriesMarkers = false → v.node.kind ≠ .footnote → v.HandsOn
  titled : v.node.kind = .expand ∨ v.node.kind = .nestedExpand →
    '^' ∉ Convert.expandTitle v.node

instance : DecidablePred Visit.HandsOn :=
  fun v => inferInstanceAs (Decidable (Signed v.fragment.markdown ∧
    ∀ d ∈ signs v.fragment.markdown, ∃ g ∈ v.children, d ∈ signs g.markdown))

instance : DecidablePred Visit.Clear :=
  fun _ => decidable_of_iff (_ ∧ _) ⟨fun h => ⟨h.1, h.2⟩, fun h => ⟨h.other, h.titled⟩⟩

namespace Visit.Made

variable {ctx : Context} {v : Visit}

theorem markdown_of_footnote (made : v.Made ctx) (kind : v.node.kind = .footnote)
    (unreferenced : v.referenced = []) : v.fragment.markdown = [] := by
  rcases Convert.footnote_ok kind (made.run_of_footnote kind) with
    ⟨-, written, -⟩ | ⟨x, name, ⟨-, written, -⟩ | ⟨refers, -, -⟩⟩
  · exact written
  · exact written
  · rw [Visit.referenced, refers, Visit.named, name] at unreferenced
    cases unreferenced

/-- Containers form no signs where every caret of a child belongs to one. -/
theorem handsOn_of_carrier (made : v.Made ctx) (carrier : v.node.kind.carriesMarkers = true)
    (clear : v.Clear) (children : ∀ g ∈ v.children, Signed g.markdown) : v.HandsOn := by
  cases made with
  | read unknown same =>
    rw [unknown] at carrier
    cases carrier
  | @converted convert registered places run =>
    obtain ⟨grows, -⟩ := signs_signs.carries carrier registered places run
    obtain ⟨-, keeps⟩ := signs_carets.carries carrier registered places run
    have kept := grows signs_append_sublist
    have same := keeps (fun t u => List.filter_append t u) clear.titled
    have parts := signed_fragments.mpr children
    have bound := length_signs_le v.fragment.markdown
    rw [same] at bound
    have all : (v.children.flatMap fun g => signs g.markdown) = signs v.fragment.markdown :=
      kept.eq_of_length_le (bound.trans parts)
    constructor
    · rw [signed_iff, same, ← all]
      exact parts
    · intro d hd
      rw [← all] at hd
      exact List.mem_flatMap.mp hd

/-- References show their numbers, and all other nodes what their children show. -/
theorem signed (made : v.Made ctx) (clear : v.Clear) {P : Text → Prop}
    (shown : ∀ x ∈ v.referenced, ∃ k, v.fragment.markdown = sign k ∧ P (Text.decimal k))
    (children : ∀ g ∈ v.children, Signed g.markdown ∧ ∀ d ∈ signs g.markdown, P d) :
    Signed v.fragment.markdown ∧ ∀ d ∈ signs v.fragment.markdown, P d := by
  have of_handsOn (h : v.HandsOn) :
      Signed v.fragment.markdown ∧ ∀ d ∈ signs v.fragment.markdown, P d := by
    refine ⟨h.1, fun d hd => ?_⟩
    obtain ⟨g, hg, hd⟩ := h.2 d hd
    exact (children g hg).2 d hd
  by_cases footnote : v.node.kind = .footnote
  · cases refs : v.referenced with
    | nil =>
      rw [made.markdown_of_footnote footnote refs]
      exact ⟨.nil, by simp [signs, signsWhere]⟩
    | cons x xs =>
      obtain ⟨k, written, number⟩ := shown x (by simp [refs])
      have numeral := Annotation.isNumeral_decimal k
      have alone : signs (sign k) = [Text.decimal k] := signsWhere_sign numeral []
      rw [written, alone]
      exact ⟨.sign numeral .nil, by simpa using number⟩
  · cases carrier : v.node.kind.carriesMarkers with
    | true => exact of_handsOn (made.handsOn_of_carrier carrier clear fun g hg => (children g hg).1)
    | false => exact of_handsOn (clear.other carrier footnote)

end Visit.Made

namespace Converted

/-- The validator reports the orphans of the Markdown that the conversion reports. -/
def ReportsAgree (c : Converted) : Prop :=
  ∀ m, m ∈ Footnote.validate c.markdown ↔ m ∈ c.findings ∧ IsMessage m

/-- The body and the contents of the footnotes. -/
def texts (c : Converted) (body : Text) : List Text :=
  body :: c.footnotes.map Prod.snd

/-- Digits of a sign in these texts that no colon follows. -/
def Shows (c : Converted) (body d : Text) : Prop :=
  ∃ t ∈ c.texts body, d ∈ openSigns t

end Converted

/-- Where no node brings signs that its children do not have, all signs are those of references. -/
theorem signed_of_clear {ctx : Context} {level : Int} {n : Node} {f : Fragment} {vs : List Visit}
    {s : Session} (made : visits Registry.standard ctx level n {} = .ok ((f, vs), s))
    (clear : ∀ v ∈ vs, v.Clear) {t : Text}
    (ht : t = Text.trimNewlines f.markdown ∨ t ∈ (vs.flatMap Visit.defined).map Prod.snd) :
    Signed t ∧ ∀ d ∈ signs t, Numbered n.footnoteNames (· ∈ n.footnoteReferences) d := by
  obtain ⟨visited, nodes⟩ := visits_ok made
  obtain ⟨-, shown, -⟩ := visits_footnotes made
  have step : ∀ v ∈ vs, (∀ g ∈ v.children, Signed g.markdown ∧
      ∀ d ∈ signs g.markdown, Numbered n.footnoteNames (· ∈ n.footnoteReferences) d) →
      Signed v.fragment.markdown ∧
        ∀ d ∈ signs v.fragment.markdown, Numbered n.footnoteNames (· ∈ n.footnoteReferences) d := by
    intro v hv children
    refine (visited.made v hv).signed (clear v hv) (fun x hx => ?_) children
    have known : x ∈ n.footnoteReferences := by
      rw [footnoteReferences_eq nodes]
      exact List.mem_flatMap.mpr ⟨v, hv, hx⟩
    exact ⟨_, shown v hv x hx, x, known, rfl⟩
  have all := fragments_of_visitLevels (Q := fun g => Signed g.markdown ∧
    ∀ d ∈ signs g.markdown, Numbered n.footnoteNames (· ∈ n.footnoteReferences) d) made step
  rcases ht with rfl | ht
  · rw [signed_iff, signs_carets.trimNewlines, signs_signs.trimNewlines, ← signed_iff]
    exact all.1
  · obtain ⟨p, hp, rfl⟩ := List.mem_map.mp ht
    obtain ⟨v, hv, hp⟩ := List.mem_flatMap.mp hp
    rw [Visit.defined] at hp
    split at hp
    · obtain ⟨x, -, rfl⟩ := List.mem_map.mp hp
      have children := all.2 v hv
      rw [signed_iff, signs_carets.joinedWords, signs_signs.joinedWords]
      refine ⟨signed_fragments.mpr fun g hg => (children g hg).1, fun d hd => ?_⟩
      obtain ⟨g, hg, hd⟩ := List.mem_flatMap.mp hd
      exact (children g hg).2 d hd
    · cases hp

section finished

variable {ctx : Context} {level : Int} {n : Node} {f : Fragment} {vs : List Visit} {s : Session}

theorem contents_finishDocument (o : ConversionOptions) (t : Text) (s : Session) :
    (finishDocument o t s).footnotes.map Prod.snd = s.footnotes.entries.map Prod.snd := by
  simp [finishDocument, State.tooltips, State.entries]

/-- A content that is kept is one of a definition. -/
theorem mem_defined_of_mem_entries
    (made : visits Registry.standard ctx level n {} = .ok ((f, vs), s)) {e : Nat × Text}
    (he : e ∈ s.footnotes.entries) :
    ∃ x, (x, e.2) ∈ vs.flatMap Visit.defined ∧ e.1 = numberAmong n.footnoteNames x := by
  obtain ⟨counts, -, stripped⟩ := visits_footnotes made
  obtain ⟨x, hc, number⟩ := (counts.mem_entries stripped).mp he
  exact ⟨x, Convert.mem_of_lastContent hc, number⟩

/-- The messages about footnotes among the findings of a document. -/
theorem mem_findings_finishDocument
    (made : visits Registry.standard ctx level n {} = .ok ((f, vs), s)) (o : ConversionOptions)
    (t m : Text) : m ∈ (finishDocument o t s).findings ∧ IsMessage m ↔
      Orphan (Numbered n.footnoteNames (· ∈ n.footnoteReferences))
        (Numbered n.footnoteNames (· ∈ (vs.flatMap Visit.defined).map Prod.fst)) m := by
  obtain ⟨counts, -, -⟩ := visits_footnotes made
  have all : m ∈ (finishDocument o t s).findings ↔
      m ∈ s.footnotes.findings ++ s.annotations.findings := Text.mem_distinct
  rw [← counts.mem_findings fun x => Node.mem_footnoteNames, all, List.mem_append]
  constructor
  · rintro ⟨here | other, message⟩
    · exact here
    · exact absurd message (not_isMessage_of_mem_findings other)
  · intro here
    have orphan := (counts.mem_findings fun x => Node.mem_footnoteNames).mp here
    exact ⟨Or.inl here, orphan.isMessage⟩

theorem markdown_finishDocument
    (made : visits Registry.standard ctx level n {} = .ok ((f, vs), s)) :
    (finishDocument {} f.markdown s).markdown =
        Markdown.collapseBlankLines (pageOf (Text.trimNewlines f.markdown) s.footnotes.entries) ∧
      ∀ e ∈ s.footnotes.entries, Text.strip e.2 = e.2 := by
  constructor
  · rw [finishDocument, withFootnotes_eq]
    rfl
  · obtain ⟨-, -, stripped⟩ := visits_footnotes made
    intro e he
    obtain ⟨x, hx, -⟩ := mem_defined_of_mem_entries made he
    exact stripped _ hx

variable (made : visits Registry.standard ctx level n {} = .ok ((f, vs), s))
  (signed : ∀ t ∈ Text.trimNewlines f.markdown :: s.footnotes.entries.map Prod.snd, Signed t)

include made signed

theorem mem_references_finishDocument (d : Text) :
    d ∈ Text.findAll reference? none 0 (finishDocument {} f.markdown s).markdown ↔
      (finishDocument {} f.markdown s).Shows (Text.trimNewlines f.markdown) d := by
  obtain ⟨page, -⟩ := markdown_finishDocument made
  rw [page, references_page signed, List.mem_flatMap, Converted.Shows, Converted.texts,
    contents_finishDocument]

variable (legible : Legible (Text.trimNewlines f.markdown) (s.footnotes.entries.map Prod.snd))

include legible

theorem mem_definitions_finishDocument (d : Text) :
    d ∈ Text.findAll definition? none 0 (finishDocument {} f.markdown s).markdown ↔
      Numbered n.footnoteNames (· ∈ (vs.flatMap Visit.defined).map Prod.fst) d := by
  obtain ⟨counts, -, stripped⟩ := visits_footnotes made
  obtain ⟨page, trimmed⟩ := markdown_finishDocument made
  rw [page, definitions_page signed legible trimmed, List.mem_map]
  constructor
  · rintro ⟨e, he, rfl⟩
    obtain ⟨x, hx, number⟩ := mem_defined_of_mem_entries made he
    exact ⟨x, List.mem_map_of_mem hx, by rw [number]⟩
  · rintro ⟨x, hx, rfl⟩
    obtain ⟨c, hc⟩ := counts.exists_lastContent hx
    exact ⟨_, (counts.mem_entries stripped).mpr ⟨x, hc, rfl⟩, rfl⟩

theorem reportsAgree_iff : (finishDocument {} f.markdown s).ReportsAgree ↔
    ∀ d, (finishDocument {} f.markdown s).Shows (Text.trimNewlines f.markdown) d ↔
      Numbered n.footnoteNames (· ∈ n.footnoteReferences) d := by
  have references := funext fun d => propext (mem_references_finishDocument made signed d)
  have definitions := funext fun d => propext (mem_definitions_finishDocument made signed legible d)
  have messages (m : Text) : (m ∈ validate (finishDocument {} f.markdown s).markdown ↔
      m ∈ (finishDocument {} f.markdown s).findings ∧ IsMessage m) ↔
        (Orphan ((finishDocument {} f.markdown s).Shows (Text.trimNewlines f.markdown))
            (Numbered n.footnoteNames (· ∈ (vs.flatMap Visit.defined).map Prod.fst)) m ↔
          Orphan (Numbered n.footnoteNames (· ∈ n.footnoteReferences))
            (Numbered n.footnoteNames (· ∈ (vs.flatMap Visit.defined).map Prod.fst)) m) := by
    rw [mem_findings_finishDocument made, mem_validate, references, definitions]
  exact (forall_congr' messages).trans Orphan.same_iff

end finished

/--
Where every caret of a page belongs to a sign, the validator agrees with the conversion just when
the signs that no colon follows show the numbers of the references. Where only references bring
carets, this is so just when each of them has such a sign.
-/
theorem convertDocument_footnoteFindings {source : Source} {resolver : Link.Resolver}
    {c : Converted} (h : convertDocument source {} [] resolver = .ok c) :
    ∃ n f s vs, source.load {} = .ok n ∧
      visits Registry.standard ⟨{}, resolver⟩ 0 n {} = .ok ((f, vs), s) ∧
      (Legible (Text.trimNewlines f.markdown) (c.footnotes.map Prod.snd) →
        ((∀ t ∈ c.texts (Text.trimNewlines f.markdown), Signed t) →
          (c.ReportsAgree ↔ ∀ d, c.Shows (Text.trimNewlines f.markdown) d ↔
            Numbered n.footnoteNames (· ∈ n.footnoteReferences) d)) ∧
        ((∀ v ∈ vs, v.Clear) →
          (c.ReportsAgree ↔ ∀ x ∈ n.footnoteReferences,
            c.Shows (Text.trimNewlines f.markdown)
              (Text.decimal (numberAmong n.footnoteNames x))))) := by
  obtain ⟨o, n, f, s, updated, loaded, walked, rfl⟩ := convertDocument_ok h
  cases updated
  obtain ⟨vs, made⟩ := visits_of_walk walked
  refine ⟨n, f, s, vs, loaded, made, fun legible => ?_⟩
  rw [contents_finishDocument] at legible
  rw [Converted.texts, contents_finishDocument]
  refine ⟨fun signed => reportsAgree_iff made signed legible, fun clear => ?_⟩
  have shown : ∀ t ∈ Text.trimNewlines f.markdown :: s.footnotes.entries.map Prod.snd,
      Signed t ∧ ∀ d ∈ signs t, Numbered n.footnoteNames (· ∈ n.footnoteReferences) d := by
    intro t ht
    refine signed_of_clear made clear ((List.mem_cons.mp ht).imp_right fun ht => ?_)
    obtain ⟨e, he, rfl⟩ := List.mem_map.mp ht
    obtain ⟨x, hx, -⟩ := mem_defined_of_mem_entries made he
    exact List.mem_map_of_mem hx
  rw [reportsAgree_iff made (fun t ht => (shown t ht).1) legible]
  constructor
  · intro same x hx
    exact (same _).mpr ⟨x, hx, rfl⟩
  · intro all d
    constructor
    · rintro ⟨t, ht, hd⟩
      rw [Converted.texts, contents_finishDocument] at ht
      exact (shown t ht).2 d (mem_signs hd)
    · rintro ⟨x, hx, rfl⟩
      exact all x hx

/-- Two references, one of them to a footnote that is not defined. -/
def orphanedDocument : Node :=
  .documentOf [.paragraphOf [.ofText "A", .footnoteTo "b", .ofText " and", .footnoteTo "a"],
    .footnoteOf "b" [.ofText "two"]]

theorem orphanedDocument_footnoteFindings :
    ∃ c, convertDocument (.tree orphanedDocument) = .ok c ∧ c.ReportsAgree := by
  have run : (convertDocument (.tree orphanedDocument)).toOption.map Converted.footnotes =
      some [("1".toList, "two".toList)] := rfl
  obtain ⟨c, h, contents⟩ := exists_ok_of_map run
  obtain ⟨n, f, s, vs, loaded, made, agree⟩ := convertDocument_footnoteFindings h
  cases loaded
  have walked : (visits Registry.standard {} 0 orphanedDocument {}).toOption.map
      (fun r => (r.1.1.markdown, decide (∀ v ∈ r.1.2, v.Clear))) =
        some ("A[^1] and[^2]".toList, true) := rfl
  rw [made] at walked
  obtain ⟨body, clear⟩ := Prod.mk.inj (Option.some.inj walked)
  have body : f.markdown = "A[^1] and[^2]".toList := body
  rw [body] at agree
  have legible : Legible (Text.trimNewlines "A[^1] and[^2]".toList) (c.footnotes.map Prod.snd) := by
    rw [contents]
    exact ⟨by decide, by decide⟩
  refine ⟨c, h, ((agree legible).2 (of_decide_eq_true clear)).mpr ?_⟩
  simp only [Converted.Shows, Converted.texts, contents]
  decide

/-- A reference that a colon follows in the middle of a line. -/
def colonDocument : Node :=
  .documentOf [.paragraphOf [.ofText "Claim", .footnoteTo "a", .ofText ": text"],
    .footnoteOf "a" [.ofText "note"]]

/-- The validator misses the reference, and reports the definition that the document refers to. -/
theorem colonDocument_disagrees :
    ∃ c, convertDocument (.tree colonDocument) = .ok c ∧
      Footnote.validate c.markdown = [orphanedDefinition "1".toList] ∧ c.findings = [] ∧
      ¬ c.ReportsAgree := by
  have run : (convertDocument (.tree colonDocument)).toOption.map
      (fun c => (Footnote.validate c.markdown, c.findings)) =
        some ([orphanedDefinition "1".toList], []) := rfl
  obtain ⟨c, h, both⟩ := exists_ok_of_map run
  obtain ⟨reported, found⟩ := Prod.mk.inj both
  refine ⟨c, h, reported, found, fun agree => ?_⟩
  have missing := (agree (orphanedDefinition "1".toList)).mp (by rw [reported]; simp)
  rw [found] at missing
  exact absurd missing.1 (by simp)

end Docmark
