import PinnedManifest.ManifestTemplate
import PinnedManifest.Proofs.Template.Respelling.Sources

/-!
# Proofs/ManifestTemplate/Respelling — braces and ampersands change nothing

No tag escapes what it shows.  A source with some of its value tags written with three braces or with an
ampersand is a template like the one it is made from and renders to the same texts
(`respelled_renders_alike`), whatever tags are chosen (`chosen_renders_alike`), and a value tag writes a
text as it is (`writesVerbatim`).
-/

namespace PinnedManifest.ManifestTemplate

open Json (isBlank)
open Template Template.Respelling

/-! ## Texts as they are -/

theorem indentLines_of_not_mem {indent : List Char} : ∀ {cs : List Char}, '\n' ∉ cs →
    indentLines indent cs = cs
  | [], _ => rfl
  | [_], _ => rfl
  | c :: d :: rest, h => by
      obtain ⟨hc, hrest⟩ := not_or.mp (List.mem_cons.not.mp h)
      rw [indentLines, if_neg (Ne.symm hc), indentLines_of_not_mem hrest]

/-- Without an indent, and on one line, a text is as it was. -/
theorem indented_eq {indent text : String} (h : indent = "" ∨ '\n' ∉ text.toList) :
    indented indent text = text := by
  rw [indented]
  split
  · rfl
  · next hne =>
    rcases h with rfl | hline
    · exact absurd rfl hne
    · rw [indentLines_of_not_mem hline, String.ofList_toList]

/-- A text is written behind an indent or none. -/
theorem exists_lead_of_write (ink : Ink) (indent text : String) : ∃ lead, (lead = "" ∨ lead = indent) ∧
    (ink.write indent text).text = ink.text ++ lead ++ indented indent text := by
  rw [Ink.write]
  split
  · next hempty =>
    obtain rfl := String.isEmpty_iff.mp hempty
    rw [indented_eq (.inr (by simp))]
    exact ⟨"", .inl rfl, by rw [String.append_empty, String.append_empty]⟩
  · dsimp only
    split
    · exact ⟨indent, .inr rfl, rfl⟩
    · exact ⟨"", .inl rfl, rfl⟩

/-- Wherever a path leads to a text, its value tag writes this text as it is, behind an indent or none.
Only where it spans lines in an indented partial, the indent is put in front of each line. -/
def WritesVerbatim (p : Path) : Prop :=
  ∀ (expand : Expand) (s : Setting) (place : Position) (text : String) (ink : Ink),
    s.scope.find p = .ok (some (.string text)) →
      ∃ ink' lead, (Element.value place (.path p)).render expand s ink = .ok ink' ∧
        (lead = "" ∨ lead = s.indent) ∧ ink'.text = ink.text ++ lead ++ indented s.indent text ∧
        (s.indent = "" ∨ '\n' ∉ text.toList → indented s.indent text = text)

theorem writesVerbatim {p : Path} (hname : Helper.ofName? p.source = none) : WritesVerbatim p := by
  intro expand s place text ink hfind
  obtain ⟨lead, hlead, htext⟩ := exists_lead_of_write ink s.indent text
  refine ⟨ink.write s.indent text, lead, ?_, hlead, htext, indented_eq⟩
  rw [Element.render, Shown.write, hname, hfind]
  rfl

/-! ## Respelled templates -/

variable {path source source' : String} {t : ManifestTemplate}

theorem toOption_render (t : ManifestTemplate) (data : Json.Value) :
    (t.render data).toOption = (Template.render t.path t.body data).toOption := by
  rw [ManifestTemplate.render]
  cases Template.render t.path t.body data <;> rfl

/-- A respelled source is a template that renders like the one it is made from. -/
theorem exists_of_respelled (hsource : Respelled Unquoted source.toList source'.toList)
    (ht : ofSource path source = .ok t) : ∃ t', ofSource path source' = .ok t' ∧
      ∀ data, (t'.render data).toOption = (t.render data).toOption := by
  cases hbody : Template.ofSource source with
  | error fault =>
    rw [ofSource, hbody] at ht
    cases ht
  | ok body =>
    rw [ofSource, hbody] at ht
    cases ht
    obtain ⟨body', hbody', hbare⟩ := hsource.exists_ofSource hbody
    refine ⟨⟨path, body'⟩, by rw [ofSource, hbody'], fun data => ?_⟩
    rw [toOption_render, toOption_render]
    exact render_bare path hbare data

/-- **Whatever spelling is chosen for each value tag of a template**, there is a source with the tags so
written, and it is a template that renders alike. -/
theorem chosen_renders_alike (ht : ofSource path source = .ok t) :
    ∃ n, ∀ choices : List (Option Style), choices.length = n →
      ∃ source' t', Chosen Unquoted choices source.toList source'.toList ∧
        ofSource path source' = .ok t' ∧
        ∀ data, (t'.render data).toOption = (t.render data).toOption := by
  have hscan : (scan source.toList).isSome = true := by
    by_contra hnone
    rw [ofSource, Template.ofSource, Option.not_isSome_iff_eq_none.mp hnone] at ht
    cases ht
  obtain ⟨n, hrespelled⟩ := exists_respelled Unquoted hscan
  refine ⟨n, fun choices hlen => ?_⟩
  obtain ⟨cs', hchosen, hsource⟩ := hrespelled choices hlen
  rw [← String.toList_ofList (l := cs')] at hchosen hsource
  obtain ⟨t', ht', hrender⟩ := exists_of_respelled hsource ht
  exact ⟨String.ofList cs', t', hchosen, ht', hrender⟩

/-- **Escaping is off everywhere.**  When some value tags of a template's source get an ampersand, or a
third brace on either side unless the path holds a quotation mark, the source is still a template, and
over every value it renders to the same text, or fails where the first one fails; and a value tag that
calls no helper writes texts as they are. -/
theorem respelled_renders_alike {path source source' : String} {t : ManifestTemplate}
    (hsource : Respelled Unquoted source.toList source'.toList) (ht : ofSource path source = .ok t) :
    (∃ t', ofSource path source' = .ok t' ∧
      ∀ data, (t'.render data).toOption = (t.render data).toOption) ∧
    ∀ p : Path, Helper.ofName? p.source = none → WritesVerbatim p :=
  ⟨exists_of_respelled hsource ht, fun _ => writesVerbatim⟩

/-- The source `- {{#each a}}{{~ this }}&{{b}}{{/each}}`. -/
def iteration : String :=
  "- \x7b\x7b#each a\x7d\x7d\x7b\x7b~ this \x7d\x7d&\x7b\x7bb\x7d\x7d\x7b\x7b/each\x7d\x7d"

/-- The source `- {{#each a}}{{{~ this }}}&{{&b}}{{/each}}`. -/
def iterationRespelled : String :=
  "- \x7b\x7b#each a\x7d\x7d\x7b\x7b\x7b~ this \x7d\x7d\x7d&\x7b\x7b&b\x7d\x7d\x7b\x7b/each\x7d\x7d"

/-- A value tag with a mark that trims gets three braces and one beside text gets an ampersand, inside an
iteration. -/
theorem iteration_respelled_renders_alike : ∃ t t', ofSource "m" iteration = .ok t ∧
    ofSource "m" iterationRespelled = .ok t' ∧
    ∀ data, (t'.render data).toOption = (t.render data).toOption := by
  have hclose : Respelled Unquoted "\x7b\x7b/each\x7d\x7d".toList "\x7b\x7b/each\x7d\x7d".toList :=
    .keep [] "\x7b\x7b/each\x7d\x7d".toList (by decide +kernel) (by decide +kernel) (.text rfl)
  have hbeside := Respelled.respell ['&'] [] ⟨"b", false, false, 0, ["b"]⟩ []
    (by decide +kernel) (by rfl) (by simp) (by simp) .ampersand hclose
  have htrimmed := Respelled.respell [] ['~', ' '] ⟨"this", false, false, 0, []⟩ [' ']
    (by decide +kernel) (by rfl) (by simp [isPadding, isBlank]) (by simp [isPadding, isBlank])
    (.triple (by simp [Unquoted, isQuote])) hbeside
  have hsource : Respelled Unquoted iteration.toList iterationRespelled.toList :=
    .keep ['-', ' '] "\x7b\x7b#each a\x7d\x7d".toList (by decide +kernel) (by decide +kernel) htrimmed
  have hok : (ofSource "m" iteration).toOption.isSome = true := by decide +kernel
  obtain ⟨t, ht⟩ := Option.isSome_iff_exists.mp hok
  have ht := toOption_eq_some_iff.mp ht
  obtain ⟨⟨t', ht', hrender⟩, -⟩ := respelled_renders_alike hsource ht
  exact ⟨t, t', ht, ht', hrender⟩

/-- The source `{{len [{"a":{"b":{"c":["]}}{{["]}}]}}`: two tags and the text behind them. -/
def openString : String :=
  "\x7b\x7blen [\x7b\"a\":\x7b\"b\":\x7b\"c\":[\"]\x7d\x7d\x7b\x7b[\"]\x7d\x7d]\x7d\x7d"

/-- The source `{{len [{"a":{"b":{"c":["]}}{{{["]}}}]}}`: one tag, about a list of one object. -/
def openStringRespelled : String :=
  "\x7b\x7blen [\x7b\"a\":\x7b\"b\":\x7b\"c\":[\"]\x7d\x7d\x7b\x7b\x7b[\"]\x7d\x7d\x7d]\x7d\x7d"

/-- **Three braces are not always like two** where the path holds a quotation mark: it may end a string
that starts in the tag before, and then the third brace closes one more object of the literal there. -/
theorem third_brace_closes_object :
    Respelled (fun p => Helper.ofName? p.source = none) openString.toList openStringRespelled.toList ∧
    ((ofSource "m" openString).toOption.bind fun t => (t.render (.object [])).toOption)
      = some "0]\x7d\x7d" ∧
    ((ofSource "m" openStringRespelled).toOption.bind fun t => (t.render (.object [])).toOption)
      = some "1" := by
  have hlast : Respelled (fun p => Helper.ofName? p.source = none) "]\x7d\x7d".toList
      "]\x7d\x7d".toList := .text rfl
  have hvalue := Respelled.respell [] [] ⟨"[\"]", false, false, 0, ["\""]⟩ []
    (by decide +kernel) (by rfl) (by simp) (by simp) (.triple (by rfl)) hlast
  exact ⟨.keep [] "\x7b\x7blen [\x7b\"a\":\x7b\"b\":\x7b\"c\":[\"]\x7d\x7d".toList (by decide +kernel)
    (by decide +kernel) hvalue, by decide +kernel, by decide +kernel⟩

end PinnedManifest.ManifestTemplate
