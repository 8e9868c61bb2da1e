import PinnedManifest.Proofs.Generation.Course
import PinnedManifest.Proofs.Record.Mapping
import PinnedManifest.Proofs.Template.Plain

/-!
# Proofs/Generation/Plain — a run with a plain template

What a template sees of records are objects of texts and nulls, whatever was pushed and under whatever
variable (`arrayless_manifestContext`).  A plain template therefore always renders, and a run with one
that has fetched its artefacts is left with one way to fail: its output cannot be replaced.
-/

namespace PinnedManifest

open Template

/-! ## What a template sees -/

/-- The fields of a record are texts, or null where one is absent. -/
theorem Record.arrayless_json (r : Record) : r.json.Arrayless := by
  have hoptional (text : Option String) : (text.elim .null .string : Json.Value).Arrayless := by
    cases text with
    | none => exact .null
    | some s => exact .string s
  rw [Record.json_eq]
  refine .object fun m hm => ?_
  simp only [List.mem_cons, List.not_mem_nil, or_false] at hm
  rcases hm with rfl | rfl | rfl | rfl | rfl | rfl | rfl
  case inr.inr.inl => exact hoptional r.version
  case inr.inr.inr.inr.inr.inr => exact hoptional r.docUrl
  all_goals exact .string _

theorem Records.arrayless_mapping (records : Records) :
    (Json.Value.object records.mapping).Arrayless := by
  refine .object fun m hm => ?_
  obtain ⟨entry, -, rfl⟩ := List.mem_map.mp hm
  exact entry.2.arrayless_json

/-- **No array is among what a template sees** — under any variable, that of the revision included. -/
theorem arrayless_manifestContext (contextKey : String) (records : Records) (revision : Revision) :
    (manifestContext contextKey records revision).Arrayless := by
  by_cases hkey : contextKey = "latest_sha"
  · rw [hkey, manifestContext_revisionKey]
    refine .object fun m hm => ?_
    cases List.mem_singleton.mp hm
    exact .string _
  · rw [manifestContext_of_ne hkey]
    refine .object (List.forall_mem_cons.mpr ⟨records.arrayless_mapping, fun m hm => ?_⟩)
    cases List.mem_singleton.mp hm
    exact .string _

/-! ## Plain templates -/

/-- A template from a plain source renders over any records. -/
theorem ManifestTemplate.exists_render_of_plain {path source : String} {t : ManifestTemplate}
    (h : ofSource path source = .ok t) (hplain : isPlainSource source = true) (contextKey : String)
    (records : Records) (revision : Revision) :
    ∃ text, t.render (manifestContext contextKey records revision) = .ok text := by
  rw [ofSource] at h
  split at h
  next body hbody =>
    cases h
    obtain ⟨text, htext⟩ := (plain_of_ofSource hplain hbody).exists_render path
      (arrayless_manifestContext contextKey records revision)
    exact ⟨text, by rw [render, htext]⟩
  next => cases h

/-- The template of a run is one, from a plain source. -/
def Config.PlainlyTemplated (config : Config) (caller : Files.Caller) (files : Files.Volume) : Prop :=
  ∃ content source t, files.read caller config.template = .ok content ∧
    Text.ofUtf8? content = some source ∧ isPlainSource source = true ∧
    ManifestTemplate.ofSource config.template source = .ok t

/-- Such a template is the one that the run reads, and it renders. -/
theorem Config.PlainlyTemplated.exists_render {config : Config} {caller : Files.Caller}
    {files : Files.Volume} (h : config.PlainlyTemplated caller files) :
    ∃ t, config.Templated caller files t ∧ ∀ (contextKey : String) (records : Records)
      (revision : Revision), ∃ text, t.render (manifestContext contextKey records revision) = .ok text := by
  obtain ⟨content, source, t, hread, hsource, hplain, ht⟩ := h
  refine ⟨t, ⟨content, hread, ?_⟩, ManifestTemplate.exists_render_of_plain ht hplain⟩
  rw [ManifestTemplate.ofContent, hsource]
  exact ht

/-- **A run with a plain template** whose artefacts are all answered succeeds, unless its output cannot
be replaced. -/
theorem World.generate_of_plain {σ : Type} {caller : Files.Caller} {fetcher : Fetcher σ}
    {catalog : Catalog} {config : Config} {w : World σ} {contents : List (List UInt8)} {network : σ}
    (hplain : config.PlainlyTemplated caller w.files)
    (hall : catalog.Answered config fetcher w.network contents network) :
    (∃ w', World.generate caller fetcher catalog config w
      = (.ok (catalog.records config contents), w')) ∨
    ∃ fault w', World.generate caller fetcher catalog config w
      = (.error (.output config.output fault), w') := by
  obtain ⟨t, htemplate, hrenders⟩ := hplain.exists_render
  obtain ⟨text, htext⟩ :=
    hrenders catalog.contextKey (catalog.records config contents) config.revision
  rcases hwrite : ((Files.Volume.disk caller).replace config.output (Text.utf8 text)).run w.files with
    ⟨fault | _, files⟩
  · have hsame := Files.Volume.replace_run_error hwrite
    subst hsame
    exact .inr ⟨fault, _, (Course.unwritten htemplate hall htext hwrite).generate_eq⟩
  · exact .inl ⟨_, (Course.complete htemplate hall htext hwrite).generate_eq⟩

/-- **A plain template cannot fail** — once it has parsed, it renders over all records at all
revisions, under any variable; so a run with such a template whose artefacts are all answered succeeds
or fails to replace its output. -/
theorem plain_templates_render :
    (∀ (path source : String) (t : ManifestTemplate),
      ManifestTemplate.ofSource path source = .ok t → isPlainSource source = true →
      ∀ (contextKey : String) (records : Records) (revision : Revision),
        ∃ text, t.render (manifestContext contextKey records revision) = .ok text) ∧
    ∀ {σ : Type} (caller : Files.Caller) (fetcher : Fetcher σ) (catalog : Catalog) (config : Config)
      (w : World σ) (contents : List (List UInt8)) (network : σ),
      config.PlainlyTemplated caller w.files →
      catalog.Answered config fetcher w.network contents network →
      (∃ w', World.generate caller fetcher catalog config w
        = (.ok (catalog.records config contents), w')) ∨
      ∃ fault w', World.generate caller fetcher catalog config w
        = (.error (.output config.output fault), w') :=
  ⟨fun _ _ _ ht hplain => ManifestTemplate.exists_render_of_plain ht hplain,
    fun _ _ _ _ _ _ _ hplain hall => World.generate_of_plain hplain hall⟩

namespace Sample

/-! ## A run with blocks -/

/-- An iteration with names for its value and key, two cases in a chain and a last one, steps out of the
block, and blocks inside each other. -/
def plainSource : String :=
  "\x7b\x7b#each blobs as |blob name|\x7d\x7d"
    ++ "\x7b\x7b#if blob.version\x7d\x7d\x7b\x7b@root.latest_sha\x7d\x7d"
    ++ "\x7b\x7belse if ../[latest_sha]\x7d\x7d\x7b\x7bname\x7d\x7d"
    ++ "\x7b\x7belse\x7d\x7d-\x7b\x7b/if\x7d\x7d\x7b\x7b/each\x7d\x7d"
    ++ "\x7b\x7b#with blobs\x7d\x7d\x7b\x7b#unless @index\x7d\x7d!\x7b\x7b/unless\x7d\x7d"
    ++ "\x7b\x7b/with\x7d\x7d"

theorem isPlainSource_plainSource : isPlainSource plainSource = true := by decide +kernel

theorem exists_ofSource_plainSource (path : String) :
    ∃ t, ManifestTemplate.ofSource path plainSource = .ok t := by
  have hok : (Template.ofSource plainSource).isOk = true := by decide +kernel
  rw [ManifestTemplate.ofSource]
  cases hbody : Template.ofSource plainSource with
  | ok body => exact ⟨_, rfl⟩
  | error fault =>
    rw [hbody] at hok
    cases hok

theorem plainlyTemplated : config.PlainlyTemplated .owner (files plainSource) := by
  obtain ⟨t, ht⟩ := exists_ofSource_plainSource config.template
  exact ⟨_, plainSource, t, rfl, Text.ofUtf8?_utf8 plainSource, isPlainSource_plainSource, ht⟩

end Sample

/-- A template that goes through records and is rendered over none, under the variable of the revision,
and a run with it. -/
theorem plain_templates_render_sample :
    (∃ t text, ManifestTemplate.ofSource "out" Sample.plainSource = .ok t ∧
      t.render (manifestContext "latest_sha" .empty ⟨"r1", rfl⟩) = .ok text) ∧
    ((∃ w', World.generate .owner Sample.counting Sample.catalog Sample.config
        (.start (Sample.files Sample.plainSource) 0)
        = (.ok (Sample.catalog.records Sample.config [[0], [1]]), w')) ∨
      ∃ fault w', World.generate .owner Sample.counting Sample.catalog Sample.config
        (.start (Sample.files Sample.plainSource) 0) = (.error (.output "out" fault), w')) := by
  obtain ⟨t, ht⟩ := Sample.exists_ofSource_plainSource "out"
  obtain ⟨text, htext⟩ := plain_templates_render.1 "out" Sample.plainSource t ht
    Sample.isPlainSource_plainSource "latest_sha" .empty ⟨"r1", rfl⟩
  exact ⟨⟨t, text, ht, htext⟩, plain_templates_render.2 .owner Sample.counting Sample.catalog
    Sample.config (.start (Sample.files Sample.plainSource) 0) [[0], [1]] 2 Sample.plainlyTemplated
    Sample.answered⟩

end PinnedManifest
