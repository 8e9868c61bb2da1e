import PinnedManifest.Proofs.Generation.Course
import PinnedManifest.Proofs.Template.Writing

/-!
# Proofs/Generation/Success — what a run that succeeds has fetched, returned and written

The requests are the catalog's addresses in order, each record joins a descriptor with the bytes of its
own request, and the output holds the template found at the start, rendered over the records returned.
-/

namespace PinnedManifest

/-- **A run that succeeds** — every artefact was asked for once, in order, and answered in turn; each
is recorded with its own address and the digest of its own bytes; and the entry that the output's path
names is a file with the text of the template, as it was at the start, over these records. -/
theorem generate_ok_sound {σ : Type} {caller : Files.Caller} {fetcher : Fetcher σ}
    {catalog : Catalog} {config : Config} {w w' : World σ} {records : Records}
    (h : World.generate caller fetcher catalog config w = (.ok records, w')) :
    ∃ (urls : PinnedUrls) (contents : List (List UInt8)) (source text : String)
      (content : List UInt8) (template : ManifestTemplate) (e : Files.Volume.Entry)
      (found : Option Files.Mode),
      urls = .ofBase config.baseUrl config.revision ∧
      -- the requests
      w'.fetched
        = w.fetched ++ catalog.artifacts.map (fun d => urls.artifact catalog.remoteDir d.remotePath) ∧
      Fetcher.Answers fetcher
        (catalog.artifacts.map fun d => urls.artifact catalog.remoteDir d.remotePath) w.network contents
        w'.network ∧
      -- the records
      records.size = catalog.artifacts.length ∧
      records.entries = List.zipWith (fun d content => (d.name,
        { path := d.localPath
          remotePath := d.remotePath
          version := d.version
          sha256 := Digest.of content
          description := d.description
          url := urls.artifact catalog.remoteDir d.remotePath
          docUrl := d.docPath.map urls.doc })) catalog.artifacts contents ∧
      -- the output
      w.files.read caller config.template = .ok content ∧
      Text.ofUtf8? content = some source ∧
      ManifestTemplate.ofSource config.template source = .ok template ∧
      template.render (manifestContext catalog.contextKey records config.revision) = .ok text ∧
      w.files.entry caller config.output = .ok e ∧
      w.files.modeAt? caller config.output = .ok found ∧
      w'.files.node? (e.place ++ [e.name])
        = some (.file (found.getD Files.newFileMode) (Text.utf8 text)) := by
  obtain ⟨template, contents, text, found, e, ⟨content, hread, hof⟩, hall, rfl, hrender, hfound,
    he, hfiles, hfetched⟩ := World.generate_ok h
  obtain ⟨source, hsource, hparse⟩ : ∃ source, Text.ofUtf8? content = some source ∧
      ManifestTemplate.ofSource config.template source = .ok template := by
    rw [ManifestTemplate.ofContent] at hof
    cases hsource : Text.ofUtf8? content with
    | none => simp [hsource] at hof
    | some source => exact ⟨source, rfl, by simpa [hsource] using hof⟩
  refine ⟨config.urls, contents, source, text, content, template, e, found, rfl, hfetched, hall,
    Catalog.size_records hall, rfl, hread, hsource, hparse, hrender, he, hfound, ?_⟩
  rw [hfiles]
  exact Files.Volume.node?_put (Files.Volume.node?_of_entry he)

namespace Sample

/-! ## A manifest of one digest -/

/-- A template that shows the digest of the last artefact called `a`. -/
def digestSource : String := "sha256: \x7b\x7bblobs.a.sha256\x7d\x7d"

/-- What it spells. -/
def digestTemplate : ManifestTemplate where
  path := "out"
  body := [.text "sha256: ",
    .value ⟨1, 9⟩ (.path ⟨"blobs.a.sha256", false, false, 0, ["blobs", "a", "sha256"]⟩)]

theorem digestTemplated : config.Templated .owner (files digestSource) digestTemplate := by
  refine ⟨Text.utf8 digestSource, rfl, ?_⟩
  rw [ManifestTemplate.ofContent, Text.ofUtf8?_utf8]
  cbv

/-- The last of the two records is the one that is shown. -/
theorem digestRendered (first second : List UInt8) :
    digestTemplate.render (catalog.context config [first, second])
      = .ok ("sha256: " ++ (Digest.of second).text) := by
  have hrender : Template.render digestTemplate.path digestTemplate.body
      (catalog.context config [first, second])
        = .ok ("sha256: " ++ ((Digest.of second).text ++ "")) :=
    Template.render_of_writes fun _ => .cons (.text rfl _)
      (.cons (.value (v := some (.string (Digest.of second).text)) rfl rfl rfl _) .nil)
  rw [String.append_empty] at hrender
  rw [ManifestTemplate.render, hrender]

/-- The file may be replaced, whatever is in it. -/
theorem replaceableOut (content : String) :
    (files content).Replaceable .owner "out" (some 0o600)
      ⟨[], 0o755, [("out", .file 0o600 (Text.utf8 content))], "out"⟩ where
  mode := rfl
  writable := rfl
  short := by
    change (Files.Volume.besidePath ⟨.directory 0o755 [], []⟩ "out"
      (Files.stagedName 0)).utf8ByteSize < Files.Path.lengthLimit
    decide
  overwritable := ⟨rfl, (by decide : Files.Caller.owner.mayChange 0o755 = true), nofun⟩

/-- From a network that still answers twice, the run is complete. -/
theorem digestRun :
    ∃ w', World.generate .owner counting catalog config (.start (files digestSource) 0)
      = (.ok (catalog.records config [[0], [1]]), w') :=
  ⟨_, World.Course.generate_eq (.complete digestTemplated answered (digestRendered _ _)
    (Files.Volume.replace_run_eq_ok_iff.mpr ⟨_, _, replaceableOut _, rfl⟩))⟩

/-- The digest of the byte one. -/
theorem digestOne : (Digest.of [1]).text
    = "4bf5122f344554c53bde2ebb8cd2b7e3d1600ad631c385a5d7cce23c7785459a" := by decide +kernel

end Sample

/-- Two artefacts of one name at one address, answered with different bytes; the template, which the
manifest replaces, shows the digest of the last. -/
theorem generate_ok_sound_sample :
    ∃ records w', World.generate .owner Sample.counting Sample.catalog Sample.config
        (.start (Sample.files Sample.digestSource) 0) = (.ok records, w') ∧
      w'.fetched = ["https://h/r1/a.bin", "https://h/r1/a.bin"] ∧
      records.entries = [
        ("a", ⟨"a", "a.bin", none, Digest.of [0], "first", "https://h/r1/a.bin", none⟩),
        ("a", ⟨"a", "a.bin", none, Digest.of [1], "second", "https://h/r1/a.bin", none⟩)] ∧
      w'.files.node? ["out"] = some (.file 0o600 (Text.utf8
        "sha256: 4bf5122f344554c53bde2ebb8cd2b7e3d1600ad631c385a5d7cce23c7785459a")) := by
  obtain ⟨w', hrun⟩ := Sample.digestRun
  obtain ⟨_, contents, _, text, content, template, e, found, rfl, hfetched, hanswers, -, hentries,
    hread, hsource, hparse, hrender, he, hfound, hnode⟩ := generate_ok_sound hrun
  cases hanswers.unique (.cons rfl (.cons rfl .nil) : Fetcher.Answers Sample.counting _ 0 [[0], [1]] 2)
  have htemplate : Sample.config.Templated .owner (Sample.files Sample.digestSource) template := by
    refine ⟨content, hread, ?_⟩
    rw [ManifestTemplate.ofContent, hsource]
    exact hparse
  cases Sample.digestTemplated.unique htemplate
  cases (Sample.digestRendered _ _).symm.trans hrender
  cases (Sample.replaceableOut _).overwritable.entry.symm.trans he
  cases (Sample.replaceableOut _).mode.symm.trans hfound
  have haddress : (PinnedUrls.ofBase Sample.config.baseUrl Sample.config.revision).artifact
      "" "a.bin" = "https://h/r1/a.bin" := by decide
  refine ⟨_, w', hrun, ?_, ?_, ?_⟩
  · rw [hfetched]
    simp [World.start, Sample.catalog, haddress]
  · rw [hentries]
    simp [Sample.catalog, haddress]
  · rw [Sample.digestOne] at hnode
    exact hnode

end PinnedManifest
