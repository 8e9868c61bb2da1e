import PinnedManifest.Proofs.Generation.Course
import PinnedManifest.Proofs.ManifestTemplate.Digests

/-!
# Proofs/Generation/Difference — a manifest never hides a changed artefact

Two runs about one revision of one catalog ask for the same addresses, and make records that agree but
for the digests of what they were answered.  With a shipped template and distinct names the manifests
differ exactly where those digests do.
-/

namespace PinnedManifest

/-! ## The records of two runs -/

section Records

variable {σ : Type} {catalog : Catalog} {config config' : Config} {fetcher : Fetcher σ}
  {before after : σ} {contents contents' : List (List UInt8)}

/-- The addresses of a run depend on its base address and its revision only. -/
theorem Config.urls_congr (hbase : config'.baseUrl = config.baseUrl)
    (hrevision : config'.revision = config.revision) : config'.urls = config.urls := by
  rw [Config.urls, Config.urls, hbase, hrevision]

/-- And so do the records. -/
theorem Catalog.records_congr (hurls : config'.urls = config.urls) :
    catalog.records config' contents = catalog.records config contents := by
  rw [Catalog.records, Catalog.records, hurls]

/-- There is one answer to each artefact. -/
theorem Catalog.Answered.length_eq (h : catalog.Answered config fetcher before contents after) :
    contents.length = catalog.artifacts.length := by
  simpa using Fetcher.Answers.length h

/-- The records have the names of the artefacts. -/
theorem Catalog.names_records (h : contents.length = catalog.artifacts.length) :
    (catalog.records config contents).names = catalog.artifacts.map (·.name) := by
  rw [Records.names, Catalog.records, List.map_zipWith]
  refine List.ext_getElem (by simp [h]) fun i hi hi' => ?_
  rw [List.getElem_zipWith, List.getElem_map]
  rfl

/-- The records have the digests of the answers. -/
theorem Catalog.digests_records (config : Config) (h : contents.length = catalog.artifacts.length) :
    ((catalog.records config contents).entries.map (·.2)).map (·.sha256)
      = contents.map Digest.of := by
  rw [Catalog.records, List.map_zipWith, List.map_zipWith]
  refine List.ext_getElem (by simp [h]) fun i hi hi' => ?_
  rw [List.getElem_zipWith, List.getElem_map]
  rfl

/-- **The records of two runs agree but for their digests.** -/
theorem Catalog.agree_records (config : Config)
    (h : contents.length = catalog.artifacts.length)
    (h' : contents'.length = catalog.artifacts.length) :
    ManifestTemplate.Layout.Agree ((catalog.records config contents).entries.map (·.2))
      ((catalog.records config contents').entries.map (·.2)) := by
  refine ⟨by simp [Catalog.records, h, h'], fun i r r' hr hr' => ?_⟩
  simp only [Catalog.records, List.map_zipWith, List.getElem?_zipWith_eq_some] at hr hr'
  obtain ⟨d, content, hd, -, rfl⟩ := hr
  obtain ⟨d', content', hd', -, rfl⟩ := hr'
  cases hd.symm.trans hd'
  rfl

end Records

/-- The file that the output's path named holds a text. -/
def Config.Wrote (config : Config) (caller : Files.Caller) (before after : Files.Volume)
    (text : String) : Prop :=
  ∃ e mode, before.entry caller config.output = .ok e ∧
    after.node? (e.place ++ [e.name]) = some (.file mode (Text.utf8 text))

/-- **What a run with a template of the layout writes.** -/
theorem World.wrote_of_generate_ok {σ : Type} {caller : Files.Caller} {fetcher : Fetcher σ}
    {catalog : Catalog} {config : Config} {w u : World σ} {records : Records}
    {t : ManifestTemplate.Layout} (hkey : t.key = catalog.contextKey)
    (hnames : (catalog.artifacts.map (·.name)).Nodup)
    (htemplate : w.files.read caller config.template = .ok (Text.utf8 t.source))
    (h : World.generate caller fetcher catalog config w = (.ok records, u)) :
    ∃ contents, catalog.Answered config fetcher w.network contents u.network ∧
      records = catalog.records config contents ∧
      config.Wrote caller w.files u.files (t.text config.revision (records.entries.map (·.2))) := by
  obtain ⟨template, contents, text, found, e, htemplated, hall, rfl, hrender, -, he, hfiles, -⟩ :=
    World.generate_ok h
  have hparsed : config.Templated caller w.files _ :=
    ⟨_, htemplate, by rw [ManifestTemplate.ofContent, Text.ofUtf8?_utf8]; exact t.parse _⟩
  cases htemplated.unique hparsed
  have hdistinct : (catalog.records config contents).names.Nodup := by
    rwa [Catalog.names_records hall.length_eq]
  rw [← hkey, t.render_eq _ hdistinct] at hrender
  cases hrender
  refine ⟨contents, hall, rfl, e, found.getD Files.newFileMode, he, ?_⟩
  rw [hfiles]
  exact Files.Volume.node?_put (Files.Volume.node?_of_entry he)

namespace Sample

/-! ## Two runs with a shipped template -/

/-- Two artefacts under the variable of a layout. -/
def shippedCatalog (t : ManifestTemplate.Layout) : Catalog where
  name := "sample"
  contextKey := t.key
  remoteDir := ""
  artifacts := [⟨"a", "first", "a.bin", "a", none, none⟩, ⟨"b", "second", "b.bin", "b", none, none⟩]

/-- A template, and no output yet. -/
def shippedFiles (t : ManifestTemplate.Layout) : Files.Volume :=
  ⟨.directory 0o755 [("t", .file 0o644 (Text.utf8 t.source))], []⟩

def shippedConfig : Config := { config with template := "t" }

/-- A byte for the second artefact, and none but zero for any other. -/
def answering (byte : UInt8) : Fetcher Unit := fun url _ =>
  (.ok [if url = "https://h/r1/b.bin" then byte else 0], ())

/-- A new output is written. -/
theorem replaceable (t : ManifestTemplate.Layout) :
    (shippedFiles t).Replaceable .owner "out" none
      ⟨[], 0o755, [("t", .file 0o644 (Text.utf8 t.source))], "out"⟩ where
  mode := rfl
  writable := rfl
  short := by
    -- the names of the other files do not matter
    change (Files.Volume.besidePath ⟨.directory 0o755 [], []⟩ "out"
      (Files.stagedName 0)).utf8ByteSize < Files.Path.lengthLimit
    decide
  overwritable := ⟨rfl, (by decide : Files.Caller.owner.mayChange 0o755 = true), nofun⟩

theorem answeredShipped (t : ManifestTemplate.Layout) (byte : UInt8) :
    (shippedCatalog t).Answered shippedConfig (answering byte) () [[0], [byte]] () := by
  have hfirst : answering byte (shippedConfig.urls.artifact "" "a.bin") () = (.ok [0], ()) :=
    congrArg (fun b => (Except.ok [b], ())) (if_neg (by decide))
  have hsecond : answering byte (shippedConfig.urls.artifact "" "b.bin") () = (.ok [byte], ()) :=
    congrArg (fun b => (Except.ok [b], ())) (if_pos (by decide))
  exact .cons hfirst (.cons hsecond .nil)

theorem shippedRun (t : ManifestTemplate.Layout) (byte : UInt8) :
    ∃ records u, World.generate .owner (answering byte) (shippedCatalog t) shippedConfig
      (.start (shippedFiles t) ()) = (.ok records, u) := by
  have htemplated : shippedConfig.Templated .owner (shippedFiles t) _ :=
    ⟨_, rfl, by rw [ManifestTemplate.ofContent, Text.ofUtf8?_utf8]; exact t.parse _⟩
  have hanswered := answeredShipped t byte
  have hnames : ((shippedCatalog t).records shippedConfig [[0], [byte]]).names.Nodup := by
    rw [Catalog.names_records hanswered.length_eq]
    exact (by decide : ["a", "b"].Nodup)
  exact ⟨_, _, World.Course.generate_eq (.complete htemplated hanswered
    (t.render_eq _ hnames config.revision)
    (Files.Volume.replace_run_eq_ok_iff.mpr ⟨_, _, replaceable t, rfl⟩))⟩

/-- The two answers have different digests. -/
theorem digests_ne : Digest.of [0] ≠ Digest.of [1] := by decide +kernel

end Sample

/-- **A manifest never hides a changed artefact** — two runs that succeed about one revision of one
catalog of distinct names, with a shipped template (`Layout.blobs`, `Layout.wifiFirmware`), write texts of
one length.  The texts are the same exactly when all digests are; each digest stands at one place in
both; and wherever the texts differ there stands a digest that differs. -/
theorem manifests_differ_in_digests {σ σ' : Type} {caller caller' : Files.Caller}
    {fetcher : Fetcher σ} {fetcher' : Fetcher σ'} {catalog : Catalog} {config config' : Config}
    {w u : World σ} {w' u' : World σ'} {records records' : Records} {t : ManifestTemplate.Layout}
    (hkey : t.key = catalog.contextKey) (hnames : (catalog.artifacts.map (·.name)).Nodup)
    (hbase : config'.baseUrl = config.baseUrl) (hrevision : config'.revision = config.revision)
    (htemplate : w.files.read caller config.template = .ok (Text.utf8 t.source))
    (htemplate' : w'.files.read caller' config'.template = .ok (Text.utf8 t.source))
    (h : World.generate caller fetcher catalog config w = (.ok records, u))
    (h' : World.generate caller' fetcher' catalog config' w' = (.ok records', u')) :
    ∃ (contents contents' : List (List UInt8)) (text text' : String) (start : Nat → Nat),
      catalog.Answered config fetcher w.network contents u.network ∧
      catalog.Answered config' fetcher' w'.network contents' u'.network ∧
      config.Wrote caller w.files u.files text ∧
      config'.Wrote caller' w'.files u'.files text' ∧
      -- the texts
      text.length = text'.length ∧
      (Text.utf8 text = Text.utf8 text' ↔ contents.map Digest.of = contents'.map Digest.of) ∧
      -- the places of the digests
      (∀ i < catalog.artifacts.length,
        t.digestStart config.revision (records.entries.map (·.2)) i = start i ∧
        t.digestStart config'.revision (records'.entries.map (·.2)) i = start i) ∧
      (∀ (i : Nat) (d d' : Digest),
        (contents.map Digest.of)[i]? = some d → (contents'.map Digest.of)[i]? = some d' →
        (text.toList.drop (start i)).take 64 = d.text.toList ∧
        (text'.toList.drop (start i)).take 64 = d'.text.toList ∧
        (d.text = d'.text ↔ d = d')) ∧
      -- the places of the differences
      ∀ k, text.toList[k]? ≠ text'.toList[k]? → ∃ (i : Nat) (d d' : Digest),
        (contents.map Digest.of)[i]? = some d ∧ (contents'.map Digest.of)[i]? = some d' ∧
        d ≠ d' ∧ start i ≤ k ∧ k < start i + 64 := by
  obtain ⟨contents, hall, rfl, hwrote⟩ := World.wrote_of_generate_ok hkey hnames htemplate h
  obtain ⟨contents', hall', rfl, hwrote'⟩ := World.wrote_of_generate_ok hkey hnames htemplate' h'
  rw [Catalog.records_congr (Config.urls_congr hbase hrevision), hrevision] at hwrote' ⊢
  have hagree := Catalog.agree_records config hall.length_eq hall'.length_eq
  have hdigests := Catalog.digests_records config hall.length_eq
  have hdigests' := Catalog.digests_records config hall'.length_eq
  have hlen : ((catalog.records config contents).entries.map (·.2)).length
      = catalog.artifacts.length := by rw [List.length_map]; exact Catalog.size_records hall
  refine ⟨contents, contents', ?_⟩
  rw [← hdigests, ← hdigests']
  refine ⟨_, _, _, hall, hall', hwrote, hwrote', ?length, ?same,
    fun i hi => ⟨rfl, t.digestStart_congr config.revision hagree (hlen ▸ hi)⟩,
    fun i d d' hd hd' => ?shown, fun k hk => ?differ⟩
  case length =>
    rw [← String.length_toList, ← String.length_toList]
    exact (t.differAt_text config.revision hagree).length_eq
  case same => exact ⟨fun h => (t.text_eq_iff config.revision hagree).mp (Text.utf8_injective h),
    fun h => congrArg Text.utf8 ((t.text_eq_iff config.revision hagree).mpr h)⟩
  case shown =>
    obtain ⟨r, hr, rfl⟩ := Option.map_eq_some_iff.mp (List.getElem?_map ▸ hd)
    obtain ⟨r', hr', rfl⟩ := Option.map_eq_some_iff.mp (List.getElem?_map ▸ hd')
    have hstart := t.digestStart_congr config.revision hagree (List.getElem?_eq_some_iff.mp hr).1
    have hshown' := t.digest_shown config.revision hr'
    rw [hstart] at hshown'
    exact ⟨t.digest_shown config.revision hr, hshown', Digest.text_injective, congrArg Digest.text⟩
  case differ =>
    obtain ⟨i, r, r', hr, hr', hne, hin⟩ := (t.differAt_text config.revision hagree).of_ne k hk
    refine ⟨i, r.sha256, r'.sha256, ?_, ?_, hne, hin⟩
    · rw [List.getElem?_map, hr, Option.map_some]
    · rw [List.getElem?_map, hr', Option.map_some]

/-- Two runs with the template for the signed blobs, whose second artefact is answered with different
bytes: the digests differ, and so do the texts, within the sixty-four characters of that digest only. -/
theorem manifests_differ_in_digests_sample :
    ∃ records records' u u',
      World.generate .owner (Sample.answering 0) (Sample.shippedCatalog .blobs) Sample.shippedConfig
        (.start (Sample.shippedFiles .blobs) ()) = (.ok records, u) ∧
      World.generate .owner (Sample.answering 1) (Sample.shippedCatalog .blobs) Sample.shippedConfig
        (.start (Sample.shippedFiles .blobs) ()) = (.ok records', u') ∧
      Digest.of [0] ≠ Digest.of [1] ∧
      ∃ (text text' : String) (start : Nat),
        Sample.shippedConfig.Wrote .owner (Sample.shippedFiles .blobs) u.files text ∧
        Sample.shippedConfig.Wrote .owner (Sample.shippedFiles .blobs) u'.files text' ∧
        text.length = text'.length ∧
        (text.toList.drop start).take 64 = (Digest.of [0]).text.toList ∧
        (text'.toList.drop start).take 64 = (Digest.of [1]).text.toList ∧
        (∃ k : Nat, text.toList[k]? ≠ text'.toList[k]?) ∧
        ∀ k : Nat, text.toList[k]? ≠ text'.toList[k]? → start ≤ k ∧ k < start + 64 := by
  obtain ⟨records, u, h⟩ := Sample.shippedRun .blobs 0
  obtain ⟨records', u', h'⟩ := Sample.shippedRun .blobs 1
  have hnames : ((Sample.shippedCatalog .blobs).artifacts.map (·.name)).Nodup := by decide
  obtain ⟨_, _, text, text', start, hall, hall', hwrote, hwrote', hlength, hsame, -, hshown, hdiffer⟩ :=
    manifests_differ_in_digests (t := .blobs) rfl hnames rfl rfl rfl rfl h h'
  cases hall.unique (Sample.answeredShipped .blobs 0)
  cases hall'.unique (Sample.answeredShipped .blobs 1)
  have hne := Sample.digests_ne
  obtain ⟨hfirst, hsecond, -⟩ := hshown 1 (Digest.of [0]) (Digest.of [1]) rfl rfl
  refine ⟨records, records', u, u', h, h', hne, text, text', start 1, hwrote, hwrote', hlength, hfirst,
    hsecond, ?_, fun k hk => ?_⟩
  · -- texts that agree everywhere would have the same digests
    by_contra hagree
    have htext : text = text' :=
      String.toList_inj.mp (List.ext_getElem? fun k => not_not.mp (not_exists.mp hagree k))
    have hdigests := hsame.mp (by rw [htext])
    simp only [List.map_cons, List.map_nil, List.cons.injEq, and_true, true_and] at hdigests
    exact hne hdigests
  · -- the first digest is the same in both
    obtain ⟨i, d, d', hd, hd', hdne, hin⟩ := hdiffer k hk
    match i, hd, hd' with
    | 0, hd, hd' =>
      rw [List.map_cons, List.getElem?_cons_zero, Option.some.injEq] at hd hd'
      exact absurd (hd.symm.trans hd') hdne
    | 1, _, _ => exact hin

end PinnedManifest
