import Mathlib
import PinnedManifest.Command
import PinnedManifest.Proofs.Files.Replaceable
import PinnedManifest.Proofs.Generation.Fetching

/-!
# Proofs/Generation/Course — where a run stops, and what it has done by then

`World.Course` lists the ways a run can go, one for each stage at which it can stop and one for the
end, each with the error reported and the whole world left behind.  `generate_eq_iff` says that these
are the ways a run goes, no others and in no other order.  Of the files, a run that fails changes
nothing (`files_of_generate_error`), and a run that succeeds one entry (`generate_ok`).
-/

namespace PinnedManifest

variable {σ : Type} {caller : Files.Caller} {fetcher : Fetcher σ}

namespace Config

/-- The addresses of a run. -/
def urls (config : Config) : PinnedUrls := .ofBase config.baseUrl config.revision

/-- The line said when a run starts on its artefacts. -/
def startLine (config : Config) (catalog : Catalog) : Log.Entry :=
  ⟨.info, "Generating " ++ catalog.name ++ " manifest at revision " ++ config.revision.text⟩

/-- The line said when a run has replaced its output. -/
def endLine (config : Config) (count : Nat) : Log.Entry :=
  ⟨.info, "Wrote " ++ toString count ++ " record(s) to " ++ config.output⟩

end Config

namespace World

/-- The world after a run has started on its artefacts. -/
def announced (w : World σ) (catalog : Catalog) (config : Config) : World σ :=
  { w with log := w.log ++ [config.startLine catalog] }

/-- The world after a run has fetched all its artefacts. -/
def gathered (w : World σ) (catalog : Catalog) (config : Config) (contents : List (List UInt8))
    (network : σ) : World σ :=
  (w.announced catalog config).afterFetching config.urls catalog.remoteDir catalog.artifacts contents
    network

/-- The world after a run has replaced its output. -/
def concluded (w : World σ) (config : Config) (records : Records) (files : Files.Volume) : World σ :=
  { w with files := files, log := w.log ++ [config.endLine records.size] }

end World

/-- The records of a catalog whose artefacts have the given contents. -/
def Catalog.records (catalog : Catalog) (config : Config) (contents : List (List UInt8)) : Records :=
  ⟨List.zipWith (config.urls.entry catalog.remoteDir) catalog.artifacts contents⟩

/-- What a template is rendered over in a run. -/
def Catalog.context (catalog : Catalog) (config : Config) (contents : List (List UInt8)) :
    Json.Value :=
  manifestContext catalog.contextKey (catalog.records config contents) config.revision

/-- The artefacts of a catalog are all answered, with the given contents. -/
def Catalog.Answered (catalog : Catalog) (config : Config) (fetcher : Fetcher σ) (before : σ)
    (contents : List (List UInt8)) (after : σ) : Prop :=
  Fetcher.Answers fetcher (catalog.artifacts.map (config.urls.ofDescriptor catalog.remoteDir)) before
    contents after

/-- One record for each artefact. -/
theorem Catalog.size_records {catalog : Catalog} {config : Config} {before after : σ}
    {contents : List (List UInt8)}
    (h : catalog.Answered config fetcher before contents after) :
    (catalog.records config contents).size = catalog.artifacts.length := by
  have hlen : contents.length = catalog.artifacts.length := by
    simpa using Fetcher.Answers.length h
  rw [Records.size, Catalog.records, List.length_zipWith, hlen, Nat.min_self]

/-- The template of a run is there, and is one. -/
def Config.Templated (config : Config) (caller : Files.Caller) (files : Files.Volume)
    (template : ManifestTemplate) : Prop :=
  ∃ content, files.read caller config.template = .ok content ∧
    ManifestTemplate.ofContent config.template content = .ok template

/-- A run has one template. -/
theorem Config.Templated.unique {config : Config} {files : Files.Volume} {t t' : ManifestTemplate}
    (h : config.Templated caller files t) (h' : config.Templated caller files t') : t = t' := by
  obtain ⟨content, hread, hof⟩ := h
  obtain ⟨content', hread', hof'⟩ := h'
  cases hread.symm.trans hread'
  cases hof.symm.trans hof'
  rfl

/-- **The ways a run can go**, from a world to a result and the world it leaves. -/
inductive World.Course (caller : Files.Caller) (fetcher : Fetcher σ) (catalog : Catalog)
    (config : Config) (w : World σ) : Except RunError Records → World σ → Prop
  /-- The template cannot be read: nothing is fetched or said. -/
  | unreadable {fault : Files.Fault} :
      w.files.read caller config.template = .error fault →
      Course caller fetcher catalog config w
        (.error (.template (.unreadable config.template fault))) w
  /-- What was read is no template: nothing is fetched or said. -/
  | malformed {content : List UInt8} {e : TemplateError} :
      w.files.read caller config.template = .ok content →
      ManifestTemplate.ofContent config.template content = .error e →
      Course caller fetcher catalog config w (.error (.template e)) w
  /-- An artefact is the first that cannot be fetched: those behind it are not asked for. -/
  | missing {template : ManifestTemplate} {before after : List Descriptor} {d : Descriptor}
      {contents : List (List UInt8)} {network network' : σ} {cause : DownloadError} :
      config.Templated caller w.files template →
      catalog.artifacts = before ++ d :: after →
      Fetcher.Answers fetcher (before.map (config.urls.ofDescriptor catalog.remoteDir)) w.network
        contents network →
      fetcher (config.urls.ofDescriptor catalog.remoteDir d) network = (.error cause, network') →
      Course caller fetcher catalog config w (.error (.retrieval d.name cause))
        (((w.announced catalog config).afterFetching config.urls catalog.remoteDir before contents
          network).afterFailing config.urls catalog.remoteDir d network')
  /-- The template fails on the records: nothing is written. -/
  | unrendered {template : ManifestTemplate} {contents : List (List UInt8)} {network : σ}
      {e : TemplateError} :
      config.Templated caller w.files template →
      catalog.Answered config fetcher w.network contents network →
      template.render (catalog.context config contents) = .error e →
      Course caller fetcher catalog config w (.error (.template e))
        (w.gathered catalog config contents network)
  /-- The output cannot be replaced: the files stay as they were. -/
  | unwritten {template : ManifestTemplate} {contents : List (List UInt8)} {network : σ}
      {text : String} {fault : Files.Fault} :
      config.Templated caller w.files template →
      catalog.Answered config fetcher w.network contents network →
      template.render (catalog.context config contents) = .ok text →
      ((Files.Volume.disk caller).replace config.output (Text.utf8 text)).run w.files
        = (.error fault, w.files) →
      Course caller fetcher catalog config w (.error (.output config.output fault))
        (w.gathered catalog config contents network)
  /-- The output is replaced. -/
  | complete {template : ManifestTemplate} {contents : List (List UInt8)} {network : σ}
      {text : String} {files : Files.Volume} :
      config.Templated caller w.files template →
      catalog.Answered config fetcher w.network contents network →
      template.render (catalog.context config contents) = .ok text →
      ((Files.Volume.disk caller).replace config.output (Text.utf8 text)).run w.files
        = (.ok (), files) →
      Course caller fetcher catalog config w (.ok (catalog.records config contents))
        ((w.gathered catalog config contents network).concluded config
          (catalog.records config contents) files)

namespace Host

/-! ## The stages in a world -/

theorem loadTemplate_run (caller : Files.Caller) (fetcher : Fetcher σ) (path : String)
    (w : World σ) :
    ((World.host caller fetcher).loadTemplate path).run w =
      match w.files.read caller path with
      | .error fault => (.error (.template (.unreadable path fault)), w)
      | .ok content =>
        match ManifestTemplate.ofContent path content with
        | .ok template => (.ok template, w)
        | .error e => (.error (.template e), w) := by
  rw [loadTemplate, run_bind, run_attempt]
  simp only [World.host]
  cases w.files.read caller path with
  | error fault => rfl
  | ok content =>
    simp only
    cases ManifestTemplate.ofContent path content <;> rfl

theorem run_replace (caller : Files.Caller) (fetcher : Fetcher σ)
    (blame : Files.Fault → RunError) (path : String) (content : List UInt8) (w : World σ) :
    (attempt blame ((World.host caller fetcher).replace path content)).run w =
      match ((Files.Volume.disk caller).replace path content).run w.files with
      | (.ok (), files) => (.ok (), { w with files := files })
      | (.error fault, files) => (.error (blame fault), { w with files := files }) := by
  rw [run_attempt]
  simp only [World.host]
  rcases ((Files.Volume.disk caller).replace path content).run w.files with ⟨_ | _, _⟩ <;> rfl

theorem renderManifest_run (caller : Files.Caller) {catalog : Catalog} {config : Config}
    {contents : List (List UInt8)} {network : σ} {w : World σ} (template : ManifestTemplate)
    (h : catalog.Answered config fetcher w.network contents network) :
    ((World.host caller fetcher).renderManifest catalog config.urls template).run w =
      match template.render (catalog.context config contents) with
      | .ok text =>
        (.ok (catalog.records config contents, text),
          w.afterFetching config.urls catalog.remoteDir catalog.artifacts contents network)
      | .error e =>
        (.error (.template e),
          w.afterFetching config.urls catalog.remoteDir catalog.artifacts contents network) := by
  rw [renderManifest, run_bind, resolve, resolveAll_run caller h]
  simp only [Records.empty, List.nil_append]
  change (match template.render (catalog.context config contents) with
    | .ok text => _
    | .error e => _ : ExceptT RunError (StateM (World σ)) (Records × String)).run _ = _
  cases template.render (catalog.context config contents) <;> rfl

/-- **A run whose template is one** goes on with its artefacts. -/
theorem generate_run_of_templated {catalog : Catalog} {config : Config} {w : World σ}
    {template : ManifestTemplate} (h : config.Templated caller w.files template) :
    ((World.host caller fetcher).generate catalog config).run w =
      match ((World.host caller fetcher).renderManifest catalog config.urls template).run
          (w.announced catalog config) with
      | (.ok (records, text), w') =>
        match ((Files.Volume.disk caller).replace config.output (Text.utf8 text)).run w'.files with
        | (.ok (), files) => (.ok records, w'.concluded config records files)
        | (.error fault, files) =>
          (.error (.output config.output fault), { w' with files := files })
      | (.error e, w') => (.error e, w') := by
  obtain ⟨content, hread, hof⟩ := h
  rw [generate, run_bind, loadTemplate_run, hread]
  simp only [hof, run_bind, run_say, World.announced, Config.urls, Config.startLine]
  rcases ((World.host caller fetcher).renderManifest catalog
    (.ofBase config.baseUrl config.revision) template).run _ with ⟨e | ⟨records, text⟩, w'⟩
  · rfl
  · simp only [run_replace]
    rcases ((Files.Volume.disk caller).replace config.output (Text.utf8 text)).run w'.files with
      ⟨_ | _, _⟩ <;> rfl

end Host

namespace World

variable {catalog : Catalog} {config : Config} {w w' : World σ} {result : Except RunError Records}

/-- Every way is the way of the run. -/
theorem Course.generate_eq (h : Course caller fetcher catalog config w result w') :
    World.generate caller fetcher catalog config w = (result, w') := by
  rw [World.generate]
  cases h with
  | unreadable hread => rw [Host.generate, run_bind, Host.loadTemplate_run, hread]
  | malformed hread hof => simp only [Host.generate, run_bind, Host.loadTemplate_run, hread, hof]
  | missing htemplate hcatalog hbefore hd =>
    rw [Host.generate_run_of_templated htemplate, Host.renderManifest, run_bind, Host.resolve,
      hcatalog, Host.resolveAll_run_error caller (w := w.announced catalog config) hbefore hd]
  | unrendered htemplate hall hrender =>
    rw [Host.generate_run_of_templated htemplate,
      Host.renderManifest_run caller (w := w.announced catalog config) _ hall, hrender]
    rfl
  | unwritten htemplate hall hrender hwrite =>
    rw [Host.generate_run_of_templated htemplate,
      Host.renderManifest_run caller (w := w.announced catalog config) _ hall, hrender]
    simp only [afterFetching, announced, hwrite]
    rfl
  | complete htemplate hall hrender hwrite =>
    rw [Host.generate_run_of_templated htemplate,
      Host.renderManifest_run caller (w := w.announced catalog config) _ hall, hrender]
    simp only [afterFetching, announced, hwrite]
    rfl

/-- **A run goes one of the ways** — the stages that would stop it are asked in their order. -/
theorem Course.total (caller : Files.Caller) (fetcher : Fetcher σ) (catalog : Catalog)
    (config : Config) (w : World σ) :
    ∃ result w', Course caller fetcher catalog config w result w' := by
  rcases hread : w.files.read caller config.template with fault | content
  · exact ⟨_, _, .unreadable hread⟩
  rcases hof : ManifestTemplate.ofContent config.template content with e | template
  · exact ⟨_, _, .malformed hread hof⟩
  have htemplate : config.Templated caller w.files template := ⟨content, hread, hof⟩
  rcases Fetcher.answers_or_fails fetcher (config.urls.ofDescriptor catalog.remoteDir)
    catalog.artifacts w.network with
    ⟨contents, network, hall⟩ |
      ⟨before, d, after, contents, network, cause, network', hcatalog, hbefore, hd⟩
  · rcases hrender : template.render (catalog.context config contents) with e | text
    · exact ⟨_, _, .unrendered htemplate hall hrender⟩
    rcases hwrite : ((Files.Volume.disk caller).replace config.output (Text.utf8 text)).run w.files with
      ⟨fault | _, files⟩
    · have hsame := Files.Volume.replace_run_error hwrite
      subst hsame
      exact ⟨_, _, .unwritten htemplate hall hrender hwrite⟩
    · exact ⟨_, _, .complete htemplate hall hrender hwrite⟩
  · exact ⟨_, _, .missing htemplate hcatalog hbefore hd⟩

/-- **What a run does is its way.** -/
theorem generate_eq_iff :
    World.generate caller fetcher catalog config w = (result, w') ↔
      Course caller fetcher catalog config w result w' := by
  refine ⟨fun h => ?_, Course.generate_eq⟩
  obtain ⟨result', w'', hcourse⟩ := Course.total caller fetcher catalog config w
  have heq := hcourse.generate_eq.symm.trans h
  cases heq
  exact hcourse

/-! ## The artefacts asked for -/

/-- **What a run has asked for** — the artefacts of a front of the catalog, which were answered, and at
most one more, which was not and stopped the run. -/
theorem Course.asked (h : Course caller fetcher catalog config w result w') :
    ∃ (answered failed : List Descriptor) (contents : List (List UInt8)) (network : σ),
      answered ++ failed <+: catalog.artifacts ∧
      w'.fetched = w.fetched ++ (answered ++ failed).map (config.urls.ofDescriptor catalog.remoteDir) ∧
      Fetcher.Answers fetcher (answered.map (config.urls.ofDescriptor catalog.remoteDir)) w.network
        contents network ∧
      (failed = [] ∧ w'.network = network ∨
        ∃ d cause, failed = [d] ∧ result = .error (.retrieval d.name cause) ∧
          fetcher (config.urls.ofDescriptor catalog.remoteDir d) network = (.error cause, w'.network)) ∧
      ∀ records, result = .ok records → answered = catalog.artifacts := by
  have hfails (e : RunError) (records : Records) (answered : List Descriptor)
      (hok : Except.error e = Except.ok records) : answered = catalog.artifacts := by cases hok
  cases h with
  | unreadable =>
    exact ⟨[], [], [], _, List.nil_prefix, by simp, .nil, .inl ⟨rfl, rfl⟩, fun _ => hfails _ _ _⟩
  | malformed =>
    exact ⟨[], [], [], _, List.nil_prefix, by simp, .nil, .inl ⟨rfl, rfl⟩, fun _ => hfails _ _ _⟩
  | @missing template before after d contents network network' cause _ hsplit hbefore hd =>
    refine ⟨before, [d], contents, network, ⟨after, by simp [hsplit]⟩, ?_, hbefore,
      .inr ⟨d, cause, rfl, rfl, hd⟩, fun _ => hfails _ _ _⟩
    simp [afterFailing, afterFetching, announced]
  | unrendered _ hall _ =>
    exact ⟨_, [], _, _, by simp, by simp [gathered, afterFetching, announced], hall,
      .inl ⟨rfl, rfl⟩, fun _ => hfails _ _ _⟩
  | unwritten _ hall _ _ =>
    exact ⟨_, [], _, _, by simp, by simp [gathered, afterFetching, announced], hall,
      .inl ⟨rfl, rfl⟩, fun _ => hfails _ _ _⟩
  | complete _ hall _ _ =>
    exact ⟨_, [], _, _, by simp, by simp [concluded, gathered, afterFetching, announced], hall,
      .inl ⟨rfl, rfl⟩, fun _ _ => rfl⟩

/-! ## The files -/

/-- **A run that fails leaves the files as they were.** -/
theorem files_of_generate_error {e : RunError}
    (h : World.generate caller fetcher catalog config w = (.error e, w')) : w'.files = w.files := by
  cases generate_eq_iff.mp h <;> rfl

/-- **A run that succeeds** has its template's text over its records in the entry that the output's
path names, with the mode found there. -/
theorem generate_ok {records : Records}
    (h : World.generate caller fetcher catalog config w = (.ok records, w')) :
    ∃ template contents text found e,
      config.Templated caller w.files template ∧
      catalog.Answered config fetcher w.network contents w'.network ∧
      records = catalog.records config contents ∧
      template.render (manifestContext catalog.contextKey records config.revision) = .ok text ∧
      w.files.modeAt? caller config.output = .ok found ∧
      w.files.entry caller config.output = .ok e ∧
      w'.files
        = w.files.put e.place e.name (.file (found.getD Files.newFileMode) (Text.utf8 text)) ∧
      w'.fetched = w.fetched ++ catalog.artifacts.map (config.urls.ofDescriptor catalog.remoteDir) := by
  cases generate_eq_iff.mp h with
  | @complete template contents network text files htemplate hall hrender hwrite =>
    obtain ⟨found, e, hcan, hfiles⟩ := Files.Volume.replace_run_eq_ok_iff.mp hwrite
    exact ⟨template, contents, text, found, e, htemplate, hall, rfl, hrender, hcan.mode,
      hcan.overwritable.entry, hfiles, rfl⟩

end World

namespace Command

/-! ## The check of the revision in front -/

variable {catalog : Catalog} {s : CommandLine.Settings} {w w' : World σ}
  {result : Except RunError Unit}

/-- **The ways a command's run can go**: its revision is refused, or the run of its configuration goes
one of its ways. -/
inductive Course (caller : Files.Caller) (fetcher : Fetcher σ) (catalog : Catalog)
    (s : CommandLine.Settings) (w : World σ) : Except RunError Unit → World σ → Prop
  /-- The revision is refused: nothing is read, fetched, written or said. -/
  | refused {r : Revision.Rejection} :
      s.config = .error r →
      Course caller fetcher catalog s w (.error (.invalidRevision r)) w
  /-- The revision is one, and the run goes its way. -/
  | started {config : Config} {result : Except RunError Records} {w' : World σ} :
      s.config = .ok config →
      World.Course caller fetcher catalog config w result w' →
      Course caller fetcher catalog s w (result.map fun _ => ()) w'

/-- Settings are refused with their revision. -/
theorem config_of_refused {r : Revision.Rejection} (h : Revision.ofText s.commit = .error r) :
    s.config = .error r := by
  rw [CommandLine.Settings.config, h]
  rfl

/-- A refused revision stops a command on every host. -/
theorem runOn_of_refused {m : Type → Type} [Monad m] (host : Host m) {r : Revision.Rejection}
    (h : s.config = .error r) : runOn host catalog s = throw (.invalidRevision r) := by
  rw [runOn, h]

/-- Settings that are not refused start a run. -/
theorem runOn_of_config {config : Config} (h : s.config = .ok config) :
    (runOn (World.host caller fetcher) catalog s).run w =
      match World.generate caller fetcher catalog config w with
      | (result, w') => (result.map fun _ => (), w') := by
  rw [runOn, h]
  simp only [run_bind, World.generate]
  rcases ((World.host caller fetcher).generate catalog config).run w with ⟨_ | _, _⟩ <;> rfl

/-- Every way is the way of the command's run. -/
theorem Course.runOn_eq (h : Course caller fetcher catalog s w result w') :
    (runOn (World.host caller fetcher) catalog s).run w = (result, w') := by
  cases h with
  | refused hs => rw [runOn_of_refused _ hs, run_throw]
  | started hs hcourse => rw [runOn_of_config hs, hcourse.generate_eq]

/-- **What a command's run does is its way.** -/
theorem runOn_eq_iff :
    (runOn (World.host caller fetcher) catalog s).run w = (result, w') ↔
      Course caller fetcher catalog s w result w' := by
  refine ⟨fun h => ?_, Course.runOn_eq⟩
  rcases hs : s.config with r | config
  · have hcourse : Course caller fetcher catalog s w (.error (.invalidRevision r)) w := .refused hs
    have heq := hcourse.runOn_eq.symm.trans h
    cases heq
    exact .refused hs
  · obtain ⟨result', w'', hcourse⟩ := World.Course.total caller fetcher catalog config w
    have heq := (Course.started hs hcourse).runOn_eq.symm.trans h
    cases heq
    exact .started hs hcourse

/-- **A command's run that fails leaves the files as they were.** -/
theorem files_of_runOn_error {e : RunError}
    (h : (runOn (World.host caller fetcher) catalog s).run w = (.error e, w')) :
    w'.files = w.files := by
  rw [runOn_eq_iff] at h
  generalize hresult : (Except.error e : Except RunError Unit) = result at h
  cases h with
  | refused _ => rfl
  | @started _ result _ _ hcourse =>
    cases result with
    | error e' => exact World.files_of_generate_error hcourse.generate_eq
    | ok records => cases hresult

end Command

namespace Sample

/-! ## A small run

One file is both the template and the output, and two artefacts of one name lie at one address. -/

/-- A template that shows the revision. -/
def source : String := "v \x7b\x7blatest_sha\x7d\x7d"

/-- What the template spells. -/
def template : ManifestTemplate where
  path := "out"
  body := [.text "v ", .value ⟨1, 3⟩ (.path ⟨"latest_sha", false, false, 0, ["latest_sha"]⟩)]

def files (content : String) : Files.Volume :=
  ⟨.directory 0o755 [("out", .file 0o600 (Text.utf8 content))], []⟩

def catalog : Catalog where
  name := "sample"
  contextKey := "blobs"
  remoteDir := ""
  artifacts := [⟨"a", "first", "a.bin", "a", none, none⟩, ⟨"a", "second", "a.bin", "a", none, none⟩]

def config : Config := ⟨"out", "out", ⟨"r1", rfl⟩, "https://h", 30⟩

/-- Answers that count the requests, up to the third one. -/
def counting : Fetcher Nat := fun url n =>
  (if n < 2 then .ok [UInt8.ofNat n] else .error (.notFound url), n + 1)

theorem templated : config.Templated .owner (files source) template := by
  refine ⟨Text.utf8 source, rfl, ?_⟩
  rw [ManifestTemplate.ofContent, Text.ofUtf8?_utf8]
  cbv

theorem answered : catalog.Answered config counting 0 [[0], [1]] 2 := .cons rfl (.cons rfl .nil)

theorem rendered (contents : List (List UInt8)) :
    template.render (catalog.context config contents) = .ok "v r1" := rfl

theorem written :
    ((Files.Volume.disk .owner).replace config.output (Text.utf8 "v r1")).run (files source)
      = (.ok (), files "v r1") := rfl

/-- From a network that still answers twice, the run is complete. -/
theorem complete :
    World.generate .owner counting catalog config (.start (files source) 0)
      = (.ok (catalog.records config [[0], [1]]),
          ((World.start (files source) 0).gathered catalog config [[0], [1]] 2).concluded config
            (catalog.records config [[0], [1]]) (files "v r1")) :=
  World.Course.generate_eq (.complete templated answered (rendered _) written)

/-- From a network that answers once more, the second artefact is missing. -/
theorem missing :
    ∃ w', World.generate .owner counting catalog config (.start (files source) 1)
      = (.error (.retrieval "a" (.notFound (config.urls.ofDescriptor "" catalog.artifacts[1]))),
          w') := by
  have hfirst : Fetcher.Answers counting
      ([catalog.artifacts[0]].map (config.urls.ofDescriptor catalog.remoteDir)) 1 [[1]] 2 :=
    .cons rfl .nil
  have hsecond : counting (config.urls.ofDescriptor catalog.remoteDir catalog.artifacts[1]) 2
      = (.error (.notFound (config.urls.ofDescriptor "" catalog.artifacts[1])), 3) := rfl
  exact ⟨_, World.Course.generate_eq (.missing templated rfl hfirst hsecond)⟩

end Sample

end PinnedManifest
