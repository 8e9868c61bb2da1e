import PinnedManifest.Proofs.Generation.Course

/-!
# Proofs/Generation/Precedence — the earliest stage that fails stops a command

`Command.Course` fixes the error, the requests, the log and the files of a command's run, whatever
stages would fail together.  Of the log, the lines that are always shown tell where the run stopped
(`World.Course.notes_eq`): one once the template is read, and one more at the end.
-/

namespace PinnedManifest

variable {σ : Type} {caller : Files.Caller} {fetcher : Fetcher σ} {catalog : Catalog}
  {config : Config}

/-! ## The lines that are always shown -/

/-- What is said at the end: a success is told with its number of records, a failure is not. -/
def Config.endLines {α : Type} (config : Config) (count : Nat) : Except RunError α → List Log.Entry
  | .ok _ => [config.endLine count]
  | .error _ => []

namespace World

/-- The log without what only serves to find faults. -/
def notes (w : World σ) : List Log.Entry := w.log.filter fun entry => entry.level = .info

/-- What is said about artefacts one by one is not among them. -/
theorem notes_lines (urls : PinnedUrls) (remoteDir : String) :
    ∀ (ds : List Descriptor) (contents : List (List UInt8)),
      (List.zipWith (urls.lines remoteDir) ds contents).flatten.filter
        (fun entry => entry.level = .info) = []
  | [], _ => by simp
  | _ :: _, [] => by simp
  | d :: ds, content :: contents => by
      rw [List.zipWith_cons_cons, List.flatten_cons, List.filter_append,
        notes_lines urls remoteDir ds contents]
      simp [PinnedUrls.lines, PinnedUrls.startLines]

@[simp] theorem notes_afterFetching (w : World σ) (urls : PinnedUrls) (remoteDir : String)
    (ds : List Descriptor) (contents : List (List UInt8)) (network : σ) :
    (w.afterFetching urls remoteDir ds contents network).notes = w.notes := by
  rw [notes, afterFetching, List.filter_append, notes_lines, List.append_nil, notes]

@[simp] theorem notes_afterFailing (w : World σ) (urls : PinnedUrls) (remoteDir : String)
    (d : Descriptor) (network : σ) :
    (w.afterFailing urls remoteDir d network).notes = w.notes := by
  simp [notes, afterFailing, PinnedUrls.startLines]

@[simp] theorem notes_announced (w : World σ) (catalog : Catalog) (config : Config) :
    (w.announced catalog config).notes = w.notes ++ [config.startLine catalog] := by
  simp [notes, announced, Config.startLine]

@[simp] theorem notes_concluded (w : World σ) (config : Config) (records : Records)
    (files : Files.Volume) :
    (w.concluded config records files).notes = w.notes ++ [config.endLine records.size] := by
  simp [notes, concluded, Config.endLine]

/-- **A run with a template** says that it starts, and says that it is done if it is. -/
theorem Course.notes_eq {w w' : World σ} {result : Except RunError Records}
    {template : ManifestTemplate} (h : Course caller fetcher catalog config w result w')
    (htemplate : config.Templated caller w.files template) :
    w'.notes = w.notes ++ config.startLine catalog ::
      config.endLines catalog.artifacts.length result := by
  obtain ⟨content, hread, hof⟩ := htemplate
  cases h with
  | unreadable hread' => cases hread.symm.trans hread'
  | malformed hread' hof' =>
    cases hread.symm.trans hread'
    cases hof.symm.trans hof'
  | missing => simp [Config.endLines]
  | unrendered => simp [gathered, Config.endLines]
  | unwritten => simp [gathered, Config.endLines]
  | complete _ hall => simp [gathered, Config.endLines, Catalog.size_records hall]

/-- **A run without a template** does nothing. -/
theorem Course.eq_of_not_templated {w w' : World σ} {result : Except RunError Records}
    (h : Course caller fetcher catalog config w result w')
    (hno : ∀ template, ¬ config.Templated caller w.files template) : w' = w := by
  cases h with
  | unreadable => rfl
  | malformed => rfl
  | missing htemplate => exact absurd htemplate (hno _)
  | unrendered htemplate => exact absurd htemplate (hno _)
  | unwritten htemplate => exact absurd htemplate (hno _)
  | complete htemplate => exact absurd htemplate (hno _)

end World

namespace Command

variable {s : CommandLine.Settings} {w w' : World σ} {result : Except RunError Unit}

/-- The same for a command. -/
theorem Course.notes_eq {template : ManifestTemplate}
    (h : Course caller fetcher catalog s w result w') (hconfig : s.config = .ok config)
    (htemplate : config.Templated caller w.files template) :
    w'.notes = w.notes ++ config.startLine catalog ::
      config.endLines catalog.artifacts.length result := by
  cases h with
  | refused hs => cases hconfig.symm.trans hs
  | @started _ result _ hs hcourse =>
    cases hconfig.symm.trans hs
    rw [hcourse.notes_eq htemplate]
    cases result <;> rfl

/-- A command that is refused, or has no template, does nothing. -/
theorem Course.eq_of_not_templated (h : Course caller fetcher catalog s w result w')
    (hno : ∀ config template, s.config = .ok config →
      ¬ config.Templated caller w.files template) : w' = w := by
  cases h with
  | refused => rfl
  | started hs hcourse => exact hcourse.eq_of_not_templated fun template => hno _ template hs

end Command

/-! ## The order of the stages -/

/-- **The earliest stage that fails stops a command** — what a command does is what `Command.Course`
says, over any fetcher and over HTTP; a refused revision leaves every host untouched; and the lines
always shown say that a run starts when its template is read, and that it is done when it succeeds. -/
theorem earliest_stage_stops :
    (∀ {σ : Type} (caller : Files.Caller) (fetcher : Fetcher σ) (catalog : Catalog)
      (s : CommandLine.Settings) (w w' : World σ) (result : Except RunError Unit),
      (Command.runOn (World.host caller fetcher) catalog s).run w = (result, w') ↔
        Command.Course caller fetcher catalog s w result w') ∧
    (∀ {σ : Type} (caller : Files.Caller) (serverFor : Nat → Http.Server σ) (catalog : Catalog)
      (s : CommandLine.Settings) (w w' : World (Http.Network σ)) (result : Except RunError Unit),
      Command.run caller serverFor catalog s w = (result, w') ↔
        Command.Course caller (Http.fetcher (serverFor s.timeout) Http.bodyLimit) catalog s w result
          w') ∧
    (∀ {m : Type → Type} [Monad m] (host : Host m) (catalog : Catalog) (s : CommandLine.Settings)
      (r : Revision.Rejection), Revision.ofText s.commit = .error r →
      Command.runOn host catalog s = throw (.invalidRevision r)) ∧
    ∀ {σ : Type} (caller : Files.Caller) (fetcher : Fetcher σ) (catalog : Catalog)
      (s : CommandLine.Settings) (w w' : World σ) (result : Except RunError Unit),
      (Command.runOn (World.host caller fetcher) catalog s).run w = (result, w') →
      (∀ config template, s.config = .ok config → config.Templated caller w.files template →
        w'.notes = w.notes ++ config.startLine catalog ::
          config.endLines catalog.artifacts.length result) ∧
      ((∀ config template, s.config = .ok config → ¬ config.Templated caller w.files template) →
        w' = w) := by
  refine ⟨?course, ?http, ?refused, ?notes⟩
  case course => exact fun _ _ _ _ _ _ _ => Command.runOn_eq_iff
  case http => exact fun _ _ _ _ _ _ _ => Command.runOn_eq_iff
  case refused =>
    exact fun host _ _ _ h => Command.runOn_of_refused host (Command.config_of_refused h)
  case notes =>
    intro σ caller fetcher catalog s w w' result h
    have hcourse := Command.runOn_eq_iff.mp h
    exact ⟨fun _ _ => hcourse.notes_eq, hcourse.eq_of_not_templated⟩

/-- A revision with a blank in it, a run that succeeds, and a template that is not there. -/
theorem earliest_stage_stops_sample :
    Command.runOn (World.host .owner Sample.counting) Sample.catalog
        ⟨"out", "out", "r 1", false, "https://h", 30⟩
      = throw (.invalidRevision ⟨"r 1", .forbidden ' '⟩) ∧
    (∃ w', (Command.runOn (World.host .owner Sample.counting) Sample.catalog
        ⟨"out", "out", "r1", false, "https://h", 30⟩).run (.start (Sample.files Sample.source) 0)
        = (.ok (), w') ∧
      w'.notes = [Sample.config.startLine Sample.catalog, Sample.config.endLine 2]) ∧
    ∃ e w', (Command.runOn (World.host .owner Sample.counting) Sample.catalog
        ⟨"none", "out", "r1", false, "https://h", 30⟩).run (.start (Sample.files "") 0)
        = (.error e, w') ∧
      w' = .start (Sample.files "") 0 := by
  have hrefused : Revision.ofText "r 1" = .error ⟨"r 1", .forbidden ' '⟩ := by decide
  have hcomplete := World.generate_eq_iff.mp Sample.complete
  have hdone := Command.Course.runOn_eq (.started
    (s := ⟨"out", "out", "r1", false, "https://h", 30⟩) rfl hcomplete)
  have hunreadable : World.Course .owner Sample.counting Sample.catalog
      ⟨"none", "out", ⟨"r1", rfl⟩, "https://h", 30⟩ (.start (Sample.files "") 0)
      (.error (.template (.unreadable "none" .notFound))) (.start (Sample.files "") 0) :=
    .unreadable rfl
  have hstop := Command.Course.runOn_eq (.started
    (s := ⟨"none", "out", "r1", false, "https://h", 30⟩) rfl hunreadable)
  refine ⟨earliest_stage_stops.2.2.1 _ _ _ _ hrefused, ⟨_, hdone, ?done⟩, ⟨_, _, hstop, ?stop⟩⟩
  case done => exact (earliest_stage_stops.2.2.2 _ _ _ _ _ _ _ hdone).1 _ _ rfl Sample.templated
  case stop =>
    refine (earliest_stage_stops.2.2.2 _ _ _ _ _ _ _ hstop).2
      fun config template hconfig htemplate => ?_
    cases hconfig
    obtain ⟨content, hread, -⟩ := htemplate
    cases hread

end PinnedManifest
