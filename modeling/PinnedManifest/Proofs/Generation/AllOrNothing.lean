import PinnedManifest.Proofs.Generation.Atomicity
import PinnedManifest.Proofs.Generation.Incidents

/-!
# Proofs/Generation/AllOrNothing — the output is replaced by a whole run or not at all

A run that fails, at whatever stage and whatever befalls the steps of its replacement, leaves the tree as
it was: every entry, content, link and mode, and no staged file.  Over any number of runs that share an
output entry (`World.History`), the entry is therefore what was there at first or what the last run that
succeeded wrote.
-/

namespace PinnedManifest

/-- **Runs that share an output entry**, the one of a given name in the directory at a given place:
what the last run that succeeded has written there, or what was there at first, and the files now.
Each run is one of its own, with its own catalog, network and template. -/
inductive World.History (place : Files.Location) (name : String) (first : Files.Volume) :
    Option Files.Node → Files.Volume → Prop
  | start : History place name first (first.node? (place ++ [name])) first
  /-- A run failed, and counts for nothing. -/
  | failed {σ : Type} {caller : Files.Caller} {fetcher : Fetcher σ} {catalog : Catalog}
      {config : Config} {w w' : World σ} {e : RunError} {last : Option Files.Node} :
      History place name first last w.files →
      World.generate caller fetcher catalog config w = (.error e, w') →
      History place name first last w'.files
  /-- A run failed whose replacement met with incidents. -/
  | interrupted {σ : Type} {caller : Files.Caller} {fetcher : Fetcher σ}
      {plan : List Files.Incident} {catalog : Catalog} {config : Config} {w w' : World σ}
      {e : RunError} {last : Option Files.Node} :
      History place name first last w.files →
      World.generateAmid caller fetcher plan catalog config w = (.error e, w') →
      History place name first last w'.files
  /-- A run to the entry succeeded: it wrote what the template, as the run found it, makes of the
  records that it returned. -/
  | succeeded {σ : Type} {caller : Files.Caller} {fetcher : Fetcher σ} {catalog : Catalog}
      {config : Config} {w w' : World σ} {records : Records} {template : ManifestTemplate}
      {text : String} {mode : Files.Mode} {found : Option Files.Mode} {entries : Files.Entries}
      {last : Option Files.Node} :
      History place name first last w.files →
      World.generate caller fetcher catalog config w = (.ok records, w') →
      w.files.entry caller config.output = .ok ⟨place, mode, entries, name⟩ →
      w.files.modeAt? caller config.output = .ok found →
      config.Templated caller w.files template →
      template.render (manifestContext catalog.contextKey records config.revision) = .ok text →
      History place name first (some (.file (found.getD Files.newFileMode) (Text.utf8 text)))
        w'.files
  /-- Something else changed files, but not that entry. -/
  | elsewhere {files files' : Files.Volume} {last : Option Files.Node} :
      History place name first last files →
      files'.node? (place ++ [name]) = files.node? (place ++ [name]) →
      History place name first last files'

/-- **The entry is as the last run that succeeded has left it.** -/
theorem World.History.node?_eq {place : Files.Location} {name : String}
    {first files : Files.Volume} {last : Option Files.Node}
    (h : World.History place name first last files) : files.node? (place ++ [name]) = last := by
  induction h with
  | start => rfl
  | failed _ hrun ih =>
    rw [World.files_of_generate_error hrun]
    exact ih
  | @interrupted _ caller fetcher plan _ _ _ _ _ _ _ hrun ih =>
    rw [(sparing_hostAmid caller fetcher plan).generate _ _ _ _ _ hrun]
    exact ih
  | succeeded _ hrun hentry hmode htemplate hrender _ =>
    obtain ⟨template, contents, text, found, e, htemplate', -, -, hrender', hmode', hentry', hfiles,
      -⟩ := World.generate_ok hrun
    cases hentry.symm.trans hentry'
    cases hmode.symm.trans hmode'
    cases htemplate.unique htemplate'
    cases hrender.symm.trans hrender'
    rw [hfiles]
    exact Files.Volume.node?_put (Files.Volume.node?_of_entry hentry)
  | elsewhere _ hsame ih => exact hsame.trans ih

/-- **All or nothing** — a run that fails leaves the tree as it was, and a refused revision the whole
world.  This is so whatever befalls the steps of the replacement: a run that fails amid incidents leaves
the tree as it was, and one that succeeds has done what it does without them.  After any runs that share
an output entry, with nothing else writing to it, the entry is what it was at first or what the last run
that succeeded wrote. -/
theorem all_or_nothing :
    (∀ {σ : Type} (caller : Files.Caller) (fetcher : Fetcher σ) (catalog : Catalog) (config : Config)
      (w w' : World σ) (e : RunError),
      World.generate caller fetcher catalog config w = (.error e, w') → w'.files = w.files) ∧
    (∀ {σ : Type} (caller : Files.Caller) (serverFor : Nat → Http.Server σ) (catalog : Catalog)
      (s : CommandLine.Settings) (w : World (Http.Network σ)) (r : Revision.Rejection),
      Revision.ofText s.commit = .error r →
      Command.run caller serverFor catalog s w = (.error (.invalidRevision r), w)) ∧
    (∀ {σ : Type} (caller : Files.Caller) (serverFor : Nat → Http.Server σ) (catalog : Catalog)
      (s : CommandLine.Settings) (w w' : World (Http.Network σ)) (e : RunError),
      Command.run caller serverFor catalog s w = (.error e, w') → w'.files = w.files) ∧
    (∀ {σ : Type} (caller : Files.Caller) (fetcher : Fetcher σ) (plan : List Files.Incident)
      (catalog : Catalog) (config : Config) (w w' : World σ),
      (∀ e, World.generateAmid caller fetcher plan catalog config w = (.error e, w') →
        w'.files = w.files) ∧
      (∀ records, World.generateAmid caller fetcher plan catalog config w = (.ok records, w') →
        World.generate caller fetcher catalog config w = (.ok records, w')) ∧
      World.generateAmid caller fetcher [] catalog config w
        = World.generate caller fetcher catalog config w) ∧
    (∀ {σ : Type} (caller : Files.Caller) (fetcher : Fetcher σ) (plan : List Files.Incident)
      (catalog : Catalog) (s : CommandLine.Settings) (w w' : World σ) (e : RunError),
      (Command.runOn (World.hostAmid caller fetcher plan) catalog s).run w = (.error e, w') →
        w'.files = w.files) ∧
    ∀ (place : Files.Location) (name : String) (first files : Files.Volume)
      (last : Option Files.Node),
      World.History place name first last files → files.node? (place ++ [name]) = last := by
  refine ⟨?failure, ?refused, ?command, ?amid, ?commandAmid, ?history⟩
  case failure => exact fun _ _ _ _ _ _ _ h => World.files_of_generate_error h
  case refused =>
    intro _ _ _ _ _ _ _ h
    exact Command.Course.runOn_eq (.refused (Command.config_of_refused h))
  case command => exact fun _ _ _ _ _ _ _ h => Command.files_of_runOn_error h
  case amid =>
    intro _ caller fetcher plan catalog config w w'
    refine ⟨fun e h => (World.sparing_hostAmid caller fetcher plan).generate _ _ w w' e h,
      fun records h => World.generate_of_generateAmid caller fetcher plan h, ?_⟩
    rw [World.generateAmid, World.hostAmid_nil]
    rfl
  case commandAmid =>
    exact fun caller fetcher plan _ _ w w' e h =>
      (World.sparing_hostAmid caller fetcher plan).runOn _ _ w w' e h
  case history => exact fun _ _ _ _ _ h => h.node?_eq

namespace Sample

/-- The output is staged, filled in two writes, and cannot be synced. -/
theorem interrupted :
    ∃ w', World.generateAmid .owner counting interruption catalog config (.start (files source) 0)
      = (.error (.output "out" syncFault), w') :=
  ⟨_, World.generateAmid_of_gathered .owner counting interruption templated answered (rendered _) rfl⟩

end Sample

/-- A second artefact that is missing, a revision with a blank, a template that is not there, an output
that cannot be synced, and a run that succeeds after two that failed. -/
theorem all_or_nothing_sample :
    (∃ e w', World.generate .owner Sample.counting Sample.catalog Sample.config
        (.start (Sample.files Sample.source) 1) = (.error e, w') ∧
      w'.files = Sample.files Sample.source) ∧
    Command.run .owner (fun _ => Http.unreachable) Sample.catalog
        ⟨"out", "out", "r 1", false, "https://h", 30⟩ (.start (Sample.files "") ⟨(), []⟩)
      = (.error (.invalidRevision ⟨"r 1", .forbidden ' '⟩), .start (Sample.files "") ⟨(), []⟩) ∧
    (Command.run .owner (fun _ => Http.unreachable) Sample.catalog
        ⟨"none", "out", "r1", false, "https://h", 30⟩
        (.start (Sample.files "") ⟨(), []⟩)).2.files = Sample.files "" ∧
    (∃ w', World.generateAmid .owner Sample.counting Sample.interruption Sample.catalog Sample.config
        (.start (Sample.files Sample.source) 0) = (.error (.output "out" Sample.syncFault), w') ∧
      w'.files = Sample.files Sample.source) ∧
    (Sample.files "v r1").node? ["out"] = some (.file 0o600 (Text.utf8 "v r1")) := by
  obtain ⟨w', hmissing⟩ := Sample.missing
  obtain ⟨w'', hinterrupted⟩ := Sample.interrupted
  have hsame := all_or_nothing.1 _ _ _ _ _ _ _ hmissing
  have hsame' := (all_or_nothing.2.2.2.1 _ _ _ _ _ _ _).1 _ hinterrupted
  refine ⟨⟨_, w', hmissing, hsame⟩, ?refused, ?command, ⟨w'', hinterrupted, hsame'⟩, ?history⟩
  case refused =>
    have hrefused : Revision.ofText "r 1" = .error ⟨"r 1", .forbidden ' '⟩ := by decide
    exact all_or_nothing.2.1 _ _ _ _ _ _ hrefused
  case command =>
    have hstop : World.Course .owner (Http.fetcher Http.unreachable Http.bodyLimit) Sample.catalog
        ⟨"none", "out", ⟨"r1", rfl⟩, "https://h", 30⟩ (.start (Sample.files "") ⟨(), []⟩)
        (.error (.template (.unreadable "none" .notFound))) (.start (Sample.files "") ⟨(), []⟩) :=
      .unreadable rfl
    have hcourse := Command.Course.started
      (s := ⟨"none", "out", "r1", false, "https://h", 30⟩) rfl hstop
    exact all_or_nothing.2.2.1 .owner (fun _ => Http.unreachable) _ _ _ _ _
      (Command.runOn_eq_iff.mpr hcourse)
  case history =>
    have hfailed : World.History [] "out" (Sample.files Sample.source) _ w'.files :=
      .failed .start hmissing
    rw [hsame] at hfailed
    have hbroken := World.History.interrupted (w := .start (Sample.files Sample.source) 0)
      hfailed hinterrupted
    rw [hsame'] at hbroken
    have hdone := World.History.succeeded (w := .start (Sample.files Sample.source) 0)
      hbroken Sample.complete rfl rfl Sample.templated (Sample.rendered _)
    have hlast := all_or_nothing.2.2.2.2.2 _ _ _ _ _ hdone
    exact hlast

end PinnedManifest
