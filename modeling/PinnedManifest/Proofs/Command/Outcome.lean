import PinnedManifest.Proofs.Generation.Course

/-!
# Proofs/Command/Outcome — exit code, report and files agree

An invocation is stopped by its arguments, or its run fails, or its run succeeds.  `Outcome.Holds` says
of each what is left of it: the exit code, the log, the line of a report and the files.  Since a run
tells no error itself (`Course.calm`), an error is told where the report tells it and nowhere else, and
every invocation has exactly one outcome (`invocation_has_one_outcome`).
-/

namespace PinnedManifest

variable {σ : Type}

/-! ## What a run says

What is told about artefacts serves to find faults, and the lines always shown tell of progress. -/

/-- Entries that tell no error. -/
def Log.Calm (entries : List Log.Entry) : Prop := ∀ entry ∈ entries, entry.level ≠ .error

theorem Log.Calm.append {entries entries' : List Log.Entry} (h : Log.Calm entries)
    (h' : Log.Calm entries') : Log.Calm (entries ++ entries') :=
  List.forall_mem_append.mpr ⟨h, h'⟩

theorem PinnedUrls.calm_startLines (urls : PinnedUrls) (remoteDir : String) (d : Descriptor) :
    Log.Calm (urls.startLines remoteDir d) := by
  simp [Log.Calm, startLines]

theorem PinnedUrls.calm_lines (urls : PinnedUrls) (remoteDir : String) (d : Descriptor)
    (content : List UInt8) : Log.Calm (urls.lines remoteDir d content) :=
  (urls.calm_startLines remoteDir d).append (by simp [Log.Calm])

namespace World

/-- A later world: more has been said, but no error told. -/
def CalmTo (w w' : World σ) : Prop := ∃ said, Log.Calm said ∧ w'.log = w.log ++ said

theorem CalmTo.refl (w : World σ) : w.CalmTo w := ⟨[], by simp [Log.Calm], by simp⟩

theorem CalmTo.trans {w w' w'' : World σ} (h : w.CalmTo w') (h' : w'.CalmTo w'') :
    w.CalmTo w'' := by
  obtain ⟨said, hsaid, hlog⟩ := h
  obtain ⟨said', hsaid', hlog'⟩ := h'
  exact ⟨said ++ said', hsaid.append hsaid', by rw [hlog', hlog, List.append_assoc]⟩

theorem calmTo_announced (w : World σ) (catalog : Catalog) (config : Config) :
    w.CalmTo (w.announced catalog config) :=
  ⟨_, by simp [Log.Calm, Config.startLine], rfl⟩

theorem calmTo_afterFetching (w : World σ) (urls : PinnedUrls) (remoteDir : String)
    (ds : List Descriptor) (contents : List (List UInt8)) (network : σ) :
    w.CalmTo (w.afterFetching urls remoteDir ds contents network) := by
  refine ⟨_, fun entry hentry => ?_, rfl⟩
  obtain ⟨lines, hlines, hmem⟩ := List.mem_flatten.mp hentry
  rw [← List.map_uncurry_zip_eq_zipWith, List.mem_map] at hlines
  obtain ⟨⟨d, content⟩, -, rfl⟩ := hlines
  exact urls.calm_lines remoteDir d content entry hmem

theorem calmTo_afterFailing (w : World σ) (urls : PinnedUrls) (remoteDir : String) (d : Descriptor)
    (network : σ) : w.CalmTo (w.afterFailing urls remoteDir d network) :=
  ⟨_, urls.calm_startLines remoteDir d, rfl⟩

theorem calmTo_gathered (w : World σ) (catalog : Catalog) (config : Config)
    (contents : List (List UInt8)) (network : σ) :
    w.CalmTo (w.gathered catalog config contents network) :=
  (w.calmTo_announced catalog config).trans (calmTo_afterFetching ..)

theorem calmTo_concluded (w : World σ) (config : Config) (records : Records)
    (files : Files.Volume) : w.CalmTo (w.concluded config records files) :=
  ⟨_, by simp [Log.Calm, Config.endLine], rfl⟩

/-- **A run tells no error**, however it goes. -/
theorem Course.calm {caller : Files.Caller} {fetcher : Fetcher σ} {catalog : Catalog}
    {config : Config} {w w' : World σ} {result : Except RunError Records}
    (h : Course caller fetcher catalog config w result w') : w.CalmTo w' := by
  cases h with
  | unreadable => exact .refl w
  | malformed => exact .refl w
  | missing =>
    exact ((calmTo_announced ..).trans (calmTo_afterFetching ..)).trans (calmTo_afterFailing ..)
  | unrendered => exact calmTo_gathered ..
  | unwritten => exact calmTo_gathered ..
  | complete => exact (calmTo_gathered ..).trans (calmTo_concluded ..)

end World

namespace Command

/-- The same for a command's run. -/
theorem Course.calm {caller : Files.Caller} {fetcher : Fetcher σ} {catalog : Catalog}
    {s : CommandLine.Settings} {w w' : World σ} {result : Except RunError Unit}
    (h : Course caller fetcher catalog s w result w') : w.CalmTo w' := by
  cases h with
  | refused => exact .refl w
  | started _ hcourse => exact hcourse.calm

/-! ## Reports -/

namespace Telling

theorem report_ok (t : Telling) : t.report (.ok ()) = ⟨0, "", []⟩ := rfl

/-- With a log, a failed run is told there. -/
theorem report_error_of_ready {t : Telling} (h : t.logReady = true) (e : RunError) :
    t.report (.error e) = ⟨1, "", [⟨.error, e.message⟩]⟩ := by
  simp [report, Report.ofEnd, failure?, h]

/-- Without one, it is told as a line. -/
theorem report_error_of_not_ready {t : Telling} (h : t.logReady = false) (e : RunError) :
    t.report (.error e) = ⟨1, t.sink.line e.message, []⟩ := by
  simp [report, Report.ofEnd, failure?, h]

/-- **A failed run has its exit code**, whether or not anyone hears of it. -/
theorem exitCode_report_error (t : Telling) (e : RunError) :
    (t.report (.error e)).exitCode = 1 := by
  cases h : t.logReady with
  | true => rw [report_error_of_ready h]
  | false => rw [report_error_of_not_ready h]

end Telling

/-! ## Invocations and their outcomes -/

/-- Everything that decides how an invocation goes. -/
structure Call (σ : Type) where
  caller : Files.Caller
  serverFor : Nat → Http.Server σ
  telling : Telling
  catalog : Catalog
  env : CommandLine.Environment
  args : List String
  world : World (Http.Network σ)

namespace Call

variable (c : Call σ)

/-- The ending of a call, and the world it leaves. -/
def finish : Ending × World (Http.Network σ) :=
  invoke c.caller c.serverFor c.telling c.catalog c.env c.args c.world

/-- What a call's run comes to under its settings, and the world it leaves. -/
def ran (s : CommandLine.Settings) : Except RunError Unit × World (Http.Network σ) :=
  run c.caller c.serverFor c.catalog s c.world

/-- In the world that a call leaves, the entry that the output's path names holds the text of the
template, as the call found it, over records of what the servers have answered in this call.  It has
the mode that was found there. -/
def Fresh (s : CommandLine.Settings) (w : World (Http.Network σ)) : Prop :=
  ∃ config template contents text found e,
    s.config = .ok config ∧
    config.Templated c.caller c.world.files template ∧
    c.catalog.Answered config (Http.fetcher (c.serverFor s.timeout) Http.bodyLimit) c.world.network
      contents w.network ∧
    template.render (manifestContext c.catalog.contextKey (c.catalog.records config contents)
      config.revision) = .ok text ∧
    c.world.files.modeAt? c.caller config.output = .ok found ∧
    c.world.files.entry c.caller config.output = .ok e ∧
    w.files.node? (e.place ++ [e.name])
      = some (.file (found.getD Files.newFileMode) (Text.utf8 text))

end Call

/-- **The arguments stop a call** — it leaves the world as it is: nothing is asked for, said or
changed. -/
structure Stopped (c : Call σ) (ending : Ending) (w : World (Http.Network σ))
    (stop : CommandLine.Stop) : Prop where
  parsed : CommandLine.Settings.ofArgs c.env c.args = .error stop
  ended : ending = .stopped stop
  world : w = c.world
  asked : (stop = .version ∨ ∃ spelling, stop = .help spelling) → ending.exitCode = 0
  refused : ∀ fault, stop = .fault fault → ending.exitCode = 2

/-- **The run of a call fails** — the files stay as they were, and behind what the run has said the
error is told once: as an entry of the log where there is one, else as a line, which is lost on a
broken sink. -/
structure Failed (c : Call σ) (ending : Ending) (w : World (Http.Network σ))
    (s : CommandLine.Settings) (e : RunError) (report : Report) (said : List Log.Entry) : Prop where
  parsed : CommandLine.Settings.ofArgs c.env c.args = .ok s
  ran : (c.ran s).1 = .error e
  ended : ending = .ran s (.error e) report
  exitCode : ending.exitCode = 1
  files : w.files = c.world.files
  calm : Log.Calm said
  logged : c.telling.logReady = true →
    report.lines = "" ∧ w.log = c.world.log ++ said ++ [⟨.error, e.message⟩]
  printed : c.telling.logReady = false → w.log = c.world.log ++ said ∧
    (c.telling.sink = .working → report.lines = e.message ++ "\n") ∧
    (c.telling.sink = .broken → report.lines = "")

/-- **The run of a call succeeds** — no error is told, and the output is a fresh manifest. -/
structure Succeeded (c : Call σ) (ending : Ending) (w : World (Http.Network σ))
    (s : CommandLine.Settings) (report : Report) (said : List Log.Entry) : Prop where
  parsed : CommandLine.Settings.ofArgs c.env c.args = .ok s
  ran : (c.ran s).1 = .ok ()
  ended : ending = .ran s (.ok ()) report
  exitCode : ending.exitCode = 0
  silent : report.lines = ""
  calm : Log.Calm said
  log : w.log = c.world.log ++ said
  fresh : c.Fresh s w

/-- The outcomes of calls. -/
inductive Outcome
  | stopped
  | failed
  | succeeded
  deriving DecidableEq, Repr

/-- What an outcome says of a call, its ending and the world it leaves. -/
def Outcome.Holds (c : Call σ) (ending : Ending) (w : World (Http.Network σ)) : Outcome → Prop
  | .stopped => ∃ stop, Stopped c ending w stop
  | .failed => ∃ s e report said, Failed c ending w s e report said
  | .succeeded => ∃ s report said, Succeeded c ending w s report said

namespace Call

variable {c : Call σ} {s : CommandLine.Settings} {w : World (Http.Network σ)}

/-- A run that succeeds is the one of a configuration. -/
theorem generate_of_run (h : c.ran s = (.ok (), w)) :
    ∃ config records, s.config = .ok config ∧
      World.generate c.caller (Http.fetcher (c.serverFor s.timeout) Http.bodyLimit) c.catalog config
        c.world = (.ok records, w) := by
  generalize hresult : (Except.ok () : Except RunError Unit) = result at h
  cases runOn_eq_iff.mp h with
  | refused => cases hresult
  | @started config result _ hconfig hcourse =>
    cases result with
    | error => cases hresult
    | ok records => exact ⟨config, records, hconfig, hcourse.generate_eq⟩

theorem finish_of_stop {stop : CommandLine.Stop}
    (h : CommandLine.Settings.ofArgs c.env c.args = .error stop) :
    c.finish = (.stopped stop, c.world) := by
  simp [finish, invoke, invokeOn, h, Ending.log, pure, StateT.pure]

/-- **A call with settings** ends with the report of its run. -/
theorem finish_of_run {result : Except RunError Unit}
    (h : CommandLine.Settings.ofArgs c.env c.args = .ok s) (hrun : c.ran s = (result, w)) :
    c.finish = (.ran s result (c.telling.report result),
      { w with log := w.log ++ (c.telling.report result).log }) := by
  rw [ran, run] at hrun
  simp [finish, invoke, invokeOn, h, bind, StateT.bind, hrun, Ending.log, pure, StateT.pure]

theorem stopped {stop : CommandLine.Stop}
    (h : CommandLine.Settings.ofArgs c.env c.args = .error stop) :
    Stopped c c.finish.1 c.finish.2 stop := by
  rw [finish_of_stop h]
  refine ⟨h, rfl, rfl, ?asked, ?refused⟩
  case asked => rintro (rfl | ⟨spelling, rfl⟩) <;> rfl
  case refused => rintro fault rfl; rfl

theorem failed {e : RunError} (h : CommandLine.Settings.ofArgs c.env c.args = .ok s)
    (hrun : c.ran s = (.error e, w)) :
    ∃ said, Failed c c.finish.1 c.finish.2 s e (c.telling.report (.error e)) said := by
  have hfiles : w.files = c.world.files := files_of_runOn_error hrun
  obtain ⟨said, hsaid, hlog⟩ := (runOn_eq_iff.mp hrun).calm
  rw [finish_of_run h hrun]
  refine ⟨said, h, by rw [hrun], rfl, c.telling.exitCode_report_error e, hfiles, hsaid,
    fun hready => ?logged, fun hready => ?printed⟩
  case logged =>
    rw [Telling.report_error_of_ready hready]
    exact ⟨rfl, by rw [hlog]⟩
  case printed =>
    rw [Telling.report_error_of_not_ready hready]
    exact ⟨by rw [hlog, List.append_nil], fun hsink => by rw [hsink, Sink.line],
      fun hsink => by rw [hsink, Sink.line]⟩

/-- A run that succeeds has written a fresh manifest. -/
theorem fresh (hrun : c.ran s = (.ok (), w)) : c.Fresh s w := by
  obtain ⟨config, records, hconfig, hgenerate⟩ := generate_of_run hrun
  obtain ⟨template, contents, text, found, e, htemplate, hall, rfl, hrender, hfound, he, hfiles, -⟩ :=
    World.generate_ok hgenerate
  refine ⟨config, template, contents, text, found, e, hconfig, htemplate, hall, hrender, hfound, he, ?_⟩
  rw [hfiles]
  exact Files.Volume.node?_put (Files.Volume.node?_of_entry he)

theorem succeeded (h : CommandLine.Settings.ofArgs c.env c.args = .ok s)
    (hrun : c.ran s = (.ok (), w)) :
    ∃ said, Succeeded c c.finish.1 c.finish.2 s (c.telling.report (.ok ())) said := by
  have hfresh := fresh hrun
  obtain ⟨said, hsaid, hlog⟩ := (runOn_eq_iff.mp hrun).calm
  rw [finish_of_run h hrun, Telling.report_ok]
  exact ⟨said, h, by rw [hrun], rfl, rfl, rfl, hsaid, by rw [hlog, List.append_nil], hfresh⟩

end Call

/-! ## One outcome -/

namespace Outcome.Holds

variable {c : Call σ} {ending : Ending} {w : World (Http.Network σ)} {outcome : Outcome}
  {s : CommandLine.Settings}

/-- Arguments that stop a call leave no other outcome. -/
theorem eq_stopped {stop : CommandLine.Stop} (h : outcome.Holds c ending w)
    (hparse : CommandLine.Settings.ofArgs c.env c.args = .error stop) : outcome = .stopped := by
  cases outcome with
  | stopped => rfl
  | failed => obtain ⟨_, _, _, _, h⟩ := h; cases hparse.symm.trans h.parsed
  | succeeded => obtain ⟨_, _, _, h⟩ := h; cases hparse.symm.trans h.parsed

/-- Nor does a run that fails. -/
theorem eq_failed {e : RunError} (h : outcome.Holds c ending w)
    (hparse : CommandLine.Settings.ofArgs c.env c.args = .ok s) (hrun : (c.ran s).1 = .error e) :
    outcome = .failed := by
  cases outcome with
  | stopped => obtain ⟨_, h⟩ := h; cases hparse.symm.trans h.parsed
  | failed => rfl
  | succeeded =>
    obtain ⟨_, _, _, h⟩ := h
    cases hparse.symm.trans h.parsed
    cases hrun.symm.trans h.ran

/-- Nor one that succeeds. -/
theorem eq_succeeded (h : outcome.Holds c ending w)
    (hparse : CommandLine.Settings.ofArgs c.env c.args = .ok s) (hrun : (c.ran s).1 = .ok ()) :
    outcome = .succeeded := by
  cases outcome with
  | stopped => obtain ⟨_, h⟩ := h; cases hparse.symm.trans h.parsed
  | failed =>
    obtain ⟨_, _, _, _, h⟩ := h
    cases hparse.symm.trans h.parsed
    cases hrun.symm.trans h.ran
  | succeeded => rfl

end Outcome.Holds

end Command

/-- **Every invocation has one outcome** — of the three, exactly one holds: its arguments stop it, and
the exit code is 0 for help and version and 2 for a fault; or its run fails, with exit code 1, whether
or not anyone hears of it; or its run succeeds, with exit code 0 and a fresh manifest. -/
theorem invocation_has_one_outcome {σ : Type} (c : Command.Call σ) :
    ∃! outcome : Command.Outcome, outcome.Holds c c.finish.1 c.finish.2 := by
  rcases hparse : CommandLine.Settings.ofArgs c.env c.args with stop | s
  · exact ⟨.stopped, ⟨stop, Command.Call.stopped hparse⟩, fun _ h => h.eq_stopped hparse⟩
  rcases hrun : c.ran s with ⟨e | _, w⟩
  · exact ⟨.failed, ⟨s, e, _, Command.Call.failed hparse hrun⟩,
      fun _ h => h.eq_failed hparse (congrArg Prod.fst hrun)⟩
  · exact ⟨.succeeded, ⟨s, _, Command.Call.succeeded hparse hrun⟩,
      fun _ h => h.eq_succeeded hparse (congrArg Prod.fst hrun)⟩

namespace Sample

/-! ## A call whose revision is refused -/

/-- A call whose revision has a blank, under one way to tell its end. -/
def refusedCall (t : Command.Telling) : Command.Call Unit where
  caller := .owner
  serverFor _ := Http.unreachable
  telling := t
  catalog := .nordicBlobs
  env := {}
  args := ["--commit", "r 1"]
  world := .start (files "") ⟨(), []⟩

/-- The settings that its arguments spell. -/
def refusedSettings : CommandLine.Settings where
  template := CommandLine.defaultTemplate
  output := CommandLine.defaultOutput
  commit := "r 1"
  debug := false
  baseUrl := defaultBaseUrl
  timeout := CommandLine.defaultTimeout

/-- The error of its run. -/
def refusal : RunError := .invalidRevision ⟨"r 1", .forbidden ' '⟩

theorem refused_parsed (t : Command.Telling) :
    CommandLine.Settings.ofArgs (refusedCall t).env (refusedCall t).args = .ok refusedSettings := rfl

theorem refused_ran (t : Command.Telling) :
    (refusedCall t).ran refusedSettings = (.error refusal, (refusedCall t).world) := by
  have hrefused : Revision.ofText refusedSettings.commit = .error ⟨"r 1", .forbidden ' '⟩ := by decide
  rw [Command.Call.ran, Command.run, Command.runOn_of_refused _ (Command.config_of_refused hrefused)]
  rfl

end Sample

/-- One failed run told in three ways: as an entry of the log, as a line where there is no log, and not
at all where the line is lost.  The exit code is the same. -/
theorem invocation_has_one_outcome_sample :
    (∃ report said, Command.Failed (Sample.refusedCall ⟨true, .working⟩)
        (Sample.refusedCall ⟨true, .working⟩).finish.1 (Sample.refusedCall ⟨true, .working⟩).finish.2
        Sample.refusedSettings Sample.refusal report said ∧ report.lines = "" ∧
      (Sample.refusedCall ⟨true, .working⟩).finish.2.log = said ++
        [⟨.error, "invalid revision \"r 1\": whitespace or control character ' '"⟩]) ∧
    (∃ report said, Command.Failed (Sample.refusedCall ⟨false, .working⟩)
        (Sample.refusedCall ⟨false, .working⟩).finish.1 (Sample.refusedCall ⟨false, .working⟩).finish.2
        Sample.refusedSettings Sample.refusal report said ∧
      report.lines = "invalid revision \"r 1\": whitespace or control character ' '\n") ∧
    ∃ report said, Command.Failed (Sample.refusedCall ⟨false, .broken⟩)
        (Sample.refusedCall ⟨false, .broken⟩).finish.1 (Sample.refusedCall ⟨false, .broken⟩).finish.2
        Sample.refusedSettings Sample.refusal report said ∧ report.lines = "" := by
  have hfailed (t : Command.Telling) : ∃ report said, Command.Failed (Sample.refusedCall t)
      (Sample.refusedCall t).finish.1 (Sample.refusedCall t).finish.2 Sample.refusedSettings
      Sample.refusal report said := by
    have hran := congrArg Prod.fst (Sample.refused_ran t)
    obtain ⟨outcome, hholds, -⟩ := invocation_has_one_outcome (Sample.refusedCall t)
    cases hholds.eq_failed (Sample.refused_parsed t) hran
    obtain ⟨s, e, report, said, h⟩ := hholds
    cases (Sample.refused_parsed t).symm.trans h.parsed
    cases hran.symm.trans h.ran
    exact ⟨report, said, h⟩
  refine ⟨?logged, ?printed, ?lost⟩
  case logged =>
    obtain ⟨report, said, h⟩ := hfailed ⟨true, .working⟩
    exact ⟨report, said, h, h.logged rfl⟩
  case printed =>
    obtain ⟨report, said, h⟩ := hfailed ⟨false, .working⟩
    exact ⟨report, said, h, (h.printed rfl).2.1 rfl⟩
  case lost =>
    obtain ⟨report, said, h⟩ := hfailed ⟨false, .broken⟩
    exact ⟨report, said, h, (h.printed rfl).2.2 rfl⟩

end PinnedManifest
