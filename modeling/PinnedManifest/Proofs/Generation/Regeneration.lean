import PinnedManifest.Proofs.Generation.Course

/-!
# Proofs/Generation/Regeneration — a run made again changes nothing

After a run that succeeded, the same run succeeds again, with the same records, the same requests and
not a change in the tree.  Its template is read where it was read before and its output is replaced
where it was replaced before, because neither path leads through the entry that the first run replaced
(`Config.Apart`); and that entry is now a file with the mode that the first run settled on, which is
found and kept.
-/

namespace PinnedManifest

section Runs

variable {σ : Type} {caller : Files.Caller} {fetcher : Fetcher σ} {config : Config}

/-- The same address is always answered in the same way. -/
def Fetcher.Steady (fetcher : Fetcher σ) : Prop := ∀ url s t, (fetcher url s).1 = (fetcher url t).1

/-- **A steady fetcher repeats itself**, whatever its state has become. -/
theorem Fetcher.Answers.again (hsteady : fetcher.Steady) {urls : List String} {s s' : σ}
    {contents : List (List UInt8)} (h : Answers fetcher urls s contents s') :
    ∀ t, ∃ t', Answers fetcher urls t contents t' := by
  induction h with
  | nil => exact fun t => ⟨t, .nil⟩
  | @cons url _ s _ _ _ _ hurl _ ih =>
    intro t
    obtain ⟨t', hrest⟩ := ih (fetcher url t).2
    refine ⟨t', .cons (Prod.ext ?_ rfl) hrest⟩
    rw [hsteady url t s, hurl]

/-- Neither the path of the template nor the directory part of the output's leads through the entry
that the output's path names. -/
structure Config.Apart (config : Config) (caller : Files.Caller) (files : Files.Volume) : Prop where
  template : ∀ e, files.entry caller config.output = .ok e →
    files.Avoids caller (e.place ++ [e.name]) (.ofText config.template)
  directory : ∀ e, files.entry caller config.output = .ok e →
    files.Avoids caller (e.place ++ [e.name]) (.parent config.output)

/-- The template is read as before once the output is replaced. -/
theorem Config.Templated.put {files : Files.Volume} {template : ManifestTemplate}
    {e : Files.Volume.Entry} {node : Files.Node} (h : config.Templated caller files template)
    (hapart : config.Apart caller files) (he : files.Overwritable caller config.output e)
    (hfile : node.kind = .file) : config.Templated caller (files.put e.place e.name node) template := by
  obtain ⟨content, hread, hof⟩ := h
  exact ⟨content, Files.Volume.read_put he hfile (hapart.template e he.entry) hread, hof⟩

/-- **A replacement made again changes nothing.** -/
theorem Files.Volume.replace_run_again {v u : Files.Volume} {path : String} {content : List UInt8}
    (h : ((disk caller).replace path content).run v = (.ok (), u))
    (havoid : ∀ e, v.entry caller path = .ok e →
      v.Avoids caller (e.place ++ [e.name]) (.parent path)) :
    ((disk caller).replace path content).run u = (.ok (), u) := by
  obtain ⟨found, e, hcan, rfl⟩ := replace_run_eq_ok_iff.mp h
  have hmode : isReadOnly (found.getD newFileMode) = false := by
    cases found with
    | none => exact isReadOnly_newFileMode
    | some mode => exact hcan.writable
  obtain ⟨es, hagain⟩ := hcan.again (havoid e hcan.overwritable.entry) hmode
  exact replace_run_eq_ok_iff.mpr ⟨_, _, hagain, (put_put ..).symm⟩

end Runs

namespace Sample

/-! ## A run over a link

The output is a link to a directory, whose mode the file that replaces the link is given. -/

/-- A template, and an output that is something else. -/
def filesWith (out : Files.Node) : Files.Volume :=
  ⟨.directory 0o755 [("d", .directory 0o750 []), ("out", out), ("t", .file 0o644 (Text.utf8 source))],
    []⟩

def apartConfig : Config := { config with template := "t" }

/-- Answers that depend on the address only. -/
def constant : Fetcher Unit := fun url _ => (.ok (Text.utf8 url), ())

/-- What the output's path names. -/
theorem entry_out (out : Files.Node) {e : Files.Volume.Entry}
    (h : (filesWith out).entry .owner "out" = .ok e) : e.place ++ [e.name] = ["out"] := by
  have hout : (filesWith out).entry .owner "out" = .ok ⟨[], 0o755,
      [("d", .directory 0o750 []), ("out", out), ("t", .file 0o644 (Text.utf8 source))], "out"⟩ := rfl
  cases hout.symm.trans h
  rfl

theorem apart (out : Files.Node) : apartConfig.Apart .owner (filesWith out) := by
  constructor
  · intro e he
    rw [entry_out out he]
    have hname : (["t"] : Files.Location) ≠ ["out"] := by decide
    exact ⟨["t"], .step (List.cons_ne_nil _ _).symm rfl (.done hname)⟩
  · intro e he
    rw [entry_out out he]
    exact ⟨[], .step (List.cons_ne_nil _ _).symm rfl (.done (List.cons_ne_nil _ _).symm)⟩

/-- The link is replaced by a file with the mode of the directory. -/
theorem linkReplaced :
    ∃ records w', World.generate .owner constant catalog apartConfig
        (.start (filesWith (.link "d")) ()) = (.ok records, w') ∧
      w'.files = filesWith (.file 0o750 (Text.utf8 "v r1")) := by
  have htemplated : apartConfig.Templated .owner (filesWith (.link "d")) ⟨"t", template.body⟩ := by
    refine ⟨Text.utf8 source, rfl, ?_⟩
    rw [ManifestTemplate.ofContent, Text.ofUtf8?_utf8]
    cbv
  have hanswered : catalog.Answered apartConfig constant ()
      (catalog.artifacts.map fun d => Text.utf8 (config.urls.ofDescriptor "" d)) () :=
    .cons rfl (.cons rfl .nil)
  exact ⟨_, _, World.Course.generate_eq (.complete htemplated hanswered rfl rfl), rfl⟩

end Sample

/-- **Regeneration is idempotent** — where the same addresses are answered in the same way, and neither
the template's path nor the directory part of the output's leads through the entry that a run
replaced, every later run on the files that this one left succeeds with the same records and requests,
and leaves the same files. -/
theorem regeneration_idempotent {σ : Type} {caller : Files.Caller} {fetcher : Fetcher σ}
    {catalog : Catalog} {config : Config} {w w' : World σ} {records : Records}
    (hsteady : fetcher.Steady) (hapart : config.Apart caller w.files)
    (h : World.generate caller fetcher catalog config w = (.ok records, w')) :
    ∃ urls, w'.fetched = w.fetched ++ urls ∧
      ∀ later : World σ, later.files = w'.files → ∃ w'',
        World.generate caller fetcher catalog config later = (.ok records, w'') ∧
          w''.fetched = later.fetched ++ urls ∧ w''.files = w'.files := by
  cases World.generate_eq_iff.mp h with
  | @complete template contents network text files htemplate hall hrender hwrite =>
    refine ⟨catalog.artifacts.map (config.urls.ofDescriptor catalog.remoteDir), rfl,
      fun later hlater => ?_⟩
    have hlater : later.files = files := hlater
    obtain ⟨found, e, hcan, rfl⟩ := Files.Volume.replace_run_eq_ok_iff.mp hwrite
    have htemplate' : config.Templated caller (w.files.put e.place e.name
        (.file (found.getD Files.newFileMode) (Text.utf8 text))) template :=
      htemplate.put hapart hcan.overwritable rfl
    have hwrite' := Files.Volume.replace_run_again hwrite hapart.directory
    rw [← hlater] at htemplate' hwrite'
    obtain ⟨network', hall'⟩ := hall.again hsteady later.network
    refine ⟨_, World.Course.generate_eq (.complete htemplate' hall' hrender hwrite'), rfl, ?_⟩
    exact hlater

/-- A run that replaces a link to a directory by a file, made again. -/
theorem regeneration_idempotent_sample :
    Sample.constant.Steady ∧
    Sample.apartConfig.Apart .owner (Sample.filesWith (.link "d")) ∧
    ∃ records w', World.generate .owner Sample.constant Sample.catalog Sample.apartConfig
        (.start (Sample.filesWith (.link "d")) ()) = (.ok records, w') ∧
      w'.files = Sample.filesWith (.file 0o750 (Text.utf8 "v r1")) ∧
      ∃ w'', World.generate .owner Sample.constant Sample.catalog Sample.apartConfig w'
        = (.ok records, w'') ∧ w''.files = w'.files := by
  have hsteady : Sample.constant.Steady := fun _ _ _ => rfl
  have hapart := Sample.apart (.link "d")
  obtain ⟨records, w', hfirst, hfiles⟩ := Sample.linkReplaced
  obtain ⟨urls, -, hagain⟩ := regeneration_idempotent hsteady hapart hfirst
  obtain ⟨w'', hrun, -, hsame⟩ := hagain _ rfl
  exact ⟨hsteady, hapart, records, w', hfirst, hfiles, w'', hrun, hsame⟩

end PinnedManifest
