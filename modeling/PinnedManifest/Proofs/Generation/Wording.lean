import PinnedManifest.Proofs.CommandLine.RoundTrip
import PinnedManifest.Proofs.Generation.Course
import PinnedManifest.Proofs.Http.Failures
import PinnedManifest.Proofs.Revision.Verdict

/-!
# Proofs/Generation/Wording — an error names what it is about

An error is about a value, a path, or an artefact and its address, and it has a cause with words of its
own (`RunError.parts`); its wording holds them all (`RunError.mentions`).  The error of a command's run
thus tells what was given to the command, or which artefact of its catalog was asked for where
(`Command.run_error_names`).
-/

namespace PinnedManifest

/-! ## Texts in texts -/

/-- A text holds another one. -/
def Mentions (text part : String) : Prop := part.toList <:+: text.toList

namespace Mentions

variable {text part lead first mid second : String}

theorem refl (text : String) : Mentions text text := List.infix_rfl

theorem left (h : Mentions text part) (more : String) : Mentions (text ++ more) part := by
  rw [Mentions, String.toList_append]
  exact h.trans (List.prefix_append _ _).isInfix

theorem right (h : Mentions text part) (more : String) : Mentions (more ++ text) part := by
  rw [Mentions, String.toList_append]
  exact h.trans (List.suffix_append _ _).isInfix

/-- **Most wordings** tell two things, each behind words of its own. -/
theorem of_mem_pair (h : part ∈ [first, second]) :
    Mentions (lead ++ first ++ mid ++ second) part := by
  rcases List.mem_pair.mp h with rfl | rfl
  · exact (((refl _).right _).left _).left _
  · exact (refl _).right _

end Mentions

/-! ## What errors are made of -/

/-- What is told of a download: the address, and why it failed. -/
def DownloadError.parts : DownloadError → List String
  | .notFound url => [url]
  | .failed url reason => [url, reason]

/-- The path of the template. -/
def TemplateError.path : TemplateError → String
  | .unreadable path _ => path
  | .malformed path _ => path
  | .failed path _ => path

/-- What is told of a template: its path, and what is wrong with it. -/
def TemplateError.parts : TemplateError → List String
  | .unreadable path fault => [path, fault.message]
  | .malformed path fault => [path, fault.message]
  | .failed path failure => [path, placeText failure.place, failure.reason.message]

/-- What is told of a run: a value, an artefact with its address, or a path, and why it failed. -/
def RunError.parts : RunError → List String
  | .invalidRevision r => [r.value, r.fault.reason]
  | .retrieval artifact cause => artifact :: cause.parts
  | .template e => e.parts
  | .output path fault => [path, fault.message]

theorem DownloadError.url_mem_parts (e : DownloadError) : e.url ∈ e.parts := by
  cases e <;> exact List.mem_cons_self

theorem TemplateError.path_mem_parts (e : TemplateError) : e.path ∈ e.parts := by
  cases e <;> exact List.mem_cons_self

/-! ## What they say -/

theorem DownloadError.mentions : ∀ e : DownloadError, ∀ part ∈ e.parts, Mentions e.message part
  | .notFound url, part, h => by
      cases List.mem_singleton.mp h
      exact (Mentions.refl url).right _
  | .failed url reason, part, h => .of_mem_pair h

theorem TemplateError.mentions : ∀ e : TemplateError, ∀ part ∈ e.parts, Mentions e.message part
  | .unreadable path fault, part, h => .of_mem_pair h
  | .malformed path fault, part, h => .of_mem_pair h
  | .failed path failure, part, h => by
      -- the engine's own words stand behind those of the template
      refine Mentions.right ?_ _
      rcases List.mem_cons.mp h with rfl | h
      · exact (((((Mentions.refl _).right _).left _).left _).left _).left _
      exact .of_mem_pair h

/-- **The wording of an error holds all that is told** — the value, path, artefact or address that the
error is about, and the words of its cause. -/
theorem RunError.mentions : ∀ e : RunError, ∀ part ∈ e.parts, Mentions e.message part
  | .invalidRevision r, part, h => .of_mem_pair h
  | .retrieval artifact cause, part, h => by
      rcases List.mem_cons.mp h with rfl | h
      · exact (((Mentions.refl _).right _).left _).left _
      · exact (cause.mentions part h).right _
  | .template e, part, h => e.mentions part h
  | .output path fault, part, h => .of_mem_pair h

/-! ## What a command's run says -/

namespace ManifestTemplate

/-- What is no template is told under the path it was read from. -/
theorem path_of_ofContent_error {path : String} {content : List UInt8} {e : TemplateError}
    (h : ofContent path content = .error e) : e.path = path := by
  rw [ofContent] at h
  split at h
  · rw [ofSource] at h
    split at h <;> cases h
    rfl
  · cases h
    rfl

/-- A template keeps the path it was read from. -/
theorem path_of_ofContent {path : String} {content : List UInt8} {t : ManifestTemplate}
    (h : ofContent path content = .ok t) : t.path = path := by
  rw [ofContent] at h
  split at h
  · rw [ofSource] at h
    split at h <;> cases h
    rfl
  · cases h

/-- And fails under it. -/
theorem path_of_render_error {t : ManifestTemplate} {data : Json.Value} {e : TemplateError}
    (h : t.render data = .error e) : e.path = t.path := by
  rw [render] at h
  split at h <;> cases h
  rfl

end ManifestTemplate

namespace Command

variable {σ : Type} {caller : Files.Caller} {serverFor : Nat → Http.Server σ} {catalog : Catalog}
  {s : CommandLine.Settings} {w w' : World (Http.Network σ)} {e : RunError}

/-- **An error names what it is about**: the revision or the path that the command was given, or the name
of an artefact of its catalog and the address at which the artefact was asked for. -/
def Names (catalog : Catalog) (s : CommandLine.Settings) (e : RunError) : Prop :=
  match e with
  | .invalidRevision _ => Mentions e.message s.commit
  | .retrieval _ _ => ∃ d ∈ catalog.artifacts, ∃ config, s.config = .ok config ∧
      Mentions e.message d.name ∧
      Mentions e.message (config.urls.ofDescriptor catalog.remoteDir d)
  | .template _ => Mentions e.message s.template
  | .output _ _ => Mentions e.message s.output

/-- What is fetched in vain from servers is told under its address. -/
theorem url_of_fetcher_error {server : Http.Server σ} {limit : Nat} {url : String}
    {n n' : Http.Network σ} {cause : DownloadError}
    (h : Http.fetcher server limit url n = (.error cause, n')) : cause.url = url := by
  obtain ⟨f, -, rfl⟩ := Http.fetcher_eq_error_iff.mp (congrArg Prod.fst h)
  exact f.url_downloadError url

/-- An error about the template names it. -/
theorem names_template {t : TemplateError} (h : t.path = s.template) :
    Names catalog s (.template t) := by
  rw [Names, ← h]
  exact RunError.mentions (.template t) _ t.path_mem_parts

/-- **The error of a command's run names what it is about.** -/
theorem run_error_names (h : run caller serverFor catalog s w = (.error e, w')) :
    Names catalog s e := by
  generalize hresult : (Except.error e : Except RunError Unit) = result at h
  cases runOn_eq_iff.mp h with
  | @refused r hs =>
    cases hresult
    have hvalue : r.value = s.commit := by
      rw [CommandLine.Settings.config] at hs
      cases hof : Revision.ofText s.commit with
      | ok _ => rw [hof] at hs; cases hs
      | error r' =>
        rw [hof] at hs
        cases hs
        exact (Revision.ofText_eq_error_iff.mp hof).1
    rw [Names, ← hvalue]
    exact RunError.mentions (.invalidRevision r) _ List.mem_cons_self
  | started hconfig hcourse =>
    obtain ⟨htemplatePath, houtputPath, -⟩ := CommandLine.Settings.config_eq_ok_iff.mp hconfig
    have hpath {t : ManifestTemplate} {files : Files.Volume} {config : Config}
        (ht : config.Templated caller files t) : t.path = config.template := by
      obtain ⟨content, -, hof⟩ := ht
      exact ManifestTemplate.path_of_ofContent hof
    cases hcourse with
    | unreadable _ =>
      cases hresult
      exact names_template htemplatePath
    | malformed _ hof =>
      cases hresult
      exact names_template ((ManifestTemplate.path_of_ofContent_error hof).trans htemplatePath)
    | @missing _ _ _ d _ _ _ cause _ hsplit _ hd =>
      cases hresult
      refine ⟨d, by simp [hsplit], _, hconfig, ?_, ?_⟩
      · exact RunError.mentions (.retrieval d.name cause) _ List.mem_cons_self
      · rw [← url_of_fetcher_error hd]
        exact RunError.mentions (.retrieval d.name cause) _
          (List.mem_cons_of_mem _ cause.url_mem_parts)
    | unrendered htemplate _ hrender =>
      cases hresult
      exact names_template
        ((ManifestTemplate.path_of_render_error hrender).trans ((hpath htemplate).trans htemplatePath))
    | @unwritten _ _ _ _ fault _ _ _ _ =>
      cases hresult
      rw [Names, ← houtputPath]
      exact RunError.mentions (.output _ fault) _ List.mem_cons_self
    | complete => cases hresult

end Command

end PinnedManifest
