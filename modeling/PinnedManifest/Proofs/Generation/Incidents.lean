import PinnedManifest.Proofs.Files.Interruption
import PinnedManifest.Proofs.Generation.Course

/-!
# Proofs/Generation/Incidents — runs whose replacement meets with incidents

A run reads, fetches and says things without touching a file, and replaces its output at the end.  On
any host for which this is so (`Host.Sparing`) a run that fails leaves the files as they were
(`Sparing.generate`), whatever makes it fail.  `World.hostAmid` is such a host: a plan says which steps
of the replacement fail, and which writes take some of the bytes only.  A run that succeeds on it has
done what it does without incidents (`World.generate_of_generateAmid`).
-/

namespace PinnedManifest

variable {σ ε α β : Type}

namespace World

/-! ## Computations and the files -/

/-- A computation leaves the files alone, however it ends. -/
def Spares (x : ExceptT ε (StateM (World σ)) α) : Prop := ∀ w, (x.run w).2.files = w.files

/-- A computation that fails leaves the files as they were. -/
def Undoes (x : ExceptT ε (StateM (World σ)) α) : Prop :=
  ∀ w w' e, x.run w = (.error e, w') → w'.files = w.files

theorem Spares.pure (a : α) : Spares (pure a : ExceptT ε (StateM (World σ)) α) := fun _ => rfl

theorem Spares.throw (e : ε) : Spares (throw e : ExceptT ε (StateM (World σ)) α) := fun _ => rfl

theorem Spares.undoes {x : ExceptT ε (StateM (World σ)) α} (h : Spares x) : Undoes x := by
  intro w w' e hrun
  rw [← h w, hrun]

/-- **One computation after the other.** -/
theorem Spares.bind {x : ExceptT ε (StateM (World σ)) α} {f : α → ExceptT ε (StateM (World σ)) β}
    (hx : Spares x) (hf : ∀ a, Spares (f a)) : Spares (x >>= f) := by
  intro w
  have hfiles := hx w
  rw [run_bind]
  rcases hrun : x.run w with ⟨e | a, w₁⟩ <;> rw [hrun] at hfiles
  · exact hfiles
  · exact (hf a w₁).trans hfiles

/-- What is left alone at first may be changed later, by a computation that succeeds. -/
theorem Spares.bind_undoes {x : ExceptT ε (StateM (World σ)) α}
    {f : α → ExceptT ε (StateM (World σ)) β} (hx : Spares x) (hf : ∀ a, Undoes (f a)) :
    Undoes (x >>= f) := by
  intro w w' e hrun
  have hfiles := hx w
  rw [run_bind] at hrun
  rcases hrun₁ : x.run w with ⟨e₁ | a, w₁⟩ <;> rw [hrun₁] at hrun hfiles
  · cases hrun
    exact hfiles
  · exact (hf a w₁ w' e hrun).trans hfiles

/-- And nothing may fail behind what has changed them. -/
theorem Undoes.bind {x : ExceptT ε (StateM (World σ)) α} {f : α → ExceptT ε (StateM (World σ)) β}
    (hx : Undoes x) (hf : ∀ a w, ∃ b w', (f a).run w = (.ok b, w')) : Undoes (x >>= f) := by
  intro w w' e hrun
  rw [run_bind] at hrun
  rcases hrun₁ : x.run w with ⟨e₁ | a, w₁⟩ <;> rw [hrun₁] at hrun
  · cases hrun
    exact hx w w' e hrun₁
  · obtain ⟨b, w₂, hok⟩ := hf a w₁
    cases hok.symm.trans hrun

end World

/-! ## Hosts that spare the files -/

namespace Host

/-- **A host that spares the files** — it reads, fetches and says things without touching them, and a
replacement that fails leaves them as they were. -/
structure Sparing (host : Host (StateM (World σ))) : Prop where
  read : ∀ path w, (host.read path w).2.files = w.files
  fetch : ∀ url w, (host.fetch url w).2.files = w.files
  log : ∀ entry w, (host.log entry w).2.files = w.files
  replace : ∀ path content w w' fault,
    host.replace path content w = (.error fault, w') → w'.files = w.files

variable {host : Host (StateM (World σ))}

/-- A step spares the files if the host's does. -/
theorem spares_attempt {step : StateM (World σ) (Except ε α)} (blame : ε → RunError)
    (h : ∀ w, (step w).2.files = w.files) : World.Spares (attempt blame step) := by
  intro w
  rw [run_attempt, ← h w]
  rcases step w with ⟨_ | _, _⟩ <;> rfl

namespace Sparing

variable (h : host.Sparing)

include h

theorem say (level : Log.Level) (text : String) : World.Spares (host.say level text) :=
  fun w => h.log ⟨level, text⟩ w

theorem loadTemplate (path : String) : World.Spares (host.loadTemplate path) := by
  refine (spares_attempt _ (h.read path)).bind fun content => ?_
  cases ManifestTemplate.ofContent path content with
  | ok t => exact .pure t
  | error e => exact .throw _

theorem resolveOne (remoteDir : String) (urls : PinnedUrls) (d : Descriptor) :
    World.Spares (host.resolveOne remoteDir urls d) :=
  (h.say _ _).bind fun _ => (h.say _ _).bind fun _ => (spares_attempt _ (h.fetch _)).bind fun _ =>
    (h.say _ _).bind fun _ => .pure _

theorem resolveAll (remoteDir : String) (urls : PinnedUrls) :
    ∀ (ds : List Descriptor) (records : Records),
      World.Spares (host.resolveAll remoteDir urls records ds)
  | [], records => .pure records
  | d :: ds, records =>
    (h.resolveOne remoteDir urls d).bind fun r => resolveAll remoteDir urls ds (records.push d.name r)

theorem renderManifest (catalog : Catalog) (urls : PinnedUrls) (template : ManifestTemplate) :
    World.Spares (host.renderManifest catalog urls template) := by
  refine (h.resolveAll catalog.remoteDir urls catalog.artifacts .empty).bind fun records => ?_
  cases template.render (manifestContext catalog.contextKey records urls.revision) with
  | ok text => exact .pure _
  | error e => exact .throw _

theorem replaced (path : String) (content : List UInt8) :
    World.Undoes (attempt (.output path) (host.replace path content)) := by
  intro w w' e hrun
  rw [run_attempt] at hrun
  rcases hreplace : host.replace path content w with ⟨fault | _, w₁⟩ <;> rw [hreplace] at hrun
  · cases hrun
    exact h.replace path content w w' fault hreplace
  · cases hrun

/-- **A run that fails leaves the files as they were**, on any host that spares them. -/
theorem generate (catalog : Catalog) (config : Config) :
    World.Undoes (host.generate catalog config) :=
  (h.loadTemplate _).bind_undoes fun _ => (h.say _ _).bind_undoes fun _ =>
    (h.renderManifest _ _ _).bind_undoes fun _ => (h.replaced _ _).bind fun _ _ => ⟨_, _, rfl⟩

/-- So does a command's run. -/
theorem runOn (catalog : Catalog) (s : CommandLine.Settings) :
    World.Undoes (Command.runOn host catalog s) := by
  rw [Command.runOn]
  cases s.config with
  | error r => exact (World.Spares.throw _).undoes
  | ok config => exact (h.generate catalog config).bind fun _ w => ⟨(), w, rfl⟩

end Sparing

end Host

/-! ## Incidents in a world -/

namespace World

/-- **The host of a world in which a replacement meets with incidents**: its steps are performed one by
one, and a plan says what befalls them. -/
def hostAmid (caller : Files.Caller) (fetcher : Fetcher σ) (plan : List Files.Incident) :
    Host (StateM (World σ)) :=
  { host caller fetcher with
    replace := fun path content w =>
      let (result, watch) :=
        ((Files.Volume.disk caller).watched.replace path content).run (.start w.files plan)
      (result, { w with files := watch.files }) }

/-- A whole run in a world whose replacement meets with incidents. -/
def generateAmid (caller : Files.Caller) (fetcher : Fetcher σ) (plan : List Files.Incident)
    (catalog : Catalog) (config : Config) (w : World σ) : Except RunError Records × World σ :=
  ((hostAmid caller fetcher plan).generate catalog config).run w

/-- **Without incidents the host is the one of the world.** -/
theorem hostAmid_nil (caller : Files.Caller) (fetcher : Fetcher σ) :
    hostAmid caller fetcher [] = host caller fetcher := by
  refine congrArg (fun replace => { host caller fetcher with replace }) ?_
  funext path content w
  obtain ⟨-, hfollows⟩ :=
    (Files.Volume.disk caller).follows_replace path content (.start w.files []) rfl
  exact congrArg (fun done => (done.1, { w with files := done.2 })) hfollows

/-- Whatever befalls the steps, a replacement that fails leaves the files as they were. -/
theorem sparing_hostAmid (caller : Files.Caller) (fetcher : Fetcher σ) (plan : List Files.Incident) :
    (hostAmid caller fetcher plan).Sparing where
  read _ _ := rfl
  fetch _ _ := rfl
  log _ _ := rfl
  replace path content w w' fault h := by
    obtain ⟨-, hend⟩ := Files.Volume.goes_replace caller path content w.files (.start w.files plan) rfl
    simp only [hostAmid] at h
    rcases hrun : ((Files.Volume.disk caller).watched.replace path content).run
      (.start w.files plan) with ⟨f | _, watch⟩ <;> rw [hrun] at h hend
    · cases h
      exact hend.2
    · cases h

/-! ## Success amid incidents -/

/-- A computation succeeds only where another does, with the same result and world. -/
def SucceedsAs (x y : ExceptT ε (StateM (World σ)) α) : Prop :=
  ∀ w a w', x.run w = (.ok a, w') → y.run w = (.ok a, w')

theorem SucceedsAs.refl (x : ExceptT ε (StateM (World σ)) α) : SucceedsAs x x := fun _ _ _ h => h

/-- **One computation after the other.** -/
theorem SucceedsAs.bind {x y : ExceptT ε (StateM (World σ)) α}
    {f g : α → ExceptT ε (StateM (World σ)) β} (hx : SucceedsAs x y)
    (hf : ∀ a, SucceedsAs (f a) (g a)) : SucceedsAs (x >>= f) (y >>= g) := by
  intro w b w' hrun
  rw [run_bind] at hrun ⊢
  rcases hrun₁ : x.run w with ⟨e | a, w₁⟩ <;> rw [hrun₁] at hrun
  · cases hrun
  · rw [hx w a w₁ hrun₁]
    exact hf a w₁ b w' hrun

variable (caller : Files.Caller) (fetcher : Fetcher σ) (plan : List Files.Incident)

/-- Nothing befalls what is fetched. -/
theorem resolveAll_hostAmid (remoteDir : String) (urls : PinnedUrls) :
    ∀ (ds : List Descriptor) (records : Records),
      (hostAmid caller fetcher plan).resolveAll remoteDir urls records ds
        = (host caller fetcher).resolveAll remoteDir urls records ds
  | [], _ => rfl
  | d :: ds, records =>
    bind_congr fun r => resolveAll_hostAmid remoteDir urls ds (records.push d.name r)

/-- A replacement that succeeds in spite of what befalls its steps is one that can be made. -/
theorem succeedsAs_replace (path : String) (content : List UInt8) :
    SucceedsAs (Host.attempt (.output path) ((hostAmid caller fetcher plan).replace path content))
      (Host.attempt (.output path) ((host caller fetcher).replace path content)) := by
  intro w _ w' hrun
  obtain ⟨-, hend⟩ := Files.Volume.goes_replace caller path content w.files (.start w.files plan) rfl
  rw [Host.run_attempt] at hrun
  simp only [hostAmid] at hrun
  rcases hwatched : ((Files.Volume.disk caller).watched.replace path content).run
    (.start w.files plan) with ⟨f | _, watch⟩ <;> rw [hwatched] at hrun hend
  · cases hrun
  · cases hrun
    rw [Host.run_replace, Files.Volume.replace_run_eq_ok_iff.mpr hend.2]

/-- Nor what is rendered. -/
theorem renderManifest_hostAmid (catalog : Catalog) (urls : PinnedUrls)
    (template : ManifestTemplate) :
    (hostAmid caller fetcher plan).renderManifest catalog urls template
      = (host caller fetcher).renderManifest catalog urls template := by
  rw [Host.renderManifest, Host.resolve, resolveAll_hostAmid]
  rfl

/-- **A run that succeeds amid incidents** has done what it does without them. -/
theorem generate_of_generateAmid {catalog : Catalog} {config : Config} {w w' : World σ}
    {records : Records} (h : generateAmid caller fetcher plan catalog config w = (.ok records, w')) :
    World.generate caller fetcher catalog config w = (.ok records, w') := by
  have hsucceeds : SucceedsAs ((hostAmid caller fetcher plan).generate catalog config)
      ((host caller fetcher).generate catalog config) := by
    refine .bind (.refl _) fun template => .bind (.refl _) fun _ => .bind ?_ fun rendered =>
      .bind (succeedsAs_replace caller fetcher plan _ _) fun _ => .refl _
    rw [renderManifest_hostAmid]
    exact .refl _
  exact hsucceeds w records w' h

/-- **A run that gets to its replacement** ends as that does. -/
theorem generateAmid_of_gathered {catalog : Catalog} {config : Config} {w : World σ}
    {template : ManifestTemplate} {contents : List (List UInt8)} {network : σ} {text : String}
    (htemplate : config.Templated caller w.files template)
    (hall : catalog.Answered config fetcher w.network contents network)
    (hrender : template.render (catalog.context config contents) = .ok text) {e : RunError}
    {w' : World σ}
    (hreplace : (Host.attempt (.output config.output)
      ((hostAmid caller fetcher plan).replace config.output (Text.utf8 text))).run
      (w.gathered catalog config contents network) = (.error e, w')) :
    generateAmid caller fetcher plan catalog config w = (.error e, w') := by
  obtain ⟨content, hread, hof⟩ := htemplate
  have hload : ((hostAmid caller fetcher plan).loadTemplate config.template).run w
      = (.ok template, w) := by
    have hcalm := Host.loadTemplate_run caller fetcher config.template w
    rw [hread] at hcalm
    simp only [hof] at hcalm
    exact hcalm
  have hannounce : ((hostAmid caller fetcher plan).say .info
      ("Generating " ++ catalog.name ++ " manifest at revision " ++ config.revision.text)).run w
        = (.ok (), w.announced catalog config) := rfl
  have hmanifest := Host.renderManifest_run caller (w := w.announced catalog config) template hall
  rw [hrender, ← renderManifest_hostAmid caller fetcher plan] at hmanifest
  rw [gathered] at hreplace
  rw [generateAmid, Host.generate, run_bind, hload]
  simp only
  rw [run_bind, hannounce]
  simp only
  rw [run_bind, ← Config.urls, hmanifest]
  simp only
  rw [run_bind, hreplace]

end World

end PinnedManifest
