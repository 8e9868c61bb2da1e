import PinnedManifest.Proofs.Steps
import PinnedManifest.World

/-!
# Proofs/Generation/Fetching — artefacts fetched one after the other

A fetcher with a state answers each address from the state the address before has left it in
(`Fetcher.Answers`).  Fetching the artefacts of a list asks for their addresses in order, pairs each
descriptor with the answer to its own address (`resolveAll_run`), and stops at the first address that
is answered by an error (`resolveAll_run_error`); one of the two always happens
(`answers_or_fails`).
-/

namespace PinnedManifest

variable {σ : Type}

/-! ## What a fetcher answers -/

/-- Addresses asked for in order, each answered with content: the contents, and the states of the
fetcher before and after. -/
inductive Fetcher.Answers (fetcher : Fetcher σ) :
    List String → σ → List (List UInt8) → σ → Prop
  | nil {s : σ} : Answers fetcher [] s [] s
  | cons {url : String} {urls : List String} {s s₁ s₂ : σ} {content : List UInt8}
      {contents : List (List UInt8)} :
      fetcher url s = (.ok content, s₁) → Answers fetcher urls s₁ contents s₂ →
      Answers fetcher (url :: urls) s (content :: contents) s₂

namespace Fetcher

variable {fetcher : Fetcher σ}

/-- There is one answer to each address. -/
theorem Answers.length {urls : List String} {s s' : σ} {contents : List (List UInt8)}
    (h : Answers fetcher urls s contents s') : contents.length = urls.length := by
  induction h with
  | nil => rfl
  | cons _ _ ih => rw [List.length_cons, List.length_cons, ih]

/-- The answers are those of the fetcher. -/
theorem Answers.unique : ∀ {urls : List String} {s s' s'' : σ} {contents contents' : List (List UInt8)},
    Answers fetcher urls s contents s' → Answers fetcher urls s contents' s'' → contents = contents'
  | [], _, _, _, _, _, .nil, .nil => rfl
  | _ :: _, _, _, _, _, _, .cons hurl hurls, .cons hurl' hurls' => by
      cases hurl.symm.trans hurl'
      rw [hurls.unique hurls']

/-- **Every list of addresses is answered in full or fails at a first one.** -/
theorem answers_or_fails (fetcher : Fetcher σ) (address : Descriptor → String) :
    ∀ (ds : List Descriptor) (s : σ),
      (∃ contents s', Answers fetcher (ds.map address) s contents s') ∨
        ∃ before d after contents s' cause s'', ds = before ++ d :: after ∧
          Answers fetcher (before.map address) s contents s' ∧
            fetcher (address d) s' = (.error cause, s'')
  | [], s => .inl ⟨[], s, .nil⟩
  | d :: ds, s => by
      rcases hd : fetcher (address d) s with ⟨cause | content, s₁⟩
      · exact .inr ⟨[], d, ds, [], s, cause, s₁, rfl, .nil, hd⟩
      · rcases answers_or_fails fetcher address ds s₁ with
          ⟨contents, s', h⟩ | ⟨before, e, after, contents, s', cause, s'', rfl, h, he⟩
        · exact .inl ⟨content :: contents, s', .cons hd h⟩
        · exact .inr ⟨d :: before, e, after, content :: contents, s', cause, s'', rfl, .cons hd h, he⟩

end Fetcher

/-! ## What fetching leaves behind -/

namespace PinnedUrls

/-- The address of a descriptor's artefact. -/
def ofDescriptor (urls : PinnedUrls) (remoteDir : String) (d : Descriptor) : String :=
  urls.artifact remoteDir d.remotePath

/-- The lines said before an artefact is fetched. -/
def startLines (urls : PinnedUrls) (remoteDir : String) (d : Descriptor) : List Log.Entry :=
  [⟨.debug, "Processing artefact: " ++ d.name⟩,
    ⟨.debug, "Fetching " ++ urls.ofDescriptor remoteDir d⟩]

/-- The lines said about an artefact that was fetched. -/
def lines (urls : PinnedUrls) (remoteDir : String) (d : Descriptor) (content : List UInt8) :
    List Log.Entry :=
  urls.startLines remoteDir d ++
    [⟨.debug, d.name ++ ": " ++ toString content.length ++ " bytes, sha256 "
      ++ (Digest.of content).text⟩]

/-- The named record of an artefact that was fetched. -/
def entry (urls : PinnedUrls) (remoteDir : String) (d : Descriptor) (content : List UInt8) :
    String × Record :=
  (d.name,
    { path := d.localPath
      remotePath := d.remotePath
      version := d.version
      sha256 := Digest.of content
      description := d.description
      url := urls.ofDescriptor remoteDir d
      docUrl := d.docPath.map urls.doc })

end PinnedUrls

namespace World

/-- The world after artefacts were fetched, which left the network in a given state. -/
def afterFetching (w : World σ) (urls : PinnedUrls) (remoteDir : String) (ds : List Descriptor)
    (contents : List (List UInt8)) (network : σ) : World σ where
  files := w.files
  network := network
  fetched := w.fetched ++ ds.map (urls.ofDescriptor remoteDir)
  log := w.log ++ (List.zipWith (urls.lines remoteDir) ds contents).flatten

/-- The world after one more artefact was asked for in vain. -/
def afterFailing (w : World σ) (urls : PinnedUrls) (remoteDir : String) (d : Descriptor)
    (network : σ) : World σ where
  files := w.files
  network := network
  fetched := w.fetched ++ [urls.ofDescriptor remoteDir d]
  log := w.log ++ urls.startLines remoteDir d

end World

namespace Host

variable {caller : Files.Caller} {fetcher : Fetcher σ}

theorem run_say (caller : Files.Caller) (fetcher : Fetcher σ) (level : Log.Level) (text : String)
    (w : World σ) :
    ((World.host caller fetcher).say level text).run w
      = (.ok (), { w with log := w.log ++ [⟨level, text⟩] }) := rfl

theorem run_attempt {m : Type} {ε α : Type} (blame : ε → RunError) (step : StateM m (Except ε α))
    (w : m) :
    (attempt blame step).run w =
      match step w with
      | (.ok a, w') => (.ok a, w')
      | (.error e, w') => (.error (blame e), w') := by
  simp only [attempt, ExceptT.run, ExceptT.mk, bind, StateT.bind]
  rcases step w with ⟨_ | _, _⟩ <;> rfl

theorem run_fetch (caller : Files.Caller) (fetcher : Fetcher σ) (blame : DownloadError → RunError)
    (url : String) (w : World σ) :
    (attempt blame ((World.host caller fetcher).fetch url)).run w =
      match fetcher url w.network with
      | (.ok content, network) =>
        (.ok content, { w with network := network, fetched := w.fetched ++ [url] })
      | (.error cause, network) =>
        (.error (blame cause), { w with network := network, fetched := w.fetched ++ [url] }) := by
  rw [run_attempt]
  simp only [World.host]
  rcases fetcher url w.network with ⟨_ | _, _⟩ <;> rfl

/-- **One artefact** — asked for once, and recorded with what was answered. -/
theorem resolveOne_run (caller : Files.Caller) (fetcher : Fetcher σ) (remoteDir : String)
    (urls : PinnedUrls) (d : Descriptor) (w : World σ) :
    ((World.host caller fetcher).resolveOne remoteDir urls d).run w =
      match fetcher (urls.ofDescriptor remoteDir d) w.network with
      | (.ok content, network) =>
        (.ok (urls.entry remoteDir d content).2, w.afterFetching urls remoteDir [d] [content] network)
      | (.error cause, network) =>
        (.error (.retrieval d.name cause), w.afterFailing urls remoteDir d network) := by
  simp only [resolveOne, run_bind, run_say, run_fetch, PinnedUrls.ofDescriptor]
  rcases fetcher (urls.artifact remoteDir d.remotePath) w.network with ⟨cause | content, network⟩
  · simp [World.afterFailing, PinnedUrls.startLines, PinnedUrls.ofDescriptor]
  · simp [World.afterFetching, PinnedUrls.lines, PinnedUrls.startLines, PinnedUrls.ofDescriptor,
      PinnedUrls.entry, Record.ofDescriptor]

/-- **All artefacts answered** — each is recorded behind the records before it. -/
theorem resolveAll_run (caller : Files.Caller) {urls : PinnedUrls} {remoteDir : String} :
    ∀ {ds : List Descriptor} {contents : List (List UInt8)} {network : σ} {records : Records}
      {w : World σ}, Fetcher.Answers fetcher (ds.map (urls.ofDescriptor remoteDir)) w.network contents
        network →
      ((World.host caller fetcher).resolveAll remoteDir urls records ds).run w
        = (.ok ⟨records.entries ++ List.zipWith (urls.entry remoteDir) ds contents⟩,
            w.afterFetching urls remoteDir ds contents network)
  | [], _, _, records, w, h => by
      cases h
      simp [resolveAll, World.afterFetching]
  | d :: ds, _, network, records, w, h => by
      cases h with
      | @cons _ _ _ s₁ _ content contents hd hrest =>
        rw [resolveAll, run_bind, resolveOne_run, hd]
        simp only
        rw [resolveAll_run caller (w := w.afterFetching urls remoteDir [d] [content] s₁) hrest]
        simp [World.afterFetching, Records.push, PinnedUrls.entry]

/-- **An artefact that fails** — those before it were fetched, those after it are not asked for. -/
theorem resolveAll_run_error (caller : Files.Caller) {urls : PinnedUrls} {remoteDir : String}
    {d : Descriptor} {after : List Descriptor} {cause : DownloadError} {network' : σ} :
    ∀ {before : List Descriptor} {contents : List (List UInt8)} {network : σ} {records : Records}
      {w : World σ}, Fetcher.Answers fetcher (before.map (urls.ofDescriptor remoteDir)) w.network
        contents network →
      fetcher (urls.ofDescriptor remoteDir d) network = (.error cause, network') →
      ((World.host caller fetcher).resolveAll remoteDir urls records (before ++ d :: after)).run w
        = (.error (.retrieval d.name cause),
            (w.afterFetching urls remoteDir before contents network).afterFailing urls remoteDir d
              network')
  | [], _, _, records, w, h, hd => by
      cases h
      rw [List.nil_append, resolveAll, run_bind, resolveOne_run, hd]
      simp [World.afterFetching]
  | b :: before, _, network, records, w, h, hd => by
      cases h with
      | @cons _ _ _ s₁ _ content contents hb hrest =>
        rw [List.cons_append, resolveAll, run_bind, resolveOne_run, hb]
        simp only
        rw [resolveAll_run_error caller (w := w.afterFetching urls remoteDir [b] [content] s₁) hrest
          hd]
        simp [World.afterFetching, World.afterFailing]

end Host

end PinnedManifest
