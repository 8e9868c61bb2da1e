import PinnedManifest.Proofs.Generation.Course
import PinnedManifest.Proofs.Http.Pinned
import PinnedManifest.Proofs.Http.Redirections

/-!
# Proofs/Generation/Requests — what the server of a run is asked for

Every artefact that a run asks for adds to the requests that the server received: none, and then it is
the artefact at which the run stops, or some of which the first is for the artefact's own path, cut where
the revision has a mark.
-/

namespace PinnedManifest

open Http

variable {σ : Type} {server : Server σ} {limit : Nat}

/-! ## Requests of one fetch -/

/-- **One fetch** fails without a request, or adds requests that begin with the one for its path. -/
theorem Http.received_fetcher {host path : String} (server : Server σ) (limit : Nat)
    (hne : host ≠ "") (hhost : ∀ c ∈ host.toList, Uri.endsAuthority c = false)
    (hpath : path.toList.head? = some '/') (n : Network σ) :
    (∃ cause n', fetcher server limit ("http://" ++ host ++ path) n = (.error cause, n') ∧
      n'.received = n.received) ∨
    ∃ first rest, (fetcher server limit ("http://" ++ host ++ path) n).2.received
      = n.received ++ first :: rest ∧ first.Reaches host path := by
  rcases fetch_http limit hne hhost hpath with ⟨e, hdone⟩ | ⟨r, next, hask, hreaches, hlast⟩
  · refine .inl ⟨e, n, ?_, rfl⟩
    rw [fetcher, hdone]
    rfl
  · have hfetch : fetcher server limit ("http://" ++ host ++ path) n
        = (next (server.answer r n).1).hold server.answer (server.answer r n).2 := by
      rw [fetcher, hask]
      exact Dialog.hold_ask ..
    rw [hfetch, Server.answer]
    rcases server r n.state with ⟨reason | response, state⟩
    · obtain ⟨e, he⟩ := hlast reason
      refine .inl ⟨e, ⟨state, n.received⟩, ?_, rfl⟩
      simp only [he]
      rfl
    · obtain ⟨rest, hrest, -⟩ := Dialog.received_hold server (next (.ok response))
        ⟨state, n.received ++ [r]⟩
      refine .inr ⟨r, rest, ?_, hreaches⟩
      rw [List.append_assoc] at hrest
      exact hrest

/-! ## Requests of a run -/

/-- **Artefacts that are answered** add their requests in turn. -/
theorem Http.received_of_answers {host : String} {path : Descriptor → String} (hne : host ≠ "")
    (hhost : ∀ c ∈ host.toList, Uri.endsAuthority c = false)
    (hpath : ∀ d, (path d).toList.head? = some '/') :
    ∀ {ds : List Descriptor} {contents : List (List UInt8)} {n n' : Network σ},
      Fetcher.Answers (fetcher server limit) (ds.map fun d => "http://" ++ host ++ path d) n contents
        n' →
      ∃ chunks, n'.received = n.received ++ chunks.flatten ∧
        List.Forall₂ (fun d chunk => ∃ first rest, chunk = first :: rest ∧
          first.Reaches host (path d)) ds chunks
  | [], _, _, _, h => by
      cases h
      exact ⟨[], (List.append_nil _).symm, .nil⟩
  | d :: ds, _, n, _, h => by
      cases h with
      | @cons _ _ _ n₁ _ _ _ hd hds =>
        rcases received_fetcher server limit hne hhost (hpath d) n with
          ⟨cause, _, hcause, -⟩ | ⟨first, rest, hreceived, hreaches⟩
        · cases hd.symm.trans hcause
        · rw [hd] at hreceived
          obtain ⟨chunks, hchunks, hall⟩ := received_of_answers hne hhost hpath hds
          refine ⟨(first :: rest) :: chunks, ?_, .cons ⟨first, rest, rfl, hreaches⟩ hall⟩
          rw [hchunks, hreceived, List.flatten_cons, List.append_assoc]

section Run

variable {caller : Files.Caller} {catalog : Catalog} {config : Config} {w w' : World (Network σ)}
  {result : Except RunError Records} {host basePath : String}

/-- The path of a descriptor's file in a run. -/
def Config.pathOf (config : Config) (catalog : Catalog) (basePath : String) (d : Descriptor) : String :=
  pinnedPath basePath config.revision catalog.remoteDir d.remotePath

theorem HostedBase.ofDescriptor_eq (hbase : HostedBase config.baseUrl host basePath) :
    config.urls.ofDescriptor catalog.remoteDir
      = fun d => "http://" ++ host ++ config.pathOf catalog basePath d :=
  funext fun _ => hbase.artifact_eq

/-- **The requests of a run** — artefacts are asked for in order, and each adds requests that begin with
the one for its path; but the last may fail without a request. -/
theorem World.received_of_generate (hbase : HostedBase config.baseUrl host basePath)
    (h : World.generate caller (fetcher server limit) catalog config w = (result, w')) :
    ∃ (reached failed : List Descriptor) (chunks : List (List Request)),
      reached ++ failed <+: catalog.artifacts ∧
      w'.fetched = w.fetched ++ (reached ++ failed).map (config.urls.ofDescriptor catalog.remoteDir) ∧
      w'.network.received = w.network.received ++ chunks.flatten ∧
      List.Forall₂ (fun d chunk => ∃ first rest, chunk = first :: rest ∧
        first.Reaches host (config.pathOf catalog basePath d)) reached chunks ∧
      (failed = [] ∨ ∃ d cause, failed = [d] ∧ result = .error (.retrieval d.name cause)) ∧
      ∀ records, result = .ok records → reached = catalog.artifacts := by
  have hpath (d : Descriptor) : (config.pathOf catalog basePath d).toList.head? = some '/' :=
    hbase.head?_pinnedPath
  obtain ⟨answered, failed, contents, network, hasked, hfetched, hanswers, hend, hok⟩ :=
    (World.generate_eq_iff.mp h).asked
  rw [hbase.ofDescriptor_eq] at hanswers
  obtain ⟨chunks, hchunks, hreached⟩ :=
    received_of_answers hbase.host_ne hbase.host_chars hpath hanswers
  rcases hend with ⟨rfl, rfl⟩ | ⟨d, cause, rfl, rfl, hd⟩
  · exact ⟨answered, [], chunks, hasked, hfetched, hchunks, hreached, .inl rfl, hok⟩
  -- the artefact that failed may have been asked for
  rw [hbase.ofDescriptor_eq] at hd
  rcases received_fetcher server limit hbase.host_ne hbase.host_chars (hpath d) network with
    ⟨cause', n, hcause, hnone⟩ | ⟨first, rest, hmore, hreaches⟩
  · cases hd.symm.trans hcause
    exact ⟨answered, [d], chunks, hasked, hfetched, hnone.trans hchunks, hreached,
      .inr ⟨d, cause, rfl, rfl⟩, hok⟩
  · rw [hd] at hmore
    refine ⟨answered ++ [d], [], chunks ++ [first :: rest], ?_, ?_, ?_, ?_, .inl rfl, ?_⟩
    · rwa [List.append_nil]
    · rwa [List.append_nil]
    · rw [List.flatten_append, List.flatten_singleton, ← List.append_assoc, ← hchunks]
      exact hmore
    · exact List.rel_append hreached (.cons ⟨first, rest, rfl, hreaches⟩ .nil)
    · intro records hrecords
      cases hrecords

end Run

namespace Sample

/-! ## Two artefacts at a revision -/

/-- A server that answers everything. -/
def serving : Server Unit := fun _ s => (.ok ⟨200, none, [1], none⟩, s)

/-- Two artefacts at two paths. -/
def twoPaths : Catalog where
  name := "sample"
  contextKey := "blobs"
  remoteDir := "/bin/"
  artifacts := [⟨"a", "first", "a.bin", "a", none, none⟩, ⟨"b", "second", "b.bin", "b", none, none⟩]

/-- A run at a revision below a path. -/
def servedConfig (revision : Revision) : Config :=
  { config with revision := revision, baseUrl := "http://h/base/" }

theorem servedBase : HostedBase "http://h/base/" "h" "/base/" where
  eq := rfl
  host_ne := by decide
  host_chars := List.forall_mem_singleton.mpr rfl
  start := .inr rfl
  unmarked := by decide

theorem unmarkedPaths : twoPaths.Unmarked := ⟨by decide, by decide⟩

/-- What comes of asking for one of the two artefacts. -/
def asking (server : Server Unit) (revision : Revision) (d : Descriptor) (n : Network Unit) :
    Except DownloadError (List UInt8) × Network Unit :=
  fetcher server 100 ((servedConfig revision).urls.ofDescriptor "/bin/" d) n

/-- What comes of asking for the second artefact behind the first. -/
def askingBoth (server : Server Unit) (revision : Revision) :
    Except DownloadError (List UInt8) × Network Unit :=
  asking server revision twoPaths.artifacts[1] (asking server revision twoPaths.artifacts[0] ⟨(), []⟩).2

theorem asking_eq {server : Server Unit} {revision : Revision} {d : Descriptor} {n : Network Unit}
    {result : Except DownloadError (List UInt8)} (h : (asking server revision d n).1 = result) :
    fetcher server 100 ((servedConfig revision).urls.ofDescriptor "/bin/" d) n
      = (result, (asking server revision d n).2) := by
  rw [← h, asking]

/-- A run whose two artefacts are answered is complete. -/
theorem served {server : Server Unit} {revision : Revision} {first second : List UInt8} {text : String}
    (hfirst : (asking server revision twoPaths.artifacts[0] ⟨(), []⟩).1 = .ok first)
    (hsecond : (askingBoth server revision).1 = .ok second)
    (hrender : template.render (twoPaths.context (servedConfig revision) [first, second]) = .ok text)
    (hwrite : ((Files.Volume.disk .owner).replace "out" (Text.utf8 text)).run (files source)
      = (.ok (), files text)) :
    ∃ w', World.generate .owner (Http.fetcher server 100) twoPaths (servedConfig revision)
        (.start (files source) ⟨(), []⟩)
          = (.ok (twoPaths.records (servedConfig revision) [first, second]), w') ∧
      w'.network = (askingBoth server revision).2 := by
  have hanswered : twoPaths.Answered (servedConfig revision) (fetcher server 100) ⟨(), []⟩
      [first, second] (askingBoth server revision).2 :=
    .cons (asking_eq hfirst) (.cons (asking_eq hsecond) .nil)
  generalize (askingBoth server revision).2 = n at hanswered ⊢
  exact ⟨_, World.Course.generate_eq (.complete templated hanswered hrender hwrite), rfl⟩

def plain : Revision := ⟨"v2.7.0", rfl⟩

def marked : Revision := ⟨"main#x", rfl⟩

/-- At a plain revision each artefact is asked for at its own path. -/
theorem servedPlain :
    ∃ records w', World.generate .owner (Http.fetcher serving 100) twoPaths (servedConfig plain)
        (.start (files source) ⟨(), []⟩) = (.ok records, w') ∧
      w'.network.received
        = [⟨"http", "h", "/base/v2.7.0/bin/a.bin"⟩, ⟨"http", "h", "/base/v2.7.0/bin/b.bin"⟩] := by
  have hfirst : (asking serving plain twoPaths.artifacts[0] ⟨(), []⟩).1 = .ok [1] := by decide +kernel
  have hsecond : (askingBoth serving plain).1 = .ok [1] := by decide +kernel
  obtain ⟨w', hrun, hnetwork⟩ := served hfirst hsecond rfl rfl
  exact ⟨_, w', hrun, by rw [hnetwork]; decide +kernel⟩

/-- At a marked one both are asked for at one path. -/
theorem servedMarked :
    ∃ records w', World.generate .owner (Http.fetcher serving 100) twoPaths (servedConfig marked)
        (.start (files source) ⟨(), []⟩) = (.ok records, w') ∧
      w'.network.received = [⟨"http", "h", "/base/main"⟩, ⟨"http", "h", "/base/main"⟩] := by
  have hfirst : (asking serving marked twoPaths.artifacts[0] ⟨(), []⟩).1 = .ok [1] := by decide +kernel
  have hsecond : (askingBoth serving marked).1 = .ok [1] := by decide +kernel
  obtain ⟨w', hrun, hnetwork⟩ := served hfirst hsecond rfl rfl
  exact ⟨_, w', hrun, by rw [hnetwork]; decide +kernel⟩

end Sample

/-- **The first requests of a run** — with marks nowhere but in the revision, every artefact asked for is
first asked for at its own path under the revision exactly when the revision has no mark; the last one
may fail without a request.  With a mark in the revision all are asked for at one path. -/
theorem first_requests_pinned {σ : Type} {caller : Files.Caller} {server : Server σ} {limit : Nat}
    {catalog : Catalog} {config : Config} {w w' : World (Network σ)}
    {result : Except RunError Records} {host basePath : String}
    (hbase : HostedBase config.baseUrl host basePath) (hcatalog : catalog.Unmarked)
    (h : World.generate caller (fetcher server limit) catalog config w = (result, w')) :
    ∃ (reached failed : List Descriptor) (chunks : List (List Request)),
      reached ++ failed <+: catalog.artifacts ∧
      w'.fetched = w.fetched ++ (reached ++ failed).map (config.urls.ofDescriptor catalog.remoteDir) ∧
      w'.network.received = w.network.received ++ chunks.flatten ∧
      List.Forall₂ (fun d chunk => ∃ first rest, chunk = first :: rest ∧ first.authority = host ∧
        (first.path = pinnedPath basePath config.revision catalog.remoteDir d.remotePath
          ↔ Unmarked config.revision.text) ∧
        (Unmarked config.revision.text →
          first.target = pinnedPath basePath config.revision catalog.remoteDir d.remotePath) ∧
        (¬Unmarked config.revision.text →
          first.path = withoutFinalSlashes basePath ++ "/" ++ upToMark config.revision.text))
        reached chunks ∧
      (failed = [] ∨ ∃ d cause, failed = [d] ∧ result = .error (.retrieval d.name cause)) ∧
      (∀ records, result = .ok records → reached = catalog.artifacts) ∧
      ∀ d d' : Descriptor, d.remotePath ≠ d'.remotePath →
        pinnedPath basePath config.revision catalog.remoteDir d.remotePath
          ≠ pinnedPath basePath config.revision catalog.remoteDir d'.remotePath := by
  obtain ⟨reached, failed, chunks, hasked, hfetched, hreceived, hfirst, hfailed, hok⟩ :=
    World.received_of_generate hbase h
  refine ⟨reached, failed, chunks, hasked, hfetched, hreceived, ?_, hfailed, hok,
    fun d d' hne heq => hne (pinnedPath_injective heq)⟩
  have hmem : ∀ d ∈ reached, d ∈ catalog.artifacts := fun d hd =>
    hasked.subset (List.mem_append_left _ hd)
  refine ((List.forall₂_and_left _ _).mpr ⟨hmem, hfirst⟩).imp ?_
  rintro d chunk ⟨hd, first, rest, rfl, hreaches⟩
  have hiff : Unmarked (config.pathOf catalog basePath d) ↔ Unmarked config.revision.text :=
    unmarked_pinnedPath_iff hbase.unmarked hcatalog.remoteDir (hcatalog.remotePath d hd)
  refine ⟨first, rest, rfl, hreaches.authority, ?_, fun hrevision => ?_, fun hrevision => ?_⟩
  · rw [hreaches.path_eq, ← hiff]
    exact upToMark_eq_iff
  · exact hreaches.target_eq (hiff.mpr hrevision)
  · exact hreaches.path_eq.trans (upToMark_pinnedPath hbase.unmarked hrevision)

/-- Two artefacts at a plain revision. -/
theorem first_requests_pinned_sample :
    HostedBase (Sample.servedConfig Sample.plain).baseUrl "h" "/base/" ∧ Sample.twoPaths.Unmarked ∧
    Unmarked Sample.plain.text ∧
    ∃ records w', World.generate .owner (Http.fetcher Sample.serving 100) Sample.twoPaths
        (Sample.servedConfig Sample.plain) (.start (Sample.files Sample.source) ⟨(), []⟩)
          = (.ok records, w') ∧
      w'.network.received
        = [⟨"http", "h", "/base/v2.7.0/bin/a.bin"⟩, ⟨"http", "h", "/base/v2.7.0/bin/b.bin"⟩] ∧
      ∃ chunks : List (List Request), w'.network.received = chunks.flatten ∧
        List.Forall₂ (fun d chunk => ∃ first rest, chunk = first :: rest ∧
          first.path = pinnedPath "/base/" Sample.plain "/bin/" d.remotePath)
          Sample.twoPaths.artifacts chunks := by
  obtain ⟨records, w', hrun, hreceived⟩ := Sample.servedPlain
  have hplain : Unmarked Sample.plain.text := by decide
  obtain ⟨reached, _, chunks, -, -, hchunks, hfirst, -, hok, -⟩ :=
    first_requests_pinned Sample.servedBase Sample.unmarkedPaths hrun
  cases hok records rfl
  refine ⟨Sample.servedBase, Sample.unmarkedPaths, hplain, records, w', hrun, hreceived, chunks,
    hchunks, hfirst.imp ?_⟩
  rintro d chunk ⟨first, rest, hchunk, -, hpath, -⟩
  exact ⟨first, rest, hchunk, hpath.mpr hplain⟩

/-- **A revision with a mark is accepted, and is cut** — two artefacts are hashed that were both asked for
at the path of neither. -/
theorem revision_cut_at_mark :
    Revision.ofText "main#x" = .ok Sample.marked ∧
    HostedBase (Sample.servedConfig Sample.marked).baseUrl "h" "/base/" ∧
    Sample.twoPaths.Unmarked ∧
    ∃ records w', World.generate .owner (Http.fetcher Sample.serving 100) Sample.twoPaths
        (Sample.servedConfig Sample.marked) (.start (Sample.files Sample.source) ⟨(), []⟩)
          = (.ok records, w') ∧
      w'.network.received = [⟨"http", "h", "/base/main"⟩, ⟨"http", "h", "/base/main"⟩] ∧
      Sample.twoPaths.artifacts.map
          (fun d => pinnedPath "/base/" Sample.marked Sample.twoPaths.remoteDir d.remotePath)
        = ["/base/main#x/bin/a.bin", "/base/main#x/bin/b.bin"] := by
  obtain ⟨records, w', hrun, hreceived⟩ := Sample.servedMarked
  exact ⟨Revision.ofText_text Sample.marked, Sample.servedBase, Sample.unmarkedPaths, records, w', hrun,
    hreceived, by decide +kernel⟩

end PinnedManifest
