import PinnedManifest.Proofs.Generation.Difference
import PinnedManifest.Proofs.Generation.Requests
import PinnedManifest.Proofs.Http.Responses

/-!
# Proofs/Generation/Statuses — which last responses a run accepts

Each artefact of a run stands or falls with the last response to it (`Http.lastResponses`).  Where that
blames someone, or leads to nothing, the run stops there and the output stays as it was; where it is
taken, its body is hashed.  Statuses that are passed over are taken like those of success.
-/

namespace PinnedManifest

open Http

variable {σ : Type} {server : Server σ} {limit : Nat}

/-! ## Last responses of fetches in a row -/

/-- The last responses to addresses fetched one after the other. -/
def Http.lastResponses (server : Server σ) (limit : Nat) :
    List String → Network σ → List (Option Response)
  | [], _ => []
  | url :: urls, n =>
    ((fetch limit url).responses server n).getLast?
      :: lastResponses server limit urls (fetcher server limit url n).2

theorem Http.length_lastResponses (server : Server σ) (limit : Nat) :
    ∀ (urls : List String) (n : Network σ), (lastResponses server limit urls n).length = urls.length
  | [], _ => rfl
  | _ :: urls, _ => by
      rw [lastResponses, List.length_cons, List.length_cons, length_lastResponses server limit urls]

/-- **Addresses that were answered** were answered by what their last responses hold. -/
theorem Http.lastResponses_of_answers : ∀ {urls : List String} {n n' : Network σ}
    {contents : List (List UInt8)}, Fetcher.Answers (fetcher server limit) urls n contents n' →
      ∃ lasts : List Response, lastResponses server limit urls n = lasts.map some ∧
        contents = lasts.map Response.arriving ∧ ∀ r ∈ lasts, isTaken r.status = true
  | [], _, _, _, h => by
      cases h
      exact ⟨[], rfl, rfl, by simp⟩
  | url :: urls, n, _, _, h => by
      cases h with
      | @cons _ _ _ n₁ _ content contents hurl hurls =>
        obtain ⟨r, hlast, htaken, rfl⟩ := last_of_fetcher_ok hurl
        obtain ⟨lasts, hlasts, rfl, hall⟩ := lastResponses_of_answers hurls
        refine ⟨r :: lasts, ?_, rfl, List.forall_mem_cons.mpr ⟨htaken, hall⟩⟩
        rw [lastResponses, hlast, hurl, hlasts, List.map_cons]

/-- What follows upon addresses that were answered. -/
theorem Http.lastResponses_append (more : List String) : ∀ {urls : List String} {n n' : Network σ}
    {contents : List (List UInt8)}, Fetcher.Answers (fetcher server limit) urls n contents n' →
      lastResponses server limit (urls ++ more) n
        = lastResponses server limit urls n ++ lastResponses server limit more n'
  | [], _, _, _, h => by
      cases h
      rfl
  | url :: urls, _, _, _, h => by
      cases h with
      | cons hurl hurls =>
        rw [List.cons_append, lastResponses, lastResponses, hurl, lastResponses_append more hurls,
          List.cons_append]

/-! ## Last responses of a run -/

section Run

variable {caller : Files.Caller} {catalog : Catalog} {config : Config} {w w' : World (Network σ)}
  {result : Except RunError Records}

/-- The last responses to some artefacts of a run. -/
def World.lastResponses (server : Server σ) (limit : Nat) (catalog : Catalog) (config : Config)
    (w : World (Network σ)) (ds : List Descriptor) : List (Option Response) :=
  Http.lastResponses server limit (ds.map (config.urls.ofDescriptor catalog.remoteDir)) w.network

/-- A record for each artefact, with the digest of what arrived. -/
theorem World.lasts_of_generate_ok {records : Records}
    (h : World.generate caller (fetcher server limit) catalog config w = (.ok records, w')) :
    ∃ lasts : List Response,
      w.lastResponses server limit catalog config catalog.artifacts = lasts.map some ∧
      records.names = catalog.artifacts.map (·.name) ∧
      records.entries.map (·.2.sha256) = lasts.map (fun r => Digest.of r.arriving) ∧
      ∀ r ∈ lasts, isTaken r.status = true := by
  obtain ⟨-, contents, -, -, -, -, hall, rfl, -⟩ := World.generate_ok h
  have hlength := hall.length_eq
  obtain ⟨lasts, hlasts, rfl, htaken⟩ := lastResponses_of_answers hall
  refine ⟨lasts, hlasts, Catalog.names_records hlength, ?_, htaken⟩
  have hdigests := Catalog.digests_records config hlength
  simpa [Function.comp_def] using hdigests

/-- **An artefact whose last response is not taken** stops the run. -/
theorem World.generate_of_not_taken {answered failed : List Descriptor}
    {contents : List (List UInt8)} {network : Network σ}
    (hanswers : Fetcher.Answers (fetcher server limit)
      (answered.map (config.urls.ofDescriptor catalog.remoteDir)) w.network contents network)
    (hend : failed = [] ∧ w'.network = network ∨
      ∃ d cause, failed = [d] ∧ result = .error (.retrieval d.name cause) ∧
        fetcher server limit (config.urls.ofDescriptor catalog.remoteDir d) network
          = (.error cause, w'.network))
    {d : Descriptor} {r : Response}
    (hmem : (d, some r) ∈ (answered ++ failed).zip
      (w.lastResponses server limit catalog config (answered ++ failed)))
    (htaken : isTaken r.status = false) :
    ∃ f, result = .error (.retrieval d.name
        (Fault.downloadError (config.urls.ofDescriptor catalog.remoteDir d) f)) ∧
      (isFailure r.status = true → f = .status r.status) := by
  obtain ⟨lasts, hlasts, -, hall⟩ := lastResponses_of_answers hanswers
  have hlength : answered.length = (lasts.map some).length := by
    rw [← hlasts, length_lastResponses, List.length_map]
  rw [World.lastResponses, List.map_append, lastResponses_append _ hanswers, hlasts,
    List.zip_append hlength, List.mem_append] at hmem
  rcases hmem with hanswered | hfailed
  · -- those answered before have a response that was taken
    obtain ⟨r', hr', heq⟩ := List.mem_map.mp (List.of_mem_zip hanswered).2
    cases heq
    rw [hall r hr'] at htaken
    cases htaken
  · rcases hend with ⟨rfl, -⟩ | ⟨d', cause, rfl, rfl, hd'⟩
    · cases hfailed
    obtain ⟨rfl, hlast⟩ : d = d' ∧ some r = ((fetch limit
        (config.urls.ofDescriptor catalog.remoteDir d')).responses server network).getLast? := by
      simpa [Http.lastResponses] using hfailed
    obtain ⟨f, hf, hstatus⟩ := fetcher_error_of_last hlast.symm htaken
    rw [hd'] at hf
    cases hf
    exact ⟨f, rfl, hstatus⟩

end Run

namespace Sample

/-! ## An artefact that has moved

The first of two artefacts leads to another path, where nothing but a status answers. -/

def moving (status : Nat) : Server Unit := fun r s =>
  (.ok (if r.target = "/base/v2.7.0/bin/a.bin" then ⟨302, some "/moved", [], none⟩
    else if r.target = "/moved" then ⟨status, none, [], none⟩
    else ⟨200, none, [1], none⟩), s)

/-- The world before the artefacts are fetched. -/
def movingStart : World (Network Unit) := .start (files source) ⟨(), []⟩

/-- The status at the end counts, not the one that led there. -/
theorem lastResponses_moving (status : Nat) (h : status = 200 ∨ status = 304) :
    movingStart.lastResponses (moving status) 100 twoPaths (servedConfig plain) twoPaths.artifacts
      = [some ⟨status, none, [], none⟩, some ⟨200, none, [1], none⟩] := by
  rcases h with rfl | rfl <;> decide +kernel

/-- A success and a status that is passed over are taken alike. -/
theorem takenMoving (status : Nat) (h : status = 200 ∨ status = 304) :
    ∃ w', World.generate .owner (fetcher (moving status) 100) twoPaths (servedConfig plain) movingStart
      = (.ok (twoPaths.records (servedConfig plain) [[], [1]]), w') := by
  have hfirst : (asking (moving status) plain twoPaths.artifacts[0] ⟨(), []⟩).1 = .ok [] := by
    rcases h with rfl | rfl <;> decide +kernel
  have hsecond : (askingBoth (moving status) plain).1 = .ok [1] := by
    rcases h with rfl | rfl <;> decide +kernel
  obtain ⟨w', hrun, -⟩ := served hfirst hsecond rfl rfl
  exact ⟨w', hrun⟩

/-- What blames the server stops the run at the first artefact. -/
theorem failedMoving :
    ∃ w', World.generate .owner (fetcher (moving 503) 100) twoPaths (servedConfig plain) movingStart
        = (.error (.retrieval "a" (.failed "http://h/base/v2.7.0/bin/a.bin" "http status: 503")), w') ∧
      w'.fetched.length = 1 := by
  have hfirst : (asking (moving 503) plain twoPaths.artifacts[0] ⟨(), []⟩).1
      = .error (.failed "http://h/base/v2.7.0/bin/a.bin" "http status: 503") := by decide +kernel
  have hanswer := asking_eq hfirst
  generalize (asking (moving 503) plain twoPaths.artifacts[0] ⟨(), []⟩).2 = network at hanswer
  have hsplit : twoPaths.artifacts = [] ++ twoPaths.artifacts[0] :: [twoPaths.artifacts[1]] := rfl
  have hnone : Fetcher.Answers (fetcher (moving 503) 100)
      (([] : List Descriptor).map ((servedConfig plain).urls.ofDescriptor twoPaths.remoteDir))
      movingStart.network [] ⟨(), []⟩ := .nil
  exact ⟨_, World.Course.generate_eq (.missing templated hsplit hnone hanswer), rfl⟩

end Sample

/-- **Last responses decide a run** — a run that succeeds has hashed, for each artefact, the body of the
last response to it, and the status of each of these is one of success unless it is passed over; an
artefact whose last response has any other status stops the run as a failed retrieval, with the status
if that blames someone, and leaves the files as they were. -/
theorem last_responses_decide {caller : Files.Caller} {catalog : Catalog} {config : Config}
    {w w' : World (Network σ)} {result : Except RunError Records}
    (h : World.generate caller (fetcher server limit) catalog config w = (result, w')) :
    ∃ asked : List Descriptor,
      asked <+: catalog.artifacts ∧
      w'.fetched = w.fetched ++ asked.map (config.urls.ofDescriptor catalog.remoteDir) ∧
      (∀ records, result = .ok records → asked = catalog.artifacts ∧ ∃ lasts : List Response,
        w.lastResponses server limit catalog config asked = lasts.map some ∧
        records.names = catalog.artifacts.map (·.name) ∧
        records.entries.map (·.2.sha256) = lasts.map (fun r => Digest.of r.arriving) ∧
        ∀ r ∈ lasts, (200 ≤ r.status ∧ r.status ≤ 299 ↔ isIgnored r.status = false)) ∧
      ∀ d r, (d, some r) ∈ asked.zip (w.lastResponses server limit catalog config asked) →
        ¬(200 ≤ r.status ∧ r.status ≤ 299) → isIgnored r.status = false →
        ∃ f, result = .error (.retrieval d.name
            (Fault.downloadError (config.urls.ofDescriptor catalog.remoteDir d) f)) ∧
          (400 ≤ r.status ∧ r.status ≤ 599 → f = .status r.status) ∧ w'.files = w.files := by
  obtain ⟨answered, failed, contents, network, hprefix, hfetched, hanswers, hend, hok⟩ :=
    (World.generate_eq_iff.mp h).asked
  refine ⟨answered ++ failed, hprefix, hfetched, ?success, ?otherwise⟩
  case success =>
    rintro records rfl
    obtain ⟨lasts, hlasts, hnames, hdigests, htaken⟩ := World.lasts_of_generate_ok h
    have hasked : answered ++ failed = catalog.artifacts := by
      rw [hok records rfl] at hprefix ⊢
      exact hprefix.eq_of_length_le (by simp)
    refine ⟨hasked, lasts, by rw [hasked]; exact hlasts, hnames, hdigests, fun r hr => ?_⟩
    have hcases := isTaken_iff.mp (htaken r hr)
    have hsuccess : isSuccess r.status = true ↔ 200 ≤ r.status ∧ r.status ≤ 299 := by
      simp [isSuccess]
    rw [← hsuccess]
    refine ⟨isIgnored_of_isSuccess, fun hignored => hcases.resolve_right ?_⟩
    rw [hignored]
    exact Bool.false_ne_true
  case otherwise =>
    intro d r hmem hsuccess hignored
    have htaken : isTaken r.status = false := by
      rw [Bool.eq_false_iff, Ne, isTaken_iff, hignored]
      simpa [isSuccess] using hsuccess
    obtain ⟨f, rfl, hstatus⟩ := World.generate_of_not_taken hanswers hend hmem htaken
    refine ⟨f, rfl, fun hbounds => hstatus ?_, World.files_of_generate_error h⟩
    simpa [isFailure] using hbounds

/-- An artefact that is found where it has moved to, and one that is refused there. -/
theorem last_responses_decide_sample :
    (∃ w', World.generate .owner (fetcher (Sample.moving 200) 100) Sample.twoPaths
        (Sample.servedConfig Sample.plain) Sample.movingStart
          = (.ok (Sample.twoPaths.records (Sample.servedConfig Sample.plain) [[], [1]]), w') ∧
      ∃ lasts : List Response,
        Sample.movingStart.lastResponses (Sample.moving 200) 100 Sample.twoPaths
          (Sample.servedConfig Sample.plain) Sample.twoPaths.artifacts = lasts.map some ∧
        lasts.length = 2 ∧ ∀ r ∈ lasts, 200 ≤ r.status ∧ r.status ≤ 299) ∧
    ∃ w', World.generate .owner (fetcher (Sample.moving 503) 100) Sample.twoPaths
        (Sample.servedConfig Sample.plain) Sample.movingStart
          = (.error (.retrieval "a" (.failed "http://h/base/v2.7.0/bin/a.bin" "http status: 503")), w') ∧
      w'.files = Sample.files Sample.source := by
  refine ⟨?taken, ?failed⟩
  case taken =>
    obtain ⟨w', hrun⟩ := Sample.takenMoving 200 (.inl rfl)
    obtain ⟨asked, -, -, hok, -⟩ := last_responses_decide hrun
    obtain ⟨rfl, lasts, hlasts, -, -, hstatus⟩ := hok _ rfl
    have hcomputed := Sample.lastResponses_moving 200 (.inl rfl)
    have heq := hlasts.symm.trans hcomputed
    refine ⟨w', hrun, lasts, hlasts, ?_, fun r hr => (hstatus r hr).mpr ?_⟩
    · simpa using congrArg List.length heq
    · have hmem := List.mem_map_of_mem (f := some) hr
      rw [heq] at hmem
      rcases List.mem_pair.mp hmem with h | h <;> cases h <;> decide
  case failed =>
    obtain ⟨w', hrun, hfetched⟩ := Sample.failedMoving
    obtain ⟨asked, hprefix, hasked, -, hother⟩ := last_responses_decide hrun
    have hone : asked.length = 1 := by
      simpa [hfetched, Sample.movingStart, World.start] using (congrArg List.length hasked).symm
    have hfirst : asked = [Sample.twoPaths.artifacts[0]] := by
      rw [List.prefix_iff_eq_take.mp hprefix, hone]
      rfl
    have hlast : (Sample.twoPaths.artifacts[0], some ⟨503, none, [], none⟩) ∈ asked.zip
        (Sample.movingStart.lastResponses (Sample.moving 503) 100 Sample.twoPaths
          (Sample.servedConfig Sample.plain) asked) := by
      rw [hfirst]
      decide +kernel
    obtain ⟨_, -, -, hfiles⟩ := hother _ _ hlast (by decide) (by decide)
    exact ⟨w', hrun, hfiles⟩

/-- **A status that tells of no success is hashed** — nothing came with it, and the digest of nothing is
what the run records. -/
theorem ignored_status_hashed :
    ∃ records w', World.generate .owner (fetcher (Sample.moving 304) 100) Sample.twoPaths
        (Sample.servedConfig Sample.plain) Sample.movingStart = (.ok records, w') ∧
      Sample.movingStart.lastResponses (Sample.moving 304) 100 Sample.twoPaths
          (Sample.servedConfig Sample.plain) Sample.twoPaths.artifacts
        = [some ⟨304, none, [], none⟩, some ⟨200, none, [1], none⟩] ∧
      isSuccess 304 = false ∧
      records.entries.map (·.2.sha256) = [Digest.of [], Digest.of [1]] := by
  obtain ⟨w', hrun⟩ := Sample.takenMoving 304 (.inr rfl)
  exact ⟨_, w', hrun, Sample.lastResponses_moving 304 (.inr rfl), by decide, rfl⟩

end PinnedManifest
