import PinnedManifest.Proofs.PinnedUrls.Joining
import PinnedManifest.Proofs.Generation.Course

/-!
# Proofs/Generation/Addresses — the addresses of a run, told apart

Within a run the base, the revision and the remote directory are fixed, so a descriptor's address says
its path; between runs at two revisions the path is fixed, so it says the revision
(`addresses_canonical_and_distinct`).
-/

namespace PinnedManifest

variable {σ : Type}

namespace Config

/-- **Two descriptors of a run** have one address exactly when their files have one path. -/
theorem ofDescriptor_eq_iff_remotePath {config : Config} {remoteDir : String} {d d' : Descriptor} :
    config.urls.ofDescriptor remoteDir d = config.urls.ofDescriptor remoteDir d' ↔
      d.remotePath = d'.remotePath :=
  PinnedUrls.artifact_eq_iff_remotePath

/-- **One descriptor in two runs** that differ in the revision has one address exactly when they do not
differ at all. -/
theorem ofDescriptor_eq_iff_revision {config : Config} {r r' : Revision} {remoteDir : String}
    {d : Descriptor} :
    { config with revision := r }.urls.ofDescriptor remoteDir d
      = { config with revision := r' }.urls.ofDescriptor remoteDir d ↔ r = r' :=
  PinnedUrls.artifact_eq_iff_revision

end Config

/-- **What a run has asked for** are the addresses of a front of the catalog, in order. -/
theorem World.exists_fetched_eq (caller : Files.Caller) (fetcher : Fetcher σ) (catalog : Catalog)
    (config : Config) (w : World σ) :
    ∃ k, (World.generate caller fetcher catalog config w).2.fetched
      = w.fetched ++ (catalog.artifacts.take k).map (config.urls.ofDescriptor catalog.remoteDir) := by
  obtain ⟨result, w', hcourse⟩ := World.Course.total caller fetcher catalog config w
  obtain ⟨answered, failed, _, _, hfront, hfetched, -⟩ := hcourse.asked
  refine ⟨(answered ++ failed).length, ?_⟩
  rw [hcourse.generate_eq, hfetched, ← List.prefix_iff_eq_take.mp hfront]

/-- **Addresses are canonical, and distinct where a run relies on it.**

* Two bases and revisions give the same addresses exactly when the revisions are equal and the bases
  differ in slashes at the end.
* Slashes at both ends of a remote directory do not count, and one made of slashes is left out.
* Below one base, revision and remote directory the address says the path; with the path fixed instead,
  it says the revision.
* What a run asks for are the addresses of a front of its catalog, two of them equal exactly when the
  paths are; and no descriptor has one address in runs at two revisions. -/
theorem addresses_canonical_and_distinct :
    (∀ (base base' : String) (r r' : Revision),
      PinnedUrls.ofBase base r = PinnedUrls.ofBase base' r' ↔
        r = r' ∧ ∃ stem m n, base = stem ++ slashes m ∧ base' = stem ++ slashes n) ∧
    (∀ (urls : PinnedUrls) (core path : String) (i j k l : Nat),
      urls.artifact (slashes i ++ core ++ slashes j) path
        = urls.artifact (slashes k ++ core ++ slashes l) path) ∧
    (∀ (urls : PinnedUrls) (path : String) (n : Nat),
      urls.artifact (slashes n) path = urls.doc path) ∧
    (∀ (urls : PinnedUrls) (remoteDir path path' : String),
      urls.artifact remoteDir path = urls.artifact remoteDir path' ↔ path = path') ∧
    (∀ (base remoteDir path : String) (r r' : Revision),
      (PinnedUrls.ofBase base r).artifact remoteDir path
        = (PinnedUrls.ofBase base r').artifact remoteDir path ↔ r = r') ∧
    ∀ (caller : Files.Caller) (fetcher : Fetcher σ) (catalog : Catalog) (config : Config) (w : World σ),
      (∃ k, (World.generate caller fetcher catalog config w).2.fetched
        = w.fetched
          ++ (catalog.artifacts.take k).map (config.urls.ofDescriptor catalog.remoteDir)) ∧
      (∀ d d' : Descriptor,
        config.urls.ofDescriptor catalog.remoteDir d = config.urls.ofDescriptor catalog.remoteDir d' ↔
          d.remotePath = d'.remotePath) ∧
      ∀ (d : Descriptor) (r r' : Revision),
        { config with revision := r }.urls.ofDescriptor catalog.remoteDir d
          = { config with revision := r' }.urls.ofDescriptor catalog.remoteDir d ↔ r = r' := by
  refine ⟨fun _ _ _ _ => PinnedUrls.ofBase_eq_iff, fun urls core path i j k l => ?_,
    fun urls path n => ?_, fun _ _ _ _ => PinnedUrls.artifact_eq_iff_remotePath,
    fun _ _ _ _ _ => PinnedUrls.artifact_eq_iff_revision, fun caller fetcher catalog config w =>
      ⟨World.exists_fetched_eq caller fetcher catalog config w,
        fun _ _ => Config.ofDescriptor_eq_iff_remotePath,
        fun _ _ _ => Config.ofDescriptor_eq_iff_revision⟩⟩
  · exact PinnedUrls.artifact_congr urls path
      ((withoutEdgeSlashes_slashes_append i j core).trans
        (withoutEdgeSlashes_slashes_append k l core).symm)
  · exact PinnedUrls.artifact_slashes urls path n

end PinnedManifest
