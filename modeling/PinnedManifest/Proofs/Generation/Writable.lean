import PinnedManifest.Proofs.Files.Writable
import PinnedManifest.Proofs.Generation.Fetching

/-!
# Proofs/Generation/Writable — when an output is written, and why not

The last stage of a run writes its output exactly when three lookups find what they ask for
(`output_written_iff`); when it does not, the error names the output's path as it was given.
-/

namespace PinnedManifest

open Files in
/-- **An output is written exactly when** its path leads to something that may be written or to nothing,
its directory part leads to a directory, and it ends in an ordinary name under which there is no
directory.  Otherwise the error carries the path, and a fault of permission for an output that nobody
may write and for nothing else. -/
theorem output_written_iff {v : Volume} {path : String}
    (hshort : (v.besidePath path (stagedName 0)).utf8ByteSize < Path.lengthLimit) (text : String) :
    ((∃ u, (Host.attempt (.output path)
        ((Volume.disk .privileged).replace path (Text.utf8 text))).run v = (.ok (), u)) ↔
      -- the path, through every link
      ((∃ mode, v.LeadsTo .privileged path mode ∧ mode &&& 0o222 ≠ 0) ∨
        v.resolve .privileged path = .error .notFound) ∧
      -- the text of its directory part
      ∃ place mode es, v.resolve .privileged (Path.parentText path) = .ok place ∧
        v.node? place = some (.directory mode es) ∧
        -- the entry under its last name
        ∃ name, Path.EndsIn path name ∧
          ∀ mode es, v.node? (place ++ [name]) ≠ some (.directory mode es)) ∧
    ∀ error u, (Host.attempt (.output path)
        ((Volume.disk .privileged).replace path (Text.utf8 text))).run v = (.error error, u) →
      ∃ fault, error = .output path fault ∧
        (fault.isDenial = true ↔ ∃ mode, v.LeadsTo .privileged path mode ∧ mode &&& 0o222 = 0) := by
  have hwritable (mode : Mode) : isReadOnly mode = false ↔ mode &&& 0o222 ≠ 0 := by simp [isReadOnly]
  have hreadOnly (mode : Mode) : isReadOnly mode = true ↔ mode &&& 0o222 = 0 := by simp [isReadOnly]
  have hreplaceable := Volume.exists_replaceable_iff hshort
  have hdone {u : Volume} :
      ((Volume.disk .privileged).replace path (Text.utf8 text)).run v = (.ok (), u) ↔
        ∃ found e, v.Replaceable .privileged path found e ∧
          u = v.put e.place e.name (.file (found.getD newFileMode) (Text.utf8 text)) :=
    Volume.replace_run_eq_ok_iff
  simp only [hwritable] at hreplaceable
  simp only [← hreadOnly, Host.run_attempt, ← hreplaceable]
  rcases hrun : ((Volume.disk .privileged).replace path (Text.utf8 text)).run v with ⟨f | _, u⟩
  · have hattempt : (Volume.disk .privileged).replace path (Text.utf8 text) v = (.error f, u) := hrun
    simp only [hattempt]
    refine ⟨⟨nofun, ?_⟩, fun error u' herror => ?_⟩
    · rintro ⟨found, e, hcan⟩
      cases hrun.symm.trans (hdone.mpr ⟨found, e, hcan, rfl⟩)
    · cases herror
      exact ⟨f, rfl, Volume.isDenial_iff hrun⟩
  · have hattempt : (Volume.disk .privileged).replace path (Text.utf8 text) v = (.ok (), u) := hrun
    simp only [hattempt]
    obtain ⟨found, e, hcan, -⟩ := hdone.mp hrun
    exact ⟨⟨fun _ => ⟨found, e, hcan⟩, fun _ => ⟨u, rfl⟩⟩, nofun⟩

namespace Sample

/-! ## An output that nobody may write -/

/-- What is there under the name of an output that nobody may write. -/
def sealedFile : Files.Node := .file 0o444 [1]

end Sample

/-- An output that leads nowhere is written; a file that nobody may write is not, for want of
permission. -/
theorem output_written_iff_sample :
    ((Sample.chainTree (.link "gone")).besidePath "s/../out" (Files.stagedName 0)).utf8ByteSize
      < Files.Path.lengthLimit ∧
    (∃ u, (Host.attempt (.output "s/../out") ((Files.Volume.disk .privileged).replace "s/../out"
      (Text.utf8 "hi"))).run (Sample.chainTree (.link "gone")) = (.ok (), u)) ∧
    ∃ fault, (Host.attempt (.output "s/../out") ((Files.Volume.disk .privileged).replace "s/../out"
      (Text.utf8 "hi"))).run (Sample.chainTree Sample.sealedFile)
        = (.error (.output "s/../out" fault), Sample.chainTree Sample.sealedFile) ∧
      fault.isDenial = true := by
  have hshort : ((Sample.chainTree (.link "gone")).besidePath "s/../out"
      (Files.stagedName 0)).utf8ByteSize < Files.Path.lengthLimit := by decide
  have hname : Files.Path.EndsIn "s/../out" "out" := by decide
  refine ⟨hshort, (output_written_iff hshort "hi").1.mpr ⟨.inr rfl, [], 0o755, _, rfl, rfl, "out",
    hname, nofun⟩, .readOnly, rfl, ?_⟩
  have hshort' : ((Sample.chainTree Sample.sealedFile).besidePath "s/../out"
      (Files.stagedName 0)).utf8ByteSize < Files.Path.lengthLimit := by decide
  have hrefused : (Host.attempt (.output "s/../out") ((Files.Volume.disk .privileged).replace
      "s/../out" (Text.utf8 "hi"))).run (Sample.chainTree Sample.sealedFile)
        = (.error (.output "s/../out" .readOnly), Sample.chainTree Sample.sealedFile) := rfl
  obtain ⟨fault, hfault, hdenial⟩ := (output_written_iff hshort' "hi").2 _ _ hrefused
  cases hfault
  exact hdenial.mpr ⟨0o444, ⟨["out"], Sample.sealedFile, rfl, rfl, rfl⟩, rfl⟩

end PinnedManifest
