import Mathlib.Data.List.Basic
import PinnedManifest.PinnedUrls

/-!
# Proofs/PinnedUrls/Joining — how the parts of an address are joined

Slashes at the end of a base and at both ends of a remote directory do not count; all else does.  Two
bases lead to the same addresses exactly when they differ in slashes at the end
(`ofBase_eq_iff`), and the parts of an address are told apart because what stands around each of them is
cancelled exactly (`artifact_eq_iff_remotePath`, `artifact_eq_iff_revision`).
-/

namespace PinnedManifest

/-! ## Slashes at the ends -/

/-- So many slashes. -/
def slashes (n : Nat) : String := String.ofList (List.replicate n '/')

theorem toList_slashes (n : Nat) : (slashes n).toList = List.replicate n '/' := String.toList_ofList

theorem isSlash_of_mem_slashes {n : Nat} {c : Char} (h : c ∈ (slashes n).toList) :
    (c == '/') = true := by
  rw [toList_slashes] at h
  rw [List.eq_of_mem_replicate h]
  rfl

/-- Nothing but slashes is a number of them. -/
theorem exists_slashes {cs : List Char} (h : ∀ c ∈ cs, (c == '/') = true) :
    ∃ n, String.ofList cs = slashes n :=
  ⟨cs.length, congrArg String.ofList (List.eq_replicate_of_mem fun c hc => beq_iff_eq.mp (h c hc))⟩

/-- **Slashes at the end do not count.** -/
theorem withoutFinalSlashes_append_slashes (s : String) (n : Nat) :
    withoutFinalSlashes (s ++ slashes n) = withoutFinalSlashes s := by
  rw [withoutFinalSlashes, String.toList_append,
    Text.dropEnd_append_run fun c hc => isSlash_of_mem_slashes hc, withoutFinalSlashes]

/-- What is left of a text lost slashes only. -/
theorem exists_eq_append_slashes (s : String) : ∃ n, s = withoutFinalSlashes s ++ slashes n := by
  obtain ⟨run, hrun, hslash⟩ := Text.exists_dropEnd_append (· == '/') s.toList
  obtain ⟨n, hn⟩ := exists_slashes hslash
  refine ⟨n, ?_⟩
  rw [← hn, withoutFinalSlashes, ← String.ofList_append, ← hrun, String.ofList_toList]

/-- **Texts that differ in slashes at the end** are those that are one without them. -/
theorem withoutFinalSlashes_eq_iff {s t : String} :
    withoutFinalSlashes s = withoutFinalSlashes t ↔
      ∃ stem m n, s = stem ++ slashes m ∧ t = stem ++ slashes n := by
  constructor
  · intro h
    obtain ⟨m, hm⟩ := exists_eq_append_slashes s
    obtain ⟨n, hn⟩ := exists_eq_append_slashes t
    exact ⟨withoutFinalSlashes s, m, n, hm, h ▸ hn⟩
  · rintro ⟨stem, m, n, rfl, rfl⟩
    rw [withoutFinalSlashes_append_slashes, withoutFinalSlashes_append_slashes]

/-- **Slashes at both ends do not count.** -/
theorem withoutEdgeSlashes_slashes_append (m n : Nat) (s : String) :
    withoutEdgeSlashes (slashes m ++ s ++ slashes n) = withoutEdgeSlashes s := by
  rw [withoutEdgeSlashes, String.toList_append, String.toList_append,
    Text.dropEnds_append_runs (fun c hc => isSlash_of_mem_slashes hc)
      (fun c hc => isSlash_of_mem_slashes hc), withoutEdgeSlashes]

/-- Of slashes nothing is left. -/
theorem withoutEdgeSlashes_slashes (n : Nat) : withoutEdgeSlashes (slashes n) = "" := by
  have h := withoutEdgeSlashes_slashes_append 0 n ""
  have hempty : slashes 0 ++ "" ++ slashes n = slashes n := by
    rw [String.append_empty]
    exact String.empty_append
  rw [hempty] at h
  exact h

namespace PinnedUrls

variable {base base' remoteDir remotePath remotePath' : String} {revision revision' : Revision}

/-! ## Parts told apart -/

/-- **Two bases and revisions** give the same addresses exactly when the revisions are equal and the
bases differ in slashes at the end. -/
theorem ofBase_eq_iff : ofBase base revision = ofBase base' revision' ↔
    revision = revision' ∧ ∃ stem m n, base = stem ++ slashes m ∧ base' = stem ++ slashes n := by
  rw [ofBase, ofBase, mk.injEq, ← withoutFinalSlashes_eq_iff, and_comm]
  refine and_congr_right ?_
  rintro rfl
  rw [String.append_left_inj, String.append_left_inj]

/-- What stands between the root and the path. -/
def joint (remoteDir : String) : String :=
  let dir := withoutEdgeSlashes remoteDir
  if dir.isEmpty then "/" else "/" ++ dir ++ "/"

/-- **An address in three parts**: the root, what stands between, and the path. -/
theorem artifact_eq_joint (urls : PinnedUrls) (remoteDir remotePath : String) :
    urls.artifact remoteDir remotePath = urls.root ++ joint remoteDir ++ remotePath := by
  rw [artifact, joint]
  split <;> simp only [String.append_assoc]

/-- Remote directories that are one without the slashes at their ends lead to one address. -/
theorem artifact_congr {dir dir' : String} (urls : PinnedUrls) (remotePath : String)
    (h : withoutEdgeSlashes dir = withoutEdgeSlashes dir') :
    urls.artifact dir remotePath = urls.artifact dir' remotePath := by
  rw [artifact, artifact, h]

/-- **A remote directory made of slashes** is left out. -/
theorem artifact_slashes (urls : PinnedUrls) (remotePath : String) (n : Nat) :
    urls.artifact (slashes n) remotePath = urls.doc remotePath := by
  rw [artifact, withoutEdgeSlashes_slashes, doc]
  rfl

theorem artifact_eq_iff_remotePath {urls : PinnedUrls} :
    urls.artifact remoteDir remotePath = urls.artifact remoteDir remotePath' ↔
      remotePath = remotePath' := by
  rw [artifact_eq_joint, artifact_eq_joint, String.append_right_inj]

theorem artifact_eq_iff_revision :
    (ofBase base revision).artifact remoteDir remotePath
      = (ofBase base revision').artifact remoteDir remotePath ↔ revision = revision' := by
  rw [artifact_eq_joint, artifact_eq_joint, String.append_left_inj, String.append_left_inj, ofBase,
    ofBase, String.append_right_inj]
  exact ⟨fun h => by cases revision; cases revision'; cases h; rfl, congrArg Revision.text⟩

end PinnedUrls

end PinnedManifest
