import PinnedManifest.PinnedUrls
import PinnedManifest.Catalog
import PinnedManifest.Proofs.Http.Address

/-!
# Proofs/Http/Pinned — a revision between two slashes of an address

The address of an artefact is the base address, the revision, and what leads from there to the file.
Where neither the base nor the catalog has marks, only the revision can have one, and with a mark in it
every artefact of the catalog is asked for at one and the same path.
-/

namespace PinnedManifest

open Http

/-! ## Slashes at the ends -/

/-- A front that does not end in a slash is kept whatever follows it. -/
theorem withoutFinalSlashes_append {s : String} {cs : List Char} {c : Char}
    (hs : s.toList = cs ++ [c]) (hc : c ≠ '/') (t : String) :
    withoutFinalSlashes (s ++ t) = s ++ withoutFinalSlashes t := by
  have hkeep : (c == '/') = false := beq_false_of_ne hc
  have hdrop := Text.dropEnd_append (p := (· == '/')) hkeep cs t.toList
  rw [← String.toList_inj, withoutFinalSlashes, withoutFinalSlashes, String.toList_append,
    String.toList_append, String.toList_ofList, String.toList_ofList, hs, List.append_assoc,
    List.append_assoc]
  exact hdrop

theorem Http.Unmarked.withoutFinalSlashes {s : String} (h : Unmarked s) :
    Unmarked (withoutFinalSlashes s) := by
  intro c hc
  rw [PinnedManifest.withoutFinalSlashes, String.toList_ofList] at hc
  exact h c (Text.mem_of_mem_dropEnd hc)

theorem Http.Unmarked.withoutEdgeSlashes {s : String} (h : Unmarked s) :
    Unmarked (withoutEdgeSlashes s) := by
  intro c hc
  rw [PinnedManifest.withoutEdgeSlashes, Text.dropEnds, String.toList_ofList] at hc
  exact h c ((List.dropWhile_sublist _).subset (Text.mem_of_mem_dropEnd hc))

/-- What leads from a revision to a file: the remote directory, without slashes at its ends and left out
when nothing remains, and the path in it. -/
def belowRevision (remoteDir remotePath : String) : String :=
  let dir := withoutEdgeSlashes remoteDir
  "/" ++ (if dir.isEmpty then "" else dir ++ "/") ++ remotePath

/-- The path of a file at a revision below a base path. -/
def pinnedPath (basePath : String) (revision : Revision) (remoteDir remotePath : String) : String :=
  withoutFinalSlashes basePath ++ "/" ++ revision.text ++ belowRevision remoteDir remotePath

/-- A base address: a host, and a path without marks. -/
structure HostedBase (base host basePath : String) : Prop where
  eq : base = "http://" ++ host ++ basePath
  host_ne : host ≠ ""
  host_chars : ∀ c ∈ host.toList, Uri.endsAuthority c = false
  start : basePath = "" ∨ basePath.toList.head? = some '/'
  unmarked : Unmarked basePath

/-- A catalog whose paths have no marks. -/
structure Catalog.Unmarked (catalog : Catalog) : Prop where
  remoteDir : Http.Unmarked catalog.remoteDir
  remotePath : ∀ d ∈ catalog.artifacts, Http.Unmarked d.remotePath

variable {base host basePath : String} {revision : Revision} {remoteDir remotePath : String}

namespace HostedBase

/-- The base address without its trailing slashes. -/
theorem withoutFinalSlashes_eq (h : HostedBase base host basePath) :
    withoutFinalSlashes base = "http://" ++ host ++ withoutFinalSlashes basePath := by
  have hne : host.toList ≠ [] := fun hnil => h.host_ne (String.toList_eq_nil_iff.mp hnil)
  have hsplit : ("http://" ++ host).toList
      = ("http://".toList ++ host.toList.dropLast) ++ [host.toList.getLast hne] := by
    rw [String.toList_append, List.append_assoc, List.dropLast_concat_getLast]
  have hlast : host.toList.getLast hne ≠ '/' := by
    intro hslash
    have hends := h.host_chars _ (List.getLast_mem hne)
    rw [hslash] at hends
    exact absurd hends (by decide)
  rw [h.eq, withoutFinalSlashes_append hsplit hlast]

/-- **An artefact's address** is its pinned path at the host. -/
theorem artifact_eq (h : HostedBase base host basePath) :
    (PinnedUrls.ofBase base revision).artifact remoteDir remotePath
      = "http://" ++ host ++ pinnedPath basePath revision remoteDir remotePath := by
  rw [PinnedUrls.artifact, PinnedUrls.ofBase, h.withoutFinalSlashes_eq, pinnedPath, belowRevision]
  by_cases hdir : (withoutEdgeSlashes remoteDir).isEmpty = true
  · simp only [hdir, if_true, String.append_assoc, String.empty_append]
  · simp only [hdir, Bool.false_eq_true, if_false, String.append_assoc]

/-- A pinned path begins with a slash. -/
theorem head?_pinnedPath (h : HostedBase base host basePath) :
    (pinnedPath basePath revision remoteDir remotePath).toList.head? = some '/' := by
  obtain ⟨run, hrun, -⟩ := Text.exists_dropEnd_append (· == '/') basePath.toList
  have hbase : (withoutFinalSlashes basePath).toList = Text.dropEnd (· == '/') basePath.toList :=
    String.toList_ofList
  simp only [pinnedPath, String.toList_append, hbase, List.append_assoc]
  cases hkept : Text.dropEnd (· == '/') basePath.toList with
  | nil => rfl
  | cons c cs =>
    -- what is kept is the beginning of the base path
    rw [hkept] at hrun
    rcases h.start with hempty | hslash
    · rw [hempty] at hrun
      cases hrun
    · rw [hrun] at hslash
      exact hslash

end HostedBase

/-- Different files of one directory have different paths. -/
theorem pinnedPath_injective {remotePath' : String}
    (h : pinnedPath basePath revision remoteDir remotePath
      = pinnedPath basePath revision remoteDir remotePath') : remotePath = remotePath' := by
  rw [pinnedPath, pinnedPath, belowRevision, belowRevision] at h
  have hlist := congrArg String.toList h
  simp only [String.toList_append, List.append_assoc, List.append_cancel_left_eq] at hlist
  exact String.toList_inj.mp hlist

theorem unmarked_belowRevision (hdir : Unmarked remoteDir) (hpath : Unmarked remotePath) :
    Unmarked (belowRevision remoteDir remotePath) := by
  have hslash : Unmarked "/" := by decide
  rw [belowRevision]
  refine (hslash.append ?_).append hpath
  split
  · decide
  · exact hdir.withoutEdgeSlashes.append hslash

/-- **A pinned path has no marks** exactly when the revision has none. -/
theorem unmarked_pinnedPath_iff (hbase : Unmarked basePath) (hdir : Unmarked remoteDir)
    (hpath : Unmarked remotePath) :
    Unmarked (pinnedPath basePath revision remoteDir remotePath) ↔ Unmarked revision.text := by
  constructor
  · intro h c hc
    refine h c ?_
    rw [pinnedPath, String.toList_append, String.toList_append]
    exact List.mem_append_left _ (List.mem_append_right _ hc)
  · intro hrevision
    exact ((hbase.withoutFinalSlashes.append (by decide)).append hrevision).append
      (unmarked_belowRevision hdir hpath)

/-- **With a mark in the revision** it is cut there. -/
theorem upToMark_pinnedPath (hbase : Unmarked basePath) (hrevision : ¬Unmarked revision.text) :
    upToMark (pinnedPath basePath revision remoteDir remotePath)
      = withoutFinalSlashes basePath ++ "/" ++ upToMark revision.text := by
  have hroot : Unmarked (withoutFinalSlashes basePath ++ "/") :=
    hbase.withoutFinalSlashes.append (by decide)
  rw [pinnedPath, String.append_assoc, upToMark_append_of_unmarked hroot,
    upToMark_append_of_marked hrevision]

end PinnedManifest
