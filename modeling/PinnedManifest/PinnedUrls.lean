import PinnedManifest.Revision
import PinnedManifest.Text.Trim

/-!
# PinnedUrls — addresses below one revision of a repository

The base address loses its trailing slashes, then come the revision, the remote directory without
slashes at its ends (left out when nothing remains) and the path, joined by single slashes.
-/

namespace PinnedManifest

/-- Where the raw content of the repository lies, unless another base is given. -/
def defaultBaseUrl : String := "https://github.com/nrfconnect/sdk-nrfxlib/raw"

/-- A text without trailing slashes. -/
def withoutFinalSlashes (text : String) : String :=
  String.ofList (Text.dropEnd (· == '/') text.toList)

/-- A text without slashes at either end. -/
def withoutEdgeSlashes (text : String) : String :=
  String.ofList (Text.dropEnds (· == '/') text.toList)

/-- The addresses of one base and revision. -/
structure PinnedUrls where
  /-- The base and the revision, joined. -/
  root : String
  revision : Revision
  deriving DecidableEq

namespace PinnedUrls

/-- The addresses below a base at a revision; slashes at the end of the base do not count. -/
def ofBase (base : String) (revision : Revision) : PinnedUrls :=
  ⟨withoutFinalSlashes base ++ "/" ++ revision.text, revision⟩

/-- The address of an artefact; an empty remote directory is left out. -/
def artifact (urls : PinnedUrls) (remoteDir remotePath : String) : String :=
  let dir := withoutEdgeSlashes remoteDir
  if dir.isEmpty then urls.root ++ "/" ++ remotePath
  else urls.root ++ "/" ++ dir ++ "/" ++ remotePath

/-- The address of a documentation page. -/
def doc (urls : PinnedUrls) (docPath : String) : String := urls.root ++ "/" ++ docPath

end PinnedUrls

end PinnedManifest
