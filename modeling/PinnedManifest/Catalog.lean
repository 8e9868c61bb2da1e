/-!
# Catalog — what a manifest lists

A catalog is an ordered list of artefacts with the place where they are found and the template
variable their records go to.  A name is meant to be the only one of its kind in its catalog, but
nothing checks that it is.
-/

namespace PinnedManifest

/-- One downloadable artefact. -/
structure Descriptor where
  /-- Key of the artefact's record. -/
  name : String
  description : String
  /-- Where the artefact lies, below the catalog's remote directory. -/
  remotePath : String
  /-- Where the artefact is installed. -/
  localPath : String
  version : Option String := none
  /-- Documentation page, below the repository root. -/
  docPath : Option String := none
  deriving DecidableEq, Repr

/-- The artefacts of one manifest, in the order of output. -/
structure Catalog where
  /-- Shown in the log. -/
  name : String
  /-- Template variable that receives the records. -/
  contextKey : String
  /-- Directory between the revision and each remote path; may be empty. -/
  remoteDir : String
  artifacts : List Descriptor
  deriving DecidableEq, Repr

end PinnedManifest
