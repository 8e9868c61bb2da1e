import PinnedManifest.Catalog
import PinnedManifest.Digest
import PinnedManifest.Json.Printer
import PinnedManifest.Revision

/-!
# Record — what a manifest says about each artefact

A record joins a descriptor with the addresses and the digest found in one run.  `Records` keeps
named records in the order they were pushed, repeated names included; `get?` finds the first of a
name.
-/

namespace PinnedManifest

/-- An artefact after it was fetched. -/
structure Record where
  path : String
  remotePath : String
  version : Option String
  /-- Digest of the bytes fetched. -/
  sha256 : Digest
  description : String
  url : String
  docUrl : Option String
  deriving DecidableEq

namespace Record

/-- The record of a descriptor with its addresses and digest. -/
def ofDescriptor (d : Descriptor) (url : String) (docUrl : Option String) (sha256 : Digest) :
    Record where
  path := d.localPath
  remotePath := d.remotePath
  version := d.version
  sha256 := sha256
  description := d.description
  url := url
  docUrl := docUrl

/-- A text, or null when absent. -/
def optional : Option String → Json.Value
  | some s => .string s
  | none => .null

/-- The seven fields, in their order. -/
def members (r : Record) : Json.Members :=
  [("path", .string r.path), ("rpath", .string r.remotePath), ("version", optional r.version),
    ("sha256", .string r.sha256.text), ("description", .string r.description),
    ("url", .string r.url), ("doc_url", optional r.docUrl)]

/-- The record as an object. -/
def json (r : Record) : Json.Value := .object r.members

end Record

/-- Named records in the order of output. -/
structure Records where
  entries : List (String × Record)
  deriving DecidableEq

namespace Records

/-- No records. -/
def empty : Records := ⟨[]⟩

/-- The records with one more at the end. -/
def push (rs : Records) (name : String) (r : Record) : Records := ⟨rs.entries ++ [(name, r)]⟩

/-- How many records there are. -/
def size (rs : Records) : Nat := rs.entries.length

/-- Whether there are none. -/
def isEmpty (rs : Records) : Bool := rs.entries.isEmpty

/-- The first record of a name. -/
def get? (rs : Records) (name : String) : Option Record :=
  (rs.entries.find? fun entry => entry.1 == name).map (·.2)

/-- The names, in order. -/
def names (rs : Records) : List String := rs.entries.map (·.1)

/-- One member for each push, in order, repeated names included. -/
def members (rs : Records) : Json.Members := rs.entries.map fun entry => (entry.1, entry.2.json)

/-- The compact text of the records. -/
def text (rs : Records) : String := (Json.Value.object rs.members).text

end Records

/-- The template variable that holds the revision. -/
def revisionKey : String := "latest_sha"

/-- What a template sees: the records as a mapping under the catalog's variable, then the revision
under its own, which wins when the two are one.

There always is such a value: a record has texts, a digest and absent texts only, under a name that is a
text.  Turning records into data for a template therefore never fails, and `TemplateError` has no case
for it. -/
def manifestContext (contextKey : String) (records : Records) (revision : Revision) : Json.Value :=
  .object (Json.Members.insert revisionKey (.string revision.text)
    (Json.Members.insert contextKey (.object (Json.Members.ofList records.members)) []))

end PinnedManifest
