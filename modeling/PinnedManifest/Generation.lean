import PinnedManifest.Download
import PinnedManifest.Log
import PinnedManifest.ManifestTemplate
import PinnedManifest.PinnedUrls
import PinnedManifest.Record

/-!
# Generation — from a catalog to a manifest file

A run reads its template, fetches and hashes every artefact in the catalog's order, renders the
records, and replaces the output; it stops at the first fault, and only the last step changes a file.
The stages are written over a `Host`, which says how files are read and replaced, how an address is
fetched and where the log goes.
-/

namespace PinnedManifest

/-- What one run is about. -/
structure Config where
  template : String
  output : String
  revision : Revision
  baseUrl : String
  /-- Seconds that one artefact may take. -/
  timeout : Nat
  deriving DecidableEq

/-- Why a run stops. -/
inductive RunError
  | invalidRevision (r : Revision.Rejection)
  | retrieval (artifact : String) (cause : DownloadError)
  | template (e : TemplateError)
  | output (path : String) (fault : Files.Fault)
  deriving DecidableEq, Repr

namespace RunError

/-- How a failed retrieval reads. -/
def retrievalText (artifact cause : String) : String :=
  "failed to retrieve artefact " ++ artifact ++ ": " ++ cause

/-- How an output that cannot be written reads. -/
def outputText (path reason : String) : String :=
  "failed to write manifest to " ++ path ++ ": " ++ reason

/-- The wording of an error. -/
def message : RunError → String
  | .invalidRevision r => r.message
  | .retrieval artifact cause => retrievalText artifact cause.message
  | .template e => e.message
  | .output path fault => outputText path fault.message

end RunError

/-- What a run acts on. -/
structure Host (m : Type → Type) where
  read : String → m (Except Files.Fault (List UInt8))
  fetch : String → m (Except DownloadError (List UInt8))
  replace : String → List UInt8 → m (Except Files.Fault Unit)
  log : Log.Entry → m Unit

namespace Host

variable {m : Type → Type} [Monad m]

/-- One entry written to the log. -/
def say (host : Host m) (level : Log.Level) (text : String) : ExceptT RunError m Unit :=
  ExceptT.lift (host.log ⟨level, text⟩)

/-- A step of the host whose fault stops the run. -/
def attempt {ε α : Type} (blame : ε → RunError) (step : m (Except ε α)) : ExceptT RunError m α :=
  ExceptT.mk do
    match ← step with
    | .ok a => return .ok a
    | .error e => return .error (blame e)

/-- One artefact fetched and hashed. -/
def resolveOne (host : Host m) (remoteDir : String) (urls : PinnedUrls) (d : Descriptor) :
    ExceptT RunError m Record := do
  host.say .debug ("Processing artefact: " ++ d.name)
  let url := urls.artifact remoteDir d.remotePath
  host.say .debug ("Fetching " ++ url)
  let content ← attempt (.retrieval d.name) (host.fetch url)
  let digest := Digest.of content
  host.say .debug
    (d.name ++ ": " ++ toString content.length ++ " bytes, sha256 " ++ digest.text)
  return Record.ofDescriptor d url (d.docPath.map urls.doc) digest

/-- Artefacts fetched one after the other, each put behind the records before it. -/
def resolveAll (host : Host m) (remoteDir : String) (urls : PinnedUrls) :
    Records → List Descriptor → ExceptT RunError m Records
  | records, [] => return records
  | records, d :: rest => do
    let r ← host.resolveOne remoteDir urls d
    host.resolveAll remoteDir urls (records.push d.name r) rest

/-- The records of a catalog. -/
def resolve (host : Host m) (catalog : Catalog) (urls : PinnedUrls) :
    ExceptT RunError m Records :=
  host.resolveAll catalog.remoteDir urls .empty catalog.artifacts

/-- The records of a catalog and the text of a template over them. -/
def renderManifest (host : Host m) (catalog : Catalog) (urls : PinnedUrls)
    (template : ManifestTemplate) : ExceptT RunError m (Records × String) := do
  let records ← host.resolve catalog urls
  match template.render (manifestContext catalog.contextKey records urls.revision) with
  | .ok text => return (records, text)
  | .error e => throw (.template e)

/-- The template at a path. -/
def loadTemplate (host : Host m) (path : String) : ExceptT RunError m ManifestTemplate := do
  let content ← attempt (fun fault => .template (.unreadable path fault)) (host.read path)
  match ManifestTemplate.ofContent path content with
  | .ok t => return t
  | .error e => throw (.template e)

/-- A whole run. -/
def generate (host : Host m) (catalog : Catalog) (config : Config) :
    ExceptT RunError m Records := do
  let template ← host.loadTemplate config.template
  let urls := PinnedUrls.ofBase config.baseUrl config.revision
  host.say .info
    ("Generating " ++ catalog.name ++ " manifest at revision " ++ config.revision.text)
  let (records, text) ← host.renderManifest catalog urls template
  attempt (.output config.output) (host.replace config.output (Text.utf8 text))
  host.say .info ("Wrote " ++ toString records.size ++ " record(s) to " ++ config.output)
  return records

end Host

end PinnedManifest
