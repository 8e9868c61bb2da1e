/-!
# Download — what comes of fetching an address
-/

namespace PinnedManifest

/-- Why an artefact was not fetched.  Either way the address is the one asked for first. -/
inductive DownloadError
  | notFound (url : String)
  | failed (url reason : String)
  deriving DecidableEq, Repr

namespace DownloadError

/-- The address that was asked for. -/
def url : DownloadError → String
  | .notFound url => url
  | .failed url _ => url

/-- The wording of an error. -/
def message : DownloadError → String
  | .notFound url => "artefact not found: " ++ url
  | .failed url reason => "download failed for " ++ url ++ ": " ++ reason

end DownloadError

/-- What answers a request for an address, with a state of its own: the answer may differ from one
request to the next. -/
abbrev Fetcher (σ : Type) := String → σ → Except DownloadError (List UInt8) × σ

end PinnedManifest
