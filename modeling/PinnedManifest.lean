import PinnedManifest.Files.Edit
import PinnedManifest.Main
import PinnedManifest.ManifestTemplate.Shipped
import PinnedManifest.Proofs.Generation.AllOrNothing
import PinnedManifest.Proofs.Generation.Precedence
import PinnedManifest.Proofs.Generation.Success
import PinnedManifest.Proofs.Generation.Wording
import PinnedManifest.Proofs.Command.Outcome
import PinnedManifest.Proofs.Record.Mapping
import PinnedManifest.Proofs.ManifestTemplate.Shipped
import PinnedManifest.Proofs.Files.Parent
import PinnedManifest.Proofs.Files.Replaceable
import PinnedManifest.Proofs.Generation.Regeneration
import PinnedManifest.Proofs.Files.Watch
import PinnedManifest.Proofs.Files.Interruption
import PinnedManifest.Proofs.Generation.Atomicity
import PinnedManifest.Proofs.ManifestTemplate.Digests
import PinnedManifest.Proofs.Generation.Difference
import PinnedManifest.Proofs.Http.Address
import PinnedManifest.Proofs.Http.Pinned
import PinnedManifest.Proofs.Http.Responses
import PinnedManifest.Proofs.Generation.Requests
import PinnedManifest.Proofs.Generation.Statuses
import PinnedManifest.Proofs.Files.Frame
import PinnedManifest.Proofs.Files.Writable
import PinnedManifest.Proofs.Generation.Writable
import PinnedManifest.Proofs.Json.ReadBack
import PinnedManifest.Proofs.Record.Text
import PinnedManifest.Proofs.PinnedUrls.Joining
import PinnedManifest.Proofs.Generation.Addresses
import PinnedManifest.Proofs.PinnedUrls.Segments
import PinnedManifest.Proofs.Http.Failures
import PinnedManifest.Proofs.Generation.Plain
import PinnedManifest.Proofs.Http.BodyLimit
import PinnedManifest.Proofs.Revision.Verdict
import PinnedManifest.Proofs.CommandLine.Environment
import PinnedManifest.Proofs.CommandLine.RoundTrip
import PinnedManifest.Proofs.ManifestTemplate.Respelling
import PinnedManifest.Proofs.Files.Staging
import PinnedManifest.Proofs.Digest.Text
